import Mathlib.Data.Set.Basic
import MsysCore.Core.Forwarding

/-!
# At-most-once delivery

A call that is not safe to repeat may be written to one provider only. The retry
loop goes on past a provider when its error says that the packet never left Core. It
reads that from the error code alone, and the same code may stand in an error packet
that the provider itself sent after it got the call.
-/

namespace MsysCore.Core

open Python

/-! ## Fields of an answered packet -/

theorem isErrorPacket_set_id (d : Dict) (value : Json) :
    isErrorPacket (Dict.set d "id" value) = isErrorPacket d := by
  rw [isErrorPacket, get_set_ne (by decide)]
  rfl

theorem errorCode_set_id (py : Interpreter) (d : Dict) (value : Json) :
    errorCode py (Dict.set d "id" value) = errorCode py d := by
  rw [errorCode, get_set_ne (by decide)]
  rfl

/-! ## One attempt -/

/-- A reply that the loop takes for a packet that was never sent. -/
def ClaimsNoSocket (py : Interpreter) (response : Dict) : Prop :=
  isErrorPacket response = true ∧ errorCode py response = lit "NO_PROVIDER_SOCKET"

/-- The replies of the providers stay within a set. -/
def RepliesIn (replies : Set Dict) (attempts : List Attempt) : Prop :=
  ∀ attempt ∈ attempts, ∀ provider response,
    attempt.answer provider = some (.reply response) → response ∈ replies

section Attempt

variable {py : Interpreter} {provider : Provider} {msg : Dict} {source : PyStr} {attempt : Attempt}

theorem forwardCall_writes_le : (forwardCall py provider msg source attempt).writes.length ≤ 1 := by
  unfold forwardCall writeCall
  split
  · simp
  · split
    · simp
    · split
      · simp
      · simp
      · split <;> simp

theorem errorCode_errorReply (id : Json) (code : String) (message : PyStr) :
    errorCode py (errorReply id code message) = lit code := by
  simp [errorCode, errorReply, record, Dict.get, Dict.get?, isKey, text, lit, toStr]

theorem isErrorPacket_errorReply (id : Json) (code : String) (message : PyStr) :
    isErrorPacket (errorReply id code message) = true := by
  simp [isErrorPacket, errorReply, record, Dict.get, Dict.get?, isKey, text, isText]

/-- A written call comes back with the code only from the provider itself. -/
theorem forwardCall_noSocket {response : Dict}
    (hresult : (forwardCall py provider msg source attempt).result = .ok response)
    (hclaims : ClaimsNoSocket py response) :
    (forwardCall py provider msg source attempt).writes = [] ∨
      ∃ reply, attempt.answer provider = some (.reply reply) ∧ ClaimsNoSocket py reply := by
  have hne : ∀ (id : Json) (code : String) (message : PyStr), code ≠ "NO_PROVIDER_SOCKET" →
      ¬ ClaimsNoSocket py (errorReply id code message) := by
    intro id code message hcode hclaims
    have h := hclaims.2
    rw [errorCode_errorReply] at h
    exact hcode (lit_injective h)
  unfold forwardCall at hresult ⊢
  cases hanswer : attempt.answer provider with
  | none => exact .inl rfl
  | some answer =>
    simp only [hanswer, writeCall] at hresult ⊢
    split at hresult
    · cases hresult
    · split at hresult
      · cases hresult
      · exact .inl rfl
      · split at hresult
        · cases hresult
        · cases hresult
          cases answer with
          | sendFailed reason => exact absurd hclaims (hne _ _ _ (by decide))
          | timeout => exact absurd hclaims (hne _ _ _ (by decide))
          | reply reply =>
            refine .inr ⟨reply, rfl, ?_⟩
            rw [answerPacket, ClaimsNoSocket, isErrorPacket_set_id, errorCode_set_id] at hclaims
            exact hclaims

end Attempt

/-! ## The loop -/

theorem retry_writes_le {py : Interpreter} {msg : Dict} {source : PyStr} {loop : RetryLoop}
    (hsafe : loop.retrySafe = false) {replies : Set Dict}
    (hreplies : ∀ reply ∈ replies, ¬ ClaimsNoSocket py reply) (attempts : List Attempt) :
    ∀ (attempted : List PyStr) (lastError : Option Dict), RepliesIn replies attempts →
      (retry py msg source loop attempts attempted lastError).writes.length ≤ 1 := by
  induction attempts with
  | nil => simp [retry]
  | cons attempt attempts ih =>
    intro attempted lastError hin
    have hrest : RepliesIn replies attempts := fun a ha => hin a (List.mem_cons_of_mem _ ha)
    rw [retry]
    split
    · simp
    · simp
    · rename_i provider _
      have hle := @forwardCall_writes_le py provider msg source attempt
      simp only
      split
      · exact hle
      · rename_i response hresult
        split_ifs with herror hfinal hunknown
        · exact hle
        · exact hle
        · split <;> exact hle
        · split
          · exact hle
          · -- the loop goes on: nothing was written, or the provider sent the code itself
            have hclaims : ClaimsNoSocket py response := by
              refine ⟨by simpa using herror, ?_⟩
              simpa [hsafe] using hunknown
            rcases forwardCall_noSocket hresult hclaims with hwrites | ⟨reply, hanswer, hreply⟩
            · simpa [hwrites] using ih _ _ hrest
            · exact absurd hreply (hreplies reply (hin attempt (by simp) provider reply hanswer))

theorem dispatchRoleCall_writes_le {py : Interpreter} {env : RoleSurroundings} {msg : Dict}
    {source : PyStr} (hsafe : roleRetrySafe py msg = false) {replies : Set Dict}
    (hreplies : ∀ reply ∈ replies, ¬ ClaimsNoSocket py reply)
    (hin : RepliesIn replies env.attempts) :
    (dispatchRoleCall py env msg source).writes.length ≤ 1 := by
  have hretry : ∀ requestId,
      (retry py msg source (roleLoop py msg requestId) env.attempts [] none).writes.length ≤ 1 :=
    fun requestId => retry_writes_le hsafe hreplies env.attempts [] none hin
  unfold dispatchRoleCall
  split
  · simp
  · simp only
    split_ifs
    · simp
    · split
      · simp
      · exact hretry _
    · exact hretry _

theorem dispatchInterfaceCall_writes_le {py : Interpreter} {attempts : List Attempt} {msg : Dict}
    {source : PyStr} (hsafe : idempotentCall py msg = false) {replies : Set Dict}
    (hreplies : ∀ reply ∈ replies, ¬ ClaimsNoSocket py reply)
    (hin : RepliesIn replies attempts) :
    (dispatchInterfaceCall py attempts msg source).writes.length ≤ 1 := by
  unfold dispatchInterfaceCall
  split
  · simp
  · split_ifs
    · simp
    · exact retry_writes_le hsafe hreplies attempts [] none hin

/-! ## The property and its condition -/

/-- One run of either dispatch writes the forwarded packet at most once, whatever the
catalogs, the candidates and the channels do, when providers reply within `replies`. -/
def AtMostOnce (py : Interpreter) (replies : Set Dict) : Prop :=
  (∀ (env : RoleSurroundings) (msg : Dict) (source : PyStr), roleRetrySafe py msg = false →
    RepliesIn replies env.attempts → (dispatchRoleCall py env msg source).writes.length ≤ 1) ∧
  (∀ (attempts : List Attempt) (msg : Dict) (source : PyStr), idempotentCall py msg = false →
    RepliesIn replies attempts → (dispatchInterfaceCall py attempts msg source).writes.length ≤ 1)

/-- The candidates `a` and `b`, both running. -/
def twoCandidates : Round :=
  { ordered := some [lit "a", lit "b"], visit := fun _ => .usable 0 }

/-- Every provider answers with the same packet. -/
def answering (reply : Dict) : Attempt :=
  { rounds := [twoCandidates], now := 0, requestId := 1, answer := fun _ => some (.reply reply),
    stop := .ok () }

def plainCall (target : String) : Dict :=
  record [("type", text "call"), ("id", .int 1), ("target", text target), ("method", text "set")]

theorem forwardCall_answering {py : Interpreter} {reply : Dict} {provider : Provider}
    {target : String} {source : PyStr}
    (hencodable : Encodable (forwardedPacket provider (plainCall target) source 1)) :
    (forwardCall py provider (plainCall target) source (answering reply)).writes.length = 1 ∧
    (forwardCall py provider (plainCall target) source (answering reply)).result =
      .ok (Dict.set reply "id" (.int 1)) := by
  have hid : toInt py (callerId (plainCall target)) = .ok 1 := by
    simp [plainCall, callerId, Dict.get, Dict.get?, record, isKey, text, lit, toInt]
  have hdeadline : deadlineExpired (plainCall target) 0 = .ok false := by
    simp [plainCall, deadlineExpired, Dict.get?, record, isKey, text, lit]
  simp [forwardCall, answering, writeCall, hid, hdeadline, encode_of_encodable hencodable,
    answerPacket]

theorem ClaimsNoSocket.set_id {py : Interpreter} {response : Dict} (h : ClaimsNoSocket py response)
    (value : Json) : ClaimsNoSocket py (Dict.set response "id" value) := by
  rw [ClaimsNoSocket, isErrorPacket_set_id, errorCode_set_id]
  exact h

theorem ClaimsNoSocket.not_expired {py : Interpreter} {response : Dict}
    (h : ClaimsNoSocket py response) : expiredBeforeProviderDelivery response = false := by
  have hcode : isText "CALL_TIMEOUT" (Dict.get response "code" .null) = false := by
    have hsocket := h.2
    unfold errorCode at hsocket
    unfold Dict.get at hsocket ⊢
    cases hget : Dict.get? response "code" with
    | none => rfl
    | some code =>
      rw [hget] at hsocket
      cases code with
      | str s =>
        have hs : s = lit "NO_PROVIDER_SOCKET" := hsocket
        rw [hs]
        decide
      | _ => rfl
  simp [expiredBeforeProviderDelivery, hcode]

/-- The loop turns to the next candidate. -/
theorem retry_next {py : Interpreter} {msg : Dict} {source : PyStr} {loop : RetryLoop}
    {attempt : Attempt} {attempts : List Attempt} {attempted : List PyStr}
    {lastError : Option Dict} {provider : Provider} {response : Dict}
    (hprovider : providerFor attempted 3 attempt.rounds = .ok (some provider))
    (hresult : (forwardCall py provider msg source attempt).result = .ok response)
    (hclaims : ClaimsNoSocket py response) (hstop : attempt.stop = .ok ()) :
    (retry py msg source loop (attempt :: attempts) attempted lastError).writes =
      (forwardCall py provider msg source attempt).writes ++
        (retry py msg source loop attempts (provider.key :: attempted) (some response)).writes := by
  have hlive : (roleLivenessErrors.map lit).contains (lit "NO_PROVIDER_SOCKET") = true := by decide
  rw [retry]
  simp only [hprovider, hresult, hclaims.1, hclaims.not_expired, hclaims.2, hlive, hstop,
    Bool.not_true, Bool.false_eq_true, if_false, Bool.or_self, bne_self_eq_false, Bool.and_false]

theorem retry_two_writes {py : Interpreter} {loop : RetryLoop} {target : String} {reply : Dict}
    (hclaims : ClaimsNoSocket py reply)
    (ha : Encodable (forwardedPacket ⟨lit "a", 0⟩ (plainCall target) [] 1))
    (hb : Encodable (forwardedPacket ⟨lit "b", 0⟩ (plainCall target) [] 1)) :
    (retry py (plainCall target) [] loop [answering reply, answering reply] [] none).writes.length
      = 2 := by
  have hfirst : providerFor [] 3 (answering reply).rounds = .ok (some ⟨lit "a", 0⟩) := rfl
  have hsecond : providerFor [lit "a"] 3 (answering reply).rounds = .ok (some ⟨lit "b", 0⟩) := rfl
  obtain ⟨hwritesA, hresultA⟩ := @forwardCall_answering py reply _ _ _ ha
  obtain ⟨hwritesB, hresultB⟩ := @forwardCall_answering py reply _ _ _ hb
  have hset := hclaims.set_id (.int 1)
  rw [retry_next hfirst hresultA hset rfl, retry_next hsecond hresultB hset rfl]
  simp [hwritesA, hwritesB, retry]

theorem repliesIn_answering {replies : Set Dict} {reply : Dict} (h : reply ∈ replies) :
    RepliesIn replies [answering reply, answering reply] := by
  intro attempt hattempt provider response hanswer
  have heq : attempt = answering reply := by simpa using hattempt
  rw [heq] at hanswer
  cases hanswer
  exact h

/-- Two providers, asked in turn by a call of `role:r`. -/
def twoProviders (reply : Dict) : RoleSurroundings :=
  { providerRunning := false, announceClosing := .ok (),
    attempts := [answering reply, answering reply] }

theorem targetName_plainCall (py : Interpreter) :
    targetName py (plainCall "role:r") = lit "r" := rfl

theorem methodName_plainCall (py : Interpreter) :
    methodName py (plainCall "role:r") = lit "set" := rfl

theorem roleRetrySafe_plainCall (py : Interpreter) :
    roleRetrySafe py (plainCall "role:r") = false := by
  rw [roleRetrySafe, idempotentCall, targetName_plainCall, methodName_plainCall]
  decide

theorem dispatchRoleCall_two_writes {py : Interpreter} {reply : Dict}
    (hclaims : ClaimsNoSocket py reply) :
    (dispatchRoleCall py (twoProviders reply) (plainCall "role:r") []).writes.length = 2 := by
  have hid : toInt py (callerId (plainCall "role:r")) = .ok 1 := by
    simp [plainCall, callerId, Dict.get, Dict.get?, record, isKey, text, lit, toInt]
  have hnoop : isNoStartNoop (lit "r") (lit "set") = false := by decide
  have hrole : (lit "r" == lit "window-manager") = false := by decide
  unfold dispatchRoleCall
  simp only [hid, targetName_plainCall, methodName_plainCall, hnoop, hrole, Bool.false_and,
    Bool.false_eq_true, if_false]
  exact retry_two_writes hclaims (by decide +kernel) (by decide +kernel)

/-- For every set of packets that providers may send, delivery is at most once exactly
when no packet of the set is an error with the code `NO_PROVIDER_SOCKET`. -/
theorem atMostOnce_iff (py : Interpreter) (replies : Set Dict) :
    AtMostOnce py replies ↔ ∀ reply ∈ replies, ¬ ClaimsNoSocket py reply := by
  constructor
  · rintro ⟨hrole, -⟩ reply hreply hclaims
    have hle := hrole (twoProviders reply) (plainCall "role:r") [] (roleRetrySafe_plainCall py)
      (repliesIn_answering hreply)
    rw [dispatchRoleCall_two_writes hclaims] at hle
    omega
  · intro hreplies
    exact ⟨fun env msg source hsafe hin => dispatchRoleCall_writes_le hsafe hreplies hin,
      fun attempts msg source hsafe hin => dispatchInterfaceCall_writes_le hsafe hreplies hin⟩

/-- A provider that passes on the error of a call it made itself. -/
def relayedError : Dict :=
  record [("type", text "error"), ("id", .int 1), ("code", text "NO_PROVIDER_SOCKET")]

/-- The call is written to `a`, which answers, and then to `b`. -/
theorem relayedError_two_writes : ¬ ∀ py, AtMostOnce py Set.univ := by
  intro h
  have hle := (h asciiInterpreter).1 (twoProviders relayedError) (plainCall "role:r") []
    (by decide +kernel) (repliesIn_answering (Set.mem_univ _))
  rw [dispatchRoleCall_two_writes ⟨by decide +kernel, by decide +kernel⟩] at hle
  omega

end MsysCore.Core
