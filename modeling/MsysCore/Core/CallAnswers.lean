import MsysCore.Core.CallExceptions
import MsysCore.Core.AtMostOnce

/-!
# When a call is answered

Which calls get exactly one answer with the caller's own id. The answer is lost when an
exception leaves the dispatch of a component's call, when the answer cannot be encoded
and when a public line is too long; it carries another id when the id of the call is not
an integer and the answer holds `int(id)`, or 0.
-/

namespace MsysCore.Core

open Python

/-! ## Shape of an answer -/

/-- A packet of type `return` or `error`. -/
def IsReply (message : Dict) : Prop :=
  packetType message = .returned ∨ packetType message = .error

/-- Exactly one packet is written, a reply with the given id. -/
def AnsweredOnce (id : Json) (written : Except PyError (List Packet)) : Prop :=
  ∃ packet, written = .ok [packet] ∧ IsReply packet.message ∧
    Dict.get? packet.message "id" = some id

/-- The id of the call is an integer, or it is left out and stands for 0. -/
def PlainId (msg : Dict) : Prop := ∃ i, callerId msg = .int i

theorem isReply_set_id {message : Dict} {value : Json} (h : IsReply message) :
    IsReply (Dict.set message "id" value) := by
  unfold IsReply packetType at h ⊢
  rw [get?_set_ne (by decide)]
  exact h

theorem isReply_of_isErrorPacket {message : Dict} (h : isErrorPacket message = true) :
    IsReply message := by
  unfold isErrorPacket Dict.get isText at h
  unfold IsReply packetType
  cases htype : Dict.get? message "type" with
  | none =>
    rw [htype] at h
    cases h
  | some t =>
    rw [htype] at h
    cases t with
    | str s =>
      have hs : s = lit "error" := by simpa using h
      subst hs
      exact .inr (by decide)
    | _ => cases h

theorem isReply_errorReply (id : Json) (code : String) (message : PyStr) :
    IsReply (errorReply id code message) :=
  isReply_of_isErrorPacket (isErrorPacket_errorReply id code message)

theorem get?_errorReply (id : Json) (code : String) (message : PyStr) :
    Dict.get? (errorReply id code message) "id" = some id := by
  simp [errorReply]

theorem isReply_packet (id : Json) (body : Body) : IsReply (body.packet id) := by
  have hreturn : packetType (record [("type", text "return")]) = .returned := by decide
  have herror : packetType (record [("type", text "error")]) = .error := by decide
  unfold IsReply packetType at *
  cases body with
  | returned payload =>
    left
    simpa [Body.packet] using hreturn
  | failed code message payload =>
    right
    simpa [Body.packet] using herror

theorem get?_packet (id : Json) (body : Body) : Dict.get? (body.packet id) "id" = some id := by
  cases body <;> simp [Body.packet]

/-! ## Answers of the dispatch -/

/-- Readers resolve a pending call with packets of type `return` and `error` only. -/
def RepliesTyped (attempts : List Attempt) : Prop :=
  ∀ attempt ∈ attempts, ∀ provider reply,
    attempt.answer provider = some (.reply reply) → IsReply reply

section Forward

variable {py : Interpreter} {provider : Provider} {msg : Dict} {source : PyStr} {attempt : Attempt}

theorem forwardCall_ok {response : Dict} (htyped : RepliesTyped [attempt])
    (h : (forwardCall py provider msg source attempt).result = .ok response) :
    (attempt.answer provider = none ∧ response = noSocketPacket msg) ∨
      ((attempt.answer provider).isSome = true ∧ IsReply response ∧
        ∃ id, toInt py (callerId msg) = .ok id ∧ Dict.get? response "id" = some (.int id)) := by
  unfold forwardCall at h
  cases hanswer : attempt.answer provider with
  | none =>
    rw [hanswer] at h
    cases h
    exact .inl ⟨rfl, rfl⟩
  | some answer =>
    refine .inr ⟨rfl, ?_⟩
    simp only [hanswer, writeCall] at h
    split at h
    · cases h
    · rename_i id hid
      split at h
      · cases h
      · cases h
        exact ⟨isReply_errorReply _ _ _, id, hid, get?_errorReply _ _ _⟩
      · split at h
        · cases h
        · cases h
          cases answer with
          | sendFailed reason => exact ⟨isReply_errorReply _ _ _, id, hid, get?_errorReply _ _ _⟩
          | timeout => exact ⟨isReply_errorReply _ _ _, id, hid, get?_errorReply _ _ _⟩
          | reply reply =>
            have hreply := htyped attempt (by simp) provider reply hanswer
            exact ⟨isReply_set_id hreply, id, hid, get?_set_self _ _ _⟩

end Forward

section Loop

variable {py : Interpreter} {msg : Dict} {source : PyStr} {loop : RetryLoop}

theorem finish_ok (hnone : IsReply loop.noProvider ∧
      Dict.get? loop.noProvider "id" = some (.int loop.requestId))
    {lastError : Option Dict} (hlast : ∀ e, lastError = some e → IsReply e) :
    IsReply (loop.finish lastError) ∧
      Dict.get? (loop.finish lastError) "id" = some (.int loop.requestId) := by
  cases lastError with
  | none => exact hnone
  | some e => exact ⟨isReply_set_id (hlast e rfl), get?_set_self _ _ _⟩

/-- Whatever the loop returns is a reply that carries `int(id)`. -/
theorem retry_ok (hid : toInt py (callerId msg) = .ok loop.requestId)
    (hnone : IsReply loop.noProvider ∧
      Dict.get? loop.noProvider "id" = some (.int loop.requestId))
    (attempts : List Attempt) : ∀ (attempted : List PyStr) (lastError : Option Dict)
      (response : Dict), RepliesTyped attempts → (∀ e, lastError = some e → IsReply e) →
      (retry py msg source loop attempts attempted lastError).result = .ok response →
      IsReply response ∧ Dict.get? response "id" = some (.int loop.requestId) := by
  induction attempts with
  | nil =>
    intro attempted lastError response _ hlast h
    cases h
    exact finish_ok hnone hlast
  | cons attempt attempts ih =>
    intro attempted lastError response htyped hlast h
    have hrest : RepliesTyped attempts := fun a ha => htyped a (List.mem_cons_of_mem _ ha)
    have hone : RepliesTyped [attempt] := by
      intro a ha
      exact htyped a (by simp_all)
    rw [retry] at h
    split at h
    · cases h
    · cases h
      exact finish_ok hnone hlast
    · simp only at h
      split at h
      · cases h
      · rename_i answer hanswer
        split_ifs at h with herror hfinal hunknown
        · cases h
          rcases forwardCall_ok hone hanswer with ⟨-, rfl⟩ | ⟨-, hreply, id, hid', hget⟩
          · exact absurd herror (by simp [isErrorPacket, noSocketPacket, record, Dict.get,
              Dict.get?, isKey, text, isText])
          · rw [hid] at hid'
            cases hid'
            exact ⟨hreply, hget⟩
        · cases h
          have hreply := isReply_of_isErrorPacket (by simpa using herror)
          exact ⟨isReply_set_id hreply, get?_set_self _ _ _⟩
        · split at h
          · cases h
          · cases h
            exact ⟨isReply_errorReply _ _ _, get?_errorReply _ _ _⟩
        · split at h
          · cases h
          · refine ih _ _ _ hrest ?_ h
            rintro e he
            cases he
            exact isReply_of_isErrorPacket (by simpa using herror)

end Loop

theorem intId_eq_iff {py : Interpreter} {msg : Dict} {id : ℤ}
    (hid : toInt py (callerId msg) = .ok id) : some (.int id) = some (callerId msg) ↔ PlainId msg := by
  constructor
  · intro h
    exact ⟨id, (Option.some.inj h).symm⟩
  · rintro ⟨i, hi⟩
    rw [hi] at hid ⊢
    cases hid
    rfl

section Dispatch

variable {py : Interpreter} {msg : Dict} {source : PyStr}

theorem dispatchRoleCall_ok {env : RoleSurroundings} {response : Dict}
    (htyped : RepliesTyped env.attempts)
    (h : (dispatchRoleCall py env msg source).result = .ok response) :
    ∃ id, toInt py (callerId msg) = .ok id ∧ IsReply response ∧
      Dict.get? response "id" = some (.int id) := by
  unfold dispatchRoleCall at h
  split at h
  · cases h
  · rename_i id hid
    have hretry : ∀ r, (retry py msg source (roleLoop py msg id) env.attempts [] none).result =
        .ok r → IsReply r ∧ Dict.get? r "id" = some (.int id) := by
      intro r hr
      exact retry_ok hid ⟨isReply_errorReply _ _ _, get?_errorReply _ _ _⟩ env.attempts [] none r
        htyped (by simp) hr
    refine ⟨id, hid, ?_⟩
    simp only at h
    split_ifs at h
    · cases h
      exact ⟨.inl (by simp [packetType]; decide), by simp⟩
    · split at h
      · cases h
      · exact hretry _ h
    · exact hretry _ h

theorem dispatchInterfaceCall_ok {attempts : List Attempt} {response : Dict}
    (htyped : RepliesTyped attempts)
    (h : (dispatchInterfaceCall py attempts msg source).result = .ok response) :
    ∃ id, toInt py (callerId msg) = .ok id ∧ IsReply response ∧
      Dict.get? response "id" = some (.int id) := by
  unfold dispatchInterfaceCall at h
  split at h
  · cases h
  · rename_i id hid
    refine ⟨id, hid, ?_⟩
    split_ifs at h
    · cases h
      exact ⟨isReply_errorReply _ _ _, get?_errorReply _ _ _⟩
    · exact retry_ok hid ⟨isReply_errorReply _ _ _, get?_errorReply _ _ _⟩ attempts [] none
        response htyped (by simp) h

/-- Every reply that the dispatch can meet is a `return` or an `error`. -/
def CallSurroundings.Typed (env : CallSurroundings) : Prop :=
  RepliesTyped env.role.attempts ∧ RepliesTyped env.interface ∧
    ∀ key provider attempt, env.component key = .ok (provider, attempt) → RepliesTyped [attempt]

/-- A `component:` target whose provider has no channel: Core answers itself. -/
def NoChannel (py : Interpreter) (env : CallSurroundings) (msg : Dict) : Prop :=
  (targetName py msg).isEmpty = false ∧ env.core.knownComponent (targetName py msg) = true ∧
    ∃ provider attempt, env.component (targetName py msg) = .ok (provider, attempt) ∧
      attempt.answer provider = none

/-- The answer holds the id as it came, and not `int(id)`. -/
def EchoesId (py : Interpreter) (env : CallSurroundings) (msg : Dict) : Prop :=
  PlainId msg ∨ match targetOf (targetText py msg) with
    | .core => True
    | .component => NoChannel py env msg
    | _ => False

theorem dispatchComponentTargetCall_ok {env : CallSurroundings} {response : Dict}
    (htyped : env.Typed) (h : dispatchComponentTargetCall py env msg source = .ok response) :
    IsReply response ∧ (Dict.get? response "id" = some (callerId msg) ↔
      PlainId msg ∨ NoChannel py env msg) := by
  obtain ⟨id, hid, h⟩ := bind_eq_ok.mp h
  have hint : ∀ code message, errorReply (.int id) code message = response →
      ¬ NoChannel py env msg →
      IsReply response ∧ (Dict.get? response "id" = some (callerId msg) ↔
        PlainId msg ∨ NoChannel py env msg) := by
    rintro code message rfl hchannel
    rw [get?_errorReply, intId_eq_iff hid]
    exact ⟨isReply_errorReply _ _ _, by simp [hchannel]⟩
  simp only at h
  split_ifs at h with hunknown
  · refine hint _ _ (Except.ok.inj h) ?_
    rintro ⟨hne, hknown, -⟩
    simp [hne, hknown] at hunknown
  · split at h
    · rename_i reason hcomponent
      refine hint _ _ (Except.ok.inj h) ?_
      rintro ⟨-, -, provider, attempt, hok, -⟩
      rw [hcomponent] at hok
      cases hok
    · rename_i provider attempt hcomponent
      have hchannel : NoChannel py env msg ↔ attempt.answer provider = none := by
        constructor
        · rintro ⟨-, -, provider', attempt', hok, hnone⟩
          rw [hcomponent] at hok
          cases hok
          exact hnone
        · intro hnone
          simp only [Bool.or_eq_true, Bool.not_eq_true', not_or, Bool.not_eq_true,
            Bool.not_eq_false] at hunknown
          exact ⟨hunknown.1, hunknown.2, provider, attempt, hcomponent, hnone⟩
      rcases forwardCall_ok (htyped.2.2 _ _ _ hcomponent) h with
        ⟨hnone, rfl⟩ | ⟨hsome, hreply, id', hid', hget⟩
      · refine ⟨.inr ?_, ?_⟩
        · simp [noSocketPacket, packetType]
          decide
        · simp [noSocketPacket, hchannel, hnone]
      · have hne : attempt.answer provider ≠ none := by
          intro hnone
          rw [hnone] at hsome
          cases hsome
        rw [hget, intId_eq_iff hid', hchannel]
        exact ⟨hreply, by simp [hne]⟩

/-- What the dispatch returns is a reply, and when it carries the caller's id. -/
theorem dispatchCall_ok {env : CallSurroundings} {response : Dict} (htyped : env.Typed)
    (h : dispatchCall py env msg source = .ok response) :
    IsReply response ∧
      (Dict.get? response "id" = some (callerId msg) ↔ EchoesId py env msg) := by
  obtain ⟨id, hid, h⟩ := bind_eq_ok.mp h
  unfold EchoesId
  simp only at h
  split at h
  · obtain ⟨id', hid', hreply, hget⟩ := dispatchRoleCall_ok htyped.1 h
    rw [hget, intId_eq_iff hid']
    simp_all
  · obtain ⟨id', hid', hreply, hget⟩ := dispatchInterfaceCall_ok htyped.2.1 h
    rw [hget, intId_eq_iff hid']
    simp_all
  · rename_i htarget
    rw [htarget]
    exact dispatchComponentTargetCall_ok htyped h
  · rename_i htarget
    obtain ⟨body, -, hbody⟩ := bind_eq_ok.mp h
    cases hbody
    rw [htarget, get?_packet]
    exact ⟨isReply_packet _ _, by simp⟩
  · rename_i htarget
    cases h
    rw [get?_errorReply, intId_eq_iff hid, htarget]
    exact ⟨isReply_errorReply _ _ _, by simp⟩

end Dispatch

/-! ## Denied calls -/

theorem optionalRequestId_eq_iff (msg : Dict) :
    some (Json.int ((optionalRequestId msg).getD 0)) = some (callerId msg) ↔ PlainId msg := by
  unfold optionalRequestId PlainId callerId Dict.get
  cases Dict.get? msg "id" with
  | none => simp
  | some id => cases id <;> simp

theorem isReply_of_type_error {fields : List (String × Json)} :
    IsReply (record (("type", text "error") :: fields)) := by
  refine isReply_of_isErrorPacket ?_
  simp [isErrorPacket, Dict.get, text, isText]

theorem accessDenied_denial (caller : Channel) (msg : Dict) (operation : String)
    (detail required : PyStr) :
    IsReply (accessDenied caller msg operation detail required) ∧
      (Dict.get? (accessDenied caller msg operation detail required) "id" = some (callerId msg) ↔
        PlainId msg) := by
  refine ⟨isReply_of_type_error, ?_⟩
  rw [← optionalRequestId_eq_iff]
  simp [accessDenied, componentError]

theorem authorizeComponentCall_denial {py : Interpreter} {env : CallSurroundings}
    {caller : Channel} {msg denial : Dict}
    (h : authorizeComponentCall py env caller msg = some denial) :
    IsReply denial ∧ (Dict.get? denial "id" = some (callerId msg) ↔ PlainId msg) := by
  unfold authorizeComponentCall at h
  simp only at h
  split_ifs at h
  · cases h
    exact accessDenied_denial _ _ _ _ _
  · cases h
    exact accessDenied_denial _ _ _ _ _

theorem publicAccessDenied_denial (msg : Dict) (reason : PyStr) :
    IsReply (publicAccessDenied msg reason) ∧
      (Dict.get? (publicAccessDenied msg reason) "id" = some (callerId msg) ↔ PlainId msg) := by
  refine ⟨isReply_of_type_error, ?_⟩
  rw [← optionalRequestId_eq_iff]
  simp [publicAccessDenied]

/-! ## The written packet -/

theorem encodePacket_of_encodable {message : Dict} (h : Encodable message) :
    ∃ packet, encodePacket message = .ok packet ∧ packet.message = message := by
  refine ⟨⟨message, _, encode_of_encodable h⟩, ?_, rfl⟩
  unfold encodePacket
  split
  · rename_i data hdata
    rw [encode_of_encodable h] at hdata
    cases hdata
    rfl
  · rename_i e he
    rw [encode_of_encodable h] at he
    cases he

theorem encodePacket_ok {message : Dict} {packet : Packet} (h : encodePacket message = .ok packet) :
    packet.message = message ∧ Encodable message := by
  unfold encodePacket at h
  split at h
  · rename_i data hdata
    cases h
    exact ⟨rfl, encode_returns_iff.mp ⟨data, hdata⟩⟩
  · cases h

theorem answeredOnce_encodePacket_iff {id : Json} {response : Dict} :
    AnsweredOnce id (do let packet ← encodePacket response; pure [packet]) ↔
      Encodable response ∧ IsReply response ∧ Dict.get? response "id" = some id := by
  constructor
  · rintro ⟨packet, hwritten, hreply, hid⟩
    obtain ⟨packet', hencode, hpure⟩ := bind_eq_ok.mp hwritten
    cases hpure
    obtain ⟨hmessage, hencodable⟩ := encodePacket_ok hencode
    rw [hmessage] at hreply hid
    exact ⟨hencodable, hreply, hid⟩
  · rintro ⟨hencodable, hreply, hid⟩
    obtain ⟨packet, hencode, rfl⟩ := encodePacket_of_encodable hencodable
    exact ⟨packet, bind_eq_ok.mpr ⟨packet, hencode, rfl⟩, hreply, hid⟩

theorem answeredOnce_sendReply_iff {env : Surroundings} {caller : Channel} {id : Json}
    {response : Dict} :
    AnsweredOnce id (sendReply env caller response) ↔ env.unreachable caller.key = false ∧
      Encodable response ∧ IsReply response ∧ Dict.get? response "id" = some id := by
  cases hreach : env.unreachable caller.key with
  | false =>
    simp only [sendReply, hreach, Bool.false_eq_true, if_false, true_and]
    exact answeredOnce_encodePacket_iff
  | true =>
    refine iff_of_false ?_ (by simp)
    rintro ⟨packet, hwritten, -⟩
    obtain ⟨packet', -, hpure⟩ := bind_eq_ok.mp hwritten
    simp [hreach] at hpure
    cases hpure

/-! ## The condition -/

/-- The call of a component is answered: its channel takes the packet; a denied call has a
plain id; the dispatch of a permitted one does not raise and keeps the id; and the answer
can be encoded. -/
def ComponentAnswerable (py : Interpreter) (env : CallSurroundings) (caller : Channel)
    (msg : Dict) : Prop :=
  env.core.broadcast.unreachable caller.key = false ∧
    match authorizeComponentCall py env caller msg with
    | some denial => PlainId msg ∧ Encodable denial
    | none => DispatchQuiet py env msg caller.key ∧ EchoesId py env msg ∧
        ∀ response, dispatchCall py env msg caller.key = .ok response → Encodable response

/-- On the public socket a call that raises is answered with the id as it came. -/
def PublicEchoes (py : Interpreter) (env : CallSurroundings) (msg : Dict) : PublicPeer → Prop
  | .unknown _ => PlainId msg
  | .stranger => PlainId msg
  | .root => DispatchQuiet py env msg (lit "public") → EchoesId py env msg
  | .managed channel =>
    match authorizeComponentCall py env channel msg with
    | some _ => PlainId msg
    | none => DispatchQuiet py env msg channel.key → EchoesId py env msg

/-- The line of a public client is answered: it is within the limit of the reader, the id
is kept and the answer can be encoded. -/
def PublicAnswerable (py : Interpreter) (env : CallSurroundings) (peer : PublicPeer)
    (line : Bytes) (msg : Dict) : Prop :=
  line.length ≤ streamLimit ∧ PublicEchoes py env msg peer ∧
    Encodable (publicResponse py env peer msg)

theorem componentCall_answered_iff {py : Interpreter} {env : CallSurroundings} (htyped : env.Typed)
    (caller : Channel) (msg : Dict) :
    AnsweredOnce (callerId msg) (dispatchComponentCall py env caller msg) ↔
      ComponentAnswerable py env caller msg := by
  unfold dispatchComponentCall ComponentAnswerable
  cases hdenial : authorizeComponentCall py env caller msg with
  | some denial =>
    obtain ⟨hreply, hid⟩ := authorizeComponentCall_denial hdenial
    refine answeredOnce_sendReply_iff.trans (and_congr_right fun _ => ?_)
    simp only [hreply, hid, true_and]
    exact and_comm
  | none =>
    simp only [← dispatchCall_returns_iff]
    cases hresponse : dispatchCall py env msg caller.key with
    | error e =>
      refine iff_of_false ?_ (by simp)
      rintro ⟨packet, hwritten, -⟩
      cases hwritten
    | ok response =>
      obtain ⟨hreply, hid⟩ := dispatchCall_ok htyped hresponse
      refine answeredOnce_sendReply_iff.trans (and_congr_right fun _ => ?_)
      simp only [hreply, hid, true_and, returns_ok, Except.ok.injEq, forall_eq']
      exact and_comm

theorem publicResponse_ok {py : Interpreter} {env : CallSurroundings} (htyped : env.Typed)
    (peer : PublicPeer) {msg : Dict} (hcall : packetType msg = .call) :
    IsReply (publicResponse py env peer msg) ∧
      (Dict.get? (publicResponse py env peer msg) "id" = some (callerId msg) ↔
        PublicEchoes py env msg peer) := by
  have hdispatch : ∀ source, publicDispatch py env peer msg = dispatchCall py env msg source →
      IsReply (publicResponse py env peer msg) ∧
      (Dict.get? (publicResponse py env peer msg) "id" = some (callerId msg) ↔
        (DispatchQuiet py env msg source → EchoesId py env msg)) := by
    intro source hsource
    rw [publicResponse, if_pos hcall, hsource, ← dispatchCall_returns_iff]
    cases hresponse : dispatchCall py env msg source with
    | ok response =>
      obtain ⟨hreply, hid⟩ := dispatchCall_ok htyped hresponse
      exact ⟨hreply, by simp [hid]⟩
    | error e => exact ⟨isReply_errorReply _ _ _, by simp [get?_errorReply]⟩
  cases peer with
  | unknown reason =>
    rw [publicResponse, if_pos hcall]
    exact publicAccessDenied_denial msg _
  | stranger =>
    rw [publicResponse, if_pos hcall]
    exact publicAccessDenied_denial msg _
  | root => exact hdispatch _ rfl
  | managed channel =>
    cases hdenial : authorizeComponentCall py env channel msg with
    | some denial =>
      rw [publicResponse, if_pos hcall]
      simp only [publicDispatch, PublicEchoes, hdenial]
      exact authorizeComponentCall_denial hdenial
    | none =>
      simp only [PublicEchoes, hdenial]
      exact hdispatch _ (by simp only [publicDispatch, hdenial])

theorem publicCall_answered_iff {py : Interpreter} {env : CallSurroundings} (htyped : env.Typed)
    (peer : PublicPeer) {line : Bytes} {msg : Dict}
    (hdecode : decode py (stripBytes (line ++ [10])) = .ok msg) (hcall : packetType msg = .call) :
    AnsweredOnce (callerId msg) (handlePublicClient py env peer line) ↔
      PublicAnswerable py env peer line msg := by
  unfold handlePublicClient PublicAnswerable readline
  by_cases hlimit : streamLimit < line.length
  · refine iff_of_false ?_ (fun h => absurd h.1 (Nat.not_le.mpr hlimit))
    rw [if_pos hlimit]
    rintro ⟨packet, hwritten, -⟩
    cases hwritten
  · obtain ⟨hreply, hid⟩ := publicResponse_ok htyped peer hcall
    have hrun : (do
        let data ← (Except.ok (line ++ [10]) : Except PyError Bytes)
        let msg ← decode py (stripBytes data)
        let packet ← encodePacket (publicResponse py env peer msg)
        pure [packet]) =
        (do let packet ← encodePacket (publicResponse py env peer msg); pure [packet]) := by
      show (decode py (stripBytes (line ++ [10])) >>= _) = _
      rw [hdecode]
      rfl
    rw [if_neg hlimit, hrun, answeredOnce_encodePacket_iff, hid]
    simp only [hreply, true_and, Nat.not_lt.mp hlimit]
    exact and_comm

/-- No provider answers, no component is known and every operation of Core fails. -/
def deadSurroundings : CallSurroundings where
  core :=
    { broadcast := quietSurroundings, activateRole := fun _ => .unknownRole,
      sessionPreferences := [], setLanguage := fun _ => .rejected [], navigation := .noForeground,
      background := fun _ => .unavailable, services := fun _ _ => osError,
      intentCandidates := fun _ => osError, knownComponent := fun _ => false, roles := osError,
      preflight := fun _ _ => .ok .null, preflightRemoval := fun _ => .ok .null,
      reload := fun _ _ => .ok .null, switchRole := fun _ _ _ => osError,
      queueMigration := fun _ _ => osError, roleCandidates := fun _ => none,
      migrationStatus := fun _ => .null, components := osError, processes := fun _ _ _ => osError,
      isolationCapabilities := osError, apps := osError, ensureReady := fun _ _ => osError,
      stopComponent := fun _ => osError, foregroundEntries := fun _ => osError, choiceDeadline := 0,
      chooser := { providerRunning := false, announceClosing := .ok (), attempts := [] },
      windowManager := { providerRunning := false, announceClosing := .ok (), attempts := [] } }
  role := { providerRunning := false, announceClosing := .ok (), attempts := [] }
  interface := []
  component := fun _ => .error []
  interfacesOf := fun _ => []

theorem deadSurroundings_typed : deadSurroundings.Typed := by
  refine ⟨?_, ?_, ?_⟩
  · intro attempt hattempt
    cases hattempt
  · intro attempt hattempt
    cases hattempt
  · intro key provider attempt h
    cases h

/-- A component that may call everything. -/
def trustedChannel : Channel := { idleChannel with permissions := [lit "mipc.call:*"] }

def coreRequest (method : String) (payload : Json) : Dict :=
  record [("type", text "call"), ("id", .int 1), ("target", text "msys.core"),
    ("method", text method), ("payload", payload)]

/-- The bytes of `coreRequest method payload`. -/
def coreRequestBytes (method payload : String) : Bytes :=
  asciiBytes ("\x7b\"type\":\"call\",\"id\":1,\"target\":\"msys.core\",\"method\":\"" ++ method ++
    "\",\"payload\":" ++ payload ++ "\x7d")

end MsysCore.Core
