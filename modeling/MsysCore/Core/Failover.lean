import MsysCore.Core.AtMostOnce

/-!
# Failover of calls that are safe to repeat

A call under a catalog that does not change is a list of turns of the retry loop: which
provider is active, which candidates get ready, and how the provider that is chosen
answers. A transport failure is an answer that Core makes up itself; the loop goes on to the
next provider when the code of the failure is in `ROLE_LIVENESS_ERRORS`.
-/

namespace MsysCore.Core

open Python

/-- How a forwarded call can fail without an answer of the provider. -/
inductive TransportFailure
  | timeout
  | sendFailed (reason : PyStr)
  | noSocket
  | exited
  | stopped
  | channelFailed
  deriving DecidableEq

/-- Code that `_close_instance_channel` puts into the calls pending on the provider. -/
def closedAnswer (key : PyStr) (requestId : ℤ) (code : String) : Option Answer :=
  some (.reply (errorReply (.int requestId) code key))

def TransportFailure.answer (key : PyStr) (requestId : ℤ) : TransportFailure → Option Answer
  | .timeout => some .timeout
  | .sendFailed reason => some (.sendFailed reason)
  | .noSocket => none
  | .exited => closedAnswer key requestId "PROVIDER_EXITED"
  | .stopped => closedAnswer key requestId "PROVIDER_STOPPED"
  | .channelFailed => closedAnswer key requestId "PROVIDER_CHANNEL_FAILED"

/-- What a lookup finds out about a candidate; `refused` is a conflict over the lease. -/
inductive Candidate
  | notReady
  | refused
  | ready (instanceId : ℕ)
  deriving DecidableEq

def Candidate.visit : Candidate → Visit
  | .notReady => .failed
  | .refused => .acquireFailed
  | .ready instanceId => .usable instanceId

/-- One turn of the loop under a catalog that stays. -/
structure Turn where
  active : Option PyStr
  candidate : PyStr → Candidate
  now : ℚ
  requestId : ℤ
  /-- The failure of the transport, or the reply of the provider itself. -/
  answer : Provider → TransportFailure ⊕ Dict
  stop : Except PyError Unit

/-- A call of a role, or of an interface when nothing is active or preferred. The turns go on
for longer than there are candidates. -/
structure StableCall where
  preferred : Option PyStr
  candidates : List PyStr
  turns : List Turn
  preferred_mem : ∀ key ∈ preferred, key ∈ candidates
  active_mem : ∀ turn ∈ turns, ∀ key ∈ turn.active, key ∈ candidates
  /-- A component key is `package:component`. -/
  colon : ∀ key ∈ candidates, ':'.toNat ∈ key
  enough : candidates.length < turns.length

namespace StableCall

/-- Active, preferred, then candidate order. -/
def order (preferred : Option PyStr) (candidates : List PyStr) (turn : Turn) : List PyStr :=
  (turn.active.toList ++ preferred.toList ++ candidates).eraseDups

def attempt (preferred : Option PyStr) (candidates : List PyStr) (turn : Turn) : Attempt where
  rounds := [{ ordered := some (turn.active.toList ++ preferred.toList ++ candidates)
               visit := fun key => (turn.candidate key).visit }]
  now := turn.now
  requestId := turn.requestId
  answer := fun provider => match turn.answer provider with
    | .inl failure => failure.answer provider.key turn.requestId
    | .inr response => some (.reply response)
  stop := turn.stop

def attempts (call : StableCall) : List Attempt :=
  call.turns.map (attempt call.preferred call.candidates)

end StableCall

section

variable (py : Interpreter) (msg : Dict) (source : PyStr) (loop : RetryLoop)

/-- The loop turns to the next provider after this one. -/
def triesNext (attempt : Attempt) (provider : Provider) : Bool :=
  match (forwardCall py provider msg source attempt).result with
  | .error _ => false
  | .ok response => isErrorPacket response && !(expiredBeforeProviderDelivery response
      || !(roleLivenessErrors.map lit).contains (errorCode py response)) && attempt.stop.isOk
      && (loop.retrySafe || errorCode py response == lit "NO_PROVIDER_SOCKET")

/-- The providers that the loop forwards the call to. -/
def triedProviders : List Attempt → List PyStr → List Provider
  | [], _ => []
  | attempt :: attempts, attempted =>
    match providerFor attempted 3 attempt.rounds with
    | .ok (some provider) => provider ::
      if triesNext py msg source loop attempt provider then
        triedProviders attempts (provider.key :: attempted)
      else []
    | _ => []

/-- The provider is the first of the order that is not excluded and ready, and everything
before it has not become ready. -/
structure FirstReady (order excluded : List PyStr) (turn : Turn) (provider : Provider) : Prop where
  fresh : provider.key ∉ excluded
  ready : turn.candidate provider.key = .ready provider.instanceId
  skipped : ∃ before after, order = before ++ provider.key :: after ∧
    ∀ key ∈ before, key ∈ excluded ∨ turn.candidate key = .notReady

/-- What a call that is safe to repeat may rely on. -/
structure FailoverComplete (call : StableCall) : Prop where
  once : ((triedProviders py msg source loop call.attempts []).map Provider.key).Nodup
  ordered : ∀ n provider, (triedProviders py msg source loop call.attempts [])[n]? = some provider →
    ∃ turn, call.turns[n]? = some turn ∧
      FirstReady (StableCall.order call.preferred call.candidates turn)
        (((triedProviders py msg source loop call.attempts []).take n).map Provider.key) turn provider
  terminates : ∀ more, retry py msg source loop (call.attempts ++ more) [] none =
    retry py msg source loop call.attempts [] none
  complete : ∀ response, (retry py msg source loop call.attempts [] none).result = .ok response →
    isErrorPacket response = true → ∀ n provider turn failure,
    (triedProviders py msg source loop call.attempts []).length = n + 1 →
    (triedProviders py msg source loop call.attempts [])[n]? = some provider →
    call.turns[n]? = some turn → turn.answer provider = .inl failure →
    ∀ key ∈ call.candidates,
      key ∈ (triedProviders py msg source loop call.attempts []).map Provider.key ∨
        ∃ last, call.turns[n + 1]? = some last ∧ last.candidate key = .notReady

end

/-! ## Lookup -/

/-- The candidate loop of one turn. -/
def firstReady (excluded : List PyStr) (candidate : PyStr → Candidate) :
    List PyStr → Option Provider
  | [] => none
  | key :: rest =>
    if excluded.contains key then firstReady excluded candidate rest
    else match candidate key with
      | .ready instanceId => some ⟨key, instanceId⟩
      | _ => firstReady excluded candidate rest

theorem searchRound_eq (excluded : List PyStr) (candidate : PyStr → Candidate)
    (keys : List PyStr) : searchRound excluded (fun key => (candidate key).visit) keys =
      match firstReady excluded candidate keys with
      | some provider => .found provider
      | none => .exhausted := by
  induction keys with
  | nil => rfl
  | cons key keys ih =>
    simp only [searchRound, firstReady]
    split_ifs
    · exact ih
    · cases candidate key with
      | notReady => exact ih
      | refused => exact ih
      | ready instanceId => rfl

theorem providerFor_attempt (excluded : List PyStr) (preferred : Option PyStr)
    (candidates : List PyStr) (turn : Turn) :
    providerFor excluded 3 (StableCall.attempt preferred candidates turn).rounds =
      .ok (firstReady excluded turn.candidate (StableCall.order preferred candidates turn)) := by
  simp only [StableCall.attempt, providerFor, searchRound_eq, StableCall.order]
  cases firstReady excluded turn.candidate
    (turn.active.toList ++ preferred.toList ++ candidates).eraseDups <;> rfl

variable {excluded keys : List PyStr} {turn : Turn} {provider : Provider}

/-- No candidate is refused the lease of the role. -/
def NoConflict (turn : Turn) : Prop := ∀ key, turn.candidate key ≠ .refused

theorem firstReady_some (hconflict : NoConflict turn)
    (h : firstReady excluded turn.candidate keys = some provider) :
    FirstReady keys excluded turn provider := by
  induction keys with
  | nil => cases h
  | cons key keys ih =>
    have hskip (hkey : key ∈ excluded ∨ turn.candidate key = .notReady)
        (hrest : firstReady excluded turn.candidate keys = some provider) :
        FirstReady (key :: keys) excluded turn provider := by
      obtain ⟨hfresh, hready, before, after, hkeys, hbefore⟩ := ih hrest
      refine ⟨hfresh, hready, key :: before, after, by rw [hkeys]; rfl, ?_⟩
      intro other hother
      rcases List.mem_cons.mp hother with rfl | hmem
      · exact hkey
      · exact hbefore other hmem
    rw [firstReady] at h
    split_ifs at h with hexcluded
    · exact hskip (.inl (by simpa using hexcluded)) h
    · split at h
      · rename_i instanceId hcandidate
        cases h
        exact ⟨by simpa using hexcluded, hcandidate, [], keys, rfl, by simp⟩
      · rename_i hcandidate
        refine hskip (.inr ?_) h
        cases hkey : turn.candidate key with
        | notReady => rfl
        | refused => exact absurd hkey (hconflict key)
        | ready instanceId => exact absurd hkey (hcandidate instanceId)

theorem firstReady_none (hconflict : NoConflict turn)
    (h : firstReady excluded turn.candidate keys = none) :
    ∀ key ∈ keys, key ∈ excluded ∨ turn.candidate key = .notReady := by
  induction keys with
  | nil => simp
  | cons key keys ih =>
    rw [firstReady] at h
    intro other hother
    split_ifs at h with hexcluded
    · rcases List.mem_cons.mp hother with rfl | hmem
      · exact .inl (by simpa using hexcluded)
      · exact ih h other hmem
    · split at h
      · cases h
      · rename_i hcandidate
        rcases List.mem_cons.mp hother with rfl | hmem
        · right
          cases hkey : turn.candidate other with
          | notReady => rfl
          | refused => exact absurd hkey (hconflict other)
          | ready instanceId => exact absurd hkey (hcandidate instanceId)
        · exact ih h other hmem

/-! ## One turn -/

variable {py : Interpreter} {msg : Dict} {source : PyStr} {loop : RetryLoop} {attempt : Attempt}
  {attempts : List Attempt} {attempted : List PyStr} {lastError : Option Dict}
  {preferred : Option PyStr} {candidates : List PyStr}

/-- A turn after which the loop goes on. -/
theorem retry_triesNext (hprovider : providerFor attempted 3 attempt.rounds = .ok (some provider))
    (hon : triesNext py msg source loop attempt provider = true) :
    ∃ response, isErrorPacket response = true ∧
      retry py msg source loop (attempt :: attempts) attempted lastError =
        ⟨(forwardCall py provider msg source attempt).writes ++
          (retry py msg source loop attempts (provider.key :: attempted) (some response)).writes,
        (retry py msg source loop attempts (provider.key :: attempted) (some response)).result⟩ := by
  unfold triesNext at hon
  cases hresult : (forwardCall py provider msg source attempt).result with
  | error e =>
    rw [hresult] at hon
    cases hon
  | ok response =>
    simp only [hresult, Bool.and_eq_true] at hon
    obtain ⟨⟨⟨herror, hlive⟩, hstop⟩, hsafe⟩ := hon
    refine ⟨response, herror, ?_⟩
    have hunknown : (!loop.retrySafe && errorCode py response != lit "NO_PROVIDER_SOCKET") = false := by
      cases hretry : loop.retrySafe <;> simp_all
    cases hstopped : attempt.stop with
    | error e =>
      rw [hstopped] at hstop
      cases hstop
    | ok _ =>
      rw [retry]
      simp only [hprovider, hresult, herror, Bool.not_true, Bool.false_eq_true, if_false, hstopped,
        hunknown]
      rw [if_neg (by simpa using hlive)]

/-- A turn that ends the loop, whatever would come next. -/
theorem retry_stays (hprovider : providerFor attempted 3 attempt.rounds = .ok (some provider))
    (hon : triesNext py msg source loop attempt provider = false) (more : List Attempt) :
    retry py msg source loop (attempt :: attempts) attempted lastError =
      retry py msg source loop (attempt :: more) attempted lastError := by
  unfold triesNext at hon
  rw [retry, retry]
  simp only [hprovider]
  cases hresult : (forwardCall py provider msg source attempt).result with
  | error e => rfl
  | ok response =>
    simp only [hresult] at hon
    dsimp only
    split_ifs with herror hfinal
    · rfl
    · rfl
    · cases attempt.stop <;> rfl
    · cases hstopped : attempt.stop with
      | error e => rfl
      | ok _ =>
        rw [hstopped] at hon
        simp_all [Except.isOk, Except.toBool]

theorem triedProviders_cons
    (hprovider : providerFor attempted 3 attempt.rounds = .ok (some provider)) :
    triedProviders py msg source loop (attempt :: attempts) attempted = provider ::
      if triesNext py msg source loop attempt provider then
        triedProviders py msg source loop attempts (provider.key :: attempted)
      else [] := by
  rw [triedProviders, hprovider]

/-- A failure that Core reports under a liveness code. -/
def TransportFailure.Covered (failure : TransportFailure) : Prop := failure ≠ .channelFailed

theorem expired_errorReply {id : Json} {code : String} {message : PyStr}
    (h : expiredBeforeProviderDelivery (errorReply id code message) = true) :
    code = "CALL_TIMEOUT" ∧ message = lit callDeadlineExpiredMessage := by
  simp only [expiredBeforeProviderDelivery, errorReply, Dict.get, get?_record_cons, Bool.and_eq_true,
    isText, text] at h
  refine ⟨lit_injective (by simpa using h.1.2), by simpa using h.2⟩

theorem expired_set_id (d : Dict) (value : Json) :
    expiredBeforeProviderDelivery (Dict.set d "id" value) = expiredBeforeProviderDelivery d := by
  rw [expiredBeforeProviderDelivery, isErrorPacket_set_id, get_set_ne (by decide),
    get_set_ne (by decide)]
  rfl

/-- What comes of a packet that was written. -/
theorem writeCall_answer {now : ℚ} {requestId : ℤ} {answer : Answer} {response : Dict}
    (hdeadline : deadlineExpired msg now ≠ .ok true)
    (h : (writeCall py provider msg source now requestId answer).result = .ok response) :
    ∃ id, response = answerPacket provider id answer := by
  unfold writeCall at h
  split at h
  · cases h
  · rename_i id _
    split at h
    · cases h
    · rename_i hexpired
      exact absurd hexpired hdeadline
    · split at h
      · cases h
      · cases h
        exact ⟨id, rfl⟩

/-- A covered failure takes the loop to the next provider unless the stop raises. -/
theorem transport_triesNext {failure : TransportFailure} {response : Dict}
    (hanswer : turn.answer provider = .inl failure) (hcovered : failure.Covered)
    (hdeadline : deadlineExpired msg turn.now ≠ .ok true) (hcolon : ':'.toNat ∈ provider.key)
    (hresult : (forwardCall py provider msg source
      (StableCall.attempt preferred candidates turn)).result = .ok response) :
    isErrorPacket response = true ∧ expiredBeforeProviderDelivery response = false ∧
      (roleLivenessErrors.map lit).contains (errorCode py response) = true := by
  have hreply : ∀ (id : Json) (code : String) (message : PyStr), code ∈ roleLivenessErrors →
      (code = "CALL_TIMEOUT" → message ≠ lit callDeadlineExpiredMessage) →
      isErrorPacket (errorReply id code message) = true ∧
      expiredBeforeProviderDelivery (errorReply id code message) = false ∧
      (roleLivenessErrors.map lit).contains (errorCode py (errorReply id code message)) = true := by
    intro id code message hcode hmessage
    refine ⟨isErrorPacket_errorReply _ _ _, ?_, ?_⟩
    · apply Bool.eq_false_iff.mpr
      intro hexpired
      obtain ⟨htimeout, htext⟩ := expired_errorReply hexpired
      exact hmessage htimeout htext
    · rw [errorCode_errorReply]
      simpa using List.mem_map_of_mem hcode
  have hkey : provider.key ≠ lit callDeadlineExpiredMessage := by
    intro heq
    rw [heq] at hcolon
    revert hcolon
    decide
  unfold forwardCall at hresult
  simp only [StableCall.attempt, hanswer] at hresult
  cases failure with
  | noSocket =>
    cases hresult
    refine ⟨?_, ?_, ?_⟩
    · simp [isErrorPacket, noSocketPacket, Dict.get, text, isText]
    · simp [expiredBeforeProviderDelivery, noSocketPacket, Dict.get, text, isText, lit]
    · have hcode : errorCode py (noSocketPacket msg) = lit "NO_PROVIDER_SOCKET" := by
        simp [errorCode, noSocketPacket, Dict.get, text, toStr]
      rw [hcode]
      decide
  | timeout =>
    obtain ⟨id, rfl⟩ := writeCall_answer hdeadline hresult
    exact hreply _ _ _ (by decide) fun _ => hkey
  | sendFailed reason =>
    obtain ⟨id, rfl⟩ := writeCall_answer hdeadline hresult
    exact hreply _ _ _ (by decide) fun h => absurd h (by decide)
  | exited =>
    obtain ⟨id, rfl⟩ := writeCall_answer hdeadline hresult
    rw [answerPacket, isErrorPacket_set_id, expired_set_id, errorCode_set_id]
    exact hreply _ _ _ (by decide) fun h => absurd h (by decide)
  | stopped =>
    obtain ⟨id, rfl⟩ := writeCall_answer hdeadline hresult
    rw [answerPacket, isErrorPacket_set_id, expired_set_id, errorCode_set_id]
    exact hreply _ _ _ (by decide) fun h => absurd h (by decide)
  | channelFailed => exact absurd rfl hcovered

/-- When a covered failure ends the loop, it ends in an exception. -/
theorem transport_raises {failure : TransportFailure} {response : Dict}
    (hsafe : loop.retrySafe = true) (hanswer : turn.answer provider = .inl failure)
    (hcovered : failure.Covered) (hdeadline : deadlineExpired msg turn.now ≠ .ok true)
    (hcolon : ':'.toNat ∈ provider.key)
    (hprovider : providerFor attempted 3 (StableCall.attempt preferred candidates turn).rounds =
      .ok (some provider))
    (hon : triesNext py msg source loop (StableCall.attempt preferred candidates turn) provider = false)
    (h : (retry py msg source loop (StableCall.attempt preferred candidates turn :: attempts)
      attempted lastError).result = .ok response) : False := by
  rw [retry] at h
  unfold triesNext at hon
  simp only [hprovider] at h
  cases hresult : (forwardCall py provider msg source
      (StableCall.attempt preferred candidates turn)).result with
  | error e =>
    simp only [hresult] at h
    cases h
  | ok answered =>
    obtain ⟨herror, hexpired, hlive⟩ :=
      transport_triesNext hanswer hcovered hdeadline hcolon hresult
    simp only [hresult, herror, hexpired, hlive, hsafe, Bool.not_true, Bool.or_self, Bool.not_false,
      Bool.true_and, Bool.true_or, Bool.and_true, Bool.false_eq_true, if_false] at h hon
    cases hstop : (StableCall.attempt preferred candidates turn).stop with
    | error e =>
      simp only [hstop] at h
      cases h
    | ok _ =>
      rw [hstop] at hon
      cases hon

/-! ## The loop -/

theorem FirstReady.congr {order excluded' : List PyStr} (h : FirstReady order excluded turn provider)
    (hexcluded : ∀ key, key ∈ excluded ↔ key ∈ excluded') :
    FirstReady order excluded' turn provider := by
  obtain ⟨hfresh, hready, before, after, horder, hbefore⟩ := h
  refine ⟨fun hmem => hfresh ((hexcluded _).mpr hmem), hready, before, after, horder, ?_⟩
  intro key hkey
  exact (hbefore key hkey).imp_left (hexcluded key).mp

section Loop

variable (py msg source loop preferred candidates) in
/-- The providers tried from a place of the loop. -/
abbrev triedFrom (turns : List Turn) (attempted : List PyStr) : List Provider :=
  triedProviders py msg source loop (turns.map (StableCall.attempt preferred candidates)) attempted

variable {turns : List Turn}

theorem triedFrom_cons (turn : Turn) (turns : List Turn) (attempted : List PyStr) :
    triedFrom py msg source loop preferred candidates (turn :: turns) attempted =
      match firstReady attempted turn.candidate (StableCall.order preferred candidates turn) with
      | none => []
      | some provider => provider ::
        if triesNext py msg source loop (StableCall.attempt preferred candidates turn) provider then
          triedFrom py msg source loop preferred candidates turns (provider.key :: attempted)
        else [] := by
  rw [triedFrom, List.map_cons, triedProviders, providerFor_attempt]
  cases firstReady attempted turn.candidate (StableCall.order preferred candidates turn) <;> rfl

/-- Each turn tries the first provider that is ready and was not tried before. -/
theorem triedFrom_ordered (hconflict : ∀ turn ∈ turns, NoConflict turn) : ∀ attempted,
    ∀ n provider, (triedFrom py msg source loop preferred candidates turns attempted)[n]? =
        some provider →
      ∃ turn, turns[n]? = some turn ∧ FirstReady (StableCall.order preferred candidates turn)
        (((triedFrom py msg source loop preferred candidates turns attempted).take n).map
          Provider.key ++ attempted) turn provider := by
  induction turns with
  | nil => simp [triedFrom, triedProviders]
  | cons turn turns ih =>
    intro attempted n provider hn
    have hrest := ih fun other hother => hconflict other (List.mem_cons_of_mem _ hother)
    rw [triedFrom_cons] at hn ⊢
    split at hn
    · simp at hn
    · rename_i first hfirst
      have hready := firstReady_some (hconflict turn List.mem_cons_self) hfirst
      cases n with
      | zero =>
        have heq : first = provider := by simpa using hn
        subst heq
        exact ⟨turn, rfl, by simpa [hfirst] using hready⟩
      | succ n =>
        rw [List.getElem?_cons_succ] at hn
        split_ifs at hn with hon
        · obtain ⟨next, hnext, hfacts⟩ := hrest (first.key :: attempted) n provider hn
          refine ⟨next, by simpa using hnext, ?_⟩
          simp only [hon, if_true, List.take_succ_cons, List.map_cons]
          refine hfacts.congr fun key => ?_
          simp only [List.mem_append, List.mem_cons]
          tauto
        · simp at hn

theorem nodup_of_fresh {tried : List PyStr} (h : ∀ n key, tried[n]? = some key →
    key ∉ tried.take n) : tried.Nodup := by
  rw [List.nodup_iff_getElem?_ne_getElem?]
  intro i j hij hj heq
  rw [List.getElem?_eq_getElem hj] at heq
  apply h j tried[j] (List.getElem?_eq_getElem hj)
  rw [List.mem_take_iff_getElem]
  obtain ⟨hi, hvalue⟩ := List.getElem?_eq_some_iff.mp heq
  exact ⟨i, by omega, hvalue⟩

theorem order_subset (hpreferred : ∀ key ∈ preferred, key ∈ candidates)
    (hactive : ∀ key ∈ turn.active, key ∈ candidates) :
    ∀ key ∈ StableCall.order preferred candidates turn, key ∈ candidates := by
  intro key hkey
  simp only [StableCall.order, List.mem_eraseDups, List.mem_append, Option.mem_toList] at hkey
  rcases hkey with (hmem | hmem) | hmem
  · exact hactive key hmem
  · exact hpreferred key hmem
  · exact hmem

theorem mem_order {key : PyStr} (hkey : key ∈ candidates) :
    key ∈ StableCall.order preferred candidates turn := by
  simp [StableCall.order, hkey]

/-- Candidates that were not tried yet become fewer with each turn. -/
theorem length_filter_lt {key : PyStr} (hkey : key ∈ candidates) (hfresh : key ∉ attempted) :
    (candidates.filter (· ∉ key :: attempted)).length <
      (candidates.filter (· ∉ attempted)).length := by
  have hsub : candidates.filter (· ∉ key :: attempted) =
      (candidates.filter (· ∉ attempted)).filter (· ≠ key) := by
    rw [List.filter_filter]
    apply List.filter_congr
    intro other _
    simp [List.mem_cons, not_or]
  rw [hsub]
  apply List.length_filter_lt_length_iff_exists.mpr
  exact ⟨key, List.mem_filter.mpr ⟨hkey, by simpa using hfresh⟩, by simp⟩

/-- With more turns than untried candidates the loop ends before the turns do. -/
theorem retry_terminates (hpreferred : ∀ key ∈ preferred, key ∈ candidates)
    (hactive : ∀ turn ∈ turns, ∀ key ∈ turn.active, key ∈ candidates)
    (hconflict : ∀ turn ∈ turns, NoConflict turn) (more : List Attempt) : ∀ attempted lastError,
    (candidates.filter (· ∉ attempted)).length < turns.length →
    retry py msg source loop
      (turns.map (StableCall.attempt preferred candidates) ++ more) attempted lastError =
    retry py msg source loop
      (turns.map (StableCall.attempt preferred candidates)) attempted lastError := by
  induction turns with
  | nil => simp
  | cons turn turns ih =>
    intro attempted lastError hlength
    have hrest := ih (fun other hother => hactive other (List.mem_cons_of_mem _ hother))
      fun other hother => hconflict other (List.mem_cons_of_mem _ hother)
    have hlookup := providerFor_attempt attempted preferred candidates turn
    rw [List.map_cons, List.cons_append]
    cases hfirst : firstReady attempted turn.candidate
        (StableCall.order preferred candidates turn) with
    | none =>
      rw [retry, retry, hlookup, hfirst]
    | some provider =>
      rw [hfirst] at hlookup
      have hready := firstReady_some (hconflict turn List.mem_cons_self) hfirst
      have hmem : provider.key ∈ candidates := by
        apply order_subset hpreferred (hactive turn List.mem_cons_self)
        obtain ⟨before, after, horder, -⟩ := hready.skipped
        simp [horder]
      cases hon : triesNext py msg source loop (StableCall.attempt preferred candidates turn)
          provider with
      | false => exact retry_stays hlookup hon _
      | true =>
        have hfewer := length_filter_lt hmem hready.fresh
        rw [List.length_cons] at hlength
        have hsame := fun response => hrest (provider.key :: attempted) (some response) (by omega)
        rw [retry, retry, hlookup]
        simp only [hsame]

/-- When the last provider tried has failed in its transport, every candidate was tried or has
not become ready. -/
theorem retry_complete (hsafe : loop.retrySafe = true)
    (hpreferred : ∀ key ∈ preferred, key ∈ candidates)
    (hactive : ∀ turn ∈ turns, ∀ key ∈ turn.active, key ∈ candidates)
    (hcolon : ∀ key ∈ candidates, ':'.toNat ∈ key)
    (hconflict : ∀ turn ∈ turns, NoConflict turn)
    (hdeadline : ∀ turn ∈ turns, deadlineExpired msg turn.now ≠ .ok true)
    (hcovered : ∀ turn ∈ turns, ∀ provider failure, turn.answer provider = .inl failure →
      failure.Covered) : ∀ attempted lastError,
    (candidates.filter (· ∉ attempted)).length < turns.length →
    ∀ response, (retry py msg source loop (turns.map (StableCall.attempt preferred candidates))
      attempted lastError).result = .ok response →
    ∀ n provider turn failure,
    (triedFrom py msg source loop preferred candidates turns attempted).length = n + 1 →
    (triedFrom py msg source loop preferred candidates turns attempted)[n]? = some provider →
    turns[n]? = some turn → turn.answer provider = .inl failure →
    ∀ key ∈ candidates, key ∈ (triedFrom py msg source loop preferred candidates turns attempted).map
        Provider.key ∨ key ∈ attempted ∨
      ∃ last, turns[n + 1]? = some last ∧ last.candidate key = .notReady := by
  induction turns with
  | nil => simp
  | cons turn turns ih =>
    intro attempted lastError hlength response hresult n provider current failure hn hprovider
      hcurrent hanswer key hkey
    have hrest := ih (fun other hother => hactive other (List.mem_cons_of_mem _ hother))
      (fun other hother => hconflict other (List.mem_cons_of_mem _ hother))
      (fun other hother => hdeadline other (List.mem_cons_of_mem _ hother))
      fun other hother => hcovered other (List.mem_cons_of_mem _ hother)
    have hlookup := providerFor_attempt attempted preferred candidates turn
    rw [List.map_cons] at hresult
    rw [triedFrom_cons] at hn hprovider ⊢
    cases hfirst : firstReady attempted turn.candidate
        (StableCall.order preferred candidates turn) with
    | none => simp [hfirst] at hn
    | some first =>
      rw [hfirst] at hlookup
      simp only [hfirst] at hn hprovider ⊢
      have hready := firstReady_some (hconflict turn List.mem_cons_self) hfirst
      have hmem : first.key ∈ candidates := by
        apply order_subset hpreferred (hactive turn List.mem_cons_self)
        obtain ⟨before, after, horder, -⟩ := hready.skipped
        simp [horder]
      cases hon : triesNext py msg source loop (StableCall.attempt preferred candidates turn) first with
      | false =>
        -- the failure is covered, so only an exception can have ended the loop
        exfalso
        simp only [hon, Bool.false_eq_true, if_false, List.length_singleton] at hn hprovider
        obtain rfl : n = 0 := by omega
        obtain rfl : first = provider := by simpa using hprovider
        obtain rfl : turn = current := by simpa using hcurrent
        exact transport_raises hsafe hanswer
          (hcovered turn List.mem_cons_self first failure hanswer)
          (hdeadline turn List.mem_cons_self) (hcolon _ hmem) hlookup hon hresult
      | true =>
        obtain ⟨error, herror, hretry⟩ := @retry_triesNext _ py msg source loop _
          (turns.map (StableCall.attempt preferred candidates)) _ lastError hlookup hon
        rw [hretry] at hresult
        simp only [hon, if_true, List.length_cons] at hn hprovider ⊢
        have hfewer := length_filter_lt hmem hready.fresh
        rw [List.length_cons] at hlength
        cases n with
        | zero =>
          -- the next lookup has found nothing
          cases turns with
          | nil =>
            rw [List.length_nil] at hlength
            omega
          | cons next turns =>
            have hnone : firstReady (first.key :: attempted) next.candidate
                (StableCall.order preferred candidates next) = none := by
              cases hnext : firstReady (first.key :: attempted) next.candidate
                  (StableCall.order preferred candidates next) with
              | none => rfl
              | some second => simp [triedFrom_cons, hnext] at hn
            have hnext := firstReady_none (hconflict next (by simp)) hnone key (mem_order hkey)
            simp only [List.map_cons, List.mem_cons] at hnext ⊢
            rcases hnext with (heq | hattempted) | hnotReady
            · exact .inl (.inl heq)
            · exact .inr (.inl hattempted)
            · exact .inr (.inr ⟨next, rfl, hnotReady⟩)
        | succ n =>
          have hfacts := hrest (first.key :: attempted) (some error) (by omega) response hresult n
            provider current failure (by omega) (by simpa using hprovider) (by simpa using hcurrent)
            hanswer key hkey
          simp only [List.map_cons, List.mem_cons] at hfacts ⊢
          rcases hfacts with htried | (heq | hattempted) | ⟨last, hlast, hnotReady⟩
          · exact .inl (.inr htried)
          · exact .inl (.inl heq)
          · exact .inr (.inl hattempted)
          · exact .inr (.inr ⟨last, by simpa using hlast, hnotReady⟩)

end Loop

/-! ## The property and its condition -/

/-- A call whose own deadline does not expire, with failures of the given kinds, and with a
conflict over the lease of the role only where `conflicts` allows one. -/
structure Suffers (kinds : Set TransportFailure) (conflicts : Bool) (msg : Dict)
    (call : StableCall) : Prop where
  deadline : ∀ turn ∈ call.turns, deadlineExpired msg turn.now ≠ .ok true
  failures : ∀ turn ∈ call.turns, ∀ provider failure, turn.answer provider = .inl failure →
    failure ∈ kinds
  leases : conflicts = false → ∀ turn ∈ call.turns, NoConflict turn

theorem failoverComplete_of_covered {kinds : Set TransportFailure} {call : StableCall}
    (hsafe : loop.retrySafe = true) (hcall : Suffers kinds false msg call)
    (hkinds : ∀ failure ∈ kinds, failure.Covered) :
    FailoverComplete py msg source loop call := by
  have hconflict := hcall.leases rfl
  have hordered := @triedFrom_ordered py msg source loop call.preferred call.candidates call.turns
    hconflict []
  have hlength : (call.candidates.filter (· ∉ ([] : List PyStr))).length < call.turns.length :=
    lt_of_le_of_lt (List.length_filter_le _ _) call.enough
  refine ⟨?_, ?_, ?_, ?_⟩
  · apply nodup_of_fresh
    intro n key hn
    obtain ⟨provider, hprovider, rfl⟩ := by simpa using hn
    obtain ⟨turn, -, hready⟩ := hordered n provider hprovider
    rw [List.append_nil] at hready
    rw [← List.map_take]
    exact hready.fresh
  · intro n provider hn
    obtain ⟨turn, hturn, hready⟩ := hordered n provider hn
    rw [List.append_nil] at hready
    exact ⟨turn, hturn, hready⟩
  · exact fun more => retry_terminates call.preferred_mem call.active_mem hconflict more [] none hlength
  · intro response hresult _ n provider turn failure hn hprovider hturn hanswer key hkey
    have hfacts := retry_complete hsafe call.preferred_mem call.active_mem call.colon hconflict
      hcall.deadline (fun turn hturn provider failure h =>
        hkinds failure (hcall.failures turn hturn provider failure h))
      [] none hlength response hresult n provider turn failure hn hprovider hturn hanswer key hkey
    exact hfacts.imp_right fun h => h.resolve_left List.not_mem_nil

/-- Every retry-safe role or interface call fails over completely. -/
def FailsOver (py : Interpreter) (kinds : Set TransportFailure) (conflicts : Bool) : Prop :=
  ∀ (msg : Dict) (source : PyStr) (requestId : ℤ) (loop : RetryLoop) (call : StableCall),
    loop = roleLoop py msg requestId ∨ loop = interfaceLoop py msg requestId →
    loop.retrySafe = true → Suffers kinds conflicts msg call →
    FailoverComplete py msg source loop call

/-- A call that only reads. -/
def listCall : Dict :=
  record [("type", text "call"), ("id", .int 1), ("target", text "role:r"), ("method", text "list")]

theorem roleRetrySafe_listCall (py : Interpreter) (requestId : ℤ) :
    (roleLoop py listCall requestId).retrySafe = true := by
  have hmethod : methodName py listCall = lit "list" := rfl
  have hlist : (roleRetrySafeMethods.map lit).contains (lit "list") = true := by decide
  simp only [roleLoop, roleRetrySafe, idempotentCall, hmethod, hlist, Bool.or_true, Bool.true_or]

theorem deadline_listCall (now : ℚ) : deadlineExpired listCall now = .ok false := by
  simp [listCall, deadlineExpired, Dict.get?, record, isKey, text, lit]

/-- A turn with the candidates `p:a` and `p:b`, of which `p:b` answers. -/
def turnOf (first : Candidate) (answer : TransportFailure ⊕ Dict) : Turn where
  active := none
  candidate := fun key => if key = lit "p:a" then first else .ready 0
  now := 0
  requestId := 1
  answer := fun provider => if provider.key = lit "p:a" then answer else
    .inr (record [("type", text "return"), ("id", .int 1)])
  stop := .ok ()

def callOf (first : Candidate) (answer : TransportFailure ⊕ Dict) : StableCall where
  preferred := none
  candidates := [lit "p:a", lit "p:b"]
  turns := List.replicate 3 (turnOf first answer)
  preferred_mem := by simp
  active_mem := by simp [turnOf]
  colon := by decide
  enough := by simp

theorem suffers_callOf {kinds : Set TransportFailure} {conflicts : Bool} {first : Candidate}
    {answer : TransportFailure ⊕ Dict} (hanswer : ∀ failure, answer = .inl failure → failure ∈ kinds)
    (hfirst : conflicts = false → first ≠ .refused) :
    Suffers kinds conflicts listCall (callOf first answer) := by
  have hturn : ∀ turn ∈ (callOf first answer).turns, turn = turnOf first answer :=
    fun turn hmem => List.eq_of_mem_replicate hmem
  refine ⟨?_, ?_, ?_⟩
  · intro turn _
    rw [deadline_listCall]
    simp
  · intro turn hmem provider failure h
    rw [hturn turn hmem] at h
    simp only [turnOf] at h
    split_ifs at h
    exact hanswer failure h
  · intro hnone turn hmem key
    rw [hturn turn hmem]
    simp only [turnOf]
    split_ifs
    · exact hfirst hnone
    · simp

theorem firstReady_callOf (first : Candidate) (answer : TransportFailure ⊕ Dict) :
    firstReady [] (turnOf first answer).candidate
      (StableCall.order none [lit "p:a", lit "p:b"] (turnOf first answer)) =
      match first with
      | .ready instanceId => some ⟨lit "p:a", instanceId⟩
      | _ => some ⟨lit "p:b", 0⟩ := by
  have horder : StableCall.order none [lit "p:a", lit "p:b"] (turnOf first answer) =
      [lit "p:a", lit "p:b"] := rfl
  have hne : (lit "p:b" = lit "p:a") = False := by simp only [eq_iff_iff, iff_false]; decide
  rw [horder]
  cases first <;> simp [firstReady, turnOf, hne]

theorem attempts_callOf (first : Candidate) (answer : TransportFailure ⊕ Dict) :
    (callOf first answer).attempts = StableCall.attempt none [lit "p:a", lit "p:b"]
      (turnOf first answer) :: List.replicate 2 (StableCall.attempt none [lit "p:a", lit "p:b"]
        (turnOf first answer)) := rfl

/-- The answer of the failed channel. -/
def channelError : Dict :=
  Dict.set (errorReply (.int 1) "PROVIDER_CHANNEL_FAILED" (lit "p:a")) "id" (.int 1)

theorem forwardCall_channelError (py : Interpreter) :
    (forwardCall py ⟨lit "p:a", 0⟩ listCall [] (StableCall.attempt none [lit "p:a", lit "p:b"]
      (turnOf (.ready 0) (.inl .channelFailed)))).result = .ok channelError := by
  have hid : toInt py (callerId listCall) = .ok 1 := by
    simp [listCall, callerId, Dict.get, Dict.get?, record, isKey, text, lit, toInt]
  have hencode := encode_of_encodable
    (show Encodable (forwardedPacket ⟨lit "p:a", 0⟩ listCall [] 1) by decide +kernel)
  simp [forwardCall, StableCall.attempt, turnOf, TransportFailure.answer, closedAnswer, writeCall,
    hid, deadline_listCall, hencode, answerPacket, channelError]

theorem channelError_final (py : Interpreter) : isErrorPacket channelError = true ∧
    (roleLivenessErrors.map lit).contains (errorCode py channelError) = false := by
  constructor
  · rw [channelError, isErrorPacket_set_id, isErrorPacket_errorReply]
  · rw [channelError, errorCode_set_id, errorCode_errorReply]
    decide

/-- The error of a failed channel is handed to the caller although `p:b` is ready. -/
theorem channelFailed_not_complete (py : Interpreter) :
    ¬ FailoverComplete py listCall [] (roleLoop py listCall 1)
      (callOf (.ready 0) (.inl .channelFailed)) := by
  intro hcomplete
  obtain ⟨herror, hcode⟩ := channelError_final py
  have hlookup : providerFor [] 3 (StableCall.attempt none [lit "p:a", lit "p:b"]
      (turnOf (.ready 0) (.inl .channelFailed))).rounds = .ok (some ⟨lit "p:a", 0⟩) := by
    rw [providerFor_attempt, firstReady_callOf]
  have hon : triesNext py listCall [] (roleLoop py listCall 1) (StableCall.attempt none
      [lit "p:a", lit "p:b"] (turnOf (.ready 0) (.inl .channelFailed))) ⟨lit "p:a", 0⟩ = false := by
    simp only [triesNext, forwardCall_channelError, hcode, Bool.not_false, Bool.or_true, Bool.not_true,
      Bool.and_false, Bool.false_and]
  have htried : triedProviders py listCall [] (roleLoop py listCall 1)
      (callOf (.ready 0) (.inl .channelFailed)).attempts [] = [⟨lit "p:a", 0⟩] := by
    rw [attempts_callOf, triedProviders_cons hlookup, hon]
    rfl
  have hresult : ∃ response, (retry py listCall [] (roleLoop py listCall 1)
      (callOf (.ready 0) (.inl .channelFailed)).attempts [] none).result = .ok response ∧
      isErrorPacket response = true := by
    refine ⟨Dict.set channelError "id" (.int 1), ?_, ?_⟩
    · rw [attempts_callOf, retry]
      simp only [hlookup, forwardCall_channelError, herror, hcode, Bool.not_true, Bool.not_false,
        Bool.or_true, Bool.false_eq_true, if_false, if_true]
      rfl
    · rw [isErrorPacket_set_id, herror]
  obtain ⟨response, hretry, hreply⟩ := hresult
  have hmissed := hcomplete.complete response hretry hreply 0 ⟨lit "p:a", 0⟩
    (turnOf (.ready 0) (.inl .channelFailed)) .channelFailed (by rw [htried]; rfl)
    (by rw [htried]; rfl) rfl rfl (lit "p:b") (by simp [callOf])
  rw [htried] at hmissed
  rcases hmissed with htried | ⟨last, hlast, hnotReady⟩
  · revert htried
    decide
  · cases hlast
    revert hnotReady
    decide

/-- A conflict over the lease skips `p:a`, which is ready. -/
theorem refused_not_complete (py : Interpreter) (answer : TransportFailure ⊕ Dict) :
    ¬ FailoverComplete py listCall [] (roleLoop py listCall 1) (callOf .refused answer) := by
  intro hcomplete
  have hlookup : providerFor [] 3 (StableCall.attempt none [lit "p:a", lit "p:b"]
      (turnOf .refused answer)).rounds = .ok (some ⟨lit "p:b", 0⟩) := by
    rw [providerFor_attempt, firstReady_callOf]
  have hfirst : (triedProviders py listCall [] (roleLoop py listCall 1)
      (callOf .refused answer).attempts [])[0]? = some ⟨lit "p:b", 0⟩ := by
    rw [attempts_callOf, triedProviders_cons hlookup]
    rfl
  obtain ⟨turn, hturn, -, -, before, after, horder, hbefore⟩ := hcomplete.ordered 0 _ hfirst
  obtain rfl : turnOf .refused answer = turn := by simpa [callOf] using hturn
  have hkeys : [lit "p:a", lit "p:b"] = before ++ lit "p:b" :: after := horder
  have hmem : lit "p:a" ∈ before := by
    cases before with
    | nil =>
      have hhead := (List.cons.inj hkeys).1
      revert hhead
      decide
    | cons first rest =>
      rw [(List.cons.inj hkeys).1]
      exact List.mem_cons_self
  rcases hbefore _ hmem with hexcluded | hnotReady
  · simp at hexcluded
  · simp [turnOf] at hnotReady

/-- Calls that are safe to repeat fail over completely exactly when no failure is that of a
control channel and no ready candidate is refused the lease. -/
theorem failsOver_iff (py : Interpreter) (kinds : Set TransportFailure) (conflicts : Bool) :
    FailsOver py kinds conflicts ↔
      (∀ failure ∈ kinds, failure ≠ .channelFailed) ∧ conflicts = false := by
  constructor
  · intro hall
    constructor
    · rintro failure hkind rfl
      refine channelFailed_not_complete py (hall listCall [] 1 _ _ (.inl rfl)
        (roleRetrySafe_listCall py 1) (suffers_callOf ?_ (by simp)))
      rintro failure ⟨⟩
      exact hkind
    · apply Bool.eq_false_iff.mpr
      intro hconflicts
      refine refused_not_complete py (.inr []) (hall listCall [] 1 _ _ (.inl rfl)
        (roleRetrySafe_listCall py 1) (suffers_callOf (by simp) (by simp [hconflicts])))
  · rintro ⟨hkinds, rfl⟩ msg source requestId loop call _ hsafe hcall
    exact failoverComplete_of_covered hsafe hcall hkinds

/-- `p:a` loses its control channel during a call that only reads, and `p:b` is never asked. -/
theorem channelFailed_strands_caller : ¬ ∀ py, FailsOver py Set.univ false := by
  intro hall
  refine channelFailed_not_complete asciiInterpreter (hall asciiInterpreter listCall [] 1 _ _
    (.inl rfl) (roleRetrySafe_listCall _ 1) (suffers_callOf (by simp) (by simp)))

end MsysCore.Core
