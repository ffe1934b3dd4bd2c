import MsysCore.Native.Router

/-!
# Isolation of pending calls

What a caller may rely on: at most one reply to each accepted call, addressed to
the session and request it came from, with a reason of its own; and a call leaves
`pending_` only with its reply or with its caller.

Pending calls are addressed by position, so the argument is about positions. The
invariant has two halves. `Ledger` is about the tables; it survives the erasure of
an entry for a reason of its own. `Shape` is about the stack: it says which frames
may be suspended under which, and that the position a suspended frame will use
still names the call the frame is about.
-/

namespace MsysCore.Native.Router

/-! ## The property -/

def Cause.Own (clock : ℕ) (p : PendingCall) : Cause → Prop
  | .deadline id => id = p.forwardedId ∧ p.deadlineMs ≤ clock
  | .unavailable component generation => Affected component generation p
  | .delivery id => id = p.forwardedId
  | .activation id => id = p.forwardedId
  | .answered id => id = p.forwardedId

/-- The same call, before or after its delivery. -/
def Same (a p : PendingCall) : Prop :=
  a.forwardedId = p.forwardedId ∧ a.callerSession = p.callerSession ∧
    a.callerRequestId = p.callerRequestId

structure Isolated (s : State) : Prop where
  once : (s.replies.map fun r => r.call.forwardedId).Nodup
  retired : ∀ r ∈ s.replies, ∀ p ∈ s.pending, p.forwardedId ≠ r.call.forwardedId
  addressed : ∀ r ∈ s.replies, ∃ a ∈ s.accepted, a.forwardedId = r.call.forwardedId ∧
    a.callerSession = r.session ∧ a.callerRequestId = r.requestId
  own : ∀ r ∈ s.replies, r.cause.Own s.clock r.call
  kept : ∀ a ∈ s.accepted, (∃ p ∈ s.pending, p.forwardedId = a.forwardedId) ∨
    (∃ r ∈ s.replies, r.call.forwardedId = a.forwardedId) ∨ s.findSession a.callerSession = none
  /-- A finished `component_ready` left no call of its component undelivered. -/
  readyDone : ∀ c g i rest, s.stack = .readyLoop c g i :: rest → s.pending.length ≤ i →
    ∀ p ∈ s.pending, p.provider = c → p.delivered = true
  /-- A finished `component_unavailable` left no call it had to fail. -/
  unavailableDone : ∀ c g i rest, s.stack = .unavailableLoop c g i :: rest →
    s.pending.length ≤ i → ∀ p ∈ s.pending, ¬ Affected c g p

/-! ## The tables -/

structure Ledger (b : Book) : Prop where
  ids : (b.pending.map PendingCall.forwardedId).Nodup
  sessionIds : (b.sessions.map Session.id).Nodup
  freshSessions : ∀ session ∈ b.sessions, session.id < b.nextSessionId
  freshCallers : ∀ a ∈ b.accepted, a.callerSession < b.nextSessionId
  fresh : ∀ a ∈ b.accepted, a.forwardedId < b.nextForwardedId
  acceptedIds : (b.accepted.map PendingCall.forwardedId).Nodup
  known : ∀ p ∈ b.pending, ∃ a ∈ b.accepted, Same a p
  once : (b.replies.map fun r => r.call.forwardedId).Nodup
  retired : ∀ r ∈ b.replies, ∀ p ∈ b.pending, p.forwardedId ≠ r.call.forwardedId
  addressed : ∀ r ∈ b.replies, ∃ a ∈ b.accepted, a.forwardedId = r.call.forwardedId ∧
    a.callerSession = r.session ∧ a.callerRequestId = r.requestId
  own : ∀ r ∈ b.replies, r.cause.Own b.clock r.call
  kept : ∀ a ∈ b.accepted, (∃ p ∈ b.pending, p.forwardedId = a.forwardedId) ∨
    (∃ r ∈ b.replies, r.call.forwardedId = a.forwardedId) ∨ b.findSession a.callerSession = none

theorem Ledger.initial : Ledger {} := by
  constructor <;> simp

theorem findSession_eq_some {b : Book} {id : ℕ} {session : Session}
    (h : b.findSession id = some session) : session ∈ b.sessions ∧ session.id = id := by
  refine ⟨List.mem_of_find?_eq_some h, ?_⟩
  have hid := List.find?_some h
  simpa using hid

theorem findSession_eq_none {b : Book} {id : ℕ} :
    b.findSession id = none ↔ ∀ session ∈ b.sessions, session.id ≠ id := by
  simp [Book.findSession]

/-- Session ids are unique, so a session is found under its own id. -/
theorem Ledger.findSession_of_mem {b : Book} (h : Ledger b) {session : Session}
    (hmem : session ∈ b.sessions) : b.findSession session.id = some session := by
  cases hfind : b.findSession session.id with
  | none => exact absurd rfl (findSession_eq_none.mp hfind session hmem)
  | some other =>
    obtain ⟨hother, hid⟩ := findSession_eq_some hfind
    rw [List.inj_on_of_nodup_map h.sessionIds hother hmem hid]

theorem Ledger.sameCaller {b : Book} (h : Ledger b) {a a' : PendingCall} (ha : a ∈ b.accepted)
    (ha' : a' ∈ b.accepted) (hid : a.forwardedId = a'.forwardedId) :
    a.callerSession = a'.callerSession := by
  rw [List.inj_on_of_nodup_map h.acceptedIds ha ha' hid]

/-- The book after entry `p` at `index` was erased and answered. -/
def answered (b : Book) (index : ℕ) (p : PendingCall) (cause : Cause) : Book :=
  { b with
    pending := b.pending.eraseIdx index
    replies := b.replies ++ [⟨p, p.callerSession, p.callerRequestId, cause⟩] }

theorem mem_eraseIdx_ne {b : Book} (h : Ledger b) {index : ℕ} {p q : PendingCall}
    (hp : b.pending[index]? = some p) (hq : q ∈ b.pending.eraseIdx index) :
    q.forwardedId ≠ p.forwardedId := by
  obtain ⟨j, hne, hj⟩ := List.mem_eraseIdx_iff_getElem?.mp hq
  intro hid
  have hj' : (b.pending.map PendingCall.forwardedId)[j]? = some p.forwardedId := by simp [hj, hid]
  have hi' : (b.pending.map PendingCall.forwardedId)[index]? = some p.forwardedId := by simp [hp]
  have hlt : j < (b.pending.map PendingCall.forwardedId).length :=
    (List.getElem?_eq_some_iff.mp hj').1
  exact hne ((List.getElem?_inj hlt h.ids).mp (hj'.trans hi'.symm))

theorem Ledger.answer {b : Book} (h : Ledger b) {index : ℕ} {p : PendingCall} {cause : Cause}
    (hp : b.pending[index]? = some p) (hown : cause.Own b.clock p) :
    Ledger (answered b index p cause) := by
  have hmem : p ∈ b.pending := List.mem_of_getElem? hp
  have hsub : ∀ q ∈ b.pending.eraseIdx index, q ∈ b.pending := fun q => List.mem_of_mem_eraseIdx
  obtain ⟨a, ha, hsame⟩ := h.known p hmem
  refine ⟨?_, h.sessionIds, h.freshSessions, h.freshCallers, h.fresh, h.acceptedIds,
    fun q hq => h.known q (hsub q hq), ?_, ?_, ?_, ?_, ?_⟩
  · exact h.ids.sublist ((List.eraseIdx_sublist _ _).map _)
  · simp only [answered, List.map_append, List.map_singleton]
    refine List.nodup_append.mpr ⟨h.once, List.nodup_singleton _, ?_⟩
    intro x hx y hy
    obtain ⟨r, hr, rfl⟩ := List.mem_map.mp hx
    rw [List.mem_singleton.mp hy]
    exact (h.retired r hr p hmem).symm
  · intro r hr q hq
    rcases List.mem_append.mp hr with hr | hr
    · exact h.retired r hr q (hsub q hq)
    · rw [List.mem_singleton.mp hr]
      exact mem_eraseIdx_ne h hp hq
  · intro r hr
    rcases List.mem_append.mp hr with hr | hr
    · exact h.addressed r hr
    · rw [List.mem_singleton.mp hr]
      exact ⟨a, ha, hsame.1, hsame.2⟩
  · intro r hr
    rcases List.mem_append.mp hr with hr | hr
    · exact h.own r hr
    · rw [List.mem_singleton.mp hr]
      exact hown
  · intro a' ha'
    rcases h.kept a' ha' with ⟨q, hq, hid⟩ | ⟨r, hr, hid⟩ | hgone
    · by_cases hqp : q.forwardedId = p.forwardedId
      · exact .inr (.inl ⟨_, List.mem_append_right _ (List.mem_singleton.mpr rfl),
          hqp.symm.trans hid⟩)
      · refine .inl ⟨q, ?_, hid⟩
        obtain ⟨j, hj⟩ := List.mem_iff_getElem?.mp hq
        refine List.mem_eraseIdx_iff_getElem?.mpr ⟨j, ?_, hj⟩
        rintro rfl
        exact hqp (congrArg PendingCall.forwardedId (Option.some.inj (hj.symm.trans hp)))
    · exact .inr (.inl ⟨r, List.mem_append_left _ hr, hid⟩)
    · exact .inr (.inr hgone)

/-- The book after session `id` was closed. -/
def disconnectedBook (b : Book) (id : ℕ) : Book :=
  { b with
    sessions := b.sessions.filter fun other => other.id != id
    pending := b.pending.filter fun p => p.callerSession != id }

theorem Ledger.close {b : Book} (h : Ledger b) (id : ℕ) : Ledger (disconnectedBook b id) := by
  have hsub : ∀ q ∈ (disconnectedBook b id).pending, q ∈ b.pending :=
    fun q hq => List.mem_of_mem_filter hq
  have hgone : (disconnectedBook b id).findSession id = none := by
    rw [findSession_eq_none]
    intro session hmem
    simpa using (List.mem_filter.mp hmem).2
  refine ⟨?_, ?_, ?_, h.freshCallers, h.fresh, h.acceptedIds, fun q hq => h.known q (hsub q hq), h.once,
    fun r hr q hq => h.retired r hr q (hsub q hq), h.addressed, h.own, ?_⟩
  · exact h.ids.sublist (List.filter_sublist.map _)
  · exact h.sessionIds.sublist (List.filter_sublist.map _)
  · exact fun session hmem => h.freshSessions session (List.mem_of_mem_filter hmem)
  · intro a ha
    rcases h.kept a ha with ⟨q, hq, hid⟩ | hr | hnone
    · by_cases hcaller : q.callerSession = id
      · -- the call goes with its caller
        obtain ⟨a', ha', hsame⟩ := h.known q hq
        refine .inr (.inr ?_)
        by_cases haa : a.callerSession = id
        · rw [haa]
          exact hgone
        · exact absurd (h.sameCaller ha ha' (hid.symm.trans hsame.1.symm)) (by
            rw [hsame.2.1, hcaller]
            exact haa)
      · exact .inl ⟨q, List.mem_filter.mpr ⟨hq, by simpa using hcaller⟩, hid⟩
    · exact .inr (.inl hr)
    · refine .inr (.inr (findSession_eq_none.mpr fun session hmem => ?_))
      exact findSession_eq_none.mp hnone session (List.mem_of_mem_filter hmem)

/-- The book after `p` was accepted. -/
def acceptedBook (b : Book) (p : PendingCall) : Book :=
  { b with
    nextForwardedId := b.nextForwardedId + 1
    pending := b.pending ++ [p]
    accepted := b.accepted ++ [p] }

theorem Ledger.accept {b : Book} (h : Ledger b) {p : PendingCall}
    (hid : p.forwardedId = b.nextForwardedId) (hcaller : p.callerSession < b.nextSessionId) :
    Ledger (acceptedBook b p) := by
  have hpending : ∀ q ∈ b.pending, q.forwardedId ≠ p.forwardedId := by
    intro q hq
    obtain ⟨a, ha, hsame⟩ := h.known q hq
    have := h.fresh a ha
    rw [← hsame.1]
    omega
  have haccepted : ∀ a ∈ b.accepted, a.forwardedId ≠ p.forwardedId := by
    intro a ha
    have := h.fresh a ha
    omega
  have hreplies : ∀ r ∈ b.replies, p.forwardedId ≠ r.call.forwardedId := by
    intro r hr
    obtain ⟨a, ha, hsame, -⟩ := h.addressed r hr
    rw [← hsame]
    exact (haccepted a ha).symm
  refine ⟨?_, h.sessionIds, h.freshSessions, ?_, ?_, ?_, ?_, h.once, ?_, ?_, h.own, ?_⟩
  · simp only [acceptedBook, List.map_append, List.map_singleton]
    refine List.nodup_append.mpr ⟨h.ids, List.nodup_singleton _, ?_⟩
    intro x hx y hy
    obtain ⟨q, hq, rfl⟩ := List.mem_map.mp hx
    rw [List.mem_singleton.mp hy]
    exact hpending q hq
  · intro a ha
    rcases List.mem_append.mp ha with ha | ha
    · exact h.freshCallers a ha
    · rw [List.mem_singleton.mp ha]
      exact hcaller
  · intro a ha
    rcases List.mem_append.mp ha with ha | ha
    · exact Nat.lt_succ_of_lt (h.fresh a ha)
    · rw [List.mem_singleton.mp ha]
      exact hid ▸ Nat.lt_succ_self _
  · simp only [acceptedBook, List.map_append, List.map_singleton]
    refine List.nodup_append.mpr ⟨h.acceptedIds, List.nodup_singleton _, ?_⟩
    intro x hx y hy
    obtain ⟨q, hq, rfl⟩ := List.mem_map.mp hx
    rw [List.mem_singleton.mp hy]
    exact haccepted q hq
  · intro q hq
    rcases List.mem_append.mp hq with hq | hq
    · obtain ⟨a, ha, hsame⟩ := h.known q hq
      exact ⟨a, List.mem_append_left _ ha, hsame⟩
    · rw [List.mem_singleton.mp hq]
      exact ⟨p, List.mem_append_right _ (List.mem_singleton.mpr rfl), rfl, rfl, rfl⟩
  · intro r hr q hq
    rcases List.mem_append.mp hq with hq | hq
    · exact h.retired r hr q hq
    · rw [List.mem_singleton.mp hq]
      exact hreplies r hr
  · intro r hr
    obtain ⟨a, ha, hsame⟩ := h.addressed r hr
    exact ⟨a, List.mem_append_left _ ha, hsame⟩
  · intro a ha
    rcases List.mem_append.mp ha with ha | ha
    · rcases h.kept a ha with ⟨q, hq, hq'⟩ | hr | hnone
      · exact .inl ⟨q, List.mem_append_left _ hq, hq'⟩
      · exact .inr (.inl hr)
      · exact .inr (.inr hnone)
    · rw [List.mem_singleton.mp ha]
      exact .inl ⟨p, List.mem_append_right _ (List.mem_singleton.mpr rfl), rfl⟩

/-- The book after the call at `index` was handed to generation `generation`. -/
def deliveredBook (b : Book) (index generation : ℕ) : Book :=
  { b with pending := b.pending.modify index fun p =>
      { p with delivered := true, providerGeneration := generation } }

theorem deliveredBook_ids (b : Book) (index generation : ℕ) :
    (deliveredBook b index generation).pending.map PendingCall.forwardedId =
      b.pending.map PendingCall.forwardedId := by
  refine List.ext_getElem? fun j => ?_
  simp only [deliveredBook, List.getElem?_map, List.getElem?_modify]
  cases b.pending[j]? with
  | none => rfl
  | some q => by_cases hj : index = j <;> simp [hj]

theorem mem_deliveredBook {b : Book} {index generation : ℕ} {q : PendingCall}
    (hq : q ∈ (deliveredBook b index generation).pending) : ∃ p ∈ b.pending, Same p q := by
  obtain ⟨j, hj⟩ := List.mem_iff_getElem?.mp hq
  simp only [deliveredBook, List.getElem?_modify] at hj
  cases hp : b.pending[j]? with
  | none => simp [hp] at hj
  | some p =>
    refine ⟨p, List.mem_of_getElem? hp, ?_⟩
    by_cases hij : index = j
    · simp only [hp, hij, if_true, Option.map_eq_map, Option.map_some, Option.some.injEq] at hj
      subst hj
      exact ⟨rfl, rfl, rfl⟩
    · simp only [hp, hij, if_false, Option.map_eq_map, Option.map_some, Option.some.injEq] at hj
      subst hj
      exact ⟨rfl, rfl, rfl⟩

theorem Ledger.deliver {b : Book} (h : Ledger b) (index generation : ℕ) :
    Ledger (deliveredBook b index generation) := by
  have hids := deliveredBook_ids b index generation
  refine ⟨hids ▸ h.ids, h.sessionIds, h.freshSessions, h.freshCallers, h.fresh, h.acceptedIds,
    ?_, h.once, ?_, h.addressed, h.own, ?_⟩
  · intro q hq
    obtain ⟨p, hp, hpq⟩ := mem_deliveredBook hq
    obtain ⟨a, ha, hsame⟩ := h.known p hp
    exact ⟨a, ha, hsame.1.trans hpq.1, hsame.2.1.trans hpq.2.1, hsame.2.2.trans hpq.2.2⟩
  · intro r hr q hq
    obtain ⟨p, hp, hpq⟩ := mem_deliveredBook hq
    rw [← hpq.1]
    exact h.retired r hr p hp
  · intro a ha
    rcases h.kept a ha with ⟨q, hq, hq'⟩ | hrest
    · have hmem : q.forwardedId ∈
          (deliveredBook b index generation).pending.map PendingCall.forwardedId := by
        rw [hids]
        exact List.mem_map_of_mem hq
      obtain ⟨q', hmem', hid⟩ := List.mem_map.mp hmem
      exact .inl ⟨q', hmem', hid.trans hq'⟩
    · exact .inr hrest

/-! ## Positions -/

def OwnAt (b : Book) (index id : ℕ) : Prop :=
  (b.pending.map PendingCall.forwardedId)[index]? = some id

/-- The position of a call that was the last one when its frame was suspended: it
still is, or the list has become too short. -/
def LastOwn (b : Book) (index id : ℕ) : Prop :=
  b.pending.length ≤ index ∨ (b.pending.length = index + 1 ∧ OwnAt b index id)

/-- Some entry was erased, or none was moved. -/
def Shrinks (b b' : Book) : Prop :=
  b'.pending.map PendingCall.forwardedId = b.pending.map PendingCall.forwardedId ∨
    b'.pending.length < b.pending.length

theorem Shrinks.length_le {b b' : Book} (h : Shrinks b b') :
    b'.pending.length ≤ b.pending.length := by
  rcases h with h | h
  · have hlen := congrArg List.length h
    simp only [List.length_map] at hlen
    omega
  · omega

theorem LastOwn.shrinks {b b' : Book} {index id : ℕ} (h : LastOwn b index id)
    (hs : Shrinks b b') : LastOwn b' index id := by
  have hle := hs.length_le
  rcases h with h | ⟨hlen, hown⟩
  · exact .inl (by omega)
  · rcases hs with hs | hs
    · have hlen' := congrArg List.length hs
      simp only [List.length_map] at hlen'
      exact .inr ⟨by omega, by rw [OwnAt, hs]; exact hown⟩
    · exact .inl (by omega)

theorem shrinks_answered {b : Book} {index : ℕ} {p : PendingCall} (cause : Cause)
    (hp : b.pending[index]? = some p) : Shrinks b (answered b index p cause) := by
  have hlt : index < b.pending.length := (List.getElem?_eq_some_iff.mp hp).1
  refine .inr ?_
  simp only [answered, List.length_eraseIdx, hlt, if_true]
  omega

theorem shrinks_disconnected (b : Book) (id : ℕ) : Shrinks b (disconnectedBook b id) := by
  rcases Nat.lt_or_ge (disconnectedBook b id).pending.length b.pending.length with h | h
  · exact .inr h
  · refine .inl ?_
    have hall := List.filter_sublist.eq_of_length_le h
    exact congrArg (List.map PendingCall.forwardedId) hall

theorem shrinks_delivered (b : Book) (index generation : ℕ) :
    Shrinks b (deliveredBook b index generation) := .inl (deliveredBook_ids b index generation)

/-! ## Suspended frames -/

/-- Frames that may be suspended while entries are erased. -/
inductive Base (b : Book) : List Frame → Prop
  | nil : Base b []
  | disconnected {c g rest} : Base b rest → Base b (.disconnected c g :: rest)
  | closeLoop {c g rest} : Base b rest → Base b (.closeLoop c g :: rest)
  | broadcast {packet deliveries rest} : Base b rest → Base b (.broadcast packet deliveries :: rest)
  | activating {provider index id rest} : LastOwn b index id → Base b rest →
      Base b (.activating provider index id :: rest)
  | lost {session index g id provider rest} : b.pending.length ≤ index → Base b rest →
      Base b (.afterDelivery session index g id provider none :: rest)

theorem Base.shrinks {b b' : Book} {st : List Frame} (h : Base b st) (hs : Shrinks b b') :
    Base b' st := by
  induction h with
  | nil => exact .nil
  | disconnected _ ih => exact .disconnected ih
  | closeLoop _ ih => exact .closeLoop ih
  | broadcast _ ih => exact .broadcast ih
  | activating hlast _ ih => exact .activating (hlast.shrinks hs) ih
  | lost hlen _ ih => exact .lost (hs.length_le.trans hlen) ih

/-- The entries a `component_ready` has passed. -/
def ReadyPassed (b : Book) (c index : ℕ) : Prop :=
  ∀ p ∈ b.pending.take index, p.provider = c → p.delivered = true

/-- The entries a `component_unavailable` has passed. -/
def UnavailablePassed (b : Book) (c g index : ℕ) : Prop :=
  ∀ p ∈ b.pending.take index, ¬ Affected c g p

/-- The call of a suspended delivery whose provider session was just closed: it is
gone, or it is the last entry and will be failed by the `component_unavailable` of
that provider. -/
def Doomed (b : Book) (index c : ℕ) : Prop :=
  b.pending.length ≤ index ∨ (b.pending.length = index + 1 ∧
    ∃ p, b.pending[index]? = some p ∧ p.provider = c ∧ p.delivered = false)

/-- The stacks of a run in which no send inside a loop closes its session. At most
one loop is active, and it is innermost apart from its own send. -/
inductive Shape (b : Book) : List Frame → Prop
  | base {st} : Base b st → Shape b st
  | single {x packet st} : Base b st → Shape b (.send x packet .single :: st)
  | unavailable {c g i st} : UnavailablePassed b c g i → Base b st →
      Shape b (.unavailableLoop c g i :: st)
  | unavailableSend {x packet c g i st} : UnavailablePassed b c g i → Base b st →
      Shape b (.send x packet .inLoop :: .unavailableLoop c g i :: st)
  | ready {c g i st} : ReadyPassed b c i → Base b st → Shape b (.readyLoop c g i :: st)
  | readySend {x packet c g i st} : ReadyPassed b c i → Base b st →
      Shape b (.send x packet .inLoop :: .readyLoop c g i :: st)
  | loopDelivery {x i g id provider c st} : (b.findSession x).isSome → ReadyPassed b c i →
      Base b st → Shape b (.afterDelivery x i g id provider (some c) :: st)
  | loopDeliverySend {x packet i g id provider c st} : (b.findSession x).isSome →
      ReadyPassed b c i → Base b st →
      Shape b (.send x packet .inLoop :: .afterDelivery x i g id provider (some c) :: st)
  | delivery {x i g id provider st} : (b.findSession x).isSome → Base b st →
      Shape b (.afterDelivery x i g id provider none :: st)
  | deliverySend {x packet i g id provider session c st} : b.findSession x = some session →
      session.peer = .component c g → Doomed b i c → Base b st →
      Shape b (.send x packet .single :: .afterDelivery x i g id provider none :: st)
  | closing {x c g j i id provider st} : UnavailablePassed b c g j → Doomed b i c → Base b st →
      Shape b (.unavailableLoop c g j :: .disconnected c g ::
        .afterDelivery x i g id provider none :: st)
  | closingSend {y packet x c g j i id provider st} : UnavailablePassed b c g j → Doomed b i c →
      Base b st → Shape b (.send y packet .inLoop :: .unavailableLoop c g j :: .disconnected c g ::
        .afterDelivery x i g id provider none :: st)

structure Inv (s : State) : Prop where
  ledger : Ledger s.toBook
  shape : Shape s.toBook s.stack

/-! ## The operations -/

theorem take_answered {b : Book} {index : ℕ} {p : PendingCall} (cause : Cause) :
    (answered b index p cause).pending.take index = b.pending.take index := by
  simp only [answered, List.eraseIdx_eq_take_drop_succ]
  rcases Nat.le_total index b.pending.length with h | h
  · rw [List.take_append_of_le_length (by simp [h])]
    simp
  · rw [List.drop_of_length_le (by omega)]
    simp

theorem Doomed.shrinks_of_lt {b b' : Book} {index c : ℕ} (h : Doomed b index c)
    (hlt : b'.pending.length < b.pending.length) : Doomed b' index c := by
  rcases h with h | ⟨h, -⟩
  · exact .inl (by omega)
  · exact .inl (by omega)

theorem Doomed.disconnected {b : Book} {index c : ℕ} (h : Doomed b index c) (id : ℕ) :
    Doomed (disconnectedBook b id) index c := by
  rcases Nat.lt_or_ge (disconnectedBook b id).pending.length b.pending.length with hlt | hge
  · exact h.shrinks_of_lt hlt
  · have hsame : (disconnectedBook b id).pending = b.pending :=
      List.filter_sublist.eq_of_length_le hge
    rw [Doomed, hsame]
    exact h

theorem failPending_single {s : State} (hl : Ledger s.toBook) (hb : Base s.toBook s.stack)
    {index : ℕ} {code message : Bytes} {cause : Cause}
    (hown : ∀ p, s.pending[index]? = some p → cause.Own s.clock p) :
    Inv (failPending s index code message cause .single) := by
  unfold failPending
  split
  · exact ⟨hl, .base hb⟩
  · rename_i p hp
    exact ⟨hl.answer hp (hown p hp), .single (hb.shrinks (shrinks_answered cause hp))⟩

theorem closeSession_inv {s : State} (hl : Ledger s.toBook) (hb : Base s.toBook s.stack)
    (id : ℕ) (notify : Bool) : Inv (closeSession s id notify) := by
  have hb' := hb.shrinks (shrinks_disconnected s.toBook id)
  have hpassed : ∀ c g, UnavailablePassed (disconnectedBook s.toBook id) c g 0 := by
    simp [UnavailablePassed]
  unfold closeSession
  split
  · exact ⟨hl, .base hb⟩
  · rename_i session hsession
    simp only
    split
    · exact ⟨hl.close id, .base hb'⟩
    · rename_i c g hpeer
      cases notify with
      | false => exact ⟨hl.close id, .unavailable (hpassed c g) hb'⟩
      | true => exact ⟨hl.close id, .unavailable (hpassed c g) (.disconnected hb')⟩

/-- A delivery from inside `component_ready`. -/
theorem deliver_loop {catalog : Catalog} {s : State} (hl : Ledger s.toBook)
    (hb : Base s.toBook s.stack) {index generation component : ℕ}
    (hr : ReadyPassed s.toBook component index) :
    Inv (deliver catalog s index generation (some component)) := by
  have hready : ∀ (p : PendingCall) (cause : Cause),
      ReadyPassed (answered s.toBook index p cause) component index := by
    intro p cause q hq
    rw [take_answered] at hq
    exact hr q hq
  unfold deliver
  split
  · exact ⟨hl, .ready hr hb⟩
  · rename_i p hp
    split_ifs with hdead
    · simp only [failPending, resumeReady, State.push, hp]
      exact ⟨hl.answer hp ⟨rfl, hdead⟩,
        .readySend (hready p _) (hb.shrinks (shrinks_answered _ hp))⟩
    · split
      · simp only [failPending, resumeReady, State.push, hp]
        exact ⟨hl.answer hp rfl, .readySend (hready p _) (hb.shrinks (shrinks_answered _ hp))⟩
      · rename_i session hsession
        have hopen : (s.findSession session.id).isSome := by
          rw [hl.findSession_of_mem (List.mem_of_find?_eq_some hsession)]
          rfl
        exact ⟨hl, .loopDeliverySend hopen hr hb⟩

/-- The delivery of a call that was just accepted. -/
theorem deliver_last {catalog : Catalog} {s : State} (hl : Ledger s.toBook)
    (hb : Base s.toBook s.stack) {index generation : ℕ} {p : PendingCall}
    (hp : s.pending[index]? = some p) (hlast : s.pending.length = index + 1)
    (hundelivered : p.delivered = false) :
    Inv (deliver catalog s index generation none) := by
  unfold deliver
  rw [hp]
  simp only
  split_ifs with hdead
  · refine failPending_single hl hb fun q hq => ?_
    cases hp.symm.trans hq
    exact ⟨rfl, hdead⟩
  · split
    · refine failPending_single hl hb fun q hq => ?_
      cases hp.symm.trans hq
      exact rfl
    · rename_i session hsession
      have hfind := hl.findSession_of_mem (List.mem_of_find?_eq_some hsession)
      have hpeer : session.peer = .component p.provider generation := by
        have h := List.find?_some hsession
        simp only [Bool.and_eq_true, beq_iff_eq] at h
        exact h.1
      exact ⟨hl, .deliverySend hfind hpeer (.inr ⟨hlast, p, hp, rfl, hundelivered⟩) hb⟩

theorem queueProviderCall_inv {catalog : Catalog} {supervisor : Supervisor} {s : State}
    (hl : Ledger s.toBook) (hb : Base s.toBook s.stack) (hst : s.stack = []) {session : ℕ}
    (hsession : session < s.nextSessionId) (requestId : ℕ) (message : DecodedMessage)
    (source : Bytes) (provider : ℕ) :
    Inv (queueProviderCall catalog supervisor s session requestId message source provider) := by
  unfold queueProviderCall
  simp only
  split_ifs
  · exact ⟨hl, .single hb⟩
  · exact ⟨hl, .single hb⟩
  · exact ⟨hl, .single hb⟩
  · exact deliver_last (hl.accept rfl hsession) (by rw [hst]; exact .nil)
      List.getElem?_concat_length (by simp) rfl
  · refine ⟨hl.accept rfl hsession, ?_⟩
    simp only [State.push, hst]
    exact .base (.activating (.inr ⟨by simp, by simp [OwnAt]⟩) .nil)

/-! ## Steps and runs -/

/-- No send inside a loop over `pending_` closes an open session. -/
def Quiet (s : State) (e : Event) : Prop :=
  match s.stack, e with
  | .send id _ .inLoop :: _, .sent true => s.findSession id = none
  | _, _ => True

instance (s : State) (e : Event) : Decidable (Quiet s e) := by
  unfold Quiet
  split
  · exact inferInstanceAs (Decidable (_ = _))
  · exact isTrue trivial

theorem Ledger.tick {b : Book} (h : Ledger b) (ms : ℕ) :
    Ledger { b with clock := b.clock + ms } := by
  refine ⟨h.ids, h.sessionIds, h.freshSessions, h.freshCallers, h.fresh, h.acceptedIds, h.known,
    h.once, h.retired, h.addressed, ?_, h.kept⟩
  intro r hr
  have hown := h.own r hr
  cases hcause : r.cause with
  | deadline id =>
    rw [hcause] at hown
    exact ⟨hown.1, hown.2.trans (Nat.le_add_right _ _)⟩
  | unavailable c g | delivery id | activation id | answered id =>
    rw [hcause] at hown
    exact hown

theorem Ledger.acceptSession {b : Book} (h : Ledger b) (peer : Peer) :
    Ledger { b with
      sessions := b.sessions ++ [{ id := b.nextSessionId, peer := peer }]
      nextSessionId := b.nextSessionId + 1 } := by
  refine ⟨h.ids, ?_, ?_, ?_, h.fresh, h.acceptedIds, h.known, h.once, h.retired, h.addressed,
    h.own, ?_⟩
  · simp only [List.map_append, List.map_singleton]
    refine List.nodup_append.mpr ⟨h.sessionIds, List.nodup_singleton _, ?_⟩
    intro x hx y hy
    obtain ⟨session, hmem, rfl⟩ := List.mem_map.mp hx
    rw [List.mem_singleton.mp hy]
    exact (h.freshSessions session hmem).ne
  · intro session hmem
    rcases List.mem_append.mp hmem with hmem | hmem
    · exact Nat.lt_succ_of_lt (h.freshSessions session hmem)
    · rw [List.mem_singleton.mp hmem]
      exact Nat.lt_succ_self _
  · exact fun a ha => Nat.lt_succ_of_lt (h.freshCallers a ha)
  · intro a ha
    rcases h.kept a ha with hp | hr | hnone
    · exact .inl hp
    · exact .inr (.inl hr)
    · refine .inr (.inr (findSession_eq_none.mpr fun session hmem => ?_))
      rcases List.mem_append.mp hmem with hmem | hmem
      · exact findSession_eq_none.mp hnone session hmem
      · rw [List.mem_singleton.mp hmem]
        exact (h.freshCallers a ha).ne'

theorem Ledger.handshake {b : Book} (h : Ledger b) (id : ℕ) :
    Ledger { b with sessions := b.sessions.map fun session =>
      if session.id = id then { session with ready := true } else session } := by
  have hmap : ∀ session : Session,
      (if session.id = id then { session with ready := true } else session).id = session.id := by
    intro session
    split_ifs <;> rfl
  refine ⟨h.ids, ?_, ?_, h.freshCallers, h.fresh, h.acceptedIds, h.known, h.once, h.retired,
    h.addressed, h.own, ?_⟩
  · simpa only [List.map_map, Function.comp_def, hmap] using h.sessionIds
  · intro session hmem
    obtain ⟨old, hold, rfl⟩ := List.mem_map.mp hmem
    rw [hmap]
    exact h.freshSessions old hold
  · intro a ha
    rcases h.kept a ha with hp | hr | hnone
    · exact .inl hp
    · exact .inr (.inl hr)
    · refine .inr (.inr (findSession_eq_none.mpr fun session hmem => ?_))
      obtain ⟨old, hold, rfl⟩ := List.mem_map.mp hmem
      rw [hmap]
      exact findSession_eq_none.mp hnone old hold

/-- The call found by its forwarded id. -/
theorem findIdx_own {pending : List PendingCall} {id : ℕ} {p : PendingCall}
    (h : pending[pending.findIdx fun q => q.forwardedId == id]? = some p) :
    p.forwardedId = id := by
  obtain ⟨hlt, hget⟩ := List.getElem?_eq_some_iff.mp h
  have hfound := List.findIdx_getElem (w := hlt)
  rw [hget] at hfound
  simpa using hfound

theorem providerReply_inv {s : State} (hl : Ledger s.toBook) (hb : Base s.toBook s.stack)
    (peer : Peer) (message : DecodedMessage) : Inv (providerReply s peer message) := by
  unfold providerReply
  split
  · exact ⟨hl, .base hb⟩
  · simp only
    split
    · exact ⟨hl, .base hb⟩
    · rename_i p hp
      split_ifs
      · exact ⟨hl.answer hp (findIdx_own hp).symm, .single (hb.shrinks (shrinks_answered _ hp))⟩
      · exact ⟨hl, .base hb⟩

theorem supervise_inv {s : State} (hl : Ledger s.toBook) (hb : Base s.toBook s.stack)
    (op : SupervisorOp) : Inv (supervise s op) := by
  cases op with
  | componentReady c g => exact ⟨hl, .ready (by simp [ReadyPassed]) hb⟩
  | componentUnavailable c g => exact ⟨hl, .unavailable (by simp [UnavailablePassed]) hb⟩
  | closeComponentSession c g => exact ⟨hl, .base (.closeLoop hb)⟩

theorem dispatch_inv {catalog : Catalog} {s s' : State} {e : Event} (hl : Ledger s.toBook)
    (hst : s.stack = []) (h : dispatch catalog s e = some s') : Inv s' := by
  have hbase : ∀ b : Book, Base b s.stack := by
    intro b
    rw [hst]
    exact .nil
  have hb := hbase s.toBook
  cases e with
  | tick ms =>
    cases h
    exact ⟨hl.tick ms, .base (hbase _)⟩
  | accept peer =>
    cases h
    exact ⟨hl.acceptSession peer, .base (hbase _)⟩
  | handshake id =>
    cases h
    exact ⟨hl.handshake id, .base (hbase _)⟩
  | closed id =>
    cases h
    exact closeSession_inv hl hb id true
  | call id message source supervisor =>
    simp only [dispatch] at h
    split at h
    · cases h
    · rename_i session hsession
      cases h
      obtain ⟨hmem, rfl⟩ := findSession_eq_some hsession
      unfold routeCall
      split
      · exact ⟨hl, .base hb⟩
      · split
        · exact ⟨hl, .single hb⟩
        · exact ⟨hl, .single hb⟩
        · exact queueProviderCall_inv hl hb hst (hl.freshSessions session hmem) _ _ _ _
  | reply id message =>
    simp only [dispatch] at h
    split at h
    · cases h
    · cases h
      exact providerReply_inv hl hb _ _
  | timer forwardedId =>
    simp only [dispatch] at h
    split_ifs at h with hdue
    cases h
    refine failPending_single hl hb fun p hp => ?_
    have hid := findIdx_own hp
    exact ⟨hid.symm, hdue p (List.mem_of_getElem? hp) hid⟩
  | publish packet deliveries =>
    cases h
    exact ⟨hl, .base (.broadcast hb)⟩
  | answer id packet =>
    cases h
    exact ⟨hl, .single hb⟩
  | supervise op =>
    cases h
    exact supervise_inv hl hb op
  | activated result | sent closes | hook fails | go => cases h

/-! What a step can do, by the innermost frame. -/

section Inversion

variable {catalog : Catalog} {s s' : State} {e : Event} {rest : List Frame}

theorem step_send {id : ℕ} {packet : Bytes} {site : Site}
    (hst : s.stack = .send id packet site :: rest) (h : step catalog s e = some s') :
    ∃ closes, e = .sent closes ∧ s' = sendToSession { s with stack := rest } id closes := by
  simp only [step, hst] at h
  cases e with
  | sent closes => exact ⟨closes, rfl, (Option.some.inj h).symm⟩
  | _ => cases h

theorem step_ready {c g i : ℕ} (hst : s.stack = .readyLoop c g i :: rest)
    (h : step catalog s e = some s') :
    s' = readyTurn catalog { s with stack := rest } c g i := by
  simp only [step, hst] at h
  cases e with
  | go => exact (Option.some.inj h).symm
  | _ => cases h

theorem step_unavailable {c g i : ℕ} (hst : s.stack = .unavailableLoop c g i :: rest)
    (h : step catalog s e = some s') :
    s' = unavailableTurn catalog { s with stack := rest } c g i := by
  simp only [step, hst] at h
  cases e with
  | go => exact (Option.some.inj h).symm
  | _ => cases h

theorem step_afterDelivery {x i g id provider : ℕ} {loop : Option ℕ}
    (hst : s.stack = .afterDelivery x i g id provider loop :: rest)
    (h : step catalog s e = some s') :
    s' = finishDelivery catalog { s with stack := rest } x i g id provider loop := by
  simp only [step, hst] at h
  cases e with
  | go => exact (Option.some.inj h).symm
  | _ => cases h

theorem step_base (hl : Ledger s.toBook) (hb : Base s.toBook s.stack)
    (h : step catalog s e = some s') : Inv s' := by
  generalize hst : s.stack = st at hb
  cases hb with
  | nil =>
    simp only [step, hst] at h
    exact dispatch_inv hl hst h
  | @disconnected c g rest hrest =>
    simp only [step, hst] at h
    cases e with
    | hook fails =>
      cases h
      cases fails with
      | false => exact ⟨hl, .base hrest⟩
      | true => exact ⟨hl, .unavailable (by simp [UnavailablePassed]) hrest⟩
    | _ => cases h
  | @closeLoop c g rest hrest =>
    simp only [step, hst] at h
    cases e with
    | go =>
      cases h
      unfold closeTurn
      split
      · exact ⟨hl, .base hrest⟩
      · exact closeSession_inv (s := State.push { s with stack := rest } _) hl
          (.closeLoop hrest) _ _
    | _ => cases h
  | @broadcast packet deliveries rest hrest =>
    cases deliveries with
    | nil =>
      simp only [step, hst] at h
      cases e with
      | go =>
        cases h
        exact ⟨hl, .base hrest⟩
      | _ => cases h
    | cons id deliveries =>
      simp only [step, hst] at h
      cases e with
      | go =>
        cases h
        exact ⟨hl, .single (.broadcast hrest)⟩
      | _ => cases h
  | @activating provider index id rest hlast hrest =>
    simp only [step, hst] at h
    cases e with
    | supervise op =>
      cases h
      exact supervise_inv hl (by rw [hst]; exact .activating hlast hrest) op
    | activated result =>
      cases h
      cases result with
      | true => exact ⟨hl, .base hrest⟩
      | false =>
        refine failPending_single (s := { s with stack := rest }) hl hrest fun p hp => ?_
        rcases hlast with hshort | ⟨-, hown⟩
        · have hlt := (List.getElem?_eq_some_iff.mp hp).1
          exact absurd hlt (Nat.not_lt.mpr hshort)
        · simp only [OwnAt, List.getElem?_map] at hown
          rw [show s.pending[index]? = some p from hp] at hown
          exact (Option.some.inj hown).symm
    | _ => cases h
  | @lost x i g id provider rest hlen hrest =>
    rw [step_afterDelivery hst h]
    have hnone : s.pending[i]? = none := List.getElem?_eq_none hlen
    unfold finishDelivery
    split_ifs
    · exact ⟨hl.deliver i g, .base (hrest.shrinks (shrinks_delivered _ i g))⟩
    · refine failPending_single (s := { s with stack := rest }) hl hrest fun p hp => ?_
      cases hnone.symm.trans hp

end Inversion

theorem unavailableTurn_passed {s : State} {c g i : ℕ} {p : PendingCall}
    (hpassed : UnavailablePassed s.toBook c g i) (hp : s.pending[i]? = some p)
    (haffected : ¬ Affected c g p) : UnavailablePassed s.toBook c g (i + 1) := by
  intro q hq
  rw [List.take_add_one, hp] at hq
  rcases List.mem_append.mp hq with hq | hq
  · exact hpassed q hq
  · rw [List.mem_singleton.mp hq]
    exact haffected

theorem readyTurn_passed {s : State} {c i : ℕ} {p : PendingCall}
    (hpassed : ReadyPassed s.toBook c i) (hp : s.pending[i]? = some p)
    (hdue : ¬ (p.provider = c ∧ ¬ p.delivered)) : ReadyPassed s.toBook c (i + 1) := by
  intro q hq hprovider
  rw [List.take_add_one, hp] at hq
  rcases List.mem_append.mp hq with hq | hq
  · exact hpassed q hq hprovider
  · rw [List.mem_singleton.mp hq] at hprovider ⊢
    by_contra hundelivered
    exact hdue ⟨hprovider, hundelivered⟩

theorem UnavailablePassed.answered {b : Book} {c g i : ℕ} (h : UnavailablePassed b c g i)
    (p : PendingCall) (cause : Cause) :
    UnavailablePassed (answered b i p cause) c g i := by
  intro q hq
  rw [take_answered] at hq
  exact h q hq

/-- A finished loop has passed every entry. -/
theorem UnavailablePassed.all {b : Book} {c g i : ℕ} (h : UnavailablePassed b c g i)
    (hlen : b.pending.length ≤ i) : ∀ p ∈ b.pending, ¬ Affected c g p := by
  rw [UnavailablePassed, List.take_of_length_le hlen] at h
  exact h

theorem ReadyPassed.all {b : Book} {c i : ℕ} (h : ReadyPassed b c i)
    (hlen : b.pending.length ≤ i) : ∀ p ∈ b.pending, p.provider = c → p.delivered = true := by
  rw [ReadyPassed, List.take_of_length_le hlen] at h
  exact h

theorem length_le_of_getElem?_eq_none {s : State} {i : ℕ} (h : s.pending[i]? = none) :
    s.pending.length ≤ i := List.getElem?_eq_none_iff.mp h

/-- A closed provider session leaves no doomed call behind its loop. -/
theorem Doomed.done {b : Book} {i c g j : ℕ} (h : Doomed b i c)
    (hpassed : UnavailablePassed b c g j) (hlen : b.pending.length ≤ j) :
    b.pending.length ≤ i := by
  rcases h with h | ⟨-, p, hp, hprovider, hundelivered⟩
  · exact h
  · exact absurd ⟨hprovider, .inl hundelivered⟩
      (hpassed.all hlen p (List.mem_of_getElem? hp))

theorem ReadyPassed.delivered {b : Book} {c i g : ℕ} (h : ReadyPassed b c i) :
    ReadyPassed (deliveredBook b i g) c (i + 1) := by
  intro q hq hprovider
  obtain ⟨j, hj⟩ := List.mem_iff_getElem?.mp hq
  rw [List.getElem?_take] at hj
  split_ifs at hj with hlt
  simp only [deliveredBook, List.getElem?_modify] at hj
  by_cases hij : i = j
  · subst hij
    cases hp : b.pending[i]? with
    | none => simp [hp] at hj
    | some p =>
      simp only [hp, if_true, Option.map_eq_map, Option.map_some, Option.some.injEq] at hj
      subst hj
      rfl
  · have hjlt : j < i := by omega
    simp only [hij, if_false, Option.map_eq_map, Option.map_id'] at hj
    refine h q (List.mem_iff_getElem?.mpr ⟨j, ?_⟩) hprovider
    rw [List.getElem?_take, if_pos hjlt]
    exact hj

theorem unavailableTurn_inv {catalog : Catalog} {s : State} {c g i : ℕ} (hl : Ledger s.toBook)
    (hpassed : UnavailablePassed s.toBook c g i) (hb : Base s.toBook s.stack) :
    Inv (unavailableTurn catalog s c g i) := by
  unfold unavailableTurn
  split
  · exact ⟨hl, .base hb⟩
  · rename_i p hp
    split_ifs with haffected
    · simp only [failPending, State.push, hp]
      exact ⟨hl.answer hp haffected,
        .unavailableSend (hpassed.answered p _) (hb.shrinks (shrinks_answered _ hp))⟩
    · exact ⟨hl, .unavailable (unavailableTurn_passed hpassed hp haffected) hb⟩

theorem readyTurn_inv {catalog : Catalog} {s : State} {c g i : ℕ} (hl : Ledger s.toBook)
    (hpassed : ReadyPassed s.toBook c i) (hb : Base s.toBook s.stack) :
    Inv (readyTurn catalog s c g i) := by
  unfold readyTurn
  split
  · exact ⟨hl, .base hb⟩
  · rename_i p hp
    split_ifs with hdue
    · exact deliver_loop hl hb hpassed
    · exact ⟨hl, .ready (readyTurn_passed hpassed hp hdue) hb⟩

/-- The turn of a `component_unavailable` that runs inside the close of the session a
delivery was sent to. -/
theorem closingTurn_inv {catalog : Catalog} {s : State} {c g j x i id provider : ℕ}
    {rest : List Frame} (hl : Ledger s.toBook) (hpassed : UnavailablePassed s.toBook c g j)
    (hdoomed : Doomed s.toBook i c) (hb : Base s.toBook rest)
    (hst : s.stack = .disconnected c g :: .afterDelivery x i g id provider none :: rest) :
    Inv (unavailableTurn catalog s c g j) := by
  unfold unavailableTurn
  split
  · rename_i hnone
    have hgone := hdoomed.done hpassed (length_le_of_getElem?_eq_none hnone)
    exact ⟨hl, hst ▸ .base (.disconnected (.lost hgone hb))⟩
  · rename_i p hp
    split_ifs with haffected
    · simp only [failPending, State.push, hp, hst]
      have hshrinks := shrinks_answered (.unavailable c g) hp
      have hlt : (answered s.toBook j p (.unavailable c g)).pending.length <
          s.pending.length := by
        have hj : j < s.pending.length := (List.getElem?_eq_some_iff.mp hp).1
        simp only [answered, List.length_eraseIdx, hj, if_true]
        omega
      exact ⟨hl.answer hp haffected, .closingSend (hpassed.answered p _)
        (hdoomed.shrinks_of_lt hlt) (hb.shrinks hshrinks)⟩
    · simp only [State.push, hst]
      exact ⟨hl, .closing (unavailableTurn_passed hpassed hp haffected) hdoomed hb⟩

/-- The close of the session a freshly accepted call was sent to. -/
theorem closeDelivery_inv {s : State} {x i g id provider c : ℕ} {session : Session}
    {rest : List Frame} (hl : Ledger s.toBook) (hfind : s.findSession x = some session)
    (hpeer : session.peer = .component c g) (hdoomed : Doomed s.toBook i c)
    (hb : Base s.toBook rest) (hst : s.stack = .afterDelivery x i g id provider none :: rest) :
    Inv (closeSession s x true) := by
  have hclosed : closeSession s x true = { disconnectedBook s.toBook x with
      stack := .unavailableLoop c g 0 :: .disconnected c g ::
        .afterDelivery x i g id provider none :: rest } := by
    simp only [closeSession, hfind, hpeer, if_true, State.push, hst]
    rfl
  rw [hclosed]
  exact ⟨hl.close x, .closing (by simp [UnavailablePassed]) (hdoomed.disconnected x)
    (hb.shrinks (shrinks_disconnected _ x))⟩

/-- A send inside a loop leaves everything as it is. -/
theorem quiet_send {s : State} {e : Event} {id : ℕ} {packet : Bytes} {rest : List Frame}
    {closes : Bool} (hq : Quiet s e) (hst : s.stack = .send id packet .inLoop :: rest)
    (he : e = .sent closes) :
    sendToSession { s with stack := rest } id closes = { s with stack := rest } := by
  cases closes with
  | false => rfl
  | true =>
    simp only [Quiet, hst, he] at hq
    simp only [sendToSession, if_true, closeSession]
    rw [show ({ s with stack := rest } : State).findSession id = none from hq]

theorem step_inv {catalog : Catalog} {s s' : State} {e : Event} (hinv : Inv s)
    (hq : Quiet s e) (h : step catalog s e = some s') : Inv s' := by
  obtain ⟨hl, hshape⟩ := hinv
  generalize hst : s.stack = st at hshape
  cases hshape with
  | base hb => exact step_base hl (hst ▸ hb) h
  | @single x packet st hb =>
    obtain ⟨closes, -, rfl⟩ := step_send hst h
    cases closes with
    | false => exact ⟨hl, .base hb⟩
    | true => exact closeSession_inv (s := { s with stack := st }) hl hb x true
  | unavailable hpassed hb =>
    rw [step_unavailable hst h]
    exact unavailableTurn_inv (s := { s with stack := _ }) hl hpassed hb
  | unavailableSend hpassed hb =>
    obtain ⟨closes, he, rfl⟩ := step_send hst h
    rw [quiet_send hq hst he]
    exact ⟨hl, .unavailable hpassed hb⟩
  | ready hpassed hb =>
    rw [step_ready hst h]
    exact readyTurn_inv (s := { s with stack := _ }) hl hpassed hb
  | readySend hpassed hb =>
    obtain ⟨closes, he, rfl⟩ := step_send hst h
    rw [quiet_send hq hst he]
    exact ⟨hl, .ready hpassed hb⟩
  | @loopDelivery x i g id provider c st hopen hpassed hb =>
    rw [step_afterDelivery hst h, finishDelivery,
      if_pos (show (({ s with stack := st } : State).findSession x).isSome from hopen)]
    exact ⟨hl.deliver i g, .ready hpassed.delivered (hb.shrinks (shrinks_delivered _ i g))⟩
  | loopDeliverySend hopen hpassed hb =>
    obtain ⟨closes, he, rfl⟩ := step_send hst h
    rw [quiet_send hq hst he]
    exact ⟨hl, .loopDelivery hopen hpassed hb⟩
  | @delivery x i g id provider st hopen hb =>
    rw [step_afterDelivery hst h, finishDelivery,
      if_pos (show (({ s with stack := st } : State).findSession x).isSome from hopen)]
    exact ⟨hl.deliver i g, .base (hb.shrinks (shrinks_delivered _ i g))⟩
  | @deliverySend x packet i g id provider session c st hfind hpeer hdoomed hb =>
    obtain ⟨closes, -, rfl⟩ := step_send hst h
    cases closes with
    | false =>
      have hopen : (s.findSession x).isSome := by
        rw [hfind]
        rfl
      exact ⟨hl, .delivery hopen hb⟩
    | true => exact closeDelivery_inv (s := { s with stack := _ }) hl hfind hpeer hdoomed hb rfl
  | closing hpassed hdoomed hb =>
    rw [step_unavailable hst h]
    exact closingTurn_inv (s := { s with stack := _ }) hl hpassed hdoomed hb rfl
  | closingSend hpassed hdoomed hb =>
    obtain ⟨closes, he, rfl⟩ := step_send hst h
    rw [quiet_send hq hst he]
    exact ⟨hl, .closing hpassed hdoomed hb⟩

theorem Inv.initial : Inv {} := ⟨Ledger.initial, .base .nil⟩

theorem Inv.isolated {s : State} (h : Inv s) : Isolated s := by
  obtain ⟨hl, hshape⟩ := h
  refine ⟨hl.once, hl.retired, hl.addressed, hl.own, hl.kept, ?_, ?_⟩
  · intro c g i rest hst hlen
    rw [hst] at hshape
    cases hshape with
    | base hb => cases hb
    | ready hpassed _ => exact hpassed.all hlen
  · intro c g i rest hst hlen
    rw [hst] at hshape
    cases hshape with
    | base hb => cases hb
    | unavailable hpassed _ => exact hpassed.all hlen
    | closing hpassed _ _ => exact hpassed.all hlen

/-- In every run in which no send made inside `component_ready` or
`component_unavailable` closes its session, pending calls are isolated. -/
theorem run_isolated {catalog : Catalog} {events : List Event} {s : State}
    (hquiet : Runs.Along (step catalog) Quiet {} events)
    (hrun : Runs.run (step catalog) {} events = some s) : Isolated s :=
  (Runs.run_invariant (fun _ _ _ hi hq h => step_inv hi hq h) events Inv.initial hquiet
    hrun).isolated

/-! ## A delivery that closes its provider session -/

def twoComponents : Catalog where
  componentId := fun index => if index = 0 then ascii "a" else ascii "b"
  role := fun _ => none
  interfaceProviders := fun _ => none
  componentIndex := fun id =>
    if id = ascii "a" then some 0 else if id = ascii "b" then some 1 else none

def callOf (target : String) : DecodedMessage :=
  { type := .call, requestId := some 7, target := ascii target, method := ascii "m" }

/-- Two callers wait for two components to start; then the first one is ready. -/
def twoCallers : List Event :=
  [.accept .publicControl, .accept .publicControl,
    .call 1 (callOf "component:a") (ascii "public") {}, .activated true,
    .call 2 (callOf "component:b") (ascii "public") {}, .activated true,
    .accept (.component 0 1), .handshake 3, .supervise (.componentReady 0 1)]

/-- The first component is handed its call. -/
def deliveredRun : List Event :=
  twoCallers ++ [.go, .sent false, .go, .go, .go]

theorem deliveredRun_isolated :
    ∃ s, Runs.run (step twoComponents) {} deliveredRun = some s ∧ Isolated s := by
  have hsome : (Runs.run (step twoComponents) {} deliveredRun).isSome := by decide +kernel
  obtain ⟨s, hs⟩ := Option.isSome_iff_exists.mp hsome
  exact ⟨s, hs, run_isolated (by decide +kernel) hs⟩

/-- The same delivery closes the provider session. The nested `component_unavailable`
answers the call, and `deliver` then fails the call that took its position. -/
def closedRun : List Event :=
  twoCallers ++ [.go, .sent true, .go, .sent false, .go, .go,
    .hook false, .go]

/-- The second caller is told that its provider has no socket, because of the first call. -/
theorem closedRun_not_isolated :
    ¬ ∀ (catalog : Catalog) (events : List Event) (s : State),
      Runs.run (step catalog) {} events = some s → Isolated s := by
  intro hall
  have hcauses : (Runs.run (step twoComponents) {} closedRun).map (fun s =>
      s.replies.map fun r => (r.call.forwardedId, r.call.callerSession, r.cause)) =
      some [(1, 1, .unavailable 0 1), (2, 2, .delivery 1)] := by decide +kernel
  obtain ⟨s, hs, hmap⟩ := Option.map_eq_some_iff.mp hcauses
  have hmem : (2, 2, Cause.delivery 1) ∈
      s.replies.map fun r => (r.call.forwardedId, r.call.callerSession, r.cause) := by
    rw [hmap]
    simp
  obtain ⟨r, hr, heq⟩ := List.mem_map.mp hmem
  have hown := (hall twoComponents closedRun s hs).own r hr
  obtain ⟨hid, -, hcause⟩ := Prod.mk.inj heq |>.imp id Prod.mk.inj
  rw [hcause, Cause.Own, hid] at hown
  exact absurd hown (by decide)

end MsysCore.Native.Router
