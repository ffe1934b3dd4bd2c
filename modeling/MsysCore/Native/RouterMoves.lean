import MsysCore.Native.RouterIsolation

/-!
# What one step of the router does to `pending_`

A step erases entries, appends one that is not delivered, or marks the entry of a delivery
whose send has returned. `RouterIsolation` speaks about runs in which no send inside a loop
closes its session; here every send may.

At most one delivery is under way whose provider session is open. Its frame is innermost but
for its own send, so the position that it keeps is still the one of its entry.
-/

namespace MsysCore.Native.Router

variable {catalog : Catalog} {cur : ℕ → ℕ → Prop} {s s' : State} {e : Event}

/-! ## Frames -/

/-- The frames that a closed session and a failed call leave on the stack. -/
def Frame.Closing : Frame → Prop
  | .send _ _ _ | .unavailableLoop _ _ _ | .disconnected _ _ => True
  | _ => False

/-- Not a delivery. -/
def Frame.Plain : Frame → Prop
  | .afterDelivery _ _ _ _ _ _ => False
  | _ => True

/-- What is delivered goes to a current generation. -/
def Frame.Sound (cur : ℕ → ℕ → Prop) : Frame → Prop
  | .readyLoop component generation _ => cur component generation
  | .afterDelivery _ _ generation _ provider loop =>
    cur provider generation ∧ ∀ component, loop = some component → component = provider
  | _ => True

theorem Frame.Closing.sound {f : Frame} (h : f.Closing) : f.Sound cur := by
  cases f <;> trivial

theorem Frame.Sound.mono {cur' : ℕ → ℕ → Prop} {f : Frame} (h : f.Sound cur)
    (hcur : ∀ component generation, cur component generation → cur' component generation) :
    f.Sound cur' := by
  cases f with
  | readyLoop component generation index => exact hcur _ _ h
  | afterDelivery session index generation id provider loop => exact ⟨hcur _ _ h.1, h.2⟩
  | _ => trivial

/-- No delivery of the frames has an open session. -/
def AllClosed (b : Book) (st : List Frame) : Prop :=
  ∀ x i g id provider loop, Frame.afterDelivery x i g id provider loop ∈ st →
    b.findSession x = none

theorem AllClosed.nil (b : Book) : AllClosed b [] := by
  intro x i g id provider loop hmem
  cases hmem

theorem AllClosed.cons {b : Book} {f : Frame} {st : List Frame} (hf : f.Plain)
    (h : AllClosed b st) : AllClosed b (f :: st) := by
  intro x i g id provider loop hmem
  rcases List.mem_cons.mp hmem with rfl | hmem
  · cases hf
  · exact h x i g id provider loop hmem

theorem AllClosed.tail {b : Book} {f : Frame} {st : List Frame} (h : AllClosed b (f :: st)) :
    AllClosed b st :=
  fun x i g id provider loop hmem => h x i g id provider loop (List.mem_cons_of_mem f hmem)

theorem findSession_none_of_sublist {b b' : Book} (h : b'.sessions.Sublist b.sessions) {x : ℕ}
    (hnone : b.findSession x = none) : b'.findSession x = none :=
  findSession_eq_none.mpr fun session hmem =>
    findSession_eq_none.mp hnone session (h.subset hmem)

/-- The entry of a delivery, before it is marked. -/
def Waiting (b : Book) (index provider : ℕ) : Prop :=
  ∃ p, b.pending[index]? = some p ∧ p.provider = provider ∧ p.delivered = false

inductive Delivering (b : Book) : List Frame → Prop
  | closed {st} : AllClosed b st → Delivering b st
  | waiting {x i g id provider loop st} : Waiting b i provider → AllClosed b st →
      Delivering b (.afterDelivery x i g id provider loop :: st)
  | sending {x packet site i g id provider loop st} : Waiting b i provider → AllClosed b st →
      Delivering b (.send x packet site :: .afterDelivery x i g id provider loop :: st)

theorem Delivering.allClosed {b : Book} {f : Frame} {st : List Frame} (h : Delivering b (f :: st))
    (hsend : ∀ x packet site, f ≠ .send x packet site) (hplain : f.Plain) : AllClosed b st := by
  cases h with
  | closed h => exact h.tail
  | waiting _ _ => cases hplain
  | sending _ _ => exact absurd rfl (hsend _ _ _)

/-! ## The tables -/

structure Tables (cur : ℕ → ℕ → Prop) (s : State) : Prop where
  ids : (s.pending.map PendingCall.forwardedId).Nodup
  fresh : ∀ p ∈ s.pending, p.forwardedId < s.nextForwardedId
  few : s.pending.length ≤ maxPendingCalls
  frames : ∀ f ∈ s.stack, f.Sound cur

structure Sound (cur : ℕ → ℕ → Prop) (s : State) : Prop where
  tables : Tables cur s
  delivering : Delivering s.toBook s.stack

theorem Sound.mono {cur' : ℕ → ℕ → Prop} (h : Sound cur s)
    (hcur : ∀ component generation, cur component generation → cur' component generation) :
    Sound cur' s :=
  ⟨{ h.tables with frames := fun f hf => (h.tables.frames f hf).mono hcur }, h.delivering⟩

/-- Without a frame nothing is about a generation. -/
theorem Sound.of_idle {cur' : ℕ → ℕ → Prop} (h : Sound cur s) (hst : s.stack = []) :
    Sound cur' s := by
  refine ⟨{ h.tables with frames := ?_ }, h.delivering⟩
  intro f hf
  rw [hst] at hf
  cases hf

theorem Tables.pop {f : Frame} {rest : List Frame} (h : Tables cur s) (hst : s.stack = f :: rest) :
    Tables cur { s with stack := rest } :=
  { h with frames := fun f' hf' => h.frames f' (hst ▸ List.mem_cons_of_mem f hf') }

theorem Tables.push {f : Frame} (h : Tables cur s) (hf : f.Sound cur) : Tables cur (s.push f) :=
  { h with
    frames := by
      intro f' hf'
      rcases List.mem_cons.mp hf' with rfl | hf'
      · exact hf
      · exact h.frames f' hf' }

theorem Tables.push_sound {f : Frame} (h : Tables cur s) (hclosed : AllClosed s.toBook s.stack)
    (hf : f.Sound cur) (hplain : f.Plain) : Sound cur (s.push f) :=
  ⟨h.push hf, .closed (hclosed.cons hplain)⟩

/-- Entries and sessions go, and frames of their closing come. -/
structure Erases (s s' : State) : Prop where
  pending : s'.pending.Sublist s.pending
  sessions : s'.sessions.Sublist s.sessions
  next : s'.nextForwardedId = s.nextForwardedId
  stack : ∃ pushed, s'.stack = pushed ++ s.stack ∧ ∀ f ∈ pushed, f.Closing

theorem Erases.refl (s : State) : Erases s s :=
  ⟨List.Sublist.refl _, List.Sublist.refl _, rfl, [], rfl, by simp⟩

theorem Erases.trans {t : State} (h : Erases s t) (h' : Erases t s') : Erases s s' where
  pending := h'.pending.trans h.pending
  sessions := h'.sessions.trans h.sessions
  next := h'.next.trans h.next
  stack := by
    obtain ⟨pushed, hpushed, hclosing⟩ := h.stack
    obtain ⟨pushed', hpushed', hclosing'⟩ := h'.stack
    refine ⟨pushed' ++ pushed, by rw [hpushed', hpushed, List.append_assoc], ?_⟩
    intro f hf
    rcases List.mem_append.mp hf with hf | hf
    · exact hclosing' f hf
    · exact hclosing f hf

theorem erases_push (s : State) (f : Frame) (hf : f.Closing) : Erases s (s.push f) :=
  ⟨List.Sublist.refl _, List.Sublist.refl _, rfl, [f], rfl, by simpa using hf⟩

theorem Erases.tables (h : Erases s s') (hs : Tables cur s) : Tables cur s' where
  ids := hs.ids.sublist (h.pending.map _)
  fresh p hp := by
    rw [h.next]
    exact hs.fresh p (h.pending.subset hp)
  few := h.pending.length_le.trans hs.few
  frames := by
    obtain ⟨pushed, hpushed, hclosing⟩ := h.stack
    intro f hf
    rw [hpushed] at hf
    rcases List.mem_append.mp hf with hf | hf
    · exact (hclosing f hf).sound
    · exact hs.frames f hf

theorem Erases.allClosed (h : Erases s s') (hs : AllClosed s.toBook s.stack) :
    AllClosed s'.toBook s'.stack := by
  obtain ⟨pushed, hpushed, hclosing⟩ := h.stack
  intro x i g id provider loop hmem
  rw [hpushed] at hmem
  rcases List.mem_append.mp hmem with hmem | hmem
  · cases hclosing _ hmem
  · exact findSession_none_of_sublist h.sessions (hs x i g id provider loop hmem)

/-- The erasure has closed the session of the innermost delivery. -/
theorem Erases.closes {x i g id provider : ℕ} {loop : Option ℕ} {rest : List Frame}
    (h : Erases s s') (hst : s.stack = .afterDelivery x i g id provider loop :: rest)
    (hs : AllClosed s.toBook rest) (hnone : s'.findSession x = none) :
    AllClosed s'.toBook s'.stack := by
  obtain ⟨pushed, hpushed, hclosing⟩ := h.stack
  intro x' i' g' id' provider' loop' hmem
  rw [hpushed, hst] at hmem
  rcases List.mem_append.mp hmem with hmem | hmem
  · cases hclosing _ hmem
  · rcases List.mem_cons.mp hmem with hmem | hmem
    · cases hmem
      exact hnone
    · exact findSession_none_of_sublist h.sessions (hs x' i' g' id' provider' loop' hmem)

theorem Erases.sound (h : Erases s s') (hs : Tables cur s) (hclosed : AllClosed s.toBook s.stack) :
    Sound cur s' :=
  ⟨h.tables hs, .closed (h.allClosed hclosed)⟩

/-! ## The operations that only erase -/

theorem failPending_erases (s : State) (index : ℕ) (code message : Bytes) (cause : Cause)
    (site : Site) : Erases s (failPending s index code message cause site) := by
  unfold failPending
  split
  · exact Erases.refl s
  · rename_i p _
    exact ⟨List.eraseIdx_sublist _ _, List.Sublist.refl _, rfl,
      [.send p.callerSession _ site], rfl, by simp [Frame.Closing]⟩

theorem closeSession_erases (s : State) (id : ℕ) (notify : Bool) :
    Erases s (closeSession s id notify) := by
  have hclosed : Erases s { s with
      sessions := s.sessions.filter fun other => other.id != id
      pending := s.pending.filter fun p => p.callerSession != id } :=
    ⟨List.filter_sublist, List.filter_sublist, rfl, [], rfl, by simp⟩
  unfold closeSession
  split
  · exact Erases.refl s
  · dsimp only
    split
    · exact hclosed
    · apply hclosed.trans
      split_ifs
      · exact (erases_push _ (.disconnected _ _) trivial).trans
          (erases_push _ (.unavailableLoop _ _ 0) trivial)
      · exact erases_push _ (.unavailableLoop _ _ 0) trivial

theorem closeSession_findSession (s : State) (id : ℕ) (notify : Bool) :
    (closeSession s id notify).findSession id = none := by
  unfold closeSession
  split
  · assumption
  · rw [findSession_eq_none]
    intro session hmem
    dsimp only at hmem
    split at hmem
    · simpa using (List.mem_filter.mp hmem).2
    · split_ifs at hmem <;> simpa using (List.mem_filter.mp hmem).2

theorem sendToSession_erases (s : State) (id : ℕ) (closes : Bool) :
    Erases s (sendToSession s id closes) := by
  unfold sendToSession
  split_ifs
  · exact closeSession_erases s id true
  · exact Erases.refl s

theorem providerReply_erases (s : State) (peer : Peer) (message : DecodedMessage) :
    Erases s (providerReply s peer message) := by
  unfold providerReply
  split
  · exact Erases.refl s
  · dsimp only
    split
    · exact Erases.refl s
    · rename_i p _
      split_ifs
      · exact ⟨List.eraseIdx_sublist _ _, List.Sublist.refl _, rfl,
          [.send p.callerSession _ .single], rfl, by simp [Frame.Closing]⟩
      · exact Erases.refl s

theorem unavailableTurn_erases (s : State) (component generation index : ℕ) :
    Erases s (unavailableTurn catalog s component generation index) := by
  unfold unavailableTurn
  split
  · exact Erases.refl s
  · split_ifs
    · exact (erases_push s (.unavailableLoop _ _ _) trivial).trans (failPending_erases _ _ _ _ _ _)
    · exact erases_push s (.unavailableLoop _ _ _) trivial

theorem closeTurn_erases (s : State) (component generation : ℕ) :
    closeTurn s component generation = s ∨
      Erases (s.push (.closeLoop component generation)) (closeTurn s component generation) := by
  unfold closeTurn
  split
  · exact .inl rfl
  · exact .inr (closeSession_erases _ _ _)

/-! ## Delivering -/

/-- What a step that marks no entry does to the tables. -/
structure Moves (cur : ℕ → ℕ → Prop) (s s' : State) : Prop where
  sound : Sound cur s'
  pending : s'.pending.Sublist s.pending

theorem Erases.moves (h : Erases s s') (hs : Tables cur s)
    (hclosed : AllClosed s.toBook s.stack) : Moves cur s s' :=
  ⟨h.sound hs hclosed, h.pending⟩

theorem resumeReady_book (s : State) (index generation : ℕ) (result : Bool) (loop : Option ℕ) :
    (resumeReady s index generation result loop).toBook = s.toBook := by
  cases loop <;> rfl

section Delivery

variable {generation : ℕ} {loop : Option ℕ}

theorem resumeReady_sound (index : ℕ) (result : Bool) (hs : Tables cur s)
    (hclosed : AllClosed s.toBook s.stack)
    (hloop : ∀ component, loop = some component → cur component generation) :
    Tables cur (resumeReady s index generation result loop) ∧
      AllClosed (resumeReady s index generation result loop).toBook
        (resumeReady s index generation result loop).stack := by
  cases loop with
  | none => exact ⟨hs, hclosed⟩
  | some component => exact ⟨hs.push (hloop component rfl), hclosed.cons trivial⟩

/-- A delivery that fails. -/
theorem failDelivery_moves (index : ℕ) (code message : Bytes) (cause : Cause)
    (hs : Tables cur s) (hclosed : AllClosed s.toBook s.stack)
    (hloop : ∀ component, loop = some component → cur component generation) :
    Moves cur s (failPending (resumeReady s index generation false loop) index code message cause
      (siteOf loop)) := by
  obtain ⟨htables, hresumed⟩ := resumeReady_sound index false hs hclosed hloop
  have hbook := resumeReady_book s index generation false loop
  have herases := failPending_erases (resumeReady s index generation false loop) index code message
    cause (siteOf loop)
  refine ⟨herases.sound htables hresumed, ?_⟩
  rw [← hbook]
  exact herases.pending

/-- The entry is not delivered; its provider is the one of the calling loop. -/
theorem deliver_moves (catalog : Catalog) (index generation : ℕ) (loop : Option ℕ)
    (hs : Tables cur s) (hclosed : AllClosed s.toBook s.stack)
    (hloop : ∀ component, loop = some component → cur component generation)
    (hentry : ∀ p, s.pending[index]? = some p → p.delivered = false ∧ cur p.provider generation ∧
      ∀ component, loop = some component → component = p.provider) :
    Moves cur s (deliver catalog s index generation loop) := by
  unfold deliver
  split
  · obtain ⟨htables, hresumed⟩ := resumeReady_sound index false hs hclosed hloop
    exact ⟨⟨htables, .closed hresumed⟩, by rw [resumeReady_book]⟩
  · rename_i p hp
    obtain ⟨hundelivered, hcur, hprovider⟩ := hentry p hp
    split_ifs
    · exact failDelivery_moves index _ _ _ hs hclosed hloop
    · split
      · exact failDelivery_moves index _ _ _ hs hclosed hloop
      · rename_i session _
        have hframe : Frame.Sound cur
            (.afterDelivery session.id index generation p.forwardedId p.provider loop) :=
          ⟨hcur, hprovider⟩
        have hsend : Frame.Sound cur (.send session.id (callPacket catalog p) (siteOf loop)) :=
          trivial
        exact ⟨⟨(hs.push hframe).push hsend, .sending ⟨p, hp, rfl, hundelivered⟩ hclosed⟩,
          List.Sublist.refl _⟩

theorem readyTurn_moves {component : ℕ} (index : ℕ) (hs : Tables cur s)
    (hclosed : AllClosed s.toBook s.stack) (hcur : cur component generation) :
    Moves cur s (readyTurn catalog s component generation index) := by
  unfold readyTurn
  split
  · exact (Erases.refl s).moves hs hclosed
  · rename_i p hp
    split_ifs with hdue
    · obtain ⟨hprovider, hundelivered⟩ := hdue
      apply deliver_moves catalog index _ _ hs hclosed
      · rintro c hc
        cases hc
        exact hcur
      · intro q hq
        cases hp.symm.trans hq
        refine ⟨by simpa using hundelivered, hprovider ▸ hcur, ?_⟩
        rintro c hc
        cases hc
        exact hprovider.symm
    · exact ⟨hs.push_sound hclosed hcur trivial, List.Sublist.refl _⟩

end Delivery

/-- No delivery has just returned with its session open. -/
def Uncounted (s : State) : Prop :=
  ∀ x i g id provider loop rest, s.stack = .afterDelivery x i g id provider loop :: rest →
    s.findSession x = none

/-- What a step does to `pending_`. -/
inductive Changed (cur : ℕ → ℕ → Prop) (s s' : State) : Prop
  /-- Entries are erased; a new one is not delivered. -/
  | plain (extra : List PendingCall) (pending : s'.pending.Sublist (s.pending ++ extra))
      (ids : ((s.pending ++ extra).map PendingCall.forwardedId).Nodup)
      (undelivered : ∀ p ∈ extra, p.delivered = false) (uncounted : Uncounted s)
  | delivered (x index generation id : ℕ) (loop : Option ℕ) (rest : List Frame) (p : PendingCall)
      (stack : s.stack = .afterDelivery x index generation id p.provider loop :: rest)
      (isOpen : (s.findSession x).isSome) (entry : s.pending[index]? = some p)
      (undelivered : p.delivered = false) (current : cur p.provider generation)
      (pending : s'.pending = (deliveredBook s.toBook index generation).pending)

theorem changed_of_sublist (hs : Tables cur s) (h : s'.pending.Sublist s.pending)
    (huncounted : Uncounted s) : Changed cur s s' :=
  .plain [] (by simpa using h) (by simpa using hs.ids) (by simp) huncounted

theorem uncounted_of_plain {f : Frame} {rest : List Frame} (hst : s.stack = f :: rest)
    (hf : f.Plain) : Uncounted s := by
  intro x i g id provider loop rest' hst'
  rw [hst] at hst'
  cases hst'
  cases hf

theorem uncounted_of_idle (hst : s.stack = []) : Uncounted s := by
  intro x i g id provider loop rest hst'
  rw [hst] at hst'
  cases hst'

theorem Tables.deliver (hs : Tables cur s) (index generation : ℕ) :
    Tables cur { s with pending := (deliveredBook s.toBook index generation).pending } where
  ids := (deliveredBook_ids s.toBook index generation).symm ▸ hs.ids
  fresh q hq := by
    obtain ⟨p, hp, hsame⟩ := mem_deliveredBook hq
    rw [← hsame.1]
    exact hs.fresh p hp
  few := by
    have hlen := congrArg List.length (deliveredBook_ids s.toBook index generation)
    rw [List.length_map, List.length_map] at hlen
    exact hlen.trans_le hs.few
  frames := hs.frames

theorem finishDelivery_sound {x i g id provider : ℕ} {loop : Option ℕ} {rest : List Frame}
    (hs : Sound cur s) (hst : s.stack = .afterDelivery x i g id provider loop :: rest) :
    Sound cur (finishDelivery catalog { s with stack := rest } x i g id provider loop) ∧
      Changed cur s (finishDelivery catalog { s with stack := rest } x i g id provider loop) := by
  have htables := hs.tables.pop hst
  have hframe : Frame.Sound cur (.afterDelivery x i g id provider loop) :=
    hs.tables.frames _ (hst ▸ List.mem_cons_self)
  obtain ⟨hcur, hprovider⟩ := hframe
  have hloop : ∀ component, loop = some component → cur component g := by
    intro component hcomponent
    rw [hprovider component hcomponent]
    exact hcur
  have hdelivering := hs.delivering
  rw [hst] at hdelivering
  have hclosed : AllClosed s.toBook rest := by
    cases hdelivering with
    | closed h => exact h.tail
    | waiting _ h => exact h
  unfold finishDelivery
  split_ifs with hopen
  · have hwaiting : Waiting s.toBook i provider := by
      cases hdelivering with
      | closed h =>
        have hnone := h x i g id provider loop List.mem_cons_self
        have hsome : (s.toBook.findSession x).isSome := hopen
        rw [hnone] at hsome
        cases hsome
      | waiting h _ => exact h
    obtain ⟨p, hp, rfl, hundelivered⟩ := hwaiting
    obtain ⟨hresumed, hresumedClosed⟩ := resumeReady_sound i true (htables.deliver i g)
      hclosed hloop
    refine ⟨⟨hresumed, .closed hresumedClosed⟩,
      .delivered x i g id loop rest p hst hopen hp hundelivered hcur ?_⟩
    rw [resumeReady_book]
    rfl
  · have hmoves := failDelivery_moves i (ascii "NO_PROVIDER_SOCKET") (catalog.componentId provider)
      (.delivery id) htables hclosed hloop
    refine ⟨hmoves.sound, changed_of_sublist hs.tables hmoves.pending ?_⟩
    intro x' i' g' id' provider' loop' rest' hst'
    rw [hst] at hst'
    cases hst'
    simpa using hopen

/-! ## Steps -/

/-- What the supervisor tells the router is true. -/
structure Told (cur : ℕ → ℕ → Prop) (e : Event) : Prop where
  call : ∀ session message source supervisor, e = .call session message source supervisor →
    ∀ component, supervisor.ready component = true → cur component (supervisor.generation component)
  ready : ∀ component generation, e = .supervise (.componentReady component generation) →
    cur component generation

/-- A call that `queue_provider_call` accepts. -/
theorem Tables.accept (hs : Tables cur s) {p : PendingCall}
    (hid : p.forwardedId = s.nextForwardedId) (hroom : s.pending.length < maxPendingCalls) :
    Tables cur { s with
      nextForwardedId := s.nextForwardedId + 1
      pending := s.pending ++ [p]
      accepted := s.accepted ++ [p] } where
  ids := by
    rw [List.map_append]
    refine List.nodup_append.mpr ⟨hs.ids, List.nodup_singleton _, ?_⟩
    intro x hx y hy
    obtain ⟨q, hq, rfl⟩ := List.mem_map.mp hx
    rw [List.map_singleton, List.mem_singleton] at hy
    have hlt := hs.fresh q hq
    omega
  fresh q hq := by
    rcases List.mem_append.mp hq with hq | hq
    · exact Nat.lt_succ_of_lt (hs.fresh q hq)
    · rw [List.mem_singleton.mp hq, hid]
      exact Nat.lt_succ_self _
  few := by
    rw [List.length_append, List.length_singleton]
    omega
  frames := hs.frames

theorem queueProviderCall_sound {supervisor : Supervisor} (hs : Tables cur s)
    (hst : s.stack = []) (htold : ∀ component, supervisor.ready component = true →
      cur component (supervisor.generation component))
    (session requestId : ℕ) (message : DecodedMessage) (source : Bytes) (provider : ℕ) :
    Sound cur (queueProviderCall catalog supervisor s session requestId message source provider) ∧
      Changed cur s
        (queueProviderCall catalog supervisor s session requestId message source provider) := by
  have hclosed (b : Book) : AllClosed b s.stack := by
    rw [hst]
    exact AllClosed.nil b
  have huncounted := uncounted_of_idle hst
  have hrefused (code text : Bytes) : Sound cur (replyError s session requestId code text) ∧
      Changed cur s (replyError s session requestId code text) :=
    ⟨hs.push_sound (hclosed _) trivial trivial,
      changed_of_sublist hs (List.Sublist.refl _) huncounted⟩
  unfold queueProviderCall
  dsimp only
  split_ifs with hexpired hbound hbusy hready
  · exact hrefused _ _
  · exact hrefused _ _
  · exact hrefused _ _
  all_goals
    rw [not_or, not_le] at hbusy
  · have haccepted := hs.accept
      (p := ⟨s.nextForwardedId, session, requestId, provider, 0,
        message.deadlineMs.getD (s.clock + 5000), source, message, false⟩) rfl hbusy.1
    have hmoves := deliver_moves catalog s.pending.length (supervisor.generation provider) none
      haccepted (hclosed _) (by simp) (by
        intro q hq
        rw [List.getElem?_concat_length] at hq
        cases hq
        exact ⟨rfl, htold provider hready, by simp⟩)
    exact ⟨hmoves.sound, .plain [_] hmoves.pending haccepted.ids (by simp) huncounted⟩
  · have haccepted := hs.accept
      (p := ⟨s.nextForwardedId, session, requestId, provider, 0,
        message.deadlineMs.getD (s.clock + 5000), source, message, false⟩) rfl hbusy.1
    exact ⟨haccepted.push_sound (hclosed _) trivial trivial,
      .plain [_] (List.Sublist.refl _) haccepted.ids (by simp) huncounted⟩

theorem routeCall_sound {supervisor : Supervisor} (hs : Tables cur s)
    (hst : s.stack = []) (htold : ∀ component, supervisor.ready component = true →
      cur component (supervisor.generation component))
    (session : ℕ) (message : DecodedMessage) (source : Bytes) :
    Sound cur (routeCall catalog supervisor s session message source) ∧
      Changed cur s (routeCall catalog supervisor s session message source) := by
  have hclosed : AllClosed s.toBook s.stack := by
    rw [hst]
    exact AllClosed.nil _
  have huncounted := uncounted_of_idle hst
  unfold routeCall
  split
  · exact ⟨(Erases.refl s).sound hs hclosed,
      changed_of_sublist hs (List.Sublist.refl _) huncounted⟩
  · split
    · exact ⟨hs.push_sound hclosed trivial trivial,
        changed_of_sublist hs (List.Sublist.refl _) huncounted⟩
    · exact ⟨hs.push_sound hclosed trivial trivial,
        changed_of_sublist hs (List.Sublist.refl _) huncounted⟩
    · exact queueProviderCall_sound hs hst htold _ _ _ _ _

theorem supervise_sound (op : SupervisorOp) (hs : Tables cur s)
    (hclosed : AllClosed s.toBook s.stack)
    (hready : ∀ component generation, op = .componentReady component generation →
      cur component generation) :
    Sound cur (supervise s op) ∧ (supervise s op).pending = s.pending := by
  cases op with
  | componentReady component generation =>
    exact ⟨hs.push_sound hclosed (hready component generation rfl) trivial, rfl⟩
  | componentUnavailable component generation =>
    exact ⟨hs.push_sound hclosed trivial trivial, rfl⟩
  | closeComponentSession component generation =>
    exact ⟨hs.push_sound hclosed trivial trivial, rfl⟩

theorem dispatch_sound (hs : Sound cur s) (hst : s.stack = []) (htold : Told cur e)
    (h : dispatch catalog s e = some s') : Sound cur s' ∧ Changed cur s s' := by
  have htables := hs.tables
  have hclosed (b : Book) : AllClosed b s.stack := by
    rw [hst]
    exact AllClosed.nil b
  have huncounted := uncounted_of_idle hst
  have hsame {t : State} (ht : Sound cur t) (hpending : t.pending = s.pending) :
      Sound cur t ∧ Changed cur s t :=
    ⟨ht, changed_of_sublist htables (hpending ▸ List.Sublist.refl _) huncounted⟩
  have herased {t : State} (ht : Erases s t) : Sound cur t ∧ Changed cur s t :=
    ⟨ht.sound htables (hclosed _), changed_of_sublist htables ht.pending huncounted⟩
  cases e with
  | tick ms =>
    cases h
    exact hsame ⟨{ htables with }, .closed (hclosed _)⟩ rfl
  | accept peer =>
    cases h
    exact hsame ⟨{ htables with }, .closed (hclosed _)⟩ rfl
  | handshake id =>
    cases h
    exact hsame ⟨{ htables with }, .closed (hclosed _)⟩ rfl
  | closed id =>
    cases h
    exact herased (closeSession_erases s id true)
  | call id message source supervisor =>
    simp only [dispatch] at h
    split at h
    · cases h
    · cases h
      exact routeCall_sound htables hst (htold.call id message source supervisor rfl) _ _ _
  | reply id message =>
    simp only [dispatch] at h
    split at h
    · cases h
    · cases h
      exact herased (providerReply_erases s _ message)
  | timer forwardedId =>
    simp only [dispatch] at h
    split_ifs at h
    cases h
    exact herased (failPending_erases _ _ _ _ _ _)
  | publish packet deliveries =>
    cases h
    exact hsame (htables.push_sound (hclosed _) trivial trivial) rfl
  | answer id packet =>
    cases h
    exact hsame (htables.push_sound (hclosed _) trivial trivial) rfl
  | supervise op =>
    cases h
    obtain ⟨hsound, hpending⟩ := supervise_sound op htables (hclosed _)
      fun component generation hop => htold.ready component generation (hop ▸ rfl)
    exact hsame hsound hpending
  | activated result | sent closes | hook fails | go => cases h

section Inversion

variable {rest : List Frame}

theorem step_closeLoop {c g : ℕ} (hst : s.stack = .closeLoop c g :: rest)
    (h : step catalog s e = some s') : s' = closeTurn { s with stack := rest } c g := by
  simp only [step, hst] at h
  cases e with
  | go => exact (Option.some.inj h).symm
  | _ => cases h

theorem step_disconnected {c g : ℕ} (hst : s.stack = .disconnected c g :: rest)
    (h : step catalog s e = some s') :
    s' = { s with stack := rest } ∨
      s' = State.push { s with stack := rest } (.unavailableLoop c g 0) := by
  simp only [step, hst] at h
  cases e with
  | hook fails =>
    cases fails with
    | false => exact .inl (Option.some.inj h).symm
    | true => exact .inr (Option.some.inj h).symm
  | _ => cases h

theorem step_broadcast {packet : Bytes} {deliveries : List ℕ}
    (hst : s.stack = .broadcast packet deliveries :: rest) (h : step catalog s e = some s') :
    s' = { s with stack := rest } ∨ ∃ id left,
      s' = { s with stack := .send id packet .single :: .broadcast packet left :: rest } := by
  cases deliveries with
  | nil =>
    simp only [step, hst] at h
    cases e with
    | go => exact .inl (Option.some.inj h).symm
    | _ => cases h
  | cons id deliveries =>
    simp only [step, hst] at h
    cases e with
    | go => exact .inr ⟨id, deliveries, (Option.some.inj h).symm⟩
    | _ => cases h

theorem step_activating {provider index id : ℕ}
    (hst : s.stack = .activating provider index id :: rest) (h : step catalog s e = some s') :
    (∃ op, e = .supervise op ∧ s' = supervise s op) ∨ s' = { s with stack := rest } ∨
      ∃ code text cause,
        s' = failPending { s with stack := rest } index code text cause .single := by
  simp only [step, hst] at h
  cases e with
  | supervise op => exact .inl ⟨op, rfl, (Option.some.inj h).symm⟩
  | activated result =>
    cases result with
    | true => exact .inr (.inl (Option.some.inj h).symm)
    | false => exact .inr (.inr ⟨_, _, _, (Option.some.inj h).symm⟩)
  | _ => cases h

/-- A send keeps its session or closes it. -/
theorem sent_sound {x : ℕ} {packet : Bytes} {site : Site} (hs : Sound cur s)
    (hst : s.stack = .send x packet site :: rest) (closes : Bool) :
    Sound cur (sendToSession { s with stack := rest } x closes) := by
  have htables := hs.tables.pop hst
  have hdelivering := hs.delivering
  rw [hst] at hdelivering
  cases closes with
  | false =>
    refine ⟨htables, ?_⟩
    cases hdelivering with
    | closed h => exact .closed h.tail
    | sending hwaiting h => exact .waiting hwaiting h
  | true =>
    have herases := closeSession_erases { s with stack := rest } x true
    cases hdelivering with
    | closed h => exact herases.sound htables h.tail
    | sending _ h =>
      exact ⟨herases.tables htables,
        .closed (herases.closes rfl h (closeSession_findSession _ x true))⟩

end Inversion

theorem step_sound (hs : Sound cur s) (htold : Told cur e) (h : step catalog s e = some s') :
    Sound cur s' ∧ Changed cur s s' := by
  generalize hst : s.stack = st
  cases st with
  | nil =>
    simp only [step, hst] at h
    exact dispatch_sound hs hst htold h
  | cons f rest =>
    have htables := hs.tables.pop hst
    have hframe : f.Sound cur := hs.tables.frames f (hst ▸ List.mem_cons_self)
    have hdelivering := hs.delivering
    rw [hst] at hdelivering
    have hsame {t : State} (huncounted : Uncounted s) (ht : Moves cur { s with stack := rest } t) :
        Sound cur t ∧ Changed cur s t :=
      ⟨ht.sound, changed_of_sublist hs.tables ht.pending huncounted⟩
    cases f with
    | send x packet site =>
      obtain ⟨closes, -, rfl⟩ := step_send hst h
      exact ⟨sent_sound hs hst closes, changed_of_sublist hs.tables
        (sendToSession_erases _ x closes).pending (uncounted_of_plain hst trivial)⟩
    | afterDelivery x i g id provider loop =>
      rw [step_afterDelivery hst h]
      exact finishDelivery_sound hs hst
    | readyLoop c g i =>
      have hclosed := hdelivering.allClosed (by simp) trivial
      rw [step_ready hst h]
      exact hsame (uncounted_of_plain hst trivial) (readyTurn_moves i htables hclosed hframe)
    | unavailableLoop c g i =>
      have hclosed := hdelivering.allClosed (by simp) trivial
      rw [step_unavailable hst h]
      exact hsame (uncounted_of_plain hst trivial)
        ((unavailableTurn_erases _ c g i).moves htables hclosed)
    | closeLoop c g =>
      have hclosed := hdelivering.allClosed (by simp) trivial
      rw [step_closeLoop hst h]
      rcases closeTurn_erases { s with stack := rest } c g with hdone | herases
      · rw [hdone]
        exact hsame (uncounted_of_plain hst trivial) ((Erases.refl _).moves htables hclosed)
      · exact hsame (uncounted_of_plain hst trivial)
          ⟨herases.sound (htables.push trivial) (hclosed.cons trivial), herases.pending⟩
    | disconnected c g =>
      have hclosed := hdelivering.allClosed (by simp) trivial
      rcases step_disconnected hst h with rfl | rfl
      · exact hsame (uncounted_of_plain hst trivial) ((Erases.refl _).moves htables hclosed)
      · exact hsame (uncounted_of_plain hst trivial)
          ((erases_push _ (.unavailableLoop c g 0) trivial).moves htables hclosed)
    | broadcast packet deliveries =>
      have hclosed := hdelivering.allClosed (by simp) trivial
      rcases step_broadcast hst h with rfl | ⟨id, deliveries, rfl⟩
      · exact hsame (uncounted_of_plain hst trivial) ((Erases.refl _).moves htables hclosed)
      · have hloop : Frame.Sound cur (.broadcast packet deliveries) := trivial
        have hsend : Frame.Sound cur (.send id packet .single) := trivial
        exact hsame (uncounted_of_plain hst trivial)
          ⟨(htables.push hloop).push_sound (hclosed.cons trivial) hsend trivial,
            List.Sublist.refl _⟩
    | activating provider index id =>
      have hclosed := hdelivering.allClosed (by simp) trivial
      rcases step_activating hst h with ⟨op, rfl, rfl⟩ | rfl | ⟨code, text, cause, rfl⟩
      · obtain ⟨hsound, hpending⟩ := supervise_sound op hs.tables
          (hst ▸ hclosed.cons trivial) fun c g hop => htold.ready c g (hop ▸ rfl)
        exact ⟨hsound, changed_of_sublist hs.tables (hpending ▸ List.Sublist.refl _)
          (uncounted_of_plain hst trivial)⟩
      · exact hsame (uncounted_of_plain hst trivial) ((Erases.refl _).moves htables hclosed)
      · exact hsame (uncounted_of_plain hst trivial)
          ((failPending_erases _ index code text cause .single).moves htables hclosed)

end MsysCore.Native.Router
