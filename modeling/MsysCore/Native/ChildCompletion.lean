import MsysCore.Native.Reactor

/-!
# Completions of watched children

A child leaves the table of watched children in one of two ways: `unwatch_child`, or a
completion that is queued when `waitid` reports it. The queue is emptied by
`dispatch_pending_children` one callback after the other, whichever of them throw.
-/

namespace MsysCore.Native.Reactor

open History Runs

/-! ## What a fact needs -/

/-- Completions follow a report, at most one for a child and none once it was unwatched; the
callback is invoked at most once and only for a queued completion, and a dispatch that has
returned leaves none. -/
def OneCompletion (log : List Fact) : Fact → Prop
  | .queued id => .reported id ∈ log ∧ .queued id ∉ log ∧ .unwatched id ∉ log
  | .invoked .child id => .queued id ∈ log ∧ .invoked .child id ∉ log ∧ .unwatched id ∉ log
  | .unwatched id => .queued id ∉ log ∧ .unwatched id ∉ log
  | .dispatched => ∀ id, .reported id ∈ log → .invoked .child id ∈ log
  | _ => True

def ofChild : CallbackKind × ℕ → Option ℕ
  | (.child, id) => some id
  | _ => none

/-- The children whose callbacks were called, in this order. -/
def invokedChildren (log : List Fact) : List ℕ :=
  log.filterMap fun
    | .invoked kind id => ofChild (kind, id)
    | _ => none

def finishedChildren (log : List Fact) : List ℕ :=
  log.filterMap fun
    | .finished kind id _ => ofChild (kind, id)
    | _ => none

/-- Those of them that threw. -/
def thrownChildren (log : List Fact) : List ℕ :=
  log.filterMap fun
    | .finished kind id true => ofChild (kind, id)
    | _ => none

/-- The failures of children that `take_callback_failures` has returned. -/
def takenChildren (log : List Fact) : List ℕ :=
  log.flatMap fun
    | .taken failures => failures.filterMap ofChild
    | _ => []

def runningChild (s : State) : List ℕ := (s.running.bind ofChild).toList

structure Completions (s : State) : Prop where
  below : ∀ child ∈ s.children, child.id < s.nextId
  logged : ∀ id, .reported id ∈ s.log ∨ .queued id ∈ s.log ∨ .unwatched id ∈ s.log → id < s.nextId
  watching : ∀ child ∈ s.children, .reported child.id ∉ s.log ∧ .queued child.id ∉ s.log ∧
    .unwatched child.id ∉ s.log
  pending : ∀ id ∈ s.pendingChildren.map PendingChild.id, .queued id ∈ s.log ∧
    .invoked .child id ∉ s.log
  distinct : (s.pendingChildren.map PendingChild.id).Nodup
  reported : ∀ id, .reported id ∈ s.log → .queued id ∈ s.log
  settled : ∀ id, .queued id ∈ s.log → .unwatched id ∉ s.log ∧
    (.invoked .child id ∈ s.log ∨ id ∈ s.pendingChildren.map PendingChild.id)
  ended : invokedChildren s.log = finishedChildren s.log ++ runningChild s
  failures : takenChildren s.log ++ s.callbackFailures.filterMap ofChild = thrownChildren s.log
  justified : Justified OneCompletion s.log

variable {s t : State}

theorem completions_initial (automatic : Bool) : Completions (initial automatic) where
  below := by simp [initial]
  logged := by simp [initial]
  watching := by simp [initial]
  pending := by simp [initial]
  distinct := by simp [initial]
  reported := by simp [initial]
  settled := by simp [initial]
  ended := rfl
  failures := rfl
  justified := (justified_nil.append trivial).append trivial

/-! ## Steps that complete nothing -/

/-- Facts that are not about children. -/
def Fact.Apart : Fact → Prop
  | .issued _ | .removed _ | .watched _ _ => True
  | .invoked kind _ | .finished kind _ _ => kind ≠ .child
  | _ => False

/-- The step takes at most some children away. -/
structure Apart (s t : State) : Prop where
  children : ∀ child ∈ t.children, child.id ∈ s.children.map ChildWatch.id
  pending : t.pendingChildren = s.pendingChildren
  nextId : s.nextId ≤ t.nextId
  running : runningChild t = runningChild s
  failures : t.callbackFailures.filterMap ofChild = s.callbackFailures.filterMap ofChild
  log : ∃ facts, t.log = s.log ++ facts ∧ ∀ fact ∈ facts, fact.Apart

theorem Apart.trans {u : State} (h : Apart s t) (h' : Apart t u) : Apart s u := by
  obtain ⟨facts, hlog, hapart⟩ := h.log
  obtain ⟨facts', hlog', hapart'⟩ := h'.log
  refine ⟨?_, h'.pending.trans h.pending, h.nextId.trans h'.nextId, h'.running.trans h.running,
    h'.failures.trans h.failures, facts ++ facts', ?_, ?_⟩
  · intro child hchild
    obtain ⟨old, hold, hid⟩ := List.mem_map.mp (h'.children child hchild)
    exact hid ▸ h.children old hold
  · rw [hlog', hlog, List.append_assoc]
  · intro fact hfact
    rcases List.mem_append.mp hfact with hold | hnew
    · exact hapart fact hold
    · exact hapart' fact hnew

theorem apart_of_eq (hchildren : t.children = s.children)
    (hpending : t.pendingChildren = s.pendingChildren) (hnext : s.nextId ≤ t.nextId)
    (hrunning : runningChild t = runningChild s)
    (hfailures : t.callbackFailures.filterMap ofChild = s.callbackFailures.filterMap ofChild)
    (facts : List Fact) (hlog : t.log = s.log ++ facts) (hapart : ∀ fact ∈ facts, fact.Apart) :
    Apart s t :=
  ⟨fun _ hchild => List.mem_map_of_mem (hchildren ▸ hchild), hpending, hnext, hrunning, hfailures,
    facts, hlog, hapart⟩

theorem Apart.refl (s : State) : Apart s s :=
  apart_of_eq rfl rfl le_rfl rfl rfl [] (List.append_nil _).symm (by simp)

theorem mem_append_apart {log facts : List Fact} {fact : Fact} (hfact : ¬ fact.Apart)
    (hapart : ∀ fact ∈ facts, fact.Apart) : fact ∈ log ++ facts ↔ fact ∈ log := by
  constructor
  · intro hmem
    rcases List.mem_append.mp hmem with hold | hnew
    · exact hold
    · exact absurd (hapart fact hnew) hfact
  · exact fun hmem => List.mem_append_left _ hmem

theorem Justified.append_apart {facts log : List Fact} (h : Justified OneCompletion log)
    (hapart : ∀ fact ∈ facts, fact.Apart) : Justified OneCompletion (log ++ facts) := by
  induction facts generalizing log with
  | nil => simpa using h
  | cons fact facts ih =>
    obtain ⟨hfact, hrest⟩ := List.forall_mem_cons.mp hapart
    have hallowed : OneCompletion log fact := by
      cases fact with
      | invoked kind id =>
        cases kind with
        | child => exact absurd rfl hfact
        | _ => trivial
      | queued id => exact hfact.elim
      | unwatched id => exact hfact.elim
      | dispatched => exact hfact.elim
      | _ => trivial
    have := ih (h.append hallowed) hrest
    rwa [List.append_assoc] at this

theorem ofChild_eq_none {kind : CallbackKind} (h : kind ≠ .child) (id : ℕ) :
    ofChild (kind, id) = none := by
  cases kind with
  | child => exact absurd rfl h
  | _ => rfl

/-- Facts that are in none of the traces. -/
def Fact.Silent : Fact → Prop
  | .invoked kind _ | .finished kind _ _ => kind ≠ .child
  | .taken _ => False
  | _ => True

theorem Fact.Apart.silent {fact : Fact} (h : fact.Apart) : fact.Silent := by
  cases fact with
  | invoked kind id => exact h
  | finished kind id threw => exact h
  | taken failures => exact h.elim
  | _ => trivial

theorem traces_append_silent (log : List Fact) {facts : List Fact}
    (hsilent : ∀ fact ∈ facts, fact.Silent) :
    invokedChildren (log ++ facts) = invokedChildren log ∧
      finishedChildren (log ++ facts) = finishedChildren log ∧
      thrownChildren (log ++ facts) = thrownChildren log ∧
      takenChildren (log ++ facts) = takenChildren log := by
  have hinvoked : invokedChildren facts = [] := by
    refine List.filterMap_eq_nil_iff.mpr fun fact hfact => ?_
    have := hsilent fact hfact
    cases fact with
    | invoked kind id => exact ofChild_eq_none this id
    | _ => rfl
  have hfinished : finishedChildren facts = [] := by
    refine List.filterMap_eq_nil_iff.mpr fun fact hfact => ?_
    have := hsilent fact hfact
    cases fact with
    | finished kind id threw => exact ofChild_eq_none this id
    | _ => rfl
  have hthrown : thrownChildren facts = [] := by
    refine List.filterMap_eq_nil_iff.mpr fun fact hfact => ?_
    have := hsilent fact hfact
    cases fact with
    | finished kind id threw =>
      cases threw with
      | true => exact ofChild_eq_none this id
      | false => rfl
    | _ => rfl
  have htaken : takenChildren facts = [] := by
    refine List.flatMap_eq_nil_iff.mpr fun fact hfact => ?_
    have := hsilent fact hfact
    cases fact with
    | taken failures => exact this.elim
    | _ => rfl
  unfold invokedChildren finishedChildren thrownChildren takenChildren at *
  simp only [List.filterMap_append, List.flatMap_append, hinvoked, hfinished, hthrown, htaken,
    List.append_nil, and_self]

theorem Completions.apart (h : Completions s) (hstep : Apart s t) : Completions t := by
  obtain ⟨facts, hlog, hapart⟩ := hstep.log
  obtain ⟨hinvoked, hfinished, hthrown, htaken⟩ := traces_append_silent s.log fun fact hfact =>
    (hapart fact hfact).silent
  have hmem : ∀ fact : Fact, ¬ fact.Apart → (fact ∈ t.log ↔ fact ∈ s.log) := by
    intro fact hfact
    rw [hlog]
    exact mem_append_apart hfact hapart
  have hreported := fun id => hmem (.reported id) not_false
  have hqueued := fun id => hmem (.queued id) not_false
  have hunwatched := fun id => hmem (.unwatched id) not_false
  have hcalled := fun id => hmem (.invoked .child id) (by simp [Fact.Apart])
  refine ⟨?_, ?_, ?_, ?_, hstep.pending ▸ h.distinct, ?_, ?_, ?_, ?_, ?_⟩
  · intro child hchild
    obtain ⟨old, hold, hid⟩ := List.mem_map.mp (hstep.children child hchild)
    exact hid ▸ (h.below old hold).trans_le hstep.nextId
  · intro id hid
    rw [hreported, hqueued, hunwatched] at hid
    exact (h.logged id hid).trans_le hstep.nextId
  · intro child hchild
    obtain ⟨old, hold, hid⟩ := List.mem_map.mp (hstep.children child hchild)
    rw [hreported, hqueued, hunwatched, ← hid]
    exact h.watching old hold
  · intro id hid
    rw [hstep.pending] at hid
    rw [hqueued, hcalled]
    exact h.pending id hid
  · intro id hid
    rw [hreported] at hid
    rw [hqueued]
    exact h.reported id hid
  · intro id hid
    rw [hqueued] at hid
    rw [hunwatched, hcalled, hstep.pending]
    exact h.settled id hid
  · rw [hlog, hinvoked, hfinished, hstep.running]
    exact h.ended
  · rw [hlog, hthrown, htaken, hstep.failures]
    exact h.failures
  · rw [hlog]
    exact Justified.append_apart h.justified hapart

theorem apart_nextId {id : ℕ} (hnext : nextId s = some (id, t)) :
    Apart s t ∧ id = s.nextId ∧ t.nextId = s.nextId + 1 ∧ t.children = s.children := by
  unfold nextId at hnext
  split_ifs at hnext
  cases hnext
  exact ⟨apart_of_eq rfl rfl (Nat.le_succ _) rfl rfl [_] rfl (by simp [Fact.Apart]), rfl, rfl, rfl⟩

theorem apart_addSource (s : State) (fd : ℕ) (publicRemovable : Bool) (target : Target)
    (controlFails : Bool) : Apart s (addSource s fd publicRemovable target controlFails).2 := by
  unfold addSource
  cases hnext : nextId s with
  | none => exact Apart.refl s
  | some issued =>
    obtain ⟨id, t⟩ := issued
    have ht := (apart_nextId hnext).1
    dsimp only
    split_ifs
    · exact ht
    · exact ht.trans (apart_of_eq rfl rfl le_rfl rfl rfl [] (List.append_nil _).symm (by simp))

/-- A change outside of what completions read. -/
theorem apart_tables (sources : List Source) (watches : List SignalWatch) (unavailable stop : Bool)
    (count : ℕ) (phase : Phase) :
    Apart s { s with
      sources := sources
      signalWatches := watches
      pidfdWaitidUnavailable := unavailable
      stopRequested := stop
      callbackCount := count
      phase := phase } :=
  apart_of_eq rfl rfl le_rfl rfl rfl [] (List.append_nil _).symm (by simp)

theorem apart_dropChild (s : State) (child : ChildWatch) : Apart s (dropChild s child) := by
  have hchildren : Apart s
      { s with children := s.children.filter fun other => other.id ≠ child.id } :=
    ⟨fun other hother => List.mem_map_of_mem (List.mem_of_mem_filter hother), rfl, le_rfl, rfl,
      rfl, [], (List.append_nil _).symm, by simp⟩
  unfold dropChild
  cases child.sourceId with
  | none => exact hchildren
  | some sourceId => exact hchildren.trans (apart_tables _ _ _ _ _ _)

theorem apart_abandonChild (s : State) (id : ℕ) : Apart s (abandonChild s id) := by
  unfold abandonChild
  cases findChild s id with
  | none => exact Apart.refl s
  | some child => exact apart_dropChild s child

theorem apart_watchPidfd (s : State) (id : ℕ) (pidfd : Option ℕ) (controlFails : Bool) :
    Apart s (watchPidfd s id pidfd controlFails).2 := by
  unfold watchPidfd
  cases pidfd with
  | none => exact Apart.refl s
  | some fd =>
    have hadded := apart_addSource s fd false (.child id) controlFails
    dsimp only
    split
    · rename_i added heq
      rw [heq] at hadded
      exact hadded
    · rename_i sourceId added heq
      rw [heq] at hadded
      refine hadded.trans ⟨?_, rfl, le_rfl, rfl, rfl, [], (List.append_nil _).symm, by simp⟩
      intro child hchild
      obtain ⟨old, hold, rfl⟩ := List.mem_map.mp hchild
      refine List.mem_map.mpr ⟨old, hold, ?_⟩
      split_ifs <;> rfl

theorem apart_watchSignal (s : State) (signalNumber : ℕ) : Apart s (watchSignal s signalNumber) := by
  unfold watchSignal
  cases hnext : nextId s with
  | none => exact Apart.refl s
  | some issued => exact (apart_nextId hnext).1.trans (apart_tables _ _ _ _ _ _)

theorem apart_remove (s : State) (handle : ℕ) : Apart s (remove s handle) := by
  unfold remove
  split_ifs
  · exact apart_of_eq rfl rfl le_rfl rfl rfl [_] rfl (by simp [Fact.Apart])
  · cases findSource s handle with
    | none => exact Apart.refl s
    | some source =>
      dsimp only
      split_ifs
      · exact apart_of_eq rfl rfl le_rfl rfl rfl [_] rfl (by simp [Fact.Apart])
      · exact Apart.refl s

/-! ## Completions -/

theorem dropChild_fields (s : State) (child : ChildWatch) :
    (dropChild s child).log = s.log ∧
      (dropChild s child).pendingChildren = s.pendingChildren ∧
      (dropChild s child).nextId = s.nextId ∧ ∀ other ∈ (dropChild s child).children,
        other ∈ s.children ∧ other.id ≠ child.id := by
  have hfilter : ∀ other ∈ s.children.filter fun other => other.id ≠ child.id,
      other ∈ s.children ∧ other.id ≠ child.id := by
    intro other hother
    obtain ⟨hmem, hne⟩ := List.mem_filter.mp hother
    exact ⟨hmem, by simpa using hne⟩
  unfold dropChild
  cases child.sourceId with
  | none => exact ⟨rfl, rfl, rfl, hfilter⟩
  | some sourceId => exact ⟨rfl, rfl, rfl, hfilter⟩

theorem dropChild_traces (s : State) (child : ChildWatch) :
    runningChild (dropChild s child) = runningChild s ∧
      (dropChild s child).callbackFailures = s.callbackFailures := by
  unfold dropChild
  cases child.sourceId <;> exact ⟨rfl, rfl⟩

theorem dropChild_record (s : State) (child : ChildWatch) (fact : Fact) :
    dropChild (s.record fact) child = (dropChild s child).record fact := by
  unfold dropChild
  cases child.sourceId <;> rfl

theorem findChild_mem {id : ℕ} {child : ChildWatch} (h : findChild s id = some child) :
    child ∈ s.children ∧ child.id = id :=
  ⟨List.mem_of_find?_eq_some h, by simpa using List.find?_some h⟩

theorem Completions.report (h : Completions s) {child : ChildWatch} {id : ℕ}
    (hfind : findChild s id = some child) (result : ChildExit) :
    Completions (reportChild s child result) := by
  obtain ⟨hchild, rfl⟩ := findChild_mem hfind
  have hreport : reportChild s child result =
      { dropChild s child with
        pendingChildren := (dropChild s child).pendingChildren ++ [⟨child.id, result⟩]
        log := (dropChild s child).log ++ [.reported child.id, .queued child.id] } := by
    have hfind' : findChild (s.record (.reported child.id)) child.id = some child := hfind
    rw [reportChild, completeChild, hfind']
    dsimp only
    rw [dropChild_record]
    simp [State.record]
  rw [hreport]
  obtain ⟨hnotReported, hnotQueued, hnotUnwatched⟩ := h.watching child hchild
  obtain ⟨hlog, hpending, hnext, hchildren⟩ := dropChild_fields s child
  obtain ⟨hrunning, hfailures⟩ := dropChild_traces s child
  have hnotPending : child.id ∉ s.pendingChildren.map PendingChild.id :=
    fun hmem => hnotQueued (h.pending _ hmem).1
  have hids : (s.pendingChildren ++ [(⟨child.id, result⟩ : PendingChild)]).map PendingChild.id =
      s.pendingChildren.map PendingChild.id ++ [child.id] := by
    simp
  obtain ⟨hinvoked, hfinished, hthrown, htaken⟩ := traces_append_silent s.log
    (show ∀ fact ∈ [Fact.reported child.id, .queued child.id], fact.Silent by simp [Fact.Silent])
  rw [hlog, hpending]
  refine
    { below := ?_
      logged := ?_
      watching := ?_
      pending := ?_
      distinct := ?_
      reported := ?_
      settled := ?_
      ended := ?_
      failures := ?_
      justified := ?_ }
  · intro other hother
    exact hnext ▸ h.below other (hchildren other hother).1
  · intro id hid
    dsimp only at hid ⊢
    rw [hnext]
    simp only [List.mem_append, List.mem_cons, List.not_mem_nil, reduceCtorEq, or_false, false_or,
      Fact.reported.injEq, Fact.queued.injEq] at hid
    rcases hid with (hold | rfl) | (hold | rfl) | hold
    · exact h.logged id (.inl hold)
    · exact h.below child hchild
    · exact h.logged id (.inr (.inl hold))
    · exact h.below child hchild
    · exact h.logged id (.inr (.inr hold))
  · intro other hother
    obtain ⟨hmem, hne⟩ := hchildren other hother
    obtain ⟨hreported, hqueued, hunwatched⟩ := h.watching other hmem
    simp [hreported, hqueued, hunwatched, hne]
  · intro id hid
    dsimp only at hid ⊢
    rw [hids] at hid
    simp only [List.mem_append, List.mem_cons, List.not_mem_nil, reduceCtorEq, or_false, false_or,
      Fact.queued.injEq]
    rcases List.mem_append.mp hid with hold | hnew
    · exact ⟨.inl (h.pending id hold).1, (h.pending id hold).2⟩
    · rw [List.mem_singleton.mp hnew]
      refine ⟨.inr rfl, fun hcalled => ?_⟩
      obtain ⟨before, hbefore, hallowed⟩ := h.justified.exists_before hcalled
      exact hnotQueued (hbefore.subset hallowed.1)
  · dsimp only
    rw [hids]
    refine List.nodup_append.mpr ⟨h.distinct, List.nodup_singleton _, ?_⟩
    intro a ha b hb heq
    rw [List.mem_singleton.mp hb] at heq
    exact hnotPending (heq ▸ ha)
  · intro id hid
    dsimp only at hid ⊢
    simp only [List.mem_append, List.mem_cons, List.not_mem_nil, reduceCtorEq, or_false, false_or,
      Fact.reported.injEq, Fact.queued.injEq] at hid ⊢
    exact hid.imp_left (h.reported id)
  · intro id hid
    dsimp only at hid ⊢
    rw [hids]
    simp only [List.mem_append, List.mem_cons, List.not_mem_nil, reduceCtorEq, or_false, false_or,
      Fact.queued.injEq] at hid ⊢
    rcases hid with hold | rfl
    · obtain ⟨hunwatched, hwhere⟩ := h.settled id hold
      exact ⟨hunwatched, hwhere.imp_right .inl⟩
    · exact ⟨hnotUnwatched, .inr (.inr rfl)⟩
  · exact (hinvoked.trans h.ended).trans (congrArg₂ (· ++ ·) hfinished.symm hrunning.symm)
  · dsimp only
    rw [htaken, hthrown, hfailures]
    exact h.failures
  · have hreported : Justified OneCompletion (s.log ++ [.reported child.id]) :=
      h.justified.append trivial
    have hqueued := hreported.append (show OneCompletion (s.log ++ [.reported child.id])
      (.queued child.id) from ⟨by simp, by simp [hnotQueued], by simp [hnotUnwatched]⟩)
    simpa using hqueued

theorem Completions.reapByPid (h : Completions s) {child : ChildWatch} {id : ℕ}
    (hfind : findChild s id = some child) (answer : WaitAnswer) :
    Completions (reapByPid s child answer).2 := by
  cases answer with
  | gone code status => exact h.report hfind _
  | noChild => exact h.report hfind _
  | _ => exact h

theorem Completions.tryReapChild (h : Completions s) (id : ℕ) (waits : ChildWaits) :
    Completions (tryReapChild s id waits).2 := by
  unfold Reactor.tryReapChild
  cases hfind : findChild s id with
  | none => exact h
  | some child =>
    dsimp only
    split_ifs
    · cases waits.pidfd with
      | gone code status => exact h.report hfind _
      | noChild => exact h.report hfind _
      | unsupported =>
        have hflag : Completions { s with pidfdWaitidUnavailable := true } :=
          h.apart (apart_tables _ _ _ _ _ _)
        have hstill : findChild { s with pidfdWaitidUnavailable := true } id = some child := hfind
        exact hflag.reapByPid hstill waits.pid
      | _ => exact h
    · exact h.reapByPid hfind waits.pid

theorem Completions.reapChildren (waits : ℕ → ChildWaits) (ids : List ℕ) : ∀ {s : State},
    Completions s → Completions (reapChildren waits ids s).2 := by
  induction ids with
  | nil => exact fun h => h
  | cons id ids ih =>
    intro s h
    have hfirst := h.tryReapChild id (waits id)
    rw [Reactor.reapChildren]
    split
    · rename_i reaped heq
      rw [heq] at hfirst
      exact hfirst
    · rename_i reaped heq
      rw [heq] at hfirst
      exact ih hfirst

/-! ## Watching -/

theorem Completions.nextId (h : Completions s) {id : ℕ} (hnext : nextId s = some (id, t)) :
    Completions t ∧ id < t.nextId ∧ .reported id ∉ t.log ∧ .queued id ∉ t.log ∧
      .unwatched id ∉ t.log := by
  have ht := h.apart (apart_nextId hnext).1
  unfold Reactor.nextId at hnext
  split_ifs at hnext
  cases hnext
  refine ⟨ht, Nat.lt_succ_self _, ?_, ?_, ?_⟩
  · intro hmem
    have : .reported s.nextId ∈ s.log := by simpa using hmem
    exact Nat.lt_irrefl _ (h.logged _ (.inl this))
  · intro hmem
    have : .queued s.nextId ∈ s.log := by simpa using hmem
    exact Nat.lt_irrefl _ (h.logged _ (.inr (.inl this)))
  · intro hmem
    have : .unwatched s.nextId ∈ s.log := by simpa using hmem
    exact Nat.lt_irrefl _ (h.logged _ (.inr (.inr this)))

theorem Completions.addChild (h : Completions s) {child : ChildWatch} (hbelow : child.id < s.nextId)
    (hnew : .reported child.id ∉ s.log ∧ .queued child.id ∉ s.log ∧ .unwatched child.id ∉ s.log) :
    Completions { s with children := s.children ++ [child] } := by
  refine { h with below := ?_, watching := ?_ }
  · intro other hother
    rcases List.mem_append.mp hother with hmem | hmem
    · exact h.below other hmem
    · rw [List.mem_singleton.mp hmem]
      exact hbelow
  · intro other hother
    rcases List.mem_append.mp hother with hmem | hmem
    · exact h.watching other hmem
    · rw [List.mem_singleton.mp hmem]
      exact hnew

theorem Completions.watchChild (h : Completions s) (pid : ℕ) (answer : OpenAnswer)
    (controlFails : Bool) (waits : ChildWaits) :
    Completions (watchChild s pid answer controlFails waits) := by
  unfold Reactor.watchChild
  split_ifs
  · exact h
  cases openPidfd s answer with
  | none => exact h
  | some pidfd =>
    dsimp only
    cases hnext : Reactor.nextId s with
    | none => exact h
    | some issued =>
      obtain ⟨id, t⟩ := issued
      obtain ⟨ht, hbelow, hnew⟩ := h.nextId hnext
      dsimp only
      have hchild : Completions { t with children := t.children ++
          [⟨id, pid, pidfd, none, if pidfd.isSome = true then .pidfd else .sigchld⟩] } :=
        ht.addChild hbelow hnew
      have hwatched := hchild.apart (apart_watchPidfd _ id pidfd controlFails)
      split
      · rename_i added heq
        rw [heq] at hwatched
        exact hwatched.apart (apart_abandonChild added id)
      · rename_i added heq
        rw [heq] at hwatched
        have hreaped := hwatched.tryReapChild id waits
        split
        · rename_i reaped heq'
          rw [heq'] at hreaped
          exact hreaped.apart (apart_abandonChild reaped id)
        · rename_i reaped heq'
          rw [heq'] at hreaped
          exact hreaped.apart
            (apart_of_eq rfl rfl le_rfl rfl rfl [_] rfl (by simp [Fact.Apart]))

theorem Completions.unwatchChild (h : Completions s) (handle pid : ℕ) :
    Completions (unwatchChild s handle pid) := by
  unfold Reactor.unwatchChild
  cases hfind : findChild s handle with
  | none => exact h
  | some child =>
    obtain ⟨hchild, rfl⟩ := findChild_mem hfind
    dsimp only
    split_ifs
    · exact h
    obtain ⟨hnotReported, hnotQueued, hnotUnwatched⟩ := h.watching child hchild
    obtain ⟨hlog, -, -, hchildren⟩ := dropChild_fields s child
    have hdropped := h.apart (apart_dropChild s child)
    obtain ⟨hinvoked, hfinished, hthrown, htaken⟩ := traces_append_silent (dropChild s child).log
      (show ∀ fact ∈ [Fact.unwatched child.id], fact.Silent by simp [Fact.Silent])
    have hunwatched : ∀ id, .unwatched id ∈ (dropChild s child).log ++ [.unwatched child.id] ↔
        .unwatched id ∈ (dropChild s child).log ∨ id = child.id := by simp
    have hothers : ∀ fact : Fact, fact ≠ .unwatched child.id →
        (fact ∈ (dropChild s child).log ++ [.unwatched child.id] ↔
          fact ∈ (dropChild s child).log) := by
      intro fact hfact
      simp [hfact]
    refine
      { below := hdropped.below
        logged := ?_
        watching := ?_
        pending := ?_
        distinct := hdropped.distinct
        reported := ?_
        settled := ?_
        ended := ?_
        failures := ?_
        justified := ?_ }
    · intro id hid
      simp only [State.record, hothers _ (show Fact.reported id ≠ _ by simp),
        hothers _ (show Fact.queued id ≠ _ by simp), hunwatched] at hid
      rcases hid with hold | hold | hold | rfl
      · exact hdropped.logged id (.inl hold)
      · exact hdropped.logged id (.inr (.inl hold))
      · exact hdropped.logged id (.inr (.inr hold))
      · exact (h.below child hchild).trans_le (apart_dropChild s child).nextId
    · intro other hother
      obtain ⟨hreported, hqueued, hold⟩ := hdropped.watching other hother
      have hne := (hchildren other hother).2
      simp only [State.record, hothers _ (show Fact.reported other.id ≠ _ by simp),
        hothers _ (show Fact.queued other.id ≠ _ by simp), hunwatched, not_or]
      exact ⟨hreported, hqueued, hold, hne⟩
    · intro id hid
      simp only [State.record, hothers _ (show Fact.invoked .child id ≠ _ by simp),
        hothers _ (show Fact.queued id ≠ _ by simp)]
      exact hdropped.pending id hid
    · intro id hid
      simp only [State.record, hothers _ (show Fact.reported id ≠ _ by simp),
        hothers _ (show Fact.queued id ≠ _ by simp)] at hid ⊢
      exact hdropped.reported id hid
    · intro id hid
      simp only [State.record, hothers _ (show Fact.invoked .child id ≠ _ by simp),
        hothers _ (show Fact.queued id ≠ _ by simp), hunwatched, not_or] at hid ⊢
      obtain ⟨hold, hwhere⟩ := hdropped.settled id hid
      refine ⟨⟨hold, ?_⟩, hwhere⟩
      rintro rfl
      exact hnotQueued (hlog ▸ hid)
    · exact (hinvoked.trans hdropped.ended).trans (congrArg (· ++ _) hfinished.symm)
    · exact (congrArg (· ++ _) htaken).trans (hdropped.failures.trans hthrown.symm)
    · refine hdropped.justified.append ⟨?_, ?_⟩
      · rw [hlog]
        exact hnotQueued
      · rw [hlog]
        exact hnotUnwatched

/-! ## Traces -/

/-- A fact that changes the traces only. -/
def Fact.Traced : Fact → Prop
  | .reported _ | .queued _ | .unwatched _ => False
  | .invoked kind _ => kind ≠ .child
  | _ => True

theorem Completions.trace (h : Completions s) {fact : Fact} (hfact : fact.Traced)
    (hchildren : t.children = s.children) (hpending : t.pendingChildren = s.pendingChildren)
    (hnext : t.nextId = s.nextId) (hlog : t.log = s.log ++ [fact])
    (hended : invokedChildren t.log = finishedChildren t.log ++ runningChild t)
    (hfailures : takenChildren t.log ++ t.callbackFailures.filterMap ofChild = thrownChildren t.log)
    (hallowed : OneCompletion s.log fact) : Completions t := by
  have hmem : ∀ other : Fact, ¬ other.Traced → (other ∈ t.log ↔ other ∈ s.log) := by
    intro other hother
    have hne : other ≠ fact := fun heq => hother (heq ▸ hfact)
    rw [hlog]
    simp [hne]
  have hreported := fun id => hmem (.reported id) not_false
  have hqueued := fun id => hmem (.queued id) not_false
  have hunwatched := fun id => hmem (.unwatched id) not_false
  have hcalled := fun id => hmem (.invoked .child id) (by simp [Fact.Traced])
  refine ⟨?_, ?_, ?_, ?_, hpending ▸ h.distinct, ?_, ?_, hended, hfailures, ?_⟩
  · rw [hchildren, hnext]
    exact h.below
  · intro id hid
    rw [hreported, hqueued, hunwatched] at hid
    exact hnext ▸ h.logged id hid
  · intro child hchild
    rw [hreported, hqueued, hunwatched]
    exact h.watching child (hchildren ▸ hchild)
  · intro id hid
    rw [hpending] at hid
    rw [hqueued, hcalled]
    exact h.pending id hid
  · intro id hid
    rw [hreported] at hid
    rw [hqueued]
    exact h.reported id hid
  · intro id hid
    rw [hqueued] at hid
    rw [hunwatched, hcalled, hpending]
    exact h.settled id hid
  · rw [hlog]
    exact h.justified.append hallowed

theorem Completions.takeFailures (h : Completions s) :
    Completions (perform s .takeCallbackFailures) := by
  refine h.trace (show Fact.Traced (.taken s.callbackFailures) from trivial) rfl rfl rfl rfl ?_ ?_
    trivial
  · have hended := h.ended
    simp only [Reactor.perform, invokedChildren, finishedChildren, List.filterMap_append,
      List.filterMap_cons, List.filterMap_nil, List.append_nil] at hended ⊢
    exact hended
  · have hfailures := h.failures
    simp only [Reactor.perform, takenChildren, thrownChildren, List.filterMap_append,
      List.flatMap_append, List.flatMap_cons, List.flatMap_nil, List.filterMap_cons,
      List.filterMap_nil, List.append_nil] at hfailures ⊢
    exact hfailures

theorem Completions.finish (h : Completions s) {kind : CallbackKind} {id : ℕ}
    (hrunning : s.running = some (kind, id)) (threw : Bool) :
    Completions (finish s kind id threw) := by
  refine h.trace (show Fact.Traced (.finished kind id threw) from trivial) rfl rfl rfl rfl ?_ ?_
    trivial
  · have hended := h.ended
    simp only [runningChild, hrunning, Option.bind_some] at hended
    simp only [Reactor.finish, runningChild, Option.bind_none, Option.toList_none,
      List.append_nil, invokedChildren, finishedChildren, List.filterMap_append,
      List.filterMap_cons, List.filterMap_nil] at hended ⊢
    rw [hended]
    cases ofChild (kind, id) <;> rfl
  · have hfailures := h.failures
    cases threw with
    | false =>
      simp only [Reactor.finish, takenChildren, thrownChildren, List.filterMap_append,
        List.flatMap_append, List.flatMap_cons, List.flatMap_nil, List.filterMap_cons,
        List.filterMap_nil, List.append_nil, Bool.false_eq_true, if_false] at hfailures ⊢
      exact hfailures
    | true =>
      simp only [Reactor.finish, takenChildren, thrownChildren, List.filterMap_append,
        List.flatMap_append, List.flatMap_cons, List.flatMap_nil, List.filterMap_cons,
        List.filterMap_nil, List.append_nil, if_true] at hfailures ⊢
      rw [← hfailures, List.append_assoc]

theorem Completions.dispatched (h : Completions s) (hnone : s.pendingChildren = []) :
    Completions (s.record .dispatched) := by
  refine h.trace (show Fact.Traced .dispatched from trivial) rfl rfl rfl rfl ?_ ?_ ?_
  · have hended := h.ended
    simp only [State.record, runningChild, invokedChildren, finishedChildren,
      List.filterMap_append, List.filterMap_cons, List.filterMap_nil, List.append_nil] at hended ⊢
    exact hended
  · have hfailures := h.failures
    simp only [State.record, takenChildren, thrownChildren, List.filterMap_append,
      List.flatMap_append, List.flatMap_cons, List.flatMap_nil, List.filterMap_cons,
      List.filterMap_nil, List.append_nil] at hfailures ⊢
    exact hfailures
  · intro id hid
    rcases (h.settled id (h.reported id hid)).2 with hcalled | hpending
    · exact hcalled
    · simp [hnone] at hpending

theorem Completions.perform (h : Completions s) (operation : Operation) :
    Completions (perform s operation) := by
  cases operation with
  | watchFd fd controlFails =>
    simp only [Reactor.perform, Reactor.watchFd]
    split_ifs
    · exact h
    · exact h.apart (apart_addSource s fd true .fd controlFails)
  | addTimer fd controlFails => exact h.apart (apart_addSource s fd true .timer controlFails)
  | watchSignal signalNumber => exact h.apart (apart_watchSignal s signalNumber)
  | remove handle => exact h.apart (apart_remove s handle)
  | watchChild pid answer controlFails waits => exact h.watchChild pid answer controlFails waits
  | unwatchChild handle pid => exact h.unwatchChild handle pid
  | takeCallbackFailures => exact h.takeFailures
  | requestStop => exact h.apart (apart_tables _ _ _ _ _ _)

/-! ## The loop -/

theorem Completions.goTo (h : Completions s) (phase : Phase) : Completions (goTo s phase) :=
  h.apart (apart_tables _ _ _ _ _ _)

/-- A callback that is not of a child begins. -/
theorem Completions.invoke (h : Completions s) (hidle : s.running = none) {kind : CallbackKind}
    (hkind : kind ≠ .child) (id : ℕ) (phase : Phase) : Completions (invoke s kind id phase) := by
  refine h.apart (apart_of_eq rfl rfl le_rfl ?_ rfl [_] rfl (by simpa [Fact.Apart] using hkind))
  simp [runningChild, Reactor.invoke, hidle, ofChild_eq_none hkind]

/-- The first completion of the queue is dispatched. -/
theorem Completions.dispatch (h : Completions s) (hidle : s.running = none)
    {pending : PendingChild} {rest : List PendingChild}
    (hpending : s.pendingChildren = pending :: rest) (phase : Phase) :
    Completions (Reactor.invoke { s with pendingChildren := rest } .child pending.id phase) := by
  have hids : s.pendingChildren.map PendingChild.id = pending.id :: rest.map PendingChild.id := by
    rw [hpending, List.map_cons]
  obtain ⟨hqueued, hnotCalled⟩ := h.pending pending.id (hids ▸ List.mem_cons_self)
  obtain ⟨hnotin, hnodup⟩ := List.nodup_cons.mp (hids ▸ h.distinct)
  have hothers : ∀ fact : Fact, fact ≠ .invoked .child pending.id →
      (fact ∈ s.log ++ [.invoked .child pending.id] ↔ fact ∈ s.log) := by
    intro fact hfact
    simp [hfact]
  refine
    { below := h.below
      logged := ?_
      watching := ?_
      pending := ?_
      distinct := hnodup
      reported := ?_
      settled := ?_
      ended := ?_
      failures := ?_
      justified := h.justified.append ⟨hqueued, hnotCalled, (h.settled _ hqueued).1⟩ }
  · intro id hid
    simp only [Reactor.invoke, hothers _ (show Fact.reported id ≠ _ by simp),
      hothers _ (show Fact.queued id ≠ _ by simp),
      hothers _ (show Fact.unwatched id ≠ _ by simp)] at hid
    exact h.logged id hid
  · intro child hchild
    simp only [Reactor.invoke, hothers _ (show Fact.reported child.id ≠ _ by simp),
      hothers _ (show Fact.queued child.id ≠ _ by simp),
      hothers _ (show Fact.unwatched child.id ≠ _ by simp)]
    exact h.watching child hchild
  · intro id hid
    have hne : id ≠ pending.id := fun heq => hnotin (heq ▸ hid)
    simp only [Reactor.invoke, hothers _ (show Fact.queued id ≠ _ by simp),
      hothers _ (show Fact.invoked .child id ≠ _ by simpa using hne)]
    exact h.pending id (hids ▸ List.mem_cons_of_mem _ hid)
  · intro id hid
    simp only [Reactor.invoke, hothers _ (show Fact.reported id ≠ _ by simp),
      hothers _ (show Fact.queued id ≠ _ by simp)] at hid ⊢
    exact h.reported id hid
  · intro id hid
    simp only [Reactor.invoke, hothers _ (show Fact.queued id ≠ _ by simp),
      hothers _ (show Fact.unwatched id ≠ _ by simp)] at hid ⊢
    obtain ⟨hunwatched, hwhere⟩ := h.settled id hid
    refine ⟨hunwatched, ?_⟩
    rw [hids, List.mem_cons] at hwhere
    rcases hwhere with hcalled | rfl | hrest
    · exact .inl (List.mem_append_left _ hcalled)
    · exact .inl (List.mem_append_right _ List.mem_cons_self)
    · exact .inr hrest
  · have hended := h.ended
    simp only [runningChild, hidle, Option.bind_none, Option.toList_none, List.append_nil]
      at hended
    simp only [Reactor.invoke, runningChild, invokedChildren, finishedChildren,
      List.filterMap_append, List.filterMap_cons, List.filterMap_nil, List.append_nil]
      at hended ⊢
    rw [hended]
    rfl
  · have hfailures := h.failures
    simp only [Reactor.invoke, takenChildren, thrownChildren, List.filterMap_append,
      List.flatMap_append, List.flatMap_cons, List.flatMap_nil, List.filterMap_cons,
      List.filterMap_nil, List.append_nil] at hfailures ⊢
    exact hfailures

theorem Completions.dispatchEvent (h : Completions s) (hidle : s.running = none) (source : Source)
    (rest : List ℕ) (answers : Answers) : Completions (dispatchEvent s source rest answers) := by
  unfold Reactor.dispatchEvent
  cases source.target with
  | wake =>
    dsimp only
    split_ifs
    · exact h.goTo _
    · exact h.goTo _
  | signals => exact h.goTo _
  | fd => exact h.invoke hidle (by simp) _ _
  | timer =>
    dsimp only
    cases answers.timer with
    | expired => exact h.invoke hidle (by simp) _ _
    | again => exact h.goTo _
    | failed =>
      have hfailed : Apart s
          { s with
            callbackCount := s.callbackCount + 1
            callbackFailures := s.callbackFailures ++ [(.timer, source.id)] } :=
        apart_of_eq rfl rfl le_rfl rfl (by simp [ofChild]) [] (List.append_nil _).symm (by simp)
      exact (h.apart hfailed).goTo _
  | child id =>
    have hreaped := h.tryReapChild id (answers.waits id)
    dsimp only
    split
    · rename_i reaped heq
      rw [heq] at hreaped
      exact hreaped.goTo _
    · rename_i reaped heq
      rw [heq] at hreaped
      exact hreaped.goTo _

theorem Completions.advance (h : Completions s) (hidle : s.running = none) (answers : Answers) :
    Completions (advance s answers) := by
  unfold Reactor.advance
  split
  · exact h
  · split
    · rename_i hnone
      have hdone := h.dispatched hnone
      dsimp only
      split_ifs
      · exact hdone.goTo _
      · exact hdone.goTo _
    · rename_i hpending
      exact h.dispatch hidle hpending _
  · split
    · exact h.goTo _
    · exact h.goTo _
  · exact h.goTo _
  · split
    · exact h.goTo _
    · exact h.dispatchEvent hidle _ _ answers
  · split
    · exact h.goTo _
    · exact h.goTo _
    · exact h.goTo _
    · exact h.goTo _
  · have hreaped := h.reapChildren answers.waits (sigchldIds s)
    split
    · rename_i reaped heq
      split_ifs at heq
      · rw [heq] at hreaped
        exact hreaped.goTo _
      · cases heq
    · rename_i reaped heq
      split_ifs at heq
      · rw [heq] at hreaped
        exact hreaped.goTo _
      · cases heq
        exact h.goTo _
  · exact h.goTo _
  · exact h.invoke hidle (by simp) _ _

theorem Completions.step (h : Completions s) {label : Label} (hstep : step s label = some t) :
    Completions t := by
  cases label with
  | perform operation =>
    simp only [Reactor.step] at hstep
    split_ifs at hstep
    cases hstep
    exact h.perform operation
  | runOnce =>
    simp only [Reactor.step] at hstep
    split_ifs at hstep
    cases hstep
    exact h.apart (apart_tables _ _ _ _ _ _)
  | advance answers =>
    simp only [Reactor.step] at hstep
    split_ifs at hstep with hloop
    cases hstep
    exact h.advance (Option.isNone_iff_eq_none.mp hloop.1) answers
  | finish threw =>
    simp only [Reactor.step] at hstep
    split at hstep
    · rename_i kind id hrunning
      cases hstep
      exact h.finish hrunning threw
    · cases hstep

theorem run_completions {automatic : Bool} {labels : List Label}
    (hrun : run step (initial automatic) labels = some s) : Completions s :=
  run_invariant_all (fun _ _ _ h hstep => Completions.step h hstep) labels
    (completions_initial automatic) hrun

end MsysCore.Native.Reactor
