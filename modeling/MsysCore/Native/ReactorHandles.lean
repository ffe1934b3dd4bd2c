import MsysCore.Native.Reactor

/-!
# Removed handles

Ids are taken from a counter and no table holds one that was removed, so a callback found by
its id is one that was not removed. `drain_signals` calls the callbacks it copied before the
first of them ran: a watch that an earlier one of them removes is still called.
-/

namespace MsysCore.Native.Reactor

open History Runs

/-! ## What a fact needs -/

/-- Ids are new, and the callback of a handle is called only while it is not removed. -/
def SafeRemoval (log : List Fact) : Fact → Prop
  | .issued id => .issued id ∉ log
  | .invoked kind id => kind ≠ .child → .removed id ∉ log
  | _ => True

/-- The handles that can be removed, and the sources of the reactor itself. -/
def handles (s : State) : List ℕ := s.signalWatches.map SignalWatch.id ++ s.sources.map Source.id

/-- The copied callbacks that `drain_signals` has still to call. -/
def waiting (s : State) : List ℕ :=
  match s.phase with
  | .watchers _ _ callbacks => callbacks
  | _ => []

structure Handles (s : State) : Prop where
  distinct : (handles s).Nodup
  below : ∀ id ∈ handles s, id < s.nextId
  logged : ∀ id, .issued id ∈ s.log ∨ .removed id ∈ s.log → id < s.nextId
  alive : ∀ id ∈ handles s, .removed id ∉ s.log
  copied : ∀ id ∈ waiting s, .removed id ∉ s.log ∧ id < s.nextId ∧ id ∉ s.sources.map Source.id
  justified : Justified SafeRemoval s.log

variable {s t : State}

theorem handles_initial (automatic : Bool) : Handles (initial automatic) where
  distinct := by simp [handles, initial]
  below := by simp [handles, initial]
  logged := by simp [initial]
  alive := by simp [initial]
  copied := by
    intro id h
    cases h
  justified := (justified_nil.append (by simp [SafeRemoval])).append (by simp [SafeRemoval])

/-! ## Steps that add no handle -/

/-- Facts that no rule about handles reads. -/
def Fact.Neutral : Fact → Prop
  | .issued _ | .removed _ => False
  | .invoked kind _ => kind = .child
  | _ => True

/-- The step only takes sources away. -/
structure Shrinks (s t : State) : Prop where
  signalWatches : t.signalWatches = s.signalWatches
  sources : t.sources.Sublist s.sources
  nextId : t.nextId = s.nextId
  phase : t.phase = s.phase
  log : ∃ facts, t.log = s.log ++ facts ∧ ∀ fact ∈ facts, fact.Neutral

theorem Shrinks.refl (s : State) : Shrinks s s :=
  ⟨rfl, List.Sublist.refl _, rfl, rfl, [], (List.append_nil _).symm, by simp⟩

theorem Shrinks.trans {u : State} (h : Shrinks s t) (h' : Shrinks t u) : Shrinks s u := by
  obtain ⟨facts, hlog, hneutral⟩ := h.log
  obtain ⟨facts', hlog', hneutral'⟩ := h'.log
  refine ⟨h'.signalWatches.trans h.signalWatches, h'.sources.trans h.sources,
    h'.nextId.trans h.nextId, h'.phase.trans h.phase, facts ++ facts', ?_, ?_⟩
  · rw [hlog', hlog, List.append_assoc]
  · intro fact hfact
    rcases List.mem_append.mp hfact with hold | hnew
    · exact hneutral fact hold
    · exact hneutral' fact hnew

theorem Justified.append_neutral {facts : List Fact} {log : List Fact}
    (h : Justified SafeRemoval log) (hneutral : ∀ fact ∈ facts, fact.Neutral) :
    Justified SafeRemoval (log ++ facts) := by
  induction facts generalizing log with
  | nil => simpa using h
  | cons fact facts ih =>
    obtain ⟨hfact, hrest⟩ := List.forall_mem_cons.mp hneutral
    have hallowed : SafeRemoval log fact := by
      cases fact with
      | invoked kind id => exact fun hkind => absurd hfact hkind
      | issued id => exact hfact.elim
      | _ => trivial
    have := ih (h.append hallowed) hrest
    rwa [List.append_assoc] at this

theorem mem_append_neutral {log facts : List Fact} {fact : Fact} (hfact : ¬ fact.Neutral)
    (hneutral : ∀ fact ∈ facts, fact.Neutral) : fact ∈ log ++ facts ↔ fact ∈ log := by
  constructor
  · intro hmem
    rcases List.mem_append.mp hmem with hold | hnew
    · exact hold
    · exact absurd (hneutral fact hnew) hfact
  · exact fun hmem => List.mem_append_left _ hmem

theorem Handles.shrink (h : Handles s) (hshrink : Shrinks s t) : Handles t := by
  obtain ⟨facts, hlog, hneutral⟩ := hshrink.log
  have hsub : (handles t).Sublist (handles s) := by
    rw [handles, handles, hshrink.signalWatches]
    exact List.Sublist.append (List.Sublist.refl _) (hshrink.sources.map _)
  have hremoved : ∀ id, .removed id ∈ t.log ↔ .removed id ∈ s.log := by
    intro id
    rw [hlog, mem_append_neutral (by simp [Fact.Neutral]) hneutral]
  have hissued : ∀ id, .issued id ∈ t.log ↔ .issued id ∈ s.log := by
    intro id
    rw [hlog, mem_append_neutral (by simp [Fact.Neutral]) hneutral]
  exact
    { distinct := h.distinct.sublist hsub
      below := fun id hid => by
        rw [hshrink.nextId]
        exact h.below id (hsub.subset hid)
      logged := fun id hid => by
        rw [hshrink.nextId]
        rw [hremoved, hissued] at hid
        exact h.logged id hid
      alive := fun id hid => by
        rw [hremoved]
        exact h.alive id (hsub.subset hid)
      copied := fun id hid => by
        rw [waiting, hshrink.phase] at hid
        obtain ⟨hold, hbelow, hsource⟩ := h.copied id hid
        rw [hremoved, hshrink.nextId]
        exact ⟨hold, hbelow, fun hmem => hsource ((hshrink.sources.map _).subset hmem)⟩
      justified := by
        rw [hlog]
        exact Justified.append_neutral h.justified hneutral }

theorem shrinks_removeSource (s : State) (id : ℕ) : Shrinks s (removeSource s id) :=
  ⟨rfl, List.eraseP_sublist, rfl, rfl, [], (List.append_nil _).symm, by simp⟩

/-- A change outside the tables of handles. -/
theorem shrinks_of_eq (hwatches : t.signalWatches = s.signalWatches) (hsources : t.sources = s.sources)
    (hnext : t.nextId = s.nextId) (hphase : t.phase = s.phase) (facts : List Fact)
    (hlog : t.log = s.log ++ facts) (hneutral : ∀ fact ∈ facts, fact.Neutral) : Shrinks s t :=
  ⟨hwatches, hsources ▸ List.Sublist.refl _, hnext, hphase, facts, hlog, hneutral⟩

theorem shrinks_record (s : State) {fact : Fact} (hneutral : fact.Neutral) :
    Shrinks s (s.record fact) :=
  shrinks_of_eq rfl rfl rfl rfl [fact] rfl (by simpa using hneutral)

theorem shrinks_dropChild (s : State) (child : ChildWatch) : Shrinks s (dropChild s child) := by
  have hchildren : Shrinks s
      { s with children := s.children.filter fun other => other.id ≠ child.id } :=
    shrinks_of_eq rfl rfl rfl rfl [] (List.append_nil _).symm (by simp)
  unfold dropChild
  cases child.sourceId with
  | none => exact hchildren
  | some sourceId => exact hchildren.trans (shrinks_removeSource _ sourceId)

theorem shrinks_completeChild (s : State) (id : ℕ) (result : ChildExit) :
    Shrinks s (completeChild s id result) := by
  unfold completeChild
  cases findChild s id with
  | none => exact Shrinks.refl s
  | some child =>
    exact (shrinks_dropChild s child).trans
      (shrinks_of_eq rfl rfl rfl rfl [.queued id] rfl (by simp [Fact.Neutral]))

theorem shrinks_reportChild (s : State) (child : ChildWatch) (result : ChildExit) :
    Shrinks s (reportChild s child result) :=
  (shrinks_record s (show Fact.Neutral (.reported child.id) from trivial)).trans
    (shrinks_completeChild _ child.id result)

theorem shrinks_reapByPid (s : State) (child : ChildWatch) (answer : WaitAnswer) :
    Shrinks s (reapByPid s child answer).2 := by
  cases answer with
  | gone code status => exact shrinks_reportChild s child _
  | noChild => exact shrinks_reportChild s child _
  | _ => exact Shrinks.refl s

theorem shrinks_tryReapChild (s : State) (id : ℕ) (waits : ChildWaits) :
    Shrinks s (tryReapChild s id waits).2 := by
  unfold tryReapChild
  cases findChild s id with
  | none => exact Shrinks.refl s
  | some child =>
    dsimp only
    split_ifs
    · cases waits.pidfd with
      | gone code status => exact shrinks_reportChild s child _
      | noChild => exact shrinks_reportChild s child _
      | unsupported =>
        have hflag : Shrinks s { s with pidfdWaitidUnavailable := true } :=
          shrinks_of_eq rfl rfl rfl rfl [] (List.append_nil _).symm (by simp)
        exact hflag.trans (shrinks_reapByPid _ child waits.pid)
      | _ => exact Shrinks.refl s
    · exact shrinks_reapByPid s child waits.pid

theorem shrinks_reapChildren (waits : ℕ → ChildWaits) (ids : List ℕ) : ∀ s : State,
    Shrinks s (reapChildren waits ids s).2 := by
  induction ids with
  | nil => exact Shrinks.refl
  | cons id ids ih =>
    intro s
    have hfirst := shrinks_tryReapChild s id (waits id)
    rw [reapChildren]
    split
    · rename_i reaped heq
      rw [heq] at hfirst
      exact hfirst
    · rename_i reaped heq
      rw [heq] at hfirst
      exact hfirst.trans (ih reaped)

theorem shrinks_abandonChild (s : State) (id : ℕ) : Shrinks s (abandonChild s id) := by
  unfold abandonChild
  cases findChild s id with
  | none => exact Shrinks.refl s
  | some child => exact shrinks_dropChild s child

theorem shrinks_unwatchChild (s : State) (handle pid : ℕ) :
    Shrinks s (unwatchChild s handle pid) := by
  unfold unwatchChild
  cases findChild s handle with
  | none => exact Shrinks.refl s
  | some child =>
    dsimp only
    split_ifs
    · exact Shrinks.refl s
    · exact (shrinks_dropChild s child).trans (shrinks_record _ trivial)

/-! ## New handles -/

theorem Handles.nextId (h : Handles s) {id : ℕ} (hnext : nextId s = some (id, t)) :
    Handles t ∧ id ∉ handles t ∧ id < t.nextId ∧ .removed id ∉ t.log ∧ id ∉ waiting t := by
  unfold Reactor.nextId at hnext
  split_ifs at hnext
  cases hnext
  have hfresh : s.nextId ∉ handles s := fun hmem => Nat.lt_irrefl _ (h.below _ hmem)
  have hremoved : ∀ id, .removed id ∈ s.log ++ [.issued s.nextId] ↔ .removed id ∈ s.log := by
    simp
  refine ⟨?_, hfresh, Nat.lt_succ_self _, ?_, ?_⟩
  · exact
      { distinct := h.distinct
        below := fun id hid => Nat.lt_succ_of_lt (h.below id hid)
        logged := by
          intro id hid
          simp only [List.mem_append, List.mem_singleton, Fact.issued.injEq, reduceCtorEq,
            or_false] at hid
          rcases hid with (hold | rfl) | hold
          · exact Nat.lt_succ_of_lt (h.logged id (.inl hold))
          · exact Nat.lt_succ_self _
          · exact Nat.lt_succ_of_lt (h.logged id (.inr hold))
        alive := fun id hid => by
          rw [hremoved]
          exact h.alive id hid
        copied := fun id hid => by
          obtain ⟨hold, hbelow, hsource⟩ := h.copied id hid
          rw [hremoved]
          exact ⟨hold, Nat.lt_succ_of_lt hbelow, hsource⟩
        justified := by
          refine h.justified.append ?_
          intro hmem
          exact Nat.lt_irrefl _ (h.logged _ (.inl hmem)) }
  · rw [hremoved]
    intro hmem
    exact Nat.lt_irrefl _ (h.logged _ (.inr hmem))
  · intro hmem
    exact Nat.lt_irrefl _ (h.copied _ hmem).2.1

theorem Handles.addSource (h : Handles s) (fd : ℕ) (publicRemovable : Bool) (target : Target)
    (controlFails : Bool) : Handles (addSource s fd publicRemovable target controlFails).2 := by
  unfold Reactor.addSource
  cases hnext : Reactor.nextId s with
  | none => exact h
  | some issued =>
    obtain ⟨id, t⟩ := issued
    obtain ⟨ht, hfresh, hbelow, hremoved, hwaiting⟩ := h.nextId hnext
    dsimp only
    split_ifs
    · exact ht
    · have hnodup : (handles t ++ [id]).Nodup := by
        refine List.nodup_append.mpr ⟨ht.distinct, List.nodup_singleton id, ?_⟩
        intro a ha b hb heq
        rw [List.mem_singleton.mp hb] at heq
        exact hfresh (heq ▸ ha)
      have hhandles : handles { t with sources := t.sources ++ [⟨id, fd, publicRemovable, target⟩] }
          = handles t ++ [id] := by
        simp [handles, List.append_assoc]
      exact
        { distinct := hhandles ▸ hnodup
          below := fun other hother => by
            rw [hhandles] at hother
            rcases List.mem_append.mp hother with hold | hnew
            · exact ht.below other hold
            · rw [List.mem_singleton.mp hnew]
              exact hbelow
          logged := ht.logged
          alive := fun other hother => by
            rw [hhandles] at hother
            rcases List.mem_append.mp hother with hold | hnew
            · exact ht.alive other hold
            · rw [List.mem_singleton.mp hnew]
              exact hremoved
          copied := fun other hother => by
            obtain ⟨hold, hlow, hsource⟩ := ht.copied other hother
            refine ⟨hold, hlow, ?_⟩
            simp only [List.map_append, List.mem_append, not_or]
            refine ⟨hsource, ?_⟩
            intro heq
            have : other = id := by simpa using heq
            exact hwaiting (this ▸ hother)
          justified := ht.justified }

theorem Handles.watchSignal (h : Handles s) (signalNumber : ℕ) :
    Handles (watchSignal s signalNumber) := by
  unfold Reactor.watchSignal
  cases hnext : Reactor.nextId s with
  | none => exact h
  | some issued =>
    obtain ⟨id, t⟩ := issued
    obtain ⟨ht, hfresh, hbelow, hremoved, -⟩ := h.nextId hnext
    have hperm : (handles { t with signalWatches := t.signalWatches ++ [⟨id, signalNumber⟩] }).Perm
        (id :: handles t) := by
      simp only [handles, List.map_append, List.map_cons, List.map_nil, List.append_assoc]
      exact List.perm_middle
    have hcases : ∀ other ∈ handles
        { t with signalWatches := t.signalWatches ++ [⟨id, signalNumber⟩] },
        other = id ∨ other ∈ handles t :=
      fun other hother => List.mem_cons.mp (hperm.subset hother)
    exact
      { distinct := hperm.nodup_iff.mpr (List.nodup_cons.mpr ⟨hfresh, ht.distinct⟩)
        below := fun other hother => by
          rcases hcases other hother with rfl | hold
          · exact hbelow
          · exact ht.below other hold
        logged := ht.logged
        alive := fun other hother => by
          rcases hcases other hother with rfl | hold
          · exact hremoved
          · exact ht.alive other hold
        copied := ht.copied
        justified := ht.justified }

theorem Handles.watchPidfd (h : Handles s) (id : ℕ) (pidfd : Option ℕ) (controlFails : Bool) :
    Handles (watchPidfd s id pidfd controlFails).2 := by
  unfold Reactor.watchPidfd
  cases pidfd with
  | none => exact h
  | some fd =>
    have hadded := h.addSource fd false (.child id) controlFails
    dsimp only
    split
    · rename_i added heq
      rw [heq] at hadded
      exact hadded
    · rename_i sourceId added heq
      rw [heq] at hadded
      exact hadded.shrink (shrinks_of_eq rfl rfl rfl rfl [] (List.append_nil _).symm (by simp))

theorem Handles.watchChild (h : Handles s) (pid : ℕ) (answer : OpenAnswer) (controlFails : Bool)
    (waits : ChildWaits) : Handles (watchChild s pid answer controlFails waits) := by
  unfold Reactor.watchChild
  split_ifs
  · exact h
  cases openPidfd s answer with
  | none => exact h
  | some pidfd =>
    dsimp only
    cases hnext : Reactor.nextId s with
    | none => exact h
    | some issued =>
      obtain ⟨id, t⟩ := issued
      have ht := (h.nextId hnext).1
      dsimp only
      have hchild : Handles { t with children := t.children ++
          [⟨id, pid, pidfd, none, if pidfd.isSome = true then .pidfd else .sigchld⟩] } :=
        ht.shrink (shrinks_of_eq rfl rfl rfl rfl [] (List.append_nil _).symm (by simp))
      have hwatched := hchild.watchPidfd id pidfd controlFails
      split
      · rename_i added heq
        rw [heq] at hwatched
        exact hwatched.shrink (shrinks_abandonChild added id)
      · rename_i added heq
        rw [heq] at hwatched
        have hreaped := hwatched.shrink (shrinks_tryReapChild added id waits)
        split
        · rename_i reaped heq'
          rw [heq'] at hreaped
          exact hreaped.shrink (shrinks_abandonChild reaped id)
        · rename_i reaped heq'
          rw [heq'] at hreaped
          exact hreaped.shrink (shrinks_record reaped trivial)

/-! ## Removal -/

theorem not_mem_map_eraseP {α : Type} {f : α → ℕ} {items : List α} {id : ℕ}
    (h : (items.map f).Nodup) : id ∉ (items.eraseP fun item => f item = id).map f := by
  induction items with
  | nil => simp
  | cons item items ih =>
    obtain ⟨hnotin, hrest⟩ := List.nodup_cons.mp h
    by_cases heq : f item = id
    · rw [List.eraseP_cons_of_pos (by simpa using heq), ← heq]
      exact hnotin
    · simpa [heq, Ne.symm heq] using ih hrest

/-- A removal that keeps a part of the tables without the removed handle. -/
theorem Handles.removed (h : Handles s) {handle : ℕ} (hmem : handle ∈ handles s)
    (hwaiting : handle ∉ waiting s) (hsub : (handles t).Sublist (handles s))
    (hsources : t.sources.Sublist s.sources) (hgone : handle ∉ handles t)
    (hnext : t.nextId = s.nextId) (hphase : t.phase = s.phase)
    (hlog : t.log = s.log ++ [.removed handle]) : Handles t := by
  have hremoved : ∀ id, .removed id ∈ t.log ↔ .removed id ∈ s.log ∨ id = handle := by
    intro id
    rw [hlog]
    simp
  have hissued : ∀ id, .issued id ∈ t.log ↔ .issued id ∈ s.log := by
    intro id
    rw [hlog]
    simp
  exact
    { distinct := h.distinct.sublist hsub
      below := fun id hid => hnext ▸ h.below id (hsub.subset hid)
      logged := by
        intro id hid
        rw [hissued, hremoved] at hid
        rw [hnext]
        rcases hid with hold | hold | rfl
        · exact h.logged id (.inl hold)
        · exact h.logged id (.inr hold)
        · exact h.below id hmem
      alive := by
        intro id hid hlogged
        rcases (hremoved id).mp hlogged with hold | rfl
        · exact h.alive id (hsub.subset hid) hold
        · exact hgone hid
      copied := by
        intro id hid
        rw [waiting, hphase] at hid
        obtain ⟨hold, hbelow, hsource⟩ := h.copied id hid
        refine ⟨?_, hnext ▸ hbelow, fun hmem => hsource ((hsources.map _).subset hmem)⟩
        rw [hremoved]
        rintro (hlogged | rfl)
        · exact hold hlogged
        · exact hwaiting hid
      justified := by
        rw [hlog]
        exact h.justified.append trivial }

/-- A removal of a signal watch keeps the rule unless the watch is among the copied callbacks. -/
theorem Handles.remove (h : Handles s) (handle : ℕ)
    (hwaiting : handle ∈ s.signalWatches.map SignalWatch.id → handle ∉ waiting s) :
    Handles (remove s handle) := by
  obtain ⟨hwatches, hsources, hdisjoint⟩ := List.nodup_append.mp h.distinct
  unfold Reactor.remove
  split_ifs with hwatch
  · have hmem : handle ∈ s.signalWatches.map SignalWatch.id := by
      obtain ⟨watch, hin, hid⟩ := List.any_eq_true.mp hwatch
      exact List.mem_map.mpr ⟨watch, hin, by simpa using hid⟩
    refine h.removed (List.mem_append_left _ hmem) (hwaiting hmem) ?_ (List.Sublist.refl _) ?_ rfl
      rfl rfl
    · exact List.Sublist.append (List.eraseP_sublist.map _) (List.Sublist.refl _)
    · intro hin
      rcases List.mem_append.mp hin with hleft | hright
      · exact not_mem_map_eraseP hwatches hleft
      · exact hdisjoint handle hmem handle hright rfl
  · cases hfind : findSource s handle with
    | none => exact h
    | some source =>
      dsimp only
      split_ifs
      · have hid : source.id = handle := by simpa using List.find?_some hfind
        have hmem : handle ∈ s.sources.map Source.id :=
          List.mem_map.mpr ⟨source, List.mem_of_find?_eq_some hfind, hid⟩
        refine h.removed (List.mem_append_right _ hmem) ?_ ?_ List.eraseP_sublist ?_ rfl rfl rfl
        · exact fun hin => (h.copied handle hin).2.2 hmem
        · exact List.Sublist.append (List.Sublist.refl _) (List.eraseP_sublist.map _)
        · intro hin
          rcases List.mem_append.mp hin with hleft | hright
          · exact hdisjoint handle hleft handle hmem rfl
          · exact not_mem_map_eraseP hsources hright
      · exact h

/-! ## Steps -/

/-- No watch is removed that `drain_signals` has copied and not called yet. -/
def RemovesUncopied (s : State) : Label → Prop
  | .perform (.remove handle) =>
    handle ∈ s.signalWatches.map SignalWatch.id → handle ∉ waiting s
  | _ => True

instance (s : State) : DecidablePred (RemovesUncopied s)
  | .perform (.remove handle) =>
    inferInstanceAs
      (Decidable (handle ∈ s.signalWatches.map SignalWatch.id → handle ∉ waiting s))
  | .perform (.watchFd _ _) | .perform (.addTimer _ _) | .perform (.watchSignal _)
  | .perform (.watchChild _ _ _ _) | .perform (.unwatchChild _ _) | .perform .takeCallbackFailures
  | .perform .requestStop | .runOnce | .advance _ | .finish _ => isTrue trivial

theorem Handles.perform (h : Handles s) (operation : Operation)
    (hcond : RemovesUncopied s (.perform operation)) : Handles (perform s operation) := by
  cases operation with
  | watchFd fd controlFails =>
    simp only [Reactor.perform, Reactor.watchFd]
    split_ifs
    · exact h
    · exact h.addSource fd true .fd controlFails
  | addTimer fd controlFails => exact h.addSource fd true .timer controlFails
  | watchSignal signalNumber => exact h.watchSignal signalNumber
  | remove handle => exact h.remove handle hcond
  | watchChild pid answer controlFails waits => exact h.watchChild pid answer controlFails waits
  | unwatchChild handle pid => exact h.shrink (shrinks_unwatchChild s handle pid)
  | takeCallbackFailures =>
    exact h.shrink (shrinks_of_eq rfl rfl rfl rfl [_] rfl (by simp [Fact.Neutral]))
  | requestStop =>
    exact h.shrink (shrinks_of_eq rfl rfl rfl rfl [] (List.append_nil _).symm (by simp))

/-- A move of the loop to a place where fewer copied callbacks wait. -/
theorem Handles.move (h : Handles s) (hwatches : t.signalWatches = s.signalWatches)
    (hsources : t.sources = s.sources) (hnext : t.nextId = s.nextId) (hlog : t.log = s.log)
    (hwaiting : ∀ id ∈ waiting t, id ∈ waiting s ∨ id ∈ s.signalWatches.map SignalWatch.id) :
    Handles t := by
  have hhandles : handles t = handles s := by rw [handles, hwatches, hsources, handles]
  refine ⟨hhandles ▸ h.distinct, ?_, ?_, ?_, ?_, hlog ▸ h.justified⟩
  · rw [hhandles, hnext]
    exact h.below
  · rw [hlog, hnext]
    exact h.logged
  · rw [hhandles, hlog]
    exact h.alive
  · intro id hid
    rw [hlog, hnext, hsources]
    rcases hwaiting id hid with hold | hnew
    · exact h.copied id hold
    · have hmem : id ∈ handles s := List.mem_append_left _ hnew
      refine ⟨h.alive id hmem, h.below id hmem, fun hsource => ?_⟩
      exact (List.nodup_append.mp h.distinct).2.2 id hnew id hsource rfl

theorem Handles.goTo (h : Handles s) {phase : Phase}
    (hphase : ∀ rest records callbacks, phase ≠ .watchers rest records callbacks) :
    Handles (goTo s phase) := by
  refine h.move rfl rfl rfl rfl ?_
  intro id hid
  cases phase with
  | watchers rest records callbacks => exact absurd rfl (hphase rest records callbacks)
  | _ => cases hid

theorem Handles.invoke (h : Handles s) {kind : CallbackKind} {id : ℕ} {phase : Phase}
    (hid : kind ≠ .child → .removed id ∉ s.log)
    (hphase : ∀ other ∈ waiting (Reactor.goTo s phase), other ∈ waiting s) :
    Handles (invoke s kind id phase) := by
  have hmoved : Handles (Reactor.goTo s phase) :=
    h.move rfl rfl rfl rfl fun other hother => .inl (hphase other hother)
  have hissued : ∀ other, .issued other ∈ (Reactor.invoke s kind id phase).log ↔
      .issued other ∈ s.log := by simp [Reactor.invoke]
  have hremoved : ∀ other, .removed other ∈ (Reactor.invoke s kind id phase).log ↔
      .removed other ∈ s.log := by simp [Reactor.invoke]
  exact
    { distinct := hmoved.distinct
      below := hmoved.below
      logged := fun other hother => by
        rw [hissued, hremoved] at hother
        exact hmoved.logged other hother
      alive := fun other hother => by
        rw [hremoved]
        exact hmoved.alive other hother
      copied := fun other hother => by
        rw [hremoved]
        exact hmoved.copied other hother
      justified := hmoved.justified.append hid }

theorem Handles.dispatchEvent (h : Handles s) {source : Source} {id : ℕ}
    (hfind : findSource s id = some source) (rest : List ℕ) (answers : Answers) :
    Handles (dispatchEvent s source rest answers) := by
  have hsource : source.id ∈ handles s :=
    List.mem_append_right _ (List.mem_map_of_mem (List.mem_of_find?_eq_some hfind))
  have halive := h.alive _ hsource
  have hevents : ∀ other ∈ waiting (Reactor.goTo s (.events rest)), other ∈ waiting s := by
    intro other hother
    cases hother
  unfold Reactor.dispatchEvent
  cases source.target with
  | wake =>
    dsimp only
    split_ifs
    · exact h.goTo (by simp)
    · exact h.goTo (by simp)
  | signals => exact h.goTo (by simp)
  | fd => exact h.invoke (fun _ => halive) hevents
  | timer =>
    dsimp only
    cases answers.timer with
    | expired => exact h.invoke (fun _ => halive) hevents
    | again => exact h.goTo (by simp)
    | failed =>
      refine h.move rfl rfl rfl rfl ?_
      intro other hother
      cases hother
  | child id =>
    have hreaped := h.shrink (shrinks_tryReapChild s id (answers.waits id))
    dsimp only
    split
    · rename_i reaped heq
      rw [heq] at hreaped
      exact hreaped.goTo (by simp)
    · rename_i reaped heq
      rw [heq] at hreaped
      exact hreaped.goTo (by simp)

/-- The copies that `drain_signals` makes are of registered watches. -/
theorem Handles.copy (h : Handles s) (rest records : List ℕ) (record : ℕ) :
    Handles (Reactor.goTo s (.watchers rest records
      ((s.signalWatches.filter fun watch => watch.signalNumber = record).map SignalWatch.id))) := by
  refine h.move rfl rfl rfl rfl ?_
  intro id hid
  exact .inr ((List.filter_sublist.map _).subset hid)

theorem Handles.advance (h : Handles s) (answers : Answers) : Handles (advance s answers) := by
  unfold Reactor.advance
  split
  · exact h
  · rename_i first hphase
    split
    · have hdone := h.shrink (shrinks_record s (show Fact.Neutral .dispatched from trivial))
      dsimp only
      split_ifs
      · exact hdone.goTo (by simp)
      · exact hdone.goTo (by simp)
    · rename_i pending rest hpending
      have htaken : Handles { s with pendingChildren := rest } :=
        h.shrink (shrinks_of_eq rfl rfl rfl rfl [] (List.append_nil _).symm (by simp))
      exact htaken.invoke (fun hkind => absurd rfl hkind) fun other hother => hother
  · split
    · exact h.goTo (by simp)
    · exact h.goTo (by simp)
  · exact h.goTo (by simp)
  · split
    · exact h.goTo (by simp)
    · rename_i hfind
      exact h.dispatchEvent hfind _ answers
  · split
    · exact h.goTo (by simp)
    · exact h.goTo (by simp)
    · exact h.goTo (by simp)
    · exact h.goTo (by simp)
  · rename_i rest record records hphase
    split
    · rename_i reaped heq
      have hreaped : Handles reaped := by
        split_ifs at heq
        · have hshrink := shrinks_reapChildren answers.waits (sigchldIds s) s
          rw [heq] at hshrink
          exact h.shrink hshrink
        · cases heq
      exact hreaped.goTo (by simp)
    · rename_i reaped heq
      have hreaped : Handles reaped := by
        split_ifs at heq
        · have hshrink := shrinks_reapChildren answers.waits (sigchldIds s) s
          rw [heq] at hshrink
          exact h.shrink hshrink
        · cases heq
          exact h
      exact hreaped.copy rest records record
  · exact h.goTo (by simp)
  · rename_i rest records id ids hphase
    have hwaiting : waiting s = id :: ids := by rw [waiting, hphase]
    refine h.invoke ?_ ?_
    · intro _
      exact (h.copied id (hwaiting ▸ List.mem_cons_self)).1
    · intro other hother
      rw [hwaiting]
      exact List.mem_cons_of_mem id hother

theorem Handles.step (h : Handles s) {label : Label} (hcond : RemovesUncopied s label)
    (hstep : step s label = some t) : Handles t := by
  cases label with
  | perform operation =>
    simp only [Reactor.step] at hstep
    split_ifs at hstep
    cases hstep
    exact h.perform operation hcond
  | runOnce =>
    simp only [Reactor.step] at hstep
    split_ifs at hstep
    cases hstep
    refine h.move rfl rfl rfl rfl ?_
    intro id hid
    cases hid
  | advance answers =>
    simp only [Reactor.step] at hstep
    split_ifs at hstep
    cases hstep
    exact h.advance answers
  | finish threw =>
    simp only [Reactor.step] at hstep
    split at hstep
    · rename_i kind id hrunning
      cases hstep
      exact h.shrink (shrinks_of_eq rfl rfl rfl rfl [_] rfl (by simp [Fact.Neutral]))
    · cases hstep

/-- In every run that removes no copied watch before its call: ids are never reused, and no
callback of an fd, a timer or a signal is called once its handle was removed. -/
theorem run_safeRemoval (automatic : Bool) (labels : List Label) (s : State)
    (hrun : run step (initial automatic) labels = some s)
    (hcond : Along step RemovesUncopied (initial automatic) labels) :
    Justified SafeRemoval s.log :=
  (run_invariant (fun _ _ _ h hcond hstep => Handles.step h hcond hstep) labels
    (handles_initial automatic) hcond hrun).justified

/-- A timer whose callback removes it. -/
theorem run_safeRemoval_timer :
    let labels : List Label := [.perform (.addTimer 5 false), .runOnce, .advance {},
      .advance { ready := some [3] }, .advance {}, .perform (.remove 3), .finish false]
    ∃ s, run step (initial true) labels = some s ∧ .removed 3 ∈ s.log ∧
      Justified SafeRemoval s.log := by
  intro labels
  obtain ⟨s, hs⟩ : ∃ s, run step (initial true) labels = some s := ⟨_, rfl⟩
  have hcond : Along step RemovesUncopied (initial true) labels := by decide
  refine ⟨s, hs, ?_, run_safeRemoval true labels s hs hcond⟩
  cases hs
  decide

/-- Two watches of one signal: the callback of the first removes the second, which is called
for the same record. -/
theorem removed_watch_called :
    ∃ s, run step (initial true) [.perform (.watchSignal 15), .perform (.watchSignal 15), .runOnce,
        .advance {}, .advance { ready := some [2] }, .advance {},
        .advance { signals := .batch [15] }, .advance {}, .advance {}, .perform (.remove 4),
        .finish false, .advance {}] = some s ∧
      ¬ Justified SafeRemoval s.log := by
  refine ⟨_, rfl, fun h => ?_⟩
  have hcalled := h [.issued 1, .issued 2, .issued 3, .issued 4, .dispatched, .invoked .signal 3,
    .removed 4, .finished .signal 3 false] (.invoked .signal 4) [] rfl
  exact hcalled (by decide) (by decide)

end MsysCore.Native.Reactor
