import MsysCore.Native.SupervisorRuns

/-!
# Starts that the native supervisor misses

A component that waits is looked at by `start_eligible` only. A dependency that becomes
ready, or is due again, leads there; one that is stopped without a process or whose
process ends for good does not.
-/

namespace MsysCore.Native.Supervisor

open Runs

variable {plan : RuntimePlan} {env : Environment} {s s' : Supervisor} {index : ℕ}

/-- The components of `after` other than `index` do not block. -/
def dependenciesReadyBut (plan : RuntimePlan) (s : Supervisor) (index w : ℕ) : Bool :=
  (componentPlan plan w).after.all fun dependency =>
    match componentIndex plan dependency with
    | none => false
    | some i => i = index || !(s.runtime i).state.blocks

/-- A component waits that only `index` may hold back. -/
def HoldsBack (plan : RuntimePlan) (s : Supervisor) (index : ℕ) : Prop :=
  ∃ w < plan.components.length, w ≠ index ∧ (s.runtime w).state = .waiting ∧
    dependenciesReadyBut plan s index w = true

/-- The step does not make a component that holds another one back stop for good. -/
def KeepsHolding (plan : RuntimePlan) (s : Supervisor) (label : Label) : Prop :=
  s.shuttingDown = false →
    match label.event with
    | .stop component => ∀ index, componentIndex plan component = some index →
        (s.runtime index).pid = none → ¬ HoldsBack plan s index
    | .childExit index generation pid failed =>
      (s.runtime index).generation = generation → (s.runtime index).pid = some pid →
        endsForGood (componentPlan plan index) (s.runtime index) failed = true →
        ¬ HoldsBack plan (exitState plan label.env s index) index
    | _ => True

/-! ## Eligible components -/

theorem blocks_of_waiting {state : RuntimeState} (h : state = .waiting) : state.blocks = true := by
  rw [h]
  rfl

theorem dependenciesReady_iff {w : ℕ} : dependenciesReady plan s w = true ↔
    ∀ dependency ∈ (componentPlan plan w).after,
      ∃ i, componentIndex plan dependency = some i ∧ (s.runtime i).state.blocks = false := by
  rw [dependenciesReady, List.all_eq_true]
  apply forall₂_congr
  intro dependency _
  cases componentIndex plan dependency with
  | none => simp
  | some i => simp

theorem dependenciesReadyBut_iff {w : ℕ} : dependenciesReadyBut plan s index w = true ↔
    ∀ dependency ∈ (componentPlan plan w).after,
      ∃ i, componentIndex plan dependency = some i ∧
        (i = index ∨ (s.runtime i).state.blocks = false) := by
  rw [dependenciesReadyBut, List.all_eq_true]
  apply forall₂_congr
  intro dependency _
  cases componentIndex plan dependency with
  | none => simp
  | some i => simp

theorem eligible_iff {w : ℕ} : eligible plan s w = true ↔
    (s.runtime w).state = .waiting ∧ dependenciesReady plan s w = true := by
  rw [eligible, Bool.and_eq_true, decide_eq_true_eq]

/-- Components that neither begin to wait nor stop to block make nothing eligible. -/
theorem settled_of_blocks
    (hwaiting : ∀ i, (s'.runtime i).state = .waiting → (s.runtime i).state = .waiting)
    (hblocks : ∀ i, (s.runtime i).state.blocks = true → (s'.runtime i).state.blocks = true)
    (hdown : s.shuttingDown = true → s'.shuttingDown = true) (h : Settled plan s) :
    Settled plan s' := by
  rcases h with h | h
  · exact Or.inl (hdown h)
  · apply Or.inr
    intro w hw
    have hidle := h w hw
    rw [Bool.eq_false_iff, ne_eq, eligible_iff] at hidle ⊢
    rintro ⟨hwait, hready⟩
    apply hidle
    refine ⟨hwaiting w hwait, ?_⟩
    rw [dependenciesReady_iff] at hready ⊢
    intro dependency hmem
    obtain ⟨i, hi, hfree⟩ := hready dependency hmem
    refine ⟨i, hi, ?_⟩
    rw [Bool.eq_false_iff] at hfree ⊢
    exact fun hblock => hfree (hblocks i hblock)

theorem settled_of_states (hstate : ∀ i, (s'.runtime i).state = (s.runtime i).state)
    (hdown : s'.shuttingDown = s.shuttingDown) (h : Settled plan s) : Settled plan s' := by
  apply settled_of_blocks _ _ _ h
  · intro i
    rw [hstate]
    exact id
  · intro i
    rw [hstate]
    exact id
  · rw [hdown]
    exact id

theorem Touches.settled (htouches : Touches s s') (h : Settled plan s) : Settled plan s' := by
  apply settled_of_blocks _ _ _ h
  · intro i
    exact ((htouches.touch i).change {}).waiting
  · intro i
    exact (htouches.touch i).blocks
  · intro hdown
    exact htouches.shuttingDown.trans hdown

/-- When one component stops to block, the ones that wait for it alone are left. -/
theorem settled_iff_of_freed (hother : ∀ i ≠ index, (s'.runtime i).state = (s.runtime i).state)
    (hfree : (s'.runtime index).state.blocks = false) (hdown : s'.shuttingDown = false) :
    Settled plan s' ↔ ¬ HoldsBack plan s index := by
  have hready (w : ℕ) :
      dependenciesReady plan s' w = true ↔ dependenciesReadyBut plan s index w = true := by
    rw [dependenciesReady_iff, dependenciesReadyBut_iff]
    apply forall₂_congr
    intro dependency _
    apply exists_congr
    intro i
    apply and_congr_right
    intro _
    by_cases hi : i = index
    · simp [hi, hfree]
    · simp [hi, hother i hi]
  constructor
  · rintro (h | h)
    · rw [hdown] at h
      cases h
    · rintro ⟨w, hw, hne, hwait, hbut⟩
      have hidle := h w hw
      rw [Bool.eq_false_iff, ne_eq, eligible_iff, hother w hne, hready] at hidle
      exact hidle ⟨hwait, hbut⟩
  · intro h
    apply Or.inr
    intro w hw
    rw [Bool.eq_false_iff, ne_eq, eligible_iff]
    rintro ⟨hwait, hall⟩
    have hne : w ≠ index := by
      rintro rfl
      rw [blocks_of_waiting hwait] at hfree
      cases hfree
    rw [hother w hne] at hwait
    exact h ⟨w, hw, hne, hwait, (hready w).mp hall⟩

/-- A component that does not block holds nothing back. -/
theorem not_holdsBack_of_free (h : Settled plan s) (hdown : s.shuttingDown = false)
    (hfree : (s.runtime index).state.blocks = false) : ¬ HoldsBack plan s index :=
  (settled_iff_of_freed (fun _ _ => rfl) hfree hdown).mp h

/-! ## One handler -/

theorem brokerStartComponent_settled (component : Bytes) (h : Settled plan s) :
    Settled plan (brokerStartComponent plan env s component).1 := by
  unfold brokerStartComponent
  cases componentIndex plan component with
  | none => exact h
  | some index =>
    simp only
    by_cases hdown : s.shuttingDown
    · rw [if_pos hdown]
      exact h
    · rw [if_neg hdown]
      have hrecord : Settled plan (recordStart s index) :=
        settled_of_states (fun _ => rfl) rfl h
      have harm {t : Supervisor} (ht : Settled plan t) :
          Settled plan (if (componentPlan plan index).launchable ∧ (t.runtime index).state = .ready
            then armIdleTimeout plan t index else t) := by
        split_ifs
        · exact (armIdleTimeout_touches t index).settled ht
        · exact ht
      apply harm
      split_ifs
      · exact startEligible_settled _
      · exact startEligible_settled _
      · exact hrecord

theorem routerActivateComponent_settled (h : Settled plan s) :
    Settled plan (routerActivateComponent plan env s index).1 := by
  have hcommanded : Settled plan (commanded s index .activation) :=
    settled_of_states (fun _ => rfl) rfl h
  unfold routerActivateComponent
  split_ifs
  · exact h
  · cases (s.runtime index).state with
    | ready => exact hcommanded
    | starting => exact hcommanded
    | waiting => exact hcommanded
    | backoff => exact hcommanded
    | stopping => exact h
    | stopped => exact startEligible_settled _
    | failed => exact startEligible_settled _

theorem markReady_settled {generation : ℕ} (h : Settled plan s) :
    Settled plan (markReady plan env (startEligible plan env) s index generation) := by
  unfold markReady
  simp only
  split_ifs
  · exact h
  · exact startEligible_settled _

theorem readinessEvent_settled {generation : ℕ} {ready : Bool} (h : Settled plan s) :
    Settled plan (readinessEvent plan env s index generation ready) := by
  unfold readinessEvent
  simp only
  split_ifs
  · exact h
  · exact markReady_settled h
  · exact (failRunningComponent_touches s index).settled h

theorem brokerComponentReady_settled {component : Bytes} {generation : ℕ} (h : Settled plan s) :
    Settled plan (brokerComponentReady plan env s component generation) := by
  unfold brokerComponentReady
  cases componentIndex plan component with
  | none => exact h
  | some index =>
    simp only
    split_ifs
    · exact h
    · exact markReady_settled h

theorem brokerComponentDisconnected_settled {component : Bytes} {generation : ℕ}
    (h : Settled plan s) :
    Settled plan (brokerComponentDisconnected plan env s component generation) := by
  unfold brokerComponentDisconnected
  cases componentIndex plan component with
  | none => exact h
  | some index =>
    simp only
    split_ifs
    · exact (failRunningComponent_touches s index).settled h
    · exact h

theorem restartTimerEvent_settled {generation : ℕ} (h : Settled plan s) :
    Settled plan (restartTimerEvent plan env s index generation) := by
  unfold restartTimerEvent
  simp only
  split_ifs
  · exact h
  · exact startEligible_settled _

theorem beginShutdown_settled (code : ℕ) : Settled plan (beginShutdown plan env s code) :=
  Or.inl (beginShutdown_shuttingDown s code)

/-- A stop of a component without a process frees the ones that wait for it. -/
theorem stopIndex_settled_iff (h : Settled plan s) :
    Settled plan (stopIndex plan env s index) ↔
      (s.shuttingDown = false → (s.runtime index).pid = none → ¬ HoldsBack plan s index) := by
  rw [stopIndex_eq]
  by_cases hpid : (s.runtime index).pid.isNone
  · rw [if_pos hpid]
    simp only [Option.isNone_iff_eq_none.mp hpid, forall_const]
    cases hdown : s.shuttingDown with
    | true => exact ⟨fun _ hfalse => (Bool.false_ne_true hfalse.symm).elim, fun _ => Or.inl hdown⟩
    | false =>
      simp only [forall_const]
      apply settled_iff_of_freed
      · intro i hi
        rw [update_ne hi, stopRequested_state]
      · rw [update_self]
        rfl
      · exact hdown
  · rw [if_neg hpid]
    rw [Option.isNone_iff_eq_none] at hpid
    simp only [hpid, false_implies, implies_true, iff_true]
    have hrequested : Settled plan (stopRequested s index) :=
      settled_of_states (fun _ => stopRequested_state) rfl h
    split_ifs
    · exact hrequested
    · apply (applyEffects_touches plan _ _).settled
      apply settled_of_blocks _ _ _ hrequested
      · intro i hwait
        by_cases hi : i = index
        · rw [hi, update_self] at hwait
          cases hwait
        · rw [update_ne hi] at hwait
          exact hwait
      · intro i hblocks
        by_cases hi : i = index
        · rw [hi, update_self]
          rfl
        · rw [update_ne hi]
          exact hblocks
      · exact id

theorem idleTimerEvent_settled {generation : ℕ} (h : Settled plan s) :
    Settled plan (idleTimerEvent plan env s index generation) := by
  unfold idleTimerEvent
  simp only
  have hcleared : Settled plan (s.update index fun r => { r with idleTimer := none }) := by
    apply Touches.settled _ h
    apply touches_update
    exact ⟨rfl, rfl, rfl, rfl, rfl, rfl, rfl, Or.inl rfl⟩
  split_ifs with hdue
  · rw [stopIndex_settled_iff hcleared]
    intro hdown _
    apply not_holdsBack_of_free hcleared hdown
    rw [hdue.2.1]
    rfl
  · exact hcleared

/-- After an exit only the state of the component itself can make a difference. -/
theorem exit_settled_iff_of_free (hother : ∀ i ≠ index,
      (s'.runtime i).state = ((exited plan env s index).runtime i).state)
    (hfree : (s'.runtime index).state.blocks = false) (hdown : s'.shuttingDown = false) :
    Settled plan s' ↔ ¬ HoldsBack plan (exitState plan env s index) index := by
  apply settled_iff_of_freed _ hfree hdown
  intro i hi
  rw [hother i hi, exited_other hi]

theorem exit_settled_of_blocks (h : Settled plan s)
    (hother : ∀ i ≠ index, (s'.runtime i).state = ((exited plan env s index).runtime i).state)
    (hstate : (s'.runtime index).state = .backoff)
    (hdown : s'.shuttingDown = s.shuttingDown) : Settled plan s' := by
  have htouches := exitState_touches plan env s index
  apply settled_of_blocks _ _ _ (htouches.settled h)
  · intro i hwait
    by_cases hi : i = index
    · rw [hi, hstate] at hwait
      cases hwait
    · rw [hother i hi, exited_other hi] at hwait
      exact hwait
  · intro i hblocks
    by_cases hi : i = index
    · rw [hi, hstate]
      rfl
    · rw [hother i hi, exited_other hi]
      exact hblocks
  · rw [htouches.shuttingDown, hdown]
    exact id

/-- An exit that ends for good frees the components that wait for this one. -/
theorem onChildExit_settled_iff {generation pid : ℕ} {failed : Bool} (h : Settled plan s)
    (hgeneration : (s.runtime index).generation = generation)
    (hpid : (s.runtime index).pid = some pid) (hdown : s.shuttingDown = false) :
    Settled plan (onChildExit plan env s index generation pid failed) ↔
      (endsForGood (componentPlan plan index) (s.runtime index) failed = true →
        ¬ HoldsBack plan (exitState plan env s index) index) := by
  have hrunning : (exited plan env s index).shuttingDown = false :=
    (exited_shuttingDown plan env s index).trans hdown
  have hother (f : ComponentRuntime → ComponentRuntime) (i : ℕ) (hi : i ≠ index) :
      (((exited plan env s index).update index f).runtime i).state
        = ((exited plan env s index).runtime i).state := by
    rw [update_ne hi]
  obtain ⟨hends, f, hexit, hrest⟩ | ⟨hends, hend | ⟨f, hexit, hbackoff⟩⟩ :=
    onChildExit_cases plan env failed hgeneration hpid hdown
  · rw [hexit, hends]
    simp only [forall_const]
    apply exit_settled_iff_of_free (hother f)
    · rw [update_self]
      rcases hrest with hrest | hrest <;> rw [hrest] <;> rfl
    · exact hrunning
  · rw [hends]
    simp only [Bool.false_eq_true, false_implies, iff_true]
    exact Or.inl hend
  · rw [hexit, hends]
    simp only [Bool.false_eq_true, false_implies, iff_true]
    apply exit_settled_of_blocks h (hother f)
    · rw [update_self]
      exact hbackoff
    · exact hrunning.trans hdown.symm

/-! ## Runs -/

/-- From a state in which no start is missed, a step misses one exactly when it makes a component
stop for good that holds another one back. -/
theorem step_settled_iff (label : Label) (h : Settled plan s) :
    (∀ s', step plan s label = some s' → Settled plan s') ↔ KeepsHolding plan s label := by
  obtain ⟨event, env⟩ := label
  unfold step handle KeepsHolding
  cases event with
  | start component => simpa using brokerStartComponent_settled component h
  | activate index => simpa using routerActivateComponent_settled h
  | readiness index generation ready => simpa using readinessEvent_settled h
  | channelReady component generation => simpa using brokerComponentReady_settled h
  | channelLost component generation => simpa using brokerComponentDisconnected_settled h
  | idleTimer index => simpa using fun _ _ => idleTimerEvent_settled h
  | restartTimer index => simpa using fun _ _ => restartTimerEvent_settled h
  | router effects => simpa using (applyEffects_touches plan s effects).settled h
  | shutdown code => simpa using beginShutdown_settled code
  | stop component =>
    simp only [Option.some.injEq, forall_eq']
    unfold brokerStopComponent
    cases componentIndex plan component with
    | none => simpa using h
    | some index =>
      simp only [Option.some.injEq, forall_eq']
      exact stopIndex_settled_iff h
  | childExit index generation pid failed =>
    simp only [Option.some.injEq, forall_eq']
    by_cases hdown : s.shuttingDown
    · simp only [hdown, Bool.true_eq_false, false_implies, iff_true]
      exact Or.inl (onChildExit_shuttingDown hdown)
    · rw [Bool.not_eq_true] at hdown
      simp only [hdown, forall_const]
      by_cases hmatched :
          (s.runtime index).generation = generation ∧ (s.runtime index).pid = some pid
      · rw [onChildExit_settled_iff h hmatched.1 hmatched.2 hdown]
        simp only [hmatched.1, hmatched.2, forall_const]
      · rw [onChildExit_unmatched hmatched]
        constructor
        · exact fun _ hgeneration hpid => absurd ⟨hgeneration, hpid⟩ hmatched
        · exact fun _ => h

/-- `client` starts after `server`, which has to report that it is ready. -/
def orderedPlan : RuntimePlan where
  components := [
    { id := ascii "server", readiness := .fd },
    { id := ascii "client", after := [ascii "server"] }]

end MsysCore.Native.Supervisor
