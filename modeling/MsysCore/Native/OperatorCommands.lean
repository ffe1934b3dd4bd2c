import MsysCore.Native.SupervisorRuns

/-!
# The last command of an operator

A component whose last command was a stop is never spawned again. A start that arrives
while a process is being stopped is accepted and then only remembered: the exit of the
process decides as if nobody had asked.
-/

namespace MsysCore.Native

open Runs

/-- The component runs or is going to. -/
def RuntimeState.isDue : RuntimeState → Bool
  | .waiting | .starting | .ready | .backoff => true
  | .stopping | .stopped | .failed => false

namespace Supervisor

variable {plan : RuntimePlan} {env : Environment} {s s' t : Supervisor} {index : ℕ}

/-- The exit of a process behind whose back a start was accepted leaves its component due, and no
component is spawned whose last command is a stop. -/
def CommandWins (plan : RuntimePlan) (s : Supervisor) (label : Label) : Prop :=
  ∀ s', step plan s label = some s' →
    (s'.shuttingDown = false → ∀ index generation pid failed,
      label.event = .childExit index generation pid failed →
      (s.runtime index).generation = generation → (s.runtime index).pid = some pid →
      s.startPending index = true → (s'.runtime index).state.isDue = true) ∧
    ∀ i, s'.command i = some .stop → (s'.runtime i).generation = (s.runtime i).generation

/-- No process ends for good behind whose back a start was accepted. -/
def HonoursPending (plan : RuntimePlan) (s : Supervisor) (label : Label) : Prop :=
  s.shuttingDown = false → ∀ index generation pid failed,
    label.event = .childExit index generation pid failed →
    (s.runtime index).generation = generation → (s.runtime index).pid = some pid →
    s.startPending index = true →
    endsForGood (componentPlan plan index) (s.runtime index) failed = false

/-! ## Components that were stopped -/

/-- A component whose last command was a stop is stopped, or will be when its process ends. -/
def StopsHold (s : Supervisor) : Prop := ∀ i, s.command i = some .stop → Parked (s.runtime i)

/-- After the step the components whose last command is a stop are parked, and none of them was
spawned in it. -/
def Rests (s s' : Supervisor) : Prop :=
  ∀ i, s'.command i = some .stop →
    Parked (s'.runtime i) ∧ (s'.runtime i).generation = (s.runtime i).generation

theorem Rests.stopsHold (h : Rests s s') : StopsHold s' := fun i hi => (h i hi).1

theorem StopsHold.rests (h : StopsHold s) : Rests s s := fun i hi => ⟨h i hi, rfl⟩

theorem Rests.nested (h : Rests s t) (hnested : Nested plan t s') : Rests s s' := by
  intro i hi
  rw [hnested.command] at hi
  obtain ⟨hparked, hgeneration⟩ := h i hi
  obtain ⟨hparked', hgeneration'⟩ := (hnested.change i).parked hparked
  exact ⟨hparked', hgeneration'.trans hgeneration⟩

theorem Rests.touches (h : Rests s t) (htouches : Touches t s') : Rests s s' := by
  have hnested : Nested {} t s' := htouches.nested
  exact h.nested hnested

/-- Only the component itself has to be looked at. -/
theorem rests_of_other (index : ℕ) (hs : StopsHold s)
    (hcommand : ∀ i ≠ index, s'.command i = s.command i)
    (hother : ∀ i ≠ index, s'.runtime i = s.runtime i)
    (hself : s'.command index = some .stop → Parked (s'.runtime index) ∧
      (s'.runtime index).generation = (s.runtime index).generation) : Rests s s' := by
  intro i hi
  by_cases heq : i = index
  · subst heq
    exact hself hi
  · rw [hcommand i heq] at hi
    rw [hother i heq]
    exact ⟨hs i hi, rfl⟩

theorem commanded_rests {operator : Operator} (h : operator ≠ .stop) (hs : StopsHold s) :
    Rests s (commanded s index operator) := by
  apply rests_of_other index hs
  · exact fun i hi => by simp [commanded, hi]
  · exact fun i _ => rfl
  · intro hstop
    simp only [commanded, if_true, Option.some.injEq] at hstop
    exact absurd hstop h

/-! ## One handler -/

theorem requestStart_rests (h : Rests s t) (hcommand : t.command index ≠ some .stop) :
    Rests s (requestStart plan env t index) := by
  apply Rests.nested _ (startEligible_nested _)
  intro i hi
  have hne : i ≠ index := by
    rintro rfl
    exact hcommand hi
  rw [update_ne hne]
  exact h i hi

theorem recordStart_rests (hs : StopsHold s) : Rests s (recordStart s index) := by
  have h : Rests s (commanded s index .start) := commanded_rests (by decide) hs
  exact h

theorem brokerStartComponent_rests (component : Bytes) (hs : StopsHold s) :
    Rests s (brokerStartComponent plan env s component).1 := by
  unfold brokerStartComponent
  cases componentIndex plan component with
  | none => exact hs.rests
  | some index =>
    simp only
    by_cases hdown : s.shuttingDown
    · rw [if_pos hdown]
      exact hs.rests
    · rw [if_neg hdown]
      have hrecord : Rests s (recordStart s index) := recordStart_rests hs
      have harm {t : Supervisor} (ht : Rests s t) :
          Rests s (if (componentPlan plan index).launchable ∧ (t.runtime index).state = .ready
            then armIdleTimeout plan t index else t) := by
        split_ifs
        · exact ht.touches (armIdleTimeout_touches t index)
        · exact ht
      apply harm
      split_ifs
      · apply requestStart_rests hrecord
        simp [recordStart, commanded, setStartPending]
      · exact hrecord.nested (startEligible_nested _)
      · exact hrecord

theorem routerActivateComponent_rests (hs : StopsHold s) :
    Rests s (routerActivateComponent plan env s index).1 := by
  have hcommanded : Rests s (commanded s index .activation) := commanded_rests (by decide) hs
  have hrequested : Rests s (requestStart plan env (commanded s index .activation) index) := by
    apply requestStart_rests hcommanded
    simp [commanded]
  unfold routerActivateComponent
  split_ifs
  · exact hs.rests
  · cases (s.runtime index).state with
    | ready => exact hcommanded
    | starting => exact hcommanded
    | waiting => exact hcommanded
    | backoff => exact hcommanded
    | stopping => exact hs.rests
    | stopped => exact hrequested
    | failed => exact hrequested

theorem stopIndex_rests (hs : StopsHold s) : Rests s (stopIndex plan env s index) := by
  rw [stopIndex_eq]
  have hcommand (i : ℕ) (hi : i ≠ index) : (stopRequested s index).command i = s.command i := by
    simp [stopRequested, recordStop, commanded, setStartPending, update, hi]
  by_cases hpid : (s.runtime index).pid.isNone
  · rw [if_pos hpid]
    apply rests_of_other index hs
    · exact hcommand
    · exact fun i hi => by rw [update_ne hi, stopRequested_other hi]
    · intro _
      rw [update_self, stopRequested, update_self]
      exact ⟨Or.inl ⟨rfl, Option.isNone_iff_eq_none.mp hpid⟩, rfl⟩
  · rw [if_neg hpid]
    split_ifs with hstopping
    · apply rests_of_other index hs hcommand
      · exact fun i hi => stopRequested_other hi
      · intro _
        rw [stopRequested, update_self]
        exact ⟨Or.inr ⟨hstopping, rfl⟩, rfl⟩
    · apply Rests.touches _ (applyEffects_touches plan _ _)
      apply rests_of_other index hs
      · exact hcommand
      · exact fun i hi => by rw [update_ne hi, stopRequested_other hi]
      · intro _
        rw [update_self, stopRequested, update_self]
        exact ⟨Or.inr ⟨rfl, rfl⟩, rfl⟩

theorem brokerStopComponent_rests (component : Bytes) (hs : StopsHold s) :
    Rests s (brokerStopComponent plan env s component).1 := by
  unfold brokerStopComponent
  cases componentIndex plan component with
  | none => exact hs.rests
  | some index => exact stopIndex_rests hs

theorem idleTimerEvent_rests {generation : ℕ} (hs : StopsHold s) :
    Rests s (idleTimerEvent plan env s index generation) := by
  have hcleared : Touches s (s.update index fun r => { r with idleTimer := none }) := by
    apply touches_update
    exact ⟨rfl, rfl, rfl, rfl, rfl, rfl, rfl, Or.inl rfl⟩
  have hrests := hs.rests.touches hcleared
  unfold idleTimerEvent
  simp only
  split_ifs
  · intro i hi
    obtain ⟨hparked, hgeneration⟩ := stopIndex_rests hrests.stopsHold i hi
    exact ⟨hparked, hgeneration.trans (hcleared.touch i).generation⟩
  · exact hrests

theorem restartTimerEvent_rests {generation : ℕ} (hs : StopsHold s) :
    Rests s (restartTimerEvent plan env s index generation) := by
  unfold restartTimerEvent
  simp only
  split_ifs with hguard
  · exact hs.rests
  · apply Rests.nested _ (startEligible_nested _)
    apply rests_of_other index hs
    · exact fun i _ => rfl
    · exact fun i hi => update_ne hi _
    · intro hstop
      simp only [not_or, not_not] at hguard
      exact absurd (hs index hstop) (not_parked_of_state hguard.2.1 (by decide) (by decide))

/-- After the exit of its process a component that was stopped has none. -/
theorem exited_rests (hs : StopsHold s) {f : ComponentRuntime → ComponentRuntime}
    (hself : s.command index = some .stop →
      Parked (f ((exited plan env s index).runtime index)) ∧
        (f ((exited plan env s index).runtime index)).generation
          = (s.runtime index).generation) :
    Rests s ((exited plan env s index).update index f) := by
  have htouches := exitState_touches plan env s index
  have hrests := hs.rests.touches htouches
  intro i hi
  by_cases heq : i = index
  · subst heq
    rw [update_self]
    apply hself
    rw [← htouches.command]
    exact hi
  · rw [update_ne heq, exited_other heq]
    exact hrests i hi

theorem onChildExit_rests {generation pid : ℕ} {failed : Bool} (hs : StopsHold s) :
    Rests s (onChildExit plan env s index generation pid failed) := by
  by_cases hmatched : (s.runtime index).generation = generation ∧ (s.runtime index).pid = some pid
  · obtain ⟨hpid, -, hgeneration, -⟩ := exited_self plan env s index
    rw [onChildExit_eq hmatched.1 hmatched.2]
    by_cases hdown : s.shuttingDown
    · rw [if_pos hdown]
      have hstopped : Rests s
          ((exited plan env s index).update index fun r => { r with state := .stopped }) :=
        exited_rests hs fun _ => ⟨Or.inl ⟨rfl, hpid⟩, hgeneration⟩
      simp only
      split_ifs
      · apply Rests.nested _ (stopNext_nested _ _)
        exact hstopped
      · exact hstopped
    · rw [if_neg hdown]
      by_cases hmanual : (s.runtime index).manualStop
      · rw [if_pos hmanual]
        exact exited_rests hs fun _ => ⟨Or.inl ⟨rfl, hpid⟩, hgeneration⟩
      · rw [if_neg hmanual]
        apply Rests.nested _ scheduleOrFail_of_settleAt
        rw [settleAt, update_update]
        apply exited_rests hs
        intro hstop
        rcases hs index hstop with ⟨-, hnone⟩ | ⟨-, hmanual'⟩
        · rw [hmatched.2] at hnone
          cases hnone
        · exact absurd hmanual' hmanual
  · rw [onChildExit_unmatched hmatched]
    exact hs.rests

/-! ## Runs -/

/-- No step spawns a component whose last command is a stop. -/
theorem step_rests {label : Label} (hs : StopsHold s) (hstep : step plan s label = some s') :
    Rests s s' := by
  obtain ⟨event, env⟩ := label
  unfold step handle at hstep
  cases event with
  | start component =>
    cases hstep
    exact brokerStartComponent_rests component hs
  | stop component =>
    cases hstep
    exact brokerStopComponent_rests component hs
  | activate index =>
    cases hstep
    exact routerActivateComponent_rests hs
  | readiness index generation ready =>
    cases hstep
    exact hs.rests.nested (readinessEvent_nested plan env s index generation ready)
  | channelReady component generation =>
    cases hstep
    exact hs.rests.nested (brokerComponentReady_nested plan env s component generation)
  | channelLost component generation =>
    cases hstep
    exact hs.rests.nested (brokerComponentDisconnected_nested plan env s component generation)
  | idleTimer index =>
    obtain ⟨generation, -, rfl⟩ := Option.map_eq_some_iff.mp hstep
    exact idleTimerEvent_rests hs
  | restartTimer index =>
    obtain ⟨generation, -, rfl⟩ := Option.map_eq_some_iff.mp hstep
    exact restartTimerEvent_rests hs
  | childExit index generation pid failed =>
    cases hstep
    exact onChildExit_rests hs
  | router effects =>
    cases hstep
    exact hs.rests.touches (applyEffects_touches plan s effects)
  | shutdown code =>
    cases hstep
    have hnested : Nested plan s (beginShutdown plan env s code) := beginShutdown_nested s code
    exact hs.rests.nested hnested

/-- While the supervisor runs, an exit leaves its component due unless it ends for good. -/
theorem onChildExit_isDue_iff {generation pid : ℕ} {failed : Bool}
    (hgeneration : (s.runtime index).generation = generation)
    (hpid : (s.runtime index).pid = some pid) (hdown : s.shuttingDown = false) :
    ((onChildExit plan env s index generation pid failed).shuttingDown = false →
        ((onChildExit plan env s index generation pid failed).runtime index).state.isDue = true) ↔
      endsForGood (componentPlan plan index) (s.runtime index) failed = false := by
  obtain ⟨hends, f, hexit, hrest⟩ | ⟨hends, hend | ⟨f, hexit, hbackoff⟩⟩ :=
    onChildExit_cases plan env failed hgeneration hpid hdown
  · have hrunning : ((exited plan env s index).update index f).shuttingDown = false :=
      (exited_shuttingDown plan env s index).trans hdown
    rw [hexit, hends, hrunning, update_self]
    rcases hrest with hrest | hrest <;> simp [hrest, RuntimeState.isDue]
  · simp [hends, hend]
  · rw [hexit, hends, update_self, hbackoff]
    simp [RuntimeState.isDue]

theorem step_commandWins_iff (label : Label) (hs : StopsHold s) :
    CommandWins plan s label ↔ HonoursPending plan s label := by
  obtain ⟨event, env⟩ := label
  have hexit (index generation pid : ℕ) (failed : Bool)
      (hevent : event = .childExit index generation pid failed) :
      step plan s ⟨event, env⟩ = some (onChildExit plan env s index generation pid failed) := by
    rw [hevent]
    rfl
  constructor
  · intro hwins hdown index generation pid failed hevent hgeneration hpid hpending
    apply (onChildExit_isDue_iff hgeneration hpid hdown).mp
    intro hrunning
    exact (hwins _ (hexit index generation pid failed hevent)).1 hrunning index generation pid
      failed hevent hgeneration hpid hpending
  · intro hhonours s' hstep
    refine ⟨?_, fun i hi => (step_rests hs hstep i hi).2⟩
    intro hrunning index generation pid failed hevent hgeneration hpid hpending
    rw [hexit index generation pid failed hevent] at hstep
    cases hstep
    have hdown : s.shuttingDown = false := by
      by_contra hdown
      rw [onChildExit_shuttingDown (by simpa using hdown)] at hrunning
      cases hrunning
    exact (onChildExit_isDue_iff hgeneration hpid hdown).mpr
      (hhonours hdown index generation pid failed hevent hgeneration hpid hpending) hrunning

/-- Along a run the last command always wins exactly when no process ends for good behind whose
back a start was accepted. -/
theorem run_commandWins_iff (plan : RuntimePlan) (catalog : NativeCatalog) (env : Environment)
    (labels : List Label) :
    Along (step plan) (CommandWins plan) (initial plan env catalog) labels ↔
      Along (step plan) (HonoursPending plan) (initial plan env catalog) labels := by
  have hinitial : StopsHold (initial plan env catalog) := by
    intro i hi
    rw [initial, (startEligible_nested _).command] at hi
    cases hi
  exact along_iff (fun s label s' hs hstep => (step_rests hs hstep).stopsHold)
    (fun s label hs => step_commandWins_iff label hs) labels hinitial

/-- One service that nobody restarts. -/
def servicePlan : RuntimePlan where
  components := [{ id := ascii "service" }]

/-- A start that is accepted while the service stops is forgotten when it has stopped. -/
theorem accepted_start_forgotten :
    ∃ catalog s s', NativeCatalog.build servicePlan = .ok catalog ∧
      run (step servicePlan) (initial servicePlan calmEnvironment catalog)
        [⟨.stop (ascii "service"), calmEnvironment⟩] = some s ∧
      (s.runtime 0).state = .stopping ∧
      (brokerStartComponent servicePlan calmEnvironment s (ascii "service")).2.ok = true ∧
      run (step servicePlan) s
        [⟨.start (ascii "service"), calmEnvironment⟩,
          ⟨.childExit 0 1 101 false, calmEnvironment⟩] = some s' ∧
      s'.shuttingDown = false ∧ (s'.runtime 0).state.isDue = false :=
  ⟨_, _, _, rfl, rfl, by decide, by decide, rfl, by decide, by decide⟩

end Supervisor

end MsysCore.Native
