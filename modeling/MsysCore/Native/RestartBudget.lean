import MsysCore.Native.SupervisorRuns

/-!
# The restart budget of a native component

`restart_count` counts the automatic restarts and `schedule_or_fail` compares it with the
limit. An explicit start or activation of a component at rest sets it back to zero, so the
limit holds for the whole life of the supervisor only where there is nothing to set back.
-/

namespace MsysCore.Native.Supervisor

open Runs

variable {plan : RuntimePlan} {env : Environment} {s s' t : Supervisor} {index : ℕ}

/-- The automatic restarts of every component fit its budget, the `k`-th of them after
`min(backoff_max_ms, backoff_initial_ms * 2^k)`, counted from zero. -/
def WithinBudget (plan : RuntimePlan) (s : Supervisor) : Prop :=
  ∀ i, (s.runtime i).restarts.length ≤ (componentPlan plan i).restartLimit ∧
    ∀ k delay, (s.runtime i).restarts[k]? = some delay →
      delay = min (componentPlan plan i).backoffMaxMs
        ((componentPlan plan i).backoffInitialMs * 2 ^ k)

/-- The component is at rest and a start would set its counter back. -/
def setsBack (s : Supervisor) (index : ℕ) : Prop :=
  s.shuttingDown = false ∧
    ((s.runtime index).state = .stopped ∨ (s.runtime index).state = .failed) ∧
    (s.runtime index).restartCount ≠ 0

/-- The step sets no counter back. -/
def KeepsCount (plan : RuntimePlan) (s : Supervisor) (label : Label) : Prop :=
  match label.event with
  | .start component => ∀ index, componentIndex plan component = some index → ¬ setsBack s index
  | .activate index => index < plan.components.length → ¬ setsBack s index
  | _ => True

/-- The bounds that `parse_runtime_plan` puts on the delays of a component. -/
def OrderedBackoff (plan : RuntimePlan) : Prop :=
  ∀ component ∈ plan.components, component.backoffInitialMs ≤ component.backoffMaxMs

/-- `restart_count` counts the automatic restarts so far, which fit the budget. -/
def Budgeted (plan : RuntimePlan) (s : Supervisor) : Prop :=
  ∀ i, BudgetOk (componentPlan plan i) (s.runtime i)

theorem componentPlan_backoff (h : OrderedBackoff plan) (i : ℕ) :
    (componentPlan plan i).backoffInitialMs ≤ (componentPlan plan i).backoffMaxMs := by
  unfold componentPlan
  cases hi : plan.components[i]? with
  | none => decide
  | some component => exact h component (List.mem_of_getElem? hi)

theorem Budgeted.withinBudget (h : Budgeted plan s) : WithinBudget plan s := by
  intro i
  refine ⟨?_, (h i).delays⟩
  rw [(h i).counted]
  exact (h i).bounded

theorem Budgeted.nested (hplan : OrderedBackoff plan) (h : Budgeted plan s)
    (hnested : Nested plan s s') : Budgeted plan s' :=
  fun i => (hnested.change i).budget (componentPlan_backoff hplan i) (h i)

theorem Budgeted.touches (h : Budgeted plan s) (htouches : Touches s s') : Budgeted plan s' :=
  fun i => (h i).of_same (htouches.touch i).restarts (htouches.touch i).restartCount

theorem Budgeted.update {f : ComponentRuntime → ComponentRuntime} (h : Budgeted plan s)
    (hself : BudgetOk (componentPlan plan index) (s.runtime index) →
      BudgetOk (componentPlan plan index) (f (s.runtime index))) :
    Budgeted plan (s.update index f) := by
  intro i
  by_cases hi : i = index
  · subst hi
    rw [update_self]
    exact hself (h i)
  · rw [update_ne hi]
    exact h i

/-! ## One handler -/

variable (hplan : OrderedBackoff plan)
include hplan

theorem requestStart_budgeted (h : Budgeted plan s) (hcount : (s.runtime index).restartCount = 0) :
    Budgeted plan (requestStart plan env s index) := by
  apply Budgeted.nested hplan _ (startEligible_nested _)
  apply h.update
  intro hok
  exact hok.of_same rfl hcount.symm

theorem brokerStartComponent_budgeted {component : Bytes} (h : Budgeted plan s)
    (hcond : ∀ index, componentIndex plan component = some index → ¬ setsBack s index) :
    Budgeted plan (brokerStartComponent plan env s component).1 := by
  unfold brokerStartComponent
  cases hindex : componentIndex plan component with
  | none => exact h
  | some index =>
    simp only
    by_cases hdown : s.shuttingDown
    · rw [if_pos hdown]
      exact h
    · rw [if_neg hdown]
      have harm {t : Supervisor} (ht : Budgeted plan t) :
          Budgeted plan (if (componentPlan plan index).launchable ∧ (t.runtime index).state = .ready
            then armIdleTimeout plan t index else t) := by
        split_ifs
        · exact ht.touches (armIdleTimeout_touches t index)
        · exact ht
      have hrecord : Budgeted plan (recordStart s index) := h
      apply harm
      split_ifs with hrest
      · apply requestStart_budgeted hplan hrecord
        by_contra hcount
        exact hcond index hindex ⟨by simpa using hdown, hrest, hcount⟩
      · exact hrecord.nested hplan (startEligible_nested _)
      · exact hrecord

theorem routerActivateComponent_budgeted (h : Budgeted plan s)
    (hcond : index < plan.components.length → ¬ setsBack s index) :
    Budgeted plan (routerActivateComponent plan env s index).1 := by
  have hcommanded : Budgeted plan (commanded s index .activation) := h
  unfold routerActivateComponent
  by_cases hguard : plan.components.length ≤ index ∨ s.shuttingDown
  · rw [if_pos hguard]
    exact h
  · rw [if_neg hguard]
    rw [not_or, not_le, Bool.not_eq_true] at hguard
    have hrequested (hrest : (s.runtime index).state = .stopped ∨
        (s.runtime index).state = .failed) :
        Budgeted plan (requestStart plan env (commanded s index .activation) index) := by
      apply requestStart_budgeted hplan hcommanded
      by_contra hcount
      exact hcond hguard.1 ⟨hguard.2, hrest, hcount⟩
    cases hstate : (s.runtime index).state with
    | ready => exact hcommanded
    | starting => exact hcommanded
    | waiting => exact hcommanded
    | backoff => exact hcommanded
    | stopping => exact h
    | stopped => exact hrequested (Or.inl hstate)
    | failed => exact hrequested (Or.inr hstate)

omit hplan in
theorem stopIndex_budgeted (h : Budgeted plan s) : Budgeted plan (stopIndex plan env s index) := by
  have hrequested : Budgeted plan (stopRequested s index) := by
    have hrecorded : Budgeted plan (recordStop s index) := h
    exact hrecorded.update fun hok => hok.of_same rfl rfl
  rw [stopIndex_eq]
  split_ifs
  · exact hrequested.update fun hok => hok.of_same rfl rfl
  · exact hrequested
  · apply Budgeted.touches _ (applyEffects_touches plan _ _)
    exact hrequested.update fun hok => hok.of_same rfl rfl

omit hplan in
theorem idleTimerEvent_budgeted {generation : ℕ} (h : Budgeted plan s) :
    Budgeted plan (idleTimerEvent plan env s index generation) := by
  have hcleared : Budgeted plan (s.update index fun r => { r with idleTimer := none }) :=
    h.update fun hok => hok.of_same rfl rfl
  unfold idleTimerEvent
  simp only
  split_ifs
  · exact stopIndex_budgeted hcleared
  · exact hcleared

theorem restartTimerEvent_budgeted {generation : ℕ} (h : Budgeted plan s) :
    Budgeted plan (restartTimerEvent plan env s index generation) := by
  unfold restartTimerEvent
  simp only
  split_ifs
  · exact h
  · apply Budgeted.nested hplan _ (startEligible_nested _)
    exact h.update fun hok => hok.of_same rfl rfl

theorem onChildExit_budgeted {generation pid : ℕ} {failed : Bool} (h : Budgeted plan s) :
    Budgeted plan (onChildExit plan env s index generation pid failed) := by
  by_cases hmatched : (s.runtime index).generation = generation ∧ (s.runtime index).pid = some pid
  · have hexited : Budgeted plan (exited plan env s index) := by
      have hstate := h.touches (exitState_touches plan env s index)
      have hpending : Budgeted plan ((exitState plan env s index).setStartPending index false) :=
        hstate
      exact hpending.update fun hok => hok.of_same rfl rfl
    rw [onChildExit_eq hmatched.1 hmatched.2]
    by_cases hdown : s.shuttingDown
    · rw [if_pos hdown]
      have hstopped : Budgeted plan
          ((exited plan env s index).update index fun r => { r with state := .stopped }) :=
        hexited.update fun hok => hok.of_same rfl rfl
      simp only
      split_ifs
      · apply Budgeted.nested hplan _ (stopNext_nested _ _)
        exact hstopped
      · exact hstopped
    · rw [if_neg hdown]
      split_ifs
      · exact hexited.update fun hok => hok.of_same rfl rfl
      · apply Budgeted.nested hplan _ scheduleOrFail_of_settleAt
        rw [settleAt, update_update]
        apply hexited.update
        intro hok
        apply settle_budget (componentPlan_backoff hplan index)
        exact hok.of_same rfl rfl
  · rw [onChildExit_unmatched hmatched]
    exact h

/-! ## Runs -/

theorem step_budgeted {label : Label} (h : Budgeted plan s) (hcond : KeepsCount plan s label)
    (hstep : step plan s label = some s') : Budgeted plan s' := by
  obtain ⟨event, env⟩ := label
  unfold step handle at hstep
  cases event with
  | start component =>
    cases hstep
    exact brokerStartComponent_budgeted hplan h hcond
  | stop component =>
    cases hstep
    unfold brokerStopComponent
    cases componentIndex plan component with
    | none => exact h
    | some index => exact stopIndex_budgeted h
  | activate index =>
    cases hstep
    exact routerActivateComponent_budgeted hplan h hcond
  | readiness index generation ready =>
    cases hstep
    exact h.nested hplan (readinessEvent_nested plan env s index generation ready)
  | channelReady component generation =>
    cases hstep
    exact h.nested hplan (brokerComponentReady_nested plan env s component generation)
  | channelLost component generation =>
    cases hstep
    exact h.nested hplan (brokerComponentDisconnected_nested plan env s component generation)
  | idleTimer index =>
    obtain ⟨generation, -, rfl⟩ := Option.map_eq_some_iff.mp hstep
    exact idleTimerEvent_budgeted h
  | restartTimer index =>
    obtain ⟨generation, -, rfl⟩ := Option.map_eq_some_iff.mp hstep
    exact restartTimerEvent_budgeted hplan h
  | childExit index generation pid failed =>
    cases hstep
    exact onChildExit_budgeted hplan h
  | router effects =>
    cases hstep
    exact h.touches (applyEffects_touches plan s effects)
  | shutdown code =>
    cases hstep
    exact h.nested hplan (beginShutdown_nested s code)

/-- Whatever fails and is restarted, in a run in which no counter is set back every component stays
within its budget. -/
theorem run_withinBudget (catalog : NativeCatalog) (env : Environment) (labels : List Label)
    (hcond : Along (step plan) (KeepsCount plan) (initial plan env catalog) labels)
    (hrun : run (step plan) (initial plan env catalog) labels = some s') :
    WithinBudget plan s' := by
  have hinitial : Budgeted plan (initial plan env catalog) := by
    apply Budgeted.nested hplan _ (startEligible_nested _)
    intro i
    constructor
    · rfl
    · exact Nat.zero_le _
    · intro k delay hk
      simp at hk
  have hstep (s : Supervisor) (label : Label) (s' : Supervisor) (h : Budgeted plan s)
      (hcond : KeepsCount plan s label) (hstep : step plan s label = some s') :
      Budgeted plan s' := step_budgeted hplan h hcond hstep
  exact (run_invariant hstep labels hinitial hcond hrun).withinBudget

omit hplan

/-- One service that is restarted `restartLimit` times when it fails. -/
def fragilePlan (restartLimit : ℕ) : RuntimePlan where
  components := [{ id := ascii "service", restart := .onFailure, restartLimit := restartLimit }]

theorem fragilePlan_orderedBackoff (restartLimit : ℕ) :
    OrderedBackoff (fragilePlan restartLimit) := by
  intro component hmem
  rw [List.mem_singleton.mp hmem]
  exact (by decide : (250 : ℕ) ≤ 30000)

/-- The service fails and is restarted. -/
def failAndRestart (generation : ℕ) : List Label :=
  [⟨.childExit 0 generation (100 + generation) true, calmEnvironment⟩,
    ⟨.restartTimer 0, calmEnvironment⟩]

/-- Two failures within a budget of two. -/
theorem run_withinBudget_twoFailures :
    let plan := fragilePlan 2
    let catalog := NativeCatalog.ofTables plan {}
    ∃ s', NativeCatalog.build plan = .ok catalog ∧
      run (step plan) (initial plan calmEnvironment catalog)
        (failAndRestart 1 ++ failAndRestart 2) = some s' ∧
      (s'.runtime 0).restarts = [250, 500] ∧ WithinBudget plan s' := by
  obtain ⟨s', hrun, hrestarts⟩ : ∃ s', run (step (fragilePlan 2))
      (initial (fragilePlan 2) calmEnvironment (NativeCatalog.ofTables (fragilePlan 2) {}))
      (failAndRestart 1 ++ failAndRestart 2) = some s' ∧
        (s'.runtime 0).restarts = [250, 500] := ⟨_, rfl, by decide⟩
  refine ⟨s', rfl, hrun, hrestarts, ?_⟩
  apply run_withinBudget (fragilePlan_orderedBackoff 2) _ _ _ _ hrun
  apply along_of_forall
  simp [KeepsCount, failAndRestart]

/-- After the only restart of its budget the service fails for good, and an operator starts it. It
is then restarted once more. -/
theorem started_again_beyond_budget :
    let plan := fragilePlan 1
    ∃ catalog s', NativeCatalog.build plan = .ok catalog ∧
      run (step plan) (initial plan calmEnvironment catalog)
        (failAndRestart 1 ++
          [⟨.childExit 0 2 102 true, calmEnvironment⟩,
            ⟨.start (ascii "service"), calmEnvironment⟩,
            ⟨.childExit 0 3 103 true, calmEnvironment⟩]) = some s' ∧
      (s'.runtime 0).restarts = [250, 250] ∧ ¬ WithinBudget plan s' := by
  refine ⟨_, _, rfl, rfl, by decide, ?_⟩
  intro h
  exact absurd (h 0).1 (by decide)

end MsysCore.Native.Supervisor
