import MsysCore.Native.SupervisorRuns

/-!
# The idle timers of the native supervisor

An on-demand component is reclaimed once it has been idle for its timeout. The timer is
armed, cancelled and armed again wherever a call begins or ends, and its callback looks at
the component again. In every state of a run the timer of a ready component is the right
one: it stands exactly while the component has nothing to do, and for its own process.

That the reactor takes the timers is part of the model: `arm_idle_timeout` only logs a
timer that it can not add.
-/

namespace MsysCore.Native

open Runs

namespace Supervisor

variable {plan : RuntimePlan} {env : Environment} {s t s' : Supervisor} {index : ℕ}
  {skip : Option ℕ}

/-- The plan asks for the component to be reclaimed. -/
def Reclaimed (component : ComponentPlan) : Prop :=
  component.lifecycle = .onDemand ∧ component.idleTimeoutMs ≠ 0

/-- An armed timer belongs to this process or to an earlier one. -/
def Dated (component : ComponentPlan) (r : ComponentRuntime) : Prop :=
  ∀ generation, r.idleTimer = some generation →
    Reclaimed component ∧ generation ≤ r.generation

/-- The timer of a ready component: it stands while there is no call, but that a shutdown
takes it away. -/
structure Timed (component : ComponentPlan) (down : Bool) (r : ComponentRuntime) : Prop where
  current : r.state = .ready → ∀ generation, r.idleTimer = some generation →
    generation = r.generation ∧ r.inflightCalls = 0
  armed : down = false → r.state = .ready → Reclaimed component → r.inflightCalls = 0 →
    r.idleTimer = some r.generation

theorem timed_of_state {component : ComponentPlan} {down : Bool} {r : ComponentRuntime}
    (h : r.state ≠ .ready) : Timed component down r where
  current hready := absurd hready h
  armed _ hready := absurd hready h

/-- A component without a timer, where the plan or a call rules one out. -/
theorem timed_of_none {component : ComponentPlan} {down : Bool} {r : ComponentRuntime}
    (h : r.idleTimer = none)
    (hbusy : r.state = .ready → Reclaimed component → r.inflightCalls ≠ 0) :
    Timed component down r where
  current _ generation htimer := by
    rw [h] at htimer
    cases htimer
  armed _ hready hreclaimed hcalls := absurd hcalls (hbusy hready hreclaimed)

theorem dated_of_none {component : ComponentPlan} {r : ComponentRuntime}
    (h : r.idleTimer = none) : Dated component r := by
  intro generation htimer
  rw [h] at htimer
  cases htimer

/-- The timers of all components but `skip`, whose state is being changed. -/
structure IdleOk (plan : RuntimePlan) (skip : Option ℕ) (s : Supervisor) : Prop where
  dated : ∀ i, Dated (componentPlan plan i) (s.runtime i)
  timed : ∀ i, some i ≠ skip → Timed (componentPlan plan i) s.shuttingDown (s.runtime i)

theorem IdleOk.skipping (h : IdleOk plan none s) (skip : Option ℕ) : IdleOk plan skip s :=
  ⟨h.dated, fun i _ => h.timed i (Option.some_ne_none i)⟩

/-- The change of a component that is skipped. -/
theorem IdleOk.update_skipped {f : ComponentRuntime → ComponentRuntime}
    (h : IdleOk plan (some index) s)
    (hdated : Dated (componentPlan plan index) (f (s.runtime index))) :
    IdleOk plan (some index) (s.update index f) where
  dated i := by
    by_cases hi : i = index
    · subst hi
      rw [update_self]
      exact hdated
    · rw [update_ne hi]
      exact h.dated i
  timed i hi := by
    have hne : i ≠ index := fun heq => hi (congrArg some heq)
    rw [update_ne hne]
    exact h.timed i hi

/-- The skipped component is in order again. -/
theorem IdleOk.restore (h : IdleOk plan (some index) s)
    (htimed : Timed (componentPlan plan index) s.shuttingDown (s.runtime index)) :
    IdleOk plan none s where
  dated := h.dated
  timed i _ := by
    by_cases hi : i = index
    · subst hi
      exact htimed
    · exact h.timed i fun heq => hi (Option.some.inj heq)

theorem IdleOk.update {f : ComponentRuntime → ComponentRuntime} (h : IdleOk plan skip s)
    (hdated : Dated (componentPlan plan index) (f (s.runtime index)))
    (htimed : some index ≠ skip →
      Timed (componentPlan plan index) s.shuttingDown (f (s.runtime index))) :
    IdleOk plan skip (s.update index f) where
  dated i := by
    by_cases hi : i = index
    · subst hi
      rw [update_self]
      exact hdated
    · rw [update_ne hi]
      exact h.dated i
  timed i hi := by
    by_cases heq : i = index
    · subst heq
      rw [update_self]
      exact htimed hi
    · rw [update_ne heq]
      exact h.timed i hi

/-- A component that leaves the ready state, with its timer or without one. -/
theorem IdleOk.leave {f : ComponentRuntime → ComponentRuntime}
    (h : IdleOk plan (some index) s)
    (hstate : (f (s.runtime index)).state ≠ .ready)
    (htimer : (f (s.runtime index)).idleTimer = (s.runtime index).idleTimer ∨
      (f (s.runtime index)).idleTimer = none)
    (hgeneration : (s.runtime index).generation ≤ (f (s.runtime index)).generation) :
    IdleOk plan none (s.update index f) := by
  have hdated : Dated (componentPlan plan index) (f (s.runtime index)) := by
    rcases htimer with htimer | htimer
    · intro generation hsome
      obtain ⟨hreclaimed, hle⟩ := h.dated index generation (htimer ▸ hsome)
      exact ⟨hreclaimed, hle.trans hgeneration⟩
    · exact dated_of_none htimer
  apply (h.update_skipped hdated).restore
  rw [update_self]
  exact timed_of_state hstate

theorem IdleOk.congr (h : IdleOk plan skip s) (hruntime : t.runtime = s.runtime)
    (hdown : t.shuttingDown = s.shuttingDown) : IdleOk plan skip t where
  dated i := by
    rw [hruntime]
    exact h.dated i
  timed i hi := by
    rw [hruntime, hdown]
    exact h.timed i hi

/-! ## Timers and the router -/

/-- Arming the timer of a component puts it in order, whatever it was. -/
theorem armIdleTimeout_self (plan : RuntimePlan) (s : Supervisor) (index : ℕ) (down : Bool) :
    Dated (componentPlan plan index) ((armIdleTimeout plan s index).runtime index) ∧
      Timed (componentPlan plan index) down ((armIdleTimeout plan s index).runtime index) := by
  unfold armIdleTimeout
  simp only [update_self]
  split_ifs with hcancel
  · refine ⟨dated_of_none rfl, timed_of_none rfl ?_⟩
    intro hready hreclaimed hcalls
    rcases hcancel with hkind | htimeout | hstate | hbusy
    · exact absurd hreclaimed.1 hkind
    · exact absurd htimeout hreclaimed.2
    · exact absurd hready hstate
    · exact absurd hcalls hbusy
  · simp only [not_or, ne_eq, not_not] at hcancel
    obtain ⟨hkind, htimeout, -, hcalls⟩ := hcancel
    refine ⟨?_, ?_, fun _ _ _ _ => rfl⟩
    · intro generation htimer
      cases htimer
      exact ⟨⟨hkind, htimeout⟩, le_refl _⟩
    · intro _ generation htimer
      cases htimer
      exact ⟨rfl, hcalls⟩

theorem armIdleTimeout_other {i : ℕ} (hi : i ≠ index) :
    (armIdleTimeout plan s index).runtime i = s.runtime i := by
  unfold armIdleTimeout
  exact update_ne hi _

theorem IdleOk.arm (h : IdleOk plan skip s) (index : ℕ) :
    IdleOk plan skip (armIdleTimeout plan s index) := by
  obtain ⟨hdated, htimed⟩ := armIdleTimeout_self plan s index s.shuttingDown
  unfold armIdleTimeout at hdated htimed ⊢
  rw [update_self] at hdated htimed
  exact h.update hdated fun _ => htimed

theorem IdleOk.update_arm (h : IdleOk plan skip s) (f : ComponentRuntime → ComponentRuntime) :
    IdleOk plan skip (armIdleTimeout plan (s.update index f) index) where
  dated i := by
    by_cases hi : i = index
    · subst hi
      exact (armIdleTimeout_self plan _ i true).1
    · rw [armIdleTimeout_other hi, update_ne hi]
      exact h.dated i
  timed i hskip := by
    by_cases hi : i = index
    · subst hi
      exact (armIdleTimeout_self plan _ i _).2
    · rw [armIdleTimeout_other hi, update_ne hi]
      exact h.timed i hskip

/-- Arming the timer of the skipped component ends the exception. -/
theorem IdleOk.arm_skipped (h : IdleOk plan (some index) s) :
    IdleOk plan none (armIdleTimeout plan s index) :=
  (h.arm index).restore (armIdleTimeout_self plan s index _).2

theorem busyCalls_ne_zero (calls : ℕ) : busyCalls calls ≠ 0 := by
  unfold busyCalls
  split_ifs with h
  · rw [h]
    decide
  · exact Nat.succ_ne_zero calls

/-- A component that is failed has no timer and is not ready. -/
theorem IdleOk.markFailed (h : IdleOk plan skip s) (index : ℕ) :
    IdleOk plan skip (s.update index markFailed) := by
  refine h.update (dated_of_none rfl) fun _ => timed_of_state ?_
  simp [Supervisor.markFailed]

theorem IdleOk.applyEffect (h : IdleOk plan skip s) (effect : RouterEffect) :
    IdleOk plan skip (applyEffect plan s effect) := by
  cases effect with
  | lost index =>
    unfold Supervisor.applyEffect
    simp only
    split_ifs
    · exact h.markFailed index
    · exact h
  | busy index =>
    unfold Supervisor.applyEffect
    refine h.update (dated_of_none rfl) fun _ => timed_of_none rfl fun _ _ => ?_
    exact busyCalls_ne_zero _
  | idle index =>
    unfold Supervisor.applyEffect
    simp only
    split_ifs
    · exact h
    · exact h.update_arm _
  | activity index => exact h.arm index

theorem IdleOk.applyEffects (h : IdleOk plan skip s) (effects : List RouterEffect) :
    IdleOk plan skip (applyEffects plan s effects) := by
  unfold Supervisor.applyEffects
  induction effects generalizing s with
  | nil => exact h
  | cons effect effects ih => exact ih (h.applyEffect effect)

theorem IdleOk.failRunningComponent (h : IdleOk plan none s) (index : ℕ) :
    IdleOk plan none (failRunningComponent plan env s index) := by
  unfold Supervisor.failRunningComponent
  simp only
  split_ifs
  · exact h
  · apply IdleOk.applyEffects
    exact h.markFailed index

/-! ## Shutdown and restarts -/

theorem IdleOk.stopNext (order : List ℕ) : ∀ {s : Supervisor}, IdleOk plan none s →
    IdleOk plan none (stopNext plan env s order) := by
  induction order with
  | nil => exact fun h => h.congr rfl rfl
  | cons index rest ih =>
    intro s h
    rw [Supervisor.stopNext]
    split_ifs
    · exact ih h
    · apply IdleOk.applyEffects
      have hmarked : IdleOk plan (some index)
          { s with stopOrder := rest, stoppingIndex := some index } :=
        (h.skipping (some index)).congr rfl rfl
      exact hmarked.leave (by simp) (Or.inr rfl) (le_refl _)

theorem IdleOk.beginShutdown (h : IdleOk plan none s) (code : ℕ) :
    IdleOk plan none (beginShutdown plan env s code) := by
  unfold Supervisor.beginShutdown
  split_ifs
  · exact h.congr rfl rfl
  · exact h
  · apply IdleOk.stopNext
    refine ⟨fun i => dated_of_none rfl, fun i _ => ⟨?_, fun hfalse => ?_⟩⟩
    · intro _ generation htimer
      cases htimer
    · cases hfalse

theorem settle_leaves {component : ComponentPlan} {timer failed : Bool} (r : ComponentRuntime) :
    (settle component timer failed r).state ≠ .ready ∧
      (settle component timer failed r).idleTimer = r.idleTimer ∧
      (settle component timer failed r).generation = r.generation := by
  unfold settle
  split_ifs <;> simp [countRestart]

/-- The component that is settled may have been out of order. -/
theorem IdleOk.scheduleOrFail (h : IdleOk plan (some index) s) (failed : Bool) :
    IdleOk plan none (scheduleOrFail plan env s index failed) := by
  have hsettled : IdleOk plan none (settleAt plan env s index failed) := by
    obtain ⟨hstate, htimer, hgeneration⟩ := settle_leaves (s.runtime index)
    exact h.leave hstate (Or.inl htimer) hgeneration.ge
  obtain ⟨code, heq⟩ := scheduleOrFail_eq plan env s index failed
  rw [heq]
  split_ifs
  · exact hsettled.beginShutdown code
  · exact hsettled

/-! ## Starting components -/

theorem IdleOk.handleSpawnFailure (h : IdleOk plan none s)
    (hstate : (s.runtime index).state = .starting) :
    IdleOk plan none (handleSpawnFailure plan env s index) := by
  apply IdleOk.scheduleOrFail
  apply IdleOk.applyEffects
  apply IdleOk.skipping
  apply (h.skipping (some index)).leave _ (Or.inr rfl) (le_refl _)
  simp [hstate]

theorem IdleOk.markStarting (h : IdleOk plan none s) (index : ℕ) :
    IdleOk plan none (markStarting s index) := by
  have hcounted : IdleOk plan (some index) { s with startSequence := s.startSequence + 1 } :=
    (h.skipping (some index)).congr rfl rfl
  unfold Supervisor.markStarting
  apply hcounted.leave _ (Or.inl rfl) (Nat.le_succ _)
  simp

section Again

variable {again : Supervisor → Supervisor}
  (hagain : ∀ s, IdleOk plan none s → IdleOk plan none (again s))

include hagain

/-- A component that becomes ready is out of order until its timer is armed. -/
theorem IdleOk.markReady (h : IdleOk plan none s) (index generation : ℕ) :
    IdleOk plan none (markReady plan env again s index generation) := by
  unfold Supervisor.markReady
  simp only
  split_ifs
  · exact h
  · apply hagain
    apply IdleOk.arm_skipped
    apply IdleOk.applyEffects
    exact (h.skipping (some index)).update_skipped (h.dated index)

theorem IdleOk.spawnComponent (h : IdleOk plan none s) (index : ℕ) :
    IdleOk plan none (spawnComponent plan env again s index) := by
  unfold Supervisor.spawnComponent
  by_cases hdown : s.shuttingDown
  · rw [if_pos hdown]
    exact h
  · rw [if_neg hdown]
    have hstarting := h.markStarting index
    have hstate : ((Supervisor.markStarting s index).runtime index).state = .starting := by
      simp [Supervisor.markStarting]
    simp only
    cases env.spawn (Supervisor.markStarting s index).startSequence with
    | refused => exact hstarting.handleSpawnFailure hstate
    | launched pid watched =>
      have hlaunched : IdleOk plan none
          ((Supervisor.markStarting s index).update index fun r => { r with pid := some pid }) := by
        apply (hstarting.skipping (some index)).leave _ (Or.inl rfl) (le_refl _)
        simp [hstate]
      simp only
      split_ifs
      · exact hlaunched.markReady hagain index _
      · exact hlaunched
      · exact hlaunched.failRunningComponent index

theorem IdleOk.startRound (order : List ℕ) : ∀ {s : Supervisor} (changed : Bool),
    IdleOk plan none s → IdleOk plan none (startRound plan env again order s changed).1 := by
  induction order with
  | nil => exact fun _ h => h
  | cons index rest ih =>
    intro s changed h
    rw [Supervisor.startRound]
    have hspawned : IdleOk plan none (Supervisor.spawnComponent plan env again s index) :=
      h.spawnComponent hagain index
    simp only
    split_ifs
    · exact hspawned
    · exact ih true hspawned
    · exact ih changed h

end Again

theorem IdleOk.startEligibleFuel (fuel : ℕ) : ∀ {s : Supervisor}, IdleOk plan none s →
    IdleOk plan none (startEligibleFuel plan env fuel s) := by
  induction fuel with
  | zero => exact fun h => h
  | succ fuel ih =>
    intro s h
    rw [Supervisor.startEligibleFuel]
    have hround : IdleOk plan none
        (Supervisor.startRound plan env (Supervisor.startEligibleFuel plan env fuel)
          (List.range plan.components.length) s false).1 :=
      IdleOk.startRound (fun _ => ih) _ false h
    simp only
    split_ifs
    · exact h
    · exact ih hround
    · exact hround

theorem IdleOk.startEligible (h : IdleOk plan none s) :
    IdleOk plan none (startEligible plan env s) := h.startEligibleFuel _

/-! ## Requests and events -/

theorem IdleOk.requestStart (h : IdleOk plan none s) (index : ℕ) :
    IdleOk plan none (requestStart plan env s index) := by
  apply IdleOk.startEligible
  exact (h.skipping (some index)).leave (by simp) (Or.inl rfl) (le_refl _)

theorem IdleOk.brokerStartComponent (h : IdleOk plan none s) (component : Bytes) :
    IdleOk plan none (brokerStartComponent plan env s component).1 := by
  unfold Supervisor.brokerStartComponent
  cases componentIndex plan component with
  | none => exact h
  | some index =>
    have hrecord : IdleOk plan none (recordStart s index) := h.congr rfl rfl
    have harm {t : Supervisor} (ht : IdleOk plan none t) :
        IdleOk plan none (if (componentPlan plan index).launchable
          ∧ (t.runtime index).state = .ready then armIdleTimeout plan t index else t) := by
      split_ifs
      · exact ht.arm index
      · exact ht
    simp only
    by_cases hdown : s.shuttingDown
    · rw [if_pos hdown]
      exact h
    · rw [if_neg hdown]
      apply harm
      split_ifs
      · exact hrecord.requestStart index
      · exact hrecord.startEligible
      · exact hrecord

theorem IdleOk.routerActivateComponent (h : IdleOk plan none s) (index : ℕ) :
    IdleOk plan none (routerActivateComponent plan env s index).1 := by
  have hcommanded : IdleOk plan none (commanded s index .activation) := h.congr rfl rfl
  unfold Supervisor.routerActivateComponent
  split_ifs
  · exact h
  · cases (s.runtime index).state with
    | ready | starting | waiting | backoff => exact hcommanded
    | stopping => exact h
    | stopped | failed => exact hcommanded.requestStart index

/-- Stopping a component puts it in order, with or without a process. -/
theorem IdleOk.stopIndex (h : IdleOk plan (some index) s) :
    IdleOk plan none (stopIndex plan env s index) := by
  have hrecorded : IdleOk plan (some index) (recordStop s index) := h.congr rfl rfl
  have hrequested : IdleOk plan (some index) (stopRequested s index) :=
    hrecorded.update_skipped (dated_of_none rfl)
  rw [stopIndex_eq]
  split_ifs with hpid hstopping
  · exact hrequested.leave (by simp) (Or.inl rfl) (le_refl _)
  · apply hrequested.restore
    apply timed_of_state
    rw [stopRequested_state, hstopping]
    decide
  · apply IdleOk.applyEffects
    exact hrequested.leave (by simp) (Or.inl rfl) (le_refl _)

theorem IdleOk.brokerStopComponent (h : IdleOk plan none s) (component : Bytes) :
    IdleOk plan none (brokerStopComponent plan env s component).1 := by
  unfold Supervisor.brokerStopComponent
  cases componentIndex plan component with
  | none => exact h
  | some index => exact (h.skipping (some index)).stopIndex

theorem IdleOk.readinessEvent (h : IdleOk plan none s) (index generation : ℕ) (ready : Bool) :
    IdleOk plan none (readinessEvent plan env s index generation ready) := by
  unfold Supervisor.readinessEvent
  simp only
  split_ifs
  · exact h
  · exact h.markReady (fun _ ht => ht.startEligible) index generation
  · exact h.failRunningComponent index

theorem IdleOk.brokerComponentReady (h : IdleOk plan none s) (component : Bytes)
    (generation : ℕ) : IdleOk plan none (brokerComponentReady plan env s component generation) := by
  unfold Supervisor.brokerComponentReady
  cases componentIndex plan component with
  | none => exact h
  | some index =>
    simp only
    split_ifs
    · exact h
    · exact h.markReady (fun _ ht => ht.startEligible) index generation

theorem IdleOk.brokerComponentDisconnected (h : IdleOk plan none s) (component : Bytes)
    (generation : ℕ) :
    IdleOk plan none (brokerComponentDisconnected plan env s component generation) := by
  unfold Supervisor.brokerComponentDisconnected
  cases componentIndex plan component with
  | none => exact h
  | some index =>
    simp only
    split_ifs
    · exact h.failRunningComponent index
    · exact h

theorem IdleOk.restartTimerEvent (h : IdleOk plan none s) (index generation : ℕ) :
    IdleOk plan none (restartTimerEvent plan env s index generation) := by
  unfold Supervisor.restartTimerEvent
  simp only
  split_ifs
  · exact h
  · apply IdleOk.startEligible
    exact (h.skipping (some index)).leave (by simp) (Or.inl rfl) (le_refl _)

variable (env) in
/-- The timer of a component goes off: a ready one is stopped, any other is left alone. -/
theorem idleTimerEvent_cases (h : IdleOk plan none s) {generation : ℕ}
    (htimer : (s.runtime index).idleTimer = some generation) :
    ((s.runtime index).state = .ready ∧ (s.runtime index).inflightCalls = 0 ∧
      generation = (s.runtime index).generation ∧
      idleTimerEvent plan env s index generation =
        stopIndex plan env (s.update index fun r => { r with idleTimer := none }) index) ∨
    ((s.runtime index).state ≠ .ready ∧ idleTimerEvent plan env s index generation =
      s.update index fun r => { r with idleTimer := none }) := by
  unfold Supervisor.idleTimerEvent
  simp only [update_self]
  by_cases hready : (s.runtime index).state = .ready
  · obtain ⟨hgeneration, hcalls⟩ :=
      (h.timed index (Option.some_ne_none index)).current hready generation htimer
    refine Or.inl ⟨hready, hcalls, hgeneration, ?_⟩
    rw [if_pos ⟨hgeneration.symm, hready, hcalls⟩]
  · refine Or.inr ⟨hready, ?_⟩
    rw [if_neg fun hall => hready hall.2.1]

theorem IdleOk.idleTimerEvent (h : IdleOk plan none s) {generation : ℕ}
    (htimer : (s.runtime index).idleTimer = some generation) :
    IdleOk plan none (idleTimerEvent plan env s index generation) := by
  have hskipping := h.skipping (some index)
  rcases idleTimerEvent_cases env h htimer with ⟨-, -, -, heq⟩ | ⟨hstate, heq⟩
  · rw [heq]
    exact (hskipping.update_skipped (dated_of_none rfl)).stopIndex
  · rw [heq]
    exact hskipping.leave hstate (Or.inr rfl) (le_refl _)

theorem IdleOk.onChildExit (h : IdleOk plan none s) (index generation pid : ℕ) (failed : Bool) :
    IdleOk plan none (onChildExit plan env s index generation pid failed) := by
  by_cases hmatched : (s.runtime index).generation = generation ∧ (s.runtime index).pid = some pid
  · have hstate : IdleOk plan (some index) (exitState plan env s index) :=
      ((h.skipping (some index)).update_skipped (dated_of_none rfl)).applyEffects _
    have hpending : IdleOk plan (some index)
        ((exitState plan env s index).setStartPending index false) := hstate.congr rfl rfl
    have hexited : IdleOk plan (some index) (exited plan env s index) :=
      hpending.update_skipped (hstate.dated index)
    rw [onChildExit_eq hmatched.1 hmatched.2]
    by_cases hdown : s.shuttingDown
    · rw [if_pos hdown]
      have hstopped : IdleOk plan none
          ((exited plan env s index).update index fun r => { r with state := .stopped }) :=
        hexited.leave (by simp) (Or.inl rfl) (le_refl _)
      simp only
      split_ifs
      · apply IdleOk.stopNext
        exact hstopped.congr rfl rfl
      · exact hstopped
    · rw [if_neg hdown]
      split_ifs
      · exact hexited.leave (by simp) (Or.inl rfl) (le_refl _)
      · exact (hexited.update_skipped (hexited.dated index)).scheduleOrFail _
  · rw [onChildExit_unmatched hmatched]
    exact h

/-! ## Runs -/

theorem step_idleOk {label : Label} (h : IdleOk plan none s)
    (hstep : step plan s label = some s') : IdleOk plan none s' := by
  obtain ⟨event, env⟩ := label
  unfold step handle at hstep
  cases event with
  | start component =>
    cases hstep
    exact h.brokerStartComponent component
  | stop component =>
    cases hstep
    exact h.brokerStopComponent component
  | activate index =>
    cases hstep
    exact h.routerActivateComponent index
  | readiness index generation ready =>
    cases hstep
    exact h.readinessEvent index generation ready
  | channelReady component generation =>
    cases hstep
    exact h.brokerComponentReady component generation
  | channelLost component generation =>
    cases hstep
    exact h.brokerComponentDisconnected component generation
  | idleTimer index =>
    obtain ⟨generation, htimer, rfl⟩ := Option.map_eq_some_iff.mp hstep
    exact h.idleTimerEvent htimer
  | restartTimer index =>
    obtain ⟨generation, -, rfl⟩ := Option.map_eq_some_iff.mp hstep
    exact h.restartTimerEvent index generation
  | childExit index generation pid failed =>
    cases hstep
    exact h.onChildExit index generation pid failed
  | router effects =>
    cases hstep
    exact h.applyEffects effects
  | shutdown code =>
    cases hstep
    exact h.beginShutdown code

theorem initial_idleOk (plan : RuntimePlan) (env : Environment) (catalog : NativeCatalog) :
    IdleOk plan none (initial plan env catalog) := by
  apply IdleOk.startEligible
  refine ⟨fun i => dated_of_none rfl, fun i _ => timed_of_state ?_⟩
  simp only
  split_ifs <;> simp

/-- What a maintainer may count on in a state that a run reached. -/
structure IdleTimers (plan : RuntimePlan) (s : Supervisor) : Prop where
  /-- The timer of a ready component stands exactly while it has nothing to do. -/
  ready : ∀ i, (s.runtime i).state = .ready → s.shuttingDown = false →
    ∀ generation, (s.runtime i).idleTimer = some generation ↔
      Reclaimed (componentPlan plan i) ∧ (s.runtime i).inflightCalls = 0 ∧
        generation = (s.runtime i).generation
  /-- A timer that goes off stops its component idle, or finds it not ready and does nothing. -/
  expiry : ∀ i env t, step plan s ⟨.idleTimer i, env⟩ = some t →
    ((s.runtime i).state = .ready ∧ Reclaimed (componentPlan plan i) ∧
      (s.runtime i).inflightCalls = 0 ∧ (t.runtime i).manualStop = true ∧
      (t.runtime i).state ≠ .ready) ∨
    ((s.runtime i).state ≠ .ready ∧ t = s.update i fun r => { r with idleTimer := none })

variable (plan env) in
/-- The component of a stop that found it ready. -/
theorem stopIndex_self (hready : (s.runtime index).state = .ready) :
    ((stopIndex plan env s index).runtime index).manualStop = true ∧
      ((stopIndex plan env s index).runtime index).state ≠ .ready := by
  rw [stopIndex_eq, hready, if_neg (by decide : RuntimeState.ready ≠ .stopping)]
  split_ifs
  · rw [update_self]
    exact ⟨by simp [stopRequested], by simp⟩
  · have htouch := (applyEffects_touches plan ((stopRequested s index).update index fun r =>
      { r with state := .stopping }) (env.unavailable index)).touch index
    rw [update_self] at htouch
    refine ⟨htouch.manualStop.trans (by simp [stopRequested]), ?_⟩
    rcases htouch.state with hstate | ⟨-, -, hstate⟩ <;> simp [hstate]

theorem IdleOk.idleTimers (h : IdleOk plan none s) : IdleTimers plan s where
  ready i hready hdown generation := by
    have htimed := h.timed i (Option.some_ne_none i)
    constructor
    · intro htimer
      obtain ⟨hgeneration, hcalls⟩ := htimed.current hready generation htimer
      exact ⟨(h.dated i generation htimer).1, hcalls, hgeneration⟩
    · rintro ⟨hreclaimed, hcalls, rfl⟩
      exact htimed.armed hdown hready hreclaimed hcalls
  expiry i env t hstep := by
    obtain ⟨generation, htimer, rfl⟩ := Option.map_eq_some_iff.mp hstep
    rcases idleTimerEvent_cases env h htimer with ⟨hready, hcalls, -, heq⟩ | ⟨hstate, heq⟩
    · have hcleared : ((s.update i fun r => { r with idleTimer := none }).runtime i).state
          = .ready := by
        rw [update_self]
        exact hready
      rw [heq]
      exact Or.inl ⟨hready, (h.dated i generation htimer).1, hcalls,
        stopIndex_self plan env hcleared⟩
    · exact Or.inr ⟨hstate, heq⟩

/-- One component that is started on demand. -/
def reclaimedPlan : RuntimePlan where
  components := [{ id := ascii "a", lifecycle := .onDemand, idleTimeoutMs := 100 }]

/-- The component is started for a call, and the call is answered. -/
def oneCall : List Label :=
  [⟨.activate 0, calmEnvironment⟩, ⟨.router [.busy 0], calmEnvironment⟩,
    ⟨.router [.idle 0], calmEnvironment⟩]

end Supervisor

end MsysCore.Native
