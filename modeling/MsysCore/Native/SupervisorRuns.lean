import Mathlib.Data.Finset.Card
import Mathlib.Data.Finset.Range
import MsysCore.Native.Supervisor

/-!
# What the handlers of the native supervisor keep

Starting components is a recursion through the router and back. Nothing in it makes a
component wait, touches one that an operator has stopped, or exceeds a restart budget;
`Change` says so about one component and `Nested` about all of them. The recursion ends
because every spawn takes a component out of the waiting ones.
-/

namespace MsysCore.Native.Supervisor

open Runs

variable {plan : RuntimePlan} {env : Environment} {s t s' : Supervisor} {index : ℕ}

/-! ## One component -/

/-- Stopped for good: no process, or one whose exit will find the request to stop. -/
def Parked (r : ComponentRuntime) : Prop :=
  (r.state = .stopped ∧ r.pid = none) ∨ (r.state = .stopping ∧ r.manualStop = true)

/-- The restarts so far fit the budget, each with the delay of its number. -/
structure BudgetOk (component : ComponentPlan) (r : ComponentRuntime) : Prop where
  counted : r.restarts.length = r.restartCount
  bounded : r.restartCount ≤ component.restartLimit
  delays : ∀ k d, r.restarts[k]? = some d →
    d = min component.backoffMaxMs (component.backoffInitialMs * 2 ^ k)

theorem BudgetOk.of_same {component : ComponentPlan} {r r' : ComponentRuntime}
    (hok : BudgetOk component r) (hrestarts : r'.restarts = r.restarts)
    (hcount : r'.restartCount = r.restartCount) : BudgetOk component r' where
  counted := by rw [hrestarts, hcount, hok.counted]
  bounded := by
    rw [hcount]
    exact hok.bounded
  delays := by
    rw [hrestarts]
    exact hok.delays

structure Change (component : ComponentPlan) (r r' : ComponentRuntime) : Prop where
  waiting : r'.state = .waiting → r.state = .waiting
  parked : Parked r → Parked r' ∧ r'.generation = r.generation
  budget : component.backoffInitialMs ≤ component.backoffMaxMs → BudgetOk component r →
    BudgetOk component r'

theorem Change.refl (component : ComponentPlan) (r : ComponentRuntime) : Change component r r :=
  ⟨id, fun h => ⟨h, rfl⟩, fun _ h => h⟩

theorem Change.trans {component : ComponentPlan} {r r' r'' : ComponentRuntime}
    (h : Change component r r') (h' : Change component r' r'') : Change component r r'' where
  waiting hwait := h.waiting (h'.waiting hwait)
  parked hparked := by
    obtain ⟨hmid, hgen⟩ := h.parked hparked
    obtain ⟨hend, hgen'⟩ := h'.parked hmid
    exact ⟨hend, hgen'.trans hgen⟩
  budget hb hok := h'.budget hb (h.budget hb hok)

/-- A change that leaves the restarts alone. -/
theorem Change.of_same {component : ComponentPlan} {r r' : ComponentRuntime}
    (hrestarts : r'.restarts = r.restarts) (hcount : r'.restartCount = r.restartCount)
    (hwaiting : r'.state = .waiting → r.state = .waiting)
    (hparked : Parked r → Parked r' ∧ r'.generation = r.generation) : Change component r r' where
  waiting := hwaiting
  parked := hparked
  budget _ hok := hok.of_same hrestarts hcount

/-- What the router and the broker may do to a component: its process can be on its way out
afterwards, apart from that only timers, calls in flight and the readiness change. -/
structure Touch (r r' : ComponentRuntime) : Prop where
  pid : r'.pid = r.pid
  generation : r'.generation = r.generation
  startSequence : r'.startSequence = r.startSequence
  restartCount : r'.restartCount = r.restartCount
  restartTimer : r'.restartTimer = r.restartTimer
  manualStop : r'.manualStop = r.manualStop
  restarts : r'.restarts = r.restarts
  state : r'.state = r.state ∨
    (r.pid.isSome = true ∧ r.state ≠ .stopping ∧ r'.state = .stopping)

theorem Touch.refl (r : ComponentRuntime) : Touch r r :=
  ⟨rfl, rfl, rfl, rfl, rfl, rfl, rfl, Or.inl rfl⟩

theorem Touch.trans {r r' r'' : ComponentRuntime} (h : Touch r r') (h' : Touch r' r'') :
    Touch r r'' where
  pid := h'.pid.trans h.pid
  generation := h'.generation.trans h.generation
  startSequence := h'.startSequence.trans h.startSequence
  restartCount := h'.restartCount.trans h.restartCount
  restartTimer := h'.restartTimer.trans h.restartTimer
  manualStop := h'.manualStop.trans h.manualStop
  restarts := h'.restarts.trans h.restarts
  state := by
    rcases h.state with hsame | ⟨hpid, hstate, hstopping⟩
    · have hlast := h'.state
      rw [hsame, h.pid] at hlast
      exact hlast
    · rcases h'.state with hsame | ⟨-, hne, -⟩
      · exact Or.inr ⟨hpid, hstate, hsame.trans hstopping⟩
      · exact absurd hstopping hne

/-- A component with a running process that nobody has stopped yet. -/
theorem not_parked_of_running {r : ComponentRuntime} (hpid : r.pid.isSome = true)
    (hstate : r.state ≠ .stopping) : ¬ Parked r := by
  rintro (⟨-, h⟩ | ⟨h, -⟩)
  · rw [h] at hpid
    cases hpid
  · exact hstate h

theorem not_parked_of_state {r : ComponentRuntime} {state : RuntimeState} (h : r.state = state)
    (hstopped : state ≠ .stopped) (hstopping : state ≠ .stopping) : ¬ Parked r := by
  rintro (⟨hstate, -⟩ | ⟨hstate, -⟩)
  · exact hstopped (h.symm.trans hstate)
  · exact hstopping (h.symm.trans hstate)

theorem not_parked_starting {r : ComponentRuntime} (h : r.state = .starting) : ¬ Parked r :=
  not_parked_of_state h (by decide) (by decide)

theorem Touch.change {r r' : ComponentRuntime} (h : Touch r r') (component : ComponentPlan) :
    Change component r r' := by
  apply Change.of_same h.restarts h.restartCount
  · intro hwait
    rcases h.state with hsame | ⟨-, -, hstopping⟩
    · exact hsame.symm.trans hwait
    · rw [hstopping] at hwait
      cases hwait
  · intro hparked
    refine ⟨?_, h.generation⟩
    rcases h.state with hsame | ⟨hpid, hstate, -⟩
    · unfold Parked
      rw [hsame, h.pid, h.manualStop]
      exact hparked
    · exact absurd hparked (not_parked_of_running hpid hstate)

theorem Touch.blocks {r r' : ComponentRuntime} (h : Touch r r') (hblocks : r.state.blocks = true) :
    r'.state.blocks = true := by
  rcases h.state with hsame | ⟨-, -, hstopping⟩
  · rw [hsame]
    exact hblocks
  · rw [hstopping]
    rfl

theorem Touch.state_of_pidless {r r' : ComponentRuntime} (h : Touch r r') (hpid : r.pid = none) :
    r'.state = r.state := by
  rcases h.state with hsame | ⟨hsome, -⟩
  · exact hsame
  · rw [hpid] at hsome
    cases hsome

/-! ## All components -/

structure Touches (s s' : Supervisor) : Prop where
  touch : ∀ i, Touch (s.runtime i) (s'.runtime i)
  frame : s' = { s with runtime := s'.runtime }

theorem Touches.refl (s : Supervisor) : Touches s s :=
  ⟨fun _ => Touch.refl _, rfl⟩

theorem Touches.trans (h : Touches s t) (h' : Touches t s') : Touches s s' where
  touch i := (h.touch i).trans (h'.touch i)
  frame := by
    rw [h'.frame, h.frame]

theorem Touches.shuttingDown (h : Touches s s') : s'.shuttingDown = s.shuttingDown := by
  rw [h.frame]

theorem Touches.command (h : Touches s s') : s'.command = s.command := by
  rw [h.frame]

theorem Touches.startPending (h : Touches s s') : s'.startPending = s.startPending := by
  rw [h.frame]

structure Nested (plan : RuntimePlan) (s s' : Supervisor) : Prop where
  change : ∀ i, Change (componentPlan plan i) (s.runtime i) (s'.runtime i)
  shuttingDown : s.shuttingDown = true → s'.shuttingDown = true
  command : s'.command = s.command
  startPending : s'.startPending = s.startPending

theorem Nested.refl (s : Supervisor) : Nested plan s s :=
  ⟨fun _ => Change.refl _ _, id, rfl, rfl⟩

theorem Nested.trans (h : Nested plan s t) (h' : Nested plan t s') : Nested plan s s' where
  change i := (h.change i).trans (h'.change i)
  shuttingDown hs := h'.shuttingDown (h.shuttingDown hs)
  command := h'.command.trans h.command
  startPending := h'.startPending.trans h.startPending

theorem Touches.nested (h : Touches s s') : Nested plan s s' where
  change i := (h.touch i).change _
  shuttingDown hs := h.shuttingDown.trans hs
  command := h.command
  startPending := h.startPending

@[simp] theorem update_self (f : ComponentRuntime → ComponentRuntime) :
    (s.update index f).runtime index = f (s.runtime index) := by
  simp [update]

theorem update_ne {i : ℕ} (h : i ≠ index) (f : ComponentRuntime → ComponentRuntime) :
    (s.update index f).runtime i = s.runtime i := by
  simp [update, h]

theorem nested_update {f : ComponentRuntime → ComponentRuntime}
    (h : Change (componentPlan plan index) (s.runtime index) (f (s.runtime index))) :
    Nested plan s (s.update index f) where
  change i := by
    by_cases hi : i = index
    · subst hi
      rw [update_self]
      exact h
    · rw [update_ne hi]
      exact Change.refl _ _
  shuttingDown := id
  command := rfl
  startPending := rfl

theorem touches_update {f : ComponentRuntime → ComponentRuntime}
    (h : Touch (s.runtime index) (f (s.runtime index))) : Touches s (s.update index f) where
  touch i := by
    by_cases hi : i = index
    · subst hi
      rw [update_self]
      exact h
    · rw [update_ne hi]
      exact Touch.refl _
  frame := rfl

theorem armIdleTimeout_touches (s : Supervisor) (index : ℕ) :
    Touches s (armIdleTimeout plan s index) := by
  unfold armIdleTimeout
  apply touches_update
  exact ⟨rfl, rfl, rfl, rfl, rfl, rfl, rfl, Or.inl rfl⟩

theorem markFailed_touch {r : ComponentRuntime} (hpid : r.pid.isSome = true)
    (hstate : r.state ≠ .stopping) : Touch r (markFailed r) :=
  ⟨rfl, rfl, rfl, rfl, rfl, rfl, rfl, Or.inr ⟨hpid, hstate, rfl⟩⟩

variable (plan) in
theorem applyEffect_touches (s : Supervisor) (effect : RouterEffect) :
    Touches s (applyEffect plan s effect) := by
  cases effect with
  | lost index =>
    unfold applyEffect
    simp only
    split_ifs with h
    · obtain ⟨-, hpid, hstate⟩ := h
      apply touches_update
      apply markFailed_touch hpid
      rcases hstate with hstate | hstate <;> rw [hstate] <;> decide
    · exact Touches.refl s
  | busy index =>
    unfold applyEffect
    apply touches_update
    exact ⟨rfl, rfl, rfl, rfl, rfl, rfl, rfl, Or.inl rfl⟩
  | idle index =>
    unfold applyEffect
    simp only
    split_ifs
    · exact Touches.refl s
    · apply Touches.trans _ (armIdleTimeout_touches _ index)
      apply touches_update
      exact ⟨rfl, rfl, rfl, rfl, rfl, rfl, rfl, Or.inl rfl⟩
  | activity index => exact armIdleTimeout_touches s index

variable (plan) in
theorem applyEffects_touches (s : Supervisor) (effects : List RouterEffect) :
    Touches s (applyEffects plan s effects) := by
  unfold applyEffects
  induction effects generalizing s with
  | nil => exact Touches.refl s
  | cons effect effects ih => exact (applyEffect_touches plan s effect).trans (ih _)

variable (plan) in
/-- Only its own loss makes a component stop. -/
theorem applyEffect_unlost (s : Supervisor) {effect : RouterEffect} (h : effect ≠ .lost index) :
    ((applyEffect plan s effect).runtime index).state = (s.runtime index).state ∧
      ((applyEffect plan s effect).runtime index).readinessFailed
        = (s.runtime index).readinessFailed := by
  cases effect with
  | lost other =>
    have hne : index ≠ other := by
      rintro rfl
      exact h rfl
    unfold applyEffect
    simp only
    split_ifs
    · rw [update_ne hne]
      exact ⟨rfl, rfl⟩
    · exact ⟨rfl, rfl⟩
  | busy other =>
    by_cases hi : index = other <;> simp [applyEffect, update, hi]
  | idle other =>
    unfold applyEffect
    simp only
    split_ifs
    · exact ⟨rfl, rfl⟩
    · by_cases hi : index = other <;> simp [armIdleTimeout, update, hi]
  | activity other =>
    by_cases hi : index = other <;> simp [applyEffect, armIdleTimeout, update, hi]

variable (plan) in
theorem applyEffects_unlost {effects : List RouterEffect} :
    ∀ s : Supervisor, .lost index ∉ effects →
      ((applyEffects plan s effects).runtime index).state = (s.runtime index).state ∧
        ((applyEffects plan s effects).runtime index).readinessFailed
          = (s.runtime index).readinessFailed := by
  induction effects with
  | nil => exact fun _ _ => ⟨rfl, rfl⟩
  | cons effect effects ih =>
    intro s h
    rw [List.mem_cons, not_or] at h
    obtain ⟨hstate, hfailed⟩ := applyEffect_unlost plan s (Ne.symm h.1)
    obtain ⟨hstate', hfailed'⟩ := ih (applyEffect plan s effect) h.2
    exact ⟨hstate'.trans hstate, hfailed'.trans hfailed⟩

theorem failRunningComponent_touches (s : Supervisor) (index : ℕ) :
    Touches s (failRunningComponent plan env s index) := by
  unfold failRunningComponent
  simp only
  split_ifs with h
  · exact Touches.refl s
  · rw [not_or, Option.isNone_iff_eq_none, ← ne_eq, Option.ne_none_iff_isSome] at h
    exact (touches_update (markFailed_touch h.1 h.2)).trans (applyEffects_touches _ _ _)

/-! ## Shutdown -/

theorem stopNext_nested (order : List ℕ) :
    ∀ s : Supervisor, Nested plan s (stopNext plan env s order) := by
  induction order with
  | nil => exact fun s => ⟨fun i => Change.refl _ _, id, rfl, rfl⟩
  | cons index rest ih =>
    intro s
    unfold stopNext
    split_ifs with h
    · exact ih s
    · rw [Option.isNone_iff_eq_none, ← ne_eq, Option.ne_none_iff_isSome] at h
      have hrest : Nested plan s { s with stopOrder := rest, stoppingIndex := some index } :=
        ⟨fun i => Change.refl _ _, id, rfl, rfl⟩
      refine (hrest.trans (nested_update ?_)).trans (applyEffects_touches _ _ _).nested
      apply Change.of_same
      · rfl
      · rfl
      · intro hwait
        cases hwait
      · rintro (⟨-, hpid⟩ | hparked)
        · rw [hpid] at h
          cases h
        · exact ⟨Or.inr ⟨rfl, hparked.2⟩, rfl⟩

theorem haltRuntime_change (component : ComponentPlan) (r : ComponentRuntime) :
    Change component r (haltRuntime r) := by
  apply Change.of_same
  · rfl
  · rfl
  · intro h
    unfold haltRuntime at h
    simp only at h
    split_ifs at h
    exact h
  · intro h
    refine ⟨?_, rfl⟩
    unfold haltRuntime
    rcases h with ⟨hstate, hpid⟩ | ⟨hstate, hstop⟩
    · exact Or.inl ⟨by simp [hstate, hpid], hpid⟩
    · by_cases hpid : r.pid.isNone
      · exact Or.inl ⟨by simp [hstate, hpid], Option.isNone_iff_eq_none.mp hpid⟩
      · exact Or.inr ⟨by simp [hstate, hpid], hstop⟩

theorem beginShutdown_nested (s : Supervisor) (code : ℕ) :
    Nested plan s (beginShutdown plan env s code) := by
  unfold beginShutdown
  split_ifs with hdown
  · exact ⟨fun i => Change.refl _ _, id, rfl, rfl⟩
  · exact Nested.refl s
  · have hhalt : Nested plan s
        { s with
          shuttingDown := true
          exitCode := code
          runtime := fun i => haltRuntime (s.runtime i) } :=
      ⟨fun i => haltRuntime_change _ _, fun _ => rfl, rfl, rfl⟩
    exact hhalt.trans (stopNext_nested _ _)

theorem beginShutdown_shuttingDown (s : Supervisor) (code : ℕ) :
    (beginShutdown plan env s code).shuttingDown = true := by
  unfold beginShutdown
  split_ifs with hdown
  · exact hdown
  · exact hdown
  · exact (stopNext_nested _ _).shuttingDown rfl

/-! ## Restarts -/

/-- The iterated clamp is the clamp of the power. -/
theorem delayAfter_eq {component : ComponentPlan} (steps : ℕ) :
    ∀ {delay : ℕ}, delay ≤ component.backoffMaxMs →
      delayAfter component steps delay = min component.backoffMaxMs (delay * 2 ^ steps) := by
  induction steps with
  | zero =>
    intro delay h
    simp [delayAfter, h]
  | succ steps ih =>
    intro delay h
    rw [delayAfter, ih (Nat.min_le_left _ _), pow_succ, mul_comm (2 ^ steps) 2, ← mul_assoc]
    rcases Nat.le_total component.backoffMaxMs (delay * 2) with hle | hle
    · have hpow : component.backoffMaxMs ≤ component.backoffMaxMs * 2 ^ steps :=
        Nat.le_mul_of_pos_right _ (Nat.two_pow_pos steps)
      have hpow' : component.backoffMaxMs ≤ delay * 2 * 2 ^ steps :=
        hpow.trans (Nat.mul_le_mul_right _ hle)
      rw [Nat.min_eq_left hle, Nat.min_eq_left hpow, Nat.min_eq_left hpow']
    · rw [Nat.min_eq_right hle]

theorem countRestart_budget {component : ComponentPlan} {r : ComponentRuntime}
    (hbackoff : component.backoffInitialMs ≤ component.backoffMaxMs) (hok : BudgetOk component r)
    (hlimit : r.restartCount < component.restartLimit) :
    BudgetOk component (countRestart component r) where
  counted := by simp [countRestart, hok.counted]
  bounded := hlimit
  delays := by
    intro k d hd
    rw [countRestart, List.getElem?_append] at hd
    split_ifs at hd with hk
    · exact hok.delays k d hd
    · obtain ⟨hlen, hd⟩ := List.getElem?_eq_some_iff.mp hd
      simp only [List.length_singleton, Nat.lt_one_iff] at hlen
      have hk' : k = r.restartCount := by
        have := hok.counted
        omega
      simp only [hlen, List.getElem_cons_zero] at hd
      rw [← hd, restartDelay, Nat.add_sub_cancel, hk', delayAfter_eq _ hbackoff]

/-- What `schedule_or_fail` makes of the component. -/
def settle (component : ComponentPlan) (timer failed : Bool) (r : ComponentRuntime) :
    ComponentRuntime :=
  if mayRestart component r failed then
    let r := countRestart component r
    if timer then { r with restartTimer := some r.generation } else { r with state := .failed }
  else { r with state := if failed then .failed else .stopped }

/-- Whether `schedule_or_fail` ends the supervisor. -/
def endsSupervisor (component : ComponentPlan) (timer failed : Bool) (r : ComponentRuntime) : Bool :=
  if mayRestart component r failed then !timer else component.critical

theorem update_update (f g : ComponentRuntime → ComponentRuntime) :
    (s.update index f).update index g = s.update index fun r => g (f r) := by
  unfold update
  simp only [Supervisor.mk.injEq, and_true]
  funext i
  by_cases hi : i = index
  · simp [hi]
  · simp [hi]

theorem update_congr {f g : ComponentRuntime → ComponentRuntime}
    (h : f (s.runtime index) = g (s.runtime index)) : s.update index f = s.update index g := by
  unfold update
  simp only [Supervisor.mk.injEq, and_true]
  funext i
  by_cases hi : i = index
  · simp [hi, h]
  · simp [hi]

/-- `schedule_or_fail` up to a shutdown. -/
def settleAt (plan : RuntimePlan) (env : Environment) (s : Supervisor) (index : ℕ)
    (failed : Bool) : Supervisor :=
  s.update index (settle (componentPlan plan index) (env.timer index) failed)

variable (plan env s index) in
theorem scheduleOrFail_eq (failed : Bool) :
    ∃ code, scheduleOrFail plan env s index failed =
      if endsSupervisor (componentPlan plan index) (env.timer index) failed (s.runtime index) then
        beginShutdown plan env (settleAt plan env s index failed) code
      else settleAt plan env s index failed := by
  unfold scheduleOrFail endsSupervisor settleAt
  simp only
  by_cases hmay : mayRestart (componentPlan plan index) (s.runtime index) failed
  · refine ⟨internalSupervisorExit, ?_⟩
    simp only [if_pos hmay, update_update]
    cases htimer : env.timer index with
    | true =>
      simp only [if_true, Bool.not_true, Bool.false_eq_true, if_false]
      apply update_congr
      simp [settle, hmay]
    | false =>
      simp only [if_true, Bool.not_false, Bool.false_eq_true, if_false]
      apply congrArg fun t => beginShutdown plan env t internalSupervisorExit
      apply update_congr
      simp [settle, hmay]
  · refine ⟨terminalComponentExit, ?_⟩
    have hsettle : (s.update index fun r => { r with state := if failed then .failed else .stopped })
        = s.update index (settle (componentPlan plan index) (env.timer index) failed) := by
      apply update_congr
      simp only [settle, if_neg hmay]
    rw [if_neg hmay, if_neg hmay, hsettle]

theorem settle_waiting {component : ComponentPlan} {timer failed : Bool} {r : ComponentRuntime} :
    (settle component timer failed r).state ≠ .waiting := by
  unfold settle countRestart
  cases mayRestart component r failed <;> cases timer <;> cases failed <;> simp

theorem settle_budget {component : ComponentPlan} {timer failed : Bool} {r : ComponentRuntime}
    (hbackoff : component.backoffInitialMs ≤ component.backoffMaxMs) (hok : BudgetOk component r) :
    BudgetOk component (settle component timer failed r) := by
  unfold settle
  by_cases hmay : mayRestart component r failed
  · rw [if_pos hmay]
    rw [mayRestart, Bool.and_eq_true, decide_eq_true_eq] at hmay
    have hcount := countRestart_budget hbackoff hok hmay.2
    simp only
    split_ifs
    · exact hcount.of_same rfl rfl
    · exact hcount.of_same rfl rfl
  · rw [if_neg hmay]
    exact hok.of_same rfl rfl

theorem settle_change {component : ComponentPlan} {timer failed : Bool} {r : ComponentRuntime}
    (h : ¬ Parked r) : Change component r (settle component timer failed r) where
  waiting hwait := absurd hwait settle_waiting
  parked hparked := absurd hparked h
  budget hbackoff hok := settle_budget hbackoff hok

theorem scheduleOrFail_of_settleAt {failed : Bool} :
    Nested plan (settleAt plan env s index failed) (scheduleOrFail plan env s index failed) := by
  obtain ⟨code, heq⟩ := scheduleOrFail_eq plan env s index failed
  rw [heq]
  split_ifs
  · exact beginShutdown_nested _ _
  · exact Nested.refl _

theorem scheduleOrFail_nested {failed : Bool} (h : ¬ Parked (s.runtime index)) :
    Nested plan s (scheduleOrFail plan env s index failed) :=
  (nested_update (settle_change h)).trans scheduleOrFail_of_settleAt

/-! ## Starting components -/

theorem handleSpawnFailure_nested (h : (s.runtime index).state = .starting) :
    Nested plan s (handleSpawnFailure plan env s index) := by
  unfold handleSpawnFailure
  simp only
  have hupdate : Nested plan s (s.update index fun r =>
      { r with pid := none, readinessFailed := true, idleTimer := none }) := by
    apply nested_update
    apply Change.of_same
    · rfl
    · rfl
    · exact id
    · intro hparked
      exact absurd hparked (not_parked_starting h)
  have heffects := applyEffects_touches plan (s.update index fun r =>
    { r with pid := none, readinessFailed := true, idleTimer := none }) (env.unavailable index)
  apply (hupdate.trans heffects.nested).trans (scheduleOrFail_nested _)
  apply not_parked_starting
  rw [(heffects.touch index).state_of_pidless, update_self]
  · exact h
  · rw [update_self]

theorem markStarting_nested (h : (s.runtime index).state = .waiting) :
    Nested plan s (markStarting s index) where
  change i := by
    by_cases hi : i = index
    · subst hi
      rw [markStarting, update_self]
      apply Change.of_same
      · rfl
      · rfl
      · intro hwait
        cases hwait
      · intro hparked
        exact absurd hparked (not_parked_of_state h (by decide) (by decide))
    · rw [markStarting, update_ne hi]
      exact Change.refl _ _
  shuttingDown := id
  command := rfl
  startPending := rfl

theorem setState_change {component : ComponentPlan} {r : ComponentRuntime} {state : RuntimeState}
    (hstate : state ≠ .waiting) (h : ¬ Parked r) : Change component r { r with state := state } := by
  apply Change.of_same
  · rfl
  · rfl
  · intro hwait
    exact absurd hwait hstate
  · intro hparked
    exact absurd hparked h

section Again

variable {again : Supervisor → Supervisor} (hagain : ∀ s, Nested plan s (again s))
include hagain

theorem markReady_nested (s : Supervisor) (index generation : ℕ) :
    Nested plan s (markReady plan env again s index generation) := by
  unfold markReady
  simp only
  split_ifs with h
  · exact Nested.refl s
  · rw [not_or, not_not, not_not] at h
    have hready : Nested plan s (s.update index fun r => { r with state := .ready }) :=
      nested_update (setState_change (by decide) (not_parked_starting h.2))
    apply ((hready.trans (applyEffects_touches _ _ _).nested).trans
      (armIdleTimeout_touches _ index).nested).trans (hagain _)

/-- What follows the first update of a spawn. -/
theorem spawnComponent_nested (env : Environment) (index : ℕ) (hdown : s.shuttingDown = false) :
    Nested plan (markStarting s index) (spawnComponent plan env again s index) := by
  have hstarting : ((markStarting s index).runtime index).state = .starting := by
    simp [markStarting]
  have hpid (pid : ℕ) : Nested plan (markStarting s index)
      ((markStarting s index).update index fun r => { r with pid := some pid }) := by
    apply nested_update
    apply Change.of_same
    · rfl
    · rfl
    · exact id
    · intro hparked
      exact absurd hparked (not_parked_starting hstarting)
  unfold spawnComponent
  simp only [hdown, Bool.false_eq_true, if_false]
  cases env.spawn (markStarting s index).startSequence with
  | refused => exact handleSpawnFailure_nested hstarting
  | launched pid watched =>
    simp only
    split_ifs
    · exact (hpid pid).trans (markReady_nested hagain _ _ _)
    · exact hpid pid
    · exact (hpid pid).trans (failRunningComponent_touches _ _).nested

theorem startRound_nested (env : Environment) (order : List ℕ) :
    ∀ (s : Supervisor) (changed : Bool), s.shuttingDown = false →
      Nested plan s (startRound plan env again order s changed).1 := by
  induction order with
  | nil => exact fun s _ _ => Nested.refl s
  | cons index rest ih =>
    intro s changed hdown
    rw [startRound]
    by_cases heligible : eligible plan s index
    · rw [if_pos heligible]
      simp only [eligible, Bool.and_eq_true, decide_eq_true_eq] at heligible
      have hspawn := (markStarting_nested heligible.1).trans
        (spawnComponent_nested hagain env index hdown)
      simp only
      split_ifs with hafter
      · exact hspawn
      · exact hspawn.trans (ih _ true (Bool.eq_false_iff.mpr hafter))
    · rw [if_neg heligible]
      exact ih s changed hdown

end Again

variable (plan env) in
theorem startEligibleFuel_nested (fuel : ℕ) :
    ∀ s : Supervisor, Nested plan s (startEligibleFuel plan env fuel s) := by
  induction fuel with
  | zero => exact Nested.refl
  | succ fuel ih =>
    intro s
    rw [startEligibleFuel]
    split_ifs with hdown
    · exact Nested.refl s
    · have hround := startRound_nested ih env (List.range plan.components.length) s false
        (Bool.eq_false_iff.mpr hdown)
      simp only
      split_ifs
      · exact hround.trans (ih _)
      · exact hround

theorem startEligible_nested (s : Supervisor) : Nested plan s (startEligible plan env s) :=
  startEligibleFuel_nested _ _ _ s

variable (plan env) in
theorem markReady_startEligible_nested (s : Supervisor) (index generation : ℕ) :
    Nested plan s (markReady plan env (startEligible plan env) s index generation) :=
  markReady_nested startEligible_nested s index generation

variable (plan env) in
theorem readinessEvent_nested (s : Supervisor) (index generation : ℕ) (ready : Bool) :
    Nested plan s (readinessEvent plan env s index generation ready) := by
  unfold readinessEvent
  simp only
  split_ifs
  · exact Nested.refl s
  · exact markReady_startEligible_nested plan env s index generation
  · exact (failRunningComponent_touches s index).nested

variable (plan env) in
theorem brokerComponentReady_nested (s : Supervisor) (component : Bytes) (generation : ℕ) :
    Nested plan s (brokerComponentReady plan env s component generation) := by
  unfold brokerComponentReady
  cases componentIndex plan component with
  | none => exact Nested.refl s
  | some index =>
    simp only
    split_ifs
    · exact Nested.refl s
    · exact markReady_startEligible_nested plan env s index generation

variable (plan env) in
theorem brokerComponentDisconnected_nested (s : Supervisor) (component : Bytes)
    (generation : ℕ) :
    Nested plan s (brokerComponentDisconnected plan env s component generation) := by
  unfold brokerComponentDisconnected
  cases componentIndex plan component with
  | none => exact Nested.refl s
  | some index =>
    simp only
    split_ifs
    · exact (failRunningComponent_touches s index).nested
    · exact Nested.refl s

/-! ## The measure -/

/-- The components of the plan that wait. -/
def waiting (plan : RuntimePlan) (s : Supervisor) : Finset ℕ :=
  (Finset.range plan.components.length).filter fun i => (s.runtime i).state = .waiting

theorem mem_waiting {i : ℕ} :
    i ∈ waiting plan s ↔ i < plan.components.length ∧ (s.runtime i).state = .waiting := by
  rw [waiting, Finset.mem_filter, Finset.mem_range]

theorem Nested.waiting_subset (h : Nested plan s s') : waiting plan s' ⊆ waiting plan s := by
  intro i hi
  rw [mem_waiting] at hi ⊢
  exact ⟨hi.1, (h.change i).waiting hi.2⟩

theorem card_waiting_le (s : Supervisor) : (waiting plan s).card ≤ plan.components.length := by
  have h := Finset.card_filter_le (Finset.range plan.components.length)
    fun i => (s.runtime i).state = .waiting
  rw [Finset.card_range] at h
  exact h

theorem eligible_waiting (h : eligible plan s index = true) :
    (s.runtime index).state = .waiting := by
  rw [eligible, Bool.and_eq_true, decide_eq_true_eq] at h
  exact h.1

section Again

variable {again : Supervisor → Supervisor} (hagain : ∀ s, Nested plan s (again s))
include hagain

/-- A spawn takes its component out of the waiting ones. -/
theorem spawnComponent_card_lt (env : Environment) (hdown : s.shuttingDown = false)
    (hindex : index < plan.components.length) (heligible : eligible plan s index = true) :
    (waiting plan (spawnComponent plan env again s index)).card < (waiting plan s).card := by
  have hwaiting := eligible_waiting heligible
  have hspawn := spawnComponent_nested hagain env index hdown
  apply Finset.card_lt_card
  rw [Finset.ssubset_iff_of_subset
    ((markStarting_nested hwaiting).trans hspawn).waiting_subset]
  refine ⟨index, mem_waiting.mpr ⟨hindex, hwaiting⟩, ?_⟩
  intro hmem
  have hstarting := (mem_waiting.mp (hspawn.waiting_subset hmem)).2
  rw [markStarting, update_self] at hstarting
  cases hstarting

/-- A round ends in a shutdown, finds nothing to start, or starts something. -/
theorem startRound_cases (env : Environment) (order : List ℕ)
    (horder : ∀ i ∈ order, i < plan.components.length) :
    ∀ (s : Supervisor) (changed : Bool), s.shuttingDown = false →
      (startRound plan env again order s changed).1.shuttingDown = true ∨
      (startRound plan env again order s changed = (s, changed) ∧
        ∀ i ∈ order, eligible plan s i = false) ∨
      ((startRound plan env again order s changed).2 = true ∧
        (waiting plan (startRound plan env again order s changed).1).card
          < (waiting plan s).card) := by
  induction order with
  | nil =>
    intro s changed _
    exact Or.inr (Or.inl ⟨rfl, by simp⟩)
  | cons index rest ih =>
    intro s changed hdown
    rw [startRound]
    have hrest : ∀ i ∈ rest, i < plan.components.length :=
      fun i hi => horder i (List.mem_cons_of_mem _ hi)
    by_cases heligible : eligible plan s index
    · rw [if_pos heligible]
      have hcard := spawnComponent_card_lt hagain env hdown
        (horder index List.mem_cons_self) heligible
      simp only
      by_cases hafter : (spawnComponent plan env again s index).shuttingDown
      · rw [if_pos hafter]
        exact Or.inl hafter
      · rw [if_neg hafter]
        rcases ih hrest _ true (Bool.eq_false_iff.mpr hafter) with hend | ⟨hsame, -⟩ | ⟨hflag, hlt⟩
        · exact Or.inl hend
        · rw [hsame]
          exact Or.inr (Or.inr ⟨rfl, hcard⟩)
        · exact Or.inr (Or.inr ⟨hflag, hlt.trans hcard⟩)
    · rw [if_neg heligible]
      rcases ih hrest s changed hdown with hend | ⟨hsame, hidle⟩ | hspawned
      · exact Or.inl hend
      · refine Or.inr (Or.inl ⟨hsame, ?_⟩)
        intro i hi
        rcases List.mem_cons.mp hi with rfl | hi
        · exact Bool.eq_false_iff.mpr heligible
        · exact hidle i hi
      · exact Or.inr (Or.inr hspawned)

end Again

/-- Nothing is left to start, unless the supervisor shuts down. -/
def Settled (plan : RuntimePlan) (s : Supervisor) : Prop :=
  s.shuttingDown = true ∨ ∀ i < plan.components.length, eligible plan s i = false

theorem startEligibleFuel_settled (fuel : ℕ) :
    ∀ s : Supervisor, (waiting plan s).card < fuel →
      Settled plan (startEligibleFuel plan env fuel s) := by
  induction fuel with
  | zero =>
    intro s h
    omega
  | succ fuel ih =>
    intro s hfuel
    rw [startEligibleFuel]
    by_cases hdown : s.shuttingDown
    · rw [if_pos hdown]
      exact Or.inl hdown
    · rw [if_neg hdown]
      simp only
      rcases startRound_cases (startEligibleFuel_nested plan env fuel) env
          (List.range plan.components.length) (fun i hi => List.mem_range.mp hi) s false
          (Bool.eq_false_iff.mpr hdown) with hend | ⟨hsame, hidle⟩ | ⟨hflag, hlt⟩
      · rw [hend, Bool.not_true, Bool.and_false, if_neg Bool.false_ne_true]
        exact Or.inl hend
      · rw [hsame, Bool.false_and, if_neg Bool.false_ne_true]
        exact Or.inr fun i hi => hidle i (List.mem_range.mpr hi)
      · rw [hflag, Bool.true_and]
        split_ifs with hend
        · apply ih
          omega
        · exact Or.inl (by simpa using hend)

theorem startEligible_settled (s : Supervisor) : Settled plan (startEligible plan env s) :=
  startEligibleFuel_settled _ s (Nat.lt_succ_of_le (card_waiting_le s))

/-! ## Stops and exits -/

/-- What a request to stop changes before it looks at the process. -/
def stopRequested (s : Supervisor) (index : ℕ) : Supervisor :=
  (recordStop s index).update index fun r =>
    { r with manualStop := true, restartTimer := none, idleTimer := none }

theorem stopRequested_other {i : ℕ} (h : i ≠ index) :
    (stopRequested s index).runtime i = s.runtime i :=
  update_ne h _

@[simp] theorem stopRequested_pid :
    ((stopRequested s index).runtime index).pid = (s.runtime index).pid := by
  rw [stopRequested, update_self]
  rfl

@[simp] theorem stopRequested_state {i : ℕ} :
    ((stopRequested s index).runtime i).state = (s.runtime i).state := by
  by_cases hi : i = index
  · rw [hi, stopRequested, update_self]
    rfl
  · rw [stopRequested_other hi]

theorem stopIndex_eq : stopIndex plan env s index =
    if (s.runtime index).pid.isNone then
      (stopRequested s index).update index fun r => { r with state := .stopped }
    else if (s.runtime index).state = .stopping then stopRequested s index
    else
      applyEffects plan
        ((stopRequested s index).update index fun r => { r with state := .stopping })
        (env.unavailable index) := by
  rw [← stopRequested_pid, ← stopRequested_state]
  rfl

/-- The state in which `on_child_exit` decides what becomes of the component, but for the
process. -/
def exitState (plan : RuntimePlan) (env : Environment) (s : Supervisor) (index : ℕ) : Supervisor :=
  applyEffects plan (s.update index fun r => { r with idleTimer := none }) (exitEffects env index)

def exited (plan : RuntimePlan) (env : Environment) (s : Supervisor) (index : ℕ) : Supervisor :=
  ((exitState plan env s index).setStartPending index false).update index fun r =>
    { r with pid := none, inflightCalls := 0 }

/-- The end of its process leaves the component stopped or failed, and the supervisor running. -/
def endsForGood (component : ComponentPlan) (r : ComponentRuntime) (failed : Bool) : Bool :=
  r.manualStop ||
    (!mayRestart component r (r.readinessFailed || failed) && !component.critical)

variable (plan env) in
theorem exitState_touches (s : Supervisor) (index : ℕ) :
    Touches s (exitState plan env s index) := by
  apply Touches.trans _ (applyEffects_touches plan _ _)
  apply touches_update
  exact ⟨rfl, rfl, rfl, rfl, rfl, rfl, rfl, Or.inl rfl⟩

variable (plan env s index) in
theorem exitState_self :
    ((exitState plan env s index).runtime index).state = (s.runtime index).state ∧
      ((exitState plan env s index).runtime index).readinessFailed
        = (s.runtime index).readinessFailed := by
  have hunlost : .lost index ∉ exitEffects env index := by
    simp [exitEffects]
  have h := applyEffects_unlost plan
    (s.update index fun r => { r with idleTimer := none }) hunlost
  rw [update_self] at h
  exact h

theorem exited_other {i : ℕ} (h : i ≠ index) :
    (exited plan env s index).runtime i = (exitState plan env s index).runtime i :=
  update_ne h _

variable (plan env s index) in
theorem exited_shuttingDown : (exited plan env s index).shuttingDown = s.shuttingDown :=
  (exitState_touches plan env s index).shuttingDown

variable (plan env s index) in
/-- What the exit leaves of the component. -/
theorem exited_self :
    let r := (exited plan env s index).runtime index
    r.pid = none ∧ r.state = (s.runtime index).state ∧
      r.generation = (s.runtime index).generation ∧
      r.manualStop = (s.runtime index).manualStop ∧
      r.readinessFailed = (s.runtime index).readinessFailed ∧
      r.restartCount = (s.runtime index).restartCount ∧
      r.restarts = (s.runtime index).restarts := by
  have htouch := (exitState_touches plan env s index).touch index
  have hself := exitState_self plan env s index
  rw [exited, update_self]
  exact ⟨rfl, hself.1, htouch.generation, htouch.manualStop, hself.2, htouch.restartCount,
    htouch.restarts⟩

theorem mayRestart_congr {component : ComponentPlan} {r r' : ComponentRuntime} {failed : Bool}
    (h : r'.restartCount = r.restartCount) :
    mayRestart component r' failed = mayRestart component r failed := by
  rw [mayRestart, mayRestart, h]

/-- The exit of the process that the supervisor waits for. -/
theorem onChildExit_eq {generation pid : ℕ} {failed : Bool}
    (hgeneration : (s.runtime index).generation = generation)
    (hpid : (s.runtime index).pid = some pid) :
    onChildExit plan env s index generation pid failed =
      if s.shuttingDown then
        let t := (exited plan env s index).update index fun r => { r with state := .stopped }
        if t.stoppingIndex = some index then
          stopNext plan env { t with stoppingIndex := none } t.stopOrder
        else t
      else if (s.runtime index).manualStop then
        (exited plan env s index).update index fun r =>
          { r with manualStop := false, readinessFailed := false, state := .stopped }
      else
        scheduleOrFail plan env
          ((exited plan env s index).update index fun r => { r with readinessFailed := false })
          index ((s.runtime index).readinessFailed || failed) := by
  obtain ⟨-, -, -, hmanual, hfailed, -⟩ := exited_self plan env s index
  rw [← exited_shuttingDown plan env s index, ← hmanual, ← hfailed]
  unfold onChildExit
  simp only
  rw [if_neg (by rw [hgeneration, hpid]; simp)]
  rfl

variable (plan env) in
/-- While the supervisor runs, an exit leaves the component at rest, ends the supervisor, or is
followed by a restart. -/
theorem onChildExit_cases {generation pid : ℕ} (failed : Bool)
    (hgeneration : (s.runtime index).generation = generation)
    (hpid : (s.runtime index).pid = some pid) (hdown : s.shuttingDown = false) :
    (endsForGood (componentPlan plan index) (s.runtime index) failed = true ∧
      ∃ f, onChildExit plan env s index generation pid failed
          = (exited plan env s index).update index f ∧
        ((f ((exited plan env s index).runtime index)).state = .stopped ∨
          (f ((exited plan env s index).runtime index)).state = .failed)) ∨
    (endsForGood (componentPlan plan index) (s.runtime index) failed = false ∧
      ((onChildExit plan env s index generation pid failed).shuttingDown = true ∨
        ∃ f, onChildExit plan env s index generation pid failed
            = (exited plan env s index).update index f ∧
          (f ((exited plan env s index).runtime index)).state = .backoff)) := by
  rw [onChildExit_eq hgeneration hpid, hdown, if_neg Bool.false_ne_true, endsForGood]
  cases hmanual : (s.runtime index).manualStop with
  | true =>
    simp only [if_true, Bool.true_or]
    exact Or.inl ⟨trivial, _, rfl, Or.inl rfl⟩
  | false =>
    rw [if_neg Bool.false_ne_true, Bool.false_or]
    generalize ((s.runtime index).readinessFailed || failed) = anyFailed
    obtain ⟨-, -, -, -, -, hcount, -⟩ := exited_self plan env s index
    obtain ⟨code, hschedule⟩ := scheduleOrFail_eq plan env
      ((exited plan env s index).update index fun r => { r with readinessFailed := false }) index
      anyFailed
    have hmay : mayRestart (componentPlan plan index)
          { (exited plan env s index).runtime index with readinessFailed := false } anyFailed
        = mayRestart (componentPlan plan index) (s.runtime index) anyFailed := mayRestart_congr hcount
    rw [hschedule, endsSupervisor, settleAt, update_self, hmay, update_update]
    cases hrestart : mayRestart (componentPlan plan index) (s.runtime index) anyFailed with
    | true =>
      apply Or.inr
      refine ⟨by simp, ?_⟩
      cases env.timer index with
      | true =>
        apply Or.inr
        simp only [if_true, Bool.not_true, Bool.false_eq_true, if_false]
        refine ⟨_, rfl, ?_⟩
        rw [settle, hmay, hrestart]
        rfl
      | false => exact Or.inl (beginShutdown_shuttingDown _ _)
    | false =>
      cases (componentPlan plan index).critical with
      | true =>
        apply Or.inr
        exact ⟨by simp, Or.inl (beginShutdown_shuttingDown _ _)⟩
      | false =>
        apply Or.inl
        simp only [Bool.false_eq_true, if_false]
        refine ⟨by simp, _, rfl, ?_⟩
        rw [settle, hmay, hrestart]
        cases anyFailed with
        | true => exact Or.inr rfl
        | false => exact Or.inl rfl

theorem onChildExit_unmatched {generation pid : ℕ} {failed : Bool}
    (h : ¬ ((s.runtime index).generation = generation ∧ (s.runtime index).pid = some pid)) :
    onChildExit plan env s index generation pid failed = s := by
  unfold onChildExit
  rw [not_and_or] at h
  exact if_pos h

theorem onChildExit_shuttingDown {generation pid : ℕ} {failed : Bool}
    (hdown : s.shuttingDown = true) :
    (onChildExit plan env s index generation pid failed).shuttingDown = true := by
  by_cases hmatched : (s.runtime index).generation = generation ∧ (s.runtime index).pid = some pid
  · rw [onChildExit_eq hmatched.1 hmatched.2, if_pos hdown]
    have hexited := (exited_shuttingDown plan env s index).trans hdown
    simp only
    split_ifs
    · exact (stopNext_nested _ _).shuttingDown hexited
    · exact hexited
  · rw [onChildExit_unmatched hmatched]
    exact hdown

/-- Every process starts, and no session or timer fails. -/
def calmEnvironment : Environment where
  spawn sequence := .launched (100 + sequence) true
  unavailable _ := []
  ready _ := []
  timer _ := true

end MsysCore.Native.Supervisor
