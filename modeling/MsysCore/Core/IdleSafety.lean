import MsysCore.Core.IdleReaping

/-!
# What idle timers may remove

A timer that has not been cancelled owns the idle task of its instance, and an instance
with an idle task has no call in flight. A call that begins takes the task away and cancels
it in one stretch, so that an expired timer which still waits for the start lock never gets
it.
-/

namespace MsysCore.Core

open Python Runs

namespace Supervisor

variable {s t : Supervisor} {c : ℕ} {key : PyStr} {expected : Option ℕ} {phase : StopPhase}

/-- A stop moves only in its own turns. -/
theorem stopStep_other_calls {l : StopLabel} (hinv : LockInv s)
    (hcall : s.calls c = some (.stop key expected phase))
    (hother : ∀ raises, IdleCore.stopTurn (.stop l) ≠ some (c, raises))
    (h : s.stopStep l = some t) : t.calls c = s.calls c := by
  have hfresh : c ≠ s.nextCall := (hinv.lt_nextCall hcall).ne
  have hne {c' : ℕ} {raises : Bool} (hturn : IdleCore.stopTurn (.stop l) = some (c', raises)) :
      c ≠ c' := by
    rintro rfl
    exact hother raises hturn
  cases stopStep_effect h with
  | enter => exact Function.update_of_ne hfresh _ _
  | retryEnded call => exact Function.update_of_ne (hne rfl) _ _
  | retryCancelled call => exact Function.update_of_ne (hne rfl) _ _
  | suspended call => exact Function.update_of_ne (hne rfl) _ _
  | lockReturns call free => exact Function.update_of_ne (hne rfl) _ _
  | lock call free entry => exact Function.update_of_ne (hne rfl) _ _
  | lockFailed call free entry => exact Function.update_of_ne (hne rfl) _ _
  | terminated call object exited => exact Function.update_of_ne (hne rfl) _ _
  | cancelled call place => exact Function.update_of_ne (hne rfl) _ _
  | abort call => exact Function.update_of_ne (hne rfl) _ _

/-- In its own turn a stop moves on or returns. -/
theorem stopStep_own_call {l : StopLabel} {raises : Bool}
    (hcall : s.calls c = some (.stop key expected phase))
    (hturn : IdleCore.stopTurn (.stop l) = some (c, raises)) (h : s.stopStep l = some t) :
    t.calls c = none ∨ ∃ phase', t.calls c = some (.stop key expected phase') := by
  have hsame {k : PyStr} {e : Option ℕ} {p : StopPhase}
      (h : s.calls c = some (.stop k e p)) : k = key ∧ e = expected := by
    rw [hcall] at h
    cases h
    exact ⟨rfl, rfl⟩
  cases stopStep_effect h with
  | enter => cases hturn
  | retryEnded call =>
    cases hturn
    obtain ⟨rfl, rfl⟩ := hsame call
    exact Or.inr ⟨_, Function.update_self _ _ _⟩
  | retryCancelled call =>
    cases hturn
    exact Or.inl (Function.update_self _ _ _)
  | suspended call =>
    cases hturn
    obtain ⟨rfl, rfl⟩ := hsame call
    exact Or.inr ⟨_, Function.update_self _ _ _⟩
  | lockReturns call free =>
    cases hturn
    exact Or.inl (Function.update_self _ _ _)
  | lock call free entry =>
    cases hturn
    obtain ⟨rfl, rfl⟩ := hsame call
    exact Or.inr ⟨_, Function.update_self _ _ _⟩
  | lockFailed call free entry =>
    cases hturn
    exact Or.inl (Function.update_self _ _ _)
  | terminated call object exited =>
    cases hturn
    exact Or.inl (Function.update_self _ _ _)
  | cancelled call place =>
    cases hturn
    exact Or.inl (Function.update_self _ _ _)
  | abort call =>
    cases hturn
    exact Or.inl (Function.update_self _ _ _)

/-- A stop that expects an instance takes no other one from the table. -/
theorem stopStep_removes {l : StopLabel} {o i : ℕ} {k : PyStr} {raises : Bool}
    (hcall : s.calls c = some (.stop key (some o) phase))
    (hturn : IdleCore.stopTurn (.stop l) = some (c, raises)) (h : s.stopStep l = some t)
    (hbefore : OrderedDict.get s.instances k = some i)
    (hafter : OrderedDict.get t.instances k ≠ some i) : i = o ∧ raises = false := by
  have hsame (hinstances : t.instances = s.instances) : i = o ∧ raises = false := by
    rw [hinstances] at hafter
    exact absurd hbefore hafter
  have htaken {k' : PyStr} {e : Option ℕ} {p : StopPhase} {j : ℕ}
      (h : s.calls c = some (.stop k' e p)) (hentry : OrderedDict.get s.instances k' = some j)
      (hexpects : e = none ∨ e = some j)
      (hinstances : t.instances = OrderedDict.pop s.instances k') : i = o := by
    have hk : k = k' := by
      by_contra hne
      rw [hinstances, OrderedDict.get_pop_ne hne] at hafter
      exact hafter hbefore
    rw [hcall] at h
    cases h
    rw [hk, hentry] at hbefore
    cases hbefore
    rcases hexpects with hnone | hsome
    · cases hnone
    · exact (Option.some.inj hsome).symm
  cases stopStep_effect h with
  | enter => cases hturn
  | retryEnded call => exact hsame rfl
  | retryCancelled call => exact hsame rfl
  | suspended call => exact hsame rfl
  | lockReturns call free => exact hsame rfl
  | lock call free entry expects =>
    cases hturn
    exact ⟨htaken call entry expects rfl, rfl⟩
  | lockFailed call free entry expects =>
    cases hturn
    exact ⟨htaken call entry expects rfl, rfl⟩
  | terminated call object exited => exact hsame rfl
  | cancelled call place => exact hsame rfl
  | abort call => exact hsame rfl

/-- A stop stays open until one of its own turns ends it. -/
theorem step_stop_call {l : Label} (hinv : LockInv s)
    (hcall : s.calls c = some (.stop key expected phase)) (h : s.step l = some t) :
    (∃ phase', t.calls c = some (.stop key expected phase')) ∨
      (t.calls c = none ∧ ∃ raises, IdleCore.stopTurn l = some (c, raises)) := by
  have hkept (hcalls : t.calls c = s.calls c) :
      ∃ phase', t.calls c = some (.stop key expected phase') := ⟨phase, hcalls.trans hcall⟩
  cases l with
  | start l => exact Or.inl ⟨phase, startStep_stop_calls hinv hcall h⟩
  | life l => exact Or.inl (hkept (by rw [(lifeStep_frame h).1.calls]))
  | lease l => exact Or.inl (hkept (by rw [(leaseStep_frame h).1.calls]))
  | stop l =>
    by_cases hturn : ∃ raises, IdleCore.stopTurn (.stop l) = some (c, raises)
    · obtain ⟨raises, hraises⟩ := hturn
      rcases stopStep_own_call hcall hraises h with hended | hopen
      · exact Or.inr ⟨hended, raises, hraises⟩
      · exact Or.inl hopen
    · rw [not_exists] at hturn
      exact Or.inl (hkept (stopStep_other_calls hinv hcall hturn h))

theorem step_removes {l : Label} {o i : ℕ} {k : PyStr} {raises : Bool}
    (hcall : s.calls c = some (.stop key (some o) phase))
    (hturn : IdleCore.stopTurn l = some (c, raises)) (h : s.step l = some t)
    (hbefore : OrderedDict.get s.instances k = some i)
    (hafter : OrderedDict.get t.instances k ≠ some i) : i = o ∧ raises = false := by
  cases l with
  | start l => cases hturn
  | life l => cases hturn
  | lease l => cases hturn
  | stop l => exact stopStep_removes hcall hturn h hbefore hafter

end Supervisor

namespace IdleCore

variable {policy : IdlePolicy} {s s' u : IdleCore} {i t : ℕ} {timer : IdleTimer}

/-! ## Timers -/

structure TimerInv (s : IdleCore) : Prop where
  armed : ∀ t timer, s.timers t = some timer → timer.cancelled = false →
    s.idleTask timer.object = some t
  idle : ∀ i t, s.idleTask i = some t → s.inFlightCalls i = 0
  fresh : ∀ t, s.nextTimer ≤ t → s.timers t = none

/-- The stops of expired timers, as the supervisor knows them. -/
def StopsOpen (s : IdleCore) : Prop :=
  ∀ t timer c, s.timers t = some timer → timer.stop = some c →
    s.runner c = some t ∧
      ∃ key phase, s.supervisor.calls c = some (.stop key (some timer.object) phase)

/-- Every timer that runs a stop ran it before. -/
structure StopsFrom (s s' : IdleCore) : Prop where
  timer : ∀ t timer', s'.timers t = some timer' → timer'.stop = none ∨
    ∃ timer, s.timers t = some timer ∧ timer.stop = timer'.stop ∧ timer.object = timer'.object
  runner : s'.runner = s.runner
  supervisor : s'.supervisor = s.supervisor

theorem StopsFrom.refl (s : IdleCore) : StopsFrom s s :=
  ⟨fun _ timer h => Or.inr ⟨timer, h, rfl, rfl⟩, rfl, rfl⟩

theorem StopsFrom.trans (h : StopsFrom s u) (h' : StopsFrom u s') : StopsFrom s s' where
  timer t timer' htimer := by
    rcases h'.timer t timer' htimer with hnone | ⟨mid, hmid, hstop, hobject⟩
    · exact Or.inl hnone
    · rcases h.timer t mid hmid with hnone | ⟨old, hold, hstop', hobject'⟩
      · exact Or.inl (hstop.symm.trans hnone)
      · exact Or.inr ⟨old, hold, hstop'.trans hstop, hobject'.trans hobject⟩
  runner := h'.runner.trans h.runner
  supervisor := h'.supervisor.trans h.supervisor

theorem StopsFrom.stopsOpen (h : StopsFrom s s') (hopen : StopsOpen s) : StopsOpen s' := by
  intro t timer' c htimer hstop
  rcases h.timer t timer' htimer with hnone | ⟨timer, hold, hstop', hobject⟩
  · rw [hnone] at hstop
    cases hstop
  · rw [h.runner, h.supervisor, ← hobject]
    exact hopen t timer c hold (hstop'.trans hstop)

/-! ## One operation -/

/-- A task that loses its instance and is cancelled in the same stretch. -/
theorem TimerInv.cancel (h : TimerInv s) (hi : s.idleTask i = some t) :
    TimerInv ((s.setIdleTask i none).cancelTimer t) where
  armed t' timer' htimer hlive := by
    simp only [cancelTimer, setTimer, setIdleTask] at htimer ⊢
    by_cases ht : t' = t
    · subst ht
      rw [Function.update_self, Option.map_eq_some_iff] at htimer
      obtain ⟨timer, -, rfl⟩ := htimer
      cases hlive
    · rw [Function.update_of_ne ht] at htimer
      have harmed := h.armed t' timer' htimer hlive
      have hne : timer'.object ≠ i := by
        rintro rfl
        rw [hi] at harmed
        exact ht (Option.some.inj harmed).symm
      rw [Function.update_of_ne hne]
      exact harmed
  idle i' t' hi' := by
    simp only [cancelTimer, setTimer, setIdleTask] at hi' ⊢
    by_cases hne : i' = i
    · rw [hne, Function.update_self] at hi'
      cases hi'
    · rw [Function.update_of_ne hne] at hi'
      exact h.idle i' t' hi'
  fresh t' ht' := by
    simp only [cancelTimer, setTimer, setIdleTask] at ht' ⊢
    by_cases ht : t' = t
    · rw [ht, Function.update_self, h.fresh t (ht ▸ ht')]
      rfl
    · rw [Function.update_of_ne ht]
      exact h.fresh t' ht'

theorem stopsFrom_cancel (s : IdleCore) (i t : ℕ) :
    StopsFrom s ((s.setIdleTask i none).cancelTimer t) where
  timer t' timer' htimer := by
    simp only [cancelTimer, setTimer, setIdleTask] at htimer
    by_cases ht : t' = t
    · subst ht
      rw [Function.update_self, Option.map_eq_some_iff] at htimer
      obtain ⟨timer, htimer, rfl⟩ := htimer
      exact Or.inr ⟨timer, htimer, rfl, rfl⟩
    · rw [Function.update_of_ne ht] at htimer
      exact Or.inr ⟨timer', htimer, rfl, rfl⟩
  runner := rfl
  supervisor := rfl

theorem TimerInv.cancelIdleTask (h : TimerInv s) : TimerInv (s.cancelIdleTask i) := by
  unfold IdleCore.cancelIdleTask
  cases hi : s.idleTask i with
  | none => exact h
  | some t => exact h.cancel hi

theorem cancelIdleTask_idleTask (s : IdleCore) (i : ℕ) : (s.cancelIdleTask i).idleTask i = none := by
  unfold cancelIdleTask
  cases hi : s.idleTask i with
  | none => exact hi
  | some t => exact Function.update_self _ _ _

theorem stopsFrom_cancelIdleTask (s : IdleCore) (i : ℕ) : StopsFrom s (s.cancelIdleTask i) := by
  unfold cancelIdleTask
  cases s.idleTask i with
  | none => exact StopsFrom.refl s
  | some t => exact stopsFrom_cancel s i t

theorem TimerInv.cancelInstanceTasks (h : TimerInv s) (current : Option ℕ) :
    TimerInv (s.cancelInstanceTasks i current) := by
  unfold IdleCore.cancelInstanceTasks
  cases hi : s.idleTask i with
  | none => exact h
  | some t =>
    simp only
    split_ifs
    · exact h
    · exact h.cancel hi

theorem stopsFrom_cancelInstanceTasks (s : IdleCore) (i : ℕ) (current : Option ℕ) :
    StopsFrom s (s.cancelInstanceTasks i current) := by
  unfold cancelInstanceTasks
  cases s.idleTask i with
  | none => exact StopsFrom.refl s
  | some t =>
    simp only
    split_ifs
    · exact StopsFrom.refl s
    · exact stopsFrom_cancel s i t

theorem TimerInv.armTimer (h : TimerInv s) {delay : ℕ} (hidle : s.inFlightCalls i = 0)
    (hfree : ∀ t timer, s.timers t = some timer → timer.object = i → timer.cancelled = true) :
    TimerInv (s.armTimer i delay) where
  armed t' timer' htimer hlive := by
    simp only [IdleCore.armTimer, setTimer, setIdleTask] at htimer ⊢
    by_cases ht : t' = s.nextTimer
    · subst ht
      rw [Function.update_self] at htimer
      cases htimer
      exact Function.update_self _ _ _
    · rw [Function.update_of_ne ht] at htimer
      have hne : timer'.object ≠ i := by
        intro hobject
        rw [hfree t' timer' htimer hobject] at hlive
        cases hlive
      rw [Function.update_of_ne hne]
      exact h.armed t' timer' htimer hlive
  idle i' t' hi' := by
    simp only [IdleCore.armTimer, setTimer, setIdleTask] at hi' ⊢
    by_cases hne : i' = i
    · rw [hne]
      exact hidle
    · rw [Function.update_of_ne hne] at hi'
      exact h.idle i' t' hi'
  fresh t' ht' := by
    simp only [IdleCore.armTimer, setTimer, setIdleTask] at ht' ⊢
    rw [Function.update_of_ne (by omega)]
    exact h.fresh t' (by omega)

theorem stopsFrom_armTimer (s : IdleCore) (i delay : ℕ) : StopsFrom s (s.armTimer i delay) where
  timer t' timer' htimer := by
    simp only [armTimer, setTimer, setIdleTask] at htimer
    by_cases ht : t' = s.nextTimer
    · rw [ht, Function.update_self] at htimer
      cases htimer
      exact Or.inl rfl
    · rw [Function.update_of_ne ht] at htimer
      exact Or.inr ⟨timer', htimer, rfl, rfl⟩
  runner := rfl
  supervisor := rfl

variable (policy) in
/-- `_schedule_idle_task` does nothing or arms a timer for an instance that has none. -/
theorem scheduleIdleTask_cases (h : TimerInv s) (i : ℕ) :
    scheduleIdleTask policy s i = s ∨ ∃ delay, scheduleIdleTask policy s i = s.armTimer i delay ∧
      s.inFlightCalls i = 0 ∧
      ∀ t timer, s.timers t = some timer → timer.object = i → timer.cancelled = true := by
  unfold scheduleIdleTask
  cases s.supervisor.heap i with
  | none => exact Or.inl rfl
  | some inst =>
    simp only
    cases idleTimeout policy inst with
    | none => exact Or.inl rfl
    | some delay =>
      simp only
      split_ifs with hreap
      · simp only [isReapable, Bool.and_eq_true, decide_eq_true_eq] at hreap
        have hidle : s.inFlightCalls i = 0 := hreap.1.1.1.1.1
        -- a live timer of the instance would be its idle task
        have hfree (hnone : ∀ t, s.idleTask i = some t → s.timers t = none) (t : ℕ)
            (timer : IdleTimer) (htimer : s.timers t = some timer) (hobject : timer.object = i) :
            timer.cancelled = true := by
          by_contra hlive
          have harmed := h.armed t timer htimer (by simpa using hlive)
          rw [hobject] at harmed
          rw [hnone t harmed] at htimer
          cases htimer
        cases htask : s.idleTask i with
        | none =>
          refine Or.inr ⟨delay, rfl, hidle, hfree ?_⟩
          intro t ht
          rw [htask] at ht
          cases ht
        | some t =>
          simp only
          split_ifs with hrunning
          · exact Or.inl rfl
          · refine Or.inr ⟨delay, rfl, hidle, hfree ?_⟩
            intro t' ht'
            rw [htask] at ht'
            cases ht'
            simpa using hrunning
      · exact Or.inl rfl

theorem TimerInv.scheduleIdleTask (h : TimerInv s) (i : ℕ) :
    TimerInv (IdleCore.scheduleIdleTask policy s i) := by
  rcases scheduleIdleTask_cases policy h i with hsame | ⟨delay, harm, hidle, hfree⟩
  · rw [hsame]
    exact h
  · rw [harm]
    exact h.armTimer hidle hfree

theorem stopsFrom_scheduleIdleTask (h : TimerInv s) (i : ℕ) :
    StopsFrom s (scheduleIdleTask policy s i) := by
  rcases scheduleIdleTask_cases policy h i with hsame | ⟨delay, harm, -⟩
  · rw [hsame]
    exact StopsFrom.refl s
  · rw [harm]
    exact stopsFrom_armTimer s i delay

theorem TimerInv.endTimer (h : TimerInv s) (t : ℕ) (timer : IdleTimer) :
    TimerInv (s.endTimer t timer) := by
  have hended : TimerInv (s.setTimer t none) := by
    constructor
    · intro t' timer' htimer hlive
      simp only [setTimer] at htimer ⊢
      by_cases ht : t' = t
      · rw [ht, Function.update_self] at htimer
        cases htimer
      · rw [Function.update_of_ne ht] at htimer
        exact h.armed t' timer' htimer hlive
    · exact h.idle
    · intro t' ht'
      simp only [setTimer] at ht' ⊢
      by_cases ht : t' = t
      · rw [ht, Function.update_self]
      · rw [Function.update_of_ne ht]
        exact h.fresh t' ht'
  unfold IdleCore.endTimer
  simp only
  split_ifs with hown
  · constructor
    · intro t' timer' htimer hlive
      have harmed := hended.armed t' timer' htimer hlive
      have hne : timer'.object ≠ timer.object := by
        intro hobject
        rw [hobject, hown] at harmed
        cases harmed
        simp [setIdleTask, setTimer] at htimer
      simp only [setIdleTask]
      rw [Function.update_of_ne hne]
      exact harmed
    · intro i' t' hi'
      simp only [setIdleTask] at hi'
      by_cases hne : i' = timer.object
      · rw [hne, Function.update_self] at hi'
        cases hi'
      · rw [Function.update_of_ne hne] at hi'
        exact hended.idle i' t' hi'
    · exact hended.fresh
  · exact hended

theorem endTimer_timers (s : IdleCore) (t : ℕ) (timer : IdleTimer) :
    (s.endTimer t timer).timers = Function.update s.timers t none := by
  unfold endTimer
  simp only
  split_ifs <;> rfl

theorem stopsFrom_endTimer (s : IdleCore) (t : ℕ) (timer : IdleTimer) :
    StopsFrom s (s.endTimer t timer) where
  timer t' timer' htimer := by
    rw [endTimer_timers] at htimer
    by_cases ht : t' = t
    · rw [ht, Function.update_self] at htimer
      cases htimer
    · rw [Function.update_of_ne ht] at htimer
      exact Or.inr ⟨timer', htimer, rfl, rfl⟩
  runner := by
    unfold endTimer
    simp only
    split_ifs <;> rfl
  supervisor := by
    unfold endTimer
    simp only
    split_ifs <;> rfl

/-- A timer changes in other respects than its instance and its cancellation. -/
theorem TimerInv.setTimer (h : TimerInv s) (htimer : s.timers t = some timer) {new : IdleTimer}
    (hobject : new.object = timer.object) (hcancelled : new.cancelled = timer.cancelled) :
    TimerInv (s.setTimer t (some new)) where
  armed t' timer' htimer' hlive := by
    simp only [IdleCore.setTimer] at htimer' ⊢
    by_cases ht : t' = t
    · subst ht
      rw [Function.update_self] at htimer'
      cases htimer'
      rw [hobject]
      exact h.armed t' timer htimer (hcancelled.symm.trans hlive)
    · rw [Function.update_of_ne ht] at htimer'
      exact h.armed t' timer' htimer' hlive
  idle := h.idle
  fresh t' ht' := by
    simp only [IdleCore.setTimer] at ht' ⊢
    by_cases ht : t' = t
    · subst ht
      rw [h.fresh t' ht'] at htimer
      cases htimer
    · rw [Function.update_of_ne ht]
      exact h.fresh t' ht'

/-! ## One step -/

structure IdleInv (s : IdleCore) : Prop extends TimerInv s where
  lock : s.supervisor.LockInv
  stops : StopsOpen s

theorem idleInv_initial (components : PyStr → Option Component)
    (roles : List (PyStr × RoleState)) : IdleInv (initial components roles) where
  armed := by
    intro t timer h
    cases h
  idle := by
    intro i t h
    cases h
  fresh _ _ := rfl
  lock := Supervisor.lockInv_initial components roles
  stops := by
    intro t timer c h
    cases h

theorem IdleInv.kept (h : IdleInv s) (htimer : TimerInv s') (hfrom : StopsFrom s s') :
    IdleInv s' where
  toTimerInv := htimer
  lock := by
    rw [hfrom.supervisor]
    exact h.lock
  stops := hfrom.stopsOpen h.stops

theorem IdleInv.setInFlight (h : IdleInv s) {calls : ℕ} (hfree : s.idleTask i = none) :
    IdleInv (s.setInFlight i calls) := by
  refine h.kept ⟨h.armed, ?_, h.fresh⟩ ⟨(StopsFrom.refl s).timer, rfl, rfl⟩
  intro i' t' hi'
  have hne : i' ≠ i := by
    rintro rfl
    rw [IdleCore.setInFlight, hfree] at hi'
    cases hi'
  simp only [IdleCore.setInFlight]
  rw [Function.update_of_ne hne]
  exact h.idle i' t' hi'

/-- The count and the cancellation of a call that begins may change places. -/
theorem beginForwardCall_eq (s : IdleCore) (i : ℕ) :
    s.beginForwardCall i = (s.cancelIdleTask i).setInFlight i (s.inFlightCalls i + 1) := by
  unfold beginForwardCall cancelIdleTask setInFlight
  simp only
  cases s.idleTask i with
  | none => rfl
  | some t => rfl

theorem IdleInv.beginForwardCall (h : IdleInv s) (i : ℕ) : IdleInv (s.beginForwardCall i) := by
  rw [beginForwardCall_eq]
  apply IdleInv.setInFlight _ (cancelIdleTask_idleTask s i)
  exact h.kept h.toTimerInv.cancelIdleTask (stopsFrom_cancelIdleTask s i)

theorem IdleInv.idleTask_of_busy (h : IdleInv s) (hbusy : s.inFlightCalls i ≠ 0) :
    s.idleTask i = none := by
  cases hi : s.idleTask i with
  | none => rfl
  | some t => exact absurd (h.idle i t hi) hbusy

theorem IdleInv.finishForwardCall (h : IdleInv s) (i : ℕ) :
    IdleInv (IdleCore.finishForwardCall policy s i) := by
  unfold IdleCore.finishForwardCall
  split_ifs with hzero
  · exact h
  · have hdone : IdleInv (s.setInFlight i (s.inFlightCalls i - 1)) :=
      h.setInFlight (h.idleTask_of_busy hzero)
    simp only
    split_ifs
    · exact hdone.kept (hdone.toTimerInv.scheduleIdleTask i)
        (stopsFrom_scheduleIdleTask hdone.toTimerInv i)
    · exact hdone

theorem IdleInv.endTimer (h : IdleInv s) (t : ℕ) (timer : IdleTimer) :
    IdleInv (s.endTimer t timer) :=
  h.kept (h.toTimerInv.endTimer t timer) (stopsFrom_endTimer s t timer)

/-- The task of a timer opens a stop, which the timer may note. -/
theorem IdleInv.openStop (h : IdleInv s) (htimer : s.timers t = some timer) {key : PyStr}
    {expected : Option ℕ} {new : IdleTimer} (hobject : new.object = timer.object)
    (hcancelled : new.cancelled = timer.cancelled)
    (hstop : new.stop = timer.stop ∨
      (new.stop = some s.supervisor.nextCall ∧ expected = some timer.object)) :
    IdleInv ((s.openStop t key expected).setTimer t (some new)) := by
  have hset := h.toTimerInv.setTimer htimer hobject hcancelled
  refine ⟨⟨hset.armed, hset.idle, hset.fresh⟩, ?_, ?_⟩
  · have hopened : s.supervisor.stopStep (.enter key expected)
        = some ((s.supervisor.setStopRequest key true).openCall (.stop key expected .retry)) := rfl
    exact Supervisor.stopStep_lockInv h.lock hopened
  · -- the calls that are open keep their runner and their place
    have hkept (t' : ℕ) (timer' : IdleTimer) (c : ℕ) (htimer' : s.timers t' = some timer')
        (hc : timer'.stop = some c) :
        (s.openStop t key expected).runner c = some t' ∧ ∃ key' phase,
          (s.openStop t key expected).supervisor.calls c
            = some (.stop key' (some timer'.object) phase) := by
      obtain ⟨hrunner, key', phase, hcall⟩ := h.stops t' timer' c htimer' hc
      have hne : c ≠ s.supervisor.nextCall := (h.lock.lt_nextCall hcall).ne
      constructor
      · exact (Function.update_of_ne hne _ _).trans hrunner
      · exact ⟨key', phase, (Function.update_of_ne hne _ _).trans hcall⟩
    intro t' timer' c htimer' hc
    simp only [IdleCore.setTimer] at htimer' ⊢
    by_cases ht : t' = t
    · subst ht
      rw [Function.update_self] at htimer'
      cases htimer'
      rcases hstop with hsame | ⟨hnew, hexpected⟩
      · rw [hsame] at hc
        rw [hobject]
        exact hkept t' timer c htimer hc
      · rw [hnew] at hc
        cases hc
        refine ⟨Function.update_self _ _ _, key, .retry, ?_⟩
        rw [hobject, ← hexpected]
        exact Function.update_self _ _ _
    · rw [Function.update_of_ne ht] at htimer'
      exact hkept t' timer' c htimer' hc

theorem IdleInv.expire (h : IdleInv s) (htimer : s.timers t = some timer) :
    IdleInv (IdleCore.expire policy s t timer) := by
  unfold IdleCore.expire
  cases s.supervisor.heap timer.object with
  | none => exact h.endTimer t timer
  | some inst =>
    simp only
    split_ifs
    · exact h.openStop htimer rfl rfl (Or.inr ⟨rfl, rfl⟩)
    · exact h.endTimer t timer

theorem stopsFrom_setTimer (htimer : s.timers t = some timer) {new : IdleTimer}
    (hobject : new.object = timer.object) (hstop : new.stop = timer.stop) :
    StopsFrom s (s.setTimer t (some new)) where
  timer t' timer' htimer' := by
    simp only [IdleCore.setTimer] at htimer'
    by_cases ht : t' = t
    · subst ht
      rw [Function.update_self] at htimer'
      cases htimer'
      exact Or.inr ⟨timer, htimer, hstop.symm, hobject.symm⟩
    · rw [Function.update_of_ne ht] at htimer'
      exact Or.inr ⟨timer', htimer', rfl, rfl⟩
  runner := rfl
  supervisor := rfl

theorem closeStop_kept (h : TimerInv s) (label : Supervisor.Label) :
    TimerInv (s.closeStop label) ∧ StopsFrom s (s.closeStop label) := by
  unfold closeStop
  cases stopTurn label with
  | none => exact ⟨h, StopsFrom.refl s⟩
  | some turn =>
    obtain ⟨c, raises⟩ := turn
    simp only
    cases s.supervisor.calls c with
    | some call => exact ⟨h, StopsFrom.refl s⟩
    | none =>
      cases s.runner c with
      | none => exact ⟨h, StopsFrom.refl s⟩
      | some t =>
        cases htimer : s.timers t with
        | none =>
          simp only [htimer]
          exact ⟨h, StopsFrom.refl s⟩
        | some timer =>
          simp only [htimer]
          split_ifs
          · exact ⟨h.endTimer t timer, stopsFrom_endTimer s t timer⟩
          · exact ⟨h.setTimer htimer rfl rfl, stopsFrom_setTimer htimer rfl rfl⟩

/-- A stop that has returned is no longer the one of its timer. -/
theorem closeStop_ended {label : Supervisor.Label} {c : ℕ} {raises : Bool}
    (hturn : stopTurn label = some (c, raises)) (hcall : s.supervisor.calls c = none)
    (hrunner : s.runner c = some t) (htimer : (s.closeStop label).timers t = some timer) :
    timer.stop ≠ some c := by
  unfold closeStop at htimer
  simp only [hturn, hcall, hrunner] at htimer
  cases hold : s.timers t with
  | none =>
    simp only [hold] at htimer
    cases htimer
  | some old =>
    simp only [hold] at htimer
    split_ifs at htimer with hstop
    · rw [endTimer_timers, Function.update_self] at htimer
      cases htimer
    · simp only [setTimer, Function.update_self, Option.some.injEq] at htimer
      rw [← htimer]
      exact hstop

variable (policy) in
theorem scheduleReadied_kept (h : TimerInv s) (label : Supervisor.Label) :
    TimerInv (scheduleReadied policy s label) ∧ StopsFrom s (scheduleReadied policy s label) := by
  unfold scheduleReadied
  cases readiedBy label with
  | none => exact ⟨h, StopsFrom.refl s⟩
  | some i => exact ⟨h.scheduleIdleTask i, stopsFrom_scheduleIdleTask h i⟩

variable (policy) in
theorem adjustTasks_kept (h : TimerInv s) (label : Supervisor.Label) (sup : Supervisor) :
    TimerInv (adjustTasks policy s label sup) ∧
      StopsFrom { s with supervisor := sup } (adjustTasks policy s label sup) := by
  have hmoved : TimerInv { s with supervisor := sup } := ⟨h.armed, h.idle, h.fresh⟩
  unfold adjustTasks
  cases retiredBy s.supervisor label with
  | none => exact scheduleReadied_kept policy hmoved label
  | some i =>
    have hcancelled := hmoved.cancelInstanceTasks (i := i) (s.runnerOf label)
    obtain ⟨htimers, hfrom⟩ := scheduleReadied_kept policy hcancelled label
    exact ⟨htimers, (stopsFrom_cancelInstanceTasks _ i _).trans hfrom⟩

theorem IdleInv.supervise (h : IdleInv s) {label : Supervisor.Label} {sup : Supervisor}
    (hstep : s.supervisor.step label = some sup) :
    IdleInv (IdleCore.supervise policy s label sup) := by
  obtain ⟨htimers, hfrom⟩ := adjustTasks_kept policy h.toTimerInv label sup
  obtain ⟨hclosed, hkept⟩ := closeStop_kept htimers label
  have hall := hfrom.trans hkept
  refine ⟨hclosed, ?_, ?_⟩
  · rw [IdleCore.supervise, hall.supervisor]
    exact Supervisor.step_lockInv h.lock hstep
  · intro t timer c htimer hstop
    rcases hall.timer t timer htimer with hnone | ⟨old, hold, hstop', hobject⟩
    · rw [hnone] at hstop
      cases hstop
    · obtain ⟨hrunner, key, phase, hcall⟩ := h.stops t old c hold (hstop'.trans hstop)
      refine ⟨by rw [IdleCore.supervise, hall.runner]; exact hrunner, key, ?_⟩
      rw [IdleCore.supervise, hall.supervisor, ← hobject]
      rcases Supervisor.step_stop_call h.lock hcall hstep with hopen | ⟨hended, raises, hturn⟩
      · exact hopen
      · have hcall' : (adjustTasks policy s label sup).supervisor.calls c = none := by
          rw [hfrom.supervisor]
          exact hended
        have hrunner' : (adjustTasks policy s label sup).runner c = some t := by
          rw [hfrom.runner]
          exact hrunner
        exact absurd hstop (closeStop_ended hturn hcall' hrunner' htimer)

theorem step_idleInv {label : Label} (h : IdleInv s) (hstep : step policy s label = some s') :
    IdleInv s' := by
  unfold step at hstep
  cases label with
  | supervisor label =>
    simp only at hstep
    split_ifs at hstep
    obtain ⟨sup, hsup, rfl⟩ := Option.map_eq_some_iff.mp hstep
    exact h.supervise hsup
  | beginCall i =>
    simp only at hstep
    cases hobject : s.supervisor.heap i with
    | none =>
      rw [hobject] at hstep
      cases hstep
    | some inst =>
      simp only [hobject] at hstep
      split_ifs at hstep
      cases hstep
      exact h.beginForwardCall i
  | finishCall i =>
    simp only at hstep
    split_ifs at hstep
    cases hstep
    exact h.finishForwardCall i
  | expire t =>
    simp only at hstep
    cases htimer : s.timers t with
    | none =>
      rw [htimer] at hstep
      cases hstep
    | some timer =>
      simp only [htimer] at hstep
      split_ifs at hstep
      cases hstep
      exact h.expire htimer
  | suspendClient t key =>
    simp only at hstep
    cases htimer : s.timers t with
    | none =>
      rw [htimer] at hstep
      cases hstep
    | some timer =>
      simp only [htimer] at hstep
      split at hstep
      · split_ifs at hstep
        cases hstep
        exact h.openStop htimer rfl rfl (Or.inl rfl)
      · cases hstep
  | unwind t =>
    simp only at hstep
    cases htimer : s.timers t with
    | none =>
      rw [htimer] at hstep
      cases hstep
    | some timer =>
      simp only [htimer] at hstep
      split_ifs at hstep
      cases hstep
      exact h.endTimer t timer
  | elapse ms =>
    cases hstep
    exact h.kept ⟨h.armed, h.idle, h.fresh⟩ ⟨(StopsFrom.refl s).timer, rfl, rfl⟩

/-! ## Runs -/

/-- The task of the timer takes the step, and not in the stop of a visual client. -/
def OwnTurn (t : ℕ) (timer : IdleTimer) : Label → Prop
  | .supervisor label => ∃ c raises, timer.stop = some c ∧ stopTurn label = some (c, raises)
  | .expire t' | .suspendClient t' _ | .unwind t' => t' = t
  | .beginCall _ | .finishCall _ | .elapse _ => False

/-- What a timer removes from the table is the instance it was armed for, without a call. -/
def RemovesOwn (policy : IdlePolicy) (s : IdleCore) (label : Label) : Prop :=
  ∀ s' t timer key i, step policy s label = some s' → s.timers t = some timer →
    OwnTurn t timer label → OrderedDict.get s.supervisor.instances key = some i →
    OrderedDict.get s'.supervisor.instances key ≠ some i →
    i = timer.object ∧ s.inFlightCalls i = 0

/-- An instance has one timer that has not been cancelled, at most. -/
def OneTimer (s : IdleCore) : Prop :=
  ∀ t t' timer timer', s.timers t = some timer → s.timers t' = some timer' →
    timer.object = timer'.object → timer.cancelled = false → timer'.cancelled = false → t = t'

/-- When the last call of a ready instance finishes, a new timer sleeps for the full timeout,
unless Core or the component is being stopped. -/
def Rearms (policy : IdlePolicy) (s : IdleCore) (label : Label) : Prop :=
  ∀ s' i inst delay, step policy s label = some s' → label = .finishCall i →
    s.inFlightCalls i = 1 → s.supervisor.heap i = some inst → inst.ready = true →
    inst.finalized = false → s.supervisor.isCurrent i inst = true →
    s.supervisor.stopping = false → s.supervisor.stopRequests inst.key = false →
    idleTimeout policy inst = some delay →
    s'.idleTask i = some s.nextTimer ∧ s.timers s.nextTimer = none ∧
      s'.timers s.nextTimer = some { object := i, deadline := s.now + delay }

theorem IdleInv.oneTimer (h : IdleInv s) : OneTimer s := by
  intro t t' timer timer' htimer htimer' hobject hlive hlive'
  have harmed := h.armed t timer htimer hlive
  rw [hobject, h.armed t' timer' htimer' hlive'] at harmed
  exact (Option.some.inj harmed).symm

theorem IdleInv.rearms (h : IdleInv s) (label : Label) : Rearms policy s label := by
  rintro s' i inst delay hstep rfl hlast hobject hready hlive hcurrent hrunning hunfenced hdelay
  have hfree : s.idleTask i = none := h.idleTask_of_busy (by omega)
  have hreap : (s.setInFlight i 0).isReapable i inst = true := by
    simp [isReapable, IdleCore.setInFlight, hready, hlive, hcurrent, hrunning, hunfenced]
  have hschedule : scheduleIdleTask policy (s.setInFlight i 0) i
      = (s.setInFlight i 0).armTimer i delay := by
    have hobject' : (s.setInFlight i 0).supervisor.heap i = some inst := hobject
    have hfree' : (s.setInFlight i 0).idleTask i = none := hfree
    simp [scheduleIdleTask, hobject', hdelay, hreap, hfree']
  have hfinish : IdleCore.finishForwardCall policy s i = (s.setInFlight i 0).armTimer i delay := by
    rw [IdleCore.finishForwardCall, if_neg (by omega), hlast]
    simp only [Nat.sub_self]
    have hzero : (s.setInFlight i 0).inFlightCalls i = 0 := Function.update_self _ _ _
    rw [if_pos hzero, hschedule]
  simp only [step, hlast, one_ne_zero, if_false, Option.some.injEq] at hstep
  rw [← hstep, hfinish]
  exact ⟨Function.update_self _ _ _, h.fresh _ le_rfl, Function.update_self _ _ _⟩

/-- A step of the supervisor changes the supervisor as it does alone. -/
theorem supervise_supervisor (h : TimerInv s) (label : Supervisor.Label) (sup : Supervisor) :
    (supervise policy s label sup).supervisor = sup := by
  obtain ⟨htimers, hfrom⟩ := adjustTasks_kept policy h label sup
  obtain ⟨-, hkept⟩ := closeStop_kept htimers label
  exact (hfrom.trans hkept).supervisor

/-- The innermost call of a cancelled task only raises, so a step that does not is one of a task
that has not been cancelled. -/
theorem live_of_isAllowed {label : Supervisor.Label} {c : ℕ}
    (hallowed : s.isAllowed label = true) (hturn : stopTurn label = some (c, false))
    (hrunner : s.runner c = some t) (htimer : s.timers t = some timer) :
    timer.cancelled = false := by
  simp only [isAllowed, hturn, hrunner, htimer, isInnermost, Bool.and_eq_true, beq_iff_eq] at hallowed
  exact hallowed.2.symm

theorem expire_instances (s : IdleCore) (t : ℕ) (timer : IdleTimer) :
    (expire policy s t timer).supervisor.instances = s.supervisor.instances := by
  unfold expire
  cases s.supervisor.heap timer.object with
  | none =>
    simp only
    rw [(stopsFrom_endTimer s t timer).supervisor]
  | some inst =>
    simp only
    split_ifs
    · rfl
    · rw [(stopsFrom_endTimer s t timer).supervisor]

theorem IdleInv.removesOwn (h : IdleInv s) (label : Label) : RemovesOwn policy s label := by
  intro s' t timer key i hstep htimer hturn hbefore hafter
  have hkept (hsup : s'.supervisor.instances = s.supervisor.instances) :
      i = timer.object ∧ s.inFlightCalls i = 0 := by
    rw [hsup] at hafter
    exact absurd hbefore hafter
  cases label with
  | supervisor label =>
    obtain ⟨c, raises, hstop, hturn⟩ := hturn
    obtain ⟨hrunner, own, phase, hcall⟩ := h.stops t timer c htimer hstop
    simp only [step] at hstep
    split_ifs at hstep with hallowed
    obtain ⟨sup, hsup, rfl⟩ := Option.map_eq_some_iff.mp hstep
    rw [supervise_supervisor h.toTimerInv] at hafter
    obtain ⟨rfl, rfl⟩ := Supervisor.step_removes hcall hturn hsup hbefore hafter
    have hlive := live_of_isAllowed hallowed hturn hrunner htimer
    exact ⟨rfl, h.idle _ t (h.armed t timer htimer hlive)⟩
  | expire t' =>
    cases hturn
    simp only [step, htimer] at hstep
    split_ifs at hstep
    cases hstep
    exact hkept (expire_instances s t timer)
  | suspendClient t' key' =>
    cases hturn
    simp only [step, htimer] at hstep
    split at hstep
    · split_ifs at hstep
      cases hstep
      exact hkept rfl
    · cases hstep
  | unwind t' =>
    cases hturn
    simp only [step, htimer] at hstep
    split_ifs at hstep
    cases hstep
    exact hkept (by rw [(stopsFrom_endTimer s t timer).supervisor])
  | beginCall i' => cases hturn
  | finishCall i' => cases hturn
  | elapse ms => cases hturn

/-- In every state that calls, timers, stops and starts can lead to in any order, an idle timer
removes only its own instance and only while it has no call, is the only one of its instance, and
is armed again in full after the last call. -/
theorem run_reaps (policy : IdlePolicy) (components : PyStr → Option Component)
    (roles : List (PyStr × RoleState)) (labels : List Label)
    (hrun : run (step policy) (initial components roles) labels = some s) :
    OneTimer s ∧ ∀ label, RemovesOwn policy s label ∧ Rearms policy s label := by
  have h : IdleInv s := run_invariant_all (fun _ _ _ => step_idleInv) labels
    (idleInv_initial components roles) hrun
  exact ⟨h.oneTimer, fun label => ⟨h.removesOwn label, h.rearms label⟩⟩

/-- A display provider `d` and a client `a`, both of which may be reclaimed after a second. -/
def reclaimed : IdlePolicy where
  onDemand _ := true
  idleTimeoutMs _ := some 1000
  displayOutput component := component.object = 1

def displayAndClient (key : PyStr) : Option Component :=
  if key = lit "d" then some ⟨1, [], .mipcReady⟩
  else if key = lit "a" then some ⟨0, [], .mipcReady⟩ else none

/-- The call `c` starts the instance `i` of the key, which becomes ready. -/
def startReady (key : PyStr) (c i : ℕ) : List Label :=
  [.supervisor (.start (.enter key)), .supervisor (.start (.lock c)),
    .supervisor (.start (.clear c)), .supervisor (.start (.spawn c (100 + i))),
    .supervisor (.life (.readyMessage i))]

/-- A call of `a` begins and ends. -/
theorem run_reaps_oneCall :
    ∃ s, run (step reclaimed) (initial displayAndClient [])
        (startReady (lit "a") 0 0 ++ [.beginCall 0, .elapse 200, .finishCall 0]) = some s ∧
      s.idleTask 0 = some 1 ∧
      OneTimer s ∧ ∀ label, RemovesOwn reclaimed s label ∧ Rearms reclaimed s label := by
  obtain ⟨s, hrun, htask⟩ : ∃ s, run (step reclaimed) (initial displayAndClient [])
      (startReady (lit "a") 0 0 ++ [.beginCall 0, .elapse 200, .finishCall 0]) = some s ∧
        s.idleTask 0 = some 1 := ⟨_, rfl, by decide +kernel⟩
  exact ⟨s, hrun, htask, run_reaps reclaimed displayAndClient [] _ hrun⟩

/-- `a` is in a call when the timer of the display provider expires. -/
def expiredDisplay : List Label :=
  startReady (lit "d") 0 0 ++ startReady (lit "a") 1 1 ++
    [.beginCall 1, .elapse 1000, .expire 0, .supervisor (.stop (.retryEnded 2)),
      .suspendClient 0 (lit "a"), .supervisor (.stop (.retryEnded 3)),
      .supervisor (.stop (.suspended 3))]

/-- `a` is in a call when somebody asks for its stop. -/
def stopRequested : List Label :=
  startReady (lit "a") 0 0 ++ [.beginCall 0, .supervisor (.stop (.enter (lit "a") none))]

/-- The task of an idle timer removes the busy client of its display, and the last call of a
component that is being stopped arms no timer. -/
theorem display_and_stop_not_reaped :
    (∃ s s', run (step reclaimed)
        (initial displayAndClient [(Supervisor.displayRole, ⟨[lit "d"], true⟩)]) expiredDisplay
          = some s ∧
      step reclaimed s (.supervisor (.stop (.lock 3))) = some s' ∧
      s.runnerOf (.stop (.lock 3)) = some 0 ∧ s.inFlightCalls 1 = 1 ∧
      OrderedDict.get s.supervisor.instances (lit "a") = some 1 ∧
      OrderedDict.get s'.supervisor.instances (lit "a") = none) ∧
    ∃ s s', run (step reclaimed) (initial displayAndClient []) stopRequested = some s ∧
      s.inFlightCalls 0 = 1 ∧ (s.supervisor.heap 0).map Instance.ready = some true ∧
      OrderedDict.get s.supervisor.instances (lit "a") = some 0 ∧
      step reclaimed s (.finishCall 0) = some s' ∧ s'.idleTask 0 = none := by
  constructor
  · exact ⟨_, _, rfl, rfl, by decide +kernel, by decide +kernel, by decide +kernel, by decide +kernel⟩
  · exact ⟨_, _, rfl, by decide +kernel, by decide +kernel, by decide +kernel, rfl, by decide +kernel⟩

end IdleCore

end MsysCore.Core
