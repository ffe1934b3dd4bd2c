import MsysCore.Core.SupervisorSteps

/-!
# The stop fence

A key is fenced while `stop_component` runs for it: it is in `stop_requests`, and a start
checks that right before it spawns. All stops of a key share the one entry of the set,
and the first of them to end removes it.
-/

namespace MsysCore.Core.Supervisor

open Python Runs

/-- The call is a `stop_component` of the key. -/
def StopInProgress (s : Supervisor) (c : ℕ) (key : PyStr) : Prop :=
  ∃ expected phase, s.calls c = some (.stop key expected phase)

/-- Every key that is being stopped is in `stop_requests`. -/
def Fenced (s : Supervisor) : Prop :=
  ∀ c key, StopInProgress s c key → s.stopRequests key = true

/-- No stop of a key is entered while another stop of it is in progress. -/
def NoOverlappingStop (s : Supervisor) : Label → Prop
  | .stop (.enter key _) => ∀ c, ¬ StopInProgress s c key
  | _ => True

/-! ## The invariant -/

/-- Stops of one key do not overlap, and their keys are fenced. -/
structure FenceInv (s : Supervisor) : Prop where
  fenced : Fenced s
  apart : ∀ c c' key, StopInProgress s c key → StopInProgress s c' key → c = c'
  fresh : ∀ c, s.nextCall ≤ c → s.calls c = none

theorem fenceInv_initial (components : PyStr → Option Component)
    (roles : List (PyStr × RoleState)) : FenceInv (initial components roles) := by
  refine ⟨?_, ?_, fun _ _ => rfl⟩
  · rintro c key ⟨expected, phase, hcall⟩
    cases hcall
  · rintro c c' key ⟨expected, phase, hcall⟩
    cases hcall

theorem stopInProgress_update {s t : Supervisor} {c : ℕ} {call : Option Call}
    (ht : t.calls = Function.update s.calls c call) {c' : ℕ} {key : PyStr}
    (h : StopInProgress t c' key) :
    StopInProgress s c' key ∧ c' ≠ c ∨
      c' = c ∧ ∃ expected phase, call = some (.stop key expected phase) := by
  obtain ⟨expected, phase, hcall⟩ := h
  rw [ht] at hcall
  by_cases hc : c' = c
  · subst hc
    rw [Function.update_self] at hcall
    exact .inr ⟨rfl, expected, phase, hcall⟩
  · rw [Function.update_of_ne hc] at hcall
    exact .inl ⟨⟨expected, phase, hcall⟩, hc⟩

/-- A step that changes the place of one call, or ends it, and keeps the fences. -/
theorem FenceInv.move {s t : Supervisor} (hinv : FenceInv s) {c : ℕ} {old : Call}
    {call : Option Call} (hold : s.calls c = some old)
    (ht : t.calls = Function.update s.calls c call) (hnext : t.nextCall = s.nextCall)
    (hrequests : t.stopRequests = s.stopRequests)
    (hcall : ∀ key e p, call = some (.stop key e p) → StopInProgress s c key) : FenceInv t := by
  have hback : ∀ c' key, StopInProgress t c' key → StopInProgress s c' key := by
    intro c' key h
    rcases stopInProgress_update ht h with ⟨h, -⟩ | ⟨rfl, e, p, h⟩
    · exact h
    · exact hcall key e p h
  refine ⟨?_, ?_, ?_⟩
  · intro c' key h
    rw [hrequests]
    exact hinv.fenced c' key (hback c' key h)
  · intro c' c'' key h h'
    exact hinv.apart c' c'' key (hback c' key h) (hback c'' key h')
  · intro c' hc'
    rw [hnext] at hc'
    have hne : c' ≠ c := by
      rintro rfl
      rw [hinv.fresh c' hc'] at hold
      cases hold
    rw [ht, Function.update_of_ne hne]
    exact hinv.fresh c' hc'

/-- The end of a stop: its key loses the fence, and it was the only stop of the key. -/
theorem FenceInv.close {s t : Supervisor} (hinv : FenceInv s) {c : ℕ} {key : PyStr}
    (hstop : StopInProgress s c key) (ht : t.calls = Function.update s.calls c none)
    (hnext : t.nextCall = s.nextCall)
    (hrequests : t.stopRequests = Function.update s.stopRequests key false) : FenceInv t := by
  have hback : ∀ c' key', StopInProgress t c' key' → StopInProgress s c' key' ∧ c' ≠ c := by
    intro c' key' h
    rcases stopInProgress_update ht h with h | ⟨-, e, p, h⟩
    · exact h
    · cases h
  refine ⟨?_, ?_, ?_⟩
  · intro c' key' h
    obtain ⟨hs, hne⟩ := hback c' key' h
    have hkey : key' ≠ key := by
      rintro rfl
      exact hne (hinv.apart c' c key' hs hstop)
    rw [hrequests, Function.update_of_ne hkey]
    exact hinv.fenced c' key' hs
  · intro c' c'' key' h h'
    exact hinv.apart c' c'' key' (hback c' key' h).1 (hback c'' key' h').1
  · intro c' hc'
    rw [hnext] at hc'
    rw [ht]
    by_cases hc : c' = c
    · rw [hc, Function.update_self]
    · rw [Function.update_of_ne hc]
      exact hinv.fresh c' hc'

/-- A call that is opened: a stop fences its key, which no other stop has. -/
theorem FenceInv.openCall {s t : Supervisor} (hinv : FenceInv s) {call : Call}
    (ht : t.calls = Function.update s.calls s.nextCall (some call))
    (hnext : t.nextCall = s.nextCall + 1)
    (hkept : ∀ key, s.stopRequests key = true → t.stopRequests key = true)
    (hcall : ∀ key e p, call = .stop key e p →
      t.stopRequests key = true ∧ ∀ c, ¬ StopInProgress s c key) : FenceInv t := by
  refine ⟨?_, ?_, ?_⟩
  · intro c key h
    rcases stopInProgress_update ht h with ⟨h, -⟩ | ⟨-, e, p, h⟩
    · exact hkept key (hinv.fenced c key h)
    · exact (hcall key e p (Option.some.inj h)).1
  · intro c c' key h h'
    rcases stopInProgress_update ht h with ⟨h, -⟩ | ⟨rfl, e, p, h⟩ <;>
      rcases stopInProgress_update ht h' with ⟨h', -⟩ | ⟨rfl, e', p', h'⟩
    · exact hinv.apart c c' key h h'
    · exact absurd h ((hcall key e' p' (Option.some.inj h')).2 c)
    · exact absurd h' ((hcall key e p (Option.some.inj h)).2 c')
    · rfl
  · intro c hc
    have hne : c ≠ s.nextCall := by omega
    rw [ht, Function.update_of_ne hne]
    exact hinv.fresh c (by omega)

theorem fenceInv_sameCalls {s t : Supervisor} (hinv : FenceInv s) (h : SameCalls s t) :
    FenceInv t := by
  have hback : ∀ c key, StopInProgress t c key → StopInProgress s c key := by
    rintro c key ⟨e, p, hcall⟩
    rw [h.calls] at hcall
    exact ⟨e, p, hcall⟩
  refine ⟨?_, ?_, ?_⟩
  · intro c key hc
    rw [h.stopRequests]
    exact hinv.fenced c key (hback c key hc)
  · intro c c' key hc hc'
    exact hinv.apart c c' key (hback c key hc) (hback c' key hc')
  · intro c hc
    rw [h.nextCall] at hc
    rw [h.calls]
    exact hinv.fresh c hc

theorem startStep_fenceInv {s t : Supervisor} {l : StartLabel} (hinv : FenceInv s)
    (h : s.startStep l = some t) : FenceInv t := by
  cases startStep_effect h with
  | enter _ _ => exact hinv.openCall rfl rfl (fun _ h => h) (by simp)
  | lock call _ => exact hinv.move call rfl rfl rfl (by simp)
  | retire call _ _ _ => exact hinv.move call rfl rfl rfl (by simp)
  | retireFailed call _ => exact hinv.move call rfl rfl rfl (by simp)
  | retired call _ _ => exact hinv.move call rfl rfl rfl (by simp)
  | finalize call _ _ _ => exact fenceInv_sameCalls hinv (sameCalls_finalize s _ _)
  | clear call _ => exact hinv.move call rfl rfl rfl (by simp)
  | again call => exact hinv.move call rfl rfl rfl (by simp)
  | spawn call _ _ _ => exact hinv.move call rfl rfl rfl (by simp)
  | spawnFailed call _ => exact hinv.move call rfl rfl rfl (by simp)
  | finishWaiting call => exact hinv.move call rfl rfl rfl (by simp)
  | finish call _ => exact hinv.move call rfl rfl rfl (by simp)
  | abort call => exact hinv.move call rfl rfl rfl (by simp)

theorem stopStep_fenceInv {s t : Supervisor} {l : StopLabel} (hinv : FenceInv s)
    (hcond : NoOverlappingStop s (.stop l)) (h : s.stopStep l = some t) : FenceInv t := by
  cases stopStep_effect h with
  | @enter key expected =>
    refine hinv.openCall rfl rfl ?_ ?_
    · intro key' hkey'
      by_cases hk : key' = key <;> simp [openCall, setCall, setStopRequest, hk, hkey']
    · rintro key' e p ⟨rfl, rfl, rfl⟩
      exact ⟨by simp [openCall, setCall, setStopRequest], hcond⟩
  | retryEnded call => exact hinv.move call rfl rfl rfl (by simp_all [StopInProgress])
  | retryCancelled call => exact hinv.move call rfl rfl rfl (by simp)
  | suspended call => exact hinv.move call rfl rfl rfl (by simp_all [StopInProgress])
  | lockReturns call _ => exact hinv.close ⟨_, _, call⟩ rfl rfl rfl
  | lock call _ _ => exact hinv.move call rfl rfl rfl (by simp_all [StopInProgress])
  | lockFailed call _ _ => exact hinv.close ⟨_, _, call⟩ rfl rfl rfl
  | terminated call _ _ => exact hinv.close ⟨_, _, call⟩ rfl rfl rfl
  | cancelled call _ => exact hinv.close ⟨_, _, call⟩ rfl rfl rfl
  | abort call => exact hinv.close ⟨_, _, call⟩ rfl rfl rfl

theorem step_fenceInv {s t : Supervisor} {l : Label} (hinv : FenceInv s)
    (hcond : NoOverlappingStop s l) (h : s.step l = some t) : FenceInv t := by
  cases l with
  | start l => exact startStep_fenceInv hinv h
  | stop l => exact stopStep_fenceInv hinv hcond h
  | life l => exact fenceInv_sameCalls hinv (lifeStep_frame h).1
  | lease l => exact fenceInv_sameCalls hinv (leaseStep_frame h).1

/-! ## Runs -/

/-- A new generation of the key is spawned by the step. -/
def Spawns (s : Supervisor) (l : Label) (key : PyStr) : Prop :=
  ∃ c pid, l = .start (.spawn c pid) ∧ s.calls c = some (.start key .cleared)

/-- When no stop of a key is entered during another one, every state fences the keys that are
being stopped, and no step out of it spawns a key that is. -/
theorem run_fenced (components : PyStr → Option Component) (roles : List (PyStr × RoleState))
    (ls : List Label) (s : Supervisor)
    (halong : Along step NoOverlappingStop (initial components roles) ls)
    (hrun : run step (initial components roles) ls = some s) :
    Fenced s ∧ ∀ l t key, s.step l = some t → Spawns s l key → ∀ c, ¬ StopInProgress s c key := by
  have hinv : FenceInv s := run_invariant (fun _ _ _ hs hcond hstep => step_fenceInv hs hcond hstep)
    ls (fenceInv_initial components roles) halong hrun
  refine ⟨hinv.fenced, ?_⟩
  rintro l t key hstep ⟨c, pid, rfl, hspawn⟩ c' hstop
  have heffect : StartEffect s (.spawn c pid) t := startStep_effect hstep
  cases heffect with
  | spawn call _ _ unfenced =>
    rw [hspawn] at call
    cases call
    rw [hinv.fenced c' key hstop] at unfenced
    cases unfenced

theorem stopA_fenced : ∃ s, run step (initial oneComponent []) (startA ++ stopA 1) = some s ∧
    StopInProgress s 1 (lit "a") ∧ s.stopRequests (lit "a") = true := by
  have hcall : (run step (initial oneComponent []) (startA ++ stopA 1)).map (fun s => s.calls 1) =
      some (some (.stop (lit "a") none (.terminating 0))) := by decide +kernel
  obtain ⟨s, hrun, hs⟩ := Option.map_eq_some_iff.mp hcall
  have halong : Along step NoOverlappingStop (initial oneComponent []) (startA ++ stopA 1) := by
    refine ⟨trivial, trivial, trivial, trivial, ?_, trivial, trivial, trivial, trivial⟩
    rintro c ⟨e, p, hc⟩
    by_cases h : c = 0 <;>
      simp [initial, setCall, openCall, setLock, install, closeStart, bumpGeneration, h] at hc
  refine ⟨s, hrun, ⟨none, _, hs⟩, ?_⟩
  exact (run_fenced oneComponent [] _ s halong hrun).1 1 (lit "a") ⟨none, _, hs⟩

/-- Two stops overlap. The first to end removes the fence, and `a` is started again while
the second is still waiting. -/
def overlappingStops : List Label :=
  startA ++ stopA 1 ++ [.stop (.enter (lit "a") none), .life (.exit 0), .stop (.terminated 1),
    .start (.enter (lit "a")), .start (.lock 3), .start (.clear 3), .start (.spawn 3 101)]

theorem overlappingStops_not_fenced :
    ¬ ∀ (components : PyStr → Option Component) (roles : List (PyStr × RoleState))
      (ls : List Label) (s : Supervisor),
      run step (initial components roles) ls = some s → Fenced s := by
  intro hall
  have hlast : (run step (initial oneComponent []) overlappingStops).map
      (fun s => (s.calls 2, s.stopRequests (lit "a"))) =
      some (some (.stop (lit "a") none .retry), false) := by decide +kernel
  obtain ⟨s, hrun, hs⟩ := Option.map_eq_some_iff.mp hlast
  obtain ⟨hcall, hrequest⟩ := Prod.mk.inj hs
  have hfenced := hall oneComponent [] overlappingStops s hrun 2 (lit "a") ⟨none, .retry, hcall⟩
  rw [hrequest] at hfenced
  cases hfenced

end MsysCore.Core.Supervisor
