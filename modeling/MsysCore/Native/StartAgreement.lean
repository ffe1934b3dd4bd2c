import MsysCore.Native.StartPropagation

/-!
# The calls compute `start_eligible`

Without pending calls the router has nothing to do but to close sessions, and the machine of
`StartPropagation` comes to the state that the function `startEligible` of `Supervisor` gives.
-/

namespace MsysCore.Native.Propagation

open Supervisor RoutedSupervisor

variable {plan : RuntimePlan} {catalog : Router.Catalog} {p q : Propagation}
  {frames : List StartFrame} {s : Supervisor} {index : ℕ}

/-- Between two calls of the router, which has no pending calls. -/
structure Still (p : Propagation) : Prop where
  stack : p.router.stack = []
  pending : p.router.pending = []

/-- The functions above `frames` return and leave the supervisor as `s`. -/
def Does (plan : RuntimePlan) (catalog : Router.Catalog) (p : Propagation)
    (frames : List StartFrame) (s : Supervisor) : Prop :=
  ∃ q, Relation.ReflTransGen (fun p q => ∃ label, step plan catalog p label = some q) p q ∧
    q.frames = frames ∧ Still q ∧ q.supervisor = s

theorem Does.here (h : Still p) (hframes : p.frames = frames) (hs : p.supervisor = s) :
    Does plan catalog p frames s :=
  ⟨p, .refl, hframes, h, hs⟩

theorem Does.of_step {label : Label} (hstep : step plan catalog p label = some q)
    (h : Does plan catalog q frames s) : Does plan catalog p frames s := by
  obtain ⟨t, hsteps, hframes, hstill, hs⟩ := h
  exact ⟨t, .head ⟨label, hstep⟩ hsteps, hframes, hstill, hs⟩

theorem Does.bind {frames' : List StartFrame} {s' : Supervisor}
    (h : Does plan catalog p frames s)
    (hnext : ∀ q, q.frames = frames → Still q → q.supervisor = s →
      Does plan catalog q frames' s') : Does plan catalog p frames' s' := by
  obtain ⟨q, hsteps, hframes, hstill, hs⟩ := h
  obtain ⟨t, hsteps', hend⟩ := hnext q hframes hstill hs
  exact ⟨t, hsteps.trans hsteps', hend⟩

/-! ## The router -/

/-- The calls that the supervisor makes; without pending calls they lead to no others. -/
def Sweeps : Router.Frame → Prop
  | .readyLoop _ _ _ | .unavailableLoop _ _ _ | .closeLoop _ _ => True
  | _ => False

theorem reported_sweeps (index generation : ℕ) :
    ∀ f ∈ reported plan index generation, Sweeps f := by
  unfold reported
  split_ifs <;> simp [Sweeps]

theorem shutdownCalls_sweeps (s : Supervisor) : ∀ f ∈ shutdownCalls plan s, Sweeps f := by
  unfold shutdownCalls sessionCalls
  split
  · simp
  · split_ifs <;> simp [Sweeps]

/-- A turn of such a call. -/
theorem sweep_turn {t r : Router.State} {f : Router.Frame} (h : Router.Turn catalog t f r)
    (hf : Sweeps f) (hpending : t.pending = []) (hstack : ∀ g ∈ t.stack, Sweeps g) :
    r.pending = [] ∧ ∀ g ∈ r.stack, Sweeps g := by
  cases h with
  | ready component generation index =>
    rw [Router.readyTurn, hpending]
    exact ⟨hpending, hstack⟩
  | unavailable component generation index =>
    rw [Router.unavailableTurn, hpending]
    exact ⟨hpending, hstack⟩
  | close component generation =>
    unfold Router.closeTurn
    split
    · exact ⟨hpending, hstack⟩
    · unfold Router.closeSession
      have hpushed : ∀ g ∈ (t.push (.closeLoop component generation)).stack, Sweeps g :=
        List.forall_mem_cons.mpr ⟨trivial, hstack⟩
      split
      · exact ⟨hpending, hpushed⟩
      · dsimp only
        split
        · exact ⟨by simp [Router.State.push, hpending], hpushed⟩
        · exact ⟨by simp [Router.State.push, hpending],
            List.forall_mem_cons.mpr ⟨trivial, hpushed⟩⟩
  | _ => exact hf.elim

theorem routed_sweep (plan : RuntimePlan) {t : RoutedSupervisor} {f : Router.Frame}
    {rest : List Router.Frame} {r : Router.State} (hstack : t.router.stack = f :: rest)
    (hf : Sweeps f)
    (hpending : t.router.pending = []) : routed plan t r = { t with router := r } := by
  have hlost : lost t = none := by
    unfold lost
    rw [hstack]
    cases f <;> first | rfl | exact hf.elim
  have hcounted : counted t.router = [] := by
    unfold counted
    rw [hstack]
    cases f <;> first | rfl | exact hf.elim
  unfold routed afterHook
  rw [hlost, hcounted, hpending]
  rfl

theorem sweep_step (catalog : Router.Catalog) (t : Router.State) {f : Router.Frame}
    (hf : Sweeps f) :
    ∃ r, Router.step catalog (t.push f) .go = some r ∧ Router.Turn catalog t f r := by
  cases f with
  | readyLoop component generation index => exact ⟨_, rfl, .ready component generation index⟩
  | unavailableLoop component generation index =>
    exact ⟨_, rfl, .unavailable component generation index⟩
  | closeLoop component generation => exact ⟨_, rfl, .close component generation⟩
  | _ => exact hf.elim

/-- The router goes on with such a call, and the supervisor stays as it is. -/
theorem step_sweep (plan : RuntimePlan) (catalog : Router.Catalog) {f : Router.Frame}
    {rest : List Router.Frame} (hstack : p.router.stack = f :: rest) (hf : Sweeps f)
    (hpending : p.router.pending = []) :
    ∃ r, step plan catalog p (.router .go) = some { p with router := r } ∧
      Router.Turn catalog { p.router with stack := rest } f r := by
  have hp : p.router = Router.State.push { p.router with stack := rest } f := by
    rw [Router.State.push, ← hstack]
  obtain ⟨r, hr, hturn⟩ := sweep_step catalog { p.router with stack := rest } hf
  refine ⟨r, ?_, hturn⟩
  have hnone : hookCalls plan p.toRoutedSupervisor = [] := by
    unfold hookCalls
    rw [hstack]
    cases f <;> first | rfl | exact hf.elim
  have hrouted : RoutedSupervisor.step plan catalog p.toRoutedSupervisor (.router .go)
      = some { p.toRoutedSupervisor with router := r } := by
    rw [← hp] at hr
    rw [← routed_sweep plan hstack hf hpending]
    simp only [RoutedSupervisor.step, answer, hr, hstack, readies]
    simp
  unfold step
  rw [hstack]
  simp only [Router.resumes, if_true, hrouted, Option.map_some, hnone]
  rfl

theorem Does.swept (hpending : p.router.pending = []) (hsweeps : ∀ f ∈ p.router.stack, Sweeps f)
    (h : ∀ q : Propagation, Still q → q.frames = p.frames → q.supervisor = p.supervisor →
      Does plan catalog q frames s) : Does plan catalog p frames s := by
  have hwf := InvImage.wf (fun p : Propagation => p.router.rank) wellFounded_lt
  induction p using hwf.induction with
  | _ p ih =>
    cases hstack : p.router.stack with
    | nil => exact h p ⟨hstack, hpending⟩ rfl rfl
    | cons f rest =>
      rw [hstack] at hsweeps
      obtain ⟨hf, hrest⟩ := List.forall_mem_cons.mp hsweeps
      obtain ⟨r, hstep, hturn⟩ := step_sweep plan catalog hstack hf hpending
      obtain ⟨hpending', hsweeps'⟩ := sweep_turn hturn hf hpending hrest
      apply Does.of_step hstep
      apply ih { p with router := r } _ hpending' hsweeps' h
      have hp : p.router = Router.State.push { p.router with stack := rest } f := by
        rw [Router.State.push, ← hstack]
      show r.rank < p.router.rank
      rw [hp]
      exact hturn.rank_lt

/-! ## The functions -/

theorem Quiet.card_le {s' : Supervisor} (h : Quiet s s') (plan : RuntimePlan) :
    (Supervisor.waiting plan s').card ≤ (Supervisor.waiting plan s).card := by
  apply Finset.card_le_card
  intro i hi
  rw [mem_waiting] at hi ⊢
  exact ⟨hi.1, h.waiting i hi.2⟩

section Functions

variable {spawn : ℕ → SpawnOutcome} {timer : ℕ → Bool}

theorem stopNext_idleRouter (spawn' : ℕ → SpawnOutcome) (timer' : ℕ → Bool) (order : List ℕ) :
    ∀ s, Supervisor.stopNext plan (idleRouter spawn timer) s order
      = Supervisor.stopNext plan (idleRouter spawn' timer') s order := by
  induction order with
  | nil => exact fun _ => rfl
  | cons index rest ih =>
    intro s
    unfold Supervisor.stopNext
    split_ifs
    · exact ih s
    · rfl

/-- Of the environment `schedule_or_fail` only needs its timer. -/
theorem scheduleOrFail_idleRouter (s : Supervisor) (index : ℕ) (failed : Bool) :
    Supervisor.scheduleOrFail plan (idleRouter (fun _ => .refused) fun _ => timer index) s index
        failed
      = Supervisor.scheduleOrFail plan (idleRouter spawn timer) s index failed := by
  have hshutdown (s : Supervisor) (code : ℕ) :
      Supervisor.beginShutdown plan (idleRouter (fun _ => .refused) fun _ => timer index) s code
        = Supervisor.beginShutdown plan (idleRouter spawn timer) s code := by
    unfold Supervisor.beginShutdown
    rw [stopNext_idleRouter spawn timer]
  unfold Supervisor.scheduleOrFail
  simp only [hshutdown]
  rfl

theorem scheduleOrFail_does (h : Still p) (index : ℕ) (failed : Bool) :
    Does plan catalog (scheduleOrFail plan p index failed (timer index)) p.frames
      (Supervisor.scheduleOrFail plan (idleRouter spawn timer) p.supervisor index failed) := by
  rw [← scheduleOrFail_idleRouter]
  unfold scheduleOrFail
  dsimp only
  split_ifs
  · apply Does.swept
    · exact h.pending
    · rw [calls_stack, on_router, h.stack, List.append_nil]
      exact shutdownCalls_sweeps _
    · exact fun q hq hframes hs => .here hq hframes hs
  · exact .here ⟨h.stack, h.pending⟩ rfl rfl

theorem failRunningComponent_does (h : Still p) (index : ℕ) :
    Does plan catalog (failRunningComponent plan p index) p.frames
      (Supervisor.failRunningComponent plan (idleRouter spawn timer) p.supervisor index) := by
  unfold failRunningComponent Supervisor.failRunningComponent
  dsimp only
  split_ifs
  · exact .here h rfl rfl
  · apply Does.swept
    · exact h.pending
    · rw [calls_stack, on_router, h.stack, List.append_nil]
      exact reported_sweeps _ _
    · exact fun q hq hframes hs => .here hq hframes hs

/-- What a function of the supervisor does when the call returns that it waits for. -/
theorem does_resume {frame : StartFrame} (label : Label) {frames' : List StartFrame}
    {s' : Supervisor} (hq : Still q) (hframes : q.frames = frame :: frames)
    (hresume : ∀ p : Propagation, Still p → p.frames = frames → p.supervisor = q.supervisor →
      ∃ p', resume plan p frame label = some p' ∧ Does plan catalog p' frames' s') :
    Does plan catalog q frames' s' := by
  obtain ⟨p', hp', hdoes⟩ := hresume { q with frames := frames } ⟨hq.stack, hq.pending⟩ rfl rfl
  have hstep : step plan catalog q label = some p' := by
    unfold step
    rw [hq.stack, hframes]
    exact hp'
  exact Does.of_step hstep hdoes

theorem handleSpawnFailure_does (h : Still p) (index : ℕ) :
    Does plan catalog (handleSpawnFailure plan p index) p.frames
      (Supervisor.handleSpawnFailure plan (idleRouter spawn timer) p.supervisor index) := by
  unfold handleSpawnFailure
  apply Does.swept
  · exact h.pending
  · rw [calls_stack, enter_router, on_router, h.stack, List.append_nil]
    exact reported_sweeps _ _
  · intro q hq hframes hs
    apply does_resume (.timer (timer index)) hq hframes
    intro t ht htframes hts
    refine ⟨_, rfl, ?_⟩
    have hframes' : p.frames = t.frames := htframes.symm
    have hs' : p.supervisor.update index (fun r =>
        { r with pid := none, readinessFailed := true, idleTimer := none }) = t.supervisor :=
      (hts.trans hs).symm
    unfold Supervisor.handleSpawnFailure
    dsimp only
    rw [hframes', hs']
    exact scheduleOrFail_does ht index true

section Again

-- The function that the nested `start_eligible` computes on states with fewer than `fuel`
-- components that wait.
variable {again : Supervisor → Supervisor} {fuel : ℕ}
  (hagain : ∀ p : Propagation, Still p → (Supervisor.waiting plan p.supervisor).card < fuel →
    Does plan catalog (startEligible p) p.frames (again p.supervisor))
include hagain

theorem markReady_does (h : Still p) (hwaiting : (Supervisor.waiting plan p.supervisor).card < fuel)
    (index generation : ℕ) :
    Does plan catalog (markReady p index generation) p.frames
      (Supervisor.markReady plan (idleRouter spawn timer) again p.supervisor index generation) := by
  unfold markReady Supervisor.markReady
  dsimp only
  split_ifs
  · exact .here h rfl rfl
  · apply Does.swept
    · exact h.pending
    · rw [calls_stack, enter_router, on_router, h.stack, List.append_nil]
      simp [Sweeps]
    · intro q hq hframes hs
      apply does_resume .go hq hframes
      intro t ht htframes hts
      refine ⟨_, rfl, ?_⟩
      have hs' : p.supervisor.update index (fun r => { r with state := .ready }) = t.supervisor :=
        (hts.trans hs).symm
      have hquiet : Quiet p.supervisor (armIdleTimeout plan t.supervisor index) := by
        rw [← hs']
        refine (quiet_update ?_ ?_).trans (quiet_of_touches (armIdleTimeout_touches _ index))
        · intro h
          cases h
        · rfl
      have hdoes := hagain (t.on fun s => armIdleTimeout plan s index) ⟨ht.stack, ht.pending⟩
        (Nat.lt_of_le_of_lt (hquiet.card_le plan) hwaiting)
      rw [on_frames, htframes] at hdoes
      rw [hs']
      exact hdoes

omit hagain in
variable (plan) in
/-- A channel that can be made is a session more. -/
theorem launch_session (h : Still p) (index : ℕ) (outcome : SpawnOutcome) :
    ∃ q, launch plan p index true outcome = spawnProcess plan q index outcome ∧ Still q ∧
      q.frames = p.frames ∧ q.supervisor = p.supervisor := by
  unfold launch
  rw [if_pos rfl]
  split_ifs
  · exact ⟨p, rfl, h, rfl, rfl⟩
  · exact ⟨_, rfl, ⟨h.stack, h.pending⟩, rfl, rfl⟩

theorem spawnComponent_does (h : Still p) (hdown : p.supervisor.shuttingDown = false)
    (hwaiting : (Supervisor.waiting plan (markStarting p.supervisor index)).card < fuel) :
    Does plan catalog
      (spawnComponent plan p index true (spawn (markStarting p.supervisor index).startSequence))
      p.frames
      (Supervisor.spawnComponent plan (idleRouter spawn timer) again p.supervisor index) := by
  unfold spawnComponent Supervisor.spawnComponent
  rw [hdown, if_neg Bool.false_ne_true, if_neg Bool.false_ne_true]
  have hstill : Still { p.on fun s => markStarting s index with spawned := p.spawned ++ [index] } :=
    ⟨h.stack, h.pending⟩
  obtain ⟨q, hq, hqstill, hqframes, hqs⟩ := launch_session plan hstill index
    (spawn (markStarting p.supervisor index).startSequence)
  rw [hq]
  have hqs' : markStarting p.supervisor index = q.supervisor := hqs.symm
  have hqframes' : p.frames = q.frames := hqframes.symm
  dsimp only
  rw [hqs'] at hwaiting ⊢
  rw [hqframes']
  cases houtcome : spawn q.supervisor.startSequence with
  | refused =>
    have henv : (idleRouter spawn timer).spawn q.supervisor.startSequence = .refused := houtcome
    rw [henv]
    exact handleSpawnFailure_does hqstill index
  | launched pid watched =>
    have henv : (idleRouter spawn timer).spawn q.supervisor.startSequence = .launched pid watched :=
      houtcome
    rw [henv]
    have hpid : Still (q.on fun s => s.update index fun r => { r with pid := some pid }) :=
      ⟨hqstill.stack, hqstill.pending⟩
    have hquiet : Quiet q.supervisor
        (q.supervisor.update index fun r => { r with pid := some pid }) := quiet_update id rfl
    unfold spawnProcess
    dsimp only
    split_ifs
    · exact markReady_does hagain hpid (Nat.lt_of_le_of_lt (hquiet.card_le plan) hwaiting) index _
    · exact .here hpid rfl rfl
    · exact failRunningComponent_does hpid index

end Again

/-- What `start_eligible` does after a round over the components. -/
def afterRound (again : Supervisor → Supervisor) (round : Supervisor × Bool) : Supervisor :=
  if round.2 && !round.1.shuttingDown then again round.1 else round.1

/-- The loop of `start_eligible` from `index` on. -/
theorem scan_does {fuel : ℕ}
    (hagain : ∀ p : Propagation, Still p → (Supervisor.waiting plan p.supervisor).card < fuel →
      Does plan catalog (startEligible p) p.frames
        (startEligibleFuel plan (idleRouter spawn timer) fuel p.supervisor)) (left : ℕ) :
    ∀ (p : Propagation) (index : ℕ) (changed : Bool), index + left = plan.components.length →
      Still p → p.supervisor.shuttingDown = false →
      (Supervisor.waiting plan p.supervisor).card ≤ fuel →
      (changed = true → (Supervisor.waiting plan p.supervisor).card < fuel) →
      Does plan catalog (p.enter (.scan index changed)) p.frames
        (afterRound (startEligibleFuel plan (idleRouter spawn timer) fuel)
          (startRound plan (idleRouter spawn timer)
            (startEligibleFuel plan (idleRouter spawn timer) fuel) (List.range' index left)
            p.supervisor changed)) := by
  induction left with
  | zero =>
    intro p index changed hindex hstill hdown _ hchanged
    have hend : ¬ index < plan.components.length := by omega
    have hscan : Still (p.enter (.scan index changed)) := ⟨hstill.stack, hstill.pending⟩
    apply does_resume .go hscan (enter_frames p _)
    intro t ht htframes hts
    rw [enter_supervisor] at hts
    refine ⟨_, by simp only [resume, hend, if_false]; rfl, ?_⟩
    rw [List.range'_zero, startRound, afterRound, hts, hdown]
    cases changed with
    | false => exact .here ht htframes hts
    | true =>
      have hstart : t.enter (.scan 0 false) = startEligible t := by
        rw [startEligible, hts, hdown, if_neg Bool.false_ne_true]
      rw [← hts] at hchanged ⊢
      rw [← htframes]
      simp only [Bool.not_false, Bool.and_self, if_true, hstart]
      exact hagain t ht (hchanged rfl)
  | succ left ih =>
    intro p index changed hindex hstill hdown hcard hchanged
    have hlt : index < plan.components.length := by omega
    have hscan : Still (p.enter (.scan index changed)) := ⟨hstill.stack, hstill.pending⟩
    rw [List.range'_succ, startRound]
    by_cases heligible : eligible plan p.supervisor index
    · rw [if_pos heligible]
      apply does_resume (.spawn true (spawn (markStarting p.supervisor index).startSequence))
        hscan (enter_frames p _)
      intro t ht htframes hts
      rw [enter_supervisor] at hts
      rw [← hts] at heligible hdown hcard ⊢
      refine ⟨_, by simp only [resume, hlt, heligible, and_self, if_true]; rfl, ?_⟩
      have hspawning : Still (t.enter (.spawning index)) := ⟨ht.stack, ht.pending⟩
      have hstarting := card_lt_of_spawned
        (starting_moves (p := t) (eligible_waiting heligible)).toSpawns hlt rfl
      have hnested : ∀ s, Nested plan s (startEligibleFuel plan (idleRouter spawn timer) fuel s) :=
        startEligibleFuel_nested plan _ fuel
      have hspawned := spawnComponent_card_lt hnested (idleRouter spawn timer) hdown hlt heligible
      apply (spawnComponent_does hagain hspawning hdown (hstarting.trans_le hcard)).bind
      intro q hqframes hq hqs
      rw [enter_supervisor] at hqs
      rw [enter_frames, htframes] at hqframes
      apply does_resume .go hq hqframes
      intro u hu huframes hus
      rw [hqs] at hus
      refine ⟨_, rfl, ?_⟩
      dsimp only
      rw [← hus] at hspawned ⊢
      cases hafter : u.supervisor.shuttingDown with
      | true =>
        rw [if_pos rfl, if_pos rfl, afterRound, hafter]
        simp only [Bool.not_true, Bool.and_false, Bool.false_eq_true, if_false]
        exact .here hu huframes rfl
      | false =>
        rw [if_neg Bool.false_ne_true, if_neg Bool.false_ne_true, ← huframes]
        have hless := hspawned.trans_le hcard
        exact ih u (index + 1) true (by omega) hu hafter hless.le fun _ => hless
    · rw [if_neg heligible]
      apply does_resume .go hscan (enter_frames p _)
      intro t ht htframes hts
      rw [enter_supervisor] at hts
      rw [← hts] at heligible hdown hcard hchanged ⊢
      refine ⟨_, by simp only [resume, hlt, heligible, if_true]; rfl, ?_⟩
      rw [← htframes]
      exact ih t (index + 1) changed (by omega) ht hdown hcard hchanged

theorem startEligibleFuel_does (fuel : ℕ) :
    ∀ p : Propagation, Still p → (Supervisor.waiting plan p.supervisor).card < fuel →
      Does plan catalog (startEligible p) p.frames
        (startEligibleFuel plan (idleRouter spawn timer) fuel p.supervisor) := by
  induction fuel with
  | zero => exact fun p _ hcard => absurd hcard (Nat.not_lt_zero _)
  | succ fuel ih =>
    intro p hstill hcard
    unfold startEligible startEligibleFuel
    split_ifs with hdown
    · exact .here hstill rfl rfl
    · rw [List.range_eq_range']
      apply scan_does ih plan.components.length p 0 false (Nat.zero_add _) hstill
        (Bool.eq_false_iff.mpr hdown) (Nat.le_of_lt_succ hcard)
      intro h
      cases h

/-- Without pending calls some run of the machine returns with what `start_eligible` computes. -/
theorem startEligible_agrees (plan : RuntimePlan) (catalog : Router.Catalog)
    (spawn : ℕ → SpawnOutcome) (timer : ℕ → Bool) {book : Router.Book}
    (hpending : book.pending = []) (s : Supervisor) :
    ∃ labels p, Runs.run (step plan catalog) (begin book s .startEligible) labels = some p ∧
      Returned p ∧ p.supervisor = Supervisor.startEligible plan (idleRouter spawn timer) s := by
  have hstill : Still { router := { toBook := book }, supervisor := s } := ⟨rfl, hpending⟩
  have hdoes : Does plan catalog (begin book s .startEligible) []
      (Supervisor.startEligible plan (idleRouter spawn timer) s) :=
    startEligibleFuel_does _ _ hstill (Nat.lt_succ_of_le (card_waiting_le s))
  obtain ⟨p, hsteps, hframes, hend, hs⟩ := hdoes
  obtain ⟨labels, hrun⟩ := Runs.exists_run_of_steps hsteps
  exact ⟨labels, p, hrun, ⟨hend.stack, hframes⟩, hs⟩

end Functions

end MsysCore.Native.Propagation
