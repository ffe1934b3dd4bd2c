import MsysCore.Native.InflightCalls
import MsysCore.Native.RouterReturns

/-!
# Start propagation, call by call

`start_eligible`, `spawn_component`, `handle_spawn_failure` and `mark_ready` call each other,
and the router in between, which calls the supervisor back. `Supervisor` is told what the router
does meanwhile; here the router does it. Under the stack of the router are the functions of the
supervisor that wait for a call to return, innermost first.

An outermost call starts on empty stacks: what lies below it does not run before it returns.
`spawned` is ghost.
-/

namespace MsysCore.Native

/-- A function of the supervisor that goes on when its call returns. -/
inductive StartFrame
  /-- The loop of `start_eligible` comes to `index`. -/
  | scan (index : ℕ) (changed : Bool)
  /-- `start_eligible` has called `spawn_component`. -/
  | spawning (index : ℕ)
  /-- `handle_spawn_failure` has reported the component unavailable. -/
  | refused (index : ℕ)
  /-- `mark_ready` has reported the component ready. -/
  | readied (index : ℕ)
  deriving DecidableEq

structure Propagation extends RoutedSupervisor where
  frames : List StartFrame := []
  /-- The components that `spawn_component` has made starting, the first one first. -/
  spawned : List ℕ := []

namespace Propagation

open Supervisor RoutedSupervisor

variable (plan : RuntimePlan) (catalog : Router.Catalog)

def on (p : Propagation) (f : Supervisor → Supervisor) : Propagation :=
  { p with supervisor := f p.supervisor }

/-- The function called last waits in `f`. -/
def enter (p : Propagation) (f : StartFrame) : Propagation := { p with frames := f :: p.frames }

/-- Calls of the broker and the router, the first one first. -/
def calls (p : Propagation) (frames : List Router.Frame) : Propagation :=
  { p with toRoutedSupervisor := p.push frames }

/-- `close_component_session`, which is for a component with a channel. -/
def sessionCalls (index generation : ℕ) : List Router.Frame :=
  if (componentPlan plan index).readiness = .mipc then [.closeLoop index generation] else []

section Fields

variable (p : Propagation) (f : Supervisor → Supervisor) (frame : StartFrame)
  (called : List Router.Frame)

@[simp] theorem on_supervisor : (p.on f).supervisor = f p.supervisor := rfl
@[simp] theorem on_spawned : (p.on f).spawned = p.spawned := rfl
@[simp] theorem on_frames : (p.on f).frames = p.frames := rfl
@[simp] theorem on_router : (p.on f).router = p.router := rfl
@[simp] theorem enter_supervisor : (p.enter frame).supervisor = p.supervisor := rfl
@[simp] theorem enter_spawned : (p.enter frame).spawned = p.spawned := rfl
@[simp] theorem enter_frames : (p.enter frame).frames = frame :: p.frames := rfl
@[simp] theorem enter_router : (p.enter frame).router = p.router := rfl
@[simp] theorem calls_supervisor : (p.calls called).supervisor = p.supervisor := rfl
@[simp] theorem calls_spawned : (p.calls called).spawned = p.spawned := rfl
@[simp] theorem calls_frames : (p.calls called).frames = p.frames := rfl
@[simp] theorem calls_stack : (p.calls called).router.stack = called ++ p.router.stack := rfl

end Fields

/-! ## The functions up to their calls -/

def startEligible (p : Propagation) : Propagation :=
  if p.supervisor.shuttingDown then p else p.enter (.scan 0 false)

def markReady (p : Propagation) (index generation : ℕ) : Propagation :=
  let r := p.supervisor.runtime index
  if r.generation ≠ generation ∨ r.state ≠ .starting then p
  else
    let p := p.on fun s => s.update index fun r => { r with state := .ready }
    (p.enter (.readied index)).calls [.readyLoop index generation 0]

def failRunningComponent (p : Propagation) (index : ℕ) : Propagation :=
  let r := p.supervisor.runtime index
  if r.pid.isNone ∨ r.state = .stopping then p
  else (p.on fun s => s.update index markFailed).calls (reported plan index r.generation)

def handleSpawnFailure (p : Propagation) (index : ℕ) : Propagation :=
  let p := p.on fun s => s.update index fun r =>
    { r with pid := none, readinessFailed := true, idleTimer := none }
  (p.enter (.refused index)).calls
    (reported plan index (p.supervisor.runtime index).generation)

/-- `create_component_session` -/
def addSession (p : Propagation) (index generation : ℕ) : Propagation :=
  { p with
    router := { p.router with
      sessions := p.router.sessions ++
        [{ id := p.router.nextSessionId, peer := .component index generation }]
      nextSessionId := p.router.nextSessionId + 1 } }

/-- `spawn_component` from its call of `spawn_process`. -/
def spawnProcess (p : Propagation) (index : ℕ) : SpawnOutcome → Propagation
  | .refused => handleSpawnFailure plan p index
  | .launched pid watched =>
    let p := p.on fun s => s.update index fun r => { r with pid := some pid }
    if (componentPlan plan index).readiness = .exec then
      markReady p index (p.supervisor.runtime index).generation
    else if watched then p
    else failRunningComponent plan p index

/-- `session` says that the channel of the component, if it has one, could be made. -/
def launch (p : Propagation) (index : ℕ) (session : Bool) (outcome : SpawnOutcome) :
    Propagation :=
  if (componentPlan plan index).readiness ≠ .mipc then spawnProcess plan p index outcome
  else if session then
    spawnProcess plan (p.addSession index (p.supervisor.runtime index).generation) index outcome
  else handleSpawnFailure plan p index

def spawnComponent (p : Propagation) (index : ℕ) (session : Bool) (outcome : SpawnOutcome) :
    Propagation :=
  if p.supervisor.shuttingDown then p
  else
    launch plan { p.on fun s => markStarting s index with spawned := p.spawned ++ [index] } index
      session outcome

/-- The router and the broker do nothing to the supervisor. -/
def idleRouter (spawn : ℕ → SpawnOutcome) (timer : ℕ → Bool) : Environment where
  spawn := spawn
  unavailable := fun _ => []
  ready := fun _ => []
  timer := timer

/-- The call that `begin_shutdown` ends with: `stop_next` closes the session of the component
started last. -/
def shutdownCalls (s : Supervisor) : List Router.Frame :=
  match (runningOrder plan s).head? with
  | none => []
  | some index => sessionCalls plan index (s.runtime index).generation

def scheduleOrFail (p : Propagation) (index : ℕ) (failed made : Bool) : Propagation :=
  let down := p.supervisor.shuttingDown
  let env := idleRouter (fun _ => .refused) fun _ => made
  let settled := p.on fun s => Supervisor.scheduleOrFail plan env s index failed
  if settled.supervisor.shuttingDown && !down then
    settled.calls (shutdownCalls plan p.supervisor)
  else settled

/-! ## The machine -/

inductive Label
  /-- The router or the broker goes on. -/
  | router (e : Router.Event)
  /-- A send throws, and the exception passes all functions. -/
  | throws
  | go
  /-- What `spawn_component` meets. -/
  | spawn (session : Bool) (outcome : SpawnOutcome)
  /-- Whether `schedule_or_fail` gets its timer. -/
  | timer (made : Bool)

/-- A `component_disconnected` hook that fails its component closes the session first. -/
def hookCalls (t : RoutedSupervisor) : List Router.Frame :=
  match t.router.stack with
  | .disconnected component generation :: _ =>
    if loses t.supervisor component generation then sessionCalls plan component generation else []
  | _ => []

/-- The innermost function of the supervisor goes on; `p` is the state without it. -/
def resume (p : Propagation) : StartFrame → Label → Option Propagation
  | .scan index _, .spawn session outcome =>
    if index < plan.components.length ∧ eligible plan p.supervisor index then
      some (spawnComponent plan (p.enter (.spawning index)) index session outcome)
    else none
  | .scan index changed, .go =>
    if index < plan.components.length then
      if eligible plan p.supervisor index then none
      else some (p.enter (.scan (index + 1) changed))
    else some (if changed && !p.supervisor.shuttingDown then p.enter (.scan 0 false) else p)
  | .spawning index, .go =>
    some (if p.supervisor.shuttingDown then p else p.enter (.scan (index + 1) true))
  | .refused index, .timer made => some (scheduleOrFail plan p index true made)
  | .readied index, .go => some (startEligible (p.on fun s => armIdleTimeout plan s index))
  | _, _ => none

def step (p : Propagation) (label : Label) : Option Propagation :=
  match p.router.stack, label with
  | _ :: _, .router e =>
    if Router.resumes e then
      (RoutedSupervisor.step plan catalog p.toRoutedSupervisor (.router e)).map fun t =>
        { p with toRoutedSupervisor := t }.calls (hookCalls plan p.toRoutedSupervisor)
    else none
  | _ :: _, .throws =>
    (RoutedSupervisor.step plan catalog p.toRoutedSupervisor .throws).map fun t =>
      { p with toRoutedSupervisor := t, frames := [] }
  | [], label =>
    match p.frames with
    | [] => none
    | frame :: rest => resume plan { p with frames := rest } frame label
  | _, _ => none

/-- The call has returned. -/
def Returned (p : Propagation) : Prop := p.router.stack = [] ∧ p.frames = []

/-- The calls from outside: of `run`, a request, an activation or a restart timer, and of what
finds a component ready. -/
inductive Call
  | startEligible
  | markReady (index generation : ℕ)

/-- The call begins, with any sessions and pending calls. -/
def begin (book : Router.Book) (s : Supervisor) : Call → Propagation
  | .startEligible => startEligible { router := { toBook := book }, supervisor := s }
  | .markReady index generation =>
    markReady { router := { toBook := book }, supervisor := s } index generation

/-! ## What the supervisor does in between -/

section Quiet

variable {plan : RuntimePlan} {env : Environment} {s s' t : Supervisor} {index : ℕ}

/-- No component starts and none begins to wait. -/
structure Quiet (s s' : Supervisor) : Prop where
  waiting : ∀ i, (s'.runtime i).state = .waiting → (s.runtime i).state = .waiting
  generation : ∀ i, (s'.runtime i).generation = (s.runtime i).generation
  shuttingDown : s.shuttingDown = true → s'.shuttingDown = true

theorem Quiet.refl (s : Supervisor) : Quiet s s := ⟨fun _ => id, fun _ => rfl, id⟩

theorem Quiet.trans (h : Quiet s t) (h' : Quiet t s') : Quiet s s' where
  waiting i hi := h.waiting i (h'.waiting i hi)
  generation i := (h'.generation i).trans (h.generation i)
  shuttingDown hdown := h'.shuttingDown (h.shuttingDown hdown)

theorem quiet_of_touches (h : Touches s s') : Quiet s s' where
  waiting i := ((h.touch i).change (componentPlan {} i)).waiting
  generation i := (h.touch i).generation
  shuttingDown hdown := h.shuttingDown.trans hdown

theorem quiet_update {f : ComponentRuntime → ComponentRuntime}
    (hstate : (f (s.runtime index)).state = .waiting → (s.runtime index).state = .waiting)
    (hgeneration : (f (s.runtime index)).generation = (s.runtime index).generation) :
    Quiet s (s.update index f) where
  waiting i := by
    by_cases hi : i = index
    · rw [hi, update_self]
      exact hstate
    · rw [update_ne hi]
      exact id
  generation i := by
    by_cases hi : i = index
    · rw [hi, update_self, hgeneration]
    · rw [update_ne hi]
  shuttingDown := id

theorem stopNext_quiet (order : List ℕ) :
    ∀ s : Supervisor, Quiet s (Supervisor.stopNext plan env s order) := by
  induction order with
  | nil => exact fun s => ⟨fun _ => id, fun _ => rfl, id⟩
  | cons index rest ih =>
    intro s
    unfold Supervisor.stopNext
    split_ifs
    · exact ih s
    · have hrest : Quiet s { s with stopOrder := rest, stoppingIndex := some index } :=
        ⟨fun _ => id, fun _ => rfl, id⟩
      apply (hrest.trans (quiet_update _ _)).trans (quiet_of_touches (applyEffects_touches _ _ _))
      · intro h
        cases h
      · rfl

theorem beginShutdown_quiet (s : Supervisor) (code : ℕ) :
    Quiet s (Supervisor.beginShutdown plan env s code) := by
  unfold Supervisor.beginShutdown
  split_ifs
  · exact ⟨fun _ => id, fun _ => rfl, id⟩
  · exact Quiet.refl s
  · have hhalt : Quiet s
        { s with
          shuttingDown := true
          exitCode := code
          runtime := fun i => haltRuntime (s.runtime i) } :=
      ⟨fun i => (haltRuntime_change (componentPlan plan i) _).waiting, fun _ => rfl, fun _ => rfl⟩
    exact hhalt.trans (stopNext_quiet _ _)

theorem scheduleOrFail_quiet (s : Supervisor) (index : ℕ) (failed : Bool) :
    Quiet s (Supervisor.scheduleOrFail plan env s index failed) := by
  obtain ⟨code, heq⟩ := scheduleOrFail_eq plan env s index failed
  have hsettle : Quiet s (settleAt plan env s index failed) := by
    apply quiet_update
    · intro h
      exact absurd h settle_waiting
    · unfold settle countRestart
      split_ifs <;> rfl
  rw [heq]
  split_ifs
  · exact hsettle.trans (beginShutdown_quiet _ _)
  · exact hsettle

theorem afterHook_quiet (t : RoutedSupervisor) : Quiet t.supervisor (afterHook t) := by
  unfold afterHook
  split
  · apply quiet_update
    · intro h
      cases h
    · rfl
  · exact Quiet.refl _

theorem routed_quiet (t : RoutedSupervisor) (r : Router.State) :
    Quiet t.supervisor (routed plan t r).supervisor :=
  (afterHook_quiet t).trans (quiet_of_touches (applyEffects_touches plan _ _))

end Quiet

/-! ## What a run does to the components -/

variable {plan : RuntimePlan} {catalog : Router.Catalog} {p p' q : Propagation} {index : ℕ}

/-- No component begins to wait, and each one that starts has waited and starts once. -/
structure Spawns (p p' : Propagation) : Prop where
  waiting : ∀ i, (p'.supervisor.runtime i).state = .waiting →
    (p.supervisor.runtime i).state = .waiting
  started : ∃ started, p'.spawned = p.spawned ++ started ∧ started.Nodup ∧
    (∀ i ∈ started, (p.supervisor.runtime i).state = .waiting ∧
      (p'.supervisor.runtime i).state ≠ .waiting) ∧
    ∀ i, (p'.supervisor.runtime i).generation
      = (p.supervisor.runtime i).generation + started.count i

/-- The frames of the router stay those of calls. -/
structure Moves (p p' : Propagation) : Prop extends Spawns p p' where
  calls : Router.Calls p.router → Router.Calls p'.router

/-- No component is spawned. -/
structure Silent (p p' : Propagation) : Prop where
  quiet : Quiet p.supervisor p'.supervisor
  spawned : p'.spawned = p.spawned
  calls : Router.Calls p.router → Router.Calls p'.router

theorem Silent.refl (p : Propagation) : Silent p p := ⟨Quiet.refl _, rfl, id⟩

theorem Silent.trans (h : Silent p q) (h' : Silent q p') : Silent p p' :=
  ⟨h.quiet.trans h'.quiet, h'.spawned.trans h.spawned, fun hp => h'.calls (h.calls hp)⟩

theorem Silent.moves (h : Silent p p') : Moves p p' where
  waiting := h.quiet.waiting
  started := ⟨[], by rw [h.spawned, List.append_nil], List.nodup_nil, by simp, h.quiet.generation⟩
  calls := h.calls

theorem Spawns.refl (p : Propagation) : Spawns p p := (Silent.refl p).moves.toSpawns

theorem Spawns.trans (h : Spawns p q) (h' : Spawns q p') : Spawns p p' where
  waiting i hi := h.waiting i (h'.waiting i hi)
  started := by
    obtain ⟨first, hfirst, hnodup, hwaiting, hgeneration⟩ := h.started
    obtain ⟨second, hsecond, hnodup', hwaiting', hgeneration'⟩ := h'.started
    refine ⟨first ++ second, by rw [hsecond, hfirst, List.append_assoc], ?_, ?_, ?_⟩
    · refine List.nodup_append.mpr ⟨hnodup, hnodup', ?_⟩
      rintro i hi j hj rfl
      exact (hwaiting i hi).2 (hwaiting' i hj).1
    · intro i hi
      rcases List.mem_append.mp hi with hi | hi
      · exact ⟨(hwaiting i hi).1, fun hlater => (hwaiting i hi).2 (h'.waiting i hlater)⟩
      · exact ⟨h.waiting i (hwaiting' i hi).1, (hwaiting' i hi).2⟩
    · intro i
      rw [hgeneration', hgeneration, List.count_append, Nat.add_assoc]

theorem Moves.trans (h : Moves p q) (h' : Moves q p') : Moves p p' :=
  ⟨h.toSpawns.trans h'.toSpawns, fun hp => h'.calls (h.calls hp)⟩

/-! The calls. -/

theorem calls_of_frames {frames : List Router.Frame} (h : Router.Calls p.router)
    (hframes : ∀ f ∈ frames, f.Call) : Router.Calls (p.calls frames).router := by
  intro f hf
  rcases List.mem_append.mp hf with hf | hf
  · exact hframes f hf
  · exact h f hf

theorem sessionCalls_call (index generation : ℕ) :
    ∀ f ∈ sessionCalls plan index generation, f.Call := by
  unfold sessionCalls
  split_ifs <;> simp [Router.Frame.Call]

theorem reported_call (index generation : ℕ) : ∀ f ∈ reported plan index generation, f.Call := by
  unfold reported
  split_ifs <;> simp [Router.Frame.Call]

theorem hookCalls_cases (plan : RuntimePlan) (t : RoutedSupervisor) :
    hookCalls plan t = [] ∨ ∃ component generation rest,
      t.router.stack = .disconnected component generation :: rest ∧
        hookCalls plan t = [.closeLoop component generation] := by
  unfold hookCalls sessionCalls
  split
  · rename_i component generation rest hstack
    split_ifs
    · exact .inr ⟨component, generation, rest, hstack, rfl⟩
    · exact .inl rfl
    · exact .inl rfl
  · exact .inl rfl

theorem hookCalls_call (t : RoutedSupervisor) : ∀ f ∈ hookCalls plan t, f.Call := by
  rcases hookCalls_cases plan t with hnone | ⟨c, g, rest, -, hclose⟩
  · simp [hnone]
  · simp [hclose, Router.Frame.Call]

theorem shutdownCalls_call (s : Supervisor) : ∀ f ∈ shutdownCalls plan s, f.Call := by
  unfold shutdownCalls
  split
  · simp
  · exact sessionCalls_call _ _

/-! The functions. -/

theorem silent_update {f : ComponentRuntime → ComponentRuntime}
    (hstate : (f (p.supervisor.runtime index)).state = .waiting →
      (p.supervisor.runtime index).state = .waiting)
    (hgeneration : (f (p.supervisor.runtime index)).generation
      = (p.supervisor.runtime index).generation) : Silent p (p.on fun s => s.update index f) :=
  ⟨quiet_update hstate hgeneration, rfl, id⟩

theorem silent_enter (p : Propagation) (f : StartFrame) : Silent p (p.enter f) :=
  ⟨Quiet.refl _, rfl, id⟩

theorem silent_calls {frames : List Router.Frame} (hframes : ∀ f ∈ frames, f.Call) :
    Silent p (p.calls frames) :=
  ⟨Quiet.refl _, rfl, fun h => calls_of_frames h hframes⟩

theorem addSession_silent (p : Propagation) (index generation : ℕ) :
    Silent p (p.addSession index generation) := ⟨Quiet.refl _, rfl, id⟩

theorem startEligible_silent (p : Propagation) : Silent p (startEligible p) := by
  unfold startEligible
  split_ifs
  · exact Silent.refl p
  · exact silent_enter p _

theorem markReady_silent (p : Propagation) (index generation : ℕ) :
    Silent p (markReady p index generation) := by
  unfold markReady
  dsimp only
  split_ifs
  · exact Silent.refl p
  · refine ((silent_update ?_ ?_).trans (silent_enter _ _)).trans
      (silent_calls (by simp [Router.Frame.Call]))
    · intro h
      cases h
    · rfl

theorem failRunningComponent_silent (p : Propagation) (index : ℕ) :
    Silent p (failRunningComponent plan p index) := by
  unfold failRunningComponent
  dsimp only
  split_ifs
  · exact Silent.refl p
  · refine (silent_update ?_ ?_).trans (silent_calls (reported_call _ _))
    · intro h
      cases h
    · rfl

theorem handleSpawnFailure_silent (p : Propagation) (index : ℕ) :
    Silent p (handleSpawnFailure plan p index) := by
  unfold handleSpawnFailure
  exact ((silent_update id rfl).trans (silent_enter _ _)).trans
    (silent_calls (reported_call _ _))

theorem scheduleOrFail_silent (p : Propagation) (index : ℕ) (failed made : Bool) :
    Silent p (scheduleOrFail plan p index failed made) := by
  have hsettled : Silent p (p.on fun s => Supervisor.scheduleOrFail plan
      (idleRouter (fun _ => .refused) fun _ => made) s index failed) :=
    ⟨scheduleOrFail_quiet _ index failed, rfl, id⟩
  unfold scheduleOrFail
  dsimp only
  split_ifs
  · exact hsettled.trans (silent_calls (shutdownCalls_call _))
  · exact hsettled

theorem spawnProcess_silent (p : Propagation) (index : ℕ) (outcome : SpawnOutcome) :
    Silent p (spawnProcess plan p index outcome) := by
  cases outcome with
  | refused => exact handleSpawnFailure_silent p index
  | launched pid watched =>
    have hpid : Silent p (p.on fun s => s.update index fun r => { r with pid := some pid }) :=
      silent_update id rfl
    unfold spawnProcess
    dsimp only
    split_ifs
    · exact hpid.trans (markReady_silent _ _ _)
    · exact hpid
    · exact hpid.trans (failRunningComponent_silent _ _)

theorem launch_silent (p : Propagation) (index : ℕ) (session : Bool) (outcome : SpawnOutcome) :
    Silent p (launch plan p index session outcome) := by
  unfold launch
  split_ifs
  · exact spawnProcess_silent p index outcome
  · exact (addSession_silent p _ _).trans (spawnProcess_silent _ _ _)
  · exact handleSpawnFailure_silent p index

theorem spawnComponent_spawned {session : Bool} {outcome : SpawnOutcome}
    (hdown : p.supervisor.shuttingDown = false) :
    (spawnComponent plan p index session outcome).spawned = p.spawned ++ [index] := by
  unfold spawnComponent
  rw [hdown, if_neg Bool.false_ne_true]
  exact (launch_silent _ index session outcome).spawned

/-- A component that waits starts. -/
theorem starting_moves (hwaiting : (p.supervisor.runtime index).state = .waiting) :
    Moves p { p.on fun s => markStarting s index with spawned := p.spawned ++ [index] } where
  waiting i := by
    by_cases hi : i = index
    · rw [hi]
      exact fun _ => hwaiting
    · rw [on_supervisor, markStarting, update_ne hi]
      exact id
  started := by
    refine ⟨[index], rfl, List.nodup_singleton index, ?_, ?_⟩
    · intro i hi
      rw [List.mem_singleton.mp hi]
      refine ⟨hwaiting, ?_⟩
      rw [on_supervisor, markStarting, update_self]
      intro hstarting
      cases hstarting
    · intro i
      by_cases hi : i = index
      · rw [hi, on_supervisor, markStarting, update_self, List.count_singleton_self]
      · have hcount : [index].count i = 0 := List.count_eq_zero.mpr (by simpa using hi)
        rw [on_supervisor, markStarting, update_ne hi, hcount]
        rfl
  calls := id

theorem spawnComponent_moves {session : Bool} {outcome : SpawnOutcome}
    (hwaiting : (p.supervisor.runtime index).state = .waiting) :
    Moves p (spawnComponent plan p index session outcome) := by
  unfold spawnComponent
  split_ifs
  · exact (Silent.refl p).moves
  · exact (starting_moves hwaiting).trans (launch_silent _ index session outcome).moves

/-! The steps. -/

theorem resume_moves {frame : StartFrame} {label : Label}
    (h : resume plan p frame label = some p') : Moves p p' := by
  cases frame with
  | scan index changed =>
    cases label with
    | spawn session outcome =>
      simp only [resume] at h
      split_ifs at h with hscan
      cases h
      exact (silent_enter p _).moves.trans (spawnComponent_moves (eligible_waiting hscan.2))
    | go =>
      simp only [resume] at h
      split_ifs at h
      · cases h
        exact (silent_enter p _).moves
      · cases h
        exact (silent_enter p _).moves
      · cases h
        exact (Silent.refl p).moves
    | _ => cases h
  | spawning index =>
    cases label <;> cases h
    split_ifs
    · exact (Silent.refl p).moves
    · exact (silent_enter p _).moves
  | refused index =>
    cases label <;> cases h
    exact (scheduleOrFail_silent p index true _).moves
  | readied index =>
    cases label <;> cases h
    have harmed : Silent p (p.on fun s => armIdleTimeout plan s index) :=
      ⟨quiet_of_touches (armIdleTimeout_touches _ index), rfl, id⟩
    exact (harmed.trans (startEligible_silent _)).moves

/-- An exception leaves the entries that it does not erase. -/
def thrown (plan : RuntimePlan) (p : Propagation) : Propagation :=
  { p with
    router := unwound p.router
    supervisor :=
      applyEffects plan p.supervisor (erased p.router.pending (unwound p.router).pending)
    exiting := none
    frames := [] }

theorem step_cases {label : Label} (h : step plan catalog p label = some p') :
    (∃ e r, Router.resumes e = true ∧
      Router.step catalog p.router (answer p.toRoutedSupervisor e) = some r ∧
      p' = { p with toRoutedSupervisor := routed plan p.toRoutedSupervisor r }.calls
        (hookCalls plan p.toRoutedSupervisor)) ∨
    (p.router.stack ≠ [] ∧ p' = thrown plan p) ∨
    (p.router.stack = [] ∧ ∃ frame rest, p.frames = frame :: rest ∧
      resume plan { p with frames := rest } frame label = some p') := by
  unfold step at h
  split at h
  · split_ifs at h with hresumes
    obtain ⟨t, hstep, rfl⟩ := Option.map_eq_some_iff.mp h
    simp only [RoutedSupervisor.step] at hstep
    split_ifs at hstep
    obtain ⟨r, hr, rfl⟩ := Option.map_eq_some_iff.mp hstep
    exact .inl ⟨_, r, hresumes, hr, rfl⟩
  · rename_i hstack
    obtain ⟨t, hstep, rfl⟩ := Option.map_eq_some_iff.mp h
    simp only [RoutedSupervisor.step] at hstep
    split at hstep
    · split_ifs at hstep
      cases hstep
      exact .inr (.inl ⟨by simp [hstack], rfl⟩)
    · cases hstep
  · rename_i hstack
    split at h
    · cases h
    · rename_i frame rest hframes
      exact .inr (.inr ⟨hstack, frame, rest, hframes, h⟩)
  · cases h

theorem answer_hook (t : RoutedSupervisor) (fails : Bool) :
    ∃ fails', answer t (.hook fails) = .hook fails' := by
  simp only [answer]
  split
  · exact ⟨_, rfl⟩
  · exact ⟨fails, rfl⟩

theorem answer_resumes {t : RoutedSupervisor} {e : Router.Event} (h : Router.resumes e = true) :
    Router.resumes (answer t e) = true := by
  cases e with
  | hook fails =>
    obtain ⟨fails', hanswer⟩ := answer_hook t fails
    rw [hanswer]
    rfl
  | call session message source supervisor => cases h
  | _ => exact h

theorem step_moves {label : Label} (h : step plan catalog p label = some p') : Moves p p' := by
  rcases step_cases h with ⟨e, r, he, hstep, rfl⟩ | ⟨-, rfl⟩ | ⟨-, frame, rest, -, hresume⟩
  · have hrouted : Silent p { p with toRoutedSupervisor := routed plan p.toRoutedSupervisor r } :=
      ⟨routed_quiet _ r, rfl, fun hp => Router.step_calls (answer_resumes he) hp hstep⟩
    exact (hrouted.trans (silent_calls (hookCalls_call _))).moves
  · have hthrown : Silent p (thrown plan p) :=
      ⟨quiet_of_touches (applyEffects_touches plan _ _), rfl, fun _ f hf => by cases hf⟩
    exact hthrown.moves
  · have hmoves := resume_moves hresume
    exact ⟨⟨hmoves.waiting, hmoves.started⟩, hmoves.calls⟩

/-! ## What is left to do -/

/-- What a suspended function has left to do. In a shutdown `start_eligible` returns after its
call. -/
def frameWeight (plan : RuntimePlan) (down : Bool) : StartFrame → ℕ
  | .scan index changed =>
    plan.components.length - index + 2 + if changed then plan.components.length + 1 else 0
  | .spawning index =>
    if down then 1 else plan.components.length - index + plan.components.length + 5
  | .refused _ => 1
  | .readied _ => plan.components.length + 3

def weight (plan : RuntimePlan) (p : Propagation) : ℕ :=
  (p.frames.map (frameWeight plan p.supervisor.shuttingDown)).sum

/-- Spawns use up components that wait; between them the functions of the supervisor come to
their ends, and between the steps of these the router comes to the end of its calls. -/
def rank (plan : RuntimePlan) (p : Propagation) : ℕ ×ₗ ℕ ×ₗ ℕ ×ₗ ℕ ×ₗ ℕ :=
  toLex ((Supervisor.waiting plan p.supervisor).card, toLex (weight plan p, p.router.rank))

theorem Spawns.waiting_subset (h : Spawns p p') (plan : RuntimePlan) :
    Supervisor.waiting plan p'.supervisor ⊆ Supervisor.waiting plan p.supervisor := by
  intro i hi
  rw [mem_waiting] at hi ⊢
  exact ⟨hi.1, h.waiting i hi.2⟩

/-- A spawn takes its component out of the waiting ones. -/
theorem card_lt_of_spawned (h : Spawns p p') (hindex : index < plan.components.length)
    (hspawned : p'.spawned = p.spawned ++ [index]) :
    (Supervisor.waiting plan p'.supervisor).card < (Supervisor.waiting plan p.supervisor).card := by
  obtain ⟨started, hstarted, -, hwaiting, -⟩ := h.started
  obtain rfl := List.append_cancel_left (hspawned.symm.trans hstarted)
  obtain ⟨hbefore, hafter⟩ := hwaiting index (List.mem_singleton_self index)
  apply Finset.card_lt_card
  rw [Finset.ssubset_iff_of_subset (h.waiting_subset plan)]
  exact ⟨index, mem_waiting.mpr ⟨hindex, hbefore⟩, fun hmem => hafter (mem_waiting.mp hmem).2⟩

theorem rank_lt_of_spawned (h : Spawns p p') (hindex : index < plan.components.length)
    (hspawned : p'.spawned = p.spawned ++ [index]) : rank plan p' < rank plan p :=
  Prod.Lex.toLex_lt_toLex.mpr (.inl (card_lt_of_spawned h hindex hspawned))

theorem rank_lt_of_weight (h : Spawns p p') (hweight : weight plan p' < weight plan p) :
    rank plan p' < rank plan p :=
  Prod.Lex.toLex_lt_toLex'.mpr
    ⟨Finset.card_le_card (h.waiting_subset plan),
      fun _ => Prod.Lex.toLex_lt_toLex.mpr (.inl hweight)⟩

theorem rank_lt_of_router (h : Spawns p p') (hweight : weight plan p' ≤ weight plan p)
    (hrouter : p'.router.rank < p.router.rank) : rank plan p' < rank plan p :=
  Prod.Lex.toLex_lt_toLex'.mpr
    ⟨Finset.card_le_card (h.waiting_subset plan),
      fun _ => Prod.Lex.toLex_lt_toLex'.mpr ⟨hweight, fun _ => hrouter⟩⟩

theorem frameWeight_pos (down : Bool) (f : StartFrame) : 0 < frameWeight plan down f := by
  cases f with
  | spawning index =>
    simp only [frameWeight]
    split_ifs <;> omega
  | scan index changed =>
    simp only [frameWeight]
    omega
  | refused index => exact Nat.one_pos
  | readied index => exact Nat.succ_pos _

/-- A shutdown shortens what is left. -/
theorem frameWeight_le {down down' : Bool} (h : down = true → down' = true) (f : StartFrame) :
    frameWeight plan down' f ≤ frameWeight plan down f := by
  cases f with
  | spawning index =>
    cases down with
    | false =>
      simp only [frameWeight, Bool.false_eq_true, if_false]
      split_ifs <;> omega
    | true => rw [h rfl]
  | _ => exact le_rfl

theorem weight_le_of_quiet (h : Quiet p.supervisor p'.supervisor) (hframes : p'.frames = p.frames) :
    weight plan p' ≤ weight plan p := by
  unfold weight
  rw [hframes]
  exact List.sum_le_sum fun f _ => frameWeight_le h.shuttingDown f

theorem weight_enter (p : Propagation) (f : StartFrame) : weight plan (p.enter f)
    = frameWeight plan p.supervisor.shuttingDown f + weight plan p := rfl

/-- A function of the supervisor returns or calls another one. -/
theorem weight_lt_of_next {f : StartFrame} (h : p' = p ∨ ∃ g, p' = p.enter g ∧
      frameWeight plan p.supervisor.shuttingDown g < frameWeight plan p.supervisor.shuttingDown f) :
    weight plan p' < weight plan (p.enter f) := by
  rcases h with rfl | ⟨g, rfl, hlt⟩
  · rw [weight_enter]
    exact Nat.lt_add_of_pos_left (frameWeight_pos _ f)
  · rw [weight_enter, weight_enter]
    exact Nat.add_lt_add_right hlt _

theorem scheduleOrFail_frames (p : Propagation) (index : ℕ) (failed made : Bool) :
    (scheduleOrFail plan p index failed made).frames = p.frames := by
  unfold scheduleOrFail
  dsimp only
  split_ifs <;> rfl

/-- The step of a function of the supervisor; `p` is the state without its frame. -/
theorem resume_rank {frame : StartFrame} {label : Label}
    (h : resume plan p frame label = some p') : rank plan p' < rank plan (p.enter frame) := by
  have hspawns : Spawns (p.enter frame) p' := ⟨(resume_moves h).waiting, (resume_moves h).started⟩
  cases frame with
  | scan index changed =>
    cases label with
    | spawn session outcome =>
      simp only [resume] at h
      split_ifs at h with hscan
      cases h
      by_cases hdown : p.supervisor.shuttingDown
      · apply rank_lt_of_weight hspawns
        apply weight_lt_of_next
        refine .inr ⟨.spawning index, ?_, ?_⟩
        · rw [spawnComponent, if_pos (by exact hdown)]
        · simp only [frameWeight, hdown, if_true]
          omega
      · apply rank_lt_of_spawned hspawns hscan.1
        exact spawnComponent_spawned (Bool.eq_false_iff.mpr hdown)
    | go =>
      apply rank_lt_of_weight hspawns
      apply weight_lt_of_next
      simp only [resume] at h
      split_ifs at h with hindex heligible hagain
      · cases h
        refine .inr ⟨_, rfl, ?_⟩
        simp only [frameWeight]
        omega
      · cases h
        rw [Bool.and_eq_true] at hagain
        refine .inr ⟨_, rfl, ?_⟩
        simp only [frameWeight, hagain.1, if_true, Bool.false_eq_true, if_false]
        omega
      · cases h
        exact .inl rfl
    | _ => cases h
  | spawning index =>
    cases label <;> cases h
    apply rank_lt_of_weight hspawns
    apply weight_lt_of_next
    split_ifs with hdown
    · exact .inl rfl
    · refine .inr ⟨_, rfl, ?_⟩
      simp only [frameWeight, hdown, if_true, Bool.false_eq_true, if_false]
      omega
  | refused index =>
    cases label <;> cases h
    apply rank_lt_of_weight hspawns
    refine Nat.lt_of_le_of_lt ?_ (weight_lt_of_next (.inl rfl))
    exact weight_le_of_quiet (scheduleOrFail_silent p index true _).quiet
      (scheduleOrFail_frames p index true _)
  | readied index =>
    cases label <;> cases h
    apply rank_lt_of_weight hspawns
    apply weight_lt_of_next (p := p.on fun s => armIdleTimeout plan s index)
    unfold startEligible
    split_ifs
    · exact .inl rfl
    · refine .inr ⟨_, rfl, ?_⟩
      simp only [frameWeight, Bool.false_eq_true, if_false]
      omega

/-- A step of the router, with the close that a failing hook makes first. -/
theorem routed_rank {e : Router.Event} {r : Router.State} (he : Router.resumes e = true)
    (h : Router.step catalog p.router (answer p.toRoutedSupervisor e) = some r) :
    ({ p with toRoutedSupervisor := routed plan p.toRoutedSupervisor r }.calls
      (hookCalls plan p.toRoutedSupervisor)).router.rank < p.router.rank := by
  rcases hookCalls_cases plan p.toRoutedSupervisor with hnone | ⟨c, g, rest, hstack, hclose⟩
  · rw [hnone]
    obtain ⟨f, t, hp, hturn⟩ := Router.step_turn (answer_resumes he) h
    rw [hp]
    exact hturn.rank_lt
  · rw [hclose]
    obtain ⟨f, t, hp, hturn⟩ := Router.step_turn (answer_resumes he) h
    rw [hp] at hstack ⊢
    obtain rfl := (List.cons.inj hstack).1
    cases hturn with
    | ignored => exact Router.closed_rank _ c g
    | failed => exact Router.failed_rank t c g

theorem step_rank {label : Label} (h : step plan catalog p label = some p') :
    rank plan p' < rank plan p := by
  have hspawns := (step_moves h).toSpawns
  rcases step_cases h with ⟨e, r, he, hstep, rfl⟩ | ⟨hstack, rfl⟩ |
    ⟨-, frame, rest, hframes, hresume⟩
  · apply rank_lt_of_router hspawns
    · exact weight_le_of_quiet (routed_quiet _ r) rfl
    · exact routed_rank he hstep
  · apply rank_lt_of_router hspawns
    · exact Nat.zero_le _
    · refine Router.rank_lt_of_weight le_rfl (List.length_filter_le _ _) ?_
      exact Router.weight_pos hstack
  · have hrank := resume_rank hresume
    have hp : { p with frames := rest }.enter frame = p := by
      rw [enter, ← hframes]
    rwa [hp] at hrank

/-! ## Every call returns -/

theorem resume_isSome (plan : RuntimePlan) (p : Propagation) (frame : StartFrame) :
    ∃ label, (resume plan p frame label).isSome := by
  cases frame with
  | scan index changed =>
    by_cases hindex : index < plan.components.length
    · by_cases heligible : eligible plan p.supervisor index
      · refine ⟨.spawn true .refused, ?_⟩
        simp only [resume, hindex, heligible, and_self, if_true]
        rfl
      · exact ⟨.go, by simp only [resume, hindex, heligible, if_true]; rfl⟩
    · exact ⟨.go, by simp only [resume, hindex, if_false]; rfl⟩
  | spawning index => exact ⟨.go, rfl⟩
  | refused index => exact ⟨.timer true, rfl⟩
  | readied index => exact ⟨.go, rfl⟩

theorem step_router_isSome {e : Router.Event} (hstack : p.router.stack ≠ [])
    (he : Router.resumes e = true)
    (h : (Router.step catalog p.router (answer p.toRoutedSupervisor e)).isSome) :
    (step plan catalog p (.router e)).isSome := by
  obtain ⟨f, rest, hcons⟩ := List.exists_cons_of_ne_nil hstack
  have hreadies : readies e = false := by
    cases e with
    | supervise op => cases he
    | _ => rfl
  have hrouted : (RoutedSupervisor.step plan catalog p.toRoutedSupervisor (.router e)).isSome := by
    simp only [RoutedSupervisor.step, hcons, hreadies]
    simpa using h
  unfold step
  rw [hcons]
  simpa only [he, if_true, Option.isSome_map] using hrouted

theorem exists_step (plan : RuntimePlan) (catalog : Router.Catalog) (h : Router.Calls p.router) :
    Returned p ∨ ∃ label p', step plan catalog p label = some p' := by
  cases hstack : p.router.stack with
  | nil =>
    cases hframes : p.frames with
    | nil => exact .inl ⟨hstack, hframes⟩
    | cons frame rest =>
      obtain ⟨label, hsome⟩ := resume_isSome plan { p with frames := rest } frame
      obtain ⟨p', hp'⟩ := Option.isSome_iff_exists.mp hsome
      refine .inr ⟨label, p', ?_⟩
      unfold step
      rw [hstack, hframes]
      exact hp'
  | cons f rest =>
    have hp : p.router = Router.State.push { p.router with stack := rest } f := by
      rw [Router.State.push, ← hstack]
    have hne : p.router.stack ≠ [] := by
      rw [hstack]
      exact List.cons_ne_nil _ _
    have hsome : ∃ label, (step plan catalog p label).isSome := by
      rw [hp] at h
      rcases h.exists_step catalog with hsent | hgo | hhook
      · refine ⟨.router (.sent false), step_router_isSome hne rfl ?_⟩
        rw [hp]
        exact hsent
      · refine ⟨.router .go, step_router_isSome hne rfl ?_⟩
        rw [hp]
        exact hgo
      · refine ⟨.router (.hook false), step_router_isSome hne rfl ?_⟩
        obtain ⟨fails, hanswer⟩ := answer_hook p.toRoutedSupervisor false
        rw [hanswer, hp]
        exact hhook fails
    obtain ⟨label, hsome⟩ := hsome
    obtain ⟨p', hp'⟩ := Option.isSome_iff_exists.mp hsome
    exact .inr ⟨label, p', hp'⟩

theorem begin_moves (book : Router.Book) (s : Supervisor) (call : Call) :
    Moves { router := { toBook := book }, supervisor := s } (begin book s call) := by
  cases call with
  | startEligible => exact (startEligible_silent _).moves
  | markReady index generation => exact (markReady_silent _ index generation).moves

/-- Every call returns. Meanwhile no component begins to wait, and each one is spawned at most
once, out of the waiting ones. -/
theorem call_returns (plan : RuntimePlan) (catalog : Router.Catalog) (book : Router.Book)
    (s : Supervisor) (call : Call) :
    Runs.Inevitable (step plan catalog) Returned (begin book s call) ∧
      ∀ labels p, Runs.run (step plan catalog) (begin book s call) labels = some p →
        ∀ labels' p', Runs.run (step plan catalog) p labels' = some p' → Spawns p p' := by
  constructor
  · apply Runs.inevitable_of_measure (rank plan) fun p => Router.Calls p.router
    · exact fun p hp => exists_step plan catalog hp
    · exact fun p label p' hp h => ⟨(step_moves h).calls hp, step_rank h⟩
    · exact (begin_moves book s call).calls (fun f hf => by cases hf)
  · intro _ p _ labels p' hrun
    exact Runs.run_related Spawns.refl Spawns.trans (fun _ _ _ h => (step_moves h).toSpawns) labels
      hrun

/-- `client` starts once `server` is ready. -/
def chainedPlan : RuntimePlan where
  components := [{ id := ascii "server" }, { id := ascii "client", after := [ascii "server"] }]

def bothWaiting : Supervisor where
  runtime _ := {}

/-- The server is ready at once, and the client is refused by the nested `start_eligible`. -/
def nestedStart : List Label :=
  [.spawn true (.launched 101 true), .router .go, .go, .go, .spawn true .refused, .router .go,
    .timer true] ++ List.replicate 11 .go

theorem call_returns_nested :
    ∃ p, Runs.run (step chainedPlan Router.twoComponents)
        (begin {} bothWaiting .startEligible) nestedStart = some p ∧
      p.spawned = [0, 1] ∧ Returned p ∧ Spawns (begin {} bothWaiting .startEligible) p := by
  have hsome : (Runs.run (step chainedPlan Router.twoComponents)
      (begin {} bothWaiting .startEligible) nestedStart).isSome := by decide +kernel
  obtain ⟨p, hp⟩ := Option.isSome_iff_exists.mp hsome
  have hend : (Runs.run (step chainedPlan Router.twoComponents)
      (begin {} bothWaiting .startEligible) nestedStart).map (fun p =>
        (p.spawned, p.router.stack, p.frames)) = some ([0, 1], [], []) := by decide +kernel
  rw [hp, Option.map_some, Option.some.injEq, Prod.mk.injEq, Prod.mk.injEq] at hend
  exact ⟨p, hp, hend.1, hend.2,
    (call_returns chainedPlan Router.twoComponents {} bothWaiting .startEligible).2 [] _ rfl
      nestedStart p hp⟩

end Propagation

end MsysCore.Native
