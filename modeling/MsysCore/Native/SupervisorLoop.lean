import MsysCore.Lib.History
import MsysCore.Native.SupervisorRuns

/-!
# The loop of the native supervisor, with its exceptions

`Supervisor` takes every call of the router as returning. Here it may throw: a reply to a
client whose socket is full has to watch that socket anew, and the reactor may refuse. An
exception leaves the state behind as it found it. `handle_call` swallows those of a request,
the reactor records those of any other callback, and `run` acts on them after its batch.

Without exceptions the handlers are those of `Supervisor`. `marks` and `threw` are ghost.
-/

namespace MsysCore.Native

/-- A call of the router or the broker from inside a handler. -/
structure RouterCall where
  /-- The effects until it returns or throws. -/
  effects : List RouterEffect := []
  throws : Bool := false

/-- What the handlers of one callback meet. -/
structure Surroundings where
  spawn : ℕ → SpawnOutcome
  timer : ℕ → Bool
  /-- `handle_spawn_failure` reports a component unavailable. -/
  refused : ℕ → RouterCall
  /-- `fail_running_component` does. -/
  failed : ℕ → RouterCall
  /-- `on_child_exit` does. -/
  exited : ℕ → RouterCall
  ready : ℕ → RouterCall
  /-- The effects of `close_component_session` alone, which is `noexcept`. -/
  closed : ℕ → List RouterEffect

/-- What `stop_next` and an operator's stop meet. -/
def Surroundings.closing (env : Surroundings) : Environment where
  spawn := env.spawn
  unavailable := env.closed
  ready := fun i => (env.ready i).effects
  timer := env.timer

/-- The surroundings in which no call throws. -/
def Surroundings.of (env : Environment) : Surroundings where
  spawn := env.spawn
  timer := env.timer
  refused := fun i => ⟨env.unavailable i, false⟩
  failed := fun i => ⟨env.unavailable i, false⟩
  exited := fun i => ⟨env.unavailable i, false⟩
  ready := fun i => ⟨env.ready i, false⟩
  closed := env.unavailable

/-- What happens to the processes, in order. -/
inductive Mark
  | spawned (index sequence : ℕ)
  /-- `on_child_exit` has processed the exit. -/
  | exited (index : ℕ)
  /-- `begin_shutdown` takes effect. -/
  | shutdown
  /-- `stop_next` sends SIGTERM to a component with this `start_sequence`. -/
  | sigterm (index sequence : ℕ)
  | done
  deriving DecidableEq

structure LoopState where
  supervisor : Supervisor
  /-- The reactor has recorded a callback failure that `run` has not taken yet. -/
  failures : Bool := false
  /-- Some callback has thrown. -/
  threw : Bool := false
  marks : List Mark := []

/-- How a handler ends: an exception carries the state that it leaves behind. -/
abbrev Outcome := Except LoopState LoopState

namespace LoopState

open Supervisor

variable (plan : RuntimePlan) (env : Surroundings)

def on (l : LoopState) (f : Supervisor → Supervisor) : LoopState :=
  { l with supervisor := f l.supervisor }

def mark (l : LoopState) (m : Mark) : LoopState := { l with marks := l.marks ++ [m] }

def report (l : LoopState) (call : RouterCall) : Outcome :=
  let l := l.on fun s => applyEffects plan s call.effects
  if call.throws then .error l else .ok l

def failRunningComponent (l : LoopState) (index : ℕ) : Outcome :=
  let r := l.supervisor.runtime index
  if r.pid.isNone ∨ r.state = .stopping then .ok l
  else report plan (l.on fun s => s.update index markFailed) (env.failed index)

/-! ## Shutdown -/

/-- `stop_next` on the components that are left. -/
def stopNext (l : LoopState) (order : List ℕ) : LoopState :=
  let stopped := l.on fun s => Supervisor.stopNext plan env.closing s order
  match order.find? fun i => (l.supervisor.runtime i).pid.isSome with
  | none => stopped.mark .done
  | some index => stopped.mark (.sigterm index (l.supervisor.runtime index).startSequence)

def beginShutdown (l : LoopState) (code : ℕ) : LoopState :=
  if l.supervisor.shuttingDown then
    l.on fun s => if code ≠ 0 ∧ s.exitCode = 0 then { s with exitCode := code } else s
  else
    let order := runningOrder plan l.supervisor
    let halted := l.on fun s =>
      { s with
        shuttingDown := true
        exitCode := code
        runtime := fun i => haltRuntime (s.runtime i) }
    stopNext plan env (halted.mark .shutdown) order

/-! ## Restarts and starts -/

def scheduleOrFail (l : LoopState) (index : ℕ) (failed : Bool) : LoopState :=
  let component := componentPlan plan index
  if mayRestart component (l.supervisor.runtime index) failed then
    let l := l.on fun s => s.update index (countRestart component)
    if env.timer index then
      l.on fun s => s.update index fun r => { r with restartTimer := some r.generation }
    else
      beginShutdown plan env (l.on fun s => s.update index fun r => { r with state := .failed })
        internalSupervisorExit
  else
    let l := l.on fun s =>
      s.update index fun r => { r with state := if failed then .failed else .stopped }
    if component.critical then beginShutdown plan env l terminalComponentExit else l

def handleSpawnFailure (l : LoopState) (index : ℕ) : Outcome := do
  let l := l.on fun s => s.update index fun r =>
    { r with pid := none, readinessFailed := true, idleTimer := none }
  let l ← report plan l (env.refused index)
  return scheduleOrFail plan env l index true

section Again

-- The nested `start_eligible`.
variable (again : LoopState → Outcome)

def markReady (l : LoopState) (index generation : ℕ) : Outcome :=
  let r := l.supervisor.runtime index
  if r.generation ≠ generation ∨ r.state ≠ .starting then .ok l
  else do
    let l := l.on fun s => s.update index fun r => { r with state := .ready }
    let l ← report plan l (env.ready index)
    again (l.on fun s => armIdleTimeout plan s index)

def spawnComponent (l : LoopState) (index : ℕ) : Outcome :=
  if l.supervisor.shuttingDown then .ok l
  else
    let l := l.on fun s => markStarting s index
    match env.spawn l.supervisor.startSequence with
    | .refused => handleSpawnFailure plan env l index
    | .launched pid watched =>
      let l := (l.on fun s => s.update index fun r => { r with pid := some pid }).mark
        (.spawned index l.supervisor.startSequence)
      if (componentPlan plan index).readiness = .exec then
        markReady plan env again l index (l.supervisor.runtime index).generation
      else if watched then .ok l
      else failRunningComponent plan env l index

/-- One round over the components; the flag says that one of them was spawned. -/
def startRound : List ℕ → LoopState → Bool → Except LoopState (LoopState × Bool)
  | [], l, changed => .ok (l, changed)
  | index :: rest, l, changed =>
    if eligible plan l.supervisor index then do
      let l ← spawnComponent plan env again l index
      if l.supervisor.shuttingDown then return (l, changed) else startRound rest l true
    else startRound rest l changed

end Again

def startEligibleFuel : ℕ → LoopState → Outcome
  | 0, l => .ok l
  | fuel + 1, l =>
    if l.supervisor.shuttingDown then .ok l
    else do
      let (l, changed) ← startRound plan env (startEligibleFuel fuel)
        (List.range plan.components.length) l false
      if changed && !l.supervisor.shuttingDown then startEligibleFuel fuel l else return l

def startEligible (l : LoopState) : Outcome :=
  startEligibleFuel plan env (plan.components.length + 1) l

/-! ## Requests; their replies are those of `Supervisor` -/

def requestStart (l : LoopState) (index : ℕ) : Outcome :=
  startEligible plan env <| l.on fun s => s.update index fun r =>
    { r with manualStop := false, readinessFailed := false, restartCount := 0, state := .waiting }

def brokerStartComponent (l : LoopState) (component : Bytes) : Outcome :=
  match componentIndex plan component with
  | none => .ok l
  | some index =>
    if l.supervisor.shuttingDown then .ok l
    else
      let state := (l.supervisor.runtime index).state
      let l := l.on fun s => recordStart s index
      let started : Outcome :=
        if state = .stopped ∨ state = .failed then requestStart plan env l index
        else if state = .waiting then startEligible plan env l
        else .ok l
      do
        let l ← started
        if (componentPlan plan index).launchable ∧ (l.supervisor.runtime index).state = .ready then
          return l.on fun s => armIdleTimeout plan s index
        else return l

def routerActivateComponent (l : LoopState) (index : ℕ) : Outcome :=
  if plan.components.length ≤ index ∨ l.supervisor.shuttingDown then .ok l
  else
    match (l.supervisor.runtime index).state with
    | .ready | .starting | .waiting | .backoff => .ok (l.on fun s => commanded s index .activation)
    | .stopping => .ok l
    | .stopped | .failed =>
      requestStart plan env (l.on fun s => commanded s index .activation) index

/-! ## Callbacks -/

def readinessEvent (l : LoopState) (index generation : ℕ) (ready : Bool) : Outcome :=
  let r := l.supervisor.runtime index
  if r.generation ≠ generation ∨ r.state ≠ .starting then .ok l
  else if ready then markReady plan env (startEligible plan env) l index generation
  else failRunningComponent plan env l index

def brokerComponentReady (l : LoopState) (component : Bytes) (generation : ℕ) : Outcome :=
  match componentIndex plan component with
  | none => .ok l
  | some index =>
    if (componentPlan plan index).readiness ≠ .mipc then .ok l
    else markReady plan env (startEligible plan env) l index generation

def brokerComponentDisconnected (l : LoopState) (component : Bytes) (generation : ℕ) : Outcome :=
  match componentIndex plan component with
  | none => .ok l
  | some index =>
    let r := l.supervisor.runtime index
    if r.generation = generation ∧ r.pid.isSome ∧ (r.state = .starting ∨ r.state = .ready) then
      failRunningComponent plan env l index
    else .ok l

def restartTimerEvent (l : LoopState) (index generation : ℕ) : Outcome :=
  let r := l.supervisor.runtime index
  if r.generation ≠ generation ∨ r.state ≠ .backoff ∨ l.supervisor.shuttingDown then .ok l
  else
    startEligible plan env <| l.on fun s =>
      s.update index fun r => { r with restartTimer := none, state := .waiting }

def onChildExit (l : LoopState) (index generation pid : ℕ) (exitFailed : Bool) : Outcome :=
  let r := l.supervisor.runtime index
  if r.generation ≠ generation ∨ r.pid ≠ some pid then .ok l
  else do
    let l := l.on fun s => s.update index fun r => { r with idleTimer := none }
    let call := env.exited index
    let l ← report plan l ⟨call.effects.filter (· ≠ .lost index), call.throws⟩
    let l := (l.on fun s => (s.setStartPending index false).update index fun r =>
      { r with pid := none, inflightCalls := 0 }).mark (.exited index)
    let r := l.supervisor.runtime index
    let failed := r.readinessFailed || exitFailed
    if l.supervisor.shuttingDown then
      let l := l.on fun s => s.update index fun r => { r with state := .stopped }
      if l.supervisor.stoppingIndex = some index then
        return stopNext plan env (l.on fun s => { s with stoppingIndex := none })
          l.supervisor.stopOrder
      else return l
    else if r.manualStop then
      return l.on fun s => s.update index fun r =>
        { r with manualStop := false, readinessFailed := false, state := .stopped }
    else
      return scheduleOrFail plan env
        (l.on fun s => s.update index fun r => { r with readinessFailed := false }) index failed

/-! ## The machine -/

/-- `handle_call` catches what a request throws. -/
def caught : Outcome → LoopState
  | .ok l => l
  | .error l => l

structure Label where
  event : Event
  env : Surroundings
  /-- The reply of `handle_call`, or what else the router does in its own callback. -/
  reply : RouterCall := {}

def callback (l : LoopState) (label : Label) : Option Outcome :=
  let env := label.env
  match label.event with
  | .start component =>
    some (report plan (caught (brokerStartComponent plan env l component)) label.reply)
  | .stop component =>
    some (report plan (l.on fun s => (brokerStopComponent plan env.closing s component).1)
      label.reply)
  | .activate index =>
    some (report plan (caught (routerActivateComponent plan env l index)) label.reply)
  | .readiness index generation ready => some (readinessEvent plan env l index generation ready)
  | .channelReady component generation =>
    some (brokerComponentReady plan env l component generation)
  | .channelLost component generation =>
    some (brokerComponentDisconnected plan env l component generation)
  | .idleTimer index =>
    (l.supervisor.runtime index).idleTimer.map fun generation =>
      .ok (l.on fun s => idleTimerEvent plan env.closing s index generation)
  | .restartTimer index =>
    (l.supervisor.runtime index).restartTimer.map fun generation =>
      restartTimerEvent plan env l index generation
  | .childExit index generation pid failed =>
    some (onChildExit plan env l index generation pid failed)
  | .router effects => some (report plan (l.on fun s => applyEffects plan s effects) label.reply)
  | .shutdown code => some (.ok (beginShutdown plan env l code))

/-- The reactor records what a callback throws. -/
def recorded : Outcome → LoopState
  | .ok l => l
  | .error l => { l with failures := true, threw := true }

inductive Turn
  | callback (label : Label)
  /-- `run` takes the failures of a batch of callbacks. -/
  | failures (env : Surroundings)

def step (l : LoopState) : Turn → Option LoopState
  | .callback label => (callback plan l label).map recorded
  | .failures env =>
    if l.failures then
      let l := { l with failures := false }
      -- `emergency_kill_all` sends signals only
      if l.supervisor.shuttingDown then
        some (l.on fun s => { s with exitCode := internalSupervisorExit, done := true })
      else some (beginShutdown plan env l internalSupervisorExit)
    else none

/-- `run` up to its loop. -/
def initial (catalog : NativeCatalog) : Outcome :=
  startEligible plan env
    { supervisor :=
        { runtime := fun i =>
            { state :=
                if i < plan.components.length ∧ shouldEagerStart plan catalog i then .waiting
                else .stopped } } }

/-! ## Without exceptions -/

section Gives

variable {plan : RuntimePlan} {env : Environment} {l : LoopState} {index : ℕ}

/-- The handler returns, and leaves the supervisor in `s`. -/
def Gives (o : Outcome) (s : Supervisor) : Prop := ∃ l, o = .ok l ∧ l.supervisor = s

theorem Gives.bind {o : Outcome} {s t : Supervisor} {f : LoopState → Outcome} (h : Gives o s)
    (hf : ∀ l, l.supervisor = s → Gives (f l) t) : Gives (o >>= f) t := by
  obtain ⟨l, rfl, hl⟩ := h
  exact hf l hl

theorem Gives.of_eq {s : Supervisor} (h : l.supervisor = s) : Gives (.ok l) s := ⟨l, rfl, h⟩

theorem gives_ite {p : Prop} [Decidable p] {o o' : Outcome} {s s' : Supervisor} (h : Gives o s)
    (h' : Gives o' s') : Gives (if p then o else o') (if p then s else s') := by
  split_ifs
  · exact h
  · exact h'

theorem report_gives (effects : List RouterEffect) :
    Gives (report plan l ⟨effects, false⟩) (applyEffects plan l.supervisor effects) :=
  ⟨_, rfl, rfl⟩

theorem failRunningComponent_gives :
    Gives (failRunningComponent plan (.of env) l index)
      (Supervisor.failRunningComponent plan env l.supervisor index) := by
  unfold failRunningComponent Supervisor.failRunningComponent
  dsimp only
  split_ifs
  · exact .of_eq rfl
  · exact report_gives _

theorem stopNext_supervisor (order : List ℕ) :
    (stopNext plan (.of env) l order).supervisor =
      Supervisor.stopNext plan env l.supervisor order := by
  unfold stopNext
  dsimp only
  split <;> rfl

theorem beginShutdown_supervisor (code : ℕ) :
    (beginShutdown plan (.of env) l code).supervisor =
      Supervisor.beginShutdown plan env l.supervisor code := by
  unfold beginShutdown Supervisor.beginShutdown
  by_cases hdown : l.supervisor.shuttingDown
  · rw [if_pos hdown, if_pos hdown]
    rfl
  · rw [if_neg hdown, if_neg hdown]
    exact stopNext_supervisor _

theorem scheduleOrFail_supervisor (failed : Bool) :
    (scheduleOrFail plan (.of env) l index failed).supervisor =
      Supervisor.scheduleOrFail plan env l.supervisor index failed := by
  unfold scheduleOrFail Supervisor.scheduleOrFail
  dsimp only
  by_cases hrestart : mayRestart (componentPlan plan index) (l.supervisor.runtime index) failed
  · rw [if_pos hrestart, if_pos hrestart]
    by_cases htimer : env.timer index
    · rw [if_pos htimer]
      exact congrArg supervisor (if_pos htimer)
    · rw [if_neg htimer]
      exact (congrArg supervisor (if_neg htimer)).trans (beginShutdown_supervisor _)
  · rw [if_neg hrestart, if_neg hrestart]
    by_cases hcritical : (componentPlan plan index).critical
    · rw [if_pos hcritical, if_pos hcritical]
      exact beginShutdown_supervisor _
    · rw [if_neg hcritical, if_neg hcritical]
      rfl

theorem handleSpawnFailure_gives :
    Gives (handleSpawnFailure plan (.of env) l index)
      (Supervisor.handleSpawnFailure plan env l.supervisor index) :=
  ⟨_, rfl, scheduleOrFail_supervisor true⟩

section Again

variable {again : LoopState → Outcome} {again' : Supervisor → Supervisor}
  (hagain : ∀ l, Gives (again l) (again' l.supervisor))
include hagain

theorem markReady_gives (generation : ℕ) :
    Gives (markReady plan (.of env) again l index generation)
      (Supervisor.markReady plan env again' l.supervisor index generation) := by
  unfold markReady Supervisor.markReady
  dsimp only
  split_ifs
  · exact .of_eq rfl
  · exact hagain _

theorem spawnComponent_gives :
    Gives (spawnComponent plan (.of env) again l index)
      (Supervisor.spawnComponent plan env again' l.supervisor index) := by
  unfold spawnComponent Supervisor.spawnComponent
  by_cases hdown : l.supervisor.shuttingDown
  · rw [if_pos hdown, if_pos hdown]
    exact .of_eq rfl
  · rw [if_neg hdown, if_neg hdown]
    dsimp only
    cases houtcome : env.spawn (markStarting l.supervisor index).startSequence with
    | refused =>
      have hloop : (Surroundings.of env).spawn
          (l.on fun s => markStarting s index).supervisor.startSequence = .refused := houtcome
      rw [hloop]
      exact handleSpawnFailure_gives
    | launched pid watched =>
      have hloop : (Surroundings.of env).spawn
          (l.on fun s => markStarting s index).supervisor.startSequence
            = .launched pid watched := houtcome
      rw [hloop]
      dsimp only
      split_ifs
      · exact markReady_gives hagain _
      · exact .of_eq rfl
      · exact failRunningComponent_gives

theorem startRound_gives (order : List ℕ) :
    ∀ (l : LoopState) (changed : Bool), ∃ l' changed',
      startRound plan (.of env) again order l changed = .ok (l', changed') ∧
        Supervisor.startRound plan env again' order l.supervisor changed =
          (l'.supervisor, changed') := by
  induction order with
  | nil => exact fun l changed => ⟨l, changed, rfl, rfl⟩
  | cons index rest ih =>
    intro l changed
    unfold startRound Supervisor.startRound
    by_cases heligible : eligible plan l.supervisor index
    · rw [if_pos heligible, if_pos heligible]
      have hgives : Gives (spawnComponent plan (.of env) again l index) _ :=
        spawnComponent_gives hagain
      obtain ⟨t, hspawn, ht⟩ := hgives
      dsimp only
      rw [hspawn, ← ht]
      by_cases hdown : t.supervisor.shuttingDown
      · rw [if_pos hdown]
        exact ⟨t, changed, if_pos hdown, rfl⟩
      · rw [if_neg hdown]
        obtain ⟨l', changed', hround, hsupervisor⟩ := ih t true
        exact ⟨l', changed', (if_neg hdown).trans hround, hsupervisor⟩
    · rw [if_neg heligible, if_neg heligible]
      exact ih l changed

end Again

theorem startEligibleFuel_gives (fuel : ℕ) :
    ∀ l, Gives (startEligibleFuel plan (.of env) fuel l)
      (Supervisor.startEligibleFuel plan env fuel l.supervisor) := by
  induction fuel with
  | zero => exact fun _ => .of_eq rfl
  | succ fuel ih =>
    intro l
    unfold startEligibleFuel Supervisor.startEligibleFuel
    by_cases hdown : l.supervisor.shuttingDown
    · rw [if_pos hdown, if_pos hdown]
      exact .of_eq rfl
    · rw [if_neg hdown, if_neg hdown]
      obtain ⟨t, changed, hround, hsupervisor⟩ :=
        startRound_gives ih (List.range plan.components.length) l false
      rw [hround, hsupervisor]
      by_cases hchanged : (changed && !t.supervisor.shuttingDown) = true
      · simp only [if_pos hchanged]
        obtain ⟨t', hagain, ht'⟩ := ih t
        exact ⟨t', (if_pos hchanged).trans hagain, ht'⟩
      · simp only [if_neg hchanged]
        exact ⟨t, if_neg hchanged, rfl⟩

theorem startEligible_gives (l : LoopState) :
    Gives (startEligible plan (.of env) l) (Supervisor.startEligible plan env l.supervisor) :=
  startEligibleFuel_gives _ l

theorem requestStart_gives (l : LoopState) (index : ℕ) :
    Gives (requestStart plan (.of env) l index)
      (Supervisor.requestStart plan env l.supervisor index) :=
  startEligible_gives _

theorem brokerStartComponent_gives (component : Bytes) :
    Gives (brokerStartComponent plan (.of env) l component)
      (Supervisor.brokerStartComponent plan env l.supervisor component).1 := by
  unfold brokerStartComponent Supervisor.brokerStartComponent
  cases componentIndex plan component with
  | none => exact .of_eq rfl
  | some index =>
    dsimp only
    by_cases hdown : l.supervisor.shuttingDown
    · rw [if_pos hdown, if_pos hdown]
      exact .of_eq rfl
    · rw [if_neg hdown, if_neg hdown]
      dsimp only
      have hfinish {o : Outcome} {s : Supervisor} (h : Gives o s) :
          Gives (o >>= fun l =>
              if (componentPlan plan index).launchable ∧
                  (l.supervisor.runtime index).state = .ready then
                pure (l.on fun s => armIdleTimeout plan s index)
              else pure l)
            (if (componentPlan plan index).launchable ∧ (s.runtime index).state = .ready then
              armIdleTimeout plan s index else s) := by
        apply h.bind
        rintro l rfl
        split_ifs
        · exact .of_eq rfl
        · exact .of_eq rfl
      apply hfinish
      split_ifs
      · exact requestStart_gives _ index
      · exact startEligible_gives _
      · exact .of_eq rfl

theorem routerActivateComponent_gives :
    Gives (routerActivateComponent plan (.of env) l index)
      (Supervisor.routerActivateComponent plan env l.supervisor index).1 := by
  unfold routerActivateComponent Supervisor.routerActivateComponent
  by_cases hguard : plan.components.length ≤ index ∨ l.supervisor.shuttingDown
  · rw [if_pos hguard, if_pos hguard]
    exact .of_eq rfl
  · rw [if_neg hguard, if_neg hguard]
    cases (l.supervisor.runtime index).state with
    | ready => exact .of_eq rfl
    | starting => exact .of_eq rfl
    | waiting => exact .of_eq rfl
    | backoff => exact .of_eq rfl
    | stopping => exact .of_eq rfl
    | stopped => exact requestStart_gives _ index
    | failed => exact requestStart_gives _ index

theorem readinessEvent_gives (generation : ℕ) (ready : Bool) :
    Gives (readinessEvent plan (.of env) l index generation ready)
      (Supervisor.readinessEvent plan env l.supervisor index generation ready) := by
  unfold readinessEvent Supervisor.readinessEvent
  dsimp only
  split_ifs
  · exact .of_eq rfl
  · exact markReady_gives startEligible_gives generation
  · exact failRunningComponent_gives

theorem brokerComponentReady_gives (component : Bytes) (generation : ℕ) :
    Gives (brokerComponentReady plan (.of env) l component generation)
      (Supervisor.brokerComponentReady plan env l.supervisor component generation) := by
  unfold brokerComponentReady Supervisor.brokerComponentReady
  cases componentIndex plan component with
  | none => exact .of_eq rfl
  | some index =>
    dsimp only
    split_ifs
    · exact .of_eq rfl
    · exact markReady_gives startEligible_gives generation

theorem brokerComponentDisconnected_gives (component : Bytes) (generation : ℕ) :
    Gives (brokerComponentDisconnected plan (.of env) l component generation)
      (Supervisor.brokerComponentDisconnected plan env l.supervisor component generation) := by
  unfold brokerComponentDisconnected Supervisor.brokerComponentDisconnected
  cases componentIndex plan component with
  | none => exact .of_eq rfl
  | some index =>
    dsimp only
    split_ifs
    · exact failRunningComponent_gives
    · exact .of_eq rfl

theorem restartTimerEvent_gives (generation : ℕ) :
    Gives (restartTimerEvent plan (.of env) l index generation)
      (Supervisor.restartTimerEvent plan env l.supervisor index generation) := by
  unfold restartTimerEvent Supervisor.restartTimerEvent
  dsimp only
  split_ifs
  · exact .of_eq rfl
  · exact startEligible_gives _

theorem onChildExit_gives (generation pid : ℕ) (failed : Bool) :
    Gives (onChildExit plan (.of env) l index generation pid failed)
      (Supervisor.onChildExit plan env l.supervisor index generation pid failed) := by
  unfold onChildExit Supervisor.onChildExit
  dsimp only
  by_cases hguard : (l.supervisor.runtime index).generation ≠ generation ∨
      (l.supervisor.runtime index).pid ≠ some pid
  · rw [if_pos hguard, if_pos hguard]
    exact .of_eq rfl
  · rw [if_neg hguard, if_neg hguard]
    apply (report_gives _).bind
    intro t ht
    have hreported : t.supervisor =
        applyEffects plan (l.supervisor.update index fun r => { r with idleTimer := none })
          (exitEffects env index) := ht
    rw [← hreported]
    apply gives_ite
    · apply gives_ite
      · exact .of_eq (stopNext_supervisor _)
      · exact .of_eq rfl
    · apply gives_ite
      · exact .of_eq rfl
      · exact .of_eq (scheduleOrFail_supervisor _)

theorem Gives.answered {o : Outcome} {s : Supervisor} (h : Gives o s) :
    Gives (report plan (caught o) {}) s := by
  obtain ⟨t, rfl, rfl⟩ := h
  exact report_gives []

/-- A callback of the supervisor is one of the loop in which nothing throws. -/
theorem callback_gives {event : Event} {s' : Supervisor}
    (hstep : Supervisor.step plan l.supervisor ⟨event, env⟩ = some s') :
    ∃ o, callback plan l { event, env := .of env } = some o ∧ Gives o s' := by
  cases event with
  | start component =>
    cases hstep
    have hgives : Gives (brokerStartComponent plan (.of env) l component) _ :=
      brokerStartComponent_gives component
    exact ⟨_, rfl, hgives.answered⟩
  | stop component =>
    cases hstep
    exact ⟨_, rfl, report_gives _⟩
  | activate index =>
    cases hstep
    have hgives : Gives (routerActivateComponent plan (.of env) l index) _ :=
      routerActivateComponent_gives
    exact ⟨_, rfl, hgives.answered⟩
  | readiness index generation ready =>
    cases hstep
    exact ⟨_, rfl, readinessEvent_gives generation ready⟩
  | channelReady component generation =>
    cases hstep
    exact ⟨_, rfl, brokerComponentReady_gives component generation⟩
  | channelLost component generation =>
    cases hstep
    exact ⟨_, rfl, brokerComponentDisconnected_gives component generation⟩
  | idleTimer index =>
    obtain ⟨generation, htimer, rfl⟩ := Option.map_eq_some_iff.mp hstep
    exact ⟨_, Option.map_eq_some_iff.mpr ⟨generation, htimer, rfl⟩, .of_eq rfl⟩
  | restartTimer index =>
    obtain ⟨generation, htimer, rfl⟩ := Option.map_eq_some_iff.mp hstep
    exact ⟨_, Option.map_eq_some_iff.mpr ⟨generation, htimer, rfl⟩,
      restartTimerEvent_gives generation⟩
  | childExit index generation pid failed =>
    cases hstep
    exact ⟨_, rfl, onChildExit_gives generation pid failed⟩
  | router effects =>
    cases hstep
    exact ⟨_, rfl, report_gives _⟩
  | shutdown code =>
    cases hstep
    exact ⟨_, rfl, .of_eq (beginShutdown_supervisor code)⟩

open Runs in
/-- The states of a run without exceptions are those of a run of the loop. -/
theorem run_supervisor (labels : List Supervisor.Label) :
    ∀ (l : LoopState) {s' : Supervisor}, run (Supervisor.step plan) l.supervisor labels = some s' →
      ∃ l', l'.supervisor = s' ∧ run (step plan) l (labels.map fun label =>
        .callback { event := label.event, env := .of label.env }) = some l' := by
  induction labels with
  | nil =>
    intro l s' hrun
    cases hrun
    exact ⟨l, rfl, rfl⟩
  | cons label labels ih =>
    intro l s' hrun
    obtain ⟨t, hstep, hrest⟩ := run_cons hrun
    obtain ⟨_, hcallback, next, rfl, rfl⟩ := callback_gives hstep
    obtain ⟨l', hl', hrun'⟩ := ih next hrest
    refine ⟨l', hl', ?_⟩
    rw [List.map_cons, run, step, hcallback]
    exact hrun'

end Gives

end LoopState

end MsysCore.Native
