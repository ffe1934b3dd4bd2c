import MsysCore.Lib.Runs
import MsysCore.Native.Catalog

/-!
# The native supervisor

`native_lite_supervisor.cpp` as a state machine. A label is one reactor callback, or one
request within a callback of the broker. Handlers call the broker and the router, and
these call back before they return: what they then do to the supervisor is a list of
`RouterEffect`, which the environment of the label provides for each place. It also says
what every spawn attempt meets, by the number of the start.

Signals to processes, log lines, readiness descriptors and the foreground list are left
out. `restarts`, `command` and `startPending` are ghost.
-/

namespace MsysCore.Native

inductive RuntimeState
  | waiting | starting | ready | backoff | stopping | stopped | failed
  deriving DecidableEq, Repr

def runtimeStateName : RuntimeState → Bytes
  | .waiting => ascii "waiting"
  | .starting => ascii "starting"
  | .ready => ascii "ready"
  | .backoff => ascii "backoff"
  | .stopping => ascii "stopping"
  | .stopped => ascii "stopped"
  | .failed => ascii "failed"

/-- The states of a dependency that `dependencies_ready` waits for. -/
def RuntimeState.blocks : RuntimeState → Bool
  | .waiting | .starting | .backoff | .stopping => true
  | .ready | .stopped | .failed => false

structure ComponentRuntime where
  state : RuntimeState := .waiting
  /-- `none` for the value `-1`. -/
  pid : Option ℕ := none
  generation : ℕ := 0
  startSequence : ℕ := 0
  restartCount : ℕ := 0
  /-- The generation an armed restart timer was made for. -/
  restartTimer : Option ℕ := none
  idleTimer : Option ℕ := none
  inflightCalls : ℕ := 0
  readinessFailed : Bool := false
  manualStop : Bool := false
  /-- The delays of the automatic restarts so far, in order. -/
  restarts : List ℕ := []
  deriving DecidableEq, Repr

inductive Operator
  | start | stop | activation
  deriving DecidableEq, Repr

structure Supervisor where
  runtime : ℕ → ComponentRuntime
  startSequence : ℕ := 0
  shuttingDown : Bool := false
  /-- The components `stop_next` has still to stop, the next one first. -/
  stopOrder : List ℕ := []
  stoppingIndex : Option ℕ := none
  done : Bool := false
  exitCode : ℕ := 0
  /-- The last accepted command for a component. -/
  command : ℕ → Option Operator := fun _ => none
  /-- A start was accepted while the stop of a process was pending, and no stop since. -/
  startPending : ℕ → Bool := fun _ => false

/-- What the router and the broker do to the supervisor from inside a handler. -/
inductive RouterEffect
  /-- `broker_component_disconnected` of the current generation. -/
  | lost (index : ℕ)
  | busy (index : ℕ)
  | idle (index : ℕ)
  | activity (index : ℕ)
  deriving DecidableEq

inductive SpawnOutcome
  /-- A pipe, a session or the process cannot be made. -/
  | refused
  /-- `watched` says that the readiness watch and timer could be set up. -/
  | launched (pid : ℕ) (watched : Bool)
  deriving DecidableEq

structure Environment where
  spawn : ℕ → SpawnOutcome
  /-- The effects of closing the session of a component and reporting it unavailable. -/
  unavailable : ℕ → List RouterEffect
  /-- The effects of reporting a component ready. -/
  ready : ℕ → List RouterEffect
  /-- `add_timer` for the restart of a component succeeds. -/
  timer : ℕ → Bool

def terminalComponentExit : ℕ := 70
def internalSupervisorExit : ℕ := 71
def maxUint32 : ℕ := 2 ^ 32 - 1

namespace Supervisor

variable (plan : RuntimePlan) (env : Environment)

def componentPlan (index : ℕ) : ComponentPlan := (plan.components[index]?).getD {}

def componentIndex (component : Bytes) : Option ℕ :=
  plan.components.findIdx? fun candidate => candidate.id == component

def update (s : Supervisor) (index : ℕ) (f : ComponentRuntime → ComponentRuntime) : Supervisor :=
  { s with runtime := fun i => if i = index then f (s.runtime i) else s.runtime i }

/-! ## Ghost state -/

/-- The last accepted command of a component becomes `operator`. -/
def commanded (s : Supervisor) (index : ℕ) (operator : Operator) : Supervisor :=
  { s with command := fun i => if i = index then some operator else s.command i }

def setStartPending (s : Supervisor) (index : ℕ) (pending : Bool) : Supervisor :=
  { s with startPending := fun i => if i = index then pending else s.startPending i }

/-- A start was accepted. -/
def recordStart (s : Supervisor) (index : ℕ) : Supervisor :=
  (commanded s index .start).setStartPending index
    (s.startPending index || (s.runtime index).state = .stopping)

def recordStop (s : Supervisor) (index : ℕ) : Supervisor :=
  (commanded s index .stop).setStartPending index false

/-! ## Idle timers and the router -/

def armIdleTimeout (s : Supervisor) (index : ℕ) : Supervisor :=
  let component := componentPlan plan index
  s.update index fun r =>
    { r with
      idleTimer :=
        if component.lifecycle ≠ .onDemand ∨ component.idleTimeoutMs = 0 ∨ r.state ≠ .ready
            ∨ r.inflightCalls ≠ 0 then none
        else some r.generation }

/-- `fail_running_component` up to its calls of the broker and the router. -/
def markFailed (r : ComponentRuntime) : ComponentRuntime :=
  { r with readinessFailed := true, idleTimer := none, state := .stopping }

def busyCalls (calls : ℕ) : ℕ := if calls = maxUint32 then calls else calls + 1

def applyEffect (s : Supervisor) : RouterEffect → Supervisor
  | .lost index =>
    let r := s.runtime index
    if (componentPlan plan index).readiness = .mipc ∧ r.pid.isSome
        ∧ (r.state = .starting ∨ r.state = .ready) then s.update index markFailed
    else s
  | .busy index =>
    s.update index fun r => { r with inflightCalls := busyCalls r.inflightCalls, idleTimer := none }
  | .idle index =>
    if (s.runtime index).inflightCalls = 0 then s
    else
      armIdleTimeout plan
        (s.update index fun r => { r with inflightCalls := r.inflightCalls - 1 }) index
  | .activity index => armIdleTimeout plan s index

/-- A channel that breaks while another one is closed is closed in turn; its effects
follow in the same list. -/
def applyEffects (s : Supervisor) (effects : List RouterEffect) : Supervisor :=
  effects.foldl (applyEffect plan) s

def failRunningComponent (s : Supervisor) (index : ℕ) : Supervisor :=
  let r := s.runtime index
  if r.pid.isNone ∨ r.state = .stopping then s
  else applyEffects plan (s.update index markFailed) (env.unavailable index)

/-! ## Shutdown -/

/-- `stop_next` on the components that are left. -/
def stopNext (s : Supervisor) : List ℕ → Supervisor
  | [] => { s with stopOrder := [], done := true }
  | index :: rest =>
    if (s.runtime index).pid.isNone then stopNext s rest
    else
      applyEffects plan
        ({ s with stopOrder := rest, stoppingIndex := some index }.update index fun r =>
          { r with state := .stopping, idleTimer := none })
        (env.unavailable index)

def haltRuntime (r : ComponentRuntime) : ComponentRuntime :=
  { r with
    restartTimer := none
    idleTimer := none
    state := if r.pid.isNone ∧ r.state ≠ .failed then .stopped else r.state }

/-- The components with a process, the last one started first. -/
def runningOrder (s : Supervisor) : List ℕ :=
  let running := (List.range plan.components.length).filter fun i => (s.runtime i).pid.isSome
  running.insertionSort fun i j => (s.runtime j).startSequence ≤ (s.runtime i).startSequence

def beginShutdown (s : Supervisor) (code : ℕ) : Supervisor :=
  if s.shuttingDown then
    if code ≠ 0 ∧ s.exitCode = 0 then { s with exitCode := code } else s
  else
    stopNext plan env
      { s with
        shuttingDown := true
        exitCode := code
        runtime := fun i => haltRuntime (s.runtime i) }
      (runningOrder plan s)

/-! ## Restarts -/

def policyRestarts (component : ComponentPlan) (failed : Bool) : Bool :=
  component.restart == .always || (component.restart == .onFailure && failed)

/-- The loop of `restart_delay` over the steps that are left. -/
def delayAfter (component : ComponentPlan) : ℕ → ℕ → ℕ
  | 0, delay => delay
  | steps + 1, delay => delayAfter component steps (min component.backoffMaxMs (delay * 2))

def restartDelay (component : ComponentPlan) (count : ℕ) : ℕ :=
  delayAfter component (count - 1) component.backoffInitialMs

/-- The condition of `schedule_or_fail`. -/
def mayRestart (component : ComponentPlan) (r : ComponentRuntime) (failed : Bool) : Bool :=
  policyRestarts component failed && r.restartCount < component.restartLimit

/-- The restart of a component is due after the delay of its next attempt. -/
def countRestart (component : ComponentPlan) (r : ComponentRuntime) : ComponentRuntime :=
  let count := r.restartCount + 1
  { r with
    restartCount := count
    state := .backoff
    restarts := r.restarts ++ [restartDelay component count] }

def scheduleOrFail (s : Supervisor) (index : ℕ) (failed : Bool) : Supervisor :=
  let component := componentPlan plan index
  if mayRestart component (s.runtime index) failed then
    let s := s.update index (countRestart component)
    if env.timer index then s.update index fun r => { r with restartTimer := some r.generation }
    else
      beginShutdown plan env (s.update index fun r => { r with state := .failed })
        internalSupervisorExit
  else
    let s := s.update index fun r => { r with state := if failed then .failed else .stopped }
    if component.critical then beginShutdown plan env s terminalComponentExit else s

/-! ## Starting components -/

def handleSpawnFailure (s : Supervisor) (index : ℕ) : Supervisor :=
  let s := s.update index fun r => { r with pid := none, readinessFailed := true, idleTimer := none }
  scheduleOrFail plan env (applyEffects plan s (env.unavailable index)) index true

/-- `dependencies_ready`; a dependency outside the plan is never ready. -/
def dependenciesReady (s : Supervisor) (index : ℕ) : Bool :=
  (componentPlan plan index).after.all fun dependency =>
    match componentIndex plan dependency with
    | none => false
    | some i => !(s.runtime i).state.blocks

def eligible (s : Supervisor) (index : ℕ) : Bool :=
  (s.runtime index).state = .waiting && dependenciesReady plan s index

/-- `spawn_component` up to its first system call. -/
def markStarting (s : Supervisor) (index : ℕ) : Supervisor :=
  let sequence := s.startSequence + 1
  { s with startSequence := sequence }.update index fun r =>
    { r with
      state := .starting
      readinessFailed := false
      manualStop := false
      generation := r.generation + 1
      startSequence := sequence }

section Again

-- The nested `start_eligible`.
variable (again : Supervisor → Supervisor)

def markReady (s : Supervisor) (index generation : ℕ) : Supervisor :=
  let r := s.runtime index
  if r.generation ≠ generation ∨ r.state ≠ .starting then s
  else
    let s := s.update index fun r => { r with state := .ready }
    again (armIdleTimeout plan (applyEffects plan s (env.ready index)) index)

def spawnComponent (s : Supervisor) (index : ℕ) : Supervisor :=
  if s.shuttingDown then s
  else
    let s := markStarting s index
    match env.spawn s.startSequence with
    | .refused => handleSpawnFailure plan env s index
    | .launched pid watched =>
      let s := s.update index fun r => { r with pid := some pid }
      if (componentPlan plan index).readiness = .exec then
        markReady plan env again s index (s.runtime index).generation
      else if watched then s
      else failRunningComponent plan env s index

/-- One round over the components; the flag says that one of them was spawned. -/
def startRound : List ℕ → Supervisor → Bool → Supervisor × Bool
  | [], s, changed => (s, changed)
  | index :: rest, s, changed =>
    if eligible plan s index then
      let s := spawnComponent plan env again s index
      if s.shuttingDown then (s, changed) else startRound rest s true
    else startRound rest s changed

end Again

/-- `start_eligible`; each round or nested call that spawns uses up some fuel. -/
def startEligibleFuel : ℕ → Supervisor → Supervisor
  | 0, s => s
  | fuel + 1, s =>
    if s.shuttingDown then s
    else
      let (s, changed) := startRound plan env (startEligibleFuel fuel)
        (List.range plan.components.length) s false
      if changed && !s.shuttingDown then startEligibleFuel fuel s else s

/-- No component starts to wait meanwhile, so a spawn for each component is enough. -/
def startEligible (s : Supervisor) : Supervisor :=
  startEligibleFuel plan env (plan.components.length + 1) s

/-! ## Requests -/

structure OperationReply where
  ok : Bool
  component : Bytes
  state : Bytes
  code : Bytes
  message : Bytes
  deriving DecidableEq

/-- An accepted request for a component that has no process and is not due. -/
def requestStart (s : Supervisor) (index : ℕ) : Supervisor :=
  startEligible plan env (s.update index fun r =>
    { r with manualStop := false, readinessFailed := false, restartCount := 0, state := .waiting })

def brokerStartComponent (s : Supervisor) (component : Bytes) : Supervisor × OperationReply :=
  match componentIndex plan component with
  | none => (s, ⟨false, component, [], ascii "NO_COMPONENT", ascii "unknown component"⟩)
  | some index =>
    if s.shuttingDown then
      (s, ⟨false, component, [], ascii "SHUTTING_DOWN", ascii "supervisor is shutting down"⟩)
    else
      let state := (s.runtime index).state
      let s := recordStart s index
      let s :=
        if state = .stopped ∨ state = .failed then requestStart plan env s index
        else if state = .waiting then startEligible plan env s
        else s
      let s :=
        if (componentPlan plan index).launchable ∧ (s.runtime index).state = .ready then
          armIdleTimeout plan s index
        else s
      (s, ⟨true, component, runtimeStateName (s.runtime index).state, [], []⟩)

/-- `broker_stop_component` for a component of the plan. -/
def stopIndex (s : Supervisor) (index : ℕ) : Supervisor :=
  let s := (recordStop s index).update index fun r =>
    { r with manualStop := true, restartTimer := none, idleTimer := none }
  let r := s.runtime index
  if r.pid.isNone then s.update index fun r => { r with state := .stopped }
  else if r.state = .stopping then s
  else
    applyEffects plan (s.update index fun r => { r with state := .stopping }) (env.unavailable index)

def brokerStopComponent (s : Supervisor) (component : Bytes) : Supervisor × OperationReply :=
  match componentIndex plan component with
  | none => (s, ⟨false, component, [], ascii "NO_COMPONENT", ascii "unknown component"⟩)
  | some index =>
    let reached := if (s.runtime index).pid.isNone then ascii "stopped" else ascii "stopping"
    (stopIndex plan env s index, ⟨true, component, reached, [], []⟩)

def routerActivateComponent (s : Supervisor) (index : ℕ) : Supervisor × Bool :=
  if plan.components.length ≤ index ∨ s.shuttingDown then (s, false)
  else
    match (s.runtime index).state with
    | .ready | .starting | .waiting | .backoff => (commanded s index .activation, true)
    | .stopping => (s, false)
    | .stopped | .failed =>
      let s := requestStart plan env (commanded s index .activation) index
      (s, (s.runtime index).state ≠ .failed)

/-! ## Events -/

/-- The end of a readiness wait, by a record, a display, a timeout or an error. -/
def readinessEvent (s : Supervisor) (index generation : ℕ) (ready : Bool) : Supervisor :=
  let r := s.runtime index
  if r.generation ≠ generation ∨ r.state ≠ .starting then s
  else if ready then markReady plan env (startEligible plan env) s index generation
  else failRunningComponent plan env s index

def brokerComponentReady (s : Supervisor) (component : Bytes) (generation : ℕ) : Supervisor :=
  match componentIndex plan component with
  | none => s
  | some index =>
    if (componentPlan plan index).readiness ≠ .mipc then s
    else markReady plan env (startEligible plan env) s index generation

def brokerComponentDisconnected (s : Supervisor) (component : Bytes) (generation : ℕ) :
    Supervisor :=
  match componentIndex plan component with
  | none => s
  | some index =>
    let r := s.runtime index
    if r.generation = generation ∧ r.pid.isSome ∧ (r.state = .starting ∨ r.state = .ready) then
      failRunningComponent plan env s index
    else s

def idleTimerEvent (s : Supervisor) (index generation : ℕ) : Supervisor :=
  let s := s.update index fun r => { r with idleTimer := none }
  let r := s.runtime index
  if r.generation = generation ∧ r.state = .ready ∧ r.inflightCalls = 0 then
    stopIndex plan env s index
  else s

def restartTimerEvent (s : Supervisor) (index generation : ℕ) : Supervisor :=
  let r := s.runtime index
  if r.generation ≠ generation ∨ r.state ≠ .backoff ∨ s.shuttingDown then s
  else
    startEligible plan env
      (s.update index fun r => { r with restartTimer := none, state := .waiting })

/-- The session of the component is closed before the router hears of its end, so the
component itself can not be lost again. -/
def exitEffects (index : ℕ) : List RouterEffect :=
  (env.unavailable index).filter (· ≠ .lost index)

def onChildExit (s : Supervisor) (index generation pid : ℕ) (exitFailed : Bool) : Supervisor :=
  let r := s.runtime index
  if r.generation ≠ generation ∨ r.pid ≠ some pid then s
  else
    let s := applyEffects plan (s.update index fun r => { r with idleTimer := none })
      (exitEffects env index)
    let s := (s.setStartPending index false).update index fun r =>
      { r with pid := none, inflightCalls := 0 }
    let r := s.runtime index
    let failed := r.readinessFailed || exitFailed
    if s.shuttingDown then
      let s := s.update index fun r => { r with state := .stopped }
      if s.stoppingIndex = some index then
        stopNext plan env { s with stoppingIndex := none } s.stopOrder
      else s
    else if r.manualStop then
      s.update index fun r =>
        { r with manualStop := false, readinessFailed := false, state := .stopped }
    else
      scheduleOrFail plan env (s.update index fun r => { r with readinessFailed := false }) index
        failed

/-! ## The machine -/

inductive Event
  | start (component : Bytes)
  | stop (component : Bytes)
  | activate (index : ℕ)
  | readiness (index generation : ℕ) (ready : Bool)
  | channelReady (component : Bytes) (generation : ℕ)
  | channelLost (component : Bytes) (generation : ℕ)
  | idleTimer (index : ℕ)
  | restartTimer (index : ℕ)
  | childExit (index generation pid : ℕ) (failed : Bool)
  | router (effects : List RouterEffect)
  | shutdown (code : ℕ)

structure Label where
  event : Event
  env : Environment

def handle (s : Supervisor) : Event → Option Supervisor
  | .start component => some (brokerStartComponent plan env s component).1
  | .stop component => some (brokerStopComponent plan env s component).1
  | .activate index => some (routerActivateComponent plan env s index).1
  | .readiness index generation ready => some (readinessEvent plan env s index generation ready)
  | .channelReady component generation =>
    some (brokerComponentReady plan env s component generation)
  | .channelLost component generation =>
    some (brokerComponentDisconnected plan env s component generation)
  | .idleTimer index =>
    (s.runtime index).idleTimer.map fun generation => idleTimerEvent plan env s index generation
  | .restartTimer index =>
    (s.runtime index).restartTimer.map fun generation =>
      restartTimerEvent plan env s index generation
  | .childExit index generation pid failed => some (onChildExit plan env s index generation pid failed)
  | .router effects => some (applyEffects plan s effects)
  | .shutdown code => some (beginShutdown plan env s code)

def step (s : Supervisor) (label : Label) : Option Supervisor := handle plan label.env s label.event

/-- `should_eager_start` -/
def shouldEagerStart (catalog : NativeCatalog) (index : ℕ) : Bool :=
  let component := componentPlan plan index
  if plan.startup.contains component.id then true
  else if component.lifecycle ≠ .background then false
  else
    let exclusive := component.provides.filter fun provided =>
      provided.kind = .role && provided.exclusive
    exclusive.isEmpty ||
      exclusive.any fun provided => catalog.preferredRoleProvider provided.name == some index

/-- The supervisor when `run` enters its loop. -/
def initial (catalog : NativeCatalog) : Supervisor :=
  startEligible plan env
    { runtime := fun i =>
        { state :=
            if i < plan.components.length ∧ shouldEagerStart plan catalog i then .waiting
            else .stopped } }

end Supervisor

end MsysCore.Native
