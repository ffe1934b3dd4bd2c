import MsysCore.Core.StartLocks

/-!
# Idle reaping

The idle timers of on-demand components on top of the supervisor. An expired timer runs an
ordinary `stop_component` of its instance within its own task, and with it the stops of
the visual clients of a display provider. A cancelled task goes on until it is suspended
the next time; what it then meets is a `CancelledError`, wherever it is.

Time is in milliseconds.
-/

namespace MsysCore.Core

open Python

/-- What the manifest of a component says about idling. -/
structure IdlePolicy where
  /-- `component.lifecycle == "on-demand"` -/
  onDemand : Component → Bool
  idleTimeoutMs : Component → Option ℕ
  /-- `_provides_display_output` -/
  displayOutput : Component → Bool

/-- A task that runs `_idle_stop_after`. -/
structure IdleTimer where
  object : ℕ
  /-- When its sleep ends. -/
  deadline : ℕ
  cancelled : Bool := false
  /-- The `stop_component` of its own instance, once the timer has expired. -/
  stop : Option ℕ := none
  /-- The stop has begun a display outage. -/
  outage : Bool := false
  /-- The stop of a visual client that is under way. -/
  client : Option ℕ := none
  deriving DecidableEq

structure IdleCore where
  supervisor : Supervisor
  /-- `in_flight_calls`, by instance object -/
  inFlightCalls : ℕ → ℕ
  idleTask : ℕ → Option ℕ
  /-- The tasks that have not ended. -/
  timers : ℕ → Option IdleTimer
  nextTimer : ℕ
  /-- The timer whose task runs a call of the supervisor. -/
  runner : ℕ → Option ℕ
  now : ℕ

namespace IdleCore

variable (policy : IdlePolicy)

def initial (components : PyStr → Option Component) (roles : List (PyStr × RoleState)) :
    IdleCore where
  supervisor := Supervisor.initial components roles
  inFlightCalls := fun _ => 0
  idleTask := fun _ => none
  timers := fun _ => none
  nextTimer := 0
  runner := fun _ => none
  now := 0

/-- `_idle_timeout_seconds` -/
def idleTimeout (inst : Instance) : Option ℕ :=
  if policy.onDemand inst.component then policy.idleTimeoutMs inst.component else none

def setIdleTask (s : IdleCore) (i : ℕ) (task : Option ℕ) : IdleCore :=
  { s with idleTask := Function.update s.idleTask i task }

def setTimer (s : IdleCore) (t : ℕ) (timer : Option IdleTimer) : IdleCore :=
  { s with timers := Function.update s.timers t timer }

def setInFlight (s : IdleCore) (i calls : ℕ) : IdleCore :=
  { s with inFlightCalls := Function.update s.inFlightCalls i calls }

/-- `task.cancel()` -/
def cancelTimer (s : IdleCore) (t : ℕ) : IdleCore :=
  s.setTimer t ((s.timers t).map fun timer => { timer with cancelled := true })

/-- The `finally` of `_idle_stop_after`. -/
def endTimer (s : IdleCore) (t : ℕ) (timer : IdleTimer) : IdleCore :=
  let s := s.setTimer t none
  if s.idleTask timer.object = some t then s.setIdleTask timer.object none else s

/-- `_cancel_idle_task` -/
def cancelIdleTask (s : IdleCore) (i : ℕ) : IdleCore :=
  match s.idleTask i with
  | none => s
  | some t => (s.setIdleTask i none).cancelTimer t

/-- `_cancel_instance_tasks`, as far as the idle task goes; `current` is the timer whose task
runs it. -/
def cancelInstanceTasks (s : IdleCore) (i : ℕ) (current : Option ℕ) : IdleCore :=
  match s.idleTask i with
  | none => s
  | some t => if some t = current then s else (s.setIdleTask i none).cancelTimer t

/-- The guard that `_schedule_idle_task` and the end of the sleep share. -/
def isReapable (s : IdleCore) (i : ℕ) (inst : Instance) : Bool :=
  s.inFlightCalls i = 0 && inst.ready && !inst.finalized && s.supervisor.isCurrent i inst
    && !s.supervisor.stopping && !s.supervisor.stopRequests inst.key

def armTimer (s : IdleCore) (i delay : ℕ) : IdleCore :=
  { (s.setTimer s.nextTimer (some { object := i, deadline := s.now + delay })).setIdleTask i
      (some s.nextTimer) with
    nextTimer := s.nextTimer + 1 }

def scheduleIdleTask (s : IdleCore) (i : ℕ) : IdleCore :=
  match s.supervisor.heap i with
  | none => s
  | some inst =>
    match idleTimeout policy inst with
    | none => s
    | some delay =>
      if s.isReapable i inst then
        match s.idleTask i with
        | none => s.armTimer i delay
        | some t => if (s.timers t).isSome then s else s.armTimer i delay
      else s

/-! ## Calls -/

def beginForwardCall (s : IdleCore) (i : ℕ) : IdleCore :=
  (s.setInFlight i (s.inFlightCalls i + 1)).cancelIdleTask i

def finishForwardCall (s : IdleCore) (i : ℕ) : IdleCore :=
  if s.inFlightCalls i = 0 then s
  else
    let s := s.setInFlight i (s.inFlightCalls i - 1)
    if s.inFlightCalls i = 0 then scheduleIdleTask policy s i else s

/-! ## Expiry -/

/-- `_begin_display_outage` has something to do. -/
def beginsOutage (s : IdleCore) (inst : Instance) : Bool :=
  !s.supervisor.stopping && policy.displayOutput inst.component
    && match s.supervisor.registry.activeProvider Supervisor.displayRole with
      | .ok provider => provider = some inst.key
      | .error _ => false

/-- The task of a timer opens a call of the supervisor. -/
def openStop (s : IdleCore) (t : ℕ) (key : PyStr) (expected : Option ℕ) : IdleCore :=
  { s with
    supervisor := (s.supervisor.setStopRequest key true).openCall (.stop key expected .retry)
    runner := Function.update s.runner s.supervisor.nextCall (some t) }

/-- `_idle_stop_after` after its sleep. -/
def expire (s : IdleCore) (t : ℕ) (timer : IdleTimer) : IdleCore :=
  match s.supervisor.heap timer.object with
  | none => s.endTimer t timer
  | some inst =>
    if s.idleTask timer.object = some t ∧ s.isReapable timer.object inst then
      (s.openStop t inst.key (some timer.object)).setTimer t (some
        { timer with stop := some s.supervisor.nextCall, outage := beginsOutage policy s inst })
    else s.endTimer t timer

/-- `_suspend_display_consumers` of an expired timer comes to a client. -/
def suspendClient (s : IdleCore) (t : ℕ) (timer : IdleTimer) (key : PyStr) : IdleCore :=
  (s.openStop t key none).setTimer t (some { timer with client := some s.supervisor.nextCall })

/-! ## Steps of the supervisor -/

/-- The call that takes the step, and whether the step raises a `CancelledError` in it. -/
def stopTurn : Supervisor.Label → Option (ℕ × Bool)
  | .stop (.retryEnded c) | .stop (.suspended c) | .stop (.lock c) | .stop (.lockFailed c)
  | .stop (.terminated c) => some (c, false)
  | .stop (.retryCancelled c) | .stop (.cancelled c) | .stop (.abort c) => some (c, true)
  | _ => none

/-- The timer whose task takes the step. -/
def runnerOf (s : IdleCore) (label : Supervisor.Label) : Option ℕ :=
  (stopTurn label).bind fun turn => s.runner turn.1

/-- The task of an expired timer is in the innermost of its calls, which raises once the task is
cancelled. -/
def isInnermost (timer : IdleTimer) (turn : ℕ × Bool) : Bool :=
  (timer.client = none || timer.client = some turn.1) && turn.2 == timer.cancelled

def isAllowed (s : IdleCore) (label : Supervisor.Label) : Bool :=
  match stopTurn label with
  | none => true
  | some turn =>
    match s.runner turn.1 with
    | none => true
    | some t =>
      match s.timers t with
      | none => false
      | some timer => isInnermost timer turn

/-- The instance whose tasks are cancelled in the step. -/
def retiredBy (sup : Supervisor) : Supervisor.Label → Option ℕ
  | .stop (.lock c) =>
    match sup.calls c with
    | some (.stop key expected _) =>
      match OrderedDict.get sup.instances key with
      | none => none
      | some i => if expected.isSome && expected ≠ some i then none else some i
    | _ => none
  | .start (.retire c) | .start (.finalize c) =>
    match sup.calls c with
    | some (.start key _) => (sup.current key).map Prod.fst
    | _ => none
  | .life (.watcherFinalize i) => some i
  | _ => none

/-- The instance that `_component_became_ready` is told about in the step. -/
def readiedBy : Supervisor.Label → Option ℕ
  | .life (.readyMessage i) | .life (.probeReady i) | .lease (.leasePreferred i) => some i
  | _ => none

/-- A call that has returned ends the task of its timer, or lets it go on to the next client. -/
def closeStop (s : IdleCore) (label : Supervisor.Label) : IdleCore :=
  match stopTurn label with
  | none => s
  | some (c, _) =>
    match s.supervisor.calls c, s.runner c with
    | none, some t =>
      match s.timers t with
      | none => s
      | some timer =>
        if timer.stop = some c then s.endTimer t timer
        else s.setTimer t (some { timer with client := none })
    | _, _ => s

/-- The idle task of the instance that the step makes ready. -/
def scheduleReadied (s : IdleCore) (label : Supervisor.Label) : IdleCore :=
  match readiedBy label with
  | none => s
  | some i => scheduleIdleTask policy s i

/-- The idle tasks of the instances that the step retires and makes ready. -/
def adjustTasks (s : IdleCore) (label : Supervisor.Label) (supervisor : Supervisor) : IdleCore :=
  let t := { s with supervisor := supervisor }
  let t := match retiredBy s.supervisor label with
    | none => t
    | some i => t.cancelInstanceTasks i (s.runnerOf label)
  scheduleReadied policy t label

def supervise (s : IdleCore) (label : Supervisor.Label) (supervisor : Supervisor) : IdleCore :=
  (adjustTasks policy s label supervisor).closeStop label

/-! ## The machine -/

inductive Label
  | supervisor (label : Supervisor.Label)
  | beginCall (i : ℕ)
  | finishCall (i : ℕ)
  | expire (t : ℕ)
  | suspendClient (t : ℕ) (key : PyStr)
  /-- The `CancelledError` reaches a timer that sleeps. -/
  | unwind (t : ℕ)
  | elapse (ms : ℕ)

def step (s : IdleCore) : Label → Option IdleCore
  | .supervisor label =>
    if s.isAllowed label then (s.supervisor.step label).map (supervise policy s label) else none
  | .beginCall i =>
    -- `_forward_call` refuses any other instance
    match s.supervisor.heap i with
    | none => none
    | some inst => if s.supervisor.isCurrent i inst then some (s.beginForwardCall i) else none
  | .finishCall i => if s.inFlightCalls i = 0 then none else some (finishForwardCall policy s i)
  | .expire t =>
    match s.timers t with
    | none => none
    | some timer =>
      if timer.stop = none ∧ timer.cancelled = false ∧ timer.deadline ≤ s.now then
        some (expire policy s t timer)
      else none
  | .suspendClient t key =>
    match s.timers t with
    | none => none
    | some timer =>
      match timer.stop.bind s.supervisor.calls with
      | some (.stop own _ .suspending) =>
        if timer.outage ∧ timer.client = none ∧ timer.cancelled = false ∧ key ≠ own then
          some (s.suspendClient t timer key)
        else none
      | _ => none
  | .unwind t =>
    match s.timers t with
    | none => none
    | some timer =>
      if timer.stop = none ∧ timer.cancelled then some (s.endTimer t timer) else none
  | .elapse ms => some { s with now := s.now + ms }

end IdleCore

end MsysCore.Core
