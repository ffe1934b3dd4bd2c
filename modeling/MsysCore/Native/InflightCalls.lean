import MsysCore.Native.RouterIsolation
import MsysCore.Native.SupervisorRuns

/-!
# The native supervisor beside the native router

`provider_busy_delta` counts the calls in flight of a component for its idle timer, and
`on_child_exit` sets the count back after it has reported the component unavailable. The
router calls `provider_busy_delta` for entries of `pending_`, which it removes in loops that
its own replies re-enter.

A state is one of the router with the processes of the supervisor. When the supervisor starts,
stops and restarts a component is in `Supervisor`; here it may do so at any time between its
calls of the router. `on_child_exit` is followed through, since what it does last depends on
what its call of `component_unavailable` has left.
-/

namespace MsysCore.Native

/-- A router with its supervisor. -/
structure RoutedSupervisor where
  router : Router.State := {}
  supervisor : Supervisor
  /-- `on_child_exit` of this component has not returned. -/
  exiting : Option ℕ := none

namespace RoutedSupervisor

open Supervisor
open Router (PendingCall)

variable (plan : RuntimePlan) (catalog : Router.Catalog)

def updateRuntime (t : RoutedSupervisor) (index : ℕ) (f : ComponentRuntime → ComponentRuntime) :
    RoutedSupervisor :=
  { t with supervisor := t.supervisor.update index f }

def push (t : RoutedSupervisor) (frames : List Router.Frame) : RoutedSupervisor :=
  { t with router := { t.router with stack := frames ++ t.router.stack } }

/-- What the callbacks of the supervisor answer to the router. -/
def callbacks (s : Supervisor) : Router.Supervisor where
  failed index := (s.runtime index).state = .failed
  ready index := (s.runtime index).state = .ready
  generation index := (s.runtime index).generation

/-- `broker_component_disconnected` fails the component. -/
def loses (s : Supervisor) (component generation : ℕ) : Bool :=
  let r := s.runtime component
  r.generation = generation && r.pid.isSome && (r.state = .starting || r.state = .ready)

/-- The event as the router meets it: the supervisor answers its callbacks. -/
def answer (t : RoutedSupervisor) : Router.Event → Router.Event
  | .call session message source _ => .call session message source (callbacks t.supervisor)
  | .hook fails =>
    match t.router.stack with
    | .disconnected component generation :: _ => .hook (loses t.supervisor component generation)
    | _ => .hook fails
  | e => e

/-! ## Calls in flight -/

/-- `erase_pending` takes back the calls of the delivered entries that it removes. -/
def erased (before after : List PendingCall) : List RouterEffect :=
  let removed := before.filter fun p =>
    p.delivered && !(after.map PendingCall.forwardedId).contains p.forwardedId
  removed.map fun p => .idle p.provider

/-- `deliver` counts a call once the provider has it. -/
def counted (s : Router.State) : List RouterEffect :=
  match s.stack with
  | .afterDelivery session index _ _ _ _ :: _ =>
    if (s.findSession session).isSome then
      match s.pending[index]? with
      | some p => [.busy p.provider, .activity p.provider]
      | none => []
    else []
  | _ => []

/-- The component that a `component_disconnected` hook fails. -/
def lost (t : RoutedSupervisor) : Option ℕ :=
  match t.router.stack with
  | .disconnected component generation :: _ =>
    if loses t.supervisor component generation then some component else none
  | _ => none

def afterHook (t : RoutedSupervisor) : Supervisor :=
  match lost t with
  | some component => t.supervisor.update component markFailed
  | none => t.supervisor

/-- A step of the router, with what it does to the supervisor. -/
def routed (t : RoutedSupervisor) (r : Router.State) : RoutedSupervisor :=
  { t with
    router := r
    supervisor := applyEffects plan (afterHook t)
      (erased t.router.pending r.pending ++ counted t.router) }

/-! ## The supervisor -/

/-- A callback of the supervisor is on, or the router has called `activate_component`. -/
def inSupervisor (t : RoutedSupervisor) : Bool :=
  t.exiting.isNone &&
    match t.router.stack with
    | [] => true
    | .activating _ _ _ :: _ => true
    | _ => false

/-- The entries that `queue_provider_call` erases when an exception passes it. -/
def uncaught (frames : List Router.Frame) : List ℕ :=
  frames.filterMap fun frame =>
    match frame with
    | .activating _ _ id => some id
    | .afterDelivery _ _ _ id _ none => some id
    | _ => none

/-- An exception of a send ends the callback. -/
def unwound (s : Router.State) : Router.State :=
  { s with
    stack := []
    pending := s.pending.filter fun p => !(uncaught s.stack).contains p.forwardedId }

/-- `close_component_session` is `noexcept`. -/
def closing (frames : List Router.Frame) : Bool :=
  frames.any fun frame =>
    match frame with
    | .closeLoop _ _ => true
    | _ => false

inductive Label
  | router (e : Router.Event)
  | throws
  /-- `spawn_component` makes a process. -/
  | spawned (index pid : ℕ)
  /-- `spawn_component` does not, and `handle_spawn_failure` reports it. -/
  | refused (index : ℕ)
  /-- `mark_ready` -/
  | ready (index : ℕ)
  /-- Any other state that the supervisor gives a component; only one without a process waits. -/
  | state (index : ℕ) (state : RuntimeState)
  | arm (index : ℕ)
  | idleTimer (index : ℕ)
  /-- `on_child_exit` -/
  | exit (index : ℕ)
  /-- The rest of `on_child_exit`, which leaves the component in `state`. -/
  | exited (state : RuntimeState)

/-- The idle timer of a component, made for `generation`, stops it. -/
def idleStops (t : RoutedSupervisor) (index generation : ℕ) : Prop :=
  let r := t.supervisor.runtime index
  r.generation = generation ∧ r.state = .ready ∧ r.inflightCalls = 0

instance (t : RoutedSupervisor) (index generation : ℕ) :
    Decidable (idleStops t index generation) := inferInstanceAs (Decidable (_ ∧ _))

/-- The session of a component is closed, then the router hears that it is unavailable. -/
def reported (index generation : ℕ) : List Router.Frame :=
  if (componentPlan plan index).readiness = .mipc then
    [.closeLoop index generation, .unavailableLoop index generation 0]
  else [.unavailableLoop index generation 0]

/-- Only `mark_ready` reports a component ready. -/
def readies : Router.Event → Bool
  | .supervise (.componentReady _ _) => true
  | _ => false

def step (t : RoutedSupervisor) : Label → Option RoutedSupervisor
  | .router e =>
    if (t.exiting.isSome ∧ t.router.stack = []) ∨ readies e then none
    else (Router.step catalog t.router (answer t e)).map (routed plan t)
  | .throws =>
    match t.router.stack with
    | .send _ _ _ :: _ =>
      if closing t.router.stack then none
      else
        let r := unwound t.router
        some { t with
          router := r
          supervisor := applyEffects plan t.supervisor (erased t.router.pending r.pending)
          exiting := none }
    | _ => none
  | .spawned index pid =>
    if inSupervisor t ∧ (t.supervisor.runtime index).state = .waiting then
      some { t with supervisor := (markStarting t.supervisor index).update index fun r =>
        { r with pid := some pid } }
    else none
  | .refused index =>
    if inSupervisor t ∧ (t.supervisor.runtime index).state = .waiting then
      let t := { t with supervisor := (markStarting t.supervisor index).update index fun r =>
        { r with pid := none, readinessFailed := true, idleTimer := none } }
      some (push t (reported plan index (t.supervisor.runtime index).generation))
    else none
  | .ready index =>
    let r := t.supervisor.runtime index
    if inSupervisor t ∧ r.pid.isSome ∧ r.state = .starting then
      some (push (updateRuntime t index fun r => { r with state := .ready })
        [.readyLoop index r.generation 0])
    else none
  | .state index state =>
    if inSupervisor t ∧ state ≠ .ready ∧
        (state = .waiting → (t.supervisor.runtime index).pid.isNone) then
      some (updateRuntime t index fun r => { r with state := state })
    else none
  | .arm index => some { t with supervisor := armIdleTimeout plan t.supervisor index }
  | .idleTimer index =>
    if t.exiting.isNone ∧ t.router.stack = [] then
      (t.supervisor.runtime index).idleTimer.map fun generation =>
        let t := updateRuntime t index fun r => { r with idleTimer := none }
        if idleStops t index generation then
          push (updateRuntime t index fun r =>
              { r with manualStop := true, restartTimer := none, state := .stopping })
            [.closeLoop index generation]
        else t
    else none
  | .exit index =>
    let r := t.supervisor.runtime index
    if t.exiting.isNone ∧ t.router.stack = [] ∧ r.pid.isSome then
      some (push { (updateRuntime t index fun r => { r with idleTimer := none }) with
          exiting := some index }
        (reported plan index r.generation))
    else none
  | .exited state =>
    match t.exiting with
    | none => none
    | some index =>
      if t.router.stack = [] ∧ state ≠ .ready then
        some { (updateRuntime t index fun r =>
            { r with pid := none, inflightCalls := 0, state := state }) with exiting := none }
      else none

/-- The supervisor before `run` starts the first component. -/
def initial (native : NativeCatalog) : RoutedSupervisor where
  supervisor :=
    { runtime := fun i =>
        { state :=
            if i < plan.components.length ∧ shouldEagerStart plan native i then .waiting
            else .stopped } }

/-! ## The property -/

/-- The call is with the current process of its provider, and unanswered. -/
def InFlight (s : Supervisor) (index : ℕ) (p : PendingCall) : Prop :=
  p.provider = index ∧ p.delivered = true ∧ p.providerGeneration = (s.runtime index).generation

instance (s : Supervisor) (index : ℕ) (p : PendingCall) : Decidable (InFlight s index p) :=
  inferInstanceAs (Decidable (_ ∧ _))

/-- The counter of each component counts its calls, so that its idle timer stops no component
that has one. -/
structure Accounted (t : RoutedSupervisor) : Prop where
  counts : ∀ index, (t.supervisor.runtime index).inflightCalls =
    t.router.pending.countP fun p => InFlight t.supervisor index p
  idle : ∀ index generation, idleStops t index generation →
    ∀ p ∈ t.router.pending, ¬ InFlight t.supervisor index p

/-- What the step erases brings no entry that the loop of `component_unavailable` at position `n`
has still to fail to a position that the loop has passed. -/
def SkipsNone (s : Router.State) (component generation n : ℕ) (e : Router.Event) : Prop :=
  match s.stack, e with
  | .send session _ _ :: _, .sent true =>
    (s.findSession session).isSome →
      Router.UnavailablePassed (Router.disconnectedBook s.toBook session) component generation n
  | .unavailableLoop c g k :: _ :: _, .go =>
    ∀ p ∈ s.pending[k]?, Router.Affected c g p →
      Router.UnavailablePassed (Router.answered s.toBook k p (.unavailable c g)) component
        generation n
  | _, _ => True

/-- While the loop of `component_unavailable` that `on_child_exit` itself runs waits for one of
its replies, nothing that is erased meanwhile makes it skip a call. -/
def Undisturbed (t : RoutedSupervisor) : Label → Prop
  | .router e =>
    match t.exiting, t.router.stack.getLast? with
    | some _, some (.unavailableLoop component generation n) =>
      SkipsNone t.router component generation n e
    | _, _ => True
  | _ => True

/-- `SkipsNone` as a check. -/
def skipsNone (s : Router.State) (component generation n : ℕ) (e : Router.Event) : Bool :=
  match s.stack, e with
  | .send session _ _ :: _, .sent true =>
    !(s.findSession session).isSome ||
      ((Router.disconnectedBook s.toBook session).pending.take n).all fun p =>
        !decide (Router.Affected component generation p)
  | .unavailableLoop c g k :: _ :: _, .go =>
    s.pending[k]?.all fun p => !decide (Router.Affected c g p) ||
      ((Router.answered s.toBook k p (.unavailable c g)).pending.take n).all fun q =>
        !decide (Router.Affected component generation q)
  | _, _ => true

theorem skipsNone_iff (s : Router.State) (component generation n : ℕ) (e : Router.Event) :
    skipsNone s component generation n e = true ↔ SkipsNone s component generation n e := by
  unfold skipsNone SkipsNone Router.UnavailablePassed
  split
  · simp [Decidable.imp_iff_not_or]
  · simp [Option.all_eq_true, Decidable.imp_iff_not_or]
  · simp

instance (s : Router.State) (component generation n : ℕ) (e : Router.Event) :
    Decidable (SkipsNone s component generation n e) :=
  decidable_of_iff _ (skipsNone_iff s component generation n e)

instance (t : RoutedSupervisor) (l : Label) : Decidable (Undisturbed t l) := by
  unfold Undisturbed
  split
  · split
    · infer_instance
    · exact isTrue trivial
  · exact isTrue trivial

end RoutedSupervisor

end MsysCore.Native
