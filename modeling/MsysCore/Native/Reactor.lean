import MsysCore.Lib.History
import MsysCore.Lib.Runs

/-!
# The reactor

`reactor.cpp`, `reactor_events.cpp` and `reactor_children.cpp`: the tables of watched fds,
timers, signals and children, and `run_once` with its loops. One step runs up to the next user
callback or loop turn; what the kernel answers is part of the step. While a callback runs, the
steps are what it calls; it does not run the loop itself. A callback that throws is isolated,
and an exception of the reactor itself leaves `run_once`. Calls whose arguments are refused
change nothing and are not steps. `log` is ghost.
-/

namespace MsysCore.Native.Reactor

inductive CallbackKind
  | fd | timer | signal | child
  deriving DecidableEq

/-- The callback of a source. -/
inductive Target
  | wake | signals | fd | timer
  /-- The pidfd of a watched child. -/
  | child (id : ℕ)
  deriving DecidableEq

structure Source where
  id : ℕ
  fd : ℕ
  publicRemovable : Bool
  target : Target
  deriving DecidableEq

structure SignalWatch where
  id : ℕ
  signalNumber : ℕ
  deriving DecidableEq

inductive ChildBackend
  | pidfd | sigchld
  deriving DecidableEq

inductive ChildExitKind
  | exited | signaled | lost
  deriving DecidableEq

structure ChildExit where
  pid : ℕ
  backend : ChildBackend
  kind : ChildExitKind
  status : ℕ := 0
  coreDumped : Bool := false
  deriving DecidableEq

structure ChildWatch where
  id : ℕ
  pid : ℕ
  pidfd : Option ℕ
  sourceId : Option ℕ
  backend : ChildBackend
  deriving DecidableEq

structure PendingChild where
  id : ℕ
  result : ChildExit
  deriving DecidableEq

/-- Where `run_once` stands. -/
inductive Phase
  | idle
  /-- `dispatch_pending_children`, before the poll or after the batch. -/
  | dispatching (first : Bool)
  | polling
  /-- The ids of the batch that are still to be looked up. -/
  | events (rest : List ℕ)
  /-- `drain_signals` at the signal numbers of the records it has read. -/
  | draining (rest records : List ℕ)
  /-- `drain_signals` at the callbacks it copied for one record. -/
  | watchers (rest records callbacks : List ℕ)
  deriving DecidableEq

inductive Fact
  /-- An id was taken from `next_id`. -/
  | issued (id : ℕ)
  /-- `remove` returned `true`. -/
  | removed (id : ℕ)
  | invoked (kind : CallbackKind) (id : ℕ)
  | finished (kind : CallbackKind) (id : ℕ) (threw : Bool)
  /-- `watch_child` returned a handle. -/
  | watched (id pid : ℕ)
  /-- `unwatch_child` returned `true`. -/
  | unwatched (id : ℕ)
  /-- `waitid` gave the exit of the child, or `ECHILD`. -/
  | reported (id : ℕ)
  | queued (id : ℕ)
  /-- `dispatch_pending_children` returned. -/
  | dispatched
  /-- `take_callback_failures` returned these. -/
  | taken (failures : List (CallbackKind × ℕ))
  deriving DecidableEq

structure State where
  /-- `PidfdPolicy::automatic` -/
  automatic : Bool
  nextId : ℕ := 3
  sources : List Source := [⟨1, 0, false, .wake⟩, ⟨2, 1, false, .signals⟩]
  signalWatches : List SignalWatch := []
  children : List ChildWatch := []
  pendingChildren : List PendingChild := []
  callbackFailures : List (CallbackKind × ℕ) := []
  pidfdWaitidUnavailable : Bool := false
  stopRequested : Bool := false
  callbackCount : ℕ := 0
  phase : Phase := .idle
  running : Option (CallbackKind × ℕ) := none
  log : List Fact := [.issued 1, .issued 2]
  deriving DecidableEq

def State.record (s : State) (fact : Fact) : State := { s with log := s.log ++ [fact] }

/-! ## Tables -/

/-- `next_id`; `none` when it throws. -/
def nextId (s : State) : Option (ℕ × State) :=
  if s.nextId = 2 ^ 64 - 1 then none
  else some (s.nextId, { s with nextId := s.nextId + 1, log := s.log ++ [.issued s.nextId] })

/-- `add_source`; no id when it throws. -/
def addSource (s : State) (fd : ℕ) (publicRemovable : Bool) (target : Target)
    (controlFails : Bool) : Option ℕ × State :=
  match nextId s with
  | none => (none, s)
  | some (id, s) =>
    if controlFails then (none, s)
    else (some id, { s with sources := s.sources ++ [⟨id, fd, publicRemovable, target⟩] })

def removeSource (s : State) (id : ℕ) : State :=
  { s with sources := s.sources.eraseP fun source => source.id = id }

def findSource (s : State) (id : ℕ) : Option Source :=
  s.sources.find? fun source => source.id = id

def findChild (s : State) (id : ℕ) : Option ChildWatch :=
  s.children.find? fun child => child.id = id

/-- The child leaves the table together with its source. -/
def dropChild (s : State) (child : ChildWatch) : State :=
  let s := { s with children := s.children.filter fun other => other.id ≠ child.id }
  match child.sourceId with
  | some sourceId => removeSource s sourceId
  | none => s

/-! ## Handles -/

def watchFd (s : State) (fd : ℕ) (controlFails : Bool) : State :=
  if s.sources.any fun source => source.fd = fd then s
  else (addSource s fd true .fd controlFails).2

/-- `fd` is what `timerfd_create` returns. -/
def addTimer (s : State) (fd : ℕ) (controlFails : Bool) : State :=
  (addSource s fd true .timer controlFails).2

def watchSignal (s : State) (signalNumber : ℕ) : State :=
  match nextId s with
  | none => s
  | some (id, s) => { s with signalWatches := s.signalWatches ++ [⟨id, signalNumber⟩] }

def remove (s : State) (handle : ℕ) : State :=
  if s.signalWatches.any fun watch => watch.id = handle then
    { s with
      signalWatches := s.signalWatches.eraseP fun watch => watch.id = handle
      log := s.log ++ [.removed handle] }
  else
    match findSource s handle with
    | none => s
    | some source =>
      if source.publicRemovable then (removeSource s handle).record (.removed handle) else s

/-! ## Children -/

inductive ExitCode
  | exited | killed | dumped
  deriving DecidableEq

/-- The answer of one `waitid`, after the retries of interrupted calls. -/
inductive WaitAnswer
  | running
  | gone (code : ExitCode) (status : ℕ)
  /-- `ECHILD` -/
  | noChild
  /-- `EINVAL` or `ENOSYS` -/
  | unsupported
  | failed
  deriving DecidableEq

/-- What `waitid` answers for a child, by pidfd and by pid. -/
structure ChildWaits where
  pidfd : WaitAnswer := .running
  pid : WaitAnswer := .running
  deriving DecidableEq

/-- The answer of `pidfd_open`. -/
inductive OpenAnswer
  | opened (fd : ℕ)
  /-- `ESRCH`, or an error that means there are no pidfds. -/
  | unavailable
  | failed
  deriving DecidableEq

def completeChild (s : State) (id : ℕ) (result : ChildExit) : State :=
  match findChild s id with
  | none => s
  | some child =>
    let s := dropChild s child
    { s with
      pendingChildren := s.pendingChildren ++ [⟨id, result⟩]
      log := s.log ++ [.queued id] }

def exitOf (child : ChildWatch) (code : ExitCode) (status : ℕ) : ChildExit where
  pid := child.pid
  backend := child.backend
  kind := if code = .exited then .exited else .signaled
  status := status
  coreDumped := code = .dumped

def lostChild (child : ChildWatch) : ChildExit where
  pid := child.pid
  backend := child.backend
  kind := .lost

/-- What follows a `waitid` that gave the exit of the child, or `ECHILD`. -/
def reportChild (s : State) (child : ChildWatch) (result : ChildExit) : State :=
  completeChild (s.record (.reported child.id)) child.id result

/-- The second half of `try_reap_child`, which waits for the pid. -/
def reapByPid (s : State) (child : ChildWatch) (answer : WaitAnswer) : Bool × State :=
  match answer with
  | .running => (true, s)
  | .gone code status => (true, reportChild s child (exitOf child code status))
  | .noChild => (true, reportChild s child (lostChild child))
  | .unsupported | .failed => (false, s)

/-- `try_reap_child`: whether it returned, and the state. -/
def tryReapChild (s : State) (id : ℕ) (waits : ChildWaits) : Bool × State :=
  match findChild s id with
  | none => (true, s)
  | some child =>
    if child.pidfd.isSome ∧ s.pidfdWaitidUnavailable = false then
      match waits.pidfd with
      | .running => (true, s)
      | .gone code status => (true, reportChild s child (exitOf child code status))
      | .noChild => (true, reportChild s child (lostChild child))
      | .unsupported => reapByPid { s with pidfdWaitidUnavailable := true } child waits.pid
      | .failed => (false, s)
    else reapByPid s child waits.pid

/-- The loop of `reap_sigchld_children` over the ids it copied. -/
def reapChildren (waits : ℕ → ChildWaits) : List ℕ → State → Bool × State
  | [], s => (true, s)
  | id :: ids, s =>
    match tryReapChild s id (waits id) with
    | (false, s) => (false, s)
    | (true, s) => reapChildren waits ids s

def sigchldIds (s : State) : List ℕ :=
  (s.children.filter fun child => child.backend = .sigchld).map ChildWatch.id

/-- The pidfd of a child to watch; `none` when `watch_child` throws. -/
def openPidfd (s : State) (answer : OpenAnswer) : Option (Option ℕ) :=
  if s.automatic then
    match answer with
    | .opened fd => some (some fd)
    | .unavailable => some none
    | .failed => none
  else some none

/-- The handler of `watch_child`: the new child is dropped. -/
def abandonChild (s : State) (id : ℕ) : State :=
  match findChild s id with
  | none => s
  | some child => dropChild s child

/-- The source of the pidfd of a new child: whether it was added, and the state. -/
def watchPidfd (s : State) (id : ℕ) (pidfd : Option ℕ) (controlFails : Bool) : Bool × State :=
  match pidfd with
  | none => (true, s)
  | some fd =>
    match addSource s fd false (.child id) controlFails with
    | (none, s) => (false, s)
    | (some sourceId, s) =>
      (true, { s with children := s.children.map fun child =>
        if child.id = id then { child with sourceId := some sourceId } else child })

def watchChild (s : State) (pid : ℕ) (answer : OpenAnswer) (controlFails : Bool)
    (waits : ChildWaits) : State :=
  if s.children.any fun child => child.pid = pid then s
  else
    match openPidfd s answer with
    | none => s
    | some pidfd =>
      match nextId s with
      | none => s
      | some (id, s) =>
        let backend := if pidfd.isSome then .pidfd else .sigchld
        let s := { s with children := s.children ++ [⟨id, pid, pidfd, none, backend⟩] }
        match watchPidfd s id pidfd controlFails with
        | (false, s) => abandonChild s id
        | (true, s) =>
          match tryReapChild s id waits with
          | (false, s) => abandonChild s id
          | (true, s) => s.record (.watched id pid)

def unwatchChild (s : State) (handle pid : ℕ) : State :=
  match findChild s handle with
  | none => s
  | some child =>
    if child.pid ≠ pid then s else (dropChild s child).record (.unwatched handle)

/-! ## Callbacks -/

/-- A call of the owner of the reactor or of a callback. -/
inductive Operation
  | watchFd (fd : ℕ) (controlFails : Bool)
  | addTimer (fd : ℕ) (controlFails : Bool)
  | watchSignal (signalNumber : ℕ)
  | remove (handle : ℕ)
  | watchChild (pid : ℕ) (answer : OpenAnswer) (controlFails : Bool) (waits : ChildWaits)
  | unwatchChild (handle pid : ℕ)
  | takeCallbackFailures
  | requestStop

def perform (s : State) : Operation → State
  | .watchFd fd controlFails => watchFd s fd controlFails
  | .addTimer fd controlFails => addTimer s fd controlFails
  | .watchSignal signalNumber => watchSignal s signalNumber
  | .remove handle => remove s handle
  | .watchChild pid answer controlFails waits => watchChild s pid answer controlFails waits
  | .unwatchChild handle pid => unwatchChild s handle pid
  | .takeCallbackFailures =>
    { s with callbackFailures := [], log := s.log ++ [.taken s.callbackFailures] }
  | .requestStop => { s with stopRequested := true }

def invoke (s : State) (kind : CallbackKind) (id : ℕ) (phase : Phase) : State :=
  { s with phase := phase, running := some (kind, id), log := s.log ++ [.invoked kind id] }

/-- The end of a callback. -/
def finish (s : State) (kind : CallbackKind) (id : ℕ) (threw : Bool) : State :=
  { s with
    running := none
    callbackCount := s.callbackCount + 1
    callbackFailures :=
      if threw then s.callbackFailures ++ [(kind, id)] else s.callbackFailures
    log := s.log ++ [.finished kind id threw] }

/-! ## The loop -/

def sigchld : ℕ := 17

inductive ReadAnswer
  | expired | again | failed
  deriving DecidableEq

/-- The answer of a read of the signalfd; an empty batch is an invalid read. -/
inductive SignalRead
  | batch (records : List ℕ)
  | again | failed
  deriving DecidableEq

/-- What the kernel answers in one step of the loop; each step reads at most one of these. -/
structure Answers where
  /-- The batch of `epoll_wait`; `none` for an error. -/
  ready : Option (List ℕ) := some []
  wakeFails : Bool := false
  timer : ReadAnswer := .expired
  signals : SignalRead := .again
  waits : ℕ → ChildWaits := fun _ => {}

/-- An exception leaves `run_once`. -/
def leave (s : State) : State := { s with phase := .idle }

def goTo (s : State) (phase : Phase) : State := { s with phase := phase }

def dispatchEvent (s : State) (source : Source) (rest : List ℕ) (answers : Answers) : State :=
  match source.target with
  | .wake => if answers.wakeFails then leave s else goTo s (.events rest)
  | .signals => goTo s (.draining rest [])
  | .fd => invoke s .fd source.id (.events rest)
  | .timer =>
    match answers.timer with
    | .expired => invoke s .timer source.id (.events rest)
    | .again => goTo s (.events rest)
    | .failed =>
      -- the read is part of the isolated callback
      goTo { s with
        callbackCount := s.callbackCount + 1
        callbackFailures := s.callbackFailures ++ [(.timer, source.id)] } (.events rest)
  | .child id =>
    match tryReapChild s id (answers.waits id) with
    | (true, s) => goTo s (.events rest)
    | (false, s) => leave s

def advance (s : State) (answers : Answers) : State :=
  match s.phase with
  | .idle => s
  | .dispatching first =>
    match s.pendingChildren with
    | [] =>
      let s := s.record .dispatched
      if first ∧ ¬ (s.callbackCount ≠ 0 ∨ s.stopRequested) then goTo s .polling else goTo s .idle
    | pending :: rest => invoke { s with pendingChildren := rest } .child pending.id s.phase
  | .polling =>
    match answers.ready with
    | none => leave s
    | some batch => goTo s (.events batch)
  | .events [] => goTo s (.dispatching false)
  | .events (id :: rest) =>
    match findSource s id with
    | none => goTo s (.events rest)
    | some source => dispatchEvent s source rest answers
  | .draining rest [] =>
    match answers.signals with
    | .again => goTo s (.events rest)
    | .failed | .batch [] => leave s
    | .batch records => goTo s (.draining rest records)
  | .draining rest (record :: records) =>
    match if record = sigchld then reapChildren answers.waits (sigchldIds s) s else (true, s) with
    | (false, s) => leave s
    | (true, s) =>
      let callbacks := (s.signalWatches.filter fun watch => watch.signalNumber = record).map
        SignalWatch.id
      goTo s (.watchers rest records callbacks)
  | .watchers rest records [] => goTo s (.draining rest records)
  | .watchers rest records (id :: ids) => invoke s .signal id (.watchers rest records ids)

inductive Label
  | perform (operation : Operation)
  | runOnce
  | advance (answers : Answers)
  /-- The running callback returns or throws. -/
  | finish (threw : Bool)

def step (s : State) : Label → Option State
  | .perform operation =>
    if s.running.isSome ∨ s.phase = .idle then some (perform s operation) else none
  | .runOnce =>
    if s.phase = .idle then some { s with callbackCount := 0, phase := .dispatching true }
    else none
  | .advance answers =>
    if s.running.isNone ∧ s.phase ≠ .idle then some (advance s answers) else none
  | .finish threw =>
    match s.running with
    | some (kind, id) => some (finish s kind id threw)
    | none => none

def initial (automatic : Bool) : State := { automatic := automatic }

end MsysCore.Native.Reactor
