import MsysCore.Core.DependencyGraph
import MsysCore.Core.Supervisor
import MsysCore.Lib.WaitFor

/-!
# The locks of the daemon

Every task of `Msysd` with the stack of `async with` sections it is in, and what it waits
for: a lock, or the end of another task. `Task.mayEnter` says which section the code can
reach next from the innermost one. The catalog lock is in no section, as no task suspends
while it holds it; a cancelled task leaves all its sections in one stretch, and waits for
events, processes and timers are no waits for a task.
-/

namespace MsysCore.Core

open Python

inductive Lock
  | role (name : PyStr)
  | reload
  | recovery
  | start (key : PyStr)
  /-- Not a lock: the end of a task that serves the key, which other tasks may await. -/
  | ended (task : ℕ) (key : PyStr)
  deriving DecidableEq

/-- A stretch of code that runs under a lock. -/
inductive Place
  /-- `dispatch_call`, `select_role`, `reset_role`, `activate_role`, and the outer section of a
  display migration -/
  | role (name : PyStr)
  /-- `reload_installed_components`, the preflight calls and a display migration -/
  | reload
  /-- `_suspend_display_consumers` -/
  | suspend
  /-- `_recover_display_consumers` -/
  | recover
  /-- `_migrate_display_output` -/
  | migrate
  /-- `_ensure_started_locked` -/
  | start (key : PyStr)
  /-- `_stop_component_locked` in `stop_component` -/
  | stop (key : PyStr)
  deriving DecidableEq

def Place.lock : Place → Lock
  | .role name => .role name
  | .reload => .reload
  | .suspend => .recovery
  | .recover => .recovery
  | .migrate => .recovery
  | .start key => .start key
  | .stop key => .start key

structure Frame where
  place : Place
  /-- `component.requires` of the manifest that a start has read. -/
  requires : List PyStr
  deriving DecidableEq

inductive Wait
  | enter (place : Place)
  | task (u : ℕ) (key : PyStr)
  deriving DecidableEq

def Wait.lock : Wait → Lock
  | .enter place => place.lock
  | .task u key => .ended u key

structure Task where
  /-- The key of a `_watch_process` task, of the cleanup after a role switch, or of a stop of the
  shutdown: the tasks that others await without having cancelled them. -/
  serves : Option PyStr
  /-- Innermost first. -/
  frames : List Frame
  wait : Option Wait
  deriving DecidableEq

/-- What the code inside a section can enter. `suspend` is reached through a stop of the active
display provider, or in a start through the finalization of one that has died. -/
def Frame.calls (frame : Frame) (place : Place) : Bool :=
  match frame.place, place with
  | .role name, .reload => name == Supervisor.displayRole
  | .role _, .suspend => true
  | .role _, .start _ => true
  | .role _, .stop _ => true
  | .reload, .suspend => true
  | .reload, .recover => true
  | .reload, .migrate => true
  | .reload, .start _ => true
  | .reload, .stop _ => true
  | .suspend, .suspend => true
  | .suspend, .stop _ => true
  | .recover, .suspend => true
  | .recover, .start _ => true
  | .recover, .stop _ => true
  | .migrate, .suspend => true
  | .migrate, .start _ => true
  | .migrate, .stop _ => true
  | .start _, .suspend => true
  | .start _, .start dependency => frame.requires.contains dependency
  | _, _ => false

namespace Task

/-- A task outside all sections. One that serves a key finalizes or stops it, and restarts it. -/
def starts (task : Task) (place : Place) : Bool :=
  match task.serves with
  | some key => place = .suspend || place = .start key || place = .stop key
  | none => place ≠ .migrate

def mayEnter (task : Task) (place : Place) : Bool :=
  match task.frames with
  | [] => task.starts place
  | frame :: _ => frame.calls place

/-- Whether `ensure_ready` of the key, or a bounded wait for its cleanup, can be reached. A task
that serves a key does neither outside its start. -/
def mayAwait (task : Task) (key : PyStr) : Bool :=
  match task.frames with
  | [] => task.serves.isNone
  | frame :: _ => frame.calls (.start key)

def holds (task : Task) (lock : Lock) : Bool := (task.frames.map fun f => f.place.lock).contains lock

end Task

structure LockState where
  catalog : Catalog
  tasks : ℕ → Option Task
  nextTask : ℕ

inductive LockLabel
  | begin (serves : Option PyStr)
  /-- The task reaches an `async with`. -/
  | ask (t : ℕ) (place : Place)
  | enter (t : ℕ)
  /-- A start that finds a new manifest after its dependencies reads it. -/
  | again (t : ℕ)
  | leave (t : ℕ)
  | awaitTask (t u : ℕ)
  | resume (t : ℕ)
  | timeout (t : ℕ)
  | finish (t : ℕ)
  | cancel (t : ℕ)
  /-- A reload commits its catalog. -/
  | commit (t : ℕ) (catalog : Catalog)

namespace LockState

def initial (catalog : Catalog) : LockState where
  catalog := catalog
  tasks := fun _ => none
  nextTask := 0

def setTask (s : LockState) (t : ℕ) (task : Option Task) : LockState :=
  { s with tasks := Function.update s.tasks t task }

def isFree (s : LockState) (lock : Lock) : Bool :=
  (List.range s.nextTask).all fun t => match s.tasks t with
    | some task => !task.holds lock
    | none => true

/-- The manifest a section reads when it is entered. -/
def read (s : LockState) : Place → List PyStr
  | .start key => s.catalog.requires key
  | _ => []

/-- Steps of one task. -/
def taskStep (s : LockState) (task : Task) : LockLabel → Option Task
  | .ask _ place =>
    if task.wait.isNone && task.mayEnter place then some { task with wait := some (.enter place) }
    else none
  | .enter _ =>
    match task.wait with
    | some (.enter place) =>
      if s.isFree place.lock then
        some { task with frames := ⟨place, s.read place⟩ :: task.frames, wait := none }
      else none
    | _ => none
  | .again _ =>
    match task.frames with
    | frame :: rest =>
      if task.wait.isNone then
        some { task with frames := ⟨frame.place, s.read frame.place⟩ :: rest }
      else none
    | [] => none
  | .leave _ =>
    match task.frames with
    | _ :: rest => if task.wait.isNone then some { task with frames := rest } else none
    | [] => none
  | .awaitTask _ u =>
    match s.tasks u with
    | some other =>
      match other.serves with
      | some key =>
        if task.wait.isNone && task.mayAwait key then
          some { task with wait := some (.task u key) }
        else none
      | none => none
    | none => none
  | .resume _ =>
    match task.wait with
    | some (.task u _) => if (s.tasks u).isNone then some { task with wait := none } else none
    | _ => none
  | .timeout _ =>
    -- the cleanup after a role switch is awaited for a short time only
    match task.wait, task.frames with
    | some (.task _ _), ⟨.role _, _⟩ :: _ => some { task with wait := none }
    | _, _ => none
  | _ => none

def LockLabel.task : LockLabel → ℕ
  | .begin _ => 0
  | .ask t _ => t
  | .enter t => t
  | .again t => t
  | .leave t => t
  | .awaitTask t _ => t
  | .resume t => t
  | .timeout t => t
  | .finish t => t
  | .cancel t => t
  | .commit t _ => t

def step (s : LockState) : LockLabel → Option LockState
  | .begin serves =>
    some { s.setTask s.nextTask (some ⟨serves, [], none⟩) with nextTask := s.nextTask + 1 }
  | .finish t =>
    match s.tasks t with
    | some task =>
      if task.wait.isNone && task.frames.isEmpty then some (s.setTask t none) else none
    | none => none
  | .cancel t =>
    match s.tasks t with
    | some _ => some (s.setTask t none)
    | none => none
  | .commit t catalog =>
    match s.tasks t with
    | some task =>
      if task.wait.isNone && (task.frames.head?.map Frame.place) = some .reload
          && catalog.validateDependencyGraph = .ok () then some { s with catalog := catalog }
      else none
    | none => none
  | l =>
    match s.tasks (LockLabel.task l) with
    | some task => (s.taskStep task l).map fun task => s.setTask (LockLabel.task l) (some task)
    | none => none

/-! ## Waiting -/

/-- The task waits for the lock, or for the end of a task. -/
def Wants (s : LockState) (t : ℕ) (lock : Lock) : Prop :=
  ∃ task wait, s.tasks t = some task ∧ task.wait = some wait ∧ wait.lock = lock

/-- The task is in a section under the lock, or it is the one that has to end. -/
def Holds (s : LockState) (t : ℕ) (lock : Lock) : Prop :=
  ∃ task, s.tasks t = some task ∧
    ((∃ frame ∈ task.frames, frame.place.lock = lock) ∨
      ∃ key, task.serves = some key ∧ lock = .ended t key)

/-- No task waits for itself through others. -/
def DeadlockFree (s : LockState) : Prop := WaitFor.Acyclic (Wants s) (Holds s)

end LockState

end MsysCore.Core
