import MsysCore.Python.Values
import MsysCore.Lib.Runs

/-!
# Restart backoff

The generations of one component, their watchers, and any number of `ensure_started` calls.
An exited generation is finalized by its watcher or by the next start; whoever does so then
records the failure and stores the time before which no successor may be spawned. Between
the flag and the record the finalization is suspended. A step that belongs to a task runs
its code up to the next suspension. Stops, catalog changes and display outages are left out.

`records` and `spawns` are ghost: the failures of exited generations that were recorded, and
the generations that were spawned, with their times.
-/

namespace MsysCore.Core.Restart

open Python Runs

/-! ## The policy -/

/-- What the restart policy reads of a component; `provides` has the kinds only. -/
structure Provider where
  packageKind : PyStr
  lifecycle : PyStr
  restart : PyStr
  provides : List PyStr

def isRestartableSystemProvider (p : Provider) : Bool :=
  p.packageKind = lit "system" && (p.lifecycle = lit "background" || p.lifecycle = lit "session")
    && p.provides.any fun kind =>
      kind = lit "role" || kind = lit "interface" || kind = lit "capability"

def componentShouldRestart (p : Provider) (rc : ℤ) : Bool :=
  if !isRestartableSystemProvider p then false
  else if p.restart = lit "always" then true
  else p.restart = lit "on-failure" && rc ≠ 0

/-! ## The machine -/

structure Generation where
  /-- `process.poll()` -/
  returncode : Option ℤ
  finalized : Bool
  backoffUntil : ℚ
  deriving DecidableEq

/-- Where a `_watch_process` task is. -/
inductive Watcher
  /-- waits for the exit -/
  | waiting
  /-- in `_finalize_exited_instance`, after the flag is set -/
  | finalizing
  /-- the sleep of `_restart_later` -/
  | sleeping (wake : ℚ)
  | done
  deriving DecidableEq

/-- Where an `ensure_started` call is. -/
inductive Phase
  /-- waits for the start lock -/
  | waiting
  /-- the sleep for `spawn_backoff_until` -/
  | delayed (wake : ℚ)
  /-- in `_finalize_exited_instance`, after the flag is set -/
  | finalizing (i : ℕ)
  /-- the sleep for `backoff_until` -/
  | backoff (wake : ℚ)
  /-- starts the dependencies -/
  | starting
  deriving DecidableEq

structure Record where
  object : ℕ
  time : ℚ
  delay : Option ℚ
  deriving DecidableEq

structure Spawn where
  object : ℕ
  time : ℚ
  deriving DecidableEq

structure State where
  /-- `time.monotonic()` -/
  now : ℚ
  failureHistory : List ℚ
  quarantined : Bool
  spawnBackoffUntil : Option ℚ
  /-- `self.instances.get(key)` -/
  entry : Option ℕ
  generations : ℕ → Option Generation
  allocated : ℕ
  watchers : ℕ → Watcher
  /-- The call that holds the start lock. -/
  lock : Option ℕ
  calls : ℕ → Option Phase
  nextCall : ℕ
  records : List Record
  spawns : List Spawn

def initial (now : ℚ) : State where
  now := now
  failureHistory := []
  quarantined := false
  spawnBackoffUntil := none
  entry := none
  generations := fun _ => none
  allocated := 0
  watchers := fun _ => .done
  lock := none
  calls := fun _ => none
  nextCall := 0
  records := []
  spawns := []

namespace State

def modify (s : State) (i : ℕ) (f : Generation → Generation) : State :=
  { s with generations := Function.update s.generations i ((s.generations i).map f) }

def setWatcher (s : State) (i : ℕ) (w : Watcher) : State :=
  { s with watchers := Function.update s.watchers i w }

def openCall (s : State) : State :=
  { s with calls := Function.update s.calls s.nextCall (some .waiting), nextCall := s.nextCall + 1 }

/-- The call goes on with the lock. -/
def goOn (s : State) (c : ℕ) (phase : Phase) : State :=
  { s with calls := Function.update s.calls c (some phase), lock := some c }

/-- The call ends and releases the lock if it has it. -/
def close (s : State) (c : ℕ) : State :=
  { s with
    calls := Function.update s.calls c none
    lock := if s.lock = some c then none else s.lock }

end State

/-- `_record_component_failure` -/
def recordComponentFailure (s : State) : State × Option ℚ :=
  let failures := s.failureHistory.filter (fun failedAt => s.now - failedAt < 60) ++ [s.now]
  if 5 ≤ failures.length then
    ({ s with failureHistory := failures, quarantined := true }, none)
  else
    ({ s with failureHistory := failures }, some (min 30 (1 / 4 * 2 ^ (failures.length - 1))))

/-- `_record_restart_failure` of an exited generation, and the `backoff_until` that both of its
callers then store. -/
def recordRestartFailure (s : State) (i : ℕ) : State × Option ℚ :=
  let (recorded, delay) := recordComponentFailure s
  let recorded := { recorded with records := s.records ++ [⟨i, s.now, delay⟩] }
  match delay with
  | none => (recorded, none)
  | some d => (recorded.modify i fun g => { g with backoffUntil := s.now + d }, some d)

/-! ### Starts -/

/-- The sleep for `backoff_until`, if there is time left. -/
def rest (s : State) (c : ℕ) (wake : ℚ) : State :=
  if s.now < wake then s.goOn c (.backoff wake) else s.goOn c .starting

/-- `_ensure_started_locked` from the second look at the entry. -/
def examine (s : State) (c : ℕ) : State :=
  match s.entry with
  | none => s.goOn c .starting
  | some i =>
    match s.generations i with
    | none => s.goOn c .starting
    | some g =>
      if g.returncode = none then s.close c
      else if g.finalized then rest s c g.backoffUntil
      else
        -- the finalization cancels the watcher
        ((s.modify i fun g => { g with finalized := true }).setWatcher i .done).goOn c
          (.finalizing i)

/-- The process of the entry runs. -/
def entryRuns (s : State) : Bool :=
  (s.entry.bind s.generations).any fun g => g.returncode = none

/-- `_ensure_started_locked` up to its first suspension; `ready` says that a running entry is
ready. -/
def lockStep (s : State) (c : ℕ) (ready : Bool) : State :=
  if s.quarantined then s.close c
  else if ready && entryRuns s then s.close c
  else match s.spawnBackoffUntil with
    | some wake => if s.now < wake then s.goOn c (.delayed wake) else examine s c
    | none => examine s c

section

variable (p : Provider)

/-- The start has finalized the generation. -/
def finalizedStep (s : State) (c i : ℕ) (g : Generation) : State :=
  if componentShouldRestart p (g.returncode.getD 0) then
    match recordRestartFailure s i with
    | (recorded, none) => recorded.close c
    | (recorded, some d) => rest recorded c (s.now + d)
  else rest s c g.backoffUntil

/-- A new generation and its watcher. -/
def spawnStep (s : State) (c : ℕ) : State :=
  { s.close c with
    generations := Function.update s.generations s.allocated (some ⟨none, false, 0⟩)
    watchers := Function.update s.watchers s.allocated .waiting
    entry := some s.allocated
    allocated := s.allocated + 1
    spawnBackoffUntil := none
    spawns := s.spawns ++ [⟨s.allocated, s.now⟩] }

def spawnFailedStep (s : State) (c : ℕ) : State :=
  match recordComponentFailure s with
  | (recorded, none) => recorded.close c
  | (recorded, some d) => { recorded.close c with spawnBackoffUntil := some (s.now + d) }

/-! ### Watchers -/

/-- The process has exited: the first stretch of the finalization. -/
def watchStep (s : State) (i : ℕ) (g : Generation) : State :=
  if s.entry = some i ∧ g.finalized = false then
    (s.modify i fun g => { g with finalized := true }).setWatcher i .finalizing
  else s.setWatcher i .done

/-- The finalization is over; `_restart_later` up to its sleep. -/
def watchedStep (s : State) (i : ℕ) (g : Generation) : State :=
  if componentShouldRestart p (g.returncode.getD 0) then
    match recordRestartFailure s i with
    | (recorded, none) => recorded.setWatcher i .done
    | (recorded, some d) => recorded.setWatcher i (.sleeping (s.now + d))
  else s.setWatcher i .done

/-! ### Runs -/

inductive Label
  | tick (δ : ℚ)
  | exit (i : ℕ) (rc : ℤ)
  | enter
  | lock (c : ℕ) (ready : Bool)
  | woken (c : ℕ)
  | finalized (c : ℕ)
  | rested (c : ℕ)
  | spawn (c : ℕ)
  | spawnFailed (c : ℕ)
  /-- A dependency is not available. -/
  | failed (c : ℕ)
  | cancel (c : ℕ)
  | watch (i : ℕ)
  | watched (i : ℕ)
  | watcherWoken (i : ℕ)
  /-- any change of the failure tables by the rest of the core -/
  | tables (failureHistory : List ℚ) (quarantined : Bool) (spawnBackoffUntil : Option ℚ)
  deriving DecidableEq

def step (s : State) : Label → Option State
  | .tick δ => if 0 ≤ δ then some { s with now := s.now + δ } else none
  | .exit i rc =>
    match s.generations i with
    | some g =>
      if g.returncode = none then some (s.modify i fun g => { g with returncode := some rc })
      else none
    | none => none
  | .enter => some s.openCall
  | .lock c ready =>
    match s.calls c with
    | some .waiting => if s.lock = none then some (lockStep s c ready) else none
    | _ => none
  | .woken c =>
    match s.calls c with
    | some (.delayed wake) => if wake ≤ s.now then some (examine s c) else none
    | _ => none
  | .finalized c =>
    match s.calls c with
    | some (.finalizing i) => (s.generations i).map (finalizedStep p s c i)
    | _ => none
  | .rested c =>
    match s.calls c with
    | some (.backoff wake) => if wake ≤ s.now then some (s.goOn c .starting) else none
    | _ => none
  | .spawn c => if s.calls c = some .starting then some (spawnStep s c) else none
  | .spawnFailed c => if s.calls c = some .starting then some (spawnFailedStep s c) else none
  | .failed c => if s.calls c = some .starting then some (s.close c) else none
  | .cancel c => some (s.close c)
  | .watch i =>
    match s.generations i with
    | some g =>
      if s.watchers i = .waiting ∧ g.returncode ≠ none then some (watchStep s i g) else none
    | none => none
  | .watched i =>
    match s.generations i with
    | some g => if s.watchers i = .finalizing then some (watchedStep p s i g) else none
    | none => none
  | .watcherWoken i =>
    match s.watchers i with
    | .sleeping wake =>
      if wake ≤ s.now then
        let s := s.setWatcher i .done
        some (if s.entry = some i then s.openCall else s)
      else none
    | _ => none
  | .tables failureHistory quarantined spawnBackoffUntil =>
    some { s with
      failureHistory := failureHistory
      quarantined := quarantined
      spawnBackoffUntil := spawnBackoffUntil }

end

/-! ## What is claimed -/

def timesRecorded (s : State) (i : ℕ) : ℕ := s.records.countP fun r => r.object = i

/-- The watcher or a start has the record of the exit ahead. -/
def Awaited (s : State) (i : ℕ) : Prop :=
  s.entry = some i ∧ s.watchers i = .waiting ∨ s.watchers i = .finalizing ∨
    ∃ c, s.calls c = some (.finalizing i)

/-- Every exit that the policy answers with a restart was recorded once, or will be; the others
are not recorded. -/
def RecordedOnce (p : Provider) (s : State) : Prop :=
  ∀ i g rc, s.generations i = some g → g.returncode = some rc →
    if componentShouldRestart p rc then
      timesRecorded s i = 1 ∨ timesRecorded s i = 0 ∧ Awaited s i
    else timesRecorded s i = 0

/-- No successor was spawned before the delay of a recorded failure had passed. -/
def Spaced (s : State) : Prop :=
  ∀ r ∈ s.records, ∀ d, r.delay = some d → ∀ n ∈ s.spawns, r.object < n.object → r.time + d ≤ n.time

/-- The watcher of the entry has finalized an exit that is to be recorded. -/
def unrecorded (p : Provider) (s : State) : Bool :=
  s.entry.any fun i => s.watchers i = .finalizing &&
    (s.generations i).any fun g => g.returncode.any (componentShouldRestart p)

/-- No start looks at an entry whose watcher has yet to record its exit, and no start that has
finalized such an exit is cancelled. -/
def Patient (p : Provider) (s : State) : Label → Prop
  | .lock _ _ => s.quarantined = false → (∀ wake ∈ s.spawnBackoffUntil, wake ≤ s.now) →
    unrecorded p s = false
  | .woken _ => unrecorded p s = false
  | .cancel c => ∀ i, s.calls c = some (.finalizing i) → ∀ g rc, s.generations i = some g →
    g.returncode = some rc → componentShouldRestart p rc = false
  | _ => True

end MsysCore.Core.Restart
