import MsysCore.Core.Roles
import MsysCore.Lib.Runs

/-!
# The component supervisor as a transition system

The tables of `Msysd` that the life of a component goes through, and one label for each
stretch of code between two suspension points that changes them. Calls in progress of
`ensure_started` and `stop_component` carry the place where they are suspended; who
awaits them is left open, so any task may start, stop or look up any component at any
time. A cancelled or failed call takes one of the labels that end it early.
-/

namespace MsysCore.Core

open Python

inductive Readiness
  | exec | mipcReady | x11Display
  deriving DecidableEq

/-- A manifest entry; `object` is its identity, which a reload may change under a key. -/
structure Component where
  object : ℕ
  permissions : List PyStr
  readiness : Readiness
  deriving DecidableEq

structure Instance where
  key : PyStr
  component : Component
  generation : ℕ
  pid : ℕ
  /-- `process.poll() is None` -/
  running : Bool
  ready : Bool
  finalized : Bool
  /-- The reader task takes further packets. -/
  reading : Bool
  deriving DecidableEq

/-- Where an `ensure_started` call is. -/
inductive StartPhase
  /-- waits for the start lock -/
  | waiting
  /-- in `_ensure_started_locked`, before the entry of the key is dealt with -/
  | entered
  /-- `_stop_component_locked` of a live instance of an older manifest -/
  | retiring (inst : ℕ)
  /-- starts the dependencies; the entry of the key is gone or has exited -/
  | cleared
  deriving DecidableEq

/-- Where a `stop_component` call is. -/
inductive StopPhase
  /-- waits for the cancelled spawn retry -/
  | retry
  /-- `_suspend_display_consumers` -/
  | suspending
  /-- waits for the start lock -/
  | waiting
  /-- `_stop_component_locked` after the entry was removed -/
  | terminating (inst : ℕ)
  deriving DecidableEq

inductive Call
  | start (key : PyStr) (phase : StartPhase)
  | stop (key : PyStr) (expected : Option ℕ) (phase : StopPhase)
  deriving DecidableEq

structure Supervisor where
  stopping : Bool
  components : PyStr → Option Component
  registry : RoleRegistry
  instances : List (PyStr × ℕ)
  /-- Instance objects, also those that are no longer in the table. -/
  heap : ℕ → Option Instance
  allocated : ℕ
  generations : PyStr → ℕ
  /-- The call that holds `start_locks[key]`. -/
  startLock : PyStr → Option ℕ
  stopRequests : PyStr → Bool
  calls : ℕ → Option Call
  nextCall : ℕ
  /-- Leases in the snapshot of the display migration that is under way. -/
  migration : Option (List RoleLease)

namespace Supervisor

/-- Before the first start. -/
def initial (components : PyStr → Option Component) (roles : List (PyStr × RoleState)) :
    Supervisor where
  stopping := false
  components := components
  registry := RoleRegistry.ofRoles roles
  instances := []
  heap := fun _ => none
  allocated := 0
  generations := fun _ => 0
  startLock := fun _ => none
  stopRequests := fun _ => false
  calls := fun _ => none
  nextCall := 0
  migration := none

/-- `self.instances.get(key)` with its object. -/
def current (s : Supervisor) (key : PyStr) : Option (ℕ × Instance) :=
  match OrderedDict.get s.instances key with
  | none => none
  | some i => (s.heap i).map fun inst => (i, inst)

def modify (s : Supervisor) (i : ℕ) (f : Instance → Instance) : Supervisor :=
  { s with heap := Function.update s.heap i ((s.heap i).map f) }

def setCall (s : Supervisor) (c : ℕ) (call : Option Call) : Supervisor :=
  { s with calls := Function.update s.calls c call }

def setLock (s : Supervisor) (key : PyStr) (holder : Option ℕ) : Supervisor :=
  { s with startLock := Function.update s.startLock key holder }

def setStopRequest (s : Supervisor) (key : PyStr) (requested : Bool) : Supervisor :=
  { s with stopRequests := Function.update s.stopRequests key requested }

def openCall (s : Supervisor) (call : Call) : Supervisor :=
  { s.setCall s.nextCall (some call) with nextCall := s.nextCall + 1 }

/-- The part of `_stop_component_locked` and of `_finalize_exited_instance` that ends the
instance: its tasks are cancelled in the same stretch. -/
def finalize (s : Supervisor) (key : PyStr) (i : ℕ) : Supervisor :=
  { s.modify i fun inst => { inst with finalized := true, reading := false } with
    registry := s.registry.releaseProvider key }

/-- `_stop_component_locked` up to its first suspension. -/
def popInstance (s : Supervisor) (key : PyStr) (i : ℕ) : Supervisor :=
  { s.finalize key i with instances := OrderedDict.pop s.instances key }

/-- The event that announces the stop raises: the entry is gone, and nothing else is done. -/
def dropInstance (s : Supervisor) (key : PyStr) : Supervisor :=
  { s with instances := OrderedDict.pop s.instances key }

/-! ## Starts -/

inductive StartLabel
  | enter (key : PyStr)
  | lock (c : ℕ)
  | retire (c : ℕ)
  | retireFailed (c : ℕ)
  | retired (c : ℕ)
  | finalize (c : ℕ)
  | clear (c : ℕ)
  | again (c : ℕ)
  | spawn (c pid : ℕ)
  | spawnFailed (c : ℕ)
  | finish (c : ℕ)
  | abort (c : ℕ)
  deriving DecidableEq

def bumpGeneration (s : Supervisor) (key : PyStr) : Supervisor :=
  { s with generations := Function.update s.generations key (s.generations key + 1) }

/-- A new generation of the key takes its place in the table. -/
def install (s : Supervisor) (key : PyStr) (component : Component) (pid : ℕ) : Supervisor :=
  let ready := component.readiness = .exec
  { s.bumpGeneration key with
    heap := Function.update s.heap s.allocated (some
      { key := key, component := component, generation := s.generations key + 1, pid := pid,
        running := true, ready := ready, finalized := false, reading := true })
    instances := OrderedDict.set s.instances key s.allocated
    allocated := s.allocated + 1 }

/-- The call ends and the lock it holds is released. -/
def closeStart (s : Supervisor) (c : ℕ) (key : PyStr) : Supervisor :=
  (s.setCall c none).setLock key none

def startStep (s : Supervisor) : StartLabel → Option Supervisor
  | .enter key =>
    -- the checks of `ensure_started`
    if s.stopping || s.stopRequests key then none
    else some (s.openCall (.start key .waiting))
  | .lock c =>
    match s.calls c with
    | some (.start key .waiting) =>
      if s.startLock key = none then
        some ((s.setCall c (some (.start key .entered))).setLock key (some c))
      else none
    | _ => none
  | .retire c =>
    -- the live entry belongs to an older manifest
    match s.calls c with
    | some (.start key .entered) =>
      match s.current key with
      | some (i, inst) =>
        if inst.running && s.components key ≠ some inst.component then
          some ((s.popInstance key i).setCall c (some (.start key (.retiring i))))
        else none
      | none => none
    | _ => none
  | .retireFailed c =>
    match s.calls c with
    | some (.start key .entered) =>
      match s.current key with
      | some (_, inst) =>
        if inst.running && s.components key ≠ some inst.component then
          some ((s.dropInstance key).closeStart c key)
        else none
      | none => none
    | _ => none
  | .retired c =>
    match s.calls c with
    | some (.start key (.retiring i)) =>
      match s.heap i with
      | some inst =>
        if inst.running then none else some (s.setCall c (some (.start key .cleared)))
      | none => none
    | _ => none
  | .finalize c =>
    -- the process died before its watcher ran
    match s.calls c with
    | some (.start key .entered) =>
      match s.current key with
      | some (i, inst) =>
        if inst.running || inst.finalized then none else some (s.finalize key i)
      | none => none
    | _ => none
  | .clear c =>
    match s.calls c with
    | some (.start key .entered) =>
      match s.current key with
      | some (_, inst) =>
        if inst.running || !inst.finalized then none
        else some (s.setCall c (some (.start key .cleared)))
      | none => some (s.setCall c (some (.start key .cleared)))
    | _ => none
  | .again c =>
    -- the manifest changed while the dependencies were started
    match s.calls c with
    | some (.start key .cleared) => some (s.setCall c (some (.start key .entered)))
    | _ => none
  | .spawn c pid =>
    match s.calls c with
    | some (.start key .cleared) =>
      match s.components key with
      | some component =>
        if s.stopping || s.stopRequests key then none
        else some ((s.install key component pid).closeStart c key)
      | none => none
    | _ => none
  | .spawnFailed c =>
    match s.calls c with
    | some (.start key .cleared) =>
      if s.stopping || s.stopRequests key then none
      else some ((s.bumpGeneration key).closeStart c key)
    | _ => none
  | .finish c =>
    -- returns the entry, raises, or is cancelled
    match s.calls c with
    | some (.start _ .waiting) => some (s.setCall c none)
    | some (.start key .entered) => some (s.closeStart c key)
    | some (.start key .cleared) => some (s.closeStart c key)
    | _ => none
  | .abort c =>
    -- cancelled while the old process lives
    match s.calls c with
    | some (.start key (.retiring _)) => some (s.closeStart c key)
    | _ => none

/-! ## Stops -/

inductive StopLabel
  | enter (key : PyStr) (expected : Option ℕ)
  | retryEnded (c : ℕ)
  | retryCancelled (c : ℕ)
  | suspended (c : ℕ)
  | lock (c : ℕ)
  | lockFailed (c : ℕ)
  | terminated (c : ℕ)
  | cancelled (c : ℕ)
  | abort (c : ℕ)
  deriving DecidableEq

/-- The `finally` of `stop_component`. -/
def closeStop (s : Supervisor) (c : ℕ) (key : PyStr) : Supervisor :=
  (s.setCall c none).setStopRequest key false

def stopStep (s : Supervisor) : StopLabel → Option Supervisor
  | .enter key expected => some ((s.setStopRequest key true).openCall (.stop key expected .retry))
  | .retryEnded c =>
    match s.calls c with
    | some (.stop key expected .retry) => some (s.setCall c (some (.stop key expected .suspending)))
    | _ => none
  | .retryCancelled c =>
    -- cancelled before the `try`: the request stays
    match s.calls c with
    | some (.stop _ _ .retry) => some (s.setCall c none)
    | _ => none
  | .suspended c =>
    match s.calls c with
    | some (.stop key expected .suspending) =>
      some (s.setCall c (some (.stop key expected .waiting)))
    | _ => none
  | .lock c =>
    match s.calls c with
    | some (.stop key expected .waiting) =>
      if s.startLock key = none then
        match OrderedDict.get s.instances key with
        | none => some (s.closeStop c key)
        | some i =>
          if expected.isSome && expected ≠ some i then some (s.closeStop c key)
          else some (((s.popInstance key i).setCall c
            (some (.stop key expected (.terminating i)))).setLock key (some c))
      else none
    | _ => none
  | .lockFailed c =>
    match s.calls c with
    | some (.stop key expected .waiting) =>
      if s.startLock key = none then
        match OrderedDict.get s.instances key with
        | none => none
        | some i =>
          if expected.isSome && expected ≠ some i then none
          else some ((s.dropInstance key).closeStop c key)
      else none
    | _ => none
  | .terminated c =>
    match s.calls c with
    | some (.stop key _ (.terminating i)) =>
      match s.heap i with
      | some inst => if inst.running then none else some ((s.closeStop c key).setLock key none)
      | none => none
    | _ => none
  | .cancelled c =>
    match s.calls c with
    | some (.stop key _ .suspending) => some (s.closeStop c key)
    | some (.stop key _ .waiting) => some (s.closeStop c key)
    | _ => none
  | .abort c =>
    match s.calls c with
    | some (.stop key _ (.terminating _)) => some ((s.closeStop c key).setLock key none)
    | _ => none

/-! ## Processes and channels -/

inductive LifeLabel
  | exit (i : ℕ)
  | watcherFinalize (i : ℕ)
  | channelClosed (i : ℕ)
  | readyMessage (i : ℕ)
  | probeReady (i : ℕ)
  | channelFailed (i : ℕ)
  | readerEnded (i : ℕ)
  | shutdown
  deriving DecidableEq

def holderText (inst : Instance) : PyStr := lit "generation:" ++ intText inst.generation

/-- One role of `_lease_preferred_roles`; an error is only printed. -/
def leaseRole (inst : Instance) (registry : RoleRegistry) (role : PyStr) : RoleRegistry :=
  match registry.preferredProvider role, registry.activeProvider role with
  | .ok (some provider), .ok none =>
    if provider = inst.key then
      match registry.acquire role inst.key (some (holderText inst)) with
      | .ok leased => leased
      | .error _ => registry
    else registry
  | _, _ => registry

/-- `_lease_preferred_roles` -/
def leasePreferredRoles (s : Supervisor) (inst : Instance) : Supervisor :=
  if s.components inst.key = some inst.component then
    { s with registry := s.registry.listRoles.foldl (leaseRole inst) s.registry }
  else s

/-- The instance is the entry of its key. -/
def isCurrent (s : Supervisor) (i : ℕ) (inst : Instance) : Bool :=
  OrderedDict.get s.instances inst.key = some i

def lifeStep (s : Supervisor) : LifeLabel → Option Supervisor
  | .exit i => some (s.modify i fun inst => { inst with running := false })
  | .watcherFinalize i =>
    match s.heap i with
    | some inst =>
      if s.isCurrent i inst && !inst.running && !inst.finalized then some (s.finalize inst.key i)
      else none
    | none => none
  | .channelClosed i =>
    -- the end of a finalization or of a stop, after the tasks were awaited
    match s.heap i with
    | some inst =>
      if inst.finalized then some (s.modify i fun inst => { inst with ready := false }) else none
    | none => none
  | .readyMessage i =>
    match s.heap i with
    | some inst =>
      if inst.reading then
        some ((s.modify i fun inst => { inst with ready := true }).leasePreferredRoles inst)
      else none
    | none => none
  | .probeReady i =>
    match s.heap i with
    | some inst =>
      if s.isCurrent i inst && inst.running && inst.component.readiness = .x11Display then
        some ((s.modify i fun inst => { inst with ready := true }).leasePreferredRoles inst)
      else none
    | none => none
  | .channelFailed i =>
    match s.heap i with
    | some inst =>
      if inst.reading && inst.component.readiness = .mipcReady && s.isCurrent i inst
          && !inst.finalized then
        some { s.modify i fun inst => { inst with ready := false, reading := false } with
          registry := s.registry.releaseProvider inst.key }
      else none
    | none => none
  | .readerEnded i => some (s.modify i fun inst => { inst with reading := false })
  | .shutdown => some { s with stopping := true }

/-! ## Leases and catalogs -/

inductive PreferenceMode
  | select | reset
  deriving DecidableEq

inductive LeaseLabel
  /-- `_component_became_ready` when `ensure_ready` returns, and the loop of a reload -/
  | leasePreferred (i : ℕ)
  | acquire (role : PyStr) (i : ℕ)
  | releaseFailed (key : PyStr)
  | switchRole (role : PyStr) (i : ℕ) (mode : PreferenceMode) (persisted : Bool)
  | migrationBegin
  | migrate (i : ℕ) (mode : PreferenceMode)
  | rollback (override : Option PyStr)
  | rollbackOld (i : ℕ)
  | migrationEnd
  | reload (components : PyStr → Option Component) (roles : List (PyStr × RoleState))
      (overrides : List (PyStr × PyStr))

def displayRole : PyStr := lit "display-output"

/-- What `ensure_ready` has checked when it returns, and the check against the catalog that
follows it. -/
def isUsable (s : Supervisor) (i : ℕ) (inst : Instance) : Bool :=
  s.isCurrent i inst && inst.ready && s.components inst.key = some inst.component

def setPreference (registry : RoleRegistry) (role provider : PyStr) :
    PreferenceMode → Except RoleError RoleRegistry
  | .select => registry.selectPreferred role provider
  | .reset => do
    let candidates ← registry.candidateIds role
    -- the default changed during the reset
    if candidates.head? = some provider then registry.resetPreferred role
    else .error .unknownCandidate

/-- Acquires leases again; the first error ends the loop. -/
def reacquire (role : PyStr) (holder : RoleLease → Option PyStr) :
    List RoleLease → RoleRegistry → RoleRegistry
  | [], registry => registry
  | lease :: rest, registry =>
    match registry.isCandidate role lease.provider with
    | .ok true =>
      match registry.acquire role lease.provider (holder lease) with
      | .ok leased => reacquire role holder rest leased
      | .error _ => registry
    | .ok false => reacquire role holder rest registry
    | .error _ => registry

def activeLeasesOf (registry : RoleRegistry) (role : PyStr) : List RoleLease :=
  (registry.tokens role).filterMap registry.leaseOf

/-- The `except` branch of `_switch_role`. -/
def restoreRole (before : RoleRegistry) (role : PyStr) (registry : RoleRegistry) : RoleRegistry :=
  let preferred := match before.preferredProvider role with
    | .ok (some provider) => match registry.selectPreferred role provider with
      | .ok selected => selected
      | .error _ => registry
    | _ => registry
  reacquire role RoleLease.holder (activeLeasesOf before role) (preferred.releaseActive role)

/-- The commit section of `_switch_role`. -/
def switchRegistry (registry : RoleRegistry) (role : PyStr) (inst : Instance)
    (mode : PreferenceMode) (persisted : Bool) : RoleRegistry :=
  match setPreference registry role inst.key mode with
  | .error _ => restoreRole registry role registry
  | .ok chosen =>
    match registry.activeProvider role with
    | .ok active =>
      if active = some inst.key then
        if persisted then chosen else restoreRole registry role chosen
      else match (chosen.releaseActive role).acquire role inst.key (some (holderText inst)) with
        | .ok leased => if persisted then leased else restoreRole registry role leased
        | .error _ => restoreRole registry role (chosen.releaseActive role)
    | .error _ => restoreRole registry role chosen

/-- `_apply_display_preference`; an error leaves what was done so far to the rollback. -/
def applyDisplayPreference (registry : RoleRegistry) (inst : Instance) (mode : PreferenceMode) :
    RoleRegistry :=
  match setPreference registry displayRole inst.key mode with
  | .error _ => registry
  | .ok chosen =>
    match (chosen.releaseActive displayRole).acquire displayRole inst.key
        (some (holderText inst)) with
    | .ok leased => leased
    | .error _ => chosen.releaseActive displayRole

/-- The holder of a restored lease names the generation that is ready now. -/
def restoredHolder (s : Supervisor) (lease : RoleLease) : Option PyStr :=
  match s.current lease.provider with
  | some (_, inst) => if inst.ready then some (holderText inst) else lease.holder
  | none => lease.holder

/-- `_restore_display_role` -/
def restoreDisplayRole (s : Supervisor) (leases : List RoleLease) (override : Option PyStr) :
    RoleRegistry :=
  let preference := match override with
    | some provider => s.registry.selectPreferred displayRole provider
    | none => s.registry.resetPreferred displayRole
  match preference with
  | .error _ => s.registry
  | .ok chosen => reacquire displayRole s.restoredHolder leases (chosen.releaseActive displayRole)

/-- One role preference that is carried over to a new catalog. -/
def carryOverride (registry : RoleRegistry) (override : PyStr × PyStr) : RoleRegistry :=
  match registry.selectPreferred override.1 override.2 with
  | .ok selected => selected
  | .error _ => registry

/-- A reload leases a role again to a provider that is ready under the new catalog. -/
def carryLease (s : Supervisor) (components : PyStr → Option Component) (role : PyStr)
    (registry : RoleRegistry) (provider : PyStr) : RoleRegistry :=
  match s.current provider with
  | some (_, inst) =>
    if inst.ready && components provider = some inst.component then
      match registry.acquire role provider (some (holderText inst)) with
      | .ok leased => leased
      | .error _ => registry
    else registry
  | none => registry

def carryRole (s : Supervisor) (components : PyStr → Option Component) (registry : RoleRegistry)
    (role : PyStr) : RoleRegistry :=
  match s.registry.activeProviders role with
  | .ok providers => providers.foldl (s.carryLease components role) registry
  | .error _ => registry

/-- The catalog commit of `_reload_installed_components_locked`. -/
def reloadCatalog (s : Supervisor) (components : PyStr → Option Component)
    (roles : List (PyStr × RoleState)) (overrides : List (PyStr × PyStr)) : Supervisor :=
  let registry := overrides.foldl carryOverride (RoleRegistry.ofRoles roles)
  { s with
    components := components
    registry := s.registry.listRoles.foldl (s.carryRole components) registry }

/-- Runs `f` on an instance that passes `isUsable`. -/
def onUsable (s : Supervisor) (i : ℕ) (f : Instance → Supervisor) : Option Supervisor :=
  match s.heap i with
  | some inst => if s.isUsable i inst then some (f inst) else none
  | none => none

def acquireFor (registry : RoleRegistry) (role : PyStr) (inst : Instance) : RoleRegistry :=
  match registry.activeProvider role with
  | .ok active =>
    if active = some inst.key then registry
    else match registry.acquire role inst.key (some (holderText inst)) with
      | .ok leased => leased
      | .error _ => registry
  | .error _ => registry

def leaseStep (s : Supervisor) : LeaseLabel → Option Supervisor
  | .leasePreferred i => s.onUsable i s.leasePreferredRoles
  | .acquire role i =>
    s.onUsable i fun inst => { s with registry := acquireFor s.registry role inst }
  | .releaseFailed key => some { s with registry := s.registry.releaseProvider key }
  | .switchRole role i mode persisted =>
    s.onUsable i fun inst =>
      { s with registry := switchRegistry s.registry role inst mode persisted }
  | .migrationBegin =>
    if s.migration.isSome then none
    else some { s with migration := some (activeLeasesOf s.registry displayRole) }
  | .migrate i mode =>
    if s.migration.isSome then
      s.onUsable i fun inst => { s with registry := applyDisplayPreference s.registry inst mode }
    else none
  | .rollback override =>
    match s.migration with
    | some leases => some { s with registry := s.restoreDisplayRole leases override }
    | none => none
  | .rollbackOld i =>
    s.onUsable i fun inst =>
      match s.registry.acquire displayRole inst.key (some (holderText inst)) with
      | .ok leased => { s with registry := leased }
      | .error _ => s
  | .migrationEnd => if s.migration.isSome then some { s with migration := none } else none
  | .reload components roles overrides => some (s.reloadCatalog components roles overrides)

/-! ## Runs -/

inductive Label
  | start (l : StartLabel)
  | stop (l : StopLabel)
  | life (l : LifeLabel)
  | lease (l : LeaseLabel)

def step (s : Supervisor) : Label → Option Supervisor
  | .start l => s.startStep l
  | .stop l => s.stopStep l
  | .life l => s.lifeStep l
  | .lease l => s.leaseStep l

/-- One component `a` and no roles. -/
def oneComponent (key : PyStr) : Option Component :=
  if key = lit "a" then some ⟨0, [], .mipcReady⟩ else none

/-- `a` is started by the first call. -/
def startA : List Label :=
  [.start (.enter (lit "a")), .start (.lock 0), .start (.clear 0), .start (.spawn 0 100)]

/-- A stop of `a` that has removed it from the table. -/
def stopA (c : ℕ) : List Label :=
  [.stop (.enter (lit "a") none), .stop (.retryEnded c), .stop (.suspended c), .stop (.lock c)]

end Supervisor

end MsysCore.Core
