import MsysCore.Core.RoleSwitch
import MsysCore.Core.Transitions

/-!
# Migrations of the display, and their rollback

`_migrate_display_output` for a session without an outage, with the rollback that it runs when
it fails past the commit of the provider. The caller holds the reload lock, so the catalog stands
still. What other tasks do to the instances during a suspension is up to the surroundings; the
outage that the loss of the provider begins shows as such events and as starts that raise.
-/

namespace MsysCore.Core.DisplayRollback

open Python Attempts
open Supervisor (displayRole)
open Display (Manifest inheritsVisualSession)
open RoleSwitch (Selection SwitchFault)

structure Catalog where
  components : PyStr → Option Component
  manifest : Component → Manifest
  /-- `_display_for_provider` -/
  display : PyStr → Option PyStr
  /-- the display of the profile or of the environment -/
  defaultDisplay : PyStr
  session : Display.Session

/-- An instance in the table. -/
structure Entry where
  /-- identity of the object, which `is` compares -/
  object : ℕ
  component : Component
  generation : ℕ
  /-- `process.poll() is None` -/
  running : Bool
  ready : Bool
  finalized : Bool
  deriving DecidableEq

def Entry.instance (entry : Entry) (key : PyStr) : Instance :=
  ⟨key, entry.component, entry.generation, 0, entry.running, entry.ready, entry.finalized, true⟩

/-- `self.instances`, whose objects have been numbered. -/
structure Instances where
  entries : List (PyStr × Entry)
  nextObject : ℕ
  issued : ∀ key entry, OrderedDict.get entries key = some entry → entry.object < nextObject

namespace Instances

def get (table : Instances) (key : PyStr) : Option Entry := OrderedDict.get table.entries key

def add (table : Instances) (key : PyStr) (component : Component) (generation : ℕ) :
    Instances where
  entries := OrderedDict.set table.entries key
    ⟨table.nextObject, component, generation, true, false, false⟩
  nextObject := table.nextObject + 1
  issued := by
    intro other entry h
    rw [OrderedDict.get_set] at h
    split_ifs at h
    · cases h
      exact Nat.lt_succ_self _
    · exact Nat.lt_succ_of_lt (table.issued other entry h)

def pop (table : Instances) (key : PyStr) : Instances where
  entries := OrderedDict.pop table.entries key
  nextObject := table.nextObject
  issued := by
    intro other entry h
    rw [OrderedDict.get_pop] at h
    split_ifs at h
    exact table.issued other entry h

/-- The flags of the instance of a key change. -/
def mark (table : Instances) (key : PyStr) (running ready finalized : Bool) : Instances where
  entries := match OrderedDict.get table.entries key with
    | some entry => OrderedDict.set table.entries key
        { entry with running := running, ready := ready, finalized := finalized }
    | none => table.entries
  nextObject := table.nextObject
  issued := by
    intro other entry h
    cases hfound : OrderedDict.get table.entries key with
    | none =>
      rw [hfound] at h
      exact table.issued other entry h
    | some found =>
      rw [hfound, OrderedDict.get_set] at h
      split_ifs at h
      · cases h
        exact table.issued key found hfound
      · exact table.issued other entry h

end Instances

/-- What a migration is at. The last three phases are those of its rollback. -/
inductive Phase
  | migrating
  /-- the new consumers stop, and the old provider becomes ready again -/
  | undoing
  /-- the role is as it was, and the new provider stops -/
  | retiring
  /-- the consumers start again -/
  | restoring
  deriving DecidableEq

/-- The variables of a migration. -/
structure Locals where
  phase : Phase
  attempted : List PyStr
  /-- `snapshot["consumer_instances"]` -/
  originals : PyStr → Option ℕ
  switched : Bool

def Locals.initial : Locals := ⟨.migrating, [], fun _ => none, false⟩

inductive Fault
  | selection (fault : SwitchFault)
  /-- raised outside of what is modelled here -/
  | surroundings (text : PyStr)
  /-- component did not become ready -/
  | notReady (key : PyStr)
  | providerNotReady
  | providerStale
  | consumerNotReady (key : PyStr)
  /-- new display provider generation changed -/
  | generationChanged
  /-- display provider kept replacing its generation -/
  | keptReplacing (provider : PyStr)
  deriving DecidableEq

structure State where
  selection : Selection
  instances : Instances
  generations : PyStr → ℕ
  foreground : Foreground
  /-- number of the next statement that suspends or may raise -/
  awaits : ℕ
  locals : Locals
  /-- `rollback_failures`: the step and what it raised -/
  failures : List (PyStr × Fault)

/-- What other tasks do to the instance of a key. -/
inductive Event
  | exited (key : PyStr)
  /-- the channel is lost -/
  | disconnected (key : PyStr)
  | finalized (key : PyStr)
  | stopped (key : PyStr)
  | spawned (key : PyStr)
  | becameReady (key : PyStr)
  deriving DecidableEq

structure Surroundings where
  /-- what happens during a suspension -/
  meanwhile : Phase → ℕ → List Event
  /-- what a statement raises -/
  raises : Phase → ℕ → Option PyStr

abbrev Migrating := EStateM Fault State

/-! ## The instances -/

namespace State

def setInstances (s : State) (instances : Instances) : State := { s with instances := instances }

def setRegistry (s : State) (registry : RoleRegistry) : State :=
  { s with selection := { s.selection with registry := registry } }

def popped (s : State) (key : PyStr) : State := s.setInstances (s.instances.pop key)

/-- `release_provider` -/
def released (s : State) (key : PyStr) : State :=
  s.setRegistry (s.selection.registry.releaseProvider key)

def forgotten (s : State) (key : PyStr) : State :=
  { s with foreground := s.foreground.forgetForeground key }

/-- `_finalize_exited_instance` -/
def finalized (s : State) (key : PyStr) : State :=
  match s.instances.get key with
  | some entry =>
    if entry.running || entry.finalized then s
    else ((s.setInstances (s.instances.mark key false false true)).released key).forgotten key
  | none => s

variable (catalog : Catalog)

/-- `_lease_preferred_roles` of the instance of a key -/
def leased (s : State) (key : PyStr) : State :=
  match s.instances.get key with
  | some entry =>
    if catalog.components key = some entry.component then
      s.setRegistry (s.selection.registry.listRoles.foldl
        (Supervisor.leaseRole (entry.instance key)) s.selection.registry)
    else s
  | none => s

/-- A new generation is registered. -/
def registered (s : State) (key : PyStr) (component : Component) : State :=
  { s with
    instances := s.instances.add key component (s.generations key + 1)
    generations := Function.update s.generations key (s.generations key + 1)
    foreground := if Transitions.isForegroundApp (catalog.manifest component) then
        s.foreground.markForeground key
      else s.foreground }

/-- A start: an instance that has exited is finalized and replaced. -/
def spawned (s : State) (key : PyStr) : State :=
  match catalog.components key, s.instances.get key with
  | none, _ => s
  | some component, none => s.registered catalog key component
  | some component, some entry =>
    if entry.running then s else (s.finalized key).registered catalog key component

/-- An instance is ready, and its preferred roles that are free are leased to it. -/
def becameReady (s : State) (key : PyStr) : State :=
  match s.instances.get key with
  | some entry =>
    if entry.finalized then s
    else (s.setInstances (s.instances.mark key entry.running true false)).leased catalog key
  | none => s

end State

section

variable (env : Surroundings) (catalog : Catalog)

def Event.perform (s : State) : Event → State
  | .exited key =>
    match s.instances.get key with
    | some entry => s.setInstances (s.instances.mark key false entry.ready entry.finalized)
    | none => s
  | .disconnected key =>
    match s.instances.get key with
    | some entry => s.setInstances (s.instances.mark key entry.running false entry.finalized)
    | none => s
  | .finalized key => s.finalized key
  | .stopped key => ((s.popped key).released key).forgotten key
  | .spawned key => s.spawned catalog key
  | .becameReady key => s.becameReady catalog key

def State.counted (s : State) : State := { s with awaits := s.awaits + 1 }

/-- The state after a suspension. -/
def State.suspended (s : State) : State :=
  (env.meanwhile s.locals.phase s.awaits).foldl (Event.perform catalog) s.counted

def suspend : Migrating Unit := modify (State.suspended env catalog)

/-- A statement that may raise. -/
def attempt : Migrating Unit := fun s =>
  match env.raises s.locals.phase s.awaits with
  | none => .ok () s.counted
  | some text => .error (.surroundings text) s.counted

/-- A call that is awaited, and may raise. -/
def await : Migrating Unit := do
  suspend env catalog
  attempt env

def require (condition : Bool) (fault : Fault) : Migrating Unit :=
  if condition then pure () else throw fault

/-- What the registry and the overrides go through. -/
def selecting {α : Type} (m : RoleSwitch.Switching α) : Migrating α := fun s =>
  match m.run s.selection with
  | .ok value selection => .ok value { s with selection := selection }
  | .error fault selection => .error (.selection fault) { s with selection := selection }

/-- The announcement of a transition. -/
def announce (component : Component) : Migrating Unit :=
  if Transitions.isForegroundApp (catalog.manifest component) then await env catalog else pure ()

/-- `_stop_component_locked` once the instance has left the table. -/
def endInstance (key : PyStr) (component : Component) : Migrating Unit := do
  announce env catalog component
  modify (State.released · key)
  -- the tasks of the instance end
  suspend env catalog
  modify (State.forgotten · key)
  -- the process ends
  suspend env catalog
  announce env catalog component

/-- `_stop_component_locked` -/
def stopInstance (key : PyStr) (component : Component) : Migrating Unit := do
  modify (State.popped · key)
  endInstance env catalog key component

/-- `stop_component(key, expected)` -/
def stopComponent (key : PyStr) (expected : ℕ) : Migrating Unit := do
  -- the scheduled retry, and the start lock
  suspend env catalog
  let s ← get
  match s.instances.get key with
  | none => pure ()
  | some entry =>
    if entry.object = expected then stopInstance env catalog key entry.component else pure ()

/-- The entry of a key, whose absence is an error. -/
def present (key : PyStr) : Migrating Entry := fun s =>
  match s.instances.get key with
  | some entry => .ok entry s
  | none => .error (.notReady key) s

/-- `ensure_ready`: the start returns a live instance, and the wait a ready one. -/
def ensureReady (key : PyStr) : Migrating Entry := do
  await env catalog
  let started ← present key
  require started.running (.notReady key)
  await env catalog
  let entry ← present key
  require entry.ready (.notReady key)
  modify (State.leased catalog · key)
  announce env catalog entry.component
  return entry

/-- `instance.ready`, of an instance that may have left the table. -/
def stillReady (s : State) (key : PyStr) (object : ℕ) : Bool :=
  match s.instances.get key with
  | some entry => entry.object = object && entry.ready
  | none => false

/-! ## The migration -/

structure Snapshot where
  before : RoleSwitch.Before
  display : PyStr
  component : Option Component
  generation : Option ℕ
  /-- `target_provider_instance` -/
  target : Option Entry
  foreground : List PyStr

/-- `snapshot["provider"]` -/
def Snapshot.provider (snapshot : Snapshot) : Option PyStr :=
  snapshot.before.active.or snapshot.before.preferred

/-- `_session_display` -/
def sessionDisplay (before : RoleSwitch.Before) : PyStr :=
  (((before.active.or before.preferred).bind catalog.display)).getD catalog.defaultDisplay

/-- `_snapshot_display_role` -/
def snapshotDisplayRole (s : State) (before : RoleSwitch.Before) (provider : PyStr) : Snapshot :=
  let old := before.active.or before.preferred
  let entry := old.bind s.instances.get
  { before := before
    display := sessionDisplay catalog before
    component := (entry.map Entry.component).or (old.bind catalog.components)
    generation := entry.map Entry.generation
    target := s.instances.get provider
    foreground := s.foreground.stack }

/-- `_apply_display_preference` -/
def applyDisplayPreference (provider mode holder : PyStr) : RoleSwitch.Switching Unit := do
  RoleSwitch.setPreference displayRole provider mode
  RoleSwitch.releaseActive displayRole
  let _ ← RoleSwitch.call (RoleMethods.acquire displayRole (some provider) (some holder))

/-- `_provider_active_outside_display` -/
def activeOutside (registry : RoleRegistry) (provider : PyStr) : Bool :=
  registry.listRoles.any fun role => role ≠ displayRole &&
    match RoleMethods.activeProviders registry role with
    | .ok providers => provider ∈ providers
    | .error _ => false

/-- `_owns_active_display_output` -/
def ownsActiveDisplayOutput (s : State) (key : PyStr) (entry : Entry) : Bool :=
  Display.providesDisplayOutput (catalog.manifest entry.component) &&
    (s.instances.get key).map Entry.object = some entry.object &&
    match RoleMethods.activeProvider s.selection.registry displayRole with
    | .ok active => active = some key
    | .error _ => false

/-- `_ordered_visual_consumers` -/
def orderedVisualConsumers (s : State) : List PyStr :=
  let running := s.instances.entries.filter fun entry =>
    !entry.2.finalized && catalog.components entry.1 = some entry.2.component &&
      inheritsVisualSession (catalog.manifest entry.2.component)
  Display.orderVisualConsumerKeys
    { catalog.session with foregroundStack := s.foreground.stack } (running.map Prod.fst)

def retireAttempts (provider : PyStr) : ℕ → Migrating Unit
  | 0 => do
    let s ← get
    require ((s.instances.get provider).isNone || activeOutside s.selection.registry provider)
      (.keptReplacing provider)
  | attempts + 1 => do
    let s ← get
    if activeOutside s.selection.registry provider then pure ()
    else match s.instances.get provider with
      | none => pure ()
      | some current => do
        stopComponent env catalog provider current.object
        retireAttempts provider attempts

/-- `_retire_display_provider` -/
def retireDisplayProvider (provider : PyStr) : Migrating Unit :=
  retireAttempts env catalog provider 3

def attempted (key : PyStr) (s : State) : State :=
  { s with locals := { s.locals with attempted := s.locals.attempted ++ [key] } }

def stopOriginal (key : PyStr) : Migrating Unit := do
  let s ← get
  match s.locals.originals key with
  | some original => stopComponent env catalog key original
  | none => pure ()

/-- The loop over the consumers. -/
def restartConsumers : List PyStr → Migrating Unit
  | [] => pure ()
  | key :: keys => do
    modify (attempted key)
    stopOriginal env catalog key
    let replacement ← ensureReady env catalog key
    let s ← get
    require (stillReady s key replacement.object) (.consumerNotReady key)
    restartConsumers keys

def restartInvalidated (invalidated : Bool) (consumers : List PyStr) : Migrating Unit :=
  if invalidated then restartConsumers env catalog consumers else pure ()

/-- From here on a failure is rolled back. -/
def switched (consumers : List PyStr) (s : State) : State :=
  { s with locals := { s.locals with
      originals := fun key =>
        if key ∈ consumers then (s.instances.get key).map Entry.object else none
      switched := true } }

/-- `_restore_foreground` -/
def restoreForeground (keys : List PyStr) (s : State) : State :=
  let restored := keys.filter fun key => ((s.instances.get key).map Entry.ready).getD false
  { s with foreground := { s.foreground with
      stack := restored ++ s.foreground.stack.filter (· ∉ restored) } }

/-- The display session of the consumers is another one. -/
def sessionInvalidated (snapshot : Snapshot) (provider : PyStr) (new : Entry)
    (display : PyStr) : Bool :=
  snapshot.display ≠ display || snapshot.provider ≠ some provider ||
    snapshot.component ≠ some new.component || snapshot.generation ≠ some new.generation

/-- The section under the catalog lock. -/
def commitProvider (provider mode : PyStr) (new : Entry) : Migrating (List PyStr × PyStr) := do
  require (catalog.components provider = some new.component) .providerStale
  let s ← get
  let consumers := orderedVisualConsumers catalog s
  modify (switched consumers)
  selecting (applyDisplayPreference provider mode
    (Supervisor.holderText (new.instance provider)))
  let after ← selecting (RoleSwitch.readBefore displayRole)
  return (consumers, sessionDisplay catalog after)

def retireOld (provider : PyStr) : Option PyStr → Migrating Unit
  | none => pure ()
  | some old => do
    let s ← get
    if old ≠ provider && !activeOutside s.selection.registry old then
      retireDisplayProvider env catalog old
    else pure ()

/-- The `try` block. -/
def transact (snapshot : Snapshot) (provider mode : PyStr) : Migrating Unit := do
  let new ← ensureReady env catalog provider
  let s ← get
  require (stillReady s provider new.object) .providerNotReady
  suspend env catalog
  let (consumers, display) ← commitProvider catalog provider mode new
  restartInvalidated env catalog (sessionInvalidated snapshot provider new display) consumers
  let s ← get
  require (catalog.components provider = some new.component &&
    ownsActiveDisplayOutput catalog s provider new) .generationChanged
  modify (restoreForeground snapshot.foreground)
  -- `_reactivate_foreground`
  await env catalog
  let s ← get
  require (ownsActiveDisplayOutput catalog s provider new) .generationChanged
  -- `_persist_role_preferences`
  attempt env
  retireOld env catalog provider snapshot.provider
  -- `_role_summary` under the catalog lock
  await env catalog

/-! ## The rollback -/

def enter (phase : Phase) (s : State) : State :=
  { s with locals := { s.locals with phase := phase } }

/-- A step of the rollback: what it raises is noted. -/
def guarded (step : PyStr) (m : Migrating Unit) : Migrating Bool :=
  tryCatch (m >>= fun _ => pure true) fun fault => do
    modify fun s => { s with failures := s.failures ++ [(step, fault)] }
    pure false

def stopNewConsumer (key : PyStr) : Migrating Unit := do
  let s ← get
  match s.instances.get key with
  | none => pure ()
  | some current =>
    if s.locals.originals key = some current.object then pure ()
    else do
      let _ ← guarded (lit "stop-new-consumer:" ++ key)
        (stopComponent env catalog key current.object)

def stopNewConsumers : List PyStr → Migrating Unit
  | [] => pure ()
  | key :: keys => do
    stopNewConsumer env catalog key
    stopNewConsumers keys

def readyOldProvider : Option PyStr → Migrating Unit
  | none => pure ()
  | some old => do
    let _ ← guarded (lit "ready-old-provider:" ++ old) do
      let _ ← ensureReady env catalog old

def restorePreference : Option PyStr → RoleSwitch.Switching Unit
  | some provider => do
    let _ ← RoleSwitch.call (RoleMethods.selectPreferred displayRole provider)
    modify (RoleSwitch.setOverride displayRole provider)
  | none => do
    let _ ← RoleSwitch.call (RoleMethods.resetPreferred displayRole)
    modify (RoleSwitch.popOverride displayRole)

/-- The holder under which a lease comes back. -/
def heldAgain (s : State) (lease : RoleLease) : RoleLease :=
  match s.instances.get lease.provider with
  | some entry =>
    if entry.ready then
      { lease with holder := some (Supervisor.holderText (entry.instance lease.provider)) }
    else lease
  | none => lease

/-- `_restore_display_role` -/
def restoreDisplayRole (before : RoleSwitch.Before) : Migrating Unit := do
  selecting (restorePreference before.override)
  selecting (RoleSwitch.releaseActive displayRole)
  let s ← get
  selecting (RoleSwitch.reacquire displayRole (before.leases.map (heldAgain s)))
  -- `_persist_role_preferences`
  attempt env

def retireNewProvider (snapshot : Snapshot) (provider : PyStr) : Migrating Unit := do
  let s ← get
  if snapshot.provider ≠ some provider && snapshot.target.isNone &&
      !activeOutside s.selection.registry provider then do
    let _ ← guarded (lit "stop-new-provider:" ++ provider)
      (retireDisplayProvider env catalog provider)
  else pure ()

def restoreConsumer (key : PyStr) : Migrating Unit := do
  let replacement ← ensureReady env catalog key
  let s ← get
  require (stillReady s key replacement.object) (.notReady key)

/-- The current instance of a consumer stops; says whether its start follows. -/
def stopRolledBack (key : PyStr) : Option Entry → Migrating Bool
  | none => pure true
  | some current =>
    guarded (lit "stop-rollback-consumer:" ++ key) (stopComponent env catalog key current.object)

def startRolledBack (key : PyStr) (stopped : Bool) : Migrating Unit :=
  if stopped then do
    let _ ← guarded (lit "restore-consumer:" ++ key) (restoreConsumer env catalog key)
  else pure ()

/-- The current instance is the original one, and it is ready. -/
def untouched (s : State) (key : PyStr) : Bool :=
  match s.instances.get key with
  | some entry => s.locals.originals key = some entry.object && entry.ready
  | none => false

def restoreConsumers : List PyStr → Migrating Unit
  | [] => pure ()
  | key :: keys => do
    let s ← get
    if untouched s key then restoreConsumers keys
    else do
      let stopped ← stopRolledBack env catalog key (s.instances.get key)
      startRolledBack env catalog key stopped
      restoreConsumers keys

/-- `_rollback_display_migration` -/
def rollbackDisplayMigration (snapshot : Snapshot) (provider : PyStr) : Migrating Unit := do
  modify (enter .undoing)
  let s ← get
  stopNewConsumers env catalog s.locals.attempted.reverse
  readyOldProvider env catalog snapshot.provider
  suspend env catalog
  let _ ← guarded (lit "restore-role") (restoreDisplayRole env snapshot.before)
  modify (enter .retiring)
  retireNewProvider env catalog snapshot provider
  modify (enter .restoring)
  let s ← get
  restoreConsumers env catalog s.locals.attempted
  modify (restoreForeground snapshot.foreground)
  let _ ← guarded (lit "restore-foreground") (await env catalog)

/-- The `except` block. -/
def cleanUp (snapshot : Snapshot) (provider : PyStr) : Migrating Unit := do
  let s ← get
  if s.locals.switched then rollbackDisplayMigration env catalog snapshot provider
  else retireNewProvider env catalog snapshot provider

def begun (s : State) : State := { s with locals := .initial, failures := [] }

/-- `_migrate_display_output` -/
def migrateDisplayOutput (provider mode : PyStr) : Migrating Unit := do
  modify begun
  let _ ← selecting (RoleSwitch.read fun registry =>
    RoleMethods.getCandidate registry displayRole provider)
  let before ← selecting (RoleSwitch.readBefore displayRole)
  let s ← get
  let snapshot := snapshotDisplayRole catalog s before provider
  -- the record is published
  await env catalog
  tryCatch (transact env catalog snapshot provider mode) fun fault => do
    cleanUp env catalog snapshot provider
    throw fault

end

end MsysCore.Core.DisplayRollback
