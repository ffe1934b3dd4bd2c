import MsysCore.Core.InstanceHistory
import MsysCore.Core.RoleCatalog

/-!
# Reload of the installed catalog

`_reload_installed_components_locked` and `_verify_catalog_health`: the commit section swaps the
catalog in one step, and the awaited calls after it run among the steps of all other tasks. A
reload that raises before the switch changes nothing and is not a step; neither is one that ends
because its own task was cancelled. The consumers of a planned display outage come with the step.
-/

namespace MsysCore.Core.CatalogReload

open Python Runs Supervisor

/-- A component of the catalog with the fields of its manifest that a reload reads. -/
structure Entry where
  component : Component
  packageId : PyStr
  packageVersion : PyStr
  raw : Dict
  manifestPath : Option PyStr
  /-- The resolved directory of the manifest. -/
  packageRoot : Option PyStr
  lifecycle : PyStr
  provides : List Manifest.Provide

abbrev Entries := List (PyStr × Entry)

def has (catalog : Entries) (key : PyStr) : Bool := (OrderedDict.get catalog key).isSome

def componentOf (catalog : Entries) (key : PyStr) : Option Component :=
  (OrderedDict.get catalog key).map Entry.component

structure Transaction where
  package : PyStr
  /-- `resume_components` -/
  resume : List PyStr
  deriving DecidableEq

/-- `sorted(set(keys))`. -/
def sortedSet (keys : List PyStr) : List PyStr := keys.dedup.insertionSort (· ≤ ·)

/-! ## The commit section -/

/-- Components that did not change keep their objects. -/
def keepIdentity (previous replacement : Entries) : Entries :=
  replacement.map fun entry =>
    match OrderedDict.get previous entry.1 with
    | none => entry
    | some current =>
      if current.packageVersion = entry.2.packageVersion ∧ current.raw = entry.2.raw ∧
          current.manifestPath = entry.2.manifestPath then
        (entry.1, current)
      else entry

/-- `_catalog_instance_is_active` of the entry of a key. -/
def isActive (s : Supervisor) (key : PyStr) : Bool :=
  match s.current key with
  | some (_, inst) => !inst.finalized && (inst.ready || inst.running)
  | none => false

/-- What the commit section leaves in local variables. `before` is the state it found. -/
structure Plan where
  transaction : Option Transaction
  verifyHealth : Bool
  before : Supervisor
  replacement : Entries
  removed : List PyStr
  changed : List PyStr
  added : List PyStr
  affected : List PyStr
  runtimeBefore : List PyStr
  restartTargets : List PyStr
  generationFloor : List (PyStr × ℕ)
  rollbackResume : List PyStr
  roleTransitionTargets : List PyStr
  consumers : List PyStr

def keys (catalog : Entries) : List PyStr := catalog.map Prod.fst

def requestedResume (transaction : Option Transaction) : List PyStr :=
  (transaction.map Transaction.resume).getD []

/-- The keys that a resume request must not name. -/
def invalidResume (replacement : Entries) (transaction : Transaction) : List PyStr :=
  transaction.resume.filter fun key =>
    match OrderedDict.get replacement key with
    | some entry => entry.packageId ≠ transaction.package
    | none => true

def packageKeys (catalog : Entries) (package : PyStr) : List PyStr :=
  (catalog.filter fun entry => entry.2.packageId = package).map Prod.fst

def instanceGeneration (s : Supervisor) (key : PyStr) : ℕ :=
  match s.current key with
  | some (_, inst) => inst.generation
  | none => 0

def roleTransitions (old new : RoleRegistry) : List PyStr :=
  new.listRoles.filterMap fun role =>
    match new.listedPreferred role with
    | some provider => if old.listedPreferred role = some provider then none else some provider
    | none => none

/-- The local variables of a reload from `previous` to `replacement`, whose registry is
`registry`. -/
def planOf (s : Supervisor) (previous replacement : Entries) (registry : RoleRegistry)
    (transaction : Option Transaction) (verifyHealth : Bool) (consumers : List PyStr) : Plan :=
  let removed := sortedSet ((keys previous).filter fun key => !has replacement key)
  let changed := sortedSet ((keys previous).filter fun key =>
    has replacement key && componentOf previous key ≠ componentOf replacement key)
  let added := sortedSet ((keys replacement).filter fun key => !has previous key)
  let runtimeBefore := (changed ++ removed).filter (isActive s)
  let requested := requestedResume transaction
  let restartTargets := sortedSet (runtimeBefore.filter (has replacement) ++ requested)
  { transaction := transaction
    verifyHealth := verifyHealth
    before := s
    replacement := replacement
    removed := removed
    changed := changed
    added := added
    affected := match transaction with
      | some transaction => sortedSet (packageKeys previous transaction.package ++
          packageKeys replacement transaction.package)
      | none => []
    runtimeBefore := runtimeBefore
    restartTargets := restartTargets
    generationFloor := (restartTargets.filter fun key => key ∈ changed ++ added).map fun key =>
      (key, max (s.generations key) (instanceGeneration s key))
    rollbackResume := sortedSet (runtimeBefore ++ requested)
    roleTransitionTargets := roleTransitions s.registry registry
    consumers := consumers }

/-! ## Health targets -/

/-- The enabled roles that a component is a candidate of. -/
def candidateRoles (registry : RoleRegistry) (key : PyStr) : List (PyStr × RoleState) :=
  registry.roles.filter fun role => key ∈ role.2.candidates

def declaresRoles (entry : Entry) : Bool :=
  entry.provides.any fun provided => provided.kind = .role

/-- `_is_eager_role_provider` -/
def isEagerRoleProvider (catalog : Entries) (registry : RoleRegistry) (key : PyStr) : Bool :=
  let entry := OrderedDict.get catalog key
  let always := match entry with
    | some entry =>
      keyEq (Dict.get entry.raw "x-msys-role-activation" .null) (text "always")
    | none => false
  let exclusive := (candidateRoles registry key).filter fun role => role.2.exclusive
  if always then true
  else if (entry.map declaresRoles).getD false && (candidateRoles registry key).isEmpty then false
  else if exclusive.isEmpty then true
  else registry.roles.any fun role =>
    role.2.exclusive && registry.listedPreferred role.1 = some key

/-- `_catalog_health_targets` -/
def catalogHealthTargets (catalog : Entries) (registry : RoleRegistry) (affected : List PyStr) :
    List PyStr :=
  let eager := affected.filter fun key =>
    match OrderedDict.get catalog key with
    | some entry =>
      (entry.lifecycle = lit "background" || entry.lifecycle = lit "session") &&
        isEagerRoleProvider catalog registry key
    | none => false
  let providers := (registry.listRoles.filterMap registry.listedPreferred).filter fun provider =>
    provider ∈ affected
  sortedSet (eager ++ providers)

def healthTargets (catalog : Entries) (registry : RoleRegistry) (plan : Plan) : List PyStr :=
  sortedSet (catalogHealthTargets catalog registry (plan.changed ++ plan.added) ++
    plan.roleTransitionTargets ++ plan.restartTargets ++ plan.consumers.filter (has catalog))

/-! ## Results -/

/-- A record of `_verify_catalog_health`; `inst` is the instance as it was then. -/
structure Verified where
  component : PyStr
  generation : ℕ
  packageVersion : PyStr
  packageRoot : Option PyStr
  inst : Instance

structure Failure where
  component : PyStr
  message : PyStr
  requiredGenerationGt : Option ℕ

structure Restarted where
  record : Verified
  fromGeneration : ℕ
  toGeneration : ℕ

structure Proof where
  catalogEpoch : ℕ
  affectedComponents : List PyStr
  runningBefore : List PyStr
  resumedComponents : List PyStr
  restartedComponents : List Restarted
  generationVerified : Bool

structure Result where
  added : List PyStr
  changed : List PyStr
  removed : List PyStr
  healthChecked : List PyStr
  transaction : Option Proof

/-- `CatalogReloadError` and `CatalogHealthError` with their details. -/
inductive CatalogTransactionError
  | reload (reason : PyStr) (package : Option PyStr) (resumeComponents : Option (List PyStr))
  | health (failures : List Failure) (targets : List PyStr) (package : Option PyStr)
      (resumeComponents : Option (List PyStr))

def CatalogTransactionError.resumeComponents : CatalogTransactionError → Option (List PyStr)
  | reload _ _ resume => resume
  | health _ _ _ resume => resume

/-- The details of a transaction that both handlers add. -/
def resumeOf (plan : Plan) : Option (List PyStr) := plan.transaction.map fun _ => plan.rollbackResume

def reloadError (plan : Plan) (reason : PyStr) : CatalogTransactionError :=
  .reload (reason.take 512) (plan.transaction.map Transaction.package) (resumeOf plan)

def healthError (plan : Plan) (failures : List Failure) (targets : List PyStr) :
    CatalogTransactionError :=
  .health failures targets (plan.transaction.map Transaction.package) (resumeOf plan)

def restartedComponents (plan : Plan) (verified : List Verified) : List Restarted :=
  let byComponent := OrderedDict.update [] (verified.map fun record => (record.component, record))
  plan.generationFloor.filterMap fun floor =>
    (OrderedDict.get byComponent floor.1).map fun record => ⟨record, floor.2, record.generation⟩

def resultOf (plan : Plan) (catalogEpoch : ℕ) (targets : List PyStr) (verified : List Verified) :
    Result where
  added := plan.added
  changed := plan.changed
  removed := plan.removed
  healthChecked := if plan.verifyHealth then targets else []
  transaction := plan.transaction.map fun _ =>
    { catalogEpoch := catalogEpoch
      affectedComponents := plan.affected
      runningBefore := sortedSet plan.runtimeBefore
      resumedComponents := plan.restartTargets
      restartedComponents := restartedComponents plan verified
      generationVerified := plan.verifyHealth }

/-! ## Steps -/

inductive Phase
  /-- No reload holds the lock. -/
  | idle
  /-- The catalog is switched; retries are cancelled, components are stopped and started. -/
  | switched (plan : Plan)
  /-- The targets of `rest` are still to be verified. -/
  | verifying (plan : Plan) (targets : List PyStr) (verified : List Verified)
      (failures : List Failure) (rest : List PyStr)
  | returned (plan : Plan) (result : Result)
  | raised (plan : Plan) (error : CatalogTransactionError)

structure State where
  sup : Supervisor
  catalog : Entries
  profile : Dict
  overrides : List (PyStr × PyStr)
  catalogEpoch : ℕ
  phase : Phase

inductive Label
  /-- A step of any task, also of the calls that the reload awaits. -/
  | supervisor (l : Supervisor.Label)
  /-- The commit section, with the catalog that was loaded. -/
  | reload (candidates : Entries) (transaction : Option Transaction) (verifyHealth : Bool)
      (consumers : List PyStr)
  /-- The calls before the check have returned. -/
  | check
  /-- One of them raised. -/
  | fail (reason : PyStr)
  /-- `ensure_ready` of the next target returns its instance `i`, whose state has this text. -/
  | ready (i : ℕ) (state : PyStr)
  /-- `ensure_ready` of the next target raises. -/
  | unready (message : PyStr)
  /-- The end of the check; the preferences are written unless that raises. -/
  | finish (persistFails : Option PyStr)

def Phase.ended : Phase → Bool
  | .idle | .returned _ _ | .raised _ _ => true
  | .switched _ | .verifying _ _ _ _ _ => false

/-- The step is the commit of a reload, which needs the lock. -/
def isReload : Supervisor.Label → Bool
  | .lease (.reload _ _ _) => true
  | _ => false

/-- Role preferences that the new registry still accepts. -/
def validOverrides (registry : RoleRegistry) (overrides : List (PyStr × PyStr)) :
    List (PyStr × PyStr) :=
  overrides.filter fun override => (registry.selectPreferred override.1 override.2).isOk

def commit (py : Interpreter) (s : State) (candidates : Entries)
    (transaction : Option Transaction) (verifyHealth : Bool) (consumers : List PyStr) :
    Option State :=
  let replacement := keepIdentity s.catalog candidates
  let refused := match transaction with
    | some transaction => !(invalidResume replacement transaction).isEmpty
    | none => false
  let roles := replacement.map fun entry => (entry.1, entry.2.provides)
  match RoleRegistry.fromProfile py roles s.profile with
  | .error _ => none
  | .ok registry =>
    if refused then none
    else
      let sup := s.sup.reloadCatalog (componentOf replacement) registry.roles s.overrides
      some { s with
        sup := sup
        catalog := replacement
        overrides := validOverrides registry s.overrides
        catalogEpoch := s.catalogEpoch + 1
        phase := .switched
          (planOf s.sup s.catalog replacement sup.registry transaction verifyHealth consumers) }

/-- What is wrong with the instance that `ensure_ready` has returned for a target; `state` is the
text of its state. -/
def healthProblem (catalog : Entries) (floors : List (PyStr × ℕ)) (key : PyStr) (inst : Instance)
    (state : PyStr) : Option PyStr :=
  if inst.ready = false ∨ state ≠ lit "ready" then some (lit "component state is " ++ state)
  else if componentOf catalog key ≠ some inst.component then
    some (lit "ready instance belongs to the previous catalog")
  else match OrderedDict.get floors key with
    | some floor =>
      if inst.generation ≤ floor then
        some (lit "ready generation " ++ intText inst.generation ++ lit " did not replace " ++
          intText floor)
      else none
    | none => none

def failureOf (plan : Plan) (key message : PyStr) : Failure where
  component := key
  message := message.take 512
  requiredGenerationGt := OrderedDict.get plan.generationFloor key

def verifiedOf (catalog : Entries) (key : PyStr) (inst : Instance) : Verified where
  component := key
  generation := inst.generation
  packageVersion := ((OrderedDict.get catalog key).map Entry.packageVersion).getD []
  packageRoot := (OrderedDict.get catalog key).bind Entry.packageRoot
  inst := inst

def step (py : Interpreter) (s : State) : Label → Option State
  | .supervisor l =>
    if isReload l then none else (s.sup.step l).map fun sup => { s with sup := sup }
  | .reload candidates transaction verifyHealth consumers =>
    if s.phase.ended then commit py s candidates transaction verifyHealth consumers else none
  | .check =>
    match s.phase with
    | .switched plan =>
      let targets := healthTargets s.catalog s.sup.registry plan
      let rest := if plan.verifyHealth then targets else []
      some { s with phase := .verifying plan targets [] [] rest }
    | _ => none
  | .fail reason =>
    match s.phase with
    | .switched plan => some { s with phase := .raised plan (reloadError plan reason) }
    | _ => none
  | .ready i state =>
    match s.phase, s.sup.heap i with
    | .verifying plan targets verified failures (key :: rest), some inst =>
      if inst.key ≠ key then none
      else match healthProblem s.catalog plan.generationFloor key inst state with
        | some message =>
          let failures := failures ++ [failureOf plan key message]
          some { s with phase := .verifying plan targets verified failures rest }
        | none =>
          let verified := verified ++ [verifiedOf s.catalog key inst]
          some { s with phase := .verifying plan targets verified failures rest }
    | _, _ => none
  | .unready message =>
    match s.phase with
    | .verifying plan targets verified failures (key :: rest) =>
      let failures := failures ++ [failureOf plan key message]
      some { s with phase := .verifying plan targets verified failures rest }
    | _ => none
  | .finish persistFails =>
    match s.phase with
    | .verifying plan targets verified failures [] =>
      if failures.isEmpty then
        match persistFails with
        | some reason => some { s with phase := .raised plan (reloadError plan reason) }
        | none =>
          some { s with
            phase := .returned plan (resultOf plan s.catalogEpoch targets verified) }
      else some { s with phase := .raised plan (healthError plan failures targets) }
    | _ => none

/-- The daemon before its first reload. -/
def initial (catalog : Entries) (roles : List (PyStr × RoleState)) (profile : Dict)
    (overrides : List (PyStr × PyStr)) : State where
  sup := Supervisor.initial (componentOf catalog) roles
  catalog := catalog
  profile := profile
  overrides := overrides
  catalogEpoch := 0
  phase := .idle

end MsysCore.Core.CatalogReload
