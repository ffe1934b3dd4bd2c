import Mathlib.Data.List.Sort
import MsysCore.Lib.Except
import MsysCore.Lib.OrderedDict
import MsysCore.Native.RuntimePlan

/-!
# The catalog of a native runtime plan

`native_catalog.cpp`: which components provide which role and interface, in which
order, and what the permissions of a component allow. `std::sort` need not be stable,
but every comparison used here ends in a component index or a role name, which no two
entries of one table share, so its result is the one of any sort.
-/

namespace MsysCore.Native

structure CatalogProvider where
  componentIndex : ℕ
  priority : ℕ := 0
  exclusive : Bool := false
  profilePreferred : Bool := false
  profileRank : ℕ := 0
  deriving DecidableEq, Repr

structure CatalogRole where
  name : Bytes
  candidates : List CatalogProvider
  deriving DecidableEq, Repr

def providerLess (left right : CatalogProvider) : Bool :=
  if left.profilePreferred != right.profilePreferred then left.profilePreferred
  else if left.profilePreferred && left.profileRank != right.profileRank then
    left.profileRank < right.profileRank
  else if left.priority != right.priority then right.priority < left.priority
  else left.componentIndex < right.componentIndex

/-- `std::sort` by a strict order. -/
def sorted {α : Type} (less : α → α → Bool) (items : List α) : List α :=
  items.insertionSort fun left right => less right left = false

/-- `roles_` (before it is sorted) and `interfaces_`, by name. -/
structure ProviderTables where
  roles : List (Bytes × List CatalogProvider) := []
  interfaces : List (Bytes × List CatalogProvider) := []

def pushProvider (table : List (Bytes × List CatalogProvider)) (name : Bytes)
    (candidate : CatalogProvider) : List (Bytes × List CatalogProvider) :=
  OrderedDict.set table name ((OrderedDict.get table name).getD [] ++ [candidate])

/-- The place of a component in the preference list of a role. -/
def preferenceRank (plan : RuntimePlan) (role id : Bytes) : Option ℕ := do
  let preference ← plan.rolePreferences.find? fun preference => preference.role == role
  preference.providers.idxOf? id

def roleCandidate (plan : RuntimePlan) (index : ℕ) (id : Bytes) (provided : ProvidePlan) :
    CatalogProvider :=
  match preferenceRank plan provided.name id with
  | some rank => ⟨index, provided.priority, provided.exclusive, true, rank⟩
  | none => ⟨index, provided.priority, provided.exclusive, false, 0⟩

def addProvided (plan : RuntimePlan) (index : ℕ) (id : Bytes) (tables : ProviderTables)
    (provided : ProvidePlan) : ProviderTables :=
  match provided.kind with
  | .role =>
    { tables with
      roles := pushProvider tables.roles provided.name (roleCandidate plan index id provided) }
  | .interface =>
    { tables with
      interfaces := pushProvider tables.interfaces provided.name
        ⟨index, provided.priority, provided.exclusive, false, 0⟩ }
  | .capability => tables

/-- The loop over the provided services of one component; `unique` are those it has seen. -/
def addProvides (plan : RuntimePlan) (index : ℕ) (id : Bytes) :
    List (ProvideKind × Bytes) → ProviderTables → List ProvidePlan → Except Bytes ProviderTables
  | _, tables, [] => .ok tables
  | unique, tables, provided :: rest =>
    if (provided.kind, provided.name) ∈ unique then
      fail "native catalog component repeats a provided service"
    else
      addProvides plan index id ((provided.kind, provided.name) :: unique)
        (addProvided plan index id tables provided) rest

/-- The loop over the components, from the one with number `index`. -/
def addComponents (plan : RuntimePlan) :
    ℕ → ProviderTables → List ComponentPlan → Except Bytes ProviderTables
  | _, tables, [] => .ok tables
  | index, tables, component :: rest => do
    let tables ← addProvides plan index component.id [] tables component.provides
    addComponents plan (index + 1) tables rest

structure NativeCatalog where
  plan : RuntimePlan
  roles : List CatalogRole
  interfaces : List (Bytes × List CatalogProvider)

namespace NativeCatalog

def componentIndex (catalog : NativeCatalog) (id : Bytes) : Option ℕ :=
  catalog.plan.components.findIdx? fun component => component.id == id

def role (catalog : NativeCatalog) (name : Bytes) : Option CatalogRole :=
  catalog.roles.find? fun candidate => candidate.name == name

def interfaceProviders (catalog : NativeCatalog) (name : Bytes) : Option (List CatalogProvider) :=
  (catalog.interfaces.find? fun entry => entry.1 == name).map Prod.snd

def preferredRoleProvider (catalog : NativeCatalog) (name : Bytes) : Option ℕ := do
  let found ← catalog.role name
  let first ← found.candidates.head?
  pure first.componentIndex

/-- Every component a profile prefers for a role provides that role. -/
def checkPreference (catalog : NativeCatalog) (preference : RolePreference) : Except Bytes Unit :=
  match catalog.role preference.role with
  | none => fail "profile prefers an undeclared native role"
  | some declared =>
    if preference.providers.all fun id =>
        match catalog.componentIndex id with
        | none => false
        | some index => declared.candidates.any fun candidate => candidate.componentIndex == index
    then .ok ()
    else fail "profile role preference names a component that does not provide it"

/-- The catalog the constructor builds from the tables of all components. -/
def ofTables (plan : RuntimePlan) (tables : ProviderTables) : NativeCatalog where
  plan := plan
  roles := sorted (fun left right => decide (left.name < right.name))
    (tables.roles.map fun entry => ⟨entry.1, sorted providerLess entry.2⟩)
  interfaces := tables.interfaces.map fun entry => (entry.1, sorted providerLess entry.2)

/-- The constructor; a refused plan is a thrown `std::invalid_argument`. -/
def build (plan : RuntimePlan) : Except Bytes NativeCatalog := do
  if ¬ (plan.components.map ComponentPlan.id).Nodup then
    fail "native catalog has a duplicate component id"
  else if ¬ (plan.rolePreferences.map RolePreference.role).Nodup then
    fail "native catalog has duplicate profile role preferences"
  else do
    let tables ← addComponents plan 0 {} plan.components
    let catalog := ofTables plan tables
    plan.rolePreferences.forM catalog.checkPreference
    pure catalog

theorem build_eq_ok {plan : RuntimePlan} {catalog : NativeCatalog} :
    build plan = .ok catalog ↔
      (plan.components.map ComponentPlan.id).Nodup ∧
        (plan.rolePreferences.map RolePreference.role).Nodup ∧
        ∃ tables, addComponents plan 0 {} plan.components = .ok tables ∧
          catalog = ofTables plan tables ∧
          ∀ preference ∈ plan.rolePreferences, catalog.checkPreference preference = .ok () := by
  unfold build
  by_cases hids : (plan.components.map ComponentPlan.id).Nodup
  · by_cases hroles : (plan.rolePreferences.map RolePreference.role).Nodup
    · simp only [hids, hroles, not_true_eq_false, if_false, true_and, bind_eq_ok]
      constructor
      · rintro ⟨tables, htables, ⟨⟩, hchecks, hcatalog⟩
        cases hcatalog
        exact ⟨tables, htables, rfl, forM_eq_ok.mp hchecks⟩
      · rintro ⟨tables, htables, rfl, hchecks⟩
        exact ⟨tables, htables, ⟨⟩, forM_eq_ok.mpr hchecks, rfl⟩
    · simp [hids, hroles, fail]
  · simp [hids, fail]

/-! ## Authorization -/

/-- The permissions of a source; an index past the plan has none. -/
def permissionsOf (catalog : NativeCatalog) (source : ℕ) : List Bytes :=
  match catalog.plan.components[source]? with
  | some component => component.permissions
  | none => []

def topicMatch (rule topic : Bytes) : Bool :=
  if rule = ascii "*" then true
  else if 2 ≤ rule.length && (ascii ".*").isSuffixOf rule then rule.dropLast.isPrefixOf topic
  else rule == topic

def hasPermission (catalog : NativeCatalog) (source : ℕ) (broad exact : Bytes) : Bool :=
  (catalog.permissionsOf source).any fun value => value == broad || value == exact

def allowsCall (catalog : NativeCatalog) (source : ℕ) (target method : Bytes) : Bool :=
  let permissionTarget :=
    if (ascii "interface:").isPrefixOf target then target.drop 10 else target
  let broad := ascii "mipc.call:" ++ permissionTarget
  catalog.hasPermission source broad (broad ++ ascii "." ++ method)

/-- The loop of `allows_subscribe` and `allows_publish`. -/
def allowsTopic (catalog : NativeCatalog) (source : ℕ) (start topic : Bytes) : Bool :=
  (catalog.permissionsOf source).any fun permission =>
    start.isPrefixOf permission && topicMatch (permission.drop start.length) topic

def allowsSubscribe (catalog : NativeCatalog) (source : ℕ) (topic : Bytes) : Bool :=
  catalog.allowsTopic source (ascii "mipc.event:subscribe:") topic

def allowsPublish (catalog : NativeCatalog) (source : ℕ) (topic : Bytes) : Bool :=
  catalog.allowsTopic source (ascii "mipc.event:publish:") topic

end NativeCatalog

end MsysCore.Native
