import Mathlib.Data.List.Sort
import MsysCore.Core.LoadManifest
import MsysCore.Core.Roles

/-!
# Candidates of roles

`RoleRegistry.from_profile`: the roles that a profile lists and components declare, each
with its ordered candidates. Registries keep the ids of the candidates.
-/

namespace MsysCore.Core

open Python

structure RoleCandidate where
  role : PyStr
  providerId : PyStr
  priority : ℤ
  exclusive : Bool
  profileRank : Option ℕ := none
  declared : Bool := true
  deriving DecidableEq

/-- The components of a registry: ids and `provides`. -/
abbrev RoleComponents := List (PyStr × List Manifest.Provide)

/-- `declared` of `_build_roles`: per role, the priority and exclusivity of each provider. -/
abbrev DeclaredRoles := List (PyStr × List (PyStr × (ℤ × Bool)))

namespace RoleRegistry

/-- `_profile_candidate_ids`. -/
def profileCandidateIds (py : Interpreter) : Json → Except PyError (List PyStr)
  | .null => .ok []
  | .str id => .ok [id]
  | .list items => .ok (items.map (toStr py))
  | _ => raise .typeError "profile role candidates must be a sequence of component ids"

/-- One declaration of a role: the highest priority of a provider wins, and it is exclusive if
any of its declarations is. -/
def declareProvide (disabled : List PyStr) (providerId : PyStr) (declared : DeclaredRoles)
    (provided : Manifest.Provide) : DeclaredRoles :=
  if provided.kind ≠ .role ∨ provided.name ∈ disabled then declared
  else
    let perRole := (OrderedDict.get declared provided.name).getD []
    let entry := match OrderedDict.get perRole providerId with
      | none => (provided.priority, provided.exclusive)
      | some previous => (max previous.1 provided.priority, previous.2 || provided.exclusive)
    OrderedDict.set declared provided.name (OrderedDict.set perRole providerId entry)

def declaredRoles (components : RoleComponents) (disabled : List PyStr) : DeclaredRoles :=
  components.foldl
    (fun declared component => component.2.foldl (declareProvide disabled component.1) declared) []

/-- The candidates a profile lists, from rank `rank` on; entries that are repeated or not
installed are passed over. -/
def explicitCandidates (components : RoleComponents) (metadata : List (PyStr × (ℤ × Bool)))
    (role : PyStr) : ℕ → List PyStr → List PyStr → List RoleCandidate
  | _, _, [] => []
  | rank, seen, id :: ids =>
    if id ∈ seen ∨ (OrderedDict.get components id).isNone then
      explicitCandidates components metadata role (rank + 1) seen ids
    else
      let provided := OrderedDict.get metadata id
      { role := role
        providerId := id
        priority := (provided.map Prod.fst).getD 0
        exclusive := (provided.map Prod.snd).getD true
        profileRank := some rank
        declared := provided.isSome } ::
        explicitCandidates components metadata role (rank + 1) (id :: seen) ids

/-- The providers that only declare the role, by `(-priority, id)`. -/
def remainingCandidates (metadata : List (PyStr × (ℤ × Bool))) (role : PyStr)
    (seen : List PyStr) : List RoleCandidate :=
  let remaining := metadata.filter fun entry => entry.1 ∉ seen
  let ordered := remaining.insertionSort fun a b =>
    b.2.1 < a.2.1 ∨ (a.2.1 = b.2.1 ∧ a.1 ≤ b.1)
  ordered.map fun entry =>
    { role := role, providerId := entry.1, priority := entry.2.1, exclusive := entry.2.2 }

/-- All candidates of a role, with the value that the profile has for it. -/
def roleCandidates (components : RoleComponents) (declared : DeclaredRoles) (role : PyStr)
    (explicitIds : List PyStr) : List RoleCandidate :=
  let metadata := (OrderedDict.get declared role).getD []
  let explicit := explicitCandidates components metadata role 0 [] explicitIds
  explicit ++ remainingCandidates metadata role (explicit.map RoleCandidate.providerId)

def roleState (candidates : List RoleCandidate) : RoleState where
  candidates := candidates.map RoleCandidate.providerId
  exclusive := candidates.any RoleCandidate.exclusive

/-- `self._profile_roles.get(role)`. -/
def profileValue (profileRoles : Dict) (role : PyStr) : Json :=
  ((profileRoles.find? fun entry => isKey role entry.1).map Prod.snd).getD .null

def roleNames (py : Interpreter) (profileRoles : Dict) (declared : DeclaredRoles)
    (disabled : List PyStr) : List PyStr :=
  let names := (profileRoles.map fun entry => toStr py entry.1).filter fun role => role ∉ disabled
  let rest := (declared.map Prod.fst).filter fun role => role ∉ names
  names ++ rest.insertionSort (· ≤ ·)

/-- `_build_roles`. -/
def buildRoles (py : Interpreter) (components : RoleComponents) (profileRoles : Dict)
    (disabled : List PyStr) : Except PyError (List (PyStr × RoleState)) :=
  let declared := declaredRoles components disabled
  (roleNames py profileRoles declared disabled).foldlM
    (fun result role => do
      let explicitIds ← profileCandidateIds py (profileValue profileRoles role)
      let candidates := roleCandidates components declared role explicitIds
      pure (OrderedDict.set result role (roleState candidates))) []

/-- `from_profile` and the constructor it calls. -/
def fromProfile (py : Interpreter) (components : RoleComponents) (profile : Dict) :
    Except PyError RoleRegistry :=
  match Dict.get profile "roles" (.dict []) with
  | .dict profileRoles =>
    match Dict.get profile "disabled_roles" (.list []) with
    | .list disabled => do
      let roles ← buildRoles py components profileRoles (disabled.map (toStr py))
      pure (ofRoles roles)
    | _ => raise .typeError "profile 'disabled_roles' must be a sequence of role names"
  | _ => raise .typeError "profile 'roles' must be a mapping"

/-- `preferred_provider` of a role that the registry lists. -/
def listedPreferred (registry : RoleRegistry) (role : PyStr) : Option PyStr :=
  match registry.preferredProvider role with
  | .ok provider => provider
  | .error _ => none

/-! ## Distinct names -/

theorem buildRoles_nodup {py : Interpreter} {components : RoleComponents} {profileRoles : Dict}
    {disabled : List PyStr} {roles : List (PyStr × RoleState)}
    (h : buildRoles py components profileRoles disabled = .ok roles) :
    (roles.map Prod.fst).Nodup := by
  have hturn : ∀ (result : List (PyStr × RoleState)) (role : PyStr)
      (next : List (PyStr × RoleState)), (result.map Prod.fst).Nodup →
      (do
        let explicitIds ← profileCandidateIds py (profileValue profileRoles role)
        let candidates := roleCandidates components (declaredRoles components disabled) role
          explicitIds
        pure (OrderedDict.set result role (roleState candidates))) = .ok next →
      (next.map Prod.fst).Nodup := by
    intro result role next hresult hnext
    obtain ⟨explicitIds, -, hnext⟩ := bind_eq_ok.mp hnext
    cases hnext
    exact OrderedDict.nodup_set hresult role _
  have hempty : (([] : List (PyStr × RoleState)).map Prod.fst).Nodup := List.nodup_nil
  exact foldlM_invariant hturn hempty h

theorem fromProfile_eq_ok {py : Interpreter} {components : RoleComponents} {profile : Dict}
    {registry : RoleRegistry} (h : fromProfile py components profile = .ok registry) :
    ∃ roles, registry = ofRoles roles ∧ (roles.map Prod.fst).Nodup := by
  unfold fromProfile at h
  split at h
  · split at h
    · obtain ⟨roles, hroles, h⟩ := bind_eq_ok.mp h
      cases h
      exact ⟨roles, rfl, buildRoles_nodup hroles⟩
    · cases h
  · cases h

end RoleRegistry

end MsysCore.Core
