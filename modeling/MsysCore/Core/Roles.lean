import MsysCore.Lib.Except
import MsysCore.Lib.OrderedDict
import MsysCore.Python.Values

/-!
# Role registry

`RoleRegistry` of `roles.py` once its candidate catalog is built: preferences, leases
and the lookups on them. A method that raises leaves the registry as it was.
-/

namespace MsysCore.Core

open Python

/-- Ordered candidates of a role, and whether one active lease excludes another. -/
structure RoleState where
  candidates : List PyStr
  exclusive : Bool
  deriving DecidableEq

structure RoleLease where
  token : ℕ
  role : PyStr
  provider : PyStr
  holder : Option PyStr
  deriving DecidableEq

structure RoleRegistry where
  roles : List (PyStr × RoleState)
  preferred : List (PyStr × PyStr)
  /-- `_leases`, in acquisition order -/
  leases : List RoleLease
  /-- `_role_leases`: the tokens of each role -/
  roleLeases : List (PyStr × List ℕ)
  nextLeaseToken : ℕ

inductive RoleError
  | unknownRole | unknownCandidate | noCandidate | leaseConflict | unknownLease
  deriving DecidableEq

namespace RoleRegistry

/-- A registry as its constructor leaves it. -/
def ofRoles (roles : List (PyStr × RoleState)) : RoleRegistry where
  roles := roles
  preferred := []
  leases := []
  roleLeases := roles.map fun entry => (entry.1, [])
  nextLeaseToken := 1

variable (registry : RoleRegistry)

def state (role : PyStr) : Except RoleError RoleState :=
  match OrderedDict.get registry.roles role with
  | some state => .ok state
  | none => .error .unknownRole

def listRoles : List PyStr := registry.roles.map Prod.fst

def candidateIds (role : PyStr) : Except RoleError (List PyStr) := do
  let state ← registry.state role
  pure state.candidates

def isCandidate (role provider : PyStr) : Except RoleError Bool := do
  let candidates ← registry.candidateIds role
  pure (candidates.contains provider)

/-- `get_candidate` -/
def checkCandidate (role provider : PyStr) : Except RoleError Unit := do
  if ← registry.isCandidate role provider then pure () else .error .unknownCandidate

def preferredProvider (role : PyStr) : Except RoleError (Option PyStr) := do
  let state ← registry.state role
  match OrderedDict.get registry.preferred role with
  | some selected => pure (some selected)
  | none => pure state.candidates.head?

def selectPreferred (role provider : PyStr) : Except RoleError RoleRegistry := do
  registry.checkCandidate role provider
  pure { registry with preferred := OrderedDict.set registry.preferred role provider }

def resetPreferred (role : PyStr) : Except RoleError RoleRegistry := do
  let _ ← registry.state role
  pure { registry with preferred := OrderedDict.pop registry.preferred role }

def tokens (role : PyStr) : List ℕ := (OrderedDict.get registry.roleLeases role).getD []

def leaseOf (token : ℕ) : Option RoleLease :=
  registry.leases.find? fun lease => lease.token = token

def activeLeases (role : PyStr) : Except RoleError (List RoleLease) := do
  let _ ← registry.state role
  pure ((registry.tokens role).filterMap registry.leaseOf)

def activeProviders (role : PyStr) : Except RoleError (List PyStr) := do
  let leases ← registry.activeLeases role
  pure (leases.map RoleLease.provider).eraseDups

def activeProvider (role : PyStr) : Except RoleError (Option PyStr) := do
  let providers ← registry.activeProviders role
  pure providers.head?

def acquire (role provider : PyStr) (holder : Option PyStr) : Except RoleError RoleRegistry := do
  let state ← registry.state role
  registry.checkCandidate role provider
  if state.exclusive && !(registry.tokens role).isEmpty then .error .leaseConflict
  else
    let token := registry.nextLeaseToken
    pure { registry with
      leases := registry.leases ++ [⟨token, role, provider, holder⟩]
      roleLeases := OrderedDict.set registry.roleLeases role (registry.tokens role ++ [token])
      nextLeaseToken := token + 1 }

/-- Removes one active lease. -/
def drop (lease : RoleLease) : RoleRegistry :=
  { registry with
    leases := registry.leases.filter fun other => other.token ≠ lease.token
    roleLeases := OrderedDict.set registry.roleLeases lease.role
      ((registry.tokens lease.role).erase lease.token) }

def release (lease : RoleLease) : Except RoleError RoleRegistry :=
  if registry.leaseOf lease.token = some lease then .ok (registry.drop lease)
  else .error .unknownLease

def releaseProvider (provider : PyStr) : RoleRegistry :=
  (registry.leases.filter fun lease => lease.provider = provider).foldl drop registry

/-- Releases what a role has active, as the switch and the migrations do. -/
def releaseActive (role : PyStr) : RoleRegistry :=
  ((registry.tokens role).filterMap registry.leaseOf).foldl drop registry

/-! ## Leases after each operation -/

variable {registry} {r : RoleRegistry} {role provider : PyStr} {holder : Option PyStr}

theorem acquire_leases (h : registry.acquire role provider holder = .ok r) :
    r.leases = registry.leases ++ [⟨registry.nextLeaseToken, role, provider, holder⟩] := by
  obtain ⟨state, -, h⟩ := bind_eq_ok.mp h
  obtain ⟨_, -, h⟩ := bind_eq_ok.mp h
  split_ifs at h
  cases h
  rfl

theorem selectPreferred_leases (h : registry.selectPreferred role provider = .ok r) :
    r.leases = registry.leases := by
  obtain ⟨_, -, h⟩ := bind_eq_ok.mp h
  cases h
  rfl

theorem resetPreferred_leases (h : registry.resetPreferred role = .ok r) :
    r.leases = registry.leases := by
  obtain ⟨_, -, h⟩ := bind_eq_ok.mp h
  cases h
  rfl

theorem foldl_drop_subset (dropped : List RoleLease) : ∀ registry : RoleRegistry,
    (dropped.foldl drop registry).leases ⊆ registry.leases := by
  induction dropped with
  | nil => exact fun _ => List.Subset.refl _
  | cons lease dropped ih =>
    intro registry
    exact fun other hother => List.mem_of_mem_filter (ih _ hother)

theorem releaseActive_subset : (registry.releaseActive role).leases ⊆ registry.leases :=
  foldl_drop_subset _ _

theorem releaseProvider_subset : (registry.releaseProvider provider).leases ⊆ registry.leases :=
  foldl_drop_subset _ _

theorem not_mem_foldl_drop {lease : RoleLease} (dropped : List RoleLease) :
    ∀ registry : RoleRegistry, lease ∈ dropped → lease ∉ (dropped.foldl drop registry).leases := by
  induction dropped with
  | nil =>
    intro registry h
    cases h
  | cons first dropped ih =>
    intro registry h
    rcases List.mem_cons.mp h with rfl | hrest
    · intro hmem
      have := foldl_drop_subset dropped _ hmem
      simp [drop] at this
    · exact ih _ hrest

/-- No lease of the provider is left. -/
theorem provider_ne_of_mem_releaseProvider {lease : RoleLease}
    (h : lease ∈ (registry.releaseProvider provider).leases) : lease.provider ≠ provider := by
  intro heq
  have hmem : lease ∈ registry.leases := releaseProvider_subset h
  exact not_mem_foldl_drop _ registry (List.mem_filter.mpr ⟨hmem, by simpa using heq⟩) h

end RoleRegistry

end MsysCore.Core
