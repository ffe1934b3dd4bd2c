import MsysCore.Core.RoleHistory
import MsysCore.Core.Supervisor
import MsysCore.Lib.Attempts

/-!
# Switching a role

`_switch_role` as far as its commit section: preference, override and leases change one
after another, and what raises in between is undone by hand.
-/

namespace MsysCore.Core

open Python

namespace RoleMethods

open RoleRegistry

def candidateIds (registry : RoleRegistry) (role : PyStr) : Except RoleFault (List PyStr) := do
  let state ← stateOf registry role
  pure state.candidates

def isCandidate (registry : RoleRegistry) (role provider : PyStr) : Except RoleFault Bool := do
  let candidates ← candidateIds registry role
  pure (candidates.contains provider)

/-- `self._leases[token]` -/
def leaseAt (registry : RoleRegistry) (token : ℕ) : Except RoleFault RoleLease :=
  match registry.leaseOf token with
  | some lease => .ok lease
  | none => .error (.missingLease token)

def activeLeases (registry : RoleRegistry) (role : PyStr) : Except RoleFault (List RoleLease) := do
  let _ ← stateOf registry role
  match OrderedDict.get registry.roleLeases role with
  | some tokens => tokens.mapM (leaseAt registry)
  | none => .error (.missingRole role)

def activeProviders (registry : RoleRegistry) (role : PyStr) : Except RoleFault (List PyStr) := do
  let leases ← activeLeases registry role
  pure (leases.map RoleLease.provider).eraseDups

def activeProvider (registry : RoleRegistry) (role : PyStr) :
    Except RoleFault (Option PyStr) := do
  let providers ← activeProviders registry role
  pure providers.head?

/-- The registries that calls make of a registry built for a component set and a profile. -/
inductive Reachable : RoleRegistry → Prop
  | built {py : Interpreter} {components : RoleComponents} {profile : Dict}
      {registry : RoleRegistry} (h : fromProfile py components profile = .ok registry) :
      Reachable registry
  | called {registry : RoleRegistry} (h : Reachable registry) (call : RoleCall) :
      Reachable (perform call registry).registry

theorem Reachable.inStep {registry : RoleRegistry} (h : Reachable registry) : registry.InStep := by
  induction h with
  | built hbuilt =>
    obtain ⟨roles, rfl, hnames⟩ := fromProfile_eq_ok hbuilt
    exact RoleRegistry.inStep_ofRoles hnames
  | called _ call ih => exact (perform_effect ih call).inStep ih

end RoleMethods

namespace RoleSwitch

open RoleMethods

/-- What the switch writes: the registry, and `role_preference_overrides`. -/
structure Selection where
  registry : RoleRegistry
  overrides : List (PyStr × PyStr)

inductive SwitchFault
  | role (fault : RoleFault)
  /-- role default changed during reset -/
  | defaultChanged
  | unknownMode (mode : PyStr)
  /-- role catalog changed repeatedly while switching the role -/
  | catalogChanged (role : PyStr)
  /-- raised outside of what is modelled here: the file system, or `ensure_ready` -/
  | surroundings (text : PyStr)
  deriving DecidableEq

abbrev Switching := EStateM SwitchFault Selection

def call {α : Type} (method : RoleRegistry → RoleOutcome α) : Switching α := fun s =>
  match method s.registry with
  | .returned value registry => .ok value { s with registry := registry }
  | .raised fault registry => .error (.role fault) { s with registry := registry }

def read {α : Type} (method : RoleRegistry → Except RoleFault α) : Switching α := fun s =>
  match method s.registry with
  | .ok value => .ok value s
  | .error fault => .error (.role fault) s

def setOverride (role provider : PyStr) (s : Selection) : Selection :=
  { s with overrides := OrderedDict.set s.overrides role provider }

def popOverride (role : PyStr) (s : Selection) : Selection :=
  { s with overrides := OrderedDict.pop s.overrides role }

/-- What the surroundings answer. -/
structure Surroundings where
  /-- what `_persist_role_preferences` raises for these overrides -/
  persist : List (PyStr × PyStr) → Option PyStr
  /-- what `_role_summary` raises -/
  summary : RoleRegistry → Option PyStr

def persist (env : Surroundings) : Switching Unit := fun s =>
  match env.persist s.overrides with
  | none => .ok () s
  | some text => .error (.surroundings text) s

/-- What a switch returns: the fields of `_role_summary` that the registry decides, and the old
provider when it holds no role any more. -/
structure Switched where
  preferred : Option PyStr
  active : Option PyStr
  activeProviders : List PyStr
  retired : Option PyStr
  deriving DecidableEq

def summary (env : Surroundings) (role : PyStr) (retired : Option PyStr) : Switching Switched := do
  let preferred ← read fun registry => preferredProvider registry role
  let active ← read fun registry => activeProvider registry role
  let providers ← read fun registry => RoleMethods.activeProviders registry role
  match env.summary (← get).registry with
  | none => return ⟨preferred, active, providers, retired⟩
  | some text => throw (.surroundings text)

/-- `still_active`: the old provider is active for one of the roles. -/
def stillActive (oldActive : PyStr) : List PyStr → Switching Bool
  | [] => pure false
  | name :: names => do
    let providers ← read fun registry => RoleMethods.activeProviders registry name
    if oldActive ∈ providers then pure true else stillActive oldActive names

def retired (provider : PyStr) : Option PyStr → Switching (Option PyStr)
  | none => pure none
  | some oldActive => do
    let still ← stillActive oldActive (← get).registry.listRoles
    return if oldActive ≠ provider ∧ ¬ still then some oldActive else none

def setPreference (role provider mode : PyStr) : Switching Unit :=
  if mode = lit "select" then do
    let _ ← call (selectPreferred role provider)
    modify (setOverride role provider)
  else if mode = lit "reset" then do
    let candidates ← read fun registry => candidateIds registry role
    if candidates.head? = some provider then do
      let _ ← call (resetPreferred role)
      modify (popOverride role)
    else throw .defaultChanged
  else throw (.unknownMode mode)

/-- `for lease in registry.active_leases(role): registry.release(lease)` -/
def releaseActive (role : PyStr) : Switching Unit := do
  let leases ← read fun registry => activeLeases registry role
  call (releaseAll leases)

def moveLease (role provider holder : PyStr) (oldActive : Option PyStr) : Switching Unit :=
  if oldActive = some provider then pure ()
  else do
    releaseActive role
    let _ ← call (acquire role (some provider) (some holder))

/-- The `try` block of the commit section. -/
def commit (env : Surroundings) (role provider mode holder : PyStr) (oldActive : Option PyStr) :
    Switching Switched := do
  setPreference role provider mode
  moveLease role provider holder oldActive
  persist env
  let retired ← retired provider oldActive
  summary env role retired

/-- What the section has read before it changes anything. -/
structure Before where
  leases : List RoleLease
  active : Option PyStr
  preferred : Option PyStr
  override : Option PyStr

def restorePreferred (role : PyStr) : Option PyStr → Switching Unit
  | none => pure ()
  | some preferred => do
    let _ ← call (selectPreferred role preferred)

def restoreOverride (role : PyStr) (override : Option PyStr) (s : Selection) : Selection :=
  match override with
  | some provider => setOverride role provider s
  | none => popOverride role s

def reacquire (role : PyStr) : List RoleLease → Switching Unit
  | [] => pure ()
  | lease :: leases => do
    if ← read fun registry => isCandidate registry role lease.provider then
      let _ ← call (acquire role (some lease.provider) lease.holder)
    reacquire role leases

/-- The `except` block. -/
def undo (role : PyStr) (before : Before) : Switching Unit := do
  restorePreferred role before.preferred
  modify (restoreOverride role before.override)
  releaseActive role
  reacquire role before.leases

/-- Nothing to do: the provider is active and preferred, and the override is as asked for. -/
def Unchanged (provider mode : PyStr) (before : Before) : Prop :=
  before.active = some provider ∧ before.preferred = some provider ∧
    (mode = lit "select" ∧ before.override = some provider ∨
      mode = lit "reset" ∧ before.override = none)

instance (provider mode : PyStr) (before : Before) : Decidable (Unchanged provider mode before) :=
  inferInstanceAs (Decidable (_ ∧ _ ∧ (_ ∧ _ ∨ _ ∧ _)))

def readBefore (role : PyStr) : Switching Before := do
  let leases ← read fun registry => activeLeases registry role
  let active ← read fun registry => activeProvider registry role
  let preferred ← read fun registry => preferredProvider registry role
  return ⟨leases, active, preferred, OrderedDict.get (← get).overrides role⟩

/-- The commit section: what runs under the catalog lock once the provider is ready. -/
def commitSection (env : Surroundings) (role provider mode : PyStr) (inst : Instance) :
    Switching Switched := do
  let _ ← read fun registry => getCandidate registry role provider
  let before ← readBefore role
  if Unchanged provider mode before then summary env role none
  else
    tryCatch (commit env role provider mode (Supervisor.holderText inst) before.active)
      fun fault => do
        undo role before
        throw fault

/-- What `ensure_ready` returns, and the checks of the section against the catalog. -/
structure Activation where
  inst : Instance
  /-- epoch and registry are those of before the wait -/
  sameCatalog : Bool
  /-- the component is the one in the catalog, and the instance is ready -/
  usable : Bool

/-- The attempts of `_switch_role`. `ensureReady` is the wait for the provider, with whatever other
tasks do meanwhile. -/
def switchRole (env : Surroundings) (ensureReady : ℕ → Switching Activation)
    (role provider mode : PyStr) : ℕ → Switching Switched
  | 0 => throw (.catalogChanged role)
  | attempts + 1 => do
    let _ ← read fun registry => getCandidate registry role provider
    let activation ← ensureReady attempts
    if activation.sameCatalog && activation.usable then
      commitSection env role provider mode activation.inst
    else switchRole env ensureReady role provider mode attempts

end RoleSwitch

/-! ## Reads of a registry whose indexes agree -/

namespace RoleMethods

open RoleRegistry

variable {registry r : RoleRegistry} {role provider : PyStr}

theorem stateOf_of_mem (h : role ∈ registry.roles.map Prod.fst) :
    ∃ state, OrderedDict.get registry.roles role = some state ∧
      stateOf registry role = .ok state := by
  obtain ⟨state, hstate⟩ := OrderedDict.exists_get_of_mem_keys h
  exact ⟨state, hstate, by rw [stateOf, hstate]⟩

theorem stateOf_of_not_mem (h : role ∉ registry.roles.map Prod.fst) :
    stateOf registry role = .error (.unknownRole role) := by
  rw [stateOf, OrderedDict.get_eq_none_iff.mpr h]

theorem leaseAt_of_mem (h : InStep registry) {lease : RoleLease}
    (hlease : lease ∈ registry.leases) : leaseAt registry lease.token = .ok lease := by
  unfold leaseAt leaseOf
  cases hfind : registry.leases.find? fun other => other.token = lease.token with
  | none =>
    have habsent := List.find?_eq_none.mp hfind lease hlease
    simp at habsent
  | some found =>
    have htoken : found.token = lease.token := by simpa using List.find?_some hfind
    rw [h.eq_of_token (List.mem_of_find?_eq_some hfind) hlease htoken]

theorem mapM_leaseAt (h : InStep registry) (leases : List RoleLease) :
    leases ⊆ registry.leases →
      (leases.map RoleLease.token).mapM (leaseAt registry) = .ok leases := by
  induction leases with
  | nil =>
    intro _
    rfl
  | cons lease leases ih =>
    intro hsubset
    obtain ⟨hlease, hrest⟩ := List.cons_subset.mp hsubset
    rw [List.map_cons, List.mapM_cons, leaseAt_of_mem h hlease, ih hrest]
    rfl

/-- The active leases of a role are those of the lease table. -/
theorem activeLeases_eq (h : InStep registry) (hrole : role ∈ registry.roles.map Prod.fst) :
    activeLeases registry role = .ok (registry.leasesOf role) := by
  obtain ⟨state, -, hstate⟩ := stateOf_of_mem hrole
  unfold activeLeases
  rw [hstate, h.indexed role hrole]
  exact mapM_leaseAt h _ (List.filter_subset_self _)

theorem activeLeases_of_not_mem (hrole : role ∉ registry.roles.map Prod.fst) :
    activeLeases registry role = .error (.unknownRole role) := by
  unfold activeLeases
  rw [stateOf_of_not_mem hrole]
  rfl

theorem activeProviders_eq (h : InStep registry) (hrole : role ∈ registry.roles.map Prod.fst) :
    activeProviders registry role =
      .ok ((registry.leasesOf role).map RoleLease.provider).eraseDups := by
  rw [activeProviders, activeLeases_eq h hrole]
  rfl

theorem activeProvider_eq (h : InStep registry) (hrole : role ∈ registry.roles.map Prod.fst) :
    activeProvider registry role =
      .ok ((registry.leasesOf role).map RoleLease.provider).eraseDups.head? := by
  rw [activeProvider, activeProviders_eq h hrole]
  rfl

theorem getCandidate_of_candidate (h : registry.Candidate role provider) :
    getCandidate registry role provider = .ok provider := by
  rcases getCandidate_cases registry role provider with ⟨-, hget⟩ | ⟨fault, hfault⟩
  · exact hget
  · obtain ⟨state, hstate, hmem⟩ := h
    unfold getCandidate stateOf at hfault
    have hfind : (state.candidates.find? fun candidate => candidate = provider).isSome := by
      rw [List.find?_isSome]
      exact ⟨provider, hmem, decide_eq_true rfl⟩
    obtain ⟨found, hfound⟩ := Option.isSome_iff_exists.mp hfind
    simp [hstate, bind, Except.bind, hfound, pure, Except.pure] at hfault

theorem candidate_of_getCandidate {found : PyStr}
    (h : getCandidate registry role provider = .ok found) : registry.Candidate role provider := by
  rcases getCandidate_cases registry role provider with ⟨hcandidate, -⟩ | ⟨fault, hfault⟩
  · exact hcandidate
  · rw [hfault] at h
    cases h

theorem isCandidate_of_candidate (h : registry.Candidate role provider) :
    isCandidate registry role provider = .ok true := by
  obtain ⟨state, hstate, hmem⟩ := h
  unfold isCandidate candidateIds stateOf
  simp [hstate, bind, Except.bind, pure, Except.pure, hmem]

/-- What is preferred is a candidate, chosen or the first one. -/
theorem candidate_of_preferredProvider (h : InStep registry)
    (hpreferred : preferredProvider registry role = .ok (some provider)) :
    registry.Candidate role provider := by
  unfold preferredProvider stateOf at hpreferred
  cases hstate : OrderedDict.get registry.roles role with
  | none => simp [hstate, bind, Except.bind] at hpreferred
  | some state =>
    cases hchosen : OrderedDict.get registry.preferred role with
    | some chosen =>
      simp only [hstate, hchosen, bind, Except.bind, pure, Except.pure] at hpreferred
      cases hpreferred
      exact h.preferences role provider hchosen
    | none =>
      simp only [hstate, hchosen, bind, Except.bind, pure, Except.pure, Except.ok.injEq]
        at hpreferred
      exact ⟨state, hstate, List.mem_of_mem_head? hpreferred⟩

theorem preferredProvider_of_get (hrole : role ∈ registry.roles.map Prod.fst)
    (h : OrderedDict.get registry.preferred role = some provider) :
    preferredProvider registry role = .ok (some provider) := by
  obtain ⟨state, -, hstate⟩ := stateOf_of_mem hrole
  unfold preferredProvider
  rw [hstate, h]
  rfl

theorem acquire_some (h : InStep registry) {holder : Option PyStr}
    (hr : registry.acquire role provider holder = .ok r) :
    acquire role (some provider) holder registry =
      .returned ⟨registry.nextLeaseToken, role, provider, holder⟩ r := by
  obtain ⟨hcandidate, hfree, rfl⟩ := acquire_eq_ok.mp hr
  obtain ⟨state, hget, hstate⟩ := stateOf_of_mem hcandidate.mem_names
  have htokens := h.tokens_eq hcandidate.mem_names
  have hnew : ∀ other ∈ registry.leases, other.token ≠ registry.nextLeaseToken :=
    fun other hother => Nat.ne_of_lt (h.issued other hother)
  unfold acquire chosenCandidate
  simp only [hstate, getCandidate_of_candidate hcandidate, h.indexed role hcandidate.mem_names]
  split
  · rename_i token rest hexclusive hleases
    rw [hfree state hget hexclusive, hleases] at htokens
    cases htokens
  · rw [setLease_eq_append hnew, htokens]

/-! ## Operations that touch one role -/

/-- The registries differ in the preference and the leases of one role at most. -/
structure OnlyRole (role : PyStr) (before after : RoleRegistry) : Prop where
  roles : after.roles = before.roles
  leases : ∀ other, other ≠ role → after.leasesOf other = before.leasesOf other
  preferred : ∀ other, other ≠ role →
    OrderedDict.get after.preferred other = OrderedDict.get before.preferred other

theorem OnlyRole.refl (role : PyStr) (registry : RoleRegistry) : OnlyRole role registry registry :=
  ⟨rfl, fun _ _ => rfl, fun _ _ => rfl⟩

theorem OnlyRole.trans {a b c : RoleRegistry} (h : OnlyRole role a b) (h' : OnlyRole role b c) :
    OnlyRole role a c where
  roles := h'.roles.trans h.roles
  leases := fun other hother => (h'.leases other hother).trans (h.leases other hother)
  preferred := fun other hother => (h'.preferred other hother).trans (h.preferred other hother)

theorem onlyRole_selectPreferred (hr : registry.selectPreferred role provider = .ok r) :
    OnlyRole role registry r := by
  obtain ⟨-, rfl⟩ := selectPreferred_eq_ok.mp hr
  exact ⟨rfl, fun _ _ => rfl, fun other hother => OrderedDict.get_set_ne hother _ _⟩

theorem onlyRole_resetPreferred (hr : registry.resetPreferred role = .ok r) :
    OnlyRole role registry r := by
  obtain ⟨-, rfl⟩ := resetPreferred_eq_ok.mp hr
  exact ⟨rfl, fun _ _ => rfl, fun other hother => OrderedDict.get_pop_ne hother _⟩

theorem leasesOf_acquire {holder : Option PyStr}
    (hr : registry.acquire role provider holder = .ok r) :
    r.leasesOf role =
      registry.leasesOf role ++ [⟨registry.nextLeaseToken, role, provider, holder⟩] := by
  rw [leasesOf, acquire_leases hr, List.filter_append]
  simp [leasesOf]

theorem onlyRole_acquire {holder : Option PyStr}
    (hr : registry.acquire role provider holder = .ok r) : OnlyRole role registry r := by
  have hleases := acquire_leases hr
  obtain ⟨-, -, rfl⟩ := acquire_eq_ok.mp hr
  refine ⟨rfl, ?_, fun _ _ => rfl⟩
  intro other hother
  rw [leasesOf, hleases, List.filter_append]
  simp [leasesOf, Ne.symm hother]

theorem foldl_drop_roles (leases : List RoleLease) : ∀ registry : RoleRegistry,
    (leases.foldl drop registry).roles = registry.roles ∧
      (leases.foldl drop registry).preferred = registry.preferred := by
  induction leases with
  | nil => exact fun _ => ⟨rfl, rfl⟩
  | cons lease leases ih => exact fun registry => ih (registry.drop lease)

/-- Releasing what a role has active leaves it without a lease, and the others with theirs. -/
theorem releaseAll_leasesOf (h : InStep registry) (role : PyStr) :
    ∃ r, releaseAll (registry.leasesOf role) registry = .returned () r ∧ InStep r ∧
      r.leasesOf role = [] ∧ OnlyRole role registry r ∧ r.preferred = registry.preferred := by
  have hnodup : (registry.leasesOf role).Nodup :=
    h.tokens_nodup.of_map.sublist List.filter_sublist
  obtain ⟨hall, hstep, hleases⟩ := releaseAll_eq _ h hnodup (List.filter_subset_self _)
  obtain ⟨hroles, hpreferred⟩ := foldl_drop_roles (registry.leasesOf role) registry
  refine ⟨_, hall, hstep, ?_, ⟨hroles, ?_, ?_⟩, hpreferred⟩
  · rw [leasesOf, hleases, List.filter_filter, List.filter_eq_nil_iff]
    intro lease hlease
    simp [leasesOf, hlease]
  · intro other hother
    rw [leasesOf, hleases, List.filter_filter]
    apply List.filter_congr
    intro lease _
    by_cases hrole : lease.role = other <;> simp [leasesOf, hrole, hother]
  · intro other _
    rw [hpreferred]

end RoleMethods

namespace RoleSwitch

open RoleMethods Attempts

variable {role provider mode holder : PyStr} {before : Before} {s t : Selection}

/-! ## What the statements of the section keep -/

/-- What the section may have changed when it raises: one role, and that role's override. -/
structure Undoable (role : PyStr) (s t : Selection) : Prop where
  inStep : t.registry.InStep
  registry : OnlyRole role s.registry t.registry
  overrides : ∀ other, other ≠ role →
    OrderedDict.get t.overrides other = OrderedDict.get s.overrides other

theorem Undoable.refl (role : PyStr) (h : s.registry.InStep) : Undoable role s s :=
  ⟨h, OnlyRole.refl role s.registry, fun _ _ => rfl⟩

theorem Undoable.setOverride (h : Undoable role s t) (provider : PyStr) :
    Undoable role s (setOverride role provider t) where
  inStep := h.inStep
  registry := h.registry
  overrides := fun other hother =>
    (OrderedDict.get_set_ne hother _ _).trans (h.overrides other hother)

theorem Undoable.popOverride (h : Undoable role s t) : Undoable role s (popOverride role t) where
  inStep := h.inStep
  registry := h.registry
  overrides := fun other hother =>
    (OrderedDict.get_pop_ne hother _).trans (h.overrides other hother)

theorem keeps_read {α : Type} {P : Selection → Prop} (method : RoleRegistry → Except RoleFault α) :
    Keeps P (read method) := by
  intro s hs
  simp only [EStateM.run, read]
  cases method s.registry with
  | ok value => exact hs
  | error fault => exact hs

/-- A method that touches the role only keeps what can be undone. -/
theorem keeps_call {α : Type} {method : RoleRegistry → RoleOutcome α}
    (hmethod : ∀ registry : RoleRegistry, registry.InStep →
      (method registry).registry.InStep ∧ OnlyRole role registry (method registry).registry) :
    Keeps (Undoable role s) (call method) := by
  intro t ht
  obtain ⟨hstep, honly⟩ := hmethod t.registry ht.inStep
  have hafter : Undoable role s { t with registry := (method t.registry).registry } :=
    ⟨hstep, ht.registry.trans honly, ht.overrides⟩
  simp only [EStateM.run, call]
  cases houtcome : method t.registry with
  | returned value registry =>
    rw [houtcome] at hafter
    exact hafter
  | raised fault registry =>
    rw [houtcome] at hafter
    exact hafter

theorem keeps_selectPreferred (provider : PyStr) :
    Keeps (Undoable role s) (call (selectPreferred role provider)) := by
  apply keeps_call
  intro registry h
  rcases selectPreferred_cases registry role provider with ⟨r, hr, heq⟩ | ⟨fault, heq⟩
  · rw [heq]
    exact ⟨h.selectPreferred hr, onlyRole_selectPreferred hr⟩
  · rw [heq]
    exact ⟨h, OnlyRole.refl role registry⟩

theorem keeps_resetPreferred : Keeps (Undoable role s) (call (resetPreferred role)) := by
  apply keeps_call
  intro registry h
  rcases resetPreferred_cases registry role with ⟨preferred, r, hr, heq⟩ | ⟨fault, heq⟩
  · rw [heq]
    exact ⟨h.resetPreferred hr, onlyRole_resetPreferred hr⟩
  · rw [heq]
    exact ⟨h, OnlyRole.refl role registry⟩

theorem keeps_acquire (provider holder : Option PyStr) :
    Keeps (Undoable role s) (call (acquire role provider holder)) := by
  apply keeps_call
  intro registry h
  rcases acquire_cases h role provider holder with ⟨candidate, r, hr, heq⟩ | ⟨fault, heq⟩
  · rw [heq]
    exact ⟨h.acquire hr, onlyRole_acquire hr⟩
  · rw [heq]
    exact ⟨h, OnlyRole.refl role registry⟩

/-- On a known role the release of what is active returns. -/
theorem run_releaseActive (h : t.registry.InStep) (hrole : role ∈ t.registry.roles.map Prod.fst) :
    ∃ r, (releaseActive role).run t = .ok () { t with registry := r } ∧ r.InStep ∧
      r.leasesOf role = [] ∧ OnlyRole role t.registry r ∧ r.preferred = t.registry.preferred := by
  obtain ⟨r, hall, hstep, hnone, honly, hpreferred⟩ := releaseAll_leasesOf h role
  refine ⟨r, ?_, hstep, hnone, honly, hpreferred⟩
  have hread : (read fun registry => activeLeases registry role).run t =
      .ok (t.registry.leasesOf role) t := by
    simp only [EStateM.run, read, activeLeases_eq h hrole]
  rw [releaseActive, run_bind_of_ok hread]
  simp only [EStateM.run, call, hall]

theorem keeps_releaseActive : Keeps (Undoable role s) (releaseActive role) := by
  intro t ht
  by_cases hrole : role ∈ t.registry.roles.map Prod.fst
  · obtain ⟨r, hrun, hstep, -, honly, -⟩ := run_releaseActive ht.inStep hrole
    rw [hrun]
    exact ⟨hstep, ht.registry.trans honly, ht.overrides⟩
  · have hread : (read fun registry => activeLeases registry role).run t =
        .error (.role (.unknownRole role)) t := by
      simp only [EStateM.run, read, activeLeases_of_not_mem hrole]
    rw [releaseActive, run_bind_of_error hread]
    exact ht

theorem keeps_reacquire (leases : List RoleLease) :
    Keeps (Undoable role s) (reacquire role leases) := by
  induction leases with
  | nil => exact keeps_pure ()
  | cons lease leases ih =>
    refine (keeps_read _).bind fun candidate => ?_
    cases candidate with
    | false => exact ih
    | true => exact (keeps_acquire _ _).bind fun _ => ih

theorem keeps_setPreference (provider mode : PyStr) :
    Keeps (Undoable role s) (setPreference role provider mode) := by
  unfold setPreference
  split_ifs
  · refine (keeps_selectPreferred provider).bind fun _ => ?_
    exact keeps_modify fun _ h => h.setOverride provider
  · refine (keeps_read _).bind fun candidates => ?_
    split_ifs
    · exact keeps_resetPreferred.bind fun _ => keeps_modify fun _ h => h.popOverride
    · exact keeps_throw _
  · exact keeps_throw _

theorem keeps_moveLease (provider holder : PyStr) (oldActive : Option PyStr) :
    Keeps (Undoable role s) (moveLease role provider holder oldActive) := by
  unfold moveLease
  split_ifs
  · exact keeps_pure ()
  · refine keeps_releaseActive.bind fun _ => ?_
    exact (keeps_acquire _ _).bind fun _ => keeps_pure ()

theorem keeps_persist {P : Selection → Prop} (env : Surroundings) : Keeps P (persist env) := by
  intro s hs
  simp only [EStateM.run, persist]
  cases env.persist s.overrides with
  | none => exact hs
  | some text => exact hs

theorem keeps_get {P : Selection → Prop} : Keeps P (get : Switching Selection) := fun _ h => h

theorem keeps_stillActive {P : Selection → Prop} (oldActive : PyStr) (names : List PyStr) :
    Keeps P (stillActive oldActive names) := by
  induction names with
  | nil => exact keeps_pure false
  | cons name names ih =>
    refine (keeps_read _).bind fun providers => ?_
    split_ifs
    · exact keeps_pure true
    · exact ih

theorem keeps_retired {P : Selection → Prop} (provider : PyStr) (oldActive : Option PyStr) :
    Keeps P (retired provider oldActive) := by
  cases oldActive with
  | none => exact keeps_pure none
  | some oldActive =>
    exact keeps_get.bind fun _ => (keeps_stillActive _ _).bind fun _ => keeps_pure _

theorem keeps_summary {P : Selection → Prop} (env : Surroundings) (role : PyStr)
    (retired : Option PyStr) : Keeps P (summary env role retired) := by
  refine (keeps_read _).bind fun preferred => (keeps_read _).bind fun active => ?_
  refine (keeps_read _).bind fun providers => keeps_get.bind fun s => ?_
  cases env.summary s.registry with
  | none => exact keeps_pure _
  | some text => exact keeps_throw _

/-- Wherever the block stops, one role and its override have changed at most. -/
theorem keeps_commit (env : Surroundings) (provider mode holder : PyStr)
    (oldActive : Option PyStr) :
    Keeps (Undoable role s) (commit env role provider mode holder oldActive) := by
  refine (keeps_setPreference provider mode).bind fun _ => ?_
  refine (keeps_moveLease provider holder oldActive).bind fun _ => ?_
  refine (keeps_persist env).bind fun _ => (keeps_retired provider oldActive).bind fun _ => ?_
  exact keeps_summary env role _

/-! ## The section that raises -/

/-- The role, its override and the leases of the other roles are as they were. -/
structure Restored (role : PyStr) (s t : Selection) : Prop where
  active : activeProviders t.registry role = activeProviders s.registry role
  preferred : preferredProvider t.registry role = preferredProvider s.registry role
  overrides : ∀ name, OrderedDict.get t.overrides name = OrderedDict.get s.overrides name
  others : ∀ other, other ≠ role →
    activeLeases t.registry other = activeLeases s.registry other

theorem Restored.refl (role : PyStr) (s : Selection) : Restored role s s :=
  ⟨rfl, rfl, fun _ => rfl, fun _ _ => rfl⟩

theorem Undoable.names (h : Undoable role s t) :
    t.registry.roles.map Prod.fst = s.registry.roles.map Prod.fst := by
  rw [h.registry.roles]

theorem Undoable.activeLeases (h : Undoable role s t) (hs : s.registry.InStep) {other : PyStr}
    (hother : other ≠ role) :
    activeLeases t.registry other = activeLeases s.registry other := by
  by_cases hname : other ∈ s.registry.roles.map Prod.fst
  · have hname' : other ∈ t.registry.roles.map Prod.fst := by rwa [h.names]
    rw [activeLeases_eq hs hname, activeLeases_eq h.inStep hname', h.registry.leases other hother]
  · have hname' : other ∉ t.registry.roles.map Prod.fst := by rwa [h.names]
    rw [activeLeases_of_not_mem hname, activeLeases_of_not_mem hname']

theorem candidate_congr {a b : RoleRegistry} (h : a.roles = b.roles) {provider : PyStr} :
    a.Candidate role provider ↔ b.Candidate role provider := by
  unfold RoleRegistry.Candidate
  rw [h]

/-- What a role leased is leased again, in its order and under new tokens. -/
theorem run_reacquire (leases : List RoleLease) : ∀ {t : Selection}, t.registry.InStep →
    (∀ lease ∈ leases, t.registry.Candidate role lease.provider) →
    (∀ state, OrderedDict.get t.registry.roles role = some state → state.exclusive = true →
      (t.registry.leasesOf role).length + leases.length ≤ 1) →
    ∃ r, (reacquire role leases).run t = .ok () { t with registry := r } ∧ r.InStep ∧
      OnlyRole role t.registry r ∧ r.preferred = t.registry.preferred ∧
      (r.leasesOf role).map RoleLease.provider =
        (t.registry.leasesOf role).map RoleLease.provider ++ leases.map RoleLease.provider := by
  induction leases with
  | nil =>
    intro t h _ _
    exact ⟨t.registry, rfl, h, OnlyRole.refl role t.registry, rfl, by simp⟩
  | cons lease leases ih =>
    intro t h hcandidates hroom
    have hcandidate := hcandidates lease List.mem_cons_self
    have hfree : t.registry.Free role := by
      intro state hstate hexclusive
      have hlength := hroom state hstate hexclusive
      rw [List.length_cons] at hlength
      have hnone : t.registry.leasesOf role = [] := List.eq_nil_of_length_eq_zero (by omega)
      rw [h.tokens_eq hcandidate.mem_names, hnone]
      rfl
    obtain ⟨first, hacquire⟩ : ∃ r, t.registry.acquire role lease.provider lease.holder = .ok r :=
      ⟨_, RoleRegistry.acquire_eq_ok.mpr ⟨hcandidate, hfree, rfl⟩⟩
    have honly := onlyRole_acquire hacquire
    have hleased := leasesOf_acquire hacquire
    have hpreferred : first.preferred = t.registry.preferred := by
      obtain ⟨-, -, rfl⟩ := RoleRegistry.acquire_eq_ok.mp hacquire
      rfl
    have hcandidates' : ∀ other ∈ leases, first.Candidate role other.provider := by
      intro other hother
      exact (candidate_congr honly.roles).mpr (hcandidates other (List.mem_cons_of_mem _ hother))
    have hroom' : ∀ state, OrderedDict.get first.roles role = some state →
        state.exclusive = true → (first.leasesOf role).length + leases.length ≤ 1 := by
      intro state hstate hexclusive
      rw [honly.roles] at hstate
      have hlength := hroom state hstate hexclusive
      rw [hleased]
      simp only [List.length_append, List.length_cons, List.length_nil] at hlength ⊢
      omega
    obtain ⟨r, hrun, hstep, honly', hpreferred', hproviders⟩ :=
      ih (t := { t with registry := first }) (h.acquire hacquire) hcandidates' hroom'
    refine ⟨r, ?_, hstep, honly.trans honly', hpreferred'.trans hpreferred, ?_⟩
    · have hread : (read fun registry => isCandidate registry role lease.provider).run t =
          .ok true t := by
        simp only [EStateM.run, read, isCandidate_of_candidate hcandidate]
      have hcall : (call (acquire role (some lease.provider) lease.holder)).run t =
          .ok ⟨t.registry.nextLeaseToken, role, lease.provider, lease.holder⟩
            { t with registry := first } := by
        simp only [EStateM.run, call, acquire_some h hacquire]
      rw [reacquire, run_bind_of_ok hread, if_pos rfl, run_bind_of_ok hcall]
      exact hrun
    · rw [hproviders, hleased]
      simp

/-- What the section read of the role before it changed it. -/
structure ReadFrom (role : PyStr) (s : Selection) (before : Before) : Prop where
  leases : before.leases = s.registry.leasesOf role
  active : before.active =
    ((s.registry.leasesOf role).map RoleLease.provider).eraseDups.head?
  preferred : preferredProvider s.registry role = .ok before.preferred
  override : before.override = OrderedDict.get s.overrides role

theorem get_restoreOverride (role other : PyStr) (override : Option PyStr) (s : Selection) :
    OrderedDict.get (restoreOverride role override s).overrides other =
      if other = role then override else OrderedDict.get s.overrides other := by
  unfold restoreOverride setOverride popOverride
  cases override with
  | none => exact OrderedDict.get_pop _ _ _
  | some provider => exact OrderedDict.get_set _ _ _ _

theorem restoreOverride_registry (role : PyStr) (override : Option PyStr) (s : Selection) :
    (restoreOverride role override s).registry = s.registry := by
  cases override <;> rfl

/-- The handler returns, and the role is as the section found it. -/
theorem run_undo (hs : s.registry.InStep) (hbefore : ReadFrom role s before) {preferred : PyStr}
    (hpreferred : before.preferred = some preferred) (h : Undoable role s t) :
    ∃ t', (undo role before).run t = .ok () t' ∧ Restored role s t' := by
  have hread : preferredProvider s.registry role = .ok (some preferred) := by
    rw [hbefore.preferred, hpreferred]
  have hcandidate := candidate_of_preferredProvider hs hread
  have hcandidate' : t.registry.Candidate role preferred :=
    (candidate_congr h.registry.roles).mpr hcandidate
  -- the preference
  obtain ⟨chosen, hselect⟩ : ∃ r, t.registry.selectPreferred role preferred = .ok r :=
    ⟨_, RoleRegistry.selectPreferred_eq_ok.mpr ⟨hcandidate', rfl⟩⟩
  have hcall : (call (selectPreferred role preferred)).run t =
      .ok preferred { t with registry := chosen } := by
    have hmethod : selectPreferred role preferred t.registry = .returned preferred chosen := by
      rcases selectPreferred_cases t.registry role preferred with ⟨r, hr, heq⟩ | ⟨fault, heq⟩
      · rw [heq, Except.ok.inj (hr.symm.trans hselect)]
      · rw [selectPreferred, getCandidate_of_candidate hcandidate'] at heq
        cases heq
    simp only [EStateM.run, call, hmethod]
  have hchosen := h.inStep.selectPreferred hselect
  have honly := h.registry.trans (onlyRole_selectPreferred hselect)
  have hget : OrderedDict.get chosen.preferred role = some preferred := by
    obtain ⟨-, rfl⟩ := RoleRegistry.selectPreferred_eq_ok.mp hselect
    exact OrderedDict.get_set_self _ _ _
  -- the override, and the leases
  let restored := restoreOverride role before.override { t with registry := chosen }
  have hregistry : restored.registry = chosen := restoreOverride_registry _ _ _
  have hrole : role ∈ restored.registry.roles.map Prod.fst := by
    rw [hregistry, honly.roles]
    exact hcandidate.mem_names
  obtain ⟨emptied, hrelease, hemptied, hnone, honly', hkept⟩ :=
    run_releaseActive (t := restored) (by rwa [hregistry]) hrole
  rw [hregistry] at honly' hkept
  have honly := honly.trans honly'
  have hleased : ∀ lease ∈ before.leases, emptied.Candidate role lease.provider := by
    intro lease hlease
    rw [hbefore.leases] at hlease
    obtain ⟨hmem, hname⟩ := List.mem_filter.mp hlease
    have hlease := hs.leased lease hmem
    rw [of_decide_eq_true hname] at hlease
    exact (candidate_congr honly.roles).mpr hlease
  have hroom : ∀ state, OrderedDict.get emptied.roles role = some state →
      state.exclusive = true → (emptied.leasesOf role).length + before.leases.length ≤ 1 := by
    intro state hstate hexclusive
    rw [honly.roles] at hstate
    rw [hnone, hbefore.leases, List.length_nil, Nat.zero_add]
    exact hs.exclusive role state hstate hexclusive
  obtain ⟨last, hreacquire, hlast, honly'', hkept', hproviders⟩ :=
    run_reacquire before.leases (t := { restored with registry := emptied }) hemptied hleased hroom
  have honly := honly.trans honly''
  refine ⟨{ restored with registry := last }, ?_, ?_⟩
  · rw [undo, hpreferred, restorePreferred, bind_assoc, run_bind_of_ok hcall]
    rw [pure_bind, run_bind_of_ok (EStateM.run_modify _ _), run_bind_of_ok hrelease]
    exact hreacquire
  · have hfinal : Undoable role s { restored with registry := last } := by
      refine ⟨hlast, honly, ?_⟩
      intro other hother
      have hoverride := get_restoreOverride role other before.override { t with registry := chosen }
      rw [if_neg hother] at hoverride
      exact hoverride.trans (h.overrides other hother)
    have hname : role ∈ last.roles.map Prod.fst := by
      rw [honly.roles]
      exact hcandidate.mem_names
    refine ⟨?_, ?_, ?_, fun other hother => hfinal.activeLeases hs hother⟩
    · rw [activeProviders_eq hs hcandidate.mem_names, activeProviders_eq hlast hname, hproviders,
        hnone, hbefore.leases]
      rfl
    · rw [hread]
      refine preferredProvider_of_get hname ?_
      rw [hkept', hkept]
      exact hget
    · intro name
      have hoverride := get_restoreOverride role name before.override { t with registry := chosen }
      by_cases hname : name = role
      · rw [if_pos hname] at hoverride
        rw [hname] at hoverride ⊢
        exact hoverride.trans hbefore.override
      · exact hfinal.overrides name hname

/-! ## The section that returns -/

/-- The role is as the request asked for. -/
structure Requested (role provider mode : PyStr) (t : Selection) : Prop where
  known : mode = lit "select" ∨ mode = lit "reset"
  preferred : preferredProvider t.registry role = .ok (some provider)
  active : activeProvider t.registry role = .ok (some provider)
  selected : mode = lit "select" → OrderedDict.get t.overrides role = some provider
  reset : mode = lit "reset" → OrderedDict.get t.overrides role = none
  exclusive : ∀ state, OrderedDict.get t.registry.roles role = some state →
    state.exclusive = true → ∃ lease, activeLeases t.registry role = .ok [lease]

theorem read_eq_ok {α : Type} {method : RoleRegistry → Except RoleFault α} {value : α} :
    (read method).run s = .ok value t ↔ method s.registry = .ok value ∧ t = s := by
  simp only [EStateM.run, read]
  cases method s.registry with
  | error fault => simp
  | ok found => simp [eq_comm]

theorem call_eq_ok {α : Type} {method : RoleRegistry → RoleOutcome α} {value : α} :
    (call method).run s = .ok value t ↔
      method s.registry = .returned value t.registry ∧ t.overrides = s.overrides := by
  simp only [EStateM.run, call]
  cases method s.registry with
  | raised fault registry => simp
  | returned found registry =>
    constructor
    · intro h
      cases h
      exact ⟨rfl, rfl⟩
    · rintro ⟨h, hoverrides⟩
      cases t
      cases h
      cases hoverrides
      rfl

/-- A computation that writes nothing ends where it began. -/
theorem eq_of_keeps {α : Type} {m : Switching α} {value : α} (hm : Keeps (· = s) m)
    (hrun : m.run s = .ok value t) : t = s := by
  have hfinal := hm s rfl
  rw [hrun] at hfinal
  exact hfinal

/-- What the first statements leave when they return. -/
structure Preferred (role provider mode : PyStr) (s t : Selection) : Prop where
  inStep : t.registry.InStep
  known : mode = lit "select" ∨ mode = lit "reset"
  preferred : preferredProvider t.registry role = .ok (some provider)
  selected : mode = lit "select" → OrderedDict.get t.overrides role = some provider
  reset : mode = lit "reset" → OrderedDict.get t.overrides role = none
  leases : t.registry.leases = s.registry.leases
  roles : t.registry.roles = s.registry.roles

theorem select_ne_reset : lit "select" ≠ lit "reset" := by decide

theorem preferred_of_setPreference (h : s.registry.InStep) {u : Unit}
    (hrun : (setPreference role provider mode).run s = .ok u t) :
    Preferred role provider mode s t := by
  unfold setPreference at hrun
  split_ifs at hrun with hselect hreset
  · obtain ⟨found, s', hcall, hmodify⟩ := run_bind_eq_ok.mp hrun
    obtain ⟨hmethod, -⟩ := call_eq_ok.mp hcall
    cases hmodify
    rcases selectPreferred_cases s.registry role provider with ⟨r, hr, heq⟩ | ⟨fault, heq⟩
    · rw [heq] at hmethod
      have hregistry : r = s'.registry := by
        cases hmethod
        rfl
      subst hregistry
      obtain ⟨hcandidate, hset⟩ := RoleRegistry.selectPreferred_eq_ok.mp hr
      have hroles := (onlyRole_selectPreferred hr).roles
      have hname : role ∈ s'.registry.roles.map Prod.fst := by
        rw [hroles]
        exact hcandidate.mem_names
      have hget : OrderedDict.get s'.registry.preferred role = some provider := by
        rw [hset]
        exact OrderedDict.get_set_self _ _ _
      exact
        { inStep := h.selectPreferred hr
          known := .inl hselect
          preferred := preferredProvider_of_get hname hget
          selected := fun _ => OrderedDict.get_set_self _ _ _
          reset := fun hreset => (select_ne_reset (hselect.symm.trans hreset)).elim
          leases := RoleRegistry.selectPreferred_leases hr
          roles := hroles }
    · rw [heq] at hmethod
      cases hmethod
  · obtain ⟨candidates, s₁, hread, hwrite⟩ := run_bind_eq_ok.mp hrun
    obtain ⟨hcandidates, rfl⟩ := read_eq_ok.mp hread
    split_ifs at hwrite with hdefault
    · obtain ⟨found, s', hcall, hmodify⟩ := run_bind_eq_ok.mp hwrite
      obtain ⟨hmethod, -⟩ := call_eq_ok.mp hcall
      cases hmodify
      rcases resetPreferred_cases s₁.registry role with ⟨preferred, r, hr, heq⟩ | ⟨fault, heq⟩
      · rw [heq] at hmethod
        have hregistry : r = s'.registry := by
          cases hmethod
          rfl
        subst hregistry
        obtain ⟨hname, hpop⟩ := RoleRegistry.resetPreferred_eq_ok.mp hr
        have hroles := (onlyRole_resetPreferred hr).roles
        have hget : OrderedDict.get s'.registry.preferred role = none := by
          rw [hpop]
          exact OrderedDict.get_pop_self _ _
        have hpreferred : preferredProvider s'.registry role = .ok (some provider) := by
          unfold candidateIds stateOf at hcandidates
          unfold preferredProvider stateOf
          rw [hroles, hget]
          cases hstate : OrderedDict.get s₁.registry.roles role with
          | none => simp [hstate, bind, Except.bind] at hcandidates
          | some state =>
            simp only [hstate, bind, Except.bind, pure, Except.pure, Except.ok.injEq]
              at hcandidates ⊢
            rw [hcandidates]
            exact hdefault
        exact
          { inStep := h.resetPreferred hr
            known := .inr hreset
            preferred := hpreferred
            selected := fun hselect' => (hselect hselect').elim
            reset := fun _ => OrderedDict.get_pop_self _ _
            leases := RoleRegistry.resetPreferred_leases hr
            roles := hroles }
      · rw [heq] at hmethod
        cases hmethod
    · cases hwrite
  · cases hrun

/-- What the block leaves of the leases when it returns. -/
theorem leased_of_moveLease (h : t.registry.InStep) (hrole : role ∈ t.registry.roles.map Prod.fst)
    {oldActive : Option PyStr}
    (hactive : oldActive = ((t.registry.leasesOf role).map RoleLease.provider).eraseDups.head?)
    {t' : Selection} {u : Unit}
    (hrun : (moveLease role provider holder oldActive).run t = .ok u t') :
    t'.registry.InStep ∧ t'.overrides = t.overrides ∧
      t'.registry.preferred = t.registry.preferred ∧ t'.registry.roles = t.registry.roles ∧
      ((t'.registry.leasesOf role).map RoleLease.provider).eraseDups.head? = some provider := by
  unfold moveLease at hrun
  split_ifs at hrun with hsame
  · cases hrun
    exact ⟨h, rfl, rfl, rfl, hactive.symm.trans hsame⟩
  · obtain ⟨r, hrelease, hstep, hnone, honly, hpreferred⟩ := run_releaseActive h hrole
    rw [run_bind_of_ok hrelease] at hrun
    obtain ⟨lease, t₁, hcall, hdone⟩ := run_bind_eq_ok.mp hrun
    cases hdone
    obtain ⟨hmethod, hoverrides⟩ := call_eq_ok.mp hcall
    have hmethod : acquire role (some provider) (some holder) r = .returned lease t'.registry :=
      hmethod
    have hcandidate : r.Candidate role provider := by
      rcases getCandidate_cases r role provider with ⟨hcandidate, -⟩ | ⟨fault, hfault⟩
      · exact hcandidate
      · unfold acquire chosenCandidate at hmethod
        simp only [hfault] at hmethod
        cases hstate : stateOf r role <;> simp [hstate] at hmethod
    have hfree : r.Free role := by
      intro state _ _
      rw [hstep.tokens_eq hcandidate.mem_names, hnone]
      rfl
    obtain ⟨r', hacquire⟩ : ∃ r', r.acquire role provider (some holder) = .ok r' :=
      ⟨_, RoleRegistry.acquire_eq_ok.mpr ⟨hcandidate, hfree, rfl⟩⟩
    rw [acquire_some hstep hacquire] at hmethod
    have hregistry : r' = t'.registry := by
      cases hmethod
      rfl
    subst hregistry
    have hkept : t'.registry.preferred = r.preferred := by
      obtain ⟨-, -, heq⟩ := RoleRegistry.acquire_eq_ok.mp hacquire
      rw [heq]
    refine ⟨hstep.acquire hacquire, hoverrides, hkept.trans hpreferred,
      (onlyRole_acquire hacquire).roles.trans honly.roles, ?_⟩
    rw [leasesOf_acquire hacquire, hnone]
    rfl

theorem exactlyOne (h : t.registry.InStep) (hrole : role ∈ t.registry.roles.map Prod.fst)
    (hactive : ((t.registry.leasesOf role).map RoleLease.provider).eraseDups.head? = some provider)
    {state : RoleState} (hstate : OrderedDict.get t.registry.roles role = some state)
    (hexclusive : state.exclusive = true) :
    ∃ lease, activeLeases t.registry role = .ok [lease] := by
  have hlength := h.exclusive role state hstate hexclusive
  rw [activeLeases_eq h hrole]
  cases hleases : t.registry.leasesOf role with
  | nil =>
    rw [hleases] at hactive
    cases hactive
  | cons lease rest =>
    rw [hleases, List.length_cons] at hlength
    have hrest : rest = [] := List.eq_nil_of_length_eq_zero (by omega)
    exact ⟨lease, by rw [hrest]⟩

theorem requested_of_commit (h : s.registry.InStep) (hrole : role ∈ s.registry.roles.map Prod.fst)
    {oldActive : Option PyStr}
    (hactive : oldActive = ((s.registry.leasesOf role).map RoleLease.provider).eraseDups.head?)
    (env : Surroundings) {value : Switched}
    (hrun : (commit env role provider mode holder oldActive).run s = .ok value t) :
    Requested role provider mode t := by
  obtain ⟨u, s₁, hset, hrun⟩ := run_bind_eq_ok.mp hrun
  obtain ⟨u', s₂, hmove, hrun⟩ := run_bind_eq_ok.mp hrun
  have hpreferred := preferred_of_setPreference h hset
  have hrole₁ : role ∈ s₁.registry.roles.map Prod.fst := by rwa [hpreferred.roles]
  have hactive₁ : oldActive =
      ((s₁.registry.leasesOf role).map RoleLease.provider).eraseDups.head? := by
    rw [RoleRegistry.leasesOf, hpreferred.leases]
    exact hactive
  obtain ⟨hstep, hoverrides, hkept, hroles, hleased⟩ :=
    leased_of_moveLease hpreferred.inStep hrole₁ hactive₁ hmove
  have hquiet : Keeps (· = s₂) (persist env >>= fun _ => retired provider oldActive >>= fun old =>
      summary env role old) :=
    (keeps_persist env).bind fun _ => (keeps_retired provider oldActive).bind fun old =>
      keeps_summary env role old
  obtain rfl := eq_of_keeps hquiet hrun
  have hrole₂ : role ∈ t.registry.roles.map Prod.fst := by rwa [hroles]
  have hread : preferredProvider t.registry role = preferredProvider s₁.registry role := by
    unfold preferredProvider stateOf
    rw [hroles, hkept]
  exact
    { known := hpreferred.known
      preferred := hread.trans hpreferred.preferred
      active := by rw [activeProvider_eq hstep hrole₂, hleased]
      selected := fun hselect => hoverrides ▸ hpreferred.selected hselect
      reset := fun hreset => hoverrides ▸ hpreferred.reset hreset
      exclusive := fun state hstate hexclusive =>
        exactlyOne hstep hrole₂ hleased hstate hexclusive }

/-! ## The section as a whole -/

theorem keeps_readBefore {P : Selection → Prop} (role : PyStr) : Keeps P (readBefore role) := by
  refine (keeps_read _).bind fun leases => (keeps_read _).bind fun active => ?_
  exact (keeps_read _).bind fun preferred => keeps_get.bind fun _ => keeps_pure _

theorem readFrom_of_readBefore (h : s.registry.InStep)
    (hrole : role ∈ s.registry.roles.map Prod.fst)
    (hrun : (readBefore role).run s = .ok before t) : t = s ∧ ReadFrom role s before := by
  obtain ⟨leases, s₁, hfirst, hrest₁⟩ := run_bind_eq_ok.mp hrun
  obtain ⟨hleases, rfl⟩ := read_eq_ok.mp hfirst
  obtain ⟨active, s₂, hsecond, hrest₂⟩ := run_bind_eq_ok.mp hrest₁
  obtain ⟨hactive, rfl⟩ := read_eq_ok.mp hsecond
  obtain ⟨preferred, s₃, hthird, hrest₃⟩ := run_bind_eq_ok.mp hrest₂
  obtain ⟨hpreferred, rfl⟩ := read_eq_ok.mp hthird
  cases hrest₃
  rw [activeLeases_eq h hrole] at hleases
  rw [activeProvider_eq h hrole] at hactive
  cases hleases
  cases hactive
  exact ⟨rfl, rfl, rfl, hpreferred, rfl⟩

theorem requested_of_unchanged (h : s.registry.InStep)
    (hrole : role ∈ s.registry.roles.map Prod.fst) (hbefore : ReadFrom role s before)
    (hunchanged : Unchanged provider mode before) : Requested role provider mode s := by
  obtain ⟨hactive, hpreferred, hmode⟩ := hunchanged
  rw [hbefore.active] at hactive
  have hoverride := hbefore.override
  refine
    { known := hmode.imp And.left And.left
      preferred := by rw [hbefore.preferred, hpreferred]
      active := by rw [activeProvider_eq h hrole, hactive]
      selected := ?_
      reset := ?_
      exclusive := fun state hstate hexclusive => exactlyOne h hrole hactive hstate hexclusive }
  · intro hselect
    rcases hmode with ⟨-, hsome⟩ | ⟨hreset, -⟩
    · exact hoverride.symm.trans hsome
    · exact (select_ne_reset (hselect.symm.trans hreset)).elim
  · intro hreset
    rcases hmode with ⟨hselect, -⟩ | ⟨-, hnone⟩
    · exact (select_ne_reset (hselect.symm.trans hreset)).elim
    · exact hoverride.symm.trans hnone

/-- The role as asked for when the computation returned, and as it was when it raised. -/
def Atomic (role provider mode : PyStr) (s : Selection) :
    EStateM.Result SwitchFault Selection Switched → Prop
  | .ok _ t => Requested role provider mode t
  | .error _ t => Restored role s t

theorem preferred_of_candidate (hcandidate : s.registry.Candidate role provider)
    (hbefore : ReadFrom role s before) : ∃ preferred, before.preferred = some preferred := by
  obtain ⟨state, hstate, hmem⟩ := hcandidate
  have hread := hbefore.preferred
  unfold preferredProvider stateOf at hread
  simp only [hstate, bind, Except.bind] at hread
  cases hchosen : OrderedDict.get s.registry.preferred role with
  | some chosen =>
    rw [hchosen] at hread
    exact ⟨chosen, (Except.ok.inj hread).symm⟩
  | none =>
    rw [hchosen] at hread
    obtain ⟨first, rest, hcandidates⟩ := List.exists_cons_of_ne_nil (List.ne_nil_of_mem hmem)
    refine ⟨first, (Except.ok.inj hread).symm.trans ?_⟩
    rw [hcandidates]
    rfl

theorem atomic_tryCommit (h : s.registry.InStep) (hcandidate : s.registry.Candidate role provider)
    (hbefore : ReadFrom role s before) (env : Surroundings) :
    Atomic role provider mode s
      ((tryCatch (commit env role provider mode holder before.active) fun fault => do
        undo role before
        throw fault).run s) := by
  have hkeeps := keeps_commit env provider mode holder before.active s (Undoable.refl role h)
  rw [run_tryCatch]
  cases hrun : (commit env role provider mode holder before.active).run s with
  | ok value t => exact requested_of_commit h hcandidate.mem_names hbefore.active env hrun
  | error fault t =>
    have hpartial : Undoable role s t := by
      rw [hrun] at hkeeps
      exact hkeeps
    obtain ⟨preferred, hpreferred⟩ := preferred_of_candidate hcandidate hbefore
    obtain ⟨t', hundo, hrestored⟩ := run_undo h hbefore hpreferred hpartial
    change Atomic role provider mode s ((undo role before >>= fun _ => throw fault).run t)
    rw [run_bind_of_ok hundo]
    exact hrestored

theorem atomic_of_keeps {α : Type} {m : Switching α} {f : α → Switching Switched}
    (hm : Keeps (· = s) m)
    (hf : ∀ a, m.run s = .ok a s → Atomic role provider mode s ((f a).run s)) :
    Atomic role provider mode s ((m >>= f).run s) := by
  have hfinal := hm s rfl
  cases hrun : m.run s with
  | error fault t =>
    rw [hrun] at hfinal
    obtain rfl : t = s := hfinal
    rw [run_bind_of_error hrun]
    exact Restored.refl role t
  | ok a t =>
    rw [hrun] at hfinal
    obtain rfl : t = s := hfinal
    rw [run_bind_of_ok hrun]
    exact hf a hrun

theorem commitSection_atomic (h : s.registry.InStep) (env : Surroundings)
    (role provider mode : PyStr) (inst : Instance) :
    Atomic role provider mode s ((commitSection env role provider mode inst).run s) := by
  refine atomic_of_keeps (keeps_read _) fun found hfound => ?_
  have hcandidate := candidate_of_getCandidate (read_eq_ok.mp hfound).1
  refine atomic_of_keeps (keeps_readBefore role) fun before hrun => ?_
  obtain ⟨-, hbefore⟩ := readFrom_of_readBefore h hcandidate.mem_names hrun
  split_ifs with hunchanged
  · have hquiet := keeps_summary (P := (· = s)) env role none s rfl
    cases hsummary : (summary env role none).run s with
    | ok value t =>
      rw [hsummary] at hquiet
      obtain rfl : t = s := hquiet
      exact requested_of_unchanged h hcandidate.mem_names hbefore hunchanged
    | error fault t =>
      rw [hsummary] at hquiet
      obtain rfl : t = s := hquiet
      exact Restored.refl role t
  · exact atomic_tryCommit h hcandidate hbefore env

/-! ## The call -/

/-- The call comes to its commit section, in the state `entry` and with a ready instance. -/
inductive Enters (ensureReady : ℕ → Switching Activation) (role provider : PyStr) :
    ℕ → Selection → Selection → Instance → Prop
  | now {attempts : ℕ} {s entry : Selection} {activation : Activation}
      (hcandidate : s.registry.Candidate role provider)
      (hready : (ensureReady attempts).run s = .ok activation entry)
      (husable : (activation.sameCatalog && activation.usable) = true) :
      Enters ensureReady role provider (attempts + 1) s entry activation.inst
  | later {attempts : ℕ} {s s' entry : Selection} {activation : Activation} {inst : Instance}
      (hcandidate : s.registry.Candidate role provider)
      (hready : (ensureReady attempts).run s = .ok activation s')
      (hstale : (activation.sameCatalog && activation.usable) = false)
      (hrest : Enters ensureReady role provider attempts s' entry inst) :
      Enters ensureReady role provider (attempts + 1) s entry inst

variable {ensureReady : ℕ → Switching Activation} {attempts : ℕ} {entry : Selection}
  {inst : Instance}

theorem run_switchRole (env : Surroundings) (mode : PyStr)
    (h : Enters ensureReady role provider attempts s entry inst) :
    (switchRole env ensureReady role provider mode attempts).run s =
      (commitSection env role provider mode inst).run entry := by
  induction h with
  | now hcandidate hready husable =>
    rename_i attempts s entry activation
    have hread : (read fun registry => getCandidate registry role provider).run s =
        .ok provider s := read_eq_ok.mpr ⟨getCandidate_of_candidate hcandidate, rfl⟩
    rw [switchRole, run_bind_of_ok hread, run_bind_of_ok hready, if_pos husable]
  | later hcandidate hready hstale hrest ih =>
    rename_i attempts s s' entry activation inst
    have hread : (read fun registry => getCandidate registry role provider).run s =
        .ok provider s := read_eq_ok.mpr ⟨getCandidate_of_candidate hcandidate, rfl⟩
    rw [switchRole, run_bind_of_ok hread, run_bind_of_ok hready, if_neg (by simp [hstale])]
    exact ih

/-- A call that comes to its commit section changes the role as asked for, or raises and leaves the
role, the overrides and the leases of other roles as the section found them. -/
theorem switchRole_atomic (env : Surroundings) (mode : PyStr)
    (h : Enters ensureReady role provider attempts s entry inst)
    (hreachable : Reachable entry.registry) :
    Atomic role provider mode entry
      ((switchRole env ensureReady role provider mode attempts).run s) := by
  rw [run_switchRole env mode h]
  exact commitSection_atomic hreachable.inStep env role provider mode inst

/-- A device whose state directory cannot be written. -/
def readOnly : Surroundings where
  persist := fun _ => some (lit "[Errno 30] Read-only file system")
  summary := fun _ => none

def shellComponents : RoleComponents :=
  let shell : Manifest.Provide := ⟨.role, lit "shell", true, 0⟩
  [(lit "a:shell", [shell]), (lit "b:shell", [shell])]

def shellRegistry : RoleRegistry :=
  .ofRoles [(lit "shell", ⟨[lit "a:shell", lit "b:shell"], true⟩)]

def shellInstance (key : PyStr) : Instance :=
  ⟨key, ⟨1, [], .mipcReady⟩, 1, 100, true, true, false, true⟩

/-- `ensure_ready` of an instance that becomes ready: `_lease_preferred_roles` has run. -/
def becomesReady (inst : Instance) (_attempt : ℕ) : Switching Activation := fun s =>
  .ok ⟨inst, true, true⟩
    { s with registry := s.registry.listRoles.foldl (Supervisor.leaseRole inst) s.registry }

theorem reachable_shellRegistry : Reachable shellRegistry := by
  have hbuilt : RoleRegistry.fromProfile bareInterpreter shellComponents [] = .ok shellRegistry := rfl
  exact .built hbuilt

/-- The second shell is chosen while the first one is active. -/
theorem switchRole_atomic_shell :
    let leased := (perform (.acquire (lit "shell") none none) shellRegistry).registry
    let entry : Selection := ⟨leased, []⟩
    let inst := shellInstance (lit "b:shell")
    Atomic (lit "shell") (lit "b:shell") (lit "select") entry
      ((switchRole readOnly (becomesReady inst) (lit "shell") (lit "b:shell") (lit "select") 3).run
        entry) := by
  intro leased entry inst
  have hcandidate : leased.Candidate (lit "shell") (lit "b:shell") :=
    ⟨⟨[lit "a:shell", lit "b:shell"], true⟩, rfl, by decide⟩
  have hready : (becomesReady inst 2).run entry = .ok ⟨inst, true, true⟩ entry := rfl
  have hreachable : Reachable leased :=
    .called reachable_shellRegistry (.acquire (lit "shell") none none)
  exact switchRole_atomic readOnly (lit "select") (.now hcandidate hready rfl) hreachable

/-- The provider had no lease before the call. It is the preferred one, so the role is leased to it
once it is ready, and the section that fails then leaves that lease. -/
theorem becomesReady_keeps_lease :
    let s : Selection := ⟨shellRegistry, []⟩
    Reachable s.registry ∧
      ∃ fault t, (switchRole readOnly (becomesReady (shellInstance (lit "a:shell")))
          (lit "shell") (lit "a:shell") (lit "select") 3).run s = .error fault t ∧
        activeProviders s.registry (lit "shell") = .ok [] ∧
        activeProviders t.registry (lit "shell") = .ok [lit "a:shell"] ∧
        ¬ Restored (lit "shell") s t := by
  refine ⟨reachable_shellRegistry, _, _, rfl, rfl, rfl, ?_⟩
  intro hrestored
  have hactive := hrestored.active
  cases hactive

end RoleSwitch

end MsysCore.Core
