import MsysCore.Core.ProfileContract
import MsysCore.Core.RoleCatalog
import MsysCore.Native.CatalogOrder
import MsysCore.Native.SourceDocument
import MsysCore.Native.SourceOrder

/-!
# The roles of a profile in the plan

The registry of the Python Core passes over listed providers that are not installed; assembling
drops them. What both prefer for a role is therefore the same.
-/

namespace MsysCore.Native

open Python PlanSource
open Core (RoleRegistry)
open Core.ProfileContract (rolePattern Valid)

/-- The roles that a profile disables. -/
def disabledRoles (py : Interpreter) (profile : Dict) : List PyStr :=
  match Dict.get profile "disabled_roles" (.list []) with
  | .list names => names.map (toStr py)
  | _ => []

/-- The components that a profile lists for a role. -/
def listedFor (py : Interpreter) (profile : Dict) (role : PyStr) : List PyStr :=
  match Dict.get profile "roles" (.dict []) with
  | .dict roles =>
    match RoleRegistry.profileValue roles role with
    | .list ids => ids.map (toStr py)
    | _ => []
  | _ => []

variable {py : Interpreter} {profile : Dict} {profileRoles : Dict} {disabled : List PyStr}

theorem text_of_rolePattern {name : PyStr} (h : rolePattern name = true) :
    Text name.length name := by
  have hchars : ∀ c ∈ name, 45 ≤ c ∧ c ≤ 122 := by
    cases name with
    | nil => cases h
    | cons first rest =>
      unfold rolePattern Core.ProfileContract.word at h
      obtain ⟨hfirst, hrest⟩ := Bool.and_eq_true_iff.mp h
      refine List.forall_mem_cons.mpr ⟨?_, fun c hc => ?_⟩
      · unfold Core.ProfileContract.lower at hfirst
        simp only [Bool.and_eq_true, decide_eq_true_eq] at hfirst
        omega
      · have hchar := List.all_eq_true.mp hrest c hc
        unfold Core.ProfileContract.lowerOrDigit Core.ProfileContract.lower at hchar
        have hpunctuation : lit ".-" = [46, 45] := by decide
        simp only [hpunctuation, Bool.or_eq_true, Bool.and_eq_true, decide_eq_true_eq,
          List.contains_iff_mem, List.mem_cons, List.not_mem_nil, or_false] at hchar
        omega
  apply text_of_plain _ _ le_rfl
  · intro c hc
    obtain ⟨hleast, hmost⟩ := hchars c hc
    exact plainChar_iff.mpr ⟨by omega, by omega⟩
  · intro hnul
    exact absurd (hchars 0 hnul).1 (by decide)

/-! ## What the registry reads -/

theorem disabledRoles_of_valid (h : Valid profile profileRoles disabled) :
    disabledRoles py profile = disabled := by
  unfold disabledRoles
  rw [h.hasDisabled]
  simp only [List.map_map]
  exact List.map_id disabled

theorem isKey_iff {name : PyStr} {key : Json} : isKey name key = true ↔ key = .str name := by
  cases key <;> simp [isKey]

/-- A role has no value, or a list. -/
theorem profileValue_cases (h : Valid profile profileRoles disabled) (role : PyStr) :
    (Json.str role ∉ profileRoles.map Prod.fst ∧
        RoleRegistry.profileValue profileRoles role = .null) ∨
      ∃ ids, (.str role, .list ids) ∈ profileRoles ∧
        RoleRegistry.profileValue profileRoles role = .list ids := by
  unfold RoleRegistry.profileValue
  cases hfind : profileRoles.find? fun entry => isKey role entry.1 with
  | none =>
    refine .inl ⟨fun hmem => ?_, rfl⟩
    obtain ⟨entry, hentry, hkey⟩ := List.mem_map.mp hmem
    exact List.find?_eq_none.mp hfind entry hentry (isKey_iff.mpr hkey)
  | some entry =>
    have hmem := List.mem_of_find?_eq_some hfind
    have hkey := isKey_iff.mp (List.find?_eq_some_iff_append.mp hfind).1
    obtain ⟨name, ids, rfl, -⟩ := h.role entry hmem
    cases hkey
    exact .inr ⟨_, hmem, rfl⟩

theorem profileCandidateIds_of_valid (h : Valid profile profileRoles disabled) (role : PyStr) :
    RoleRegistry.profileCandidateIds py (RoleRegistry.profileValue profileRoles role)
      = .ok (listedFor py profile role) := by
  unfold listedFor
  rw [h.hasRoles]
  rcases profileValue_cases h role with ⟨-, hvalue⟩ | ⟨ids, -, hvalue⟩
  · simp only [hvalue]
    rfl
  · simp only [hvalue]
    rfl

/-- A valid profile gives a registry, whatever the components are. -/
theorem fromProfile_of_valid (h : Valid profile profileRoles disabled)
    (components : Core.RoleComponents) : ∃ roles,
      RoleRegistry.buildRoles py components profileRoles disabled = .ok roles ∧
      RoleRegistry.fromProfile py components profile = .ok (RoleRegistry.ofRoles roles) := by
  have hreturns : Returns (RoleRegistry.buildRoles py components profileRoles disabled) := by
    unfold RoleRegistry.buildRoles
    refine foldlM_returns (fun role _ result => ?_) []
    rw [profileCandidateIds_of_valid h role]
    exact returns_pure _
  obtain ⟨roles, hroles⟩ := hreturns
  refine ⟨roles, hroles, ?_⟩
  have hnames : (disabled.map Json.str).map (toStr py) = disabled := by
    rw [List.map_map]
    exact List.map_id disabled
  unfold RoleRegistry.fromProfile
  rw [h.hasRoles, h.hasDisabled]
  simp only [hnames, hroles]
  rfl

/-! ## What assembling keeps -/

variable {known : List PyStr}

theorem addRole_eq_ok {before after : List (PyStr × List PyStr)} {entry : Json × Json}
    (h : addRole py known before entry = .ok after) :
    ∃ role ids, entry = (.str role, .list ids) ∧
      (∀ other, other ≠ role → OrderedDict.get after other = OrderedDict.get before other) ∧
      (OrderedDict.get before role = none →
        (OrderedDict.get after role).getD [] = presentIds py known ids) := by
  unfold addRole at h
  split at h
  · rename_i role ids
    refine ⟨role, ids, rfl, ?_⟩
    dsimp only at h
    by_cases hempty : presentIds py known ids = []
    · rw [if_pos hempty] at h
      cases h
      exact ⟨fun other _ => rfl, fun hnone => by rw [hnone, hempty]; rfl⟩
    · rw [if_neg hempty] at h
      cases h
      refine ⟨fun other hother => OrderedDict.get_set_ne hother _ _, fun _ => ?_⟩
      rw [OrderedDict.get_set_self]
      rfl
  · cases h

theorem foldlM_addRole (roles : Dict) : ∀ {before after : List (PyStr × List PyStr)},
    roles.foldlM (addRole py known) before = .ok after → (roles.map Prod.fst).Nodup →
    ∀ role, (Json.str role ∉ roles.map Prod.fst →
        OrderedDict.get after role = OrderedDict.get before role) ∧
      ∀ ids, (.str role, .list ids) ∈ roles → OrderedDict.get before role = none →
        (OrderedDict.get after role).getD [] = presentIds py known ids := by
  induction roles with
  | nil =>
    intro before after h _ role
    cases h
    exact ⟨fun _ => rfl, nofun⟩
  | cons entry roles ih =>
    intro before after h hnodup role
    rw [List.foldlM_cons] at h
    obtain ⟨middle, hentry, hrest⟩ := bind_eq_ok.mp h
    obtain ⟨name, ids, rfl, hothers, hname⟩ := addRole_eq_ok hentry
    obtain ⟨hnew, hnodup⟩ := List.nodup_cons.mp hnodup
    obtain ⟨habsent, hpresent⟩ := ih hrest hnodup role
    refine ⟨fun hrole => ?_, fun items hitems hnone => ?_⟩
    · rw [List.map_cons, List.mem_cons, not_or] at hrole
      obtain ⟨hne, hlater⟩ := hrole
      rw [habsent hlater, hothers role fun heq => hne (congrArg Json.str heq)]
    · rcases List.mem_cons.mp hitems with heq | hlater
      · cases heq
        rw [habsent hnew, hname hnone]
      · have hne : role ≠ name := by
          rintro rfl
          exact hnew (List.mem_map.mpr ⟨_, hlater, rfl⟩)
        exact hpresent items hlater ((hothers role hne).trans hnone)

/-- A plan prefers what the profile lists, as far as there are components for it. -/
theorem preferredFor_eq (h : Valid profile profileRoles disabled)
    (hproper : proper (.dict profile) = true) {packages : List PackageSource}
    {commands : List (PyStr × PyStr)} {source : RuntimeSource}
    (hassemble : assemble py profile packages commands = .ok source) {planned : PlanProfile}
    (hroles : planned.roles.Perm source.roles) (hnodup : (planned.roles.map Prod.fst).Nodup)
    (role : PyStr) :
    preferredFor planned role
      = (listedFor py profile role).filter fun id => (declaredKeys packages).contains id := by
  obtain ⟨startup, components, roles, hcomponents, -, hprofile, hfold⟩ :=
    assemble_components hassemble
  cases h.hasRoles.symm.trans hprofile
  have hkeys : (profileRoles.map Prod.fst).Nodup := by
    have hdict : proper (Dict.get profile "roles" (.dict [])) = true :=
      (proper_dict hproper).get "roles" rfl
    rw [h.hasRoles] at hdict
    exact (proper_dict hdict).nodup
  have hknown : knownIds components = declaredKeys packages := by
    obtain ⟨new, hnew, hassembled⟩ := (foldlM_addPackage packages hcomponents).appended
    rw [hnew, List.nil_append]
    exact knownIds_eq hassembled
  obtain ⟨habsent, hpresent⟩ := foldlM_addRole profileRoles hfold hkeys role
  have hpreferred : preferredFor planned role = (OrderedDict.get source.roles role).getD [] := by
    unfold preferredFor
    rw [find_entry, ← OrderedDict.get_of_perm hroles hnodup]
    cases OrderedDict.get planned.roles role <;> rfl
  rw [hpreferred]
  unfold listedFor
  rw [h.hasRoles]
  rcases profileValue_cases h role with ⟨hmissing, hvalue⟩ | ⟨ids, hmem, hvalue⟩
  · rw [habsent hmissing]
    simp only [hvalue]
    rfl
  · rw [hpresent ids hmem rfl]
    simp only [hvalue]
    unfold presentIds
    rw [hknown]

end MsysCore.Native
