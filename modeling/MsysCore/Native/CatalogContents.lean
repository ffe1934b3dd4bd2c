import MsysCore.Native.Catalog

/-!
# What a native catalog contains

The tables of the constructor, service by service: the candidates of a name are those that the
components provide, in the order of the components, and then sorted.
-/

namespace MsysCore.Native

variable {plan : RuntimePlan}

/-- The entries of a component in the table of the roles. -/
def roleEntries (plan : RuntimePlan) (index : ℕ) (id : Bytes) (provides : List ProvidePlan) :
    List (Bytes × CatalogProvider) :=
  (provides.filter fun provided => provided.kind == .role).map fun provided =>
    (provided.name, roleCandidate plan index id provided)

/-- The entries of a component in the table of the interfaces. -/
def interfaceEntries (index : ℕ) (provides : List ProvidePlan) : List (Bytes × CatalogProvider) :=
  (provides.filter fun provided => provided.kind == .interface).map fun provided =>
    (provided.name, ⟨index, provided.priority, provided.exclusive, false, 0⟩)

def pushEntries (table : List (Bytes × List CatalogProvider))
    (entries : List (Bytes × CatalogProvider)) : List (Bytes × List CatalogProvider) :=
  entries.foldl (fun table entry => pushProvider table entry.1 entry.2) table

/-- The candidates of a name. -/
def candidatesOf (entries : List (Bytes × CatalogProvider)) (name : Bytes) :
    List CatalogProvider :=
  (entries.filter fun entry => entry.1 == name).map Prod.snd

theorem pushEntries_append (table : List (Bytes × List CatalogProvider))
    (first second : List (Bytes × CatalogProvider)) :
    pushEntries table (first ++ second) = pushEntries (pushEntries table first) second :=
  List.foldl_append

theorem addProvides_eq {index : ℕ} {id : Bytes} (provides : List ProvidePlan) :
    ∀ (unique : List (ProvideKind × Bytes)) (tables : ProviderTables),
      (unique ++ provides.map fun provided => (provided.kind, provided.name)).Nodup →
      addProvides plan index id unique tables provides = .ok
        { roles := pushEntries tables.roles (roleEntries plan index id provides)
          interfaces := pushEntries tables.interfaces (interfaceEntries index provides) } := by
  induction provides with
  | nil => exact fun _ _ _ => rfl
  | cons provided rest ih =>
    intro unique tables h
    rw [List.map_cons] at h
    have hperm : (unique ++ (provided.kind, provided.name) ::
        rest.map fun provided => (provided.kind, provided.name)).Perm
        ((provided.kind, provided.name) :: unique ++
          rest.map fun provided => (provided.kind, provided.name)) := List.perm_middle
    have hnodup := hperm.nodup_iff.mp h
    have hnew : (provided.kind, provided.name) ∉ unique := fun hmem =>
      (List.nodup_cons.mp hnodup).1 (List.mem_append_left _ hmem)
    rw [addProvides, if_neg hnew, ih _ _ hnodup]
    unfold addProvided roleEntries interfaceEntries
    cases hkind : provided.kind with
    | role => simp [hkind, pushEntries]
    | interface => simp [hkind, pushEntries]
    | capability => simp [hkind]

/-- The entries of all components, the first of which has the number `start`. -/
def rolesFrom (plan : RuntimePlan) (start : ℕ) (components : List ComponentPlan) :
    List (Bytes × CatalogProvider) :=
  (components.zipIdx start).flatMap fun item =>
    roleEntries plan item.2 item.1.id item.1.provides

def interfacesFrom (start : ℕ) (components : List ComponentPlan) :
    List (Bytes × CatalogProvider) :=
  (components.zipIdx start).flatMap fun item => interfaceEntries item.2 item.1.provides

/-- No component provides a service twice. -/
def ProvidesOnce (components : List ComponentPlan) : Prop :=
  ∀ component ∈ components,
    (component.provides.map fun provided => (provided.kind, provided.name)).Nodup

theorem addComponents_eq (components : List ComponentPlan) :
    ∀ (start : ℕ) (tables : ProviderTables), ProvidesOnce components →
      addComponents plan start tables components = .ok
        { roles := pushEntries tables.roles (rolesFrom plan start components)
          interfaces := pushEntries tables.interfaces (interfacesFrom start components) } := by
  induction components with
  | nil => exact fun _ _ _ => rfl
  | cons component rest ih =>
    intro start tables h
    obtain ⟨hcomponent, hrest⟩ := List.forall_mem_cons.mp h
    rw [addComponents]
    refine bind_eq_ok.mpr ⟨_, addProvides_eq component.provides [] tables hcomponent, ?_⟩
    rw [ih (start + 1) _ hrest]
    simp only [rolesFrom, interfacesFrom, List.zipIdx_cons, List.flatMap_cons,
      pushEntries_append]

theorem get_pushEntries (entries : List (Bytes × CatalogProvider)) :
    ∀ (table : List (Bytes × List CatalogProvider)) (name : Bytes),
      OrderedDict.get (pushEntries table entries) name =
        if candidatesOf entries name = [] then OrderedDict.get table name
        else some ((OrderedDict.get table name).getD [] ++ candidatesOf entries name) := by
  induction entries with
  | nil => exact fun _ _ => rfl
  | cons entry rest ih =>
    intro table name
    show OrderedDict.get (pushEntries (pushProvider table entry.1 entry.2) rest) name = _
    rw [ih, pushProvider, OrderedDict.get_set]
    by_cases hname : entry.1 = name
    · subst hname
      have hcandidates : candidatesOf (entry :: rest) entry.1
          = entry.2 :: candidatesOf rest entry.1 := by
        simp [candidatesOf]
      rw [hcandidates, if_pos rfl, if_neg (List.cons_ne_nil _ _)]
      split_ifs with hrest
      · rw [hrest]
      · simp
    · have hcandidates : candidatesOf (entry :: rest) name = candidatesOf rest name := by
        simp [candidatesOf, hname]
      rw [hcandidates, if_neg (Ne.symm hname)]

theorem nodup_pushEntries (entries : List (Bytes × CatalogProvider)) :
    ∀ {table : List (Bytes × List CatalogProvider)}, (table.map Prod.fst).Nodup →
      ((pushEntries table entries).map Prod.fst).Nodup := by
  induction entries with
  | nil => exact fun h => h
  | cons entry rest ih => exact fun h => ih (OrderedDict.nodup_set h _ _)

/-! ## Lookups -/

/-- In a list that has each key once, whatever has the key is found, in any order. -/
theorem find_key {α κ : Type} [BEq κ] [LawfulBEq κ] {key : α → κ} {items : List α} {item : α}
    (hnodup : (items.map key).Nodup) (hitem : item ∈ items) :
    items.find? (fun other => key other == key item) = some item := by
  induction items with
  | nil => cases hitem
  | cons first rest ih =>
    obtain ⟨hfirst, hrest⟩ := List.nodup_cons.mp hnodup
    rcases List.mem_cons.mp hitem with rfl | hmem
    · simp
    · have hne : key first ≠ key item := fun heq => hfirst (heq ▸ List.mem_map_of_mem hmem)
      rw [List.find?_cons_of_neg (by simpa using hne)]
      exact ih hrest hmem

theorem mem_sorted {α : Type} {less : α → α → Bool} {items : List α} {item : α} :
    item ∈ sorted less items ↔ item ∈ items :=
  List.mem_insertionSort _

namespace NativeCatalog

/-- The catalog of a plan whose components provide no service twice. -/
def contents (plan : RuntimePlan) : NativeCatalog :=
  ofTables plan
    { roles := pushEntries [] (rolesFrom plan 0 plan.components)
      interfaces := pushEntries [] (interfacesFrom 0 plan.components) }

theorem contents_role {name : Bytes}
    (h : candidatesOf (rolesFrom plan 0 plan.components) name ≠ []) :
    (contents plan).role name = some
      ⟨name, sorted providerLess (candidatesOf (rolesFrom plan 0 plan.components) name)⟩ := by
  have hget := get_pushEntries (rolesFrom plan 0 plan.components) [] name
  rw [if_neg h, OrderedDict.get, Option.getD_none, List.nil_append] at hget
  have hmem := List.mem_map_of_mem (f := fun entry : Bytes × List CatalogProvider =>
    CatalogRole.mk entry.1 (sorted providerLess entry.2)) (OrderedDict.mem_of_get hget)
  have hnodup : (((contents plan).roles).map CatalogRole.name).Nodup := by
    have hperm : ((contents plan).roles).Perm _ := List.perm_insertionSort _ _
    rw [(hperm.map _).nodup_iff, List.map_map]
    exact nodup_pushEntries _ List.nodup_nil
  exact find_key hnodup (mem_sorted.mpr hmem)

theorem mem_candidates {name : Bytes} {index : ℕ} {component : ComponentPlan}
    {provided : ProvidePlan} (hindex : plan.components[index]? = some component)
    (hprovided : provided ∈ component.provides) (hkind : provided.kind = .role)
    (hname : provided.name = name) :
    roleCandidate plan index component.id provided
      ∈ candidatesOf (rolesFrom plan 0 plan.components) name := by
  have hitem : (component, index) ∈ plan.components.zipIdx := by
    rw [List.mem_zipIdx_iff_getElem?]
    exact hindex
  have hentry : (name, roleCandidate plan index component.id provided)
      ∈ roleEntries plan index component.id component.provides := by
    rw [← hname]
    refine List.mem_map.mpr ⟨provided, List.mem_filter.mpr ⟨hprovided, ?_⟩, rfl⟩
    rw [hkind]
    rfl
  have hmem : (name, roleCandidate plan index component.id provided)
      ∈ rolesFrom plan 0 plan.components := List.mem_flatMap.mpr ⟨_, hitem, hentry⟩
  exact List.mem_map.mpr ⟨_, List.mem_filter.mpr ⟨hmem, beq_self_eq_true name⟩, rfl⟩

theorem componentIndex_eq (hunique : (plan.components.map ComponentPlan.id).Nodup) {index : ℕ}
    {component : ComponentPlan} (hindex : plan.components[index]? = some component) :
    (contents plan).componentIndex component.id = some index := by
  obtain ⟨hlt, hget⟩ := List.getElem?_eq_some_iff.mp hindex
  refine List.findIdx?_eq_some_iff_getElem.mpr ⟨hlt, by simp [contents, ofTables, hget], ?_⟩
  intro other hother heq
  have hbound : index < (plan.components.map ComponentPlan.id).length := by
    rwa [List.length_map]
  have hearlier : other < (plan.components.map ComponentPlan.id).length := hother.trans hbound
  have hids : (plan.components.map ComponentPlan.id)[other]
      = (plan.components.map ComponentPlan.id)[index] := by
    rw [List.getElem_map, List.getElem_map, hget]
    simpa [contents, ofTables] using heq
  exact hother.ne (hunique.getElem_inj_iff.mp hids)

/-- Candidates of a role have the indices of components that provide it. -/
theorem roleCandidate_componentIndex (plan : RuntimePlan) (index : ℕ) (id : Bytes)
    (provided : ProvidePlan) : (roleCandidate plan index id provided).componentIndex = index := by
  unfold roleCandidate
  split <;> rfl

/-- What the constructor checks of a plan. -/
structure Consistent (plan : RuntimePlan) : Prop where
  unique : (plan.components.map ComponentPlan.id).Nodup
  roles : (plan.rolePreferences.map RolePreference.role).Nodup
  once : ProvidesOnce plan.components
  nonempty : ∀ preference ∈ plan.rolePreferences, preference.providers ≠ []
  provider : ∀ preference ∈ plan.rolePreferences, ∀ id ∈ preference.providers,
    ∃ component ∈ plan.components, component.id = id ∧
      ∃ provided ∈ component.provides, provided.kind = .role ∧ provided.name = preference.role

theorem Consistent.candidate (h : Consistent plan) {preference : RolePreference}
    (hpreference : preference ∈ plan.rolePreferences) {id : Bytes}
    (hid : id ∈ preference.providers) :
    ∃ index, (contents plan).componentIndex id = some index ∧
      ∃ candidate ∈ candidatesOf (rolesFrom plan 0 plan.components) preference.role,
        candidate.componentIndex = index := by
  obtain ⟨component, hcomponent, rfl, provided, hprovided, hkind, hname⟩ :=
    h.provider preference hpreference id hid
  obtain ⟨index, hindex⟩ := List.mem_iff_getElem?.mp hcomponent
  exact ⟨index, componentIndex_eq h.unique hindex, _,
    mem_candidates hindex hprovided hkind hname, roleCandidate_componentIndex _ _ _ _⟩

theorem Consistent.build (h : Consistent plan) : build plan = .ok (contents plan) := by
  refine build_eq_ok.mpr ⟨h.unique, h.roles, _, addComponents_eq plan.components 0 {} h.once, rfl,
    fun preference hpreference => ?_⟩
  obtain ⟨first, hfirst⟩ := List.exists_mem_of_ne_nil _ (h.nonempty preference hpreference)
  obtain ⟨-, -, candidate, hcandidate, -⟩ := h.candidate hpreference hfirst
  have hrole := contents_role (List.ne_nil_of_mem hcandidate)
  show (contents plan).checkPreference preference = _
  unfold checkPreference
  simp only [hrole]
  rw [if_pos]
  rw [List.all_eq_true]
  intro id hid
  obtain ⟨index, hindex, candidate, hcandidate, hsame⟩ := h.candidate hpreference hid
  rw [hindex, List.any_eq_true]
  exact ⟨candidate, mem_sorted.mpr hcandidate, by simpa using hsame⟩

end NativeCatalog

end MsysCore.Native
