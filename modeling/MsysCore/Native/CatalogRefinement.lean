import MsysCore.Native.SourceProfile
import MsysCore.Native.SourceServices

/-!
# The native catalog and the registries of the Python Core

The catalog of an assembled and compiled plan, next to the registries that the Python Core builds
from the same profile and manifests. Candidates that tie are in the start order of the plan, not in
that of their ids, and the plan has no disabled roles.
-/

namespace MsysCore.Native

open Python PlanSource LeastOrder Ranking
open PlanOrder (PlanComponent afterOf mem_afterOf)
open Core (RoleComponents RoleRegistry RoleState ServiceCatalog)
open Core.ProfileContract (Valid rolePattern validateProfile)
open Core.ProviderOrder (Declares Precedes declaredExclusive declaredPriority)

/-- The catalog that the native supervisor builds of a compiled plan. -/
def nativeCatalog (data : Bytes) : Except Bytes NativeCatalog := do
  let plan ← PlanText.parseRuntimePlan data
  NativeCatalog.build plan

/-- A profile and manifests that both programs accept, with what they make of them. -/
structure BothAccept (py : Interpreter) (profile : Dict) (packages : List PackageSource)
    (commands : List (PyStr × PyStr)) (source : RuntimeSource) (text : PyStr)
    (components : RoleComponents) : Prop where
  valid : ∃ expectedId, Returns (validateProfile py (.dict profile) expectedId)
  properProfile : proper (.dict profile) = true
  assembled : assemble py profile packages commands = .ok source
  properDocument : proper source.document = true
  compiled : compileDocument py source.document = .ok text
  loaded : loadServices py packages = .ok components

/-- What both programs build in the end. -/
structure Built (py : Interpreter) (profile : Dict) (text : PyStr) (components : RoleComponents)
    (registry : RoleRegistry) (catalog : NativeCatalog) : Prop where
  registry : RoleRegistry.fromProfile py components profile = .ok registry
  catalog : ∃ data, utf8Encode text = .ok data ∧ nativeCatalog data = .ok catalog

/-- `ids` are the providers of an interface in a service catalog. -/
def ServedBy (components : RoleComponents) (name : PyStr) (ids : List PyStr) : Prop :=
  (ServiceCatalog.build components).providerIds (lit "interface") name = .ok ids

/-- A catalog that says the same as the registries. -/
structure Refines (components : RoleComponents) (registry : RoleRegistry) (disabled : List PyStr)
    (catalog : NativeCatalog) : Prop where
  candidates : ∀ role state, registry.state role = .ok state →
    catalog.roleIds (utf8 role) = state.candidates.map utf8
  exclusive : ∀ role state, registry.state role = .ok state →
    catalog.roleExclusive (utf8 role) = state.exclusive
  providers : ∀ name ids, ServedBy components name ids →
    catalog.interfaceIds (utf8 name) = ids.map utf8
  interfaces : ∀ entry ∈ catalog.interfaces, ∃ name ids, entry.1 = utf8 name ∧
    ServedBy components name ids
  disabled : ∀ role ∈ disabled, catalog.roleIds (utf8 role) = []

/-! ## What the catalog keeps -/

/-- The `after` references that a plan keeps. -/
def planGraph (py : Interpreter) (packages : List PackageSource) : Core.Catalog :=
  (declared packages).map (planEntry py packages)

/-- The order in which a plan has the components: the least by ids of those in which each comes
after the ones it refers to. -/
def StartOrder (py : Interpreter) (packages : List PackageSource) (order : List PyStr) : Prop :=
  Least (planGraph py packages).references (declaredKeys packages) order

/-- What a catalog has in common with the registries: all candidates, and their order but for
those that tie. A role is exclusive in both or in neither, if its providers say whether it is. -/
structure Keeps (py : Interpreter) (profile : Dict) (packages : List PackageSource)
    (components : RoleComponents) (registry : RoleRegistry) (catalog : NativeCatalog)
    (order : List PyStr) : Prop where
  candidates : ∀ role state, registry.state role = .ok state →
    ∃ ids : List PyStr, catalog.roleIds (utf8 role) = ids.map utf8 ∧
      SameButTies (listedFor py profile role) (declaredPriority components .role role) order.idxOf
        state.candidates ids
  exclusive : ∀ role state, registry.state role = .ok state →
    (∀ raw ∈ declared packages, ∀ entry ∈ raw.offers py .role role,
      (Dict.get? entry "exclusive").isSome) →
    catalog.roleExclusive (utf8 role) = state.exclusive
  providers : ∀ name ids, ServedBy components name ids →
    ∃ ids' : List PyStr, catalog.interfaceIds (utf8 name) = ids'.map utf8 ∧
      SameButTies [] (declaredPriority components .interface name) order.idxOf ids ids'
  interfaces : ∀ entry ∈ catalog.interfaces, ∃ name ids, entry.1 = utf8 name ∧
    ServedBy components name ids
  disabled : ∀ role ∈ disabledRoles py profile,
    ∃ ids : List PyStr, catalog.roleIds (utf8 role) = ids.map utf8 ∧
      ∀ id, id ∈ ids ↔ Declares components .role role id

/-! ## The registries -/

section

variable {components : RoleComponents} (hids : (components.map Prod.fst).Nodup) {name : PyStr}

include hids

theorem exists_servedBy (hdeclared : ∃ id, Declares components .interface name id) :
    ∃ ids, ServedBy components name ids ∧ ids.Pairwise (Precedes components .interface name) ∧
      ∀ id, id ∈ ids ↔ Declares components .interface name id := by
  have hkind : Core.Manifest.ProvideKind.interface ≠ .role := by decide
  obtain ⟨ids, hproviders, hranked, hmem⟩ :=
    Core.ProviderOrder.providers_declared hkind name hids hdeclared
  refine ⟨ids, ?_, hranked, hmem⟩
  refine bind_eq_ok.mpr ⟨_, hproviders, ?_⟩
  rw [List.map_map]
  exact congrArg Except.ok (List.map_id ids)

theorem declared_of_servedBy {ids : List PyStr} (h : ServedBy components name ids) :
    ∃ id, Declares components .interface name id := by
  by_contra hnone
  have hkind : Core.Manifest.ProvideKind.interface ≠ .role := by decide
  obtain ⟨found, hfound, -⟩ := bind_eq_ok.mp h
  cases hfound.symm.trans (Core.ProviderOrder.providers_undeclared hkind name hids hnone)

end

theorem state_ofRoles {roles : List (PyStr × RoleState)} {role : PyStr} {state : RoleState} :
    (RoleRegistry.ofRoles roles).state role = .ok state ↔
      OrderedDict.get roles role = some state := by
  unfold RoleRegistry.state RoleRegistry.ofRoles
  cases OrderedDict.get roles role <;> simp

/-- What is known of the roles of a registry for a valid profile. -/
structure EnabledRoles (py : Interpreter) (profile : Dict) (disabled : List PyStr)
    (components : RoleComponents) (registry : RoleRegistry) : Prop where
  state : ∀ role state, registry.state role = .ok state →
    role ∉ disabled ∧
      Core.ProviderOrder.Ordered components role (listedFor py profile role) state
  named : ∀ role state, registry.state role = .ok state →
    rolePattern role = true ∨ ∃ id, Declares components .role role id
  declared : ∀ role, role ∉ disabled → (∃ id, Declares components .role role id) →
    ∃ state, registry.state role = .ok state

theorem enabledRoles {py : Interpreter} {profile profileRoles : Dict} {disabled : List PyStr}
    (hvalid : Valid profile profileRoles disabled) {components : RoleComponents}
    (hids : (components.map Prod.fst).Nodup) {roles : List (PyStr × RoleState)}
    (hbuild : RoleRegistry.buildRoles py components profileRoles disabled = .ok roles) :
    EnabledRoles py profile disabled components (RoleRegistry.ofRoles roles) where
  state role state hstate := by
    have hget := state_ofRoles.mp hstate
    obtain ⟨hmem, hstates⟩ := Core.ProviderOrder.get_buildRoles hids hbuild role
    obtain ⟨listed, hlisted, hordered⟩ := hstates state hget
    cases hlisted.symm.trans (profileCandidateIds_of_valid hvalid role)
    exact ⟨(hmem.mp (OrderedDict.mem_keys_of_get hget)).1, hordered⟩
  named role state hstate := by
    have hget := state_ofRoles.mp hstate
    obtain ⟨hmem, -⟩ := Core.ProviderOrder.get_buildRoles hids hbuild role
    refine (hmem.mp (OrderedDict.mem_keys_of_get hget)).2.imp_left fun hlisted => ?_
    obtain ⟨entry, hentry, rfl⟩ := List.mem_map.mp hlisted
    obtain ⟨name, ids, rfl, hpattern⟩ := hvalid.role entry hentry
    exact hpattern
  declared role hrole hdeclared := by
    obtain ⟨hmem, -⟩ := Core.ProviderOrder.get_buildRoles hids hbuild role
    obtain ⟨state, hstate⟩ := OrderedDict.exists_get_of_mem_keys (hmem.mpr ⟨hrole, .inr hdeclared⟩)
    exact ⟨state, state_ofRoles.mpr hstate⟩

/-! ## The order of a plan -/

section

variable {py : Interpreter} {packages : List PackageSource} {components : RoleComponents}
  {ordered : List (PlanComponent ServiceFields)} {traced : List (TracedComponent py packages)}
  (h : Traces py packages components ordered traced)

include h

theorem Traces.mem_declared {raw : RawComponent} :
    raw ∈ declared packages ↔ ∃ component ∈ traced, component.raw = raw := by
  rw [h.raws, List.mem_map]

/-- The references of a plan, from the manifests and from the plan. -/
theorem Traces.mem_references {name dependency : PyStr} :
    dependency ∈ (planGraph py packages).references name ↔
      dependency ∈ afterOf (traced.map TracedComponent.item) name := by
  have hgraph : ∀ raw ∈ declared packages, (planGraph py packages).references raw.key
      = (planEntry py packages raw).2.after := by
    intro raw hraw
    unfold Core.Catalog.references planGraph
    rw [get_declared (fun _ => rfl) h.keys hraw]
    rfl
  rw [mem_afterOf]
  constructor
  · intro hdependency
    have hkey : name ∈ (planGraph py packages).map Prod.fst := by
      by_contra habsent
      unfold Core.Catalog.references at hdependency
      rw [OrderedDict.get_eq_none_iff.mpr habsent] at hdependency
      cases hdependency
    obtain ⟨entry, hentry, rfl⟩ := List.mem_map.mp hkey
    obtain ⟨raw, hraw, rfl⟩ := List.mem_map.mp hentry
    obtain ⟨component, hcomponent, rfl⟩ := h.mem_declared.mp hraw
    refine ⟨component.item, List.mem_map_of_mem hcomponent, component.id, ?_⟩
    rw [component.after.mem_iff, ← hgraph _ hraw]
    exact hdependency
  · rintro ⟨item, hitem, rfl, hdependency⟩
    obtain ⟨component, hcomponent, rfl⟩ := List.mem_map.mp hitem
    rw [component.id, hgraph _ (h.mem_declared.mpr ⟨component, hcomponent, rfl⟩)]
    exact component.after.mem_iff.mp hdependency

theorem Traces.ids : (traced.map TracedComponent.item).map PlanComponent.id
    = declaredKeys packages := by
  unfold declaredKeys
  rw [h.raws, List.map_map, List.map_map]
  exact List.map_congr_left fun component _ => component.id

theorem Traces.startOrder
    (hordered : PlanOrder.Ordered (traced.map TracedComponent.item) ordered) :
    StartOrder py packages (ordered.map PlanComponent.id) := by
  have hunique : ((traced.map TracedComponent.item).map PlanComponent.id).Nodup := by
    rw [h.ids]
    exact h.keys
  have hleast := hordered.least_ids hunique
  rw [h.ids] at hleast
  exact hleast.congr fun name dependency => h.mem_references.symm

/-! ## The candidates of a plan -/

theorem Traces.mem_rankedIds {kind : Core.Manifest.ProvideKind} {name : PyStr}
    {preferred : List PyStr} {id : PyStr} :
    id ∈ rankedIds ordered (planKind kind) name preferred ↔ Declares components kind name id := by
  rw [Native.mem_rankedIds, h.offers_iff]

/-- A plan ranks candidates by the profile, the priorities and the start order. -/
theorem Traces.rankedIds_ranked (kind : Core.Manifest.ProvideKind) (name : PyStr)
    (preferred : List PyStr) : (rankedIds ordered (planKind kind) name preferred).Pairwise
      (Ranks preferred (declaredPriority components kind name)
        (ordered.map PlanComponent.id).idxOf) := by
  have hunique : (ordered.map PlanComponent.id).Nodup := by
    rw [(h.plan.map PlanComponent.id).nodup_iff, h.ids]
    exact h.keys
  exact pairwise_rankedIds hunique h.once fun item hitem provided hprovided =>
    h.plan_priority hitem hprovided

theorem Traces.mem_listed {kind : Core.Manifest.ProvideKind} {name id : PyStr}
    (hdeclares : Declares components kind name id) {listed preferred : List PyStr}
    (hpreferred : preferred = listed.filter fun id => (declaredKeys packages).contains id) :
    id ∈ preferred ↔ id ∈ listed := by
  obtain ⟨component, hcomponent, rfl⟩ := h.exists_component hdeclares
  have hraw := h.mem_declared.mpr ⟨component, hcomponent, rfl⟩
  have hkey : component.raw.key ∈ declaredKeys packages := List.mem_map_of_mem hraw
  rw [hpreferred, List.mem_filter, List.contains_iff_mem]
  exact and_iff_left hkey

/-- A plan has the candidates that a registry ranks, in the same order but for ties. -/
theorem Traces.rankedIds_same {kind : Core.Manifest.ProvideKind} {name : PyStr}
    {listed preferred ids : List PyStr}
    (hpreferred : preferred = listed.filter fun id => (declaredKeys packages).contains id)
    (hranked : ids.Pairwise (Ranks preferred (declaredPriority components kind name) id))
    (hmem : ∀ id, id ∈ ids ↔ Declares components kind name id) :
    SameButTies listed (declaredPriority components kind name)
      (ordered.map PlanComponent.id).idxOf ids
      (rankedIds ordered (planKind kind) name preferred) := by
  have hsame := sameButTies_of_ranks hranked (h.rankedIds_ranked kind name preferred) fun id =>
    (hmem id).trans h.mem_rankedIds.symm
  exact hsame.congr fun id hid => h.mem_listed (h.mem_rankedIds.mp hid) hpreferred

/-! ## Roles -/

theorem Traces.installed_iff {id : PyStr} :
    (OrderedDict.get components id).isSome = (declaredKeys packages).contains id := by
  have hkeys : components.map Prod.fst = declaredKeys packages := by
    unfold declaredKeys
    rw [h.loaded, h.raws, List.map_map, List.map_map]
    rfl
  rw [Bool.eq_iff_iff, List.contains_iff_mem, ← hkeys, Option.isSome_iff_ne_none, Ne,
    OrderedDict.get_eq_none_iff, not_not]

/-- The candidates of a role are ranked by the profile, the priorities and the ids. -/
theorem Traces.candidates_ranked {role : PyStr} {listed preferred : List PyStr}
    {state : RoleState} (hstate : Core.ProviderOrder.Ordered components role listed state)
    (hpreferred : preferred = listed.filter fun id => (declaredKeys packages).contains id)
    (hnodup : preferred.Nodup) (hdeclares : ∀ id ∈ preferred, Declares components .role role id) :
    state.candidates.Pairwise (Ranks preferred (declaredPriority components .role role) id) ∧
      ∀ id, id ∈ state.candidates ↔ Declares components .role role id := by
  obtain ⟨rest, hcandidates, hrest, hmem⟩ := hstate.order
  have hinstalled : (listed.filter fun id => (OrderedDict.get components id).isSome)
      = preferred := by
    rw [hpreferred]
    exact List.filter_congr fun id _ => h.installed_iff
  rw [hinstalled, GroupedDict.eraseDups_of_nodup hnodup] at hcandidates
  have hunlisted : ∀ id ∈ rest, id ∉ preferred := by
    intro id hid hin
    rw [hpreferred] at hin
    exact ((hmem id).mp hid).2 (List.mem_of_mem_filter hin)
  rw [hcandidates]
  refine ⟨pairwise_append hnodup hrest hunlisted, fun id => ?_⟩
  rw [List.mem_append, hmem]
  constructor
  · rintro (hin | ⟨hdeclared, -⟩)
    · exact hdeclares id hin
    · exact hdeclared
  · intro hdeclared
    by_cases hlisted : id ∈ listed
    · exact .inl ((h.mem_listed hdeclared hpreferred).mpr hlisted)
    · exact .inr ⟨hdeclared, hlisted⟩

theorem Traces.stated_iff {role : PyStr} :
    (∃ item ∈ ordered, ∃ provided ∈ entriesFor (planKind .role) role item,
        provided.exclusive = true) ↔
      ∃ raw ∈ declared packages, ∃ entry ∈ raw.offers py .role role,
        (Dict.get entry "exclusive" (.bool false)).truthy = true := by
  constructor
  · rintro ⟨item, hitem, provided, hprovided, hexclusive⟩
    obtain ⟨component, hcomponent, rfl⟩ := List.mem_map.mp (h.plan.mem_iff.mp hitem)
    obtain ⟨service, hservice, hkind, hname, rfl⟩ :=
      TracedComponent.mem_entriesFor.mp hprovided
    exact ⟨component.raw, h.mem_declared.mpr ⟨component, hcomponent, rfl⟩, service.entry,
      TracedComponent.mem_offers.mpr ⟨service, hservice, hkind, hname, rfl⟩, hexclusive⟩
  · rintro ⟨raw, hraw, entry, hentry, hexclusive⟩
    obtain ⟨component, hcomponent, rfl⟩ := h.mem_declared.mp hraw
    obtain ⟨service, hservice, hkind, hname, rfl⟩ := TracedComponent.mem_offers.mp hentry
    exact ⟨component.item, h.plan.mem_iff.mpr (List.mem_map_of_mem hcomponent), service.planned,
      TracedComponent.mem_entriesFor.mpr ⟨service, hservice, hkind, hname, rfl⟩, hexclusive⟩

/-- A role is exclusive if one of its entries states it or leaves it out. -/
theorem Traces.exclusive_iff {role : PyStr} {listed : List PyStr} {state : RoleState}
    (hstate : Core.ProviderOrder.Ordered components role listed state)
    (hmem : ∀ id, id ∈ state.candidates ↔ Declares components .role role id) :
    state.exclusive = true ↔
      ∃ raw ∈ declared packages, ∃ entry ∈ raw.offers py .role role,
        (Dict.get entry "exclusive" (.bool false)).truthy = true ∨
          Dict.get? entry "exclusive" = none := by
  rw [hstate.exclusive]
  constructor
  · rintro ⟨id, hid, hexclusive⟩
    have hdeclares := (hmem id).mp hid
    have hexclusive := hexclusive.resolve_left (not_not.mpr hdeclares)
    obtain ⟨component, hcomponent, rfl⟩ := h.exists_component hdeclares
    obtain ⟨service, hservice, hkind, hname, hexclusive⟩ :=
      (h.declaredExclusive_iff hcomponent).mp hexclusive
    exact ⟨component.raw, h.mem_declared.mpr ⟨component, hcomponent, rfl⟩, service.entry,
      TracedComponent.mem_offers.mpr ⟨service, hservice, hkind, hname, rfl⟩,
      service.exclusive_iff.mp hexclusive⟩
  · rintro ⟨raw, hraw, entry, hentry, hexclusive⟩
    obtain ⟨component, hcomponent, rfl⟩ := h.mem_declared.mp hraw
    obtain ⟨service, hservice, hkind, hname, rfl⟩ := TracedComponent.mem_offers.mp hentry
    have hdeclares := (h.declares_iff hcomponent).mpr ⟨service, hservice, hkind, hname⟩
    exact ⟨component.raw.key, (hmem _).mpr hdeclares, .inr
      ((h.declaredExclusive_iff hcomponent).mpr ⟨service, hservice, hkind, hname,
        service.exclusive_iff.mpr hexclusive⟩)⟩

/-! ## Names -/

variable {stopGrace : ℕ} {planned : PlanProfile}

theorem Traces.interfaces_known {entry : Bytes × List CatalogProvider}
    (hentry : entry ∈ (NativeCatalog.contents
      (NormalizedDocument.v2 stopGrace planned ordered).plan).interfaces) :
    ∃ name ids, entry.1 = utf8 name ∧ ServedBy components name ids := by
  obtain ⟨item, hitem, provided, hprovided, hkind, hname⟩ := mem_interfaces hentry
  have hoffers : Offers ordered (planKind .interface) provided.name item.id :=
    ⟨item, hitem, rfl, provided, mem_entriesFor.mpr ⟨hprovided, hkind, rfl⟩⟩
  obtain ⟨ids, hids, -⟩ := exists_servedBy h.distinct ⟨_, h.offers_iff.mp hoffers⟩
  exact ⟨provided.name, ids, hname.symm, hids⟩

variable (hbounded : (NormalizedDocument.v2 stopGrace planned ordered).Bounded)

include hbounded

theorem Traces.text_of_declares {kind : Core.Manifest.ProvideKind} {name id : PyStr}
    (hdeclares : Declares components kind name id) : Text 128 name := by
  obtain ⟨-, -, harranged, -⟩ := hbounded
  obtain ⟨item, hitem, -, provided, hprovided⟩ := h.offers_iff.mpr hdeclares
  obtain ⟨hmem, -, rfl⟩ := mem_entriesFor.mp hprovided
  exact text_of_idRe ((harranged.bounded item hitem).provides.name provided hmem)

theorem Traces.servedBy_ranked {name : PyStr} {ids : List PyStr}
    (hids : ServedBy components name ids) : Text 128 name ∧
      ids.Pairwise (Ranks [] (declaredPriority components .interface name) id) ∧
      ∀ id, id ∈ ids ↔ Declares components .interface name id := by
  obtain ⟨provider, hprovider⟩ := declared_of_servedBy h.distinct hids
  obtain ⟨found, hfound, hranked, hmem⟩ := exists_servedBy h.distinct ⟨provider, hprovider⟩
  cases hids.symm.trans hfound
  exact ⟨h.text_of_declares hbounded hprovider,
    pairwise_append List.nodup_nil hranked fun _ _ => List.not_mem_nil, hmem⟩

/-- What a plan prefers for a role provides it. -/
theorem Traces.preferred_declares {role id : PyStr} (hid : id ∈ preferredFor planned role) :
    Declares components .role role id := by
  obtain ⟨-, -, -, hreferences⟩ := hbounded
  unfold preferredFor at hid
  cases hfind : planned.roles.find? fun preference => preference.1 == role with
  | none =>
    rw [hfind] at hid
    cases hid
  | some preference =>
    rw [hfind] at hid
    have hrole : preference.1 = role := by simpa using List.find?_some hfind
    obtain ⟨item, hitem, hkey, provided, hprovided, hkind, hname⟩ :=
      hreferences.provider preference (List.mem_of_find?_eq_some hfind) id hid
    refine h.offers_iff.mp ⟨item, hitem, hkey, provided, ?_⟩
    exact mem_entriesFor.mpr ⟨hprovided, hkind, hname.trans hrole⟩

/-! ## The services of a catalog -/

section

variable {profile : Dict} {disabled : List PyStr} {registry : RoleRegistry}
  (henabled : EnabledRoles py profile disabled components registry) {role : PyStr}
  {state : RoleState} (hstate : registry.state role = .ok state)

include henabled hstate

theorem Traces.text_of_state : ∃ maximum, Text maximum role := by
  rcases henabled.named role state hstate with hpattern | ⟨id, hdeclares⟩
  · exact ⟨_, text_of_rolePattern hpattern⟩
  · exact ⟨_, h.text_of_declares hbounded hdeclares⟩

variable (hpreferred : ∀ role, preferredFor planned role
    = (listedFor py profile role).filter fun id => (declaredKeys packages).contains id)

include hpreferred

theorem Traces.state_ranked :
    state.candidates.Pairwise (Ranks (preferredFor planned role)
        (declaredPriority components .role role) id) ∧
      ∀ id, id ∈ state.candidates ↔ Declares components .role role id :=
  h.candidates_ranked (henabled.state role state hstate).2 (hpreferred role)
    (hbounded.2.1.nodup_preferredFor role) fun _ hid => h.preferred_declares hbounded hid

theorem Traces.candidates_same : ∃ ids : List PyStr,
    (NativeCatalog.contents
        (NormalizedDocument.v2 stopGrace planned ordered).plan).roleIds (utf8 role)
        = ids.map utf8 ∧
      SameButTies (listedFor py profile role) (declaredPriority components .role role)
        (ordered.map PlanComponent.id).idxOf state.candidates ids := by
  obtain ⟨maximum, hname⟩ := h.text_of_state hbounded henabled hstate
  obtain ⟨hranked, hmem⟩ := h.state_ranked hbounded henabled hstate hpreferred
  exact ⟨_, roleIds_eq hbounded hname, h.rankedIds_same (hpreferred role) hranked hmem⟩

/-- Entries that say whether they are exclusive are read alike. -/
theorem Traces.exclusive_same (hstated : ∀ raw ∈ declared packages,
    ∀ entry ∈ raw.offers py .role role, (Dict.get? entry "exclusive").isSome) :
    (NativeCatalog.contents
        (NormalizedDocument.v2 stopGrace planned ordered).plan).roleExclusive (utf8 role)
      = state.exclusive := by
  obtain ⟨maximum, hname⟩ := h.text_of_state hbounded henabled hstate
  obtain ⟨-, hmem⟩ := h.state_ranked hbounded henabled hstate hpreferred
  have hnative := (roleExclusive_iff hbounded hname).trans h.stated_iff
  rw [Bool.eq_iff_iff, hnative, h.exclusive_iff (henabled.state role state hstate).2 hmem]
  constructor
  · rintro ⟨raw, hraw, entry, hentry, htruthy⟩
    exact ⟨raw, hraw, entry, hentry, .inl htruthy⟩
  · rintro ⟨raw, hraw, entry, hentry, htruthy | hnone⟩
    · exact ⟨raw, hraw, entry, hentry, htruthy⟩
    · have hsome := hstated raw hraw entry hentry
      rw [hnone] at hsome
      cases hsome

end

/-- A disabled role has the candidates that provide it. -/
theorem Traces.disabled_same {maximum : ℕ} {role : PyStr} (hname : Text maximum role) :
    ∃ ids : List PyStr,
      (NativeCatalog.contents
          (NormalizedDocument.v2 stopGrace planned ordered).plan).roleIds (utf8 role)
          = ids.map utf8 ∧
        ∀ id, id ∈ ids ↔ Declares components .role role id := by
  refine ⟨rankedIds ordered (planKind .role) role (preferredFor planned role), ?_, ?_⟩
  · exact roleIds_eq hbounded hname
  · intro id
    exact h.mem_rankedIds

theorem Traces.providers_same {name : PyStr} {ids : List PyStr}
    (hids : ServedBy components name ids) : ∃ ids' : List PyStr,
      (NativeCatalog.contents
          (NormalizedDocument.v2 stopGrace planned ordered).plan).interfaceIds (utf8 name)
          = ids'.map utf8 ∧
        SameButTies [] (declaredPriority components .interface name)
          (ordered.map PlanComponent.id).idxOf ids ids' := by
  obtain ⟨hname, hranked, hmem⟩ := h.servedBy_ranked hbounded hids
  exact ⟨_, interfaceIds_eq hbounded hname, h.rankedIds_same rfl hranked hmem⟩

end
/-! ## Both programs -/

/-- A plan and registries that come from the same profile and manifests. -/
structure CommonSource (py : Interpreter) (profile : Dict) (packages : List PackageSource)
    (components : RoleComponents) (registry : RoleRegistry) (stopGrace : ℕ)
    (planned : PlanProfile) (ordered : List (PlanComponent ServiceFields))
    (traced : List (TracedComponent py packages)) : Prop where
  bounded : (NormalizedDocument.v2 stopGrace planned ordered).Bounded
  traces : Traces py packages components ordered traced
  start : StartOrder py packages (ordered.map PlanComponent.id)
  preferred : ∀ role, preferredFor planned role
    = (listedFor py profile role).filter fun id => (declaredKeys packages).contains id
  enabled : EnabledRoles py profile (disabledRoles py profile) components registry
  disabled : ∀ role ∈ disabledRoles py profile, rolePattern role = true

theorem BothAccept.exists_commonSource {py : Interpreter} {profile : Dict}
    {packages : List PackageSource} {commands : List (PyStr × PyStr)} {source : RuntimeSource}
    {text : PyStr} {components : RoleComponents}
    (h : BothAccept py profile packages commands source text components) :
    ∃ registry stopGrace planned ordered traced,
      Built py profile text components registry
        (NativeCatalog.contents (NormalizedDocument.v2 stopGrace planned ordered).plan) ∧
      CommonSource py profile packages components registry stopGrace planned ordered traced := by
  obtain ⟨normalized, data, hnormalized, hdata, hparse, hbounded⟩ :=
    compileDocument_plan h.properDocument h.compiled
  obtain ⟨stopGrace, planned, ordered, rfl, hcompiled⟩ := normalizeDocument_document hnormalized
  obtain ⟨items, hitems, hordered⟩ := hcompiled.components
  obtain ⟨traced, hraws, hloaded, rfl⟩ := exists_traced h.assembled h.loaded hitems
  have hkeys : (declaredKeys packages).Nodup := (assemble_assembledFrom h.assembled).nodup
  have honce : Once ordered := fun item hitem =>
    (hbounded.2.2.1.bounded item hitem).provides.nodup
  have htraces : Traces py packages components ordered traced :=
    ⟨hkeys, hraws, hloaded, hordered.perm, honce⟩
  obtain ⟨expectedId, result, hresult⟩ := h.valid
  obtain ⟨profileRoles, disabled, hvalid⟩ := Core.ProfileContract.valid_of_ok hresult
  obtain ⟨roles, hbuild, hregistry⟩ := fromProfile_of_valid hvalid components
  have hdisabled : disabledRoles py profile = disabled := disabledRoles_of_valid hvalid
  have hcatalog := bind_eq_ok.mpr ⟨_, hparse, hbounded.consistent.build⟩
  refine ⟨RoleRegistry.ofRoles roles, stopGrace, planned, ordered, traced,
    ⟨hregistry, data, hdata, hcatalog⟩, hbounded, htraces, htraces.startOrder hordered, ?_, ?_, ?_⟩
  · exact preferredFor_eq hvalid h.properProfile h.assembled hcompiled.roles
      hbounded.2.1.roles.nodup
  · rw [hdisabled]
    exact enabledRoles hvalid htraces.distinct hbuild
  · rw [hdisabled]
    exact hvalid.disabled

/-- Where both programs accept a profile and manifests, the native catalog has the candidates of
the registries in their order, but for ties, which are in the start order; the components that
provide a disabled role are candidates of it as of any other. -/
theorem nativeCatalog_keeps (py : Interpreter) (profile : Dict) (packages : List PackageSource)
    (commands : List (PyStr × PyStr)) (source : RuntimeSource) (text : PyStr)
    (components : RoleComponents)
    (h : BothAccept py profile packages commands source text components) :
    ∃ registry catalog order, Built py profile text components registry catalog ∧
      StartOrder py packages order ∧
      Keeps py profile packages components registry catalog order := by
  obtain ⟨registry, stopGrace, planned, ordered, traced, hbuilt, hsource⟩ := h.exists_commonSource
  have htraces := hsource.traces
  refine ⟨registry, _, _, hbuilt, hsource.start, ?_⟩
  constructor
  · exact fun role state hstate =>
      htraces.candidates_same hsource.bounded hsource.enabled hstate hsource.preferred
  · exact fun role state hstate hstated =>
      htraces.exclusive_same hsource.bounded hsource.enabled hstate hsource.preferred hstated
  · exact fun name ids hids => htraces.providers_same hsource.bounded hids
  · exact fun entry hentry => htraces.interfaces_known hentry
  · intro role hrole
    have hname := text_of_rolePattern (hsource.disabled role hrole)
    exact htraces.disabled_same hsource.bounded hname

/-! ## Where they differ -/

/-- A component that provides the role of a shell. -/
def shellComponent (id : String) (after : List String) : Json :=
  .dict (record
    [("id", text id), ("exec", .list [text "/bin/shell"]), ("lifecycle", text "background"),
      ("after", .list (after.map text)),
      ("provides", .list [.dict (record [("role", text "shell"), ("exclusive", .bool true)])])])

def shellPackage (components : List Json) : PackageSource where
  path := lit "manifest.json"
  root := .parse (lit "/srv/a")
  manifest := record
    [("schema", text "msys.manifest.v1"),
      ("package", .dict (record [("id", text "org.a"), ("version", text "1")])),
      ("components", .list components)]

def shellProfile (disabled : List String) : Dict :=
  record [("schema", text "msys.profile.v1"), ("id", text "p"), ("roles", .dict []),
    ("disabled_roles", .list (disabled.map text)), ("startup", .list [text "org.a:x"])]

/-- Runs both programs. -/
theorem exists_built (profile : Dict) (packages : List PackageSource)
    (check : RoleRegistry → NativeCatalog → Bool)
    (hvalid : (validateProfile bareInterpreter (.dict profile) none).isOk)
    (hproper : proper (.dict profile) = true)
    (hrun : ((assemble bareInterpreter profile packages []).toOption.bind fun source =>
      (compileDocument bareInterpreter source.document).toOption.bind fun text =>
      (loadServices bareInterpreter packages).toOption.bind fun components =>
      (utf8Encode text).toOption.bind fun data => (nativeCatalog data).toOption.bind fun catalog =>
      (RoleRegistry.fromProfile bareInterpreter components profile).toOption.map fun registry =>
        (proper source.document, check registry catalog)) = some (true, true)) :
    ∃ source text components registry catalog,
      BothAccept bareInterpreter profile packages [] source text components ∧
      Built bareInterpreter profile text components registry catalog ∧
      check registry catalog = true := by
  obtain ⟨source, hsource, hrun⟩ := Option.bind_eq_some_iff.mp hrun
  obtain ⟨text, htext, hrun⟩ := Option.bind_eq_some_iff.mp hrun
  obtain ⟨components, hcomponents, hrun⟩ := Option.bind_eq_some_iff.mp hrun
  obtain ⟨data, hdata, hrun⟩ := Option.bind_eq_some_iff.mp hrun
  obtain ⟨catalog, hcatalog, hrun⟩ := Option.bind_eq_some_iff.mp hrun
  obtain ⟨registry, hregistry, hresult⟩ := Option.map_eq_some_iff.mp hrun
  obtain ⟨hdocument, hcheck⟩ := Prod.mk.inj hresult
  have hboth : BothAccept bareInterpreter profile packages [] source text components :=
    ⟨⟨none, returns_of_isOk hvalid⟩, hproper, toOption_eq_some.mp hsource, hdocument,
      toOption_eq_some.mp htext, toOption_eq_some.mp hcomponents⟩
  exact ⟨source, text, components, registry, catalog, hboth,
    ⟨toOption_eq_some.mp hregistry, data, toOption_eq_some.mp hdata,
      toOption_eq_some.mp hcatalog⟩, hcheck⟩

/-- Two shells, the first of which starts after the second. -/
theorem nativeCatalog_keeps_shells :
    let packages := [shellPackage [shellComponent "x" ["org.a:y"], shellComponent "y" []]]
    ∃ components registry catalog order,
      loadServices bareInterpreter packages = .ok components ∧
      StartOrder bareInterpreter packages order ∧
      Keeps bareInterpreter (shellProfile []) packages components registry catalog order := by
  intro packages
  obtain ⟨source, text, components, -, -, hboth, -, -⟩ := exists_built (shellProfile []) packages
    (fun _ _ => true) (by decide +kernel) (by decide +kernel) (by decide +kernel)
  obtain ⟨registry, catalog, order, -, hstart, hkeeps⟩ :=
    nativeCatalog_keeps bareInterpreter (shellProfile []) packages [] source text components hboth
  exact ⟨components, registry, catalog, order, hboth.loaded, hstart, hkeeps⟩

/-- A catalog that does not refine the registries. -/
def Diverges (profile : Dict) (packages : List PackageSource) : Prop :=
  ∃ source text components registry catalog,
    BothAccept bareInterpreter profile packages [] source text components ∧
    Built bareInterpreter profile text components registry catalog ∧
    ¬Refines components registry (disabledRoles bareInterpreter profile) catalog

/-- The candidates of the shell in a registry. -/
def shellCandidates (registry : RoleRegistry) : Option (List Bytes) :=
  (registry.state (lit "shell")).toOption.map fun state => state.candidates.map utf8

theorem Refines.shellCandidates {components : RoleComponents} {registry : RoleRegistry}
    {disabled : List PyStr} {catalog : NativeCatalog}
    (h : Refines components registry disabled catalog) {ids : List Bytes}
    (hids : shellCandidates registry = some ids) :
    catalog.roleIds (utf8 (lit "shell")) = ids := by
  obtain ⟨state, hstate, rfl⟩ := Option.map_eq_some_iff.mp hids
  exact h.candidates (lit "shell") state (toOption_eq_some.mp hstate)

/-- Shells that tie are in the order of their starts; a disabled role has a provider. -/
theorem nativeCatalog_diverges :
    Diverges (shellProfile []) [shellPackage [shellComponent "x" ["org.a:y"],
      shellComponent "y" []]] ∧
    Diverges (shellProfile ["shell"]) [shellPackage [shellComponent "x" []]] := by
  constructor
  · obtain ⟨source, text, components, registry, catalog, hboth, hbuilt, hcheck⟩ := exists_built
      (shellProfile []) [shellPackage [shellComponent "x" ["org.a:y"], shellComponent "y" []]]
      (fun registry catalog =>
        shellCandidates registry == some [utf8 (lit "org.a:x"), utf8 (lit "org.a:y")] &&
          catalog.roleIds (utf8 (lit "shell")) == [utf8 (lit "org.a:y"), utf8 (lit "org.a:x")])
      (by decide +kernel) (by decide +kernel) (by decide +kernel)
    obtain ⟨hregistry, hcatalog⟩ := Bool.and_eq_true_iff.mp hcheck
    refine ⟨source, text, components, registry, catalog, hboth, hbuilt, fun hrefines => ?_⟩
    have hsame := hrefines.shellCandidates (eq_of_beq hregistry)
    exact absurd (hsame.symm.trans (eq_of_beq hcatalog)) (by decide)
  · obtain ⟨source, text, components, registry, catalog, hboth, hbuilt, hcheck⟩ := exists_built
      (shellProfile ["shell"]) [shellPackage [shellComponent "x" []]]
      (fun _ catalog => !(catalog.roleIds (utf8 (lit "shell"))).isEmpty)
      (by decide +kernel) (by decide +kernel) (by decide +kernel)
    refine ⟨source, text, components, registry, catalog, hboth, hbuilt, fun hrefines => ?_⟩
    have hdisabled : lit "shell" ∈ disabledRoles bareInterpreter (shellProfile ["shell"]) := by
      decide +kernel
    have hempty := hrefines.disabled (lit "shell") hdisabled
    rw [hempty] at hcheck
    cases hcheck

end MsysCore.Native
