import Mathlib.Data.Prod.Lex
import MsysCore.Lib.Ranking
import MsysCore.Native.PlanRoundTrip

/-!
# The order of a native catalog

A catalog keeps the candidates of a service by the indices of their components. By ids their order
is a ranking: the profile first, then the priority, then the place in the plan.
-/

namespace MsysCore.Native

open Python PlanSource PlanOrder Ranking

/-! ## Lookups -/

/-- The first entry with a key is the one that the dictionary has for it. -/
theorem find_entry {κ α : Type} [DecidableEq κ] [BEq κ] [LawfulBEq κ] (table : List (κ × α))
    (name : κ) : table.find? (fun entry => entry.1 == name)
      = (OrderedDict.get table name).map fun value => (name, value) := by
  induction table with
  | nil => rfl
  | cons entry table ih =>
    obtain ⟨key, value⟩ := entry
    rw [List.find?_cons, OrderedDict.get, ih]
    by_cases h : key = name
    · subst h
      simp
    · have hne : (key == name) = false := beq_false_of_ne h
      simp [h, hne]

namespace NativeCatalog

variable (catalog : NativeCatalog)

/-- The id of the component of a provider. -/
def idOf (provider : CatalogProvider) : Bytes :=
  (catalog.plan.components[provider.componentIndex]?.map ComponentPlan.id).getD []

def roleCandidates (name : Bytes) : List CatalogProvider :=
  ((catalog.role name).map CatalogRole.candidates).getD []

def interfaceCandidates (name : Bytes) : List CatalogProvider :=
  (catalog.interfaceProviders name).getD []

def roleIds (name : Bytes) : List Bytes := (catalog.roleCandidates name).map catalog.idOf

/-- A role is exclusive if any of its candidates is. -/
def roleExclusive (name : Bytes) : Bool :=
  (catalog.roleCandidates name).any CatalogProvider.exclusive

def interfaceIds (name : Bytes) : List Bytes := (catalog.interfaceCandidates name).map catalog.idOf

variable {plan : RuntimePlan}

theorem contents_roleCandidates (plan : RuntimePlan) (name : Bytes) :
    (contents plan).roleCandidates name
      = sorted providerLess (candidatesOf (rolesFrom plan 0 plan.components) name) := by
  unfold roleCandidates
  by_cases h : candidatesOf (rolesFrom plan 0 plan.components) name = []
  · have hget := get_pushEntries (rolesFrom plan 0 plan.components) [] name
    rw [if_pos h] at hget
    have hnone : (contents plan).role name = none := by
      refine List.find?_eq_none.mpr fun role hrole => ?_
      obtain ⟨entry, hentry, rfl⟩ := List.mem_map.mp (mem_sorted.mp hrole)
      intro heq
      have hkey := List.mem_map_of_mem (f := Prod.fst) hentry
      rw [show entry.1 = name by simpa using heq] at hkey
      exact OrderedDict.get_eq_none_iff.mp hget hkey
    rw [hnone, h]
    rfl
  · rw [contents_role h]
    rfl

theorem contents_interfaceCandidates (plan : RuntimePlan) (name : Bytes) :
    (contents plan).interfaceCandidates name
      = sorted providerLess (candidatesOf (interfacesFrom 0 plan.components) name) := by
  have hget := get_pushEntries (interfacesFrom 0 plan.components) [] name
  unfold interfaceCandidates interfaceProviders contents ofTables
  rw [List.find?_map]
  have hsame : ((fun entry : Bytes × List CatalogProvider => entry.1 == name) ∘
      fun entry : Bytes × List CatalogProvider => (entry.1, sorted providerLess entry.2))
        = fun entry => entry.1 == name := rfl
  rw [hsame, find_entry, hget]
  by_cases h : candidatesOf (interfacesFrom 0 plan.components) name = []
  · rw [if_pos h, h]
    rfl
  · rw [if_neg h]
    rfl

end NativeCatalog

/-! ## The comparison -/

/-- What `provider_less` compares, from the first to the last. -/
def rankKey (provider : CatalogProvider) : ℕ ×ₗ ℕ ×ₗ ℕᵒᵈ ×ₗ ℕ :=
  toLex (if provider.profilePreferred then 0 else 1,
    toLex (if provider.profilePreferred then provider.profileRank else 0,
      toLex (OrderDual.toDual provider.priority, provider.componentIndex)))

theorem providerLess_iff {left right : CatalogProvider} :
    providerLess left right = true ↔ rankKey left < rankKey right := by
  unfold providerLess rankKey
  simp only [Prod.Lex.toLex_lt_toLex, OrderDual.toDual_lt_toDual, OrderDual.toDual_inj]
  cases left.profilePreferred <;> cases right.profilePreferred <;> simp
  · split_ifs with h <;> omega
  · split_ifs with h h' <;> omega

/-- Sorted candidates ascend if no two of them have one component. -/
theorem pairwise_sorted {candidates : List CatalogProvider}
    (hdistinct : candidates.Pairwise fun a b => a.componentIndex ≠ b.componentIndex) :
    (sorted providerLess candidates).Pairwise fun a b => rankKey a < rankKey b := by
  have hle : ∀ left right : CatalogProvider,
      providerLess right left = false ↔ rankKey left ≤ rankKey right := by
    intro left right
    rw [← not_lt, ← providerLess_iff, Bool.not_eq_true]
  let before (left right : CatalogProvider) : Prop := providerLess right left = false
  have htotal : Std.Total before := ⟨fun a b => by
    unfold before
    rw [hle, hle]
    exact le_total _ _⟩
  have htrans : IsTrans CatalogProvider before := ⟨fun a b c hab hbc => by
    unfold before at hab hbc ⊢
    rw [hle] at hab hbc ⊢
    exact hab.trans hbc⟩
  have hsorted := List.pairwise_insertionSort before candidates
  have hsymm : Std.Symm fun a b : CatalogProvider => a.componentIndex ≠ b.componentIndex :=
    ⟨fun _ _ h => h.symm⟩
  have hperm := List.perm_insertionSort before candidates
  have hindices := (hperm.pairwise_iff fun {a b} (h : a.componentIndex ≠ b.componentIndex) =>
    h.symm).mpr hdistinct
  refine (hsorted.and hindices).imp fun {a b} hab => ?_
  refine lt_of_le_of_ne ((hle a b).mp hab.1) fun heq => hab.2 ?_
  have hlast := congrArg (fun key => (ofLex (ofLex (ofLex key).2).2).2) heq
  exact hlast

/-! ## The candidates of a plan -/

/-- The candidate that a component is for a service it provides, if the profile prefers
`preferred` for it. -/
def rankedProvider (preferred : List PyStr) (index : ℕ) (id : PyStr) (provided : PlanProvide) :
    CatalogProvider where
  componentIndex := index
  priority := provided.priority
  exclusive := provided.exclusive
  profilePreferred := decide (id ∈ preferred)
  profileRank := if id ∈ preferred then preferred.idxOf id else 0

/-- The entries of a component for a service. -/
def entriesFor (kind : ProvideKind) (name : PyStr) (item : PlanComponent ServiceFields) :
    List PlanProvide :=
  item.fields.provides.filter fun provided => provided.kind == kind && provided.name == name

/-- The candidates of a service in the order of the components. -/
def rankedProviders (kind : ProvideKind) (name : PyStr) (preferred : List PyStr)
    (ordered : List (PlanComponent ServiceFields)) : List CatalogProvider :=
  ordered.zipIdx.flatMap fun item =>
    (entriesFor kind name item.1).map (rankedProvider preferred item.2 item.1.id)

section

variable {ordered : List (PlanComponent ServiceFields)} {kind : ProvideKind} {name : PyStr}
  {preferred : List PyStr}

theorem mem_entriesFor {item : PlanComponent ServiceFields} {provided : PlanProvide} :
    provided ∈ entriesFor kind name item ↔
      provided ∈ item.fields.provides ∧ provided.kind = kind ∧ provided.name = name := by
  simp [entriesFor]

/-- Some component with the id provides the service. -/
def Offers (ordered : List (PlanComponent ServiceFields)) (kind : ProvideKind) (name id : PyStr) :
    Prop :=
  ∃ item ∈ ordered, item.id = id ∧ ∃ provided, provided ∈ entriesFor kind name item

theorem mem_rankedProviders {candidate : CatalogProvider} :
    candidate ∈ rankedProviders kind name preferred ordered ↔
      ∃ index item provided, ordered[index]? = some item ∧ provided ∈ entriesFor kind name item ∧
        candidate = rankedProvider preferred index item.id provided := by
  unfold rankedProviders
  rw [List.mem_flatMap]
  constructor
  · rintro ⟨⟨item, index⟩, hitem, hcandidate⟩
    obtain ⟨provided, hprovided, rfl⟩ := List.mem_map.mp hcandidate
    exact ⟨index, item, provided, List.mem_zipIdx_iff_getElem?.mp hitem, hprovided, rfl⟩
  · rintro ⟨index, item, provided, hindex, hprovided, rfl⟩
    exact ⟨(item, index), List.mem_zipIdx_iff_getElem?.mpr hindex,
      List.mem_map_of_mem hprovided⟩

/-- No component provides a service twice. -/
def Once (ordered : List (PlanComponent ServiceFields)) : Prop :=
  ∀ item ∈ ordered, (item.fields.provides.map fun provided => (provided.kind, provided.name)).Nodup

theorem pairwise_entriesFor {item : PlanComponent ServiceFields}
    (h : (item.fields.provides.map fun provided => (provided.kind, provided.name)).Nodup)
    (r : PlanProvide → PlanProvide → Prop) : (entriesFor kind name item).Pairwise r := by
  have hdistinct := (List.pairwise_map.mp h).filter fun provided : PlanProvide =>
    provided.kind == kind && provided.name == name
  refine hdistinct.imp_of_mem fun {a b} ha hb hne => absurd ?_ hne
  obtain ⟨-, hkind, hname⟩ := mem_entriesFor.mp ha
  obtain ⟨-, hkind', hname'⟩ := mem_entriesFor.mp hb
  rw [hkind, hname, hkind', hname']

theorem pairwise_rankedProviders (h : Once ordered) :
    (rankedProviders kind name preferred ordered).Pairwise fun a b =>
      a.componentIndex ≠ b.componentIndex := by
  refine List.pairwise_flatMap.mpr ⟨?_, ?_⟩
  · rintro ⟨item, index⟩ hitem
    have hin : item ∈ ordered := (List.mem_zipIdx' hitem).2 ▸ List.getElem_mem _
    exact List.pairwise_map.mpr (pairwise_entriesFor (h item hin) _)
  · have hindices : (ordered.zipIdx.map Prod.snd).Nodup := by
      rw [List.zipIdx_map_snd]
      exact List.nodup_range'
    refine (List.pairwise_map.mp hindices).imp fun {a b} hne x hx y hy => ?_
    obtain ⟨provided, -, rfl⟩ := List.mem_map.mp hx
    obtain ⟨provided', -, rfl⟩ := List.mem_map.mp hy
    exact hne

/-- The ids of sorted candidates. -/
def rankedIds (ordered : List (PlanComponent ServiceFields)) (kind : ProvideKind) (name : PyStr)
    (preferred : List PyStr) : List PyStr :=
  (sorted providerLess (rankedProviders kind name preferred ordered)).map fun candidate =>
    (ordered[candidate.componentIndex]?.map PlanComponent.id).getD []

theorem mem_rankedIds {id : PyStr} :
    id ∈ rankedIds ordered kind name preferred ↔ Offers ordered kind name id := by
  unfold rankedIds Offers
  rw [List.mem_map]
  constructor
  · rintro ⟨candidate, hcandidate, rfl⟩
    obtain ⟨index, item, provided, hindex, hprovided, rfl⟩ :=
      mem_rankedProviders.mp (mem_sorted.mp hcandidate)
    exact ⟨item, List.mem_of_getElem? hindex, by simp [rankedProvider, hindex], provided, hprovided⟩
  · rintro ⟨item, hitem, rfl, provided, hprovided⟩
    obtain ⟨index, hindex⟩ := List.mem_iff_getElem?.mp hitem
    exact ⟨_, mem_sorted.mpr (mem_rankedProviders.mpr ⟨index, item, provided, hindex, hprovided,
      rfl⟩), by simp [rankedProvider, hindex]⟩

/-- By ids the candidates are ranked by the preferences of the profile, the priorities they state
and the places of their components. -/
theorem pairwise_rankedIds (hunique : (ordered.map PlanComponent.id).Nodup) (honce : Once ordered)
    {priority : PyStr → ℤ}
    (hpriority : ∀ item ∈ ordered, ∀ provided ∈ entriesFor kind name item,
      (provided.priority : ℤ) = priority item.id) :
    (rankedIds ordered kind name preferred).Pairwise
      (Ranks preferred priority (ordered.map PlanComponent.id).idxOf) := by
  have hplace : ∀ index item, ordered[index]? = some item →
      (ordered.map PlanComponent.id).idxOf item.id = index := by
    intro index item hindex
    obtain ⟨hlt, rfl⟩ := List.getElem?_eq_some_iff.mp hindex
    have hbound : index < (ordered.map PlanComponent.id).length := by rwa [List.length_map]
    have hget := hunique.idxOf_getElem index hbound
    rwa [List.getElem_map] at hget
  refine List.pairwise_map.mpr ?_
  refine (pairwise_sorted (pairwise_rankedProviders honce)).imp_of_mem ?_
  intro a b ha hb hab
  obtain ⟨i, item, provided, hi, hprovided, rfl⟩ := mem_rankedProviders.mp (mem_sorted.mp ha)
  obtain ⟨j, other, provided', hj, hprovided', rfl⟩ := mem_rankedProviders.mp (mem_sorted.mp hb)
  have hfirst := hpriority item (List.mem_of_getElem? hi) provided hprovided
  have hsecond := hpriority other (List.mem_of_getElem? hj) provided' hprovided'
  simp only [rankedProvider, hi, hj, Option.map_some, Option.getD_some]
  unfold Ranks
  rw [← hfirst, ← hsecond]
  beta_reduce
  rw [hplace i item hi, hplace j other hj]
  unfold rankKey rankedProvider at hab
  simp only [Prod.Lex.toLex_lt_toLex, OrderDual.toDual_lt_toDual, OrderDual.toDual_inj,
    decide_eq_true_eq] at hab
  by_cases hmem : item.id ∈ preferred
  · have hlt := List.idxOf_lt_length_of_mem hmem
    by_cases hmem' : other.id ∈ preferred
    · simp only [hmem, hmem', if_true, lt_irrefl, false_or, true_and] at hab
      omega
    · rw [List.idxOf_eq_length_iff.mpr hmem']
      exact .inl hlt
  · by_cases hmem' : other.id ∈ preferred
    · simp [hmem, hmem'] at hab
    · simp only [hmem, hmem', if_false, lt_irrefl, false_or, true_and] at hab
      rw [List.idxOf_eq_length_iff.mpr hmem, List.idxOf_eq_length_iff.mpr hmem']
      omega

end

/-! ## The candidates of a compiled plan -/

/-- The components that a profile prefers for a role. -/
def preferredFor (profile : PlanProfile) (name : PyStr) : List PyStr :=
  ((profile.roles.find? fun preference => preference.1 == name).map Prod.snd).getD []

theorem PlanSource.PlanProfile.Bounded.nodup_preferredFor {profile : PlanProfile}
    (h : profile.Bounded) (name : PyStr) : (preferredFor profile name).Nodup := by
  unfold preferredFor
  cases hfind : profile.roles.find? fun preference => preference.1 == name with
  | none => exact List.nodup_nil
  | some preference =>
    exact (h.roles.providers preference (List.mem_of_find?_eq_some hfind)).nodup

theorem idxOf?_map_utf8 {ids : List PyStr} {id : PyStr} (hids : ∀ id ∈ ids, idRe id = true)
    (hid : idRe id = true) :
    (ids.map utf8).idxOf? (utf8 id) = if id ∈ ids then some (ids.idxOf id) else none := by
  induction ids with
  | nil => rfl
  | cons first ids ih =>
    obtain ⟨hfirst, hrest⟩ := List.forall_mem_cons.mp hids
    rw [List.map_cons, List.idxOf?_cons, ih hrest]
    by_cases heq : first = id
    · simp [heq]
    · have hne : utf8 first ≠ utf8 id := fun h => heq (utf8_inj_of_idRe hfirst hid h)
      by_cases hmem : id ∈ ids
      · simp [heq, Ne.symm heq, hne, hmem, List.idxOf_cons_ne]
      · simp [Ne.symm heq, hne, hmem]

section

variable {stopGrace : ℕ} {profile : PlanProfile} {ordered : List (PlanComponent ServiceFields)}
  {name : PyStr} {maximum : ℕ}

theorem preferenceRank_plan (hprofile : profile.Bounded) {plan : RuntimePlan}
    (hplan : plan.rolePreferences = profile.roles.map rolePlan) (hname : Text maximum name)
    {id : PyStr} (hid : idRe id = true) :
    preferenceRank plan (utf8 name) (utf8 id) =
      if id ∈ preferredFor profile name then some ((preferredFor profile name).idxOf id)
      else none := by
  have hfind : (profile.roles.map rolePlan).find? (fun preference => preference.role == utf8 name)
      = (profile.roles.find? fun preference => preference.1 == name).map rolePlan := by
    rw [List.find?_map]
    congr 1
    refine List.find?_congr fun preference hpreference => ?_
    have hrole := hprofile.roles.role preference hpreference
    rw [Bool.eq_iff_iff]
    simp only [Function.comp_apply, rolePlan, beq_iff_eq]
    exact (text_of_idRe hrole).utf8_inj hname
  unfold preferenceRank preferredFor
  rw [hplan, hfind]
  cases hfound : profile.roles.find? fun preference => preference.1 == name with
  | none => rfl
  | some preference =>
    have hmem := List.mem_of_find?_eq_some hfound
    exact idxOf?_map_utf8 (hprofile.roles.providers preference hmem).id hid

theorem roleCandidate_plan (hprofile : profile.Bounded) {plan : RuntimePlan}
    (hplan : plan.rolePreferences = profile.roles.map rolePlan) {provided : PlanProvide}
    (hname : Text maximum provided.name) (index : ℕ) {id : PyStr} (hid : idRe id = true) :
    roleCandidate plan index (utf8 id) (providePlan provided)
      = rankedProvider (preferredFor profile provided.name) index id provided := by
  have hrank := preferenceRank_plan hprofile hplan hname hid
  unfold roleCandidate rankedProvider
  simp only [providePlan, hrank]
  by_cases hmem : id ∈ preferredFor profile provided.name <;> simp [hmem]

/-- The entries of a name, after the names are encoded. -/
theorem entries_utf8 (kind : ProvideKind) (hname : Text maximum name)
    {item : PlanComponent ServiceFields} (hprovides : Provides item.fields.provides)
    (candidate : ProvidePlan → CatalogProvider) :
    candidatesOf ((((planV2 item).provides.filter fun provided => provided.kind == kind)).map
        fun provided => (provided.name, candidate provided)) (utf8 name)
      = (entriesFor kind name item).map fun provided => candidate (providePlan provided) := by
  have hsame : ∀ provided ∈ item.fields.provides,
      (utf8 provided.name == utf8 name && provided.kind == kind)
        = (provided.kind == kind && provided.name == name) := by
    intro provided hprovided
    rw [Bool.and_comm]
    congr 1
    rw [Bool.eq_iff_iff, beq_iff_eq, beq_iff_eq]
    exact (text_of_idRe (hprovides.name provided hprovided)).utf8_inj hname
  show candidatesOf (((item.fields.provides.map providePlan).filter _).map _) _ = _
  unfold candidatesOf entriesFor
  rw [List.filter_map, List.filter_map, List.filter_map, List.map_map, List.map_map,
    List.filter_filter]
  congr 1
  exact List.filter_congr hsame

theorem candidatesOf_roles (hbounded : (NormalizedDocument.v2 stopGrace profile ordered).Bounded)
    (hname : Text maximum name) :
    candidatesOf (rolesFrom (NormalizedDocument.v2 stopGrace profile ordered).plan 0
        (NormalizedDocument.v2 stopGrace profile ordered).plan.components) (utf8 name)
      = rankedProviders .role name (preferredFor profile name) ordered := by
  obtain ⟨-, hprofile, harranged, -⟩ := hbounded
  let plan := (NormalizedDocument.v2 stopGrace profile ordered).plan
  have hcomponents : plan.components = ordered.map planV2 := rfl
  show candidatesOf (rolesFrom plan 0 plan.components) _ = _
  unfold rolesFrom rankedProviders
  rw [hcomponents, List.zipIdx_map, List.flatMap_map]
  unfold candidatesOf
  rw [List.filter_flatMap, List.map_flatMap]
  refine List.flatMap_congr fun ⟨item, index⟩ hitem => ?_
  have hin : item ∈ ordered := (List.mem_zipIdx' hitem).2 ▸ List.getElem_mem _
  have hentries := entries_utf8 .role hname (harranged.bounded item hin).provides
    (roleCandidate plan index (utf8 item.id))
  refine hentries.trans (List.map_congr_left fun provided hprovided => ?_)
  obtain ⟨-, -, rfl⟩ := mem_entriesFor.mp hprovided
  exact roleCandidate_plan hprofile rfl hname index (harranged.named item hin).id

theorem candidatesOf_interfaces
    (hbounded : (NormalizedDocument.v2 stopGrace profile ordered).Bounded)
    (hname : Text maximum name) :
    candidatesOf (interfacesFrom 0
        (NormalizedDocument.v2 stopGrace profile ordered).plan.components) (utf8 name)
      = rankedProviders .interface name [] ordered := by
  obtain ⟨-, -, harranged, -⟩ := hbounded
  have hcomponents : (NormalizedDocument.v2 stopGrace profile ordered).plan.components
      = ordered.map planV2 := rfl
  unfold interfacesFrom rankedProviders
  rw [hcomponents, List.zipIdx_map, List.flatMap_map]
  unfold candidatesOf
  rw [List.filter_flatMap, List.map_flatMap]
  refine List.flatMap_congr fun ⟨item, index⟩ hitem => ?_
  have hin : item ∈ ordered := (List.mem_zipIdx' hitem).2 ▸ List.getElem_mem _
  have hentries := entries_utf8 .interface hname (harranged.bounded item hin).provides
    (fun provided => ⟨index, provided.priority, provided.exclusive, false, 0⟩)
  exact hentries.trans (List.map_congr_left fun provided _ => by simp [rankedProvider, providePlan])

/-- Sorted candidates under the ids of their components. -/
theorem map_idOf (kind : ProvideKind) (name : PyStr) (preferred : List PyStr) :
    (sorted providerLess (rankedProviders kind name preferred ordered)).map
        (NativeCatalog.contents (NormalizedDocument.v2 stopGrace profile ordered).plan).idOf
      = (rankedIds ordered kind name preferred).map utf8 := by
  unfold rankedIds
  rw [List.map_map]
  refine List.map_congr_left fun candidate hcandidate => ?_
  obtain ⟨index, item, provided, hindex, -, rfl⟩ :=
    mem_rankedProviders.mp (mem_sorted.mp hcandidate)
  have hplan : (NativeCatalog.contents
      (NormalizedDocument.v2 stopGrace profile ordered).plan).plan.components
      = ordered.map planV2 := rfl
  unfold NativeCatalog.idOf
  rw [hplan, List.getElem?_map]
  simp only [rankedProvider, Function.comp_apply, hindex, Option.map_some, Option.getD_some]
  rfl

/-- An interface of the catalog is one that a component provides. -/
theorem mem_interfaces {entry : Bytes × List CatalogProvider}
    (h : entry ∈ (NativeCatalog.contents
      (NormalizedDocument.v2 stopGrace profile ordered).plan).interfaces) :
    ∃ item ∈ ordered, ∃ provided ∈ item.fields.provides, provided.kind = .interface ∧
      utf8 provided.name = entry.1 := by
  let entries := interfacesFrom 0 (NormalizedDocument.v2 stopGrace profile ordered).plan.components
  obtain ⟨found, hfound, rfl⟩ := List.mem_map.mp h
  have hget := get_pushEntries entries [] found.1
  obtain ⟨value, hvalue⟩ := OrderedDict.exists_get_of_mem_keys
    (List.mem_map_of_mem (f := Prod.fst) hfound)
  have hcandidates : candidatesOf entries found.1 ≠ [] := by
    intro hnone
    rw [if_pos hnone] at hget
    cases hget.symm.trans hvalue
  obtain ⟨candidate, hcandidate⟩ := List.exists_mem_of_ne_nil _ hcandidates
  obtain ⟨pair, hpair, -⟩ := List.mem_map.mp hcandidate
  obtain ⟨hpair, hname⟩ := List.mem_filter.mp hpair
  obtain ⟨⟨component, index⟩, hitem, hentry⟩ := List.mem_flatMap.mp hpair
  have hcomponent : component ∈ ordered.map planV2 :=
    (List.mem_zipIdx' hitem).2 ▸ List.getElem_mem _
  obtain ⟨item, hordered, rfl⟩ := List.mem_map.mp hcomponent
  obtain ⟨planned, hplanned, rfl⟩ := List.mem_map.mp hentry
  obtain ⟨hplanned, hkind⟩ := List.mem_filter.mp hplanned
  obtain ⟨provided, hprovided, rfl⟩ := List.mem_map.mp hplanned
  exact ⟨item, hordered, provided, hprovided, beq_iff_eq.mp hkind, beq_iff_eq.mp hname⟩

variable (hbounded : (NormalizedDocument.v2 stopGrace profile ordered).Bounded)
  (hname : Text maximum name)

include hbounded hname

theorem roleIds_eq :
    (NativeCatalog.contents (NormalizedDocument.v2 stopGrace profile ordered).plan).roleIds
        (utf8 name)
      = (rankedIds ordered .role name (preferredFor profile name)).map utf8 := by
  rw [NativeCatalog.roleIds, NativeCatalog.contents_roleCandidates,
    candidatesOf_roles hbounded hname, map_idOf]

theorem interfaceIds_eq :
    (NativeCatalog.contents (NormalizedDocument.v2 stopGrace profile ordered).plan).interfaceIds
        (utf8 name)
      = (rankedIds ordered .interface name []).map utf8 := by
  rw [NativeCatalog.interfaceIds, NativeCatalog.contents_interfaceCandidates,
    candidatesOf_interfaces hbounded hname, map_idOf]

theorem roleExclusive_iff :
    (NativeCatalog.contents (NormalizedDocument.v2 stopGrace profile ordered).plan).roleExclusive
        (utf8 name) = true ↔
      ∃ item ∈ ordered, ∃ provided ∈ entriesFor .role name item, provided.exclusive = true := by
  rw [NativeCatalog.roleExclusive, NativeCatalog.contents_roleCandidates,
    candidatesOf_roles hbounded hname, List.any_eq_true]
  constructor
  · rintro ⟨candidate, hcandidate, hexclusive⟩
    obtain ⟨index, item, provided, hindex, hprovided, rfl⟩ :=
      mem_rankedProviders.mp (mem_sorted.mp hcandidate)
    exact ⟨item, List.mem_of_getElem? hindex, provided, hprovided, hexclusive⟩
  · rintro ⟨item, hitem, provided, hprovided, hexclusive⟩
    obtain ⟨index, hindex⟩ := List.mem_iff_getElem?.mp hitem
    exact ⟨_, mem_sorted.mpr (mem_rankedProviders.mpr ⟨index, item, provided, hindex, hprovided,
      rfl⟩), hexclusive⟩

end

end MsysCore.Native
