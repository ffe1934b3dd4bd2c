import MsysCore.Native.CatalogRefinement

/-!
# Where the native catalog and the registries agree

The native catalog says the same as the registries exactly when no component provides a disabled
role, no role is exclusive by the default of `exclusive` alone, and components that tie start in
the order of their ids.
-/

namespace MsysCore.Native

open Python PlanSource LeastOrder Ranking
open PlanOrder (PlanComponent)
open Core (RoleComponents RoleRegistry RoleState)
open Core.ProviderOrder (Declares declaredPriority)

def statedPriority (py : Interpreter) (entry : Dict) : Except PyError ℤ :=
  toInt py (Dict.get entry "priority" (.int 0))

/-- Components that are not listed and tie for a service start in the order of their ids. -/
def TiesById (py : Interpreter) (packages : List PackageSource)
    (kind : Core.Manifest.ProvideKind) (name : PyStr) (listed : List PyStr) : Prop :=
  ∀ first ∈ declared packages, ∀ second ∈ declared packages,
    first.key ∉ listed → second.key ∉ listed → first.key < second.key →
    ∀ entry ∈ first.offers py kind name, ∀ other ∈ second.offers py kind name,
      statedPriority py entry = statedPriority py other →
      ∀ order, StartOrder py packages order → order.idxOf first.key < order.idxOf second.key

/-- If an entry for the role leaves `exclusive` out, some entry for it states it. -/
def StatesExclusive (py : Interpreter) (packages : List PackageSource) (role : PyStr) : Prop :=
  ∀ raw ∈ declared packages, ∀ entry ∈ raw.offers py .role role,
    Dict.get? entry "exclusive" = none →
    ∃ other ∈ declared packages, ∃ stated ∈ other.offers py .role role,
      (Dict.get stated "exclusive" (.bool false)).truthy = true

/-- The profiles and manifests that the native supervisor and the Python Core understand alike. -/
structure Agrees (py : Interpreter) (profile : Dict) (packages : List PackageSource) : Prop where
  disabled : ∀ role ∈ disabledRoles py profile, ∀ raw ∈ declared packages,
    raw.offers py .role role = []
  exclusive : ∀ role, role ∉ disabledRoles py profile → StatesExclusive py packages role
  roles : ∀ role, role ∉ disabledRoles py profile →
    TiesById py packages .role role (listedFor py profile role)
  interfaces : ∀ name, TiesById py packages .interface name []

theorem map_utf8_inj {ids ids' : List PyStr} (hids : ∀ id ∈ ids, idRe id = true)
    (hids' : ∀ id ∈ ids', idRe id = true) : ids.map utf8 = ids'.map utf8 ↔ ids = ids' := by
  refine ⟨fun h => ?_, fun h => by rw [h]⟩
  induction ids generalizing ids' with
  | nil => exact (List.map_eq_nil_iff.mp h.symm).symm
  | cons id ids ih =>
    obtain ⟨id', rest, rfl, hid, hrest⟩ := List.map_eq_cons_iff.mp h.symm
    obtain ⟨hfirst, hothers⟩ := List.forall_mem_cons.mp hids
    obtain ⟨hfirst', hothers'⟩ := List.forall_mem_cons.mp hids'
    rw [utf8_inj_of_idRe hfirst' hfirst hid, ih hothers hothers' hrest.symm]

section

variable {py : Interpreter} {packages : List PackageSource} {components : RoleComponents}
  {ordered : List (PlanComponent ServiceFields)} {traced : List (TracedComponent py packages)}
  (h : Traces py packages components ordered traced)

include h

/-! ## Services that nothing provides -/

theorem Traces.offers_of_undeclared {kind : Core.Manifest.ProvideKind} {name : PyStr}
    (hnone : ¬∃ id, Declares components kind name id) {raw : RawComponent}
    (hraw : raw ∈ declared packages) : raw.offers py kind name = [] := by
  refine List.eq_nil_iff_forall_not_mem.mpr fun entry hentry => hnone ?_
  obtain ⟨component, hcomponent, rfl⟩ := h.mem_declared.mp hraw
  obtain ⟨service, hservice, hkind, hname, -⟩ := TracedComponent.mem_offers.mp hentry
  exact ⟨_, (h.declares_iff hcomponent).mpr ⟨service, hservice, hkind, hname⟩⟩

theorem Traces.tiesById_of_undeclared {kind : Core.Manifest.ProvideKind} {name : PyStr}
    {listed : List PyStr} (hnone : ¬∃ id, Declares components kind name id) :
    TiesById py packages kind name listed := by
  intro first hfirst second _ _ _ _ entry hentry
  rw [h.offers_of_undeclared hnone hfirst] at hentry
  cases hentry

theorem Traces.statesExclusive_of_undeclared {role : PyStr}
    (hnone : ¬∃ id, Declares components .role role id) : StatesExclusive py packages role := by
  intro raw hraw entry hentry
  rw [h.offers_of_undeclared hnone hraw] at hentry
  cases hentry

/-! ## Ties -/

/-- The ties between providers, from the manifests and from the registries. -/
theorem Traces.tiesById_iff (hstart : StartOrder py packages (ordered.map PlanComponent.id))
    {kind : Core.Manifest.ProvideKind} {name : PyStr} {listed preferred ids : List PyStr}
    (hpreferred : preferred = listed.filter fun id => (declaredKeys packages).contains id)
    (hmem : ∀ id, id ∈ ids ↔ Declares components kind name id) :
    (∀ a ∈ ids, ∀ b ∈ ids, Tied preferred (declaredPriority components kind name) a b → a < b →
        (ordered.map PlanComponent.id).idxOf a < (ordered.map PlanComponent.id).idxOf b) ↔
      TiesById py packages kind name listed := by
  constructor
  · intro hties first hfirst second hsecond hnot hnot' hlt entry hentry other hother hpriority
      order horder
    rw [horder.unique hstart]
    obtain ⟨component, hcomponent, rfl⟩ := h.mem_declared.mp hfirst
    obtain ⟨component', hcomponent', rfl⟩ := h.mem_declared.mp hsecond
    obtain ⟨service, hservice, rfl, rfl, rfl⟩ := TracedComponent.mem_offers.mp hentry
    obtain ⟨service', hservice', hkind, hname, rfl⟩ := TracedComponent.mem_offers.mp hother
    have hdeclares := (h.declares_iff hcomponent).mpr ⟨service, hservice, rfl, rfl⟩
    have hdeclares' := (h.declares_iff hcomponent').mpr ⟨service', hservice', hkind, hname⟩
    have hunlisted := fun hin => hnot ((h.mem_listed hdeclares hpreferred).mp hin)
    have hunlisted' := fun hin => hnot' ((h.mem_listed hdeclares' hpreferred).mp hin)
    refine hties _ ((hmem _).mpr hdeclares) _ ((hmem _).mpr hdeclares')
      ⟨hunlisted, hunlisted', ?_⟩ hlt
    have hsame : (.ok (service.priority : ℤ) : Except PyError ℤ) = .ok (service'.priority : ℤ) :=
      service.stated.symm.trans (hpriority.trans service'.stated)
    rw [h.priority hcomponent hservice, ← hkind, ← hname, h.priority hcomponent' hservice']
    exact Except.ok.inj hsame
  · rintro hties a ha b hb ⟨hnot, hnot', hpriority⟩ hlt
    have hlisted := h.mem_listed ((hmem a).mp ha) hpreferred
    have hlisted' := h.mem_listed ((hmem b).mp hb) hpreferred
    obtain ⟨component, hcomponent, rfl⟩ := h.exists_component ((hmem a).mp ha)
    obtain ⟨component', hcomponent', rfl⟩ := h.exists_component ((hmem b).mp hb)
    have hfirst := h.mem_declared.mpr ⟨component, hcomponent, rfl⟩
    have hsecond := h.mem_declared.mpr ⟨component', hcomponent', rfl⟩
    obtain ⟨service, hservice, rfl, rfl⟩ := (h.declares_iff hcomponent).mp ((hmem _).mp ha)
    obtain ⟨service', hservice', hkind, hname⟩ := (h.declares_iff hcomponent').mp ((hmem _).mp hb)
    rw [h.priority hcomponent hservice, ← hkind, ← hname, h.priority hcomponent' hservice']
      at hpriority
    refine hties _ hfirst _ hsecond (fun hin => hnot (hlisted.mpr hin))
      (fun hin => hnot' (hlisted'.mpr hin)) hlt service.entry
      (TracedComponent.mem_offers.mpr ⟨service, hservice, rfl, rfl, rfl⟩) service'.entry
      (TracedComponent.mem_offers.mpr ⟨service', hservice', hkind, hname, rfl⟩) ?_ _ hstart
    exact service.stated.trans ((congrArg Except.ok hpriority).trans service'.stated.symm)

/-- Providers that a registry ranks have the same order in the catalog exactly when the ties are
settled by ids. -/
theorem Traces.rankedIds_iff (hstart : StartOrder py packages (ordered.map PlanComponent.id))
    (hnamed : ∀ item ∈ ordered, idRe item.id = true)
    {kind : Core.Manifest.ProvideKind} {name : PyStr} {listed preferred ids : List PyStr}
    (hpreferred : preferred = listed.filter fun id => (declaredKeys packages).contains id)
    (hranked : ids.Pairwise (Ranks preferred (declaredPriority components kind name) id))
    (hmem : ∀ id, id ∈ ids ↔ Declares components kind name id) :
    (rankedIds ordered (planKind kind) name preferred).map utf8 = ids.map utf8 ↔
      TiesById py packages kind name listed := by
  have hsame : ∀ id, id ∈ ids ↔ id ∈ rankedIds ordered (planKind kind) name preferred :=
    fun id => (hmem id).trans h.mem_rankedIds.symm
  have hvalid : ∀ id ∈ rankedIds ordered (planKind kind) name preferred, idRe id = true := by
    intro id hid
    obtain ⟨item, hitem, rfl, -⟩ := Native.mem_rankedIds.mp hid
    exact hnamed item hitem
  rw [map_utf8_inj hvalid fun id hid => hvalid id ((hsame id).mp hid), eq_comm,
    eq_iff_ties hranked (h.rankedIds_ranked kind name preferred) hsame]
  exact h.tiesById_iff hstart hpreferred hmem

/-! ## Exclusive roles -/

theorem Traces.statesExclusive_iff {role : PyStr} {listed : List PyStr} {state : RoleState}
    (hstate : Core.ProviderOrder.Ordered components role listed state)
    (hmem : ∀ id, id ∈ state.candidates ↔ Declares components .role role id) {exclusive : Bool}
    (hexclusive : exclusive = true ↔
      ∃ item ∈ ordered, ∃ provided ∈ entriesFor (planKind .role) role item,
        provided.exclusive = true) :
    exclusive = state.exclusive ↔ StatesExclusive py packages role := by
  rw [Bool.eq_iff_iff, hexclusive, h.stated_iff, h.exclusive_iff hstate hmem]
  constructor
  · intro hiff raw hraw entry hentry hnone
    exact hiff.mpr ⟨raw, hraw, entry, hentry, .inr hnone⟩
  · intro hstates
    constructor
    · rintro ⟨raw, hraw, entry, hentry, htruthy⟩
      exact ⟨raw, hraw, entry, hentry, .inl htruthy⟩
    · rintro ⟨raw, hraw, entry, hentry, htruthy | hnone⟩
      · exact ⟨raw, hraw, entry, hentry, htruthy⟩
      · exact hstates raw hraw entry hentry hnone

end

/-! ## The services of a catalog -/

section

variable {py : Interpreter} {profile : Dict} {packages : List PackageSource}
  {components : RoleComponents} {registry : RoleRegistry} {stopGrace : ℕ} {planned : PlanProfile}
  {ordered : List (PlanComponent ServiceFields)} {traced : List (TracedComponent py packages)}
  (h : CommonSource py profile packages components registry stopGrace planned ordered traced)

include h

theorem CommonSource.disabled_iff {role : PyStr} (hrole : role ∈ disabledRoles py profile) :
    (NativeCatalog.contents
        (NormalizedDocument.v2 stopGrace planned ordered).plan).roleIds (utf8 role) = [] ↔
      ∀ raw ∈ declared packages, raw.offers py .role role = [] := by
  obtain ⟨ids, hids, hmem⟩ :=
    h.traces.disabled_same h.bounded (text_of_rolePattern (h.disabled role hrole))
  rw [hids, List.map_eq_nil_iff, List.eq_nil_iff_forall_not_mem]
  constructor
  · intro hnone raw hraw
    exact h.traces.offers_of_undeclared
      (fun ⟨id, hdeclares⟩ => hnone id ((hmem id).mpr hdeclares)) hraw
  · intro hnone id hid
    have hdeclares := (hmem id).mp hid
    obtain ⟨component, hcomponent, rfl⟩ := h.traces.exists_component hdeclares
    obtain ⟨service, hservice, hkind, hname⟩ := (h.traces.declares_iff hcomponent).mp hdeclares
    have hentry := TracedComponent.mem_offers.mpr ⟨service, hservice, hkind, hname, rfl⟩
    rw [hnone _ (h.traces.mem_declared.mpr ⟨component, hcomponent, rfl⟩)] at hentry
    cases hentry

section

variable {role : PyStr} {state : RoleState} (hstate : registry.state role = .ok state)

include hstate

theorem CommonSource.candidates_iff :
    (NativeCatalog.contents
        (NormalizedDocument.v2 stopGrace planned ordered).plan).roleIds (utf8 role)
        = state.candidates.map utf8 ↔
      TiesById py packages .role role (listedFor py profile role) := by
  obtain ⟨maximum, hname⟩ := h.traces.text_of_state h.bounded h.enabled hstate
  obtain ⟨hranked, hmem⟩ := h.traces.state_ranked h.bounded h.enabled hstate h.preferred
  have hnamed := fun item hitem => (h.bounded.2.2.1.named item hitem).id
  rw [roleIds_eq h.bounded hname]
  exact h.traces.rankedIds_iff h.start hnamed (h.preferred role) hranked hmem

theorem CommonSource.exclusive_iff :
    (NativeCatalog.contents
        (NormalizedDocument.v2 stopGrace planned ordered).plan).roleExclusive (utf8 role)
        = state.exclusive ↔
      StatesExclusive py packages role := by
  obtain ⟨maximum, hname⟩ := h.traces.text_of_state h.bounded h.enabled hstate
  obtain ⟨-, hmem⟩ := h.traces.state_ranked h.bounded h.enabled hstate h.preferred
  exact h.traces.statesExclusive_iff (h.enabled.state role state hstate).2 hmem
    (roleExclusive_iff h.bounded hname)

end

theorem CommonSource.providers_iff {name : PyStr} {ids : List PyStr}
    (hids : ServedBy components name ids) :
    (NativeCatalog.contents
        (NormalizedDocument.v2 stopGrace planned ordered).plan).interfaceIds (utf8 name)
        = ids.map utf8 ↔
      TiesById py packages .interface name [] := by
  obtain ⟨hname, hranked, hmem⟩ := h.traces.servedBy_ranked h.bounded hids
  have hnamed := fun item hitem => (h.bounded.2.2.1.named item hitem).id
  have hnone : ([] : List PyStr)
      = ([] : List PyStr).filter fun id => (declaredKeys packages).contains id := rfl
  rw [interfaceIds_eq h.bounded hname]
  exact h.traces.rankedIds_iff h.start hnamed hnone hranked hmem

/-! ## Both programs -/

theorem CommonSource.agrees_of_refines (hrefines : Refines components registry
    (disabledRoles py profile)
    (NativeCatalog.contents (NormalizedDocument.v2 stopGrace planned ordered).plan)) :
    Agrees py profile packages where
  disabled role hrole := (h.disabled_iff hrole).mp (hrefines.disabled role hrole)
  exclusive role hrole := by
    by_cases hdeclared : ∃ id, Declares components .role role id
    · obtain ⟨state, hstate⟩ := h.enabled.declared role hrole hdeclared
      exact (h.exclusive_iff hstate).mp (hrefines.exclusive role state hstate)
    · exact h.traces.statesExclusive_of_undeclared hdeclared
  roles role hrole := by
    by_cases hdeclared : ∃ id, Declares components .role role id
    · obtain ⟨state, hstate⟩ := h.enabled.declared role hrole hdeclared
      exact (h.candidates_iff hstate).mp (hrefines.candidates role state hstate)
    · exact h.traces.tiesById_of_undeclared hdeclared
  interfaces name := by
    by_cases hdeclared : ∃ id, Declares components .interface name id
    · obtain ⟨ids, hids, -⟩ := exists_servedBy h.traces.distinct hdeclared
      exact (h.providers_iff hids).mp (hrefines.providers name ids hids)
    · exact h.traces.tiesById_of_undeclared hdeclared

theorem CommonSource.refines_of_agrees (hagrees : Agrees py profile packages) :
    Refines components registry (disabledRoles py profile)
      (NativeCatalog.contents (NormalizedDocument.v2 stopGrace planned ordered).plan) where
  candidates role state hstate := by
    have hrole := (h.enabled.state role state hstate).1
    exact (h.candidates_iff hstate).mpr (hagrees.roles role hrole)
  exclusive role state hstate := by
    have hrole := (h.enabled.state role state hstate).1
    exact (h.exclusive_iff hstate).mpr (hagrees.exclusive role hrole)
  providers name ids hids := (h.providers_iff hids).mpr (hagrees.interfaces name)
  interfaces entry hentry := h.traces.interfaces_known hentry
  disabled role hrole := (h.disabled_iff hrole).mpr (hagrees.disabled role hrole)

end

/-- For a profile and manifests that both programs accept, the native catalog says the same as
the registries exactly when none of the differences shows. -/
theorem BothAccept.refines_iff {py : Interpreter} {profile : Dict} {packages : List PackageSource}
    {commands : List (PyStr × PyStr)} {source : RuntimeSource} {text : PyStr}
    {components : RoleComponents}
    (h : BothAccept py profile packages commands source text components) :
    ∃ registry catalog, Built py profile text components registry catalog ∧
      (Refines components registry (disabledRoles py profile) catalog ↔
        Agrees py profile packages) := by
  obtain ⟨registry, stopGrace, planned, ordered, traced, hbuilt, hsource⟩ := h.exists_commonSource
  exact ⟨registry, _, hbuilt, hsource.agrees_of_refines, hsource.refines_of_agrees⟩

/-- Two shells that tie, the first of which starts after the second. -/
theorem shells_refine_iff :
    let profile := shellProfile []
    let packages := [shellPackage [shellComponent "x" ["org.a:y"], shellComponent "y" []]]
    ∃ text components registry catalog,
      Built bareInterpreter profile text components registry catalog ∧
      (Refines components registry (disabledRoles bareInterpreter profile) catalog ↔
        Agrees bareInterpreter profile packages) := by
  intro profile packages
  obtain ⟨source, text, components, -, -, hboth, -, -⟩ := exists_built profile packages
    (fun _ _ => true) (by decide +kernel) (by decide +kernel) (by decide +kernel)
  obtain ⟨registry, catalog, hbuilt, hiff⟩ := BothAccept.refines_iff hboth
  exact ⟨text, components, registry, catalog, hbuilt, hiff⟩

end MsysCore.Native
