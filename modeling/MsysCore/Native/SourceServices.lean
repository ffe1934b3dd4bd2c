import MsysCore.Core.ProviderOrder
import MsysCore.Native.CatalogOrder
import MsysCore.Native.SourceDocument
import MsysCore.Native.SourceOrder

/-!
# Services from the manifests to the plan

The Python Core and the plan read the same `provides` entries. They find the same kinds, names and
priorities in them; a role that does not say whether it is exclusive is so for the Python Core only.
-/

namespace MsysCore.Native

open Python PlanSource PlanOrder
open Core (RoleComponents)
open Core.Manifest (Provide provide loadManifest)

/-- The components that `load_manifest` reads from the manifests, as the registries take them. -/
def loadServices (py : Interpreter) (packages : List PackageSource) :
    Except PyError RoleComponents := do
  let loaded ← packages.mapM fun source => loadManifest py source.path (.dict source.manifest)
  pure (loaded.flatten.map fun component => (component.key, component.provides))

/-! ## Entries -/

/-- The field of a `provides` entry that names a service. -/
def kindField : Core.Manifest.ProvideKind → String
  | .role => "role"
  | .interface => "interface"
  | .capability => "capability"

/-- The entries of a component for a service. -/
def RawComponent.offers (py : Interpreter) (kind : Core.Manifest.ProvideKind) (name : PyStr)
    (raw : RawComponent) : List Dict :=
  (Core.Manifest.dictsOf (raw.references "provides")).filter fun entry =>
    (Dict.get? entry (kindField kind)).map (toStr py) == some name

/-- An entry that both programs read, with what they find in it. -/
structure Service (py : Interpreter) where
  entry : Dict
  kind : Core.Manifest.ProvideKind
  name : PyStr
  priority : ℕ
  named : ∃ value, provideKinds entry = [(kind, value)] ∧ toStr py value = name
  stated : toInt py (Dict.get entry "priority" (.int 0)) = .ok (priority : ℤ)

theorem get?_of_provideKinds {entry : Dict} {kind : Core.Manifest.ProvideKind} {value : Json}
    (h : provideKinds entry = [(kind, value)]) (other : Core.Manifest.ProvideKind) :
    Dict.get? entry (kindField other) = if other = kind then some value else none := by
  unfold provideKinds at h
  cases hrole : Dict.get? entry "role" <;> cases hinterface : Dict.get? entry "interface" <;>
    cases hcapability : Dict.get? entry "capability" <;>
    simp [hrole, hinterface, hcapability] at h
  · obtain ⟨rfl, rfl⟩ := h
    cases other <;> simp [kindField, hrole, hinterface, hcapability]
  · obtain ⟨rfl, rfl⟩ := h
    cases other <;> simp [kindField, hrole, hinterface, hcapability]
  · obtain ⟨rfl, rfl⟩ := h
    cases other <;> simp [kindField, hrole, hinterface, hcapability]

namespace Service

variable {py : Interpreter} (service : Service py)

/-- Whether the entry is exclusive, if it is `default` where it does not say so. -/
def exclusive (default : Bool) : Bool :=
  (Dict.get service.entry "exclusive" (.bool default)).truthy

/-- What the Python Core makes of the entry. -/
def loaded : Provide :=
  ⟨service.kind, service.name, service.exclusive (service.kind = .role), service.priority⟩

/-- What the plan has of the entry. -/
def planned : PlanProvide :=
  ⟨planKind service.kind, service.name, service.exclusive false, service.priority⟩

theorem offers_iff {kind : Core.Manifest.ProvideKind} {name : PyStr} :
    (Dict.get? service.entry (kindField kind)).map (toStr py) = some name ↔
      service.kind = kind ∧ service.name = name := by
  obtain ⟨value, hkinds, hname⟩ := service.named
  rw [get?_of_provideKinds hkinds]
  by_cases h : kind = service.kind
  · simp [h, hname]
  · simp [h, Ne.symm h]

/-- An entry says that it is exclusive, or the defaults decide. -/
theorem exclusive_iff : service.exclusive true = true ↔
    service.exclusive false = true ∨ Dict.get? service.entry "exclusive" = none := by
  unfold exclusive Dict.get
  cases Dict.get? service.entry "exclusive" with
  | none => simp [Json.truthy]
  | some value => simp

end Service

section

variable {py : Interpreter} {key : PyStr}

theorem sourceProvide_eq_ok {raw : Json} {provided : Dict × SourceProvide}
    (h : sourceProvide py key raw = .ok provided) :
    raw = .dict provided.1 ∧ ∃ value, provideKinds provided.1 = [(provided.2.kind, value)] ∧
      toStr py value = provided.2.name ∧
      toInt py (Dict.get provided.1 "priority" (.int 0)) = .ok provided.2.priority ∧
      provided.2.exclusive = (Dict.get provided.1 "exclusive" (.bool false)).truthy := by
  unfold sourceProvide at h
  split at h
  · split at h
    · rename_i kind value hkinds
      obtain ⟨priority, hpriority, h⟩ := bind_eq_ok.mp h
      cases h
      exact ⟨rfl, value, hkinds, rfl, hpriority, rfl⟩
    · cases h
  · cases h

theorem provide_of_service {service : Service py} {loaded : Provide}
    (h : provide py (.dict service.entry) = .ok loaded) : loaded = service.loaded := by
  obtain ⟨value, hkinds, hname⟩ := service.named
  have hget := get?_of_provideKinds hkinds
  have hrole := hget .role
  have hinterface := hget .interface
  have hcapability := hget .capability
  obtain ⟨entries, hentries, h⟩ := bind_eq_ok.mp h
  cases hentries
  unfold kindField at hrole hinterface hcapability
  dsimp only at hrole hinterface hcapability
  unfold Service.loaded Service.exclusive
  rw [hrole, hinterface, hcapability] at h
  cases hkind : service.kind with
  | role =>
    simp only [hkind, if_true] at h
    obtain ⟨priority, hpriority, h⟩ := bind_eq_ok.mp h
    cases h
    cases service.stated.symm.trans hpriority
    simp [hname]
  | interface =>
    simp only [hkind, if_true, reduceCtorEq, if_false] at h
    obtain ⟨priority, hpriority, h⟩ := bind_eq_ok.mp h
    cases h
    cases service.stated.symm.trans hpriority
    simp [hname]
  | capability =>
    simp only [hkind, if_true, reduceCtorEq, if_false] at h
    obtain ⟨priority, hpriority, h⟩ := bind_eq_ok.mp h
    cases h
    cases service.stated.symm.trans hpriority
    simp [hname]

theorem exists_service {raw : Json} {provided : Dict × SourceProvide} {planned : PlanProvide}
    {loaded : Provide} (hsource : sourceProvide py key raw = .ok provided)
    (hplan : SameProvide provided.2 planned) (hload : provide py raw = .ok loaded) :
    ∃ service : Service py, raw = .dict service.entry ∧ loaded = service.loaded ∧
      planned = service.planned := by
  obtain ⟨rfl, value, hkinds, hname, hpriority, hexclusive⟩ := sourceProvide_eq_ok hsource
  have hstated : toInt py (Dict.get provided.1 "priority" (.int 0))
      = .ok (planned.priority : ℤ) := by
    rw [hpriority, hplan.priority]
  let service : Service py :=
    ⟨provided.1, provided.2.kind, provided.2.name, planned.priority, ⟨value, hkinds, hname⟩,
      hstated⟩
  have hloaded : loaded = service.loaded := provide_of_service hload
  refine ⟨service, rfl, hloaded, ?_⟩
  cases planned
  have hkind := hplan.kind
  have hname := hplan.name
  have hsame := hplan.exclusive.trans hexclusive
  dsimp only at hkind hname hsame
  rw [hkind, hname, hsame]
  rfl

/-- The entries of a component, one by one. -/
theorem exists_services {raws : List Json} {provided : List (Dict × SourceProvide)}
    (hsource : List.Forall₂ (fun raw item => sourceProvide py key raw = .ok item) raws provided) :
    ∀ {planned : List PlanProvide} {loaded : List Provide},
      List.Forall₂ SameProvide (provided.map Prod.snd) planned →
      List.Forall₂ (fun raw item => provide py raw = .ok item) raws loaded →
      ∃ services : List (Service py), raws = services.map (fun service => .dict service.entry) ∧
        loaded = services.map Service.loaded ∧ planned = services.map Service.planned := by
  induction hsource with
  | nil =>
    intro planned loaded hplan hload
    cases hplan
    cases hload
    exact ⟨[], rfl, rfl, rfl⟩
  | cons hfirst _ ih =>
    intro planned loaded hplan hload
    cases hplan with
    | cons hplanned hplan =>
      cases hload with
      | cons hloaded hload =>
        obtain ⟨service, rfl, rfl, rfl⟩ := exists_service hfirst hplanned hloaded
        obtain ⟨services, rfl, rfl, rfl⟩ := ih hplan hload
        exact ⟨service :: services, rfl, rfl, rfl⟩

end

/-! ## Components -/

/-- A component of the manifests, with its services and its item in the plan. -/
structure TracedComponent (py : Interpreter) (packages : List PackageSource) where
  raw : RawComponent
  services : List (Service py)
  item : PlanComponent ServiceFields
  entries : raw.references "provides" = services.map fun service => .dict service.entry
  id : item.id = raw.key
  after : item.after.Perm (planEntry py packages raw).2.after
  provides : item.fields.provides = services.map Service.planned

/-- What the registries of the Python Core have of the component. -/
def TracedComponent.loaded {py : Interpreter} {packages : List PackageSource}
    (component : TracedComponent py packages) : PyStr × List Provide :=
  (component.raw.key, component.services.map Service.loaded)

section

variable {py : Interpreter} {packages : List PackageSource}

theorem exists_traced_component {raw : RawComponent} {read : SourceComponent}
    {item : PlanComponent ServiceFields} {component : Core.Manifest.Component}
    (hassembled : Assembled py raw read)
    (hitem : SameComponent (closeAfter (declaredKeys packages) read) item)
    (hloaded : LoadedFrom py raw component) :
    ∃ traced : TracedComponent py packages, raw = traced.raw ∧
      (component.key, component.provides) = traced.loaded ∧ item = traced.item := by
  obtain ⟨entries, provided, hentries, hprovided, hsame⟩ := hassembled.provides
  have hreferences : raw.references "provides" = entries := by
    unfold RawComponent.references
    rw [hentries]
    rfl
  have hplan : List.Forall₂ SameProvide (provided.map Prod.snd) item.fields.provides :=
    hsame ▸ hitem.provides
  have hload := hloaded.provides
  rw [hreferences] at hload
  obtain ⟨services, hraws, hprovides, hplanned⟩ :=
    exists_services (mapM_eq_ok.mp hprovided) hplan (mapM_eq_ok.mp hload)
  have hafter : (closeAfter (declaredKeys packages) read).after
      = (planEntry py packages raw).2.after := by
    unfold closeAfter planEntry
    rw [hassembled.after]
  have hkey : component.key = raw.key := congrArg Prod.fst hloaded.entry
  refine ⟨⟨raw, services, item, hreferences.trans hraws, hitem.id.trans hassembled.id,
    hafter ▸ hitem.after, hplanned⟩, rfl, ?_, rfl⟩
  rw [hkey, hprovides]
  rfl

theorem exists_traced_all {raws : List RawComponent} {sources : List SourceComponent}
    (hassembled : List.Forall₂ (fun raw component => ∃ read, Assembled py raw read ∧
      component = closeAfter (declaredKeys packages) read) raws sources) :
    ∀ {items : List (PlanComponent ServiceFields)} {components : List Core.Manifest.Component},
      List.Forall₂ SameComponent sources items → List.Forall₂ (LoadedFrom py) raws components →
      ∃ traced : List (TracedComponent py packages), raws = traced.map TracedComponent.raw ∧
        components.map (fun component => (component.key, component.provides))
          = traced.map TracedComponent.loaded ∧
        items = traced.map TracedComponent.item := by
  induction hassembled with
  | nil =>
    intro items components hitems hloaded
    cases hitems
    cases hloaded
    exact ⟨[], rfl, rfl, rfl⟩
  | cons hfirst _ ih =>
    intro items components hitems hloaded
    cases hitems with
    | cons hitem hitems =>
      cases hloaded with
      | cons hcomponent hloaded =>
        obtain ⟨read, hread, rfl⟩ := hfirst
        obtain ⟨first, rfl, hkey, rfl⟩ := exists_traced_component hread hitem hcomponent
        obtain ⟨rest, rfl, hkeys, rfl⟩ := ih hitems hloaded
        exact ⟨first :: rest, rfl, by rw [List.map_cons, hkey, hkeys, List.map_cons], rfl⟩

/-- The components of an assembled source are those that `load_manifest` reads. -/
theorem loadServices_eq_ok {profile : Dict} {commands : List (PyStr × PyStr)}
    {source : RuntimeSource} {components : RoleComponents}
    (hassemble : assemble py profile packages commands = .ok source)
    (hload : loadServices py packages = .ok components) :
    ∃ loaded, List.Forall₂ (LoadedFrom py) (declared packages) loaded ∧
      components = loaded.map fun component => (component.key, component.provides) := by
  obtain ⟨startup, assembled, -, hassembled, -⟩ := assemble_components hassemble
  have haccepted := accepted_of_foldlM packages hassembled
  obtain ⟨loaded, hloaded, hcomponents⟩ := bind_eq_ok.mp hload
  cases hcomponents
  refine ⟨loaded.flatten, ?_, rfl⟩
  have hall := mapM_eq_ok.mp hloaded
  clear hassembled hassemble hloaded hload
  unfold declared
  induction hall with
  | nil => exact .nil
  | @cons package components packages loaded hfirst _ ih =>
    obtain ⟨⟨packageId, raws, hpackage⟩, hrest⟩ := List.forall_mem_cons.mp haccepted
    rw [List.flatMap_cons, List.flatten_cons]
    exact List.rel_append (loadManifest_loadedFrom hpackage hfirst) (ih hrest)

/-- The components that both programs read, one by one. -/
theorem exists_traced {profile : Dict} {commands : List (PyStr × PyStr)} {source : RuntimeSource}
    {components : RoleComponents} {items : List (PlanComponent ServiceFields)}
    (hassemble : assemble py profile packages commands = .ok source)
    (hload : loadServices py packages = .ok components)
    (hitems : List.Forall₂ SameComponent source.components items) :
    ∃ traced : List (TracedComponent py packages),
      declared packages = traced.map TracedComponent.raw ∧
      components = traced.map TracedComponent.loaded ∧
      items = traced.map TracedComponent.item := by
  obtain ⟨loaded, hloaded, rfl⟩ := loadServices_eq_ok hassemble hload
  exact exists_traced_all (assemble_assembledFrom hassemble).components hitems hloaded

end

/-! ## Both catalogs of the components -/

/-- Components of the manifests with what the Python Core and a plan have of them. -/
structure Traces (py : Interpreter) (packages : List PackageSource) (components : RoleComponents)
    (ordered : List (PlanComponent ServiceFields))
    (traced : List (TracedComponent py packages)) : Prop where
  keys : (declaredKeys packages).Nodup
  raws : declared packages = traced.map TracedComponent.raw
  loaded : components = traced.map TracedComponent.loaded
  plan : ordered.Perm (traced.map TracedComponent.item)
  once : Once ordered

theorem planKind_injective : Function.Injective planKind := by
  intro kind other h
  cases kind <;> cases other <;> first | rfl | exact absurd h (by decide)

section

variable {py : Interpreter} {packages : List PackageSource}

theorem TracedComponent.mem_offers {component : TracedComponent py packages} {entry : Dict}
    {kind : Core.Manifest.ProvideKind} {name : PyStr} :
    entry ∈ component.raw.offers py kind name ↔
      ∃ service ∈ component.services, service.kind = kind ∧ service.name = name ∧
        service.entry = entry := by
  have hdicts : Core.Manifest.dictsOf (component.raw.references "provides")
      = component.services.map Service.entry := by
    rw [component.entries, Core.Manifest.dictsOf, List.filterMap_map]
    exact congrFun List.filterMap_eq_map component.services
  unfold RawComponent.offers
  rw [hdicts, List.mem_filter, List.mem_map, beq_iff_eq]
  constructor
  · rintro ⟨⟨service, hservice, rfl⟩, hnamed⟩
    obtain ⟨hkind, hname⟩ := service.offers_iff.mp hnamed
    exact ⟨service, hservice, hkind, hname, rfl⟩
  · rintro ⟨service, hservice, hkind, hname, rfl⟩
    exact ⟨⟨service, hservice, rfl⟩, service.offers_iff.mpr ⟨hkind, hname⟩⟩

theorem TracedComponent.mem_entriesFor {component : TracedComponent py packages}
    {planned : PlanProvide} {kind : Core.Manifest.ProvideKind} {name : PyStr} :
    planned ∈ entriesFor (planKind kind) name component.item ↔
      ∃ service ∈ component.services, service.kind = kind ∧ service.name = name ∧
        service.planned = planned := by
  rw [Native.mem_entriesFor, component.provides, List.mem_map]
  constructor
  · rintro ⟨⟨service, hservice, rfl⟩, hkind, hname⟩
    exact ⟨service, hservice, planKind_injective hkind, hname, rfl⟩
  · rintro ⟨service, hservice, rfl, rfl, rfl⟩
    exact ⟨⟨service, hservice, rfl⟩, rfl, rfl⟩

variable {components : RoleComponents} {ordered : List (PlanComponent ServiceFields)}
  {traced : List (TracedComponent py packages)}
  (h : Traces py packages components ordered traced)

include h

theorem Traces.distinct : (components.map Prod.fst).Nodup := by
  have hkeys := h.keys
  unfold declaredKeys at hkeys
  rw [h.raws, List.map_map] at hkeys
  rw [h.loaded, List.map_map]
  exact hkeys

theorem Traces.mem_declarations {component : TracedComponent py packages}
    (hcomponent : component ∈ traced) {kind : Core.Manifest.ProvideKind} {name : PyStr}
    {loaded : Provide} :
    loaded ∈ Core.ProviderOrder.declarations components kind name component.raw.key ↔
      ∃ service ∈ component.services, service.kind = kind ∧ service.name = name ∧
        service.loaded = loaded := by
  have hget : OrderedDict.get components component.raw.key
      = some (component.services.map Service.loaded) := by
    refine (OrderedDict.get_eq_some_iff h.distinct).mpr ?_
    rw [h.loaded]
    exact List.mem_map_of_mem hcomponent
  unfold Core.ProviderOrder.declarations
  rw [hget, Option.getD_some, List.mem_filter, List.mem_map]
  simp only [Bool.and_eq_true, decide_eq_true_eq]
  constructor
  · rintro ⟨⟨service, hservice, rfl⟩, hkind, hname⟩
    exact ⟨service, hservice, hkind, hname, rfl⟩
  · rintro ⟨service, hservice, rfl, rfl, rfl⟩
    exact ⟨⟨service, hservice, rfl⟩, rfl, rfl⟩

/-- A component has no two entries for one service. -/
theorem Traces.service_unique {component : TracedComponent py packages}
    (hcomponent : component ∈ traced) {service other : Service py}
    (hservice : service ∈ component.services) (hother : other ∈ component.services)
    (hkind : other.kind = service.kind) (hname : other.name = service.name) : other = service := by
  have hitem : component.item ∈ ordered := h.plan.mem_iff.mpr (List.mem_map_of_mem hcomponent)
  have honce := h.once component.item hitem
  rw [component.provides, List.map_map] at honce
  refine List.inj_on_of_nodup_map honce hother hservice ?_
  simp only [Function.comp_apply, Service.planned, hkind, hname]

theorem Traces.priority {component : TracedComponent py packages}
    (hcomponent : component ∈ traced) {service : Service py}
    (hservice : service ∈ component.services) :
    Core.ProviderOrder.declaredPriority components service.kind service.name component.raw.key
      = service.priority := by
  have hmax : ((Core.ProviderOrder.declarations components service.kind service.name
      component.raw.key).map Provide.priority).max? = some (service.priority : ℤ) := by
    rw [List.max?_eq_some_iff]
    refine ⟨List.mem_map.mpr ⟨service.loaded, ?_, rfl⟩, fun priority hpriority => ?_⟩
    · exact (h.mem_declarations hcomponent).mpr ⟨service, hservice, rfl, rfl, rfl⟩
    · obtain ⟨loaded, hloaded, rfl⟩ := List.mem_map.mp hpriority
      obtain ⟨other, hother, hkind, hname, rfl⟩ := (h.mem_declarations hcomponent).mp hloaded
      rw [h.service_unique hcomponent hservice hother hkind hname]
      exact le_rfl
  rw [Core.ProviderOrder.declaredPriority, hmax]
  rfl

/-- Whatever an id stands for in the registries is a component of the manifests. -/
theorem Traces.exists_component {id : PyStr} {kind : Core.Manifest.ProvideKind} {name : PyStr}
    (hdeclares : Core.ProviderOrder.Declares components kind name id) :
    ∃ component ∈ traced, component.raw.key = id := by
  have hpresent : OrderedDict.get components id ≠ none := by
    intro habsent
    refine hdeclares ?_
    unfold Core.ProviderOrder.declarations
    rw [habsent]
    rfl
  have hmem : id ∈ components.map Prod.fst := by
    by_contra habsent
    exact hpresent (OrderedDict.get_eq_none_iff.mpr habsent)
  rw [h.loaded, List.map_map] at hmem
  exact List.mem_map.mp hmem

theorem Traces.declares_iff {component : TracedComponent py packages}
    (hcomponent : component ∈ traced) {kind : Core.Manifest.ProvideKind} {name : PyStr} :
    Core.ProviderOrder.Declares components kind name component.raw.key ↔
      ∃ service ∈ component.services, service.kind = kind ∧ service.name = name := by
  unfold Core.ProviderOrder.Declares
  constructor
  · intro hdeclares
    obtain ⟨loaded, hloaded⟩ := List.exists_mem_of_ne_nil _ hdeclares
    obtain ⟨service, hservice, hkind, hname, -⟩ := (h.mem_declarations hcomponent).mp hloaded
    exact ⟨service, hservice, hkind, hname⟩
  · rintro ⟨service, hservice, hkind, hname⟩
    exact List.ne_nil_of_mem
      ((h.mem_declarations hcomponent).mpr ⟨service, hservice, hkind, hname, rfl⟩)

theorem Traces.declaredExclusive_iff {component : TracedComponent py packages}
    (hcomponent : component ∈ traced) {kind : Core.Manifest.ProvideKind} {name : PyStr} :
    Core.ProviderOrder.declaredExclusive components kind name component.raw.key = true ↔
      ∃ service ∈ component.services, service.kind = kind ∧ service.name = name ∧
        service.exclusive (kind = .role) = true := by
  unfold Core.ProviderOrder.declaredExclusive
  rw [List.any_eq_true]
  constructor
  · rintro ⟨loaded, hloaded, hexclusive⟩
    obtain ⟨service, hservice, rfl, hname, rfl⟩ := (h.mem_declarations hcomponent).mp hloaded
    exact ⟨service, hservice, rfl, hname, hexclusive⟩
  · rintro ⟨service, hservice, rfl, hname, hexclusive⟩
    exact ⟨service.loaded, (h.mem_declarations hcomponent).mpr
      ⟨service, hservice, rfl, hname, rfl⟩, hexclusive⟩

/-- The plan offers what the components declare. -/
theorem Traces.offers_iff {kind : Core.Manifest.ProvideKind} {name id : PyStr} :
    Offers ordered (planKind kind) name id ↔
      Core.ProviderOrder.Declares components kind name id := by
  constructor
  · rintro ⟨item, hitem, rfl, planned, hplanned⟩
    obtain ⟨component, hcomponent, rfl⟩ := List.mem_map.mp (h.plan.mem_iff.mp hitem)
    obtain ⟨service, hservice, hkind, hname, -⟩ := TracedComponent.mem_entriesFor.mp hplanned
    rw [component.id]
    exact (h.declares_iff hcomponent).mpr ⟨service, hservice, hkind, hname⟩
  · intro hdeclares
    obtain ⟨component, hcomponent, rfl⟩ := h.exists_component hdeclares
    obtain ⟨service, hservice, hkind, hname⟩ := (h.declares_iff hcomponent).mp hdeclares
    exact ⟨component.item, h.plan.mem_iff.mpr (List.mem_map_of_mem hcomponent), component.id,
      service.planned, TracedComponent.mem_entriesFor.mpr ⟨service, hservice, hkind, hname, rfl⟩⟩

theorem Traces.plan_priority {kind : Core.Manifest.ProvideKind} {name : PyStr}
    {item : PlanComponent ServiceFields} (hitem : item ∈ ordered) {planned : PlanProvide}
    (hplanned : planned ∈ entriesFor (planKind kind) name item) :
    (planned.priority : ℤ) = Core.ProviderOrder.declaredPriority components kind name item.id := by
  obtain ⟨component, hcomponent, rfl⟩ := List.mem_map.mp (h.plan.mem_iff.mp hitem)
  obtain ⟨service, hservice, rfl, rfl, rfl⟩ := TracedComponent.mem_entriesFor.mp hplanned
  rw [component.id, h.priority hcomponent hservice]
  rfl

end

end MsysCore.Native
