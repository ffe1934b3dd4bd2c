import MsysCore.Native.RuntimeSource

/-!
# The start order of an assembled source

The Python Core orders starts by the `requires` and `after` references of a manifest, made
global; the native supervisor only by the `after` list of its plan. `assemble` keeps a
reference exactly when `after` spells it as the id of a component of the set.
-/

namespace MsysCore.Core

namespace Catalog

/-- Every reference of a component, whether or not the catalog has it. -/
def references (catalog : Catalog) (key : Python.PyStr) : List Python.PyStr :=
  match OrderedDict.get catalog key with
  | some component => component.requires ++ component.after
  | none => []

/-- No component starts before one that it is ordered after. -/
def Allows (catalog : Catalog) (order : List Python.PyStr) : Prop :=
  order.Pairwise fun earlier later => later ∉ catalog.orderingDependencies earlier

end Catalog

end MsysCore.Core

namespace MsysCore.Native

open Python Core Core.Manifest

/-! ## The components a set of manifests declares -/

/-- One entry of `components`, under the id of its package. -/
structure RawComponent where
  packageId : PyStr
  localId : PyStr
  fields : Dict

namespace RawComponent

def key (raw : RawComponent) : PyStr := componentKey raw.packageId raw.localId

/-- The items of a reference list. -/
def references (raw : RawComponent) (field : String) : List Json :=
  (Dict.get raw.fields field (.list [])).items.getD []

/-- What `load_manifest` makes of the reference lists. -/
def dependencies (py : Interpreter) (raw : RawComponent) : Dependencies where
  requires := (raw.references "requires").map (componentReference py raw.packageId)
  after := (raw.references "after").map (componentReference py raw.packageId)

end RawComponent

def rawComponent (packageId : PyStr) : Json → Option RawComponent
  | .dict fields =>
    match Dict.get? fields "id" with
    | some (.str localId) => some ⟨packageId, localId, fields⟩
    | _ => none
  | _ => none

/-- The components of a manifest that `assemble` accepts. -/
def PackageSource.rawComponents (source : PackageSource) : List RawComponent :=
  match Dict.get source.manifest "package" .null, Dict.get source.manifest "components" .null with
  | .dict package, .list raws =>
    match Dict.get package "id" .null with
    | .str packageId => raws.filterMap (rawComponent packageId)
    | _ => []
  | _, _ => []

def declared (packages : List PackageSource) : List RawComponent :=
  packages.flatMap PackageSource.rawComponents

/-- The dependency graph the Python Core reads from the manifests. -/
def manifestGraph (py : Interpreter) (packages : List PackageSource) : Catalog :=
  (declared packages).map fun raw => (raw.key, raw.dependencies py)

/-- The dependency graph of the assembled document. -/
def RuntimeSource.graph (source : RuntimeSource) : Catalog :=
  source.components.map fun component => (component.id, ⟨[], component.after⟩)

/-! ## What assembling makes of one component -/

structure Assembled (py : Interpreter) (raw : RawComponent) (component : SourceComponent) :
    Prop where
  id : component.id = raw.key
  after : component.after = (raw.references "after").map (toStr py)
  provides : ∃ entries provided, Dict.get raw.fields "provides" (.list []) = .list entries ∧
    entries.mapM (sourceProvide py raw.key) = .ok provided ∧
    component.provides = provided.map Prod.snd

variable {py : Interpreter} {startup : List Json} {commands : List (PyStr × PyStr)}

theorem asListOr_eq_ok {value : Json} {message : PyStr} {items : List Json} :
    asListOr value message = .ok items ↔ value = .list items := by
  cases value <;> simp [asListOr, assemblyError]

theorem asDictOr_eq_ok {value : Json} {message : PyStr} {entries : Dict} :
    asDictOr value message = .ok entries ↔ value = .dict entries := by
  cases value <;> simp [asDictOr, assemblyError]

theorem strings_eq_ok {value : Json} {texts : List PyStr} (h : strings py value = .ok texts) :
    texts = (value.items.getD []).map (toStr py) := by
  obtain ⟨items, hitems, h⟩ := bind_eq_ok.mp h
  cases h
  unfold iterate at hitems
  cases hvalue : value.items with
  | none => simp [hvalue, raise] at hitems
  | some found =>
    rw [hvalue] at hitems
    cases hitems
    rfl

theorem sourceComponent_eq_ok {root : PosixPath} {package : Dict} {metadata : SourcePackage}
    {raw : RawComponent} {component : SourceComponent}
    (h : sourceComponent py startup commands root package metadata raw.key raw.fields =
      .ok component) : Assembled py raw component := by
  obtain ⟨provides, hprovides, h⟩ := bind_eq_ok.mp h
  obtain ⟨permissions, -, h⟩ := bind_eq_ok.mp h
  obtain ⟨environment, -, h⟩ := bind_eq_ok.mp h
  obtain ⟨readiness, -, h⟩ := bind_eq_ok.mp h
  obtain ⟨windowing, -, h⟩ := bind_eq_ok.mp h
  obtain ⟨activation, -, h⟩ := bind_eq_ok.mp h
  obtain ⟨idle, -, h⟩ := bind_eq_ok.mp h
  obtain ⟨provided, hprovided, h⟩ := bind_eq_ok.mp h
  obtain ⟨timeout, -, h⟩ := bind_eq_ok.mp h
  obtain ⟨exec, -, h⟩ := bind_eq_ok.mp h
  obtain ⟨after, hafter, h⟩ := bind_eq_ok.mp h
  obtain ⟨icon, -, h⟩ := bind_eq_ok.mp h
  cases h
  exact ⟨rfl, strings_eq_ok hafter, provides, provided, asListOr_eq_ok.mp hprovides, hprovided, rfl⟩

theorem addSourceComponent_eq_ok {source : PackageSource} {package : Dict}
    {metadata : SourcePackage} {components result : List SourceComponent} {raw : Json}
    (h : addSourceComponent py startup commands source package metadata components raw =
      .ok result) :
    ∃ declared component, rawComponent metadata.id raw = some declared ∧
      Assembled py declared component ∧ component.id ∉ knownIds components ∧
      result = components ++ [component] := by
  unfold addSourceComponent at h
  cases raw with
  | dict fields =>
    cases hid : Dict.get? fields "id" with
    | none => simp [hid, assemblyError] at h
    | some id =>
      cases id with
      | str localId =>
        simp only [hid] at h
        split_ifs at h with hknown
        · simp [assemblyError] at h
        obtain ⟨component, hcomponent, h⟩ := bind_eq_ok.mp h
        cases h
        have hassembled : Assembled py ⟨metadata.id, localId, fields⟩ component :=
          sourceComponent_eq_ok hcomponent
        refine ⟨_, component, by simp [rawComponent, hid], hassembled, ?_, rfl⟩
        rw [hassembled.id]
        exact hknown
      | _ => simp [hid, assemblyError] at h
  | _ => simp [assemblyError] at h

/-- A loop that appends what it makes of each item, if that is new. -/
structure Extended (py : Interpreter) (raws : List RawComponent)
    (components result : List SourceComponent) : Prop where
  nodup : (knownIds components).Nodup → (knownIds result).Nodup
  appended : ∃ new, result = components ++ new ∧ List.Forall₂ (Assembled py) raws new

theorem Extended.refl (components : List SourceComponent) : Extended py [] components components :=
  ⟨id, [], by simp, .nil⟩

theorem Extended.trans {xs ys : List RawComponent} {a b c : List SourceComponent}
    (h : Extended py xs a b) (h' : Extended py ys b c) : Extended py (xs ++ ys) a c := by
  obtain ⟨new, rfl, hnew⟩ := h.appended
  obtain ⟨later, rfl, hlater⟩ := h'.appended
  exact ⟨fun ha => h'.nodup (h.nodup ha), new ++ later, by simp, List.rel_append hnew hlater⟩

theorem Extended.snoc {raw : RawComponent} {component : SourceComponent}
    {components : List SourceComponent} (h : Assembled py raw component)
    (hnew : component.id ∉ knownIds components) :
    Extended py [raw] components (components ++ [component]) := by
  refine ⟨fun hnodup => ?_, [component], rfl, .cons h .nil⟩
  rw [knownIds, List.map_append, List.nodup_append']
  refine ⟨hnodup, by simp, ?_⟩
  simpa only [knownIds, List.map_cons, List.map_nil, List.disjoint_singleton] using hnew

theorem foldlM_addSourceComponent {source : PackageSource} {package : Dict}
    {metadata : SourcePackage} (raws : List Json) : ∀ {components result : List SourceComponent},
    raws.foldlM (addSourceComponent py startup commands source package metadata) components =
      .ok result →
    Extended py (raws.filterMap (rawComponent metadata.id)) components result := by
  induction raws with
  | nil =>
    intro components result h
    cases h
    exact Extended.refl components
  | cons raw raws ih =>
    intro components result h
    rw [List.foldlM_cons] at h
    obtain ⟨middle, hraw, hrest⟩ := bind_eq_ok.mp h
    obtain ⟨declared, component, hdeclared, hassembled, hnew, rfl⟩ := addSourceComponent_eq_ok hraw
    rw [List.filterMap_cons_some hdeclared]
    exact (Extended.snoc hassembled hnew).trans (ih hrest)

theorem addPackage_extended {source : PackageSource} {components result : List SourceComponent}
    (h : addPackage py startup commands components source = .ok result) :
    Extended py source.rawComponents components result := by
  unfold addPackage at h
  dsimp only at h
  split_ifs at h with hschema
  · simp [assemblyError] at h
  obtain ⟨package, hpackage, h⟩ := bind_eq_ok.mp h
  obtain ⟨raws, hraws, h⟩ := bind_eq_ok.mp h
  have hpackage := asDictOr_eq_ok.mp hpackage
  have hraws := asListOr_eq_ok.mp hraws
  cases hid : Dict.get package "id" .null with
  | str packageId =>
    rw [hid] at h
    simpa [PackageSource.rawComponents, hpackage, hraws, hid] using foldlM_addSourceComponent raws h
  | _ => simp [hid, assemblyError] at h

theorem foldlM_addPackage (packages : List PackageSource) : ∀ {components result},
    packages.foldlM (addPackage py startup commands) components = .ok result →
    Extended py (declared packages) components result := by
  induction packages with
  | nil =>
    intro components result h
    cases h
    exact Extended.refl components
  | cons source packages ih =>
    intro components result h
    rw [List.foldlM_cons] at h
    obtain ⟨middle, hsource, hrest⟩ := bind_eq_ok.mp h
    exact (addPackage_extended hsource).trans (ih hrest)

/-- What `assemble` returns, as far as it depends on the manifests. -/
structure AssembledFrom (py : Interpreter) (packages : List PackageSource)
    (source : RuntimeSource) : Prop where
  nodup : ((declared packages).map RawComponent.key).Nodup
  components : List.Forall₂
    (fun raw component => ∃ read, Assembled py raw read ∧
      component = closeAfter ((declared packages).map RawComponent.key) read)
    (declared packages) source.components

theorem knownIds_eq {raws : List RawComponent} {components : List SourceComponent}
    (h : List.Forall₂ (Assembled py) raws components) :
    knownIds components = raws.map RawComponent.key := by
  induction h with
  | nil => rfl
  | cons hassembled _ ih =>
    simp only [knownIds, List.map_cons] at ih ⊢
    rw [hassembled.id, ih]

/-- The components of an assembled source are those of the packages, their references closed; its
roles are those of the profile, as far as there are components for them. -/
theorem assemble_components {profile : Dict} {packages : List PackageSource}
    {source : RuntimeSource} (h : assemble py profile packages commands = .ok source) :
    ∃ startup components roles,
      packages.foldlM (addPackage py startup commands) [] = .ok components ∧
      source.components = components.map (closeAfter (knownIds components)) ∧
      Dict.get profile "roles" (.dict []) = .dict roles ∧
      roles.foldlM (addRole py (knownIds components)) [] = .ok source.roles := by
  unfold assemble at h
  dsimp only at h
  split_ifs at h with hschema
  · simp [assemblyError] at h
  cases hid : Dict.get profile "id" .null with
  | str profileId =>
    cases hroles : Dict.get profile "roles" (.dict []) with
    | dict roles =>
      simp only [hid, hroles] at h
      obtain ⟨startup, -, h⟩ := bind_eq_ok.mp h
      obtain ⟨env, -, h⟩ := bind_eq_ok.mp h
      obtain ⟨settings, -, h⟩ := bind_eq_ok.mp h
      obtain ⟨components, hcomponents, h⟩ := bind_eq_ok.mp h
      obtain ⟨nativeRoles, hnative, h⟩ := bind_eq_ok.mp h
      split_ifs at h with hstartup
      · simp [assemblyError] at h
      cases h
      exact ⟨startup, components, roles, hcomponents, rfl, rfl, hnative⟩
    | _ => simp [hid, hroles, assemblyError] at h
  | _ => simp [hid, assemblyError] at h

theorem assemble_assembledFrom {profile : Dict} {packages : List PackageSource}
    {source : RuntimeSource} (h : assemble py profile packages commands = .ok source) :
    AssembledFrom py packages source := by
  obtain ⟨startup, components, roles, hcomponents, hsource, -, -⟩ := assemble_components h
  have hextended := foldlM_addPackage packages hcomponents
  obtain ⟨new, hnew, hassembled⟩ := hextended.appended
  rw [List.nil_append] at hnew
  subst hnew
  have hknown := knownIds_eq hassembled
  refine ⟨?_, ?_⟩
  · rw [← hknown]
    exact hextended.nodup List.nodup_nil
  · rw [hsource, List.forall₂_map_right_iff, hknown]
    exact hassembled.imp fun raw component hraw => ⟨component, hraw, rfl⟩

/-! ## The graph that `load_manifest` reads -/

theorem get?_of_subscript {d : Dict} {key : String} {value : Json}
    (h : subscript (.dict d) key = .ok value) : Dict.get? d key = some value := by
  unfold subscript at h
  cases hget : Dict.get? d key with
  | none => simp [hget, raise] at h
  | some item =>
    simp only [hget, Except.ok.injEq] at h
    rw [h]

theorem componentReferences_eq_ok {packageId : PyStr} {value : Json} {references : List PyStr}
    (h : componentReferences py packageId value = .ok references) :
    references = (value.items.getD []).map (componentReference py packageId) := by
  obtain ⟨items, hitems, h⟩ := bind_eq_ok.mp h
  cases h
  unfold iterate at hitems
  cases hvalue : value.items with
  | none => simp [hvalue, raise] at hitems
  | some found =>
    rw [hvalue] at hitems
    cases hitems
    rfl

/-- The entry of the graph for a component that the Python Core loads. -/
def loadedEntry (component : Manifest.Component) : PyStr × Dependencies :=
  (component.key, ⟨component.requires, component.after⟩)

/-- What `load_manifest` makes of a component. -/
structure LoadedFrom (py : Interpreter) (raw : RawComponent) (component : Manifest.Component) :
    Prop where
  entry : loadedEntry component = (raw.key, raw.dependencies py)
  provides : (raw.references "provides").mapM (provide py) = .ok component.provides

theorem loadedFrom_of_declared {path : PyStr} {package : PackageFields} {raw : Json}
    {component : Manifest.Component} {declared : RawComponent}
    (h : loadComponent py path package raw = .ok component)
    (hdeclared : rawComponent package.id raw = some declared) :
    LoadedFrom py declared component := by
  obtain ⟨fields, id, provides, rfl, hid, -, hkey, hitems, hprovides, hrequires, hafter⟩ :=
    loadComponent_eq_ok h
  simp only [rawComponent, hid] at hdeclared
  cases id with
  | str localId =>
    cases hdeclared
    refine ⟨?_, ?_⟩
    · rw [loadedEntry, hkey, componentReferences_eq_ok hrequires, componentReferences_eq_ok hafter]
      rfl
    · unfold iterate at hitems
      unfold RawComponent.references
      cases hvalue : (Dict.get fields "provides" (.list [])).items with
      | none => simp [hvalue, raise] at hitems
      | some found =>
        rw [hvalue] at hitems
        cases hitems
        exact hprovides
  | _ => cases hdeclared

theorem loadedFrom_all {path : PyStr} {package : PackageFields} {raws : List Json}
    {components : List Manifest.Component}
    (h : List.Forall₂ (fun raw component => loadComponent py path package raw = .ok component)
      raws components)
    (hdeclared : ∀ raw ∈ raws, ∃ declared, rawComponent package.id raw = some declared) :
    List.Forall₂ (LoadedFrom py) (raws.filterMap (rawComponent package.id)) components := by
  induction h with
  | nil => exact .nil
  | @cons raw component raws components hraw _ ih =>
    obtain ⟨⟨declared, hhead⟩, htail⟩ := List.forall_mem_cons.mp hdeclared
    rw [List.filterMap_cons_some hhead]
    exact .cons (loadedFrom_of_declared hraw hhead) (ih htail)

/-- What `assemble` asks of a manifest before it looks at the fields of a component. -/
structure PackageSource.Accepted (source : PackageSource) (packageId : PyStr) (raws : List Json) :
    Prop where
  package : ∃ package, Dict.get? source.manifest "package" = some (.dict package) ∧
    Dict.get? package "id" = some (.str packageId)
  components : Dict.get? source.manifest "components" = some (.list raws)
  declared : ∀ raw ∈ raws, ∃ declared, rawComponent packageId raw = some declared

theorem get?_of_get_null {d : Dict} {key : String} {value : Json} (hvalue : value ≠ .null)
    (h : Dict.get d key .null = value) : Dict.get? d key = some value := by
  unfold Dict.get at h
  cases hget : Dict.get? d key with
  | none =>
    rw [hget] at h
    exact absurd h.symm hvalue
  | some item =>
    rw [hget] at h
    exact congrArg some h

theorem declared_of_foldlM {source : PackageSource} {package : Dict} {metadata : SourcePackage}
    (raws : List Json) : ∀ {components result : List SourceComponent},
    raws.foldlM (addSourceComponent py startup commands source package metadata) components =
      .ok result →
    ∀ raw ∈ raws, ∃ declared, rawComponent metadata.id raw = some declared := by
  induction raws with
  | nil => simp
  | cons raw raws ih =>
    intro components result h
    rw [List.foldlM_cons] at h
    obtain ⟨middle, hraw, hrest⟩ := bind_eq_ok.mp h
    obtain ⟨declared, -, hdeclared, -⟩ := addSourceComponent_eq_ok hraw
    exact List.forall_mem_cons.mpr ⟨⟨declared, hdeclared⟩, ih hrest⟩

theorem addPackage_accepted {source : PackageSource} {components result : List SourceComponent}
    (h : addPackage py startup commands components source = .ok result) :
    ∃ packageId raws, source.Accepted packageId raws := by
  unfold addPackage at h
  dsimp only at h
  split_ifs at h with hschema
  · simp [assemblyError] at h
  obtain ⟨package, hpackage, h⟩ := bind_eq_ok.mp h
  obtain ⟨raws, hraws, h⟩ := bind_eq_ok.mp h
  have hpackage := asDictOr_eq_ok.mp hpackage
  have hraws := asListOr_eq_ok.mp hraws
  cases hid : Dict.get package "id" .null with
  | str packageId =>
    rw [hid] at h
    exact ⟨packageId, raws, ⟨package, get?_of_get_null (by simp) hpackage,
      get?_of_get_null (by simp) hid⟩, get?_of_get_null (by simp) hraws, declared_of_foldlM raws h⟩
  | _ => simp [hid, assemblyError] at h

theorem accepted_of_foldlM (packages : List PackageSource) : ∀ {components result},
    packages.foldlM (addPackage py startup commands) components = .ok result →
    ∀ source ∈ packages, ∃ packageId raws, source.Accepted packageId raws := by
  induction packages with
  | nil => simp
  | cons source packages ih =>
    intro components result h
    rw [List.foldlM_cons] at h
    obtain ⟨middle, hsource, hrest⟩ := bind_eq_ok.mp h
    exact List.forall_mem_cons.mpr ⟨addPackage_accepted hsource, ih hrest⟩

/-- `load_manifest` reads the components that `assemble` finds. -/
theorem loadManifest_loadedFrom {source : PackageSource} {packageId path : PyStr}
    {raws : List Json} (haccepted : source.Accepted packageId raws)
    {components : List Manifest.Component}
    (h : loadManifest py path (.dict source.manifest) = .ok components) :
    List.Forall₂ (LoadedFrom py) source.rawComponents components := by
  obtain ⟨package, hpackage, hid⟩ := haccepted.package
  obtain ⟨entries, hentries, h⟩ := bind_eq_ok.mp h
  cases hentries
  split_ifs at h with hschema
  obtain ⟨pkg, hpkg, h⟩ := bind_eq_ok.mp h
  have hpkg := Option.some.inj ((get?_of_subscript hpkg).symm.trans hpackage)
  subst hpkg
  obtain ⟨id, hid', h⟩ := bind_eq_ok.mp h
  have hid' := Option.some.inj ((get?_of_subscript hid').symm.trans hid)
  subst hid'
  obtain ⟨fields, hfields, h⟩ := bind_eq_ok.mp h
  cases hfields
  dsimp only at h
  obtain ⟨items, hitems, h⟩ := bind_eq_ok.mp h
  have hcomponents : ∀ default, Dict.get source.manifest "components" default = .list raws := by
    intro default
    rw [Dict.get, haccepted.components]
    rfl
  rw [hcomponents] at hitems
  cases hitems
  have hpackage' : Dict.get source.manifest "package" .null = .dict package := by
    rw [Dict.get, hpackage]
    rfl
  have hid' : Dict.get package "id" .null = .str packageId := by
    rw [Dict.get, hid]
    rfl
  have hraws : source.rawComponents = raws.filterMap (rawComponent packageId) := by
    rw [PackageSource.rawComponents]
    simp only [hpackage', hcomponents, hid']
  rw [hraws]
  exact loadedFrom_all (mapM_eq_ok.mp h) haccepted.declared

/-- The references of the graph are those that `load_manifest` reads. -/
theorem loadManifest_graph {source : PackageSource} {packageId path : PyStr} {raws : List Json}
    (haccepted : source.Accepted packageId raws) {components : List Manifest.Component}
    (h : loadManifest py path (.dict source.manifest) = .ok components) :
    components.map loadedEntry =
      source.rawComponents.map fun raw => (raw.key, raw.dependencies py) := by
  rw [← List.forall₂_eq_eq_eq, List.forall₂_map_left_iff, List.forall₂_map_right_iff]
  exact (loadManifest_loadedFrom haccepted h).flip.imp fun _ _ hloaded => hloaded.entry

/-! ## The two dependency graphs -/

/-- What a plan must keep of the ordering in the manifests: the references between components of
the set, and with them every order of starts. -/
structure KeepsOrder (plan manifests : Catalog) : Prop where
  references : ∀ key, plan.has key → ∀ reference ∈ manifests.references key,
    plan.has reference → reference ∈ plan.references key
  orders : ∀ order : List PyStr, (∀ key ∈ order, plan.has key) → plan.Allows order →
    manifests.Allows order

theorem mem_orderingDependencies {catalog : Catalog} {key dependency : PyStr}
    (hhas : catalog.has dependency) :
    dependency ∈ catalog.orderingDependencies key ↔ dependency ∈ catalog.references key := by
  unfold Catalog.orderingDependencies Catalog.references
  cases OrderedDict.get catalog key with
  | none => exact Iff.rfl
  | some component => simp [List.mem_filter, hhas]

theorem references_of_ordering {catalog : Catalog} {key dependency : PyStr}
    (h : dependency ∈ catalog.orderingDependencies key) : dependency ∈ catalog.references key := by
  unfold Catalog.orderingDependencies at h
  unfold Catalog.references
  cases hget : OrderedDict.get catalog key with
  | none =>
    rw [hget] at h
    cases h
  | some component =>
    rw [hget] at h
    rcases List.mem_append.mp h with h | h
    · exact List.mem_append_left _ h
    · exact List.mem_append_right _ (List.mem_of_mem_filter h)

/-- The orders follow from the references. -/
theorem keepsOrder_iff {plan manifests : Catalog} : KeepsOrder plan manifests ↔
    ∀ key, plan.has key → ∀ reference ∈ manifests.references key,
      plan.has reference → reference ∈ plan.references key := by
  refine ⟨KeepsOrder.references, fun h => ⟨h, ?_⟩⟩
  intro order hknown hallowed
  refine List.Pairwise.imp_of_mem ?_ hallowed
  intro earlier later hearlier hlater hfree hordered
  have hreference := h earlier (hknown earlier hearlier) later (references_of_ordering hordered)
    (hknown later hlater)
  exact hfree ((mem_orderingDependencies (hknown later hlater)).mpr hreference)

/-- Every reference of the component to one of the set is also spelled, as its global id, in
`after`. -/
def RawComponent.Spelled (py : Interpreter) (known : List PyStr) (raw : RawComponent) : Prop :=
  ∀ reference ∈ (raw.dependencies py).requires ++ (raw.dependencies py).after,
    reference ∈ known → reference ∈ (raw.references "after").map (toStr py)

/-- The ids of the components that a set of manifests declares. -/
def declaredKeys (packages : List PackageSource) : List PyStr :=
  (declared packages).map RawComponent.key

section Graphs

variable {packages : List PackageSource} {source : RuntimeSource}

/-- The entry of the plan for a component of the manifests. -/
def planEntry (py : Interpreter) (packages : List PackageSource) (raw : RawComponent) :
    PyStr × Dependencies :=
  (raw.key, ⟨[], ((raw.references "after").map (toStr py)).filter (declaredKeys packages).contains⟩)

theorem AssembledFrom.graph (h : AssembledFrom py packages source) :
    source.graph = (declared packages).map (planEntry py packages) := by
  have hentries := h.components
  unfold RuntimeSource.graph
  rw [← List.forall₂_eq_eq_eq, List.forall₂_map_left_iff, List.forall₂_map_right_iff]
  refine hentries.flip.imp ?_
  rintro component raw ⟨read, hread, rfl⟩
  simp only [closeAfter, planEntry, hread.id, hread.after, declaredKeys]

theorem get_declared {entry : RawComponent → PyStr × Dependencies}
    (hkey : ∀ raw, (entry raw).1 = raw.key) (hnodup : (declaredKeys packages).Nodup)
    {raw : RawComponent} (hraw : raw ∈ declared packages) :
    OrderedDict.get ((declared packages).map entry) raw.key = some (entry raw).2 := by
  have hkeys : ((declared packages).map entry).map Prod.fst = declaredKeys packages := by
    rw [List.map_map]
    exact List.map_congr_left fun raw _ => hkey raw
  rw [OrderedDict.get_eq_some_iff (by rw [hkeys]; exact hnodup), ← hkey raw]
  exact List.mem_map_of_mem hraw

theorem AssembledFrom.has_iff (h : AssembledFrom py packages source) {key : PyStr} :
    source.graph.has key ↔ key ∈ declaredKeys packages := by
  have hkeys : source.graph.map Prod.fst = declaredKeys packages := by
    rw [h.graph, List.map_map]
    rfl
  unfold Catalog.has
  rw [← hkeys, Option.isSome_iff_ne_none, Ne, OrderedDict.get_eq_none_iff, not_not]

theorem AssembledFrom.references (h : AssembledFrom py packages source) {raw : RawComponent}
    (hraw : raw ∈ declared packages) :
    source.graph.references raw.key =
        ((raw.references "after").map (toStr py)).filter (declaredKeys packages).contains ∧
      (manifestGraph py packages).references raw.key =
        (raw.dependencies py).requires ++ (raw.dependencies py).after := by
  unfold Catalog.references
  rw [h.graph, manifestGraph, get_declared (fun _ => rfl) h.nodup hraw,
    get_declared (fun _ => rfl) h.nodup hraw]
  exact ⟨List.nil_append _, rfl⟩

theorem AssembledFrom.keepsOrder_iff (h : AssembledFrom py packages source) :
    KeepsOrder source.graph (manifestGraph py packages) ↔
      ∀ raw ∈ declared packages, raw.Spelled py (declaredKeys packages) := by
  rw [Native.keepsOrder_iff]
  constructor
  · intro hkeeps raw hraw reference hreference hknown
    obtain ⟨hplan, hmanifests⟩ := h.references hraw
    have hkey : raw.key ∈ declaredKeys packages := List.mem_map_of_mem hraw
    have hkept := hkeeps raw.key (h.has_iff.mpr hkey) reference (hmanifests ▸ hreference)
      (h.has_iff.mpr hknown)
    rw [hplan] at hkept
    exact List.mem_of_mem_filter hkept
  · intro hspelled key hkey reference hreference hknown
    obtain ⟨raw, hraw, rfl⟩ := List.mem_map.mp (h.has_iff.mp hkey)
    obtain ⟨hplan, hmanifests⟩ := h.references hraw
    rw [hmanifests] at hreference
    have hknown := h.has_iff.mp hknown
    rw [hplan, List.mem_filter]
    exact ⟨hspelled raw hraw reference hreference hknown, by simpa using hknown⟩

end Graphs

/-- The assembled plan keeps the order of the manifests exactly when every reference to a
component of the set is spelled as its global id in `after`. The references of the manifests are
those that `load_manifest` reads. -/
theorem assemble_keepsOrder_iff (py : Interpreter) (profile : Dict)
    (packages : List PackageSource) (commands : List (PyStr × PyStr)) (source : RuntimeSource)
    (h : assemble py profile packages commands = .ok source) :
    (KeepsOrder source.graph (manifestGraph py packages) ↔
      ∀ raw ∈ declared packages, raw.Spelled py (declaredKeys packages)) ∧
    ∀ package ∈ packages, ∀ path components,
      loadManifest py path (.dict package.manifest) = .ok components →
        components.map loadedEntry =
          package.rawComponents.map fun raw => (raw.key, raw.dependencies py) := by
  refine ⟨(assemble_assembledFrom h).keepsOrder_iff, ?_⟩
  intro package hpackage path components hload
  obtain ⟨startup, assembled, -, hassembled, -⟩ := assemble_components h
  obtain ⟨packageId, raws, haccepted⟩ := accepted_of_foldlM packages hassembled package hpackage
  exact loadManifest_graph haccepted hload

/-- A component that starts after another of its package. -/
def orderedPackage (after : String) : PackageSource where
  path := lit "manifest.json"
  root := .parse (lit "/srv/a")
  manifest := record
    [("schema", text "msys.manifest.v1"),
      ("package", .dict (record [("id", text "a")])),
      ("components", .list
        [.dict (record [("id", text "x"), ("exec", .list [text "/bin/x"]),
            ("after", .list [text after])]),
          .dict (record [("id", text "y"), ("exec", .list [text "/bin/y"])])])]

def orderedProfile : Dict :=
  record [("schema", text "msys.profile.v1"), ("id", text "p"), ("startup", .list [text "a:y"])]

theorem assemble_keepsOrder_global : ∃ source,
    assemble bareInterpreter orderedProfile [orderedPackage "a:y"] [] = .ok source ∧
      KeepsOrder source.graph (manifestGraph bareInterpreter [orderedPackage "a:y"]) := by
  have hreturns : (assemble bareInterpreter orderedProfile [orderedPackage "a:y"] []).isOk := by
    decide +kernel
  obtain ⟨source, h⟩ := returns_of_isOk hreturns
  refine ⟨source, h, (assemble_keepsOrder_iff _ _ _ _ source h).1.mpr ?_⟩
  unfold RawComponent.Spelled
  decide +kernel

/-- A reference within the package is dropped. -/
theorem local_reference_dropped : ∃ source,
    assemble bareInterpreter orderedProfile [orderedPackage "y"] [] = .ok source ∧
      ¬KeepsOrder source.graph (manifestGraph bareInterpreter [orderedPackage "y"]) := by
  have hreturns : (assemble bareInterpreter orderedProfile [orderedPackage "y"] []).isOk := by
    decide +kernel
  obtain ⟨source, h⟩ := returns_of_isOk hreturns
  refine ⟨source, h, fun hkeeps => ?_⟩
  have hspelled := (assemble_assembledFrom h).keepsOrder_iff.mp hkeeps
  unfold RawComponent.Spelled at hspelled
  revert hspelled
  decide +kernel

end MsysCore.Native
