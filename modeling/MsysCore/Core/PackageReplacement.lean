import MsysCore.Core.InstalledManifests

/-!
# Replacing complete packages

Two layers of manifests replace packages of the config fallback: the manifests named on the
command line and those of the installed registry. A layer is loaded into its components first,
and `replace_package_components` takes the packages from these.
-/

namespace MsysCore.Core.Manifest

open Python

/-- A supplied manifest: its package, and the components that it declares. -/
structure Supplied where
  packageId : PyStr
  components : List Component

/-- Where the manifests of a layer are named. -/
inductive Layer
  /-- The resolved paths given to `load_manifest_paths`. -/
  | canonical (targets : List PyStr)
  /-- The registry that `load_installed_manifests` reads. -/
  | installed (recoverPending : Bool)

section

variable (py : Interpreter) (state : StateDir)

def Layer.load : Layer → Except PyError Components
  | .canonical targets => loadManifestPaths py state targets
  | .installed recoverPending => loadInstalledManifests py state recoverPending

/-- `manifest["package"]["id"]` -/
def packageOf (data : Json) : Except PyError PyStr := do
  let pkg ← subscript data "package"
  let id ← subscript pkg "id"
  pure (toStr py id)

/-- A manifest with its package. -/
def suppliedManifest (path : PyStr) (data : Json) (place : Component → Component) :
    Except PyError Supplied := do
  let components ← loadManifest py path data
  let packageId ← packageOf py data
  pure ⟨packageId, components.map place⟩

def canonicalManifests (target : PyStr) : Except PyError (List Supplied) :=
  match state.manifest target with
  | .file document => do
    let data ← document
    let manifest ← suppliedManifest py (manifestPath target) data id
    pure [manifest]
  | _ => .error ⟨.valueError, lit "canonical manifest is not a file: " ++ manifestPath target⟩

/-- The manifest of a pointer; a pointer without one is skipped. -/
def installedManifests (package : Json) : Except PyError (List Supplied) := do
  let fields ← package.asDict
  let root := toStr py (Dict.get fields "path" (text ""))
  match state.manifestOf root with
  | .missing => pure []
  | .irregular error => .error error
  | .file document => do
    let data ← document
    let manifest ← suppliedManifest py (manifestPath root) data (defaultCwd root)
    pure [manifest]

/-- The manifests that a layer supplies. -/
def Layer.manifests : Layer → Except PyError (List Supplied)
  | .canonical targets => do
    let lists ← targets.eraseDups.mapM (canonicalManifests py state)
    pure lists.flatten
  | .installed recoverPending => do
    let packages ← installedPackages py state recoverPending
    let lists ← packages.mapM (installedManifests py state)
    pure lists.flatten

end

/-! ## What replacing a layer should do -/

def componentsOf (manifests : List Supplied) : List Component :=
  manifests.flatMap Supplied.components

def packagesOf (manifests : List Supplied) : List PyStr := manifests.map Supplied.packageId

structure PackageAtomic (base : Components) (manifests : List Supplied) (loaded : Components) :
    Prop where
  exact : ∀ key component,
    OrderedDict.get (replacePackageComponents base loaded) key = some component ↔
      (component ∈ componentsOf manifests ∧ component.key = key) ∨
        (OrderedDict.get base key = some component ∧
          component.packageId ∉ packagesOf manifests)
  stable : ∀ key,
    OrderedDict.get (replacePackageComponents (replacePackageComponents base loaded) loaded) key =
      OrderedDict.get (replacePackageComponents base loaded) key

/-- A package of the fallback is replaced through a component that a manifest still declares for
it, and a component that stays has its id to itself. -/
def Replaceable (base : Components) (manifests : List Supplied) : Prop :=
  ∀ key component, OrderedDict.get base key = some component →
    (component.packageId ∈ packagesOf manifests →
      key ∉ (componentsOf manifests).map Component.key →
        component.packageId ∈ (componentsOf manifests).map Component.packageId) ∧
    (component.packageId ∉ packagesOf manifests →
      key ∉ (componentsOf manifests).map Component.key)

/-- The components of every manifest are of its package. -/
def Consistent (manifests : List Supplied) : Prop :=
  ∀ manifest ∈ manifests, ∀ component ∈ manifest.components,
    component.packageId = manifest.packageId

variable {py : Interpreter} {state : StateDir}

/-! ### Loading -/

theorem loadManifest_package {path : PyStr} {data : Json} {components : List Component}
    (h : loadManifest py path data = .ok components) :
    ∃ packageId, packageOf py data = .ok packageId ∧
      ∀ component ∈ components, component.packageId = packageId := by
  obtain ⟨entries, -, h⟩ := bind_eq_ok.mp h
  split_ifs at h
  obtain ⟨pkg, hpkg, h⟩ := bind_eq_ok.mp h
  obtain ⟨id, hid, h⟩ := bind_eq_ok.mp h
  obtain ⟨fields, -, h⟩ := bind_eq_ok.mp h
  obtain ⟨raws, -, h⟩ := bind_eq_ok.mp h
  refine ⟨toStr py id, bind_eq_ok.mpr ⟨pkg, hpkg, bind_eq_ok.mpr ⟨id, hid, rfl⟩⟩, ?_⟩
  intro component hcomponent
  obtain ⟨raw, -, hraw⟩ := mem_mapM h hcomponent
  obtain ⟨-, -, -, -, -, hpackage, -⟩ := loadComponent_eq_ok hraw
  exact hpackage

/-- What a reader returns are the components of manifests, each with its own package. -/
def Covers (components : List Component) (manifests : List Supplied) : Prop :=
  components = componentsOf manifests ∧ Consistent manifests

theorem covers_nil : Covers [] [] := ⟨rfl, by simp [Consistent]⟩

theorem Covers.append {own rest : List Component} {manifests others : List Supplied}
    (h : Covers own manifests) (hrest : Covers rest others) :
    Covers (own ++ rest) (manifests ++ others) := by
  refine ⟨by rw [h.1, hrest.1, componentsOf, componentsOf, componentsOf, List.flatMap_append], ?_⟩
  intro manifest hmem
  rcases List.mem_append.mp hmem with hmem | hmem
  · exact h.2 manifest hmem
  · exact hrest.2 manifest hmem

theorem loadManifest_covers {path : PyStr} {data : Json} {components : List Component}
    (place : Component → Component)
    (hplace : ∀ component, (place component).packageId = component.packageId)
    (h : loadManifest py path data = .ok components) :
    ∃ manifest, suppliedManifest py path data place = .ok manifest ∧
      Covers (components.map place) [manifest] := by
  obtain ⟨packageId, hpackage, hall⟩ := loadManifest_package h
  refine ⟨⟨packageId, components.map place⟩, ?_, ?_, ?_⟩
  · exact bind_eq_ok.mpr ⟨components, h, bind_eq_ok.mpr ⟨packageId, hpackage, rfl⟩⟩
  · simp [componentsOf]
  · intro manifest hmem component hcomponent
    rw [List.mem_singleton.mp hmem] at hcomponent ⊢
    obtain ⟨loaded, hloaded, rfl⟩ := List.mem_map.mp hcomponent
    rw [hplace]
    exact hall loaded hloaded

/-- Reading items one after the other covers their manifests. -/
theorem mapM_covers {ι : Type} {read : ι → Except PyError (List Component)}
    {manifestsOf : ι → Except PyError (List Supplied)}
    (hread : ∀ item components, read item = .ok components →
      ∃ manifests, manifestsOf item = .ok manifests ∧ Covers components manifests)
    {items : List ι} {lists : List (List Component)} (h : items.mapM read = .ok lists) :
    ∃ manifests, items.mapM manifestsOf = .ok manifests ∧
      Covers lists.flatten manifests.flatten := by
  have hrel := mapM_eq_ok.mp h
  clear h
  induction hrel with
  | nil => exact ⟨[], rfl, covers_nil⟩
  | @cons item own items lists hitem hrest ih =>
    obtain ⟨manifests, hmanifests, hcovers⟩ := hread item own hitem
    obtain ⟨others, hothers, hrest⟩ := ih
    refine ⟨manifests :: others, mapM_eq_ok.mpr ?_, hcovers.append hrest⟩
    exact List.Forall₂.cons hmanifests (mapM_eq_ok.mp hothers)

/-- The components that the manifest at a resolved path declares. -/
def declaredAt (py : Interpreter) (state : StateDir) (target : PyStr) :
    Except PyError (List Component) :=
  match state.manifest target with
  | .file document => do
    let data ← document
    loadManifest py (manifestPath target) data
  | _ => .error ⟨.valueError, lit "canonical manifest is not a file: " ++ manifestPath target⟩

theorem loadManifestPaths_eq (targets : List PyStr) : loadManifestPaths py state targets =
    targets.eraseDups.foldlM (fun result target => do
      let components ← declaredAt py state target
      components.foldlM (addComponent "duplicate canonical component id ") result) [] := by
  unfold loadManifestPaths declaredAt
  congr 1
  funext result target
  cases state.manifest target with
  | file document =>
    cases document <;> rfl
  | _ => rfl

theorem declaredAt_covers {target : PyStr} {components : List Component}
    (h : declaredAt py state target = .ok components) :
    ∃ manifests, canonicalManifests py state target = .ok manifests ∧
      Covers components manifests := by
  unfold declaredAt at h
  unfold canonicalManifests
  cases hentry : state.manifest target with
  | file document =>
    simp only [hentry] at h ⊢
    obtain ⟨data, hdata, hload⟩ := bind_eq_ok.mp h
    obtain ⟨manifest, hmanifest, hcovers⟩ := loadManifest_covers id (fun _ => rfl) hload
    rw [List.map_id] at hcovers
    exact ⟨[manifest], bind_eq_ok.mpr ⟨data, hdata, bind_eq_ok.mpr ⟨manifest, hmanifest, rfl⟩⟩,
      hcovers⟩
  | missing => simp [hentry] at h
  | irregular error => simp [hentry] at h

@[simp] theorem defaultCwd_packageId (root : PyStr) (component : Component) :
    (defaultCwd root component).packageId = component.packageId := by
  unfold defaultCwd
  split_ifs <;> rfl

theorem declaredBy_covers {package : Json} {components : List Component}
    (h : declaredBy py state package = .ok components) :
    ∃ manifests, installedManifests py state package = .ok manifests ∧
      Covers components manifests := by
  obtain ⟨fields, hfields, h⟩ := bind_eq_ok.mp h
  unfold installedManifests
  cases hentry : state.manifestOf (toStr py (Dict.get fields "path" (text ""))) with
  | missing =>
    simp only [hentry] at h
    cases h
    refine ⟨[], bind_eq_ok.mpr ⟨fields, hfields, ?_⟩, covers_nil⟩
    simp [hentry, pure, Except.pure]
  | irregular error => simp [hentry] at h
  | file document =>
    simp only [hentry] at h
    obtain ⟨data, hdata, h⟩ := bind_eq_ok.mp h
    obtain ⟨loaded, hload, heq⟩ := bind_eq_ok.mp h
    cases heq
    obtain ⟨manifest, hmanifest, hcovers⟩ :=
      loadManifest_covers (defaultCwd _) (defaultCwd_packageId _) hload
    refine ⟨[manifest], bind_eq_ok.mpr ⟨fields, hfields, ?_⟩, hcovers⟩
    simp only [hentry]
    exact bind_eq_ok.mpr ⟨data, hdata, bind_eq_ok.mpr ⟨manifest, hmanifest, rfl⟩⟩

/-- A layer that loads has manifests, and its components are theirs, under distinct keys. -/
theorem load_covers {layer : Layer} {loaded : Components}
    (h : layer.load py state = .ok loaded) :
    ∃ manifests, layer.manifests py state = .ok manifests ∧ Consistent manifests ∧
      ((componentsOf manifests).map Component.key).Nodup ∧
      loaded = keyed (componentsOf manifests) := by
  cases layer with
  | canonical targets =>
    have hload : loadManifestPaths py state targets = .ok loaded := h
    rw [loadManifestPaths_eq] at hload
    obtain ⟨lists, hlists, hnodup, rfl⟩ :=
      (foldlM_addComponents _ (declaredAt py state) _ [] loaded List.nodup_nil).mp hload
    obtain ⟨manifests, hmanifests, hcomponents, hpackages⟩ :=
      mapM_covers (fun _ _ hread => declaredAt_covers hread) hlists
    rw [List.nil_append, hcomponents] at hnodup ⊢
    exact ⟨_, bind_eq_ok.mpr ⟨manifests, hmanifests, rfl⟩, hpackages, hnodup, rfl⟩
  | installed recoverPending =>
    obtain ⟨packages, components, hinstalled, hdeclared, hnodup, rfl⟩ :=
      loadInstalledManifests_eq_ok.mp h
    obtain ⟨lists, hlists, rfl⟩ := declared_eq_ok.mp hdeclared
    obtain ⟨manifests, hmanifests, hcomponents, hpackages⟩ :=
      mapM_covers (fun _ _ hread => declaredBy_covers hread) hlists
    rw [hcomponents] at hnodup ⊢
    refine ⟨_, bind_eq_ok.mpr ⟨packages, hinstalled, ?_⟩, hpackages, hnodup, rfl⟩
    exact bind_eq_ok.mpr ⟨manifests, hmanifests, rfl⟩

/-! ### Replacing -/

theorem get_filter {base : Components} (hbase : (base.map Prod.fst).Nodup)
    (keep : PyStr × Component → Bool) {key : PyStr} {component : Component} :
    OrderedDict.get (base.filter keep) key = some component ↔
      OrderedDict.get base key = some component ∧ keep (key, component) = true := by
  rw [OrderedDict.get_eq_some_iff (hbase.sublist (List.filter_sublist.map Prod.fst)),
    OrderedDict.get_eq_some_iff hbase, List.mem_filter]

theorem packages_keyed (components : List Component) :
    ((keyed components).map fun entry => entry.2.packageId) =
      components.map Component.packageId := by
  simp [keyed, Function.comp_def]

/-- A component of the result is declared, or it is one of the base under a key and of a package
that no declared component has. -/
theorem get_replaced {base : Components} (hbase : (base.map Prod.fst).Nodup)
    {components : List Component} (hnodup : (components.map Component.key).Nodup) {key : PyStr}
    {component : Component} :
    OrderedDict.get (replacePackageComponents base (keyed components)) key = some component ↔
      (component ∈ components ∧ component.key = key) ∨
        (key ∉ components.map Component.key ∧ OrderedDict.get base key = some component ∧
          component.packageId ∉ components.map Component.packageId) := by
  have hkeys : ((keyed components).map Prod.fst).Nodup := keys_keyed components ▸ hnodup
  rw [get_replacePackageComponents hkeys, Option.or_eq_some_iff, get_keyed hnodup,
    OrderedDict.get_eq_none_iff, keys_keyed, get_filter hbase, packages_keyed, decide_eq_true_eq]

theorem replaced_stable {base : Components} (hbase : (base.map Prod.fst).Nodup)
    {components : List Component} (hnodup : (components.map Component.key).Nodup) (key : PyStr) :
    OrderedDict.get (replacePackageComponents
      (replacePackageComponents base (keyed components)) (keyed components)) key =
        OrderedDict.get (replacePackageComponents base (keyed components)) key := by
  apply Option.ext
  intro component
  rw [get_replaced (nodup_replacePackageComponents hbase _) hnodup, get_replaced hbase hnodup]
  constructor
  · rintro (hown | ⟨-, hresult, -⟩)
    · exact Or.inl hown
    · exact hresult
  · rintro (hown | ⟨hkey, hbase, hpackage⟩)
    · exact Or.inl hown
    · exact Or.inr ⟨hkey, Or.inr ⟨hkey, hbase, hpackage⟩, hpackage⟩

theorem mem_packagesOf {manifests : List Supplied} (hpackages : Consistent manifests)
    {component : Component} (h : component ∈ componentsOf manifests) :
    component.packageId ∈ packagesOf manifests := by
  obtain ⟨manifest, hmanifest, hcomponent⟩ := List.mem_flatMap.mp h
  rw [hpackages manifest hmanifest component hcomponent]
  exact List.mem_map_of_mem hmanifest

theorem packageAtomic_keyed_iff {base : Components} (hbase : (base.map Prod.fst).Nodup)
    {manifests : List Supplied} (hpackages : Consistent manifests)
    (hnodup : ((componentsOf manifests).map Component.key).Nodup) :
    PackageAtomic base manifests (keyed (componentsOf manifests)) ↔ Replaceable base manifests := by
  constructor
  · rintro ⟨hexact, -⟩ key component hcomponent
    constructor
    · intro hsupplied hkey
      by_contra hundeclared
      have hresult := (get_replaced hbase hnodup).mpr (Or.inr ⟨hkey, hcomponent, hundeclared⟩)
      rcases (hexact key component).mp hresult with ⟨hown, rfl⟩ | ⟨-, hnot⟩
      · exact hkey (List.mem_map_of_mem hown)
      · exact hnot hsupplied
    · intro hother
      have hresult := (hexact key component).mpr (Or.inr ⟨hcomponent, hother⟩)
      rcases (get_replaced hbase hnodup).mp hresult with ⟨hown, -⟩ | ⟨hkey, -⟩
      · exact absurd (mem_packagesOf hpackages hown) hother
      · exact hkey
  · intro hcond
    refine ⟨fun key component => ?_, replaced_stable hbase hnodup⟩
    rw [get_replaced hbase hnodup]
    constructor
    · rintro (hown | ⟨hkey, hcomponent, hundeclared⟩)
      · exact Or.inl hown
      · right
        refine ⟨hcomponent, fun hsupplied => ?_⟩
        exact hundeclared ((hcond key component hcomponent).1 hsupplied hkey)
    · rintro (hown | ⟨hcomponent, hother⟩)
      · exact Or.inl hown
      · right
        refine ⟨(hcond key component hcomponent).2 hother, hcomponent, fun hdeclared => ?_⟩
        obtain ⟨declared, hmem, heq⟩ := List.mem_map.mp hdeclared
        exact hother (heq ▸ mem_packagesOf hpackages hmem)

/-- A layer replaces exactly the packages of its manifests if every package that the base knows is
still declared by some component, and no component takes the id of another package's. -/
theorem packageAtomic_iff {layer : Layer} {base loaded : Components}
    (hbase : (base.map Prod.fst).Nodup) (hload : layer.load py state = .ok loaded) :
    ∃ manifests, layer.manifests py state = .ok manifests ∧
      (PackageAtomic base manifests loaded ↔ Replaceable base manifests) := by
  obtain ⟨manifests, hmanifests, hpackages, hnodup, rfl⟩ := load_covers hload
  exact ⟨manifests, hmanifests, packageAtomic_keyed_iff hbase hpackages hnodup⟩

/-- A background component `main` of a package of the config fallback. -/
def builtin (packageId : PyStr) : Component where
  packageId := packageId
  packageVersion := lit "0.0.0"
  id := lit "main"
  exec := [lit "main"]
  lifecycle := lit "background"
  packageKind := lit "application"
  packageName := packageId
  packageSummary := []
  packageIcons := []
  runtime := lit "custom"
  restart := lit "never"
  idleTimeoutMs := none
  cwd := none
  env := []
  readinessMode := lit "exec"
  readinessTimeoutMs := 5000
  provides := []
  requires := []
  wants := []
  after := []
  windowing := []
  activation := []
  permissions := []

/-- Every path has the manifest of a package that declares no components. -/
def bareManifests (packageId : String) : StateDir where
  registry := none
  transaction := none
  resolve := .ok
  packageParts := fun _ => .ok []
  manifest := fun _ => .file (.ok (.dict (record
    [("schema", text "msys.manifest.v1"),
      ("package", .dict (record [("id", text packageId)])),
      ("components", .list [])])))

/-- A new package without components leaves the fallback as it is. -/
theorem theme_packageAtomic : ∃ manifests,
    (Layer.canonical [lit "/src/theme"]).manifests bareInterpreter (bareManifests "org.theme") =
      .ok manifests ∧
    PackageAtomic (keyed [builtin (lit "org.shell")]) manifests [] := by
  have hload : (Layer.canonical [lit "/src/theme"]).load bareInterpreter
      (bareManifests "org.theme") = .ok [] := rfl
  have hbase : ((keyed [builtin (lit "org.shell")]).map Prod.fst).Nodup := by decide
  obtain ⟨manifests, hmanifests, hiff⟩ := packageAtomic_iff hbase hload
  refine ⟨manifests, hmanifests, hiff.mpr ?_⟩
  have heq : manifests = [⟨lit "org.theme", []⟩] := by
    cases hmanifests
    rfl
  rw [heq]
  intro key component hcomponent
  have hmem := OrderedDict.mem_of_get hcomponent
  rw [keyed, List.map_singleton, List.mem_singleton, Prod.mk.injEq] at hmem
  constructor
  · intro hsupplied
    rw [hmem.2] at hsupplied
    exact absurd hsupplied (by decide)
  · intro _ hkey
    cases hkey

/-- The new manifest of a package has no components any more, and the old component stays. -/
theorem emptied_package_survives : ∃ manifests,
    (Layer.canonical [lit "/src/shell"]).manifests bareInterpreter (bareManifests "org.shell") =
      .ok manifests ∧
    (Layer.canonical [lit "/src/shell"]).load bareInterpreter (bareManifests "org.shell") =
      .ok [] ∧
    ¬ PackageAtomic (keyed [builtin (lit "org.shell")]) manifests [] := by
  refine ⟨[⟨lit "org.shell", []⟩], rfl, rfl, ?_⟩
  rintro ⟨hexact, -⟩
  have hkept := (hexact (lit "org.shell:main") (builtin (lit "org.shell"))).mp rfl
  rcases hkept with ⟨hown, -⟩ | ⟨-, hother⟩
  · cases hown
  · exact hother (by decide)

end MsysCore.Core.Manifest
