import MsysCore.Core.LoadManifest

/-!
# Installed packages

`load_manifest_paths`, `replace_package_components` and `load_installed_manifests`: the
components that the pointers of the installed registry declare, with or without the recovery
of a pending install journal, and how they replace the packages below them. The text of a path
stands for the path.
-/

namespace MsysCore.Core.Manifest

open Python

abbrev Components := List (PyStr × Component)

/-- What the manifest of a package directory is. -/
inductive Entry
  | missing
  /-- It exists and is not a file; reading it raises. -/
  | irregular (error : PyError)
  | file (document : Except PyError Json)

/-- The state directory. A registry or journal that exists is a document or an error of reading
it. -/
structure StateDir where
  registry : Option (Except PyError Json)
  transaction : Option (Except PyError Json)
  /-- `Path.resolve(strict=True)`. -/
  resolve : PyStr → Except PyError PyStr
  /-- The parts of a resolved path below the package root. -/
  packageParts : PyStr → Except PyError (List PyStr)
  /-- `manifest.json` of a resolved directory. -/
  manifest : PyStr → Entry

namespace StateDir

/-- `manifest.json` of a directory. -/
def manifestOf (state : StateDir) (root : PyStr) : Entry :=
  match state.resolve root with
  | .ok target => state.manifest target
  | .error _ => .missing

end StateDir

section

variable (py : Interpreter)

/-- Adds a component under a new key. -/
def addComponent (message : String) (result : Components) (component : Component) :
    Except PyError Components :=
  if (OrderedDict.get result component.key).isSome then
    .error ⟨.valueError, lit message ++ component.key⟩
  else .ok (OrderedDict.set result component.key component)

def manifestPath (root : PyStr) : PyStr := root ++ lit "/manifest.json"

/-- `load_manifest_paths` on the manifests of resolved directories. -/
def loadManifestPaths (state : StateDir) (targets : List PyStr) : Except PyError Components :=
  targets.eraseDups.foldlM (fun result target =>
    match state.manifest target with
    | .file document => do
      let data ← document
      let components ← loadManifest py (manifestPath target) data
      components.foldlM (addComponent "duplicate canonical component id ") result
    | _ => .error ⟨.valueError, lit "canonical manifest is not a file: " ++ manifestPath target⟩) []

def replacePackageComponents (base replacements : Components) : Components :=
  let packageIds := replacements.map fun entry => entry.2.packageId
  OrderedDict.update (base.filter fun entry => entry.2.packageId ∉ packageIds) replacements

/-- `isinstance(package, dict) and package.get("package") == package_id`. -/
def isPointer (packageId : PyStr) : Json → Bool
  | .dict package => keyEq (Dict.get package "package" .null) (.str packageId)
  | _ => false

/-- The pointers after the recovery of a pending journal. -/
def recoverPackages (packages transaction : Json) : Except PyError (List Json) := do
  let fields ← transaction.asDict
  if keyEq (Dict.get fields "schema" .null) (text "msys.install-transaction.v1") = false then
    iterate packages
  else
    let phase := Dict.get fields "phase" .null
    if phase.hashable = false then
      .error ⟨.typeError, lit "unhashable type: '" ++ lit phase.typeName ++ lit "'"⟩
    else if keyEq phase (text "health_pending") || keyEq phase (text "rolling_back") then do
      let packageId := toStr py (Dict.get fields "package" (text ""))
      let pointers ← iterate packages
      let kept := pointers.filter fun package => !isPointer packageId package
      match Dict.get fields "restore_current" .null with
      | .dict restored => pure (kept ++ [.dict restored])
      | _ => pure kept
    else iterate packages

/-- The pointers of the registry. -/
def installedPackages (state : StateDir) (recoverPending : Bool) : Except PyError (List Json) :=
  match state.registry with
  | none => pure []
  | some document => do
    let data ← document
    let fields ← data.asDict
    let packages := Dict.get fields "packages" (.list [])
    match recoverPending, state.transaction with
    | true, some transaction => do
      let transaction ← transaction
      recoverPackages py packages transaction
    | _, _ => iterate packages

def defaultCwd (root : PyStr) (component : Component) : Component :=
  if component.cwd = none then { component with cwd := some root } else component

/-- The components that the manifest of a pointer declares. -/
def declaredBy (state : StateDir) (package : Json) : Except PyError (List Component) := do
  let fields ← package.asDict
  let root := toStr py (Dict.get fields "path" (text ""))
  match state.manifestOf root with
  | .missing => pure []
  | .irregular error => .error error
  | .file document => do
    let data ← document
    let components ← loadManifest py (manifestPath root) data
    pure (components.map (defaultCwd root))

def loadInstalledManifests (state : StateDir) (recoverPending : Bool) :
    Except PyError Components := do
  let packages ← installedPackages py state recoverPending
  packages.foldlM (fun result package => do
    let components ← declaredBy py state package
    components.foldlM (addComponent "duplicate installed component id ") result) []

end

/-! ## What a registry declares -/

/-- The components of all pointers, in their order. -/
def declared (py : Interpreter) (state : StateDir) (packages : List Json) :
    Except PyError (List Component) := do
  let components ← packages.mapM (declaredBy py state)
  pure components.flatten

def keyed (components : List Component) : Components :=
  components.map fun component => (component.key, component)

variable {py : Interpreter} {state : StateDir}

theorem keys_keyed (components : List Component) :
    (keyed components).map Prod.fst = components.map Component.key := by
  simp [keyed, Function.comp_def]

theorem get_keyed {components : List Component} (hnodup : (components.map Component.key).Nodup)
    {key : PyStr} {component : Component} :
    OrderedDict.get (keyed components) key = some component ↔
      component ∈ components ∧ component.key = key := by
  rw [OrderedDict.get_eq_some_iff (keys_keyed components ▸ hnodup), keyed]
  constructor
  · intro hmem
    obtain ⟨other, hother, heq⟩ := List.mem_map.mp hmem
    cases heq
    exact ⟨hother, rfl⟩
  · rintro ⟨hmem, rfl⟩
    exact List.mem_map_of_mem hmem

/-- Adding components succeeds exactly when all keys are new. -/
theorem addComponents_eq_ok (message : String) (components : List Component) :
    ∀ (result : List Component) (after : Components), (result.map Component.key).Nodup →
      (components.foldlM (addComponent message) (keyed result) = .ok after ↔
        ((result ++ components).map Component.key).Nodup ∧ after = keyed (result ++ components)) := by
  induction components with
  | nil =>
    intro result after hnodup
    simp [pure, Except.pure, hnodup, eq_comm]
  | cons component components ih =>
    intro result after hnodup
    rw [List.foldlM_cons, addComponent]
    by_cases hnew : component.key ∈ result.map Component.key
    · obtain ⟨value, hvalue⟩ := OrderedDict.exists_get_of_mem_keys (keys_keyed result ▸ hnew)
      rw [hvalue, Option.isSome_some, if_pos rfl]
      constructor
      · intro h
        cases h
      · rintro ⟨hall, -⟩
        rw [List.map_append, List.map_cons] at hall
        exact ((List.nodup_append.mp hall).2.2 _ hnew _ List.mem_cons_self rfl).elim
    · have hnone : OrderedDict.get (keyed result) component.key = none :=
        OrderedDict.get_eq_none_iff.mpr (keys_keyed result ▸ hnew)
      have hset : OrderedDict.set (keyed result) component.key component =
          keyed (result ++ [component]) := by
        rw [OrderedDict.set_of_absent hnone, keyed, keyed, List.map_append]
        rfl
      have hnext : ((result ++ [component]).map Component.key).Nodup := by
        rw [List.map_append]
        refine List.nodup_append.mpr ⟨hnodup, List.nodup_singleton _, ?_⟩
        intro key hkey last hlast heq
        rw [List.mem_singleton.mp hlast] at heq
        exact hnew (heq ▸ hkey)
      rw [hnone, Option.isSome_none, if_neg Bool.false_ne_true, hset]
      have hrest := ih (result ++ [component]) after hnext
      rw [List.append_assoc, List.singleton_append] at hrest
      exact hrest

/-- Reading items one after the other and adding what each declares. -/
theorem foldlM_addComponents {ι : Type} (message : String)
    (read : ι → Except PyError (List Component)) (items : List ι) :
    ∀ (result : List Component) (after : Components), (result.map Component.key).Nodup →
      (items.foldlM (fun result item => do
          let components ← read item
          components.foldlM (addComponent message) result) (keyed result) = .ok after ↔
        ∃ lists, items.mapM read = .ok lists ∧
          ((result ++ lists.flatten).map Component.key).Nodup ∧
          after = keyed (result ++ lists.flatten)) := by
  induction items with
  | nil =>
    intro result after hnodup
    simp [pure, Except.pure, hnodup, eq_comm]
  | cons item items ih =>
    intro result after hnodup
    rw [List.foldlM_cons, List.mapM_cons]
    constructor
    · intro h
      obtain ⟨middle, hmiddle, hrest⟩ := bind_eq_ok.mp h
      obtain ⟨own, hown, hadd⟩ := bind_eq_ok.mp hmiddle
      obtain ⟨hnodup', rfl⟩ := (addComponents_eq_ok _ own result middle hnodup).mp hadd
      obtain ⟨rest, hlists, hall, hafter⟩ := (ih _ after hnodup').mp hrest
      rw [List.append_assoc] at hall hafter
      exact ⟨own :: rest, bind_eq_ok.mpr ⟨own, hown, bind_eq_ok.mpr ⟨rest, hlists, rfl⟩⟩,
        hall, hafter⟩
    · rintro ⟨lists, hlists, hall, hafter⟩
      obtain ⟨own, hown, hlists⟩ := bind_eq_ok.mp hlists
      obtain ⟨rest, hrest, heq⟩ := bind_eq_ok.mp hlists
      cases heq
      rw [List.flatten_cons, ← List.append_assoc] at hall hafter
      have hnodup' : ((result ++ own).map Component.key).Nodup := by
        rw [List.map_append] at hall
        exact (List.nodup_append.mp hall).1
      refine bind_eq_ok.mpr ⟨keyed (result ++ own), bind_eq_ok.mpr ⟨own, hown, ?_⟩, ?_⟩
      · exact (addComponents_eq_ok _ own result _ hnodup).mpr ⟨hnodup', rfl⟩
      · exact (ih _ after hnodup').mpr ⟨rest, hrest, hall, hafter⟩

theorem declared_eq_ok {packages : List Json} {components : List Component} :
    declared py state packages = .ok components ↔
      ∃ lists, packages.mapM (declaredBy py state) = .ok lists ∧ components = lists.flatten := by
  rw [declared, bind_eq_ok]
  constructor
  · rintro ⟨lists, hlists, heq⟩
    cases heq
    exact ⟨lists, hlists, rfl⟩
  · rintro ⟨lists, hlists, rfl⟩
    exact ⟨lists, hlists, rfl⟩

theorem declared_cons {package : Json} {packages : List Json} {components : List Component} :
    declared py state (package :: packages) = .ok components ↔
      ∃ own rest, declaredBy py state package = .ok own ∧ declared py state packages = .ok rest ∧
        components = own ++ rest := by
  rw [declared, List.mapM_cons]
  constructor
  · intro h
    obtain ⟨lists, hlists, hflat⟩ := bind_eq_ok.mp h
    obtain ⟨own, hown, hlists⟩ := bind_eq_ok.mp hlists
    obtain ⟨rest, hrest, heq⟩ := bind_eq_ok.mp hlists
    cases heq
    cases hflat
    exact ⟨own, rest.flatten, hown, bind_eq_ok.mpr ⟨rest, hrest, rfl⟩, rfl⟩
  · rintro ⟨own, rest, hown, hrest, rfl⟩
    obtain ⟨lists, hlists, hflat⟩ := bind_eq_ok.mp hrest
    cases hflat
    simp [hown, hlists, bind, Except.bind, pure, Except.pure]

theorem loadInstalledManifests_eq_ok {recoverPending : Bool} {installed : Components} :
    loadInstalledManifests py state recoverPending = .ok installed ↔
      ∃ packages components, installedPackages py state recoverPending = .ok packages ∧
        declared py state packages = .ok components ∧
        (components.map Component.key).Nodup ∧ installed = keyed components := by
  rw [loadInstalledManifests, bind_eq_ok]
  constructor
  · rintro ⟨packages, hpackages, hload⟩
    obtain ⟨lists, hlists, hnodup, heq⟩ :=
      (foldlM_addComponents _ (declaredBy py state) packages [] installed List.nodup_nil).mp hload
    exact ⟨packages, lists.flatten, hpackages, declared_eq_ok.mpr ⟨lists, hlists, rfl⟩, hnodup, heq⟩
  · rintro ⟨packages, components, hpackages, hdeclared, hnodup, heq⟩
    obtain ⟨lists, hlists, rfl⟩ := declared_eq_ok.mp hdeclared
    refine ⟨packages, hpackages, ?_⟩
    apply (foldlM_addComponents _ (declaredBy py state) packages [] installed List.nodup_nil).mpr
    exact ⟨lists, hlists, hnodup, heq⟩

/-- Pointers of two kinds declare what the pointers of each kind do. -/
theorem declared_split (p : Json → Bool) {packages : List Json} {components : List Component}
    (h : declared py state packages = .ok components) :
    ∃ first second, declared py state (packages.filter p) = .ok first ∧
      declared py state (packages.filter fun package => !p package) = .ok second ∧
      components.Perm (first ++ second) := by
  induction packages generalizing components with
  | nil =>
    cases h
    exact ⟨[], [], rfl, rfl, List.Perm.refl _⟩
  | cons package packages ih =>
    obtain ⟨own, rest, hown, hrest, rfl⟩ := declared_cons.mp h
    obtain ⟨first, second, hfirst, hsecond, hperm⟩ := ih hrest
    cases hp : p package with
    | true =>
      refine ⟨own ++ first, second, ?_, ?_, ?_⟩
      · rw [List.filter_cons_of_pos hp]
        exact declared_cons.mpr ⟨own, first, hown, hfirst, rfl⟩
      · rw [List.filter_cons_of_neg (by simp [hp])]
        exact hsecond
      · rw [List.append_assoc]
        exact hperm.append_left own
    | false =>
      refine ⟨first, own ++ second, ?_, ?_, ?_⟩
      · rw [List.filter_cons_of_neg (by simp [hp])]
        exact hfirst
      · rw [List.filter_cons_of_pos (by simp [hp])]
        exact declared_cons.mpr ⟨own, second, hown, hsecond, rfl⟩
      · exact (hperm.append_left own).trans (List.perm_append_comm_assoc _ _ _)

theorem declared_join (p : Json → Bool) {packages : List Json} {first second : List Component}
    (hfirst : declared py state (packages.filter p) = .ok first)
    (hsecond : declared py state (packages.filter fun package => !p package) = .ok second) :
    ∃ components, declared py state packages = .ok components ∧
      components.Perm (first ++ second) := by
  induction packages generalizing first second with
  | nil =>
    cases hfirst
    cases hsecond
    exact ⟨[], rfl, List.Perm.refl _⟩
  | cons package packages ih =>
    cases hp : p package with
    | true =>
      rw [List.filter_cons_of_pos hp] at hfirst
      rw [List.filter_cons_of_neg (by simp [hp])] at hsecond
      obtain ⟨own, rest, hown, hrest, rfl⟩ := declared_cons.mp hfirst
      obtain ⟨components, hcomponents, hperm⟩ := ih hrest hsecond
      refine ⟨own ++ components, declared_cons.mpr ⟨own, components, hown, hcomponents, rfl⟩, ?_⟩
      rw [List.append_assoc]
      exact hperm.append_left own
    | false =>
      rw [List.filter_cons_of_neg (by simp [hp])] at hfirst
      rw [List.filter_cons_of_pos (by simp [hp])] at hsecond
      obtain ⟨own, rest, hown, hrest, rfl⟩ := declared_cons.mp hsecond
      obtain ⟨components, hcomponents, hperm⟩ := ih hfirst hrest
      refine ⟨own ++ components, declared_cons.mpr ⟨own, components, hown, hcomponents, rfl⟩, ?_⟩
      exact (hperm.append_left own).trans (List.perm_append_comm_assoc _ _ _)

/-! ## Replacing packages -/

theorem nodup_replacePackageComponents {base : Components} (hbase : (base.map Prod.fst).Nodup)
    (replacements : Components) :
    ((replacePackageComponents base replacements).map Prod.fst).Nodup :=
  OrderedDict.nodup_update (hbase.sublist (List.filter_sublist.map Prod.fst)) replacements

theorem get_replacePackageComponents {replacements : Components}
    (hnodup : (replacements.map Prod.fst).Nodup) (base : Components) (key : PyStr) :
    OrderedDict.get (replacePackageComponents base replacements) key =
      (OrderedDict.get replacements key).or (OrderedDict.get (base.filter fun entry =>
        entry.2.packageId ∉ replacements.map fun entry => entry.2.packageId) key) :=
  OrderedDict.get_update hnodup _ key

end MsysCore.Core.Manifest
