import MsysCore.Core.Preflight

/-!
# Preflight and reload

The catalog that a reload builds after a change was committed is the one that the preflight of
the change has checked when the pointers of the other packages declare, as they stand in the
registry, what the preflight took them to declare with a pending journal recovered.
-/

namespace MsysCore.Core.Preflight

open Python Manifest

/-! ## Catalogs with the same lookups -/

/-- The fields in which two catalogs are compared. -/
structure Face where
  requires : List PyStr
  after : List PyStr
  provides : List Provide
  deriving DecidableEq

def face (component : Component) : Face := ⟨component.requires, component.after, component.provides⟩

/-- A component under its key. -/
def faced (component : Component) : PyStr × Face := (component.key, face component)

theorem face_get_keyed {components : List Component}
    (hnodup : (components.map Component.key).Nodup) {key : PyStr} {value : Face} :
    (OrderedDict.get (keyed components) key).map face = some value ↔
      (key, value) ∈ components.map faced := by
  rw [Option.map_eq_some_iff, List.mem_map]
  constructor
  · rintro ⟨component, hget, rfl⟩
    obtain ⟨hmem, rfl⟩ := (get_keyed hnodup).mp hget
    exact ⟨component, hmem, rfl⟩
  · rintro ⟨component, hmem, heq⟩
    cases heq
    exact ⟨component, (get_keyed hnodup).mpr ⟨hmem, rfl⟩, rfl⟩

/-- Dictionaries with the same lookups replace the same packages. -/
theorem replace_congr {first second : Components} (hfirst : (first.map Prod.fst).Nodup)
    (hsecond : (second.map Prod.fst).Nodup)
    (hget : ∀ key, OrderedDict.get first key = OrderedDict.get second key) (base : Components)
    (key : PyStr) :
    OrderedDict.get (replacePackageComponents base first) key =
      OrderedDict.get (replacePackageComponents base second) key := by
  have hmem : ∀ entry, entry ∈ first ↔ entry ∈ second := by
    intro entry
    rw [← OrderedDict.get_eq_some_iff hfirst, ← OrderedDict.get_eq_some_iff hsecond, hget]
  have hpackages : ∀ packageId, packageId ∈ first.map (fun entry => entry.2.packageId) ↔
      packageId ∈ second.map fun entry => entry.2.packageId := by
    intro packageId
    rw [List.mem_map, List.mem_map]
    exact exists_congr fun entry => and_congr_left fun _ => hmem entry
  have hbase : (base.filter fun entry =>
        entry.2.packageId ∉ first.map fun entry => entry.2.packageId) =
      base.filter fun entry => entry.2.packageId ∉ second.map fun entry => entry.2.packageId :=
    List.filter_congr fun entry _ => decide_eq_decide.mpr (not_congr (hpackages _))
  rw [get_replacePackageComponents hfirst, get_replacePackageComponents hsecond, hget, hbase]

/-- Two lists of components merge alike over a base when they show the same faces and replace
the same packages of it. -/
theorem faces_congr {first second : List Component} (hfirst : (first.map Component.key).Nodup)
    (hsecond : (second.map Component.key).Nodup)
    (hfaces : ∀ entry, entry ∈ first.map faced ↔ entry ∈ second.map faced) {base : Components}
    (hpackages : ∀ entry ∈ base, entry.2.packageId ∈ first.map Component.packageId ↔
      entry.2.packageId ∈ second.map Component.packageId) (key : PyStr) :
    (OrderedDict.get (replacePackageComponents base (keyed first)) key).map face =
      (OrderedDict.get (replacePackageComponents base (keyed second)) key).map face := by
  have hids : ∀ components : List Component,
      (keyed components).map (fun entry => entry.2.packageId) =
        components.map Component.packageId := by
    intro components
    simp [keyed, Function.comp_def]
  have hbase : (base.filter fun entry =>
        entry.2.packageId ∉ first.map Component.packageId) =
      base.filter fun entry => entry.2.packageId ∉ second.map Component.packageId :=
    List.filter_congr fun entry hentry => decide_eq_decide.mpr (not_congr (hpackages entry hentry))
  have hget : (OrderedDict.get (keyed first) key).map face =
      (OrderedDict.get (keyed second) key).map face := by
    refine Option.ext fun value => ?_
    rw [face_get_keyed hfirst, face_get_keyed hsecond, hfaces]
  rw [get_replacePackageComponents (keys_keyed first ▸ hfirst),
    get_replacePackageComponents (keys_keyed second ▸ hsecond), hids, hids, hbase,
    Option.map_or, Option.map_or, hget]

/-- A base that shares no key with the components above it does not show through. -/
theorem mem_faced_iff {components : List Component}
    (hnodup : (components.map Component.key).Nodup) {base : Components} {key : PyStr}
    (hapart : key ∉ base.map Prod.fst) {value : Face} :
    (OrderedDict.get (replacePackageComponents base (keyed components)) key).map face =
      some value ↔ (key, value) ∈ components.map faced := by
  have hnone : OrderedDict.get (base.filter fun entry =>
      entry.2.packageId ∉ (keyed components).map fun entry => entry.2.packageId) key = none :=
    OrderedDict.get_eq_none_iff.mpr fun hmem => hapart ((List.filter_sublist.map _).subset hmem)
  rw [get_replacePackageComponents (keys_keyed components ▸ hnodup), hnone, Option.or_none,
    face_get_keyed hnodup]

/-! ## Changes -/

/-- A change of the installed registry. -/
inductive Change
  /-- The candidate at a path becomes the package. -/
  | candidate (path : PyStr)
  | removal
  deriving DecidableEq

section

variable (py : Interpreter)

namespace Change

def preflight (daemon : Msysd) (state : StateDir) (packageId : PyStr) :
    Change → Except CatalogPreflightError Report
  | candidate path => preflightInstalledCandidate py daemon state packageId path
  | removal => preflightInstalledRemoval py daemon state packageId

def prospective (builtin : Components) (state : StateDir) (packageId : PyStr) :
    Change → Except PyError Prospect
  | candidate path => prospectiveCandidate py builtin state packageId path
  | removal => prospectiveRemoval py builtin state packageId

/-- The components that the package has after the change. -/
def components (state : StateDir) (packageId : PyStr) : Change → Except PyError Components
  | candidate path => do
    let target ← candidateTarget state packageId path
    candidateComponents py state packageId target
  | removal => pure []

/-- The pointers that the package has after the change. -/
def Points (state : StateDir) : Change → List Json → Prop
  | candidate path, pointers => ∃ fields, pointers = [.dict fields] ∧
    state.resolve (toStr py (Dict.get fields "path" (text ""))) = state.resolve path
  | removal, pointers => pointers = []

end Change

/-- The pointer of the package changes and nothing else does; the journal is the installer's. -/
structure Committed (packageId : PyStr) (change : Change) (before after : StateDir) : Prop where
  resolve : after.resolve = before.resolve
  manifest : after.manifest = before.manifest
  pointers : ∃ old new, installedPackages py before false = .ok old ∧
    installedPackages py after false = .ok new ∧
    (new.filter fun package => !isPointer packageId package) =
      (old.filter fun package => !isPointer packageId package) ∧
    change.Points py before (new.filter (isPointer packageId))

/-- The components of the recovered registry. -/
def Recovered (state : StateDir) (recovered : List Component) : Prop :=
  ∃ packages, installedPackages py state true = .ok packages ∧
    declared py state packages = .ok recovered

/-- The components of the other packages in the registry as it stands. -/
def Others (state : StateDir) (packageId : PyStr) (others : List Component) : Prop :=
  ∃ packages, installedPackages py state false = .ok packages ∧
    declared py state (packages.filter fun package => !isPointer packageId package) = .ok others

/-- What the manifests declare that a change of a package touches. -/
structure Reads (state : StateDir) (packageId : PyStr) (change : Change)
    (candidate recovered others : List Component) : Prop where
  candidate : change.components py state packageId = .ok (keyed candidate)
  recovered : Recovered py state recovered
  others : Others py state packageId others

/-- The recovered components that a preflight keeps beside those of the package. -/
def kept (packageId : PyStr) (candidate recovered : List Component) : List Component :=
  recovered.filter fun component =>
    component.packageId ≠ packageId ∧ component.key ∉ candidate.map Component.key

/-- The other packages declare the same recovered or not, under keys that the package leaves
free. -/
structure Steady (builtin : Components) (packageId : PyStr)
    (candidate recovered others : List Component) : Prop where
  distinct : ((others ++ candidate).map Component.key).Nodup
  same : ∀ entry, entry ∈ (kept packageId candidate recovered).map faced ↔ entry ∈ others.map faced
  replaced : ∀ entry ∈ builtin,
    entry.2.packageId ∈ (kept packageId candidate recovered ++ candidate).map Component.packageId ↔
      entry.2.packageId ∈ (others ++ candidate).map Component.packageId

def SteadyState (builtin : Components) (state : StateDir) (packageId : PyStr) (change : Change) :
    Prop :=
  ∃ candidate recovered others, Reads py state packageId change candidate recovered others ∧
    Steady builtin packageId candidate recovered others

/-- No built-in component has the key or the package of an installed one. -/
def Apart (builtin : Components) (state : StateDir) (packageId : PyStr) (change : Change) : Prop :=
  ∀ candidate recovered others, Reads py state packageId change candidate recovered others →
    ∀ entry ∈ builtin, ∀ component ∈ recovered ++ others,
      entry.1 ≠ component.key ∧ entry.2.packageId ≠ component.packageId

/-- A reload accepts the catalog it builds, and each key has in it what the checked one has. -/
def Agrees (builtin : Components) (state : StateDir) (checked : Components) : Prop :=
  ∃ replacement, reloadCatalog py builtin state = .ok replacement ∧
    ∀ key, (OrderedDict.get replacement key).map face = (OrderedDict.get checked key).map face

end

variable {py : Interpreter} {state before after : StateDir} {packageId : PyStr} {change : Change}
  {candidate recovered others : List Component}

/-! ## The candidate -/

theorem loadManifestPaths_eq_ok {target : PyStr} {components : Components}
    (h : loadManifestPaths py state [target] = .ok components) :
    ∃ document data list, state.manifest target = .file document ∧ document = .ok data ∧
      loadManifest py (manifestPath target) data = .ok list ∧
      (list.map Component.key).Nodup ∧ components = keyed list := by
  have hsingle : [target].eraseDups = [target] := by simp [List.eraseDups_cons]
  rw [loadManifestPaths, hsingle, List.foldlM_cons] at h
  obtain ⟨result, hresult, hnil⟩ := bind_eq_ok.mp h
  cases hnil
  cases hentry : state.manifest target with
  | file document =>
    rw [hentry] at hresult
    obtain ⟨data, hdata, hresult⟩ := bind_eq_ok.mp hresult
    obtain ⟨list, hlist, hadd⟩ := bind_eq_ok.mp hresult
    obtain ⟨hnodup, heq⟩ := (addComponents_eq_ok _ list [] _ List.nodup_nil).mp hadd
    exact ⟨document, data, list, rfl, hdata, hlist, hnodup, heq⟩
  | missing =>
    rw [hentry] at hresult
    cases hresult
  | irregular error =>
    rw [hentry] at hresult
    cases hresult

theorem components_candidate {path : PyStr} {components : Components}
    (h : (Change.candidate path).components py state packageId = .ok components) :
    ∃ target document data list, state.resolve path = .ok target ∧
      state.manifest target = .file document ∧ document = .ok data ∧
      loadManifest py (manifestPath target) data = .ok list ∧
      (list.map Component.key).Nodup ∧ components = keyed list ∧ list ≠ [] ∧
      ∀ component ∈ list, component.packageId = packageId := by
  obtain ⟨target, htarget, h⟩ := bind_eq_ok.mp h
  obtain ⟨loaded, hloaded, h⟩ := bind_eq_ok.mp h
  split_ifs at h with hempty hidentity
  · cases h
  · cases h
    obtain ⟨document, data, list, hentry, hdata, hlist, hnodup, rfl⟩ :=
      loadManifestPaths_eq_ok hloaded
    have hresolve : state.resolve path = .ok target := by
      obtain ⟨resolved, hresolved, htarget⟩ := bind_eq_ok.mp htarget
      obtain ⟨parts, -, htarget⟩ := bind_eq_ok.mp htarget
      split at htarget
      · split_ifs at htarget
        · cases htarget
        · cases htarget
          exact hresolved
      · cases htarget
    refine ⟨target, document, data, list, hresolve, hentry, hdata, hlist, hnodup, rfl, ?_, ?_⟩
    · rintro rfl
      exact hempty rfl
    · intro component hmem
      have := List.all_eq_true.mp hidentity _ (List.mem_map_of_mem hmem)
      simpa using this
  · cases h

/-! ## The prospective catalog -/

theorem kept_nodup (hrecovered : (recovered.map Component.key).Nodup)
    (hcandidate : (candidate.map Component.key).Nodup) :
    ((kept packageId candidate recovered ++ candidate).map Component.key).Nodup := by
  rw [List.map_append]
  refine List.nodup_append.mpr ⟨?_, hcandidate, ?_⟩
  · exact hrecovered.sublist (List.filter_sublist.map Component.key)
  · intro key hkept other hother heq
    obtain ⟨component, hmem, rfl⟩ := List.mem_map.mp hkept
    have hfree := (decide_eq_true_iff.mp (List.mem_filter.mp hmem).2).2
    exact hfree (heq ▸ hother)

theorem get_kept (hrecovered : (recovered.map Component.key).Nodup)
    (hcandidate : (candidate.map Component.key).Nodup) (key : PyStr) :
    OrderedDict.get (keyed (kept packageId candidate recovered ++ candidate)) key =
      (OrderedDict.get (keyed candidate) key).or (OrderedDict.get
        (keyed (recovered.filter fun component => component.packageId ≠ packageId)) key) := by
  have hothers : ((recovered.filter fun component =>
      component.packageId ≠ packageId).map Component.key).Nodup :=
    hrecovered.sublist (List.filter_sublist.map Component.key)
  refine Option.ext fun component => ?_
  rw [get_keyed (kept_nodup hrecovered hcandidate), List.mem_append]
  cases hget : OrderedDict.get (keyed candidate) key with
  | some own =>
    obtain ⟨hown, hkey⟩ := (get_keyed hcandidate).mp hget
    rw [Option.some_or, ← hget, get_keyed hcandidate]
    constructor
    · rintro ⟨hkept | hmem, heq⟩
      · have hfree := (decide_eq_true_iff.mp (List.mem_filter.mp hkept).2).2
        exact absurd (List.mem_map.mpr ⟨own, hown, hkey.trans heq.symm⟩) hfree
      · exact ⟨hmem, heq⟩
    · rintro ⟨hmem, heq⟩
      exact ⟨.inr hmem, heq⟩
  | none =>
    have hfree : key ∉ candidate.map Component.key :=
      keys_keyed candidate ▸ OrderedDict.get_eq_none_iff.mp hget
    rw [Option.none_or, get_keyed hothers]
    constructor
    · rintro ⟨hkept | hmem, rfl⟩
      · obtain ⟨hmem, hkept⟩ := List.mem_filter.mp hkept
        exact ⟨List.mem_filter.mpr ⟨hmem, by simpa using (decide_eq_true_iff.mp hkept).1⟩, rfl⟩
      · exact absurd (List.mem_map_of_mem hmem) hfree
    · rintro ⟨hmem, rfl⟩
      obtain ⟨hmem, hother⟩ := List.mem_filter.mp hmem
      have hboth := And.intro (decide_eq_true_iff.mp hother) hfree
      exact ⟨.inl (List.mem_filter.mpr ⟨hmem, decide_eq_true_iff.mpr hboth⟩), rfl⟩

theorem filter_keyed (p : Component → Bool) (components : List Component) :
    (keyed components).filter (fun entry => p entry.2) = keyed (components.filter p) := by
  rw [keyed, keyed, List.filter_map]
  rfl

/-- The prospective catalog of a change has the candidate over what is kept. -/
theorem prospective_eq_ok {builtin : Components} {prospect : Prospect}
    (h : change.prospective py builtin state packageId = .ok prospect) :
    ∃ candidate recovered, change.components py state packageId = .ok (keyed candidate) ∧
      (candidate.map Component.key).Nodup ∧
      Recovered py state recovered ∧ (recovered.map Component.key).Nodup ∧
      ∀ key, OrderedDict.get prospect.catalog key = OrderedDict.get
        (replacePackageComponents builtin
          (keyed (kept packageId candidate recovered ++ candidate))) key := by
  cases change with
  | candidate path =>
    obtain ⟨target, htarget, h⟩ := bind_eq_ok.mp h
    obtain ⟨components, hcomponents, h⟩ := bind_eq_ok.mp h
    obtain ⟨installed, hinstalled, h⟩ := bind_eq_ok.mp h
    cases h
    have hchange : (Change.candidate path).components py state packageId = .ok components :=
      bind_eq_ok.mpr ⟨target, htarget, hcomponents⟩
    obtain ⟨-, -, -, candidate, -, -, -, -, hcandidate, rfl, hne, hown⟩ :=
      components_candidate hchange
    obtain ⟨packages, recovered, hpackages, hdeclared, hrecovered, rfl⟩ :=
      loadInstalledManifests_eq_ok.mp hinstalled
    refine ⟨candidate, recovered, hchange, hcandidate, ⟨packages, hpackages, hdeclared⟩, hrecovered,
      replace_congr ?_ ?_ ?_ builtin⟩
    · exact nodup_replacePackageComponents (keys_keyed recovered ▸ hrecovered) _
    · exact keys_keyed _ ▸ kept_nodup hrecovered hcandidate
    · intro key
      have hfilter : (keyed recovered).filter (fun entry =>
            entry.2.packageId ∉ (keyed candidate).map fun entry => entry.2.packageId) =
          keyed (recovered.filter fun component => component.packageId ≠ packageId) := by
        rw [← filter_keyed]
        refine List.filter_congr fun entry _ => decide_eq_decide.mpr (not_congr ?_)
        rw [keyed, List.map_map, List.mem_map]
        constructor
        · rintro ⟨component, hmem, heq⟩
          exact heq ▸ hown component hmem
        · intro heq
          obtain ⟨component, hmem⟩ := List.exists_mem_of_ne_nil candidate hne
          exact ⟨component, hmem, (hown component hmem).trans heq.symm⟩
      rw [get_replacePackageComponents (keys_keyed candidate ▸ hcandidate),
        get_kept hrecovered hcandidate, hfilter]
  | removal =>
    simp only [Change.prospective, prospectiveRemoval] at h
    split_ifs at h
    · cases h
    obtain ⟨installed, hinstalled, h⟩ := bind_eq_ok.mp h
    split_ifs at h
    · cases h
    cases h
    obtain ⟨packages, recovered, hpackages, hdeclared, hrecovered, rfl⟩ :=
      loadInstalledManifests_eq_ok.mp hinstalled
    refine ⟨[], recovered, rfl, List.nodup_nil, ⟨packages, hpackages, hdeclared⟩, hrecovered,
      fun key => ?_⟩
    have hkept : kept packageId [] recovered ++ [] =
        recovered.filter fun component => component.packageId ≠ packageId := by
      simp [kept]
    rw [hkept, ← filter_keyed]

/-! ## The catalog after the change -/

theorem declared_congr (hresolve : after.resolve = before.resolve)
    (hmanifest : after.manifest = before.manifest) (packages : List Json) :
    declared py after packages = declared py before packages := by
  have hmanifestOf : after.manifestOf = before.manifestOf := by
    funext root
    rw [StateDir.manifestOf, StateDir.manifestOf, hresolve, hmanifest]
  have hdeclaredBy : declaredBy py after = declaredBy py before := by
    funext package
    rw [declaredBy, declaredBy, hmanifestOf]
  rw [declared, declared, hdeclaredBy]

theorem keyed_injective : Function.Injective keyed := by
  intro first second heq
  have := congrArg (List.map Prod.snd) heq
  simpa [keyed, Function.comp_def] using this

/-- The components that the new pointer of the package declares are those of the change, with
their working directories. -/
theorem declared_points (hcandidate : change.components py state packageId = .ok (keyed candidate))
    {pointers : List Json} (hpoints : change.Points py state pointers) :
    ∃ own, declared py state pointers = .ok own ∧ own.map faced = candidate.map faced ∧
      own.map Component.packageId = candidate.map Component.packageId := by
  cases change with
  | candidate path =>
    obtain ⟨target, document, data, list, hresolve, hentry, hdata, hlist, -, heq, -, -⟩ :=
      components_candidate hcandidate
    obtain rfl := keyed_injective heq
    obtain ⟨fields, rfl, hroot⟩ := hpoints
    have hloaded := (loadManifest_agreesOk (manifestPath target)
      (manifestPath (toStr py (Dict.get fields "path" (text "")))) data candidate).mp hlist
    have hdeclaredBy : declaredBy py state (.dict fields) =
        .ok (candidate.map (defaultCwd (toStr py (Dict.get fields "path" (text ""))))) := by
      refine bind_eq_ok.mpr ⟨fields, rfl, ?_⟩
      simp only [StateDir.manifestOf, hroot, hresolve, hentry]
      exact bind_eq_ok.mpr ⟨data, hdata, bind_eq_ok.mpr ⟨candidate, hloaded, rfl⟩⟩
    refine ⟨_, declared_cons.mpr ⟨_, [], hdeclaredBy, rfl, (List.append_nil _).symm⟩, ?_, ?_⟩
    · rw [List.map_map]
      refine List.map_congr_left fun component _ => ?_
      simp only [Function.comp_apply, defaultCwd]
      split_ifs <;> rfl
    · rw [List.map_map]
      refine List.map_congr_left fun component _ => ?_
      simp only [Function.comp_apply, defaultCwd]
      split_ifs <;> rfl
  | removal =>
    cases hpoints
    have hnil : keyed candidate = keyed [] := (Except.ok.inj hcandidate).symm
    rw [keyed_injective hnil]
    exact ⟨[], rfl, rfl, rfl⟩

/-- The components of a registry in which the other packages and the package are pointed at. -/
structure Found (candidate others found : List Component) : Prop where
  faces : (found.map faced).Perm ((others ++ candidate).map faced)
  packages : (found.map Component.packageId).Perm ((others ++ candidate).map Component.packageId)

theorem Found.keys (h : Found candidate others recovered) :
    (recovered.map Component.key).Perm ((others ++ candidate).map Component.key) := by
  have := h.faces.map Prod.fst
  simpa only [List.map_map, faced, Function.comp_def] using this

theorem found_of_perm {own found : List Component} (hperm : found.Perm (own ++ others))
    (hfaces : own.map faced = candidate.map faced)
    (hpackages : own.map Component.packageId = candidate.map Component.packageId) :
    Found candidate others found := by
  have hswap : found.Perm (others ++ own) := hperm.trans List.perm_append_comm
  constructor
  · rw [List.map_append, ← hfaces, ← List.map_append]
    exact hswap.map faced
  · rw [List.map_append, ← hpackages, ← List.map_append]
    exact hswap.map Component.packageId

theorem reload_found (hcommit : Committed py packageId change before after)
    (hcandidate : change.components py before packageId = .ok (keyed candidate))
    {installed : Components} (h : loadInstalledManifests py after false = .ok installed) :
    ∃ others found, Others py before packageId others ∧ Found candidate others found ∧
      (found.map Component.key).Nodup ∧ installed = keyed found := by
  obtain ⟨old, new, hold, hnew, hothers, hpoints⟩ := hcommit.pointers
  obtain ⟨packages, found, hpackages, hdeclared, hnodup, heq⟩ := loadInstalledManifests_eq_ok.mp h
  obtain rfl : new = packages := Except.ok.inj (hnew.symm.trans hpackages)
  rw [declared_congr hcommit.resolve hcommit.manifest] at hdeclared
  obtain ⟨first, second, hfirst, hsecond, hperm⟩ :=
    declared_split (isPointer packageId) hdeclared
  obtain ⟨own, hown, hfaces, hids⟩ := declared_points hcandidate hpoints
  obtain rfl : own = first := Except.ok.inj (hown.symm.trans hfirst)
  rw [hothers] at hsecond
  exact ⟨second, found, ⟨old, hold, hsecond⟩, found_of_perm hperm hfaces hids, hnodup, heq⟩

theorem reload_loads (hcommit : Committed py packageId change before after)
    (hcandidate : change.components py before packageId = .ok (keyed candidate))
    (hothers : Others py before packageId others)
    (hnodup : ((others ++ candidate).map Component.key).Nodup) :
    ∃ found, loadInstalledManifests py after false = .ok (keyed found) ∧
      Found candidate others found := by
  obtain ⟨old, new, hold, hnew, hsame, hpoints⟩ := hcommit.pointers
  obtain ⟨packages, hpackages, hdeclared⟩ := hothers
  obtain rfl : old = packages := Except.ok.inj (hold.symm.trans hpackages)
  obtain ⟨own, hown, hfaces, hids⟩ := declared_points hcandidate hpoints
  rw [← hsame] at hdeclared
  obtain ⟨found, hfound, hperm⟩ := declared_join (isPointer packageId) hown hdeclared
  have hsets := found_of_perm hperm hfaces hids
  refine ⟨found, loadInstalledManifests_eq_ok.mpr ⟨new, found, hnew, ?_, ?_, rfl⟩, hsets⟩
  · rw [declared_congr hcommit.resolve hcommit.manifest]
    exact hfound
  · exact hsets.keys.nodup_iff.mpr hnodup

/-! ## Accepted catalogs -/

theorem get_dependencies (components : Components) (key : PyStr) :
    OrderedDict.get (dependencies components) key =
      ((OrderedDict.get components key).map face).map fun shown => ⟨shown.requires, shown.after⟩ := by
  induction components with
  | nil => rfl
  | cons entry components ih =>
    obtain ⟨k, component⟩ := entry
    rw [dependencies, List.map_cons, OrderedDict.get, OrderedDict.get]
    split_ifs
    · rfl
    · exact ih

theorem validateDependencyGraph_eq_ok {components : Components} :
    validateDependencyGraph components = .ok () ↔
      (dependencies components).validateDependencyGraph = .ok () := by
  unfold validateDependencyGraph
  cases (dependencies components).validateDependencyGraph with
  | ok value => simp [Except.mapError]
  | error text => simp [Except.mapError]

/-- Acceptance depends on the faces only. -/
theorem accepted_congr {checked replacement : Components}
    (hnodup : (replacement.map Prod.fst).Nodup)
    (hfaces : ∀ key, (OrderedDict.get checked key).map face =
      (OrderedDict.get replacement key).map face)
    (h : validateDependencyGraph checked = .ok ()) : validateDependencyGraph replacement = .ok () := by
  refine validateDependencyGraph_eq_ok.mpr (Catalog.validateDependencyGraph_congr ?_ ?_
    (validateDependencyGraph_eq_ok.mp h))
  · simpa [dependencies, Function.comp_def] using hnodup
  · intro key
    rw [get_dependencies, get_dependencies, hfaces]

theorem preflight_eq_ok {daemon : Msysd} {report : Report}
    (h : change.preflight py daemon state packageId = .ok report) :
    ∃ prospect, change.prospective py daemon.builtinComponents state packageId = .ok prospect ∧
      validateDependencyGraph prospect.catalog = .ok () := by
  have hchecked : ∀ (message removes leaves : String) (path : Option PyStr)
      (prospective : Except PyError Prospect),
      preflight py daemon message removes leaves packageId path prospective = .ok report →
      ∃ prospect, prospective = .ok prospect ∧
        validateDependencyGraph prospect.catalog = .ok () := by
    intro message removes leaves path prospective hreport
    cases prospective with
    | error error => cases hreport
    | ok prospect =>
      refine ⟨prospect, rfl, ?_⟩
      cases hgraph : validateDependencyGraph prospect.catalog with
      | ok value => rfl
      | error error =>
        rw [preflight] at hreport
        simp [checkProspective, hgraph, Except.mapError, bind, Except.bind] at hreport
  cases change with
  | candidate path => exact hchecked _ _ _ _ _ h
  | removal => exact hchecked _ _ _ _ _ h

/-! ## Agreement -/

theorem Recovered.unique {other : List Component} (h : Recovered py state recovered)
    (h' : Recovered py state other) : recovered = other := by
  obtain ⟨packages, hpackages, hdeclared⟩ := h
  obtain ⟨packages', hpackages', hdeclared'⟩ := h'
  obtain rfl : packages = packages' := Except.ok.inj (hpackages.symm.trans hpackages')
  exact Except.ok.inj (hdeclared.symm.trans hdeclared')

variable {daemon : Msysd} {prospect : Prospect}

theorem steady_agrees (hcommit : Committed py packageId change before after)
    (hprospect : change.prospective py daemon.builtinComponents before packageId = .ok prospect)
    (haccepted : validateDependencyGraph prospect.catalog = .ok ())
    (hsteady : SteadyState py daemon.builtinComponents before packageId change) :
    Agrees py daemon.builtinComponents after prospect.catalog := by
  obtain ⟨candidate, recovered, others, hreads, hsteady⟩ := hsteady
  obtain ⟨candidate', recovered', hcandidate, hnodup, hrecovered, hdistinct, hget⟩ :=
    prospective_eq_ok hprospect
  obtain rfl : candidate = candidate' :=
    keyed_injective (Except.ok.inj (hreads.candidate.symm.trans hcandidate))
  obtain rfl : recovered = recovered' := hreads.recovered.unique hrecovered
  obtain ⟨found, hload, hfound⟩ := reload_loads hcommit hcandidate hreads.others hsteady.distinct
  have hfaces : ∀ key, (OrderedDict.get (replacePackageComponents daemon.builtinComponents
      (keyed found)) key).map face = (OrderedDict.get prospect.catalog key).map face := by
    intro key
    rw [hget]
    refine faces_congr (hfound.keys.nodup_iff.mpr hsteady.distinct) (kept_nodup hdistinct hnodup)
      ?_ ?_ key
    · intro entry
      rw [hfound.faces.mem_iff, List.map_append, List.map_append, List.mem_append, List.mem_append,
        hsteady.same]
    · intro entry hentry
      rw [hfound.packages.mem_iff, hsteady.replaced entry hentry]
  refine ⟨_, bind_eq_ok.mpr ⟨keyed found, hload, bind_eq_ok.mpr ⟨(), ?_, rfl⟩⟩, hfaces⟩
  exact accepted_congr (nodup_replacePackageComponents daemon.builtin_nodup _)
    (fun key => (hfaces key).symm) haccepted

theorem agrees_steady (hcommit : Committed py packageId change before after)
    (hprospect : change.prospective py daemon.builtinComponents before packageId = .ok prospect)
    (hapart : Apart py daemon.builtinComponents before packageId change)
    (hagrees : Agrees py daemon.builtinComponents after prospect.catalog) :
    SteadyState py daemon.builtinComponents before packageId change := by
  obtain ⟨candidate, recovered, hcandidate, hnodup, hrecovered, hdistinct, hget⟩ :=
    prospective_eq_ok hprospect
  obtain ⟨replacement, hreload, hfaces⟩ := hagrees
  obtain ⟨installed, hload, hreload⟩ := bind_eq_ok.mp hreload
  obtain ⟨_, -, hreload⟩ := bind_eq_ok.mp hreload
  cases hreload
  obtain ⟨others, found, hothers, hfound, hfoundNodup, rfl⟩ :=
    reload_found hcommit hcandidate hload
  have hreads : Reads py before packageId change candidate recovered others :=
    ⟨hcandidate, hrecovered, hothers⟩
  have hall := hfound.keys.nodup_iff.mp hfoundNodup
  have hkept : ((kept packageId candidate recovered ++ candidate).map Component.key).Nodup :=
    kept_nodup hdistinct hnodup
  have hfree : ∀ component ∈ recovered ++ others,
      component.key ∉ daemon.builtinComponents.map Prod.fst := by
    intro component hmem hkey
    obtain ⟨entry, hentry, heq⟩ := List.mem_map.mp hkey
    exact (hapart candidate recovered others hreads entry hentry component hmem).1 heq
  have hmem : ∀ component ∈ recovered ++ others, ∀ value,
      (component.key, value) ∈ (kept packageId candidate recovered ++ candidate).map faced ↔
        (component.key, value) ∈ (others ++ candidate).map faced := by
    intro component hcomponent value
    rw [← mem_faced_iff hkept (hfree component hcomponent), ← hget, ← hfaces,
      mem_faced_iff hfoundNodup (hfree component hcomponent), hfound.faces.mem_iff]
  have hcandidateKey : ∀ key value, (key, value) ∈ candidate.map faced →
      key ∈ candidate.map Component.key := by
    intro key value hin
    obtain ⟨own, hown, heq⟩ := List.mem_map.mp hin
    exact List.mem_map.mpr ⟨own, hown, congrArg Prod.fst heq⟩
  refine ⟨candidate, recovered, others, hreads, hall, ?_, ?_⟩
  · intro entry
    constructor
    · intro hin
      obtain ⟨component, hcomponent, rfl⟩ := List.mem_map.mp hin
      obtain ⟨hold, hfilter⟩ := List.mem_filter.mp hcomponent
      have hboth := (hmem component (List.mem_append_left _ hold) _).mp
        (List.map_append ▸ List.mem_append_left _ hin)
      rw [List.map_append, List.mem_append] at hboth
      rcases hboth with hother | hown
      · exact hother
      · exact absurd (hcandidateKey _ _ hown) (decide_eq_true_iff.mp hfilter).2
    · intro hin
      obtain ⟨component, hcomponent, rfl⟩ := List.mem_map.mp hin
      have hboth := (hmem component (List.mem_append_right _ hcomponent) _).mpr
        (List.map_append ▸ List.mem_append_left _ hin)
      rw [List.map_append, List.mem_append] at hboth
      rcases hboth with hkeptMem | hown
      · exact hkeptMem
      · rw [List.map_append] at hall
        exact ((List.nodup_append.mp hall).2.2 _ (List.mem_map_of_mem hcomponent) _
          (hcandidateKey _ _ hown) rfl).elim
  · intro entry hentry
    have hnotIn : ∀ component ∈ recovered ++ others, component.packageId ≠ entry.2.packageId := by
      intro component hcomponent heq
      exact (hapart candidate recovered others hreads entry hentry component hcomponent).2 heq.symm
    have hnotKept : entry.2.packageId ∉
        (kept packageId candidate recovered).map Component.packageId := by
      intro hin
      obtain ⟨component, hcomponent, heq⟩ := List.mem_map.mp hin
      exact hnotIn component (List.mem_append_left _ (List.mem_of_mem_filter hcomponent)) heq
    have hnotOther : entry.2.packageId ∉ others.map Component.packageId := by
      intro hin
      obtain ⟨component, hcomponent, heq⟩ := List.mem_map.mp hin
      exact hnotIn component (List.mem_append_right _ hcomponent) heq
    rw [List.map_append, List.map_append, List.mem_append, List.mem_append]
    exact or_congr_left (iff_of_false hnotKept hnotOther)

/-- With nothing to recover, packages that point at their own components only are steady. -/
theorem steady_of_quiet (hreads : Reads py state packageId change candidate recovered others)
    (hquiet : installedPackages py state true = installedPackages py state false)
    (hown : ∀ packages own, installedPackages py state false = .ok packages →
      declared py state (packages.filter (isPointer packageId)) = .ok own →
      ∀ component ∈ own, component.packageId = packageId)
    (hothers : ∀ component ∈ others, component.packageId ≠ packageId)
    (hdistinct : ((others ++ candidate).map Component.key).Nodup) (builtin : Components) :
    SteadyState py builtin state packageId change := by
  obtain ⟨packages, hpackages, hdeclared⟩ := hreads.recovered
  obtain ⟨packages', hpackages', hrest⟩ := hreads.others
  obtain rfl : packages = packages' :=
    Except.ok.inj (hpackages.symm.trans (hquiet.trans hpackages'))
  obtain ⟨own, second, hfirst, hsecond, hperm⟩ := declared_split (isPointer packageId) hdeclared
  obtain rfl : others = second := Except.ok.inj (hrest.symm.trans hsecond)
  have hkept : ∀ component, component ∈ kept packageId candidate recovered ↔
      component ∈ others := by
    intro component
    rw [kept, List.mem_filter, decide_eq_true_iff, hperm.mem_iff, List.mem_append]
    constructor
    · rintro ⟨hin | hin, hother, -⟩
      · exact absurd (hown packages own hpackages' hfirst component hin) hother
      · exact hin
    · intro hin
      refine ⟨.inr hin, hothers component hin, fun hkey => ?_⟩
      rw [List.map_append] at hdistinct
      exact (List.nodup_append.mp hdistinct).2.2 _ (List.mem_map_of_mem hin) _ hkey rfl
  refine ⟨candidate, recovered, others, hreads, hdistinct, ?_, ?_⟩
  · intro entry
    rw [List.mem_map, List.mem_map]
    exact exists_congr fun component => and_congr_left fun _ => hkept component
  · intro entry _
    rw [List.map_append, List.map_append, List.mem_append, List.mem_append]
    refine or_congr_left ?_
    rw [List.mem_map, List.mem_map]
    exact exists_congr fun component => and_congr_left fun _ => hkept component

/-- After an accepted preflight and the change it checked, a reload builds the checked catalog
when the other packages are steady. Where nothing installed is built in too, it does so only
then. -/
theorem preflight_agrees {report : Report}
    (hpreflight : change.preflight py daemon before packageId = .ok report)
    (hcommit : Committed py packageId change before after) :
    ∃ prospect, change.prospective py daemon.builtinComponents before packageId = .ok prospect ∧
      (SteadyState py daemon.builtinComponents before packageId change →
        Agrees py daemon.builtinComponents after prospect.catalog) ∧
      (Apart py daemon.builtinComponents before packageId change →
        Agrees py daemon.builtinComponents after prospect.catalog →
        SteadyState py daemon.builtinComponents before packageId change) := by
  obtain ⟨prospect, hprospect, haccepted⟩ := preflight_eq_ok hpreflight
  exact ⟨prospect, hprospect, steady_agrees hcommit hprospect haccepted,
    agrees_steady hcommit hprospect⟩

/-! ## Two packages -/

def manifestOf (packageId component : String) (requires : List Json) : Json :=
  .dict (record [("schema", text "msys.manifest.v1"), ("package", .dict (record [("id",
    text packageId)])), ("components", .list [.dict (record [("id", text component),
    ("exec", .list []), ("requires", .list requires)])])])

def pointer (packageId path : String) : Json :=
  .dict (record [("package", text packageId), ("path", text path)])

/-- Two versions of a package, and a package that requires what only the first version has. -/
def stateDir (pointers : List Json) (transaction : Option (Except PyError Json)) : StateDir where
  registry := some (.ok (.dict (record [("packages", .list pointers)])))
  transaction := transaction
  resolve path := .ok path
  packageParts target := .ok [target, lit "versions", lit "1"]
  manifest target :=
    if target = lit "lib1" then .file (.ok (manifestOf "lib" "old" []))
    else if target = lit "lib2" then .file (.ok (manifestOf "lib" "new" []))
    else if target = lit "app" then .file (.ok (manifestOf "app" "main" [text "lib:old"]))
    else .missing

/-- The update of the first package from the first to the second version was interrupted. -/
def pendingJournal : Json :=
  .dict (record [("schema", text "msys.install-transaction.v1"), ("phase", text "health_pending"),
    ("package", text "lib"), ("restore_current", pointer "lib" "lib1")])

def emptyMsysd : Msysd where
  builtinComponents := []
  builtin_nodup := List.nodup_nil
  components := []
  profile := []
  roleRegistry := .ofRoles []

/-- Without a pending journal the reload builds the catalog that was checked. -/
theorem preflight_agrees_quiet :
    ∃ prospect, (Change.candidate (lit "app")).prospective bareInterpreter [] (stateDir
        [pointer "lib" "lib1"] none) (lit "app") = .ok prospect ∧
      Agrees bareInterpreter [] (stateDir [pointer "lib" "lib1", pointer "app" "app"] none)
        prospect.catalog := by
  let before := stateDir [pointer "lib" "lib1"] none
  let change := Change.candidate (lit "app")
  obtain ⟨report, hreport⟩ : ∃ report,
      change.preflight bareInterpreter emptyMsysd before (lit "app") = .ok report := ⟨_, rfl⟩
  have hcommit : Committed bareInterpreter (lit "app") change before
      (stateDir [pointer "lib" "lib1", pointer "app" "app"] none) :=
    ⟨rfl, rfl, [pointer "lib" "lib1"], [pointer "lib" "lib1", pointer "app" "app"], rfl, rfl,
      by decide +kernel, _, rfl, rfl⟩
  obtain ⟨prospect, hprospect, hagrees, -⟩ := preflight_agrees hreport hcommit
  let candidate :=
    ((change.components bareInterpreter before (lit "app")).toOption.getD []).map Prod.snd
  let others := ((declared bareInterpreter before [pointer "lib" "lib1"]).toOption.getD [])
  have hreads : Reads bareInterpreter before (lit "app") change candidate others others :=
    ⟨rfl, ⟨_, rfl, rfl⟩, ⟨_, rfl, rfl⟩⟩
  refine ⟨prospect, hprospect, hagrees (steady_of_quiet hreads rfl ?_ ?_ ?_ _)⟩
  · intro packages own hpackages hown component hin
    cases hpackages
    cases hown
    cases hin
  · decide +kernel
  · decide +kernel

/-- The candidate is checked against the version that a restart would restore, and the reload
finds the other one. -/
theorem pendingJournal_disagrees :
    ¬ ∀ (py : Interpreter) (daemon : Msysd) (before after : StateDir) (packageId : PyStr)
      (change : Change) (report : Report),
      change.preflight py daemon before packageId = .ok report →
      Committed py packageId change before after →
      ∃ prospect, change.prospective py daemon.builtinComponents before packageId = .ok prospect ∧
        Agrees py daemon.builtinComponents after prospect.catalog := by
  intro h
  obtain ⟨report, hreport⟩ : ∃ report, (Change.candidate (lit "app")).preflight bareInterpreter
      emptyMsysd (stateDir [pointer "lib" "lib2"] (some (.ok pendingJournal))) (lit "app") =
      .ok report := ⟨_, rfl⟩
  have hcommit : Committed bareInterpreter (lit "app") (.candidate (lit "app"))
      (stateDir [pointer "lib" "lib2"] (some (.ok pendingJournal)))
      (stateDir [pointer "lib" "lib2", pointer "app" "app"] none) :=
    ⟨rfl, rfl, [pointer "lib" "lib2"], [pointer "lib" "lib2", pointer "app" "app"], rfl, rfl,
      by decide +kernel, _, rfl, rfl⟩
  obtain ⟨prospect, -, replacement, hreload, -⟩ := h _ _ _ _ _ _ _ hreport hcommit
  have hrefused : (reloadCatalog bareInterpreter emptyMsysd.builtinComponents
      (stateDir [pointer "lib" "lib2", pointer "app" "app"] none)).isOk = false := by
    decide +kernel
  rw [hreload] at hrefused
  cases hrefused

end MsysCore.Core.Preflight
