import MsysCore.Core.DependencyGraph

/-!
# Manifests

`load_manifest`: the components of one package, with the defaults of the contract and
with package-local references made global. The isolation section is checked to occur once
and is not read further.
-/

namespace MsysCore.Core.Manifest

open Python

inductive ProvideKind
  | role | interface | capability
  deriving DecidableEq

structure Provide where
  kind : ProvideKind
  name : PyStr
  exclusive : Bool := false
  priority : ℤ := 0
  deriving DecidableEq

structure Component where
  packageId : PyStr
  packageVersion : PyStr
  id : PyStr
  exec : List PyStr
  lifecycle : PyStr
  packageKind : PyStr
  packageName : PyStr
  packageSummary : PyStr
  packageIcons : List Dict
  runtime : PyStr
  restart : PyStr
  idleTimeoutMs : Option ℤ
  cwd : Option PyStr
  env : List (PyStr × PyStr)
  readinessMode : PyStr
  readinessTimeoutMs : ℤ
  provides : List Provide
  requires : List PyStr
  wants : List PyStr
  after : List PyStr
  windowing : Dict
  activation : Dict
  permissions : List PyStr

/-- The global id of a component of a package. -/
def componentKey (packageId localId : PyStr) : PyStr := packageId ++ lit ":" ++ localId

def Component.key (component : Component) : PyStr := componentKey component.packageId component.id

/-! ## Built-in operations -/

/-- `for item in value`. -/
def iterate (value : Json) : Except PyError (List Json) :=
  match value.items with
  | some items => .ok items
  | none => raise .typeError ("'" ++ value.typeName ++ "' object is not iterable")

/-- `value[key]` with a literal text as key. -/
def subscript (value : Json) (key : String) : Except PyError Json :=
  match value with
  | .dict entries =>
    match Dict.get? entries key with
    | some item => .ok item
    | none => raise .keyError ("'" ++ key ++ "'")
  | .str _ => raise .typeError "string indices must be integers, not 'str'"
  | .list _ => raise .typeError "list indices must be integers or slices, not str"
  | _ => raise .typeError ("'" ++ value.typeName ++ "' object is not subscriptable")

/-- `value.items()`. -/
def dictItems (value : Json) : Except PyError Dict :=
  match value with
  | .dict entries => .ok entries
  | _ => raise .attributeError ("'" ++ value.typeName ++ "' object has no attribute 'items'")

section

variable (py : Interpreter)

/-- `[str(item) for item in value]`. -/
def strings (value : Json) : Except PyError (List PyStr) := do
  let items ← iterate value
  pure (items.map (toStr py))

/-! ## `manifest.py` -/

/-- `_provide`; a role is exclusive unless it says otherwise. -/
def provide (raw : Json) : Except PyError Provide := do
  let entry ← raw.asDict
  match Dict.get? entry "role", Dict.get? entry "interface", Dict.get? entry "capability" with
  | some name, _, _ => do
    let priority ← toInt py (Dict.get entry "priority" (.int 0))
    pure ⟨.role, toStr py name, (Dict.get entry "exclusive" (.bool true)).truthy, priority⟩
  | none, some name, _ => do
    let priority ← toInt py (Dict.get entry "priority" (.int 0))
    pure ⟨.interface, toStr py name, (Dict.get entry "exclusive" (.bool false)).truthy, priority⟩
  | none, none, some name => do
    let priority ← toInt py (Dict.get entry "priority" (.int 0))
    pure ⟨.capability, toStr py name, (Dict.get entry "exclusive" (.bool false)).truthy, priority⟩
  | none, none, none =>
    .error ⟨.valueError, lit "unknown provide entry: " ++ Python.repr py raw⟩

/-- `_component_reference`. -/
def componentReference (packageId : PyStr) (value : Json) : PyStr :=
  let reference := toStr py value
  if reference.contains 58 then reference else componentKey packageId reference

/-- `[_component_reference(package_id, item) for item in value]`. -/
def componentReferences (packageId : PyStr) (value : Json) : Except PyError (List PyStr) := do
  let items ← iterate value
  pure (items.map (componentReference py packageId))

def minIdleTimeoutMs : ℤ := 1000
def maxIdleTimeoutMs : ℤ := 86400000

/-- `_idle_timeout`. -/
def idleTimeout (path : PyStr) (raw : Dict) (lifecycle : PyStr) : Except PyError (Option ℤ) :=
  let component := path ++ lit ": component " ++ toStr py (Dict.get raw "id" (text ""))
  match Dict.get? raw "idle_timeout_ms" with
  | none => .ok none
  | some (.int value) =>
    if ¬ (minIdleTimeoutMs ≤ value ∧ value ≤ maxIdleTimeoutMs) then
      .error ⟨.valueError, component ++ lit " idle_timeout_ms must be between 1000 and 86400000"⟩
    else if lifecycle ≠ lit "on-demand" then
      .error ⟨.valueError, component ++ lit " idle_timeout_ms requires lifecycle=on-demand"⟩
    else .ok (some value)
  | some _ => .error ⟨.valueError, component ++ lit " idle_timeout_ms must be an integer"⟩

/-- The package fields every component of a manifest repeats. -/
structure PackageFields where
  id : PyStr
  version : PyStr
  kind : PyStr
  name : PyStr
  summary : PyStr
  icons : Json

def dictsOf (items : List Json) : List Dict :=
  items.filterMap fun
    | .dict entries => some entries
    | _ => none

/-- One turn of the loop of `load_manifest`. -/
def loadComponent (path : PyStr) (package : PackageFields) (raw : Json) :
    Except PyError Component := do
  let raw ← raw.asDict
  let readiness := Dict.get raw "readiness" (.dict [])
  let lifecycle := toStr py (Dict.get raw "lifecycle" (text "manual"))
  if (Dict.get? raw "isolation").isSome ∧ (Dict.get? raw "x-msys-isolation").isSome then
    .error ⟨.valueError, path ++ lit ": component " ++ toStr py (Dict.get raw "id" (text ""))
      ++ lit " declares isolation twice"⟩
  else do
    let icons ← iterate package.icons
    let id ← subscript (.dict raw) "id"
    let exec ← subscript (.dict raw) "exec"
    let exec ← strings py exec
    let idleTimeoutMs ← idleTimeout py path raw lifecycle
    let cwd := Dict.get raw "cwd" .null
    let env ← dictItems (Dict.get raw "env" (.dict []))
    let readiness ← readiness.asDict
    let readinessTimeoutMs ← toInt py (Dict.get readiness "timeout_ms" (.int 5000))
    let provides ← iterate (Dict.get raw "provides" (.list []))
    let provides ← provides.mapM (provide py)
    let requires ← componentReferences py package.id (Dict.get raw "requires" (.list []))
    let wants ← componentReferences py package.id (Dict.get raw "wants" (.list []))
    let after ← componentReferences py package.id (Dict.get raw "after" (.list []))
    let windowing ← toDict (Dict.get raw "windowing" (.dict []))
    let activation ← toDict (Dict.get raw "activation" (.dict []))
    let permissions ← strings py (Dict.get raw "permissions" (.list []))
    pure
      { packageId := package.id
        packageVersion := package.version
        id := toStr py id
        exec := exec
        lifecycle := lifecycle
        packageKind := package.kind
        packageName := package.name
        packageSummary := package.summary
        packageIcons := dictsOf icons
        runtime := toStr py (Dict.get raw "runtime" (text "custom"))
        restart := toStr py (Dict.get raw "restart" (text "never"))
        idleTimeoutMs := idleTimeoutMs
        cwd := if cwd.truthy then some (toStr py cwd) else none
        env := env.map fun entry => (toStr py entry.1, toStr py entry.2)
        readinessMode := toStr py (Dict.get readiness "mode" (text "exec"))
        readinessTimeoutMs := readinessTimeoutMs
        provides := provides
        requires := requires
        wants := wants
        after := after
        windowing := windowing
        activation := activation
        permissions := permissions }

/-- `load_manifest` on the decoded file. -/
def loadManifest (path : PyStr) (data : Json) : Except PyError (List Component) := do
  let entries ← data.asDict
  if keyEq (Dict.get entries "schema" .null) (text "msys.manifest.v1") = false then
    .error ⟨.valueError, path ++ lit " is not an MSYS v1 manifest"⟩
  else do
    let pkg ← subscript data "package"
    let id ← subscript pkg "id"
    let fields ← pkg.asDict
    let packageId := toStr py id
    let name := Dict.get fields "name" .null
    let package : PackageFields :=
      { id := packageId
        version := toStr py (Dict.get fields "version" (text "0.0.0"))
        kind := toStr py (Dict.get fields "kind" (text "application"))
        name := if name.truthy then toStr py name else packageId
        summary := match Dict.get fields "summary" (text "") with
          | .str summary => summary
          | _ => []
        icons := Dict.get fields "icons" (.list []) }
    let raws ← iterate (Dict.get entries "components" (.list []))
    raws.mapM (loadComponent py path package)

/-! ## What a loaded component takes from its manifest -/

variable {py}

theorem loadComponent_eq_ok {path : PyStr} {package : PackageFields} {raw : Json}
    {component : Component} (h : loadComponent py path package raw = .ok component) :
    ∃ fields id provides, raw = .dict fields ∧ Dict.get? fields "id" = some id ∧
      component.packageId = package.id ∧ component.key = componentKey package.id (toStr py id) ∧
      iterate (Dict.get fields "provides" (.list [])) = .ok provides ∧
      provides.mapM (provide py) = .ok component.provides ∧
      componentReferences py package.id (Dict.get fields "requires" (.list [])) =
        .ok component.requires ∧
      componentReferences py package.id (Dict.get fields "after" (.list [])) =
        .ok component.after := by
  obtain ⟨fields, hfields, h⟩ := bind_eq_ok.mp h
  have hraw : raw = .dict fields := by
    cases raw with
    | dict entries =>
      cases hfields
      rfl
    | _ => cases hfields
  split_ifs at h with htwice
  obtain ⟨icons, -, h⟩ := bind_eq_ok.mp h
  obtain ⟨id, hid, h⟩ := bind_eq_ok.mp h
  obtain ⟨exec, -, h⟩ := bind_eq_ok.mp h
  obtain ⟨args, -, h⟩ := bind_eq_ok.mp h
  obtain ⟨idle, -, h⟩ := bind_eq_ok.mp h
  obtain ⟨env, -, h⟩ := bind_eq_ok.mp h
  obtain ⟨readiness, -, h⟩ := bind_eq_ok.mp h
  obtain ⟨timeout, -, h⟩ := bind_eq_ok.mp h
  obtain ⟨raws, hraws, h⟩ := bind_eq_ok.mp h
  obtain ⟨provides, hprovides, h⟩ := bind_eq_ok.mp h
  obtain ⟨requires, hrequires, h⟩ := bind_eq_ok.mp h
  obtain ⟨wants, -, h⟩ := bind_eq_ok.mp h
  obtain ⟨after, hafter, h⟩ := bind_eq_ok.mp h
  obtain ⟨windowing, -, h⟩ := bind_eq_ok.mp h
  obtain ⟨activation, -, h⟩ := bind_eq_ok.mp h
  obtain ⟨permissions, -, h⟩ := bind_eq_ok.mp h
  cases h
  have hget : Dict.get? fields "id" = some id := by
    unfold subscript at hid
    cases hfound : Dict.get? fields "id" with
    | none => simp [hfound, raise] at hid
    | some item =>
      simp only [hfound, Except.ok.injEq] at hid
      rw [hid]
  exact ⟨fields, id, raws, hraw, hget, rfl, rfl, hraws, hprovides, hrequires, hafter⟩

/-! ## The path of a manifest shows in errors only -/

theorem idleTimeout_agreesOk (path other : PyStr) (raw : Dict) (lifecycle : PyStr) :
    AgreesOk (idleTimeout py path raw lifecycle) (idleTimeout py other raw lifecycle) := by
  unfold idleTimeout
  cases Dict.get? raw "idle_timeout_ms" with
  | none => exact AgreesOk.refl _
  | some value =>
    cases value with
    | int value =>
      dsimp only
      split_ifs
      · exact agreesOk_error _ _
      · exact AgreesOk.refl _
      · exact agreesOk_error _ _
    | _ => exact agreesOk_error _ _

theorem loadComponent_agreesOk (path other : PyStr) (package : PackageFields) (raw : Json) :
    AgreesOk (loadComponent py path package raw) (loadComponent py other package raw) := by
  unfold loadComponent
  refine (AgreesOk.refl _).bind fun raw => ?_
  by_cases htwice : (Dict.get? raw "isolation").isSome ∧ (Dict.get? raw "x-msys-isolation").isSome
  · rw [if_pos htwice, if_pos htwice]
    exact agreesOk_error _ _
  · rw [if_neg htwice, if_neg htwice]
    refine (AgreesOk.refl _).bind fun icons => (AgreesOk.refl _).bind fun id => ?_
    refine (AgreesOk.refl _).bind fun exec => (AgreesOk.refl _).bind fun args => ?_
    exact (idleTimeout_agreesOk path other _ _).bind fun idle => AgreesOk.refl _

theorem loadManifest_agreesOk (path other : PyStr) (data : Json) :
    AgreesOk (loadManifest py path data) (loadManifest py other data) := by
  unfold loadManifest
  refine (AgreesOk.refl _).bind fun entries => ?_
  split_ifs
  · exact agreesOk_error _ _
  · refine (AgreesOk.refl _).bind fun pkg => (AgreesOk.refl _).bind fun id => ?_
    refine (AgreesOk.refl _).bind fun fields => (AgreesOk.refl _).bind fun raws => ?_
    exact AgreesOk.mapM (fun raw => loadComponent_agreesOk path other _ raw) raws

end

end MsysCore.Core.Manifest
