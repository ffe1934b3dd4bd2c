import MsysCore.Core.MipcAcl
import MsysCore.Native.PlanOrder
import MsysCore.Native.RuntimeSource
import MsysCore.Python.Codec

/-!
# Compiling a runtime plan

`compile_runtime_plan.py`: a document of either version is checked and normalised, its components
are put in order, and what is left is written line by line. An object has texts as keys, as JSON
can have no others.
-/

namespace MsysCore.Native.PlanSource

open Python PlanOrder

/-- `PlanError` -/
def planError {α : Type} (message : PyStr) : Except PyError α := .error ⟨.valueError, message⟩

def header : PyStr := lit "MSYS_NATIVE_LITE_PLAN\t1"
def headerV2 : PyStr := lit "MSYS_NATIVE_LITE_PLAN\t2"
def maxBytes : ℕ := 1024 * 1024
def maxComponents : ℕ := 64

/-- `ID_RE.fullmatch` -/
def idRe : PyStr → Bool
  | [] => false
  | first :: rest => Core.isAlnum first && rest.length ≤ 127 && rest.all Core.topicChar

def envStart (c : ℕ) : Bool := (65 ≤ c && c ≤ 90) || (97 ≤ c && c ≤ 122) || c == 95

/-- `ENV_RE.fullmatch` -/
def envRe : PyStr → Bool
  | [] => false
  | first :: rest => envStart first && rest.length ≤ 127 &&
    rest.all fun c => envStart c || (48 ≤ c && c ≤ 57)

def reservedEnv : List PyStr :=
  ["MSYS_READY_FD", "MSYS_CONTROL_FD", "MSYS_COMPONENT_ID", "MSYS_GENERATION",
    "MSYS_RUNTIME_DIR", "MSYS_PACKAGE_ID", "MSYS_PACKAGE_VERSION", "MSYS_WINDOW_TITLE",
    "MSYS_APP_ID", "MSYS_WINDOW_IDENTITY", "MSYS_X11_WM_INSTANCE"].map lit

/-! ## The normalised document -/

def kindName : ComponentKind → String
  | .display => "display"
  | .window => "window"
  | .shell => "shell"
  | .other => "other"

def restartName : RestartPolicy → String
  | .never => "never"
  | .onFailure => "on-failure"
  | .always => "always"

def readinessName : ReadinessMode → String
  | .exec => "exec"
  | .fd => "fd"
  | .mipc => "mipc-ready"
  | .x11Display => "x11-display"

def lifecycleName : Lifecycle → String
  | .background => "background"
  | .onDemand => "on-demand"
  | .manual => "manual"

def provideName : ProvideKind → String
  | .role => "role"
  | .interface => "interface"
  | .capability => "capability"

/-- What the components of both versions have besides the fields that order them. -/
structure LaunchFields where
  kind : ComponentKind
  restart : RestartPolicy
  readinessMode : ReadinessMode
  readinessTimeoutMs : ℕ
  initialMs : ℕ
  maxMs : ℕ
  limit : ℕ
  argv : List PyStr
  environment : List (PyStr × PyStr)

structure PlanProvide where
  kind : ProvideKind
  name : PyStr
  exclusive : Bool
  priority : ℕ
  deriving DecidableEq

structure ServiceFields extends LaunchFields where
  lifecycle : Lifecycle
  idleTimeoutMs : ℕ
  provides : List PlanProvide
  permissions : List PyStr
  package : SourcePackage
  name : PyStr
  summary : PyStr
  icon : PyStr
  launchable : Bool
  window : SourceWindowing

structure PlanProfile where
  id : PyStr
  display : PyStr
  roles : List (PyStr × List PyStr)
  startup : List PyStr
  environment : List (PyStr × PyStr)

/-- The components are in the order of `topological_components`. -/
inductive NormalizedDocument
  | v1 (stopGrace : ℕ) (components : List (PlanComponent LaunchFields))
  | v2 (stopGrace : ℕ) (profile : PlanProfile) (components : List (PlanComponent ServiceFields))

/-! ## Values -/

section

variable (py : Interpreter)

/-- The entries of an object. -/
def textEntries (entries : Dict) : Except PyError (List (PyStr × Json)) :=
  entries.mapM fun entry =>
    match entry.1 with
    | .str key => .ok (key, entry.2)
    | _ => raise .typeError "expected string or bytes-like object"

def closedObject (value : Json) (path : PyStr) (allowed required : List String) :
    Except PyError Dict :=
  match value with
  | .dict entries => do
    let named ← textEntries entries
    let keys := named.map Prod.fst
    let unknown := (keys.filter fun key => !(allowed.map lit).contains key).insertionSort (· ≤ ·)
    let missing := ((required.map lit).filter fun key => !keys.contains key).insertionSort (· ≤ ·)
    match unknown, missing with
    | name :: _, _ => planError (path ++ lit " has unknown field " ++ reprStr py name)
    | [], name :: _ => planError (path ++ lit " is missing field " ++ reprStr py name)
    | [], [] => pure entries
  | _ => planError (path ++ lit " must be an object")

def integer (value : Json) (path : PyStr) (minimum maximum : ℕ) : Except PyError ℕ :=
  let invalid := path ++ lit " must be an integer in " ++ intText minimum ++ lit ".."
    ++ intText maximum
  match value with
  | .int i => if minimum ≤ i ∧ i ≤ maximum then .ok i.toNat else planError invalid
  | _ => planError invalid

/-- `enum_string`, with the names of what is allowed. -/
def enumString {α : Type} (name : α → String) (value : Json) (path : PyStr) (allowed : List α) :
    Except PyError α :=
  match value with
  | .str s =>
    match allowed.find? fun a => s == lit (name a) with
    | some a => .ok a
    | none => planError (path ++ lit " is invalid")
  | _ => planError (path ++ lit " is invalid")

def boundedString (value : Json) (path : PyStr) (maximumBytes : ℕ) (nonempty : Bool) :
    Except PyError PyStr :=
  match value with
  | .str s =>
    if 0 ∈ s then planError (path ++ lit " must be a NUL-free string")
    else do
      let data ← utf8Encode s
      if (nonempty && s.isEmpty) || maximumBytes < data.length then
        planError (path ++ lit " has invalid encoded length")
      else pure s
  | _ => planError (path ++ lit " must be a NUL-free string")

def boolean (value : Json) (path : PyStr) : Except PyError Bool :=
  match value with
  | .bool b => .ok b
  | _ => planError (path ++ lit " must be boolean")

def identifier (value : Json) (path invalid : PyStr) : Except PyError PyStr := do
  let id ← boundedString value path 128 true
  if !idRe id then planError invalid else pure id

def element (path : PyStr) (offset : ℕ) : PyStr := path ++ lit "[" ++ intText offset ++ lit "]"

def boundedStrings (items : List Json) (path : PyStr) (maximumBytes : ℕ) (nonempty : Bool) :
    Except PyError (List PyStr) :=
  items.zipIdx.mapM fun item => boundedString item.1 (element path item.2) maximumBytes nonempty

/-- A list whose number of items is checked. -/
def boundedList (value : Json) (least most : ℕ) (invalid : PyStr) : Except PyError (List Json) :=
  match value with
  | .list items =>
    if least ≤ items.length ∧ items.length ≤ most then .ok items else planError invalid
  | _ => planError invalid

/-- Distinct ids, as version 2 checks them. -/
def identifiers (value : Json) (path : PyStr) (least most : ℕ) (bounds noun : String) :
    Except PyError (List PyStr) := do
  let items ← boundedList value least most (path ++ lit " must contain " ++ lit bounds)
  let ids ← boundedStrings items path 128 true
  if ids.any (fun id => !idRe id) || !ids.Nodup then
    planError (path ++ lit " contains invalid or duplicate " ++ lit noun)
  else pure ids

/-- One turn of the loop over the sorted keys. -/
def environmentEntry (path : PyStr) (entry : PyStr × Json) : Except PyError (PyStr × PyStr) :=
  if !envRe entry.1 || reservedEnv.contains entry.1 then
    planError (path ++ lit " has invalid or reserved key " ++ reprStr py entry.1)
  else do
    let value ← boundedString entry.2 (path ++ lit "." ++ entry.1) 4096 false
    pure (entry.1, value)

def environment (value : Json) (path : PyStr) : Except PyError (List (PyStr × PyStr)) :=
  let invalid := path ++ lit " must contain at most 64 entries"
  match value with
  | .dict entries =>
    if 64 < entries.length then planError invalid
    else do
      let named ← textEntries entries
      (named.insertionSort fun a b => a.1 ≤ b.1).mapM (environmentEntry py path)
  | _ => planError invalid

/-! ## Components -/

def readiness (item : Dict) (path : PyStr) (modes : List ReadinessMode) :
    Except PyError (ReadinessMode × ℕ) := do
  let readiness ← closedObject py (Dict.get item "readiness" .null) (path ++ lit ".readiness")
    ["mode", "timeout_ms"] ["mode", "timeout_ms"]
  let mode ← enumString readinessName (Dict.get readiness "mode" .null)
    (path ++ lit ".readiness.mode") modes
  let timeout ← integer (Dict.get readiness "timeout_ms" .null)
    (path ++ lit ".readiness.timeout_ms") 1 300000
  pure (mode, timeout)

structure Backoff where
  initialMs : ℕ
  maxMs : ℕ
  limit : ℕ

def backoff (item : Dict) (path : PyStr) : Except PyError Backoff := do
  let backoff ← closedObject py (Dict.get item "backoff" (.dict [])) (path ++ lit ".backoff")
    ["initial_ms", "max_ms", "limit"] []
  let initialMs ← integer (Dict.get backoff "initial_ms" (.int 250))
    (path ++ lit ".backoff.initial_ms") 1 60000
  let maxMs ← integer (Dict.get backoff "max_ms" (.int 30000))
    (path ++ lit ".backoff.max_ms") initialMs 300000
  let limit ← integer (Dict.get backoff "limit" (.int 8)) (path ++ lit ".backoff.limit") 0 1000
  pure ⟨initialMs, maxMs, limit⟩

def argv (item : Dict) (path : PyStr) : Except PyError (List PyStr) := do
  let path := path ++ lit ".exec"
  let items ← boundedList (Dict.get item "exec" .null) 1 64
    (path ++ lit " must contain 1..64 arguments")
  let argv ← boundedStrings items path 4096 false
  if (argv.headD []).head? ≠ some 47 then planError (path ++ lit "[0] must be absolute")
  else pure argv

/-- The `after` list of version 1. -/
def after (item : Dict) (path : PyStr) : Except PyError (List PyStr) := do
  let path := path ++ lit ".after"
  let items ← boundedList (Dict.get item "after" (.list [])) 0 32
    (path ++ lit " must contain at most 32 ids")
  let after ← items.zipIdx.mapM fun item =>
    identifier item.1 (element path item.2) (element path item.2 ++ lit " is invalid")
  if !after.Nodup then planError (path ++ lit " contains duplicates") else pure after

def componentKinds : List ComponentKind := [.display, .window, .shell, .other]

def restartPolicies : List RestartPolicy := [.never, .onFailure, .always]

def componentPath (index : ℕ) : PyStr := element (lit "$.components") index

def normalizeComponent (raw : Json) (index : ℕ) : Except PyError (PlanComponent LaunchFields) := do
  let path := componentPath index
  let item ← closedObject py raw path
    ["id", "kind", "critical", "restart", "readiness", "backoff", "exec", "after", "env"]
    ["id", "kind", "critical", "restart", "readiness", "exec"]
  let id ← identifier (Dict.get item "id" .null) (path ++ lit ".id") (path ++ lit ".id is invalid")
  let kind ← enumString kindName (Dict.get item "kind" .null) (path ++ lit ".kind") componentKinds
  let critical ← boolean (Dict.get item "critical" .null) (path ++ lit ".critical")
  let restart ← enumString restartName (Dict.get item "restart" .null) (path ++ lit ".restart")
    restartPolicies
  let (mode, timeout) ← readiness py item path [.exec, .fd, .mipc]
  let backoff ← backoff py item path
  let argv ← argv item path
  let after ← after item path
  let environment ← environment py (Dict.get item "env" (.dict [])) (path ++ lit ".env")
  pure
    { id := id
      critical := critical
      after := after.insertionSort (· ≤ ·)
      fields :=
        { kind := kind
          restart := restart
          readinessMode := mode
          readinessTimeoutMs := timeout
          initialMs := backoff.initialMs
          maxMs := backoff.maxMs
          limit := backoff.limit
          argv := argv
          environment := environment } }

def lifecycle (item : Dict) (path : PyStr) : Except PyError (Lifecycle × ℕ) := do
  let lifecycle ← enumString lifecycleName (Dict.get item "lifecycle" .null)
    (path ++ lit ".lifecycle") [.background, .onDemand, .manual]
  let path := path ++ lit ".idle_timeout_ms"
  let idleTimeoutMs ← integer (Dict.get item "idle_timeout_ms" (.int 0)) path 0 3600000
  if lifecycle = .onDemand ∧ idleTimeoutMs < 100 then
    planError (path ++ lit " must be at least 100 for on-demand")
  else if lifecycle ≠ .onDemand ∧ idleTimeoutMs ≠ 0 then
    planError (path ++ lit " is only valid for on-demand")
  else pure (lifecycle, idleTimeoutMs)

/-- One turn of the loop over `provides`; `provided_keys` are the keys of `provides`. -/
def addProvide (path : PyStr) (provides : List PlanProvide) (entry : Json × ℕ) :
    Except PyError (List PlanProvide) := do
  let path := element (path ++ lit ".provides") entry.2
  let provide ← closedObject py entry.1 path
    ["role", "interface", "capability", "exclusive", "priority"] []
  match [ProvideKind.role, .interface, .capability].filter fun kind =>
      (Dict.get? provide (provideName kind)).isSome with
  | [kind] => do
    let name ← identifier (Dict.get provide (provideName kind) .null)
      (path ++ lit "." ++ lit (provideName kind)) (path ++ lit " name is invalid")
    let exclusive ← boolean (Dict.get provide "exclusive" (.bool false)) (path ++ lit ".exclusive")
    let priority ← integer (Dict.get provide "priority" (.int 0)) (path ++ lit ".priority") 0
      1000000
    if (provides.map fun provided => (provided.kind, provided.name)).contains (kind, name) then
      planError (path ++ lit " duplicates a provide")
    else pure (provides ++ [⟨kind, name, exclusive, priority⟩])
  | _ => planError (path ++ lit " must declare exactly one provide kind")

def provides (item : Dict) (path : PyStr) : Except PyError (List PlanProvide) := do
  let items ← boundedList (Dict.get item "provides" (.list [])) 0 32
    (path ++ lit ".provides must contain at most 32 entries")
  items.zipIdx.foldlM (addProvide py path) []

def permissions (item : Dict) (path : PyStr) : Except PyError (List PyStr) := do
  let path := path ++ lit ".permissions"
  let items ← boundedList (Dict.get item "permissions" (.list [])) 0 128
    (path ++ lit " must contain at most 128 entries")
  let permissions ← boundedStrings items path 256 true
  if !permissions.Nodup then planError (path ++ lit " contains duplicates") else pure permissions

def package (item : Dict) (path : PyStr) : Except PyError SourcePackage := do
  let path := path ++ lit ".package"
  let package ← closedObject py (Dict.get item "package" .null) path
    ["id", "name", "version", "kind"] ["id", "name", "version", "kind"]
  let id ← identifier (Dict.get package "id" .null) (path ++ lit ".id")
    (path ++ lit ".id is invalid")
  let name ← boundedString (Dict.get package "name" .null) (path ++ lit ".name") 256 false
  let version ← boundedString (Dict.get package "version" .null) (path ++ lit ".version") 64 false
  let kind ← boundedString (Dict.get package "kind" .null) (path ++ lit ".kind") 64 false
  pure ⟨id, name, version, kind⟩

def windowing (item : Dict) (path : PyStr) : Except PyError SourceWindowing := do
  let path := path ++ lit ".windowing"
  let window ← closedObject py (Dict.get item "windowing" (.dict [])) path
    ["system", "display", "mode", "title", "app_id", "wm_class", "wm_instance"] []
  let field (key : String) (limit : ℕ) :=
    boundedString (Dict.get window key (text "")) (path ++ lit "." ++ lit key) limit false
  let system ← field "system" 32
  let display ← field "display" 64
  let mode ← field "mode" 64
  let title ← field "title" 256
  let appId ← field "app_id" 256
  let wmClass ← field "wm_class" 256
  let wmInstance ← field "wm_instance" 256
  pure ⟨system, display, mode, title, appId, wmClass, wmInstance⟩

def normalizeV2Component (raw : Json) (index : ℕ) :
    Except PyError (PlanComponent ServiceFields) := do
  let path := componentPath index
  let item ← closedObject py raw path
    ["id", "kind", "critical", "lifecycle", "idle_timeout_ms", "restart", "readiness", "backoff",
      "exec", "after", "env", "provides", "permissions", "package", "name", "summary", "icon",
      "windowing", "launchable"]
    ["id", "kind", "critical", "lifecycle", "restart", "readiness", "exec", "package", "name"]
  let id ← identifier (Dict.get item "id" .null) (path ++ lit ".id") (path ++ lit ".id is invalid")
  let kind ← enumString kindName (Dict.get item "kind" .null) (path ++ lit ".kind") componentKinds
  let critical ← boolean (Dict.get item "critical" .null) (path ++ lit ".critical")
  let (lifecycle, idleTimeoutMs) ← lifecycle item path
  let restart ← enumString restartName (Dict.get item "restart" .null) (path ++ lit ".restart")
    restartPolicies
  let (mode, timeout) ← readiness py item path [.exec, .fd, .mipc, .x11Display]
  let backoff ← backoff py item path
  let argv ← argv item path
  let after ← identifiers (Dict.get item "after" (.list [])) (path ++ lit ".after") 0 32
    "at most 32 ids" "ids"
  let environment ← environment py (Dict.get item "env" (.dict [])) (path ++ lit ".env")
  let provides ← provides py item path
  let permissions ← permissions item path
  let package ← package py item path
  let name ← boundedString (Dict.get item "name" .null) (path ++ lit ".name") 256 true
  let summary ← boundedString (Dict.get item "summary" (text "")) (path ++ lit ".summary") 1024
    false
  let icon ← boundedString (Dict.get item "icon" (text "")) (path ++ lit ".icon") 4096 false
  let launchable ← boolean (Dict.get item "launchable" (.bool false)) (path ++ lit ".launchable")
  let window ← windowing py item path
  pure
    { id := id
      critical := critical
      after := after.insertionSort (· ≤ ·)
      fields :=
        { kind := kind
          restart := restart
          readinessMode := mode
          readinessTimeoutMs := timeout
          initialMs := backoff.initialMs
          maxMs := backoff.maxMs
          limit := backoff.limit
          argv := argv
          environment := environment
          lifecycle := lifecycle
          idleTimeoutMs := idleTimeoutMs
          provides := provides
          permissions := permissions.insertionSort (· ≤ ·)
          package := package
          name := name
          summary := summary
          icon := icon
          launchable := launchable
          window := window } }

/-! ## Documents -/

def schemaV1 : String := "msys.native-lite-plan.source.v1"
def schemaV2 : String := "msys.native-runtime.source.v2"

/-- The components of a document, in order. -/
def components {α : Type} (normalize : Json → ℕ → Except PyError (PlanComponent α))
    (root : Dict) : Except PyError (List (PlanComponent α)) := do
  let items ← boundedList (Dict.get root "components" .null) 1 maxComponents
    (lit "$.components must contain 1..64 entries")
  let normalized ← items.zipIdx.mapM fun item => normalize item.1 item.2
  match topologicalComponents normalized with
  | .ok ordered => pure ordered
  | .error message => planError message

def stopGrace (root : Dict) : Except PyError ℕ :=
  integer (Dict.get root "stop_grace_ms" (.int 2000)) (lit "$.stop_grace_ms") 100 60000

def rolesPath : PyStr := lit "$.profile.roles"

/-- One turn of the loop over the sorted roles. -/
def profileRole (entry : PyStr × Json) : Except PyError (PyStr × List PyStr) :=
  if !idRe entry.1 then planError (rolesPath ++ lit " has invalid role " ++ reprStr py entry.1)
  else do
    let providers ← identifiers entry.2 (rolesPath ++ lit "." ++ entry.1) 1 maxComponents
      "1..64 providers" "providers"
    pure (entry.1, providers)

def profileRoles (value : Json) : Except PyError (List (PyStr × List PyStr)) :=
  let invalid := rolesPath ++ lit " must contain at most 64 roles"
  match value with
  | .dict entries =>
    if 64 < entries.length then planError invalid
    else do
      let named ← textEntries entries
      (named.insertionSort fun a b => a.1 ≤ b.1).mapM (profileRole py)
  | _ => planError invalid

def profile (root : Dict) : Except PyError PlanProfile := do
  let profile ← closedObject py (Dict.get root "profile" .null) (lit "$.profile")
    ["id", "display", "roles", "startup", "env"] ["id", "roles", "startup"]
  let id ← identifier (Dict.get profile "id" .null) (lit "$.profile.id")
    (lit "$.profile.id is invalid")
  let display ← boundedString (Dict.get profile "display" (text "")) (lit "$.profile.display") 63
    false
  let roles ← profileRoles py (Dict.get profile "roles" .null)
  let startup ← identifiers (Dict.get profile "startup" .null) (lit "$.profile.startup") 0
    maxComponents "at most 64 components" "components"
  let environment ← environment py (Dict.get profile "env" (.dict [])) (lit "$.profile.env")
  pure ⟨id, display, roles, startup, environment⟩

/-- What the component of an id provides. -/
def providesOf (components : List (PlanComponent ServiceFields)) (id : PyStr) :
    List PlanProvide :=
  ((components.find? fun item => item.id == id).map fun item => item.fields.provides).getD []

/-- The components that the profile names exist, and provide the roles it prefers them for. -/
def checkReferences (profile : PlanProfile) (components : List (PlanComponent ServiceFields)) :
    Except PyError Unit := do
  let ids := components.map PlanComponent.id
  profile.startup.forM fun component =>
    if component ∈ ids then .ok ()
    else planError (lit "$.profile.startup references missing component " ++ component)
  profile.roles.forM fun preference => preference.2.forM fun provider =>
    if provider ∉ ids then
      planError (rolesPath ++ lit "." ++ preference.1 ++ lit " references missing component "
        ++ provider)
    else if (providesOf components provider).any fun provided =>
        provided.kind == .role && provided.name == preference.1 then .ok ()
    else planError (provider ++ lit " does not provide preferred role " ++ preference.1)

/-- The checks of `compile_document_v2`. -/
def normalizeDocumentV2 (document : Json) : Except PyError NormalizedDocument := do
  let root ← closedObject py document (lit "$") ["schema", "stop_grace_ms", "profile", "components"]
    ["schema", "profile", "components"]
  let stopGrace ← stopGrace root
  let profile ← profile py root
  let components ← components (normalizeV2Component py) root
  checkReferences profile components
  pure (.v2 stopGrace profile components)

/-- `document.get("schema")`, if the document is an object. -/
def schemaOf : Json → Option Json
  | .dict entries => Dict.get? entries "schema"
  | _ => none

/-- The checks of `compile_document`. -/
def normalizeDocument (document : Json) : Except PyError NormalizedDocument :=
  if schemaOf document = some (text schemaV2) then normalizeDocumentV2 py document
  else do
    let root ← closedObject py document (lit "$") ["schema", "stop_grace_ms", "components"]
      ["schema", "components"]
    if Dict.get root "schema" .null ≠ text schemaV1 then
      planError (lit "$.schema must equal " ++ reprStr py (lit schemaV1))
    else do
      let stopGrace ← stopGrace root
      let components ← components (normalizeComponent py) root
      pure (.v1 stopGrace components)

/-! ## The text -/

/-- `value.encode("utf-8")`, for a text that has been checked. -/
def utf8 (value : PyStr) : Bytes := value.flatMap utf8Char

def encoded (value : PyStr) : PyStr := (utf8 value).flatMap fun b => hex 2 b.toNat

/-- `"\t".join(fields)` -/
def tabbed (fields : List PyStr) : PyStr := (lit "\t").intercalate fields

def count {α : Type} (items : List α) : PyStr := intText items.length

def flag (b : Bool) : PyStr := if b then lit "1" else lit "0"

def environmentLine (tag : String) (entry : PyStr × PyStr) : PyStr :=
  tabbed [lit tag, encoded entry.1, encoded entry.2]

/-- The fields of a component record that both versions have. -/
def componentFields (id : PyStr) (critical : Bool) (after : List PyStr) (fields : LaunchFields) :
    List PyStr :=
  [lit "component", id, lit (kindName fields.kind), flag critical,
    lit (restartName fields.restart), lit (readinessName fields.readinessMode),
    intText fields.readinessTimeoutMs, intText fields.initialMs, intText fields.maxMs,
    intText fields.limit, count fields.argv, count after, count fields.environment]

def launchLines (after : List PyStr) (fields : LaunchFields) : List PyStr :=
  (fields.argv.map fun value => tabbed [lit "arg", encoded value])
    ++ (after.map fun value => tabbed [lit "after", value])
    ++ fields.environment.map (environmentLine "env")

def componentLines (item : PlanComponent LaunchFields) : List PyStr :=
  tabbed (componentFields item.id item.critical item.after item.fields)
    :: launchLines item.after item.fields ++ [lit "end"]

def provideLine (provided : PlanProvide) : PyStr :=
  tabbed [lit "provide", lit (provideName provided.kind), encoded provided.name,
    flag provided.exclusive, intText provided.priority]

def packageLine (package : SourcePackage) : PyStr :=
  tabbed [lit "package", encoded package.id, encoded package.name, encoded package.version,
    encoded package.kind]

def windowLine (window : SourceWindowing) : PyStr :=
  tabbed [lit "window", encoded window.system, encoded window.display, encoded window.mode,
    encoded window.title, encoded window.appId, encoded window.wmClass, encoded window.wmInstance]

def serviceLines (fields : ServiceFields) : List PyStr :=
  fields.provides.map provideLine
    ++ (fields.permissions.map fun value => tabbed [lit "permission", encoded value])
    ++ [packageLine fields.package,
      tabbed [lit "metadata", encoded fields.name, encoded fields.summary, encoded fields.icon],
      windowLine fields.window]

def serviceFields (fields : ServiceFields) : List PyStr :=
  [lit (lifecycleName fields.lifecycle), intText fields.idleTimeoutMs, count fields.provides,
    count fields.permissions, flag fields.launchable]

def componentLinesV2 (item : PlanComponent ServiceFields) : List PyStr :=
  tabbed (componentFields item.id item.critical item.after item.fields.toLaunchFields
      ++ serviceFields item.fields)
    :: launchLines item.after item.fields.toLaunchFields ++ serviceLines item.fields
    ++ [lit "end"]

def roleLines (preference : PyStr × List PyStr) : List PyStr :=
  tabbed [lit "role", encoded preference.1, count preference.2]
    :: preference.2.map fun provider => tabbed [lit "provider", provider]

def profileLines (profile : PlanProfile) : List PyStr :=
  tabbed [lit "profile", encoded profile.id, encoded profile.display, count profile.roles,
      count profile.environment, count profile.startup]
    :: profile.roles.flatMap roleLines
    ++ profile.environment.map (environmentLine "profile-env")
    ++ profile.startup.map fun value => tabbed [lit "startup", value]

def settingsLine (stopGrace : ℕ) : PyStr := tabbed [lit "stop_grace_ms", intText stopGrace]

def documentLines : NormalizedDocument → List PyStr
  | .v1 stopGrace components =>
    header :: settingsLine stopGrace :: components.flatMap componentLines
  | .v2 stopGrace profile components =>
    headerV2 :: settingsLine stopGrace :: profileLines profile
      ++ components.flatMap componentLinesV2

def compileDocument (document : Json) : Except PyError PyStr := do
  let normalized ← normalizeDocument py document
  let result := (lit "\n").intercalate (documentLines normalized) ++ lit "\n"
  let data ← utf8Encode result
  if maxBytes < data.length then planError (lit "compiled plan exceeds 1 MiB") else pure result

end

end MsysCore.Native.PlanSource
