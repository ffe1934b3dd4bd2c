import MsysCore.Core.LoadManifest
import MsysCore.Native.RuntimePlan

/-!
# Assembling a runtime source

`assemble_runtime_source.py`: one profile and the manifests of a set of packages become
the source document of a native plan. The decoded files are arguments; the keys of their
objects are texts and distinct, as `load_json` refuses others.
-/

namespace MsysCore.Native

open Python Core.Manifest

/-! ## Paths -/

/-- A `PurePosixPath`. -/
structure PosixPath where
  root : PyStr
  parts : List PyStr
  deriving DecidableEq

namespace PosixPath

def parse (s : PyStr) : PosixPath where
  root :=
    if (lit "//").isPrefixOf s && !(lit "///").isPrefixOf s then lit "//"
    else if (lit "/").isPrefixOf s then lit "/"
    else []
  parts := (s.splitOn 47).filter fun part => part != [] && part != lit "."

/-- `path / s`. -/
def join (path : PosixPath) (s : PyStr) : PosixPath :=
  let other := parse s
  if other.root = [] then ⟨path.root, path.parts ++ other.parts⟩ else other

/-- `str(path)`. -/
def str (path : PosixPath) : PyStr :=
  if path.root = [] ∧ path.parts = [] then lit "."
  else path.root ++ (lit "/").intercalate path.parts

end PosixPath

/-! ## The assembled document -/

structure SourceProvide where
  kind : Core.Manifest.ProvideKind
  name : PyStr
  exclusive : Bool
  priority : ℤ
  deriving DecidableEq

structure SourcePackage where
  id : PyStr
  name : PyStr
  version : PyStr
  kind : PyStr
  deriving DecidableEq

structure SourceWindowing where
  system : PyStr
  display : PyStr
  mode : PyStr
  title : PyStr
  appId : PyStr
  wmClass : PyStr
  wmInstance : PyStr
  deriving DecidableEq

structure SourceComponent where
  id : PyStr
  kind : ComponentKind
  critical : Bool
  lifecycle : PyStr
  idleTimeoutMs : ℤ
  restart : PyStr
  readinessMode : PyStr
  readinessTimeoutMs : ℤ
  exec : List PyStr
  after : List PyStr
  env : Dict
  provides : List SourceProvide
  permissions : List PyStr
  package : SourcePackage
  name : PyStr
  summary : PyStr
  icon : PyStr
  launchable : Bool
  windowing : SourceWindowing

structure RuntimeSource where
  stopGraceMs : ℤ
  profileId : PyStr
  display : PyStr
  roles : List (PyStr × List PyStr)
  startup : List PyStr
  env : Dict
  components : List SourceComponent

/-! ## `assemble` -/

/-- A package root with its decoded manifest: `path` is the text of the manifest's path in
errors, `root` the package root on the target. -/
structure PackageSource where
  path : PyStr
  manifest : Dict
  root : PosixPath

def assemblyError {α : Type} (message : PyStr) : Except PyError α := .error ⟨.valueError, message⟩

def packagePath (value : PyStr) (root : PosixPath) : PyStr :=
  if value = lit "@package" then root.str
  else if (lit "@package/").isPrefixOf value then (root.join (value.drop (lit "@package/").length)).str
  else value

def textOf : Json → Option PyStr
  | .str s => some s
  | _ => none

/-- The items of a list of texts. -/
def textsOf : Json → Option (List PyStr)
  | .list items => items.mapM textOf
  | _ => none

section

variable (py : Interpreter)

def resolveExec (argv : Json) (root : PosixPath) (commands : List (PyStr × PyStr))
    (component : PyStr) : Except PyError (List PyStr) :=
  match textsOf argv with
  | some (first :: rest) =>
    let first := packagePath first root
    let rest := rest.map fun value => packagePath value root
    if (lit "/").isPrefixOf first then .ok (first :: rest)
    else
      match OrderedDict.get commands first with
      | some replacement => .ok (replacement :: rest)
      | none => assemblyError (component ++ lit ": bare executable " ++ reprStr py first
          ++ lit " needs --command NAME=/absolute/path")
  | _ => assemblyError (component ++ lit ": exec must be a non-empty string array")

/-- The entries of an icon list that have a path. -/
def iconCandidates (items : List Json) : List (Dict × PyStr) :=
  items.filterMap fun
    | .dict entry => ((Dict.get? entry "path").bind textOf).map fun path => (entry, path)
    | _ => none

/-- The first of the largest icons. -/
def firstIcon (component package : Dict) (root : PosixPath) : Except PyError PyStr :=
  let own := Dict.get component "icons" .null
  let shared := Dict.get package "icons" .null
  let icons := if own.truthy then own else if shared.truthy then shared else .list []
  match icons with
  | .list items => do
    let candidates ← (iconCandidates items).mapM fun candidate => do
      let size ← toInt py (Dict.get candidate.1 "size" (.int 0))
      pure (candidate.2, size)
    match candidates.insertionSort fun a b => b.2 ≤ a.2 with
    | [] => pure []
    | first :: _ => pure (packagePath first.1 root)
  | _ => .ok []

def componentKind (provides : List Dict) : ComponentKind :=
  let roles := provides.map fun entry => toStr py (Dict.get entry "role" (text ""))
  if roles.contains (lit "display-output") then .display
  else if roles.contains (lit "window-manager") || roles.contains (lit "window-policy") then .window
  else if roles.contains (lit "launcher") || roles.contains (lit "system-chrome")
      || roles.contains (lit "navigation-bar") then .shell
  else .other

/-- The kinds of service a provide entry names, with their names. -/
def provideKinds (entry : Dict) : List (Core.Manifest.ProvideKind × Json) :=
  [(Core.Manifest.ProvideKind.role, "role"), (.interface, "interface"), (.capability, "capability")].filterMap
    fun kind => (Dict.get? entry kind.2).map fun name => (kind.1, name)

/-- One turn of the loop over `provides`; nothing is exclusive unless it says so. -/
def sourceProvide (key : PyStr) (provided : Json) : Except PyError (Dict × SourceProvide) :=
  match provided with
  | .dict entry =>
    match provideKinds entry with
    | [(kind, name)] => do
      let priority ← toInt py (Dict.get entry "priority" (.int 0))
      pure (entry,
        ⟨kind, toStr py name, (Dict.get entry "exclusive" (.bool false)).truthy, priority⟩)
    | _ => assemblyError (key ++ lit ": provide entry needs exactly one kind")
  | _ => assemblyError (key ++ lit ": invalid provide entry")

/-- `{str(name): str(value) for name, value in items}`. -/
def textDict (entries : Dict) : Dict :=
  entries.foldl (fun d entry => setItem (.str (toStr py entry.1)) (.str (toStr py entry.2)) d) []

def asDictOr (value : Json) (message : PyStr) : Except PyError Dict :=
  match value with
  | .dict entries => .ok entries
  | _ => assemblyError message

def asListOr (value : Json) (message : PyStr) : Except PyError (List Json) :=
  match value with
  | .list items => .ok items
  | _ => assemblyError message

/-- The `identity` of a `windowing` section. -/
def windowIdentity (windowing : Dict) : Dict :=
  match Dict.get windowing "identity" (.dict []) with
  | .str identity => record [("app_id", .str identity), ("x11_wm_class", .str identity)]
  | .dict identity => identity
  | _ => []

/-- Only components that start on demand have an idle timeout. -/
def sourceIdleTimeout (lifecycle : PyStr) (raw : Dict) : Except PyError ℤ :=
  if lifecycle = lit "on-demand" then toInt py (Dict.get raw "idle_timeout_ms" (.int 30000))
  else .ok 0

/-- The part of the loop over the components behind the check that the id is new. -/
def sourceComponent (startup : List Json) (commands : List (PyStr × PyStr)) (root : PosixPath)
    (package : Dict) (metadata : SourcePackage) (key : PyStr) (raw : Dict) :
    Except PyError SourceComponent := do
  let environment := Dict.get raw "env" (.dict [])
  let readiness := Dict.get raw "readiness"
    (.dict (record [("mode", text "exec"), ("timeout_ms", .int 5000)]))
  let windowing := Dict.get raw "windowing" (.dict [])
  let activation := Dict.get raw "activation" (.dict [])
  let provides ← asListOr (Dict.get raw "provides" (.list []))
    (key ++ lit ": provides/permissions are invalid")
  let permissions ← asListOr (Dict.get raw "permissions" (.list []))
    (key ++ lit ": provides/permissions are invalid")
  let environment ← asDictOr environment (key ++ lit ": env/readiness are invalid")
  let readiness ← asDictOr readiness (key ++ lit ": env/readiness are invalid")
  let windowing ← asDictOr windowing (key ++ lit ": windowing/activation are invalid")
  let activation ← asDictOr activation (key ++ lit ": windowing/activation are invalid")
  let identity := windowIdentity windowing
  let lifecycle := toStr py (Dict.get raw "lifecycle" (text "manual"))
  let idleTimeoutMs ← sourceIdleTimeout py lifecycle raw
  let provided ← provides.mapM (sourceProvide py key)
  let readinessTimeoutMs ← toInt py (Dict.get readiness "timeout_ms" (.int 5000))
  let exec ← resolveExec py (Dict.get raw "exec" .null) root commands key
  let after ← strings py (Dict.get raw "after" (.list []))
  let icon ← firstIcon py raw package root
  pure
    { id := key
      kind := componentKind py (provided.map Prod.fst)
      critical := startup.any (isKey key)
      lifecycle := lifecycle
      idleTimeoutMs := idleTimeoutMs
      restart := toStr py (Dict.get raw "restart" (text "never"))
      readinessMode := toStr py (Dict.get readiness "mode" (text "exec"))
      readinessTimeoutMs := readinessTimeoutMs
      exec := exec
      after := after
      env := textDict py environment
      provides := provided.map Prod.snd
      permissions := permissions.map (toStr py)
      package := metadata
      name := toStr py (Dict.get raw "name" (.str metadata.name))
      summary := toStr py (Dict.get raw "summary" (Dict.get package "summary" (text "")))
      icon := icon
      launchable := (Dict.get activation "launchable" (.bool false)).truthy
      windowing :=
        { system := toStr py (Dict.get windowing "system" (text ""))
          display := toStr py (Dict.get windowing "display" (text ""))
          mode := toStr py (Dict.get windowing "mode" (text ""))
          title := toStr py (Dict.get windowing "title" (text ""))
          appId := toStr py (Dict.get identity "app_id" (text ""))
          wmClass := toStr py
            (Dict.get identity "x11_wm_class" (Dict.get identity "app_id" (text "")))
          wmInstance := toStr py (Dict.get identity "x11_wm_instance" (text "")) } }

/-- The ids of the components so far: the set `known`. -/
def knownIds (components : List SourceComponent) : List PyStr := components.map SourceComponent.id

/-- One turn of the loop over the components of a package. -/
def addSourceComponent (startup : List Json) (commands : List (PyStr × PyStr))
    (source : PackageSource) (package : Dict) (metadata : SourcePackage)
    (components : List SourceComponent) (raw : Json) : Except PyError (List SourceComponent) :=
  match raw with
  | .dict fields =>
    match Dict.get? fields "id" with
    | some (.str localId) =>
      let key := componentKey metadata.id localId
      if key ∈ knownIds components then assemblyError (lit "duplicate component " ++ key)
      else do
        let component ← sourceComponent py startup commands source.root package metadata key fields
        pure (components ++ [component])
    | _ => assemblyError (source.path ++ lit ": invalid component")
  | _ => assemblyError (source.path ++ lit ": invalid component")

/-- One turn of the loop over the packages. -/
def addPackage (startup : List Json) (commands : List (PyStr × PyStr))
    (components : List SourceComponent) (source : PackageSource) :
    Except PyError (List SourceComponent) := do
  let manifest := source.manifest
  if keyEq (Dict.get manifest "schema" .null) (text "msys.manifest.v1") = false then
    assemblyError (source.path ++ lit ": schema must be msys.manifest.v1")
  else do
    let package ← asDictOr (Dict.get manifest "package" .null)
      (source.path ++ lit ": package/components are invalid")
    let raws ← asListOr (Dict.get manifest "components" .null)
      (source.path ++ lit ": package/components are invalid")
    match Dict.get package "id" .null with
    | .str packageId =>
      let metadata : SourcePackage :=
        { id := packageId
          name := toStr py (Dict.get package "name" (.str packageId))
          version := toStr py (Dict.get package "version" (text ""))
          kind := toStr py (Dict.get package "kind" (text "system")) }
      raws.foldlM (addSourceComponent py startup commands source package metadata) components
    | _ => assemblyError (source.path ++ lit ": package.id is invalid")

/-- `after` keeps what is spelled as an id of the catalog. -/
def closeAfter (known : List PyStr) (component : SourceComponent) : SourceComponent :=
  { component with after := component.after.filter fun value => known.contains value }

/-- The providers of a profile list that the catalog has. -/
def presentIds (known : List PyStr) (providers : List Json) : List PyStr :=
  (providers.map (toStr py)).filter fun value => known.contains value

/-- One turn of the loop over the profile roles. -/
def addRole (known : List PyStr) (roles : List (PyStr × List PyStr)) (entry : Json × Json) :
    Except PyError (List (PyStr × List PyStr)) :=
  match entry with
  | (.str role, .list providers) =>
    let present := presentIds py known providers
    .ok (if present = [] then roles else OrderedDict.set roles role present)
  | _ => assemblyError (lit "profile roles must map strings to arrays")

def assemble (profile : Dict) (packages : List PackageSource) (commands : List (PyStr × PyStr)) :
    Except PyError RuntimeSource := do
  if keyEq (Dict.get profile "schema" .null) (text "msys.profile.v1") = false then
    assemblyError (lit "profile schema must be msys.profile.v1")
  else
    match Dict.get profile "id" .null, Dict.get profile "roles" (.dict []) with
    | .str profileId, .dict roles => do
      let invalid := lit "profile startup/env/settings are invalid"
      let startup ← asListOr (Dict.get profile "startup" (.list [])) invalid
      let profileEnv ← asDictOr (Dict.get profile "env" (.dict [])) invalid
      let settings ← asDictOr (Dict.get profile "settings" (.dict [])) invalid
      let components ← packages.foldlM (addPackage py startup commands) []
      let known := knownIds components
      let nativeRoles ← roles.foldlM (addRole py known) []
      let nativeStartup := presentIds py known startup
      if nativeStartup = [] then
        assemblyError (lit "profile has no startup component in the supplied catalog")
      else
        pure
          { stopGraceMs := 2000
            profileId := profileId
            display := toStr py (Dict.get settings "display" (text ""))
            roles := nativeRoles
            startup := nativeStartup
            env := textDict py profileEnv
            components := components.map (closeAfter known) }
    | _, _ => assemblyError (lit "profile id/roles are invalid")

end

end MsysCore.Native
