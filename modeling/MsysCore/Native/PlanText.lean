import MsysCore.Lib.LineReader
import MsysCore.Lib.Records
import MsysCore.Native.RuntimePlan

/-!
# The text of a runtime plan

`native_lite_plan.cpp`: `parse_runtime_plan` with its helpers. The lines from `line_index` on are
the state of a reader, the sets of names that are seen are what a loop has read so far, and every
`fail` keeps its detail.
-/

namespace MsysCore.Native.PlanText

abbrev Reader := LineReader Bytes Bytes

def planError (detail : Bytes) : Bytes := ascii "native-lite plan: " ++ detail

/-- A check whose failure is `fail(detail)`. -/
def refuse (bad : Bool) (detail : String) : Except Bytes Unit :=
  if bad then .error (planError (ascii detail)) else .ok ()

def planHeaderV1 : Bytes := ascii "MSYS_NATIVE_LITE_PLAN\t1"
def planHeaderV2 : Bytes := ascii "MSYS_NATIVE_LITE_PLAN\t2"
def maxLineBytes : ℕ := 32768

/-! ## Lines and fields -/

def asciiAlpha (value : UInt8) : Bool := (65 ≤ value && value ≤ 90) || (97 ≤ value && value ≤ 122)

def asciiDigit (value : UInt8) : Bool := 48 ≤ value && value ≤ 57

def asciiAlnum (value : UInt8) : Bool := asciiAlpha value || asciiDigit value

def validId (value : Bytes) : Bool :=
  match value with
  | [] => false
  | front :: _ => value.length ≤ 128 && asciiAlnum front &&
    value.all fun character => asciiAlnum character || (ascii "_-.:").contains character

def validEnvironmentKey (value : Bytes) : Bool :=
  match value with
  | [] => false
  | front :: _ => value.length ≤ 128 && (asciiAlpha front || front == 95) &&
    value.all fun character => asciiAlnum character || character == 95

/-- The keys that only the supervisor sets. -/
def reservedKeys : List Bytes :=
  ["MSYS_READY_FD", "MSYS_CONTROL_FD", "MSYS_COMPONENT_ID", "MSYS_GENERATION",
    "MSYS_RUNTIME_DIR", "MSYS_PACKAGE_ID", "MSYS_PACKAGE_VERSION", "MSYS_WINDOW_TITLE",
    "MSYS_APP_ID", "MSYS_WINDOW_IDENTITY", "MSYS_X11_WM_INSTANCE"].map ascii

def checkLine (line : Bytes) : Except Bytes Unit := do
  refuse (maxLineBytes < line.length) "line exceeds 32768 bytes"
  refuse (line.contains 13) "carriage returns are not accepted"
  refuse line.isEmpty "empty lines are not accepted"

/-- The last line may lack its newline. -/
def splitLines (text : Bytes) : Except Bytes (List Bytes) := do
  let (complete, last) := Records.readRecords 10 [] text
  let lines := if last = [] then complete else complete ++ [last]
  lines.forM checkLine
  refuse lines.isEmpty "file is empty"
  pure lines

def splitFields (line : Bytes) : List Bytes := line.splitOn 9

/-- A record: its number of fields and the first of them are fixed. -/
def splitRecord (expected tag : String) (size : ℕ) (line : Bytes) : Except Bytes (List Bytes) := do
  let fields := splitFields line
  refuse (fields.length != size || fields.head? != some (ascii tag)) expected
  pure fields

def nextRecord (truncated expected tag : String) (size : ℕ) : Reader (List Bytes) := do
  let line ← LineReader.line (planError (ascii truncated))
  splitRecord expected tag size line

def parseU32 (value : Bytes) (field : String) (minimum maximum : ℕ) : Except Bytes ℕ := do
  let result := value.foldl (fun n digit => n * 10 + (digit.toNat - 48)) 0
  refuse (value.isEmpty || !value.all asciiDigit || 2 ^ 32 ≤ result || result < minimum
    || maximum < result) (field ++ " is outside its allowed integer range")
  pure result

def hexNibble (value : UInt8) : Option ℕ :=
  if 48 ≤ value ∧ value ≤ 57 then some (value.toNat - 48)
  else if 97 ≤ value ∧ value ≤ 102 then some (value.toNat - 97 + 10)
  else if 65 ≤ value ∧ value ≤ 70 then some (value.toNat - 65 + 10)
  else none

/-- The loop of `decode_hex`; the number of digits is even. -/
def decodePairs (field : String) : Bytes → Except Bytes Bytes
  | first :: second :: rest =>
    match hexNibble first, hexNibble second with
    | some high, some low => do
      refuse (high * 16 + low == 0) (field ++ " contains NUL")
      let decoded ← decodePairs field rest
      pure ((high * 16 + low).toUInt8 :: decoded)
    | _, _ => .error (planError (ascii (field ++ " is not hexadecimal")))
  | _ => .ok []

def decodeHex (value : Bytes) (field : String) : Except Bytes Bytes := do
  refuse (value.length % 2 != 0 || 8192 < value.length) (field ++ " has an invalid encoded length")
  decodePairs field value

/-- A value out of a list of names. -/
def parseName {α : Type} (unknown : String) (names : List (String × α)) (value : Bytes) :
    Except Bytes α :=
  match names.find? fun name => value == ascii name.1 with
  | some name => .ok name.2
  | none => .error (planError (ascii unknown))

def parseFlag (invalid : String) : Bytes → Except Bytes Bool :=
  parseName invalid [("1", true), ("0", false)]

def parseKind : Bytes → Except Bytes ComponentKind :=
  parseName "unknown component kind"
    [("display", .display), ("window", .window), ("shell", .shell), ("other", .other)]

def parseRestart : Bytes → Except Bytes RestartPolicy :=
  parseName "unknown restart policy"
    [("never", .never), ("on-failure", .onFailure), ("always", .always)]

def parseReadiness : Bytes → Except Bytes ReadinessMode :=
  parseName "unknown readiness mode"
    [("exec", .exec), ("fd", .fd), ("mipc-ready", .mipc), ("x11-display", .x11Display)]

def parseLifecycle : Bytes → Except Bytes Lifecycle :=
  parseName "unknown lifecycle"
    [("background", .background), ("on-demand", .onDemand), ("manual", .manual)]

def parseProvideKind : Bytes → Except Bytes ProvideKind :=
  parseName "unknown provide kind"
    [("role", .role), ("interface", .interface), ("capability", .capability)]

/-! ## The profile -/

def readProvider (done : List Bytes) : Reader Bytes := do
  let provider ← nextRecord "truncated preferred provider records"
    "invalid preferred provider record" "provider" 2
  refuse (!validId (provider.getD 1 [])) "invalid preferred provider record"
  refuse (done.contains (provider.getD 1 [])) "duplicate preferred provider"
  pure (provider.getD 1 [])

def readRole (done : List RolePreference) : Reader RolePreference := do
  let record ← nextRecord "truncated profile role records" "expected profile role record" "role" 3
  let role ← decodeHex (record.getD 1 []) "profile role"
  refuse (!validId role || (done.map RolePreference.role).contains role)
    "invalid or duplicate profile role"
  let providerCount ← parseU32 (record.getD 2 []) "preferred provider count" 1 maxComponents
  let providers ← LineReader.turns readProvider providerCount []
  pure ⟨role, providers⟩

def readProfileEnvironment (done : List (Bytes × Bytes)) : Reader (Bytes × Bytes) := do
  let environment ← nextRecord "truncated profile environment records"
    "expected profile-env record" "profile-env" 3
  let key ← decodeHex (environment.getD 1 []) "profile environment key"
  let value ← decodeHex (environment.getD 2 []) "profile environment value"
  refuse (!validEnvironmentKey key || 4096 < value.length || (done.map Prod.fst).contains key)
    "invalid or duplicate profile environment"
  refuse (reservedKeys.contains key) "profile environment overrides a reserved supervisor key"
  pure (key, value)

def readStartup (done : List Bytes) : Reader Bytes := do
  let startup ← nextRecord "truncated profile startup records"
    "invalid or duplicate profile startup record" "startup" 2
  refuse (!validId (startup.getD 1 []) || done.contains (startup.getD 1 []))
    "invalid or duplicate profile startup record"
  pure (startup.getD 1 [])

/-- What version 2 has before the components. -/
def readProfile (stopGraceMs : ℕ) : Reader RuntimePlan := do
  let profile ← nextRecord "version 2 profile record is missing"
    "expected a 6-field profile record" "profile" 6
  let profileId ← decodeHex (profile.getD 1 []) "profile id"
  let display ← decodeHex (profile.getD 2 []) "profile display"
  refuse (!validId profileId || 63 < display.length) "profile id or display is invalid"
  let roleCount ← parseU32 (profile.getD 3 []) "profile role count" 0 maxProfileRoles
  let environmentCount ←
    parseU32 (profile.getD 4 []) "profile environment count" 0 maxEnvironment
  let startupCount ← parseU32 (profile.getD 5 []) "profile startup count" 0 maxComponents
  let rolePreferences ← LineReader.turns readRole roleCount []
  let profileEnvironment ← LineReader.turns readProfileEnvironment environmentCount []
  let startup ← LineReader.turns readStartup startupCount []
  pure
    { stopGraceMs := stopGraceMs
      profileId := profileId
      display := display
      profileEnvironment := profileEnvironment
      startup := startup
      rolePreferences := rolePreferences }

/-! ## A component -/

/-- A component record: the component so far and the numbers of the records that follow. -/
structure Header where
  component : ComponentPlan
  argumentCount : ℕ
  dependencyCount : ℕ
  environmentCount : ℕ
  provideCount : ℕ := 0
  permissionCount : ℕ := 0

/-- The fields of both versions. -/
def parseHeader (header : List Bytes) : Except Bytes Header := do
  let id := header.getD 1 []
  refuse (!validId id) "invalid component id"
  let kind ← parseKind (header.getD 2 [])
  let critical ← parseFlag "critical must be 0 or 1" (header.getD 3 [])
  let restart ← parseRestart (header.getD 4 [])
  let readiness ← parseReadiness (header.getD 5 [])
  let readinessTimeoutMs ← parseU32 (header.getD 6 []) "readiness_timeout_ms" 1 300000
  let backoffInitialMs ← parseU32 (header.getD 7 []) "backoff_initial_ms" 1 60000
  let backoffMaxMs ← parseU32 (header.getD 8 []) "backoff_max_ms" backoffInitialMs 300000
  let restartLimit ← parseU32 (header.getD 9 []) "restart_limit" 0 1000
  let argumentCount ← parseU32 (header.getD 10 []) "argument_count" 1 maxArguments
  let dependencyCount ← parseU32 (header.getD 11 []) "dependency_count" 0 maxDependencies
  let environmentCount ← parseU32 (header.getD 12 []) "environment_count" 0 maxEnvironment
  pure
    { component :=
        { id := id
          kind := kind
          critical := critical
          restart := restart
          readiness := readiness
          readinessTimeoutMs := readinessTimeoutMs
          backoffInitialMs := backoffInitialMs
          backoffMaxMs := backoffMaxMs
          restartLimit := restartLimit }
      argumentCount := argumentCount
      dependencyCount := dependencyCount
      environmentCount := environmentCount }

/-- The fields of version 2. -/
def parseHeaderV2 (header : List Bytes) (parsed : Header) : Except Bytes Header := do
  let lifecycle ← parseLifecycle (header.getD 13 [])
  let idleTimeoutMs ← parseU32 (header.getD 14 []) "idle_timeout_ms" 0 3600000
  refuse (lifecycle == .onDemand && idleTimeoutMs < 100)
    "on-demand component requires idle_timeout_ms >= 100"
  refuse (lifecycle != .onDemand && idleTimeoutMs != 0)
    "only on-demand components may set idle_timeout_ms"
  let provideCount ← parseU32 (header.getD 15 []) "provide_count" 0 maxProvides
  let permissionCount ← parseU32 (header.getD 16 []) "permission_count" 0 maxPermissions
  let launchable ← parseFlag "launchable must be 0 or 1" (header.getD 17 [])
  pure
    { parsed with
      component :=
        { parsed.component with
          lifecycle := lifecycle
          idleTimeoutMs := idleTimeoutMs
          launchable := launchable }
      provideCount := provideCount
      permissionCount := permissionCount }

def readArgument (_ : List Bytes) : Reader Bytes := do
  let fields ← nextRecord "truncated argument records" "expected arg record" "arg" 2
  decodeHex (fields.getD 1 []) "argument"

def readAfter (_ : List Bytes) : Reader Bytes := do
  let fields ← nextRecord "truncated dependency records" "invalid after record" "after" 2
  refuse (!validId (fields.getD 1 [])) "invalid after record"
  pure (fields.getD 1 [])

def readEnvironment (done : List (Bytes × Bytes)) : Reader (Bytes × Bytes) := do
  let fields ← nextRecord "truncated environment records" "expected env record" "env" 3
  let key ← decodeHex (fields.getD 1 []) "environment key"
  let value ← decodeHex (fields.getD 2 []) "environment value"
  refuse (!validEnvironmentKey key) "invalid environment key"
  refuse (4096 < value.length) "environment value exceeds 4096 bytes"
  refuse (reservedKeys.contains key) "environment overrides a reserved supervisor key"
  refuse ((done.map Prod.fst).contains key) "duplicate environment key"
  pure (key, value)

def readProvide (done : List ProvidePlan) : Reader ProvidePlan := do
  let fields ← nextRecord "truncated provide records" "expected provide record" "provide" 5
  let kind ← parseProvideKind (fields.getD 1 [])
  let name ← decodeHex (fields.getD 2 []) "provided name"
  refuse (!validId name) "invalid provided name"
  let exclusive ← parseFlag "provide exclusive must be 0 or 1" (fields.getD 3 [])
  let priority ← parseU32 (fields.getD 4 []) "provide priority" 0 1000000
  refuse ((done.map fun provided => (provided.kind, provided.name)).contains (kind, name))
    "duplicate provide record"
  pure ⟨kind, name, exclusive, priority⟩

def readPermission (done : List Bytes) : Reader Bytes := do
  let fields ← nextRecord "truncated permission records" "expected permission record"
    "permission" 2
  let permission ← decodeHex (fields.getD 1 []) "permission"
  refuse (permission.isEmpty || 256 < permission.length || done.contains permission)
    "invalid or duplicate permission"
  pure permission

def readPackage (component : ComponentPlan) : Reader ComponentPlan := do
  let package ← nextRecord "component package record is missing" "expected package record"
    "package" 5
  let packageId ← decodeHex (package.getD 1 []) "package id"
  let packageName ← decodeHex (package.getD 2 []) "package name"
  let packageVersion ← decodeHex (package.getD 3 []) "package version"
  let packageKind ← decodeHex (package.getD 4 []) "package kind"
  refuse (!validId packageId || 256 < packageName.length || 64 < packageVersion.length
    || 64 < packageKind.length) "invalid package metadata"
  pure
    { component with
      packageId := packageId
      packageName := packageName
      packageVersion := packageVersion
      packageKind := packageKind }

def readMetadata (component : ComponentPlan) : Reader ComponentPlan := do
  let metadata ← nextRecord "component metadata record is missing" "expected metadata record"
    "metadata" 4
  let name ← decodeHex (metadata.getD 1 []) "component name"
  let summary ← decodeHex (metadata.getD 2 []) "component summary"
  let icon ← decodeHex (metadata.getD 3 []) "component icon"
  refuse (name.isEmpty || 256 < name.length || 1024 < summary.length || 4096 < icon.length)
    "invalid component metadata"
  pure { component with name := name, summary := summary, icon := icon }

def readWindow (component : ComponentPlan) : Reader ComponentPlan := do
  let window ← nextRecord "component window record is missing" "expected window record" "window" 8
  let system ← decodeHex (window.getD 1 []) "window system"
  let display ← decodeHex (window.getD 2 []) "window display"
  let mode ← decodeHex (window.getD 3 []) "window mode"
  let title ← decodeHex (window.getD 4 []) "window title"
  let appId ← decodeHex (window.getD 5 []) "window app id"
  let wmClass ← decodeHex (window.getD 6 []) "window class"
  let wmInstance ← decodeHex (window.getD 7 []) "window instance"
  refuse (32 < system.length || 64 < display.length || 64 < mode.length || 256 < title.length
    || 256 < appId.length || 256 < wmClass.length || 256 < wmInstance.length)
    "window metadata is too large"
  pure { component with window := ⟨system, display, mode, title, appId, wmClass, wmInstance⟩ }

/-- The records that both versions have. -/
def readLaunch (header : Header) : Reader ComponentPlan := do
  let argv ← LineReader.turns readArgument header.argumentCount []
  if (argv.headD []).head? ≠ some 47 then
    throw (planError (header.component.id ++ ascii " argv[0] must be absolute"))
  else do
    let after ← LineReader.turns readAfter header.dependencyCount []
    let environment ← LineReader.turns readEnvironment header.environmentCount []
    pure { header.component with argv := argv, after := after, environment := environment }

/-- The records of version 2. -/
def readServices (header : Header) (component : ComponentPlan) : Reader ComponentPlan := do
  let provides ← LineReader.turns readProvide header.provideCount []
  let permissions ← LineReader.turns readPermission header.permissionCount []
  let component ← readPackage { component with provides := provides, permissions := permissions }
  let component ← readMetadata component
  readWindow component

def readEnd : Reader Unit := do
  let missing := planError (ascii "component is missing end record")
  let line ← LineReader.line missing
  if line = ascii "end" then pure () else throw missing

def readComponentV1 (line : Bytes) : Reader ComponentPlan := do
  let fields ← splitRecord "expected a 13-field component record" "component" 13 line
  let header ← parseHeader fields
  let component ← readLaunch header
  readEnd
  pure { component with name := component.id }

def readComponentV2 (line : Bytes) : Reader ComponentPlan := do
  let fields ← splitRecord "expected an 18-field component record" "component" 18 line
  let header ← parseHeader fields
  let header ← parseHeaderV2 fields header
  let component ← readLaunch header
  let component ← readServices header component
  readEnd
  pure component

/-! ## `validate_graph` -/

-- Named: the two loops would share an unnamed proof.
local instance lawfulBEqBytes : LawfulBEq Bytes := inferInstance

def checkIds : List Bytes → List ComponentPlan → Except Bytes Unit
  | _, [] => .ok ()
  | byId, component :: rest =>
    if component.id ∈ byId then
      .error (planError (ascii "duplicate component id: " ++ component.id))
    else checkIds (component.id :: byId) rest

/-- The loop over the dependencies of a component; `unique` are those it has seen. -/
def checkDependencies (byId : List Bytes) (id : Bytes) :
    List Bytes → List Bytes → Except Bytes Unit
  | _, [] => .ok ()
  | unique, dependency :: rest =>
    if dependency ∉ byId then
      .error (planError (id ++ ascii " references missing dependency " ++ dependency))
    else if dependency = id then .error (planError (id ++ ascii " depends on itself"))
    else if dependency ∈ unique then
      .error (planError (id ++ ascii " repeats dependency " ++ dependency))
    else checkDependencies byId id (dependency :: unique) rest

inductive Mark
  | unseen | active | finished
  deriving DecidableEq

/-- The step of `visit` to one dependency; `by_id.at` finds what `validate_graph` has checked. -/
def visitDependency (components : List ComponentPlan)
    (visit : (ℕ → Mark) → ℕ → Except Bytes (ℕ → Mark)) (marks : ℕ → Mark) (dependency : Bytes) :
    Except Bytes (ℕ → Mark) :=
  match components.findIdx? fun component => component.id == dependency with
  | some index => visit marks index
  | none => .error (ascii "unordered_map::at")

/-- `visit`. A chain of calls runs through different components and ends at one that is marked, so
as much fuel as there are components and one more suffices. -/
def visit (components : List ComponentPlan) : ℕ → (ℕ → Mark) → ℕ → Except Bytes (ℕ → Mark)
  | 0, _, _ => .error (planError (ascii "dependency graph contains a cycle"))
  | fuel + 1, marks, index =>
    match marks index with
    | .active => .error (planError (ascii "dependency graph contains a cycle"))
    | .finished => .ok marks
    | .unseen => do
      let after := (components[index]?.map ComponentPlan.after).getD []
      let marks ← after.foldlM (visitDependency components (visit components fuel))
        (Function.update marks index .active)
      .ok (Function.update marks index .finished)

def validateGraph (plan : RuntimePlan) : Except Bytes Unit := do
  let components := plan.components
  checkIds [] components
  refuse (!components.any ComponentPlan.critical) "at least one component must be critical"
  let byId := components.map ComponentPlan.id
  components.forM fun component => checkDependencies byId component.id [] component.after
  let _ ← (List.range components.length).foldlM (visit components (components.length + 1))
    fun _ => .unseen

/-! ## `parse_runtime_plan` -/

/-- The names in the profile of version 2 are ids of components. -/
def validateReferences (plan : RuntimePlan) : Except Bytes Unit := do
  let known := plan.components.map ComponentPlan.id
  plan.startup.forM fun startup =>
    if startup ∈ known then .ok ()
    else .error (planError (ascii "profile startup references missing component " ++ startup))
  plan.rolePreferences.forM fun preference => preference.providers.forM fun provider =>
    if provider ∈ known then .ok ()
    else .error (planError (ascii "profile role references missing component " ++ provider))

/-- `stop_grace_ms` and, in version 2, the profile. -/
def readSettings (versionTwo : Bool) : Reader RuntimePlan := do
  let expected := "expected stop_grace_ms after header"
  let settings ← nextRecord expected expected "stop_grace_ms" 2
  let stopGraceMs ← parseU32 (settings.getD 1 []) "stop_grace_ms" 100 60000
  if versionTwo then readProfile stopGraceMs else pure { stopGraceMs := stopGraceMs }

def readComponents (versionTwo : Bool) : Reader (List ComponentPlan) :=
  LineReader.untilEnd (planError (ascii "component count exceeds 64"))
    (if versionTwo then readComponentV2 else readComponentV1) maxComponents

def parseRuntimePlan (text : Bytes) : Except Bytes RuntimePlan := do
  refuse (maxPlanBytes < text.length) "file exceeds 1 MiB"
  let lines ← splitLines text
  let versionTwo := lines.head? == some planHeaderV2
  refuse (!versionTwo && lines.head? != some planHeaderV1) "unsupported header"
  refuse (lines.length < 3) "global settings or components are missing"
  let (plan, lines) ← readSettings versionTwo lines.tail
  let (components, _) ← readComponents versionTwo lines
  let plan := { plan with components := components }
  validateGraph plan
  if versionTwo then validateReferences plan
  pure plan

end MsysCore.Native.PlanText
