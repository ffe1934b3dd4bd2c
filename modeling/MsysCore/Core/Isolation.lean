import MsysCore.Python.Values
import MsysCore.Lib.OrderedDict
import MsysCore.Lib.Except

/-!
# Process isolation

`isolation.py`: the isolation that a component declares, what a launch makes of it for the
capabilities of the host, and the operations of the child before it executes the program. The
calls into the kernel are the backend of the child, a parameter.
-/

namespace MsysCore.Core.Isolation

open Python

inductive FailurePolicy
  | failClosed | bestEffort
  deriving DecidableEq

inductive Namespace
  | user | mount | ipc | uts | network
  deriving DecidableEq

def Namespace.text : Namespace → PyStr
  | .user => lit "user"
  | .mount => lit "mount"
  | .ipc => lit "ipc"
  | .uts => lit "uts"
  | .network => lit "network"

/-- `NAMESPACE_ORDER` -/
def namespaceOrder : List Namespace := [.user, .mount, .ipc, .uts, .network]

inductive Profile
  | none | baseline | namespaced | custom
  deriving DecidableEq

def Profile.text : Profile → PyStr
  | .none => lit "none"
  | .baseline => lit "baseline"
  | .namespaced => lit "namespaced"
  | .custom => lit "custom"

inductive SeccompMode
  | off | helper
  deriving DecidableEq

structure RlimitSpec where
  soft : ℤ
  hard : ℤ
  deriving DecidableEq

structure SeccompSpec where
  mode : SeccompMode := .off
  profile : PyStr := lit "default"
  deriving DecidableEq

structure IsolationSpec where
  profile : Profile := .none
  failure : FailurePolicy := .bestEffort
  namespaces : List Namespace := []
  noNewPrivs : Bool := false
  dumpable : Option Bool := none
  rlimits : List (PyStr × RlimitSpec) := []
  seccomp : SeccompSpec := {}
  deriving DecidableEq

/-! ## Reading a declaration -/

def configurationError {α : Type} (message : PyStr) : Except PyError α :=
  .error ⟨.valueError, message⟩

/-- `PROFILE_DEFAULTS` -/
def Profile.defaults : Profile → Dict
  | .none => []
  | .baseline => record [
      ("no_new_privs", .bool true),
      ("dumpable", .bool false),
      ("rlimits", .dict (record [("core", .int 0), ("nofile", .int 1024)]))]
  | .namespaced => record [
      ("namespaces", .list (namespaceOrder.map fun n => .str n.text)),
      ("no_new_privs", .bool true),
      ("dumpable", .bool false),
      ("rlimits", .dict (record [("core", .int 0), ("nofile", .int 512), ("nproc", .int 256)]))]
  | .custom => []

def allProfiles : List Profile := [.none, .baseline, .namespaced, .custom]

/-- The names of `RLIMIT_RESOURCES`, as far as the `resource` module has their constants. -/
def rlimitResources (hasConstant : PyStr → Bool) : List PyStr :=
  (["as", "core", "cpu", "data", "fsize", "memlock", "nofile", "nproc", "stack"].map lit).filter
    hasConstant

section

variable (py : Interpreter) (hasConstant : PyStr → Bool)

/-- `set(value).difference(allowed)`, sorted. The keys of a document are strings. -/
def unknownFields (value : Dict) (allowed : List String) : List PyStr :=
  ((value.map fun entry => toStr py entry.1).filter (· ∉ allowed.map lit)).insertionSort (· ≤ ·)

/-- `_boolean` -/
def boolean (raw : Dict) (name : String) (default : Json) : Except PyError (Option Bool) :=
  match Dict.get raw name default with
  | .null => .ok none
  | .bool b => .ok (some b)
  | _ => configurationError (lit "isolation." ++ lit name ++ lit " must be boolean")

/-- `_limit_value` -/
def limitValue (value : Json) (fieldName : PyStr) : Except PyError ℤ :=
  match value with
  | .int i =>
    if i < 0 then configurationError (fieldName ++ lit " must be a non-negative integer")
    else .ok i
  | _ => configurationError (fieldName ++ lit " must be a non-negative integer")

/-- The limits of a soft/hard object. -/
def parseSoftHard (field : PyStr) (value : Dict) : Except PyError RlimitSpec :=
  let unknown := unknownFields py value ["soft", "hard"]
  if unknown ≠ [] then configurationError (lit "unknown rlimit fields: " ++ joinComma unknown)
  else if (Dict.get? value "soft").isNone ∧ (Dict.get? value "hard").isNone then
    configurationError (field ++ lit " is empty")
  else do
    let hard ← limitValue (Dict.get value "hard" (Dict.get value "soft" .null))
      (field ++ lit ".hard")
    let soft ← limitValue (Dict.get value "soft" (.int hard)) (field ++ lit ".soft")
    if hard < soft then configurationError (field ++ lit ".soft exceeds hard")
    else pure ⟨soft, hard⟩

/-- `_parse_rlimit` -/
def parseRlimit (name : PyStr) (value : Json) : Except PyError RlimitSpec :=
  let field := lit "isolation.rlimits." ++ name
  if name ∉ rlimitResources hasConstant then
    configurationError (lit "unsupported rlimit " ++ name)
  else
    match value with
    | .int i => do
      let limit ← limitValue (.int i) field
      pure ⟨limit, limit⟩
    | .dict value => parseSoftHard py field value
    | _ => configurationError (field ++ lit " must be an integer or soft/hard object")

def isAsciiAlnum (c : ℕ) : Bool :=
  (48 ≤ c && c ≤ 57) || (65 ≤ c && c ≤ 90) || (97 ≤ c && c ≤ 122)

/-- The pattern `[A-Za-z0-9][A-Za-z0-9._-]{0,63}`. -/
def isHelperProfile : PyStr → Bool
  | [] => false
  | c :: rest => isAsciiAlnum c && decide (rest.length ≤ 63) &&
      rest.all fun c => isAsciiAlnum c || c = 46 || c = 95 || c = 45

def parseMode (text : PyStr) : Except PyError SeccompMode :=
  if text = lit "off" then .ok .off
  else if text = lit "helper" then .ok .helper
  else configurationError (lit "unsupported seccomp mode " ++ text)

def parseHelperProfile (profile : PyStr) : Except PyError PyStr :=
  if isHelperProfile profile then .ok profile
  else configurationError (lit "invalid seccomp helper profile")

/-- `_parse_seccomp` -/
def parseSeccomp (value : Json) : Except PyError SeccompSpec :=
  match value with
  | .null => .ok {}
  | .str s =>
    if s = lit "off" then .ok {}
    else if s = lit "helper" then .ok { mode := .helper }
    else configurationError (lit "isolation.seccomp must be off, helper, or an object")
  | .dict value =>
    let unknown := unknownFields py value ["mode", "profile"]
    if unknown ≠ [] then configurationError (lit "unknown seccomp fields: " ++ joinComma unknown)
    else do
      let mode ← parseMode (toStr py (Dict.get value "mode" (text "off")))
      let profile ← parseHelperProfile (toStr py (Dict.get value "profile" (text "default")))
      pure { mode := mode, profile := profile }
  | _ => configurationError (lit "isolation.seccomp must be off, helper, or an object")

/-- The namespaces of a declaration, without repetitions. -/
def parseNamespaces (value : Json) : Except PyError (List Namespace) :=
  let message := lit "isolation.namespaces must be an array of names"
  match value with
  | .list items => do
    let names ← items.mapM fun
      | .str name => .ok name
      | _ => configurationError message
    let names := names.eraseDups
    let unsupported := (names.filter (· ∉ namespaceOrder.map Namespace.text)).insertionSort (· ≤ ·)
    if unsupported ≠ [] then
      let detail := if lit "pid" ∈ unsupported then
          joinComma unsupported ++ lit " (pid needs a double-fork/helper and is not implemented)"
        else joinComma unsupported
      configurationError (lit "unsupported namespaces: " ++ detail)
    else pure (names.filterMap fun name => namespaceOrder.find? fun n => n.text = name)
  | _ => configurationError message

/-- One override of a limit; `None` takes a default away. -/
def overrideLimit (limits : List (PyStr × Json)) (name : PyStr) (limit : Json) :
    List (PyStr × Json) :=
  if limit = .null then OrderedDict.pop limits name else OrderedDict.set limits name limit

/-- `raw_limits` after the overrides. -/
def overrideLimits (defaults overrides : Dict) : List (PyStr × Json) :=
  overrides.foldl (fun limits entry => overrideLimit limits (toStr py entry.1) entry.2)
    (defaults.map fun entry => (toStr py entry.1, entry.2))

def parseProfile (text : PyStr) : Except PyError Profile :=
  match allProfiles.find? fun profile => profile.text = text with
  | some profile => .ok profile
  | none => configurationError (lit "unknown isolation profile " ++ text)

def parseFailure (text : PyStr) : Except PyError FailurePolicy :=
  if text = lit "fail-closed" then .ok .failClosed
  else if text = lit "best-effort" then .ok .bestEffort
  else configurationError (lit "invalid isolation failure policy " ++ text)

/-- `defaults.get("rlimits", {})` -/
def Profile.rlimits (profile : Profile) : Dict :=
  match Dict.get profile.defaults "rlimits" (.dict []) with
  | .dict limits => limits
  | _ => []

/-- The limits of a declaration. -/
def parseRlimits (profile : Profile) (overrides : Json) :
    Except PyError (List (PyStr × RlimitSpec)) :=
  match overrides with
  | .dict overrides => (overrideLimits py profile.rlimits overrides).mapM fun entry => do
    let limit ← parseRlimit py hasConstant entry.1 entry.2
    pure (entry.1, limit)
  | _ => configurationError (lit "isolation.rlimits must be an object")

/-- `assert isinstance(no_new_privs, bool)` -/
def assertBool : Option Bool → Except PyError Bool
  | some b => .ok b
  | none => .error ⟨.other, []⟩

/-- The fields of a declaration that is an object. -/
def parseFields (raw : Dict) : Except PyError IsolationSpec :=
  let unknown := unknownFields py raw
    ["profile", "failure", "namespaces", "no_new_privs", "dumpable", "rlimits", "seccomp"]
  if unknown ≠ [] then
    configurationError (lit "unknown isolation fields: " ++ joinComma unknown)
  else do
    let profile ← parseProfile (toStr py (Dict.get raw "profile" (text "custom")))
    let defaults := profile.defaults
    let failure ← parseFailure (toStr py (Dict.get raw "failure" (text "fail-closed")))
    let namespaces ← parseNamespaces
      (Dict.get raw "namespaces" (Dict.get defaults "namespaces" (.list [])))
    let noNewPrivs ← boolean raw "no_new_privs"
      (.bool (Dict.get defaults "no_new_privs" (.bool false)).truthy)
    let dumpable ← boolean raw "dumpable" (Dict.get defaults "dumpable" .null)
    let noNewPrivs ← assertBool noNewPrivs
    let rlimits ← parseRlimits py hasConstant profile (Dict.get raw "rlimits" (.dict []))
    let seccomp ← parseSeccomp py
      (Dict.get raw "seccomp" (Dict.get defaults "seccomp" (text "off")))
    if seccomp.mode = .helper ∧ noNewPrivs = false then
      configurationError (lit "seccomp helper requires no_new_privs=true")
    else
      pure
        { profile := profile
          failure := failure
          namespaces := namespaces
          noNewPrivs := noNewPrivs
          dumpable := dumpable
          rlimits := rlimits
          seccomp := seccomp }

/-- `parse_isolation` -/
def parseIsolation (value : Json) : Except PyError IsolationSpec :=
  match value with
  | .null => .ok {}
  | .str profile => parseFields py hasConstant (record [("profile", .str profile)])
  | .dict raw => parseFields py hasConstant raw
  | _ => configurationError (lit "component isolation must be a profile string or object")

end

/-! ## The launch -/

structure IsolationCapabilities where
  linux : Bool
  prctl : Bool
  unshare : Bool
  namespaces : Namespace → Bool
  rlimits : PyStr → Bool
  seccompHelper : Option PyStr

inductive Feature
  | namespace (n : Namespace)
  | noNewPrivs
  | dumpable
  | rlimit (name : PyStr)
  | seccompHelper
  deriving DecidableEq

def Feature.text : Feature → PyStr
  | .namespace n => lit "namespace:" ++ n.text
  | .noNewPrivs => lit "no_new_privs"
  | .dumpable => lit "dumpable"
  | .rlimit name => lit "rlimit:" ++ name
  | .seccompHelper => lit "seccomp:helper"

structure IsolationLaunchPlan where
  argv : List PyStr
  /-- The spec of the child's operations, when it has any. -/
  preexecFn : Option IsolationSpec
  spec : IsolationSpec
  effective : IsolationSpec
  skipped : List PyStr
  seccompHelper : Option PyStr
  deriving DecidableEq

/-- The preflight of a launch: `skipped`, and the message of an `IsolationUnavailable`. -/
abbrev Preflight := StateT (List PyStr) (Except PyStr)

def unavailable (spec : IsolationSpec) (feature : Feature) : Preflight Unit :=
  if spec.failure = .failClosed then
    throw (lit "isolation capability unavailable: " ++ feature.text)
  else modify (· ++ [feature.text])

/-- A loop that keeps what is available and reports the rest. -/
def keepAvailable {α : Type} (spec : IsolationSpec) (available : α → Bool) (feature : α → Feature) :
    List α → Preflight (List α)
  | [] => pure []
  | item :: items =>
    if available item then do
      let kept ← keepAvailable spec available feature items
      pure (item :: kept)
    else do
      unavailable spec (feature item)
      keepAvailable spec available feature items

/-- A setting that falls back when it is wanted and not available. -/
def keepOr {α : Type} (spec : IsolationSpec) (missing : Bool) (feature : Feature)
    (value fallback : α) : Preflight α :=
  if missing then do
    unavailable spec feature
    pure fallback
  else pure value

/-- `needs_preexec` -/
def needsPreexec (effective : IsolationSpec) : Bool :=
  !effective.namespaces.isEmpty || effective.noNewPrivs || effective.dumpable.isSome
    || !effective.rlimits.isEmpty

/-- The plan for an effective spec; the helper is put before the program. -/
def launchPlan (capabilities : IsolationCapabilities) (spec : IsolationSpec) (argv : List PyStr)
    (effective : IsolationSpec) (skipped : List PyStr) : IsolationLaunchPlan :=
  let helper := if effective.seccomp.mode = .helper then capabilities.seccompHelper else none
  { argv := match helper with
      | some helper => [helper, lit "--profile", spec.seccomp.profile, lit "--"] ++ argv
      | none => argv
    preexecFn := if needsPreexec effective then some effective else none
    spec := spec
    effective := effective
    skipped := skipped
    seccompHelper := helper }

/-- `prepare_isolation_launch` -/
def prepareIsolationLaunch (capabilities : IsolationCapabilities) (spec : IsolationSpec)
    (argv : List PyStr) : Except PyStr IsolationLaunchPlan := do
  let preflight : Preflight IsolationSpec := do
    let namespaces ← keepAvailable spec
      (fun n => capabilities.linux && capabilities.unshare && capabilities.namespaces n)
      .namespace spec.namespaces
    let noNewPrivs ← keepOr spec
      (spec.noNewPrivs && !(capabilities.linux && capabilities.prctl))
      .noNewPrivs spec.noNewPrivs false
    let dumpable ← keepOr spec
      (spec.dumpable.isSome && !(capabilities.linux && capabilities.prctl))
      .dumpable spec.dumpable none
    let rlimits ← keepAvailable spec
      (fun entry => capabilities.linux && capabilities.rlimits entry.1)
      (fun entry => .rlimit entry.1) spec.rlimits
    let seccomp ← keepOr spec
      (spec.seccomp.mode = .helper && (!capabilities.linux || capabilities.seccompHelper.isNone))
      .seccompHelper spec.seccomp {}
    pure { spec with
      namespaces := namespaces
      noNewPrivs := noNewPrivs
      dumpable := dumpable
      rlimits := rlimits
      seccomp := seccomp }
  let (effective, skipped) ← preflight.run []
  pure (launchPlan capabilities spec argv effective skipped)

/-! ## The child -/

inductive Operation
  | enterUserNamespace
  | unshare (n : Namespace)
  | makeMountsPrivate
  | setNoNewPrivs
  | setDumpable (enabled : Bool)
  | setRlimit (name : PyStr) (limit : RlimitSpec)
  deriving DecidableEq

/-- What an operation of the backend raises: `PartialIsolationError`, another `Exception`, or
what is not an `Exception`. -/
inductive BackendError
  | partialIsolation (message : PyStr)
  | exception (message : PyStr)
  | other (message : PyStr)
  deriving DecidableEq

/-- What the child raises: the first and the last as they came. -/
inductive ChildError
  | partialIsolation (message : PyStr)
  | isolationUnavailable (message : PyStr)
  | other (message : PyStr)
  deriving DecidableEq

/-- An operation and what it raised, if it did not return. -/
structure Attempt where
  operation : Operation
  raised : Option BackendError
  deriving DecidableEq

/-- What the kernel makes of an operation after those before it. -/
abbrev Backend := List Attempt → Operation → Option BackendError

abbrev Child := EStateM ChildError (List Attempt)

section

variable (backend : Backend) (spec : IsolationSpec)

/-- The handlers of `_apply`. -/
def handle (label : PyStr) (raised : Option BackendError) : Child Bool :=
  match raised with
  | none => pure true
  | some (.partialIsolation message) => throw (.partialIsolation message)
  | some (.exception message) =>
    if spec.failure = .failClosed then
      throw (.isolationUnavailable (label ++ lit " failed: " ++ message))
    else pure false
  | some (.other message) => throw (.other message)

/-- `_apply` -/
def apply (label : PyStr) (operation : Operation) : Child Bool := do
  let attempts ← get
  let raised := backend attempts operation
  set (attempts ++ [⟨operation, raised⟩])
  handle spec label raised

/-- One turn of the loop over `NAMESPACE_ORDER`. -/
def enterNamespace (n : Namespace) : Child Unit :=
  if n = .user ∨ n ∉ spec.namespaces then pure ()
  else do
    let entered ← apply backend spec (lit "namespace:" ++ n.text) (.unshare n)
    if n = .mount ∧ entered then do
      let _ ← apply backend spec (lit "mount-propagation-private") .makeMountsPrivate
      pure ()
    else pure ()

/-- An operation whose result is not looked at. -/
def applyOnly (label : PyStr) (operation : Operation) : Child Unit := do
  let _ ← apply backend spec label operation
  pure ()

def applyIf (requested : Bool) (label : PyStr) (operation : Operation) : Child Unit :=
  if requested then applyOnly backend spec label operation else pure ()

/-- `spec.rlimits.items()`, sorted by name. -/
def sortedRlimits : List (PyStr × RlimitSpec) :=
  spec.rlimits.insertionSort fun a b => a.1 ≤ b.1

/-- `IsolationPreexec.__call__` -/
def preexec : Child Unit := do
  applyIf backend spec (.user ∈ spec.namespaces) (lit "namespace:user") .enterUserNamespace
  namespaceOrder.forM (enterNamespace backend spec)
  applyIf backend spec spec.noNewPrivs (lit "no_new_privs") .setNoNewPrivs
  spec.dumpable.toList.forM fun enabled =>
    applyOnly backend spec (lit "dumpable") (.setDumpable enabled)
  (sortedRlimits spec).forM fun entry =>
    applyOnly backend spec (lit "rlimit:" ++ entry.1) (.setRlimit entry.1 entry.2)

end

/-- What the child does before it executes the program. -/
def IsolationLaunchPlan.runPreexec (plan : IsolationLaunchPlan) (backend : Backend) : Child Unit :=
  match plan.preexecFn with
  | some effective => preexec backend effective
  | none => pure ()

end MsysCore.Core.Isolation
