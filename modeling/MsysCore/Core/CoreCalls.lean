import MsysCore.Core.Forwarding

/-!
# Calls to Core itself

The methods of `_core_call` with the checks they make on the request. What an
operation of the daemon that a method runs (starting or stopping a component,
switching a role, reading the catalog) comes to in the state at hand is a field of
`CoreSurroundings`; the calls that a method sends on to a role go through
`dispatchRoleCall`. Each method gives a `Body` or lets an exception pass.
-/

namespace MsysCore.Core

open Python

def displayOutputRole : String := "display-output"

def sessionPreferencesTopic : String := "msys.session.preferences.changed"

def catalogTransactionSchema : String := "msys.catalog-transaction.v1"

def defaultSystemProcessLimit : ℤ := 64

def maxSystemProcessLimit : ℤ := 128

/-- The answer of a method, without the request id. -/
inductive Body
  | returned (payload : Json)
  | failed (code : PyStr) (message : Option PyStr) (payload : Option Json)

def Body.packet (id : Json) : Body → Dict
  | .returned payload => record [("type", text "return"), ("id", id), ("payload", payload)]
  | .failed code message payload =>
    record ([("type", text "error"), ("id", id), ("code", .str code)] ++
      (message.map fun m => ("message", .str m)).toList ++
      (payload.map fun p => ("payload", p)).toList)

def refused (code : String) (message : PyStr) : Body := .failed (lit code) (some message) none

def object (fields : List (String × Json)) : Json := .dict (record fields)

/-! ## What the daemon's operations come to -/

/-- An instance that `ensure_ready` returned. -/
structure Readied where
  key : PyStr
  generation : ℤ
  state : PyStr
  foregroundApp : Bool
  /-- `_window_activation_payload` -/
  window : Json
  /-- Its readiness mode is `mipc-ready` and its channel is open. -/
  takesActivation : Bool

/-- The lookup and start in `_activate_role_call`. -/
inductive RoleActivation
  | unknownRole
  | noProvider (name : PyStr)
  | unavailable (provider reason : PyStr)
  | changed
  | readied (instance_ : Readied)

/-- Storing a validated language. -/
inductive LanguageChange
  | rejected (reason : PyStr)
  | writeFailed (reason : PyStr)
  | raised (e : PyError)
  | stored (preferences : Dict) (changed : Bool)

/-- The foreground application that a Back gesture goes to. -/
inductive Navigation
  | noForeground
  | notProvided (component : PyStr)
  | unavailable (component : PyStr)
  | provider (provider : Provider) (attempt : Attempt)

inductive Backgrounding
  | unavailable
  | notForeground
  | accepted (already : Bool)

/-- How a catalog transaction fails. -/
inductive CatalogFailure
  | rejected (code message : PyStr) (details : Json)
  | raised (e : PyError)

structure IntentCandidate where
  component : PyStr
  summary : Json

structure CoreSurroundings where
  broadcast : Surroundings
  activateRole : PyStr → RoleActivation
  sessionPreferences : Dict
  setLanguage : Json → LanguageChange
  navigation : Navigation
  background : PyStr → Backgrounding
  services : Option PyStr → Option PyStr → Except PyError Json
  intentCandidates : Dict → Except PyError (List IntentCandidate)
  knownComponent : PyStr → Bool
  roles : Except PyError Json
  preflight : PyStr → PyStr → Except CatalogFailure Json
  preflightRemoval : PyStr → Except CatalogFailure Json
  reload : Bool → Option Dict → Except CatalogFailure Json
  switchRole : PyStr → PyStr → String → Except PyError Json
  queueMigration : PyStr → String → Except PyError Json
  /-- `none` for a role the registry does not know. -/
  roleCandidates : PyStr → Option (List PyStr)
  migrationStatus : Option ℤ → Json
  components : Except PyError Json
  processes : PyStr → Bool → ℤ → Except PyError Json
  isolationCapabilities : Except PyError Json
  apps : Except PyError Json
  ensureReady : PyStr → Option Dict → Except PyError Readied
  stopComponent : PyStr → Except PyError Unit
  foregroundEntries : Bool → Except PyError Json
  /-- Default deadline of a choice: thirty seconds from now. -/
  choiceDeadline : ℤ
  chooser : RoleSurroundings
  windowManager : RoleSurroundings

def payloadOf (msg : Dict) : Json := Dict.get msg "payload" (.dict [])

/-- A call that Core itself sends to a role. -/
def coreCallPacket (role method : String) (payload : Json) (deadline : Option Json) : Dict :=
  record ([("type", text "call"), ("id", .int 0), ("target", text ("role:" ++ role)),
    ("method", text method), ("payload", payload)] ++
    (deadline.map fun d => ("deadline_ms", d)).toList)

def callRole (py : Interpreter) (env : RoleSurroundings) (msg : Dict) : Except PyError Dict :=
  (dispatchRoleCall py env msg (lit "msys.core")).result

def returnedBody (result : Except PyError Json) : Except PyError Body := result.map .returned

/-- An answer with one field. -/
def fieldBody (name : String) (result : Except PyError Json) : Except PyError Body :=
  returnedBody (result.map fun value => object [(name, value)])

/-! ## The methods -/

section Methods

variable (py : Interpreter) (env : CoreSurroundings) (msg : Dict) (source : PyStr)

/-- `_activate_role_call` -/
def activateRole : Except PyError Body :=
  match payloadOf msg with
  | .dict payload =>
    match Dict.get payload "role" .null with
    | .str raw =>
      let role := strip py raw
      if role.isEmpty then
        .ok (refused "BAD_ROLE" (lit "activate_role requires a non-empty role"))
      else if role == lit "window-manager" then
        .ok (refused "ROLE_ACTIVATION_RECURSION"
          (lit "window-manager cannot activate itself through window-manager"))
      else match env.activateRole role with
        | .unknownRole => .ok (refused "UNKNOWN_ROLE" role)
        | .noProvider name => .ok (refused "NO_PROVIDER" name)
        | .unavailable provider reason =>
          .ok (.failed (lit "ROLE_UNAVAILABLE") (some (reason.take 512))
            (some (object [("role", .str role), ("provider", .str provider)])))
        | .changed => .ok (refused "ROLE_CHANGED" role)
        | .readied inst => do
          let response ← callRole py env.windowManager (coreCallPacket "window-manager"
            "activate_component" inst.window (Dict.get? msg "deadline_ms"))
          if !isText "return" (Dict.get response "type" .null) then
            let message := Dict.get response "message" .null
            let code := Dict.get response "code" .null
            let reason := if message.truthy then message
              else if code.truthy then code else text "window activation failed"
            pure (.failed (lit "ROLE_ACTIVATION_FAILED") (some ((toStr py reason).take 512))
              (some (object [("role", .str role), ("provider", .str inst.key),
                ("generation", .int inst.generation), ("activation", .dict response)])))
          else
            let activation := match payloadOf response with
              | .dict entries => entries
              | _ => []
            let ok := match Dict.get activation "ok" .null with
              | .bool false => false
              | _ => true
            pure (.returned (object [("ok", .bool ok), ("role", .str role),
              ("provider", .str inst.key), ("generation", .int inst.generation),
              ("state", .str inst.state), ("activation", .dict activation)]))
    | _ => .ok (refused "BAD_ROLE" (lit "activate_role requires a non-empty role"))
  | _ => .ok (refused "BAD_PAYLOAD" (lit "activate_role payload must be an object"))

/-- Texts in the order of `sorted`. -/
def sortedTexts (texts : List PyStr) : List PyStr := texts.mergeSort fun a b => decide (a ≤ b)

/-- The keys of a dictionary outside a list of known ones, sorted. -/
def unknownKeys (known : List String) (d : Dict) : List PyStr :=
  sortedTexts (d.filterMap fun entry => match entry.1 with
    | .str key => if (known.map lit).contains key then none else some key
    | _ => none)

def storedPreferences (preferences : Dict) (changed : Bool) : Json :=
  .dict (Dict.set (Dict.set preferences "ok" (.bool true)) "changed" (.bool changed))

def setSessionPreferences : Except PyError Body :=
  match payloadOf msg with
  | .dict payload =>
    let unknown := unknownKeys ["language"] payload
    match unknown, Dict.get? payload "language" with
    | [], none => .ok (refused "BAD_SESSION_PREFERENCES"
        (lit "set_session_preferences requires only language"))
    | [], some language =>
      match env.setLanguage language with
      | .rejected reason => .ok (refused "BAD_LANGUAGE" reason)
      | .writeFailed reason =>
        .ok (refused "SESSION_PREFERENCES_WRITE_FAILED" (reason.take 512))
      | .raised e => .error e
      | .stored preferences changed => do
        if changed then
          let _ ← Core.broadcast env.broadcast (lit sessionPreferencesTopic)
            (storedPreferences preferences changed) source
        pure (.returned (storedPreferences preferences changed))
    | _, _ => .ok (refused "BAD_SESSION_PREFERENCES"
        (lit "unknown session preference: " ++ joinComma unknown))
  | _ => .ok (refused "BAD_PAYLOAD" (lit "session preferences payload must be an object"))

def notHandled (fallback : Bool) (component : Option PyStr) (reason : PyStr) : Body :=
  .returned (object ([("handled", .bool false), ("fallback", .bool fallback)] ++
    (component.map fun key => ("component", .str key)).toList ++ [("reason", .str reason)]))

def navigationPacket (provider : Provider) : Dict :=
  record ([("type", text "call"), ("id", callerId msg),
    ("target", .str (lit "component:" ++ provider.key)), ("method", text "navigation_back"),
    ("payload", .dict [])] ++
    ((Dict.get? msg "deadline_ms").map fun d => ("deadline_ms", d)).toList)

def navigationBack : Except PyError Body :=
  match env.navigation with
  | .noForeground => .ok (notHandled true none (lit "no-foreground-application"))
  | .notProvided component => .ok (notHandled true component (lit "interface-not-provided"))
  | .unavailable component =>
    .ok (notHandled false component (lit "navigation-provider-unavailable"))
  | .provider provider attempt => do
    let response ← (forwardCall py provider (navigationPacket msg provider) (lit "msys.core")
      attempt).result
    if !isText "return" (Dict.get response "type" .null) then
      let code := Dict.get response "code" .null
      pure (notHandled false provider.key
        (toStr py (if code.truthy then code else text "navigation-call-failed")))
    else
      let result := match payloadOf response with
        | .dict entries => entries
        | _ => []
      let handled := match Dict.get result "handled" .null with
        | .bool b => b
        | _ => false
      pure (.returned (object [("handled", .bool handled), ("fallback", .bool (!handled)),
        ("component", .str provider.key), ("result", .dict result)]))

def backgroundComponent : Except PyError Body :=
  match payloadOf msg with
  | .dict request =>
    match Dict.get request "component" .null with
    | .str component =>
      if component.isEmpty then
        .ok (refused "BAD_COMPONENT" (lit "background_component requires a component"))
      else match env.background component with
        | .unavailable => .ok (refused "COMPONENT_UNAVAILABLE" component)
        | .notForeground => .ok (refused "NOT_FOREGROUND" component)
        | .accepted already => .ok (.returned (object [("ok", .bool true),
            ("component", .str component), ("state", text "background"),
            ("already_background", .bool already)]))
    | _ => .ok (refused "BAD_COMPONENT" (lit "background_component requires a component"))
  | _ => .ok (refused "BAD_PAYLOAD" (lit "background payload must be an object"))

def nonEmpty (s : PyStr) : Option PyStr := if s.isEmpty then none else some s

def discover : Except PyError Body :=
  match payloadOf msg with
  | .dict payload =>
    let kind := strip py (toStr py (Dict.get payload "kind" (text "")))
    if !(["", "interface", "capability"].map lit).contains kind then
      .ok (refused "BAD_SERVICE_KIND" kind)
    else
      let name := strip py (toStr py (Dict.get payload "name" (text "")))
      fieldBody "services" (env.services (nonEmpty kind) (nonEmpty name))
  | _ => .ok (refused "BAD_PAYLOAD" (lit "discover payload must be an object"))

/-- `normalize_intent_request` -/
def normalizeIntentRequest (payload : Json) : Dict :=
  let request := match payload with
    | .dict entries => entries
    | _ => []
  if !(strip py (toStr py (Dict.get request "action" (text "")))).isEmpty then request
  else if (Dict.get request "uri" .null).truthy then Dict.set request "action" (text "open-uri")
  else if (Dict.get request "mime" .null).truthy then Dict.set request "action" (text "open-mime")
  else if (Dict.get request "name" .null).truthy then
    Dict.set request "action" (text "settings-panel")
  else request

def resolveIntent : Except PyError Body := do
  let candidates ← env.intentCandidates (normalizeIntentRequest py (payloadOf msg))
  pure (.returned (object [("candidates", .list (candidates.map IntentCandidate.summary))]))

/-- The activation of a `start` request, `none` when it is neither null nor an object. -/
def startActivation (entries : Dict) : Option (Option Dict) :=
  match Dict.get entries "activation" .null with
  | .null => some none
  | .dict activation => some (some activation)
  | _ => none

/-- A failed send is dropped, so only the encoding counts. -/
def sendActivationEvent (inst : Readied) (activation : Dict) : Except PyError Bytes :=
  if inst.takesActivation then
    encode (eventPacket (lit "msys.activation") (.dict activation) (lit "msys.core"))
  else .ok []

/-- An empty activation is not sent. -/
def sentActivation (activation : Option Dict) : List Dict :=
  (activation.filter fun a => !a.isEmpty).toList

/-- `start` on the payload of a call. -/
def start (payload : Json) : Except PyError Body := do
  let entries ← payload.asDict
  let key := toStr py (Dict.get entries "component" (text ""))
  match startActivation entries with
  | none => pure (.failed (lit "BAD_ACTIVATION") none none)
  | some activation =>
    let inst ← env.ensureReady key activation
    let sent := sentActivation activation
    let _ ← sent.mapM (sendActivationEvent inst)
    let result := [("component", Json.str key), ("state", .str inst.state)] ++
      sent.map fun request => ("activation_request", .dict request)
    if inst.foregroundApp then
      let response ← callRole py env.windowManager (coreCallPacket "window-manager"
        "activate_component" inst.window none)
      let outcome := if isText "return" (Dict.get response "type" .null)
        then ("activation", payloadOf response)
        else ("activation_error", object [("code", Dict.get response "code" .null),
          ("message", Dict.get response "message" .null)])
      pure (.returned (object (result ++ [outcome])))
    else pure (.returned (object result))

def choiceErrors : List String := ["CHOICE_CANCELLED", "CHOICE_TIMEOUT", "CHOOSER_UI_ERROR"]

def choiceDeadline : Json :=
  match Dict.get? msg "deadline_ms" with
  | some (.int i) => .int i
  | some (.float f) => .float f
  | _ => .int env.choiceDeadline

/-- The call that asks the chooser. -/
def choicePacket (request : Dict) (candidates : List IntentCandidate) : Dict :=
  coreCallPacket "chooser" "choose_intent"
    (object [("request", .dict request),
      ("candidates", .list (candidates.map IntentCandidate.summary))])
    (some (choiceDeadline env msg))

def chosenComponent (choice : Dict) : Except PyError PyStr :=
  if isText "return" (Dict.get choice "type" .null) then do
    let payload ← (payloadOf choice).asDict
    pure (toStr py (Dict.get payload "component" (text "")))
  else .ok []

def choiceOutcome (candidates : List IntentCandidate) (choice : Dict) (selected : PyStr) :
    PyStr ⊕ Body :=
  let summaries := Json.list (candidates.map IntentCandidate.summary)
  let code := errorCode py choice
  if (candidates.map IntentCandidate.component).contains selected then .inl selected
  else if (choiceErrors.map lit).contains code then
    .inr (.failed code (some (toStr py (Dict.get choice "message" (text "intent choice failed"))))
      (some (object [("candidates", summaries)])))
  else
    .inr (.failed (lit "CHOICE_REQUIRED") (some (lit "multiple intent handlers"))
      (some (object [("candidates", summaries)])))

/-- Asks the chooser which of several candidates to start. -/
def choose (request : Dict) (candidates : List IntentCandidate) :
    Except PyError (PyStr ⊕ Body) := do
  let choice ← callRole py env.chooser (choicePacket env msg request candidates)
  let selected ← chosenComponent py choice
  pure (choiceOutcome py candidates choice selected)

/-- The component that an intent is started in. -/
def selectHandler (request : Dict) : Except PyError (PyStr ⊕ Body) := do
  let selected := toStr py (Dict.get request "component" (text ""))
  let candidates ← env.intentCandidates request
  let ids := candidates.map IntentCandidate.component
  if !selected.isEmpty then
    if !env.knownComponent selected then pure (.inr (refused "UNKNOWN_COMPONENT" selected))
    else if !ids.isEmpty && !ids.contains selected then
      pure (.inr (refused "NOT_INTENT_HANDLER" selected))
    else pure (.inl selected)
  else match ids with
    | [] => pure (.inr (refused "NO_INTENT_HANDLER"
        (toStr py (Dict.get request "action" (text "")))))
    | [only] => pure (.inl only)
    | _ => choose py env msg request candidates

/-- The started component's answer names the intent. -/
def withIntent (request : Dict) (selected : PyStr) : Body → Body
  | .returned (.dict payload) =>
    .returned (.dict (Dict.set payload "intent" (object
      [("action", Dict.get request "action" .null), ("component", .str selected)])))
  | body => body

def activate : Except PyError Body := do
  let request := normalizeIntentRequest py (payloadOf msg)
  match ← selectHandler py env msg request with
  | .inr body => pure body
  | .inl selected => do
    let body ← start py env (object [("component", .str selected), ("activation", .dict request)])
    pure (withIntent request selected body)

/-- `except CatalogTransactionError` -/
def catalogBody : Except CatalogFailure Json → Except PyError Body
  | .ok result => .ok (.returned result)
  | .error (.rejected code message details) => .ok (.failed code (some message) (some details))
  | .error (.raised e) => .error e

def preflightRegistry : Except PyError Body :=
  match payloadOf msg with
  | .dict payload => catalogBody (env.preflight (toStr py (Dict.get payload "package" (text "")))
      (toStr py (Dict.get payload "path" (text ""))))
  | _ => .ok (refused "BAD_PAYLOAD" (lit "preflight_registry payload must be an object"))

def preflightRegistryRemove : Except PyError Body :=
  match payloadOf msg with
  | .dict payload =>
    catalogBody (env.preflightRemoval (toStr py (Dict.get payload "package" (text ""))))
  | _ => .ok (refused "BAD_PAYLOAD" (lit "preflight_registry_remove payload must be an object"))

/-- A text that is not empty, not too long and without a NUL. -/
def boundedText (limit : ℕ) : Json → Option PyStr
  | .str s => if s.isEmpty || limit < s.length || s.contains 0 then none else some s
  | _ => none

/-- `_catalog_transaction_request` -/
def catalogTransactionRequest (value : Json) : Except String (Option Dict) :=
  match value with
  | .null => .ok none
  | .dict entries =>
    if !isText catalogTransactionSchema (Dict.get entries "schema" .null) then
      .error "transaction schema is unsupported"
    else match boundedText 128 (Dict.get entries "package" .null) with
    | none => .error "transaction package is invalid"
    | some package =>
      match Dict.get entries "removed" .null with
      | .bool removed => do
        let head := [("schema", text catalogTransactionSchema), ("package", .str package),
          ("removed", .bool removed)]
        let version ← if removed then pure [] else
          match boundedText 128 (Dict.get entries "version" .null),
            boundedText 4096 (Dict.get entries "path" .null) with
          | none, _ => .error "transaction version is invalid"
          | some _, none => .error "transaction path must be an absolute path"
          | some version, some path =>
            if !(lit "/").isPrefixOf path then .error "transaction path must be an absolute path"
            else pure [("version", .str version), ("path", .str path)]
        match Dict.get entries "resume_components" (.list []) with
        | .list resume =>
          if 256 < resume.length then
            .error "transaction resume_components must be a bounded array"
          else match resume.mapM (boundedText 257) with
            | none => .error "transaction resume component is invalid"
            | some [] => pure (some (record (head ++ version)))
            | some names => pure (some (record (head ++ version ++
                [("resume_components", .list ((sortedTexts names.eraseDups).map Json.str))])))
        | _ => .error "transaction resume_components must be a bounded array"
      | _ => .error "transaction removed must be a boolean"
  | _ => .error "transaction must be an object"

def reloadRegistry : Except PyError Body :=
  match payloadOf msg with
  | .dict payload =>
    match Dict.get payload "verify_health" (.bool true) with
    | .bool verifyHealth =>
      match catalogTransactionRequest (Dict.get payload "transaction" .null) with
      | .error reason => .ok (refused "BAD_PAYLOAD" (lit reason))
      | .ok transaction =>
        match env.reload verifyHealth transaction with
        | .ok changes => .ok (.returned changes)
        | .error (.rejected code message details) =>
          .ok (.failed code (some message) (some details))
        | .error (.raised e) =>
          .ok (.failed (lit "CATALOG_RELOAD_FAILED") (some (lit "installed catalog reload failed"))
            (some (object [("reason", .str (e.text.take 512))])))
    | _ => .ok (refused "BAD_PAYLOAD" (lit "verify_health must be a boolean"))
  | _ => .ok (refused "BAD_PAYLOAD" (lit "reload_registry payload must be an object"))

def migrationBody : Except PyError Json → Body
  | .ok migration => .returned (object [("migration", migration)])
  | .error e => refused "DISPLAY_MIGRATION_REJECTED" (e.text.take 512)

def selectRole : Except PyError Body := do
  let payload ← (payloadOf msg).asDict
  let role := toStr py (Dict.get payload "role" (text ""))
  let provider := toStr py (Dict.get payload "provider" (text ""))
  if role == lit displayOutputRole then
    pure (migrationBody (env.queueMigration provider "select"))
  else
    let selected ← env.switchRole role provider "select"
    pure (.returned selected)

/-- An unknown role is a `KeyError` of the registry. -/
def resetRole : Except PyError Body := do
  let payload ← (payloadOf msg).asDict
  let role := toStr py (Dict.get payload "role" (text ""))
  match env.roleCandidates role with
  | none => .error ⟨.keyError, reprStr py role⟩
  | some [] => pure (refused "NO_PROVIDER" role)
  | some (provider :: _) =>
    if role == lit displayOutputRole then
      pure (migrationBody (env.queueMigration provider "reset"))
    else
      let selected ← env.switchRole role provider "reset"
      pure (.returned selected)

def displayMigrationStatus : Except PyError Body :=
  match payloadOf msg with
  | .dict payload =>
    match Dict.get payload "id" .null with
    | .null => .ok (.returned (object [("migration", env.migrationStatus none)]))
    | .int i =>
      if i ≤ 0 then
        .ok (refused "BAD_PAYLOAD" (lit "display migration id must be a positive integer"))
      else .ok (.returned (object [("migration", env.migrationStatus (some i))]))
    | _ => .ok (refused "BAD_PAYLOAD" (lit "display migration id must be a positive integer"))
  | _ => .ok (refused "BAD_PAYLOAD" (lit "display migration status payload must be an object"))

def processListRequest (request : Dict) : Except String (PyStr × Bool × ℤ) :=
  if !(unknownKeys ["scope", "include_system", "limit"] request).isEmpty then
    .error "unknown process list field"
  else match Dict.get request "scope" (text "headless-msys") with
  | .str scope =>
    if !(["headless-msys", "all-msys"].map lit).contains scope then
      .error "process list scope must be 'headless-msys' or 'all-msys'"
    else match Dict.get request "include_system" (.bool false) with
    | .bool includeSystem =>
      match Dict.get request "limit" (.int defaultSystemProcessLimit) with
      | .int limit =>
        if limit < 1 || maxSystemProcessLimit < limit then
          .error "process list limit must be an integer between 1 and 128"
        else .ok (scope, includeSystem, limit)
      | _ => .error "process list limit must be an integer between 1 and 128"
    | _ => .error "include_system must be boolean"
  | _ => .error "process list scope must be 'headless-msys' or 'all-msys'"

def listProcesses : Except PyError Body :=
  match payloadOf msg with
  | .dict request =>
    match processListRequest request with
    | .error reason => .ok (refused "BAD_PAYLOAD" (lit reason))
    | .ok (scope, includeSystem, limit) => returnedBody (env.processes scope includeSystem limit)
  | _ => .ok (refused "BAD_PAYLOAD" (lit "process list payload must be an object"))

def stop : Except PyError Body := do
  let payload ← (payloadOf msg).asDict
  let key := toStr py (Dict.get payload "component" (text ""))
  let _ ← env.stopComponent key
  pure (.returned (object [("component", .str key), ("state", text "stopped")]))

/-- `broadcast` drops a topic that is no text. -/
def broadcastEvent : Except PyError Body := do
  let payload ← (payloadOf msg).asDict
  match Dict.get payload "topic" (text "") with
  | .str topic =>
    let _ ← Core.broadcast env.broadcast topic (payloadOf payload) (lit "core-call")
    pure (.returned (object [("ok", .bool true)]))
  | _ => pure (.returned (object [("ok", .bool true)]))

def includeResources : Bool :=
  match payloadOf msg with
  | .dict request => match Dict.get request "include_resources" .null with
    | .bool b => b
    | _ => false
  | _ => false

def foregroundStack : Except PyError Body :=
  fieldBody "windows" (env.foregroundEntries (includeResources msg))

/-! ## Selection of the method -/

inductive CoreMethod
  | activateRole | getSessionPreferences | setSessionPreferences | navigationBack
  | backgroundComponent | discover | resolveIntent | activate | listRoles | preflightRegistry
  | preflightRegistryRemove | reloadRegistry | selectRole | resetRole | displayMigrationStatus
  | listComponents | listProcesses | isolationCapabilities | listApps | start | stop | broadcast
  | foregroundStack
  deriving DecidableEq

def coreMethods : List (String × CoreMethod) :=
  [("activate_role", .activateRole), ("get_session_preferences", .getSessionPreferences),
    ("set_session_preferences", .setSessionPreferences), ("navigation_back", .navigationBack),
    ("background_component", .backgroundComponent), ("discover", .discover),
    ("resolve_intent", .resolveIntent), ("activate", .activate), ("list_roles", .listRoles),
    ("preflight_registry", .preflightRegistry),
    ("preflight_registry_remove", .preflightRegistryRemove), ("reload_registry", .reloadRegistry),
    ("select_role", .selectRole), ("reset_role", .resetRole),
    ("display_migration_status", .displayMigrationStatus),
    ("get_display_migration", .displayMigrationStatus), ("list_components", .listComponents),
    ("list_processes", .listProcesses), ("isolation_capabilities", .isolationCapabilities),
    ("list_apps", .listApps), ("start", .start), ("stop", .stop), ("broadcast", .broadcast),
    ("foreground_stack", .foregroundStack)]

def coreMethod (name : PyStr) : Option CoreMethod :=
  (coreMethods.find? fun entry => lit entry.1 == name).map Prod.snd

def coreMethodBody : CoreMethod → Except PyError Body
  | .activateRole => activateRole py env msg
  | .getSessionPreferences => .ok (.returned (.dict env.sessionPreferences))
  | .setSessionPreferences => setSessionPreferences env msg source
  | .navigationBack => navigationBack py env msg
  | .backgroundComponent => backgroundComponent env msg
  | .discover => discover py env msg
  | .resolveIntent => resolveIntent py env msg
  | .activate => activate py env msg
  | .listRoles => fieldBody "roles" env.roles
  | .preflightRegistry => preflightRegistry py env msg
  | .preflightRegistryRemove => preflightRegistryRemove py env msg
  | .reloadRegistry => reloadRegistry env msg
  | .selectRole => selectRole py env msg
  | .resetRole => resetRole py env msg
  | .displayMigrationStatus => displayMigrationStatus env msg
  | .listComponents => fieldBody "components" env.components
  | .listProcesses => listProcesses env msg
  | .isolationCapabilities => returnedBody env.isolationCapabilities
  | .listApps => fieldBody "apps" env.apps
  | .start => start py env (payloadOf msg)
  | .stop => stop py env msg
  | .broadcast => broadcastEvent env msg
  | .foregroundStack => foregroundStack env msg

/-- A method that is a list or an object fails in the set membership test. -/
def coreBody : Except PyError Body :=
  match Dict.get msg "method" .null with
  | .str name =>
    match coreMethod name with
    | some method => coreMethodBody py env msg source method
    | none => .ok (refused "NO_METHOD" name)
  | method =>
    if method.hashable then .ok (refused "NO_METHOD" (toStr py method))
    else raise .typeError ("unhashable type: '" ++ method.typeName ++ "'")

/-- `_core_call`: every answer carries the `id` of the call as it came. -/
def coreCall : Except PyError Dict := do
  let body ← coreBody py env msg source
  pure (body.packet (callerId msg))

end Methods

end MsysCore.Core
