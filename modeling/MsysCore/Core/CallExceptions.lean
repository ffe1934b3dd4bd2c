import MsysCore.Core.Dispatch

/-!
# Calls whose dispatch raises

For each target and each method of Core, the condition on the call, on the state and on
the behaviour of the providers under which no exception leaves `dispatch_call`.
-/

namespace MsysCore.Core

open Python

/-! ## Forwarded calls -/

/-- A packet that is sent on: the id and the deadline convert, and unless the deadline has
passed the forwarded packet can be encoded. -/
def ForwardQuiet (py : Interpreter) (provider : Provider) (msg : Dict) (source : PyStr)
    (attempt : Attempt) : Prop :=
  (attempt.answer provider).isSome = true →
    IntLike py (callerId msg) ∧ Returns (deadlineExpired msg attempt.now) ∧
      (deadlineExpired msg attempt.now = .ok false →
        Encodable (forwardedPacket provider msg source attempt.requestId))

theorem forwardCall_returns_iff (py : Interpreter) (provider : Provider) (msg : Dict)
    (source : PyStr) (attempt : Attempt) :
    Returns (forwardCall py provider msg source attempt).result ↔
      ForwardQuiet py provider msg source attempt := by
  unfold forwardCall ForwardQuiet
  cases hanswer : attempt.answer provider with
  | none => simp
  | some answer =>
    simp only [Option.isSome_some, true_implies, writeCall, ← toInt_returns_iff]
    cases hid : toInt py (callerId msg) with
    | error e => simp
    | ok id =>
      cases hdeadline : deadlineExpired msg attempt.now with
      | error e => simp
      | ok expired =>
        cases expired with
        | true => simp
        | false =>
          rw [← encode_returns_iff]
          cases encode (forwardedPacket provider msg source attempt.requestId) with
          | error e => simp
          | ok data => simp

/-- A response after which the provider is retired. -/
def livenessFailure (py : Interpreter) (response : Dict) : Bool :=
  isErrorPacket response && !(expiredBeforeProviderDelivery response
    || !(roleLivenessErrors.map lit).contains (errorCode py response))

/-- The loop asks another provider after a liveness failure. -/
def goesOn (py : Interpreter) (loop : RetryLoop) (response : Dict) : Bool :=
  loop.retrySafe || errorCode py response == lit "NO_PROVIDER_SOCKET"

/-- At every turn the lookup does not raise, the call can be forwarded, and the retirement
of a failed provider does not raise. -/
def RetryQuiet (py : Interpreter) (msg : Dict) (source : PyStr) (loop : RetryLoop) :
    List Attempt → List PyStr → Prop
  | [], _ => True
  | attempt :: attempts, attempted =>
    match providerFor attempted 3 attempt.rounds with
    | .error _ => False
    | .ok none => True
    | .ok (some provider) =>
      ForwardQuiet py provider msg source attempt ∧
        ∀ response, (forwardCall py provider msg source attempt).result = .ok response →
          livenessFailure py response = true →
            Returns attempt.stop ∧ (goesOn py loop response = true →
              RetryQuiet py msg source loop attempts (provider.key :: attempted))

theorem retry_returns_iff (py : Interpreter) (msg : Dict) (source : PyStr) (loop : RetryLoop)
    (attempts : List Attempt) : ∀ (attempted : List PyStr) (lastError : Option Dict),
    Returns (retry py msg source loop attempts attempted lastError).result ↔
      RetryQuiet py msg source loop attempts attempted := by
  induction attempts with
  | nil => simp [retry, RetryQuiet]
  | cons attempt attempts ih =>
    intro attempted lastError
    rw [retry, RetryQuiet]
    cases providerFor attempted 3 attempt.rounds with
    | error e => simp
    | ok found =>
      cases found with
      | none => simp
      | some provider =>
        simp only [← forwardCall_returns_iff]
        cases hresult : (forwardCall py provider msg source attempt).result with
        | error e => simp
        | ok response =>
          simp only [returns_ok, true_and, Except.ok.injEq, forall_eq', livenessFailure, goesOn]
          cases isErrorPacket response with
          | false => simp
          | true =>
            cases expiredBeforeProviderDelivery response
                || !(roleLivenessErrors.map lit).contains (errorCode py response) with
            | true => simp
            | false =>
              cases hstop : attempt.stop with
              | error e => simp
              | ok stopped =>
                have hunknown : (!loop.retrySafe
                    && errorCode py response != lit "NO_PROVIDER_SOCKET") =
                    !(loop.retrySafe || errorCode py response == lit "NO_PROVIDER_SOCKET") := by
                  rw [bne, Bool.not_or]
                cases hgo : loop.retrySafe || errorCode py response == lit "NO_PROVIDER_SOCKET" with
                | true => simp [hunknown, hgo, ih]
                | false => simp [hunknown, hgo]

/-- A call to a role. -/
def RoleQuiet (py : Interpreter) (env : RoleSurroundings) (msg : Dict) (source : PyStr) : Prop :=
  ∃ id, toInt py (callerId msg) = .ok id ∧
    ((isNoStartNoop (targetName py msg) (methodName py msg) && !env.providerRunning) = false →
      ((targetName py msg == lit "window-manager" && methodName py msg == lit "close_active") = true →
        Returns env.announceClosing) ∧
      RetryQuiet py msg source (roleLoop py msg id) env.attempts [])

theorem dispatchRoleCall_returns_iff (py : Interpreter) (env : RoleSurroundings) (msg : Dict)
    (source : PyStr) :
    Returns (dispatchRoleCall py env msg source).result ↔ RoleQuiet py env msg source := by
  unfold dispatchRoleCall RoleQuiet
  cases hid : toInt py (callerId msg) with
  | error e => simp
  | ok id =>
    simp only [Except.ok.injEq, exists_eq_left']
    cases hnoop : isNoStartNoop (targetName py msg) (methodName py msg) && !env.providerRunning with
    | true => simp
    | false =>
      cases hclose : targetName py msg == lit "window-manager"
          && methodName py msg == lit "close_active" with
      | false => simp [retry_returns_iff]
      | true =>
        cases hannounce : env.announceClosing with
        | error e => simp
        | ok closed => simp [retry_returns_iff]

theorem callRole_returns_iff (py : Interpreter) (env : RoleSurroundings) (msg : Dict) :
    Returns (callRole py env msg) ↔ RoleQuiet py env msg (lit "msys.core") :=
  dispatchRoleCall_returns_iff py env msg _

/-- A call to an interface. -/
def InterfaceQuiet (py : Interpreter) (attempts : List Attempt) (msg : Dict) (source : PyStr) :
    Prop :=
  ∃ id, toInt py (callerId msg) = .ok id ∧ ((targetName py msg).isEmpty = false →
    RetryQuiet py msg source (interfaceLoop py msg id) attempts [])

theorem dispatchInterfaceCall_returns_iff (py : Interpreter) (attempts : List Attempt) (msg : Dict)
    (source : PyStr) :
    Returns (dispatchInterfaceCall py attempts msg source).result ↔
      InterfaceQuiet py attempts msg source := by
  unfold dispatchInterfaceCall InterfaceQuiet
  cases hid : toInt py (callerId msg) with
  | error e => simp
  | ok id =>
    simp only [Except.ok.injEq, exists_eq_left']
    cases hempty : (targetName py msg).isEmpty with
    | true => simp
    | false => simp [retry_returns_iff]

/-- A call to one component: `ensure_ready` is guarded, the forwarded call is not. -/
def ComponentQuiet (py : Interpreter) (env : CallSurroundings) (msg : Dict) (source : PyStr) :
    Prop :=
  IntLike py (callerId msg) ∧
    ∀ provider attempt, (targetName py msg).isEmpty = false →
      env.core.knownComponent (targetName py msg) = true →
      env.component (targetName py msg) = .ok (provider, attempt) →
      ForwardQuiet py provider msg source attempt

theorem dispatchComponentTargetCall_returns_iff (py : Interpreter) (env : CallSurroundings)
    (msg : Dict) (source : PyStr) :
    Returns (dispatchComponentTargetCall py env msg source) ↔ ComponentQuiet py env msg source := by
  unfold dispatchComponentTargetCall ComponentQuiet
  rw [← toInt_returns_iff]
  cases hid : toInt py (callerId msg) with
  | error e => simp [returns_bind]
  | ok id =>
    simp only [returns_ok, true_and, returns_bind, Except.ok.injEq, exists_eq_left']
    cases hempty : (targetName py msg).isEmpty with
    | true => simp
    | false =>
      cases hknown : env.core.knownComponent (targetName py msg) with
      | false => simp
      | true =>
        cases hcomponent : env.component (targetName py msg) with
        | error reason => simp
        | ok started => simp [forwardCall_returns_iff, Prod.ext_iff]

/-! ## Methods of Core -/

section Core

variable (py : Interpreter) (env : CoreSurroundings) (msg : Dict) (source : PyStr)

/-- The event can be encoded when somebody gets it. -/
def BroadcastQuiet (topic : PyStr) (payload : Json) (source : PyStr) : Prop :=
  validTopicText topic = true → ∀ receiver ∈ env.broadcast.instances,
    receives topic receiver = true → Encodable (eventPacket topic payload source)

def ActivateRoleQuiet : Prop :=
  ∀ payload, payloadOf msg = .dict payload → ∀ raw, Dict.get payload "role" .null = .str raw →
    (strip py raw).isEmpty = false → (strip py raw == lit "window-manager") = false →
    ∀ inst, env.activateRole (strip py raw) = .readied inst →
    RoleQuiet py env.windowManager (coreCallPacket "window-manager" "activate_component"
      inst.window (Dict.get? msg "deadline_ms")) (lit "msys.core")

def SetSessionPreferencesQuiet : Prop :=
  ∀ payload, payloadOf msg = .dict payload → unknownKeys ["language"] payload = [] →
    ∀ language, Dict.get? payload "language" = some language →
    match env.setLanguage language with
    | .raised _ => False
    | .stored preferences true => BroadcastQuiet env (lit sessionPreferencesTopic)
        (storedPreferences preferences true) source
    | _ => True

def NavigationBackQuiet : Prop :=
  ∀ provider attempt, env.navigation = .provider provider attempt →
    ForwardQuiet py provider (navigationPacket msg provider) (lit "msys.core") attempt

def DiscoverQuiet : Prop :=
  ∀ payload, payloadOf msg = .dict payload →
    (["", "interface", "capability"].map lit).contains
      (strip py (toStr py (Dict.get payload "kind" (text "")))) = true →
    Returns (env.services (nonEmpty (strip py (toStr py (Dict.get payload "kind" (text "")))))
      (nonEmpty (strip py (toStr py (Dict.get payload "name" (text ""))))))

/-- `start` needs an object, a component that gets ready, and an activation event that
can be encoded. -/
def StartQuiet (payload : Json) : Prop :=
  ∃ entries, payload = .dict entries ∧ ∀ activation, startActivation entries = some activation →
    ∃ inst, env.ensureReady (toStr py (Dict.get entries "component" (text ""))) activation = .ok inst ∧
      (∀ request ∈ sentActivation activation, inst.takesActivation = true →
        Encodable (eventPacket (lit "msys.activation") (.dict request) (lit "msys.core"))) ∧
      (inst.foregroundApp = true → RoleQuiet py env.windowManager
        (coreCallPacket "window-manager" "activate_component" inst.window none) (lit "msys.core"))

/-- The chooser is asked, and its return carries an object. -/
def ChooseQuiet (request : Dict) (candidates : List IntentCandidate) : Prop :=
  RoleQuiet py env.chooser (choicePacket env msg request candidates) (lit "msys.core") ∧
    ∀ choice, callRole py env.chooser (choicePacket env msg request candidates) = .ok choice →
      isText "return" (Dict.get choice "type" .null) = true → ∃ entries, payloadOf choice = .dict entries

def SelectHandlerQuiet (request : Dict) : Prop :=
  ∃ candidates, env.intentCandidates request = .ok candidates ∧
    ((toStr py (Dict.get request "component" (text ""))).isEmpty = true → 2 ≤ candidates.length →
      ChooseQuiet py env msg request candidates)

def ActivateQuiet : Prop :=
  SelectHandlerQuiet py env msg (normalizeIntentRequest py (payloadOf msg)) ∧
    ∀ selected, selectHandler py env msg (normalizeIntentRequest py (payloadOf msg)) =
        .ok (.inl selected) →
      StartQuiet py env (object [("component", .str selected),
        ("activation", .dict (normalizeIntentRequest py (payloadOf msg)))])

/-- A failure that is a `CatalogTransactionError`. -/
def CatalogQuiet (result : Except CatalogFailure Json) : Prop := ∀ e, result ≠ .error (.raised e)

def SelectRoleQuiet : Prop :=
  ∃ payload, payloadOf msg = .dict payload ∧
    ((toStr py (Dict.get payload "role" (text "")) == lit displayOutputRole) = false →
      Returns (env.switchRole (toStr py (Dict.get payload "role" (text "")))
        (toStr py (Dict.get payload "provider" (text ""))) "select"))

def ResetRoleQuiet : Prop :=
  ∃ payload, payloadOf msg = .dict payload ∧
    ∃ candidates, env.roleCandidates (toStr py (Dict.get payload "role" (text ""))) = some candidates ∧
      ∀ provider rest, candidates = provider :: rest →
        (toStr py (Dict.get payload "role" (text "")) == lit displayOutputRole) = false →
        Returns (env.switchRole (toStr py (Dict.get payload "role" (text ""))) provider "reset")

def ListProcessesQuiet : Prop :=
  ∀ request, payloadOf msg = .dict request →
    ∀ scope includeSystem limit, processListRequest request = .ok (scope, includeSystem, limit) →
      Returns (env.processes scope includeSystem limit)

def StopQuiet : Prop :=
  ∃ payload, payloadOf msg = .dict payload ∧
    Returns (env.stopComponent (toStr py (Dict.get payload "component" (text ""))))

def BroadcastEventQuiet : Prop :=
  ∃ payload, payloadOf msg = .dict payload ∧
    ∀ topic, Dict.get payload "topic" (text "") = .str topic →
      BroadcastQuiet env topic (payloadOf payload) (lit "core-call")

/-- What each method needs so as not to raise. -/
def MethodQuiet : CoreMethod → Prop
  | .activateRole => ActivateRoleQuiet py env msg
  | .setSessionPreferences => SetSessionPreferencesQuiet env msg source
  | .navigationBack => NavigationBackQuiet py env msg
  | .discover => DiscoverQuiet py env msg
  | .resolveIntent => Returns (env.intentCandidates (normalizeIntentRequest py (payloadOf msg)))
  | .activate => ActivateQuiet py env msg
  | .listRoles => Returns env.roles
  | .preflightRegistry => ∀ payload, payloadOf msg = .dict payload →
      CatalogQuiet (env.preflight (toStr py (Dict.get payload "package" (text "")))
        (toStr py (Dict.get payload "path" (text ""))))
  | .preflightRegistryRemove => ∀ payload, payloadOf msg = .dict payload →
      CatalogQuiet (env.preflightRemoval (toStr py (Dict.get payload "package" (text ""))))
  | .selectRole => SelectRoleQuiet py env msg
  | .resetRole => ResetRoleQuiet py env msg
  | .listComponents => Returns env.components
  | .listProcesses => ListProcessesQuiet env msg
  | .isolationCapabilities => Returns env.isolationCapabilities
  | .listApps => Returns env.apps
  | .start => StartQuiet py env (payloadOf msg)
  | .stop => StopQuiet py env msg
  | .broadcast => BroadcastEventQuiet env msg
  | .foregroundStack => Returns (env.foregroundEntries (includeResources msg))
  | .getSessionPreferences | .backgroundComponent | .reloadRegistry | .displayMigrationStatus => True

/-- A method of Core: a list or an object as method name is not hashable. -/
def CoreQuiet : Prop :=
  match Dict.get msg "method" .null with
  | .str name => ∀ method, coreMethod name = some method → MethodQuiet py env msg source method
  | method => method.hashable = true

variable {py env msg source}

theorem asDict_returns_iff (payload : Json) :
    Returns payload.asDict ↔ ∃ entries, payload = .dict entries := by
  cases payload <;> simp [Json.asDict, raise]

theorem returnedBody_returns_iff (result : Except PyError Json) :
    Returns (returnedBody result) ↔ Returns result := by
  cases result <;> simp [returnedBody, Except.map]

theorem fieldBody_returns_iff (name : String) (result : Except PyError Json) :
    Returns (fieldBody name result) ↔ Returns result := by
  cases result <;> simp [fieldBody, returnedBody, Except.map]

theorem catalogBody_returns_iff (result : Except CatalogFailure Json) :
    Returns (catalogBody result) ↔ CatalogQuiet result := by
  cases result with
  | ok value => simp [catalogBody, CatalogQuiet]
  | error failure => cases failure <;> simp [catalogBody, CatalogQuiet]

theorem activateRole_returns_iff :
    Returns (activateRole py env msg) ↔ ActivateRoleQuiet py env msg := by
  unfold activateRole ActivateRoleQuiet
  cases payloadOf msg with
  | dict payload =>
    simp only [Json.dict.injEq, forall_eq']
    cases Dict.get payload "role" .null with
    | str raw =>
      simp only [Json.str.injEq, forall_eq']
      cases (strip py raw).isEmpty with
      | true => simp
      | false =>
        cases strip py raw == lit "window-manager" with
        | true => simp
        | false =>
          cases env.activateRole (strip py raw) with
          | readied inst =>
            simp only [Bool.false_eq_true, if_false, RoleActivation.readied.injEq, forall_eq',
              true_implies, ← callRole_returns_iff]
            refine returns_bind_of_forall fun response => ?_
            split_ifs <;> exact returns_pure _
          | _ => simp
    | _ => simp
  | _ => simp

theorem setSessionPreferences_returns_iff :
    Returns (setSessionPreferences env msg source) ↔ SetSessionPreferencesQuiet env msg source := by
  unfold setSessionPreferences SetSessionPreferencesQuiet
  cases payloadOf msg with
  | dict payload =>
    simp only [Json.dict.injEq, forall_eq']
    cases unknownKeys ["language"] payload with
    | cons key keys => simp
    | nil =>
      cases Dict.get? payload "language" with
      | none => simp
      | some language =>
        simp only [Option.some.injEq, forall_eq', true_implies]
        cases env.setLanguage language with
        | stored preferences changed =>
          cases changed with
          | false => simp
          | true =>
            simp only [if_true, BroadcastQuiet, ← broadcast_returns_iff]
            rw [returns_bind_of_forall fun _ => returns_pure _]
        | _ => simp
  | _ => simp

theorem navigationBack_returns_iff :
    Returns (navigationBack py env msg) ↔ NavigationBackQuiet py env msg := by
  unfold navigationBack NavigationBackQuiet
  cases env.navigation with
  | provider provider attempt =>
    simp only [Navigation.provider.injEq, and_imp, forall_apply_eq_imp_iff, forall_eq',
      ← forwardCall_returns_iff]
    refine returns_bind_of_forall fun response => ?_
    split_ifs <;> exact returns_pure _
  | _ => simp

theorem discover_returns_iff : Returns (discover py env msg) ↔ DiscoverQuiet py env msg := by
  unfold discover DiscoverQuiet
  cases payloadOf msg with
  | dict payload =>
    simp only [Json.dict.injEq, forall_eq']
    cases (["", "interface", "capability"].map lit).contains
        (strip py (toStr py (Dict.get payload "kind" (text "")))) with
    | true => simp [fieldBody_returns_iff]
    | false => simp
  | _ => simp

theorem sendActivationEvent_returns_iff (inst : Readied) (request : Dict) :
    Returns (sendActivationEvent inst request) ↔ (inst.takesActivation = true →
      Encodable (eventPacket (lit "msys.activation") (.dict request) (lit "msys.core"))) := by
  unfold sendActivationEvent
  cases inst.takesActivation <;> simp [encode_returns_iff]

theorem start_returns_iff (payload : Json) :
    Returns (start py env payload) ↔ StartQuiet py env payload := by
  unfold start StartQuiet
  cases payload with
  | dict entries =>
    simp only [Json.asDict, returns_bind, Except.ok.injEq, exists_eq_left', Json.dict.injEq]
    cases startActivation entries with
    | none => simp
    | some activation =>
      simp only [Option.some.injEq, forall_eq']
      rw [returns_bind]
      refine exists_congr fun inst => and_congr_right fun _ => ?_
      simp only [← sendActivationEvent_returns_iff, ← mapM_returns_iff, ← callRole_returns_iff]
      refine returns_bind_const fun _ => ?_
      cases inst.foregroundApp with
      | false => simp
      | true =>
        simp only [if_true, true_implies]
        refine returns_bind_of_forall fun response => ?_
        exact returns_pure _
  | _ => simp [Json.asDict, raise, returns_bind]

theorem choose_returns_iff (request : Dict) (candidates : List IntentCandidate) :
    Returns (choose py env msg request candidates) ↔ ChooseQuiet py env msg request candidates := by
  unfold choose ChooseQuiet
  rw [returns_bind_and, callRole_returns_iff]
  refine and_congr_right fun _ => forall₂_congr fun choice _ => ?_
  rw [returns_bind_of_forall fun _ => returns_pure _, chosenComponent]
  cases isText "return" (Dict.get choice "type" .null) with
  | false => simp
  | true =>
    simp only [if_true, true_implies, ← asDict_returns_iff]
    exact returns_bind_of_forall fun _ => returns_pure _

theorem selectHandler_returns_iff (request : Dict) :
    Returns (selectHandler py env msg request) ↔ SelectHandlerQuiet py env msg request := by
  unfold selectHandler SelectHandlerQuiet
  rw [returns_bind]
  refine exists_congr fun candidates => and_congr_right fun _ => ?_
  cases (toStr py (Dict.get request "component" (text ""))).isEmpty with
  | false =>
    simp only [Bool.not_false, if_true, Bool.false_eq_true, false_implies, iff_true]
    split_ifs <;> exact returns_pure _
  | true =>
    simp only [Bool.not_true, Bool.false_eq_true, if_false, true_implies]
    cases candidates with
    | nil => simp
    | cons first rest =>
      cases rest with
      | nil => simp
      | cons second rest => simp [choose_returns_iff]

theorem activate_returns_iff : Returns (activate py env msg) ↔ ActivateQuiet py env msg := by
  unfold activate ActivateQuiet
  rw [returns_bind_and, selectHandler_returns_iff]
  refine and_congr_right fun _ => ?_
  have hstart : ∀ selected, Returns (do
      let body ← start py env (object [("component", .str selected),
        ("activation", .dict (normalizeIntentRequest py (payloadOf msg)))])
      pure (withIntent (normalizeIntentRequest py (payloadOf msg)) selected body)) ↔
      StartQuiet py env (object [("component", .str selected),
        ("activation", .dict (normalizeIntentRequest py (payloadOf msg)))]) := by
    intro selected
    rw [returns_bind_of_forall fun _ => returns_pure _, start_returns_iff]
  constructor
  · intro h selected hselected
    exact (hstart selected).mp (h _ hselected)
  · rintro h (selected | body) hselected
    · exact (hstart selected).mpr (h selected hselected)
    · exact returns_pure _

theorem selectRole_returns_iff : Returns (selectRole py env msg) ↔ SelectRoleQuiet py env msg := by
  unfold selectRole SelectRoleQuiet
  cases payloadOf msg with
  | dict payload =>
    simp only [Json.asDict, returns_bind, Except.ok.injEq, exists_eq_left', Json.dict.injEq]
    split_ifs with hrole
    · simp [hrole]
    · simp only [Bool.not_eq_true] at hrole
      simp only [hrole, true_implies]
      exact returns_bind_of_forall fun _ => returns_pure _
  | _ => simp [Json.asDict, raise, returns_bind]

theorem resetRole_returns_iff : Returns (resetRole py env msg) ↔ ResetRoleQuiet py env msg := by
  unfold resetRole ResetRoleQuiet
  cases payloadOf msg with
  | dict payload =>
    simp only [Json.asDict, returns_bind, Except.ok.injEq, exists_eq_left', Json.dict.injEq]
    cases env.roleCandidates (toStr py (Dict.get payload "role" (text ""))) with
    | none => simp
    | some candidates =>
      cases candidates with
      | nil => simp
      | cons provider rest =>
        split_ifs with hrole
        · simp [hrole]
        · simp only [Bool.not_eq_true] at hrole
          simp only [hrole, true_implies, Option.some.injEq, exists_eq_left', List.cons.injEq,
            and_imp, forall_apply_eq_imp_iff, forall_eq']
          exact returns_bind_of_forall fun _ => returns_pure _
  | _ => simp [Json.asDict, raise, returns_bind]

theorem listProcesses_returns_iff :
    Returns (listProcesses env msg) ↔ ListProcessesQuiet env msg := by
  unfold listProcesses ListProcessesQuiet
  cases payloadOf msg with
  | dict request =>
    simp only [Json.dict.injEq, forall_eq']
    cases processListRequest request with
    | error reason => simp
    | ok parsed =>
      obtain ⟨scope, includeSystem, limit⟩ := parsed
      simp [returnedBody_returns_iff]
  | _ => simp

theorem stop_returns_iff : Returns (stop py env msg) ↔ StopQuiet py env msg := by
  unfold stop StopQuiet
  cases payloadOf msg with
  | dict payload =>
    simp only [Json.asDict, Json.dict.injEq, exists_eq_left']
    exact returns_bind_of_forall fun _ => returns_pure _
  | _ => simp [Json.asDict, raise, returns_bind]

theorem broadcastEvent_returns_iff :
    Returns (broadcastEvent env msg) ↔ BroadcastEventQuiet env msg := by
  unfold broadcastEvent BroadcastEventQuiet BroadcastQuiet
  cases payloadOf msg with
  | dict payload =>
    simp only [Json.asDict, returns_bind, Except.ok.injEq, exists_eq_left', Json.dict.injEq]
    cases Dict.get payload "topic" (text "") with
    | str topic =>
      simp only [Json.str.injEq, forall_eq', ← broadcast_returns_iff]
      exact returns_bind_of_forall fun _ => returns_pure _
    | _ => simp
  | _ => simp [Json.asDict, raise, returns_bind]

theorem reloadRegistry_returns : Returns (reloadRegistry env msg) := by
  unfold reloadRegistry
  split
  · split
    · split
      · exact returns_ok _
      · split <;> exact returns_ok _
    · exact returns_ok _
  · exact returns_ok _

theorem backgroundComponent_returns : Returns (backgroundComponent env msg) := by
  unfold backgroundComponent
  split
  · split
    · split_ifs
      · exact returns_ok _
      · split <;> exact returns_ok _
    · exact returns_ok _
  · exact returns_ok _

theorem displayMigrationStatus_returns : Returns (displayMigrationStatus env msg) := by
  unfold displayMigrationStatus
  split
  · split
    · exact returns_ok _
    · split_ifs <;> exact returns_ok _
    · exact returns_ok _
  · exact returns_ok _

theorem preflightRegistry_returns_iff :
    Returns (preflightRegistry py env msg) ↔ MethodQuiet py env msg source .preflightRegistry := by
  unfold preflightRegistry MethodQuiet
  cases payloadOf msg <;> simp [catalogBody_returns_iff]

theorem preflightRegistryRemove_returns_iff :
    Returns (preflightRegistryRemove py env msg) ↔
      MethodQuiet py env msg source .preflightRegistryRemove := by
  unfold preflightRegistryRemove MethodQuiet
  cases payloadOf msg <;> simp [catalogBody_returns_iff]

theorem coreMethodBody_returns_iff (method : CoreMethod) :
    Returns (coreMethodBody py env msg source method) ↔ MethodQuiet py env msg source method := by
  cases method with
  | activateRole => exact activateRole_returns_iff
  | getSessionPreferences => exact iff_true_intro (returns_ok _)
  | setSessionPreferences => exact setSessionPreferences_returns_iff
  | navigationBack => exact navigationBack_returns_iff
  | backgroundComponent => exact iff_true_intro backgroundComponent_returns
  | discover => exact discover_returns_iff
  | resolveIntent => exact returns_bind_of_forall fun _ => returns_pure _
  | activate => exact activate_returns_iff
  | listRoles => exact fieldBody_returns_iff _ _
  | preflightRegistry => exact preflightRegistry_returns_iff
  | preflightRegistryRemove => exact preflightRegistryRemove_returns_iff
  | reloadRegistry => exact iff_true_intro reloadRegistry_returns
  | selectRole => exact selectRole_returns_iff
  | resetRole => exact resetRole_returns_iff
  | displayMigrationStatus => exact iff_true_intro displayMigrationStatus_returns
  | listComponents => exact fieldBody_returns_iff _ _
  | listProcesses => exact listProcesses_returns_iff
  | isolationCapabilities => exact returnedBody_returns_iff _
  | listApps => exact fieldBody_returns_iff _ _
  | start => exact start_returns_iff _
  | stop => exact stop_returns_iff
  | broadcast => exact broadcastEvent_returns_iff
  | foregroundStack => exact fieldBody_returns_iff _ _

theorem coreCall_returns_iff :
    Returns (coreCall py env msg source) ↔ CoreQuiet py env msg source := by
  rw [coreCall, returns_bind_of_forall fun _ => returns_pure _]
  unfold coreBody CoreQuiet
  cases Dict.get msg "method" .null with
  | str name =>
    cases hmethod : coreMethod name with
    | none => simp [hmethod]
    | some method => simp [hmethod, coreMethodBody_returns_iff]
  | _ => simp [Json.hashable, raise]

end Core

/-- No exception leaves `dispatch_call`. -/
def DispatchQuiet (py : Interpreter) (env : CallSurroundings) (msg : Dict) (source : PyStr) : Prop :=
  IntLike py (callerId msg) ∧ match targetOf (targetText py msg) with
    | .role => RoleQuiet py env.role msg source
    | .interface => InterfaceQuiet py env.interface msg source
    | .component => ComponentQuiet py env msg source
    | .core => CoreQuiet py env.core msg source
    | .other => True

theorem dispatchCall_returns_iff (py : Interpreter) (env : CallSurroundings) (msg : Dict)
    (source : PyStr) :
    Returns (dispatchCall py env msg source) ↔ DispatchQuiet py env msg source := by
  unfold dispatchCall DispatchQuiet
  rw [← toInt_returns_iff]
  refine returns_bind_const fun id => ?_
  simp only
  cases targetOf (targetText py msg) with
  | role => exact dispatchRoleCall_returns_iff py env.role msg source
  | interface => exact dispatchInterfaceCall_returns_iff py env.interface msg source
  | component => exact dispatchComponentTargetCall_returns_iff py env msg source
  | core => exact coreCall_returns_iff
  | other => exact iff_true_intro (returns_pure _)

end MsysCore.Core
