import MsysCore.Core.ComponentReader

/-!
# Forwarding a call and failing over

`_forward_call`, provider lookup and the retry loops of `_dispatch_role_call` and
`_dispatch_interface_call`. A run is sequential; what other tasks, the kernel and the
providers do at its awaits is a list of `Attempt`s, one per turn of the loop. The
packets written to providers are kept even when the run ends in an exception.
-/

namespace MsysCore.Core

open Python

def roleRetrySafeMethods : List String := ["list_windows", "recents", "list", "status", "capabilities"]

def roleNoStartNoops : List (String × String) :=
  [("input-method", "hide"), ("notification-center", "hide")]

def roleLivenessErrors : List String :=
  ["CALL_TIMEOUT", "CALL_SEND_FAILED", "NO_PROVIDER_SOCKET", "PROVIDER_EXITED", "PROVIDER_STOPPED"]

def callDeadlineExpiredMessage : String := "call deadline already expired"

def maxLogicalTargetLength : ℕ := 192

/-- An instance of a component; `instance` tells its generations apart. -/
structure Provider where
  key : PyStr
  instanceId : ℕ
  deriving DecidableEq

/-- A packet handed to `send_packet` for a provider. -/
structure Write where
  provider : Provider
  data : Bytes

/-- What a run wrote and how it ended. -/
structure Outcome where
  writes : List Write
  result : Except PyError Dict

/-! ## Provider lookup -/

/-- What becomes of one candidate while `ensure_ready` is awaited. -/
inductive Visit
  | failed
  | catalogChanged
  | stale (stop : Except PyError Unit)
  | acquireFailed
  | usable (instanceId : ℕ)

/-- One catalog snapshot: the ordered candidates, `none` for an unknown name. -/
structure Round where
  ordered : Option (List PyStr)
  visit : PyStr → Visit

inductive Search
  | found (provider : Provider)
  | changed
  | exhausted
  | raised (e : PyError)

/-- The candidate loop over one snapshot. -/
def searchRound (excluded : List PyStr) (visit : PyStr → Visit) : List PyStr → Search
  | [] => .exhausted
  | key :: rest =>
    if excluded.contains key then searchRound excluded visit rest
    else match visit key with
      | .failed => searchRound excluded visit rest
      | .catalogChanged => .changed
      | .acquireFailed => searchRound excluded visit rest
      | .stale (.ok _) => searchRound excluded visit rest
      | .stale (.error e) => .raised e
      | .usable instanceId => .found ⟨key, instanceId⟩

/-- `_provider_for_role` and `_provider_for_interface`: at most three snapshots. -/
def providerFor (excluded : List PyStr) : ℕ → List Round → Except PyError (Option Provider)
  | 0, _ => .ok none
  | _, [] => .ok none
  | attempts + 1, round :: rounds =>
    match round.ordered with
    | none => .ok none
    | some ordered =>
      match searchRound excluded round.visit ordered.eraseDups with
      | .found provider => .ok (some provider)
      | .exhausted => .ok none
      | .raised e => .error e
      | .changed => providerFor excluded attempts rounds

/-! ## One forwarded call -/

/-- What comes of a packet that is handed to the socket of a provider. -/
inductive Answer
  | sendFailed (reason : PyStr)
  | timeout
  | reply (response : Dict)

/-- One turn of the loop: the lookup, the clock and request id when the call is
forwarded, the behaviour of each provider (`none` without a socket or when it is no
longer the current instance), and the outcome of its retirement. -/
structure Attempt where
  rounds : List Round
  now : ℚ
  requestId : ℤ
  answer : Provider → Option Answer
  stop : Except PyError Unit

def callerId (msg : Dict) : Json := Dict.get msg "id" (.int 0)

/-- Integers of at least this size overflow `float()`. -/
def floatOverflow : ℕ := 2 ^ 1024 - 2 ^ 970

/-- `forwarded_timeout_seconds(msg) <= 0`. -/
def deadlineExpired (msg : Dict) (now : ℚ) : Except PyError Bool :=
  match Dict.get? msg "deadline_ms" with
  | some (.int i) =>
    if floatOverflow ≤ i.natAbs then raise .overflowError "int too large to convert to float"
    else .ok (decide ((i : ℚ) / 1000 - now ≤ 0))
  | some (.float f) => match f.value with
    | .nan => .ok true
    | .inf negative => .ok negative
    | .finite q => .ok (decide (q / 1000 - now ≤ 0))
  | _ => .ok false

def logicalChar (c : ℕ) : Bool := isAlnum c || (lit "._:-").contains c

/-- `LOGICAL_TARGET_PATTERN.fullmatch`, with the length bound of its caller. -/
def isLogicalTarget (target : PyStr) : Bool :=
  target.length ≤ maxLogicalTargetLength &&
    ["role:", "interface:", "component:"].any fun scheme =>
      (lit scheme).isPrefixOf target &&
        match target.drop scheme.length with
        | [] => false
        | first :: rest => isAlnum first && rest.all logicalChar &&
          rest.length ≤ maxLogicalTargetLength - 2

def forwardedPacket (provider : Provider) (msg : Dict) (source : PyStr) (requestId : ℤ) : Dict :=
  record ([("type", text "call"), ("id", .int requestId), ("target", .str provider.key),
    ("method", Dict.get msg "method" .null), ("payload", Dict.get msg "payload" (.dict [])),
    ("source", .str source)] ++
    (match Dict.get? msg "target" with
      | some (.str target) =>
        if isLogicalTarget target then [("logical_target", .str target)] else []
      | _ => []) ++
    (match Dict.get? msg "deadline_ms" with
      | some deadline => [("deadline_ms", deadline)]
      | none => []))

def errorReply (id : Json) (code : String) (message : PyStr) : Dict :=
  record [("type", text "error"), ("id", id), ("code", text code), ("message", .str message)]

def answerPacket (provider : Provider) (id : ℤ) : Answer → Dict
  | .sendFailed reason => errorReply (.int id) "CALL_SEND_FAILED" reason
  | .timeout => errorReply (.int id) "CALL_TIMEOUT" provider.key
  | .reply response => Dict.set response "id" (.int id)

def noSocketPacket (msg : Dict) : Dict :=
  record [("type", text "error"), ("id", callerId msg), ("code", text "NO_PROVIDER_SOCKET")]

/-- `_forward_call` on an open channel. A failed `sendall` counts as a write. -/
def writeCall (py : Interpreter) (provider : Provider) (msg : Dict) (source : PyStr)
    (now : ℚ) (requestId : ℤ) (answer : Answer) : Outcome :=
  match toInt py (callerId msg) with
  | .error e => ⟨[], .error e⟩
  | .ok id =>
    match deadlineExpired msg now with
    | .error e => ⟨[], .error e⟩
    | .ok true =>
      ⟨[], .ok (errorReply (.int id) "CALL_TIMEOUT" (lit callDeadlineExpiredMessage))⟩
    | .ok false =>
      match encode (forwardedPacket provider msg source requestId) with
      | .error e => ⟨[], .error e⟩
      | .ok data => ⟨[⟨provider, data⟩], .ok (answerPacket provider id answer)⟩

def forwardCall (py : Interpreter) (provider : Provider) (msg : Dict) (source : PyStr)
    (attempt : Attempt) : Outcome :=
  match attempt.answer provider with
  | none => ⟨[], .ok (noSocketPacket msg)⟩
  | some answer => writeCall py provider msg source attempt.now attempt.requestId answer

/-! ## The retry loop -/

def isText (expected : String) : Json → Bool
  | .str s => s == lit expected
  | _ => false

def isErrorPacket (response : Dict) : Bool := isText "error" (Dict.get response "type" .null)

def expiredBeforeProviderDelivery (response : Dict) : Bool :=
  isErrorPacket response && isText "CALL_TIMEOUT" (Dict.get response "code" .null)
    && isText callDeadlineExpiredMessage (Dict.get response "message" .null)

def errorCode (py : Interpreter) (response : Dict) : PyStr :=
  toStr py (Dict.get response "code" (text ""))

/-- The loop of `_dispatch_role_call` and `_dispatch_interface_call`. -/
structure RetryLoop where
  requestId : ℤ
  retrySafe : Bool
  /-- Message of `OUTCOME_UNKNOWN` for a provider key. -/
  mayBeDelivered : PyStr → PyStr
  noProvider : Dict

def RetryLoop.finish (loop : RetryLoop) : Option Dict → Dict
  | some lastError => Dict.set lastError "id" (.int loop.requestId)
  | none => loop.noProvider

def retry (py : Interpreter) (msg : Dict) (source : PyStr) (loop : RetryLoop) :
    List Attempt → List PyStr → Option Dict → Outcome
  | [], _, lastError => ⟨[], .ok (loop.finish lastError)⟩
  | attempt :: attempts, attempted, lastError =>
    match providerFor attempted 3 attempt.rounds with
    | .error e => ⟨[], .error e⟩
    | .ok none => ⟨[], .ok (loop.finish lastError)⟩
    | .ok (some provider) =>
      let forwarded := forwardCall py provider msg source attempt
      match forwarded.result with
      | .error e => ⟨forwarded.writes, .error e⟩
      | .ok response =>
        if !isErrorPacket response then ⟨forwarded.writes, .ok response⟩
        else if expiredBeforeProviderDelivery response
            || !(roleLivenessErrors.map lit).contains (errorCode py response) then
          ⟨forwarded.writes, .ok (Dict.set response "id" (.int loop.requestId))⟩
        else match attempt.stop with
          | .error e => ⟨forwarded.writes, .error e⟩
          | .ok _ =>
            if !loop.retrySafe && errorCode py response != lit "NO_PROVIDER_SOCKET" then
              ⟨forwarded.writes, .ok (errorReply (.int loop.requestId) "OUTCOME_UNKNOWN"
                (loop.mayBeDelivered provider.key))⟩
            else
              let rest := retry py msg source loop attempts (provider.key :: attempted)
                (some response)
              ⟨forwarded.writes ++ rest.writes, rest.result⟩

/-! ## Role and interface targets -/

structure RoleSurroundings where
  /-- `_role_provider_is_running` -/
  providerRunning : Bool
  /-- `_announce_foreground_closing`, awaited for `close_active` -/
  announceClosing : Except PyError Unit
  attempts : List Attempt

def targetName (py : Interpreter) (msg : Dict) : PyStr :=
  afterColon (toStr py (Dict.get msg "target" (text "")))

def methodName (py : Interpreter) (msg : Dict) : PyStr :=
  toStr py (Dict.get msg "method" (text ""))

def isNoStartNoop (role method : PyStr) : Bool :=
  roleNoStartNoops.any fun noop => lit noop.1 == role && lit noop.2 == method

/-- An explicit `idempotent` flag or a method that only reads. -/
def idempotentCall (py : Interpreter) (msg : Dict) : Bool :=
  (Dict.get msg "idempotent" .null).truthy ||
    (roleRetrySafeMethods.map lit).contains (methodName py msg)

def roleRetrySafe (py : Interpreter) (msg : Dict) : Bool :=
  idempotentCall py msg || isNoStartNoop (targetName py msg) (methodName py msg)

def roleLoop (py : Interpreter) (msg : Dict) (requestId : ℤ) : RetryLoop where
  requestId := requestId
  retrySafe := roleRetrySafe py msg
  mayBeDelivered := fun key => targetName py msg ++ lit "." ++ methodName py msg
    ++ lit " may have been delivered to " ++ key
  noProvider := errorReply (.int requestId) "NO_PROVIDER" (targetName py msg)

def dispatchRoleCall (py : Interpreter) (env : RoleSurroundings) (msg : Dict) (source : PyStr) :
    Outcome :=
  match toInt py (callerId msg) with
  | .error e => ⟨[], .error e⟩
  | .ok requestId =>
    let role := targetName py msg
    let method := methodName py msg
    if isNoStartNoop role method && !env.providerRunning then
      ⟨[], .ok (record [("type", text "return"), ("id", .int requestId),
        ("payload", .dict (record [("ok", .bool true), ("role", .str role),
          ("visible", .bool false), ("already_hidden", .bool true)]))])⟩
    else if role == lit "window-manager" && method == lit "close_active" then
      match env.announceClosing with
      | .error e => ⟨[], .error e⟩
      | .ok _ => retry py msg source (roleLoop py msg requestId) env.attempts [] none
    else retry py msg source (roleLoop py msg requestId) env.attempts [] none

def interfaceLoop (py : Interpreter) (msg : Dict) (requestId : ℤ) : RetryLoop where
  requestId := requestId
  retrySafe := idempotentCall py msg
  mayBeDelivered := fun key => targetName py msg ++ lit "." ++ methodName py msg
    ++ lit " may have been delivered to " ++ key
  noProvider := errorReply (.int requestId) "NO_INTERFACE_PROVIDER" (targetName py msg)

def dispatchInterfaceCall (py : Interpreter) (attempts : List Attempt) (msg : Dict)
    (source : PyStr) : Outcome :=
  match toInt py (callerId msg) with
  | .error e => ⟨[], .error e⟩
  | .ok requestId =>
    if (targetName py msg).isEmpty then
      ⟨[], .ok (errorReply (.int requestId) "BAD_TARGET" (lit "interface name is empty"))⟩
    else retry py msg source (interfaceLoop py msg requestId) attempts [] none

end MsysCore.Core
