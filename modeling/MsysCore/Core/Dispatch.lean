import MsysCore.Core.CoreCalls

/-!
# Dispatching calls and answering the caller

`dispatch_call` over all targets, the authorization of a component's call, and the two
places where an answer is written: `_dispatch_component_call` for a packet of a
component channel and `_handle_public_client` for a line of the public socket. A
written packet is kept together with the message it encodes.
-/

namespace MsysCore.Core

open Python

/-- Bytes on the wire with the message they encode. -/
structure Packet where
  message : Dict
  data : Bytes
  encodes : encode message = .ok data

def encodePacket (message : Dict) : Except PyError Packet :=
  match h : encode message with
  | .ok data => .ok ⟨message, data, h⟩
  | .error e => .error e

structure CallSurroundings where
  core : CoreSurroundings
  role : RoleSurroundings
  interface : List Attempt
  /-- `ensure_ready` of a `component:` target: the text of its exception, or the provider
  and what becomes of the forwarded call. -/
  component : PyStr → Except PyStr (Provider × Attempt)
  /-- Interfaces that the catalog entry of a component provides. -/
  interfacesOf : PyStr → List PyStr

section Dispatch

variable (py : Interpreter) (env : CallSurroundings) (msg : Dict) (source : PyStr)

def targetText : PyStr := toStr py (Dict.get msg "target" (text ""))

def dispatchComponentTargetCall : Except PyError Dict := do
  let requestId ← toInt py (callerId msg)
  let component := targetName py msg
  if component.isEmpty || !env.core.knownComponent component then
    pure (errorReply (.int requestId) "UNKNOWN_COMPONENT" component)
  else match env.component component with
    | .error reason => pure (errorReply (.int requestId) "COMPONENT_UNAVAILABLE" reason)
    | .ok (provider, attempt) => (forwardCall py provider msg source attempt).result

inductive Target
  | role | interface | component | core | other
  deriving DecidableEq

def targetOf (target : PyStr) : Target :=
  if (lit "role:").isPrefixOf target then .role
  else if (lit "interface:").isPrefixOf target then .interface
  else if (lit "component:").isPrefixOf target then .component
  else if target == lit "msys.core" then .core
  else .other

def dispatchCall : Except PyError Dict := do
  let requestId ← toInt py (callerId msg)
  let target := targetText py msg
  match targetOf target with
  | .role => (dispatchRoleCall py env.role msg source).result
  | .interface => (dispatchInterfaceCall py env.interface msg source).result
  | .component => dispatchComponentTargetCall py env msg source
  | .core => coreCall py env.core msg source
  | .other => pure (errorReply (.int requestId) "BAD_TARGET" target)

end Dispatch

/-- `_authorize_component_call`: the error for a call that is not permitted. -/
def authorizeComponentCall (py : Interpreter) (env : CallSurroundings) (caller : Channel)
    (msg : Dict) : Option Dict :=
  let target := targetText py msg
  let method := methodName py msg
  if allowsCall caller.permissions target method then none
  else if (lit "component:").isPrefixOf target
      && (env.interfacesOf (afterColon target)).any fun name =>
        allowsCall caller.permissions (lit "interface:" ++ name) method then none
  else
    let detail := if method.isEmpty then target else target ++ lit "." ++ method
    let required := ((callPermissionCandidates target method).head?).getD (lit "mipc.call:" ++ target)
    some (accessDenied caller msg "call" detail required)

/-! ## Component channel -/

/-- `_send_component_response` on the open channel of the caller. -/
def sendReply (env : Surroundings) (caller : Channel) (response : Dict) :
    Except PyError (List Packet) := do
  let packet ← encodePacket response
  pure (if env.unreachable caller.key then [] else [packet])

/-- `_dispatch_component_call`. The caller is still the current instance of its key and
its socket is open when the response is there. -/
def dispatchComponentCall (py : Interpreter) (env : CallSurroundings) (caller : Channel)
    (msg : Dict) : Except PyError (List Packet) := do
  let response ← match authorizeComponentCall py env caller msg with
    | some denial => pure denial
    | none => dispatchCall py env msg caller.key
  sendReply env.core.broadcast caller response

/-! ## Public socket -/

/-- Limit of an asyncio stream reader. -/
def streamLimit : ℕ := 65536

/-- `StreamReader.readline` on a line given without its line feed. -/
def readline (line : Bytes) : Except PyError Bytes :=
  if streamLimit < line.length then
    raise .valueError "Separator is not found, and chunk exceed the limit"
  else .ok (line ++ [10])

def isBlankByte (b : UInt8) : Bool := b == 32 || (9 ≤ b && b ≤ 13)

/-- `data.strip()` -/
def stripBytes (data : Bytes) : Bytes :=
  ((data.dropWhile isBlankByte).reverse.dropWhile isBlankByte).reverse

/-- Who is at the other end of a public connection. -/
inductive PublicPeer
  | unknown (reason : PyStr)
  | managed (channel : Channel)
  | root
  | stranger

/-- `_public_access_denied` -/
def publicAccessDenied (msg : Dict) (reason : PyStr) : Dict :=
  record [("type", text "error"), ("id", .int ((optionalRequestId msg).getD 0)),
    ("code", text "ACCESS_DENIED"),
    ("message", text "public control access requires an unmanaged root operator"),
    ("payload", object [("operation", text "call"), ("reason", .str reason)])]

/-- The response to a public call, before the handler for exceptions. -/
def publicDispatch (py : Interpreter) (env : CallSurroundings) (peer : PublicPeer) (msg : Dict) :
    Except PyError Dict :=
  match peer with
  | .unknown reason =>
    .ok (publicAccessDenied msg (lit "peer-credentials-unavailable:" ++ reason))
  | .managed channel =>
    match authorizeComponentCall py env channel msg with
    | some denial => .ok denial
    | none => dispatchCall py env msg channel.key
  | .root => dispatchCall py env msg (lit "public")
  | .stranger => .ok (publicAccessDenied msg (lit "unmanaged-peer-is-not-root"))

def publicResponse (py : Interpreter) (env : CallSurroundings) (peer : PublicPeer) (msg : Dict) :
    Dict :=
  if packetType msg = .call then
    match publicDispatch py env peer msg with
    | .ok response => response
    | .error e => errorReply (callerId msg) "CALL_FAILED" e.text
  else record [("type", text "error"), ("id", callerId msg), ("code", text "BAD_PUBLIC_MESSAGE")]

/-- The packets that `_handle_public_client` writes after its greeting. -/
def handlePublicClient (py : Interpreter) (env : CallSurroundings) (peer : PublicPeer)
    (line : Bytes) : Except PyError (List Packet) := do
  let data ← readline line
  let msg ← decode py (stripBytes data)
  let packet ← encodePacket (publicResponse py env peer msg)
  pure [packet]

end MsysCore.Core
