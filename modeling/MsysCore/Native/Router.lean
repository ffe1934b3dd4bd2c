import MsysCore.Lib.Runs
import MsysCore.Native.MipcPackets

/-!
# The native router and its re-entrancy

`native_router.cpp` on top of the session table of `mipc_broker.cpp`. A send may
close its session before it returns, and the close calls back into the router. A
state therefore carries the stack of C++ frames that are still to be resumed,
innermost first; each frame keeps the local variables its continuation reads. One
step runs up to the next send, callback or loop turn. What the kernel, the peers
and the supervisor do is the label of the step.

The lists `accepted` and `replies` are ghost: they record the calls that entered
`pending_` and the replies the router produced, with their reason.
-/

namespace MsysCore.Native.Router

def maxPendingCalls : ℕ := 256
def maxCallTimeoutMs : ℕ := 300000

inductive Peer
  | publicControl
  | component (index generation : ℕ)
  deriving DecidableEq

/-- A broker session; `ready` is the handshake state `component_ready`. -/
structure Session where
  id : ℕ
  peer : Peer
  ready : Bool := false
  deriving DecidableEq

structure PendingCall where
  forwardedId : ℕ
  callerSession : ℕ
  callerRequestId : ℕ
  provider : ℕ
  providerGeneration : ℕ := 0
  deadlineMs : ℕ
  source : Bytes
  call : DecodedMessage
  delivered : Bool := false
  deriving DecidableEq

/-- Why the router replied to a call. An identifier names the call whose deadline,
delivery, activation or answer was the reason. -/
inductive Cause
  | deadline (forwardedId : ℕ)
  | unavailable (component generation : ℕ)
  | delivery (forwardedId : ℕ)
  | activation (forwardedId : ℕ)
  | answered (forwardedId : ℕ)
  deriving DecidableEq

structure Reply where
  call : PendingCall
  session : ℕ
  requestId : ℕ
  cause : Cause
  deriving DecidableEq

/-- Whether a send is made from inside a loop over `pending_`. -/
inductive Site
  | single | inLoop
  deriving DecidableEq

inductive Frame
  | send (session : ℕ) (packet : Bytes) (site : Site)
  | readyLoop (component generation index : ℕ)
  | unavailableLoop (component generation index : ℕ)
  /-- `deliver` after its send; `loop` is the component of a calling `component_ready`. -/
  | afterDelivery (session index generation forwardedId provider : ℕ) (loop : Option ℕ)
  | closeLoop (component generation : ℕ)
  /-- The `component_disconnected` hook, due after `session_closed`. -/
  | disconnected (component generation : ℕ)
  | broadcast (packet : Bytes) (deliveries : List ℕ)
  /-- `queue_provider_call` inside `activate_component`. -/
  | activating (provider index forwardedId : ℕ)
  deriving DecidableEq

/-- The tables of the router and the broker, with the ghost lists. -/
structure Book where
  pending : List PendingCall := []
  sessions : List Session := []
  nextForwardedId : ℕ := 1
  nextSessionId : ℕ := 1
  clock : ℕ := 0
  accepted : List PendingCall := []
  replies : List Reply := []
  deriving DecidableEq

structure State extends Book where
  stack : List Frame := []
  deriving DecidableEq

structure Catalog where
  componentId : ℕ → Bytes
  role : Bytes → Option (List ℕ)
  interfaceProviders : Bytes → Option (List ℕ)
  componentIndex : Bytes → Option ℕ

/-- What the supervisor callbacks answer while a call is routed. -/
structure Supervisor where
  failed : ℕ → Bool := fun _ => false
  ready : ℕ → Bool := fun _ => false
  generation : ℕ → ℕ := fun _ => 0

def State.push (s : State) (f : Frame) : State := { s with stack := f :: s.stack }

def Book.findSession (s : Book) (id : ℕ) : Option Session :=
  s.sessions.find? fun session => session.id == id

/-- Lookup of `send_to_component`. -/
def Book.componentSession (s : Book) (component generation : ℕ) : Option Session :=
  s.sessions.find? fun session =>
    session.peer == .component component generation && session.ready

/-! ## Failing and delivering -/

def failPending (s : State) (index : ℕ) (code message : Bytes) (cause : Cause) (site : Site) :
    State :=
  match s.pending[index]? with
  | none => s
  | some p =>
    { s with
      pending := s.pending.eraseIdx index
      replies := s.replies ++ [⟨p, p.callerSession, p.callerRequestId, cause⟩]
      stack := .send p.callerSession (errorPacket p.callerRequestId code message) site :: s.stack }

/-- The packet forwarded to a provider. -/
def callPacket (catalog : Catalog) (p : PendingCall) : Bytes :=
  List.flatten [
    ascii "\x7b\"type\":\"call\",\"id\":", decimal p.forwardedId,
    ascii ",\"target\":", jsonQuote (catalog.componentId p.provider),
    ascii ",\"method\":", jsonQuote p.call.method,
    ascii ",\"payload\":", p.call.payloadJson,
    ascii ",\"source\":", jsonQuote p.source,
    ascii ",\"deadline_ms\":", decimal p.deadlineMs,
    ascii ",\"idempotent\":", boolean (p.call.idempotent.getD false), ascii "\x7d"]

/-- Where a calling `component_ready` goes on: `deliver` answered `result`. -/
def resumeReady (s : State) (index generation : ℕ) (result : Bool) : Option ℕ → State
  | none => s
  | some component =>
    s.push (.readyLoop component generation (if result then index + 1 else index))

def siteOf (loop : Option ℕ) : Site := if loop.isSome then .inLoop else .single

def deliver (catalog : Catalog) (s : State) (index generation : ℕ) (loop : Option ℕ) : State :=
  match s.pending[index]? with
  | none => resumeReady s index generation false loop
  | some p =>
    if p.deadlineMs ≤ s.clock then
      failPending (resumeReady s index generation false loop) index (ascii "CALL_TIMEOUT")
        (ascii "call deadline expired before provider delivery") (.deadline p.forwardedId)
        (siteOf loop)
    else match s.componentSession p.provider generation with
      | none =>
        failPending (resumeReady s index generation false loop) index
          (ascii "NO_PROVIDER_SOCKET") (catalog.componentId p.provider)
          (.delivery p.forwardedId) (siteOf loop)
      | some session =>
        (s.push (.afterDelivery session.id index generation p.forwardedId p.provider loop)).push
          (.send session.id (callPacket catalog p) (siteOf loop))

/-- `deliver` once `send_to_component` has returned. -/
def finishDelivery (catalog : Catalog) (s : State)
    (session index generation forwardedId provider : ℕ) (loop : Option ℕ) : State :=
  if (s.findSession session).isSome then
    resumeReady
      { s with pending := s.pending.modify index fun p =>
          { p with delivered := true, providerGeneration := generation } }
      index generation true loop
  else
    failPending (resumeReady s index generation false loop) index (ascii "NO_PROVIDER_SOCKET")
      (catalog.componentId provider) (.delivery forwardedId) (siteOf loop)

/-! ## Closing a session -/

/-- `close_session` up to the callbacks, which stay on the stack. -/
def closeSession (s : State) (id : ℕ) (notify : Bool) : State :=
  match s.findSession id with
  | none => s
  | some session =>
    let s := { s with
      sessions := s.sessions.filter fun other => other.id != id
      pending := s.pending.filter fun p => p.callerSession != id }
    match session.peer with
    | .publicControl => s
    | .component index generation =>
      let s := if notify then s.push (.disconnected index generation) else s
      s.push (.unavailableLoop index generation 0)

/-- `send_to_session`: the session is kept or closed by `queue_packet`. -/
def sendToSession (s : State) (id : ℕ) (closes : Bool) : State :=
  if closes then closeSession s id true else s

/-! ## Routing -/

/-- `role:`, `interface:` and `component:` targets. `none` is a bad target, `some none`
a target without provider. -/
def resolve (catalog : Catalog) (supervisor : Supervisor) (target : Bytes) :
    Option (Option ℕ) :=
  if (ascii "role:").isPrefixOf target then
    some ((catalog.role (target.drop 5)).bind fun candidates =>
      candidates.find? fun c => !supervisor.failed c)
  else if (ascii "interface:").isPrefixOf target then
    some ((catalog.interfaceProviders (target.drop 10)).bind fun candidates =>
      candidates.find? fun c => !supervisor.failed c)
  else if (ascii "component:").isPrefixOf target then
    some (catalog.componentIndex (target.drop 10))
  else none

def replyError (s : State) (session id : ℕ) (code message : Bytes) : State :=
  s.push (.send session (errorPacket id code message) .single)

def queueProviderCall (catalog : Catalog) (supervisor : Supervisor) (s : State)
    (session requestId : ℕ) (message : DecodedMessage) (source : Bytes) (provider : ℕ) : State :=
  let deadline := message.deadlineMs.getD (s.clock + 5000)
  if deadline ≤ s.clock then
    replyError s session requestId (ascii "CALL_TIMEOUT") (ascii "call deadline already expired")
  else if maxCallTimeoutMs < deadline - s.clock then
    replyError s session requestId (ascii "BAD_DEADLINE")
      (ascii "call deadline exceeds the native router bound")
  else if maxPendingCalls ≤ s.pending.length ∨ s.nextForwardedId = 2 ^ 64 - 1 then
    replyError s session requestId (ascii "ROUTER_BUSY")
      (ascii "native router pending-call limit reached")
  else
    let p : PendingCall :=
      { forwardedId := s.nextForwardedId, callerSession := session, callerRequestId := requestId,
        provider := provider, deadlineMs := deadline, source := source, call := message }
    let index := s.pending.length
    let s := { s with
      nextForwardedId := s.nextForwardedId + 1
      pending := s.pending ++ [p]
      accepted := s.accepted ++ [p] }
    if supervisor.ready provider then
      deliver catalog s index (supervisor.generation provider) none
    else s.push (.activating provider index p.forwardedId)

def routeCall (catalog : Catalog) (supervisor : Supervisor) (s : State) (session : ℕ)
    (message : DecodedMessage) (source : Bytes) : State :=
  match message.requestId with
  | none => s
  | some requestId =>
    match resolve catalog supervisor message.target with
    | none => replyError s session requestId (ascii "BAD_TARGET") message.target
    | some none => replyError s session requestId (ascii "NO_PROVIDER") message.target
    | some (some provider) =>
      queueProviderCall catalog supervisor s session requestId message source provider

/-- `provider_reply` for a message of the component session `peer`. -/
def providerReply (s : State) (peer : Peer) (message : DecodedMessage) : State :=
  match message.requestId with
  | none => s
  | some responseId =>
    let index := s.pending.findIdx fun p => p.forwardedId == responseId
    match s.pending[index]? with
    | none => s
    | some p =>
      if peer = .component p.provider p.providerGeneration then
        { s with
          pending := s.pending.eraseIdx index
          replies := s.replies ++ [⟨p, p.callerSession, p.callerRequestId, .answered responseId⟩]
          stack := .send p.callerSession (providerReplyPacket p.callerRequestId message) .single
            :: s.stack }
      else s

def timeout (catalog : Catalog) (s : State) (forwardedId : ℕ) : State :=
  let index := s.pending.findIdx fun p => p.forwardedId == forwardedId
  let provider := (s.pending[index]?.map PendingCall.provider).getD 0
  failPending s index (ascii "CALL_TIMEOUT") (catalog.componentId provider)
    (.deadline forwardedId) .single

/-! ## Steps -/

/-- What the supervisor asks of the router and the broker. -/
inductive SupervisorOp
  | componentReady (component generation : ℕ)
  | componentUnavailable (component generation : ℕ)
  | closeComponentSession (component generation : ℕ)

inductive Event
  | tick (ms : ℕ)
  | accept (peer : Peer)
  | handshake (session : ℕ)
  | closed (session : ℕ)
  | call (session : ℕ) (message : DecodedMessage) (source : Bytes) (supervisor : Supervisor)
  | reply (session : ℕ) (message : DecodedMessage)
  | timer (forwardedId : ℕ)
  | publish (packet : Bytes) (deliveries : List ℕ)
  /-- A packet that answers no pending call: core calls and errors of the broker. -/
  | answer (session : ℕ) (packet : Bytes)
  | supervise (op : SupervisorOp)
  | activated (result : Bool)
  | sent (closes : Bool)
  | hook (fails : Bool)
  | go

def supervise (s : State) : SupervisorOp → State
  | .componentReady component generation => s.push (.readyLoop component generation 0)
  | .componentUnavailable component generation => s.push (.unavailableLoop component generation 0)
  | .closeComponentSession component generation => s.push (.closeLoop component generation)

/-- A reactor callback of the broker, from an empty stack. -/
def dispatch (catalog : Catalog) (s : State) : Event → Option State
  | .tick ms => some { s with clock := s.clock + ms }
  | .accept peer =>
    some { s with
      sessions := s.sessions ++ [{ id := s.nextSessionId, peer := peer }]
      nextSessionId := s.nextSessionId + 1 }
  | .handshake id =>
    some { s with sessions := s.sessions.map fun session =>
      if session.id = id then { session with ready := true } else session }
  | .closed id => some (closeSession s id true)
  | .call id message source supervisor =>
    match s.findSession id with
    | none => none
    | some _ => some (routeCall catalog supervisor s id message source)
  | .reply id message =>
    match s.findSession id with
    | none => none
    | some session => some (providerReply s session.peer message)
  | .timer forwardedId =>
    if ∀ p ∈ s.pending, p.forwardedId = forwardedId → p.deadlineMs ≤ s.clock then
      some (timeout catalog s forwardedId)
    else none
  | .publish packet deliveries => some (s.push (.broadcast packet deliveries))
  | .answer id packet => some (s.push (.send id packet .single))
  | .supervise op => some (supervise s op)
  | _ => none

/-- One turn of `component_ready`. -/
def readyTurn (catalog : Catalog) (s : State) (component generation index : ℕ) : State :=
  match s.pending[index]? with
  | none => s
  | some p =>
    if p.provider = component ∧ ¬ p.delivered then
      deliver catalog s index generation (some component)
    else s.push (.readyLoop component generation (index + 1))

/-- The calls `component_unavailable` fails. -/
def Affected (component generation : ℕ) (p : PendingCall) : Prop :=
  p.provider = component ∧ (p.delivered = false ∨ p.providerGeneration = generation)

instance (component generation : ℕ) (p : PendingCall) :
    Decidable (Affected component generation p) := inferInstanceAs (Decidable (_ ∧ _))

/-- One turn of `component_unavailable`. -/
def unavailableTurn (catalog : Catalog) (s : State) (component generation index : ℕ) : State :=
  match s.pending[index]? with
  | none => s
  | some p =>
    if Affected component generation p then
      failPending (s.push (.unavailableLoop component generation index)) index
        (ascii "PROVIDER_UNAVAILABLE") (catalog.componentId component)
        (.unavailable component generation) .inLoop
    else s.push (.unavailableLoop component generation (index + 1))

/-- One turn of `close_component_session`. -/
def closeTurn (s : State) (component generation : ℕ) : State :=
  match s.sessions.find? fun session => session.peer == .component component generation with
  | none => s
  | some session => closeSession (s.push (.closeLoop component generation)) session.id false

def step (catalog : Catalog) (s : State) (e : Event) : Option State :=
  match s.stack, e with
  | [], e => dispatch catalog s e
  | .send id _ _ :: rest, .sent closes =>
    some (sendToSession { s with stack := rest } id closes)
  | .readyLoop component generation index :: rest, .go =>
    some (readyTurn catalog { s with stack := rest } component generation index)
  | .unavailableLoop component generation index :: rest, .go =>
    some (unavailableTurn catalog { s with stack := rest } component generation index)
  | .afterDelivery session index generation forwardedId provider loop :: rest, .go =>
    some (finishDelivery catalog { s with stack := rest } session index generation forwardedId
      provider loop)
  | .closeLoop component generation :: rest, .go =>
    some (closeTurn { s with stack := rest } component generation)
  | .disconnected component generation :: rest, .hook fails =>
    let s := { s with stack := rest }
    some (if fails then s.push (.unavailableLoop component generation 0) else s)
  | .broadcast _ [] :: rest, .go => some { s with stack := rest }
  | .broadcast packet (id :: deliveries) :: rest, .go =>
    some { s with stack := .send id packet .single :: .broadcast packet deliveries :: rest }
  | .activating _ _ _ :: _, .supervise op => some (supervise s op)
  | .activating provider index forwardedId :: rest, .activated result =>
    let s := { s with stack := rest }
    some (if result then s
      else failPending s index (ascii "COMPONENT_UNAVAILABLE") (catalog.componentId provider)
        (.activation forwardedId) .single)
  | _, _ => none

end MsysCore.Native.Router
