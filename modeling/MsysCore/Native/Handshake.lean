import MsysCore.Native.OutputQueue

/-!
# Sessions and packets of the broker

`handle_packet`, `route_message` and `handle_call` of `mipc_broker.cpp` with the calls that
open and close sessions. A hook may call the broker again before it returns, so a state
carries the stack of hooks in progress, innermost first, and each frame keeps what the code
after the hook reads. A hook that is not set is one that is never called; for the hooks that
only observe a close, one that returns at once. `log` and `serial` are ghost: what happened so
far, with a number for each packet.
-/

namespace MsysCore.Native.Handshake

open OutputQueue

structure PeerIdentity where
  kind : SessionKind
  pid : ℤ
  uid : ℕ
  gid : ℕ
  source : Bytes
  generation : ℕ := 0
  deriving DecidableEq

inductive HandshakeState
  | publicReady | awaitingHello | welcomed | componentReady
  deriving DecidableEq

structure Session where
  id : ℕ
  peer : PeerIdentity
  handshake : HandshakeState
  expectedComponent : Bytes
  expectedGeneration : ℕ
  output : OutputSession
  deriving DecidableEq

structure AccessRequest where
  peer : PeerIdentity
  requestId : ℕ
  target : Bytes
  method : Bytes
  deriving DecidableEq

structure OperationReply where
  ok : Bool := false
  component : Bytes := []
  state : Bytes := []
  code : Bytes := []
  message : Bytes := []

inductive Fact
  | created (id : ℕ) (peer : PeerIdentity)
  | closed (id : ℕ)
  /-- `handle_packet` found the session. -/
  | received (serial id : ℕ) (message : DecodedMessage)
  /-- The packet was out of order. -/
  | refused (serial id : ℕ)
  /-- The hello of a component was accepted. -/
  | greeted (id : ℕ) (message : DecodedMessage)
  /-- The welcome of a component was sent or queued. -/
  | welcomed (id : ℕ)
  /-- The component was accepted as ready. -/
  | ready (id : ℕ)
  /-- The `component_ready` hook was called. -/
  | componentReady (id : ℕ) (component : Bytes) (generation : ℕ)
  | authorized (serial : ℕ) (request : AccessRequest) (answer : Bool)
  | listed (serial id : ℕ) (message : DecodedMessage)
  | lifecycle (serial id : ℕ) (message : DecodedMessage)
  | routed (serial id : ℕ) (peer : PeerIdentity) (message : DecodedMessage)
  deriving DecidableEq

/-- A hook in progress. -/
inductive Frame
  | authorizing (serial id : ℕ) (message : DecodedMessage) (request : AccessRequest)
  | listing (id requestId : ℕ)
  /-- `start_component` or `stop_component` -/
  | operating (id requestId : ℕ) (component : Bytes)
  /-- `routed_message`; from `handle_call` with the session and the id of the call. -/
  | routing (call : Option (ℕ × ℕ))
  | notifyingReady
  /-- `session_closed`, with the component to report as disconnected and the component session
  that `close_component_session` is closing. -/
  | sessionClosed (disconnect closing : Option (Bytes × ℕ))
  | componentDisconnected
  deriving DecidableEq

/-- Which of the hooks are set. -/
structure Hooks where
  authorize : Bool := true
  listComponents : Bool := true
  startComponent : Bool := true
  stopComponent : Bool := true
  componentReady : Bool := true
  routedMessage : Bool := true

structure Broker where
  options : BrokerOptions := {}
  maxSessions : ℕ := 128
  runtimeDir : Bytes
  hooks : Hooks := {}

structure State where
  sessions : List Session := []
  nextSessionId : ℕ := 1
  stack : List Frame := []
  serial : ℕ := 0
  log : List Fact := []

/-- What the kernel answers to one `queue_packet`: its sends, and whether the watch that waits
for a full socket can be installed. -/
structure Send where
  answers : List SendAnswer := []
  watchFails : Bool := false

def State.findSession (s : State) (id : ℕ) : Option Session :=
  s.sessions.find? fun session => session.id = id

def State.record (s : State) (fact : Fact) : State := { s with log := s.log ++ [fact] }

def State.push (s : State) (frame : Frame) : State := { s with stack := frame :: s.stack }

/-- Replaces a session of the table. -/
def State.update (s : State) (session : Session) : State :=
  { s with sessions := s.sessions.map fun other => if other.id = session.id then session else other }

/-! ## Opening and closing -/

def addSession (broker : Broker) (s : State) (peer : PeerIdentity) (handshake : HandshakeState)
    (watchFails : Bool) : Option ℕ × State :=
  if broker.maxSessions ≤ s.sessions.length ∨ 2 ^ 64 - 1 ≤ s.nextSessionId then (none, s)
  else if watchFails then (none, { s with nextSessionId := s.nextSessionId + 1 })
  else
    let session : Session :=
      { id := s.nextSessionId
        peer := peer
        handshake := handshake
        expectedComponent := if handshake = .awaitingHello then peer.source else []
        expectedGeneration := if handshake = .awaitingHello then peer.generation else 0
        output := { kind := peer.kind } }
    (some s.nextSessionId,
      { s with
        sessions := s.sessions ++ [session]
        nextSessionId := s.nextSessionId + 1
        log := s.log ++ [.created s.nextSessionId peer] })

/-- `close_session` up to its hooks. -/
def closeSession (s : State) (id : ℕ) (notifyComponent : Bool)
    (closing : Option (Bytes × ℕ)) : State :=
  match s.findSession id with
  | none => s
  | some session =>
    let disconnect :=
      if notifyComponent ∧ session.peer.kind = .component then
        some (session.expectedComponent, session.expectedGeneration)
      else none
    { s with
      sessions := s.sessions.filter fun other => other.id ≠ id
      log := s.log ++ [.closed id]
      stack := .sessionClosed disconnect closing :: s.stack }

/-- One turn of the loop of `close_component_session`. -/
def closeComponentSession (s : State) (component : Bytes) (generation : ℕ) : State :=
  match s.sessions.find? fun session => session.peer.kind = .component
      ∧ session.expectedComponent = component ∧ session.expectedGeneration = generation with
  | none => s
  | some session => closeSession s session.id false (some (component, generation))

/-! ## Output -/

inductive Queued
  | kept | closed
  /-- Kept, and an exception left the call. -/
  | raised
  deriving DecidableEq

/-- `queue_packet`; `none` when there is no session. -/
def queuePacket (broker : Broker) (s : State) (id : ℕ) (packet : Bytes) (send : Send) :
    Option Queued × State :=
  match s.findSession id with
  | none => (none, s)
  | some session =>
    match OutputQueue.queuePacket broker.options session.output packet send.answers with
    | none => (some .closed, closeSession s id (session.peer.kind = .component) none)
    | some output =>
      let grown := session.output.outgoing.length < output.outgoing.length
      (some (if grown ∧ send.watchFails then .raised else .kept),
        s.update { session with output := output })

def reply (broker : Broker) (s : State) (id : ℕ) (packet : Bytes) (send : Send) : State :=
  (queuePacket broker s id packet send).2

/-- A reply inside the `try` of `handle_call`; `what` is the text of the exception. -/
def tryReply (broker : Broker) (s : State) (id requestId : ℕ) (packet : Bytes)
    (send failedSend : Send) (what : Bytes) : State :=
  match queuePacket broker s id packet send with
  | (some .raised, s) =>
    reply broker s id (errorResponse requestId (ascii "CALL_FAILED") what) failedSend
  | (_, s) => s

/-! ## Packets -/

/-- Closes the session of a packet that is out of order. -/
def refuse (s : State) (serial id : ℕ) (notifyComponent : Bool) : State :=
  (closeSession s id notifyComponent none).record (.refused serial id)

/-- `route_message`; `call` as in `Frame.routing`. -/
def routeMessage (broker : Broker) (s : State) (serial id : ℕ) (message : DecodedMessage)
    (call : Option (ℕ × ℕ)) (send failedSend : Send) (what : Bytes) : State :=
  match s.findSession id with
  | none => s
  | some session =>
    if broker.hooks.routedMessage then
      (s.record (.routed serial id session.peer message)).push (.routing call)
    else
      match message.requestId with
      | none => s
      | some requestId =>
        let packet := errorResponse requestId (ascii "NOT_IMPLEMENTED")
          (ascii "native router is unavailable")
        match call with
        | some _ => tryReply broker s id requestId packet send failedSend what
        | none => reply broker s id packet send

def handleCall (broker : Broker) (s : State) (serial id : ℕ) (message : DecodedMessage)
    (send : Send) : State :=
  match s.findSession id, message.requestId with
  | some session, some requestId =>
    if broker.hooks.authorize then
      s.push (.authorizing serial id message
        ⟨session.peer, requestId, message.target, message.method⟩)
    else
      reply broker s id (errorResponse requestId (ascii "ACCESS_DENIED")
        (ascii "mIPC call is not authorized")) send
  | _, _ => s

/-- `handle_call` once `authorize` has answered. -/
def finishAuthorize (broker : Broker) (s : State) (serial id : ℕ) (message : DecodedMessage)
    (request : AccessRequest) (answer : Bool) (send failedSend : Send) (what : Bytes) : State :=
  let s := s.record (.authorized serial request answer)
  let requestId := request.requestId
  if answer = false then
    reply broker s id (errorResponse requestId (ascii "ACCESS_DENIED")
      (ascii "mIPC call is not authorized")) send
  else if message.target = ascii "msys.core" ∧ message.method = ascii "list_components" then
    if broker.hooks.listComponents then
      (s.record (.listed serial id message)).push (.listing id requestId)
    else tryReply broker s id requestId (listComponentsReply requestId []) send failedSend what
  else if message.target = ascii "msys.core"
      ∧ (message.method = ascii "start" ∨ message.method = ascii "stop") then
    match message.payloadComponent with
    | none =>
      tryReply broker s id requestId (errorResponse requestId (ascii "BAD_PAYLOAD")
        (ascii "payload.component is required")) send failedSend what
    | some component =>
      if (message.method = ascii "start" ∧ broker.hooks.startComponent = true)
          ∨ (message.method = ascii "stop" ∧ broker.hooks.stopComponent = true) then
        (s.record (.lifecycle serial id message)).push (.operating id requestId component)
      else
        tryReply broker s id requestId (errorResponse requestId (ascii "NOT_IMPLEMENTED")
          (ascii "lifecycle hook is unavailable")) send failedSend what
  else routeMessage broker s serial id message (some (id, requestId)) send failedSend what

/-- `handle_call` once a lifecycle hook has answered. -/
def finishOperation (broker : Broker) (s : State) (id requestId : ℕ) (component : Bytes)
    (answer : OperationReply) (send failedSend : Send) (what : Bytes) : State :=
  if answer.ok then
    tryReply broker s id requestId
      (lifecycleReply requestId (if answer.component = [] then component else answer.component)
        answer.state) send failedSend what
  else
    tryReply broker s id requestId
      (errorResponse requestId (if answer.code = [] then ascii "CALL_FAILED" else answer.code)
        (if answer.message = [] then ascii "lifecycle operation failed" else answer.message))
      send failedSend what

def acceptHello (broker : Broker) (s : State) (session : Session) (message : DecodedMessage)
    (send : Send) : State :=
  let s := (s.update { session with handshake := .welcomed }).record (.greeted session.id message)
  let packet := componentWelcome session.expectedComponent session.expectedGeneration
    broker.runtimeDir
  match queuePacket broker s session.id packet send with
  | (some .closed, s) => s
  | (_, s) => s.record (.welcomed session.id)

def acceptReady (broker : Broker) (s : State) (session : Session) : State :=
  let s := (s.update { session with handshake := .componentReady }).record (.ready session.id)
  if broker.hooks.componentReady then
    (s.record (.componentReady session.id session.expectedComponent
      session.expectedGeneration)).push .notifyingReady
  else s

def handlePacket (broker : Broker) (s : State) (id : ℕ) (message : DecodedMessage)
    (send : Send) : State :=
  match s.findSession id with
  | none => s
  | some session =>
    let serial := s.serial
    let s := { s with serial := serial + 1, log := s.log ++ [.received serial id message] }
    match session.peer.kind with
    | .publicControl =>
      if message.type = .hello ∧ message.component = [] ∧ message.generation = none then
        reply broker s id publicWelcome send
      else if message.type ≠ .call then refuse s serial id false
      else handleCall broker s serial id message send
    | .component =>
      match session.handshake with
      | .awaitingHello =>
        if message.type ≠ .hello ∨ message.component ≠ session.expectedComponent
            ∨ message.generation ≠ some session.expectedGeneration then
          refuse s serial id true
        else acceptHello broker s session message send
      | .welcomed =>
        if message.type = .subscribe then
          routeMessage broker s serial id message none send send []
        else if message.type ≠ .ready then refuse s serial id true
        else acceptReady broker s session
      | _ =>
        if message.type = .call then handleCall broker s serial id message send
        else if message.type = .subscribe ∨ message.type = .event ∨ message.type = .returned
            ∨ message.type = .error then
          routeMessage broker s serial id message none send send []
        else refuse s serial id true

/-! ## Steps -/

inductive Label
  /-- One accepted connection of `on_listener`. -/
  | accept (pid : ℤ) (uid gid : ℕ) (watchFails : Bool) (send : Send)
  | createComponentSession (component : Bytes) (generation : ℕ) (pid : ℤ) (uid gid : ℕ)
      (watchFails : Bool)
  | closeComponentSession (component : Bytes) (generation : ℕ)
  /-- `send_to_session`, also from `send_to_component` -/
  | sendToSession (id : ℕ) (packet : Bytes) (send : Send)
  | flush (id : ℕ) (answers : List SendAnswer)
  | packet (id : ℕ) (message : DecodedMessage) (send : Send)
  /-- A packet that is not decoded, or the end of the peer. -/
  | hangUp (id : ℕ)
  | authorizeReturns (answer : Bool) (send failedSend : Send) (what : Bytes)
  | listReturns (components : List ComponentStatus) (send failedSend : Send) (what : Bytes)
  | operationReturns (answer : OperationReply) (send failedSend : Send) (what : Bytes)
  /-- One of the hooks without a result returns. -/
  | returns
  /-- The innermost hook throws; `standard` when it is a `std::exception`. -/
  | throws (standard : Bool) (what : Bytes) (send : Send)

def accept (broker : Broker) (s : State) (pid : ℤ) (uid gid : ℕ) (watchFails : Bool)
    (send : Send) : State :=
  match addSession broker s ⟨.publicControl, pid, uid, gid, ascii "public", 0⟩ .publicReady
      watchFails with
  | (none, s) => s
  | (some id, s) =>
    match queuePacket broker s id publicWelcome send with
    | (some .raised, s) => closeSession s id false none
    | (_, s) => s

def flushSession (broker : Broker) (s : State) (id : ℕ) (answers : List SendAnswer) : State :=
  match s.findSession id with
  | none => s
  | some session =>
    match OutputQueue.flushLoop broker.options.maxPacketsPerDispatch answers session.output with
    | none => closeSession s id (session.peer.kind = .component) none
    | some output => s.update { session with output := output }

/-- What follows a hook that throws. Only `handle_call` catches, and takes an exception of
`authorize` for a refusal. -/
def unwind (broker : Broker) (s : State) (frame : Frame) (standard : Bool) (what : Bytes)
    (send : Send) : State :=
  match frame with
  | .authorizing serial id message request =>
    finishAuthorize broker s serial id message request false send send []
  | .listing id requestId | .operating id requestId _ | .routing (some (id, requestId)) =>
    if standard then reply broker s id (errorResponse requestId (ascii "CALL_FAILED") what) send
    else s
  | _ => s

def step (broker : Broker) (s : State) (label : Label) : Option State :=
  match label with
  | .accept pid uid gid watchFails send => some (accept broker s pid uid gid watchFails send)
  | .createComponentSession component generation pid uid gid watchFails =>
    if component = [] ∨ 128 < component.length ∨ generation = 0 then some s
    else
      some (addSession broker s ⟨.component, pid, uid, gid, component, generation⟩ .awaitingHello
        watchFails).2
  | .closeComponentSession component generation =>
    some (closeComponentSession s component generation)
  | .sendToSession id packet send => some (reply broker s id packet send)
  | .flush id answers => some (flushSession broker s id answers)
  | .packet id message send => some (handlePacket broker s id message send)
  | .hangUp id => some (closeSession s id true none)
  | .authorizeReturns answer send failedSend what =>
    match s.stack with
    | .authorizing serial id message request :: stack =>
      some (finishAuthorize broker { s with stack := stack } serial id message request answer send
        failedSend what)
    | _ => none
  | .listReturns components send failedSend what =>
    match s.stack with
    | .listing id requestId :: stack =>
      some (tryReply broker { s with stack := stack } id requestId
        (listComponentsReply requestId components) send failedSend what)
    | _ => none
  | .operationReturns answer send failedSend what =>
    match s.stack with
    | .operating id requestId component :: stack =>
      some (finishOperation broker { s with stack := stack } id requestId component answer send
        failedSend what)
    | _ => none
  | .returns =>
    match s.stack with
    | .routing _ :: stack | .notifyingReady :: stack | .componentDisconnected :: stack =>
      some { s with stack := stack }
    | .sessionClosed disconnect closing :: stack =>
      let s := { s with stack := stack }
      some (match disconnect, closing with
        | some _, _ => s.push .componentDisconnected
        | none, some (component, generation) => closeComponentSession s component generation
        | none, none => s)
    | _ => none
  | .throws standard what send =>
    match s.stack with
    | frame :: stack => some (unwind broker { s with stack := stack } frame standard what send)
    | [] => none

end MsysCore.Native.Handshake
