import MsysCore.Native.BrokerLog
import MsysCore.Native.Catalog

/-!
# The event plane of the native router

`authorize_call`, `subscribe`, `publish`, `broadcast` and the tables that `session_closed` clears,
of `native_router.cpp`, run by the hooks of the broker. A hook runs where the broker calls it, so
the router follows the facts that a step of the broker adds to its log; between two sends of a
broadcast the broker goes through the hooks of sessions that the first of them closed, and the
loop goes on when they have returned. `history` is ghost, and so are the numbers of the broadcasts.
-/

namespace MsysCore.Native.EventPlane

open Handshake

-- Named: two definitions would share an unnamed proof.
local instance lawfulBEqTopics : LawfulBEq Bytes := inferInstance

def maxSubscriptionsPerSession : ℕ := 128

structure Router where
  catalog : NativeCatalog
  /-- `geteuid` of the supervisor. -/
  euid : ℕ

/-- What the supervisor answers while a hook runs: the component of a process. -/
abbrev Processes := ℤ → Option ℕ

/-- The order in which `unordered_map` is iterated. -/
structure Iteration where
  arrange : List ℕ → List ℕ
  perm : ∀ ids, (arrange ids).Perm ids

/-- A broadcast between two of its sends. -/
structure Broadcast where
  number : ℕ
  packet : Bytes
  remaining : List ℕ
  /-- The publisher, whose activity `publish` reports in the end. -/
  source : Option ℕ
  /-- The hooks in progress when it started. -/
  depth : ℕ
  deriving DecidableEq

inductive Happened
  | subscribed (id component : ℕ) (topic : Bytes)
  | dropped (id : ℕ)
  | published (number serial : ℕ) (topic packet : Bytes) (targets : List ℕ)
  | delivered (number id : ℕ)
  /-- The session was closed before its send or by it. -/
  | missed (number id : ℕ)
  | completed (number : ℕ)
  /-- An exception left the loop. -/
  | abandoned (number : ℕ)
  /-- `component_activity` -/
  | activity (component : ℕ)
  deriving DecidableEq

structure State where
  broker : Handshake.State := {}
  subscriptions : List (ℕ × List Bytes) := []
  subscriberComponents : List (ℕ × ℕ) := []
  /-- In progress, innermost first. -/
  broadcasts : List Broadcast := []
  started : ℕ := 0
  history : List Happened := []

def State.record (s : State) (happened : Happened) : State :=
  { s with history := s.history ++ [happened] }

/-! ## Matching -/

def subscriptionMatches (pattern topic : Bytes) : Bool :=
  if pattern = ascii "*" then true
  else if 2 ≤ pattern.length && (ascii ".*").isSuffixOf pattern then
    pattern.dropLast.isPrefixOf topic
  else pattern == topic

def eventPacket (topic source payload : Bytes) : Bytes :=
  List.flatten [
    ascii "\x7b\"type\":\"event\",\"topic\":", jsonQuote topic, ascii ",\"source\":",
    jsonQuote source, ascii ",\"payload\":", payload, ascii "\x7d"]

/-! ## Sources -/

namespace Router

def sourceComponent (router : Router) (processes : Processes) (peer : PeerIdentity) : Option ℕ :=
  match peer.kind with
  | .component => router.catalog.componentIndex peer.source
  | .publicControl => processes peer.pid

def componentId (router : Router) (component : ℕ) : Bytes :=
  match router.catalog.plan.components[component]? with
  | some component => component.id
  | none => []

def sourceName (router : Router) (processes : Processes) (peer : PeerIdentity) : Bytes :=
  match router.sourceComponent processes peer with
  | some component => router.componentId component
  | none => ascii "public"

def operatorPeer (router : Router) (peer : PeerIdentity) : Bool :=
  peer.kind = .publicControl && peer.uid == router.euid

def authorizeCall (router : Router) (processes : Processes) (request : AccessRequest) : Bool :=
  match router.sourceComponent processes request.peer with
  | some source => router.catalog.allowsCall source request.target request.method
  | none => router.operatorPeer request.peer

end Router

/-! ## Messages -/

def subscribe (router : Router) (processes : Processes) (s : State) (id : ℕ)
    (peer : PeerIdentity) (topic : Bytes) : State :=
  match router.sourceComponent processes peer with
  | none => s
  | some source =>
    if router.catalog.allowsSubscribe source topic = false then s
    else
      let topics := (OrderedDict.get s.subscriptions id).getD []
      if maxSubscriptionsPerSession ≤ topics.length ∧ topic ∉ topics then
        { s with subscriptions := OrderedDict.set s.subscriptions id topics }
      else
        { s with
          subscriptions := OrderedDict.set s.subscriptions id (topics.insert topic)
          subscriberComponents := OrderedDict.set s.subscriberComponents id source
          history := s.history ++ [.subscribed id source topic, .activity source] }

/-- The sessions with a subscription that matches. -/
def subscribers (s : State) (topic : Bytes) : List ℕ :=
  (s.subscriptions.filter fun entry =>
    entry.2.any fun pattern => subscriptionMatches pattern topic).map Prod.fst

/-- `broadcast` up to its first send; `source` as in `Broadcast`. -/
def broadcast (order : Iteration) (s : State) (serial : ℕ) (topic payload name : Bytes)
    (source : Option ℕ) : State :=
  let packet := eventPacket topic name payload
  let targets := order.arrange (subscribers s topic)
  { s with
    broadcasts := ⟨s.started, packet, targets, source, s.broker.stack.length⟩ :: s.broadcasts
    started := s.started + 1
    history := s.history ++ [.published s.started serial topic packet targets] }

def publish (router : Router) (processes : Processes) (order : Iteration) (s : State) (serial : ℕ)
    (peer : PeerIdentity) (message : DecodedMessage) : State :=
  match router.sourceComponent processes peer with
  | none => s
  | some source =>
    if router.catalog.allowsPublish source message.topic = false then s
    else
      broadcast order s serial message.topic message.payloadJson (router.componentId source)
        (some source)

/-- The branch of `core_call`. -/
def coreBroadcast (router : Router) (processes : Processes) (order : Iteration) (s : State)
    (serial : ℕ) (peer : PeerIdentity) (message : DecodedMessage) : State :=
  match message.payloadTopic with
  | none => s
  | some topic =>
    broadcast order s serial topic (message.nestedPayloadJson.getD (ascii "\x7b\x7d"))
      (router.sourceName processes peer) none

/-- A call of the `broadcast` method of Core. -/
def IsBroadcast (message : DecodedMessage) : Prop :=
  message.target = ascii "msys.core" ∧ message.method = ascii "broadcast"

instance (message : DecodedMessage) : Decidable (IsBroadcast message) :=
  inferInstanceAs (Decidable (_ ∧ _))

/-- `on_message`, as far as the event plane goes. -/
def onMessage (router : Router) (processes : Processes) (order : Iteration) (s : State)
    (serial id : ℕ) (peer : PeerIdentity) (message : DecodedMessage) : State :=
  match message.type with
  | .subscribe => subscribe router processes s id peer message.topic
  | .event => publish router processes order s serial peer message
  | .call =>
    if IsBroadcast message then coreBroadcast router processes order s serial peer message else s
  | _ => s

def sessionClosed (s : State) (id : ℕ) : State :=
  { s with
    subscriptions := OrderedDict.pop s.subscriptions id
    subscriberComponents := OrderedDict.pop s.subscriberComponents id
    history := s.history ++ [.dropped id] }

/-! ## Steps -/

/-- The hook of a fact. -/
def onFact (router : Router) (processes : Processes) (order : Iteration) (s : State) :
    Fact → State
  | .closed id => sessionClosed s id
  | .routed serial id peer message => onMessage router processes order s serial id peer message
  | _ => s

/-- The broker goes on to `broker`, and its hooks run. -/
def advance (router : Router) (processes : Processes) (order : Iteration) (s : State)
    (broker : Handshake.State) : State :=
  (broker.log.drop s.broker.log.length).foldl (onFact router processes order)
    { s with broker := broker }

/-- The broadcast that is to make its next send. -/
def State.inControl (s : State) : Option Broadcast :=
  s.broadcasts.head?.filter fun broadcast => broadcast.depth == s.broker.stack.length

/-- The loop is left. -/
def leave (s : State) (happened : Happened) : State :=
  { s with broadcasts := s.broadcasts.tail }.record happened

inductive Label
  /-- The broker, as long as no broadcast is to go on. -/
  | broker (label : Handshake.Label) (processes : Processes) (order : Iteration)
  /-- The next send of a broadcast. -/
  | deliver (send : Send)
  /-- A broadcast has made all of its sends. -/
  | complete
  /-- An exception leaves the loop of a broadcast and its hook. -/
  | throws (standard : Bool) (what : Bytes) (send : Send)

/-- What `authorize` answers is the answer of `authorize_call`. -/
def answers (router : Router) (processes : Processes) (s : Handshake.State) :
    Handshake.Label → Bool
  | .authorizeReturns answer _ _ _ =>
    match s.stack with
    | .authorizing _ _ _ request :: _ => answer == router.authorizeCall processes request
    | _ => true
  | _ => true

/-- Neither the processes nor the order matter where no message is routed. -/
def nowhere : Processes := fun _ => none

def asStored : Iteration := ⟨id, fun _ => List.Perm.refl _⟩

def deliver (router : Router) (broker : Broker) (s : State) (loop : Broadcast) (id : ℕ)
    (remaining : List ℕ) (send : Send) : State :=
  let sent := Handshake.queuePacket broker s.broker id loop.packet send
  let active := OrderedDict.get s.subscriberComponents id
  let s := advance router nowhere asStored
    { s with broadcasts := { loop with remaining := remaining } :: s.broadcasts.tail } sent.2
  match sent.1 with
  | some .kept =>
    let s := s.record (.delivered loop.number id)
    match active with
    | some component => s.record (.activity component)
    | none => s
  | some .raised =>
    leave (s.record (.delivered loop.number id)) (.abandoned loop.number)
  | _ => s.record (.missed loop.number id)

def complete (s : State) (loop : Broadcast) : State :=
  let s := leave s (.completed loop.number)
  match loop.source with
  | some source => s.record (.activity source)
  | none => s

def step (router : Router) (broker : Broker) (s : State) : Label → Option State
  | .broker label processes order =>
    if s.inControl.isSome || !answers router processes s.broker label then none
    else (Handshake.step broker s.broker label).map (advance router processes order s)
  | .deliver send =>
    match s.inControl with
    | none => none
    | some loop =>
      match loop.remaining with
      | [] => none
      | id :: remaining => some (deliver router broker s loop id remaining send)
  | .complete =>
    match s.inControl with
    | none => none
    | some loop => if loop.remaining = [] then some (complete s loop) else none
  | .throws standard what send =>
    match s.inControl with
    | none => none
    | some loop =>
      (Handshake.step broker s.broker (.throws standard what send)).map
        (advance router nowhere asStored (leave s (.abandoned loop.number)))

end MsysCore.Native.EventPlane
