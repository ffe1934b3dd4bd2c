import MsysCore.Core.Dispatch
import MsysCore.Core.TopicPatterns
import MsysCore.Lib.OrderedDict
import MsysCore.Lib.Runs

/-!
# The event plane of the Python Core

Instances come and go, their readers handle packets, their calls run as tasks of their
own, and events are delivered to the instances in the table. An instance object keeps
its permissions for good; everything else about it may change between two steps. An
event that waits for a catalog reload is published by a later step. Whether a call is
permitted depends on the catalog of the moment, which is part of the label.

`chosen` and `deliveries` are ghost: the topics that a component made Core broadcast,
and the packets that went out, each with the number of its broadcast.
-/

namespace MsysCore.Core

open Python

/-- One delivered event, with the receiver as it was at that moment. -/
structure Delivery where
  broadcast : ℕ
  topic : PyStr
  object : ℕ
  receiver : Channel

/-- An event that has passed its checks and waits for `reload_installed_components`. -/
structure WaitingEvent where
  object : ℕ
  topic : PyStr
  payload : Json

structure EventBus where
  /-- Every instance object created so far. -/
  objects : List Channel := []
  /-- `self.instances` -/
  instances : List (PyStr × ℕ) := []
  /-- The call tasks that have not started. -/
  calls : List (ℕ × Dict) := []
  reloading : List WaitingEvent := []
  broadcasts : ℕ := 0
  chosen : List (ℕ × Json) := []
  deliveries : List Delivery := []

namespace EventBus

variable (py : Interpreter)

/-- What of the environment a broadcast depends on besides the table. -/
def surroundings (unreachable : PyStr → Bool) (reload : Except (Json × PyStr) Json)
    (instances : List Channel) : Surroundings :=
  ⟨[], instances, unreachable, reload⟩

/-- `list(self.instances.values())`, each with its number. -/
def receivers (s : EventBus) : List (ℕ × Channel) :=
  s.instances.filterMap fun entry => s.objects[entry.2]?.map (Prod.mk entry.2)

/-- The receivers that the loop of `broadcast` writes the packet to. A refused send is
dropped; a packet that cannot be encoded ends the loop. -/
def deliveredTo (env : Surroundings) (packet : Dict) (topic : PyStr) :
    List (ℕ × Channel) → List (ℕ × Channel)
  | [] => []
  | (object, channel) :: rest =>
    if receives topic channel then
      match sendPacket env channel packet with
      | .ok _ => (object, channel) :: deliveredTo env packet topic rest
      | .error e => if e.kind = .osError then deliveredTo env packet topic rest else []
    else deliveredTo env packet topic rest

/-- `broadcast` of any topic value. -/
def broadcast (s : EventBus) (unreachable : PyStr → Bool) (topic payload : Json) (source : PyStr) :
    EventBus :=
  match topic with
  | .str text =>
    if validTopicText text then
      let env := surroundings unreachable (.ok .null) (s.receivers.map Prod.snd)
      let reached := deliveredTo env (eventPacket text payload source) text s.receivers
      { s with
        broadcasts := s.broadcasts + 1
        deliveries := s.deliveries ++
          reached.map fun entry => ⟨s.broadcasts, text, entry.1, entry.2⟩ }
    else s
  | _ => s

/-- A broadcast whose topic the component of an object chose. -/
def chosenBroadcast (s : EventBus) (object : ℕ) (unreachable : PyStr → Bool) (topic payload : Json)
    (source : PyStr) : EventBus :=
  broadcast { s with chosen := s.chosen ++ [(object, topic)] } unreachable topic payload source

def setObject (s : EventBus) (object : ℕ) (channel : Channel) : EventBus :=
  { s with objects := s.objects.set object channel }

/-- The `event` branch of `_handle_component_message`, up to the reload. -/
def publish (s : EventBus) (object : ℕ) (channel : Channel) (unreachable : PyStr → Bool)
    (message : Dict) : EventBus :=
  match publishRefusal py channel message with
  | some _ => s
  | none =>
    let topic := topicText message
    let payload := Dict.get message "payload" (.dict [])
    if needsReload topic payload then
      { s with reloading := s.reloading ++ [⟨object, topic, payload⟩] }
    else s.chosenBroadcast object unreachable (.str topic) payload channel.key

/-- The `return` and `error` branches: the reply is taken from the pending calls. -/
def resolveReply (s : EventBus) (object : ℕ) (channel : Channel) (message : Dict) : EventBus :=
  match takeReply py channel message with
  | .ok channel' => s.setObject object channel'
  | .error _ => s

/-- `_handle_component_message`; a call packet starts a task. -/
def handlePacket (s : EventBus) (object : ℕ) (channel : Channel) (unreachable : PyStr → Bool)
    (message : Dict) : EventBus :=
  match packetType message with
  | .subscribe => s.setObject object (Core.subscribe py channel message).1
  | .ready => s.setObject object { channel with ready := true }
  | .event => publish py s object channel unreachable message
  | .returned | .error => resolveReply py s object channel message
  | .call => { s with calls := s.calls ++ [(object, message)] }
  | .hello | .other => s

/-- `_authorize_component_call` grants the call; `interfacesOf` is the catalog. -/
def authorized (interfacesOf : PyStr → List PyStr) (channel : Channel) (message : Dict) : Bool :=
  let target := targetText py message
  let method := methodName py message
  allowsCall channel.permissions target method ||
    ((lit "component:").isPrefixOf target && (interfacesOf (afterColon target)).any fun name =>
      allowsCall channel.permissions (lit "interface:" ++ name) method)

/-- The topic and payload that `dispatch_call` hands to `broadcast`, if it gets there. -/
def calledBroadcast (message : Dict) : Option (Json × Json) :=
  match toInt py (callerId message), targetOf (targetText py message),
      Dict.get message "method" .null, payloadOf message with
  | .ok _, .core, .str name, .dict payload =>
    if coreMethod name = some .broadcast then
      some (Dict.get payload "topic" (text ""), payloadOf payload)
    else none
  | _, _, _, _ => none

/-- A call of a component, from its authorization on. Calls that do not end in
`broadcast` act through the other labels. -/
def dispatch (s : EventBus) (object : ℕ) (interfacesOf : PyStr → List PyStr)
    (unreachable : PyStr → Bool) (message : Dict) : EventBus :=
  match s.objects[object]?, calledBroadcast py message with
  | some channel, some (topic, payload) =>
    if authorized py interfacesOf channel message then
      s.chosenBroadcast object unreachable topic payload (lit "core-call")
    else s
  | _, _ => s

inductive Label
  /-- `start_component` has launched an instance. -/
  | started (key : PyStr) (generation : ℤ) (permissions : List PyStr) (ready : Bool)
  /-- An instance leaves the table. -/
  | removed (key : PyStr)
  /-- A probe, an exit or a channel failure changes an instance. -/
  | status (object : ℕ) (isOpen ready : Bool)
  | packet (object : ℕ) (message : Dict) (unreachable : PyStr → Bool)
  /-- The reload an event waits for is over. -/
  | reloaded (index : ℕ) (outcome : Except (Json × PyStr) Json) (unreachable : PyStr → Bool)
  /-- A call task starts. -/
  | call (index : ℕ) (interfacesOf : PyStr → List PyStr) (unreachable : PyStr → Bool)
  /-- A call on the public socket, by a process of an instance. -/
  | publicCall (object : ℕ) (message : Dict) (interfacesOf : PyStr → List PyStr)
      (unreachable : PyStr → Bool)
  /-- An event of Core itself or of an operator. -/
  | coreEvent (topic payload : Json) (source : PyStr) (unreachable : PyStr → Bool)

def step (s : EventBus) : Label → Option EventBus
  | .started key generation permissions ready =>
    some
      { s with
        objects := s.objects ++ [⟨key, generation, permissions, true, ready, [], []⟩]
        instances := OrderedDict.set s.instances key s.objects.length }
  | .removed key => some { s with instances := OrderedDict.pop s.instances key }
  | .status object isOpen ready => do
    let channel ← s.objects[object]?
    pure (s.setObject object { channel with isOpen := isOpen, ready := ready })
  | .packet object message unreachable => do
    let channel ← s.objects[object]?
    pure (handlePacket py s object channel unreachable message)
  | .reloaded index outcome unreachable => do
    let event ← s.reloading[index]?
    let channel ← s.objects[event.object]?
    let rest := { s with reloading := s.reloading.eraseIdx index }
    match eventPayload (surroundings unreachable outcome []) event.topic event.payload with
    | .ok payload =>
      pure (rest.chosenBroadcast event.object unreachable (.str event.topic) payload channel.key)
    | .error _ => pure rest
  | .call index interfacesOf unreachable => do
    let (object, message) ← s.calls[index]?
    pure (dispatch py { s with calls := s.calls.eraseIdx index } object interfacesOf unreachable
      message)
  | .publicCall object message interfacesOf unreachable =>
    some (dispatch py s object interfacesOf unreachable message)
  | .coreEvent topic payload source unreachable =>
    some (s.broadcast unreachable topic payload source)

def initial : EventBus := {}

/-! ## The handlers behind the labels -/

variable {py}

/-- The packets `broadcast` writes are those of `deliveredTo`. -/
theorem deliverEvent_keys {env : Surroundings} {packet : Dict} {topic : PyStr}
    {entries : List (ℕ × Channel)} {sent : List Sent}
    (h : deliverEvent env packet topic (entries.map Prod.snd) = .ok sent) :
    sent.map Sent.key = (deliveredTo env packet topic entries).map fun entry => entry.2.key := by
  induction entries generalizing sent with
  | nil =>
    cases h
    rfl
  | cons entry rest ih =>
    unfold deliveredTo
    rw [List.map_cons, deliverEvent] at h
    split_ifs at h ⊢ with hreceives
    · obtain ⟨first, hfirst, hrest⟩ := bind_eq_ok.mp h
      obtain ⟨others, hothers, hsent⟩ := bind_eq_ok.mp hrest
      cases hsent
      cases hsend : sendPacket env entry.2 packet with
      | ok out =>
        have hkey : out.key = entry.2.key := by
          unfold sendPacket at hsend
          obtain ⟨data, -, hdata⟩ := bind_eq_ok.mp hsend
          split_ifs at hdata
          · cases hdata
          · cases hdata
          · cases hdata
            rfl
        rw [hsend] at hfirst
        cases hfirst
        simp [ih hothers, hkey]
      | error e =>
        rw [hsend, dropOsError] at hfirst
        split_ifs at hfirst with hos
        cases hfirst
        simp [ih hothers, hos]
    · exact ih h

theorem authorizeComponentCall_eq_none_iff (env : CallSurroundings) (caller : Channel) (msg : Dict) :
    authorizeComponentCall py env caller msg = none ↔
      authorized py env.interfacesOf caller msg = true := by
  unfold authorizeComponentCall authorized
  simp only
  split_ifs with hdirect hprovider
  · simp [hdirect]
  · simp only [hprovider, Bool.or_true]
  · simp [hdirect, hprovider]

/-- What `calledBroadcast` reads off a call is what `dispatch_call` broadcasts. -/
theorem dispatchCall_of_calledBroadcast (env : CallSurroundings) (source : PyStr) {msg : Dict}
    {topic : PyStr} {payload : Json} (h : calledBroadcast py msg = some (.str topic, payload)) :
    dispatchCall py env msg source = (do
      let _ ← Core.broadcast env.core.broadcast topic payload (lit "core-call")
      pure ((Body.returned (object [("ok", .bool true)])).packet (callerId msg))) := by
  unfold calledBroadcast at h
  split at h
  · rename_i id name entries hid htarget hmethod hpayload
    split_ifs at h with hbroadcast
    rw [Option.some.injEq, Prod.mk.injEq] at h
    obtain ⟨htopic, rfl⟩ := h
    simp only [dispatchCall, hid, htarget, coreCall, coreBody, hmethod, hbroadcast, coreMethodBody,
      broadcastEvent, hpayload, Json.asDict, htopic, bind, Except.bind]
    cases Core.broadcast env.core.broadcast topic (payloadOf entries) (lit "core-call") <;> rfl
  · cases h

end EventBus

end MsysCore.Core
