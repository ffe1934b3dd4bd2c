import MsysCore.Core.MipcAcl
import MsysCore.Python.Codec

/-!
# The packet reader of a component channel

`_handle_component_message` for every packet that `decode` accepts. An exception
that leaves it ends the reader task of the component, so the question is which
packets make it raise. Results of the environment (a refused `send`, the outcome of
a catalog reload) are fields of `Surroundings`; standard output takes every text.
-/

namespace MsysCore.Core

open Python

def maxSubscriptions : ℕ := 128

/-- The part of an instance the reader uses. `open` says that it has a socket. -/
structure Channel where
  key : PyStr
  generation : ℤ
  permissions : List PyStr
  isOpen : Bool
  ready : Bool
  subscriptions : List PyStr
  /-- Request ids of the calls forwarded to it. -/
  pendingCalls : List ℤ

structure Surroundings where
  runtimeDir : PyStr
  /-- The instance table when an event is broadcast. -/
  instances : List Channel
  /-- Keys whose `sendall` raises `OSError`. -/
  unreachable : PyStr → Bool
  /-- `reload_installed_components()`: its result, or the code and text of its error. -/
  reload : Except (Json × PyStr) Json

/-- A packet written to the instance of a key. -/
structure Sent where
  key : PyStr
  data : Bytes

def osError {α : Type} : Except PyError α := raise .osError "send failed"

/-- `send_packet`. Without a socket the attribute lookup fails after the encoding. -/
def sendPacket (env : Surroundings) (channel : Channel) (message : Dict) :
    Except PyError Sent := do
  let data ← encode message
  if !channel.isOpen then raise .attributeError "'NoneType' object has no attribute 'sendall'"
  else if env.unreachable channel.key then osError
  else pure ⟨channel.key, data⟩

/-- `except OSError` around a send. -/
def dropOsError : Except PyError Sent → Except PyError (List Sent)
  | .ok sent => .ok [sent]
  | .error e => if e.kind = .osError then .ok [] else .error e

def sendComponentResponse (env : Surroundings) (channel : Channel) (response : Dict) :
    Except PyError (List Sent) :=
  if !channel.isOpen then .ok [] else dropOsError (sendPacket env channel response)

def optionalRequestId (message : Dict) : Option ℤ :=
  match Dict.get? message "id" with
  | some (.int i) => some i
  | _ => none

def componentError (channel : Channel) (message : Dict) (code operation : String)
    (detail : PyStr) (required : Option PyStr) : Dict :=
  record [("type", text "error"), ("id", .int ((optionalRequestId message).getD 0)),
    ("code", text code), ("message", text ("component is not permitted to " ++ operation)),
    ("payload", .dict (record ([("operation", text operation), ("component", .str channel.key),
      ("resource", .str detail)] ++
      match required with
      | some permission => [("required", .str permission)]
      | none => [])))]

def accessDenied (channel : Channel) (message : Dict) (operation : String)
    (detail required : PyStr) : Dict :=
  componentError channel message "ACCESS_DENIED" operation detail (some required)

def welcome (env : Surroundings) (channel : Channel) : Dict :=
  record [("type", text "welcome"), ("component", .str channel.key),
    ("generation", .int channel.generation), ("runtime_dir", .str env.runtimeDir)]

/-- The answer to a `subscribe` packet and the subscriptions after it. -/
def subscribe (py : Interpreter) (channel : Channel) (message : Dict) :
    Channel × Option Dict :=
  let topic := Dict.get message "topic" (text "")
  match topic with
  | .str t =>
    if !validSubscriptionText t then
      (channel, some (componentError channel message "BAD_SUBSCRIPTION" "subscribe"
        (t.take maxTopicLength) none))
    else if !allowsEvent channel.permissions .subscribe t then
      (channel, some (accessDenied channel message "subscribe" t (eventPermission .subscribe t)))
    else if !channel.subscriptions.contains t
        && maxSubscriptions ≤ channel.subscriptions.length then
      (channel, some (componentError channel message "SUBSCRIPTION_LIMIT" "subscribe" t none))
    else
      ({ channel with subscriptions := channel.subscriptions.insert t },
        (optionalRequestId message).map fun i =>
          record [("type", text "return"), ("id", .int i),
            ("payload", .dict (record [("subscribed", .str t)]))])
  | other =>
    (channel, some (componentError channel message "BAD_SUBSCRIPTION" "subscribe"
      ((toStr py other).take maxTopicLength) none))

/-- The error for an event that may not be published, if there is one. -/
def publishRefusal (py : Interpreter) (channel : Channel) (message : Dict) : Option Dict :=
  let topic := Dict.get message "topic" (text "")
  match topic with
  | .str t =>
    if !validTopicText t then
      some (componentError channel message "BAD_EVENT_TOPIC" "publish" (t.take maxTopicLength) none)
    else if !allowsEvent channel.permissions .publish t then
      some (accessDenied channel message "publish" t (eventPermission .publish t))
    else none
  | other =>
    some (componentError channel message "BAD_EVENT_TOPIC" "publish"
      ((toStr py other).take maxTopicLength) none)

/-- `dict(payload or {})`. -/
def payloadDict (payload : Json) : Except PyError Dict :=
  if payload.truthy then toDict payload else .ok []

/-- A package change that has not been reloaded by its sender. -/
def needsReload (topic : PyStr) (payload : Json) : Bool :=
  topic == lit "msys.install.package_changed" &&
    !(match payload with
      | .dict entries => match Dict.get? entries "registry_reloaded" with
        | some (.bool true) => true
        | _ => false
      | _ => false)

/-- The payload that is broadcast. When `dict(payload or {})` raises after a successful
reload, the handler runs it again and raises too. -/
def eventPayload (env : Surroundings) (topic : PyStr) (payload : Json) : Except PyError Json :=
  if needsReload topic payload then do
    let entries ← payloadDict payload
    match env.reload with
    | .ok changes => pure (.dict (Dict.set entries "registry_changes" changes))
    | .error (code, reason) =>
      pure (.dict (Dict.set entries "registry_error"
        (.dict (record [("code", code), ("message", .str (reason.take 512))]))))
  else pure payload

def eventPacket (topic : PyStr) (payload : Json) (source : PyStr) : Dict :=
  record [("type", text "event"), ("topic", .str topic), ("source", .str source),
    ("payload", payload)]

/-- The instances an event is delivered to. -/
def receives (topic : PyStr) (channel : Channel) : Bool :=
  (channel.subscriptions.any fun pattern => subscriptionMatches pattern topic)
    && channel.isOpen && channel.ready

/-- The delivery loop of `broadcast`. -/
def deliverEvent (env : Surroundings) (packet : Dict) (topic : PyStr) :
    List Channel → Except PyError (List Sent)
  | [] => .ok []
  | channel :: rest =>
    if receives topic channel then do
      let sent ← dropOsError (sendPacket env channel packet)
      let others ← deliverEvent env packet topic rest
      pure (sent ++ others)
    else deliverEvent env packet topic rest

def broadcast (env : Surroundings) (topic : PyStr) (payload : Json) (source : PyStr) :
    Except PyError (List Sent) :=
  if !validTopicText topic then .ok []
  else deliverEvent env (eventPacket topic payload source) topic env.instances

def topicText (message : Dict) : PyStr :=
  match Dict.get message "topic" (text "") with
  | .str t => t
  | _ => []

def publish (py : Interpreter) (env : Surroundings) (channel : Channel) (message : Dict) :
    Except PyError (List Sent) :=
  match publishRefusal py channel message with
  | some refusal => sendComponentResponse env channel refusal
  | none => do
    let topic := topicText message
    let payload ← eventPayload env topic (Dict.get message "payload" (.dict []))
    broadcast env topic payload channel.key

inductive PacketType
  | hello | ready | subscribe | event | returned | error | call | other
  deriving DecidableEq

def packetTypes : List (String × PacketType) :=
  [("hello", .hello), ("ready", .ready), ("subscribe", .subscribe), ("event", .event),
    ("return", .returned), ("error", .error), ("call", .call)]

def packetType (message : Dict) : PacketType :=
  match Dict.get? message "type" with
  | some (.str t) => ((packetTypes.find? fun entry => lit entry.1 == t).map Prod.snd).getD .other
  | _ => .other

/-- A reply of the component: its future is resolved and forgotten. -/
def takeReply (py : Interpreter) (channel : Channel) (message : Dict) : Except PyError Channel :=
  match Dict.get? message "id" with
  | none => .ok channel
  | some id => do
    let requestId ← toInt py id
    pure { channel with pendingCalls := channel.pendingCalls.erase requestId }

/-- The branches on `msg_type`. A `call` starts a task of its own and returns at once. -/
def handleTyped (py : Interpreter) (env : Surroundings) (channel : Channel)
    (message : Dict) : Except PyError (Channel × List Sent) :=
  match packetType message with
  | .hello => do
    let sent ← sendPacket env channel (welcome env channel)
    pure (channel, [sent])
  | .ready => pure ({ channel with ready := true }, [])
  | .subscribe =>
    match subscribe py channel message with
    | (channel', some response) => do
      let sent ← sendComponentResponse env channel' response
      pure (channel', sent)
    | (channel', none) => pure (channel', [])
  | .event => do
    let sent ← publish py env channel message
    pure (channel, sent)
  | .returned | .error => do
    let channel ← takeReply py channel message
    pure (channel, [])
  | .call => pure (channel, [])
  | .other => pure (channel, [])

def handleComponentMessage (py : Interpreter) (env : Surroundings) (channel : Channel)
    (message : Dict) : Except PyError (Channel × List Sent) :=
  match Dict.get? message "type" with
  | none => raise .keyError "'type'"
  | some _ => handleTyped py env channel message

/-! ## When the built-in conversions return -/

/-- The values `int()` accepts. -/
def IntLike (py : Interpreter) : Json → Prop
  | .bool _ => True
  | .int _ => True
  | .float f => ∃ q, f.value = .finite q
  | .str s => Returns (intOfStr py s)
  | _ => False

theorem toInt_returns_iff (py : Interpreter) (v : Json) : Returns (toInt py v) ↔ IntLike py v := by
  cases v with
  | bool b => simp [toInt, IntLike]
  | int i => simp [toInt, IntLike]
  | float f =>
    cases hf : f.value with
    | nan => simp [toInt, IntLike, hf, raise]
    | inf negative => simp [toInt, IntLike, hf, raise]
    | finite q => simp [toInt, IntLike, hf]
  | str s => simp [toInt, IntLike]
  | null => simp [toInt, IntLike, raise]
  | list items => simp [toInt, IntLike, raise]
  | dict entries => simp [toInt, IntLike, raise]

/-- An item `dict()` can use: two elements, the first of them hashable. -/
def PairLike (item : Json) : Prop :=
  ∃ key value, item.items = some [key, value] ∧ key.hashable = true

theorem dictFrom_returns_iff (items : List Json) : ∀ (index : ℕ) (d : Dict),
    Returns (dictFrom index d items) ↔ ∀ item ∈ items, PairLike item := by
  induction items with
  | nil => simp [dictFrom]
  | cons item items ih =>
    intro index d
    rw [List.forall_mem_cons, dictFrom]
    split
    · rename_i hitems
      simp [PairLike, hitems, raise]
    · rename_i key value hitems
      have hpair : PairLike item ↔ key.hashable = true := by
        simp [PairLike, hitems]
      rw [hpair]
      split_ifs with hkey
      · simp [ih, hkey]
      · simp [hkey, raise]
    · rename_i others hne hitems
      have hpair : ¬ PairLike item := by
        rintro ⟨key, value, hkv, -⟩
        exact hne key value (Option.some.inj (hitems.symm.trans hkv))
      simp [hpair, raise]

/-- The payloads `dict(payload or {})` accepts. -/
def Dictable : Json → Prop
  | .dict _ => True
  | .list items => ∀ item ∈ items, PairLike item
  | payload => payload.truthy = false

theorem payloadDict_returns_iff (payload : Json) : Returns (payloadDict payload) ↔ Dictable payload := by
  unfold payloadDict
  cases payload with
  | null => simp [Json.truthy, Dictable]
  | bool b => cases b <;> simp [Json.truthy, Dictable, toDict, Json.items, raise]
  | int i =>
    by_cases hi : i = 0 <;> simp [Json.truthy, Dictable, toDict, Json.items, raise, hi]
  | float f =>
    by_cases hf : f.value = .finite 0 <;>
      simp [Json.truthy, Dictable, toDict, Json.items, raise, hf]
  | str s =>
    cases s with
    | nil => simp [Json.truthy, Dictable]
    | cons c s =>
      have hpair : ¬ PairLike (.str [c]) := by
        rintro ⟨key, value, h, -⟩
        simp [Json.items] at h
      simp [Json.truthy, Dictable, toDict, Json.items, dictFrom_returns_iff, hpair]
  | list items =>
    cases items with
    | nil => simp [Json.truthy, Dictable]
    | cons item items => simp [Json.truthy, Dictable, toDict, Json.items, dictFrom_returns_iff]
  | dict entries => cases entries <;> simp [Json.truthy, Dictable, toDict]

/-! ## When the sends return -/

theorem sendPacket_returns_iff (env : Surroundings) (channel : Channel) (message : Dict) :
    Returns (sendPacket env channel message) ↔
      Encodable message ∧ channel.isOpen = true ∧ env.unreachable channel.key = false := by
  rw [sendPacket, returns_bind, ← encode_returns_iff]
  cases hopen : channel.isOpen <;> cases hreach : env.unreachable channel.key <;>
    simp [raise, osError]
  rfl

/-- On an open socket only the encoding can fail visibly. -/
theorem dropOsError_returns_iff {env : Surroundings} {channel : Channel}
    (hopen : channel.isOpen = true) (message : Dict) :
    Returns (dropOsError (sendPacket env channel message)) ↔ Encodable message := by
  by_cases hm : Encodable message
  · refine iff_of_true ?_ hm
    rw [sendPacket, encode_of_encodable hm, hopen]
    cases hreach : env.unreachable channel.key with
    | false => exact ⟨_, rfl⟩
    | true => exact ⟨[], rfl⟩
  · refine iff_of_false ?_ hm
    obtain ⟨e, he, hkind⟩ := encode_error hm
    have hsend : sendPacket env channel message = .error e := by
      rw [sendPacket, he]
      rfl
    rw [hsend, dropOsError, if_neg hkind]
    exact not_returns_error e

theorem sendComponentResponse_returns_iff (env : Surroundings) (channel : Channel)
    (response : Dict) :
    Returns (sendComponentResponse env channel response) ↔
      (channel.isOpen = true → Encodable response) := by
  unfold sendComponentResponse
  cases hopen : channel.isOpen with
  | false => simp
  | true => simp [dropOsError_returns_iff hopen]

theorem deliverEvent_returns_iff (env : Surroundings) (packet : Dict) (topic : PyStr)
    (channels : List Channel) :
    Returns (deliverEvent env packet topic channels) ↔
      ∀ channel ∈ channels, receives topic channel = true → Encodable packet := by
  induction channels with
  | nil => simp [deliverEvent]
  | cons channel channels ih =>
    rw [List.forall_mem_cons, deliverEvent, ← ih]
    split_ifs with hreceives
    · have hopen : channel.isOpen = true := by
        simp only [receives, Bool.and_eq_true] at hreceives
        exact hreceives.1.2
      rw [returns_bind, ← @dropOsError_returns_iff env channel hopen packet]
      constructor
      · rintro ⟨sent, hsent, hrest⟩
        exact ⟨fun _ => ⟨sent, hsent⟩, (returns_bind_of_forall fun _ => returns_pure _).mp hrest⟩
      · rintro ⟨hsend, hrest⟩
        obtain ⟨sent, hsent⟩ := hsend hreceives
        exact ⟨sent, hsent, (returns_bind_of_forall fun _ => returns_pure _).mpr hrest⟩
    · simp [hreceives]

theorem broadcast_returns_iff (env : Surroundings) (topic : PyStr) (payload : Json)
    (source : PyStr) :
    Returns (broadcast env topic payload source) ↔
      (validTopicText topic = true → ∀ receiver ∈ env.instances, receives topic receiver = true →
        Encodable (eventPacket topic payload source)) := by
  unfold broadcast
  cases hvalid : validTopicText topic with
  | false => simp
  | true => simp [deliverEvent_returns_iff]

theorem eventPayload_returns_iff (env : Surroundings) (topic : PyStr) (payload : Json) :
    Returns (eventPayload env topic payload) ↔
      (needsReload topic payload = true → Dictable payload) := by
  unfold eventPayload
  split_ifs with hreload
  · rw [returns_bind_of_forall, payloadDict_returns_iff]
    · simp [hreload]
    · intro entries
      cases env.reload with
      | ok changes => exact returns_pure _
      | error failure => exact returns_pure _
  · simp [hreload]

/-- A refused topic is not broadcast, so a published one is valid. -/
theorem validTopicText_of_publishRefusal {py : Interpreter} {channel : Channel} {message : Dict}
    (h : publishRefusal py channel message = none) : validTopicText (topicText message) = true := by
  unfold publishRefusal at h
  unfold topicText
  simp only at h
  split at h
  · by_contra hinvalid
    rw [Bool.not_eq_true] at hinvalid
    simp [hinvalid] at h
  · cases h

/-! ## When the reader survives a packet -/

/-- A published event: what its payload must be, and what its subscribers must get. -/
def PublishSafe (env : Surroundings) (channel : Channel) (message : Dict) : Prop :=
  (needsReload (topicText message) (Dict.get message "payload" (.dict [])) = true →
    Dictable (Dict.get message "payload" (.dict []))) ∧
  ∀ payload, eventPayload env (topicText message) (Dict.get message "payload" (.dict [])) =
      .ok payload →
    ∀ receiver ∈ env.instances, receives (topicText message) receiver = true →
      Encodable (eventPacket (topicText message) payload channel.key)

def ReaderSafe (py : Interpreter) (env : Surroundings) (channel : Channel) (message : Dict) :
    Prop :=
  match packetType message with
  | .hello => Encodable (welcome env channel) ∧ channel.isOpen = true ∧
      env.unreachable channel.key = false
  | .subscribe => ∀ response, (subscribe py channel message).2 = some response →
      channel.isOpen = true → Encodable response
  | .event => match publishRefusal py channel message with
    | some refusal => channel.isOpen = true → Encodable refusal
    | none => PublishSafe env channel message
  | .returned | .error => ∀ id, Dict.get? message "id" = some id → IntLike py id
  | _ => True

theorem subscribe_isOpen (py : Interpreter) (channel : Channel) (message : Dict) :
    (subscribe py channel message).1.isOpen = channel.isOpen := by
  unfold subscribe
  simp only
  split
  · split_ifs <;> rfl
  · rfl

theorem publish_returns_iff (py : Interpreter) (env : Surroundings) (channel : Channel)
    (message : Dict) :
    Returns (publish py env channel message) ↔
      match publishRefusal py channel message with
      | some refusal => channel.isOpen = true → Encodable refusal
      | none => PublishSafe env channel message := by
  unfold publish
  cases hrefusal : publishRefusal py channel message with
  | some refusal => exact sendComponentResponse_returns_iff env channel refusal
  | none =>
    have hvalid := validTopicText_of_publishRefusal hrefusal
    have hbroadcast : ∀ payload, Returns (broadcast env (topicText message) payload channel.key) ↔
        ∀ receiver ∈ env.instances, receives (topicText message) receiver = true →
          Encodable (eventPacket (topicText message) payload channel.key) := by
      intro payload
      rw [broadcast_returns_iff]
      exact ⟨fun h => h hvalid, fun h _ => h⟩
    simp only [returns_bind, hbroadcast, PublishSafe, ← eventPayload_returns_iff env]
    constructor
    · rintro ⟨payload, hpayload, hsafe⟩
      refine ⟨⟨payload, hpayload⟩, fun payload' hpayload' => ?_⟩
      rw [Except.ok.inj (hpayload'.symm.trans hpayload)]
      exact hsafe
    · rintro ⟨⟨payload, hpayload⟩, hsafe⟩
      exact ⟨payload, hpayload, hsafe payload hpayload⟩

theorem takeReply_returns_iff (py : Interpreter) (channel : Channel) (message : Dict) :
    Returns (takeReply py channel message) ↔
      ∀ id, Dict.get? message "id" = some id → IntLike py id := by
  unfold takeReply
  cases hid : Dict.get? message "id" with
  | none => simp
  | some id =>
    simp only [Option.some.injEq, forall_eq']
    rw [returns_bind_of_forall fun _ => returns_pure _, toInt_returns_iff]

theorem handleTyped_returns_iff (py : Interpreter) (env : Surroundings) (channel : Channel)
    (message : Dict) :
    Returns (handleTyped py env channel message) ↔ ReaderSafe py env channel message := by
  unfold handleTyped ReaderSafe
  cases packetType message with
  | hello =>
    rw [returns_bind_of_forall fun _ => returns_pure _]
    exact sendPacket_returns_iff env channel _
  | ready => simp
  | subscribe =>
    have hopen := subscribe_isOpen py channel message
    cases hsub : subscribe py channel message with
    | mk channel' response =>
      rw [hsub] at hopen
      cases response with
      | none => simp
      | some response =>
        simp only [Option.some.injEq, forall_eq']
        rw [returns_bind_of_forall fun _ => returns_pure _, sendComponentResponse_returns_iff, hopen]
  | event =>
    rw [returns_bind_of_forall fun _ => returns_pure _]
    exact publish_returns_iff py env channel message
  | returned =>
    rw [returns_bind_of_forall fun _ => returns_pure _]
    exact takeReply_returns_iff py channel message
  | error =>
    rw [returns_bind_of_forall fun _ => returns_pure _]
    exact takeReply_returns_iff py channel message
  | call => simp
  | other => simp

/-- An interpreter that knows ASCII only; it reads the packets below as any other. -/
def asciiInterpreter : Interpreter where
  float := fun s => ⟨s, .finite 0⟩
  printable := fun c => 32 ≤ c && c < 127
  space := fun c => c == 32 || (9 ≤ c && c ≤ 13)
  decimal := fun c => if 48 ≤ c ∧ c ≤ 57 then some (c - 48) else none

def asciiBytes (s : String) : Bytes := s.toList.map Char.toUInt8

def idleChannel : Channel :=
  { key := lit "a:b", generation := 1, permissions := [], isOpen := true, ready := true,
    subscriptions := [], pendingCalls := [] }

def quietSurroundings : Surroundings :=
  { runtimeDir := lit "/run/msys", instances := [], unreachable := fun _ => false,
    reload := .ok .null }

end MsysCore.Core
