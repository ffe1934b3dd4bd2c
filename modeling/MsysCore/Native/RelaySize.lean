import MsysCore.Native.Router
import Mathlib.Data.Nat.Log

/-!
# Size of the packets the router relays

The router rebuilds every packet it relays: a call gains its source, deadline and
idempotence, a reply gets the caller's identifier back, an event gains its source.
`queue_packet` closes the session of the receiver when the rebuilt packet exceeds
`max_packet_bytes`, although the limit was only ever checked on the packet the
sender wrote.
-/

namespace MsysCore.Native.RelaySize

open Router (PendingCall Catalog callPacket)

/-! ## `queue_packet` -/

structure BrokerOptions where
  maxQueuedPacketsPerSession : ℕ
  maxQueuedBytesPerSession : ℕ

/-- The part of a broker session that `queue_packet` reads and writes. -/
structure Link where
  id : ℕ
  publicControl : Bool := false
  outgoing : List Bytes := []
  outgoingOffset : ℕ := 0
  queuedBytes : ℕ := 0

inductive SendResult
  | sent
  | wouldBlock (offset : ℕ)
  | failed

inductive CloseReason
  | oversize | backpressure | sendFailed
  deriving DecidableEq

/-- What the kernel answers to `send_one`, and what the callbacks of `close_session`
leave of the sessions: they may close and fill others but open none. -/
structure Environment where
  sendOne : Link → Bytes → SendResult
  callbacks : List Link → List Link
  callbacks_ids : ∀ links, ∀ l ∈ callbacks links, ∃ l' ∈ links, l'.id = l.id

/-- The sessions, and those `queue_packet` itself closed, with the reason. -/
structure Broker where
  links : List Link
  closed : List (ℕ × CloseReason) := []

def Broker.findSession (b : Broker) (id : ℕ) : Option Link :=
  b.links.find? fun link => link.id == id

def closeSession (env : Environment) (b : Broker) (id : ℕ) (reason : CloseReason) : Broker :=
  { links := env.callbacks (b.links.filter fun link => link.id != id)
    closed := b.closed ++ [(id, reason)] }

def enqueue (b : Broker) (id : ℕ) (packet : Bytes) (offset : ℕ) : Broker :=
  { b with links := b.links.map fun link =>
      if link.id = id then
        { link with
          outgoing := link.outgoing ++ [packet]
          outgoingOffset := if link.outgoing.isEmpty then offset else link.outgoingOffset
          queuedBytes := link.queuedBytes + packet.length }
      else link }

def queuePacket (options : BrokerOptions) (env : Environment) (b : Broker) (id : ℕ)
    (packet : Bytes) : Broker :=
  match b.findSession id with
  | none => b
  | some link =>
    if packet.isEmpty ∨ maxPacketBytes < packet.length then closeSession env b id .oversize
    else
      let packet := if link.publicControl then packet ++ ascii "\n" else packet
      if options.maxQueuedBytesPerSession < packet.length
          ∨ options.maxQueuedPacketsPerSession ≤ link.outgoing.length
          ∨ options.maxQueuedBytesPerSession - packet.length < link.queuedBytes then
        closeSession env b id .backpressure
      else if link.outgoing.isEmpty then
        match env.sendOne link packet with
        | .sent => b
        | .failed => closeSession env b id .sendFailed
        | .wouldBlock offset => enqueue b id packet offset
      else enqueue b id packet 0

/-- One packet to each of its receivers, as `broadcast` loops over the deliveries. -/
def sendAll (options : BrokerOptions) (env : Environment) (packet : Bytes) :
    Broker → List ℕ → Broker
  | b, [] => b
  | b, id :: recipients =>
    sendAll options env packet (queuePacket options env b id packet) recipients

/-! ## Relays -/

/-- How a message is relayed, with what the router adds to it. -/
inductive Relay
  /-- `deliver` of a pending call. -/
  | call (pending : PendingCall)
  /-- `provider_reply` to the caller's request. -/
  | reply (callerRequestId : ℕ)
  /-- `publish` of a component. -/
  | event (source : Bytes)
  /-- The `broadcast` method of the core, which relays the nested payload. -/
  | broadcast (topic source : Bytes)

/-- The relays of a decoded message. -/
def Relay.Carries : Relay → DecodedMessage → Prop
  | .call pending, m => m.type = .call ∧ pending.call = m
  | .reply _, m => m.type = .returned ∨ m.type = .error
  | .event _, m => m.type = .event
  | .broadcast topic _, m =>
    m.type = .call ∧ m.target = ascii "msys.core" ∧ m.method = ascii "broadcast"
      ∧ m.payloadTopic = some topic

/-- The packet the router hands to `queue_packet`. -/
def Relay.rebuilt (catalog : Catalog) (m : DecodedMessage) : Relay → Bytes
  | .call pending => callPacket catalog pending
  | .reply callerRequestId => providerReplyPacket callerRequestId m
  | .event source => eventPacket m.topic m.payloadJson source
  | .broadcast topic source => eventPacket topic (m.nestedPayloadJson.getD (ascii "{}")) source

/-- A packet that `decode_message` accepts, with one of its relays. -/
structure LegalRelay where
  packet : Bytes
  message : DecodedMessage
  relay : Relay
  accepted : decodeMessage packet = .ok message
  carries : relay.Carries message

/-- No session but the sender's is closed because the rebuilt packet is too large,
whatever the kernel and the callbacks do. -/
def RelaySafe (options : BrokerOptions) (catalog : Catalog) (r : LegalRelay) (sender : ℕ)
    (recipients : List ℕ) (links : List Link) : Prop :=
  ∀ (env : Environment) (id : ℕ), id ≠ sender →
    (id, CloseReason.oversize) ∉
      (sendAll options env (r.relay.rebuilt catalog r.message) { links := links }
        recipients).closed

/-! ## The size of a rebuilt packet -/

/-- Bytes `json_quote` writes for one byte. -/
def quoteCost (b : UInt8) : ℕ :=
  if b = '"'.toUInt8 ∨ b = '\\'.toUInt8 ∨ b = 0x08 ∨ b = 0x0c ∨ b = '\n'.toUInt8
      ∨ b = '\r'.toUInt8 ∨ b = '\t'.toUInt8 then 2
  else if b < 0x20 then 6
  else 1

def quotedSize (value : Bytes) : ℕ := 2 + (value.map quoteCost).sum

/-- Decimal digits of a number. -/
def digits (n : ℕ) : ℕ := Nat.log 10 n + 1

/-- The literals of a builder and the fields it splices. -/
def Relay.size (catalog : Catalog) (m : DecodedMessage) : Relay → ℕ
  | .call p =>
    (if p.call.idempotent.getD false then 95 else 96) + digits p.forwardedId
      + quotedSize (catalog.componentId p.provider) + quotedSize p.call.method
      + p.call.payloadJson.length + quotedSize p.source + digits p.deadlineMs
  | .reply callerRequestId =>
    if m.type = .returned then 34 + digits callerRequestId + m.payloadJson.length
    else 41 + digits callerRequestId + quotedSize m.code + quotedSize m.message
  | .event source => 46 + quotedSize m.topic + quotedSize source + m.payloadJson.length
  | .broadcast topic source =>
    46 + quotedSize topic + quotedSize source + (m.nestedPayloadJson.getD (ascii "{}")).length

theorem quoteByte_length (b : UInt8) : (quoteByte b).length = quoteCost b := by
  unfold quoteByte quoteCost
  split_ifs <;> simp_all [ascii]

theorem jsonQuote_length (value : Bytes) : (jsonQuote value).length = quotedSize value := by
  have hbody : (value.flatMap quoteByte).length = (value.map quoteCost).sum := by
    rw [List.length_flatMap]
    simp only [quoteByte_length]
  simp [jsonQuote, quotedSize, hbody, ascii]
  omega

theorem decimal_length (n : ℕ) : (decimal n).length = digits n := by
  induction n using Nat.strong_induction_on with
  | _ n ih =>
    by_cases h : n < 10
    · rw [decimal, Nat.toDigits_of_lt_base h, digits, Nat.log_of_lt h]
      rfl
    · push Not at h
      have hrest := ih (n / 10) (by omega)
      rw [decimal, List.length_map] at hrest
      rw [decimal, Nat.toDigits_of_base_le (by omega) h, List.map_append, List.length_append,
        List.length_map, hrest, digits, digits, Nat.log_of_one_lt_of_le (by omega) h]
      rfl

theorem rebuilt_length (catalog : Catalog) (m : DecodedMessage) (relay : Relay) :
    (relay.rebuilt catalog m).length = relay.size catalog m := by
  cases relay with
  | call p =>
    cases h : p.call.idempotent.getD false <;>
      simp [Relay.rebuilt, Relay.size, callPacket, jsonQuote_length, decimal_length, boolean, h,
        ascii] <;> omega
  | reply callerRequestId =>
    by_cases h : m.type = .returned <;>
      simp [Relay.rebuilt, Relay.size, providerReplyPacket, returnPacket, errorPacket,
        jsonQuote_length, decimal_length, h, ascii] <;> omega
  | event source =>
    simp [Relay.rebuilt, Relay.size, eventPacket, jsonQuote_length, ascii]
    omega
  | broadcast topic source =>
    simp [Relay.rebuilt, Relay.size, eventPacket, jsonQuote_length, ascii]
    omega

/-! ## When a receiver is closed -/

theorem size_pos (catalog : Catalog) (m : DecodedMessage) (relay : Relay) :
    0 < relay.size catalog m := by
  cases relay with
  | call p =>
    simp only [Relay.size]
    split_ifs <;> omega
  | reply callerRequestId =>
    simp only [Relay.size]
    split_ifs <;> omega
  | event source =>
    simp only [Relay.size]
    omega
  | broadcast topic source =>
    simp only [Relay.size]
    omega

/-- The test of `queue_packet` that closes the receiver. -/
def Oversize (packet : Bytes) : Prop := packet.isEmpty ∨ maxPacketBytes < packet.length

theorem oversize_iff (catalog : Catalog) (m : DecodedMessage) (relay : Relay) :
    Oversize (relay.rebuilt catalog m) ↔ maxPacketBytes < relay.size catalog m := by
  have hpos := size_pos catalog m relay
  rw [← rebuilt_length] at hpos ⊢
  simp [Oversize, List.isEmpty_iff, List.ne_nil_of_length_pos hpos]

def Broker.Connected (b : Broker) (id : ℕ) : Prop := ∃ link ∈ b.links, link.id = id

theorem findSession_eq_none {b : Broker} {id : ℕ} :
    b.findSession id = none ↔ ¬ b.Connected id := by
  simp [Broker.findSession, Broker.Connected]

section Sends

variable {options : BrokerOptions} {env : Environment} {packet : Bytes} {b : Broker} {id : ℕ}

/-- What one call of `queue_packet` can do. -/
theorem queuePacket_cases (options : BrokerOptions) (env : Environment) (packet : Bytes)
    (b : Broker) (id : ℕ) :
    queuePacket options env b id packet = b ∨
    (∃ queued offset, queuePacket options env b id packet = enqueue b id queued offset) ∨
    (∃ reason, b.Connected id ∧ queuePacket options env b id packet = closeSession env b id reason ∧
      (reason = .oversize → Oversize packet)) := by
  by_cases hconn : b.Connected id
  · unfold queuePacket
    split
    · exact .inl rfl
    · dsimp only
      split_ifs with hsize
      -- a public session appends its newline, which makes the branches after it come twice
      · exact .inr (.inr ⟨_, hconn, rfl, fun _ => hsize⟩)
      · exact .inr (.inr ⟨_, hconn, rfl, (by rintro ⟨⟩)⟩)
      · split
        · exact .inl rfl
        · exact .inr (.inr ⟨_, hconn, rfl, (by rintro ⟨⟩)⟩)
        · exact .inr (.inl ⟨_, _, rfl⟩)
      · exact .inr (.inl ⟨_, _, rfl⟩)
      · exact .inr (.inr ⟨_, hconn, rfl, (by rintro ⟨⟩)⟩)
      · split
        · exact .inl rfl
        · exact .inr (.inr ⟨_, hconn, rfl, (by rintro ⟨⟩)⟩)
        · exact .inr (.inl ⟨_, _, rfl⟩)
      · exact .inr (.inl ⟨_, _, rfl⟩)
  · rw [queuePacket, findSession_eq_none.mpr hconn]
    exact .inl rfl

/-- An oversized packet closes its receiver. -/
theorem queuePacket_oversize (hsize : Oversize packet) (hconn : b.Connected id) :
    queuePacket options env b id packet = closeSession env b id .oversize := by
  unfold queuePacket
  split
  next hfind => exact absurd hconn (findSession_eq_none.mp hfind)
  next => exact if_pos hsize

theorem queuePacket_closed_subset :
    ∀ c ∈ b.closed, c ∈ (queuePacket options env b id packet).closed := by
  intro c hc
  rcases queuePacket_cases options env packet b id with h | ⟨_, _, h⟩ | ⟨_, _, h, _⟩ <;> rw [h]
  · exact hc
  · exact hc
  · exact List.mem_append_left _ hc

theorem sendAll_closed_subset (recipients : List ℕ) : ∀ b : Broker,
    ∀ c ∈ b.closed, c ∈ (sendAll options env packet b recipients).closed := by
  induction recipients with
  | nil => exact fun _ _ hc => hc
  | cons id recipients ih => exact fun b c hc => ih _ c (queuePacket_closed_subset c hc)

/-- A send closes only its receiver, which was connected, and as oversized only an
oversized packet does. -/
theorem queuePacket_closed {other : ℕ} {reason : CloseReason}
    (h : (other, reason) ∈ (queuePacket options env b id packet).closed) :
    (other, reason) ∈ b.closed ∨
      other = id ∧ b.Connected id ∧ (reason = .oversize → Oversize packet) := by
  rcases queuePacket_cases options env packet b id with he | ⟨_, _, he⟩ | ⟨_, hconn, he, hover⟩ <;>
    rw [he] at h
  · exact .inl h
  · exact .inl h
  · rcases List.mem_append.mp h with h | h
    · exact .inl h
    · obtain ⟨rfl, rfl⟩ := Prod.mk.inj (List.mem_singleton.mp h)
      exact .inr ⟨rfl, hconn, hover⟩

/-- No send connects a session. -/
theorem queuePacket_connected {other : ℕ}
    (h : (queuePacket options env b id packet).Connected other) : b.Connected other := by
  rcases queuePacket_cases options env packet b id with he | ⟨_, _, he⟩ | ⟨_, _, he, _⟩ <;>
    rw [he] at h
  · exact h
  · obtain ⟨link, hlink, rfl⟩ := h
    obtain ⟨link', hlink', rfl⟩ := List.mem_map.mp hlink
    refine ⟨link', hlink', ?_⟩
    split_ifs <;> rfl
  · obtain ⟨link, hlink, rfl⟩ := h
    obtain ⟨link', hlink', hid⟩ := env.callbacks_ids _ link hlink
    exact ⟨link', List.mem_of_mem_filter hlink', hid⟩

theorem sendAll_closed {other : ℕ} {reason : CloseReason} (recipients : List ℕ) :
    ∀ b : Broker, (other, reason) ∈ (sendAll options env packet b recipients).closed →
      (other, reason) ∈ b.closed ∨
        other ∈ recipients ∧ b.Connected other ∧ (reason = .oversize → Oversize packet) := by
  induction recipients with
  | nil => exact fun _ h => .inl h
  | cons id recipients ih =>
    intro b h
    rcases ih _ h with h | ⟨hmem, hconn, hover⟩
    · rcases queuePacket_closed h with h | ⟨rfl, hconn, hover⟩
      · exact .inl h
      · exact .inr ⟨List.mem_cons_self, hconn, hover⟩
    · exact .inr ⟨List.mem_cons_of_mem _ hmem, queuePacket_connected hconn, hover⟩

/-- Callbacks that leave the other sessions alone. -/
def quiet : Environment where
  sendOne _ _ := .sent
  callbacks links := links
  callbacks_ids _ l hl := ⟨l, hl, rfl⟩

theorem closeSession_quiet_connected {other : ℕ} {reason : CloseReason} (hne : other ≠ id)
    (h : b.Connected other) : (closeSession quiet b id reason).Connected other := by
  obtain ⟨link, hlink, rfl⟩ := h
  exact ⟨link, List.mem_filter.mpr ⟨hlink, by simpa using hne⟩, rfl⟩

/-- An oversized packet closes every connected receiver in turn. -/
theorem sendAll_oversize (hsize : Oversize packet) {other : ℕ} (recipients : List ℕ) :
    ∀ b : Broker, other ∈ recipients → b.Connected other →
      (other, CloseReason.oversize) ∈ (sendAll options quiet packet b recipients).closed := by
  induction recipients with
  | nil => exact fun _ h _ => absurd h List.not_mem_nil
  | cons id recipients ih =>
    intro b hmem hconn
    by_cases hid : other = id
    · subst hid
      apply sendAll_closed_subset recipients (queuePacket options quiet b other packet)
      rw [queuePacket_oversize hsize hconn]
      exact List.mem_append_right _ (List.mem_singleton.mpr rfl)
    · apply ih _ ((List.mem_cons.mp hmem).resolve_left hid)
      by_cases hturn : b.Connected id
      · rw [queuePacket_oversize hsize hturn]
        exact closeSession_quiet_connected hid hconn
      · rw [queuePacket, findSession_eq_none.mpr hturn]
        exact hconn

end Sends

/-- Relaying an accepted packet spares every other party exactly when the rebuilt packet
fits the limit, or no other party is connected to receive it. -/
theorem relaySafe_iff (options : BrokerOptions) (catalog : Catalog) (r : LegalRelay)
    (sender : ℕ) (recipients : List ℕ) (links : List Link) :
    RelaySafe options catalog r sender recipients links ↔
      (∀ id ∈ recipients, id ≠ sender → ∀ link ∈ links, link.id ≠ id) ∨
        r.relay.size catalog r.message ≤ maxPacketBytes := by
  rw [← not_lt, ← oversize_iff]
  constructor
  · intro hsafe
    by_contra hcond
    push Not at hcond
    obtain ⟨⟨id, hid, hother, link, hlink, hconn⟩, hover⟩ := hcond
    exact hsafe quiet id hother
      (sendAll_oversize hover recipients _ hid ⟨link, hlink, hconn⟩)
  · intro hcond env id hother hclosed
    rcases sendAll_closed recipients _ hclosed with h | ⟨hid, ⟨link, hlink, hconn⟩, hover⟩
    · exact absurd h List.not_mem_nil
    · rcases hcond with halone | hfits
      · exact halone id hid hother link hlink hconn
      · exact hfits (hover rfl)

/-! ## An event at the limit

The payload of the event is an empty object padded with spaces; `decode_message`
keeps the padding, so the packet rebuilt with the source no longer fits. -/

def padding (n : ℕ) : Bytes := List.replicate n ' '.toUInt8

def paddedPayload (n : ℕ) : Bytes := '\x7b'.toUInt8 :: (padding n ++ ascii "\x7d")

theorem paddedPayload_length (n : ℕ) : (paddedPayload n).length = n + 2 := by
  simp [paddedPayload, padding, ascii]

def paddedEvent (n : ℕ) : Bytes :=
  ascii "\x7b\"type\":\"event\",\"topic\":\"t\",\"payload\":" ++ paddedPayload n ++ ascii "\x7d"

theorem validUtf8Fuel_ascii (value : Bytes) : ∀ fuel, value.length ≤ fuel →
    (∀ b ∈ value, b ≤ 0x7f) → validUtf8Fuel fuel value = true := by
  induction value with
  | nil =>
    intro fuel _ _
    cases fuel <;> rfl
  | cons b value ih =>
    intro fuel hfuel hascii
    obtain ⟨fuel, rfl⟩ : ∃ k, fuel = k + 1 := ⟨fuel - 1, by simp at hfuel; omega⟩
    rw [validUtf8Fuel, if_pos (hascii b List.mem_cons_self)]
    exact ih fuel (by simpa using hfuel) fun c hc => hascii c (List.mem_cons_of_mem _ hc)

theorem le_of_all {bs : Bytes} {b : UInt8} (hb : b ∈ bs)
    (h : bs.all (fun c => c ≤ 0x7f) = true) : b ≤ 0x7f := by
  simpa using List.all_eq_true.mp h b hb

/-- Characters that stand for themselves in a JSON string. -/
def PlainText (value : Bytes) : Prop :=
  ∀ b ∈ value, b ≠ '"'.toUInt8 ∧ b ≠ '\\'.toUInt8 ∧ ¬ b < 0x20

instance (value : Bytes) : Decidable (PlainText value) :=
  List.decidableBAll _ value

theorem stringBody_plain (value : Bytes) (r : Bytes) (hplain : PlainText value) :
    ∀ fuel output, value.length < fuel →
      stringBody fuel output (value ++ '"'.toUInt8 :: r) = .ok (output ++ value, r) := by
  induction value with
  | nil =>
    intro fuel output hfuel
    obtain ⟨fuel, rfl⟩ : ∃ k, fuel = k + 1 := ⟨fuel - 1, by simp at hfuel; omega⟩
    simp [stringBody]
  | cons b value ih =>
    intro fuel output hfuel
    obtain ⟨fuel, rfl⟩ : ∃ k, fuel = k + 1 := ⟨fuel - 1, by simp at hfuel; omega⟩
    obtain ⟨hquote, hslash, hlow⟩ := hplain b List.mem_cons_self
    have hrest := ih (fun c hc => hplain c (List.mem_cons_of_mem _ hc)) fuel (output ++ [b])
      (by simpa using hfuel)
    rw [List.cons_append, stringBody.eq_def]
    simp only [if_neg hquote, if_neg hlow, if_pos hslash, hrest]
    rw [List.append_assoc, List.singleton_append]

theorem parseString_plain {value : Bytes} (r : Bytes) (hplain : PlainText value) :
    parseString ('"'.toUInt8 :: (value ++ '"'.toUInt8 :: r)) = .ok (value, r) := by
  have hopen : parseString ('"'.toUInt8 :: (value ++ '"'.toUInt8 :: r)) =
      stringBody (value ++ '"'.toUInt8 :: r).length [] (value ++ '"'.toUInt8 :: r) := by
    rfl
  rw [hopen, stringBody_plain value r hplain _ [] (by simp)]
  rfl

/-- One turn of the field loop, from the key on. -/
theorem topFields_turn (fuel : ℕ) (key : Bytes) {e e' : Envelope} {r r' : Bytes}
    (hplain : PlainText key) (hroom : e.fields.length < maxJsonContainerEntries)
    (hnew : key ∉ e.fields)
    (hvalue : topField fuel key { e with fields := key :: e.fields } (skipSpace r) =
      .ok (e', r')) :
    topFields (fuel + 1) e ('"'.toUInt8 :: (key ++ '"'.toUInt8 :: ':'.toUInt8 :: r)) =
      match consume '\x7d'.toUInt8 (skipSpace r') with
      | some r => .ok (e', r)
      | none => (expect ',' (skipSpace r')).bind fun r => topFields fuel e' (skipSpace r) := by
  rw [topFields, if_neg (Nat.not_le.mpr hroom), parseString_plain _ hplain]
  change (if key ∈ e.fields then _ else _) = _
  rw [if_neg hnew]
  change (topField fuel key { e with fields := key :: e.fields } (skipSpace r) >>= _) = _
  rw [hvalue]
  rfl

theorem skipSpace_padding (n : ℕ) (r : Bytes) : skipSpace (padding n ++ r) = skipSpace r := by
  induction n with
  | zero => rfl
  | succ n ih => exact ih

theorem parsePayload_padded (fuel n : ℕ) (m : DecodedMessage) (r : Bytes) :
    parsePayload fuel m (paddedPayload n ++ r) = .ok (m, r) := by
  have hclose : skipSpace (padding n ++ ('\x7d'.toUInt8 :: r)) = '\x7d'.toUInt8 :: r := by
    rw [skipSpace_padding]
    rfl
  have hopen : paddedPayload n ++ r = '\x7b'.toUInt8 :: (padding n ++ ('\x7d'.toUInt8 :: r)) := by
    simp [paddedPayload, ascii]
  rw [hopen]
  change (match consume '\x7d'.toUInt8 (skipSpace (padding n ++ ('\x7d'.toUInt8 :: r))) with
    | some r => _
    | none => _) = _
  rw [hclose]
  rfl

theorem topField_padded (fuel n : ℕ) (e : Envelope) (r : Bytes) :
    topField fuel (ascii "payload") e (paddedPayload n ++ r) =
      .ok ({ e with message := { e.message with payloadJson := paddedPayload n } }, r) := by
  change (parsePayload fuel e.message (paddedPayload n ++ r) >>= _) = _
  rw [parsePayload_padded]
  change Except.ok _ = _
  rw [consumed_append]

def paddedMessage (n : ℕ) : DecodedMessage :=
  { type := .event, topic := ascii "t", payloadJson := paddedPayload n }

theorem topFields_padded (fuel n : ℕ) :
    topFields (fuel + 3) {} (ascii "\"type\":\"event\",\"topic\":\"t\",\"payload\":" ++
      (paddedPayload n ++ ascii "\x7d")) =
    .ok ({ fields := [ascii "payload", ascii "topic", ascii "type"], typeName := ascii "event",
           message := { topic := ascii "t", payloadJson := paddedPayload n } }, []) := by
  have hroom : ∀ k, k < 3 → k < maxJsonContainerEntries := by
    intro k hk
    unfold maxJsonContainerEntries
    omega
  have hpayload := topFields_turn fuel (ascii "payload") (r := paddedPayload n ++ ascii "\x7d")
    (e := { fields := [ascii "topic", ascii "type"], typeName := ascii "event",
            message := { topic := ascii "t" } })
    (by decide) (hroom 2 (by omega)) (by decide) (topField_padded fuel n _ (ascii "\x7d"))
  have htopic := topFields_turn (fuel + 1) (ascii "topic")
    (e := { fields := [ascii "type"], typeName := ascii "event" })
    (r := ascii "\"t\",\"payload\":" ++ (paddedPayload n ++ ascii "\x7d"))
    (by decide) (hroom 1 (by omega)) (by decide) rfl
  have htype := topFields_turn (fuel + 2) (ascii "type") (e := {})
    (r := ascii "\"event\",\"topic\":\"t\",\"payload\":" ++ (paddedPayload n ++ ascii "\x7d"))
    (by decide) (hroom 0 (by omega)) (by decide) rfl
  refine htype.trans (Eq.trans ?_ (htopic.trans (Eq.trans ?_ hpayload)))
  · rfl
  · rfl

theorem paddedEvent_accepted (n : ℕ) (hn : n + 41 ≤ maxPacketBytes) :
    decodeMessage (paddedEvent n) = .ok (paddedMessage n) := by
  have hlength : (paddedEvent n).length = n + 41 := by
    simp [paddedEvent, paddedPayload_length, ascii]
  have hutf8 : validUtf8 (paddedEvent n) = true := by
    apply validUtf8Fuel_ascii _ _ le_rfl
    intro b hb
    simp only [paddedEvent, paddedPayload, padding, List.mem_append, List.mem_cons,
      List.mem_replicate] at hb
    rcases hb with (hb | rfl | ⟨-, rfl⟩ | hb) | hb
    · exact le_of_all hb rfl
    · decide
    · decide
    · exact le_of_all hb rfl
    · exact le_of_all hb rfl
  have hfields := topFields_padded (2 * n + 79) n
  have hturns : 2 * (n + 41) = 2 * n + 79 + 3 := by omega
  rw [decodeMessage, if_neg (by omega), parse, if_neg (by simp [paddedEvent, ascii]),
    if_neg (by simp [hutf8]), hlength, hturns]
  change (topFields (2 * n + 79 + 3) {} (ascii "\"type\":\"event\",\"topic\":\"t\",\"payload\":" ++
    paddedPayload n ++ ascii "\x7d") >>= _) = _
  rw [List.append_assoc, hfields]
  rfl

/-- A legal event of exactly `max_packet_bytes`, published by `app`. -/
def fullEvent : LegalRelay where
  packet := paddedEvent 262103
  message := paddedMessage 262103
  relay := .event (ascii "app")
  accepted := paddedEvent_accepted 262103 (by decide)
  carries := rfl

theorem paddedEvent_size (catalog : Catalog) (n : ℕ) (hn : 262103 ≤ n) :
    maxPacketBytes < (Relay.event (ascii "app")).size catalog (paddedMessage n) := by
  have htopic : quotedSize (ascii "t") = 3 := by decide
  have hsource : quotedSize (ascii "app") = 5 := by decide
  simp only [paddedMessage, Relay.size, paddedPayload_length, htopic, hsource, maxPacketBytes]
  omega

theorem fullEvent_oversize (catalog : Catalog) :
    Oversize (fullEvent.relay.rebuilt catalog fullEvent.message) :=
  (oversize_iff catalog _ _).mpr (paddedEvent_size catalog 262103 le_rfl)

/-- Session 1 publishes it under the default limits; its subscribers 2 and 3 are
disconnected. -/
theorem fullEvent_closes_subscribers :
    ¬ RelaySafe ⟨128, 512 * 1024⟩ ⟨fun _ => ascii "app", fun _ => none, fun _ => none, fun _ => none⟩
      fullEvent 1 [2, 3] [{ id := 1 }, { id := 2 }, { id := 3 }] := by
  intro hsafe
  exact hsafe quiet 2 (by decide)
    (sendAll_oversize (fullEvent_oversize _) [2, 3] _ (by decide) ⟨{ id := 2 }, by simp, rfl⟩)

end MsysCore.Native.RelaySize
