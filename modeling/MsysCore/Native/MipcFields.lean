import MsysCore.Native.MipcValues

/-!
# The fields of a packet and of its payload

Each field that the decoder knows has a slot in the message. What its value may be, and
what it makes of the slot, is written once for each key; the two field loops of the
decoder fill the slots accordingly.
-/

namespace MsysCore.Native

open JsonGrammar FieldReading

/-- A table of names gives a key to one name only. -/
theorem named_injective {α : Type} {table : List (String × α)}
    (htable : (table.map Prod.snd).Nodup) {a b : Bytes} {key : α} (ha : named table a = some key)
    (hb : named table b = some key) : a = b := by
  obtain ⟨x, hx, rfl⟩ := Option.map_eq_some_iff.mp ha
  obtain ⟨y, hy, heq⟩ := Option.map_eq_some_iff.mp hb
  have hsame : y = x :=
    List.inj_on_of_nodup_map htable (List.mem_of_find?_eq_some hy) (List.mem_of_find?_eq_some hx) heq
  have hxa := List.find?_some hx
  have hyb := List.find?_some hy
  rw [hsame] at hyb
  exact (beq_iff_eq.mp hxa).symm.trans (beq_iff_eq.mp hyb)

/-! ## The payload -/

/-- The part of a message that its payload sets. -/
structure Payload where
  json : Bytes
  component : Option Bytes
  role : Option Bytes
  topic : Option Bytes
  provider : Option Bytes
  action : Option Bytes
  nested : Option Bytes

def DecodedMessage.payload (m : DecodedMessage) : Payload where
  json := m.payloadJson
  component := m.payloadComponent
  role := m.payloadRole
  topic := m.payloadTopic
  provider := m.payloadProvider
  action := m.payloadAction
  nested := m.nestedPayloadJson

def DecodedMessage.withPayload (m : DecodedMessage) (p : Payload) : DecodedMessage :=
  { m with
    payloadJson := p.json
    payloadComponent := p.component
    payloadRole := p.role
    payloadTopic := p.topic
    payloadProvider := p.provider
    payloadAction := p.action
    nestedPayloadJson := p.nested }

/-- A string that is not empty, and not longer than the limit. -/
def Bounded (limit : ℕ) (s : Bytes) : Prop := s ≠ [] ∧ s.length ≤ limit

/-- A string field of the payload with a limit. -/
def ReadsText (limit : ℕ) (v : Bytes) (x : Option Bytes) : Prop :=
  ∃ s, Quoted v s ∧ Bounded limit s ∧ x = some s

def payloadGet : PayloadKey → Payload → Option Bytes
  | .component => Payload.component
  | .role => Payload.role
  | .topic => Payload.topic
  | .provider => Payload.provider
  | .action => Payload.action
  | .payload => Payload.nested

def payloadPut : PayloadKey → Option Bytes → Payload → Payload
  | .component, x, p => { p with component := x }
  | .role, x, p => { p with role := x }
  | .topic, x, p => { p with topic := x }
  | .provider, x, p => { p with provider := x }
  | .action, x, p => { p with action := x }
  | .payload, x, p => { p with nested := x }

/-- What the payload may say under a key, and what is kept of it. -/
def payloadReads : PayloadKey → Bytes → Option Bytes → Prop
  | .component, v, x => ReadsText 128 v x
  | .role, v, x => ReadsText 256 v x
  | .topic, v, x => ReadsText 256 v x
  | .provider, v, x => ReadsText 256 v x
  | .action, v, x => ReadsText 256 v x
  | .payload, v, x => Within jsonLimits 2 v ∧ x = some v

/-- The reader of a payload; values of other keys are only skipped. -/
def payloadReader : Reader PayloadKey Bytes Bytes Payload where
  Value := fun _ => Option Bytes
  get := payloadGet
  put := payloadPut
  note := fun _ p => p
  Rest := Bytes
  rest := Payload.json
  get_put := by
    intro key x p
    cases key <;> rfl
  get_put_of_ne := by
    intro key other hne x p
    cases key <;> cases other <;> first | rfl | exact absurd rfl hne
  get_note := fun _ _ _ => rfl
  rest_put := by
    intro key x p
    cases key <;> rfl
  rest_note := by
    intro name p q h
    exact h
  ext := by
    rintro ⟨json, component, role, topic, provider, action, nested⟩ q hget (rfl : json = q.json)
    have hcomponent : component = q.component := hget .component
    have hrole : role = q.role := hget .role
    have htopic : topic = q.topic := hget .topic
    have hprovider : provider = q.provider := hget .provider
    have haction : action = q.action := hget .action
    have hnested : nested = q.nested := hget .payload
    subst hcomponent hrole htopic hprovider haction hnested
    rfl
  classify := named payloadKeys
  classify_injective := named_injective (by decide)
  Reads := fun key v _ x => payloadReads key v x
  Unread := Within jsonLimits 2

/-- A field of the payload, read into the message. -/
def PayloadStep (key v : Bytes) (m m' : DecodedMessage) : Prop :=
  ∃ p, FieldStep payloadReader key v m.payload p ∧ m' = m.withPayload p

variable {fuel : ℕ} {key v r r' : Bytes} {m m' : DecodedMessage} {fields : List (Bytes × Bytes)}

theorem within_of_quoted {level : ℕ} (hlevel : level ≤ maxJsonDepth) {t s : Bytes}
    (h : Quoted t s) : Within jsonLimits level t :=
  .text hlevel h

theorem payloadReads.within {key : PayloadKey} {x : Option Bytes} (h : payloadReads key v x) :
    Within jsonLimits 2 v := by
  cases key with
  | payload => exact h.1
  | component | role | topic | provider | action =>
    obtain ⟨s, hs, -, -⟩ := h
    exact within_of_quoted (by decide) hs

theorem PayloadStep.within (h : PayloadStep key v m m') : Within jsonLimits 2 v := by
  obtain ⟨p, hstep, -⟩ := h
  cases hstep with
  | known _ hx => exact payloadReads.within hx
  | unknown _ hv => exact hv

theorem chain_payload : Chain PayloadStep fields m m' ↔
    ∃ p, Chain (FieldStep payloadReader) fields m.payload p ∧ m' = m.withPayload p := by
  induction fields generalizing m with
  | nil =>
    constructor
    · intro h
      cases h
      exact ⟨_, .nil, rfl⟩
    · rintro ⟨p, h, rfl⟩
      cases h
      exact .nil
  | cons field fields ih =>
    constructor
    · intro h
      cases h with
      | cons hstep hrest =>
        obtain ⟨p, hp, rfl⟩ := hstep
        obtain ⟨q, hq, rfl⟩ := ih.mp hrest
        exact ⟨q, .cons hp hq, rfl⟩
    · rintro ⟨q, h, rfl⟩
      cases h with
      | @cons _ _ _ _ p _ hp hq => exact .cons ⟨p, hp, rfl⟩ (ih.mpr ⟨q, hq, rfl⟩)

theorem bounded_iff {limit : ℕ} {s : Bytes} :
    Bounded limit s ↔ ¬ (s.isEmpty = true ∨ limit < s.length) := by
  rw [Bounded, not_or, List.isEmpty_iff, Nat.not_lt]

theorem payloadText_eq_ok {field : String} {s : Bytes} :
    payloadText field r = .ok (s, r') ↔ ∃ t, Quoted t s ∧ Bounded 256 s ∧ r = t ++ r' := by
  unfold payloadText validatePayloadString
  constructor
  · intro h
    obtain ⟨⟨s₁, r₁⟩, hs, h₁⟩ := bind_eq_ok.mp h
    obtain ⟨t, ht, rfl⟩ := parseString_eq_ok.mp hs
    obtain ⟨u, hlength, h₂⟩ := bind_eq_ok.mp h₁
    cases h₂
    refine ⟨t, ht, bounded_iff.mpr fun hbad => ?_, rfl⟩
    simp only [if_pos hbad] at hlength
    exact absurd hlength fail_ne_ok
  · rintro ⟨t, ht, hlength, rfl⟩
    refine bind_eq_ok.mpr ⟨(s, r'), parseString_eq_ok.mpr ⟨t, ht, rfl⟩, ?_⟩
    refine bind_eq_ok.mpr ⟨(), ?_, rfl⟩
    exact if_neg (bounded_iff.mp hlength)

theorem payloadField_sound (h : payloadField fuel key m r = .ok (m', r')) :
    ∃ v, PayloadStep key v m m' ∧ r = v ++ r' := by
  have hknown : ∀ {k : PayloadKey} {v : Bytes} {x : Option Bytes}, named payloadKeys key = some k →
      payloadReads k v x → PayloadStep key v m (m.withPayload (payloadPut k x m.payload)) :=
    fun hname hx => ⟨_, .known hname hx, rfl⟩
  unfold payloadField at h
  split at h
  · rename_i hname
    obtain ⟨⟨s, r₁⟩, hs, h₁⟩ := bind_eq_ok.mp h
    obtain ⟨t, ht, rfl⟩ := parseString_eq_ok.mp hs
    simp only at h₁
    split_ifs at h₁ with hlength
    · exact absurd h₁ fail_ne_ok
    · cases h₁
      exact ⟨t, hknown hname ⟨s, ht, bounded_iff.mpr hlength, rfl⟩, rfl⟩
  iterate 4
    · rename_i hname
      obtain ⟨⟨s, r₁⟩, hs, h₁⟩ := bind_eq_ok.mp h
      cases h₁
      obtain ⟨t, ht, hlength, hr⟩ := payloadText_eq_ok.mp hs
      exact ⟨t, hknown hname ⟨s, ht, hlength, rfl⟩, hr⟩
  · rename_i hname
    obtain ⟨r₁, hvalue, h₁⟩ := bind_eq_ok.mp h
    cases h₁
    obtain ⟨v, hv, rfl⟩ := skipValue_sound fuel hvalue
    rw [consumed_append]
    exact ⟨v, hknown hname ⟨hv, rfl⟩, rfl⟩
  · rename_i hname
    obtain ⟨r₁, hvalue, h₁⟩ := bind_eq_ok.mp h
    cases h₁
    obtain ⟨v, hv, hr⟩ := skipValue_sound fuel hvalue
    exact ⟨v, ⟨m.payload, .unknown hname hv, rfl⟩, hr⟩

theorem payloadField_complete (h : PayloadStep key v m m') (hfuel : v.length ≤ fuel)
    (hr : Delimits r) : payloadField fuel key m (v ++ r) = .ok (m', r) := by
  obtain ⟨p, hstep, rfl⟩ := h
  unfold payloadField
  cases hstep with
  | unknown hname hv =>
    have hname' : named payloadKeys key = none := hname
    simp only [hname']
    exact bind_eq_ok.mpr ⟨r, skipValue_complete hv hfuel hr, rfl⟩
  | @known k x hname hx =>
    have hname' : named payloadKeys key = some k := hname
    cases k with
    | component =>
      obtain ⟨s, hs, hlength, rfl⟩ := hx
      simp only [hname']
      refine bind_eq_ok.mpr ⟨(s, r), parseString_eq_ok.mpr ⟨v, hs, rfl⟩, ?_⟩
      simp only [if_neg (bounded_iff.mp hlength)]
      rfl
    | payload =>
      obtain ⟨hv, rfl⟩ := hx
      simp only [hname']
      refine bind_eq_ok.mpr ⟨r, skipValue_complete hv hfuel hr, ?_⟩
      rw [consumed_append]
      rfl
    | role | topic | provider | action =>
      obtain ⟨s, hs, hlength, rfl⟩ := hx
      simp only [hname']
      exact bind_eq_ok.mpr ⟨(s, r), payloadText_eq_ok.mpr ⟨v, hs, hlength, rfl⟩, rfl⟩

theorem payloadFields_eq (fuel : ℕ) : ∀ (seen : List Bytes) (m : DecodedMessage) (r : Bytes),
    payloadFields fuel seen m r = objectLoop "payload object has too many fields"
      "duplicate payload JSON field: " payloadField fuel seen m r := by
  induction fuel with
  | zero =>
    intro seen m r
    rfl
  | succ fuel ih =>
    intro seen m r
    rw [payloadFields, objectLoop]
    unfold closeOrNext
    simp only [ih]
    all_goals rfl

/-- A payload object, read into the message. -/
def PayloadObject (v : Bytes) (p q : Payload) : Prop :=
  ∃ fields, ObjectWithin jsonLimits 1 v fields ∧ Filled payloadReader fields p q

theorem parsePayload_sound (h : parsePayload fuel m r = .ok (m', r')) :
    ∃ v p, PayloadObject v m.payload p ∧ m' = m.withPayload p ∧ r = v ++ r' := by
  obtain ⟨r₁, hopen, h₁⟩ := bind_eq_ok.mp h
  rw [expect_eq_ok.mp hopen]
  split at h₁
  · rename_i r₂ hclose
    cases h₁
    obtain ⟨a, ha, rfl⟩ := skipSpace_append (u := [0x7d]) (consume_eq_some.mp hclose)
    refine ⟨_, m.payload, ⟨[], ⟨by decide, .empty ha, List.nodup_nil, Nat.zero_le _, ?_⟩, .nil⟩,
      rfl, by simp; rfl⟩
    exact fun _ hfield => absurd hfield List.not_mem_nil
  · rw [payloadFields_eq] at h₁
    have hentry : ∀ fuel' < fuel, ∀ {key m r m' r'},
        payloadField fuel' key m r = .ok (m', r') → ∃ v, PayloadStep key v m m' ∧ r = v ++ r' :=
      fun _ _ => payloadField_sound
    obtain ⟨w, fields, hw, hchain, hfresh, hr⟩ := objectLoop_sound fuel hentry h₁
    obtain ⟨a, ha, rfl⟩ := skipSpace_append hr
    obtain ⟨p, hp, rfl⟩ := chain_payload.mp hchain
    have hvalues : ∀ field ∈ fields, Within jsonLimits 2 field.2 :=
      hchain.values fun _ _ _ _ hstep => hstep.within
    exact ⟨_, p, ⟨fields, ⟨by decide, .fields ha hw, hfresh.distinct, hfresh.length, hvalues⟩,
      (chain_iff_filled hfresh.distinct).mp hp⟩, rfl, by simp; rfl⟩

theorem parsePayload_complete {p : Payload} (h : PayloadObject v m.payload p)
    (hfuel : v.length ≤ fuel) : parsePayload fuel m (v ++ r) = .ok (m.withPayload p, r) := by
  obtain ⟨fields, ⟨-, htext, hdistinct, hlength, hvalues⟩, hfilled⟩ := h
  cases htext with
  | @empty a ha =>
    rw [← hfilled.eq_of_nil]
    have hword : 0x7b :: (a ++ [0x7d]) ++ r = 0x7b :: (a ++ 0x7d :: r) := by simp
    have hopen : expect '{' (0x7b :: (a ++ 0x7d :: r)) = .ok (a ++ 0x7d :: r) :=
      expect_eq_ok.mpr rfl
    have hclose : consume '}'.toUInt8 (skipSpace (a ++ 0x7d :: r)) = some r := by
      rw [skipSpace_spaces ha (by unfold IsSpace; decide)]
      exact consume_self _ _
    rw [hword]
    refine bind_eq_ok.mpr ⟨_, hopen, ?_⟩
    simp only [hclose]
    rfl
  | @fields a w _ ha hw =>
    obtain ⟨u, rfl⟩ := hw.head
    have hword : 0x7b :: (a ++ 0x22 :: u) ++ r = 0x7b :: (a ++ 0x22 :: (u ++ r)) := by simp
    have hopen : expect '{' (0x7b :: (a ++ 0x22 :: (u ++ r))) = .ok (a ++ 0x22 :: (u ++ r)) :=
      expect_eq_ok.mpr rfl
    have hskip : skipSpace (a ++ 0x22 :: (u ++ r)) = 0x22 :: (u ++ r) :=
      skipSpace_spaces ha (by unfold IsSpace; decide)
    have hclose : consume '}'.toUInt8 (0x22 :: (u ++ r)) = none := rfl
    have hchain : Chain PayloadStep fields m (m.withPayload p) :=
      chain_payload.mpr ⟨p, (chain_iff_filled hdistinct).mpr hfilled, rfl⟩
    have hopens : ∀ {key v m m'}, PayloadStep key v m m' → ∃ c w, v = c :: w ∧ Opens c :=
      fun hstep => hstep.within.head
    rw [hword]
    refine bind_eq_ok.mpr ⟨_, hopen, ?_⟩
    simp only [hskip, hclose]
    rw [payloadFields_eq, ← List.cons_append]
    refine objectLoop_complete hw hopens ?_ r hchain (Fresh.of_object hdistinct hlength) ?_
    · intro field _ fuel m m' r hstep hfuel hr
      exact payloadField_complete hstep hfuel hr
    · simp only [List.length_cons, List.length_append] at hfuel ⊢
      omega

/-! ## The packet -/

attribute [ext] DecodedMessage Envelope

def TopValue : TopKey → Type
  | .type | .component | .target | .method | .topic | .code | .message => Bytes
  | .id | .generation | .deadlineMs => Option ℕ
  | .source => Unit
  | .idempotent => Option Bool
  | .payload => Payload

def topGet : (key : TopKey) → Envelope → TopValue key
  | .type, e => e.typeName
  | .id, e => e.message.requestId
  | .component, e => e.message.component
  | .generation, e => e.message.generation
  | .target, e => e.message.target
  | .method, e => e.message.method
  | .topic, e => e.message.topic
  | .code, e => e.message.code
  | .message, e => e.message.message
  | .source, _ => ()
  | .deadlineMs, e => e.message.deadlineMs
  | .idempotent, e => e.message.idempotent
  | .payload, e => e.message.payload

def topPut : (key : TopKey) → TopValue key → Envelope → Envelope
  | .type, x, e => { e with typeName := x }
  | .id, x, e => { e with message := { e.message with requestId := x } }
  | .component, x, e => { e with message := { e.message with component := x } }
  | .generation, x, e => { e with message := { e.message with generation := x } }
  | .target, x, e => { e with message := { e.message with target := x } }
  | .method, x, e => { e with message := { e.message with method := x } }
  | .topic, x, e => { e with message := { e.message with topic := x } }
  | .code, x, e => { e with message := { e.message with code := x } }
  | .message, x, e => { e with message := { e.message with message := x } }
  | .source, _, e => e
  | .deadlineMs, x, e => { e with message := { e.message with deadlineMs := x } }
  | .idempotent, x, e => { e with message := { e.message with idempotent := x } }
  | .payload, x, e => { e with message := e.message.withPayload x }

def ReadsNatural (positive : Bool) (v : Bytes) (x : Option ℕ) : Prop :=
  ∃ n, Natural v n ∧ Unsigned positive n ∧ x = some n

def ReadsBoolean (v : Bytes) (x : Option Bool) : Prop :=
  ∃ b, v = (if b then ascii "true" else ascii "false") ∧ x = some b

/-- What a packet may say under a key, and what is kept of it. The text of the payload is
kept as it is. -/
def topReads : (key : TopKey) → Bytes → TopValue key → TopValue key → Prop
  | .type, v, _, x => Quoted v x
  | .id, v, _, x => ReadsNatural true v x
  | .component, v, _, x => Quoted v x
  | .generation, v, _, x => ReadsNatural true v x
  | .target, v, _, x => Quoted v x
  | .method, v, _, x => Quoted v x
  | .topic, v, _, x => Quoted v x
  | .code, v, _, x => Quoted v x
  | .message, v, _, x => Quoted v x
  | .source, v, _, _ => ∃ s, Quoted v s
  | .deadlineMs, v, _, x => ReadsNatural false v x
  | .idempotent, v, _, x => ReadsBoolean v x
  | .payload, v, p, x => ∃ q, PayloadObject v p q ∧ x = { q with json := v }

/-- The reader of a packet, which notes the keys it has met and knows all that may occur. -/
def topReader : Reader TopKey Bytes Bytes Envelope where
  Value := TopValue
  get := topGet
  put := topPut
  note := fun key e => { e with fields := key :: e.fields }
  Rest := List Bytes × MessageType
  rest := fun e => (e.fields, e.message.type)
  get_put := by
    intro key x e
    cases key <;> rfl
  get_put_of_ne := by
    intro key other hne x e
    cases key <;> cases other <;> first | rfl | exact absurd rfl hne
  get_note := by
    intro key name e
    cases key <;> rfl
  rest_put := by
    intro key x e
    cases key <;> rfl
  rest_note := by
    intro name e f h
    obtain ⟨hfields, htype⟩ := Prod.mk.inj h
    simp only [hfields, htype]
  ext := by
    intro e f hget hrest
    obtain ⟨hfields, htype⟩ := Prod.mk.inj hrest
    have hpayload : e.message.payload = f.message.payload := hget .payload
    have hmessage : e.message = f.message := DecodedMessage.ext htype (hget .id) (hget .generation)
      (hget .deadlineMs) (hget .idempotent) (hget .component) (hget .target) (hget .method)
      (hget .topic) (hget .code) (hget .message) (congrArg Payload.json hpayload)
      (congrArg Payload.component hpayload) (congrArg Payload.role hpayload)
      (congrArg Payload.topic hpayload) (congrArg Payload.provider hpayload)
      (congrArg Payload.action hpayload) (congrArg Payload.nested hpayload)
    exact Envelope.ext hfields (hget .type) hmessage
  classify := named topKeys
  classify_injective := named_injective (by decide)
  Reads := topReads
  Unread := fun _ => False

variable {e e' : Envelope}

theorem ReadsNatural.within {level : ℕ} (hlevel : level ≤ maxJsonDepth) {positive : Bool}
    {x : Option ℕ} (h : ReadsNatural positive v x) : Within jsonLimits level v := by
  obtain ⟨n, hn, -, -⟩ := h
  exact .number hlevel hn.1.number

theorem ReadsBoolean.within {level : ℕ} (hlevel : level ≤ maxJsonDepth) {x : Option Bool}
    (h : ReadsBoolean v x) : Within jsonLimits level v := by
  obtain ⟨b, rfl, -⟩ := h
  cases b with
  | false => exact .literal hlevel (.inr (.inl rfl))
  | true => exact .literal hlevel (.inl rfl)

theorem topReads.within {key : TopKey} {x y : TopValue key} (h : topReads key v x y) :
    Within jsonLimits 1 v := by
  cases key with
  | type | component | target | method | topic | code | message =>
    exact within_of_quoted (by decide) h
  | id | generation | deadlineMs => exact ReadsNatural.within (by decide) h
  | source =>
    obtain ⟨s, hs⟩ := h
    exact within_of_quoted (by decide) hs
  | idempotent => exact ReadsBoolean.within (by decide) h
  | payload =>
    obtain ⟨q, ⟨fields, hobject, -⟩, -⟩ := h
    exact hobject.within

/-- A known field, read into the envelope. -/
def TopStep (key v : Bytes) (e e' : Envelope) : Prop :=
  ∃ k x, named topKeys key = some k ∧ topReads k v (topGet k e) x ∧ e' = topPut k x e

theorem topField_sound (h : topField fuel key e r = .ok (e', r')) :
    ∃ v, TopStep key v e e' ∧ r = v ++ r' := by
  unfold topField at h
  split at h
  · rename_i hname
    obtain ⟨⟨s, r₁⟩, hs, h₁⟩ := bind_eq_ok.mp h
    obtain ⟨t, ht, hr⟩ := parseString_eq_ok.mp hs
    cases h₁
    exact ⟨t, ⟨.type, s, hname, ht, rfl⟩, hr⟩
  · rename_i hname
    obtain ⟨⟨n, r₁⟩, hn, h₁⟩ := bind_eq_ok.mp h
    obtain ⟨t, ht, hrange, hr⟩ := parseUnsignedInteger_sound hn
    cases h₁
    exact ⟨t, ⟨.id, some n, hname, ⟨n, ht, hrange, rfl⟩, rfl⟩, hr⟩
  · rename_i hname
    obtain ⟨⟨s, r₁⟩, hs, h₁⟩ := bind_eq_ok.mp h
    obtain ⟨t, ht, hr⟩ := parseString_eq_ok.mp hs
    cases h₁
    exact ⟨t, ⟨.component, s, hname, ht, rfl⟩, hr⟩
  · rename_i hname
    obtain ⟨⟨n, r₁⟩, hn, h₁⟩ := bind_eq_ok.mp h
    obtain ⟨t, ht, hrange, hr⟩ := parseUnsignedInteger_sound hn
    cases h₁
    exact ⟨t, ⟨.generation, some n, hname, ⟨n, ht, hrange, rfl⟩, rfl⟩, hr⟩
  · rename_i hname
    obtain ⟨⟨s, r₁⟩, hs, h₁⟩ := bind_eq_ok.mp h
    obtain ⟨t, ht, hr⟩ := parseString_eq_ok.mp hs
    cases h₁
    exact ⟨t, ⟨.target, s, hname, ht, rfl⟩, hr⟩
  · rename_i hname
    obtain ⟨⟨s, r₁⟩, hs, h₁⟩ := bind_eq_ok.mp h
    obtain ⟨t, ht, hr⟩ := parseString_eq_ok.mp hs
    cases h₁
    exact ⟨t, ⟨.method, s, hname, ht, rfl⟩, hr⟩
  · rename_i hname
    obtain ⟨⟨s, r₁⟩, hs, h₁⟩ := bind_eq_ok.mp h
    obtain ⟨t, ht, hr⟩ := parseString_eq_ok.mp hs
    cases h₁
    exact ⟨t, ⟨.topic, s, hname, ht, rfl⟩, hr⟩
  · rename_i hname
    obtain ⟨⟨s, r₁⟩, hs, h₁⟩ := bind_eq_ok.mp h
    obtain ⟨t, ht, hr⟩ := parseString_eq_ok.mp hs
    cases h₁
    exact ⟨t, ⟨.code, s, hname, ht, rfl⟩, hr⟩
  · rename_i hname
    obtain ⟨⟨s, r₁⟩, hs, h₁⟩ := bind_eq_ok.mp h
    obtain ⟨t, ht, hr⟩ := parseString_eq_ok.mp hs
    cases h₁
    exact ⟨t, ⟨.message, s, hname, ht, rfl⟩, hr⟩
  · rename_i hname
    obtain ⟨⟨s, r₁⟩, hs, h₁⟩ := bind_eq_ok.mp h
    obtain ⟨t, ht, hr⟩ := parseString_eq_ok.mp hs
    cases h₁
    exact ⟨t, ⟨.source, (), hname, ⟨s, ht⟩, rfl⟩, hr⟩
  · rename_i hname
    obtain ⟨⟨n, r₁⟩, hn, h₁⟩ := bind_eq_ok.mp h
    obtain ⟨t, ht, hrange, hr⟩ := parseUnsignedInteger_sound hn
    cases h₁
    exact ⟨t, ⟨.deadlineMs, some n, hname, ⟨n, ht, hrange, rfl⟩, rfl⟩, hr⟩
  · rename_i hname
    obtain ⟨⟨b, r₁⟩, hb, h₁⟩ := bind_eq_ok.mp h
    have hr := parseBoolean_sound hb
    cases h₁
    exact ⟨_, ⟨.idempotent, some b, hname, ⟨b, rfl, rfl⟩, rfl⟩, hr⟩
  · rename_i hname
    obtain ⟨⟨m, r₁⟩, hm, h₁⟩ := bind_eq_ok.mp h
    obtain ⟨v, p, hp, rfl, rfl⟩ := parsePayload_sound hm
    cases h₁
    rw [consumed_append]
    exact ⟨v, ⟨.payload, { p with json := v }, hname, ⟨p, hp, rfl⟩, rfl⟩, rfl⟩
  · simp at h

theorem topField_complete (h : TopStep key v e e') (hfuel : v.length ≤ fuel) (hr : Delimits r) :
    topField fuel key e (v ++ r) = .ok (e', r) := by
  obtain ⟨k, x, hname, hx, rfl⟩ := h
  unfold topField
  cases k with
  | type | component | target | method | topic | code | message =>
    simp only [hname]
    exact bind_eq_ok.mpr ⟨(x, r), parseString_eq_ok.mpr ⟨v, hx, rfl⟩, rfl⟩
  | id | generation | deadlineMs =>
    obtain ⟨n, hn, hrange, rfl⟩ := hx
    simp only [hname]
    exact bind_eq_ok.mpr ⟨(n, r), parseUnsignedInteger_complete hn hrange hr, rfl⟩
  | source =>
    obtain ⟨s, hs⟩ := hx
    simp only [hname]
    exact bind_eq_ok.mpr ⟨(s, r), parseString_eq_ok.mpr ⟨v, hs, rfl⟩, rfl⟩
  | idempotent =>
    obtain ⟨b, rfl, rfl⟩ := hx
    simp only [hname]
    exact bind_eq_ok.mpr ⟨(b, r), parseBoolean_complete _ b r, rfl⟩
  | payload =>
    obtain ⟨p, hp, rfl⟩ := hx
    simp only [hname]
    refine bind_eq_ok.mpr ⟨_, parsePayload_complete hp hfuel, ?_⟩
    simp only [consumed_append]
    rfl

theorem TopStep.same_fields (h : TopStep key v e e') : e'.fields = e.fields := by
  obtain ⟨k, x, -, -, rfl⟩ := h
  cases k <;> rfl

theorem TopStep.within (h : TopStep key v e e') : Within jsonLimits 1 v := by
  obtain ⟨k, x, -, hx, -⟩ := h
  exact topReads.within hx

/-- The entry of the loop over a packet, whose key has been noted. -/
def topEntry (fuel : ℕ) (key : Bytes) (e : Envelope) (r : Bytes) :
    Except Bytes (Envelope × Bytes) :=
  topField fuel key { e with fields := key :: e.fields } r

theorem topStep_iff : TopStep key v { e with fields := key :: e.fields } e' ↔
    FieldStep topReader key v e e' := by
  constructor
  · rintro ⟨k, x, hname, hx, rfl⟩
    refine .known hname ?_
    cases k <;> exact hx
  · intro h
    cases h with
    | @known k x hname hx =>
      refine ⟨k, x, hname, ?_, rfl⟩
      cases k <;> exact hx
    | unknown _ hv => exact hv.elim

theorem topFields_eq (fuel : ℕ) : ∀ (e : Envelope) (r : Bytes),
    topFields fuel e r = objectLoop "JSON object has too many fields" "duplicate JSON field: "
      topEntry fuel e.fields e r := by
  induction fuel with
  | zero =>
    intro e r
    rfl
  | succ fuel ih =>
    intro e r
    unfold topFields
    rw [objectLoop]
    split_ifs with hroom
    · rfl
    cases parseString r with
    | error error => rfl
    | ok result =>
      obtain ⟨key, r₁⟩ := result
      simp only [bind, Except.bind]
      split_ifs with hseen
      · rfl
      cases expect ':' (skipSpace r₁) with
      | error error => rfl
      | ok r₂ =>
        simp only [topEntry]
        cases hvalue : topField fuel key { e with fields := key :: e.fields } (skipSpace r₂) with
        | error error => rfl
        | ok result =>
          obtain ⟨e₁, r₃⟩ := result
          obtain ⟨v, hstep, -⟩ := topField_sound hvalue
          have hfields : e₁.fields = key :: e.fields := hstep.same_fields
          simp only [closeOrNext]
          cases consume '}'.toUInt8 (skipSpace r₃) with
          | some r₄ => rfl
          | none =>
            simp only [bind, Except.bind]
            cases expect ',' (skipSpace r₃) with
            | error error => rfl
            | ok r₄ =>
              rw [← hfields]
              exact ih e₁ (skipSpace r₄)

end MsysCore.Native
