import MsysCore.Native.MipcFields
import MsysCore.Native.MipcUtf8

/-!
# Which packets the decoder accepts

A packet is accepted when it is the UTF-8 text of one object within the limits, its
fields are known and each of the kind its key asks for, and together they are what the
type of the packet requires and allows. The message is what the fields say.
-/

namespace MsysCore.Native

open JsonGrammar FieldReading

/-! ## The fields of each type -/

def requiredFields : MessageType → List String
  | .hello => ["type"]
  | .ready => ["type"]
  | .call => ["type", "id", "target", "method"]
  | .subscribe => ["type", "topic"]
  | .event => ["type", "topic", "payload"]
  | .returned => ["type", "id", "payload"]
  | .error => ["type", "id", "code"]

def optionalFields : MessageType → List String
  | .hello => ["component", "generation"]
  | .call => ["deadline_ms", "idempotent", "payload"]
  | .error => ["message", "payload"]
  | .ready | .subscribe | .event | .returned => []

/-- What the type asks of the strings, and of fields that go together. -/
def lengthsAllowed (e : Envelope) : MessageType → Prop
  | .hello => (e.has "component" = e.has "generation") ∧
      (e.has "component" = true → Bounded 128 e.message.component)
  | .call => Bounded 256 e.message.target ∧ Bounded 256 e.message.method
  | .subscribe | .event => Bounded 256 e.message.topic
  | .error => Bounded 128 e.message.code ∧
      (e.has "message" = true → e.message.message.length ≤ 1024)
  | .ready | .returned => True

/-- The fields are those of the type. -/
structure Permitted (e : Envelope) (type : MessageType) : Prop where
  required : ∀ name ∈ requiredFields type, e.has name = true
  allowed : ∀ key ∈ e.fields, ∃ name ∈ requiredFields type ++ optionalFields type, key = ascii name
  lengths : lengthsAllowed e type

/-- The packet is the text of an object within the limits, and the envelope what its fields
say. -/
def Written (packet : Bytes) (e : Envelope) : Prop :=
  ∃ a t c fields, packet = a ++ (t ++ c) ∧ Spaces a ∧ Spaces c ∧
    ObjectWithin jsonLimits 0 t fields ∧ Filled topReader fields {} e

/-- The packets the decoder accepts, and the messages they are decoded to. -/
structure Accepted (packet : Bytes) (message : DecodedMessage) : Prop where
  size : packet.length ≤ maxPacketBytes
  utf8 : ∃ cs : List Char, packet = cs.flatMap String.utf8EncodeChar
  written : ∃ e, Written packet e ∧ named messageTypes e.typeName = some message.type ∧
    Permitted e message.type ∧ message = { e.message with type := message.type }

/-! ## What the fields of a written packet are -/

variable {packet : Bytes} {e : Envelope} {type : MessageType}

theorem noted_top (fields : List (Bytes × Bytes)) : ∀ e : Envelope,
    (noted topReader fields e).fields = (fields.map Prod.fst).reverse ++ e.fields := by
  induction fields with
  | nil => exact fun e => rfl
  | cons field fields ih =>
    intro e
    have htail := ih (topReader.note field.1 e)
    rw [List.map_cons, List.reverse_cons, List.append_assoc]
    exact htail

/-- The keys of a written packet are distinct and known, and the slots of absent keys are empty. -/
structure Read (e : Envelope) : Prop where
  distinct : e.fields.Nodup
  known : ∀ key ∈ e.fields, ∃ name ∈ topKeys.map Prod.fst, key = ascii name
  id : e.message.requestId.isSome = e.has "id"
  generation : e.message.generation.isSome = e.has "generation"
  deadlineMs : e.message.deadlineMs.isSome = e.has "deadline_ms"
  idempotent : e.message.idempotent.isSome = e.has "idempotent"
  type : e.has "type" = false → e.typeName = []

theorem name_of_named {α : Type} {table : List (String × α)} {key : Bytes} {a : α}
    (h : named table key = some a) : ∃ name ∈ table.map Prod.fst, key = ascii name := by
  obtain ⟨entry, hentry, -⟩ := Option.map_eq_some_iff.mp h
  have hkey := List.find?_some hentry
  exact ⟨entry.1, List.mem_map_of_mem (List.mem_of_find?_eq_some hentry),
    (beq_iff_eq.mp hkey).symm⟩

theorem has_iff {name : String} : e.has name = true ↔ ascii name ∈ e.fields := by
  simp [Envelope.has]

/-- A key of the packet has a value, and conversely. -/
theorem valueOf_isSome {fields : List (Bytes × Bytes)} {key : TopKey} {name : String}
    (hname : named topKeys (ascii name) = some key)
    (hfields : e.fields = (fields.map Prod.fst).reverse) :
    (valueOf topReader fields key).isSome = e.has name := by
  rw [Bool.eq_iff_iff, has_iff, hfields, List.mem_reverse, Option.isSome_iff_exists]
  constructor
  · rintro ⟨v, hv⟩
    obtain ⟨other, hmem, hother⟩ := mem_of_valueOf hv
    rw [topReader.classify_injective hname hother]
    exact List.mem_map_of_mem hmem
  · intro hmem
    obtain ⟨⟨other, v⟩, hfield, rfl⟩ := List.mem_map.mp hmem
    by_contra hnone
    rw [not_exists] at hnone
    have habsent := valueOf_eq_none.mp (Option.eq_none_iff_forall_not_mem.mpr hnone)
    exact habsent _ hfield hname

theorem Written.read (h : Written packet e) : Read e := by
  obtain ⟨a, t, c, fields, -, -, -, hobject, hfilled⟩ := h
  have hfields : e.fields = (fields.map Prod.fst).reverse := by
    have hrest : (e.fields, e.message.type) = (_, _) := hfilled.rest
    rw [(Prod.mk.inj hrest).1, noted_top, List.append_nil]
  have hoption : ∀ {α : Type} {key : TopKey} {name : String} (slot : Envelope → Option α),
      named topKeys (ascii name) = some key →
      (valueOf topReader fields key = none → slot e = none) →
      (∀ v, valueOf topReader fields key = some v → ∃ x, slot e = some x) →
      (slot e).isSome = e.has name := by
    intro α key name slot hname habsent hpresent
    rw [← valueOf_isSome hname hfields]
    cases hvalue : valueOf topReader fields key with
    | none =>
      rw [habsent hvalue]
      rfl
    | some v =>
      obtain ⟨x, hx⟩ := hpresent v hvalue
      rw [hx]
      rfl
  constructor
  · rw [hfields, List.nodup_reverse]
    exact hobject.distinct
  · intro key hkey
    rw [hfields, List.mem_reverse] at hkey
    obtain ⟨field, hfield, rfl⟩ := List.mem_map.mp hkey
    cases hname : named topKeys field.1 with
    | none => exact (hfilled.unread field hfield hname).elim
    | some k => exact name_of_named hname
  · refine hoption (fun e => e.message.requestId) (by rfl) (hfilled.absent .id) fun v hv => ?_
    obtain ⟨n, -, -, hn⟩ := hfilled.present .id v hv
    exact ⟨n, hn⟩
  · refine hoption (fun e => e.message.generation) (by rfl) (hfilled.absent .generation)
      fun v hv => ?_
    obtain ⟨n, -, -, hn⟩ := hfilled.present .generation v hv
    exact ⟨n, hn⟩
  · refine hoption (fun e => e.message.deadlineMs) (by rfl) (hfilled.absent .deadlineMs)
      fun v hv => ?_
    obtain ⟨n, -, -, hn⟩ := hfilled.present .deadlineMs v hv
    exact ⟨n, hn⟩
  · refine hoption (fun e => e.message.idempotent) (by rfl) (hfilled.absent .idempotent)
      fun v hv => ?_
    obtain ⟨b, -, hb⟩ := hfilled.present .idempotent v hv
    exact ⟨b, hb⟩
  · intro hnone
    have hvalue : (valueOf topReader fields .type).isSome = false :=
      (valueOf_isSome (by rfl) hfields).trans hnone
    exact hfilled.absent .type (Option.not_isSome_iff_eq_none.mp (Bool.eq_false_iff.mp hvalue))

/-! ## The rules of `validate_message` -/

theorem ascii_injective {a b : String} (ha : a ∈ topKeys.map Prod.fst)
    (hb : b ∈ topKeys.map Prod.fst) (h : ascii a = ascii b) : a = b :=
  List.inj_on_of_nodup_map (f := ascii) (by decide) ha hb h

/-- The known fields that a packet of the type may not have. -/
def forbiddenFields (type : MessageType) : List String :=
  (topKeys.map Prod.fst).filter (· ∉ requiredFields type ++ optionalFields type)

theorem permitted_iff (h : Read e) : Permitted e type ↔
    (∀ name ∈ requiredFields type, e.has name = true) ∧
      (∀ name ∈ forbiddenFields type, e.has name = false) ∧ lengthsAllowed e type := by
  have hsub : ∀ name ∈ requiredFields type ++ optionalFields type,
      name ∈ topKeys.map Prod.fst := by
    cases type <;> decide
  constructor
  · rintro ⟨hrequired, hallowed, hlengths⟩
    refine ⟨hrequired, fun name hname => ?_, hlengths⟩
    obtain ⟨hknown, hforbidden⟩ := List.mem_filter.mp hname
    rw [Bool.eq_false_iff, Ne, has_iff]
    intro hmem
    obtain ⟨other, hother, heq⟩ := hallowed _ hmem
    rw [ascii_injective hknown (hsub other hother) heq] at hforbidden
    exact of_decide_eq_true hforbidden hother
  · rintro ⟨hrequired, hforbidden, hlengths⟩
    refine ⟨hrequired, fun key hkey => ?_, hlengths⟩
    obtain ⟨name, hname, rfl⟩ := h.known key hkey
    refine ⟨name, ?_, rfl⟩
    by_contra hother
    have hnone := hforbidden name (List.mem_filter.mpr ⟨hname, decide_eq_true hother⟩)
    rw [has_iff.mpr hkey] at hnone
    cases hnone

/-- A packet with the names has no other field exactly if it has as many. -/
theorem length_iff (h : Read e) {names : List String} (hnames : (names.map ascii).Nodup)
    (hall : ∀ name ∈ names, e.has name = true) : e.fields.length = names.length ↔
      ∀ key ∈ e.fields, ∃ name ∈ names, key = ascii name := by
  have hsub : names.map ascii ⊆ e.fields := by
    intro key hkey
    obtain ⟨name, hname, rfl⟩ := List.mem_map.mp hkey
    exact has_iff.mp (hall name hname)
  have hperm := List.subperm_of_subset hnames hsub
  constructor
  · intro hlength key hkey
    have heq := hperm.perm_of_length_le (by rw [List.length_map]; omega)
    obtain ⟨name, hname, rfl⟩ := List.mem_map.mp (heq.mem_iff.mpr hkey)
    exact ⟨name, hname, rfl⟩
  · intro hkeys
    have hback : e.fields ⊆ names.map ascii := by
      intro key hkey
      obtain ⟨name, hname, rfl⟩ := hkeys key hkey
      exact List.mem_map_of_mem hname
    have hle := hperm.length_le
    have hge := (List.subperm_of_subset h.distinct hback).length_le
    rw [List.length_map] at hle hge
    omega

theorem not_broken {p : Prop} [Decidable p] {detail : String} {rest : Option String} :
    (if p then some detail else rest) = none ↔ ¬ p ∧ rest = none := by
  split_ifs with hp <;> simp [hp]

theorem Read.isNone_requestId (h : Read e) : e.message.requestId.isNone = !e.has "id" := by
  rw [← h.id, Option.not_isSome]

theorem brokenRule_hello (h : Read e) (htype : e.has "type" = true) :
    brokenRule e .hello = none ↔ Permitted e .hello := by
  have hforbidden : forbiddenFields .hello = ["id", "target", "method", "topic", "code", "message",
      "source", "deadline_ms", "idempotent", "payload"] := by decide
  rw [permitted_iff h, hforbidden]
  simp only [brokenRule, not_broken, requiredFields, lengthsAllowed, bounded_iff, h.id,
    h.generation, h.deadlineMs, h.idempotent]
  simp [htype]
  intro _ _
  constructor
  · rintro ⟨⟨⟨⟨⟨⟨⟨⟨⟨hid, htarget⟩, hmethod⟩, hpayload⟩, hdeadline⟩, hidempotent⟩, htopic⟩, hcode⟩,
      hmessage⟩, hsource⟩
    exact ⟨hid, htarget, hmethod, htopic, hcode, hmessage, hsource, hdeadline, hidempotent,
      hpayload⟩
  · rintro ⟨hid, htarget, hmethod, htopic, hcode, hmessage, hsource, hdeadline, hidempotent,
      hpayload⟩
    exact ⟨⟨⟨⟨⟨⟨⟨⟨⟨hid, htarget⟩, hmethod⟩, hpayload⟩, hdeadline⟩, hidempotent⟩, htopic⟩, hcode⟩,
      hmessage⟩, hsource⟩

theorem brokenRule_call (h : Read e) (htype : e.has "type" = true) :
    brokenRule e .call = none ↔ Permitted e .call := by
  have hforbidden : forbiddenFields .call = ["component", "generation", "topic", "code", "message",
      "source"] := by decide
  have hid := h.isNone_requestId
  rw [permitted_iff h, hforbidden]
  simp only [brokenRule, not_broken, requiredFields, lengthsAllowed, bounded_iff, hid,
    h.generation]
  simp [htype]
  constructor
  · rintro ⟨hpresent, ⟨hcomponent, hgeneration⟩, ⟨⟨⟨htopic, hcode⟩, hmessage⟩, hsource⟩,
      ⟨htarget, hnonempty⟩, hmethod⟩
    exact ⟨and_assoc.mp hpresent,
      ⟨hcomponent, hgeneration, htopic, hcode, hmessage, hsource⟩, htarget, hnonempty, hmethod⟩
  · rintro ⟨hpresent, ⟨hcomponent, hgeneration, htopic, hcode, hmessage, hsource⟩, htarget,
      hnonempty, hmethod⟩
    exact ⟨and_assoc.mpr hpresent, ⟨hcomponent, hgeneration⟩,
      ⟨⟨⟨htopic, hcode⟩, hmessage⟩, hsource⟩, ⟨htarget, hnonempty⟩, hmethod⟩

theorem brokenRule_error (h : Read e) (htype : e.has "type" = true) :
    brokenRule e .error = none ↔ Permitted e .error := by
  have hforbidden : forbiddenFields .error = ["component", "generation", "target", "method",
      "topic", "source", "deadline_ms", "idempotent"] := by decide
  have hid := h.isNone_requestId
  rw [permitted_iff h, hforbidden]
  simp only [brokenRule, not_broken, requiredFields, lengthsAllowed, bounded_iff, hid,
    h.generation, h.deadlineMs, h.idempotent]
  simp [htype]
  constructor
  · rintro ⟨⟨⟨⟨⟨⟨⟨⟨⟨⟨hpresent, hcode⟩, hmessage⟩, htarget⟩, hmethod⟩, htopic⟩, hcomponent⟩,
      hgeneration⟩, hdeadline⟩, hidempotent⟩, hsource⟩
    exact ⟨hpresent.1, ⟨hcomponent, hgeneration, htarget, hmethod, htopic, hsource, hdeadline,
      hidempotent⟩, ⟨hpresent.2, hcode⟩, hmessage⟩
  · rintro ⟨hpresent, ⟨hcomponent, hgeneration, htarget, hmethod, htopic, hsource, hdeadline,
      hidempotent⟩, ⟨hnonempty, hcode⟩, hmessage⟩
    exact ⟨⟨⟨⟨⟨⟨⟨⟨⟨⟨⟨hpresent, hnonempty⟩, hcode⟩, hmessage⟩, htarget⟩, hmethod⟩, htopic⟩,
      hcomponent⟩, hgeneration⟩, hdeadline⟩, hidempotent⟩, hsource⟩

/-- A type with required fields only. -/
theorem exact_iff (h : Read e) (hoptional : optionalFields type = [])
    (hnames : ((requiredFields type).map ascii).Nodup) : Permitted e type ↔
      (∀ name ∈ requiredFields type, e.has name = true) ∧
        e.fields.length = (requiredFields type).length ∧ lengthsAllowed e type := by
  constructor
  · rintro ⟨hrequired, hallowed, hlengths⟩
    rw [hoptional, List.append_nil] at hallowed
    exact ⟨hrequired, (length_iff h hnames hrequired).mpr hallowed, hlengths⟩
  · rintro ⟨hrequired, hlength, hlengths⟩
    refine ⟨hrequired, ?_, hlengths⟩
    rw [hoptional, List.append_nil]
    exact (length_iff h hnames hrequired).mp hlength

theorem brokenRule_ready (h : Read e) : brokenRule e .ready = none ↔ Permitted e .ready := by
  rw [exact_iff h rfl (by decide)]
  simp only [brokenRule, not_broken, requiredFields, lengthsAllowed]
  simp
  exact and_comm

theorem brokenRule_subscribe (h : Read e) :
    brokenRule e .subscribe = none ↔ Permitted e .subscribe := by
  rw [exact_iff h rfl (by decide)]
  simp only [brokenRule, not_broken, requiredFields, lengthsAllowed, bounded_iff]
  simp
  constructor
  · rintro ⟨⟨⟨⟨htopic, hnonempty⟩, hbound⟩, hlength⟩, htype⟩
    exact ⟨⟨htype, htopic⟩, hlength, hnonempty, hbound⟩
  · rintro ⟨⟨htype, htopic⟩, hlength, hnonempty, hbound⟩
    exact ⟨⟨⟨⟨htopic, hnonempty⟩, hbound⟩, hlength⟩, htype⟩

theorem brokenRule_event (h : Read e) : brokenRule e .event = none ↔ Permitted e .event := by
  rw [exact_iff h rfl (by decide)]
  simp only [brokenRule, not_broken, requiredFields, lengthsAllowed, bounded_iff]
  simp
  constructor
  · rintro ⟨⟨⟨⟨⟨htopic, hnonempty⟩, hbound⟩, hpayload⟩, hlength⟩, htype⟩
    exact ⟨⟨htype, htopic, hpayload⟩, hlength, hnonempty, hbound⟩
  · rintro ⟨⟨htype, htopic, hpayload⟩, hlength, hnonempty, hbound⟩
    exact ⟨⟨⟨⟨⟨htopic, hnonempty⟩, hbound⟩, hpayload⟩, hlength⟩, htype⟩

theorem brokenRule_returned (h : Read e) :
    brokenRule e .returned = none ↔ Permitted e .returned := by
  have hid := h.isNone_requestId
  rw [exact_iff h rfl (by decide)]
  simp only [brokenRule, not_broken, requiredFields, lengthsAllowed, hid]
  simp
  constructor
  · rintro ⟨⟨⟨⟨hid, hpayload⟩, hlength⟩, htype⟩, -⟩
    exact ⟨⟨htype, hid, hpayload⟩, hlength⟩
  · rintro ⟨⟨htype, hid, hpayload⟩, hlength⟩
    exact ⟨⟨⟨⟨hid, hpayload⟩, hlength⟩, htype⟩, hid⟩

/-- `validate_message` lets a packet of a known type pass exactly if it has the fields of its
type. -/
theorem brokenRule_eq_none (h : Read e) (htype : e.has "type" = true) (type : MessageType) :
    brokenRule e type = none ↔ Permitted e type := by
  cases type with
  | hello => exact brokenRule_hello h htype
  | ready => exact brokenRule_ready h
  | call => exact brokenRule_call h htype
  | subscribe => exact brokenRule_subscribe h
  | event => exact brokenRule_event h
  | returned => exact brokenRule_returned h
  | error => exact brokenRule_error h htype

/-! ## Acceptance -/

/-- The parser with a number of turns of its own. -/
def parseWithin (fuel : ℕ) (input : Bytes) : Except Bytes DecodedMessage :=
  if input.isEmpty then fail "mIPC packet is empty"
  else if !validUtf8 input then fail "mIPC packet is not valid UTF-8"
  else do
    let r ← expect '{' (skipSpace input)
    if (consume '}'.toUInt8 (skipSpace r)).isSome then fail "mIPC packet requires string type"
    else do
      let (e, r) ← topFields fuel {} (skipSpace r)
      if !(skipSpace r).isEmpty then fail "trailing data after JSON object"
      else validateMessage e

/-- The decoder with a number of turns of its own. -/
def decodeWithin (fuel : ℕ) (packet : Bytes) : Except Bytes DecodedMessage :=
  if maxPacketBytes < packet.length then fail "packet exceeds 262144 bytes"
  else parseWithin fuel packet

theorem decodeMessage_eq (packet : Bytes) :
    decodeMessage packet = decodeWithin (2 * packet.length) packet := rfl

variable {message : DecodedMessage} {fuel : ℕ}

theorem has_type (h : Read e) (hname : named messageTypes e.typeName = some type) :
    e.has "type" = true := by
  have hempty : named messageTypes [] = none := rfl
  by_contra hnone
  rw [h.type (Bool.eq_false_iff.mpr hnone), hempty] at hname
  cases hname

theorem validateMessage_eq_ok (h : Read e) : validateMessage e = .ok message ↔
    named messageTypes e.typeName = some message.type ∧ Permitted e message.type ∧
      message = { e.message with type := message.type } := by
  unfold validateMessage
  constructor
  · intro hvalid
    split_ifs at hvalid with hempty
    · exact absurd hvalid fail_ne_ok
    cases hname : named messageTypes e.typeName with
    | none =>
      simp only [hname] at hvalid
      exact absurd hvalid fail_ne_ok
    | some type =>
      simp only [hname] at hvalid
      cases hrule : brokenRule e type with
      | some detail =>
        simp only [hrule] at hvalid
        exact absurd hvalid fail_ne_ok
      | none =>
        simp only [hrule] at hvalid
        cases hvalid
        exact ⟨rfl, (brokenRule_eq_none h (has_type h hname) type).mp hrule, rfl⟩
  · rintro ⟨hname, hpermitted, hmessage⟩
    have hnonempty : ¬ e.typeName.isEmpty = true := by
      intro hempty
      rw [List.isEmpty_iff.mp hempty] at hname
      cases hname
    have hrule := (brokenRule_eq_none h (has_type h hname) message.type).mpr hpermitted
    rw [if_neg hnonempty]
    simp only [hname, hrule]
    rw [← hmessage]

theorem topEntry_sound {key r r' : Bytes} {e e' : Envelope}
    (h : topEntry fuel key e r = .ok (e', r')) :
    ∃ v, FieldStep topReader key v e e' ∧ r = v ++ r' := by
  obtain ⟨v, hstep, hr⟩ := topField_sound h
  exact ⟨v, topStep_iff.mp hstep, hr⟩

theorem topEntry_complete {key v r : Bytes} {e e' : Envelope}
    (h : FieldStep topReader key v e e') (hfuel : v.length ≤ fuel) (hr : Delimits r) :
    topEntry fuel key e (v ++ r) = .ok (e', r) :=
  topField_complete (topStep_iff.mpr h) hfuel hr

theorem FieldStep.within {key v : Bytes} {e e' : Envelope} (h : FieldStep topReader key v e e') :
    Within jsonLimits 1 v :=
  (topStep_iff.mpr h).within

theorem topFields_sound {r r' : Bytes} (h : topFields fuel {} r = .ok (e, r')) :
    ∃ m fields, Fields m fields ∧ Fresh [] fields ∧ Filled topReader fields {} e ∧
      (∀ field ∈ fields, Within jsonLimits 1 field.2) ∧ r = m ++ r' := by
  rw [topFields_eq] at h
  have hentry : ∀ fuel' < fuel, ∀ {key e r e' r'}, topEntry fuel' key e r = .ok (e', r') →
      ∃ v, FieldStep topReader key v e e' ∧ r = v ++ r' := fun _ _ => topEntry_sound
  obtain ⟨m, fields, hm, hchain, hfresh, hr⟩ := objectLoop_sound fuel hentry h
  exact ⟨m, fields, hm, hfresh, (chain_iff_filled hfresh.distinct).mp hchain,
    hchain.values fun _ _ _ _ hstep => FieldStep.within hstep, hr⟩

theorem topFields_complete {m r : Bytes} {fields : List (Bytes × Bytes)} (hm : Fields m fields)
    (hfresh : Fresh [] fields) (hfilled : Filled topReader fields {} e) (hfuel : m.length ≤ fuel) :
    topFields fuel {} (m ++ r) = .ok (e, r) := by
  have hopens : ∀ {key v} {e e' : Envelope}, FieldStep topReader key v e e' →
      ∃ c w, v = c :: w ∧ Opens c := fun hstep => (FieldStep.within hstep).head
  rw [topFields_eq]
  refine objectLoop_complete hm hopens ?_ r ((chain_iff_filled hfresh.distinct).mpr hfilled) hfresh
    hfuel
  intro field _ fuel e e' r hstep hfuel hr
  exact topEntry_complete hstep hfuel hr

theorem parseWithin_sound (h : parseWithin fuel packet = .ok message) :
    (∃ cs : List Char, packet = cs.flatMap String.utf8EncodeChar) ∧
      ∃ e, Written packet e ∧ validateMessage e = .ok message := by
  unfold parseWithin at h
  split_ifs at h with hempty hutf8
  · exact absurd h fail_ne_ok
  · exact absurd h fail_ne_ok
  refine ⟨validUtf8_iff.mp (by simpa using hutf8), ?_⟩
  obtain ⟨r₁, hopen, h₁⟩ := bind_eq_ok.mp h
  split_ifs at h₁ with hclose
  · exact absurd h₁ fail_ne_ok
  obtain ⟨⟨e, r₂⟩, hfields, h₂⟩ := bind_eq_ok.mp h₁
  simp only at h₂
  split_ifs at h₂ with hrest
  · exact absurd h₂ fail_ne_ok
  obtain ⟨m, fields, hm, hfresh, hfilled, hvalues, hr⟩ := topFields_sound hfields
  obtain ⟨b, hb, rfl⟩ := skipSpace_append hr
  obtain ⟨a, ha, rfl⟩ := skipSpace_append (u := [0x7b]) (expect_eq_ok.mp hopen)
  obtain ⟨c, hc, hend⟩ := skipSpace_spec r₂
  have hskipped : skipSpace r₂ = [] := by simpa using hrest
  rw [hskipped, List.append_nil] at hend
  subst hend
  refine ⟨e, ⟨a, 0x7b :: (b ++ m), r₂, fields, by simp, ha, hc, ?_, hfilled⟩, h₂⟩
  exact ⟨by decide, .fields hb hm, hfresh.distinct, hfresh.length, hvalues⟩

theorem parseWithin_complete (hutf8 : ∃ cs : List Char, packet = cs.flatMap String.utf8EncodeChar)
    (hwritten : Written packet e) (htype : e.has "type" = true)
    (hvalid : validateMessage e = .ok message) (hfuel : packet.length ≤ fuel) :
    parseWithin fuel packet = .ok message := by
  obtain ⟨a, t, c, fields, hpacket, ha, hc, hobject, hfilled⟩ := hwritten
  cases hobject.text with
  | empty =>
    rw [← hfilled.eq_of_nil] at htype
    cases htype
  | @fields b m _ hb hm =>
    obtain ⟨w, rfl⟩ := hm.head
    have hword : packet = a ++ 0x7b :: (b ++ 0x22 :: (w ++ c)) := by simpa using hpacket
    have hnonempty : ¬ packet.isEmpty = true := by
      rw [hword, List.isEmpty_iff]
      simp
    have hvalidUtf8 : ¬ (!validUtf8 packet) = true := by
      rw [validUtf8_iff.mpr hutf8]
      exact Bool.false_ne_true
    have hopen : expect '{' (skipSpace packet) = .ok (b ++ 0x22 :: (w ++ c)) := by
      rw [hword, skipSpace_spaces ha (by unfold IsSpace; decide)]
      exact expect_eq_ok.mpr rfl
    have hskip : skipSpace (b ++ 0x22 :: (w ++ c)) = 0x22 :: w ++ c :=
      skipSpace_spaces hb (by unfold IsSpace; decide)
    have hclose : ¬ (consume '}'.toUInt8 (0x22 :: w ++ c)).isSome = true := Bool.false_ne_true
    have hfields : topFields fuel {} (0x22 :: w ++ c) = .ok (e, c) := by
      refine topFields_complete hm (Fresh.of_object hobject.distinct hobject.length) hfilled ?_
      rw [hword] at hfuel
      simp only [List.length_append, List.length_cons] at hfuel ⊢
      omega
    have hend : ¬ (!(skipSpace c).isEmpty) = true := by
      have hall : ∀ b ∈ c, isSpace b = true := fun b hb => isSpace_iff.mpr (hc b hb)
      have hskipped : skipSpace c = [] := List.dropWhile_eq_nil_iff.mpr hall
      rw [hskipped]
      exact Bool.false_ne_true
    unfold parseWithin
    rw [if_neg hnonempty, if_neg hvalidUtf8]
    refine bind_eq_ok.mpr ⟨_, hopen, ?_⟩
    rw [hskip, if_neg hclose]
    refine bind_eq_ok.mpr ⟨_, hfields, ?_⟩
    simp only [if_neg hend]
    exact hvalid

/-- However many turns the decoder is given, from one for each byte on, it accepts the same
packets. -/
theorem decodeWithin_eq_ok (hfuel : packet.length ≤ fuel) :
    decodeWithin fuel packet = .ok message ↔ Accepted packet message := by
  unfold decodeWithin
  constructor
  · intro h
    split_ifs at h with hsize
    · exact absurd h fail_ne_ok
    obtain ⟨hutf8, e, hwritten, hvalid⟩ := parseWithin_sound h
    exact ⟨Nat.not_lt.mp hsize, hutf8, e, hwritten,
      (validateMessage_eq_ok hwritten.read).mp hvalid⟩
  · rintro ⟨hsize, hutf8, e, hwritten, hvalid⟩
    rw [if_neg (Nat.not_lt.mpr hsize)]
    exact parseWithin_complete hutf8 hwritten (has_type hwritten.read hvalid.1)
      ((validateMessage_eq_ok hwritten.read).mpr hvalid) hfuel

/-! ## What accepted packets carry -/

theorem accepted_of_decodeMessage (h : decodeMessage packet = .ok message) :
    Accepted packet message :=
  (decodeWithin_eq_ok (show packet.length ≤ 2 * packet.length by omega)).mp h

/-- The payload an accepted packet carries is the text of one JSON object. -/
theorem decodeMessage_payload {packet : Bytes} {m : DecodedMessage}
    (h : decodeMessage packet = .ok m) : Object m.payloadJson := by
  obtain ⟨e, ⟨a, t, c, fields, -, -, -, -, hfilled⟩, -, -, hmessage⟩ :=
    (accepted_of_decodeMessage h).written
  have hjson : m.payloadJson = (topGet .payload e).json := by
    rw [hmessage]
    rfl
  rw [hjson]
  cases hvalue : valueOf topReader fields .payload with
  | none =>
    have habsent : topGet .payload e = topGet .payload {} := hfilled.absent .payload hvalue
    rw [habsent]
    exact object_empty spaces_nil
  | some v =>
    obtain ⟨q, ⟨inner, hobject, -⟩, hq⟩ := hfilled.present .payload v hvalue
    have hread : topGet .payload e = { q with json := v } := hq
    rw [hread]
    exact hobject.object

/-- An accepted packet keeps the rules of its type. -/
theorem decodeMessage_rule {packet : Bytes} {m : DecodedMessage}
    (h : decodeMessage packet = .ok m) :
    ∃ e, brokenRule e m.type = none ∧ m = { e.message with type := m.type } := by
  obtain ⟨e, hwritten, hname, hpermitted, hmessage⟩ := (accepted_of_decodeMessage h).written
  have hrule := brokenRule_eq_none hwritten.read (has_type hwritten.read hname) m.type
  exact ⟨e, hrule.mpr hpermitted, hmessage⟩

/-! ## Termination -/

theorem length_payloadField {key r r' : Bytes} {m m' : DecodedMessage}
    (h : payloadField fuel key m r = .ok (m', r')) : r'.length ≤ r.length := by
  obtain ⟨v, -, rfl⟩ := payloadField_sound h
  simp

theorem payloadField_fuel {fuel' : ℕ} {key r : Bytes} {m : DecodedMessage}
    (hfuel : 2 * r.length < fuel) (hfuel' : 2 * r.length < fuel') :
    payloadField fuel key m r = payloadField fuel' key m r := by
  unfold payloadField
  rw [skipValue_fuel fuel hfuel hfuel']

theorem parsePayload_fuel {fuel' : ℕ} {r : Bytes} {m : DecodedMessage}
    (hfuel : 2 * r.length < fuel) (hfuel' : 2 * r.length < fuel') :
    parsePayload fuel m r = parsePayload fuel' m r := by
  unfold parsePayload
  cases hopen : expect '{' r with
  | error error => rfl
  | ok r₁ =>
    have hlength : r.length = r₁.length + 1 := by
      rw [expect_eq_ok.mp hopen, List.length_cons]
    have hskip := length_skipSpace_le r₁
    simp only [bind, Except.bind]
    cases consume '}'.toUInt8 (skipSpace r₁) with
    | some r₂ => rfl
    | none =>
      simp only [payloadFields_eq]
      refine objectLoop_fuel fuel ?_ length_payloadField (by omega) (by omega)
      intro f _ f' key m r hr hr'
      exact payloadField_fuel hr hr'

theorem topEntry_fuel {fuel' : ℕ} {key r : Bytes} (hfuel : 2 * r.length < fuel)
    (hfuel' : 2 * r.length < fuel') : topEntry fuel key e r = topEntry fuel' key e r := by
  unfold topEntry topField
  simp only [parsePayload_fuel hfuel hfuel']

theorem length_topEntry {key r r' : Bytes} {e' : Envelope}
    (h : topEntry fuel key e r = .ok (e', r')) : r'.length ≤ r.length := by
  obtain ⟨v, -, rfl⟩ := topEntry_sound h
  simp

theorem topFields_fuel {fuel' : ℕ} {r : Bytes} (hfuel : 2 * r.length < fuel)
    (hfuel' : 2 * r.length < fuel') : topFields fuel e r = topFields fuel' e r := by
  simp only [topFields_eq]
  refine objectLoop_fuel fuel ?_ length_topEntry hfuel hfuel'
  intro f _ f' key e r hr hr'
  exact topEntry_fuel hr hr'

theorem stringBody_fuel (fuel : ℕ) : ∀ {fuel' : ℕ} {output r : Bytes}, r.length ≤ fuel →
    r.length ≤ fuel' → stringBody fuel output r = stringBody fuel' output r := by
  induction fuel with
  | zero =>
    intro fuel' output r hfuel _
    rw [List.length_eq_zero_iff.mp (Nat.le_zero.mp hfuel)]
    cases fuel' <;> rfl
  | succ fuel ih =>
    intro fuel' output r hfuel hfuel'
    cases r with
    | nil => cases fuel' <;> rfl
    | cons byte r =>
      simp only [List.length_cons] at hfuel hfuel'
      obtain ⟨fuel', rfl⟩ := Nat.exists_eq_succ_of_ne_zero (show fuel' ≠ 0 by omega)
      unfold stringBody
      split_ifs
      · rfl
      · rfl
      · exact ih (by omega) (by omega)
      · cases r with
        | nil => rfl
        | cons escape r =>
          simp only [List.length_cons] at hfuel hfuel'
          simp only
          split_ifs
          · cases hescape : parseUnicodeEscape r with
            | error error => rfl
            | ok result =>
              obtain ⟨u, c, -, -, hr⟩ := escape_of_parseUnicodeEscape hescape
              rw [hr, List.length_append] at hfuel hfuel'
              exact ih (by omega) (by omega)
          · cases simpleEscape escape with
            | none => rfl
            | some c => exact ih (by omega) (by omega)

/-- The loops of the decoder end by themselves: with two turns for each byte of the packet, more
turns change nothing. -/
theorem decodeWithin_eq (hfuel : 2 * packet.length ≤ fuel) :
    decodeWithin fuel packet = decodeMessage packet := by
  rw [decodeMessage_eq]
  unfold decodeWithin parseWithin
  cases hopen : expect '{' (skipSpace packet) with
  | error error => rfl
  | ok r₁ =>
    have hlength := length_expect_skipSpace hopen
    have hskip := length_skipSpace_le r₁
    have hsame : topFields fuel {} (skipSpace r₁) =
        topFields (2 * packet.length) {} (skipSpace r₁) :=
      topFields_fuel (by omega) (by omega)
    simp only [bind, Except.bind, hsame]

/-- No loop of the decoder ends for want of turns. -/
structure Terminates (packet : Bytes) : Prop where
  utf8 : ∀ fuel, packet.length ≤ fuel → validUtf8Fuel fuel packet = validUtf8 packet
  strings : ∀ fuel output r, r.length ≤ fuel →
    stringBody fuel output r = stringBody r.length output r
  fields : ∀ fuel, 2 * packet.length ≤ fuel → decodeWithin fuel packet = decodeMessage packet

/-- The decoder ends on every packet, and accepts exactly the packets of its grammar. -/
theorem decodeMessage_accepts (packet : Bytes) : Terminates packet ∧
    ∀ message, decodeMessage packet = .ok message ↔ Accepted packet message := by
  refine ⟨⟨?_, ?_, ?_⟩, ?_⟩
  · intro fuel hfuel
    exact validUtf8Fuel_eq hfuel
  · intro fuel output r hfuel
    exact stringBody_fuel fuel hfuel le_rfl
  · intro fuel hfuel
    exact decodeWithin_eq hfuel
  · intro message
    rw [decodeMessage_eq]
    exact decodeWithin_eq_ok (by omega)

end MsysCore.Native
