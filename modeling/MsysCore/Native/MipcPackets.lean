import MsysCore.Native.MipcAcceptance

/-!
# Packets the native Core writes

The text builders of `mipc_broker.cpp` and `native_router.cpp`. Both sources
splice quoted strings, decimal numbers and, for relayed messages, the raw payload
substring of the decoded packet. Every builder yields one JSON object, and apart
from the spliced payload none of them writes a line feed.
-/

namespace MsysCore.Native

open JsonGrammar

/-! ## Text pieces -/

def hexadecimal (n : ℕ) : UInt8 := (ascii "0123456789abcdef").getD n 0

/-- One character of `json_quote`. -/
def quoteByte (b : UInt8) : Bytes :=
  if b = '"'.toUInt8 then ascii "\\\""
  else if b = '\\'.toUInt8 then ascii "\\\\"
  else if b = 0x08 then ascii "\\b"
  else if b = 0x0c then ascii "\\f"
  else if b = '\n'.toUInt8 then ascii "\\n"
  else if b = '\r'.toUInt8 then ascii "\\r"
  else if b = '\t'.toUInt8 then ascii "\\t"
  else if b < 0x20 then
    ascii "\\u00" ++ [hexadecimal (b.toNat / 16), hexadecimal (b.toNat % 16)]
  else [b]

def jsonQuote (value : Bytes) : Bytes :=
  ascii "\"" ++ value.flatMap quoteByte ++ ascii "\""

/-- `std::to_string` of an unsigned integer. -/
def decimal (n : ℕ) : Bytes := (Nat.toDigits 10 n).map Char.toUInt8

def boolean (b : Bool) : Bytes := if b then ascii "true" else ascii "false"

/-- Entries of a loop that pushes a comma before all but the first. -/
def commaSeparated (entries : List Bytes) : Bytes := (ascii ",").intercalate entries

/-! ## Packets of the broker -/

def errorResponse (requestId : ℕ) (code message : Bytes) : Bytes :=
  ascii "\x7b\"type\":\"error\",\"id\":" ++ decimal requestId
    ++ ascii ",\"code\":" ++ jsonQuote code
    ++ ascii ",\"message\":" ++ jsonQuote message ++ ascii "\x7d"

def publicWelcome : Bytes :=
  ascii "\x7b\"type\":\"welcome\",\"component\":\"public\",\"generation\":0\x7d"

def componentWelcome (component : Bytes) (generation : ℕ) (runtimeDir : Bytes) : Bytes :=
  ascii "\x7b\"type\":\"welcome\",\"component\":" ++ jsonQuote component
    ++ ascii ",\"generation\":" ++ decimal generation
    ++ ascii ",\"runtime_dir\":" ++ jsonQuote runtimeDir ++ ascii "\x7d"

structure Provided where
  kind : Bytes
  name : Bytes
  exclusive : Bool
  priority : UInt32

structure ComponentStatus where
  id : Bytes
  lifecycle : Bytes
  restart : Bytes
  state : Bytes
  package : Bytes
  packageVersion : Bytes
  packageKind : Bytes
  name : Bytes
  summary : Bytes
  windowSystem : Bytes
  windowDisplay : Bytes
  windowMode : Bytes
  windowTitle : Bytes
  windowIdentity : Bytes
  launchable : Bool
  foreground : Bool
  provides : List Provided

def providedJson (provided : Provided) : Bytes :=
  ascii "\x7b\"kind\":" ++ jsonQuote provided.kind
    ++ ascii ",\"name\":" ++ jsonQuote provided.name
    ++ ascii ",\"exclusive\":" ++ boolean provided.exclusive
    ++ ascii ",\"priority\":" ++ decimal provided.priority.toNat ++ ascii "\x7d"

def componentJson (component : ComponentStatus) : Bytes :=
  List.flatten [
    ascii "\x7b\"id\":", jsonQuote component.id,
    ascii ",\"lifecycle\":", jsonQuote component.lifecycle,
    ascii ",\"restart\":", jsonQuote component.restart,
    ascii ",\"state\":", jsonQuote component.state,
    ascii ",\"package\":", jsonQuote component.package,
    ascii ",\"package_version\":", jsonQuote component.packageVersion,
    ascii ",\"package_kind\":", jsonQuote component.packageKind,
    ascii ",\"name\":", jsonQuote
      (if component.name.isEmpty then component.id else component.name),
    ascii ",\"summary\":", jsonQuote component.summary,
    ascii ",\"launchable\":", boolean component.launchable,
    ascii ",\"foreground\":", boolean component.foreground,
    ascii ",\"provides\":[", commaSeparated (component.provides.map providedJson),
    ascii "],\"windowing\":\x7b\"system\":", jsonQuote component.windowSystem,
    ascii ",\"display\":", jsonQuote component.windowDisplay,
    ascii ",\"mode\":", jsonQuote component.windowMode,
    ascii ",\"title\":", jsonQuote component.windowTitle,
    ascii ",\"identity\":\x7b\"app_id\":", jsonQuote component.windowIdentity,
    ascii ",\"x11_wm_class\":", jsonQuote component.windowIdentity,
    ascii "\x7d\x7d\x7d"]

def listComponentsReply (requestId : ℕ) (components : List ComponentStatus) : Bytes :=
  ascii "\x7b\"type\":\"return\",\"id\":" ++ decimal requestId
    ++ ascii ",\"payload\":\x7b\"components\":["
    ++ commaSeparated ((components.mergeSort fun l r => decide (l.id ≤ r.id)).map componentJson)
    ++ ascii "]\x7d\x7d"

/-- The reply to `start` and `stop`. -/
def lifecycleReply (requestId : ℕ) (component state : Bytes) : Bytes :=
  ascii "\x7b\"type\":\"return\",\"id\":" ++ decimal requestId
    ++ ascii ",\"payload\":\x7b\"component\":" ++ jsonQuote component
    ++ ascii ",\"state\":" ++ jsonQuote state ++ ascii "\x7d\x7d"

/-! ## Packets of the router -/

def errorPacket (id : ℕ) (code message : Bytes) : Bytes :=
  ascii "\x7b\"type\":\"error\",\"id\":" ++ decimal id
    ++ ascii ",\"code\":" ++ jsonQuote code
    ++ ascii ",\"message\":" ++ jsonQuote message ++ ascii "\x7d"

def returnPacket (id : ℕ) (payload : Bytes) : Bytes :=
  ascii "\x7b\"type\":\"return\",\"id\":" ++ decimal id
    ++ ascii ",\"payload\":" ++ payload ++ ascii "\x7d"

/-- The packet `broadcast` sends to every matching subscription. -/
def eventPacket (topic payload source : Bytes) : Bytes :=
  ascii "\x7b\"type\":\"event\",\"topic\":" ++ jsonQuote topic
    ++ ascii ",\"source\":" ++ jsonQuote source
    ++ ascii ",\"payload\":" ++ payload ++ ascii "\x7d"

/-- What `provider_reply` sends to the caller of the pending call. -/
def providerReplyPacket (callerRequestId : ℕ) (message : DecodedMessage) : Bytes :=
  if message.type = .returned then returnPacket callerRequestId message.payloadJson
  else errorPacket callerRequestId message.code message.message

/-! ## The pieces are JSON tokens -/

theorem hexadecimal_isHex {n : ℕ} (h : n < 16) : IsHex (hexadecimal n) := by
  unfold IsHex IsDigit
  interval_cases n <;> decide

theorem quoteByte_chars (b : UInt8) : Chars (quoteByte b) := by
  have hzero : IsHex 0x30 := .inl ⟨by decide, by decide⟩
  have hb : b.toNat < 256 := b.toNat_lt
  unfold quoteByte
  split_ifs with hq hs _ _ _ _ _ hlow
  -- the seven named characters use a two-byte escape
  iterate 7 exact .escape (by decide) .nil
  · exact .unicode hzero hzero (hexadecimal_isHex (by omega)) (hexadecimal_isHex (by omega)) .nil
  · exact .plain (UInt8.not_lt.mp hlow) hq hs .nil

theorem flatMap_quoteByte_chars (value : Bytes) : Chars (value.flatMap quoteByte) := by
  induction value with
  | nil => exact .nil
  | cons b value ih =>
    rw [List.flatMap_cons]
    exact (quoteByte_chars b).append ih

theorem jsonQuote_text (value : Bytes) : Text (jsonQuote value) :=
  ⟨value.flatMap quoteByte, flatMap_quoteByte_chars value, by simp [jsonQuote]; rfl⟩

theorem jsonQuote_value (value : Bytes) : Value (jsonQuote value) := .text (jsonQuote_text value)

theorem digitChar_isDigit {d : ℕ} (h : d < 10) : IsDigit (Nat.digitChar d).toUInt8 := by
  unfold IsDigit
  interval_cases d <;> decide

theorem decimal_of_pos (n : ℕ) (hn : 0 < n) :
    ∃ d ds, 0x31 ≤ d ∧ d ≤ 0x39 ∧ Digits ds ∧ decimal n = d :: ds := by
  induction n using Nat.strong_induction_on with
  | _ n ih =>
    by_cases h : n < 10
    · refine ⟨(Nat.digitChar n).toUInt8, [], ?_, ?_, by simp [Digits], ?_⟩
      · interval_cases n <;> decide
      · interval_cases n <;> decide
      · rw [decimal, Nat.toDigits_of_lt_base h, List.map_singleton]
    · push Not at h
      obtain ⟨d, ds, h1, h2, hds, heq⟩ := ih (n / 10) (by omega) (by omega)
      refine ⟨d, ds ++ [(Nat.digitChar (n % 10)).toUInt8], h1, h2, ?_, ?_⟩
      · intro b hb
        rcases List.mem_append.mp hb with hb | hb
        · exact hds b hb
        · rw [List.mem_singleton.mp hb]
          exact digitChar_isDigit (by omega)
      · rw [decimal] at heq
        rw [decimal, Nat.toDigits_of_base_le (by omega) h, List.map_append, heq]
        rfl

theorem decimal_integer (n : ℕ) : Integer (decimal n) := by
  rcases Nat.eq_zero_or_pos n with rfl | hn
  · exact .inl (by decide)
  · exact .inr (decimal_of_pos n hn)

theorem decimal_value (n : ℕ) : Value (decimal n) := .number (decimal_integer n).number

theorem boolean_value (b : Bool) : Value (boolean b) := by
  cases b with
  | false => exact .false
  | true => exact .true

/-! ## The packets are JSON objects

A builder alternates literals and values. A literal that ends in `"name":` opens
the field `name`; what follows a value is either the closing brace or a literal
that starts with a comma. -/

/-- What may follow the value of a field, up to the end of its object. -/
def FieldsTail (t : Bytes) : Prop := t = ascii "\x7d" ∨ ∃ m, Members m ∧ t = 0x2c :: m

theorem fieldsTail_close : FieldsTail (ascii "\x7d") := .inl rfl

theorem members_of_tail (name : String) {v t : Bytes} (hv : Value v) (ht : FieldsTail t) :
    Members (jsonQuote (ascii name) ++ 0x3a :: (v ++ t)) := by
  rcases ht with rfl | ⟨m, hm, rfl⟩
  · exact members_last (jsonQuote_text (ascii name)) hv
  · exact members_cons (jsonQuote_text (ascii name)) hv hm

theorem fieldsTail_field (name : String) {k v t : Bytes}
    (hk : k = 0x2c :: (jsonQuote (ascii name) ++ [0x3a])) (hv : Value v) (ht : FieldsTail t) :
    FieldsTail (k ++ (v ++ t)) := by
  subst hk
  exact .inr ⟨_, members_of_tail name hv ht, by simp⟩

theorem object_field (name : String) {k v t : Bytes}
    (hk : k = 0x7b :: (jsonQuote (ascii name) ++ [0x3a])) (hv : Value v) (ht : FieldsTail t) :
    Object (k ++ (v ++ t)) := by
  subst hk
  simpa using object_of_fields (members_of_tail name hv ht)

/-- The opening of a packet: its type and the name of the next field. -/
theorem object_typed (type name : String) {k v t : Bytes}
    (hk : k = ascii "\x7b\"type\":" ++ (jsonQuote (ascii type) ++
      0x2c :: (jsonQuote (ascii name) ++ [0x3a]))) (hv : Value v) (ht : FieldsTail t) :
    Object (k ++ (v ++ t)) := by
  subst hk
  have hnext : FieldsTail ((0x2c :: (jsonQuote (ascii name) ++ [0x3a])) ++ (v ++ t)) :=
    fieldsTail_field name rfl hv ht
  have h := object_field "type" (k := ascii "\x7b\"type\":") rfl (jsonQuote_value (ascii type)) hnext
  simpa using h

theorem errorPacket_object (id : ℕ) (code message : Bytes) :
    Object (errorPacket id code message) := by
  simp only [errorPacket, List.append_assoc]
  exact object_typed "error" "id" rfl (decimal_value id) <|
    fieldsTail_field "code" rfl (jsonQuote_value code) <|
    fieldsTail_field "message" rfl (jsonQuote_value message) fieldsTail_close

theorem returnPacket_object (id : ℕ) {payload : Bytes} (h : Value payload) :
    Object (returnPacket id payload) := by
  simp only [returnPacket, List.append_assoc]
  exact object_typed "return" "id" rfl (decimal_value id) <|
    fieldsTail_field "payload" rfl h fieldsTail_close

theorem eventPacket_object (topic source : Bytes) {payload : Bytes} (h : Value payload) :
    Object (eventPacket topic payload source) := by
  simp only [eventPacket, List.append_assoc]
  exact object_typed "event" "topic" rfl (jsonQuote_value topic) <|
    fieldsTail_field "source" rfl (jsonQuote_value source) <|
    fieldsTail_field "payload" rfl h fieldsTail_close

theorem publicWelcome_object : Object publicWelcome := by
  have hgeneration : FieldsTail (ascii ",\"generation\":" ++ (decimal 0 ++ ascii "\x7d")) :=
    fieldsTail_field "generation" rfl (decimal_value 0) fieldsTail_close
  exact object_typed "welcome" "component"
    (k := ascii "\x7b\"type\":\"welcome\",\"component\":") rfl (jsonQuote_value (ascii "public"))
    hgeneration

theorem providedJson_object (provided : Provided) : Object (providedJson provided) := by
  simp only [providedJson, List.append_assoc]
  exact object_field "kind" rfl (jsonQuote_value _) <|
    fieldsTail_field "name" rfl (jsonQuote_value _) <|
    fieldsTail_field "exclusive" rfl (boolean_value _) <|
    fieldsTail_field "priority" rfl (decimal_value _) fieldsTail_close

/-- An array whose entries a loop writes. -/
theorem entries_value {α : Type} (json : α → Bytes) (hjson : ∀ x, Value (json x)) (xs : List α) :
    Value (ascii "[" ++ (commaSeparated (xs.map json) ++ ascii "]")) := by
  refine array_of_values fun v hv => ?_
  obtain ⟨x, -, rfl⟩ := List.mem_map.mp hv
  exact hjson x

/-- The tail of a component entry, from its window record on. -/
theorem windowing_tail (component : ComponentStatus) :
    FieldsTail (ascii ",\"windowing\":" ++ ((ascii "\x7b\"system\":" ++
      (jsonQuote component.windowSystem ++ (ascii ",\"display\":" ++
      (jsonQuote component.windowDisplay ++ (ascii ",\"mode\":" ++
      (jsonQuote component.windowMode ++ (ascii ",\"title\":" ++
      (jsonQuote component.windowTitle ++ (ascii ",\"identity\":" ++
      ((ascii "\x7b\"app_id\":" ++ (jsonQuote component.windowIdentity ++
      (ascii ",\"x11_wm_class\":" ++ (jsonQuote component.windowIdentity ++ ascii "\x7d")))) ++
      ascii "\x7d")))))))))) ++ ascii "\x7d")) := by
  refine fieldsTail_field "windowing" rfl (Object.value ?_) fieldsTail_close
  refine object_field "system" rfl (jsonQuote_value _) <|
    fieldsTail_field "display" rfl (jsonQuote_value _) <|
    fieldsTail_field "mode" rfl (jsonQuote_value _) <|
    fieldsTail_field "title" rfl (jsonQuote_value _) <|
    fieldsTail_field "identity" rfl (Object.value ?_) fieldsTail_close
  exact object_field "app_id" rfl (jsonQuote_value _) <|
    fieldsTail_field "x11_wm_class" rfl (jsonQuote_value _) fieldsTail_close

theorem componentJson_object (component : ComponentStatus) :
    Object (componentJson component) := by
  have hprovides : ascii ",\"provides\":[" = ascii ",\"provides\":" ++ ascii "[" := by rfl
  have hwindowing : ascii "],\"windowing\":\x7b\"system\":" =
      ascii "]" ++ (ascii ",\"windowing\":" ++ ascii "\x7b\"system\":") := by rfl
  have hidentity : ascii ",\"identity\":\x7b\"app_id\":" =
      ascii ",\"identity\":" ++ ascii "\x7b\"app_id\":" := by rfl
  have hclose : ascii "\x7d\x7d\x7d" = ascii "\x7d" ++ (ascii "\x7d" ++ ascii "\x7d") := by rfl
  have htail := fieldsTail_field "provides" (k := ascii ",\"provides\":") rfl
    (entries_value providedJson (fun p => (providedJson_object p).value) component.provides)
    (windowing_tail component)
  have h := object_field "id" (k := ascii "\x7b\"id\":") rfl (jsonQuote_value component.id) <|
    fieldsTail_field "lifecycle" (k := ascii ",\"lifecycle\":") rfl
      (jsonQuote_value component.lifecycle) <|
    fieldsTail_field "restart" (k := ascii ",\"restart\":") rfl
      (jsonQuote_value component.restart) <|
    fieldsTail_field "state" (k := ascii ",\"state\":") rfl (jsonQuote_value component.state) <|
    fieldsTail_field "package" (k := ascii ",\"package\":") rfl
      (jsonQuote_value component.package) <|
    fieldsTail_field "package_version" (k := ascii ",\"package_version\":") rfl
      (jsonQuote_value component.packageVersion) <|
    fieldsTail_field "package_kind" (k := ascii ",\"package_kind\":") rfl
      (jsonQuote_value component.packageKind) <|
    fieldsTail_field "name" (k := ascii ",\"name\":") rfl
      (jsonQuote_value (if component.name.isEmpty then component.id else component.name)) <|
    fieldsTail_field "summary" (k := ascii ",\"summary\":") rfl
      (jsonQuote_value component.summary) <|
    fieldsTail_field "launchable" (k := ascii ",\"launchable\":") rfl
      (boolean_value component.launchable) <|
    fieldsTail_field "foreground" (k := ascii ",\"foreground\":") rfl
      (boolean_value component.foreground) htail
  simpa only [componentJson, hprovides, hwindowing, hidentity, hclose, List.flatten_cons,
    List.flatten_nil, List.append_nil, List.append_assoc] using h

theorem lifecycleReply_object (id : ℕ) (component state : Bytes) :
    Object (lifecycleReply id component state) := by
  have hopen : ascii ",\"payload\":\x7b\"component\":" =
      ascii ",\"payload\":" ++ ascii "\x7b\"component\":" := by rfl
  have hclose : ascii "\x7d\x7d" = ascii "\x7d" ++ ascii "\x7d" := by rfl
  have hpayload : Object (ascii "\x7b\"component\":" ++ (jsonQuote component ++
      (ascii ",\"state\":" ++ (jsonQuote state ++ ascii "\x7d")))) :=
    object_field "component" rfl (jsonQuote_value component) <|
      fieldsTail_field "state" rfl (jsonQuote_value state) fieldsTail_close
  simpa only [lifecycleReply, returnPacket, hopen, hclose, List.append_assoc]
    using returnPacket_object id hpayload.value

theorem listComponentsReply_object (id : ℕ) (components : List ComponentStatus) :
    Object (listComponentsReply id components) := by
  have hopen : ascii ",\"payload\":\x7b\"components\":[" =
      ascii ",\"payload\":" ++ (ascii "\x7b\"components\":" ++ ascii "[") := by rfl
  have hclose : ascii "]\x7d\x7d" = ascii "]" ++ (ascii "\x7d" ++ ascii "\x7d") := by rfl
  have hpayload := object_field "components" (k := ascii "\x7b\"components\":") rfl
    (entries_value componentJson (fun c => (componentJson_object c).value)
      (components.mergeSort fun l r => decide (l.id ≤ r.id))) fieldsTail_close
  simpa only [listComponentsReply, returnPacket, hopen, hclose, List.append_assoc]
    using returnPacket_object id hpayload.value

/-! ## Only a spliced payload can bring a line feed -/

theorem jsonQuote_lineFree (value : Bytes) : LineFree (jsonQuote value) :=
  (jsonQuote_text value).lineFree

theorem decimal_lineFree (n : ℕ) : LineFree (decimal n) := (decimal_integer n).lineFree

theorem boolean_lineFree (b : Bool) : LineFree (boolean b) := by
  cases b <;> decide

theorem errorPacket_lineFree (id : ℕ) (code message : Bytes) :
    LineFree (errorPacket id code message) := by
  simp only [errorPacket, lineFree_append]
  refine ⟨⟨⟨⟨⟨⟨?_, decimal_lineFree id⟩, ?_⟩, jsonQuote_lineFree code⟩, ?_⟩,
    jsonQuote_lineFree message⟩, ?_⟩
  all_goals decide

theorem returnPacket_lineFree_iff (id : ℕ) (payload : Bytes) :
    LineFree (returnPacket id payload) ↔ LineFree payload := by
  have hopen : LineFree (ascii "\x7b\"type\":\"return\",\"id\":") := by decide
  have hpayload : LineFree (ascii ",\"payload\":") := by decide
  have hclose : LineFree (ascii "\x7d") := by decide
  simp [returnPacket, decimal_lineFree, hopen, hpayload, hclose]

theorem eventPacket_lineFree_iff (topic payload source : Bytes) :
    LineFree (eventPacket topic payload source) ↔ LineFree payload := by
  have hopen : LineFree (ascii "\x7b\"type\":\"event\",\"topic\":") := by decide
  have hsource : LineFree (ascii ",\"source\":") := by decide
  have hpayload : LineFree (ascii ",\"payload\":") := by decide
  have hclose : LineFree (ascii "\x7d") := by decide
  simp [eventPacket, jsonQuote_lineFree, hopen, hsource, hpayload, hclose]

theorem providedJson_lineFree (provided : Provided) : LineFree (providedJson provided) := by
  simp only [providedJson, lineFree_append]
  refine ⟨⟨⟨⟨⟨⟨⟨⟨?_, jsonQuote_lineFree _⟩, ?_⟩, jsonQuote_lineFree _⟩, ?_⟩,
    boolean_lineFree _⟩, ?_⟩, decimal_lineFree _⟩, ?_⟩
  all_goals decide

theorem entries_lineFree {α : Type} (json : α → Bytes) (hjson : ∀ x, LineFree (json x))
    (xs : List α) : LineFree (commaSeparated (xs.map json)) := by
  refine lineFree_intercalate fun v hv => ?_
  obtain ⟨x, -, rfl⟩ := List.mem_map.mp hv
  exact hjson x

theorem componentJson_lineFree (component : ComponentStatus) :
    LineFree (componentJson component) := by
  have hprovides := entries_lineFree providedJson providedJson_lineFree component.provides
  simp only [componentJson, lineFree_flatten, List.forall_mem_cons, jsonQuote_lineFree,
    boolean_lineFree, hprovides, true_and]
  refine ⟨?_, ?_, ?_, ?_, ?_, ?_, ?_, ?_, ?_, ?_, ?_, ?_, ?_, ?_, ?_, ?_, ?_, ?_, ?_, by simp⟩
  all_goals decide

theorem lifecycleReply_lineFree (id : ℕ) (component state : Bytes) :
    LineFree (lifecycleReply id component state) := by
  simp only [lifecycleReply, lineFree_append]
  refine ⟨⟨⟨⟨⟨⟨?_, decimal_lineFree id⟩, ?_⟩, jsonQuote_lineFree component⟩, ?_⟩,
    jsonQuote_lineFree state⟩, ?_⟩
  all_goals decide

theorem listComponentsReply_lineFree (id : ℕ) (components : List ComponentStatus) :
    LineFree (listComponentsReply id components) := by
  simp only [listComponentsReply, lineFree_append]
  refine ⟨⟨⟨⟨?_, decimal_lineFree id⟩, ?_⟩,
    entries_lineFree componentJson componentJson_lineFree _⟩, ?_⟩
  all_goals decide

end MsysCore.Native
