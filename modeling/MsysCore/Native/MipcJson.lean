import Mathlib.Data.List.Basic
import Mathlib.Tactic

/-!
# The native mIPC decoder

Byte-level embedding of `mipc_json.cpp`. The parser keeps a view of the packet
and a position; here the position is the suffix that is still unread, so a
routine maps a suffix to its result and the next suffix. Whatever
`input_.substr(begin, position_ - begin)` reads back is the difference of the two
suffixes, `consumed`. Every `fail` keeps its detail text.
-/

namespace MsysCore.Native

abbrev Bytes := List UInt8

/-- Bytes of an ASCII literal of the source. -/
def ascii (s : String) : Bytes := s.toList.map Char.toUInt8

def maxPacketBytes : ℕ := 256 * 1024
def maxJsonDepth : ℕ := 32
def maxJsonContainerEntries : ℕ := 4096

def fail {α : Type} (detail : String) : Except Bytes α := .error (ascii detail)

/-- The part of `before` that was read when `after` is left. -/
def consumed (before after : Bytes) : Bytes := before.take (before.length - after.length)

/-! ## UTF-8 -/

/-- Length of the continuation and the payload bits of a leading byte. -/
def leadByte (first : UInt8) : Option (ℕ × ℕ) :=
  if 0xc2 ≤ first ∧ first ≤ 0xdf then some (1, (first &&& 0x1f).toNat)
  else if 0xe0 ≤ first ∧ first ≤ 0xef then some (2, (first &&& 0x0f).toNat)
  else if 0xf0 ≤ first ∧ first ≤ 0xf4 then some (3, (first &&& 0x07).toNat)
  else none

/-- Fold the continuation bytes into the code point. -/
def continuation : ℕ → ℕ → Bytes → Option (ℕ × Bytes)
  | 0, codePoint, r => some (codePoint, r)
  | _ + 1, _, [] => none
  | count + 1, codePoint, next :: r =>
    if next &&& 0xc0 = 0x80 then
      continuation count (codePoint * 64 + (next &&& 0x3f).toNat) r
    else none

/-- Overlong, surrogate and out-of-range code points are refused. -/
def scalarOk (count codePoint : ℕ) : Bool :=
  !((count == 2 && codePoint < 0x800) || (count == 3 && codePoint < 0x10000)
    || 0x10ffff < codePoint || (0xd800 ≤ codePoint && codePoint ≤ 0xdfff))

def validUtf8Fuel : ℕ → Bytes → Bool
  | _, [] => true
  | 0, _ :: _ => false
  | fuel + 1, first :: r =>
    if first ≤ 0x7f then validUtf8Fuel fuel r
    else match leadByte first with
      | none => false
      | some (count, bits) =>
        match continuation count bits r with
        | none => false
        | some (codePoint, rest) => scalarOk count codePoint && validUtf8Fuel fuel rest

def validUtf8 (value : Bytes) : Bool := validUtf8Fuel value.length value

def hexNibble (value : UInt8) : Option ℕ :=
  if '0'.toUInt8 ≤ value ∧ value ≤ '9'.toUInt8 then some (value.toNat - 48)
  else if 'a'.toUInt8 ≤ value ∧ value ≤ 'f'.toUInt8 then some (value.toNat - 97 + 10)
  else if 'A'.toUInt8 ≤ value ∧ value ≤ 'F'.toUInt8 then some (value.toNat - 65 + 10)
  else none

/-- `append_utf8`: the bytes pushed for one code point. -/
def appendUtf8 (codePoint : ℕ) : Bytes :=
  if codePoint ≤ 0x7f then [codePoint.toUInt8]
  else if codePoint ≤ 0x7ff then
    [(0xc0 + codePoint / 64).toUInt8, (0x80 + codePoint % 64).toUInt8]
  else if codePoint ≤ 0xffff then
    [(0xe0 + codePoint / 4096).toUInt8, (0x80 + codePoint / 64 % 64).toUInt8,
      (0x80 + codePoint % 64).toUInt8]
  else
    [(0xf0 + codePoint / 262144).toUInt8, (0x80 + codePoint / 4096 % 64).toUInt8,
      (0x80 + codePoint / 64 % 64).toUInt8, (0x80 + codePoint % 64).toUInt8]

/-! ## Tokens -/

def isSpace (b : UInt8) : Bool :=
  b == ' '.toUInt8 || b == '\t'.toUInt8 || b == '\n'.toUInt8 || b == '\r'.toUInt8

def skipSpace (r : Bytes) : Bytes := r.dropWhile isSpace

def consume (expected : UInt8) : Bytes → Option Bytes
  | [] => none
  | b :: r => if b = expected then some r else none

def expect (expected : Char) (r : Bytes) : Except Bytes Bytes :=
  match consume expected.toUInt8 r with
  | some r => .ok r
  | none => .error (ascii "expected JSON token: " ++ [expected.toUInt8])

def expectLiteral (literal : String) (r : Bytes) : Except Bytes Bytes :=
  if r.take literal.length = ascii literal then .ok (r.drop literal.length)
  else fail "invalid JSON literal"

def isDigit (b : UInt8) : Bool := '0'.toUInt8 ≤ b && b ≤ '9'.toUInt8

def requireDigit (minimum : Char) (r : Bytes) : Except Bytes Bytes :=
  match r with
  | [] => fail "JSON number requires a digit"
  | b :: r =>
    if minimum.toUInt8 ≤ b && b ≤ '9'.toUInt8 then .ok r
    else fail "JSON number requires a digit"

def parseHexQuad : Bytes → Except Bytes (ℕ × Bytes)
  | a :: b :: c :: d :: r =>
    match hexNibble a, hexNibble b, hexNibble c, hexNibble d with
    | some w, some x, some y, some z => .ok (((w * 16 + x) * 16 + y) * 16 + z, r)
    | _, _, _, _ => fail "JSON unicode escape is not hexadecimal"
  | _ => fail "truncated JSON unicode escape"

/-- The character an escape other than `u` stands for. -/
def simpleEscape (escape : UInt8) : Option UInt8 :=
  if escape = '"'.toUInt8 ∨ escape = '\\'.toUInt8 ∨ escape = '/'.toUInt8 then some escape
  else if escape = 'b'.toUInt8 then some 8
  else if escape = 'f'.toUInt8 then some 12
  else if escape = 'n'.toUInt8 then some 10
  else if escape = 'r'.toUInt8 then some 13
  else if escape = 't'.toUInt8 then some 9
  else none

/-- The `case 'u'` arm: a code point, or the pair of surrogates that spells one. -/
def parseUnicodeEscape (r : Bytes) : Except Bytes (ℕ × Bytes) := do
  let (codePoint, r) ← parseHexQuad r
  if 0xd800 ≤ codePoint ∧ codePoint ≤ 0xdbff then
    match r with
    | a :: b :: r =>
      if a = '\\'.toUInt8 ∧ b = 'u'.toUInt8 then do
        let (low, r) ← parseHexQuad r
        if low < 0xdc00 ∨ 0xdfff < low then
          fail "JSON high surrogate has an invalid low surrogate"
        else pure (0x10000 + (codePoint - 0xd800) * 1024 + (low - 0xdc00), r)
      else fail "JSON high surrogate lacks a low surrogate"
    | _ => fail "JSON high surrogate lacks a low surrogate"
  else if 0xdc00 ≤ codePoint ∧ codePoint ≤ 0xdfff then
    fail "JSON string contains an unpaired low surrogate"
  else pure (codePoint, r)

/-- The loop of `parse_string`. Every turn reads a byte, so the length of the
suffix bounds the number of turns. -/
def stringBody : ℕ → Bytes → Bytes → Except Bytes (Bytes × Bytes)
  | 0, _, _ => fail "unterminated JSON string"
  | _ + 1, _, [] => fail "unterminated JSON string"
  | fuel + 1, output, byte :: r =>
    if byte = '"'.toUInt8 then .ok (output, r)
    else if byte < 0x20 then fail "JSON string contains an unescaped control byte"
    else if byte ≠ '\\'.toUInt8 then stringBody fuel (output ++ [byte]) r
    else match r with
      | [] => fail "truncated JSON escape"
      | escape :: r =>
        if escape = 'u'.toUInt8 then
          match parseUnicodeEscape r with
          | .error e => .error e
          | .ok (codePoint, r) => stringBody fuel (output ++ appendUtf8 codePoint) r
        else match simpleEscape escape with
          | some c => stringBody fuel (output ++ [c]) r
          | none => fail "JSON string contains an invalid escape"

def parseString (r : Bytes) : Except Bytes (Bytes × Bytes) := do
  let r ← expect '"' r
  stringBody r.length [] r

/-- Integer part of a number: a lone zero, or a nonzero digit and more digits. -/
def numberInteger (r : Bytes) : Except Bytes Bytes :=
  match consume '0'.toUInt8 r with
  | some r =>
    if r.head?.any isDigit then fail "JSON number has a leading zero" else .ok r
  | none => (requireDigit '1' r).map (List.dropWhile isDigit)

def numberFraction (r : Bytes) : Except Bytes Bytes :=
  match consume '.'.toUInt8 r with
  | some r => (requireDigit '0' r).map (List.dropWhile isDigit)
  | none => .ok r

def numberExponent (r : Bytes) : Except Bytes Bytes :=
  match (consume 'e'.toUInt8 r).or (consume 'E'.toUInt8 r) with
  | some r =>
    let unsigned := ((consume '+'.toUInt8 r).or (consume '-'.toUInt8 r)).getD r
    (requireDigit '0' unsigned).map (List.dropWhile isDigit)
  | none => .ok r

def parseNumberToken (begin : Bytes) : Except Bytes Bytes := do
  let r := (consume '-'.toUInt8 begin).getD begin
  let r ← numberInteger r
  let r ← numberFraction r
  let r ← numberExponent r
  if r.length = begin.length then fail "expected JSON value" else pure r

/-- `std::from_chars` on a run of decimal digits. -/
def fromChars (token : Bytes) : ℕ := token.foldl (fun n b => n * 10 + (b.toNat - 48)) 0

def parseUnsignedInteger (field : String) (positive : Bool) (begin : Bytes) : Except Bytes (ℕ × Bytes) := do
  let r ← parseNumberToken begin
  let token := consumed begin r
  if token.isEmpty || token.head? == some '-'.toUInt8
      || token.any (fun b => b == '.'.toUInt8 || b == 'e'.toUInt8 || b == 'E'.toUInt8) then
    fail (field ++ " must be an unsigned integer")
  else
    let result := fromChars token
    if 2 ^ 64 ≤ result ∨ (positive ∧ result = 0) then
      fail (field ++ " is outside its allowed integer range")
    else pure (result, r)

def parseBoolean (field : String) (r : Bytes) : Except Bytes (Bool × Bytes) :=
  if r.take 4 = ascii "true" then .ok (true, r.drop 4)
  else if r.take 5 = ascii "false" then .ok (false, r.drop 5)
  else fail (field ++ " must be a boolean")

/-! ## Values -/

mutual

/-- `skip_value`. A nested value starts at a later byte and costs a turn of its loop, so
twice the number of bytes bounds the recursion and the loops; `skipValue` is used with
that much fuel. -/
def skipValue : ℕ → ℕ → Bytes → Except Bytes Bytes
  | 0, _, _ => fail "truncated JSON value"
  | fuel + 1, depth, r =>
    if maxJsonDepth < depth then fail "JSON nesting exceeds 32 levels"
    else match r with
      | [] => fail "truncated JSON value"
      | value :: rest =>
        if value = '"'.toUInt8 then (parseString (value :: rest)).map Prod.snd
        else if value = '{'.toUInt8 then
          match consume '}'.toUInt8 (skipSpace rest) with
          | some r => .ok r
          | none => skipFields fuel depth [] (skipSpace rest)
        else if value = '['.toUInt8 then
          match consume ']'.toUInt8 (skipSpace rest) with
          | some r => .ok r
          | none => skipEntries fuel depth 0 (skipSpace rest)
        else if value = 't'.toUInt8 then expectLiteral "true" (value :: rest)
        else if value = 'f'.toUInt8 then expectLiteral "false" (value :: rest)
        else if value = 'n'.toUInt8 then expectLiteral "null" (value :: rest)
        else parseNumberToken (value :: rest)

/-- The field loop of a nested object, from its next key. -/
def skipFields : ℕ → ℕ → List Bytes → Bytes → Except Bytes Bytes
  | 0, _, _, _ => fail "truncated JSON value"
  | fuel + 1, depth, fields, r =>
    if maxJsonContainerEntries ≤ fields.length then fail "JSON object has too many fields"
    else do
      let (key, r) ← parseString r
      if key ∈ fields then .error (ascii "duplicate nested JSON field: " ++ key)
      else do
        let r ← expect ':' (skipSpace r)
        let r ← skipValue fuel (depth + 1) (skipSpace r)
        match consume '}'.toUInt8 (skipSpace r) with
        | some r => pure r
        | none => do
          let r ← expect ',' (skipSpace r)
          skipFields fuel depth (key :: fields) (skipSpace r)

/-- The entry loop of a nested array, from its next entry. -/
def skipEntries : ℕ → ℕ → ℕ → Bytes → Except Bytes Bytes
  | 0, _, _, _ => fail "truncated JSON value"
  | fuel + 1, depth, entries, r =>
    if maxJsonContainerEntries ≤ entries then fail "JSON array has too many entries"
    else do
      let r ← skipValue fuel (depth + 1) r
      match consume ']'.toUInt8 (skipSpace r) with
      | some r => pure r
      | none => do
        let r ← expect ',' (skipSpace r)
        skipEntries fuel depth (entries + 1) (skipSpace r)

end

/-! ## Messages -/

inductive MessageType
  | hello | ready | call | subscribe | event | returned | error
  deriving DecidableEq, Repr

/-- The `type` text of each kind, in the order `validate_message` tests them. -/
def messageTypes : List (String × MessageType) :=
  [("hello", .hello), ("ready", .ready), ("call", .call), ("subscribe", .subscribe),
    ("event", .event), ("return", .returned), ("error", .error)]

/-- The entry of a table of names whose name is `key`. -/
def named {α : Type} (table : List (String × α)) (key : Bytes) : Option α :=
  (table.find? fun entry => ascii entry.1 == key).map Prod.snd

structure DecodedMessage where
  type : MessageType := .hello
  requestId : Option ℕ := none
  generation : Option ℕ := none
  deadlineMs : Option ℕ := none
  idempotent : Option Bool := none
  component : Bytes := []
  target : Bytes := []
  method : Bytes := []
  topic : Bytes := []
  code : Bytes := []
  message : Bytes := []
  payloadJson : Bytes := ascii "{}"
  payloadComponent : Option Bytes := none
  payloadRole : Option Bytes := none
  payloadTopic : Option Bytes := none
  payloadProvider : Option Bytes := none
  payloadAction : Option Bytes := none
  nestedPayloadJson : Option Bytes := none
  deriving DecidableEq, Repr

/-- The payload fields the decoder reads; any other is only skipped. -/
inductive PayloadKey
  | component | role | topic | provider | action | payload
  deriving DecidableEq, Repr

def payloadKeys : List (String × PayloadKey) :=
  [("component", .component), ("role", .role), ("topic", .topic), ("provider", .provider),
    ("action", .action), ("payload", .payload)]

def validatePayloadString (value : Bytes) (field : String) : Except Bytes Unit :=
  if value.isEmpty ∨ 256 < value.length then fail (field ++ " is outside its allowed length")
  else .ok ()

/-- A reserved payload string: read it, then check its length. -/
def payloadText (field : String) (r : Bytes) : Except Bytes (Bytes × Bytes) := do
  let (value, r) ← parseString r
  validatePayloadString value field
  pure (value, r)

/-- The value of one payload field, from its first byte. -/
def payloadField (fuel : ℕ) (key : Bytes) (message : DecodedMessage) (r : Bytes) :
    Except Bytes (DecodedMessage × Bytes) :=
  match named payloadKeys key with
  | some .component => do
    let (value, r) ← parseString r
    if value.isEmpty ∨ 128 < value.length then
      fail "payload.component is outside its allowed length"
    else pure ({ message with payloadComponent := some value }, r)
  | some .role => do
    let (value, r) ← payloadText "payload.role" r
    pure ({ message with payloadRole := some value }, r)
  | some .topic => do
    let (value, r) ← payloadText "payload.topic" r
    pure ({ message with payloadTopic := some value }, r)
  | some .provider => do
    let (value, r) ← payloadText "payload.provider" r
    pure ({ message with payloadProvider := some value }, r)
  | some .action => do
    let (value, r) ← payloadText "payload.action" r
    pure ({ message with payloadAction := some value }, r)
  | some .payload => do
    let rest ← skipValue fuel 2 r
    pure ({ message with nestedPayloadJson := some (consumed r rest) }, rest)
  | none => do
    let r ← skipValue fuel 2 r
    pure (message, r)

/-- The field loop of `parse_payload`, from its next key. -/
def payloadFields :
    ℕ → List Bytes → DecodedMessage → Bytes → Except Bytes (DecodedMessage × Bytes)
  | 0, _, _, _ => fail "truncated JSON value"
  | fuel + 1, fields, message, r =>
    if maxJsonContainerEntries ≤ fields.length then fail "payload object has too many fields"
    else do
      let (key, r) ← parseString r
      if key ∈ fields then .error (ascii "duplicate payload JSON field: " ++ key)
      else do
        let r ← expect ':' (skipSpace r)
        let (message, r) ← payloadField fuel key message (skipSpace r)
        match consume '}'.toUInt8 (skipSpace r) with
        | some r => pure (message, r)
        | none => do
          let r ← expect ',' (skipSpace r)
          payloadFields fuel (key :: fields) message (skipSpace r)

def parsePayload (fuel : ℕ) (message : DecodedMessage) (r : Bytes) :
    Except Bytes (DecodedMessage × Bytes) := do
  let r ← expect '{' r
  match consume '}'.toUInt8 (skipSpace r) with
  | some r => pure (message, r)
  | none => payloadFields fuel [] message (skipSpace r)

/-- The top-level fields of a packet. -/
inductive TopKey
  | type | id | component | generation | target | method | topic | code | message | source
  | deadlineMs | idempotent | payload
  deriving DecidableEq, Repr

def topKeys : List (String × TopKey) :=
  [("type", .type), ("id", .id), ("component", .component), ("generation", .generation),
    ("target", .target), ("method", .method), ("topic", .topic), ("code", .code),
    ("message", .message), ("source", .source), ("deadline_ms", .deadlineMs),
    ("idempotent", .idempotent), ("payload", .payload)]

/-- What the top-level loop has read: the keys, the type text and the message. -/
structure Envelope where
  fields : List Bytes := []
  typeName : Bytes := []
  message : DecodedMessage := {}

def Envelope.has (e : Envelope) (key : String) : Bool := e.fields.contains (ascii key)

/-- The value of one top-level field, from its first byte. -/
def topField (fuel : ℕ) (key : Bytes) (e : Envelope) (r : Bytes) :
    Except Bytes (Envelope × Bytes) :=
  let m := e.message
  match named topKeys key with
  | some .type => do
    let (value, r) ← parseString r
    pure ({ e with typeName := value }, r)
  | some .id => do
    let (value, r) ← parseUnsignedInteger "id" true r
    pure ({ e with message := { m with requestId := some value } }, r)
  | some .component => do
    let (value, r) ← parseString r
    pure ({ e with message := { m with component := value } }, r)
  | some .generation => do
    let (value, r) ← parseUnsignedInteger "generation" true r
    pure ({ e with message := { m with generation := some value } }, r)
  | some .target => do
    let (value, r) ← parseString r
    pure ({ e with message := { m with target := value } }, r)
  | some .method => do
    let (value, r) ← parseString r
    pure ({ e with message := { m with method := value } }, r)
  | some .topic => do
    let (value, r) ← parseString r
    pure ({ e with message := { m with topic := value } }, r)
  | some .code => do
    let (value, r) ← parseString r
    pure ({ e with message := { m with code := value } }, r)
  | some .message => do
    let (value, r) ← parseString r
    pure ({ e with message := { m with message := value } }, r)
  | some .source => do
    let (_, r) ← parseString r
    pure (e, r)
  | some .deadlineMs => do
    let (value, r) ← parseUnsignedInteger "deadline_ms" false r
    pure ({ e with message := { m with deadlineMs := some value } }, r)
  | some .idempotent => do
    let (value, r) ← parseBoolean "idempotent" r
    pure ({ e with message := { m with idempotent := some value } }, r)
  | some .payload => do
    let (m, rest) ← parsePayload fuel m r
    pure ({ e with message := { m with payloadJson := consumed r rest } }, rest)
  | none => .error (ascii "unknown top-level JSON field: " ++ key)

/-- The field loop of `parse`, from its next key. -/
def topFields : ℕ → Envelope → Bytes → Except Bytes (Envelope × Bytes)
  | 0, _, _ => fail "truncated JSON value"
  | fuel + 1, e, r =>
    if maxJsonContainerEntries ≤ e.fields.length then fail "JSON object has too many fields"
    else do
      let (key, r) ← parseString r
      if key ∈ e.fields then .error (ascii "duplicate JSON field: " ++ key)
      else do
        let r ← expect ':' (skipSpace r)
        let (e, r) ← topField fuel key { e with fields := key :: e.fields } (skipSpace r)
        match consume '}'.toUInt8 (skipSpace r) with
        | some r => pure (e, r)
        | none => do
          let r ← expect ',' (skipSpace r)
          topFields fuel e (skipSpace r)

/-- The rule of its type that a packet breaks, with the detail of the failure. The
`*_present_` flags of the parser record that a key was read, so they are
`Envelope.has`. -/
def brokenRule (e : Envelope) : MessageType → Option String :=
  let m := e.message
  let has := e.has
  fun
  | .hello =>
    if m.requestId.isSome || has "target" || has "method" || has "payload"
        || m.deadlineMs.isSome || m.idempotent.isSome || has "topic" || has "code"
        || has "message" || has "source" then some "hello contains call-only fields"
    else if has "component" != m.generation.isSome then
      some "component hello requires component and generation together"
    else if has "component" && (m.component.isEmpty || 128 < m.component.length) then
      some "component hello has invalid component"
    else none
  | .ready =>
    if e.fields.length != 1 || !has "type" then some "ready accepts only the type field"
    else none
  | .call =>
    if m.requestId.isNone || !has "target" || !has "method" then
      some "call requires id, target, and method"
    else if has "component" || m.generation.isSome then some "call contains hello-only fields"
    else if has "topic" || has "code" || has "message" || has "source" then
      some "call contains fields reserved for routed output"
    else if m.target.isEmpty || 256 < m.target.length
        || m.method.isEmpty || 256 < m.method.length then
      some "call target or method is outside its allowed length"
    else none
  | .subscribe =>
    if !has "topic" || m.topic.isEmpty || 256 < m.topic.length || e.fields.length != 2
        || !has "type" then some "subscribe requires only type and a bounded topic"
    else none
  | .event =>
    if !has "topic" || m.topic.isEmpty || 256 < m.topic.length || !has "payload"
        || e.fields.length != 3 || !has "type" then
      some "event requires type, topic, and payload"
    else none
  | .returned =>
    if m.requestId.isNone || !has "payload" || e.fields.length != 3 || !has "type"
        || !has "id" then some "return requires only type, id, and payload"
    else none
  | .error =>
    if m.requestId.isNone || !has "code" || m.code.isEmpty || 128 < m.code.length
        || (has "message" && 1024 < m.message.length) || has "target" || has "method"
        || has "topic" || has "component" || m.generation.isSome || m.deadlineMs.isSome
        || m.idempotent.isSome || has "source" then some "error has invalid fields"
    else none

def validateMessage (e : Envelope) : Except Bytes DecodedMessage :=
  if e.typeName.isEmpty then fail "mIPC packet requires non-empty string type"
  else match named messageTypes e.typeName with
    | none => fail "unsupported mIPC message type"
    | some type =>
      match brokenRule e type with
      | some detail => fail detail
      | none => .ok { e.message with type := type }

/-- `Parser::parse`. -/
def parse (input : Bytes) : Except Bytes DecodedMessage :=
  if input.isEmpty then fail "mIPC packet is empty"
  else if !validUtf8 input then fail "mIPC packet is not valid UTF-8"
  else do
    let r ← expect '{' (skipSpace input)
    if (consume '}'.toUInt8 (skipSpace r)).isSome then fail "mIPC packet requires string type"
    else do
      let (e, r) ← topFields (2 * input.length) {} (skipSpace r)
      if !(skipSpace r).isEmpty then fail "trailing data after JSON object"
      else validateMessage e

def decodeMessage (packet : Bytes) : Except Bytes DecodedMessage :=
  if maxPacketBytes < packet.length then fail "packet exceeds 262144 bytes" else parse packet

end MsysCore.Native
