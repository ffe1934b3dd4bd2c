import MsysCore.Lib.Except
import MsysCore.Python.Values

/-!
# The mIPC codec of the Python Core

`protocol.py` with the parts of `json` it uses. `dumps` is
`json.dumps(..., ensure_ascii=False, separators=(",", ":"))`; a lone surrogate passes
through it and is refused by the UTF-8 encoder. `loads` accepts what the standard
scanner accepts, `NaN` and lone surrogate escapes included; a repeated key keeps the
place of its first and the value of its last occurrence. The recursion limit of the
interpreter is not modelled.
-/

namespace MsysCore.Python

abbrev Bytes := List UInt8

def maxPacket : ℕ := 256 * 1024

/-! ## UTF-8 -/

def utf8Char (c : ℕ) : Bytes :=
  if c < 0x80 then [c.toUInt8]
  else if c < 0x800 then [(0xc0 + c / 64).toUInt8, (0x80 + c % 64).toUInt8]
  else if c < 0x10000 then
    [(0xe0 + c / 4096).toUInt8, (0x80 + c / 64 % 64).toUInt8, (0x80 + c % 64).toUInt8]
  else
    [(0xf0 + c / 262144).toUInt8, (0x80 + c / 4096 % 64).toUInt8, (0x80 + c / 64 % 64).toUInt8,
      (0x80 + c % 64).toUInt8]

/-- Text of a `UnicodeEncodeError`: it names the first run of surrogates. -/
def surrogateMessage (s : PyStr) : PyStr :=
  let start := s.findIdx isSurrogate
  let run := (s.drop start).takeWhile isSurrogate
  let place := match run with
    | [c] => lit " '\\u" ++ hex 4 c ++ lit "' in position " ++ intText start
    | _ => lit "s in position " ++ intText start ++ lit "-" ++ intText (start + run.length - 1)
  lit "'utf-8' codec can't encode character" ++ place ++ lit ": surrogates not allowed"

/-- `s.encode("utf-8")`. -/
def utf8Encode (s : PyStr) : Except PyError Bytes :=
  if s.any isSurrogate then .error ⟨.unicodeEncodeError, surrogateMessage s⟩
  else .ok (s.flatMap utf8Char)

/-- A continuation byte and the code point it extends. -/
def utf8Next (c : ℕ) : Bytes → Option (ℕ × Bytes)
  | b :: rest => if 0x80 ≤ b ∧ b < 0xc0 then some (c * 64 + (b.toNat - 0x80), rest) else none
  | [] => none

/-- One code point of well-formed UTF-8. -/
def utf8Step (b : UInt8) (rest : Bytes) : Option (ℕ × Bytes) :=
  if b < 0x80 then some (b.toNat, rest)
  else if 0xc2 ≤ b ∧ b < 0xe0 then utf8Next (b.toNat - 0xc0) rest
  else if 0xe0 ≤ b ∧ b < 0xf0 then do
    let (c, rest) ← utf8Next (b.toNat - 0xe0) rest
    let (c, rest) ← utf8Next c rest
    if c < 0x800 ∨ isSurrogate c then none else some (c, rest)
  else if 0xf0 ≤ b ∧ b < 0xf5 then do
    let (c, rest) ← utf8Next (b.toNat - 0xf0) rest
    let (c, rest) ← utf8Next c rest
    let (c, rest) ← utf8Next c rest
    if c < 0x10000 ∨ 0x10ffff < c then none else some (c, rest)
  else none

def utf8DecodeFuel : ℕ → Bytes → Option PyStr
  | _, [] => some []
  | 0, _ :: _ => none
  | fuel + 1, b :: rest => do
    let (c, rest) ← utf8Step b rest
    let s ← utf8DecodeFuel fuel rest
    pure (c :: s)

/-- `data.decode("utf-8")`. -/
def utf8Decode (data : Bytes) : Option PyStr := utf8DecodeFuel data.length data

/-! ## Writing -/

def escapeChar (c : ℕ) : PyStr :=
  if c = 34 then lit "\\\""
  else if c = 92 then lit "\\\\"
  else if c = 8 then lit "\\b"
  else if c = 12 then lit "\\f"
  else if c = 10 then lit "\\n"
  else if c = 13 then lit "\\r"
  else if c = 9 then lit "\\t"
  else if c < 32 then lit "\\u" ++ hex 4 c
  else [c]

def dumpsStr (s : PyStr) : PyStr := 34 :: s.flatMap escapeChar ++ [34]

def dumpsFloat (f : PyFloat) : PyStr :=
  match f.value with
  | .nan => lit "NaN"
  | .inf negative => if negative then lit "-Infinity" else lit "Infinity"
  | .finite _ => f.repr

/-- The text of a dictionary key; keys that are not strings become strings. -/
def keyText : Json → PyStr
  | .str s => s
  | .null => lit "null"
  | .bool b => if b then lit "true" else lit "false"
  | .int i => intText i
  | .float f => dumpsFloat f
  | .list _ => []
  | .dict _ => []

mutual

def dumps : Json → PyStr
  | .null => lit "null"
  | .bool b => if b then lit "true" else lit "false"
  | .int i => intText i
  | .float f => dumpsFloat f
  | .str s => dumpsStr s
  | .list [] => lit "[]"
  | .list (item :: items) => lit "[" ++ dumps item ++ dumpsItems items ++ lit "]"
  | .dict [] => lit "\x7b\x7d"
  | .dict ((k, v) :: entries) =>
    lit "\x7b" ++ dumpsStr (keyText k) ++ lit ":" ++ dumps v ++ dumpsEntries entries ++ lit "\x7d"

def dumpsItems : List Json → PyStr
  | [] => []
  | item :: items => lit "," ++ dumps item ++ dumpsItems items

def dumpsEntries : List (Json × Json) → PyStr
  | [] => []
  | (k, v) :: entries =>
    lit "," ++ dumpsStr (keyText k) ++ lit ":" ++ dumps v ++ dumpsEntries entries

end

def encode (message : Dict) : Except PyError Bytes := do
  let data ← utf8Encode (dumps (.dict message))
  if maxPacket < data.length then raise .protocolError "mIPC packet is too large"
  else pure data

/-! ## What can be encoded -/

mutual

/-- No string of the value holds a lone surrogate. -/
def Json.clean : Json → Bool
  | .null => true
  | .bool _ => true
  | .int _ => true
  | .float f => !(dumpsFloat f).any isSurrogate
  | .str s => !s.any isSurrogate
  | .list items => cleanItems items
  | .dict entries => cleanEntries entries

def cleanItems : List Json → Bool
  | [] => true
  | item :: items => item.clean && cleanItems items

def cleanEntries : List (Json × Json) → Bool
  | [] => true
  | (k, v) :: entries => !(keyText k).any isSurrogate && v.clean && cleanEntries entries

end

theorem hexDigit_clean {n : ℕ} (h : n < 16) : isSurrogate (hexDigit n) = false := by
  unfold isSurrogate hexDigit
  split_ifs <;> simp <;> omega

theorem hex_clean (width n : ℕ) : (hex width n).any isSurrogate = false := by
  induction width generalizing n with
  | zero => rfl
  | succ width ih =>
    rw [hex, List.any_append, ih, List.any_cons, hexDigit_clean (Nat.mod_lt _ (by omega))]
    rfl

theorem escapeChar_clean (c : ℕ) : (escapeChar c).any isSurrogate = isSurrogate c := by
  unfold escapeChar
  split_ifs with h1 h2 h3 h4 h5 h6 h7 h8
  iterate 7 subst c; decide
  · rw [List.any_append, hex_clean]
    have hc : isSurrogate c = false := by
      unfold isSurrogate
      simp
      omega
    rw [hc]
    decide
  · simp

theorem dumpsStr_clean (s : PyStr) : (dumpsStr s).any isSurrogate = s.any isSurrogate := by
  have hflat : (s.flatMap escapeChar).any isSurrogate = s.any isSurrogate := by
    induction s with
    | nil => rfl
    | cons c s ih => rw [List.flatMap_cons, List.any_append, ih, escapeChar_clean, List.any_cons]
  have hquote : isSurrogate 34 = false := by decide
  simp [dumpsStr, hflat, hquote]

theorem intText_clean (i : ℤ) : (intText i).any isSurrogate = false := by
  have hdigits : ((Nat.toDigits 10 i.natAbs).map Char.toNat).any isSurrogate = false := by
    rw [List.any_eq_false]
    intro n hn
    obtain ⟨c, hc, rfl⟩ := List.mem_map.mp hn
    have hdigit := Nat.isDigit_of_mem_toDigits (by decide) (by decide) hc
    simp only [Char.isDigit, Bool.and_eq_true, decide_eq_true_eq, ge_iff_le] at hdigit
    have hle : c.toNat ≤ 57 := hdigit.2
    unfold isSurrogate
    simp
    omega
  unfold intText
  rw [List.any_append, hdigits]
  split_ifs
  · decide
  · rfl

mutual

theorem dumps_clean : ∀ v : Json, (dumps v).any isSurrogate = !v.clean
  | .null => by rw [dumps, Json.clean]; decide
  | .bool b => by cases b <;> (rw [dumps, Json.clean]; decide)
  | .int i => by rw [dumps, Json.clean, intText_clean]; rfl
  | .float f => by simp [dumps, Json.clean]
  | .str s => by simp [dumps, Json.clean, dumpsStr_clean]
  | .list [] => by rw [dumps, Json.clean, cleanItems]; decide
  | .list (item :: items) => by
    have h1 : (lit "[").any isSurrogate = false := by decide
    have h2 : (lit "]").any isSurrogate = false := by decide
    simp only [dumps, Json.clean, cleanItems, List.any_append, dumps_clean item,
      dumpsItems_clean items, h1, h2]
    cases item.clean <;> cases cleanItems items <;> rfl
  | .dict [] => by rw [dumps, Json.clean, cleanEntries]; decide
  | .dict ((k, v) :: entries) => by
    have h1 : (lit "\x7b").any isSurrogate = false := by decide
    have h2 : (lit ":").any isSurrogate = false := by decide
    have h3 : (lit "\x7d").any isSurrogate = false := by decide
    simp only [dumps, Json.clean, cleanEntries, List.any_append, dumps_clean v,
      dumpsEntries_clean entries, dumpsStr_clean, h1, h2, h3]
    cases (keyText k).any isSurrogate <;> cases v.clean <;> cases cleanEntries entries <;> rfl

theorem dumpsItems_clean : ∀ items : List Json,
    (dumpsItems items).any isSurrogate = !cleanItems items
  | [] => rfl
  | item :: items => by
    have h1 : (lit ",").any isSurrogate = false := by decide
    simp only [dumpsItems, cleanItems, List.any_append, dumps_clean item, dumpsItems_clean items, h1]
    cases item.clean <;> cases cleanItems items <;> rfl

theorem dumpsEntries_clean : ∀ entries : List (Json × Json),
    (dumpsEntries entries).any isSurrogate = !cleanEntries entries
  | [] => rfl
  | (k, v) :: entries => by
    have h1 : (lit ",").any isSurrogate = false := by decide
    have h2 : (lit ":").any isSurrogate = false := by decide
    simp only [dumpsEntries, cleanEntries, List.any_append, dumps_clean v,
      dumpsEntries_clean entries, dumpsStr_clean, h1, h2]
    cases (keyText k).any isSurrogate <;> cases v.clean <;> cases cleanEntries entries <;> rfl

end

/-- Bytes of the encoded packet, lone surrogates apart. -/
def packetSize (message : Dict) : ℕ := ((dumps (.dict message)).flatMap utf8Char).length

/-- The packet has no lone surrogate and stays within the limit. -/
def Encodable (message : Dict) : Prop :=
  (Json.dict message).clean = true ∧ packetSize message ≤ maxPacket

instance (message : Dict) : Decidable (Encodable message) := inferInstanceAs (Decidable (_ ∧ _))

theorem encode_of_encodable {message : Dict} (h : Encodable message) :
    encode message = .ok ((dumps (.dict message)).flatMap utf8Char) := by
  obtain ⟨hclean, hsize⟩ := h
  have hany : (dumps (.dict message)).any isSurrogate = false := by
    rw [dumps_clean, hclean]
    rfl
  have hdata : utf8Encode (dumps (.dict message)) =
      .ok ((dumps (.dict message)).flatMap utf8Char) := by
    rw [utf8Encode, hany]
    rfl
  rw [encode, hdata]
  exact if_neg (Nat.not_lt.mpr hsize)

theorem encode_error {message : Dict} (h : ¬ Encodable message) :
    ∃ e, encode message = .error e ∧ e.kind ≠ .osError := by
  by_cases hany : (dumps (.dict message)).any isSurrogate = true
  · refine ⟨⟨.unicodeEncodeError, surrogateMessage (dumps (.dict message))⟩, ?_, ?_⟩
    · rw [encode, utf8Encode, if_pos hany]
      rfl
    · simp
  · have hclean : (Json.dict message).clean = true := by
      have hd := dumps_clean (.dict message)
      rw [Bool.not_eq_true] at hany
      rw [hany] at hd
      simpa using hd.symm
    have hsize : maxPacket < packetSize message := by
      by_contra hle
      exact h ⟨hclean, Nat.not_lt.mp hle⟩
    refine ⟨⟨.protocolError, lit "mIPC packet is too large"⟩, ?_, by decide⟩
    rw [encode, utf8Encode, if_neg hany]
    exact if_pos hsize

theorem encode_returns_iff {message : Dict} : Returns (encode message) ↔ Encodable message := by
  constructor
  · rintro ⟨data, hdata⟩
    by_contra hnot
    obtain ⟨e, he, -⟩ := encode_error hnot
    rw [hdata] at he
    cases he
  · exact fun h => ⟨_, encode_of_encodable h⟩

/-! ## Reading -/

/-- A `JSONDecodeError`, or the `ValueError` of an integer text over the digit limit. -/
inductive ScanError
  | invalid | digitLimit
  deriving DecidableEq

def isSpace (c : ℕ) : Bool := c == 32 || c == 9 || c == 10 || c == 13

def skipSpace (s : PyStr) : PyStr := s.dropWhile isSpace

def hexValue (c : ℕ) : Option ℕ :=
  if 48 ≤ c ∧ c ≤ 57 then some (c - 48)
  else if 97 ≤ c ∧ c ≤ 102 then some (c - 87)
  else if 65 ≤ c ∧ c ≤ 70 then some (c - 55)
  else none

/-- `_decode_uXXXX`. -/
def hexQuad : PyStr → Option (ℕ × PyStr)
  | a :: b :: c :: d :: rest => do
    let a ← hexValue a
    let b ← hexValue b
    let c ← hexValue c
    let d ← hexValue d
    pure (a * 4096 + b * 256 + c * 16 + d, rest)
  | _ => none

/-- The character of a `\u` escape; a high and a low surrogate combine. -/
def unicodeEscape (s : PyStr) : Option (ℕ × PyStr) := do
  let (high, rest) ← hexQuad s
  if 0xd800 ≤ high ∧ high ≤ 0xdbff then
    match rest with
    | 92 :: 117 :: tail =>
      let (low, tail) ← hexQuad tail
      if 0xdc00 ≤ low ∧ low ≤ 0xdfff then
        pure (0x10000 + (high - 0xd800) * 1024 + (low - 0xdc00), tail)
      else pure (high, rest)
    | _ => pure (high, rest)
  else pure (high, rest)

def simpleEscape (c : ℕ) : Option ℕ :=
  if c = 34 ∨ c = 92 ∨ c = 47 then some c
  else if c = 98 then some 8
  else if c = 102 then some 12
  else if c = 110 then some 10
  else if c = 114 then some 13
  else if c = 116 then some 9
  else none

/-- `scanstring` after the opening quote. -/
def scanString : ℕ → PyStr → Option (PyStr × PyStr)
  | 0, _ => none
  | _ + 1, [] => none
  | _ + 1, 34 :: rest => some ([], rest)
  | fuel + 1, 92 :: 117 :: rest => do
    let (c, rest) ← unicodeEscape rest
    let (s, rest) ← scanString fuel rest
    pure (c :: s, rest)
  | fuel + 1, 92 :: e :: rest => do
    let c ← simpleEscape e
    let (s, rest) ← scanString fuel rest
    pure (c :: s, rest)
  | fuel + 1, c :: rest =>
    if c < 32 then none
    else do
      let (s, rest) ← scanString fuel rest
      pure (c :: s, rest)

def isDigit (c : ℕ) : Bool := 48 ≤ c && c ≤ 57

/-- Integer part of a number: the digits read and the rest. -/
def scanInteger (s : PyStr) : Option (PyStr × PyStr) :=
  match s with
  | 48 :: rest => some ([48], rest)
  | c :: _ => if isDigit c then some (s.takeWhile isDigit, s.dropWhile isDigit) else none
  | [] => none

def scanFraction (s : PyStr) : PyStr × PyStr :=
  match s with
  | 46 :: c :: rest =>
    if isDigit c then (46 :: (c :: rest).takeWhile isDigit, (c :: rest).dropWhile isDigit)
    else ([], s)
  | _ => ([], s)

def scanExponent (s : PyStr) : PyStr × PyStr :=
  match s with
  | e :: rest =>
    if e = 101 ∨ e = 69 then
      let (sign, body) := match rest with
        | 43 :: body => ([43], body)
        | 45 :: body => ([45], body)
        | _ => ([], rest)
      match body with
      | c :: _ =>
        if isDigit c then (e :: sign ++ body.takeWhile isDigit, body.dropWhile isDigit)
        else ([], s)
      | [] => ([], s)
    else ([], s)
  | [] => ([], s)

/-- The number pattern of the scanner, where it matches. -/
def scanNumber (py : Interpreter) (s : PyStr) : Option (Except ScanError (Json × PyStr)) := do
  let (sign, body) := match s with
    | 45 :: rest => ([45], rest)
    | _ => ([], s)
  let (whole, rest) ← scanInteger body
  let (fraction, rest) := scanFraction rest
  let (exponent, rest) := scanExponent rest
  if fraction.isEmpty && exponent.isEmpty then
    if maxIntDigits < whole.length then pure (.error .digitLimit)
    else
      let n : ℤ := whole.foldl (fun acc c => acc * 10 + (c - 48 : ℕ)) 0
      pure (.ok (.int (if sign.isEmpty then n else -n), rest))
  else pure (.ok (.float (py.float (sign ++ whole ++ fraction ++ exponent)), rest))

def special (text : String) (value : FloatValue) : Json := .float ⟨lit text, value⟩

/-- The named constants. -/
def scanConstant (s : PyStr) : Option (Json × PyStr) :=
  let table : List (String × Json) :=
    [("null", .null), ("true", .bool true), ("false", .bool false), ("NaN", special "nan" .nan),
      ("Infinity", special "inf" (.inf false)), ("-Infinity", special "-inf" (.inf true))]
  (table.find? fun entry => (lit entry.1).isPrefixOf s).map fun entry =>
    (entry.2, s.drop entry.1.length)

def orInvalid {α : Type} : Option α → Except ScanError α
  | some a => .ok a
  | none => .error .invalid

mutual

def scanOnce (py : Interpreter) : ℕ → PyStr → Except ScanError (Json × PyStr)
  | 0, _ => .error .invalid
  | fuel + 1, s =>
    match s with
    | 34 :: rest => do
      let (value, rest) ← orInvalid (scanString (rest.length + 1) rest)
      pure (.str value, rest)
    | 123 :: rest =>
      match skipSpace rest with
      | 125 :: rest => .ok (.dict [], rest)
      | rest => do
        let (fields, rest) ← scanFields py fuel [] rest
        pure (.dict fields, rest)
    | 91 :: rest =>
      match skipSpace rest with
      | 93 :: rest => .ok (.list [], rest)
      | rest => do
        let (items, rest) ← scanItems py fuel rest
        pure (.list items, rest)
    | s => (scanNumber py s).getD (orInvalid (scanConstant s))

/-- The fields of an object, from a key on. -/
def scanFields (py : Interpreter) : ℕ → Dict → PyStr → Except ScanError (Dict × PyStr)
  | 0, _, _ => .error .invalid
  | fuel + 1, d, 34 :: rest => do
    let (key, rest) ← orInvalid (scanString (rest.length + 1) rest)
    match skipSpace rest with
    | 58 :: rest => do
      let (value, rest) ← scanOnce py fuel (skipSpace rest)
      match skipSpace rest with
      | 125 :: rest => pure (setItem (.str key) value d, rest)
      | 44 :: rest => scanFields py fuel (setItem (.str key) value d) (skipSpace rest)
      | _ => .error .invalid
    | _ => .error .invalid
  | _ + 1, _, _ => .error .invalid

/-- The items of an array, from a value on. -/
def scanItems (py : Interpreter) : ℕ → PyStr → Except ScanError (List Json × PyStr)
  | 0, _ => .error .invalid
  | fuel + 1, s => do
    let (value, rest) ← scanOnce py fuel s
    match skipSpace rest with
    | 93 :: rest => pure ([value], rest)
    | 44 :: rest => do
      let (items, rest) ← scanItems py fuel (skipSpace rest)
      pure (value :: items, rest)
    | _ => .error .invalid

end

/-- `json.loads`. -/
def loads (py : Interpreter) (s : PyStr) : Except ScanError Json :=
  match s with
  | 0xfeff :: _ => .error .invalid
  | _ => do
    let (value, rest) ← scanOnce py (s.length + 1) (skipSpace s)
    if (skipSpace rest).isEmpty then pure value else .error .invalid

/-- A packet that `decode` accepts has a string `type`. The error of the digit limit is
not a `JSONDecodeError` and passes through. -/
def decode (py : Interpreter) (data : Bytes) : Except PyError Dict :=
  if maxPacket < data.length then raise .protocolError "mIPC packet is too large"
  else match (orInvalid (utf8Decode data)).bind (loads py) with
    | .ok (.dict value) =>
      match Dict.get? value "type" with
      | some (.str _) => .ok value
      | _ => raise .protocolError "mIPC packet requires string type"
    | .ok _ => raise .protocolError "mIPC packet must be an object"
    | .error .invalid => raise .protocolError "invalid mIPC packet"
    | .error .digitLimit => raise .valueError "Exceeds the limit (4300 digits)"

/-- What `decode` guarantees. -/
theorem decode_type {py : Interpreter} {data : Bytes} {msg : Dict} (h : decode py data = .ok msg) :
    ∃ t, Dict.get? msg "type" = some (.str t) := by
  unfold decode at h
  split at h
  · cases h
  · split at h
    · split at h
      · rename_i t ht
        cases h
        exact ⟨t, ht⟩
      · cases h
    · cases h
    · cases h
    · cases h

end MsysCore.Python
