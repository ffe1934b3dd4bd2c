import Mathlib.Data.Rat.Defs
import Mathlib.Tactic

/-!
# Python values that JSON can carry

The values `json.loads` builds and the built-in operations the daemon applies to
them: `dict.get`, truth testing, `str`, `repr`, `int` and `dict`. A string is a list
of code points and may hold lone surrogates. Tables that come with the interpreter
(the Unicode database and the conversion of decimal texts to floats) are fields of
`Interpreter`.
-/

namespace MsysCore.Python

abbrev PyStr := List ℕ

instance : LawfulBEq PyStr := List.instLawfulBEq

/-- Code points of a literal of the source. -/
def lit (s : String) : PyStr := s.toList.map Char.toNat

inductive FloatValue
  | nan
  | inf (negative : Bool)
  | finite (q : ℚ)
  deriving DecidableEq

/-- A float with its `repr`. -/
structure PyFloat where
  repr : PyStr
  value : FloatValue
  deriving DecidableEq

inductive Json
  | null
  | bool (b : Bool)
  | int (i : ℤ)
  | float (f : PyFloat)
  | str (s : PyStr)
  | list (items : List Json)
  | dict (entries : List (Json × Json))

namespace Json

mutual

def beq : Json → Json → Bool
  | .null, .null => true
  | .bool a, .bool b => a == b
  | .int a, .int b => a == b
  | .float a, .float b => a == b
  | .str a, .str b => a == b
  | .list xs, .list ys => beqItems xs ys
  | .dict xs, .dict ys => beqEntries xs ys
  | _, _ => false

def beqItems : List Json → List Json → Bool
  | [], [] => true
  | x :: xs, y :: ys => beq x y && beqItems xs ys
  | _, _ => false

def beqEntries : List (Json × Json) → List (Json × Json) → Bool
  | [], [] => true
  | (k, v) :: xs, (l, w) :: ys => beq k l && beq v w && beqEntries xs ys
  | _, _ => false

end

mutual

theorem beq_iff_eq : ∀ a b : Json, beq a b = true ↔ a = b
  | .null, b => by cases b <;> simp [beq]
  | .bool a, b => by cases b <;> simp [beq]
  | .int a, b => by cases b <;> simp [beq]
  | .float a, b => by cases b <;> simp [beq]
  | .str a, b => by cases b <;> simp [beq]
  | .list xs, b => by
    cases b with
    | list ys => simp [beq, beqItems_iff_eq xs ys]
    | _ => simp [beq]
  | .dict xs, b => by
    cases b with
    | dict ys => simp [beq, beqEntries_iff_eq xs ys]
    | _ => simp [beq]

theorem beqItems_iff_eq : ∀ xs ys : List Json, beqItems xs ys = true ↔ xs = ys
  | [], ys => by cases ys <;> simp [beqItems]
  | x :: xs, [] => by simp [beqItems]
  | x :: xs, y :: ys => by simp [beqItems, beq_iff_eq x y, beqItems_iff_eq xs ys]

theorem beqEntries_iff_eq : ∀ xs ys : List (Json × Json), beqEntries xs ys = true ↔ xs = ys
  | [], ys => by cases ys <;> simp [beqEntries]
  | x :: xs, [] => by simp [beqEntries]
  | (k, v) :: xs, (l, w) :: ys => by
    simp [beqEntries, beq_iff_eq k l, beq_iff_eq v w, beqEntries_iff_eq xs ys, and_assoc]

end

instance : DecidableEq Json := fun a b => decidable_of_iff _ (beq_iff_eq a b)

end Json

structure Interpreter where
  /-- `float(text)` for the text of a JSON number. -/
  float : PyStr → PyFloat
  /-- `str.isprintable` of one character. -/
  printable : ℕ → Bool
  /-- `str.isspace` of one character. -/
  space : ℕ → Bool
  /-- `unicodedata.decimal`. -/
  decimal : ℕ → Option ℕ

/-- An interpreter without tables, for texts without special characters. -/
def bareInterpreter : Interpreter where
  float _ := ⟨[], .nan⟩
  printable _ := true
  space _ := false
  decimal _ := none

inductive ErrorClass
  | valueError | typeError | overflowError | attributeError | keyError
  | unicodeEncodeError | protocolError | osError | other
  deriving DecidableEq

/-- An exception with its `str()`. -/
structure PyError where
  kind : ErrorClass
  text : PyStr
  deriving DecidableEq

def raise {α : Type} (kind : ErrorClass) (text : String) : Except PyError α :=
  .error ⟨kind, lit text⟩

/-! ## Dictionaries -/

/-- Numeric value of the types that compare as numbers. -/
def Json.number : Json → Option FloatValue
  | .bool b => some (.finite (if b then 1 else 0))
  | .int i => some (.finite i)
  | .float f => some f.value
  | _ => none

/-- Equality of dictionary keys. `nan` differs from every number. -/
def keyEq (a b : Json) : Bool :=
  match a, b with
  | .null, .null => true
  | .str s, .str t => s == t
  | a, b =>
    match a.number, b.number with
    | some .nan, _ => false
    | some x, some y => x == y
    | _, _ => false

def isKey (name : PyStr) : Json → Bool
  | .str s => s == name
  | _ => false

/-- `d[key] = value`: an existing key keeps its place. -/
def setItem (key value : Json) : List (Json × Json) → List (Json × Json)
  | [] => [(key, value)]
  | (k, v) :: rest => if keyEq k key then (k, value) :: rest else (k, v) :: setItem key value rest

abbrev Dict := List (Json × Json)

/-- `d.get(name)`. -/
def Dict.get? (d : Dict) (name : String) : Option Json :=
  (d.find? fun entry => isKey (lit name) entry.1).map Prod.snd

/-- `d.get(name, default)`. -/
def Dict.get (d : Dict) (name : String) (default : Json) : Json := (Dict.get? d name).getD default

def Dict.set (d : Dict) (name : String) (value : Json) : Dict := setItem (.str (lit name)) value d

/-- A dictionary display with literal keys. -/
def record (fields : List (String × Json)) : Dict :=
  fields.map fun field => (.str (lit field.1), field.2)

def text (s : String) : Json := .str (lit s)

theorem lit_injective : Function.Injective lit := by
  intro s t h
  have hchars : s.toList = t.toList := by
    refine List.map_injective_iff.mpr ?_ h
    intro c d hcd
    exact Char.ext (UInt32.toNat_inj.mp hcd)
  exact String.toList_injective hchars

theorem isKey_of_keyEq {k : Json} {name : PyStr} (h : keyEq k (.str name) = true) :
    isKey name k = true := by
  cases k with
  | str s => exact h
  | null => cases h
  | bool b => cases h
  | int i => cases h
  | float f =>
    simp only [keyEq, Json.number] at h
    split at h <;> simp_all
  | list items => cases h
  | dict entries => cases h

@[simp] theorem get?_record_nil (name : String) : Dict.get? (record []) name = none := rfl

/-- Reading a dictionary display. -/
@[simp] theorem get?_record_cons (key : String) (value : Json) (fields : List (String × Json))
    (name : String) :
    Dict.get? (record ((key, value) :: fields)) name =
      if key = name then some value else Dict.get? (record fields) name := by
  have hkey : isKey (lit name) (.str (lit key)) = decide (key = name) := by
    by_cases h : key = name
    · simp [isKey, h]
    · simpa [isKey, h] using fun hlit => h (lit_injective hlit)
  rw [Dict.get?, record, List.map_cons, List.find?_cons, hkey]
  by_cases h : key = name
  · simp [h]
  · simp [h, Dict.get?, record]

theorem find_setItem_ne {name other : PyStr} (hne : other ≠ name) (value : Json) (d : Dict) :
    (setItem (.str other) value d).find? (fun entry => isKey name entry.1) =
      d.find? fun entry => isKey name entry.1 := by
  have hother : isKey name (.str other) = false := by simpa [isKey] using hne
  induction d with
  | nil => simp [setItem, hother]
  | cons entry d ih =>
    obtain ⟨k, v⟩ := entry
    rw [setItem]
    split_ifs with hk
    · have hkother := isKey_of_keyEq hk
      have hkname : isKey name k = false := by
        cases k with
        | str s =>
          have hs : s = other := by simpa [isKey] using hkother
          rw [hs]
          exact hother
        | _ => rfl
      simp [hkname]
    · cases hkname : isKey name k <;> simp [hkname, ih]

/-- Setting one field leaves the others alone. -/
theorem get?_set_ne {name other : String} (hne : other ≠ name) (d : Dict) (value : Json) :
    Dict.get? (Dict.set d other value) name = Dict.get? d name := by
  unfold Dict.get? Dict.set
  rw [find_setItem_ne fun h => hne (lit_injective h)]

theorem get_set_ne {name other : String} (hne : other ≠ name) (d : Dict) (value default : Json) :
    Dict.get (Dict.set d other value) name default = Dict.get d name default := by
  rw [Dict.get, get?_set_ne hne]
  rfl

theorem find_setItem_self (name : PyStr) (value : Json) (d : Dict) :
    (setItem (.str name) value d).find? (fun entry => isKey name entry.1) =
      some ((d.find? fun entry => isKey name entry.1).elim (.str name) Prod.fst, value) := by
  have hself : isKey name (.str name) = true := beq_self_eq_true name
  induction d with
  | nil => simp [setItem, hself]
  | cons entry d ih =>
    obtain ⟨k, v⟩ := entry
    rw [setItem]
    split_ifs with hk
    · simp [isKey_of_keyEq hk]
    · have hkname : isKey name k = false := by
        cases k with
        | str s => simpa [isKey, keyEq] using hk
        | _ => rfl
      simp [hkname, ih]

theorem get?_set_self (d : Dict) (name : String) (value : Json) :
    Dict.get? (Dict.set d name value) name = some value := by
  rw [Dict.get?, Dict.set, find_setItem_self]
  rfl

/-! ## Truth and types -/

def Json.truthy : Json → Bool
  | .null => false
  | .bool b => b
  | .int i => i != 0
  | .float f => f.value != .finite 0
  | .str s => !s.isEmpty
  | .list items => !items.isEmpty
  | .dict entries => !entries.isEmpty

def Json.typeName : Json → String
  | .null => "NoneType"
  | .bool _ => "bool"
  | .int _ => "int"
  | .float _ => "float"
  | .str _ => "str"
  | .list _ => "list"
  | .dict _ => "dict"

/-- `value.get`: only dictionaries have the method. -/
def Json.asDict : Json → Except PyError Dict
  | .dict entries => .ok entries
  | value => raise .attributeError ("'" ++ value.typeName ++ "' object has no attribute 'get'")

def isSurrogate (c : ℕ) : Bool := 0xd800 ≤ c && c ≤ 0xdfff

/-! ## `str` and `repr` -/

def hexDigit (n : ℕ) : ℕ := if n < 10 then 48 + n else 87 + n

/-- `n` as `width` lowercase hexadecimal digits. -/
def hex : ℕ → ℕ → PyStr
  | 0, _ => []
  | width + 1, n => hex width (n / 16) ++ [hexDigit (n % 16)]

def intText (i : ℤ) : PyStr :=
  (if i < 0 then lit "-" else []) ++ (Nat.toDigits 10 i.natAbs).map Char.toNat

/-- One character of `repr` inside the given quote. -/
def reprChar (py : Interpreter) (quote c : ℕ) : PyStr :=
  if c = quote ∨ c = 92 then [92, c]
  else if c = 9 then lit "\\t"
  else if c = 10 then lit "\\n"
  else if c = 13 then lit "\\r"
  else if 32 ≤ c ∧ c < 127 then [c]
  else if py.printable c then [c]
  else if c < 0x100 then lit "\\x" ++ hex 2 c
  else if c < 0x10000 then lit "\\u" ++ hex 4 c
  else lit "\\U" ++ hex 8 c

/-- Double quotes only around a text with single quotes and no double ones. -/
def reprStr (py : Interpreter) (s : PyStr) : PyStr :=
  let quote := if s.contains 39 && !s.contains 34 then 34 else 39
  quote :: s.flatMap (reprChar py quote) ++ [quote]

def joinComma : List PyStr → PyStr
  | [] => []
  | [s] => s
  | s :: rest => s ++ lit ", " ++ joinComma rest

mutual

def repr (py : Interpreter) : Json → PyStr
  | .null => lit "None"
  | .bool b => if b then lit "True" else lit "False"
  | .int i => intText i
  | .float f => f.repr
  | .str s => reprStr py s
  | .list items => lit "[" ++ joinComma (reprItems py items) ++ lit "]"
  | .dict entries => lit "\x7b" ++ joinComma (reprEntries py entries) ++ lit "\x7d"

def reprItems (py : Interpreter) : List Json → List PyStr
  | [] => []
  | item :: items => repr py item :: reprItems py items

def reprEntries (py : Interpreter) : List (Json × Json) → List PyStr
  | [] => []
  | (k, v) :: entries => (repr py k ++ lit ": " ++ repr py v) :: reprEntries py entries

end

/-- `str(value)`. -/
def toStr (py : Interpreter) : Json → PyStr
  | .str s => s
  | value => repr py value

/-! ## `int` -/

def strip (py : Interpreter) (s : PyStr) : PyStr :=
  ((s.dropWhile py.space).reverse.dropWhile py.space).reverse

/-- Decimal digits with single underscores between them. -/
def digits (py : Interpreter) : Option ℕ → PyStr → Option (List ℕ)
  | last, [] => if last.isSome then some [] else none
  | last, c :: rest =>
    match py.decimal c with
    | some d => (digits py (some d) rest).map (d :: ·)
    | none => if c = 95 ∧ last.isSome then digits py none rest else none

def maxIntDigits : ℕ := 4300

def intOfStr (py : Interpreter) (s : PyStr) : Except PyError ℤ :=
  let body := strip py s
  let (negative, body) := match body with
    | 43 :: rest => (false, rest)
    | 45 :: rest => (true, rest)
    | _ => (false, body)
  match digits py none body with
  | none =>
    .error ⟨.valueError, lit "invalid literal for int() with base 10: " ++ (reprStr py s).take 200⟩
  | some ds =>
    if maxIntDigits < ds.length then
      raise .valueError ("Exceeds the limit (4300 digits) for integer string conversion: value has "
        ++ toString ds.length ++ " digits; use sys.set_int_max_str_digits() to increase the limit")
    else
      let n : ℤ := ds.foldl (fun acc d => acc * 10 + d) 0
      .ok (if negative then -n else n)

/-- `int(value)`. -/
def toInt (py : Interpreter) : Json → Except PyError ℤ
  | .bool b => .ok (if b then 1 else 0)
  | .int i => .ok i
  | .float f => match f.value with
    | .nan => raise .valueError "cannot convert float NaN to integer"
    | .inf _ => raise .overflowError "cannot convert float infinity to integer"
    | .finite q => .ok (q.num.tdiv q.den)
  | .str s => intOfStr py s
  | value => raise .typeError ("int() argument must be a string, a bytes-like object or a real "
      ++ "number, not '" ++ value.typeName ++ "'")

/-! ## `dict` -/

/-- A value as a sequence, if it can be iterated. -/
def Json.items : Json → Option (List Json)
  | .str s => some (s.map fun c => .str [c])
  | .list items => some items
  | .dict entries => some (entries.map Prod.fst)
  | _ => none

def Json.hashable : Json → Bool
  | .list _ => false
  | .dict _ => false
  | _ => true

/-- `dict(sequence)` from element `index` on. -/
def dictFrom : ℕ → Dict → List Json → Except PyError Dict
  | _, d, [] => .ok d
  | index, d, item :: rest =>
    match item.items with
    | none => raise .typeError ("cannot convert dictionary update sequence element #"
        ++ toString index ++ " to a sequence")
    | some [key, value] =>
      if key.hashable then dictFrom (index + 1) (setItem key value d) rest
      else raise .typeError ("unhashable type: '" ++ key.typeName ++ "'")
    | some items => raise .valueError ("dictionary update sequence element #" ++ toString index
        ++ " has length " ++ toString items.length ++ "; 2 is required")

/-- `dict(value)`. -/
def toDict : Json → Except PyError Dict
  | .dict entries => .ok entries
  | value => match value.items with
    | none => raise .typeError ("'" ++ value.typeName ++ "' object is not iterable")
    | some items => dictFrom 0 [] items

end MsysCore.Python
