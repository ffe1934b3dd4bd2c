import MsysCore.Python.Codec

/-!
# JSON with hooks

`json.loads` with `object_pairs_hook` and `parse_constant`. The hooks may raise; a nesting deeper
than the stack allows raises a `RecursionError`, which is no `ValueError`.
-/

namespace MsysCore.Python

structure JsonHooks where
  /-- `object_pairs_hook` -/
  object : List (PyStr × Json) → Except PyError Json
  /-- `parse_constant`, for the constants that are not JSON. -/
  constant : String → Except PyError Json

/-- A `JSONDecodeError`, without the position in its text. -/
def decodeError {α : Type} : Except PyError α := raise .valueError "invalid JSON"

def ofOption {α : Type} : Option α → Except PyError α
  | some a => .ok a
  | none => decodeError

def ofScan {α : Type} : Except ScanError α → Except PyError α
  | .ok a => .ok a
  | .error .invalid => decodeError
  | .error .digitLimit => raise .valueError "Exceeds the limit (4300 digits)"

def recursionError {α : Type} (container : String) : Except PyError α :=
  raise .other ("maximum recursion depth exceeded while decoding a JSON " ++ container ++
    " from a unicode string")

/-- The constants of `parse_constant`. -/
def nonJson : List String := ["NaN", "Infinity", "-Infinity"]

def hookedConstant (hooks : JsonHooks) (s : PyStr) : Except PyError (Json × PyStr) :=
  match nonJson.find? fun name => (lit name).isPrefixOf s with
  | some name => (hooks.constant name).map fun value => (value, s.drop name.length)
  | none => ofOption (scanConstant s)

section

variable (py : Interpreter) (hooks : JsonHooks)

mutual

/-- `depth` is how many containers may still be opened. -/
def hookedOnce : ℕ → ℕ → PyStr → Except PyError (Json × PyStr)
  | 0, _, _ => decodeError
  | fuel + 1, depth, s =>
    match s, depth with
    | 34 :: rest, _ => do
      let (value, rest) ← ofOption (scanString (rest.length + 1) rest)
      pure (.str value, rest)
    | 123 :: _, 0 => recursionError "object"
    | 123 :: rest, depth + 1 => do
      let (pairs, rest) ←
        match skipSpace rest with
        | 125 :: rest => pure ([], rest)
        | rest => hookedFields fuel depth rest
      let value ← hooks.object pairs
      pure (value, rest)
    | 91 :: _, 0 => recursionError "array"
    | 91 :: rest, depth + 1 => do
      let (items, rest) ←
        match skipSpace rest with
        | 93 :: rest => pure ([], rest)
        | rest => hookedItems fuel depth rest
      pure (.list items, rest)
    | s, _ =>
      match scanNumber py s with
      | some read => ofScan read
      | none => hookedConstant hooks s

/-- The members of an object, from a key on. -/
def hookedFields : ℕ → ℕ → PyStr → Except PyError (List (PyStr × Json) × PyStr)
  | fuel + 1, depth, 34 :: rest => do
    let (key, rest) ← ofOption (scanString (rest.length + 1) rest)
    match skipSpace rest with
    | 58 :: rest => do
      let (value, rest) ← hookedOnce fuel depth (skipSpace rest)
      match skipSpace rest with
      | 125 :: rest => pure ([(key, value)], rest)
      | 44 :: rest => do
        let (pairs, rest) ← hookedFields fuel depth (skipSpace rest)
        pure ((key, value) :: pairs, rest)
      | _ => decodeError
    | _ => decodeError
  | _, _, _ => decodeError

/-- The items of an array, from a value on. -/
def hookedItems : ℕ → ℕ → PyStr → Except PyError (List Json × PyStr)
  | 0, _, _ => decodeError
  | fuel + 1, depth, s => do
    let (value, rest) ← hookedOnce fuel depth s
    match skipSpace rest with
    | 93 :: rest => pure ([value], rest)
    | 44 :: rest => do
      let (items, rest) ← hookedItems fuel depth (skipSpace rest)
      pure (value :: items, rest)
    | _ => decodeError

end

/-- `json.loads(text, object_pairs_hook=..., parse_constant=...)`. A container takes two units of
the fuel and one character at least. -/
def loadsWith (depth : ℕ) (s : PyStr) : Except PyError Json :=
  match s with
  | 0xfeff :: _ => decodeError
  | _ => do
    let (value, rest) ← hookedOnce py hooks (2 * s.length + 2) depth (skipSpace s)
    if (skipSpace rest).isEmpty then pure value else decodeError

end

end MsysCore.Python
