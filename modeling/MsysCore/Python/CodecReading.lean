import Mathlib.Data.List.TakeWhile
import MsysCore.Python.Codec

/-!
# What the scanner reads of a written text

`scanOnce` on a text of `dumps`. Keys are written as texts and come back as strings; of
two keys with one text the later one wins. So what is read is the JSON image of the value
that was written, and the value itself where its keys are distinct strings already.
-/

namespace MsysCore.Python

variable {py : Interpreter}

/-! ## The JSON image of a value -/

mutual

/-- The value as the other end of a connection sees it. -/
def wire : Json → Json
  | .null => .null
  | .bool b => .bool b
  | .int i => .int i
  | .float f => .float f
  | .str s => .str s
  | .list items => .list (wireItems items)
  | .dict entries => .dict (wireEntries [] entries)

def wireItems : List Json → List Json
  | [] => []
  | item :: items => wire item :: wireItems items

/-- The fields of `entries` set one after the other. -/
def wireEntries : Dict → List (Json × Json) → Dict
  | d, [] => d
  | d, (k, v) :: entries => wireEntries (setItem (.str (keyText k)) (wire v) d) entries

end

/-- What `float.__repr__` and `float` promise each other: the text of a finite float is a
number of the scanner, and reading it gives the float. -/
structure ReadsBack (py : Interpreter) (f : PyFloat) : Prop where
  ascii : ∀ c ∈ f.repr, c < 0x80
  nan : f.value = .nan → f = ⟨lit "nan", .nan⟩
  inf : ∀ negative, f.value = .inf negative →
    f = ⟨if negative then lit "-inf" else lit "inf", .inf negative⟩
  finite : ∀ q, f.value = .finite q → scanNumber py f.repr = some (.ok (.float f, []))

/-- A text of the interpreter holds code points. -/
def CodePoints (s : PyStr) : Prop := ∀ c ∈ s, c < 0x110000

mutual

/-- `json` writes the value and reads its parts: integers within the digit limit of the
interpreter, floats that read back, keys of the types `json` takes. -/
def Json.Readable (py : Interpreter) : Json → Prop
  | .null => True
  | .bool _ => True
  | .int i => (Nat.toDigits 10 i.natAbs).length ≤ maxIntDigits
  | .float f => ReadsBack py f
  | .str s => CodePoints s
  | .list items => ReadableItems py items
  | .dict entries => ReadableEntries py entries

def ReadableItems (py : Interpreter) : List Json → Prop
  | [] => True
  | item :: items => item.Readable py ∧ ReadableItems py items

def ReadableEntries (py : Interpreter) : List (Json × Json) → Prop
  | [] => True
  | (k, v) :: entries =>
    k.hashable = true ∧ k.Readable py ∧ v.Readable py ∧ ReadableEntries py entries

end

/-! ## Where a value ends -/

/-- `rest` is empty, or goes on with a comma, the end of a list or a dictionary, or the end of a
line. -/
def Closed (rest : PyStr) : Prop := ∀ c ∈ rest.head?, c = 44 ∨ c = 93 ∨ c = 125 ∨ c = 10

theorem closed_nil : Closed [] := by simp [Closed]

theorem closed_cons {c : ℕ} (rest : PyStr) (h : c = 44 ∨ c = 93 ∨ c = 125 ∨ c = 10) :
    Closed (c :: rest) := by
  intro d hd
  cases hd
  exact h

/-- The first character of a written value: neither a space nor the end of a list. -/
def Opens (s : PyStr) : Prop := ∃ c tail, s = c :: tail ∧ isSpace c = false ∧ c ≠ 93

theorem Opens.append {s : PyStr} (h : Opens s) (rest : PyStr) : Opens (s ++ rest) := by
  obtain ⟨c, tail, rfl, hspace, hclose⟩ := h
  exact ⟨c, tail ++ rest, rfl, hspace, hclose⟩

theorem Opens.skipSpace {s : PyStr} (h : Opens s) : skipSpace s = s := by
  obtain ⟨c, tail, rfl, hspace, -⟩ := h
  rw [Python.skipSpace, List.dropWhile_cons_of_neg (by simp [hspace])]

/-! ## Strings -/

theorem hexValue_hexDigit {n : ℕ} (h : n < 16) : hexValue (hexDigit n) = some n := by
  unfold hexValue hexDigit
  split_ifs <;> first | omega | (congr 1; omega)

theorem hexQuad_hex {c : ℕ} (h : c < 65536) (rest : PyStr) :
    hexQuad (hex 4 c ++ rest) = some (c, rest) := by
  have hvalue : c / 16 / 16 / 16 % 16 * 4096 + c / 16 / 16 % 16 * 256 + c / 16 % 16 * 16 + c % 16
      = c := by omega
  simp only [hex, List.nil_append, List.cons_append, hexQuad,
    hexValue_hexDigit (Nat.mod_lt _ (by decide : 0 < 16)), Option.bind_eq_bind, Option.bind_some,
    hvalue]
  rfl

theorem prepend_eq (c : ℕ) (read : Option (PyStr × PyStr)) :
    (do let (s, rest) ← read; pure (c :: s, rest))
      = read.map fun read => (c :: read.1, read.2) := by
  cases read <;> rfl

theorem scanString_simple {e c : ℕ} (h : simpleEscape e = some c) (fuel : ℕ) (rest : PyStr) :
    scanString (fuel + 1) (92 :: e :: rest) =
      (scanString fuel rest).map fun read => (c :: read.1, read.2) := by
  have hunicode : e ≠ 117 := by
    rintro rfl
    cases h
  rw [scanString]
  · rw [h]
    exact prepend_eq c _
  · simpa using hunicode

/-- An escaped character is read back in one turn. -/
theorem scanString_escapeChar (c fuel : ℕ) (rest : PyStr) :
    scanString (fuel + 1) (escapeChar c ++ rest) =
      (scanString fuel rest).map fun read => (c :: read.1, read.2) := by
  unfold escapeChar
  split_ifs with h1 h2 h3 h4 h5 h6 h7 h8
  iterate 7
    subst c
    exact scanString_simple rfl fuel rest
  · have hunicode : unicodeEscape (hex 4 c ++ rest) = some (c, rest) := by
      rw [unicodeEscape, hexQuad_hex (by omega)]
      exact if_neg (by omega)
    show scanString (fuel + 1) (92 :: 117 :: (hex 4 c ++ rest)) = _
    rw [scanString, hunicode]
    exact prepend_eq c _
  · show scanString (fuel + 1) (c :: rest) = _
    rw [scanString, if_neg h8]
    · exact prepend_eq c _
    · exact h1
    · exact fun _ hc => absurd hc h2
    · exact fun _ _ hc => absurd hc h2

theorem scanString_flatMap (s : PyStr) : ∀ fuel rest, (s.flatMap escapeChar).length < fuel →
    scanString fuel (s.flatMap escapeChar ++ 34 :: rest) = some (s, rest) := by
  induction s with
  | nil =>
    intro fuel rest hfuel
    cases fuel with
    | zero => cases hfuel
    | succ fuel => rfl
  | cons c s ih =>
    intro fuel rest hfuel
    cases fuel with
    | zero => cases hfuel
    | succ fuel =>
      have hpos : 0 < (escapeChar c).length := by
        unfold escapeChar
        split_ifs <;> simp [lit]
      rw [List.flatMap_cons, List.length_append] at hfuel
      rw [List.flatMap_cons, List.append_assoc, scanString_escapeChar, ih fuel rest (by omega)]
      rfl

/-! ## Numbers -/

theorem scanFraction_absent {s : PyStr}
    (h : ∀ c tail, s = 46 :: c :: tail → isDigit c = false) : scanFraction s = ([], s) := by
  unfold scanFraction
  split
  · rename_i c tail
    rw [if_neg (by simp [h c tail rfl])]
  · rfl

/-- The sign of an exponent and what follows it. -/
def signed : PyStr → PyStr × PyStr
  | 43 :: body => ([43], body)
  | 45 :: body => ([45], body)
  | s => ([], s)

theorem scanExponent_cons (e : ℕ) (s : PyStr) : scanExponent (e :: s) =
    if (e = 101 ∨ e = 69) ∧ (signed s).2.head?.any isDigit = true then
      (e :: (signed s).1 ++ (signed s).2.takeWhile isDigit, (signed s).2.dropWhile isDigit)
    else ([], e :: s) := by
  by_cases he : e = 101 ∨ e = 69
  · rcases s with _ | ⟨c, s⟩
    · simp [scanExponent, signed, he]
    · by_cases hplus : c = 43
      · subst hplus
        cases s <;> simp [scanExponent, signed, he]
      · by_cases hminus : c = 45
        · subst hminus
          cases s <;> simp [scanExponent, signed, he]
        · simp [scanExponent, signed, he, hplus, hminus]
  · simp [scanExponent, he]

/-- A number after its sign. -/
def numberFrom (py : Interpreter) (sign body : PyStr) :
    Option (Except ScanError (Json × PyStr)) := do
  let (whole, rest) ← scanInteger body
  let (fraction, rest) := scanFraction rest
  let (exponent, rest) := scanExponent rest
  if fraction.isEmpty && exponent.isEmpty then
    if maxIntDigits < whole.length then pure (.error .digitLimit)
    else
      let n : ℤ := whole.foldl (fun acc c => acc * 10 + (c - 48 : ℕ)) 0
      pure (.ok (.int (if sign.isEmpty then n else -n), rest))
  else pure (.ok (.float (py.float (sign ++ whole ++ fraction ++ exponent)), rest))

theorem scanNumber_unsigned {s : PyStr} (h : s.head? ≠ some 45) :
    scanNumber py s = numberFrom py [] s := by
  unfold scanNumber
  split
  rename_i sign body hsplit
  split at hsplit
  · simp at h
  · cases hsplit
    rfl

section

variable {rest : PyStr} (hclosed : Closed rest)

include hclosed

theorem head_not_digit : ∀ c ∈ rest.head?, isDigit c = false := by
  intro c hc
  rcases hclosed c hc with rfl | rfl | rfl | rfl <;> rfl

theorem takeWhile_append_closed (s : PyStr) :
    (s ++ rest).takeWhile isDigit = s.takeWhile isDigit := by
  induction s with
  | nil =>
    cases rest with
    | nil => rfl
    | cons c rest => exact List.takeWhile_cons_of_neg (by simp [head_not_digit hclosed c rfl])
  | cons c s ih =>
    rw [List.cons_append, List.takeWhile_cons, List.takeWhile_cons, ih]

theorem dropWhile_append_closed (s : PyStr) :
    (s ++ rest).dropWhile isDigit = s.dropWhile isDigit ++ rest := by
  induction s with
  | nil =>
    cases rest with
    | nil => rfl
    | cons c rest => exact List.dropWhile_cons_of_neg (by simp [head_not_digit hclosed c rfl])
  | cons c s ih =>
    rw [List.cons_append, List.dropWhile_cons, List.dropWhile_cons, ih]
    split_ifs <;> rfl

theorem scanInteger_append (s : PyStr) :
    scanInteger (s ++ rest) = (scanInteger s).map fun read => (read.1, read.2 ++ rest) := by
  cases s with
  | nil =>
    cases rest with
    | nil => rfl
    | cons c rest => rcases hclosed c rfl with rfl | rfl | rfl | rfl <;> rfl
  | cons c s =>
    by_cases hzero : c = 48
    · subst hzero
      rfl
    · rw [List.cons_append, scanInteger, scanInteger]
      · rw [← List.cons_append, takeWhile_append_closed hclosed, dropWhile_append_closed hclosed]
        split_ifs <;> rfl
      · exact hzero
      · exact hzero

theorem scanFraction_append (s : PyStr) :
    scanFraction (s ++ rest) = ((scanFraction s).1, (scanFraction s).2 ++ rest) := by
  by_cases hfraction : ∃ c tail, s = 46 :: c :: tail
  · obtain ⟨c, tail, rfl⟩ := hfraction
    simp only [List.cons_append, scanFraction]
    rw [← List.cons_append, takeWhile_append_closed hclosed, dropWhile_append_closed hclosed]
    split_ifs <;> rfl
  · have hs : scanFraction s = ([], s) :=
      scanFraction_absent fun c tail heq => absurd ⟨c, tail, heq⟩ hfraction
    rw [hs, scanFraction_absent]
    intro c tail heq
    rcases s with _ | ⟨first, _ | ⟨second, s⟩⟩
    · obtain rfl : rest = 46 :: c :: tail := heq
      rcases hclosed 46 rfl with h | h | h | h <;> cases h
    · obtain ⟨-, hrest⟩ := List.cons.inj heq
      exact head_not_digit hclosed c (by rw [show rest = c :: tail from hrest]; rfl)
    · obtain ⟨hfirst, -⟩ := List.cons.inj heq
      exact absurd ⟨second, s, by rw [hfirst]⟩ hfraction

theorem any_isDigit_append (s : PyStr) :
    (s ++ rest).head?.any isDigit = s.head?.any isDigit := by
  cases s with
  | nil =>
    cases rest with
    | nil => rfl
    | cons c rest => simp [head_not_digit hclosed c rfl]
  | cons c s => rfl

theorem signed_append (s : PyStr) :
    signed (s ++ rest) = ((signed s).1, (signed s).2 ++ rest) := by
  cases s with
  | nil =>
    cases rest with
    | nil => rfl
    | cons c rest => rcases hclosed c rfl with rfl | rfl | rfl | rfl <;> rfl
  | cons c s =>
    unfold signed
    by_cases hplus : c = 43
    · simp [hplus]
    · by_cases hminus : c = 45
      · simp [hminus]
      · simp [hplus, hminus]

theorem scanExponent_append (s : PyStr) :
    scanExponent (s ++ rest) = ((scanExponent s).1, (scanExponent s).2 ++ rest) := by
  cases s with
  | nil =>
    cases rest with
    | nil => rfl
    | cons c rest => rcases hclosed c rfl with rfl | rfl | rfl | rfl <;> rfl
  | cons e s =>
    rw [List.cons_append, scanExponent_cons, scanExponent_cons, signed_append hclosed,
      any_isDigit_append hclosed, takeWhile_append_closed hclosed, dropWhile_append_closed hclosed]
    split_ifs <;> rfl

/-- A number is read up to a comma or the end of a list or a dictionary. -/
theorem scanNumber_append (s : PyStr) : scanNumber py (s ++ rest) =
    (scanNumber py s).map fun read => read.map fun read => (read.1, read.2 ++ rest) := by
  have hbody : ∀ sign body : PyStr, numberFrom py sign (body ++ rest) =
      (numberFrom py sign body).map fun read => read.map fun read => (read.1, read.2 ++ rest) := by
    intro sign body
    unfold numberFrom
    rw [scanInteger_append hclosed]
    cases scanInteger body with
    | none => rfl
    | some whole =>
      simp only [Option.map_some, Option.bind_eq_bind, Option.bind_some,
        scanFraction_append hclosed, scanExponent_append hclosed]
      split_ifs <;> rfl
  cases s with
  | nil =>
    cases rest with
    | nil => rfl
    | cons c rest => rcases hclosed c rfl with rfl | rfl | rfl | rfl <;> rfl
  | cons c s =>
    by_cases hminus : c = 45
    · subst hminus
      exact hbody [45] s
    · rw [scanNumber_unsigned (by simpa using hminus), scanNumber_unsigned (by simpa using hminus)]
      exact hbody [] (c :: s)

end

theorem scanInteger_head {s : PyStr} {read : PyStr × PyStr} (h : scanInteger s = some read) :
    ∃ c tail, s = c :: tail ∧ isDigit c = true := by
  unfold scanInteger at h
  split at h
  · exact ⟨48, _, rfl, rfl⟩
  · rename_i c tail _
    split_ifs at h with hdigit
    exact ⟨c, tail, rfl, hdigit⟩
  · cases h

/-- A number opens with its sign or a digit. -/
theorem scanNumber_head {s : PyStr} {read : Except ScanError (Json × PyStr)}
    (h : scanNumber py s = some read) : ∃ c tail, s = c :: tail ∧ (c = 45 ∨ isDigit c = true) := by
  by_cases hminus : s.head? = some 45
  · obtain ⟨tail, rfl⟩ := List.head?_eq_some_iff.mp hminus
    exact ⟨45, tail, rfl, Or.inl rfl⟩
  · rw [scanNumber_unsigned hminus, numberFrom] at h
    cases hwhole : scanInteger s with
    | none =>
      rw [hwhole] at h
      cases h
    | some whole =>
      obtain ⟨c, tail, hs, hdigit⟩ := scanInteger_head hwhole
      exact ⟨c, tail, hs, Or.inr hdigit⟩

theorem opens_of_scanNumber {s : PyStr} {read : Except ScanError (Json × PyStr)}
    (h : scanNumber py s = some read) : Opens s := by
  obtain ⟨c, tail, hs, hc⟩ := scanNumber_head h
  refine ⟨c, tail, hs, ?_⟩
  rcases hc with rfl | hdigit
  · decide
  · simp only [isDigit, Bool.and_eq_true, decide_eq_true_eq] at hdigit
    unfold isSpace
    simp
    omega

/-- A text that reads as a number is scanned as one. -/
theorem scanOnce_number {s : PyStr} {read : Except ScanError (Json × PyStr)}
    (h : scanNumber py s = some read) (fuel : ℕ) : scanOnce py (fuel + 1) s = read := by
  obtain ⟨c, tail, rfl, hc⟩ := scanNumber_head h
  have hplain : c ≠ 34 ∧ c ≠ 123 ∧ c ≠ 91 := by
    rcases hc with rfl | hdigit
    · decide
    · simp only [isDigit, Bool.and_eq_true, decide_eq_true_eq] at hdigit
      omega
  rw [scanOnce]
  · rw [h]
    rfl
  · exact fun _ hs => hplain.1 (List.cons.inj hs).1
  · exact fun _ hs => hplain.2.1 (List.cons.inj hs).1
  · exact fun _ hs => hplain.2.2 (List.cons.inj hs).1

/-! ## Integers -/

theorem isDigit_of_mem_toDigits {n c : ℕ} (hc : c ∈ (Nat.toDigits 10 n).map Char.toNat) :
    isDigit c = true := by
  obtain ⟨d, hd, rfl⟩ := List.mem_map.mp hc
  have hdigit := Nat.isDigit_of_mem_toDigits (by decide) (by decide) hd
  simpa [Char.isDigit, UInt32.le_iff_toNat_le, isDigit] using hdigit

theorem foldl_toDigits (digits : List Char)
    (hdigits : ∀ c ∈ digits.map Char.toNat, isDigit c = true) : ∀ n : ℕ,
    (digits.map Char.toNat).foldl (fun (acc : ℤ) c => acc * 10 + (c - 48 : ℕ)) n
      = (Nat.ofDigitChars 10 digits n : ℕ) := by
  induction digits with
  | nil => exact fun n => rfl
  | cons c digits ih =>
    intro n
    rw [List.map_cons, List.forall_mem_cons] at hdigits
    have hstep : (n : ℤ) * 10 + (c.toNat - 48 : ℕ) = ((10 * n + (c.toNat - 48) : ℕ) : ℤ) := by
      push_cast
      ring
    rw [List.map_cons, List.foldl_cons, hstep, ih hdigits.2, Nat.ofDigitChars_cons]
    rfl

/-- The text of a positive number does not begin with a zero. -/
theorem toDigits_head {n : ℕ} (h : 0 < n) :
    ∀ c ∈ ((Nat.toDigits 10 n).map Char.toNat).head?, c ≠ 48 := by
  induction n using Nat.strongRecOn with
  | _ n ih =>
    by_cases hsmall : n < 10
    · rw [Nat.toDigits_of_lt_base hsmall]
      interval_cases n <;> decide
    · rw [Nat.toDigits_of_base_le (by decide) (by omega)]
      have hrest := ih (n / 10) (by omega) (by omega)
      cases hdigits : Nat.toDigits 10 (n / 10) with
      | nil => exact absurd hdigits Nat.toDigits_ne_nil
      | cons d digits =>
        rw [hdigits] at hrest
        exact hrest

theorem scanInteger_toDigits (n : ℕ) :
    scanInteger ((Nat.toDigits 10 n).map Char.toNat) =
      some ((Nat.toDigits 10 n).map Char.toNat, []) := by
  rcases Nat.eq_zero_or_pos n with rfl | hpos
  · rfl
  have hall := fun c (hc : c ∈ (Nat.toDigits 10 n).map Char.toNat) => isDigit_of_mem_toDigits hc
  have hhead := toDigits_head hpos
  cases hdigits : (Nat.toDigits 10 n).map Char.toNat with
  | nil => exact absurd (List.map_eq_nil_iff.mp hdigits) Nat.toDigits_ne_nil
  | cons c digits =>
    rw [hdigits] at hall hhead
    rw [scanInteger, if_pos (hall c List.mem_cons_self), List.takeWhile_eq_self_iff.mpr hall,
      List.dropWhile_eq_nil_iff.mpr hall]
    exact hhead c rfl

theorem scanNumber_intText {i : ℤ} (h : (Nat.toDigits 10 i.natAbs).length ≤ maxIntDigits) :
    scanNumber py (intText i) = some (.ok (.int i, [])) := by
  have hvalue := foldl_toDigits (Nat.toDigits 10 i.natAbs) (fun _ => isDigit_of_mem_toDigits) 0
  rw [Nat.ofDigitChars_ten_toDigits, Nat.cast_zero] at hvalue
  have hbody : ∀ sign : PyStr, numberFrom py sign ((Nat.toDigits 10 i.natAbs).map Char.toNat) =
      some (.ok (.int (if sign.isEmpty then (i.natAbs : ℤ) else -i.natAbs), [])) := by
    intro sign
    rw [numberFrom, scanInteger_toDigits]
    show (if maxIntDigits < _ then _ else _) = _
    rw [if_neg (by rw [List.length_map]; omega), hvalue]
    rfl
  unfold intText
  split_ifs with hneg
  · have hminus := hbody [45]
    rw [if_neg (by decide), show -(i.natAbs : ℤ) = i by omega] at hminus
    exact hminus
  · have hplus := hbody []
    rw [if_pos List.isEmpty_nil, show (i.natAbs : ℤ) = i by omega] at hplus
    rw [List.nil_append, scanNumber_unsigned, hplus]
    intro hhead
    obtain ⟨tail, htail⟩ := List.head?_eq_some_iff.mp hhead
    have hdigit := isDigit_of_mem_toDigits (n := i.natAbs) (c := 45) (by simp [htail])
    cases hdigit

/-! ## Floats and constants -/

/-- What `dumps` writes for a float that reads back is scanned as that float. -/
theorem scanOnce_dumpsFloat {f : PyFloat} (h : ReadsBack py f) {rest : PyStr}
    (hclosed : Closed rest) (fuel : ℕ) :
    scanOnce py (fuel + 1) (dumpsFloat f ++ rest) = .ok (.float f, rest) := by
  cases hvalue : f.value with
  | nan =>
    obtain rfl := h.nan hvalue
    rfl
  | inf negative =>
    obtain rfl := h.inf negative hvalue
    cases negative <;> rfl
  | finite q =>
    have hnumber := h.finite q hvalue
    have hread : scanNumber py (f.repr ++ rest) = some (.ok (.float f, rest)) := by
      rw [scanNumber_append hclosed, hnumber]
      rfl
    rw [dumpsFloat, hvalue]
    exact scanOnce_number hread fuel

theorem opens_dumpsFloat {f : PyFloat} (h : ReadsBack py f) : Opens (dumpsFloat f) := by
  unfold dumpsFloat
  split
  · exact ⟨_, _, rfl, by decide⟩
  · rename_i negative _
    cases negative <;> exact ⟨_, _, rfl, by decide⟩
  · rename_i q hvalue
    exact opens_of_scanNumber (h.finite q hvalue)

/-- No written value begins with a space or the end of a list. -/
theorem opens_dumps {v : Json} (h : v.Readable py) : Opens (dumps v) := by
  cases v with
  | null => exact ⟨_, _, rfl, by decide⟩
  | bool b => cases b <;> exact ⟨_, _, rfl, by decide⟩
  | int i =>
    have hread : scanNumber py (intText i) = some (.ok (.int i, [])) := scanNumber_intText h
    exact opens_of_scanNumber hread
  | float f => exact opens_dumpsFloat h
  | str s => exact ⟨_, _, rfl, by decide⟩
  | list items => cases items <;> exact ⟨_, _, rfl, by decide⟩
  | dict entries => cases entries <;> exact ⟨_, _, rfl, by decide⟩

/-! ## Lists and dictionaries -/

section

variable {fuel : ℕ} {s rest : PyStr} {value : Json}

theorem scanOnce_str (text : PyStr) : scanOnce py (fuel + 1) (dumpsStr text ++ rest) =
    .ok (.str text, rest) := by
  have hread := scanString_flatMap text ((text.flatMap escapeChar ++ 34 :: rest).length + 1) rest
    (by simp)
  have htext : dumpsStr text ++ rest = 34 :: (text.flatMap escapeChar ++ 34 :: rest) := by
    simp [dumpsStr]
  rw [htext, scanOnce, hread]
  rfl

theorem scanOnce_list (h : Opens s) : scanOnce py (fuel + 1) (91 :: s) = (do
    let (items, rest) ← scanItems py fuel s
    pure (.list items, rest)) := by
  rw [scanOnce, h.skipSpace]
  obtain ⟨c, tail, hs, -, hclose⟩ := h
  split
  · exact absurd (List.cons.inj hs).1.symm hclose
  · rfl

theorem scanOnce_dict (key : PyStr) : scanOnce py (fuel + 1) (123 :: (dumpsStr key ++ s)) = (do
    let (fields, rest) ← scanFields py fuel [] (dumpsStr key ++ s)
    pure (.dict fields, rest)) := rfl

theorem scanItems_last (h : scanOnce py fuel s = .ok (value, 93 :: rest)) :
    scanItems py (fuel + 1) s = .ok ([value], rest) := by
  rw [scanItems, h]
  rfl

theorem scanItems_next {more : PyStr} {items : List Json}
    (h : scanOnce py fuel s = .ok (value, 44 :: more)) (hopens : Opens more)
    (hmore : scanItems py fuel more = .ok (items, rest)) :
    scanItems py (fuel + 1) s = .ok (value :: items, rest) := by
  rw [scanItems, h]
  show (scanItems py fuel (skipSpace more) >>= _) = _
  rw [hopens.skipSpace, hmore]
  rfl

/-- A field from its value on. -/
def scanField (py : Interpreter) (fuel : ℕ) (d : Dict) (key s : PyStr) :
    Except ScanError (Dict × PyStr) := do
  let (value, rest) ← scanOnce py fuel (skipSpace s)
  match skipSpace rest with
  | 125 :: rest => pure (setItem (.str key) value d, rest)
  | 44 :: rest => scanFields py fuel (setItem (.str key) value d) (skipSpace rest)
  | _ => .error .invalid

theorem scanFields_field (d : Dict) (key s : PyStr) :
    scanFields py (fuel + 1) d (dumpsStr key ++ 58 :: s) = scanField py fuel d key s := by
  have hread := scanString_flatMap key ((key.flatMap escapeChar ++ 34 :: 58 :: s).length + 1)
    (58 :: s) (by simp)
  have htext : dumpsStr key ++ 58 :: s = 34 :: (key.flatMap escapeChar ++ 34 :: 58 :: s) := by
    simp [dumpsStr]
  rw [htext, scanFields, hread]
  rfl

theorem scanFields_last (d : Dict) (key : PyStr) (hopens : Opens s)
    (h : scanOnce py fuel s = .ok (value, 125 :: rest)) :
    scanFields py (fuel + 1) d (dumpsStr key ++ 58 :: s) =
      .ok (setItem (.str key) value d, rest) := by
  rw [scanFields_field d key, scanField, hopens.skipSpace, h]
  rfl

theorem scanFields_next (d : Dict) (key : PyStr) (hopens : Opens s) {more : PyStr}
    (h : scanOnce py fuel s = .ok (value, 44 :: more)) (hmore : Opens more) :
    scanFields py (fuel + 1) d (dumpsStr key ++ 58 :: s) =
      scanFields py fuel (setItem (.str key) value d) more := by
  rw [scanFields_field d key, scanField, hopens.skipSpace, h]
  show scanFields py fuel (setItem (.str key) value d) (skipSpace more) = _
  rw [hmore.skipSpace]

end

theorem closed_dumpsItems (items : List Json) (rest : PyStr) :
    Closed (dumpsItems items ++ 93 :: rest) := by
  cases items with
  | nil => exact closed_cons rest (Or.inr (Or.inl rfl))
  | cons item items => exact closed_cons _ (Or.inl rfl)

theorem closed_dumpsEntries (entries : List (Json × Json)) (rest : PyStr) :
    Closed (dumpsEntries entries ++ 125 :: rest) := by
  cases entries with
  | nil => exact closed_cons rest (Or.inr (Or.inr (Or.inl rfl)))
  | cons entry entries => exact closed_cons _ (Or.inl rfl)

mutual

/-- A written value is read as its image, up to where it ends. -/
theorem scanOnce_dumps : ∀ v : Json, v.Readable py → ∀ fuel rest, (dumps v).length < fuel →
    Closed rest → scanOnce py fuel (dumps v ++ rest) = .ok (wire v, rest)
  | v, h, 0, rest, hfuel, hclosed => absurd hfuel (Nat.not_lt_zero _)
  | .null, h, fuel + 1, rest, hfuel, hclosed => rfl
  | .bool b, h, fuel + 1, rest, hfuel, hclosed => by cases b <;> rfl
  | .int i, h, fuel + 1, rest, hfuel, hclosed => by
    have hread : scanNumber py (intText i ++ rest) = some (.ok (.int i, rest)) := by
      rw [scanNumber_append hclosed, scanNumber_intText h]
      rfl
    exact scanOnce_number hread fuel
  | .float f, h, fuel + 1, rest, hfuel, hclosed => scanOnce_dumpsFloat h hclosed fuel
  | .str s, h, fuel + 1, rest, hfuel, hclosed => scanOnce_str s
  | .list [], h, fuel + 1, rest, hfuel, hclosed => rfl
  | .list (item :: items), h, fuel + 1, rest, hfuel, hclosed => by
    have hread := scanItems_dumps (item :: items) h fuel (dumps item ++ dumpsItems items) rest rfl
      (by simp [dumps, lit] at hfuel ⊢; omega)
    have htext : dumps (.list (item :: items)) ++ rest =
        91 :: (dumps item ++ dumpsItems items ++ 93 :: rest) := by simp [dumps, lit]
    rw [htext, scanOnce_list (((opens_dumps h.1).append _).append _), hread]
    rfl
  | .dict [], h, fuel + 1, rest, hfuel, hclosed => rfl
  | .dict ((k, v) :: entries), h, fuel + 1, rest, hfuel, hclosed => by
    have hread := scanFields_dumps ((k, v) :: entries) h fuel []
      (dumpsStr (keyText k) ++ (58 :: dumps v ++ dumpsEntries entries)) rest
      (by simp [dumpsEntries, lit]) (by simp [dumps, lit] at hfuel ⊢; omega)
    have htext : dumps (.dict ((k, v) :: entries)) ++ rest =
        123 :: (dumpsStr (keyText k) ++
          (58 :: dumps v ++ dumpsEntries entries ++ 125 :: rest)) := by
      simp [dumps, lit]
    rw [List.append_assoc] at hread
    rw [htext, scanOnce_dict, hread]
    rfl

theorem scanItems_dumps : ∀ items : List Json, ReadableItems py items → ∀ fuel text rest,
    dumpsItems items = 44 :: text → text.length + 1 < fuel →
    scanItems py fuel (text ++ 93 :: rest) = .ok (wireItems items, rest)
  | [], h, fuel, text, rest, htext, hfuel => by cases htext
  | item :: items, h, 0, text, rest, htext, hfuel => absurd hfuel (Nat.not_lt_zero _)
  | item :: items, h, fuel + 1, text, rest, htext, hfuel => by
    obtain rfl : text = dumps item ++ dumpsItems items := (List.cons.inj htext).2.symm
    rw [List.length_append] at hfuel
    have hitem := scanOnce_dumps item h.1 fuel (dumpsItems items ++ 93 :: rest) (by omega)
      (closed_dumpsItems items rest)
    rw [List.append_assoc]
    cases items with
    | nil => exact scanItems_last hitem
    | cons next items =>
      have hmore := scanItems_dumps (next :: items) h.2 fuel (dumps next ++ dumpsItems items) rest
        rfl (by simp [dumpsItems, lit] at hfuel ⊢; omega)
      have hopens : Opens (dumps next ++ dumpsItems items ++ 93 :: rest) :=
        ((opens_dumps h.2.1).append _).append _
      exact scanItems_next hitem hopens hmore

theorem scanFields_dumps : ∀ entries : List (Json × Json), ReadableEntries py entries →
    ∀ fuel d text rest, dumpsEntries entries = 44 :: text → text.length + 1 < fuel →
    scanFields py fuel d (text ++ 125 :: rest) = .ok (wireEntries d entries, rest)
  | [], h, fuel, d, text, rest, htext, hfuel => by cases htext
  | (k, v) :: entries, h, 0, d, text, rest, htext, hfuel => absurd hfuel (Nat.not_lt_zero _)
  | (k, v) :: entries, h, fuel + 1, d, text, rest, htext, hfuel => by
    obtain rfl : text = dumpsStr (keyText k) ++ (58 :: dumps v ++ dumpsEntries entries) := by
      simpa [dumpsEntries, lit] using htext.symm
    obtain ⟨-, -, hv, hentries⟩ := h
    simp only [List.length_append, List.length_cons] at hfuel
    have hvalue := scanOnce_dumps v hv fuel (dumpsEntries entries ++ 125 :: rest) (by omega)
      (closed_dumpsEntries entries rest)
    have hopens := (opens_dumps hv).append (dumpsEntries entries ++ 125 :: rest)
    rw [List.append_assoc, List.cons_append, List.cons_append, List.append_assoc]
    cases entries with
    | nil => exact scanFields_last d (keyText k) hopens hvalue
    | cons entry entries =>
      obtain ⟨key, value⟩ := entry
      have hlength : (dumpsEntries ((key, value) :: entries)).length =
          (dumpsStr (keyText key) ++ (58 :: dumps value ++ dumpsEntries entries)).length + 1 := by
        simp [dumpsEntries, lit]
      have hmore := scanFields_dumps ((key, value) :: entries) hentries fuel
        (setItem (.str (keyText k)) (wire v) d)
        (dumpsStr (keyText key) ++ (58 :: dumps value ++ dumpsEntries entries)) rest
        (by simp [dumpsEntries, lit]) (by omega)
      have hnext : Opens (dumpsStr (keyText key) ++ (58 :: dumps value ++ dumpsEntries entries) ++
          125 :: rest) := ⟨_, _, rfl, by decide⟩
      have hcomma : dumpsEntries ((key, value) :: entries) ++ 125 :: rest =
          44 :: (dumpsStr (keyText key) ++ (58 :: dumps value ++ dumpsEntries entries) ++
            125 :: rest) := by simp [dumpsEntries, lit]
      rw [hcomma] at hvalue hopens ⊢
      rw [scanFields_next d (keyText k) hopens hvalue hnext, hmore]
      rfl

end

end MsysCore.Python
