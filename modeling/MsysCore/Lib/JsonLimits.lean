import Mathlib.Data.Nat.Digits.Defs
import MsysCore.Lib.JsonGrammar

/-!
# JSON texts within limits

The grammar once more, with what a text stands for: a string stands for the bytes it
spells, a surrogate only as one of a pair, and an object for its fields, each a key
with the word of its value. `Within` is the set of values whose objects have distinct
keys, whose containers have a bounded number of entries, and that are nested in a
bounded number of containers.
-/

namespace MsysCore.JsonGrammar

abbrev Word := List UInt8

/-! ## Strings -/

/-- The value of a hexadecimal digit. -/
def HexDigit (b : UInt8) (n : ℕ) : Prop :=
  (IsDigit b ∧ n = b.toNat - 0x30) ∨ ((0x61 ≤ b ∧ b ≤ 0x66) ∧ n = b.toNat - 0x57) ∨
    ((0x41 ≤ b ∧ b ≤ 0x46) ∧ n = b.toNat - 0x37)

/-- Four hexadecimal digits and the code unit they write. -/
inductive CodeUnit : Word → ℕ → Prop
  | mk {a b c d w x y z} : HexDigit a w → HexDigit b x → HexDigit c y → HexDigit d z →
      CodeUnit [a, b, c, d] (((w * 16 + x) * 16 + y) * 16 + z)

/-- The letter of an escape and the character it stands for. -/
def escapeTable : List (UInt8 × UInt8) :=
  [(0x22, 0x22), (0x5c, 0x5c), (0x2f, 0x2f), (0x62, 0x08), (0x66, 0x0c), (0x6e, 0x0a),
    (0x72, 0x0d), (0x74, 0x09)]

/-- What a pair of surrogates stands for. -/
def surrogates (high low : ℕ) : ℕ := 0x10000 + (high - 0xd800) * 0x400 + (low - 0xdc00)

/-- The contents of a string and the bytes they stand for. A code unit outside of a pair
writes a character of its own, which no surrogate is. -/
inductive Writes : Word → Word → Prop
  | nil : Writes [] []
  | plain {b w s} : 0x20 ≤ b → b ≠ 0x22 → b ≠ 0x5c → Writes w s → Writes (b :: w) (b :: s)
  | escape {e c w s} : (e, c) ∈ escapeTable → Writes w s → Writes (0x5c :: e :: w) (c :: s)
  | unicode {u w s} (c : Char) : CodeUnit u c.toNat → Writes w s →
      Writes (0x5c :: 0x75 :: (u ++ w)) (String.utf8EncodeChar c ++ s)
  | pair {u v high low w s} (c : Char) : CodeUnit u high → CodeUnit v low →
      (0xd800 ≤ high ∧ high ≤ 0xdbff) → (0xdc00 ≤ low ∧ low ≤ 0xdfff) →
      c.toNat = surrogates high low → Writes w s →
      Writes (0x5c :: 0x75 :: (u ++ 0x5c :: 0x75 :: (v ++ w))) (String.utf8EncodeChar c ++ s)

/-- The text of a string and the bytes it stands for. -/
def Quoted (t s : Word) : Prop := ∃ w, Writes w s ∧ t = 0x22 :: (w ++ [0x22])

theorem HexDigit.isHex {b : UInt8} {n : ℕ} (h : HexDigit b n) : IsHex b := by
  rcases h with ⟨hdigit, -⟩ | ⟨hlower, -⟩ | ⟨hupper, -⟩
  · exact .inl hdigit
  · exact .inr (.inl hlower)
  · exact .inr (.inr hupper)

theorem HexDigit.lt {b : UInt8} {n : ℕ} (h : HexDigit b n) : n < 16 := by
  have hle : ∀ x y : UInt8, x ≤ y → x.toNat ≤ y.toNat := fun x y => UInt8.le_iff_toNat_le.mp
  rcases h with ⟨hb, rfl⟩ | ⟨hb, rfl⟩ | ⟨hb, rfl⟩
  · have hnat := hle _ _ hb.2
    simp at hnat
    omega
  · have hnat := hle _ _ hb.2
    simp at hnat
    omega
  · have hnat := hle _ _ hb.2
    simp at hnat
    omega

theorem CodeUnit.lt {u : Word} {n : ℕ} (h : CodeUnit u n) : n < 0x10000 := by
  cases h with
  | mk ha hb hc hd =>
    have h1 := ha.lt
    have h2 := hb.lt
    have h3 := hc.lt
    have h4 := hd.lt
    omega

theorem CodeUnit.chars {u w : Word} {n : ℕ} (h : CodeUnit u n) (hw : Chars w) :
    Chars (0x5c :: 0x75 :: (u ++ w)) := by
  cases h with
  | mk ha hb hc hd => exact .unicode ha.isHex hb.isHex hc.isHex hd.isHex hw

theorem mem_escapes {e c : UInt8} (h : (e, c) ∈ escapeTable) : e ∈ escapes :=
  List.mem_map_of_mem (f := Prod.fst) h

theorem Writes.chars {w s : Word} (h : Writes w s) : Chars w := by
  induction h with
  | nil => exact .nil
  | plain hcontrol hquote hbackslash _ ih => exact .plain hcontrol hquote hbackslash ih
  | escape hmem _ ih => exact .escape (mem_escapes hmem) ih
  | unicode c hunit _ ih => exact hunit.chars ih
  | pair c hhigh hlow _ _ _ _ ih => exact hhigh.chars (hlow.chars ih)

theorem Quoted.text {t s : Word} (h : Quoted t s) : Text t := by
  obtain ⟨w, hw, rfl⟩ := h
  exact ⟨w, hw.chars, rfl⟩

/-! ## Numbers -/

/-- The number that a run of decimal digits writes. -/
def decimal (t : Word) : ℕ := Nat.ofDigits 10 (t.reverse.map fun b => b.toNat - 0x30)

/-- The text of a natural number: no sign, no fraction and no exponent. -/
def Natural (t : Word) (n : ℕ) : Prop := Integer t ∧ n = decimal t

theorem IsDigit.plain {b : UInt8} (h : IsDigit b) : b ≠ 0x2d ∧ b ≠ 0x2e ∧ b ≠ 0x65 ∧ b ≠ 0x45 := by
  refine ⟨?_, ?_, ?_, ?_⟩
  · rintro rfl
    exact absurd h.1 (by decide)
  · rintro rfl
    exact absurd h.1 (by decide)
  · rintro rfl
    exact absurd h.2 (by decide)
  · rintro rfl
    exact absurd h.2 (by decide)

theorem Integer.digits {t : Word} (h : Integer t) : Digits t := by
  rcases h with rfl | ⟨d, ds, hlow, hhigh, hds, rfl⟩
  · intro b hb
    rw [List.mem_singleton.mp hb]
    exact ⟨by decide, by decide⟩
  · have hzero : (0x30 : UInt8) ≤ 0x31 := by decide
    intro b hb
    rcases List.mem_cons.mp hb with rfl | hmem
    · exact ⟨UInt8.le_trans hzero hlow, hhigh⟩
    · exact hds b hmem

/-- A number without a sign, a point and an exponent is an integer. -/
theorem Number.integer {t : Word} (ht : Number t) (hminus : t.head? ≠ some 0x2d)
    (hplain : ∀ b ∈ t, b ≠ 0x2e ∧ b ≠ 0x65 ∧ b ≠ 0x45) : Integer t := by
  obtain ⟨sign, i, f, e, hsign, hi, hf, he, rfl⟩ := ht
  rcases hsign with rfl | rfl
  · rcases hf with rfl | ⟨d, ds, -, -, rfl⟩
    · rcases he with rfl | ⟨mark, sign, d, ds, hmark, -, -, -, rfl⟩
      · simpa using hi
      · have hmem := hplain mark (by simp)
        rcases hmark with rfl | rfl
        · exact absurd rfl hmem.2.1
        · exact absurd rfl hmem.2.2
    · exact absurd rfl (hplain 0x2e (by simp)).1
  · exact absurd rfl hminus

/-! ## Containers -/

/-- The fields of an object with its closing brace. -/
inductive Fields : Word → List (Word × Word) → Prop
  | last {k key a b v c} : Quoted k key → Spaces a → Spaces b → Spaces c →
      Fields (k ++ (a ++ 0x3a :: (b ++ (v ++ (c ++ [0x7d]))))) [(key, v)]
  | cons {k key a b v c d m fields} : Quoted k key → Spaces a → Spaces b → Spaces c → Spaces d →
      Fields m fields →
      Fields (k ++ (a ++ 0x3a :: (b ++ (v ++ (c ++ 0x2c :: (d ++ m)))))) ((key, v) :: fields)

/-- The entries of an array with its closing bracket. -/
inductive Entries : Word → List Word → Prop
  | last {v c} : Spaces c → Entries (v ++ (c ++ [0x5d])) [v]
  | cons {v c d m entries} : Spaces c → Spaces d → Entries m entries →
      Entries (v ++ (c ++ 0x2c :: (d ++ m))) (v :: entries)

/-- The text of an object with these fields. -/
inductive ObjectText : Word → List (Word × Word) → Prop
  | empty {a} : Spaces a → ObjectText (0x7b :: (a ++ [0x7d])) []
  | fields {a m fields} : Spaces a → Fields m fields → ObjectText (0x7b :: (a ++ m)) fields

/-- The text of an array with these entries. -/
inductive ArrayText : Word → List Word → Prop
  | empty {a} : Spaces a → ArrayText (0x5b :: (a ++ [0x5d])) []
  | entries {a m entries} : Spaces a → Entries m entries → ArrayText (0x5b :: (a ++ m)) entries

structure Limits where
  /-- in how many containers a value may be nested -/
  levels : ℕ
  /-- how many entries a container may have -/
  entries : ℕ

/-- The text of `true`, `false` or `null`. -/
def Literal (t : Word) : Prop :=
  t = [0x74, 0x72, 0x75, 0x65] ∨ t = [0x66, 0x61, 0x6c, 0x73, 0x65] ∨ t = [0x6e, 0x75, 0x6c, 0x6c]

variable {limits : Limits}

/-- A value that is nested in `level` containers. -/
inductive Within (limits : Limits) : ℕ → Word → Prop
  | text {level t s} : level ≤ limits.levels → Quoted t s → Within limits level t
  | number {level t} : level ≤ limits.levels → Number t → Within limits level t
  | literal {level t} : level ≤ limits.levels → Literal t → Within limits level t
  | object {level t fields} : level ≤ limits.levels → ObjectText t fields →
      (fields.map Prod.fst).Nodup → fields.length ≤ limits.entries →
      (∀ field ∈ fields, Within limits (level + 1) field.2) → Within limits level t
  | array {level t entries} : level ≤ limits.levels → ArrayText t entries →
      entries.length ≤ limits.entries → (∀ entry ∈ entries, Within limits (level + 1) entry) →
      Within limits level t

/-- An object within the limits, and its fields. -/
structure ObjectWithin (limits : Limits) (level : ℕ) (t : Word) (fields : List (Word × Word)) :
    Prop where
  nested : level ≤ limits.levels
  text : ObjectText t fields
  distinct : (fields.map Prod.fst).Nodup
  length : fields.length ≤ limits.entries
  values : ∀ field ∈ fields, Within limits (level + 1) field.2

theorem ObjectWithin.within {level : ℕ} {t : Word} {fields : List (Word × Word)}
    (h : ObjectWithin limits level t fields) : Within limits level t :=
  .object h.nested h.text h.distinct h.length h.values

/-! ## Words of the grammar -/

theorem Literal.value {t : Word} (h : Literal t) : Value t := by
  rcases h with rfl | rfl | rfl
  · exact .true
  · exact .false
  · exact .null

theorem Fields.members {m : Word} {fields : List (Word × Word)} (h : Fields m fields)
    (hvalues : ∀ field ∈ fields, Value field.2) : Members m := by
  induction h with
  | last hk ha hb hc => exact .last hk.text ha hb (hvalues _ List.mem_cons_self) hc
  | cons hk ha hb hc hd _ ih =>
    obtain ⟨hv, hrest⟩ := List.forall_mem_cons.mp hvalues
    exact .cons hk.text ha hb hv hc hd (ih hrest)

theorem Entries.elements {m : Word} {entries : List Word} (h : Entries m entries)
    (hvalues : ∀ entry ∈ entries, Value entry) : Elements m := by
  induction h with
  | last hc => exact .last (hvalues _ List.mem_cons_self) hc
  | cons hc hd _ ih =>
    obtain ⟨hv, hrest⟩ := List.forall_mem_cons.mp hvalues
    exact .cons hv hc hd (ih hrest)

theorem ObjectText.object {t : Word} {fields : List (Word × Word)} (h : ObjectText t fields)
    (hvalues : ∀ field ∈ fields, Value field.2) : Object t := by
  cases h with
  | empty ha => exact object_empty ha
  | fields ha hm => exact object_of_members ha (hm.members hvalues)

/-- A value within limits is a value. -/
theorem Within.value {level : ℕ} {t : Word} (h : Within limits level t) : Value t := by
  induction h with
  | text _ ht => exact .text ht.text
  | number _ ht => exact .number ht
  | literal _ ht => exact ht.value
  | object _ ht _ _ _ ih => exact (ht.object ih).value
  | array _ ht _ _ ih =>
    cases ht with
    | empty ha => exact .emptyArray ha
    | entries ha hm => exact .array ha (hm.elements ih)

theorem ObjectWithin.object {level : ℕ} {t : Word} {fields : List (Word × Word)}
    (h : ObjectWithin limits level t fields) : Object t :=
  h.text.object fun field hfield => (h.values field hfield).value

/-! ## First bytes -/

/-- The first byte of a value. -/
def Opens (b : UInt8) : Prop := ¬ IsSpace b ∧ b ≠ 0x5d ∧ b ≠ 0x7d

theorem IsDigit.opens {b : UInt8} (h : IsDigit b) : Opens b := by
  obtain ⟨hlow, hhigh⟩ := h
  refine ⟨?_, ?_, ?_⟩
  · rintro (rfl | rfl | rfl | rfl) <;> exact absurd hlow (by decide)
  · rintro rfl
    exact absurd hhigh (by decide)
  · rintro rfl
    exact absurd hhigh (by decide)

theorem opens_of_not_space {b : UInt8} (h : b = 0x22 ∨ b = 0x2d ∨ b = 0x5b ∨ b = 0x7b ∨ b = 0x74 ∨
    b = 0x66 ∨ b = 0x6e) : Opens b := by
  unfold Opens IsSpace
  rcases h with rfl | rfl | rfl | rfl | rfl | rfl | rfl <;> decide

theorem Integer.head {t : Word} (h : Integer t) : ∃ b w, t = b :: w ∧ IsDigit b := by
  rcases h with rfl | ⟨d, ds, hlow, hhigh, -, rfl⟩
  · exact ⟨0x30, [], rfl, ⟨by decide, by decide⟩⟩
  · have hdigit : (0x30 : UInt8) ≤ 0x31 := by decide
    exact ⟨d, ds, rfl, UInt8.le_trans hdigit hlow, hhigh⟩

theorem Number.head {t : Word} (h : Number t) :
    ∃ b w, t = b :: w ∧ (IsDigit b ∨ b = 0x2d) := by
  obtain ⟨sign, i, f, e, hsign, hi, -, -, rfl⟩ := h
  rcases hsign with rfl | rfl
  · obtain ⟨b, w, rfl, hdigit⟩ := hi.head
    exact ⟨b, w ++ (f ++ e), rfl, .inl hdigit⟩
  · exact ⟨0x2d, i ++ (f ++ e), rfl, .inr rfl⟩

theorem Within.head {level : ℕ} {t : Word} (h : Within limits level t) :
    ∃ b w, t = b :: w ∧ Opens b := by
  cases h with
  | text _ ht =>
    obtain ⟨w, -, rfl⟩ := ht
    exact ⟨0x22, w ++ [0x22], rfl, opens_of_not_space (by simp)⟩
  | number _ ht =>
    obtain ⟨b, w, rfl, hdigit | rfl⟩ := ht.head
    · exact ⟨b, w, rfl, hdigit.opens⟩
    · exact ⟨0x2d, w, rfl, opens_of_not_space (by simp)⟩
  | literal _ ht =>
    rcases ht with rfl | rfl | rfl <;> exact ⟨_, _, rfl, opens_of_not_space (by simp)⟩
  | object _ ht =>
    cases ht <;> exact ⟨0x7b, _, rfl, opens_of_not_space (by simp)⟩
  | array _ ht =>
    cases ht <;> exact ⟨0x5b, _, rfl, opens_of_not_space (by simp)⟩

theorem Fields.head {m : Word} {fields : List (Word × Word)} (h : Fields m fields) :
    ∃ w, m = 0x22 :: w := by
  cases h with
  | last hk =>
    obtain ⟨w, -, rfl⟩ := hk
    exact ⟨_, rfl⟩
  | cons hk =>
    obtain ⟨w, -, rfl⟩ := hk
    exact ⟨_, rfl⟩

theorem Entries.head {m : Word} {entries : List Word} (h : Entries m entries)
    (hvalues : ∀ v ∈ entries, ∃ b w, v = b :: w ∧ Opens b) : ∃ b w, m = b :: w ∧ Opens b := by
  cases h with
  | last =>
    obtain ⟨b, w, rfl, hb⟩ := hvalues _ List.mem_cons_self
    exact ⟨b, _, rfl, hb⟩
  | cons =>
    obtain ⟨b, w, rfl, hb⟩ := hvalues _ List.mem_cons_self
    exact ⟨b, _, rfl, hb⟩

end MsysCore.JsonGrammar
