import Mathlib.Data.List.Basic
import Mathlib.Tactic

/-!
# The JSON grammar over bytes

A word-level reading of RFC 8259: each nonterminal is the set of byte words it
derives. Insignificant whitespace is explicit, so a derivation says where a line
feed may stand in a text and where it may not.
-/

namespace MsysCore.JsonGrammar

def IsSpace (b : UInt8) : Prop := b = 0x20 ∨ b = 0x09 ∨ b = 0x0a ∨ b = 0x0d

def Spaces (w : List UInt8) : Prop := ∀ b ∈ w, IsSpace b

theorem spaces_nil : Spaces [] := by simp [Spaces]

def IsDigit (b : UInt8) : Prop := 0x30 ≤ b ∧ b ≤ 0x39

def IsHex (b : UInt8) : Prop :=
  IsDigit b ∨ (0x61 ≤ b ∧ b ≤ 0x66) ∨ (0x41 ≤ b ∧ b ≤ 0x46)

/-- The letters that may follow a backslash, `u` apart. -/
def escapes : List UInt8 := [0x22, 0x5c, 0x2f, 0x62, 0x66, 0x6e, 0x72, 0x74]

/-- Contents of a string between its quotes. -/
inductive Chars : List UInt8 → Prop
  | nil : Chars []
  | plain {b w} : 0x20 ≤ b → b ≠ 0x22 → b ≠ 0x5c → Chars w → Chars (b :: w)
  | escape {e w} : e ∈ escapes → Chars w → Chars (0x5c :: e :: w)
  | unicode {a b c d w} : IsHex a → IsHex b → IsHex c → IsHex d → Chars w →
      Chars (0x5c :: 0x75 :: a :: b :: c :: d :: w)

theorem Chars.append {u v : List UInt8} (hu : Chars u) (hv : Chars v) : Chars (u ++ v) := by
  induction hu with
  | nil => exact hv
  | plain h1 h2 h3 _ ih => exact .plain h1 h2 h3 ih
  | escape h _ ih => exact .escape h ih
  | unicode h1 h2 h3 h4 _ ih => exact .unicode h1 h2 h3 h4 ih

def Text (t : List UInt8) : Prop := ∃ w, Chars w ∧ t = 0x22 :: (w ++ [0x22])

def Digits (t : List UInt8) : Prop := ∀ b ∈ t, IsDigit b

def Integer (t : List UInt8) : Prop :=
  t = [0x30] ∨ ∃ d ds, 0x31 ≤ d ∧ d ≤ 0x39 ∧ Digits ds ∧ t = d :: ds

def Fraction (t : List UInt8) : Prop :=
  t = [] ∨ ∃ d ds, IsDigit d ∧ Digits ds ∧ t = 0x2e :: d :: ds

def Exponent (t : List UInt8) : Prop :=
  t = [] ∨ ∃ e sign d ds, (e = 0x65 ∨ e = 0x45) ∧ (sign = [] ∨ sign = [0x2b] ∨ sign = [0x2d]) ∧
    IsDigit d ∧ Digits ds ∧ t = e :: (sign ++ d :: ds)

def Number (t : List UInt8) : Prop :=
  ∃ sign i f e, (sign = [] ∨ sign = [0x2d]) ∧ Integer i ∧ Fraction f ∧ Exponent e ∧
    t = sign ++ (i ++ (f ++ e))

theorem Integer.number {t : List UInt8} (h : Integer t) : Number t :=
  ⟨[], t, [], [], .inl rfl, h, .inl rfl, .inl rfl, by simp⟩

mutual

inductive Value : List UInt8 → Prop
  | text {t} : Text t → Value t
  | number {t} : Number t → Value t
  | true : Value [0x74, 0x72, 0x75, 0x65]
  | false : Value [0x66, 0x61, 0x6c, 0x73, 0x65]
  | null : Value [0x6e, 0x75, 0x6c, 0x6c]
  | emptyObject {a} : Spaces a → Value (0x7b :: (a ++ [0x7d]))
  | object {a m} : Spaces a → Members m → Value (0x7b :: (a ++ m))
  | emptyArray {a} : Spaces a → Value (0x5b :: (a ++ [0x5d]))
  | array {a m} : Spaces a → Elements m → Value (0x5b :: (a ++ m))

/-- The fields of an object with its closing brace. -/
inductive Members : List UInt8 → Prop
  | last {k a b v c} : Text k → Spaces a → Spaces b → Value v → Spaces c →
      Members (k ++ (a ++ 0x3a :: (b ++ (v ++ (c ++ [0x7d])))))
  | cons {k a b v c d m} : Text k → Spaces a → Spaces b → Value v → Spaces c → Spaces d →
      Members m → Members (k ++ (a ++ 0x3a :: (b ++ (v ++ (c ++ 0x2c :: (d ++ m))))))

/-- The entries of an array with its closing bracket. -/
inductive Elements : List UInt8 → Prop
  | last {v c} : Value v → Spaces c → Elements (v ++ (c ++ [0x5d]))
  | cons {v c d m} : Value v → Spaces c → Spaces d → Elements m →
      Elements (v ++ (c ++ 0x2c :: (d ++ m)))

end

/-- A text that is one object. -/
def Object (t : List UInt8) : Prop := Value t ∧ t.head? = some 0x7b

theorem Object.value {t : List UInt8} (h : Object t) : Value t := h.1

theorem object_of_members {a m : List UInt8} (ha : Spaces a) (hm : Members m) :
    Object (0x7b :: (a ++ m)) := ⟨.object ha hm, rfl⟩

theorem object_empty {a : List UInt8} (ha : Spaces a) : Object (0x7b :: (a ++ [0x7d])) :=
  ⟨.emptyObject ha, rfl⟩

/-! ## Texts written without whitespace -/

/-- One field, the last of its object. -/
theorem members_last {k v : List UInt8} (hk : Text k) (hv : Value v) :
    Members (k ++ 0x3a :: (v ++ [0x7d])) := by
  simpa using Members.last hk spaces_nil spaces_nil hv spaces_nil

/-- One field, followed by the others. -/
theorem members_cons {k v m : List UInt8} (hk : Text k) (hv : Value v) (hm : Members m) :
    Members (k ++ 0x3a :: (v ++ 0x2c :: m)) := by
  simpa using Members.cons hk spaces_nil spaces_nil hv spaces_nil spaces_nil hm

theorem object_of_fields {m : List UInt8} (hm : Members m) : Object (0x7b :: m) := by
  simpa using object_of_members spaces_nil hm

theorem elements_of_values {v : List UInt8} {vs : List (List UInt8)} (hv : Value v)
    (hvs : ∀ w ∈ vs, Value w) : Elements ([0x2c].intercalate (v :: vs) ++ [0x5d]) := by
  induction vs generalizing v with
  | nil => simpa using Elements.last hv spaces_nil
  | cons w vs ih =>
    have hw := ih (hvs w (by simp)) fun x hx => hvs x (List.mem_cons_of_mem _ hx)
    simpa [List.intercalate] using Elements.cons hv spaces_nil spaces_nil hw

/-- An array written as its entries with commas between them. -/
theorem array_of_values {vs : List (List UInt8)} (hvs : ∀ v ∈ vs, Value v) :
    Value (0x5b :: ([0x2c].intercalate vs ++ [0x5d])) := by
  cases vs with
  | nil => simpa using Value.emptyArray spaces_nil
  | cons v vs =>
    have h := elements_of_values (hvs v (by simp)) fun x hx => hvs x (List.mem_cons_of_mem _ hx)
    simpa using Value.array spaces_nil h

/-! ## Line feeds

A line feed may stand between tokens and nowhere else. -/

def LineFree (w : List UInt8) : Prop := 0x0a ∉ w

instance (w : List UInt8) : Decidable (LineFree w) := inferInstanceAs (Decidable (_ ∉ _))

@[simp] theorem lineFree_append {u v : List UInt8} :
    LineFree (u ++ v) ↔ LineFree u ∧ LineFree v := by
  simp [LineFree, not_or]

theorem lineFree_flatten {ws : List (List UInt8)} :
    LineFree ws.flatten ↔ ∀ w ∈ ws, LineFree w := by
  simp [LineFree]

theorem lineFree_intercalate {vs : List (List UInt8)} (hvs : ∀ v ∈ vs, LineFree v) :
    LineFree ([0x2c].intercalate vs) := by
  induction vs with
  | nil => decide
  | cons v vs ih =>
    have htail := ih fun w hw => hvs w (List.mem_cons_of_mem _ hw)
    have hv := hvs v (by simp)
    cases vs with
    | nil => simpa using hv
    | cons w vs =>
      rw [List.intercalate_cons_cons]
      simp only [lineFree_append]
      exact ⟨⟨hv, by decide⟩, htail⟩

theorem IsDigit.ne_lineFeed {b : UInt8} (h : IsDigit b) : 0x0a ≠ b := by
  rintro rfl
  exact absurd h.1 (by decide)

theorem IsHex.ne_lineFeed {b : UInt8} (h : IsHex b) : 0x0a ≠ b := by
  rintro rfl
  rcases h with h | h | h
  · exact h.ne_lineFeed rfl
  · exact absurd h.1 (by decide)
  · exact absurd h.1 (by decide)

theorem Chars.lineFree {w : List UInt8} (h : Chars w) : LineFree w := by
  induction h with
  | nil => decide
  | plain hb _ _ _ ih =>
    rintro (_ | ⟨_, hm⟩)
    · exact absurd hb (by decide)
    · exact ih hm
  | @escape e w he _ ih =>
    have hne : 0x0a ≠ e := by
      rintro rfl
      exact absurd he (by decide)
    simpa [LineFree, hne] using ih
  | unicode ha hb hc hd _ ih =>
    simpa [LineFree, ha.ne_lineFeed, hb.ne_lineFeed, hc.ne_lineFeed, hd.ne_lineFeed] using ih

theorem Text.lineFree {t : List UInt8} (h : Text t) : LineFree t := by
  obtain ⟨w, hw, rfl⟩ := h
  simpa [LineFree] using hw.lineFree

theorem Integer.lineFree {t : List UInt8} (h : Integer t) : LineFree t := by
  rcases h with rfl | ⟨d, ds, h1, h2, hds, rfl⟩
  · decide
  · rintro (_ | ⟨_, hm⟩)
    · exact absurd h1 (by decide)
    · exact (hds _ hm).ne_lineFeed rfl

end MsysCore.JsonGrammar
