import MsysCore.Python.Codec

/-!
# Texts and their UTF-8

A native program holds the UTF-8 of a text that the Python Core holds as code points.
The encoding is prefix-free on scalar values, so equality and prefixes of the bytes are
equality and prefixes of the texts.
-/

namespace MsysCore.Python

/-- A Unicode scalar value: what `str.encode` accepts. -/
def Scalar (c : ℕ) : Prop := c < 0x110000 ∧ isSurrogate c = false

/-- `data` is the UTF-8 of the text `s`. -/
structure Spells (s : PyStr) (data : Bytes) : Prop where
  scalar : ∀ c ∈ s, Scalar c
  data_eq : data = s.flatMap utf8Char

theorem Spells.nil : Spells [] [] := ⟨by simp, rfl⟩

theorem Spells.append {a b : PyStr} {x y : Bytes} (ha : Spells a x) (hb : Spells b y) :
    Spells (a ++ b) (x ++ y) where
  scalar := by
    intro c hc
    rcases List.mem_append.mp hc with hc | hc
    · exact ha.scalar c hc
    · exact hb.scalar c hc
  data_eq := by simp [ha.data_eq, hb.data_eq]

/-! ## One code point -/

theorem utf8Char_ne_nil (c : ℕ) : utf8Char c ≠ [] := by
  unfold utf8Char
  split_ifs <;> simp

theorem utf8Char_of_ascii {c : ℕ} (h : c < 0x80) : utf8Char c = [c.toUInt8] := by
  simp [utf8Char, h]

/-- A code point above ASCII ends in a continuation byte. -/
theorem utf8Char_getLast {c : ℕ} (h : 0x80 ≤ c) : ∃ r b, utf8Char c = r ++ [b] ∧ 0x80 ≤ b.toNat := by
  have hlast : 0x80 ≤ (0x80 + c % 64).toUInt8.toNat := by
    simp [Nat.toUInt8]
    omega
  unfold utf8Char
  rw [if_neg (by omega)]
  split_ifs
  · exact ⟨[_], _, rfl, hlast⟩
  · exact ⟨[_, _], _, rfl, hlast⟩
  · exact ⟨[_, _, _], _, rfl, hlast⟩

theorem toNat_toUInt8 {n : ℕ} (h : n < 256) : n.toUInt8.toNat = n := by
  simp [Nat.toUInt8, Nat.mod_eq_of_lt h]

theorem utf8Next_continuation (c n : ℕ) (rest : Bytes) :
    utf8Next c ((0x80 + n % 64).toUInt8 :: rest) = some (c * 64 + n % 64, rest) := by
  have hn : n % 64 < 64 := Nat.mod_lt _ (by decide)
  have hval : (0x80 + n % 64).toUInt8.toNat = 0x80 + n % 64 := toNat_toUInt8 (by omega)
  have hrange : (0x80 : UInt8) ≤ (0x80 + n % 64).toUInt8 ∧ (0x80 + n % 64).toUInt8 < 0xc0 := by
    simp only [UInt8.le_iff_toNat_le, UInt8.lt_iff_toNat_lt, hval]
    exact ⟨Nat.le_add_right _ _, Nat.add_lt_add_left hn 128⟩
  rw [utf8Next, if_pos hrange, hval, Nat.add_sub_cancel_left]

/-- The range of a lead byte, as the tests of `utf8Step` ask for it. -/
theorem lead_lt {lead : ℕ} (h : lead < 256) (bound : UInt8) :
    lead.toUInt8 < bound ↔ lead < bound.toNat := by
  rw [UInt8.lt_iff_toNat_lt, toNat_toUInt8 h]

theorem lead_ge {lead : ℕ} (h : lead < 256) (bound : UInt8) :
    bound ≤ lead.toUInt8 ↔ bound.toNat ≤ lead := by
  rw [UInt8.le_iff_toNat_le, toNat_toUInt8 h]

/-- The first code point of an encoded text is read back. -/
theorem utf8Step_utf8Char {c : ℕ} (h : Scalar c) :
    ∃ b tail, utf8Char c = b :: tail ∧ ∀ rest, utf8Step b (tail ++ rest) = some (c, rest) := by
  obtain ⟨hmax, hsurrogate⟩ := h
  by_cases h1 : c < 0x80
  · refine ⟨c.toUInt8, [], utf8Char_of_ascii h1, fun rest => ?_⟩
    have hlow : c.toUInt8 < 0x80 := (lead_lt (by omega) 0x80).mpr h1
    simp [utf8Step, hlow, toNat_toUInt8 (show c < 256 by omega)]
  by_cases h2 : c < 0x800
  · refine ⟨(0xc0 + c / 64).toUInt8, [(0x80 + c % 64).toUInt8], by simp [utf8Char, h1, h2],
      fun rest => ?_⟩
    have hlead : 0xc0 + c / 64 < 256 := by omega
    have hnot : ¬ (0xc0 + c / 64).toUInt8 < 0x80 := by
      rw [lead_lt hlead]
      simp
      omega
    have hrange : 0xc2 ≤ (0xc0 + c / 64).toUInt8 ∧ (0xc0 + c / 64).toUInt8 < 0xe0 := by
      rw [lead_ge hlead, lead_lt hlead]
      simp
      omega
    have hvalue : c / 64 * 64 + c % 64 = c := by omega
    rw [utf8Step, if_neg hnot, if_pos hrange, List.cons_append, utf8Next_continuation,
      toNat_toUInt8 hlead, Nat.add_sub_cancel_left, hvalue, List.nil_append]
  by_cases h3 : c < 0x10000
  · refine ⟨(0xe0 + c / 4096).toUInt8, [(0x80 + c / 64 % 64).toUInt8, (0x80 + c % 64).toUInt8],
      by simp [utf8Char, h1, h2, h3], fun rest => ?_⟩
    have hlead : 0xe0 + c / 4096 < 256 := by omega
    have hnot : ¬ (0xe0 + c / 4096).toUInt8 < 0x80 := by
      rw [lead_lt hlead]
      simp
      omega
    have hnot2 : ¬ (0xc2 ≤ (0xe0 + c / 4096).toUInt8 ∧ (0xe0 + c / 4096).toUInt8 < 0xe0) := by
      rw [lead_ge hlead, lead_lt hlead]
      simp
    have hrange : 0xe0 ≤ (0xe0 + c / 4096).toUInt8 ∧ (0xe0 + c / 4096).toUInt8 < 0xf0 := by
      rw [lead_ge hlead, lead_lt hlead]
      simp
      omega
    have hvalue : (c / 4096 * 64 + c / 64 % 64) * 64 + c % 64 = c := by omega
    rw [utf8Step, if_neg hnot, if_neg hnot2, if_pos hrange]
    simp only [List.cons_append, List.nil_append, utf8Next_continuation, Option.bind_eq_bind,
      Option.bind_some, toNat_toUInt8 hlead, Nat.add_sub_cancel_left, hvalue]
    simp [hsurrogate, h2]
  · refine ⟨(0xf0 + c / 262144).toUInt8, [(0x80 + c / 4096 % 64).toUInt8,
      (0x80 + c / 64 % 64).toUInt8, (0x80 + c % 64).toUInt8],
      by simp [utf8Char, h1, h2, h3], fun rest => ?_⟩
    have hlead : 0xf0 + c / 262144 < 256 := by omega
    have hnot : ¬ (0xf0 + c / 262144).toUInt8 < 0x80 := by
      rw [lead_lt hlead]
      simp
      omega
    have hnot2 : ¬ (0xc2 ≤ (0xf0 + c / 262144).toUInt8 ∧ (0xf0 + c / 262144).toUInt8 < 0xe0) := by
      rw [lead_ge hlead, lead_lt hlead]
      simp
      omega
    have hnot3 : ¬ (0xe0 ≤ (0xf0 + c / 262144).toUInt8 ∧ (0xf0 + c / 262144).toUInt8 < 0xf0) := by
      rw [lead_ge hlead, lead_lt hlead]
      simp
    have hrange : 0xf0 ≤ (0xf0 + c / 262144).toUInt8 ∧ (0xf0 + c / 262144).toUInt8 < 0xf5 := by
      rw [lead_ge hlead, lead_lt hlead]
      simp
      omega
    have hvalue : ((c / 262144 * 64 + c / 4096 % 64) * 64 + c / 64 % 64) * 64 + c % 64 = c := by
      omega
    rw [utf8Step, if_neg hnot, if_neg hnot2, if_neg hnot3, if_pos hrange]
    simp only [List.cons_append, List.nil_append, utf8Next_continuation, Option.bind_eq_bind,
      Option.bind_some, toNat_toUInt8 hlead, Nat.add_sub_cancel_left, hvalue]
    rw [if_neg (by omega)]

/-! ## Prefixes and equality -/

theorem flatMap_utf8Char_prefix {a b : PyStr} {rest : Bytes} (ha : ∀ c ∈ a, Scalar c)
    (hb : ∀ c ∈ b, Scalar c) (h : b.flatMap utf8Char = a.flatMap utf8Char ++ rest) :
    ∃ t, b = a ++ t ∧ rest = t.flatMap utf8Char := by
  induction a generalizing b with
  | nil => exact ⟨b, rfl, h.symm⟩
  | cons c a ih =>
    obtain ⟨first, tail, hc, hread⟩ := utf8Step_utf8Char (ha c List.mem_cons_self)
    cases b with
    | nil => simp [hc] at h
    | cons d b =>
      obtain ⟨first', tail', hd, hread'⟩ := utf8Step_utf8Char (hb d List.mem_cons_self)
      simp only [List.flatMap_cons, hc, hd, List.cons_append, List.cons.injEq,
        List.append_assoc] at h
      have hsame := hread' (b.flatMap utf8Char)
      rw [h.1, h.2, hread] at hsame
      simp only [Option.some.injEq, Prod.mk.injEq] at hsame
      obtain ⟨t, rfl, hrest⟩ := ih (fun x hx => ha x (List.mem_cons_of_mem _ hx))
        (fun x hx => hb x (List.mem_cons_of_mem _ hx)) hsame.2.symm
      exact ⟨t, by rw [hsame.1]; rfl, hrest⟩

namespace Spells

variable {a b : PyStr} {x y : Bytes}

/-- What follows an encoded prefix spells what follows the prefix. -/
theorem of_append {rest : Bytes} (hb : Spells b (x ++ rest)) (ha : Spells a x) :
    ∃ t, b = a ++ t ∧ Spells t rest := by
  have hdata : b.flatMap utf8Char = a.flatMap utf8Char ++ rest := by rw [← hb.data_eq, ha.data_eq]
  obtain ⟨t, rfl, hrest⟩ := flatMap_utf8Char_prefix ha.scalar hb.scalar hdata
  exact ⟨t, rfl, fun c hc => hb.scalar c (List.mem_append_right _ hc), hrest⟩

theorem isPrefixOf_eq (ha : Spells a x) (hb : Spells b y) : x.isPrefixOf y = a.isPrefixOf b := by
  rw [Bool.eq_iff_iff, List.isPrefixOf_iff_prefix, List.isPrefixOf_iff_prefix]
  constructor
  · rintro ⟨rest, rfl⟩
    obtain ⟨t, rfl, -⟩ := hb.of_append ha
    exact List.prefix_append _ _
  · rintro ⟨t, rfl⟩
    rw [ha.data_eq, hb.data_eq, List.flatMap_append]
    exact List.prefix_append _ _

theorem eq_iff (ha : Spells a x) (hb : Spells b y) : x = y ↔ a = b := by
  constructor
  · intro h
    have hback : a.flatMap utf8Char = b.flatMap utf8Char ++ [] := by
      rw [List.append_nil, ← ha.data_eq, ← hb.data_eq, h]
    obtain ⟨t, rfl, ht⟩ := flatMap_utf8Char_prefix hb.scalar ha.scalar hback
    cases t with
    | nil => exact List.append_nil b
    | cons c t => simp [utf8Char_ne_nil] at ht
  · rintro rfl
    rw [ha.data_eq, hb.data_eq]

/-- A text whose UTF-8 ends in an ASCII byte ends in that character. -/
theorem of_snoc {r : Bytes} {last : UInt8} (h : Spells b (r ++ [last])) (hlast : last.toNat < 0x80) :
    ∃ t, b = t ++ [last.toNat] ∧ Spells t r := by
  have hdata := h.data_eq
  rcases List.eq_nil_or_concat b with rfl | ⟨t, c, rfl⟩
  · simp at hdata
  have ht : ∀ d ∈ t, Scalar d := by
    intro d hd
    exact h.scalar d (by simp [hd])
  simp only [List.concat_eq_append, List.flatMap_append, List.flatMap_cons, List.flatMap_nil,
    List.append_nil] at hdata
  by_cases hc : c < 0x80
  · rw [utf8Char_of_ascii hc] at hdata
    obtain ⟨hr, hbyte⟩ := List.append_inj' hdata rfl
    have hvalue : last.toNat = c := by
      rw [List.head_eq_of_cons_eq hbyte, toNat_toUInt8 (by omega)]
    exact ⟨t, by rw [hvalue, List.concat_eq_append], ht, hr⟩
  · obtain ⟨q, byte, hq, hbyte⟩ := utf8Char_getLast (Nat.le_of_not_lt hc)
    rw [hq, ← List.append_assoc] at hdata
    have hsame := List.head_eq_of_cons_eq (List.append_inj' hdata rfl).2
    rw [hsame] at hlast
    omega

end Spells

end MsysCore.Python
