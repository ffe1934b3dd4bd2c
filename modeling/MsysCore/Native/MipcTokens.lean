import Mathlib.Data.List.TakeWhile
import MsysCore.Lib.Except
import MsysCore.Lib.JsonLimits
import MsysCore.Native.MipcJson

/-!
# The tokens of the decoder

What each token routine reads is a word of the grammar, and each word is read: a string
with the bytes it stands for, a number with its value where the routine computes it.
-/

namespace MsysCore.Native

open JsonGrammar

@[simp] theorem consumed_append (u r : Bytes) : consumed (u ++ r) r = u := by
  simp [consumed]

theorem fail_ne_ok {α : Type} {detail : String} {a : α} : fail detail ≠ .ok a := by
  simp [fail]

/-! ## Bytes -/

theorem isSpace_iff {b : UInt8} : isSpace b = true ↔ IsSpace b := by
  simp only [isSpace, IsSpace, Bool.or_eq_true, beq_iff_eq, or_assoc]
  rfl

theorem isDigit_iff {b : UInt8} : isDigit b = true ↔ IsDigit b := by
  simp only [isDigit, IsDigit, Bool.and_eq_true, decide_eq_true_eq]
  rfl

theorem skipSpace_spec (r : Bytes) : ∃ a, Spaces a ∧ r = a ++ skipSpace r := by
  refine ⟨r.takeWhile isSpace, ?_, (List.takeWhile_append_dropWhile).symm⟩
  intro b hb
  exact isSpace_iff.mp (List.mem_takeWhile_imp hb)

/-- Whitespace is skipped before a token, so reading a word from the skipped
suffix reads it from the suffix after some whitespace. -/
theorem skipSpace_append {r u r' : Bytes} (h : skipSpace r = u ++ r') :
    ∃ a, Spaces a ∧ r = a ++ (u ++ r') := by
  obtain ⟨a, ha, hr⟩ := skipSpace_spec r
  exact ⟨a, ha, by rw [hr, h]⟩

/-- Whitespace before a token is skipped, all of it and no more. -/
theorem skipSpace_spaces {a r : Bytes} {b : UInt8} (ha : Spaces a) (hb : ¬ IsSpace b) :
    skipSpace (a ++ b :: r) = b :: r := by
  have hall : ∀ c ∈ a, isSpace c = true := fun c hc => isSpace_iff.mpr (ha c hc)
  have hstop : ¬ isSpace b = true := fun h => hb (isSpace_iff.mp h)
  rw [skipSpace, List.dropWhile_append_of_pos hall, List.dropWhile_cons_of_neg hstop]

theorem length_skipSpace_le (r : Bytes) : (skipSpace r).length ≤ r.length :=
  List.length_dropWhile_le isSpace r

theorem digits_spec (r : Bytes) : ∃ ds, Digits ds ∧ r = ds ++ r.dropWhile isDigit := by
  refine ⟨r.takeWhile isDigit, ?_, (List.takeWhile_append_dropWhile).symm⟩
  intro b hb
  exact isDigit_iff.mp (List.mem_takeWhile_imp hb)

theorem dropWhile_digits {ds r : Bytes} (hds : Digits ds) (hr : ∀ b ∈ r.head?, ¬ IsDigit b) :
    (ds ++ r).dropWhile isDigit = r := by
  have hall : ∀ c ∈ ds, isDigit c = true := fun c hc => isDigit_iff.mpr (hds c hc)
  rw [List.dropWhile_append_of_pos hall]
  cases r with
  | nil => rfl
  | cons b r =>
    have hstop : ¬ isDigit b = true := fun h => hr b rfl (isDigit_iff.mp h)
    rw [List.dropWhile_cons_of_neg hstop]

theorem consume_eq_some {c : UInt8} {r r' : Bytes} : consume c r = some r' ↔ r = c :: r' := by
  cases r with
  | nil => simp [consume]
  | cons b r =>
    simp only [consume]
    split_ifs with hb
    · simp [hb]
    · simp [hb]

@[simp] theorem consume_self (c : UInt8) (r : Bytes) : consume c (c :: r) = some r :=
  consume_eq_some.mpr rfl

theorem consume_eq_none {c : UInt8} {r : Bytes} (h : ∀ b ∈ r.head?, b ≠ c) :
    consume c r = none := by
  cases r with
  | nil => rfl
  | cons b r => exact if_neg (h b rfl)

theorem expect_eq_ok {c : Char} {r r' : Bytes} : expect c r = .ok r' ↔ r = c.toUInt8 :: r' := by
  rw [← consume_eq_some]
  unfold expect
  cases consume c.toUInt8 r with
  | none => simp
  | some q => simp

theorem expectLiteral_eq_ok {l : String} {r r' : Bytes} (hl : (ascii l).length = l.length) :
    expectLiteral l r = .ok r' ↔ r = ascii l ++ r' := by
  unfold expectLiteral
  constructor
  · intro h
    split_ifs at h with ht
    · cases h
      rw [← ht, List.take_append_drop]
    · exact absurd h fail_ne_ok
  · rintro rfl
    rw [← hl, List.take_left, if_pos rfl, List.drop_left]

theorem requireDigit_eq_ok {c : Char} {r r' : Bytes} :
    requireDigit c r = .ok r' ↔ ∃ d, c.toUInt8 ≤ d ∧ d ≤ 0x39 ∧ r = d :: r' := by
  cases r with
  | nil =>
    constructor
    · intro h
      exact absurd h fail_ne_ok
    · rintro ⟨d, -, -, h⟩
      cases h
  | cons b r =>
    simp only [requireDigit]
    constructor
    · intro h
      split_ifs at h with hb
      · cases h
        simp only [Bool.and_eq_true, decide_eq_true_eq] at hb
        exact ⟨b, hb.1, hb.2, rfl⟩
      · exact absurd h fail_ne_ok
    · rintro ⟨d, hlow, hhigh, h⟩
      cases h
      rw [if_pos]
      simp only [Bool.and_eq_true, decide_eq_true_eq]
      exact ⟨hlow, hhigh⟩

/-! ## Characters -/

theorem hexNibble_eq (b : UInt8) : hexNibble b =
    if 0x30 ≤ b ∧ b ≤ 0x39 then some (b.toNat - 0x30)
    else if 0x61 ≤ b ∧ b ≤ 0x66 then some (b.toNat - 97 + 10)
    else if 0x41 ≤ b ∧ b ≤ 0x46 then some (b.toNat - 65 + 10)
    else none := rfl

theorem hexNibble_eq_some {b : UInt8} {n : ℕ} : hexNibble b = some n ↔ HexDigit b n := by
  have hle : ∀ x y : UInt8, x ≤ y → x.toNat ≤ y.toNat := fun x y => UInt8.le_iff_toNat_le.mp
  have hlower : 0x61 ≤ b → b.toNat - 97 + 10 = b.toNat - 0x57 := by
    intro hb
    have hnat : 0x61 ≤ b.toNat := hle _ _ hb
    omega
  have hupper : 0x41 ≤ b → b.toNat - 65 + 10 = b.toNat - 0x37 := by
    intro hb
    have hnat : 0x41 ≤ b.toNat := hle _ _ hb
    omega
  rw [hexNibble_eq]
  constructor
  · intro h
    split_ifs at h with h1 h2 h3
    · cases h
      exact .inl ⟨h1, rfl⟩
    · cases h
      exact .inr (.inl ⟨h2, hlower h2.1⟩)
    · cases h
      exact .inr (.inr ⟨h3, hupper h3.1⟩)
  · rintro (⟨hb, rfl⟩ | ⟨hb, rfl⟩ | ⟨hb, rfl⟩)
    · exact if_pos hb
    · rw [if_neg, if_pos hb, hlower hb.1]
      intro hdigit
      exact absurd (UInt8.le_trans hb.1 hdigit.2) (by decide)
    · rw [if_neg, if_neg, if_pos hb, hupper hb.1]
      · intro hletter
        exact absurd (UInt8.le_trans hletter.1 hb.2) (by decide)
      · intro hdigit
        exact absurd (UInt8.le_trans hb.1 hdigit.2) (by decide)

theorem parseHexQuad_eq_ok {r r' : Bytes} {n : ℕ} :
    parseHexQuad r = .ok (n, r') ↔ ∃ u, CodeUnit u n ∧ r = u ++ r' := by
  constructor
  · intro h
    unfold parseHexQuad at h
    split at h
    · rename_i a b c d r
      split at h
      · rename_i w x y z ha hb hc hd
        cases h
        exact ⟨[a, b, c, d], .mk (hexNibble_eq_some.mp ha) (hexNibble_eq_some.mp hb)
          (hexNibble_eq_some.mp hc) (hexNibble_eq_some.mp hd), rfl⟩
      · exact absurd h fail_ne_ok
    · exact absurd h fail_ne_ok
  · rintro ⟨u, hu, rfl⟩
    cases hu with
    | mk ha hb hc hd =>
      simp [parseHexQuad, hexNibble_eq_some.mpr ha, hexNibble_eq_some.mpr hb,
        hexNibble_eq_some.mpr hc, hexNibble_eq_some.mpr hd]

theorem simpleEscape_eq_some {e c : UInt8} : simpleEscape e = some c ↔ (e, c) ∈ escapeTable := by
  constructor
  · intro h
    unfold simpleEscape at h
    split_ifs at h with h1 h2 h3 h4 h5 h6
    · cases h
      rcases h1 with rfl | rfl | rfl <;> decide
    all_goals
      cases h
      subst e
      decide
  · intro h
    simp only [escapeTable, List.mem_cons, Prod.mk.injEq, List.not_mem_nil, or_false] at h
    rcases h with ⟨rfl, rfl⟩ | ⟨rfl, rfl⟩ | ⟨rfl, rfl⟩ | ⟨rfl, rfl⟩ | ⟨rfl, rfl⟩ | ⟨rfl, rfl⟩ |
      ⟨rfl, rfl⟩ | ⟨rfl, rfl⟩ <;> rfl

/-- A scalar value is the number of a character. -/
theorem exists_char {n : ℕ} (hmax : n < 0x110000) (hsurrogate : n < 0xd800 ∨ 0xdfff < n) :
    ∃ c : Char, c.toNat = n := by
  have hsize : n < UInt32.size := by
    rw [UInt32.size]
    omega
  have hvalid : (UInt32.ofNatLT n hsize).toNat.isValidChar := by
    rw [UInt32.toNat_ofNatLT]
    unfold Nat.isValidChar
    omega
  exact ⟨⟨UInt32.ofNatLT n hsize, hvalid⟩, UInt32.toNat_ofNatLT⟩

theorem char_toNat_cases (c : Char) :
    c.toNat < 0xd800 ∨ 0xdfff < c.toNat ∧ c.toNat < 0x110000 := c.valid

/-- `append_utf8` pushes the encoding of the character. -/
theorem appendUtf8_eq (c : Char) : appendUtf8 c.toNat = String.utf8EncodeChar c := by
  have hmax : c.toNat < 0x110000 := by
    have hcases := char_toNat_cases c
    omega
  unfold appendUtf8 String.utf8EncodeChar
  change _ = if c.toNat ≤ 0x7f then [UInt8.ofNat c.toNat]
    else if c.toNat ≤ 0x7ff then
      [UInt8.ofNat (c.toNat / 64 % 0x20 + 0xc0), UInt8.ofNat (c.toNat % 0x40 + 0x80)]
    else if c.toNat ≤ 0xffff then
      [UInt8.ofNat (c.toNat / 4096 % 0x10 + 0xe0), UInt8.ofNat (c.toNat / 64 % 0x40 + 0x80),
        UInt8.ofNat (c.toNat % 0x40 + 0x80)]
    else
      [UInt8.ofNat (c.toNat / 262144 % 0x08 + 0xf0), UInt8.ofNat (c.toNat / 4096 % 0x40 + 0x80),
        UInt8.ofNat (c.toNat / 64 % 0x40 + 0x80), UInt8.ofNat (c.toNat % 0x40 + 0x80)]
  split_ifs with h1 h2 h3
  · rfl
  · have hlead : c.toNat / 64 % 0x20 = c.toNat / 64 := Nat.mod_eq_of_lt (by omega)
    rw [hlead, Nat.add_comm 0xc0, Nat.add_comm 0x80]
  · have hlead : c.toNat / 4096 % 0x10 = c.toNat / 4096 := Nat.mod_eq_of_lt (by omega)
    rw [hlead, Nat.add_comm 0xe0, Nat.add_comm 0x80, Nat.add_comm 0x80]
  · have hlead : c.toNat / 262144 % 0x08 = c.toNat / 262144 := Nat.mod_eq_of_lt (by omega)
    rw [hlead, Nat.add_comm 0xf0, Nat.add_comm 0x80, Nat.add_comm 0x80, Nat.add_comm 0x80]

/-- The code point of an escape whose `\u` has been read. -/
inductive UnicodeEscape : Bytes → Char → Prop
  | unit {u} {c : Char} : CodeUnit u c.toNat → UnicodeEscape u c
  | pair {u v high low} {c : Char} : CodeUnit u high → CodeUnit v low →
      (0xd800 ≤ high ∧ high ≤ 0xdbff) → (0xdc00 ≤ low ∧ low ≤ 0xdfff) →
      c.toNat = surrogates high low → UnicodeEscape (u ++ 0x5c :: 0x75 :: v) c

theorem UnicodeEscape.writes {u w s : Bytes} {c : Char} (h : UnicodeEscape u c)
    (hw : Writes w s) : Writes (0x5c :: 0x75 :: (u ++ w)) (String.utf8EncodeChar c ++ s) := by
  cases h with
  | unit hunit => exact .unicode c hunit hw
  | pair hu hv hhigh hlow hc =>
    rw [List.append_assoc]
    exact .pair c hu hv hhigh hlow hc hw

theorem parseUnicodeEscape_of_escape {u r : Bytes} {c : Char} (h : UnicodeEscape u c) :
    parseUnicodeEscape (u ++ r) = .ok (c.toNat, r) := by
  cases h with
  | unit hunit =>
    have hcases := char_toNat_cases c
    have hquad : parseHexQuad (u ++ r) = .ok (c.toNat, r) :=
      parseHexQuad_eq_ok.mpr ⟨u, hunit, rfl⟩
    have hhigh : ¬ (0xd800 ≤ c.toNat ∧ c.toNat ≤ 0xdbff) := by omega
    have hlow : ¬ (0xdc00 ≤ c.toNat ∧ c.toNat ≤ 0xdfff) := by omega
    unfold parseUnicodeEscape
    refine bind_eq_ok.mpr ⟨_, hquad, ?_⟩
    simp only [if_neg hhigh, if_neg hlow]
    rfl
  | @pair u v high low c hu hv hhigh hlow hc =>
    have hquad : parseHexQuad ((u ++ 0x5c :: 0x75 :: v) ++ r) =
        .ok (high, 0x5c :: 0x75 :: (v ++ r)) :=
      parseHexQuad_eq_ok.mpr ⟨u, hu, by simp⟩
    have hquad' : parseHexQuad (v ++ r) = .ok (low, r) := parseHexQuad_eq_ok.mpr ⟨v, hv, rfl⟩
    have hrange : ¬ (low < 0xdc00 ∨ 0xdfff < low) := by omega
    have hmark : (0x5c : UInt8) = '\\'.toUInt8 ∧ (0x75 : UInt8) = 'u'.toUInt8 := by decide
    unfold parseUnicodeEscape
    refine bind_eq_ok.mpr ⟨_, hquad, ?_⟩
    simp only [if_pos hhigh, if_pos hmark]
    refine bind_eq_ok.mpr ⟨_, hquad', ?_⟩
    simp only [if_neg hrange]
    rw [hc]
    rfl

theorem escape_of_parseUnicodeEscape {r r' : Bytes} {n : ℕ}
    (h : parseUnicodeEscape r = .ok (n, r')) :
    ∃ u c, UnicodeEscape u c ∧ n = c.toNat ∧ r = u ++ r' := by
  unfold parseUnicodeEscape at h
  obtain ⟨⟨cp, s⟩, hq, hk⟩ := bind_eq_ok.mp h
  clear h
  obtain ⟨u, hu, rfl⟩ := parseHexQuad_eq_ok.mp hq
  have hmax := hu.lt
  simp only at hk
  split_ifs at hk with h1 h2
  · split at hk
    · rename_i x y t
      split_ifs at hk with hxy
      · obtain ⟨⟨low, t'⟩, hq', hl⟩ := bind_eq_ok.mp hk
        obtain ⟨v, hv, rfl⟩ := parseHexQuad_eq_ok.mp hq'
        simp only at hl
        split_ifs at hl with hrange
        · exact absurd hl fail_ne_ok
        · simp only [pure, Except.pure, Except.ok.injEq, Prod.mk.injEq] at hl
          obtain ⟨rfl, rfl⟩ := hl
          obtain ⟨c, hc⟩ : ∃ c : Char, c.toNat = surrogates cp low :=
            exists_char (by unfold surrogates; omega) (.inr (by unfold surrogates; omega))
          refine ⟨_, c, .pair hu hv h1 ⟨by omega, by omega⟩ hc, hc.symm, ?_⟩
          rw [hxy.1, hxy.2, List.append_assoc]
          rfl
      · exact absurd hk fail_ne_ok
    · exact absurd hk fail_ne_ok
  · exact absurd hk fail_ne_ok
  · cases hk
    obtain ⟨c, rfl⟩ : ∃ c : Char, c.toNat = n := exists_char (by omega) (by omega)
    exact ⟨u, c, .unit hu, rfl, rfl⟩

/-! ## Strings -/

/-- What the loop has read stands for what it has put out. -/
theorem stringBody_sound (fuel : ℕ) : ∀ (output r : Bytes) {s r' : Bytes},
    stringBody fuel output r = .ok (s, r') →
      ∃ w t, Writes w t ∧ s = output ++ t ∧ r = w ++ 0x22 :: r' := by
  induction fuel with
  | zero =>
    intro output r s r' h
    exact absurd h fail_ne_ok
  | succ fuel ih =>
    intro output r s r' h
    cases r with
    | nil => exact absurd h fail_ne_ok
    | cons byte r =>
      unfold stringBody at h
      split_ifs at h with hquote hcontrol hplain
      · cases h
        exact ⟨[], [], .nil, by simp, by rw [hquote]; rfl⟩
      · exact absurd h fail_ne_ok
      · obtain ⟨w, t, hw, rfl, rfl⟩ := ih _ _ h
        exact ⟨byte :: w, byte :: t, .plain (UInt8.not_lt.mp hcontrol) hquote hplain hw, by simp,
          rfl⟩
      · have hbackslash : byte = 0x5c := not_not.mp hplain
        subst hbackslash
        cases r with
        | nil => exact absurd h fail_ne_ok
        | cons escape r =>
          simp only at h
          split_ifs at h with hunicode
          · subst hunicode
            split at h
            · simp at h
            · rename_i n r₁ hescape
              obtain ⟨u, c, hu, rfl, rfl⟩ := escape_of_parseUnicodeEscape hescape
              obtain ⟨w, t, hw, rfl, rfl⟩ := ih _ _ h
              refine ⟨_, _, hu.writes hw, ?_, ?_⟩
              · rw [appendUtf8_eq, List.append_assoc]
              · rw [← List.append_assoc u]
                rfl
          · split at h
            · rename_i c hsimple
              obtain ⟨w, t, hw, rfl, rfl⟩ := ih _ _ h
              exact ⟨_, _, .escape (simpleEscape_eq_some.mp hsimple) hw, by simp, rfl⟩
            · exact absurd h fail_ne_ok

theorem stringBody_close (fuel : ℕ) (output r : Bytes) :
    stringBody (fuel + 1) output (0x22 :: r) = .ok (output, r) := rfl

theorem stringBody_plain {b : UInt8} (hcontrol : 0x20 ≤ b) (hquote : b ≠ 0x22)
    (hbackslash : b ≠ 0x5c) (fuel : ℕ) (output r : Bytes) :
    stringBody (fuel + 1) output (b :: r) = stringBody fuel (output ++ [b]) r := by
  have hlow : ¬ b < 0x20 := UInt8.not_lt.mpr hcontrol
  have hquote' : ¬ b = '"'.toUInt8 := hquote
  have hbackslash' : b ≠ '\\'.toUInt8 := hbackslash
  conv_lhs => unfold stringBody
  rw [if_neg hquote', if_neg hlow, if_pos hbackslash']

theorem stringBody_escape {e c : UInt8} (h : (e, c) ∈ escapeTable) (fuel : ℕ)
    (output r : Bytes) :
    stringBody (fuel + 1) output (0x5c :: e :: r) = stringBody fuel (output ++ [c]) r := by
  have hunicode : ¬ e = 'u'.toUInt8 := by
    rintro rfl
    exact absurd (mem_escapes h) (by decide)
  have hbackslash : ¬ (0x5c : UInt8) ≠ '\\'.toUInt8 := by decide
  conv_lhs => unfold stringBody
  rw [if_neg (by decide), if_neg (by decide), if_neg hbackslash]
  simp only [if_neg hunicode, simpleEscape_eq_some.mpr h]

theorem stringBody_unicode {u : Bytes} {c : Char} (h : UnicodeEscape u c) (fuel : ℕ)
    (output r : Bytes) : stringBody (fuel + 1) output (0x5c :: 0x75 :: (u ++ r)) =
      stringBody fuel (output ++ String.utf8EncodeChar c) r := by
  have hunicode : (0x75 : UInt8) = 'u'.toUInt8 := rfl
  have hbackslash : ¬ (0x5c : UInt8) ≠ '\\'.toUInt8 := by decide
  conv_lhs => unfold stringBody
  rw [if_neg (by decide), if_neg (by decide), if_neg hbackslash]
  simp only [if_pos hunicode, parseUnicodeEscape_of_escape h, appendUtf8_eq]

/-- With a turn for each byte and the closing quote the loop reads every string. -/
theorem stringBody_complete {w t : Bytes} (h : Writes w t) : ∀ (fuel : ℕ) (output r : Bytes),
    w.length < fuel → stringBody fuel output (w ++ 0x22 :: r) = .ok (output ++ t, r) := by
  have hunicode : ∀ {u w t : Bytes} {c : Char}, UnicodeEscape u c →
      (∀ (fuel : ℕ) (output r : Bytes), w.length < fuel →
        stringBody fuel output (w ++ 0x22 :: r) = .ok (output ++ t, r)) →
      ∀ (fuel : ℕ) (output r : Bytes), u.length + w.length < fuel →
        stringBody (fuel + 1) output (0x5c :: 0x75 :: (u ++ (w ++ 0x22 :: r))) =
          .ok (output ++ (String.utf8EncodeChar c ++ t), r) := by
    intro u w t c hu ih fuel output r hfuel
    rw [stringBody_unicode hu, ih fuel _ r (by omega), List.append_assoc]
  induction h with
  | nil =>
    intro fuel output r hfuel
    obtain ⟨fuel, rfl⟩ := Nat.exists_eq_succ_of_ne_zero (Nat.pos_iff_ne_zero.mp hfuel)
    simpa using stringBody_close fuel output r
  | plain hcontrol hquote hbackslash _ ih =>
    intro fuel output r hfuel
    obtain ⟨fuel, rfl⟩ := Nat.exists_eq_succ_of_ne_zero (Nat.ne_zero_of_lt hfuel)
    rw [List.cons_append, stringBody_plain hcontrol hquote hbackslash]
    rw [ih fuel _ r (by simpa using hfuel), List.append_assoc]
    rfl
  | escape hmem _ ih =>
    intro fuel output r hfuel
    obtain ⟨fuel, rfl⟩ := Nat.exists_eq_succ_of_ne_zero (Nat.ne_zero_of_lt hfuel)
    simp only [List.length_cons] at hfuel
    rw [List.cons_append, List.cons_append, stringBody_escape hmem, ih fuel _ r (by omega),
      List.append_assoc]
    rfl
  | @unicode u w t c hunit _ ih =>
    intro fuel output r hfuel
    obtain ⟨fuel, rfl⟩ := Nat.exists_eq_succ_of_ne_zero (Nat.ne_zero_of_lt hfuel)
    simp only [List.length_cons, List.length_append] at hfuel
    rw [List.cons_append, List.cons_append, List.append_assoc]
    exact hunicode (.unit hunit) ih fuel output r (by omega)
  | @pair u v high low w t c hu hv hhigh hlow hc _ ih =>
    intro fuel output r hfuel
    obtain ⟨fuel, rfl⟩ := Nat.exists_eq_succ_of_ne_zero (Nat.ne_zero_of_lt hfuel)
    simp only [List.length_cons, List.length_append] at hfuel
    have hescape : UnicodeEscape (u ++ 0x5c :: 0x75 :: v) c := .pair hu hv hhigh hlow hc
    have hrun := hunicode hescape ih fuel output r
      (by simp only [List.length_cons, List.length_append]; omega)
    simpa using hrun

theorem parseString_eq_ok {r s r' : Bytes} :
    parseString r = .ok (s, r') ↔ ∃ t, Quoted t s ∧ r = t ++ r' := by
  constructor
  · intro h
    obtain ⟨q, hq, hbody⟩ := bind_eq_ok.mp h
    obtain ⟨w, t, hw, rfl, rfl⟩ := stringBody_sound _ _ _ hbody
    refine ⟨_, ⟨w, hw, rfl⟩, ?_⟩
    rw [expect_eq_ok.mp hq, List.cons_append, List.append_assoc]
    rfl
  · rintro ⟨t, ⟨w, hw, rfl⟩, rfl⟩
    refine bind_eq_ok.mpr ⟨w ++ 0x22 :: r', expect_eq_ok.mpr ?_, ?_⟩
    · rw [List.cons_append, List.append_assoc]
      rfl
    · refine stringBody_complete hw _ [] r' ?_
      simp

/-! ## Numbers -/

theorem numberInteger_spec {r r' : Bytes} (h : numberInteger r = .ok r') :
    ∃ i, Integer i ∧ r = i ++ r' := by
  unfold numberInteger at h
  split at h
  · rename_i q hq
    split_ifs at h
    · exact absurd h fail_ne_ok
    · cases h
      exact ⟨[0x30], .inl rfl, consume_eq_some.mp hq⟩
  · obtain ⟨q, hq, rfl⟩ := map_eq_ok.mp h
    obtain ⟨d, h1, h2, rfl⟩ := requireDigit_eq_ok.mp hq
    obtain ⟨ds, hds, hr⟩ := digits_spec q
    exact ⟨d :: ds, .inr ⟨d, ds, h1, h2, hds, rfl⟩, by rw [List.cons_append, ← hr]⟩

theorem numberFraction_spec {r r' : Bytes} (h : numberFraction r = .ok r') :
    ∃ f, Fraction f ∧ r = f ++ r' := by
  unfold numberFraction at h
  split at h
  · rename_i q hq
    obtain ⟨p, hp, rfl⟩ := map_eq_ok.mp h
    obtain ⟨d, h1, h2, rfl⟩ := requireDigit_eq_ok.mp hp
    obtain ⟨ds, hds, hr⟩ := digits_spec p
    refine ⟨0x2e :: d :: ds, .inr ⟨d, ds, ⟨h1, h2⟩, hds, rfl⟩, ?_⟩
    rw [consume_eq_some.mp hq, List.cons_append, List.cons_append, ← hr]
    rfl
  · cases h
    exact ⟨[], .inl rfl, rfl⟩

/-- The optional sign of an exponent. -/
theorem sign_spec (r : Bytes) : ∃ sign, (sign = [] ∨ sign = [0x2b] ∨ sign = [0x2d]) ∧
    r = sign ++ ((consume '+'.toUInt8 r).or (consume '-'.toUInt8 r)).getD r := by
  cases hp : consume '+'.toUInt8 r with
  | some q => exact ⟨[0x2b], .inr (.inl rfl), consume_eq_some.mp hp⟩
  | none =>
    cases hm : consume '-'.toUInt8 r with
    | some q => exact ⟨[0x2d], .inr (.inr rfl), consume_eq_some.mp hm⟩
    | none => exact ⟨[], .inl rfl, rfl⟩

theorem exponentMark_spec {r q : Bytes}
    (h : (consume 'e'.toUInt8 r).or (consume 'E'.toUInt8 r) = some q) :
    ∃ e, (e = 0x65 ∨ e = 0x45) ∧ r = e :: q := by
  cases he : consume 'e'.toUInt8 r with
  | some p =>
    rw [he] at h
    cases h
    exact ⟨0x65, .inl rfl, consume_eq_some.mp he⟩
  | none =>
    rw [he] at h
    exact ⟨0x45, .inr rfl, consume_eq_some.mp h⟩

theorem numberExponent_spec {r r' : Bytes} (h : numberExponent r = .ok r') :
    ∃ e, Exponent e ∧ r = e ++ r' := by
  unfold numberExponent at h
  split at h
  · rename_i q hq
    obtain ⟨mark, hmark, rfl⟩ := exponentMark_spec hq
    obtain ⟨sign, hsign, hs⟩ := sign_spec q
    obtain ⟨p, hp, rfl⟩ := map_eq_ok.mp h
    obtain ⟨d, h1, h2, hd⟩ := requireDigit_eq_ok.mp hp
    obtain ⟨ds, hds, hr⟩ := digits_spec p
    refine ⟨mark :: (sign ++ d :: ds), .inr ⟨mark, sign, d, ds, hmark, hsign, ⟨h1, h2⟩, hds, rfl⟩, ?_⟩
    calc mark :: q = mark :: (sign ++ d :: p) := by rw [← hd, ← hs]
      _ = mark :: (sign ++ d :: (ds ++ p.dropWhile isDigit)) := by rw [← hr]
      _ = _ := by simp
  · cases h
    exact ⟨[], .inl rfl, rfl⟩

theorem minus_spec (r : Bytes) : ∃ sign, (sign = [] ∨ sign = [0x2d]) ∧
    r = sign ++ (consume '-'.toUInt8 r).getD r := by
  cases hm : consume '-'.toUInt8 r with
  | some q => exact ⟨[0x2d], .inr rfl, consume_eq_some.mp hm⟩
  | none => exact ⟨[], .inl rfl, rfl⟩

theorem parseNumberToken_sound {r r' : Bytes} (h : parseNumberToken r = .ok r') :
    ∃ t, Number t ∧ r = t ++ r' := by
  obtain ⟨sign, hsign, hs⟩ := minus_spec r
  obtain ⟨q1, h1, hk1⟩ := bind_eq_ok.mp h
  obtain ⟨q2, h2, hk2⟩ := bind_eq_ok.mp hk1
  obtain ⟨q3, h3, hk3⟩ := bind_eq_ok.mp hk2
  obtain ⟨i, hi, e1⟩ := numberInteger_spec h1
  obtain ⟨f, hf, rfl⟩ := numberFraction_spec h2
  obtain ⟨e, he, rfl⟩ := numberExponent_spec h3
  split_ifs at hk3
  · exact absurd hk3 fail_ne_ok
  · cases hk3
    refine ⟨_, ⟨sign, i, f, e, hsign, hi, hf, he, rfl⟩, ?_⟩
    rw [hs, e1]
    simp

/-- What may follow a number: nothing that would make it longer. -/
def Delimits (r : Bytes) : Prop :=
  ∀ b ∈ r.head?, ¬ IsDigit b ∧ b ≠ 0x2e ∧ b ≠ 0x65 ∧ b ≠ 0x45

theorem delimits_spaces {c r : Bytes} {b : UInt8} (hc : Spaces c)
    (hb : b = 0x2c ∨ b = 0x5d ∨ b = 0x7d) : Delimits (c ++ b :: r) := by
  intro d hd
  cases c with
  | nil =>
    cases hd
    unfold IsDigit
    rcases hb with rfl | rfl | rfl <;> decide
  | cons a c =>
    have hspace : IsSpace a := hc a List.mem_cons_self
    cases hd
    unfold IsDigit
    rcases hspace with rfl | rfl | rfl | rfl <;> decide

/-- The first byte of an exponent, or of what follows it. -/
theorem head_exponent {e r : Bytes} (he : Exponent e) (hr : Delimits r) :
    ∀ b ∈ (e ++ r).head?, ¬ IsDigit b ∧ b ≠ 0x2e := by
  intro b hb
  rcases he with rfl | ⟨mark, sign, d, ds, hmark, -, -, -, rfl⟩
  · have hdelimits := hr b hb
    exact ⟨hdelimits.1, hdelimits.2.1⟩
  · cases hb
    unfold IsDigit
    rcases hmark with rfl | rfl <;> decide

theorem head_fraction {f e r : Bytes} (hf : Fraction f) (he : Exponent e) (hr : Delimits r) :
    ∀ b ∈ (f ++ (e ++ r)).head?, ¬ IsDigit b := by
  intro b hb
  rcases hf with rfl | ⟨d, ds, -, -, rfl⟩
  · exact (head_exponent he hr b hb).1
  · cases hb
    unfold IsDigit
    decide

theorem numberInteger_complete {i r : Bytes} (hi : Integer i) (hr : ∀ b ∈ r.head?, ¬ IsDigit b) :
    numberInteger (i ++ r) = .ok r := by
  rcases hi with rfl | ⟨d, ds, hlow, hhigh, hds, rfl⟩
  · have hdigit : ¬ r.head?.any isDigit = true := by
      cases r with
      | nil => exact Bool.false_ne_true
      | cons b r => exact fun hany => hr b rfl (isDigit_iff.mp hany)
    have hzero : consume '0'.toUInt8 ([0x30] ++ r) = some r := consume_self 0x30 r
    unfold numberInteger
    simp only [hzero, if_neg hdigit]
  · have hzero : consume '0'.toUInt8 (d :: ds ++ r) = none := by
      refine consume_eq_none fun b hb => ?_
      cases hb
      rintro rfl
      exact absurd hlow (by decide)
    have hone : requireDigit '1' (d :: ds ++ r) = .ok (ds ++ r) :=
      requireDigit_eq_ok.mpr ⟨d, hlow, hhigh, rfl⟩
    unfold numberInteger
    simp only [hzero]
    exact map_eq_ok.mpr ⟨ds ++ r, hone, dropWhile_digits hds hr⟩

theorem numberFraction_complete {f r : Bytes} (hf : Fraction f)
    (hr : ∀ b ∈ r.head?, ¬ IsDigit b ∧ b ≠ 0x2e) : numberFraction (f ++ r) = .ok r := by
  rcases hf with rfl | ⟨d, ds, hd, hds, rfl⟩
  · have hpoint : consume '.'.toUInt8 r = none := consume_eq_none fun b hb => (hr b hb).2
    unfold numberFraction
    simp only [List.nil_append, hpoint]
  · have hpoint : consume '.'.toUInt8 (0x2e :: d :: ds ++ r) = some (d :: ds ++ r) :=
      consume_self 0x2e _
    have hdigit : requireDigit '0' (d :: ds ++ r) = .ok (ds ++ r) :=
      requireDigit_eq_ok.mpr ⟨d, hd.1, hd.2, rfl⟩
    unfold numberFraction
    simp only [hpoint]
    exact map_eq_ok.mpr ⟨ds ++ r, hdigit, dropWhile_digits hds fun b hb => (hr b hb).1⟩

theorem sign_complete {sign r : Bytes} {d : UInt8}
    (hsign : sign = [] ∨ sign = [0x2b] ∨ sign = [0x2d]) (hd : IsDigit d) :
    ((consume '+'.toUInt8 (sign ++ d :: r)).or (consume '-'.toUInt8 (sign ++ d :: r))).getD
      (sign ++ d :: r) = d :: r := by
  rcases hsign with rfl | rfl | rfl
  · have hplus : d ≠ '+'.toUInt8 := by
      rintro rfl
      exact absurd hd.1 (by decide)
    have hminus : d ≠ '-'.toUInt8 := by
      rintro rfl
      exact absurd hd.1 (by decide)
    simp [consume, hplus, hminus]
  · rfl
  · rfl

theorem numberExponent_complete {e r : Bytes} (he : Exponent e) (hr : Delimits r) :
    numberExponent (e ++ r) = .ok r := by
  rcases he with rfl | ⟨mark, sign, d, ds, hmark, hsign, hd, hds, rfl⟩
  · have hlower : consume 'e'.toUInt8 r = none := consume_eq_none fun b hb => (hr b hb).2.2.1
    have hupper : consume 'E'.toUInt8 r = none := consume_eq_none fun b hb => (hr b hb).2.2.2
    unfold numberExponent
    simp only [List.nil_append, hlower, hupper, Option.or_none]
  · have hmarked : (consume 'e'.toUInt8 (mark :: (sign ++ d :: ds) ++ r)).or
        (consume 'E'.toUInt8 (mark :: (sign ++ d :: ds) ++ r)) = some (sign ++ d :: (ds ++ r)) := by
      rcases hmark with rfl | rfl
      · simp [consume]
        decide
      · simp [consume]
        decide
    have hdigit : requireDigit '0' (d :: (ds ++ r)) = .ok (ds ++ r) :=
      requireDigit_eq_ok.mpr ⟨d, hd.1, hd.2, rfl⟩
    unfold numberExponent
    simp only [hmarked, sign_complete hsign hd]
    exact map_eq_ok.mpr ⟨ds ++ r, hdigit, dropWhile_digits hds fun b hb => (hr b hb).1⟩

theorem minus_complete {sign i r : Bytes} (hsign : sign = [] ∨ sign = [0x2d]) (hi : Integer i) :
    (consume '-'.toUInt8 (sign ++ (i ++ r))).getD (sign ++ (i ++ r)) = i ++ r := by
  rcases hsign with rfl | rfl
  · obtain ⟨b, w, rfl, hb⟩ := hi.head
    have hminus : b ≠ '-'.toUInt8 := by
      rintro rfl
      exact absurd hb.1 (by decide)
    simp [consume, hminus]
  · rfl

theorem parseNumberToken_complete {t r : Bytes} (ht : Number t) (hr : Delimits r) :
    parseNumberToken (t ++ r) = .ok r := by
  obtain ⟨sign, i, f, e, hsign, hi, hf, he, rfl⟩ := ht
  have hwhole : sign ++ (i ++ (f ++ e)) ++ r = sign ++ (i ++ (f ++ (e ++ r))) := by simp
  have hlength : ¬ r.length = (sign ++ (i ++ (f ++ (e ++ r)))).length := by
    obtain ⟨b, w, rfl, -⟩ := hi.head
    simp only [List.length_append, List.length_cons]
    omega
  rw [hwhole, parseNumberToken, minus_complete hsign hi]
  refine bind_eq_ok.mpr ⟨_, numberInteger_complete hi (head_fraction hf he hr), ?_⟩
  refine bind_eq_ok.mpr ⟨_, numberFraction_complete hf (head_exponent he hr), ?_⟩
  refine bind_eq_ok.mpr ⟨_, numberExponent_complete he hr, ?_⟩
  rw [if_neg hlength]
  rfl

/-! ## Fields of a fixed kind -/

theorem fromChars_eq (t : Bytes) : fromChars t = decimal t := by
  induction t using List.reverseRecOn with
  | nil => rfl
  | append_singleton t b ih =>
    have hstep : fromChars (t ++ [b]) = fromChars t * 10 + (b.toNat - 48) := by
      simp [fromChars, List.foldl_append]
    rw [hstep, ih]
    unfold decimal
    rw [List.reverse_append, List.reverse_singleton, List.singleton_append, List.map_cons,
      Nat.ofDigits_cons]
    omega

/-- What an integer field may hold. -/
def Unsigned (positive : Bool) (n : ℕ) : Prop := n < 2 ^ 64 ∧ (positive = true → n ≠ 0)

theorem parseUnsignedInteger_sound {field : String} {positive : Bool} {r r' : Bytes} {n : ℕ}
    (h : parseUnsignedInteger field positive r = .ok (n, r')) :
    ∃ t, Natural t n ∧ Unsigned positive n ∧ r = t ++ r' := by
  obtain ⟨q, hq, hk⟩ := bind_eq_ok.mp h
  obtain ⟨t, ht, rfl⟩ := parseNumberToken_sound hq
  simp only [consumed_append] at hk
  split_ifs at hk with hform hrange
  · exact absurd hk fail_ne_ok
  · exact absurd hk fail_ne_ok
  · simp only [pure, Except.pure, Except.ok.injEq, Prod.mk.injEq] at hk
    obtain ⟨rfl, rfl⟩ := hk
    simp only [Bool.or_eq_true, not_or] at hform
    obtain ⟨⟨-, hminus⟩, hplain⟩ := hform
    refine ⟨t, ⟨ht.integer ?_ ?_, fromChars_eq t⟩, ⟨?_, ?_⟩, rfl⟩
    · exact fun heq => hminus (by rw [heq]; rfl)
    · intro b hb
      have hmark := fun hmark => hplain (List.any_eq_true.mpr ⟨b, hb, hmark⟩)
      refine ⟨?_, ?_, ?_⟩
      · rintro rfl
        exact hmark rfl
      · rintro rfl
        exact hmark rfl
      · rintro rfl
        exact hmark rfl
    · exact Nat.not_le.mp fun hlarge => hrange (.inl hlarge)
    · exact fun hpositive hzero => hrange (.inr ⟨hpositive, hzero⟩)

theorem parseUnsignedInteger_complete {field : String} {positive : Bool} {t r : Bytes} {n : ℕ}
    (ht : Natural t n) (hn : Unsigned positive n) (hr : Delimits r) :
    parseUnsignedInteger field positive (t ++ r) = .ok (n, r) := by
  obtain ⟨hi, rfl⟩ := ht
  obtain ⟨b, w, hhead, hdigit⟩ := hi.head
  have hdigits := hi.digits
  have hform : ¬ (t.isEmpty || t.head? == some '-'.toUInt8
      || t.any (fun b => b == '.'.toUInt8 || b == 'e'.toUInt8 || b == 'E'.toUInt8)) = true := by
    simp only [Bool.or_eq_true, not_or]
    refine ⟨⟨?_, ?_⟩, ?_⟩
    · rw [hhead]
      exact Bool.false_ne_true
    · rw [hhead]
      exact fun hminus => hdigit.plain.1 (Option.some.inj (beq_iff_eq.mp hminus))
    · intro hany
      obtain ⟨d, hd, hmark⟩ := List.any_eq_true.mp hany
      obtain ⟨-, hpoint, hlower, hupper⟩ := (hdigits d hd).plain
      simp only [Bool.or_eq_true, beq_iff_eq] at hmark
      rcases hmark with (hmark | hmark) | hmark
      · exact hpoint hmark
      · exact hlower hmark
      · exact hupper hmark
  have hrange : ¬ (2 ^ 64 ≤ fromChars t ∨ (positive = true ∧ fromChars t = 0)) := by
    rw [fromChars_eq]
    rintro (hlarge | ⟨hpositive, hzero⟩)
    · exact absurd hn.1 (Nat.not_lt.mpr hlarge)
    · exact hn.2 hpositive hzero
  refine bind_eq_ok.mpr ⟨_, parseNumberToken_complete hi.number hr, ?_⟩
  simp only [consumed_append, if_neg hform, if_neg hrange]
  rw [fromChars_eq]
  rfl

theorem parseBoolean_sound {field : String} {r r' : Bytes} {b : Bool}
    (h : parseBoolean field r = .ok (b, r')) :
    r = (if b then ascii "true" else ascii "false") ++ r' := by
  unfold parseBoolean at h
  split_ifs at h with ht hf
  · cases h
    rw [if_pos rfl, ← ht, List.take_append_drop]
  · cases h
    rw [if_neg Bool.false_ne_true, ← hf, List.take_append_drop]
  · exact absurd h fail_ne_ok

theorem parseBoolean_complete (field : String) (b : Bool) (r : Bytes) :
    parseBoolean field ((if b then ascii "true" else ascii "false") ++ r) = .ok (b, r) := by
  cases b with
  | false => rfl
  | true => rfl

end MsysCore.Native
