import MsysCore.Native.MipcTokens

/-!
# What the decoder accepts as UTF-8

`valid_utf8` accepts the encodings of the sequences of characters, and nothing else.
-/

namespace MsysCore.Native

/-! ## Bytes -/

theorem toUInt8_toNat (b : UInt8) : b.toNat.toUInt8 = b := by
  simp [Nat.toUInt8]

/-- The tests of `leadByte`, on the number of the byte. -/
theorem leadByte_eq : ∀ n < 256, leadByte n.toUInt8 =
    if 0xc2 ≤ n ∧ n ≤ 0xdf then some (1, n - 0xc0)
    else if 0xe0 ≤ n ∧ n ≤ 0xef then some (2, n - 0xe0)
    else if 0xf0 ≤ n ∧ n ≤ 0xf4 then some (3, n - 0xf0)
    else none := by
  decide +kernel

theorem tail_iff : ∀ n < 256, n.toUInt8 &&& 0xc0 = 0x80 ↔ 0x80 ≤ n ∧ n < 0xc0 := by
  decide +kernel

theorem tail_bits : ∀ n < 256, (n.toUInt8 &&& 0x3f).toNat = n % 64 := by
  decide +kernel

theorem ascii_iff : ∀ n < 256, n.toUInt8 ≤ 0x7f ↔ n ≤ 0x7f := by
  decide +kernel

theorem continuation_tail {x : ℕ} (hx : x < 64) (count codePoint : ℕ) (r : Bytes) :
    continuation (count + 1) codePoint ((0x80 + x).toUInt8 :: r) =
      continuation count (codePoint * 64 + x) r := by
  have hbits : ((0x80 + x).toUInt8 &&& 0x3f).toNat = x := by
    rw [tail_bits _ (by omega)]
    omega
  rw [continuation, if_pos ((tail_iff _ (by omega)).mpr (by omega)), hbits]

/-- A continuation byte was read. -/
theorem tail_of_continuation {count codePoint n : ℕ} {r rest : Bytes}
    (h : continuation (count + 1) codePoint r = some (n, rest)) :
    ∃ x r', x < 64 ∧ r = (0x80 + x).toUInt8 :: r' ∧
      continuation count (codePoint * 64 + x) r' = some (n, rest) := by
  cases r with
  | nil => cases h
  | cons next r =>
    have hnext : next.toNat < 256 := next.toNat_lt
    rw [continuation] at h
    split_ifs at h with htail
    rw [← toUInt8_toNat next, tail_iff _ hnext] at htail
    have hbits : (next &&& 0x3f).toNat = next.toNat % 64 := by
      have hnat := tail_bits _ hnext
      rwa [toUInt8_toNat] at hnat
    have hbyte : 0x80 + next.toNat % 64 = next.toNat := by omega
    refine ⟨next.toNat % 64, r, Nat.mod_lt _ (by decide), ?_, ?_⟩
    · rw [hbyte, toUInt8_toNat]
    · rw [← hbits]
      exact h

/-! ## One character -/

theorem validUtf8Fuel_low {n : ℕ} (hn : n ≤ 0x7f) (fuel : ℕ) (r : Bytes) :
    validUtf8Fuel (fuel + 1) (n.toUInt8 :: r) = validUtf8Fuel fuel r := by
  rw [validUtf8Fuel, if_pos ((ascii_iff n (by omega)).mpr hn)]

/-- A leading byte and its continuation. -/
theorem validUtf8Fuel_lead {n count bits codePoint : ℕ} (hn : 0x7f < n ∧ n < 256)
    (hlead : leadByte n.toUInt8 = some (count, bits)) {r rest : Bytes}
    (hcontinuation : continuation count bits r = some (codePoint, rest)) (fuel : ℕ) :
    validUtf8Fuel (fuel + 1) (n.toUInt8 :: r) =
      (scalarOk count codePoint && validUtf8Fuel fuel rest) := by
  have hascii : ¬ n.toUInt8 ≤ 0x7f := by
    rw [ascii_iff n hn.2]
    omega
  rw [validUtf8Fuel, if_neg hascii]
  simp only [hlead, hcontinuation]

/-- The encoding of a character is passed in one turn. -/
theorem validUtf8Fuel_char (c : Char) (fuel : ℕ) (r : Bytes) :
    validUtf8Fuel (fuel + 1) (String.utf8EncodeChar c ++ r) = validUtf8Fuel fuel r := by
  have hcases := char_toNat_cases c
  rw [← appendUtf8_eq]
  generalize c.toNat = n at hcases
  unfold appendUtf8
  split_ifs with h1 h2 h3
  · exact validUtf8Fuel_low h1 fuel r
  · have hlead : leadByte (0xc0 + n / 64).toUInt8 = some (1, n / 64) := by
      rw [leadByte_eq _ (by omega), if_pos (by omega), Nat.add_sub_cancel_left]
    have hrest : continuation 1 (n / 64) ((0x80 + n % 64).toUInt8 :: r) =
        some (n / 64 * 64 + n % 64, r) := continuation_tail (Nat.mod_lt _ (by decide)) 0 _ r
    have hok : scalarOk 1 (n / 64 * 64 + n % 64) = true := by
      simp [scalarOk]
      omega
    rw [List.cons_append, List.singleton_append,
      validUtf8Fuel_lead (by omega) hlead hrest, hok, Bool.true_and]
  · have hlead : leadByte (0xe0 + n / 4096).toUInt8 = some (2, n / 4096) := by
      rw [leadByte_eq _ (by omega), if_neg (by omega), if_pos (by omega), Nat.add_sub_cancel_left]
    have hrest : continuation 2 (n / 4096)
        ((0x80 + n / 64 % 64).toUInt8 :: (0x80 + n % 64).toUInt8 :: r) =
        some ((n / 4096 * 64 + n / 64 % 64) * 64 + n % 64, r) := by
      rw [continuation_tail (Nat.mod_lt _ (by decide)),
        continuation_tail (Nat.mod_lt _ (by decide))]
      rfl
    have hok : scalarOk 2 ((n / 4096 * 64 + n / 64 % 64) * 64 + n % 64) = true := by
      simp [scalarOk]
      omega
    rw [List.cons_append, List.cons_append, List.singleton_append,
      validUtf8Fuel_lead (by omega) hlead hrest, hok, Bool.true_and]
  · have hlead : leadByte (0xf0 + n / 262144).toUInt8 = some (3, n / 262144) := by
      rw [leadByte_eq _ (by omega), if_neg (by omega), if_neg (by omega), if_pos (by omega),
        Nat.add_sub_cancel_left]
    have hrest : continuation 3 (n / 262144) ((0x80 + n / 4096 % 64).toUInt8 ::
        (0x80 + n / 64 % 64).toUInt8 :: (0x80 + n % 64).toUInt8 :: r) =
        some (((n / 262144 * 64 + n / 4096 % 64) * 64 + n / 64 % 64) * 64 + n % 64, r) := by
      rw [continuation_tail (Nat.mod_lt _ (by decide)),
        continuation_tail (Nat.mod_lt _ (by decide)),
        continuation_tail (Nat.mod_lt _ (by decide))]
      rfl
    have hok : scalarOk 3
        (((n / 262144 * 64 + n / 4096 % 64) * 64 + n / 64 % 64) * 64 + n % 64) = true := by
      simp [scalarOk]
      omega
    rw [List.cons_append, List.cons_append, List.cons_append, List.singleton_append,
      validUtf8Fuel_lead (by omega) hlead hrest, hok, Bool.true_and]

/-- One turn passes the encoding of a character. -/
theorem char_of_validUtf8Fuel {fuel : ℕ} {first : UInt8} {r : Bytes}
    (h : validUtf8Fuel (fuel + 1) (first :: r) = true) :
    ∃ c rest, first :: r = String.utf8EncodeChar c ++ rest ∧ validUtf8Fuel fuel rest = true := by
  have hfirst : first.toNat < 256 := first.toNat_lt
  have hbyte : first.toNat.toUInt8 = first := toUInt8_toNat first
  rw [validUtf8Fuel] at h
  split_ifs at h with hascii
  · rw [← hbyte, ascii_iff _ hfirst] at hascii
    obtain ⟨c, hc⟩ := exists_char (n := first.toNat) (by omega) (by omega)
    refine ⟨c, r, ?_, h⟩
    rw [← appendUtf8_eq, hc, appendUtf8, if_pos hascii, hbyte]
    rfl
  · cases hlead : leadByte first with
    | none =>
      simp only [hlead] at h
      cases h
    | some lead =>
      obtain ⟨count, bits⟩ := lead
      simp only [hlead] at h
      cases hcontinuation : continuation count bits r with
      | none =>
        simp only [hcontinuation] at h
        cases h
      | some result =>
        obtain ⟨n, rest⟩ := result
        simp only [hcontinuation, Bool.and_eq_true] at h
        obtain ⟨hok, hrest⟩ := h
        rw [← hbyte, leadByte_eq _ hfirst] at hlead
        simp only [scalarOk, Bool.not_eq_true', Bool.or_eq_false_iff, Bool.and_eq_false_iff,
          decide_eq_false_iff_not, beq_eq_false_iff_ne] at hok
        split_ifs at hlead with h1 h2 h3
        · cases hlead
          obtain ⟨x, r₁, hx, rfl, hend⟩ := tail_of_continuation hcontinuation
          cases hend
          obtain ⟨c, hc⟩ := exists_char (n := (first.toNat - 0xc0) * 64 + x) (by omega) (by omega)
          refine ⟨c, _, ?_, hrest⟩
          have h64 : 0xc0 + ((first.toNat - 0xc0) * 64 + x) / 64 = first.toNat := by omega
          have hmod : ((first.toNat - 0xc0) * 64 + x) % 64 = x := by omega
          rw [← appendUtf8_eq, hc, appendUtf8, if_neg (by omega), if_pos (by omega), h64, hmod,
            hbyte]
          rfl
        · cases hlead
          obtain ⟨x, r₁, hx, rfl, hmid⟩ := tail_of_continuation hcontinuation
          obtain ⟨y, r₂, hy, rfl, hend⟩ := tail_of_continuation hmid
          cases hend
          have hlow : 0x800 ≤ ((first.toNat - 0xe0) * 64 + x) * 64 + y := by
            obtain ⟨⟨⟨htwo, -⟩, -⟩, -⟩ := hok
            omega
          have hsurrogate : ((first.toNat - 0xe0) * 64 + x) * 64 + y < 0xd800 ∨
              0xdfff < ((first.toNat - 0xe0) * 64 + x) * 64 + y := by
            rcases hok with ⟨-, hlow | hhigh⟩ <;> omega
          obtain ⟨c, hc⟩ := exists_char (n := ((first.toNat - 0xe0) * 64 + x) * 64 + y) (by omega)
            hsurrogate
          refine ⟨c, _, ?_, hrest⟩
          have h4096 : 0xe0 + (((first.toNat - 0xe0) * 64 + x) * 64 + y) / 4096 = first.toNat := by
            omega
          have h64 : (((first.toNat - 0xe0) * 64 + x) * 64 + y) / 64 % 64 = x := by omega
          have hmod : (((first.toNat - 0xe0) * 64 + x) * 64 + y) % 64 = y := by omega
          rw [← appendUtf8_eq, hc, appendUtf8, if_neg (by omega), if_neg (by omega),
            if_pos (by omega), h4096, h64, hmod, hbyte]
          rfl
        · cases hlead
          obtain ⟨x, r₁, hx, rfl, hmid⟩ := tail_of_continuation hcontinuation
          obtain ⟨y, r₂, hy, rfl, hmid'⟩ := tail_of_continuation hmid
          obtain ⟨z, r₃, hz, rfl, hend⟩ := tail_of_continuation hmid'
          cases hend
          obtain ⟨m, hm⟩ : ∃ m, (((first.toNat - 0xf0) * 64 + x) * 64 + y) * 64 + z = m := ⟨_, rfl⟩
          rw [hm] at hok
          obtain ⟨⟨⟨-, hthree⟩, hmax⟩, -⟩ := hok
          have hlow : 0x10000 ≤ m := by omega
          obtain ⟨c, hc⟩ := exists_char (n := m) (by omega) (.inr (by omega))
          refine ⟨c, _, ?_, hrest⟩
          have h262144 : 0xf0 + m / 262144 = first.toNat := by omega
          have h4096 : m / 4096 % 64 = x := by omega
          have h64 : m / 64 % 64 = y := by omega
          have hmod : m % 64 = z := by omega
          rw [← appendUtf8_eq, hc, appendUtf8, if_neg (by omega), if_neg (by omega),
            if_neg (by omega), h262144, h4096, h64, hmod, hbyte]
          rfl

/-! ## The whole packet -/

theorem utf8EncodeChar_length_pos (c : Char) : 0 < (String.utf8EncodeChar c).length := by
  rw [String.length_utf8EncodeChar]
  exact Char.utf8Size_pos c

/-- A turn for each byte is more than the loop takes. -/
theorem validUtf8Fuel_encode (cs : List Char) : ∀ fuel,
    (cs.flatMap String.utf8EncodeChar).length ≤ fuel →
      validUtf8Fuel fuel (cs.flatMap String.utf8EncodeChar) = true := by
  induction cs with
  | nil =>
    intro fuel _
    cases fuel <;> rfl
  | cons c cs ih =>
    intro fuel hfuel
    rw [List.flatMap_cons, List.length_append] at hfuel
    have hpos := utf8EncodeChar_length_pos c
    obtain ⟨fuel, rfl⟩ := Nat.exists_eq_succ_of_ne_zero (show fuel ≠ 0 by omega)
    rw [List.flatMap_cons, validUtf8Fuel_char]
    exact ih fuel (by omega)

theorem encode_of_validUtf8Fuel (fuel : ℕ) : ∀ {r : Bytes}, validUtf8Fuel fuel r = true →
    ∃ cs : List Char, r = cs.flatMap String.utf8EncodeChar := by
  induction fuel with
  | zero =>
    intro r h
    cases r with
    | nil => exact ⟨[], rfl⟩
    | cons first r => cases h
  | succ fuel ih =>
    intro r h
    cases r with
    | nil => exact ⟨[], rfl⟩
    | cons first r =>
      obtain ⟨c, rest, hfirst, hrest⟩ := char_of_validUtf8Fuel h
      obtain ⟨cs, rfl⟩ := ih hrest
      exact ⟨c :: cs, hfirst⟩

theorem validUtf8Fuel_iff {fuel : ℕ} {r : Bytes} (hfuel : r.length ≤ fuel) :
    validUtf8Fuel fuel r = true ↔ ∃ cs : List Char, r = cs.flatMap String.utf8EncodeChar := by
  constructor
  · exact encode_of_validUtf8Fuel fuel
  · rintro ⟨cs, rfl⟩
    exact validUtf8Fuel_encode cs fuel hfuel

theorem validUtf8_iff {r : Bytes} :
    validUtf8 r = true ↔ ∃ cs : List Char, r = cs.flatMap String.utf8EncodeChar :=
  validUtf8Fuel_iff le_rfl

/-- The loop ends by itself: more turns change nothing. -/
theorem validUtf8Fuel_eq {fuel : ℕ} {r : Bytes} (hfuel : r.length ≤ fuel) :
    validUtf8Fuel fuel r = validUtf8 r := by
  rw [Bool.eq_iff_iff, validUtf8Fuel_iff hfuel, validUtf8_iff]

end MsysCore.Native
