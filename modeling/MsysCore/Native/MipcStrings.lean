import MsysCore.Native.MipcPackets

/-!
# The string codec of mIPC

`valid_utf8` and `append_utf8` describe one encoding, `parse_string` reads back what either
`json_quote` writes, and from a packet that passed `valid_utf8` it returns valid strings only.
-/

namespace MsysCore.Native

open JsonGrammar

/-- `json_quote` of `mipc_broker.cpp`. -/
def brokerJsonQuote (value : Bytes) : Bytes := jsonQuote value

/-- `json_quote` of `native_router.cpp`. -/
def routerJsonQuote (value : Bytes) : Bytes := jsonQuote value

/-- A Unicode scalar value. -/
def IsScalar (point : ℕ) : Prop := point < 0xd800 ∨ (0xdfff < point ∧ point < 0x110000)

/-! ## Encoded scalar values -/

theorem isScalar_toNat (c : Char) : IsScalar c.toNat := char_toNat_cases c

theorem exists_chars {points : List ℕ} (h : ∀ point ∈ points, IsScalar point) :
    ∃ cs : List Char, points = cs.map Char.toNat := by
  induction points with
  | nil => exact ⟨[], rfl⟩
  | cons point points ih =>
    obtain ⟨hpoint, hrest⟩ := List.forall_mem_cons.mp h
    obtain ⟨cs, rfl⟩ := ih hrest
    have hmax : point < 0x110000 := by
      unfold IsScalar at hpoint
      omega
    have hsurrogate : point < 0xd800 ∨ 0xdfff < point := hpoint.imp_right And.left
    obtain ⟨c, rfl⟩ := exists_char hmax hsurrogate
    exact ⟨c :: cs, rfl⟩

theorem flatMap_appendUtf8 (cs : List Char) :
    (cs.map Char.toNat).flatMap appendUtf8 = cs.flatMap String.utf8EncodeChar := by
  rw [List.flatMap_map]
  exact List.flatMap_congr fun c _ => appendUtf8_eq c

theorem validUtf8_iff_scalars {s : Bytes} : validUtf8 s = true ↔
    ∃ points : List ℕ, (∀ point ∈ points, IsScalar point) ∧ s = points.flatMap appendUtf8 := by
  rw [validUtf8_iff]
  constructor
  · rintro ⟨cs, rfl⟩
    refine ⟨cs.map Char.toNat, ?_, (flatMap_appendUtf8 cs).symm⟩
    exact List.forall_mem_map.mpr fun c _ => isScalar_toNat c
  · rintro ⟨points, hpoints, rfl⟩
    obtain ⟨cs, rfl⟩ := exists_chars hpoints
    exact ⟨cs, flatMap_appendUtf8 cs⟩

/-! ## Reading back a quoted string -/

theorem hexadecimal_value {n : ℕ} (h : n < 16) : HexDigit (hexadecimal n) n := by
  interval_cases n <;> unfold HexDigit IsDigit <;> decide

theorem zero_value : HexDigit 0x30 0 := by
  unfold HexDigit IsDigit
  decide

/-- A control byte is written as the escape of its number. -/
theorem writes_control {b : UInt8} (hb : b < 0x20) {w s : Bytes} (hw : Writes w s) :
    Writes (ascii "\\u00" ++ [hexadecimal (b.toNat / 16), hexadecimal (b.toNat % 16)] ++ w)
      (b :: s) := by
  have hlt : b.toNat < 0x20 := UInt8.lt_iff_toNat_lt.mp hb
  obtain ⟨c, hc⟩ := exists_char (n := b.toNat) (by omega) (by omega)
  have hunit : CodeUnit [0x30, 0x30, hexadecimal (b.toNat / 16), hexadecimal (b.toNat % 16)]
      c.toNat := by
    have hvalue : c.toNat = ((0 * 16 + 0) * 16 + b.toNat / 16) * 16 + b.toNat % 16 := by omega
    rw [hvalue]
    exact .mk zero_value zero_value (hexadecimal_value (by omega)) (hexadecimal_value (by omega))
  have hencode : String.utf8EncodeChar c = [b] := by
    rw [← appendUtf8_eq, hc, appendUtf8, if_pos (by omega)]
    exact congrArg (· :: []) (toUInt8_toNat b)
  have hwritten := Writes.unicode c hunit hw
  rw [hencode] at hwritten
  exact hwritten

theorem quoteByte_writes (b : UInt8) {w s : Bytes} (hw : Writes w s) :
    Writes (quoteByte b ++ w) (b :: s) := by
  unfold quoteByte
  split_ifs with hquote hslash hback hform hline hreturn htab hcontrol
  · exact hquote ▸ .escape (by decide) hw
  · exact hslash ▸ .escape (by decide) hw
  · exact hback ▸ .escape (by decide) hw
  · exact hform ▸ .escape (by decide) hw
  · exact hline ▸ .escape (by decide) hw
  · exact hreturn ▸ .escape (by decide) hw
  · exact htab ▸ .escape (by decide) hw
  · exact writes_control hcontrol hw
  · exact .plain (UInt8.not_lt.mp hcontrol) hquote hslash hw

theorem flatMap_quoteByte_writes (value : Bytes) : Writes (value.flatMap quoteByte) value := by
  induction value with
  | nil => exact .nil
  | cons b value ih => exact quoteByte_writes b ih

theorem parseString_jsonQuote (value r : Bytes) :
    parseString (jsonQuote value ++ r) = .ok (value, r) :=
  parseString_eq_ok.mpr ⟨jsonQuote value, ⟨_, flatMap_quoteByte_writes value, rfl⟩, rfl⟩

/-! ## Strings of a valid packet -/

theorem validUtf8_append {a b : Bytes} (ha : validUtf8 a = true) (hb : validUtf8 b = true) :
    validUtf8 (a ++ b) = true := by
  obtain ⟨cs, rfl⟩ := validUtf8_iff.mp ha
  obtain ⟨ds, rfl⟩ := validUtf8_iff.mp hb
  exact validUtf8_iff.mpr ⟨cs ++ ds, (List.flatMap_append ..).symm⟩

theorem validUtf8_char (c : Char) : validUtf8 (String.utf8EncodeChar c) = true :=
  validUtf8_iff.mpr ⟨[c], by simp⟩

theorem validUtf8_low {b : UInt8} (hb : b < 0x80) : validUtf8 [b] = true := by
  have hle : b ≤ 0x7f := by
    rw [UInt8.le_iff_toNat_le]
    exact Nat.lt_succ_iff.mp (UInt8.lt_iff_toNat_lt.mp hb)
  simp [validUtf8, validUtf8Fuel, hle]

theorem not_low {n : ℕ} (h : 0x80 ≤ n ∧ n < 0x100) : ¬ n.toUInt8 < 0x80 := by
  have hvalue : n.toUInt8.toNat = n := Nat.mod_eq_of_lt h.2
  rw [UInt8.lt_iff_toNat_lt, hvalue]
  exact Nat.not_lt.mpr h.1

/-- Only a character of one byte has a byte below `0x80`. -/
theorem encodeChar_of_low {c : Char} {b : UInt8} (hb : b < 0x80)
    (h : b ∈ String.utf8EncodeChar c) : String.utf8EncodeChar c = [b] := by
  have hmax := char_toNat_cases c
  rw [← appendUtf8_eq] at h ⊢
  unfold appendUtf8 at h ⊢
  split_ifs at h ⊢ with h1 h2 h3
  · rw [List.mem_singleton.mp h]
  · simp only [List.mem_cons, List.not_mem_nil, or_false] at h
    rcases h with rfl | rfl <;> exact absurd hb (not_low (by omega))
  · simp only [List.mem_cons, List.not_mem_nil, or_false] at h
    rcases h with rfl | rfl | rfl <;> exact absurd hb (not_low (by omega))
  · simp only [List.mem_cons, List.not_mem_nil, or_false] at h
    rcases h with rfl | rfl | rfl | rfl <;> exact absurd hb (not_low (by omega))

/-- A byte below `0x80` is a character of its own: a valid string may be cut at it. -/
theorem validUtf8_cut {a r : Bytes} {b : UInt8} (hb : b < 0x80)
    (h : validUtf8 (a ++ b :: r) = true) : validUtf8 a = true ∧ validUtf8 r = true := by
  obtain ⟨cs, hcs⟩ := validUtf8_iff.mp h
  clear h
  induction cs generalizing a with
  | nil => simp at hcs
  | cons c cs ih =>
    rw [List.flatMap_cons] at hcs
    rcases List.append_eq_append_iff.mp hcs with ⟨u, hu, hrest⟩ | ⟨u, rfl, hrest⟩
    · cases u with
      | nil =>
        rw [List.append_nil] at hu
        obtain ⟨-, hr⟩ := ih (a := []) hrest
        exact ⟨hu ▸ validUtf8_char c, hr⟩
      | cons d u =>
        -- the byte lies in the character, which has no other byte then
        obtain ⟨rfl, rfl⟩ := List.cons.inj hrest
        have hone := encodeChar_of_low hb (hu ▸ List.mem_append_right a List.mem_cons_self)
        rw [hu] at hone
        rcases List.append_eq_singleton_iff.mp hone with ⟨rfl, hlast⟩ | ⟨-, hnone⟩
        · rw [(List.cons.inj hlast).2]
          exact ⟨validUtf8_iff.mpr ⟨[], rfl⟩, validUtf8_iff.mpr ⟨cs, rfl⟩⟩
        · cases hnone
    · obtain ⟨hleft, hright⟩ := ih hrest.symm
      exact ⟨validUtf8_append (validUtf8_char c) hleft, hright⟩

theorem low_of_mem_escapeTable : ∀ x ∈ escapeTable, x.1 < 0x80 ∧ x.2 < 0x80 := by
  intro x hx
  simp only [escapeTable, List.mem_cons, List.not_mem_nil, or_false] at hx
  rcases hx with rfl | rfl | rfl | rfl | rfl | rfl | rfl | rfl <;> decide

theorem hexDigit_low {b : UInt8} {n : ℕ} (h : HexDigit b n) : b < 0x80 := by
  rcases h with ⟨hb, -⟩ | ⟨hb, -⟩ | ⟨hb, -⟩ <;>
    exact UInt8.lt_of_le_of_lt hb.2 (by decide)

theorem validUtf8_of_unit {u w : Bytes} {n : ℕ} (hu : CodeUnit u n)
    (h : validUtf8 (u ++ w) = true) : validUtf8 w = true := by
  cases hu with
  | mk ha hb hc hd =>
    have h1 := (validUtf8_cut (a := []) (hexDigit_low ha) h).2
    have h2 := (validUtf8_cut (a := []) (hexDigit_low hb) h1).2
    have h3 := (validUtf8_cut (a := []) (hexDigit_low hc) h2).2
    exact (validUtf8_cut (a := []) (hexDigit_low hd) h3).2

/-- A valid string may be cut before and after the `\u` of an escape. -/
theorem validUtf8_cut_escape {p w : Bytes} (h : validUtf8 (p ++ 0x5c :: 0x75 :: w) = true) :
    validUtf8 p = true ∧ validUtf8 w = true := by
  obtain ⟨hp, hrest⟩ := validUtf8_cut (by decide) h
  exact ⟨hp, (validUtf8_cut (a := []) (by decide) hrest).2⟩

/-- What follows a part of a character in a valid string spells valid bytes as well. -/
theorem validUtf8_of_writes {w s : Bytes} (h : Writes w s) :
    ∀ p : Bytes, validUtf8 (p ++ w) = true → validUtf8 (p ++ s) = true := by
  induction h with
  | nil => exact fun p hp => hp
  | @plain b w s hcontrol hquote hslash hw ih =>
    intro p hp
    have hkept := ih (p ++ [b]) (by simpa using hp)
    simpa using hkept
  | @escape e c w s hescape hw ih =>
    intro p hp
    obtain ⟨he, hc⟩ := low_of_mem_escapeTable _ hescape
    obtain ⟨hbefore, hrest⟩ := validUtf8_cut (by decide) hp
    have hs := ih [] (validUtf8_cut (a := []) he hrest).2
    exact validUtf8_append hbefore (validUtf8_append (validUtf8_low hc) hs)
  | @unicode u w s c hunit hw ih =>
    intro p hp
    obtain ⟨hbefore, hrest⟩ := validUtf8_cut_escape hp
    have hs := ih [] (validUtf8_of_unit hunit hrest)
    exact validUtf8_append hbefore (validUtf8_append (validUtf8_char c) hs)
  | @pair u v high low w s c hu hv hhigh hlow hc hw ih =>
    intro p hp
    obtain ⟨hbefore, hfirst⟩ := validUtf8_cut_escape hp
    have hsecond := validUtf8_of_unit hu hfirst
    obtain ⟨-, hrest⟩ := validUtf8_cut_escape (p := []) hsecond
    have hs := ih [] (validUtf8_of_unit hv hrest)
    exact validUtf8_append hbefore (validUtf8_append (validUtf8_char c) hs)

theorem parseString_valid {packet before r s r' : Bytes} (hpacket : validUtf8 packet = true)
    (hposition : packet = before ++ r) (h : parseString r = .ok (s, r')) :
    validUtf8 s = true := by
  obtain ⟨t, ⟨w, hw, rfl⟩, rfl⟩ := parseString_eq_ok.mp h
  rw [hposition, List.cons_append, List.append_assoc] at hpacket
  obtain ⟨-, hquoted⟩ := validUtf8_cut (by decide) hpacket
  obtain ⟨hcontents, -⟩ := validUtf8_cut (by decide) hquoted
  exact validUtf8_of_writes hw [] hcontents

/-- The valid byte strings are the encodings of scalar values; a string that either `json_quote`
writes is read back and nothing beyond it; a valid packet has valid strings. -/
theorem stringCodec_roundtrip :
    (∀ s : Bytes, validUtf8 s = true ↔
      ∃ points : List ℕ, (∀ point ∈ points, IsScalar point) ∧ s = points.flatMap appendUtf8) ∧
    (∀ s r : Bytes, validUtf8 s = true → parseString (brokerJsonQuote s ++ r) = .ok (s, r) ∧
      parseString (routerJsonQuote s ++ r) = .ok (s, r)) ∧
    ∀ packet before r s r' : Bytes, validUtf8 packet = true → packet = before ++ r →
      parseString r = .ok (s, r') → validUtf8 s = true := by
  refine ⟨fun s => validUtf8_iff_scalars, ?_, ?_⟩
  · intro s r _
    exact ⟨parseString_jsonQuote s r, parseString_jsonQuote s r⟩
  · intro packet before r s r' hpacket hposition h
    exact parseString_valid hpacket hposition h

end MsysCore.Native
