import MsysCore.Python.CodecReading
import MsysCore.Python.Utf8

/-!
# What comes out of the other end of a connection

`decode` on the packet of `encode`. Any message that `encode` accepts arrives as its JSON
image. A message that came in through `decode` is its own image, so the daemon can hand
it on as often as it likes and every reader sees the same message.
-/

namespace MsysCore.Python

variable {py : Interpreter}

/-! ## UTF-8 -/

theorem utf8DecodeFuel_flatMap (s : PyStr) (hs : ∀ c ∈ s, Scalar c) : ∀ fuel,
    s.length ≤ fuel → utf8DecodeFuel fuel (s.flatMap utf8Char) = some s := by
  induction s with
  | nil =>
    intro fuel _
    cases fuel <;> rfl
  | cons c s ih =>
    intro fuel hfuel
    rw [List.forall_mem_cons] at hs
    obtain ⟨b, tail, hchar, hstep⟩ := utf8Step_utf8Char hs.1
    cases fuel with
    | zero => cases hfuel
    | succ fuel =>
      have hrest := ih hs.2 fuel (Nat.le_of_succ_le_succ hfuel)
      rw [List.flatMap_cons, hchar, List.cons_append, utf8DecodeFuel, hstep]
      show (utf8DecodeFuel fuel (s.flatMap utf8Char) >>= _) = _
      rw [hrest]
      rfl

theorem length_le_flatMap_utf8Char (s : PyStr) : s.length ≤ (s.flatMap utf8Char).length := by
  induction s with
  | nil => exact Nat.zero_le _
  | cons c s ih =>
    have hpos := List.length_pos_iff.mpr (utf8Char_ne_nil c)
    rw [List.flatMap_cons, List.length_append, List.length_cons]
    omega

/-- What the encoder writes, the decoder reads. -/
theorem utf8Decode_flatMap {s : PyStr} (hs : ∀ c ∈ s, Scalar c) :
    utf8Decode (s.flatMap utf8Char) = some s :=
  utf8DecodeFuel_flatMap s hs _ (length_le_flatMap_utf8Char s)

/-! ## The text of a message -/

theorem CodePoints.append {s t : PyStr} (hs : CodePoints s) (ht : CodePoints t) :
    CodePoints (s ++ t) := by
  intro c hc
  rcases List.mem_append.mp hc with hc | hc
  · exact hs c hc
  · exact ht c hc

theorem codePoints_of_ascii {s : PyStr} (hs : ∀ c ∈ s, c < 0x80) : CodePoints s :=
  fun c hc => (hs c hc).trans (by decide)

theorem codePoints_hex (width n : ℕ) : CodePoints (hex width n) := by
  induction width generalizing n with
  | zero => simp [hex, CodePoints]
  | succ width ih =>
    refine (ih (n / 16)).append fun c hc => ?_
    obtain rfl := List.mem_singleton.mp hc
    unfold hexDigit
    split_ifs <;> omega

theorem codePoints_escapeChar {c : ℕ} (h : c < 0x110000) : CodePoints (escapeChar c) := by
  unfold escapeChar
  split_ifs
  iterate 7 exact codePoints_of_ascii (by decide)
  · exact (codePoints_of_ascii (by decide)).append (codePoints_hex 4 c)
  · simpa [CodePoints] using h

theorem codePoints_dumpsStr {s : PyStr} (h : CodePoints s) : CodePoints (dumpsStr s) := by
  intro c hc
  simp only [dumpsStr, List.cons_append, List.mem_cons, List.mem_append, List.mem_flatMap,
    List.not_mem_nil, or_false] at hc
  rcases hc with rfl | ⟨d, hd, hc⟩ | rfl
  · decide
  · exact codePoints_escapeChar (h d hd) c hc
  · decide

theorem codePoints_intText (i : ℤ) : CodePoints (intText i) := by
  refine CodePoints.append ?_ fun c hc => ?_
  · split_ifs
    · exact codePoints_of_ascii (by decide)
    · simp [CodePoints]
  · have hdigit := isDigit_of_mem_toDigits hc
    simp only [isDigit, Bool.and_eq_true, decide_eq_true_eq] at hdigit
    omega

theorem codePoints_dumpsFloat {f : PyFloat} (h : ReadsBack py f) : CodePoints (dumpsFloat f) := by
  unfold dumpsFloat
  split
  · exact codePoints_of_ascii (by decide)
  · split_ifs <;> exact codePoints_of_ascii (by decide)
  · exact codePoints_of_ascii h.ascii

theorem codePoints_keyText {k : Json} (h : k.Readable py) : CodePoints (keyText k) := by
  cases k with
  | str s => exact h
  | null => exact codePoints_of_ascii (by decide)
  | bool b => cases b <;> exact codePoints_of_ascii (by decide)
  | int i => exact codePoints_intText i
  | float f => exact codePoints_dumpsFloat h
  | list items => simp [keyText, CodePoints]
  | dict entries => simp [keyText, CodePoints]

mutual

theorem codePoints_dumps : ∀ v : Json, v.Readable py → CodePoints (dumps v)
  | .null, _ => codePoints_of_ascii (by decide)
  | .bool b, _ => by cases b <;> exact codePoints_of_ascii (by decide)
  | .int i, _ => codePoints_intText i
  | .float _, h => codePoints_dumpsFloat h
  | .str _, h => codePoints_dumpsStr h
  | .list [], _ => codePoints_of_ascii (by decide)
  | .list (item :: items), h => by
    have hopen : CodePoints (lit "[") := codePoints_of_ascii (by decide)
    have hclose : CodePoints (lit "]") := codePoints_of_ascii (by decide)
    rw [dumps]
    exact ((hopen.append (codePoints_dumps item h.1)).append
      (codePoints_dumpsItems items h.2)).append hclose
  | .dict [], _ => codePoints_of_ascii (by decide)
  | .dict ((k, v) :: entries), h => by
    have hopen : CodePoints (lit "\x7b") := codePoints_of_ascii (by decide)
    have hcolon : CodePoints (lit ":") := codePoints_of_ascii (by decide)
    have hclose : CodePoints (lit "\x7d") := codePoints_of_ascii (by decide)
    have hkey := codePoints_dumpsStr (codePoints_keyText h.2.1)
    rw [dumps]
    exact ((((hopen.append hkey).append hcolon).append (codePoints_dumps v h.2.2.1)).append
      (codePoints_dumpsEntries entries h.2.2.2)).append hclose

theorem codePoints_dumpsItems : ∀ items : List Json, ReadableItems py items →
    CodePoints (dumpsItems items)
  | [], _ => by simp [dumpsItems, CodePoints]
  | item :: items, h => by
    have hcomma : CodePoints (lit ",") := codePoints_of_ascii (by decide)
    rw [dumpsItems]
    exact (hcomma.append (codePoints_dumps item h.1)).append (codePoints_dumpsItems items h.2)

theorem codePoints_dumpsEntries : ∀ entries : List (Json × Json), ReadableEntries py entries →
    CodePoints (dumpsEntries entries)
  | [], _ => by simp [dumpsEntries, CodePoints]
  | (k, v) :: entries, h => by
    have hcomma : CodePoints (lit ",") := codePoints_of_ascii (by decide)
    have hcolon : CodePoints (lit ":") := codePoints_of_ascii (by decide)
    have hkey := codePoints_dumpsStr (codePoints_keyText h.2.1)
    rw [dumpsEntries]
    exact (((hcomma.append hkey).append hcolon).append (codePoints_dumps v h.2.2.1)).append
      (codePoints_dumpsEntries entries h.2.2.2)

end

/-- The text of a value without lone surrogates can be encoded. -/
theorem scalar_dumps {v : Json} (h : v.Readable py) (hclean : v.clean = true) :
    ∀ c ∈ dumps v, Scalar c := by
  have hany : (dumps v).any isSurrogate = false := by
    rw [dumps_clean, hclean]
    rfl
  intro c hc
  exact ⟨codePoints_dumps v h c hc, Bool.eq_false_iff.mpr (List.any_eq_false.mp hany c hc)⟩

/-- The text of a message, at the end of a line or not, is read as the image of the message. -/
theorem loads_dumps {message : Dict} (h : (Json.dict message).Readable py) {tail : PyStr}
    (hclosed : Closed tail) (htail : skipSpace tail = []) :
    loads py (dumps (.dict message) ++ tail) = .ok (.dict (wireEntries [] message)) := by
  have hlength : (dumps (.dict message)).length < (dumps (.dict message) ++ tail).length + 1 := by
    rw [List.length_append]
    omega
  have hread := scanOnce_dumps (.dict message) h _ tail hlength hclosed
  have hopens : Opens (dumps (.dict message) ++ tail) := (opens_dumps h).append tail
  have hloads : loads py (dumps (.dict message) ++ tail) =
      scanOnce py ((dumps (.dict message) ++ tail).length + 1)
          (skipSpace (dumps (.dict message) ++ tail)) >>=
        fun read => if (skipSpace read.2).isEmpty then pure read.1 else .error .invalid := by
    cases message with
    | nil => rfl
    | cons entry message => rfl
  rw [hloads, hopens.skipSpace, hread]
  exact if_pos (by rw [htail]; rfl)

/-- A packet of `encode` is within the limit, and its text is read as the image. -/
theorem read_packet {message : Dict} {data : Bytes} (h : (Json.dict message).Readable py)
    (hdata : encode message = .ok data) : ¬ maxPacket < data.length ∧
      (orInvalid (utf8Decode data)).bind (loads py) = .ok (.dict (wireEntries [] message)) := by
  obtain ⟨hclean, hsize⟩ := encode_returns_iff.mp ⟨data, hdata⟩
  obtain rfl : (dumps (.dict message)).flatMap utf8Char = data := by
    rw [encode_of_encodable ⟨hclean, hsize⟩] at hdata
    exact Except.ok.inj hdata
  refine ⟨Nat.not_lt.mpr hsize, ?_⟩
  rw [utf8Decode_flatMap (scalar_dumps h hclean)]
  have hread := loads_dumps h closed_nil rfl
  rwa [List.append_nil] at hread

theorem decode_packet {message : Dict} {data : Bytes} (h : (Json.dict message).Readable py)
    (hdata : encode message = .ok data)
    (htype : ∃ t, Dict.get? (wireEntries [] message) "type" = some (.str t)) :
    decode py data = .ok (wireEntries [] message) := by
  obtain ⟨hlength, hread⟩ := read_packet h hdata
  obtain ⟨t, ht⟩ := htype
  unfold decode
  rw [if_neg hlength, hread]
  simp only [ht]

/-- Every message that `encode` takes arrives as its image, provided that the image keeps
a text under `type`; without one the reader refuses it. -/
theorem decode_encode {message : Dict} {data : Bytes} (h : (Json.dict message).Readable py)
    (hdata : encode message = .ok data) :
    ((∃ t, Dict.get? (wireEntries [] message) "type" = some (.str t)) →
      decode py data = .ok (wireEntries [] message)) ∧
    ((∀ t, Dict.get? (wireEntries [] message) "type" ≠ some (.str t)) →
      decode py data = raise .protocolError "mIPC packet requires string type") := by
  refine ⟨decode_packet h hdata, fun hnone => ?_⟩
  obtain ⟨hlength, hread⟩ := read_packet h hdata
  unfold decode
  rw [if_neg hlength, hread]
  dsimp only
  split
  · rename_i t ht
    exact absurd ht (hnone t)
  · rfl

/-- An interpreter for the number `1.5`. -/
def halvesInterpreter : Interpreter where
  float _ := ⟨lit "1.5", .finite (3 / 2)⟩
  printable _ := true
  space _ := false
  decimal _ := none

theorem readsBack_half : ReadsBack halvesInterpreter ⟨lit "1.5", .finite (3 / 2)⟩ where
  ascii := by decide
  nan h := by cases h
  inf _ h := by cases h
  finite _ _ := rfl

/-- Two keys with the text `1`. -/
def mixedKeys : Dict :=
  [(text "type", text "event"), (.int 1, .null), (text "1", .float ⟨lit "1.5", .finite (3 / 2)⟩)]

/-- The reader sees the later one, in the place of the first. -/
theorem decode_encode_mixedKeys :
    decode halvesInterpreter ((dumps (.dict mixedKeys)).flatMap utf8Char) =
      .ok (record [("type", text "event"), ("1", .float ⟨lit "1.5", .finite (3 / 2)⟩)]) := by
  have htype : CodePoints (lit "type") := codePoints_of_ascii (by decide)
  have hevent : CodePoints (lit "event") := codePoints_of_ascii (by decide)
  have hone : CodePoints (lit "1") := codePoints_of_ascii (by decide)
  have hdigit : (Nat.toDigits 10 1).length ≤ maxIntDigits := by decide
  have hreadable : (Json.dict mixedKeys).Readable halvesInterpreter :=
    ⟨rfl, htype, hevent, rfl, hdigit, trivial, rfl, hone, readsBack_half, trivial⟩
  have hdata := encode_of_encodable (show Encodable mixedKeys by decide)
  exact (decode_encode hreadable hdata).1 ⟨lit "event", by decide⟩

/-! ## A value is its own image -/

/-- The keys of a dictionary that came out of a text: strings, each of them once. -/
structure StringKeys (d : Dict) : Prop where
  strings : ∀ k ∈ d.map Prod.fst, ∃ s, k = .str s
  nodup : (d.map Prod.fst).Nodup

mutual

/-- Every dictionary in the value has distinct strings as its keys. -/
def Json.Proper : Json → Prop
  | .null => True
  | .bool _ => True
  | .int _ => True
  | .float _ => True
  | .str _ => True
  | .list items => ProperItems items
  | .dict entries => StringKeys entries ∧ ProperEntries entries

def ProperItems : List Json → Prop
  | [] => True
  | item :: items => item.Proper ∧ ProperItems items

def ProperEntries : List (Json × Json) → Prop
  | [] => True
  | (_, v) :: entries => v.Proper ∧ ProperEntries entries

end

theorem keyEq_str_iff {k : Json} {name : PyStr} : keyEq k (.str name) = true ↔ k = .str name := by
  constructor
  · intro h
    have hkey := isKey_of_keyEq h
    cases k with
    | str s => rw [show s = name by simpa [isKey] using hkey]
    | _ => cases hkey
  · rintro rfl
    exact beq_self_eq_true name

theorem setItem_of_not_mem {name : PyStr} {d : Dict} (h : .str name ∉ d.map Prod.fst)
    (value : Json) : setItem (.str name) value d = d ++ [(.str name, value)] := by
  induction d with
  | nil => rfl
  | cons entry d ih =>
    obtain ⟨k, v⟩ := entry
    rw [List.map_cons, List.mem_cons, not_or] at h
    rw [setItem, if_neg (fun hkey => h.1 (keyEq_str_iff.mp hkey).symm), ih h.2]
    rfl

mutual

theorem wire_of_proper : ∀ v : Json, v.Proper → wire v = v
  | .null, _ => rfl
  | .bool _, _ => rfl
  | .int _, _ => rfl
  | .float _, _ => rfl
  | .str _, _ => rfl
  | .list items, h => by rw [wire, wireItems_of_proper items h]
  | .dict entries, h => by
    rw [wire, wireEntries_of_proper entries h.2 [] h.1, List.nil_append]

theorem wireItems_of_proper : ∀ items : List Json, ProperItems items → wireItems items = items
  | [], _ => rfl
  | item :: items, h => by rw [wireItems, wire_of_proper item h.1, wireItems_of_proper items h.2]

theorem wireEntries_of_proper : ∀ entries : List (Json × Json), ProperEntries entries →
    ∀ d, StringKeys (d ++ entries) → wireEntries d entries = d ++ entries
  | [], _, d, _ => by rw [wireEntries, List.append_nil]
  | (k, v) :: entries, h, d, hkeys => by
    obtain ⟨s, rfl⟩ := hkeys.strings k (by simp)
    have hfresh : .str s ∉ d.map Prod.fst := by
      have hnodup := hkeys.nodup
      rw [List.map_append, List.map_cons] at hnodup
      exact fun hmem => List.disjoint_of_nodup_append hnodup hmem List.mem_cons_self
    have hkeys' : StringKeys ((d ++ [(.str s, v)]) ++ entries) := by
      rw [List.append_assoc]
      exact hkeys
    rw [wireEntries, wire_of_proper v h.1, keyText, setItem_of_not_mem hfresh,
      wireEntries_of_proper entries h.2 _ hkeys', List.append_assoc]
    rfl

end

/-! ## What comes out of a text -/

theorem CodePoints.subset {s t : PyStr} (h : CodePoints s) (hsubset : t ⊆ s) : CodePoints t :=
  fun c hc => h c (hsubset hc)

theorem CodePoints.tail {c : ℕ} {s : PyStr} (h : CodePoints (c :: s)) : CodePoints s :=
  h.subset (List.subset_cons_self c s)

theorem CodePoints.skipSpace {s : PyStr} (h : CodePoints s) : CodePoints (skipSpace s) :=
  h.subset (List.dropWhile_sublist _).subset

theorem hexValue_lt {c n : ℕ} (h : hexValue c = some n) : n < 16 := by
  unfold hexValue at h
  split_ifs at h <;> (cases h; omega)

theorem hexQuad_eq_some {s rest : PyStr} {n : ℕ} (h : hexQuad s = some (n, rest)) :
    n < 0x10000 ∧ rest ⊆ s := by
  unfold hexQuad at h
  split at h
  · simp only [Option.bind_eq_bind, Option.bind_eq_some_iff] at h
    obtain ⟨a, ha, b, hb, c, hc, d, hd, heq⟩ := h
    have := hexValue_lt ha
    have := hexValue_lt hb
    have := hexValue_lt hc
    have := hexValue_lt hd
    cases heq
    exact ⟨by omega, fun x hx => by simp [hx]⟩
  · cases h

theorem unicodeEscape_eq_some {s rest : PyStr} {c : ℕ} (h : unicodeEscape s = some (c, rest)) :
    c < 0x110000 ∧ rest ⊆ s := by
  unfold unicodeEscape at h
  obtain ⟨⟨high, tail⟩, hhigh, h⟩ := Option.bind_eq_some_iff.mp h
  obtain ⟨hlt, hsubset⟩ := hexQuad_eq_some hhigh
  have halone : some (high, tail) = some (c, rest) → c < 0x110000 ∧ rest ⊆ s := by
    intro heq
    cases heq
    exact ⟨hlt.trans (by decide), hsubset⟩
  dsimp only at h
  split_ifs at h
  · split at h
    · rename_i after
      obtain ⟨⟨low, last⟩, hlow, h⟩ := Option.bind_eq_some_iff.mp h
      dsimp only at h
      split_ifs at h
      · obtain ⟨rfl, rfl⟩ := Prod.mk.inj (Option.some.inj h)
        refine ⟨by omega, fun x hx => hsubset ?_⟩
        exact List.mem_cons_of_mem _ (List.mem_cons_of_mem _ ((hexQuad_eq_some hlow).2 hx))
      · exact halone h
    · exact halone h
  · exact halone h

theorem simpleEscape_lt {c d : ℕ} (h : simpleEscape c = some d) : d < 0x110000 := by
  unfold simpleEscape at h
  split_ifs at h <;> (cases h; omega)

/-- A string read from code points holds code points. -/
theorem scanString_codePoints (fuel : ℕ) : ∀ {s text rest : PyStr}, CodePoints s →
    scanString fuel s = some (text, rest) → CodePoints text ∧ CodePoints rest := by
  induction fuel with
  | zero =>
    intro s text rest _ h
    cases h
  | succ fuel ih =>
    intro s text rest hs h
    have hprepend : ∀ {c tail}, c < 0x110000 → CodePoints tail →
        (scanString fuel tail >>= fun read => pure (c :: read.1, read.2)) = some (text, rest) →
        CodePoints text ∧ CodePoints rest := by
      intro c tail hc htail h
      obtain ⟨⟨body, last⟩, hbody, heq⟩ := Option.bind_eq_some_iff.mp h
      obtain ⟨hcodes, hlast⟩ := ih htail hbody
      cases heq
      exact ⟨List.forall_mem_cons.mpr ⟨hc, hcodes⟩, hlast⟩
    unfold scanString at h
    split at h
    · cases h
    · cases h
    · cases h
      exact ⟨by simp [CodePoints], hs.tail⟩
    · rename_i hfuel
      cases hfuel
      obtain ⟨⟨c, tail⟩, hc, h⟩ := Option.bind_eq_some_iff.mp h
      obtain ⟨hlt, hsubset⟩ := unicodeEscape_eq_some hc
      exact hprepend hlt (hs.tail.tail.subset hsubset) h
    · rename_i hfuel
      cases hfuel
      obtain ⟨c, hc, h⟩ := Option.bind_eq_some_iff.mp h
      exact hprepend (simpleEscape_lt hc) hs.tail.tail h
    · rename_i hfuel
      cases hfuel
      split_ifs at h
      exact hprepend (hs _ List.mem_cons_self) hs.tail h

theorem scanInteger_eq_some {s whole rest : PyStr} (h : scanInteger s = some (whole, rest)) :
    whole ≠ [] ∧ (∀ c ∈ whole, isDigit c = true) ∧ rest ⊆ s := by
  unfold scanInteger at h
  split at h
  · cases h
    exact ⟨by simp, by decide, List.subset_cons_self _ _⟩
  · rename_i c tail _
    split_ifs at h with hdigit
    cases h
    refine ⟨by simp [hdigit], fun d hd => List.mem_takeWhile_imp hd,
      (List.dropWhile_sublist _).subset⟩
  · cases h

theorem scanFraction_subset (s : PyStr) : (scanFraction s).2 ⊆ s := by
  unfold scanFraction
  split
  · split_ifs
    · exact fun d hd => List.mem_cons_of_mem _ ((List.dropWhile_sublist _).subset hd)
    · exact List.Subset.refl _
  · exact List.Subset.refl _

theorem signed_subset (s : PyStr) : (signed s).2 ⊆ s := by
  unfold signed
  split
  · exact List.subset_cons_self _ _
  · exact List.subset_cons_self _ _
  · exact List.Subset.refl _

theorem scanExponent_subset (s : PyStr) : (scanExponent s).2 ⊆ s := by
  cases s with
  | nil => exact List.Subset.refl _
  | cons e s =>
    rw [scanExponent_cons]
    split_ifs
    · exact fun d hd => List.mem_cons_of_mem _
        (signed_subset s ((List.dropWhile_sublist _).subset hd))
    · exact List.Subset.refl _

theorem foldl_digits_lt (whole : PyStr) (hwhole : ∀ c ∈ whole, isDigit c = true) : ∀ acc : ℤ,
    0 ≤ acc → 0 ≤ whole.foldl (fun (acc : ℤ) c => acc * 10 + (c - 48 : ℕ)) acc ∧
      whole.foldl (fun (acc : ℤ) c => acc * 10 + (c - 48 : ℕ)) acc
        < (acc + 1) * 10 ^ whole.length := by
  induction whole with
  | nil =>
    intro acc hacc
    simp [hacc]
  | cons c whole ih =>
    intro acc hacc
    rw [List.forall_mem_cons] at hwhole
    have hdigit := hwhole.1
    simp only [isDigit, Bool.and_eq_true, decide_eq_true_eq] at hdigit
    obtain ⟨hnonneg, hlt⟩ := ih hwhole.2 (acc * 10 + (c - 48 : ℕ)) (by omega)
    refine ⟨hnonneg, hlt.trans_le ?_⟩
    rw [List.length_cons, pow_succ', ← mul_assoc]
    exact mul_le_mul_of_nonneg_right (by omega) (by positivity)

/-- An interpreter whose floats read back: `float(repr(x)) == x`. -/
def FloatsReadBack (py : Interpreter) : Prop :=
  ∀ s f rest, scanNumber py s = some (.ok (.float f, rest)) → ReadsBack py f

theorem numberFrom_eq_some {sign s rest : PyStr} {v : Json}
    (h : numberFrom py sign s = some (.ok (v, rest))) :
    ((∃ f, v = .float f) ∨
      ∃ i : ℤ, v = .int i ∧ (Nat.toDigits 10 i.natAbs).length ≤ maxIntDigits) ∧ rest ⊆ s := by
  obtain ⟨⟨whole, tail⟩, hwhole, h⟩ := Option.bind_eq_some_iff.mp h
  obtain ⟨hne, hdigits, hsubset⟩ := scanInteger_eq_some hwhole
  have hrest : (scanExponent (scanFraction tail).2).2 ⊆ s :=
    fun x hx => hsubset (scanFraction_subset tail (scanExponent_subset _ hx))
  -- The text of the integer has no more digits than the number read.
  have hvalue : whole.length ≤ maxIntDigits → (Nat.toDigits 10
      (whole.foldl (fun (acc : ℤ) c => acc * 10 + (c - 48 : ℕ)) 0).natAbs).length
        ≤ maxIntDigits := by
    intro hlimit
    obtain ⟨hnonneg, hlt⟩ := foldl_digits_lt whole hdigits 0 (le_refl 0)
    have hpos := List.length_pos_iff.mpr hne
    refine ((Nat.length_toDigits_le_iff (by decide) hpos).mpr ?_).trans hlimit
    rw [zero_add, one_mul] at hlt
    zify
    rwa [abs_of_nonneg hnonneg]
  dsimp only at h
  split_ifs at h with hint hlimit hsign
  · cases h
  · cases h
    exact ⟨Or.inr ⟨_, rfl, hvalue (Nat.not_lt.mp hlimit)⟩, hrest⟩
  · cases h
    exact ⟨Or.inr ⟨_, rfl, by rw [Int.natAbs_neg]; exact hvalue (Nat.not_lt.mp hlimit)⟩, hrest⟩
  · cases h
    exact ⟨Or.inl ⟨_, rfl⟩, hrest⟩

theorem scanNumber_readable (hfloats : FloatsReadBack py) {s rest : PyStr} {v : Json}
    (h : scanNumber py s = some (.ok (v, rest))) : v.Readable py ∧ v.Proper ∧ rest ⊆ s := by
  have hnumber : ∃ sign body, numberFrom py sign body = some (.ok (v, rest)) ∧ body ⊆ s := by
    by_cases hminus : s.head? = some 45
    · obtain ⟨tail, rfl⟩ := List.head?_eq_some_iff.mp hminus
      exact ⟨[45], tail, h, List.subset_cons_self 45 tail⟩
    · rw [scanNumber_unsigned hminus] at h
      exact ⟨[], s, h, List.Subset.refl s⟩
  obtain ⟨sign, body, hbody, hsubset⟩ := hnumber
  obtain ⟨hvalue, hrest⟩ := numberFrom_eq_some hbody
  rcases hvalue with ⟨f, rfl⟩ | ⟨i, rfl, hdigits⟩
  · exact ⟨hfloats s f rest h, trivial, List.Subset.trans hrest hsubset⟩
  · exact ⟨hdigits, trivial, List.Subset.trans hrest hsubset⟩

theorem readsBack_nan : ReadsBack py ⟨lit "nan", .nan⟩ where
  ascii := by decide
  nan _ := rfl
  inf _ h := by cases h
  finite _ h := by cases h

theorem readsBack_inf (negative : Bool) :
    ReadsBack py ⟨if negative then lit "-inf" else lit "inf", .inf negative⟩ where
  ascii := by cases negative <;> decide
  nan h := by cases h
  inf _ h := by cases h; rfl
  finite _ h := by cases h

theorem scanConstant_readable {s rest : PyStr} {v : Json} (h : scanConstant s = some (v, rest)) :
    v.Readable py ∧ v.Proper ∧ rest ⊆ s := by
  obtain ⟨entry, hentry, heq⟩ := Option.map_eq_some_iff.mp h
  have hmem := List.mem_of_find?_eq_some hentry
  obtain ⟨rfl, rfl⟩ := Prod.mk.inj heq
  have hvalue : entry.2.Readable py ∧ entry.2.Proper := by
    simp only [List.mem_cons, List.not_mem_nil, or_false] at hmem
    rcases hmem with rfl | rfl | rfl | rfl | rfl | rfl
    · exact ⟨trivial, trivial⟩
    · exact ⟨trivial, trivial⟩
    · exact ⟨trivial, trivial⟩
    · exact ⟨readsBack_nan, trivial⟩
    · exact ⟨readsBack_inf false, trivial⟩
    · exact ⟨readsBack_inf true, trivial⟩
  exact ⟨hvalue.1, hvalue.2, (List.drop_sublist _ _).subset⟩

/-- A value that came out of a text: `json` can write it again, and it is its own image. -/
structure Json.Decoded (py : Interpreter) (v : Json) : Prop where
  readable : v.Readable py
  proper : v.Proper

theorem Json.Decoded.cons {v : Json} {items : List Json} (hv : v.Decoded py)
    (hitems : (Json.list items).Decoded py) : (Json.list (v :: items)).Decoded py :=
  ⟨⟨hv.readable, hitems.readable⟩, hv.proper, hitems.proper⟩

theorem decoded_empty : (Json.dict []).Decoded py :=
  ⟨trivial, ⟨by simp, List.nodup_nil⟩, trivial⟩

section

variable {key : PyStr} {v : Json}

theorem readableEntries_setItem (hkey : CodePoints key) (hv : v.Readable py) (d : Dict) :
    ReadableEntries py d → ReadableEntries py (setItem (.str key) v d) := by
  induction d with
  | nil => exact fun _ => ⟨rfl, hkey, hv, trivial⟩
  | cons entry d ih =>
    obtain ⟨k, w⟩ := entry
    rintro ⟨hhash, hk, hw, hd⟩
    rw [setItem]
    split_ifs
    · exact ⟨hhash, hk, hv, hd⟩
    · exact ⟨hhash, hk, hw, ih hd⟩

theorem properEntries_setItem (hv : v.Proper) (d : Dict) :
    ProperEntries d → ProperEntries (setItem (.str key) v d) := by
  induction d with
  | nil => exact fun _ => ⟨hv, trivial⟩
  | cons entry d ih =>
    obtain ⟨k, w⟩ := entry
    rintro ⟨hw, hd⟩
    rw [setItem]
    split_ifs
    · exact ⟨hv, hd⟩
    · exact ⟨hw, ih hd⟩

theorem keys_setItem (d : Dict) : (setItem (.str key) v d).map Prod.fst =
    if .str key ∈ d.map Prod.fst then d.map Prod.fst else d.map Prod.fst ++ [.str key] := by
  by_cases hmem : .str key ∈ d.map Prod.fst
  · rw [if_pos hmem]
    induction d with
    | nil => cases hmem
    | cons entry d ih =>
      obtain ⟨k, w⟩ := entry
      rw [setItem]
      split_ifs with hk
      · rfl
      · have hne : .str key ≠ k := fun heq => hk (keyEq_str_iff.mpr heq.symm)
        rw [List.map_cons, List.map_cons, ih ((List.mem_cons.mp hmem).resolve_left hne)]
  · rw [if_neg hmem, setItem_of_not_mem hmem, List.map_append]
    rfl

theorem StringKeys.setItem {d : Dict} (h : StringKeys d) :
    StringKeys (setItem (.str key) v d) := by
  constructor
  · intro k hk
    rw [keys_setItem] at hk
    split_ifs at hk
    · exact h.strings k hk
    · rcases List.mem_append.mp hk with hk | hk
      · exact h.strings k hk
      · exact ⟨key, List.mem_singleton.mp hk⟩
  · rw [keys_setItem]
    split_ifs with hmem
    · exact h.nodup
    · exact List.Nodup.append h.nodup (List.nodup_singleton _)
        (List.disjoint_singleton.mpr hmem)

theorem Json.Decoded.setItem {d : Dict} (hkey : CodePoints key) (hv : v.Decoded py)
    (hd : (Json.dict d).Decoded py) : (Json.dict (setItem (.str key) v d)).Decoded py where
  readable := readableEntries_setItem hkey hv.readable d hd.readable
  proper := ⟨hd.proper.1.setItem, properEntries_setItem hv.proper d hd.proper.2⟩

end

theorem orInvalid_eq_ok {α : Type} {x : Option α} {a : α} : orInvalid x = .ok a ↔ x = some a := by
  cases x with
  | none => simp [orInvalid]
  | some b => simp [orInvalid]

theorem scalar_decoded (hfloats : FloatsReadBack py) {s rest : PyStr} {v : Json}
    (h : (scanNumber py s).getD (orInvalid (scanConstant s)) = .ok (v, rest)) :
    v.Decoded py ∧ rest ⊆ s := by
  cases hnumber : scanNumber py s with
  | none =>
    rw [hnumber] at h
    obtain ⟨hreadable, hproper, hsubset⟩ := scanConstant_readable (orInvalid_eq_ok.mp h)
    exact ⟨⟨hreadable, hproper⟩, hsubset⟩
  | some read =>
    rw [hnumber] at h
    obtain rfl : read = .ok (v, rest) := h
    obtain ⟨hreadable, hproper, hsubset⟩ := scanNumber_readable hfloats hnumber
    exact ⟨⟨hreadable, hproper⟩, hsubset⟩

/-- Each level of the scanner, by the fuel of the levels below it. -/
theorem scan_decoded (hfloats : FloatsReadBack py) : ∀ fuel,
    (∀ s v rest, CodePoints s → scanOnce py fuel s = .ok (v, rest) →
      v.Decoded py ∧ CodePoints rest) ∧
    (∀ s d fields rest, CodePoints s → (Json.dict d).Decoded py →
      scanFields py fuel d s = .ok (fields, rest) →
      (Json.dict fields).Decoded py ∧ CodePoints rest) ∧
    (∀ s items rest, CodePoints s → scanItems py fuel s = .ok (items, rest) →
      (Json.list items).Decoded py ∧ CodePoints rest) := by
  intro fuel
  induction fuel with
  | zero =>
    refine ⟨fun s v rest _ h => ?_, fun s d fields rest _ _ h => ?_, fun s items rest _ h => ?_⟩
    all_goals cases h
  | succ fuel ih =>
    obtain ⟨ihOnce, ihFields, ihItems⟩ := ih
    refine ⟨fun s v rest hs h => ?_, fun s d fields rest hs hd h => ?_, fun s items rest hs h => ?_⟩
    · rw [scanOnce.eq_def] at h
      dsimp only at h
      split at h
      · obtain ⟨⟨text, tail⟩, htext, h⟩ := bind_eq_ok.mp h
        obtain ⟨hcodes, htail⟩ := scanString_codePoints _ hs.tail (orInvalid_eq_ok.mp htext)
        cases h
        exact ⟨⟨hcodes, trivial⟩, htail⟩
      · have hskip := hs.tail.skipSpace
        split at h
        · rename_i heq
          rw [heq] at hskip
          cases h
          exact ⟨decoded_empty, hskip.tail⟩
        · obtain ⟨⟨fields, tail⟩, hfields, h⟩ := bind_eq_ok.mp h
          have hread := ihFields _ _ _ _ hskip decoded_empty hfields
          cases h
          exact hread
      · have hskip := hs.tail.skipSpace
        split at h
        · rename_i heq
          rw [heq] at hskip
          cases h
          exact ⟨⟨trivial, trivial⟩, hskip.tail⟩
        · obtain ⟨⟨items, tail⟩, hitems, h⟩ := bind_eq_ok.mp h
          have hread := ihItems _ _ _ hskip hitems
          cases h
          exact hread
      · obtain ⟨hdecoded, hsubset⟩ := scalar_decoded hfloats h
        exact ⟨hdecoded, hs.subset hsubset⟩
    · rw [scanFields.eq_def] at h
      dsimp only at h
      split at h
      · cases h
      · rename_i hfuel
        cases hfuel
        obtain ⟨⟨key, tail⟩, hkey, h⟩ := bind_eq_ok.mp h
        obtain ⟨hcodes, htail⟩ := scanString_codePoints _ hs.tail (orInvalid_eq_ok.mp hkey)
        have hcolon := htail.skipSpace
        dsimp only at h
        split at h
        · rename_i heq
          rw [heq] at hcolon
          obtain ⟨⟨value, more⟩, hvalue, h⟩ := bind_eq_ok.mp h
          obtain ⟨hdecoded, hmore⟩ := ihOnce _ _ _ hcolon.tail.skipSpace hvalue
          have hskip := hmore.skipSpace
          have hset := Json.Decoded.setItem hcodes hdecoded hd
          dsimp only at h
          split at h
          · rename_i hclose
            rw [hclose] at hskip
            cases h
            exact ⟨hset, hskip.tail⟩
          · rename_i hcomma
            rw [hcomma] at hskip
            exact ihFields _ _ _ _ hskip.tail.skipSpace hset h
          · cases h
        · cases h
      · cases h
    · rw [scanItems] at h
      obtain ⟨⟨value, tail⟩, hvalue, h⟩ := bind_eq_ok.mp h
      obtain ⟨hdecoded, htail⟩ := ihOnce s value tail hs hvalue
      have hskip := htail.skipSpace
      dsimp only at h
      split at h
      · rename_i heq
        cases h
        rw [heq] at hskip
        exact ⟨hdecoded.cons ⟨trivial, trivial⟩, hskip.tail⟩
      · rename_i heq
        rw [heq] at hskip
        obtain ⟨⟨others, last⟩, hothers, h⟩ := bind_eq_ok.mp h
        obtain ⟨hmore, hlast⟩ := ihItems _ _ _ hskip.tail.skipSpace hothers
        cases h
        exact ⟨hdecoded.cons hmore, hlast⟩
      · cases h

theorem utf8Next_lt {c n : ℕ} {s rest : Bytes} (h : utf8Next c s = some (n, rest)) :
    n < (c + 1) * 64 := by
  unfold utf8Next at h
  split at h
  · split_ifs at h with hrange
    obtain ⟨rfl, rfl⟩ := Prod.mk.inj (Option.some.inj h)
    have hlast : UInt8.toNat _ < 0xc0 := UInt8.lt_iff_toNat_lt.mp hrange.2
    omega
  · cases h

theorem utf8Step_lt {b : UInt8} {rest tail : Bytes} {c : ℕ} (h : utf8Step b rest = some (c, tail)) :
    c < 0x110000 := by
  have hb := b.toNat_lt
  unfold utf8Step at h
  split_ifs at h with h1 h2 h3 h4
  · obtain ⟨rfl, rfl⟩ := Prod.mk.inj (Option.some.inj h)
    omega
  · have := utf8Next_lt h
    omega
  · have hlead : b.toNat < 0xf0 := UInt8.lt_iff_toNat_lt.mp h3.2
    obtain ⟨⟨c1, rest1⟩, hc1, h⟩ := Option.bind_eq_some_iff.mp h
    obtain ⟨⟨c2, rest2⟩, hc2, h⟩ := Option.bind_eq_some_iff.mp h
    have := utf8Next_lt hc1
    have := utf8Next_lt hc2
    dsimp only at h
    split_ifs at h
    obtain ⟨rfl, rfl⟩ := Prod.mk.inj (Option.some.inj h)
    omega
  · obtain ⟨⟨c1, rest1⟩, hc1, h⟩ := Option.bind_eq_some_iff.mp h
    obtain ⟨⟨c2, rest2⟩, hc2, h⟩ := Option.bind_eq_some_iff.mp h
    obtain ⟨⟨c3, rest3⟩, hc3, h⟩ := Option.bind_eq_some_iff.mp h
    dsimp only at h
    split_ifs at h with hrange
    obtain ⟨rfl, rfl⟩ := Prod.mk.inj (Option.some.inj h)
    omega

theorem utf8DecodeFuel_codePoints (fuel : ℕ) : ∀ {data : Bytes} {s : PyStr},
    utf8DecodeFuel fuel data = some s → CodePoints s := by
  induction fuel with
  | zero =>
    intro data s h
    cases data with
    | nil =>
      cases h
      simp [CodePoints]
    | cons b rest => cases h
  | succ fuel ih =>
    intro data s h
    cases data with
    | nil =>
      cases h
      simp [CodePoints]
    | cons b rest =>
      obtain ⟨⟨c, tail⟩, hstep, h⟩ := Option.bind_eq_some_iff.mp h
      obtain ⟨text, htext, h⟩ := Option.bind_eq_some_iff.mp h
      cases h
      exact List.forall_mem_cons.mpr ⟨utf8Step_lt hstep, ih htext⟩

theorem loads_decoded (hfloats : FloatsReadBack py) {s : PyStr} {v : Json} (hs : CodePoints s)
    (h : loads py s = .ok v) : v.Decoded py := by
  unfold loads at h
  split at h
  · cases h
  · obtain ⟨⟨value, rest⟩, hvalue, h⟩ := bind_eq_ok.mp h
    have hdecoded := ((scan_decoded hfloats _).1 _ _ _ hs.skipSpace hvalue).1
    dsimp only at h
    split_ifs at h
    cases h
    exact hdecoded

/-- A message that `decode` returned. -/
theorem decode_decoded (hfloats : FloatsReadBack py) {data : Bytes} {message : Dict}
    (h : decode py data = .ok message) : (Json.dict message).Decoded py := by
  have hread : (orInvalid (utf8Decode data)).bind (loads py) = .ok (.dict message) := by
    unfold decode at h
    split_ifs at h
    · cases h
    · split at h
      · rename_i value hvalue
        split at h
        · cases h
          exact hvalue
        · cases h
      all_goals cases h
  obtain ⟨s, hs, hloads⟩ := bind_eq_ok.mp hread
  exact loads_decoded hfloats (utf8DecodeFuel_codePoints _ (orInvalid_eq_ok.mp hs)) hloads

/-- A message that came in through `decode` and goes out through `encode` reads the same at
the other end, whoever reads it. -/
theorem decode_encode_decode (hfloats : FloatsReadBack py) {data packet : Bytes} {message : Dict}
    (h : decode py data = .ok message) (hpacket : encode message = .ok packet) :
    decode py packet = .ok message := by
  obtain ⟨hreadable, hproper⟩ := decode_decoded hfloats h
  have himage : wireEntries [] message = message :=
    wireEntries_of_proper message hproper.2 [] hproper.1
  have hback := decode_packet hreadable hpacket
  rw [himage] at hback
  exact hback (decode_type h)

theorem floatsReadBack_halves : FloatsReadBack halvesInterpreter := by
  intro s f rest h
  have hfloat : ∀ sign body, numberFrom halvesInterpreter sign body = some (.ok (.float f, rest)) →
      f = ⟨lit "1.5", .finite (3 / 2)⟩ := by
    intro sign body h
    obtain ⟨⟨whole, tail⟩, -, h⟩ := Option.bind_eq_some_iff.mp h
    dsimp only at h
    split_ifs at h <;> cases h
    rfl
  by_cases hminus : s.head? = some 45
  · obtain ⟨tail, rfl⟩ := List.head?_eq_some_iff.mp hminus
    rw [hfloat [45] tail h]
    exact readsBack_half
  · rw [scanNumber_unsigned hminus] at h
    rw [hfloat [] s h]
    exact readsBack_half

/-- Spaces, an escape that `dumps` does not write and a repeated key. -/
def spacedPacket : Bytes :=
  (lit "\x7b\"type\": \"a\", \"type\":\"\\u000a\",\"n\":1.5\x7d").flatMap utf8Char

/-- The packet that goes out differs, the message does not. -/
theorem decode_encode_decode_spaced :
    decode halvesInterpreter ((lit "\x7b\"type\":\"\\n\",\"n\":1.5\x7d").flatMap utf8Char) =
      .ok (record [("type", .str [10]), ("n", .float ⟨lit "1.5", .finite (3 / 2)⟩)]) := by
  have hread : decode halvesInterpreter spacedPacket =
      .ok (record [("type", .str [10]), ("n", .float ⟨lit "1.5", .finite (3 / 2)⟩)]) := by
    decide +kernel
  exact decode_encode_decode floatsReadBack_halves hread
    (encode_of_encodable (show Encodable _ by decide))

end MsysCore.Python
