import MsysCore.Native.PlanSource
import MsysCore.Native.PlanText
import MsysCore.Python.Utf8

/-!
# The fields of a compiled plan

What the compiler writes into a field is read back by the parser: identifiers, numbers, names and
texts in hexadecimal. A written field has no separator, so lines and records come apart where they
were put together.
-/

namespace MsysCore.Native.PlanSource

open Python

theorem refuse_ok {bad : Bool} {detail : String} (h : bad = false) :
    PlanText.refuse bad detail = .ok () := by
  rw [h]
  rfl

/-! ## UTF-8 -/

@[simp] theorem utf8_nil : utf8 [] = [] := rfl

@[simp] theorem utf8_cons (c : ℕ) (s : PyStr) : utf8 (c :: s) = utf8Char c ++ utf8 s := rfl

@[simp] theorem utf8_append (s t : PyStr) : utf8 (s ++ t) = utf8 s ++ utf8 t :=
  List.flatMap_append

theorem utf8_of_ascii {s : PyStr} (h : ∀ c ∈ s, c < 128) : utf8 s = s.map Nat.toUInt8 := by
  induction s with
  | nil => rfl
  | cons c s ih =>
    obtain ⟨hc, hs⟩ := List.forall_mem_cons.mp h
    rw [utf8_cons, utf8Char_of_ascii hc, ih hs]
    rfl

/-- A character that ends neither a field nor a line. -/
def plainChar (c : ℕ) : Bool := c < 128 && c != 9 && c != 10 && c != 13

/-- A text that can stand in a field. -/
def Plain (s : PyStr) : Prop := ∀ c ∈ s, plainChar c = true

instance : DecidablePred Plain := fun s =>
  inferInstanceAs (Decidable (∀ c ∈ s, plainChar c = true))

theorem plainChar_iff {c : ℕ} : plainChar c = true ↔ c < 128 ∧ c ≠ 9 ∧ c ≠ 10 ∧ c ≠ 13 := by
  simp [plainChar, and_assoc]

theorem Plain.utf8_eq {s : PyStr} (h : Plain s) : utf8 s = s.map Nat.toUInt8 :=
  utf8_of_ascii fun c hc => (plainChar_iff.mp (h c hc)).1

theorem Plain.length_utf8 {s : PyStr} (h : Plain s) : (utf8 s).length = s.length := by
  rw [h.utf8_eq, List.length_map]

/-- A separator is not among the bytes of a field. -/
theorem Plain.not_mem {s : PyStr} (h : Plain s) {separator : UInt8}
    (hseparator : plainChar separator.toNat = false) : separator ∉ utf8 s := by
  rw [h.utf8_eq, List.mem_map]
  rintro ⟨c, hc, rfl⟩
  have hplain := h c hc
  have hascii := (plainChar_iff.mp hplain).1
  rw [toNat_toUInt8 (by omega), hplain] at hseparator
  cases hseparator

/-! ## Records -/

theorem utf8_intercalate (separator : ℕ) (hseparator : separator < 128) (items : List PyStr) :
    utf8 ([separator].intercalate items)
      = [separator.toUInt8].intercalate (items.map utf8) := by
  induction items with
  | nil => rfl
  | cons item items ih =>
    cases items with
    | nil => simp
    | cons next items =>
      rw [List.intercalate_cons_cons, utf8_append, utf8_append, ih, utf8_cons, utf8_nil,
        utf8Char_of_ascii hseparator]
      simp

theorem splitFields_tabbed {fields : List PyStr} (hfields : fields ≠ [])
    (hplain : ∀ field ∈ fields, Plain field) :
    PlanText.splitFields (utf8 (tabbed fields)) = fields.map utf8 := by
  have htabbed : utf8 (tabbed fields) = [(9 : UInt8)].intercalate (fields.map utf8) :=
    utf8_intercalate 9 (by decide) fields
  rw [htabbed]
  apply List.splitOn_intercalate
  · intro field hfield
    obtain ⟨s, hs, rfl⟩ := List.mem_map.mp hfield
    exact (hplain s hs).not_mem rfl
  · simpa using hfields

theorem tabbed_cons_cons (first second : PyStr) (rest : List PyStr) :
    tabbed (first :: second :: rest) = first ++ 9 :: tabbed (second :: rest) := by
  show (lit "\t").intercalate _ = _
  rw [List.intercalate_cons_cons, List.append_assoc]
  rfl

theorem tabbed_singleton (field : PyStr) : tabbed [field] = field := List.intercalate_singleton

theorem mem_tabbed {fields : List PyStr} (hplain : ∀ field ∈ fields, Plain field) :
    ∀ c ∈ tabbed fields, c = 9 ∨ plainChar c = true := by
  induction fields with
  | nil => simp [tabbed]
  | cons field fields ih =>
    obtain ⟨hfield, hfields⟩ := List.forall_mem_cons.mp hplain
    cases fields with
    | nil =>
      rw [tabbed_singleton]
      exact fun c hc => .inr (hfield c hc)
    | cons next fields =>
      rw [tabbed_cons_cons]
      intro c hc
      rcases List.mem_append.mp hc with hc | hc
      · exact .inr (hfield c hc)
      · rcases List.mem_cons.mp hc with rfl | hc
        · exact .inl rfl
        · exact ih hfields c hc

/-! ## Identifiers and keys -/

theorem topicChar_lt {c : ℕ} (h : Core.topicChar c = true) : c < 128 := by
  simp only [Core.topicChar, Core.isAlnum, lit, Bool.or_eq_true, Bool.and_eq_true,
    decide_eq_true_eq, List.contains_iff_mem] at h
  rcases h with h | h
  · omega
  · have hmem : c ∈ [46, 95, 58, 45] := h
    simp at hmem
    omega

theorem envStart_lt {c : ℕ} (h : (envStart c || (48 ≤ c && c ≤ 57)) = true) : c < 128 := by
  simp [envStart] at h
  omega

/-- The character classes of the two programs. -/
theorem asciiAlnum_toUInt8 : ∀ c < 128, PlanText.asciiAlnum c.toUInt8 = Core.isAlnum c := by
  decide

theorem topicChar_toUInt8 : ∀ c < 128, Core.topicChar c = true → plainChar c = true ∧
    (PlanText.asciiAlnum c.toUInt8 || (ascii "_-.:").contains c.toUInt8) = true := by
  decide

theorem envStart_toUInt8 : ∀ c < 128, envStart c = true →
    (PlanText.asciiAlpha c.toUInt8 || c.toUInt8 == 95) = true := by
  decide

theorem envChar_toUInt8 : ∀ c < 128, (envStart c || (48 ≤ c && c ≤ 57)) = true →
    plainChar c = true ∧ (PlanText.asciiAlnum c.toUInt8 || c.toUInt8 == 95) = true := by
  decide

theorem idRe_cons {first : ℕ} {rest : PyStr} : idRe (first :: rest) = true ↔
    Core.isAlnum first = true ∧ rest.length ≤ 127 ∧
      ∀ c ∈ first :: rest, Core.topicChar c = true := by
  simp only [idRe, Bool.and_eq_true, decide_eq_true_eq, List.all_eq_true, List.forall_mem_cons]
  constructor
  · rintro ⟨⟨hfirst, hlength⟩, hrest⟩
    exact ⟨hfirst, hlength, by simp [Core.topicChar, hfirst], hrest⟩
  · rintro ⟨hfirst, hlength, -, hrest⟩
    exact ⟨⟨hfirst, hlength⟩, hrest⟩

theorem envRe_cons {first : ℕ} {rest : PyStr} : envRe (first :: rest) = true ↔
    envStart first = true ∧ rest.length ≤ 127 ∧
      ∀ c ∈ first :: rest, (envStart c || (48 ≤ c && c ≤ 57)) = true := by
  simp only [envRe, Bool.and_eq_true, decide_eq_true_eq, List.all_eq_true, List.forall_mem_cons]
  constructor
  · rintro ⟨⟨hfirst, hlength⟩, hrest⟩
    exact ⟨hfirst, hlength, by simp [hfirst], hrest⟩
  · rintro ⟨hfirst, hlength, -, hrest⟩
    exact ⟨⟨hfirst, hlength⟩, hrest⟩

theorem plain_of_idRe {s : PyStr} (h : idRe s = true) : Plain s := by
  cases s with
  | nil => cases h
  | cons first rest =>
    obtain ⟨-, -, hall⟩ := idRe_cons.mp h
    exact fun c hc => (topicChar_toUInt8 c (topicChar_lt (hall c hc)) (hall c hc)).1

theorem plain_of_envRe {s : PyStr} (h : envRe s = true) : Plain s := by
  cases s with
  | nil => cases h
  | cons first rest =>
    obtain ⟨-, -, hall⟩ := envRe_cons.mp h
    exact fun c hc => (envChar_toUInt8 c (envStart_lt (hall c hc)) (hall c hc)).1

theorem length_of_idRe {s : PyStr} (h : idRe s = true) : s.length ≤ 128 := by
  cases s with
  | nil => cases h
  | cons first rest => exact Nat.succ_le_succ (idRe_cons.mp h).2.1

theorem length_of_envRe {s : PyStr} (h : envRe s = true) : s.length ≤ 128 := by
  cases s with
  | nil => cases h
  | cons first rest => exact Nat.succ_le_succ (envRe_cons.mp h).2.1

theorem validId_utf8 {s : PyStr} (h : idRe s = true) : PlanText.validId (utf8 s) = true := by
  rw [(plain_of_idRe h).utf8_eq]
  cases s with
  | nil => cases h
  | cons first rest =>
    obtain ⟨hfirst, hlength, hall⟩ := idRe_cons.mp h
    have hlt := topicChar_lt (hall first List.mem_cons_self)
    have hchars : ∀ b ∈ (first :: rest).map Nat.toUInt8,
        (PlanText.asciiAlnum b || (ascii "_-.:").contains b) = true := by
      intro b hb
      obtain ⟨c, hc, rfl⟩ := List.mem_map.mp hb
      exact (topicChar_toUInt8 c (topicChar_lt (hall c hc)) (hall c hc)).2
    rw [List.map_cons] at hchars ⊢
    simp only [PlanText.validId, Bool.and_eq_true, decide_eq_true_eq, List.all_eq_true]
    refine ⟨⟨?_, ?_⟩, hchars⟩
    · simpa using Nat.lt_succ_of_le hlength
    · rw [asciiAlnum_toUInt8 first hlt, hfirst]

theorem validEnvironmentKey_utf8 {s : PyStr} (h : envRe s = true) :
    PlanText.validEnvironmentKey (utf8 s) = true := by
  rw [(plain_of_envRe h).utf8_eq]
  cases s with
  | nil => cases h
  | cons first rest =>
    obtain ⟨hfirst, hlength, hall⟩ := envRe_cons.mp h
    have hlt := envStart_lt (hall first List.mem_cons_self)
    have hchars : ∀ b ∈ (first :: rest).map Nat.toUInt8,
        (PlanText.asciiAlnum b || b == 95) = true := by
      intro b hb
      obtain ⟨c, hc, rfl⟩ := List.mem_map.mp hb
      exact (envChar_toUInt8 c (envStart_lt (hall c hc)) (hall c hc)).2
    rw [List.map_cons] at hchars ⊢
    simp only [PlanText.validEnvironmentKey, Bool.and_eq_true, decide_eq_true_eq, List.all_eq_true]
    refine ⟨⟨?_, ?_⟩, hchars⟩
    · simpa using Nat.lt_succ_of_le hlength
    · exact envStart_toUInt8 first hlt hfirst

/-! ## Numbers -/

theorem intText_ofNat (n : ℕ) : intText n = (Nat.toDigits 10 n).map Char.toNat := by
  simp [intText]

theorem digit_of_mem {n : ℕ} {c : Char} (hc : c ∈ Nat.toDigits 10 n) :
    48 ≤ c.toNat ∧ c.toNat ≤ 57 := by
  have hdigit := Nat.isDigit_of_mem_toDigits (by decide) (by decide) hc
  simpa [Char.isDigit, UInt32.le_iff_toNat_le] using hdigit

theorem plain_intText (n : ℕ) : Plain (intText n) := by
  rw [intText_ofNat]
  intro c hc
  obtain ⟨d, hd, rfl⟩ := List.mem_map.mp hc
  obtain ⟨hlow, hhigh⟩ := digit_of_mem hd
  rw [plainChar_iff]
  omega

theorem length_intText {n : ℕ} (h : n < 10 ^ 10) : (intText n).length ≤ 10 := by
  rw [intText_ofNat, List.length_map]
  exact (Nat.length_toDigits_le_iff (by decide) (by decide)).mpr h

theorem foldl_digits (digits : List Char) (hdigits : ∀ c ∈ digits, 48 ≤ c.toNat ∧ c.toNat ≤ 57) :
    ∀ n, (digits.map fun c => c.toNat.toUInt8).foldl
        (fun n digit => n * 10 + (digit.toNat - 48)) n
      = Nat.ofDigitChars 10 digits n := by
  induction digits with
  | nil => exact fun n => (Nat.ofDigitChars_nil).symm
  | cons c digits ih =>
    intro n
    obtain ⟨hc, hrest⟩ := List.forall_mem_cons.mp hdigits
    rw [List.map_cons, List.foldl_cons, ih hrest, Nat.ofDigitChars_cons,
      toNat_toUInt8 (by omega), Nat.mul_comm]
    rfl

theorem parseU32_intText {n minimum maximum : ℕ} (field : String) (hminimum : minimum ≤ n)
    (hmaximum : n ≤ maximum) (hmax : maximum < 2 ^ 32) :
    PlanText.parseU32 (utf8 (intText n)) field minimum maximum = .ok n := by
  have hutf8 : utf8 (intText n) = (Nat.toDigits 10 n).map fun c => c.toNat.toUInt8 := by
    rw [(plain_intText n).utf8_eq, intText_ofNat, List.map_map]
    rfl
  have hvalue := foldl_digits (Nat.toDigits 10 n) (fun c hc => digit_of_mem hc) 0
  rw [Nat.ofDigitChars_ten_toDigits, ← hutf8] at hvalue
  have hempty : (utf8 (intText n)).isEmpty = false := by simp [hutf8]
  have hall : (utf8 (intText n)).all PlanText.asciiDigit = true := by
    rw [List.all_eq_true, hutf8]
    intro b hb
    obtain ⟨c, hc, rfl⟩ := List.mem_map.mp hb
    obtain ⟨hlow, hhigh⟩ := digit_of_mem hc
    simp only [PlanText.asciiDigit, Bool.and_eq_true, decide_eq_true_eq, UInt8.le_iff_toNat_le,
      toNat_toUInt8 (show c.toNat < 256 by omega)]
    exact ⟨hlow, hhigh⟩
  unfold PlanText.parseU32
  rw [hvalue, hempty, hall]
  refine bind_eq_ok.mpr ⟨(), refuse_ok ?_, rfl⟩
  simp only [Bool.not_true, Bool.or_false, Bool.false_or, Bool.or_eq_false_iff,
    decide_eq_false_iff_not]
  omega

/-! ## Names -/

theorem utf8_lit {s : String} (h : Plain (lit s)) : utf8 (lit s) = ascii s := by
  rw [h.utf8_eq, lit, ascii, List.map_map]
  rfl

theorem plain_flag (b : Bool) : Plain (flag b) := by
  cases b <;> decide

theorem plain_kindName (kind : ComponentKind) : Plain (lit (kindName kind)) := by
  cases kind <;> decide

theorem plain_restartName (restart : RestartPolicy) : Plain (lit (restartName restart)) := by
  cases restart <;> decide

theorem plain_readinessName (mode : ReadinessMode) : Plain (lit (readinessName mode)) := by
  cases mode <;> decide

theorem plain_lifecycleName (lifecycle : Lifecycle) : Plain (lit (lifecycleName lifecycle)) := by
  cases lifecycle <;> decide

theorem plain_provideName (kind : ProvideKind) : Plain (lit (provideName kind)) := by
  cases kind <;> decide

theorem parseFlag_flag (invalid : String) (b : Bool) :
    PlanText.parseFlag invalid (utf8 (flag b)) = .ok b := by
  cases b <;> rfl

theorem parseKind_kindName (kind : ComponentKind) :
    PlanText.parseKind (utf8 (lit (kindName kind))) = .ok kind := by
  cases kind <;> rfl

theorem parseRestart_restartName (restart : RestartPolicy) :
    PlanText.parseRestart (utf8 (lit (restartName restart))) = .ok restart := by
  cases restart <;> rfl

theorem parseReadiness_readinessName (mode : ReadinessMode) :
    PlanText.parseReadiness (utf8 (lit (readinessName mode))) = .ok mode := by
  cases mode <;> rfl

theorem parseLifecycle_lifecycleName (lifecycle : Lifecycle) :
    PlanText.parseLifecycle (utf8 (lit (lifecycleName lifecycle))) = .ok lifecycle := by
  cases lifecycle <;> rfl

theorem parseProvideKind_provideName (kind : ProvideKind) :
    PlanText.parseProvideKind (utf8 (lit (provideName kind))) = .ok kind := by
  cases kind <;> rfl

/-! ## Hexadecimal -/

theorem hexNibble_hexDigit : ∀ d < 16, PlanText.hexNibble (hexDigit d).toUInt8 = some d := by
  decide

theorem plainChar_hexDigit : ∀ d < 16, plainChar (hexDigit d) = true := by
  decide

theorem hex_two (n : ℕ) : hex 2 n = [hexDigit (n / 16 % 16), hexDigit (n % 16)] := rfl

theorem plain_encoded (s : PyStr) : Plain (encoded s) := by
  intro c hc
  obtain ⟨b, -, hb⟩ := List.mem_flatMap.mp hc
  rw [hex_two] at hb
  rcases List.mem_pair.mp hb with rfl | rfl
  · exact plainChar_hexDigit _ (Nat.mod_lt _ (by decide))
  · exact plainChar_hexDigit _ (Nat.mod_lt _ (by decide))

theorem length_encoded (s : PyStr) : (encoded s).length = 2 * (utf8 s).length := by
  unfold encoded
  induction utf8 s with
  | nil => rfl
  | cons b data ih =>
    rw [List.flatMap_cons, List.length_append, ih, hex_two, List.length_cons]
    simp only [List.length_cons, List.length_nil]
    omega

theorem decodePairs_hex (field : String) (data : Bytes) (hnul : 0 ∉ data) :
    PlanText.decodePairs field ((data.flatMap fun b => hex 2 b.toNat).map Nat.toUInt8)
      = .ok data := by
  induction data with
  | nil => rfl
  | cons b data ih =>
    have hb : b ≠ 0 := fun h => hnul (h ▸ List.mem_cons_self)
    have hlt : b.toNat < 256 := b.toNat_lt
    have hhigh : b.toNat / 16 % 16 * 16 + b.toNat % 16 = b.toNat := by omega
    have hpos : b.toNat ≠ 0 := fun h => hb (UInt8.toNat_inj.mp h)
    rw [List.flatMap_cons, hex_two]
    simp only [List.cons_append, List.nil_append, List.map_cons, PlanText.decodePairs]
    rw [hexNibble_hexDigit _ (Nat.mod_lt _ (by decide)),
      hexNibble_hexDigit _ (Nat.mod_lt _ (by decide))]
    simp only [hhigh]
    refine bind_eq_ok.mpr ⟨(), refuse_ok ?_, bind_eq_ok.mpr ⟨data, ?_, ?_⟩⟩
    · simpa using hpos
    · exact ih fun hmem => hnul (List.mem_cons_of_mem b hmem)
    · simp [pure, Except.pure]

/-- A text that `bounded_string` lets through. -/
structure Text (maximum : ℕ) (s : PyStr) : Prop where
  scalar : ∀ c ∈ s, Scalar c
  nulFree : 0 ∉ s
  length : (utf8 s).length ≤ maximum

theorem Text.mono {maximum larger : ℕ} {s : PyStr} (h : Text maximum s) (hle : maximum ≤ larger) :
    Text larger s :=
  ⟨h.scalar, h.nulFree, h.length.trans hle⟩

theorem Text.spells {maximum : ℕ} {s : PyStr} (h : Text maximum s) : Spells s (utf8 s) :=
  ⟨h.scalar, rfl⟩

theorem Text.utf8_inj {maximum larger : ℕ} {s t : PyStr} (hs : Text maximum s)
    (ht : Text larger t) : utf8 s = utf8 t ↔ s = t :=
  hs.spells.eq_iff ht.spells

theorem utf8Char_nulFree {c : ℕ} (h : Scalar c) (hc : c ≠ 0) : 0 ∉ utf8Char c := by
  obtain ⟨hmax, -⟩ := h
  have hbyte : ∀ n : ℕ, 0 < n → n < 256 → (0 : UInt8) ≠ n.toUInt8 := by
    intro n hpos hlt heq
    have hvalue := toNat_toUInt8 hlt
    rw [← heq] at hvalue
    exact hpos.ne hvalue
  unfold utf8Char
  split_ifs
  · simpa using hbyte c (Nat.pos_of_ne_zero hc) (by omega)
  · simp only [List.mem_cons, List.not_mem_nil, or_false, not_or]
    exact ⟨hbyte _ (by omega) (by omega), hbyte _ (by omega) (by omega)⟩
  · simp only [List.mem_cons, List.not_mem_nil, or_false, not_or]
    exact ⟨hbyte _ (by omega) (by omega), hbyte _ (by omega) (by omega),
      hbyte _ (by omega) (by omega)⟩
  · simp only [List.mem_cons, List.not_mem_nil, or_false, not_or]
    exact ⟨hbyte _ (by omega) (by omega), hbyte _ (by omega) (by omega),
      hbyte _ (by omega) (by omega), hbyte _ (by omega) (by omega)⟩

theorem Text.utf8_nulFree {maximum : ℕ} {s : PyStr} (h : Text maximum s) : 0 ∉ utf8 s := by
  intro hmem
  obtain ⟨c, hc, hzero⟩ := List.mem_flatMap.mp hmem
  have hne : c ≠ 0 := fun heq => h.nulFree (heq ▸ hc)
  exact utf8Char_nulFree (h.scalar c hc) hne hzero

theorem decodeHex_encoded {s : PyStr} (h : Text 4096 s) (field : String) :
    PlanText.decodeHex (utf8 (encoded s)) field = .ok (utf8 s) := by
  have hlength : (utf8 (encoded s)).length = 2 * (utf8 s).length := by
    rw [(plain_encoded s).length_utf8, length_encoded]
  have hbound := h.length
  refine bind_eq_ok.mpr ⟨(), refuse_ok ?_, ?_⟩
  · simp only [Bool.or_eq_false_iff, bne_eq_false_iff_eq, decide_eq_false_iff_not, hlength]
    omega
  · rw [(plain_encoded s).utf8_eq]
    exact decodePairs_hex field (utf8 s) h.utf8_nulFree

/-! ## Lines -/

/-- What the parser accepts as a line. -/
structure Line (s : PyStr) : Prop where
  nonempty : s ≠ []
  chars : ∀ c ∈ s, c = 9 ∨ plainChar c = true
  length : s.length ≤ 32768

/-- A record is a line if its fields are short enough. -/
theorem line_tabbed {tag : PyStr} {fields : List PyStr} (htag : tag ≠ [])
    (hplain : ∀ field ∈ tag :: fields, Plain field)
    (hlength : (tabbed (tag :: fields)).length ≤ 32768) : Line (tabbed (tag :: fields)) where
  nonempty := by
    cases fields with
    | nil =>
      rw [tabbed_singleton]
      exact htag
    | cons field fields =>
      rw [tabbed_cons_cons]
      simp
  chars := mem_tabbed hplain
  length := hlength

namespace Line

variable {s : PyStr} (h : Line s)
include h

theorem utf8_eq : utf8 s = s.map Nat.toUInt8 := by
  apply utf8_of_ascii
  intro c hc
  rcases h.chars c hc with rfl | hplain
  · decide
  · exact (plainChar_iff.mp hplain).1

theorem not_mem {separator : UInt8} (hseparator : plainChar separator.toNat = false)
    (htab : separator ≠ 9) : separator ∉ utf8 s := by
  rw [h.utf8_eq, List.mem_map]
  rintro ⟨c, hc, rfl⟩
  rcases h.chars c hc with rfl | hplain
  · exact htab rfl
  · have hascii := (plainChar_iff.mp hplain).1
    rw [toNat_toUInt8 (by omega), hplain] at hseparator
    cases hseparator

theorem checkLine : PlanText.checkLine (utf8 s) = .ok () := by
  have hlength : (utf8 s).length = s.length := by rw [h.utf8_eq, List.length_map]
  have hreturn : (13 : UInt8) ∉ utf8 s := h.not_mem rfl (by decide)
  have hbound := h.length
  refine bind_eq_ok.mpr ⟨(), refuse_ok ?_, bind_eq_ok.mpr ⟨(), refuse_ok ?_, refuse_ok ?_⟩⟩
  · simp only [decide_eq_false_iff_not, PlanText.maxLineBytes, hlength]
    omega
  · simpa using hreturn
  · simpa [h.utf8_eq] using h.nonempty

end Line

theorem readRecords_stream (lines : List Bytes) (h : ∀ line ∈ lines, 10 ∉ line) :
    Records.readRecords 10 [] (Records.stream 10 lines) = (lines, []) := by
  induction lines with
  | nil => rfl
  | cons line lines ih =>
    obtain ⟨hline, hlines⟩ := List.forall_mem_cons.mp h
    rw [Records.stream_cons, Records.readRecords_append hline, ih hlines, List.nil_append]

theorem utf8_joined {lines : List PyStr} (h : lines ≠ []) :
    utf8 ((lit "\n").intercalate lines ++ lit "\n") = Records.stream 10 (lines.map utf8) := by
  induction lines with
  | nil => exact absurd rfl h
  | cons line lines ih =>
    cases lines with
    | nil =>
      rw [List.intercalate_singleton, utf8_append]
      simp [Records.stream, Records.frame]
      rfl
    | cons next lines =>
      have hnewline : utf8 (lit "\n") = [10] := rfl
      rw [List.intercalate_cons_cons, List.append_assoc, utf8_append, ih (List.cons_ne_nil _ _),
        utf8_append, hnewline]
      simp [Records.stream_cons]

/-- The lines that are written are the lines that are read. -/
theorem splitLines_joined {lines : List PyStr} (hlines : lines ≠ [])
    (h : ∀ line ∈ lines, Line line) :
    PlanText.splitLines (utf8 ((lit "\n").intercalate lines ++ lit "\n"))
      = .ok (lines.map utf8) := by
  have hnewline : ∀ line ∈ lines.map utf8, (10 : UInt8) ∉ line := by
    intro line hline
    obtain ⟨s, hs, rfl⟩ := List.mem_map.mp hline
    exact (h s hs).not_mem rfl (by decide)
  unfold PlanText.splitLines
  rw [utf8_joined hlines, readRecords_stream _ hnewline]
  refine bind_eq_ok.mpr ⟨(), ?_, bind_eq_ok.mpr ⟨(), refuse_ok ?_, rfl⟩⟩
  · apply forM_eq_ok.mpr
    intro line hline
    obtain ⟨s, hs, rfl⟩ := List.mem_map.mp hline
    exact (h s hs).checkLine
  · simpa using hlines

end MsysCore.Native.PlanSource
