import MsysCore.Core.LocaleTags

/-!
# Subtags and their spelling

What the loop of the daemon and the three stages of the catalog reader make of the same subtags.
No spelling of a subtag of one kind is a subtag of another, so the daemon accepts a tag exactly
when the stages would, but for Kelvin signs in a variant.
-/

namespace MsysCore.Core.Locale

open Python

/-! ## Canonical subtags -/

def isTagChar (c : ℕ) : Bool := isAsciiLetter c || isAsciiDigit c

theorem lt_of_tagChar {c : ℕ} (h : isTagChar c = true) : c < 128 := by
  simp only [isTagChar, isAsciiLetter, isAsciiLower, isAsciiUpper, isAsciiDigit, Bool.or_eq_true,
    Bool.and_eq_true, decide_eq_true_eq] at h
  omega

theorem tagChar_of_lower {c : ℕ} (h : isAsciiLower c = true) : isTagChar c = true := by
  simp [isTagChar, isAsciiLetter, h]

theorem tagChar_of_upper {c : ℕ} (h : isAsciiUpper c = true) : isTagChar c = true := by
  simp [isTagChar, isAsciiLetter, h]

theorem tagChar_of_digit {c : ℕ} (h : isAsciiDigit c = true) : isTagChar c = true := by
  simp [isTagChar, h]

theorem isLanguage_chars {p : PyStr} (h : isLanguage p = true) :
    2 ≤ p.length ∧ p.length ≤ 8 ∧ ∀ c ∈ p, isAsciiLower c = true := by
  simpa [isLanguage, and_assoc] using h

theorem isScript_cons {p : PyStr} (h : isScript p = true) :
    ∃ c rest, p = c :: rest ∧ rest.length = 3 ∧ isAsciiUpper c = true ∧
      ∀ x ∈ rest, isAsciiLower x = true := by
  cases p with
  | nil => simp [isScript] at h
  | cons c rest =>
    refine ⟨c, rest, rfl, ?_⟩
    simpa [isScript, and_assoc] using h

theorem isRegion_cases {p : PyStr} (h : isRegion p = true) :
    p.length = 2 ∧ (∀ c ∈ p, isAsciiUpper c = true) ∨
      p.length = 3 ∧ ∀ c ∈ p, isAsciiDigit c = true := by
  simpa [isRegion] using h

/-- The lengths of a variant; a short one begins with a digit. -/
def VariantShape (p : PyStr) : Prop :=
  (5 ≤ p.length ∧ p.length ≤ 8) ∨ (p.length = 4 ∧ ∃ c ∈ p.head?, isAsciiDigit c = true)

theorem isVariantTag_iff {p : PyStr} :
    isVariantTag p = true ↔
      VariantShape p ∧ ∀ c ∈ p, isAsciiLower c = true ∨ isAsciiDigit c = true := by
  unfold isVariantTag VariantShape
  cases p.head? <;> simp

/-- Every character of a canonical subtag is a letter or a digit of ASCII. -/
theorem tagChar_of_afterScript {parts : List PyStr} (h : afterScript parts = true) :
    ∀ p ∈ parts, ∀ c ∈ p, isTagChar c = true := by
  have hvariant : ∀ p, isVariantTag p = true → ∀ c ∈ p, isTagChar c = true := by
    intro p hp c hc
    exact ((isVariantTag_iff.mp hp).2 c hc).elim tagChar_of_lower tagChar_of_digit
  cases parts with
  | nil => simp
  | cons p ps =>
    rw [afterScript] at h
    split_ifs at h with hregion
    · refine List.forall_mem_cons.mpr ⟨fun c hc => ?_, fun q hq =>
        hvariant q (List.all_eq_true.mp h q hq)⟩
      rcases isRegion_cases hregion with ⟨-, hall⟩ | ⟨-, hall⟩
      · exact tagChar_of_upper (hall c hc)
      · exact tagChar_of_digit (hall c hc)
    · exact fun q hq => hvariant q (List.all_eq_true.mp h q hq)

theorem tagChar_of_afterLanguage {parts : List PyStr} (h : afterLanguage parts = true) :
    ∀ p ∈ parts, ∀ c ∈ p, isTagChar c = true := by
  cases parts with
  | nil => simp
  | cons p ps =>
    rw [afterLanguage] at h
    split_ifs at h with hscript
    · refine List.forall_mem_cons.mpr ⟨fun c hc => ?_, tagChar_of_afterScript h⟩
      obtain ⟨d, rest, rfl, -, hd, hrest⟩ := isScript_cons hscript
      rcases List.mem_cons.mp hc with rfl | hc
      · exact tagChar_of_upper hd
      · exact tagChar_of_lower (hrest c hc)
    · exact tagChar_of_afterScript h

/-! ## Respelling -/

section

variable {u : Unicode}

/-- A variant as the daemon reads it: letters and digits of ASCII, and Kelvin signs. -/
def VariantLike (p : PyStr) : Prop :=
  VariantShape p ∧ ∀ c ∈ p, isTagChar c = true ∨ c = kelvin

theorem foldLower_variant_iff {c : ℕ} (h : Folds c) :
    isAsciiLower (foldLower c) = true ∨ isAsciiDigit (foldLower c) = true ↔
      isTagChar c = true ∨ c = kelvin := by
  by_cases hk : c = kelvin
  · subst hk
    exact iff_of_true (.inl (by decide)) (.inr rfl)
  · have hc : c < 128 := h.resolve_right hk
    simp only [foldLower, hk, or_false, if_false, isTagChar, isAsciiLetter, asciiLower,
      isAsciiLower, isAsciiUpper, isAsciiDigit, Bool.or_eq_true, Bool.and_eq_true,
      decide_eq_true_eq]
    split_ifs <;> omega

theorem foldLower_digit_iff {c : ℕ} (h : Folds c) :
    isAsciiDigit (foldLower c) = true ↔ isAsciiDigit c = true := by
  by_cases hk : c = kelvin
  · subst hk
    decide
  · simp only [foldLower, if_neg hk, asciiLower, isAsciiUpper, isAsciiDigit, Bool.and_eq_true,
      decide_eq_true_eq]
    split_ifs <;> omega

/-- The lower case of a subtag is a variant exactly for what looks like one. -/
theorem isVariantTag_lowerStr (p : PyStr) :
    isVariantTag (u.lowerStr p) = true ↔ VariantLike p := by
  rw [isVariantTag_iff]
  by_cases hfolds : ∀ c ∈ p, Folds c
  · rw [Unicode.lowerStr_of_folds hfolds, VariantLike]
    refine and_congr ?_ ?_
    · unfold VariantShape
      rw [List.length_map, List.head?_map]
      refine or_congr_right (and_congr_right fun _ => ?_)
      cases p with
      | nil => simp
      | cons c rest => simpa using foldLower_digit_iff (hfolds c (by simp))
    · rw [List.forall_mem_map]
      exact forall₂_congr fun c hc => foldLower_variant_iff (hfolds c hc)
  · refine iff_of_false (fun h => hfolds ?_) fun h => hfolds fun c hc => ?_
    · refine Unicode.folds_of_lowerStr (u := u) fun x hx => ?_
      exact lt_of_tagChar ((h.2 x hx).elim tagChar_of_lower tagChar_of_digit)
    · exact (h.2 c hc).imp_left lt_of_tagChar

theorem isVariantTag_upperStr {p : PyStr} (h : regionLike u p = true) :
    isVariantTag (u.upperStr p) = false := by
  by_contra hvariant
  obtain ⟨hshape, hall⟩ := isVariantTag_iff.mp (by simpa using hvariant)
  simp only [regionLike, Bool.or_eq_true, Bool.and_eq_true, decide_eq_true_eq] at h
  rcases h with ⟨hlength, halpha⟩ | ⟨hlength, hdigit⟩
  · obtain ⟨hne, hletters⟩ := Bool.and_eq_true_iff.mp halpha
    cases p with
    | nil => cases hne
    | cons c rest =>
      have hc : u.alpha c = true := List.all_eq_true.mp hletters c (by simp)
      cases hupper : u.upper c with
      | nil => exact u.upper_nonempty c hupper
      | cons x xs =>
        have hx : x ∈ u.upperStr (c :: rest) :=
          List.mem_flatMap.mpr ⟨c, by simp, by simp [hupper]⟩
        have hdigit : isAsciiDigit x = true := by
          refine (hall x hx).resolve_left ?_
          rw [Unicode.upperStr_no_lower hx]
          exact Bool.false_ne_true
        by_cases hascii : c < 128
        · rw [u.upper_ascii c hascii] at hupper
          obtain ⟨rfl, -⟩ := List.cons.inj hupper
          rw [u.alpha_ascii c hascii] at hc
          simp only [isAsciiLetter, isAsciiLower, isAsciiUpper, isAsciiDigit, asciiUpper,
            Bool.or_eq_true, Bool.and_eq_true, decide_eq_true_eq] at hc hdigit
          split_ifs at hdigit <;> omega
        · simp only [isAsciiDigit, Bool.and_eq_true, decide_eq_true_eq] at hdigit
          have hletter := u.upper_letter c (by omega) x (by simp [hupper]) (by omega)
          simp only [isAsciiUpper, Bool.and_eq_true, decide_eq_true_eq] at hletter
          omega
  · rw [Unicode.upperStr_digits hdigit] at hshape
    unfold VariantShape at hshape
    omega

/-- Only a region has a lower case that is a region: three digits. -/
theorem isRegion_lowerStr {p : PyStr} (h : regionLike u p = false) :
    isRegion (u.lowerStr p) = false := by
  by_contra hregion
  rcases isRegion_cases (by simpa using hregion) with ⟨hlength, hall⟩ | ⟨hlength, hall⟩
  · cases hlower : u.lowerStr p with
    | nil => simp [hlower] at hlength
    | cons x xs =>
      have hx : x ∈ u.lowerStr p := by simp [hlower]
      have hupper := hall x hx
      rw [Unicode.lowerFrom_no_upper hx] at hupper
      cases hupper
  · have hfolds : ∀ c ∈ p, Folds c := by
      refine Unicode.folds_of_lowerStr (u := u) fun x hx => ?_
      exact lt_of_tagChar (tagChar_of_digit (hall x hx))
    rw [Unicode.lowerStr_of_folds hfolds, List.length_map] at hlength
    rw [Unicode.lowerStr_of_folds hfolds, List.forall_mem_map] at hall
    have hdigits : u.isDigit p = true := by
      refine Bool.and_eq_true_iff.mpr ⟨?_, List.all_eq_true.mpr fun c hc => ?_⟩
      · cases p with
        | nil => cases hlength
        | cons c rest => rfl
      · have hdigit := (foldLower_digit_iff (hfolds c hc)).mp (hall c hc)
        rwa [u.digit_ascii c (lt_of_tagChar (tagChar_of_digit hdigit))]
    simp [regionLike, hlength, hdigits] at h

theorem isRegion_titleStr {p : PyStr} (h : scriptLike u p = true) :
    isRegion (u.titleStr p) = false := by
  have hlength : 4 ≤ (u.titleStr p).length := by
    have hle := Unicode.length_titleFrom (u := u) p [] false
    simp only [scriptLike, Bool.and_eq_true, decide_eq_true_eq] at h
    rw [h.1] at hle
    exact hle
  by_contra hregion
  rcases isRegion_cases (by simpa using hregion) with ⟨hshort, -⟩ | ⟨hshort, -⟩ <;> omega

theorem isVariantTag_titleStr {p : PyStr} (h : scriptLike u p = true) :
    isVariantTag (u.titleStr p) = false := by
  obtain ⟨x, hx, hlower, hdigit⟩ := Unicode.titleStr_head (Bool.and_eq_true_iff.mp h).2
  by_contra hvariant
  have hx' := (isVariantTag_iff.mp (by simpa using hvariant)).2 x hx
  rw [hlower, hdigit] at hx'
  exact hx'.elim Bool.false_ne_true Bool.false_ne_true

/-- A part that is no script, as the daemon spells it at any place. -/
def respelled (u : Unicode) (p : PyStr) : PyStr :=
  if regionLike u p then u.upperStr p else u.lowerStr p

theorem respell_eq {index : ℕ} {p : PyStr} (h : index ≠ 1 ∨ scriptLike u p = false) :
    respell u index p = respelled u p := by
  have hscript : (index = 1 && p.length = 4 && u.isAlpha p) = false := by
    rcases h with h | h
    · simp [h]
    · rw [Bool.and_assoc]
      simp only [scriptLike] at h
      rw [h, Bool.and_false]
  unfold respell respelled regionLike
  rw [hscript]
  by_cases halpha : (p.length = 2 && u.isAlpha p) = true
  · simp [halpha]
  · by_cases hdigit : (p.length = 3 && u.isDigit p) = true
    · have hsame := Unicode.upperStr_digits (Bool.and_eq_true_iff.mp hdigit).2
      simp [halpha, hdigit, hsame]
    · simp [halpha, hdigit]

theorem respell_script {p : PyStr} (h : scriptLike u p = true) :
    respell u 1 p = u.titleStr p := by
  simp only [scriptLike, Bool.and_eq_true, decide_eq_true_eq] at h
  simp [respell, h.1, h.2]

theorem isScript_respelled (p : PyStr) : isScript (respelled u p) = false := by
  by_contra hscript
  obtain ⟨c, rest, heq, hlength, hupper, hlower⟩ := isScript_cons (by simpa using hscript)
  unfold respelled at heq
  split_ifs at heq
  · cases rest with
    | nil => cases hlength
    | cons d rest =>
      have hd := hlower d (by simp)
      rw [Unicode.upperStr_no_lower (heq ▸ (by simp : d ∈ c :: d :: rest))] at hd
      cases hd
  · rw [Unicode.lowerFrom_no_upper (heq ▸ (by simp : c ∈ c :: rest))] at hupper
    cases hupper

theorem isVariantTag_respelled (p : PyStr) :
    isVariantTag (respelled u p) = true ↔ VariantLike p := by
  unfold respelled
  split_ifs with hregion
  · refine iff_of_false (by simp [isVariantTag_upperStr hregion]) fun hvariant => ?_
    have hshape := hvariant.1
    unfold VariantShape at hshape
    simp only [regionLike, Bool.or_eq_true, Bool.and_eq_true, decide_eq_true_eq] at hregion
    omega
  · exact isVariantTag_lowerStr p

/-! ## The daemon's reader -/

theorem not_regionLike_of_variant {p : PyStr} (h : VariantLike p) : regionLike u p = false := by
  have hshape := h.1
  unfold VariantShape at hshape
  have htwo : p.length ≠ 2 := by omega
  have hthree : p.length ≠ 3 := by omega
  simp [regionLike, htwo, hthree]

theorem respelled_of_variant {p : PyStr} (h : VariantLike p) : respelled u p = u.lowerStr p := by
  rw [respelled, not_regionLike_of_variant h]
  rfl

theorem isAlnum_of_variant {p : PyStr} (h : VariantLike p) : u.isAlnum p = true := by
  refine Bool.and_eq_true_iff.mpr ⟨?_, List.all_eq_true.mpr fun c hc => ?_⟩
  · have hshape := h.1
    unfold VariantShape at hshape
    cases p with
    | nil => simp at hshape
    | cons c rest => rfl
  · rcases h.2 c hc with htag | rfl
    · rw [u.alnum_ascii c (lt_of_tagChar htag)]
      exact htag
    · exact u.alnum_of_alpha kelvin u.alpha_kelvin

/-- The subtags after the language, split as `_normalized_locale` does. -/
def script (u : Unicode) (rest : List PyStr) : List PyStr := (takeIf (scriptLike u) rest).1

def afterScriptLike (u : Unicode) (rest : List PyStr) : List PyStr :=
  (takeIf (scriptLike u) rest).2

def region (u : Unicode) (rest : List PyStr) : List PyStr :=
  (takeIf (regionLike u) (afterScriptLike u rest)).1

def variants (u : Unicode) (rest : List PyStr) : List PyStr :=
  (takeIf (regionLike u) (afterScriptLike u rest)).2

theorem afterScript_respelled (parts : List PyStr) :
    afterScript (parts.map (respelled u)) = true ↔
      (∀ p ∈ (takeIf (regionLike u) parts).1, isRegion (u.upperStr p) = true) ∧
        ∀ p ∈ (takeIf (regionLike u) parts).2, VariantLike p := by
  have hvariants : ∀ ps : List PyStr,
      (ps.map (respelled u)).all isVariantTag = true ↔ ∀ p ∈ ps, VariantLike p := by
    intro ps
    rw [List.all_eq_true, List.forall_mem_map]
    exact forall₂_congr fun p _ => isVariantTag_respelled p
  cases parts with
  | nil => simp [afterScript, takeIf]
  | cons p ps =>
    rw [List.map_cons, afterScript, takeIf]
    cases hregion : regionLike u p with
    | true =>
      have hspelled : respelled u p = u.upperStr p := if_pos hregion
      rw [hspelled]
      by_cases hupper : isRegion (u.upperStr p) = true
      · simpa [hupper] using hvariants ps
      · simp [hupper, isVariantTag_upperStr hregion]
    | false =>
      have hspelled : respelled u p = u.lowerStr p := if_neg (by simp [hregion])
      rw [if_neg (by rw [hspelled, isRegion_lowerStr hregion]; exact Bool.false_ne_true),
        ← List.map_cons, hvariants]
      simp

/-- The daemon's spelling of the subtags after the language. -/
def respelledRest (u : Unicode) : List PyStr → List PyStr
  | [] => []
  | p :: ps => respell u 1 p :: ps.map (respelled u)

theorem afterLanguage_respelledRest (rest : List PyStr) :
    afterLanguage (respelledRest u rest) = true ↔
      (∀ p ∈ script u rest, isScript (u.titleStr p) = true) ∧
        (∀ p ∈ region u rest, isRegion (u.upperStr p) = true) ∧
          ∀ p ∈ variants u rest, VariantLike p := by
  unfold script region variants afterScriptLike
  cases rest with
  | nil => simp [respelledRest, afterLanguage, takeIf]
  | cons p ps =>
    rw [respelledRest, afterLanguage]
    cases hscript : scriptLike u p with
    | true =>
      have hzones : takeIf (scriptLike u) (p :: ps) = ([p], ps) := if_pos hscript
      rw [respell_script hscript, hzones]
      split_ifs with htitle
      · simpa [htitle] using afterScript_respelled ps
      · refine iff_of_false (fun hafter => ?_) fun h => htitle (h.1 p (by simp))
        rw [afterScript, isRegion_titleStr hscript, List.all_cons,
          isVariantTag_titleStr hscript] at hafter
        exact absurd hafter Bool.false_ne_true
    | false =>
      have hzones : takeIf (scriptLike u) (p :: ps) = ([], p :: ps) :=
        if_neg (by simp [hscript])
      rw [respell_eq (.inr hscript), hzones,
        if_neg (by rw [isScript_respelled]; exact Bool.false_ne_true), ← List.map_cons,
        afterScript_respelled]
      simp

theorem respellAll_after {index : ℕ} (h : index ≠ 1) (hpos : index ≠ 0) (parts : List PyStr) :
    respellAll u index parts =
      if parts.all u.isAlnum then some (parts.map (respelled u)) else none := by
  induction parts generalizing index with
  | nil => rfl
  | cons p ps ih =>
    rw [respellAll, ih (by omega) (by omega), respell_eq (.inl h), List.all_cons]
    cases u.isAlnum p <;> cases ps.all u.isAlnum <;> rfl

theorem respellAll_one (rest : List PyStr) :
    respellAll u 1 rest = if rest.all u.isAlnum then some (respelledRest u rest) else none := by
  cases rest with
  | nil => rfl
  | cons p ps =>
    rw [respellAll, respellAll_after (by omega) (by omega), List.all_cons]
    cases u.isAlnum p <;> cases ps.all u.isAlnum <;> rfl

/-- What the two readers take for a tag, up to the case of its letters. -/
def TagLike (u : Unicode) : List PyStr → Prop
  | [] => False
  | language :: rest =>
    isLanguageLike u language = true ∧ isLanguage (u.lowerStr language) = true ∧
      (∀ p ∈ script u rest, isScript (u.titleStr p) = true) ∧
        (∀ p ∈ region u rest, isRegion (u.upperStr p) = true) ∧
          ∀ p ∈ variants u rest, VariantLike p

theorem takeIf_append (test : PyStr → Bool) (parts : List PyStr) :
    (takeIf test parts).1 ++ (takeIf test parts).2 = parts := by
  cases parts with
  | nil => rfl
  | cons p ps =>
    rw [takeIf]
    split_ifs <;> rfl

theorem takeIf_test {test : PyStr → Bool} {parts : List PyStr} {p : PyStr}
    (h : p ∈ (takeIf test parts).1) : test p = true := by
  cases parts with
  | nil => cases h
  | cons q qs =>
    rw [takeIf] at h
    split_ifs at h with htest
    · rwa [List.mem_singleton.mp h]
    · cases h

theorem zones_append (rest : List PyStr) :
    script u rest ++ (region u rest ++ variants u rest) = rest := by
  unfold region variants
  rw [takeIf_append]
  exact takeIf_append (scriptLike u) rest

theorem isAlnum_of_script {rest : List PyStr} {p : PyStr} (h : p ∈ script u rest) :
    u.isAlnum p = true :=
  Unicode.isAlnum_of_isAlpha (Bool.and_eq_true_iff.mp (takeIf_test h)).2

theorem isAlnum_of_region {rest : List PyStr} {p : PyStr} (h : p ∈ region u rest) :
    u.isAlnum p = true := by
  rcases Bool.or_eq_true_iff.mp (takeIf_test h) with hregion | hregion
  · exact Unicode.isAlnum_of_isAlpha (Bool.and_eq_true_iff.mp hregion).2
  · exact Unicode.isAlnum_of_isDigit (Bool.and_eq_true_iff.mp hregion).2

theorem isAlnum_of_zones {rest : List PyStr} (h : ∀ p ∈ variants u rest, u.isAlnum p = true) :
    rest.all u.isAlnum = true := by
  refine List.all_eq_true.mpr fun p hp => ?_
  rw [← zones_append (u := u) rest, List.mem_append, List.mem_append] at hp
  rcases hp with hp | hp | hp
  · exact isAlnum_of_script hp
  · exact isAlnum_of_region hp
  · exact h p hp

theorem isAlnum_rest {language : PyStr} {rest : List PyStr} (h : TagLike u (language :: rest)) :
    rest.all u.isAlnum = true :=
  isAlnum_of_zones fun p hp => isAlnum_of_variant (h.2.2.2.2 p hp)

theorem isAlnum_language {p : PyStr} (h : isLanguageLike u p = true) : u.isAlnum p = true := by
  simp only [isLanguageLike, Bool.and_eq_true] at h
  exact Unicode.isAlnum_of_isAlpha h.1.1

theorem splitOn_intercalate {parts : List PyStr} (hne : parts ≠ [])
    (h : ∀ p ∈ parts, 45 ∉ p) : ([45].intercalate parts).splitOn 45 = parts :=
  List.splitOn_intercalate 45 h hne

theorem checked_eq_some {parts : List PyStr} {t : PyStr} (hne : parts ≠ [])
    (h : ∀ p ∈ parts, 45 ∉ p) :
    checked parts = some t ↔ isCanonicalTag parts = true ∧ t = [45].intercalate parts := by
  unfold checked canonicalLocale
  simp only [splitOn_intercalate hne h, Option.ite_none_right_eq_some, Option.some.injEq]
  exact and_congr_right fun _ => eq_comm

theorem hyphen_not_mem_respell {index : ℕ} {p : PyStr} (h : u.isAlnum p = true) :
    45 ∉ respell u index p := by
  unfold respell
  split_ifs
  · exact Unicode.hyphen_not_mem_titleStr h
  · exact Unicode.hyphen_not_mem_upperStr h
  · exact Unicode.hyphen_not_mem h
  · exact Unicode.hyphen_not_mem_lowerStr h

theorem hyphen_not_mem_respelled {p : PyStr} (h : u.isAlnum p = true) : 45 ∉ respelled u p := by
  unfold respelled
  split_ifs
  · exact Unicode.hyphen_not_mem_upperStr h
  · exact Unicode.hyphen_not_mem_lowerStr h

/-- What the daemon makes of the subtags. -/
def spelled (u : Unicode) (language : PyStr) (rest : List PyStr) : List PyStr :=
  u.lowerStr language :: respelledRest u rest

theorem hyphen_not_mem_spelled {language : PyStr} {rest : List PyStr}
    (hlanguage : u.isAlnum language = true) (hrest : rest.all u.isAlnum = true) :
    ∀ p ∈ spelled u language rest, 45 ∉ p := by
  refine List.forall_mem_cons.mpr ⟨Unicode.hyphen_not_mem_lowerStr hlanguage, ?_⟩
  cases rest with
  | nil => simp [respelledRest]
  | cons p ps =>
    rw [List.all_cons, Bool.and_eq_true] at hrest
    refine List.forall_mem_cons.mpr ⟨hyphen_not_mem_respell hrest.1, ?_⟩
    rw [List.forall_mem_map]
    exact fun q hq => hyphen_not_mem_respelled (List.all_eq_true.mp hrest.2 q hq)

/-- The daemon accepts what looks like a tag, and spells it out. -/
theorem canonicalMsys_eq_some {language : PyStr} {rest : List PyStr} {t : PyStr} :
    canonicalMsys u (language :: rest) = some t ↔
      TagLike u (language :: rest) ∧ t = [45].intercalate (spelled u language rest) := by
  by_cases hlike : isLanguageLike u language = true
  · by_cases hrest : rest.all u.isAlnum = true
    · rw [canonicalMsys, if_pos hlike, respellAll_one, if_pos hrest, Option.bind_some]
      have hhyphen := hyphen_not_mem_spelled (isAlnum_language hlike) hrest
      rw [spelled] at hhyphen
      rw [checked_eq_some (List.cons_ne_nil _ _) hhyphen, spelled, isCanonicalTag,
        Bool.and_eq_true, afterLanguage_respelledRest]
      simp [TagLike, hlike]
    · rw [canonicalMsys, if_pos hlike, respellAll_one, if_neg hrest, Option.bind_none]
      exact iff_of_false (by simp) fun h => hrest (isAlnum_rest h.1)
  · rw [canonicalMsys, if_neg hlike]
    exact iff_of_false (by simp) fun h => hlike h.1.1

/-! ## The catalog reader -/

theorem isVariant_iff {p : PyStr} : isVariant u p = true ↔ VariantLike p ∧ kelvin ∉ p := by
  unfold isVariant VariantLike VariantShape
  constructor
  · intro h
    simp only [Bool.and_eq_true, List.all_eq_true, decide_eq_true_eq] at h
    obtain ⟨⟨hascii, halnum⟩, hlengths⟩ := h
    have htag : ∀ c ∈ p, isTagChar c = true := by
      intro c hc
      have hmem := Unicode.alnum_of_mem halnum hc
      rwa [u.alnum_ascii c (hascii c hc)] at hmem
    refine ⟨⟨?_, fun c hc => .inl (htag c hc)⟩, fun hmem => ?_⟩
    · cases p with
      | nil => simp at hlengths
      | cons c rest =>
        simpa [u.digit_ascii c (hascii c (by simp))] using hlengths
    · exact absurd (hascii kelvin hmem) (by decide)
  · rintro ⟨hlike, hkelvin⟩
    have hascii : ∀ c ∈ p, c < 128 := by
      intro c hc
      refine lt_of_tagChar ((hlike.2 c hc).resolve_right ?_)
      rintro rfl
      exact hkelvin hc
    have halnum : u.isAlnum p = true := isAlnum_of_variant hlike
    simp only [Bool.and_eq_true, List.all_eq_true, decide_eq_true_eq]
    refine ⟨⟨hascii, halnum⟩, ?_⟩
    cases p with
    | nil => simp at hlike
    | cons c rest =>
      simpa [u.digit_ascii c (hascii c (by simp))] using hlike.1

/-- Where the last loop of the catalog reader passes, both spell the subtags alike. -/
theorem respelledRest_eq {rest : List PyStr} (h : ∀ p ∈ variants u rest, VariantLike p) :
    respelledRest u rest =
      (script u rest).map u.titleStr ++ (region u rest).map u.upperStr ++
        (variants u rest).map u.lowerStr := by
  have hafter : ∀ parts : List PyStr, (∀ p ∈ (takeIf (regionLike u) parts).2, VariantLike p) →
      parts.map (respelled u) = (takeIf (regionLike u) parts).1.map u.upperStr ++
        (takeIf (regionLike u) parts).2.map u.lowerStr := by
    intro parts hlike
    conv_lhs => rw [← takeIf_append (regionLike u) parts, List.map_append]
    refine congrArg₂ _ (List.map_congr_left fun p hp => ?_) (List.map_congr_left fun p hp => ?_)
    · exact if_pos (takeIf_test hp)
    · exact respelled_of_variant (hlike p hp)
  unfold variants region script afterScriptLike at *
  cases rest with
  | nil => rfl
  | cons p ps =>
    cases hscript : scriptLike u p with
    | true =>
      have hzones : takeIf (scriptLike u) (p :: ps) = ([p], ps) := if_pos hscript
      rw [hzones] at h ⊢
      rw [respelledRest, respell_script hscript, hafter ps h]
      rfl
    | false =>
      have hzones : takeIf (scriptLike u) (p :: ps) = ([], p :: ps) :=
        if_neg (by simp [hscript])
      rw [hzones] at h ⊢
      rw [respelledRest, respell_eq (.inr hscript), ← List.map_cons, hafter (p :: ps) h]
      rfl

theorem canonicalPresentation_eq (language : PyStr) (rest : List PyStr) :
    canonicalPresentation u (language :: rest) =
      if (variants u rest).all (isVariant u) then canonicalMsys u (language :: rest)
      else none := by
  by_cases hvariants : (variants u rest).all (isVariant u) = true
  · have hlike : ∀ p ∈ variants u rest, VariantLike p := fun p hp =>
      (isVariant_iff.mp (List.all_eq_true.mp hvariants p hp)).1
    have hrest : rest.all u.isAlnum = true :=
      isAlnum_of_zones fun p hp => isAlnum_of_variant (hlike p hp)
    rw [if_pos hvariants, canonicalMsys, respellAll_one, if_pos hrest, Option.bind_some,
      respelledRest_eq hlike]
    exact if_congr Iff.rfl (if_pos hvariants) rfl
  · rw [if_neg hvariants, canonicalPresentation]
    split_ifs with hlanguage
    · exact if_neg hvariants
    · rfl

end

end MsysCore.Core.Locale
