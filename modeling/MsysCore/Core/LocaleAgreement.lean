import Mathlib.Data.List.TakeWhile
import MsysCore.Core.LocaleSubtags

/-!
# Agreement of the locale readers

The readers agree on every text but two kinds: a POSIX locale with a suffix, which the daemon
takes for a language, and a tag with a Kelvin sign in a variant, which only the catalog reader
refuses. What they accept otherwise is a fixed point of both.
-/

namespace MsysCore.Core.Locale

open Python

section

variable {u : Unicode}

/-! ## Fixed points -/

theorem mem_intercalate {parts : List PyStr} {c : ℕ} (h : c ∈ [45].intercalate parts) :
    c = 45 ∨ ∃ p ∈ parts, c ∈ p := by
  induction parts with
  | nil => cases h
  | cons p ps ih =>
    cases ps with
    | nil =>
      rw [List.intercalate_singleton] at h
      exact .inr ⟨p, by simp, h⟩
    | cons q qs =>
      rw [List.intercalate_cons_cons] at h
      rcases List.mem_append.mp h with hp | hq
      · rcases List.mem_append.mp hp with hp | hp
        · exact .inr ⟨p, by simp, hp⟩
        · exact .inl (List.mem_singleton.mp hp)
      · rcases ih hq with hhyphen | ⟨r, hr, hmem⟩
        · exact .inl hhyphen
        · exact .inr ⟨r, List.mem_cons_of_mem p hr, hmem⟩

theorem map_self {α : Type} {f : α → α} {l : List α} (h : ∀ x ∈ l, f x = x) : l.map f = l :=
  (List.map_congr_left h).trans (List.map_id' l)

theorem foldLower_self {c : ℕ} (h : isAsciiLower c = true ∨ isAsciiDigit c = true) :
    Folds c ∧ foldLower c = c := by
  simp only [isAsciiLower, isAsciiDigit, Bool.and_eq_true, decide_eq_true_eq] at h
  have hkelvin : c ≠ kelvin := by
    rw [kelvin]
    omega
  refine ⟨.inl (by omega), ?_⟩
  rw [foldLower, if_neg hkelvin, asciiLower, if_neg]
  simp only [isAsciiUpper, Bool.and_eq_true, decide_eq_true_eq]
  omega

theorem lowerStr_self {p : PyStr} (h : ∀ c ∈ p, isAsciiLower c = true ∨ isAsciiDigit c = true) :
    u.lowerStr p = p := by
  rw [Unicode.lowerStr_of_folds fun c hc => (foldLower_self (h c hc)).1]
  exact map_self fun c hc => (foldLower_self (h c hc)).2

theorem asciiUpper_self {c : ℕ} (h : isAsciiUpper c = true) : c < 128 ∧ asciiUpper c = c := by
  simp only [isAsciiUpper, Bool.and_eq_true, decide_eq_true_eq] at h
  refine ⟨by omega, ?_⟩
  rw [asciiUpper, if_neg]
  simp only [isAsciiLower, Bool.and_eq_true, decide_eq_true_eq]
  omega

theorem isAlpha_of_letters {p : PyStr} (hne : p ≠ [])
    (h : ∀ c ∈ p, isAsciiLetter c = true) : u.isAlpha p = true := by
  refine Bool.and_eq_true_iff.mpr ⟨by cases p <;> simp at hne ⊢, List.all_eq_true.mpr ?_⟩
  intro c hc
  have hletter := h c hc
  have hlt : c < 128 := lt_of_tagChar (by rw [isTagChar, hletter, Bool.true_or])
  rwa [u.alpha_ascii c hlt]

theorem titleFrom_lower {s : PyStr} (h : ∀ c ∈ s, isAsciiLower c = true) (before : PyStr) :
    u.titleFrom before true s = s := by
  induction s generalizing before with
  | nil => rfl
  | cons c s ih =>
    obtain ⟨hc, hs⟩ := List.forall_mem_cons.mp h
    obtain ⟨hfolds, hself⟩ := foldLower_self (.inl hc)
    have hcased : u.cased c = true := by
      rw [u.cased_ascii c (lt_of_tagChar (tagChar_of_lower hc)), isAsciiLetter, hc, Bool.true_or]
    rw [Unicode.titleFrom, if_pos rfl, Unicode.lowerChar_of_folds hfolds, hself, hcased, ih hs]
    rfl

theorem titleStr_self {p : PyStr} (h : isScript p = true) : u.titleStr p = p := by
  obtain ⟨c, rest, rfl, -, hc, hrest⟩ := isScript_cons h
  obtain ⟨hlt, hself⟩ := asciiUpper_self hc
  have hcased : u.cased c = true := by
    rw [u.cased_ascii c hlt, isAsciiLetter, hc, Bool.or_true]
  rw [Unicode.titleStr, Unicode.titleFrom, if_neg Bool.false_ne_true, u.title_ascii c hlt, hself,
    hcased, titleFrom_lower hrest]
  rfl

theorem scriptLike_of_script {p : PyStr} (h : isScript p = true) : scriptLike u p = true := by
  obtain ⟨c, rest, rfl, hlength, hc, hrest⟩ := isScript_cons h
  have halpha : u.isAlpha (c :: rest) = true := by
    refine isAlpha_of_letters (List.cons_ne_nil _ _) (List.forall_mem_cons.mpr ⟨?_, ?_⟩)
    · rw [isAsciiLetter, hc, Bool.or_true]
    · intro x hx
      rw [isAsciiLetter, hrest x hx, Bool.true_or]
  simp [scriptLike, hlength, halpha]

theorem not_scriptLike_of_digit {c : ℕ} {rest : PyStr} (h : isAsciiDigit c = true) :
    scriptLike u (c :: rest) = false := by
  have halpha : u.alpha c = false := by
    rw [u.alpha_ascii c (lt_of_tagChar (tagChar_of_digit h))]
    simp only [isAsciiDigit, isAsciiLetter, isAsciiLower, isAsciiUpper, Bool.and_eq_true,
      decide_eq_true_eq, Bool.or_eq_false_iff, Bool.and_eq_false_iff,
      decide_eq_false_iff_not] at h ⊢
    omega
  simp [scriptLike, Unicode.isAlpha, halpha]

theorem variantLike_of_variantTag {p : PyStr} (h : isVariantTag p = true) : VariantLike p := by
  obtain ⟨hshape, hall⟩ := isVariantTag_iff.mp h
  exact ⟨hshape, fun c hc => .inl ((hall c hc).elim tagChar_of_lower tagChar_of_digit)⟩

/-- A canonical region or variant is respelled as it is, and is no script. -/
theorem respelled_self {p : PyStr} (h : isRegion p = true ∨ isVariantTag p = true) :
    respelled u p = p ∧ scriptLike u p = false ∧ u.isAlnum p = true := by
  rcases h with hregion | hvariant
  · rcases isRegion_cases hregion with ⟨hlength, hall⟩ | ⟨hlength, hall⟩
    · have hne : p ≠ [] := by
        rintro rfl
        cases hlength
      have halpha : u.isAlpha p = true := isAlpha_of_letters hne fun c hc => by
        rw [isAsciiLetter, hall c hc, Bool.or_true]
      have hupper : u.upperStr p = p := by
        rw [Unicode.upperStr_ascii fun c hc => (asciiUpper_self (hall c hc)).1]
        exact map_self fun c hc => (asciiUpper_self (hall c hc)).2
      refine ⟨?_, by simp [scriptLike, hlength], Unicode.isAlnum_of_isAlpha halpha⟩
      rw [respelled, if_pos (by simp [regionLike, hlength, halpha]), hupper]
    · have hdigits : u.isDigit p = true := by
        refine Bool.and_eq_true_iff.mpr ⟨?_, List.all_eq_true.mpr fun c hc => ?_⟩
        · cases p with
          | nil => cases hlength
          | cons c rest => rfl
        · rw [u.digit_ascii c (lt_of_tagChar (tagChar_of_digit (hall c hc)))]
          exact hall c hc
      refine ⟨?_, by simp [scriptLike, hlength], Unicode.isAlnum_of_isDigit hdigits⟩
      rw [respelled, if_pos (by simp [regionLike, hlength, hdigits]),
        Unicode.upperStr_digits hdigits]
  · obtain ⟨hshape, hall⟩ := isVariantTag_iff.mp hvariant
    have hlike := variantLike_of_variantTag hvariant
    refine ⟨?_, ?_, isAlnum_of_variant hlike⟩
    · rw [respelled_of_variant hlike, lowerStr_self hall]
    · rcases hshape with hlong | ⟨-, hdigit⟩
      · have hfour : p.length ≠ 4 := by omega
        simp [scriptLike, hfour]
      · cases p with
        | nil => simp at hdigit
        | cons c rest => exact not_scriptLike_of_digit (by simpa using hdigit)

theorem afterScript_kinds {parts : List PyStr} (h : afterScript parts = true) :
    ∀ p ∈ parts, isRegion p = true ∨ isVariantTag p = true := by
  cases parts with
  | nil => simp
  | cons p ps =>
    rw [afterScript] at h
    split_ifs at h with hregion
    · exact List.forall_mem_cons.mpr ⟨.inl hregion, fun q hq => .inr (List.all_eq_true.mp h q hq)⟩
    · exact fun q hq => .inr (List.all_eq_true.mp h q hq)

theorem respelledRest_self {rest : List PyStr} (h : afterLanguage rest = true) :
    respelledRest u rest = rest := by
  have hmap : ∀ ps : List PyStr, afterScript ps = true → ps.map (respelled u) = ps :=
    fun ps hps => map_self fun q hq => (respelled_self (afterScript_kinds hps q hq)).1
  cases rest with
  | nil => rfl
  | cons p ps =>
    rw [afterLanguage] at h
    split_ifs at h with hscript
    · rw [respelledRest, respell_script (scriptLike_of_script hscript), titleStr_self hscript,
        hmap ps h]
    · have hkind := respelled_self (u := u) (afterScript_kinds h p (by simp))
      rw [respelledRest, respell_eq (.inr hkind.2.1), ← List.map_cons, hmap (p :: ps) h]

theorem tagLike_canonical {language : PyStr} {rest : List PyStr}
    (h : isCanonicalTag (language :: rest) = true) :
    TagLike u (language :: rest) ∧ spelled u language rest = language :: rest := by
  obtain ⟨hlanguage, hafter⟩ := Bool.and_eq_true_iff.mp h
  obtain ⟨hmin, hmax, hall⟩ := isLanguage_chars hlanguage
  have hlower : u.lowerStr language = language := lowerStr_self fun c hc => .inl (hall c hc)
  have hrest : respelledRest u rest = rest := respelledRest_self hafter
  have hzones := (afterLanguage_respelledRest (u := u) rest).mp (by rwa [hrest])
  have halpha : u.isAlpha language = true := by
    refine isAlpha_of_letters ?_ fun c hc => ?_
    · rintro rfl
      cases hmin
    · rw [isAsciiLetter, hall c hc, Bool.true_or]
  refine ⟨⟨?_, by rwa [hlower], hzones⟩, ?_⟩
  · simp [isLanguageLike, halpha, hmin, hmax]
  · rw [spelled, hlower, hrest]

theorem spelled_canonical {language : PyStr} {rest : List PyStr}
    (h : TagLike u (language :: rest)) :
    ([45].intercalate (spelled u language rest)).splitOn 45 = spelled u language rest ∧
      isCanonicalTag (spelled u language rest) = true := by
  refine ⟨splitOn_intercalate (List.cons_ne_nil _ _)
    (hyphen_not_mem_spelled (isAlnum_language h.1) (isAlnum_rest h)), ?_⟩
  exact Bool.and_eq_true_iff.mpr ⟨h.2.1, (afterLanguage_respelledRest rest).mpr h.2.2⟩

theorem canonicalLocale_of_msys {parts : List PyStr} {t : PyStr}
    (h : canonicalMsys u parts = some t) : canonicalLocale t = true := by
  cases parts with
  | nil => cases h
  | cons language rest =>
    obtain ⟨hlike, rfl⟩ := canonicalMsys_eq_some.mp h
    obtain ⟨hsplit, hcanonical⟩ := spelled_canonical hlike
    rwa [canonicalLocale, hsplit]

/-! ## C and POSIX locales -/

/-- `without_encoding` of the catalog reader, and `tag` of the daemon. -/
def base (u : Unicode) (s : PyStr) : PyStr := withoutEncoding (u.strip s)

def cPosix : List PyStr := ["C", "POSIX"].map lit

theorem upperStr_withoutEncoding (raw : PyStr) :
    u.upperStr (withoutEncoding raw) = withoutEncoding (u.upperStr raw) := by
  unfold withoutEncoding
  rw [Unicode.upperStr_takeWhile _ (by omega) rfl, Unicode.upperStr_takeWhile _ (by omega) rfl]

/-- The names that the daemon refuses are those of a C or POSIX locale, some with a suffix. -/
theorem cPosix_of_refused {raw : PyStr}
    (h : u.upperStr raw ∈ ["C", "POSIX", "C.UTF-8", "C.UTF8"].map lit) :
    u.upperStr (withoutEncoding raw) ∈ cPosix := by
  rw [upperStr_withoutEncoding]
  generalize u.upperStr raw = upper at h
  revert upper
  decide

theorem posix_of_lowerStr {b : PyStr} (h : u.lowerStr b = lit "posix") :
    b.map asciiLower = lit "posix" := by
  have hfolds : ∀ c ∈ b, Folds c := Unicode.folds_of_lowerStr (u := u) (by rw [h]; decide)
  rw [Unicode.lowerStr_of_folds hfolds] at h
  rw [← h]
  refine List.map_congr_left fun c hc => ?_
  have hmem : foldLower c ∈ lit "posix" := h ▸ List.mem_map_of_mem hc
  by_cases hkelvin : c = kelvin
  · subst hkelvin
    exact absurd hmem (by decide)
  · rw [foldLower, if_neg hkelvin]

theorem lt_of_posix {b : PyStr} (h : b.map asciiLower = lit "posix") : ∀ c ∈ b, c < 128 := by
  intro c hc
  have hmem : asciiLower c ∈ lit "posix" := h ▸ List.mem_map_of_mem hc
  have hlt : asciiLower c < 128 := by
    generalize asciiLower c = x at hmem
    revert x
    decide
  unfold asciiLower at hlt
  split_ifs at hlt <;> omega

theorem lowerStr_of_posix {b : PyStr} (h : b.map asciiLower = lit "posix") :
    u.lowerStr b = lit "posix" := by
  have hlt := lt_of_posix h
  rw [Unicode.lowerStr_of_folds fun c hc => .inl (hlt c hc), ← h]
  refine List.map_congr_left fun c hc => if_neg ?_
  have hc := hlt c hc
  rw [kelvin]
  omega

theorem asciiUpper_asciiLower (c : ℕ) : asciiUpper (asciiLower c) = asciiUpper c := by
  simp only [asciiUpper, asciiLower, isAsciiLower, isAsciiUpper, Bool.and_eq_true,
    decide_eq_true_eq]
  split_ifs <;> omega

theorem asciiLower_asciiUpper (c : ℕ) : asciiLower (asciiUpper c) = asciiLower c := by
  simp only [asciiUpper, asciiLower, isAsciiLower, isAsciiUpper, Bool.and_eq_true,
    decide_eq_true_eq]
  split_ifs <;> omega

theorem upperStr_of_posix {b : PyStr} (h : b.map asciiLower = lit "posix") :
    u.upperStr b = lit "POSIX" := by
  rw [Unicode.upperStr_ascii (lt_of_posix h)]
  calc b.map asciiUpper = (b.map asciiLower).map asciiUpper := by
        rw [List.map_map]
        exact List.map_congr_left fun c _ => (asciiUpper_asciiLower c).symm
    _ = lit "POSIX" := by rw [h]; decide

/-- A C or POSIX locale that reads as a language is POSIX in ASCII. -/
theorem posix_of_language {b : PyStr} (hupper : u.upperStr b ∈ cPosix)
    (hlanguage : isLanguage (u.lowerStr b) = true) : b.map asciiLower = lit "posix" := by
  obtain ⟨hmin, -, hall⟩ := isLanguage_chars hlanguage
  have hfolds : ∀ c ∈ b, Folds c := Unicode.folds_of_lowerStr (u := u) fun x hx =>
    lt_of_tagChar (tagChar_of_lower (hall x hx))
  have hkelvin : kelvin ∉ b := by
    intro hmem
    have hself : kelvin ∈ u.upperStr b :=
      List.mem_flatMap.mpr ⟨kelvin, hmem, by rw [u.upper_kelvin]; simp⟩
    generalize u.upperStr b = upper at hupper hself
    revert upper
    decide
  have hascii : ∀ c ∈ b, c < 128 := by
    intro c hc
    refine (hfolds c hc).resolve_right ?_
    rintro rfl
    exact hkelvin hc
  rw [Unicode.lowerStr_of_folds hfolds, List.length_map] at hmin
  rw [Unicode.upperStr_ascii hascii] at hupper
  have hlower : b.map asciiLower = (b.map asciiUpper).map asciiLower := by
    rw [List.map_map]
    exact List.map_congr_left fun c _ => (asciiLower_asciiUpper c).symm
  rcases List.mem_pair.mp hupper with hc | hposix
  · have hlength := congrArg List.length hc
    rw [List.length_map] at hlength
    have hone : (lit "C").length = 1 := rfl
    omega
  · rw [hlower, hposix]
    decide

theorem subtags_plain {b : PyStr} (hhyphen : 45 ∉ b) (hunderscore : 95 ∉ b) :
    subtags b = [b] := by
  have hmap : (b.map fun c => if c = 95 then 45 else c) = b := map_self fun c hc => by
    rw [if_neg]
    rintro rfl
    exact hunderscore hc
  have hsplit := splitOn_intercalate (List.cons_ne_nil b [])
    (fun p hp => List.mem_singleton.mp hp ▸ hhyphen)
  rw [List.intercalate_singleton] at hsplit
  rw [subtags, hmap, hsplit]

theorem subtags_cPosix {b : PyStr} (h : u.upperStr b ∈ cPosix) : subtags b = [b] := by
  have hnone : ∀ x ∈ [45, 95], x ∉ u.upperStr b := by
    generalize u.upperStr b = upper at h
    revert upper
    decide
  refine subtags_plain (fun hmem => hnone 45 (by simp) ?_) fun hmem => hnone 95 (by simp) ?_
  · exact (Unicode.mem_upperStr_iff (by omega) rfl).mpr hmem
  · exact (Unicode.mem_upperStr_iff (by omega) rfl).mpr hmem

theorem canonicalMsys_cPosix {b : PyStr} (h : u.upperStr b ∈ cPosix) (t : PyStr) :
    canonicalMsys u (subtags b) = some t ↔ b.map asciiLower = lit "posix" ∧ t = lit "posix" := by
  rw [subtags_cPosix h, canonicalMsys_eq_some, spelled, respelledRest,
    List.intercalate_singleton]
  constructor
  · rintro ⟨hlike, rfl⟩
    have hposix := posix_of_language h hlike.2.1
    exact ⟨hposix, lowerStr_of_posix hposix⟩
  · rintro ⟨hposix, rfl⟩
    have hlower := lowerStr_of_posix (u := u) hposix
    refine ⟨⟨?_, ?_, ?_, ?_, ?_⟩, hlower.symm⟩
    · have hlength := congrArg List.length hposix
      rw [List.length_map] at hlength
      have hfive : (lit "posix").length = 5 := rfl
      have hletters : ∀ c ∈ b, isAsciiLetter c = true := by
        intro c hc
        have hmem : asciiLower c ∈ lit "posix" := hposix ▸ List.mem_map_of_mem hc
        have hletter : isAsciiLower (asciiLower c) = true := by
          generalize asciiLower c = x at hmem
          revert x
          decide
        simp only [asciiLower, isAsciiLetter, isAsciiLower, isAsciiUpper, Bool.and_eq_true,
          Bool.or_eq_true, decide_eq_true_eq] at hletter ⊢
        split_ifs at hletter <;> omega
      have halpha : u.isAlpha b = true := isAlpha_of_letters (by rintro rfl; cases hlength) hletters
      simp [isLanguageLike, halpha, hlength, hfive]
    · rw [hlower]
      decide
    · simp [script, takeIf]
    · simp [region, afterScriptLike, takeIf]
    · simp [variants, afterScriptLike, takeIf]

/-! ## What is canonical stays -/

theorem chars_of_canonical {t : PyStr} (h : canonicalLocale t = true) :
    ∀ c ∈ t, isTagChar c = true ∨ c = 45 := by
  intro c hc
  have hjoin : [45].intercalate (t.splitOn 45) = t := List.intercalate_splitOn 45
  rw [← hjoin] at hc
  refine (mem_intercalate hc).symm.imp_left ?_
  rintro ⟨p, hp, hmem⟩
  rw [canonicalLocale] at h
  cases hparts : t.splitOn 45 with
  | nil => simp [hparts] at hp
  | cons language rest =>
    rw [hparts] at h hp
    obtain ⟨hlanguage, hafter⟩ := Bool.and_eq_true_iff.mp h
    rcases List.mem_cons.mp hp with rfl | hp
    · exact tagChar_of_lower ((isLanguage_chars hlanguage).2.2 c hmem)
    · exact tagChar_of_afterLanguage hafter p hp c hmem

theorem dropWhile_self {test : ℕ → Bool} {s : PyStr} (h : ∀ c ∈ s, test c = false) :
    s.dropWhile test = s := by
  cases s with
  | nil => rfl
  | cons c rest => exact List.dropWhile_cons_of_neg (by simp [h c (by simp)])

theorem strip_self {s : PyStr} (h : ∀ c ∈ s, u.space c = false) : u.strip s = s := by
  rw [Unicode.strip, dropWhile_self h, dropWhile_self fun c hc => h c (List.mem_reverse.mp hc),
    List.reverse_reverse]

theorem withoutEncoding_self {raw : PyStr} (hat : 64 ∉ raw) (hdot : 46 ∉ raw) :
    withoutEncoding raw = raw := by
  have hself : ∀ {x : ℕ}, x ∉ raw → raw.takeWhile (· ≠ x) = raw := by
    intro x hx
    refine List.takeWhile_eq_self_iff.mpr fun c hc => ?_
    simp only [decide_eq_true_eq]
    rintro rfl
    exact hx hc
  rw [withoutEncoding, hself hat, hself hdot]

theorem plain_of_canonical {t : PyStr} (h : canonicalLocale t = true) :
    t ≠ [] ∧ u.strip t = t ∧ withoutEncoding t = t ∧ subtags t = t.splitOn 45 := by
  have hrange : ∀ c ∈ t, 45 ≤ c ∧ c < 128 ∧ c ≠ 46 ∧ c ≠ 64 ∧ c ≠ 95 := by
    intro c hc
    rcases chars_of_canonical h c hc with htag | rfl
    · simp only [isTagChar, isAsciiLetter, isAsciiLower, isAsciiUpper, isAsciiDigit,
        Bool.or_eq_true, Bool.and_eq_true, decide_eq_true_eq] at htag
      omega
    · omega
  refine ⟨?_, strip_self fun c hc => ?_, ?_, ?_⟩
  · rintro rfl
    revert h
    decide
  · rw [u.space_ascii c (hrange c hc).2.1]
    simp only [Bool.or_eq_false_iff, Bool.and_eq_false_iff, decide_eq_false_iff_not]
    have hle := (hrange c hc).1
    omega
  · exact withoutEncoding_self (fun hmem => (hrange 64 hmem).2.2.2.1 rfl)
      fun hmem => (hrange 46 hmem).2.2.1 rfl
  · rw [subtags, map_self fun c hc => if_neg (hrange c hc).2.2.2.2]

theorem canonicalMsys_self {t : PyStr} (h : canonicalLocale t = true) :
    canonicalMsys u (t.splitOn 45) = some t := by
  have hjoin : [45].intercalate (t.splitOn 45) = t := List.intercalate_splitOn 45
  rw [canonicalLocale] at h
  cases hparts : t.splitOn 45 with
  | nil =>
    rw [hparts] at h
    cases h
  | cons language rest =>
    rw [hparts] at h hjoin
    obtain ⟨hlike, hspelled⟩ := tagLike_canonical (u := u) h
    exact canonicalMsys_eq_some.mpr ⟨hlike, by rw [hspelled, hjoin]⟩

theorem canonicalPresentation_self {t : PyStr} (h : canonicalLocale t = true) :
    canonicalPresentation u (t.splitOn 45) = some t := by
  have hself := canonicalMsys_self (u := u) h
  have hjoin : [45].intercalate (t.splitOn 45) = t := List.intercalate_splitOn 45
  rw [canonicalLocale] at h
  cases hparts : t.splitOn 45 with
  | nil =>
    rw [hparts] at h
    cases h
  | cons language rest =>
    rw [hparts] at h hself
    obtain ⟨hlike, -⟩ := tagLike_canonical (u := u) h
    have hafter := (Bool.and_eq_true_iff.mp h).2
    have hvariants : (variants u rest).all (isVariant u) = true := by
      refine List.all_eq_true.mpr fun p hp => isVariant_iff.mpr ⟨hlike.2.2.2.2 p hp, fun hmem => ?_⟩
      have hrest : p ∈ rest := by
        rw [← zones_append (u := u) rest]
        exact List.mem_append_right _ (List.mem_append_right _ hp)
      have hlt := lt_of_tagChar (tagChar_of_afterLanguage hafter p hrest kelvin hmem)
      exact absurd hlt (by decide)
    rw [canonicalPresentation_eq, if_pos hvariants, hself]

/-- A canonical tag is read as it is, unless it is the name of the POSIX locale. -/
theorem reads_canonical {t : PyStr} (h : canonicalLocale t = true) (hposix : t ≠ lit "posix") :
    normalizeMsysLocale u t = some t ∧ normalizedLocale u t = some t := by
  obtain ⟨hne, hstrip, hencoding, hsubtags⟩ := plain_of_canonical (u := u) h
  have hself := canonicalMsys_self (u := u) h
  have hupper : u.upperStr t ∉ cPosix := by
    intro hmem
    rw [← hsubtags] at hself
    exact hposix ((canonicalMsys_cPosix hmem t).mp hself).2
  have hrefused : u.upperStr t ∉ ["C", "POSIX", "C.UTF-8", "C.UTF8"].map lit := by
    intro hmem
    have hbase := cPosix_of_refused hmem
    rw [hencoding] at hbase
    exact hupper hbase
  constructor
  · rw [normalizeMsysLocale, hstrip, hencoding, hsubtags, if_neg (not_or.mpr ⟨hne, hrefused⟩),
      hself]
  · rw [normalizedLocale, hstrip, hencoding, hsubtags, if_neg hne]
    exact (if_neg hupper).trans (canonicalPresentation_self h)

/-! ## Agreement -/

/-- The name of the POSIX locale, in ASCII letters of any case, with an encoding or a modifier. -/
def PosixWithSuffix (u : Unicode) (s : PyStr) : Prop :=
  (base u s).map asciiLower = lit "posix" ∧ base u s ≠ u.strip s

/-- A tag but for a Kelvin sign in a variant. -/
def KelvinVariant (u : Unicode) : List PyStr → Prop
  | [] => False
  | language :: rest => TagLike u (language :: rest) ∧ ∃ p ∈ variants u rest, kelvin ∈ p

/-- The readers agree on a text, what they read is a fixed point of both, and it is nothing for
a C or POSIX locale. -/
def Agrees (u : Unicode) (s : PyStr) : Prop :=
  normalizeMsysLocale u s = normalizedLocale u s ∧
    (∀ t, normalizeMsysLocale u s = some t ∨ normalizedLocale u s = some t →
      normalizeMsysLocale u t = some t ∧ normalizedLocale u t = some t) ∧
    (u.upperStr (base u s) ∈ cPosix →
      normalizeMsysLocale u s = none ∧ normalizedLocale u s = none)

theorem canonicalPresentation_eq_some {parts : List PyStr} {t : PyStr} :
    canonicalPresentation u parts = some t ↔
      canonicalMsys u parts = some t ∧ ¬KelvinVariant u parts := by
  cases parts with
  | nil => simp [canonicalPresentation, canonicalMsys]
  | cons language rest =>
    rw [canonicalPresentation_eq, Option.ite_none_right_eq_some, and_comm, List.all_eq_true]
    refine and_congr_right fun hmsys => ?_
    have hlike := (canonicalMsys_eq_some.mp hmsys).1
    constructor
    · rintro h ⟨-, p, hp, hkelvin⟩
      exact (isVariant_iff.mp (h p hp)).2 hkelvin
    · intro h p hp
      exact isVariant_iff.mpr ⟨hlike.2.2.2.2 p hp, fun hkelvin => h ⟨hlike, p, hp, hkelvin⟩⟩

/-- Only the name of the POSIX locale is read as `posix`. -/
theorem posix_of_canonicalMsys {b : PyStr} (h : canonicalMsys u (subtags b) = some (lit "posix")) :
    u.upperStr b ∈ cPosix := by
  have hjoin : [45].intercalate (subtags b) = b.map fun c => if c = 95 then 45 else c :=
    List.intercalate_splitOn 45
  cases hparts : subtags b with
  | nil =>
    rw [hparts] at h
    cases h
  | cons language rest =>
    rw [hparts] at h hjoin
    obtain ⟨hlike, hposix⟩ := canonicalMsys_eq_some.mp h
    have hsplit := (spelled_canonical hlike).1
    rw [← hposix, show (lit "posix").splitOn 45 = [lit "posix"] by decide, spelled] at hsplit
    obtain ⟨hlanguage, hrest⟩ := List.cons.inj hsplit
    have hlower := posix_of_lowerStr hlanguage.symm
    have hnil : rest = [] := by
      cases rest with
      | nil => rfl
      | cons p ps => cases hrest
    rw [hnil, List.intercalate_singleton] at hjoin
    have hunderscore : 95 ∉ b := by
      intro hmem
      refine Unicode.hyphen_not_mem (isAlnum_language hlike.1) ?_
      rw [hjoin]
      exact List.mem_map.mpr ⟨95, hmem, rfl⟩
    rw [map_self fun c hc => if_neg (by rintro rfl; exact hunderscore hc)] at hjoin
    rw [← hjoin, upperStr_of_posix hlower]
    decide

theorem kelvin_not_cPosix {b : PyStr} (h : u.upperStr b ∈ cPosix) :
    ¬KelvinVariant u (subtags b) := by
  rw [subtags_cPosix h]
  rintro ⟨-, p, hp, -⟩
  cases hp

theorem refused_of_nil {s : PyStr} (h : u.strip s = []) :
    Agrees u s ∧ ¬PosixWithSuffix u s ∧ ¬KelvinVariant u (subtags (base u s)) := by
  have hmsys : normalizeMsysLocale u s = none := by simp [normalizeMsysLocale, h]
  have hpresentation : normalizedLocale u s = none := by simp [normalizedLocale, h]
  have hbase : base u s = [] := by
    rw [base, h]
    rfl
  refine ⟨⟨by rw [hmsys, hpresentation], by simp [hmsys, hpresentation],
    fun _ => ⟨hmsys, hpresentation⟩⟩, ?_, ?_⟩
  · rintro ⟨hposix, -⟩
    rw [hbase] at hposix
    cases hposix
  · rw [hbase]
    rintro ⟨-, p, hp, -⟩
    cases hp

/-- On a C or POSIX locale the catalog reader reads nothing, and the daemon nothing either
unless the name is POSIX and has a suffix. -/
theorem agrees_cPosix {s : PyStr} (hne : u.strip s ≠ []) (h : u.upperStr (base u s) ∈ cPosix) :
    Agrees u s ↔ ¬PosixWithSuffix u s := by
  have hpresentation : normalizedLocale u s = none := by
    rw [normalizedLocale, if_neg hne]
    exact if_pos h
  have hmsys : ∀ t, normalizeMsysLocale u s = some t ↔ PosixWithSuffix u s ∧ t = lit "posix" := by
    intro t
    by_cases hrefused : u.upperStr (u.strip s) ∈ ["C", "POSIX", "C.UTF-8", "C.UTF8"].map lit
    · rw [normalizeMsysLocale, if_pos (.inr hrefused)]
      refine iff_of_false (by simp) fun hposix => hposix.1.2 ?_
      have hbase : withoutEncoding (u.upperStr (u.strip s)) = lit "POSIX" := by
        rw [← upperStr_withoutEncoding]
        exact upperStr_of_posix hposix.1.1
      have hself : u.upperStr (u.strip s) = lit "POSIX" := by
        generalize u.upperStr (u.strip s) = upper at hrefused hbase
        revert upper
        decide
      have hnone : ∀ x ∈ [46, 64], x ∉ u.upperStr (u.strip s) := by
        rw [hself]
        decide
      have hat : 64 ∉ u.strip s := fun hmem =>
        hnone 64 (by simp) ((Unicode.mem_upperStr_iff (by omega) rfl).mpr hmem)
      have hdot : 46 ∉ u.strip s := fun hmem =>
        hnone 46 (by simp) ((Unicode.mem_upperStr_iff (by omega) rfl).mpr hmem)
      exact withoutEncoding_self hat hdot
    · rw [normalizeMsysLocale, if_neg (not_or.mpr ⟨hne, hrefused⟩)]
      have hmsys := canonicalMsys_cPosix h t
      rw [base] at hmsys
      rw [hmsys, PosixWithSuffix, and_assoc]
      refine and_congr_right fun hposix => (and_iff_right ?_).symm
      intro hsame
      rw [base] at hsame
      have hupper := upperStr_of_posix (u := u) hposix
      rw [hsame] at hupper
      exact hrefused (by rw [hupper]; decide)
  constructor
  · intro hagrees hposix
    have hsome := (hmsys _).mpr ⟨hposix, rfl⟩
    rw [(hagrees.2.2 h).1] at hsome
    cases hsome
  · intro hposix
    have hnone : normalizeMsysLocale u s = none := by
      refine Option.eq_none_iff_forall_ne_some.mpr fun t ht => hposix ((hmsys t).mp ht).1
    exact ⟨by rw [hnone, hpresentation], by simp [hnone, hpresentation],
      fun _ => ⟨hnone, hpresentation⟩⟩

/-- On any other locale they read the same subtags. -/
theorem agrees_other {s : PyStr} (hne : u.strip s ≠ []) (h : u.upperStr (base u s) ∉ cPosix) :
    Agrees u s ↔ ¬KelvinVariant u (subtags (base u s)) := by
  have hmsys : normalizeMsysLocale u s = canonicalMsys u (subtags (base u s)) := by
    rw [normalizeMsysLocale, if_neg (not_or.mpr ⟨hne, fun hmem => h (cPosix_of_refused hmem)⟩)]
    rfl
  have hpresentation : normalizedLocale u s = canonicalPresentation u (subtags (base u s)) := by
    rw [normalizedLocale, if_neg hne]
    exact if_neg h
  have hfixed : ∀ t, canonicalMsys u (subtags (base u s)) = some t →
      normalizeMsysLocale u t = some t ∧ normalizedLocale u t = some t := by
    intro t ht
    refine reads_canonical (canonicalLocale_of_msys ht) ?_
    rintro rfl
    exact h (posix_of_canonicalMsys ht)
  constructor
  · intro hagrees hkelvin
    cases hparts : subtags (base u s) with
    | nil =>
      rw [hparts] at hkelvin
      exact hkelvin
    | cons language rest =>
      have hkelvin' := hkelvin
      rw [hparts] at hkelvin'
      have hsome := canonicalMsys_eq_some.mpr ⟨hkelvin'.1, rfl⟩
      rw [← hparts, ← hmsys, hagrees.1, hpresentation] at hsome
      exact (canonicalPresentation_eq_some.mp hsome).2 hkelvin
  · intro hkelvin
    have hsame : canonicalPresentation u (subtags (base u s)) =
        canonicalMsys u (subtags (base u s)) := by
      refine Option.ext fun t => ?_
      rw [canonicalPresentation_eq_some, and_iff_left hkelvin]
    refine ⟨by rw [hmsys, hpresentation, hsame], fun t ht => ?_, fun hmem => absurd hmem h⟩
    rw [hmsys, hpresentation, hsame, or_self] at ht
    exact hfixed t ht

end

/-- The two readers agree on a text exactly when it is neither a POSIX locale with a suffix nor
a tag with a Kelvin sign in a variant. -/
theorem readers_agree_iff (u : Unicode) (s : PyStr) :
    Agrees u s ↔ ¬PosixWithSuffix u s ∧ ¬KelvinVariant u (subtags (base u s)) := by
  by_cases hne : u.strip s = []
  · exact iff_of_true (refused_of_nil hne).1 (refused_of_nil hne).2
  · by_cases h : u.upperStr (base u s) ∈ cPosix
    · rw [agrees_cPosix hne h, and_iff_left (kelvin_not_cPosix h)]
    · rw [agrees_other hne h, and_iff_right]
      rintro ⟨hposix, -⟩
      rw [upperStr_of_posix hposix] at h
      exact h (by decide)

/-- The daemon takes a POSIX locale with an encoding for a language. -/
theorem posix_encoding_is_language :
    normalizeMsysLocale plainUnicode (lit "POSIX.UTF-8") = some (lit "posix") ∧
      normalizedLocale plainUnicode (lit "POSIX.UTF-8") = none ∧
      ¬Agrees plainUnicode (lit "POSIX.UTF-8") := by
  have hmsys : normalizeMsysLocale plainUnicode (lit "POSIX.UTF-8") = some (lit "posix") := by
    decide
  have hpresentation : normalizedLocale plainUnicode (lit "POSIX.UTF-8") = none := by decide
  refine ⟨hmsys, hpresentation, fun hagrees => ?_⟩
  rw [Agrees, hmsys, hpresentation] at hagrees
  cases hagrees.1

end MsysCore.Core.Locale
