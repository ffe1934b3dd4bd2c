import MsysCore.Python.Values

/-!
# Character classes and case

The string methods that classify and case-map: `isalpha`, `isalnum`, `isdigit`, `lower`, `upper`
and `title`. The Unicode database is a structure of tables with the facts about it that matter
to texts that end up in ASCII. Outside of ASCII only the Kelvin sign has an ASCII lower case.
-/

namespace MsysCore.Python

def isAsciiLower (c : ℕ) : Bool := 97 ≤ c && c ≤ 122
def isAsciiUpper (c : ℕ) : Bool := 65 ≤ c && c ≤ 90
def isAsciiDigit (c : ℕ) : Bool := 48 ≤ c && c ≤ 57
def isAsciiLetter (c : ℕ) : Bool := isAsciiLower c || isAsciiUpper c
def asciiLower (c : ℕ) : ℕ := if isAsciiUpper c then c + 32 else c
def asciiUpper (c : ℕ) : ℕ := if isAsciiLower c then c - 32 else c

/-- KELVIN SIGN -/
def kelvin : ℕ := 0x212a

/-- The tables of the Unicode database, and its full case mappings. -/
structure CaseTables where
  space : ℕ → Bool
  alpha : ℕ → Bool
  digit : ℕ → Bool
  alnum : ℕ → Bool
  cased : ℕ → Bool
  caseIgnorable : ℕ → Bool
  lower : ℕ → PyStr
  upper : ℕ → PyStr
  title : ℕ → PyStr

/-- The database, as far as ASCII is concerned. -/
structure Unicode extends CaseTables where
  space_ascii : ∀ c < 128, space c = ((9 ≤ c && c ≤ 13) || (28 ≤ c && c ≤ 32))
  alpha_ascii : ∀ c < 128, alpha c = isAsciiLetter c
  digit_ascii : ∀ c < 128, digit c = isAsciiDigit c
  alnum_ascii : ∀ c < 128, alnum c = (isAsciiLetter c || isAsciiDigit c)
  cased_ascii : ∀ c < 128, cased c = isAsciiLetter c
  lower_ascii : ∀ c < 128, lower c = [asciiLower c]
  upper_ascii : ∀ c < 128, upper c = [asciiUpper c]
  title_ascii : ∀ c < 128, title c = [asciiUpper c]
  alnum_of_alpha : ∀ c, alpha c = true → alnum c = true
  alnum_of_digit : ∀ c, digit c = true → alnum c = true
  alpha_kelvin : alpha kelvin = true
  lower_kelvin : lower kelvin = [107]
  upper_kelvin : upper kelvin = [kelvin]
  lower_other : ∀ c, 128 ≤ c → c ≠ kelvin → ∃ x ∈ lower c, 128 ≤ x
  lower_letter : ∀ c, 128 ≤ c → ∀ x ∈ lower c, x < 128 → isAsciiLower x = true
  upper_letter : ∀ c, 128 ≤ c → ∀ x ∈ upper c, x < 128 → isAsciiUpper x = true
  upper_digit : ∀ c, digit c = true → upper c = [c]
  upper_nonempty : ∀ c, upper c ≠ []
  title_letter : ∀ c, 128 ≤ c → ∀ x ∈ title c, x < 128 → isAsciiLetter x = true
  title_head : ∀ c, 128 ≤ c → ∀ x ∈ (title c).head?, x < 128 → isAsciiUpper x = true
  title_nonempty : ∀ c, title c ≠ []

/-- A database that knows ASCII and the Kelvin sign. -/
def plainUnicode : Unicode where
  space c := (9 ≤ c && c ≤ 13) || (28 ≤ c && c ≤ 32)
  alpha c := isAsciiLetter c || c = kelvin
  digit c := isAsciiDigit c
  alnum c := isAsciiLetter c || isAsciiDigit c || c = kelvin
  cased c := isAsciiLetter c || c = kelvin
  caseIgnorable _ := false
  lower c := if c = kelvin then [107] else [asciiLower c]
  upper c := [asciiUpper c]
  title c := [asciiUpper c]
  space_ascii _ _ := rfl
  alpha_ascii c h := by simp [show c ≠ kelvin by simp only [kelvin]; omega]
  digit_ascii _ _ := rfl
  alnum_ascii c h := by simp [show c ≠ kelvin by simp only [kelvin]; omega]
  cased_ascii c h := by simp [show c ≠ kelvin by simp only [kelvin]; omega]
  lower_ascii c h := if_neg (by simp only [kelvin]; omega)
  upper_ascii _ _ := rfl
  title_ascii _ _ := rfl
  alnum_of_alpha c h := by
    simp only [Bool.or_eq_true] at h ⊢
    tauto
  alnum_of_digit c h := by simp [h]
  alpha_kelvin := by decide
  lower_kelvin := rfl
  upper_kelvin := by decide
  lower_other c h hne := by
    refine ⟨c, ?_, h⟩
    simp only [asciiLower, isAsciiUpper, Bool.and_eq_true, decide_eq_true_eq]
    rw [if_neg hne, if_neg (by omega), List.mem_singleton]
  lower_letter c h x hx hlt := by
    by_cases hk : c = kelvin
    · rw [if_pos hk, List.mem_singleton] at hx
      rw [hx]
      decide
    · rw [if_neg hk, List.mem_singleton] at hx
      simp only [asciiLower, isAsciiUpper, Bool.and_eq_true, decide_eq_true_eq] at hx
      split_ifs at hx <;> omega
  upper_letter c h x hx hlt := by
    rw [List.mem_singleton] at hx
    simp only [asciiUpper, isAsciiLower, Bool.and_eq_true, decide_eq_true_eq] at hx
    split_ifs at hx <;> omega
  upper_digit c h := by
    simp only [isAsciiDigit, Bool.and_eq_true, decide_eq_true_eq] at h
    simp only [asciiUpper, isAsciiLower, Bool.and_eq_true, decide_eq_true_eq]
    rw [if_neg (by omega)]
  upper_nonempty _ := List.cons_ne_nil _ _
  title_letter c h x hx hlt := by
    rw [List.mem_singleton] at hx
    simp only [asciiUpper, isAsciiLower, Bool.and_eq_true, decide_eq_true_eq] at hx
    split_ifs at hx <;> omega
  title_head c h x hx hlt := by
    rw [List.head?_cons, Option.mem_some_iff] at hx
    simp only [asciiUpper, isAsciiLower, Bool.and_eq_true, decide_eq_true_eq] at hx
    split_ifs at hx <;> omega
  title_nonempty _ := List.cons_ne_nil _ _

/-! ## String methods -/

namespace Unicode

variable (u : Unicode)

/-- `s.strip()` -/
def strip (s : PyStr) : PyStr := ((s.dropWhile u.space).reverse.dropWhile u.space).reverse

def isAlpha (s : PyStr) : Bool := !s.isEmpty && s.all u.alpha
def isDigit (s : PyStr) : Bool := !s.isEmpty && s.all u.digit
def isAlnum (s : PyStr) : Bool := !s.isEmpty && s.all u.alnum

/-- Whether a capital sigma ends a word; `before` is in reverse order. -/
def finalSigma (before after : PyStr) : Bool :=
  (before.dropWhile u.caseIgnorable).head?.any u.cased &&
    !(after.dropWhile u.caseIgnorable).head?.any u.cased

/-- One character of `lower`, in its context. -/
def lowerChar (before after : PyStr) (c : ℕ) : PyStr :=
  if c = 0x3a3 then [if u.finalSigma before after then 0x3c2 else 0x3c3] else u.lower c

def lowerFrom : PyStr → PyStr → PyStr
  | _, [] => []
  | before, c :: rest => u.lowerChar before rest c ++ lowerFrom (c :: before) rest

/-- `s.lower()` -/
def lowerStr (s : PyStr) : PyStr := u.lowerFrom [] s

/-- `s.upper()` -/
def upperStr (s : PyStr) : PyStr := s.flatMap u.upper

/-- The rest of `title`, after a cased character or not. -/
def titleFrom : PyStr → Bool → PyStr → PyStr
  | _, _, [] => []
  | before, afterCased, c :: rest =>
    (if afterCased then u.lowerChar before rest c else u.title c) ++
      titleFrom (c :: before) (u.cased c) rest

/-- `s.title()` -/
def titleStr (s : PyStr) : PyStr := u.titleFrom [] false s

end Unicode

/-! ## Texts that end up in ASCII -/

/-- The lower case of ASCII and of the Kelvin sign. -/
def foldLower (c : ℕ) : ℕ := if c = kelvin then 107 else asciiLower c

/-- ASCII or the Kelvin sign. -/
def Folds (c : ℕ) : Prop := c < 128 ∨ c = kelvin

namespace Unicode

variable {u : Unicode}

theorem lowerChar_of_folds {c : ℕ} (h : Folds c) (before after : PyStr) :
    u.lowerChar before after c = [foldLower c] := by
  have hsigma : c ≠ 0x3a3 := by
    rcases h with h | rfl
    · omega
    · decide
  rw [lowerChar, if_neg hsigma, foldLower]
  split_ifs with hkelvin
  · rw [hkelvin, u.lower_kelvin]
  · exact u.lower_ascii c (h.resolve_right hkelvin)

theorem exists_of_lowerChar {c : ℕ} (h : ¬Folds c) (before after : PyStr) :
    ∃ x ∈ u.lowerChar before after c, 128 ≤ x := by
  unfold Folds at h
  unfold lowerChar
  split_ifs with hsigma hfinal
  · exact ⟨_, List.mem_singleton_self _, by omega⟩
  · exact ⟨_, List.mem_singleton_self _, by omega⟩
  · exact u.lower_other c (by omega) fun hkelvin => h (.inr hkelvin)

theorem lowerChar_letter {c x : ℕ} (h : 128 ≤ c) {before after : PyStr}
    (hx : x ∈ u.lowerChar before after c) (hlt : x < 128) : isAsciiLower x = true := by
  unfold lowerChar at hx
  split_ifs at hx
  · rw [List.mem_singleton] at hx
    omega
  · rw [List.mem_singleton] at hx
    omega
  · exact u.lower_letter c h x hx hlt

theorem lowerFrom_of_folds {s : PyStr} (h : ∀ c ∈ s, Folds c) (before : PyStr) :
    u.lowerFrom before s = s.map foldLower := by
  induction s generalizing before with
  | nil => rfl
  | cons c s ih =>
    obtain ⟨hc, hs⟩ := List.forall_mem_cons.mp h
    rw [lowerFrom, lowerChar_of_folds hc, ih hs]
    rfl

/-- A lower case in ASCII comes from ASCII and Kelvin signs. -/
theorem folds_of_lowerFrom {s : PyStr} {before : PyStr}
    (h : ∀ x ∈ u.lowerFrom before s, x < 128) : ∀ c ∈ s, Folds c := by
  induction s generalizing before with
  | nil => simp
  | cons c s ih =>
    rw [lowerFrom, List.forall_mem_append] at h
    refine List.forall_mem_cons.mpr ⟨?_, ih h.2⟩
    by_contra hc
    obtain ⟨x, hx, hle⟩ := exists_of_lowerChar hc before s
    have hlt := h.1 x hx
    omega

theorem lowerStr_of_folds {s : PyStr} (h : ∀ c ∈ s, Folds c) :
    u.lowerStr s = s.map foldLower :=
  lowerFrom_of_folds h []

theorem folds_of_lowerStr {s : PyStr} (h : ∀ x ∈ u.lowerStr s, x < 128) : ∀ c ∈ s, Folds c :=
  folds_of_lowerFrom h

theorem mem_lowerFrom {s : PyStr} {x : ℕ} {before : PyStr} (hx : x ∈ u.lowerFrom before s) :
    ∃ c ∈ s, ∃ before after, x ∈ u.lowerChar before after c := by
  induction s generalizing before with
  | nil => cases hx
  | cons c s ih =>
    rw [lowerFrom] at hx
    rcases List.mem_append.mp hx with hx | hx
    · exact ⟨c, by simp, before, s, hx⟩
    · obtain ⟨d, hd, hmem⟩ := ih hx
      exact ⟨d, List.mem_cons_of_mem c hd, hmem⟩

theorem mem_titleFrom {s : PyStr} {x : ℕ} {before : PyStr} {afterCased : Bool}
    (hx : x ∈ u.titleFrom before afterCased s) :
    ∃ c ∈ s, x ∈ u.title c ∨ ∃ before after, x ∈ u.lowerChar before after c := by
  induction s generalizing before afterCased with
  | nil => cases hx
  | cons c s ih =>
    rw [titleFrom] at hx
    rcases List.mem_append.mp hx with hx | hx
    · refine ⟨c, by simp, ?_⟩
      cases afterCased with
      | false => exact .inl hx
      | true => exact .inr ⟨before, s, hx⟩
    · obtain ⟨d, hd, hmem⟩ := ih hx
      exact ⟨d, List.mem_cons_of_mem c hd, hmem⟩

/-- No case mapping makes a hyphen of letters and digits. -/
theorem hyphen_not_mem_case {c : ℕ} (h : u.alnum c = true) :
    (∀ before after, 45 ∉ u.lowerChar before after c) ∧ 45 ∉ u.upper c ∧ 45 ∉ u.title c := by
  by_cases hc : c < 128
  · rw [u.alnum_ascii c hc] at h
    have hletter : c ≠ 45 := by
      rintro rfl
      exact absurd h (by decide)
    have hlower : foldLower c ≠ 45 := by
      have hkelvin : c ≠ kelvin := by
        rw [kelvin]
        omega
      simp only [foldLower, if_neg hkelvin, asciiLower, isAsciiUpper, Bool.and_eq_true,
        decide_eq_true_eq]
      split_ifs <;> omega
    have hupper : asciiUpper c ≠ 45 := by
      simp only [asciiUpper, isAsciiLower, Bool.and_eq_true, decide_eq_true_eq]
      split_ifs <;> omega
    rw [u.upper_ascii c hc, u.title_ascii c hc]
    refine ⟨fun before after => ?_, ?_, ?_⟩
    · rw [lowerChar_of_folds (.inl hc), List.mem_singleton]
      exact hlower.symm
    · rw [List.mem_singleton]
      exact hupper.symm
    · rw [List.mem_singleton]
      exact hupper.symm
  · have hle : 128 ≤ c := by omega
    refine ⟨fun before after hmem => ?_, fun hmem => ?_, fun hmem => ?_⟩
    · exact absurd (lowerChar_letter hle hmem (by omega)) (by decide)
    · exact absurd (u.upper_letter c hle 45 hmem (by omega)) (by decide)
    · exact absurd (u.title_letter c hle 45 hmem (by omega)) (by decide)

section

variable {s : PyStr} (h : u.isAlnum s = true)

include h

theorem alnum_of_mem {c : ℕ} (hc : c ∈ s) : u.alnum c = true :=
  List.all_eq_true.mp (Bool.and_eq_true_iff.mp h).2 c hc

theorem hyphen_not_mem_lowerStr : 45 ∉ u.lowerStr s := by
  intro hmem
  obtain ⟨c, hc, before, after, hx⟩ := mem_lowerFrom hmem
  exact (hyphen_not_mem_case (alnum_of_mem h hc)).1 before after hx

theorem hyphen_not_mem_upperStr : 45 ∉ u.upperStr s := by
  intro hmem
  obtain ⟨c, hc, hx⟩ := List.mem_flatMap.mp hmem
  exact (hyphen_not_mem_case (alnum_of_mem h hc)).2.1 hx

theorem hyphen_not_mem_titleStr : 45 ∉ u.titleStr s := by
  intro hmem
  obtain ⟨c, hc, hx | ⟨before, after, hx⟩⟩ := mem_titleFrom hmem
  · exact (hyphen_not_mem_case (alnum_of_mem h hc)).2.2 hx
  · exact (hyphen_not_mem_case (alnum_of_mem h hc)).1 before after hx

theorem hyphen_not_mem : 45 ∉ s := by
  intro hmem
  have halnum := alnum_of_mem h hmem
  rw [u.alnum_ascii 45 (by omega)] at halnum
  exact absurd halnum (by decide)

end

theorem isAlnum_of_isAlpha {s : PyStr} (h : u.isAlpha s = true) : u.isAlnum s = true := by
  obtain ⟨hne, hall⟩ := Bool.and_eq_true_iff.mp h
  refine Bool.and_eq_true_iff.mpr ⟨hne, List.all_eq_true.mpr fun c hc => ?_⟩
  exact u.alnum_of_alpha c (List.all_eq_true.mp hall c hc)

theorem isAlnum_of_isDigit {s : PyStr} (h : u.isDigit s = true) : u.isAlnum s = true := by
  obtain ⟨hne, hall⟩ := Bool.and_eq_true_iff.mp h
  refine Bool.and_eq_true_iff.mpr ⟨hne, List.all_eq_true.mpr fun c hc => ?_⟩
  exact u.alnum_of_digit c (List.all_eq_true.mp hall c hc)

/-! ## Upper case -/

theorem upperStr_ascii {s : PyStr} (h : ∀ c ∈ s, c < 128) : u.upperStr s = s.map asciiUpper := by
  induction s with
  | nil => rfl
  | cons c s ih =>
    obtain ⟨hc, hs⟩ := List.forall_mem_cons.mp h
    rw [upperStr, List.flatMap_cons, u.upper_ascii c hc]
    exact congrArg (asciiUpper c :: ·) (ih hs)

theorem upperStr_digits {s : PyStr} (h : u.isDigit s = true) : u.upperStr s = s := by
  have hall : ∀ c ∈ s, u.upper c = [c] := fun c hc =>
    u.upper_digit c (List.all_eq_true.mp (Bool.and_eq_true_iff.mp h).2 c hc)
  clear h
  induction s with
  | nil => rfl
  | cons c s ih =>
    obtain ⟨hc, hs⟩ := List.forall_mem_cons.mp hall
    rw [upperStr, List.flatMap_cons, hc]
    exact congrArg (c :: ·) (ih hs)

/-- An ASCII character that is no letter is in the upper case of itself only. -/
theorem mem_upper_iff {x c : ℕ} (hx : x < 128) (hletter : isAsciiLetter x = false) :
    x ∈ u.upper c ↔ c = x := by
  simp only [isAsciiLetter, isAsciiLower, isAsciiUpper, Bool.or_eq_false_iff,
    Bool.and_eq_false_iff, decide_eq_false_iff_not] at hletter
  by_cases hc : c < 128
  · rw [u.upper_ascii c hc, List.mem_singleton]
    simp only [asciiUpper, isAsciiLower, Bool.and_eq_true, decide_eq_true_eq]
    split_ifs <;> omega
  · refine iff_of_false (fun hmem => ?_) (by omega)
    have hupper := u.upper_letter c (by omega) x hmem hx
    simp only [isAsciiUpper, Bool.and_eq_true, decide_eq_true_eq] at hupper
    omega

theorem mem_upperStr_iff {s : PyStr} {x : ℕ} (hx : x < 128) (hletter : isAsciiLetter x = false) :
    x ∈ u.upperStr s ↔ x ∈ s := by
  unfold upperStr
  simp only [List.mem_flatMap, mem_upper_iff hx hletter, exists_eq_right]

theorem upperStr_takeWhile (s : PyStr) {x : ℕ} (hx : x < 128)
    (hletter : isAsciiLetter x = false) :
    u.upperStr (s.takeWhile (· ≠ x)) = (u.upperStr s).takeWhile (· ≠ x) := by
  induction s with
  | nil => rfl
  | cons c s ih =>
    have hcons : u.upperStr (c :: s) = u.upper c ++ u.upperStr s := List.flatMap_cons
    by_cases hc : c = x
    · have hself : u.upper c = [x] := by
        rw [hc, u.upper_ascii x hx, asciiUpper]
        rw [isAsciiLetter, Bool.or_eq_false_iff] at hletter
        simp [hletter.1]
      rw [hcons, hself, List.takeWhile_cons_of_neg (by simpa using hc)]
      simp [upperStr]
    · have hnone : ∀ y ∈ u.upper c, decide (y ≠ x) = true := by
        rintro y hy
        simp only [decide_eq_true_eq]
        rintro rfl
        exact hc ((mem_upper_iff hx hletter).mp hy)
      rw [hcons, List.takeWhile_append_of_pos hnone, ← ih,
        List.takeWhile_cons_of_pos (by simpa using hc)]
      exact List.flatMap_cons

theorem upperStr_no_lower {s : PyStr} {x : ℕ} (hx : x ∈ u.upperStr s) : isAsciiLower x = false := by
  obtain ⟨c, -, hmem⟩ := List.mem_flatMap.mp hx
  by_cases hc : c < 128
  · rw [u.upper_ascii c hc, List.mem_singleton] at hmem
    subst hmem
    simp only [asciiUpper, isAsciiLower, Bool.and_eq_true, decide_eq_true_eq,
      Bool.and_eq_false_iff, decide_eq_false_iff_not]
    split_ifs <;> omega
  · by_contra hlower
    simp only [Bool.not_eq_false, isAsciiLower, Bool.and_eq_true, decide_eq_true_eq] at hlower
    have hupper := u.upper_letter c (by omega) x hmem (by omega)
    simp only [isAsciiUpper, Bool.and_eq_true, decide_eq_true_eq] at hupper
    omega

theorem lowerFrom_no_upper {s : PyStr} {x : ℕ} {before : PyStr} (hx : x ∈ u.lowerFrom before s) :
    isAsciiUpper x = false := by
  obtain ⟨c, -, before, after, hmem⟩ := mem_lowerFrom hx
  by_cases hc : c < 128
  · have hkelvin : c ≠ kelvin := by
      rw [kelvin]
      omega
    rw [lowerChar_of_folds (.inl hc), List.mem_singleton, foldLower, if_neg hkelvin] at hmem
    subst hmem
    simp only [asciiLower, isAsciiUpper, Bool.and_eq_true, decide_eq_true_eq,
      Bool.and_eq_false_iff, decide_eq_false_iff_not]
    split_ifs <;> omega
  · by_contra hupper
    simp only [Bool.not_eq_false, isAsciiUpper, Bool.and_eq_true, decide_eq_true_eq] at hupper
    have hlower := lowerChar_letter (by omega) hmem (by omega)
    simp only [isAsciiLower, Bool.and_eq_true, decide_eq_true_eq] at hlower
    omega

/-! ## Title case -/

theorem length_lowerChar_pos (before after : PyStr) (c : ℕ) :
    0 < (u.lowerChar before after c).length := by
  by_cases h : Folds c
  · rw [lowerChar_of_folds h]
    exact Nat.one_pos
  · obtain ⟨x, hx, -⟩ := exists_of_lowerChar h before after
    exact List.length_pos_of_mem hx

theorem length_titleFrom (s before : PyStr) (afterCased : Bool) :
    s.length ≤ (u.titleFrom before afterCased s).length := by
  induction s generalizing before afterCased with
  | nil => exact Nat.zero_le _
  | cons c s ih =>
    have hrest := ih (c :: before) (u.cased c)
    have hfirst : 0 < (if afterCased then u.lowerChar before s c else u.title c).length := by
      split_ifs
      · exact length_lowerChar_pos before s c
      · exact List.length_pos_of_ne_nil (u.title_nonempty c)
    rw [titleFrom, List.length_append, List.length_cons]
    omega

/-- The title case of letters does not begin with a digit or a small letter of ASCII. -/
theorem titleStr_head {s : PyStr} (h : u.isAlpha s = true) :
    ∃ x ∈ u.titleStr s, isAsciiLower x = false ∧ isAsciiDigit x = false := by
  obtain ⟨hne, hall⟩ := Bool.and_eq_true_iff.mp h
  cases s with
  | nil => cases hne
  | cons c s =>
    have halpha : u.alpha c = true := List.all_eq_true.mp hall c (by simp)
    cases htitle : u.title c with
    | nil => exact absurd htitle (u.title_nonempty c)
    | cons x rest =>
      refine ⟨x, ?_, ?_⟩
      · rw [titleStr, titleFrom, if_neg Bool.false_ne_true, htitle]
        simp
      · by_cases hc : c < 128
        · rw [u.title_ascii c hc] at htitle
          obtain ⟨rfl, -⟩ := List.cons.inj htitle
          rw [u.alpha_ascii c hc] at halpha
          simp only [isAsciiLetter, isAsciiLower, isAsciiUpper, isAsciiDigit, asciiUpper,
            Bool.or_eq_true, Bool.and_eq_true, decide_eq_true_eq, Bool.and_eq_false_iff,
            decide_eq_false_iff_not] at halpha ⊢
          split_ifs <;> omega
        · by_cases hx : x < 128
          · have hupper := u.title_head c (by omega) x (by simp [htitle]) hx
            simp only [isAsciiLower, isAsciiUpper, isAsciiDigit, Bool.and_eq_true,
              decide_eq_true_eq, Bool.and_eq_false_iff, decide_eq_false_iff_not] at hupper ⊢
            omega
          · simp only [isAsciiLower, isAsciiDigit, Bool.and_eq_false_iff, decide_eq_false_iff_not]
            omega

end Unicode

end MsysCore.Python
