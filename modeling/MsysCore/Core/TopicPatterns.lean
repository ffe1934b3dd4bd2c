import MsysCore.Core.MipcAcl

/-!
# Containment of topic patterns

A subscription is authorized once, as a pattern; an event is delivered later, by
topic. What makes the two agree is that a grant that covers a pattern matches every
topic the pattern matches.
-/

namespace MsysCore.Core

open Python

variable {g r p t : PyStr} {permissions : List PyStr}

/-! ## Topics -/

theorem topicChar_star : topicChar star = false := rfl

theorem validTopicText_iff : validTopicText t = true ↔
    t.length ≤ maxTopicLength ∧ t.all topicChar = true ∧ ∃ c ∈ t.head?, isAlnum c = true := by
  cases t with
  | nil => simp [validTopicText]
  | cons c t => simp [validTopicText, and_assoc, and_comm]

theorem validTopicText_ne_nil (h : validTopicText t = true) : t ≠ [] := by
  rintro rfl
  simp [validTopicText] at h

theorem validTopicText_of_prefix (h : validTopicText t = true) (hp : p <+: t) (hne : p ≠ []) :
    validTopicText p = true := by
  obtain ⟨hlen, hchars, c, hc, halnum⟩ := validTopicText_iff.mp h
  rw [validTopicText_iff]
  refine ⟨hp.length_le.trans hlen, ?_, c, ?_, halnum⟩
  · rw [List.all_eq_true] at hchars ⊢
    intro d hd
    exact hchars d (hp.subset hd)
  · cases p with
    | nil => exact absurd rfl hne
    | cons d p =>
      obtain ⟨rest, rfl⟩ := hp
      simpa using hc

/-! ## Patterns -/

theorem endsWithStar_iff : endsWithStar p = true ↔ ∃ q, p = q ++ [star] := by
  simp only [endsWithStar, beq_iff_eq, List.getLast?_eq_some_iff]

@[simp] theorem endsWithStar_snoc (q : PyStr) : endsWithStar (q ++ [star]) = true :=
  endsWithStar_iff.mpr ⟨q, rfl⟩

theorem endsWithStar_of_topic (h : validTopicText t = true) : endsWithStar t = false := by
  rw [Bool.eq_false_iff]
  intro hstar
  obtain ⟨q, rfl⟩ := endsWithStar_iff.mp hstar
  have hchars := (validTopicText_iff.mp h).2.1
  simp [topicChar_star] at hchars

/-- A pattern is the global one, a prefix pattern or a topic. -/
theorem validSubscriptionText_iff : validSubscriptionText p = true ↔
    p = [star] ∨ (∃ q, p = q ++ [star] ∧ validTopicText q = true ∧ q.length < maxTopicLength) ∨
      validTopicText p = true := by
  unfold validSubscriptionText
  by_cases hglobal : p = [star]
  · simp [hglobal]
  rw [if_neg hglobal]
  by_cases hbounds : p = [] ∨ maxTopicLength < p.length
  · simp only [hbounds, if_true, hglobal, false_or, Bool.false_eq_true, false_iff, not_or]
    constructor
    · rintro ⟨q, rfl, hq, hlen⟩
      rcases hbounds with h | h
      · simp at h
      · simp at h
        omega
    · intro ht
      rcases hbounds with rfl | h
      · simp [validTopicText] at ht
      · exact absurd (validTopicText_iff.mp ht).1 (Nat.not_le_of_lt h)
  · rw [if_neg hbounds]
    rw [not_or, Nat.not_lt] at hbounds
    cases hstar : endsWithStar p
    · simp only [Bool.false_eq_true, if_false, hglobal, false_or]
      constructor
      · exact Or.inr
      · rintro (⟨q, rfl, -⟩ | h)
        · simp at hstar
        · exact h
    · obtain ⟨q, rfl⟩ := endsWithStar_iff.mp hstar
      have hlen : q.length < maxTopicLength := by simpa using hbounds.2
      have hnot : ¬ validTopicText (q ++ [star]) = true := by
        intro h
        simpa using endsWithStar_of_topic h
      simp [hglobal, hlen, hnot]

theorem validSubscriptionText_of_topic (h : validTopicText t = true) :
    validSubscriptionText t = true :=
  validSubscriptionText_iff.mpr (Or.inr (Or.inr h))

theorem validSubscriptionText_length (h : validSubscriptionText p = true) :
    p.length ≤ maxTopicLength := by
  rcases validSubscriptionText_iff.mp h with rfl | ⟨q, rfl, -, hlen⟩ | htopic
  · decide
  · simpa using hlen
  · exact (validTopicText_iff.mp htopic).1

/-- What every topic matched by the pattern starts with. -/
def patternPrefix (pattern : PyStr) : PyStr :=
  if endsWithStar pattern then pattern.dropLast else pattern

theorem patternPrefix_snoc (q : PyStr) : patternPrefix (q ++ [star]) = q := by
  simp [patternPrefix]

theorem patternPrefix_of_topic (h : validTopicText t = true) : patternPrefix t = t := by
  simp [patternPrefix, endsWithStar_of_topic h]

theorem patternPrefix_starts (h : subscriptionMatches p t = true) : patternPrefix p <+: t := by
  unfold subscriptionMatches at h
  split_ifs at h with hglobal hstar
  · rw [hglobal]
    exact List.nil_prefix
  · rw [patternPrefix, if_pos hstar]
    exact List.isPrefixOf_iff_prefix.mp h
  · rw [patternPrefix, if_neg hstar, beq_iff_eq.mp h]

/-- What a grant covers: everything, the patterns below its prefix, or itself. -/
theorem subscriptionCovers_iff : subscriptionCovers g r = true ↔
    validSubscriptionText g = true ∧ validSubscriptionText r = true ∧
      (g = [star] ∨ (∃ p, g = p ++ [star] ∧ p <+: patternPrefix r) ∨ g = r) := by
  unfold subscriptionCovers
  cases hg : validSubscriptionText g
  · simp
  cases hr : validSubscriptionText r
  · simp
  by_cases hglobal : g = [star]
  · simp [hglobal]
  cases hstar : endsWithStar g
  · have hno : ¬ ∃ p, g = p ++ [star] ∧ p <+: patternPrefix r := by
      rintro ⟨p, rfl, -⟩
      simp at hstar
    simp [hglobal, hno]
  · obtain ⟨p, rfl⟩ := endsWithStar_iff.mp hstar
    have hself : p ++ [star] = r → p <+: patternPrefix r := by
      rintro rfl
      rw [patternPrefix_snoc]
    simp only [Bool.not_true, Bool.or_self, Bool.false_eq_true, if_false, hglobal, List.dropLast_concat,
      List.isPrefixOf_iff_prefix, true_and, false_or, List.append_cancel_right_eq]
    rw [← patternPrefix]
    constructor
    · intro h
      exact Or.inl ⟨p, rfl, h⟩
    · rintro (⟨q, rfl, h⟩ | h)
      · exact h
      · exact hself h

/-- Containment is sound: the grant matches whatever the pattern it covers matches. -/
theorem subscriptionMatches_of_covers (hcovers : subscriptionCovers g r = true)
    (hmatches : subscriptionMatches r t = true) : subscriptionMatches g t = true := by
  obtain ⟨hg, -, hcase⟩ := subscriptionCovers_iff.mp hcovers
  rcases hcase with rfl | ⟨p, rfl, hp⟩ | rfl
  · rfl
  · have hprefix : p <+: t := hp.trans (patternPrefix_starts hmatches)
    unfold subscriptionMatches
    split_ifs with hglobal
    · rfl
    · simpa using hprefix
    · exact absurd (endsWithStar_snoc p) ‹_›
  · exact hmatches

/-! ### Exactness -/

theorem subscriptionMatches_snoc (hq : p ≠ []) :
    subscriptionMatches (p ++ [star]) t = true ↔ p <+: t := by
  unfold subscriptionMatches
  rw [if_neg (by simpa using hq), if_pos (endsWithStar_snoc p), List.dropLast_concat,
    List.isPrefixOf_iff_prefix]

theorem subscriptionMatches_of_topic (hp : validTopicText p = true) :
    subscriptionMatches p t = true ↔ p = t := by
  have hstar := endsWithStar_of_topic hp
  have hglobal : p ≠ [star] := by
    rintro rfl
    simp [endsWithStar] at hstar
  unfold subscriptionMatches
  rw [if_neg hglobal, hstar]
  simp

/-- A topic below the limit can be continued. -/
theorem validTopicText_snoc (ht : validTopicText t = true) (hlen : t.length < maxTopicLength) :
    validTopicText (t ++ lit "a") = true := by
  obtain ⟨-, hchars, c, hc, halnum⟩ := validTopicText_iff.mp ht
  rw [validTopicText_iff]
  have hletter : (lit "a").length = 1 := rfl
  refine ⟨by rw [List.length_append]; omega, ?_, c, ?_, halnum⟩
  · rw [List.all_append, hchars]
    rfl
  · rw [List.head?_append_of_ne_nil _ (validTopicText_ne_nil ht)]
    exact hc

/-- No pattern but the global one matches two topics that have nothing in common. -/
theorem global_of_matches_letters (hp : validSubscriptionText p = true)
    (ha : subscriptionMatches p (lit "a") = true) (hb : subscriptionMatches p (lit "b") = true) :
    p = [star] := by
  rcases validSubscriptionText_iff.mp hp with rfl | ⟨q, rfl, hq, -⟩ | htopic
  · rfl
  · have hne := validTopicText_ne_nil hq
    rw [subscriptionMatches_snoc hne] at ha hb
    obtain ⟨c, q, rfl⟩ := List.exists_cons_of_ne_nil hne
    have hca : c = 97 := (List.cons_prefix_cons.mp (ha : c :: q <+: 97 :: [])).1
    have hcb : c = 98 := (List.cons_prefix_cons.mp (hb : c :: q <+: 98 :: [])).1
    omega
  · rw [subscriptionMatches_of_topic htopic] at ha hb
    rw [ha] at hb
    exact absurd hb (by decide)

/-- A pattern `q*` has two topics: `q` itself and one that is longer. -/
theorem covers_of_matches_family (hg : validSubscriptionText g = true) {q : PyStr}
    (hself : subscriptionMatches g q = true) (hnext : subscriptionMatches g (q ++ lit "a") = true) :
    g = [star] ∨ ∃ p, g = p ++ [star] ∧ p <+: q := by
  rcases validSubscriptionText_iff.mp hg with rfl | ⟨p, rfl, hp, -⟩ | htopic
  · exact Or.inl rfl
  · exact Or.inr ⟨p, rfl, (subscriptionMatches_snoc (validTopicText_ne_nil hp)).mp hself⟩
  · rw [subscriptionMatches_of_topic htopic] at hself hnext
    rw [hself] at hnext
    simp [lit] at hnext

/-- Containment is complete: a grant covers every pattern whose topics it matches. -/
theorem subscriptionCovers_of_matches (hg : validSubscriptionText g = true)
    (hr : validSubscriptionText r = true)
    (h : ∀ t, validTopicText t = true → subscriptionMatches r t = true →
      subscriptionMatches g t = true) : subscriptionCovers g r = true := by
  refine subscriptionCovers_iff.mpr ⟨hg, hr, ?_⟩
  rcases validSubscriptionText_iff.mp hr with rfl | ⟨q, rfl, hq, hlen⟩ | htopic
  · left
    exact global_of_matches_letters hg (h _ (by decide) rfl) (h _ (by decide) rfl)
  · have hmatches : ∀ {t}, subscriptionMatches (q ++ [star]) t = true ↔ q <+: t :=
      subscriptionMatches_snoc (validTopicText_ne_nil hq)
    have hself := h q hq (hmatches.mpr (List.prefix_refl q))
    have hnext := h _ (validTopicText_snoc hq hlen) (hmatches.mpr (List.prefix_append _ _))
    rw [patternPrefix_snoc]
    rcases covers_of_matches_family hg hself hnext with hglobal | hfamily
    · exact Or.inl hglobal
    · exact Or.inr (Or.inl hfamily)
  · have hself := h r htopic ((subscriptionMatches_of_topic htopic).mpr rfl)
    rw [patternPrefix_of_topic htopic]
    rcases validSubscriptionText_iff.mp hg with rfl | ⟨p, rfl, hp, -⟩ | hexact
    · exact Or.inl rfl
    · rw [subscriptionMatches_snoc (validTopicText_ne_nil hp)] at hself
      exact Or.inr (Or.inl ⟨p, rfl, hself⟩)
    · rw [subscriptionMatches_of_topic hexact] at hself
      exact Or.inr (Or.inr hself)

/-- A grant covers a pattern exactly when it matches every topic that the pattern matches. -/
theorem subscriptionCovers_exact (hg : validSubscriptionText g = true)
    (hr : validSubscriptionText r = true) :
    subscriptionCovers g r = true ↔
      ∀ t, validTopicText t = true → subscriptionMatches r t = true →
        subscriptionMatches g t = true := by
  constructor
  · intro hcovers t _ hmatches
    exact subscriptionMatches_of_covers hcovers hmatches
  · exact subscriptionCovers_of_matches hg hr

theorem subscriptionCovers_hal :
    subscriptionCovers (lit "msys.hal.*") (lit "msys.hal.changed") = true ↔
      ∀ t, validTopicText t = true → subscriptionMatches (lit "msys.hal.changed") t = true →
        subscriptionMatches (lit "msys.hal.*") t = true :=
  subscriptionCovers_exact (by decide) (by decide)

/-! ## Authorized events -/

/-- What the Python rules ask of the requested topic or pattern itself. -/
def wellFormed (action : EventAction) (requested : PyStr) : Bool :=
  match action with
  | .publish => validTopicText requested
  | .subscribe => validSubscriptionText requested

theorem validSubscriptionText_of_wellFormed {action : EventAction}
    (h : wellFormed action t = true) : validSubscriptionText t = true := by
  cases action with
  | publish => exact validSubscriptionText_of_topic h
  | subscribe => exact h

@[simp] theorem eventPermission_append (action : EventAction) (rule : PyStr) :
    eventPermission action [] ++ rule = eventPermission action rule := by
  simp [eventPermission]

theorem allowsEvent_iff {action : EventAction} :
    allowsEvent permissions action t = true ↔
      wellFormed action t = true ∧
        ∃ rule, eventPermission action rule ∈ permissions ∧ subscriptionCovers rule t = true := by
  have hform : allowsEvent permissions action t =
      (wellFormed action t && permissions.any fun permission =>
        (eventPermission action []).isPrefixOf permission &&
          subscriptionCovers (permission.drop (eventPermission action []).length) t) := by
    cases action <;> rfl
  rw [hform, Bool.and_eq_true, List.any_eq_true]
  refine and_congr_right fun _ => ?_
  constructor
  · rintro ⟨permission, hmem, h⟩
    rw [Bool.and_eq_true, List.isPrefixOf_iff_prefix] at h
    obtain ⟨⟨rule, rfl⟩, hcovers⟩ := h
    rw [List.drop_left] at hcovers
    exact ⟨rule, by rw [← eventPermission_append]; exact hmem, hcovers⟩
  · rintro ⟨rule, hmem, hcovers⟩
    refine ⟨_, hmem, ?_⟩
    rw [← eventPermission_append action rule, List.drop_left, hcovers, Bool.and_true, List.isPrefixOf_iff_prefix]
    exact List.prefix_append _ _

end MsysCore.Core
