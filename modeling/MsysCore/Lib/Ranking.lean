import Mathlib.Data.List.Sort
import Mathlib.Order.Basic
import Mathlib.Order.Lattice.Nat

/-!
# Rankings

Candidates are ranked by a list of preferences, then by priority, and at last by something that
tells all of them apart. Two rankings that differ in the last point only give the same order
unless a tie is settled in two ways.
-/

namespace MsysCore.Ranking

section

variable {α : Type*} {r s : α → α → Prop} {l l' : List α}

/-- Only one list has given members in an order. -/
theorem eq_of_pairwise (hr : ∀ a b, r a b → ¬r b a) (hl : l.Pairwise r) (hl' : l'.Pairwise r)
    (hmem : ∀ a, a ∈ l ↔ a ∈ l') : l = l' := by
  have : Std.Irrefl r := ⟨fun a h => hr a a h h⟩
  have : Std.Antisymm r := ⟨fun a b h h' => absurd h' (hr a b h)⟩
  exact hl.eq_of_mem_iff hl' hmem

/-- Lists with the same members in two orders are the same exactly when one order follows from
the other on them. -/
theorem eq_iff_of_pairwise (hr : ∀ a b, r a b → ¬r b a) (hs : ∀ a b, s a b → ¬s b a)
    (hl : l.Pairwise r) (hl' : l'.Pairwise s) (hmem : ∀ a, a ∈ l ↔ a ∈ l') :
    l = l' ↔ ∀ a ∈ l, ∀ b ∈ l, r a b → s a b := by
  constructor
  · rintro rfl a ha b hb hab
    let agree (a b : α) : Prop := (r a b → s a b) ∧ (r b a → s b a)
    have hsymm : Std.Symm agree := ⟨fun a b h => ⟨h.2, h.1⟩⟩
    have hagree : l.Pairwise agree := (hl.and hl').imp fun h =>
      ⟨fun _ => h.2, fun hba => absurd hba (hr _ _ h.1)⟩
    have hne : a ≠ b := by
      rintro rfl
      exact hr a a hab hab
    exact (hagree.forall ha hb hne).1 hab
  · intro h
    exact eq_of_pairwise hs (hl.imp_of_mem fun ha hb => h _ ha _ hb) hl' hmem

end

variable {α π τ : Type*} [BEq α] [LinearOrder τ]

/-- Candidates that are not preferred and have one priority. -/
def Tied (preferred : List α) (priority : α → π) (a b : α) : Prop :=
  a ∉ preferred ∧ b ∉ preferred ∧ priority a = priority b

/-- The same candidates in the same order, but for those that tie: these are in the order of
`tie`. -/
structure SameButTies (preferred : List α) (priority : α → π) (tie : α → τ) (l l' : List α) :
    Prop where
  perm : l'.Perm l
  tied : l'.Pairwise fun a b => Tied preferred priority a b → tie a < tie b
  others : l'.Pairwise fun a b => ¬Tied preferred priority a b → l.idxOf a < l.idxOf b

variable {preferred : List α} {priority : α → π} {tie : α → τ}

/-- Ties depend on whether the candidates are preferred, not on how. -/
theorem SameButTies.congr {preferred' : List α} {l l' : List α}
    (hmem : ∀ a ∈ l', a ∈ preferred ↔ a ∈ preferred')
    (h : SameButTies preferred priority tie l l') : SameButTies preferred' priority tie l l' := by
  have htied : ∀ a ∈ l', ∀ b ∈ l', Tied preferred priority a b ↔ Tied preferred' priority a b := by
    intro a ha b hb
    unfold Tied
    rw [hmem a ha, hmem b hb]
  refine ⟨h.perm, h.tied.imp_of_mem fun {a b} ha hb hab hties => hab ((htied a ha b hb).mpr hties),
    h.others.imp_of_mem fun {a b} ha hb hab hties => hab fun hties' => hties ?_⟩
  exact (htied a ha b hb).mp hties'

theorem Tied.idxOf_eq [LawfulBEq α] {a b : α} (h : Tied preferred priority a b) :
    preferred.idxOf a = preferred.idxOf b := by
  obtain ⟨hfirst, hsecond, -⟩ := h
  rw [List.idxOf_eq_length_iff.mpr hfirst, List.idxOf_eq_length_iff.mpr hsecond]

variable [LinearOrder π]

/-- What is preferred comes first, as it is listed, then what has the higher priority, then what
has the lesser tie. -/
def Ranks (preferred : List α) (priority : α → π) (tie : α → τ) (a b : α) : Prop :=
  preferred.idxOf a < preferred.idxOf b ∨
    (preferred.idxOf a = preferred.idxOf b ∧
      (priority b < priority a ∨ (priority a = priority b ∧ tie a < tie b)))

theorem Ranks.asymm (a b : α) (h : Ranks preferred priority tie a b) :
    ¬Ranks preferred priority tie b a := by
  rintro (hlisted | ⟨hlisted, hpriority | ⟨hpriority, htie⟩⟩)
  · rcases h with h | ⟨h, -⟩
    · exact lt_asymm h hlisted
    · exact hlisted.ne h.symm
  · rcases h with h | ⟨-, h | ⟨h, -⟩⟩
    · exact h.ne hlisted.symm
    · exact lt_asymm h hpriority
    · exact hpriority.ne h
  · rcases h with h | ⟨-, h | ⟨-, h⟩⟩
    · exact h.ne hlisted.symm
    · exact h.ne hpriority
    · exact lt_asymm h htie

theorem Ranks.nodup {l : List α} (h : l.Pairwise (Ranks preferred priority tie)) : l.Nodup := by
  refine h.imp ?_
  rintro a _ hab rfl
  exact Ranks.asymm a a hab hab

variable [LawfulBEq α]

/-- The preferred ones as they are listed, and the others behind them. -/
theorem pairwise_append {rest : List α} (hpreferred : preferred.Nodup)
    (hrest : rest.Pairwise fun a b =>
      priority b < priority a ∨ (priority a = priority b ∧ tie a < tie b))
    (hunlisted : ∀ a ∈ rest, a ∉ preferred) :
    (preferred ++ rest).Pairwise (Ranks preferred priority tie) := by
  have hlast : ∀ a ∈ rest, preferred.idxOf a = preferred.length := fun a ha =>
    List.idxOf_eq_length_iff.mpr (hunlisted a ha)
  refine List.pairwise_append.mpr ⟨?_, hrest.imp_of_mem ?_, ?_⟩
  · refine List.pairwise_iff_getElem.mpr fun i j hi hj hij => .inl ?_
    rwa [hpreferred.idxOf_getElem i hi, hpreferred.idxOf_getElem j hj]
  · intro a b ha hb hab
    exact .inr ⟨(hlast a ha).trans (hlast b hb).symm, hab⟩
  · intro a ha b hb
    rw [Ranks, hlast b hb]
    exact .inl (List.idxOf_lt_length_of_mem ha)

theorem Ranks.tie_lt {a b : α} (h : Ranks preferred priority tie a b)
    (htied : Tied preferred priority a b) : tie a < tie b := by
  rcases h with h | ⟨-, h | ⟨-, h⟩⟩
  · exact absurd htied.idxOf_eq h.ne
  · exact absurd htied.2.2 h.ne'
  · exact h

/-- What does not tie is ranked alike, whatever settles ties. -/
theorem Ranks.of_not_tied {υ : Type*} [LinearOrder υ] {tie' : α → υ} {a b : α}
    (h : Ranks preferred priority tie a b) (htied : ¬Tied preferred priority a b) :
    Ranks preferred priority tie' a b := by
  rcases h with hlisted | ⟨hlisted, hpriority | ⟨hpriority, htie⟩⟩
  · exact .inl hlisted
  · exact .inr ⟨hlisted, .inl hpriority⟩
  · have hne : a ≠ b := by
      rintro rfl
      exact lt_irrefl _ htie
    have hfirst : a ∉ preferred := fun hmem => hne ((List.idxOf_inj hmem).mp hlisted)
    have hsecond : b ∉ preferred := fun hmem =>
      hne ((List.idxOf_inj hmem).mp hlisted.symm).symm
    exact absurd ⟨hfirst, hsecond, hpriority⟩ htied

/-- In a ranking the one that is ranked first stands first. -/
theorem Ranks.idxOf_lt {l : List α} (h : l.Pairwise (Ranks preferred priority tie)) {a b : α}
    (ha : a ∈ l) (hb : b ∈ l) (hab : Ranks preferred priority tie a b) :
    l.idxOf a < l.idxOf b := by
  rcases lt_trichotomy (l.idxOf a) (l.idxOf b) with hlt | heq | hgt
  · exact hlt
  · have hsame := (List.idxOf_inj ha).mp heq
    subst hsame
    exact absurd hab (Ranks.asymm a a hab)
  · have hplaces := List.pairwise_iff_getElem.mp h _ _ (List.idxOf_lt_length_of_mem hb)
      (List.idxOf_lt_length_of_mem ha) hgt
    rw [List.getElem_idxOf, List.getElem_idxOf] at hplaces
    exact absurd hplaces (Ranks.asymm a b hab)

section

variable {υ : Type*} [LinearOrder υ] {tie' : α → υ} {l l' : List α}
  (hl : l.Pairwise (Ranks preferred priority tie))
  (hl' : l'.Pairwise (Ranks preferred priority tie')) (hmem : ∀ a, a ∈ l ↔ a ∈ l')

include hl hl' hmem

theorem sameButTies_of_ranks : SameButTies preferred priority tie' l l' where
  perm := (List.perm_ext_iff_of_nodup (Ranks.nodup hl') (Ranks.nodup hl)).mpr fun a =>
    (hmem a).symm
  tied := hl'.imp Ranks.tie_lt
  others := hl'.imp_of_mem fun {a b} ha hb hab htied =>
    Ranks.idxOf_lt hl ((hmem a).mpr ha) ((hmem b).mpr hb) (hab.of_not_tied htied)

/-- Rankings with different ties give the same order exactly when every tie is settled in the same
way. -/
theorem eq_iff_ties : l = l' ↔
    ∀ a ∈ l, ∀ b ∈ l, Tied preferred priority a b → tie a < tie b → tie' a < tie' b := by
  rw [eq_iff_of_pairwise Ranks.asymm Ranks.asymm hl hl' hmem]
  refine forall₂_congr fun a ha => forall₂_congr fun b hb => ?_
  constructor
  · intro h htied htie
    exact (h (.inr ⟨htied.idxOf_eq, .inr ⟨htied.2.2, htie⟩⟩)).tie_lt htied
  · intro h hab
    by_cases htied : Tied preferred priority a b
    · exact .inr ⟨htied.idxOf_eq, .inr ⟨htied.2.2, h htied (hab.tie_lt htied)⟩⟩
    · exact hab.of_not_tied htied

end

end MsysCore.Ranking
