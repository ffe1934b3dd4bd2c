import Mathlib.Data.Finset.Card
import Mathlib.Logic.Relation
import MsysCore.Lib.Except

/-!
# Depth-first search with marks

A search that marks an item while it visits what the item leads to, and again when it is done
with it. Whatever the marks are kept in, it goes through exactly if no item leads back to itself.
-/

namespace MsysCore.MarkedSearch

open Relation

/-- A state that marks items: `active` while they are visited, `finished` after that. -/
structure Marking (α σ : Type*) where
  active : σ → α → Prop
  finished : σ → α → Prop
  enter : σ → α → σ
  leave : σ → α → σ
  active_enter : ∀ s a b, active (enter s a) b ↔ b = a ∨ active s b
  finished_enter : ∀ s a b, ¬finished s a → (finished (enter s a) b ↔ finished s b)
  active_leave : ∀ s a b, active (leave s a) b ↔ b ≠ a ∧ active s b
  finished_leave : ∀ s a b, finished (leave s a) b ↔ b = a ∨ finished s b

variable {α σ ε : Type*}

/-- What a visit does, by the marks of its item. -/
structure Visits (marking : Marking α σ) (successors : α → List α)
    (visit : ℕ → σ → α → Except ε σ) : Prop where
  deep : ∀ s a, ¬Returns (visit 0 s a)
  active : ∀ fuel s a, marking.active s a → ¬Returns (visit (fuel + 1) s a)
  finished : ∀ fuel s a, ¬marking.active s a → marking.finished s a →
    visit (fuel + 1) s a = .ok s
  unseen : ∀ fuel s a, ¬marking.active s a → ¬marking.finished s a →
    visit (fuel + 1) s a = (successors a).foldlM (visit fuel) (marking.enter s a) >>=
      fun s => .ok (marking.leave s a)

/-- `b` is visited from `a`. -/
def Edge (successors : α → List α) (a b : α) : Prop := b ∈ successors a

/-- Everything that `a` leads to comes to an end. -/
def Ends (successors : α → List α) (a : α) : Prop :=
  Acc (fun b a => Edge successors a b) a

variable {marking : Marking α σ} {successors : α → List α} {visit : ℕ → σ → α → Except ε σ}

theorem Ends.of_edge {a b : α} (h : Ends successors a) (hedge : Edge successors a b) :
    Ends successors b := h.inv hedge

/-- Such an item is not visited below itself. -/
theorem Ends.not_below {a b : α} (h : Ends successors a) (hedge : Edge successors a b) :
    ¬ReflTransGen (Edge successors) b a := by
  intro hback
  have hcycle : TransGen (Edge successors) a a := .head' hedge hback
  have hswap : TransGen (fun b a => Edge successors a b) a a := transGen_swap.mp hcycle
  induction Acc.transGen h with
  | intro x _ ih => exact ih x hswap h hedge hback hcycle hswap

/-- Items are finished only when everything they lead to ends. -/
def Settled (marking : Marking α σ) (successors : α → List α) (s : σ) : Prop :=
  ∀ a, marking.finished s a → Ends successors a

/-- What a visit leaves as it was, and what it adds. -/
structure Grows (marking : Marking α σ) (s s' : σ) : Prop where
  active : ∀ a, marking.active s' a ↔ marking.active s a
  finished : ∀ a, marking.finished s a → marking.finished s' a

theorem Grows.refl (s : σ) : Grows marking s s := ⟨fun _ => Iff.rfl, fun _ h => h⟩

theorem Grows.trans {s t u : σ} (h : Grows marking s t) (h' : Grows marking t u) :
    Grows marking s u :=
  ⟨fun a => (h'.active a).trans (h.active a), fun a ha => h'.finished a (h.finished a ha)⟩

/-- An item is entered, what is below it is visited, and it is left. -/
theorem Grows.around {s t : σ} {a : α} (hactive : ¬marking.active s a)
    (hfinished : ¬marking.finished s a) (h : Grows marking (marking.enter s a) t) :
    Grows marking s (marking.leave t a) := by
  constructor
  · intro b
    rw [marking.active_leave, h.active, marking.active_enter]
    constructor
    · rintro ⟨hne, heq | hb⟩
      · exact absurd heq hne
      · exact hb
    · intro hb
      have hne : b ≠ a := by
        rintro rfl
        exact hactive hb
      exact ⟨hne, .inr hb⟩
  · intro b hb
    rw [marking.finished_leave]
    exact .inr (h.finished b ((marking.finished_enter s a b hfinished).mpr hb))

section Sound

theorem foldlM_grows {fuel : ℕ} (hvisit : ∀ s a s', visit fuel s a = .ok s' →
    Settled marking successors s →
      Grows marking s s' ∧ Settled marking successors s' ∧ marking.finished s' a)
    (items : List α) : ∀ {s s' : σ}, items.foldlM (visit fuel) s = .ok s' →
      Settled marking successors s →
        Grows marking s s' ∧ Settled marking successors s' ∧
          ∀ a ∈ items, marking.finished s' a := by
  induction items with
  | nil =>
    intro s s' hfold hsettled
    cases hfold
    exact ⟨Grows.refl s, hsettled, by simp⟩
  | cons a items ih =>
    intro s s' hfold hsettled
    rw [List.foldlM_cons] at hfold
    obtain ⟨t, hfirst, hrest⟩ := bind_eq_ok.mp hfold
    obtain ⟨hgrows, hsettled, ha⟩ := hvisit s a t hfirst hsettled
    obtain ⟨hgrows', hsettled', hitems⟩ := ih hrest hsettled
    refine ⟨hgrows.trans hgrows', hsettled', ?_⟩
    exact List.forall_mem_cons.mpr ⟨hgrows'.finished a ha, hitems⟩

variable (h : Visits marking successors visit)

include h

/-- A visit that returns has finished its item, and all that it leads to ends. -/
theorem Visits.grows (fuel : ℕ) : ∀ (s : σ) (a : α) (s' : σ), visit fuel s a = .ok s' →
    Settled marking successors s →
      Grows marking s s' ∧ Settled marking successors s' ∧ marking.finished s' a := by
  induction fuel with
  | zero => exact fun s a s' hvisit _ => absurd ⟨s', hvisit⟩ (h.deep s a)
  | succ fuel ih =>
    intro s a s' hvisit hsettled
    by_cases hactive : marking.active s a
    · exact absurd ⟨s', hvisit⟩ (h.active fuel s a hactive)
    by_cases hfinished : marking.finished s a
    · rw [h.finished fuel s a hactive hfinished] at hvisit
      cases hvisit
      exact ⟨Grows.refl s, hsettled, hfinished⟩
    rw [h.unseen fuel s a hactive hfinished] at hvisit
    obtain ⟨t, hbelow, hleave⟩ := bind_eq_ok.mp hvisit
    cases hleave
    have henter : Settled marking successors (marking.enter s a) := fun b hb =>
      hsettled b ((marking.finished_enter s a b hfinished).mp hb)
    obtain ⟨hgrows, hsettled', hall⟩ := foldlM_grows ih _ hbelow henter
    refine ⟨hgrows.around hactive hfinished, fun b hb => ?_,
      (marking.finished_leave t a a).mpr (.inl rfl)⟩
    rcases (marking.finished_leave t a b).mp hb with rfl | hb
    · exact ⟨_, fun c hc => hsettled' c (hall c hc)⟩
    · exact hsettled' b hb

end Sound

section Complete

open Classical in
/-- The items that are not marked. -/
noncomputable def unmarked (marking : Marking α σ) (items : Finset α) (s : σ) : Finset α :=
  items.filter fun a => ¬marking.active s a ∧ ¬marking.finished s a

variable {items : Finset α}

theorem mem_unmarked {s : σ} {a : α} : a ∈ unmarked marking items s ↔
    a ∈ items ∧ ¬marking.active s a ∧ ¬marking.finished s a := by
  classical
  unfold unmarked
  rw [Finset.mem_filter]

theorem Grows.unmarked_subset {s t : σ} (h : Grows marking s t) :
    unmarked marking items t ⊆ unmarked marking items s := by
  intro a ha
  obtain ⟨hmem, hactive, hfinished⟩ := mem_unmarked.mp ha
  exact mem_unmarked.mpr ⟨hmem, fun hin => hactive ((h.active a).mpr hin),
    fun hin => hfinished (h.finished a hin)⟩

theorem unmarked_enter {s : σ} {a : α} (ha : a ∈ items) (hactive : ¬marking.active s a)
    (hfinished : ¬marking.finished s a) :
    (unmarked marking items (marking.enter s a)).card < (unmarked marking items s).card := by
  refine Finset.card_lt_card (Finset.ssubset_iff_subset_ne.mpr ⟨?_, fun heq => ?_⟩)
  · intro b hb
    obtain ⟨hmem, hactive', hfinished'⟩ := mem_unmarked.mp hb
    rw [marking.active_enter, not_or] at hactive'
    rw [marking.finished_enter s a b hfinished] at hfinished'
    exact mem_unmarked.mpr ⟨hmem, hactive'.2, hfinished'⟩
  · have hold : a ∈ unmarked marking items s := mem_unmarked.mpr ⟨ha, hactive, hfinished⟩
    rw [← heq] at hold
    exact (mem_unmarked.mp hold).2.1 ((marking.active_enter s a a).mpr (.inl rfl))

/-- What a visit may rely on: its item ends, and nothing below it is being visited. -/
structure Open (marking : Marking α σ) (successors : α → List α) (items : Finset α) (s : σ)
    (a : α) : Prop where
  mem : a ∈ items
  ends : Ends successors a
  below : ∀ b, ReflTransGen (Edge successors) a b → ¬marking.active s b

theorem Open.congr {s t : σ} {a : α} (h : Open marking successors items s a)
    (hactive : ∀ b, marking.active t b ↔ marking.active s b) :
    Open marking successors items t a :=
  ⟨h.mem, h.ends, fun b hb hin => h.below b hb ((hactive b).mp hin)⟩

theorem Open.enter {s : σ} {a b : α} (h : Open marking successors items s a)
    (hclosed : ∀ a ∈ items, ∀ b ∈ successors a, b ∈ items) (hedge : b ∈ successors a) :
    Open marking successors items (marking.enter s a) b := by
  refine ⟨hclosed a h.mem b hedge, h.ends.of_edge hedge, fun c hc hactive => ?_⟩
  rcases (marking.active_enter s a c).mp hactive with rfl | hactive
  · exact h.ends.not_below hedge hc
  · exact h.below c (.head hedge hc) hactive

variable (h : Visits marking successors visit)

include h

theorem foldlM_returns_of_open {fuel : ℕ} (hvisit : ∀ s a, Settled marking successors s →
      Open marking successors items s a → (unmarked marking items s).card < fuel →
        Returns (visit fuel s a)) (list : List α) :
    ∀ s, Settled marking successors s →
      (∀ a ∈ list, Open marking successors items s a) → (unmarked marking items s).card < fuel →
        Returns (list.foldlM (visit fuel) s) := by
  induction list with
  | nil => exact fun s _ _ _ => ⟨s, rfl⟩
  | cons a list ih =>
    intro s hsettled hopen hfuel
    obtain ⟨hfirst, hothers⟩ := List.forall_mem_cons.mp hopen
    obtain ⟨t, ht⟩ := hvisit s a hsettled hfirst hfuel
    obtain ⟨hgrows, hsettled', -⟩ := h.grows fuel s a t ht hsettled
    have hsubset : unmarked marking items t ⊆ unmarked marking items s := hgrows.unmarked_subset
    have hless := (Finset.card_le_card hsubset).trans_lt hfuel
    obtain ⟨u, hu⟩ := ih t hsettled' (fun b hb => (hothers b hb).congr hgrows.active) hless
    rw [List.foldlM_cons]
    exact ⟨u, bind_eq_ok.mpr ⟨t, ht, hu⟩⟩

variable (hclosed : ∀ a ∈ items, ∀ b ∈ successors a, b ∈ items)

include hclosed

/-- A visit of an item that ends returns. Each level enters an item that was not marked. -/
theorem Visits.returns (fuel : ℕ) : ∀ (s : σ) (a : α), Settled marking successors s →
    Open marking successors items s a → (unmarked marking items s).card < fuel →
      Returns (visit fuel s a) := by
  induction fuel with
  | zero => exact fun s a _ _ hfuel => absurd hfuel (Nat.not_lt_zero _)
  | succ fuel ih =>
    intro s a hsettled hopen hfuel
    have hactive : ¬marking.active s a := hopen.below a .refl
    by_cases hfinished : marking.finished s a
    · exact ⟨s, h.finished fuel s a hactive hfinished⟩
    have henter : Settled marking successors (marking.enter s a) := fun b hb =>
      hsettled b ((marking.finished_enter s a b hfinished).mp hb)
    have hless := unmarked_enter hopen.mem hactive hfinished
    obtain ⟨t, ht⟩ := foldlM_returns_of_open h ih (successors a) (marking.enter s a) henter
      (fun b hb => hopen.enter hclosed hb) (by omega)
    rw [h.unseen fuel s a hactive hfinished]
    exact ⟨marking.leave t a, bind_eq_ok.mpr ⟨t, ht, rfl⟩⟩

/-- A search over all items, from a state without marks, goes through exactly if everything that
they lead to ends. -/
theorem Visits.search_iff (fuel : ℕ) (s : σ) (list : List α) (hlist : ∀ a, a ∈ list ↔ a ∈ items)
    (hactive : ∀ a, ¬marking.active s a) (hfinished : ∀ a, ¬marking.finished s a)
    (hfuel : items.card < fuel) :
    Returns (list.foldlM (visit fuel) s) ↔ ∀ a ∈ list, Ends successors a := by
  have hsettled : Settled marking successors s := fun a ha => absurd ha (hfinished a)
  constructor
  · rintro ⟨t, ht⟩ a ha
    obtain ⟨-, hsettled', hall⟩ := foldlM_grows (h.grows fuel) list ht hsettled
    exact hsettled' a (hall a ha)
  · intro hends
    have hsubset : unmarked marking items s ⊆ items := fun a ha => (mem_unmarked.mp ha).1
    refine foldlM_returns_of_open h (h.returns hclosed fuel) list s hsettled ?_
      ((Finset.card_le_card hsubset).trans_lt hfuel)
    exact fun a ha => ⟨(hlist a).mp ha, hends a ha, fun b _ => hactive b⟩

end Complete

end MsysCore.MarkedSearch
