import Mathlib.Data.List.Induction
import Mathlib.Data.List.Lex
import Mathlib.Data.List.Nodup
import Mathlib.Data.Set.Finite.List
import Mathlib.Order.WellFounded

/-!
# Least topological orders

Items are put in an order in which each comes after the items before it. The greedy order takes
the least item that may come next; among all such orders it is the least lexicographically.
-/

namespace MsysCore.LeastOrder

open Relation

variable {α : Type*} (before : α → List α)

/-- Every item comes after all that is to come before it. -/
def Follows (order : List α) : Prop :=
  ∀ done a rest, order = done ++ a :: rest → before a ⊆ done

/-- Nothing that could stand in the place of an item is less than it. -/
def Greedy [LinearOrder α] (items order : List α) : Prop :=
  ∀ done a rest, order = done ++ a :: rest →
    ∀ b ∈ items, b ∉ done → before b ⊆ done → a ≤ b

/-- The item that is to come later, and the one before it. -/
def Edge (a d : α) : Prop := d ∈ before a

variable {before}

/-! ## One more item -/

theorem forall_split_snoc {P : List α → α → Prop} {order : List α} {item : α}
    (horder : ∀ done a rest, order = done ++ a :: rest → P done a) (hitem : P order item) :
    ∀ done a rest, order ++ [item] = done ++ a :: rest → P done a := by
  intro done a rest h
  rcases List.eq_nil_or_concat' rest with rfl | ⟨rest, last, rfl⟩
  · obtain ⟨hdone, ha⟩ := List.append_inj' h rfl
    rw [← hdone, ← (List.cons.inj ha).1]
    exact hitem
  · have hcut : order ++ [item] = (done ++ a :: rest) ++ [last] := by simpa using h
    obtain ⟨horder', -⟩ := List.append_inj' hcut rfl
    exact horder done a rest horder'

theorem follows_nil : Follows before [] := by
  intro done a rest h
  simp at h

theorem Follows.snoc {order : List α} {item : α} (h : Follows before order)
    (hitem : before item ⊆ order) : Follows before (order ++ [item]) :=
  forall_split_snoc (P := fun done a => before a ⊆ done) h hitem

theorem Follows.subset {order : List α} (h : Follows before order) {item : α}
    (hitem : item ∈ order) : before item ⊆ order := by
  obtain ⟨done, rest, rfl⟩ := List.append_of_mem hitem
  exact fun a ha => List.mem_append_left _ (h done item rest rfl ha)

theorem greedy_nil [LinearOrder α] (items : List α) : Greedy before items [] := by
  intro done a rest h
  simp at h

theorem Greedy.snoc [LinearOrder α] {items order : List α} {item : α}
    (h : Greedy before items order)
    (hitem : ∀ b ∈ items, b ∉ order → before b ⊆ order → item ≤ b) :
    Greedy before items (order ++ [item]) :=
  forall_split_snoc (P := fun done a => ∀ b ∈ items, b ∉ done → before b ⊆ done → a ≤ b) h hitem

/-! ## The least order -/

theorem Greedy.le_of_prefix [LinearOrder α] {items : List α} (order : List α) :
    ∀ done other : List α, Greedy before items (done ++ order) →
      Follows before (done ++ other) → (done ++ other).Nodup → (∀ b ∈ other, b ∈ items) →
      order.length = other.length → order ≤ other := by
  induction order with
  | nil =>
    intro done other _ _ _ _ hlength
    rw [List.eq_nil_of_length_eq_zero hlength.symm]
  | cons a order ih =>
    intro done other hgreedy hfollows hnodup hitems hlength
    cases other with
    | nil => cases hlength
    | cons b other =>
      have hnew : b ∉ done := by
        intro hmem
        exact (List.nodup_append.mp hnodup).2.2 b hmem b List.mem_cons_self rfl
      have hle : a ≤ b := hgreedy done a order rfl b (hitems b List.mem_cons_self) hnew
        (hfollows done b other rfl)
      rcases hle.eq_or_lt with rfl | hlt
      · refine List.cons_le_cons a (ih (done ++ [a]) other ?_ ?_ ?_ ?_ ?_)
        · simpa using hgreedy
        · simpa using hfollows
        · simpa using hnodup
        · exact fun c hc => hitems c (List.mem_cons_of_mem a hc)
        · simpa using hlength
      · exact le_of_lt (List.Lex.rel hlt)

/-- A greedy order is the least among the orders of the same items. -/
theorem Greedy.le [LinearOrder α] {items order other : List α} (h : Greedy before items order)
    (horder : order.Perm items) (hnodup : items.Nodup) (hother : other.Perm items)
    (hfollows : Follows before other) : order ≤ other :=
  Greedy.le_of_prefix order [] other h hfollows (hother.nodup_iff.mpr hnodup)
    (fun _ hb => hother.mem_iff.mp hb) (horder.trans hother.symm).length_eq

/-- The order of some items that is the least of all in which each comes after the items before
it. -/
structure Least [LinearOrder α] (before : α → List α) (items order : List α) : Prop where
  perm : order.Perm items
  follows : Follows before order
  least : ∀ other, other.Perm items → Follows before other → order ≤ other

theorem Least.unique [LinearOrder α] {items order other : List α}
    (h : Least before items order) (h' : Least before items other) : order = other :=
  le_antisymm (h.least other h'.perm h'.follows) (h'.least order h.perm h.follows)

theorem Follows.congr {before' : α → List α} (hbefore : ∀ a, before' a ⊆ before a)
    {order : List α} (h : Follows before order) : Follows before' order :=
  fun done a rest heq _ hd => h done a rest heq (hbefore a hd)

theorem Least.congr [LinearOrder α] {before' : α → List α}
    (hbefore : ∀ a d, d ∈ before a ↔ d ∈ before' a) {items order : List α}
    (h : Least before items order) : Least before' items order where
  perm := h.perm
  follows := h.follows.congr fun a _ hd => (hbefore a _).mpr hd
  least other hother hfollows :=
    h.least other hother (hfollows.congr fun a _ hd => (hbefore a _).mp hd)

/-! ## Cycles -/

theorem Follows.acc {order : List α} (h : Follows before order) :
    ∀ a ∈ order, Acc (fun d a => Edge before a d) a := by
  induction order using List.reverseRecOn with
  | nil => simp
  | append_singleton order item ih =>
    have horder : Follows before order := by
      intro done a rest heq
      exact h done a (rest ++ [item]) (by rw [heq]; simp)
    intro a ha
    rcases List.mem_append.mp ha with hold | hlast
    · exact ih horder a hold
    · rw [List.mem_singleton.mp hlast]
      exact ⟨_, fun d hd => ih horder d (h order item [] rfl hd)⟩

theorem not_self_of_acc {r : α → α → Prop} {a : α} (h : Acc r a) : ¬ r a a := by
  induction h with
  | intro x _ ih => exact fun hx => ih x hx hx

/-- Some item comes next: all that is before it is there already. -/
theorem exists_next {items order : List α} (hclosed : ∀ a ∈ items, before a ⊆ items) {a : α}
    (hacc : Acc (fun d a => Edge before a d) a) (ha : a ∈ items) (hnew : a ∉ order) :
    ∃ b ∈ items, b ∉ order ∧ before b ⊆ order := by
  induction hacc with
  | intro a _ ih =>
    by_cases hready : before a ⊆ order
    · exact ⟨a, ha, hnew, hready⟩
    · obtain ⟨d, hd, hmissing⟩ : ∃ d ∈ before a, d ∉ order := by
        simpa [List.subset_def] using hready
      exact ih d hd (hclosed a ha hd) hmissing

/-- Items that are well founded can be put in order. -/
theorem exists_follows {items : List α} (hnodup : items.Nodup)
    (hclosed : ∀ a ∈ items, before a ⊆ items)
    (hacc : ∀ a ∈ items, Acc (fun d a => Edge before a d) a) :
    ∃ order : List α, order.Perm items ∧ Follows before order := by
  have hgrow : ∀ n ≤ items.length, ∃ order : List α, order.length = n ∧ order.Nodup ∧
      order ⊆ items ∧ Follows before order := by
    intro n
    induction n with
    | zero => exact fun _ => ⟨[], rfl, List.nodup_nil, List.nil_subset _, follows_nil⟩
    | succ n ih =>
      intro hn
      obtain ⟨order, hlength, horder, hsub, hfollows⟩ := ih (by omega)
      obtain ⟨a, ha, hnew⟩ : ∃ a ∈ items, a ∉ order := by
        by_contra hall
        push Not at hall
        have hle := (hnodup.subperm hall).length_le
        omega
      obtain ⟨b, hb, hfresh, hbefore⟩ := exists_next hclosed (hacc a ha) ha hnew
      refine ⟨order ++ [b], by simp [hlength], ?_, ?_, hfollows.snoc hbefore⟩
      · rw [← List.concat_eq_append]
        exact horder.concat hfresh
      · exact List.append_subset.mpr ⟨hsub, List.cons_subset.mpr ⟨hb, List.nil_subset items⟩⟩
  obtain ⟨order, hlength, horder, hsub, hfollows⟩ := hgrow items.length le_rfl
  exact ⟨order, (horder.subperm hsub).perm_of_length_le hlength.ge, hfollows⟩

/-- What can be put in order has no cycle. -/
theorem Follows.acyclic {order : List α} (h : Follows before order)
    (hall : ∀ a d, Edge before a d → a ∈ order) (a : α) : ¬ TransGen (Edge before) a a := by
  intro hcycle
  have hmem : a ∈ order := by
    obtain ⟨d, hd, -⟩ := TransGen.head'_iff.mp hcycle
    exact hall a d hd
  have hback : TransGen (fun d a => Edge before a d) a a := transGen_swap.mp hcycle
  exact not_self_of_acc (h.acc a hmem).transGen hback

/-- Items each of which waits for another one have a cycle. -/
theorem exists_cycle {items : List α} (hne : items ≠ [])
    (h : ∀ a ∈ items, ∃ d ∈ items, Edge before a d) : ∃ a, TransGen (Edge before) a a := by
  by_contra hnone
  have hfinite : Finite {a // a ∈ items} := (List.finite_toSet items).to_subtype
  let later : {a // a ∈ items} → {a // a ∈ items} → Prop :=
    fun d a => TransGen (Edge before) a.1 d.1
  have htrans : IsTrans _ later := ⟨fun _ _ _ hab hbc => hbc.trans hab⟩
  have hirrefl : Std.Irrefl later := ⟨fun a ha => hnone ⟨a.1, ha⟩⟩
  obtain ⟨first, hfirst⟩ := List.exists_mem_of_ne_nil items hne
  obtain ⟨a, -, hleast⟩ := (Finite.wellFounded_of_trans_of_irrefl later).has_min Set.univ
    ⟨⟨first, hfirst⟩, trivial⟩
  obtain ⟨d, hd, hedge⟩ := h a.1 a.2
  exact hleast ⟨d, hd⟩ trivial (.single hedge)

end MsysCore.LeastOrder
