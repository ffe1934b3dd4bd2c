import Mathlib.Data.List.Induction
import Mathlib.Data.List.Nodup
import Mathlib.Data.List.Sort

/-!
# Heaps

A heap shows its least item only. As long as no two items have the same key, the list of the
items in ascending order is all there is to say about it.
-/

namespace MsysCore.Heap

variable {α κ : Type*} [LinearOrder κ] (key : α → κ)

/-- `heapify`. -/
def ofList (items : List α) : List α := items.insertionSort fun a b => key a ≤ key b

/-- `heappush`. -/
def push (heap : List α) (item : α) : List α := heap.orderedInsert (fun a b => key a ≤ key b) item

/-- `heapreplace`: the least item leaves, then the item is pushed. -/
def replace (heap : List α) (item : α) : List α := push key heap.tail item

/-- Keeps the greatest items of a stream, at most `limit` of them. -/
def offer (limit : ℕ) (heap : List α) (item : α) : List α :=
  if heap.length < limit then push key heap item
  else if heap.head?.any fun least => key least < key item then replace key heap item
  else heap

/-! ## Sorted lists of distinct keys -/

/-- The items from the greatest key down. -/
def descending (items : List α) : List α := items.insertionSort fun a b => key b ≤ key a

variable {key}

section

variable {r : α → α → Prop} [DecidableRel r]

theorem take_orderedInsert (n : ℕ) (item : α) (items : List α) :
    (items.orderedInsert r item).take n = ((items.take n).orderedInsert r item).take n := by
  induction items generalizing n with
  | nil => simp
  | cons other items ih =>
    cases n with
    | zero => simp
    | succ n =>
      rw [List.orderedInsert_cons, List.take_succ_cons, List.orderedInsert_cons]
      split_ifs
      · rw [List.take_succ_cons, List.take_succ_cons]
        cases n <;> simp [List.take_take]
      · rw [List.take_succ_cons, List.take_succ_cons, ih]

theorem orderedInsert_of_forall_not {item : α} {items : List α}
    (h : ∀ other ∈ items, ¬ r item other) :
    items.orderedInsert r item = items ++ [item] := by
  induction items with
  | nil => rfl
  | cons other items ih =>
    obtain ⟨hother, hrest⟩ := List.forall_mem_cons.mp h
    rw [List.orderedInsert_cons, if_neg hother, ih hrest, List.cons_append]

theorem orderedInsert_append {item last : α} (hlast : r item last) (items : List α) :
    (items ++ [last]).orderedInsert r item = items.orderedInsert r item ++ [last] := by
  induction items with
  | nil => simp [hlast]
  | cons other items ih =>
    rw [List.cons_append, List.orderedInsert_cons, List.orderedInsert_cons]
    split_ifs
    · rfl
    · rw [ih, List.cons_append]

end

/-- Two lists of the same items, of distinct keys and both from the greatest down. -/
theorem eq_of_perm_of_descending {items others : List α} (hdistinct : (items.map key).Nodup)
    (hperm : items.Perm others) (hitems : items.Pairwise fun a b => key b ≤ key a)
    (hothers : others.Pairwise fun a b => key b ≤ key a) : items = others := by
  refine hperm.eq_of_pairwise ?_ hitems hothers
  intro a b ha hb hab hba
  exact List.inj_on_of_nodup_map hdistinct ha (hperm.mem_iff.mpr hb) (le_antisymm hba hab)

theorem pairwise_descending (items : List α) :
    (descending key items).Pairwise fun a b => key b ≤ key a := by
  have htotal : Std.Total fun a b : α => key b ≤ key a := ⟨fun a b => le_total (key b) (key a)⟩
  have htrans : IsTrans α fun a b => key b ≤ key a := ⟨fun _ _ _ hab hbc => hbc.trans hab⟩
  exact List.pairwise_insertionSort _ items

theorem perm_descending (items : List α) : (descending key items).Perm items :=
  List.perm_insertionSort _ items

theorem pairwise_push {heap : List α} (h : heap.Pairwise fun a b => key a ≤ key b) (item : α) :
    (push key heap item).Pairwise fun a b => key a ≤ key b := by
  have htotal : Std.Total fun a b : α => key a ≤ key b := ⟨fun a b => le_total (key a) (key b)⟩
  have htrans : IsTrans α fun a b => key a ≤ key b := ⟨fun _ _ _ hab hbc => hab.trans hbc⟩
  exact h.orderedInsert item heap

theorem perm_push (heap : List α) (item : α) : (push key heap item).Perm (item :: heap) :=
  List.perm_orderedInsert _ item heap

/-- The order of the items does not matter. -/
theorem descending_perm {items others : List α} (hdistinct : (items.map key).Nodup)
    (hperm : items.Perm others) : descending key items = descending key others := by
  have hsame : (descending key items).Perm (descending key others) :=
    (perm_descending items).trans (hperm.trans (perm_descending others).symm)
  refine eq_of_perm_of_descending ?_ hsame (pairwise_descending items) (pairwise_descending others)
  exact ((perm_descending items).map key).nodup_iff.mpr hdistinct

/-- A push seen from the greatest item down. -/
theorem reverse_push {items : List α} {item : α} (hdistinct : ((item :: items).map key).Nodup)
    (hitems : items.Pairwise fun a b => key b ≤ key a) :
    (push key items.reverse item).reverse =
      items.orderedInsert (fun a b => key b ≤ key a) item := by
  have hperm : (push key items.reverse item).reverse.Perm (item :: items) :=
    (List.reverse_perm _).trans ((perm_push _ item).trans ((List.reverse_perm items).cons item))
  have hascending : items.reverse.Pairwise fun a b => key a ≤ key b :=
    List.pairwise_reverse.mpr hitems
  have htotal : Std.Total fun a b : α => key b ≤ key a := ⟨fun a b => le_total (key b) (key a)⟩
  have htrans : IsTrans α fun a b => key b ≤ key a := ⟨fun _ _ _ hab hbc => hbc.trans hab⟩
  refine eq_of_perm_of_descending ?_ ?_ ?_ (hitems.orderedInsert item items)
  · exact (hperm.map key).nodup_iff.mpr hdistinct
  · exact hperm.trans (List.perm_orderedInsert _ item items).symm
  · exact List.pairwise_reverse.mpr (pairwise_push hascending item)

/-! ## The greatest items of a stream -/

theorem not_le_of_full {items : List α} {item : α} (hdistinct : ((item :: items).map key).Nodup)
    (hitems : items.Pairwise fun a b => key b ≤ key a)
    (hleast : ∀ least ∈ items.getLast?, ¬ key least < key item) :
    ∀ other ∈ items, ¬ key other ≤ key item := by
  intro other hother hle
  have hne : key other ≠ key item := by
    intro heq
    have habsent := (List.nodup_cons.mp hdistinct).1
    exact habsent (heq ▸ List.mem_map_of_mem hother)
  rcases List.eq_nil_or_concat' items with rfl | ⟨rest, least, rfl⟩
  · cases hother
  have hsmallest : key least ≤ key other := by
    rcases List.mem_append.mp hother with hrest | hlast
    · exact (List.pairwise_append.mp hitems).2.2 other hrest least List.mem_cons_self
    · rw [List.mem_singleton.mp hlast]
  have hbelow := hleast least List.getLast?_concat
  exact hbelow (hsmallest.trans_lt (lt_of_le_of_ne hle hne))

/-- One turn: the heap holds the greatest items so far, and after it those of one item more. -/
theorem reverse_offer {limit : ℕ} {items : List α} {item : α}
    (hdistinct : ((item :: items).map key).Nodup)
    (hitems : items.Pairwise fun a b => key b ≤ key a) (hlimit : items.length ≤ limit) :
    (offer key limit items.reverse item).reverse =
      (items.orderedInsert (fun a b => key b ≤ key a) item).take limit := by
  unfold offer
  rw [List.length_reverse, List.head?_reverse]
  split_ifs with hroom hgreater
  · rw [reverse_push hdistinct hitems, List.take_of_length_le]
    rw [List.orderedInsert_length]
    omega
  · rcases List.eq_nil_or_concat' items with rfl | ⟨rest, least, rfl⟩
    · simp at hgreater
    have hless : key least < key item := by simpa using hgreater
    have hrest : ((item :: rest).map key).Nodup := by
      refine hdistinct.sublist (List.Sublist.map key ?_)
      exact (List.sublist_append_left rest [least]).cons_cons item
    have hreplaced : replace key (rest ++ [least]).reverse item = push key rest.reverse item := by
      simp [replace]
    have hinsert := orderedInsert_append (r := fun a b => key b ≤ key a) hless.le rest
    rw [hreplaced, reverse_push hrest (List.pairwise_append.mp hitems).1, hinsert, List.take_left']
    rw [List.length_append, List.length_singleton] at hroom hlimit
    rw [List.orderedInsert_length]
    omega
  · have hleast : ∀ least ∈ items.getLast?, ¬ key least < key item := by
      intro least hleast hless
      exact hgreater (by simpa [Option.mem_def.mp hleast] using hless)
    rw [List.reverse_reverse,
      orderedInsert_of_forall_not (not_le_of_full hdistinct hitems hleast), List.take_left']
    omega

/-- The heap that a stream of items with distinct keys leaves holds the greatest of them. -/
theorem reverse_foldl_offer (limit : ℕ) (items : List α) (hdistinct : (items.map key).Nodup) :
    (items.foldl (offer key limit) []).reverse = (descending key items).take limit := by
  induction items using List.reverseRecOn with
  | nil => simp [descending]
  | append_singleton items item ih =>
    have hperm : (items ++ [item]).Perm (item :: items) := List.perm_append_singleton item items
    have hcons : ((item :: items).map key).Nodup := (hperm.map key).nodup_iff.mp hdistinct
    have hitems : (items.map key).Nodup := (List.nodup_cons.mp hcons).2
    have hheap : items.foldl (offer key limit) [] =
        ((descending key items).take limit).reverse := by
      rw [← ih hitems, List.reverse_reverse]
    have htaken : ((item :: (descending key items).take limit).map key).Nodup := by
      have hsorted : ((item :: descending key items).map key).Perm ((item :: items).map key) :=
        ((perm_descending items).cons item).map key
      refine (hsorted.nodup_iff.mpr hcons).sublist (List.Sublist.map key ?_)
      exact (List.take_sublist limit _).cons_cons item
    have hordered : ((descending key items).take limit).Pairwise fun a b => key b ≤ key a :=
      (pairwise_descending items).sublist (List.take_sublist limit _)
    calc ((items ++ [item]).foldl (offer key limit) []).reverse
        = (offer key limit ((descending key items).take limit).reverse item).reverse := by
          rw [List.foldl_append, hheap]
          rfl
      _ = (((descending key items).take limit).orderedInsert (fun a b => key b ≤ key a) item).take
            limit := reverse_offer htaken hordered (List.length_take_le _ _)
      _ = (descending key (item :: items)).take limit := (take_orderedInsert limit item _).symm
      _ = (descending key (items ++ [item])).take limit := by rw [descending_perm hdistinct hperm]

end MsysCore.Heap
