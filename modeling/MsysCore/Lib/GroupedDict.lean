import Mathlib.Data.List.Sort
import MsysCore.Lib.OrderedDict

/-!
# Grouped dictionaries

A dictionary of groups, each a dictionary of its members. A member that is added again is
merged with what its group has for it. A lookup is the merge of all that was added there.
-/

namespace MsysCore.GroupedDict

open OrderedDict (get set)

variable {γ μ α β : Type*} [DecidableEq γ] [DecidableEq μ] (merge : α → α → α)

/-- Adds one value for a member of a group. -/
def add (d : List (γ × List (μ × α))) (group : γ) (member : μ) (value : α) :
    List (γ × List (μ × α)) :=
  let members := (get d group).getD []
  let entry := match get members member with
    | none => value
    | some previous => merge previous value
  set d group (set members member entry)

def lookup (d : List (γ × List (μ × α))) (group : γ) (member : μ) : Option α :=
  get ((get d group).getD []) member

/-- All values in the order in which they are added. -/
def combine : List α → Option α
  | [] => none
  | value :: values => some (values.foldl merge value)

/-- Adds a value to what is there. -/
def mergeInto : Option α → α → Option α
  | none, value => some value
  | some previous, value => some (merge previous value)

theorem foldl_mergeInto (values : List α) (previous : α) :
    values.foldl (mergeInto merge) (some previous) = some (values.foldl merge previous) := by
  induction values generalizing previous with
  | nil => rfl
  | cons value values ih => exact ih (merge previous value)

theorem foldl_mergeInto_none (values : List α) :
    values.foldl (mergeInto merge) none = combine merge values := by
  cases values with
  | nil => rfl
  | cons value values => exact foldl_mergeInto merge values value

/-- A map that the merges respect commutes with merging all values. -/
theorem combine_map {ζ : Type*} (mergeImage : ζ → ζ → ζ) {f : α → ζ}
    (hf : ∀ a b, mergeImage (f a) (f b) = f (merge a b)) (values : List α) :
    combine mergeImage (values.map f) = (combine merge values).map f := by
  cases values with
  | nil => rfl
  | cons value values =>
    rw [List.map_cons, combine, List.foldl_map]
    exact congrArg some (List.foldl_hom f fun a b => hf a b)

theorem get_mapValues {ζ : Type*} (f : α → ζ) (d : List (γ × α)) (group : γ) :
    get (d.map fun entry => (entry.1, f entry.2)) group = (get d group).map f := by
  induction d with
  | nil => rfl
  | cons entry d ih =>
    obtain ⟨key, value⟩ := entry
    by_cases h : key = group
    · simp [OrderedDict.get, h]
    · simp [OrderedDict.get, h, ih]

theorem lookup_add (d : List (γ × List (μ × α))) (group other : γ) (member who : μ) (value : α) :
    lookup (add merge d group member value) other who =
      if group = other ∧ member = who then mergeInto merge (lookup d other who) value
      else lookup d other who := by
  unfold lookup add
  by_cases hgroup : group = other
  · subst hgroup
    rw [OrderedDict.get_set_self, Option.getD_some, OrderedDict.get_set]
    by_cases hmember : member = who
    · subst hmember
      cases hprevious : get ((get d group).getD []) member <;> simp [mergeInto]
    · simp [hmember, Ne.symm hmember]
  · rw [OrderedDict.get_set_ne (Ne.symm hgroup)]
    simp [hgroup]

/-- The groups are those something was added to. -/
theorem mem_groups_add (d : List (γ × List (μ × α))) (group other : γ) (member : μ) (value : α) :
    other ∈ (add merge d group member value).map Prod.fst ↔
      other = group ∨ other ∈ d.map Prod.fst := by
  have hnone : other ∉ (add merge d group member value).map Prod.fst ↔
      other ≠ group ∧ other ∉ d.map Prod.fst := by
    rw [← OrderedDict.get_eq_none_iff, ← OrderedDict.get_eq_none_iff, add, OrderedDict.get_set]
    by_cases h : other = group <;> simp [h]
  tauto

/-- Groups have distinct names, and each its members once. -/
structure Distinct (d : List (γ × List (μ × α))) : Prop where
  groups : (d.map Prod.fst).Nodup
  members : ∀ group, (((get d group).getD []).map Prod.fst).Nodup

theorem Distinct.add {d : List (γ × List (μ × α))} (h : Distinct d) (group : γ) (member : μ)
    (value : α) : Distinct (add merge d group member value) where
  groups := OrderedDict.nodup_set h.groups _ _
  members other := by
    rw [GroupedDict.add, OrderedDict.get_set]
    by_cases hother : other = group
    · simpa [hother] using OrderedDict.nodup_set (h.members group) _ _
    · simpa [hother] using h.members other

/-! ## Folding the items of a table

`entry` says for an item of a member under which group it goes and with what value. -/

section

variable (entry : μ → β → Option (γ × α))

def addItem (member : μ) (d : List (γ × List (μ × α))) (item : β) : List (γ × List (μ × α)) :=
  match entry member item with
  | none => d
  | some (group, value) => add merge d group member value

def collect (table : List (μ × List β)) : List (γ × List (μ × α)) :=
  table.foldl (fun d row => row.2.foldl (addItem merge entry row.1) d) []

/-- What the items of a member add to a group. -/
def values (group : γ) (member : μ) (items : List β) : List α :=
  items.filterMap fun item =>
    (entry member item).bind fun e => if e.1 = group then some e.2 else none

theorem lookup_items (group : γ) (who member : μ) (items : List β)
    (d : List (γ × List (μ × α))) :
    lookup (items.foldl (addItem merge entry member) d) group who =
      if member = who then
        (values entry group member items).foldl (mergeInto merge) (lookup d group who)
      else lookup d group who := by
  induction items generalizing d with
  | nil => simp [values]
  | cons item items ih =>
    rw [List.foldl_cons, ih]
    cases hentry : entry member item with
    | none => simp [addItem, values, hentry]
    | some e =>
      obtain ⟨other, value⟩ := e
      by_cases hmember : member = who
      · subst hmember
        by_cases hgroup : other = group <;> simp [addItem, values, hentry, lookup_add, hgroup]
      · simp [addItem, hentry, lookup_add, hmember]

theorem lookup_rows (group : γ) (who : μ) (table : List (μ × List β))
    (htable : (table.map Prod.fst).Nodup) (d : List (γ × List (μ × α))) :
    lookup (table.foldl (fun d row => row.2.foldl (addItem merge entry row.1) d) d) group who =
      (values entry group who ((get table who).getD [])).foldl (mergeInto merge)
        (lookup d group who) := by
  induction table generalizing d with
  | nil => rfl
  | cons row table ih =>
    obtain ⟨member, items⟩ := row
    obtain ⟨hmember, hrest⟩ := List.nodup_cons.mp htable
    rw [List.foldl_cons, ih hrest, lookup_items, OrderedDict.get]
    by_cases h : member = who
    · subst h
      have habsent : get table member = none := OrderedDict.get_eq_none_iff.mpr hmember
      simp [habsent, values]
    · simp [h]

/-- A lookup is the merge of what the items of the member add to the group. -/
theorem lookup_collect {table : List (μ × List β)} (htable : (table.map Prod.fst).Nodup)
    (group : γ) (who : μ) :
    lookup (collect merge entry table) group who =
      combine merge (values entry group who ((get table who).getD [])) := by
  rw [collect, lookup_rows merge entry group who table htable, ← foldl_mergeInto_none]
  rfl

theorem distinct_items {d : List (γ × List (μ × α))} (h : Distinct d) (member : μ)
    (items : List β) : Distinct (items.foldl (addItem merge entry member) d) := by
  induction items generalizing d with
  | nil => exact h
  | cons item items ih =>
    refine ih ?_
    unfold addItem
    cases entry member item with
    | none => exact h
    | some e => exact h.add merge e.1 member e.2

theorem distinct_collect (table : List (μ × List β)) : Distinct (collect merge entry table) := by
  have hrows : ∀ d : List (γ × List (μ × α)), Distinct d →
      Distinct (table.foldl (fun d row => row.2.foldl (addItem merge entry row.1) d) d) := by
    induction table with
    | nil => exact fun d h => h
    | cons row table ih => exact fun d h => ih _ (distinct_items merge entry h row.1 row.2)
  exact hrows [] ⟨List.nodup_nil, fun _ => List.nodup_nil⟩

/-- No group is empty. -/
def Inhabited (d : List (γ × List (μ × α))) : Prop :=
  ∀ group, group ∈ d.map Prod.fst ↔ ∃ member, (lookup d group member).isSome

theorem inhabited_add {d : List (γ × List (μ × α))} (h : Inhabited d) (group : γ) (member : μ)
    (value : α) : Inhabited (add merge d group member value) := by
  intro other
  rw [mem_groups_add, h other]
  constructor
  · rintro (rfl | ⟨who, hwho⟩)
    · refine ⟨member, ?_⟩
      rw [lookup_add, if_pos ⟨rfl, rfl⟩]
      cases lookup d other member <;> rfl
    · refine ⟨who, ?_⟩
      rw [lookup_add]
      split_ifs
      · cases lookup d other who <;> rfl
      · exact hwho
  · rintro ⟨who, hwho⟩
    rw [lookup_add] at hwho
    split_ifs at hwho with hsame
    · exact .inl hsame.1.symm
    · exact .inr ⟨who, hwho⟩

theorem inhabited_collect (table : List (μ × List β)) : Inhabited (collect merge entry table) := by
  have hitems : ∀ (member : μ) (items : List β) (d : List (γ × List (μ × α))), Inhabited d →
      Inhabited (items.foldl (addItem merge entry member) d) := by
    intro member items
    induction items with
    | nil => exact fun d h => h
    | cons item items ih =>
      intro d h
      refine ih _ ?_
      unfold addItem
      cases entry member item with
      | none => exact h
      | some e => exact inhabited_add merge h e.1 member e.2
  have hrows : ∀ d : List (γ × List (μ × α)), Inhabited d →
      Inhabited (table.foldl (fun d row => row.2.foldl (addItem merge entry row.1) d) d) := by
    induction table with
    | nil => exact fun d h => h
    | cons row table ih => exact fun d h => ih _ (hitems row.1 row.2 d h)
  exact hrows [] fun group => by simp [lookup, OrderedDict.get]

/-- The groups are those for which some member has an item. -/
theorem mem_groups_collect {table : List (μ × List β)} (htable : (table.map Prod.fst).Nodup)
    (group : γ) :
    group ∈ (collect merge entry table).map Prod.fst ↔
      ∃ member, values entry group member ((get table member).getD []) ≠ [] := by
  rw [inhabited_collect merge entry table group]
  refine exists_congr fun member => ?_
  rw [lookup_collect merge entry htable]
  cases values entry group member ((get table member).getD []) <;> simp [combine]

end

/-! ## Keys that are met several times -/

theorem nodup_eraseDups {κ : Type*} [BEq κ] [LawfulBEq κ] (l : List κ) : l.eraseDups.Nodup := by
  induction hlength : l.length using Nat.strong_induction_on generalizing l with
  | _ n ih =>
    cases l with
    | nil => exact List.nodup_nil
    | cons a l =>
      rw [List.eraseDups_cons, List.nodup_cons]
      have hshort : (l.filter fun b => !b == a).length < n := by
        have hle := List.length_filter_le (fun b => !b == a) l
        rw [List.length_cons] at hlength
        omega
      exact ⟨by simp [List.mem_eraseDups], ih _ hshort _ rfl⟩

theorem eraseDups_of_nodup {κ : Type*} [BEq κ] [LawfulBEq κ] {l : List κ} (h : l.Nodup) :
    l.eraseDups = l := by
  induction l with
  | nil => rfl
  | cons a l ih =>
    obtain ⟨hnew, hrest⟩ := List.nodup_cons.mp h
    have hothers : l.filter (fun b => !b == a) = l := by
      refine List.filter_eq_self.mpr fun b hb => ?_
      have hne : b ≠ a := fun heq => hnew (heq ▸ hb)
      simpa using hne
    rw [List.eraseDups_cons, hothers, ih hrest]

/-! ## Merging a pair of bounds -/

/-- Merging by the larger number and by disjunction. -/
theorem foldl_max_or {κ : Type*} [LinearOrder κ] (number : β → κ) (flag : β → Bool)
    (items : List β) (first : κ × Bool) :
    (items.map fun item => (number item, flag item)).foldl
        (fun previous value => (max previous.1 value.1, previous.2 || value.2)) first =
      ((items.map number).foldl max first.1, first.2 || items.any flag) := by
  induction items generalizing first with
  | nil => simp
  | cons item items ih =>
    rw [List.map_cons, List.foldl_cons, ih]
    simp [Bool.or_assoc]

end MsysCore.GroupedDict
