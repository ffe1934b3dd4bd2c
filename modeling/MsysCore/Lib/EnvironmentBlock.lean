import Mathlib.Data.List.Basic

/-!
# Environment blocks

A block is a list of entries, each a name, a separator and a value. The value of a name is that
of its first entry. Setting a name removes its entries and appends one, so a sequence of updates
acts on values as it would on a map.
-/

namespace MsysCore.EnvironmentBlock

variable {α : Type*} [DecidableEq α] {separator : α}

/-- What stands before the first separator; all of an entry that has none. -/
def key (separator : α) (entry : List α) : List α := entry.takeWhile (· ≠ separator)

def lookup (separator : α) (block : List (List α)) (name : List α) : Option (List α) :=
  (block.find? fun entry => (name ++ [separator]).isPrefixOf entry).map
    fun entry => entry.drop (name.length + 1)

def unset (separator : α) (block : List (List α)) (name : List α) : List (List α) :=
  block.filter fun entry => key separator entry ≠ name

def set (separator : α) (block : List (List α)) (name value : List α) : List (List α) :=
  unset separator block name ++ [name ++ separator :: value]

theorem key_append {name : List α} (h : separator ∉ name) (value : List α) :
    key separator (name ++ separator :: value) = name := by
  have hname : ∀ a ∈ name, decide (a ≠ separator) = true := fun a ha =>
    decide_eq_true fun heq => h (heq ▸ ha)
  unfold key
  rw [List.takeWhile_append_of_pos hname, List.takeWhile_cons_of_neg (by simp), List.append_nil]

theorem key_of_start {name entry : List α} (h : separator ∉ name)
    (hstart : (name ++ [separator]).isPrefixOf entry = true) : key separator entry = name := by
  obtain ⟨value, rfl⟩ := List.isPrefixOf_iff_prefix.mp hstart
  rw [List.append_assoc, List.singleton_append]
  exact key_append h value

theorem lookup_unset_self {name : List α} (h : separator ∉ name) (block : List (List α)) :
    lookup separator (unset separator block name) name = none := by
  unfold lookup
  rw [Option.map_eq_none_iff, List.find?_eq_none]
  intro entry hentry hstart
  have hne := (List.mem_filter.mp hentry).2
  simp only [ne_eq, decide_not, Bool.not_eq_true', decide_eq_false_iff_not] at hne
  exact hne (key_of_start h hstart)

theorem lookup_unset_ne {name other : List α} (hother : separator ∉ other) (hne : other ≠ name)
    (block : List (List α)) :
    lookup separator (unset separator block name) other = lookup separator block other := by
  unfold lookup unset
  congr 1
  rw [List.find?_filter]
  congr 1
  funext entry
  by_cases hstart : (other ++ [separator]).isPrefixOf entry = true
  · simp [hstart, key_of_start hother hstart, hne]
  · simp [hstart]

theorem lookup_unset {name other : List α} (hother : separator ∉ other)
    (block : List (List α)) : lookup separator (unset separator block name) other =
      if other = name then none else lookup separator block other := by
  split_ifs with heq
  · subst heq
    exact lookup_unset_self hother block
  · exact lookup_unset_ne hother heq block

theorem lookup_append (block rest : List (List α)) (name : List α) :
    lookup separator (block ++ rest) name =
      (lookup separator block name).or (lookup separator rest name) := by
  unfold lookup
  rw [List.find?_append, Option.map_or]

theorem lookup_entry {name other : List α} (hname : separator ∉ name) (hother : separator ∉ other)
    (value : List α) : lookup separator [name ++ separator :: value] other =
      if other = name then some value else none := by
  unfold lookup
  split_ifs with heq
  · subst heq
    have hstart : (other ++ [separator]).isPrefixOf (other ++ separator :: value) = true := by
      rw [List.isPrefixOf_iff_prefix]
      exact ⟨value, by simp⟩
    rw [List.find?_cons_of_pos hstart, Option.map_some, List.drop_append, List.drop_of_length_le
      (Nat.le_succ _), Nat.add_sub_cancel_left]
    rfl
  · rw [List.find?_cons_of_neg]
    · rfl
    · intro hstart
      exact heq ((key_of_start hother hstart).symm.trans (key_append hname value))

theorem lookup_set {name other : List α} (hname : separator ∉ name) (hother : separator ∉ other)
    (block : List (List α)) (value : List α) :
    lookup separator (set separator block name value) other =
      if other = name then some value else lookup separator block other := by
  rw [set, lookup_append, lookup_unset hother, lookup_entry hname hother]
  split_ifs
  · rfl
  · exact Option.or_none

/-! ## Several updates -/

/-- The entries in order, each of which replaces what its name had. -/
def setAll (separator : α) (block : List (List α)) (entries : List (List α × List α)) :
    List (List α) :=
  entries.foldl (fun block entry => set separator block entry.1 entry.2) block

/-- The value of the last entry with a name. -/
def lastValue (entries : List (List α × List α)) (name : List α) : Option (List α) :=
  (entries.reverse.find? fun entry => entry.1 = name).map Prod.snd

theorem lookup_setAll {name : List α} (hname : separator ∉ name)
    (entries : List (List α × List α)) :
    ∀ block, (∀ entry ∈ entries, separator ∉ entry.1) →
      lookup separator (setAll separator block entries) name =
        (lastValue entries name).or (lookup separator block name) := by
  induction entries with
  | nil => exact fun _ _ => rfl
  | cons entry rest ih =>
    intro block h
    obtain ⟨hentry, hrest⟩ := List.forall_mem_cons.mp h
    have hvalue : lastValue (entry :: rest) name =
        (lastValue rest name).or (if name = entry.1 then some entry.2 else none) := by
      unfold lastValue
      rw [List.reverse_cons, List.find?_append, Option.map_or]
      by_cases heq : entry.1 = name
      · rw [List.find?_cons_of_pos (by simpa using heq), if_pos heq.symm, Option.map_some]
      · rw [List.find?_cons_of_neg (by simpa using heq), if_neg (Ne.symm heq)]
        rfl
    show lookup separator (setAll separator (set separator block entry.1 entry.2) rest) name = _
    rw [ih _ hrest, lookup_set hentry hname, hvalue, Option.or_assoc]
    congr 1
    split_ifs <;> rfl

inductive Update (α : Type*)
  | set (value : List α)
  | unset
  | keep

/-- What becomes of a value. -/
def Update.apply : Update α → Option (List α) → Option (List α)
  | .set value, _ => some value
  | .unset, _ => none
  | .keep, before => before

def change (separator : α) (block : List (List α)) (name : List α) : Update α → List (List α)
  | .set value => set separator block name value
  | .unset => unset separator block name
  | .keep => block

theorem lookup_change {name other : List α} (hname : separator ∉ name)
    (hother : separator ∉ other) (block : List (List α)) (update : Update α) :
    lookup separator (change separator block name update) other =
      if other = name then update.apply (lookup separator block other)
      else lookup separator block other := by
  cases update with
  | set value => exact lookup_set hname hother block value
  | unset => exact lookup_unset hother block
  | keep => exact (ite_self _).symm

def changeAll (separator : α) (block : List (List α)) (updates : List (List α × Update α)) :
    List (List α) :=
  updates.foldl (fun block update => change separator block update.1 update.2) block

theorem lookup_changeAll_of_not_mem {name : List α} (hname : separator ∉ name)
    (updates : List (List α × Update α)) :
    ∀ block, (∀ update ∈ updates, separator ∉ update.1) → name ∉ updates.map Prod.fst →
      lookup separator (changeAll separator block updates) name = lookup separator block name := by
  induction updates with
  | nil => exact fun _ _ _ => rfl
  | cons update rest ih =>
    intro block h hmem
    obtain ⟨hupdate, hrest⟩ := List.forall_mem_cons.mp h
    rw [List.map_cons, List.mem_cons, not_or] at hmem
    exact (ih _ hrest hmem.2).trans
      ((lookup_change hupdate hname block update.2).trans (if_neg hmem.1))

theorem lookup_changeAll {name : List α} {update : Update α}
    (updates : List (List α × Update α)) :
    ∀ block, (∀ update ∈ updates, separator ∉ update.1) → (updates.map Prod.fst).Nodup →
      (name, update) ∈ updates →
      lookup separator (changeAll separator block updates) name =
        update.apply (lookup separator block name) := by
  induction updates with
  | nil =>
    intro block _ _ hmem
    cases hmem
  | cons first rest ih =>
    intro block h hnodup hmem
    obtain ⟨hfirst, hrest⟩ := List.forall_mem_cons.mp h
    obtain ⟨hnew, hnodup⟩ := List.nodup_cons.mp hnodup
    have hname : separator ∉ name := h (name, update) hmem
    show lookup separator (changeAll separator (change separator block first.1 first.2) rest) name
      = _
    rcases List.mem_cons.mp hmem with rfl | hlater
    · rw [lookup_changeAll_of_not_mem hname rest _ hrest hnew, lookup_change hname hname,
        if_pos rfl]
    · have hne : name ≠ first.1 := by
        rintro rfl
        exact hnew (List.mem_map.mpr ⟨_, hlater, rfl⟩)
      rw [ih _ hrest hnodup hlater, lookup_change hfirst hname, if_neg hne]

end MsysCore.EnvironmentBlock
