import Mathlib.Data.List.Basic

/-!
# Insertion-ordered dictionaries

A dictionary is the list of its entries. Setting a present key keeps its place, a new
key goes to the end. The lemmas say what each update does to a lookup.
-/

namespace MsysCore.OrderedDict

variable {κ α : Type*} [DecidableEq κ]

def get : List (κ × α) → κ → Option α
  | [], _ => none
  | (k, v) :: d, key => if k = key then some v else get d key

def set : List (κ × α) → κ → α → List (κ × α)
  | [], key, value => [(key, value)]
  | (k, v) :: d, key, value => if k = key then (k, value) :: d else (k, v) :: set d key value

def pop (d : List (κ × α)) (key : κ) : List (κ × α) := d.filter fun entry => entry.1 ≠ key

@[simp] theorem get_set_self (d : List (κ × α)) (key : κ) (value : α) :
    get (set d key value) key = some value := by
  induction d with
  | nil => simp [set, get]
  | cons entry d ih =>
    obtain ⟨k, v⟩ := entry
    by_cases h : k = key <;> simp [set, get, h, ih]

theorem get_set_ne {key other : κ} (h : other ≠ key) (d : List (κ × α)) (value : α) :
    get (set d key value) other = get d other := by
  induction d with
  | nil => simp [set, get, Ne.symm h]
  | cons entry d ih =>
    obtain ⟨k, v⟩ := entry
    by_cases hk : k = key
    · simp [set, get, hk, Ne.symm h]
    · by_cases ho : k = other
      · simp [set, get, ho, h]
      · simp [set, get, hk, ho, ih]

@[simp] theorem get_pop_self (d : List (κ × α)) (key : κ) : get (pop d key) key = none := by
  induction d with
  | nil => rfl
  | cons entry d ih =>
    obtain ⟨k, v⟩ := entry
    by_cases h : k = key
    · simpa [pop, h] using ih
    · simpa [pop, get, h] using ih

theorem get_pop_ne {key other : κ} (h : other ≠ key) (d : List (κ × α)) :
    get (pop d key) other = get d other := by
  induction d with
  | nil => rfl
  | cons entry d ih =>
    obtain ⟨k, v⟩ := entry
    by_cases hk : k = key
    · simpa [pop, get, hk, Ne.symm h] using ih
    · by_cases ho : k = other
      · simp [pop, get, ho, h]
      · simpa [pop, get, hk, ho] using ih

theorem get_set (d : List (κ × α)) (key other : κ) (value : α) :
    get (set d key value) other = if other = key then some value else get d other := by
  split_ifs with h
  · rw [h, get_set_self]
  · exact get_set_ne h d value

theorem get_pop (d : List (κ × α)) (key other : κ) :
    get (pop d key) other = if other = key then none else get d other := by
  split_ifs with h
  · rw [h, get_pop_self]
  · exact get_pop_ne h d

theorem mem_of_get {d : List (κ × α)} {key : κ} {value : α} (h : get d key = some value) :
    (key, value) ∈ d := by
  induction d with
  | nil => cases h
  | cons entry d ih =>
    obtain ⟨k, v⟩ := entry
    by_cases hk : k = key
    · simp only [get, hk, if_true, Option.some.injEq] at h
      simp [hk, h]
    · simp only [get, hk, if_false] at h
      exact List.mem_cons_of_mem _ (ih h)

theorem get_eq_some_iff {d : List (κ × α)} (hd : (d.map Prod.fst).Nodup) {key : κ} {value : α} :
    get d key = some value ↔ (key, value) ∈ d := by
  induction d with
  | nil => simp [get]
  | cons entry d ih =>
    obtain ⟨k, v⟩ := entry
    simp only [List.map_cons, List.nodup_cons, List.mem_map, not_exists, not_and] at hd
    by_cases h : k = key
    · subst h
      have habsent : (k, value) ∉ d := fun hmem => hd.1 _ hmem rfl
      simp [get, habsent, eq_comm]
    · simp [get, h, Ne.symm h, ih hd.2]

/-- A key has one entry. -/
theorem filter_key {d : List (κ × α)} (hd : (d.map Prod.fst).Nodup) {key : κ} {value : α}
    (h : (key, value) ∈ d) : (d.filter fun entry => entry.1 = key) = [(key, value)] := by
  induction d with
  | nil => cases h
  | cons entry d ih =>
    obtain ⟨k, v⟩ := entry
    obtain ⟨hk, hrest⟩ := List.nodup_cons.mp hd
    by_cases heq : k = key
    · subst heq
      have hnone : (d.filter fun entry => entry.1 = k) = [] := by
        refine List.filter_eq_nil_iff.mpr fun entry hentry hsame => hk ?_
        have hkey : entry.1 = k := decide_eq_true_iff.mp hsame
        exact List.mem_map.mpr ⟨entry, hentry, hkey⟩
      rcases List.mem_cons.mp h with hhead | htail
      · rw [List.filter_cons_of_pos (by simp), hnone, ← hhead]
      · exact absurd (List.mem_map_of_mem htail) hk
    · have htail : (key, value) ∈ d := by
        rcases List.mem_cons.mp h with hhead | htail
        · exact absurd (congrArg Prod.fst hhead).symm heq
        · exact htail
      rw [List.filter_cons_of_neg (by simpa using heq)]
      exact ih hrest htail

theorem mem_keys_set {d : List (κ × α)} {key other : κ} {value : α}
    (h : other ∈ (set d key value).map Prod.fst) : other = key ∨ other ∈ d.map Prod.fst := by
  induction d with
  | nil => simpa [set] using h
  | cons entry d ih =>
    obtain ⟨k, v⟩ := entry
    by_cases hk : k = key
    · simp only [set, hk, if_true, List.map_cons, List.mem_cons] at h ⊢
      tauto
    · simp only [set, hk, if_false, List.map_cons, List.mem_cons] at h ⊢
      rcases h with h | h
      · exact .inr (.inl h)
      · exact (ih h).imp_right .inr

theorem exists_get_of_mem_keys {d : List (κ × α)} {key : κ} (h : key ∈ d.map Prod.fst) :
    ∃ value, get d key = some value := by
  induction d with
  | nil => cases h
  | cons entry d ih =>
    obtain ⟨k, v⟩ := entry
    by_cases hk : k = key
    · exact ⟨v, by simp [get, hk]⟩
    · have hrest : key ∈ d.map Prod.fst := by simpa [Ne.symm hk] using h
      simpa [get, hk] using ih hrest

theorem mem_keys_of_get {d : List (κ × α)} {key : κ} {value : α} (h : get d key = some value) :
    key ∈ d.map Prod.fst :=
  List.mem_map_of_mem (mem_of_get h)

/-- Setting a present key keeps the keys. -/
theorem keys_set {d : List (κ × α)} {key : κ} (h : key ∈ d.map Prod.fst) (value : α) :
    (set d key value).map Prod.fst = d.map Prod.fst := by
  induction d with
  | nil => cases h
  | cons entry d ih =>
    obtain ⟨k, v⟩ := entry
    by_cases hk : k = key
    · simp [set, hk]
    · have hrest : key ∈ d.map Prod.fst := by simpa [Ne.symm hk] using h
      simp [set, hk, ih hrest]

theorem nodup_set {d : List (κ × α)} (hd : (d.map Prod.fst).Nodup) (key : κ) (value : α) :
    ((set d key value).map Prod.fst).Nodup := by
  induction d with
  | nil => simp [set]
  | cons entry d ih =>
    obtain ⟨k, v⟩ := entry
    obtain ⟨hk, hrest⟩ := List.nodup_cons.mp hd
    by_cases h : k = key
    · simpa [set, h] using hd
    · simp only [set, h, if_false, List.map_cons, List.nodup_cons]
      refine ⟨fun hmem => ?_, ih hrest⟩
      exact (mem_keys_set hmem).elim h hk

theorem get_eq_none_iff {d : List (κ × α)} {key : κ} :
    get d key = none ↔ key ∉ d.map Prod.fst := by
  constructor
  · intro h hmem
    obtain ⟨value, hvalue⟩ := exists_get_of_mem_keys hmem
    simp [h] at hvalue
  · intro h
    rw [Option.eq_none_iff_forall_ne_some]
    intro value hvalue
    exact h (mem_keys_of_get hvalue)

/-- A dictionary finds the same in any order of its entries. -/
theorem get_of_perm {d d' : List (κ × α)} (h : d.Perm d') (hd : (d.map Prod.fst).Nodup)
    (key : κ) : get d key = get d' key := by
  cases hget : get d' key with
  | none =>
    rw [get_eq_none_iff] at hget ⊢
    rwa [(h.map Prod.fst).mem_iff]
  | some value =>
    rw [get_eq_some_iff hd, h.mem_iff]
    exact mem_of_get hget

/-- `d.update(other)`. -/
def update (d other : List (κ × α)) : List (κ × α) :=
  other.foldl (fun d entry => set d entry.1 entry.2) d

theorem nodup_update {d : List (κ × α)} (hd : (d.map Prod.fst).Nodup) (other : List (κ × α)) :
    ((update d other).map Prod.fst).Nodup := by
  induction other generalizing d with
  | nil => exact hd
  | cons entry other ih => exact ih (nodup_set hd entry.1 entry.2)

theorem get_update {other : List (κ × α)} (hother : (other.map Prod.fst).Nodup) :
    ∀ (d : List (κ × α)) (key : κ), get (update d other) key = (get other key).or (get d key) := by
  induction other with
  | nil => exact fun d key => rfl
  | cons entry other ih =>
    intro d key
    obtain ⟨k, v⟩ := entry
    obtain ⟨hk, hrest⟩ := List.nodup_cons.mp hother
    have hstep : update d ((k, v) :: other) = update (set d k v) other := rfl
    rw [hstep, ih hrest, get_set, get]
    by_cases h : k = key
    · have habsent : get other key = none := get_eq_none_iff.mpr (h ▸ hk)
      rw [if_pos h.symm, if_pos h, habsent, Option.none_or, Option.some_or]
    · rw [if_neg (Ne.symm h), if_neg h]

theorem set_of_absent {d : List (κ × α)} {key : κ} (h : get d key = none) (value : α) :
    set d key value = d ++ [(key, value)] := by
  induction d with
  | nil => rfl
  | cons entry d ih =>
    obtain ⟨k, v⟩ := entry
    by_cases hk : k = key
    · simp [get, hk] at h
    · rw [get, if_neg hk] at h
      simp [set, hk, ih h]

/-- Setting a key to the value it has changes nothing. -/
theorem set_of_get {d : List (κ × α)} {key : κ} {value : α} (h : get d key = some value) :
    set d key value = d := by
  induction d with
  | nil => cases h
  | cons entry d ih =>
    obtain ⟨k, v⟩ := entry
    by_cases hk : k = key
    · simp only [get, hk, if_true, Option.some.injEq] at h
      simp [set, hk, h]
    · simp only [get, hk, if_false] at h
      simp [set, hk, ih h]

theorem nodup_pop {d : List (κ × α)} (hd : (d.map Prod.fst).Nodup) (key : κ) :
    ((pop d key).map Prod.fst).Nodup :=
  hd.sublist (List.filter_sublist.map Prod.fst)

theorem mem_values_set {d : List (κ × α)} {key : κ} {value other : α}
    (h : other ∈ (set d key value).map Prod.snd) : other = value ∨ other ∈ d.map Prod.snd := by
  induction d with
  | nil => simpa [set] using h
  | cons entry d ih =>
    obtain ⟨k, v⟩ := entry
    by_cases hk : k = key
    · simp only [set, hk, if_true, List.map_cons, List.mem_cons] at h ⊢
      tauto
    · simp only [set, hk, if_false, List.map_cons, List.mem_cons] at h ⊢
      rcases h with h | h
      · exact .inr (.inl h)
      · exact (ih h).imp_right .inr

/-- A value that is new keeps the values apart. -/
theorem nodup_values_set {d : List (κ × α)} (hd : (d.map Prod.snd).Nodup) (key : κ) {value : α}
    (hnew : value ∉ d.map Prod.snd) : ((set d key value).map Prod.snd).Nodup := by
  induction d with
  | nil => simp [set]
  | cons entry d ih =>
    obtain ⟨k, v⟩ := entry
    obtain ⟨hv, hrest⟩ := List.nodup_cons.mp hd
    rw [List.map_cons, List.mem_cons, not_or] at hnew
    by_cases h : k = key
    · simp only [set, h, if_true, List.map_cons, List.nodup_cons]
      exact ⟨hnew.2, hrest⟩
    · simp only [set, h, if_false, List.map_cons, List.nodup_cons]
      refine ⟨fun hmem => ?_, ih hrest hnew.2⟩
      rcases mem_values_set hmem with heq | hmem
      · exact hnew.1 heq.symm
      · exact hv hmem

theorem mem_values_pop {d : List (κ × α)} {key : κ} {value : α}
    (h : value ∈ (pop d key).map Prod.snd) : value ∈ d.map Prod.snd :=
  (List.filter_sublist.map Prod.snd).subset h

theorem nodup_values_pop {d : List (κ × α)} (hd : (d.map Prod.snd).Nodup) (key : κ) :
    ((pop d key).map Prod.snd).Nodup :=
  hd.sublist (List.filter_sublist.map Prod.snd)

end MsysCore.OrderedDict
