import Mathlib.Data.List.Dedup
import Mathlib.Data.List.DropRight
import MsysCore.Lib.OrderedDict

/-!
# Least recently used caches

A cache is an insertion-ordered dictionary that moves a key to its end when the key is used and
forgets keys from its front when it holds too many. After any requests it holds the keys of the
last distinct ones, in the order of their last use.
-/

namespace MsysCore.RecentCache

variable {κ α : Type*} [DecidableEq κ]

/-- The last `limit` distinct keys, in the order of their last use. -/
def recent (limit : ℕ) (requests : List κ) : List κ := requests.dedup.rtake limit

/-- `value = entries.pop(key); entries[key] = value` -/
def touch (entries : List (κ × α)) (key : κ) (value : α) : List (κ × α) :=
  OrderedDict.set (OrderedDict.pop entries key) key value

/-- `while len(entries) > limit: entries.popitem(last=False)` -/
def evict (limit : ℕ) : List (κ × α) → List (κ × α)
  | [] => []
  | entry :: entries =>
    if limit < (entry :: entries).length then evict limit entries else entry :: entries

/-- `entries[key] = value`, and the eviction after it. -/
def store (limit : ℕ) (entries : List (κ × α)) (key : κ) (value : α) : List (κ × α) :=
  evict limit (OrderedDict.set entries key value)

/-! ## The order of use -/

theorem dedup_concat (requests : List κ) (key : κ) :
    (requests ++ [key]).dedup = requests.dedup.filter (· ≠ key) ++ [key] := by
  induction requests with
  | nil => rfl
  | cons k requests ih =>
    by_cases hkey : k = key
    · subst hkey
      have hmem : k ∈ requests ++ [k] := by simp
      rw [List.cons_append, List.dedup_cons_of_mem hmem, ih]
      by_cases hk : k ∈ requests
      · rw [List.dedup_cons_of_mem hk]
      · rw [List.dedup_cons_of_notMem hk, List.filter_cons_of_neg (by simp)]
    · by_cases hk : k ∈ requests
      · rw [List.cons_append, List.dedup_cons_of_mem (List.mem_append_left _ hk),
          List.dedup_cons_of_mem hk, ih]
      · have hnew : k ∉ requests ++ [key] := by simp [hk, hkey]
        rw [List.cons_append, List.dedup_cons_of_notMem hnew, List.dedup_cons_of_notMem hk,
          List.filter_cons_of_pos (by simpa using hkey), ih, List.cons_append]

/-- Moving a key from the end of the list to its very end. -/
theorem rtake_filter_of_mem {keys : List κ} (hnodup : keys.Nodup) {key : κ} :
    ∀ {n : ℕ}, key ∈ keys.rtake (n + 1) →
      (keys.filter (· ≠ key)).rtake n = (keys.rtake (n + 1)).filter (· ≠ key) := by
  induction keys using List.reverseRecOn with
  | nil => simp
  | append_singleton keys last ih =>
    intro n hmem
    obtain ⟨hkeys, -, hdisjoint⟩ := List.nodup_append'.mp hnodup
    rw [List.rtake_concat_succ] at hmem ⊢
    by_cases hlast : last = key
    · subst hlast
      have habsent : last ∉ keys := fun hin => hdisjoint hin (List.mem_singleton_self last)
      have hkeep : keys.filter (· ≠ last) = keys := by
        refine List.filter_eq_self.mpr fun k hk => ?_
        simp only [decide_eq_true_eq]
        rintro rfl
        exact habsent hk
      have hkeep' : (keys.rtake n).filter (· ≠ last) = keys.rtake n := by
        refine List.filter_eq_self.mpr fun k hk => ?_
        simp only [decide_eq_true_eq]
        rintro rfl
        exact habsent (List.mem_of_mem_drop hk)
      rw [List.filter_append, List.filter_append, hkeep, hkeep']
      simp
    · have hrest : key ∈ keys.rtake n :=
        (List.mem_append.mp hmem).resolve_right fun hin => hlast (List.mem_singleton.mp hin).symm
      cases n with
      | zero => simp at hrest
      | succ n =>
        have hone : [last].filter (· ≠ key) = [last] :=
          List.filter_cons_of_pos (by simpa using hlast)
        rw [List.filter_append, List.filter_append, hone, List.rtake_concat_succ, ih hkeys hrest]

/-- A key that is not at the end does not matter there. -/
theorem rtake_filter_of_notMem {keys : List κ} {key : κ} :
    ∀ {n : ℕ}, key ∉ keys.rtake (n + 1) → (keys.filter (· ≠ key)).rtake n = keys.rtake n := by
  induction keys using List.reverseRecOn with
  | nil => simp
  | append_singleton keys last ih =>
    intro n hnot
    cases n with
    | zero => simp
    | succ n =>
      rw [List.rtake_concat_succ, List.mem_append, not_or, List.mem_singleton] at hnot
      have hone : [last].filter (· ≠ key) = [last] :=
        List.filter_cons_of_pos (by simpa using Ne.symm hnot.2)
      rw [List.filter_append, hone, List.rtake_concat_succ, List.rtake_concat_succ, ih hnot.1]

theorem recent_concat_of_mem {limit : ℕ} {requests : List κ} {key : κ}
    (h : key ∈ recent limit requests) :
    recent limit (requests ++ [key]) = (recent limit requests).filter (· ≠ key) ++ [key] := by
  unfold recent at h ⊢
  cases limit with
  | zero => simp at h
  | succ n =>
    rw [dedup_concat, List.rtake_concat_succ, rtake_filter_of_mem requests.nodup_dedup h]

theorem recent_concat_of_notMem {limit : ℕ} (hlimit : 0 < limit) {requests : List κ} {key : κ}
    (h : key ∉ recent limit requests) :
    recent limit (requests ++ [key]) = (recent limit requests ++ [key]).rtake limit := by
  unfold recent at h ⊢
  obtain ⟨n, rfl⟩ : ∃ n, limit = n + 1 := ⟨limit - 1, by omega⟩
  have hsame : (requests.dedup.rtake (n + 1)).rtake n = requests.dedup.rtake n := by
    simp only [List.rtake, List.drop_drop, List.length_drop]
    congr 1
    omega
  rw [dedup_concat, List.rtake_concat_succ, List.rtake_concat_succ, rtake_filter_of_notMem h,
    hsame]

theorem length_recent_le (limit : ℕ) (requests : List κ) :
    (recent limit requests).length ≤ limit := by
  rw [recent, List.rtake, List.length_drop]
  omega

/-! ## What a cache holds -/

omit [DecidableEq κ] in
theorem evict_eq_rtake (limit : ℕ) (entries : List (κ × α)) :
    evict limit entries = entries.rtake limit := by
  induction entries with
  | nil => simp [evict]
  | cons entry entries ih =>
    rw [evict]
    split_ifs with h
    · rw [List.length_cons] at h
      have hdrop : (entry :: entries).length - limit = entries.length - limit + 1 := by
        rw [List.length_cons]
        omega
      rw [ih, List.rtake, List.rtake, hdrop, List.drop_succ_cons]
    · have hdrop : (entry :: entries).length - limit = 0 := by omega
      rw [List.rtake, hdrop, List.drop_zero]

/-- The entries are those of the last requests, each with a value of its key. -/
structure Recent (limit : ℕ) (value : κ → α → Prop) (requests : List κ)
    (entries : List (κ × α)) : Prop where
  keys : entries.map Prod.fst = recent limit requests
  values : ∀ entry ∈ entries, value entry.1 entry.2

variable {limit : ℕ} {value : κ → α → Prop} {requests : List κ} {entries : List (κ × α)}

theorem recent_nil : Recent limit value [] ([] : List (κ × α)) where
  keys := by simp [recent]
  values := by simp

namespace Recent

theorem length_le (h : Recent limit value requests entries) : entries.length ≤ limit := by
  rw [← List.length_map (f := Prod.fst), h.keys]
  exact length_recent_le limit requests

theorem get (h : Recent limit value requests entries) {key : κ} {a : α}
    (hget : OrderedDict.get entries key = some a) : value key a :=
  h.values _ (OrderedDict.mem_of_get hget)

/-- A hit makes its key the last one. -/
theorem touch (h : Recent limit value requests entries) {key : κ} {a : α}
    (hget : OrderedDict.get entries key = some a) :
    Recent limit value (requests ++ [key]) (touch entries key a) := by
  have hmem : key ∈ recent limit requests := h.keys ▸ OrderedDict.mem_keys_of_get hget
  have hentries : RecentCache.touch entries key a = OrderedDict.pop entries key ++ [(key, a)] :=
    OrderedDict.set_of_absent (OrderedDict.get_pop_self entries key) a
  constructor
  · have hpop : (OrderedDict.pop entries key).map Prod.fst =
        (entries.map Prod.fst).filter (· ≠ key) := by
      rw [OrderedDict.pop, List.filter_map]
      rfl
    rw [hentries, List.map_append, hpop, h.keys, recent_concat_of_mem hmem]
    rfl
  · rw [hentries]
    intro entry hentry
    rcases List.mem_append.mp hentry with hold | hnew
    · exact h.values entry (List.mem_of_mem_filter hold)
    · rw [List.mem_singleton.mp hnew]
      exact h.get hget

/-- A miss stores its key as the last one and forgets the first. -/
theorem store (h : Recent limit value requests entries) (hlimit : 0 < limit) {key : κ} {a : α}
    (hget : OrderedDict.get entries key = none) (hvalue : value key a) :
    Recent limit value (requests ++ [key]) (store limit entries key a) := by
  have hmem : key ∉ recent limit requests := h.keys ▸ OrderedDict.get_eq_none_iff.mp hget
  have hentries : RecentCache.store limit entries key a =
      (entries ++ [(key, a)]).rtake limit := by
    rw [RecentCache.store, evict_eq_rtake, OrderedDict.set_of_absent hget]
  constructor
  · have hkeys : (entries ++ [(key, a)]).map Prod.fst = recent limit requests ++ [key] := by
      rw [List.map_append, h.keys]
      rfl
    rw [hentries, recent_concat_of_notMem hlimit hmem, ← hkeys]
    simp only [List.rtake, List.map_drop, List.length_map]
  · rw [hentries]
    intro entry hentry
    rcases List.mem_append.mp (List.mem_of_mem_drop hentry) with hold | hnew
    · exact h.values entry hold
    · rw [List.mem_singleton.mp hnew]
      exact hvalue

end Recent

end MsysCore.RecentCache
