import Mathlib.Data.Prod.Lex
import MsysCore.Lib.Heap
import MsysCore.Python.Values

/-!
# Process snapshots

`system_process_snapshot`: a scan of procfs that keeps a bounded heap of the processes that are
not supervised, the largest first. What procfs says about a process is an argument.
-/

namespace MsysCore.Core.ProcessSnapshot

open Python

def maxSystemProcessLimit : ℤ := 128

/-- What procfs says about a process. -/
structure ProcStatus where
  ppid : ℤ
  processGroup : ℤ
  session : ℤ
  uid : Option ℕ
  name : PyStr
  state : PyStr
  rssKib : Option ℕ
  deriving DecidableEq

structure ProcRecord extends ProcStatus where
  pid : ℤ
  deriving DecidableEq

structure PublicProcessRecord where
  pid : ℤ
  ppid : ℤ
  uid : Option ℕ
  name : PyStr
  state : PyStr
  rssKib : Option ℕ
  source : PyStr
  msysOwned : Bool
  component : Option PyStr
  componentState : Option PyStr
  runtime : Option PyStr
  lifecycle : Option PyStr
  generation : Option ℕ
  deriving DecidableEq

def publicProcessRecord (source : PyStr) (msysOwned : Bool) (record : ProcRecord) :
    PublicProcessRecord where
  pid := record.pid
  ppid := record.ppid
  uid := record.uid
  name := record.name
  state := record.state
  rssKib := record.rssKib
  source := source
  msysOwned := msysOwned
  component := none
  componentState := none
  runtime := none
  lifecycle := none
  generation := none

/-- `entry.name.isdigit()` and `int(entry.name)`; the names in procfs are ASCII. -/
def entryPid (name : PyStr) : Option ℤ :=
  if name ≠ [] ∧ ∀ c ∈ name, 48 ≤ c ∧ c ≤ 57 then
    some (name.foldl (fun n c => n * 10 + (c - 48)) 0 : ℕ)
  else none

section

variable (read : ℤ → Option ProcStatus)

/-- `_proc_process_record` -/
def procProcessRecord (pid : ℤ) : Option ProcRecord :=
  if pid ≤ 0 then none else (read pid).map fun status => ⟨status, pid⟩

/-- The record that an entry of the scan leads to. -/
def entryRecord (name : PyStr) : Option ProcRecord :=
  (entryPid name).bind (procProcessRecord read)

/-- A process that the supervisor owns. -/
def supervised (managedLeaderPids : List ℤ) (supervisorPid : ℤ) (record : ProcRecord) : Bool :=
  record.pid = supervisorPid || managedLeaderPids.contains record.pid
    || managedLeaderPids.contains record.processGroup
    || managedLeaderPids.contains record.session

def kernelThread (record : ProcRecord) : Bool :=
  record.rssKib = none && (record.pid = 2 || record.ppid = 2)

/-- The first three items of a heap entry. -/
def heapKey (record : ProcRecord) : ℕ ×ₗ ℕ ×ₗ ℤ :=
  toLex (if record.rssKib.isSome then 1 else 0, toLex (record.rssKib.getD 0, -record.pid))

/-- The key of the final sort. -/
def sortKey (record : ProcRecord) : Bool ×ₗ ℤ ×ₗ ℤ :=
  toLex (record.rssKib.isNone, toLex (-(record.rssKib.getD 0 : ℤ), record.pid))

/-- The heap and `eligible_count`. -/
structure Scan where
  heap : List ProcRecord
  eligibleCount : ℕ

/-- One turn of the loop over the entries. -/
def scanEntry (managedLeaderPids : List ℤ) (supervisorPid : ℤ) (limit : ℕ) (s : Scan)
    (name : PyStr) : Scan :=
  match entryRecord read name with
  | none => s
  | some record =>
    if supervised managedLeaderPids supervisorPid record then s
    else if kernelThread record then s
    else ⟨Heap.offer heapKey limit s.heap record, s.eligibleCount + 1⟩

/-- `system_process_snapshot`; `entries` is what `os.scandir` yields, `none` when it fails, and
the pid of the supervisor is `os.getpid()` unless it is given. -/
def systemProcessSnapshot (entries : Option (List PyStr)) (managedLeaderPids : List ℤ) (limit : ℤ)
    (supervisorPid : ℤ) : Except PyError (List PublicProcessRecord × Bool) :=
  if ¬ (1 ≤ limit ∧ limit ≤ maxSystemProcessLimit) then
    raise .valueError "system process limit is out of range"
  else match entries with
    | none => .ok ([], false)
    | some names =>
      let s := names.foldl (scanEntry read managedLeaderPids supervisorPid limit.toNat) ⟨[], 0⟩
      let selected := s.heap.insertionSort fun a b => sortKey a ≤ sortKey b
      .ok (selected.map (publicProcessRecord (lit "procfs") false),
        decide (limit < s.eligibleCount))

/-! ## Eligible processes -/

/-- Every process that may be listed, in the order of the scan. -/
def eligible (managedLeaderPids : List ℤ) (supervisorPid : ℤ) (names : List PyStr) :
    List ProcRecord :=
  (names.filterMap (entryRecord read)).filter fun record =>
    !supervised managedLeaderPids supervisorPid record && !kernelThread record

end

/-- A known resident size first, then the larger size, then the smaller pid. -/
def Before (a b : ProcRecord) : Prop :=
  (a.rssKib.isSome ∧ b.rssKib = none) ∨
    (∃ x y, a.rssKib = some x ∧ b.rssKib = some y ∧ y < x) ∨ a.rssKib = b.rssKib ∧ a.pid < b.pid

variable {read : ℤ → Option ProcStatus} {managed : List ℤ} {supervisor : ℤ}

theorem foldl_scanEntry (limit : ℕ) (names : List PyStr) : ∀ s : Scan,
    names.foldl (scanEntry read managed supervisor limit) s =
      ⟨(eligible read managed supervisor names).foldl (Heap.offer heapKey limit) s.heap,
        s.eligibleCount + (eligible read managed supervisor names).length⟩ := by
  induction names with
  | nil => exact fun s => rfl
  | cons name names ih =>
    intro s
    rw [List.foldl_cons, ih]
    unfold scanEntry eligible
    cases hread : entryRecord read name with
    | none => rw [List.filterMap_cons_none hread]
    | some record =>
      rw [List.filterMap_cons_some hread]
      by_cases hsupervised : supervised managed supervisor record
      · simp [hsupervised]
      · by_cases hkernel : kernelThread record
        · simp [hsupervised, hkernel]
        · simp [hsupervised, hkernel]
          omega

theorem pid_of_procProcessRecord {pid : ℤ} {record : ProcRecord}
    (h : procProcessRecord read pid = some record) : record.pid = pid := by
  unfold procProcessRecord at h
  split_ifs at h
  obtain ⟨status, -, rfl⟩ := Option.map_eq_some_iff.mp h
  rfl

theorem pids_sublist (names : List PyStr) :
    ((names.filterMap (entryRecord read)).map ProcRecord.pid).Sublist
      (names.filterMap entryPid) := by
  induction names with
  | nil => exact List.Sublist.slnil
  | cons name names ih =>
    cases hpid : entryPid name with
    | none =>
      have hnone : entryRecord read name = none := by simp [entryRecord, hpid]
      rw [List.filterMap_cons_none hpid, List.filterMap_cons_none hnone]
      exact ih
    | some pid =>
      have hentry : entryRecord read name = procProcessRecord read pid := by
        simp [entryRecord, hpid]
      rw [List.filterMap_cons_some hpid]
      cases hread : procProcessRecord read pid with
      | none =>
        rw [List.filterMap_cons_none (hentry.trans hread)]
        exact ih.cons pid
      | some record =>
        rw [List.filterMap_cons_some (hentry.trans hread), List.map_cons,
          pid_of_procProcessRecord hread]
        exact ih.cons_cons pid

theorem nodup_heapKey {names : List PyStr} (hdistinct : (names.filterMap entryPid).Nodup) :
    ((eligible read managed supervisor names).map heapKey).Nodup := by
  have hpids : ((eligible read managed supervisor names).map ProcRecord.pid).Nodup :=
    hdistinct.sublist ((List.filter_sublist.map ProcRecord.pid).trans (pids_sublist names))
  have hback : ProcRecord.pid = (fun k => -(ofLex (ofLex k).2).2) ∘ heapKey := by
    funext record
    simp [heapKey]
  rw [hback, ← List.map_map] at hpids
  exact hpids.of_map _

theorem sortKey_le_iff (a b : ProcRecord) : sortKey a ≤ sortKey b ↔ heapKey b ≤ heapKey a := by
  unfold sortKey heapKey
  cases ha : a.rssKib <;> cases hb : b.rssKib <;> simp [Prod.Lex.toLex_le_toLex]; omega

theorem before_iff (a b : ProcRecord) : Before a b ↔ heapKey b < heapKey a := by
  unfold Before heapKey
  cases ha : a.rssKib <;> cases hb : b.rssKib <;> simp [Prod.Lex.toLex_lt_toLex]; omega

/-- The processes by rank. -/
theorem pairwise_before {items : List ProcRecord} (hdistinct : (items.map heapKey).Nodup) :
    (Heap.descending heapKey items).Pairwise Before := by
  have hkeys : ((Heap.descending heapKey items).map heapKey).Nodup :=
    ((Heap.perm_descending items).map heapKey).nodup_iff.mpr hdistinct
  have hne : (Heap.descending heapKey items).Pairwise fun a b => heapKey a ≠ heapKey b :=
    List.pairwise_map.mp hkeys
  refine ((Heap.pairwise_descending items).and hne).imp fun h => ?_
  exact (before_iff _ _).mpr (lt_of_le_of_ne h.1 (Ne.symm h.2))

/-- The final sort puts the heap in the order of rank. -/
theorem selected_eq {limit : ℕ} {items : List ProcRecord}
    (hdistinct : (items.map heapKey).Nodup) :
    (items.foldl (Heap.offer heapKey limit) []).insertionSort (fun a b => sortKey a ≤ sortKey b) =
      (Heap.descending heapKey items).take limit := by
  have htotal : Std.Total fun a b : ProcRecord => sortKey a ≤ sortKey b :=
    ⟨fun a b => le_total (sortKey a) (sortKey b)⟩
  have htrans : IsTrans ProcRecord fun a b => sortKey a ≤ sortKey b :=
    ⟨fun _ _ _ hab hbc => hab.trans hbc⟩
  have hheap := Heap.reverse_foldl_offer limit items hdistinct
  have hperm := (List.perm_insertionSort (fun a b => sortKey a ≤ sortKey b)
    (items.foldl (Heap.offer heapKey limit) [])).trans (List.reverse_perm _).symm
  rw [hheap] at hperm
  have hsublist := List.take_sublist limit (Heap.descending heapKey items)
  have hkeys : ((Heap.descending heapKey items).map heapKey).Nodup :=
    ((Heap.perm_descending items).map heapKey).nodup_iff.mpr hdistinct
  have hranked := (Heap.pairwise_descending items).sublist hsublist
  refine Heap.eq_of_perm_of_descending ?_ hperm ?_ hranked
  · exact (hperm.map heapKey).nodup_iff.mpr (hkeys.sublist (hsublist.map heapKey))
  · exact (List.pairwise_insertionSort _ _).imp fun h => (sortKey_le_iff _ _).mp h

/-- Whatever the order of the scan, a snapshot lists the first `limit` eligible processes by
rank, and its flag says whether there are more. -/
theorem systemProcessSnapshot_ranked (read : ℤ → Option ProcStatus) (managedLeaderPids : List ℤ)
    (supervisorPid limit : ℤ) (hlimit : 1 ≤ limit ∧ limit ≤ maxSystemProcessLimit)
    (names : List PyStr) (hdistinct : (names.filterMap entryPid).Nodup) :
    ∃ ranked : List ProcRecord,
      ranked.Perm (eligible read managedLeaderPids supervisorPid names) ∧
      ranked.Pairwise Before ∧
      ∀ order : List PyStr, order.Perm names →
        systemProcessSnapshot read (some order) managedLeaderPids limit supervisorPid =
          .ok ((ranked.take limit.toNat).map (publicProcessRecord (lit "procfs") false),
            decide (limit < ranked.length)) := by
  have hkeys : ((eligible read managedLeaderPids supervisorPid names).map heapKey).Nodup :=
    nodup_heapKey hdistinct
  refine ⟨_, Heap.perm_descending _, pairwise_before hkeys, fun order horder => ?_⟩
  have heligible : (eligible read managedLeaderPids supervisorPid order).Perm
      (eligible read managedLeaderPids supervisorPid names) :=
    (horder.filterMap _).filter _
  have horderKeys : ((eligible read managedLeaderPids supervisorPid order).map heapKey).Nodup :=
    (heligible.map heapKey).nodup_iff.mpr hkeys
  have hranked : (Heap.descending heapKey
      (eligible read managedLeaderPids supervisorPid names)).Perm _ := Heap.perm_descending _
  have hlength := hranked.length_eq
  unfold systemProcessSnapshot
  rw [if_neg (not_not.mpr hlimit)]
  simp only [foldl_scanEntry, selected_eq horderKeys, Heap.descending_perm horderKeys heligible,
    hlength, heligible.length_eq, zero_add]

/-- A shell and a kernel thread. -/
def shellAndThread (pid : ℤ) : Option ProcStatus :=
  if pid = 7 then some ⟨1, 7, 7, some 1000, lit "sh", lit "sleeping", some 812⟩
  else if pid = 9 then some ⟨2, 0, 0, some 0, lit "kworker", lit "idle", none⟩
  else none

theorem systemProcessSnapshot_ranked_shell :
    ∃ ranked : List ProcRecord,
      ranked.Perm (eligible shellAndThread [4] 1 [lit "9", lit "self", lit "7"]) ∧
      ranked.Pairwise Before ∧
      ∀ order : List PyStr, order.Perm [lit "9", lit "self", lit "7"] →
        systemProcessSnapshot shellAndThread (some order) [4] 64 1 =
          .ok ((ranked.take 64).map (publicProcessRecord (lit "procfs") false),
            decide ((64 : ℤ) < ranked.length)) :=
  systemProcessSnapshot_ranked shellAndThread [4] 1 64 (by decide) _ (by decide)

end MsysCore.Core.ProcessSnapshot
