import Mathlib.Data.List.Induction
import MsysCore.Core.DisplayOutage

/-!
# The quarantine window

`_record_component_failure`: a component with five failures in the last minute is quarantined.
The history of a component is pruned at each of its failures, which does not matter: whatever
is dropped is too old for every later failure as well.
-/

namespace MsysCore.Core.QuarantineWindow

open Python
open Display (Manifest Outage Session inheritsVisualSession)

/-- A call, with the clock, the component and the outage it finds. -/
structure Call where
  key : PyStr
  now : ℚ
  /-- `self.components.get(key)` -/
  component : Option Manifest
  /-- `self.display_outage` -/
  outage : Option Outage

/-- `_display_outage_blocks` -/
def displayOutageBlocks (outage : Option Outage) (key : PyStr) (component : Manifest) : Bool :=
  match outage with
  | none => false
  | some o => inheritsVisualSession component && !o.recoveryAllowed key

def Call.blocked (c : Call) : Bool := c.component.any (displayOutageBlocks c.outage c.key)

/-- The end of `_record_component_failure`, for the failures that count and the history to keep. -/
def settle (w : Session) (c : Call) (history : List ℚ) (failures : ℕ) : Session × Option ℚ :=
  let w := { w with failureHistory := Function.update w.failureHistory c.key history }
  if 5 ≤ failures then
    ({ w with
      quarantined := Function.update w.quarantined c.key true
      quarantineTimes := Function.update w.quarantineTimes c.key (some c.now) }, none)
  else (w, some (min 30 (1 / 4 * 2 ^ (failures - 1))))

/-- `_record_component_failure` -/
def recordComponentFailure (w : Session) (c : Call) : Session × Option ℚ :=
  if c.blocked then (w, none)
  else
    let failures := (w.failureHistory c.key).filter (fun x => c.now - x < 60) ++ [c.now]
    settle w c failures failures.length

/-- The same with a history that is never pruned. -/
def recordUnpruned (w : Session) (c : Call) : Session × Option ℚ :=
  if c.blocked then (w, none)
  else
    let history := w.failureHistory c.key ++ [c.now]
    settle w c history (history.filter fun x => c.now - x < 60).length

/-- The session after a sequence of calls. -/
def afterCalls (record : Session → Call → Session × Option ℚ) (w : Session) (calls : List Call) :
    Session :=
  calls.foldl (fun w c => (record w c).1) w

/-- The calls among those made so far that count at a call: not blocked, for the same key, and
in the minute that ends with it. -/
def recent (calls : List Call) (c : Call) : List Call :=
  calls.filter fun d => !d.blocked && d.key = c.key && c.now - 60 < d.now && d.now ≤ c.now

/-! ## Full histories -/

/-- The times of the calls that were recorded for a key. -/
def failureTimes (calls : List Call) (key : PyStr) : List ℚ :=
  (calls.filter fun d => !d.blocked && d.key = key).map Call.now

/-- From a time on, both histories show the same failures. -/
def Agree (now : ℚ) (history full : List ℚ) : Prop :=
  ∀ t, now ≤ t → history.filter (fun x => t - x < 60) = full.filter (fun x => t - x < 60)

theorem Agree.mono {now later : ℚ} {history full : List ℚ} (h : Agree now history full)
    (hle : now ≤ later) : Agree later history full :=
  fun t ht => h t (hle.trans ht)

/-- Pruning at a time drops nothing that counts later. -/
theorem Agree.pruned {now : ℚ} {history full : List ℚ} (h : Agree now history full) :
    Agree now (history.filter (fun x => now - x < 60) ++ [now]) (full ++ [now]) := by
  intro t ht
  have hkept : ∀ x : ℚ, t - x < 60 → now - x < 60 := fun x hx => by linarith
  rw [List.filter_append, List.filter_append, List.filter_filter, ← h t ht]
  congr 1
  refine List.filter_congr fun x _ => ?_
  by_cases hx : t - x < 60
  · simp [hx, hkept x hx]
  · simp [hx]

theorem failureTimes_append (calls : List Call) (c : Call) (key : PyStr) :
    failureTimes (calls ++ [c]) key =
      failureTimes calls key ++ if !c.blocked && c.key = key then [c.now] else [] := by
  unfold failureTimes
  rw [List.filter_append, List.map_append]
  congr 1
  by_cases h : !c.blocked && c.key = key <;> simp [h]

theorem settle_failureHistory (w : Session) (c : Call) (history : List ℚ) (failures : ℕ) :
    (settle w c history failures).1.failureHistory =
      Function.update w.failureHistory c.key history := by
  unfold settle
  split_ifs <;> rfl

/-- One call: the pruned history of each key goes on showing what counts. -/
theorem agree_record {w : Session} {calls : List Call} {c : Call}
    (h : ∀ key, Agree c.now (w.failureHistory key) (failureTimes calls key)) (key : PyStr) :
    Agree c.now ((recordComponentFailure w c).1.failureHistory key)
      (failureTimes (calls ++ [c]) key) := by
  rw [failureTimes_append]
  by_cases hblocked : c.blocked
  · simpa [recordComponentFailure, hblocked] using h key
  · by_cases hkey : c.key = key
    · subst hkey
      simpa [recordComponentFailure, hblocked, settle_failureHistory] using (h c.key).pruned
    · simpa [recordComponentFailure, hblocked, settle_failureHistory, hkey, Ne.symm hkey] using
        h key

/-- The calls before the last one come in order, and none after it. -/
theorem ordered_snoc {earlier : List Call} {c : Call}
    (h : ((earlier ++ [c]).map Call.now).Pairwise (· ≤ ·)) :
    (earlier.map Call.now).Pairwise (· ≤ ·) ∧ ∀ d ∈ earlier, d.now ≤ c.now := by
  rw [List.map_append, List.pairwise_append] at h
  exact ⟨h.1, fun d hd => h.2.2 d.now (List.mem_map_of_mem hd) c.now (by simp)⟩

section

variable {w : Session} (hempty : ∀ key, w.failureHistory key = [])

include hempty

theorem agree_afterCalls (calls : List Call) :
    (calls.map Call.now).Pairwise (· ≤ ·) → ∀ now, (∀ c ∈ calls, c.now ≤ now) → ∀ key,
      Agree now ((afterCalls recordComponentFailure w calls).failureHistory key)
        (failureTimes calls key) := by
  induction calls using List.reverseRecOn with
  | nil =>
    intro _ now _ key
    rw [afterCalls, List.foldl_nil, hempty]
    exact fun t _ => rfl
  | append_singleton calls c ih =>
    intro hordered now hnow key
    obtain ⟨hearlier, hbefore⟩ := ordered_snoc hordered
    have hlast := agree_record (ih hearlier c.now hbefore) key
    rw [afterCalls, List.foldl_append]
    exact hlast.mono (hnow c (by simp))

theorem unpruned_failureHistory (calls : List Call) (key : PyStr) :
    (afterCalls recordUnpruned w calls).failureHistory key = failureTimes calls key := by
  induction calls using List.reverseRecOn with
  | nil => exact hempty key
  | append_singleton calls c ih =>
    rw [failureTimes_append, ← ih, afterCalls, List.foldl_append]
    change (recordUnpruned (afterCalls recordUnpruned w calls) c).1.failureHistory key = _
    by_cases hblocked : c.blocked
    · simp [recordUnpruned, hblocked]
    · by_cases hkey : c.key = key
      · subst hkey
        simp [recordUnpruned, hblocked, settle_failureHistory]
      · simp [recordUnpruned, hblocked, settle_failureHistory, hkey, Ne.symm hkey]

end

/-! ## Decisions -/

/-- The failures that are left after pruning, and the calls that count. -/
theorem length_recent {calls : List Call} {c : Call} {history : List ℚ}
    (hblocked : c.blocked = false) (hbefore : ∀ d ∈ calls, d.now ≤ c.now)
    (hagree : Agree c.now history (failureTimes calls c.key)) :
    (history.filter (fun x => c.now - x < 60) ++ [c.now]).length =
      (recent (calls ++ [c]) c).length := by
  have hself : recent (calls ++ [c]) c = recent calls c ++ [c] := by
    simp [recent, List.filter_append, hblocked]
  have hsame : recent calls c =
      (calls.filter fun d => !d.blocked && d.key = c.key).filter fun d => c.now - d.now < 60 := by
    rw [recent, List.filter_filter]
    refine List.filter_congr fun d hd => ?_
    have hle := hbefore d hd
    have hwindow : c.now - 60 < d.now ↔ c.now - d.now < 60 := by
      constructor <;> intro h <;> linarith
    simp [hle, hwindow, Bool.and_comm]
  rw [hself, hsame, hagree c.now le_rfl, failureTimes, List.filter_map, List.length_append,
    List.length_append, List.length_map]
  rfl

/-- Both sessions differ in the histories only. -/
def SameTables (w v : Session) : Prop := { w with failureHistory := v.failureHistory } = v

theorem settle_sameTables {w v : Session} (h : SameTables w v) (c : Call) (pruned full : List ℚ)
    (failures : ℕ) :
    (settle w c pruned failures).2 = (settle v c full failures).2 ∧
      SameTables (settle w c pruned failures).1 (settle v c full failures).1 := by
  cases w
  cases v
  obtain ⟨rfl, rfl, rfl, rfl, -, rfl, rfl⟩ := Session.mk.inj h
  unfold settle
  split_ifs <;> exact ⟨rfl, rfl⟩

section

variable {w : Session} (hempty : ∀ key, w.failureHistory key = [])

include hempty

/-- A call of a run, with the calls that count at it as the number of failures. -/
theorem recordComponentFailure_settle {earlier : List Call} {c : Call}
    (hordered : ((earlier ++ [c]).map Call.now).Pairwise (· ≤ ·)) (hblocked : c.blocked = false) :
    ∃ history, recordComponentFailure (afterCalls recordComponentFailure w earlier) c =
      settle (afterCalls recordComponentFailure w earlier) c history
        (recent (earlier ++ [c]) c).length := by
  obtain ⟨hearlier, hbefore⟩ := ordered_snoc hordered
  have hagree := agree_afterCalls hempty earlier hearlier c.now hbefore c.key
  rw [← length_recent hblocked hbefore hagree]
  exact ⟨_, if_neg (by simp [hblocked])⟩

/-- The same call with the history that is never pruned. -/
theorem recordUnpruned_settle {earlier : List Call} {c : Call}
    (hordered : ((earlier ++ [c]).map Call.now).Pairwise (· ≤ ·)) (hblocked : c.blocked = false) :
    ∃ history, recordUnpruned (afterCalls recordUnpruned w earlier) c =
      settle (afterCalls recordUnpruned w earlier) c history
        (recent (earlier ++ [c]) c).length := by
  obtain ⟨-, hbefore⟩ := ordered_snoc hordered
  have hcount : ((failureTimes earlier c.key ++ [c.now]).filter fun x => c.now - x < 60).length =
      (recent (earlier ++ [c]) c).length := by
    rw [← length_recent hblocked hbefore fun _ _ => rfl, List.filter_append]
    simp
  rw [← hcount, ← unpruned_failureHistory hempty]
  exact ⟨_, if_neg (by simp [hblocked])⟩

/-- Pruning never shows in the tables, whatever was called. -/
theorem sameTables_afterCalls (calls : List Call) :
    (calls.map Call.now).Pairwise (· ≤ ·) →
      SameTables (afterCalls recordComponentFailure w calls) (afterCalls recordUnpruned w calls) :=
  by
  induction calls using List.reverseRecOn with
  | nil => exact fun _ => rfl
  | append_singleton earlier c ih =>
    intro hordered
    have hsame := ih (ordered_snoc hordered).1
    rw [afterCalls, afterCalls, List.foldl_append, List.foldl_append]
    change SameTables (recordComponentFailure (afterCalls recordComponentFailure w earlier) c).1
      (recordUnpruned (afterCalls recordUnpruned w earlier) c).1
    by_cases hblocked : c.blocked = true
    · rwa [recordComponentFailure, recordUnpruned, if_pos hblocked, if_pos hblocked]
    · have hunblocked : c.blocked = false := by simpa using hblocked
      obtain ⟨pruned, hpruned⟩ := recordComponentFailure_settle hempty hordered hunblocked
      obtain ⟨full, hfull⟩ := recordUnpruned_settle hempty hordered hunblocked
      rw [hpruned, hfull]
      exact (settle_sameTables hsame c pruned full _).2

/-- A blocked call changes nothing. Any other call quarantines its key if it is at least the
fifth one in the minute, and answers with the doubled delay otherwise. A history that is never
pruned leads to the same decisions. -/
theorem quarantineWindow (earlier : List Call) (c : Call)
    (hordered : ((earlier ++ [c]).map Call.now).Pairwise (· ≤ ·)) :
    let s := afterCalls recordComponentFailure w earlier
    let full := afterCalls recordUnpruned w earlier
    let n := (recent (earlier ++ [c]) c).length
    (c.blocked = true → recordComponentFailure s c = (s, none)) ∧
      (c.blocked = false → 5 ≤ n →
        (recordComponentFailure s c).2 = none ∧
          (recordComponentFailure s c).1.quarantined =
            Function.update s.quarantined c.key true ∧
          (recordComponentFailure s c).1.quarantineTimes =
            Function.update s.quarantineTimes c.key (some c.now)) ∧
      (c.blocked = false → n < 5 →
        (recordComponentFailure s c).2 = some (1 / 4 * 2 ^ (n - 1)) ∧
          (recordComponentFailure s c).1.quarantined = s.quarantined ∧
          (recordComponentFailure s c).1.quarantineTimes = s.quarantineTimes) ∧
      (recordComponentFailure s c).2 = (recordUnpruned full c).2 ∧
      SameTables (recordComponentFailure s c).1 (recordUnpruned full c).1 := by
  intro s full n
  have hsame : SameTables s full := sameTables_afterCalls hempty earlier (by
    rw [List.map_append, List.pairwise_append] at hordered
    exact hordered.1)
  by_cases hblocked : c.blocked = true
  · have hs : recordComponentFailure s c = (s, none) := if_pos hblocked
    have hfull : recordUnpruned full c = (full, none) := if_pos hblocked
    simp [hblocked, hs, hfull, hsame]
  · have hunblocked : c.blocked = false := by simpa using hblocked
    obtain ⟨history, hpruned⟩ := recordComponentFailure_settle hempty hordered hunblocked
    obtain ⟨unpruned, hfull⟩ := recordUnpruned_settle hempty hordered hunblocked
    have htables := settle_sameTables hsame c history unpruned n
    rw [← hpruned, ← hfull] at htables
    refine ⟨fun h => absurd h hblocked, fun _ hn => ?_, fun _ hn => ?_, htables⟩
    · rw [hpruned, settle, if_pos hn]
      exact ⟨rfl, rfl, rfl⟩
    · have hdelay : (1 : ℚ) / 4 * 2 ^ (n - 1) ≤ 30 := by
        have hpow : (2 : ℚ) ^ (n - 1) ≤ 2 ^ 3 := pow_le_pow_right₀ (by norm_num) (by omega)
        linarith
      rw [hpruned, settle, if_neg (by omega), min_eq_right hdelay]
      exact ⟨rfl, rfl, rfl⟩

end

/-- A session in which nothing has failed yet. -/
def freshSession : Session where
  startup := []
  foregroundStack := []
  quarantined := fun _ => false
  quarantineTimes := fun _ => none
  failureHistory := fun _ => []
  spawnBackoffUntil := fun _ => none
  now := 0

/-- A failure of the shell, outside any outage. -/
def shellFailure (now : ℚ) : Call := ⟨lit "org.msys.shell:ui", now, none, none⟩

/-- The first of five failures is just too old for the last one. -/
theorem quarantineWindow_boundary :
    (recordComponentFailure
      (afterCalls recordComponentFailure freshSession ([0, 10, 20, 30].map shellFailure))
      (shellFailure 60)).2 = some 2 := by
  have hordered : (([0, 10, 20, 30].map shellFailure ++ [shellFailure 60]).map
      Call.now).Pairwise (· ≤ ·) := by
    norm_num [shellFailure]
  have hcount : (recent ([0, 10, 20, 30].map shellFailure ++ [shellFailure 60])
      (shellFailure 60)).length = 4 := by
    norm_num [recent, shellFailure, Call.blocked, List.filter_cons]
  obtain ⟨-, -, hdelay, -⟩ := quarantineWindow (w := freshSession) (fun _ => rfl) _ _ hordered
  rw [(hdelay rfl (by rw [hcount]; decide)).1, hcount]
  norm_num

end MsysCore.Core.QuarantineWindow
