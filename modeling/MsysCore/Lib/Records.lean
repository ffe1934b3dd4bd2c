import Mathlib.Data.List.Basic
import Mathlib.Tactic

/-!
# Delimited records

A byte stream that carries one record per delimiter. `splitRecords` is what a
reader of the stream sees; `frame` is what a writer puts there. The two are
inverse to each other exactly on records that are free of the delimiter.
-/

namespace MsysCore.Records

variable {α : Type} [DecidableEq α]

def frame (d : α) (record : List α) : List α := record ++ [d]

def stream (d : α) (records : List (List α)) : List α := (records.map (frame d)).flatten

/-- The reader: the records completed so far, and the bytes of the next one. -/
def readRecords (d : α) : List α → List α → List (List α) × List α
  | partialRecord, [] => ([], partialRecord)
  | partialRecord, b :: rest =>
    if b = d then
      ((partialRecord :: (readRecords d [] rest).1), (readRecords d [] rest).2)
    else readRecords d (partialRecord ++ [b]) rest

def splitRecords (d : α) (s : List α) : List (List α) := (readRecords d [] s).1

theorem stream_cons (d : α) (r : List α) (rs : List (List α)) :
    stream d (r :: rs) = r ++ d :: stream d rs := by
  simp [stream, frame]

theorem stream_append (d : α) (rs ts : List (List α)) :
    stream d (rs ++ ts) = stream d rs ++ stream d ts := by
  simp [stream]

theorem readRecords_append {d : α} {r : List α} (hr : d ∉ r) (p rest : List α) :
    readRecords d p (r ++ d :: rest) =
      ((p ++ r) :: (readRecords d [] rest).1, (readRecords d [] rest).2) := by
  induction r generalizing p with
  | nil => simp [readRecords]
  | cons b r ih =>
    have hb : b ≠ d := fun h => hr (by simp [h])
    have hr' : d ∉ r := fun h => hr (List.mem_cons_of_mem _ h)
    rw [List.cons_append, readRecords, if_neg hb, ih hr']
    simp

theorem not_mem_of_mem_splitRecords {d : α} (s : List α) : ∀ (p : List α), d ∉ p →
    ∀ r ∈ (readRecords d p s).1, d ∉ r := by
  induction s with
  | nil => simp [readRecords]
  | cons b s ih =>
    intro p hp r hr
    rw [readRecords] at hr
    split_ifs at hr with hb
    · rcases List.mem_cons.mp hr with rfl | hr
      · exact hp
      · exact ih [] (by simp) r hr
    · refine ih (p ++ [b]) ?_ r hr
      simp only [List.mem_append, List.mem_singleton, not_or]
      exact ⟨hp, fun h => hb h.symm⟩

/-- Reading back what was written recovers the records exactly when none of them
contains the delimiter. -/
theorem splitRecords_stream_iff (d : α) (rs : List (List α)) :
    splitRecords d (stream d rs) = rs ↔ ∀ r ∈ rs, d ∉ r := by
  constructor
  · intro h r hr
    rw [← h] at hr
    exact not_mem_of_mem_splitRecords _ [] (by simp) r hr
  · intro h
    induction rs with
    | nil => rfl
    | cons r rs ih =>
      have hr := readRecords_append (h r (by simp)) [] (stream d rs)
      rw [splitRecords, stream_cons, hr]
      have ih' := ih fun r' hr' => h r' (List.mem_cons_of_mem _ hr')
      rw [splitRecords] at ih'
      simp [ih']

/-- One delimiter in a framed record: the final one. -/
theorem count_frame_eq_one_iff (d : α) (r : List α) : (frame d r).count d = 1 ↔ d ∉ r := by
  simp [frame, List.count_append, List.count_eq_zero]

end MsysCore.Records
