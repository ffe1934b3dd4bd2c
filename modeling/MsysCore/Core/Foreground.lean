import MsysCore.Python.Values
import MsysCore.Lib.Runs

/-!
# The foreground stack

Tasks in the order in which they were last shown, and the set of tasks that the user has
sent to the background with Home. A task is marked when it is started or activated and
forgotten when its process ends.
-/

namespace MsysCore.Core

open Python

structure Foreground where
  stack : List PyStr
  backgrounded : Finset PyStr
  deriving DecidableEq

namespace Foreground

def empty : Foreground := ⟨[], ∅⟩

/-- `_mark_foreground` -/
def markForeground (f : Foreground) (key : PyStr) : Foreground where
  stack := key :: f.stack.filter (· ≠ key)
  backgrounded := f.backgrounded.erase key

/-- `_forget_foreground` -/
def forgetForeground (f : Foreground) (key : PyStr) : Foreground where
  stack := f.stack.filter (· ≠ key)
  backgrounded :=
    match f.stack.filter (· ≠ key) with
    | [] => f.backgrounded.erase key
    | top :: _ =>
      if key ∈ f.backgrounded then insert top (f.backgrounded.erase key)
      else f.backgrounded.erase key

/-- `_background_foreground`, with whether the task is the top one and whether it was already
flagged. -/
def backgroundForeground (f : Foreground) (key : PyStr) : Foreground × Bool × Bool :=
  if f.stack.head? = some key then
    ({ f with backgrounded := insert key f.backgrounded }, true, key ∈ f.backgrounded)
  else (f, false, false)

inductive Op
  | mark (key : PyStr)
  | background (key : PyStr)
  | forget (key : PyStr)
  deriving DecidableEq

def apply (f : Foreground) : Op → Foreground
  | .mark key => f.markForeground key
  | .background key => (f.backgroundForeground key).1
  | .forget key => f.forgetForeground key

def step (f : Foreground) (op : Op) : Option Foreground := some (f.apply op)

structure WellFormed (f : Foreground) : Prop where
  nodup : f.stack.Nodup
  flagged : ∀ key ∈ f.backgrounded, key ∈ f.stack

/-- The top task is flagged background. -/
def topFlagged (f : Foreground) : Bool := f.stack.head?.any (· ∈ f.backgrounded)

variable {f : Foreground} {key other : PyStr}

/-! ## What each operation does -/

@[simp] theorem mark_stack (f : Foreground) (key : PyStr) :
    (f.markForeground key).stack = key :: f.stack.filter (· ≠ key) := rfl

@[simp] theorem mark_backgrounded (f : Foreground) (key : PyStr) :
    (f.markForeground key).backgrounded = f.backgrounded.erase key := rfl

@[simp] theorem forget_stack (f : Foreground) (key : PyStr) :
    (f.forgetForeground key).stack = f.stack.filter (· ≠ key) := rfl

/-- The flag of a forgotten task passes to the new top. -/
theorem mem_forget_backgrounded : other ∈ (f.forgetForeground key).backgrounded ↔
    (other ≠ key ∧ other ∈ f.backgrounded) ∨
      (key ∈ f.backgrounded ∧ (f.stack.filter (· ≠ key)).head? = some other) := by
  unfold forgetForeground
  cases hstack : f.stack.filter (· ≠ key) with
  | nil => simp
  | cons top rest =>
    by_cases hkey : key ∈ f.backgrounded
    · simp only [hkey, if_true, Finset.mem_insert, Finset.mem_erase, List.head?_cons,
        Option.some.injEq, true_and]
      rw [or_comm, eq_comm]
    · simp only [hkey, if_false, Finset.mem_erase, false_and, or_false]

theorem mem_background_backgrounded :
    other ∈ (f.backgroundForeground key).1.backgrounded ↔
      other ∈ f.backgrounded ∨ (other = key ∧ f.stack.head? = some key) := by
  unfold backgroundForeground
  split_ifs with htop
  · simp [htop, or_comm]
  · simp [htop]

@[simp] theorem background_stack (f : Foreground) (key : PyStr) :
    (f.backgroundForeground key).1.stack = f.stack := by
  unfold backgroundForeground
  split_ifs <;> rfl

/-- Removing a task below the top leaves the top. -/
theorem head?_filter_ne (htop : f.stack.head? ≠ some key) :
    (f.stack.filter (· ≠ key)).head? = f.stack.head? := by
  cases hstack : f.stack with
  | nil => rfl
  | cons top rest =>
    rw [hstack] at htop
    have hne : top ≠ key := by simpa using htop
    simp [hne]

/-! ## Well-formedness -/

theorem wellFormed_empty : WellFormed empty := ⟨List.nodup_nil, by simp [empty]⟩

theorem WellFormed.mark (hf : f.WellFormed) (key : PyStr) : (f.markForeground key).WellFormed := by
  constructor
  · rw [mark_stack, List.nodup_cons]
    exact ⟨by simp, hf.nodup.filter _⟩
  · intro other hother
    rw [mark_backgrounded, Finset.mem_erase] at hother
    simp [hother.1, hf.flagged other hother.2]

theorem WellFormed.background (hf : f.WellFormed) (key : PyStr) :
    (f.backgroundForeground key).1.WellFormed := by
  constructor
  · rw [background_stack]
    exact hf.nodup
  · intro other hother
    rw [background_stack]
    rcases mem_background_backgrounded.mp hother with hflagged | ⟨rfl, htop⟩
    · exact hf.flagged other hflagged
    · exact List.mem_of_mem_head? htop

theorem WellFormed.forget (hf : f.WellFormed) (key : PyStr) :
    (f.forgetForeground key).WellFormed := by
  constructor
  · exact hf.nodup.filter _
  · intro other hother
    rcases mem_forget_backgrounded.mp hother with ⟨hne, hflagged⟩ | ⟨-, htop⟩
    · simp [hne, hf.flagged other hflagged]
    · exact List.mem_of_mem_head? htop

theorem WellFormed.apply (hf : f.WellFormed) (op : Op) : (f.apply op).WellFormed := by
  cases op with
  | mark key => exact hf.mark key
  | background key => exact hf.background key
  | forget key => exact hf.forget key

/-! ## Visibility -/

theorem topFlagged_eq_true : f.topFlagged = true ↔
    ∃ top, f.stack.head? = some top ∧ top ∈ f.backgrounded := by
  cases h : f.stack.head? <;> simp [topFlagged, h]

theorem topFlagged_congr {g : Foreground} (hhead : g.stack.head? = f.stack.head?)
    (hflag : ∀ top, f.stack.head? = some top → (top ∈ g.backgrounded ↔ top ∈ f.backgrounded)) :
    g.topFlagged = f.topFlagged := by
  apply Bool.eq_iff_iff.mpr
  rw [topFlagged_eq_true, topFlagged_eq_true, hhead]
  constructor
  · rintro ⟨top, htop, hmem⟩
    exact ⟨top, htop, (hflag top htop).mp hmem⟩
  · rintro ⟨top, htop, hmem⟩
    exact ⟨top, htop, (hflag top htop).mpr hmem⟩

/-- What forgetting a task may do to the task that is shown. -/
structure ForgetKeepsTop (f : Foreground) (key : PyStr) : Prop where
  below : f.stack.head? ≠ some key →
    (f.forgetForeground key).stack.head? = f.stack.head? ∧
      (f.forgetForeground key).topFlagged = f.topFlagged
  hidden : f.stack.head? = some key → key ∈ f.backgrounded →
    ∀ top, (f.forgetForeground key).stack.head? = some top →
      top ∈ (f.forgetForeground key).backgrounded

/-- The step leaves a well-formed state, and a task is forgotten as it should be. -/
def VisibilityKept (f : Foreground) (op : Op) : Prop :=
  (f.apply op).WellFormed ∧ ∀ key, op = .forget key → f.ForgetKeepsTop key

/-- A flagged task is only forgotten at the top, or below a top that is itself flagged. -/
def ForgetsNoHiddenBelow (f : Foreground) (op : Op) : Prop :=
  ∀ key, op = .forget key → key ∈ f.backgrounded →
    f.stack.head? = some key ∨ f.topFlagged = true

theorem forgetKeepsTop_of (hkey : key ∈ f.backgrounded →
    f.stack.head? = some key ∨ f.topFlagged = true) : f.ForgetKeepsTop key := by
  constructor
  · intro htop
    have hhead : (f.forgetForeground key).stack.head? = f.stack.head? := head?_filter_ne htop
    refine ⟨hhead, topFlagged_congr hhead fun top hcurrent => ?_⟩
    have hne : top ≠ key := fun heq => htop (heq ▸ hcurrent)
    rw [mem_forget_backgrounded, head?_filter_ne htop]
    constructor
    · rintro (⟨-, hflagged⟩ | ⟨hhidden, -⟩)
      · exact hflagged
      · -- the flag passes to the top, which has one already
        obtain ⟨shown, hshown, hflagged⟩ :=
          topFlagged_eq_true.mp ((hkey hhidden).resolve_left htop)
        rw [hcurrent] at hshown
        cases hshown
        exact hflagged
    · exact fun hflagged => .inl ⟨hne, hflagged⟩
  · intro _ hhidden top hhead
    exact mem_forget_backgrounded.mpr (.inr ⟨hhidden, hhead⟩)

theorem ForgetKeepsTop.flagged (hf : f.WellFormed) (h : f.ForgetKeepsTop key)
    (hkey : key ∈ f.backgrounded) : f.stack.head? = some key ∨ f.topFlagged = true := by
  by_cases htop : f.stack.head? = some key
  · exact .inl htop
  · obtain ⟨hhead, hflag⟩ := h.below htop
    rw [← hflag, topFlagged_eq_true]
    right
    cases hstack : f.stack.head? with
    | none =>
      have hmem := hf.flagged key hkey
      rw [List.head?_eq_none_iff.mp hstack] at hmem
      cases hmem
    | some top =>
      refine ⟨top, hhead.trans hstack, mem_forget_backgrounded.mpr (.inr ⟨hkey, ?_⟩)⟩
      exact (head?_filter_ne htop).trans hstack

theorem visibilityKept_iff (hf : f.WellFormed) (op : Op) :
    f.VisibilityKept op ↔ f.ForgetsNoHiddenBelow op := by
  constructor
  · rintro ⟨-, hforget⟩ key rfl hkey
    exact (hforget key rfl).flagged hf hkey
  · intro hcond
    exact ⟨hf.apply op, fun key hop => forgetKeepsTop_of (hcond key hop)⟩

/-- Visibility is kept along a run from the empty stack exactly when no flagged task is forgotten
below a task that is shown. -/
theorem visibility_iff (ops : List Op) :
    Runs.Along step VisibilityKept empty ops ↔ Runs.Along step ForgetsNoHiddenBelow empty ops := by
  refine Runs.along_iff (fun f op g hf hstep => ?_) (fun f op hf => visibilityKept_iff hf op) ops
    wellFormed_empty
  cases hstep
  exact hf.apply op

/-- A task that Home has hidden ends while another is shown: the other one is flagged. -/
theorem hidden_forgotten_below : ¬ Runs.Along step VisibilityKept empty
    [.mark (lit "a"), .background (lit "a"), .mark (lit "b"), .forget (lit "a")] := by
  rintro ⟨-, -, -, ⟨-, hforget⟩, -⟩
  have hkept := ((hforget (lit "a") rfl).below (by decide)).2
  revert hkept
  decide

end Foreground

end MsysCore.Core
