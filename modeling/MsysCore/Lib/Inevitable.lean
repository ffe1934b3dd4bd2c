import Mathlib.Data.Prod.Lex
import Mathlib.Logic.Relation
import MsysCore.Lib.Runs

/-!
# What every run reaches

A property is inevitable from a state when no run from there goes on without it and none gets
stuck before it. A measure that every step lowers makes what ends the runs inevitable.
-/

namespace MsysCore.Runs

variable {σ ℓ : Type*} {step : σ → ℓ → Option σ} {P : σ → Prop}

/-- Whatever the labels are, a run from the state reaches `P`. -/
inductive Inevitable (step : σ → ℓ → Option σ) (P : σ → Prop) : σ → Prop
  | here {s : σ} : P s → Inevitable step P s
  | later {s : σ} : (∃ l s', step s l = some s') →
      (∀ l s', step s l = some s' → Inevitable step P s') → Inevitable step P s

theorem inevitable_of_measure {α : Type*} [LT α] [WellFoundedLT α] (measure : σ → α)
    (Inv : σ → Prop)
    (hprogress : ∀ s, Inv s → P s ∨ ∃ l s', step s l = some s')
    (hstep : ∀ s l s', Inv s → step s l = some s' → Inv s' ∧ measure s' < measure s) {s : σ}
    (hs : Inv s) : Inevitable step P s := by
  induction s using (InvImage.wf measure wellFounded_lt).induction with
  | _ s ih =>
    rcases hprogress s hs with hdone | hnext
    · exact .here hdone
    · apply Inevitable.later hnext
      intro l s' h
      obtain ⟨hs', hlt⟩ := hstep s l s' hs h
      exact ih s' hlt hs'

/-- A relation that holds along each step holds along the runs. -/
theorem run_related {R : σ → σ → Prop} (hrefl : ∀ s, R s s)
    (htrans : ∀ {s t u}, R s t → R t u → R s u) (hstep : ∀ s l s', step s l = some s' → R s s')
    (ls : List ℓ) : ∀ {s s' : σ}, run step s ls = some s' → R s s' := by
  induction ls with
  | nil =>
    intro s s' h
    cases h
    exact hrefl s
  | cons l ls ih =>
    intro s s' h
    obtain ⟨t, ht, hrest⟩ := run_cons h
    exact htrans (hstep s l t ht) (ih hrest)

/-- Steps make a run. -/
theorem exists_run_of_steps {s s' : σ}
    (h : Relation.ReflTransGen (fun s t => ∃ l, step s l = some t) s s') :
    ∃ ls, run step s ls = some s' := by
  induction h using Relation.ReflTransGen.head_induction_on with
  | refl => exact ⟨[], rfl⟩
  | head hstep _ ih =>
    obtain ⟨l, hl⟩ := hstep
    obtain ⟨ls, hrun⟩ := ih
    exact ⟨l :: ls, by rw [run, hl, Option.bind_some, hrun]⟩

end MsysCore.Runs
