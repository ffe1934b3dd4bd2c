import Mathlib.Logic.Basic
import Mathlib.Tactic

/-!
# Runs of a labelled transition function

`step s l = none` means that the label is not enabled. A run is a list of labels;
`Along` says that every step of a run meets a condition on its state and label,
which is how an assumption about the environment is attached to a run.
-/

namespace MsysCore.Runs

variable {σ ℓ : Type*} (step : σ → ℓ → Option σ)

def run : σ → List ℓ → Option σ
  | s, [] => some s
  | s, l :: ls => (step s l).bind fun s' => run s' ls

/-- Every step the run takes from `s` meets `cond`. -/
def Along (cond : σ → ℓ → Prop) : σ → List ℓ → Prop
  | _, [] => True
  | s, l :: ls => cond s l ∧ match step s l with
    | none => True
    | some s' => Along cond s' ls

instance decidableAlong (cond : σ → ℓ → Prop) [∀ s l, Decidable (cond s l)] :
    ∀ (s : σ) (ls : List ℓ), Decidable (Along step cond s ls)
  | _, [] => isTrue trivial
  | s, l :: ls =>
    have : Decidable (match step s l with
        | none => True
        | some s' => Along step cond s' ls) :=
      match step s l with
      | none => isTrue trivial
      | some s' => decidableAlong cond s' ls
    inferInstanceAs (Decidable (_ ∧ _))

variable {step}

theorem along_cons {cond : σ → ℓ → Prop} {s t : σ} {l : ℓ} {ls : List ℓ}
    (h : Along step cond s (l :: ls)) (hstep : step s l = some t) :
    cond s l ∧ Along step cond t ls := by
  refine ⟨h.1, ?_⟩
  have hrest := h.2
  rw [hstep] at hrest
  exact hrest

theorem run_cons {s s' : σ} {l : ℓ} {ls : List ℓ} (h : run step s (l :: ls) = some s') :
    ∃ t, step s l = some t ∧ run step t ls = some s' := by
  simpa [run, Option.bind_eq_some_iff] using h

/-- An invariant of the steps that meet the condition is one of the runs along it. -/
theorem run_invariant {cond : σ → ℓ → Prop} {Inv : σ → Prop}
    (hstep : ∀ s l s', Inv s → cond s l → step s l = some s' → Inv s')
    (ls : List ℓ) : ∀ {s s' : σ}, Inv s → Along step cond s ls → run step s ls = some s' →
      Inv s' := by
  induction ls with
  | nil =>
    intro s s' hs _ hrun
    cases hrun
    exact hs
  | cons l ls ih =>
    intro s s' hs halong hrun
    obtain ⟨t, ht, hrest⟩ := run_cons hrun
    obtain ⟨hcond, hnext⟩ := along_cons halong ht
    exact ih (hstep s l t hs hcond ht) hnext hrest

/-- A condition on the labels alone. -/
theorem along_of_forall {cond : σ → ℓ → Prop} (ls : List ℓ) :
    (∀ l ∈ ls, ∀ s, cond s l) → ∀ s : σ, Along step cond s ls := by
  induction ls with
  | nil => exact fun _ _ => trivial
  | cons l ls ih =>
    intro h s
    refine ⟨h l List.mem_cons_self s, ?_⟩
    cases step s l with
    | none => trivial
    | some t => exact ih (fun m hm => h m (List.mem_cons_of_mem l hm)) t

theorem along_true (ls : List ℓ) (s : σ) : Along step (fun _ _ => True) s ls :=
  along_of_forall ls (fun _ _ _ => trivial) s

/-- An invariant of every step holds in every reachable state. -/
theorem run_invariant_all {Inv : σ → Prop} (hstep : ∀ s l s', Inv s → step s l = some s' → Inv s')
    (ls : List ℓ) {s s' : σ} (hs : Inv s) (hrun : run step s ls = some s') : Inv s' :=
  run_invariant (fun s l s' hs _ h => hstep s l s' hs h) ls hs (along_true ls s) hrun

/-- Conditions that are equivalent on the states of an invariant, which the steps that meet the
first one keep, hold along the same runs. -/
theorem along_iff_of_invariant {cond cond' : σ → ℓ → Prop} {Inv : σ → Prop}
    (hstep : ∀ s l s', Inv s → cond s l → step s l = some s' → Inv s')
    (hiff : ∀ s l, Inv s → (cond s l ↔ cond' s l)) (ls : List ℓ) :
    ∀ {s : σ}, Inv s → (Along step cond s ls ↔ Along step cond' s ls) := by
  induction ls with
  | nil => exact fun _ => Iff.rfl
  | cons l ls ih =>
    intro s hs
    by_cases hcond : cond s l
    · apply and_congr (hiff s l hs)
      cases h : step s l with
      | none => exact Iff.rfl
      | some t => exact ih (hstep s l t hs hcond h)
    · have hcond' : ¬ cond' s l := fun h => hcond ((hiff s l hs).mpr h)
      simp only [Along, hcond, hcond', false_and]

/-- On states that meet an invariant of every step, equivalent conditions hold along the same
runs. -/
theorem along_iff {cond cond' : σ → ℓ → Prop} {Inv : σ → Prop}
    (hstep : ∀ s l s', Inv s → step s l = some s' → Inv s')
    (hiff : ∀ s l, Inv s → (cond s l ↔ cond' s l)) (ls : List ℓ) {s : σ} (hs : Inv s) :
    Along step cond s ls ↔ Along step cond' s ls :=
  along_iff_of_invariant (fun s l s' hs _ h => hstep s l s' hs h) hiff ls hs

/-- A property that every step keeps exactly when it meets a condition holds at the end of a run
exactly when it held at its start and the run went along the condition. -/
theorem run_property_iff {cond : σ → ℓ → Prop} {Inv P : σ → Prop}
    (hstep : ∀ s l s', Inv s → step s l = some s' → Inv s')
    (hiff : ∀ s l s', Inv s → step s l = some s' → (P s' ↔ P s ∧ cond s l)) (ls : List ℓ) :
    ∀ {s s' : σ}, Inv s → run step s ls = some s' → (P s' ↔ P s ∧ Along step cond s ls) := by
  induction ls with
  | nil =>
    intro s s' _ hrun
    cases hrun
    exact ⟨fun h => ⟨h, trivial⟩, And.left⟩
  | cons l ls ih =>
    intro s s' hs hrun
    obtain ⟨t, ht, hrest⟩ := run_cons hrun
    rw [ih (hstep s l t hs ht) hrest, hiff s l t hs ht, and_assoc]
    refine and_congr_right fun _ => and_congr_right fun _ => ?_
    rw [ht]

end MsysCore.Runs
