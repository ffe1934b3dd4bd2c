import Mathlib.Logic.Relation

/-!
# Wait-for graphs

Tasks want and hold resources. When every task wants only what comes after all that it
holds, in some strict order, no task waits for itself.
-/

namespace MsysCore.WaitFor

open Relation

variable {τ ρ : Type*} (wants holds : τ → ρ → Prop)

/-- The first task waits for the second. -/
def Edge (t u : τ) : Prop := ∃ r, wants t r ∧ holds u r

def Acyclic : Prop := ∀ t, ¬ TransGen (Edge wants holds) t t

variable {wants holds}

/-- Along a chain of waits the resources go up. -/
theorem transGen_edge_lt {lt : ρ → ρ → Prop} (htrans : ∀ a b c, lt a b → lt b c → lt a c)
    (hlt : ∀ t a b, holds t a → wants t b → lt a b) {t u : τ}
    (h : TransGen (Edge wants holds) t u) :
    ∃ first last, wants t first ∧ holds u last ∧ (first = last ∨ lt first last) := by
  induction h with
  | single hedge =>
    obtain ⟨r, hwants, hholds⟩ := hedge
    exact ⟨r, r, hwants, hholds, .inl rfl⟩
  | @tail u v _ hedge ih =>
    obtain ⟨first, last, hfirst, hlast, hle⟩ := ih
    obtain ⟨r, hwants, hholds⟩ := hedge
    have hstep : lt last r := hlt u last r hlast hwants
    refine ⟨first, r, hfirst, hholds, .inr ?_⟩
    rcases hle with rfl | hle
    · exact hstep
    · exact htrans first last r hle hstep

theorem acyclic_of_lt {lt : ρ → ρ → Prop} (htrans : ∀ a b c, lt a b → lt b c → lt a c)
    (hirrefl : ∀ a, ¬ lt a a) (hlt : ∀ t a b, holds t a → wants t b → lt a b) :
    Acyclic wants holds := by
  intro t h
  obtain ⟨first, last, hfirst, hlast, hle⟩ := transGen_edge_lt htrans hlt h
  have hback : lt last first := hlt t last first hlast hfirst
  rcases hle with rfl | hle
  · exact hirrefl _ hback
  · exact hirrefl first (htrans first last first hle hback)

end MsysCore.WaitFor
