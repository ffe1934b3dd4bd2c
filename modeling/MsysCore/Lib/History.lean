import Mathlib.Data.List.Basic

/-!
# Justified histories

A history is the list of the facts of a run, oldest first. It is justified when each of its
facts is allowed by the facts before it. Histories are built by appending, and a rule about
the present state gives the justification of the next fact.
-/

namespace MsysCore.History

variable {α : Type*} {allowed : List α → α → Prop}

/-- Each fact is allowed by those before it. -/
def Justified (allowed : List α → α → Prop) (history : List α) : Prop :=
  ∀ before fact after, history = before ++ fact :: after → allowed before fact

theorem justified_nil : Justified allowed [] := by
  intro before fact after h
  simp at h

theorem Justified.append {history : List α} {fact : α} (h : Justified allowed history)
    (hfact : allowed history fact) : Justified allowed (history ++ [fact]) := by
  intro before other after heq
  rcases List.eq_nil_or_concat after with rfl | ⟨after', last, rfl⟩
  · obtain ⟨rfl, hlast⟩ := List.append_inj' heq rfl
    cases hlast
    exact hfact
  · have hsplit : history ++ [fact] = (before ++ other :: after') ++ [last] := by
      rw [heq]
      simp
    obtain ⟨rfl, -⟩ := List.append_inj' hsplit rfl
    exact h before other after' rfl

/-- The facts before an allowed one are facts of the history. -/
theorem Justified.exists_before {history : List α} {fact : α} (h : Justified allowed history)
    (hmem : fact ∈ history) : ∃ before, before <+: history ∧ allowed before fact := by
  obtain ⟨before, after, rfl⟩ := List.append_of_mem hmem
  exact ⟨before, List.prefix_append _ _, h before fact after rfl⟩

end MsysCore.History
