import Mathlib.Logic.Basic

/-!
# Computations that raise and keep what they wrote

A computation in `EStateM` that raises leaves the state as it stood at that point. These are
the rules that carry an invariant through such a computation, and that take a computation
which returned apart.
-/

namespace MsysCore.Attempts

variable {ε σ α β : Type}

/-- The state a computation ends in, whether it returned or raised. -/
def finalState : EStateM.Result ε σ α → σ
  | .ok _ s => s
  | .error _ s => s

/-- However the computation ends, the invariant still holds. -/
def Keeps (P : σ → Prop) (m : EStateM ε σ α) : Prop := ∀ s, P s → P (finalState (m.run s))

variable {P : σ → Prop} {m : EStateM ε σ α} {f : α → EStateM ε σ β} {s : σ}

theorem keeps_pure (a : α) : Keeps P (pure a : EStateM ε σ α) := fun _ h => h

theorem keeps_throw (e : ε) : Keeps P (throw e : EStateM ε σ α) := fun _ h => h

theorem keeps_modify {update : σ → σ} (h : ∀ s, P s → P (update s)) :
    Keeps P (modify update : EStateM ε σ PUnit) := h

theorem Keeps.bind (hm : Keeps P m) (hf : ∀ a, Keeps P (f a)) : Keeps P (m >>= f) := by
  intro s hs
  have hfirst := hm s hs
  rw [EStateM.run_bind]
  cases hrun : m.run s with
  | error e s' =>
    rw [hrun] at hfirst
    exact hfirst
  | ok a s' =>
    rw [hrun] at hfirst
    exact hf a s' hfirst

/-- A computation that starts in `P` returns in `Q` or raises in `E`. -/
def Ends (P : σ → Prop) (m : EStateM ε σ α) (Q : α → σ → Prop) (E : σ → Prop) : Prop :=
  ∀ s, P s → match m.run s with
    | .ok a t => Q a t
    | .error _ t => E t

theorem Ends.bind {Q : α → σ → Prop} {R : β → σ → Prop} {E : σ → Prop} (hm : Ends P m Q E)
    (hf : ∀ a, Ends (Q a) (f a) R E) : Ends P (m >>= f) R E := by
  intro s hs
  have hfirst := hm s hs
  rw [EStateM.run_bind]
  cases hrun : m.run s with
  | error e t =>
    rw [hrun] at hfirst
    exact hfirst
  | ok a t =>
    rw [hrun] at hfirst
    exact hf a t hfirst

theorem Keeps.ends (h : Keeps P m) : Ends P m (fun _ => P) P := by
  intro s hs
  have hfinal := h s hs
  cases hrun : m.run s with
  | error e t =>
    rw [hrun] at hfinal
    exact hfinal
  | ok a t =>
    rw [hrun] at hfinal
    exact hfinal

theorem ends_modify {Q E : σ → Prop} {update : σ → σ} (h : ∀ s, P s → Q (update s)) :
    Ends P (modify update : EStateM ε σ PUnit) (fun _ => Q) E := h

theorem ends_pure {Q : α → σ → Prop} {E : σ → Prop} {a : α} (h : ∀ s, P s → Q a s) :
    Ends P (pure a : EStateM ε σ α) Q E := h

theorem ends_get {E : σ → Prop} :
    Ends P (get : EStateM ε σ σ) (fun a s => a = s ∧ P s) E := fun _ h => ⟨rfl, h⟩

theorem Ends.mono {Q Q' : α → σ → Prop} {E : σ → Prop} (h : Ends P m Q E)
    (hpost : ∀ a s, Q a s → Q' a s) : Ends P m Q' E := by
  intro s hs
  have hfinal := h s hs
  cases hrun : m.run s with
  | error e t =>
    rw [hrun] at hfinal
    exact hfinal
  | ok a t =>
    rw [hrun] at hfinal
    exact hpost a t hfinal

theorem run_bind_of_ok {a : α} {s' : σ} (h : m.run s = .ok a s') :
    (m >>= f).run s = (f a).run s' := by
  rw [EStateM.run_bind, h]

theorem run_bind_of_error {e : ε} {s' : σ} (h : m.run s = .error e s') :
    (m >>= f).run s = .error e s' := by
  rw [EStateM.run_bind, h]

theorem run_bind_eq_ok {b : β} {t : σ} :
    (m >>= f).run s = .ok b t ↔ ∃ a s', m.run s = .ok a s' ∧ (f a).run s' = .ok b t := by
  rw [EStateM.run_bind]
  cases m.run s with
  | error e s' => simp
  | ok a s' =>
    constructor
    · intro h
      exact ⟨a, s', rfl, h⟩
    · rintro ⟨_, _, hrun, h⟩
      cases hrun
      exact h

theorem run_bind_eq_error {e : ε} {t : σ} :
    (m >>= f).run s = .error e t ↔
      m.run s = .error e t ∨ ∃ a s', m.run s = .ok a s' ∧ (f a).run s' = .error e t := by
  rw [EStateM.run_bind]
  cases m.run s with
  | error e' s' => simp
  | ok a s' =>
    constructor
    · intro h
      exact .inr ⟨a, s', rfl, h⟩
    · rintro (h | ⟨_, _, hrun, h⟩)
      · cases h
      · cases hrun
        exact h

theorem run_throw (e : ε) : (throw e : EStateM ε σ α).run s = .error e s := rfl

/-- A handler starts in the state the block had reached. -/
theorem run_tryCatch {handler : ε → EStateM ε σ α} :
    (tryCatch m handler).run s =
      match m.run s with
      | .ok a s' => .ok a s'
      | .error e s' => (handler e).run s' := by
  change EStateM.tryCatch m handler s = _
  delta EStateM.tryCatch
  cases hrun : m s with
  | ok a s' => simp only [EStateM.run, hrun]
  | error e s' =>
    simp only [EStateM.run, hrun]
    rfl

end MsysCore.Attempts
