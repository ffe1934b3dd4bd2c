import Mathlib.Data.List.Forall2
import Mathlib.Logic.Basic

/-!
# Peeling computations in `Except`

A checked routine that returns a value went through each of its binds; these
lemmas take one bind apart without unfolding the routine it runs.
-/

namespace MsysCore

universe u v

variable {ε : Type u} {α β : Type v}

theorem bind_eq_ok {x : Except ε α} {f : α → Except ε β} {b : β} :
    x >>= f = .ok b ↔ ∃ a, x = .ok a ∧ f a = .ok b := by
  cases x with
  | error e => simp [bind, Except.bind]
  | ok a => simp [bind, Except.bind]

theorem map_eq_ok {x : Except ε α} {f : α → β} {b : β} :
    x.map f = .ok b ↔ ∃ a, x = .ok a ∧ f a = b := by
  cases x with
  | error e => simp [Except.map]
  | ok a => simp [Except.map]

theorem toOption_eq_some {x : Except ε α} {a : α} : x.toOption = some a ↔ x = .ok a := by
  cases x <;> simp [Except.toOption]

/-- The computation ends without an error. -/
def Returns (x : Except ε α) : Prop := ∃ a, x = .ok a

@[simp] theorem returns_ok (a : α) : Returns (.ok a : Except ε α) := ⟨a, rfl⟩

@[simp] theorem returns_pure (a : α) : Returns (pure a : Except ε α) := ⟨a, rfl⟩

@[simp] theorem not_returns_error (e : ε) : ¬ Returns (.error e : Except ε α) := by
  rintro ⟨a, h⟩
  cases h

theorem returns_of_isOk {x : Except ε α} (h : x.isOk = true) : Returns x := by
  cases x with
  | ok a => exact ⟨a, rfl⟩
  | error e => cases h

theorem returns_bind {x : Except ε α} {f : α → Except ε β} :
    Returns (x >>= f) ↔ ∃ a, x = .ok a ∧ Returns (f a) := by
  constructor
  · rintro ⟨b, hb⟩
    obtain ⟨a, hx, hf⟩ := bind_eq_ok.mp hb
    exact ⟨a, hx, b, hf⟩
  · rintro ⟨a, hx, b, hf⟩
    exact ⟨b, bind_eq_ok.mpr ⟨a, hx, hf⟩⟩

theorem returns_bind_and {x : Except ε α} {f : α → Except ε β} :
    Returns (x >>= f) ↔ Returns x ∧ ∀ a, x = .ok a → Returns (f a) := by
  rw [returns_bind]
  constructor
  · rintro ⟨a, hx, hf⟩
    refine ⟨⟨a, hx⟩, fun b hb => ?_⟩
    rw [hx] at hb
    cases hb
    exact hf
  · rintro ⟨⟨a, hx⟩, hf⟩
    exact ⟨a, hx, hf a hx⟩

/-- A bind whose continuation does not depend on the value. -/
theorem returns_bind_const {x : Except ε α} {f : α → Except ε β} {p : Prop}
    (hf : ∀ a, Returns (f a) ↔ p) : Returns (x >>= f) ↔ Returns x ∧ p := by
  rw [returns_bind]
  constructor
  · rintro ⟨a, hx, ha⟩
    exact ⟨⟨a, hx⟩, (hf a).mp ha⟩
  · rintro ⟨⟨a, hx⟩, hp⟩
    exact ⟨a, hx, (hf a).mpr hp⟩

/-- A bind whose continuation always returns. -/
theorem returns_bind_of_forall {x : Except ε α} {f : α → Except ε β} (hf : ∀ a, Returns (f a)) :
    Returns (x >>= f) ↔ Returns x := by
  rw [returns_bind_const fun a => iff_true_intro (hf a), and_true]

theorem mapM_returns_iff {f : α → Except ε β} (xs : List α) :
    Returns (xs.mapM f) ↔ ∀ x ∈ xs, Returns (f x) := by
  induction xs with
  | nil => simp
  | cons x xs ih =>
    rw [List.mapM_cons, List.forall_mem_cons, ← ih]
    exact returns_bind_const fun _ => returns_bind_of_forall fun _ => returns_pure _

theorem mapM_eq_ok {f : α → Except ε β} {xs : List α} {ys : List β} :
    xs.mapM f = .ok ys ↔ List.Forall₂ (fun x y => f x = .ok y) xs ys := by
  induction xs generalizing ys with
  | nil =>
    rw [List.mapM_nil, List.forall₂_nil_left_iff]
    constructor
    · intro h
      cases h
      rfl
    · rintro rfl
      rfl
  | cons x xs ih =>
    rw [List.mapM_cons, bind_eq_ok]
    constructor
    · rintro ⟨y, hy, h⟩
      obtain ⟨rest, hrest, heq⟩ := bind_eq_ok.mp h
      cases heq
      exact List.Forall₂.cons hy (ih.mp hrest)
    · intro h
      cases h with
      | cons hy hrest => exact ⟨_, hy, bind_eq_ok.mpr ⟨_, ih.mpr hrest, rfl⟩⟩

theorem mem_mapM {f : α → Except ε β} {xs : List α} {ys : List β} (h : xs.mapM f = .ok ys)
    {y : β} (hy : y ∈ ys) : ∃ x ∈ xs, f x = .ok y := by
  have hrel := mapM_eq_ok.mp h
  clear h
  induction hrel with
  | nil => cases hy
  | @cons x z xs zs hx hrest ih =>
    rcases List.mem_cons.mp hy with rfl | hmem
    · exact ⟨x, List.mem_cons_self, hx⟩
    · obtain ⟨x', hmem', hx'⟩ := ih hmem
      exact ⟨x', List.mem_cons_of_mem x hmem', hx'⟩

/-- Both return the same values, and may fail in different ways. -/
def AgreesOk (x y : Except ε α) : Prop := ∀ a, x = .ok a ↔ y = .ok a

theorem AgreesOk.refl (x : Except ε α) : AgreesOk x x := fun _ => Iff.rfl

theorem agreesOk_error (e e' : ε) : AgreesOk (.error e : Except ε α) (.error e') := by
  intro a
  constructor <;> exact fun h => by cases h

theorem AgreesOk.bind {x y : Except ε α} {f g : α → Except ε β} (h : AgreesOk x y)
    (hf : ∀ a, AgreesOk (f a) (g a)) : AgreesOk (x >>= f) (y >>= g) := by
  intro b
  rw [bind_eq_ok, bind_eq_ok]
  exact exists_congr fun a => and_congr (h a) (hf a b)

theorem AgreesOk.mapM {f g : α → Except ε β} (hf : ∀ a, AgreesOk (f a) (g a)) (xs : List α) :
    AgreesOk (xs.mapM f) (xs.mapM g) := by
  induction xs with
  | nil => exact AgreesOk.refl _
  | cons x xs ih =>
    rw [List.mapM_cons, List.mapM_cons]
    exact (hf x).bind fun _ => ih.bind fun _ => AgreesOk.refl _

/-- A loop whose turns keep a property returns a value that has it. -/
theorem foldlM_invariant {P : β → Prop} {f : β → α → Except ε β} {items : List α}
    (hf : ∀ b item b', P b → f b item = .ok b' → P b') :
    ∀ {b b' : β}, P b → items.foldlM f b = .ok b' → P b' := by
  induction items with
  | nil =>
    intro b b' hb h
    cases h
    exact hb
  | cons item items ih =>
    intro b b' hb h
    rw [List.foldlM_cons] at h
    obtain ⟨next, hnext, hrest⟩ := bind_eq_ok.mp h
    exact ih (hf b item next hb hnext) hrest

theorem foldlM_returns {f : β → α → Except ε β} {items : List α}
    (hf : ∀ item ∈ items, ∀ b, Returns (f b item)) : ∀ b, Returns (items.foldlM f b) := by
  induction items with
  | nil => exact fun b => returns_pure b
  | cons item items ih =>
    intro b
    rw [List.foldlM_cons, returns_bind]
    obtain ⟨next, hnext⟩ := hf item List.mem_cons_self b
    exact ⟨next, hnext, ih (fun other hother => hf other (List.mem_cons_of_mem item hother)) next⟩

theorem foldlM_returns_iff {P : α → Prop} {f : β → α → Except ε β} {items : List α}
    (hf : ∀ b item, Returns (f b item) ↔ P item) :
    ∀ b, Returns (items.foldlM f b) ↔ ∀ item ∈ items, P item := by
  induction items with
  | nil => simp
  | cons item items ih =>
    intro b
    rw [List.foldlM_cons, returns_bind_const ih, hf, List.forall_mem_cons]

/-- A loop that only checks its items returns exactly when every check does. -/
theorem forM_eq_ok {f : α → Except ε PUnit} {items : List α} :
    items.forM f = .ok ⟨⟩ ↔ ∀ item ∈ items, f item = .ok ⟨⟩ := by
  induction items with
  | nil => simp [pure, Except.pure]
  | cons item items ih =>
    rw [List.forM, bind_eq_ok, List.forall_mem_cons]
    constructor
    · rintro ⟨⟨⟩, hitem, hrest⟩
      exact ⟨hitem, ih.mp hrest⟩
    · rintro ⟨hitem, hrest⟩
      exact ⟨⟨⟩, hitem, ih.mpr hrest⟩

theorem bind_eq_error {x : Except ε α} {f : α → Except ε β} {e : ε} :
    x >>= f = .error e ↔ x = .error e ∨ ∃ a, x = .ok a ∧ f a = .error e := by
  cases x with
  | error e' => simp [bind, Except.bind]
  | ok a => simp [bind, Except.bind]

/-- A loop that fails does so in one of its turns, at a value that the turns before it led to. -/
theorem foldlM_eq_error {P : β → Prop} {f : β → α → Except ε β} {items : List α} {e : ε}
    (hf : ∀ b, ∀ item ∈ items, ∀ b', P b → f b item = .ok b' → P b') :
    ∀ {b : β}, P b → items.foldlM f b = .error e →
      ∃ item ∈ items, ∃ b', P b' ∧ f b' item = .error e := by
  induction items with
  | nil =>
    intro b hb h
    cases h
  | cons item items ih =>
    intro b hb h
    rw [List.foldlM_cons] at h
    rcases bind_eq_error.mp h with hitem | ⟨next, hnext, hrest⟩
    · exact ⟨item, List.mem_cons_self, b, hb, hitem⟩
    · have hkept := hf b item List.mem_cons_self next hb hnext
      obtain ⟨other, hother, b', hb', herror⟩ :=
        ih (fun c x hx => hf c x (List.mem_cons_of_mem item hx)) hkept hrest
      exact ⟨other, List.mem_cons_of_mem item hother, b', hb', herror⟩

theorem forM_eq_error {f : α → Except ε PUnit} {items : List α} {e : ε}
    (h : items.forM f = .error e) : ∃ item ∈ items, f item = .error e := by
  induction items with
  | nil => cases h
  | cons item items ih =>
    rcases bind_eq_error.mp h with hitem | ⟨_, -, hrest⟩
    · exact ⟨item, List.mem_cons_self, hitem⟩
    · obtain ⟨other, hother, herror⟩ := ih hrest
      exact ⟨other, List.mem_cons_of_mem item hother, herror⟩

/-! ## One routine in terms of another -/

universe w

variable {ε' : Type w} {γ δ : Type v}

/-- `x` returns the images of what `y` returns. -/
def ReturnsImage (f : γ → α) (x : Except ε α) (y : Except ε' γ) : Prop :=
  ∀ a, x = .ok a ↔ ∃ c, y = .ok c ∧ f c = a

theorem ReturnsImage.ok (f : γ → α) (c : γ) :
    ReturnsImage f (.ok (f c) : Except ε α) (.ok c : Except ε' γ) := by
  intro a
  simp

theorem ReturnsImage.error (f : γ → α) (e : ε) (e' : ε') :
    ReturnsImage f (.error e) (.error e') := by
  intro a
  simp

theorem ReturnsImage.bind {f : γ → α} {g : δ → β} {x : Except ε α} {y : Except ε' γ}
    {h : α → Except ε β} {k : γ → Except ε' δ} (hx : ReturnsImage f x y)
    (hrest : ∀ c, ReturnsImage g (h (f c)) (k c)) : ReturnsImage g (x >>= h) (y >>= k) := by
  intro b
  rw [bind_eq_ok]
  constructor
  · rintro ⟨a, ha, hb⟩
    obtain ⟨c, hc, rfl⟩ := (hx a).mp ha
    obtain ⟨d, hd, rfl⟩ := (hrest c b).mp hb
    exact ⟨d, bind_eq_ok.mpr ⟨c, hc, hd⟩, rfl⟩
  · rintro ⟨d, hd, rfl⟩
    obtain ⟨c, hc, hd⟩ := bind_eq_ok.mp hd
    exact ⟨f c, (hx _).mpr ⟨c, hc, rfl⟩, (hrest c _).mpr ⟨d, hd, rfl⟩⟩

theorem ReturnsImage.foldlM {emb : γ → β} {f : β → α → Except ε β} {g : γ → α → Except ε' γ}
    {items : List α} (h : ∀ item ∈ items, ∀ c, ReturnsImage emb (f (emb c) item) (g c item)) :
    ∀ c, ReturnsImage emb (items.foldlM f (emb c)) (items.foldlM g c) := by
  induction items with
  | nil => exact fun c => ReturnsImage.ok emb c
  | cons item items ih =>
    intro c
    rw [List.foldlM_cons, List.foldlM_cons]
    refine (h item List.mem_cons_self c).bind fun next => ?_
    exact ih (fun other hother => h other (List.mem_cons_of_mem item hother)) next

end MsysCore
