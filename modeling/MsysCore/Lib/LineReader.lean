import MsysCore.Lib.Except

/-!
# Reading lines one after another

A reader takes lines off the front of a text. It reads a value from some lines when it takes
exactly these, whatever comes after them. Readers in sequence read their lines in sequence, and
a counted loop reads what was written item by item.
-/

namespace MsysCore

/-- What is left of the text is the state. -/
abbrev LineReader (L ε α : Type) := StateT (List L) (Except ε) α

namespace LineReader

variable {L ε α β γ : Type}

def Reads (read : LineReader L ε α) (lines : List L) (a : α) : Prop :=
  ∀ rest, read (lines ++ rest) = .ok (a, rest)

def line (truncated : ε) : LineReader L ε L
  | [] => .error truncated
  | first :: rest => .ok (first, rest)

/-- `count` turns of a loop; each is given what the turns before it have read. -/
def turns (read : List α → LineReader L ε α) : ℕ → List α → LineReader L ε (List α)
  | 0, done => pure done
  | count + 1, done => do
    let a ← read done
    turns read count (done ++ [a])

/-- A loop until the text ends, with `room` turns at most. -/
def untilEnd (full : ε) (read : L → LineReader L ε α) : ℕ → LineReader L ε (List α)
  | _, [] => .ok ([], [])
  | 0, _ :: _ => .error full
  | room + 1, first :: lines => do
    let (a, lines) ← read first lines
    let (items, lines) ← untilEnd full read room lines
    pure (a :: items, lines)

theorem reads_pure (a : α) : Reads (pure a : LineReader L ε α) [] a := fun _ => rfl

theorem reads_line (truncated : ε) (first : L) : Reads (line truncated) [first] first :=
  fun _ => rfl

theorem reads_lift {x : Except ε α} {a : α} (h : x = .ok a) :
    Reads (liftM x : LineReader L ε α) [] a := by
  rw [h]
  exact fun _ => rfl

variable {read : LineReader L ε α} {lines more : List L} {a : α} {b : β}

theorem Reads.bind {f : α → LineReader L ε β} (h : Reads read lines a)
    (hf : Reads (f a) more b) : Reads (read >>= f) (lines ++ more) b := by
  intro rest
  show (read (lines ++ more ++ rest) >>= fun p => f p.1 p.2) = .ok (b, rest)
  rw [List.append_assoc, h]
  exact hf rest

/-- A check between two reads. -/
theorem Reads.of_lift {x : Except ε α} {f : α → LineReader L ε β} (h : x = .ok a)
    (hf : Reads (f a) lines b) : Reads (liftM x >>= f) lines b :=
  (reads_lift h).bind hf

/-- The rest of a reader takes no lines. -/
theorem Reads.last {f : α → LineReader L ε β} (h : Reads read lines a) (hf : Reads (f a) [] b) :
    Reads (read >>= f) lines b := by
  have hbind := h.bind hf
  rwa [List.append_nil] at hbind

theorem reads_turns {read : List α → LineReader L ε α} (write : γ → List L) (value : γ → α)
    (items : List γ) : ∀ done : List γ,
      (∀ before item after, done ++ items = before ++ item :: after →
        Reads (read (before.map value)) (write item) (value item)) →
      Reads (turns read items.length (done.map value)) (items.flatMap write)
        ((done ++ items).map value) := by
  induction items with
  | nil =>
    intro done _
    rw [List.append_nil]
    exact reads_pure _
  | cons item items ih =>
    intro done h
    have hrest := ih (done ++ [item]) (by simpa using h)
    rw [List.map_append, List.append_assoc, List.singleton_append] at hrest
    exact (h done item items rfl).bind hrest

theorem untilEnd_eq {full : ε} {read : L → LineReader L ε α} (first : γ → L)
    (write : γ → List L) (value : γ → α) (items : List γ)
    (h : ∀ item ∈ items, Reads (read (first item)) (write item) (value item)) :
    ∀ room, items.length ≤ room →
      untilEnd full read room (items.flatMap fun item => first item :: write item)
        = .ok (items.map value, []) := by
  induction items with
  | nil =>
    intro room _
    rw [List.flatMap_nil, untilEnd]
    rfl
  | cons item items ih =>
    intro room hroom
    obtain ⟨hitem, hitems⟩ := List.forall_mem_cons.mp h
    obtain ⟨room, rfl⟩ := Nat.exists_eq_succ_of_ne_zero (by
      rw [List.length_cons] at hroom
      omega : room ≠ 0)
    rw [List.flatMap_cons, List.cons_append, untilEnd, hitem]
    show (untilEnd full read room _ >>= _) = _
    rw [ih hitems room (Nat.le_of_succ_le_succ hroom)]
    rfl

/-! ## What a reader yields -/

/-- Whatever the reader returns has the property. -/
def Yields (read : LineReader L ε α) (P : α → Prop) : Prop :=
  ∀ lines a rest, read lines = .ok (a, rest) → P a

variable {P : α → Prop} {Q : β → Prop}

theorem yields_pure {a : α} (h : P a) : Yields (pure a : LineReader L ε α) P := by
  rintro lines _ rest ⟨⟩
  exact h

theorem yields_throw (e : ε) : Yields (throw e : LineReader L ε α) P := by
  rintro lines _ rest ⟨⟩

theorem Yields.bind {f : α → LineReader L ε β} (h : Yields read P)
    (hf : ∀ a, P a → Yields (f a) Q) : Yields (read >>= f) Q := by
  intro lines b rest hread
  obtain ⟨⟨a, middle⟩, hfirst, hrest⟩ := bind_eq_ok.mp hread
  exact hf a (h lines a middle hfirst) middle b rest hrest

theorem yields_bind {f : α → LineReader L ε β} (hf : ∀ a, Yields (f a) Q) :
    Yields (read >>= f) Q := by
  have hany : Yields read fun _ => True := fun _ _ _ _ => trivial
  exact hany.bind fun a _ => hf a

theorem yields_lift {x : Except ε α} {f : α → LineReader L ε β}
    (hf : ∀ a, x = .ok a → Yields (f a) Q) : Yields (liftM x >>= f) Q := by
  intro lines b rest hread
  obtain ⟨⟨a, middle⟩, hfirst, hrest⟩ := bind_eq_ok.mp hread
  cases x with
  | error e => cases hfirst
  | ok value =>
    cases hfirst
    exact hf a rfl lines b rest hrest

theorem yields_last {x : Except ε α} (h : ∀ a, x = .ok a → P a) :
    Yields (liftM x : LineReader L ε α) P := by
  intro lines a rest hread
  cases x with
  | error e => cases hread
  | ok value =>
    cases hread
    exact h a rfl

theorem yields_turns {P : List α → Prop} {read : List α → LineReader L ε α}
    (h : ∀ done, P done → Yields (read done) fun a => P (done ++ [a])) (count : ℕ) :
    ∀ done, P done → Yields (turns read count done) fun items =>
      P items ∧ items.length = done.length + count := by
  induction count with
  | zero => exact fun done hdone => yields_pure ⟨hdone, rfl⟩
  | succ count ih =>
    intro done hdone
    refine (h done hdone).bind fun a ha => ?_
    intro lines items rest hread
    obtain ⟨hitems, hlength⟩ := ih _ ha lines items rest hread
    refine ⟨hitems, ?_⟩
    rw [hlength, List.length_append, List.length_singleton]
    omega

theorem yields_untilEnd {full : ε} {read : L → LineReader L ε α}
    (h : ∀ first, Yields (read first) P) (room : ℕ) :
    Yields (untilEnd full read room) fun items => items.length ≤ room ∧ ∀ item ∈ items, P item := by
  induction room with
  | zero =>
    intro lines items rest hread
    cases lines with
    | nil =>
      cases hread
      exact ⟨Nat.le_refl _, by simp⟩
    | cons first lines => cases hread
  | succ room ih =>
    intro lines items rest hread
    cases lines with
    | nil =>
      cases hread
      exact ⟨Nat.zero_le _, by simp⟩
    | cons first lines =>
      obtain ⟨⟨a, middle⟩, hfirst, hread⟩ := bind_eq_ok.mp hread
      obtain ⟨⟨others, last⟩, hothers, hread⟩ := bind_eq_ok.mp hread
      cases hread
      obtain ⟨hlength, hall⟩ := ih middle others rest hothers
      have hfirst := h first lines a middle hfirst
      exact ⟨Nat.succ_le_succ hlength, List.forall_mem_cons.mpr ⟨hfirst, hall⟩⟩

end LineReader

end MsysCore
