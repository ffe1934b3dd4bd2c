import Mathlib.Data.List.Nodup
import Mathlib.Tactic.Common

/-!
# Records that are read field by field

A reader that goes through named fields keeps a record with a slot for each key it
knows. Read one after another, fields with distinct names fill the record exactly as a
lookup of each key says.
-/

namespace MsysCore.FieldReading

variable {κ ν ω σ : Type}

/-! ## One field after another -/

/-- The states before and after the fields, each of which takes a step. -/
inductive Chain (Step : ν → ω → σ → σ → Prop) : List (ν × ω) → σ → σ → Prop
  | nil {s} : Chain Step [] s s
  | cons {name v fields s t u} : Step name v s t → Chain Step fields t u →
      Chain Step ((name, v) :: fields) s u

variable {Step : ν → ω → σ → σ → Prop} {fields : List (ν × ω)} {s t : σ}

theorem Chain.values (h : Chain Step fields s t) {P : ω → Prop}
    (hstep : ∀ name v s t, Step name v s t → P v) : ∀ field ∈ fields, P field.2 := by
  induction h with
  | nil => exact fun field hfield => absurd hfield List.not_mem_nil
  | cons hfirst _ ih => exact List.forall_mem_cons.mpr ⟨hstep _ _ _ _ hfirst, ih⟩

/-- Steps that leave the state alone. -/
theorem Chain.of_values (h : ∀ field ∈ fields, Step field.1 field.2 s s) :
    Chain Step fields s s := by
  induction fields with
  | nil => exact .nil
  | cons field fields ih =>
    obtain ⟨hfirst, hrest⟩ := List.forall_mem_cons.mp h
    exact .cons hfirst (ih hrest)

/-! ## Slots -/

/-- A record with a slot for each key, and how the fields that the names classify fill it.
Reading a name may leave a note besides. -/
structure Reader (κ ν ω σ : Type) where
  Value : κ → Type
  get : (key : κ) → σ → Value key
  put : (key : κ) → Value key → σ → σ
  note : ν → σ → σ
  Rest : Type
  rest : σ → Rest
  get_put : ∀ key x s, get key (put key x s) = x
  get_put_of_ne : ∀ {key other}, key ≠ other → ∀ x s, get other (put key x s) = get other s
  get_note : ∀ key name s, get key (note name s) = get key s
  rest_put : ∀ key x s, rest (put key x s) = rest s
  rest_note : ∀ name {s t}, rest s = rest t → rest (note name s) = rest (note name t)
  ext : ∀ {s t}, (∀ key, get key s = get key t) → rest s = rest t → s = t
  classify : ν → Option κ
  classify_injective : ∀ {a b key}, classify a = some key → classify b = some key → a = b
  /-- what a value of the key makes of its slot -/
  Reads : (key : κ) → ω → Value key → Value key → Prop
  /-- the values that names of no key may have -/
  Unread : ω → Prop

variable (reader : Reader κ ν ω σ)

/-- A field of a known key fills its slot, any other leaves its note. -/
inductive FieldStep : ν → ω → σ → σ → Prop
  | known {name v s key x} : reader.classify name = some key →
      reader.Reads key v (reader.get key s) x →
      FieldStep name v s (reader.put key x (reader.note name s))
  | unknown {name v s} : reader.classify name = none → reader.Unread v →
      FieldStep name v s (reader.note name s)

/-- The notes of the fields. -/
def noted (fields : List (ν × ω)) (s : σ) : σ :=
  fields.foldl (fun s field => reader.note field.1 s) s

variable {reader}

theorem rest_noted (fields : List (ν × ω)) : ∀ {s t : σ}, reader.rest s = reader.rest t →
    reader.rest (noted reader fields s) = reader.rest (noted reader fields t) := by
  induction fields with
  | nil => exact id
  | cons field fields ih => exact fun h => ih (reader.rest_note field.1 h)

variable [DecidableEq κ] (reader)

/-- The value of the field that has the key. -/
def valueOf (fields : List (ν × ω)) (key : κ) : Option ω :=
  (fields.find? fun field => reader.classify field.1 = some key).map Prod.snd

/-- The record after the fields: each slot as the value of its key says, and as it was where
no field has the key. -/
structure Filled (fields : List (ν × ω)) (s t : σ) : Prop where
  absent : ∀ key, valueOf reader fields key = none → reader.get key t = reader.get key s
  present : ∀ key v, valueOf reader fields key = some v →
    reader.Reads key v (reader.get key s) (reader.get key t)
  unread : ∀ field ∈ fields, reader.classify field.1 = none → reader.Unread field.2
  rest : reader.rest t = reader.rest (noted reader fields s)

variable {reader} {name : ν} {v : ω} {key : κ}

theorem valueOf_cons_self (h : reader.classify name = some key) :
    valueOf reader ((name, v) :: fields) key = some v := by
  simp [valueOf, h]

theorem valueOf_cons_of_ne (h : reader.classify name ≠ some key) :
    valueOf reader ((name, v) :: fields) key = valueOf reader fields key := by
  simp [valueOf, h]

theorem valueOf_eq_none :
    valueOf reader fields key = none ↔ ∀ field ∈ fields, reader.classify field.1 ≠ some key := by
  simp [valueOf]

theorem mem_of_valueOf (h : valueOf reader fields key = some v) :
    ∃ name, (name, v) ∈ fields ∧ reader.classify name = some key := by
  obtain ⟨⟨name, w⟩, hfind, rfl⟩ := Option.map_eq_some_iff.mp h
  exact ⟨name, List.mem_of_find?_eq_some hfind, by simpa using List.find?_some hfind⟩

/-- Fields with other names have no second value for the key. -/
theorem valueOf_tail (hname : reader.classify name = some key)
    (hfresh : name ∉ fields.map Prod.fst) : valueOf reader fields key = none := by
  rw [valueOf_eq_none]
  intro field hfield hkey
  exact hfresh (reader.classify_injective hname hkey ▸ List.mem_map_of_mem hfield)

theorem Filled.nil : Filled reader [] s s where
  absent := fun _ _ => rfl
  present := fun _ _ h => nomatch h
  unread := fun _ hfield => absurd hfield List.not_mem_nil
  rest := rfl

theorem Filled.eq_of_nil (h : Filled reader [] s t) : s = t :=
  (reader.ext (fun key => h.absent key rfl) h.rest).symm

theorem Filled.known {x : reader.Value key} (hname : reader.classify name = some key)
    (hfresh : name ∉ fields.map Prod.fst) (hx : reader.Reads key v (reader.get key s) x)
    (h : Filled reader fields (reader.put key x (reader.note name s)) t) :
    Filled reader ((name, v) :: fields) s t where
  absent := by
    intro other hnone
    have hne : key ≠ other := by
      rintro rfl
      rw [valueOf_cons_self hname] at hnone
      cases hnone
    rw [valueOf_cons_of_ne (by simpa [hname] using hne)] at hnone
    rw [h.absent other hnone, reader.get_put_of_ne hne, reader.get_note]
  present := by
    intro other w hsome
    by_cases hkey : key = other
    · subst hkey
      rw [valueOf_cons_self hname] at hsome
      cases hsome
      rw [h.absent key (valueOf_tail hname hfresh), reader.get_put]
      exact hx
    · rw [valueOf_cons_of_ne (by simpa [hname] using hkey)] at hsome
      have hread := h.present other w hsome
      rwa [reader.get_put_of_ne hkey, reader.get_note] at hread
  unread := by
    rw [List.forall_mem_cons]
    refine ⟨fun hnone => ?_, h.unread⟩
    rw [hname] at hnone
    cases hnone
  rest := h.rest.trans (rest_noted fields (reader.rest_put key x _))

theorem Filled.unknown (hname : reader.classify name = none) (hv : reader.Unread v)
    (h : Filled reader fields (reader.note name s) t) :
    Filled reader ((name, v) :: fields) s t where
  absent := by
    intro key hnone
    rw [valueOf_cons_of_ne (by simp [hname])] at hnone
    rw [h.absent key hnone, reader.get_note]
  present := by
    intro key w hsome
    rw [valueOf_cons_of_ne (by simp [hname])] at hsome
    have hread := h.present key w hsome
    rwa [reader.get_note] at hread
  unread := List.forall_mem_cons.mpr ⟨fun _ => hv, h.unread⟩
  rest := h.rest

theorem Filled.of_known (hname : reader.classify name = some key)
    (hfresh : name ∉ fields.map Prod.fst) (h : Filled reader ((name, v) :: fields) s t) :
    reader.Reads key v (reader.get key s) (reader.get key t) ∧
      Filled reader fields (reader.put key (reader.get key t) (reader.note name s)) t := by
  refine ⟨h.present key v (valueOf_cons_self hname), ?_, ?_, ?_, ?_⟩
  · intro other hnone
    by_cases hkey : key = other
    · subst hkey
      rw [reader.get_put]
    · rw [reader.get_put_of_ne hkey, reader.get_note]
      exact h.absent other (by rwa [valueOf_cons_of_ne (by simpa [hname] using hkey)])
  · intro other w hsome
    have hkey : key ≠ other := by
      rintro rfl
      rw [valueOf_tail hname hfresh] at hsome
      cases hsome
    rw [reader.get_put_of_ne hkey, reader.get_note]
    exact h.present other w (by rwa [valueOf_cons_of_ne (by simpa [hname] using hkey)])
  · exact (List.forall_mem_cons.mp h.unread).2
  · exact h.rest.trans (rest_noted fields (reader.rest_put key _ _).symm)

theorem Filled.of_unknown (hname : reader.classify name = none)
    (h : Filled reader ((name, v) :: fields) s t) :
    reader.Unread v ∧ Filled reader fields (reader.note name s) t := by
  obtain ⟨hv, hunread⟩ := List.forall_mem_cons.mp h.unread
  refine ⟨hv hname, ?_, ?_, hunread, h.rest⟩
  · intro key hnone
    rw [reader.get_note]
    exact h.absent key (by rwa [valueOf_cons_of_ne (by simp [hname])])
  · intro key w hsome
    rw [reader.get_note]
    exact h.present key w (by rwa [valueOf_cons_of_ne (by simp [hname])])

/-- Reading fields with distinct names one after another fills the record. -/
theorem chain_iff_filled (hdistinct : (fields.map Prod.fst).Nodup) :
    Chain (FieldStep reader) fields s t ↔ Filled reader fields s t := by
  induction fields generalizing s with
  | nil =>
    constructor
    · intro h
      cases h
      exact Filled.nil
    · intro h
      rw [h.eq_of_nil]
      exact .nil
  | cons field fields ih =>
    obtain ⟨name, v⟩ := field
    obtain ⟨hfresh, hrest⟩ := List.nodup_cons.mp hdistinct
    constructor
    · intro h
      cases h with
      | cons hstep htail =>
        cases hstep with
        | known hname hx => exact Filled.known hname hfresh hx ((ih hrest).mp htail)
        | unknown hname hv => exact Filled.unknown hname hv ((ih hrest).mp htail)
    · intro h
      cases hname : reader.classify name with
      | none =>
        obtain ⟨hv, htail⟩ := h.of_unknown hname
        exact .cons (.unknown hname hv) ((ih hrest).mpr htail)
      | some key =>
        obtain ⟨hx, htail⟩ := h.of_known hname hfresh
        exact .cons (.known hname hx) ((ih hrest).mpr htail)

end MsysCore.FieldReading
