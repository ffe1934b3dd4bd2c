import Mathlib.Data.Prod.Lex
import MsysCore.Lib.GroupedDict
import MsysCore.Core.ServiceCatalog

/-!
# The order of providers

Roles and services fold the `provides` entries of the components in the same way: for each
name a component counts once, with its highest priority, and is exclusive if one of its
entries is. What is stated here about the fold speaks of the entries only, so that the order
in which they are met cannot matter.
-/

namespace MsysCore.Core.ProviderOrder

open Python
open Manifest (Provide ProvideKind)

/-- The entries of a component for a name. -/
def declarations (components : RoleComponents) (kind : ProvideKind) (name id : PyStr) :
    List Provide :=
  ((OrderedDict.get components id).getD []).filter fun p => p.kind = kind && p.name = name

def Declares (components : RoleComponents) (kind : ProvideKind) (name id : PyStr) : Prop :=
  declarations components kind name id ≠ []

/-- The highest priority that a component declares for a name. -/
def declaredPriority (components : RoleComponents) (kind : ProvideKind) (name id : PyStr) : ℤ :=
  ((declarations components kind name id).map Provide.priority).max?.getD 0

def declaredExclusive (components : RoleComponents) (kind : ProvideKind) (name id : PyStr) :
    Bool :=
  (declarations components kind name id).any Provide.exclusive

/-- Providers with a higher priority come first, then those with a smaller id. -/
def Precedes (components : RoleComponents) (kind : ProvideKind) (name a b : PyStr) : Prop :=
  declaredPriority components kind name b < declaredPriority components kind name a ∨
    (declaredPriority components kind name a = declaredPriority components kind name b ∧ a < b)

/-- The same components, met in another order and with other orders of their entries. -/
structure Reordered (components reordered : RoleComponents) : Prop where
  ids : (components.map Prod.fst).Perm (reordered.map Prod.fst)
  provides : ∀ id, ((OrderedDict.get components id).getD []).Perm
    ((OrderedDict.get reordered id).getD [])

/-! ## Entries in another order -/

section

variable {components reordered : RoleComponents} (h : Reordered components reordered)
  (kind : ProvideKind) (name : PyStr)

include h

theorem Reordered.declarations (id : PyStr) :
    (declarations components kind name id).Perm (declarations reordered kind name id) :=
  (h.provides id).filter _

theorem Reordered.declares (id : PyStr) :
    Declares components kind name id ↔ Declares reordered kind name id :=
  not_congr (by rw [← List.length_eq_zero_iff, (h.declarations kind name id).length_eq,
    List.length_eq_zero_iff])

theorem Reordered.priority (id : PyStr) :
    declaredPriority components kind name id = declaredPriority reordered kind name id := by
  have hperm := (h.declarations kind name id).map Provide.priority
  rw [declaredPriority, declaredPriority]
  congr 1
  ext priority
  rw [List.max?_eq_some_iff, List.max?_eq_some_iff]
  simp only [hperm.mem_iff]

theorem Reordered.exclusive (id : PyStr) :
    declaredExclusive components kind name id = declaredExclusive reordered kind name id :=
  (h.declarations kind name id).any_eq

theorem Reordered.installed (id : PyStr) :
    (OrderedDict.get components id).isSome = (OrderedDict.get reordered id).isSome := by
  rw [Bool.eq_iff_iff, Option.isSome_iff_ne_none, Option.isSome_iff_ne_none, Ne, Ne,
    OrderedDict.get_eq_none_iff, OrderedDict.get_eq_none_iff, h.ids.mem_iff]

end

/-! ## What the folds find -/

/-- What the fold keeps for a component: nothing, or its highest priority and whether one of its
entries is exclusive. -/
def declared (components : RoleComponents) (kind : ProvideKind) (name id : PyStr) :
    Option (ℤ × Bool) :=
  if declarations components kind name id = [] then none
  else some (declaredPriority components kind name id, declaredExclusive components kind name id)

theorem declared_isSome {components : RoleComponents} {kind : ProvideKind} {name id : PyStr} :
    (declared components kind name id).isSome ↔ Declares components kind name id := by
  unfold declared Declares
  split_ifs with h <;> simp [h]

/-- The merge of two entries of `declared` in `_build_roles`. -/
def mergeDeclared (previous entry : ℤ × Bool) : ℤ × Bool :=
  (max previous.1 entry.1, previous.2 || entry.2)

theorem combine_declared (components : RoleComponents) (kind : ProvideKind) (name id : PyStr) :
    GroupedDict.combine mergeDeclared
        ((declarations components kind name id).map fun p => (p.priority, p.exclusive)) =
      declared components kind name id := by
  unfold declared declaredPriority declaredExclusive
  cases declarations components kind name id with
  | nil => rfl
  | cons p ps =>
    have hfold := GroupedDict.foldl_max_or Provide.priority Provide.exclusive ps
      (p.priority, p.exclusive)
    rw [if_neg (List.cons_ne_nil p ps)]
    exact congrArg some hfold

/-- Where a `provides` entry goes in the fold of the roles. -/
def roleEntry (disabled : List PyStr) (_ : PyStr) (p : Provide) : Option (PyStr × (ℤ × Bool)) :=
  if p.kind ≠ .role ∨ p.name ∈ disabled then none else some (p.name, (p.priority, p.exclusive))

theorem declaredRoles_eq_collect (components : RoleComponents) (disabled : List PyStr) :
    RoleRegistry.declaredRoles components disabled =
      GroupedDict.collect mergeDeclared (roleEntry disabled) components := by
  have hitem : ∀ id, RoleRegistry.declareProvide disabled id =
      GroupedDict.addItem mergeDeclared (roleEntry disabled) id := by
    intro id
    funext declared p
    unfold RoleRegistry.declareProvide GroupedDict.addItem roleEntry
    split_ifs
    · rfl
    · cases hprevious : OrderedDict.get ((OrderedDict.get declared p.name).getD []) id <;>
        simp [hprevious, GroupedDict.add, mergeDeclared]
  unfold RoleRegistry.declaredRoles GroupedDict.collect
  simp only [hitem]

theorem values_roleEntry {disabled : List PyStr} {role : PyStr} (hrole : role ∉ disabled)
    (components : RoleComponents) (id : PyStr) :
    GroupedDict.values (roleEntry disabled) role id ((OrderedDict.get components id).getD []) =
      (declarations components .role role id).map fun p => (p.priority, p.exclusive) := by
  rw [declarations, GroupedDict.values, ← List.filterMap_eq_map, List.filterMap_filter]
  refine List.filterMap_congr fun p _ => ?_
  by_cases hname : p.name = role
  · by_cases hkind : p.kind = .role <;> simp [roleEntry, hname, hkind, hrole]
  · by_cases hother : p.kind ≠ .role ∨ p.name ∈ disabled <;> simp [roleEntry, hname, hother]

/-- The `metadata` of a role. -/
def metadata (components : RoleComponents) (disabled : List PyStr) (role : PyStr) :
    List (PyStr × (ℤ × Bool)) :=
  (OrderedDict.get (RoleRegistry.declaredRoles components disabled) role).getD []

section

variable {components : RoleComponents} (hids : (components.map Prod.fst).Nodup)
  {disabled : List PyStr} {role : PyStr}

theorem nodup_metadata : ((metadata components disabled role).map Prod.fst).Nodup := by
  rw [metadata, declaredRoles_eq_collect]
  exact (GroupedDict.distinct_collect mergeDeclared (roleEntry disabled) components).members role

include hids

theorem get_metadata (hrole : role ∉ disabled) (id : PyStr) :
    OrderedDict.get (metadata components disabled role) id = declared components .role role id := by
  rw [metadata, declaredRoles_eq_collect, ← combine_declared, ← values_roleEntry hrole]
  exact GroupedDict.lookup_collect mergeDeclared (roleEntry disabled) hids role id

theorem mem_declaredRoles (hrole : role ∉ disabled) :
    role ∈ (RoleRegistry.declaredRoles components disabled).map Prod.fst ↔
      ∃ id, Declares components .role role id := by
  rw [declaredRoles_eq_collect, GroupedDict.mem_groups_collect mergeDeclared _ hids]
  refine exists_congr fun id => ?_
  rw [values_roleEntry hrole, Declares, Ne, List.map_eq_nil_iff]

theorem mem_metadata (hrole : role ∉ disabled) {entry : PyStr × (ℤ × Bool)} :
    entry ∈ metadata components disabled role ↔
      declared components .role role entry.1 = some entry.2 := by
  rw [← get_metadata hids hrole, OrderedDict.get_eq_some_iff nodup_metadata]

end

/-! ## Sorting by priority and id -/

section

variable {components : RoleComponents} {kind : ProvideKind} {name : PyStr}

theorem Precedes.irrefl (id : PyStr) : ¬Precedes components kind name id id := by
  rintro (h | ⟨-, h⟩)
  · exact lt_irrefl _ h
  · exact lt_irrefl _ h

theorem Precedes.asymm {a b : PyStr} (hab : Precedes components kind name a b) :
    ¬Precedes components kind name b a := by
  rintro (hba | ⟨heq, hba⟩)
  · rcases hab with hab | ⟨heq, -⟩
    · exact lt_asymm hab hba
    · exact hba.ne heq
  · rcases hab with hab | ⟨-, hab⟩
    · exact hab.ne heq
    · exact lt_asymm hab hba

/-- Only one list has given members in this order. -/
theorem eq_of_precedes {l l' : List PyStr} (hl : l.Pairwise (Precedes components kind name))
    (hl' : l'.Pairwise (Precedes components kind name)) (hmem : ∀ id, id ∈ l ↔ id ∈ l') :
    l = l' := by
  have : Std.Irrefl (Precedes components kind name) := ⟨Precedes.irrefl⟩
  have : Std.Antisymm (Precedes components kind name) := ⟨fun _ _ h h' => absurd h' h.asymm⟩
  exact hl.eq_of_mem_iff hl' hmem

/-- The sort of both catalogs, by a priority that is the declared one. -/
theorem pairwise_sorted {α : Type} (priority : α → ℤ) (key : α → PyStr) {items : List α}
    (hkeys : (items.map key).Nodup)
    (hpriority : ∀ a ∈ items, priority a = declaredPriority components kind name (key a)) :
    ((items.insertionSort fun a b => priority b < priority a ∨
      (priority a = priority b ∧ key a ≤ key b)).map key).Pairwise
        (Precedes components kind name) := by
  let before (a b : α) : Prop := priority b < priority a ∨ (priority a = priority b ∧ key a ≤ key b)
  have htotal : Std.Total before := ⟨fun a b => by
    rcases lt_trichotomy (priority a) (priority b) with h | h | h
    · exact .inr (.inl h)
    · exact (le_total (key a) (key b)).imp (fun hle => .inr ⟨h, hle⟩) fun hle => .inr ⟨h.symm, hle⟩
    · exact .inl (.inl h)⟩
  have htrans : IsTrans α before := ⟨fun a b c hab hbc => by
    rcases hab with hab | ⟨hab, hle⟩
    · rcases hbc with hbc | ⟨hbc, -⟩
      · exact .inl (hbc.trans hab)
      · exact .inl (hbc ▸ hab)
    · rcases hbc with hbc | ⟨hbc, hle'⟩
      · exact .inl (hab ▸ hbc)
      · exact .inr ⟨hab.trans hbc, hle.trans hle'⟩⟩
  have hsorted := List.pairwise_insertionSort before items
  have hperm := List.perm_insertionSort before items
  have hdistinct : (items.insertionSort before).Pairwise fun a b => key a ≠ key b :=
    List.pairwise_map.mp ((hperm.map key).nodup_iff.mpr hkeys)
  refine List.pairwise_map.mpr ((hsorted.and hdistinct).imp_of_mem ?_)
  intro a b ha hb hab
  unfold Precedes
  rw [← hpriority a (hperm.mem_iff.mp ha), ← hpriority b (hperm.mem_iff.mp hb)]
  obtain ⟨h | ⟨heq, hle⟩, hne⟩ := hab
  · exact .inl h
  · exact .inr ⟨heq, lt_of_le_of_ne hle hne⟩

end

theorem Reordered.precedes {components reordered : RoleComponents}
    (h : Reordered components reordered) (kind : ProvideKind) (name a b : PyStr) :
    Precedes components kind name a b ↔ Precedes reordered kind name a b := by
  unfold Precedes
  rw [h.priority kind name a, h.priority kind name b]

/-! ## The candidates of a role -/

/-- What a state of a role has to be for the ids that the profile lists: these as far as they are
installed, each where it is listed first, and then the other components that declare the role. -/
structure Ordered (components : RoleComponents) (role : PyStr) (listed : List PyStr)
    (state : RoleState) : Prop where
  nodup : state.candidates.Nodup
  order : ∃ rest, state.candidates =
      (listed.filter fun id => (OrderedDict.get components id).isSome).eraseDups ++ rest ∧
    rest.Pairwise (Precedes components .role role) ∧
    ∀ id, id ∈ rest ↔ Declares components .role role id ∧ id ∉ listed
  exclusive : state.exclusive = true ↔ ∃ id ∈ state.candidates,
    ¬Declares components .role role id ∨ declaredExclusive components .role role id = true

theorem Ordered.unique {components : RoleComponents} {role : PyStr} {listed : List PyStr}
    {state other : RoleState} (h : Ordered components role listed state)
    (h' : Ordered components role listed other) : state = other := by
  obtain ⟨rest, hstate, hrest, hmem⟩ := h.order
  obtain ⟨rest', hother, hrest', hmem'⟩ := h'.order
  have hsame : rest = rest' := eq_of_precedes hrest hrest' fun id => by rw [hmem, hmem']
  have hcandidates : state.candidates = other.candidates := by rw [hstate, hother, hsame]
  have hexclusive : state.exclusive = other.exclusive := by
    rw [Bool.eq_iff_iff, h.exclusive, h'.exclusive, hcandidates]
  cases state
  cases other
  exact (RoleState.mk.injEq ..).mpr ⟨hcandidates, hexclusive⟩

theorem Ordered.reordered {components reordered : RoleComponents} {role : PyStr}
    {listed : List PyStr} {state : RoleState} (h : Reordered components reordered)
    (hstate : Ordered components role listed state) : Ordered reordered role listed state where
  nodup := hstate.nodup
  order := by
    obtain ⟨rest, heq, hrest, hmem⟩ := hstate.order
    refine ⟨rest, ?_, hrest.imp fun hab => (h.precedes .role role _ _).mp hab, fun id => ?_⟩
    · simp only [heq, h.installed]
    · rw [hmem, h.declares]
  exclusive := by
    rw [hstate.exclusive]
    simp only [h.declares .role role, h.exclusive .role role]

theorem explicitCandidates_ids (components : RoleComponents)
    (metadata : List (PyStr × (ℤ × Bool))) (role : PyStr) (ids : List PyStr) :
    ∀ (rank : ℕ) (seen : List PyStr),
      (RoleRegistry.explicitCandidates components metadata role rank seen ids).map
          RoleCandidate.providerId =
        (ids.filter fun id => id ∉ seen && (OrderedDict.get components id).isSome).eraseDups := by
  induction ids with
  | nil => exact fun _ _ => rfl
  | cons id ids ih =>
    intro rank seen
    rw [RoleRegistry.explicitCandidates]
    by_cases hskip : id ∈ seen ∨ (OrderedDict.get components id).isNone = true
    · have hdrop : ¬(id ∉ seen ∧ (OrderedDict.get components id).isSome = true) := by
        rcases hskip with h | h
        · simp [h]
        · simp [Option.isNone_iff_eq_none.mp h]
      rw [if_pos hskip, ih, List.filter_cons_of_neg (by simpa using hdrop)]
    · have hkeep : id ∉ seen ∧ (OrderedDict.get components id).isSome = true := by
        simpa [Option.isSome_iff_ne_none] using hskip
      rw [if_neg hskip, List.map_cons, ih, List.filter_cons_of_pos (by simpa using hkeep),
        List.eraseDups_cons, List.filter_filter]
      congr 3
      funext other
      by_cases hother : other = id <;> simp [hother]

theorem explicitCandidates_exclusive {components : RoleComponents}
    {metadata : List (PyStr × (ℤ × Bool))} {role : PyStr} {ids : List PyStr} :
    ∀ {rank : ℕ} {seen : List PyStr},
      ∀ c ∈ RoleRegistry.explicitCandidates components metadata role rank seen ids,
        c.exclusive = ((OrderedDict.get metadata c.providerId).map Prod.snd).getD true := by
  induction ids with
  | nil =>
    intro rank seen c hc
    cases hc
  | cons id ids ih =>
    intro rank seen c hc
    rw [RoleRegistry.explicitCandidates] at hc
    split_ifs at hc
    · exact ih c hc
    · rcases List.mem_cons.mp hc with rfl | hc
      · rfl
      · exact ih c hc

theorem remainingCandidates_exclusive {components : RoleComponents} {disabled seen : List PyStr}
    {role : PyStr} {c : RoleCandidate}
    (hc : c ∈ RoleRegistry.remainingCandidates (metadata components disabled role) role seen) :
    c.exclusive =
      ((OrderedDict.get (metadata components disabled role) c.providerId).map
        Prod.snd).getD true := by
  obtain ⟨entry, hentry, rfl⟩ := List.mem_map.mp hc
  have hmem := (List.mem_filter.mp ((List.mem_insertionSort _).mp hentry)).1
  rw [(OrderedDict.get_eq_some_iff nodup_metadata).mpr hmem]
  rfl

section

variable {components : RoleComponents} (hids : (components.map Prod.fst).Nodup)
  {disabled : List PyStr} {role : PyStr} (hrole : role ∉ disabled)

include hids hrole

theorem remainingCandidates_order (seen : List PyStr) :
    let rest := (RoleRegistry.remainingCandidates (metadata components disabled role) role seen).map
      RoleCandidate.providerId
    rest.Pairwise (Precedes components .role role) ∧
      ∀ id, id ∈ rest ↔ Declares components .role role id ∧ id ∉ seen := by
  let remaining := (metadata components disabled role).filter fun entry => entry.1 ∉ seen
  have hkeys : (remaining.map Prod.fst).Nodup :=
    nodup_metadata.sublist (List.filter_sublist.map Prod.fst)
  have hpriority : ∀ entry ∈ remaining,
      entry.2.1 = declaredPriority components .role role entry.1 := by
    intro entry hentry
    have hget := (mem_metadata hids hrole).mp (List.mem_filter.mp hentry).1
    unfold declared at hget
    split_ifs at hget
    rw [← Option.some.inj hget]
  have hids' : (RoleRegistry.remainingCandidates (metadata components disabled role) role seen).map
      RoleCandidate.providerId = (remaining.insertionSort fun a b =>
        b.2.1 < a.2.1 ∨ (a.2.1 = b.2.1 ∧ a.1 ≤ b.1)).map Prod.fst := by
    rw [RoleRegistry.remainingCandidates, List.map_map]
    rfl
  intro rest
  refine ⟨?_, fun id => ?_⟩
  · change ((RoleRegistry.remainingCandidates _ role seen).map _).Pairwise _
    rw [hids']
    exact pairwise_sorted (fun entry => entry.2.1) Prod.fst hkeys hpriority
  · change id ∈ (RoleRegistry.remainingCandidates _ role seen).map _ ↔ _
    rw [hids', ((List.perm_insertionSort _ remaining).map Prod.fst).mem_iff, List.mem_map]
    constructor
    · rintro ⟨entry, hentry, rfl⟩
      obtain ⟨hmem, hseen⟩ := List.mem_filter.mp hentry
      refine ⟨declared_isSome.mp ?_, by simpa using hseen⟩
      rw [(mem_metadata hids hrole).mp hmem]
      rfl
    · rintro ⟨hdeclares, hseen⟩
      obtain ⟨value, hvalue⟩ := Option.isSome_iff_exists.mp (declared_isSome.mpr hdeclares)
      exact ⟨(id, value), List.mem_filter.mpr
        ⟨(mem_metadata hids hrole).mpr hvalue, by simpa using hseen⟩, rfl⟩

theorem roleCandidates_ordered (listed : List PyStr) :
    Ordered components role listed (RoleRegistry.roleState (RoleRegistry.roleCandidates components
      (RoleRegistry.declaredRoles components disabled) role listed)) := by
  let explicit := RoleRegistry.explicitCandidates components (metadata components disabled role)
    role 0 [] listed
  let rest := RoleRegistry.remainingCandidates (metadata components disabled role) role
    (explicit.map RoleCandidate.providerId)
  have hcandidates : RoleRegistry.roleCandidates components
      (RoleRegistry.declaredRoles components disabled) role listed = explicit ++ rest := rfl
  have hexplicit : explicit.map RoleCandidate.providerId =
      (listed.filter fun id => (OrderedDict.get components id).isSome).eraseDups := by
    simpa using
      explicitCandidates_ids components (metadata components disabled role) role listed 0 []
  obtain ⟨hrest, hmem⟩ := remainingCandidates_order hids hrole
    (explicit.map RoleCandidate.providerId)
  have hexclusive : ∀ c ∈ explicit ++ rest, c.exclusive = true ↔
      ¬Declares components .role role c.providerId ∨
        declaredExclusive components .role role c.providerId = true := by
    intro c hc
    have hc' : c.exclusive = ((declared components .role role c.providerId).map
        Prod.snd).getD true := by
      rw [← get_metadata hids hrole]
      rcases List.mem_append.mp hc with hc | hc
      · exact explicitCandidates_exclusive c hc
      · exact remainingCandidates_exclusive hc
    rw [hc', declared, Declares]
    split_ifs with h <;> simp [h]
  rw [hcandidates]
  refine ⟨?_, ?_, ?_⟩
  · rw [RoleRegistry.roleState, List.map_append, List.nodup_append, hexplicit]
    refine ⟨GroupedDict.nodup_eraseDups _, hrest.imp ?_, ?_⟩
    · rintro a b hab rfl
      exact Precedes.irrefl a hab
    intro a ha b hb heq
    rw [← hexplicit, heq] at ha
    exact ((hmem b).mp hb).2 ha
  · refine ⟨rest.map RoleCandidate.providerId, ?_, hrest, fun id => ?_⟩
    · rw [RoleRegistry.roleState, List.map_append, hexplicit]
    · rw [hmem, hexplicit, List.mem_eraseDups, List.mem_filter]
      refine and_congr_right fun hdeclares => not_congr (and_iff_left ?_)
      rw [Option.isSome_iff_ne_none]
      intro habsent
      exact hdeclares (by rw [declarations, habsent]; rfl)
  · rw [RoleRegistry.roleState, List.any_eq_true]
    simp only [List.mem_map, exists_exists_and_eq_and]
    exact exists_congr fun c => and_congr_right fun hc => hexclusive c hc

end

/-! ## The roles of a registry -/

/-- A dictionary that is filled name by name. -/
theorem foldlM_set {ε κ α β : Type} [DecidableEq κ] {value : κ → Except ε β} {entry : κ → β → α}
    {names : List κ} : ∀ {d result : List (κ × α)},
      names.foldlM (fun d name => do
        let b ← value name
        pure (OrderedDict.set d name (entry name b))) d = .ok result →
      ∀ name, (name ∈ names → ∃ b, value name = .ok b ∧
          OrderedDict.get result name = some (entry name b)) ∧
        (name ∉ names → OrderedDict.get result name = OrderedDict.get d name) := by
  induction names with
  | nil =>
    intro d result h name
    cases h
    simp
  | cons first names ih =>
    intro d result h name
    rw [List.foldlM_cons] at h
    obtain ⟨next, hnext, h⟩ := bind_eq_ok.mp h
    obtain ⟨b, hb, hset⟩ := bind_eq_ok.mp hnext
    cases hset
    obtain ⟨hin, hout⟩ := ih h name
    by_cases hrest : name ∈ names
    · simp [hrest, hin hrest]
    · by_cases hfirst : name = first
      · subst hfirst
        simp [hb, hout hrest]
      · simp [hrest, hfirst, hout hrest, OrderedDict.get_set]

theorem foldlM_congr {ε α β : Type} {f g : β → α → Except ε β} {items : List α}
    (h : ∀ item ∈ items, ∀ b, f b item = g b item) : ∀ b, items.foldlM f b = items.foldlM g b := by
  induction items with
  | nil => exact fun _ => rfl
  | cons item items ih =>
    intro b
    rw [List.foldlM_cons, List.foldlM_cons, h item (by simp)]
    exact bind_congr (ih fun other hother => h other (List.mem_cons_of_mem _ hother))

section

variable {py : Interpreter} {components : RoleComponents} {profileRoles : Dict}
  {disabled : List PyStr}

theorem mem_roleNames {declared : DeclaredRoles} {role : PyStr} :
    role ∈ RoleRegistry.roleNames py profileRoles declared disabled ↔
      role ∈ (profileRoles.map fun entry => toStr py entry.1) ∧ role ∉ disabled ∨
        role ∈ declared.map Prod.fst := by
  simp only [RoleRegistry.roleNames, List.mem_append, List.mem_insertionSort, List.mem_filter,
    decide_eq_true_eq]
  tauto

theorem not_mem_disabled {role : PyStr} (hids : (components.map Prod.fst).Nodup)
    (h : role ∈ (RoleRegistry.declaredRoles components disabled).map Prod.fst) :
    role ∉ disabled := by
  rw [declaredRoles_eq_collect, GroupedDict.mem_groups_collect mergeDeclared _ hids] at h
  obtain ⟨id, hvalues⟩ := h
  intro hdisabled
  refine hvalues (List.filterMap_eq_nil_iff.mpr fun p _ => ?_)
  by_cases hentry : p.kind ≠ .role ∨ p.name ∈ disabled
  · simp [roleEntry, hentry]
  · have hname : p.name ≠ role := fun heq => hentry (.inr (heq ▸ hdisabled))
    simp [roleEntry, hentry, hname]

/-- The names are those of the profile and those some component declares, without the disabled
ones. -/
theorem mem_enabled (hids : (components.map Prod.fst).Nodup) {role : PyStr} :
    role ∈ RoleRegistry.roleNames py profileRoles
        (RoleRegistry.declaredRoles components disabled) disabled ↔
      role ∉ disabled ∧ (role ∈ (profileRoles.map fun entry => toStr py entry.1) ∨
        ∃ id, Declares components .role role id) := by
  rw [mem_roleNames]
  by_cases hrole : role ∈ disabled
  · have habsent : role ∉ (RoleRegistry.declaredRoles components disabled).map Prod.fst :=
      fun h => not_mem_disabled hids h hrole
    simp only [hrole, habsent, not_true_eq_false, and_false, false_and, or_self]
  · rw [mem_declaredRoles hids hrole]
    simp only [hrole, not_false_eq_true, and_true, true_and]

theorem get_buildRoles (hids : (components.map Prod.fst).Nodup)
    {roles : List (PyStr × RoleState)}
    (h : RoleRegistry.buildRoles py components profileRoles disabled = .ok roles) (role : PyStr) :
    (role ∈ roles.map Prod.fst ↔ role ∉ disabled ∧
      (role ∈ (profileRoles.map fun entry => toStr py entry.1) ∨
        ∃ id, Declares components .role role id)) ∧
    ∀ state, OrderedDict.get roles role = some state → ∃ listed,
      RoleRegistry.profileCandidateIds py (RoleRegistry.profileValue profileRoles role) =
          .ok listed ∧ Ordered components role listed state := by
  obtain ⟨hin, hout⟩ := foldlM_set h role
  rw [← @mem_enabled py components profileRoles disabled hids role]
  by_cases hrole : role ∈ RoleRegistry.roleNames py profileRoles
      (RoleRegistry.declaredRoles components disabled) disabled
  · obtain ⟨listed, hlisted, hget⟩ := hin hrole
    refine ⟨iff_of_true (OrderedDict.mem_keys_of_get hget) hrole, fun state hstate => ?_⟩
    rw [hget] at hstate
    cases hstate
    exact ⟨listed, hlisted, roleCandidates_ordered hids ((mem_enabled hids).mp hrole).1 listed⟩
  · have hnone : OrderedDict.get roles role = none := hout hrole
    refine ⟨iff_of_false (OrderedDict.get_eq_none_iff.mp hnone) hrole, fun state hstate => ?_⟩
    rw [hnone] at hstate
    cases hstate

end

theorem sorted_unique {l l' : List PyStr} (hperm : l.Perm l') :
    l.insertionSort (· ≤ ·) = l'.insertionSort (· ≤ ·) := by
  have hboth := ((List.perm_insertionSort (· ≤ ·) l).trans hperm).trans
    (List.perm_insertionSort (· ≤ ·) l').symm
  exact hboth.eq_of_pairwise' (List.pairwise_insertionSort _ l) (List.pairwise_insertionSort _ l')

/-- A registry does not depend on the order in which components and entries are met. -/
theorem fromProfile_reordered (py : Interpreter) {components reordered : RoleComponents}
    (hids : (components.map Prod.fst).Nodup) (h : Reordered components reordered)
    (profile : Dict) :
    RoleRegistry.fromProfile py reordered profile =
      RoleRegistry.fromProfile py components profile := by
  have hids' : (reordered.map Prod.fst).Nodup := h.ids.nodup_iff.mp hids
  have hbuild : ∀ (profileRoles : Dict) (disabled : List PyStr),
      RoleRegistry.buildRoles py reordered profileRoles disabled =
        RoleRegistry.buildRoles py components profileRoles disabled := by
    intro profileRoles disabled
    have hdeclared : ((RoleRegistry.declaredRoles reordered disabled).map Prod.fst).Perm
        ((RoleRegistry.declaredRoles components disabled).map Prod.fst) := by
      rw [List.perm_ext_iff_of_nodup]
      · intro role
        by_cases hrole : role ∈ disabled
        · exact iff_of_false (fun hmem => not_mem_disabled hids' hmem hrole)
            fun hmem => not_mem_disabled hids hmem hrole
        · rw [mem_declaredRoles hids' hrole, mem_declaredRoles hids hrole]
          exact exists_congr fun id => (h.declares .role role id).symm
      · rw [declaredRoles_eq_collect]
        exact (GroupedDict.distinct_collect _ _ _).groups
      · rw [declaredRoles_eq_collect]
        exact (GroupedDict.distinct_collect _ _ _).groups
    have hnames : RoleRegistry.roleNames py profileRoles
          (RoleRegistry.declaredRoles reordered disabled) disabled =
        RoleRegistry.roleNames py profileRoles
          (RoleRegistry.declaredRoles components disabled) disabled := by
      unfold RoleRegistry.roleNames
      exact congrArg _ (sorted_unique (hdeclared.filter _))
    have hstate : ∀ role ∈ RoleRegistry.roleNames py profileRoles
        (RoleRegistry.declaredRoles components disabled) disabled, ∀ listed,
        RoleRegistry.roleState (RoleRegistry.roleCandidates reordered
          (RoleRegistry.declaredRoles reordered disabled) role listed) =
        RoleRegistry.roleState (RoleRegistry.roleCandidates components
          (RoleRegistry.declaredRoles components disabled) role listed) := by
      intro role hrole listed
      have henabled := ((mem_enabled hids).mp hrole).1
      exact (roleCandidates_ordered hids' henabled listed).unique
        ((roleCandidates_ordered hids henabled listed).reordered h)
    unfold RoleRegistry.buildRoles
    simp only [hnames]
    refine foldlM_congr (fun role hrole result => ?_) []
    simp only [hstate role hrole]
  unfold RoleRegistry.fromProfile
  simp only [hbuild]

/-! ## The providers of a service -/

/-- Where a `provides` entry goes in the fold of the services. -/
def serviceEntry (id : PyStr) (p : Provide) : Option ((PyStr × PyStr) × ServiceProvider) :=
  if p.kind.text ∉ serviceKinds then none
  else some ((p.kind.text, p.name), ⟨p.kind.text, p.name, id, p.priority, p.exclusive⟩)

def mergeService (previous candidate : ServiceProvider) : ServiceProvider :=
  { candidate with
    priority := max previous.priority candidate.priority
    exclusive := previous.exclusive || candidate.exclusive }

theorem foldComponents_eq_collect (components : RoleComponents) :
    ServiceCatalog.foldComponents components =
      GroupedDict.collect mergeService serviceEntry components := by
  have hitem : ∀ id, ServiceCatalog.foldProvide id =
      GroupedDict.addItem mergeService serviceEntry id := by
    intro id
    funext folded p
    unfold ServiceCatalog.foldProvide GroupedDict.addItem serviceEntry
    split_ifs
    · cases hprevious : OrderedDict.get
          ((OrderedDict.get folded (p.kind.text, p.name)).getD []) id <;>
        simp [hprevious, GroupedDict.add, mergeService]
    · rfl
  unfold ServiceCatalog.foldComponents GroupedDict.collect
  simp only [hitem]

theorem text_injective {kind other : ProvideKind} (h : kind.text = other.text) : kind = other := by
  cases kind <;> cases other <;> first | rfl | exact absurd h (by decide)

theorem text_mem_serviceKinds {kind : ProvideKind} : kind.text ∈ serviceKinds ↔ kind ≠ .role := by
  cases kind <;> decide

/-- The entry of a component in the catalog. -/
def provider (components : RoleComponents) (kind : ProvideKind) (name id : PyStr) :
    ServiceProvider where
  kind := kind.text
  name := name
  component := id
  priority := declaredPriority components kind name id
  exclusive := declaredExclusive components kind name id

theorem get_build (components : RoleComponents) (key : PyStr × PyStr) :
    OrderedDict.get (ServiceCatalog.build components) key =
      (OrderedDict.get (ServiceCatalog.foldComponents components) key).map
        ServiceCatalog.sortProviders :=
  GroupedDict.get_mapValues _ _ key

section

variable {components : RoleComponents} {kind : ProvideKind} (hkind : kind ≠ .role) (name : PyStr)

include hkind

theorem values_serviceEntry (id : PyStr) :
    GroupedDict.values serviceEntry (kind.text, name) id ((OrderedDict.get components id).getD []) =
      ((declarations components kind name id).map fun p => (p.priority, p.exclusive)).map
        fun value => ⟨kind.text, name, id, value.1, value.2⟩ := by
  rw [declarations, GroupedDict.values, List.map_map, ← List.filterMap_eq_map,
    List.filterMap_filter]
  refine List.filterMap_congr fun p _ => ?_
  by_cases hsame : p.kind = kind
  · have hservice : kind.text ∈ serviceKinds := text_mem_serviceKinds.mpr hkind
    by_cases hname : p.name = name <;> simp [serviceEntry, hservice, hsame, hname]
  · have htext : p.kind.text ≠ kind.text := fun h => hsame (text_injective h)
    by_cases hservice : p.kind.text ∈ serviceKinds <;> simp [serviceEntry, hservice, hsame, htext]

variable (hids : (components.map Prod.fst).Nodup)

include hids

theorem lookup_services (id : PyStr) :
    GroupedDict.lookup (ServiceCatalog.foldComponents components) (kind.text, name) id =
      (declared components kind name id).map
        fun value => ⟨kind.text, name, id, value.1, value.2⟩ := by
  rw [foldComponents_eq_collect, GroupedDict.lookup_collect mergeService serviceEntry hids,
    values_serviceEntry hkind, GroupedDict.combine_map mergeDeclared mergeService,
    combine_declared]
  exact fun a b => rfl

theorem mem_services :
    (kind.text, name) ∈ (ServiceCatalog.foldComponents components).map Prod.fst ↔
      ∃ id, Declares components kind name id := by
  rw [foldComponents_eq_collect, GroupedDict.mem_groups_collect mergeService _ hids]
  refine exists_congr fun id => ?_
  rw [values_serviceEntry hkind, Declares, Ne, List.map_eq_nil_iff, List.map_eq_nil_iff]

/-- The providers of a service that some component declares. -/
theorem providers_declared (hdeclared : ∃ id, Declares components kind name id) :
    ∃ ids : List PyStr, (ServiceCatalog.build components).providers kind.text name =
        .ok (ids.map (provider components kind name)) ∧
      ids.Pairwise (Precedes components kind name) ∧
      ∀ id, id ∈ ids ↔ Declares components kind name id := by
  obtain ⟨members, hmembers⟩ :=
    OrderedDict.exists_get_of_mem_keys ((mem_services hkind name hids).mpr hdeclared)
  have hnodup : (members.map Prod.fst).Nodup := by
    have hdistinct := GroupedDict.distinct_collect mergeService serviceEntry components
    rw [← foldComponents_eq_collect] at hdistinct
    simpa [hmembers] using hdistinct.members (kind.text, name)
  have hmem : ∀ id found, (id, found) ∈ members ↔
      Declares components kind name id ∧ found = provider components kind name id := by
    intro id found
    have hlookup := lookup_services hkind name hids id
    rw [GroupedDict.lookup, hmembers, Option.getD_some] at hlookup
    rw [← OrderedDict.get_eq_some_iff hnodup, hlookup, declared, Declares]
    split_ifs with h
    · simp [h]
    · simp [h, provider, eq_comm]
  have hvalues : ∀ found ∈ members.map Prod.snd,
      found = provider components kind name found.component := by
    intro found hfound
    obtain ⟨⟨id, value⟩, hentry, rfl⟩ := List.mem_map.mp hfound
    obtain ⟨-, hvalue⟩ := (hmem id value).mp hentry
    simp [hvalue, provider]
  have hcomponents : (members.map Prod.snd).map ServiceProvider.component =
      members.map Prod.fst := by
    rw [List.map_map]
    refine List.map_congr_left fun entry hentry => ?_
    obtain ⟨-, hvalue⟩ := (hmem entry.1 entry.2).mp hentry
    simp [hvalue, provider]
  let sorted := ServiceCatalog.sortProviders members
  have hperm : sorted.Perm (members.map Prod.snd) := List.perm_insertionSort _ _
  have hproviders : (ServiceCatalog.build components).providers kind.text name = .ok sorted := by
    rw [ServiceCatalog.providers, ServiceCatalog.checkedKind,
      if_neg (not_not.mpr (text_mem_serviceKinds.mpr hkind))]
    simp only [bind, Except.bind, get_build, hmembers, Option.map_some]
    rfl
  refine ⟨sorted.map ServiceProvider.component, ?_, ?_, fun id => ?_⟩
  · rw [hproviders, List.map_map]
    congr 1
    refine (List.map_id sorted).symm.trans (List.map_congr_left fun found hfound => ?_)
    exact hvalues found (hperm.mem_iff.mp hfound)
  · refine pairwise_sorted ServiceProvider.priority ServiceProvider.component
      (hcomponents ▸ hnodup) fun found hfound => ?_
    rw [hvalues found hfound]
    rfl
  · rw [(hperm.map _).mem_iff, hcomponents, List.mem_map]
    constructor
    · rintro ⟨entry, hentry, rfl⟩
      exact ((hmem entry.1 entry.2).mp hentry).1
    · intro hdeclares
      exact ⟨(id, provider components kind name id), (hmem _ _).mpr ⟨hdeclares, rfl⟩, rfl⟩

theorem providers_undeclared (hdeclared : ¬∃ id, Declares components kind name id) :
    (ServiceCatalog.build components).providers kind.text name =
      .error (.unknownService (kind.text ++ lit ":" ++ name)) := by
  have habsent : OrderedDict.get (ServiceCatalog.foldComponents components)
      (kind.text, name) = none :=
    OrderedDict.get_eq_none_iff.mpr fun h => hdeclared ((mem_services hkind name hids).mp h)
  rw [ServiceCatalog.providers, ServiceCatalog.checkedKind,
    if_neg (not_not.mpr (text_mem_serviceKinds.mpr hkind))]
  simp only [bind, Except.bind, get_build, habsent, Option.map_none]

end

theorem keyLe_iff {a b : PyStr × PyStr} :
    ServiceCatalog.keyLe a b = true ↔ toLex a ≤ toLex b := by
  rw [Prod.Lex.toLex_le_toLex, ServiceCatalog.keyLe]
  simp

theorem sortedKeys_unique {keys keys' : List (PyStr × PyStr)} (hperm : keys.Perm keys') :
    keys.insertionSort (fun a b => ServiceCatalog.keyLe a b) =
      keys'.insertionSort (fun a b => ServiceCatalog.keyLe a b) := by
  let before (a b : PyStr × PyStr) : Prop := ServiceCatalog.keyLe a b
  have htotal : Std.Total before := ⟨fun a b => by
    simpa only [before, keyLe_iff] using le_total (toLex a) (toLex b)⟩
  have htrans : IsTrans (PyStr × PyStr) before := ⟨fun a b c hab hbc =>
    keyLe_iff.mpr ((keyLe_iff.mp hab).trans (keyLe_iff.mp hbc))⟩
  have hantisymm : Std.Antisymm before := ⟨fun a b hab hba =>
    toLex.injective (le_antisymm (keyLe_iff.mp hab) (keyLe_iff.mp hba))⟩
  have hboth := ((List.perm_insertionSort before keys).trans hperm).trans
    (List.perm_insertionSort before keys').symm
  exact hboth.eq_of_pairwise' (List.pairwise_insertionSort before keys)
    (List.pairwise_insertionSort before keys')

theorem keys_build (components : RoleComponents) :
    (ServiceCatalog.build components).map Prod.fst =
      (ServiceCatalog.foldComponents components).map Prod.fst := by
  rw [ServiceCatalog.build, List.map_map]
  rfl

section

variable {components reordered : RoleComponents} (hids : (components.map Prod.fst).Nodup)
  (h : Reordered components reordered)

include hids h

theorem names_reordered (kind : PyStr) :
    (ServiceCatalog.build reordered).names kind = (ServiceCatalog.build components).names kind := by
  have hids' : (reordered.map Prod.fst).Nodup := h.ids.nodup_iff.mp hids
  have hkeys : ((ServiceCatalog.build reordered).map Prod.fst).Perm
      ((ServiceCatalog.build components).map Prod.fst) := by
    rw [keys_build, keys_build, foldComponents_eq_collect, foldComponents_eq_collect,
      List.perm_ext_iff_of_nodup (GroupedDict.distinct_collect _ _ _).groups
        (GroupedDict.distinct_collect _ _ _).groups]
    intro key
    rw [GroupedDict.mem_groups_collect mergeService _ hids,
      GroupedDict.mem_groups_collect mergeService _ hids']
    refine exists_congr fun id => not_congr ?_
    have hvalues : (GroupedDict.values serviceEntry key id
        ((OrderedDict.get components id).getD [])).Perm _ := (h.provides id).filterMap _
    rw [← List.length_eq_zero_iff, ← List.length_eq_zero_iff, hvalues.length_eq]
    rfl
  unfold ServiceCatalog.names
  rw [sortedKeys_unique hkeys]

theorem providers_reordered (kind name : PyStr) :
    (ServiceCatalog.build reordered).providers kind name =
      (ServiceCatalog.build components).providers kind name := by
  have hids' : (reordered.map Prod.fst).Nodup := h.ids.nodup_iff.mp hids
  have hkinds : ∀ kind : ProvideKind, kind ≠ .role →
      (ServiceCatalog.build reordered).providers kind.text name =
        (ServiceCatalog.build components).providers kind.text name := by
    intro kind hkind
    by_cases hdeclared : ∃ id, Declares components kind name id
    · have hdeclared' : ∃ id, Declares reordered kind name id := by
        simpa only [h.declares kind name] using hdeclared
      obtain ⟨ids, hproviders, horder, hmem⟩ := providers_declared hkind name hids hdeclared
      obtain ⟨ids', hproviders', horder', hmem'⟩ :=
        providers_declared hkind name hids' hdeclared'
      have hsame : ids = ids' := by
        refine eq_of_precedes horder (horder'.imp fun hab => ?_) fun id => ?_
        · exact (h.precedes kind name _ _).mpr hab
        · rw [hmem, hmem', h.declares]
      have hprovider : provider components kind name = provider reordered kind name := by
        funext id
        rw [provider, provider, h.priority, h.exclusive]
      rw [hproviders, hproviders', hsame, hprovider]
    · have hdeclared' : ¬∃ id, Declares reordered kind name id := by
        simpa only [h.declares kind name] using hdeclared
      rw [providers_undeclared hkind name hids hdeclared,
        providers_undeclared hkind name hids' hdeclared']
  by_cases hservice : kind ∈ serviceKinds
  · rcases List.mem_pair.mp hservice with rfl | rfl
    · exact hkinds .interface (by decide)
    · exact hkinds .capability (by decide)
  · simp only [ServiceCatalog.providers, ServiceCatalog.checkedKind, if_pos hservice, bind,
      Except.bind]

end

/-- The candidates of every role that is enabled and the providers of every service are in the
order of `Ordered` and `Precedes`. Neither depends on the order of the components or of their
entries. -/
theorem providerOrder (py : Interpreter) (components : RoleComponents)
    (hids : (components.map Prod.fst).Nodup) (profile : Dict) :
    (∀ registry, RoleRegistry.fromProfile py components profile = .ok registry →
      ∃ profileRoles disabled, Dict.get profile "roles" (.dict []) = .dict profileRoles ∧
        Dict.get profile "disabled_roles" (.list []) = .list disabled ∧
        ∀ role, (role ∈ registry.listRoles ↔ role ∉ disabled.map (toStr py) ∧
            (role ∈ (profileRoles.map fun entry => toStr py entry.1) ∨
              ∃ id, Declares components .role role id)) ∧
          ∀ state, registry.state role = .ok state → ∃ listed,
            RoleRegistry.profileCandidateIds py (RoleRegistry.profileValue profileRoles role) =
                .ok listed ∧ Ordered components role listed state) ∧
    (∀ kind name, kind ≠ .role →
      ((∃ id, Declares components kind name id) → ∃ ids : List PyStr,
        (ServiceCatalog.build components).providers kind.text name =
            .ok (ids.map (provider components kind name)) ∧
          ids.Pairwise (Precedes components kind name) ∧
          ∀ id, id ∈ ids ↔ Declares components kind name id) ∧
      ((¬∃ id, Declares components kind name id) →
        (ServiceCatalog.build components).providers kind.text name =
          .error (.unknownService (kind.text ++ lit ":" ++ name)))) ∧
    ∀ reordered, Reordered components reordered →
      RoleRegistry.fromProfile py reordered profile =
          RoleRegistry.fromProfile py components profile ∧
        ∀ kind, (ServiceCatalog.build reordered).names kind =
            (ServiceCatalog.build components).names kind ∧
          ∀ name, (ServiceCatalog.build reordered).providers kind name =
            (ServiceCatalog.build components).providers kind name := by
  refine ⟨fun registry h => ?_, fun kind name hkind => ?_, fun reordered h => ?_⟩
  · unfold RoleRegistry.fromProfile at h
    split at h
    · rename_i profileRoles hroles
      split at h
      · rename_i disabled hdisabled
        obtain ⟨roles, hbuild, hregistry⟩ := bind_eq_ok.mp h
        cases hregistry
        refine ⟨profileRoles, disabled, hroles, hdisabled, fun role => ?_⟩
        obtain ⟨hmem, hstates⟩ := get_buildRoles hids hbuild role
        refine ⟨hmem, fun state hstate => hstates state ?_⟩
        rw [RoleRegistry.state] at hstate
        cases hget : OrderedDict.get (RoleRegistry.ofRoles roles).roles role with
        | none => simp [hget] at hstate
        | some found =>
          rw [hget] at hstate
          cases hstate
          exact hget
      · cases h
    · cases h
  · exact ⟨providers_declared hkind name hids, providers_undeclared hkind name hids⟩
  · exact ⟨fromProfile_reordered py hids h profile, fun kind =>
      ⟨names_reordered hids h kind, providers_reordered hids h kind⟩⟩

/-- Two shells of different priority, installed in either order. -/
theorem providerOrder_shells :
    let plain : Provide := ⟨.role, lit "shell", true, 0⟩
    let preferred : Provide := ⟨.role, lit "shell", true, 10⟩
    RoleRegistry.fromProfile bareInterpreter
        [(lit "b:shell", [preferred, plain]), (lit "a:shell", [plain])] [] =
      RoleRegistry.fromProfile bareInterpreter
        [(lit "a:shell", [plain]), (lit "b:shell", [plain, preferred])] [] := by
  intro plain preferred
  have hids : (([(lit "a:shell", [plain]), (lit "b:shell", [plain, preferred])] :
      RoleComponents).map Prod.fst).Nodup := by decide
  refine ((providerOrder bareInterpreter _ hids []).2.2
    [(lit "b:shell", [preferred, plain]), (lit "a:shell", [plain])] ⟨.swap _ _ _, fun id => ?_⟩).1
  have hne : lit "a:shell" ≠ lit "b:shell" := by decide
  by_cases ha : lit "a:shell" = id
  · subst ha
    simp [OrderedDict.get, hne.symm]
  · by_cases hb : lit "b:shell" = id
    · subst hb
      simpa [OrderedDict.get, ha] using List.Perm.swap preferred plain []
    · simp [OrderedDict.get, ha, hb]

end MsysCore.Core.ProviderOrder
