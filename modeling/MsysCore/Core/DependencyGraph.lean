import MsysCore.Lib.Except
import MsysCore.Lib.OrderedDict
import MsysCore.Python.Values

/-!
# The dependency graph of a catalog

`_validate_dependency_graph`: required components exist, and a depth-first visit of the
`requires` and `after` edges meets no component that it is still visiting. An accepted
catalog has no cycle of required components.
-/

namespace MsysCore.Core

open Python

/-- The ordering fields of a manifest. -/
structure Dependencies where
  requires : List PyStr
  after : List PyStr
  deriving DecidableEq

abbrev Catalog := List (PyStr × Dependencies)

namespace Catalog

def has (catalog : Catalog) (key : PyStr) : Bool := (OrderedDict.get catalog key).isSome

def requires (catalog : Catalog) (key : PyStr) : List PyStr :=
  match OrderedDict.get catalog key with
  | some component => component.requires
  | none => []

def orderingDependencies (catalog : Catalog) (key : PyStr) : List PyStr :=
  match OrderedDict.get catalog key with
  | some component => component.requires ++ component.after.filter catalog.has
  | none => []

def cycleText (path : List PyStr) (key : PyStr) : PyStr :=
  lit "component dependency cycle: " ++
    (lit " -> ").intercalate (path.dropWhile (· ≠ key) ++ [key])

/-- `visit`; `path` has the keys that are being visited, and the result those that were. A path
has no key twice, so as many levels as there are components suffice. -/
def visit (catalog : Catalog) : ℕ → List PyStr → List PyStr → PyStr → Except PyStr (List PyStr)
  | 0, _, _, _ => .error (lit "maximum recursion depth exceeded")
  | depth + 1, path, visited, key =>
    if path.contains key then .error (cycleText path key)
    else if visited.contains key then .ok visited
    else do
      let visited ← (catalog.orderingDependencies key).foldlM
        (fun visited dependency => visit catalog depth (path ++ [key]) visited dependency) visited
      pure (key :: visited)

def missing (catalog : Catalog) (component : Dependencies) : List PyStr :=
  component.requires.filter fun dependency => !catalog.has dependency

def missingText (catalog : Catalog) (entry : PyStr × Dependencies) : PyStr :=
  lit "component " ++ entry.1 ++ lit " requires missing components: " ++
    (lit ", ").intercalate (catalog.missing entry.2)

def validateDependencyGraph (catalog : Catalog) : Except PyStr Unit := do
  catalog.forM fun entry =>
    if catalog.missing entry.2 = [] then pure () else .error (catalog.missingText entry)
  let _ ← (catalog.map Prod.fst).foldlM
    (fun visited key => visit catalog (catalog.length + 1) [] visited key) []
  pure ()

/-! ## Accepted catalogs -/

/-- Each key comes after its dependencies, the latest first. -/
inductive Ordered (catalog : Catalog) : List PyStr → Prop
  | nil : Ordered catalog []
  | cons {key visited} (dependencies : ∀ d ∈ catalog.orderingDependencies key, d ∈ visited)
      (rest : Ordered catalog visited) : Ordered catalog (key :: visited)

/-- What a visit has done when it returns. -/
def Extends (catalog : Catalog) (visited after : List PyStr) : Prop :=
  (Ordered catalog visited → Ordered catalog after) ∧ visited ⊆ after

variable {catalog : Catalog}

theorem Extends.refl (visited : List PyStr) : Extends catalog visited visited :=
  ⟨id, List.Subset.refl _⟩

theorem Extends.trans {a b c : List PyStr} (h : Extends catalog a b) (h' : Extends catalog b c) :
    Extends catalog a c :=
  ⟨fun ha => h'.1 (h.1 ha), List.Subset.trans h.2 h'.2⟩

/-- A loop over keys whose visits extend the visited keys by their own. -/
theorem foldlM_extends {f : List PyStr → PyStr → Except PyStr (List PyStr)}
    (hf : ∀ visited key after, f visited key = .ok after →
      Extends catalog visited after ∧ key ∈ after)
    (keys : List PyStr) : ∀ {visited after}, keys.foldlM f visited = .ok after →
      Extends catalog visited after ∧ ∀ key ∈ keys, key ∈ after := by
  induction keys with
  | nil =>
    intro visited after h
    cases h
    exact ⟨Extends.refl visited, by simp⟩
  | cons key keys ih =>
    intro visited after h
    rw [List.foldlM_cons] at h
    obtain ⟨middle, hkey, hrest⟩ := bind_eq_ok.mp h
    obtain ⟨hfirst, hmem⟩ := hf visited key middle hkey
    obtain ⟨hlater, hkeys⟩ := ih hrest
    refine ⟨hfirst.trans hlater, ?_⟩
    intro k hk
    rcases List.mem_cons.mp hk with rfl | hk
    · exact hlater.2 hmem
    · exact hkeys k hk

theorem visit_extends (depth : ℕ) : ∀ (path visited : List PyStr) (key : PyStr)
    (after : List PyStr), catalog.visit depth path visited key = .ok after →
      Extends catalog visited after ∧ key ∈ after := by
  induction depth with
  | zero =>
    intro path visited key after h
    cases h
  | succ depth ih =>
    intro path visited key after h
    unfold visit at h
    split_ifs at h with hpath hvisited
    · cases h
      exact ⟨Extends.refl visited, by simpa using hvisited⟩
    · obtain ⟨middle, hdeps, hafter⟩ := bind_eq_ok.mp h
      cases hafter
      obtain ⟨hextends, hall⟩ := foldlM_extends (ih (path ++ [key])) _ hdeps
      refine ⟨⟨fun hvisited => .cons hall (hextends.1 hvisited), ?_⟩, List.mem_cons_self⟩
      exact fun k hk => List.mem_cons_of_mem key (hextends.2 hk)

theorem Ordered.acc {visited : List PyStr} (h : Ordered catalog visited) :
    ∀ key ∈ visited, Acc (fun d k => d ∈ catalog.orderingDependencies k) key := by
  induction h with
  | nil => simp
  | cons dependencies _ ih =>
    intro key hkey
    rcases List.mem_cons.mp hkey with rfl | hkey
    · exact ⟨_, fun d hd => ih d (dependencies d hd)⟩
    · exact ih key hkey

theorem requires_subset (key : PyStr) :
    catalog.requires key ⊆ catalog.orderingDependencies key := by
  unfold requires orderingDependencies
  split
  · exact List.subset_append_left _ _
  · exact List.Subset.refl _

/-- The order that `requires` and `after` ask for. -/
def Precedes (catalog : Catalog) (key dependency : PyStr) : Prop :=
  dependency ∈ catalog.orderingDependencies key

theorem precedes_acyclic (h : catalog.validateDependencyGraph = .ok ()) :
    ∀ key, ¬ Relation.TransGen catalog.Precedes key key := by
  obtain ⟨_, -, h⟩ := bind_eq_ok.mp h
  obtain ⟨visited, hvisited, -⟩ := bind_eq_ok.mp h
  obtain ⟨hextends, hkeys⟩ := foldlM_extends (visit_extends (catalog.length + 1) []) _ hvisited
  have hordered := hextends.1 .nil
  have hwf : WellFounded fun d k => d ∈ catalog.orderingDependencies k := by
    refine ⟨fun key => ?_⟩
    cases hentry : OrderedDict.get catalog key with
    | some component =>
      refine hordered.acc key (hkeys key ?_)
      exact List.mem_map.mpr ⟨(key, component), OrderedDict.mem_of_get hentry, rfl⟩
    | none =>
      refine ⟨_, fun d hd => ?_⟩
      simp [orderingDependencies, hentry] at hd
  intro key hcycle
  have hback : Relation.TransGen (fun d k => d ∈ catalog.orderingDependencies k) key key :=
    Relation.transGen_swap.mp hcycle
  exact hwf.transGen.irrefl.irrefl key hback

/-- An accepted catalog has no cycle of required components. -/
theorem validateDependencyGraph_acyclic (h : catalog.validateDependencyGraph = .ok ()) :
    ∀ key, ¬ Relation.TransGen (fun p d => d ∈ catalog.requires p) key key := by
  intro key hcycle
  exact precedes_acyclic h key
    (Relation.TransGen.mono (fun p d hd => requires_subset p hd) _ _ hcycle)

/-! ## Which catalogs are accepted -/

def Complete (catalog : Catalog) : Prop := ∀ entry ∈ catalog, catalog.missing entry.2 = []

theorem Complete.has_of_precedes (h : catalog.Complete) {key dependency : PyStr}
    (hdep : catalog.Precedes key dependency) : catalog.has dependency = true := by
  unfold Precedes orderingDependencies at hdep
  split at hdep
  · rename_i component hget
    rcases List.mem_append.mp hdep with hrequired | hafter
    · by_contra habsent
      have hmissing : dependency ∈ catalog.missing component :=
        List.mem_filter.mpr ⟨hrequired, by simpa using habsent⟩
      rw [h _ (OrderedDict.mem_of_get hget)] at hmissing
      cases hmissing
    · exact (List.mem_filter.mp hafter).2
  · cases hdep

/-- A visit below keys that all lead to its own returns: the path has no key twice, and so the
levels suffice. -/
theorem visit_returns (hcomplete : catalog.Complete)
    (hacyclic : ∀ key, ¬ Relation.TransGen catalog.Precedes key key) (depth : ℕ) :
    ∀ (path visited : List PyStr) (key : PyStr), catalog.has key = true → path.Nodup →
      (∀ k ∈ path, catalog.has k = true ∧ Relation.TransGen catalog.Precedes k key) →
      catalog.length < path.length + depth → Returns (catalog.visit depth path visited key) := by
  induction depth with
  | zero =>
    intro path visited key hkey hnodup hpath hlength
    have hsubset : path ⊆ catalog.map Prod.fst := by
      intro k hk
      obtain ⟨component, hget⟩ := Option.isSome_iff_exists.mp (hpath k hk).1
      exact OrderedDict.mem_keys_of_get hget
    have := (List.subperm_of_subset hnodup hsubset).length_le
    rw [List.length_map] at this
    omega
  | succ depth ih =>
    intro path visited key hkey hnodup hpath hlength
    unfold visit
    split_ifs with hcycle hvisited
    · exact absurd (hpath key (by simpa using hcycle)).2 (hacyclic key)
    · exact returns_ok visited
    · have hnew : key ∉ path := by simpa using hcycle
      refine (returns_bind_of_forall fun after => returns_pure _).mpr (foldlM_returns ?_ visited)
      intro dependency hdep visited
      refine ih (path ++ [key]) visited dependency (hcomplete.has_of_precedes hdep) ?_ ?_ ?_
      · refine List.nodup_append.mpr ⟨hnodup, List.nodup_singleton key, ?_⟩
        intro k hk last hlast heq
        exact hnew (List.mem_singleton.mp hlast ▸ heq ▸ hk)
      · intro k hk
        rcases List.mem_append.mp hk with hold | hlast
        · exact ⟨(hpath k hold).1, (hpath k hold).2.tail hdep⟩
        · rw [List.mem_singleton.mp hlast]
          exact ⟨hkey, .single hdep⟩
      · rw [List.length_append, List.length_singleton]
        omega

/-- The accepted catalogs are those with all required components and without a cycle. -/
theorem validateDependencyGraph_iff : catalog.validateDependencyGraph = .ok () ↔
    catalog.Complete ∧ ∀ key, ¬ Relation.TransGen catalog.Precedes key key := by
  constructor
  · intro h
    refine ⟨?_, precedes_acyclic h⟩
    obtain ⟨_, hchecks, -⟩ := bind_eq_ok.mp h
    intro entry hentry
    have hcheck := forM_eq_ok.mp hchecks entry hentry
    split_ifs at hcheck with hmissing
    exact hmissing
  · rintro ⟨hcomplete, hacyclic⟩
    have hchecks : (catalog.forM fun entry => if catalog.missing entry.2 = [] then pure () else
        Except.error (catalog.missingText entry)) = .ok () := by
      refine forM_eq_ok.mpr fun entry hentry => ?_
      rw [if_pos (hcomplete entry hentry)]
      rfl
    have hvisits : ∀ key ∈ catalog.map Prod.fst, ∀ visited,
        ∃ visited', visit catalog (catalog.length + 1) [] visited key = .ok visited' := by
      intro key hkey visited
      obtain ⟨component, hget⟩ := OrderedDict.exists_get_of_mem_keys hkey
      refine visit_returns hcomplete hacyclic _ [] visited key ?_ List.nodup_nil (by simp) ?_
      · simp [has, hget]
      · simp
    obtain ⟨visited, hvisited⟩ := foldlM_returns hvisits []
    exact bind_eq_ok.mpr ⟨(), hchecks, bind_eq_ok.mpr ⟨visited, hvisited, rfl⟩⟩

/-- Acceptance depends on what each key has only. -/
theorem validateDependencyGraph_congr {other : Catalog} (hnodup : (other.map Prod.fst).Nodup)
    (hget : ∀ key, OrderedDict.get catalog key = OrderedDict.get other key)
    (h : catalog.validateDependencyGraph = .ok ()) : other.validateDependencyGraph = .ok () := by
  have hhas : ∀ key, catalog.has key = other.has key := fun key => by rw [has, hget, has]
  obtain ⟨hcomplete, hacyclic⟩ := validateDependencyGraph_iff.mp h
  refine validateDependencyGraph_iff.mpr ⟨?_, ?_⟩
  · intro entry hentry
    have hfound : OrderedDict.get other entry.1 = some entry.2 :=
      (OrderedDict.get_eq_some_iff hnodup).mpr hentry
    have hmissing := hcomplete (entry.1, entry.2) (OrderedDict.mem_of_get ((hget _).trans hfound))
    simpa only [missing, hhas] using hmissing
  · have hprecedes : other.Precedes = catalog.Precedes := by
      funext key dependency
      simp only [Precedes, orderingDependencies, hget, funext hhas]
    rw [hprecedes]
    exact hacyclic

end Catalog

end MsysCore.Core
