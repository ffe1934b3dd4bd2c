import Mathlib.Data.List.Chain
import MsysCore.Core.DependencyGraph

/-!
# The search for dependency cycles

`_validate_dependency_graph` with the sets `visiting` and `visited` and the list `path` that
all calls of its `visit` share. A call that returns has left `visiting` and `path` as they were,
so the search accepts what the visits of the dependency graph accept, and a cycle that it
reports is a closed path of the graph.
-/

namespace MsysCore.Core

open Python

/-- What `_validate_dependency_graph` raises. -/
inductive GraphError
  | missing (key : PyStr) (dependencies : List PyStr)
  | cycle (path : List PyStr)
  /-- `components[key]` of a key that is not there -/
  | keyError (key : PyStr)
  | recursion
  deriving DecidableEq

/-- The sets and the list that the calls of `visit` share. -/
structure Traversal where
  visiting : List PyStr
  visited : List PyStr
  path : List PyStr
  deriving DecidableEq

namespace Traversal

def enter (s : Traversal) (key : PyStr) : Traversal :=
  { s with visiting := key :: s.visiting, path := s.path ++ [key] }

def leave (s : Traversal) (key : PyStr) : Traversal where
  visiting := s.visiting.erase key
  visited := key :: s.visited
  path := s.path.dropLast

/-- What a call that returns has changed. -/
def withVisited (s : Traversal) (visited : List PyStr) : Traversal := { s with visited := visited }

/-- The reported cycle: `path[cycle_start:] + [key]`. -/
def cycle (s : Traversal) (key : PyStr) : List PyStr :=
  s.path.drop (if s.path.contains key then s.path.idxOf key else 0) ++ [key]

end Traversal

namespace Catalog

/-- `visit`; as many levels as there are components suffice. -/
def search (catalog : Catalog) : ℕ → Traversal → PyStr → Except GraphError Traversal
  | 0, _, _ => .error .recursion
  | depth + 1, s, key =>
    if s.visiting.contains key then .error (.cycle (s.cycle key))
    else if s.visited.contains key then .ok s
    else match OrderedDict.get catalog key with
      | none => .error (.keyError key)
      | some component => do
        let s ← (component.requires ++ component.after.filter catalog.has).foldlM
          (fun s dependency => search catalog depth s dependency) (s.enter key)
        pure (s.leave key)

/-- A call from the loop over the components, with a path of its own. -/
def searchFrom (catalog : Catalog) (s : Traversal) (key : PyStr) : Except GraphError Traversal :=
  catalog.search (catalog.length + 1) { s with path := [] } key

def checkDependencyGraph (catalog : Catalog) : Except GraphError Unit := do
  catalog.forM fun entry =>
    if catalog.missing entry.2 = [] then pure ()
    else .error (.missing entry.1 (catalog.missing entry.2))
  let _ ← (catalog.map Prod.fst).foldlM catalog.searchFrom ⟨[], [], []⟩
  pure ()

/-- A walk along the edges of the graph that ends where it starts. -/
structure ClosedPath (catalog : Catalog) (path : List PyStr) : Prop where
  length : 2 ≤ path.length
  edges : path.IsChain catalog.Precedes
  closed : path.head? = path.getLast?

/-! ## Open calls -/

/-- What holds when `visit` is called: the shared state describes the calls that are open, each
of which is a component with an edge to the next. -/
structure Calls (catalog : Catalog) (s : Traversal) (key : PyStr) : Prop where
  visiting : s.visiting = s.path.reverse
  nodup : s.path.Nodup
  known : ∀ k ∈ s.path, catalog.has k = true
  edges : (s.path ++ [key]).IsChain catalog.Precedes

variable {catalog : Catalog} {s : Traversal} {key : PyStr}

theorem Calls.withVisited (h : catalog.Calls s key) (visited : List PyStr) :
    catalog.Calls (s.withVisited visited) key :=
  ⟨h.visiting, h.nodup, h.known, h.edges⟩

theorem Calls.enter (h : catalog.Calls s key) (hkey : catalog.has key = true)
    (hnew : key ∉ s.path) {dependency : PyStr} (hedge : catalog.Precedes key dependency) :
    catalog.Calls (s.enter key) dependency := by
  refine ⟨?_, ?_, ?_, ?_⟩
  · simp [Traversal.enter, h.visiting]
  · refine List.nodup_append.mpr ⟨h.nodup, List.nodup_singleton key, ?_⟩
    intro k hk last hlast heq
    exact hnew (List.mem_singleton.mp hlast ▸ heq ▸ hk)
  · intro k hk
    rcases List.mem_append.mp hk with hold | hlast
    · exact h.known k hold
    · rw [List.mem_singleton.mp hlast]
      exact hkey
  · refine List.IsChain.append h.edges (List.isChain_singleton dependency) ?_
    intro last hlast next hnext
    have hlast : key = last := by simpa [Traversal.enter] using hlast
    have hnext : dependency = next := by simpa using hnext
    rw [← hlast, ← hnext]
    exact hedge

/-- There are no more open calls than components. -/
theorem Calls.length_le (h : catalog.Calls s key) : s.path.length ≤ catalog.length := by
  have hsubset : s.path ⊆ catalog.map Prod.fst := by
    intro k hk
    obtain ⟨component, hget⟩ := Option.isSome_iff_exists.mp (h.known k hk)
    exact OrderedDict.mem_keys_of_get hget
  have hlength := (List.subperm_of_subset h.nodup hsubset).length_le
  rwa [List.length_map] at hlength

theorem leave_enter (s : Traversal) (key : PyStr) (visited : List PyStr) :
    ((s.enter key).withVisited visited).leave key = s.withVisited (key :: visited) := by
  simp [Traversal.enter, Traversal.leave, Traversal.withVisited]

/-! ## The search and the visits -/

/-- A call that returns has changed `visited` only, and as a visit does. -/
theorem search_returns (hcomplete : catalog.Complete) (depth : ℕ) : ∀ {s : Traversal} {key : PyStr},
    catalog.Calls s key → catalog.has key = true →
      ReturnsImage s.withVisited (catalog.search depth s key)
        (catalog.visit depth s.path s.visited key) := by
  induction depth with
  | zero => exact fun _ _ => ReturnsImage.error _ _ _
  | succ depth ih =>
    intro s key hcalls hkey
    have hvisiting : s.visiting.contains key = s.path.contains key := by simp [hcalls.visiting]
    unfold search visit
    rw [hvisiting]
    split_ifs with hpath hvisited
    · exact ReturnsImage.error _ _ _
    · exact ReturnsImage.ok s.withVisited s.visited
    obtain ⟨component, hget⟩ := Option.isSome_iff_exists.mp hkey
    have hdependencies : catalog.orderingDependencies key =
        component.requires ++ component.after.filter catalog.has := by
      simp [orderingDependencies, hget]
    have hnew : key ∉ s.path := by simpa using hpath
    simp only [hget]
    rw [← hdependencies]
    have hcall : ∀ dependency ∈ catalog.orderingDependencies key, ∀ visited,
        ReturnsImage (s.enter key).withVisited
          (catalog.search depth ((s.enter key).withVisited visited) dependency)
          (catalog.visit depth (s.path ++ [key]) visited dependency) := by
      intro dependency hdependency visited
      exact ih ((hcalls.enter hkey hnew hdependency).withVisited visited)
        (hcomplete.has_of_precedes hdependency)
    have hfold := ReturnsImage.foldlM hcall s.visited
    refine hfold.bind fun visited => ?_
    rw [leave_enter]
    exact ReturnsImage.ok s.withVisited (key :: visited)

/-! ## Reported cycles -/

/-- A component that is met while its own call is open closes a path. -/
theorem Calls.closedPath (h : catalog.Calls s key) (hopen : key ∈ s.path) :
    catalog.ClosedPath (s.cycle key) := by
  have hdrop : s.path.drop (s.path.idxOf key) = key :: s.path.drop (s.path.idxOf key + 1) := by
    rw [List.drop_eq_getElem_cons (List.idxOf_lt_length_of_mem hopen), List.getElem_idxOf]
  have hcycle : s.cycle key = s.path.drop (s.path.idxOf key) ++ [key] := by
    rw [Traversal.cycle, if_pos (by simpa using hopen)]
  have hsuffix : s.cycle key <:+ s.path ++ [key] := by
    rw [hcycle]
    exact ⟨s.path.take (s.path.idxOf key), by rw [← List.append_assoc, List.take_append_drop]⟩
  refine ⟨?_, h.edges.suffix hsuffix, ?_⟩
  · rw [hcycle, hdrop]
    simp
  · rw [hcycle, List.getLast?_concat, hdrop]
    rfl

/-- The search stops with a cycle of the graph and in no other way. -/
theorem search_eq_error (hcomplete : catalog.Complete) (depth : ℕ) :
    ∀ {s : Traversal} {key : PyStr} {e : GraphError}, catalog.Calls s key →
      catalog.has key = true → catalog.length < s.path.length + depth →
        catalog.search depth s key = .error e →
          ∃ path, e = .cycle path ∧ catalog.ClosedPath path := by
  induction depth with
  | zero =>
    intro s key e hcalls hkey hdepth
    have := hcalls.length_le
    omega
  | succ depth ih =>
    intro s key e hcalls hkey hdepth h
    have hvisiting : s.visiting.contains key = s.path.contains key := by simp [hcalls.visiting]
    unfold search at h
    rw [hvisiting] at h
    split_ifs at h with hpath hvisited
    · cases h
      exact ⟨_, rfl, hcalls.closedPath (by simpa using hpath)⟩
    obtain ⟨component, hget⟩ := Option.isSome_iff_exists.mp hkey
    have hdependencies : catalog.orderingDependencies key =
        component.requires ++ component.after.filter catalog.has := by
      simp [orderingDependencies, hget]
    have hnew : key ∉ s.path := by simpa using hpath
    simp only [hget] at h
    rw [← hdependencies] at h
    have hfold := (bind_eq_error.mp h).resolve_right (by rintro ⟨after, -, hafter⟩; cases hafter)
    have hcall : ∀ dependency ∈ catalog.orderingDependencies key, ∀ visited,
        catalog.Calls ((s.enter key).withVisited visited) dependency ∧
          catalog.has dependency = true := fun dependency hdependency visited =>
      ⟨(hcalls.enter hkey hnew hdependency).withVisited visited,
        hcomplete.has_of_precedes hdependency⟩
    obtain ⟨dependency, hdependency, _, ⟨visited, rfl⟩, herror⟩ := foldlM_eq_error
      (P := fun after => ∃ visited, after = (s.enter key).withVisited visited) (by
        rintro _ dependency hdependency after ⟨visited, rfl⟩ hafter
        obtain ⟨hopen, hknown⟩ := hcall dependency hdependency visited
        obtain ⟨next, -, rfl⟩ := (search_returns hcomplete depth hopen hknown _).mp hafter
        exact ⟨next, rfl⟩) ⟨s.visited, rfl⟩ hfold
    obtain ⟨hopen, hknown⟩ := hcall dependency hdependency visited
    refine ih hopen hknown ?_ herror
    simp only [Traversal.enter, Traversal.withVisited, List.length_append, List.length_singleton]
    omega

/-! ## The whole check -/

/-- The shared state between two calls from the loop over the components. -/
def atRest (visited : List PyStr) : Traversal := ⟨[], visited, []⟩

theorem calls_atRest (visited : List PyStr) (key : PyStr) :
    catalog.Calls (atRest visited) key :=
  ⟨rfl, List.nodup_nil, by simp [atRest], List.isChain_singleton key⟩

theorem has_of_mem_keys (hkey : key ∈ catalog.map Prod.fst) : catalog.has key = true := by
  obtain ⟨component, hget⟩ := OrderedDict.exists_get_of_mem_keys hkey
  simp [has, hget]

theorem complete_iff_checks : catalog.Complete ↔ (catalog.forM fun entry =>
    if catalog.missing entry.2 = [] then pure ()
    else Except.error (GraphError.missing entry.1 (catalog.missing entry.2))) = .ok () := by
  rw [forM_eq_ok]
  refine forall₂_congr fun entry hentry => ?_
  split_ifs with hmissing <;> simp [hmissing, pure, Except.pure]

theorem checkDependencyGraph_returns (hcomplete : catalog.Complete) :
    ReturnsImage (fun _ => ()) catalog.checkDependencyGraph catalog.validateDependencyGraph := by
  have hchecks : catalog.forM (fun entry => if catalog.missing entry.2 = [] then pure () else
      Except.error (catalog.missingText entry)) = .ok () := by
    refine forM_eq_ok.mpr fun entry hentry => ?_
    rw [if_pos (hcomplete entry hentry)]
    rfl
  have hturn : ∀ key ∈ catalog.map Prod.fst, ∀ visited,
      ReturnsImage atRest (catalog.searchFrom (atRest visited) key)
        (catalog.visit (catalog.length + 1) [] visited key) := by
    intro key hkey visited
    exact search_returns hcomplete _ (calls_atRest visited key) (has_of_mem_keys hkey)
  have hfold := ReturnsImage.foldlM hturn []
  unfold checkDependencyGraph validateDependencyGraph
  rw [complete_iff_checks.mp hcomplete, hchecks]
  refine ReturnsImage.bind (ReturnsImage.ok (fun _ : Unit => ()) ()) fun _ => ?_
  exact ReturnsImage.bind hfold fun _ => ReturnsImage.ok (fun _ : Unit => ()) ()

theorem checkDependencyGraph_missing {e : GraphError} (h : catalog.checkDependencyGraph = .error e)
    (hincomplete : ¬ catalog.Complete) :
    ∃ entry ∈ catalog, e = .missing entry.1 (catalog.missing entry.2) ∧
      catalog.missing entry.2 ≠ [] := by
  rcases bind_eq_error.mp h with hfailed | ⟨_, hpassed, -⟩
  · obtain ⟨entry, hentry, herror⟩ := forM_eq_error hfailed
    split_ifs at herror with hmissing
    · cases herror
    · exact ⟨entry, hentry, (Except.error.inj herror).symm, hmissing⟩
  · exact absurd hpassed (complete_iff_checks.not.mp hincomplete)

theorem checkDependencyGraph_cycle {e : GraphError} (h : catalog.checkDependencyGraph = .error e)
    (hcomplete : catalog.Complete) : ∃ path, e = .cycle path ∧ catalog.ClosedPath path := by
  rcases bind_eq_error.mp h with hfailed | ⟨_, -, h⟩
  · rw [complete_iff_checks.mp hcomplete] at hfailed
    cases hfailed
  rcases bind_eq_error.mp h with hsearch | ⟨_, -, hafter⟩
  · have hreturns : ∀ key ∈ catalog.map Prod.fst, ∀ visited, ReturnsImage atRest
        (catalog.searchFrom (atRest visited) key) _ := fun key hkey visited =>
      search_returns hcomplete _ (calls_atRest visited key) (has_of_mem_keys hkey)
    obtain ⟨key, hkey, _, ⟨visited, rfl⟩, herror⟩ := foldlM_eq_error
      (P := fun s : Traversal => ∃ visited, s = atRest visited) (by
        rintro _ key hkey after ⟨visited, rfl⟩ hafter
        obtain ⟨next, -, rfl⟩ := (hreturns key hkey visited after).mp hafter
        exact ⟨next, rfl⟩) ⟨[], rfl⟩ hsearch
    exact search_eq_error hcomplete _ (calls_atRest visited key) (has_of_mem_keys hkey)
      (by simp [atRest]) herror
  · cases hafter

/-- A catalog is accepted exactly when every required component is there and the `requires`
edges together with the `after` edges to known components have no cycle. The errors name a
component with missing requirements, or a closed path of the graph. -/
theorem checkDependencyGraph_exact (catalog : Catalog) :
    (catalog.checkDependencyGraph = .ok () ↔
      catalog.Complete ∧ ∀ key, ¬ Relation.TransGen catalog.Precedes key key) ∧
    ∀ e, catalog.checkDependencyGraph = .error e →
      (∃ entry ∈ catalog, e = .missing entry.1 (catalog.missing entry.2) ∧
        catalog.missing entry.2 ≠ []) ∨
      ∃ path, e = .cycle path ∧ catalog.ClosedPath path := by
  by_cases hcomplete : catalog.Complete
  · refine ⟨?_, fun e h => .inr (checkDependencyGraph_cycle h hcomplete)⟩
    rw [← validateDependencyGraph_iff, checkDependencyGraph_returns hcomplete ()]
    exact ⟨fun ⟨_, h, _⟩ => h, fun h => ⟨(), h, rfl⟩⟩
  · refine ⟨iff_of_false (fun h => ?_) fun h => hcomplete h.1,
      fun e h => .inl (checkDependencyGraph_missing h hcomplete)⟩
    obtain ⟨_, hchecks, -⟩ := bind_eq_ok.mp h
    exact hcomplete (complete_iff_checks.mpr hchecks)

end Catalog

end MsysCore.Core
