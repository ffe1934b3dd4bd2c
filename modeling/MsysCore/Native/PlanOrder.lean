import MsysCore.Lib.Except
import MsysCore.Lib.Heap
import MsysCore.Lib.LeastOrder
import MsysCore.Lib.OrderedDict
import MsysCore.Python.Values

/-!
# The order of a compiled plan

`topological_components` of the plan compiler: components in the order of their `after` lists,
by Kahn's algorithm with a heap of the ids that may come next. The dictionaries over the ids are
functions; both are filled for every id before they are read.
-/

namespace MsysCore.Native.PlanOrder

open Python LeastOrder

/-- A normalised component; the order does not read its other fields. -/
structure PlanComponent (α : Type) where
  id : PyStr
  critical : Bool
  after : List PyStr
  fields : α

/-- The dictionaries `dependents` and `indegree`. -/
structure Graph where
  dependents : PyStr → List PyStr
  indegree : PyStr → ℤ

/-- What the loop over the heap changes; `ordered` has the ids. -/
structure Emission where
  ready : List PyStr
  indegree : PyStr → ℤ
  ordered : List PyStr

section

variable {α : Type}

def byId (components : List (PlanComponent α)) : List (PyStr × PlanComponent α) :=
  components.foldl (fun d item => OrderedDict.set d item.id item) []

def addDependency (ids : List PyStr) (item : PlanComponent α) (graph : Graph)
    (dependency : PyStr) : Except PyStr Graph :=
  if dependency ∉ ids then
    .error (item.id ++ lit " references missing dependency " ++ dependency)
  else if dependency = item.id then .error (item.id ++ lit " depends on itself")
  else .ok
    { dependents := Function.update graph.dependents dependency
        (graph.dependents dependency ++ [item.id])
      indegree := Function.update graph.indegree item.id (graph.indegree item.id + 1) }

def addComponent (ids : List PyStr) (graph : Graph) (item : PlanComponent α) :
    Except PyStr Graph :=
  item.after.foldlM (addDependency ids item) graph

/-- One turn of the loop over the dependents. -/
def release (s : Emission) (dependent : PyStr) : Emission :=
  let count := s.indegree dependent - 1
  { s with
    indegree := Function.update s.indegree dependent count
    ready := if count = 0 then Heap.push id s.ready dependent else s.ready }

/-- One turn of the loop over the heap, with what `heappop` gives and leaves. -/
def emitName (dependents : PyStr → List PyStr) (s : Emission) (name : PyStr)
    (ready : List PyStr) : Emission :=
  ((dependents name).insertionSort (· ≤ ·)).foldl release
    { s with ready := ready, ordered := s.ordered ++ [name] }

/-- Every turn emits another id, so as many turns as there are ids suffice. -/
def emit (dependents : PyStr → List PyStr) : ℕ → Emission → Emission
  | 0, s => s
  | turns + 1, s =>
    match s.ready with
    | [] => s
    | name :: ready => emit dependents turns (emitName dependents s name ready)

def topologicalComponents (components : List (PlanComponent α)) :
    Except PyStr (List (PlanComponent α)) := do
  let byId := byId components
  if byId.length ≠ components.length then .error (lit "component ids must be unique")
  else if components.any PlanComponent.critical = false then
    .error (lit "at least one component must be critical")
  else do
    let ids := byId.map Prod.fst
    let graph ← components.foldlM (addComponent ids) ⟨fun _ => [], fun _ => 0⟩
    let ready := Heap.ofList id (ids.filter fun name => graph.indegree name = 0)
    let s := emit graph.dependents components.length ⟨ready, graph.indegree, []⟩
    if s.ordered.length ≠ components.length then
      .error (lit "dependency graph contains a cycle")
    else pure (s.ordered.filterMap (OrderedDict.get byId))

/-! ## What is claimed -/

/-- The `after` graph. -/
def DependsOn (components : List (PlanComponent α)) (name dependency : PyStr) : Prop :=
  ∃ item ∈ components, item.id = name ∧ dependency ∈ item.after

structure Orderable (components : List (PlanComponent α)) : Prop where
  unique : (components.map PlanComponent.id).Nodup
  critical : ∃ item ∈ components, item.critical = true
  references : ∀ item ∈ components, ∀ dependency ∈ item.after,
    dependency ∈ components.map PlanComponent.id ∧ dependency ≠ item.id
  acyclic : ∀ name, ¬ Relation.TransGen (DependsOn components) name name

/-- Every component comes after the components of its `after` list. -/
def Topological (ordered : List (PlanComponent α)) : Prop :=
  ∀ done item rest, ordered = done ++ item :: rest → item.after ⊆ done.map PlanComponent.id

/-! ## The dictionaries -/

/-- All that an id has in its `after` lists. -/
def afterOf (components : List (PlanComponent α)) (name : PyStr) : List PyStr :=
  components.flatMap fun item => if item.id = name then item.after else []

variable {components : List (PlanComponent α)}

theorem mem_afterOf {name dependency : PyStr} :
    dependency ∈ afterOf components name ↔ DependsOn components name dependency := by
  unfold afterOf DependsOn
  rw [List.mem_flatMap]
  refine exists_congr fun item => and_congr_right fun _ => ?_
  split_ifs with h <;> simp [h]

theorem afterOf_of_mem (hunique : (components.map PlanComponent.id).Nodup)
    {item : PlanComponent α} (hitem : item ∈ components) :
    afterOf components item.id = item.after := by
  unfold afterOf
  induction components with
  | nil => cases hitem
  | cons other components ih =>
    obtain ⟨hother, hrest⟩ := List.nodup_cons.mp hunique
    rw [List.flatMap_cons]
    rcases List.mem_cons.mp hitem with rfl | hmem
    · have hnone : ∀ x ∈ components, (if x.id = item.id then x.after else []) = [] := by
        intro x hx
        have hne : x.id ≠ item.id := fun heq => hother (heq ▸ List.mem_map_of_mem hx)
        rw [if_neg hne]
      rw [if_pos rfl, List.flatMap_eq_nil_iff.mpr hnone, List.append_nil]
    · have hne : other.id ≠ item.id := fun heq => hother (heq ▸ List.mem_map_of_mem hmem)
      rw [if_neg hne, List.nil_append]
      exact ih hrest hmem

/-- The graph counts every reference once at either end. -/
structure Counts (graph : Graph) (after : PyStr → List PyStr) : Prop where
  indegree : ∀ name, graph.indegree name = (after name).length
  dependents : ∀ name dependency,
    (graph.dependents dependency).count name = (after name).count dependency

theorem addDependency_counts {ids : List PyStr} {item : PlanComponent α} {graph next : Graph}
    {dependency : PyStr} {after : PyStr → List PyStr} (h : Counts graph after)
    (hnext : addDependency ids item graph dependency = .ok next) :
    Counts next (Function.update after item.id (after item.id ++ [dependency])) := by
  unfold addDependency at hnext
  split_ifs at hnext
  cases hnext
  refine ⟨fun name => ?_, fun name other => ?_⟩
  · by_cases hname : name = item.id
    · subst hname
      simp [h.indegree]
    · simp [hname, h.indegree]
  · by_cases hname : name = item.id <;> by_cases hother : other = dependency
    · subst hname hother
      simp [h.dependents]
    · subst hname
      simp [hother, Ne.symm hother, h.dependents]
    · subst hother
      simp [hname, Ne.symm hname, h.dependents]
    · simp [hname, hother, h.dependents]

theorem foldlM_addDependency {ids : List PyStr} {item : PlanComponent α}
    (dependencies : List PyStr) : ∀ {graph next : Graph} {after : PyStr → List PyStr},
      Counts graph after → dependencies.foldlM (addDependency ids item) graph = .ok next →
        Counts next (Function.update after item.id (after item.id ++ dependencies)) := by
  induction dependencies with
  | nil =>
    intro graph next after h hnext
    cases hnext
    rwa [List.append_nil, Function.update_eq_self]
  | cons dependency dependencies ih =>
    intro graph next after h hnext
    rw [List.foldlM_cons] at hnext
    obtain ⟨middle, hmiddle, hrest⟩ := bind_eq_ok.mp hnext
    simpa using ih (addDependency_counts h hmiddle) hrest

theorem foldlM_addComponent {ids : List PyStr} (components : List (PlanComponent α)) :
    ∀ {graph next : Graph} {after : PyStr → List PyStr}, Counts graph after →
      components.foldlM (addComponent ids) graph = .ok next →
        Counts next fun name => after name ++ afterOf components name := by
  induction components with
  | nil =>
    intro graph next after h hnext
    cases hnext
    simpa [afterOf] using h
  | cons item components ih =>
    intro graph next after h hnext
    rw [List.foldlM_cons] at hnext
    obtain ⟨middle, hmiddle, hrest⟩ := bind_eq_ok.mp hnext
    have hafter : (fun name => after name ++ afterOf (item :: components) name) = fun name =>
        Function.update after item.id (after item.id ++ item.after) name ++
          afterOf components name := by
      funext name
      by_cases hname : name = item.id
      · subst hname
        simp [afterOf]
      · simp [afterOf, hname, Ne.symm hname]
    rw [hafter]
    exact ih (foldlM_addDependency item.after h hmiddle) hrest

theorem counts_of_ok {ids : List PyStr} {graph : Graph}
    (h : components.foldlM (addComponent ids) ⟨fun _ => [], fun _ => 0⟩ = .ok graph) :
    Counts graph (afterOf components) := by
  have hempty : Counts ⟨fun _ => [], fun _ => 0⟩ fun _ => [] := ⟨fun _ => rfl, fun _ _ => by simp⟩
  simpa using foldlM_addComponent components hempty h

theorem addDependency_returns {ids : List PyStr} {item : PlanComponent α} (graph : Graph)
    (dependency : PyStr) : Returns (addDependency ids item graph dependency) ↔
      dependency ∈ ids ∧ dependency ≠ item.id := by
  unfold addDependency
  split_ifs with hknown hself <;> simp_all

theorem addComponent_returns {ids : List PyStr} (graph : Graph) (item : PlanComponent α) :
    Returns (addComponent ids graph item) ↔
      ∀ dependency ∈ item.after, dependency ∈ ids ∧ dependency ≠ item.id :=
  foldlM_returns_iff addDependency_returns graph

theorem foldlM_addComponent_returns {ids : List PyStr} (graph : Graph) :
    Returns (components.foldlM (addComponent ids) graph) ↔
      ∀ item ∈ components, ∀ dependency ∈ item.after, dependency ∈ ids ∧ dependency ≠ item.id :=
  foldlM_returns_iff addComponent_returns graph

theorem foldl_byId (components : List (PlanComponent α)) : ∀ d : List (PyStr × PlanComponent α),
    (d.map Prod.fst ++ components.map PlanComponent.id).Nodup →
      components.foldl (fun d item => OrderedDict.set d item.id item) d =
        d ++ components.map fun item => (item.id, item) := by
  induction components with
  | nil => simp
  | cons item components ih =>
    intro d hd
    have habsent : OrderedDict.get d item.id = none := by
      rw [OrderedDict.get_eq_none_iff]
      intro hmem
      exact (List.nodup_append.mp hd).2.2 _ hmem _ List.mem_cons_self rfl
    rw [List.foldl_cons, OrderedDict.set_of_absent habsent, ih _ (by simpa using hd)]
    simp

theorem byId_of_unique (hunique : (components.map PlanComponent.id).Nodup) :
    byId components = components.map fun item => (item.id, item) := by
  rw [byId, foldl_byId components [] (by simpa using hunique), List.nil_append]

theorem byId_keys (components : List (PlanComponent α)) : ∀ d : List (PyStr × PlanComponent α),
    (d.map Prod.fst).Nodup →
      ((components.foldl (fun d item => OrderedDict.set d item.id item) d).map Prod.fst).Nodup ∧
      (components.foldl (fun d item => OrderedDict.set d item.id item) d).map Prod.fst ⊆
        d.map Prod.fst ++ components.map PlanComponent.id := by
  induction components with
  | nil => exact fun d hd => ⟨hd, by simp⟩
  | cons item components ih =>
    intro d hd
    obtain ⟨hnodup, hsubset⟩ := ih _ (OrderedDict.nodup_set hd item.id item)
    refine ⟨hnodup, fun key hkey => ?_⟩
    rcases List.mem_append.mp (hsubset hkey) with hold | hnew
    · rcases OrderedDict.mem_keys_set hold with rfl | hold
      · simp
      · exact List.mem_append_left _ hold
    · exact List.mem_append_right _ (List.mem_cons_of_mem _ hnew)

theorem byId_length_iff : (byId components).length = components.length ↔
    (components.map PlanComponent.id).Nodup := by
  constructor
  · intro hlength
    obtain ⟨hnodup, hsubset⟩ := byId_keys components [] List.nodup_nil
    have hsubperm := List.subperm_of_subset hnodup hsubset
    have hperm := hsubperm.perm_of_length_le (by simpa [byId] using hlength.ge)
    exact hperm.nodup_iff.mp hnodup
  · intro hunique
    rw [byId_of_unique hunique, List.length_map]

/-! ## The loop over the heap -/

/-- The heap has the ids that wait and have no reference left. -/
structure Released (waiting : PyStr → Prop) (s : Emission) : Prop where
  ready : ∀ name, name ∈ s.ready ↔ waiting name ∧ s.indegree name = 0
  ascending : s.ready.Pairwise (· ≤ ·)
  nodup : s.ready.Nodup

theorem Released.release {waiting : PyStr → Prop} {s : Emission} (h : Released waiting s)
    {dependent : PyStr} (hwaiting : waiting dependent) (hpositive : 1 ≤ s.indegree dependent) :
    Released waiting (release s dependent) := by
  have hnew : dependent ∉ s.ready := by
    intro hmem
    have := ((h.ready dependent).mp hmem).2
    omega
  by_cases hcount : s.indegree dependent - 1 = 0
  · have hready : (PlanOrder.release s dependent).ready = Heap.push id s.ready dependent := by
      simp [PlanOrder.release, hcount]
    have hperm : (PlanOrder.release s dependent).ready.Perm (dependent :: s.ready) := by
      rw [hready]
      exact Heap.perm_push s.ready dependent
    refine ⟨fun name => ?_, ?_, ?_⟩
    · rw [hperm.mem_iff, List.mem_cons, h.ready]
      by_cases hname : name = dependent
      · subst hname
        simp [PlanOrder.release, hwaiting, hcount]
      · simp [PlanOrder.release, hname]
    · rw [hready]
      exact Heap.pairwise_push h.ascending dependent
    · exact hperm.nodup_iff.mpr (List.nodup_cons.mpr ⟨hnew, h.nodup⟩)
  · have hready : (PlanOrder.release s dependent).ready = s.ready := by
      simp [PlanOrder.release, hcount]
    refine ⟨fun name => ?_, hready ▸ h.ascending, hready ▸ h.nodup⟩
    rw [hready, h.ready]
    by_cases hname : name = dependent
    · subst hname
      have hpresent : s.indegree name ≠ 0 := by omega
      simp [PlanOrder.release, hcount, hpresent]
    · simp [PlanOrder.release, hname]

theorem foldl_release {waiting : PyStr → Prop} (dependents : List PyStr) : ∀ {s : Emission},
    Released waiting s → (∀ name ∈ dependents, waiting name) →
      (∀ name, (dependents.count name : ℤ) ≤ s.indegree name) →
        Released waiting (dependents.foldl release s) ∧
          (dependents.foldl release s).ordered = s.ordered ∧
          ∀ name, (dependents.foldl release s).indegree name =
            s.indegree name - dependents.count name := by
  induction dependents with
  | nil => exact fun h _ _ => ⟨h, rfl, by simp⟩
  | cons dependent dependents ih =>
    intro s h hwaiting hcount
    obtain ⟨hfirst, hrest⟩ := List.forall_mem_cons.mp hwaiting
    have hpositive : 1 ≤ s.indegree dependent := by
      have := hcount dependent
      rw [List.count_cons_self] at this
      omega
    have hindegree : ∀ name, (release s dependent).indegree name =
        s.indegree name - if name = dependent then 1 else 0 := by
      intro name
      by_cases hname : name = dependent <;> simp [release, hname]
    have hcons : ∀ name, ((dependent :: dependents).count name : ℤ) =
        dependents.count name + if name = dependent then 1 else 0 := by
      intro name
      by_cases hname : name = dependent
      · simp [hname]
      · simp [hname, Ne.symm hname]
    obtain ⟨hreleased, hordered, hafter⟩ := ih (h.release hfirst hpositive) hrest (by
      intro name
      have := hcount name
      rw [hcons] at this
      rw [hindegree]
      omega)
    refine ⟨hreleased, hordered, fun name => ?_⟩
    rw [List.foldl_cons, hafter, hindegree, hcons]
    omega

/-- What holds between two turns: the emitted ids are a greedy order, and the heap has the ids
that may come next. -/
structure Emitting (components : List (PlanComponent α)) (s : Emission) : Prop where
  nodup : s.ordered.Nodup
  known : s.ordered ⊆ components.map PlanComponent.id
  indegree : ∀ name, s.indegree name =
    (afterOf components name).countP fun dependency => dependency ∉ s.ordered
  released : Released
    (fun name => name ∈ components.map PlanComponent.id ∧ name ∉ s.ordered) s
  follows : Follows (afterOf components) s.ordered
  greedy : Greedy (afterOf components) (components.map PlanComponent.id) s.ordered

theorem Emitting.ready_iff {s : Emission} (h : Emitting components s) (name : PyStr) :
    name ∈ s.ready ↔ (name ∈ components.map PlanComponent.id ∧ name ∉ s.ordered) ∧
      afterOf components name ⊆ s.ordered := by
  rw [h.released.ready, h.indegree]
  simp only [Nat.cast_eq_zero, List.countP_eq_zero, decide_eq_true_eq, not_not]
  rfl

theorem countP_snoc {ordered : List PyStr} {name : PyStr} (hnew : name ∉ ordered)
    (names : List PyStr) : names.countP (fun other => other ∉ ordered) =
      names.countP (fun other => other ∉ ordered ++ [name]) + names.count name := by
  induction names with
  | nil => rfl
  | cons other names ih =>
    rw [List.countP_cons, List.countP_cons, List.count_cons, ih]
    by_cases hname : other = name
    · subst hname
      simp [hnew]
      omega
    · simp [hname]
      omega

theorem Emitting.turn {graph : Graph} (hcounts : Counts graph (afterOf components)) {s : Emission}
    {name : PyStr} {ready : List PyStr} (h : Emitting components s)
    (hready : s.ready = name :: ready) :
    Emitting components (emitName graph.dependents s name ready) ∧
      (emitName graph.dependents s name ready).ordered = s.ordered ++ [name] := by
  have hname : name ∈ s.ready := hready ▸ List.mem_cons_self
  obtain ⟨⟨hknown, hnew⟩, hafter⟩ := (h.ready_iff name).mp hname
  obtain ⟨hleast, hascending⟩ := List.pairwise_cons.mp (hready ▸ h.released.ascending)
  obtain ⟨hout, hnodup⟩ := List.nodup_cons.mp (hready ▸ h.released.nodup)
  have hmiddle : Released (fun other => other ∈ components.map PlanComponent.id ∧
      other ∉ s.ordered ++ [name]) { s with ready := ready, ordered := s.ordered ++ [name] } := by
    refine ⟨fun other => ?_, hascending, hnodup⟩
    have hother := h.released.ready other
    rw [hready, List.mem_cons] at hother
    by_cases heq : other = name
    · subst heq
      simp [hout]
    · simpa [heq] using hother
  have hcount : ∀ other, ((graph.dependents name).insertionSort (· ≤ ·)).count other =
      (afterOf components other).count name := by
    intro other
    rw [(List.perm_insertionSort _ _).count_eq, hcounts.dependents]
  have hwaiting : ∀ other ∈ (graph.dependents name).insertionSort (· ≤ ·),
      other ∈ components.map PlanComponent.id ∧ other ∉ s.ordered ++ [name] := by
    intro other hother
    have hreference : name ∈ afterOf components other := by
      rw [← List.count_pos_iff, ← hcount]
      exact List.count_pos_iff.mpr hother
    refine ⟨?_, fun hmem => ?_⟩
    · obtain ⟨item, hitem, rfl, -⟩ := mem_afterOf.mp hreference
      exact List.mem_map_of_mem hitem
    · rcases List.mem_append.mp hmem with hold | hlast
      · exact hnew (h.follows.subset hold hreference)
      · rw [List.mem_singleton.mp hlast] at hreference
        exact hnew (hafter hreference)
  have hle : ∀ other, (((graph.dependents name).insertionSort (· ≤ ·)).count other : ℤ) ≤
      s.indegree other := by
    intro other
    rw [h.indegree, hcount, countP_snoc hnew]
    omega
  obtain ⟨hreleased, hordered, hindegree⟩ := foldl_release _ hmiddle hwaiting hle
  have hordered : (emitName graph.dependents s name ready).ordered = s.ordered ++ [name] := hordered
  refine ⟨⟨?_, ?_, ?_, ?_, ?_, ?_⟩, hordered⟩
  · rw [hordered]
    refine List.nodup_append.mpr ⟨h.nodup, List.nodup_singleton name, ?_⟩
    intro other hother last hlast heq
    exact hnew (List.mem_singleton.mp hlast ▸ heq ▸ hother)
  · rw [hordered]
    exact List.append_subset.mpr ⟨h.known, List.cons_subset.mpr ⟨hknown, List.nil_subset _⟩⟩
  · intro other
    have hcounted := countP_snoc hnew (afterOf components other)
    have hafterwards := hindegree other
    rw [hcount] at hafterwards
    rw [hordered]
    refine hafterwards.trans ?_
    rw [h.indegree, hcounted]
    omega
  · rw [hordered]
    exact hreleased
  · rw [hordered]
    exact h.follows.snoc hafter
  · rw [hordered]
    refine h.greedy.snoc fun other hother hwaits hbefore => ?_
    have hmem := (h.ready_iff other).mpr ⟨⟨hother, hwaits⟩, hbefore⟩
    rw [hready] at hmem
    rcases List.mem_cons.mp hmem with rfl | hlater
    · exact le_rfl
    · exact hleast other hlater

/-- A run of the loop comes to an empty heap, or emits an id in each turn. -/
theorem emit_emitting {graph : Graph} (hcounts : Counts graph (afterOf components)) (turns : ℕ) :
    ∀ {s : Emission}, Emitting components s →
      Emitting components (emit graph.dependents turns s) ∧
        ((emit graph.dependents turns s).ready = [] ∨
          (emit graph.dependents turns s).ordered.length = s.ordered.length + turns) := by
  induction turns with
  | zero => exact fun h => ⟨h, .inr rfl⟩
  | succ turns ih =>
    intro s h
    cases hready : s.ready with
    | nil =>
      rw [emit, hready]
      exact ⟨h, .inl hready⟩
    | cons name ready =>
      obtain ⟨hnext, hordered⟩ := h.turn hcounts hready
      obtain ⟨hlast, hend⟩ := ih hnext
      rw [emit, hready]
      refine ⟨hlast, hend.imp_right fun hlength => ?_⟩
      rw [hlength, hordered, List.length_append, List.length_singleton]
      omega

theorem emitting_start {graph : Graph} (hcounts : Counts graph (afterOf components))
    (hunique : (components.map PlanComponent.id).Nodup) :
    Emitting components ⟨Heap.ofList id ((components.map PlanComponent.id).filter fun name =>
      graph.indegree name = 0), graph.indegree, []⟩ := by
  have hperm : (Heap.ofList id ((components.map PlanComponent.id).filter fun name =>
      graph.indegree name = 0)).Perm _ := List.perm_insertionSort _ _
  refine ⟨List.nodup_nil, List.nil_subset _, fun name => ?_, ⟨fun name => ?_, ?_, ?_⟩,
    follows_nil, greedy_nil _⟩
  · refine (hcounts.indegree name).trans ?_
    rw [List.countP_eq_length.mpr (by simp)]
  · rw [hperm.mem_iff]
    simp
  · exact List.pairwise_insertionSort _ _
  · exact hperm.nodup_iff.mpr (hunique.filter _)

theorem Emitting.perm {s : Emission} (h : Emitting components s)
    (hlength : s.ordered.length = components.length) :
    s.ordered.Perm (components.map PlanComponent.id) := by
  refine (List.subperm_of_subset h.nodup h.known).perm_of_length_le ?_
  rw [List.length_map, hlength]

/-- The loop ends with an empty heap. -/
theorem emitted {graph : Graph} (hcounts : Counts graph (afterOf components))
    {s : Emission} (h : Emitting components s) (hstart : s.ordered = []) :
    Emitting components (emit graph.dependents components.length s) ∧
      (emit graph.dependents components.length s).ready = [] := by
  obtain ⟨hlast, hend⟩ := emit_emitting hcounts components.length h
  refine ⟨hlast, ?_⟩
  rcases hend with hend | hlength
  · exact hend
  · rw [hstart, List.length_nil, Nat.zero_add] at hlength
    refine List.eq_nil_iff_forall_not_mem.mpr fun name hname => ?_
    obtain ⟨⟨hknown, hnew⟩, -⟩ := (hlast.ready_iff name).mp hname
    exact hnew ((hlast.perm hlength).mem_iff.mpr hknown)

/-- All ids are emitted exactly when the graph has no cycle. -/
theorem Emitting.length_iff {s : Emission} (h : Emitting components s) (hready : s.ready = [])
    (hunique : (components.map PlanComponent.id).Nodup)
    (hreferences : ∀ item ∈ components, ∀ dependency ∈ item.after,
      dependency ∈ components.map PlanComponent.id) :
    s.ordered.length = components.length ↔
      ∀ name, ¬ Relation.TransGen (DependsOn components) name name := by
  have hedge : DependsOn components = Edge (afterOf components) := by
    funext name dependency
    exact propext mem_afterOf.symm
  rw [hedge]
  constructor
  · intro hlength
    refine h.follows.acyclic fun name dependency hdependency => ?_
    obtain ⟨item, hitem, rfl, -⟩ := mem_afterOf.mp hdependency
    exact (h.perm hlength).mem_iff.mpr (List.mem_map_of_mem hitem)
  · intro hacyclic
    have hall : (components.map PlanComponent.id).filter (fun name => name ∉ s.ordered) = [] := by
      by_contra hleft
      obtain ⟨name, hcycle⟩ := exists_cycle hleft (by
        intro name hname
        obtain ⟨hknown, hnew⟩ := List.mem_filter.mp hname
        have hblocked : ∃ dependency ∈ afterOf components name, dependency ∉ s.ordered := by
          by_contra hnone
          push Not at hnone
          have hmem := (h.ready_iff name).mpr ⟨⟨hknown, by simpa using hnew⟩, hnone⟩
          rw [hready] at hmem
          cases hmem
        obtain ⟨dependency, hdependency, hlater⟩ := hblocked
        obtain ⟨item, hitem, -, hafter⟩ := mem_afterOf.mp hdependency
        refine ⟨dependency, List.mem_filter.mpr ⟨?_, by simpa using hlater⟩, hdependency⟩
        exact hreferences item hitem dependency hafter)
      exact hacyclic name hcycle
    have hsubset : components.map PlanComponent.id ⊆ s.ordered := by
      intro name hname
      simpa using List.filter_eq_nil_iff.mp hall name hname
    have hle := (List.subperm_of_subset hunique hsubset).length_le
    have hge := (List.subperm_of_subset h.nodup h.known).length_le
    rw [List.length_map] at hle hge
    omega

/-! ## The order of a plan -/

/-- What the compiler makes of components it accepts. -/
structure Ordered (components ordered : List (PlanComponent α)) : Prop where
  perm : ordered.Perm components
  topological : Topological ordered
  least : ∀ other, other.Perm components → Topological other →
    ordered.map PlanComponent.id ≤ other.map PlanComponent.id

theorem topological_iff (hunique : (components.map PlanComponent.id).Nodup)
    {ordered : List (PlanComponent α)} (hperm : ordered.Perm components) :
    Topological ordered ↔ Follows (afterOf components) (ordered.map PlanComponent.id) := by
  constructor
  · intro h done name rest hsplit
    obtain ⟨before, later, rfl, rfl, hlater⟩ := List.map_eq_append_iff.mp hsplit
    obtain ⟨item, after, rfl, rfl, -⟩ := List.map_eq_cons_iff.mp hlater
    have hitem : item ∈ components := hperm.mem_iff.mp (by simp)
    rw [afterOf_of_mem hunique hitem]
    exact h before item after rfl
  · intro h done item rest hsplit
    have hitem : item ∈ components := hperm.mem_iff.mp (by simp [hsplit])
    rw [← afterOf_of_mem hunique hitem]
    exact h _ _ (rest.map PlanComponent.id) (by simp [hsplit])

theorem get_byId (hunique : (components.map PlanComponent.id).Nodup) {item : PlanComponent α}
    (hitem : item ∈ components) : OrderedDict.get (byId components) item.id = some item := by
  rw [byId_of_unique hunique]
  refine (OrderedDict.get_eq_some_iff ?_).mpr (List.mem_map_of_mem hitem)
  rw [List.map_map]
  exact hunique

/-- The dictionary gives the components back. -/
theorem filterMap_map_id (hunique : (components.map PlanComponent.id).Nodup)
    {items : List (PlanComponent α)} (hitems : items ⊆ components) :
    (items.map PlanComponent.id).filterMap (OrderedDict.get (byId components)) = items := by
  induction items with
  | nil => rfl
  | cons item items ih =>
    obtain ⟨hitem, hrest⟩ := List.cons_subset.mp hitems
    rw [List.map_cons, List.filterMap_cons_some (get_byId hunique hitem), ih hrest]

theorem exists_items (hunique : (components.map PlanComponent.id).Nodup) {names : List PyStr}
    (hnames : names.Perm (components.map PlanComponent.id)) :
    ∃ items, items.Perm components ∧ items.map PlanComponent.id = names ∧
      names.filterMap (OrderedDict.get (byId components)) = items := by
  have hperm : (names.filterMap (OrderedDict.get (byId components))).Perm components := by
    have hfiltered := hnames.filterMap (OrderedDict.get (byId components))
    rwa [filterMap_map_id hunique (List.Subset.refl components)] at hfiltered
  refine ⟨_, hperm, ?_, rfl⟩
  have hall : ∀ name ∈ names, ∃ item, OrderedDict.get (byId components) name = some item ∧
      item.id = name := by
    intro name hname
    obtain ⟨item, hitem, rfl⟩ := List.mem_map.mp (hnames.mem_iff.mp hname)
    exact ⟨item, get_byId hunique hitem, rfl⟩
  clear hperm hnames
  induction names with
  | nil => rfl
  | cons name names ih =>
    obtain ⟨item, hitem, hid⟩ := hall name List.mem_cons_self
    rw [List.filterMap_cons_some hitem, List.map_cons, hid,
      ih fun other hother => hall other (List.mem_cons_of_mem name hother)]

/-- By ids the order of a plan is the least one. -/
theorem Ordered.least_ids (hunique : (components.map PlanComponent.id).Nodup)
    {ordered : List (PlanComponent α)} (h : Ordered components ordered) :
    Least (afterOf components) (components.map PlanComponent.id)
      (ordered.map PlanComponent.id) where
  perm := h.perm.map _
  follows := (topological_iff hunique h.perm).mp h.topological
  least other hother hfollows := by
    obtain ⟨items, hitems, rfl, -⟩ := exists_items hunique hother
    exact h.least items hitems ((topological_iff hunique hitems).mpr hfollows)

theorem Orderable.of_ok {ordered : List (PlanComponent α)}
    (h : topologicalComponents components = .ok ordered) :
    Orderable components ∧ Ordered components ordered := by
  unfold topologicalComponents at h
  dsimp only at h
  split_ifs at h with hlength hcritical
  have hunique := byId_length_iff.mp (not_not.mp hlength)
  have hids : (byId components).map Prod.fst = components.map PlanComponent.id := by
    simp [byId_of_unique hunique]
  rw [hids] at h
  obtain ⟨graph, hgraph, h⟩ := bind_eq_ok.mp h
  have hreferences := (foldlM_addComponent_returns _).mp ⟨graph, hgraph⟩
  have hcounts := counts_of_ok hgraph
  obtain ⟨hlast, hready⟩ := emitted hcounts (emitting_start hcounts hunique) rfl
  split_ifs at h with hall
  have hall := not_not.mp hall
  have hperm := hlast.perm hall
  obtain ⟨items, hitems, hnames, hfound⟩ := exists_items hunique hperm
  have hordered : items = ordered := by
    rw [← hfound]
    exact Except.ok.inj h
  subst hordered
  refine ⟨⟨hunique, ?_, hreferences, ?_⟩, hitems, ?_, fun other hother htopological => ?_⟩
  · simpa using hcritical
  · have hknown := fun item hitem d hd => (hreferences item hitem d hd).1
    exact (hlast.length_iff hready hunique hknown).mp hall
  · rw [topological_iff hunique hitems, hnames]
    exact hlast.follows
  · have hfollows := (topological_iff hunique hother).mp htopological
    rw [hnames]
    exact hlast.greedy.le hperm hunique (hother.map _) hfollows

theorem Orderable.returns (h : Orderable components) :
    Returns (topologicalComponents components) := by
  unfold topologicalComponents
  dsimp only
  have hids : (byId components).map Prod.fst = components.map PlanComponent.id := by
    simp [byId_of_unique h.unique]
  have hcritical : ¬ components.any PlanComponent.critical = false := by
    simpa using h.critical
  rw [if_neg (not_not.mpr (byId_length_iff.mpr h.unique)), if_neg hcritical, hids, returns_bind]
  obtain ⟨graph, hgraph⟩ := (foldlM_addComponent_returns ⟨fun _ => [], fun _ => 0⟩).mpr h.references
  have hcounts := counts_of_ok hgraph
  refine ⟨graph, hgraph, ?_⟩
  obtain ⟨hlast, hready⟩ := emitted hcounts (emitting_start hcounts h.unique) rfl
  have hknown := fun item hitem d hd => (h.references item hitem d hd).1
  have hall := (hlast.length_iff hready h.unique hknown).mpr h.acyclic
  rw [if_neg (not_not.mpr hall)]
  exact returns_pure _

theorem Orderable.perm (h : Orderable components) {input : List (PlanComponent α)}
    (hperm : input.Perm components) : Orderable input := by
  have hdepends : DependsOn input = DependsOn components := by
    funext name dependency
    exact propext (exists_congr fun item => and_congr_left fun _ => hperm.mem_iff)
  refine ⟨(hperm.map _).nodup_iff.mpr h.unique, ?_, fun item hitem d hd => ?_, hdepends ▸ h.acyclic⟩
  · obtain ⟨item, hitem, hcritical⟩ := h.critical
    exact ⟨item, hperm.mem_iff.mpr hitem, hcritical⟩
  · obtain ⟨hknown, hself⟩ := h.references item (hperm.mem_iff.mp hitem) d hd
    exact ⟨(hperm.map _).mem_iff.mpr hknown, hself⟩

/-- Components are accepted exactly when they can be put in order; the result is the least
such order by ids, whatever the order of the input. -/
theorem topologicalComponents_exact {α : Type} (components : List (PlanComponent α)) :
    (Returns (topologicalComponents components) ↔ Orderable components) ∧
    ∀ ordered, topologicalComponents components = .ok ordered →
      Ordered components ordered ∧
      ∀ input : List (PlanComponent α), input.Perm components →
        topologicalComponents input = .ok ordered := by
  refine ⟨⟨fun ⟨_, h⟩ => (Orderable.of_ok h).1, Orderable.returns⟩, fun ordered h => ?_⟩
  obtain ⟨horderable, hordered⟩ := Orderable.of_ok h
  refine ⟨hordered, fun input hinput => ?_⟩
  obtain ⟨result, hresult⟩ := (horderable.perm hinput).returns
  obtain ⟨-, hother⟩ := Orderable.of_ok hresult
  have hperm := hother.perm.trans hinput
  have hids : result.map PlanComponent.id = ordered.map PlanComponent.id :=
    le_antisymm (hother.least ordered (hordered.perm.trans hinput.symm) hordered.topological)
      (hordered.least result hperm hother.topological)
  have hsame : result = ordered := by
    rw [← filterMap_map_id horderable.unique hperm.subset, hids,
      filterMap_map_id horderable.unique hordered.perm.subset]
  rw [hresult, hsame]

end

end MsysCore.Native.PlanOrder
