import MsysCore.Native.PlanText

/-!
# The graph of an ordered plan

`validate_graph` lets a plan through whose components come after their dependencies. The search
then finds every dependency finished and never goes deeper than one call.
-/

namespace MsysCore.Native.PlanText

variable {components : List ComponentPlan}

/-- Components in an order of their `after` lists. -/
structure InOrder (components : List ComponentPlan) : Prop where
  unique : (components.map ComponentPlan.id).Nodup
  distinct : ∀ component ∈ components, component.after.Nodup
  topological : ∀ before component after, components = before ++ component :: after →
    component.after ⊆ before.map ComponentPlan.id

theorem checkIds_ok {byId : List Bytes}
    (h : (byId ++ components.map ComponentPlan.id).Nodup) : checkIds byId components = .ok () := by
  induction components generalizing byId with
  | nil => rfl
  | cons component rest ih =>
    rw [List.map_cons] at h
    have hperm : (byId ++ component.id :: rest.map ComponentPlan.id).Perm
        (component.id :: byId ++ rest.map ComponentPlan.id) := List.perm_middle
    have hnodup := hperm.nodup_iff.mp h
    have hnew : component.id ∉ byId := fun hmem =>
      (List.nodup_cons.mp hnodup).1 (List.mem_append_left _ hmem)
    rw [checkIds, if_neg hnew]
    exact ih hnodup

theorem checkDependencies_ok {byId : List Bytes} {id : Bytes} {after unique : List Bytes}
    (hknown : ∀ dependency ∈ after, dependency ∈ byId ∧ dependency ≠ id)
    (hnodup : (unique ++ after).Nodup) : checkDependencies byId id unique after = .ok () := by
  induction after generalizing unique with
  | nil => rfl
  | cons dependency rest ih =>
    obtain ⟨⟨hmem, hself⟩, hrest⟩ := List.forall_mem_cons.mp hknown
    have hperm : (unique ++ dependency :: rest).Perm (dependency :: unique ++ rest) :=
      List.perm_middle
    have hcons := hperm.nodup_iff.mp hnodup
    have hnew : dependency ∉ unique := fun hmem =>
      (List.nodup_cons.mp hcons).1 (List.mem_append_left _ hmem)
    rw [checkDependencies, if_neg (not_not.mpr hmem), if_neg hself, if_neg hnew]
    exact ih hrest hcons

/-- The first components are finished, the others have not been seen. -/
def finished (count : ℕ) : ℕ → Mark := fun index =>
  if index < count then .finished else .unseen

theorem finished_succ (count : ℕ) :
    Function.update (Function.update (finished count) count .active) count .finished
      = finished (count + 1) := by
  funext index
  rw [Function.update_idem]
  by_cases h : index = count
  · rw [h, Function.update_self, finished, if_pos (Nat.lt_succ_self count)]
  · rw [Function.update_of_ne h, finished, finished]
    have hiff : index < count ↔ index < count + 1 := by omega
    simp only [hiff]

/-- A dependency that comes earlier is found there. -/
theorem findIdx_earlier {before : List ComponentPlan} {id : Bytes} (after : List ComponentPlan)
    (h : id ∈ before.map ComponentPlan.id) :
    ∃ index < before.length,
      (before ++ after).findIdx? (fun component => component.id == id) = some index := by
  obtain ⟨component, hcomponent, hid⟩ := List.mem_map.mp h
  have hsome : (before.findIdx? fun component => component.id == id).isSome := by
    rw [List.findIdx?_isSome, List.any_eq_true]
    exact ⟨component, hcomponent, by simpa using hid⟩
  obtain ⟨index, hindex⟩ := Option.isSome_iff_exists.mp hsome
  refine ⟨index, (List.findIdx?_eq_some_iff_getElem.mp hindex).1, ?_⟩
  rw [List.findIdx?_append, hindex]
  rfl

theorem visit_ok {before after : List ComponentPlan} {component : ComponentPlan} (fuel : ℕ)
    (hsplit : components = before ++ component :: after)
    (hafter : component.after ⊆ before.map ComponentPlan.id) :
    visit components (fuel + 2) (finished before.length) before.length
      = .ok (finished (before.length + 1)) := by
  have hself : finished before.length before.length = .unseen := if_neg (Nat.lt_irrefl _)
  have hcomponent : components[before.length]? = some component := by
    rw [hsplit, List.getElem?_append_right (Nat.le_refl _), Nat.sub_self, List.getElem?_cons_zero]
  have hturn : ∀ dependency ∈ component.after,
      visitDependency components (visit components (fuel + 1))
        (Function.update (finished before.length) before.length .active) dependency
      = .ok (Function.update (finished before.length) before.length .active) := by
    intro dependency hdependency
    obtain ⟨index, hindex, hfind⟩ := findIdx_earlier (component :: after)
      (hafter hdependency)
    rw [← hsplit] at hfind
    rw [visitDependency, hfind]
    have hmark : Function.update (finished before.length) before.length Mark.active index
        = .finished := by
      rw [Function.update_of_ne hindex.ne, finished, if_pos hindex]
    simp only [visit, hmark]
  have hfold : ∀ dependencies ⊆ component.after,
      dependencies.foldlM (visitDependency components (visit components (fuel + 1)))
        (Function.update (finished before.length) before.length .active)
      = .ok (Function.update (finished before.length) before.length .active) := by
    intro dependencies
    induction dependencies with
    | nil => exact fun _ => rfl
    | cons dependency rest ih =>
      intro hsub
      rw [List.foldlM_cons]
      refine bind_eq_ok.mpr ⟨_, hturn dependency (hsub List.mem_cons_self), ?_⟩
      exact ih fun d hd => hsub (List.mem_cons_of_mem _ hd)
  rw [visit, hself]
  simp only [hcomponent, Option.map_some, Option.getD_some]
  refine bind_eq_ok.mpr ⟨_, hfold _ (List.Subset.refl _), ?_⟩
  rw [finished_succ]

theorem visits_ok (h : InOrder components) (fuel : ℕ) : ∀ before after,
    components = before ++ after →
      (List.range before.length).foldlM (visit components (fuel + 2)) (finished 0)
        = .ok (finished before.length) := by
  intro before
  induction before using List.reverseRecOn with
  | nil => exact fun _ _ => rfl
  | append_singleton before component ih =>
    intro after hsplit
    rw [List.append_assoc, List.singleton_append] at hsplit
    rw [List.length_append, List.length_singleton, List.range_succ, List.foldlM_append]
    refine bind_eq_ok.mpr ⟨_, ih _ hsplit, ?_⟩
    rw [List.foldlM_cons]
    refine bind_eq_ok.mpr ⟨_, visit_ok fuel hsplit (h.topological _ _ _ hsplit), rfl⟩

theorem InOrder.known (h : InOrder components) : ∀ component ∈ components,
    ∀ dependency ∈ component.after,
      dependency ∈ components.map ComponentPlan.id ∧ dependency ≠ component.id := by
  intro component hcomponent dependency hdependency
  obtain ⟨before, after, hsplit⟩ := List.append_of_mem hcomponent
  have hbefore := h.topological before component after hsplit hdependency
  have hnodup := h.unique
  rw [hsplit, List.map_append, List.map_cons] at hnodup ⊢
  refine ⟨List.mem_append_left _ hbefore, ?_⟩
  exact (List.nodup_append.mp hnodup).2.2 _ hbefore _ List.mem_cons_self

theorem validateGraph_ok {plan : RuntimePlan} (h : InOrder plan.components)
    (hcritical : ∃ component ∈ plan.components, component.critical = true) :
    validateGraph plan = .ok () := by
  obtain ⟨critical, hmem, hcritical⟩ := hcritical
  have hany : plan.components.any ComponentPlan.critical = true :=
    List.any_eq_true.mpr ⟨critical, hmem, hcritical⟩
  obtain ⟨fuel, hfuel⟩ := Nat.exists_eq_succ_of_ne_zero (List.length_pos_of_mem hmem).ne'
  unfold validateGraph
  refine bind_eq_ok.mpr ⟨(), checkIds_ok h.unique, ?_⟩
  refine bind_eq_ok.mpr ⟨(), by rw [hany]; rfl, ?_⟩
  refine bind_eq_ok.mpr ⟨⟨⟩, forM_eq_ok.mpr fun component hcomponent => ?_, ?_⟩
  · exact checkDependencies_ok (h.known component hcomponent) (h.distinct component hcomponent)
  · have hvisits := visits_ok h fuel plan.components [] (List.append_nil _).symm
    have hstart : finished 0 = fun _ => Mark.unseen :=
      funext fun index => if_neg (Nat.not_lt_zero _)
    rw [hstart] at hvisits
    have hdepth : plan.components.length + 1 = fuel + 2 := by rw [hfuel]
    rw [hdepth]
    exact bind_eq_ok.mpr ⟨_, hvisits, rfl⟩

end MsysCore.Native.PlanText
