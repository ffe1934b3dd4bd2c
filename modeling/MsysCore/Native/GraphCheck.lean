import MsysCore.Lib.LeastOrder
import MsysCore.Lib.MarkedSearch
import MsysCore.Native.PlanGraph

/-!
# What `validate_graph` accepts

`visit` is a search with marks over the numbers of the components. It goes through exactly if no
component comes after itself, and so every accepted plan can be started in some order.
-/

namespace MsysCore.Native.PlanText

open MarkedSearch

local instance lawfulBEqIds : LawfulBEq Bytes := inferInstance

/-- `before` is to be started before the component with the other id. -/
def DependsOn (components : List ComponentPlan) (before id : Bytes) : Prop :=
  ∃ component ∈ components, component.id = id ∧ before ∈ component.after

/-- Components that can be started one after another. -/
structure Startable (components : List ComponentPlan) : Prop where
  unique : (components.map ComponentPlan.id).Nodup
  critical : ∃ component ∈ components, component.critical = true
  distinct : ∀ component ∈ components, component.after.Nodup
  known : ∀ component ∈ components, component.after ⊆ components.map ComponentPlan.id
  ordered : WellFounded (DependsOn components)

variable {components : List ComponentPlan}

/-! ## The checks of ids -/

theorem checkIds_iff {byId : List Bytes} : checkIds byId components = .ok () ↔
    (components.map ComponentPlan.id).Nodup ∧
      ∀ component ∈ components, component.id ∉ byId := by
  induction components generalizing byId with
  | nil => simp [checkIds]
  | cons component rest ih =>
    rw [checkIds, List.map_cons, List.nodup_cons, List.forall_mem_cons]
    by_cases hmem : component.id ∈ byId
    · simp [hmem]
    · rw [if_neg hmem, ih]
      constructor
      · rintro ⟨hrest, hnew⟩
        have hfirst : component.id ∉ rest.map ComponentPlan.id := by
          intro hin
          obtain ⟨other, hother, hid⟩ := List.mem_map.mp hin
          exact hnew other hother (hid ▸ List.mem_cons_self)
        exact ⟨⟨hfirst, hrest⟩, hmem, fun other hother hin =>
          hnew other hother (List.mem_cons_of_mem _ hin)⟩
      · rintro ⟨⟨hfirst, hrest⟩, -, hnew⟩
        refine ⟨hrest, fun other hother hin => ?_⟩
        rcases List.mem_cons.mp hin with heq | hin
        · exact hfirst (heq ▸ List.mem_map_of_mem hother)
        · exact hnew other hother hin

theorem checkDependencies_iff {byId : List Bytes} {id : Bytes} {after unique : List Bytes} :
    checkDependencies byId id unique after = .ok () ↔
      after.Nodup ∧ ∀ dependency ∈ after,
        dependency ∈ byId ∧ dependency ≠ id ∧ dependency ∉ unique := by
  induction after generalizing unique with
  | nil => simp [checkDependencies]
  | cons dependency rest ih =>
    rw [checkDependencies, List.nodup_cons, List.forall_mem_cons]
    by_cases hknown : dependency ∈ byId
    · by_cases hself : dependency = id
      · rw [if_neg (not_not.mpr hknown), if_pos hself]
        simp [hself]
      · by_cases hunique : dependency ∈ unique
        · rw [if_neg (not_not.mpr hknown), if_neg hself, if_pos hunique]
          simp [hunique]
        · rw [if_neg (not_not.mpr hknown), if_neg hself, if_neg hunique, ih]
          constructor
          · rintro ⟨hrest, hall⟩
            have hfirst : dependency ∉ rest := fun hin =>
              (hall dependency hin).2.2 List.mem_cons_self
            refine ⟨⟨hfirst, hrest⟩, ⟨hknown, hself, hunique⟩, fun other hother => ?_⟩
            obtain ⟨hin, hne, hnew⟩ := hall other hother
            exact ⟨hin, hne, fun hmem => hnew (List.mem_cons_of_mem _ hmem)⟩
          · rintro ⟨⟨hfirst, hrest⟩, -, hall⟩
            refine ⟨hrest, fun other hother => ?_⟩
            obtain ⟨hin, hne, hnew⟩ := hall other hother
            refine ⟨hin, hne, fun hmem => ?_⟩
            rcases List.mem_cons.mp hmem with heq | hmem
            · exact hfirst (heq ▸ hother)
            · exact hnew hmem
    · simp [hknown]

/-! ## The search -/

/-- The marks of `validate_graph`. -/
def marking : Marking ℕ (ℕ → Mark) where
  active marks index := marks index = .active
  finished marks index := marks index = .finished
  enter marks index := Function.update marks index .active
  leave marks index := Function.update marks index .finished
  active_enter marks a b := by
    by_cases h : b = a <;> simp [h]
  finished_enter marks a b hfinished := by
    by_cases h : b = a <;> simp [h, hfinished]
  active_leave marks a b := by
    by_cases h : b = a <;> simp [h]
  finished_leave marks a b := by
    by_cases h : b = a <;> simp [h]

def afterOf (components : List ComponentPlan) (index : ℕ) : List Bytes :=
  (components[index]?.map ComponentPlan.after).getD []

/-- The number of a component that is known to be there. -/
def indexOf (components : List ComponentPlan) (id : Bytes) : ℕ :=
  (components.findIdx? fun component => component.id == id).getD 0

/-- The numbers that `visit` goes on to. -/
def successors (components : List ComponentPlan) (index : ℕ) : List ℕ :=
  (afterOf components index).map (indexOf components)

theorem findIdx_of_known {id : Bytes} (h : id ∈ components.map ComponentPlan.id) :
    (components.findIdx? fun component => component.id == id) = some (indexOf components id) ∧
      ∃ component ∈ components, components[indexOf components id]? = some component ∧
        component.id = id := by
  obtain ⟨component, hcomponent, hid⟩ := List.mem_map.mp h
  have hsome : (components.findIdx? fun component => component.id == id).isSome := by
    rw [List.findIdx?_isSome, List.any_eq_true]
    exact ⟨component, hcomponent, by simpa using hid⟩
  obtain ⟨index, hindex⟩ := Option.isSome_iff_exists.mp hsome
  have hindexOf : indexOf components id = index := by rw [indexOf, hindex, Option.getD_some]
  obtain ⟨hlt, hfound, -⟩ := List.findIdx?_eq_some_iff_getElem.mp hindex
  rw [hindexOf]
  exact ⟨hindex, components[index], List.getElem_mem hlt, List.getElem?_eq_getElem hlt,
    by simpa using hfound⟩

theorem mem_afterOf {index : ℕ} {dependency : Bytes} :
    dependency ∈ afterOf components index ↔
      ∃ component, components[index]? = some component ∧ dependency ∈ component.after := by
  unfold afterOf
  cases components[index]? <;> simp

theorem foldlM_dependencies (fuel : ℕ) {after : List Bytes}
    (hknown : after ⊆ components.map ComponentPlan.id) : ∀ marks : ℕ → Mark,
      after.foldlM (visitDependency components (visit components fuel)) marks
        = (after.map (indexOf components)).foldlM (visit components fuel) marks := by
  induction after with
  | nil => exact fun _ => rfl
  | cons dependency rest ih =>
    intro marks
    obtain ⟨hfirst, hrest⟩ := List.cons_subset.mp hknown
    obtain ⟨hfind, -⟩ := findIdx_of_known hfirst
    rw [List.map_cons, List.foldlM_cons, List.foldlM_cons]
    have hturn : visitDependency components (visit components fuel) marks dependency
        = visit components fuel marks (indexOf components dependency) := by
      rw [visitDependency, hfind]
    rw [hturn]
    exact congrArg _ (funext fun marks => ih hrest marks)

/-- `visit` is such a search. -/
theorem visits_marks
    (hknown : ∀ component ∈ components, component.after ⊆ components.map ComponentPlan.id) :
    Visits marking (successors components) (visit components) where
  deep marks index := by
    rintro ⟨after, h⟩
    cases h
  active fuel marks index hactive := by
    have hmark : marks index = .active := hactive
    rintro ⟨after, h⟩
    rw [visit, hmark] at h
    cases h
  finished fuel marks index _ hfinished := by
    have hmark : marks index = .finished := hfinished
    rw [visit, hmark]
  unseen fuel marks index hactive hfinished := by
    have hmark : marks index = .unseen := by
      cases hindex : marks index with
      | unseen => rfl
      | active => exact absurd hindex hactive
      | finished => exact absurd hindex hfinished
    have hafter : afterOf components index ⊆ components.map ComponentPlan.id := by
      intro dependency hdependency
      obtain ⟨component, hcomponent, hmem⟩ := mem_afterOf.mp hdependency
      exact hknown component (List.mem_of_getElem? hcomponent) hmem
    have hfold := foldlM_dependencies fuel hafter (marking.enter marks index)
    rw [visit, hmark]
    exact congrArg (· >>= fun marks => .ok (marking.leave marks index)) hfold

/-! ## Numbers and ids -/

section

variable (hknown : ∀ component ∈ components, component.after ⊆ components.map ComponentPlan.id)

include hknown

theorem ends_of_acc {id : Bytes} (h : Acc (DependsOn components) id) :
    ∀ index component, components[index]? = some component → component.id = id →
      Ends (successors components) index := by
  induction h with
  | intro id _ ih =>
    intro index component hcomponent hid
    refine ⟨_, fun next hnext => ?_⟩
    obtain ⟨dependency, hdependency, rfl⟩ := List.mem_map.mp hnext
    obtain ⟨found, hfound, hmem⟩ := mem_afterOf.mp hdependency
    cases hcomponent.symm.trans hfound
    have hin := List.mem_of_getElem? hcomponent
    obtain ⟨-, target, -, htarget, hname⟩ := findIdx_of_known (hknown component hin hmem)
    exact ih dependency ⟨component, hin, hid, hmem⟩ _ target htarget hname

variable (hunique : (components.map ComponentPlan.id).Nodup)

include hunique

theorem acc_of_ends {index : ℕ} (h : Ends (successors components) index) :
    ∀ component, components[index]? = some component →
      Acc (DependsOn components) component.id := by
  induction h with
  | intro index _ ih =>
    intro component hcomponent
    refine ⟨_, fun dependency hdependency => ?_⟩
    obtain ⟨other, hother, hid, hmem⟩ := hdependency
    have hin := List.mem_of_getElem? hcomponent
    have hsame : other = component := List.inj_on_of_nodup_map hunique hother hin hid
    subst hsame
    obtain ⟨-, target, -, htarget, hname⟩ := findIdx_of_known (hknown other hin hmem)
    rw [← hname]
    refine ih _ (List.mem_map_of_mem (mem_afterOf.mpr ⟨other, hcomponent, hmem⟩)) target htarget

/-- Every number ends exactly if the ids are in order. -/
theorem ends_iff : (∀ index ∈ List.range components.length, Ends (successors components) index) ↔
    WellFounded (DependsOn components) := by
  constructor
  · intro h
    refine ⟨fun id => ⟨_, fun dependency hdependency => ?_⟩⟩
    obtain ⟨component, hcomponent, -, hmem⟩ := hdependency
    obtain ⟨-, target, -, htarget, hname⟩ := findIdx_of_known (hknown component hcomponent hmem)
    obtain ⟨hlt, -⟩ := List.getElem?_eq_some_iff.mp htarget
    rw [← hname]
    exact acc_of_ends hknown hunique (h _ (List.mem_range.mpr hlt)) target htarget
  · intro h index hindex
    have hlt := List.mem_range.mp hindex
    exact ends_of_acc hknown (h.apply components[index].id) index components[index]
      (List.getElem?_eq_getElem hlt) rfl

theorem visits_iff : Returns ((List.range components.length).foldlM
      (visit components (components.length + 1)) fun _ => .unseen) ↔
    WellFounded (DependsOn components) := by
  have hclosed : ∀ a ∈ Finset.range components.length, ∀ b ∈ successors components a,
      b ∈ Finset.range components.length := by
    intro index _ next hnext
    obtain ⟨dependency, hdependency, rfl⟩ := List.mem_map.mp hnext
    obtain ⟨component, hcomponent, hmem⟩ := mem_afterOf.mp hdependency
    have hin := List.mem_of_getElem? hcomponent
    obtain ⟨-, target, -, htarget, -⟩ := findIdx_of_known (hknown component hin hmem)
    exact Finset.mem_range.mpr (List.getElem?_eq_some_iff.mp htarget).1
  have hsearch := (visits_marks hknown).search_iff hclosed (components.length + 1)
    (fun _ => Mark.unseen) (List.range components.length)
    (fun index => by rw [List.mem_range, Finset.mem_range])
    (fun index h => by cases h) (fun index h => by cases h) (by rw [Finset.card_range]; omega)
  rw [hsearch, ends_iff hknown hunique]

end

theorem refuse_iff {bad : Bool} {detail : String} : refuse bad detail = .ok () ↔ bad = false := by
  cases bad <;> simp [refuse]

theorem validateGraph_startable (plan : RuntimePlan) :
    validateGraph plan = .ok () ↔ Startable plan.components := by
  have hcritical : (!plan.components.any ComponentPlan.critical) = false ↔
      ∃ component ∈ plan.components, component.critical = true := by
    rw [Bool.not_eq_false', List.any_eq_true]
  unfold validateGraph
  constructor
  · intro h
    obtain ⟨⟨⟩, hids, h⟩ := bind_eq_ok.mp h
    obtain ⟨⟨⟩, hany, h⟩ := bind_eq_ok.mp h
    obtain ⟨⟨⟩, hchecks, h⟩ := bind_eq_ok.mp h
    obtain ⟨marks, hmarks, -⟩ := bind_eq_ok.mp h
    obtain ⟨hunique, -⟩ := checkIds_iff.mp hids
    have hdependencies := fun component hcomponent =>
      checkDependencies_iff.mp (forM_eq_ok.mp hchecks component hcomponent)
    have hknown : ∀ component ∈ plan.components,
        component.after ⊆ plan.components.map ComponentPlan.id :=
      fun component hcomponent dependency hdependency =>
        ((hdependencies component hcomponent).2 dependency hdependency).1
    exact
      { unique := hunique
        critical := hcritical.mp (refuse_iff.mp hany)
        distinct := fun component hcomponent => (hdependencies component hcomponent).1
        known := hknown
        ordered := (visits_iff hknown hunique).mp ⟨marks, hmarks⟩ }
  · intro h
    obtain ⟨marks, hmarks⟩ := (visits_iff h.known h.unique).mpr h.ordered
    have hids : checkIds [] plan.components = .ok () :=
      checkIds_iff.mpr ⟨h.unique, fun _ _ => List.not_mem_nil⟩
    refine bind_eq_ok.mpr ⟨(), hids, ?_⟩
    refine bind_eq_ok.mpr ⟨(), refuse_iff.mpr (hcritical.mpr h.critical), ?_⟩
    refine bind_eq_ok.mpr ⟨⟨⟩, forM_eq_ok.mpr fun component hcomponent => ?_, ?_⟩
    · refine checkDependencies_iff.mpr ⟨h.distinct component hcomponent, ?_⟩
      intro dependency hdependency
      refine ⟨h.known component hcomponent hdependency, ?_, List.not_mem_nil⟩
      rintro rfl
      exact h.ordered.irrefl.irrefl _ ⟨component, hcomponent, rfl, hdependency⟩
    · exact bind_eq_ok.mpr ⟨marks, hmarks, rfl⟩

/-! ## The order of the starts -/

def dependencies (components : List ComponentPlan) (id : Bytes) : List Bytes :=
  components.flatMap fun component => if component.id = id then component.after else []

theorem mem_dependencies {before id : Bytes} :
    before ∈ dependencies components id ↔ DependsOn components before id := by
  rw [dependencies, List.mem_flatMap]
  constructor
  · rintro ⟨component, hcomponent, hmem⟩
    split_ifs at hmem with hid
    · exact ⟨component, hcomponent, hid, hmem⟩
    · cases hmem
  · rintro ⟨component, hcomponent, hid, hmem⟩
    exact ⟨component, hcomponent, by rwa [if_pos hid]⟩

/-- Nothing is known of ids that no component has, so nothing comes before them. -/
theorem wellFounded_of_follows {order : List Bytes}
    (horder : order.Perm (components.map ComponentPlan.id))
    (h : LeastOrder.Follows (dependencies components) order) :
    WellFounded (DependsOn components) := by
  refine ⟨fun id => ⟨_, fun before hbefore => ?_⟩⟩
  have hacc : Acc (fun before id => before ∈ dependencies components id) before := by
    have hid : id ∈ order := by
      obtain ⟨component, hcomponent, hid, -⟩ := hbefore
      exact horder.mem_iff.mpr (hid ▸ List.mem_map_of_mem hcomponent)
    exact h.acc before (h.subset hid (mem_dependencies.mpr hbefore))
  exact Subrelation.accessible (fun hdepends => mem_dependencies.mpr hdepends) hacc

/-- `validate_graph` accepts a plan exactly if its ids differ, some component is critical, none
names another twice, and there is an order of all components in which each of them comes after
every other one that it names. -/
theorem validateGraph_iff (plan : RuntimePlan) : validateGraph plan = .ok () ↔
    (plan.components.map ComponentPlan.id).Nodup ∧
      (∃ component ∈ plan.components, component.critical = true) ∧
      (∀ component ∈ plan.components, component.after.Nodup) ∧
      ∃ order : List Bytes, order.Perm (plan.components.map ComponentPlan.id) ∧
        LeastOrder.Follows (dependencies plan.components) order := by
  rw [validateGraph_startable]
  constructor
  · intro h
    refine ⟨h.unique, h.critical, h.distinct, LeastOrder.exists_follows h.unique ?_ ?_⟩
    · intro id _ before hbefore
      obtain ⟨component, hcomponent, -, hmem⟩ := mem_dependencies.mp hbefore
      exact h.known component hcomponent hmem
    · exact fun id _ => Subrelation.accessible (fun hedge => mem_dependencies.mp hedge)
        (h.ordered.apply id)
  · rintro ⟨hunique, hcritical, hdistinct, order, horder, hfollows⟩
    refine ⟨hunique, hcritical, hdistinct, fun component hcomponent before hbefore => ?_,
      wellFounded_of_follows horder hfollows⟩
    have hid : component.id ∈ order := horder.mem_iff.mpr (List.mem_map_of_mem hcomponent)
    exact horder.subset (hfollows.subset hid
      (mem_dependencies.mpr ⟨component, hcomponent, rfl, hbefore⟩))

end MsysCore.Native.PlanText
