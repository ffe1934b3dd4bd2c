import MsysCore.Core.CatalogReload

/-!
# What a reload proves

A reload that returns has replaced every affected component that ran before by a later generation
of the new catalog, unless the component was not part of the old catalog and still ran. A reload
that raises lists what ran before.
-/

namespace MsysCore.Core.CatalogReload

open Python Runs Supervisor

/-! ## Local variables -/

@[simp] theorem mem_sortedSet {keys : List PyStr} {key : PyStr} :
    key ∈ sortedSet keys ↔ key ∈ keys := by
  rw [sortedSet, List.mem_insertionSort, List.mem_dedup]

theorem nodup_sortedSet (keys : List PyStr) : (sortedSet keys).Nodup :=
  (List.perm_insertionSort _ _).nodup_iff.mpr (List.nodup_dedup keys)

/-- What the commit section knows of its local variables. -/
structure PlanInv (plan : Plan) : Prop where
  bound : ∀ i inst, plan.before.heap i = some inst →
    inst.generation ≤ plan.before.generations inst.key
  changed : ∀ key ∈ plan.changed, has plan.replacement key = true
  removed : ∀ key ∈ plan.removed, has plan.replacement key = false
  added : ∀ key ∈ plan.added, key ∉ plan.changed ++ plan.removed
  runtime : ∀ key, key ∈ plan.runtimeBefore ↔
    key ∈ plan.changed ++ plan.removed ∧ isActive plan.before key = true
  restart : ∀ key, key ∈ plan.restartTargets ↔
    (key ∈ plan.runtimeBefore ∧ has plan.replacement key = true) ∨
      key ∈ requestedResume plan.transaction
  distinct : plan.restartTargets.Nodup
  floors : plan.generationFloor = (plan.restartTargets.filter fun key =>
    key ∈ plan.changed ++ plan.added).map fun key =>
      (key, max (plan.before.generations key) (instanceGeneration plan.before key))
  rollback : ∀ key, key ∈ plan.rollbackResume ↔
    key ∈ plan.runtimeBefore ∨ key ∈ requestedResume plan.transaction

theorem planInv_planOf {s : Supervisor} (hinv : GenerationInv s) (previous replacement : Entries)
    (registry : RoleRegistry) (transaction : Option Transaction) (verifyHealth : Bool)
    (consumers : List PyStr) :
    PlanInv (planOf s previous replacement registry transaction verifyHealth consumers) where
  bound := hinv.bound
  changed := by
    intro key hkey
    simp only [planOf, mem_sortedSet, List.mem_filter, Bool.and_eq_true] at hkey
    exact hkey.2.1
  removed := by
    intro key hkey
    simp only [planOf, mem_sortedSet, List.mem_filter, Bool.not_eq_true'] at hkey
    exact hkey.2
  added := by
    intro key hkey hold
    have hprevious : has previous key = true := by
      simp only [planOf, List.mem_append, mem_sortedSet, List.mem_filter, keys] at hold
      have hmem : key ∈ previous.map Prod.fst := hold.elim And.left And.left
      obtain ⟨entry, hentry⟩ := OrderedDict.exists_get_of_mem_keys hmem
      rw [has, hentry, Option.isSome_some]
    simp [planOf, hprevious] at hkey
  runtime := by
    intro key
    simp only [planOf, List.mem_filter]
  restart := by
    intro key
    simp only [planOf, mem_sortedSet, List.mem_append, List.mem_filter]
  distinct := nodup_sortedSet _
  floors := rfl
  rollback := by
    intro key
    simp only [planOf, mem_sortedSet, List.mem_append]

variable {plan : Plan}

theorem PlanInv.floors_keys (h : PlanInv plan) : plan.generationFloor.map Prod.fst =
    plan.restartTargets.filter fun key => key ∈ plan.changed ++ plan.added := by
  rw [h.floors, List.map_map]
  exact List.map_id _

/-- The floor of an affected component is at least as high as each of its generations. -/
theorem PlanInv.floor (h : PlanInv plan) {key : PyStr} (hrestart : key ∈ plan.restartTargets)
    (haffected : key ∈ plan.changed ++ plan.added) :
    ∃ floor, (key, floor) ∈ plan.generationFloor ∧ plan.before.generations key ≤ floor ∧
      ∀ i inst, plan.before.heap i = some inst → inst.key = key → inst.generation ≤ floor := by
  refine ⟨_, ?_, le_max_left _ (instanceGeneration plan.before key), ?_⟩
  · rw [h.floors]
    exact List.mem_map_of_mem (List.mem_filter.mpr ⟨hrestart, by simpa using haffected⟩)
  · rintro i inst hobject rfl
    exact (h.bound i inst hobject).trans (le_max_left _ _)

/-! ## Health -/

/-- A record of the check. -/
structure Verified.Sound (plan : Plan) (record : Verified) : Prop where
  ready : record.inst.ready = true
  component : componentOf plan.replacement record.component = some record.inst.component
  key : record.inst.key = record.component
  generation : record.generation = record.inst.generation
  above : ∀ floor, OrderedDict.get plan.generationFloor record.component = some floor →
    floor < record.generation

/-- Where the check stands: without a failure, the targets before `rest` are verified. -/
structure Checking (plan : Plan) (targets : List PyStr) (verified : List Verified)
    (failures : List Failure) (rest : List PyStr) : Prop where
  distinct : targets.Nodup
  restart : plan.restartTargets ⊆ targets
  records : ∀ record ∈ verified, record.Sound plan
  progress : plan.verifyHealth = true → ∃ checked, targets = checked ++ rest ∧
    (failures = [] → verified.map Verified.component = checked)

variable {targets rest : List PyStr} {verified : List Verified} {failures : List Failure}
  {key : PyStr}

theorem checking_start (catalog : Entries) (registry : RoleRegistry) (plan : Plan) :
    Checking plan (healthTargets catalog registry plan) [] []
      (if plan.verifyHealth then healthTargets catalog registry plan else []) where
  distinct := nodup_sortedSet _
  restart := by
    intro key hkey
    simp only [healthTargets, mem_sortedSet, List.mem_append]
    exact .inl (.inr hkey)
  records := by simp
  progress := by
    intro hverify
    rw [if_pos hverify]
    exact ⟨[], rfl, fun _ => rfl⟩

theorem Checking.failed (h : Checking plan targets verified failures (key :: rest))
    (failure : Failure) : Checking plan targets verified (failures ++ [failure]) rest where
  distinct := h.distinct
  restart := h.restart
  records := h.records
  progress := by
    intro hverify
    obtain ⟨checked, htargets, -⟩ := h.progress hverify
    exact ⟨checked ++ [key], by simp [htargets], by simp⟩

theorem Checking.passed (h : Checking plan targets verified failures (key :: rest))
    {record : Verified} (hrecord : record.Sound plan) (hkey : record.component = key) :
    Checking plan targets (verified ++ [record]) failures rest where
  distinct := h.distinct
  restart := h.restart
  records := by
    intro other hother
    rcases List.mem_append.mp hother with hold | hnew
    · exact h.records other hold
    · rw [List.mem_singleton.mp hnew]
      exact hrecord
  progress := by
    intro hverify
    obtain ⟨checked, htargets, hchecked⟩ := h.progress hverify
    refine ⟨checked ++ [key], by simp [htargets], fun hnone => ?_⟩
    rw [List.map_append, hchecked hnone, List.map_singleton, hkey]

theorem sound_of_noProblem {catalog : Entries} {inst : Instance} {state : PyStr}
    (hcatalog : catalog = plan.replacement) (hkey : inst.key = key)
    (h : healthProblem catalog plan.generationFloor key inst state = none) :
    (verifiedOf catalog key inst).Sound plan := by
  unfold healthProblem at h
  split_ifs at h with hready hcomponent
  push Not at hready hcomponent
  have hsound : inst.ready = true := by simpa using hready.1
  refine ⟨hsound, hcatalog ▸ hcomponent, hkey, rfl, ?_⟩
  intro floor hfloor
  have hfloor' : OrderedDict.get plan.generationFloor key = some floor := hfloor
  rw [hfloor'] at h
  dsimp only at h
  split_ifs at h with hle
  exact Nat.lt_of_not_le hle

/-! ## The proof of a result -/

/-- There is exactly one entry for the component; its generation is later than all before the
switch, and it was verified ready under the new catalog. -/
def Proved (plan : Plan) (proof : Proof) (key : PyStr) : Prop :=
  ∃ entry, (proof.restartedComponents.filter fun entry => entry.record.component = key) = [entry] ∧
    plan.before.generations key < entry.toGeneration ∧
    (∀ i inst, plan.before.heap i = some inst → inst.key = key →
      inst.generation < entry.toGeneration) ∧
    entry.record.inst.ready = true ∧ entry.record.inst.key = key ∧
    entry.record.inst.generation = entry.toGeneration ∧
    componentOf plan.replacement key = some entry.record.inst.component

/-- Every affected component that was active or is to be resumed is proved. -/
def Sound (plan : Plan) (proof : Proof) : Prop :=
  ∀ key ∈ plan.changed ++ plan.added,
    isActive plan.before key = true ∨ key ∈ requestedResume plan.transaction →
    Proved plan proof key

/-- What the reload adds and is not asked to resume was not active. -/
def NoLeftover (plan : Plan) : Prop :=
  ∀ key ∈ plan.added, isActive plan.before key = true → key ∈ requestedResume plan.transaction

theorem get_byComponent (hnodup : (verified.map Verified.component).Nodup) {record : Verified}
    (hrecord : record ∈ verified) :
    OrderedDict.get (OrderedDict.update []
      (verified.map fun record => (record.component, record))) record.component = some record := by
  have hkeys : ((verified.map fun record => (record.component, record)).map Prod.fst).Nodup := by
    rw [List.map_map]
    exact hnodup
  rw [OrderedDict.get_update hkeys, (OrderedDict.get_eq_some_iff hkeys).mpr
    (List.mem_map_of_mem hrecord), Option.some_or]

theorem component_of_get {record : Verified}
    (h : OrderedDict.get (OrderedDict.update []
      (verified.map fun record => (record.component, record))) key = some record)
    (hnodup : (verified.map Verified.component).Nodup) : record.component = key := by
  have hkeys : ((verified.map fun record => (record.component, record)).map Prod.fst).Nodup := by
    rw [List.map_map]
    exact hnodup
  rw [OrderedDict.get_update hkeys, OrderedDict.get, Option.or_none] at h
  obtain ⟨other, -, heq⟩ := List.mem_map.mp (OrderedDict.mem_of_get h)
  cases heq
  rfl

/-- The entries of a component whose record is there. -/
theorem restarted_of_verified (h : PlanInv plan)
    (hnodup : (verified.map Verified.component).Nodup) {record : Verified}
    (hrecord : record ∈ verified) {floor : ℕ}
    (hfloor : (record.component, floor) ∈ plan.generationFloor) :
    ((restartedComponents plan verified).filter fun entry =>
      entry.record.component = record.component) = [⟨record, floor, record.generation⟩] := by
  have hkeys : (plan.generationFloor.map Prod.fst).Nodup := by
    rw [h.floors_keys]
    exact h.distinct.filter _
  have hone := OrderedDict.filter_key hkeys hfloor
  have hswap : ((restartedComponents plan verified).filter fun entry =>
        entry.record.component = record.component) =
      (plan.generationFloor.filter fun floor => floor.1 = record.component).filterMap fun floor =>
        (OrderedDict.get (OrderedDict.update []
          (verified.map fun record => (record.component, record))) floor.1).map fun record =>
            ⟨record, floor.2, record.generation⟩ := by
    rw [restartedComponents, List.filter_filterMap, List.filterMap_filter]
    refine List.filterMap_congr fun floor _ => ?_
    cases hget : OrderedDict.get (OrderedDict.update []
        (verified.map fun record => (record.component, record))) floor.1 with
    | none => simp
    | some other =>
      have hother := component_of_get hget hnodup
      by_cases hsame : floor.1 = record.component
      · simp [hsame, hother.trans hsame]
      · simp [hsame, hother ▸ hsame]
  rw [hswap, hone, List.filterMap_cons, get_byComponent hnodup hrecord]
  rfl

/-- No entry for a component without a floor. -/
theorem restarted_without_floor (hnodup : (verified.map Verified.component).Nodup)
    (h : key ∉ plan.generationFloor.map Prod.fst) :
    ((restartedComponents plan verified).filter fun entry => entry.record.component = key) = [] := by
  refine List.filter_eq_nil_iff.mpr fun entry hentry hsame => h ?_
  obtain ⟨floor, hfloor, hget⟩ := List.mem_filterMap.mp hentry
  obtain ⟨record, hrecord, rfl⟩ := Option.map_eq_some_iff.mp hget
  rw [← decide_eq_true_iff.mp hsame, component_of_get hrecord hnodup]
  exact List.mem_map_of_mem hfloor

/-- Of a check that found all targets healthy, the proof is sound exactly when no component that
ran was left over by the old catalog. -/
theorem sound_iff (h : PlanInv plan) (hcheck : Checking plan targets verified [] [])
    (hverify : plan.verifyHealth = true) {proof : Proof}
    (hproof : proof.restartedComponents = restartedComponents plan verified) :
    Sound plan proof ↔ NoLeftover plan := by
  obtain ⟨checked, htargets, hchecked⟩ := hcheck.progress hverify
  rw [List.append_nil] at htargets
  have hcomponents : verified.map Verified.component = targets := htargets ▸ hchecked rfl
  have hnodup : (verified.map Verified.component).Nodup := hcomponents ▸ hcheck.distinct
  constructor
  · intro hsound key hadded hactive
    by_contra hrequested
    obtain ⟨entry, hentry, -⟩ := hsound key (List.mem_append_right _ hadded) (.inl hactive)
    have hnone : key ∉ plan.generationFloor.map Prod.fst := by
      rw [h.floors_keys, List.mem_filter, h.restart, h.runtime]
      rintro ⟨⟨⟨hold, -⟩, -⟩ | hresume, -⟩
      · exact h.added key hadded hold
      · exact hrequested hresume
    rw [hproof, restarted_without_floor hnodup hnone] at hentry
    cases hentry
  · intro hleft key haffected hwanted
    have hrestart : key ∈ plan.restartTargets := by
      rw [h.restart, h.runtime]
      rcases hwanted with hactive | hrequested
      · rcases List.mem_append.mp haffected with hchanged | hadded
        · exact .inl ⟨⟨List.mem_append_left _ hchanged, hactive⟩, h.changed key hchanged⟩
        · exact .inr (hleft key hadded hactive)
      · exact .inr hrequested
    obtain ⟨floor, hfloor, hgenerations, hobjects⟩ := h.floor hrestart haffected
    have hmem : key ∈ verified.map Verified.component := hcomponents ▸ hcheck.restart hrestart
    obtain ⟨record, hrecord, rfl⟩ := List.mem_map.mp hmem
    have hrecordSound := hcheck.records record hrecord
    have hkeys : (plan.generationFloor.map Prod.fst).Nodup := by
      rw [h.floors_keys]
      exact h.distinct.filter _
    have habove := hrecordSound.above floor ((OrderedDict.get_eq_some_iff hkeys).mpr hfloor)
    refine ⟨_, hproof ▸ restarted_of_verified h hnodup hrecord hfloor, ?_, ?_, ?_⟩
    · exact hgenerations.trans_lt habove
    · intro i inst hobject hkey
      exact (hobjects i inst hobject hkey).trans_lt habove
    · exact ⟨hrecordSound.ready, hrecordSound.key, hrecordSound.generation.symm,
        hrecordSound.component⟩

/-! ## Runs -/

/-- What the phase of a reload knows. -/
def PhaseInv (s : State) : Prop :=
  match s.phase with
  | .idle => True
  | .switched plan => PlanInv plan ∧ s.catalog = plan.replacement
  | .verifying plan targets verified failures rest =>
    PlanInv plan ∧ s.catalog = plan.replacement ∧ Checking plan targets verified failures rest
  | .returned plan result =>
    PlanInv plan ∧ ∃ epoch targets verified, result = resultOf plan epoch targets verified ∧
      Checking plan targets verified [] []
  | .raised plan error => PlanInv plan ∧ error.resumeComponents = resumeOf plan

structure ReloadInv (s : State) : Prop where
  history : HistoryInv s.sup
  phase : PhaseInv s

variable {py : Interpreter} {s t : State}

theorem reloadInv_initial (catalog : Entries) (roles : List (PyStr × RoleState)) (profile : Dict)
    (overrides : List (PyStr × PyStr)) :
    ReloadInv (initial catalog roles profile overrides) where
  history := historyInv_initial _ roles
  phase := trivial

theorem ReloadInv.commit (h : ReloadInv s) {candidates : Entries}
    {transaction : Option Transaction} {verifyHealth : Bool} {consumers : List PyStr}
    (hstep : commit py s candidates transaction verifyHealth consumers = some t) : ReloadInv t := by
  unfold CatalogReload.commit at hstep
  dsimp only at hstep
  split at hstep
  · cases hstep
  · split_ifs at hstep
    cases hstep
    refine ⟨?_, planInv_planOf h.history.toGenerationInv _ _ _ _ _ _, rfl⟩
    exact h.history.step (l := .lease (.reload _ _ _)) rfl

theorem ReloadInv.step (h : ReloadInv s) {label : Label} (hstep : step py s label = some t) :
    ReloadInv t := by
  have hphase := h.phase
  cases label with
  | supervisor l =>
    simp only [CatalogReload.step] at hstep
    split_ifs at hstep
    obtain ⟨sup, hsup, rfl⟩ := Option.map_eq_some_iff.mp hstep
    exact ⟨h.history.step hsup, hphase⟩
  | reload candidates transaction verifyHealth consumers =>
    simp only [CatalogReload.step] at hstep
    split_ifs at hstep
    exact h.commit hstep
  | check =>
    simp only [CatalogReload.step] at hstep
    split at hstep
    · rename_i plan hswitched
      cases hstep
      rw [PhaseInv, hswitched] at hphase
      exact ⟨h.history, hphase.1, hphase.2, checking_start _ _ _⟩
    · cases hstep
  | fail reason =>
    simp only [CatalogReload.step] at hstep
    split at hstep
    · rename_i plan hswitched
      cases hstep
      rw [PhaseInv, hswitched] at hphase
      exact ⟨h.history, hphase.1, rfl⟩
    · cases hstep
  | ready i state =>
    simp only [CatalogReload.step] at hstep
    split at hstep
    · rename_i plan targets verified failures key rest inst hverifying hobject
      rw [PhaseInv, hverifying] at hphase
      obtain ⟨hplan, hcatalog, hcheck⟩ := hphase
      split_ifs at hstep with hkey
      split at hstep
      · cases hstep
        exact ⟨h.history, hplan, hcatalog, hcheck.failed _⟩
      · rename_i hnone
        cases hstep
        have hsound := sound_of_noProblem hcatalog (not_not.mp hkey) hnone
        exact ⟨h.history, hplan, hcatalog, hcheck.passed hsound rfl⟩
    · cases hstep
  | unready message =>
    simp only [CatalogReload.step] at hstep
    split at hstep
    · rename_i plan targets verified failures key rest hverifying
      cases hstep
      rw [PhaseInv, hverifying] at hphase
      obtain ⟨hplan, hcatalog, hcheck⟩ := hphase
      exact ⟨h.history, hplan, hcatalog, hcheck.failed _⟩
    · cases hstep
  | finish persistFails =>
    simp only [CatalogReload.step] at hstep
    split at hstep
    · rename_i plan targets verified failures hverifying
      rw [PhaseInv, hverifying] at hphase
      obtain ⟨hplan, hcatalog, hcheck⟩ := hphase
      split_ifs at hstep with hnone
      · split at hstep
        · cases hstep
          exact ⟨h.history, hplan, rfl⟩
        · cases hstep
          have hempty : failures = [] := List.isEmpty_iff.mp hnone
          exact ⟨h.history, hplan, _, targets, verified, rfl, hempty ▸ hcheck⟩
      · cases hstep
        exact ⟨h.history, hplan, rfl⟩
    · cases hstep

/-- In every run: a reload with health check that returned the proof of a transaction has a sound
one exactly when nothing that it added and was not asked to resume had been active; and the error
of a reload that raised after the switch names what was active among the changed and removed
components, and what was to be resumed. -/
theorem run_reloadProof (py : Interpreter) (catalog : Entries) (roles : List (PyStr × RoleState))
    (profile : Dict) (overrides : List (PyStr × PyStr)) (labels : List Label) (s : State)
    (hrun : run (step py) (initial catalog roles profile overrides) labels = some s) :
    (∀ plan result proof, s.phase = .returned plan result → plan.verifyHealth = true →
      result.transaction = some proof → (Sound plan proof ↔ NoLeftover plan)) ∧
    ∀ plan error, s.phase = .raised plan error → plan.transaction.isSome = true →
      ∃ resume, error.resumeComponents = some resume ∧ ∀ key, key ∈ resume ↔
        (key ∈ plan.changed ++ plan.removed ∧ isActive plan.before key = true) ∨
          key ∈ requestedResume plan.transaction := by
  have h : ReloadInv s := run_invariant_all (fun _ _ _ h hstep => ReloadInv.step h hstep) labels
    (reloadInv_initial catalog roles profile overrides) hrun
  have hphase := h.phase
  constructor
  · intro plan result proof hreturned hverify hproof
    rw [PhaseInv, hreturned] at hphase
    obtain ⟨hplan, epoch, targets, verified, rfl, hcheck⟩ := hphase
    refine sound_iff hplan hcheck hverify ?_
    obtain ⟨transaction, -, rfl⟩ := Option.map_eq_some_iff.mp hproof
    rfl
  · intro plan error hraised htransaction
    rw [PhaseInv, hraised] at hphase
    obtain ⟨hplan, hresume⟩ := hphase
    obtain ⟨transaction, hsome⟩ := Option.isSome_iff_exists.mp htransaction
    refine ⟨plan.rollbackResume, ?_, ?_⟩
    · rw [hresume, resumeOf, hsome, Option.map_some]
    · intro key
      rw [hplan.rollback, hplan.runtime]

/-! ## Two reloads -/

/-- A version of the one component `a` of a package `a`. -/
def entryOf (object : ℕ) (version : String) : Entry where
  component := ⟨object, [], .exec⟩
  packageId := lit "a"
  packageVersion := lit version
  raw := []
  manifestPath := none
  packageRoot := none
  lifecycle := lit "manual"
  provides := []

def oneEntry : Entries := [(lit "a", entryOf 0 "1")]

def update : Transaction := ⟨lit "a", []⟩

/-- The running generation is stopped and the next one started. -/
def restartA : List Supervisor.Label :=
  stopA 1 ++ [.life (.exit 0), .stop (.terminated 1), .start (.enter (lit "a")), .start (.lock 2),
    .start (.clear 2), .start (.spawn 2 101)]

/-- The update of the running component. -/
def updating : List Label :=
  startA.map .supervisor ++ [.reload [(lit "a", entryOf 1 "2")] (some update) true []] ++
    restartA.map .supervisor ++ [.check, .ready 1 (lit "ready"), .finish none]

/-- The last reload has returned, with a proof. -/
def returnedWith (p : Plan → Proof → Bool) (s : State) : Bool :=
  match s.phase with
  | .returned plan result => (result.transaction.map (p plan)).getD false
  | _ => false

theorem returnedWith_eq_true {p : Plan → Proof → Bool} (h : returnedWith p s = true) :
    ∃ plan result proof, s.phase = .returned plan result ∧ result.transaction = some proof ∧
      p plan proof = true := by
  unfold returnedWith at h
  split at h
  · rename_i plan result hphase
    cases hproof : result.transaction with
    | none => simp [hproof] at h
    | some proof =>
      rw [hproof] at h
      exact ⟨plan, result, proof, hphase, hproof, h⟩
  · cases h

/-- The updated component comes back with its second generation. -/
theorem run_reloadProof_update :
    ∃ s plan result proof,
      run (step bareInterpreter) (initial oneEntry [] [] []) updating = some s ∧
      s.phase = .returned plan result ∧ result.transaction = some proof ∧
      plan.runtimeBefore = [lit "a"] ∧ Sound plan proof := by
  have hended : (run (step bareInterpreter) (initial oneEntry [] [] []) updating).map
      (returnedWith fun plan _ =>
        plan.verifyHealth && plan.runtimeBefore = [lit "a"] && plan.added.isEmpty) = some true := by
    decide +kernel
  obtain ⟨s, hs, hreturned⟩ := Option.map_eq_some_iff.mp hended
  obtain ⟨plan, result, proof, hphase, hproof, hplan⟩ := returnedWith_eq_true hreturned
  simp only [Bool.and_eq_true, decide_eq_true_eq, List.isEmpty_iff] at hplan
  obtain ⟨⟨hverify, hruntime⟩, hadded⟩ := hplan
  refine ⟨s, plan, result, proof, hs, hphase, hproof, hruntime, ?_⟩
  refine ((run_reloadProof bareInterpreter oneEntry [] [] [] updating s hs).1 plan result proof
    hphase hverify hproof).mpr fun key hkey => ?_
  rw [hadded] at hkey
  cases hkey

/-- A reload that removes the running component raises before it is stopped, and the next one adds
it again. -/
def readding : List Label :=
  startA.map .supervisor ++ [.reload [] none true [], .fail (lit "stop failed"),
    .reload [(lit "a", entryOf 1 "2")] (some update) true [], .check, .finish none]

/-- The second reload returns a proof without the component. -/
theorem leftover_unproved :
    ∃ s plan result proof,
      run (step bareInterpreter) (initial oneEntry [] [] []) readding = some s ∧
      s.phase = .returned plan result ∧ plan.verifyHealth = true ∧
      result.transaction = some proof ∧ ¬ Sound plan proof := by
  have hended : (run (step bareInterpreter) (initial oneEntry [] [] []) readding).map
      (returnedWith fun plan proof => plan.verifyHealth && lit "a" ∈ plan.added &&
        isActive plan.before (lit "a") && proof.restartedComponents.isEmpty) = some true := by
    decide +kernel
  obtain ⟨s, hs, hreturned⟩ := Option.map_eq_some_iff.mp hended
  obtain ⟨plan, result, proof, hphase, hproof, hplan⟩ := returnedWith_eq_true hreturned
  simp only [Bool.and_eq_true, decide_eq_true_eq, List.isEmpty_iff] at hplan
  obtain ⟨⟨⟨hverify, hadded⟩, hactive⟩, hnone⟩ := hplan
  refine ⟨s, plan, result, proof, hs, hphase, hverify, hproof, fun hsound => ?_⟩
  obtain ⟨entry, hentry, -⟩ := hsound (lit "a") (List.mem_append_right _ hadded) (.inl hactive)
  rw [hnone] at hentry
  cases hentry

end MsysCore.Core.CatalogReload
