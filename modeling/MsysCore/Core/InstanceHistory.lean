import MsysCore.Core.ProcessTable

/-!
# Instances that left the table

A table entry is the newest object of its key. An object that is no longer the entry of its
key never becomes it again, the entry of the key then has a later generation, and unless its
removal failed it was finalized.
-/

namespace MsysCore.Core.Supervisor

open Python Runs

/-- What a step does to the table: nothing, the removal of an entry, or a new object. -/
inductive TableChange (s t : Supervisor) : Prop
  | same (instances : t.instances = s.instances) (heap : HeapLater s t)
      (allocated : t.allocated = s.allocated)
  | removed (key : PyStr) (instances : t.instances = OrderedDict.pop s.instances key)
      (heap : HeapLater s t) (allocated : t.allocated = s.allocated)
  | installed (key : PyStr) (component : Component) (pid : ℕ)
      (instances : t.instances = (s.install key component pid).instances)
      (heap : t.heap = (s.install key component pid).heap)
      (allocated : t.allocated = (s.install key component pid).allocated)

section

variable {s t : Supervisor}

theorem step_tableChange {l : Label} (h : s.step l = some t) : TableChange s t := by
  cases l with
  | start l =>
    cases startStep_effect h with
    | @retire c key i inst call entry live stale =>
      exact .removed key rfl (heapLater_finalize s key i) rfl
    | @retireFailed c key i inst call entry => exact .removed key rfl (heapLater_of_eq rfl) rfl
    | @finalize c key i inst call entry exited pending =>
      exact .same rfl (heapLater_finalize s key i) rfl
    | @spawn c pid key component call known running unfenced =>
      exact .installed key component pid rfl rfl rfl
    | _ => exact .same rfl (heapLater_of_eq rfl) rfl
  | stop l =>
    cases stopStep_effect h with
    | @lock c key expected i call free entry =>
      exact .removed key rfl (heapLater_finalize s key i) rfl
    | @lockFailed c key expected i call free entry =>
      exact .removed key rfl (heapLater_of_eq rfl) rfl
    | _ => exact .same rfl (heapLater_of_eq rfl) rfl
  | life l =>
    obtain ⟨hsame, hheap⟩ := lifeStep_frame h
    exact .same hsame.instances hheap hsame.allocated
  | lease l =>
    obtain ⟨hsame, hheap⟩ := leaseStep_frame h
    exact .same hsame.instances (heapLater_of_eq hheap) hsame.allocated

/-- An object keeps its key and its generation. -/
theorem TableChange.object (h : TableChange s t) (hentries : EntryInv s) {i : ℕ} {a : Instance}
    (ha : s.heap i = some a) : ∃ b, t.heap i = some b ∧ Later a b := by
  cases h with
  | same instances heap allocated => exact heap.forth ha
  | removed key instances heap allocated => exact heap.forth ha
  | installed key component pid instances heap allocated =>
    refine ⟨a, ?_, Later.refl a⟩
    have hne : i ≠ s.allocated := (hentries.lt_allocated ha).ne
    rw [heap]
    simp [Supervisor.install, hne, ha]

theorem TableChange.gone (h : TableChange s t) {key : PyStr} {i : ℕ} (hi : i < s.allocated)
    (hgone : OrderedDict.get s.instances key ≠ some i) :
    OrderedDict.get t.instances key ≠ some i := by
  cases h with
  | same instances heap allocated =>
    rw [instances]
    exact hgone
  | removed k instances heap allocated =>
    rw [instances, OrderedDict.get_pop]
    split_ifs
    · rintro ⟨⟩
    · exact hgone
  | installed k component pid instances heap allocated =>
    rw [instances]
    simp only [Supervisor.install, OrderedDict.get_set]
    split_ifs
    · simp only [ne_eq, Option.some.injEq]
      omega
    · exact hgone

/-- The entry of a key is its newest object. -/
def EntryNewest (s : Supervisor) : Prop :=
  ∀ key i, OrderedDict.get s.instances key = some i → ∀ j b, s.heap j = some b → b.key = key →
    j ≤ i

theorem EntryNewest.step (hnewest : EntryNewest s) (hentries : EntryInv s)
    (h : TableChange s t) : EntryNewest t := by
  intro key i hentry j b hb hkey
  cases h with
  | same instances heap allocated =>
    rw [instances] at hentry
    obtain ⟨a, ha, hlater⟩ := heap.back hb
    exact hnewest key i hentry j a ha (hlater.key ▸ hkey)
  | removed k instances heap allocated =>
    rw [instances, OrderedDict.get_pop] at hentry
    split_ifs at hentry
    obtain ⟨a, ha, hlater⟩ := heap.back hb
    exact hnewest key i hentry j a ha (hlater.key ▸ hkey)
  | installed k component pid instances heap allocated =>
    rw [heap] at hb
    rw [instances] at hentry
    simp only [Supervisor.install, OrderedDict.get_set] at hentry
    rcases install_heap hb with ⟨rfl, hk, -, -⟩ | ⟨-, hold⟩
    · rw [if_pos (hkey ▸ hk.symm ▸ rfl : key = k)] at hentry
      cases hentry
      exact le_rfl
    · split_ifs at hentry
      · cases hentry
        exact (hentries.lt_allocated hold).le
      · exact hnewest key i hentry j b hold hkey

/-- What a run knows of the objects of a key. -/
structure HistoryInv (s : Supervisor) : Prop extends LockInv s, GenerationInv s where
  newest : EntryNewest s

theorem historyInv_initial (components : PyStr → Option Component)
    (roles : List (PyStr × RoleState)) : HistoryInv (initial components roles) where
  toLockInv := lockInv_initial components roles
  toGenerationInv := (tableInv_initial components roles).toGenerationInv
  newest := by
    intro key i h
    cases h

theorem step_generationInv {l : Label} (hentries : EntryInv s) (hinv : GenerationInv s)
    (h : s.step l = some t) : GenerationInv t := by
  cases l with
  | start l => exact startStep_generationInv hentries hinv h
  | stop l => exact stopStep_generationInv hinv h
  | life l =>
    obtain ⟨hsame, hheap⟩ := lifeStep_frame h
    exact hinv.later hheap fun key => by rw [hsame.generations]
  | lease l =>
    obtain ⟨hsame, hheap⟩ := leaseStep_frame h
    exact hinv.later (heapLater_of_eq hheap) fun key => by rw [hsame.generations]

theorem HistoryInv.step {l : Label} (hinv : HistoryInv s) (h : s.step l = some t) :
    HistoryInv t :=
  ⟨step_lockInv hinv.toLockInv h, step_generationInv hinv.toEntryInv hinv.toGenerationInv h,
    hinv.newest.step hinv.toEntryInv (step_tableChange h)⟩

/-- The entry of a key is a later generation than any object that is not the entry. -/
theorem HistoryInv.later_generation (hinv : HistoryInv s) {key : PyStr} {i j : ℕ}
    {a b : Instance} (ha : s.heap i = some a) (hkey : a.key = key)
    (hgone : OrderedDict.get s.instances key ≠ some i) (hentry : s.current key = some (j, b)) :
    a.generation < b.generation := by
  obtain ⟨hj, hb⟩ := current_eq_some.mp hentry
  have hle : i ≤ j := hinv.newest key j hj i a ha hkey
  have hne : i ≠ j := by
    rintro rfl
    exact hgone hj
  exact hinv.increase i j a b (by omega) ha hb
    (hkey.trans (hinv.toEntryInv.key_of_current hentry).symm)

/-- Every object that is not an entry was finalized. -/
def RemovedFinalized (s : Supervisor) : Prop :=
  ∀ i inst, s.heap i = some inst → OrderedDict.get s.instances inst.key ≠ some i →
    inst.finalized = true

/-- The announcement of a stop does not raise after the entry was removed. -/
def RemovesWholly : Label → Prop
  | .start (.retireFailed _) => False
  | .stop (.lockFailed _) => False
  | _ => True

instance : (l : Label) → Decidable (RemovesWholly l)
  | .start (.retireFailed _) => isFalse id
  | .stop (.lockFailed _) => isFalse id
  | .start (.enter _) | .start (.lock _) | .start (.retire _) | .start (.retired _)
  | .start (.finalize _) | .start (.clear _) | .start (.again _) | .start (.spawn _ _)
  | .start (.spawnFailed _) | .start (.finish _) | .start (.abort _) | .stop (.enter _ _)
  | .stop (.retryEnded _) | .stop (.retryCancelled _) | .stop (.suspended _) | .stop (.lock _)
  | .stop (.terminated _) | .stop (.cancelled _) | .stop (.abort _) | .life _ | .lease _ =>
    isTrue trivial

theorem RemovedFinalized.same (h : RemovedFinalized s) (hheap : HeapLater s t)
    (hinstances : t.instances = s.instances) : RemovedFinalized t := by
  intro i b hb hgone
  obtain ⟨a, ha, hlater⟩ := hheap.back hb
  rw [hinstances, hlater.key] at hgone
  exact hlater.finalized (h i a ha hgone)

/-- The entry that is removed is finalized first. -/
theorem RemovedFinalized.pop (h : RemovedFinalized s) {key : PyStr} {i : ℕ}
    (hentry : OrderedDict.get s.instances key = some i)
    (hheap : t.heap = (s.finalize key i).heap)
    (hinstances : t.instances = OrderedDict.pop s.instances key) : RemovedFinalized t := by
  intro j b hb hgone
  rw [hheap] at hb
  obtain ⟨a, ha, hlater⟩ := (heapLater_finalize s key i).back hb
  by_cases hj : OrderedDict.get s.instances a.key = some j
  · by_cases hk : a.key = key
    · rw [hk, hentry] at hj
      cases hj
      simp only [finalize, modify, Function.update_self, ha, Option.map_some,
        Option.some.injEq] at hb
      rw [← hb]
    · rw [hinstances, hlater.key, OrderedDict.get_pop_ne hk] at hgone
      exact absurd hj hgone
  · exact hlater.finalized (h j a ha hj)

theorem RemovedFinalized.step {l : Label} (hremoved : RemovedFinalized s) (hinv : LockInv s)
    (hcond : RemovesWholly l) (h : s.step l = some t) : RemovedFinalized t := by
  cases l with
  | start l =>
    cases startStep_effect h with
    | @retire c key i inst call entry live stale =>
      exact hremoved.pop (current_eq_some.mp entry).1 rfl rfl
    | retireFailed call entry => exact hcond.elim
    | @finalize c key i inst call entry exited pending =>
      exact hremoved.same (heapLater_finalize s key i) rfl
    | @spawn c pid key component call known running unfenced =>
      intro i inst hobject hgone
      rcases install_heap hobject with ⟨rfl, rfl, -, -⟩ | ⟨-, hold⟩
      · simp [Supervisor.install, closeStart, setLock, setCall] at hgone
      · by_cases hentry : OrderedDict.get s.instances inst.key = some i
        · -- only the entry that the spawn replaces is lost, and it has been finalized
          have hkey : inst.key = key := by
            by_contra hne
            refine hgone ?_
            have hset : OrderedDict.get (OrderedDict.set s.instances key s.allocated) inst.key =
                some i := by rw [OrderedDict.get_set_ne hne, hentry]
            exact hset
          rw [hkey] at hentry
          exact (hinv.cleared c key call i inst (current_eq_some.mpr ⟨hentry, hold⟩)).2
        · exact hremoved i inst hold hentry
    | _ => exact hremoved.same (heapLater_of_eq rfl) rfl
  | stop l =>
    cases stopStep_effect h with
    | @lock c key expected i call free entry =>
      exact hremoved.pop entry rfl rfl
    | lockFailed call free entry => exact hcond.elim
    | _ => exact hremoved.same (heapLater_of_eq rfl) rfl
  | life l =>
    obtain ⟨hsame, hheap⟩ := lifeStep_frame h
    exact hremoved.same hheap hsame.instances
  | lease l =>
    obtain ⟨hsame, hheap⟩ := leaseStep_frame h
    exact hremoved.same (heapLater_of_eq hheap) hsame.instances

/-! ## Exited instances -/

/-- The process has exited and the instance is finalized; no packet of it is taken. -/
structure Retired (a : Instance) : Prop where
  finalized : a.finalized = true
  exited : a.running = false
  unread : a.reading = false

/-- A later state of an exited instance. -/
structure StaysRetired (a b : Instance) : Prop where
  later : Later a b
  retired : Retired b
  ready : b.ready = true → a.ready = true

theorem Retired.refl {a : Instance} (h : Retired a) : StaysRetired a a := ⟨Later.refl a, h, id⟩

theorem modify_heap {i j : ℕ} {f : Instance → Instance} {a : Instance} (ha : s.heap i = some a) :
    (s.modify j f).heap i = some (if i = j then f a else a) := by
  by_cases hij : i = j
  · subst hij
    simp [modify, ha]
  · simp [modify, hij, ha]

theorem Retired.modify {i j : ℕ} {f : Instance → Instance} {a : Instance} (hr : Retired a)
    (ha : s.heap i = some a) (hf : i = j → StaysRetired a (f a)) :
    ∃ b, (s.modify j f).heap i = some b ∧ StaysRetired a b := by
  refine ⟨_, modify_heap ha, ?_⟩
  split_ifs with hij
  · exact hf hij
  · exact hr.refl

theorem Retired.finalize {i j : ℕ} {a : Instance} (hr : Retired a) (ha : s.heap i = some a)
    (key : PyStr) : ∃ b, (s.finalize key j).heap i = some b ∧ StaysRetired a b :=
  hr.modify (f := fun inst => { inst with finalized := true, reading := false }) ha fun _ =>
    ⟨⟨rfl, rfl, rfl, rfl, id, fun _ => rfl⟩, ⟨rfl, hr.exited, rfl⟩, id⟩

theorem lifeStep_retired {l : LifeLabel} {i : ℕ} {a : Instance} (h : s.lifeStep l = some t)
    (ha : s.heap i = some a) (hr : Retired a) : ∃ b, t.heap i = some b ∧ StaysRetired a b := by
  cases l with
  | exit j =>
    cases h
    exact hr.modify ha fun _ =>
      ⟨⟨rfl, rfl, rfl, rfl, (by rintro ⟨⟩), id⟩, ⟨hr.finalized, rfl, hr.unread⟩, id⟩
  | watcherFinalize j =>
    simp only [lifeStep] at h
    split at h
    · split_ifs at h
      cases h
      exact hr.finalize ha _
    · cases h
  | channelClosed j =>
    simp only [lifeStep] at h
    split at h
    · split_ifs at h
      cases h
      exact hr.modify ha fun _ =>
        ⟨⟨rfl, rfl, rfl, rfl, id, id⟩, ⟨hr.finalized, hr.exited, hr.unread⟩, (by rintro ⟨⟩)⟩
    · cases h
  | readyMessage j =>
    simp only [lifeStep] at h
    split at h
    next inst hinst =>
      split_ifs at h with hreading
      cases h
      rw [leasePreferredRoles_heap]
      refine hr.modify ha fun hij => ?_
      -- the reader of an exited instance has ended
      rw [← hij, ha] at hinst
      cases hinst
      rw [hr.unread] at hreading
      cases hreading
    · cases h
  | probeReady j =>
    simp only [lifeStep] at h
    split at h
    next inst hinst =>
      split_ifs at h with hprobe
      cases h
      rw [leasePreferredRoles_heap]
      refine hr.modify ha fun hij => ?_
      rw [← hij, ha] at hinst
      cases hinst
      simp [hr.exited] at hprobe
    · cases h
  | channelFailed j =>
    simp only [lifeStep] at h
    split at h
    · split_ifs at h
      cases h
      exact hr.modify (f := fun inst => { inst with ready := false, reading := false }) ha fun _ =>
        ⟨⟨rfl, rfl, rfl, rfl, id, id⟩, ⟨hr.finalized, hr.exited, rfl⟩, (by rintro ⟨⟩)⟩
    · cases h
  | readerEnded j =>
    cases h
    exact hr.modify ha fun _ =>
      ⟨⟨rfl, rfl, rfl, rfl, id, id⟩, ⟨hr.finalized, hr.exited, rfl⟩, id⟩
  | shutdown =>
    cases h
    exact ⟨a, ha, hr.refl⟩

/-- An exited instance stays exited and does not become ready. -/
theorem step_retired {l : Label} {i : ℕ} {a : Instance} (hentries : EntryInv s)
    (h : s.step l = some t) (ha : s.heap i = some a) (hr : Retired a) :
    ∃ b, t.heap i = some b ∧ StaysRetired a b := by
  cases l with
  | start l =>
    cases startStep_effect h with
    | @retire c key j inst call entry live stale => exact hr.finalize ha key
    | @finalize c key j inst call entry exited pending => exact hr.finalize ha key
    | spawn call known running unfenced =>
      have hne : i ≠ s.allocated := (hentries.lt_allocated ha).ne
      refine ⟨a, ?_, hr.refl⟩
      simp [Supervisor.install, closeStart, setLock, setCall, hne, ha]
    | _ => exact ⟨a, ha, hr.refl⟩
  | stop l =>
    cases stopStep_effect h with
    | @lock c key expected j call free entry => exact hr.finalize ha key
    | _ => exact ⟨a, ha, hr.refl⟩
  | life l => exact lifeStep_retired h ha hr
  | lease l =>
    obtain ⟨-, hheap⟩ := leaseStep_frame h
    exact ⟨a, by rw [hheap, ha], hr.refl⟩

/-- An object that is there after a step is the new one or was there before. -/
theorem TableChange.back (h : TableChange s t) {i : ℕ} {b : Instance} (hb : t.heap i = some b) :
    (i = s.allocated ∧ b.generation = s.generations b.key + 1) ∨
      ∃ a, s.heap i = some a ∧ Later a b := by
  cases h with
  | same instances heap allocated => exact .inr (heap.back hb)
  | removed key instances heap allocated => exact .inr (heap.back hb)
  | installed key component pid instances heap allocated =>
    rw [heap] at hb
    rcases install_heap hb with ⟨rfl, hkey, hgeneration, -⟩ | ⟨-, hold⟩
    · exact .inl ⟨rfl, by rw [hgeneration, hkey]⟩
    · exact .inr ⟨b, hold, Later.refl b⟩

/-! ## Numbers and terminations -/

theorem step_generations_le {l : Label} (h : s.step l = some t) (key : PyStr) :
    s.generations key ≤ t.generations key := by
  cases l with
  | start l =>
    cases startStep_effect h with
    | @spawn c pid k component call known running unfenced => exact bumpGeneration_le s k key
    | @spawnFailed c k call unfenced => exact bumpGeneration_le s k key
    | _ => exact le_rfl
  | stop l => cases stopStep_effect h <;> exact le_rfl
  | life l => exact (congrFun (lifeStep_frame h).1.generations key).ge
  | lease l => exact (congrFun (leaseStep_frame h).1.generations key).ge

theorem step_allocated {l : Label} (hl : ∀ c pid, l ≠ .start (.spawn c pid))
    (h : s.step l = some t) : t.allocated = s.allocated := by
  cases l with
  | start l =>
    cases startStep_effect h with
    | @spawn c pid k component call known running unfenced => exact (hl c pid rfl).elim
    | _ => rfl
  | stop l => cases stopStep_effect h <;> rfl
  | life l => exact (lifeStep_frame h).1.allocated
  | lease l => exact (leaseStep_frame h).1.allocated

/-- No object appears without a spawn. -/
theorem TableChange.no_object (h : TableChange s t) (hentries : EntryInv s)
    (hallocated : t.allocated = s.allocated) : t.heap s.allocated = none := by
  have hnone := hentries.freshObject s.allocated le_rfl
  cases h with
  | same instances heap allocated => exact heap.none hnone
  | removed key instances heap allocated => exact heap.none hnone
  | installed key component pid instances heap allocated =>
    rw [hallocated] at allocated
    simp [Supervisor.install] at allocated

/-- A call that terminates a process did so before, or the step has removed the entry. -/
theorem step_terminates {l : Label} (h : s.step l = some t) {c : ℕ} {call : Call}
    (hcall : t.calls c = some call) {key : PyStr} {i : ℕ}
    (hends : call.terminates = some (key, i)) :
    s.calls c = some call ∨ l = .start (.retire c) ∨ l = .stop (.lock c) := by
  have hmoved : ∀ {c' : ℕ} {new : Option Call}, t.calls = Function.update s.calls c' new →
      new.bind Call.terminates = none → s.calls c = some call := by
    intro c' new hcalls hquiet
    rcases calls_update hcalls c call hcall with ⟨-, rfl⟩ | ⟨-, hsame⟩
    · rw [Option.bind_some, hends] at hquiet
      cases hquiet
    · exact hsame
  cases l with
  | start l =>
    cases startStep_effect h with
    | @retire c' k j inst call' entry live stale =>
      by_cases hc : c = c'
      · subst hc
        exact .inr (.inl rfl)
      · simp only [setCall, Function.update_of_ne hc] at hcall
        exact .inl hcall
    | finalize call' entry exited pending => exact .inl hcall
    | _ => exact .inl (hmoved rfl rfl)
  | stop l =>
    cases stopStep_effect h with
    | @lock c' k expected j call' free entry =>
      by_cases hc : c = c'
      · subst hc
        exact .inr (.inr rfl)
      · simp only [setLock, setCall, Function.update_of_ne hc] at hcall
        exact .inl hcall
    | _ => exact .inl (hmoved rfl rfl)
  | life l =>
    rw [(lifeStep_frame h).1.calls] at hcall
    exact .inl hcall
  | lease l =>
    rw [(leaseStep_frame h).1.calls] at hcall
    exact .inl hcall

end

end MsysCore.Core.Supervisor
