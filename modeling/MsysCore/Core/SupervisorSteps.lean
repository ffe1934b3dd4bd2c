import MsysCore.Core.Supervisor

/-!
# What the steps of the supervisor do

`StartEffect` and `StopEffect` list what each step of a call does and when it is enabled.
Steps of processes, channels and leases change no call, lock or table, and keep the
identity of every instance object.
-/

namespace MsysCore.Core.Supervisor

open Python Runs

/-! ## Starts and stops -/

inductive StartEffect (s : Supervisor) : StartLabel → Supervisor → Prop
  | enter {key} (running : s.stopping = false) (unfenced : s.stopRequests key = false) :
    StartEffect s (.enter key) (s.openCall (.start key .waiting))
  | lock {c key} (call : s.calls c = some (.start key .waiting)) (free : s.startLock key = none) :
    StartEffect s (.lock c) ((s.setCall c (some (.start key .entered))).setLock key (some c))
  | retire {c key i inst} (call : s.calls c = some (.start key .entered))
      (entry : s.current key = some (i, inst)) (live : inst.running = true)
      (stale : s.components key ≠ some inst.component) :
    StartEffect s (.retire c) ((s.popInstance key i).setCall c (some (.start key (.retiring i))))
  | retireFailed {c key i inst} (call : s.calls c = some (.start key .entered))
      (entry : s.current key = some (i, inst)) :
    StartEffect s (.retireFailed c) ((s.dropInstance key).closeStart c key)
  | retired {c key i inst} (call : s.calls c = some (.start key (.retiring i)))
      (object : s.heap i = some inst) (exited : inst.running = false) :
    StartEffect s (.retired c) (s.setCall c (some (.start key .cleared)))
  | finalize {c key i inst} (call : s.calls c = some (.start key .entered))
      (entry : s.current key = some (i, inst)) (exited : inst.running = false)
      (pending : inst.finalized = false) :
    StartEffect s (.finalize c) (s.finalize key i)
  | clear {c key} (call : s.calls c = some (.start key .entered))
      (gone : ∀ i inst, s.current key = some (i, inst) →
        inst.running = false ∧ inst.finalized = true) :
    StartEffect s (.clear c) (s.setCall c (some (.start key .cleared)))
  | again {c key} (call : s.calls c = some (.start key .cleared)) :
    StartEffect s (.again c) (s.setCall c (some (.start key .entered)))
  | spawn {c pid key component} (call : s.calls c = some (.start key .cleared))
      (known : s.components key = some component) (running : s.stopping = false)
      (unfenced : s.stopRequests key = false) :
    StartEffect s (.spawn c pid) ((s.install key component pid).closeStart c key)
  | spawnFailed {c key} (call : s.calls c = some (.start key .cleared))
      (unfenced : s.stopRequests key = false) :
    StartEffect s (.spawnFailed c) ((s.bumpGeneration key).closeStart c key)
  | finishWaiting {c key} (call : s.calls c = some (.start key .waiting)) :
    StartEffect s (.finish c) (s.setCall c none)
  | finish {c key phase} (call : s.calls c = some (.start key phase))
      (place : phase = .entered ∨ phase = .cleared) :
    StartEffect s (.finish c) (s.closeStart c key)
  | abort {c key i} (call : s.calls c = some (.start key (.retiring i))) :
    StartEffect s (.abort c) (s.closeStart c key)

theorem startStep_effect {s t : Supervisor} {l : StartLabel} (h : s.startStep l = some t) :
    StartEffect s l t := by
  cases l with
  | enter key =>
    simp only [startStep] at h
    split_ifs at h with hguard
    cases h
    simp only [Bool.or_eq_true, not_or, Bool.not_eq_true] at hguard
    exact .enter hguard.1 hguard.2
  | lock c =>
    simp only [startStep] at h
    split at h
    · rename_i key hcall
      split_ifs at h with hfree
      cases h
      exact .lock hcall hfree
    · cases h
  | retire c =>
    simp only [startStep] at h
    split at h
    · rename_i key hcall
      split at h
      · rename_i i inst hentry
        split_ifs at h with hguard
        cases h
        simp only [Bool.and_eq_true, decide_eq_true_eq] at hguard
        exact .retire hcall hentry hguard.1 hguard.2
      · cases h
    · cases h
  | retireFailed c =>
    simp only [startStep] at h
    split at h
    · rename_i key hcall
      split at h
      · rename_i i inst hentry
        split_ifs at h
        cases h
        exact .retireFailed hcall hentry
      · cases h
    · cases h
  | retired c =>
    simp only [startStep] at h
    split at h
    · rename_i key i hcall
      split at h
      · rename_i inst hobject
        split_ifs at h with hrunning
        cases h
        exact .retired hcall hobject (by simpa using hrunning)
      · cases h
    · cases h
  | finalize c =>
    simp only [startStep] at h
    split at h
    · rename_i key hcall
      split at h
      · rename_i i inst hentry
        split_ifs at h with hguard
        cases h
        simp only [Bool.or_eq_true, not_or, Bool.not_eq_true] at hguard
        exact .finalize hcall hentry hguard.1 hguard.2
      · cases h
    · cases h
  | clear c =>
    simp only [startStep] at h
    split at h
    · rename_i key hcall
      split at h
      · rename_i i inst hentry
        split_ifs at h with hguard
        cases h
        refine .clear hcall fun j other hother => ?_
        rw [hentry] at hother
        cases hother
        simpa using hguard
      · rename_i hentry
        cases h
        refine .clear hcall fun j other hother => ?_
        rw [hentry] at hother
        cases hother
    · cases h
  | again c =>
    simp only [startStep] at h
    split at h
    · rename_i key hcall
      cases h
      exact .again hcall
    · cases h
  | spawn c pid =>
    simp only [startStep] at h
    split at h
    · rename_i key hcall
      split at h
      · rename_i component hknown
        split_ifs at h with hguard
        cases h
        simp only [Bool.or_eq_true, not_or, Bool.not_eq_true] at hguard
        exact .spawn hcall hknown hguard.1 hguard.2
      · cases h
    · cases h
  | spawnFailed c =>
    simp only [startStep] at h
    split at h
    · rename_i key hcall
      split_ifs at h with hguard
      cases h
      simp only [Bool.or_eq_true, not_or, Bool.not_eq_true] at hguard
      exact .spawnFailed hcall hguard.2
    · cases h
  | finish c =>
    simp only [startStep] at h
    split at h
    · rename_i key hcall
      cases h
      exact .finishWaiting hcall
    · rename_i key hcall
      cases h
      exact .finish hcall (.inl rfl)
    · rename_i key hcall
      cases h
      exact .finish hcall (.inr rfl)
    · cases h
  | abort c =>
    simp only [startStep] at h
    split at h
    · rename_i key i hcall
      cases h
      exact .abort hcall
    · cases h

inductive StopEffect (s : Supervisor) : StopLabel → Supervisor → Prop
  | enter {key expected} :
    StopEffect s (.enter key expected)
      ((s.setStopRequest key true).openCall (.stop key expected .retry))
  | retryEnded {c key expected} (call : s.calls c = some (.stop key expected .retry)) :
    StopEffect s (.retryEnded c) (s.setCall c (some (.stop key expected .suspending)))
  | retryCancelled {c key expected} (call : s.calls c = some (.stop key expected .retry)) :
    StopEffect s (.retryCancelled c) (s.setCall c none)
  | suspended {c key expected} (call : s.calls c = some (.stop key expected .suspending)) :
    StopEffect s (.suspended c) (s.setCall c (some (.stop key expected .waiting)))
  | lockReturns {c key expected} (call : s.calls c = some (.stop key expected .waiting))
      (free : s.startLock key = none) :
    StopEffect s (.lock c) (s.closeStop c key)
  | lock {c key expected i} (call : s.calls c = some (.stop key expected .waiting))
      (free : s.startLock key = none) (entry : OrderedDict.get s.instances key = some i)
      (expects : expected = none ∨ expected = some i) :
    StopEffect s (.lock c) (((s.popInstance key i).setCall c
      (some (.stop key expected (.terminating i)))).setLock key (some c))
  | lockFailed {c key expected i} (call : s.calls c = some (.stop key expected .waiting))
      (free : s.startLock key = none) (entry : OrderedDict.get s.instances key = some i)
      (expects : expected = none ∨ expected = some i) :
    StopEffect s (.lockFailed c) ((s.dropInstance key).closeStop c key)
  | terminated {c key expected i inst}
      (call : s.calls c = some (.stop key expected (.terminating i)))
      (object : s.heap i = some inst) (exited : inst.running = false) :
    StopEffect s (.terminated c) ((s.closeStop c key).setLock key none)
  | cancelled {c key expected phase} (call : s.calls c = some (.stop key expected phase))
      (place : phase = .suspending ∨ phase = .waiting) :
    StopEffect s (.cancelled c) (s.closeStop c key)
  | abort {c key expected i} (call : s.calls c = some (.stop key expected (.terminating i))) :
    StopEffect s (.abort c) ((s.closeStop c key).setLock key none)

/-- A stop that goes on expects the entry it has found, or any. -/
theorem expects_of_guard {expected : Option ℕ} {i : ℕ}
    (h : ¬ (expected.isSome && decide (expected ≠ some i)) = true) :
    expected = none ∨ expected = some i := by
  cases expected with
  | none => exact Or.inl rfl
  | some j =>
    simp only [Option.isSome_some, Bool.true_and, decide_eq_true_eq, not_not] at h
    exact Or.inr h

theorem stopStep_effect {s t : Supervisor} {l : StopLabel} (h : s.stopStep l = some t) :
    StopEffect s l t := by
  cases l with
  | enter key expected =>
    cases h
    exact .enter
  | retryEnded c =>
    simp only [stopStep] at h
    split at h
    · rename_i key expected hcall
      cases h
      exact .retryEnded hcall
    · cases h
  | retryCancelled c =>
    simp only [stopStep] at h
    split at h
    · rename_i key expected hcall
      cases h
      exact .retryCancelled hcall
    · cases h
  | suspended c =>
    simp only [stopStep] at h
    split at h
    · rename_i key expected hcall
      cases h
      exact .suspended hcall
    · cases h
  | lock c =>
    simp only [stopStep] at h
    split at h
    · rename_i key expected hcall
      split_ifs at h with hfree
      split at h
      · cases h
        exact .lockReturns hcall hfree
      · rename_i i hentry
        split_ifs at h with hother
        · cases h
          exact .lockReturns hcall hfree
        · cases h
          exact .lock hcall hfree hentry (expects_of_guard hother)
    · cases h
  | lockFailed c =>
    simp only [stopStep] at h
    split at h
    · rename_i key expected hcall
      split_ifs at h with hfree
      split at h
      · cases h
      · rename_i i hentry
        split_ifs at h with hother
        cases h
        exact .lockFailed hcall hfree hentry (expects_of_guard hother)
    · cases h
  | terminated c =>
    simp only [stopStep] at h
    split at h
    · rename_i key expected i hcall
      split at h
      · rename_i inst hobject
        split_ifs at h with hrunning
        cases h
        exact .terminated hcall hobject (by simpa using hrunning)
      · cases h
    · cases h
  | cancelled c =>
    simp only [stopStep] at h
    split at h
    · rename_i key expected hcall
      cases h
      exact .cancelled hcall (.inl rfl)
    · rename_i key expected hcall
      cases h
      exact .cancelled hcall (.inr rfl)
    · cases h
  | abort c =>
    simp only [stopStep] at h
    split at h
    · rename_i key expected i hcall
      cases h
      exact .abort hcall
    · cases h

/-! ## Processes, channels and leases -/

/-- Calls, locks and tables are the same. -/
structure SameCalls (s t : Supervisor) : Prop where
  calls : t.calls = s.calls
  nextCall : t.nextCall = s.nextCall
  startLock : t.startLock = s.startLock
  stopRequests : t.stopRequests = s.stopRequests
  instances : t.instances = s.instances
  generations : t.generations = s.generations
  allocated : t.allocated = s.allocated

theorem SameCalls.refl (s : Supervisor) : SameCalls s s := ⟨rfl, rfl, rfl, rfl, rfl, rfl, rfl⟩

theorem SameCalls.trans {s t u : Supervisor} (h : SameCalls s t) (h' : SameCalls t u) :
    SameCalls s u :=
  ⟨h'.calls.trans h.calls, h'.nextCall.trans h.nextCall, h'.startLock.trans h.startLock,
    h'.stopRequests.trans h.stopRequests, h'.instances.trans h.instances,
    h'.generations.trans h.generations, h'.allocated.trans h.allocated⟩

theorem sameCalls_modify (s : Supervisor) (i : ℕ) (f : Instance → Instance) :
    SameCalls s (s.modify i f) := ⟨rfl, rfl, rfl, rfl, rfl, rfl, rfl⟩

theorem sameCalls_finalize (s : Supervisor) (key : PyStr) (i : ℕ) :
    SameCalls s (s.finalize key i) := ⟨rfl, rfl, rfl, rfl, rfl, rfl, rfl⟩

theorem sameCalls_leasePreferredRoles (s : Supervisor) (inst : Instance) :
    SameCalls s (s.leasePreferredRoles inst) := by
  unfold leasePreferredRoles
  split_ifs
  · exact ⟨rfl, rfl, rfl, rfl, rfl, rfl, rfl⟩
  · exact SameCalls.refl s

/-- A later state of the same instance object. -/
structure Later (a b : Instance) : Prop where
  key : b.key = a.key
  component : b.component = a.component
  generation : b.generation = a.generation
  pid : b.pid = a.pid
  running : b.running = true → a.running = true
  finalized : a.finalized = true → b.finalized = true

theorem Later.refl (a : Instance) : Later a a := ⟨rfl, rfl, rfl, rfl, id, id⟩

theorem Later.exited {a b : Instance} (h : Later a b) (ha : a.running = false) :
    b.running = false := by
  cases hb : b.running with
  | false => rfl
  | true =>
    rw [h.running hb] at ha
    cases ha

/-- No object is created or lost, and each keeps its identity. -/
def HeapLater (s t : Supervisor) : Prop := ∀ i, Option.Rel Later (s.heap i) (t.heap i)

theorem HeapLater.back {s t : Supervisor} (h : HeapLater s t) {i : ℕ} {b : Instance}
    (hb : t.heap i = some b) : ∃ a, s.heap i = some a ∧ Later a b := by
  have hi := h i
  rw [hb] at hi
  cases hs : s.heap i with
  | none =>
    rw [hs] at hi
    cases hi
  | some a =>
    rw [hs] at hi
    cases hi with
    | some hlater => exact ⟨a, rfl, hlater⟩

theorem HeapLater.forth {s t : Supervisor} (h : HeapLater s t) {i : ℕ} {a : Instance}
    (ha : s.heap i = some a) : ∃ b, t.heap i = some b ∧ Later a b := by
  have hi := h i
  rw [ha] at hi
  cases ht : t.heap i with
  | none =>
    rw [ht] at hi
    cases hi
  | some b =>
    rw [ht] at hi
    cases hi with
    | some hlater => exact ⟨b, rfl, hlater⟩

theorem HeapLater.none {s t : Supervisor} (h : HeapLater s t) {i : ℕ} (hs : s.heap i = none) :
    t.heap i = none := by
  cases ht : t.heap i with
  | none => rfl
  | some b =>
    obtain ⟨a, ha, -⟩ := h.back ht
    rw [hs] at ha
    cases ha

theorem heapLater_of_eq {s t : Supervisor} (h : t.heap = s.heap) : HeapLater s t := by
  intro i
  rw [h]
  cases s.heap i with
  | none => exact .none
  | some a => exact .some (Later.refl a)

theorem heapLater_modify {s : Supervisor} {i : ℕ} {f : Instance → Instance}
    (hf : ∀ a, Later a (f a)) : HeapLater s (s.modify i f) := by
  intro j
  simp only [modify]
  by_cases hj : j = i
  · rw [hj, Function.update_self]
    cases s.heap i with
    | none => exact .none
    | some a => exact .some (hf a)
  · rw [Function.update_of_ne hj]
    exact heapLater_of_eq rfl j

theorem leasePreferredRoles_heap (s : Supervisor) (inst : Instance) :
    (s.leasePreferredRoles inst).heap = s.heap := by
  unfold leasePreferredRoles
  split_ifs <;> rfl

theorem heapLater_finalize (s : Supervisor) (key : PyStr) (i : ℕ) : HeapLater s (s.finalize key i) :=
  heapLater_modify fun _ => ⟨rfl, rfl, rfl, rfl, id, fun _ => rfl⟩

/-- An instance gets ready and takes the roles that prefer it. -/
theorem ready_frame (s : Supervisor) (i : ℕ) (inst : Instance) :
    SameCalls s ((s.modify i fun a => { a with ready := true }).leasePreferredRoles inst) ∧
      HeapLater s ((s.modify i fun a => { a with ready := true }).leasePreferredRoles inst) := by
  refine ⟨(sameCalls_modify s _ _).trans (sameCalls_leasePreferredRoles _ _), ?_⟩
  have hmodify : HeapLater s (s.modify i fun a => { a with ready := true }) :=
    heapLater_modify fun _ => ⟨rfl, rfl, rfl, rfl, id, id⟩
  intro j
  rw [leasePreferredRoles_heap]
  exact hmodify j

/-- What a step of a process or a channel does to the state. -/
theorem lifeStep_frame {s t : Supervisor} {l : LifeLabel} (h : s.lifeStep l = some t) :
    SameCalls s t ∧ HeapLater s t := by
  cases l with
  | exit i =>
    cases h
    exact ⟨sameCalls_modify s _ _, heapLater_modify fun _ => ⟨rfl, rfl, rfl, rfl, by simp, id⟩⟩
  | watcherFinalize i =>
    simp only [lifeStep] at h
    split at h
    · split_ifs at h
      cases h
      exact ⟨sameCalls_finalize s _ _, heapLater_finalize s _ _⟩
    · cases h
  | channelClosed i =>
    simp only [lifeStep] at h
    split at h
    · split_ifs at h
      cases h
      exact ⟨sameCalls_modify s _ _, heapLater_modify fun _ => ⟨rfl, rfl, rfl, rfl, id, id⟩⟩
    · cases h
  | readyMessage i =>
    simp only [lifeStep] at h
    split at h
    · split_ifs at h
      cases h
      exact ready_frame s i _
    · cases h
  | probeReady i =>
    simp only [lifeStep] at h
    split at h
    · split_ifs at h
      cases h
      exact ready_frame s i _
    · cases h
  | channelFailed i =>
    simp only [lifeStep] at h
    split at h
    · split_ifs at h
      cases h
      exact ⟨⟨rfl, rfl, rfl, rfl, rfl, rfl, rfl⟩,
        heapLater_modify fun _ => ⟨rfl, rfl, rfl, rfl, id, id⟩⟩
    · cases h
  | readerEnded i =>
    cases h
    exact ⟨sameCalls_modify s _ _, heapLater_modify fun _ => ⟨rfl, rfl, rfl, rfl, id, id⟩⟩
  | shutdown =>
    cases h
    exact ⟨⟨rfl, rfl, rfl, rfl, rfl, rfl, rfl⟩, heapLater_of_eq rfl⟩

theorem onUsable_eq_some {s t : Supervisor} {i : ℕ} {f : Instance → Supervisor}
    (h : s.onUsable i f = some t) :
    ∃ inst, s.heap i = some inst ∧ s.isUsable i inst = true ∧ t = f inst := by
  unfold onUsable at h
  split at h
  · rename_i inst hheap
    split_ifs at h with husable
    cases h
    exact ⟨inst, hheap, husable, rfl⟩
  · cases h

/-- Lease steps change the registry, the catalog and the snapshot of a migration. -/
theorem leaseStep_frame {s t : Supervisor} {l : LeaseLabel} (h : s.leaseStep l = some t) :
    SameCalls s t ∧ t.heap = s.heap := by
  have hrecord : ∀ (components : PyStr → Option Component) (registry : RoleRegistry)
      (migration : Option (List RoleLease)),
      SameCalls s { s with components, registry, migration } :=
    fun _ _ _ => ⟨rfl, rfl, rfl, rfl, rfl, rfl, rfl⟩
  cases l with
  | leasePreferred i =>
    obtain ⟨inst, -, -, rfl⟩ := onUsable_eq_some h
    exact ⟨sameCalls_leasePreferredRoles s inst, leasePreferredRoles_heap s inst⟩
  | acquire role i =>
    obtain ⟨inst, -, -, rfl⟩ := onUsable_eq_some h
    exact ⟨hrecord _ _ _, rfl⟩
  | releaseFailed key =>
    cases h
    exact ⟨hrecord _ _ _, rfl⟩
  | switchRole role i mode persisted =>
    obtain ⟨inst, -, -, rfl⟩ := onUsable_eq_some h
    exact ⟨hrecord _ _ _, rfl⟩
  | migrationBegin =>
    simp only [leaseStep] at h
    split_ifs at h
    cases h
    exact ⟨hrecord _ _ _, rfl⟩
  | migrate i mode =>
    simp only [leaseStep] at h
    split_ifs at h
    obtain ⟨inst, -, -, rfl⟩ := onUsable_eq_some h
    exact ⟨hrecord _ _ _, rfl⟩
  | rollback override =>
    simp only [leaseStep] at h
    split at h
    · cases h
      exact ⟨hrecord _ _ _, rfl⟩
    · cases h
  | rollbackOld i =>
    obtain ⟨inst, -, -, rfl⟩ := onUsable_eq_some h
    split
    · exact ⟨hrecord _ _ _, rfl⟩
    · exact ⟨SameCalls.refl s, rfl⟩
  | migrationEnd =>
    simp only [leaseStep] at h
    split_ifs at h
    cases h
    exact ⟨hrecord _ _ _, rfl⟩
  | reload components roles overrides =>
    cases h
    exact ⟨hrecord _ _ _, rfl⟩

end MsysCore.Core.Supervisor
