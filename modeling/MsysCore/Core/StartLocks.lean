import MsysCore.Core.InstanceTable

/-!
# Calls under a start lock

A call that is past `async with lock` holds the start lock of its key until it ends. While
it waits for the exit of an instance that it removed, the key has no entry; when it gets
to the spawn, an entry of the key has exited and was finalized.
-/

namespace MsysCore.Core

open Python Runs

def Call.key : Call → PyStr
  | .start key _ => key
  | .stop key _ _ => key

/-- The key whose start lock the call holds. -/
def Call.holds : Call → Option PyStr
  | .start _ .waiting => none
  | .start key _ => some key
  | .stop key _ (.terminating _) => some key
  | .stop _ _ _ => none

/-- The key and the removed instance whose exit the call waits for. -/
def Call.terminates : Call → Option (PyStr × ℕ)
  | .start key (.retiring i) => some (key, i)
  | .stop key _ (.terminating i) => some (key, i)
  | _ => none

theorem Call.holds_of_terminates {call : Call} {key : PyStr} {i : ℕ}
    (h : call.terminates = some (key, i)) : call.holds = some key := by
  cases call with
  | start k phase => cases phase <;> simp_all [terminates, holds]
  | stop k expected phase => cases phase <;> simp_all [terminates, holds]

namespace Supervisor

structure LockInv (s : Supervisor) : Prop extends EntryInv s where
  held : ∀ c call key, s.calls c = some call → call.holds = some key → s.startLock key = some c
  cleared : ∀ c key, s.calls c = some (.start key .cleared) →
    ∀ i inst, s.current key = some (i, inst) → inst.running = false ∧ inst.finalized = true
  removed : ∀ c call key i, s.calls c = some call → call.terminates = some (key, i) →
    OrderedDict.get s.instances key = none
  freshCall : ∀ c, s.nextCall ≤ c → s.calls c = none

theorem lockInv_initial (components : PyStr → Option Component)
    (roles : List (PyStr × RoleState)) : LockInv (initial components roles) where
  toEntryInv := entryInv_initial components roles
  held := by
    intro c call key h
    cases h
  cleared := by
    intro c key h
    cases h
  removed := by
    intro c call key i h
    cases h
  freshCall := fun _ _ => rfl

/-! ## What happens to calls and entries -/

section Moves

variable {s t : Supervisor}

/-- Everything but the calls and the locks is the same. -/
structure SameTables (s t : Supervisor) : Prop where
  instances : t.instances = s.instances
  heap : t.heap = s.heap
  allocated : t.allocated = s.allocated

theorem SameTables.current_eq (h : SameTables s t) (key : PyStr) :
    t.current key = s.current key := by
  unfold current
  rw [h.instances, h.heap]

theorem LockInv.lt_nextCall (hinv : LockInv s) {c : ℕ} {call : Call}
    (hcall : s.calls c = some call) : c < s.nextCall := by
  by_contra hle
  rw [hinv.freshCall c (by omega)] at hcall
  cases hcall

/-- A lock that is free or held by the call changes. -/
theorem setLock_kept {c : ℕ} {key : PyStr} {holder : Option ℕ}
    (hlock : t.startLock = Function.update s.startLock key holder)
    (hfree : s.startLock key = none ∨ s.startLock key = some c) (k : PyStr) (c' : ℕ)
    (hne : c' ≠ c) (hheld : s.startLock k = some c') : t.startLock k = some c' := by
  have hk : k ≠ key := by
    rintro rfl
    rw [hheld] at hfree
    rcases hfree with h | h
    · cases h
    · exact hne (Option.some.inj h)
  rw [hlock, Function.update_of_ne hk]
  exact hheld

theorem calls_update {c : ℕ} {new : Option Call}
    (hcalls : t.calls = Function.update s.calls c new) (c' : ℕ) (call : Call)
    (h : t.calls c' = some call) :
    (c' = c ∧ new = some call) ∨ (c' ≠ c ∧ s.calls c' = some call) := by
  rw [hcalls] at h
  by_cases hc : c' = c
  · rw [hc, Function.update_self] at h
    exact .inl ⟨hc, h⟩
  · rw [Function.update_of_ne hc] at h
    exact .inr ⟨hc, h⟩

/-- One call moves on, opens or ends. -/
theorem LockInv.move (hinv : LockInv s) {c : ℕ} {new : Option Call} (hsame : SameTables s t)
    (hcalls : t.calls = Function.update s.calls c new) (hnext : s.nextCall ≤ t.nextCall)
    (hc : c < t.nextCall)
    (hkept : ∀ k c', c' ≠ c → s.startLock k = some c' → t.startLock k = some c')
    (hholds : ∀ call k, new = some call → call.holds = some k → t.startLock k = some c)
    (hcleared : ∀ k, new = some (.start k .cleared) → ∀ i inst, s.current k = some (i, inst) →
      inst.running = false ∧ inst.finalized = true)
    (hends : ∀ call, new = some call → call.terminates = none) : LockInv t := by
  have hothers := calls_update hcalls
  refine ⟨hinv.toEntryInv.later (heapLater_of_eq hsame.heap) hsame.instances hsame.allocated,
    ?_, ?_, ?_, ?_⟩
  · intro c' call k hcall hholds'
    rcases hothers c' call hcall with ⟨rfl, hnew⟩ | ⟨hne, hcall'⟩
    · exact hholds call k hnew hholds'
    · exact hkept k c' hne (hinv.held c' call k hcall' hholds')
  · intro c' k hcall
    rw [hsame.current_eq]
    rcases hothers c' _ hcall with ⟨-, hnew⟩ | ⟨-, hcall'⟩
    · exact hcleared k hnew
    · exact hinv.cleared c' k hcall'
  · intro c' call k i hcall hends'
    rw [hsame.instances]
    rcases hothers c' call hcall with ⟨-, hnew⟩ | ⟨-, hcall'⟩
    · rw [hends call hnew] at hends'
      cases hends'
    · exact hinv.removed c' call k i hcall' hends'
  · intro c' hc'
    rw [hcalls, Function.update_of_ne (by omega)]
    exact hinv.freshCall c' (by omega)

/-- A step that changes no call, lock or table. -/
theorem LockInv.later (hinv : LockInv s) (hsame : SameCalls s t) (hheap : HeapLater s t) :
    LockInv t := by
  refine ⟨hinv.toEntryInv.later hheap hsame.instances hsame.allocated, ?_, ?_, ?_, ?_⟩
  · intro c call key hcall
    rw [hsame.calls] at hcall
    rw [hsame.startLock]
    exact hinv.held c call key hcall
  · intro c key hcall i b hcurrent
    rw [hsame.calls] at hcall
    obtain ⟨hentry, hb⟩ := current_eq_some.mp hcurrent
    obtain ⟨a, ha, hlater⟩ := hheap.back hb
    rw [hsame.instances] at hentry
    obtain ⟨hexited, hfinal⟩ := hinv.cleared c key hcall i a (current_eq_some.mpr ⟨hentry, ha⟩)
    exact ⟨hlater.exited hexited, hlater.finalized hfinal⟩
  · intro c call key i hcall
    rw [hsame.calls] at hcall
    rw [hsame.instances]
    exact hinv.removed c call key i hcall
  · intro c hc
    rw [hsame.nextCall] at hc
    rw [hsame.calls]
    exact hinv.freshCall c hc

/-- An entry is removed by the call that holds the lock, which then waits for its exit. -/
theorem LockInv.remove (hinv : LockInv s) {c i : ℕ} {key : PyStr} {old new : Call}
    (hold : s.calls c = some old)
    (hfree : s.startLock key = none ∨ s.startLock key = some c)
    (hnew : new.terminates = some (key, i)) (hheap : HeapLater s t)
    (hinstances : t.instances = OrderedDict.pop s.instances key)
    (hcalls : t.calls = Function.update s.calls c (some new))
    (hlock : t.startLock = Function.update s.startLock key (some c))
    (hallocated : t.allocated = s.allocated) (hnext : t.nextCall = s.nextCall) : LockInv t := by
  have hothers := calls_update hcalls
  have hnewKey : ∀ k, new.holds = some k → k = key := by
    intro k hk
    rw [Call.holds_of_terminates hnew] at hk
    exact (Option.some.inj hk).symm
  refine ⟨hinv.toEntryInv.remove hheap hinstances hallocated, ?_, ?_, ?_, ?_⟩
  · intro c' call k hcall hholds
    rcases hothers c' call hcall with ⟨rfl, hnew'⟩ | ⟨hne, hcall'⟩
    · cases hnew'
      rw [hnewKey k hholds, hlock, Function.update_self]
    · exact setLock_kept hlock hfree k c' hne (hinv.held c' call k hcall' hholds)
  · intro c' k hcall j b hcurrent
    obtain ⟨hget, hb⟩ := current_eq_some.mp hcurrent
    rw [hinstances, OrderedDict.get_pop] at hget
    split_ifs at hget with hk
    rcases hothers c' _ hcall with ⟨-, hnew'⟩ | ⟨-, hcall'⟩
    · cases hnew'
      exact absurd (hnewKey k rfl) hk
    · obtain ⟨a, ha, hlater⟩ := hheap.back hb
      obtain ⟨hexited, hfinal⟩ := hinv.cleared c' k hcall' j a (current_eq_some.mpr ⟨hget, ha⟩)
      exact ⟨hlater.exited hexited, hlater.finalized hfinal⟩
  · intro c' call k j hcall hends
    rw [hinstances, OrderedDict.get_pop]
    split_ifs with hk
    · rfl
    · rcases hothers c' call hcall with ⟨-, hnew'⟩ | ⟨-, hcall'⟩
      · cases hnew'
        exact absurd (hnewKey k (Call.holds_of_terminates hends)) hk
      · exact hinv.removed c' call k j hcall' hends
  · intro c' hc'
    rw [hnext] at hc'
    have hlt := hinv.lt_nextCall hold
    rw [hcalls, Function.update_of_ne (by omega)]
    exact hinv.freshCall c' hc'

theorem LockInv.dropped (hinv : LockInv s) (key : PyStr) : LockInv (s.dropInstance key) := by
  refine ⟨hinv.toEntryInv.remove (heapLater_of_eq rfl) rfl rfl, hinv.held, ?_, ?_, hinv.freshCall⟩
  · intro c k hcall i inst hcurrent
    obtain ⟨hget, hobject⟩ := current_eq_some.mp hcurrent
    simp only [dropInstance, OrderedDict.get_pop] at hget
    split_ifs at hget
    exact hinv.cleared c k hcall i inst (current_eq_some.mpr ⟨hget, hobject⟩)
  · intro c call k i hcall hends
    simp only [dropInstance, OrderedDict.get_pop, hinv.removed c call k i hcall hends, ite_self]

/-- No call holds a lock that is free. -/
theorem LockInv.key_ne (hinv : LockInv s) {key : PyStr} (hfree : s.startLock key = none) {c : ℕ}
    {call : Call} {k : PyStr} (hcall : s.calls c = some call) (hholds : call.holds = some k) :
    k ≠ key := by
  rintro rfl
  rw [hinv.held c call k hcall hholds] at hfree
  cases hfree

theorem install_heap {key : PyStr} {component : Component} {pid i : ℕ} {inst : Instance}
    (h : (s.install key component pid).heap i = some inst) :
    (i = s.allocated ∧ inst.key = key ∧ inst.generation = s.generations key + 1 ∧
      inst.finalized = false) ∨ (i ≠ s.allocated ∧ s.heap i = some inst) := by
  by_cases hi : i = s.allocated
  · subst hi
    simp only [install, Function.update_self, Option.some.injEq] at h
    subst h
    exact .inl ⟨rfl, rfl, rfl, rfl⟩
  · simp only [install, Function.update_of_ne hi] at h
    exact .inr ⟨hi, h⟩

/-- A process is spawned while the lock of its key is free. -/
theorem LockInv.spawned (hinv : LockInv s) {key : PyStr} {component : Component} {pid : ℕ}
    (hfree : s.startLock key = none) : LockInv (s.install key component pid) := by
  have hget : ∀ k, k ≠ key →
      OrderedDict.get (s.install key component pid).instances k = OrderedDict.get s.instances k :=
    fun k hk => OrderedDict.get_set_ne hk _ _
  refine ⟨hinv.toEntryInv.install, hinv.held, ?_, ?_, hinv.freshCall⟩
  · intro c k hcall i inst hcurrent
    obtain ⟨hentry, h⟩ := current_eq_some.mp hcurrent
    rw [hget k (hinv.key_ne hfree hcall rfl)] at hentry
    rcases install_heap h with ⟨rfl, -, -, -⟩ | ⟨-, hold⟩
    · obtain ⟨a, ha, -⟩ := hinv.entry k _ hentry
      exact absurd (hinv.lt_allocated ha) (lt_irrefl _)
    · exact hinv.cleared c k hcall i inst (current_eq_some.mpr ⟨hentry, hold⟩)
  · intro c call k i hcall hends
    rw [hget k (hinv.key_ne hfree hcall (Call.holds_of_terminates hends))]
    exact hinv.removed c call k i hcall hends

/-- A call ends, with the lock it holds. -/
theorem LockInv.close (hinv : LockInv s) {c : ℕ} {key : PyStr} {call : Call}
    (hcall : s.calls c = some call) (hholds : call.holds = some key) (hsame : SameTables s t)
    (hcalls : t.calls = Function.update s.calls c none) (hnext : t.nextCall = s.nextCall)
    (hlock : t.startLock = Function.update s.startLock key none) : LockInv t :=
  hinv.move hsame hcalls hnext.ge (hnext.symm ▸ hinv.lt_nextCall hcall)
    (setLock_kept hlock (.inr (hinv.held c call key hcall hholds))) (by simp) (by simp) (by simp)

/-- A call without a lock ends. -/
theorem LockInv.leave (hinv : LockInv s) {c : ℕ} {call : Call} (hcall : s.calls c = some call)
    (hsame : SameTables s t) (hcalls : t.calls = Function.update s.calls c none)
    (hnext : t.nextCall = s.nextCall) (hlock : t.startLock = s.startLock) : LockInv t :=
  hinv.move hsame hcalls hnext.ge (hnext.symm ▸ hinv.lt_nextCall hcall)
    (fun k c' _ h => by rw [hlock]; exact h) (by simp) (by simp) (by simp)

/-- A call goes on to a place where it waits for no exit, and no lock changes hands. -/
theorem LockInv.advance (hinv : LockInv s) {c : ℕ} {old new : Call} (hold : s.calls c = some old)
    (hholds : new.holds = old.holds) (hends : new.terminates = none)
    (hcleared : ∀ k, new = .start k .cleared → ∀ i inst, s.current k = some (i, inst) →
      inst.running = false ∧ inst.finalized = true) : LockInv (s.setCall c (some new)) := by
  refine hinv.move ⟨rfl, rfl, rfl⟩ rfl le_rfl (hinv.lt_nextCall hold) (fun _ _ _ h => h) ?_ ?_ ?_
  · rintro _ k ⟨⟩ hk
    rw [hholds] at hk
    exact hinv.held c old k hold hk
  · rintro k ⟨⟩
    exact hcleared k rfl
  · rintro _ ⟨⟩
    exact hends

end Moves

/-! ## Steps -/

section Steps

variable {s t : Supervisor}

theorem LockInv.opened (hinv : LockInv s) {call : Call} (hholds : call.holds = none)
    (hends : call.terminates = none) : LockInv (s.openCall call) := by
  refine hinv.move ⟨rfl, rfl, rfl⟩ rfl (Nat.le_succ _) (Nat.lt_succ_self _) (fun _ _ _ h => h)
    ?_ ?_ ?_
  · rintro _ k ⟨⟩ hk
    rw [hholds] at hk
    cases hk
  · rintro k ⟨⟩
    cases hholds
  · rintro _ ⟨⟩
    exact hends

theorem startStep_lockInv {l : StartLabel} (hinv : LockInv s) (h : s.startStep l = some t) :
    LockInv t := by
  cases startStep_effect h with
  | enter _ _ => exact hinv.opened rfl rfl
  | lock call free =>
    refine hinv.move ⟨rfl, rfl, rfl⟩ rfl le_rfl (hinv.lt_nextCall call)
      (setLock_kept rfl (.inl free)) ?_ (by simp) (by rintro _ ⟨⟩; rfl)
    rintro _ k ⟨⟩ hk
    cases hk
    exact Function.update_self _ _ _
  | @retire c key i inst call _ _ _ =>
    have hheld := hinv.held c _ key call rfl
    refine hinv.remove call (.inr hheld) rfl (heapLater_finalize s key i) rfl rfl ?_ rfl rfl
    rw [← hheld, Function.update_eq_self]
    rfl
  | @retireFailed c key i inst call _ =>
    have hclosed : LockInv (s.closeStart c key) := hinv.close call rfl ⟨rfl, rfl, rfl⟩ rfl rfl rfl
    exact hclosed.dropped key
  | @retired c key i inst call _ _ =>
    refine hinv.advance call rfl rfl ?_
    rintro k ⟨⟩ j inst' hcurrent
    have hremoved := hinv.removed c _ key i call rfl
    rw [(current_eq_some.mp hcurrent).1] at hremoved
    cases hremoved
  | finalize call _ _ _ => exact hinv.later (sameCalls_finalize s _ _) (heapLater_finalize s _ _)
  | clear call gone =>
    refine hinv.advance call rfl rfl ?_
    rintro k ⟨⟩ i inst hcurrent
    exact gone i inst hcurrent
  | again call => exact hinv.advance call rfl rfl (by simp)
  | @spawn c pid key component call _ _ _ =>
    have hclosed : LockInv (s.closeStart c key) := hinv.close call rfl ⟨rfl, rfl, rfl⟩ rfl rfl rfl
    exact hclosed.spawned (Function.update_self _ _ _)
  | spawnFailed call _ => exact hinv.close call rfl ⟨rfl, rfl, rfl⟩ rfl rfl rfl
  | finishWaiting call => exact hinv.leave call ⟨rfl, rfl, rfl⟩ rfl rfl rfl
  | finish call place =>
    rcases place with rfl | rfl
    · exact hinv.close call rfl ⟨rfl, rfl, rfl⟩ rfl rfl rfl
    · exact hinv.close call rfl ⟨rfl, rfl, rfl⟩ rfl rfl rfl
  | abort call => exact hinv.close call rfl ⟨rfl, rfl, rfl⟩ rfl rfl rfl

theorem stopStep_lockInv {l : StopLabel} (hinv : LockInv s) (h : s.stopStep l = some t) :
    LockInv t := by
  cases stopStep_effect h with
  | @enter key expected =>
    have hfenced : LockInv (s.setStopRequest key true) :=
      ⟨hinv.toEntryInv.later (heapLater_of_eq rfl) rfl rfl, hinv.held, hinv.cleared, hinv.removed,
        hinv.freshCall⟩
    exact hfenced.opened rfl rfl
  | retryEnded call => exact hinv.advance call rfl rfl (by simp)
  | retryCancelled call => exact hinv.leave call ⟨rfl, rfl, rfl⟩ rfl rfl rfl
  | suspended call => exact hinv.advance call rfl rfl (by simp)
  | lockReturns call _ => exact hinv.leave call ⟨rfl, rfl, rfl⟩ rfl rfl rfl
  | @lock c key expected i call free _ =>
    exact hinv.remove call (.inl free) rfl (heapLater_finalize s key i) rfl rfl rfl rfl rfl
  | @lockFailed c key expected i call free _ =>
    have hclosed : LockInv (s.closeStop c key) := hinv.leave call ⟨rfl, rfl, rfl⟩ rfl rfl rfl
    exact hclosed.dropped key
  | terminated call _ _ => exact hinv.close call rfl ⟨rfl, rfl, rfl⟩ rfl rfl rfl
  | cancelled call _ => exact hinv.leave call ⟨rfl, rfl, rfl⟩ rfl rfl rfl
  | abort call => exact hinv.close call rfl ⟨rfl, rfl, rfl⟩ rfl rfl rfl

theorem step_lockInv {l : Label} (hinv : LockInv s) (h : s.step l = some t) : LockInv t := by
  cases l with
  | start l => exact startStep_lockInv hinv h
  | stop l => exact stopStep_lockInv hinv h
  | life l => exact hinv.later (lifeStep_frame h).1 (lifeStep_frame h).2
  | lease l => exact hinv.later (leaseStep_frame h).1 (heapLater_of_eq (leaseStep_frame h).2)

theorem startStep_stop_calls {l : StartLabel} (hinv : LockInv s) {c : ℕ} {key : PyStr}
    {expected : Option ℕ}
    {phase : StopPhase} (hcall : s.calls c = some (.stop key expected phase))
    (h : s.startStep l = some t) : t.calls c = some (.stop key expected phase) := by
  have hfresh : c ≠ s.nextCall := (hinv.lt_nextCall hcall).ne
  have hother : ∀ {c' k p}, s.calls c' = some (.start k p) → c ≠ c' := by
    rintro c' k p hc' rfl
    rw [hcall] at hc'
    cases hc'
  cases startStep_effect h with
  | enter running unfenced => simpa [openCall, setCall, hfresh] using hcall
  | finalize call entry exited pending => exact hcall
  | lock call free => simpa [setLock, setCall, hother call] using hcall
  | retire call entry live stale =>
    simpa [popInstance, Supervisor.finalize, modify, setCall, hother call] using hcall
  | retireFailed call entry =>
    simpa [dropInstance, closeStart, setLock, setCall, hother call] using hcall
  | retired call object exited => simpa [setCall, hother call] using hcall
  | clear call gone => simpa [setCall, hother call] using hcall
  | again call => simpa [setCall, hother call] using hcall
  | spawn call known running unfenced =>
    simpa [install, bumpGeneration, closeStart, setLock, setCall, hother call] using hcall
  | spawnFailed call unfenced =>
    simpa [bumpGeneration, closeStart, setLock, setCall, hother call] using hcall
  | finishWaiting call => simpa [setCall, hother call] using hcall
  | finish call place => simpa [closeStart, setLock, setCall, hother call] using hcall
  | abort call => simpa [closeStart, setLock, setCall, hother call] using hcall

end Steps

end Supervisor

end MsysCore.Core
