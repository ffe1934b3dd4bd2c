import MsysCore.Core.StartLocks

/-!
# One live process per component

Every process that has not exited is the one in the table entry of its key, or a call
that holds the start lock of the key is waiting for its end. A stop that is cut short
after it removed the entry loses the process.
-/

namespace MsysCore.Core.Supervisor

open Python Runs

/-- A call that holds the start lock terminates the process of the instance. -/
def Terminating (s : Supervisor) (key : PyStr) (i : ℕ) : Prop :=
  ∃ c call, s.startLock key = some c ∧ s.calls c = some call ∧ call.terminates = some (key, i)

/-- The process that the call waits for has exited. -/
def AwaitedExited (s : Supervisor) (c : ℕ) : Prop :=
  ∀ call key i inst, s.calls c = some call → call.terminates = some (key, i) →
    s.heap i = some inst → inst.running = false

/-- The entry that the call is about to remove has exited. -/
def EntryExited (s : Supervisor) (c : ℕ) : Prop :=
  ∀ call i inst, s.calls c = some call → s.current call.key = some (i, inst) →
    inst.running = false

/-- No call is cut short between the removal of an entry and the exit of its process. -/
def NoAbortedStop (s : Supervisor) : Label → Prop
  | .start (.abort c) => AwaitedExited s c
  | .stop (.abort c) => AwaitedExited s c
  | .start (.retireFailed c) => EntryExited s c
  | .stop (.lockFailed c) => EntryExited s c
  | _ => True

instance (s : Supervisor) (c : ℕ) : Decidable (AwaitedExited s c) :=
  decidable_of_iff (∀ call ∈ s.calls c, ∀ entry ∈ call.terminates, ∀ inst ∈ s.heap entry.2,
      inst.running = false)
    ⟨fun h call key i inst hcall hends hobject => h call hcall (key, i) hends inst hobject,
      fun h call hcall _ hends inst hobject => h call _ _ inst hcall hends hobject⟩

instance (s : Supervisor) (c : ℕ) : Decidable (EntryExited s c) :=
  decidable_of_iff (∀ call ∈ s.calls c, ∀ entry ∈ s.current call.key, entry.2.running = false)
    ⟨fun h call i inst hcall hentry => h call hcall (i, inst) hentry,
      fun h call hcall _ hentry => h call _ _ hcall hentry⟩

instance (s : Supervisor) : (l : Label) → Decidable (NoAbortedStop s l)
  | .start (.abort c) => inferInstanceAs (Decidable (AwaitedExited s c))
  | .stop (.abort c) => inferInstanceAs (Decidable (AwaitedExited s c))
  | .start (.retireFailed c) => inferInstanceAs (Decidable (EntryExited s c))
  | .stop (.lockFailed c) => inferInstanceAs (Decidable (EntryExited s c))
  | .start (.enter _) | .start (.lock _) | .start (.retire _) | .start (.retired _)
  | .start (.finalize _) | .start (.clear _) | .start (.again _) | .start (.spawn _ _)
  | .start (.spawnFailed _) | .start (.finish _) | .stop (.enter _ _) | .stop (.retryEnded _)
  | .stop (.retryCancelled _) | .stop (.suspended _) | .stop (.lock _) | .stop (.terminated _)
  | .stop (.cancelled _) | .life _ | .lease _ => isTrue trivial

/-- Each live process is tracked, by the table or by a termination. -/
def Tracked (s : Supervisor) : Prop :=
  ∀ i inst, s.heap i = some inst → inst.running = true →
    OrderedDict.get s.instances inst.key = some i ∨ Terminating s inst.key i

/-- Successive processes of a key get growing generations. -/
def GenerationsIncrease (s : Supervisor) : Prop :=
  ∀ i j a b, i < j → s.heap i = some a → s.heap j = some b → a.key = b.key →
    a.generation < b.generation

/-! ## Tracking -/

section Tracking

variable {s t : Supervisor}

/-- One call moves on, opens or ends; what it waited for has exited. -/
theorem tracked_move (htracked : Tracked s) {c : ℕ} {new : Option Call}
    (hinstances : t.instances = s.instances) (hheap : t.heap = s.heap)
    (hcalls : t.calls = Function.update s.calls c new)
    (hkept : ∀ k c', c' ≠ c → s.startLock k = some c' → t.startLock k = some c')
    (hexited : AwaitedExited s c) : Tracked t := by
  intro i inst hobject hrunning
  rw [hheap] at hobject
  rw [hinstances]
  rcases htracked i inst hobject hrunning with h | ⟨c', call, hlocked, hcall, hends⟩
  · exact .inl h
  · have hne : c' ≠ c := by
      rintro rfl
      rw [hexited call _ i inst hcall hends hobject] at hrunning
      cases hrunning
    refine .inr ⟨c', call, hkept _ c' hne hlocked, ?_, hends⟩
    rw [hcalls, Function.update_of_ne hne]
    exact hcall

theorem tracked_later (htracked : Tracked s) (hsame : SameCalls s t) (hheap : HeapLater s t) :
    Tracked t := by
  intro i b hb hrunning
  obtain ⟨a, ha, hlater⟩ := hheap.back hb
  unfold Terminating
  rw [hsame.instances, hsame.startLock, hsame.calls, hlater.key]
  exact htracked i a ha (hlater.running hrunning)

/-- The call that removes an entry waits for its exit. -/
theorem tracked_remove (htracked : Tracked s) {c i : ℕ} {key : PyStr} {old new : Call}
    (hold : s.calls c = some old) (hidle : old.terminates = none)
    (hentry : OrderedDict.get s.instances key = some i)
    (hfree : s.startLock key = none ∨ s.startLock key = some c)
    (hnew : new.terminates = some (key, i)) (hheap : HeapLater s t)
    (hinstances : t.instances = OrderedDict.pop s.instances key)
    (hcalls : t.calls = Function.update s.calls c (some new))
    (hlock : t.startLock = Function.update s.startLock key (some c)) : Tracked t := by
  intro j b hb hrunning
  obtain ⟨a, ha, hlater⟩ := hheap.back hb
  rw [hlater.key, hinstances]
  rcases htracked j a ha (hlater.running hrunning) with h | ⟨c', call, hlocked, hcall, hends⟩
  · by_cases hk : a.key = key
    · rw [hk, hentry] at h
      cases h
      rw [hk]
      refine .inr ⟨c, new, ?_, ?_, hnew⟩
      · rw [hlock, Function.update_self]
      · rw [hcalls, Function.update_self]
    · exact .inl (by rw [OrderedDict.get_pop_ne hk, h])
  · have hne : c' ≠ c := by
      rintro rfl
      rw [hold] at hcall
      cases hcall
      rw [hidle] at hends
      cases hends
    refine .inr ⟨c', call, setLock_kept hlock hfree _ c' hne hlocked, ?_, hends⟩
    rw [hcalls, Function.update_of_ne hne]
    exact hcall

/-- An entry can go when its process has exited: it is removed or replaced. -/
theorem tracked_of_exited (htracked : Tracked s) {key : PyStr}
    (hexited : ∀ i inst, s.current key = some (i, inst) → inst.running = false)
    (hget : ∀ k, k ≠ key → OrderedDict.get t.instances k = OrderedDict.get s.instances k)
    (hlock : t.startLock = s.startLock) (hcalls : t.calls = s.calls)
    (hheap : ∀ i inst, t.heap i = some inst →
      OrderedDict.get t.instances inst.key = some i ∨ s.heap i = some inst) : Tracked t := by
  intro i inst hobject hrunning
  rcases hheap i inst hobject with h | hold
  · exact .inl h
  · rcases htracked i inst hold hrunning with hentry | hends
    · have hk : inst.key ≠ key := by
        intro hk
        rw [hk] at hentry
        rw [hexited i inst (current_eq_some.mpr ⟨hentry, hold⟩)] at hrunning
        cases hrunning
      exact .inl ((hget _ hk).trans hentry)
    · unfold Terminating
      rw [hlock, hcalls]
      exact .inr hends

theorem awaitedExited_of_terminates {c : ℕ} {call : Call} (hcall : s.calls c = some call)
    (h : call.terminates = none) : AwaitedExited s c := by
  intro call' key i inst hcall' hends
  rw [hcall] at hcall'
  cases hcall'
  rw [h] at hends
  cases hends

theorem awaitedExited_of_exited {c i : ℕ} {key : PyStr} {call : Call} {inst : Instance}
    (hcall : s.calls c = some call) (h : call.terminates = some (key, i))
    (hobject : s.heap i = some inst) (hexited : inst.running = false) : AwaitedExited s c := by
  intro call' key' i' inst' hcall' hends hobject'
  rw [hcall] at hcall'
  cases hcall'
  rw [h] at hends
  cases hends
  rw [hobject] at hobject'
  cases hobject'
  exact hexited

theorem awaitedExited_fresh (hinv : LockInv s) : AwaitedExited s s.nextCall := by
  intro call key i inst hcall
  rw [hinv.freshCall _ le_rfl] at hcall
  cases hcall

/-- A call that holds a lock ends, and what it waited for has exited. -/
theorem tracked_close (hinv : LockInv s) (htracked : Tracked s) {c : ℕ} {key : PyStr} {call : Call}
    (hcall : s.calls c = some call) (hholds : call.holds = some key)
    (hexited : AwaitedExited s c) (hinstances : t.instances = s.instances)
    (hheap : t.heap = s.heap) (hcalls : t.calls = Function.update s.calls c none)
    (hlock : t.startLock = Function.update s.startLock key none) : Tracked t :=
  tracked_move htracked hinstances hheap hcalls
    (setLock_kept hlock (.inr (hinv.held c call key hcall hholds))) hexited

theorem startStep_tracked {l : StartLabel} (hinv : LockInv s) (htracked : Tracked s)
    (hcond : NoAbortedStop s (.start l)) (h : s.startStep l = some t) : Tracked t := by
  cases startStep_effect h with
  | enter _ _ =>
    exact tracked_move htracked rfl rfl rfl (fun _ _ _ h => h) (awaitedExited_fresh hinv)
  | lock call free =>
    exact tracked_move htracked rfl rfl rfl (setLock_kept rfl (.inl free))
      (awaitedExited_of_terminates call rfl)
  | @retire c key i inst call entry _ _ =>
    have hheld := hinv.held c _ key call rfl
    refine tracked_remove htracked call rfl (current_eq_some.mp entry).1 (.inr hheld) rfl
      (heapLater_finalize s key i) rfl rfl ?_
    rw [← hheld, Function.update_eq_self]
    rfl
  | @retireFailed c key i inst call entry =>
    have hclosed : Tracked (s.closeStart c key) :=
      tracked_close hinv htracked call rfl (awaitedExited_of_terminates call rfl) rfl rfl rfl rfl
    exact tracked_of_exited hclosed (fun i inst hentry => hcond _ i inst call hentry)
      (fun k hk => OrderedDict.get_pop_ne hk _) rfl rfl fun _ _ h => .inr h
  | retired call object exited =>
    exact tracked_move htracked rfl rfl rfl (fun _ _ _ h => h)
      (awaitedExited_of_exited call rfl object exited)
  | finalize _ _ _ _ =>
    exact tracked_later htracked (sameCalls_finalize s _ _) (heapLater_finalize s _ _)
  | clear call _ =>
    exact tracked_move htracked rfl rfl rfl (fun _ _ _ h => h)
      (awaitedExited_of_terminates call rfl)
  | again call =>
    exact tracked_move htracked rfl rfl rfl (fun _ _ _ h => h)
      (awaitedExited_of_terminates call rfl)
  | @spawn c pid key component call _ _ _ =>
    have hclosed : Tracked (s.closeStart c key) :=
      tracked_close hinv htracked call rfl (awaitedExited_of_terminates call rfl) rfl rfl rfl rfl
    have hspawned : Tracked ((s.closeStart c key).install key component pid) := by
      refine tracked_of_exited hclosed
        (fun i inst hentry => (hinv.cleared c key call i inst hentry).1)
        (fun k hk => OrderedDict.get_set_ne hk _ _) rfl rfl ?_
      intro i inst hobject
      rcases install_heap hobject with ⟨rfl, hk, -, -⟩ | ⟨-, hold⟩
      · rw [hk]
        exact .inl (OrderedDict.get_set_self _ _ _)
      · exact .inr hold
    exact hspawned
  | spawnFailed call _ =>
    exact tracked_close hinv htracked call rfl (awaitedExited_of_terminates call rfl) rfl rfl rfl
      rfl
  | finishWaiting call =>
    exact tracked_move htracked rfl rfl rfl (fun _ _ _ h => h)
      (awaitedExited_of_terminates call rfl)
  | finish call place =>
    rcases place with rfl | rfl
    · exact tracked_close hinv htracked call rfl (awaitedExited_of_terminates call rfl) rfl rfl rfl
        rfl
    · exact tracked_close hinv htracked call rfl (awaitedExited_of_terminates call rfl) rfl rfl rfl
        rfl
  | abort call => exact tracked_close hinv htracked call rfl hcond rfl rfl rfl rfl

theorem stopStep_tracked {l : StopLabel} (hinv : LockInv s) (htracked : Tracked s)
    (hcond : NoAbortedStop s (.stop l)) (h : s.stopStep l = some t) : Tracked t := by
  cases stopStep_effect h with
  | enter => exact tracked_move htracked rfl rfl rfl (fun _ _ _ h => h) (awaitedExited_fresh hinv)
  | retryEnded call =>
    exact tracked_move htracked rfl rfl rfl (fun _ _ _ h => h)
      (awaitedExited_of_terminates call rfl)
  | retryCancelled call =>
    exact tracked_move htracked rfl rfl rfl (fun _ _ _ h => h)
      (awaitedExited_of_terminates call rfl)
  | suspended call =>
    exact tracked_move htracked rfl rfl rfl (fun _ _ _ h => h)
      (awaitedExited_of_terminates call rfl)
  | lockReturns call _ =>
    exact tracked_move htracked rfl rfl rfl (fun _ _ _ h => h)
      (awaitedExited_of_terminates call rfl)
  | @lock c key expected i call free entry =>
    exact tracked_remove htracked call rfl entry (.inl free) rfl (heapLater_finalize s key i) rfl
      rfl rfl
  | @lockFailed c key expected i call free entry =>
    have hclosed : Tracked (s.closeStop c key) :=
      tracked_move htracked rfl rfl rfl (fun _ _ _ h => h) (awaitedExited_of_terminates call rfl)
    exact tracked_of_exited hclosed (fun i inst hentry => hcond _ i inst call hentry)
      (fun k hk => OrderedDict.get_pop_ne hk _) rfl rfl fun _ _ h => .inr h
  | terminated call object exited =>
    exact tracked_close hinv htracked call rfl (awaitedExited_of_exited call rfl object exited) rfl
      rfl rfl rfl
  | cancelled call place =>
    rcases place with rfl | rfl
    · exact tracked_move htracked rfl rfl rfl (fun _ _ _ h => h)
        (awaitedExited_of_terminates call rfl)
    · exact tracked_move htracked rfl rfl rfl (fun _ _ _ h => h)
        (awaitedExited_of_terminates call rfl)
  | abort call => exact tracked_close hinv htracked call rfl hcond rfl rfl rfl rfl

end Tracking

/-! ## Generations -/

structure GenerationInv (s : Supervisor) : Prop where
  increase : GenerationsIncrease s
  bound : ∀ i inst, s.heap i = some inst → inst.generation ≤ s.generations inst.key

section Generations

variable {s t : Supervisor}

theorem GenerationInv.later (hinv : GenerationInv s) (hheap : HeapLater s t)
    (hgenerations : ∀ key, s.generations key ≤ t.generations key) : GenerationInv t := by
  refine ⟨?_, ?_⟩
  · intro i j b b' hij hb hb' hkey
    obtain ⟨a, ha, hlater⟩ := hheap.back hb
    obtain ⟨a', ha', hlater'⟩ := hheap.back hb'
    rw [hlater.key, hlater'.key] at hkey
    rw [hlater.generation, hlater'.generation]
    exact hinv.increase i j a a' hij ha ha' hkey
  · intro i b hb
    obtain ⟨a, ha, hlater⟩ := hheap.back hb
    rw [hlater.generation, hlater.key]
    exact (hinv.bound i a ha).trans (hgenerations _)

theorem bumpGeneration_le (s : Supervisor) (key k : PyStr) :
    s.generations k ≤ (s.bumpGeneration key).generations k := by
  by_cases hk : k = key <;> simp [bumpGeneration, hk]

theorem GenerationInv.spawned (hinv : GenerationInv s) (hentries : EntryInv s) {key : PyStr}
    {component : Component} {pid : ℕ} : GenerationInv (s.install key component pid) := by
  refine ⟨?_, ?_⟩
  · intro i j a b hij ha hb hab
    rcases install_heap ha with ⟨rfl, -, -, -⟩ | ⟨-, ha'⟩ <;>
      rcases install_heap hb with ⟨rfl, hk, hgeneration, -⟩ | ⟨-, hb'⟩
    · exact absurd hij (lt_irrefl _)
    · have := hentries.lt_allocated hb'
      omega
    · have hle := hinv.bound i a ha'
      rw [hab, hk] at hle
      omega
    · exact hinv.increase i j a b hij ha' hb' hab
  · intro i inst h
    rcases install_heap h with ⟨rfl, hk, hgeneration, -⟩ | ⟨-, hold⟩
    · rw [hk, hgeneration]
      simp [install, bumpGeneration]
    · exact (hinv.bound i inst hold).trans (bumpGeneration_le s key _)

theorem startStep_generationInv {l : StartLabel} (hentries : EntryInv s) (hinv : GenerationInv s)
    (h : s.startStep l = some t) : GenerationInv t := by
  cases startStep_effect h with
  | @retire c key i inst _ _ _ _ =>
    exact hinv.later (heapLater_finalize s key i) fun _ => le_rfl
  | @finalize c key i inst _ _ _ _ =>
    exact hinv.later (heapLater_finalize s key i) fun _ => le_rfl
  | @spawn c pid key component _ _ _ _ =>
    have hspawned : GenerationInv (s.install key component pid) := hinv.spawned hentries
    exact hspawned.later (heapLater_of_eq rfl) fun _ => le_rfl
  | @spawnFailed c key _ _ => exact hinv.later (heapLater_of_eq rfl) (bumpGeneration_le s key)
  | _ => exact hinv.later (heapLater_of_eq rfl) fun _ => le_rfl

theorem stopStep_generationInv {l : StopLabel} (hinv : GenerationInv s)
    (h : s.stopStep l = some t) : GenerationInv t := by
  cases stopStep_effect h with
  | @lock c key expected i _ _ _ => exact hinv.later (heapLater_finalize s key i) fun _ => le_rfl
  | _ => exact hinv.later (heapLater_of_eq rfl) fun _ => le_rfl

end Generations

/-! ## Every step -/

structure TableInv (s : Supervisor) : Prop extends LockInv s, GenerationInv s where
  tracked : Tracked s

theorem tableInv_initial (components : PyStr → Option Component)
    (roles : List (PyStr × RoleState)) : TableInv (initial components roles) where
  toLockInv := lockInv_initial components roles
  increase := by
    intro i j a b _ h
    cases h
  bound := by
    intro i inst h
    cases h
  tracked := by
    intro i inst h
    cases h

theorem step_tableInv {s t : Supervisor} {l : Label} (hinv : TableInv s)
    (hcond : NoAbortedStop s l) (h : s.step l = some t) : TableInv t := by
  have hlocks := step_lockInv hinv.toLockInv h
  cases l with
  | start l =>
    exact ⟨hlocks, startStep_generationInv hinv.toEntryInv hinv.toGenerationInv h,
      startStep_tracked hinv.toLockInv hinv.tracked hcond h⟩
  | stop l =>
    exact ⟨hlocks, stopStep_generationInv hinv.toGenerationInv h,
      stopStep_tracked hinv.toLockInv hinv.tracked hcond h⟩
  | life l =>
    obtain ⟨hsame, hheap⟩ := lifeStep_frame h
    exact ⟨hlocks, hinv.toGenerationInv.later hheap fun key => (congrFun hsame.generations key).ge,
      tracked_later hinv.tracked hsame hheap⟩
  | lease l =>
    obtain ⟨hsame, hheap⟩ := leaseStep_frame h
    have hlater := heapLater_of_eq hheap
    exact ⟨hlocks, hinv.toGenerationInv.later hlater fun key => (congrFun hsame.generations key).ge,
      tracked_later hinv.tracked hsame hlater⟩

/-! ## Runs -/

/-- At most one live process of a key is not being terminated. -/
def OneLive (s : Supervisor) : Prop :=
  ∀ i j a b, s.heap i = some a → s.heap j = some b → a.key = b.key → a.running = true →
    b.running = true → ¬ Terminating s a.key i → ¬ Terminating s b.key j → i = j

theorem oneLive_of_tracked {s : Supervisor} (h : Tracked s) : OneLive s := by
  intro i j a b ha hb hkey hlive hlive' hfree hfree'
  have hi := (h i a ha hlive).resolve_right hfree
  have hj := (h j b hb hlive').resolve_right hfree'
  rw [hkey, hj] at hi
  exact (Option.some.inj hi).symm

/-- When no call is cut short while the process it removed lives, every live process of every
reachable state is tracked, and generations grow. -/
theorem run_tracked (components : PyStr → Option Component) (roles : List (PyStr × RoleState))
    (ls : List Label) (s : Supervisor)
    (halong : Along step NoAbortedStop (initial components roles) ls)
    (hrun : run step (initial components roles) ls = some s) :
    Tracked s ∧ OneLive s ∧ GenerationsIncrease s := by
  have hinv : TableInv s := run_invariant (fun _ _ _ hs hcond hstep => step_tableInv hs hcond hstep)
    ls (tableInv_initial components roles) halong hrun
  exact ⟨hinv.tracked, oneLive_of_tracked hinv.tracked, hinv.increase⟩

theorem startA_tracked : ∃ s, run step (initial oneComponent []) (startA ++ stopA 1) = some s ∧
    Terminating s (lit "a") 0 := by
  have hlast : (run step (initial oneComponent []) (startA ++ stopA 1)).map
      (fun s => (s.heap 0, OrderedDict.get s.instances (lit "a"))) =
      some (some ⟨lit "a", ⟨0, [], .mipcReady⟩, 1, 100, true, false, true, false⟩, none) := by
    decide +kernel
  obtain ⟨s, hrun, hs⟩ := Option.map_eq_some_iff.mp hlast
  obtain ⟨hobject, hentry⟩ := Prod.mk.inj hs
  have halong : Along step NoAbortedStop (initial oneComponent []) (startA ++ stopA 1) :=
    ⟨trivial, trivial, trivial, trivial, trivial, trivial, trivial, trivial, trivial⟩
  refine ⟨s, hrun, ?_⟩
  rcases (run_tracked oneComponent [] _ s halong hrun).1 0 _ hobject rfl with h | h
  · rw [hentry] at h
    cases h
  · exact h

/-- The shutdown cancels the task that stops `a`, whose process still runs. -/
def cancelledStop : List Label :=
  startA ++ stopA 1 ++ [.life .shutdown, .stop (.abort 1)]

theorem cancelledStop_untracked :
    ¬ ∀ (components : PyStr → Option Component) (roles : List (PyStr × RoleState))
      (ls : List Label) (s : Supervisor),
      run step (initial components roles) ls = some s → Tracked s := by
  intro hall
  have hlast : (run step (initial oneComponent []) cancelledStop).map
      (fun s => (s.heap 0, OrderedDict.get s.instances (lit "a"), s.startLock (lit "a"))) =
      some (some ⟨lit "a", ⟨0, [], .mipcReady⟩, 1, 100, true, false, true, false⟩, none, none) := by
    decide +kernel
  obtain ⟨s, hrun, hs⟩ := Option.map_eq_some_iff.mp hlast
  simp only [Prod.mk.injEq] at hs
  obtain ⟨hobject, hentry, hlock⟩ := hs
  rcases hall oneComponent [] cancelledStop s hrun 0 _ hobject rfl with h | ⟨c, call, h, -, -⟩
  · rw [hentry] at h
    cases h
  · rw [hlock] at h
    cases h

end MsysCore.Core.Supervisor
