import MsysCore.Core.Locks

/-!
# The lock order

Role locks come first, then the reload lock, the recovery lock and the start locks, and
among start locks a component comes before those it requires. The code breaks this order
where it suspends display consumers from inside a start or under the recovery lock, where
a reload turns a dependency around under starts in flight, and where a task waits for a
watcher that suspends consumers. Otherwise no task waits for itself.
-/

namespace MsysCore.Core

open Python Runs Relation

/-- Outside the recovery lock and the start locks. -/
def Place.isLow : Place → Bool
  | .role _ => true
  | .reload => true
  | _ => false

namespace Task

/-- The task is in `_suspend_display_consumers`, or waits to be. -/
def suspends (task : Task) : Bool :=
  task.wait = some (.enter .suspend) || task.frames.any fun frame => frame.place = .suspend

/-- The task holds neither the recovery lock nor a start lock, and nobody awaits it. -/
def isLow (task : Task) : Bool :=
  match task.frames with
  | [] => task.serves.isNone
  | frame :: _ => frame.place.isLow

/-- A suspension from here keeps the lock order. -/
def suspendsInOrder (task : Task) : Bool :=
  match task.frames with
  | [] => true
  | frame :: _ => frame.place.isLow

end Task

namespace LockState

/-- The first component requires the second, in the catalog or in the manifest that a start in
flight has read. -/
def Requires (s : LockState) (p d : PyStr) : Prop :=
  d ∈ s.catalog.requires p ∨ ∃ t task frame, s.tasks t = some task ∧ frame ∈ task.frames ∧
    frame.place = .start p ∧ d ∈ frame.requires

def suspended (s : LockState) (t : ℕ) : Bool :=
  match s.tasks t with
  | some task => task.suspends
  | none => false

/-- Consumers are suspended only in order, also with respect to the tasks that wait for the end
of the one that suspends them, and no catalog is committed that closes a cycle with the starts
in flight. -/
def InOrder (s : LockState) : LockLabel → Prop
  | .ask t .suspend =>
    (∀ task, s.tasks t = some task → task.suspendsInOrder = true) ∧
      ∀ v waiter key, s.tasks v = some waiter → waiter.wait = some (.task t key) →
        waiter.isLow = true
  | .awaitTask t u => s.suspended u = true → ∀ task, s.tasks t = some task → task.isLow = true
  | .commit _ catalog => ∀ key, ¬ TransGen (Requires { s with catalog := catalog }) key key
  | _ => True

/-! ## The order -/

def height (s : LockState) : Lock → ℕ
  | .role _ => 0
  | .reload => 1
  | .ended t _ => if s.suspended t then 2 else 4
  | .recovery => 3
  | .start _ => 4

def lockKey : Lock → PyStr
  | .start key => key
  | .ended _ key => key
  | _ => []

/-- The end of a task comes before the start lock of the key it serves. -/
def lockIndex : Lock → ℕ
  | .start _ => 1
  | _ => 0

def Before (s : LockState) (a b : Lock) : Prop :=
  s.height a < s.height b ∨
    s.height a = 4 ∧ s.height b = 4 ∧ (TransGen (Requires s) (lockKey a) (lockKey b) ∨
      lockKey a = lockKey b ∧ lockIndex a < lockIndex b)

section Order

variable {s : LockState}

theorem Before.trans (a b c : Lock) (h : Before s a b) (h' : Before s b c) : Before s a c := by
  rcases h with h | ⟨ha, hb, h⟩ <;> rcases h' with h' | ⟨hb', hc, h'⟩
  · exact .inl (h.trans h')
  · exact .inl (by omega)
  · exact .inl (by omega)
  · refine .inr ⟨ha, hc, ?_⟩
    rcases h with h | ⟨hkey, hindex⟩ <;> rcases h' with h' | ⟨hkey', hindex'⟩
    · exact .inl (h.trans h')
    · exact .inl (hkey' ▸ h)
    · exact .inl (hkey ▸ h')
    · exact .inr ⟨hkey.trans hkey', hindex.trans hindex'⟩

theorem Before.irrefl (hacyclic : ∀ key, ¬ TransGen (Requires s) key key) (a : Lock) :
    ¬ Before s a a := by
  rintro (h | ⟨-, -, h | ⟨-, h⟩⟩)
  · exact lt_irrefl _ h
  · exact hacyclic _ h
  · exact lt_irrefl _ h

end Order

/-! ## The invariant -/

/-- A call that keeps the order. -/
def Calls (frame : Frame) (place : Place) : Prop :=
  frame.calls place = true ∧ (place = .suspend → frame.place.isLow = true)

/-- The place can be entered from the sections, or by the task when it is in none. -/
def Reached (serves : Option PyStr) (frames : List Frame) (place : Place) : Prop :=
  match frames with
  | [] => (⟨serves, [], none⟩ : Task).starts place = true
  | frame :: _ => Calls frame place

def Nested (serves : Option PyStr) : List Frame → Prop
  | [] => True
  | frame :: frames => Reached serves frames frame.place ∧ Nested serves frames

structure TaskInv (task : Task) : Prop where
  nested : Nested task.serves task.frames
  enters : ∀ place, task.wait = some (.enter place) → Reached task.serves task.frames place
  awaits : ∀ u key, task.wait = some (.task u key) → task.mayAwait key = true

structure OrderInv (s : LockState) : Prop where
  acyclic : ∀ key, ¬ TransGen (Requires s) key key
  tasks : ∀ t task, s.tasks t = some task → TaskInv task
  awaited : ∀ t u task key, s.tasks t = some task → task.wait = some (.task u key) →
    s.suspended u = true → task.isLow = true

/-! ## No cycle -/

section NoCycle

variable {s : LockState} {t : ℕ} {task : Task}

theorem calls_before {frame : Frame} {place : Place} (htask : s.tasks t = some task)
    (hframe : frame ∈ task.frames) (h : Calls frame place) :
    Before s frame.place.lock place.lock := by
  obtain ⟨place', requires⟩ := frame
  obtain ⟨hcalls, hlow⟩ := h
  cases place' <;> cases place <;> simp [Frame.calls, Place.isLow] at hcalls hlow
  case start.start p d =>
    exact .inr ⟨rfl, rfl, .inl (.single (.inr ⟨t, task, _, htask, hframe, rfl, hcalls⟩))⟩
  all_goals
    left
    simp [Place.lock, height]

/-- What comes after the innermost section comes after all of them. -/
theorem nested_before {serves : Option PyStr} (htask : s.tasks t = some task) :
    ∀ (frames : List Frame) (lock : Lock), frames ⊆ task.frames → Nested serves frames →
      (∀ top rest, frames = top :: rest → Before s top.place.lock lock) →
      ∀ frame ∈ frames, Before s frame.place.lock lock := by
  intro frames
  induction frames with
  | nil => simp
  | cons top rest ih =>
    intro lock hsubset hnested htop frame hframe
    have hbefore := htop top rest rfl
    rcases List.mem_cons.mp hframe with rfl | hrest
    · exact hbefore
    · refine Before.trans _ _ _ (ih top.place.lock (List.subset_of_cons_subset hsubset) hnested.2
        ?_ frame hrest) hbefore
      rintro lower rest' rfl
      exact calls_before htask (hsubset (by simp)) hnested.1

/-- The end of a task that serves a key comes before the places it starts with. -/
theorem ended_before {key : PyStr} {place : Place} (htask : s.tasks t = some task)
    (hstarts : (⟨some key, [], none⟩ : Task).starts place = true)
    (hsuspends : place = .suspend → task.suspends = true) :
    Before s (.ended t key) place.lock := by
  have hsuspended : s.suspended t = task.suspends := by simp [suspended, htask]
  simp only [Task.starts, Bool.or_eq_true, decide_eq_true_eq] at hstarts
  rcases hstarts with (rfl | rfl) | rfl
  · left
    simp [Place.lock, height, hsuspended, hsuspends]
  all_goals
    by_cases h : task.suspends = true
    · left
      simp [Place.lock, height, hsuspended, h]
    · refine .inr ⟨?_, rfl, .inr ⟨rfl, Nat.one_pos⟩⟩
      simp [height, hsuspended, h]

theorem served_before {key : PyStr} (htask : s.tasks t = some task) :
    ∀ (frames : List Frame) (lock : Lock), frames ⊆ task.frames → Nested (some key) frames →
      (frames = [] → Before s (.ended t key) lock) →
      (∀ top rest, frames = top :: rest → Before s top.place.lock lock) →
      Before s (.ended t key) lock := by
  intro frames
  induction frames with
  | nil => exact fun lock _ _ hnil _ => hnil rfl
  | cons top rest ih =>
    intro lock hsubset hnested _ htop
    refine Before.trans _ _ _ ?_ (htop top rest rfl)
    refine ih top.place.lock (List.subset_of_cons_subset hsubset) hnested.2 ?_ ?_
    · rintro rfl
      refine ended_before htask hnested.1 fun hplace => ?_
      simp only [Task.suspends, Bool.or_eq_true, List.any_eq_true, decide_eq_true_eq]
      exact .inr ⟨top, hsubset List.mem_cons_self, hplace⟩
    · rintro lower rest' rfl
      exact calls_before htask (hsubset (by simp)) hnested.1

/-- A task waits for the end of one that serves a key from a place where it could start it. -/
theorem await_before (hinv : OrderInv s) {u : ℕ} {key : PyStr} {top : Frame} {rest : List Frame}
    (htask : s.tasks t = some task) (hframes : task.frames = top :: rest)
    (hwait : task.wait = some (.task u key)) :
    Before s top.place.lock (.ended u key) := by
  have hcalls : top.calls (.start key) = true := by
    simpa [Task.mayAwait, hframes] using (hinv.tasks t task htask).awaits u key hwait
  by_cases hsuspended : s.suspended u = true
  · have hlow : top.place.isLow = true := by
      simpa [Task.isLow, hframes] using hinv.awaited t u task key htask hwait hsuspended
    left
    cases hplace : top.place <;> simp [hplace, Place.isLow] at hlow <;>
      simp [Place.lock, height, hsuspended]
  · obtain ⟨place, requires⟩ := top
    have hframe : (⟨place, requires⟩ : Frame) ∈ task.frames := by simp [hframes]
    cases place <;> simp [Frame.calls] at hcalls
    case start p =>
      refine .inr ⟨rfl, ?_, .inl (.single (.inr ⟨t, task, _, htask, hframe, rfl, hcalls⟩))⟩
      simp [height, hsuspended]
    all_goals
      left
      simp [Place.lock, height, hsuspended]

/-- Every task wants what comes after all it holds. -/
theorem holds_before (hinv : OrderInv s) {a b : Lock} (hholds : Holds s t a)
    (hwants : Wants s t b) : Before s a b := by
  obtain ⟨task, wait, htask, hwait, rfl⟩ := hwants
  obtain ⟨task', htask', hheld⟩ := hholds
  rw [htask] at htask'
  cases htask'
  have htaskInv := hinv.tasks t task htask
  have htop : ∀ top rest, task.frames = top :: rest → Before s top.place.lock wait.lock := by
    intro top rest hframes
    cases wait with
    | enter place =>
      have hreached := htaskInv.enters place hwait
      rw [hframes] at hreached
      exact calls_before htask (by simp [hframes]) hreached
    | task u key => exact await_before hinv htask hframes hwait
  rcases hheld with ⟨frame, hframe, rfl⟩ | ⟨key, hserves, rfl⟩
  · exact nested_before htask task.frames wait.lock (List.Subset.refl _) htaskInv.nested htop frame
      hframe
  · have hnested := htaskInv.nested
    rw [hserves] at hnested
    refine served_before htask task.frames wait.lock (List.Subset.refl _) hnested ?_ htop
    intro hframes
    cases wait with
    | enter place =>
      have hreached := htaskInv.enters place hwait
      rw [hframes, hserves] at hreached
      refine ended_before htask hreached fun hplace => ?_
      simp [Task.suspends, hwait, hplace]
    | task u key' =>
      have hawaits := htaskInv.awaits u key' hwait
      simp [Task.mayAwait, hframes, hserves] at hawaits

theorem deadlockFree_of_orderInv (hinv : OrderInv s) : DeadlockFree s :=
  WaitFor.acyclic_of_lt (fun a b c => Before.trans a b c) (Before.irrefl hinv.acyclic)
    fun _ _ _ => holds_before hinv

end NoCycle

/-! ## Steps -/

section Steps

variable {s : LockState}

theorem acyclic_of_subset {s s' : LockState} (hacyclic : ∀ key, ¬ TransGen (Requires s) key key)
    (hsub : ∀ p d, Requires s' p d → Requires s p d) (key : PyStr) :
    ¬ TransGen (Requires s') key key :=
  fun h => hacyclic key (TransGen.mono hsub _ _ h)

/-- One task begins, goes on or ends. -/
theorem OrderInv.update (hinv : OrderInv s) {t : ℕ} {new : Option Task}
    (hnew : ∀ task', new = some task' → TaskInv task')
    -- it reads no manifest but that of the catalog
    (hframes : ∀ task', new = some task' → ∀ frame ∈ task'.frames,
      (∃ task, s.tasks t = some task ∧ frame ∈ task.frames) ∨ frame.requires = s.read frame.place)
    (hsuspends : ∀ task', new = some task' → task'.suspends = true → s.suspended t = true ∨
      ∀ v waiter key, s.tasks v = some waiter → waiter.wait = some (.task t key) →
        waiter.isLow = true)
    (hawaits : ∀ task' u key, new = some task' → task'.wait = some (.task u key) →
      (s.suspended u = true → task'.isLow = true) ∧
        (task'.suspends = true → s.suspended t = true)) :
    OrderInv (s.setTask t new) := by
  have hget : ∀ v other, (s.setTask t new).tasks v = some other →
      (v = t ∧ new = some other) ∨ (v ≠ t ∧ s.tasks v = some other) := by
    intro v other h
    by_cases hv : v = t
    · subst hv
      simp only [setTask, Function.update_self] at h
      exact .inl ⟨rfl, h⟩
    · simp only [setTask, Function.update_of_ne hv] at h
      exact .inr ⟨hv, h⟩
  have hsuspended : ∀ u, (s.setTask t new).suspended u = true →
      (u = t ∧ ∃ task', new = some task' ∧ task'.suspends = true) ∨ s.suspended u = true := by
    intro u h
    by_cases hu : u = t
    · subst hu
      simp only [suspended, setTask, Function.update_self] at h
      cases new with
      | none => cases h
      | some task' => exact .inl ⟨rfl, task', rfl, h⟩
    · simp only [suspended, setTask, Function.update_of_ne hu] at h
      exact .inr h
  refine ⟨acyclic_of_subset hinv.acyclic ?_, ?_, ?_⟩
  · rintro p d (h | ⟨v, other, frame, hother, hframe, hplace, hd⟩)
    · exact .inl h
    · rcases hget v other hother with ⟨rfl, hother'⟩ | ⟨-, hother'⟩
      · rcases hframes other hother' frame hframe with ⟨task, htask, hmem⟩ | hread
        · exact .inr ⟨v, task, frame, htask, hmem, hplace, hd⟩
        · rw [hread, hplace] at hd
          exact .inl hd
      · exact .inr ⟨v, other, frame, hother', hframe, hplace, hd⟩
  · intro v other hother
    rcases hget v other hother with ⟨-, hother'⟩ | ⟨-, hother'⟩
    · exact hnew other hother'
    · exact hinv.tasks v other hother'
  · intro v u waiter key hwaiter hwait hsusp
    rcases hget v waiter hwaiter with ⟨rfl, hwaiter'⟩ | ⟨-, hwaiter'⟩
    · obtain ⟨hlow, hself⟩ := hawaits waiter u key hwaiter' hwait
      rcases hsuspended u hsusp with ⟨rfl, task', hnew', hsusp'⟩ | hbefore
      · rw [hwaiter'] at hnew'
        cases hnew'
        exact hlow (hself hsusp')
      · exact hlow hbefore
    · rcases hsuspended u hsusp with ⟨rfl, task', hnew', hsusp'⟩ | hbefore
      · rcases hsuspends task' hnew' hsusp' with hbefore | hlow
        · exact hinv.awaited v u waiter key hwaiter' hwait hbefore
        · exact hlow v waiter key hwaiter' hwait
      · exact hinv.awaited v u waiter key hwaiter' hwait hbefore

theorem suspended_of_task {t : ℕ} {task : Task} (htask : s.tasks t = some task)
    (h : task.suspends = true) : s.suspended t = true := by
  simpa [suspended, htask] using h

theorem taskInv_running {task : Task} (hnested : Nested task.serves task.frames)
    (hwait : task.wait = none) : TaskInv task where
  nested := hnested
  enters := by simp [hwait]
  awaits := by simp [hwait]

theorem reached_of_mayEnter {task : Task} {place : Place} (hmay : task.mayEnter place = true)
    (horder : place = .suspend → task.suspendsInOrder = true) :
    Reached task.serves task.frames place := by
  unfold Task.mayEnter at hmay
  unfold Reached
  unfold Task.suspendsInOrder at horder
  cases hframes : task.frames with
  | nil =>
    rw [hframes] at hmay
    simpa [Task.starts] using hmay
  | cons frame rest =>
    rw [hframes] at hmay horder
    exact ⟨hmay, horder⟩

/-- A task that does not await another one after its step. -/
theorem OrderInv.proceed (hinv : OrderInv s) {t : ℕ} {task task' : Task}
    (hold : s.tasks t = some task) (hnew : TaskInv task')
    (hframes : ∀ frame ∈ task'.frames, frame ∈ task.frames ∨ frame.requires = s.read frame.place)
    (hsuspends : task'.suspends = true → task.suspends = true ∨
      ∀ v waiter key, s.tasks v = some waiter → waiter.wait = some (.task t key) →
        waiter.isLow = true)
    (hwait : ∀ u key, task'.wait ≠ some (.task u key)) : OrderInv (s.setTask t (some task')) := by
  refine hinv.update ?_ ?_ ?_ ?_
  · rintro _ ⟨⟩
    exact hnew
  · rintro _ ⟨⟩ frame hframe
    exact (hframes frame hframe).imp_left fun h => ⟨task, hold, h⟩
  · rintro _ ⟨⟩ h
    exact (hsuspends h).imp_left (suspended_of_task hold)
  · rintro _ u key ⟨⟩ h
    exact absurd h (hwait u key)

theorem suspends_iff {task : Task} : task.suspends = true ↔
    task.wait = some (.enter .suspend) ∨ ∃ frame ∈ task.frames, frame.place = .suspend := by
  simp [Task.suspends]

theorem taskStep_orderInv {t : ℕ} {task task' : Task} {l : LockLabel} (hinv : OrderInv s)
    (hlabel : LockLabel.task l = t) (hold : s.tasks t = some task) (hcond : InOrder s l)
    (h : s.taskStep task l = some task') : OrderInv (s.setTask t (some task')) := by
  have htask := hinv.tasks t task hold
  cases l with
  | ask t' place =>
    simp only [taskStep] at h
    split_ifs at h with hguard
    cases h
    cases hlabel
    simp only [Bool.and_eq_true, Option.isNone_iff_eq_none] at hguard
    refine hinv.proceed hold ⟨htask.nested, ?_, by simp⟩ (fun _ h => .inl h) ?_ (by simp)
    · rintro _ ⟨⟩
      refine reached_of_mayEnter hguard.2 ?_
      rintro rfl
      exact hcond.1 task hold
    · intro hsuspends
      rcases suspends_iff.mp hsuspends with hplace | hframe
      · cases hplace
        exact .inr hcond.2
      · exact .inl (suspends_iff.mpr (.inr hframe))
  | enter t' =>
    simp only [taskStep] at h
    split at h
    · rename_i place hwait
      split_ifs at h
      cases h
      have hreached := htask.enters place hwait
      refine hinv.proceed hold (taskInv_running ⟨hreached, htask.nested⟩ rfl) ?_ ?_ (by simp)
      · intro frame hframe
        rcases List.mem_cons.mp hframe with rfl | hframe
        · exact .inr rfl
        · exact .inl hframe
      · intro hsuspends
        refine .inl (suspends_iff.mpr ?_)
        rcases suspends_iff.mp hsuspends with hnone | ⟨frame, hframe, hplace⟩
        · cases hnone
        · rcases List.mem_cons.mp hframe with rfl | hframe
          · exact .inl (by rw [hwait, ← hplace])
          · exact .inr ⟨frame, hframe, hplace⟩
    · cases h
  | again t' =>
    simp only [taskStep] at h
    split at h
    · rename_i frame rest hframes
      split_ifs at h with hwait
      cases h
      rw [Option.isNone_iff_eq_none] at hwait
      have hnested := htask.nested
      rw [hframes] at hnested
      refine hinv.proceed hold (taskInv_running ⟨hnested.1, hnested.2⟩ hwait) ?_ ?_
        (by simp [hwait])
      · intro other hother
        rcases List.mem_cons.mp hother with rfl | hother
        · exact .inr rfl
        · exact .inl (by rw [hframes]; exact List.mem_cons_of_mem _ hother)
      · intro hsuspends
        refine .inl (suspends_iff.mpr (.inr ?_))
        rcases suspends_iff.mp hsuspends with hnone | ⟨other, hother, hplace⟩
        · rw [hwait] at hnone
          cases hnone
        · rw [hframes]
          rcases List.mem_cons.mp hother with rfl | hother
          · exact ⟨frame, List.mem_cons_self, hplace⟩
          · exact ⟨other, List.mem_cons_of_mem _ hother, hplace⟩
    · cases h
  | leave t' =>
    simp only [taskStep] at h
    split at h
    · rename_i frame rest hframes
      split_ifs at h with hwait
      cases h
      rw [Option.isNone_iff_eq_none] at hwait
      have hnested := htask.nested
      rw [hframes] at hnested
      have hmem : ∀ other ∈ rest, other ∈ task.frames := by
        intro other hother
        rw [hframes]
        exact List.mem_cons_of_mem _ hother
      refine hinv.proceed hold (taskInv_running hnested.2 hwait) (fun other h => .inl (hmem other h))
        ?_ (by simp [hwait])
      intro hsuspends
      refine .inl (suspends_iff.mpr (.inr ?_))
      rcases suspends_iff.mp hsuspends with hnone | ⟨other, hother, hplace⟩
      · rw [hwait] at hnone
        cases hnone
      · exact ⟨other, hmem other hother, hplace⟩
    · cases h
  | awaitTask t' u =>
    simp only [taskStep] at h
    split at h
    · rename_i other hother
      split at h
      · rename_i key hserves
        split_ifs at h with hguard
        cases h
        cases hlabel
        simp only [Bool.and_eq_true, Option.isNone_iff_eq_none] at hguard
        have hbefore : ∀ wait, ({ task with wait := some (.task u wait) } : Task).suspends = true →
            task.suspends = true := by
          intro wait hsuspends
          rcases suspends_iff.mp hsuspends with hwait | hframe
          · cases hwait
          · exact suspends_iff.mpr (.inr hframe)
        refine hinv.update ?_ ?_ ?_ ?_
        · rintro _ ⟨⟩
          refine ⟨htask.nested, by simp, ?_⟩
          rintro _ _ ⟨⟩
          exact hguard.2
        · rintro _ ⟨⟩ frame hframe
          exact .inl ⟨task, hold, hframe⟩
        · rintro _ ⟨⟩ hsuspends
          exact .inl (suspended_of_task hold (hbefore key hsuspends))
        · rintro _ _ _ ⟨⟩ ⟨⟩
          refine ⟨fun hsuspends => hcond hsuspends task hold, fun hsuspends => ?_⟩
          exact suspended_of_task hold (hbefore key hsuspends)
      · cases h
    · cases h
  | resume t' =>
    simp only [taskStep] at h
    split at h
    · split_ifs at h
      cases h
      refine hinv.proceed hold (taskInv_running htask.nested rfl) (fun _ h => .inl h) ?_ (by simp)
      intro hsuspends
      rcases suspends_iff.mp hsuspends with hnone | hframe
      · cases hnone
      · exact .inl (suspends_iff.mpr (.inr hframe))
    · cases h
  | timeout t' =>
    simp only [taskStep] at h
    split at h
    · cases h
      refine hinv.proceed hold (taskInv_running htask.nested rfl) (fun _ h => .inl h) ?_ (by simp)
      intro hsuspends
      rcases suspends_iff.mp hsuspends with hnone | hframe
      · cases hnone
      · exact .inl (suspends_iff.mpr (.inr hframe))
    · cases h
  | begin serves => cases h
  | finish t' => cases h
  | cancel t' => cases h
  | commit t' catalog => cases h

theorem OrderInv.remove (hinv : OrderInv s) (t : ℕ) : OrderInv (s.setTask t none) :=
  hinv.update (by simp) (by simp) (by simp) (by simp)

theorem OrderInv.begun (hinv : OrderInv s) (serves : Option PyStr) (t : ℕ) :
    OrderInv (s.setTask t (some ⟨serves, [], none⟩)) := by
  refine hinv.update ?_ ?_ ?_ ?_
  · rintro _ ⟨⟩
    exact taskInv_running trivial rfl
  · rintro _ ⟨⟩ frame hframe
    cases hframe
  · rintro _ ⟨⟩ hsuspends
    simp [Task.suspends] at hsuspends
  · rintro _ u key ⟨⟩ hwait
    cases hwait

theorem step_orderInv {s s' : LockState} {l : LockLabel} (hinv : OrderInv s) (hcond : InOrder s l)
    (h : s.step l = some s') : OrderInv s' := by
  have hone : ∀ t, LockLabel.task l = t →
      (match s.tasks t with
        | some task => (s.taskStep task l).map fun task => s.setTask t (some task)
        | none => none) = some s' → OrderInv s' := by
    rintro t hlabel hstep
    split at hstep
    · rename_i task hold
      obtain ⟨task', htask', rfl⟩ := Option.map_eq_some_iff.mp hstep
      exact taskStep_orderInv hinv hlabel hold hcond htask'
    · cases hstep
  cases l with
  | begin serves =>
    cases h
    have hbegun := hinv.begun serves s.nextTask
    exact ⟨hbegun.acyclic, hbegun.tasks, hbegun.awaited⟩
  | finish t =>
    simp only [step] at h
    split at h
    · split_ifs at h
      cases h
      exact hinv.remove t
    · cases h
  | cancel t =>
    simp only [step] at h
    split at h
    · cases h
      exact hinv.remove t
    · cases h
  | commit t catalog =>
    simp only [step] at h
    split at h
    · split_ifs at h
      cases h
      exact ⟨hcond, hinv.tasks, hinv.awaited⟩
    · cases h
  | ask t place => exact hone t rfl h
  | enter t => exact hone t rfl h
  | again t => exact hone t rfl h
  | leave t => exact hone t rfl h
  | awaitTask t u => exact hone t rfl h
  | resume t => exact hone t rfl h
  | timeout t => exact hone t rfl h

theorem orderInv_initial {catalog : Catalog} (h : catalog.validateDependencyGraph = .ok ()) :
    OrderInv (initial catalog) where
  acyclic := by
    refine fun key hcycle => Catalog.validateDependencyGraph_acyclic h key ?_
    refine TransGen.mono ?_ _ _ hcycle
    rintro p d (hd | ⟨t, task, frame, htask, -⟩)
    · exact hd
    · cases htask
  tasks := by
    intro t task htask
    cases htask
  awaited := by
    intro t u task key htask
    cases htask

end Steps

/-! ## Runs -/

/-- From every accepted catalog, runs that keep the order never reach a state in which a task
waits for itself. -/
theorem run_deadlockFree (catalog : Catalog) (haccepted : catalog.validateDependencyGraph = .ok ())
    (ls : List LockLabel) (s : LockState) (halong : Along step InOrder (initial catalog) ls)
    (hrun : run step (initial catalog) ls = some s) : DeadlockFree s := by
  have hinv : OrderInv s := run_invariant (fun _ _ _ hs hcond hstep => step_orderInv hs hcond hstep)
    ls (orderInv_initial haccepted) halong hrun
  exact deadlockFree_of_orderInv hinv

/-- A display provider `d` and a client `c` that requires it. -/
def displayCatalog : Catalog := [(lit "d", ⟨[], []⟩), (lit "c", ⟨[lit "d"], []⟩)]

/-- One start of `d`, and one of `c` that waits for it. -/
def twoStarts : List LockLabel :=
  [.begin none, .ask 0 (.start (lit "d")), .enter 0, .begin none, .ask 1 (.start (lit "c")),
    .enter 1, .ask 1 (.start (lit "d"))]

theorem twoStarts_deadlockFree : ∃ s, run step (initial displayCatalog) twoStarts = some s ∧
    WaitFor.Edge (Wants s) (Holds s) 1 0 ∧ DeadlockFree s := by
  have hlast : (run step (initial displayCatalog) twoStarts).map
      (fun s => (s.tasks 0, s.tasks 1)) =
      some (some ⟨none, [⟨.start (lit "d"), []⟩], none⟩,
        some ⟨none, [⟨.start (lit "c"), [lit "d"]⟩], some (.enter (.start (lit "d")))⟩) := by
    decide +kernel
  obtain ⟨s, hrun, hs⟩ := Option.map_eq_some_iff.mp hlast
  obtain ⟨hzero, hone⟩ := Prod.mk.inj hs
  refine ⟨s, hrun, ⟨.start (lit "d"), ⟨_, _, hone, rfl, rfl⟩, ?_⟩, ?_⟩
  · exact ⟨_, hzero, .inl ⟨_, List.mem_singleton_self _, rfl⟩⟩
  · exact run_deadlockFree displayCatalog (by decide +kernel) twoStarts s
      ⟨trivial, trivial, trivial, trivial, trivial, trivial, trivial, trivial⟩ hrun

/-- The recovery of `c` starts it and finds that `d` died before its watcher ran. -/
def diedInRecovery : List LockLabel :=
  [.begin none, .ask 0 .recover, .enter 0, .ask 0 (.start (lit "c")), .enter 0,
    .ask 0 (.start (lit "d")), .enter 0, .ask 0 .suspend]

/-- `a` requires `b`, and a reload turns that around after a start of `a` has begun. -/
def requiresB : Catalog := [(lit "a", ⟨[lit "b"], []⟩), (lit "b", ⟨[], []⟩)]

def requiresA : Catalog := [(lit "a", ⟨[], []⟩), (lit "b", ⟨[lit "a"], []⟩)]

def reversedEdge : List LockLabel :=
  [.begin none, .ask 0 (.start (lit "a")), .enter 0, .begin none, .ask 1 .reload, .enter 1,
    .commit 1 requiresA, .begin none, .ask 2 (.start (lit "b")), .enter 2,
    .ask 2 (.start (lit "a")), .ask 0 (.start (lit "b"))]

theorem reversedEdge_cycle : ∃ s, run step (initial requiresB) reversedEdge = some s ∧
    WaitFor.Edge (Wants s) (Holds s) 0 2 ∧ WaitFor.Edge (Wants s) (Holds s) 2 0 := by
  have hlast : (run step (initial requiresB) reversedEdge).map
      (fun s => (s.tasks 0, s.tasks 2)) =
      some (some ⟨none, [⟨.start (lit "a"), [lit "b"]⟩], some (.enter (.start (lit "b")))⟩,
        some ⟨none, [⟨.start (lit "b"), [lit "a"]⟩], some (.enter (.start (lit "a")))⟩) := by
    decide +kernel
  obtain ⟨s, hrun, hs⟩ := Option.map_eq_some_iff.mp hlast
  obtain ⟨hzero, htwo⟩ := Prod.mk.inj hs
  refine ⟨s, hrun, ⟨.start (lit "b"), ⟨_, _, hzero, rfl, rfl⟩, ?_⟩,
    ⟨.start (lit "a"), ⟨_, _, htwo, rfl, rfl⟩, ?_⟩⟩
  · exact ⟨_, htwo, .inl ⟨_, List.mem_singleton_self _, rfl⟩⟩
  · exact ⟨_, hzero, .inl ⟨_, List.mem_singleton_self _, rfl⟩⟩

theorem diedInRecovery_deadlock :
    (¬ ∀ (catalog : Catalog), catalog.validateDependencyGraph = .ok () →
      ∀ (ls : List LockLabel) (s : LockState), run step (initial catalog) ls = some s →
        DeadlockFree s) ∧
    ∃ s, run step (initial requiresB) reversedEdge = some s ∧
      WaitFor.Edge (Wants s) (Holds s) 0 2 ∧ WaitFor.Edge (Wants s) (Holds s) 2 0 := by
  refine ⟨?_, reversedEdge_cycle⟩
  intro hall
  have hlast : (run step (initial displayCatalog) diedInRecovery).map (fun s => s.tasks 0) =
      some (some ⟨none, [⟨.start (lit "d"), []⟩, ⟨.start (lit "c"), [lit "d"]⟩, ⟨.recover, []⟩],
        some (.enter .suspend)⟩) := by
    decide +kernel
  obtain ⟨s, hrun, hs⟩ := Option.map_eq_some_iff.mp hlast
  refine hall displayCatalog (by decide +kernel) diedInRecovery s hrun 0 (.single ?_)
  exact ⟨.recovery, ⟨_, _, hs, rfl, rfl⟩, _, hs, .inl ⟨⟨.recover, []⟩, by simp, rfl⟩⟩

end LockState

end MsysCore.Core
