import MsysCore.Core.DisplaySession
import MsysCore.Core.InstanceHistory

/-!
# What a recovery gets

A recovery starts the recorded clients again. It gets new generations because the
suspension has removed the recorded ones from the table before. So at every moment a
recorded instance has left the table, or a suspension of the open outage still has its key
ahead. The suspension runs in the task that began the outage, and this breaks when that
task is cancelled, when its stop is, or when a recovery or a migration takes the lock first.
-/

namespace MsysCore.Core

open Python Runs

/-! ## Stops that wait -/

namespace Supervisor

/-- An unconditional stop of the key that has not yet had the start lock. -/
def BeforeLock (s : Supervisor) (c : ℕ) (key : PyStr) : Prop :=
  ∃ phase, s.calls c = some (.stop key none phase) ∧
    (phase = .retry ∨ phase = .suspending ∨ phase = .waiting)

/-- The stop that the label cancels before it has the start lock. -/
def Label.cut : Label → Option ℕ
  | .stop (.retryCancelled c) => some c
  | .stop (.cancelled c) => some c
  | _ => none

section

variable {s t : Supervisor} {c : ℕ} {key : PyStr}

/-- A stop that is not for one object leaves no entry of its key. -/
theorem stop_lock_removes (hcall : s.calls c = some (.stop key none .waiting))
    (h : s.stopStep (.lock c) = some t) : OrderedDict.get t.instances key = none := by
  simp only [stopStep, hcall] at h
  split_ifs at h
  split at h
  next hnone =>
    cases h
    exact hnone
  next i hentry =>
    simp only [Option.isSome_none, Bool.false_and, Bool.false_eq_true, if_false] at h
    cases h
    exact OrderedDict.get_pop_self _ _

theorem stopStep_beforeLock {l : StopLabel} (hinv : LockInv s) (hcall : BeforeLock s c key)
    (hkept : (Label.stop l).cut ≠ some c) (h : s.stopStep l = some t) :
    BeforeLock t c key ∨ OrderedDict.get t.instances key = none := by
  obtain ⟨phase, hcall, hphase⟩ := hcall
  have hfresh : c ≠ s.nextCall := (hinv.lt_nextCall hcall).ne
  have hframe : ∀ {c' : ℕ} {new : Option Call}, c ≠ c' →
      t.calls = Function.update s.calls c' new → BeforeLock t c key := by
    intro c' new hne hcalls
    refine ⟨phase, ?_, hphase⟩
    rw [hcalls, Function.update_of_ne hne]
    exact hcall
  have hgone : l = .lock c → OrderedDict.get t.instances key = none := by
    rintro rfl
    cases stopStep_effect h with
    | lockReturns call free =>
      rw [hcall] at call
      cases call
      exact stop_lock_removes hcall h
    | lock call free entry =>
      rw [hcall] at call
      cases call
      exact stop_lock_removes hcall h
  cases stopStep_effect h with
  | enter => exact .inl (hframe hfresh rfl)
  | @retryEnded c' k e call =>
    by_cases hc : c = c'
    · subst hc
      rw [hcall] at call
      cases call
      exact .inl ⟨.suspending, by simp [setCall], .inr (.inl rfl)⟩
    · exact .inl (hframe hc rfl)
  | @retryCancelled c' k e call =>
    exact .inl (hframe (fun hc => hkept (hc ▸ rfl)) rfl)
  | @suspended c' k e call =>
    by_cases hc : c = c'
    · subst hc
      rw [hcall] at call
      cases call
      exact .inl ⟨.waiting, by simp [setCall], .inr (.inr rfl)⟩
    · exact .inl (hframe hc rfl)
  | @lockReturns c' k e call free =>
    by_cases hc : c = c'
    · exact .inr (hgone (hc ▸ rfl))
    · exact .inl (hframe hc rfl)
  | @lock c' k e i call free entry =>
    by_cases hc : c = c'
    · exact .inr (hgone (hc ▸ rfl))
    · exact .inl (hframe hc rfl)
  | @lockFailed c' k e i call free entry =>
    by_cases hc : c = c'
    · subst hc
      rw [hcall] at call
      cases call
      exact .inr (OrderedDict.get_pop_self _ _)
    · exact .inl (hframe hc rfl)
  | @terminated c' k e i inst call object exited =>
    have hne : c ≠ c' := by
      rintro rfl
      rw [hcall] at call
      cases call
      simp at hphase
    exact .inl (hframe hne rfl)
  | @cancelled c' k e p call place =>
    exact .inl (hframe (fun hc => hkept (hc ▸ rfl)) rfl)
  | @abort c' k e i call =>
    have hne : c ≠ c' := by
      rintro rfl
      rw [hcall] at call
      cases call
      simp at hphase
    exact .inl (hframe hne rfl)

/-- A stop that is not cancelled waits on, or has removed the entry. -/
theorem BeforeLock.step {l : Label} (hcall : BeforeLock s c key) (hinv : LockInv s)
    (hkept : l.cut ≠ some c) (h : s.step l = some t) :
    BeforeLock t c key ∨ OrderedDict.get t.instances key = none := by
  cases l with
  | start l =>
    obtain ⟨phase, hcall, hphase⟩ := hcall
    exact .inl ⟨phase, startStep_stop_calls hinv hcall h, hphase⟩
  | stop l => exact stopStep_beforeLock hinv hcall hkept h
  | life l =>
    obtain ⟨hsame, -⟩ := lifeStep_frame h
    exact .inl (by simpa [BeforeLock, hsame.calls] using hcall)
  | lease l =>
    obtain ⟨hsame, -⟩ := leaseStep_frame h
    exact .inl (by simpa [BeforeLock, hsame.calls] using hcall)

end

end Supervisor

namespace Display

/-! ## Recorded instances -/

/-- The recorded instance is no longer the entry of its key. -/
def Consumer.Gone (sup : Supervisor) (c : Consumer) : Prop :=
  OrderedDict.get sup.instances c.key ≠ some c.object

instance (sup : Supervisor) (c : Consumer) : Decidable (c.Gone sup) :=
  inferInstanceAs (Decidable (_ ≠ _))

/-- The recorded instance is an object of its key. -/
def Consumer.Known (sup : Supervisor) (c : Consumer) : Prop :=
  ∃ inst, sup.heap c.object = some inst ∧ inst.key = c.key ∧
    inst.generation = c.seen.generation

/-- The recorded instance has left the table. -/
structure Consumer.Left (sup : Supervisor) (c : Consumer) : Prop where
  known : c.Known sup
  gone : c.Gone sup

/-- The object is a later generation than the recorded instance. -/
def Consumer.Replaced (sup : Supervisor) (c : Consumer) (i : ℕ) : Prop :=
  ∃ inst, sup.heap i = some inst ∧ c.seen.generation < inst.generation

/-- The recorded instance was removed and finalized, and its process has ended or is being
terminated by the call that removed it. -/
def Consumer.Stopped (sup : Supervisor) (c : Consumer) : Prop :=
  c.Gone sup ∧ ∃ inst, sup.heap c.object = some inst ∧ inst.finalized = true ∧
    (inst.running = true → sup.Terminating c.key c.object)

section

variable {sup sup' : Supervisor} {c : Consumer}

theorem Consumer.Known.step (h : c.Known sup) (hentries : sup.EntryInv)
    (hchange : sup.TableChange sup') : c.Known sup' := by
  obtain ⟨a, ha, hkey, hgeneration⟩ := h
  obtain ⟨b, hb, hlater⟩ := hchange.object hentries ha
  exact ⟨b, hb, hlater.key.trans hkey, hlater.generation.trans hgeneration⟩

theorem Consumer.Left.step (h : c.Left sup) (hentries : sup.EntryInv)
    (hchange : sup.TableChange sup') : c.Left sup' := by
  obtain ⟨a, ha, -, -⟩ := h.known
  exact ⟨h.known.step hentries hchange, hchange.gone (hentries.lt_allocated ha) h.gone⟩

theorem Consumer.Replaced.step {i : ℕ} (h : c.Replaced sup i) (hentries : sup.EntryInv)
    (hchange : sup.TableChange sup') : c.Replaced sup' i := by
  obtain ⟨a, ha, hlt⟩ := h
  obtain ⟨b, hb, hlater⟩ := hchange.object hentries ha
  exact ⟨b, hb, by rwa [hlater.generation]⟩

/-- The entry of the key is a replacement once the recorded instance has left. -/
theorem Consumer.Left.replaced (h : c.Left sup) (hinv : sup.HistoryInv) {i : ℕ} {inst : Instance}
    (hentry : sup.current c.key = some (i, inst)) : c.Replaced sup i := by
  obtain ⟨a, ha, hkey, hgeneration⟩ := h.known
  refine ⟨inst, (Supervisor.current_eq_some.mp hentry).2, ?_⟩
  rw [← hgeneration]
  exact hinv.later_generation ha hkey h.gone hentry

theorem Consumer.Left.stopped (h : c.Left sup) (hremoved : sup.RemovedFinalized)
    (htracked : sup.Tracked) : c.Stopped sup := by
  obtain ⟨inst, hobject, hkey, -⟩ := h.known
  have hgone : OrderedDict.get sup.instances inst.key ≠ some c.object := by
    rw [hkey]
    exact h.gone
  refine ⟨h.gone, inst, hobject, hremoved c.object inst hobject hgone, fun hrunning => ?_⟩
  rw [← hkey]
  exact (htracked c.object inst hobject hrunning).resolve_left hgone

theorem known_of_mem_running (hentries : sup.EntryInv) {test : PyStr → Instance → Bool}
    (h : c ∈ running sup test) : c.Known sup := by
  obtain ⟨hmem, hobject, -⟩ := mem_running.mp h
  have hentry := (OrderedDict.get_eq_some_iff hentries.nodup).mpr hmem
  refine ⟨c.seen, hobject, ?_, rfl⟩
  exact hentries.key_of_current (Supervisor.current_eq_some.mpr ⟨hentry, hobject⟩)

end

/-- Everyone the outage suspends. -/
def Outage.recorded (o : Outage) : List Consumer := o.consumers ++ o.droppedApplications

theorem key_mem_affected {o : Outage} {c : Consumer} (h : c ∈ o.recorded) : c.key ∈ o.affected := by
  rw [Outage.affected, List.mem_eraseDups, List.mem_append]
  rcases List.mem_append.mp h with h | h
  · exact .inl (List.mem_map_of_mem h)
  · exact .inr (List.mem_map_of_mem h)

/-- A begin records only table entries, and keeps what was recorded. -/
theorem begun_recorded {manifest : Component → Manifest} {t t' : Tables} {inst : Instance}
    {auto : Bool} {o : Outage} (h : Begun manifest t inst auto t' o) {c : Consumer}
    (hc : c ∈ o.recorded) : (∃ old, t.outage = some old ∧ old.object = o.object ∧
      c ∈ old.recorded) ∨ c ∈ candidates manifest t.sup inst.key := by
  have hrecovery : ∀ {c : Consumer} {cs : List Consumer},
      c ∈ recoveryCandidates manifest auto cs → c ∈ cs := by
    intro c cs hc
    cases auto with
    | true => exact List.mem_of_mem_filter hc
    | false => exact hc
  have hdropped : ∀ {c : Consumer} {cs : List Consumer},
      c ∈ droppedCandidates manifest auto cs → c ∈ cs := by
    intro c cs hc
    cases auto with
    | true => exact List.mem_of_mem_filter hc
    | false => cases hc
  cases h with
  | opened closed object flag consumers dropped next =>
    apply Or.inr
    rcases List.mem_append.mp hc with hc | hc
    · rw [consumers] at hc
      exact hrecovery (mem_of_mem_orderConsumers hc)
    · rw [dropped] at hc
      exact hdropped (mem_of_mem_orderConsumers hc)
  | @merged old pending object flag revision consumers dropped next =>
    rcases List.mem_append.mp hc with hc | hc
    · rw [consumers] at hc
      rcases List.mem_append.mp hc with hc | hc
      · exact .inl ⟨old, pending, object.symm, List.mem_append_left _ hc⟩
      · exact .inr (hrecovery (mem_of_mem_orderConsumers (List.mem_of_mem_filter hc)))
    · rw [dropped] at hc
      rcases List.mem_append.mp hc with hc | hc
      · exact .inl ⟨old, pending, object.symm, List.mem_append_right _ hc⟩
      · exact .inr (hdropped (mem_of_mem_orderConsumers (List.mem_of_mem_filter hc)))

/-! ## The invariant -/

/-- The suspension still has the key ahead. -/
def SuspendPhase.Owes (sup : Supervisor) (key : PyStr) : SuspendPhase → Prop
  | .owed => True
  | .stopping remaining none => key ∈ remaining
  | .stopping remaining (some call) => key ∈ remaining.tail ∨ sup.BeforeLock call key

/-- A suspension of the record still has the key ahead. -/
def Pending (s : State) (object : ℕ) (key : PyStr) : Prop :=
  ∃ k phase, s.tasks k = some (.suspend object phase) ∧ phase.Owes s.sup key

/-- A recovery of this revision is outdated, or all that the record lists have left. -/
def Recovers (t : Tables) (object revision : ℕ) : Prop :=
  object < t.nextObject ∧ ∀ o, t.outage = some o → o.object = object →
    revision ≤ o.revision ∧ (o.revision = revision → ∀ c ∈ o.recorded, c.Left t.sup)

/-- What the data of a task promise. -/
def TaskInv (t : Tables) : Task → Prop
  | .suspend _ _ => True
  | .recover _ .waiting => True
  | .recover _ (.looping object revision remaining) =>
    Recovers t object revision ∧ ∀ c ∈ remaining, c.Left t.sup
  | .recover _ (.starting object revision c remaining) =>
    Recovers t object revision ∧ ∀ c' ∈ c :: remaining, c'.Left t.sup
  | .recover _ (.awaiting object revision c i remaining) =>
    Recovers t object revision ∧ c.Replaced t.sup i ∧ ∀ c' ∈ remaining, c'.Left t.sup
  | .recover _ .finishing => True
  | .migrate snapshot _ => ∀ o, snapshot = some o → ∀ c ∈ o.recorded, c.Left t.sup

structure RecoveryInv (s : State) : Prop where
  history : s.sup.HistoryInv
  removed : s.sup.RemovedFinalized
  tracked : s.sup.Tracked
  fresh : ∀ k, s.nextTask ≤ k → s.tasks k = none
  object : ∀ o, s.outage = some o → o.object < s.nextObject
  known : ∀ o, s.outage = some o → ∀ c ∈ o.recorded, c.Known s.sup
  recorded : ∀ o, s.outage = some o → ∀ c ∈ o.recorded,
    c.Gone s.sup ∨ Pending s o.object c.key
  tasks : ∀ k task, s.tasks k = some task → TaskInv s.toTables task
  counted : ∀ p ∈ s.counted, p.1.Replaced s.sup p.2
  cleared : ∀ c ∈ s.cleared, c.Left s.sup

theorem recoveryInv_initial (components : PyStr → Option Component)
    (roles : List (PyStr × RoleState)) (w : Session) :
    RecoveryInv (initial (.initial components roles) w) where
  history := Supervisor.historyInv_initial components roles
  removed := by rintro _ _ ⟨⟩
  tracked := by rintro _ _ ⟨⟩
  fresh := fun _ _ => rfl
  object := by rintro _ ⟨⟩
  known := by rintro _ ⟨⟩
  recorded := by rintro _ ⟨⟩
  tasks := by rintro _ _ ⟨⟩
  counted := by rintro _ ⟨⟩
  cleared := by rintro _ ⟨⟩

/-- A recorded client of the open outage still is the entry of its key. -/
def Unstopped (s : State) : Prop := ∃ o ∈ s.outage, ∃ c ∈ o.recorded, ¬ c.Gone s.sup

section

variable {s : State}

theorem gone_of_not_unstopped (h : ¬ Unstopped s) {o : Outage} (ho : s.outage = some o)
    {c : Consumer} (hc : c ∈ o.recorded) : c.Gone s.sup := by
  by_contra hgone
  exact h ⟨o, ho, c, hc, hgone⟩

theorem Recovers.mono {t t' : Tables} {object revision : ℕ} (h : Recovers t object revision)
    (hnext : t.nextObject ≤ t'.nextObject)
    (hlive : ∀ o', t'.outage = some o' → o'.object = object →
      revision ≤ o'.revision ∧ (o'.revision = revision → ∀ c ∈ o'.recorded, c.Left t'.sup)) :
    Recovers t' object revision :=
  ⟨h.1.trans_le hnext, hlive⟩

/-- The promises of a task survive a change that keeps the consumers where they are. -/
theorem TaskInv.mono {t t' : Tables} {task : Task} (h : TaskInv t task)
    (hleft : ∀ c : Consumer, c.Left t.sup → c.Left t'.sup)
    (hreplaced : ∀ (c : Consumer) i, c.Replaced t.sup i → c.Replaced t'.sup i)
    (hrecovers : ∀ object revision, Recovers t object revision → Recovers t' object revision) :
    TaskInv t' task := by
  cases task with
  | suspend object phase => trivial
  | recover provider phase =>
    cases phase with
    | waiting => trivial
    | looping object revision remaining =>
      exact ⟨hrecovers _ _ h.1, fun c hc => hleft c (h.2 c hc)⟩
    | starting object revision c remaining =>
      exact ⟨hrecovers _ _ h.1, fun c hc => hleft c (h.2 c hc)⟩
    | awaiting object revision c i remaining =>
      exact ⟨hrecovers _ _ h.1, hreplaced c i h.2.1, fun c hc => hleft c (h.2.2 c hc)⟩
    | finishing => trivial
  | migrate snapshot phase => exact fun o ho c hc => hleft c (h o ho c hc)

theorem RecoveryInv.lt_nextTask (hinv : RecoveryInv s) {k : ℕ} {task : Task}
    (htask : s.tasks k = some task) : k < s.nextTask := by
  by_contra hle
  rw [hinv.fresh k (by omega)] at htask
  cases htask

/-- The lock, the session and the log of the starts are not read. -/
theorem RecoveryInv.congr {s' : State} (hinv : RecoveryInv s) (hsup : s'.sup = s.sup)
    (houtage : s'.outage = s.outage) (hnext : s'.nextObject = s.nextObject)
    (htasks : s'.tasks = s.tasks) (hnextTask : s.nextTask ≤ s'.nextTask)
    (hcounted : s'.counted = s.counted) (hcleared : s'.cleared = s.cleared) :
    RecoveryInv s' := by
  have hrecovers : ∀ object revision, Recovers s.toTables object revision →
      Recovers s'.toTables object revision := by
    intro object revision h
    refine h.mono hnext.ge ?_
    rw [houtage, hsup]
    exact h.2
  have hpending : ∀ {object key}, Pending s object key → Pending s' object key := by
    rintro object key ⟨k, phase, htask, howes⟩
    exact ⟨k, phase, by rw [htasks, htask], by rw [hsup]; exact howes⟩
  constructor
  · rw [hsup]
    exact hinv.history
  · rw [hsup]
    exact hinv.removed
  · rw [hsup]
    exact hinv.tracked
  · intro k hk
    rw [htasks]
    exact hinv.fresh k (by omega)
  · rw [houtage, hnext]
    exact hinv.object
  · rw [houtage, hsup]
    exact hinv.known
  · rw [houtage, hsup]
    exact fun o ho c hc => (hinv.recorded o ho c hc).imp_right hpending
  · rw [htasks]
    intro k task htask
    refine (hinv.tasks k task htask).mono ?_ ?_ hrecovers
    · rw [hsup]
      exact fun c hc => hc
    · rw [hsup]
      exact fun c i hc => hc
  · rw [hcounted, hsup]
    exact hinv.counted
  · rw [hcleared, hsup]
    exact hinv.cleared

/-- A task is replaced. A suspension of the open outage still owes what has not left. -/
theorem RecoveryInv.setTask (hinv : RecoveryInv s) {k : ℕ} {new : Option Task}
    (hk : s.nextTask ≤ k → new = none)
    (hnew : ∀ task, new = some task → TaskInv s.toTables task)
    (howes : ∀ o phase, s.outage = some o → s.tasks k = some (.suspend o.object phase) →
      ∀ c ∈ o.recorded, phase.Owes s.sup c.key →
        c.Gone s.sup ∨ ∃ phase', new = some (.suspend o.object phase') ∧
          phase'.Owes s.sup c.key) :
    RecoveryInv (s.setTask k new) := by
  refine ⟨hinv.history, hinv.removed, hinv.tracked, ?_, hinv.object, hinv.known, ?_, ?_,
    hinv.counted, hinv.cleared⟩
  · intro j hj
    by_cases hne : j = k
    · subst hne
      simp [State.setTask, hk hj]
    · simp only [State.setTask, Function.update_of_ne hne]
      exact hinv.fresh j hj
  · intro o ho c hc
    rcases hinv.recorded o ho c hc with hgone | ⟨j, phase, htask, hphase⟩
    · exact .inl hgone
    · by_cases hj : j = k
      · subst hj
        rcases howes o phase ho htask c hc hphase with hgone | ⟨phase', hphase', howes'⟩
        · exact .inl hgone
        · exact .inr ⟨j, phase', by simp [State.setTask, hphase'], howes'⟩
      · exact .inr ⟨j, phase, by simpa [State.setTask, hj] using htask, hphase⟩
  · intro j task htask
    by_cases hj : j = k
    · subst hj
      exact hnew task (by simpa [State.setTask] using htask)
    · exact hinv.tasks j task (by simpa [State.setTask, hj] using htask)

/-- A task that is no suspension goes on. -/
theorem RecoveryInv.advance (hinv : RecoveryInv s) {k : ℕ} {old : Task} {new : Option Task}
    (hold : s.tasks k = some old) (hother : ∀ object phase, old ≠ .suspend object phase)
    (hnew : ∀ task, new = some task → TaskInv s.toTables task) :
    RecoveryInv (s.setTask k new) := by
  have hk := hinv.lt_nextTask hold
  refine hinv.setTask (fun hle => by omega) hnew fun o phase ho htask => ?_
  rw [hold] at htask
  cases htask
  exact (hother _ _ rfl).elim

theorem RecoveryInv.leave (hinv : RecoveryInv s) {k : ℕ} {old : Task}
    (hold : s.tasks k = some old) (hother : ∀ object phase, old ≠ .suspend object phase) :
    RecoveryInv (s.leave k) :=
  (hinv.advance hold hother (by rintro _ ⟨⟩)).congr rfl rfl rfl rfl le_rfl rfl rfl

/-- A new task promises something true. -/
theorem RecoveryInv.spawnTask (hinv : RecoveryInv s) {task : Task}
    (hnew : TaskInv s.toTables task) : RecoveryInv (s.spawnTask task) := by
  have hroom : RecoveryInv { s with nextTask := s.nextTask + 1 } :=
    hinv.congr rfl rfl rfl rfl (Nat.le_succ _) rfl rfl
  refine hroom.setTask (fun hle => absurd hle (Nat.not_succ_le_self s.nextTask)) ?_ ?_
  · rintro task' ⟨⟩
    exact hnew
  · intro o phase ho htask
    rw [hinv.fresh s.nextTask le_rfl] at htask
    cases htask

/-- The record changes and everything a task relies on is kept. -/
theorem RecoveryInv.record (hinv : RecoveryInv s) {outage : Option Outage} {next : ℕ}
    (hnext : s.nextObject ≤ next) (hobject : ∀ o, outage = some o → o.object < next)
    (hrecovers : ∀ o object revision, outage = some o → o.object = object →
      Recovers s.toTables object revision →
      revision ≤ o.revision ∧ (o.revision = revision → ∀ c ∈ o.recorded, c.Left s.sup))
    (hknown : ∀ o, outage = some o → ∀ c ∈ o.recorded, c.Known s.sup)
    (hrecorded : ∀ o, outage = some o → ∀ c ∈ o.recorded,
      c.Gone s.sup ∨ Pending s o.object c.key) :
    RecoveryInv { s with outage := outage, nextObject := next } := by
  refine ⟨hinv.history, hinv.removed, hinv.tracked, hinv.fresh, hobject, hknown, ?_, ?_,
    hinv.counted, hinv.cleared⟩
  · exact hrecorded
  · intro k task htask
    refine (hinv.tasks k task htask).mono (fun c hc => hc) (fun c i hc => hc) ?_
    intro object revision h
    exact h.mono hnext fun o ho heq => hrecovers o object revision ho heq h

theorem RecoveryInv.noRecord (hinv : RecoveryInv s) : RecoveryInv { s with outage := none } :=
  hinv.record le_rfl (by rintro _ ⟨⟩) (by rintro o object revision ⟨⟩) (by rintro _ ⟨⟩)
    (by rintro _ ⟨⟩)

theorem RecoveryInv.allow (hinv : RecoveryInv s) (object : ℕ) (key : PyStr) (allowed : Bool) :
    RecoveryInv (s.allow object key allowed) := by
  have hsame : ∀ o', (s.allow object key allowed).outage = some o' → ∃ o, s.outage = some o ∧
      o'.object = o.object ∧ o'.revision = o.revision ∧ o'.recorded = o.recorded := by
    intro o' ho'
    obtain ⟨o, f, ho, rfl⟩ := continues_allow ho'
    exact ⟨o, ho, rfl, rfl, rfl⟩
  refine hinv.record le_rfl ?_ ?_ ?_ ?_
  · intro o' ho'
    obtain ⟨o, ho, hobject, -, -⟩ := hsame o' ho'
    rw [hobject]
    exact hinv.object o ho
  · intro o' object' revision ho' heq h
    obtain ⟨o, ho, hobject, hrevision, hrecorded⟩ := hsame o' ho'
    rw [hrevision, hrecorded]
    exact h.2 o ho (hobject ▸ heq)
  · intro o' ho'
    obtain ⟨o, ho, -, -, hrecorded⟩ := hsame o' ho'
    rw [hrecorded]
    exact hinv.known o ho
  · intro o' ho'
    obtain ⟨o, ho, hobject, -, hrecorded⟩ := hsame o' ho'
    rw [hrecorded, hobject]
    exact hinv.recorded o ho

/-- A begin records entries, and the task that made it owes their suspension. -/
theorem RecoveryInv.begin {manifest : Component → Manifest} (hinv : RecoveryInv s)
    {l : Supervisor.Label} {t : Tables} {o : Outage} (ht : begins manifest s.toTables l = some t)
    (ho : t.outage = some o) :
    RecoveryInv (State.spawnTask { s with toTables := { t with sup := s.sup } }
      (.suspend o.object .owed)) := by
  obtain ⟨loss, -, -, -, o', ho', hbegun⟩ := begins_spec ht
  rw [ho] at ho'
  cases ho'
  -- the suspension is there before the record
  have hspawned : RecoveryInv (s.spawnTask (.suspend o.object .owed)) := hinv.spawnTask trivial
  have hnext : s.nextObject ≤ t.nextObject := by
    cases hbegun with
    | opened closed object flag consumers dropped next => omega
    | merged pending object flag revision consumers dropped next => omega
  have hrecord : RecoveryInv { s.spawnTask (.suspend o.object .owed) with
      outage := t.outage, nextObject := t.nextObject } := by
    refine hspawned.record hnext ?_ ?_ ?_ ?_
    · intro o' ho'
      rw [ho] at ho'
      cases ho'
      cases hbegun with
      | opened closed object flag consumers dropped next => omega
      | @merged old pending object flag revision consumers dropped next =>
        rw [object, next]
        exact hinv.object old pending
    · intro o' object' revision' ho' heq h
      rw [ho] at ho'
      cases ho'
      cases hbegun with
      | opened closed object flag consumers dropped next =>
        have hlt : object' < s.nextObject := h.1
        omega
      | @merged old pending object flag revision consumers dropped next =>
        obtain ⟨hle, -⟩ := h.2 old pending (object.symm.trans heq)
        constructor <;> omega
    · intro o' ho' c hc
      rw [ho] at ho'
      cases ho'
      rcases begun_recorded hbegun hc with ⟨old, hold, -, hc⟩ | hc
      · exact hinv.known old hold c hc
      · exact known_of_mem_running hinv.history.toEntryInv hc
    · intro o' ho' c hc
      rw [ho] at ho'
      cases ho'
      exact .inr ⟨s.nextTask, .owed, by simp [State.spawnTask, State.setTask], trivial⟩
  exact hrecord.congr rfl rfl rfl rfl le_rfl rfl rfl

/-- The supervisor moves, and no stop that a suspension of the open outage awaits is cut short. -/
theorem RecoveryInv.supervisor (hinv : RecoveryInv s) {l : Supervisor.Label} {sup : Supervisor}
    (h : s.sup.step l = some sup) (hwhole : Supervisor.RemovesWholly l)
    (habort : s.sup.NoAbortedStop l)
    (hcuts : ∀ o k remaining c, s.outage = some o →
      s.tasks k = some (.suspend o.object (.stopping remaining (some c))) → l.cut = some c →
      ¬ Unstopped s) :
    RecoveryInv { s with sup := sup } := by
  have hchange := Supervisor.step_tableChange h
  have hentries := hinv.history.toEntryInv
  have hgone : ∀ {c : Consumer}, c.Known s.sup → c.Gone s.sup → c.Gone sup := by
    intro c hknown hgone
    exact (Consumer.Left.step ⟨hknown, hgone⟩ hentries hchange).gone
  constructor
  · exact hinv.history.step h
  · exact hinv.removed.step hinv.history.toLockInv hwhole h
  · exact (Supervisor.step_tableInv
      ⟨hinv.history.toLockInv, hinv.history.toGenerationInv, hinv.tracked⟩ habort h).tracked
  · exact hinv.fresh
  · exact hinv.object
  · exact fun o ho c hc => (hinv.known o ho c hc).step hentries hchange
  · intro o ho c hc
    have hknown := hinv.known o ho c hc
    rcases hinv.recorded o ho c hc with hleft | ⟨k, phase, htask, howes⟩
    · exact .inl (hgone hknown hleft)
    · cases phase with
      | owed => exact .inr ⟨k, _, htask, trivial⟩
      | stopping remaining call =>
        cases call with
        | none => exact .inr ⟨k, _, htask, howes⟩
        | some call =>
          rcases howes with hahead | hwaits
          · exact .inr ⟨k, _, htask, .inl hahead⟩
          · by_cases hcut : l.cut = some call
            · have hstopped := hcuts o k remaining call ho htask hcut
              exact .inl (hgone hknown (gone_of_not_unstopped hstopped ho hc))
            · rcases hwaits.step hinv.history.toLockInv hcut h with hwaits | hnone
              · exact .inr ⟨k, _, htask, .inr hwaits⟩
              · apply Or.inl
                unfold Consumer.Gone
                simp [hnone]
  · intro k task htask
    refine (hinv.tasks k task htask).mono (fun c hc => hc.step hentries hchange)
      (fun c i hc => hc.step hentries hchange) ?_
    intro object revision hrecovers
    refine hrecovers.mono le_rfl fun o ho heq => ?_
    obtain ⟨hle, hleft⟩ := hrecovers.2 o ho heq
    exact ⟨hle, fun hrevision c hc => (hleft hrevision c hc).step hentries hchange⟩
  · exact fun p hp => (hinv.counted p hp).step hentries hchange
  · exact fun c hc => (hinv.cleared c hc).step hentries hchange

end

/-! ## Steps that leave the suspension alone -/

/-- The task suspends clients of the open outage. -/
def suspends (s : State) (k : ℕ) : Bool :=
  match s.tasks k with
  | some (.suspend object _) => (s.live object).isSome
  | _ => false

/-- The stop that a suspension of the open outage waits for. -/
def awaited (s : State) (k : ℕ) : Option ℕ :=
  match s.tasks k with
  | some (.suspend object (.stopping _ call)) => if (s.live object).isSome then call else none
  | _ => none

/-- No suspension of the open outage has a client left to stop. -/
def Settled (s : State) : Prop := Unstopped s → ∀ k < s.nextTask, suspends s k = false

/-- The checks of a recovery that has the lock. -/
def admits (manifest : Component → Manifest) (s : State) (k : ℕ) : Bool :=
  match s.tasks k with
  | some (.recover provider .waiting) =>
    (s.sup.heap provider).any fun inst =>
      inst.ready && ownsActiveDisplayOutput manifest s.sup provider inst
  | _ => false

/-- While a recorded client of the open outage still runs, no suspension of it and no stop such a
suspension waits for is cancelled, and no recovery or migration overtakes it. Apart from the
outage, no removal of an entry fails or is cut short while its process lives. -/
def Undisturbed (manifest : Component → Manifest) (s : State) : Label → Prop
  | .sup l => Supervisor.RemovesWholly l ∧ s.sup.NoAbortedStop l ∧
    ∀ c ∈ l.cut, Unstopped s → ∀ k < s.nextTask, awaited s k ≠ some c
  | .recover (.lock k) => admits manifest s k = true → Settled s
  | .migrate .enter => Settled s
  | .cancel k => Unstopped s → suspends s k = false
  | _ => True

instance (s : State) : Decidable (Unstopped s) :=
  inferInstanceAs (Decidable (∃ o ∈ s.outage, _))

instance (s : State) : Decidable (Settled s) :=
  inferInstanceAs (Decidable (_ → _))

instance (manifest : Component → Manifest) (s : State) :
    (l : Label) → Decidable (Undisturbed manifest s l)
  | .sup _ => inferInstanceAs (Decidable (_ ∧ _ ∧ _))
  | .recover (.lock _) => inferInstanceAs (Decidable (_ → _))
  | .migrate .enter => inferInstanceAs (Decidable (Settled s))
  | .cancel _ => inferInstanceAs (Decidable (_ → _))
  | .session _ | .suspend _ | .recover (.schedule _) | .recover (.next _) | .recover (.started _)
  | .recover (.counted _) | .recover (.failed _) | .recover (.finish _) | .migrate (.commit _ _)
  | .migrate (.next _) | .migrate (.started _) | .migrate (.failed _) | .migrate (.restore _ _) =>
    isTrue trivial

section

variable {manifest : Component → Manifest} {s s' : State}

theorem live_eq_some {object : ℕ} {o : Outage} :
    s.live object = some o ↔ s.outage = some o ∧ o.object = object := by
  simp [State.live, Option.filter_eq_some_iff]

theorem suspends_of_task {o : Outage} {k : ℕ} {phase : SuspendPhase} (ho : s.outage = some o)
    (htask : s.tasks k = some (.suspend o.object phase)) : suspends s k = true := by
  have hlive : s.live o.object = some o := live_eq_some.mpr ⟨ho, rfl⟩
  simp [suspends, htask, hlive]

theorem RecoveryInv.left_of_settled (hinv : RecoveryInv s) (hsettled : Settled s) {o : Outage}
    (ho : s.outage = some o) {c : Consumer} (hc : c ∈ o.recorded) : c.Left s.sup := by
  refine ⟨hinv.known o ho c hc, ?_⟩
  by_contra hgone
  rcases hinv.recorded o ho c hc with hleft | ⟨k, phase, htask, -⟩
  · exact hgone hleft
  · have hsuspends := suspends_of_task ho htask
    rw [hsettled ⟨o, ho, c, hc, hgone⟩ k (hinv.lt_nextTask htask)] at hsuspends
    cases hsuspends

/-- A task ends; what it owed has left. -/
theorem RecoveryInv.quit (hinv : RecoveryInv s) {k : ℕ}
    (howes : ∀ o phase, s.outage = some o → s.tasks k = some (.suspend o.object phase) →
      ∀ c ∈ o.recorded, phase.Owes s.sup c.key → c.Gone s.sup) : RecoveryInv (s.leave k) := by
  have hremoved : RecoveryInv (s.setTask k none) := by
    refine hinv.setTask (fun _ => rfl) (by rintro _ ⟨⟩) ?_
    intro o phase ho htask c hc hphase
    exact .inl (howes o phase ho htask c hc hphase)
  exact hremoved.congr rfl rfl rfl rfl le_rfl rfl rfl

theorem cut_of_begins {l : Supervisor.Label} {t : Tables}
    (h : begins manifest s.toTables l = some t) : l.cut = none := by
  obtain ⟨loss, hloss, -⟩ := Option.bind_eq_some_iff.mp h
  cases l with
  | stop l => cases l <;> first | rfl | cases hloss
  | _ => rfl

theorem RecoveryInv.supStep {l : Supervisor.Label} (hinv : RecoveryInv s)
    (hcond : Undisturbed manifest s (.sup l)) (h : supStep manifest s l = some s') :
    RecoveryInv s' := by
  obtain ⟨hwhole, habort, hcuts⟩ := hcond
  obtain ⟨sup, hsup, hcases⟩ := supStep_cases h
  rcases hcases with ⟨-, rfl⟩ | ⟨t, o, ht, ho, rfl⟩
  · refine hinv.supervisor hsup hwhole habort ?_
    intro o k remaining c ho htask hcut hunstopped
    have hlive : s.live o.object = some o := live_eq_some.mpr ⟨ho, rfl⟩
    have hawaited : awaited s k = some c := by simp [awaited, htask, hlive]
    exact hcuts c hcut hunstopped k (hinv.lt_nextTask htask) hawaited
  · have hbegun := hinv.begin ht ho
    refine hbegun.supervisor hsup hwhole habort ?_
    intro o k remaining c _ _ hcut
    rw [cut_of_begins ht] at hcut
    cases hcut

/-- A step of the supervisor leaves the tasks that are there. -/
theorem supStep_tasks {l : Supervisor.Label} (h : supStep manifest s l = some s') {k : ℕ}
    (hk : k < s.nextTask) : s.nextTask ≤ s'.nextTask ∧ s'.tasks k = s.tasks k := by
  obtain ⟨sup, -, hcases⟩ := supStep_cases h
  rcases hcases with ⟨-, rfl⟩ | ⟨t, o, -, -, rfl⟩
  · exact ⟨le_rfl, rfl⟩
  · exact ⟨Nat.le_succ _, by simp [State.spawnTask, State.setTask, hk.ne]⟩

theorem RecoveryInv.suspendStep {l : SuspendLabel} (hinv : RecoveryInv s)
    (h : suspendStep manifest s l = some s') : RecoveryInv s' := by
  cases l with
  | lock k =>
    simp only [Display.suspendStep] at h
    split at h
    next object htask =>
      have hk := hinv.lt_nextTask htask
      split_ifs at h
      split at h
      next o hlive =>
        cases h
        obtain ⟨ho, hobject⟩ := live_eq_some.mp hlive
        have hstopping : RecoveryInv
            (s.setTask k (some (.suspend object (.stopping o.affected none)))) := by
          refine hinv.setTask (fun hle => by omega) (by rintro _ ⟨⟩; trivial) ?_
          intro o' phase ho' htask' c hc _
          rw [ho] at ho'
          cases ho'
          exact .inr ⟨.stopping o.affected none, by rw [hobject], key_mem_affected hc⟩
        exact hstopping.congr rfl rfl rfl rfl le_rfl rfl rfl
      next hlive =>
        cases h
        refine hinv.quit fun o phase ho htask' => ?_
        rw [htask] at htask'
        cases htask'
        rw [live_eq_some.mpr ⟨ho, rfl⟩] at hlive
        cases hlive
    · cases h
  | next k =>
    simp only [Display.suspendStep] at h
    split at h
    next object remaining htask =>
      have hk := hinv.lt_nextTask htask
      rcases suspendTurn_cases h with ⟨rfl, hend⟩ | ⟨key, rest, rfl, hlive, hnone, rfl⟩ |
        ⟨key, rest, mid, rfl, hlive, hmid, rfl⟩
      · refine hinv.quit fun o phase ho htask' c hc howes => ?_
        rw [htask] at htask'
        cases htask'
        rcases hend with rfl | hdead
        · cases howes
        · rw [live_eq_some.mpr ⟨ho, rfl⟩] at hdead
          cases hdead
      · refine hinv.setTask (fun hle => by omega) (by rintro _ ⟨⟩; trivial) ?_
        intro o phase ho htask' c hc howes
        rw [htask] at htask'
        cases htask'
        rcases List.mem_cons.mp howes with heq | hrest
        · apply Or.inl
          rw [Consumer.Gone, heq, hnone]
          rintro ⟨⟩
        · exact .inr ⟨_, rfl, hrest⟩
      · have hmoved := hinv.supStep (l := .stop (.enter key none)) ⟨trivial, trivial, (by rintro _ ⟨⟩)⟩ hmid
        obtain ⟨hnext, hsame⟩ := supStep_tasks hmid hk
        have hcall : mid.sup.calls s.sup.nextCall = some (.stop key none .retry) := by
          have hsup : some _ = some mid.sup := supStep_sup hmid
          rw [← Option.some.inj hsup]
          simp [Supervisor.openCall, Supervisor.setCall, Supervisor.setStopRequest]
        refine hmoved.setTask (fun hle => by omega) (by rintro _ ⟨⟩; trivial) ?_
        intro o phase ho htask' c hc howes
        rw [hsame, htask] at htask'
        cases htask'
        refine .inr ⟨_, rfl, ?_⟩
        rcases List.mem_cons.mp howes with heq | hrest
        · exact .inr ⟨.retry, by rw [heq, hcall], .inl rfl⟩
        · exact .inl hrest
    next => cases h
  | stopped k =>
    simp only [Display.suspendStep] at h
    split at h
    next object remaining c htask =>
      have hk := hinv.lt_nextTask htask
      split_ifs at h with hended
      cases h
      refine hinv.setTask (fun hle => by omega) (by rintro _ ⟨⟩; trivial) ?_
      intro o phase ho htask' c' hc' howes
      rw [htask] at htask'
      cases htask'
      rcases howes with hahead | ⟨p, hcall, -⟩
      · exact .inr ⟨_, rfl, hahead⟩
      · rw [hended] at hcall
        cases hcall
    next => cases h

/-! ### Recoveries -/

theorem RecoveryInv.clearOutage (hinv : RecoveryInv s) {object revision : ℕ} {o : Outage}
    (hrecovers : Recovers s.toTables object revision)
    (hlive : s.outage = some o ∧ o.object = object) (hrevision : o.revision = revision) :
    RecoveryInv (clearOutage s o) := by
  have hleft : ∀ c ∈ o.recorded, c.Left s.sup := (hrecovers.2 o hlive.1 hlive.2).2 hrevision
  have hclosed := hinv.noRecord
  refine ⟨hclosed.history, hclosed.removed, hclosed.tracked, hclosed.fresh, hclosed.object,
    hclosed.known, hclosed.recorded, ?_, hclosed.counted, ?_⟩
  · intro k task htask
    exact (hclosed.tasks k task htask).mono (fun c hc => hc) (fun c i hc => hc) fun _ _ h => h
  · intro c hc
    rcases List.mem_append.mp hc with hc | hc
    · exact hinv.cleared c hc
    · exact hleft c (List.mem_append_right _ hc)

theorem recoveryCurrent_spec {provider object revision : ℕ} {o : Outage}
    (h : recoveryCurrent manifest s provider object revision = some o) :
    (s.outage = some o ∧ o.object = object) ∧ o.revision = revision := by
  unfold recoveryCurrent at h
  split_ifs at h
  obtain ⟨hlive, hrevision⟩ := Option.filter_eq_some_iff.mp h
  exact ⟨live_eq_some.mp hlive, by simpa using hrevision⟩

theorem RecoveryInv.recoverTurn {k provider object revision : ℕ} {o : Outage}
    {remaining : List Consumer} (hinv : RecoveryInv s)
    (htask : s.tasks k = some (.recover provider (.looping object revision remaining)))
    (hcurrent : recoveryCurrent manifest s provider object revision = some o) :
    RecoveryInv (recoverTurn manifest s k provider object revision o remaining) := by
  obtain ⟨hrecovers, hleft⟩ := hinv.tasks k _ htask
  cases remaining with
  | nil =>
    obtain ⟨hlive, hrevision⟩ := recoveryCurrent_spec hcurrent
    have hcleared := hinv.clearOutage hrecovers hlive hrevision
    exact hcleared.advance htask (by simp) (by rintro _ ⟨⟩; trivial)
  | cons c rest =>
    have hskipped : RecoveryInv
        (s.setTask k (some (.recover provider (.looping object revision rest)))) := by
      refine hinv.advance htask (by simp) ?_
      rintro _ ⟨⟩
      exact ⟨hrecovers, fun c' hc' => hleft c' (List.mem_cons_of_mem _ hc')⟩
    unfold Display.recoverTurn
    dsimp only
    split
    · exact hskipped
    · split_ifs
      · exact hskipped
      · exact hskipped
      · have hbudget : RecoveryInv { s with
            session := s.session.restoreOutageFailureBudget o c.key
            started := s.started ++ [c] } := hinv.congr rfl rfl rfl rfl le_rfl rfl rfl
        have hallowed := hbudget.allow object c.key true
        obtain ⟨hrecovers', hleft'⟩ := hallowed.tasks k _ htask
        refine hallowed.advance htask (by simp) ?_
        rintro _ ⟨⟩
        exact ⟨hrecovers', hleft'⟩

theorem RecoveryInv.recoverStep {l : RecoverLabel} (hinv : RecoveryInv s)
    (hcond : Undisturbed manifest s (.recover l)) (h : recoverStep manifest s l = some s') :
    RecoveryInv s' := by
  cases l with
  | schedule provider =>
    cases h
    exact hinv.spawnTask trivial
  | lock k =>
    simp only [Display.recoverStep] at h
    split at h
    next provider htask =>
      split_ifs at h
      split at h
      next inst o hinst ho =>
        split_ifs at h with hadmitted
        · cases h
          have hsettled : Settled s := hcond (by simp [admits, htask, hinst, hadmitted])
          have hleft : ∀ c ∈ o.recorded, c.Left s.sup :=
            fun c hc => hinv.left_of_settled hsettled ho hc
          have hlooping : RecoveryInv (s.setTask k
              (some (.recover provider (.looping o.object o.revision o.consumers)))) := by
            refine hinv.advance htask (by simp) ?_
            rintro _ ⟨⟩
            refine ⟨⟨hinv.object o ho, ?_⟩, fun c hc => hleft c (List.mem_append_left _ hc)⟩
            intro o' ho' _
            rw [ho] at ho'
            cases ho'
            exact ⟨le_rfl, fun _ => hleft⟩
          exact hlooping.congr rfl rfl rfl rfl le_rfl rfl rfl
        · cases h
          exact hinv.leave htask (by simp)
      · cases h
        exact hinv.leave htask (by simp)
    · cases h
  | next k =>
    simp only [Display.recoverStep] at h
    split at h
    next provider object revision remaining htask =>
      split at h
      next o hcurrent =>
        cases h
        exact hinv.recoverTurn htask hcurrent
      · cases h
        exact hinv.leave htask (by simp)
    · cases h
  | started k =>
    simp only [Display.recoverStep] at h
    split at h
    next provider object revision c rest htask =>
      obtain ⟨⟨i, inst⟩, hentry, rfl⟩ := Option.map_eq_some_iff.mp h
      obtain ⟨hrecovers, hleft⟩ := hinv.tasks k _ htask
      refine hinv.advance htask (by simp) ?_
      rintro _ ⟨⟩
      refine ⟨hrecovers, ?_, fun c' hc' => hleft c' (List.mem_cons_of_mem _ hc')⟩
      exact (hleft c List.mem_cons_self).replaced hinv.history hentry
    · cases h
  | counted k =>
    simp only [Display.recoverStep] at h
    split at h
    next provider object revision c i rest htask =>
      split at h
      · split_ifs at h
        cases h
        obtain ⟨hrecovers, hreplaced, hleft⟩ := hinv.tasks k _ htask
        have hcounted : RecoveryInv { s with counted := s.counted ++ [(c, i)] } := by
          refine ⟨hinv.history, hinv.removed, hinv.tracked, hinv.fresh, hinv.object, hinv.known,
            hinv.recorded, hinv.tasks, ?_, hinv.cleared⟩
          intro p hp
          rcases List.mem_append.mp hp with hp | hp
          · exact hinv.counted p hp
          · rw [List.mem_singleton.mp hp]
            exact hreplaced
        have hallowed := hcounted.allow object c.key false
        refine hallowed.advance htask (by simp) ?_
        rintro _ ⟨⟩
        obtain ⟨hrecovers', -, hleft'⟩ := hallowed.tasks k _ htask
        exact ⟨hrecovers', hleft'⟩
      · cases h
    · cases h
  | failed k =>
    simp only [Display.recoverStep] at h
    split at h
    next provider object revision c rest htask =>
      cases h
      have hallowed := hinv.allow object c.key false
      obtain ⟨hrecovers, hleft⟩ := hallowed.tasks k _ htask
      refine hallowed.advance htask (by simp) ?_
      rintro _ ⟨⟩
      exact ⟨hrecovers, fun c' hc' => hleft c' (List.mem_cons_of_mem _ hc')⟩
    next provider object revision c i rest htask =>
      cases h
      have hallowed := hinv.allow object c.key false
      obtain ⟨hrecovers, -, hleft⟩ := hallowed.tasks k _ htask
      refine hallowed.advance htask (by simp) ?_
      rintro _ ⟨⟩
      exact ⟨hrecovers, hleft⟩
    · cases h
  | finish k =>
    simp only [Display.recoverStep] at h
    split at h
    next provider htask =>
      cases h
      exact hinv.leave htask (by simp)
    · cases h

/-! ### Migrations -/

theorem RecoveryInv.rollbackOutage {k : ℕ} {snapshot : Option Outage} {attempted : List Consumer}
    {phase : MigratePhase} (hinv : RecoveryInv s)
    (htask : s.tasks k = some (.migrate snapshot phase)) :
    RecoveryInv (rollbackOutage s k attempted snapshot) := by
  cases snapshot with
  | none => exact hinv.advance htask (by simp) (by rintro _ ⟨⟩ o ⟨⟩)
  | some o =>
    have hleft : ∀ c ∈ o.recorded, c.Left s.sup := hinv.tasks k _ htask o rfl
    have hback : RecoveryInv { s with
        outage := some { o with object := s.nextObject, recoveryAllowed := fun _ => false }
        nextObject := s.nextObject + 1 } := by
      refine hinv.record (Nat.le_succ _) ?_ ?_ ?_ ?_
      · rintro _ ⟨⟩
        exact Nat.lt_succ_self _
      · rintro _ object revision ⟨⟩ heq h
        -- no recovery knows the new object
        have hlt : object < s.nextObject := h.1
        change s.nextObject = object at heq
        omega
      · rintro _ ⟨⟩ c hc
        exact (hleft c hc).known
      · rintro _ ⟨⟩ c hc
        exact .inl (hleft c hc).gone
    exact hback.leave htask (by simp)

theorem RecoveryInv.migrateTurn {k : ℕ} {snapshot : Option Outage}
    {attempted remaining : List Consumer} (hinv : RecoveryInv s)
    (htask : s.tasks k = some (.migrate snapshot (.restarting remaining attempted))) :
    RecoveryInv (migrateTurn s k snapshot attempted remaining) := by
  have hsnapshot : ∀ o, snapshot = some o → ∀ c ∈ o.recorded, c.Left s.sup :=
    hinv.tasks k _ htask
  cases remaining with
  | nil =>
    simp only [Display.migrateTurn]
    split_ifs
    · cases snapshot with
      | none => exact hinv.leave htask (by simp)
      | some o => exact hinv.noRecord.leave htask (by simp)
    · exact hinv.rollbackOutage htask
  | cons c rest =>
    simp only [Display.migrateTurn]
    split_ifs
    · exact hinv.rollbackOutage htask
    · exact hinv.advance htask (by simp) (by rintro _ ⟨⟩; exact hsnapshot)
    · have hstarted : RecoveryInv { s with started := s.started ++ [c] } :=
        hinv.congr rfl rfl rfl rfl le_rfl rfl rfl
      cases snapshot with
      | none => exact hstarted.advance htask (by simp) (by rintro _ ⟨⟩; exact hsnapshot)
      | some o =>
        have hbudget : RecoveryInv { s with
            session := s.session.restoreOutageFailureBudget o c.key
            started := s.started ++ [c] } := hinv.congr rfl rfl rfl rfl le_rfl rfl rfl
        exact (hbudget.allow _ c.key true).advance htask (by simp)
          (by rintro _ ⟨⟩; exact hsnapshot)

theorem RecoveryInv.migrateStep {l : MigrateLabel} (hinv : RecoveryInv s)
    (hcond : Undisturbed manifest s (.migrate l)) (h : migrateStep manifest s l = some s') :
    RecoveryInv s' := by
  cases l with
  | enter =>
    simp only [Display.migrateStep] at h
    split_ifs at h
    cases h
    have hspawned : RecoveryInv (s.spawnTask (.migrate s.outage .switching)) :=
      hinv.spawnTask fun o ho c hc => hinv.left_of_settled hcond ho hc
    exact hspawned.congr rfl rfl rfl rfl le_rfl rfl rfl
  | commit k invalidated =>
    simp only [Display.migrateStep] at h
    split at h
    next snapshot htask =>
      have hsnapshot : ∀ o, snapshot = some o → ∀ c ∈ o.recorded, c.Left s.sup :=
        hinv.tasks k _ htask
      split_ifs at h
      all_goals cases h
      · exact hinv.advance htask (by simp) (by rintro _ ⟨⟩; exact hsnapshot)
      · exact hinv.advance htask (by simp) (by rintro _ ⟨⟩; exact hsnapshot)
      · exact hinv.leave htask (by simp)
    · cases h
  | next k =>
    simp only [Display.migrateStep] at h
    split at h
    next snapshot remaining attempted htask =>
      cases h
      exact hinv.migrateTurn htask
    · cases h
  | started k =>
    simp only [Display.migrateStep] at h
    split at h
    next snapshot c rest attempted htask =>
      cases h
      have hsnapshot : ∀ o, snapshot = some o → ∀ c ∈ o.recorded, c.Left s.sup :=
        hinv.tasks k _ htask
      exact (hinv.allow _ c.key false).advance htask (by simp) (by rintro _ ⟨⟩; exact hsnapshot)
    · cases h
  | failed k =>
    simp only [Display.migrateStep] at h
    split at h
    next snapshot htask =>
      cases h
      exact hinv.leave htask (by simp)
    next snapshot remaining attempted htask =>
      cases h
      exact hinv.rollbackOutage htask
    next snapshot c rest attempted htask =>
      cases h
      exact (hinv.allow _ c.key false).rollbackOutage htask
    · cases h
  | restore k kept =>
    simp only [Display.migrateStep] at h
    split at h
    next snapshot remaining htask =>
      have hsnapshot : ∀ o, snapshot = some o → ∀ c ∈ o.recorded, c.Left s.sup :=
        hinv.tasks k _ htask
      split at h
      · cases h
        exact hinv.leave htask (by simp)
      next c rest =>
        cases h
        have hlogged : RecoveryInv { s with
            started := if kept then s.started else s.started ++ [c] } :=
          hinv.congr rfl rfl rfl rfl le_rfl rfl rfl
        exact hlogged.advance htask (by simp) (by rintro _ ⟨⟩; exact hsnapshot)
    · cases h

theorem RecoveryInv.step {l : Label} (hinv : RecoveryInv s) (hcond : Undisturbed manifest s l)
    (h : step manifest s l = some s') : RecoveryInv s' := by
  cases l with
  | sup l => exact hinv.supStep hcond h
  | session w =>
    cases h
    exact hinv.congr rfl rfl rfl rfl le_rfl rfl rfl
  | suspend l => exact hinv.suspendStep h
  | recover l => exact hinv.recoverStep hcond h
  | migrate l => exact hinv.migrateStep hcond h
  | cancel k =>
    cases h
    refine hinv.quit fun o phase ho htask c hc _ => ?_
    by_contra hgone
    have hsuspends := suspends_of_task ho htask
    rw [hcond ⟨o, ho, c, hc, hgone⟩] at hsuspends
    cases hsuspends

end

/-! ## Runs -/

/-- Everyone a recovery counted is a later generation than the recorded one, and everyone an
outage dropped was stopped when it was cleared. -/
def RecoversFresh (s : State) : Prop :=
  (∀ p ∈ s.counted, p.1.Replaced s.sup p.2) ∧ ∀ c ∈ s.cleared, c.Stopped s.sup

/-- Along a run that disturbs no suspension, recoveries adopt no recorded generation. -/
theorem recoversFresh_of_undisturbed (manifest : Component → Manifest)
    (components : PyStr → Option Component) (roles : List (PyStr × RoleState)) (w : Session)
    (ls : List Label) (s : State)
    (halong : Along (step manifest) (Undisturbed manifest)
      (initial (.initial components roles) w) ls)
    (hrun : run (step manifest) (initial (.initial components roles) w) ls = some s) :
    RecoversFresh s := by
  have hinv : RecoveryInv s :=
    run_invariant (fun _ _ _ hs hcond hstep => hs.step hcond hstep) ls
      (recoveryInv_initial components roles w) halong hrun
  exact ⟨hinv.counted, fun c hc => (hinv.cleared c hc).stopped hinv.removed hinv.tracked⟩

instance (sup : Supervisor) (c : Consumer) (i : ℕ) : Decidable (c.Replaced sup i) :=
  inferInstanceAs (Decidable (∃ inst ∈ sup.heap i, _))

/-- The display dies and is restarted; the panel `p` is stopped and recovered, the application `a`
only stopped. -/
def lossAndRecovery : List Label :=
  sampleStart ++ startKey "p" 2 102 ++
  [.sup (.life (.exit 0)), .sup (.life (.watcherFinalize 0)), .suspend (.lock 0),
    .suspend (.next 0)] ++
  stopKey 3 2 ++ [.suspend (.stopped 0), .suspend (.next 0)] ++
  stopKey 4 1 ++ [.suspend (.stopped 0), .suspend (.next 0)] ++
  startKey "d" 5 103 ++ [.sup (.life (.readyMessage 3)), .recover (.schedule 3),
    .recover (.lock 1), .recover (.next 1)] ++
  startKey "p" 6 104 ++ [.recover (.started 1), .recover (.counted 1), .recover (.next 1)]

theorem lossAndRecovery_recoversFresh : ∃ s, run (step sampleManifest) sample lossAndRecovery =
      some s ∧ s.counted.map (fun p => p.1.key) = [lit "p"] ∧
    s.cleared.map Consumer.key = [lit "a"] ∧ RecoversFresh s := by
  have hlast : (run (step sampleManifest) sample lossAndRecovery).map (fun s =>
      (s.counted.map (fun p => p.1.key), s.cleared.map Consumer.key)) =
      some ([lit "p"], [lit "a"]) := by
    decide +kernel
  have halong : Along (step sampleManifest) (Undisturbed sampleManifest) sample
      lossAndRecovery := by
    decide +kernel
  obtain ⟨s, hrun, hs⟩ := Option.map_eq_some_iff.mp hlast
  obtain ⟨hcounted, hcleared⟩ := Prod.mk.inj hs
  exact ⟨s, hrun, hcounted, hcleared, recoversFresh_of_undisturbed sampleManifest sampleComponents
    sampleRoles sampleSession lossAndRecovery s halong hrun⟩

/-- The channel of the display fails, and its reader, which owes the suspension, is cancelled by
the watcher of the exited process. -/
def readerCancelled : List Label :=
  startKey "d" 0 100 ++ [.sup (.life (.readyMessage 0))] ++ startKey "p" 1 101 ++
  [.sup (.life (.channelFailed 0)), .sup (.life (.exit 0)), .sup (.life (.watcherFinalize 0)),
    .cancel 0] ++
  startKey "d" 2 102 ++ [.sup (.life (.readyMessage 2)), .recover (.schedule 2),
    .recover (.lock 1), .recover (.next 1), .recover (.started 1), .recover (.counted 1)]

/-- The recovery counts the panel that was never stopped. -/
theorem readerCancelled_adopts :
    ¬ ∀ (manifest : Component → Manifest) (components : PyStr → Option Component)
      (roles : List (PyStr × RoleState)) (w : Session) (ls : List Label) (s : State),
      run (step manifest) (initial (.initial components roles) w) ls = some s →
        RecoversFresh s := by
  intro hall
  have hlast : (run (step sampleManifest) sample readerCancelled).map (fun s =>
      decide (∀ p ∈ s.counted, p.1.Replaced s.sup p.2)) = some false := by
    decide +kernel
  obtain ⟨s, hrun, hadopted⟩ := Option.map_eq_some_iff.mp hlast
  exact of_decide_eq_false hadopted
    (hall sampleManifest sampleComponents sampleRoles sampleSession readerCancelled s hrun).1

end Display

end MsysCore.Core
