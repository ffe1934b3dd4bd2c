import MsysCore.Core.DisplaySession

/-!
# Who an outage records, and who is started for it

Every list of clients that a recovery or a migration works off comes from a begin, from a
snapshot of an open record, or from the table entries that a migration reads at its commit.
A predicate that the begins establish therefore holds of everything that is started later.
Two such predicates are the fence between automatic services and user applications, and
that no closed application is recorded.
-/

namespace MsysCore.Core.Display

open Python Runs

/-- The consumers that a task still works with. -/
def Task.consumers : Task → List Consumer
  | .suspend _ _ => []
  | .recover _ .waiting => []
  | .recover _ (.looping _ _ remaining) => remaining
  | .recover _ (.starting _ _ c remaining) => c :: remaining
  | .recover _ (.awaiting _ _ c _ remaining) => c :: remaining
  | .recover _ .finishing => []
  | .migrate _ .switching => []
  | .migrate _ (.restarting remaining attempted) => remaining ++ attempted
  | .migrate _ (.starting c remaining attempted) => c :: remaining ++ attempted
  | .migrate _ (.restoring remaining) => remaining

/-- The record that a migration has saved. -/
def Task.snapshot : Task → Option Outage
  | .migrate snapshot _ => snapshot
  | _ => none

/-- `P` holds of every record and `Q` of every consumer that is worked with or was started. -/
structure Holds (P : Outage → Prop) (Q : Consumer → Prop) (s : State) : Prop where
  outage : ∀ o, s.outage = some o → P o
  snapshot : ∀ k task, s.tasks k = some task → ∀ o, task.snapshot = some o → P o
  consumers : ∀ k task, s.tasks k = some task → ∀ c ∈ task.consumers, Q c
  started : ∀ c ∈ s.started, Q c

section

variable {P : Outage → Prop} {Q : Consumer → Prop} {s : State}

theorem holds_initial (sup : Supervisor) (w : Session) : Holds P Q (initial sup w) where
  outage := by rintro _ ⟨⟩
  snapshot := by rintro _ _ ⟨⟩
  consumers := by rintro _ _ ⟨⟩
  started := by rintro _ ⟨⟩

/-- Nothing else is read. -/
theorem Holds.congr {s' : State} (h : Holds P Q s) (houtage : s'.outage = s.outage)
    (htasks : s'.tasks = s.tasks) (hstarted : s'.started = s.started) : Holds P Q s' := by
  constructor
  · rw [houtage]
    exact h.outage
  · rw [htasks]
    exact h.snapshot
  · rw [htasks]
    exact h.consumers
  · rw [hstarted]
    exact h.started

/-- A task is replaced by one whose data is as good. -/
theorem Holds.setTask (h : Holds P Q s) {k : ℕ} {task : Option Task}
    (hsnapshot : ∀ new, task = some new → ∀ o, new.snapshot = some o → P o)
    (hconsumers : ∀ new, task = some new → ∀ c ∈ new.consumers, Q c) :
    Holds P Q (s.setTask k task) := by
  constructor
  · exact h.outage
  · intro j task' htask
    by_cases hj : j = k
    · subst hj
      exact hsnapshot task' (by simpa [State.setTask] using htask)
    · exact h.snapshot j task' (by simpa [State.setTask, hj] using htask)
  · intro j task' htask
    by_cases hj : j = k
    · subst hj
      exact hconsumers task' (by simpa [State.setTask] using htask)
    · exact h.consumers j task' (by simpa [State.setTask, hj] using htask)
  · exact h.started

/-- A task that goes on with the same snapshot and with consumers it had before. -/
theorem Holds.advance (h : Holds P Q s) {k : ℕ} {old new : Task} (hold : s.tasks k = some old)
    (hsnapshot : new.snapshot = old.snapshot) (hconsumers : ∀ c ∈ new.consumers, c ∈ old.consumers) :
    Holds P Q (s.setTask k (some new)) := by
  apply h.setTask
  · rintro task ⟨⟩ o ho
    exact h.snapshot k old hold o (hsnapshot ▸ ho)
  · rintro task ⟨⟩ c hc
    exact h.consumers k old hold c (hconsumers c hc)

theorem Holds.leave (h : Holds P Q s) (k : ℕ) : Holds P Q (s.leave k) := by
  have hremoved : Holds P Q (s.setTask k none) := h.setTask (by simp) (by simp)
  exact hremoved.congr rfl rfl rfl

/-- Only the tables below change. -/
theorem Holds.tables (h : Holds P Q s) {t : Tables} (houtage : ∀ o, t.outage = some o → P o) :
    Holds P Q { s with toTables := t } :=
  ⟨houtage, h.snapshot, h.consumers, h.started⟩

theorem Holds.start (h : Holds P Q s) {c : Consumer} (hc : Q c) :
    Holds P Q { s with started := s.started ++ [c] } := by
  refine ⟨h.outage, h.snapshot, h.consumers, fun c' hc' => ?_⟩
  rcases List.mem_append.mp hc' with hc' | hc'
  · exact h.started c' hc'
  · exact List.mem_singleton.mp hc' ▸ hc

end

/-! ## What keeps such predicates -/

/-- The predicates ignore who is allowed and which object a record is, cover the consumers of a
record, and hold of the entries a migration reads. -/
structure Stable (manifest : Component → Manifest) (P : Outage → Prop) (Q : Consumer → Prop) :
    Prop where
  allowed : ∀ o f, P o → P { o with recoveryAllowed := f }
  object : ∀ o n, P o → P { o with object := n }
  consumers : ∀ o, P o → ∀ c ∈ o.consumers, Q c
  fresh : ∀ s w, ∀ c ∈ orderedVisualConsumers manifest s w, Q c

section

variable {manifest : Component → Manifest} {P : Outage → Prop} {Q : Consumer → Prop}
  {s s' : State} (hstable : Stable manifest P Q)

include hstable

theorem Holds.allow (h : Holds P Q s) (object : ℕ) (key : PyStr) (allowed : Bool) :
    Holds P Q (s.allow object key allowed) := by
  refine ⟨fun o ho => ?_, h.snapshot, h.consumers, h.started⟩
  obtain ⟨old, hold, rfl⟩ := Option.map_eq_some_iff.mp ho
  split_ifs
  · exact hstable.allowed _ _ (h.outage old hold)
  · exact h.outage old hold

theorem Holds.rollbackOutage (h : Holds P Q s) {k : ℕ} {snapshot : Option Outage}
    {attempted : List Consumer} (hsnapshot : ∀ o, snapshot = some o → P o)
    (hattempted : ∀ c ∈ attempted, Q c) :
    Holds P Q (rollbackOutage s k attempted snapshot) := by
  cases snapshot with
  | none => exact h.setTask (by rintro _ ⟨⟩ o ⟨⟩) (by rintro _ ⟨⟩; exact hattempted)
  | some o =>
    apply Holds.leave
    refine ⟨?_, h.snapshot, h.consumers, h.started⟩
    rintro o' ⟨⟩
    exact hstable.allowed _ _ (hstable.object _ _ (hsnapshot o rfl))

theorem migrationConsumers_holds {snapshot : Option Outage}
    (hsnapshot : ∀ o, snapshot = some o → P o) :
    ∀ c ∈ migrationConsumers manifest s snapshot, Q c := by
  intro c hc
  cases snapshot with
  | none => exact hstable.fresh _ _ c (mem_of_mem_orderConsumers hc)
  | some o =>
    rcases List.mem_append.mp hc with hc | hc
    · exact hstable.consumers o (hsnapshot o rfl) c (List.mem_of_mem_filter hc)
    · exact hstable.fresh _ _ c (List.mem_of_mem_filter (mem_of_mem_orderConsumers hc))

omit hstable in
theorem Holds.supStep {l : Supervisor.Label} (h : Holds P Q s)
    (hbegin : ∀ t o, begins manifest s.toTables l = some t → t.outage = some o → P o)
    (hstep : supStep manifest s l = some s') : Holds P Q s' := by
  obtain ⟨sup, -, hcases⟩ := supStep_cases hstep
  rcases hcases with ⟨-, rfl⟩ | ⟨t, o, ht, ho, rfl⟩
  · exact h.tables h.outage
  · have htables : Holds P Q { s with toTables := { t with sup := sup } } :=
      h.tables fun o' ho' => hbegin t o' ht ho'
    have hspawned : Holds P Q (State.setTask { s with toTables := { t with sup := sup } }
        s.nextTask (some (.suspend o.object .owed))) :=
      htables.setTask (by rintro _ ⟨⟩ o' ⟨⟩) (by rintro _ ⟨⟩ c ⟨⟩)
    exact hspawned.congr rfl rfl rfl

omit hstable in
theorem Holds.suspendStep {l : SuspendLabel} (h : Holds P Q s)
    (hbegin : ∀ l' t o, supLabel s (.suspend l) = some l' →
      begins manifest s.toTables l' = some t → t.outage = some o → P o)
    (hstep : suspendStep manifest s l = some s') : Holds P Q s' := by
  have hquiet : ∀ {s : State} {k object phase}, Holds P Q s →
      Holds P Q (s.setTask k (some (.suspend object phase))) :=
    fun h => h.setTask (by rintro _ ⟨⟩ o ⟨⟩) (by rintro _ ⟨⟩ c ⟨⟩)
  cases l with
  | lock k =>
    simp only [Display.suspendStep] at hstep
    split at hstep
    · split_ifs at hstep
      split at hstep
      · cases hstep
        exact (hquiet h).congr rfl rfl rfl
      · cases hstep
        exact h.leave k
    · cases hstep
  | next k =>
    simp only [Display.suspendStep] at hstep
    split at hstep
    next object remaining htask =>
      rcases suspendTurn_cases hstep with ⟨rfl, -⟩ | ⟨key, rest, -, -, -, rfl⟩ |
        ⟨key, rest, mid, rfl, hlive, hmid, rfl⟩
      · exact h.leave k
      · exact hquiet h
      · have hlabel : supLabel s (.suspend (.next k)) = some (.stop (.enter key none)) := by
          simp [supLabel, htask, hlive]
        exact hquiet (h.supStep (fun t o ht ho => hbegin _ t o hlabel ht ho) hmid)
    next => cases hstep
  | stopped k =>
    simp only [Display.suspendStep] at hstep
    split at hstep
    · split_ifs at hstep
      cases hstep
      exact hquiet h
    · cases hstep

theorem Holds.recoverTurn {k provider object revision : ℕ} {o : Outage}
    {remaining : List Consumer} (h : Holds P Q s)
    (htask : s.tasks k = some (.recover provider (.looping object revision remaining))) :
    Holds P Q (recoverTurn manifest s k provider object revision o remaining) := by
  cases remaining with
  | nil =>
    have hcleared : Holds P Q (clearOutage s o) := ⟨(by rintro _ ⟨⟩), h.snapshot, h.consumers, h.started⟩
    exact hcleared.setTask (by rintro _ ⟨⟩ o ⟨⟩) (by rintro _ ⟨⟩ c ⟨⟩)
  | cons c rest =>
    have hrest : ∀ c' ∈ c :: rest, Q c' := h.consumers k _ htask
    have hskipped : Holds P Q
        (s.setTask k (some (.recover provider (.looping object revision rest)))) :=
      h.advance htask rfl fun c' hc' => List.mem_cons_of_mem _ hc'
    unfold Display.recoverTurn
    dsimp only
    split
    · exact hskipped
    · split_ifs
      · exact hskipped
      · exact hskipped
      · have hstarted := h.start (hrest c List.mem_cons_self)
        have hbudget : Holds P Q { s with
            session := s.session.restoreOutageFailureBudget o c.key
            started := s.started ++ [c] } :=
          hstarted.congr rfl rfl rfl
        exact (hbudget.allow hstable object c.key true).advance htask rfl fun c' hc' => hc'

theorem Holds.recoverStep {l : RecoverLabel} (h : Holds P Q s)
    (hstep : recoverStep manifest s l = some s') : Holds P Q s' := by
  cases l with
  | schedule provider =>
    cases hstep
    have hspawned : Holds P Q (s.setTask s.nextTask (some (.recover provider .waiting))) :=
      h.setTask (by rintro _ ⟨⟩ o ⟨⟩) (by rintro _ ⟨⟩ c ⟨⟩)
    exact hspawned.congr rfl rfl rfl
  | lock k =>
    simp only [Display.recoverStep] at hstep
    split at hstep
    next provider htask =>
      split_ifs at hstep
      split at hstep
      next inst o hinst ho =>
        split_ifs at hstep
        · cases hstep
          have hlooping : Holds P Q (s.setTask k
              (some (.recover provider (.looping o.object o.revision o.consumers)))) :=
            h.setTask (by rintro _ ⟨⟩ o ⟨⟩)
              (by rintro _ ⟨⟩ c hc; exact hstable.consumers o (h.outage o ho) c hc)
          exact hlooping.congr rfl rfl rfl
        · cases hstep
          exact h.leave k
      · cases hstep
        exact h.leave k
    · cases hstep
  | next k =>
    simp only [Display.recoverStep] at hstep
    split at hstep
    next provider object revision remaining htask =>
      split at hstep
      · cases hstep
        exact h.recoverTurn hstable htask
      · cases hstep
        exact h.leave k
    · cases hstep
  | started k =>
    simp only [Display.recoverStep] at hstep
    split at hstep
    next provider object revision c rest htask =>
      obtain ⟨entry, -, rfl⟩ := Option.map_eq_some_iff.mp hstep
      exact h.advance htask rfl fun c' hc' => hc'
    · cases hstep
  | counted k =>
    simp only [Display.recoverStep] at hstep
    split at hstep
    next provider object revision c i rest htask =>
      split at hstep
      · split_ifs at hstep
        cases hstep
        have hcounted : Holds P Q { s with counted := s.counted ++ [(c, i)] } :=
          h.congr rfl rfl rfl
        exact (hcounted.allow hstable object c.key false).advance htask rfl
          fun c' hc' => List.mem_cons_of_mem _ hc'
      · cases hstep
    · cases hstep
  | failed k =>
    simp only [Display.recoverStep] at hstep
    split at hstep
    next provider object revision c rest htask =>
      cases hstep
      exact (h.allow hstable object c.key false).advance htask rfl
        fun c' hc' => List.mem_cons_of_mem _ hc'
    next provider object revision c i rest htask =>
      cases hstep
      exact (h.allow hstable object c.key false).advance htask rfl
        fun c' hc' => List.mem_cons_of_mem _ hc'
    · cases hstep
  | finish k =>
    simp only [Display.recoverStep] at hstep
    split at hstep
    · cases hstep
      exact h.leave k
    · cases hstep

theorem Holds.migrateTurn {k : ℕ} {snapshot : Option Outage}
    {attempted remaining : List Consumer} (h : Holds P Q s)
    (htask : s.tasks k = some (.migrate snapshot (.restarting remaining attempted))) :
    Holds P Q (migrateTurn s k snapshot attempted remaining) := by
  have hsnapshot : ∀ o, snapshot = some o → P o := h.snapshot k _ htask
  have hwork : ∀ c ∈ remaining ++ attempted, Q c := h.consumers k _ htask
  have hback : Holds P Q (Display.rollbackOutage s k attempted snapshot) :=
    h.rollbackOutage hstable hsnapshot fun c hc => hwork c (List.mem_append_right _ hc)
  cases remaining with
  | nil =>
    simp only [Display.migrateTurn]
    split_ifs
    · apply Holds.leave
      cases snapshot with
      | none => exact h
      | some o => exact ⟨(by simp), h.snapshot, h.consumers, h.started⟩
    · exact hback
  | cons c rest =>
    simp only [Display.migrateTurn]
    split_ifs
    · exact hback
    · exact h.advance htask rfl fun c' hc' => List.mem_cons_of_mem _ hc'
    · have hstarted := h.start (hwork c List.mem_cons_self)
      have hnext : ∀ c' ∈ (Task.migrate snapshot (.starting c rest (attempted ++ [c]))).consumers,
          Q c' := by
        intro c' hc'
        apply hwork c'
        simp only [Task.consumers, List.mem_cons, List.mem_append, List.cons_append] at hc' ⊢
        tauto
      cases snapshot with
      | none => exact hstarted.setTask (by rintro _ ⟨⟩ o ⟨⟩) (by rintro _ ⟨⟩; exact hnext)
      | some o =>
        have hbudget : Holds P Q { s with
            session := s.session.restoreOutageFailureBudget o c.key
            started := s.started ++ [c] } := hstarted.congr rfl rfl rfl
        exact (hbudget.allow hstable _ c.key true).setTask
          (by rintro _ ⟨⟩; exact hsnapshot) (by rintro _ ⟨⟩; exact hnext)

theorem Holds.migrateStep {l : MigrateLabel} (h : Holds P Q s)
    (hstep : migrateStep manifest s l = some s') : Holds P Q s' := by
  cases l with
  | enter =>
    simp only [Display.migrateStep] at hstep
    split_ifs at hstep
    cases hstep
    have hspawned : Holds P Q (s.setTask s.nextTask (some (.migrate s.outage .switching))) :=
      h.setTask (by rintro _ ⟨⟩; exact h.outage) (by rintro _ ⟨⟩ c ⟨⟩)
    exact hspawned.congr rfl rfl rfl
  | commit k invalidated =>
    simp only [Display.migrateStep] at hstep
    split at hstep
    next snapshot htask =>
      have hsnapshot : ∀ o, snapshot = some o → P o := h.snapshot k _ htask
      split_ifs at hstep
      all_goals cases hstep
      · refine h.setTask (by rintro _ ⟨⟩; exact hsnapshot) ?_
        rintro _ ⟨⟩ c hc
        simp only [Task.consumers, List.append_nil] at hc
        exact migrationConsumers_holds hstable hsnapshot c hc
      · exact h.setTask (by rintro _ ⟨⟩; exact hsnapshot) (by rintro _ ⟨⟩ c ⟨⟩)
      · exact h.leave k
    · cases hstep
  | next k =>
    simp only [Display.migrateStep] at hstep
    split at hstep
    next snapshot remaining attempted htask =>
      cases hstep
      exact h.migrateTurn hstable htask
    · cases hstep
  | started k =>
    simp only [Display.migrateStep] at hstep
    split at hstep
    next snapshot c rest attempted htask =>
      cases hstep
      exact (h.allow hstable _ c.key false).advance htask rfl
        fun c' hc' => List.mem_cons_of_mem _ hc'
    · cases hstep
  | failed k =>
    simp only [Display.migrateStep] at hstep
    split at hstep
    · cases hstep
      exact h.leave k
    next snapshot remaining attempted htask =>
      cases hstep
      exact h.rollbackOutage hstable (h.snapshot k _ htask)
        fun c hc => h.consumers k _ htask c (List.mem_append_right _ hc)
    next snapshot c rest attempted htask =>
      cases hstep
      apply (h.allow hstable _ c.key false).rollbackOutage hstable (h.snapshot k _ htask)
      intro c' hc'
      exact h.consumers k _ htask c' (List.mem_append_right (c :: rest) hc')
    · cases hstep
  | restore k kept =>
    simp only [Display.migrateStep] at hstep
    split at hstep
    next snapshot remaining htask =>
      split at hstep
      · cases hstep
        exact h.leave k
      next c rest =>
        cases hstep
        have hstarted := h.start (h.consumers k _ htask c List.mem_cons_self)
        have hlog : Holds P Q { s with
            started := if kept then s.started else s.started ++ [c] } := by
          split_ifs
          · exact h.congr rfl rfl rfl
          · exact hstarted
        exact hlog.advance htask rfl fun c' hc' => List.mem_cons_of_mem _ hc'
    · cases hstep

/-- A predicate that every begin establishes is kept by every step. -/
theorem Holds.step {l : Label} (h : Holds P Q s)
    (hbegin : ∀ l' t o, supLabel s l = some l' → begins manifest s.toTables l' = some t →
      t.outage = some o → P o)
    (hstep : step manifest s l = some s') : Holds P Q s' := by
  cases l with
  | sup l => exact h.supStep (fun t o ht ho => hbegin l t o rfl ht ho) hstep
  | session w =>
    cases hstep
    exact h.congr rfl rfl rfl
  | suspend l => exact h.suspendStep hbegin hstep
  | recover l => exact h.recoverStep hstable hstep
  | migrate l => exact h.migrateStep hstable hstep
  | cancel k =>
    cases hstep
    exact h.leave k

end

/-! ## Closed applications -/

/-- An application of the user had a live instance when it was recorded. -/
def Consumer.NotClosed (manifest : Component → Manifest) (c : Consumer) : Prop :=
  (manifest c.seen.component).lifecycle = lit "manual" → c.seen.finalized = false

/-- The keys that the open outage records. -/
def recordedKeys (s : State) : List PyStr := (s.outage.map Outage.consumerKeys).getD []

/-- No application that has exited is a candidate when a planned outage begins. -/
def NoClosedCandidate (manifest : Component → Manifest) (s : State) (l : Label) : Prop :=
  ∀ loss ∈ lossAt s l, loss.unplanned = false →
    ownsActiveDisplayOutput manifest s.sup loss.object loss.inst = true →
    ∀ c ∈ candidates manifest s.sup loss.inst.key, c.key ∉ recordedKeys s → c.NotClosed manifest

instance (manifest : Component → Manifest) (c : Consumer) : Decidable (c.NotClosed manifest) :=
  inferInstanceAs (Decidable (_ → _))

instance (manifest : Component → Manifest) (s : State) (l : Label) :
    Decidable (NoClosedCandidate manifest s l) :=
  inferInstanceAs (Decidable (∀ loss ∈ lossAt s l, _))

section

variable {manifest : Component → Manifest} {s s' : State} {l : Label}

theorem stable_notClosed : Stable manifest (fun o => ∀ c ∈ o.consumers, c.NotClosed manifest)
    (Consumer.NotClosed manifest) where
  allowed _ _ h := h
  object _ _ h := h
  consumers _ h := h
  fresh s w c hc _ := by
    have htest := (mem_running.mp (mem_of_mem_orderConsumers hc)).2.2
    simp only [Bool.and_eq_true, Bool.not_eq_true'] at htest
    exact htest.1.1

theorem automatic_notClosed {c : Consumer} (h : c.automatic manifest = true) :
    c.NotClosed manifest := by
  intro hmanual
  simp only [Consumer.automatic, isAutomaticVisualService, hmanual] at h
  exact absurd h (by decide)

theorem begun_notClosed {t t' : Tables} {inst : Instance} {auto : Bool} {o : Outage}
    (hold : ∀ old, t.outage = some old → ∀ c ∈ old.consumers, c.NotClosed manifest)
    (hcandidates : auto = false → ∀ c ∈ candidates manifest t.sup inst.key,
      (∀ old, t.outage = some old → c.key ∉ old.consumerKeys) → c.NotClosed manifest)
    (h : Begun manifest t inst auto t' o) : ∀ c ∈ o.consumers, c.NotClosed manifest := by
  have hrecovery : ∀ c ∈ recoveryCandidates manifest auto (candidates manifest t.sup inst.key),
      (∀ old, t.outage = some old → c.key ∉ old.consumerKeys) → c.NotClosed manifest := by
    intro c hc hnew
    cases auto with
    | true => exact automatic_notClosed (List.of_mem_filter hc)
    | false => exact hcandidates rfl c hc hnew
  intro c hc
  cases h with
  | opened closed object flag consumers dropped next =>
    rw [consumers] at hc
    refine hrecovery c (mem_of_mem_orderConsumers hc) fun old hopen => ?_
    rw [closed] at hopen
    cases hopen
  | @merged old pending object flag revision consumers dropped next =>
    rw [consumers] at hc
    rcases List.mem_append.mp hc with hc | hc
    · exact hold old pending c hc
    · obtain ⟨hordered, hfresh⟩ := List.mem_filter.mp hc
      refine hrecovery c (mem_of_mem_orderConsumers hordered) fun old' hopen => ?_
      rw [pending] at hopen
      cases hopen
      simpa using hfresh

end

/-- The application has exited before, and the recovery starts it again. -/
def closedThenRestarted : List Label :=
  sampleStart ++ [.sup (.life (.exit 1)), .sup (.life (.watcherFinalize 1))] ++ restartDisplay

/-- An unplanned outage recovers automatic services only, and none that it drops. -/
def Outage.Fenced (manifest : Component → Manifest) (o : Outage) : Prop :=
  o.automaticServicesOnly = true →
    (∀ c ∈ o.consumers, c.automatic manifest = true) ∧ ∀ key ∈ o.consumerKeys, key ∉ o.droppedKeys

/-- No consumer of a planned outage is added to those it drops. -/
def Outage.KeepsConsumers (o o' : Outage) : Prop :=
  o.automaticServicesOnly = false →
    ∀ key ∈ o'.droppedKeys, key ∈ o.consumerKeys → key ∈ o.droppedKeys

def FenceKept (manifest : Component → Manifest) (s : State) (l : Label) : Prop :=
  ∀ s', step manifest s l = some s' →
    (∀ o', s'.outage = some o' → o'.Fenced manifest) ∧
    ∀ o o', s.outage = some o → s'.outage = some o' → o'.object = o.object → o.KeepsConsumers o'

/-- What a begin adds to an open outage: to an unplanned one only automatic services that it has
not dropped, and to the dropped applications none of its consumers. -/
def MergesSafely (manifest : Component → Manifest) (o : Outage) (unplanned : Bool)
    (cs : List Consumer) : Prop :=
  (o.automaticServicesOnly = true →
    ∀ c ∈ recoveryCandidates manifest unplanned cs, c.key ∉ o.consumerKeys →
      c.automatic manifest = true ∧ c.key ∉ o.droppedKeys) ∧
  ∀ c ∈ droppedCandidates manifest unplanned cs, c.key ∉ o.droppedKeys → c.key ∉ o.consumerKeys

def FenceSafe (manifest : Component → Manifest) (s : State) (l : Label) : Prop :=
  (step manifest s l).isSome → ∀ loss ∈ lossAt s l, s.sup.stopping = false →
    ownsActiveDisplayOutput manifest s.sup loss.object loss.inst = true →
    ∀ o, s.outage = some o →
      MergesSafely manifest o loss.unplanned (candidates manifest s.sup loss.inst.key)

section

variable {manifest : Component → Manifest} {s s' : State} {l : Label}

theorem stable_fenced : Stable manifest (Outage.Fenced manifest) fun _ => True where
  allowed _ _ h := h
  object _ _ h := h
  consumers _ _ _ _ := trivial
  fresh _ _ _ _ := trivial

/-- The two kinds of candidates share no key. -/
theorem recovery_dropped_ne {unplanned : Bool} {cs : List Consumer}
    (hcs : (cs.map Consumer.key).Nodup) {c d : Consumer}
    (hc : c ∈ recoveryCandidates manifest unplanned cs)
    (hd : d ∈ droppedCandidates manifest unplanned cs) : c.key ≠ d.key := by
  cases unplanned with
  | false => cases hd
  | true =>
    obtain ⟨hcmem, hcauto⟩ := List.mem_filter.mp hc
    obtain ⟨hdmem, hdauto⟩ := List.mem_filter.mp hd
    intro heq
    rw [List.inj_on_of_nodup_map hcs hcmem hdmem heq] at hcauto
    simp [hcauto] at hdauto

theorem recoveryCandidates_automatic {cs : List Consumer} {c : Consumer}
    (hc : c ∈ recoveryCandidates manifest true cs) : c.automatic manifest = true :=
  List.of_mem_filter hc

theorem begun_fenced {t t' : Tables} {inst : Instance} {unplanned : Bool} {o : Outage}
    (hnodup : (t.sup.instances.map Prod.fst).Nodup)
    (hold : ∀ old, t.outage = some old → old.Fenced manifest)
    (hsafe : ∀ old, t.outage = some old →
      MergesSafely manifest old unplanned (candidates manifest t.sup inst.key))
    (h : Begun manifest t inst unplanned t' o) : o.Fenced manifest := by
  have hcs := running_nodup hnodup fun key i =>
    key ≠ inst.key && inheritsVisualSession (manifest i.component) && !t.sup.stopRequests key
  intro hflag
  cases h with
  | opened closed object flag consumers dropped next =>
    rw [flag] at hflag
    subst hflag
    constructor
    · intro c hc
      rw [consumers] at hc
      exact recoveryCandidates_automatic (mem_of_mem_orderConsumers hc)
    · intro key hkey hdrop
      simp only [Outage.consumerKeys, consumers, List.mem_map] at hkey
      simp only [Outage.droppedKeys, dropped, List.mem_map] at hdrop
      obtain ⟨c, hc, rfl⟩ := hkey
      obtain ⟨d, hd, heq⟩ := hdrop
      exact recovery_dropped_ne hcs (mem_of_mem_orderConsumers hc) (mem_of_mem_orderConsumers hd)
        heq.symm
  | @merged old pending object flag revision consumers dropped next =>
    rw [flag] at hflag
    obtain ⟨hauto, hdisjoint⟩ := hold old pending hflag
    obtain ⟨hadds, hdrops⟩ := hsafe old pending
    have hadded : ∀ c ∈ o.consumers, c ∈ old.consumers ∨
        c ∈ recoveryCandidates manifest unplanned (candidates manifest t.sup inst.key) ∧
          c.key ∉ old.consumerKeys := by
      intro c hc
      rw [consumers] at hc
      rcases List.mem_append.mp hc with hc | hc
      · exact .inl hc
      · obtain ⟨hordered, hnew⟩ := List.mem_filter.mp hc
        exact .inr ⟨mem_of_mem_orderConsumers hordered, by simpa using hnew⟩
    have hdropped : ∀ d ∈ o.droppedApplications, d ∈ old.droppedApplications ∨
        d ∈ droppedCandidates manifest unplanned (candidates manifest t.sup inst.key) ∧
          d.key ∉ old.droppedKeys := by
      intro d hd
      rw [dropped] at hd
      rcases List.mem_append.mp hd with hd | hd
      · exact .inl hd
      · obtain ⟨hordered, hnew⟩ := List.mem_filter.mp hd
        exact .inr ⟨mem_of_mem_orderConsumers hordered, by simpa using hnew⟩
    constructor
    · intro c hc
      rcases hadded c hc with hc | ⟨hc, hnew⟩
      · exact hauto c hc
      · exact (hadds hflag c hc hnew).1
    · rintro key hkey hdrop
      obtain ⟨c, hc, rfl⟩ := List.mem_map.mp hkey
      obtain ⟨d, hd, heq⟩ := List.mem_map.mp hdrop
      rcases hadded c hc with hc | ⟨hc, hnew⟩ <;> rcases hdropped d hd with hd | ⟨hd, hfresh⟩
      · exact hdisjoint c.key (List.mem_map_of_mem hc) (heq ▸ List.mem_map_of_mem hd)
      · exact hdrops d hd hfresh (heq ▸ List.mem_map_of_mem hc)
      · exact (hadds hflag c hc hnew).2 (heq ▸ List.mem_map_of_mem hd)
      · exact recovery_dropped_ne hcs hc hd heq.symm

structure FenceInv (manifest : Component → Manifest) (s : State) : Prop where
  entries : s.sup.EntryInv
  fenced : Holds (Outage.Fenced manifest) (fun _ => True) s
  object : ∀ o, s.outage = some o → o.object < s.nextObject

theorem fenceInv_initial (components : PyStr → Option Component)
    (roles : List (PyStr × RoleState)) (w : Session) :
    FenceInv manifest (initial (.initial components roles) w) where
  entries := Supervisor.entryInv_initial components roles
  fenced := holds_initial _ w
  object := by rintro _ ⟨⟩

theorem step_entries (h : s.sup.EntryInv) (hstep : step manifest s l = some s') :
    s'.sup.EntryInv := by
  rcases step_sup hstep with heq | ⟨l', -, hsup⟩
  · rw [heq]
    exact h
  · exact Supervisor.step_entryInv h hsup

/-- The begin of a step that meets the condition is fenced. -/
theorem FenceInv.begins (hinv : FenceInv manifest s) (hsafe : FenceSafe manifest s l)
    (hstep : step manifest s l = some s') {l' : Supervisor.Label} {t : Tables} {o : Outage}
    (hlabel : supLabel s l = some l') (hbegin : begins manifest s.toTables l' = some t)
    (ho : t.outage = some o) : o.Fenced manifest := by
  obtain ⟨loss, hloss, hrunning, howns, o', ho', hbegun⟩ := begins_spec hbegin
  rw [ho] at ho'
  cases ho'
  have hat : loss ∈ lossAt s l := Option.bind_eq_some_iff.mpr ⟨l', hlabel, hloss⟩
  exact begun_fenced hinv.entries.nodup hinv.fenced.outage
    (hsafe (by simp [hstep]) loss hat hrunning howns) hbegun

theorem FenceInv.step (hinv : FenceInv manifest s) (hsafe : FenceSafe manifest s l)
    (hstep : step manifest s l = some s') : FenceInv manifest s' := by
  refine ⟨step_entries hinv.entries hstep, ?_, ?_⟩
  · exact hinv.fenced.step stable_fenced (fun l' t o => hinv.begins hsafe hstep) hstep
  · intro o' ho'
    cases step_outage hstep ho' with
    | begun label enabled begin outage next =>
      obtain ⟨loss, -, -, -, o, ho, hbegun⟩ := begins_spec begin
      rw [outage] at ho
      cases ho
      rw [next]
      cases hbegun with
      | opened closed object flag consumers dropped next' =>
        rw [object, next']
        exact Nat.lt_succ_self _
      | @merged old pending object flag revision consumers dropped next' =>
        rw [object, next']
        exact hinv.object old pending
    | continued same next =>
      obtain ⟨o, f, ho, rfl⟩ := same
      rw [next]
      exact hinv.object o ho
    | restored task back next =>
      rw [back, next]
      exact Nat.lt_succ_self _

theorem fenceKept_of_safe (hinv : FenceInv manifest s) (hsafe : FenceSafe manifest s l) :
    FenceKept manifest s l := by
  intro s' hstep
  refine ⟨(hinv.step hsafe hstep).fenced.outage, ?_⟩
  intro o o' ho ho' hobject hplanned key hkey hconsumer
  cases step_outage hstep ho' with
  | @begun l' t label enabled begin outage next =>
    obtain ⟨loss, hloss, hrunning, howns, o₁, ho₁, hbegun⟩ := begins_spec begin
    rw [outage] at ho₁
    cases ho₁
    have hat : loss ∈ lossAt s l := Option.bind_eq_some_iff.mpr ⟨l', label, hloss⟩
    obtain ⟨-, hdrops⟩ := hsafe (by simp [hstep]) loss hat hrunning howns o ho
    cases hbegun with
    | opened closed object flag consumers dropped next' =>
      have hopen : s.outage = none := closed
      rw [hopen] at ho
      cases ho
    | @merged old pending object flag revision consumers dropped next' =>
      have hopen : s.outage = some old := pending
      rw [ho] at hopen
      cases hopen
      obtain ⟨d, hd, rfl⟩ := List.mem_map.mp hkey
      rw [dropped] at hd
      rcases List.mem_append.mp hd with hd | hd
      · exact List.mem_map_of_mem hd
      · obtain ⟨hordered, hnew⟩ := List.mem_filter.mp hd
        exact absurd hconsumer
          (hdrops d (mem_of_mem_orderConsumers hordered) (by simpa using hnew))
  | continued same next =>
    obtain ⟨old, f, hold, rfl⟩ := same
    rw [ho] at hold
    cases hold
    exact hkey
  | restored task back next =>
    have hlt := hinv.object o ho
    rw [← hobject, back] at hlt
    exact absurd hlt (lt_irrefl _)

theorem recoveryCandidates_nodup {cs : List Consumer} (hcs : (cs.map Consumer.key).Nodup)
    (unplanned : Bool) : ((recoveryCandidates manifest unplanned cs).map Consumer.key).Nodup := by
  unfold recoveryCandidates
  split_ifs
  · exact (List.filter_sublist.map _).nodup hcs
  · exact hcs

theorem droppedCandidates_nodup {cs : List Consumer} (hcs : (cs.map Consumer.key).Nodup)
    (unplanned : Bool) : ((droppedCandidates manifest unplanned cs).map Consumer.key).Nodup := by
  unfold droppedCandidates
  split_ifs
  · exact (List.filter_sublist.map _).nodup hcs
  · exact List.nodup_nil

theorem begins_of_loss {t : Tables} {l : Supervisor.Label} {loss : Loss}
    (hloss : lossOf t.sup l = some loss) (hrunning : t.sup.stopping = false)
    (howns : ownsActiveDisplayOutput manifest t.sup loss.object loss.inst = true) :
    ∃ t', begins manifest t l = some t' := by
  have hbegin : ∀ recent auto, ∃ t',
      beginDisplayOutage manifest t loss.object loss.inst recent auto = some t' := by
    intro recent auto
    unfold beginDisplayOutage
    rw [if_neg (by simp [hrunning, howns])]
    dsimp only
    split
    · exact ⟨_, rfl⟩
    · exact ⟨_, rfl⟩
  simp only [begins, hloss, Option.bind_some]
  split_ifs
  · exact hbegin true true
  · exact hbegin false false

theorem safe_of_fenceKept (hinv : FenceInv manifest s) (hkept : FenceKept manifest s l) :
    FenceSafe manifest s l := by
  intro hsome loss hat hrunning howns o ho
  obtain ⟨s', hstep⟩ := Option.isSome_iff_exists.mp hsome
  obtain ⟨l', hlabel, hloss⟩ := Option.bind_eq_some_iff.mp hat
  obtain ⟨t, hbegin⟩ := begins_of_loss (t := s.toTables) hloss hrunning howns
  obtain ⟨loss', hloss', -, -, o', ho', hbegun⟩ := begins_spec hbegin
  rw [hloss] at hloss'
  cases hloss'
  have hafter : s'.outage = some o' := (step_begins hstep hlabel hbegin).trans ho'
  have hcs : ((candidates manifest s.sup loss.inst.key).map Consumer.key).Nodup :=
    running_nodup hinv.entries.nodup _
  obtain ⟨hfenced, hkeeps⟩ := hkept s' hstep
  cases hbegun with
  | opened closed object flag consumers dropped next =>
    have hopen : s.outage = none := closed
    rw [hopen] at ho
    cases ho
  | @merged old pending object flag revision consumers dropped next =>
    have hopen : s.outage = some old := pending
    rw [ho] at hopen
    cases hopen
    have hconsumer : ∀ key ∈ o.consumerKeys, key ∈ o'.consumerKeys := by
      intro key hkey
      rw [Outage.consumerKeys, consumers, List.map_append]
      exact List.mem_append_left _ hkey
    have hdropped : ∀ key ∈ o.droppedKeys, key ∈ o'.droppedKeys := by
      intro key hkey
      rw [Outage.droppedKeys, dropped, List.map_append]
      exact List.mem_append_left _ hkey
    constructor
    · intro hflag c hc hnew
      obtain ⟨hauto, hdisjoint⟩ := hfenced o' hafter (flag.trans hflag)
      have hadded : c ∈ o'.consumers := by
        rw [consumers]
        refine List.mem_append_right _ (List.mem_filter.mpr ⟨?_, by simpa using hnew⟩)
        exact (mem_orderConsumers (recoveryCandidates_nodup hcs _)).mpr hc
      exact ⟨hauto c hadded, fun hdrop =>
        hdisjoint c.key (List.mem_map_of_mem hadded) (hdropped c.key hdrop)⟩
    · intro d hd hnew hconsumes
      have hadded : d.key ∈ o'.droppedKeys := by
        rw [Outage.droppedKeys, dropped]
        refine List.mem_map_of_mem (List.mem_append_right _
          (List.mem_filter.mpr ⟨?_, by simpa using hnew⟩))
        exact (mem_orderConsumers (droppedCandidates_nodup hcs _)).mpr hd
      cases hflag : o.automaticServicesOnly with
      | true =>
        obtain ⟨-, hdisjoint⟩ := hfenced o' hafter (flag.trans hflag)
        exact hdisjoint d.key (hconsumer d.key hconsumes) hadded
      | false => exact hnew (hkeeps o o' ho hafter object hflag d.key hadded hconsumes)

/-- The fence holds along a run exactly when every begin on an open outage merges safely. -/
theorem fence_iff (manifest : Component → Manifest) (components : PyStr → Option Component)
    (roles : List (PyStr × RoleState)) (w : Session) (ls : List Label) :
    Along (step manifest) (FenceKept manifest) (initial (.initial components roles) w) ls ↔
      Along (step manifest) (FenceSafe manifest) (initial (.initial components roles) w) ls := by
  symm
  refine along_iff_of_invariant (fun s l s' hs hsafe hstep => hs.step hsafe hstep)
    (fun s l hs => ?_) ls (fenceInv_initial components roles w)
  exact ⟨fenceKept_of_safe hs, safe_of_fenceKept hs⟩

/-- Every state of a run that keeps the fence has a fenced record. -/
theorem fenced_of_along {sup : Supervisor} {w : Session} {ls : List Label}
    (halong : Along (step manifest) (FenceKept manifest) (initial sup w) ls)
    (hrun : run (step manifest) (initial sup w) ls = some s) :
    ∀ o, s.outage = some o → o.Fenced manifest := by
  have hkeeps : ∀ (s : State) (l : Label) (s' : State),
      (∀ o, s.outage = some o → o.Fenced manifest) → FenceKept manifest s l →
      step manifest s l = some s' → ∀ o, s'.outage = some o → o.Fenced manifest :=
    fun _ _ s' _ hkept hstep => (hkept s' hstep).1
  exact run_invariant hkeeps ls (fun o ho => by cases ho) halong hrun

end

/-- The display dies; it is running again when the operator restarts it, before the suspension
has stopped the application. -/
def restartAfterLoss : List Label :=
  sampleStart ++ [.sup (.life (.exit 0)), .sup (.life (.watcherFinalize 0))] ++
  startKey "d" 2 102 ++ [.sup (.life (.readyMessage 2)), .sup (.stop (.enter (lit "d") none))]

/-- The application of the user becomes a consumer of the unplanned outage. -/
theorem restartAfterLoss_not_fenced : ¬ Along (step sampleManifest) (FenceKept sampleManifest)
    sample restartAfterLoss := by
  intro halong
  have hlast : (run (step sampleManifest) sample restartAfterLoss).map (fun s =>
      s.outage.map fun o =>
        (o.automaticServicesOnly, o.consumers.map (Consumer.automatic sampleManifest))) =
      some (some (true, [false])) := by
    decide +kernel
  obtain ⟨s, hrun, hs⟩ := Option.map_eq_some_iff.mp hlast
  obtain ⟨o, ho, hrecord⟩ := Option.map_eq_some_iff.mp hs
  obtain ⟨hflag, hconsumers⟩ := Prod.mk.inj hrecord
  obtain ⟨hauto, -⟩ := fenced_of_along halong hrun o ho hflag
  have hmanual : false ∈ o.consumers.map (Consumer.automatic sampleManifest) := by
    rw [hconsumers]
    exact List.mem_singleton_self _
  obtain ⟨c, hc, hfalse⟩ := List.mem_map.mp hmanual
  rw [hauto c hc] at hfalse
  cases hfalse

end MsysCore.Core.Display
