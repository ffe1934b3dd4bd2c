import MsysCore.Core.CallExceptions
import MsysCore.Lib.OrderedDict
import MsysCore.Lib.Runs

/-!
# Display migration records

The records that `_queue_display_migration`, `_execute_display_migration` and
`_migrate_display_output` share: one task for each queued migration, two nested locks and the
recovery lock around its work, and a callback that prunes.

`issued`, `log` and `dropped` are ghost: the ids given out, every assignment of a phase, and the
records that were pruned.
-/

namespace MsysCore.Core

open Python

namespace Migrations

inductive Phase
  | planned | switching | succeeded | rolledBack
  deriving DecidableEq

def Phase.text : Phase → String
  | .planned => "planned"
  | .switching => "switching"
  | .succeeded => "succeeded"
  | .rolledBack => "rolled-back"

structure MigrationRecord where
  id : ℕ
  phase : Phase
  queued : Bool
  preferenceMode : PyStr
  source : PyStr
  fromProvider : Option PyStr
  toProvider : PyStr
  fromDisplay : Option PyStr
  toDisplay : Option PyStr
  requestedAt : ℤ
  /-- the fields that a run of the migration sets: consumers, generations, times, error -/
  report : Dict

def optionalText : Option PyStr → Json
  | some s => .str s
  | none => .null

def displayMigrationTopic : PyStr := lit "msys.display.migration"

/-- The event payload, a copy of the record. -/
def MigrationRecord.payload (record : MigrationRecord) : Dict :=
  Python.record [("schema", Python.text "msys.display-migration.v1"), ("id", .int record.id),
    ("phase", Python.text record.phase.text), ("queued", .bool record.queued),
    ("role", Python.text "display-output"), ("preference_mode", .str record.preferenceMode),
    ("source", .str record.source), ("from_provider", optionalText record.fromProvider),
    ("to_provider", .str record.toProvider), ("from_display", optionalText record.fromDisplay),
    ("to_display", optionalText record.toDisplay),
    ("requested_at_unix_ms", .int record.requestedAt)] ++ record.report

/-- `_publish_display_migration` -/
def publish (env : Surroundings) (record : MigrationRecord) : Except PyError (List Sent) :=
  broadcast env displayMigrationTopic (.dict record.payload) (lit "msys.core")

/-- What a request that passed its checks has read from the registry and the catalog. -/
structure Request where
  provider : PyStr
  preferenceMode : PyStr
  source : PyStr
  oldProvider : Option PyStr
  oldDisplay : Option PyStr
  newDisplay : Option PyStr
  requestedAt : ℤ

def Request.record (request : Request) (id : ℕ) : MigrationRecord where
  id := id
  phase := .planned
  queued := true
  preferenceMode := request.preferenceMode
  source := request.source
  fromProvider := request.oldProvider
  toProvider := request.provider
  fromDisplay := request.oldDisplay
  toDisplay := request.newDisplay
  requestedAt := request.requestedAt
  report := Python.record [("consumers", .list []), ("restarted", .list [])]

/-- Where the task of a migration is. -/
inductive Stage
  | waitingRole | waitingReload | waitingRecovery | migrating | switching
  /-- `_migrate_display_output` has raised; its handler runs next -/
  | failing
  /-- done, and its callback has not run yet -/
  | ended
  deriving DecidableEq

/-- The stages between the two ends of the inner lock. -/
def Stage.running : Stage → Bool
  | .waitingRecovery | .migrating | .switching | .failing => true
  | .waitingRole | .waitingReload | .ended => false

def Stage.holdsRole : Stage → Bool
  | .waitingReload => true
  | stage => stage.running

inductive Lock
  | role | reload | recovery
  deriving DecidableEq

/-- Role switches, catalog reloads and display recoveries take the locks as well. -/
inductive Holder
  | migration (id : ℕ)
  | other
  deriving DecidableEq

end Migrations

structure Migrations where
  /-- `display_migrations` -/
  records : List (ℕ × Migrations.MigrationRecord) := []
  /-- `display_migration_tasks` -/
  tasks : List (ℕ × Migrations.Stage) := []
  /-- `display_migration_active` -/
  active : Option ℕ := none
  /-- `next_display_migration_id` -/
  nextId : ℕ := 1
  locks : Migrations.Lock → Option Migrations.Holder := fun _ => none
  issued : List ℕ := []
  log : List (ℕ × Migrations.Phase) := []
  dropped : List (ℕ × Migrations.MigrationRecord) := []

namespace Migrations

def setStage (s : Migrations) (id : ℕ) (stage : Stage) : Migrations :=
  { s with tasks := OrderedDict.set s.tasks id stage }

def setRecord (s : Migrations) (id : ℕ) (record : MigrationRecord) : Migrations :=
  { s with records := OrderedDict.set s.records id record }

def setLock (s : Migrations) (lock : Lock) (holder : Option Holder) : Migrations :=
  { s with locks := fun other => if other = lock then holder else s.locks other }

def logPhase (s : Migrations) (id : ℕ) (phase : Phase) : Migrations :=
  { s with log := s.log ++ [(id, phase)] }

/-- `_prune_display_migrations` -/
def prune (s : Migrations) : Migrations :=
  if s.records.length ≤ 32 then s
  else
    let removable := ((s.records.map Prod.fst).mergeSort).filter fun id =>
      s.active ≠ some id ∧ id ∉ s.tasks.map Prod.fst
    let removed := removable.take (s.records.length - 32)
    { s with
      records := s.records.filter fun entry => entry.1 ∉ removed
      dropped := s.dropped ++ s.records.filter fun entry => entry.1 ∈ removed }

/-- What `_migrate_display_output` has read when it sets the phase. -/
structure Plan where
  fromProvider : Option PyStr
  fromDisplay : Option PyStr
  toProvider : PyStr
  toDisplay : Option PyStr
  recoveringOutage : Bool

def Plan.apply (plan : Plan) (record : MigrationRecord) : MigrationRecord :=
  { record with
    phase := .switching
    fromProvider := plan.fromProvider
    fromDisplay := plan.fromDisplay
    toProvider := plan.toProvider
    toDisplay := plan.toDisplay
    report := Dict.set record.report "recovering_outage" (.bool plan.recoveringOutage) }

/-- `record.update` of fields other than phase and queue flag. -/
structure Progress where
  fromDisplay : Option PyStr
  toDisplay : Option PyStr
  report : Dict

def Progress.apply (progress : Progress) (record : MigrationRecord) : MigrationRecord :=
  { record with
    fromDisplay := progress.fromDisplay
    toDisplay := progress.toDisplay
    report := progress.report }

inductive Label
  /-- the stretch of `_queue_display_migration` behind the catalog lock -/
  | queue (request : Request) (env : Surroundings)
  | enterRole (id : ℕ)
  | enterReload (id : ℕ) (startedAt : ℤ)
  | enterRecovery (id : ℕ)
  | switch (id : ℕ) (plan : Plan) (env : Surroundings)
  | progress (id : ℕ) (progress : Progress)
  | succeed (id : ℕ) (result : Progress)
  | fail (id : ℕ) (report : Dict)
  /-- the callback of a task that is done -/
  | completed (id : ℕ)
  | take (lock : Lock)
  | give (lock : Lock)

/-- The end of `_execute_display_migration` with the phase the record gets. The last announcement
may raise out of the task, which is done either way. -/
def finish (s : Migrations) (id : ℕ) (record : MigrationRecord) (phase : Phase) : Migrations :=
  let s := (s.setRecord id { record with phase := phase }).logPhase id phase
  let s := ((s.setLock .recovery none).setLock .reload none).setLock .role none
  { s.setStage id .ended with active := none }

def StageIn (s : Migrations) (id : ℕ) (stages : List Stage) : Prop :=
  ∃ stage ∈ OrderedDict.get s.tasks id, stage ∈ stages

instance (s : Migrations) (id : ℕ) (stages : List Stage) : Decidable (s.StageIn id stages) :=
  inferInstanceAs (Decidable (∃ stage ∈ OrderedDict.get s.tasks id, stage ∈ stages))

/-- Runs `f` on the record of a task that is in one of the stages. A task that has the inner lock
keeps the record it found in the table. -/
def onRecord (s : Migrations) (id : ℕ) (stages : List Stage)
    (f : MigrationRecord → Migrations) : Option Migrations :=
  if s.StageIn id stages then (OrderedDict.get s.records id).map f else none

/-- `_execute_display_migration` from the inner lock to the recovery lock. -/
def begin (s : Migrations) (id : ℕ) (startedAt : ℤ) : Migrations :=
  match OrderedDict.get s.records id with
  | some record =>
    let report := Dict.set record.report "started_at_unix_ms" (.int startedAt)
    let s := (s.setLock .reload (some (.migration id))).setRecord id
      { record with queued := false, report := report }
    { s.setStage id .waitingRecovery with active := some id }
  -- `self.display_migrations[migration_id]` raises out of the task
  | none => (s.setLock .role none).setStage id .ended

def step (s : Migrations) : Label → Option Migrations
  | .queue request env =>
    let id := s.nextId
    let record := request.record id
    let s := ({ s with nextId := id + 1, issued := s.issued ++ [id] }.setRecord id record).logPhase
      id .planned
    match publish env record with
    -- the request is answered with the error; the record stays
    | .error _ => some s
    | .ok _ => some (s.setStage id .waitingRole)
  | .enterRole id =>
    if s.StageIn id [.waitingRole] ∧ s.locks .role = none then
      some ((s.setLock .role (some (.migration id))).setStage id .waitingReload)
    else none
  | .enterReload id startedAt =>
    if s.StageIn id [.waitingReload] ∧ s.locks .reload = none then some (s.begin id startedAt)
    else none
  | .enterRecovery id =>
    if s.StageIn id [.waitingRecovery] ∧ s.locks .recovery = none then
      some ((s.setLock .recovery (some (.migration id))).setStage id .migrating)
    else none
  | .switch id plan env =>
    s.onRecord id [.migrating] fun record =>
      let record := plan.apply record
      let s := (s.setRecord id record).logPhase id .switching
      match publish env record with
      | .error _ => s.setStage id .failing
      | .ok _ => s.setStage id .switching
  | .progress id progress =>
    s.onRecord id [.switching] fun record => s.setRecord id (progress.apply record)
  | .succeed id result =>
    s.onRecord id [.switching] fun record => s.finish id (result.apply record) .succeeded
  | .fail id report =>
    s.onRecord id [.migrating, .switching, .failing] fun record =>
      s.finish id { record with report := report } .rolledBack
  | .completed id =>
    if s.StageIn id [.ended] then
      some (prune { s with tasks := OrderedDict.pop s.tasks id })
    else none
  | .take lock => if s.locks lock = none then some (s.setLock lock (some .other)) else none
  | .give lock =>
    if s.locks lock = some .other then some (s.setLock lock none) else none

def initial : Migrations := {}

/-! ## What the records say -/

def Phase.Final (phase : Phase) : Prop := phase = .succeeded ∨ phase = .rolledBack

/-- Every phase the record of an id has had. -/
def phasesOf (s : Migrations) (id : ℕ) : List Phase :=
  (s.log.filter fun entry => entry.1 = id).map Prod.snd

def Unfinished (phases : List Phase) : Prop :=
  phases = [.planned] ∨ phases = [.planned, .switching]

def Finished (phases : List Phase) (last : Phase) : Prop :=
  last.Final ∧ (phases = [.planned, last] ∨ phases = [.planned, .switching, last])

def Running (s : Migrations) (id : ℕ) : Prop :=
  ∃ stage, OrderedDict.get s.tasks id = some stage ∧ stage.running = true

/-- The record of a migration that is over. -/
def Settled (record : MigrationRecord) (phases : List Phase) : Prop :=
  record.queued = false ∧ Finished phases record.phase

/-- What a task's stage says about its record. -/
def Explains : Stage → MigrationRecord → List Phase → Prop
  | .waitingRole, record, phases | .waitingReload, record, phases =>
    record.queued = true ∧ record.phase = .planned ∧ phases = [.planned]
  | .waitingRecovery, record, phases | .migrating, record, phases =>
    record.queued = false ∧ record.phase = .planned ∧ phases = [.planned]
  | .switching, record, phases | .failing, record, phases =>
    record.queued = false ∧ record.phase = .switching ∧ phases = [.planned, .switching]
  | .ended, record, phases => Settled record phases

theorem phasesOf_append (s : Migrations) (id other : ℕ) (phases : List Phase) :
    phasesOf { s with log := s.log ++ phases.map (Prod.mk id) } other =
      if other = id then s.phasesOf other ++ phases else s.phasesOf other := by
  unfold phasesOf
  rw [List.filter_append, List.map_append]
  split_ifs with h
  · subst h
    have hall : (phases.map (Prod.mk other)).filter (fun entry => entry.1 = other) =
        phases.map (Prod.mk other) := by
      rw [List.filter_eq_self]
      intro entry hentry
      obtain ⟨phase, -, rfl⟩ := List.mem_map.mp hentry
      exact decide_eq_true rfl
    rw [hall, List.map_map]
    simp [Function.comp_def]
  · have hnone : (phases.map (Prod.mk id)).filter (fun entry => entry.1 = other) = [] := by
      rw [List.filter_eq_nil_iff]
      intro entry hentry
      obtain ⟨phase, -, rfl⟩ := List.mem_map.mp hentry
      simpa using Ne.symm h
    rw [hnone]
    simp

/-! ## The ledger -/

/-- Every record says what its task has done. -/
structure Entries (s : Migrations) : Prop where
  recordKeys : (s.records.map Prod.fst).Nodup
  issued : s.issued.Nodup
  fresh : ∀ id ∈ s.issued, id < s.nextId
  logged : ∀ entry ∈ s.log, entry.1 ∈ s.issued
  known : ∀ id record, OrderedDict.get s.records id = some record → id ∈ s.issued
  worked : ∀ id stage, OrderedDict.get s.tasks id = some stage →
    ∃ record, OrderedDict.get s.records id = some record ∧ Explains stage record (s.phasesOf id)
  settled : ∀ id record, OrderedDict.get s.records id = some record →
    OrderedDict.get s.tasks id = none → Settled record (s.phasesOf id)
  finished : ∀ id ∈ s.issued, OrderedDict.get s.tasks id = none →
    ∃ last, Finished (s.phasesOf id) last
  dropped : ∀ entry ∈ s.dropped, entry.1 ∈ s.issued ∧ OrderedDict.get s.tasks entry.1 = none ∧
    Settled entry.2 (s.phasesOf entry.1)

/-- The records whose task is gone. -/
def kept (s : Migrations) : List (ℕ × MigrationRecord) :=
  s.records.filter fun entry => (OrderedDict.get s.tasks entry.1).isNone

structure Ledger (s : Migrations) : Prop extends Entries s where
  bounded : s.kept.length ≤ 32

variable {s t : Migrations} {id : ℕ} {stage stage' : Stage} {record record' : MigrationRecord}

/-- One task goes on: its stage, its record and the phases it adds. -/
def advance (s : Migrations) (id : ℕ) (stage : Stage) (record : MigrationRecord)
    (phases : List Phase) : Migrations :=
  { s with
    tasks := OrderedDict.set s.tasks id stage
    records := OrderedDict.set s.records id record
    log := s.log ++ phases.map (Prod.mk id) }

theorem phasesOf_advance (s : Migrations) (id other : ℕ) (stage : Stage)
    (record : MigrationRecord) (phases : List Phase) :
    (s.advance id stage record phases).phasesOf other =
      if other = id then s.phasesOf other ++ phases else s.phasesOf other :=
  phasesOf_append s id other phases

theorem length_filter_set {α : Type} {d : List (ℕ × α)} {id : ℕ} {p : ℕ → Bool} {old new : α}
    (h : OrderedDict.get d id = some old) :
    ((OrderedDict.set d id new).filter fun entry => p entry.1).length =
      (d.filter fun entry => p entry.1).length := by
  have hkeys := OrderedDict.keys_set (OrderedDict.mem_keys_of_get h) new
  have hcount := congrArg (fun keys => (keys.filter p).length) hkeys
  simpa [List.filter_map, Function.comp_def] using hcount

theorem Entries.mem_issued (h : Entries s) (htask : OrderedDict.get s.tasks id = some stage) :
    id ∈ s.issued := by
  obtain ⟨record, hrecord, -⟩ := h.worked id stage htask
  exact h.known id record hrecord

theorem Entries.advance (h : Entries s) {phases : List Phase}
    (htask : OrderedDict.get s.tasks id = some stage)
    (hrecord : OrderedDict.get s.records id = some record)
    (hexplains : Explains stage' record' (s.phasesOf id ++ phases)) :
    Entries (s.advance id stage' record' phases) where
  recordKeys := by
    have hkeys := OrderedDict.keys_set (OrderedDict.mem_keys_of_get hrecord) record'
    exact hkeys.symm ▸ h.recordKeys
  issued := h.issued
  fresh := h.fresh
  logged := by
    intro entry hentry
    rcases List.mem_append.mp hentry with hold | hnew
    · exact h.logged entry hold
    · obtain ⟨phase, -, rfl⟩ := List.mem_map.mp hnew
      exact h.mem_issued htask
  known := by
    intro other found hfound
    change OrderedDict.get (OrderedDict.set s.records id record') other = some found at hfound
    rw [OrderedDict.get_set] at hfound
    split_ifs at hfound with heq
    · rw [heq]
      exact h.mem_issued htask
    · exact h.known other found hfound
  worked := by
    intro other found hfound
    change OrderedDict.get (OrderedDict.set s.tasks id stage') other = some found at hfound
    rw [OrderedDict.get_set] at hfound
    rw [phasesOf_advance]
    split_ifs at hfound with heq
    · cases hfound
      subst heq
      rw [if_pos rfl]
      exact ⟨record', OrderedDict.get_set_self _ _ _, hexplains⟩
    · obtain ⟨kept, hkept, hmatch⟩ := h.worked other found hfound
      rw [if_neg heq]
      exact ⟨kept, (OrderedDict.get_set_ne heq _ _).trans hkept, hmatch⟩
  settled := by
    intro other found hfound hnone
    change OrderedDict.get (OrderedDict.set s.records id record') other = some found at hfound
    change OrderedDict.get (OrderedDict.set s.tasks id stage') other = none at hnone
    rw [OrderedDict.get_set] at hfound hnone
    rw [phasesOf_advance]
    split_ifs at hfound hnone with heq
    rw [if_neg heq]
    exact h.settled other found hfound hnone
  finished := by
    intro other hissued hnone
    change OrderedDict.get (OrderedDict.set s.tasks id stage') other = none at hnone
    rw [OrderedDict.get_set] at hnone
    rw [phasesOf_advance]
    split_ifs at hnone with heq
    rw [if_neg heq]
    exact h.finished other hissued hnone
  dropped := by
    intro entry hentry
    obtain ⟨hissued, hnone, hsettled⟩ := h.dropped entry hentry
    have hne : entry.1 ≠ id := by
      intro heq
      rw [heq, htask] at hnone
      cases hnone
    rw [phasesOf_advance, if_neg hne]
    exact ⟨hissued, (OrderedDict.get_set_ne hne _ _).trans hnone, hsettled⟩

theorem Ledger.advance (h : Ledger s) {phases : List Phase}
    (htask : OrderedDict.get s.tasks id = some stage)
    (hrecord : OrderedDict.get s.records id = some record)
    (hexplains : Explains stage' record' (s.phasesOf id ++ phases)) :
    Ledger (s.advance id stage' record' phases) where
  toEntries := h.toEntries.advance htask hrecord hexplains
  bounded := by
    have hsame : ∀ other,
        (OrderedDict.get (s.advance id stage' record' phases).tasks other).isNone =
          (OrderedDict.get s.tasks other).isNone := by
      intro other
      change (OrderedDict.get (OrderedDict.set s.tasks id stage') other).isNone = _
      rw [OrderedDict.get_set]
      split_ifs with heq
      · rw [heq, htask]
        rfl
      · rfl
    simp only [kept, hsame]
    exact (length_filter_set (p := fun other => (OrderedDict.get s.tasks other).isNone)
      hrecord).trans_le h.bounded

/-- The ledger does not read the locks and the active id. -/
theorem Ledger.congr (h : Ledger s) (htasks : t.tasks = s.tasks) (hrecords : t.records = s.records)
    (hlog : t.log = s.log) (hissued : t.issued = s.issued) (hnext : t.nextId = s.nextId)
    (hdropped : t.dropped = s.dropped) : Ledger t := by
  cases s
  cases t
  cases htasks
  cases hrecords
  cases hlog
  cases hissued
  cases hnext
  cases hdropped
  exact ⟨⟨h.recordKeys, h.issued, h.fresh, h.logged, h.known, h.worked, h.settled, h.finished,
    h.dropped⟩, h.bounded⟩

/-- A migration that is queued with its task. -/
def enqueue (s : Migrations) (record : MigrationRecord) : Migrations :=
  { s with
    records := OrderedDict.set s.records s.nextId record
    tasks := OrderedDict.set s.tasks s.nextId .waitingRole
    nextId := s.nextId + 1
    issued := s.issued ++ [s.nextId]
    log := s.log ++ [.planned].map (Prod.mk s.nextId) }

theorem Entries.nextId_not_mem (h : Entries s) : s.nextId ∉ s.issued :=
  fun hmem => Nat.lt_irrefl _ (h.fresh _ hmem)

theorem Entries.nextId_records (h : Entries s) : OrderedDict.get s.records s.nextId = none := by
  cases hget : OrderedDict.get s.records s.nextId with
  | none => rfl
  | some found => exact (h.nextId_not_mem (h.known _ _ hget)).elim

theorem Entries.nextId_tasks (h : Entries s) : OrderedDict.get s.tasks s.nextId = none := by
  cases hget : OrderedDict.get s.tasks s.nextId with
  | none => rfl
  | some found => exact (h.nextId_not_mem (h.mem_issued hget)).elim

theorem Entries.nextId_phases (h : Entries s) : s.phasesOf s.nextId = [] := by
  unfold phasesOf
  rw [List.map_eq_nil_iff, List.filter_eq_nil_iff]
  intro entry hentry heq
  have hissued := h.logged entry hentry
  rw [of_decide_eq_true heq] at hissued
  exact h.nextId_not_mem hissued

theorem phasesOf_enqueue (s : Migrations) (record : MigrationRecord) (other : ℕ) :
    (s.enqueue record).phasesOf other =
      if other = s.nextId then s.phasesOf other ++ [.planned] else s.phasesOf other :=
  phasesOf_append s s.nextId other [.planned]

theorem Ledger.enqueue (h : Ledger s) (hqueued : record.queued = true)
    (hplanned : record.phase = .planned) : Ledger (s.enqueue record) where
  recordKeys := OrderedDict.nodup_set h.recordKeys _ _
  issued := by
    refine List.nodup_append.mpr ⟨h.issued, List.nodup_singleton _, ?_⟩
    intro a ha b hb heq
    rw [List.mem_singleton.mp hb] at heq
    exact h.nextId_not_mem (heq ▸ ha)
  fresh := by
    intro other hother
    change other < s.nextId + 1
    rcases List.mem_append.mp hother with hold | hnew
    · exact (h.fresh other hold).trans (Nat.lt_succ_self _)
    · rw [List.mem_singleton.mp hnew]
      exact Nat.lt_succ_self _
  logged := by
    intro entry hentry
    rcases List.mem_append.mp hentry with hold | hnew
    · exact List.mem_append_left _ (h.logged entry hold)
    · rw [List.mem_singleton.mp hnew]
      exact List.mem_append_right _ (List.mem_singleton_self _)
  known := by
    intro other found hfound
    change OrderedDict.get (OrderedDict.set s.records s.nextId record) other = some found at hfound
    rw [OrderedDict.get_set] at hfound
    split_ifs at hfound with heq
    · rw [heq]
      exact List.mem_append_right _ (List.mem_singleton_self _)
    · exact List.mem_append_left _ (h.known other found hfound)
  worked := by
    intro other found hfound
    change OrderedDict.get (OrderedDict.set s.tasks s.nextId .waitingRole) other = some found
      at hfound
    rw [OrderedDict.get_set] at hfound
    rw [phasesOf_enqueue]
    split_ifs at hfound with heq
    · cases hfound
      rw [if_pos heq, heq, h.nextId_phases]
      exact ⟨record, OrderedDict.get_set_self _ _ _, hqueued, hplanned, rfl⟩
    · obtain ⟨old, hold, hmatch⟩ := h.worked other found hfound
      rw [if_neg heq]
      exact ⟨old, (OrderedDict.get_set_ne heq _ _).trans hold, hmatch⟩
  settled := by
    intro other found hfound hnone
    change OrderedDict.get (OrderedDict.set s.records s.nextId record) other = some found at hfound
    change OrderedDict.get (OrderedDict.set s.tasks s.nextId .waitingRole) other = none at hnone
    rw [OrderedDict.get_set] at hfound hnone
    rw [phasesOf_enqueue]
    split_ifs at hfound hnone with heq
    rw [if_neg heq]
    exact h.settled other found hfound hnone
  finished := by
    intro other hissued hnone
    change OrderedDict.get (OrderedDict.set s.tasks s.nextId .waitingRole) other = none at hnone
    rw [OrderedDict.get_set] at hnone
    rw [phasesOf_enqueue]
    split_ifs at hnone with heq
    rw [if_neg heq]
    rcases List.mem_append.mp hissued with hold | hnew
    · exact h.finished other hold hnone
    · exact (heq (List.mem_singleton.mp hnew)).elim
  dropped := by
    intro entry hentry
    obtain ⟨hissued, hnone, hsettled⟩ := h.dropped entry hentry
    have hne : entry.1 ≠ s.nextId := fun heq => h.nextId_not_mem (heq ▸ hissued)
    rw [phasesOf_enqueue, if_neg hne]
    exact ⟨List.mem_append_left _ hissued, (OrderedDict.get_set_ne hne _ _).trans hnone, hsettled⟩
  bounded := by
    have hrecords : (s.enqueue record).records = s.records ++ [(s.nextId, record)] :=
      OrderedDict.set_of_absent h.nextId_records record
    have hnew : (OrderedDict.get (s.enqueue record).tasks s.nextId).isNone = false := by
      change (OrderedDict.get (OrderedDict.set s.tasks s.nextId .waitingRole) s.nextId).isNone = _
      rw [OrderedDict.get_set_self]
      rfl
    have hkept : (s.enqueue record).kept = s.kept := by
      unfold kept
      rw [hrecords, List.filter_append, List.filter_cons_of_neg (by simp [hnew]), List.filter_nil,
        List.append_nil]
      apply List.filter_congr
      intro entry hentry
      have hne : entry.1 ≠ s.nextId := by
        intro heq
        have habsent := OrderedDict.get_eq_none_iff.mp h.nextId_records
        exact habsent (heq ▸ List.mem_map_of_mem hentry)
      exact congrArg Option.isNone (OrderedDict.get_set_ne hne _ _)
    rw [hkept]
    exact h.bounded

/-! ## Pruning -/

theorem Entries.popTask (h : Entries s) (htask : OrderedDict.get s.tasks id = some .ended) :
    Entries { s with tasks := OrderedDict.pop s.tasks id } where
  recordKeys := h.recordKeys
  issued := h.issued
  fresh := h.fresh
  logged := h.logged
  known := h.known
  worked := by
    intro other found hfound
    rw [OrderedDict.get_pop] at hfound
    split_ifs at hfound
    exact h.worked other found hfound
  settled := by
    intro other found hfound hnone
    rw [OrderedDict.get_pop] at hnone
    split_ifs at hnone with heq
    · obtain ⟨record, hrecord, hsettled⟩ := h.worked id .ended htask
      subst heq
      cases hrecord.symm.trans hfound
      exact hsettled
    · exact h.settled other found hfound hnone
  finished := by
    intro other hissued hnone
    rw [OrderedDict.get_pop] at hnone
    split_ifs at hnone with heq
    · obtain ⟨record, -, -, hfinished⟩ := h.worked id .ended htask
      rw [heq]
      exact ⟨record.phase, hfinished⟩
    · exact h.finished other hissued hnone
  dropped := by
    intro entry hentry
    obtain ⟨hissued, hnone, hsettled⟩ := h.dropped entry hentry
    refine ⟨hissued, ?_, hsettled⟩
    rw [OrderedDict.get_pop]
    split_ifs
    · rfl
    · exact hnone

/-- The ids that `_prune_display_migrations` may remove, lowest first. -/
def removable (s : Migrations) : List ℕ :=
  ((s.records.map Prod.fst).mergeSort).filter fun id =>
    s.active ≠ some id ∧ id ∉ s.tasks.map Prod.fst

theorem get_tasks_of_removable (h : id ∈ s.removable) : OrderedDict.get s.tasks id = none := by
  obtain ⟨-, hkept⟩ := List.mem_filter.mp h
  exact OrderedDict.get_eq_none_iff.mpr (of_decide_eq_true hkept).2

theorem get_filter_of_get {α : Type} {d : List (ℕ × α)} (hd : (d.map Prod.fst).Nodup)
    {p : ℕ × α → Bool} {id : ℕ} {value : α}
    (h : OrderedDict.get (d.filter p) id = some value) : OrderedDict.get d id = some value := by
  have hmem := List.mem_of_mem_filter (OrderedDict.mem_of_get h)
  exact (OrderedDict.get_eq_some_iff hd).mpr hmem

/-- Records whose task is gone are removed, the others stay. -/
theorem Entries.remove (h : Entries s) {removed : List ℕ}
    (hgone : ∀ id ∈ removed, OrderedDict.get s.tasks id = none) :
    Entries { s with
      records := s.records.filter fun entry => entry.1 ∉ removed
      dropped := s.dropped ++ s.records.filter fun entry => entry.1 ∈ removed } where
  recordKeys := h.recordKeys.sublist (List.filter_sublist.map _)
  issued := h.issued
  fresh := h.fresh
  logged := h.logged
  known := fun other found hfound => h.known other found (get_filter_of_get h.recordKeys hfound)
  worked := by
    intro other found hfound
    obtain ⟨record, hrecord, hmatch⟩ := h.worked other found hfound
    have hstays : other ∉ removed := by
      intro hmem
      rw [hgone other hmem] at hfound
      cases hfound
    refine ⟨record, ?_, hmatch⟩
    rw [OrderedDict.get_eq_some_iff (h.recordKeys.sublist (List.filter_sublist.map _))]
    exact List.mem_filter.mpr ⟨OrderedDict.mem_of_get hrecord, decide_eq_true hstays⟩
  settled := fun other found hfound hnone =>
    h.settled other found (get_filter_of_get h.recordKeys hfound) hnone
  finished := h.finished
  dropped := by
    intro entry hentry
    rcases List.mem_append.mp hentry with hold | hnew
    · exact h.dropped entry hold
    · obtain ⟨hmem, hremoved⟩ := List.mem_filter.mp hnew
      have hnone := hgone entry.1 (of_decide_eq_true hremoved)
      have hget := (OrderedDict.get_eq_some_iff h.recordKeys).mpr hmem
      exact ⟨h.known _ _ hget, hnone, h.settled _ _ hget hnone⟩

theorem prune_eq (s : Migrations) : s.prune =
    if s.records.length ≤ 32 then s
    else
      { s with
        records := s.records.filter fun entry =>
          entry.1 ∉ s.removable.take (s.records.length - 32)
        dropped := s.dropped ++ s.records.filter fun entry =>
          entry.1 ∈ s.removable.take (s.records.length - 32) } := rfl

theorem filter_not_mem_take {l : List ℕ} (h : l.Nodup) (n : ℕ) :
    (l.filter fun id => id ∉ l.take n) = l.drop n := by
  have hsplit : (l.take n ++ l.drop n).Nodup := by rwa [List.take_append_drop]
  have hdisjoint := (List.nodup_append.mp hsplit).2.2
  conv_lhs => rw [← List.take_append_drop n l, List.filter_append]
  rw [List.take_append_drop]
  have hfirst : ((l.take n).filter fun id => id ∉ l.take n) = [] := by
    rw [List.filter_eq_nil_iff]
    intro id hid
    simpa using hid
  have hrest : ((l.drop n).filter fun id => id ∉ l.take n) = l.drop n := by
    rw [List.filter_eq_self]
    intro id hid
    refine decide_eq_true fun hmem => hdisjoint id hmem id hid rfl
  rw [hfirst, hrest, List.nil_append]

/-- When the active id has a task, what may be removed are the records whose task is gone. -/
theorem removable_perm (hactive : ∀ id, s.active = some id → OrderedDict.get s.tasks id ≠ none) :
    s.removable.Perm (s.kept.map Prod.fst) := by
  have hsame : s.removable = ((s.records.map Prod.fst).mergeSort).filter fun id =>
      (OrderedDict.get s.tasks id).isNone := by
    apply List.filter_congr
    intro id _
    rw [Bool.eq_iff_iff, decide_eq_true_iff, Option.isNone_iff_eq_none,
      OrderedDict.get_eq_none_iff]
    constructor
    · exact And.right
    · intro hnone
      exact ⟨fun heq => hactive id heq (OrderedDict.get_eq_none_iff.mpr hnone), hnone⟩
  rw [hsame]
  have hperm := (List.mergeSort_perm (s.records.map Prod.fst) (fun a b => decide (a ≤ b))).filter
    fun id => (OrderedDict.get s.tasks id).isNone
  refine hperm.trans (List.Perm.of_eq ?_)
  rw [kept, List.filter_map]
  rfl

theorem Entries.bounded_prune (h : Entries s)
    (hactive : ∀ id, s.active = some id → OrderedDict.get s.tasks id ≠ none) :
    s.prune.kept.length ≤ 32 := by
  rw [prune_eq]
  split_ifs with hfew
  · exact (List.length_filter_le _ _).trans hfew
  · have hperm := removable_perm hactive
    have hnodup : s.removable.Nodup :=
      hperm.nodup_iff.mpr (h.recordKeys.sublist (List.filter_sublist.map _))
    have hle : s.kept.length ≤ s.records.length := List.length_filter_le _ _
    have hlength : s.removable.length = s.kept.length := by
      rw [hperm.length_eq, List.length_map]
    have hleft : ((s.kept.map Prod.fst).filter fun id =>
        id ∉ s.removable.take (s.records.length - 32)).length =
          s.removable.length - (s.records.length - 32) := by
      rw [← (hperm.filter _).length_eq, filter_not_mem_take hnodup, List.length_drop]
    rw [List.filter_map, List.length_map] at hleft
    have hkept : (s.records.filter fun entry =>
        entry.1 ∉ s.removable.take (s.records.length - 32)).filter (fun entry =>
          (OrderedDict.get s.tasks entry.1).isNone) = s.kept.filter fun entry =>
            entry.1 ∉ s.removable.take (s.records.length - 32) := by
      rw [kept, List.filter_comm]
    rw [kept, hkept]
    refine Nat.le_trans (Nat.le_of_eq hleft) ?_
    omega

theorem Ledger.completed (h : Ledger s) (htask : OrderedDict.get s.tasks id = some .ended)
    (hactive : ∀ other, s.active = some other → other ≠ id ∧ OrderedDict.get s.tasks other ≠ none) :
    Ledger (prune { s with tasks := OrderedDict.pop s.tasks id }) := by
  have hpopped := h.toEntries.popTask htask
  refine ⟨?_, hpopped.bounded_prune ?_⟩
  · rw [prune_eq]
    split_ifs
    · exact hpopped
    · exact hpopped.remove fun other hother =>
        get_tasks_of_removable (List.mem_of_mem_take hother)
  · intro other hother
    obtain ⟨hne, hsome⟩ := hactive other hother
    change OrderedDict.get (OrderedDict.pop s.tasks id) other ≠ none
    rwa [OrderedDict.get_pop_ne hne]

/-! ## One migration at a time -/

def Holding (s : Migrations) (id : ℕ) : Prop :=
  ∃ stage, OrderedDict.get s.tasks id = some stage ∧ stage.holdsRole = true

/-- The outer lock names the task between its ends, the active id the task between the ends of the
inner one. -/
structure Exclusive (s : Migrations) : Prop where
  holder : ∀ id, s.locks .role = some (.migration id) ↔ s.Holding id
  active : ∀ id, s.active = some id ↔ s.Running id

theorem holdsRole_of_running (h : stage.running = true) : stage.holdsRole = true := by
  cases stage <;> first | rfl | cases h

theorem Running.holding (h : s.Running id) : s.Holding id := by
  obtain ⟨stage, htask, hrunning⟩ := h
  exact ⟨stage, htask, holdsRole_of_running hrunning⟩

theorem Holding.unique (h : Exclusive s) {other : ℕ} (hid : s.Holding id)
    (hother : s.Holding other) : id = other := by
  have hholder := (h.holder id).mpr hid
  rw [(h.holder other).mpr hother] at hholder
  cases hholder
  rfl

theorem Exclusive.setStage (h : Exclusive s) (stage' : Stage)
    (htasks : t.tasks = OrderedDict.set s.tasks id stage')
    (hlock : ∀ other, other ≠ id →
      (t.locks .role = some (.migration other) ↔ s.locks .role = some (.migration other)))
    (hself : t.locks .role = some (.migration id) ↔ stage'.holdsRole = true)
    (hactive : ∀ other, other ≠ id → (t.active = some other ↔ s.active = some other))
    (hselfActive : t.active = some id ↔ stage'.running = true) : Exclusive t := by
  have hget : ∀ other, OrderedDict.get t.tasks other =
      if other = id then some stage' else OrderedDict.get s.tasks other := by
    intro other
    rw [htasks, OrderedDict.get_set]
  constructor
  · intro other
    unfold Holding
    rw [hget]
    split_ifs with heq
    · rw [heq, hself]
      simp
    · rw [hlock other heq, h.holder]
      rfl
  · intro other
    unfold Running
    rw [hget]
    split_ifs with heq
    · rw [heq, hselfActive]
      simp
    · rw [hactive other heq, h.active]
      rfl

/-- A stage that holds and runs as the one before it. -/
theorem Exclusive.moveOn (h : Exclusive s) (htask : OrderedDict.get s.tasks id = some stage)
    (htasks : t.tasks = OrderedDict.set s.tasks id stage')
    (hlock : t.locks .role = s.locks .role) (hactive : t.active = s.active)
    (hholds : stage'.holdsRole = stage.holdsRole) (hruns : stage'.running = stage.running) :
    Exclusive t := by
  refine h.setStage _ htasks (fun _ _ => by rw [hlock]) ?_ (fun _ _ => by rw [hactive]) ?_
  · rw [hlock, h.holder, hholds]
    simp [Holding, htask]
  · rw [hactive, h.active, hruns]
    simp [Running, htask]

theorem Exclusive.congr (h : Exclusive s) (htasks : t.tasks = s.tasks)
    (hlock : t.locks .role = s.locks .role) (hactive : t.active = s.active) : Exclusive t where
  holder := by
    intro id
    unfold Holding
    rw [hlock, htasks]
    exact h.holder id
  active := by
    intro id
    unfold Running
    rw [hactive, htasks]
    exact h.active id

/-! ## Steps -/

structure Inv (s : Migrations) : Prop where
  ledger : Ledger s
  exclusive : Exclusive s

/-- Whoever listens can be sent the record. -/
def Announceable (env : Surroundings) (record : MigrationRecord) : Prop :=
  ∀ receiver ∈ env.instances, receives displayMigrationTopic receiver = true →
    Encodable (eventPacket displayMigrationTopic (.dict record.payload) (lit "msys.core"))

theorem publish_returns_iff (env : Surroundings) (record : MigrationRecord) :
    Returns (publish env record) ↔ Announceable env record := by
  have htopic : validTopicText displayMigrationTopic = true := by decide
  rw [publish, broadcast_returns_iff]
  exact ⟨fun h => h htopic, fun h _ => h⟩

/-- The announcement of a queued migration goes out. -/
def QueueAnnounced (s : Migrations) : Label → Prop
  | .queue request env => Announceable env (request.record s.nextId)
  | _ => True

theorem stageIn_singleton : s.StageIn id [stage] ↔ OrderedDict.get s.tasks id = some stage := by
  simp [StageIn]

theorem inv_initial : Inv initial where
  ledger :=
    { recordKeys := List.nodup_nil
      issued := List.nodup_nil
      fresh := by intro id h; cases h
      logged := by intro entry h; cases h
      known := by intro id record h; cases h
      worked := by intro id stage h; cases h
      settled := by intro id record h; cases h
      finished := by intro id h; cases h
      dropped := by intro entry h; cases h
      bounded := Nat.zero_le 32 }
  exclusive :=
    { holder := by
        intro id
        constructor
        · intro h
          cases h
        · rintro ⟨stage, h, -⟩
          cases h
      active := by
        intro id
        constructor
        · intro h
          cases h
        · rintro ⟨stage, h, -⟩
          cases h }

theorem Inv.queue (h : Inv s) {request : Request} {env : Surroundings}
    (hannounced : Announceable env (request.record s.nextId))
    (hstep : step s (.queue request env) = some t) : Inv t := by
  obtain ⟨sent, hsent⟩ := (publish_returns_iff _ _).mpr hannounced
  have ht : t.records = (s.enqueue (request.record s.nextId)).records ∧
      t = { s.enqueue (request.record s.nextId) with locks := s.locks, active := s.active } := by
    simp only [step, hsent] at hstep
    cases hstep
    exact ⟨rfl, rfl⟩
  obtain ⟨-, rfl⟩ := ht
  refine ⟨(h.ledger.enqueue rfl rfl).congr rfl rfl rfl rfl rfl rfl, ?_⟩
  have hnone := h.ledger.nextId_tasks
  refine h.exclusive.setStage .waitingRole rfl (fun _ _ => Iff.rfl) ?_
    (fun _ _ => Iff.rfl) ?_
  · rw [show (_ : Migrations).locks .role = s.locks .role from rfl, h.exclusive.holder]
    simp [Holding, hnone, Stage.holdsRole, Stage.running]
  · rw [show (_ : Migrations).active = s.active from rfl, h.exclusive.active]
    simp [Running, hnone, Stage.running]

theorem Ledger.setStage (h : Ledger s) (htask : OrderedDict.get s.tasks id = some stage)
    (hrecord : OrderedDict.get s.records id = some record)
    (hexplains : Explains stage' record (s.phasesOf id))
    (ht : t.tasks = (s.setStage id stage').tasks)
    (hrecords : t.records = s.records) (hlog : t.log = s.log) (hissued : t.issued = s.issued)
    (hnext : t.nextId = s.nextId) (hdropped : t.dropped = s.dropped) : Ledger t := by
  have hsame : Explains stage' record (s.phasesOf id ++ []) := by rwa [List.append_nil]
  refine (h.advance htask hrecord hsame).congr ht ?_ ?_ hissued hnext hdropped
  · rw [hrecords]
    exact (OrderedDict.set_of_get hrecord).symm
  · rw [hlog]
    exact (List.append_nil _).symm

theorem Inv.enterRole (h : Inv s) (htask : OrderedDict.get s.tasks id = some .waitingRole)
    (hfree : s.locks .role = none) :
    Inv ((s.setLock .role (some (.migration id))).setStage id .waitingReload) := by
  obtain ⟨record, hrecord, hexplains⟩ := h.ledger.worked id _ htask
  have hnext : Explains .waitingReload record (s.phasesOf id) := hexplains
  refine ⟨h.ledger.setStage htask hrecord hnext rfl rfl rfl rfl rfl rfl, ?_⟩
  have hnobody : ∀ other, s.active ≠ some other := by
    intro other hactive
    have hholder := (h.exclusive.holder other).mpr ((h.exclusive.active other).mp hactive).holding
    rw [hfree] at hholder
    cases hholder
  refine h.exclusive.setStage _ rfl ?_ ?_ (fun _ _ => Iff.rfl) ?_
  · intro other hother
    simp [setLock, Migrations.setStage, hfree, Ne.symm hother]
  · simp [setLock, Migrations.setStage, Stage.holdsRole]
  · simpa [setLock, Migrations.setStage, Stage.running] using hnobody id

theorem Inv.begin (h : Inv s) (startedAt : ℤ)
    (htask : OrderedDict.get s.tasks id = some .waitingReload) : Inv (s.begin id startedAt) := by
  obtain ⟨record, hrecord, -, hplanned, hphases⟩ := h.ledger.worked id _ htask
  unfold Migrations.begin
  rw [hrecord]
  refine ⟨?_, ?_⟩
  · have hexplains : Explains .waitingRecovery
        { record with
          queued := false
          report := Dict.set record.report "started_at_unix_ms" (.int startedAt) }
        (s.phasesOf id ++ []) := ⟨rfl, hplanned, by rw [List.append_nil, hphases]⟩
    refine (h.ledger.advance htask hrecord hexplains).congr rfl rfl ?_ rfl rfl rfl
    exact (List.append_nil _).symm
  · have hholding : s.Holding id := ⟨_, htask, rfl⟩
    refine h.exclusive.setStage _ rfl (fun _ _ => Iff.rfl) ?_ ?_ ?_
    · change s.locks .role = some (.migration id) ↔ _
      simpa [Stage.holdsRole, Stage.running] using (h.exclusive.holder id).mpr hholding
    · intro other hother
      constructor
      · intro hactive
        exact (hother (Option.some.inj hactive).symm).elim
      · intro hactive
        have hrunning := (h.exclusive.active other).mp hactive
        exact (hother (hrunning.holding.unique h.exclusive hholding)).elim
    · simp [Stage.running]

theorem Inv.enterRecovery (h : Inv s) (htask : OrderedDict.get s.tasks id = some .waitingRecovery) :
    Inv ((s.setLock .recovery (some (.migration id))).setStage id .migrating) := by
  obtain ⟨record, hrecord, hexplains⟩ := h.ledger.worked id _ htask
  have hnext : Explains .migrating record (s.phasesOf id) := hexplains
  exact ⟨h.ledger.setStage htask hrecord hnext rfl rfl rfl rfl rfl rfl,
    h.exclusive.moveOn htask rfl rfl rfl rfl rfl⟩

theorem Inv.switch (h : Inv s) (plan : Plan) (hrecord : OrderedDict.get s.records id = some record)
    (htask : OrderedDict.get s.tasks id = some .migrating)
    (hstage : stage' = .switching ∨ stage' = .failing) :
    Inv (((s.setRecord id (plan.apply record)).logPhase id .switching).setStage id stage') := by
  obtain ⟨found, hfound, hqueued, -, hphases⟩ := h.ledger.worked id _ htask
  cases hfound.symm.trans hrecord
  have hexplains : Explains stage' (plan.apply record) (s.phasesOf id ++ [.switching]) := by
    rw [hphases]
    rcases hstage with rfl | rfl <;> exact ⟨hqueued, rfl, rfl⟩
  refine ⟨(h.ledger.advance htask hrecord hexplains).congr rfl rfl rfl rfl rfl rfl, ?_⟩
  rcases hstage with rfl | rfl <;> exact h.exclusive.moveOn htask rfl rfl rfl rfl rfl

theorem Inv.progress (h : Inv s) (progress : Progress)
    (hrecord : OrderedDict.get s.records id = some record)
    (htask : OrderedDict.get s.tasks id = some .switching) :
    Inv (s.setRecord id (progress.apply record)) := by
  obtain ⟨found, hfound, hqueued, hphase, hphases⟩ := h.ledger.worked id _ htask
  cases hfound.symm.trans hrecord
  have hexplains : Explains .switching (progress.apply record) (s.phasesOf id ++ []) :=
    ⟨hqueued, hphase, by rw [List.append_nil, hphases]⟩
  refine ⟨(h.ledger.advance htask hrecord hexplains).congr ?_ rfl ?_ rfl rfl rfl,
    h.exclusive.congr rfl rfl rfl⟩
  · exact (OrderedDict.set_of_get htask).symm
  · exact (List.append_nil _).symm

/-- A running task ends with its last phase. -/
theorem Inv.finish (h : Inv s) {last : Phase} (hlast : last.Final) (hqueued : record.queued = false)
    (htask : OrderedDict.get s.tasks id = some stage) (hrunning : stage.running = true)
    (hrecord : ∃ old, OrderedDict.get s.records id = some old)
    (hphases : Unfinished (s.phasesOf id)) : Inv (s.finish id record last) := by
  obtain ⟨old, hold⟩ := hrecord
  have hexplains : Explains .ended { record with phase := last } (s.phasesOf id ++ [last]) := by
    refine ⟨hqueued, hlast, ?_⟩
    rcases hphases with heq | heq
    · exact .inl (by rw [heq]; rfl)
    · exact .inr (by rw [heq]; rfl)
  refine ⟨(h.ledger.advance htask hold hexplains).congr rfl rfl rfl rfl rfl rfl, ?_⟩
  have hself : s.Running id := ⟨stage, htask, hrunning⟩
  have hholder := (h.exclusive.holder id).mpr hself.holding
  have hactive := (h.exclusive.active id).mpr hself
  refine h.exclusive.setStage .ended rfl ?_ ?_ ?_ ?_
  · intro other hother
    rw [hholder]
    simp [Migrations.finish, setLock, Migrations.setStage, setRecord, logPhase, Ne.symm hother]
  · simp [Migrations.finish, setLock, Migrations.setStage, setRecord, logPhase, Stage.holdsRole,
      Stage.running]
  · intro other hother
    rw [hactive]
    simp [Migrations.finish, Ne.symm hother]
  · simp [Migrations.finish, Stage.running]

theorem Inv.completed (h : Inv s) (htask : OrderedDict.get s.tasks id = some .ended) :
    Inv (prune { s with tasks := OrderedDict.pop s.tasks id }) := by
  have hactive : ∀ other, s.active = some other →
      other ≠ id ∧ OrderedDict.get s.tasks other ≠ none := by
    intro other hother
    obtain ⟨stage, hstage, hrunning⟩ := (h.exclusive.active other).mp hother
    refine ⟨?_, by simp [hstage]⟩
    intro heq
    rw [heq, htask] at hstage
    cases hstage
    cases hrunning
  refine ⟨h.ledger.completed htask hactive, ?_⟩
  have hget : ∀ other stage, OrderedDict.get (OrderedDict.pop s.tasks id) other = some stage ↔
      other ≠ id ∧ OrderedDict.get s.tasks other = some stage := by
    intro other stage
    rw [OrderedDict.get_pop]
    split_ifs with heq <;> simp [heq]
  have hpopped : Exclusive { s with tasks := OrderedDict.pop s.tasks id } := by
    constructor
    · intro other
      rw [show (_ : Migrations).locks .role = s.locks .role from rfl, h.exclusive.holder]
      unfold Holding
      simp only [hget]
      constructor
      · rintro ⟨stage, hstage, hholds⟩
        refine ⟨stage, ⟨?_, hstage⟩, hholds⟩
        intro heq
        rw [heq, htask] at hstage
        cases hstage
        cases hholds
      · rintro ⟨stage, ⟨-, hstage⟩, hholds⟩
        exact ⟨stage, hstage, hholds⟩
    · intro other
      rw [show (_ : Migrations).active = s.active from rfl, h.exclusive.active]
      unfold Running
      simp only [hget]
      constructor
      · rintro ⟨stage, hstage, hrunning⟩
        refine ⟨stage, ⟨?_, hstage⟩, hrunning⟩
        intro heq
        rw [heq, htask] at hstage
        cases hstage
        cases hrunning
      · rintro ⟨stage, ⟨-, hstage⟩, hrunning⟩
        exact ⟨stage, hstage, hrunning⟩
  rw [prune_eq]
  split_ifs
  · exact hpopped
  · exact hpopped.congr rfl rfl rfl

theorem onRecord_eq_some {stages : List Stage} {f : MigrationRecord → Migrations} :
    s.onRecord id stages f = some t ↔ ∃ stage record,
      OrderedDict.get s.tasks id = some stage ∧ stage ∈ stages ∧
        OrderedDict.get s.records id = some record ∧ f record = t := by
  unfold onRecord
  constructor
  · intro h
    split_ifs at h with hstage
    obtain ⟨stage, htask, hmem⟩ := hstage
    obtain ⟨record, hrecord, hf⟩ := Option.map_eq_some_iff.mp h
    exact ⟨stage, record, htask, hmem, hrecord, hf⟩
  · rintro ⟨stage, record, htask, hmem, hrecord, rfl⟩
    rw [if_pos ⟨stage, htask, hmem⟩, hrecord]
    rfl

/-- What a task that works says about its record. -/
theorem Ledger.working (h : Ledger s) (htask : OrderedDict.get s.tasks id = some stage)
    (hstage : stage ∈ [Stage.migrating, .switching, .failing])
    (hrecord : OrderedDict.get s.records id = some record) :
    record.queued = false ∧ stage.running = true ∧ Unfinished (s.phasesOf id) := by
  obtain ⟨found, hfound, hexplains⟩ := h.worked id stage htask
  cases hfound.symm.trans hrecord
  simp only [List.mem_cons, List.not_mem_nil, or_false] at hstage
  rcases hstage with rfl | rfl | rfl
  · exact ⟨hexplains.1, rfl, .inl hexplains.2.2⟩
  · exact ⟨hexplains.1, rfl, .inr hexplains.2.2⟩
  · exact ⟨hexplains.1, rfl, .inr hexplains.2.2⟩

theorem inv_step (h : Inv s) (l : Label) (hannounced : QueueAnnounced s l)
    (hstep : step s l = some t) : Inv t := by
  cases l with
  | queue request env => exact h.queue hannounced hstep
  | enterRole id =>
    simp only [step] at hstep
    split_ifs at hstep with hcond
    cases hstep
    exact h.enterRole (stageIn_singleton.mp hcond.1) hcond.2
  | enterReload id startedAt =>
    simp only [step] at hstep
    split_ifs at hstep with hcond
    cases hstep
    exact h.begin startedAt (stageIn_singleton.mp hcond.1)
  | enterRecovery id =>
    simp only [step] at hstep
    split_ifs at hstep with hcond
    cases hstep
    exact h.enterRecovery (stageIn_singleton.mp hcond.1)
  | switch id plan env =>
    obtain ⟨stage, record, htask, hstage, hrecord, hnext⟩ := onRecord_eq_some.mp hstep
    rw [List.mem_singleton.mp hstage] at htask
    cases hpublish : publish env (plan.apply record) with
    | error e =>
      simp only [hpublish] at hnext
      subst hnext
      exact h.switch plan hrecord htask (.inr rfl)
    | ok sent =>
      simp only [hpublish] at hnext
      subst hnext
      exact h.switch plan hrecord htask (.inl rfl)
  | progress id progress =>
    obtain ⟨stage, record, htask, hstage, hrecord, rfl⟩ := onRecord_eq_some.mp hstep
    rw [List.mem_singleton.mp hstage] at htask
    exact h.progress progress hrecord htask
  | succeed id result =>
    obtain ⟨stage, record, htask, hstage, hrecord, rfl⟩ := onRecord_eq_some.mp hstep
    rw [List.mem_singleton.mp hstage] at htask
    obtain ⟨hqueued, hrunning, hphases⟩ := h.ledger.working htask (by decide) hrecord
    exact h.finish (.inl rfl) hqueued htask hrunning ⟨record, hrecord⟩ hphases
  | fail id report =>
    obtain ⟨stage, record, htask, hstage, hrecord, rfl⟩ := onRecord_eq_some.mp hstep
    obtain ⟨hqueued, hrunning, hphases⟩ := h.ledger.working htask hstage hrecord
    exact h.finish (.inr rfl) hqueued htask hrunning ⟨record, hrecord⟩ hphases
  | completed id =>
    simp only [step] at hstep
    split_ifs at hstep with hcond
    cases hstep
    exact h.completed (stageIn_singleton.mp hcond)
  | take lock =>
    simp only [step] at hstep
    split_ifs at hstep with hfree
    cases hstep
    refine ⟨h.ledger.congr rfl rfl rfl rfl rfl rfl, ?_, h.exclusive.active⟩
    intro other
    refine Iff.trans ?_ (h.exclusive.holder other)
    by_cases hrole : lock = .role
    · subst hrole
      simp [setLock, hfree]
    · simp [setLock, Ne.symm hrole]
  | give lock =>
    simp only [step] at hstep
    split_ifs at hstep with hheld
    cases hstep
    refine ⟨h.ledger.congr rfl rfl rfl rfl rfl rfl, ?_, h.exclusive.active⟩
    intro other
    refine Iff.trans ?_ (h.exclusive.holder other)
    by_cases hrole : lock = .role
    · subst hrole
      simp [setLock, hheld]
    · simp [setLock, Ne.symm hrole]

/-! ## Runs -/

/-- The migrations of a run and their records. -/
structure Recorded (s : Migrations) : Prop where
  oneActive : ∀ id other, s.Running id → s.Running other → id = other
  named : ∀ id, s.active = some id ↔ s.Running id
  /-- planned, then switching or not, then at most one last phase -/
  phases : ∀ id ∈ s.issued, Unfinished (s.phasesOf id) ∨ ∃ last, Finished (s.phasesOf id) last
  current : ∀ id record, OrderedDict.get s.records id = some record →
    (s.phasesOf id).getLast? = some record.phase
  /-- a migration whose task is done has its last phase -/
  ended : ∀ id ∈ s.issued, OrderedDict.get s.tasks id = none ∨
    OrderedDict.get s.tasks id = some .ended → ∃ last, Finished (s.phasesOf id) last
  issued : s.issued.Nodup
  pruned : s.tasks = [] → s.records.length ≤ 32
  /-- what was pruned was neither queued nor running -/
  dropped : ∀ entry ∈ s.dropped, entry.2.queued = false ∧
    Finished (s.phasesOf entry.1) entry.2.phase

theorem getLast?_of_finished {phases : List Phase} {last : Phase} (h : Finished phases last) :
    phases.getLast? = some last := by
  rcases h.2 with rfl | rfl <;> rfl

theorem Explains.getLast? {phases : List Phase} (h : Explains stage record phases) :
    phases.getLast? = some record.phase := by
  cases stage with
  | ended => exact getLast?_of_finished h.2
  | _ =>
    obtain ⟨-, hphase, rfl⟩ := h
    rw [hphase]
    rfl

theorem Explains.unfinished {phases : List Phase} (h : Explains stage record phases) :
    Unfinished phases ∨ ∃ last, Finished phases last := by
  cases stage with
  | ended => exact .inr ⟨_, h.2⟩
  | waitingRole | waitingReload | waitingRecovery | migrating => exact .inl (.inl h.2.2)
  | switching | failing => exact .inl (.inr h.2.2)

theorem recorded_of_inv (h : Inv s) : Recorded s where
  oneActive := fun id other hid hother => hid.holding.unique h.exclusive hother.holding
  named := h.exclusive.active
  phases := by
    intro id hid
    cases htask : OrderedDict.get s.tasks id with
    | none => exact .inr (h.ledger.finished id hid htask)
    | some stage =>
      obtain ⟨record, -, hexplains⟩ := h.ledger.worked id stage htask
      exact hexplains.unfinished
  current := by
    intro id record hrecord
    cases htask : OrderedDict.get s.tasks id with
    | none => exact getLast?_of_finished (h.ledger.settled id record hrecord htask).2
    | some stage =>
      obtain ⟨found, hfound, hexplains⟩ := h.ledger.worked id stage htask
      cases hfound.symm.trans hrecord
      exact hexplains.getLast?
  ended := by
    intro id hid hdone
    rcases hdone with hnone | hended
    · exact h.ledger.finished id hid hnone
    · obtain ⟨record, -, hsettled⟩ := h.ledger.worked id .ended hended
      exact ⟨_, hsettled.2⟩
  issued := h.ledger.issued
  pruned := by
    intro hnone
    have hbounded := h.ledger.bounded
    have hall : s.kept = s.records := by
      rw [kept, List.filter_eq_self]
      intro entry _
      rw [hnone]
      rfl
    rwa [hall] at hbounded
  dropped := fun entry hentry => (h.ledger.dropped entry hentry).2.2

/-- In every run whose queued migrations are announced, the records keep their promises in every
state. -/
theorem recorded_of_announced (ls : List Label) (halong : Runs.Along step QueueAnnounced initial ls)
    (hrun : Runs.run step initial ls = some s) : Recorded s :=
  recorded_of_inv (Runs.run_invariant (fun _ l _ h hcond hstep => inv_step h l hcond hstep) ls
    inv_initial halong hrun)

/-- A request for a display without a name that UTF-8 can carry, and one that can be sent. -/
def requestFor (display : PyStr) : Request where
  provider := lit "b:display"
  preferenceMode := lit "select"
  source := lit "settings:main"
  oldProvider := some (lit "a:display")
  oldDisplay := some (lit ":0")
  newDisplay := some display
  requestedAt := 0

/-- A component that listens to migrations. -/
def listening : Surroundings where
  runtimeDir := lit "/run/msys"
  instances := [⟨lit "settings:main", 1, [], true, true, [displayMigrationTopic], []⟩]
  unreachable := fun _ => false
  reload := .ok .null

theorem publish_nobody (record : MigrationRecord) :
    publish { listening with instances := [] } record = .ok [] := by
  unfold publish broadcast
  split_ifs <;> rfl

theorem recorded_of_announced_one :
    let ls : List Label := [.queue (requestFor (lit ":1")) { listening with instances := [] },
      .enterRole 1, .enterReload 1 0, .enterRecovery 1, .fail 1 [], .completed 1]
    ∃ s, Runs.run step initial ls = some s ∧ Recorded s := by
  intro ls
  have halong : Runs.Along step QueueAnnounced initial ls := by
    refine ⟨fun receiver hreceiver => ?_, ?_⟩
    · cases hreceiver
    · simp only [step, publish_nobody]
      exact ⟨trivial, trivial, trivial, trivial, trivial, trivial⟩
  have hrun : ∃ s, Runs.run step initial ls = some s := by
    simp only [ls, Runs.run, step, publish_nobody]
    exact ⟨_, rfl⟩
  obtain ⟨s, hrun⟩ := hrun
  exact ⟨s, hrun, recorded_of_announced ls halong hrun⟩

theorem not_announceable_surrogate :
    ¬ Announceable listening ((requestFor [0xD800]).record 1) := by
  intro hannounceable
  have hencodable := hannounceable _ (List.mem_singleton_self _) (by decide)
  have hclean := hencodable.1
  revert hclean
  decide

/-- The announcement raises, so there is no task, and the record stays planned and queued. -/
theorem unannounced_stays_planned :
    ∃ s, Runs.run step initial [.queue (requestFor [0xD800]) listening] = some s ∧
      s.tasks = [] ∧ s.phasesOf 1 = [.planned] ∧ ¬ Recorded s := by
  have hpublish : ∃ e, publish listening ((requestFor [0xD800]).record 1) = .error e := by
    cases hresult : publish listening ((requestFor [0xD800]).record 1) with
    | error e => exact ⟨e, rfl⟩
    | ok sent =>
      exact (not_announceable_surrogate ((publish_returns_iff _ _).mp ⟨sent, hresult⟩)).elim
  obtain ⟨e, hpublish⟩ := hpublish
  have hrun : Runs.run step initial [.queue (requestFor [0xD800]) listening] =
      some { initial with
        records := [(1, (requestFor [0xD800]).record 1)]
        nextId := 2
        issued := [1]
        log := [(1, .planned)] } := by
    simp only [Runs.run, step, initial, hpublish]
    rfl
  refine ⟨_, hrun, rfl, rfl, ?_⟩
  intro hrecorded
  obtain ⟨last, hlast, hphases⟩ := hrecorded.ended 1 (List.mem_singleton_self 1) (.inl rfl)
  rcases hphases with heq | heq <;> cases heq

end Migrations

end MsysCore.Core
