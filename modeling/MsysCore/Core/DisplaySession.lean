import MsysCore.Core.DisplayOutage
import MsysCore.Core.SessionRestore

/-!
# Outages, recoveries and migrations of the display

The supervisor together with the tasks that `display_recovery_lock` serializes. A step of
the supervisor that loses the active provider begins an outage in the same stretch; the
task that made it then owes the suspension of the recorded clients. A recovery starts the
consumers again when a provider is ready, a migration does so for another provider. Any
task may be cancelled where it waits.

The lists `started`, `counted` and `cleared` are ghost: the consumers that a recovery or a
migration asked to start, those that a recovery counted as restarted with the instance it
got, and the dropped applications of the outages that a recovery cleared.
-/

namespace MsysCore.Core.Display

open Python
open Supervisor (displayRole)

inductive SuspendPhase
  /-- between the begin and the lock -/
  | owed
  /-- the keys that are left; `call` is the `stop_component` of the first of them -/
  | stopping (remaining : List PyStr) (call : Option ℕ)
  deriving DecidableEq

inductive RecoverPhase
  | waiting
  | looping (outage revision : ℕ) (remaining : List Consumer)
  /-- `ensure_ready`, before it has the instance -/
  | starting (outage revision : ℕ) (consumer : Consumer) (remaining : List Consumer)
  /-- `ensure_ready` of the instance `object` -/
  | awaiting (outage revision : ℕ) (consumer : Consumer) (object : ℕ) (remaining : List Consumer)
  /-- the outage is cleared -/
  | finishing
  deriving DecidableEq

inductive MigratePhase
  /-- before the new provider is committed -/
  | switching
  | restarting (remaining attempted : List Consumer)
  | starting (consumer : Consumer) (remaining attempted : List Consumer)
  /-- the rollback starts what it had attempted -/
  | restoring (remaining : List Consumer)
  deriving DecidableEq

inductive Task
  | suspend (outage : ℕ) (phase : SuspendPhase)
  | recover (provider : ℕ) (phase : RecoverPhase)
  | migrate (snapshot : Option Outage) (phase : MigratePhase)

structure State extends Tables where
  /-- The task that holds `display_recovery_lock`. -/
  lock : Option ℕ
  tasks : ℕ → Option Task
  nextTask : ℕ
  started : List Consumer
  counted : List (Consumer × ℕ)
  cleared : List Consumer

def initial (sup : Supervisor) (w : Session) : State where
  sup := sup
  session := w
  outage := none
  nextOutageId := 1
  nextObject := 0
  lock := none
  tasks := fun _ => none
  nextTask := 0
  started := []
  counted := []
  cleared := []

namespace State

def setTask (s : State) (k : ℕ) (task : Option Task) : State :=
  { s with tasks := Function.update s.tasks k task }

def spawnTask (s : State) (task : Task) : State :=
  { s.setTask s.nextTask (some task) with nextTask := s.nextTask + 1 }

/-- The task goes on with the lock. -/
def hold (s : State) (k : ℕ) (task : Task) : State :=
  { s.setTask k (some task) with lock := some k }

/-- The task ends and releases the lock if it has it. -/
def leave (s : State) (k : ℕ) : State :=
  { s.setTask k none with lock := if s.lock = some k then none else s.lock }

/-- `display_outage`, if it is this record. -/
def live (s : State) (object : ℕ) : Option Outage :=
  s.outage.filter fun o => o.object = object

/-- A change of `recovery_allowed` of the record, if it is still `display_outage`. -/
def allow (s : State) (object : ℕ) (key : PyStr) (allowed : Bool) : State :=
  { s with outage := s.outage.map fun o =>
      if o.object = object then
        { o with recoveryAllowed := Function.update o.recoveryAllowed key allowed }
      else o }

end State

/-- What `_suspend_display_consumers` stops. -/
def Outage.affected (o : Outage) : List PyStr := (o.consumerKeys ++ o.droppedKeys).eraseDups

/-- `_restore_outage_failure_budget` -/
def Session.restoreOutageFailureBudget (w : Session) (o : Outage) (key : PyStr) : Session :=
  { w with
    failureHistory := Function.update w.failureHistory key (o.failureHistory key)
    spawnBackoffUntil := Function.update w.spawnBackoffUntil key (o.spawnBackoff key) }

section

variable (manifest : Component → Manifest)

/-! ## Begins -/

/-- The loss of an instance, and whether it is unplanned. -/
structure Loss where
  object : ℕ
  inst : Instance
  unplanned : Bool

/-- The instance that a step of the supervisor loses. -/
def lossOf (s : Supervisor) : Supervisor.Label → Option Loss
  | .life (.watcherFinalize i) => (s.heap i).map fun inst => ⟨i, inst, true⟩
  | .life (.channelFailed i) => (s.heap i).map fun inst => ⟨i, inst, true⟩
  | .start (.finalize c) =>
    match s.calls c with
    | some (.start key .entered) => (s.current key).map fun entry => ⟨entry.1, entry.2, true⟩
    | _ => none
  | .stop (.enter key expected) =>
    match s.current key with
    | some (i, inst) => if expected = none ∨ expected = some i then some ⟨i, inst, false⟩ else none
    | none => none
  | .lease (.reload components _ _) =>
    -- `_begin_catalog_display_outage`
    match s.registry.activeProvider displayRole with
    | .ok (some provider) =>
      if s.components provider ≠ none ∧ components provider ≠ s.components provider then
        match s.current provider with
        | some (i, inst) => if inst.ready then some ⟨i, inst, false⟩ else none
        | none => none
      else none
    | _ => none
  | _ => none

/-- The begin that a step of the supervisor makes. -/
def begins (t : Tables) (l : Supervisor.Label) : Option Tables :=
  (lossOf t.sup l).bind fun loss =>
    if loss.unplanned then beginUnplannedDisplayFailure manifest t loss.object loss.inst
    else beginDisplayOutage manifest t loss.object loss.inst false false

/-- A step of the supervisor; a begin leaves a suspension to the task that made it. -/
def supStep (s : State) (l : Supervisor.Label) : Option State :=
  match s.sup.step l with
  | none => none
  | some sup =>
    match begins manifest s.toTables l with
    | none => some { s with sup := sup }
    | some t =>
      match t.outage with
      | some o => some (State.spawnTask { s with toTables := { t with sup := sup } }
          (.suspend o.object .owed))
      | none => none

/-! ## Suspensions -/

inductive SuspendLabel
  | lock (k : ℕ)
  | next (k : ℕ)
  | stopped (k : ℕ)
  deriving DecidableEq

/-- One turn of the loop of `_suspend_display_consumers`. -/
def suspendTurn (s : State) (k object : ℕ) : List PyStr → Option State
  | [] => some (s.leave k)
  | key :: rest =>
    if (s.live object).isNone then some (s.leave k)
    else if (OrderedDict.get s.sup.instances key).isNone then
      some (s.setTask k (some (.suspend object (.stopping rest none))))
    else (supStep manifest s (.stop (.enter key none))).map fun s' =>
      s'.setTask k (some (.suspend object (.stopping (key :: rest) (some s.sup.nextCall))))

def suspendStep (s : State) : SuspendLabel → Option State
  | .lock k =>
    match s.tasks k with
    | some (.suspend object .owed) =>
      if s.lock = none then
        match s.live object with
        | some o => some (s.hold k (.suspend object (.stopping o.affected none)))
        | none => some (s.leave k)
      else none
    | _ => none
  | .next k =>
    match s.tasks k with
    | some (.suspend object (.stopping remaining none)) => suspendTurn manifest s k object remaining
    | _ => none
  | .stopped k =>
    -- a stop that raises is only printed
    match s.tasks k with
    | some (.suspend object (.stopping remaining (some c))) =>
      if s.sup.calls c = none then
        some (s.setTask k (some (.suspend object (.stopping remaining.tail none))))
      else none
    | _ => none

/-! ## Recoveries -/

inductive RecoverLabel
  | schedule (provider : ℕ)
  | lock (k : ℕ)
  | next (k : ℕ)
  | started (k : ℕ)
  | counted (k : ℕ)
  | failed (k : ℕ)
  | finish (k : ℕ)
  deriving DecidableEq

def providerOwns (s : Supervisor) (provider : ℕ) : Bool :=
  match s.heap provider with
  | some inst => ownsActiveDisplayOutput manifest s provider inst
  | none => false

/-- The outage is the one the recovery began with, and its provider is still active. -/
def recoveryCurrent (s : State) (provider object revision : ℕ) : Option Outage :=
  if providerOwns manifest s.sup provider then
    (s.live object).filter fun o => o.revision = revision
  else none

/-- `_restore_foreground` and the end of the outage. -/
def clearOutage (s : State) (o : Outage) : State :=
  let ready := fun key => match s.sup.current key with
    | some (_, inst) => inst.ready
    | none => false
  let stack := if o.automaticServicesOnly then s.session.foregroundStack
    else (Foreground.restoreForeground ⟨s.session.foregroundStack, ∅⟩ ready o.foreground).stack
  { s with
    session := { s.session with foregroundStack := stack }
    outage := none
    cleared := s.cleared ++ o.droppedApplications }

/-- One turn of the loop of `_recover_display_consumers`. -/
def recoverTurn (s : State) (k provider object revision : ℕ) (o : Outage) :
    List Consumer → State
  | [] => (clearOutage s o).setTask k (some (.recover provider .finishing))
  | c :: rest =>
    let skipped := s.setTask k (some (.recover provider (.looping object revision rest)))
    match s.sup.components c.key with
    | none => skipped
    | some component =>
      if !inheritsVisualSession (manifest component) then skipped
      else if o.preexistingQuarantine c.key || s.session.quarantined c.key then skipped
      else
        let s := { s with
          session := s.session.restoreOutageFailureBudget o c.key
          started := s.started ++ [c] }
        (s.allow object c.key true).setTask k
          (some (.recover provider (.starting object revision c rest)))

def recoverStep (s : State) : RecoverLabel → Option State
  | .schedule provider => some (s.spawnTask (.recover provider .waiting))
  | .lock k =>
    match s.tasks k with
    | some (.recover provider .waiting) =>
      if s.lock = none then
        match s.sup.heap provider, s.outage with
        | some inst, some o =>
          if inst.ready && ownsActiveDisplayOutput manifest s.sup provider inst then
            some (s.hold k (.recover provider (.looping o.object o.revision o.consumers)))
          else some (s.leave k)
        | _, _ => some (s.leave k)
      else none
    | _ => none
  | .next k =>
    match s.tasks k with
    | some (.recover provider (.looping object revision remaining)) =>
      match recoveryCurrent manifest s provider object revision with
      | some o => some (recoverTurn manifest s k provider object revision o remaining)
      | none => some (s.leave k)
    | _ => none
  | .started k =>
    match s.tasks k with
    | some (.recover provider (.starting object revision c rest)) =>
      (s.sup.current c.key).map fun entry =>
        s.setTask k (some (.recover provider (.awaiting object revision c entry.1 rest)))
    | _ => none
  | .counted k =>
    match s.tasks k with
    | some (.recover provider (.awaiting object revision c i rest)) =>
      match s.sup.heap i with
      | some inst =>
        if inst.ready then
          some (({ s with counted := s.counted ++ [(c, i)] }.allow object c.key false).setTask k
            (some (.recover provider (.looping object revision rest))))
        else none
      | none => none
    | _ => none
  | .failed k =>
    match s.tasks k with
    | some (.recover provider (.starting object revision c rest)) =>
      some ((s.allow object c.key false).setTask k
        (some (.recover provider (.looping object revision rest))))
    | some (.recover provider (.awaiting object revision c _ rest)) =>
      some ((s.allow object c.key false).setTask k
        (some (.recover provider (.looping object revision rest))))
    | _ => none
  | .finish k =>
    match s.tasks k with
    | some (.recover _ .finishing) => some (s.leave k)
    | _ => none

/-! ## Migrations -/

inductive MigrateLabel
  | enter
  /-- `invalidated` is `session_invalidated` of a migration that recovers no outage. -/
  | commit (k : ℕ) (invalidated : Bool)
  | next (k : ℕ)
  | started (k : ℕ)
  | failed (k : ℕ)
  /-- `kept` says that the original instance is still there and ready. -/
  | restore (k : ℕ) (kept : Bool)
  deriving DecidableEq

/-- `_display_outage_matches` -/
def outageMatches (s : State) (snapshot : Outage) : Bool :=
  s.outage.any fun o => o.id = snapshot.id && o.revision = snapshot.revision

/-- The migration may go on: it recovers no outage, or that outage is unchanged. -/
def snapshotMatches (s : State) : Option Outage → Bool
  | none => true
  | some snapshot => outageMatches s snapshot

/-- The consumers that a migration restarts. -/
def migrationConsumers (s : State) : Option Outage → List Consumer
  | none => orderConsumers s.session (orderedVisualConsumers manifest s.sup s.session)
  | some snapshot =>
    let recorded := snapshot.consumers.filter fun c =>
      match s.sup.components c.key with
      | some component => inheritsVisualSession (manifest component)
      | none => false
    let live := (orderedVisualConsumers manifest s.sup s.session).filter fun c =>
      c.key ∉ recorded.map Consumer.key
    recorded ++ orderConsumers s.session live

/-- The failure path after the commit. A snapshot of an outage is put back as a new record. -/
def rollbackOutage (s : State) (k : ℕ) (attempted : List Consumer) : Option Outage → State
  | some snapshot =>
    { s with
      outage := some { snapshot with object := s.nextObject, recoveryAllowed := fun _ => false }
      nextObject := s.nextObject + 1 }.leave k
  | none => s.setTask k (some (.migrate none (.restoring attempted)))

def quarantineSkips (s : State) (key : PyStr) : Option Outage → Bool
  | some snapshot => snapshot.preexistingQuarantine key || s.session.quarantined key
  | none => false

def liveObject (s : State) : ℕ := (s.outage.map Outage.object).getD s.nextObject

/-- One turn of the restart loop of `_migrate_display_output`. -/
def migrateTurn (s : State) (k : ℕ) (snapshot : Option Outage) (attempted : List Consumer) :
    List Consumer → State
  | [] =>
    if snapshotMatches s snapshot then
      (match snapshot with
        | some _ => { s with outage := none }
        | none => s).leave k
    else rollbackOutage s k attempted snapshot
  | c :: rest =>
    if !snapshotMatches s snapshot then rollbackOutage s k attempted snapshot
    else if quarantineSkips s c.key snapshot then
      s.setTask k (some (.migrate snapshot (.restarting rest attempted)))
    else
      let s := { s with started := s.started ++ [c] }
      let s := match snapshot with
        | some o =>
          { s with session := s.session.restoreOutageFailureBudget o c.key }.allow (liveObject s)
            c.key true
        | none => s
      s.setTask k (some (.migrate snapshot (.starting c rest (attempted ++ [c]))))

def migrateStep (s : State) : MigrateLabel → Option State
  | .enter =>
    if s.lock = none then
      some { s.hold s.nextTask (.migrate s.outage .switching) with nextTask := s.nextTask + 1 }
    else none
  | .commit k invalidated =>
    match s.tasks k with
    | some (.migrate snapshot .switching) =>
      if snapshotMatches s snapshot then
        let consumers := if invalidated || snapshot.isSome then
          migrationConsumers manifest s snapshot else []
        some (s.setTask k (some (.migrate snapshot (.restarting consumers []))))
      else some (s.leave k)
    | _ => none
  | .next k =>
    match s.tasks k with
    | some (.migrate snapshot (.restarting remaining attempted)) =>
      some (migrateTurn s k snapshot attempted remaining)
    | _ => none
  | .started k =>
    match s.tasks k with
    | some (.migrate snapshot (.starting c rest attempted)) =>
      some ((s.allow (liveObject s) c.key false).setTask k
        (some (.migrate snapshot (.restarting rest attempted))))
    | _ => none
  | .failed k =>
    match s.tasks k with
    | some (.migrate _ .switching) => some (s.leave k)
    | some (.migrate snapshot (.restarting _ attempted)) =>
      some (rollbackOutage s k attempted snapshot)
    | some (.migrate snapshot (.starting c _ attempted)) =>
      some (rollbackOutage (s.allow (liveObject s) c.key false) k attempted snapshot)
    | _ => none
  | .restore k kept =>
    match s.tasks k with
    | some (.migrate snapshot (.restoring remaining)) =>
      match remaining with
      | [] => some (s.leave k)
      | c :: rest =>
        let started := if kept then s.started else s.started ++ [c]
        some ({ s with started := started }.setTask k
          (some (.migrate snapshot (.restoring rest))))
    | _ => none

/-! ## Runs -/

inductive Label
  | sup (l : Supervisor.Label)
  /-- any change of the session tables by the rest of the core -/
  | session (w : Session)
  | suspend (l : SuspendLabel)
  | recover (l : RecoverLabel)
  | migrate (l : MigrateLabel)
  | cancel (k : ℕ)

def step (s : State) : Label → Option State
  | .sup l => supStep manifest s l
  | .session w => some { s with session := w }
  | .suspend l => suspendStep manifest s l
  | .recover l => recoverStep manifest s l
  | .migrate l => migrateStep manifest s l
  | .cancel k => some (s.leave k)

end

/-- The step of the supervisor that a label runs. -/
def supLabel (s : State) : Label → Option Supervisor.Label
  | .sup l => some l
  | .suspend (.next k) =>
    match s.tasks k with
    | some (.suspend object (.stopping (key :: _) none)) =>
      if (s.live object).isSome then some (.stop (.enter key none)) else none
    | _ => none
  | _ => none

/-- The loss that a label makes. -/
def lossAt (s : State) (l : Label) : Option Loss := (supLabel s l).bind (lossOf s.sup)

/-! ## What the steps do -/

section

variable {manifest : Component → Manifest} {s s' : State}

/-- A begin is one of the active provider. -/
theorem begins_spec {t t' : Tables} {l : Supervisor.Label} (h : begins manifest t l = some t') :
    ∃ loss, lossOf t.sup l = some loss ∧ t.sup.stopping = false ∧
      ownsActiveDisplayOutput manifest t.sup loss.object loss.inst = true ∧
      ∃ o, t'.outage = some o ∧ Begun manifest t loss.inst loss.unplanned t' o := by
  obtain ⟨loss, hloss, hbegin⟩ := Option.bind_eq_some_iff.mp h
  refine ⟨loss, hloss, ?_⟩
  split_ifs at hbegin with hplan
  · obtain ⟨hrunning, howns, -, hbegun⟩ := beginDisplayOutage_spec manifest hbegin
    rw [hplan]
    exact ⟨hrunning, howns, hbegun⟩
  · obtain ⟨hrunning, howns, -, hbegun⟩ := beginDisplayOutage_spec manifest hbegin
    rw [Bool.not_eq_true] at hplan
    rw [hplan]
    exact ⟨hrunning, howns, hbegun⟩

theorem supStep_cases {s s' : State} {l : Supervisor.Label} (h : supStep manifest s l = some s') :
    ∃ sup, s.sup.step l = some sup ∧
      ((begins manifest s.toTables l = none ∧ s' = { s with sup := sup }) ∨
      ∃ t o, begins manifest s.toTables l = some t ∧ t.outage = some o ∧
        s' = State.spawnTask { s with toTables := { t with sup := sup } }
          (.suspend o.object .owed)) := by
  unfold supStep at h
  split at h
  · cases h
  next sup hsup =>
    refine ⟨sup, hsup, ?_⟩
    split at h
    next hnone =>
      cases h
      exact .inl ⟨hnone, rfl⟩
    next t hbegin =>
      split at h
      next o ho =>
        cases h
        exact .inr ⟨t, o, hbegin, ho, rfl⟩
      · cases h

theorem suspendTurn_cases {s s' : State} {k object : ℕ} {remaining : List PyStr}
    (h : suspendTurn manifest s k object remaining = some s') :
    s' = s.leave k ∧ (remaining = [] ∨ s.live object = none) ∨
    (∃ key rest, remaining = key :: rest ∧ (s.live object).isSome ∧
      OrderedDict.get s.sup.instances key = none ∧
      s' = s.setTask k (some (.suspend object (.stopping rest none)))) ∨
    ∃ key rest mid, remaining = key :: rest ∧ (s.live object).isSome ∧
      supStep manifest s (.stop (.enter key none)) = some mid ∧
      s' = mid.setTask k
        (some (.suspend object (.stopping remaining (some s.sup.nextCall)))) := by
  cases remaining with
  | nil =>
    cases h
    exact .inl ⟨rfl, .inl rfl⟩
  | cons key rest =>
    cases hlive : s.live object with
    | none =>
      simp only [suspendTurn, hlive, Option.isNone_none, if_true] at h
      cases h
      exact .inl ⟨rfl, .inr rfl⟩
    | some o =>
      cases hentry : OrderedDict.get s.sup.instances key with
      | none =>
        simp [suspendTurn, hlive, hentry] at h
        exact .inr (.inl ⟨key, rest, rfl, rfl, hentry, h.symm⟩)
      | some i =>
        simp only [suspendTurn, hlive, hentry, Option.isNone_some, Bool.false_eq_true,
          if_false] at h
        obtain ⟨mid, hmid, rfl⟩ := Option.map_eq_some_iff.mp h
        exact .inr (.inr ⟨key, rest, mid, rfl, rfl, hmid, rfl⟩)

end

/-- The record is the one of before, up to `recovery_allowed`. -/
def Continues (s : State) (o' : Outage) : Prop :=
  ∃ o f, s.outage = some o ∧ o' = { o with recoveryAllowed := f }

/-- What becomes of the record: it is begun, continues, or is put back from the snapshot of a
migration. -/
inductive OutageOrigin (manifest : Component → Manifest) (s : State) (l : Label) (s' : State)
    (o' : Outage) : Prop
  | begun {l' t} (label : supLabel s l = some l') (enabled : (s.sup.step l').isSome)
      (begin : begins manifest s.toTables l' = some t) (outage : t.outage = some o')
      (next : s'.nextObject = t.nextObject)
  | continued (same : Continues s o') (next : s'.nextObject = s.nextObject)
  | restored {k snapshot phase} (task : s.tasks k = some (.migrate (some snapshot) phase))
      (back : o' = { snapshot with object := s.nextObject, recoveryAllowed := fun _ => false })
      (next : s'.nextObject = s.nextObject + 1)

section

variable {manifest : Component → Manifest} {s s' : State} {o' : Outage}

theorem continues_refl (h : s.outage = some o') : Continues s o' :=
  ⟨o', o'.recoveryAllowed, h, rfl⟩

theorem continues_allow {object : ℕ} {key : PyStr} {allowed : Bool}
    (h : (s.allow object key allowed).outage = some o') : Continues s o' := by
  obtain ⟨o, ho, rfl⟩ := Option.map_eq_some_iff.mp h
  split_ifs
  · exact ⟨o, _, ho, rfl⟩
  · exact ⟨o, o.recoveryAllowed, ho, rfl⟩

theorem supStep_outage {l : Supervisor.Label} {m : Label} (hlabel : supLabel s m = some l)
    (h : supStep manifest s l = some s') (ho' : s'.outage = some o') :
    OutageOrigin manifest s m s' o' := by
  obtain ⟨sup, hsup, hcases⟩ := supStep_cases h
  rcases hcases with ⟨-, rfl⟩ | ⟨t, o, ht, ho, rfl⟩
  · exact .continued (continues_refl ho') rfl
  · have heq : t.outage = some o' := ho'
    exact .begun hlabel (by simp [hsup]) ht heq rfl

theorem suspendStep_outage {l : SuspendLabel} (h : suspendStep manifest s l = some s')
    (ho' : s'.outage = some o') : OutageOrigin manifest s (.suspend l) s' o' := by
  cases l with
  | lock k =>
    simp only [suspendStep] at h
    split at h
    · split_ifs at h
      split at h <;> (cases h; exact .continued (continues_refl ho') rfl)
    · cases h
  | next k =>
    simp only [suspendStep] at h
    split at h
    next object remaining htask =>
      rcases suspendTurn_cases h with ⟨rfl, -⟩ | ⟨key, rest, -, -, -, rfl⟩ |
        ⟨key, rest, mid, rfl, hlive, hmid, rfl⟩
      · exact .continued (continues_refl ho') rfl
      · exact .continued (continues_refl ho') rfl
      · have hlabel : supLabel s (.suspend (.next k)) = some (.stop (.enter key none)) := by
          simp [supLabel, htask, hlive]
        cases supStep_outage hlabel hmid ho' with
        | begun label enabled begin outage next => exact .begun label enabled begin outage next
        | continued same next => exact .continued same next
        | restored task back next => exact .restored task back next
    · cases h
  | stopped k =>
    simp only [suspendStep] at h
    split at h
    · split_ifs at h
      cases h
      exact .continued (continues_refl ho') rfl
    · cases h

/-- What a step that leaves the supervisor alone makes of the record. -/
structure SupKept (manifest : Component → Manifest) (s : State) (l : Label) (s' : State) : Prop where
  sup : s'.sup = s.sup
  outage : ∀ o', s'.outage = some o' → OutageOrigin manifest s l s' o'

theorem kept_same {l : Label} (hsup : s'.sup = s.sup) (houtage : s'.outage = s.outage)
    (hnext : s'.nextObject = s.nextObject) : SupKept manifest s l s' where
  sup := hsup
  outage _ ho' := .continued (continues_refl (houtage ▸ ho')) hnext

theorem kept_allow {l : Label} {object : ℕ} {key : PyStr} {allowed : Bool} (hsup : s'.sup = s.sup)
    (houtage : s'.outage = (s.allow object key allowed).outage)
    (hnext : s'.nextObject = s.nextObject) : SupKept manifest s l s' where
  sup := hsup
  outage _ ho' := .continued (continues_allow (houtage ▸ ho')) hnext

theorem recoverTurn_kept {l : Label} (k provider object revision : ℕ) (o : Outage)
    (remaining : List Consumer) : SupKept manifest s l
      (recoverTurn manifest s k provider object revision o remaining) := by
  cases remaining with
  | nil => exact ⟨rfl, fun _ ho' => by cases ho'⟩
  | cons c rest =>
    simp only [recoverTurn]
    split
    · exact kept_same rfl rfl rfl
    · split_ifs
      · exact kept_same rfl rfl rfl
      · exact kept_same rfl rfl rfl
      · exact kept_allow rfl rfl rfl

theorem recoverStep_kept {l : RecoverLabel} (h : recoverStep manifest s l = some s') :
    SupKept manifest s (.recover l) s' := by
  cases l with
  | schedule provider =>
    cases h
    exact kept_same rfl rfl rfl
  | lock k =>
    simp only [recoverStep] at h
    split at h
    · split_ifs at h
      split at h
      · split_ifs at h <;> (cases h; exact kept_same rfl rfl rfl)
      · cases h
        exact kept_same rfl rfl rfl
    · cases h
  | next k =>
    simp only [recoverStep] at h
    split at h
    · split at h
      · cases h
        exact recoverTurn_kept _ _ _ _ _ _
      · cases h
        exact kept_same rfl rfl rfl
    · cases h
  | started k =>
    simp only [recoverStep] at h
    split at h
    · obtain ⟨entry, -, rfl⟩ := Option.map_eq_some_iff.mp h
      exact kept_same rfl rfl rfl
    · cases h
  | counted k =>
    simp only [recoverStep] at h
    split at h
    · split at h
      · split_ifs at h
        cases h
        exact kept_allow rfl rfl rfl
      · cases h
    · cases h
  | failed k =>
    simp only [recoverStep] at h
    split at h
    · cases h
      exact kept_allow rfl rfl rfl
    · cases h
      exact kept_allow rfl rfl rfl
    · cases h
  | finish k =>
    simp only [recoverStep] at h
    split at h
    · cases h
      exact kept_same rfl rfl rfl
    · cases h

theorem rollbackOutage_kept {l : Label} {k : ℕ} {snapshot : Option Outage} {phase : MigratePhase}
    (htask : s.tasks k = some (.migrate snapshot phase)) (attempted : List Consumer) :
    SupKept manifest s l (rollbackOutage s k attempted snapshot) := by
  cases snapshot with
  | none => exact kept_same rfl rfl rfl
  | some o =>
    refine ⟨rfl, fun o' ho' => ?_⟩
    cases ho'
    exact .restored htask rfl rfl

theorem migrateTurn_kept {l : Label} {k : ℕ} {snapshot : Option Outage}
    {attempted remaining : List Consumer}
    (htask : s.tasks k = some (.migrate snapshot (.restarting remaining attempted))) :
    SupKept manifest s l (migrateTurn s k snapshot attempted remaining) := by
  cases remaining with
  | nil =>
    simp only [migrateTurn]
    split_ifs
    · cases snapshot with
      | none => exact kept_same rfl rfl rfl
      | some o => exact ⟨rfl, fun _ ho' => by cases ho'⟩
    · exact rollbackOutage_kept htask attempted
  | cons c rest =>
    simp only [migrateTurn]
    split_ifs
    · exact rollbackOutage_kept htask attempted
    · exact kept_same rfl rfl rfl
    · cases snapshot with
      | none => exact kept_same rfl rfl rfl
      | some o => exact kept_allow rfl rfl rfl

theorem migrateStep_kept {l : MigrateLabel} (h : migrateStep manifest s l = some s') :
    SupKept manifest s (.migrate l) s' := by
  cases l with
  | enter =>
    simp only [migrateStep] at h
    split_ifs at h
    cases h
    exact kept_same rfl rfl rfl
  | commit k invalidated =>
    simp only [migrateStep] at h
    split at h
    · split_ifs at h <;> (cases h; exact kept_same rfl rfl rfl)
    · cases h
  | next k =>
    simp only [migrateStep] at h
    split at h
    next snapshot remaining attempted htask =>
      cases h
      exact migrateTurn_kept htask
    · cases h
  | started k =>
    simp only [migrateStep] at h
    split at h
    · cases h
      exact kept_allow rfl rfl rfl
    · cases h
  | failed k =>
    simp only [migrateStep] at h
    split at h
    · cases h
      exact kept_same rfl rfl rfl
    next snapshot remaining attempted htask =>
      cases h
      exact rollbackOutage_kept htask attempted
    next snapshot c rest attempted htask =>
      cases h
      cases snapshot with
      | none => exact kept_allow rfl rfl rfl
      | some o =>
        refine ⟨rfl, fun o' ho' => ?_⟩
        cases ho'
        exact .restored htask rfl rfl
    · cases h
  | restore k kept =>
    simp only [migrateStep] at h
    split at h
    · split at h <;> (cases h; exact kept_same rfl rfl rfl)
    · cases h

theorem step_outage {l : Label} (h : step manifest s l = some s') (ho' : s'.outage = some o') :
    OutageOrigin manifest s l s' o' := by
  cases l with
  | sup l => exact supStep_outage rfl h ho'
  | session w =>
    cases h
    exact .continued (continues_refl ho') rfl
  | suspend l => exact suspendStep_outage h ho'
  | recover l => exact (recoverStep_kept h).outage o' ho'
  | migrate l => exact (migrateStep_kept h).outage o' ho'
  | cancel k =>
    cases h
    exact .continued (continues_refl ho') rfl

/-- A step whose stretch begins an outage leaves the record of the begin. -/
theorem step_begins {l : Label} {l' : Supervisor.Label} {t : Tables}
    (h : step manifest s l = some s') (hlabel : supLabel s l = some l')
    (hbegin : begins manifest s.toTables l' = some t) : s'.outage = t.outage := by
  have hsup : ∀ {mid}, supStep manifest s l' = some mid → mid.outage = t.outage := by
    intro mid hmid
    obtain ⟨sup, -, hcases⟩ := supStep_cases hmid
    rcases hcases with ⟨hnone, -⟩ | ⟨t', o, ht', -, rfl⟩
    · rw [hbegin] at hnone
      cases hnone
    · rw [hbegin] at ht'
      cases ht'
      rfl
  cases l with
  | sup l =>
    cases hlabel
    exact hsup h
  | suspend l =>
    cases l with
    | next k =>
      simp only [step, suspendStep] at h
      split at h
      next object remaining htask =>
        simp only [supLabel, htask] at hlabel
        rcases suspendTurn_cases h with ⟨-, rfl | hdead⟩ | ⟨key, rest, rfl, hlive, hgone, -⟩ |
          ⟨key, rest, mid, rfl, hlive, hmid, rfl⟩
        · cases hlabel
        · cases remaining with
          | nil => cases hlabel
          | cons key rest =>
            simp only [hdead] at hlabel
            cases hlabel
        · simp only [hlive, if_true, Option.some.injEq] at hlabel
          subst hlabel
          simp [begins, lossOf, Supervisor.current, hgone] at hbegin
        · simp only [hlive, if_true, Option.some.injEq] at hlabel
          subst hlabel
          have hrecord := hsup hmid
          exact hrecord
      · cases h
    | _ => cases hlabel
  | _ => cases hlabel

/-! ### The supervisor -/

theorem supStep_sup {l : Supervisor.Label} (h : supStep manifest s l = some s') :
    s.sup.step l = some s'.sup := by
  obtain ⟨sup, hsup, hcases⟩ := supStep_cases h
  rcases hcases with ⟨-, rfl⟩ | ⟨t, o, -, -, rfl⟩
  · exact hsup
  · exact hsup

/-- A step of the machine is at most one of the supervisor. -/
theorem step_sup {l : Label} (h : step manifest s l = some s') :
    s'.sup = s.sup ∨ ∃ l', supLabel s l = some l' ∧ s.sup.step l' = some s'.sup := by
  cases l with
  | sup l => exact .inr ⟨l, rfl, supStep_sup h⟩
  | session w =>
    cases h
    exact .inl rfl
  | suspend l =>
    cases l with
    | lock k =>
      simp only [step, suspendStep] at h
      split at h
      · split_ifs at h
        split at h <;> (cases h; exact .inl rfl)
      · cases h
    | next k =>
      simp only [step, suspendStep] at h
      split at h
      next object remaining htask =>
        rcases suspendTurn_cases h with ⟨rfl, -⟩ | ⟨key, rest, -, -, -, rfl⟩ |
          ⟨key, rest, mid, rfl, hlive, hmid, rfl⟩
        · exact .inl rfl
        · exact .inl rfl
        · have hsup := supStep_sup hmid
          exact .inr ⟨.stop (.enter key none), by simp [supLabel, htask, hlive], hsup⟩
      · cases h
    | stopped k =>
      simp only [step, suspendStep] at h
      split at h
      · split_ifs at h
        cases h
        exact .inl rfl
      · cases h
  | recover l => exact .inl (recoverStep_kept h).sup
  | migrate l => exact .inl (migrateStep_kept h).sup
  | cancel k =>
    cases h
    exact .inl rfl

end

/-! ## A small session -/

/-- Object 0 is a display provider, 1 an application of the user, any other a panel. -/
def sampleManifest (component : Component) : Manifest :=
  match component.object with
  | 0 => ⟨lit "x11", lit ":24", lit "display-provider", lit "background",
      [(lit "role", lit "display-output")]⟩
  | 1 => ⟨lit "x11", lit "inherit", lit "window", lit "manual", []⟩
  | _ => ⟨lit "x11", lit "inherit", lit "panel", lit "session", []⟩

def sampleComponents (key : PyStr) : Option Component :=
  if key = lit "d" then some ⟨0, [], .mipcReady⟩
  else if key = lit "a" then some ⟨1, [], .exec⟩
  else if key = lit "p" then some ⟨2, [], .exec⟩
  else none

def sampleRoles : List (PyStr × RoleState) := [(lit "display-output", ⟨[lit "d"], true⟩)]

def sampleSession : Session :=
  ⟨[], [], fun _ => false, fun _ => none, fun _ => [], fun _ => none, 0⟩

def sample : State := initial (.initial sampleComponents sampleRoles) sampleSession

/-- The start call `c` spawns the key. -/
def startKey (key : String) (c pid : ℕ) : List Label :=
  [.sup (.start (.enter (lit key))), .sup (.start (.lock c)), .sup (.start (.clear c)),
    .sup (.start (.spawn c pid))]

/-- The stop call `c` removes instance `i`, and its process ends. -/
def stopKey (c i : ℕ) : List Label :=
  [.sup (.stop (.retryEnded c)), .sup (.stop (.suspended c)), .sup (.stop (.lock c)),
    .sup (.life (.exit i)), .sup (.stop (.terminated c))]

/-- The display `d` and the application `a` run. -/
def sampleStart : List Label :=
  startKey "d" 0 100 ++ [.sup (.life (.readyMessage 0))] ++ startKey "a" 1 101

/-- The operator restarts `d`: its stop suspends `a`, and the next `d` starts the recovery. -/
def restartDisplay : List Label :=
  [.sup (.stop (.enter (lit "d") none)), .suspend (.lock 0), .suspend (.next 0)] ++
  stopKey 3 1 ++ [.suspend (.stopped 0), .suspend (.next 0)] ++ stopKey 2 0 ++
  startKey "d" 4 102 ++ [.sup (.life (.readyMessage 2)), .recover (.schedule 2),
    .recover (.lock 1), .recover (.next 1)]

end MsysCore.Core.Display
