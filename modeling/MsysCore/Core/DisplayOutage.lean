import MsysCore.Core.InstanceTable

/-!
# The display outage record

When the active `display-output` provider is lost or about to be replaced, the session
core records which X11 clients it stops and which of them the next provider starts again.
A second begin during an open outage is merged into the same record. The record keeps
keys; the instance that a key had when it was recorded is kept next to it as a ghost.
-/

namespace MsysCore.Core.Display

open Python
open Supervisor (displayRole)

/-- The fields of a manifest entry that the visual session reads. -/
structure Manifest where
  system : PyStr
  display : PyStr
  mode : PyStr
  lifecycle : PyStr
  provides : List (PyStr × PyStr)

def providesDisplayOutput (m : Manifest) : Bool :=
  m.provides.any fun provide => provide.1 = lit "role" && provide.2 = displayRole

def inheritsVisualSession (m : Manifest) : Bool :=
  if m.system ≠ lit "x11" ∨ m.display ≠ lit "inherit" then false
  else if m.mode = lit "display-provider" then false
  else !providesDisplayOutput m

def isAutomaticVisualService (m : Manifest) : Bool :=
  m.lifecycle = lit "background" || m.lifecycle = lit "session"

/-- The tables of the visual session and of the failure policy. -/
structure Session where
  /-- `profile["startup"]` -/
  startup : List PyStr
  foregroundStack : List PyStr
  quarantined : PyStr → Bool
  quarantineTimes : PyStr → Option ℚ
  failureHistory : PyStr → List ℚ
  spawnBackoffUntil : PyStr → Option ℚ
  now : ℚ

/-- A recorded client. `object` and `seen` are ghost: the instance the key had then. -/
structure Consumer where
  key : PyStr
  object : ℕ
  seen : Instance
  deriving DecidableEq

structure Outage where
  /-- Identity of the record, which `is` compares. -/
  object : ℕ
  id : ℕ
  revision : ℕ
  provider : PyStr
  providerComponent : Component
  failedGeneration : ℕ
  consumers : List Consumer
  droppedApplications : List Consumer
  automaticServicesOnly : Bool
  foreground : List PyStr
  failureHistory : PyStr → List ℚ
  spawnBackoff : PyStr → Option ℚ
  preexistingQuarantine : PyStr → Bool
  recoveryAllowed : PyStr → Bool

def Outage.consumerKeys (o : Outage) : List PyStr := o.consumers.map Consumer.key

def Outage.droppedKeys (o : Outage) : List PyStr := o.droppedApplications.map Consumer.key

/-- What a begin reads and writes. -/
structure Tables where
  sup : Supervisor
  session : Session
  outage : Option Outage
  nextOutageId : ℕ
  nextObject : ℕ

/-! ## The order of the consumers -/

/-- Profile services first, then windows from back to front, then the rest by name. -/
def orderVisualConsumerKeys (w : Session) (candidates : List PyStr) : List PyStr :=
  let profileOrder := w.startup.filter (· ∈ candidates)
  let remaining := candidates.filter (· ∉ profileOrder)
  let foregroundOrder := w.foregroundStack.reverse.filter (· ∈ remaining)
  let remaining := remaining.filter (· ∉ foregroundOrder)
  (profileOrder ++ foregroundOrder ++ remaining.insertionSort (· ≤ ·)).eraseDups

/-- The candidates in that order. -/
def orderConsumers (w : Session) (candidates : List Consumer) : List Consumer :=
  (orderVisualConsumerKeys w (candidates.map Consumer.key)).filterMap fun key =>
    candidates.find? fun c => c.key = key

section

variable (manifest : Component → Manifest)

/-- The table entries that pass a test, as consumers. -/
def running (s : Supervisor) (test : PyStr → Instance → Bool) : List Consumer :=
  s.instances.filterMap fun entry =>
    match s.heap entry.2 with
    | some inst => if test entry.1 inst then some ⟨entry.1, entry.2, inst⟩ else none
    | none => none

/-- `_ordered_visual_consumers` -/
def orderedVisualConsumers (s : Supervisor) (w : Session) : List Consumer :=
  orderConsumers w <| running s fun key inst =>
    !inst.finalized && s.components key = some inst.component
      && inheritsVisualSession (manifest inst.component)

def ownsActiveDisplayOutput (s : Supervisor) (i : ℕ) (inst : Instance) : Bool :=
  providesDisplayOutput (manifest inst.component) && s.isCurrent i inst &&
    match s.registry.activeProvider displayRole with
    | .ok (some provider) => provider = inst.key
    | _ => false

/-! ## The begin of an outage -/

def failureQuarantineGraceSeconds : ℚ := 15

/-- The clients of the session that the provider serves. -/
def candidates (s : Supervisor) (provider : PyStr) : List Consumer :=
  running s fun key inst =>
    key ≠ provider && inheritsVisualSession (manifest inst.component) && !s.stopRequests key

def Consumer.automatic (c : Consumer) : Bool :=
  isAutomaticVisualService (manifest c.seen.component)

/-- The candidates that are started again, and those that are only closed. -/
def recoveryCandidates (automaticServicesOnly : Bool) (cs : List Consumer) : List Consumer :=
  if automaticServicesOnly then cs.filter fun c => c.automatic manifest else cs

def droppedCandidates (automaticServicesOnly : Bool) (cs : List Consumer) : List Consumer :=
  if automaticServicesOnly then cs.filter fun c => !c.automatic manifest else []

/-- A quarantine that is no older than the cutoff. -/
def Session.recentlyQuarantined (w : Session) (cutoff : ℚ) (key : PyStr) : Bool :=
  w.quarantined key && match w.quarantineTimes key with
    | some since => cutoff ≤ since
    | none => false

/-- Recent quarantines of the consumers are lifted. -/
def Session.liftQuarantines (w : Session) (keys : List PyStr) (cutoff : ℚ) : Session :=
  { w with
    quarantined := fun key =>
      w.quarantined key && !(decide (key ∈ keys) && w.recentlyQuarantined cutoff key)
    quarantineTimes := fun key =>
      if key ∈ keys ∧ w.recentlyQuarantined cutoff key then none else w.quarantineTimes key }

def Session.failureCutoff (w : Session) (recoverRecentConsumerFailures : Bool) : Option ℚ :=
  if recoverRecentConsumerFailures then some (w.now - failureQuarantineGraceSeconds) else none

def Session.lookBack (w : Session) (keys : List PyStr) : Option ℚ → Session
  | some cutoff => w.liftQuarantines keys cutoff
  | none => w

/-- The failures a recovered consumer keeps. -/
def Session.baseline (w : Session) (cutoff : Option ℚ) (key : PyStr) : List ℚ :=
  (w.failureHistory key).filter fun failedAt =>
    match cutoff with
    | none => true
    | some cutoff => failedAt < cutoff

/-- The first begin. -/
def openOutage (t : Tables) (inst : Instance) (cutoff : Option ℚ) (automaticServicesOnly : Bool)
    (consumers dropped : List Consumer) : Outage :=
  let keys := consumers.map Consumer.key
  { object := t.nextObject
    id := t.nextOutageId
    revision := 1
    provider := inst.key
    providerComponent := inst.component
    failedGeneration := inst.generation
    consumers := consumers
    droppedApplications := dropped
    automaticServicesOnly := automaticServicesOnly
    foreground := t.session.foregroundStack
    failureHistory := fun key => if key ∈ keys then t.session.baseline cutoff key else []
    spawnBackoff := fun key => if key ∈ keys then t.session.spawnBackoffUntil key else none
    preexistingQuarantine := fun key => decide (key ∈ keys) && t.session.quarantined key
    recoveryAllowed := fun _ => false }

/-- A begin while an outage is open. The record keeps its own flag, although the candidates
were split by the flag of the caller. -/
def mergeOutage (t : Tables) (o : Outage) (inst : Instance) (cutoff : Option ℚ)
    (consumers dropped : List Consumer) : Outage :=
  let added := consumers.filter fun c => c.key ∉ o.consumerKeys
  let keys := added.map Consumer.key
  { o with
    revision := o.revision + 1
    provider := inst.key
    providerComponent := inst.component
    failedGeneration := inst.generation
    recoveryAllowed := fun _ => false
    consumers := o.consumers ++ added
    failureHistory := fun key =>
      if key ∈ keys then t.session.baseline cutoff key else o.failureHistory key
    spawnBackoff := fun key =>
      if key ∈ keys then t.session.spawnBackoffUntil key else o.spawnBackoff key
    preexistingQuarantine := fun key =>
      o.preexistingQuarantine key || (decide (key ∈ keys) && t.session.quarantined key)
    droppedApplications :=
      o.droppedApplications ++ dropped.filter fun c => c.key ∉ o.droppedKeys }

/-- `_begin_display_outage`; `none` when the instance is not the active provider. -/
def beginDisplayOutage (t : Tables) (i : ℕ) (inst : Instance)
    (recoverRecentConsumerFailures automaticServicesOnly : Bool) : Option Tables :=
  if t.sup.stopping || !ownsActiveDisplayOutput manifest t.sup i inst then none
  else
    let cs := candidates manifest t.sup inst.key
    let ordered := orderConsumers t.session (recoveryCandidates manifest automaticServicesOnly cs)
    let dropped := orderConsumers t.session (droppedCandidates manifest automaticServicesOnly cs)
    let cutoff := t.session.failureCutoff recoverRecentConsumerFailures
    let t := { t with session := t.session.lookBack (ordered.map Consumer.key) cutoff }
    match t.outage with
    | none =>
      some { t with
        outage := some (openOutage t inst cutoff automaticServicesOnly ordered dropped)
        nextOutageId := t.nextOutageId + 1
        nextObject := t.nextObject + 1 }
    | some o => some { t with outage := some (mergeOutage t o inst cutoff ordered dropped) }

/-- `_begin_unplanned_display_failure`; the fault record is only published. -/
def beginUnplannedDisplayFailure (t : Tables) (i : ℕ) (inst : Instance) : Option Tables :=
  beginDisplayOutage manifest t i inst true true

/-! ## Who is recorded -/

theorem mem_running {s : Supervisor} {test : PyStr → Instance → Bool} {c : Consumer} :
    c ∈ running s test ↔ (c.key, c.object) ∈ s.instances ∧ s.heap c.object = some c.seen ∧
      test c.key c.seen = true := by
  constructor
  · intro h
    obtain ⟨⟨key, i⟩, hentry, hc⟩ := List.mem_filterMap.mp h
    dsimp only at hc
    split at hc
    next inst hheap =>
      split_ifs at hc with htest
      cases hc
      exact ⟨hentry, hheap, htest⟩
    next => cases hc
  · rintro ⟨hentry, hheap, htest⟩
    refine List.mem_filterMap.mpr ⟨(c.key, c.object), hentry, ?_⟩
    simp [hheap, htest]

theorem running_nodup {s : Supervisor} (h : (s.instances.map Prod.fst).Nodup)
    (test : PyStr → Instance → Bool) : ((running s test).map Consumer.key).Nodup := by
  have hsub : List.Sublist ((running s test).map Consumer.key) (s.instances.map Prod.fst) := by
    unfold running
    induction s.instances with
    | nil => exact .slnil
    | cons entry rest ih =>
      rw [List.filterMap_cons]
      split
      next => exact ih.cons _
      next c hc =>
        have hkey : c.key = entry.1 := by
          split at hc
          · split_ifs at hc
            cases hc
            rfl
          · cases hc
        rw [List.map_cons, List.map_cons, hkey]
        exact ih.cons_cons _
  exact hsub.nodup h

theorem mem_orderVisualConsumerKeys {w : Session} {cs : List PyStr} {key : PyStr} :
    key ∈ orderVisualConsumerKeys w cs ↔ key ∈ cs := by
  simp only [orderVisualConsumerKeys, List.mem_eraseDups, List.mem_append, List.mem_filter,
    List.mem_insertionSort, decide_eq_true_eq, List.mem_reverse]
  tauto

theorem mem_of_mem_orderConsumers {w : Session} {cs : List Consumer} {c : Consumer}
    (h : c ∈ orderConsumers w cs) : c ∈ cs := by
  obtain ⟨key, -, hfind⟩ := List.mem_filterMap.mp h
  exact List.mem_of_find?_eq_some hfind

theorem mem_orderConsumers {w : Session} {cs : List Consumer}
    (hcs : (cs.map Consumer.key).Nodup) {c : Consumer} : c ∈ orderConsumers w cs ↔ c ∈ cs := by
  refine ⟨mem_of_mem_orderConsumers, fun hc => List.mem_filterMap.mpr ⟨c.key, ?_, ?_⟩⟩
  · exact mem_orderVisualConsumerKeys.mpr (List.mem_map_of_mem hc)
  · cases hfind : cs.find? fun c' => decide (c'.key = c.key) with
    | none =>
      have hmissing := List.find?_eq_none.mp hfind c hc
      simp at hmissing
    | some c' =>
      have hkey : c'.key = c.key := by simpa using List.find?_some hfind
      rw [List.inj_on_of_nodup_map hcs (List.mem_of_find?_eq_some hfind) hc hkey]

/-- What a begin does: it opens a record, or adds to the open one. -/
inductive Begun (t : Tables) (inst : Instance) (automaticServicesOnly : Bool) :
    Tables → Outage → Prop
  | opened {t' : Tables} {o : Outage} (closed : t.outage = none) (object : o.object = t.nextObject)
      (flag : o.automaticServicesOnly = automaticServicesOnly)
      (consumers : o.consumers = orderConsumers t.session
        (recoveryCandidates manifest automaticServicesOnly (candidates manifest t.sup inst.key)))
      (dropped : o.droppedApplications = orderConsumers t.session
        (droppedCandidates manifest automaticServicesOnly (candidates manifest t.sup inst.key)))
      (next : t'.nextObject = t.nextObject + 1) : Begun t inst automaticServicesOnly t' o
  | merged {t' : Tables} {o old : Outage} (pending : t.outage = some old)
      (object : o.object = old.object)
      (flag : o.automaticServicesOnly = old.automaticServicesOnly)
      (revision : o.revision = old.revision + 1)
      (consumers : o.consumers = old.consumers ++ (orderConsumers t.session
        (recoveryCandidates manifest automaticServicesOnly
          (candidates manifest t.sup inst.key))).filter fun c => c.key ∉ old.consumerKeys)
      (dropped : o.droppedApplications = old.droppedApplications ++ (orderConsumers t.session
        (droppedCandidates manifest automaticServicesOnly
          (candidates manifest t.sup inst.key))).filter fun c => c.key ∉ old.droppedKeys)
      (next : t'.nextObject = t.nextObject) : Begun t inst automaticServicesOnly t' o

theorem beginDisplayOutage_spec {t t' : Tables} {i : ℕ} {inst : Instance} {recent auto : Bool}
    (h : beginDisplayOutage manifest t i inst recent auto = some t') :
    t.sup.stopping = false ∧ ownsActiveDisplayOutput manifest t.sup i inst = true ∧
      t'.sup = t.sup ∧ ∃ o, t'.outage = some o ∧ Begun manifest t inst auto t' o := by
  unfold beginDisplayOutage at h
  split_ifs at h with hguard
  simp only [Bool.or_eq_true, not_or, Bool.not_eq_true', Bool.not_eq_false, Bool.not_eq_true]
    at hguard
  refine ⟨hguard.1, hguard.2, ?_⟩
  dsimp only at h
  split at h
  next hclosed =>
    cases h
    exact ⟨rfl, _, rfl, .opened hclosed rfl rfl rfl rfl rfl⟩
  next o hopen =>
    cases h
    exact ⟨rfl, _, rfl, .merged hopen rfl rfl rfl rfl rfl rfl⟩

end

end MsysCore.Core.Display
