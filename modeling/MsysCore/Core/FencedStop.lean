import MsysCore.Core.DisplaySession
import MsysCore.Core.StartLocks

/-!
# Stops fenced by a generation

`stop_component(key, expected)` looks at the generation last: before that it has raised the
stop fence of the key and taken the scheduled spawn retry away. The machine is the one of the
display session together with `spawn_retry_tasks`, and a fenced stop runs as far as the code runs
without a suspension.
-/

namespace MsysCore.Core.FencedStop

open Python Runs
open Display (Manifest inheritsVisualSession)

/-- A task in `spawn_retry_tasks`. -/
inductive Retry
  | sleeping
  /-- in `ensure_ready` -/
  | starting
  deriving DecidableEq

structure State where
  display : Display.State
  /-- `spawn_retry_tasks` -/
  retries : PyStr → Option Retry

def initial (sup : Supervisor) (w : Display.Session) : State where
  display := Display.initial sup w
  retries := fun _ => none

namespace State

def setRetry (s : State) (key : PyStr) (retry : Option Retry) : State :=
  { s with retries := Function.update s.retries key retry }

def setSup (s : State) (sup : Supervisor) : State :=
  { s with display := { s.display with sup := sup } }

/-- A call number is used up, and nothing else happens. -/
def skipped (s : State) : State :=
  s.setSup { s.display.sup with nextCall := s.display.sup.nextCall + 1 }

end State

section

variable (manifest : Component → Manifest)

/-- `_display_outage_blocks` -/
def displayOutageBlocks (s : Display.State) (key : PyStr) : Bool :=
  match s.outage, s.sup.components key with
  | some o, some component => inheritsVisualSession (manifest component) && !o.recoveryAllowed key
  | _, _ => false

/-- `_schedule_spawn_retry`; `own` says that the retry of the key runs it. -/
def scheduleSpawnRetry (s : State) (key : PyStr) (own : Bool) : State :=
  if displayOutageBlocks manifest s.display key then s
  else if (s.retries key).isSome && !own then s
  else s.setRetry key (some .sleeping)

/-- The checks of a retry that has slept. -/
def wake (s : State) (key : PyStr) : State :=
  if s.display.sup.stopping || s.display.sup.stopRequests key || s.display.session.quarantined key
      || displayOutageBlocks manifest s.display key then s.setRetry key none
  else s.setRetry key (some .starting)

/-- The instance of the key is not the one the stop expects. -/
def Replaced (s : State) (key : PyStr) (expected : ℕ) : Prop :=
  OrderedDict.get s.display.sup.instances key ≠ some expected

instance (s : State) (key : PyStr) (expected : ℕ) : Decidable (Replaced s key expected) :=
  inferInstanceAs (Decidable (_ ≠ _))

/-- The steps of `stop_component` up to its first suspension, when no outage is planned: it waits
for a retry it cancels, or for the start lock, or it comes to its end. -/
def stretch (s : State) (key : PyStr) (expected : ℕ) : List Supervisor.Label :=
  let c := s.display.sup.nextCall
  .stop (.enter key (some expected)) ::
    if (s.retries key).isSome then []
    else .stop (.retryEnded c) :: .stop (.suspended c) ::
      if s.display.sup.startLock key = none then [.stop (.lock c)] else []

/-- `stop_component(key, expected)` of a generation that was replaced. -/
def fencedStop (s : State) (key : PyStr) (expected : ℕ) : Option State :=
  if Replaced s key expected then
    (run Supervisor.step s.display.sup (stretch s key expected)).map fun sup =>
      (s.setSup sup).setRetry key none
  else none

inductive Label
  /-- any other step of the session; a stop that is entered takes the retry away too -/
  | base (l : Display.Label)
  | schedule (key : PyStr) (own : Bool)
  | wake (key : PyStr)
  /-- the end of a retry that is still in the table -/
  | retried (key : PyStr)
  | fencedStop (key : PyStr) (expected : ℕ)
  | skip

/-- A step of the session. Fenced stops of a replaced generation are left to `fencedStop`. -/
def baseStep (s : State) (l : Display.Label) : Option State :=
  (Display.step manifest s.display l).bind fun display =>
    let next := { s with display := display }
    match Display.supLabel s.display l with
    | some (.stop (.enter key (some expected))) =>
      if Replaced s key expected then none else some (next.setRetry key none)
    | some (.stop (.enter key none)) => some (next.setRetry key none)
    | _ => some next

def step (s : State) : Label → Option State
  | .base l => baseStep manifest s l
  | .schedule key own => some (scheduleSpawnRetry manifest s key own)
  | .wake key => if s.retries key = some .sleeping then some (wake manifest s key) else none
  | .retried key => if s.retries key = some .starting then some (s.setRetry key none) else none
  | .fencedStop key expected => fencedStop s key expected
  | .skip => some s.skipped

end

/-! ## One fenced stop -/

variable {manifest : Component → Manifest} {s t : State}

/-- The call ends at once and has changed nothing. -/
def Untouched (s : State) : Label → Prop
  | .fencedStop key expected => ∀ t, fencedStop s key expected = some t → t = s.skipped
  | _ => True

/-- The key has no scheduled retry, nobody starts or stops it, and its fence is down. -/
def Quiet (s : State) : Label → Prop
  | .fencedStop key expected => Replaced s key expected →
    s.retries key = none ∧ s.display.sup.startLock key = none ∧
      s.display.sup.stopRequests key = false
  | _ => True

instance (s : State) : DecidablePred (Quiet s)
  | .fencedStop key expected => inferInstanceAs (Decidable (Replaced s key expected →
      s.retries key = none ∧ s.display.sup.startLock key = none ∧
        s.display.sup.stopRequests key = false))
  | .base _ | .schedule _ _ | .wake _ | .retried _ | .skip => isTrue trivial

theorem run_quiet_stretch {sup : Supervisor} {key : PyStr} {expected : ℕ}
    (hreplaced : OrderedDict.get sup.instances key ≠ some expected)
    (hfresh : sup.calls sup.nextCall = none) (hlock : sup.startLock key = none) :
    run Supervisor.step sup [.stop (.enter key (some expected)), .stop (.retryEnded sup.nextCall),
        .stop (.suspended sup.nextCall), .stop (.lock sup.nextCall)] =
      some { sup.setStopRequest key false with nextCall := sup.nextCall + 1 } := by
  have hcalls : Function.update sup.calls sup.nextCall none = sup.calls := by
    rw [← hfresh, Function.update_eq_self]
  cases hentry : OrderedDict.get sup.instances key with
  | none =>
    simp [run, Supervisor.step, Supervisor.stopStep, Supervisor.openCall, Supervisor.setCall,
      Supervisor.setStopRequest, Supervisor.closeStop, hlock, hentry, hcalls]
  | some i =>
    have hne : expected ≠ i := by
      intro heq
      exact hreplaced (heq ▸ hentry)
    simp [run, Supervisor.step, Supervisor.stopStep, Supervisor.openCall, Supervisor.setCall,
      Supervisor.setStopRequest, Supervisor.closeStop, hlock, hentry, hcalls, hne]

theorem update_eq_of_eq {α : Type} {f : PyStr → α} {key : PyStr} {value : α}
    (h : f key = value) : Function.update f key value = f := by
  rw [← h, Function.update_eq_self]

theorem stretch_quiet {key : PyStr} {expected : ℕ} (hretry : s.retries key = none)
    (hlock : s.display.sup.startLock key = none) : stretch s key expected =
      [.stop (.enter key (some expected)), .stop (.retryEnded s.display.sup.nextCall),
        .stop (.suspended s.display.sup.nextCall), .stop (.lock s.display.sup.nextCall)] := by
  simp [stretch, hretry, hlock]

theorem fencedStop_of_quiet {key : PyStr} {expected : ℕ} (hreplaced : Replaced s key expected)
    (hfresh : s.display.sup.calls s.display.sup.nextCall = none)
    (hquiet : Quiet s (.fencedStop key expected)) :
    fencedStop s key expected = some s.skipped := by
  obtain ⟨hretry, hlock, hfence⟩ := hquiet hreplaced
  rw [fencedStop, if_pos hreplaced, stretch_quiet hretry hlock,
    run_quiet_stretch hreplaced hfresh hlock]
  simp only [Option.map_some, State.setRetry, State.setSup, State.skipped,
    Supervisor.setStopRequest, update_eq_of_eq hretry, update_eq_of_eq hfence]

/-- What a call that is not quiet leaves behind: the retry is gone, or the call waits with its
fence up, or the fence of another stop is down. -/
theorem fencedStop_of_not_quiet {key : PyStr} {expected : ℕ}
    (hreplaced : Replaced s key expected)
    (hfresh : s.display.sup.calls s.display.sup.nextCall = none)
    (hquiet : ¬ Quiet s (.fencedStop key expected)) :
    ∃ t, fencedStop s key expected = some t ∧ t ≠ s.skipped := by
  have hsome : s.retries key = none → s.display.sup.startLock key = none →
      s.display.sup.stopRequests key = true := by
    intro hretry hlock
    rw [← Bool.not_eq_false]
    exact fun hfence => hquiet fun _ => ⟨hretry, hlock, hfence⟩
  rw [fencedStop, if_pos hreplaced]
  cases hretry : s.retries key with
  | some retry =>
    refine ⟨_, by simp [stretch, hretry, run, Supervisor.step, Supervisor.stopStep]; rfl, ?_⟩
    intro heq
    have hgone := congrArg (fun state => state.retries key) heq
    simp [State.setRetry, State.skipped, State.setSup, hretry] at hgone
  | none =>
    cases hlock : s.display.sup.startLock key with
    | some holder =>
      refine ⟨_, by
        simp [stretch, hretry, hlock, run, Supervisor.step, Supervisor.stopStep,
          Supervisor.openCall, Supervisor.setCall, Supervisor.setStopRequest]
        rfl, ?_⟩
      intro heq
      have hwaits := congrArg (fun state => state.display.sup.calls s.display.sup.nextCall) heq
      simp [State.setRetry, State.skipped, State.setSup, hfresh] at hwaits
    | none =>
      rw [stretch_quiet hretry hlock, run_quiet_stretch hreplaced hfresh hlock]
      refine ⟨_, rfl, ?_⟩
      intro heq
      have hfence := congrArg (fun state => state.display.sup.stopRequests key) heq
      simp [State.setRetry, State.skipped, State.setSup, Supervisor.setStopRequest,
        hsome hretry hlock] at hfence

/-! ## Runs -/

theorem supervisor_run_lockInv (ls : List Supervisor.Label) {sup sup' : Supervisor}
    (h : sup.LockInv) (hrun : run Supervisor.step sup ls = some sup') : sup'.LockInv :=
  run_invariant_all (fun _ _ _ hinv hstep => Supervisor.step_lockInv hinv hstep) ls h hrun

theorem lockInv_skipped (h : s.display.sup.LockInv) : s.skipped.display.sup.LockInv where
  toEntryInv := ⟨h.entry, h.nodup, h.freshObject⟩
  held := h.held
  cleared := h.cleared
  removed := h.removed
  freshCall := fun c hc => h.freshCall c (Nat.le_of_succ_le hc)

/-- The call numbers from the next one on are unused. -/
def Numbered (s : State) : Prop := s.display.sup.LockInv

theorem baseStep_display {l : Display.Label} (h : baseStep manifest s l = some t) :
    Display.step manifest s.display l = some t.display := by
  obtain ⟨display, hdisplay, hnext⟩ := Option.bind_eq_some_iff.mp h
  have hsame : t.display = display := by
    dsimp only at hnext
    split at hnext
    · split_ifs at hnext
      cases hnext
      rfl
    · cases hnext
      rfl
    · cases hnext
      rfl
  rw [hsame]
  exact hdisplay

theorem display_lockInv {d d' : Display.State} {l : Display.Label} (h : d.sup.LockInv)
    (hstep : Display.step manifest d l = some d') : d'.sup.LockInv := by
  rcases Display.step_sup hstep with heq | ⟨l', -, hsup⟩
  · rw [heq]
    exact h
  · exact Supervisor.step_lockInv h hsup

theorem step_lockInv {l : Label} (h : s.display.sup.LockInv)
    (hstep : step manifest s l = some t) : t.display.sup.LockInv := by
  cases l with
  | base l => exact display_lockInv h (baseStep_display hstep)
  | schedule key own =>
    cases hstep
    unfold scheduleSpawnRetry
    split_ifs <;> exact h
  | wake key =>
    simp only [step] at hstep
    split_ifs at hstep
    cases hstep
    unfold wake
    split_ifs <;> exact h
  | retried key =>
    simp only [step] at hstep
    split_ifs at hstep
    cases hstep
    exact h
  | fencedStop key expected =>
    simp only [step, fencedStop] at hstep
    split_ifs at hstep
    obtain ⟨sup, hrun, rfl⟩ := Option.map_eq_some_iff.mp hstep
    exact supervisor_run_lockInv _ h hrun
  | skip =>
    cases hstep
    exact lockInv_skipped h

theorem untouched_iff_quiet (h : s.display.sup.LockInv) (l : Label) :
    Untouched s l ↔ Quiet s l := by
  cases l with
  | fencedStop key expected =>
    have hfresh := h.freshCall s.display.sup.nextCall le_rfl
    constructor
    · intro huntouched
      by_contra hquiet
      by_cases hreplaced : Replaced s key expected
      · obtain ⟨t, ht, hne⟩ := fencedStop_of_not_quiet hreplaced hfresh hquiet
        exact hne (huntouched t ht)
      · exact hquiet fun h => (hreplaced h).elim
    · intro hquiet t ht
      by_cases hreplaced : Replaced s key expected
      · rw [fencedStop_of_quiet hreplaced hfresh hquiet] at ht
        exact (Option.some.inj ht).symm
      · rw [fencedStop, if_neg hreplaced] at ht
        cases ht
  | _ => exact Iff.rfl

/-- The step without the call: its number is used up. -/
def silent : Label → Label
  | .fencedStop _ _ => .skip
  | l => l

theorem step_silent (h : s.display.sup.LockInv) {l : Label} (hquiet : Quiet s l)
    (hstep : step manifest s l = some t) : step manifest s (silent l) = some t := by
  cases l with
  | fencedStop key expected =>
    rw [(untouched_iff_quiet h _).mpr hquiet t hstep]
    rfl
  | _ => exact hstep

theorem run_silent (ls : List Label) : ∀ {s t : State}, s.display.sup.LockInv →
    Along (step manifest) Quiet s ls → run (step manifest) s ls = some t →
      run (step manifest) s (ls.map silent) = some t := by
  induction ls with
  | nil => exact fun _ _ hrun => hrun
  | cons l ls ih =>
    intro s t h halong hrun
    obtain ⟨mid, hmid, hrest⟩ := run_cons hrun
    obtain ⟨hquiet, hnext⟩ := along_cons halong hmid
    rw [List.map_cons, run, step_silent h hquiet hmid]
    exact ih (step_lockInv h hmid) hnext hrest

/-- A fenced stop of a replaced generation ends at once and leaves no trace exactly when it is
quiet, and a run whose fenced stops are all quiet is the run without them. -/
theorem fencedStops_untouched_iff (components : PyStr → Option Component)
    (roles : List (PyStr × RoleState)) (w : Display.Session) (ls : List Label) {s : State}
    (hrun : run (step manifest) (initial (.initial components roles) w) ls = some s) :
    (Along (step manifest) Untouched (initial (.initial components roles) w) ls ↔
      Along (step manifest) Quiet (initial (.initial components roles) w) ls) ∧
    (Along (step manifest) Quiet (initial (.initial components roles) w) ls →
      run (step manifest) (initial (.initial components roles) w) (ls.map silent) = some s) := by
  have hinv : Numbered (initial (.initial components roles) w) :=
    Supervisor.lockInv_initial components roles
  have hsteps : ∀ s l t, Numbered s → step manifest s l = some t → Numbered t :=
    fun _ _ _ h hstep => step_lockInv h hstep
  constructor
  · exact along_iff hsteps (fun _ l h => untouched_iff_quiet h l) ls hinv
  · exact fun halong => run_silent ls hinv halong hrun

/-- The panel was stopped, and the next start of it has failed. -/
def failedRestart : List Label :=
  let stop : List Display.Label := .sup (.stop (.enter (lit "p") none)) :: Display.stopKey 1 0
  let restart : List Display.Label := [.sup (.start (.enter (lit "p"))), .sup (.start (.lock 2)),
    .sup (.start (.clear 2)), .sup (.start (.spawnFailed 2))]
  (Display.startKey "p" 0 100 ++ stop ++ restart).map .base

def sample : State :=
  initial (.initial Display.sampleComponents Display.sampleRoles) Display.sampleSession

/-- No retry was scheduled when the stop of the first panel comes late. -/
theorem fencedStops_untouched_late :
    let ls := failedRestart ++ [.fencedStop (lit "p") 0]
    ∃ s, run (step Display.sampleManifest) sample ls = some s ∧
      run (step Display.sampleManifest) sample (ls.map silent) = some s := by
  intro ls
  have hlast : (run (step Display.sampleManifest) sample ls).isSome = true := by decide +kernel
  have halong : Along (step Display.sampleManifest) Quiet sample ls := by decide +kernel
  obtain ⟨s, hrun⟩ := Option.isSome_iff_exists.mp hlast
  have hiff := fencedStops_untouched_iff Display.sampleComponents Display.sampleRoles
    Display.sampleSession ls hrun
  exact ⟨s, hrun, hiff.2 halong⟩

/-- The stop of the first panel takes the retry away, and the panel is not started again. -/
theorem fencedStop_drops_retry :
    ∃ s t, run (step Display.sampleManifest) sample
        (failedRestart ++ [.schedule (lit "p") false]) = some s ∧
      fencedStop s (lit "p") 0 = some t ∧ Replaced s (lit "p") 0 ∧
      s.retries (lit "p") = some .sleeping ∧ t.retries (lit "p") = none ∧
      ¬ Untouched s (.fencedStop (lit "p") 0) := by
  have hlast : ((run (step Display.sampleManifest) sample
      (failedRestart ++ [.schedule (lit "p") false])).bind fun s =>
        (fencedStop s (lit "p") 0).map fun t => (s.retries (lit "p"), t.retries (lit "p"),
          decide (Replaced s (lit "p") 0))) = some (some .sleeping, none, true) := by
    decide +kernel
  obtain ⟨s, hrun, hstop⟩ := Option.bind_eq_some_iff.mp hlast
  obtain ⟨t, ht, hvalues⟩ := Option.map_eq_some_iff.mp hstop
  simp only [Prod.mk.injEq, decide_eq_true_eq] at hvalues
  obtain ⟨hbefore, hafter, hreplaced⟩ := hvalues
  refine ⟨s, t, hrun, ht, hreplaced, hbefore, hafter, ?_⟩
  intro huntouched
  rw [huntouched t ht] at hafter
  rw [show s.skipped.retries = s.retries from rfl, hbefore] at hafter
  cases hafter

end MsysCore.Core.FencedStop
