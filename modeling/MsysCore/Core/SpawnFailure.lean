import MsysCore.Core.RestartBackoff
import MsysCore.Core.Transitions
import MsysCore.Lib.Attempts

/-!
# Failures of a spawn

`_ensure_started_locked` from the generation number to the registered instance, for one key.
Which statements raise, and with what, is up to the surroundings. The state has what the failure
handling reads and writes, and `recorded` is ghost: the results of `_record_component_failure`.
-/

namespace MsysCore.Core.SpawnFailure

open Python Attempts
open Display (Manifest)
open Transitions (Transition isForegroundApp)

/-- What of a component decides the statements that run. -/
structure Launch where
  manifest : Manifest
  provider : Restart.Provider
  /-- `builtin_components.get(key) is component` -/
  builtin : Bool
  /-- it was loaded from a manifest file -/
  packaged : Bool
  /-- the start has an activation -/
  activation : Bool
  isolationRequested : Bool
  /-- `readiness_mode == "exec"` -/
  readyOnExec : Bool

/-- The statements between the generation number and the end of the start that may raise. -/
inductive Statement
  | launching | socketpair | setblocking | componentEnvironment
  /-- `mkdir` of one of the private directories -/
  | directory (name : String)
  | platformPythonpath | variables | packageRoot | activationJson | resolveExec
  | prepareIsolation | isolationEnvironment | isolationSummary | printIsolation | printStarting
  | popen
  | printFailed | failed
  | tasks | becameReady
  deriving DecidableEq

def privateDirectories : List String := ["home", "config", "data", "cache", "runtime", "tmp"]

structure Surroundings where
  /-- what a statement raises -/
  raises : Statement → Option PyError
  /-- `_display_outage_blocks` of the component in the catalog -/
  outageBlocks : Bool
  /-- `time.monotonic()` of the record, and of the backoff that follows it -/
  recordedAt : ℚ
  storedAt : ℚ

structure Event where
  transition : Transition
  generation : ℕ
  message : Option PyStr
  deriving DecidableEq

structure State where
  /-- `generations[key]` -/
  generation : ℕ
  /-- the generation of `instances[key]` -/
  registered : Option ℕ
  issued : ∀ g ∈ registered, g ≤ generation
  /-- open ends of socket pairs -/
  openEnds : ℕ
  events : List Event
  failureHistory : List ℚ
  quarantinedAt : Option ℚ
  spawnBackoffUntil : Option ℚ
  /-- `_schedule_spawn_retry` was called with these delays -/
  retries : List ℚ
  foreground : Bool
  recorded : List (Option ℚ)

abbrev Spawning := EStateM PyError State

/-! ## The code -/

section

variable (env : Surroundings) (component : Launch)

def perform (statement : Statement) : Spawning Unit := fun s =>
  match env.raises statement with
  | none => .ok () s
  | some e => .error e s

/-- `_emit_component_transition` -/
def emit (statement : Statement) (transition : Transition) (generation : ℕ)
    (message : PyStr) : Spawning Unit := do
  perform env statement
  let shown := if message.isEmpty then none else some (message.take 512)
  modify fun s => { s with events := s.events ++ [⟨transition, generation, shown⟩] }

/-- A transition that only foreground apps announce. -/
def announce (statement : Statement) (transition : Transition) (generation : ℕ)
    (message : PyStr) : Spawning Unit :=
  if isForegroundApp component.manifest then emit env statement transition generation message
  else pure ()

/-- The next generation number is taken. -/
def State.taken (s : State) : State :=
  { s with
    generation := s.generation + 1
    issued := fun g hg => (s.issued g hg).trans (Nat.le_succ _) }

def takeGeneration : Spawning ℕ := fun s => .ok (s.generation + 1) s.taken

def openSocketPair : Spawning Unit := do
  perform env .socketpair
  modify fun s => { s with openEnds := s.openEnds + 2 }

def closeEnds (count : ℕ) : Spawning Unit :=
  modify fun s => { s with openEnds := s.openEnds - count }

/-- `_apply_component_isolation` -/
def isolating : List Statement :=
  if component.builtin then []
  else privateDirectories.map .directory ++
    if component.provider.packageKind = lit "system" then [.platformPythonpath] else []

/-- The environment and the argument vector. -/
def preparing : List Statement :=
  [.setblocking, .componentEnvironment] ++ isolating component ++ [.variables] ++
    (if component.packaged then [.packageRoot] else []) ++
    (if component.activation then [.activationJson] else []) ++ [.resolveExec]

/-- The `try` block. -/
def attempting : List Statement :=
  [.prepareIsolation, .isolationEnvironment, .isolationSummary] ++
    (if component.isolationRequested then [.printIsolation] else []) ++ [.printStarting, .popen]

def performAll (statements : List Statement) : Spawning Unit := statements.forM (perform env)

/-- `_record_component_failure` -/
def recordComponentFailure : Spawning (Option ℚ) := fun s =>
  if env.outageBlocks then .ok none { s with recorded := s.recorded ++ [none] }
  else
    let failures := s.failureHistory.filter (fun failedAt => env.recordedAt - failedAt < 60) ++
      [env.recordedAt]
    if 5 ≤ failures.length then
      .ok none { s with
        failureHistory := failures
        quarantinedAt := some env.recordedAt
        recorded := s.recorded ++ [none] }
    else
      let delay := min 30 (1 / 4 * 2 ^ (failures.length - 1))
      .ok (some delay) { s with
        failureHistory := failures
        recorded := s.recorded ++ [some delay] }

/-- The backoff that follows a record. -/
def storeBackoff : Option ℚ → Spawning Unit
  | none => pure ()
  | some delay => modify fun s => { s with
      spawnBackoffUntil := some (env.storedAt + delay)
      retries := if Restart.componentShouldRestart component.provider 1 then s.retries ++ [delay]
        else s.retries }

def report (generation : ℕ) (e : PyError) : Spawning Unit := do
  perform env .printFailed
  announce env component .failed .failed generation e.text

/-- The `except` block. -/
def handle (generation : ℕ) (e : PyError) : Spawning Unit := do
  closeEnds 2
  report env component generation e
  let delay ← recordComponentFailure env
  storeBackoff env component delay

/-- The instance of the number that was taken goes into the table. -/
def register : Spawning Unit := fun s =>
  .ok () { s with
    registered := some s.generation
    issued := fun _ hg => by cases hg; exact le_rfl
    spawnBackoffUntil := none
    foreground := s.foreground || isForegroundApp component.manifest }

/-- The statements before the `try` block. -/
def prepare : Spawning ℕ := do
  let generation ← takeGeneration
  announce env component .launching .launching generation []
  openSocketPair env
  performAll env (preparing component)
  return generation

/-- The `try` block with its handler. -/
def launch (generation : ℕ) : Spawning Unit :=
  tryCatch (performAll env (attempting component)) fun e => do
    handle env component generation e
    throw e

/-- The statements after the `try` block. -/
def start : Spawning Unit := do
  closeEnds 1
  register component
  perform env .tasks
  if component.readyOnExec then perform env .becameReady

def spawn : Spawning Unit := do
  let generation ← prepare env component
  launch env component generation
  start env component

/-! ## What a failure must leave -/

/-- The failure of the generation after `before` is accounted for. -/
structure Accounted (before after : State) : Prop where
  closed : after.openEnds = before.openEnds
  announced : ∃ new, after.events = before.events ++ new ∧
    ((∃ message, ⟨.launching, before.generation + 1, message⟩ ∈ new) →
      ∃ message, ⟨.failed, before.generation + 1, message⟩ ∈ new)
  unregistered : after.registered ≠ some (before.generation + 1)
  recorded : ∃ delay, after.recorded = before.recorded ++ [delay] ∧
    ∀ d, delay = some d → after.spawnBackoffUntil = some (env.storedAt + d)

/-- The statements before the `try` block. -/
def unguarded : List Statement :=
  (if isForegroundApp component.manifest then [.launching] else []) ++ [.socketpair] ++
    preparing component

/-- The statements of the handler that may raise. -/
def handling : List Statement :=
  .printFailed :: if isForegroundApp component.manifest then [.failed] else []

/-- What is raised comes out of the `try` block, and its handler gets through. -/
structure Guarded : Prop where
  before : ∀ statement ∈ unguarded component, env.raises statement = none
  raised : ∃ statement ∈ attempting component, env.raises statement ≠ none
  handled : ∀ statement ∈ handling component, env.raises statement = none

end

/-! ## Statements -/

variable {env : Surroundings} {component : Launch} {s t before after : State}
  {statement : Statement}

theorem run_perform_none (h : env.raises statement = none) (s : State) :
    (perform env statement).run s = .ok () s := by
  simp only [EStateM.run, perform, h]

theorem run_perform_some {e : PyError} (h : env.raises statement = some e) (s : State) :
    (perform env statement).run s = .error e s := by
  simp only [EStateM.run, perform, h]

theorem performAll_cons (statements : List Statement) :
    performAll env (statement :: statements) =
      perform env statement >>= fun _ => performAll env statements := rfl

theorem run_performAll_none (statements : List Statement) :
    (∀ statement ∈ statements, env.raises statement = none) →
      (performAll env statements).run s = .ok () s := by
  induction statements with
  | nil =>
    intro _
    rfl
  | cons statement statements ih =>
    intro h
    obtain ⟨hfirst, hrest⟩ := List.forall_mem_cons.mp h
    rw [performAll_cons, run_bind_of_ok (run_perform_none hfirst s)]
    exact ih hrest

theorem run_performAll_some (statements : List Statement) :
    (∃ statement ∈ statements, env.raises statement ≠ none) →
      ∃ e, (performAll env statements).run s = .error e s := by
  induction statements with
  | nil =>
    rintro ⟨statement, hmem, -⟩
    cases hmem
  | cons statement statements ih =>
    intro h
    cases hraises : env.raises statement with
    | some e =>
      refine ⟨e, ?_⟩
      rw [performAll_cons, run_bind_of_error (run_perform_some hraises s)]
    | none =>
      have hrest : ∃ statement ∈ statements, env.raises statement ≠ none := by
        obtain ⟨other, hmem, hother⟩ := h
        rcases List.mem_cons.mp hmem with rfl | hmem
        · exact (hother hraises).elim
        · exact ⟨other, hmem, hother⟩
      rw [performAll_cons, run_bind_of_ok (run_perform_none hraises s)]
      exact ih hrest

/-! ## What is not recorded -/

/-- Nothing is recorded since `before`. -/
def Unrecorded (before s : State) : Prop := s.recorded = before.recorded

theorem keeps_perform (env : Surroundings) (statement : Statement) {P : State → Prop} :
    Keeps P (perform env statement) := by
  intro s hs
  simp only [EStateM.run, perform]
  cases env.raises statement with
  | none => exact hs
  | some e => exact hs

theorem keeps_performAll (env : Surroundings) (statements : List Statement) {P : State → Prop} :
    Keeps P (performAll env statements) := by
  induction statements with
  | nil => exact keeps_pure ()
  | cons statement statements ih => exact (keeps_perform env statement).bind fun _ => ih

theorem unrecorded_announce (statement : Statement) (transition : Transition) (generation : ℕ)
    (message : PyStr) :
    Keeps (Unrecorded before) (announce env component statement transition generation message) := by
  rw [announce]
  split_ifs
  · exact (keeps_perform env statement).bind fun _ => keeps_modify fun _ h => h
  · exact keeps_pure _

theorem unrecorded_prepare : Keeps (Unrecorded before) (prepare env component) := by
  refine Keeps.bind (fun _ h => h) fun generation => ?_
  refine (unrecorded_announce _ _ _ _).bind fun _ => ?_
  have hsocketPair : Keeps (Unrecorded before) (openSocketPair env) :=
    (keeps_perform env .socketpair).bind fun _ => keeps_modify fun _ h => h
  exact hsocketPair.bind fun _ => (keeps_performAll env _).bind fun _ => keeps_pure generation

theorem unrecorded_report (generation : ℕ) (e : PyError) :
    Keeps (Unrecorded before) (report env component generation e) :=
  (keeps_perform env .printFailed).bind fun _ => unrecorded_announce _ _ _ _

theorem unrecorded_start : Keeps (Unrecorded before) (start env component) := by
  have hcloseEnds : Keeps (Unrecorded before) (closeEnds 1) := keeps_modify fun _ h => h
  refine hcloseEnds.bind fun _ => ?_
  refine Keeps.bind (fun _ h => h) fun _ => (keeps_perform env .tasks).bind fun _ => ?_
  split_ifs
  · exact keeps_perform env .becameReady
  · exact keeps_pure _

theorem not_accounted (h : Unrecorded before after) : ¬ Accounted env before after := by
  intro haccounted
  obtain ⟨delay, hrecorded, -⟩ := haccounted.recorded
  have hlength := congrArg List.length (hrecorded.symm.trans h)
  rw [List.length_append, List.length_singleton] at hlength
  omega

/-! ## The statements before the `try` block -/

/-- The event of a transition of a foreground app. -/
def announcement (component : Launch) (transition : Transition) (generation : ℕ)
    (message : PyStr) : List Event :=
  if isForegroundApp component.manifest then
    [⟨transition, generation, if message.isEmpty then none else some (message.take 512)⟩]
  else []

theorem announce_none {transition : Transition} {generation : ℕ} {message : PyStr}
    (h : isForegroundApp component.manifest = true → env.raises statement = none) (s : State) :
    (announce env component statement transition generation message).run s =
      .ok () { s with
        events := s.events ++ announcement component transition generation message } := by
  by_cases hforeground : isForegroundApp component.manifest = true
  · rw [announce, if_pos hforeground, emit, run_bind_of_ok (run_perform_none (h hforeground) s),
      announcement, if_pos hforeground]
    rfl
  · rw [announce, if_neg hforeground, announcement, if_neg hforeground, List.append_nil]
    rfl

theorem announce_some {transition : Transition} {generation : ℕ} {message : PyStr} {e : PyError}
    (hforeground : isForegroundApp component.manifest = true)
    (h : env.raises statement = some e) (s : State) :
    (announce env component statement transition generation message).run s = .error e s := by
  rw [announce, if_pos hforeground, emit, run_bind_of_error (run_perform_some h s)]

/-- The state in which the `try` block starts. -/
def prepared (component : Launch) (s : State) : State :=
  { s.taken with
    openEnds := s.openEnds + 2
    events := s.events ++ announcement component .launching (s.generation + 1) [] }

theorem run_takeGeneration (s : State) : takeGeneration.run s = .ok (s.generation + 1) s.taken :=
  rfl

theorem openSocketPair_none (h : env.raises .socketpair = none) (s : State) :
    (openSocketPair env).run s = .ok () { s with openEnds := s.openEnds + 2 } := by
  rw [openSocketPair, run_bind_of_ok (run_perform_none h s)]
  rfl

theorem openSocketPair_some {e : PyError} (h : env.raises .socketpair = some e) (s : State) :
    (openSocketPair env).run s = .error e s := by
  rw [openSocketPair, run_bind_of_error (run_perform_some h s)]

theorem mem_launching (hforeground : isForegroundApp component.manifest = true) :
    .launching ∈ unguarded component := by
  simp [unguarded, hforeground]

theorem prepare_none (h : ∀ statement ∈ unguarded component, env.raises statement = none)
    (s : State) :
    (prepare env component).run s = .ok (s.generation + 1) (prepared component s) := by
  have hlaunching : isForegroundApp component.manifest = true → env.raises .launching = none :=
    fun hforeground => h .launching (mem_launching hforeground)
  have hsocketpair : env.raises .socketpair = none := h .socketpair (by simp [unguarded])
  have hpreparing : ∀ statement ∈ preparing component, env.raises statement = none :=
    fun statement hmem => h statement (List.mem_append_right _ hmem)
  rw [prepare, run_bind_of_ok (run_takeGeneration s)]
  rw [run_bind_of_ok (announce_none hlaunching _)]
  rw [run_bind_of_ok (openSocketPair_none hsocketpair _)]
  rw [run_bind_of_ok (run_performAll_none _ hpreparing)]
  rfl

theorem prepare_some (h : ∃ statement ∈ unguarded component, env.raises statement ≠ none)
    (s : State) : ∃ e t, (prepare env component).run s = .error e t := by
  rw [prepare, run_bind_of_ok (run_takeGeneration s)]
  by_cases hannounced : isForegroundApp component.manifest = true → env.raises .launching = none
  · rw [run_bind_of_ok (announce_none hannounced _)]
    cases hsocketpair : env.raises .socketpair with
    | some e => exact ⟨e, _, run_bind_of_error (openSocketPair_some hsocketpair _)⟩
    | none =>
      rw [run_bind_of_ok (openSocketPair_none hsocketpair _)]
      have hpreparing : ∃ statement ∈ preparing component, env.raises statement ≠ none := by
        obtain ⟨statement, hmem, hraises⟩ := h
        simp only [unguarded, List.mem_append, List.mem_singleton] at hmem
        rcases hmem with (hmem | rfl) | hmem
        · split_ifs at hmem with hforeground
          · rw [List.mem_singleton.mp hmem] at hraises
            exact (hraises (hannounced hforeground)).elim
          · cases hmem
        · exact (hraises hsocketpair).elim
        · exact ⟨statement, hmem, hraises⟩
      obtain ⟨e, he⟩ := run_performAll_some _ hpreparing
      exact ⟨e, _, run_bind_of_error he⟩
  · rw [Classical.not_imp] at hannounced
    obtain ⟨hforeground, hraises⟩ := hannounced
    obtain ⟨e, he⟩ := Option.ne_none_iff_exists'.mp hraises
    exact ⟨e, _, run_bind_of_error (announce_some hforeground he _)⟩

/-! ## The `try` block -/

theorem recordComponentFailure_run (env : Surroundings) (s : State) :
    ∃ delay t, (recordComponentFailure env).run s = .ok delay t ∧ t.openEnds = s.openEnds ∧
      t.events = s.events ∧ t.registered = s.registered ∧
      t.recorded = s.recorded ++ [delay] := by
  simp only [EStateM.run, recordComponentFailure]
  split_ifs <;> exact ⟨_, _, rfl, rfl, rfl, rfl, rfl⟩

theorem storeBackoff_run (env : Surroundings) (component : Launch) (delay : Option ℚ) (s : State) :
    ∃ t, (storeBackoff env component delay).run s = .ok () t ∧ t.openEnds = s.openEnds ∧
      t.events = s.events ∧ t.registered = s.registered ∧ t.recorded = s.recorded ∧
      ∀ d, delay = some d → t.spawnBackoffUntil = some (env.storedAt + d) := by
  cases delay with
  | none => exact ⟨s, rfl, rfl, rfl, rfl, rfl, fun _ h => nomatch h⟩
  | some delay =>
    refine ⟨_, rfl, rfl, rfl, rfl, rfl, ?_⟩
    intro d hd
    cases hd
    rfl

theorem report_none (h : ∀ statement ∈ handling component, env.raises statement = none)
    (generation : ℕ) (e : PyError) (s : State) :
    (report env component generation e).run s = .ok () { s with
      events := s.events ++ announcement component .failed generation e.text } := by
  have hfailed : isForegroundApp component.manifest = true → env.raises .failed = none :=
    fun hforeground => h .failed (by simp [handling, hforeground])
  rw [report, run_bind_of_ok (run_perform_none (h .printFailed (by simp [handling])) s)]
  exact announce_none hfailed s

theorem report_some (h : ∃ statement ∈ handling component, env.raises statement ≠ none)
    (generation : ℕ) (e : PyError) (s : State) :
    ∃ e' t, (report env component generation e).run s = .error e' t := by
  rw [report]
  cases hprint : env.raises .printFailed with
  | some e' => exact ⟨e', _, run_bind_of_error (run_perform_some hprint s)⟩
  | none =>
    rw [run_bind_of_ok (run_perform_none hprint s)]
    obtain ⟨statement, hmem, hraises⟩ := h
    rcases List.mem_cons.mp hmem with rfl | hmem
    · exact (hraises hprint).elim
    · split_ifs at hmem with hforeground
      · rw [List.mem_singleton.mp hmem] at hraises
        obtain ⟨e', he'⟩ := Option.ne_none_iff_exists'.mp hraises
        exact ⟨e', s, announce_some hforeground he' s⟩
      · cases hmem

theorem run_closeEnds (count : ℕ) (s : State) :
    (closeEnds count).run s = .ok () { s with openEnds := s.openEnds - count } := rfl

theorem handle_accounted (h : ∀ statement ∈ handling component, env.raises statement = none)
    (e : PyError) (before : State) :
    ∃ t, (handle env component (before.generation + 1) e).run (prepared component before) =
      .ok () t ∧ Accounted env before t := by
  rw [handle, run_bind_of_ok (run_closeEnds 2 _), run_bind_of_ok (report_none h _ e _)]
  obtain ⟨delay, recorded, hrecorded, hends, hevents, hregistered, hlist⟩ :=
    recordComponentFailure_run env _
  rw [run_bind_of_ok hrecorded]
  obtain ⟨t, hstored, htends, htevents, htregistered, htlist, hbackoff⟩ :=
    storeBackoff_run env component delay recorded
  refine ⟨t, hstored, ?_, ?_, ?_, ⟨delay, ?_, hbackoff⟩⟩
  · rw [htends, hends]
    exact Nat.add_sub_cancel _ _
  · refine ⟨announcement component .launching (before.generation + 1) [] ++
      announcement component .failed (before.generation + 1) e.text, ?_, ?_⟩
    · rw [htevents, hevents, ← List.append_assoc]
      rfl
    · rintro ⟨message, hmem⟩
      have hforeground : isForegroundApp component.manifest = true := by
        by_contra hbackground
        simp [announcement, hbackground] at hmem
      exact ⟨_, List.mem_append_right _ (by
        rw [announcement, if_pos hforeground]
        exact List.mem_singleton_self _)⟩
  · rw [htregistered, hregistered]
    intro hsame
    have hle := before.issued (before.generation + 1) hsame
    omega
  · rw [htlist, hlist]
    rfl

theorem launch_none (h : ∀ statement ∈ attempting component, env.raises statement = none)
    (generation : ℕ) (s : State) : (launch env component generation).run s = .ok () s := by
  rw [launch, run_tryCatch, run_performAll_none _ h]

theorem launch_some (h : ∃ statement ∈ attempting component, env.raises statement ≠ none)
    (generation : ℕ) (s : State) :
    ∃ e, (launch env component generation).run s =
      (do handle env component generation e; throw e : Spawning Unit).run s := by
  obtain ⟨e, he⟩ := run_performAll_some (s := s) _ h
  exact ⟨e, by rw [launch, run_tryCatch, he]⟩

theorem handle_unrecorded (h : ∃ statement ∈ handling component, env.raises statement ≠ none)
    (generation : ℕ) (e : PyError) {s : State} (hs : Unrecorded before s) :
    ∃ e' t, (handle env component generation e).run s = .error e' t ∧ Unrecorded before t := by
  have hkeeps : Keeps (Unrecorded before) (report env component generation e) :=
    unrecorded_report generation e
  rw [handle, run_bind_of_ok (run_closeEnds 2 s)]
  obtain ⟨e', t, hreport⟩ := report_some h generation e { s with openEnds := s.openEnds - 2 }
  have hafter := hkeeps { s with openEnds := s.openEnds - 2 } hs
  rw [hreport] at hafter
  exact ⟨e', t, run_bind_of_error hreport, hafter⟩

/-! ## The whole spawn -/

theorem spawn_of_guarded (h : Guarded env component) (before : State) :
    ∃ e t, (spawn env component).run before = .error e t ∧ Accounted env before t := by
  obtain ⟨e, hlaunch⟩ :=
    launch_some h.raised (before.generation + 1) (prepared component before)
  obtain ⟨t, hhandle, haccounted⟩ := handle_accounted h.handled e before
  rw [run_bind_of_ok hhandle, run_throw] at hlaunch
  refine ⟨e, t, ?_, haccounted⟩
  rw [spawn, run_bind_of_ok (prepare_none h.before before), run_bind_of_error hlaunch]

theorem unrecorded_of_not_guarded (hguarded : ¬ Guarded env component) {e : PyError}
    (hrun : (spawn env component).run before = .error e after) : Unrecorded before after := by
  by_cases hbefore : ∀ statement ∈ unguarded component, env.raises statement = none
  · have hprepared : Unrecorded before (prepared component before) := rfl
    rw [spawn, run_bind_of_ok (prepare_none hbefore before)] at hrun
    by_cases hraised : ∃ statement ∈ attempting component, env.raises statement ≠ none
    · have hunhandled : ∃ statement ∈ handling component, env.raises statement ≠ none := by
        by_contra hnone
        push Not at hnone
        exact hguarded ⟨hbefore, hraised, hnone⟩
      obtain ⟨e₀, hlaunch⟩ :=
        launch_some hraised (before.generation + 1) (prepared component before)
      obtain ⟨e', t, hhandle, ht⟩ :=
        handle_unrecorded hunhandled (before.generation + 1) e₀ hprepared
      rw [run_bind_of_error hhandle] at hlaunch
      rw [run_bind_of_error hlaunch] at hrun
      cases hrun
      exact ht
    · push Not at hraised
      rw [run_bind_of_ok (launch_none hraised _ _)] at hrun
      have hkeeps : Keeps (Unrecorded before) (start env component) := unrecorded_start
      have hafter := hkeeps _ hprepared
      rw [hrun] at hafter
      exact hafter
  · push Not at hbefore
    obtain ⟨e', t, hprepare⟩ := prepare_some hbefore before
    have hkeeps : Keeps (Unrecorded before) (prepare env component) := unrecorded_prepare
    have hafter := hkeeps before rfl
    rw [hprepare] at hafter
    rw [spawn, run_bind_of_error hprepare] at hrun
    cases hrun
    exact hafter

/-- A spawn that raises is accounted for exactly when the exception comes out of the `try` block
and the handler itself gets through. -/
theorem spawn_accounted_iff (env : Surroundings) (component : Launch) {before after : State}
    {e : PyError} (h : (spawn env component).run before = .error e after) :
    Accounted env before after ↔ Guarded env component := by
  constructor
  · intro haccounted
    by_contra hguarded
    exact not_accounted (unrecorded_of_not_guarded hguarded h) haccounted
  · intro hguarded
    obtain ⟨e', t, hrun, haccounted⟩ := spawn_of_guarded hguarded before
    rw [hrun] at h
    cases h
    exact haccounted

/-- An installed app. -/
def notes : Launch where
  manifest := ⟨lit "x11", lit "inherit", lit "window", lit "manual", []⟩
  provider := ⟨lit "app", lit "manual", lit "never", []⟩
  builtin := false
  packaged := true
  activation := false
  isolationRequested := false
  readyOnExec := false

def stopped : State where
  generation := 2
  registered := none
  issued := nofun
  openEnds := 0
  events := []
  failureHistory := []
  quarantinedAt := none
  spawnBackoffUntil := none
  retries := []
  foreground := false
  recorded := []

/-- One statement raises. -/
def failing (statement : Statement) (text : String) : Surroundings where
  raises := fun other => if other = statement then some ⟨.osError, lit text⟩ else none
  outageBlocks := false
  recordedAt := 10
  storedAt := 11

theorem spawn_accounted_popen :
    ∃ e after, (spawn (failing .popen "no memory") notes).run stopped = .error e after ∧
      Accounted (failing .popen "no memory") stopped after := by
  have hguarded : Guarded (failing .popen "no memory") notes := by
    constructor <;> decide
  obtain ⟨e, after, hrun, -⟩ := spawn_of_guarded hguarded stopped
  exact ⟨e, after, hrun, (spawn_accounted_iff _ _ hrun).mpr hguarded⟩

/-- The private `home` cannot be made: the sockets stay open, no `failed` follows the `launching`,
and nothing is recorded. -/
theorem spawn_unaccounted_home :
    ∃ e after, (spawn (failing (.directory "home") "disk full") notes).run stopped =
        .error e after ∧
      after.openEnds = 2 ∧ after.events = [⟨.launching, 3, none⟩] ∧ after.recorded = [] ∧
      ¬ Accounted (failing (.directory "home") "disk full") stopped after := by
  refine ⟨⟨.osError, lit "disk full"⟩, prepared notes stopped, rfl, rfl, rfl, rfl, ?_⟩
  exact not_accounted rfl

end MsysCore.Core.SpawnFailure
