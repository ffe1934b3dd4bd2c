import MsysCore.Core.DisplayOutage
import MsysCore.Core.Foreground
import MsysCore.Core.InstanceHistory

/-!
# Lifecycle transitions of foreground applications

The events `launching`, `launched`, `closing`, `closed` and `failed` that the supervisor
publishes about an application that owns a window. They are emitted at five places: a
start, `ensure_ready`, `_announce_foreground_closing`, a stop and the finalization of an
exited process. Two flags of the instance and `finalized` keep the places apart. An event is
emitted within the stretch of code that decides it, since `broadcast` never suspends.
-/

namespace MsysCore.Core.Transitions

open Python Runs
open Display (Manifest)

inductive Transition
  | launching | launched | closing | closed | failed
  deriving DecidableEq

/-! ## The grammar -/

/-- A prefix of `launching`, perhaps `launched`, perhaps `closing`, and one last event. -/
def Grammatical (events : List Transition) : Prop :=
  ∃ launched closing : Bool, ∃ last, (last = .closed ∨ last = .failed) ∧
    events <+: [.launching] ++ (if launched then [.launched] else []) ++
      (if closing then [.closing] else []) ++ [last]

/-- How far a generation has come. -/
inductive Stage
  | fresh | starting | shown | closing | ended
  deriving DecidableEq

def Stage.next : Stage → Transition → Option Stage
  | .fresh, .launching => some .starting
  | .starting, .launched => some .shown
  | .starting, .closing => some .closing
  | .shown, .closing => some .closing
  | .starting, .closed | .shown, .closed | .closing, .closed => some .ended
  | .starting, .failed | .shown, .failed | .closing, .failed => some .ended
  | _, _ => none

def stageOf (events : List Transition) : Option Stage := events.foldlM Stage.next .fresh

theorem stageOf_append (events : List Transition) (t : Transition) :
    stageOf (events ++ [t]) = (stageOf events).bind fun st => st.next t := by
  unfold stageOf
  rw [List.foldlM_append]
  cases events.foldlM Stage.next .fresh with
  | none => rfl
  | some st =>
    change (List.foldlM Stage.next st [t]) = _
    simp

/-- The events that lead to a stage. -/
def Stage.Reads (events : List Transition) : Stage → Prop
  | .fresh => events = []
  | .starting => events = [.launching]
  | .shown => events = [.launching, .launched]
  | .closing => ∃ launched : Bool, events =
      [.launching] ++ (if launched then [.launched] else []) ++ [.closing]
  | .ended => ∃ launched closing : Bool, ∃ last, (last = .closed ∨ last = .failed) ∧ events =
      [.launching] ++ (if launched then [.launched] else []) ++
        (if closing then [.closing] else []) ++ [last]

theorem Stage.Reads.next {events : List Transition} {t : Transition} {st st' : Stage}
    (h : st.Reads events) (hnext : st.next t = some st') : st'.Reads (events ++ [t]) := by
  cases st with
  | fresh =>
    cases h
    cases t <;> cases hnext
    exact rfl
  | starting =>
    cases h
    cases t <;> cases hnext
    · exact rfl
    · exact ⟨false, rfl⟩
    · exact ⟨false, false, .closed, .inl rfl, rfl⟩
    · exact ⟨false, false, .failed, .inr rfl, rfl⟩
  | shown =>
    cases h
    cases t <;> cases hnext
    · exact ⟨true, rfl⟩
    · exact ⟨true, false, .closed, .inl rfl, rfl⟩
    · exact ⟨true, false, .failed, .inr rfl, rfl⟩
  | closing =>
    obtain ⟨launched, rfl⟩ := h
    cases t <;> cases hnext
    · exact ⟨launched, true, .closed, .inl rfl, rfl⟩
    · exact ⟨launched, true, .failed, .inr rfl, rfl⟩
  | ended => cases t <;> cases hnext

theorem stageOf_reads (events : List Transition) :
    ∀ st, stageOf events = some st → st.Reads events := by
  induction events using List.reverseRecOn with
  | nil =>
    rintro st ⟨⟩
    exact rfl
  | append_singleton events t ih =>
    intro st h
    rw [stageOf_append] at h
    obtain ⟨before, hbefore, hnext⟩ := Option.bind_eq_some_iff.mp h
    exact (ih before hbefore).next hnext

theorem grammatical_of_stage {events : List Transition} {st : Stage}
    (h : stageOf events = some st) : Grammatical events := by
  have hreads := stageOf_reads events st h
  cases st with
  | fresh =>
    cases hreads
    exact ⟨false, false, .closed, .inl rfl, List.nil_prefix⟩
  | starting =>
    cases hreads
    exact ⟨false, false, .closed, .inl rfl, [.closed], rfl⟩
  | shown =>
    cases hreads
    exact ⟨true, false, .closed, .inl rfl, [.closed], rfl⟩
  | closing =>
    obtain ⟨launched, rfl⟩ := hreads
    exact ⟨launched, true, .closed, .inl rfl, [.closed], rfl⟩
  | ended =>
    obtain ⟨launched, closing, last, hlast, rfl⟩ := hreads
    exact ⟨launched, closing, last, hlast, List.prefix_refl _⟩

/-! ## The machine -/

def isForegroundApp (m : Manifest) : Bool :=
  if m.lifecycle ≠ lit "manual" then false
  else if m.provides.any fun provide =>
      provide.1 = lit "role" && provide.2 = lit "screen-shield" then false
  else m.mode = lit "window" || m.mode = lit "fullscreen"

/-- The flags of an instance. `exitAnnounced` is ghost: its finalization has emitted its event. -/
structure Marks where
  launched : Bool
  closing : Bool
  exitAnnounced : Bool
  deriving DecidableEq

structure State where
  sup : Supervisor
  foreground : Foreground
  marks : ℕ → Marks
  /-- A finalization of the exited instance is between its flag and its event. -/
  finalizing : ℕ → Bool
  /-- The local variable `animate` of the `_stop_component_locked` that the call runs. -/
  animate : ℕ → Bool
  /-- The events of each generation of each key. -/
  log : PyStr → ℕ → List Transition

def initial (sup : Supervisor) : State where
  sup := sup
  foreground := .empty
  marks := fun _ => ⟨false, false, false⟩
  finalizing := fun _ => false
  animate := fun _ => false
  log := fun _ _ => []

namespace State

/-- `_emit_component_transition` -/
def emit (s : State) (key : PyStr) (generation : ℕ) (t : Transition) : State :=
  { s with log := fun k g =>
      if k = key ∧ g = generation then s.log k g ++ [t] else s.log k g }

def mark (s : State) (i : ℕ) (f : Marks → Marks) : State :=
  { s with marks := Function.update s.marks i (f (s.marks i)) }

end State

section

variable (manifest : Component → Manifest)

/-! ### Starts -/

/-- The generation that a start is about to spawn, if its component is a foreground application. -/
def spawns (s : State) (c : ℕ) : Option (PyStr × ℕ) :=
  match s.sup.calls c with
  | some (.start key .cleared) =>
    match s.sup.components key with
    | some component =>
      if isForegroundApp (manifest component) then some (key, s.sup.generations key + 1) else none
    | none => none
  | _ => none

/-- `launching`, and the key becomes the foreground task. -/
def launchEffect (s : State) (c : ℕ) : State :=
  match spawns manifest s c with
  | some (key, generation) =>
    { s.emit key generation .launching with foreground := s.foreground.markForeground key }
  | none => s

/-- A start that raises after it has taken the generation number; `events` were emitted. -/
def failEffect (s : State) (c : ℕ) (events : List Transition) : State :=
  match spawns manifest s c with
  | some (key, generation) => events.foldl (fun s t => s.emit key generation t) s
  | none => s

/-! ### Stops -/

/-- The entry that a start with the lock deals with, or that a stop is about to remove. -/
def removes (s : State) (c : ℕ) : Option (ℕ × Instance) :=
  match s.sup.calls c with
  | some (.start key .entered) => s.sup.current key
  | some (.stop key expected .waiting) =>
    (s.sup.current key).filter fun entry => !(expected.isSome && expected ≠ some entry.1)
  | _ => none

def animates (s : State) (inst : Instance) : Bool :=
  isForegroundApp (manifest inst.component) && !s.sup.stopping

/-- `closing`, unless it was announced; the watcher is cancelled. -/
def removeEffect (s : State) (c : ℕ) : State :=
  match removes s c with
  | some (i, inst) =>
    let animate := animates manifest s inst
    let s := if animate && !(s.marks i).closing then
        (s.mark i fun m => { m with closing := true }).emit inst.key inst.generation .closing
      else s
    { s with
      animate := Function.update s.animate c animate
      finalizing := Function.update s.finalizing i false }
  | none => s

/-- The announcement of the stop raises. -/
def removeFailedEffect (s : State) (c : ℕ) : State :=
  match removes s c with
  | some (i, _) => s.mark i fun m => { m with closing := true }
  | none => s

/-- The instance whose process the call waits for. -/
def awaits (s : State) (c : ℕ) : Option Instance :=
  ((s.sup.calls c).bind Call.terminates).bind fun entry => s.sup.heap entry.2

/-- `closed`, when the process has ended. -/
def terminatedEffect (s : State) (c : ℕ) : State :=
  match awaits s c with
  | some inst => if s.animate c then s.emit inst.key inst.generation .closed else s
  | none => s

/-! ### Exits -/

def finalizeEffect (s : State) (i : ℕ) : State :=
  { s with finalizing := Function.update s.finalizing i true }

def forgetEffect (s : State) (i : ℕ) : State :=
  match s.sup.heap i with
  | some inst => { s with foreground := s.foreground.forgetForeground inst.key }
  | none => s

/-- What a step of the supervisor does to the events. -/
def effect (s : State) : Supervisor.Label → State
  | .start (.spawn c _) => launchEffect manifest s c
  | .start (.spawnFailed c) => failEffect manifest s c [.launching, .failed]
  | .start (.retire c) => removeEffect manifest s c
  | .start (.retireFailed c) => removeFailedEffect s c
  | .start (.retired c) => terminatedEffect s c
  | .start (.finalize c) =>
    match removes s c with
    | some (i, _) => finalizeEffect s i
    | none => s
  | .stop (.lock c) => removeEffect manifest s c
  | .stop (.lockFailed c) => removeFailedEffect s c
  | .stop (.terminated c) => terminatedEffect s c
  | .life (.watcherFinalize i) => finalizeEffect s i
  | .life (.channelClosed i) => forgetEffect s i
  | _ => s

/-! ### Runs -/

inductive Label
  | sup (l : Supervisor.Label)
  /-- A start raises outside the `try` of the spawn, before or after `launching`. -/
  | spawnRaised (c : ℕ) (launching : Bool)
  /-- `ensure_ready` returns; `delivered` says that the event did not raise. -/
  | ready (i : ℕ) (delivered : Bool)
  /-- `_announce_foreground_closing` -/
  | announce (delivered : Bool)
  /-- The rest of `_finalize_exited_instance`, for a return code that is zero or not. -/
  | finalized (i : ℕ) (clean : Bool)
  /-- A finalization is cancelled or raises. -/
  | interrupt (i : ℕ)
  /-- any other change of the foreground stack -/
  | foreground (f : Foreground)

def emitIf (delivered : Bool) (s : State) (inst : Instance) (t : Transition) : State :=
  if delivered then s.emit inst.key inst.generation t else s

/-- `launched` -/
def readyStep (s : State) (i : ℕ) (delivered : Bool) : Option State :=
  match s.sup.heap i with
  | some inst =>
    if inst.ready && s.sup.isCurrent i inst then
      if isForegroundApp (manifest inst.component) && !(s.marks i).launched then
        some (emitIf delivered (s.mark i fun m => { m with launched := true }) inst .launched)
      else some s
    else none
  | none => none

/-- The key is the visible live task that has not been announced. -/
def announceable (s : State) (key : PyStr) : Bool :=
  match s.sup.current key with
  | some (i, inst) => key ∉ s.foreground.backgrounded && isForegroundApp (manifest inst.component)
      && !(s.marks i).closing && inst.running
  | none => false

def announceStep (s : State) (delivered : Bool) : State :=
  match (s.foreground.stack.find? (announceable manifest s)).bind s.sup.current with
  | some (i, inst) => emitIf delivered (s.mark i fun m => { m with closing := true }) inst .closing
  | none => s

def finalizedStep (s : State) (i : ℕ) (clean : Bool) : Option State :=
  match s.sup.heap i with
  | some inst =>
    if s.finalizing i then
      let closed := { forgetEffect s i with
        sup := s.sup.modify i fun inst => { inst with ready := false }
        finalizing := Function.update s.finalizing i false }
      if animates manifest s inst then
        some ((closed.mark i fun m => { m with exitAnnounced := true }).emit inst.key
          inst.generation (if clean then .closed else .failed))
      else some closed
    else none
  | none => none

def step (s : State) : Label → Option State
  | .sup l => (s.sup.step l).map fun sup => { effect manifest s l with sup := sup }
  | .spawnRaised c launching =>
    (s.sup.step (.start (.spawnFailed c))).map fun sup =>
      { failEffect manifest s c (if launching then [.launching] else []) with sup := sup }
  | .ready i delivered => readyStep manifest s i delivered
  | .announce delivered => some (announceStep manifest s delivered)
  | .finalized i clean => finalizedStep manifest s i clean
  | .interrupt i => some { s with finalizing := Function.update s.finalizing i false }
  | .foreground f => some { s with foreground := f }

end

/-! ## The invariant -/

/-- What the flags of an instance say about its events; `present` means that it is the entry of its
key. -/
structure Sound (m : Marks) (present : Prop) (st : Stage) : Prop where
  shown : m.launched = false → st ≠ .shown
  closing : m.closing = false → st ≠ .closing
  ended : st = .ended → m.exitAnnounced = true ∨ ¬ present

/-- The object is the entry of its key. -/
def Present (s : Supervisor) (i : ℕ) (inst : Instance) : Prop :=
  OrderedDict.get s.instances inst.key = some i

def eventsOf (s : State) (inst : Instance) : List Transition := s.log inst.key inst.generation

/-- The last event of the instance is still to come. -/
def Unfinished (s : State) (i : ℕ) (inst : Instance) : Prop :=
  s.sup.heap i = some inst ∧ stageOf (eventsOf s inst) ≠ some .ended

theorem Unfinished.object {s : State} {i : ℕ} {inst : Instance} (h : Unfinished s i inst) :
    s.sup.heap i = some inst := h.1

theorem Unfinished.pending {s : State} {i : ℕ} {inst : Instance} (h : Unfinished s i inst) :
    stageOf (eventsOf s inst) ≠ some .ended := h.2

structure EventInv (manifest : Component → Manifest) (s : State) : Prop where
  locks : s.sup.LockInv
  generations : s.sup.GenerationInv
  fresh : ∀ key g, s.sup.generations key < g → s.log key g = []
  grammar : ∀ key g, ∃ st, stageOf (s.log key g) = some st
  begun : ∀ i inst, s.sup.heap i = some inst → isForegroundApp (manifest inst.component) = true →
    stageOf (eventsOf s inst) ≠ some .fresh
  sound : ∀ i inst, s.sup.heap i = some inst → ∀ st, stageOf (eventsOf s inst) = some st →
    Sound (s.marks i) (Present s.sup i inst) st
  announced : ∀ i, (s.marks i).exitAnnounced = true →
    ∃ inst, s.sup.heap i = some inst ∧ Supervisor.Retired inst ∧ inst.ready = false
  finalizing : ∀ i, s.finalizing i = true →
    (s.marks i).exitAnnounced = false ∧
      ∃ inst, Unfinished s i inst ∧ Supervisor.Retired inst
  terminating : ∀ c call key i, s.sup.calls c = some call → call.terminates = some (key, i) →
    s.animate c = true → s.finalizing i = false ∧
      ∃ inst, Unfinished s i inst ∧ inst.key = key ∧
        isForegroundApp (manifest inst.component) = true

theorem eventInv_initial (manifest : Component → Manifest)
    (components : PyStr → Option Component) (roles : List (PyStr × RoleState)) :
    EventInv manifest (initial (.initial components roles)) where
  locks := Supervisor.lockInv_initial components roles
  generations := (Supervisor.tableInv_initial components roles).toGenerationInv
  fresh := fun _ _ _ => rfl
  grammar := fun _ _ => ⟨.fresh, rfl⟩
  begun := by rintro _ _ ⟨⟩
  sound := by rintro _ _ ⟨⟩
  announced := by rintro _ ⟨⟩
  finalizing := by rintro _ ⟨⟩
  terminating := by intros; contradiction

section

variable {manifest : Component → Manifest} {s : State}

/-- A generation has one object. -/
theorem EventInv.object_unique (hinv : EventInv manifest s) {i j : ℕ} {a b : Instance}
    (ha : s.sup.heap i = some a) (hb : s.sup.heap j = some b) (hkey : a.key = b.key)
    (hgeneration : a.generation = b.generation) : i = j := by
  rcases lt_trichotomy i j with hlt | heq | hgt
  · have := hinv.generations.increase i j a b hlt ha hb hkey
    omega
  · exact heq
  · have := hinv.generations.increase j i b a hgt hb ha hkey.symm
    omega

theorem eventsOf_emit_self (s : State) (inst : Instance) (t : Transition) :
    eventsOf (s.emit inst.key inst.generation t) inst = eventsOf s inst ++ [t] := by
  simp [eventsOf, State.emit]

theorem EventInv.eventsOf_emit_ne (hinv : EventInv manifest s) {i j : ℕ} {a b : Instance}
    (ha : s.sup.heap i = some a) (hb : s.sup.heap j = some b) (hne : j ≠ i) (t : Transition) :
    eventsOf (s.emit a.key a.generation t) b = eventsOf s b := by
  have hother : ¬ (b.key = a.key ∧ b.generation = a.generation) := by
    rintro ⟨hkey, hgeneration⟩
    exact hne (hinv.object_unique hb ha hkey hgeneration)
  simp [eventsOf, State.emit, hother]

/-- The flags of one instance change. Its exit is marked as announced once it is over. -/
theorem EventInv.mark (hinv : EventInv manifest s) {i : ℕ} {inst : Instance}
    (hobject : s.sup.heap i = some inst) (f : Marks → Marks)
    (hexit : (f (s.marks i)).exitAnnounced = (s.marks i).exitAnnounced ∨
      s.finalizing i = false ∧ Supervisor.Retired inst ∧ inst.ready = false)
    (hsound : ∀ st, stageOf (eventsOf s inst) = some st →
      Sound (f (s.marks i)) (Present s.sup i inst) st) : EventInv manifest (s.mark i f) := by
  refine ⟨hinv.locks, hinv.generations, hinv.fresh, hinv.grammar, hinv.begun, ?_, ?_, ?_, ?_⟩
  · intro j b hb st hst
    by_cases hj : j = i
    · subst hj
      change s.sup.heap j = some b at hb
      rw [hobject] at hb
      cases hb
      simpa [State.mark] using hsound st hst
    · have := hinv.sound j b hb st hst
      simpa [State.mark, hj] using this
  · intro j hmarked
    by_cases hj : j = i
    · subst hj
      rcases hexit with hsame | ⟨-, hretired, hready⟩
      · simp only [State.mark, Function.update_self, hsame] at hmarked
        exact hinv.announced j hmarked
      · exact ⟨inst, hobject, hretired, hready⟩
    · simp only [State.mark, Function.update_of_ne hj] at hmarked
      exact hinv.announced j hmarked
  · intro j hbusy
    change s.finalizing j = true at hbusy
    obtain ⟨hquiet, hopen⟩ := hinv.finalizing j hbusy
    refine ⟨?_, hopen⟩
    by_cases hj : j = i
    · subst hj
      rcases hexit with hsame | ⟨hidle, -, -⟩
      · simpa [State.mark, hsame] using hquiet
      · rw [hidle] at hbusy
        cases hbusy
    · simpa [State.mark, hj] using hquiet
  · exact hinv.terminating

/-- An event of an instance is emitted. Its last one is left to no one else. -/
theorem EventInv.emit (hinv : EventInv manifest s) {i : ℕ} {inst : Instance}
    (hobject : s.sup.heap i = some inst) {st st' : Stage} {t : Transition}
    (hst : stageOf (eventsOf s inst) = some st) (hnext : st.next t = some st')
    (hsound : Sound (s.marks i) (Present s.sup i inst) st')
    (hlast : st' = .ended → s.finalizing i = false ∧
      ∀ c call, s.sup.calls c = some call → call.terminates = some (inst.key, i) →
        s.animate c = false) :
    EventInv manifest (s.emit inst.key inst.generation t) := by
  have hstage : stageOf (eventsOf (s.emit inst.key inst.generation t) inst) = some st' := by
    rw [eventsOf_emit_self, stageOf_append, hst]
    exact hnext
  have hfresh' : st' ≠ .fresh := by
    rintro rfl
    cases st <;> cases t <;> cases hnext
  -- an instance with a last event to come is another one, or this is not its last event
  have hopen : ∀ {j : ℕ} {b : Instance}, Unfinished s j b → (j = i → st' ≠ .ended) →
      Unfinished (s.emit inst.key inst.generation t) j b := by
    intro j b h hnot
    refine ⟨h.object, ?_⟩
    by_cases hj : j = i
    · subst hj
      have hb := h.object
      rw [hobject] at hb
      cases hb
      rw [hstage]
      simpa using hnot rfl
    · rw [hinv.eventsOf_emit_ne hobject h.object hj]
      exact h.pending
  refine ⟨hinv.locks, hinv.generations, ?_, ?_, ?_, ?_, hinv.announced, ?_, ?_⟩
  · intro key g hg
    have hother : ¬ (key = inst.key ∧ g = inst.generation) := by
      rintro ⟨rfl, rfl⟩
      have hbound := hinv.generations.bound i inst hobject
      change s.sup.generations inst.key < inst.generation at hg
      omega
    simpa [State.emit, hother] using hinv.fresh key g hg
  · intro key g
    by_cases hself : key = inst.key ∧ g = inst.generation
    · obtain ⟨rfl, rfl⟩ := hself
      exact ⟨st', hstage⟩
    · simpa [State.emit, hself] using hinv.grammar key g
  · intro j b hb hforeground
    by_cases hj : j = i
    · subst hj
      change s.sup.heap j = some b at hb
      rw [hobject] at hb
      cases hb
      rw [hstage]
      simpa using hfresh'
    · rw [hinv.eventsOf_emit_ne hobject hb hj]
      exact hinv.begun j b hb hforeground
  · intro j b hb st₁ hst₁
    by_cases hj : j = i
    · subst hj
      change s.sup.heap j = some b at hb
      rw [hobject] at hb
      cases hb
      rw [hstage] at hst₁
      cases hst₁
      exact hsound
    · rw [hinv.eventsOf_emit_ne hobject hb hj] at hst₁
      exact hinv.sound j b hb st₁ hst₁
  · intro j hj
    change s.finalizing j = true at hj
    obtain ⟨hquiet, b, hunfinished, hretired⟩ := hinv.finalizing j hj
    refine ⟨hquiet, b, hopen hunfinished ?_, hretired⟩
    rintro rfl hended
    rw [(hlast hended).1] at hj
    cases hj
  · intro c call key j hcall hends hanimate
    obtain ⟨hidle, b, hunfinished, hkey, hforeground⟩ :=
      hinv.terminating c call key j hcall hends hanimate
    refine ⟨hidle, b, hopen hunfinished ?_, hkey, hforeground⟩
    rintro rfl hended
    change s.animate c = true at hanimate
    have hb := hunfinished.object
    rw [hobject] at hb
    cases hb
    rw [(hlast hended).2 c call hcall (hkey ▸ hends)] at hanimate
    cases hanimate

/-- The supervisor moves, and only generations that it numbers now get new events. -/
theorem EventInv.moves (hinv : EventInv manifest s) {l : Supervisor.Label} {sup : Supervisor}
    {foreground : Foreground} {log : PyStr → ℕ → List Transition} (h : s.sup.step l = some sup)
    (hlog : ∀ key g, g ≤ s.sup.generations key → log key g = s.log key g)
    (hgrammar : ∀ key g, ∃ st, stageOf (log key g) = some st)
    (hfresh : ∀ key g, sup.generations key < g → log key g = [])
    (hnew : ∀ b, sup.heap s.sup.allocated = some b → ∀ st,
      stageOf (log b.key b.generation) = some st →
        st = .starting ∨ st = .fresh ∧ isForegroundApp (manifest b.component) = false)
    (hterm : ∀ c call key i, sup.calls c = some call → call.terminates = some (key, i) →
      s.animate c = true → s.sup.calls c = some call ∨ s.finalizing i = false ∧
        ∃ inst, Unfinished s i inst ∧ inst.key = key ∧
          isForegroundApp (manifest inst.component) = true) :
    EventInv manifest { s with sup := sup, foreground := foreground, log := log } := by
  have hentries := hinv.locks.toEntryInv
  have hchange := Supervisor.step_tableChange h
  have hold : ∀ {i : ℕ} {a b : Instance}, s.sup.heap i = some a → Supervisor.Later a b →
      log b.key b.generation = eventsOf s a := by
    intro i a b ha hlater
    rw [hlater.key, hlater.generation]
    exact hlog _ _ (hinv.generations.bound i a ha)
  have hopen : ∀ {i : ℕ} {a b : Instance}, Unfinished s i a → sup.heap i = some b →
      Supervisor.Later a b →
      Unfinished { s with sup := sup, foreground := foreground, log := log } i b := by
    intro i a b hopen hb hlater
    refine ⟨hb, ?_⟩
    change stageOf (log b.key b.generation) ≠ some .ended
    rw [hold hopen.object hlater]
    exact hopen.pending
  refine ⟨Supervisor.step_lockInv hinv.locks h,
    Supervisor.step_generationInv hentries hinv.generations h, hfresh, hgrammar, ?_, ?_, ?_, ?_, ?_⟩
  · intro i b hb hforeground
    rcases hchange.back hb with ⟨rfl, -⟩ | ⟨a, ha, hlater⟩
    · intro hst
      rcases hnew b hb _ hst with hst | ⟨-, hother⟩
      · cases hst
      · rw [hforeground] at hother
        cases hother
    · change stageOf (log b.key b.generation) ≠ some .fresh
      rw [hold ha hlater]
      exact hinv.begun i a ha (hlater.component ▸ hforeground)
  · intro i b hb st hst
    change stageOf (log b.key b.generation) = some st at hst
    rcases hchange.back hb with ⟨rfl, -⟩ | ⟨a, ha, hlater⟩
    · rcases hnew b hb st hst with rfl | ⟨rfl, -⟩
      · exact ⟨(by simp), (by simp), (by rintro ⟨⟩)⟩
      · exact ⟨(by simp), (by simp), (by rintro ⟨⟩)⟩
    · rw [hold ha hlater] at hst
      have hsound := hinv.sound i a ha st hst
      refine ⟨hsound.shown, hsound.closing, fun hended => ?_⟩
      refine (hsound.ended hended).imp_right fun hgone => ?_
      unfold Present
      rw [hlater.key]
      exact hchange.gone (hentries.lt_allocated ha) hgone
  · intro i hmarked
    obtain ⟨a, ha, hretired, hready⟩ := hinv.announced i hmarked
    obtain ⟨b, hb, hstays⟩ := Supervisor.step_retired hentries h ha hretired
    refine ⟨b, hb, hstays.retired, ?_⟩
    cases hb' : b.ready with
    | false => rfl
    | true =>
      rw [hstays.ready hb'] at hready
      cases hready
  · intro i hbusy
    obtain ⟨hquiet, a, hunfinished, hretired⟩ := hinv.finalizing i hbusy
    obtain ⟨b, hb, hstays⟩ := Supervisor.step_retired hentries h hunfinished.object hretired
    exact ⟨hquiet, b, hopen hunfinished hb hstays.later, hstays.retired⟩
  · intro c call key i hcall hends hanimate
    have hbefore : s.finalizing i = false ∧ ∃ inst, Unfinished s i inst ∧ inst.key = key ∧
        isForegroundApp (manifest inst.component) = true := by
      rcases hterm c call key i hcall hends hanimate with hsame | hnow
      · exact hinv.terminating c call key i hsame hends hanimate
      · exact hnow
    obtain ⟨hidle, a, hunfinished, hkey, hforeground⟩ := hbefore
    obtain ⟨b, hb, hlater⟩ := hchange.object hentries hunfinished.object
    exact ⟨hidle, b, hopen hunfinished hb hlater, hlater.key.trans hkey,
      hlater.component ▸ hforeground⟩

/-- A step that removes no entry and spawns nothing. -/
theorem EventInv.quiet (hinv : EventInv manifest s) {l : Supervisor.Label} {sup : Supervisor}
    (foreground : Foreground) (h : s.sup.step l = some sup)
    (hspawn : ∀ c pid, l ≠ .start (.spawn c pid))
    (hremove : ∀ c, l ≠ .start (.retire c) ∧ l ≠ .stop (.lock c)) :
    EventInv manifest { s with sup := sup, foreground := foreground } := by
  have hnone : sup.heap s.sup.allocated = none :=
    (Supervisor.step_tableChange h).no_object hinv.locks.toEntryInv
      (Supervisor.step_allocated hspawn h)
  refine hinv.moves h (fun _ _ _ => rfl) hinv.grammar ?_ ?_ ?_
  · intro key g hg
    exact hinv.fresh key g ((Supervisor.step_generations_le h key).trans_lt hg)
  · intro b hb
    rw [hnone] at hb
    cases hb
  · intro c call key i hcall hends _
    rcases Supervisor.step_terminates h hcall hends with hsame | hl | hl
    · exact .inl hsame
    · exact ((hremove c).1 hl).elim
    · exact ((hremove c).2 hl).elim

/-! ### Stops -/

theorem removes_of_retire (hentries : s.sup.EntryInv) {c : ℕ} {sup : Supervisor} {call : Call}
    {key : PyStr} {i : ℕ} (h : s.sup.startStep (.retire c) = some sup)
    (hcall : sup.calls c = some call) (hends : call.terminates = some (key, i)) :
    ∃ inst, removes s c = some (i, inst) ∧ inst.key = key := by
  cases Supervisor.startStep_effect h with
  | @retire _ k j inst call' entry live stale =>
    simp only [Supervisor.setCall, Function.update_self, Option.some.injEq] at hcall
    subst hcall
    cases hends
    exact ⟨inst, by simp [removes, call', entry], hentries.key_of_current entry⟩

theorem removes_of_lock (hentries : s.sup.EntryInv) {c : ℕ} {sup : Supervisor} {call : Call}
    {key : PyStr} {i : ℕ} (h : s.sup.stopStep (.lock c) = some sup)
    (hcall : sup.calls c = some call) (hends : call.terminates = some (key, i)) :
    ∃ inst, removes s c = some (i, inst) ∧ inst.key = key := by
  simp only [Supervisor.stopStep] at h
  split at h
  next k expected hwaits =>
    split_ifs at h
    split at h
    · cases h
      simp [Supervisor.closeStop, Supervisor.setStopRequest, Supervisor.setCall] at hcall
    next j hentry =>
      split_ifs at h with hexpected
      · cases h
        simp [Supervisor.closeStop, Supervisor.setStopRequest, Supervisor.setCall] at hcall
      · cases h
        simp only [Supervisor.setLock, Supervisor.setCall, Function.update_self,
          Option.some.injEq] at hcall
        subst hcall
        cases hends
        obtain ⟨inst, hobject, -⟩ := hentries.entry _ _ hentry
        refine ⟨inst, ?_⟩
        have hcurrent := Supervisor.current_eq_some.mpr ⟨hentry, hobject⟩
        refine ⟨?_, hentries.key_of_current hcurrent⟩
        have hpasses : expected = none ∨ expected = some i := by
          cases expected with
          | none => exact .inl rfl
          | some e => exact .inr (by simpa using hexpected)
        simp [removes, hwaits, hcurrent, hpasses]
  · cases h

/-- What a call removes is an entry. -/
theorem removes_spec (hentries : s.sup.EntryInv) {c i : ℕ} {inst : Instance}
    (h : removes s c = some (i, inst)) : s.sup.heap i = some inst ∧ Present s.sup i inst ∧
      ∃ call, s.sup.calls c = some call ∧ call.terminates = none := by
  have hentry : ∀ {key}, s.sup.current key = some (i, inst) →
      s.sup.heap i = some inst ∧ Present s.sup i inst := by
    intro key hcurrent
    obtain ⟨hget, hobject⟩ := Supervisor.current_eq_some.mp hcurrent
    refine ⟨hobject, ?_⟩
    rw [Present, hentries.key_of_current hcurrent]
    exact hget
  unfold removes at h
  split at h
  next key hcall =>
    obtain ⟨hobject, hpresent⟩ := hentry h
    exact ⟨hobject, hpresent, _, hcall, rfl⟩
  next key expected hcall =>
    obtain ⟨hobject, hpresent⟩ := hentry (Option.filter_eq_some_iff.mp h).1
    exact ⟨hobject, hpresent, _, hcall, rfl⟩
  next => cases h

/-- A finalization may stop at any time. -/
theorem EventInv.interrupt (hinv : EventInv manifest s) (i : ℕ) :
    EventInv manifest { s with finalizing := Function.update s.finalizing i false } := by
  have hidle : ∀ j, Function.update s.finalizing i false j = true → s.finalizing j = true := by
    intro j hj
    by_cases hji : j = i
    · simp [hji] at hj
    · simpa [hji] using hj
  refine ⟨hinv.locks, hinv.generations, hinv.fresh, hinv.grammar, hinv.begun, hinv.sound,
    hinv.announced, fun j hj => hinv.finalizing j (hidle j hj), ?_⟩
  intro c call key j hcall hends hanimate
  obtain ⟨hquiet, hopen⟩ := hinv.terminating c call key j hcall hends hanimate
  refine ⟨?_, hopen⟩
  cases hj : Function.update s.finalizing i false j with
  | false => exact hj
  | true =>
    rw [hidle j hj] at hquiet
    cases hquiet

/-- The variable of a call that terminates nothing may be set. -/
theorem EventInv.setAnimate (hinv : EventInv manifest s) {c : ℕ} {call : Call}
    (hcall : s.sup.calls c = some call) (hends : call.terminates = none) (animate : Bool) :
    EventInv manifest { s with animate := Function.update s.animate c animate } := by
  refine ⟨hinv.locks, hinv.generations, hinv.fresh, hinv.grammar, hinv.begun, hinv.sound,
    hinv.announced, hinv.finalizing, ?_⟩
  intro c' call' key j hcall' hends' hanimate
  have hc : c' ≠ c := by
    rintro rfl
    change s.sup.calls c' = some call' at hcall'
    rw [hcall] at hcall'
    cases hcall'
    rw [hends] at hends'
    cases hends'
  simp only [Function.update_of_ne hc] at hanimate
  exact hinv.terminating c' call' key j hcall' hends' hanimate

/-- The entry of a key has not had its last event, unless its exit was announced. -/
theorem EventInv.unfinished_of_present (hinv : EventInv manifest s) {i : ℕ} {inst : Instance}
    (hobject : s.sup.heap i = some inst) (hpresent : Present s.sup i inst)
    (hquiet : (s.marks i).exitAnnounced = false) : Unfinished s i inst := by
  refine ⟨hobject, fun hst => ?_⟩
  rcases (hinv.sound i inst hobject .ended hst).ended rfl with hmarked | hgone
  · rw [hquiet] at hmarked
    cases hmarked
  · exact hgone hpresent

/-- `closing` of an instance that has it ahead. -/
theorem EventInv.emit_closing (hinv : EventInv manifest s) {i : ℕ} {inst : Instance}
    (hopen : Unfinished s i inst) (hforeground : isForegroundApp (manifest inst.component) = true)
    (hflag : (s.marks i).closing = false) :
    let s' := (s.mark i fun m => { m with closing := true }).emit inst.key inst.generation .closing
    EventInv manifest s' ∧ Unfinished s' i inst := by
  obtain ⟨st, hst⟩ := hinv.grammar inst.key inst.generation
  have hsound := hinv.sound i inst hopen.object st hst
  have hnext : st.next .closing = some .closing := by
    cases st with
    | fresh => exact (hinv.begun i inst hopen.object hforeground hst).elim
    | starting => rfl
    | shown => rfl
    | closing => exact (hsound.closing hflag rfl).elim
    | ended => exact (hopen.pending hst).elim
  have hmarked : EventInv manifest (s.mark i fun m => { m with closing := true }) := by
    refine hinv.mark hopen.object _ (.inl rfl) fun st hst => ?_
    have hsound := hinv.sound i inst hopen.object st hst
    exact ⟨hsound.shown, (by rintro ⟨⟩), hsound.ended⟩
  constructor
  · refine hmarked.emit hopen.object hst hnext ?_ (by rintro ⟨⟩)
    refine ⟨(by simp), fun hfalse => ?_, (by rintro ⟨⟩)⟩
    simp [State.mark] at hfalse
  · refine ⟨hopen.object, ?_⟩
    rw [eventsOf_emit_self, stageOf_append]
    change (stageOf (s.log inst.key inst.generation)).bind _ ≠ _
    rw [hst, Option.bind_some, hnext]
    rintro ⟨⟩

theorem EventInv.removed (hinv : EventInv manifest s) {l : Supervisor.Label} {sup : Supervisor}
    {c : ℕ} (hl : l = .start (.retire c) ∨ l = .stop (.lock c)) (h : s.sup.step l = some sup)
    (hcond : ∀ i inst, removes s c = some (i, inst) → animates manifest s inst = true →
      (s.marks i).exitAnnounced = false) :
    EventInv manifest { removeEffect manifest s c with sup := sup } := by
  have hentries := hinv.locks.toEntryInv
  have hspawn : ∀ c' pid, l ≠ .start (.spawn c' pid) := by
    rintro c' pid rfl
    rcases hl with hl | hl <;> cases hl
  have hnone : sup.heap s.sup.allocated = none :=
    (Supervisor.step_tableChange h).no_object hentries (Supervisor.step_allocated hspawn h)
  have hcall : ∀ c' call key i, sup.calls c' = some call → call.terminates = some (key, i) →
      s.sup.calls c' = some call ∨
        c' = c ∧ ∃ inst, removes s c = some (i, inst) ∧ inst.key = key := by
    intro c' call key i hcall hends
    rcases Supervisor.step_terminates h hcall hends with hsame | rfl | rfl
    · exact .inl hsame
    · rcases hl with hl | hl <;> cases hl
      exact .inr ⟨rfl, removes_of_retire hentries h hcall hends⟩
    · rcases hl with hl | hl <;> cases hl
      exact .inr ⟨rfl, removes_of_lock hentries h hcall hends⟩
  -- the step itself, from any state with the same supervisor
  have hmoved : ∀ {s' : State}, EventInv manifest s' → s'.sup = s.sup →
      (∀ i inst, removes s c = some (i, inst) → s'.animate c = true → s'.finalizing i = false ∧
        Unfinished s' i inst ∧ isForegroundApp (manifest inst.component) = true) →
      EventInv manifest { s' with sup := sup } := by
    intro s' hinv' hsup hremoved
    rw [← hsup] at h hnone
    refine hinv'.moves h (fun _ _ _ => rfl) hinv'.grammar ?_ ?_ ?_
    · intro key g hg
      exact hinv'.fresh key g ((Supervisor.step_generations_le h key).trans_lt hg)
    · intro b hb
      rw [hnone] at hb
      cases hb
    · intro c' call key i hcall' hends hanimate
      rw [hsup]
      rcases hcall c' call key i hcall' hends with hsame | ⟨rfl, inst, hremoves, hkey⟩
      · exact .inl hsame
      · obtain ⟨hidle, hopen, hforeground⟩ := hremoved i inst hremoves hanimate
        exact .inr ⟨hidle, inst, hopen, hkey, hforeground⟩
  cases hremoves : removes s c with
  | none =>
    simp only [removeEffect, hremoves]
    refine hmoved hinv rfl fun i inst hsome => ?_
    rw [hremoves] at hsome
    cases hsome
  | some entry =>
    obtain ⟨i, inst⟩ := entry
    obtain ⟨hobject, hpresent, call, hbefore, hends⟩ := removes_spec hentries hremoves
    have hopen : animates manifest s inst = true → Unfinished s i inst :=
      fun hanimate => hinv.unfinished_of_present hobject hpresent (hcond i inst hremoves hanimate)
    have hforeground : animates manifest s inst = true →
        isForegroundApp (manifest inst.component) = true := fun hanimate =>
      (Bool.and_eq_true_iff.mp hanimate).1
    simp only [removeEffect, hremoves]
    split_ifs with hclosing
    · obtain ⟨hanimate, hflag⟩ := Bool.and_eq_true_iff.mp hclosing
      obtain ⟨hinv', hopen'⟩ := hinv.emit_closing (hopen hanimate) (hforeground hanimate)
        (by simpa using hflag)
      refine hmoved ((hinv'.interrupt i).setAnimate hbefore hends _) rfl fun j b hsome _ => ?_
      rw [hremoves] at hsome
      cases hsome
      exact ⟨by simp, hopen', hforeground hanimate⟩
    · refine hmoved ((hinv.interrupt i).setAnimate hbefore hends _) rfl fun j b hsome hanimate => ?_
      rw [hremoves] at hsome
      cases hsome
      have hanimate : animates manifest s inst = true := by simpa using hanimate
      exact ⟨by simp, hopen hanimate, hforeground hanimate⟩

theorem EventInv.removeFailed (hinv : EventInv manifest s) {l : Supervisor.Label}
    {sup : Supervisor} (c : ℕ) (h : s.sup.step l = some sup)
    (hspawn : ∀ c pid, l ≠ .start (.spawn c pid))
    (hremove : ∀ c, l ≠ .start (.retire c) ∧ l ≠ .stop (.lock c)) :
    EventInv manifest { removeFailedEffect s c with sup := sup } := by
  cases hremoves : removes s c with
  | none =>
    simp only [removeFailedEffect, hremoves]
    exact hinv.quiet s.foreground h hspawn hremove
  | some entry =>
    obtain ⟨i, inst⟩ := entry
    obtain ⟨hobject, -, -⟩ := removes_spec hinv.locks.toEntryInv hremoves
    simp only [removeFailedEffect, hremoves]
    have hmarked : EventInv manifest (s.mark i fun m => { m with closing := true }) := by
      refine hinv.mark hobject _ (.inl rfl) fun st hst => ?_
      have hsound := hinv.sound i inst hobject st hst
      exact ⟨hsound.shown, (by rintro ⟨⟩), hsound.ended⟩
    exact hmarked.quiet s.foreground h hspawn hremove

/-- The last event of an instance. -/
theorem EventInv.emit_last (hinv : EventInv manifest s) {i : ℕ} {inst : Instance}
    (hopen : Unfinished s i inst) (hforeground : isForegroundApp (manifest inst.component) = true)
    {t : Transition} (ht : t = .closed ∨ t = .failed)
    (hsound : (s.marks i).exitAnnounced = true ∨ ¬ Present s.sup i inst)
    (hidle : s.finalizing i = false)
    (hlast : ∀ c call, s.sup.calls c = some call → call.terminates = some (inst.key, i) →
      s.animate c = false) : EventInv manifest (s.emit inst.key inst.generation t) := by
  obtain ⟨st, hst⟩ := hinv.grammar inst.key inst.generation
  have hnext : st.next t = some .ended := by
    cases st with
    | fresh => exact (hinv.begun i inst hopen.object hforeground hst).elim
    | ended => exact (hopen.pending hst).elim
    | _ => rcases ht with rfl | rfl <;> rfl
  exact hinv.emit hopen.object hst hnext ⟨(by simp), (by simp), fun _ => hsound⟩ fun _ => ⟨hidle, hlast⟩

/-- The process that the call waited for has ended. -/
theorem EventInv.terminated (hinv : EventInv manifest s) {l : Supervisor.Label}
    {sup : Supervisor} {c : ℕ} (h : s.sup.step l = some sup)
    (hspawn : ∀ c pid, l ≠ .start (.spawn c pid))
    (hremove : ∀ c, l ≠ .start (.retire c) ∧ l ≠ .stop (.lock c))
    (hover : ∀ call, sup.calls c = some call → call.terminates = none) :
    EventInv manifest { terminatedEffect s c with sup := sup } := by
  have hquiet := hinv.quiet s.foreground h hspawn hremove
  cases hawaits : awaits s c with
  | none =>
    simp only [terminatedEffect, hawaits]
    exact hquiet
  | some inst =>
    obtain ⟨⟨key, i⟩, hcall, hobject⟩ := Option.bind_eq_some_iff.mp hawaits
    obtain ⟨call, hcall, hends⟩ := Option.bind_eq_some_iff.mp hcall
    simp only [terminatedEffect, hawaits]
    split_ifs with hanimate
    · obtain ⟨hidle, a, hopen, hkey, hforeground⟩ :=
        hinv.terminating c call key i hcall hends hanimate
      have ha := hopen.object
      rw [hobject] at ha
      cases ha
      have hchange := Supervisor.step_tableChange h
      obtain ⟨b, hb, hlater⟩ := hchange.object hinv.locks.toEntryInv hobject
      have hgone : ¬ Present sup i b := by
        unfold Present
        rw [hlater.key, hkey]
        refine hchange.gone (hinv.locks.toEntryInv.lt_allocated hobject) ?_
        rw [hinv.locks.removed c call key i hcall hends]
        rintro ⟨⟩
      have hopen' : Unfinished { s with sup := sup } i b := by
        refine ⟨hb, ?_⟩
        change stageOf (s.log b.key b.generation) ≠ some .ended
        rw [hlater.key, hlater.generation]
        exact hopen.pending
      have hlast : ∀ c' call', sup.calls c' = some call' → call'.terminates = some (b.key, i) →
          s.animate c' = false := by
        intro c' call' hcall' hends'
        rw [hlater.key, hkey] at hends'
        have hc : c' ≠ c := by
          rintro rfl
          rw [hover call' hcall'] at hends'
          cases hends'
        rcases Supervisor.step_terminates h hcall' hends' with hsame | hl | hl
        · -- both calls would hold the start lock of the key
          have hlock := hinv.locks.held c call key hcall (Call.holds_of_terminates hends)
          have hlock' := hinv.locks.held c' call' key hsame (Call.holds_of_terminates hends')
          rw [hlock] at hlock'
          cases hlock'
          exact (hc rfl).elim
        · exact ((hremove c').1 hl).elim
        · exact ((hremove c').2 hl).elim
      have hemitted := hquiet.emit_last hopen' (hlater.component ▸ hforeground) (.inl rfl)
        (.inr hgone) hidle hlast
      rw [hlater.key, hlater.generation] at hemitted
      exact hemitted
    · exact hquiet

/-! ### Exits -/

theorem EventInv.beginFinalizing (hinv : EventInv manifest s) {i : ℕ} {inst : Instance}
    (hobject : s.sup.heap i = some inst) (hretired : Supervisor.Retired inst)
    (hpresent : Present s.sup i inst) (hquiet : (s.marks i).exitAnnounced = false) :
    EventInv manifest { s with finalizing := Function.update s.finalizing i true } := by
  refine ⟨hinv.locks, hinv.generations, hinv.fresh, hinv.grammar, hinv.begun, hinv.sound,
    hinv.announced, ?_, ?_⟩
  · intro j hj
    by_cases hji : j = i
    · subst hji
      have hopen := hinv.unfinished_of_present hobject hpresent hquiet
      exact ⟨hquiet, inst, hopen, hretired⟩
    · simp only [Function.update_of_ne hji] at hj
      exact hinv.finalizing j hj
  · intro c call key j hcall hends hanimate
    obtain ⟨hidle, b, hopen, hkey, hforeground⟩ :=
      hinv.terminating c call key j hcall hends hanimate
    refine ⟨?_, b, hopen, hkey, hforeground⟩
    have hji : j ≠ i := by
      rintro rfl
      have hb := hopen.object
      rw [hobject] at hb
      cases hb
      unfold Present at hpresent
      rw [hkey, hinv.locks.removed c call key j hcall hends] at hpresent
      cases hpresent
    simpa [hji] using hidle

/-- The step that finalizes an exited entry. -/
theorem EventInv.finalize (hinv : EventInv manifest s) {l : Supervisor.Label} {sup : Supervisor}
    {i : ℕ} {inst : Instance} (h : s.sup.step l = some sup)
    (hspawn : ∀ c pid, l ≠ .start (.spawn c pid))
    (hremove : ∀ c, l ≠ .start (.retire c) ∧ l ≠ .stop (.lock c))
    (hobject : s.sup.heap i = some inst) (hpresent : Present s.sup i inst)
    (hexited : inst.running = false) (hpending : inst.finalized = false)
    (hsup : sup = s.sup.finalize inst.key i) :
    EventInv manifest { finalizeEffect s i with sup := sup } := by
  have hmoved := hinv.quiet s.foreground h hspawn hremove
  have hquiet : (s.marks i).exitAnnounced = false := by
    cases hmark : (s.marks i).exitAnnounced with
    | false => rfl
    | true =>
      obtain ⟨a, ha, hretired, -⟩ := hinv.announced i hmark
      rw [hobject] at ha
      cases ha
      rw [hretired.finalized] at hpending
      cases hpending
  subst hsup
  have hafter : (s.sup.finalize inst.key i).heap i =
      some { inst with finalized := true, reading := false } := by
    simp [Supervisor.finalize, Supervisor.modify, hobject]
  exact hmoved.beginFinalizing hafter ⟨rfl, hexited, rfl⟩ hpresent hquiet

/-! ### Starts -/

/-- Events of a generation that has no other. -/
def withEvents (s : State) (key : PyStr) (generation : ℕ) (events : List Transition) :
    PyStr → ℕ → List Transition :=
  fun k g => if k = key ∧ g = generation then s.log k g ++ events else s.log k g

theorem foldl_emit (key : PyStr) (generation : ℕ) (events : List Transition) :
    ∀ s : State, events.foldl (fun s t => s.emit key generation t) s =
      { s with log := withEvents s key generation events } := by
  induction events with
  | nil =>
    intro s
    have hsame : withEvents s key generation [] = s.log := by
      funext k g
      simp [withEvents]
    rw [hsame]
    exact rfl
  | cons t events ih =>
    intro s
    have hsame : withEvents (s.emit key generation t) key generation events =
        withEvents s key generation (t :: events) := by
      funext k g
      simp only [withEvents, State.emit]
      split_ifs <;> simp
    rw [List.foldl_cons, ih, hsame]
    exact rfl

/-- A generation that is numbered now gets its events. -/
theorem EventInv.numbered (hinv : EventInv manifest s) {l : Supervisor.Label} {sup : Supervisor}
    {key : PyStr} {events : List Transition} (foreground : Foreground)
    (h : s.sup.step l = some sup) (hstage : ∃ st, stageOf events = some st)
    (hnumber : sup.generations key = s.sup.generations key + 1)
    (hremove : ∀ c, l ≠ .start (.retire c) ∧ l ≠ .stop (.lock c))
    (hnew : ∀ b, sup.heap s.sup.allocated = some b → b.key = key ∧
      b.generation = s.sup.generations key + 1 ∧ events = [.launching]) :
    EventInv manifest { s with
      sup := sup
      foreground := foreground
      log := withEvents s key (s.sup.generations key + 1) events } := by
  have hempty : s.log key (s.sup.generations key + 1) = [] :=
    hinv.fresh key _ (Nat.lt_succ_self _)
  refine hinv.moves h ?_ ?_ ?_ ?_ ?_
  · intro k g hg
    have hother : ¬ (k = key ∧ g = s.sup.generations key + 1) := by
      rintro ⟨rfl, rfl⟩
      omega
    simp [withEvents, hother]
  · intro k g
    by_cases hself : k = key ∧ g = s.sup.generations key + 1
    · obtain ⟨rfl, rfl⟩ := hself
      simpa [withEvents, hempty] using hstage
    · simpa [withEvents, hself] using hinv.grammar k g
  · intro k g hg
    have hother : ¬ (k = key ∧ g = s.sup.generations key + 1) := by
      rintro ⟨rfl, rfl⟩
      omega
    simpa [withEvents, hother] using
      hinv.fresh k g ((Supervisor.step_generations_le h k).trans_lt hg)
  · intro b hb st hst
    obtain ⟨hkey, hgeneration, rfl⟩ := hnew b hb
    rw [hkey, hgeneration] at hst
    simp only [withEvents, and_self, if_true, hempty, List.nil_append] at hst
    cases hst
    exact .inl rfl
  · intro c call k i hcall hends _
    rcases Supervisor.step_terminates h hcall hends with hsame | hl | hl
    · exact .inl hsame
    · exact ((hremove c).1 hl).elim
    · exact ((hremove c).2 hl).elim

theorem EventInv.spawned (hinv : EventInv manifest s) {sup : Supervisor} {c pid : ℕ}
    (h : s.sup.startStep (.spawn c pid) = some sup) :
    EventInv manifest { launchEffect manifest s c with sup := sup } := by
  have hstep : s.sup.step (.start (.spawn c pid)) = some sup := h
  have hremove : ∀ c', Supervisor.Label.start (.spawn c pid) ≠ .start (.retire c') ∧
      Supervisor.Label.start (.spawn c pid) ≠ .stop (.lock c') := fun c' => ⟨(by rintro ⟨⟩), (by rintro ⟨⟩)⟩
  cases Supervisor.startStep_effect h with
  | @spawn _ _ key component call known running unfenced =>
    have hobject : ((s.sup.install key component pid).closeStart c key).heap s.sup.allocated =
        some ⟨key, component, s.sup.generations key + 1, pid, true,
          component.readiness = .exec, false, true⟩ := by
      simp [Supervisor.install, Supervisor.closeStart, Supervisor.setLock, Supervisor.setCall]
    have hnumber : ((s.sup.install key component pid).closeStart c key).generations key =
        s.sup.generations key + 1 := by
      simp [Supervisor.install, Supervisor.bumpGeneration, Supervisor.closeStart,
        Supervisor.setLock, Supervisor.setCall]
    cases hforeground : isForegroundApp (manifest component) with
    | true =>
      have hspawns : spawns manifest s c = some (key, s.sup.generations key + 1) := by
        simp [spawns, call, known, hforeground]
      simp only [launchEffect, hspawns]
      refine hinv.numbered _ hstep ⟨.starting, rfl⟩ hnumber hremove fun b hb => ?_
      rw [hobject] at hb
      cases hb
      exact ⟨rfl, rfl, rfl⟩
    | false =>
      have hspawns : spawns manifest s c = none := by simp [spawns, call, known, hforeground]
      simp only [launchEffect, hspawns]
      refine hinv.moves hstep (fun _ _ _ => rfl) hinv.grammar ?_ ?_ ?_
      · intro k g hg
        exact hinv.fresh k g ((Supervisor.step_generations_le hstep k).trans_lt hg)
      · intro b hb st hst
        rw [hobject] at hb
        cases hb
        rw [hinv.fresh key _ (Nat.lt_succ_self _)] at hst
        cases hst
        exact .inr ⟨rfl, hforeground⟩
      · intro c' call' k i hcall hends _
        rcases Supervisor.step_terminates hstep hcall hends with hsame | hl | hl
        · exact .inl hsame
        · cases hl
        · cases hl

theorem EventInv.spawnFailed (hinv : EventInv manifest s) {sup : Supervisor} {c : ℕ}
    {events : List Transition} (h : s.sup.startStep (.spawnFailed c) = some sup)
    (hstage : ∃ st, stageOf events = some st) :
    EventInv manifest { failEffect manifest s c events with sup := sup } := by
  have hstep : s.sup.step (.start (.spawnFailed c)) = some sup := h
  have hspawn : ∀ c' pid, Supervisor.Label.start (.spawnFailed c) ≠ .start (.spawn c' pid) :=
    (by simp)
  have hremove : ∀ c', Supervisor.Label.start (.spawnFailed c) ≠ .start (.retire c') ∧
      Supervisor.Label.start (.spawnFailed c) ≠ .stop (.lock c') := fun c' => ⟨(by rintro ⟨⟩), (by rintro ⟨⟩)⟩
  have hnone : sup.heap s.sup.allocated = none :=
    (Supervisor.step_tableChange hstep).no_object hinv.locks.toEntryInv
      (Supervisor.step_allocated hspawn hstep)
  cases hspawns : spawns manifest s c with
  | none =>
    simp only [failEffect, hspawns]
    exact hinv.quiet s.foreground hstep hspawn hremove
  | some entry =>
    obtain ⟨key, generation⟩ := entry
    simp only [failEffect, hspawns, foldl_emit]
    cases Supervisor.startStep_effect h with
    | @spawnFailed _ k call unfenced =>
      simp only [spawns, call] at hspawns
      split at hspawns
      · split_ifs at hspawns
        cases hspawns
        have hnumber : ((s.sup.bumpGeneration key).closeStart c key).generations key =
            s.sup.generations key + 1 := by
          simp [Supervisor.bumpGeneration, Supervisor.closeStart, Supervisor.setLock,
            Supervisor.setCall]
        refine hinv.numbered _ hstep hstage hnumber hremove fun b hb => ?_
        rw [hnone] at hb
        cases hb
      · cases hspawns

/-! ### Every step -/

theorem EventInv.supStep (hinv : EventInv manifest s) {l : Supervisor.Label} {sup : Supervisor}
    (hcond : ∀ c, l = .stop (.lock c) → ∀ entry ∈ removes s c,
      animates manifest s entry.2 = true → (s.marks entry.1).exitAnnounced = false)
    (h : s.sup.step l = some sup) : EventInv manifest { effect manifest s l with sup := sup } := by
  have hentries := hinv.locks.toEntryInv
  cases l with
  | start l =>
    have hstart : s.sup.startStep l = some sup := h
    have hquiet : (∀ c pid, l ≠ .spawn c pid) → (∀ c, l ≠ .retire c) →
        EventInv manifest { s with sup := sup } := by
      intro hspawn hretire
      refine hinv.quiet s.foreground h ?_ ?_
      · rintro c pid ⟨⟩
        exact hspawn c pid rfl
      · exact fun c => ⟨by rintro ⟨⟩; exact hretire c rfl, (by rintro ⟨⟩)⟩
    cases l with
    | spawn c pid => exact hinv.spawned h
    | spawnFailed c => exact hinv.spawnFailed h ⟨.ended, rfl⟩
    | retire c =>
      refine hinv.removed (.inl rfl) h fun i inst hremoves _ => ?_
      -- a live process has not been announced as exited
      cases Supervisor.startStep_effect hstart with
      | @retire _ key j a call entry live stale =>
        simp only [removes, call, entry, Option.some.injEq, Prod.mk.injEq] at hremoves
        obtain ⟨rfl, rfl⟩ := hremoves
        cases hmark : (s.marks j).exitAnnounced with
        | false => rfl
        | true =>
          obtain ⟨b, hb, hretired, -⟩ := hinv.announced j hmark
          rw [(Supervisor.current_eq_some.mp entry).2] at hb
          cases hb
          rw [hretired.exited] at live
          cases live
    | retireFailed c =>
      exact hinv.removeFailed c h (by simp) fun c' => ⟨(by rintro ⟨⟩), (by rintro ⟨⟩)⟩
    | retired c =>
      refine hinv.terminated h (by simp) (fun c' => ⟨(by rintro ⟨⟩), (by rintro ⟨⟩)⟩) fun call hcall => ?_
      cases Supervisor.startStep_effect hstart with
      | retired call' object exited =>
        simp only [Supervisor.setCall, Function.update_self, Option.some.injEq] at hcall
        subst hcall
        rfl
    | finalize c =>
      cases Supervisor.startStep_effect hstart with
      | @finalize _ key i inst call entry exited pending =>
        obtain ⟨hentry, hobject⟩ := Supervisor.current_eq_some.mp entry
        have hkey := hentries.key_of_current entry
        have hremoves : removes s c = some (i, inst) := by simp [removes, call, entry]
        simp only [effect, hremoves]
        refine hinv.finalize h (by simp) (fun c' => ⟨(by rintro ⟨⟩), (by rintro ⟨⟩)⟩) hobject ?_ exited pending ?_
        · rw [Present, hkey]
          exact hentry
        · rw [hkey]
    | _ => exact hquiet (by simp) (by simp)
  | stop l =>
    have hstop : s.sup.stopStep l = some sup := h
    have hquiet : (∀ c, l ≠ .lock c) → EventInv manifest { s with sup := sup } := by
      intro hlock
      refine hinv.quiet s.foreground h (by simp) ?_
      exact fun c => ⟨(by rintro ⟨⟩), by rintro ⟨⟩; exact hlock c rfl⟩
    cases l with
    | lock c =>
      exact hinv.removed (.inr rfl) h fun i inst hremoves => hcond c rfl (i, inst) hremoves
    | lockFailed c => exact hinv.removeFailed c h (by simp) fun c' => ⟨(by rintro ⟨⟩), (by rintro ⟨⟩)⟩
    | terminated c =>
      refine hinv.terminated h (by simp) (fun c' => ⟨(by rintro ⟨⟩), (by rintro ⟨⟩)⟩) fun call hcall => ?_
      cases Supervisor.stopStep_effect hstop with
      | terminated call' object exited =>
        simp [Supervisor.setLock, Supervisor.closeStop, Supervisor.setStopRequest,
          Supervisor.setCall] at hcall
    | _ => exact hquiet (by simp)
  | life l =>
    have hquiet : ∀ f, EventInv manifest { s with sup := sup, foreground := f } :=
      fun f => hinv.quiet f h (by simp) fun c => ⟨(by rintro ⟨⟩), (by rintro ⟨⟩)⟩
    cases l with
    | watcherFinalize i =>
      have hlife : s.sup.lifeStep (.watcherFinalize i) = some sup := h
      simp only [Supervisor.lifeStep] at hlife
      split at hlife
      next inst hobject =>
        split_ifs at hlife with hguard
        simp only [Bool.and_eq_true, Bool.not_eq_true', Supervisor.isCurrent,
          decide_eq_true_eq] at hguard
        exact hinv.finalize h (by simp) (fun c => ⟨(by rintro ⟨⟩), (by rintro ⟨⟩)⟩) hobject hguard.1.1 hguard.1.2
          hguard.2 (Option.some.inj hlife).symm
      · cases hlife
    | channelClosed i =>
      simp only [effect, forgetEffect]
      split
      · exact hquiet _
      · exact hquiet s.foreground
    | _ => exact hquiet s.foreground
  | lease l => exact hinv.quiet s.foreground h (by simp) fun c => ⟨(by rintro ⟨⟩), (by rintro ⟨⟩)⟩

theorem EventInv.readyStep (hinv : EventInv manifest s) {i : ℕ} {delivered : Bool} {s' : State}
    (hcond : (s.marks i).launched = false → (s.marks i).closing = false)
    (h : readyStep manifest s i delivered = some s') : EventInv manifest s' := by
  unfold Transitions.readyStep at h
  split at h
  next inst hobject =>
    split_ifs at h with hguard hemits
    · cases h
      simp only [Bool.and_eq_true, Supervisor.isCurrent, decide_eq_true_eq] at hguard
      obtain ⟨hready, hpresent⟩ := hguard
      simp only [Bool.and_eq_true, Bool.not_eq_true'] at hemits
      obtain ⟨hforeground, hflag⟩ := hemits
      -- an instance whose exit was announced is not ready
      have hquiet : (s.marks i).exitAnnounced = false := by
        cases hmark : (s.marks i).exitAnnounced with
        | false => rfl
        | true =>
          obtain ⟨a, ha, -, hdead⟩ := hinv.announced i hmark
          rw [hobject] at ha
          cases ha
          rw [hready] at hdead
          cases hdead
      have hopen := hinv.unfinished_of_present hobject hpresent hquiet
      obtain ⟨st, hst⟩ := hinv.grammar inst.key inst.generation
      have hsound := hinv.sound i inst hobject st hst
      have hstarting : st = .starting := by
        cases st with
        | fresh => exact (hinv.begun i inst hobject hforeground hst).elim
        | starting => rfl
        | shown => exact (hsound.shown hflag rfl).elim
        | closing => exact (hsound.closing (hcond hflag) rfl).elim
        | ended => exact (hopen.pending hst).elim
      subst hstarting
      have hmarked : EventInv manifest (s.mark i fun m => { m with launched := true }) := by
        refine hinv.mark hobject _ (.inl rfl) fun st hst => ?_
        have hsound := hinv.sound i inst hobject st hst
        exact ⟨(by rintro ⟨⟩), hsound.closing, hsound.ended⟩
      unfold emitIf
      split_ifs
      · refine hmarked.emit hobject hst rfl ⟨fun hfalse => ?_, (by simp), (by rintro ⟨⟩)⟩ (by rintro ⟨⟩)
        simp [State.mark] at hfalse
      · exact hmarked
    · cases h
      exact hinv
  · cases h

theorem EventInv.announceStep (hinv : EventInv manifest s) (delivered : Bool) :
    EventInv manifest (announceStep manifest s delivered) := by
  unfold Transitions.announceStep
  split
  next i inst hfound =>
    obtain ⟨key, hfind, hcurrent⟩ := Option.bind_eq_some_iff.mp hfound
    have htest := List.find?_some hfind
    simp only [announceable, hcurrent, Bool.and_eq_true, Bool.not_eq_true'] at htest
    obtain ⟨⟨⟨-, hforeground⟩, hflag⟩, hrunning⟩ := htest
    obtain ⟨hentry, hobject⟩ := Supervisor.current_eq_some.mp hcurrent
    have hpresent : Present s.sup i inst := by
      rw [Present, hinv.locks.toEntryInv.key_of_current hcurrent]
      exact hentry
    have hquiet : (s.marks i).exitAnnounced = false := by
      cases hmark : (s.marks i).exitAnnounced with
      | false => rfl
      | true =>
        obtain ⟨a, ha, hretired, -⟩ := hinv.announced i hmark
        rw [hobject] at ha
        cases ha
        rw [hretired.exited] at hrunning
        cases hrunning
    have hopen := hinv.unfinished_of_present hobject hpresent hquiet
    unfold emitIf
    split_ifs
    · exact (hinv.emit_closing hopen hforeground hflag).1
    · refine hinv.mark hobject _ (.inl rfl) fun st hst => ?_
      have hsound := hinv.sound i inst hobject st hst
      exact ⟨hsound.shown, (by rintro ⟨⟩), hsound.ended⟩
  · exact hinv

theorem EventInv.finalizedStep (hinv : EventInv manifest s) {i : ℕ} {clean : Bool} {s' : State}
    (h : finalizedStep manifest s i clean = some s') : EventInv manifest s' := by
  unfold Transitions.finalizedStep at h
  split at h
  next inst hobject =>
    by_cases hbusy : s.finalizing i = true
    swap
    · simp [hbusy] at h
    rw [if_pos hbusy] at h
    obtain ⟨-, a, hopen, hretired⟩ := hinv.finalizing i hbusy
    have ha := hopen.object
    rw [hobject] at ha
    cases ha
    have hclosed : s.sup.step (.life (.channelClosed i)) =
        some (s.sup.modify i fun inst => { inst with ready := false }) := by
      simp [Supervisor.step, Supervisor.lifeStep, hobject, hretired.finalized]
    have hmoved := (hinv.interrupt i).quiet (s.foreground.forgetForeground inst.key) hclosed (by simp)
      fun c => ⟨(by rintro ⟨⟩), (by rintro ⟨⟩)⟩
    have hafter : (s.sup.modify i fun inst => { inst with ready := false }).heap i =
        some { inst with ready := false } := by
      simp [Supervisor.modify, hobject]
    have hmarked := hmoved.mark hafter (fun m => { m with exitAnnounced := true })
      (.inr ⟨by simp, ⟨hretired.finalized, hretired.exited, hretired.unread⟩, rfl⟩)
      fun st hst =>
        have hsound := hmoved.sound i _ hafter st hst
        ⟨hsound.shown, hsound.closing, fun _ => .inl rfl⟩
    have hstops : ∀ c call, s.sup.calls c = some call → call.terminates = some (inst.key, i) →
        s.animate c = false := by
      intro c call hcall hends
      cases hc : s.animate c with
      | false => rfl
      | true =>
        obtain ⟨hidle, -⟩ := hinv.terminating c call inst.key i hcall hends hc
        rw [hbusy] at hidle
        cases hidle
    have hlast : (if clean then Transition.closed else .failed) = .closed ∨
        (if clean then Transition.closed else .failed) = .failed := by
      cases clean with
      | true => exact .inl rfl
      | false => exact .inr rfl
    simp only [forgetEffect, hobject] at h
    split at h
    next hanimate =>
      cases h
      exact hmarked.emit_last ⟨hafter, hopen.pending⟩ (Bool.and_eq_true_iff.mp hanimate).1 hlast
        (.inl (by simp [State.mark])) (by simp [State.mark]) hstops
    · cases h
      exact hmoved
  · cases h

end

/-- No `launched` is due for an instance whose closing was announced, and no stop removes an
instance whose exit was announced. -/
def Orderly (manifest : Component → Manifest) (s : State) : Label → Prop
  | .ready i _ => (s.marks i).launched = false → (s.marks i).closing = false
  | .sup (.stop (.lock c)) => ∀ entry ∈ removes s c, animates manifest s entry.2 = true →
    (s.marks entry.1).exitAnnounced = false
  | _ => True

theorem EventInv.step {manifest : Component → Manifest} {s s' : State} {l : Label}
    (hinv : EventInv manifest s) (hcond : Orderly manifest s l)
    (h : step manifest s l = some s') : EventInv manifest s' := by
  cases l with
  | sup l =>
    obtain ⟨sup, hsup, rfl⟩ := Option.map_eq_some_iff.mp h
    refine hinv.supStep ?_ hsup
    rintro c rfl
    exact hcond
  | spawnRaised c launching =>
    obtain ⟨sup, hsup, rfl⟩ := Option.map_eq_some_iff.mp h
    refine hinv.spawnFailed hsup ?_
    cases launching with
    | true => exact ⟨.starting, rfl⟩
    | false => exact ⟨.fresh, rfl⟩
  | ready i delivered => exact hinv.readyStep hcond h
  | announce delivered =>
    cases h
    exact hinv.announceStep delivered
  | finalized i clean => exact hinv.finalizedStep h
  | interrupt i =>
    cases h
    exact hinv.interrupt i
  | foreground f =>
    cases h
    exact ⟨hinv.locks, hinv.generations, hinv.fresh, hinv.grammar, hinv.begun, hinv.sound,
      hinv.announced, hinv.finalizing, hinv.terminating⟩

/-- Along an orderly run, the events of every generation are a prefix of the grammar. -/
theorem grammatical_of_orderly (manifest : Component → Manifest)
    (components : PyStr → Option Component) (roles : List (PyStr × RoleState))
    (ls : List Label) (s : State)
    (halong : Along (step manifest) (Orderly manifest) (initial (.initial components roles)) ls)
    (hrun : run (step manifest) (initial (.initial components roles)) ls = some s) :
    ∀ key generation, Grammatical (s.log key generation) := by
  have hinv : EventInv manifest s :=
    run_invariant (fun _ _ _ hs hcond hstep => hs.step hcond hstep) ls
      (eventInv_initial manifest components roles) halong hrun
  intro key generation
  obtain ⟨st, hst⟩ := hinv.grammar key generation
  exact grammatical_of_stage hst

instance (manifest : Component → Manifest) (s : State) :
    (l : Label) → Decidable (Orderly manifest s l)
  | .ready _ _ => inferInstanceAs (Decidable (_ → _))
  | .sup (.stop (.lock _)) => inferInstanceAs (Decidable (∀ entry ∈ removes s _, _))
  | .sup (.start _) | .sup (.life _) | .sup (.lease _) | .sup (.stop (.enter _ _))
  | .sup (.stop (.retryEnded _)) | .sup (.stop (.retryCancelled _)) | .sup (.stop (.suspended _))
  | .sup (.stop (.lockFailed _)) | .sup (.stop (.terminated _)) | .sup (.stop (.cancelled _))
  | .sup (.stop (.abort _)) | .spawnRaised _ _ | .announce _ | .finalized _ _ | .interrupt _
  | .foreground _ => isTrue trivial

/-- Every component is an application of the user with a window. -/
def windowManifest (_ : Component) : Manifest :=
  ⟨lit "x11", lit "inherit", lit "window", lit "manual", []⟩

/-- `a` is started and shown. -/
def showA : List Label :=
  Supervisor.startA.map .sup ++ [.sup (.life (.readyMessage 0)), .ready 0 true]

/-- The window manager announces the close of `a`, which is then stopped. -/
def closeA : List Label :=
  showA ++ [.announce true] ++ (Supervisor.stopA 1).map .sup ++
    [.sup (.life (.exit 0)), .sup (.stop (.terminated 1))]

theorem closeA_grammatical : ∃ s, run (step windowManifest)
      (initial (.initial Supervisor.oneComponent [])) closeA = some s ∧
    s.log (lit "a") 1 = [.launching, .launched, .closing, .closed] ∧
    ∀ key generation, Grammatical (s.log key generation) := by
  have hlast : (run (step windowManifest) (initial (.initial Supervisor.oneComponent []))
      closeA).map (fun s => s.log (lit "a") 1) =
      some [.launching, .launched, .closing, .closed] := by
    decide +kernel
  have halong : Along (step windowManifest) (Orderly windowManifest)
      (initial (.initial Supervisor.oneComponent [])) closeA := by
    decide +kernel
  obtain ⟨s, hrun, hs⟩ := Option.map_eq_some_iff.mp hlast
  exact ⟨s, hrun, hs, grammatical_of_orderly windowManifest Supervisor.oneComponent [] closeA s
    halong hrun⟩

/-- The process of `a` exits by itself, and the entry that is left is stopped later. -/
def stopAfterExit : List Label :=
  showA ++ [.sup (.life (.exit 0)), .sup (.life (.watcherFinalize 0)), .finalized 0 true] ++
    (Supervisor.stopA 1).map .sup

/-- `closing` follows `closed`. -/
theorem stopAfterExit_ungrammatical :
    ¬ ∀ (manifest : Component → Manifest) (components : PyStr → Option Component)
      (roles : List (PyStr × RoleState)) (ls : List Label) (s : State),
      run (step manifest) (initial (.initial components roles)) ls = some s →
        ∀ key generation, Grammatical (s.log key generation) := by
  intro hall
  have hlast : (run (step windowManifest) (initial (.initial Supervisor.oneComponent []))
      stopAfterExit).map (fun s => s.log (lit "a") 1) =
      some [.launching, .launched, .closed, .closing] := by
    decide +kernel
  obtain ⟨s, hrun, hs⟩ := Option.map_eq_some_iff.mp hlast
  obtain ⟨launched, closing, last, hend, hprefix⟩ :=
    hall windowManifest Supervisor.oneComponent [] stopAfterExit s hrun (lit "a") 1
  rw [hs] at hprefix
  cases launched <;> cases closing <;> rcases hend with rfl | rfl <;> revert hprefix <;> decide

end MsysCore.Core.Transitions
