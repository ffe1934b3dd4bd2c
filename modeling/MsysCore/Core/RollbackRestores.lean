import MsysCore.Core.RollbackSteps

/-!
# Rolled back migrations restore the display

A migration that fails past the commit of the provider, with a rollback that reports no failure
and during which no process dies, leaves the role as it was, the old provider and the
consumers ready, and the new provider stopped.
-/

namespace MsysCore.Core.DisplayRollback

open Python Attempts
open Display (inheritsVisualSession)
open Supervisor (displayRole)
open RoleSwitch (Before Selection Undoable ReadFrom)

variable {env : Surroundings} {catalog : Catalog} {s t : State} {key : PyStr}
  {roles : List (PyStr × RoleState)}

/-! ## What every migration keeps -/

/-- The component of the key is a client of the visual session. -/
def Visual (catalog : Catalog) (key : PyStr) : Prop :=
  ∃ component, catalog.components key = some component ∧
    inheritsVisualSession (catalog.manifest component) = true

/-- The candidates stay, and an attempted consumer has lost its original instance. -/
structure Sane (catalog : Catalog) (roles : List (PyStr × RoleState)) (s : State) : Prop where
  inStep : s.selection.registry.InStep
  roles : s.selection.registry.roles = roles
  originals : ∀ key object, s.locals.originals key = some object → object < s.instances.nextObject
  visual : ∀ key ∈ s.locals.attempted, Visual catalog key
  replaced : ∀ key ∈ s.locals.attempted, ∀ object, s.locals.originals key = some object →
    s.objectOf key ≠ some object

/-- A lost object does not come back. -/
theorem Change.lost (h : Change s t) {object : ℕ} (hissued : object < s.instances.nextObject)
    (hlost : s.objectOf key ≠ some object) : t.objectOf key ≠ some object := by
  intro hobject
  rcases h.objects key object hobject with hold | hnew
  · exact hlost hold
  · omega

theorem Sane.change (h : Sane catalog roles s) (hchange : Change s t) : Sane catalog roles t where
  inStep := hchange.inStep
  roles := hchange.roles.trans h.roles
  originals := by
    intro key object horiginal
    rw [hchange.locals] at horiginal
    exact (h.originals key object horiginal).trans_le hchange.numbers
  visual := by
    rw [hchange.locals]
    exact h.visual
  replaced := by
    rw [hchange.locals]
    intro key hkey object horiginal
    exact hchange.lost (h.originals key object horiginal) (h.replaced key hkey object horiginal)

/-- A consumer is attempted, and what happens next takes its original instance away. -/
theorem Sane.attempted (h : Sane catalog roles s) (hvisual : Visual catalog key)
    (hchange : Change (attempted key s) t)
    (hlost : ∀ object, s.locals.originals key = some object → t.objectOf key ≠ some object) :
    Sane catalog roles t where
  inStep := hchange.inStep
  roles := hchange.roles.trans h.roles
  originals := by
    intro other object horiginal
    rw [hchange.locals] at horiginal
    exact (h.originals other object horiginal).trans_le hchange.numbers
  visual := by
    rw [hchange.locals]
    intro other hother
    rcases List.mem_append.mp hother with hold | hnew
    · exact h.visual other hold
    · exact List.mem_singleton.mp hnew ▸ hvisual
  replaced := by
    rw [hchange.locals]
    intro other hother object horiginal
    rcases List.mem_append.mp hother with hold | hnew
    · exact hchange.lost (h.originals other object horiginal)
        (h.replaced other hold object horiginal)
    · rw [List.mem_singleton.mp hnew] at horiginal ⊢
      exact hlost object horiginal

variable {α : Type} {m : Migrating α}

/-- The computation does not leave the migration, and its notes stay. -/
def Tame (catalog : Catalog) (roles : List (PyStr × RoleState)) (m : Migrating α) : Prop :=
  ∀ s, Sane catalog roles s → Sane catalog roles (finalState (m.run s)) ∧
    (finalState (m.run s)).locals = s.locals ∧ (finalState (m.run s)).failures = s.failures

theorem tame_of_change (h : ∀ s, Keeps (Change s) m) : Tame catalog roles m := by
  intro s hs
  have hchange := h s s (Change.refl hs.inStep)
  exact ⟨hs.change hchange, hchange.locals, hchange.failures⟩

theorem Tame.bind {β : Type} {f : α → Migrating β} (hm : Tame catalog roles m)
    (hf : ∀ a, Tame catalog roles (f a)) : Tame catalog roles (m >>= f) := by
  intro s hs
  obtain ⟨hsane, hlocals, hfailures⟩ := hm s hs
  rw [EStateM.run_bind]
  cases hrun : m.run s with
  | error e t =>
    rw [hrun] at hsane hlocals hfailures
    exact ⟨hsane, hlocals, hfailures⟩
  | ok a t =>
    rw [hrun] at hsane hlocals hfailures
    obtain ⟨hsane', hlocals', hfailures'⟩ := hf a t hsane
    exact ⟨hsane', hlocals'.trans hlocals, hfailures'.trans hfailures⟩

theorem tame_get : Tame catalog roles (get : Migrating State) := fun _ hs => ⟨hs, rfl, rfl⟩

theorem tame_pure (a : α) : Tame catalog roles (pure a) := fun _ hs => ⟨hs, rfl, rfl⟩

theorem tame_selecting {m : RoleSwitch.Switching α}
    (h : ∀ selection, Keeps (Undoable displayRole selection) m) :
    Tame catalog roles (selecting m) := by
  intro s hs
  have hfinal := h s.selection s.selection (Undoable.refl displayRole hs.inStep)
  have hsane : ∀ selection, Undoable displayRole s.selection selection →
      Sane catalog roles { s with selection := selection } := by
    intro selection hselection
    exact ⟨hselection.inStep, hselection.registry.roles.trans hs.roles, hs.originals, hs.visual,
      hs.replaced⟩
  simp only [EStateM.run, selecting]
  cases hrun : m.run s.selection with
  | ok value selection =>
    rw [hrun] at hfinal
    simp only [EStateM.run] at hrun
    simp only [hrun]
    exact ⟨hsane selection hfinal, rfl, rfl⟩
  | error fault selection =>
    rw [hrun] at hfinal
    simp only [EStateM.run] at hrun
    simp only [hrun]
    exact ⟨hsane selection hfinal, rfl, rfl⟩

theorem tame_ensureReady (env : Surroundings) (key : PyStr) :
    Tame catalog roles (ensureReady env catalog key) :=
  tame_of_change fun s => (stable_change env catalog (fun _ => True) s).ensureReady trivial

theorem tame_stopComponent (env : Surroundings) (key : PyStr) (expected : ℕ) :
    Tame catalog roles (stopComponent env catalog key expected) :=
  tame_of_change fun s => (stable_change env catalog (fun _ => True) s).stopComponent trivial _

theorem tame_retireDisplayProvider (env : Surroundings) (key : PyStr) :
    Tame catalog roles (retireDisplayProvider env catalog key) :=
  tame_of_change fun s =>
    (stable_change env catalog (fun _ => True) s).retireDisplayProvider trivial

theorem tame_await (env : Surroundings) : Tame catalog roles (await env catalog) :=
  tame_of_change fun s => (stable_change env catalog (fun _ => True) s).await

theorem tame_suspend (env : Surroundings) : Tame catalog roles (suspend env catalog) :=
  tame_of_change fun s => (stable_change env catalog (fun _ => True) s).suspend

theorem tame_attempt (env : Surroundings) : Tame catalog roles (attempt env) :=
  tame_of_change fun s => (stable_change env catalog (fun _ => True) s).attempt

theorem tame_require (condition : Bool) (fault : Fault) :
    Tame catalog roles (require condition fault) :=
  tame_of_change fun _ => Stable.require condition fault

theorem tame_restoreForeground (keys : List PyStr) :
    Tame catalog roles (modify (restoreForeground keys)) :=
  fun _ hs => ⟨⟨hs.inStep, hs.roles, hs.originals, hs.visual, hs.replaced⟩, rfl, rfl⟩

theorem Tame.keeps (h : Tame catalog roles m) : Keeps (Sane catalog roles) m :=
  fun s hs => (h s hs).1

/-! ## The `try` block -/

theorem keeps_stopOriginal (hvisual : Visual catalog key) (hs : Sane catalog roles s) :
    Sane catalog roles (finalState ((stopOriginal env catalog key).run (attempted key s))) := by
  have hstart : Change (attempted key s) (attempted key s) := Change.refl hs.inStep
  rw [stopOriginal, run_bind_of_ok (show (get : Migrating State).run (attempted key s) =
    .ok (attempted key s) (attempted key s) from rfl)]
  have hsame : (attempted key s).locals.originals key = s.locals.originals key := rfl
  cases horiginal : s.locals.originals key with
  | none =>
    simp only [hsame, horiginal]
    refine hs.attempted hvisual hstart fun object hobject => ?_
    rw [horiginal] at hobject
    cases hobject
  | some original =>
    have hsuspend : (suspend env catalog).run (attempted key s) =
        .ok () ((attempted key s).suspended env catalog) := rfl
    have hchange := change_suspended hs.inStep env catalog (s := attempted key s)
    generalize hmid : (attempted key s).suspended env catalog = mid at hsuspend hchange
    simp only [hsame, horiginal]
    rw [stopComponent, run_bind_of_ok hsuspend,
      run_bind_of_ok (show (get : Migrating State).run mid = .ok mid mid from rfl)]
    have hlost : ∀ t, Change (attempted key s) t → t.objectOf key ≠ some original →
        Sane catalog roles t := by
      intro t ht hobject
      refine hs.attempted hvisual ht fun object hsome => ?_
      rw [horiginal] at hsome
      cases hsome
      exact hobject
    cases hentry : mid.instances.get key with
    | none =>
      refine hlost mid hchange ?_
      rw [State.objectOf, hentry]
      intro heq
      cases heq
    | some entry =>
      dsimp only
      split_ifs with hobject
      · have hpopped := hchange.trans (change_popped hchange.inStep key)
        have hsane : Sane catalog roles (mid.popped key) := by
          refine hlost (mid.popped key) hpopped ?_
          rw [State.objectOf, show (mid.popped key).instances = mid.instances.pop key from rfl,
            Instances.get_pop, if_pos rfl]
          intro heq
          cases heq
        have hend : Tame catalog roles (endInstance env catalog key entry.component) :=
          tame_of_change fun s =>
            (stable_change env catalog (fun _ => True) s).endInstance trivial _
        exact hend.keeps _ hsane
      · refine hlost mid hchange ?_
        rw [State.objectOf, hentry]
        intro heq
        exact hobject (Option.some.inj heq)

theorem keeps_restartConsumers (keys : List PyStr) : (∀ key ∈ keys, Visual catalog key) →
    Keeps (Sane catalog roles) (restartConsumers env catalog keys) := by
  induction keys with
  | nil =>
    intro _
    exact keeps_pure ()
  | cons key keys ih =>
    intro hvisual
    obtain ⟨hfirst, hrest⟩ := List.forall_mem_cons.mp hvisual
    have hstop : Keeps (Sane catalog roles) (do
        modify (attempted key)
        stopOriginal env catalog key) := fun s hs => keeps_stopOriginal hfirst hs
    have hnext : Keeps (Sane catalog roles) (do
        let replacement ← ensureReady env catalog key
        let s ← get
        require (stillReady s key replacement.object) (.consumerNotReady key)
        restartConsumers env catalog keys) := by
      refine (tame_ensureReady env key).keeps.bind fun replacement => ?_
      refine tame_get.keeps.bind fun s => ?_
      exact (tame_require _ _).keeps.bind fun _ => ih hrest
    exact hstop.bind fun _ => hnext

theorem visual_of_mem (h : key ∈ orderedVisualConsumers catalog s) : Visual catalog key := by
  have hmem := Display.mem_orderVisualConsumerKeys.mp h
  obtain ⟨entry, hentry, rfl⟩ := List.mem_map.mp hmem
  obtain ⟨-, htest⟩ := List.mem_filter.mp hentry
  simp only [Bool.and_eq_true, decide_eq_true_eq] at htest
  exact ⟨entry.2.component, htest.1.2, htest.2⟩

/-- Nothing has been attempted yet. -/
def Starting (catalog : Catalog) (roles : List (PyStr × RoleState)) (s : State) : Prop :=
  Sane catalog roles s ∧ s.locals.attempted = []

theorem Tame.starting (h : Tame catalog roles m) : Keeps (Starting catalog roles) m := by
  intro s hs
  obtain ⟨hsane, hlocals, -⟩ := h s hs.1
  exact ⟨hsane, by rw [hlocals, hs.2]⟩

/-- A computation that keeps more than what has to hold when it raises. -/
theorem ends_of_starting (h : Keeps (Starting catalog roles) m) :
    Ends (Starting catalog roles) m (fun _ => Starting catalog roles) (Sane catalog roles) := by
  intro s hs
  have hfinal := h s hs
  cases hrun : m.run s with
  | ok a t =>
    rw [hrun] at hfinal
    exact hfinal
  | error e t =>
    rw [hrun] at hfinal
    exact hfinal.1

theorem sane_switched (h : Starting catalog roles s) (consumers : List PyStr) :
    Sane catalog roles (switched consumers s) := by
  obtain ⟨hsane, hnone⟩ := h
  refine ⟨hsane.inStep, hsane.roles, ?_, ?_, ?_⟩
  · intro key object horiginal
    simp only [switched] at horiginal
    split_ifs at horiginal
    obtain ⟨entry, hentry, rfl⟩ := Option.map_eq_some_iff.mp horiginal
    exact s.instances.issued key entry hentry
  · intro key hkey
    rw [show (switched consumers s).locals.attempted = s.locals.attempted from rfl, hnone] at hkey
    cases hkey
  · intro key hkey
    rw [show (switched consumers s).locals.attempted = s.locals.attempted from rfl, hnone] at hkey
    cases hkey

theorem tame_applyDisplayPreference (provider mode holder : PyStr) :
    Tame catalog roles (selecting (applyDisplayPreference provider mode holder)) := by
  refine tame_selecting fun selection => ?_
  refine (RoleSwitch.keeps_setPreference provider mode).bind fun _ => ?_
  refine RoleSwitch.keeps_releaseActive.bind fun _ => ?_
  exact (RoleSwitch.keeps_acquire _ _).bind fun _ => keeps_pure _

theorem tame_readBefore : Tame catalog roles (selecting (RoleSwitch.readBefore displayRole)) :=
  tame_selecting fun _ => RoleSwitch.keeps_readBefore displayRole

theorem ends_commitProvider (provider mode : PyStr) (new : Entry) :
    Ends (Starting catalog roles) (commitProvider catalog provider mode new)
      (fun committed t => Sane catalog roles t ∧ ∀ key ∈ committed.1, Visual catalog key)
      (Sane catalog roles) := by
  refine (ends_of_starting (tame_require _ _).starting).bind fun _ => ?_
  refine (ends_of_starting tame_get.starting).bind fun s => ?_
  have hvisual : ∀ key ∈ orderedVisualConsumers catalog s, Visual catalog key :=
    fun key hkey => visual_of_mem hkey
  have hswitched : Ends (Starting catalog roles)
      (modify (switched (orderedVisualConsumers catalog s)) : Migrating PUnit)
      (fun _ => Sane catalog roles) (Sane catalog roles) :=
    ends_modify fun _ h => sane_switched h _
  refine hswitched.bind fun _ => ?_
  refine (tame_applyDisplayPreference _ _ _).keeps.ends.bind fun _ => ?_
  refine tame_readBefore.keeps.ends.bind fun after => ?_
  exact ends_pure fun _ h => ⟨h, hvisual⟩

theorem tame_retireOld (env : Surroundings) (provider : PyStr) (old : Option PyStr) :
    Tame catalog roles (retireOld env catalog provider old) := by
  cases old with
  | none => exact tame_pure ()
  | some old =>
    refine tame_get.bind fun s => ?_
    split_ifs
    · exact tame_retireDisplayProvider env old
    · exact tame_pure ()

/-- Wherever the block stops, what a rollback relies on holds. -/
theorem sane_transact (hs : Starting catalog roles s) (snapshot : Snapshot)
    (provider mode : PyStr) :
    Sane catalog roles
      (finalState ((transact env catalog snapshot provider mode).run s)) := by
  have hends : Ends (Starting catalog roles) (transact env catalog snapshot provider mode)
      (fun _ => Sane catalog roles) (Sane catalog roles) := by
    refine (ends_of_starting (tame_ensureReady env provider).starting).bind fun new => ?_
    refine (ends_of_starting tame_get.starting).bind fun s => ?_
    refine (ends_of_starting (tame_require _ _).starting).bind fun _ => ?_
    refine (ends_of_starting (tame_suspend env).starting).bind fun _ => ?_
    refine (ends_commitProvider provider mode new).bind fun committed => ?_
    have hrestart : Ends
        (fun t => Sane catalog roles t ∧ ∀ key ∈ committed.1, Visual catalog key)
        (restartInvalidated env catalog
          (sessionInvalidated snapshot provider new committed.2) committed.1)
        (fun _ => Sane catalog roles) (Sane catalog roles) := by
      rintro t ⟨hsane, hvisual⟩
      have hkeeps : Keeps (Sane catalog roles) (restartInvalidated env catalog
          (sessionInvalidated snapshot provider new committed.2) committed.1) := by
        unfold restartInvalidated
        split_ifs
        · exact keeps_restartConsumers committed.1 hvisual
        · exact keeps_pure ()
      exact hkeeps.ends t hsane
    refine hrestart.bind fun _ => ?_
    have hrest : Tame catalog roles (do
        let s ← get
        require (catalog.components provider = some new.component &&
          ownsActiveDisplayOutput catalog s provider new) .generationChanged
        modify (restoreForeground snapshot.foreground)
        await env catalog
        let s ← get
        require (ownsActiveDisplayOutput catalog s provider new) .generationChanged
        attempt env
        retireOld env catalog provider snapshot.provider
        await env catalog) := by
      refine tame_get.bind fun s => (tame_require _ _).bind fun _ => ?_
      refine (tame_restoreForeground _).bind fun _ => (tame_await env).bind fun _ => ?_
      refine tame_get.bind fun s => (tame_require _ _).bind fun _ => ?_
      refine (tame_attempt env).bind fun _ => ?_
      exact (tame_retireOld env provider _).bind fun _ => tame_await env
    exact hrest.keeps.ends
  have hfinal := hends s hs
  cases hrun : (transact env catalog snapshot provider mode).run s with
  | ok a t =>
    rw [hrun] at hfinal
    exact hfinal
  | error e t =>
    rw [hrun] at hfinal
    exact hfinal

/-! ## Stages of a rollback -/

/-- A stage of the rollback has been reached; its facts hold unless something was noted. -/
def Stage (catalog : Catalog) (roles : List (PyStr × RoleState)) (l : Locals) (Q : State → Prop)
    (s : State) : Prop :=
  Sane catalog roles s ∧ s.locals = l ∧ (s.failures = [] → Q s)

/-- When the computation returns, it has led from one fact to another. -/
def Leads (catalog : Catalog) (roles : List (PyStr × RoleState)) (l : Locals)
    (Q R : State → Prop) (m : Migrating Unit) : Prop :=
  ∀ s t, Sane catalog roles s → s.locals = l → Q s → m.run s = .ok () t → R t

variable {l : Locals} {Q R : State → Prop}

theorem ends_guarded {m : Migrating Unit} (step : PyStr) (htame : Tame catalog roles m)
    (hleads : Leads catalog roles l Q R m) :
    Ends (Stage catalog roles l Q) (guarded step m)
      (fun passed => Stage catalog roles l fun t => passed = true ∧ R t) (fun _ => False) := by
  rintro s ⟨hsane, hlocals, hQ⟩
  obtain ⟨hsane', hlocals', hfailures⟩ := htame s hsane
  unfold guarded
  rw [run_tryCatch]
  cases hrun : m.run s with
  | ok u t =>
    rw [hrun] at hsane' hlocals' hfailures
    rw [run_bind_of_ok hrun]
    refine ⟨hsane', hlocals'.trans hlocals, fun hnone => ⟨rfl, ?_⟩⟩
    exact hleads s t hsane hlocals (hQ (hfailures.symm.trans hnone)) hrun
  | error e t =>
    rw [hrun] at hsane' hlocals' hfailures
    rw [run_bind_of_error hrun]
    refine ⟨⟨hsane'.inStep, hsane'.roles, hsane'.originals, hsane'.visual, hsane'.replaced⟩,
      hlocals'.trans hlocals, ?_⟩
    intro hnone
    have hnoted : t.failures ++ [(step, e)] = [] := hnone
    simp at hnoted

theorem Stage.mono (h : Stage catalog roles l Q s) (himp : s.failures = [] → Q s → R s) :
    Stage catalog roles l R s :=
  ⟨h.1, h.2.1, fun hnone => himp hnone (h.2.2 hnone)⟩

theorem ends_stage_get {E : State → Prop} :
    Ends (Stage catalog roles l Q) (get : Migrating State)
      (fun a s => a = s ∧ Stage catalog roles l Q s) E := ends_get

theorem stage_enter (h : Stage catalog roles l Q s) (phase : Phase)
    (himp : Q s → Q (enter phase s)) :
    Stage catalog roles { l with phase := phase } Q (enter phase s) := by
  obtain ⟨hsane, hlocals, hQ⟩ := h
  refine ⟨⟨hsane.inStep, hsane.roles, hsane.originals, hsane.visual, hsane.replaced⟩, ?_,
    fun hnone => himp (hQ hnone)⟩
  rw [← hlocals]
  rfl

theorem ends_stopNewConsumers (keys : List PyStr) :
    Ends (Stage catalog roles l fun _ => True) (stopNewConsumers env catalog keys)
      (fun _ => Stage catalog roles l fun _ => True) (fun _ => False) := by
  induction keys with
  | nil => exact ends_pure fun _ h => h
  | cons key keys ih =>
    have hfirst : Ends (Stage catalog roles l fun _ => True) (stopNewConsumer env catalog key)
        (fun _ => Stage catalog roles l fun _ => True) (fun _ => False) := by
      refine ends_stage_get.bind fun s => ?_
      cases s.instances.get key with
      | none => exact ends_pure fun _ h => h.2
      | some current =>
        dsimp only
        split_ifs
        · exact ends_pure fun _ h => h.2
        · have hleads : Leads catalog roles l (fun _ => True) (fun _ => True)
              (stopComponent env catalog key current.object) := fun _ _ _ _ _ _ => trivial
          have hguarded := ends_guarded (lit "stop-new-consumer:" ++ key)
            (tame_stopComponent env key current.object) hleads
          have hdone : Ends (Stage catalog roles l fun _ => True)
              (do let _ ← guarded (lit "stop-new-consumer:" ++ key)
                    (stopComponent env catalog key current.object))
              (fun _ => Stage catalog roles l fun _ => True) (fun _ => False) :=
            hguarded.bind fun _ => ends_pure fun _ h => h.mono fun _ _ => trivial
          exact fun t ht => hdone t ht.2
    exact hfirst.bind fun _ => ih

/-! ## Instances that become ready -/

theorem present_eq_ok {entry : Entry} (h : (present key).run s = .ok entry t) :
    s.instances.get key = some entry ∧ t = s := by
  simp only [EStateM.run, present] at h
  cases hget : s.instances.get key with
  | none =>
    rw [hget] at h
    cases h
  | some found =>
    rw [hget] at h
    cases h
    exact ⟨rfl, rfl⟩

theorem require_eq_ok {condition : Bool} {fault : Fault} {u : Unit}
    (h : (require condition fault).run s = .ok u t) : condition = true ∧ t = s := by
  unfold require at h
  split_ifs at h with hcondition
  · cases h
    exact ⟨hcondition, rfl⟩
  · cases h

/-- What a computation keeps holds where it returns. -/
theorem of_keeps {P : State → Prop} {a : α} (h : Keeps P m) (hs : P s)
    (hrun : m.run s = .ok a t) : P t := by
  have hfinal := h s hs
  rw [hrun] at hfinal
  exact hfinal

theorem ready_of_ensureReady {phase : Phase} {entry : Entry}
    (hcalm : ∀ n, ∀ event ∈ env.meanwhile phase n, event.Calm)
    (hstep : s.selection.registry.InStep) (hphase : s.locals.phase = phase)
    (hrun : (ensureReady env catalog key).run s = .ok entry t) : Ready t key := by
  obtain ⟨_, s₁, hstart, hrun₁⟩ := run_bind_eq_ok.mp hrun
  obtain ⟨started, s₂, hpresent, hrun₂⟩ := run_bind_eq_ok.mp hrun₁
  obtain ⟨hstarted, rfl⟩ := present_eq_ok hpresent
  obtain ⟨_, s₃, hrequire, hrun₃⟩ := run_bind_eq_ok.mp hrun₂
  obtain ⟨hrunning, rfl⟩ := require_eq_ok hrequire
  have hchange : Change s s₃ :=
    of_keeps (stable_change env catalog (fun _ => True) s).await (Change.refl hstep) hstart
  have hphase₃ : s₃.locals.phase = phase := by rw [hchange.locals, hphase]
  have hruns : Running s₃ key := ⟨started, hstarted, hrunning, nofun⟩
  -- the wait
  obtain ⟨_, s₄, hwait, hrun₄⟩ := run_bind_eq_ok.mp hrun₃
  obtain ⟨hchange₄, hruns₄⟩ := of_keeps (stable_alive hphase₃ hcalm key false).await
    ⟨Change.refl hchange.inStep, hruns⟩ hwait
  obtain ⟨found, s₅, hpresent', hrun₅⟩ := run_bind_eq_ok.mp hrun₄
  obtain ⟨hfound, rfl⟩ := present_eq_ok hpresent'
  obtain ⟨_, s₆, hrequire', hrun₆⟩ := run_bind_eq_ok.mp hrun₅
  obtain ⟨hready, rfl⟩ := require_eq_ok hrequire'
  have hready₆ : Ready s₆ key := by
    obtain ⟨other, hother, hrunning', -⟩ := hruns₄
    rw [hfound] at hother
    cases hother
    exact ⟨found, hfound, hrunning', fun _ => hready⟩
  -- the leases and the announcement
  obtain ⟨_, s₇, hleased, hrun₇⟩ := run_bind_eq_ok.mp hrun₆
  cases hleased
  have hstep₇ := change_leased hchange₄.inStep catalog key
  have hphase₇ : (s₆.leased catalog key).locals.phase = phase := by
    rw [hstep₇.locals, hchange₄.locals, hphase₃]
  have hready₇ : Ready (s₆.leased catalog key) key := hready₆.congr (by rw [instances_leased])
  obtain ⟨_, s₈, hannounce, hrun₈⟩ := run_bind_eq_ok.mp hrun₇
  obtain ⟨-, hready₈⟩ := of_keeps ((stable_alive hphase₇ hcalm key true).announce _)
    ⟨Change.refl hstep₇.inStep, hready₇⟩ hannounce
  cases hrun₈
  exact hready₈

/-! ## The role comes back -/

/-- The preference is the one that was chosen, and without a choice the first candidate. -/
def PreferenceAgrees (selection : Selection) : Prop :=
  RoleMethods.preferredProvider selection.registry displayRole =
    match OrderedDict.get selection.overrides displayRole with
    | some provider => .ok (some provider)
    | none => (RoleMethods.candidateIds selection.registry displayRole).map List.head?

/-- What the snapshot has read, and of what. -/
structure Origin (origin : Selection) (before : Before) : Prop where
  inStep : origin.registry.InStep
  known : displayRole ∈ origin.registry.roles.map Prod.fst
  read : ReadFrom displayRole origin before
  agrees : PreferenceAgrees origin

variable {origin selection after : Selection} {before : Before}

/-- The role has its preference and its override again. -/
structure Chosen (origin : Selection) (before : Before) (selection : Selection) : Prop where
  inStep : selection.registry.InStep
  roles : selection.registry.roles = origin.registry.roles
  preferred : RoleMethods.preferredProvider selection.registry displayRole = .ok before.preferred
  override : OrderedDict.get selection.overrides displayRole = before.override

theorem chosen_of_select (h : Origin origin before) {provider : PyStr}
    (hoverride : before.override = some provider) (hstep : selection.registry.InStep)
    (hroles : selection.registry.roles = origin.registry.roles) {u : Unit}
    (hrun : (restorePreference (some provider)).run selection = .ok u after) :
    Chosen origin before after := by
  have hset : RoleSwitch.setPreference displayRole provider (lit "select") =
      restorePreference (some provider) := by
    rw [RoleSwitch.setPreference, if_pos rfl]
    rfl
  rw [← hset] at hrun
  have hafter := RoleSwitch.preferred_of_setPreference hstep hrun
  have hagrees := h.agrees
  rw [PreferenceAgrees, ← h.read.override, hoverride, h.read.preferred] at hagrees
  have hpreferred : before.preferred = some provider := Except.ok.inj hagrees
  refine ⟨hafter.inStep, hafter.roles.trans hroles, ?_, ?_⟩
  · rw [hpreferred]
    exact hafter.preferred
  · rw [hoverride]
    exact hafter.selected rfl

theorem chosen_of_reset (h : Origin origin before) (hoverride : before.override = none)
    (hstep : selection.registry.InStep)
    (hroles : selection.registry.roles = origin.registry.roles) {u : Unit}
    (hrun : (restorePreference none).run selection = .ok u after) :
    Chosen origin before after := by
  obtain ⟨found, mid, hcall, hmodify⟩ := run_bind_eq_ok.mp hrun
  obtain ⟨hmethod, -⟩ := RoleSwitch.call_eq_ok.mp hcall
  cases hmodify
  have hagrees := h.agrees
  rw [PreferenceAgrees, ← h.read.override, hoverride, h.read.preferred] at hagrees
  rcases RoleMethods.resetPreferred_cases selection.registry displayRole with
    ⟨preferred, r, hr, heq⟩ | ⟨fault, heq⟩
  · rw [heq] at hmethod
    have hregistry : r = mid.registry := by
      cases hmethod
      rfl
    subst hregistry
    have hsame := (RoleMethods.onlyRole_resetPreferred hr).roles
    obtain ⟨-, hpop⟩ := RoleRegistry.resetPreferred_eq_ok.mp hr
    have hnone : OrderedDict.get mid.registry.preferred displayRole = none := by
      rw [hpop]
      exact OrderedDict.get_pop_self _ _
    refine ⟨hstep.resetPreferred hr, hsame.trans hroles, ?_, ?_⟩
    · obtain ⟨state, hstate, -⟩ := RoleMethods.stateOf_of_mem h.known
      change RoleMethods.preferredProvider mid.registry displayRole = .ok before.preferred
      rw [hagrees]
      unfold RoleMethods.preferredProvider RoleMethods.candidateIds RoleMethods.stateOf
      rw [hsame, hroles, hstate, hnone]
      rfl
    · rw [hoverride]
      exact OrderedDict.get_pop_self _ _
  · rw [heq] at hmethod
    cases hmethod

theorem chosen_of_restorePreference (h : Origin origin before)
    (hstep : selection.registry.InStep)
    (hroles : selection.registry.roles = origin.registry.roles) {u : Unit}
    (hrun : (restorePreference before.override).run selection = .ok u after) :
    Chosen origin before after := by
  cases hoverride : before.override with
  | none =>
    rw [hoverride] at hrun
    exact chosen_of_reset h hoverride hstep hroles hrun
  | some provider =>
    rw [hoverride] at hrun
    exact chosen_of_select h hoverride hstep hroles hrun

theorem selecting_eq_ok {m : RoleSwitch.Switching α} {a : α}
    (h : (selecting m).run s = .ok a t) :
    ∃ selection, m.run s.selection = .ok a selection ∧ t = { s with selection := selection } := by
  simp only [EStateM.run, selecting] at h
  cases hrun : m.run s.selection with
  | ok value selection =>
    simp only [EStateM.run] at hrun
    simp only [hrun] at h
    cases h
    exact ⟨selection, rfl, rfl⟩
  | error fault selection =>
    simp only [EStateM.run] at hrun
    simp only [hrun] at h
    cases h

theorem heldAgain_provider (s : State) (lease : RoleLease) :
    (heldAgain s lease).provider = lease.provider := by
  unfold heldAgain
  split
  · split_ifs <;> rfl
  · rfl

/-- The leases of the snapshot are taken again. -/
theorem roleHeld_of_reacquire (h : Origin origin before)
    (hchosen : Chosen origin before s.selection) (holder : State) {mid : State} {u u' : Unit}
    (hrelease : (selecting (RoleSwitch.releaseActive displayRole)).run s = .ok u mid)
    (hreacquire : (selecting (RoleSwitch.reacquire displayRole
      (before.leases.map (heldAgain holder)))).run mid = .ok u' t) :
    RoleHeld before t ∧ t.instances = s.instances := by
  obtain ⟨emptied, hemptied, rfl⟩ := selecting_eq_ok hrelease
  obtain ⟨last, hlast, rfl⟩ := selecting_eq_ok hreacquire
  have hknown : displayRole ∈ s.selection.registry.roles.map Prod.fst := by
    rw [hchosen.roles]
    exact h.known
  obtain ⟨r, hrun, hstep, hnone, honly, hpreferred⟩ :=
    RoleSwitch.run_releaseActive hchosen.inStep hknown
  rw [hrun] at hemptied
  cases hemptied
  have hcandidates : ∀ lease ∈ before.leases.map (heldAgain holder),
      r.Candidate displayRole lease.provider := by
    intro lease hlease
    obtain ⟨old, hold, rfl⟩ := List.mem_map.mp hlease
    rw [h.read.leases] at hold
    obtain ⟨hmem, hrole⟩ := List.mem_filter.mp hold
    have hleased := h.inStep.leased old hmem
    rw [of_decide_eq_true hrole] at hleased
    rw [heldAgain_provider]
    exact (RoleSwitch.candidate_congr (honly.roles.trans hchosen.roles)).mpr hleased
  have hroom : ∀ state, OrderedDict.get r.roles displayRole = some state →
      state.exclusive = true →
        (r.leasesOf displayRole).length + (before.leases.map (heldAgain holder)).length ≤ 1 := by
    intro state hstate hexclusive
    rw [honly.roles, hchosen.roles] at hstate
    rw [hnone, List.length_nil, Nat.zero_add, List.length_map, h.read.leases]
    exact h.inStep.exclusive displayRole state hstate hexclusive
  obtain ⟨r', hrun', -, honly', hpreferred', hproviders⟩ :=
    RoleSwitch.run_reacquire (before.leases.map (heldAgain holder))
      (t := { s.selection with registry := r }) hstep hcandidates hroom
  have hlast' : (RoleSwitch.reacquire displayRole (before.leases.map (heldAgain holder))).run
      { s.selection with registry := r } = .ok u' last := hlast
  rw [hrun'] at hlast'
  cases hlast'
  refine ⟨⟨?_, ?_, hchosen.override⟩, rfl⟩
  · have hmap : (before.leases.map (heldAgain holder)).map RoleLease.provider =
        before.leases.map RoleLease.provider := by
      rw [List.map_map]
      exact List.map_congr_left fun lease _ => heldAgain_provider holder lease
    change ((r'.leasesOf displayRole).map RoleLease.provider).head? = before.active
    rw [hproviders, hnone, hmap, h.read.active, RoleMethods.head?_eraseDups, h.read.leases]
    rfl
  · change RoleMethods.preferredProvider r' displayRole = .ok before.preferred
    rw [RoleMethods.preferredProvider_congr (honly'.roles.trans honly.roles)
      (hpreferred'.trans hpreferred)]
    exact hchosen.preferred

/-- The old provider is ready. -/
def OldReady (before : Before) (s : State) : Prop :=
  ∀ old, oldProvider before = some old → Ready s old

theorem leads_restoreDisplayRole (h : Origin origin before) :
    Leads catalog origin.registry.roles l (OldReady before) (Held before)
      (restoreDisplayRole env before) := by
  intro s t hsane _ hold hrun
  obtain ⟨_, s₁, hpreference, hrun₁⟩ := run_bind_eq_ok.mp hrun
  obtain ⟨selection, hselection, rfl⟩ := selecting_eq_ok hpreference
  have hchosen := chosen_of_restorePreference h hsane.inStep hsane.roles hselection
  obtain ⟨_, s₂, hrelease, hrun₂⟩ := run_bind_eq_ok.mp hrun₁
  obtain ⟨held, s₃, hget, hrun₃⟩ := run_bind_eq_ok.mp hrun₂
  cases hget
  obtain ⟨_, s₄, hreacquire, hrun₄⟩ := run_bind_eq_ok.mp hrun₃
  obtain ⟨hrole, hinstances⟩ :=
    roleHeld_of_reacquire (s := { s with selection := selection }) h hchosen _ hrelease hreacquire
  -- the preferences are written
  have hcounted : t = s₄.counted := by
    simp only [EStateM.run, attempt] at hrun₄
    cases hraises : env.raises s₄.locals.phase s₄.awaits with
    | none =>
      rw [hraises] at hrun₄
      cases hrun₄
      rfl
    | some text =>
      rw [hraises] at hrun₄
      cases hrun₄
  rw [hcounted]
  refine ⟨hrole.congr rfl, fun old hsome => (hold old hsome).congr ?_⟩
  change s₄.instances.get old = s.instances.get old
  rw [hinstances]

theorem tame_restoreDisplayRole (before : Before) :
    Tame catalog roles (restoreDisplayRole env before) := by
  have hpreference : Tame catalog roles (selecting (restorePreference before.override)) := by
    refine tame_selecting fun selection => ?_
    cases before.override with
    | none =>
      exact RoleSwitch.keeps_resetPreferred.bind fun _ => keeps_modify fun _ h => h.popOverride
    | some provider =>
      refine (RoleSwitch.keeps_selectPreferred provider).bind fun _ => ?_
      exact keeps_modify fun _ h => h.setOverride provider
  refine hpreference.bind fun _ => ?_
  refine (tame_selecting fun _ => RoleSwitch.keeps_releaseActive).bind fun _ => ?_
  refine tame_get.bind fun s => ?_
  exact (tame_selecting fun _ => RoleSwitch.keeps_reacquire _).bind fun _ => tame_attempt env

/-! ## The new provider stops -/

theorem outside_of_activeOutside {registry : RoleRegistry} {provider : PyStr}
    (hstep : registry.InStep) (h : activeOutside registry provider = true) :
    ∃ lease ∈ registry.leases, lease.role ≠ displayRole ∧ lease.provider = provider := by
  obtain ⟨role, hrole, htest⟩ := List.any_eq_true.mp h
  rw [RoleMethods.activeProviders_eq hstep hrole] at htest
  simp only [Bool.and_eq_true, decide_eq_true_eq] at htest
  obtain ⟨hne, hmem⟩ := htest
  obtain ⟨lease, hlease, rfl⟩ := List.mem_map.mp (List.mem_eraseDups.mp hmem)
  obtain ⟨hheld, hname⟩ := List.mem_filter.mp hlease
  refine ⟨lease, hheld, ?_, rfl⟩
  rw [of_decide_eq_true hname]
  exact hne

theorem done_of_retireAttempts {provider : PyStr} (attempts : ℕ) : ∀ {s t : State} {u : Unit},
    s.selection.registry.InStep →
      (retireAttempts env catalog provider attempts).run s = .ok u t → Done provider t := by
  induction attempts with
  | zero =>
    intro s t u hstep hrun
    obtain ⟨_, s₁, hget, hrun₁⟩ := run_bind_eq_ok.mp hrun
    cases hget
    obtain ⟨htest, rfl⟩ := require_eq_ok hrun₁
    rcases Bool.or_eq_true_iff.mp htest with hnone | houtside
    · left
      rintro ⟨entry, hentry, -⟩
      rw [hentry] at hnone
      cases hnone
    · exact .inr (outside_of_activeOutside hstep houtside)
  | succ attempts ih =>
    intro s t u hstep hrun
    obtain ⟨_, s₁, hget, hrun₁⟩ := run_bind_eq_ok.mp hrun
    cases hget
    split_ifs at hrun₁ with houtside
    · cases hrun₁
      exact .inr (outside_of_activeOutside hstep houtside)
    · cases hentry : s.instances.get provider with
      | none =>
        rw [hentry] at hrun₁
        cases hrun₁
        left
        rintro ⟨entry, hsome, -⟩
        rw [hentry] at hsome
        cases hsome
      | some current =>
        rw [hentry] at hrun₁
        obtain ⟨_, s₂, hstop, hrun₂⟩ := run_bind_eq_ok.mp hrun₁
        have hchange : Change s s₂ := of_keeps
          ((stable_change env catalog (fun _ => True) s).stopComponent trivial _)
          (Change.refl hstep) hstop
        exact ih hchange.inStep hrun₂

/-- The new provider is not one to stop. -/
def Spared (snapshot : Snapshot) (provider : PyStr) (s : State) : Prop :=
  oldProvider snapshot.before = some provider ∨ snapshot.target ≠ none ∨
    activeOutside s.selection.registry provider = true

theorem ends_retireNewProvider {snapshot : Snapshot} {provider : PyStr}
    (hleads : oldProvider snapshot.before ≠ some provider →
      Leads catalog roles l Q R (retireDisplayProvider env catalog provider))
    (hspared : ∀ s, s.selection.registry.InStep → Spared snapshot provider s → Q s → R s) :
    Ends (Stage catalog roles l Q) (retireNewProvider env catalog snapshot provider)
      (fun _ => Stage catalog roles l R) (fun _ => False) := by
  refine ends_stage_get.bind fun s => ?_
  split_ifs with htest
  · simp only [Bool.and_eq_true, decide_eq_true_eq] at htest
    have hguarded := ends_guarded (lit "stop-new-provider:" ++ provider)
      (tame_retireDisplayProvider env provider) (hleads htest.1.1)
    have hdone : Ends (Stage catalog roles l Q)
        (do let _ ← guarded (lit "stop-new-provider:" ++ provider)
              (retireDisplayProvider env catalog provider))
        (fun _ => Stage catalog roles l R) (fun _ => False) :=
      hguarded.bind fun _ => ends_pure fun _ h => h.mono fun _ hfacts => hfacts.2
    exact fun t ht => hdone t ht.2
  · refine ends_pure fun t ht => ?_
    obtain ⟨rfl, hstage⟩ := ht
    refine hstage.mono fun _ hQ => hspared s hstage.1.inStep ?_ hQ
    by_contra hnone
    unfold Spared at hnone
    push Not at hnone
    obtain ⟨hne, htarget, hinside⟩ := hnone
    apply htest
    simp only [Bool.and_eq_true, decide_eq_true_eq]
    refine ⟨⟨hne, ?_⟩, ?_⟩
    · rw [htarget]
      rfl
    · simpa using hinside

theorem leads_retire {before : Before} {provider : PyStr} {phase : Phase} {Exempt : Prop}
    (hphase : l.phase = phase) (hquiet : Quiet env before phase)
    (hne : oldProvider before ≠ some provider) :
    Leads catalog roles l (Held before) (fun t => Held before t ∧ (Exempt ∨ Done provider t))
      (retireDisplayProvider env catalog provider) := by
  intro s t hsane hlocals hheld hrun
  have hphase' : s.locals.phase = phase := by rw [hlocals, hphase]
  obtain ⟨-, hheld'⟩ := of_keeps ((stable_held hphase' hquiet).retireDisplayProvider hne)
    ⟨Change.refl hsane.inStep, hheld⟩ hrun
  exact ⟨hheld', .inr (done_of_retireAttempts 3 hsane.inStep hrun)⟩

/-! ## The consumers start again -/

theorem not_untouched (hs : Sane catalog roles s) (hkey : key ∈ s.locals.attempted) :
    untouched s key = false := by
  unfold untouched
  cases hentry : s.instances.get key with
  | none => rfl
  | some entry =>
    have hreplaced := hs.replaced key hkey entry.object
    rw [State.objectOf, hentry] at hreplaced
    have hne : s.locals.originals key ≠ some entry.object := fun horiginal =>
      hreplaced horiginal rfl
    simp [hne]

theorem ends_stopRolledBack {keys : PyStr → Prop} (hkey : keys key)
    (hstable : ∀ s, s.selection.registry.InStep → s.locals = l →
      Stable env catalog keys (fun t => Change s t ∧ Q t)) (entry : Option Entry) :
    Ends (Stage catalog roles l Q) (stopRolledBack env catalog key entry)
      (fun stopped => Stage catalog roles l fun t => stopped = true ∧ Q t) (fun _ => False) := by
  cases entry with
  | none => exact ends_pure fun _ h => h.mono fun _ hQ => ⟨rfl, hQ⟩
  | some current =>
    refine ends_guarded _ (tame_stopComponent env key current.object) ?_
    intro s t hsane hlocals hQ hrun
    exact (of_keeps ((hstable s hsane.inStep hlocals).stopComponent hkey current.object)
      ⟨Change.refl hsane.inStep, hQ⟩ hrun).2

theorem ends_startRolledBack {keys : PyStr → Prop} (hkey : keys key) {phase : Phase}
    (hphase : l.phase = phase) (hcalm : ∀ n, ∀ event ∈ env.meanwhile phase n, event.Calm)
    (hstable : ∀ s, s.selection.registry.InStep → s.locals = l →
      Stable env catalog keys (fun t => Change s t ∧ Q t)) (stopped : Bool) :
    Ends (Stage catalog roles l fun t => stopped = true ∧ Q t)
      (startRolledBack env catalog key stopped)
      (fun _ => Stage catalog roles l fun t => Q t ∧ Ready t key) (fun _ => False) := by
  cases stopped with
  | false => exact ends_pure fun _ h => h.mono fun _ hfacts => nomatch hfacts.1
  | true =>
    have htame : Tame catalog roles (restoreConsumer env catalog key) :=
      tame_of_change fun s => (stable_change env catalog (fun _ => True) s).restoreConsumer trivial
    have hleads : Leads catalog roles l (fun t => true = true ∧ Q t)
        (fun t => Q t ∧ Ready t key) (restoreConsumer env catalog key) := by
      rintro s t hsane hlocals ⟨-, hQ⟩ hrun
      refine ⟨(of_keeps ((hstable s hsane.inStep hlocals).restoreConsumer hkey)
        ⟨Change.refl hsane.inStep, hQ⟩ hrun).2, ?_⟩
      obtain ⟨replacement, s₁, hready, hrun₁⟩ := run_bind_eq_ok.mp hrun
      obtain ⟨_, s₂, hget, hrun₂⟩ := run_bind_eq_ok.mp hrun₁
      cases hget
      obtain ⟨-, rfl⟩ := require_eq_ok hrun₂
      exact ready_of_ensureReady hcalm hsane.inStep (by rw [hlocals, hphase]) hready
    have hguarded := ends_guarded (lit "restore-consumer:" ++ key) htame hleads
    exact hguarded.bind fun _ => ends_pure fun _ h => h.mono fun _ hfacts => hfacts.2

theorem ends_restoreConsumers {phase : Phase} (hphase : l.phase = phase)
    (hcalm : ∀ n, ∀ event ∈ env.meanwhile phase n, event.Calm) (keys : List PyStr) :
    ∀ {Q : State → Prop}, (∀ key ∈ keys, key ∈ l.attempted) →
      (∀ s, s.selection.registry.InStep → s.locals = l →
        Stable env catalog (· ∈ keys) (fun t => Change s t ∧ Q t)) →
      Ends (Stage catalog roles l Q) (restoreConsumers env catalog keys)
        (fun _ => Stage catalog roles l fun t => Q t ∧ ∀ key ∈ keys, Ready t key)
        (fun _ => False) := by
  induction keys with
  | nil =>
    intro Q _ _
    exact ends_pure fun _ h => h.mono fun _ hQ => ⟨hQ, nofun⟩
  | cons key keys ih =>
    intro Q hattempted hstable
    obtain ⟨hfirst, hrest⟩ := List.forall_mem_cons.mp hattempted
    have hmem : key ∈ key :: keys := List.mem_cons_self
    have hstable' : ∀ s, s.selection.registry.InStep → s.locals = l →
        Stable env catalog (· ∈ keys) (fun t => Change s t ∧ Q t) :=
      fun s hstep hlocals => (hstable s hstep hlocals).mono fun _ => List.mem_cons_of_mem _
    -- the consumers after it, which may stop and start it again
    have hlast : Ends (Stage catalog roles l fun t => Q t ∧ Ready t key)
        (restoreConsumers env catalog keys)
        (fun _ => Stage catalog roles l fun t => Q t ∧ ∀ other ∈ key :: keys, Ready t other)
        (fun _ => False) := by
      by_cases hagain : key ∈ keys
      · intro s hs
        refine (ih hrest hstable').mono ?_ s (hs.mono fun _ h => h.1)
        intro _ t ht
        refine ht.mono fun _ h => ⟨h.1, ?_⟩
        exact List.forall_mem_cons.mpr ⟨h.2 key hagain, h.2⟩
      · refine (ih hrest fun s hstep hlocals => (hstable' s hstep hlocals).and ?_).mono ?_
        · have hphase' : s.locals.phase = phase := by rw [hlocals, hphase]
          refine (stable_alive hphase' hcalm key true).mono fun other hother heq => ?_
          exact hagain (heq ▸ hother)
        · intro _ t ht
          exact ht.mono fun _ h => ⟨h.1.1, List.forall_mem_cons.mpr ⟨h.1.2, h.2⟩⟩
    refine ends_stage_get.bind fun s => ?_
    intro t ht
    obtain ⟨rfl, hstage⟩ := ht
    have huntouched := not_untouched hstage.1 (by rw [hstage.2.1]; exact hfirst)
    rw [if_neg (by rw [huntouched]; exact nofun)]
    refine Ends.bind (ends_stopRolledBack hmem hstable _) (fun stopped => ?_) s hstage
    exact (ends_startRolledBack hmem hphase hcalm hstable stopped).bind fun _ => hlast

/-! ## The whole rollback -/

section

variable {snapshot : Snapshot} {provider : PyStr} {Exempt : Prop}

/-- The facts once the role is back and the new provider was dealt with. -/
def Settled (snapshot : Snapshot) (provider : PyStr) (Exempt : Prop) (s : State) : Prop :=
  Held snapshot.before s ∧ (Exempt ∨ Done provider s)

/-- What a rollback is run with. -/
structure Setting (env : Surroundings) (catalog : Catalog) (origin : Selection)
    (snapshot : Snapshot) (provider : PyStr) (Exempt : Prop) (l : Locals) : Prop where
  origin : Origin origin snapshot.before
  consumers : ∀ key ∈ l.attempted, oldProvider snapshot.before ≠ some key ∧ provider ≠ key
  undoing : ∀ n, ∀ event ∈ env.meanwhile .undoing n, event.Calm
  retiring : Quiet env snapshot.before .retiring
  restoring : Quiet env snapshot.before .restoring
  unstarted : Exempt ∨ ∀ n, .spawned provider ∉ env.meanwhile .restoring n
  target : snapshot.target ≠ none → Exempt
  same : oldProvider snapshot.before = some provider → Exempt

theorem stable_settled (h : Setting env catalog origin snapshot provider Exempt l)
    (hphase : s.locals.phase = .restoring) :
    Stable env catalog (· ∈ l.attempted)
      (fun t => Change s t ∧ Settled snapshot provider Exempt t) := by
  have hheld : Stable env catalog (· ∈ l.attempted)
      (fun t => Change s t ∧ Held snapshot.before t) :=
    (stable_held hphase h.restoring).mono fun key hkey => (h.consumers key hkey).1
  refine hheld.and ?_
  rcases h.unstarted with hexempt | hunstarted
  · refine stable_of_updates hphase ?_ ?_ ?_ ?_ ?_ ?_ <;> intros <;> exact .inl hexempt
  · have hdone : Stable env catalog (· ∈ l.attempted)
        (fun t => Change s t ∧ Done provider t) :=
      (stable_done hphase h.restoring.calm hunstarted).mono fun key hkey => (h.consumers key hkey).2
    by_cases hexempt : Exempt
    · refine stable_of_updates hphase ?_ ?_ ?_ ?_ ?_ ?_ <;> intros <;> exact .inl hexempt
    · simpa only [hexempt, false_or] using hdone

theorem ends_readyOldProvider (h : Setting env catalog origin snapshot provider Exempt l)
    (hphase : l.phase = .undoing) :
    Ends (Stage catalog roles l fun _ => True) (readyOldProvider env catalog snapshot.provider)
      (fun _ => Stage catalog roles l (OldReady snapshot.before)) (fun _ => False) := by
  unfold Snapshot.provider
  cases hold : snapshot.before.active.or snapshot.before.preferred with
  | none =>
    refine ends_pure fun _ hs => hs.mono fun _ _ old hsome => ?_
    rw [oldProvider, hold] at hsome
    cases hsome
  | some old =>
    have htame : Tame catalog roles (do let _ ← ensureReady env catalog old) :=
      (tame_ensureReady env old).bind fun _ => tame_pure _
    have hleads : Leads catalog roles l (fun _ => True) (OldReady snapshot.before)
        (do let _ ← ensureReady env catalog old) := by
      intro s t hsane hlocals _ hrun other hother
      rw [oldProvider, hold] at hother
      cases hother
      obtain ⟨entry, s₁, hready, hdone⟩ := run_bind_eq_ok.mp hrun
      cases hdone
      exact ready_of_ensureReady h.undoing hsane.inStep (by rw [hlocals, hphase]) hready
    exact (ends_guarded (lit "ready-old-provider:" ++ old) htame hleads).bind fun _ =>
      ends_pure fun _ hs => hs.mono fun _ hfacts => hfacts.2

theorem ends_suspend (hstable : ∀ s, s.selection.registry.InStep → s.locals = l →
      Stable env catalog (fun _ => False) (fun t => Change s t ∧ Q t)) :
    Ends (Stage catalog roles l Q) (suspend env catalog) (fun _ => Stage catalog roles l Q)
      (fun _ => False) := by
  refine ends_modify fun s hs => ?_
  obtain ⟨hsane, hlocals, hQ⟩ := hs
  have hchange := change_suspended hsane.inStep env catalog
  refine ⟨hsane.change hchange, hchange.locals.trans hlocals, fun hnone => ?_⟩
  exact ((hstable s hsane.inStep hlocals).suspended s
    ⟨Change.refl hsane.inStep, hQ (hchange.failures.symm.trans hnone)⟩).2

theorem stable_oldReady (before : Before) {phase : Phase} (hphase : s.locals.phase = phase)
    (hcalm : ∀ n, ∀ event ∈ env.meanwhile phase n, event.Calm) :
    Stable env catalog (fun _ => False) (fun t => Change s t ∧ OldReady before t) := by
  unfold OldReady
  cases oldProvider before with
  | none =>
    refine stable_of_updates hphase ?_ ?_ ?_ ?_ ?_ ?_ <;> intros <;> contradiction
  | some old =>
    have halive : Stable env catalog (fun _ => False) (fun t => Change s t ∧ Ready t old) :=
      (stable_alive hphase hcalm old true).mono nofun
    simpa only [Option.some.injEq, forall_eq'] using halive

/-- What a rollback that noted nothing has reached. -/
def Recovered (snapshot : Snapshot) (provider : PyStr) (Exempt : Prop) (keys : List PyStr)
    (s : State) : Prop :=
  Settled snapshot provider Exempt s ∧ ∀ key ∈ keys, Ready s key

theorem ends_enter (phase : Phase) (himp : ∀ s, Q s → Q (enter phase s)) :
    Ends (Stage catalog roles l Q) (modify (enter phase) : Migrating PUnit)
      (fun _ => Stage catalog roles { l with phase := phase } Q) (fun _ => False) :=
  ends_modify fun s hs => stage_enter hs phase (himp s)

theorem Held.enter (h : Held snapshot.before s) (phase : Phase) :
    Held snapshot.before (enter phase s) := h.congr rfl fun _ _ => rfl

theorem Settled.enter (h : Settled snapshot provider Exempt s) (phase : Phase) :
    Settled snapshot provider Exempt (enter phase s) :=
  ⟨h.1.enter phase, h.2.imp_right fun hdone => hdone.congr rfl rfl⟩

theorem ends_retire (h : Setting env catalog origin snapshot provider Exempt l)
    (hphase : l.phase = .retiring) :
    Ends (Stage catalog roles l (Held snapshot.before))
      (retireNewProvider env catalog snapshot provider)
      (fun _ => Stage catalog roles l (Settled snapshot provider Exempt)) (fun _ => False) := by
  refine ends_retireNewProvider (fun hne => leads_retire hphase h.retiring hne) ?_
  intro s hstep hspared hheld
  refine ⟨hheld, ?_⟩
  rcases hspared with hsame | htarget | houtside
  · exact .inl (h.same hsame)
  · exact .inl (h.target htarget)
  · exact .inr (.inr (outside_of_activeOutside hstep houtside))

theorem ends_restore (h : Setting env catalog origin snapshot provider Exempt l)
    (hphase : l.phase = .restoring) (s : State) :
    Ends (fun t => s = t ∧ Stage catalog roles l (Settled snapshot provider Exempt) t)
      (restoreConsumers env catalog s.locals.attempted)
      (fun _ => Stage catalog roles l (Recovered snapshot provider Exempt l.attempted))
      (fun _ => False) := by
  rintro t ⟨rfl, hstage⟩
  rw [hstage.2.1]
  refine ends_restoreConsumers hphase h.restoring.calm l.attempted (fun _ hkey => hkey) ?_ s hstage
  intro s' _ hlocals
  exact stable_settled h (by rw [hlocals, hphase])

theorem ends_restoreForeground (keys : List PyStr) :
    Ends (Stage catalog roles l (Recovered snapshot provider Exempt l.attempted))
      (modify (restoreForeground keys) : Migrating PUnit)
      (fun _ => Stage catalog roles l (Recovered snapshot provider Exempt l.attempted))
      (fun _ => False) := by
  refine ends_modify fun s hs => ?_
  obtain ⟨hsane, hlocals, hfacts⟩ := hs
  refine ⟨⟨hsane.inStep, hsane.roles, hsane.originals, hsane.visual, hsane.replaced⟩, hlocals, ?_⟩
  intro hnone
  obtain ⟨⟨hheld, hdone⟩, hready⟩ := hfacts hnone
  exact ⟨⟨hheld.congr rfl fun _ _ => rfl, hdone.imp_right fun hdone => hdone.congr rfl rfl⟩,
    fun key hkey => (hready key hkey).congr rfl⟩

theorem ends_reactivate (h : Setting env catalog origin snapshot provider Exempt l)
    (hphase : l.phase = .restoring) :
    Ends (Stage catalog roles l (Recovered snapshot provider Exempt l.attempted))
      (do let _ ← guarded (lit "restore-foreground") (await env catalog))
      (fun _ => Stage catalog roles l (Recovered snapshot provider Exempt l.attempted))
      (fun _ => False) := by
  have hleads : Leads catalog roles l (Recovered snapshot provider Exempt l.attempted)
      (Recovered snapshot provider Exempt l.attempted) (await env catalog) := by
    rintro s t hsane hlocals ⟨hsettled, hready⟩ hrun
    have hphase' : s.locals.phase = .restoring := by rw [hlocals, hphase]
    have hstart : Change s s := Change.refl hsane.inStep
    refine ⟨(of_keeps (stable_settled h hphase').await ⟨hstart, hsettled⟩ hrun).2, ?_⟩
    intro key hkey
    have halive : Stable env catalog (· ≠ key) (fun t => Change s t ∧ Ready t key) :=
      stable_alive hphase' h.restoring.calm key true
    exact (of_keeps halive.await ⟨hstart, hready key hkey⟩ hrun).2
  exact (ends_guarded (lit "restore-foreground") (tame_await env) hleads).bind fun _ =>
    ends_pure fun _ hs => hs.mono fun _ hfacts => hfacts.2

theorem Setting.enter (h : Setting env catalog origin snapshot provider Exempt l) (phase : Phase) :
    Setting env catalog origin snapshot provider Exempt { l with phase := phase } :=
  ⟨h.origin, h.consumers, h.undoing, h.retiring, h.restoring, h.unstarted, h.target, h.same⟩

theorem ends_rollback (h : Setting env catalog origin snapshot provider Exempt l) :
    Ends (Stage catalog origin.registry.roles l fun _ => True)
      (rollbackDisplayMigration env catalog snapshot provider)
      (fun _ => Stage catalog origin.registry.roles { l with phase := .restoring }
        (Recovered snapshot provider Exempt l.attempted))
      (fun _ => False) := by
  -- the new consumers stop, and the old provider becomes ready
  refine (ends_enter .undoing fun _ _ => trivial).bind fun _ => ends_stage_get.bind fun s => ?_
  refine Ends.bind (fun t ht => ends_stopNewConsumers _ t ht.2) fun _ => ?_
  refine (ends_readyOldProvider (h.enter .undoing) rfl).bind fun _ => ?_
  refine (ends_suspend fun s _ hlocals =>
    stable_oldReady snapshot.before (by rw [hlocals]) h.undoing).bind fun _ => ?_
  -- the role comes back, and the new provider stops
  refine (ends_guarded (lit "restore-role") (tame_restoreDisplayRole snapshot.before)
    (leads_restoreDisplayRole h.origin)).bind fun restored => ?_
  have hretiring : Ends
      (Stage catalog origin.registry.roles { l with phase := .undoing } fun t =>
        restored = true ∧ Held snapshot.before t)
      (modify (enter .retiring) : Migrating PUnit)
      (fun _ => Stage catalog origin.registry.roles { l with phase := .retiring }
        (Held snapshot.before)) (fun _ => False) :=
    fun s hs => ends_enter (l := { l with phase := .undoing }) .retiring
      (fun _ hheld => hheld.enter .retiring) s (hs.mono fun _ hfacts => hfacts.2)
  refine hretiring.bind fun _ => (ends_retire (h.enter .retiring) rfl).bind fun _ => ?_
  -- the consumers start
  refine (ends_enter .restoring fun _ hsettled => hsettled.enter .restoring).bind fun _ => ?_
  refine ends_stage_get.bind fun s => (ends_restore (h.enter .restoring) rfl s).bind fun _ => ?_
  refine (ends_restoreForeground snapshot.foreground).bind fun _ => ?_
  exact ends_reactivate (h.enter .restoring) rfl

end

/-! ## The migration that is rolled back -/

/-- The provider of the session: the active one, or else the preferred one. -/
def sessionProvider (registry : RoleRegistry) : Option PyStr :=
  match RoleMethods.activeProvider registry displayRole,
    RoleMethods.preferredProvider registry displayRole with
  | .ok active, .ok preferred => active.or preferred
  | _, _ => none

/-- The role, its providers and its consumers after a rollback. -/
structure RolledBack (before after : State) (provider : PyStr) : Prop where
  active : RoleMethods.activeProvider after.selection.registry displayRole =
    RoleMethods.activeProvider before.selection.registry displayRole
  preferred : RoleMethods.preferredProvider after.selection.registry displayRole =
    RoleMethods.preferredProvider before.selection.registry displayRole
  override : OrderedDict.get after.selection.overrides displayRole =
    OrderedDict.get before.selection.overrides displayRole
  old : ∀ old, sessionProvider before.selection.registry = some old → Ready after old
  consumers : ∀ key ∈ after.locals.attempted, Ready after key
  stopped : ¬ Running after provider ∨ Running before provider ∨
    sessionProvider before.selection.registry = some provider ∨
    activeOutside after.selection.registry provider = true

/-- No process dies while a rollback runs. -/
def Undisturbed (env : Surroundings) : Prop :=
  ∀ phase, phase ≠ .migrating → ∀ n, ∀ event ∈ env.meanwhile phase n, event.Calm

/-- The new provider is none that a rollback stops: it ran before, or it is the old one. -/
def Kept (before : State) (provider : PyStr) : Prop :=
  Running before provider ∨ sessionProvider before.selection.registry = some provider

/-- What a migration starts from, and what starts during its rollback. -/
structure Restorable (env : Surroundings) (catalog : Catalog) (before : State)
    (provider : PyStr) : Prop where
  agrees : PreferenceAgrees before.selection
  /-- no candidate of the role is a client of the session -/
  candidates : ∀ key, before.selection.registry.Candidate displayRole key → ¬ Visual catalog key
  /-- no exited instance of the new provider is left in the table -/
  entry : before.instances.get provider ≠ none → Kept before provider
  /-- no consumer starts the new provider again -/
  unstarted : Kept before provider ∨ ∀ n, .spawned provider ∉ env.meanwhile .restoring n
  /-- a role that was not leased is not leased afterwards -/
  unleased : RoleMethods.activeProvider before.selection.registry displayRole = .ok none →
    ∀ old, sessionProvider before.selection.registry = some old →
      ∀ phase, phase = .retiring ∨ phase = .restoring → ∀ n,
        .becameReady old ∉ env.meanwhile phase n

variable {provider mode : PyStr} {start : State}

theorem activeOutside_of_lease {registry : RoleRegistry} (hstep : registry.InStep)
    {lease : RoleLease} (hlease : lease ∈ registry.leases) (hrole : lease.role ≠ displayRole) :
    activeOutside registry lease.provider = true := by
  have hname := (hstep.leased lease hlease).mem_names
  refine List.any_eq_true.mpr ⟨lease.role, hname, ?_⟩
  rw [RoleMethods.activeProviders_eq hstep hname]
  simp only [Bool.and_eq_true, decide_eq_true_eq]
  refine ⟨hrole, List.mem_eraseDups.mpr (List.mem_map.mpr ⟨lease, ?_, rfl⟩)⟩
  exact List.mem_filter.mpr ⟨hlease, by simp⟩

theorem sessionProvider_eq (hstep : start.selection.registry.InStep)
    (hknown : displayRole ∈ start.selection.registry.roles.map Prod.fst)
    (hread : ReadFrom displayRole start.selection before) :
    RoleMethods.activeProvider start.selection.registry displayRole = .ok before.active ∧
      sessionProvider start.selection.registry = oldProvider before := by
  have hactive : RoleMethods.activeProvider start.selection.registry displayRole =
      .ok before.active := by
    rw [RoleMethods.activeProvider_eq hstep hknown, hread.active]
  refine ⟨hactive, ?_⟩
  rw [sessionProvider, hactive, hread.preferred]
  rfl

theorem candidate_of_oldProvider (hstep : start.selection.registry.InStep)
    (hread : ReadFrom displayRole start.selection before) (hold : oldProvider before = some key) :
    start.selection.registry.Candidate displayRole key := by
  cases hactive : before.active with
  | none =>
    rw [oldProvider_of_none hactive] at hold
    exact RoleMethods.candidate_of_preferredProvider hstep (hold ▸ hread.preferred)
  | some active =>
    rw [oldProvider_of_active hactive] at hold
    cases hold
    have hhead := hread.active
    rw [hactive, RoleMethods.head?_eraseDups] at hhead
    obtain ⟨lease, hlease, rfl⟩ := List.mem_map.mp (List.mem_of_mem_head? hhead.symm)
    obtain ⟨hmem, hrole⟩ := List.mem_filter.mp hlease
    have hleased := hstep.leased lease hmem
    rwa [of_decide_eq_true hrole] at hleased

/-- The conditions, in terms of what the snapshot has read. -/
theorem Restorable.setting (h : Restorable env catalog start provider)
    (hcalm : Undisturbed env) (hstep : start.selection.registry.InStep)
    (hcandidate : start.selection.registry.Candidate displayRole provider)
    (hread : ReadFrom displayRole start.selection before) {snapshot : Snapshot}
    (hbefore : snapshot.before = before) (htarget : snapshot.target = start.instances.get provider)
    (hvisual : ∀ key ∈ l.attempted, Visual catalog key) :
    Setting env catalog start.selection snapshot provider (Kept start provider) l := by
  subst hbefore
  have hknown := hcandidate.mem_names
  obtain ⟨hactive, hsession⟩ := sessionProvider_eq hstep hknown hread
  have hquiet : ∀ phase, phase = .retiring ∨ phase = .restoring →
      Quiet env snapshot.before phase := by
    intro phase hphase
    refine ⟨hcalm phase (by rintro rfl; simp at hphase), ?_⟩
    intro hnone old hold n
    refine h.unleased (by rw [hactive, hnone]) old (hsession.trans hold) phase hphase n
  exact
    { origin := ⟨hstep, hknown, hread, h.agrees⟩
      consumers := fun key hkey =>
        ⟨fun hold =>
          h.candidates key (candidate_of_oldProvider hstep hread hold) (hvisual key hkey),
          fun hsame => h.candidates key (hsame ▸ hcandidate) (hvisual key hkey)⟩
      undoing := hcalm .undoing nofun
      retiring := hquiet .retiring (.inl rfl)
      restoring := hquiet .restoring (.inr rfl)
      unstarted := h.unstarted
      target := fun hsome => h.entry (by rwa [htarget] at hsome)
      same := fun hold => .inr (hsession.trans hold) }

theorem rolledBack_of_recovered (hstep : start.selection.registry.InStep)
    (hknown : displayRole ∈ start.selection.registry.roles.map Prod.fst)
    (hread : ReadFrom displayRole start.selection before) {snapshot : Snapshot}
    (hbefore : snapshot.before = before) (hsane : Sane catalog start.selection.registry.roles t)
    (hlocals : t.locals.attempted = l.attempted)
    (h : Recovered snapshot provider (Kept start provider) l.attempted t) :
    RolledBack start t provider := by
  subst hbefore
  obtain ⟨⟨hheld, hdone⟩, hready⟩ := h
  obtain ⟨hactive, hsession⟩ := sessionProvider_eq hstep hknown hread
  have hknown' : displayRole ∈ t.selection.registry.roles.map Prod.fst := by
    rw [hsane.roles]
    exact hknown
  refine
    { active := ?_
      preferred := hheld.preferred.trans hread.preferred.symm
      override := hheld.override.trans hread.override
      old := fun old hold => hheld.old old (hsession.symm.trans hold)
      consumers := fun key hkey => hready key (hlocals ▸ hkey)
      stopped := ?_ }
  · rw [RoleMethods.activeProvider_eq hsane.inStep hknown', RoleMethods.head?_eraseDups,
      hheld.active, hactive]
  · rcases hdone with (hran | hsame) | hgone | ⟨lease, hlease, hrole, rfl⟩
    · exact .inr (.inl hran)
    · exact .inr (.inr (.inl hsame))
    · exact .inl hgone
    · exact .inr (.inr (.inr (activeOutside_of_lease hsane.inStep hlease hrole)))

theorem Tame.locals_of_run (h : Tame catalog roles m) (hs : Sane catalog roles s) {fault : Fault}
    (hrun : m.run s = .error fault t) : t.locals = s.locals := by
  obtain ⟨-, hlocals, -⟩ := h s hs
  rwa [hrun] at hlocals

theorem starting_begun (hstep : start.selection.registry.InStep) :
    Starting catalog start.selection.registry.roles (begun start) :=
  ⟨⟨hstep, rfl, nofun, nofun, nofun⟩, rfl⟩

/-- The handler of a migration that was not past its commit leaves it there. -/
theorem switched_of_cleanUp {snapshot : Snapshot} (hsane : Sane catalog roles s)
    (hswitched : s.locals.switched = false) {fault e : Fault}
    (hrun : (do
        cleanUp env catalog snapshot provider
        throw e : Migrating Unit).run s = .error fault t) : t.locals.switched = false := by
  have hretire : Ends (Stage catalog roles s.locals fun _ => True)
      (retireNewProvider env catalog snapshot provider)
      (fun _ => Stage catalog roles s.locals fun _ => True) (fun _ => False) :=
    ends_retireNewProvider (fun _ _ _ _ _ _ _ => trivial) fun _ _ _ _ => trivial
  have hfinal := hretire s ⟨hsane, rfl, fun _ => trivial⟩
  have hclean : (cleanUp env catalog snapshot provider).run s =
      (retireNewProvider env catalog snapshot provider).run s := by
    unfold cleanUp
    rw [run_bind_of_ok (show (get : Migrating State).run s = .ok s s from rfl), if_neg]
    rw [hswitched]
    exact nofun
  rw [← hclean] at hfinal
  cases hcleanRun : (cleanUp env catalog snapshot provider).run s with
  | error e' t' =>
    rw [hcleanRun] at hfinal
    exact hfinal.elim
  | ok u t' =>
    rw [hcleanRun] at hfinal
    rw [run_bind_of_ok hcleanRun, run_throw] at hrun
    cases hrun
    rw [hfinal.2.1, hswitched]

/-- Past the commit the handler is the rollback. -/
theorem recovered_of_cleanUp {snapshot : Snapshot} {Exempt : Prop}
    (h : Setting env catalog origin snapshot provider Exempt s.locals)
    (hsane : Sane catalog origin.registry.roles s) (hswitched : s.locals.switched = true)
    {fault e : Fault}
    (hrun : (do
        cleanUp env catalog snapshot provider
        throw e : Migrating Unit).run s = .error fault t) :
    Stage catalog origin.registry.roles { s.locals with phase := .restoring }
      (Recovered snapshot provider Exempt s.locals.attempted) t := by
  have hfinal := ends_rollback h s ⟨hsane, rfl, fun _ => trivial⟩
  have hclean : (cleanUp env catalog snapshot provider).run s =
      (rollbackDisplayMigration env catalog snapshot provider).run s := by
    unfold cleanUp
    rw [run_bind_of_ok (show (get : Migrating State).run s = .ok s s from rfl), if_pos hswitched]
  rw [← hclean] at hfinal
  cases hcleanRun : (cleanUp env catalog snapshot provider).run s with
  | error e' t' =>
    rw [hcleanRun] at hfinal
    exact hfinal.elim
  | ok u t' =>
    rw [hcleanRun] at hfinal
    rw [run_bind_of_ok hcleanRun, run_throw] at hrun
    cases hrun
    exact hfinal

/-- A migration that fails past the commit of the provider, rolls back without a failure and loses
no process meanwhile, has restored the session. -/
theorem migration_rolledBack (env : Surroundings) (catalog : Catalog) (provider mode : PyStr)
    {before after : State} {fault : Fault}
    (hreachable : RoleMethods.Reachable before.selection.registry)
    (hrun : (migrateDisplayOutput env catalog provider mode).run before = .error fault after)
    (hswitched : after.locals.switched = true) (hclean : after.failures = [])
    (hcalm : Undisturbed env) (h : Restorable env catalog before provider) :
    RolledBack before after provider := by
  have hstep : before.selection.registry.InStep := hreachable.inStep
  have hstarting : Starting catalog before.selection.registry.roles (begun before) :=
    starting_begun hstep
  have hstart : (begun before).locals.switched = false := rfl
  have hunswitched : after.locals ≠ (begun before).locals := by
    intro hlocals
    rw [hlocals, hstart] at hswitched
    cases hswitched
  rw [migrateDisplayOutput, run_bind_of_ok (show (modify begun : Migrating PUnit).run before =
    .ok ⟨⟩ (begun before) from rfl)] at hrun
  -- the reads
  rcases run_bind_eq_error.mp hrun with hfailed | ⟨found, s₁, hget, hrun₁⟩
  · have htame : Tame catalog before.selection.registry.roles (selecting
        (RoleSwitch.read fun registry => RoleMethods.getCandidate registry displayRole provider)) :=
      tame_selecting fun _ => RoleSwitch.keeps_read _
    exact (hunswitched (htame.locals_of_run hstarting.1 hfailed)).elim
  obtain ⟨selection, hread, rfl⟩ := selecting_eq_ok hget
  obtain ⟨hfound, rfl⟩ := RoleSwitch.read_eq_ok.mp hread
  have hcandidate : before.selection.registry.Candidate displayRole provider :=
    RoleMethods.candidate_of_getCandidate hfound
  rcases run_bind_eq_error.mp hrun₁ with hfailed | ⟨saved, s₂, hreadBefore, hrun₂⟩
  · exact (hunswitched (tame_readBefore.locals_of_run hstarting.1 hfailed)).elim
  obtain ⟨selection, hsaved, rfl⟩ := selecting_eq_ok hreadBefore
  obtain ⟨hsame, hreadFrom⟩ :=
    RoleSwitch.readFrom_of_readBefore hstep hcandidate.mem_names hsaved
  subst hsame
  obtain ⟨snapshot, hsnapshot⟩ :
      ∃ snapshot, snapshotDisplayRole catalog (begun before) saved provider = snapshot := ⟨_, rfl⟩
  have hbefore : snapshot.before = saved := by
    rw [← hsnapshot]
    rfl
  have htarget : snapshot.target = before.instances.get provider := by
    rw [← hsnapshot]
    rfl
  have hrest : (do
      await env catalog
      tryCatch (transact env catalog snapshot provider mode) fun fault => do
        cleanUp env catalog snapshot provider
        throw fault : Migrating Unit).run (begun before) = .error fault after := by
    rw [← hsnapshot]
    exact hrun₂
  rcases run_bind_eq_error.mp hrest with hfailed | ⟨_, s₃, hawait, hrun₃⟩
  · exact (hunswitched ((tame_await env).locals_of_run hstarting.1 hfailed)).elim
  have hstarting₃ := of_keeps (tame_await env).starting hstarting hawait
  -- the `try` block and its handler
  rw [run_tryCatch] at hrun₃
  have hsane : Sane catalog before.selection.registry.roles
      (finalState ((transact env catalog snapshot provider mode).run s₃)) :=
    sane_transact hstarting₃ snapshot provider mode
  cases htransact : (transact env catalog snapshot provider mode).run s₃ with
  | ok u s₄ =>
    rw [htransact] at hrun₃
    cases hrun₃
  | error e s₄ =>
    rw [htransact] at hrun₃ hsane
    cases hpast : s₄.locals.switched with
    | false =>
      rw [switched_of_cleanUp hsane hpast hrun₃] at hswitched
      cases hswitched
    | true =>
      have hsetting := h.setting (l := s₄.locals) hcalm hstep hcandidate hreadFrom hbefore htarget
        hsane.visual
      obtain ⟨hsane', hlocals, hrecovered⟩ := recovered_of_cleanUp hsetting hsane hpast hrun₃
      exact rolledBack_of_recovered (l := s₄.locals) hstep hcandidate.mem_names hreadFrom hbefore
        hsane' (by rw [hlocals]) (hrecovered hclean)

/-! ## Two sessions -/

section

def displayKey : PyStr := lit "p:old"

def newDisplayKey : PyStr := lit "p:new"

def panelKey : PyStr := lit "p:panel"

def sampleCatalog : Catalog where
  components := fun key =>
    if key = displayKey then some ⟨0, [], .mipcReady⟩
    else if key = newDisplayKey then some ⟨1, [], .mipcReady⟩
    else if key = panelKey then some ⟨2, [], .mipcReady⟩
    else none
  manifest := fun component =>
    if component.object = 2 then
      ⟨lit "x11", lit "inherit", lit "panel", lit "background", []⟩
    else ⟨lit "x11", [], lit "display-provider", lit "background", [(lit "role", displayRole)]⟩
  display := fun _ => none
  defaultDisplay := lit ":0"
  session := ⟨[], [], fun _ => false, fun _ => none, fun _ => [], fun _ => none, 0⟩

def displayComponents : RoleComponents :=
  let display : Manifest.Provide := ⟨.role, displayRole, true, 0⟩
  [(displayKey, [display]), (newDisplayKey, [display])]

def displayRegistry : RoleRegistry :=
  .ofRoles [(displayRole, ⟨[newDisplayKey, displayKey], true⟩)]

def leasedRegistry : RoleRegistry :=
  (RoleMethods.perform (.acquire displayRole (some displayKey) none)
    (RoleMethods.perform (.selectPreferred displayRole displayKey)
      displayRegistry).registry).registry

theorem reachable_leasedRegistry : RoleMethods.Reachable leasedRegistry := by
  have hbuilt : RoleRegistry.fromProfile bareInterpreter displayComponents [] =
      .ok displayRegistry := rfl
  exact ((RoleMethods.Reachable.built hbuilt).called _).called _

/-- The old display and its panel run; `exited` says whether the new display has run before. -/
def sampleState (exited : Bool) : State where
  selection := ⟨leasedRegistry, [(displayRole, displayKey)]⟩
  instances :=
    { entries := [(displayKey, ⟨0, ⟨0, [], .mipcReady⟩, 1, true, true, false⟩),
        (panelKey, ⟨1, ⟨2, [], .mipcReady⟩, 1, true, true, false⟩)] ++
        if exited then [(newDisplayKey, ⟨2, ⟨1, [], .mipcReady⟩, 1, false, false, true⟩)] else []
      nextObject := 3
      issued := by
        intro key entry hentry
        have hmem := OrderedDict.mem_of_get hentry
        cases exited
        · simp only [Bool.false_eq_true, if_false, List.append_nil, List.mem_cons, Prod.mk.injEq,
            List.not_mem_nil, or_false] at hmem
          rcases hmem with ⟨-, rfl⟩ | ⟨-, rfl⟩ <;> decide
        · simp only [if_true, List.cons_append, List.nil_append, List.mem_cons, Prod.mk.injEq,
            List.not_mem_nil, or_false] at hmem
          rcases hmem with ⟨-, rfl⟩ | ⟨-, rfl⟩ | ⟨-, rfl⟩ <;> decide }
  generations := fun _ => 1
  foreground := Foreground.empty
  awaits := 0
  locals := .initial
  failures := []

/-- The new display starts, the panel does not start on it, and starts again on the old one. -/
def sampleSurroundings : Surroundings where
  meanwhile := fun phase _ =>
    match phase with
    | .migrating => [.spawned newDisplayKey, .becameReady newDisplayKey]
    | .restoring => [.spawned panelKey, .becameReady panelKey]
    | _ => []
  raises := fun phase n =>
    if phase = .migrating ∧ n = 11 then some (lit "start failed") else none

def migration (exited : Bool) : EStateM.Result Fault State Unit :=
  (migrateDisplayOutput sampleSurroundings sampleCatalog newDisplayKey (lit "select")).run
    (sampleState exited)

theorem undisturbed_sample : Undisturbed sampleSurroundings := by
  intro phase hphase n event hevent
  cases phase with
  | migrating => exact (hphase rfl).elim
  | undoing | retiring => cases hevent
  | restoring =>
    have hcases : event = .spawned panelKey ∨ event = .becameReady panelKey := by
      simpa [sampleSurroundings] using hevent
    rcases hcases with rfl | rfl <;> trivial

theorem restorable_sample :
    Restorable sampleSurroundings sampleCatalog (sampleState false) newDisplayKey where
  agrees := rfl
  candidates := by
    rintro key ⟨state, hstate, hmem⟩ ⟨component, hcomponent, hinherits⟩
    have hcandidates : OrderedDict.get leasedRegistry.roles displayRole =
        some ⟨[newDisplayKey, displayKey], true⟩ := rfl
    have heq : state = ⟨[newDisplayKey, displayKey], true⟩ :=
      Option.some.inj (hstate.symm.trans hcandidates)
    rw [heq] at hmem
    have hobject : component.object ≠ 2 := by
      have hkeys : key = newDisplayKey ∨ key = displayKey := by simpa using hmem
      rcases hkeys with rfl | rfl
      · have hnew : sampleCatalog.components newDisplayKey = some ⟨1, [], .mipcReady⟩ := rfl
        rw [hnew] at hcomponent
        cases hcomponent
        decide
      · have hold : sampleCatalog.components displayKey = some ⟨0, [], .mipcReady⟩ := rfl
        rw [hold] at hcomponent
        cases hcomponent
        decide
    have hdisplay : sampleCatalog.manifest component =
        ⟨lit "x11", [], lit "display-provider", lit "background", [(lit "role", displayRole)]⟩ :=
      if_neg hobject
    rw [hdisplay] at hinherits
    exact absurd hinherits (by decide)
  entry := fun hsome => (hsome rfl).elim
  unstarted := .inr fun n => by
    simp only [sampleSurroundings]
    decide
  unleased := fun hnone => nomatch hnone

/-- The migration was rolled back, and nothing was noted. -/
def rolledBackCleanly : EStateM.Result Fault State Unit → Bool
  | .error _ after => after.locals.switched && after.failures.isEmpty
  | .ok _ _ => false

theorem exists_of_rolledBackCleanly {result : EStateM.Result Fault State Unit}
    (h : rolledBackCleanly result = true) : ∃ fault after, result = .error fault after ∧
      after.locals.switched = true ∧ after.failures = [] := by
  cases result with
  | ok u after => cases h
  | error fault after =>
    obtain ⟨hswitched, hclean⟩ := Bool.and_eq_true_iff.mp h
    exact ⟨fault, after, rfl, hswitched, List.isEmpty_iff.mp hclean⟩

theorem migration_rolledBack_panel : ∃ fault after,
    (migrateDisplayOutput sampleSurroundings sampleCatalog newDisplayKey (lit "select")).run
      (sampleState false) = .error fault after ∧
    RolledBack (sampleState false) after newDisplayKey := by
  have hrun : rolledBackCleanly (migration false) = true := by decide +kernel
  obtain ⟨fault, after, hfailed, hswitched, hclean⟩ := exists_of_rolledBackCleanly hrun
  exact ⟨fault, after, hfailed, migration_rolledBack sampleSurroundings sampleCatalog newDisplayKey
    (lit "select") reachable_leasedRegistry hfailed hswitched hclean undisturbed_sample
    restorable_sample⟩

/-- The table has an instance of the new display that has exited, so the new generation is left
running. -/
theorem exited_provider_survives : ∃ fault after,
    (migrateDisplayOutput sampleSurroundings sampleCatalog newDisplayKey (lit "select")).run
      (sampleState true) = .error fault after ∧
    after.locals.switched = true ∧ after.failures = [] ∧ Undisturbed sampleSurroundings ∧
    ¬ RolledBack (sampleState true) after newDisplayKey := by
  have hrun : rolledBackCleanly (migration true) = true := by decide +kernel
  obtain ⟨fault, after, hfailed, hswitched, hclean⟩ := exists_of_rolledBackCleanly hrun
  refine ⟨fault, after, hfailed, hswitched, hclean, undisturbed_sample, ?_⟩
  intro h
  have hleft : (match migration true with
      | .error _ after => ((after.instances.get newDisplayKey).map Entry.running,
          activeOutside after.selection.registry newDisplayKey)
      | .ok _ _ => (none, true)) = (some true, false) := by decide +kernel
  rw [show migration true = .error fault after from hfailed] at hleft
  obtain ⟨hruns, hinside⟩ := Prod.mk.inj hleft
  rcases h.stopped with hstopped | ⟨entry, hentry, hrunning, -⟩ | hsame | houtside
  · obtain ⟨entry, hentry, hrunning⟩ := Option.map_eq_some_iff.mp hruns
    exact hstopped ⟨entry, hentry, hrunning, nofun⟩
  · have hexited : (sampleState true).instances.get newDisplayKey =
        some ⟨2, ⟨1, [], .mipcReady⟩, 1, false, false, true⟩ := rfl
    rw [hexited] at hentry
    cases hentry
    cases hrunning
  · have hold : sessionProvider (sampleState true).selection.registry = some displayKey := rfl
    rw [hold] at hsame
    exact absurd hsame (by decide)
  · rw [hinside] at houtside
    cases houtside

end

end MsysCore.Core.DisplayRollback
