import MsysCore.Core.MigrationSteps

/-!
# What the phases of a rollback keep

While no process dies, live instances stay ready, the restored role stays as it is, and a
provider that was stopped stays away as long as nothing starts it.
-/

namespace MsysCore.Core.DisplayRollback

open Python Attempts
open RoleMethods (Grown)
open Supervisor (displayRole)
open RoleSwitch (Before)

variable {env : Surroundings} {catalog : Catalog} {s t u : State} {key other : PyStr}

/-! ## Live instances -/

/-- The process of the instance of the key runs; with the flag set the instance is ready too. -/
def Alive (s : State) (key : PyStr) (ready : Bool) : Prop :=
  ∃ entry, s.instances.get key = some entry ∧ entry.running = true ∧
    (ready = true → entry.ready = true)

abbrev Running (s : State) (key : PyStr) : Prop := Alive s key false

abbrev Ready (s : State) (key : PyStr) : Prop := Alive s key true

variable {ready : Bool}

theorem Alive.congr (h : Alive s key ready)
    (hsame : t.instances.get key = s.instances.get key) : Alive t key ready := by
  obtain ⟨entry, hentry, hflags⟩ := h
  exact ⟨entry, hsame.trans hentry, hflags⟩

theorem Alive.running (h : Alive s key ready) : Running s key := by
  obtain ⟨entry, hentry, hrunning, -⟩ := h
  exact ⟨entry, hentry, hrunning, nofun⟩

/-- No process exits or is stopped, and no channel is lost. -/
def Event.Calm : Event → Prop
  | .exited _ | .disconnected _ | .stopped _ => False
  | _ => True

theorem finalized_of_running (h : Running s key) : s.finalized key = s := by
  obtain ⟨entry, hentry, hrunning, -⟩ := h
  simp [State.finalized, hentry, hrunning]

theorem get_finalized_ne (hne : other ≠ key) :
    (s.finalized key).instances.get other = s.instances.get other := by
  unfold State.finalized
  split
  · split_ifs
    · rfl
    · exact (Instances.get_mark _ _ _ _ _ _).trans (if_neg hne)
  · rfl

theorem get_registered_ne (hne : other ≠ key) (component : Component) :
    (s.registered catalog key component).instances.get other = s.instances.get other :=
  (Instances.get_add _ _ _ _ _).trans (if_neg hne)

theorem spawned_of_running (h : Running s key) : s.spawned catalog key = s := by
  obtain ⟨entry, hentry, hrunning, -⟩ := h
  unfold State.spawned
  rw [hentry]
  cases catalog.components key with
  | none => rfl
  | some component => simp [hrunning]

theorem get_spawned_ne (hne : other ≠ key) :
    (s.spawned catalog key).instances.get other = s.instances.get other := by
  unfold State.spawned
  split
  · rfl
  · exact get_registered_ne hne _
  · split_ifs
    · rfl
    · exact (get_registered_ne hne _).trans (get_finalized_ne hne)

theorem instances_leased : (s.leased catalog key).instances = s.instances := by
  unfold State.leased
  split
  · split_ifs <;> rfl
  · rfl

theorem get_becameReady_ne (hne : other ≠ key) :
    (s.becameReady catalog key).instances.get other = s.instances.get other := by
  unfold State.becameReady
  split
  · split_ifs
    · rfl
    · rw [instances_leased]
      exact (Instances.get_mark _ _ _ _ _ _).trans (if_neg hne)
  · rfl

theorem Alive.becameReady (h : Alive s key ready) :
    Alive (s.becameReady catalog key) key ready := by
  obtain ⟨entry, hentry, hrunning, hready⟩ := h
  unfold State.becameReady
  rw [hentry]
  dsimp only
  split_ifs
  · exact ⟨entry, hentry, hrunning, hready⟩
  · have hget : ((s.setInstances (s.instances.mark key entry.running true false)).leased catalog
        key).instances.get key = some { entry with ready := true, finalized := false } := by
      rw [instances_leased]
      refine (Instances.get_mark _ _ _ _ _ _).trans ?_
      rw [if_pos rfl, hentry]
      rfl
    exact ⟨_, hget, hrunning, fun _ => rfl⟩

theorem Alive.perform {event : Event} (h : Alive s key ready) (hcalm : event.Calm) :
    Alive (event.perform catalog s) key ready := by
  cases event with
  | exited | disconnected | stopped => exact hcalm.elim
  | finalized other =>
    by_cases heq : key = other
    · have hsame : (Event.finalized key).perform catalog s = s := finalized_of_running h.running
      rw [← heq, hsame]
      exact h
    · exact h.congr (get_finalized_ne heq)
  | spawned other =>
    by_cases heq : key = other
    · have hsame : (Event.spawned key).perform catalog s = s := spawned_of_running h.running
      rw [← heq, hsame]
      exact h
    · exact h.congr (get_spawned_ne heq)
  | becameReady other =>
    by_cases heq : key = other
    · rw [← heq]
      exact h.becameReady
    · exact h.congr (get_becameReady_ne heq)

/-! ## Facts that the updates keep -/

/-- What the updates of a phase keep is stable. -/
theorem stable_of_updates {phase : Phase} {keys : PyStr → Prop} {Q : State → Prop}
    (hphase : s.locals.phase = phase)
    (hevents : ∀ n, ∀ event ∈ env.meanwhile phase n, ∀ t,
      t.selection.registry.InStep → Q t → Q (event.perform catalog t))
    (hcounted : ∀ t, Q t → Q t.counted)
    (hpopped : ∀ key t, keys key → Q t → Q (t.popped key))
    (hreleased : ∀ key t, keys key → t.selection.registry.InStep → Q t → Q (t.released key))
    (hforgotten : ∀ key t, Q t → Q (t.forgotten key))
    (hleased : ∀ key t, keys key → t.selection.registry.InStep → Q t → Q (t.leased catalog key)) :
    Stable env catalog keys (fun t => Change s t ∧ Q t) where
  suspended := by
    rintro t ⟨hchange, hQ⟩
    have hhere : t.locals.phase = phase := by rw [hchange.locals, hphase]
    have hcounted' : Change s t.counted ∧ Q t.counted :=
      ⟨hchange.trans (change_counted hchange.inStep), hcounted t hQ⟩
    refine suspended_of_events (P := fun u => Change s u ∧ Q u) hcounted' ?_
    rintro event hevent u ⟨hchange', hQ'⟩
    rw [hhere] at hevent
    exact ⟨hchange'.trans (change_perform hchange'.inStep catalog event),
      hevents _ event hevent u hchange'.inStep hQ'⟩
  counted := fun t h => ⟨h.1.trans (change_counted h.1.inStep), hcounted t h.2⟩
  popped := fun key t hkey h => ⟨h.1.trans (change_popped h.1.inStep key), hpopped key t hkey h.2⟩
  released := fun key t hkey h =>
    ⟨h.1.trans (change_released h.1.inStep key), hreleased key t hkey h.1.inStep h.2⟩
  forgotten := fun key t _ h =>
    ⟨h.1.trans (change_forgotten h.1.inStep key), hforgotten key t h.2⟩
  leased := fun key t hkey h =>
    ⟨h.1.trans (change_leased h.1.inStep catalog key), hleased key t hkey h.1.inStep h.2⟩

theorem stable_alive {phase : Phase} (hphase : s.locals.phase = phase)
    (hcalm : ∀ n, ∀ event ∈ env.meanwhile phase n, event.Calm) (key : PyStr) (ready : Bool) :
    Stable env catalog (· ≠ key) (fun t => Change s t ∧ Alive t key ready) := by
  refine stable_of_updates hphase ?_ ?_ ?_ ?_ ?_ ?_
  · intro n event hevent t _ h
    exact h.perform (hcalm n event hevent)
  · intro t h
    exact h.congr rfl
  · intro other t hne h
    exact h.congr ((Instances.get_pop _ _ _).trans (if_neg (Ne.symm hne)))
  · intro other t _ _ h
    exact h.congr rfl
  · intro other t h
    exact h.congr rfl
  · intro other t _ _ h
    exact h.congr (by rw [instances_leased])

/-! ## The role is as it was -/

/-- The provider that a rollback makes ready again. -/
def oldProvider (before : Before) : Option PyStr := before.active.or before.preferred

structure RoleHeld (before : Before) (s : State) : Prop where
  active : ((s.selection.registry.leasesOf displayRole).map RoleLease.provider).head? =
    before.active
  preferred : RoleMethods.preferredProvider s.selection.registry displayRole =
    .ok before.preferred
  override : OrderedDict.get s.selection.overrides displayRole = before.override

/-- The old provider is ready too. -/
structure Held (before : Before) (s : State) : Prop extends RoleHeld before s where
  old : ∀ old, oldProvider before = some old → Ready s old

variable {before : Before}

theorem oldProvider_of_active {active : PyStr} (h : before.active = some active) :
    oldProvider before = some active := by
  rw [oldProvider, h]
  rfl

theorem oldProvider_of_none (h : before.active = none) :
    oldProvider before = before.preferred := by
  rw [oldProvider, h]
  rfl

theorem RoleHeld.congr (h : RoleHeld before s) (hselection : t.selection = s.selection) :
    RoleHeld before t where
  active := by rw [hselection, h.active]
  preferred := by rw [hselection, h.preferred]
  override := by rw [hselection, h.override]

/-- Nothing but instances of other keys has changed. -/
theorem Held.congr (h : Held before s) (hselection : t.selection = s.selection)
    (hinstances : ∀ old, oldProvider before = some old →
      t.instances.get old = s.instances.get old) : Held before t where
  toRoleHeld := h.toRoleHeld.congr hselection
  old := fun old hold => (h.old old hold).congr (hinstances old hold)

theorem head?_map_filter {leases : List RoleLease} {active : Option PyStr}
    (h : (leases.map RoleLease.provider).head? = active) (hne : active ≠ some key) :
    ((leases.filter fun lease => lease.provider ≠ key).map RoleLease.provider).head? = active := by
  cases leases with
  | nil => exact h
  | cons lease leases =>
    have hfirst : some lease.provider = active := h
    have hkept : lease.provider ≠ key := by
      intro heq
      exact hne (by rw [← hfirst, heq])
    rw [List.filter_cons_of_pos (by simpa using hkept)]
    exact h

theorem RoleHeld.released (h : RoleHeld before s) (hstep : s.selection.registry.InStep)
    (hne : oldProvider before ≠ some key) : RoleHeld before (s.released key) := by
  have hchange := change_released hstep key
  refine ⟨?_, ?_, ?_⟩
  · have hactive : before.active ≠ some key := fun heq => hne (oldProvider_of_active heq)
    have hleases := RoleMethods.leasesOf_releaseProvider hstep key displayRole
    change (((s.selection.registry.releaseProvider key).leasesOf displayRole).map
      RoleLease.provider).head? = before.active
    rw [hleases]
    exact head?_map_filter h.active hactive
  · rw [RoleMethods.preferredProvider_congr hchange.roles hchange.preferred, h.preferred]
  · rw [hchange.overrides, h.override]

theorem RoleHeld.leased (h : RoleHeld before s) (hstep : s.selection.registry.InStep)
    (hfree : before.active = none → oldProvider before ≠ some key) :
    RoleHeld before (s.leased catalog key) := by
  obtain ⟨registry, heq, hgrown⟩ := grown_leased hstep catalog key
  have hchange := change_leased hstep catalog key
  refine ⟨?_, ?_, ?_⟩
  · rw [heq]
    change ((registry.leasesOf displayRole).map RoleLease.provider).head? = before.active
    rcases hgrown.leases displayRole with hsame | ⟨hnone, hprefers⟩
    · rw [hsame, h.active]
    · -- the free role would have been leased to the old provider
      have hactive : before.active = none := by
        rw [← h.active, hnone]
        rfl
      rw [h.preferred] at hprefers
      have hpreferred : before.preferred = some key := Except.ok.inj hprefers
      exact (hfree hactive ((oldProvider_of_none hactive).trans hpreferred)).elim
  · rw [RoleMethods.preferredProvider_congr hchange.roles hchange.preferred, h.preferred]
  · rw [hchange.overrides, h.override]

theorem Held.released (h : Held before s) (hstep : s.selection.registry.InStep)
    (hne : oldProvider before ≠ some key) : Held before (s.released key) where
  toRoleHeld := h.toRoleHeld.released hstep hne
  old := fun old hold => (h.old old hold).congr rfl

theorem Held.leased (h : Held before s) (hstep : s.selection.registry.InStep)
    (hfree : before.active = none → oldProvider before ≠ some key) :
    Held before (s.leased catalog key) where
  toRoleHeld := h.toRoleHeld.leased hstep hfree
  old := fun old hold => (h.old old hold).congr (by rw [instances_leased])

theorem Held.finalized (h : Held before s) (hstep : s.selection.registry.InStep) (key : PyStr) :
    Held before (s.finalized key) := by
  by_cases hold : oldProvider before = some key
  · rw [finalized_of_running (h.old key hold).running]
    exact h
  · unfold State.finalized
    split
    · split_ifs
      · exact h
      · have hmark : Held before (s.setInstances (s.instances.mark key false false true)) := by
          refine h.congr rfl fun old hold' => ?_
          have hne : old ≠ key := by
            intro heq
            exact hold (heq ▸ hold')
          exact (Instances.get_mark _ _ _ _ _ _).trans (if_neg hne)
        exact (hmark.released (change_mark hstep key false false true).inStep hold).congr rfl
          fun _ _ => rfl
    · exact h

theorem Held.registered (h : Held before s) (hne : oldProvider before ≠ some key)
    (component : Component) : Held before (s.registered catalog key component) := by
  refine h.congr rfl fun old hold => get_registered_ne ?_ component
  intro heq
  exact hne (heq ▸ hold)

theorem Held.spawned (h : Held before s) (hstep : s.selection.registry.InStep) (key : PyStr) :
    Held before (s.spawned catalog key) := by
  by_cases hold : oldProvider before = some key
  · rw [spawned_of_running (h.old key hold).running]
    exact h
  · unfold State.spawned
    split
    · exact h
    · exact h.registered hold _
    · split_ifs
      · exact h
      · exact (h.finalized hstep key).registered hold _

theorem Held.becameReady (h : Held before s) (hstep : s.selection.registry.InStep)
    (hfree : before.active = none → oldProvider before ≠ some key) :
    Held before (s.becameReady catalog key) where
  toRoleHeld := by
    unfold State.becameReady
    split
    · rename_i entry _
      split_ifs
      · exact h.toRoleHeld
      · have hmark := change_mark hstep key entry.running true false
        have hrole : RoleHeld before
            (s.setInstances (s.instances.mark key entry.running true false)) :=
          h.toRoleHeld.congr rfl
        exact hrole.leased hmark.inStep hfree
    · exact h.toRoleHeld
  old := by
    intro old hold
    have hcalm : (Event.becameReady key).Calm := trivial
    exact (h.old old hold).perform hcalm

/-- In a phase of the rollback no process dies, and the old provider leases no free role. -/
structure Quiet (env : Surroundings) (before : Before) (phase : Phase) : Prop where
  calm : ∀ n, ∀ event ∈ env.meanwhile phase n, event.Calm
  unleased : before.active = none → ∀ old, oldProvider before = some old →
    ∀ n, .becameReady old ∉ env.meanwhile phase n

theorem Held.perform {phase : Phase} (hquiet : Quiet env before phase) {n : ℕ} {event : Event}
    (hevent : event ∈ env.meanwhile phase n) (hstep : s.selection.registry.InStep)
    (h : Held before s) : Held before (event.perform catalog s) := by
  have hcalm := hquiet.calm n event hevent
  cases event with
  | exited | disconnected | stopped => exact hcalm.elim
  | finalized key => exact h.finalized hstep key
  | spawned key => exact h.spawned hstep key
  | becameReady key =>
    refine h.becameReady hstep fun hactive hold => ?_
    exact hquiet.unleased hactive key hold n hevent

theorem stable_held {phase : Phase} (hphase : s.locals.phase = phase)
    (hquiet : Quiet env before phase) :
    Stable env catalog (oldProvider before ≠ some ·) (fun t => Change s t ∧ Held before t) := by
  refine stable_of_updates hphase ?_ ?_ ?_ ?_ ?_ ?_
  · intro n event hevent t hstep h
    exact h.perform hquiet hevent hstep
  · intro t h
    exact h.congr rfl fun _ _ => rfl
  · intro key t hne h
    refine h.congr rfl fun old hold => (Instances.get_pop _ _ _).trans (if_neg ?_)
    intro heq
    exact hne (heq ▸ hold)
  · intro key t hne hstep h
    exact h.released hstep hne
  · intro key t h
    exact h.congr rfl fun _ _ => rfl
  · intro key t hne hstep h
    exact h.leased hstep fun _ => hne

/-! ## The new provider is gone -/

/-- The provider does not run, or it holds another role. -/
def Done (provider : PyStr) (s : State) : Prop :=
  ¬ Running s provider ∨
    ∃ lease ∈ s.selection.registry.leases, lease.role ≠ displayRole ∧ lease.provider = provider

variable {provider : PyStr}

theorem Done.congr (h : Done provider s) (hselection : t.selection = s.selection)
    (hinstances : t.instances.get provider = s.instances.get provider) : Done provider t := by
  rcases h with hgone | hholds
  · exact .inl fun hruns => hgone (hruns.congr hinstances.symm)
  · exact .inr (hselection ▸ hholds)

theorem Done.released (h : Done provider s) (hstep : s.selection.registry.InStep)
    (hne : provider ≠ key) : Done provider (s.released key) := by
  rcases h with hgone | ⟨lease, hlease, hrole, hprovider⟩
  · exact .inl fun hruns => hgone (hruns.congr rfl)
  · right
    have hleases := (RoleMethods.releaseProvider_eq hstep key).2.2
    refine ⟨lease, ?_, hrole, hprovider⟩
    change lease ∈ (s.selection.registry.releaseProvider key).leases
    rw [hleases]
    exact List.mem_filter.mpr ⟨hlease, by simpa [hprovider] using hne⟩

theorem Done.leased (h : Done provider s) (hstep : s.selection.registry.InStep) :
    Done provider (s.leased catalog key) := by
  rcases h with hgone | ⟨lease, hlease, hrole, hprovider⟩
  · exact .inl fun hruns => hgone (hruns.congr (by rw [instances_leased]))
  · right
    obtain ⟨registry, heq, hgrown⟩ := grown_leased hstep catalog key
    have hmem : lease ∈ s.selection.registry.leasesOf lease.role :=
      List.mem_filter.mpr ⟨hlease, by simp⟩
    refine ⟨lease, ?_, hrole, hprovider⟩
    rw [heq]
    change lease ∈ registry.leases
    rcases hgrown.leases lease.role with hsame | ⟨hnone, -⟩
    · rw [← hsame] at hmem
      exact List.mem_of_mem_filter hmem
    · rw [hnone] at hmem
      cases hmem

theorem not_running_mark (s : State) (key : PyStr) (ready finalized : Bool) :
    ¬ Running (s.setInstances (s.instances.mark key false ready finalized)) key := by
  rintro ⟨entry, hentry, hrunning, -⟩
  have hget := Instances.get_mark s.instances key key false ready finalized
  rw [if_pos rfl] at hget
  rw [show (s.setInstances (s.instances.mark key false ready finalized)).instances =
    s.instances.mark key false ready finalized from rfl, hget] at hentry
  obtain ⟨found, -, rfl⟩ := Option.map_eq_some_iff.mp hentry
  cases hrunning

theorem Done.finalized (h : Done provider s) (hstep : s.selection.registry.InStep) (key : PyStr) :
    Done provider (s.finalized key) := by
  unfold State.finalized
  split
  · split_ifs
    · exact h
    · have hmark := change_mark hstep key false false true
      by_cases heq : provider = key
      · left
        intro hruns
        rw [heq] at hruns
        exact not_running_mark s key false true (hruns.congr rfl)
      · have hdone : Done provider (s.setInstances (s.instances.mark key false false true)) :=
          h.congr rfl ((Instances.get_mark _ _ _ _ _ _).trans (if_neg heq))
        exact (hdone.released hmark.inStep heq).congr rfl rfl
  · exact h

theorem Done.registered (h : Done provider s) (hne : provider ≠ key) (component : Component) :
    Done provider (s.registered catalog key component) :=
  h.congr rfl (get_registered_ne hne component)

theorem Done.spawned (h : Done provider s) (hstep : s.selection.registry.InStep)
    (hne : provider ≠ key) : Done provider (s.spawned catalog key) := by
  unfold State.spawned
  split
  · exact h
  · exact h.registered hne _
  · split_ifs
    · exact h
    · exact (h.finalized hstep key).registered hne _

theorem Done.becameReady (h : Done provider s) (hstep : s.selection.registry.InStep)
    (key : PyStr) : Done provider (s.becameReady catalog key) := by
  unfold State.becameReady
  split
  · rename_i entry hentry
    split_ifs
    · exact h
    · have hmark := change_mark hstep key entry.running true false
      refine Done.leased ?_ hmark.inStep
      rcases h with hgone | hholds
      · left
        rintro ⟨found, hfound, hrunning, -⟩
        have hget := Instances.get_mark s.instances key provider entry.running true false
        rw [show (s.setInstances (s.instances.mark key entry.running true false)).instances =
          s.instances.mark key entry.running true false from rfl, hget] at hfound
        split_ifs at hfound with heq
        · rw [hentry] at hfound
          cases hfound
          exact hgone ⟨entry, heq ▸ hentry, hrunning, nofun⟩
        · exact hgone ⟨found, hfound, hrunning, nofun⟩
      · exact .inr hholds
  · exact h

theorem stable_done {phase : Phase} (hphase : s.locals.phase = phase)
    (hcalm : ∀ n, ∀ event ∈ env.meanwhile phase n, event.Calm)
    (hunstarted : ∀ n, .spawned provider ∉ env.meanwhile phase n) :
    Stable env catalog (provider ≠ ·) (fun t => Change s t ∧ Done provider t) := by
  refine stable_of_updates hphase ?_ ?_ ?_ ?_ ?_ ?_
  · intro n event hevent t hstep h
    have hcalm := hcalm n event hevent
    cases event with
    | exited | disconnected | stopped => exact hcalm.elim
    | finalized key => exact h.finalized hstep key
    | spawned key =>
      refine h.spawned hstep ?_
      intro heq
      exact hunstarted n (heq ▸ hevent)
    | becameReady key => exact h.becameReady hstep key
  · intro t h
    exact h.congr rfl rfl
  · intro key t hne h
    exact h.congr rfl ((Instances.get_pop _ _ _).trans (if_neg hne))
  · intro key t hne hstep h
    exact h.released hstep hne
  · intro key t h
    exact h.congr rfl rfl
  · intro key t _ hstep h
    exact h.leased hstep

end MsysCore.Core.DisplayRollback
