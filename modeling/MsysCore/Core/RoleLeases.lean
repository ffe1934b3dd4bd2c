import MsysCore.Core.StartLocks

/-!
# Leases of live providers

A lease is live while the entry of its provider is a ready instance of the current
catalog that was not finalized. Finalization releases the leases of the provider at
once but clears `ready` only after its tasks are gone, and whoever looks at `ready` in
between gives it a new lease.
-/

namespace MsysCore.Core

open Python Runs

/-! ## Providers of a registry -/

namespace RoleRegistry

/-- Every lease is held by a provider that satisfies `P`. -/
def ProvidersIn (P : PyStr → Prop) (registry : RoleRegistry) : Prop :=
  ∀ lease ∈ registry.leases, P lease.provider

variable {P : PyStr → Prop} {registry r : RoleRegistry} {role provider : PyStr}
  {holder : Option PyStr}

theorem ProvidersIn.of_leases_eq (h : ProvidersIn P registry) (heq : r.leases = registry.leases) :
    ProvidersIn P r := by
  intro lease hlease
  rw [heq] at hlease
  exact h lease hlease

theorem ProvidersIn.acquire (h : ProvidersIn P registry) (hprovider : P provider)
    (hacquire : registry.acquire role provider holder = .ok r) : ProvidersIn P r := by
  intro lease hlease
  rw [acquire_leases hacquire] at hlease
  rcases List.mem_append.mp hlease with hold | hnew
  · exact h lease hold
  · rw [List.mem_singleton.mp hnew]
    exact hprovider

theorem ProvidersIn.releaseActive (h : ProvidersIn P registry) (role : PyStr) :
    ProvidersIn P (registry.releaseActive role) :=
  fun lease hlease => h lease (releaseActive_subset hlease)

theorem ProvidersIn.releaseProvider (h : ProvidersIn P registry) (provider : PyStr) :
    ProvidersIn (fun k => P k ∧ k ≠ provider) (registry.releaseProvider provider) :=
  fun lease hlease =>
    ⟨h lease (releaseProvider_subset hlease), provider_ne_of_mem_releaseProvider hlease⟩

theorem ProvidersIn.mono {Q : PyStr → Prop} (h : ProvidersIn P registry)
    (himp : ∀ k, P k → Q k) : ProvidersIn Q registry :=
  fun lease hlease => himp _ (h lease hlease)

/-- A loop whose steps keep the providers keeps them. -/
theorem ProvidersIn.foldl {β : Type} {f : RoleRegistry → β → RoleRegistry} {xs : List β}
    (hf : ∀ r x, x ∈ xs → ProvidersIn P r → ProvidersIn P (f r x)) (h : ProvidersIn P registry) :
    ProvidersIn P (xs.foldl f registry) := by
  induction xs generalizing registry with
  | nil => exact h
  | cons x xs ih =>
    exact ih (fun r y hy => hf r y (List.mem_cons_of_mem x hy)) (hf registry x List.mem_cons_self h)

theorem leaseOf_mem {token : ℕ} {lease : RoleLease} (h : registry.leaseOf token = some lease) :
    lease ∈ registry.leases :=
  List.mem_of_find?_eq_some h

theorem ProvidersIn.activeProviders (h : ProvidersIn P registry) {providers : List PyStr}
    (hactive : registry.activeProviders role = .ok providers) : ∀ k ∈ providers, P k := by
  obtain ⟨leases, hleases, heq⟩ := bind_eq_ok.mp hactive
  obtain ⟨_, -, hleases⟩ := bind_eq_ok.mp hleases
  cases hleases
  cases heq
  intro k hk
  obtain ⟨lease, hlease, rfl⟩ := List.mem_map.mp (List.mem_eraseDups.mp hk)
  obtain ⟨token, -, htoken⟩ := List.mem_filterMap.mp hlease
  exact h lease (leaseOf_mem htoken)

end RoleRegistry

namespace Supervisor

open RoleRegistry

section Registry

variable {P : PyStr → Prop} {registry r : RoleRegistry} {role : PyStr} {inst : Instance}

theorem providersIn_setPreference {provider : PyStr} {mode : PreferenceMode}
    (h : ProvidersIn P registry) (hset : setPreference registry role provider mode = .ok r) :
    ProvidersIn P r := by
  cases mode with
  | select => exact h.of_leases_eq (selectPreferred_leases hset)
  | reset =>
    obtain ⟨candidates, -, hset⟩ := bind_eq_ok.mp hset
    split_ifs at hset
    exact h.of_leases_eq (resetPreferred_leases hset)

theorem providersIn_leaseRole (h : ProvidersIn P registry) (hinst : P inst.key) :
    ProvidersIn P (leaseRole inst registry role) := by
  unfold leaseRole
  split
  · split_ifs
    · split
      · rename_i hacquire
        exact h.acquire hinst hacquire
      · exact h
    · exact h
  · exact h

theorem providersIn_acquireFor (h : ProvidersIn P registry) (hinst : P inst.key) :
    ProvidersIn P (acquireFor registry role inst) := by
  unfold acquireFor
  split
  · split_ifs
    · exact h
    · split
      · rename_i hacquire
        exact h.acquire hinst hacquire
      · exact h
  · exact h

theorem isCandidate_acquire {provider other : PyStr} {holder : Option PyStr}
    (h : registry.acquire role provider holder = .ok r) :
    r.isCandidate role other = registry.isCandidate role other := by
  obtain ⟨state, -, h⟩ := bind_eq_ok.mp h
  obtain ⟨_, -, h⟩ := bind_eq_ok.mp h
  split_ifs at h
  cases h
  rfl

/-- Leases are acquired again only for candidates. -/
theorem providersIn_reacquire {holder : RoleLease → Option PyStr} (leases : List RoleLease) :
    ∀ registry : RoleRegistry, ProvidersIn P registry →
      (∀ lease ∈ leases, registry.isCandidate role lease.provider = .ok true → P lease.provider) →
      ProvidersIn P (reacquire role holder leases registry) := by
  induction leases with
  | nil => exact fun _ h _ => h
  | cons lease rest ih =>
    intro registry h hleases
    unfold reacquire
    split
    · rename_i hcandidate
      split
      · rename_i leased hacquire
        refine ih leased (h.acquire (hleases lease List.mem_cons_self hcandidate) hacquire) ?_
        intro other hother hother'
        rw [isCandidate_acquire hacquire] at hother'
        exact hleases other (List.mem_cons_of_mem lease hother) hother'
      · exact h
    · exact ih registry h fun other hother => hleases other (List.mem_cons_of_mem lease hother)
    · exact h

theorem providersIn_restoreRole {before : RoleRegistry} (hbefore : ProvidersIn P before)
    (h : ProvidersIn P registry) : ProvidersIn P (restoreRole before role registry) := by
  unfold restoreRole
  refine providersIn_reacquire _ _ (ProvidersIn.releaseActive ?_ role) ?_
  · split
    · split
      · rename_i hselect
        exact h.of_leases_eq (selectPreferred_leases hselect)
      · exact h
    · exact h
  · intro lease hlease _
    obtain ⟨token, -, htoken⟩ := List.mem_filterMap.mp hlease
    exact hbefore lease (leaseOf_mem htoken)

theorem providersIn_switchRegistry {mode : PreferenceMode} {persisted : Bool}
    (h : ProvidersIn P registry) (hinst : P inst.key) :
    ProvidersIn P (switchRegistry registry role inst mode persisted) := by
  unfold switchRegistry
  split
  · exact providersIn_restoreRole h h
  · rename_i chosen hset
    have hchosen := providersIn_setPreference h hset
    split
    · split
      · split
        · exact hchosen
        · exact providersIn_restoreRole h hchosen
      · split
        · rename_i leased hacquire
          have hleased := (hchosen.releaseActive role).acquire hinst hacquire
          split
          · exact hleased
          · exact providersIn_restoreRole h hleased
        · exact providersIn_restoreRole h (hchosen.releaseActive role)
    · exact providersIn_restoreRole h hchosen

theorem providersIn_applyDisplayPreference {mode : PreferenceMode} (h : ProvidersIn P registry)
    (hinst : P inst.key) : ProvidersIn P (applyDisplayPreference registry inst mode) := by
  unfold applyDisplayPreference
  split
  · exact h
  · rename_i chosen hset
    have hreleased := (providersIn_setPreference h hset).releaseActive displayRole
    split
    · rename_i hacquire
      exact hreleased.acquire hinst hacquire
    · exact hreleased

end Registry

/-! ## Live providers -/

/-- The entry of the key is ready, not finalized, and of the current catalog. -/
def Live (s : Supervisor) (key : PyStr) : Prop :=
  ∃ i inst, s.current key = some (i, inst) ∧ inst.ready = true ∧ inst.finalized = false ∧
    s.components key = some inst.component

def LiveLeases (s : Supervisor) : Prop := ProvidersIn (Live s) s.registry

def NotFinalized (s : Supervisor) (i : ℕ) : Prop :=
  ∀ inst, s.heap i = some inst → inst.finalized = false

/-- No lease is given to an instance whose finalization has begun, a rollback restores leases of
live providers only, and no stop fails between the removal of an entry and its finalization. -/
def LeasesInTime (s : Supervisor) : Label → Prop
  | .lease (.leasePreferred i) => NotFinalized s i
  | .lease (.acquire _ i) => NotFinalized s i
  | .lease (.switchRole _ i _ _) => NotFinalized s i
  | .lease (.migrate i _) => NotFinalized s i
  | .lease (.rollbackOld i) => NotFinalized s i
  | .lease (.rollback _) => ∀ leases, s.migration = some leases → ∀ lease ∈ leases,
      s.registry.isCandidate displayRole lease.provider = .ok true → Live s lease.provider
  | .start (.retireFailed _) => False
  | .stop (.lockFailed _) => False
  | _ => True

/-- Only an entry that was not finalized is read from, and a finalized entry has exited. -/
structure ReaderInv (s : Supervisor) : Prop where
  reading : ∀ i inst, s.heap i = some inst → inst.reading = true →
    OrderedDict.get s.instances inst.key = some i ∧ inst.finalized = false
  exited : ∀ key i inst, s.current key = some (i, inst) → inst.finalized = true →
    inst.running = false

theorem readerInv_initial (components : PyStr → Option Component)
    (roles : List (PyStr × RoleState)) : ReaderInv (initial components roles) where
  reading := by
    intro i inst h
    cases h
  exited := by
    intro key i inst h
    cases h

section Readers

variable {s t : Supervisor}

theorem ReaderInv.same (hinv : ReaderInv s) (hinstances : t.instances = s.instances)
    (hheap : t.heap = s.heap) : ReaderInv t := by
  refine ⟨?_, ?_⟩
  · intro i inst h
    rw [hheap] at h
    rw [hinstances]
    exact hinv.reading i inst h
  · intro key i inst h
    rw [current_eq_some, hinstances, hheap, ← current_eq_some] at h
    exact hinv.exited key i inst h

/-- One object changes, and it does not start to be read from. -/
theorem ReaderInv.modified (hinv : ReaderInv s) {i : ℕ} {f : Instance → Instance}
    (hinstances : t.instances = s.instances) (hheap : t.heap = (s.modify i f).heap)
    (hkey : ∀ a, (f a).key = a.key)
    (hreading : ∀ a, (f a).reading = true → a.reading = true ∧ (f a).finalized = a.finalized)
    (hexited : ∀ key a, s.current key = some (i, a) → (f a).finalized = true →
      (f a).running = false) : ReaderInv t := by
  have hback : ∀ j b, t.heap j = some b →
      (j = i ∧ ∃ a, s.heap i = some a ∧ b = f a) ∨ s.heap j = some b := by
    intro j b hb
    rw [hheap] at hb
    by_cases hj : j = i
    · simp only [modify, hj, Function.update_self, Option.map_eq_some_iff] at hb
      obtain ⟨a, ha, hab⟩ := hb
      exact .inl ⟨hj, a, ha, hab.symm⟩
    · simp only [modify, Function.update_of_ne hj] at hb
      exact .inr hb
  refine ⟨?_, ?_⟩
  · intro j b hb hread
    rw [hinstances]
    rcases hback j b hb with ⟨rfl, a, ha, rfl⟩ | hold
    · obtain ⟨hread', hfinal⟩ := hreading a hread
      rw [hkey, hfinal]
      exact hinv.reading j a ha hread'
    · exact hinv.reading j b hold hread
  · intro key j b hcurrent hfinal
    obtain ⟨hentry, hb⟩ := current_eq_some.mp hcurrent
    rw [hinstances] at hentry
    rcases hback j b hb with ⟨rfl, a, ha, rfl⟩ | hold
    · exact hexited key a (current_eq_some.mpr ⟨hentry, ha⟩) hfinal
    · exact hinv.exited key j b (current_eq_some.mpr ⟨hentry, hold⟩) hfinal

theorem ReaderInv.finalized (hinv : ReaderInv s) {key : PyStr} {i : ℕ}
    (hexited : ∀ k a, s.current k = some (i, a) → a.running = false) :
    ReaderInv (s.finalize key i) :=
  hinv.modified rfl rfl (fun _ => rfl) (fun _ h => by cases h) fun k a h _ => hexited k a h

/-- The entry of the key is finalized and leaves the table. -/
theorem ReaderInv.popped (hinv : ReaderInv s) (hentries : EntryInv s) {key : PyStr} {i : ℕ}
    (hentry : OrderedDict.get s.instances key = some i) : ReaderInv (s.popInstance key i) := by
  refine ⟨?_, ?_⟩
  · intro j b hb hread
    by_cases hj : j = i
    · subst hj
      simp only [popInstance, finalize, modify, Function.update_self, Option.map_eq_some_iff] at hb
      obtain ⟨a, -, rfl⟩ := hb
      cases hread
    · simp only [popInstance, finalize, modify, Function.update_of_ne hj] at hb
      obtain ⟨hget, hfinal⟩ := hinv.reading j b hb hread
      have hk : b.key ≠ key := by
        intro hk
        rw [hk, hentry] at hget
        exact hj (Option.some.inj hget).symm
      exact ⟨(OrderedDict.get_pop_ne hk _).trans hget, hfinal⟩
  · intro k j b hcurrent hfinal
    obtain ⟨hget, hb⟩ := current_eq_some.mp hcurrent
    simp only [popInstance, OrderedDict.get_pop] at hget
    split_ifs at hget with hk
    have hj : j ≠ i := by
      rintro rfl
      exact hk (hentries.key_unique hget hentry)
    simp only [popInstance, finalize, modify, Function.update_of_ne hj] at hb
    exact hinv.exited k j b (current_eq_some.mpr ⟨hget, hb⟩) hfinal

/-- The entry of the key, if there is one, was finalized and is replaced. -/
theorem ReaderInv.spawned (hinv : ReaderInv s) {key : PyStr}
    {component : Component} {pid : ℕ}
    (hfinal : ∀ i inst, s.current key = some (i, inst) → inst.finalized = true) :
    ReaderInv (s.install key component pid) := by
  refine ⟨?_, ?_⟩
  · intro i inst h hread
    rcases install_heap h with ⟨rfl, hk, -, hnew⟩ | ⟨-, hold⟩
    · rw [hk]
      exact ⟨OrderedDict.get_set_self _ _ _, hnew⟩
    · obtain ⟨hget, hnew⟩ := hinv.reading i inst hold hread
      have hk : inst.key ≠ key := by
        intro hk
        rw [hk] at hget
        rw [hfinal i inst (current_eq_some.mpr ⟨hget, hold⟩)] at hnew
        cases hnew
      exact ⟨(OrderedDict.get_set_ne hk _ _).trans hget, hnew⟩
  · intro k i inst hcurrent hfinal'
    obtain ⟨hget, h⟩ := current_eq_some.mp hcurrent
    rcases install_heap h with ⟨-, -, -, hnew⟩ | ⟨hi, hold⟩
    · rw [hnew] at hfinal'
      cases hfinal'
    · have hk : k ≠ key := by
        rintro rfl
        simp only [install, OrderedDict.get_set_self, Option.some.injEq] at hget
        exact hi hget.symm
      simp only [install, OrderedDict.get_set_ne hk] at hget
      exact hinv.exited k i inst (current_eq_some.mpr ⟨hget, hold⟩) hfinal'

theorem startStep_readerInv {l : StartLabel} (hlocks : LockInv s) (hinv : ReaderInv s)
    (hcond : LeasesInTime s (.start l)) (h : s.startStep l = some t) : ReaderInv t := by
  cases startStep_effect h with
  | @retire c key i inst call entry _ _ =>
    exact (hinv.popped hlocks.toEntryInv (current_eq_some.mp entry).1).same rfl rfl
  | retireFailed _ _ => exact hcond.elim
  | @finalize c key i inst _ entry exited _ =>
    refine hinv.finalized fun k a hcurrent => ?_
    obtain ⟨-, ha⟩ := current_eq_some.mp hcurrent
    rw [(current_eq_some.mp entry).2] at ha
    cases ha
    exact exited
  | @spawn c pid key component call _ _ _ =>
    have hspawned : ReaderInv (s.install key component pid) :=
      hinv.spawned fun i inst hentry => (hlocks.cleared c key call i inst hentry).2
    exact hspawned.same rfl rfl
  | _ => exact hinv.same rfl rfl

theorem stopStep_readerInv {l : StopLabel} (hlocks : LockInv s) (hinv : ReaderInv s)
    (hcond : LeasesInTime s (.stop l)) (h : s.stopStep l = some t) : ReaderInv t := by
  cases stopStep_effect h with
  | @lock c key expected i _ _ entry => exact (hinv.popped hlocks.toEntryInv entry).same rfl rfl
  | lockFailed _ _ _ => exact hcond.elim
  | _ => exact hinv.same rfl rfl

theorem ReaderInv.readied (hinv : ReaderInv s) (i : ℕ) (inst : Instance) :
    ReaderInv ((s.modify i fun a => { a with ready := true }).leasePreferredRoles inst) :=
  hinv.modified (sameCalls_leasePreferredRoles _ inst).instances (leasePreferredRoles_heap _ inst)
    (fun _ => rfl) (fun _ h => ⟨h, rfl⟩) fun key a hcurrent hfinal =>
      hinv.exited key i a hcurrent hfinal

theorem lifeStep_readerInv {l : LifeLabel} (hinv : ReaderInv s) (h : s.lifeStep l = some t) :
    ReaderInv t := by
  cases l with
  | exit i =>
    cases h
    exact hinv.modified rfl rfl (fun _ => rfl) (fun _ h => ⟨h, rfl⟩) fun _ _ _ _ => rfl
  | watcherFinalize i =>
    simp only [lifeStep] at h
    split at h
    · rename_i inst hobject
      split_ifs at h with hguard
      cases h
      simp only [Bool.and_eq_true, Bool.not_eq_true'] at hguard
      refine hinv.finalized fun k a hcurrent => ?_
      obtain ⟨-, ha⟩ := current_eq_some.mp hcurrent
      rw [hobject] at ha
      cases ha
      exact hguard.1.2
    · cases h
  | channelClosed i =>
    simp only [lifeStep] at h
    split at h
    · split_ifs at h
      cases h
      exact hinv.modified rfl rfl (fun _ => rfl) (fun _ h => ⟨h, rfl⟩) fun key a hcurrent hfinal =>
        hinv.exited key i a hcurrent hfinal
    · cases h
  | readyMessage i =>
    simp only [lifeStep] at h
    split at h
    · split_ifs at h
      cases h
      exact hinv.readied i _
    · cases h
  | probeReady i =>
    simp only [lifeStep] at h
    split at h
    · split_ifs at h
      cases h
      exact hinv.readied i _
    · cases h
  | channelFailed i =>
    simp only [lifeStep] at h
    split at h
    · split_ifs at h
      cases h
      exact hinv.modified rfl rfl (fun _ => rfl) (fun _ h => by cases h) fun key a hcurrent hfinal =>
        hinv.exited key i a hcurrent hfinal
    · cases h
  | readerEnded i =>
    cases h
    exact hinv.modified rfl rfl (fun _ => rfl) (fun _ h => by cases h) fun key a hcurrent hfinal =>
      hinv.exited key i a hcurrent hfinal
  | shutdown =>
    cases h
    exact hinv.same rfl rfl

end Readers

section Leases

variable {s t : Supervisor}

theorem Live.of_eq {key : PyStr} (h : Live s key) (hcurrent : t.current key = s.current key)
    (hcomponents : t.components key = s.components key) : Live t key := by
  obtain ⟨i, inst, hentry, hready, hfinal, hcomponent⟩ := h
  exact ⟨i, inst, hcurrent.trans hentry, hready, hfinal, hcomponents.trans hcomponent⟩

/-- The table and the catalog of another key do not matter. -/
theorem liveLeases_of_current {key : PyStr}
    (hlive : ProvidersIn (fun k => Live s k ∧ k ≠ key) t.registry)
    (hcurrent : ∀ k, k ≠ key → t.current k = s.current k) (hcomponents : t.components = s.components) :
    LiveLeases t := by
  refine hlive.mono fun k hk => ?_
  exact hk.1.of_eq (hcurrent k hk.2) (congrFun hcomponents k)

theorem liveLeases_same (hlive : LiveLeases s) (hregistry : t.registry = s.registry)
    (hinstances : t.instances = s.instances) (hheap : t.heap = s.heap)
    (hcomponents : t.components = s.components) : LiveLeases t := by
  unfold LiveLeases
  rw [hregistry]
  refine hlive.mono fun k h => h.of_eq ?_ (congrFun hcomponents k)
  unfold current
  rw [hinstances, hheap]

theorem current_modify_of_ne {i : ℕ} {f : Instance → Instance} {key : PyStr}
    (h : OrderedDict.get s.instances key ≠ some i) :
    (s.modify i f).current key = s.current key := by
  have hget : OrderedDict.get (s.modify i f).instances key = OrderedDict.get s.instances key := rfl
  unfold current
  rw [hget]
  cases hentry : OrderedDict.get s.instances key with
  | none => rfl
  | some j =>
    have hj : j ≠ i := by
      rintro rfl
      exact h hentry
    simp [modify, hj]

/-- One object changes and keeps what makes it live. -/
theorem Live.modify {i : ℕ} {f : Instance → Instance} {key : PyStr} (h : Live s key)
    (hf : ∀ a, s.current key = some (i, a) → a.finalized = false → a.ready = true →
      (f a).ready = true ∧ (f a).finalized = false ∧ (f a).component = a.component) :
    Live (s.modify i f) key := by
  obtain ⟨j, inst, hentry, hready, hfinal, hcomponent⟩ := h
  obtain ⟨hget, hobject⟩ := current_eq_some.mp hentry
  by_cases hj : j = i
  · subst hj
    obtain ⟨hready', hfinal', hcomponent'⟩ := hf inst hentry hfinal hready
    refine ⟨j, f inst, current_eq_some.mpr ⟨hget, ?_⟩, hready', hfinal', ?_⟩
    · simp [Supervisor.modify, hobject]
    · rw [hcomponent']
      exact hcomponent
  · refine ⟨j, inst, ?_, hready, hfinal, hcomponent⟩
    rw [current_modify_of_ne]
    · exact hentry
    · rw [hget]
      exact fun heq => hj (Option.some.inj heq)

/-- Finalization releases what the provider holds. -/
theorem liveLeases_finalize (hlive : LiveLeases s) {key : PyStr} {i : ℕ}
    (hkey : ∀ k, OrderedDict.get s.instances k = some i → k = key) :
    LiveLeases (s.finalize key i) := by
  refine liveLeases_of_current (hlive.releaseProvider key) ?_ rfl
  intro k hk
  exact current_modify_of_ne fun hget => hk (hkey k hget)

theorem liveLeases_pop (hentries : EntryInv s) (hlive : LiveLeases s) {key : PyStr} {i : ℕ}
    (hentry : OrderedDict.get s.instances key = some i) : LiveLeases (s.popInstance key i) := by
  refine liveLeases_of_current (hlive.releaseProvider key) ?_ rfl
  intro k hk
  have hget : OrderedDict.get s.instances k ≠ some i :=
    fun hget => hk (hentries.key_unique hget hentry)
  rw [← current_modify_of_ne hget]
  unfold current
  simp only [popInstance, OrderedDict.get_pop_ne hk]
  rfl

/-- The replaced entry of the key was finalized, so the key had no lease. -/
theorem liveLeases_install (hentries : EntryInv s) (hlive : LiveLeases s) {key : PyStr}
    {component : Component} {pid : ℕ}
    (hfinal : ∀ i inst, s.current key = some (i, inst) → inst.finalized = true) :
    LiveLeases (s.install key component pid) := by
  have hother : ProvidersIn (fun k => Live s k ∧ k ≠ key) s.registry := by
    refine hlive.mono fun k h => ⟨h, ?_⟩
    rintro rfl
    obtain ⟨i, inst, hentry, -, hnew, -⟩ := h
    rw [hfinal i inst hentry] at hnew
    cases hnew
  refine liveLeases_of_current hother ?_ rfl
  intro k hk
  have hget : OrderedDict.get (s.install key component pid).instances k =
      OrderedDict.get s.instances k := OrderedDict.get_set_ne hk _ _
  unfold current
  rw [hget]
  cases hentry : OrderedDict.get s.instances k with
  | none => rfl
  | some i =>
    obtain ⟨a, ha, -⟩ := hentries.entry k i hentry
    have hi : i ≠ s.allocated := (hentries.lt_allocated ha).ne
    simp [install, hi]

theorem startStep_liveLeases {l : StartLabel} (hlocks : LockInv s) (hlive : LiveLeases s)
    (hcond : LeasesInTime s (.start l)) (h : s.startStep l = some t) : LiveLeases t := by
  cases startStep_effect h with
  | @retire c key i inst call entry _ _ =>
    have hpopped := liveLeases_pop hlocks.toEntryInv hlive (current_eq_some.mp entry).1
    exact liveLeases_same hpopped rfl rfl rfl rfl
  | retireFailed _ _ => exact hcond.elim
  | @finalize c key i inst _ entry _ _ =>
    exact liveLeases_finalize hlive fun k hget =>
      hlocks.key_unique hget (current_eq_some.mp entry).1
  | @spawn c pid key component call _ _ _ =>
    have hspawned : LiveLeases (s.install key component pid) :=
      liveLeases_install hlocks.toEntryInv hlive fun i inst hentry =>
        (hlocks.cleared c key call i inst hentry).2
    exact liveLeases_same hspawned rfl rfl rfl rfl
  | _ => exact liveLeases_same hlive rfl rfl rfl rfl

theorem stopStep_liveLeases {l : StopLabel} (hlocks : LockInv s) (hlive : LiveLeases s)
    (hcond : LeasesInTime s (.stop l)) (h : s.stopStep l = some t) : LiveLeases t := by
  cases stopStep_effect h with
  | @lock c key expected i _ _ entry =>
    have hpopped := liveLeases_pop hlocks.toEntryInv hlive entry
    exact liveLeases_same hpopped rfl rfl rfl rfl
  | lockFailed _ _ _ => exact hcond.elim
  | _ => exact liveLeases_same hlive rfl rfl rfl rfl

theorem liveLeases_leasePreferredRoles (hlive : LiveLeases s) {inst : Instance}
    (hinst : s.components inst.key = some inst.component → Live s inst.key) :
    LiveLeases (s.leasePreferredRoles inst) := by
  unfold leasePreferredRoles
  split_ifs with hcomponent
  · have hleased : ProvidersIn (Live s) (s.registry.listRoles.foldl (leaseRole inst) s.registry) :=
      ProvidersIn.foldl (fun _ _ _ h => providersIn_leaseRole h (hinst hcomponent)) hlive
    exact hleased
  · exact hlive

/-- A current instance that was not finalized gets ready. -/
theorem liveLeases_ready (hlive : LiveLeases s) {i : ℕ} {inst : Instance}
    (hobject : s.heap i = some inst) (hcurrent : OrderedDict.get s.instances inst.key = some i)
    (hfinal : inst.finalized = false) :
    LiveLeases ((s.modify i fun a => { a with ready := true }).leasePreferredRoles inst) := by
  have hready : LiveLeases (s.modify i fun a => { a with ready := true }) :=
    hlive.mono fun k h => h.modify fun a _ hnew _ => ⟨rfl, hnew, rfl⟩
  refine liveLeases_leasePreferredRoles hready fun hcomponent => ?_
  refine ⟨i, { inst with ready := true }, current_eq_some.mpr ⟨hcurrent, ?_⟩, rfl, hfinal,
    hcomponent⟩
  simp [modify, hobject]

theorem lifeStep_liveLeases {l : LifeLabel} (hlocks : LockInv s) (hreaders : ReaderInv s)
    (hlive : LiveLeases s) (h : s.lifeStep l = some t) : LiveLeases t := by
  cases l with
  | exit i =>
    cases h
    exact hlive.mono fun k h => h.modify fun a _ hnew hready => ⟨hready, hnew, rfl⟩
  | watcherFinalize i =>
    simp only [lifeStep] at h
    split at h
    · rename_i inst hobject
      split_ifs at h
      cases h
      refine liveLeases_finalize hlive fun k hget => ?_
      exact (hlocks.key_of_current (current_eq_some.mpr ⟨hget, hobject⟩)).symm
    · cases h
  | channelClosed i =>
    simp only [lifeStep] at h
    split at h
    · rename_i inst hobject
      split_ifs at h with hfinal
      cases h
      refine hlive.mono fun k h => h.modify fun a hcurrent hnew _ => ?_
      obtain ⟨-, ha⟩ := current_eq_some.mp hcurrent
      rw [hobject] at ha
      cases ha
      rw [hfinal] at hnew
      cases hnew
    · cases h
  | readyMessage i =>
    simp only [lifeStep] at h
    split at h
    · rename_i inst hobject
      split_ifs at h with hread
      cases h
      obtain ⟨hcurrent, hfinal⟩ := hreaders.reading i inst hobject hread
      exact liveLeases_ready hlive hobject hcurrent hfinal
    · cases h
  | probeReady i =>
    simp only [lifeStep] at h
    split at h
    · rename_i inst hobject
      split_ifs at h with hguard
      cases h
      simp only [Bool.and_eq_true, isCurrent, decide_eq_true_eq] at hguard
      obtain ⟨⟨hcurrent, hrunning⟩, -⟩ := hguard
      refine liveLeases_ready hlive hobject hcurrent ?_
      by_contra hfinal
      rw [hreaders.exited inst.key i inst (current_eq_some.mpr ⟨hcurrent, hobject⟩)
        (by simpa using hfinal)] at hrunning
      cases hrunning
    · cases h
  | channelFailed i =>
    simp only [lifeStep] at h
    split at h
    · rename_i inst hobject
      split_ifs at h
      cases h
      refine liveLeases_of_current (hlive.releaseProvider inst.key) ?_ rfl
      intro k hk
      have hne : OrderedDict.get s.instances k ≠ some i := fun hget =>
        hk (hlocks.key_of_current (current_eq_some.mpr ⟨hget, hobject⟩)).symm
      exact current_modify_of_ne (s := s) (i := i) hne
    · cases h
  | readerEnded i =>
    cases h
    exact hlive.mono fun k h => h.modify fun a _ hnew hready => ⟨hready, hnew, rfl⟩
  | shutdown =>
    cases h
    exact liveLeases_same hlive rfl rfl rfl rfl

theorem live_of_usable {i : ℕ} {inst : Instance} (hobject : s.heap i = some inst)
    (husable : s.isUsable i inst = true) (hfinal : NotFinalized s i) : Live s inst.key := by
  simp only [isUsable, isCurrent, Bool.and_eq_true, decide_eq_true_eq] at husable
  obtain ⟨⟨hcurrent, hready⟩, hcomponent⟩ := husable
  exact ⟨i, inst, current_eq_some.mpr ⟨hcurrent, hobject⟩, hready, hfinal inst hobject, hcomponent⟩

theorem isCandidate_foldl_drop (role provider : PyStr) (dropped : List RoleLease) :
    ∀ registry : RoleRegistry,
      (dropped.foldl drop registry).isCandidate role provider = registry.isCandidate role provider := by
  induction dropped with
  | nil => exact fun _ => rfl
  | cons lease dropped ih => exact fun registry => ih (registry.drop lease)

/-- A rollback restores leases of candidates. -/
theorem providersIn_restoreDisplayRole {P : PyStr → Prop} {leases : List RoleLease}
    {override : Option PyStr} (h : ProvidersIn P s.registry)
    (hleases : ∀ lease ∈ leases, s.registry.isCandidate displayRole lease.provider = .ok true →
      P lease.provider) : ProvidersIn P (s.restoreDisplayRole leases override) := by
  have hrestored : ∀ chosen : RoleRegistry, chosen.leases = s.registry.leases →
      (∀ k, chosen.isCandidate displayRole k = s.registry.isCandidate displayRole k) →
      ProvidersIn P
        (reacquire displayRole s.restoredHolder leases (chosen.releaseActive displayRole)) := by
    intro chosen hsame hcandidates
    refine providersIn_reacquire _ _ ((h.of_leases_eq hsame).releaseActive displayRole) ?_
    intro lease hlease hcandidate
    refine hleases lease hlease ?_
    rw [← hcandidates, ← hcandidate]
    exact (isCandidate_foldl_drop displayRole lease.provider _ chosen).symm
  cases override with
  | some provider =>
    simp only [restoreDisplayRole]
    split
    · exact h
    · rename_i chosen hchosen
      refine hrestored chosen (selectPreferred_leases hchosen) ?_
      obtain ⟨_, -, hchosen⟩ := bind_eq_ok.mp hchosen
      cases hchosen
      exact fun _ => rfl
  | none =>
    simp only [restoreDisplayRole]
    split
    · exact h
    · rename_i chosen hchosen
      refine hrestored chosen (resetPreferred_leases hchosen) ?_
      obtain ⟨_, -, hchosen⟩ := bind_eq_ok.mp hchosen
      cases hchosen
      exact fun _ => rfl

/-- A reload gives leases only to providers that had one. -/
theorem liveLeases_reload (hlive : LiveLeases s) (components : PyStr → Option Component)
    (roles : List (PyStr × RoleState)) (overrides : List (PyStr × PyStr)) :
    LiveLeases (s.reloadCatalog components roles overrides) := by
  have hempty : ProvidersIn (Live (s.reloadCatalog components roles overrides))
      (overrides.foldl carryOverride (RoleRegistry.ofRoles roles)) := by
    refine ProvidersIn.foldl ?_ fun lease hlease => by cases hlease
    intro r override _ h
    unfold carryOverride
    split
    · rename_i hselect
      exact h.of_leases_eq (selectPreferred_leases hselect)
    · exact h
  refine ProvidersIn.foldl ?_ hempty
  intro r role _ hr
  unfold carryRole
  split
  · rename_i providers hproviders
    refine ProvidersIn.foldl ?_ hr
    intro r' provider hprovider hr'
    obtain ⟨i, inst, hentry, -, hfinal, -⟩ := hlive.activeProviders hproviders provider hprovider
    unfold carryLease
    rw [hentry]
    simp only [Bool.and_eq_true, decide_eq_true_eq]
    split_ifs with hguard
    · split
      · rename_i hacquire
        exact hr'.acquire ⟨i, inst, hentry, hguard.1, hfinal, hguard.2⟩ hacquire
      · exact hr'
    · exact hr'
  · exact hr

theorem leaseStep_liveLeases {l : LeaseLabel} (hlive : LiveLeases s)
    (hcond : LeasesInTime s (.lease l)) (h : s.leaseStep l = some t) : LiveLeases t := by
  cases l with
  | leasePreferred i =>
    obtain ⟨inst, hobject, husable, rfl⟩ := onUsable_eq_some h
    exact liveLeases_leasePreferredRoles hlive fun _ => live_of_usable hobject husable hcond
  | acquire role i =>
    obtain ⟨inst, hobject, husable, rfl⟩ := onUsable_eq_some h
    exact providersIn_acquireFor hlive (live_of_usable hobject husable hcond)
  | releaseFailed key =>
    cases h
    exact fun lease hlease => hlive lease (releaseProvider_subset hlease)
  | switchRole role i mode persisted =>
    obtain ⟨inst, hobject, husable, rfl⟩ := onUsable_eq_some h
    exact providersIn_switchRegistry hlive (live_of_usable hobject husable hcond)
  | migrationBegin =>
    simp only [leaseStep] at h
    split_ifs at h
    cases h
    exact liveLeases_same hlive rfl rfl rfl rfl
  | migrate i mode =>
    simp only [leaseStep] at h
    split_ifs at h
    obtain ⟨inst, hobject, husable, rfl⟩ := onUsable_eq_some h
    exact providersIn_applyDisplayPreference hlive (live_of_usable hobject husable hcond)
  | rollback override =>
    simp only [leaseStep] at h
    split at h
    · rename_i leases hmigration
      cases h
      exact providersIn_restoreDisplayRole hlive (hcond leases hmigration)
    · cases h
  | rollbackOld i =>
    obtain ⟨inst, hobject, husable, rfl⟩ := onUsable_eq_some h
    split
    · rename_i hacquire
      exact ProvidersIn.acquire hlive (live_of_usable hobject husable hcond) hacquire
    · exact hlive
  | migrationEnd =>
    simp only [leaseStep] at h
    split_ifs at h
    cases h
    exact liveLeases_same hlive rfl rfl rfl rfl
  | reload components roles overrides =>
    cases h
    exact liveLeases_reload hlive components roles overrides

end Leases

/-! ## Runs -/

structure LeaseInv (s : Supervisor) : Prop where
  locks : LockInv s
  readers : ReaderInv s
  live : LiveLeases s

theorem leaseInv_initial (components : PyStr → Option Component)
    (roles : List (PyStr × RoleState)) : LeaseInv (initial components roles) where
  locks := lockInv_initial components roles
  readers := readerInv_initial components roles
  live := by
    intro lease h
    cases h

theorem step_leaseInv {s t : Supervisor} {l : Label} (hinv : LeaseInv s)
    (hcond : LeasesInTime s l) (h : s.step l = some t) : LeaseInv t := by
  have hlocks := step_lockInv hinv.locks h
  cases l with
  | start l =>
    exact ⟨hlocks, startStep_readerInv hinv.locks hinv.readers hcond h,
      startStep_liveLeases hinv.locks hinv.live hcond h⟩
  | stop l =>
    exact ⟨hlocks, stopStep_readerInv hinv.locks hinv.readers hcond h,
      stopStep_liveLeases hinv.locks hinv.live hcond h⟩
  | life l =>
    exact ⟨hlocks, lifeStep_readerInv hinv.readers h,
      lifeStep_liveLeases hinv.locks hinv.readers hinv.live h⟩
  | lease l =>
    obtain ⟨hsame, hheap⟩ := leaseStep_frame h
    exact ⟨hlocks, hinv.readers.same hsame.instances hheap,
      leaseStep_liveLeases hinv.live hcond h⟩

/-- When leases are given in time, every lease of every reachable state is live. -/
theorem run_liveLeases (components : PyStr → Option Component) (roles : List (PyStr × RoleState))
    (ls : List Label) (s : Supervisor)
    (halong : Along step LeasesInTime (initial components roles) ls)
    (hrun : run step (initial components roles) ls = some s) : LiveLeases s := by
  have hinv : LeaseInv s := run_invariant (fun _ _ _ hs hcond hstep => step_leaseInv hs hcond hstep)
    ls (leaseInv_initial components roles) halong hrun
  exact hinv.live

/-- A role that prefers `a`. -/
def oneRole : List (PyStr × RoleState) := [(lit "r", ⟨[lit "a"], true⟩)]

theorem readyA_live : ∃ s, run step (initial oneComponent oneRole)
      (startA ++ [.life (.readyMessage 0)]) = some s ∧
    s.registry.activeProvider (lit "r") = .ok (some (lit "a")) ∧ Live s (lit "a") := by
  have hlast : (run step (initial oneComponent oneRole) (startA ++ [.life (.readyMessage 0)])).map
      (fun s => (s.registry.leases, s.registry.activeProvider (lit "r"))) =
      some ([⟨1, lit "r", lit "a", some (lit "generation:1")⟩], .ok (some (lit "a"))) := by
    decide +kernel
  obtain ⟨s, hrun, hs⟩ := Option.map_eq_some_iff.mp hlast
  obtain ⟨hleases, hactive⟩ := Prod.mk.inj hs
  have halong : Along step LeasesInTime (initial oneComponent oneRole)
      (startA ++ [.life (.readyMessage 0)]) :=
    ⟨trivial, trivial, trivial, trivial, trivial, trivial⟩
  refine ⟨s, hrun, hactive, ?_⟩
  refine run_liveLeases oneComponent oneRole _ s halong hrun
    ⟨1, lit "r", lit "a", some (lit "generation:1")⟩ ?_
  rw [hleases]
  exact List.mem_singleton_self _

/-- `a` exits right after it got ready, and a caller of `ensure_ready` finds `ready` still set
while the watcher finalizes it. -/
def lateLease : List Label :=
  startA ++ [.life (.readyMessage 0), .life (.exit 0), .life (.watcherFinalize 0),
    .lease (.leasePreferred 0)]

theorem lateLease_not_live :
    ¬ ∀ (components : PyStr → Option Component) (roles : List (PyStr × RoleState))
      (ls : List Label) (s : Supervisor),
      run step (initial components roles) ls = some s → LiveLeases s := by
  intro hall
  have hlast : (run step (initial oneComponent oneRole) lateLease).map
      (fun s => (s.registry.leases, s.current (lit "a"))) =
      some ([⟨2, lit "r", lit "a", some (lit "generation:1")⟩],
        some (0, ⟨lit "a", ⟨0, [], .mipcReady⟩, 1, 100, false, true, true, false⟩)) := by
    decide +kernel
  obtain ⟨s, hrun, hs⟩ := Option.map_eq_some_iff.mp hlast
  obtain ⟨hleases, hcurrent⟩ := Prod.mk.inj hs
  have hmem : (⟨2, lit "r", lit "a", some (lit "generation:1")⟩ : RoleLease) ∈ s.registry.leases := by
    rw [hleases]
    exact List.mem_singleton_self _
  obtain ⟨i, inst, hentry, -, hfinal, -⟩ := hall oneComponent oneRole lateLease s hrun _ hmem
  have hinst : s.current (lit "a") = some (i, inst) := hentry
  rw [hcurrent] at hinst
  cases hinst
  cases hfinal

end Supervisor

end MsysCore.Core
