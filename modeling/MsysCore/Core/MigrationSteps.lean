import MsysCore.Core.DisplayRollback

/-!
# What the steps of a display migration keep

Every step of a migration is made of a few updates of the state. None of them touches a
preference, brings an instance back, or takes a lease from a provider other than the one whose
instance it ends.
-/

namespace MsysCore.Core

open Python

/-! ## Leases of preferred roles -/

namespace RoleMethods

open RoleRegistry

variable {registry r : RoleRegistry} {role key : PyStr} {inst : Instance}

theorem head?_eraseDups {α : Type} [BEq α] (l : List α) : l.eraseDups.head? = l.head? := by
  cases l with
  | nil => rfl
  | cons a l => rw [List.eraseDups_cons, List.head?_cons, List.head?_cons]

theorem leaseOf_of_mem (h : InStep registry) {lease : RoleLease}
    (hlease : lease ∈ registry.leases) : registry.leaseOf lease.token = some lease := by
  have hat := leaseAt_of_mem h hlease
  unfold leaseAt at hat
  cases hof : registry.leaseOf lease.token with
  | none =>
    rw [hof] at hat
    cases hat
  | some found =>
    rw [hof] at hat
    cases hat
    rfl

theorem filterMap_leaseOf (h : InStep registry) (leases : List RoleLease) :
    leases ⊆ registry.leases →
      (leases.map RoleLease.token).filterMap registry.leaseOf = leases := by
  induction leases with
  | nil =>
    intro _
    rfl
  | cons lease leases ih =>
    intro hsubset
    obtain ⟨hlease, hrest⟩ := List.cons_subset.mp hsubset
    rw [List.map_cons, List.filterMap_cons, leaseOf_of_mem h hlease, ih hrest]

theorem leasesOf_of_activeProvider (h : InStep registry)
    (hactive : registry.activeProvider role = .ok none) : registry.leasesOf role = [] := by
  obtain ⟨providers, hproviders, hhead⟩ := bind_eq_ok.mp hactive
  obtain ⟨leases, hleases, hdups⟩ := bind_eq_ok.mp hproviders
  obtain ⟨state, hstate, htokens⟩ := bind_eq_ok.mp hleases
  have hrole : role ∈ registry.roles.map Prod.fst := by
    unfold RoleRegistry.state at hstate
    cases hget : OrderedDict.get registry.roles role with
    | none => simp [hget] at hstate
    | some found => exact OrderedDict.mem_keys_of_get hget
  cases htokens
  cases hdups
  cases hhead' : registry.leasesOf role with
  | nil => rfl
  | cons lease leases =>
    rw [h.tokens_eq hrole, filterMap_leaseOf h (registry.leasesOf role) (List.filter_subset_self _),
      hhead'] at hhead
    rw [head?_eraseDups] at hhead
    cases hhead

theorem preferredProvider_eq {chosen : Option PyStr}
    (h : registry.preferredProvider role = .ok chosen) :
    preferredProvider registry role = .ok chosen := by
  obtain ⟨state, hstate, hchosen⟩ := bind_eq_ok.mp h
  unfold RoleRegistry.state at hstate
  unfold preferredProvider stateOf
  cases hget : OrderedDict.get registry.roles role with
  | none => simp [hget] at hstate
  | some found =>
    rw [hget] at hstate
    cases hstate
    cases hpreferred : OrderedDict.get registry.preferred role with
    | none =>
      rw [hpreferred] at hchosen
      cases hchosen
      rfl
    | some selected =>
      rw [hpreferred] at hchosen
      cases hchosen
      rfl

/-- Roles without a lease that prefer the provider may have been leased to it. -/
structure Grown (provider : PyStr) (before after : RoleRegistry) : Prop where
  inStep : after.InStep
  roles : after.roles = before.roles
  preferred : after.preferred = before.preferred
  leases : ∀ role, after.leasesOf role = before.leasesOf role ∨
    before.leasesOf role = [] ∧ preferredProvider before role = .ok (some provider)

theorem Grown.refl (h : InStep registry) (provider : PyStr) : Grown provider registry registry :=
  ⟨h, rfl, rfl, fun _ => .inl rfl⟩

theorem preferredProvider_congr (hroles : r.roles = registry.roles)
    (hpreferred : r.preferred = registry.preferred) (role : PyStr) :
    preferredProvider r role = preferredProvider registry role := by
  unfold preferredProvider stateOf
  rw [hroles, hpreferred]

theorem Grown.trans {a b c : RoleRegistry} (h : Grown key a b) (h' : Grown key b c) :
    Grown key a c where
  inStep := h'.inStep
  roles := h'.roles.trans h.roles
  preferred := h'.preferred.trans h.preferred
  leases := by
    intro role
    have hchosen := preferredProvider_congr h.roles h.preferred role
    rcases h.leases role with heq | hgrown
    · rcases h'.leases role with heq' | ⟨hnone, hprefers⟩
      · exact .inl (heq'.trans heq)
      · exact .inr ⟨heq ▸ hnone, hchosen ▸ hprefers⟩
    · exact .inr hgrown

theorem grown_leaseRole (h : InStep registry) (inst : Instance) (role : PyStr) :
    Grown inst.key registry (Supervisor.leaseRole inst registry role) := by
  unfold Supervisor.leaseRole
  split
  · rename_i chosen hpreferred hactive
    split_ifs with hkey
    · split
      · rename_i leased hacquire
        have hnone := leasesOf_of_activeProvider h hactive
        have honly := onlyRole_acquire hacquire
        refine ⟨h.acquire hacquire, honly.roles, ?_, ?_⟩
        · obtain ⟨-, -, rfl⟩ := acquire_eq_ok.mp hacquire
          rfl
        · intro other
          by_cases hother : other = role
          · rw [hother, ← hkey]
            exact .inr ⟨hnone, preferredProvider_eq hpreferred⟩
          · exact .inl (honly.leases other hother)
      · exact Grown.refl h _
    · exact Grown.refl h _
  · exact Grown.refl h _

theorem grown_leaseRoles (inst : Instance) (roles : List PyStr) : ∀ {registry : RoleRegistry},
    InStep registry →
      Grown inst.key registry (roles.foldl (Supervisor.leaseRole inst) registry) := by
  induction roles with
  | nil => exact fun h => Grown.refl h _
  | cons role roles ih =>
    intro registry h
    have hfirst := grown_leaseRole h inst role
    exact hfirst.trans (ih hfirst.inStep)

theorem leasesOf_releaseProvider (h : InStep registry) (provider role : PyStr) :
    (registry.releaseProvider provider).leasesOf role =
      (registry.leasesOf role).filter fun lease => lease.provider ≠ provider := by
  obtain ⟨-, -, hleases⟩ := releaseProvider_eq h provider
  rw [leasesOf, hleases, leasesOf, List.filter_filter, List.filter_filter]
  congr 1
  funext lease
  exact Bool.and_comm _ _

end RoleMethods

namespace DisplayRollback

open Attempts
open RoleMethods (Grown)
open Supervisor (displayRole)

variable {env : Surroundings} {catalog : Catalog} {s t u : State} {key other : PyStr}

/-! ## The instance table -/

namespace Instances

variable (table : Instances)

theorem get_add (key other : PyStr) (component : Component) (generation : ℕ) :
    (table.add key component generation).get other =
      if other = key then some ⟨table.nextObject, component, generation, true, false, false⟩
      else table.get other := OrderedDict.get_set _ _ _ _

theorem get_pop (key other : PyStr) :
    (table.pop key).get other = if other = key then none else table.get other :=
  OrderedDict.get_pop _ _ _

theorem get_mark (key other : PyStr) (running ready finalized : Bool) :
    (table.mark key running ready finalized).get other =
      if other = key then (table.get key).map fun entry =>
        { entry with running := running, ready := ready, finalized := finalized }
      else table.get other := by
  simp only [get, mark]
  cases hfound : OrderedDict.get table.entries key with
  | none =>
    split_ifs with heq
    · rw [heq, hfound]
      rfl
    · rfl
  | some found =>
    rw [OrderedDict.get_set]
    rfl

end Instances

def State.objectOf (s : State) (key : PyStr) : Option ℕ := (s.instances.get key).map Entry.object

/-! ## What every update keeps -/

/-- The later state comes out of the earlier one by updates of instances and leases. -/
structure Change (s t : State) : Prop where
  inStep : t.selection.registry.InStep
  locals : t.locals = s.locals
  failures : t.failures = s.failures
  roles : t.selection.registry.roles = s.selection.registry.roles
  preferred : t.selection.registry.preferred = s.selection.registry.preferred
  overrides : t.selection.overrides = s.selection.overrides
  numbers : s.instances.nextObject ≤ t.instances.nextObject
  objects : ∀ key object, t.objectOf key = some object →
    s.objectOf key = some object ∨ s.instances.nextObject ≤ object

theorem Change.refl (h : s.selection.registry.InStep) : Change s s :=
  ⟨h, rfl, rfl, rfl, rfl, rfl, le_rfl, fun _ _ h => .inl h⟩

theorem Change.trans (h : Change s t) (h' : Change t u) : Change s u where
  inStep := h'.inStep
  locals := h'.locals.trans h.locals
  failures := h'.failures.trans h.failures
  roles := h'.roles.trans h.roles
  preferred := h'.preferred.trans h.preferred
  overrides := h'.overrides.trans h.overrides
  numbers := h.numbers.trans h'.numbers
  objects := by
    intro key object hobject
    rcases h'.objects key object hobject with hold | hnew
    · exact h.objects key object hold
    · exact .inr (h.numbers.trans hnew)

/-- An update of the instance table alone. -/
theorem change_setInstances (h : s.selection.registry.InStep) {table : Instances}
    (hnumbers : s.instances.nextObject ≤ table.nextObject)
    (hobjects : ∀ key object, (table.get key).map Entry.object = some object →
      s.objectOf key = some object ∨ s.instances.nextObject ≤ object) :
    Change s (s.setInstances table) :=
  ⟨h, rfl, rfl, rfl, rfl, rfl, hnumbers, hobjects⟩

/-- An update of the lease table alone. -/
theorem change_setRegistry {registry : RoleRegistry} (h : registry.InStep)
    (hroles : registry.roles = s.selection.registry.roles)
    (hpreferred : registry.preferred = s.selection.registry.preferred) :
    Change s (s.setRegistry registry) :=
  ⟨h, rfl, rfl, hroles, hpreferred, rfl, le_rfl, fun _ _ h => .inl h⟩

theorem change_mark (h : s.selection.registry.InStep) (key : PyStr)
    (running ready finalized : Bool) :
    Change s (s.setInstances (s.instances.mark key running ready finalized)) := by
  have hnumbers : s.instances.nextObject ≤
      (s.instances.mark key running ready finalized).nextObject := le_rfl
  apply change_setInstances h hnumbers
  intro other object hobject
  rw [Instances.get_mark] at hobject
  left
  split_ifs at hobject with heq
  · rw [heq, State.objectOf, ← hobject, Option.map_map]
    rfl
  · exact hobject

theorem change_popped (h : s.selection.registry.InStep) (key : PyStr) :
    Change s (s.popped key) := by
  have hnumbers : s.instances.nextObject ≤ (s.instances.pop key).nextObject := le_rfl
  apply change_setInstances h hnumbers
  intro other object hobject
  rw [Instances.get_pop] at hobject
  split_ifs at hobject
  · cases hobject
  · exact .inl hobject

theorem change_released (h : s.selection.registry.InStep) (key : PyStr) :
    Change s (s.released key) := by
  obtain ⟨hroles, hpreferred⟩ := RoleMethods.foldl_drop_roles
    (s.selection.registry.leases.filter fun lease => lease.provider = key) s.selection.registry
  exact change_setRegistry (RoleMethods.releaseProvider_eq h key).2.1 hroles hpreferred

theorem change_forgotten (h : s.selection.registry.InStep) (key : PyStr) :
    Change s (s.forgotten key) :=
  ⟨h, rfl, rfl, rfl, rfl, rfl, le_rfl, fun _ _ h => .inl h⟩

theorem change_counted (h : s.selection.registry.InStep) : Change s s.counted :=
  ⟨h, rfl, rfl, rfl, rfl, rfl, le_rfl, fun _ _ h => .inl h⟩

theorem change_finalized (h : s.selection.registry.InStep) (key : PyStr) :
    Change s (s.finalized key) := by
  unfold State.finalized
  split
  · split_ifs
    · exact Change.refl h
    · have hmark := change_mark h key false false true
      have hreleased := hmark.trans (change_released hmark.inStep key)
      exact hreleased.trans (change_forgotten hreleased.inStep key)
  · exact Change.refl h

theorem grown_leased (h : s.selection.registry.InStep) (catalog : Catalog) (key : PyStr) :
    ∃ registry, s.leased catalog key = s.setRegistry registry ∧
      Grown key s.selection.registry registry := by
  unfold State.leased
  split
  · rename_i entry _
    split_ifs
    · exact ⟨_, rfl, RoleMethods.grown_leaseRoles (entry.instance key) _ h⟩
    · exact ⟨s.selection.registry, rfl, Grown.refl h key⟩
  · exact ⟨s.selection.registry, rfl, Grown.refl h key⟩

theorem change_leased (h : s.selection.registry.InStep) (catalog : Catalog) (key : PyStr) :
    Change s (s.leased catalog key) := by
  obtain ⟨registry, heq, hgrown⟩ := grown_leased h catalog key
  rw [heq]
  exact change_setRegistry hgrown.inStep hgrown.roles hgrown.preferred

theorem change_registered (h : s.selection.registry.InStep) (catalog : Catalog) (key : PyStr)
    (component : Component) : Change s (s.registered catalog key component) := by
  refine ⟨h, rfl, rfl, rfl, rfl, rfl, Nat.le_succ _, ?_⟩
  intro other object hobject
  unfold State.objectOf State.registered at hobject
  rw [Instances.get_add] at hobject
  split_ifs at hobject
  · cases hobject
    exact .inr le_rfl
  · exact .inl hobject

theorem change_spawned (h : s.selection.registry.InStep) (catalog : Catalog) (key : PyStr) :
    Change s (s.spawned catalog key) := by
  unfold State.spawned
  split
  · exact Change.refl h
  · exact change_registered h catalog key _
  · split_ifs
    · exact Change.refl h
    · have hfinalized := change_finalized h key
      exact hfinalized.trans (change_registered hfinalized.inStep catalog key _)

theorem change_becameReady (h : s.selection.registry.InStep) (catalog : Catalog) (key : PyStr) :
    Change s (s.becameReady catalog key) := by
  unfold State.becameReady
  split
  · rename_i entry _
    split_ifs
    · exact Change.refl h
    · have hmark := change_mark h key entry.running true false
      exact hmark.trans (change_leased hmark.inStep catalog key)
  · exact Change.refl h

theorem change_perform (h : s.selection.registry.InStep) (catalog : Catalog) (event : Event) :
    Change s (event.perform catalog s) := by
  cases event with
  | exited key =>
    simp only [Event.perform]
    split
    · rename_i entry _
      exact change_mark h key false entry.ready entry.finalized
    · exact Change.refl h
  | disconnected key =>
    simp only [Event.perform]
    split
    · rename_i entry _
      exact change_mark h key entry.running false entry.finalized
    · exact Change.refl h
  | finalized key => exact change_finalized h key
  | stopped key =>
    have hpopped := change_popped h key
    have hreleased := hpopped.trans (change_released hpopped.inStep key)
    exact hreleased.trans (change_forgotten hreleased.inStep key)
  | spawned key => exact change_spawned h catalog key
  | becameReady key => exact change_becameReady h catalog key

/-- What holds through the events of a suspension holds after it. -/
theorem suspended_of_events {P : State → Prop} (hcounted : P s.counted)
    (hevents : ∀ event ∈ env.meanwhile s.locals.phase s.awaits, ∀ t, P t →
      P (event.perform catalog t)) : P (s.suspended env catalog) :=
  List.foldlRecOn _ _ hcounted fun t ht event hevent => hevents event hevent t ht

theorem change_suspended (h : s.selection.registry.InStep) (env : Surroundings)
    (catalog : Catalog) : Change s (s.suspended env catalog) := by
  have hcounted : Change s s.counted := change_counted h
  exact suspended_of_events hcounted fun event _ t ht =>
    ht.trans (change_perform ht.inStep catalog event)

/-! ## Computations that are made of these updates -/

/-- The updates of computations that end and start instances of these keys keep the invariant. -/
structure Stable (env : Surroundings) (catalog : Catalog) (keys : PyStr → Prop)
    (P : State → Prop) : Prop where
  suspended : ∀ s, P s → P (s.suspended env catalog)
  counted : ∀ s, P s → P s.counted
  popped : ∀ key s, keys key → P s → P (s.popped key)
  released : ∀ key s, keys key → P s → P (s.released key)
  forgotten : ∀ key s, keys key → P s → P (s.forgotten key)
  leased : ∀ key s, keys key → P s → P (s.leased catalog key)

theorem stable_change (env : Surroundings) (catalog : Catalog) (keys : PyStr → Prop) (s : State) :
    Stable env catalog keys (Change s) where
  suspended := fun _ h => h.trans (change_suspended h.inStep env catalog)
  counted := fun _ h => h.trans (change_counted h.inStep)
  popped := fun key _ _ h => h.trans (change_popped h.inStep key)
  released := fun key _ _ h => h.trans (change_released h.inStep key)
  forgotten := fun key _ _ h => h.trans (change_forgotten h.inStep key)
  leased := fun key _ _ h => h.trans (change_leased h.inStep catalog key)

namespace Stable

variable {keys : PyStr → Prop} {P : State → Prop}

theorem suspend (h : Stable env catalog keys P) : Keeps P (suspend env catalog) :=
  keeps_modify h.suspended

theorem attempt (h : Stable env catalog keys P) : Keeps P (attempt env) := by
  intro s hs
  simp only [EStateM.run, DisplayRollback.attempt]
  cases env.raises s.locals.phase s.awaits with
  | none => exact h.counted s hs
  | some text => exact h.counted s hs

theorem await (h : Stable env catalog keys P) : Keeps P (await env catalog) :=
  h.suspend.bind fun _ => h.attempt

theorem require (condition : Bool) (fault : Fault) : Keeps P (require condition fault) := by
  unfold DisplayRollback.require
  split_ifs
  · exact keeps_pure ()
  · exact keeps_throw fault

theorem present (key : PyStr) : Keeps P (present key) := by
  intro s hs
  simp only [EStateM.run, DisplayRollback.present]
  cases s.instances.get key with
  | none => exact hs
  | some entry => exact hs

theorem get : Keeps P (get : Migrating State) := fun _ h => h

theorem announce (h : Stable env catalog keys P) (component : Component) :
    Keeps P (announce env catalog component) := by
  unfold DisplayRollback.announce
  split_ifs
  · exact h.await
  · exact keeps_pure ()

theorem endInstance (h : Stable env catalog keys P) (hkey : keys key) (component : Component) :
    Keeps P (endInstance env catalog key component) := by
  refine (h.announce component).bind fun _ => ?_
  refine (keeps_modify fun s hs => h.released key s hkey hs).bind fun _ => ?_
  refine h.suspend.bind fun _ => ?_
  refine (keeps_modify fun s hs => h.forgotten key s hkey hs).bind fun _ => ?_
  exact h.suspend.bind fun _ => h.announce component

theorem stopInstance (h : Stable env catalog keys P) (hkey : keys key) (component : Component) :
    Keeps P (stopInstance env catalog key component) :=
  (keeps_modify fun s hs => h.popped key s hkey hs).bind fun _ => h.endInstance hkey component

theorem stopComponent (h : Stable env catalog keys P) (hkey : keys key) (expected : ℕ) :
    Keeps P (stopComponent env catalog key expected) := by
  refine h.suspend.bind fun _ => get.bind fun s => ?_
  cases s.instances.get key with
  | none => exact keeps_pure ()
  | some entry =>
    dsimp only
    split_ifs
    · exact h.stopInstance hkey entry.component
    · exact keeps_pure ()

theorem ensureReady (h : Stable env catalog keys P) (hkey : keys key) :
    Keeps P (ensureReady env catalog key) := by
  refine h.await.bind fun _ => (present key).bind fun started => ?_
  refine (require _ _).bind fun _ => h.await.bind fun _ => (present key).bind fun entry => ?_
  refine (require _ _).bind fun _ => ?_
  refine (keeps_modify fun s hs => h.leased key s hkey hs).bind fun _ => ?_
  exact (h.announce entry.component).bind fun _ => keeps_pure entry

theorem retireAttempts (h : Stable env catalog keys P) (hkey : keys key) (attempts : ℕ) :
    Keeps P (retireAttempts env catalog key attempts) := by
  induction attempts with
  | zero => exact get.bind fun _ => require _ _
  | succ attempts ih =>
    refine get.bind fun s => ?_
    split_ifs
    · exact keeps_pure ()
    · cases s.instances.get key with
      | none => exact keeps_pure ()
      | some current => exact (h.stopComponent hkey current.object).bind fun _ => ih

theorem retireDisplayProvider (h : Stable env catalog keys P) (hkey : keys key) :
    Keeps P (retireDisplayProvider env catalog key) := h.retireAttempts hkey 3

theorem mono {keys' : PyStr → Prop} (h : Stable env catalog keys P)
    (hsub : ∀ key, keys' key → keys key) : Stable env catalog keys' P where
  suspended := h.suspended
  counted := h.counted
  popped := fun key s hkey => h.popped key s (hsub key hkey)
  released := fun key s hkey => h.released key s (hsub key hkey)
  forgotten := fun key s hkey => h.forgotten key s (hsub key hkey)
  leased := fun key s hkey => h.leased key s (hsub key hkey)

theorem and {Q R : State → Prop} (h : Stable env catalog keys (fun t => P t ∧ Q t))
    (h' : Stable env catalog keys (fun t => P t ∧ R t)) :
    Stable env catalog keys (fun t => P t ∧ Q t ∧ R t) where
  suspended := fun t ⟨hP, hQ, hR⟩ =>
    ⟨(h.suspended t ⟨hP, hQ⟩).1, (h.suspended t ⟨hP, hQ⟩).2, (h'.suspended t ⟨hP, hR⟩).2⟩
  counted := fun t ⟨hP, hQ, hR⟩ =>
    ⟨(h.counted t ⟨hP, hQ⟩).1, (h.counted t ⟨hP, hQ⟩).2, (h'.counted t ⟨hP, hR⟩).2⟩
  popped := fun key t hkey ⟨hP, hQ, hR⟩ =>
    ⟨(h.popped key t hkey ⟨hP, hQ⟩).1, (h.popped key t hkey ⟨hP, hQ⟩).2,
      (h'.popped key t hkey ⟨hP, hR⟩).2⟩
  released := fun key t hkey ⟨hP, hQ, hR⟩ =>
    ⟨(h.released key t hkey ⟨hP, hQ⟩).1, (h.released key t hkey ⟨hP, hQ⟩).2,
      (h'.released key t hkey ⟨hP, hR⟩).2⟩
  forgotten := fun key t hkey ⟨hP, hQ, hR⟩ =>
    ⟨(h.forgotten key t hkey ⟨hP, hQ⟩).1, (h.forgotten key t hkey ⟨hP, hQ⟩).2,
      (h'.forgotten key t hkey ⟨hP, hR⟩).2⟩
  leased := fun key t hkey ⟨hP, hQ, hR⟩ =>
    ⟨(h.leased key t hkey ⟨hP, hQ⟩).1, (h.leased key t hkey ⟨hP, hQ⟩).2,
      (h'.leased key t hkey ⟨hP, hR⟩).2⟩

theorem restoreConsumer (h : Stable env catalog keys P) (hkey : keys key) :
    Keeps P (restoreConsumer env catalog key) :=
  (h.ensureReady hkey).bind fun _ => get.bind fun _ => require _ _

end Stable

end DisplayRollback

end MsysCore.Core
