import MsysCore.Core.SupervisorSteps

/-!
# The instance table

Every entry of `instances` is an object of its key, a key has at most one entry, and no
object is in the heap before it is allocated. This holds in every reachable state.
-/

namespace MsysCore.Core.Supervisor

open Python Runs

structure EntryInv (s : Supervisor) : Prop where
  entry : ∀ key i, OrderedDict.get s.instances key = some i →
    ∃ inst, s.heap i = some inst ∧ inst.key = key
  nodup : (s.instances.map Prod.fst).Nodup
  freshObject : ∀ i, s.allocated ≤ i → s.heap i = none

theorem entryInv_initial (components : PyStr → Option Component)
    (roles : List (PyStr × RoleState)) : EntryInv (initial components roles) where
  entry := by
    intro key i h
    cases h
  nodup := List.nodup_nil
  freshObject := fun _ _ => rfl

section

variable {s t : Supervisor}

theorem current_eq_some {key : PyStr} {i : ℕ} {inst : Instance} :
    s.current key = some (i, inst) ↔
      OrderedDict.get s.instances key = some i ∧ s.heap i = some inst := by
  unfold current
  cases OrderedDict.get s.instances key with
  | none => simp
  | some j =>
    constructor
    · intro h
      obtain ⟨inst', hheap, heq⟩ := Option.map_eq_some_iff.mp h
      cases heq
      exact ⟨rfl, hheap⟩
    · rintro ⟨hj, hheap⟩
      cases hj
      simp [hheap]

/-- An object is the entry of one key only. -/
theorem EntryInv.key_unique (hinv : EntryInv s) {key key' : PyStr} {i : ℕ}
    (h : OrderedDict.get s.instances key = some i)
    (h' : OrderedDict.get s.instances key' = some i) : key = key' := by
  obtain ⟨a, ha, hkey⟩ := hinv.entry key i h
  obtain ⟨b, hb, hkey'⟩ := hinv.entry key' i h'
  rw [ha] at hb
  cases hb
  rw [← hkey, hkey']

theorem EntryInv.key_of_current (hinv : EntryInv s) {key : PyStr} {i : ℕ} {inst : Instance}
    (h : s.current key = some (i, inst)) : inst.key = key := by
  obtain ⟨hentry, hobject⟩ := current_eq_some.mp h
  obtain ⟨a, ha, hkey⟩ := hinv.entry key i hentry
  rw [hobject] at ha
  cases ha
  exact hkey

theorem EntryInv.later (hinv : EntryInv s) (hheap : HeapLater s t)
    (hinstances : t.instances = s.instances) (hallocated : t.allocated = s.allocated) :
    EntryInv t := by
  refine ⟨?_, ?_, ?_⟩
  · intro key i hentry
    rw [hinstances] at hentry
    obtain ⟨a, ha, hkey⟩ := hinv.entry key i hentry
    obtain ⟨b, hb, hlater⟩ := hheap.forth ha
    exact ⟨b, hb, hlater.key.trans hkey⟩
  · rw [hinstances]
    exact hinv.nodup
  · intro i hi
    rw [hallocated] at hi
    exact hheap.none (hinv.freshObject i hi)

theorem EntryInv.remove (hinv : EntryInv s) {key : PyStr} (hheap : HeapLater s t)
    (hinstances : t.instances = OrderedDict.pop s.instances key)
    (hallocated : t.allocated = s.allocated) : EntryInv t := by
  refine ⟨?_, ?_, ?_⟩
  · intro k i hentry
    rw [hinstances, OrderedDict.get_pop] at hentry
    split_ifs at hentry
    obtain ⟨a, ha, hk⟩ := hinv.entry k i hentry
    obtain ⟨b, hb, hlater⟩ := hheap.forth ha
    exact ⟨b, hb, hlater.key.trans hk⟩
  · rw [hinstances]
    exact OrderedDict.nodup_pop hinv.nodup key
  · intro i hi
    rw [hallocated] at hi
    exact hheap.none (hinv.freshObject i hi)

theorem EntryInv.lt_allocated (hinv : EntryInv s) {i : ℕ} {inst : Instance}
    (h : s.heap i = some inst) : i < s.allocated := by
  by_contra hle
  rw [hinv.freshObject i (by omega)] at h
  cases h

theorem EntryInv.install (hinv : EntryInv s) {key : PyStr} {component : Component} {pid : ℕ} :
    EntryInv (s.install key component pid) := by
  refine ⟨?_, OrderedDict.nodup_set hinv.nodup key _, ?_⟩
  · intro k i h
    by_cases hk : k = key
    · subst hk
      simp only [Supervisor.install, OrderedDict.get_set_self, Option.some.injEq] at h
      subst h
      exact ⟨_, Function.update_self _ _ _, rfl⟩
    · simp only [Supervisor.install, OrderedDict.get_set_ne hk] at h
      obtain ⟨inst, hold, hinst⟩ := hinv.entry k i h
      have hi : i ≠ s.allocated := (hinv.lt_allocated hold).ne
      exact ⟨inst, by simp [Supervisor.install, hi, hold], hinst⟩
  · intro i hi
    have hi' : s.allocated + 1 ≤ i := hi
    have hne : i ≠ s.allocated := by omega
    simp only [Supervisor.install, Function.update_of_ne hne]
    exact hinv.freshObject i (by omega)

theorem startStep_entryInv {l : StartLabel} (hinv : EntryInv s) (h : s.startStep l = some t) :
    EntryInv t := by
  cases startStep_effect h with
  | @retire c key i inst call entry live stale =>
    exact hinv.remove (heapLater_finalize s key i) rfl rfl
  | retireFailed call entry => exact hinv.remove (heapLater_of_eq rfl) rfl rfl
  | @finalize c key i inst call entry exited pending =>
    exact hinv.later (heapLater_finalize s key i) rfl rfl
  | @spawn c pid key component call known running unfenced =>
    have hinstalled : EntryInv (s.install key component pid) := hinv.install
    exact hinstalled.later (heapLater_of_eq rfl) rfl rfl
  | _ => exact hinv.later (heapLater_of_eq rfl) rfl rfl

theorem stopStep_entryInv {l : StopLabel} (hinv : EntryInv s) (h : s.stopStep l = some t) :
    EntryInv t := by
  cases stopStep_effect h with
  | @lock c key expected i call free entry =>
    exact hinv.remove (heapLater_finalize s key i) rfl rfl
  | lockFailed call free entry => exact hinv.remove (heapLater_of_eq rfl) rfl rfl
  | _ => exact hinv.later (heapLater_of_eq rfl) rfl rfl

theorem step_entryInv {l : Label} (hinv : EntryInv s) (h : s.step l = some t) : EntryInv t := by
  cases l with
  | start l => exact startStep_entryInv hinv h
  | stop l => exact stopStep_entryInv hinv h
  | life l =>
    obtain ⟨hsame, hheap⟩ := lifeStep_frame h
    exact hinv.later hheap hsame.instances hsame.allocated
  | lease l =>
    obtain ⟨hsame, hheap⟩ := leaseStep_frame h
    exact hinv.later (heapLater_of_eq hheap) hsame.instances hsame.allocated

end

end MsysCore.Core.Supervisor
