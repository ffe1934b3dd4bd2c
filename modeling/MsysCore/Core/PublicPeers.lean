import MsysCore.Core.Dispatch
import MsysCore.Core.InstanceTable

/-!
# Who is behind a public connection

A process that connects to the public socket is looked up in the instance table, by its
pid and then by its process group and session. What the table does not have is taken for
a process from outside, and as root it may call everything.
-/

namespace MsysCore.Core

open Python Runs

/-- A process that has connected to the public socket, as the kernel knows it. -/
structure OsProcess where
  pid : ℕ
  uid : ℕ
  gid : ℕ
  pgid : ℕ
  sid : ℕ
  /-- Gone when Core asks for its group and session. -/
  exited : Bool
  pid_pos : 0 < pid
  pgid_pos : 0 < pgid
  sid_pos : 0 < sid
  pid_lt : pid < 2 ^ 31
  uid_lt : uid < 2 ^ 32
  gid_lt : gid < 2 ^ 32

structure PeerCredentials where
  pid : ℤ
  uid : ℤ
  gid : ℤ

/-- `struct.unpack("i", ...)` of a 32-bit id -/
def unpackId (id : ℕ) : ℤ := if id < 2 ^ 31 then id else id - 2 ^ 32

/-- `_public_peer_credentials` -/
def publicPeerCredentials (process : OsProcess) : Except PyStr PeerCredentials :=
  let pid := unpackId process.pid
  let uid := unpackId process.uid
  let gid := unpackId process.gid
  if pid ≤ 0 || uid < 0 || gid < 0 then .error (lit "SO_PEERCRED returned invalid credentials")
  else .ok ⟨pid, uid, gid⟩

/-- `os.getpgid` and `os.getsid` -/
def OsProcess.group (process : OsProcess) : Option (ℕ × ℕ) :=
  if process.exited then none else some (process.pgid, process.sid)

/-- What the handler of a public call reads of an instance: key, generation, permissions. -/
def Instance.channel (inst : Instance) : Channel where
  key := inst.key
  generation := inst.generation
  permissions := inst.component.permissions
  isOpen := !inst.finalized
  ready := inst.ready
  subscriptions := []
  pendingCalls := []

namespace Supervisor

def instanceValues (s : Supervisor) : List Instance :=
  s.instances.filterMap fun entry => s.heap entry.2

/-- `_managed_instance_for_peer` -/
def managedInstanceForPeer (s : Supervisor) (peerPid : ℤ) (group : Option (ℕ × ℕ)) :
    Option Instance :=
  match s.instanceValues.find? fun inst => 0 < inst.pid && peerPid = inst.pid with
  | some inst => some inst
  | none =>
    match group with
    | none => none
    | some (pgid, sid) =>
      s.instanceValues.find? fun inst => 0 < inst.pid && (pgid = inst.pid || sid = inst.pid)

/-- The attribution at the start of `_handle_public_client`. -/
def publicPeer (s : Supervisor) (process : OsProcess) : PublicPeer :=
  match publicPeerCredentials process with
  | .error reason => .unknown reason
  | .ok peer =>
    match s.managedInstanceForPeer peer.pid process.group with
    | some inst => .managed inst.channel
    | none => if peer.uid = 0 then .root else .stranger

/-! ## Attribution -/

/-- The process is the one of the instance, or is in its group or session. -/
def InTree (process : OsProcess) (inst : Instance) : Prop :=
  (process.pid = inst.pid ∧ inst.running = true) ∨ process.pgid = inst.pid ∨
    process.sid = inst.pid

/-- The peer is authorized with the manifest permissions of the component of the instance. -/
def ActsAs (peer : PublicPeer) (inst : Instance) : Prop :=
  ∃ channel, peer = .managed channel ∧ channel.key = inst.key ∧
    channel.permissions = inst.component.permissions

/-- A call of such a peer is dispatched only when `_authorize_component_call` lets it pass, and
then in the name of the component. -/
theorem ActsAs.publicDispatch_eq {peer : PublicPeer} {inst : Instance} (h : ActsAs peer inst) :
    ∃ channel, channel.permissions = inst.component.permissions ∧ ∀ py env msg,
      publicDispatch py env peer msg = match authorizeComponentCall py env channel msg with
        | some denial => .ok denial
        | none => dispatchCall py env msg inst.key := by
  obtain ⟨channel, rfl, hkey, hpermissions⟩ := h
  refine ⟨channel, hpermissions, ?_⟩
  intro py env msg
  rw [← hkey]
  rfl

/-- The ids of the process belong to no entry of the table but that of the instance object. -/
def NoOtherLeader (s : Supervisor) (i : ℕ) (process : OsProcess) : Prop :=
  ∀ key j other, OrderedDict.get s.instances key = some j → s.heap j = some other → j ≠ i →
    other.pid ≠ process.pid ∧ other.pid ≠ process.pgid ∧ other.pid ≠ process.sid

theorem unpackId_nonneg {id : ℕ} (h : id < 2 ^ 32) : 0 ≤ unpackId id ↔ id < 2 ^ 31 := by
  unfold unpackId
  split_ifs <;> omega

theorem unpackId_of_lt {id : ℕ} (h : id < 2 ^ 31) : unpackId id = id := if_pos h

/-- The kernel's record is rejected when an id does not fit in a signed integer. -/
theorem publicPeerCredentials_eq (process : OsProcess) :
    publicPeerCredentials process =
      if process.uid < 2 ^ 31 ∧ process.gid < 2 ^ 31 then
        .ok ⟨process.pid, process.uid, process.gid⟩
      else .error (lit "SO_PEERCRED returned invalid credentials") := by
  have hpid := unpackId_of_lt process.pid_lt
  have hpos : ¬ (process.pid : ℤ) ≤ 0 := by
    have := process.pid_pos
    omega
  unfold publicPeerCredentials
  simp only [hpid, Bool.or_eq_true, decide_eq_true_eq]
  by_cases hrange : process.uid < 2 ^ 31 ∧ process.gid < 2 ^ 31
  · have huid := unpackId_of_lt hrange.1
    have hgid := unpackId_of_lt hrange.2
    rw [if_pos hrange, if_neg (by omega), huid, hgid]
  · have huid := unpackId_nonneg process.uid_lt
    have hgid := unpackId_nonneg process.gid_lt
    rw [if_neg hrange, if_pos (by omega)]

section

variable {s : Supervisor}

theorem mem_instanceValues {inst : Instance} :
    inst ∈ s.instanceValues ↔ ∃ key i, (key, i) ∈ s.instances ∧ s.heap i = some inst := by
  simp [instanceValues]

/-- A peer is attributed to an entry whose leader is the peer or leads its group or session. -/
theorem managedInstanceForPeer_leads {pid pgid sid : ℕ} {inst : Instance}
    (h : s.managedInstanceForPeer pid (some (pgid, sid)) = some inst) :
    inst ∈ s.instanceValues ∧ (inst.pid = pid ∨ inst.pid = pgid ∨ inst.pid = sid) := by
  unfold managedInstanceForPeer at h
  split at h
  · rename_i found hfound
    cases h
    have hpid := List.find?_some hfound
    simp only [Bool.and_eq_true, decide_eq_true_eq] at hpid
    exact ⟨List.mem_of_find?_eq_some hfound, .inl (by omega)⟩
  · have hgroup := List.find?_some h
    simp only [Bool.and_eq_true, Bool.or_eq_true, decide_eq_true_eq] at hgroup
    exact ⟨List.mem_of_find?_eq_some h, .inr (hgroup.2.imp Eq.symm Eq.symm)⟩

theorem managedInstanceForPeer_isSome {pid pgid sid : ℕ} {inst : Instance}
    (hmem : inst ∈ s.instanceValues) (hpos : 0 < inst.pid)
    (hlead : pid = inst.pid ∨ pgid = inst.pid ∨ sid = inst.pid) :
    ∃ found, s.managedInstanceForPeer pid (some (pgid, sid)) = some found := by
  unfold managedInstanceForPeer
  split
  · exact ⟨_, rfl⟩
  · rename_i hnone
    have hpid : pid ≠ inst.pid := by
      have := List.find?_eq_none.mp hnone inst hmem
      simp only [Bool.and_eq_true, decide_eq_true_eq, not_and] at this
      have := this hpos
      omega
    rw [← Option.isSome_iff_exists, List.find?_isSome]
    refine ⟨inst, hmem, ?_⟩
    simpa [hpos] using hlead.resolve_left hpid

theorem InTree.leads {process : OsProcess} {inst : Instance} (h : InTree process inst) :
    0 < inst.pid ∧
      (process.pid = inst.pid ∨ process.pgid = inst.pid ∨ process.sid = inst.pid) := by
  have hpid := process.pid_pos
  have hpgid := process.pgid_pos
  have hsid := process.sid_pos
  rcases h with ⟨h, -⟩ | h | h
  · exact ⟨by omega, .inl h⟩
  · exact ⟨by omega, .inr (.inl h)⟩
  · exact ⟨by omega, .inr (.inr h)⟩

/-- With no rival in the table, only the instance itself can be found. -/
theorem managedInstanceForPeer_unique (hinv : EntryInv s) {i : ℕ} {inst found : Instance}
    {process : OsProcess} (hobject : s.heap i = some inst) (hother : NoOtherLeader s i process)
    (h : s.managedInstanceForPeer process.pid (some (process.pgid, process.sid)) = some found) :
    found = inst ∧ OrderedDict.get s.instances inst.key = some i := by
  obtain ⟨hmem, hleads⟩ := managedInstanceForPeer_leads h
  obtain ⟨key, j, hentry, hfound⟩ := mem_instanceValues.mp hmem
  rw [← OrderedDict.get_eq_some_iff hinv.nodup] at hentry
  have hj : j = i := by
    by_contra hne
    obtain ⟨hpid, hpgid, hsid⟩ := hother key j found hentry hfound hne
    rcases hleads with h | h | h
    · exact hpid h
    · exact hpgid h
    · exact hsid h
  subst hj
  rw [hobject] at hfound
  cases hfound
  obtain ⟨inst', hobject', hkey⟩ := hinv.entry key j hentry
  rw [hobject] at hobject'
  cases hobject'
  rw [hkey]
  exact ⟨rfl, hentry⟩

theorem actsAs_iff (hinv : EntryInv s) {i : ℕ} {inst : Instance} {process : OsProcess}
    (hobject : s.heap i = some inst) (htree : InTree process inst)
    (halive : process.exited = false) (hother : NoOtherLeader s i process) :
    ActsAs (s.publicPeer process) inst ↔
      s.isCurrent i inst = true ∧ process.uid < 2 ^ 31 ∧ process.gid < 2 ^ 31 := by
  have hgroup : process.group = some (process.pgid, process.sid) := by
    simp [OsProcess.group, halive]
  obtain ⟨hpos, hlead⟩ := htree.leads
  unfold publicPeer
  rw [publicPeerCredentials_eq, hgroup]
  constructor
  · rintro ⟨channel, hpeer, -, -⟩
    split_ifs at hpeer with hrange
    refine ⟨?_, hrange⟩
    cases hfound : s.managedInstanceForPeer process.pid (some (process.pgid, process.sid)) with
    | none =>
      simp only [hfound] at hpeer
      split_ifs at hpeer
    | some found =>
      simpa [isCurrent] using (managedInstanceForPeer_unique hinv hobject hother hfound).2
  · rintro ⟨hcurrent, hrange⟩
    have hmem : inst ∈ s.instanceValues := by
      refine mem_instanceValues.mpr ⟨inst.key, i, ?_, hobject⟩
      rw [← OrderedDict.get_eq_some_iff hinv.nodup]
      simpa [isCurrent] using hcurrent
    obtain ⟨found, hfound⟩ := managedInstanceForPeer_isSome hmem hpos hlead
    obtain ⟨rfl, -⟩ := managedInstanceForPeer_unique hinv hobject hother hfound
    rw [if_pos hrange]
    simp only [hfound]
    exact ⟨_, rfl, rfl, rfl⟩

end

/-- In every reachable state a live process of a component, whose ids no other entry has, acts
with the permissions of the component exactly while its instance is in the table. -/
theorem run_actsAs_iff (components : PyStr → Option Component) (roles : List (PyStr × RoleState))
    (ls : List Label) (s : Supervisor) (hrun : run step (initial components roles) ls = some s)
    (i : ℕ) (inst : Instance) (process : OsProcess) (hobject : s.heap i = some inst)
    (htree : InTree process inst) (halive : process.exited = false)
    (hother : NoOtherLeader s i process) :
    (ActsAs (s.publicPeer process) inst ↔
      s.isCurrent i inst = true ∧ process.uid < 2 ^ 31 ∧ process.gid < 2 ^ 31) ∧
    (s.isCurrent i inst = true → process.uid < 2 ^ 31 → process.gid < 2 ^ 31 →
      ∃ channel, channel.permissions = inst.component.permissions ∧ ∀ py env msg,
        publicDispatch py env (s.publicPeer process) msg =
          match authorizeComponentCall py env channel msg with
          | some denial => .ok denial
          | none => dispatchCall py env msg inst.key) := by
  have hinv : EntryInv s := run_invariant_all (fun _ _ _ hs hstep => step_entryInv hs hstep)
    ls (entryInv_initial components roles) hrun
  have hiff := actsAs_iff hinv hobject htree halive hother
  refine ⟨hiff, ?_⟩
  intro hcurrent huid hgid
  exact (hiff.mpr ⟨hcurrent, huid, hgid⟩).publicDispatch_eq

/-- The process of `a`, running as root. -/
def processA : OsProcess where
  pid := 100
  uid := 0
  gid := 0
  pgid := 100
  sid := 100
  exited := false
  pid_pos := by decide
  pgid_pos := by decide
  sid_pos := by decide
  pid_lt := by decide
  uid_lt := by decide
  gid_lt := by decide

theorem startA_actsAs : ∃ s inst, run step (initial oneComponent []) startA = some s ∧
    s.heap 0 = some inst ∧ ActsAs (s.publicPeer processA) inst := by
  have hlast : (run step (initial oneComponent []) startA).map
      (fun s => (s.heap 0, s.instances)) =
      some (some ⟨lit "a", ⟨0, [], .mipcReady⟩, 1, 100, true, false, false, true⟩,
        [(lit "a", 0)]) := by
    decide +kernel
  obtain ⟨s, hrun, hs⟩ := Option.map_eq_some_iff.mp hlast
  obtain ⟨hobject, hinstances⟩ := Prod.mk.inj hs
  have hother : NoOtherLeader s 0 processA := by
    intro key j other hentry _ hne
    rw [hinstances] at hentry
    simp only [OrderedDict.get] at hentry
    split_ifs at hentry
    cases hentry
    exact absurd rfl hne
  refine ⟨s, _, hrun, hobject, ?_⟩
  refine (run_actsAs_iff oneComponent [] startA s hrun 0 _ processA hobject (.inl ⟨rfl, rfl⟩) rfl
    hother).1.mpr ⟨?_, by decide, by decide⟩
  simp [isCurrent, hinstances, OrderedDict.get]

/-- While `a` is being stopped its process is no longer in the table, and as root it is the
public operator. -/
theorem stoppingA_root :
    ¬ ∀ (components : PyStr → Option Component) (roles : List (PyStr × RoleState))
      (ls : List Label) (s : Supervisor), run step (initial components roles) ls = some s →
      ∀ i inst process, s.heap i = some inst → InTree process inst → process.exited = false →
        s.publicPeer process ≠ .root ∧ ActsAs (s.publicPeer process) inst := by
  intro hall
  have hlast : (run step (initial oneComponent []) (startA ++ stopA 1)).map
      (fun s => (s.heap 0, s.instances)) =
      some (some ⟨lit "a", ⟨0, [], .mipcReady⟩, 1, 100, true, false, true, false⟩, []) := by
    decide +kernel
  obtain ⟨s, hrun, hs⟩ := Option.map_eq_some_iff.mp hlast
  obtain ⟨hobject, hinstances⟩ := Prod.mk.inj hs
  have hroot : s.publicPeer processA = .root := by
    unfold publicPeer managedInstanceForPeer instanceValues
    rw [hinstances]
    rfl
  exact (hall oneComponent [] _ s hrun 0 _ processA hobject (.inl ⟨rfl, rfl⟩) rfl).1 hroot

end Supervisor

end MsysCore.Core
