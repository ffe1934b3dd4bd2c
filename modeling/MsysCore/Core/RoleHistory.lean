import MsysCore.Core.RoleMethods

/-!
# Histories of a role registry

What every sequence of calls keeps: the lease table and the tokens per role name the same
leases in the order they were acquired, and leases and preferences name candidates.
-/

namespace MsysCore.Core

open Python

namespace RoleRegistry

def Candidate (registry : RoleRegistry) (role provider : PyStr) : Prop :=
  ∃ state, OrderedDict.get registry.roles role = some state ∧ provider ∈ state.candidates

/-- The leases of a role, in acquisition order. -/
def leasesOf (registry : RoleRegistry) (role : PyStr) : List RoleLease :=
  registry.leases.filter fun lease => lease.role = role

structure InStep (registry : RoleRegistry) : Prop where
  /-- no two roles share a name -/
  names : (registry.roles.map Prod.fst).Nodup
  increasing : registry.leases.Pairwise fun a b => a.token < b.token
  issued : ∀ lease ∈ registry.leases, lease.token < registry.nextLeaseToken
  indexNames : registry.roleLeases.map Prod.fst = registry.roles.map Prod.fst
  indexed : ∀ role ∈ registry.roles.map Prod.fst, OrderedDict.get registry.roleLeases role =
    some ((registry.leasesOf role).map RoleLease.token)
  exclusive : ∀ role state, OrderedDict.get registry.roles role = some state →
    state.exclusive = true → (registry.leasesOf role).length ≤ 1
  leased : ∀ lease ∈ registry.leases, registry.Candidate lease.role lease.provider
  preferences : ∀ role provider, OrderedDict.get registry.preferred role = some provider →
    registry.Candidate role provider

variable {registry r : RoleRegistry} {role provider : PyStr} {holder : Option PyStr}

theorem ofRoles_indexNames (roles : List (PyStr × RoleState)) :
    (ofRoles roles).roleLeases.map Prod.fst = roles.map Prod.fst := by
  simp [ofRoles, Function.comp_def]

theorem inStep_ofRoles {roles : List (PyStr × RoleState)} (hnames : (roles.map Prod.fst).Nodup) :
    InStep (ofRoles roles) where
  names := hnames
  increasing := List.Pairwise.nil
  issued := by
    intro lease h
    cases h
  indexNames := ofRoles_indexNames roles
  indexed := by
    intro role hrole
    have hkeys : ((ofRoles roles).roleLeases.map Prod.fst).Nodup := by
      rwa [ofRoles_indexNames]
    rw [OrderedDict.get_eq_some_iff hkeys]
    obtain ⟨entry, hentry, rfl⟩ := List.mem_map.mp hrole
    exact List.mem_map.mpr ⟨entry, hentry, rfl⟩
  exclusive := by
    intro role state _ _
    exact Nat.zero_le 1
  leased := by
    intro lease h
    cases h
  preferences := by
    intro role provider h
    cases h

/-! ## What a method checks -/

theorem Candidate.mem_names (h : registry.Candidate role provider) :
    role ∈ registry.roles.map Prod.fst := by
  obtain ⟨state, hstate, -⟩ := h
  exact OrderedDict.mem_keys_of_get hstate

theorem checkCandidate_eq_ok {u : Unit} :
    registry.checkCandidate role provider = .ok u ↔ registry.Candidate role provider := by
  unfold checkCandidate isCandidate candidateIds state Candidate
  cases hstate : OrderedDict.get registry.roles role with
  | none => simp [bind, Except.bind]
  | some state =>
    by_cases hmem : provider ∈ state.candidates <;>
      simp [bind, Except.bind, pure, Except.pure, hmem]

theorem selectPreferred_eq_ok : registry.selectPreferred role provider = .ok r ↔
    registry.Candidate role provider ∧
      r = { registry with preferred := OrderedDict.set registry.preferred role provider } := by
  unfold selectPreferred
  rw [bind_eq_ok]
  constructor
  · rintro ⟨u, hcheck, hr⟩
    cases hr
    exact ⟨checkCandidate_eq_ok.mp hcheck, rfl⟩
  · rintro ⟨hcandidate, rfl⟩
    exact ⟨(), checkCandidate_eq_ok.mpr hcandidate, rfl⟩

theorem resetPreferred_eq_ok : registry.resetPreferred role = .ok r ↔
    role ∈ registry.roles.map Prod.fst ∧
      r = { registry with preferred := OrderedDict.pop registry.preferred role } := by
  unfold resetPreferred state
  constructor
  · intro h
    obtain ⟨state, hstate, h⟩ := bind_eq_ok.mp h
    cases h
    cases hget : OrderedDict.get registry.roles role with
    | none => simp [hget] at hstate
    | some found => exact ⟨OrderedDict.mem_keys_of_get hget, rfl⟩
  · rintro ⟨hrole, rfl⟩
    obtain ⟨state, hstate⟩ := OrderedDict.exists_get_of_mem_keys hrole
    simp [hstate, bind, Except.bind, pure, Except.pure]

/-- The role has no lease that excludes another one. -/
def Free (registry : RoleRegistry) (role : PyStr) : Prop :=
  ∀ state, OrderedDict.get registry.roles role = some state → state.exclusive = true →
    registry.tokens role = []

theorem acquire_eq_ok : registry.acquire role provider holder = .ok r ↔
    registry.Candidate role provider ∧ registry.Free role ∧
      r = { registry with
        leases := registry.leases ++ [⟨registry.nextLeaseToken, role, provider, holder⟩]
        roleLeases := OrderedDict.set registry.roleLeases role
          (registry.tokens role ++ [registry.nextLeaseToken])
        nextLeaseToken := registry.nextLeaseToken + 1 } := by
  unfold acquire
  constructor
  · intro h
    obtain ⟨state, hstate, h⟩ := bind_eq_ok.mp h
    obtain ⟨u, hcheck, h⟩ := bind_eq_ok.mp h
    split_ifs at h with hconflict
    cases h
    refine ⟨checkCandidate_eq_ok.mp hcheck, ?_, rfl⟩
    intro found hfound hexclusive
    have heq : found = state := by simpa [RoleRegistry.state, hfound] using hstate
    simpa [heq ▸ hexclusive] using hconflict
  · rintro ⟨hcandidate, hfree, rfl⟩
    obtain ⟨state, hstate, -⟩ := id hcandidate
    have hok : registry.state role = .ok state := by simp [RoleRegistry.state, hstate]
    refine bind_eq_ok.mpr ⟨state, hok, bind_eq_ok.mpr
      ⟨(), checkCandidate_eq_ok.mpr hcandidate, ?_⟩⟩
    have hconflict : ¬ (state.exclusive && !(registry.tokens role).isEmpty) = true := by
      cases hexclusive : state.exclusive with
      | false => simp
      | true => simp [hfree state hstate hexclusive]
    rw [if_neg hconflict]
    rfl

/-! ## Each operation -/

theorem InStep.tokens_eq (h : InStep registry) (hrole : role ∈ registry.roles.map Prod.fst) :
    registry.tokens role = (registry.leasesOf role).map RoleLease.token := by
  rw [tokens, h.indexed role hrole]
  rfl

theorem InStep.selectPreferred (h : InStep registry)
    (hr : registry.selectPreferred role provider = .ok r) : InStep r := by
  obtain ⟨hcandidate, rfl⟩ := selectPreferred_eq_ok.mp hr
  refine { h with preferences := ?_ }
  intro other chosen hchosen
  have hget := OrderedDict.get_set registry.preferred role other provider
  rw [hget] at hchosen
  split_ifs at hchosen with heq
  · cases hchosen
    rw [heq]
    exact hcandidate
  · exact h.preferences other chosen hchosen

theorem InStep.resetPreferred (h : InStep registry) (hr : registry.resetPreferred role = .ok r) :
    InStep r := by
  obtain ⟨-, rfl⟩ := resetPreferred_eq_ok.mp hr
  refine { h with preferences := ?_ }
  intro other chosen hchosen
  have hget := OrderedDict.get_pop registry.preferred role other
  rw [hget] at hchosen
  split_ifs at hchosen
  exact h.preferences other chosen hchosen

theorem InStep.acquire (h : InStep registry)
    (hr : registry.acquire role provider holder = .ok r) : InStep r := by
  obtain ⟨hcandidate, hfree, rfl⟩ := acquire_eq_ok.mp hr
  have hrole := hcandidate.mem_names
  have hindex : role ∈ registry.roleLeases.map Prod.fst := by rwa [h.indexNames]
  refine
    { names := h.names
      increasing := ?_
      issued := ?_
      indexNames := (OrderedDict.keys_set hindex _).trans h.indexNames
      indexed := ?_
      exclusive := ?_
      leased := ?_
      preferences := h.preferences }
  · refine List.pairwise_append.mpr ⟨h.increasing, List.pairwise_singleton _ _, ?_⟩
    intro old hold new hnew
    rw [List.mem_singleton.mp hnew]
    exact h.issued old hold
  · intro lease hlease
    rcases List.mem_append.mp hlease with hold | hnew
    · exact (h.issued lease hold).trans (Nat.lt_succ_self _)
    · rw [List.mem_singleton.mp hnew]
      exact Nat.lt_succ_self _
  · intro other hother
    have hget := OrderedDict.get_set registry.roleLeases role other
      (registry.tokens role ++ [registry.nextLeaseToken])
    refine hget.trans ?_
    split_ifs with heq
    · rw [heq, h.tokens_eq hrole]
      simp [leasesOf, List.filter_append]
    · rw [h.indexed other hother]
      simp [leasesOf, List.filter_append, Ne.symm heq]
  · intro other state hstate hexclusive
    by_cases heq : role = other
    · subst heq
      have htokens := hfree state hstate hexclusive
      rw [h.tokens_eq hrole, List.map_eq_nil_iff, leasesOf] at htokens
      simp [leasesOf, List.filter_append, htokens]
    · have hold := h.exclusive other state hstate hexclusive
      simpa [leasesOf, List.filter_append, heq] using hold
  · intro lease hlease
    rcases List.mem_append.mp hlease with hold | hnew
    · exact h.leased lease hold
    · rw [List.mem_singleton.mp hnew]
      exact hcandidate

theorem InStep.tokens_nodup (h : InStep registry) :
    (registry.leases.map RoleLease.token).Nodup := by
  rw [List.Nodup, List.pairwise_map]
  exact h.increasing.imp fun hlt => Nat.ne_of_lt hlt

/-- A token names one lease. -/
theorem InStep.eq_of_token (h : InStep registry) {a b : RoleLease} (ha : a ∈ registry.leases)
    (hb : b ∈ registry.leases) (heq : a.token = b.token) : a = b :=
  List.inj_on_of_nodup_map h.tokens_nodup ha hb heq

theorem InStep.drop (h : InStep registry) {lease : RoleLease} (hlease : lease ∈ registry.leases) :
    InStep (registry.drop lease) := by
  have hrole := (h.leased lease hlease).mem_names
  have hindex : lease.role ∈ registry.roleLeases.map Prod.fst := by rwa [h.indexNames]
  have hsubset : (registry.drop lease).leases.Sublist registry.leases := List.filter_sublist
  refine
    { names := h.names
      increasing := h.increasing.sublist hsubset
      issued := fun other hother => h.issued other (hsubset.subset hother)
      indexNames := (OrderedDict.keys_set hindex _).trans h.indexNames
      indexed := ?_
      exclusive := ?_
      leased := fun other hother => h.leased other (hsubset.subset hother)
      preferences := h.preferences }
  · intro other hother
    have hget := OrderedDict.get_set registry.roleLeases lease.role other
      ((registry.tokens lease.role).erase lease.token)
    refine hget.trans ?_
    split_ifs with heq
    · have hnodup : ((registry.leasesOf lease.role).map RoleLease.token).Nodup :=
        h.tokens_nodup.sublist (List.filter_sublist.map _)
      rw [heq, h.tokens_eq hrole, hnodup.erase_eq_filter, List.filter_map]
      simp only [leasesOf, RoleRegistry.drop, List.filter_filter]
      congr 2
      apply List.filter_congr
      intro x hx
      by_cases hx' : x.token = lease.token <;> simp [hx']
    · rw [h.indexed other hother]
      congr 2
      simp only [leasesOf, RoleRegistry.drop, List.filter_filter]
      apply List.filter_congr
      intro x hx
      by_cases hx' : x.role = other
      · have hne : x.token ≠ lease.token := by
          intro htoken
          rw [h.eq_of_token hx hlease htoken] at hx'
          exact heq hx'.symm
        simp [hx', hne]
      · simp [hx']
  · intro other state hstate hexclusive
    have hold := h.exclusive other state hstate hexclusive
    exact ((hsubset.filter _).length_le).trans hold

end RoleRegistry

/-! ## Methods are the operations -/

namespace RoleMethods

open RoleRegistry

variable {registry r : RoleRegistry} {role provider : PyStr} {holder : Option PyStr}

theorem getCandidate_cases (registry : RoleRegistry) (role provider : PyStr) :
    (registry.Candidate role provider ∧ getCandidate registry role provider = .ok provider) ∨
      ∃ fault, getCandidate registry role provider = .error fault := by
  unfold getCandidate stateOf Candidate
  cases hstate : OrderedDict.get registry.roles role with
  | none => exact .inr ⟨.unknownRole role, rfl⟩
  | some state =>
    cases hfind : state.candidates.find? fun candidate => candidate = provider with
    | none => exact .inr ⟨.unknownCandidate role provider, by simp [bind, Except.bind, hfind]⟩
    | some candidate =>
      have heq : candidate = provider := by simpa using List.find?_some hfind
      subst heq
      exact .inl ⟨⟨state, rfl, List.mem_of_find?_eq_some hfind⟩,
        by simp [bind, Except.bind, hfind, pure, Except.pure]⟩

theorem chosenCandidate_cases (registry : RoleRegistry) (role : PyStr)
    (provider : Option PyStr) :
    (∃ candidate, registry.Candidate role candidate ∧
      chosenCandidate registry role provider = .ok candidate) ∨
      ∃ fault, chosenCandidate registry role provider = .error fault := by
  cases provider with
  | some provider =>
    rcases getCandidate_cases registry role provider with ⟨hcandidate, hget⟩ | hfault
    · exact .inl ⟨provider, hcandidate, hget⟩
    · exact .inr hfault
  | none =>
    unfold chosenCandidate resolveCandidate
    cases hpreferred : preferredProvider registry role with
    | error fault => exact .inr ⟨fault, rfl⟩
    | ok preferred =>
      cases preferred with
      | none => exact .inr ⟨.noCandidate role, rfl⟩
      | some provider =>
        rcases getCandidate_cases registry role provider with ⟨hcandidate, hget⟩ | hfault
        · exact .inl ⟨provider, hcandidate, hget⟩
        · exact .inr hfault

theorem selectPreferred_cases (registry : RoleRegistry) (role provider : PyStr) :
    (∃ r, registry.selectPreferred role provider = .ok r ∧
      selectPreferred role provider registry = .returned provider r) ∨
      ∃ fault, selectPreferred role provider registry = .raised fault registry := by
  unfold selectPreferred
  rcases getCandidate_cases registry role provider with ⟨hcandidate, hget⟩ | ⟨fault, hfault⟩
  · exact .inl ⟨_, selectPreferred_eq_ok.mpr ⟨hcandidate, rfl⟩, by rw [hget]⟩
  · exact .inr ⟨fault, by rw [hfault]⟩

theorem resetPreferred_cases (registry : RoleRegistry) (role : PyStr) :
    (∃ preferred r, registry.resetPreferred role = .ok r ∧
      resetPreferred role registry = .returned preferred r) ∨
      ∃ fault, resetPreferred role registry = .raised fault registry := by
  unfold resetPreferred preferredProvider stateOf
  cases hstate : OrderedDict.get registry.roles role with
  | none => exact .inr ⟨.unknownRole role, rfl⟩
  | some state =>
    have hpop := OrderedDict.get_pop_self registry.preferred role
    refine .inl ⟨state.candidates.head?, _,
      resetPreferred_eq_ok.mpr ⟨OrderedDict.mem_keys_of_get hstate, rfl⟩, ?_⟩
    simp [hpop, hstate, bind, Except.bind, pure, Except.pure]

/-- A lease with a new token goes to the end. -/
theorem setLease_eq_append {leases : List RoleLease} {lease : RoleLease}
    (h : ∀ other ∈ leases, other.token ≠ lease.token) :
    setLease leases lease = leases ++ [lease] := by
  induction leases with
  | nil => rfl
  | cons other leases ih =>
    obtain ⟨hother, hrest⟩ := List.forall_mem_cons.mp h
    rw [setLease, if_neg hother, ih hrest]
    rfl

theorem leaseOf_head {token : ℕ} {rest : List ℕ}
    (htokens : (registry.leasesOf role).map RoleLease.token = token :: rest) :
    ∃ active, registry.leaseOf token = some active := by
  have hmem : token ∈ (registry.leasesOf role).map RoleLease.token := by simp [htokens]
  obtain ⟨lease, hlease, htoken⟩ := List.mem_map.mp hmem
  have hfound : (registry.leaseOf token).isSome := by
    refine List.find?_isSome.mpr ⟨lease, List.mem_of_mem_filter hlease, ?_⟩
    simpa using htoken
  exact Option.isSome_iff_exists.mp hfound

theorem acquire_cases (h : InStep registry) (role : PyStr) (provider holder : Option PyStr) :
    (∃ candidate r, registry.acquire role candidate holder = .ok r ∧
      acquire role provider holder registry =
        .returned ⟨registry.nextLeaseToken, role, candidate, holder⟩ r) ∨
      ∃ fault, acquire role provider holder registry = .raised fault registry := by
  unfold acquire
  cases hstate : stateOf registry role with
  | error fault => exact .inr ⟨fault, rfl⟩
  | ok state =>
    rcases chosenCandidate_cases registry role provider with
      ⟨candidate, hcandidate, hchosen⟩ | ⟨fault, hfault⟩
    · have hget : OrderedDict.get registry.roles role = some state := by
        unfold stateOf at hstate
        cases hfound : OrderedDict.get registry.roles role <;> simp_all
      have hindexed := h.indexed role hcandidate.mem_names
      have htokens := h.tokens_eq hcandidate.mem_names
      simp only [hchosen, hindexed]
      split
      · rename_i token rest hexclusive hleases
        obtain ⟨active, hactive⟩ := leaseOf_head hleases
        exact .inr ⟨.leaseConflict role active.provider, by rw [hactive]⟩
      · rename_i hfree
        refine .inl ⟨candidate, _, acquire_eq_ok.mpr ⟨hcandidate, ?_, rfl⟩, ?_⟩
        · intro found hfound hexclusive
          have heq : found = state := Option.some.inj (hfound.symm.trans hget)
          rw [htokens]
          cases hleases : (registry.leasesOf role).map RoleLease.token with
          | nil => rfl
          | cons token rest => exact (hfree token rest (heq ▸ hexclusive) hleases).elim
        · have hnew : ∀ other ∈ registry.leases, other.token ≠ registry.nextLeaseToken :=
            fun other hother => Nat.ne_of_lt (h.issued other hother)
          rw [setLease_eq_append hnew, htokens]
    · exact .inr ⟨fault, by simp only [hfault]⟩

theorem release_cases (h : InStep registry) (argument : LeaseArgument) :
    (∃ lease ∈ registry.leases, (lease.token : ℤ) = argument.tokenOf ∧
      argument.Matches lease ∧
      release argument registry = .returned lease (registry.drop lease)) ∨
      ((∀ lease ∈ registry.leases, (lease.token : ℤ) = argument.tokenOf →
        ¬ argument.Matches lease) ∧
        release argument registry = .raised (.unknownLease argument.tokenOf) registry) := by
  unfold release
  cases hstored : stored registry argument.tokenOf with
  | none =>
    refine .inr ⟨?_, rfl⟩
    intro lease hlease htoken
    have habsent := List.find?_eq_none.mp hstored lease hlease
    simp [htoken] at habsent
  | some lease =>
    have hlease : lease ∈ registry.leases := List.mem_of_find?_eq_some hstored
    have htoken : (lease.token : ℤ) = argument.tokenOf := by simpa using List.find?_some hstored
    by_cases hmatches : argument.Matches lease
    · have hrole := (h.leased lease hlease).mem_names
      have hindexed := h.indexed lease.role hrole
      have hmem : lease.token ∈ (registry.leasesOf lease.role).map RoleLease.token := by
        refine List.mem_map_of_mem (List.mem_filter.mpr ⟨hlease, ?_⟩)
        exact decide_eq_true rfl
      refine .inl ⟨lease, hlease, htoken, hmatches, ?_⟩
      simp only [if_pos hmatches, hindexed, if_pos hmem]
      rw [RoleRegistry.drop, h.tokens_eq hrole]
    · refine .inr ⟨?_, by simp only [if_neg hmatches]⟩
      intro other hother hother'
      have htokens : other.token = lease.token := by
        have := hother'.trans htoken.symm
        omega
      rw [h.eq_of_token hother hlease htokens]
      exact hmatches

/-- An active lease is released by its value. -/
theorem release_ofLease (h : InStep registry) {lease : RoleLease}
    (hlease : lease ∈ registry.leases) :
    release (.ofLease lease) registry = .returned lease (registry.drop lease) := by
  rcases release_cases h (.ofLease lease) with ⟨other, hother, htoken, -, hrelease⟩ | ⟨hnone, -⟩
  · have htokens : other.token = lease.token := by
      have : (other.token : ℤ) = lease.token := htoken
      omega
    rw [hrelease, h.eq_of_token hother hlease htokens]
  · exact (hnone lease hlease rfl ⟨rfl, rfl, rfl, rfl⟩).elim

theorem releaseAll_eq (leases : List RoleLease) : ∀ {registry : RoleRegistry},
    InStep registry → leases.Nodup → leases ⊆ registry.leases →
      releaseAll leases registry = .returned () (leases.foldl drop registry) ∧
        InStep (leases.foldl drop registry) ∧
        (leases.foldl drop registry).leases =
          registry.leases.filter fun lease => lease ∉ leases := by
  induction leases with
  | nil =>
    intro registry h _ _
    exact ⟨rfl, h, by simp⟩
  | cons lease leases ih =>
    intro registry h hnodup hsubset
    obtain ⟨hlease, hrest⟩ := List.cons_subset.mp hsubset
    obtain ⟨hnotin, hnodup⟩ := List.nodup_cons.mp hnodup
    have hdropped : (registry.drop lease).leases = registry.leases.filter (· ≠ lease) := by
      apply List.filter_congr
      intro other hother
      have hiff : other.token = lease.token ↔ other = lease :=
        ⟨h.eq_of_token hother hlease, fun heq => by rw [heq]⟩
      simp [hiff]
    have hrest' : leases ⊆ (registry.drop lease).leases := by
      intro other hother
      rw [hdropped]
      refine List.mem_filter.mpr ⟨hrest hother, ?_⟩
      simpa using fun heq : other = lease => hnotin (heq ▸ hother)
    obtain ⟨hall, hstep, hleft⟩ := ih (h.drop hlease) hnodup hrest'
    refine ⟨?_, hstep, ?_⟩
    · rw [releaseAll, release_ofLease h hlease]
      exact hall
    · rw [List.foldl_cons, hleft, hdropped, List.filter_filter]
      apply List.filter_congr
      intro other _
      by_cases heq : other = lease <;> simp [heq]

theorem releaseProvider_eq (h : InStep registry) (provider : PyStr) :
    releaseProvider provider registry =
        .returned (registry.leases.filter fun lease => lease.provider = provider)
          (registry.releaseProvider provider) ∧
      InStep (registry.releaseProvider provider) ∧
      (registry.releaseProvider provider).leases =
        registry.leases.filter fun lease => lease.provider ≠ provider := by
  have hnodup : registry.leases.Nodup := h.tokens_nodup.of_map
  obtain ⟨hall, hstep, hleft⟩ := releaseAll_eq
    (registry.leases.filter fun lease => lease.provider = provider) h
    (hnodup.sublist List.filter_sublist) (fun _ hlease => List.mem_of_mem_filter hlease)
  refine ⟨by rw [releaseProvider, hall]; rfl, hstep, ?_⟩
  rw [RoleRegistry.releaseProvider, hleft]
  apply List.filter_congr
  intro lease hlease
  simp [hlease]

/-- What a call does: it raises and leaves the registry, or it is one of the operations. -/
inductive Effect (registry : RoleRegistry) : RoleCall → RoleOutcome RoleReply → Prop
  | raised {call : RoleCall} (fault : RoleFault) : Effect registry call (.raised fault registry)
  | selected {role provider : PyStr} {r : RoleRegistry}
      (h : registry.selectPreferred role provider = .ok r) :
      Effect registry (.selectPreferred role provider) (.returned (.provider provider) r)
  | reset {role : PyStr} {preferred : Option PyStr} {r : RoleRegistry}
      (h : registry.resetPreferred role = .ok r) :
      Effect registry (.resetPreferred role) (.returned (.preference preferred) r)
  | acquired {role candidate : PyStr} {provider holder : Option PyStr} {r : RoleRegistry}
      (h : registry.acquire role candidate holder = .ok r) :
      Effect registry (.acquire role provider holder)
        (.returned (.lease ⟨registry.nextLeaseToken, role, candidate, holder⟩) r)
  | released {argument : LeaseArgument} {lease : RoleLease} (h : lease ∈ registry.leases) :
      Effect registry (.release argument) (.returned (.lease lease) (registry.drop lease))
  | releasedProvider {provider : PyStr} :
      Effect registry (.releaseProvider provider)
        (.returned (.leases (registry.leases.filter fun lease => lease.provider = provider))
          (registry.releaseProvider provider))

theorem perform_effect (h : InStep registry) (call : RoleCall) :
    Effect registry call (perform call registry) := by
  cases call with
  | selectPreferred role provider =>
    rcases selectPreferred_cases registry role provider with ⟨r, hr, heq⟩ | ⟨fault, heq⟩
    · rw [perform, heq]
      exact .selected hr
    · rw [perform, heq]
      exact .raised fault
  | resetPreferred role =>
    rcases resetPreferred_cases registry role with ⟨preferred, r, hr, heq⟩ | ⟨fault, heq⟩
    · rw [perform, heq]
      exact .reset hr
    · rw [perform, heq]
      exact .raised fault
  | acquire role provider holder =>
    rcases acquire_cases h role provider holder with ⟨candidate, r, hr, heq⟩ | ⟨fault, heq⟩
    · rw [perform, heq]
      exact .acquired hr
    · rw [perform, heq]
      exact .raised fault
  | release argument =>
    rcases release_cases h argument with ⟨lease, hlease, -, -, heq⟩ | ⟨-, heq⟩
    · rw [perform, heq]
      exact .released hlease
    · rw [perform, heq]
      exact .raised _
  | releaseProvider provider =>
    rw [perform, (releaseProvider_eq h provider).1]
    exact .releasedProvider

theorem Effect.registry_of_raised {call : RoleCall} {fault : RoleFault} {after : RoleRegistry}
    (heffect : Effect registry call (.raised fault after)) : after = registry := by
  cases heffect
  rfl

theorem Effect.inStep {call : RoleCall} {outcome : RoleOutcome RoleReply} (h : InStep registry)
    (heffect : Effect registry call outcome) : InStep outcome.registry := by
  cases heffect with
  | raised fault => exact h
  | selected hr => exact h.selectPreferred hr
  | reset hr => exact h.resetPreferred hr
  | acquired hr => exact h.acquire hr
  | released hlease => exact h.drop hlease
  | releasedProvider => exact (releaseProvider_eq h _).2.1

/-! ## Histories -/

structure Step where
  before : RoleRegistry
  call : RoleCall
  outcome : RoleOutcome RoleReply

/-- The calls one after another, each on the registry the one before it left. -/
def history : RoleRegistry → List RoleCall → List Step
  | _, [] => []
  | registry, call :: calls =>
    let outcome := perform call registry
    ⟨registry, call, outcome⟩ :: history outcome.registry calls

/-- The token of the lease that a step granted. -/
def Step.granted (step : Step) : Option ℕ :=
  match step.call, step.outcome with
  | .acquire _ _ _, .returned (.lease lease) _ => some lease.token
  | _, _ => none

theorem history_inStep (calls : List RoleCall) : ∀ {registry : RoleRegistry},
    InStep registry → ∀ step ∈ history registry calls,
      InStep step.before ∧ step.outcome = perform step.call step.before := by
  induction calls with
  | nil =>
    intro registry _ step hstep
    cases hstep
  | cons call calls ih =>
    intro registry h step hstep
    rcases List.mem_cons.mp hstep with rfl | hrest
    · exact ⟨h, rfl⟩
    · exact ih ((perform_effect h call).inStep h) step hrest

theorem foldl_drop_nextLeaseToken (leases : List RoleLease) : ∀ registry : RoleRegistry,
    (leases.foldl drop registry).nextLeaseToken = registry.nextLeaseToken := by
  induction leases with
  | nil => exact fun _ => rfl
  | cons lease leases ih => exact fun registry => ih (registry.drop lease)

/-- A call grants the next token, or none and the next token stays. -/
theorem Effect.granted {call : RoleCall} {outcome : RoleOutcome RoleReply}
    (heffect : Effect registry call outcome) :
    (Step.granted ⟨registry, call, outcome⟩ = some registry.nextLeaseToken ∧
        outcome.registry.nextLeaseToken = registry.nextLeaseToken + 1) ∨
      (Step.granted ⟨registry, call, outcome⟩ = none ∧
        outcome.registry.nextLeaseToken = registry.nextLeaseToken) := by
  cases heffect with
  | raised fault => cases call <;> exact .inr ⟨rfl, rfl⟩
  | selected hr =>
    obtain ⟨-, rfl⟩ := selectPreferred_eq_ok.mp hr
    exact .inr ⟨rfl, rfl⟩
  | reset hr =>
    obtain ⟨-, rfl⟩ := resetPreferred_eq_ok.mp hr
    exact .inr ⟨rfl, rfl⟩
  | acquired hr =>
    obtain ⟨-, -, rfl⟩ := acquire_eq_ok.mp hr
    exact .inl ⟨rfl, rfl⟩
  | released hlease => exact .inr ⟨rfl, rfl⟩
  | releasedProvider => exact .inr ⟨rfl, foldl_drop_nextLeaseToken _ _⟩

theorem granted_increasing (calls : List RoleCall) : ∀ {registry : RoleRegistry},
    InStep registry →
      (∀ token ∈ (history registry calls).filterMap Step.granted,
        registry.nextLeaseToken ≤ token) ∧
      ((history registry calls).filterMap Step.granted).Pairwise (· < ·) := by
  induction calls with
  | nil =>
    intro registry _
    refine ⟨?_, List.Pairwise.nil⟩
    intro token htoken
    cases htoken
  | cons call calls ih =>
    intro registry h
    obtain ⟨hbound, hpairwise⟩ := ih ((perform_effect h call).inStep h)
    rw [history, List.filterMap_cons]
    rcases (perform_effect h call).granted with ⟨hgranted, hnext⟩ | ⟨hgranted, hnext⟩
    · rw [hgranted]
      rw [hnext] at hbound
      refine ⟨?_, List.pairwise_cons.mpr ⟨hbound, hpairwise⟩⟩
      intro token htoken
      rcases List.mem_cons.mp htoken with rfl | hrest
      · exact Nat.le_refl _
      · exact Nat.le_of_succ_le (hbound token hrest)
    · rw [hgranted]
      rw [hnext] at hbound
      exact ⟨hbound, hpairwise⟩

/-! ## The two indexes -/

/-- The lease table and the tokens per role agree, leases exclude each other where they must, and
leases and preferences name candidates. -/
structure Sound (registry : RoleRegistry) : Prop where
  sameTokens : (registry.roleLeases.flatMap Prod.snd).Perm (registry.leases.map RoleLease.token)
  acquisitionOrder : (registry.leases.map RoleLease.token).Pairwise (· < ·)
  roleOrder : ∀ entry ∈ registry.roleLeases,
    entry.2 = (registry.leasesOf entry.1).map RoleLease.token
  exclusive : ∀ role state, OrderedDict.get registry.roles role = some state →
    state.exclusive = true → (registry.leasesOf role).length ≤ 1
  leased : ∀ lease ∈ registry.leases, registry.Candidate lease.role lease.provider
  preferences : ∀ role provider, OrderedDict.get registry.preferred role = some provider →
    registry.Candidate role provider

/-- The tokens of two roles have nothing in common. -/
theorem disjoint_tokens (h : InStep registry) {a b : PyStr} (hne : a ≠ b) :
    List.Disjoint ((registry.leasesOf a).map RoleLease.token)
      ((registry.leasesOf b).map RoleLease.token) := by
  intro token ha hb
  obtain ⟨x, hx, hxtoken⟩ := List.mem_map.mp ha
  obtain ⟨y, hy, hytoken⟩ := List.mem_map.mp hb
  obtain ⟨hx, hxrole⟩ := List.mem_filter.mp hx
  obtain ⟨hy, hyrole⟩ := List.mem_filter.mp hy
  have heq := h.eq_of_token hx hy (hxtoken.trans hytoken.symm)
  simp only [decide_eq_true_eq] at hxrole hyrole
  exact hne (hxrole.symm.trans ((congrArg RoleLease.role heq).trans hyrole))

theorem roleOrder_of_inStep (h : InStep registry) : ∀ entry ∈ registry.roleLeases,
    entry.2 = (registry.leasesOf entry.1).map RoleLease.token := by
  intro entry hentry
  have hkeys : (registry.roleLeases.map Prod.fst).Nodup := h.indexNames ▸ h.names
  have hget := (OrderedDict.get_eq_some_iff hkeys).mpr hentry
  have hrole : entry.1 ∈ registry.roles.map Prod.fst := by
    rw [← h.indexNames]
    exact List.mem_map_of_mem hentry
  exact Option.some.inj (hget.symm.trans (h.indexed entry.1 hrole))

theorem sameTokens_of_inStep (h : InStep registry) :
    (registry.roleLeases.flatMap Prod.snd).Perm (registry.leases.map RoleLease.token) := by
  have horder := roleOrder_of_inStep h
  have hkeys : registry.roleLeases.Pairwise fun a b => a.1 ≠ b.1 :=
    List.pairwise_map.mp (h.indexNames ▸ h.names)
  have hnodup : (registry.roleLeases.flatMap Prod.snd).Nodup := by
    refine List.nodup_flatMap.mpr ⟨?_, ?_⟩
    · intro entry hentry
      rw [horder entry hentry]
      exact h.tokens_nodup.sublist (List.filter_sublist.map _)
    · apply hkeys.imp_of_mem
      intro a b ha hb hne
      simp only [Function.onFun, horder a ha, horder b hb]
      exact disjoint_tokens h hne
  refine (List.perm_ext_iff_of_nodup hnodup h.tokens_nodup).mpr fun token => ?_
  rw [List.mem_flatMap]
  constructor
  · rintro ⟨entry, hentry, htoken⟩
    rw [horder entry hentry] at htoken
    exact (List.filter_sublist.map _).subset htoken
  · intro htoken
    obtain ⟨lease, hlease, rfl⟩ := List.mem_map.mp htoken
    have hrole := (h.leased lease hlease).mem_names
    refine ⟨_, OrderedDict.mem_of_get (h.indexed lease.role hrole), ?_⟩
    exact List.mem_map_of_mem (List.mem_filter.mpr ⟨hlease, decide_eq_true rfl⟩)

theorem sound_of_inStep (h : InStep registry) : Sound registry where
  sameTokens := sameTokens_of_inStep h
  acquisitionOrder := List.pairwise_map.mpr h.increasing
  roleOrder := roleOrder_of_inStep h
  exclusive := h.exclusive
  leased := h.leased
  preferences := h.preferences

/-- A raising step left the registry as it was. -/
def Step.RaisesUnchanged (step : Step) : Prop :=
  ∀ fault after, step.outcome = .raised fault after → after = step.before

/-- A step that releases a provider returns its leases and removes no others. -/
def Step.ReleasesProvider (step : Step) : Prop :=
  ∀ provider, step.call = .releaseProvider provider →
    ∃ after, step.outcome =
        .returned (.leases (step.before.leases.filter fun lease => lease.provider = provider))
          after ∧
      after.leases = step.before.leases.filter fun lease => lease.provider ≠ provider

theorem raisesUnchanged_of_inStep {step : Step} (h : InStep step.before)
    (hperform : step.outcome = perform step.call step.before) : step.RaisesUnchanged := by
  intro fault after hraised
  have heffect := perform_effect h step.call
  rw [← hperform, hraised] at heffect
  exact heffect.registry_of_raised

theorem releasesProvider_of_inStep {step : Step} (h : InStep step.before)
    (hperform : step.outcome = perform step.call step.before) : step.ReleasesProvider := by
  intro provider hcall
  obtain ⟨heq, -, hleases⟩ := releaseProvider_eq h provider
  refine ⟨_, ?_, hleases⟩
  rw [hperform, hcall, perform, heq]
  rfl

/-- Every history of a registry that was built for a component set and a profile: the tokens it
grants increase, the indexes agree throughout, and calls that raise change nothing. -/
theorem history_sound (py : Interpreter) (components : RoleComponents) (profile : Dict)
    (registry : RoleRegistry) (h : fromProfile py components profile = .ok registry)
    (calls : List RoleCall) :
    Sound registry ∧
      ((history registry calls).filterMap Step.granted).Pairwise (· < ·) ∧
      ∀ step ∈ history registry calls,
        Sound step.outcome.registry ∧ step.RaisesUnchanged ∧ step.ReleasesProvider := by
  obtain ⟨roles, rfl, hnames⟩ := fromProfile_eq_ok h
  have hbuilt := inStep_ofRoles hnames
  refine ⟨sound_of_inStep hbuilt, (granted_increasing calls hbuilt).2, ?_⟩
  intro step hstep
  obtain ⟨hbefore, hperform⟩ := history_inStep calls hbuilt step hstep
  have hafter := (perform_effect hbefore step.call).inStep hbefore
  rw [← hperform] at hafter
  exact ⟨sound_of_inStep hafter, raisesUnchanged_of_inStep hbefore hperform,
    releasesProvider_of_inStep hbefore hperform⟩

/-- A shell that is leased twice while another component also declares the role. -/
theorem history_sound_conflict :
    let shell : Manifest.Provide := ⟨.role, lit "shell", true, 0⟩
    let components : RoleComponents := [(lit "a:shell", [shell]), (lit "b:shell", [shell])]
    let roles : List (PyStr × RoleState) :=
      [(lit "shell", ⟨[lit "a:shell", lit "b:shell"], true⟩)]
    let calls : List RoleCall :=
      [.acquire (lit "shell") none none, .acquire (lit "shell") (some (lit "b:shell")) none]
    fromProfile bareInterpreter components [] = .ok (ofRoles roles) ∧
      ((history (ofRoles roles) calls).filterMap Step.granted).Pairwise (· < ·) := by
  intro shell components roles calls
  have hbuilt : fromProfile bareInterpreter components [] = .ok (ofRoles roles) := rfl
  exact ⟨hbuilt, (history_sound bareInterpreter components [] (ofRoles roles) hbuilt calls).2.1⟩

end RoleMethods

end MsysCore.Core
