import MsysCore.Core.IsolationPolicy
import MsysCore.Lib.GroupedDict

/-!
# The rules of isolation specs

`parse_isolation` returns consistent specs only: distinct namespaces, limits that are ordered
and known, and no seccomp helper without `no_new_privs`. A launch at best effort keeps all of
these rules but the last one, since the helper and the flag are dropped independently.
-/

namespace MsysCore.Core.Isolation

open Python

/-- The rules that the parser enforces. -/
structure Consistent (hasConstant : PyStr → Bool) (spec : IsolationSpec) : Prop where
  namespaces : spec.namespaces.Nodup
  rlimitNames : (spec.rlimits.map Prod.fst).Nodup
  rlimits : ∀ entry ∈ spec.rlimits, entry.1 ∈ rlimitResources hasConstant ∧
    0 ≤ entry.2.soft ∧ entry.2.soft ≤ entry.2.hard
  helperProfile : isHelperProfile spec.seccomp.profile = true
  helper : spec.seccomp.mode = .helper → spec.noNewPrivs = true

/-! ## The parser -/

section

variable {py : Interpreter} {hasConstant : PyStr → Bool}

theorem parseNamespaces_nodup {value : Json} {namespaces : List Namespace}
    (h : parseNamespaces value = .ok namespaces) : namespaces.Nodup := by
  cases value with
  | list items =>
    obtain ⟨names, -, hrest⟩ := bind_eq_ok.mp h
    dsimp only at hrest
    split_ifs at hrest
    · cases hrest
    · cases hrest
    · cases hrest
      refine List.Nodup.filterMap ?_ (GroupedDict.nodup_eraseDups names)
      intro name other n hname hother
      have htext := List.find?_some hname
      have htext' := List.find?_some hother
      rw [← of_decide_eq_true htext, ← of_decide_eq_true htext']
  | _ => cases h

theorem limitValue_nonneg {value : Json} {field : PyStr} {limit : ℤ}
    (h : limitValue value field = .ok limit) : 0 ≤ limit := by
  cases value with
  | int i =>
    rw [limitValue] at h
    split_ifs at h with hneg
    · cases h
    · cases h
      omega
  | _ => cases h

theorem parseSoftHard_ordered {field : PyStr} {value : Dict} {limit : RlimitSpec}
    (h : parseSoftHard py field value = .ok limit) :
    0 ≤ limit.soft ∧ limit.soft ≤ limit.hard := by
  unfold parseSoftHard at h
  dsimp only at h
  split_ifs at h
  · cases h
  · cases h
  · obtain ⟨hard, -, h⟩ := bind_eq_ok.mp h
    obtain ⟨soft, hsoft, h⟩ := bind_eq_ok.mp h
    split_ifs at h with horder
    · cases h
    · cases h
      exact ⟨limitValue_nonneg hsoft, not_lt.mp horder⟩

theorem parseRlimit_ordered {name : PyStr} {value : Json} {limit : RlimitSpec}
    (h : parseRlimit py hasConstant name value = .ok limit) :
    name ∈ rlimitResources hasConstant ∧ 0 ≤ limit.soft ∧ limit.soft ≤ limit.hard := by
  unfold parseRlimit at h
  dsimp only at h
  by_cases hname : name ∈ rlimitResources hasConstant
  · rw [if_neg (not_not.mpr hname)] at h
    refine ⟨hname, ?_⟩
    cases value with
    | int i =>
      obtain ⟨n, hn, hlimit⟩ := bind_eq_ok.mp h
      cases hlimit
      exact ⟨limitValue_nonneg hn, le_rfl⟩
    | dict fields => exact parseSoftHard_ordered h
    | _ => cases h
  · rw [if_pos hname] at h
    cases h

theorem parseSeccomp_profile {value : Json} {seccomp : SeccompSpec}
    (h : parseSeccomp py value = .ok seccomp) : isHelperProfile seccomp.profile = true := by
  cases value with
  | null =>
    cases h
    decide
  | str s =>
    rw [parseSeccomp] at h
    split_ifs at h
    · cases h
      decide
    · cases h
      decide
    · cases h
  | dict fields =>
    rw [parseSeccomp] at h
    split_ifs at h
    · cases h
    · obtain ⟨mode, -, h⟩ := bind_eq_ok.mp h
      obtain ⟨profile, hprofile, h⟩ := bind_eq_ok.mp h
      cases h
      unfold parseHelperProfile at hprofile
      split_ifs at hprofile with hvalid
      · cases hprofile
        exact hvalid
      · cases hprofile
  | _ => cases h

theorem overrideLimit_nodup {limits : List (PyStr × Json)} (h : (limits.map Prod.fst).Nodup)
    (name : PyStr) (limit : Json) : ((overrideLimit limits name limit).map Prod.fst).Nodup := by
  unfold overrideLimit
  split_ifs
  · exact OrderedDict.nodup_pop h name
  · exact OrderedDict.nodup_set h name limit

theorem overrideLimits_nodup {defaults : Dict}
    (h : (defaults.map fun entry => toStr py entry.1).Nodup) (overrides : Dict) :
    ((overrideLimits py defaults overrides).map Prod.fst).Nodup := by
  have hfold : ∀ limits : List (PyStr × Json), (limits.map Prod.fst).Nodup →
      ((overrides.foldl (fun limits entry => overrideLimit limits (toStr py entry.1) entry.2)
        limits).map Prod.fst).Nodup := by
    induction overrides with
    | nil => exact fun limits hlimits => hlimits
    | cons entry overrides ih =>
      exact fun limits hlimits => ih _ (overrideLimit_nodup hlimits _ _)
  exact hfold _ (by rwa [List.map_map])

theorem profile_rlimits_nodup (profile : Profile) :
    (profile.rlimits.map fun entry => toStr py entry.1).Nodup := by
  have hkeys : profile.rlimits.map (fun entry => toStr py entry.1) =
      profile.rlimits.map fun entry => toStr bareInterpreter entry.1 := by
    cases profile <;> rfl
  rw [hkeys]
  cases profile <;> decide

/-- Reading the limits keeps their names. -/
theorem names_of_read {raws : List (PyStr × Json)} {rlimits : List (PyStr × RlimitSpec)}
    (h : List.Forall₂ (fun entry read => (do
      let limit ← parseRlimit py hasConstant entry.1 entry.2
      pure (entry.1, limit)) = .ok read) raws rlimits) :
    raws.map Prod.fst = rlimits.map Prod.fst := by
  induction h with
  | nil => rfl
  | cons hentry _ ih =>
    obtain ⟨limit, -, hentry⟩ := bind_eq_ok.mp hentry
    cases hentry
    rw [List.map_cons, List.map_cons, ih]

theorem parseRlimits_consistent {profile : Profile} {overrides : Json}
    {rlimits : List (PyStr × RlimitSpec)}
    (h : parseRlimits py hasConstant profile overrides = .ok rlimits) :
    (rlimits.map Prod.fst).Nodup ∧ ∀ entry ∈ rlimits,
      entry.1 ∈ rlimitResources hasConstant ∧ 0 ≤ entry.2.soft ∧ entry.2.soft ≤ entry.2.hard := by
  cases overrides with
  | dict overrides =>
    have hnames := names_of_read (mapM_eq_ok.mp h)
    refine ⟨hnames ▸ overrideLimits_nodup (profile_rlimits_nodup profile) overrides, ?_⟩
    intro entry hentry
    obtain ⟨raw, -, hraw⟩ := mem_mapM h hentry
    obtain ⟨limit, hlimit, hraw⟩ := bind_eq_ok.mp hraw
    cases hraw
    exact parseRlimit_ordered hlimit
  | _ => cases h

theorem parseFields_consistent {raw : Dict} {spec : IsolationSpec}
    (h : parseFields py hasConstant raw = .ok spec) : Consistent hasConstant spec := by
  unfold parseFields at h
  dsimp only at h
  split_ifs at h
  · cases h
  · obtain ⟨profile, -, h⟩ := bind_eq_ok.mp h
    obtain ⟨failure, -, h⟩ := bind_eq_ok.mp h
    obtain ⟨namespaces, hnamespaces, h⟩ := bind_eq_ok.mp h
    obtain ⟨flag, -, h⟩ := bind_eq_ok.mp h
    obtain ⟨dumpable, -, h⟩ := bind_eq_ok.mp h
    obtain ⟨noNewPrivs, -, h⟩ := bind_eq_ok.mp h
    obtain ⟨rlimits, hrlimits, h⟩ := bind_eq_ok.mp h
    obtain ⟨seccomp, hseccomp, h⟩ := bind_eq_ok.mp h
    obtain ⟨hnames, hordered⟩ := parseRlimits_consistent hrlimits
    split_ifs at h with hhelper
    · cases h
    · cases h
      refine ⟨parseNamespaces_nodup hnamespaces, hnames, hordered,
        parseSeccomp_profile hseccomp, fun hmode => ?_⟩
      cases hflag : noNewPrivs with
      | false => exact absurd ⟨hmode, hflag⟩ hhelper
      | true => rfl

/-- The parser returns consistent specs only. -/
theorem parseIsolation_consistent {value : Json} {spec : IsolationSpec}
    (h : parseIsolation py hasConstant value = .ok spec) : Consistent hasConstant spec := by
  cases value with
  | null =>
    cases h
    exact ⟨List.nodup_nil, List.nodup_nil, fun entry hentry => (by cases hentry), by decide,
      fun hmode => (by cases hmode)⟩
  | str profile => exact parseFields_consistent h
  | dict raw => exact parseFields_consistent h
  | _ => cases h

end

/-! ## Degradation -/

/-- The case in which the flag is dropped and the helper is not: the host has a helper, and no
`prctl`. -/
def DropsFlagOnly (capabilities : IsolationCapabilities) (spec : IsolationSpec) : Prop :=
  spec.seccomp.mode = .helper ∧ capabilities.linux = true ∧
    capabilities.seccompHelper.isSome = true ∧ capabilities.prctl = false

/-- Degradation keeps the rules except in that case. -/
theorem consistent_degraded_iff {hasConstant : PyStr → Bool}
    {capabilities : IsolationCapabilities} {spec : IsolationSpec}
    (h : Consistent hasConstant spec) :
    Consistent hasConstant (degraded capabilities spec) ↔ ¬DropsFlagOnly capabilities spec := by
  constructor
  · rintro hdegraded ⟨hmode, hlinux, hhelper, hprctl⟩
    have hkept : (degraded capabilities spec).seccomp.mode = .helper := by
      simp [degraded, IsolationCapabilities.available, hmode, hlinux, hhelper]
    have hflag := hdegraded.helper hkept
    simp [degraded, IsolationCapabilities.available, hprctl] at hflag
  · intro hcase
    refine ⟨h.namespaces.filter _, ?_, fun entry hentry => ?_, ?_, fun hmode => ?_⟩
    · exact h.rlimitNames.sublist (List.filter_sublist.map Prod.fst)
    · exact h.rlimits entry (List.mem_filter.mp hentry).1
    · unfold degraded
      dsimp only
      split_ifs
      · decide
      · exact h.helperProfile
    · unfold degraded at hmode ⊢
      dsimp only at hmode ⊢
      split_ifs at hmode with hdropped
      have hhelper : capabilities.available .seccompHelper = true := by
        simpa [hmode] using hdropped
      obtain ⟨hlinux, hsome⟩ := Bool.and_eq_true_iff.mp hhelper
      have hprctl : capabilities.prctl = true := by
        by_contra habsent
        exact hcase ⟨hmode, hlinux, hsome, by simpa using habsent⟩
      rw [h.helper hmode, IsolationCapabilities.available, hlinux, hprctl]
      rfl

/-- The effective spec of a launch follows the rules of the parser unless the flag alone was
dropped. -/
theorem degradation_consistent_iff (py : Interpreter) (hasConstant : PyStr → Bool) (value : Json)
    (spec : IsolationSpec) (hparse : parseIsolation py hasConstant value = .ok spec)
    (capabilities : IsolationCapabilities) (argv : List PyStr) (plan : IsolationLaunchPlan)
    (hplan : prepareIsolationLaunch capabilities spec argv = .ok plan) :
    Consistent hasConstant plan.effective ↔ ¬DropsFlagOnly capabilities spec := by
  rw [effective_eq_degraded hplan]
  exact consistent_degraded_iff (parseIsolation_consistent hparse)

/-- A declaration of the seccomp helper at best effort. -/
def helperDeclaration : Json :=
  .dict (record [("failure", text "best-effort"), ("no_new_privs", .bool true),
    ("seccomp", text "helper")])

def helperSpec : IsolationSpec where
  profile := .custom
  noNewPrivs := true
  seccomp := { mode := .helper }

/-- A host with a helper, with or without `prctl`. -/
def helperHost (prctl : Bool) : IsolationCapabilities where
  linux := true
  prctl := prctl
  unshare := true
  namespaces _ := true
  rlimits _ := true
  seccompHelper := some (lit "/trusted/msys-seccomp-exec")

theorem parse_helperDeclaration :
    parseIsolation bareInterpreter (fun _ => true) helperDeclaration = .ok helperSpec := by rfl

/-- With `prctl` the launch through the helper is consistent. -/
theorem degradation_consistent_host :
    Consistent (fun _ => true) (launchPlan (helperHost true) helperSpec [lit "app"]
      (degraded (helperHost true) helperSpec) []).effective :=
  (degradation_consistent_iff bareInterpreter (fun _ => true) helperDeclaration helperSpec
    parse_helperDeclaration (helperHost true) [lit "app"] _ (by rfl)).mpr
      (by rintro ⟨-, -, -, hprctl⟩; cases hprctl)

/-- Without it the helper is launched and the flag it requires is dropped. -/
theorem degradation_drops_flag :
    ∃ spec plan, parseIsolation bareInterpreter (fun _ => true) helperDeclaration = .ok spec ∧
      prepareIsolationLaunch (helperHost false) spec [lit "app"] = .ok plan ∧
      plan.argv = [lit "/trusted/msys-seccomp-exec", lit "--profile", lit "default", lit "--",
        lit "app"] ∧
      plan.effective.noNewPrivs = false ∧ ¬Consistent (fun _ => true) plan.effective := by
  refine ⟨helperSpec, launchPlan (helperHost false) helperSpec [lit "app"]
    (degraded (helperHost false) helperSpec) [lit "no_new_privs"], parse_helperDeclaration,
    by rfl, by rfl, by rfl, fun h => ?_⟩
  exact absurd (h.helper (by rfl)) (by decide)

end MsysCore.Core.Isolation
