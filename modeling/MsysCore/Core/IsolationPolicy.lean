import MsysCore.Core.Isolation
import MsysCore.Lib.Attempts

/-!
# The isolation policy

Under either policy a launch is decided by the requested features that the host lacks. Failing
closed, the first of them stops the launch, and the child stops at the first operation that
does not succeed. At best effort the missing features are taken out of the spec and reported.
-/

namespace MsysCore.Core.Isolation

open Python

/-! ## What the host lacks -/

/-- The features a spec asks for, in the order of the preflight. -/
def features (spec : IsolationSpec) : List Feature :=
  spec.namespaces.map .namespace ++ (if spec.noNewPrivs then [.noNewPrivs] else []) ++
    (if spec.dumpable.isSome then [.dumpable] else []) ++
    spec.rlimits.map (fun entry => .rlimit entry.1) ++
    if spec.seccomp.mode = .helper then [.seccompHelper] else []

def IsolationCapabilities.available (capabilities : IsolationCapabilities) : Feature → Bool
  | .namespace n => capabilities.linux && capabilities.unshare && capabilities.namespaces n
  | .noNewPrivs => capabilities.linux && capabilities.prctl
  | .dumpable => capabilities.linux && capabilities.prctl
  | .rlimit name => capabilities.linux && capabilities.rlimits name
  | .seccompHelper => capabilities.linux && capabilities.seccompHelper.isSome

def missing (capabilities : IsolationCapabilities) (spec : IsolationSpec) : List Feature :=
  (features spec).filter fun feature => !capabilities.available feature

/-- The spec without what the host lacks. -/
def degraded (capabilities : IsolationCapabilities) (spec : IsolationSpec) : IsolationSpec :=
  { spec with
    namespaces := spec.namespaces.filter fun n => capabilities.available (.namespace n)
    noNewPrivs := spec.noNewPrivs && capabilities.available .noNewPrivs
    dumpable := if capabilities.available .dumpable then spec.dumpable else none
    rlimits := spec.rlimits.filter fun entry => capabilities.available (.rlimit entry.1)
    seccomp := if spec.seccomp.mode = .helper ∧ capabilities.available .seccompHelper = false
      then {} else spec.seccomp }

variable {capabilities : IsolationCapabilities} {spec : IsolationSpec}

theorem features_degraded :
    features (degraded capabilities spec) = (features spec).filter capabilities.available := by
  have hmode : (degraded capabilities spec).seccomp.mode = .helper ↔
      spec.seccomp.mode = .helper ∧ capabilities.available .seccompHelper = true := by
    unfold degraded
    cases hmode : spec.seccomp.mode <;>
      cases havailable : capabilities.available .seccompHelper <;> simp [hmode]
  unfold features
  simp only [List.filter_append, List.filter_map, hmode]
  congr 1
  · congr 1
    · congr 1
      · congr 1
        cases hflag : spec.noNewPrivs <;>
          cases havailable : capabilities.available .noNewPrivs <;>
          simp [degraded, hflag, havailable]
      · cases hflag : spec.dumpable <;> cases havailable : capabilities.available .dumpable <;>
          simp [degraded, hflag, havailable]
  · by_cases hmode : spec.seccomp.mode = .helper <;>
      cases havailable : capabilities.available .seccompHelper <;> simp [hmode, havailable]

theorem degraded_eq_self (h : missing capabilities spec = []) :
    degraded capabilities spec = spec := by
  have hall : ∀ feature ∈ features spec, capabilities.available feature = true := by
    simpa [missing, List.filter_eq_nil_iff] using h
  have hnamespaces : ∀ n ∈ spec.namespaces, capabilities.available (.namespace n) = true :=
    fun n hn => hall _ (by simp [features, hn])
  have hrlimits : ∀ entry ∈ spec.rlimits, capabilities.available (.rlimit entry.1) = true :=
    fun entry hentry => hall _ (by
      simp only [features, List.mem_append, List.mem_map]
      exact .inl (.inr ⟨entry, hentry, rfl⟩))
  unfold degraded
  rw [List.filter_eq_self.mpr hnamespaces, List.filter_eq_self.mpr hrlimits]
  have hprivs : (spec.noNewPrivs && capabilities.available .noNewPrivs) = spec.noNewPrivs := by
    cases hflag : spec.noNewPrivs with
    | false => rfl
    | true => exact hall .noNewPrivs (by simp [features, hflag])
  have hdumpable : (if capabilities.available .dumpable then spec.dumpable else none) =
      spec.dumpable := by
    cases hflag : spec.dumpable with
    | none => exact ite_self _
    | some enabled => rw [if_pos (hall .dumpable (by simp [features, hflag]))]
  have hseccomp : ¬(spec.seccomp.mode = .helper ∧
      capabilities.available .seccompHelper = false) := by
    rintro ⟨hmode, habsent⟩
    rw [hall .seccompHelper (by simp [features, hmode])] at habsent
    cases habsent
  rw [hprivs, hdumpable, if_neg hseccomp]

/-! ## The preflight -/

/-- Reporting features one after another. -/
def report (spec : IsolationSpec) (missing : List Feature) : Preflight Unit :=
  missing.forM (unavailable spec)

theorem report_append (first second : List Feature) :
    report spec (first ++ second) = report spec first >>= fun _ => report spec second :=
  List.forM_append ..

theorem keepAvailable_eq {α : Type} (available : α → Bool) (feature : α → Feature)
    (items : List α) :
    keepAvailable spec available feature items =
      report spec ((items.filter fun item => !available item).map feature) >>= fun _ =>
        pure (items.filter available) := by
  induction items with
  | nil => rfl
  | cons item items ih =>
    rw [keepAvailable, ih]
    cases h : available item <;> simp [h, report]

theorem keepOr_eq {α : Type} (missing : Bool) (feature : Feature) (value fallback : α) :
    keepOr spec missing feature value fallback =
      report spec (if missing then [feature] else []) >>= fun _ =>
        pure (if missing then fallback else value) := by
  cases missing <;> simp [keepOr, report]

/-- At best effort everything is reported, and nothing raises. -/
theorem report_bestEffort (h : spec.failure = .bestEffort) (missing : List Feature) :
    ∀ skipped,
      (report spec missing).run skipped = .ok ((), skipped ++ missing.map Feature.text) := by
  induction missing with
  | nil =>
    intro skipped
    simp [report]
    rfl
  | cons feature missing ih =>
    intro skipped
    have hfirst : (unavailable spec feature).run skipped = .ok ((), skipped ++ [feature.text]) := by
      simp [unavailable, h, modify, modifyGet, MonadStateOf.modifyGet, StateT.modifyGet,
        StateT.run, pure, Except.pure]
    have hrest := ih (skipped ++ [feature.text])
    rw [report, List.forM, StateT.run_bind, hfirst]
    simpa [report, bind, Except.bind] using hrest

/-- Failing closed, the first report raises. -/
theorem report_failClosed (h : spec.failure = .failClosed) (feature : Feature)
    (missing : List Feature) (skipped : List PyStr) :
    (report spec (feature :: missing)).run skipped =
      .error (lit "isolation capability unavailable: " ++ feature.text) := by
  simp [report, unavailable, h, throw, throwThe, MonadExceptOf.throw, StateT.lift, StateT.run,
    bind, Except.bind, StateT.bind]

/-- The missing features, group by group. -/
theorem missing_eq :
    missing capabilities spec =
      (spec.namespaces.filter fun n => !capabilities.available (.namespace n)).map .namespace ++
      (if spec.noNewPrivs && !capabilities.available .noNewPrivs then [.noNewPrivs] else []) ++
      (if spec.dumpable.isSome && !capabilities.available .dumpable then [.dumpable] else []) ++
      (spec.rlimits.filter fun entry => !capabilities.available (.rlimit entry.1)).map
        (fun entry => .rlimit entry.1) ++
      if spec.seccomp.mode = .helper && !capabilities.available .seccompHelper
        then [.seccompHelper] else [] := by
  unfold missing features
  simp only [List.filter_append, List.filter_map]
  congr 1
  · congr 1
    congr 1
    · congr 1
      cases spec.noNewPrivs <;> cases h : capabilities.available .noNewPrivs <;> simp [h]
    · cases spec.dumpable <;> cases h : capabilities.available .dumpable <;> simp [h]
  · cases hmode : spec.seccomp.mode <;> cases h : capabilities.available .seccompHelper <;> simp [h]

/-- The preflight reports what is missing, and a launch that goes on has the degraded spec. -/
theorem prepareIsolationLaunch_eq (argv : List PyStr) :
    prepareIsolationLaunch capabilities spec argv =
      (report spec (missing capabilities spec)).run [] >>= fun reported =>
        pure (launchPlan capabilities spec argv (degraded capabilities spec) reported.2) := by
  have hseccomp : (!capabilities.linux || capabilities.seccompHelper.isNone) =
      !capabilities.available .seccompHelper := by
    cases hlinux : capabilities.linux <;> cases hhelper : capabilities.seccompHelper <;>
      simp [IsolationCapabilities.available, hlinux, hhelper]
  have hprivs : (spec.noNewPrivs && capabilities.available .noNewPrivs) =
      if spec.noNewPrivs && !(capabilities.linux && capabilities.prctl) then false
      else spec.noNewPrivs := by
    cases hflag : spec.noNewPrivs <;> cases h : capabilities.linux && capabilities.prctl <;>
      simp [IsolationCapabilities.available, h]
  have hdumpable : (if capabilities.available .dumpable then spec.dumpable else none) =
      if spec.dumpable.isSome && !(capabilities.linux && capabilities.prctl) then none
      else spec.dumpable := by
    cases hflag : spec.dumpable <;> cases h : capabilities.linux && capabilities.prctl <;>
      simp [IsolationCapabilities.available, h]
  have hdegraded : (if spec.seccomp.mode = .helper ∧ capabilities.available .seccompHelper = false
      then ({} : SeccompSpec) else spec.seccomp) =
      if decide (spec.seccomp.mode = .helper) && !capabilities.available .seccompHelper
        then {} else spec.seccomp := by
    simp
  unfold prepareIsolationLaunch degraded
  simp only [keepAvailable_eq, keepOr_eq, bind_assoc, pure_bind, missing_eq, report_append,
    hseccomp, hprivs, hdumpable, hdegraded, StateT.run_bind, StateT.run_pure]
  rfl

/-- Failing closed, a launch needs every feature of its spec. -/
theorem prepare_failClosed (h : spec.failure = .failClosed) (argv : List PyStr) :
    (missing capabilities spec = [] → prepareIsolationLaunch capabilities spec argv =
      .ok (launchPlan capabilities spec argv spec [])) ∧
    ∀ feature rest, missing capabilities spec = feature :: rest →
      prepareIsolationLaunch capabilities spec argv =
        .error (lit "isolation capability unavailable: " ++ feature.text) := by
  constructor
  · intro hmissing
    rw [prepareIsolationLaunch_eq, hmissing, degraded_eq_self hmissing]
    rfl
  · intro feature rest hmissing
    rw [prepareIsolationLaunch_eq, hmissing, report_failClosed h]
    rfl

/-- At best effort every launch goes on without what is missing. -/
theorem prepare_bestEffort (h : spec.failure = .bestEffort) (argv : List PyStr) :
    prepareIsolationLaunch capabilities spec argv =
      .ok (launchPlan capabilities spec argv (degraded capabilities spec)
        ((missing capabilities spec).map Feature.text)) := by
  rw [prepareIsolationLaunch_eq, report_bestEffort h]
  rfl

/-- Whatever the policy, the effective spec of a launch is the degraded one. -/
theorem effective_eq_degraded {argv : List PyStr} {plan : IsolationLaunchPlan}
    (h : prepareIsolationLaunch capabilities spec argv = .ok plan) :
    plan.effective = degraded capabilities spec := by
  rw [prepareIsolationLaunch_eq] at h
  obtain ⟨reported, -, hplan⟩ := bind_eq_ok.mp h
  cases hplan
  rfl

/-! ## The child -/

/-- A computation that returns has added attempts of which something is known. -/
def Extends {α : Type} (R : α → List Attempt → Prop) (m : Child α) : Prop :=
  ∀ s a s', m.run s = .ok a s' → ∃ new, s' = s ++ new ∧ R a new

theorem extends_pure {α : Type} {R : α → List Attempt → Prop} {a : α} (h : R a []) :
    Extends R (pure a : Child α) := by
  intro s b s' hrun
  cases hrun
  exact ⟨[], (List.append_nil s).symm, h⟩

theorem Extends.bind {α β : Type} {R : α → List Attempt → Prop} {Q : α → β → List Attempt → Prop}
    {T : β → List Attempt → Prop} {m : Child α} {f : α → Child β} (hm : Extends R m)
    (hf : ∀ a, Extends (Q a) (f a)) (h : ∀ a x b y, R a x → Q a b y → T b (x ++ y)) :
    Extends T (m >>= f) := by
  intro s b s' hrun
  obtain ⟨a, t, hfirst, hrest⟩ := Attempts.run_bind_eq_ok.mp hrun
  obtain ⟨x, rfl, hx⟩ := hm s a t hfirst
  obtain ⟨y, rfl, hy⟩ := hf a (s ++ x) b s' hrest
  exact ⟨x ++ y, List.append_assoc s x y, h a x b y hx hy⟩

theorem Extends.mono {α : Type} {R Q : α → List Attempt → Prop} {m : Child α} (hm : Extends R m)
    (h : ∀ a x, R a x → Q a x) : Extends Q m := by
  intro s a s' hrun
  obtain ⟨new, hnew, hR⟩ := hm s a s' hrun
  exact ⟨new, hnew, h a new hR⟩

/-- `_apply` returns when the operation does, or at best effort when it raises an `Exception`
that is no `PartialIsolationError`. -/
theorem handle_returns {label : PyStr} {raised : Option BackendError} {s s' : List Attempt}
    {entered : Bool} (h : (handle spec label raised).run s = .ok entered s') :
    s' = s ∧ (raised = none ∧ entered = true ∨
      (∃ message, raised = some (.exception message)) ∧ spec.failure = .bestEffort ∧
        entered = false) := by
  cases raised with
  | none =>
    cases h
    exact ⟨rfl, .inl ⟨rfl, rfl⟩⟩
  | some error =>
    cases error with
    | partialIsolation message => cases h
    | other message => cases h
    | exception message =>
      cases hpolicy : spec.failure with
      | failClosed =>
        rw [handle, if_pos hpolicy] at h
        cases h
      | bestEffort =>
        rw [handle, if_neg (by simp [hpolicy])] at h
        cases h
        exact ⟨rfl, .inr ⟨⟨message, rfl⟩, rfl, rfl⟩⟩

/-- An attempt that succeeded. -/
def succeeded (operation : Operation) : Attempt := ⟨operation, none⟩

section

variable (backend : Backend)

theorem run_apply (label : PyStr) (operation : Operation) (s : List Attempt) :
    (apply backend spec label operation).run s =
      (handle spec label (backend s operation)).run (s ++ [⟨operation, backend s operation⟩]) :=
  rfl

theorem apply_failClosed (h : spec.failure = .failClosed) (label : PyStr) (operation : Operation) :
    Extends (fun entered new => entered = true ∧ new = [succeeded operation])
      (apply backend spec label operation) := by
  intro s entered s' hrun
  rw [run_apply] at hrun
  obtain ⟨rfl, hcases⟩ := handle_returns hrun
  refine ⟨_, rfl, ?_⟩
  rcases hcases with ⟨hraised, hentered⟩ | ⟨-, hpolicy, -⟩
  · exact ⟨hentered, by rw [hraised]; rfl⟩
  · rw [h] at hpolicy
    cases hpolicy

theorem applyOnly_failClosed (h : spec.failure = .failClosed) (label : PyStr)
    (operation : Operation) :
    Extends (fun _ new => new = [succeeded operation])
      (applyOnly backend spec label operation) := by
  refine (apply_failClosed backend h label operation).bind (fun _ => extends_pure rfl)
    (Q := fun _ _ y => y = []) ?_
  rintro _ x _ y ⟨-, rfl⟩ rfl
  rfl

theorem extends_forM {ι : Type} {f : ι → Child Unit} {ops : ι → List Operation}
    (hf : ∀ i, Extends (fun _ new => new = (ops i).map succeeded) (f i)) (items : List ι) :
    Extends (fun _ new => new = (items.flatMap ops).map succeeded) (items.forM f) := by
  induction items with
  | nil => exact extends_pure rfl
  | cons i items ih =>
    refine (hf i).bind (fun _ => ih) ?_
    rintro _ x _ y rfl rfl
    rw [List.flatMap_cons, List.map_append]

end

/-! ## Failing closed -/

/-- The operations of one turn of the loop over the namespaces. -/
def namespaceOperations (spec : IsolationSpec) (n : Namespace) : List Operation :=
  if n = .user ∨ n ∉ spec.namespaces then []
  else .unshare n :: if n = .mount then [.makeMountsPrivate] else []

/-- Everything a spec asks of the child, in the fixed order. -/
def operations (spec : IsolationSpec) : List Operation :=
  (if .user ∈ spec.namespaces then [.enterUserNamespace] else []) ++
    (namespaceOrder.flatMap (namespaceOperations spec) ++
      ((if spec.noNewPrivs then [.setNoNewPrivs] else []) ++
        (spec.dumpable.toList.flatMap (fun enabled => [.setDumpable enabled]) ++
          (sortedRlimits spec).flatMap fun entry => [.setRlimit entry.1 entry.2])))

section

variable (backend : Backend) (h : spec.failure = .failClosed)

include h

theorem enterNamespace_failClosed (n : Namespace) :
    Extends (fun _ new => new = (namespaceOperations spec n).map succeeded)
      (enterNamespace backend spec n) := by
  unfold enterNamespace namespaceOperations
  by_cases hskip : n = .user ∨ n ∉ spec.namespaces
  · rw [if_pos hskip, if_pos hskip]
    exact extends_pure rfl
  · rw [if_neg hskip, if_neg hskip]
    refine (apply_failClosed backend h _ (.unshare n)).bind
      (Q := fun entered _ new => entered = true → new =
        (if n = .mount then [Operation.makeMountsPrivate] else []).map succeeded)
      (fun entered => ?_) ?_
    · by_cases hmount : n = .mount ∧ entered = true
      · rw [if_pos hmount]
        refine (applyOnly_failClosed backend h _ .makeMountsPrivate).mono ?_
        rintro _ new rfl -
        rw [if_pos hmount.1]
        rfl
      · rw [if_neg hmount]
        refine extends_pure fun hentered => ?_
        rw [if_neg fun hn => hmount ⟨hn, hentered⟩]
        rfl
    · rintro entered x _ y ⟨hentered, rfl⟩ hy
      rw [hy hentered]
      rfl

/-- A child that goes on to the program has done everything its spec asks for, in order. -/
theorem preexec_failClosed :
    Extends (fun _ new => new = (operations spec).map succeeded) (preexec backend spec) := by
  have happend : ∀ {first second : List Operation} {m n : Child Unit},
      Extends (fun _ new => new = first.map succeeded) m →
      Extends (fun _ new => new = second.map succeeded) n →
      Extends (fun _ new => new = (first ++ second).map succeeded) (m >>= fun _ => n) := by
    intro first second m n hm hn
    refine hm.bind (fun _ => hn) ?_
    rintro _ x _ y rfl rfl
    rw [List.map_append]
  have happlyIf : ∀ (requested : Bool) (label : PyStr) (operation : Operation),
      Extends (fun _ new => new = (if requested then [operation] else []).map succeeded)
        (applyIf backend spec requested label operation) := by
    intro requested label operation
    cases requested with
    | false => exact extends_pure rfl
    | true => exact applyOnly_failClosed backend h label operation
  refine happend ?_ (happend ?_ (happend (happlyIf _ _ _) (happend ?_ ?_)))
  · simpa using happlyIf (decide (.user ∈ spec.namespaces)) (lit "namespace:user") _
  · exact extends_forM (enterNamespace_failClosed backend h) namespaceOrder
  · refine extends_forM (fun enabled => ?_) spec.dumpable.toList
    exact applyOnly_failClosed backend h _ (.setDumpable enabled)
  · refine extends_forM (fun entry => ?_) (sortedRlimits spec)
    exact applyOnly_failClosed backend h _ (.setRlimit entry.1 entry.2)

end

/-- That operations do all that a spec asks for: the user namespace first, and the mounts made
private right after their namespace is entered. -/
structure Covers (spec : IsolationSpec) (done : List Operation) : Prop where
  user : .user ∈ spec.namespaces → done.head? = some .enterUserNamespace
  namespaces : ∀ n ∈ spec.namespaces, n ≠ .user → .unshare n ∈ done
  mount : .mount ∈ spec.namespaces →
    ∃ before after, done = before ++ [.unshare .mount, .makeMountsPrivate] ++ after
  noNewPrivs : spec.noNewPrivs = true → .setNoNewPrivs ∈ done
  dumpable : ∀ enabled, spec.dumpable = some enabled → .setDumpable enabled ∈ done
  rlimits : ∀ entry ∈ spec.rlimits, .setRlimit entry.1 entry.2 ∈ done

theorem covers_operations (spec : IsolationSpec) : Covers spec (operations spec) where
  user h := by simp [operations, h]
  namespaces n hn huser := by
    have hturn : Operation.unshare n ∈ namespaceOrder.flatMap (namespaceOperations spec) := by
      refine List.mem_flatMap.mpr ⟨n, by cases n <;> decide, ?_⟩
      simp [namespaceOperations, huser, hn]
    simp only [operations, List.mem_append]
    exact .inr (.inl hturn)
  mount h := by
    have hturns : namespaceOrder.flatMap (namespaceOperations spec) =
        [.unshare .mount, .makeMountsPrivate] ++
          [Namespace.ipc, .uts, .network].flatMap (namespaceOperations spec) := by
      simp [namespaceOrder, namespaceOperations, h]
    refine ⟨if .user ∈ spec.namespaces then [.enterUserNamespace] else [], ?_, ?_⟩
    rotate_left
    · rw [operations, hturns]
      simp only [List.append_assoc]
      rfl
  noNewPrivs h := by simp [operations, h]
  dumpable enabled h := by simp [operations, h]
  rlimits entry hentry := by
    have hsorted : entry ∈ sortedRlimits spec := (List.mem_insertionSort _).mpr hentry
    simp only [operations, List.mem_append]
    exact .inr (.inr (.inr (.inr (List.mem_flatMap.mpr ⟨entry, hsorted, by simp⟩))))

theorem operations_eq_nil (h : needsPreexec spec = false) : operations spec = [] := by
  simp only [needsPreexec, Bool.or_eq_false_iff, Bool.not_eq_false', List.isEmpty_iff,
    Option.isSome_eq_false_iff, Option.isNone_iff_eq_none] at h
  obtain ⟨⟨⟨hnamespaces, hprivs⟩, hdumpable⟩, hrlimits⟩ := h
  simp [operations, namespaceOrder, namespaceOperations, sortedRlimits, hnamespaces, hprivs,
    hdumpable, hrlimits]

theorem runPreexec_failClosed (backend : Backend) (h : spec.failure = .failClosed)
    {argv : List PyStr} {skipped : List PyStr} {attempts : List Attempt}
    (hrun : ((launchPlan capabilities spec argv spec skipped).runPreexec backend).run [] =
      .ok () attempts) : attempts = (operations spec).map succeeded := by
  cases hneeds : needsPreexec spec with
  | false =>
    rw [IsolationLaunchPlan.runPreexec, launchPlan, hneeds] at hrun
    cases hrun
    rw [operations_eq_nil hneeds]
    rfl
  | true =>
    rw [IsolationLaunchPlan.runPreexec, launchPlan, hneeds] at hrun
    obtain ⟨new, hattempts, hnew⟩ := preexec_failClosed backend h [] () attempts hrun
    rw [hattempts, hnew, List.nil_append]

/-! ## Either policy -/

/-- No transition was left half made. -/
def Whole (attempts : List Attempt) : Prop :=
  ∀ attempt ∈ attempts, ∀ message, attempt.raised ≠ some (.partialIsolation message)

section

variable (backend : Backend) (spec : IsolationSpec)

theorem Extends.bindWhole {α β : Type} {m : Child α} {f : α → Child β}
    (hm : Extends (fun _ => Whole) m) (hf : ∀ a, Extends (fun _ => Whole) (f a)) :
    Extends (fun _ => Whole) (m >>= f) :=
  hm.bind hf fun _ _ _ _ hx hy => List.forall_mem_append.mpr ⟨hx, hy⟩

theorem whole_nil : Whole [] := fun _ h => absurd h List.not_mem_nil

theorem apply_whole (label : PyStr) (operation : Operation) :
    Extends (fun _ => Whole) (apply backend spec label operation) := by
  intro s entered s' hrun
  rw [run_apply] at hrun
  obtain ⟨rfl, hcases⟩ := handle_returns hrun
  refine ⟨_, rfl, fun attempt hattempt message => ?_⟩
  rw [List.mem_singleton.mp hattempt]
  rcases hcases with ⟨hraised, -⟩ | ⟨⟨other, hraised⟩, -⟩ <;> simp [hraised]

theorem applyOnly_whole (label : PyStr) (operation : Operation) :
    Extends (fun _ => Whole) (applyOnly backend spec label operation) :=
  (apply_whole backend spec label operation).bindWhole fun _ => extends_pure whole_nil

theorem applyIf_whole (requested : Bool) (label : PyStr) (operation : Operation) :
    Extends (fun _ => Whole) (applyIf backend spec requested label operation) := by
  cases requested with
  | false => exact extends_pure whole_nil
  | true => exact applyOnly_whole backend spec label operation

theorem enterNamespace_whole (n : Namespace) :
    Extends (fun _ => Whole) (enterNamespace backend spec n) := by
  unfold enterNamespace
  split_ifs
  · exact extends_pure whole_nil
  · refine (apply_whole backend spec _ _).bindWhole fun entered => ?_
    split_ifs
    · exact applyOnly_whole backend spec _ _
    · exact extends_pure whole_nil

theorem forM_whole {ι : Type} {f : ι → Child Unit} (hf : ∀ i, Extends (fun _ => Whole) (f i))
    (items : List ι) : Extends (fun _ => Whole) (items.forM f) := by
  induction items with
  | nil => exact extends_pure whole_nil
  | cons i items ih => exact (hf i).bindWhole fun _ => ih

/-- A half-made transition aborts the child, whatever the policy. -/
theorem preexec_whole : Extends (fun _ => Whole) (preexec backend spec) :=
  (applyIf_whole backend spec _ _ _).bindWhole fun _ =>
    (forM_whole (enterNamespace_whole backend spec) _).bindWhole fun _ =>
      (applyIf_whole backend spec _ _ _).bindWhole fun _ =>
        (forM_whole (fun _ => applyOnly_whole backend spec _ _) _).bindWhole fun _ =>
          forM_whole (fun _ => applyOnly_whole backend spec _ _) _

theorem runPreexec_whole {plan : IsolationLaunchPlan} {attempts : List Attempt}
    (hrun : (plan.runPreexec backend).run [] = .ok () attempts) : Whole attempts := by
  unfold IsolationLaunchPlan.runPreexec at hrun
  cases hspec : plan.preexecFn with
  | none =>
    rw [hspec] at hrun
    cases hrun
    exact whole_nil
  | some effective =>
    rw [hspec] at hrun
    obtain ⟨new, hattempts, hwhole⟩ := preexec_whole backend effective [] () attempts hrun
    rwa [hattempts, List.nil_append]

end

/-! ## The policy -/

/-- That an effective spec asks for nothing the requested one does not. -/
structure Within (effective requested : IsolationSpec) : Prop where
  profile : effective.profile = requested.profile
  failure : effective.failure = requested.failure
  namespaces : effective.namespaces.Sublist requested.namespaces
  noNewPrivs : effective.noNewPrivs = true → requested.noNewPrivs = true
  dumpable : effective.dumpable = none ∨ effective.dumpable = requested.dumpable
  rlimits : effective.rlimits.Sublist requested.rlimits
  seccomp : effective.seccomp = {} ∨ effective.seccomp = requested.seccomp

theorem within_degraded : Within (degraded capabilities spec) spec where
  profile := rfl
  failure := rfl
  namespaces := List.filter_sublist
  noNewPrivs h := (Bool.and_eq_true_iff.mp h).1
  dumpable := by
    unfold degraded
    by_cases h : capabilities.available .dumpable = true
    · exact .inr (if_pos h)
    · exact .inl (if_neg h)
  rlimits := List.filter_sublist
  seccomp := by
    unfold degraded
    by_cases h : spec.seccomp.mode = .helper ∧ capabilities.available .seccompHelper = false
    · exact .inl (if_pos h)
    · exact .inr (if_neg h)

theorem missing_eq_skipped :
    missing capabilities spec =
      (features spec).filter (· ∉ features (degraded capabilities spec)) := by
  refine List.filter_congr fun feature hfeature => ?_
  simp [features_degraded, hfeature]

/-- Failing closed, a launch is refused or does all that was requested, in the parent and, if the
child goes on to the program, in the child. At best effort it is never refused, and what it
leaves out of the spec is exactly what it reports. A half-made transition stops the child. -/
theorem isolationPolicy (capabilities : IsolationCapabilities) (spec : IsolationSpec)
    (argv : List PyStr) :
    (spec.failure = .failClosed →
      (∃ message, prepareIsolationLaunch capabilities spec argv = .error message) ∨
      ∃ plan, prepareIsolationLaunch capabilities spec argv = .ok plan ∧
        plan.effective = spec ∧ plan.skipped = [] ∧
        ∀ backend attempts, (plan.runPreexec backend).run [] = .ok () attempts →
          attempts = (operations spec).map succeeded ∧ Covers spec (operations spec)) ∧
    (spec.failure = .bestEffort →
      ∃ plan, prepareIsolationLaunch capabilities spec argv = .ok plan ∧
        Within plan.effective spec ∧
        plan.skipped =
          ((features spec).filter (· ∉ features plan.effective)).map Feature.text) ∧
    ∀ plan, prepareIsolationLaunch capabilities spec argv = .ok plan →
      ∀ backend attempts, (plan.runPreexec backend).run [] = .ok () attempts → Whole attempts := by
  refine ⟨fun h => ?_, fun h => ?_, fun plan _ backend attempts => runPreexec_whole backend⟩
  · obtain ⟨hcomplete, hrefused⟩ := @prepare_failClosed capabilities spec h argv
    cases hmissing : missing capabilities spec with
    | nil =>
      refine .inr ⟨_, hcomplete hmissing, rfl, rfl, fun backend attempts hrun => ?_⟩
      exact ⟨runPreexec_failClosed backend h hrun, covers_operations spec⟩
    | cons feature rest => exact .inl ⟨_, hrefused feature rest hmissing⟩
  · refine ⟨_, prepare_bestEffort h argv, within_degraded, ?_⟩
    exact congrArg (List.map Feature.text) missing_eq_skipped

end MsysCore.Core.Isolation
