import MsysCore.Lib.EnvironmentBlock
import MsysCore.Native.MipcPackets
import MsysCore.Native.PlanAccepted

/-!
# The environment of a child

`child_environment` of `native_lite_supervisor.cpp` and the display that its readiness poll looks
at. The supervisor starts from its own environment, over which it lays the profile, the display,
the component and then the keys that no plan may set.
-/

namespace MsysCore.Native.ChildEnvironment

open EnvironmentBlock (Update lookup lastValue setAll change changeAll)

/-- Between a key and its value. -/
def separator : UInt8 := 61

def setEnvironment (environment : List Bytes) (key value : Bytes) : List Bytes :=
  EnvironmentBlock.set separator environment key value

/-- What `spawn_component` knows besides the plan; the descriptors are those of the child. -/
structure Launch where
  inherited : List Bytes
  generation : ℕ
  readyFd : Option ℕ
  controlFd : Option ℕ
  runtimeDir : Option Bytes

def inherit : Bytes := ascii "inherit"

def displayKey : Bytes := ascii "DISPLAY"

def setDisplay (plan : RuntimePlan) (component : ComponentPlan) (environment : List Bytes) :
    List Bytes :=
  if component.window.display ≠ [] ∧ component.window.display ≠ inherit then
    setEnvironment environment displayKey component.window.display
  else if plan.display ≠ [] then setEnvironment environment displayKey plan.display
  else environment

def setOrUnset : Option Bytes → Update UInt8
  | some value => .set value
  | none => .unset

def setNonempty (value : Bytes) : Update UInt8 := if value = [] then .keep else .set value

/-- The keys that the supervisor sets last, in this order. -/
def supervisorKeys (component : ComponentPlan) (launch : Launch) :
    List (Bytes × Update UInt8) :=
  [(ascii "MSYS_COMPONENT_ID", .set component.id),
    (ascii "MSYS_GENERATION", .set (decimal launch.generation)),
    (ascii "MSYS_READY_FD", setOrUnset (launch.readyFd.map decimal)),
    (ascii "MSYS_CONTROL_FD", setOrUnset (launch.controlFd.map decimal)),
    (ascii "MSYS_RUNTIME_DIR", setOrUnset launch.runtimeDir),
    (ascii "MSYS_WINDOW_TITLE", setNonempty component.window.title),
    (ascii "MSYS_APP_ID", setNonempty component.window.appId),
    (ascii "MSYS_WINDOW_IDENTITY", setNonempty component.window.wmClass),
    (ascii "MSYS_X11_WM_INSTANCE", setNonempty component.window.wmInstance),
    (ascii "MSYS_PACKAGE_ID", setNonempty component.packageId),
    (ascii "MSYS_PACKAGE_VERSION",
      if component.packageId = [] then .keep else .set component.packageVersion)]

def childEnvironment (plan : RuntimePlan) (component : ComponentPlan) (launch : Launch) :
    List Bytes :=
  let environment := setAll separator launch.inherited plan.profileEnvironment
  let environment := setDisplay plan component environment
  let environment := setAll separator environment component.environment
  changeAll separator environment (supervisorKeys component launch)

def componentEnvironmentValue (plan : RuntimePlan) (component : ComponentPlan) (key : Bytes) :
    Option Bytes :=
  (lastValue component.environment key).or (lastValue plan.profileEnvironment key)

def componentDisplay (plan : RuntimePlan) (component : ComponentPlan) : Bytes :=
  match componentEnvironmentValue plan component displayKey with
  | some display => display
  | none =>
    if component.window.display ≠ [] ∧ component.window.display ≠ inherit then
      component.window.display
    else plan.display

/-! ## Values -/

/-- The display that a plan sets for a component. -/
def plannedDisplay (plan : RuntimePlan) (component : ComponentPlan) : Option Bytes :=
  if component.window.display ≠ [] ∧ component.window.display ≠ inherit then
    some component.window.display
  else if plan.display ≠ [] then some plan.display
  else none

theorem separator_not_mem_display : separator ∉ displayKey := by decide

theorem separator_not_mem_of_valid {key : Bytes} (h : PlanText.validEnvironmentKey key = true) :
    separator ∉ key := by
  intro hmem
  cases key with
  | nil => cases hmem
  | cons front rest =>
    have hall := (Bool.and_eq_true_iff.mp h).2
    exact absurd (List.all_eq_true.mp hall separator hmem) (by decide)

theorem setDisplay_eq (plan : RuntimePlan) (component : ComponentPlan)
    (environment : List Bytes) : setDisplay plan component environment =
      (plannedDisplay plan component).elim environment (setEnvironment environment displayKey) := by
  unfold setDisplay plannedDisplay
  split_ifs <;> rfl

theorem lookup_setDisplay (plan : RuntimePlan) (component : ComponentPlan)
    (environment : List Bytes) {key : Bytes} (hkey : separator ∉ key) :
    lookup separator (setDisplay plan component environment) key =
      (if key = displayKey then plannedDisplay plan component else none).or
        (lookup separator environment key) := by
  rw [setDisplay_eq]
  cases plannedDisplay plan component with
  | none =>
    rw [ite_self]
    rfl
  | some display =>
    refine (EnvironmentBlock.lookup_set separator_not_mem_display hkey environment display).trans ?_
    split_ifs <;> rfl

/-- The keys and values of a plan are those that the parser lets pass. -/
theorem environment_accepted {plan : RuntimePlan} (h : PlanAccepted plan)
    {environment : List (Bytes × Bytes)} (henvironment : environment = plan.profileEnvironment ∨
      ∃ component ∈ plan.components, environment = component.environment) :
    EnvironmentAccepted environment := by
  rcases henvironment with rfl | ⟨component, hcomponent, rfl⟩
  · rcases h.services with ⟨hprofile, -⟩ | ⟨-, -, hempty, -⟩
    · exact hprofile.environment
    · rw [hempty]
      exact ⟨Nat.zero_le _, List.nodup_nil, by simp, by simp, by simp⟩
  · exact (h.launch component hcomponent).environment

theorem lastValue_of_not_mem {entries : List (Bytes × Bytes)} {key : Bytes}
    (h : ∀ entry ∈ entries, entry.1 ≠ key) : lastValue entries key = none := by
  unfold lastValue
  rw [Option.map_eq_none_iff, List.find?_eq_none]
  intro entry hentry
  simpa using h entry (List.mem_reverse.mp hentry)

theorem supervisorKeys_keys (component : ComponentPlan) (launch : Launch) :
    ((supervisorKeys component launch).map Prod.fst).Perm PlanText.reservedKeys := by
  have hkeys : (supervisorKeys component launch).map Prod.fst =
      ["MSYS_COMPONENT_ID", "MSYS_GENERATION", "MSYS_READY_FD", "MSYS_CONTROL_FD",
        "MSYS_RUNTIME_DIR", "MSYS_WINDOW_TITLE", "MSYS_APP_ID", "MSYS_WINDOW_IDENTITY",
        "MSYS_X11_WM_INSTANCE", "MSYS_PACKAGE_ID", "MSYS_PACKAGE_VERSION"].map ascii := rfl
  rw [hkeys]
  exact List.Perm.map ascii (by decide)

theorem separator_not_mem_reserved : ∀ key ∈ PlanText.reservedKeys, separator ∉ key := by
  decide

theorem display_not_reserved : displayKey ∉ PlanText.reservedKeys := by
  decide

theorem nodup_reserved : PlanText.reservedKeys.Nodup := by
  decide

section

variable {plan : RuntimePlan} (hplan : PlanAccepted plan) {component : ComponentPlan}
  (hcomponent : component ∈ plan.components) (launch : Launch)

include hplan hcomponent

/-- What the supervisor lays its own keys over. -/
theorem lookup_layers {key : Bytes} (hkey : separator ∉ key) :
    lookup separator (setAll separator (setDisplay plan component
      (setAll separator launch.inherited plan.profileEnvironment)) component.environment) key =
    (lastValue component.environment key).or
      ((if key = displayKey then plannedDisplay plan component else none).or
        ((lastValue plan.profileEnvironment key).or (lookup separator launch.inherited key))) := by
  have hprofile := environment_accepted hplan (.inl rfl)
  have hown := environment_accepted hplan (.inr ⟨component, hcomponent, rfl⟩)
  rw [EnvironmentBlock.lookup_setAll hkey _ _ fun entry hentry =>
      separator_not_mem_of_valid (hown.valid entry hentry),
    lookup_setDisplay plan component _ hkey,
    EnvironmentBlock.lookup_setAll hkey _ _ fun entry hentry =>
      separator_not_mem_of_valid (hprofile.valid entry hentry)]

theorem lookup_other {key : Bytes} (hkey : separator ∉ key) (hfree : key ∉ PlanText.reservedKeys) :
    lookup separator (childEnvironment plan component launch) key =
    (lastValue component.environment key).or
      ((if key = displayKey then plannedDisplay plan component else none).or
        ((lastValue plan.profileEnvironment key).or (lookup separator launch.inherited key))) := by
  have hkeys := supervisorKeys_keys component launch
  have hseparators : ∀ update ∈ supervisorKeys component launch, separator ∉ update.1 :=
    fun update hupdate => separator_not_mem_reserved update.1
      (hkeys.mem_iff.mp (List.mem_map_of_mem hupdate))
  have hmem : key ∉ (supervisorKeys component launch).map Prod.fst := mt hkeys.mem_iff.mp hfree
  exact (EnvironmentBlock.lookup_changeAll_of_not_mem hkey _ _ hseparators hmem).trans
    (lookup_layers hplan hcomponent launch hkey)

theorem lookup_reserved {key : Bytes} {update : Update UInt8}
    (hupdate : (key, update) ∈ supervisorKeys component launch) :
    lookup separator (childEnvironment plan component launch) key =
      update.apply (lookup separator launch.inherited key) := by
  have hkeys := supervisorKeys_keys component launch
  have hreserved : key ∈ PlanText.reservedKeys :=
    hkeys.mem_iff.mp (List.mem_map.mpr ⟨_, hupdate, rfl⟩)
  have hseparators : ∀ update ∈ supervisorKeys component launch, separator ∉ update.1 :=
    fun update hupdate => separator_not_mem_reserved update.1
      (hkeys.mem_iff.mp (List.mem_map_of_mem hupdate))
  have hunset : ∀ {entries : List (Bytes × Bytes)}, EnvironmentAccepted entries →
      lastValue entries key = none := fun haccepted =>
    lastValue_of_not_mem fun entry hentry heq => haccepted.free entry hentry (heq ▸ hreserved)
  have hdisplay : key ≠ displayKey := fun heq => display_not_reserved (heq ▸ hreserved)
  refine (EnvironmentBlock.lookup_changeAll _ _ hseparators
    (hkeys.nodup_iff.mpr nodup_reserved) hupdate).trans ?_
  rw [lookup_layers hplan hcomponent launch (separator_not_mem_reserved key hreserved),
    hunset (environment_accepted hplan (.inr ⟨component, hcomponent, rfl⟩)),
    hunset (environment_accepted hplan (.inl rfl)), if_neg hdisplay]
  rfl

/-- For the plans that the parser accepts: a reserved key has the value that the supervisor gives
it, or the inherited one where the supervisor gives none; of the others, the component comes
before the display, the profile and what is inherited. -/
theorem child_values :
    (∀ key update, (key, update) ∈ supervisorKeys component launch →
      lookup separator (childEnvironment plan component launch) key =
        update.apply (lookup separator launch.inherited key)) ∧
    ∀ key, separator ∉ key → key ∉ PlanText.reservedKeys →
      lookup separator (childEnvironment plan component launch) key =
      (lastValue component.environment key).or
        ((if key = displayKey then plannedDisplay plan component else none).or
          ((lastValue plan.profileEnvironment key).or
            (lookup separator launch.inherited key))) :=
  ⟨fun _ _ hupdate => lookup_reserved hplan hcomponent launch hupdate,
    fun _ hkey hfree => lookup_other hplan hcomponent launch hkey hfree⟩

end

/-- The first start, with nothing inherited. -/
def firstLaunch : Launch where
  inherited := []
  generation := 1
  readyFd := none
  controlFd := none
  runtimeDir := none

/-- The profile has `:0` as its display and sets `DISPLAY` to `:1`. -/
def twoDisplays : Bytes :=
  ascii ("MSYS_NATIVE_LITE_PLAN\t2\nstop_grace_ms\t1000\nprofile\t70\t3a30\t0\t1\t1\n" ++
    "profile-env\t444953504c4159\t3a31\nstartup\tscreen\n" ++
    "component\tscreen\twindow\t1\tnever\tx11-display\t1000\t100\t100\t0\t1\t0\t0\t" ++
    "background\t0\t0\t0\t0\narg\t2f61\npackage\t70\t\t\t\n" ++
    "metadata\t73\t\t\nwindow\t\t\t\t\t\t\t\nend\n")

theorem read_twoDisplays : ∃ plan component, PlanText.parseRuntimePlan twoDisplays = .ok plan ∧
    component ∈ plan.components ∧ lookup separator (childEnvironment plan component firstLaunch)
      displayKey ≠ some (componentDisplay plan component) := by
  have hrun : ((PlanText.parseRuntimePlan twoDisplays).toOption.bind fun plan =>
      plan.components.head?.map fun component => decide
        (lookup separator (childEnvironment plan component firstLaunch) displayKey ≠
          some (componentDisplay plan component))) = some true := by decide +kernel
  obtain ⟨plan, hplan, hrun⟩ := Option.bind_eq_some_iff.mp hrun
  obtain ⟨component, hhead, hdiffers⟩ := Option.map_eq_some_iff.mp hrun
  exact ⟨plan, component, toOption_eq_some.mp hplan, List.mem_of_head? hhead,
    of_decide_eq_true hdiffers⟩

theorem child_values_screen : ∃ plan component, PlanAccepted plan ∧ component ∈ plan.components ∧
    lookup separator (childEnvironment plan component firstLaunch) (ascii "MSYS_COMPONENT_ID") =
      some component.id := by
  obtain ⟨plan, component, hparse, hcomponent, -⟩ := read_twoDisplays
  have hplan := PlanText.accepted_of_parse hparse
  have hvalues := (child_values hplan hcomponent firstLaunch).1 (ascii "MSYS_COMPONENT_ID")
    (.set component.id) List.mem_cons_self
  exact ⟨plan, component, hplan, hcomponent, hvalues⟩

theorem componentDisplay_eq (plan : RuntimePlan) (component : ComponentPlan) :
    componentDisplay plan component =
      ((lastValue component.environment displayKey).or
        (lastValue plan.profileEnvironment displayKey)).getD
          ((plannedDisplay plan component).getD []) := by
  unfold componentDisplay componentEnvironmentValue plannedDisplay
  split
  · rename_i heq
    rw [heq, Option.getD_some]
  · rename_i heq
    rw [heq, Option.getD_none]
    split_ifs with hwindow hplan
    · rfl
    · rfl
    · exact not_not.mp hplan

/-- The poll for readiness looks at the display that the child gets. -/
def SameDisplay (plan : RuntimePlan) (component : ComponentPlan) (launch : Launch) : Prop :=
  lastValue component.environment displayKey ≠ none ∨
    (∃ display, lastValue plan.profileEnvironment displayKey = some display ∧
      (plannedDisplay plan component = none ∨ plannedDisplay plan component = some display)) ∨
    (lastValue plan.profileEnvironment displayKey = none ∧
      (plannedDisplay plan component ≠ none ∨
        lookup separator launch.inherited displayKey = some []))

/-- The poll looks at the child's display unless the profile sets one that the plan overrides for
the child, or nothing in the plan sets one. -/
theorem child_display_iff {plan : RuntimePlan} (hplan : PlanAccepted plan)
    {component : ComponentPlan} (hcomponent : component ∈ plan.components) (launch : Launch) :
    lookup separator (childEnvironment plan component launch) displayKey =
      some (componentDisplay plan component) ↔ SameDisplay plan component launch := by
  rw [lookup_other hplan hcomponent launch separator_not_mem_display display_not_reserved,
    componentDisplay_eq, if_pos rfl]
  unfold SameDisplay
  cases lastValue component.environment displayKey with
  | some display => simp
  | none =>
    cases lastValue plan.profileEnvironment displayKey with
    | some display => cases plannedDisplay plan component <;> simp
    | none => cases plannedDisplay plan component <;> simp

theorem child_display_differs : ∃ plan component, PlanText.parseRuntimePlan twoDisplays = .ok plan ∧
    component ∈ plan.components ∧ ¬ SameDisplay plan component firstLaunch := by
  obtain ⟨plan, component, hparse, hcomponent, hdiffers⟩ := read_twoDisplays
  have hsame := child_display_iff (PlanText.accepted_of_parse hparse) hcomponent firstLaunch
  exact ⟨plan, component, hparse, hcomponent, hsame.not.mp hdiffers⟩

end MsysCore.Native.ChildEnvironment
