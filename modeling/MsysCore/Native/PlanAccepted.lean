import MsysCore.Native.CatalogContents
import MsysCore.Native.GraphCheck

/-!
# The plans that `parse_runtime_plan` accepts

What the supervisor may rely on in a plan, whatever file it was read from: every field within its
bounds, every name valid, no key twice, references to components that are there, and an order in
which the components can be started. The constructor of the catalog then refuses a plan for one
reason only.
-/

namespace MsysCore.Native

open PlanText (validId validEnvironmentKey reservedKeys Startable)

/-! ## Accepted plans -/

/-- What `decode_hex` makes. -/
structure DecodedText (maximum : ℕ) (value : Bytes) : Prop where
  length : value.length ≤ maximum
  nulFree : 0 ∉ value

structure EnvironmentAccepted (environment : List (Bytes × Bytes)) : Prop where
  length : environment.length ≤ maxEnvironment
  keys : (environment.map Prod.fst).Nodup
  valid : ∀ entry ∈ environment, validEnvironmentKey entry.1 = true
  free : ∀ entry ∈ environment, entry.1 ∉ reservedKeys
  value : ∀ entry ∈ environment, DecodedText 4096 entry.2

/-- The fields that both versions have. -/
structure LaunchAccepted (component : ComponentPlan) : Prop where
  id : validId component.id = true
  readinessTimeout : 1 ≤ component.readinessTimeoutMs ∧ component.readinessTimeoutMs ≤ 300000
  backoffInitial : 1 ≤ component.backoffInitialMs ∧ component.backoffInitialMs ≤ 60000
  backoffMax : component.backoffInitialMs ≤ component.backoffMaxMs ∧
    component.backoffMaxMs ≤ 300000
  restartLimit : component.restartLimit ≤ 1000
  arguments : component.argv.length ≤ maxArguments
  absolute : (component.argv.headD []).head? = some 47
  argument : ∀ argument ∈ component.argv, DecodedText 4096 argument
  dependencies : component.after.length ≤ maxDependencies
  dependency : ∀ id ∈ component.after, validId id = true
  environment : EnvironmentAccepted component.environment

/-- The fields of version 2. -/
structure ServicesAccepted (component : ComponentPlan) : Prop where
  onDemand : component.lifecycle = .onDemand → 100 ≤ component.idleTimeoutMs
  others : component.lifecycle ≠ .onDemand → component.idleTimeoutMs = 0
  idleTimeout : component.idleTimeoutMs ≤ 3600000
  provides : component.provides.length ≤ maxProvides
  provided : ∀ provided ∈ component.provides,
    validId provided.name = true ∧ provided.priority ≤ 1000000
  once : (component.provides.map fun provided => (provided.kind, provided.name)).Nodup
  permissions : component.permissions.length ≤ maxPermissions
  permission : ∀ permission ∈ component.permissions,
    permission ≠ [] ∧ DecodedText 256 permission
  permitted : component.permissions.Nodup
  packageId : validId component.packageId = true
  packageName : DecodedText 256 component.packageName
  packageVersion : DecodedText 64 component.packageVersion
  packageKind : DecodedText 64 component.packageKind
  name : component.name ≠ [] ∧ DecodedText 256 component.name
  summary : DecodedText 1024 component.summary
  icon : DecodedText 4096 component.icon
  windowSystem : DecodedText 32 component.window.system
  windowDisplay : DecodedText 64 component.window.display
  windowMode : DecodedText 64 component.window.mode
  windowTitle : DecodedText 256 component.window.title
  windowAppId : DecodedText 256 component.window.appId
  windowClass : DecodedText 256 component.window.wmClass
  windowInstance : DecodedText 256 component.window.wmInstance

/-- A component of version 1 has its id as its name and no services. -/
def Plain (component : ComponentPlan) : Prop :=
  component.name = component.id ∧ component.lifecycle = .background ∧
    component.idleTimeoutMs = 0 ∧ component.provides = [] ∧ component.permissions = [] ∧
    component.launchable = false

/-- The profile of version 2. -/
structure ProfileAccepted (plan : RuntimePlan) : Prop where
  profileId : validId plan.profileId = true
  display : DecodedText 63 plan.display
  environment : EnvironmentAccepted plan.profileEnvironment
  startup : plan.startup.length ≤ maxComponents
  started : plan.startup.Nodup
  start : plan.startup ⊆ plan.components.map ComponentPlan.id
  preferences : plan.rolePreferences.length ≤ maxProfileRoles
  roles : (plan.rolePreferences.map RolePreference.role).Nodup
  role : ∀ preference ∈ plan.rolePreferences, validId preference.role = true
  providers : ∀ preference ∈ plan.rolePreferences,
    1 ≤ preference.providers.length ∧ preference.providers.length ≤ maxComponents
  preferred : ∀ preference ∈ plan.rolePreferences, preference.providers.Nodup
  provider : ∀ preference ∈ plan.rolePreferences,
    preference.providers ⊆ plan.components.map ComponentPlan.id

structure PlanAccepted (plan : RuntimePlan) : Prop where
  stopGrace : 100 ≤ plan.stopGraceMs ∧ plan.stopGraceMs ≤ 60000
  components : plan.components.length ≤ maxComponents
  startable : Startable plan.components
  launch : ∀ component ∈ plan.components, LaunchAccepted component
  services :
    (ProfileAccepted plan ∧ ∀ component ∈ plan.components, ServicesAccepted component) ∨
      (plan.profileId = [] ∧ plan.display = [] ∧ plan.profileEnvironment = [] ∧
        plan.startup = [] ∧ plan.rolePreferences = [] ∧
        ∀ component ∈ plan.components, Plain component)

namespace PlanText

open LineReader

local instance lawfulBEqNames : LawfulBEq Bytes := inferInstance

/-! ## Fields -/

theorem parseU32_bounds {value : Bytes} {field : String} {minimum maximum n : ℕ}
    (h : parseU32 value field minimum maximum = .ok n) : minimum ≤ n ∧ n ≤ maximum := by
  obtain ⟨⟨⟩, hchecks, hresult⟩ := bind_eq_ok.mp h
  cases hresult
  have hbad := refuse_iff.mp hchecks
  simp only [Bool.or_eq_false_iff, decide_eq_false_iff_not, not_lt] at hbad
  exact ⟨hbad.1.2, hbad.2⟩

theorem hexNibble_lt {value : UInt8} {n : ℕ} (h : hexNibble value = some n) : n < 16 := by
  unfold hexNibble at h
  split_ifs at h with hdigit hlower hupper
  all_goals
    cases h
    simp only [UInt8.le_iff_toNat_le] at *
    simp at *
    omega

theorem decodePairs_ok {field : String} : ∀ {value decoded : Bytes},
    decodePairs field value = .ok decoded → 2 * decoded.length ≤ value.length ∧ 0 ∉ decoded
  | [], decoded, h => by
    cases h
    simp
  | [_], decoded, h => by
    cases h
    simp
  | first :: second :: rest, decoded, h => by
    rw [decodePairs] at h
    cases hhigh : hexNibble first with
    | none => simp [hhigh] at h
    | some high =>
      cases hlow : hexNibble second with
      | none => simp [hhigh, hlow] at h
      | some low =>
        simp only [hhigh, hlow] at h
        obtain ⟨⟨⟩, hchecks, h⟩ := bind_eq_ok.mp h
        obtain ⟨tail, htail, h⟩ := bind_eq_ok.mp h
        cases h
        obtain ⟨hlength, hnul⟩ := decodePairs_ok htail
        have hbyte := refuse_iff.mp hchecks
        simp only [beq_eq_false_iff_ne] at hbyte
        have hlt : high * 16 + low < 256 := by
          have := hexNibble_lt hhigh
          have := hexNibble_lt hlow
          omega
        have hfirst : 0 ≠ (high * 16 + low).toUInt8 := by
          intro heq
          have hnat := congrArg UInt8.toNat heq
          simp only [UInt8.toNat_zero, UInt8.toNat_ofNat', Nat.toUInt8_eq] at hnat
          omega
        refine ⟨?_, List.not_mem_cons_of_ne_of_not_mem hfirst hnul⟩
        simp only [List.length_cons]
        omega

theorem decodeHex_ok {value : Bytes} {field : String} {decoded : Bytes}
    (h : decodeHex value field = .ok decoded) : DecodedText 4096 decoded := by
  obtain ⟨⟨⟩, hchecks, hpairs⟩ := bind_eq_ok.mp h
  have hbad := refuse_iff.mp hchecks
  simp only [Bool.or_eq_false_iff, decide_eq_false_iff_not, not_lt] at hbad
  obtain ⟨hlength, hnul⟩ := decodePairs_ok hpairs
  exact ⟨by omega, hnul⟩

theorem refuse_or {bad other : Bool} {detail : String} (h : refuse (bad || other) detail = .ok ()) :
    bad = false ∧ other = false := by
  rwa [refuse_iff, Bool.or_eq_false_iff] at h

/-! ## Lists without repetitions -/

theorem nodup_snoc {α β : Type} {key : α → β} {done : List α} {item : α}
    (h : (done.map key).Nodup) (hnew : key item ∉ done.map key) :
    ((done ++ [item]).map key).Nodup := by
  rw [List.map_append, List.map_singleton, List.nodup_append]
  refine ⟨h, List.nodup_singleton _, fun a ha b hb heq => ?_⟩
  exact hnew (List.mem_singleton.mp hb ▸ heq ▸ ha)

theorem forall_snoc {α : Type} {P : α → Prop} {done : List α} {item : α} (h : ∀ a ∈ done, P a)
    (hitem : P item) : ∀ a ∈ done ++ [item], P a := by
  intro a ha
  rcases List.mem_append.mp ha with hold | hlast
  · exact h a hold
  · exact List.mem_singleton.mp hlast ▸ hitem

theorem not_mem_of_contains {α : Type} [BEq α] [LawfulBEq α] {items : List α} {item : α}
    (h : items.contains item = false) : item ∉ items := by
  intro hmem
  rw [List.contains_iff_mem.mpr hmem] at h
  cases h

/-! ## Records of a component -/

/-- A loop of records, each of which keeps what holds of those before it. -/
theorem records_yield {α : Type} {P : List α → Prop} {read : List α → Reader α} (hempty : P [])
    (hread : ∀ done, P done → Yields (read done) fun item => P (done ++ [item])) (count : ℕ) :
    Yields (turns read count []) fun items => P items ∧ items.length = count := by
  intro lines items rest hturns
  obtain ⟨h, hlength⟩ := yields_turns hread count [] hempty lines items rest hturns
  rw [List.length_nil, Nat.zero_add] at hlength
  exact ⟨h, hlength⟩

theorem arguments_yields (count : ℕ) : Yields (turns readArgument count []) fun arguments =>
    (∀ argument ∈ arguments, DecodedText 4096 argument) ∧ arguments.length = count := by
  refine records_yield (by simp) (fun done hdone => ?_) count
  refine yields_bind fun fields => yields_last fun argument hargument => ?_
  exact forall_snoc hdone (decodeHex_ok hargument)

theorem after_yields (count : ℕ) : Yields (turns readAfter count []) fun ids =>
    (∀ id ∈ ids, validId id = true) ∧ ids.length = count := by
  refine records_yield (by simp) (fun done hdone => ?_) count
  refine yields_bind fun fields => yields_lift fun _ hvalid => yields_pure ?_
  exact forall_snoc hdone (by simpa using refuse_iff.mp hvalid)

/-- What the environment records so far may hold. -/
structure EntriesAccepted (environment : List (Bytes × Bytes)) : Prop where
  keys : (environment.map Prod.fst).Nodup
  valid : ∀ entry ∈ environment, validEnvironmentKey entry.1 = true
  free : ∀ entry ∈ environment, entry.1 ∉ reservedKeys
  value : ∀ entry ∈ environment, DecodedText 4096 entry.2

theorem EntriesAccepted.snoc {done : List (Bytes × Bytes)} {key value : Bytes}
    (h : EntriesAccepted done) (hkey : validEnvironmentKey key = true)
    (hfree : reservedKeys.contains key = false) (hnew : (done.map Prod.fst).contains key = false)
    (hvalue : DecodedText 4096 value) : EntriesAccepted (done ++ [(key, value)]) where
  keys := nodup_snoc h.keys (not_mem_of_contains hnew)
  valid := forall_snoc h.valid hkey
  free := forall_snoc h.free (not_mem_of_contains hfree)
  value := forall_snoc h.value hvalue

theorem environmentRecords_yields {read : List (Bytes × Bytes) → Reader (Bytes × Bytes)}
    (hread : ∀ done, EntriesAccepted done →
      Yields (read done) fun entry => EntriesAccepted (done ++ [entry])) {count : ℕ}
    (hcount : count ≤ maxEnvironment) : Yields (turns read count []) EnvironmentAccepted := by
  intro lines environment rest hturns
  have hempty : EntriesAccepted [] := ⟨List.nodup_nil, by simp, by simp, by simp⟩
  obtain ⟨h, hlength⟩ := records_yield hempty hread count lines environment rest hturns
  exact ⟨hlength ▸ hcount, h.keys, h.valid, h.free, h.value⟩

theorem environment_yields {count : ℕ} (hcount : count ≤ maxEnvironment) :
    Yields (turns readEnvironment count []) EnvironmentAccepted := by
  refine environmentRecords_yields (fun done hdone => ?_) hcount
  refine yields_bind fun fields => yields_lift fun key hkey => yields_lift fun value hvalue => ?_
  refine yields_lift fun _ hvalid => yields_lift fun _ hlength => yields_lift fun _ hfree =>
    yields_lift fun _ hnew => yields_pure ?_
  exact hdone.snoc (by simpa using refuse_iff.mp hvalid) (refuse_iff.mp hfree)
    (refuse_iff.mp hnew) (decodeHex_ok hvalue)

theorem profileEnvironment_yields {count : ℕ} (hcount : count ≤ maxEnvironment) :
    Yields (turns readProfileEnvironment count []) EnvironmentAccepted := by
  refine environmentRecords_yields (fun done hdone => ?_) hcount
  refine yields_bind fun fields => yields_lift fun key hkey => yields_lift fun value hvalue => ?_
  refine yields_lift fun _ hchecks => yields_lift fun _ hfree => yields_pure ?_
  obtain ⟨hfirst, hnew⟩ := refuse_or hchecks
  obtain ⟨hvalid, hlength⟩ := Bool.or_eq_false_iff.mp hfirst
  exact hdone.snoc (by simpa using hvalid) (refuse_iff.mp hfree) hnew (decodeHex_ok hvalue)

/-- The services that a component provides, so far. -/
structure ProvidesAccepted (provides : List ProvidePlan) : Prop where
  provided : ∀ provided ∈ provides, validId provided.name = true ∧ provided.priority ≤ 1000000
  once : (provides.map fun provided => (provided.kind, provided.name)).Nodup

theorem provides_yields (count : ℕ) : Yields (turns readProvide count []) fun provides =>
    ProvidesAccepted provides ∧ provides.length = count := by
  refine records_yield ⟨by simp, List.nodup_nil⟩ (fun done hdone => ?_) count
  refine yields_bind fun fields => yields_lift fun kind _ => yields_lift fun name _ =>
    yields_lift fun _ hvalid => yields_lift fun exclusive _ => yields_lift fun priority hpriority =>
    yields_lift fun _ hnew => yields_pure ?_
  have hname : validId name = true := by simpa using refuse_iff.mp hvalid
  exact ⟨forall_snoc hdone.provided ⟨hname, (parseU32_bounds hpriority).2⟩,
    nodup_snoc hdone.once (not_mem_of_contains (refuse_iff.mp hnew))⟩

structure PermissionsAccepted (permissions : List Bytes) : Prop where
  permission : ∀ permission ∈ permissions, permission ≠ [] ∧ DecodedText 256 permission
  permitted : permissions.Nodup

theorem permissions_yields (count : ℕ) : Yields (turns readPermission count []) fun permissions =>
    PermissionsAccepted permissions ∧ permissions.length = count := by
  refine records_yield ⟨by simp, List.nodup_nil⟩ (fun done hdone => ?_) count
  refine yields_bind fun fields => yields_lift fun permission hpermission =>
    yields_lift fun _ hchecks => yields_pure ?_
  obtain ⟨hfirst, hnew⟩ := refuse_or hchecks
  obtain ⟨hempty, hlength⟩ := Bool.or_eq_false_iff.mp hfirst
  have hsize : permission.length ≤ 256 := by simpa using hlength
  have hnodup : ((done ++ [permission]).map id).Nodup :=
    nodup_snoc (by simpa using hdone.permitted) (by simpa using not_mem_of_contains hnew)
  refine ⟨forall_snoc hdone.permission ⟨by simpa using hempty, hsize, ?_⟩, by simpa using hnodup⟩
  exact (decodeHex_ok hpermission).nulFree

/-! ## A component -/

structure HeaderAccepted (parsed : Header) : Prop where
  id : validId parsed.component.id = true
  readinessTimeout : 1 ≤ parsed.component.readinessTimeoutMs ∧
    parsed.component.readinessTimeoutMs ≤ 300000
  backoffInitial : 1 ≤ parsed.component.backoffInitialMs ∧
    parsed.component.backoffInitialMs ≤ 60000
  backoffMax : parsed.component.backoffInitialMs ≤ parsed.component.backoffMaxMs ∧
    parsed.component.backoffMaxMs ≤ 300000
  restartLimit : parsed.component.restartLimit ≤ 1000
  arguments : parsed.argumentCount ≤ maxArguments
  dependencies : parsed.dependencyCount ≤ maxDependencies
  environment : parsed.environmentCount ≤ maxEnvironment

/-- A header of version 1 has nothing of version 2. -/
structure HeaderPlain (component : ComponentPlan) : Prop where
  lifecycle : component.lifecycle = .background
  idleTimeout : component.idleTimeoutMs = 0
  provides : component.provides = []
  permissions : component.permissions = []
  launchable : component.launchable = false

theorem parseHeader_ok {header : List Bytes} {parsed : Header}
    (h : parseHeader header = .ok parsed) :
    HeaderAccepted parsed ∧ HeaderPlain parsed.component := by
  unfold parseHeader at h
  obtain ⟨⟨⟩, hid, h⟩ := bind_eq_ok.mp h
  obtain ⟨kind, -, h⟩ := bind_eq_ok.mp h
  obtain ⟨critical, -, h⟩ := bind_eq_ok.mp h
  obtain ⟨restart, -, h⟩ := bind_eq_ok.mp h
  obtain ⟨readiness, -, h⟩ := bind_eq_ok.mp h
  obtain ⟨timeout, htimeout, h⟩ := bind_eq_ok.mp h
  obtain ⟨initial, hinitial, h⟩ := bind_eq_ok.mp h
  obtain ⟨most, hmost, h⟩ := bind_eq_ok.mp h
  obtain ⟨limit, hlimit, h⟩ := bind_eq_ok.mp h
  obtain ⟨arguments, harguments, h⟩ := bind_eq_ok.mp h
  obtain ⟨dependencies, hdependencies, h⟩ := bind_eq_ok.mp h
  obtain ⟨environment, henvironment, h⟩ := bind_eq_ok.mp h
  cases h
  exact ⟨
    { id := by simpa using refuse_iff.mp hid
      readinessTimeout := parseU32_bounds htimeout
      backoffInitial := parseU32_bounds hinitial
      backoffMax := parseU32_bounds hmost
      restartLimit := (parseU32_bounds hlimit).2
      arguments := (parseU32_bounds harguments).2
      dependencies := (parseU32_bounds hdependencies).2
      environment := (parseU32_bounds henvironment).2 }, ⟨rfl, rfl, rfl, rfl, rfl⟩⟩

/-- What the header of version 2 adds. -/
structure HeaderServices (parsed : Header) : Prop where
  onDemand : parsed.component.lifecycle = .onDemand → 100 ≤ parsed.component.idleTimeoutMs
  others : parsed.component.lifecycle ≠ .onDemand → parsed.component.idleTimeoutMs = 0
  idleTimeout : parsed.component.idleTimeoutMs ≤ 3600000
  provides : parsed.provideCount ≤ maxProvides
  permissions : parsed.permissionCount ≤ maxPermissions

theorem parseHeaderV2_ok {header : List Bytes} {parsed final : Header}
    (haccepted : HeaderAccepted parsed) (h : parseHeaderV2 header parsed = .ok final) :
    HeaderAccepted final ∧ HeaderServices final := by
  unfold parseHeaderV2 at h
  obtain ⟨lifecycle, -, h⟩ := bind_eq_ok.mp h
  obtain ⟨idleTimeout, hidle, h⟩ := bind_eq_ok.mp h
  obtain ⟨⟨⟩, hdemand, h⟩ := bind_eq_ok.mp h
  obtain ⟨⟨⟩, hothers, h⟩ := bind_eq_ok.mp h
  obtain ⟨provides, hprovides, h⟩ := bind_eq_ok.mp h
  obtain ⟨permissions, hpermissions, h⟩ := bind_eq_ok.mp h
  obtain ⟨launchable, -, h⟩ := bind_eq_ok.mp h
  cases h
  have hdemand := refuse_iff.mp hdemand
  have hothers := refuse_iff.mp hothers
  refine ⟨{ haccepted with },
    { onDemand := fun heq => ?_
      others := fun hne => ?_
      idleTimeout := (parseU32_bounds hidle).2
      provides := (parseU32_bounds hprovides).2
      permissions := (parseU32_bounds hpermissions).2 }⟩
  · dsimp only at heq
    simpa [heq] using hdemand
  · dsimp only at hne
    simpa [hne] using hothers

theorem launch_yields {header : Header} (h : HeaderAccepted header) :
    Yields (readLaunch header) fun component => LaunchAccepted component ∧
      ∃ argv after environment, component =
        { header.component with argv := argv, after := after, environment := environment } := by
  refine (arguments_yields header.argumentCount).bind fun argv hargv => ?_
  split_ifs with habsolute
  · exact yields_throw _
  refine (after_yields header.dependencyCount).bind fun after hafter => ?_
  refine (environment_yields h.environment).bind fun environment henvironment => yields_pure ?_
  exact ⟨
    { id := h.id
      readinessTimeout := h.readinessTimeout
      backoffInitial := h.backoffInitial
      backoffMax := h.backoffMax
      restartLimit := h.restartLimit
      arguments := hargv.2.trans_le h.arguments
      absolute := not_not.mp habsolute
      argument := hargv.1
      dependencies := hafter.2.trans_le h.dependencies
      dependency := hafter.1
      environment := henvironment }, argv, after, environment, rfl⟩

theorem decoded_of_length {value decoded : Bytes} {field : String} {maximum : ℕ}
    (h : decodeHex value field = .ok decoded)
    (hlength : decide (maximum < decoded.length) = false) :
    DecodedText maximum decoded :=
  ⟨by simpa using hlength, (decodeHex_ok h).nulFree⟩

structure WindowAccepted (window : WindowPlan) : Prop where
  system : DecodedText 32 window.system
  display : DecodedText 64 window.display
  mode : DecodedText 64 window.mode
  title : DecodedText 256 window.title
  appId : DecodedText 256 window.appId
  wmClass : DecodedText 256 window.wmClass
  wmInstance : DecodedText 256 window.wmInstance

theorem package_yields (component : ComponentPlan) : Yields (readPackage component) fun found =>
    ∃ id name version kind, found = { component with
      packageId := id
      packageName := name
      packageVersion := version
      packageKind := kind } ∧
    validId id = true ∧ DecodedText 256 name ∧ DecodedText 64 version ∧ DecodedText 64 kind := by
  refine yields_bind fun fields => yields_lift fun packageId _ => yields_lift fun name hname =>
    yields_lift fun version hversion => yields_lift fun kind hkind =>
    yields_lift fun _ hchecks => yields_pure ⟨packageId, name, version, kind, rfl, ?_⟩
  obtain ⟨hfirst, hkindLength⟩ := refuse_or hchecks
  obtain ⟨hfirst, hversionLength⟩ := Bool.or_eq_false_iff.mp hfirst
  obtain ⟨hid, hnameLength⟩ := Bool.or_eq_false_iff.mp hfirst
  exact ⟨by simpa using hid, decoded_of_length hname hnameLength,
    decoded_of_length hversion hversionLength, decoded_of_length hkind hkindLength⟩

theorem metadata_yields (component : ComponentPlan) : Yields (readMetadata component) fun found =>
    ∃ name summary icon,
      found = { component with name := name, summary := summary, icon := icon } ∧
      (name ≠ [] ∧ DecodedText 256 name) ∧ DecodedText 1024 summary ∧ DecodedText 4096 icon := by
  refine yields_bind fun fields => yields_lift fun name hname => yields_lift fun summary hsummary =>
    yields_lift fun icon hicon => yields_lift fun _ hchecks =>
    yields_pure ⟨name, summary, icon, rfl, ?_⟩
  obtain ⟨hfirst, hiconLength⟩ := refuse_or hchecks
  obtain ⟨hfirst, hsummaryLength⟩ := Bool.or_eq_false_iff.mp hfirst
  obtain ⟨hempty, hnameLength⟩ := Bool.or_eq_false_iff.mp hfirst
  exact ⟨⟨by simpa using hempty, decoded_of_length hname hnameLength⟩,
    decoded_of_length hsummary hsummaryLength, decoded_of_length hicon hiconLength⟩

theorem window_yields (component : ComponentPlan) : Yields (readWindow component) fun found =>
    ∃ window, found = { component with window := window } ∧ WindowAccepted window := by
  refine yields_bind fun fields => yields_lift fun system hsystem =>
    yields_lift fun display hdisplay => yields_lift fun mode hmode =>
    yields_lift fun title htitle => yields_lift fun appId happId =>
    yields_lift fun wmClass hclass => yields_lift fun wmInstance hinstance =>
    yields_lift fun _ hchecks => yields_pure ⟨_, rfl, ?_⟩
  obtain ⟨hfirst, hinstanceLength⟩ := refuse_or hchecks
  obtain ⟨hfirst, hclassLength⟩ := Bool.or_eq_false_iff.mp hfirst
  obtain ⟨hfirst, happIdLength⟩ := Bool.or_eq_false_iff.mp hfirst
  obtain ⟨hfirst, htitleLength⟩ := Bool.or_eq_false_iff.mp hfirst
  obtain ⟨hfirst, hmodeLength⟩ := Bool.or_eq_false_iff.mp hfirst
  obtain ⟨hsystemLength, hdisplayLength⟩ := Bool.or_eq_false_iff.mp hfirst
  exact ⟨decoded_of_length hsystem hsystemLength, decoded_of_length hdisplay hdisplayLength,
    decoded_of_length hmode hmodeLength, decoded_of_length htitle htitleLength,
    decoded_of_length happId happIdLength, decoded_of_length hclass hclassLength,
    decoded_of_length hinstance hinstanceLength⟩

/-- The records of version 2 leave the launch of a component as it is. -/
theorem services_yields {header : Header} (h : HeaderServices header) {component : ComponentPlan}
    (hlaunch : LaunchAccepted component)
    (hlifecycle : component.lifecycle = header.component.lifecycle)
    (hidle : component.idleTimeoutMs = header.component.idleTimeoutMs) :
    Yields (readServices header component) fun found =>
      LaunchAccepted found ∧ ServicesAccepted found := by
  refine (provides_yields header.provideCount).bind fun provides hprovides => ?_
  refine (permissions_yields header.permissionCount).bind fun permissions hpermissions => ?_
  refine (package_yields _).bind fun packaged hpackaged => ?_
  obtain ⟨packageId, packageName, version, kind, rfl, hid, hpackageName, hversion, hkind⟩ :=
    hpackaged
  refine (metadata_yields _).bind fun described hdescribed => ?_
  obtain ⟨name, summary, icon, rfl, hname, hsummary, hicon⟩ := hdescribed
  intro lines found rest hread
  obtain ⟨window, rfl, hwindow⟩ := window_yields _ lines found rest hread
  refine ⟨{ hlaunch with }, ?_⟩
  exact
    { onDemand := fun heq => hidle ▸ h.onDemand (hlifecycle ▸ heq)
      others := fun hne => hidle ▸ h.others (hlifecycle ▸ hne)
      idleTimeout := hidle ▸ h.idleTimeout
      provides := hprovides.2.trans_le h.provides
      provided := hprovides.1.provided
      once := hprovides.1.once
      permissions := hpermissions.2.trans_le h.permissions
      permission := hpermissions.1.permission
      permitted := hpermissions.1.permitted
      packageId := hid
      packageName := hpackageName
      packageVersion := hversion
      packageKind := hkind
      name := hname
      summary := hsummary
      icon := hicon
      windowSystem := hwindow.system
      windowDisplay := hwindow.display
      windowMode := hwindow.mode
      windowTitle := hwindow.title
      windowAppId := hwindow.appId
      windowClass := hwindow.wmClass
      windowInstance := hwindow.wmInstance }

theorem componentV1_yields (line : Bytes) : Yields (readComponentV1 line) fun component =>
    LaunchAccepted component ∧ Plain component := by
  refine yields_lift fun fields _ => yields_lift fun header hheader => ?_
  obtain ⟨haccepted, hplain⟩ := parseHeader_ok hheader
  refine (launch_yields haccepted).bind fun component hcomponent => ?_
  obtain ⟨hlaunch, argv, after, environment, rfl⟩ := hcomponent
  refine yields_bind fun _ => yields_pure ⟨{ hlaunch with }, ?_⟩
  exact ⟨rfl, hplain.lifecycle, hplain.idleTimeout, hplain.provides, hplain.permissions,
    hplain.launchable⟩

theorem componentV2_yields (line : Bytes) : Yields (readComponentV2 line) fun component =>
    LaunchAccepted component ∧ ServicesAccepted component := by
  refine yields_lift fun fields _ => yields_lift fun header hheader =>
    yields_lift fun final hfinal => ?_
  obtain ⟨haccepted, hservices⟩ := parseHeaderV2_ok (parseHeader_ok hheader).1 hfinal
  refine (launch_yields haccepted).bind fun component hcomponent => ?_
  obtain ⟨hlaunch, argv, after, environment, rfl⟩ := hcomponent
  refine (services_yields hservices hlaunch rfl rfl).bind fun component hcomponent => ?_
  exact yields_bind fun _ => yields_pure hcomponent

/-! ## The profile -/

theorem providers_yields (count : ℕ) : Yields (turns readProvider count []) fun providers =>
    providers.Nodup ∧ providers.length = count := by
  refine records_yield List.nodup_nil (fun done hdone => ?_) count
  refine yields_bind fun fields => yields_lift fun _ _ => yields_lift fun _ hnew => yields_pure ?_
  have hnodup : ((done ++ [fields.getD 1 []]).map id).Nodup :=
    nodup_snoc (by simpa using hdone) (by simpa using not_mem_of_contains (refuse_iff.mp hnew))
  simpa using hnodup

/-- The preferences of a profile, so far. -/
structure PreferencesAccepted (preferences : List RolePreference) : Prop where
  roles : (preferences.map RolePreference.role).Nodup
  role : ∀ preference ∈ preferences, validId preference.role = true
  providers : ∀ preference ∈ preferences,
    1 ≤ preference.providers.length ∧ preference.providers.length ≤ maxComponents
  preferred : ∀ preference ∈ preferences, preference.providers.Nodup

theorem roles_yields (count : ℕ) : Yields (turns readRole count []) fun preferences =>
    PreferencesAccepted preferences ∧ preferences.length = count := by
  have hempty : PreferencesAccepted [] := ⟨List.nodup_nil, by simp, by simp, by simp⟩
  refine records_yield hempty (fun done hdone => ?_) count
  refine yields_bind fun fields => yields_lift fun role hrole => yields_lift fun _ hchecks =>
    yields_lift fun providerCount hcount => ?_
  refine (providers_yields providerCount).bind fun providers hproviders => yields_pure ?_
  obtain ⟨hvalid, hnew⟩ := refuse_or hchecks
  have hbounds := parseU32_bounds hcount
  rw [← hproviders.2] at hbounds
  exact
    { roles := nodup_snoc hdone.roles (not_mem_of_contains hnew)
      role := forall_snoc hdone.role (by simpa using hvalid)
      providers := forall_snoc hdone.providers hbounds
      preferred := forall_snoc hdone.preferred hproviders.1 }

theorem startup_yields (count : ℕ) : Yields (turns readStartup count []) fun startup =>
    startup.Nodup ∧ startup.length = count := by
  refine records_yield List.nodup_nil (fun done hdone => ?_) count
  refine yields_bind fun fields => yields_lift fun _ hchecks => yields_pure ?_
  obtain ⟨-, hnew⟩ := refuse_or hchecks
  have hnodup : ((done ++ [fields.getD 1 []]).map id).Nodup :=
    nodup_snoc (by simpa using hdone) (by simpa using not_mem_of_contains hnew)
  simpa using hnodup

/-- What is known of a profile before its references are checked. -/
structure SettingsAccepted (plan : RuntimePlan) : Prop where
  profileId : validId plan.profileId = true
  display : DecodedText 63 plan.display
  environment : EnvironmentAccepted plan.profileEnvironment
  startup : plan.startup.length ≤ maxComponents
  started : plan.startup.Nodup
  preferences : plan.rolePreferences.length ≤ maxProfileRoles
  preference : PreferencesAccepted plan.rolePreferences

theorem profile_yields (stopGraceMs : ℕ) : Yields (readProfile stopGraceMs) fun plan =>
    plan.stopGraceMs = stopGraceMs ∧ SettingsAccepted plan := by
  refine yields_bind fun fields => yields_lift fun profileId _ =>
    yields_lift fun display hdisplay => yields_lift fun _ hchecks =>
    yields_lift fun roleCount hroles => yields_lift fun environmentCount henvironments =>
    yields_lift fun startupCount hstartups => ?_
  refine (roles_yields roleCount).bind fun preferences hpreferences => ?_
  refine (profileEnvironment_yields (parseU32_bounds henvironments).2).bind
    fun environment henvironment => ?_
  refine (startup_yields startupCount).bind fun startup hstartup => yields_pure ⟨rfl, ?_⟩
  obtain ⟨hid, hlength⟩ := refuse_or hchecks
  exact
    { profileId := by simpa using hid
      display := decoded_of_length hdisplay hlength
      environment := henvironment
      startup := hstartup.2.trans_le (parseU32_bounds hstartups).2
      started := hstartup.1
      preferences := hpreferences.2.trans_le (parseU32_bounds hroles).2
      preference := hpreferences.1 }

theorem settings_yields (versionTwo : Bool) : Yields (readSettings versionTwo) fun plan =>
    (100 ≤ plan.stopGraceMs ∧ plan.stopGraceMs ≤ 60000) ∧
      (versionTwo = true → SettingsAccepted plan) ∧
      (versionTwo = false → plan = { stopGraceMs := plan.stopGraceMs }) := by
  refine yields_bind fun fields => yields_lift fun stopGrace hstop => ?_
  have hbounds := parseU32_bounds hstop
  cases versionTwo with
  | false => exact yields_pure ⟨hbounds, by simp, fun _ => rfl⟩
  | true =>
    intro lines plan rest hread
    obtain ⟨hstopGrace, hsettings⟩ := profile_yields stopGrace lines plan rest hread
    exact ⟨hstopGrace ▸ hbounds, fun _ => hsettings, by simp⟩

/-! ## The plan -/

theorem validateReferences_ok {plan : RuntimePlan} (h : validateReferences plan = .ok ()) :
    plan.startup ⊆ plan.components.map ComponentPlan.id ∧
      ∀ preference ∈ plan.rolePreferences,
        preference.providers ⊆ plan.components.map ComponentPlan.id := by
  obtain ⟨⟨⟩, hstartup, hpreferences⟩ := bind_eq_ok.mp h
  refine ⟨fun id hid => ?_, fun preference hpreference id hid => ?_⟩
  · by_contra hmissing
    have hcheck := forM_eq_ok.mp hstartup id hid
    rw [if_neg hmissing] at hcheck
    cases hcheck
  · by_contra hmissing
    have hcheck := forM_eq_ok.mp (forM_eq_ok.mp hpreferences preference hpreference) id hid
    rw [if_neg hmissing] at hcheck
    cases hcheck

theorem components_yield (versionTwo : Bool) : Yields (readComponents versionTwo) fun components =>
    components.length ≤ maxComponents ∧ ∀ component ∈ components,
      LaunchAccepted component ∧ (versionTwo = true → ServicesAccepted component) ∧
        (versionTwo = false → Plain component) := by
  refine yields_untilEnd (fun line => ?_) maxComponents
  cases versionTwo with
  | false =>
    intro lines component rest hread
    obtain ⟨hlaunch, hplain⟩ := componentV1_yields line lines component rest hread
    exact ⟨hlaunch, by simp, fun _ => hplain⟩
  | true =>
    intro lines component rest hread
    obtain ⟨hlaunch, hservices⟩ := componentV2_yields line lines component rest hread
    exact ⟨hlaunch, fun _ => hservices, by simp⟩

theorem accepted_of_parse {text : Bytes} {plan : RuntimePlan}
    (h : parseRuntimePlan text = .ok plan) : PlanAccepted plan := by
  obtain ⟨⟨⟩, -, h⟩ := bind_eq_ok.mp h
  obtain ⟨lines, -, h⟩ := bind_eq_ok.mp h
  obtain ⟨⟨⟩, -, h⟩ := bind_eq_ok.mp h
  obtain ⟨⟨⟩, -, h⟩ := bind_eq_ok.mp h
  obtain ⟨⟨settings, body⟩, hsettings, h⟩ := bind_eq_ok.mp h
  obtain ⟨⟨components, rest⟩, hcomponents, h⟩ := bind_eq_ok.mp h
  obtain ⟨⟨⟩, hgraph, h⟩ := bind_eq_ok.mp h
  obtain ⟨hstop, hprofile, hplain⟩ := settings_yields _ _ _ _ hsettings
  obtain ⟨hlength, hall⟩ := components_yield _ _ _ _ hcomponents
  have hstartable := (validateGraph_startable _).mp hgraph
  by_cases hversion : (lines.head? == some planHeaderV2) = true
  · rw [if_pos hversion] at h
    obtain ⟨⟨⟩, hreferences, h⟩ := bind_eq_ok.mp h
    cases h
    obtain ⟨hstartup, hproviders⟩ := validateReferences_ok hreferences
    have hsettings := hprofile hversion
    refine ⟨hstop, hlength, hstartable, fun component hcomponent => (hall component hcomponent).1,
      .inl ⟨?_, fun component hcomponent => (hall component hcomponent).2.1 hversion⟩⟩
    exact
      { profileId := hsettings.profileId
        display := hsettings.display
        environment := hsettings.environment
        startup := hsettings.startup
        started := hsettings.started
        start := hstartup
        preferences := hsettings.preferences
        roles := hsettings.preference.roles
        role := hsettings.preference.role
        providers := hsettings.preference.providers
        preferred := hsettings.preference.preferred
        provider := hproviders }
  · have hfalse : (lines.head? == some planHeaderV2) = false := by simpa using hversion
    rw [if_neg hversion] at h
    cases h
    have hdefault := hplain hfalse
    refine ⟨hstop, hlength, hstartable, fun component hcomponent => (hall component hcomponent).1,
      .inr ?_⟩
    rw [hdefault]
    exact ⟨rfl, rfl, rfl, rfl, rfl, fun component hcomponent =>
      (hall component hcomponent).2.2 hfalse⟩

end PlanText

/-! ## Its catalog -/

/-- Some component with this id provides this role. -/
def DeclaresRole (plan : RuntimePlan) (role id : Bytes) : Prop :=
  ∃ component ∈ plan.components, component.id = id ∧
    ∃ provided ∈ component.provides, provided.kind = .role ∧ provided.name = role

/-- A profile prefers only components that provide the role. -/
def PreferencesProvided (plan : RuntimePlan) : Prop :=
  ∀ preference ∈ plan.rolePreferences, ∀ id ∈ preference.providers,
    DeclaresRole plan preference.role id

namespace NativeCatalog

variable {plan : RuntimePlan}

theorem provides_of_mem_candidates {name : Bytes} {candidate : CatalogProvider}
    (h : candidate ∈ candidatesOf (rolesFrom plan 0 plan.components) name) :
    ∃ component, plan.components[candidate.componentIndex]? = some component ∧
      DeclaresRole plan name component.id := by
  obtain ⟨entry, hentry, rfl⟩ := List.mem_map.mp h
  obtain ⟨hentry, hname⟩ := List.mem_filter.mp hentry
  obtain ⟨⟨component, index⟩, hitem, hentry⟩ := List.mem_flatMap.mp hentry
  obtain ⟨provided, hprovided, rfl⟩ := List.mem_map.mp hentry
  obtain ⟨hprovided, hkind⟩ := List.mem_filter.mp hprovided
  have hindex : plan.components[index]? = some component := by
    simpa [List.mem_zipIdx_iff_getElem?] using hitem
  refine ⟨component, ?_, component, List.mem_of_getElem? hindex, rfl, provided, hprovided,
    by simpa using hkind, by simpa using hname⟩
  rwa [roleCandidate_componentIndex]

theorem candidates_of_role {name : Bytes} {found : CatalogRole}
    (h : (contents plan).role name = some found) :
    found.candidates = sorted providerLess
      (candidatesOf (rolesFrom plan 0 plan.components) name) := by
  have hname : found.name = name := by simpa using List.find?_some h
  have hmem : found ∈ (contents plan).roles := List.mem_of_find?_eq_some h
  obtain ⟨entry, hentry, rfl⟩ := List.mem_map.mp (mem_sorted.mp hmem)
  have hempty : (([] : List (Bytes × List CatalogProvider)).map Prod.fst).Nodup := List.nodup_nil
  have hnodup := nodup_pushEntries (rolesFrom plan 0 plan.components) hempty
  have hget := (OrderedDict.get_eq_some_iff hnodup).mpr hentry
  rw [get_pushEntries, show entry.1 = name from hname, OrderedDict.get, Option.getD_none,
    List.nil_append] at hget
  split_ifs at hget
  rw [← Option.some.inj hget]

theorem componentIndex_id {id : Bytes} {index : ℕ}
    (h : (contents plan).componentIndex id = some index) :
    ∃ component, plan.components[index]? = some component ∧ component.id = id := by
  obtain ⟨hlt, hid, -⟩ := List.findIdx?_eq_some_iff_getElem.mp h
  exact ⟨_, List.getElem?_eq_getElem hlt, by simpa using hid⟩

/-- Every preference that the constructor lets pass is for components that provide the role. -/
theorem provided_of_check {preference : RolePreference}
    (h : (contents plan).checkPreference preference = .ok ()) :
    ∀ id ∈ preference.providers, DeclaresRole plan preference.role id := by
  intro id hid
  unfold checkPreference at h
  cases hrole : (contents plan).role preference.role with
  | none =>
    rw [hrole] at h
    cases h
  | some found =>
    simp only [hrole] at h
    split at h
    case isFalse => cases h
    case isTrue hall =>
      have hprovider := List.all_eq_true.mp hall id hid
      cases hindex : (contents plan).componentIndex id with
      | none => simp [hindex] at hprovider
      | some index =>
        simp only [hindex, List.any_eq_true, beq_iff_eq] at hprovider
        obtain ⟨candidate, hcandidate, rfl⟩ := hprovider
        rw [candidates_of_role hrole, mem_sorted] at hcandidate
        obtain ⟨component, hcomponent, hprovides⟩ := provides_of_mem_candidates hcandidate
        obtain ⟨other, hother, rfl⟩ := componentIndex_id hindex
        cases hcomponent.symm.trans hother
        exact hprovides

theorem build_iff (hunique : (plan.components.map ComponentPlan.id).Nodup)
    (hroles : (plan.rolePreferences.map RolePreference.role).Nodup)
    (honce : ProvidesOnce plan.components)
    (hnonempty : ∀ preference ∈ plan.rolePreferences, preference.providers ≠ []) :
    (∃ catalog, build plan = .ok catalog) ↔ PreferencesProvided plan := by
  constructor
  · rintro ⟨catalog, hcatalog⟩
    obtain ⟨-, -, tables, htables, rfl, hchecks⟩ := build_eq_ok.mp hcatalog
    cases (addComponents_eq plan.components 0 {} honce).symm.trans htables
    exact fun preference hpreference => provided_of_check (hchecks preference hpreference)
  · exact fun hprovided => ⟨_, Consistent.build ⟨hunique, hroles, honce, hnonempty, hprovided⟩⟩

end NativeCatalog

theorem PlanAccepted.build_iff {plan : RuntimePlan} (h : PlanAccepted plan) :
    (∃ catalog, NativeCatalog.build plan = .ok catalog) ↔ PreferencesProvided plan := by
  rcases h.services with ⟨hprofile, hservices⟩ | ⟨-, -, -, -, hpreferences, hplain⟩
  · refine NativeCatalog.build_iff h.startable.unique hprofile.roles
      (fun component hcomponent => (hservices component hcomponent).once)
      fun preference hpreference => ?_
    exact List.ne_nil_of_length_pos (hprofile.providers preference hpreference).1
  · have honce : ProvidesOnce plan.components := by
      intro component hcomponent
      obtain ⟨-, -, -, hprovides, -⟩ := hplain component hcomponent
      rw [hprovides]
      exact List.nodup_nil
    exact NativeCatalog.build_iff h.startable.unique (by simp [hpreferences]) honce
      (by simp [hpreferences])

/-- Every plan that is read is well formed, and the catalog is refused only when a preference is
for a component that does not provide the role. -/
theorem accepted_plan (text : Bytes) (plan : RuntimePlan)
    (h : PlanText.parseRuntimePlan text = .ok plan) :
    PlanAccepted plan ∧
      ((∃ catalog, NativeCatalog.build plan = .ok catalog) ↔ PreferencesProvided plan) :=
  ⟨PlanText.accepted_of_parse h, (PlanText.accepted_of_parse h).build_iff⟩

/-- A display that the profile prefers for the role `s`, which it provides. -/
def screenPlan : Bytes :=
  ascii ("MSYS_NATIVE_LITE_PLAN\t2\nstop_grace_ms\t1000\nprofile\t70\t\t1\t0\t1\n" ++
    "role\t73\t1\nprovider\tscreen\nstartup\tscreen\n" ++
    "component\tscreen\tdisplay\t1\tnever\texec\t1000\t100\t100\t0\t1\t0\t0\t" ++
    "background\t0\t1\t0\t0\narg\t2f61\nprovide\trole\t73\t0\t0\npackage\t70\t\t\t\n" ++
    "metadata\t73\t\t\nwindow\t\t\t\t\t\t\t\nend\n")

theorem accepted_plan_screen : ∃ plan, PlanText.parseRuntimePlan screenPlan = .ok plan ∧
    PlanAccepted plan ∧ PreferencesProvided plan := by
  have hrun : ((PlanText.parseRuntimePlan screenPlan).toOption.bind fun plan =>
      (NativeCatalog.build plan).toOption).isSome := by decide +kernel
  obtain ⟨catalog, hrun⟩ := Option.isSome_iff_exists.mp hrun
  obtain ⟨plan, hplan, hcatalog⟩ := Option.bind_eq_some_iff.mp hrun
  obtain ⟨haccepted, hbuild⟩ := accepted_plan screenPlan plan (toOption_eq_some.mp hplan)
  exact ⟨plan, toOption_eq_some.mp hplan, haccepted,
    hbuild.mp ⟨catalog, toOption_eq_some.mp hcatalog⟩⟩

end MsysCore.Native
