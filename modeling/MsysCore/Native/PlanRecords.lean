import MsysCore.Native.PlanNormal

/-!
# The records of a compiled plan

The plan that a normalised document stands for: its texts in UTF-8, the rest as it is. The readers
of the parser take it from the text record by record, as the compiler has written it.
-/

namespace MsysCore.Native.PlanSource

open Python PlanOrder LineReader
open PlanText (Reader nextRecord)

/-! ## The plan of a document -/

def environmentPlan (environment : List (PyStr × PyStr)) : List (Bytes × Bytes) :=
  environment.map fun entry => (utf8 entry.1, utf8 entry.2)

def headerPlan (id : PyStr) (critical : Bool) (fields : LaunchFields) : ComponentPlan where
  id := utf8 id
  kind := fields.kind
  critical := critical
  restart := fields.restart
  readiness := fields.readinessMode
  readinessTimeoutMs := fields.readinessTimeoutMs
  backoffInitialMs := fields.initialMs
  backoffMaxMs := fields.maxMs
  restartLimit := fields.limit

def launchPlan (component : ComponentPlan) (after : List PyStr) (fields : LaunchFields) :
    ComponentPlan :=
  { component with
    argv := fields.argv.map utf8
    after := after.map utf8
    environment := environmentPlan fields.environment }

/-- A component of version 1 has its id as name. -/
def planV1 (item : PlanComponent LaunchFields) : ComponentPlan :=
  { launchPlan (headerPlan item.id item.critical item.fields) item.after item.fields with
    name := utf8 item.id }

def providePlan (provided : PlanProvide) : ProvidePlan where
  kind := provided.kind
  name := utf8 provided.name
  exclusive := provided.exclusive
  priority := provided.priority

def windowPlan (window : SourceWindowing) : WindowPlan where
  system := utf8 window.system
  display := utf8 window.display
  mode := utf8 window.mode
  title := utf8 window.title
  appId := utf8 window.appId
  wmClass := utf8 window.wmClass
  wmInstance := utf8 window.wmInstance

def serviceHeaderPlan (component : ComponentPlan) (fields : ServiceFields) : ComponentPlan :=
  { component with
    lifecycle := fields.lifecycle
    idleTimeoutMs := fields.idleTimeoutMs
    launchable := fields.launchable }

def servicePlan (component : ComponentPlan) (fields : ServiceFields) : ComponentPlan :=
  { component with
    provides := fields.provides.map providePlan
    permissions := fields.permissions.map utf8
    packageId := utf8 fields.package.id
    packageName := utf8 fields.package.name
    packageVersion := utf8 fields.package.version
    packageKind := utf8 fields.package.kind
    name := utf8 fields.name
    summary := utf8 fields.summary
    icon := utf8 fields.icon
    window := windowPlan fields.window }

def planV2 (item : PlanComponent ServiceFields) : ComponentPlan :=
  let fields := item.fields
  let header := headerPlan item.id item.critical fields.toLaunchFields
  servicePlan (launchPlan (serviceHeaderPlan header fields) item.after fields.toLaunchFields) fields

def rolePlan (preference : PyStr × List PyStr) : RolePreference :=
  ⟨utf8 preference.1, preference.2.map utf8⟩

def profilePlan (stopGrace : ℕ) (profile : PlanProfile) : RuntimePlan where
  stopGraceMs := stopGrace
  profileId := utf8 profile.id
  display := utf8 profile.display
  profileEnvironment := environmentPlan profile.environment
  startup := profile.startup.map utf8
  rolePreferences := profile.roles.map rolePlan

def NormalizedDocument.plan : NormalizedDocument → RuntimePlan
  | .v1 stopGrace components => { stopGraceMs := stopGrace, components := components.map planV1 }
  | .v2 stopGrace profile components =>
    { profilePlan stopGrace profile with components := components.map planV2 }

/-! ## Records -/

section

variable (tag : String) {expected truncated : String} {fields : List PyStr} {size : ℕ}

theorem splitRecord_tabbed (hsize : fields.length + 1 = size) (htag : Plain (lit tag))
    (hfields : ∀ field ∈ fields, Plain field) :
    PlanText.splitRecord expected tag size (utf8 (tabbed (lit tag :: fields)))
      = .ok (ascii tag :: fields.map utf8) := by
  have hplain : ∀ field ∈ lit tag :: fields, Plain field :=
    List.forall_mem_cons.mpr ⟨htag, hfields⟩
  unfold PlanText.splitRecord
  rw [splitFields_tabbed (List.cons_ne_nil _ _) hplain, List.map_cons, utf8_lit htag]
  refine bind_eq_ok.mpr ⟨(), refuse_ok ?_, rfl⟩
  simp [hsize]

theorem nextRecord_reads (hsize : fields.length + 1 = size) (htag : Plain (lit tag))
    (hfields : ∀ field ∈ fields, Plain field) :
    Reads (nextRecord truncated expected tag size) [utf8 (tabbed (lit tag :: fields))]
      (ascii tag :: fields.map utf8) :=
  (reads_line _ _).last (reads_lift (splitRecord_tabbed tag hsize htag hfields))

/-- A reader that begins with a record goes on with its fields. -/
theorem Reads.record {α : Type} {f : List Bytes → Reader α} {a : α}
    (hsize : fields.length + 1 = size) (htag : Plain (lit tag))
    (hfields : ∀ field ∈ fields, Plain field) (hf : Reads (f (ascii tag :: fields.map utf8)) [] a) :
    Reads (nextRecord truncated expected tag size >>= f) [utf8 (tabbed (lit tag :: fields))] a :=
  (nextRecord_reads tag hsize htag hfields).last hf

end

/-- A counted loop over records of one line each. -/
theorem reads_records {α γ : Type} {read : List α → Reader α} (line : γ → PyStr) (value : γ → α)
    (items : List γ)
    (h : ∀ before item after, items = before ++ item :: after →
      Reads (read (before.map value)) [utf8 (line item)] (value item)) :
    Reads (turns read items.length []) ((items.map line).map utf8) (items.map value) := by
  have hturns := reads_turns (fun item => [utf8 (line item)]) value items [] h
  rw [← List.map_eq_flatMap] at hturns
  rw [List.map_map]
  exact hturns

/-- What comes later in a list of distinct items is not among what came before. -/
theorem fresh {γ κ β : Type} [BEq β] [LawfulBEq β] (key : γ → κ) (written : γ → β)
    {items before after : List γ} {item : γ} (hnodup : (items.map key).Nodup)
    (hinjective : ∀ x ∈ items, ∀ y ∈ items, written x = written y → key x = key y)
    (h : items = before ++ item :: after) :
    (before.map written).contains (written item) = false := by
  rw [← Bool.not_eq_true, List.contains_iff_mem, List.mem_map]
  rintro ⟨x, hx, heq⟩
  have hitem : item ∈ items := h ▸ List.mem_append_right _ List.mem_cons_self
  have hkey := hinjective x (h ▸ List.mem_append_left _ hx) item hitem heq
  rw [h, List.map_append, List.map_cons] at hnodup
  have hdisjoint := (List.nodup_append.mp hnodup).2.2
  exact hdisjoint _ (List.mem_map_of_mem hx) _ List.mem_cons_self hkey

/-- A member of a list that is cut in two. -/
theorem mem_of_split {γ : Type} {items before after : List γ} {item : γ}
    (h : items = before ++ item :: after) : item ∈ items :=
  h ▸ List.mem_append_right _ List.mem_cons_self

theorem utf8_inj_of_idRe {s t : PyStr} (hs : idRe s = true) (ht : idRe t = true)
    (h : utf8 s = utf8 t) : s = t :=
  ((text_of_idRe hs).utf8_inj (text_of_idRe ht)).mp h

theorem utf8_inj_of_envRe {s t : PyStr} (hs : envRe s = true) (ht : envRe t = true)
    (h : utf8 s = utf8 t) : s = t :=
  ((text_of_envRe hs).utf8_inj (text_of_envRe ht)).mp h

/-! ## The records of a component -/

theorem arguments_read {argv : List PyStr} (h : ∀ argument ∈ argv, Text 4096 argument) :
    Reads (turns PlanText.readArgument argv.length [])
      ((argv.map fun value => tabbed [lit "arg", encoded value]).map utf8) (argv.map utf8) := by
  apply reads_records
  intro before argument after hsplit
  unfold PlanText.readArgument
  apply Reads.record "arg" (by rfl) (by decide) (by simp [plain_encoded])
  simp only [List.map_cons, List.getD_cons_succ, List.getD_cons_zero]
  exact reads_lift (decodeHex_encoded (h argument (mem_of_split hsplit)) _)

theorem after_read {most : ℕ} {ids : List PyStr} (h : Ids 0 most ids) :
    Reads (turns PlanText.readAfter ids.length [])
      ((ids.map fun value => tabbed [lit "after", value]).map utf8) (ids.map utf8) := by
  apply reads_records
  intro before id after hsplit
  have hid := h.id id (mem_of_split hsplit)
  unfold PlanText.readAfter
  apply Reads.record "after" (by rfl) (by decide) (by simpa using plain_of_idRe hid)
  simp only [List.map_cons, List.getD_cons_succ, List.getD_cons_zero]
  exact Reads.of_lift (refuse_ok (by rw [validId_utf8 hid]; rfl)) (reads_pure _)

/-- The reserved keys of the two programs. -/
theorem reserved_utf8 {key : PyStr} (hkey : envRe key = true) (h : key ∉ reservedEnv) :
    PlanText.reservedKeys.contains (utf8 key) = false := by
  rw [← Bool.not_eq_true, List.contains_iff_mem]
  intro hmem
  have hsame : PlanText.reservedKeys = reservedEnv.map utf8 := by decide
  rw [hsame] at hmem
  obtain ⟨reserved, hreserved, heq⟩ := List.mem_map.mp hmem
  have henv : ∀ key ∈ reservedEnv, envRe key = true := by decide
  exact h (utf8_inj_of_envRe (henv reserved hreserved) hkey heq ▸ hreserved)

theorem environment_fresh {environment before after : List (PyStr × PyStr)}
    {entry : PyStr × PyStr} (h : Environment environment)
    (hsplit : environment = before ++ entry :: after) :
    (((environmentPlan before).map Prod.fst).contains (utf8 entry.1)) = false := by
  unfold environmentPlan
  rw [List.map_map]
  refine fresh Prod.fst (fun entry : PyStr × PyStr => utf8 entry.1) h.nodup ?_ hsplit
  intro x hx y hy heq
  exact utf8_inj_of_envRe (h.key x hx).1 (h.key y hy).1 heq

theorem environment_read {environment : List (PyStr × PyStr)} (h : Environment environment) :
    Reads (turns PlanText.readEnvironment environment.length [])
      ((environment.map (environmentLine "env")).map utf8) (environmentPlan environment) := by
  apply reads_records
  intro before entry after hsplit
  have hin := mem_of_split hsplit
  obtain ⟨hkey, hreserved⟩ := h.key entry hin
  have hvalue := h.value entry hin
  unfold PlanText.readEnvironment
  apply Reads.record "env" (by rfl) (by decide) (by simp [plain_encoded])
  simp only [List.map_cons, List.getD_cons_succ, List.getD_cons_zero]
  apply Reads.of_lift (decodeHex_encoded ((text_of_envRe hkey).mono (by decide)) _)
  apply Reads.of_lift (decodeHex_encoded hvalue _)
  apply Reads.of_lift (refuse_ok (by simp [validEnvironmentKey_utf8 hkey]))
  apply Reads.of_lift (refuse_ok (by simpa using hvalue.length))
  apply Reads.of_lift (refuse_ok (reserved_utf8 hkey hreserved))
  exact Reads.of_lift (refuse_ok (environment_fresh h hsplit)) (reads_pure _)

theorem provides_read {provides : List PlanProvide} (h : Provides provides) :
    Reads (turns PlanText.readProvide provides.length [])
      ((provides.map provideLine).map utf8) (provides.map providePlan) := by
  apply reads_records
  intro before provided after hsplit
  have hin := mem_of_split hsplit
  have hname := h.name provided hin
  have hfresh : (((before.map providePlan).map fun provided =>
      (provided.kind, provided.name)).contains (provided.kind, utf8 provided.name)) = false := by
    rw [List.map_map]
    refine fresh _ (fun provided : PlanProvide => (provided.kind, utf8 provided.name))
      h.nodup ?_ hsplit
    intro x hx y hy heq
    rw [Prod.mk.injEq] at heq
    rw [heq.1, utf8_inj_of_idRe (h.name x hx) (h.name y hy) heq.2]
  unfold PlanText.readProvide provideLine
  apply Reads.record "provide" (by rfl) (by decide)
    (by simp [plain_encoded, plain_provideName, plain_flag, plain_intText])
  simp only [List.map_cons, List.getD_cons_succ, List.getD_cons_zero]
  apply Reads.of_lift (parseProvideKind_provideName _)
  apply Reads.of_lift (decodeHex_encoded ((text_of_idRe hname).mono (by decide)) _)
  apply Reads.of_lift (refuse_ok (by rw [validId_utf8 hname]; rfl))
  apply Reads.of_lift (parseFlag_flag _ _)
  apply Reads.of_lift
    (parseU32_intText _ (Nat.zero_le _) (h.priority provided hin) (by decide))
  exact Reads.of_lift (refuse_ok hfresh) (reads_pure _)

theorem permissions_read {permissions : List PyStr} (h : Permissions permissions) :
    Reads (turns PlanText.readPermission permissions.length [])
      ((permissions.map fun value => tabbed [lit "permission", encoded value]).map utf8)
      (permissions.map utf8) := by
  apply reads_records
  intro before permission after hsplit
  obtain ⟨htext, hnonempty⟩ := h.text permission (mem_of_split hsplit)
  have hfresh : ((before.map utf8).contains (utf8 permission)) = false := by
    refine fresh id utf8 (by simpa using h.nodup) ?_ hsplit
    intro x hx y hy heq
    exact ((h.text x hx).1.utf8_inj (h.text y hy).1).mp heq
  have hwritten : (utf8 permission).isEmpty = false := by
    cases permission with
    | nil => exact absurd rfl hnonempty
    | cons c rest => simp [utf8Char_ne_nil]
  unfold PlanText.readPermission
  apply Reads.record "permission" (by rfl) (by decide) (by simp [plain_encoded])
  simp only [List.map_cons, List.getD_cons_succ, List.getD_cons_zero]
  apply Reads.of_lift (decodeHex_encoded (htext.mono (by decide)) _)
  refine Reads.of_lift (refuse_ok ?_) (reads_pure _)
  rw [hwritten, hfresh]
  simpa using htext.length

theorem package_read {package : SourcePackage} (h : PackageBounded package)
    (component : ComponentPlan) :
    Reads (PlanText.readPackage component) [utf8 (packageLine package)]
      { component with
        packageId := utf8 package.id
        packageName := utf8 package.name
        packageVersion := utf8 package.version
        packageKind := utf8 package.kind } := by
  have hname := Nat.not_lt.mpr h.name.length
  have hversion := Nat.not_lt.mpr h.version.length
  have hkind := Nat.not_lt.mpr h.kind.length
  unfold PlanText.readPackage packageLine
  apply Reads.record "package" (by rfl) (by decide) (by simp [plain_encoded])
  simp only [List.map_cons, List.getD_cons_succ, List.getD_cons_zero]
  apply Reads.of_lift (decodeHex_encoded ((text_of_idRe h.id).mono (by decide)) _)
  apply Reads.of_lift (decodeHex_encoded (h.name.mono (by decide)) _)
  apply Reads.of_lift (decodeHex_encoded (h.version.mono (by decide)) _)
  apply Reads.of_lift (decodeHex_encoded (h.kind.mono (by decide)) _)
  exact Reads.of_lift (refuse_ok (by simp [validId_utf8 h.id, hname, hversion, hkind]))
    (reads_pure _)

theorem metadata_read {fields : ServiceFields} (h : fields.Bounded) (component : ComponentPlan) :
    Reads (PlanText.readMetadata component)
      [utf8 (tabbed [lit "metadata", encoded fields.name, encoded fields.summary,
        encoded fields.icon])]
      { component with
        name := utf8 fields.name
        summary := utf8 fields.summary
        icon := utf8 fields.icon } := by
  obtain ⟨hname, hnonempty⟩ := h.name
  have hwritten : (utf8 fields.name).isEmpty = false := by
    cases heq : fields.name with
    | nil => exact absurd heq hnonempty
    | cons c rest => simp [utf8Char_ne_nil]
  have hnameLength := Nat.not_lt.mpr hname.length
  have hsummary := Nat.not_lt.mpr h.summary.length
  have hicon := Nat.not_lt.mpr h.icon.length
  unfold PlanText.readMetadata
  apply Reads.record "metadata" (by rfl) (by decide) (by simp [plain_encoded])
  simp only [List.map_cons, List.getD_cons_succ, List.getD_cons_zero]
  apply Reads.of_lift (decodeHex_encoded (hname.mono (by decide)) _)
  apply Reads.of_lift (decodeHex_encoded (h.summary.mono (by decide)) _)
  apply Reads.of_lift (decodeHex_encoded h.icon _)
  exact Reads.of_lift (refuse_ok (by simp [hwritten, hnameLength, hsummary, hicon]))
    (reads_pure _)

theorem window_read {window : SourceWindowing} (h : WindowBounded window)
    (component : ComponentPlan) :
    Reads (PlanText.readWindow component) [utf8 (windowLine window)]
      { component with window := windowPlan window } := by
  have hsystem := Nat.not_lt.mpr h.system.length
  have hdisplay := Nat.not_lt.mpr h.display.length
  have hmode := Nat.not_lt.mpr h.mode.length
  have htitle := Nat.not_lt.mpr h.title.length
  have happId := Nat.not_lt.mpr h.appId.length
  have hwmClass := Nat.not_lt.mpr h.wmClass.length
  have hwmInstance := Nat.not_lt.mpr h.wmInstance.length
  unfold PlanText.readWindow windowLine
  apply Reads.record "window" (by rfl) (by decide) (by simp [plain_encoded])
  simp only [List.map_cons, List.getD_cons_succ, List.getD_cons_zero]
  apply Reads.of_lift (decodeHex_encoded (h.system.mono (by decide)) _)
  apply Reads.of_lift (decodeHex_encoded (h.display.mono (by decide)) _)
  apply Reads.of_lift (decodeHex_encoded (h.mode.mono (by decide)) _)
  apply Reads.of_lift (decodeHex_encoded (h.title.mono (by decide)) _)
  apply Reads.of_lift (decodeHex_encoded (h.appId.mono (by decide)) _)
  apply Reads.of_lift (decodeHex_encoded (h.wmClass.mono (by decide)) _)
  apply Reads.of_lift (decodeHex_encoded (h.wmInstance.mono (by decide)) _)
  exact Reads.of_lift (refuse_ok (by
    simp [hsystem, hdisplay, hmode, htitle, happId, hwmClass, hwmInstance])) (reads_pure _)

/-! ## A component -/

/-- The header that `componentFields` spells. -/
def parsedHeader (id : PyStr) (critical : Bool) (after : List PyStr) (fields : LaunchFields) :
    PlanText.Header where
  component := headerPlan id critical fields
  argumentCount := fields.argv.length
  dependencyCount := after.length
  environmentCount := fields.environment.length

theorem parseHeader_eq {id : PyStr} (critical : Bool) {after : List PyStr} {fields : LaunchFields}
    (hid : idRe id = true) (hafter : Ids 0 32 after) (h : fields.Bounded) (more : List Bytes) :
    PlanText.parseHeader (ascii "component" :: (componentFields id critical after fields).tail.map
      utf8 ++ more) = .ok (parsedHeader id critical after fields) := by
  unfold PlanText.parseHeader componentFields count
  simp only [List.tail_cons, List.map_cons, List.cons_append, List.getD_cons_succ,
    List.getD_cons_zero]
  refine bind_eq_ok.mpr ⟨(), refuse_ok (by rw [validId_utf8 hid]; rfl), ?_⟩
  refine bind_eq_ok.mpr ⟨_, parseKind_kindName _, ?_⟩
  refine bind_eq_ok.mpr ⟨_, parseFlag_flag _ _, ?_⟩
  refine bind_eq_ok.mpr ⟨_, parseRestart_restartName _, ?_⟩
  refine bind_eq_ok.mpr ⟨_, parseReadiness_readinessName _, ?_⟩
  refine bind_eq_ok.mpr ⟨_, parseU32_intText _ h.timeout.1 h.timeout.2 (by decide), ?_⟩
  refine bind_eq_ok.mpr ⟨_, parseU32_intText _ h.initial.1 h.initial.2 (by decide), ?_⟩
  refine bind_eq_ok.mpr ⟨_, parseU32_intText _ h.max.1 h.max.2 (by decide), ?_⟩
  refine bind_eq_ok.mpr ⟨_, parseU32_intText _ (Nat.zero_le _) h.limit (by decide), ?_⟩
  refine bind_eq_ok.mpr ⟨_, parseU32_intText _ h.arguments.1 h.arguments.2 (by decide), ?_⟩
  refine bind_eq_ok.mpr ⟨_, parseU32_intText _ (Nat.zero_le _) hafter.most (by decide), ?_⟩
  refine bind_eq_ok.mpr ⟨_, parseU32_intText _ (Nat.zero_le _) h.environment.most (by decide), ?_⟩
  rfl

/-- The header of version 2. -/
def parsedHeaderV2 (item : PlanComponent ServiceFields) : PlanText.Header :=
  let header := parsedHeader item.id item.critical item.after item.fields.toLaunchFields
  { header with
    component := serviceHeaderPlan header.component item.fields
    provideCount := item.fields.provides.length
    permissionCount := item.fields.permissions.length }

theorem parseHeaderV2_eq {item : PlanComponent ServiceFields} (h : item.fields.Bounded)
    (first : List Bytes) (hfirst : first.length = 13) :
    PlanText.parseHeaderV2 (first ++ (serviceFields item.fields).map utf8)
      (parsedHeader item.id item.critical item.after item.fields.toLaunchFields)
      = .ok (parsedHeaderV2 item) := by
  have hfield : ∀ index, (first ++ (serviceFields item.fields).map utf8).getD (13 + index) []
      = ((serviceFields item.fields).map utf8).getD index [] := by
    intro index
    rw [List.getD_eq_getElem?_getD, List.getD_eq_getElem?_getD, ← hfirst,
      List.getElem?_append_right (Nat.le_add_right _ _), Nat.add_sub_cancel_left]
  have honDemand : (item.fields.lifecycle == .onDemand
      && decide (item.fields.idleTimeoutMs < 100)) = false := by
    rw [Bool.and_eq_false_imp]
    intro heq
    simpa using h.onDemand (by simpa using heq)
  have hstarted : (item.fields.lifecycle != .onDemand && item.fields.idleTimeoutMs != 0)
      = false := by
    rw [Bool.and_eq_false_imp]
    intro hne
    simpa using h.started (by simpa using hne)
  unfold PlanText.parseHeaderV2
  rw [hfield 0, hfield 1, hfield 2, hfield 3, hfield 4]
  unfold serviceFields count
  simp only [List.map_cons, List.getD_cons_succ, List.getD_cons_zero]
  refine bind_eq_ok.mpr ⟨_, parseLifecycle_lifecycleName _, ?_⟩
  refine bind_eq_ok.mpr ⟨_, parseU32_intText _ (Nat.zero_le _) h.idle (by decide), ?_⟩
  refine bind_eq_ok.mpr ⟨(), refuse_ok honDemand, ?_⟩
  refine bind_eq_ok.mpr ⟨(), refuse_ok hstarted, ?_⟩
  refine bind_eq_ok.mpr ⟨_, parseU32_intText _ (Nat.zero_le _) h.services (by decide), ?_⟩
  refine bind_eq_ok.mpr ⟨_, parseU32_intText _ (Nat.zero_le _) h.permissions.most (by decide), ?_⟩
  refine bind_eq_ok.mpr ⟨_, parseFlag_flag _ _, ?_⟩
  rfl

theorem launch_read {header : PlanText.Header} {after : List PyStr} {fields : LaunchFields}
    (hafter : Ids 0 32 after) (h : fields.Bounded)
    (harguments : header.argumentCount = fields.argv.length)
    (hdependencies : header.dependencyCount = after.length)
    (henvironment : header.environmentCount = fields.environment.length) :
    Reads (PlanText.readLaunch header) ((launchLines after fields).map utf8)
      (launchPlan header.component after fields) := by
  have habsolute : ((fields.argv.map utf8).headD []).head? = some 47 := by
    have hhead := h.absolute
    cases hargv : fields.argv with
    | nil => simp [hargv] at hhead
    | cons first rest =>
      cases first with
      | nil => simp [hargv] at hhead
      | cons c argument =>
        have hc : c = 47 := by simpa [hargv] using hhead
        rw [hc]
        rfl
  unfold PlanText.readLaunch launchLines
  rw [harguments, hdependencies, henvironment, List.map_append, List.map_append, List.append_assoc]
  apply (arguments_read h.argument).bind
  rw [if_neg (not_not.mpr habsolute)]
  apply (after_read hafter).bind
  exact (environment_read h.environment).last (reads_pure _)

theorem services_read {fields : ServiceFields} (h : fields.Bounded) {header : PlanText.Header}
    (hprovides : header.provideCount = fields.provides.length)
    (hpermissions : header.permissionCount = fields.permissions.length)
    (component : ComponentPlan) :
    Reads (PlanText.readServices header component) ((serviceLines fields).map utf8)
      (servicePlan component fields) := by
  unfold PlanText.readServices serviceLines
  rw [hprovides, hpermissions, List.map_append, List.map_append, List.append_assoc]
  apply (provides_read h.provides).bind
  apply (permissions_read h.permissions).bind
  exact (package_read h.package _).bind ((metadata_read h _).bind (window_read h.window _))

theorem end_read : Reads PlanText.readEnd [utf8 (lit "end")] () := by
  unfold PlanText.readEnd
  apply (reads_line _ _).last
  rw [if_pos (utf8_lit (by decide))]
  exact reads_pure _

theorem plain_componentFields {id : PyStr} (hid : idRe id = true) (critical : Bool)
    (after : List PyStr) (fields : LaunchFields) :
    ∀ field ∈ componentFields id critical after fields, Plain field := by
  have htag : Plain (lit "component") := by decide
  unfold componentFields count
  simp [htag, plain_of_idRe hid, plain_flag, plain_kindName, plain_restartName,
    plain_readinessName, plain_intText]

theorem plain_serviceFields (fields : ServiceFields) :
    ∀ field ∈ serviceFields fields, Plain field := by
  unfold serviceFields count
  simp [plain_flag, plain_lifecycleName, plain_intText]

theorem componentV1_read {item : PlanComponent LaunchFields} (hnamed : Named item)
    (h : item.fields.Bounded) :
    Reads
      (PlanText.readComponentV1
        (utf8 (tabbed (componentFields item.id item.critical item.after item.fields))))
      ((launchLines item.after item.fields ++ [lit "end"]).map utf8) (planV1 item) := by
  have hfields := (List.forall_mem_cons.mp
    (plain_componentFields hnamed.id item.critical item.after item.fields)).2
  have hheader := parseHeader_eq item.critical hnamed.id hnamed.after h []
  rw [List.append_nil] at hheader
  unfold PlanText.readComponentV1
  apply Reads.of_lift (splitRecord_tabbed "component" (by rfl) (by decide) hfields)
  apply Reads.of_lift hheader
  rw [List.map_append]
  apply (launch_read hnamed.after h rfl rfl rfl).bind
  exact end_read.last (reads_pure _)

theorem componentV2_read {item : PlanComponent ServiceFields} (hnamed : Named item)
    (h : item.fields.Bounded) :
    Reads
      (PlanText.readComponentV2
        (utf8 (tabbed (componentFields item.id item.critical item.after item.fields.toLaunchFields
          ++ serviceFields item.fields))))
      ((launchLines item.after item.fields.toLaunchFields ++ serviceLines item.fields
        ++ [lit "end"]).map utf8) (planV2 item) := by
  have hfields := (List.forall_mem_cons.mp (plain_componentFields hnamed.id item.critical
    item.after item.fields.toLaunchFields)).2
  have hall := List.forall_mem_append.mpr ⟨hfields, plain_serviceFields item.fields⟩
  have hheader := parseHeader_eq item.critical hnamed.id hnamed.after h.launch
    ((serviceFields item.fields).map utf8)
  have hheaderV2 := parseHeaderV2_eq h (ascii "component" ::
    (componentFields item.id item.critical item.after item.fields.toLaunchFields).tail.map utf8)
    (by rfl)
  unfold PlanText.readComponentV2
  apply Reads.of_lift (splitRecord_tabbed "component" (by rfl) (by decide) hall)
  rw [List.map_append, List.map_append, List.map_append, List.append_assoc]
  apply Reads.of_lift hheader
  apply Reads.of_lift hheaderV2
  apply (launch_read hnamed.after h.launch rfl rfl rfl).bind
  apply (services_read h rfl rfl _).bind
  exact end_read.last (reads_pure _)

/-! ## The profile -/

/-- An id is not among the ids before it. -/
theorem ids_fresh {ids before after : List PyStr} {id : PyStr}
    (hids : ∀ id ∈ ids, idRe id = true) (hnodup : ids.Nodup)
    (hsplit : ids = before ++ id :: after) : (before.map utf8).contains (utf8 id) = false := by
  have hkeys : (ids.map fun id => id).Nodup := by rwa [List.map_id']
  refine fresh _ utf8 hkeys ?_ hsplit
  exact fun x hx y hy heq => utf8_inj_of_idRe (hids x hx) (hids y hy) heq

theorem providers_read {least most : ℕ} {providers : List PyStr} (h : Ids least most providers) :
    Reads (turns PlanText.readProvider providers.length [])
      ((providers.map fun provider => tabbed [lit "provider", provider]).map utf8)
      (providers.map utf8) := by
  apply reads_records
  intro before provider after hsplit
  have hid := h.id provider (mem_of_split hsplit)
  unfold PlanText.readProvider
  apply Reads.record "provider" (by rfl) (by decide) (by simpa using plain_of_idRe hid)
  simp only [List.map_cons, List.getD_cons_succ, List.getD_cons_zero]
  apply Reads.of_lift (refuse_ok (by rw [validId_utf8 hid]; rfl))
  exact Reads.of_lift (refuse_ok (ids_fresh h.id h.nodup hsplit)) (reads_pure _)

theorem startup_read {least most : ℕ} {startup : List PyStr} (h : Ids least most startup) :
    Reads (turns PlanText.readStartup startup.length [])
      ((startup.map fun value => tabbed [lit "startup", value]).map utf8) (startup.map utf8) := by
  apply reads_records
  intro before component after hsplit
  have hid := h.id component (mem_of_split hsplit)
  unfold PlanText.readStartup
  apply Reads.record "startup" (by rfl) (by decide) (by simpa using plain_of_idRe hid)
  simp only [List.map_cons, List.getD_cons_succ, List.getD_cons_zero]
  refine Reads.of_lift (refuse_ok ?_) (reads_pure _)
  rw [validId_utf8 hid, ids_fresh h.id h.nodup hsplit]
  rfl

theorem profileEnvironment_read {environment : List (PyStr × PyStr)}
    (h : Environment environment) :
    Reads (turns PlanText.readProfileEnvironment environment.length [])
      ((environment.map (environmentLine "profile-env")).map utf8)
      (environmentPlan environment) := by
  apply reads_records
  intro before entry after hsplit
  have hin := mem_of_split hsplit
  obtain ⟨hkey, hreserved⟩ := h.key entry hin
  have hvalue := h.value entry hin
  unfold PlanText.readProfileEnvironment
  apply Reads.record "profile-env" (by rfl) (by decide) (by simp [plain_encoded])
  simp only [List.map_cons, List.getD_cons_succ, List.getD_cons_zero]
  apply Reads.of_lift (decodeHex_encoded ((text_of_envRe hkey).mono (by decide)) _)
  apply Reads.of_lift (decodeHex_encoded hvalue _)
  have hvalid : (!PlanText.validEnvironmentKey (utf8 entry.1)
      || decide (4096 < (utf8 entry.2).length)
      || ((environmentPlan before).map Prod.fst).contains (utf8 entry.1)) = false := by
    rw [validEnvironmentKey_utf8 hkey, environment_fresh h hsplit]
    simpa using hvalue.length
  apply Reads.of_lift (refuse_ok hvalid)
  exact Reads.of_lift (refuse_ok (reserved_utf8 hkey hreserved)) (reads_pure _)

theorem role_read {roles before after : List (PyStr × List PyStr)}
    {preference : PyStr × List PyStr} (h : Roles roles)
    (hsplit : roles = before ++ preference :: after) :
    Reads (PlanText.readRole (before.map rolePlan)) ((roleLines preference).map utf8)
      (rolePlan preference) := by
  have hin := mem_of_split hsplit
  have hrole := h.role preference hin
  have hproviders := h.providers preference hin
  have hfresh : (((before.map rolePlan).map RolePreference.role).contains
      (utf8 preference.1)) = false := by
    rw [List.map_map]
    refine fresh Prod.fst _ h.nodup ?_ hsplit
    exact fun x hx y hy heq => utf8_inj_of_idRe (h.role x hx) (h.role y hy) heq
  unfold PlanText.readRole roleLines count
  rw [List.map_cons, ← List.singleton_append]
  apply (nextRecord_reads "role" (by rfl) (by decide) (by simp [plain_encoded, plain_intText])).bind
  simp only [List.map_cons, List.getD_cons_succ, List.getD_cons_zero]
  apply Reads.of_lift (decodeHex_encoded ((text_of_idRe hrole).mono (by decide)) _)
  apply Reads.of_lift (refuse_ok (by rw [validId_utf8 hrole, hfresh]; rfl))
  apply Reads.of_lift (parseU32_intText _ hproviders.least hproviders.most (by decide))
  exact (providers_read hproviders).last (reads_pure _)

theorem profile_read {profile : PlanProfile} (h : profile.Bounded) (stopGrace : ℕ) :
    Reads (PlanText.readProfile stopGrace) ((profileLines profile).map utf8)
      (profilePlan stopGrace profile) := by
  have hroles := reads_turns (fun preference => (roleLines preference).map utf8) rolePlan
    profile.roles [] fun before preference after hsplit => role_read h.roles hsplit
  rw [← List.map_flatMap, List.nil_append] at hroles
  have hdisplay := Nat.not_lt.mpr h.display.length
  unfold PlanText.readProfile profileLines count
  rw [List.map_append, List.map_append, List.map_cons, List.cons_append, List.cons_append,
    ← List.singleton_append, List.append_assoc]
  apply (nextRecord_reads "profile" (by rfl) (by decide)
    (by simp [plain_encoded, plain_intText])).bind
  simp only [List.map_cons, List.getD_cons_succ, List.getD_cons_zero]
  apply Reads.of_lift (decodeHex_encoded ((text_of_idRe h.id).mono (by decide)) _)
  apply Reads.of_lift (decodeHex_encoded (h.display.mono (by decide)) _)
  apply Reads.of_lift (refuse_ok (by simp [validId_utf8 h.id, hdisplay]))
  apply Reads.of_lift (parseU32_intText _ (Nat.zero_le _) h.roles.most (by decide))
  apply Reads.of_lift (parseU32_intText _ (Nat.zero_le _) h.environment.most (by decide))
  apply Reads.of_lift (parseU32_intText _ (Nat.zero_le _) h.startup.most (by decide))
  apply hroles.bind
  apply (profileEnvironment_read h.environment).bind
  exact (startup_read h.startup).last (reads_pure _)

theorem settings_read {stopGrace : ℕ} (hstop : 100 ≤ stopGrace ∧ stopGrace ≤ 60000) :
    Reads (PlanText.readSettings false) [utf8 (settingsLine stopGrace)]
      { stopGraceMs := stopGrace } := by
  unfold PlanText.readSettings settingsLine
  apply Reads.record "stop_grace_ms" (by rfl) (by decide) (by simp [plain_intText])
  simp only [List.map_cons, List.getD_cons_succ, List.getD_cons_zero]
  exact Reads.of_lift (parseU32_intText _ hstop.1 hstop.2 (by decide)) (reads_pure _)

theorem settingsV2_read {stopGrace : ℕ} (hstop : 100 ≤ stopGrace ∧ stopGrace ≤ 60000)
    {profile : PlanProfile} (h : profile.Bounded) :
    Reads (PlanText.readSettings true)
      ((settingsLine stopGrace :: profileLines profile).map utf8)
      (profilePlan stopGrace profile) := by
  unfold PlanText.readSettings settingsLine
  rw [List.map_cons, ← List.singleton_append]
  apply (nextRecord_reads "stop_grace_ms" (by rfl) (by decide) (by simp [plain_intText])).bind
  simp only [List.map_cons, List.getD_cons_succ, List.getD_cons_zero]
  exact Reads.of_lift (parseU32_intText _ hstop.1 hstop.2 (by decide)) (profile_read h stopGrace)

end MsysCore.Native.PlanSource
