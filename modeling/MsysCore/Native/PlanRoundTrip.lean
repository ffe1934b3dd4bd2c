import MsysCore.Native.CatalogContents
import MsysCore.Native.PlanGraph
import MsysCore.Native.PlanRecords

/-!
# Compiled plans are read back

`parse_runtime_plan` of a compiled text gives the plan of the normalised document, and
`NativeCatalog` accepts it.
-/

namespace MsysCore.Native.PlanSource

open Python PlanOrder LineReader

/-! ## Lines -/

/-- A field with a bound on its length. -/
structure Field (bound : ℕ) (s : PyStr) : Prop where
  plain : Plain s
  length : s.length ≤ bound

theorem length_tabbed_le {bound : ℕ} (fields : List PyStr) :
    ∀ tag : PyStr, (∀ field ∈ fields, field.length ≤ bound) →
      (tabbed (tag :: fields)).length ≤ tag.length + fields.length * (bound + 1) := by
  induction fields with
  | nil =>
    intro tag _
    rw [tabbed_singleton]
    exact Nat.le_add_right _ _
  | cons field fields ih =>
    intro tag h
    obtain ⟨hfield, hfields⟩ := List.forall_mem_cons.mp h
    have hrest := ih field hfields
    rw [tabbed_cons_cons, List.length_append, List.length_cons, List.length_cons, Nat.add_mul]
    omega

/-- A record of few enough fields is a line. -/
theorem line_record {tag : String} {fields : List PyStr} {bound : ℕ} (size : ℕ)
    (htag : Plain (lit tag)) (hnonempty : lit tag ≠ [])
    (hfields : ∀ field ∈ fields, Field bound field) (hsize : fields.length = size)
    (hbound : (lit tag).length + size * (bound + 1) ≤ 32768) :
    Line (tabbed (lit tag :: fields)) := by
  subst hsize
  apply line_tabbed hnonempty
  · exact List.forall_mem_cons.mpr ⟨htag, fun field hfield => (hfields field hfield).plain⟩
  · exact (length_tabbed_le fields (lit tag) fun field hfield =>
      (hfields field hfield).length).trans hbound

theorem field_encoded {maximum : ℕ} {s : PyStr} (bound : ℕ) (h : Text maximum s)
    (hbound : 2 * maximum ≤ bound) : Field bound (encoded s) where
  plain := plain_encoded s
  length := by
    have hlength := h.length
    rw [length_encoded]
    omega

theorem field_id {s : PyStr} (h : idRe s = true) : Field 128 s :=
  ⟨plain_of_idRe h, length_of_idRe h⟩

theorem field_intText {n bound : ℕ} (h : n < 10 ^ 10) (hbound : 10 ≤ bound) :
    Field bound (intText n) :=
  ⟨plain_intText n, (length_intText h).trans hbound⟩

theorem field_flag (b : Bool) : Field 128 (flag b) :=
  ⟨plain_flag b, by cases b <;> decide⟩

theorem line_environment {tag : String} (htag : Plain (lit tag)) (hnonempty : lit tag ≠ [])
    (hlength : (lit tag).length ≤ 128) {environment : List (PyStr × PyStr)}
    (h : Environment environment) :
    ∀ line ∈ environment.map (environmentLine tag), Line line := by
  intro line hline
  obtain ⟨entry, hentry, rfl⟩ := List.mem_map.mp hline
  have hkey := field_encoded 8192 (text_of_envRe (h.key entry hentry).1) (by decide)
  have hvalue := field_encoded 8192 (h.value entry hentry) (by decide)
  apply line_record 2 htag hnonempty (List.forall_mem_cons.mpr ⟨hkey, by simpa using hvalue⟩) rfl
  omega

theorem lines_launch {after : List PyStr} {fields : LaunchFields} (hafter : Ids 0 32 after)
    (h : fields.Bounded) : ∀ line ∈ launchLines after fields, Line line := by
  unfold launchLines
  refine List.forall_mem_append.mpr ⟨List.forall_mem_append.mpr ⟨?_, ?_⟩, ?_⟩
  · intro line hline
    obtain ⟨argument, hargument, rfl⟩ := List.mem_map.mp hline
    have hfield := field_encoded 8192 (h.argument argument hargument) (by decide)
    exact line_record 1 (by decide) (by decide) (by simpa using hfield) (by rfl) (by decide)
  · intro line hline
    obtain ⟨id, hid, rfl⟩ := List.mem_map.mp hline
    have hfield := field_id (hafter.id id hid)
    exact line_record 1 (by decide) (by decide) (by simpa using hfield) (by rfl) (by decide)
  · exact line_environment (by decide) (by decide) (by decide) h.environment

theorem fields_component {id : PyStr} (hid : idRe id = true) (critical : Bool)
    {after : List PyStr} (hafter : Ids 0 32 after) {fields : LaunchFields} (h : fields.Bounded) :
    ∀ field ∈ (componentFields id critical after fields).tail, Field 128 field := by
  have hkind : Field 128 (lit (kindName fields.kind)) :=
    ⟨plain_kindName _, by cases fields.kind <;> decide⟩
  have hrestart : Field 128 (lit (restartName fields.restart)) :=
    ⟨plain_restartName _, by cases fields.restart <;> decide⟩
  have hreadiness : Field 128 (lit (readinessName fields.readinessMode)) :=
    ⟨plain_readinessName _, by cases fields.readinessMode <;> decide⟩
  have hnumber : ∀ n : ℕ, n ≤ 300000 → Field 128 (intText n) := fun n hn =>
    field_intText (by omega) (by decide)
  have hinitial := h.initial.2
  have harguments := h.arguments.2
  have hmost := hafter.most
  have henvironment := h.environment.most
  have hlimit := h.limit
  unfold componentFields count
  simp only [List.tail_cons, List.forall_mem_cons, List.not_mem_nil, false_implies, implies_true,
    and_true]
  exact ⟨field_id hid, hkind, field_flag critical, hrestart, hreadiness, hnumber _ h.timeout.2,
    hnumber _ (by omega), hnumber _ h.max.2, hnumber _ (by omega), hnumber _ (by omega),
    hnumber _ (by omega), hnumber _ (by omega)⟩

theorem line_end : Line (lit "end") := ⟨by decide, by decide, by decide⟩

theorem lines_component {item : PlanComponent LaunchFields} (hnamed : Named item)
    (h : item.fields.Bounded) : ∀ line ∈ componentLines item, Line line := by
  have hheader : Line (tabbed (componentFields item.id item.critical item.after item.fields)) :=
    line_record 12 (by decide) (by decide) (fields_component hnamed.id item.critical hnamed.after h)
      (by rfl) (by decide)
  unfold componentLines
  refine List.forall_mem_append.mpr ⟨List.forall_mem_cons.mpr ⟨hheader, ?_⟩, ?_⟩
  · exact lines_launch hnamed.after h
  · simpa using line_end

theorem fields_service {fields : ServiceFields} (h : fields.Bounded) :
    ∀ field ∈ serviceFields fields, Field 128 field := by
  have hlifecycle : Field 128 (lit (lifecycleName fields.lifecycle)) :=
    ⟨plain_lifecycleName _, by cases fields.lifecycle <;> decide⟩
  have hidle := h.idle
  have hservices := h.services
  have hpermissions := h.permissions.most
  unfold serviceFields count
  simp only [List.forall_mem_cons, List.not_mem_nil, false_implies, implies_true, and_true]
  exact ⟨hlifecycle, field_intText (by omega) (by decide), field_intText (by omega) (by decide),
    field_intText (by omega) (by decide), field_flag _⟩

theorem lines_service {fields : ServiceFields} (h : fields.Bounded) :
    ∀ line ∈ serviceLines fields, Line line := by
  unfold serviceLines
  refine List.forall_mem_append.mpr ⟨List.forall_mem_append.mpr ⟨?_, ?_⟩, ?_⟩
  · intro line hline
    obtain ⟨provided, hprovided, rfl⟩ := List.mem_map.mp hline
    have hkind : Field 256 (lit (provideName provided.kind)) :=
      ⟨plain_provideName _, by cases provided.kind <;> decide⟩
    have hname := field_encoded 256 (text_of_idRe (h.provides.name provided hprovided))
      (by decide)
    have hflag : Field 256 (flag provided.exclusive) :=
      ⟨(field_flag _).plain, (field_flag _).length.trans (by decide)⟩
    have hpriority := h.provides.priority provided hprovided
    have hnumber : Field 256 (intText provided.priority) :=
      field_intText (by omega) (by decide)
    exact line_record 4 (by decide) (by decide)
      (by simpa using ⟨hkind, hname, hflag, hnumber⟩) (by rfl) (by decide)
  · intro line hline
    obtain ⟨permission, hpermission, rfl⟩ := List.mem_map.mp hline
    have hfield := field_encoded 512 (h.permissions.text permission hpermission).1
      (by decide)
    exact line_record 1 (by decide) (by decide) (by simpa using hfield) (by rfl) (by decide)
  · simp only [List.forall_mem_cons, List.not_mem_nil, false_implies, implies_true, and_true]
    refine ⟨?_, ?_, ?_⟩
    · have hid := field_encoded 512 (text_of_idRe h.package.id) (by decide)
      have hname := field_encoded 512 h.package.name (by decide)
      have hversion := field_encoded 512 h.package.version (by decide)
      have hkind := field_encoded 512 h.package.kind (by decide)
      exact line_record 4 (by decide) (by decide) (by simpa using ⟨hid, hname, hversion, hkind⟩)
        (by rfl) (by decide)
    · have hname := field_encoded 8192 h.name.1 (by decide)
      have hsummary := field_encoded 8192 h.summary (by decide)
      have hicon := field_encoded 8192 h.icon (by decide)
      exact line_record 3 (by decide) (by decide) (by simpa using ⟨hname, hsummary, hicon⟩)
        (by rfl) (by decide)
    · have hsystem := field_encoded 512 h.window.system (by decide)
      have hdisplay := field_encoded 512 h.window.display (by decide)
      have hmode := field_encoded 512 h.window.mode (by decide)
      have htitle := field_encoded 512 h.window.title (by decide)
      have happId := field_encoded 512 h.window.appId (by decide)
      have hwmClass := field_encoded 512 h.window.wmClass (by decide)
      have hwmInstance := field_encoded 512 h.window.wmInstance (by decide)
      exact line_record 7 (by decide) (by decide)
        (by simpa using ⟨hsystem, hdisplay, hmode, htitle, happId, hwmClass, hwmInstance⟩)
        (by rfl) (by decide)

theorem lines_componentV2 {item : PlanComponent ServiceFields} (hnamed : Named item)
    (h : item.fields.Bounded) : ∀ line ∈ componentLinesV2 item, Line line := by
  have hfields := List.forall_mem_append.mpr
    ⟨fields_component hnamed.id item.critical hnamed.after h.launch, fields_service h⟩
  have hheader : Line (tabbed (componentFields item.id item.critical item.after
      item.fields.toLaunchFields ++ serviceFields item.fields)) :=
    line_record 17 (by decide) (by decide) hfields (by rfl) (by decide)
  unfold componentLinesV2
  refine List.forall_mem_append.mpr ⟨List.forall_mem_append.mpr
    ⟨List.forall_mem_cons.mpr ⟨hheader, ?_⟩, lines_service h⟩, ?_⟩
  · exact lines_launch hnamed.after h.launch
  · simpa using line_end

/-- Records of one id each. -/
theorem lines_ids {tag : String} (htag : Plain (lit tag)) (hnonempty : lit tag ≠ [])
    (hlength : (lit tag).length ≤ 128) {least most : ℕ} {ids : List PyStr}
    (h : Ids least most ids) : ∀ line ∈ ids.map fun id => tabbed [lit tag, id], Line line := by
  intro line hline
  obtain ⟨id, hid, rfl⟩ := List.mem_map.mp hline
  apply line_record 1 htag hnonempty (by simpa using field_id (h.id id hid)) (by rfl)
  omega

theorem lines_profile {profile : PlanProfile} (h : profile.Bounded) :
    ∀ line ∈ profileLines profile, Line line := by
  have hnumber : ∀ n : ℕ, n ≤ 64 → Field 256 (intText n) := fun n hn =>
    field_intText (by omega) (by decide)
  have hheader : Line (tabbed [lit "profile", encoded profile.id, encoded profile.display,
      count profile.roles, count profile.environment, count profile.startup]) := by
    have hid := field_encoded 256 (text_of_idRe h.id) (by decide)
    have hdisplay := field_encoded 256 h.display (by decide)
    have hroles := hnumber _ h.roles.most
    have henvironment := hnumber _ h.environment.most
    have hstartup := hnumber _ h.startup.most
    exact line_record 5 (by decide) (by decide)
      (by simpa [count] using ⟨hid, hdisplay, hroles, henvironment, hstartup⟩) (by rfl) (by decide)
  unfold profileLines
  refine List.forall_mem_append.mpr ⟨List.forall_mem_append.mpr
    ⟨List.forall_mem_cons.mpr ⟨hheader, ?_⟩, ?_⟩, ?_⟩
  · intro line hline
    obtain ⟨preference, hpreference, hline⟩ := List.mem_flatMap.mp hline
    have hproviders := h.roles.providers preference hpreference
    rcases List.mem_cons.mp hline with rfl | hline
    · have hrole := field_encoded 256
        (text_of_idRe (h.roles.role preference hpreference)) (by decide)
      have hcount := hnumber _ hproviders.most
      exact line_record 2 (by decide) (by decide) (by simpa [count] using ⟨hrole, hcount⟩)
        (by rfl) (by decide)
    · exact lines_ids (by decide) (by decide) (by decide) hproviders line hline
  · exact line_environment (by decide) (by decide) (by decide) h.environment
  · exact lines_ids (by decide) (by decide) (by decide) h.startup

theorem line_settings {stopGrace : ℕ} (hstop : 100 ≤ stopGrace ∧ stopGrace ≤ 60000) :
    Line (settingsLine stopGrace) := by
  have hnumber : Field 128 (intText stopGrace) := field_intText (by omega) (by decide)
  exact line_record 1 (by decide) (by decide) (by simpa using hnumber) (by rfl) (by decide)

/-- Every written line is one that the parser accepts. -/
theorem lines_document {normalized : NormalizedDocument} (h : normalized.Bounded) :
    ∀ line ∈ documentLines normalized, Line line := by
  have hheader : Line header := ⟨by decide, by decide, by decide⟩
  have hheaderV2 : Line headerV2 := ⟨by decide, by decide, by decide⟩
  cases normalized with
  | v1 stopGrace components =>
    obtain ⟨hstop, harranged⟩ := h
    refine List.forall_mem_cons.mpr ⟨hheader, List.forall_mem_cons.mpr
      ⟨line_settings hstop, fun line hline => ?_⟩⟩
    obtain ⟨item, hitem, hline⟩ := List.mem_flatMap.mp hline
    exact lines_component (harranged.named item hitem) (harranged.bounded item hitem) line hline
  | v2 stopGrace profile components =>
    obtain ⟨hstop, hprofile, harranged, -⟩ := h
    refine List.forall_mem_append.mpr ⟨List.forall_mem_cons.mpr ⟨hheaderV2,
      List.forall_mem_cons.mpr ⟨line_settings hstop, lines_profile hprofile⟩⟩, fun line hline => ?_⟩
    obtain ⟨item, hitem, hline⟩ := List.mem_flatMap.mp hline
    exact lines_componentV2 (harranged.named item hitem) (harranged.bounded item hitem) line hline

/-! ## Components -/

theorem components_read {components : List (PlanComponent LaunchFields)}
    (h : Arranged LaunchFields.Bounded components) :
    PlanText.readComponents false ((components.flatMap componentLines).map utf8)
      = .ok (components.map planV1, []) := by
  have hlines : ∀ item : PlanComponent LaunchFields, (componentLines item).map utf8
      = utf8 (tabbed (componentFields item.id item.critical item.after item.fields))
        :: (launchLines item.after item.fields ++ [lit "end"]).map utf8 := fun _ => rfl
  unfold PlanText.readComponents
  rw [List.map_flatMap, if_neg Bool.false_ne_true]
  simp only [hlines]
  apply untilEnd_eq
  · exact fun item hitem => componentV1_read (h.named item hitem) (h.bounded item hitem)
  · exact h.most

theorem componentsV2_read {components : List (PlanComponent ServiceFields)}
    (h : Arranged ServiceFields.Bounded components) :
    PlanText.readComponents true ((components.flatMap componentLinesV2).map utf8)
      = .ok (components.map planV2, []) := by
  have hlines : ∀ item : PlanComponent ServiceFields, (componentLinesV2 item).map utf8
      = utf8 (tabbed (componentFields item.id item.critical item.after item.fields.toLaunchFields
          ++ serviceFields item.fields))
        :: (launchLines item.after item.fields.toLaunchFields ++ serviceLines item.fields
          ++ [lit "end"]).map utf8 := fun _ => rfl
  unfold PlanText.readComponents
  rw [List.map_flatMap, if_pos rfl]
  simp only [hlines]
  apply untilEnd_eq
  · exact fun item hitem => componentV2_read (h.named item hitem) (h.bounded item hitem)
  · exact h.most

section Arranged

variable {α : Type} {Bounded : α → Prop} {components : List (PlanComponent α)}
  (toPlan : PlanComponent α → ComponentPlan)

theorem map_utf8_nodup {ids : List PyStr} (hids : ∀ id ∈ ids, idRe id = true)
    (hnodup : ids.Nodup) : (ids.map utf8).Nodup :=
  hnodup.map_on fun x hx y hy heq => utf8_inj_of_idRe (hids x hx) (hids y hy) heq

theorem Arranged.ids (h : Arranged Bounded components) :
    ∀ id ∈ components.map PlanComponent.id, idRe id = true := by
  intro id hid
  obtain ⟨item, hitem, rfl⟩ := List.mem_map.mp hid
  exact (h.named item hitem).id

theorem Arranged.inOrder (h : Arranged Bounded components)
    (hid : ∀ item, (toPlan item).id = utf8 item.id)
    (hafter : ∀ item, (toPlan item).after = item.after.map utf8) :
    PlanText.InOrder (components.map toPlan) := by
  have hids : ∀ items : List (PlanComponent α), (items.map toPlan).map ComponentPlan.id
      = (items.map PlanComponent.id).map utf8 := by
    intro items
    rw [List.map_map, List.map_map]
    exact List.map_congr_left fun item _ => hid item
  refine ⟨?_, ?_, ?_⟩
  · rw [hids]
    exact map_utf8_nodup h.ids h.orderable.unique
  · intro component hcomponent
    obtain ⟨item, hitem, rfl⟩ := List.mem_map.mp hcomponent
    rw [hafter]
    exact map_utf8_nodup (h.named item hitem).after.id (h.named item hitem).after.nodup
  · intro before component after hsplit
    obtain ⟨first, rest, rfl, rfl, hrest⟩ := List.map_eq_append_iff.mp hsplit
    obtain ⟨item, last, rfl, rfl, rfl⟩ := List.map_eq_cons_iff.mp hrest
    rw [hafter, hids]
    exact List.map_subset utf8 (h.topological first item last rfl)

theorem Arranged.graph (h : Arranged Bounded components)
    (hid : ∀ item, (toPlan item).id = utf8 item.id)
    (hafter : ∀ item, (toPlan item).after = item.after.map utf8)
    (hcritical : ∀ item, (toPlan item).critical = item.critical) (plan : RuntimePlan)
    (hplan : plan.components = components.map toPlan) : PlanText.validateGraph plan = .ok () := by
  obtain ⟨item, hitem, heq⟩ := h.orderable.critical
  apply PlanText.validateGraph_ok
  · rw [hplan]
    exact h.inOrder toPlan hid hafter
  · rw [hplan]
    exact ⟨toPlan item, List.mem_map_of_mem hitem, (hcritical item).trans heq⟩

end Arranged

/-! ## Documents -/

theorem references_ok {profile : PlanProfile} {components : List (PlanComponent ServiceFields)}
    (h : References profile components) (plan : RuntimePlan)
    (hcomponents : plan.components = components.map planV2)
    (hstartup : plan.startup = profile.startup.map utf8)
    (hroles : plan.rolePreferences = profile.roles.map rolePlan) :
    PlanText.validateReferences plan = .ok () := by
  have hids : plan.components.map ComponentPlan.id
      = (components.map PlanComponent.id).map utf8 := by
    rw [hcomponents, List.map_map, List.map_map]
    rfl
  unfold PlanText.validateReferences
  rw [hids, hstartup, hroles]
  refine bind_eq_ok.mpr ⟨⟨⟩, forM_eq_ok.mpr ?_, forM_eq_ok.mpr ?_⟩
  · intro startup hmem
    obtain ⟨component, hcomponent, rfl⟩ := List.mem_map.mp hmem
    exact if_pos (List.mem_map_of_mem (h.startup component hcomponent))
  · intro preference hmem
    obtain ⟨role, hrole, rfl⟩ := List.mem_map.mp hmem
    refine forM_eq_ok.mpr fun provider hprovider => ?_
    obtain ⟨id, hid, rfl⟩ := List.mem_map.mp hprovider
    obtain ⟨item, hitem, rfl, -⟩ := h.provider role hrole id hid
    exact if_pos (List.mem_map_of_mem (List.mem_map_of_mem hitem))

/-- A text of a header, settings and components. -/
theorem parseRuntimePlan_eq {versionTwo : Bool} {first : PyStr} {lines settings body : List PyStr}
    {plan : RuntimePlan} {components : List ComponentPlan}
    (hwritten : lines = first :: (settings ++ body)) (hlength : 3 ≤ lines.length)
    (hfirst : utf8 first = if versionTwo then PlanText.planHeaderV2 else PlanText.planHeaderV1)
    (hlines : ∀ line ∈ lines, Line line)
    (hsettings : Reads (PlanText.readSettings versionTwo) (settings.map utf8) plan)
    (hbody : PlanText.readComponents versionTwo (body.map utf8) = .ok (components, []))
    (hgraph : PlanText.validateGraph { plan with components := components } = .ok ())
    (hreferences : versionTwo = true →
      PlanText.validateReferences { plan with components := components } = .ok ())
    (hsize : (utf8 ((lit "\n").intercalate lines ++ lit "\n")).length ≤ maxBytes) :
    PlanText.parseRuntimePlan (utf8 ((lit "\n").intercalate lines ++ lit "\n"))
      = .ok { plan with components := components } := by
  subst hwritten
  have hversion : ((utf8 first :: (settings ++ body).map utf8).head?
      == some PlanText.planHeaderV2) = versionTwo := by
    rw [hfirst, List.head?_cons]
    cases versionTwo <;> rfl
  have hknown : (!versionTwo && (utf8 first :: (settings ++ body).map utf8).head?
      != some PlanText.planHeaderV1) = false := by
    rw [hfirst, List.head?_cons]
    cases versionTwo <;> rfl
  have hshort : ¬ (utf8 first :: (settings ++ body).map utf8).length < 3 := by
    rw [List.length_cons, List.length_map]
    rw [List.length_cons] at hlength
    omega
  unfold PlanText.parseRuntimePlan
  refine bind_eq_ok.mpr ⟨(), refuse_ok (decide_eq_false (Nat.not_lt.mpr hsize)), ?_⟩
  refine bind_eq_ok.mpr ⟨_, splitLines_joined (List.cons_ne_nil _ _) hlines, ?_⟩
  rw [List.map_cons, hversion]
  refine bind_eq_ok.mpr ⟨(), refuse_ok hknown, ?_⟩
  refine bind_eq_ok.mpr ⟨(), refuse_ok (decide_eq_false hshort), ?_⟩
  rw [List.tail_cons, List.map_append]
  refine bind_eq_ok.mpr ⟨_, hsettings _, ?_⟩
  refine bind_eq_ok.mpr ⟨_, hbody, ?_⟩
  refine bind_eq_ok.mpr ⟨(), hgraph, ?_⟩
  cases versionTwo with
  | false => rfl
  | true => exact bind_eq_ok.mpr ⟨(), hreferences rfl, rfl⟩

theorem NormalizedDocument.Bounded.inOrder {normalized : NormalizedDocument}
    (h : normalized.Bounded) : PlanText.InOrder normalized.plan.components := by
  cases normalized with
  | v1 stopGrace components => exact h.2.inOrder planV1 (fun _ => rfl) fun _ => rfl
  | v2 stopGrace profile components => exact h.2.2.1.inOrder planV2 (fun _ => rfl) fun _ => rfl

theorem NormalizedDocument.Bounded.consistent {normalized : NormalizedDocument}
    (h : normalized.Bounded) : NativeCatalog.Consistent normalized.plan := by
  have hunique := h.inOrder.unique
  cases normalized with
  | v1 stopGrace components =>
    refine ⟨hunique, List.nodup_nil, ?_, by simp [plan], by simp [plan]⟩
    intro component hcomponent
    obtain ⟨item, -, rfl⟩ := List.mem_map.mp hcomponent
    exact List.nodup_nil
  | v2 stopGrace profile components =>
    obtain ⟨-, hprofile, harranged, hreferences⟩ := h
    refine ⟨hunique, ?_, ?_, ?_, ?_⟩
    · have hroles : (profile.roles.map rolePlan).map RolePreference.role
          = (profile.roles.map Prod.fst).map utf8 := by
        rw [List.map_map, List.map_map]
        rfl
      show ((profile.roles.map rolePlan).map RolePreference.role).Nodup
      rw [hroles]
      refine map_utf8_nodup ?_ hprofile.roles.nodup
      intro role hrole
      obtain ⟨preference, hpreference, rfl⟩ := List.mem_map.mp hrole
      exact hprofile.roles.role preference hpreference
    · intro component hcomponent
      obtain ⟨item, hitem, rfl⟩ := List.mem_map.mp hcomponent
      have hprovides := (harranged.bounded item hitem).provides
      have hkeys : ((planV2 item).provides.map fun provided => (provided.kind, provided.name))
          = (item.fields.provides.map fun provided => (provided.kind, provided.name)).map
            fun key => (key.1, utf8 key.2) := by
        show ((item.fields.provides.map providePlan).map _) = _
        rw [List.map_map, List.map_map]
        rfl
      rw [hkeys]
      refine hprovides.nodup.map_on ?_
      rintro ⟨kind, name⟩ hfirst ⟨kind', name'⟩ hsecond heq
      obtain ⟨first, hmem, hkey⟩ := List.mem_map.mp hfirst
      obtain ⟨second, hmem', hkey'⟩ := List.mem_map.mp hsecond
      rw [Prod.mk.injEq] at heq hkey hkey' ⊢
      have hname := hprovides.name first hmem
      have hname' := hprovides.name second hmem'
      rw [hkey.2] at hname
      rw [hkey'.2] at hname'
      exact ⟨heq.1, utf8_inj_of_idRe hname hname' heq.2⟩
    · intro preference hpreference
      obtain ⟨role, hrole, rfl⟩ := List.mem_map.mp hpreference
      have hleast := (hprofile.roles.providers role hrole).least
      intro hempty
      rw [List.map_eq_nil_iff.mp hempty] at hleast
      exact absurd hleast (by decide)
    · intro preference hpreference id hid
      obtain ⟨role, hrole, rfl⟩ := List.mem_map.mp hpreference
      obtain ⟨provider, hprovider, rfl⟩ := List.mem_map.mp hid
      obtain ⟨item, hitem, rfl, provided, hprovided, hkind, hname⟩ :=
        hreferences.provider role hrole provider hprovider
      refine ⟨planV2 item, List.mem_map_of_mem hitem, rfl, providePlan provided,
        List.mem_map_of_mem hprovided, hkind, ?_⟩
      show utf8 provided.name = utf8 role.1
      rw [hname]

theorem parse_document {normalized : NormalizedDocument} (h : normalized.Bounded)
    (hsize : (utf8 ((lit "\n").intercalate (documentLines normalized) ++ lit "\n")).length
      ≤ maxBytes) :
    PlanText.parseRuntimePlan
      (utf8 ((lit "\n").intercalate (documentLines normalized) ++ lit "\n"))
      = .ok normalized.plan := by
  have hlines := lines_document h
  cases normalized with
  | v1 stopGrace components =>
    obtain ⟨hstop, harranged⟩ := h
    obtain ⟨item, hitem⟩ := List.exists_mem_of_length_pos harranged.least
    have hbody : 1 ≤ (components.flatMap componentLines).length :=
      List.length_pos_of_mem (List.mem_flatMap.mpr ⟨item, hitem, List.mem_cons_self⟩)
    have hlength : 3 ≤ (documentLines (.v1 stopGrace components)).length := by
      simp only [documentLines, List.length_cons]
      omega
    have hgraph := harranged.graph planV1 (fun _ => rfl) (fun _ => rfl) (fun _ => rfl)
      (NormalizedDocument.plan (.v1 stopGrace components)) rfl
    have hwritten : documentLines (.v1 stopGrace components)
        = header :: ([settingsLine stopGrace] ++ components.flatMap componentLines) := rfl
    exact parseRuntimePlan_eq hwritten hlength rfl hlines (settings_read hstop)
      (components_read harranged) hgraph nofun hsize
  | v2 stopGrace profile components =>
    obtain ⟨hstop, hprofile, harranged, hreferences⟩ := h
    have hlength : 3 ≤ (documentLines (.v2 stopGrace profile components)).length := by
      simp only [documentLines, profileLines, List.cons_append, List.length_cons]
      omega
    have hgraph := harranged.graph planV2 (fun _ => rfl) (fun _ => rfl) (fun _ => rfl)
      (NormalizedDocument.plan (.v2 stopGrace profile components)) rfl
    have hknown := references_ok hreferences
      (NormalizedDocument.plan (.v2 stopGrace profile components)) rfl rfl rfl
    have hwritten : documentLines (.v2 stopGrace profile components)
        = headerV2 :: ((settingsLine stopGrace :: profileLines profile)
          ++ components.flatMap componentLinesV2) := rfl
    exact parseRuntimePlan_eq hwritten hlength rfl hlines (settingsV2_read hstop hprofile)
      (componentsV2_read harranged) hgraph (fun _ => hknown) hsize

/-- The plan of a document that `compile_document` accepts. -/
theorem compileDocument_plan {py : Interpreter} {document : Json} {text : PyStr}
    (hproper : proper document = true) (h : compileDocument py document = .ok text) :
    ∃ normalized data, normalizeDocument py document = .ok normalized ∧
      utf8Encode text = .ok data ∧ PlanText.parseRuntimePlan data = .ok normalized.plan ∧
      normalized.Bounded := by
  obtain ⟨normalized, hnormalized, h⟩ := bind_eq_ok.mp h
  obtain ⟨data, hdata, h⟩ := bind_eq_ok.mp h
  split_ifs at h with hsize
  · cases h
  cases h
  have hbounded := normalizeDocument_ok hproper hnormalized
  refine ⟨normalized, data, hnormalized, hdata, ?_, hbounded⟩
  unfold utf8Encode at hdata
  split_ifs at hdata
  cases hdata
  exact parse_document hbounded (Nat.not_lt.mp hsize)

/-- What `compile_document` writes, `parse_runtime_plan` reads back: the plan is that of the
normalised document, its components come after their dependencies, and `NativeCatalog` accepts
it. -/
theorem compileDocument_parses (py : Interpreter) (document : Document) (text : PyStr)
    (h : compileDocument py document.val = .ok text) :
    ∃ normalized data, normalizeDocument py document.val = .ok normalized ∧
      utf8Encode text = .ok data ∧ PlanText.parseRuntimePlan data = .ok normalized.plan ∧
      PlanText.InOrder normalized.plan.components ∧
      Returns (NativeCatalog.build normalized.plan) := by
  obtain ⟨normalized, data, hnormalized, hdata, hparse, hbounded⟩ :=
    compileDocument_plan document.property h
  exact ⟨normalized, data, hnormalized, hdata, hparse, hbounded.inOrder, _,
    hbounded.consistent.build⟩

/-- A shell and a display, which it starts after and the profile prefers. -/
def sessionDocument : Json :=
  let readiness := Json.dict (record [("mode", text "exec"), ("timeout_ms", .int 1000)])
  let package := Json.dict (record
    [("id", text "a"), ("name", text "A"), ("version", text "1"), ("kind", text "app")])
  let component (id kind : String) (fields : List (String × Json)) :=
    Json.dict (record
      ([("id", text id), ("kind", text kind), ("critical", .bool true),
        ("lifecycle", text "background"), ("restart", text "always"), ("readiness", readiness),
        ("exec", .list [text "/bin/run", text "-x"]), ("package", package), ("name", text id)]
        ++ fields))
  .dict (record
    [("schema", text schemaV2),
      ("profile", .dict (record
        [("id", text "p"), ("roles", .dict (record [("screen", .list [text "a:display"])])),
          ("startup", .list [text "a:shell"])])),
      ("components", .list
        [component "a:shell" "shell"
            [("after", .list [text "a:display"]), ("env", .dict (record [("LANG", text "C")]))],
          component "a:display" "display"
            [("provides", .list [.dict (record [("role", text "screen")])])]])])

theorem compileDocument_parses_session : ∃ text normalized data,
    compileDocument bareInterpreter sessionDocument = .ok text ∧
      normalizeDocument bareInterpreter sessionDocument = .ok normalized ∧
      utf8Encode text = .ok data ∧ PlanText.parseRuntimePlan data = .ok normalized.plan ∧
      PlanText.InOrder normalized.plan.components ∧
      Returns (NativeCatalog.build normalized.plan) := by
  have hreturns : (compileDocument bareInterpreter sessionDocument).isOk := by decide +kernel
  have hproper : proper sessionDocument = true := by decide +kernel
  obtain ⟨text, h⟩ := returns_of_isOk hreturns
  obtain ⟨normalized, data, hparses⟩ :=
    compileDocument_parses bareInterpreter ⟨sessionDocument, hproper⟩ text h
  exact ⟨text, normalized, data, h, hparses⟩

end MsysCore.Native.PlanSource
