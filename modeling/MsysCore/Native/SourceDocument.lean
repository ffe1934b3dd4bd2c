import MsysCore.Native.PlanNormal

/-!
# The document of an assembled source

`assemble` returns a document of version 2, which `compile_document` checks and puts in order. The
services of the components and the preferences of the profile come through as they are.
-/

namespace MsysCore.Native

open Python PlanSource PlanOrder

/-- The kind of a service in the plan. -/
def planKind : Core.Manifest.ProvideKind → ProvideKind
  | .role => .role
  | .interface => .interface
  | .capability => .capability

def textList (texts : List PyStr) : Json := .list (texts.map Json.str)

def SourceProvide.document (provided : SourceProvide) : Json :=
  .dict (record
    [(provideName (planKind provided.kind), .str provided.name),
      ("exclusive", .bool provided.exclusive), ("priority", .int provided.priority)])

def SourcePackage.document (package : SourcePackage) : Json :=
  .dict (record
    [("id", .str package.id), ("name", .str package.name), ("version", .str package.version),
      ("kind", .str package.kind)])

def SourceWindowing.document (window : SourceWindowing) : Json :=
  .dict (record
    [("system", .str window.system), ("display", .str window.display), ("mode", .str window.mode),
      ("title", .str window.title), ("app_id", .str window.appId),
      ("wm_class", .str window.wmClass), ("wm_instance", .str window.wmInstance)])

def SourceComponent.document (component : SourceComponent) : Json :=
  .dict (record
    [("id", .str component.id), ("kind", text (kindName component.kind)),
      ("critical", .bool component.critical), ("lifecycle", .str component.lifecycle),
      ("idle_timeout_ms", .int component.idleTimeoutMs), ("restart", .str component.restart),
      ("readiness", .dict (record
        [("mode", .str component.readinessMode),
          ("timeout_ms", .int component.readinessTimeoutMs)])),
      ("exec", textList component.exec), ("after", textList component.after),
      ("env", .dict component.env),
      ("provides", .list (component.provides.map SourceProvide.document)),
      ("permissions", textList component.permissions),
      ("package", component.package.document), ("name", .str component.name),
      ("summary", .str component.summary), ("icon", .str component.icon),
      ("launchable", .bool component.launchable), ("windowing", component.windowing.document)])

/-- The roles of the profile in the document. -/
def rolesDocument (roles : List (PyStr × List PyStr)) : Dict :=
  roles.map fun entry => (.str entry.1, textList entry.2)

/-- What `assemble` returns. -/
def RuntimeSource.document (source : RuntimeSource) : Json :=
  .dict (record
    [("schema", text schemaV2), ("stop_grace_ms", .int source.stopGraceMs),
      ("profile", .dict (record
        [("id", .str source.profileId), ("display", .str source.display),
          ("roles", .dict (rolesDocument source.roles)), ("startup", textList source.startup),
          ("env", .dict source.env)])),
      ("components", .list (source.components.map SourceComponent.document))])

namespace PlanSource

variable {py : Interpreter} {path : PyStr}

/-! ## Values -/

theorem boundedString_value {value : Json} {maximum : ℕ} {nonempty : Bool} {s : PyStr}
    (h : boundedString value path maximum nonempty = .ok s) : value = .str s := by
  unfold boundedString at h
  split at h
  · split_ifs at h with hnul
    · cases h
    obtain ⟨data, -, h⟩ := bind_eq_ok.mp h
    split_ifs at h with hlength
    · cases h
    cases h
    rfl
  · cases h

theorem identifier_value {value : Json} {invalid s : PyStr}
    (h : identifier value path invalid = .ok s) : value = .str s := by
  obtain ⟨id, hid, h⟩ := bind_eq_ok.mp h
  split_ifs at h with hvalid
  · cases h
  cases h
  exact boundedString_value hid

theorem boundedStrings_value {items : List Json} {maximum : ℕ} {nonempty : Bool}
    {results : List PyStr} (h : boundedStrings items path maximum nonempty = .ok results) :
    items = results.map Json.str := by
  have hsame : List.Forall₂ (fun item s => item.1 = Json.str s) items.zipIdx results :=
    (mapM_eq_ok.mp h).imp fun _ _ => boundedString_value
  calc items = items.zipIdx.map Prod.fst := (List.zipIdx_map_fst 0 items).symm
    _ = results.map Json.str := by
      rwa [← List.forall₂_eq_eq_eq, List.forall₂_map_left_iff, List.forall₂_map_right_iff]

theorem identifiers_value {value : Json} {least most : ℕ} {bounds noun : String}
    {ids : List PyStr} (h : identifiers value path least most bounds noun = .ok ids) :
    value = textList ids := by
  obtain ⟨items, hitems, h⟩ := bind_eq_ok.mp h
  obtain ⟨strings, hstrings, h⟩ := bind_eq_ok.mp h
  split_ifs at h with hvalid
  · cases h
  cases h
  rw [(boundedList_ok hitems).1, boundedStrings_value hstrings, textList]

theorem integer_value {value : Json} {minimum maximum n : ℕ}
    (h : integer value path minimum maximum = .ok n) : value = .int n := by
  unfold integer at h
  dsimp only at h
  split at h
  · split_ifs at h with hbounds
    · cases h
      rw [Int.toNat_of_nonneg (by omega)]
    · cases h
  · cases h

theorem boolean_value {value : Json} {b : Bool} (h : boolean value path = .ok b) :
    value = .bool b := by
  unfold boolean at h
  split at h
  · cases h
    rfl
  · cases h

/-! ## Components -/

/-- A service of the source as the plan has it. -/
structure SameProvide (provided : SourceProvide) (planned : PlanProvide) : Prop where
  kind : planned.kind = planKind provided.kind
  name : planned.name = provided.name
  exclusive : planned.exclusive = provided.exclusive
  priority : (planned.priority : ℤ) = provided.priority

theorem addProvide_document {provides result : List PlanProvide} {provided : SourceProvide}
    {index : ℕ} (h : addProvide py path provides (provided.document, index) = .ok result) :
    ∃ planned, SameProvide provided planned ∧ result = provides ++ [planned] := by
  obtain ⟨entries, hentries, h⟩ := bind_eq_ok.mp h
  have hrecord := closedObject_ok hentries
  cases hrecord
  have hkinds : ([ProvideKind.role, .interface, .capability].filter fun kind =>
      (Dict.get? (record
        [(provideName (planKind provided.kind), .str provided.name),
          ("exclusive", .bool provided.exclusive), ("priority", .int provided.priority)])
        (provideName kind)).isSome) = [planKind provided.kind] := by
    cases provided.kind <;> simp [planKind, provideName]
  rw [hkinds] at h
  obtain ⟨name, hname, h⟩ := bind_eq_ok.mp h
  obtain ⟨exclusive, hexclusive, h⟩ := bind_eq_ok.mp h
  obtain ⟨priority, hpriority, h⟩ := bind_eq_ok.mp h
  split_ifs at h with hknown
  · cases h
  cases h
  refine ⟨⟨planKind provided.kind, name, exclusive, priority⟩, ⟨rfl, ?_, ?_, ?_⟩, rfl⟩
  · simpa [Dict.get, eq_comm] using identifier_value hname
  · have hne : provideName (planKind provided.kind) ≠ "exclusive" := by
      cases provided.kind <;> decide
    simpa [Dict.get, hne, eq_comm] using boolean_value hexclusive
  · have hne : provideName (planKind provided.kind) ≠ "priority" := by
      cases provided.kind <;> decide
    simpa [Dict.get, hne, eq_comm] using integer_value hpriority

theorem foldlM_addProvide_document (provided : List SourceProvide) :
    ∀ {start : ℕ} {provides result : List PlanProvide},
      ((provided.map SourceProvide.document).zipIdx start).foldlM (addProvide py path) provides
        = .ok result →
      ∃ planned, List.Forall₂ SameProvide provided planned ∧ result = provides ++ planned := by
  induction provided with
  | nil =>
    intro start provides result h
    cases h
    exact ⟨[], .nil, (List.append_nil _).symm⟩
  | cons first provided ih =>
    intro start provides result h
    rw [List.map_cons, List.zipIdx_cons, List.foldlM_cons] at h
    obtain ⟨next, hnext, h⟩ := bind_eq_ok.mp h
    obtain ⟨planned, hplanned, rfl⟩ := addProvide_document hnext
    obtain ⟨rest, hrest, rfl⟩ := ih h
    exact ⟨planned :: rest, .cons hplanned hrest, by simp⟩

/-- A component of the source as the plan has it. -/
structure SameComponent (component : SourceComponent) (item : PlanComponent ServiceFields) :
    Prop where
  id : item.id = component.id
  after : item.after.Perm component.after
  provides : List.Forall₂ SameProvide component.provides item.fields.provides

theorem normalizeV2Component_document {component : SourceComponent} {index : ℕ}
    {item : PlanComponent ServiceFields}
    (h : normalizeV2Component py component.document index = .ok item) :
    SameComponent component item := by
  obtain ⟨entries, hentries, h⟩ := bind_eq_ok.mp h
  cases closedObject_ok hentries
  obtain ⟨id, hid, h⟩ := bind_eq_ok.mp h
  obtain ⟨kind, -, h⟩ := bind_eq_ok.mp h
  obtain ⟨critical, -, h⟩ := bind_eq_ok.mp h
  obtain ⟨lifecycle, -, h⟩ := bind_eq_ok.mp h
  obtain ⟨restart, -, h⟩ := bind_eq_ok.mp h
  obtain ⟨readiness, -, h⟩ := bind_eq_ok.mp h
  obtain ⟨backoff, -, h⟩ := bind_eq_ok.mp h
  obtain ⟨argv, -, h⟩ := bind_eq_ok.mp h
  obtain ⟨after, hafter, h⟩ := bind_eq_ok.mp h
  obtain ⟨environment, -, h⟩ := bind_eq_ok.mp h
  obtain ⟨provides, hprovides, h⟩ := bind_eq_ok.mp h
  obtain ⟨permissions, -, h⟩ := bind_eq_ok.mp h
  obtain ⟨package, -, h⟩ := bind_eq_ok.mp h
  obtain ⟨name, -, h⟩ := bind_eq_ok.mp h
  obtain ⟨summary, -, h⟩ := bind_eq_ok.mp h
  obtain ⟨icon, -, h⟩ := bind_eq_ok.mp h
  obtain ⟨launchable, -, h⟩ := bind_eq_ok.mp h
  obtain ⟨window, -, h⟩ := bind_eq_ok.mp h
  cases h
  refine ⟨?_, ?_, ?_⟩
  · simpa [Dict.get, eq_comm] using identifier_value hid
  · have hids := identifiers_value hafter
    have hsame : after = component.after := by
      simpa [Dict.get, textList, eq_comm, List.map_inj_right] using hids
    exact hsame ▸ List.perm_insertionSort _ _
  · obtain ⟨items, hitems, hprovides⟩ := bind_eq_ok.mp hprovides
    have hlist := (boundedList_ok hitems).1
    have hsame : items = component.provides.map SourceProvide.document := by
      simpa [Dict.get, eq_comm] using hlist
    subst hsame
    obtain ⟨planned, hplanned, rfl⟩ := foldlM_addProvide_document component.provides hprovides
    simpa using hplanned

theorem components_document {root : Dict} {sources : List SourceComponent}
    {ordered : List (PlanComponent ServiceFields)}
    (hroot : Dict.get root "components" .null = .list (sources.map SourceComponent.document))
    (h : components (normalizeV2Component py) root = .ok ordered) :
    ∃ items, List.Forall₂ SameComponent sources items ∧ Ordered items ordered := by
  obtain ⟨raws, hraws, h⟩ := bind_eq_ok.mp h
  obtain ⟨items, hitems, h⟩ := bind_eq_ok.mp h
  split at h
  · rename_i sorted hsorted
    cases h
    rw [hroot] at hraws
    cases (boundedList_ok hraws).1
    refine ⟨items, ?_, (Orderable.of_ok hsorted).2⟩
    have hrel := mapM_eq_ok.mp hitems
    have hdocuments : (sources.map SourceComponent.document).zipIdx
        = sources.zipIdx.map fun item => (item.1.document, item.2) := by
      rw [List.zipIdx_map]
      rfl
    rw [hdocuments, List.forall₂_map_left_iff] at hrel
    have hsources : List.Forall₂ (fun source item => SameComponent source.1 item) sources.zipIdx
        items := hrel.imp fun source item => normalizeV2Component_document
    rw [← List.zipIdx_map_fst 0 sources, List.forall₂_map_left_iff]
    exact hsources
  · cases h

/-! ## The profile -/

theorem profileRoles_document {roles result : List (PyStr × List PyStr)}
    (h : profileRoles py (.dict (rolesDocument roles)) = .ok result) : result.Perm roles := by
  unfold profileRoles at h
  dsimp only at h
  split_ifs at h with hmost
  · cases h
  obtain ⟨named, hnamed, h⟩ := bind_eq_ok.mp h
  let document (entry : PyStr × List PyStr) : PyStr × Json := (entry.1, textList entry.2)
  have hentries : (named.map fun entry => (Json.str entry.1, entry.2))
      = (roles.map document).map fun entry => (Json.str entry.1, entry.2) := by
    rw [← textEntries_ok hnamed, List.map_map]
    rfl
  have hinjective : Function.Injective fun entry : PyStr × Json => (Json.str entry.1, entry.2) := by
    rintro ⟨a, x⟩ ⟨b, y⟩ heq
    simpa using heq
  have hroles := List.map_injective_iff.mpr hinjective hentries
  have hsorted : (named.insertionSort fun a b => a.1 ≤ b.1) = result.map document := by
    have hrel := mapM_eq_ok.mp h
    rw [← List.forall₂_eq_eq_eq, List.forall₂_map_right_iff]
    refine hrel.imp fun entry preference hentry => ?_
    obtain ⟨hname, -, hids⟩ := profileRole_ok hentry
    exact Prod.ext hname.symm (identifiers_value hids)
  have hperm := List.perm_insertionSort (fun a b : PyStr × Json => a.1 ≤ b.1) named
  rw [hsorted, hroles] at hperm
  have hdocument : Function.Injective document := by
    rintro ⟨a, x⟩ ⟨b, y⟩ heq
    simpa [document, textList, List.map_inj_right] using heq
  exact (List.map_perm_map_iff hdocument).mp hperm

/-- What compiling makes of an assembled source, as far as services go. -/
structure Compiled (source : RuntimeSource) (profile : PlanProfile)
    (ordered : List (PlanComponent ServiceFields)) : Prop where
  roles : profile.roles.Perm source.roles
  components : ∃ items, List.Forall₂ SameComponent source.components items ∧ Ordered items ordered

theorem normalizeDocument_document {source : RuntimeSource} {normalized : NormalizedDocument}
    (h : normalizeDocument py source.document = .ok normalized) :
    ∃ stopGrace profile ordered, normalized = .v2 stopGrace profile ordered ∧
      Compiled source profile ordered := by
  have hschema : schemaOf source.document = some (text schemaV2) := by
    simp [schemaOf, RuntimeSource.document]
  unfold normalizeDocument at h
  rw [if_pos hschema] at h
  obtain ⟨root, hroot, h⟩ := bind_eq_ok.mp h
  cases closedObject_ok hroot
  obtain ⟨stopGrace, -, h⟩ := bind_eq_ok.mp h
  obtain ⟨profile, hprofile, h⟩ := bind_eq_ok.mp h
  obtain ⟨ordered, hordered, h⟩ := bind_eq_ok.mp h
  obtain ⟨⟨⟩, -, h⟩ := bind_eq_ok.mp h
  cases h
  refine ⟨stopGrace, profile, ordered, rfl, ?_, ?_⟩
  · obtain ⟨entries, hentries, hprofile⟩ := bind_eq_ok.mp hprofile
    have hobject := closedObject_ok hentries
    simp only [Dict.get, get?_record_cons] at hobject
    cases hobject
    obtain ⟨id, -, hprofile⟩ := bind_eq_ok.mp hprofile
    obtain ⟨display, -, hprofile⟩ := bind_eq_ok.mp hprofile
    obtain ⟨roles, hroles, hprofile⟩ := bind_eq_ok.mp hprofile
    obtain ⟨startup, -, hprofile⟩ := bind_eq_ok.mp hprofile
    obtain ⟨environment, -, hprofile⟩ := bind_eq_ok.mp hprofile
    cases hprofile
    apply profileRoles_document
    simpa [Dict.get] using hroles
  · apply components_document _ hordered
    simp [Dict.get]

end PlanSource

end MsysCore.Native
