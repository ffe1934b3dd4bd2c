import MsysCore.Native.PlanFields

/-!
# What the plan compiler lets through

The bounds that a normalised document keeps, read off the checks of `compile_document`. They are
those that the parser asks for, and some more.
-/

namespace MsysCore.Native.PlanSource

open Python PlanOrder

/-! ## Documents in memory -/

mutual

/-- A value as Python holds it: texts of code points, and dictionaries with distinct keys. -/
def proper : Json → Bool
  | .str s => s.all fun c => c < 0x110000
  | .list items => properItems items
  | .dict entries => (entries.map Prod.fst).Nodup && properEntries entries
  | _ => true

def properItems : List Json → Bool
  | [] => true
  | item :: items => proper item && properItems items

def properEntries : List (Json × Json) → Bool
  | [] => true
  | (k, v) :: entries => proper k && proper v && properEntries entries

end

abbrev Document := { document : Json // proper document = true }

theorem proper_item {items : List Json} (h : properItems items = true) :
    ∀ item ∈ items, proper item = true := by
  induction items with
  | nil => simp
  | cons item items ih =>
    rw [properItems, Bool.and_eq_true] at h
    exact List.forall_mem_cons.mpr ⟨h.1, ih h.2⟩

theorem proper_entry {entries : Dict} (h : properEntries entries = true) :
    ∀ entry ∈ entries, proper entry.1 = true ∧ proper entry.2 = true := by
  induction entries with
  | nil => simp
  | cons entry entries ih =>
    obtain ⟨k, v⟩ := entry
    rw [properEntries, Bool.and_eq_true, Bool.and_eq_true] at h
    exact List.forall_mem_cons.mpr ⟨h.1, ih h.2⟩

/-- The entries of a dictionary. -/
structure ProperDict (entries : Dict) : Prop where
  nodup : (entries.map Prod.fst).Nodup
  entry : ∀ entry ∈ entries, proper entry.1 = true ∧ proper entry.2 = true

theorem proper_dict {entries : Dict} (h : proper (.dict entries) = true) : ProperDict entries := by
  rw [proper, Bool.and_eq_true, decide_eq_true_eq] at h
  exact ⟨h.1, proper_entry h.2⟩

theorem ProperDict.get {entries : Dict} (h : ProperDict entries) (name : String) {default : Json}
    (hdefault : proper default = true) : proper (Dict.get entries name default) = true := by
  unfold Dict.get Dict.get?
  cases hfind : entries.find? fun entry => isKey (lit name) entry.1 with
  | none => exact hdefault
  | some entry => exact (h.entry entry (List.mem_of_find?_eq_some hfind)).2

/-! ## Values -/

variable {py : Interpreter} {path : PyStr}

theorem closedObject_ok {value : Json} {allowed required : List String} {entries : Dict}
    (h : closedObject py value path allowed required = .ok entries) : value = .dict entries := by
  unfold closedObject at h
  split at h
  · obtain ⟨named, -, h⟩ := bind_eq_ok.mp h
    dsimp only at h
    split at h
    · cases h
    · cases h
    · cases h
      rfl
  · cases h

theorem closedObject_proper {value : Json} {allowed required : List String} {entries : Dict}
    (hvalue : proper value = true)
    (h : closedObject py value path allowed required = .ok entries) : ProperDict entries := by
  rw [closedObject_ok h] at hvalue
  exact proper_dict hvalue

theorem integer_ok {value : Json} {minimum maximum n : ℕ}
    (h : integer value path minimum maximum = .ok n) : minimum ≤ n ∧ n ≤ maximum := by
  unfold integer at h
  dsimp only at h
  split at h
  · split_ifs at h
    · cases h
      omega
    · cases h
  · cases h

theorem boundedString_ok {value : Json} {maximum : ℕ} {nonempty : Bool} {s : PyStr}
    (hvalue : proper value = true) (h : boundedString value path maximum nonempty = .ok s) :
    Text maximum s ∧ (nonempty = true → s ≠ []) := by
  unfold boundedString at h
  split at h
  · rename_i t
    split_ifs at h with hnul
    · cases h
    obtain ⟨data, hdata, h⟩ := bind_eq_ok.mp h
    split_ifs at h with hlength
    · cases h
    cases h
    unfold utf8Encode at hdata
    split_ifs at hdata with hsurrogate
    cases hdata
    rw [proper, List.all_eq_true] at hvalue
    simp only [Bool.or_eq_true, Bool.and_eq_true, decide_eq_true_eq, not_or, not_and, not_lt]
      at hlength
    refine ⟨⟨fun c hc => ⟨?_, ?_⟩, hnul, hlength.2⟩, ?_⟩
    · simpa using hvalue c hc
    · simpa using fun hc' => hsurrogate (List.any_eq_true.mpr ⟨c, hc, hc'⟩)
    · rintro hnonempty rfl
      exact hlength.1 hnonempty rfl
  · cases h

theorem identifier_ok {value : Json} {invalid s : PyStr}
    (h : identifier value path invalid = .ok s) : idRe s = true := by
  obtain ⟨id, -, h⟩ := bind_eq_ok.mp h
  split_ifs at h with hid
  · cases h
  · cases h
    simpa using hid

theorem text_of_plain {s : PyStr} {maximum : ℕ} (h : Plain s) (hnul : 0 ∉ s)
    (hlength : s.length ≤ maximum) : Text maximum s where
  scalar c hc := by
    have hascii := (plainChar_iff.mp (h c hc)).1
    refine ⟨by omega, ?_⟩
    simp only [isSurrogate, Bool.and_eq_false_iff, decide_eq_false_iff_not]
    omega
  nulFree := hnul
  length := by
    rw [h.length_utf8]
    exact hlength

theorem text_of_idRe {s : PyStr} (h : idRe s = true) : Text 128 s := by
  apply text_of_plain (plain_of_idRe h) _ (length_of_idRe h)
  intro hnul
  cases s with
  | nil => cases h
  | cons first rest =>
    have hzero := (idRe_cons.mp h).2.2 0 hnul
    revert hzero
    decide

theorem text_of_envRe {s : PyStr} (h : envRe s = true) : Text 128 s := by
  apply text_of_plain (plain_of_envRe h) _ (length_of_envRe h)
  intro hnul
  cases s with
  | nil => cases h
  | cons first rest =>
    have hzero := (envRe_cons.mp h).2.2 0 hnul
    revert hzero
    decide

theorem boundedList_ok {value : Json} {least most : ℕ} {invalid : PyStr} {items : List Json}
    (h : boundedList value least most invalid = .ok items) :
    value = .list items ∧ least ≤ items.length ∧ items.length ≤ most := by
  unfold boundedList at h
  split at h
  · split_ifs at h with hlength
    · cases h
      exact ⟨rfl, hlength⟩
    · cases h
  · cases h

theorem boundedList_proper {value : Json} {least most : ℕ} {invalid : PyStr} {items : List Json}
    (hvalue : proper value = true) (h : boundedList value least most invalid = .ok items) :
    ∀ item ∈ items, proper item = true := by
  rw [(boundedList_ok h).1] at hvalue
  exact proper_item hvalue

/-- The items of a checked list. -/
theorem mem_of_zipIdx_mapM {α β : Type} {items : List β} {f : β × ℕ → Except PyError α}
    {results : List α} (h : items.zipIdx.mapM f = .ok results) :
    results.length = items.length ∧
      ∀ result ∈ results, ∃ item ∈ items, ∃ index, f (item, index) = .ok result := by
  constructor
  · rw [← (mapM_eq_ok.mp h).length_eq, List.length_zipIdx]
  · intro result hresult
    obtain ⟨⟨item, index⟩, hmem, hitem⟩ := mem_mapM h hresult
    exact ⟨item, (List.mem_zipIdx' hmem).2 ▸ List.getElem_mem _, index, hitem⟩

theorem boundedStrings_ok {items : List Json} {maximum : ℕ} {nonempty : Bool}
    {results : List PyStr} (hitems : ∀ item ∈ items, proper item = true)
    (h : boundedStrings items path maximum nonempty = .ok results) :
    results.length = items.length ∧
      ∀ s ∈ results, Text maximum s ∧ (nonempty = true → s ≠ []) := by
  obtain ⟨hlength, hmem⟩ := mem_of_zipIdx_mapM h
  refine ⟨hlength, fun s hs => ?_⟩
  obtain ⟨item, hitem, index, hbounded⟩ := hmem s hs
  exact boundedString_ok (hitems item hitem) hbounded

/-- A list of distinct ids. -/
structure Ids (least most : ℕ) (ids : List PyStr) : Prop where
  least : least ≤ ids.length
  most : ids.length ≤ most
  id : ∀ id ∈ ids, idRe id = true
  nodup : ids.Nodup

theorem Ids.sorted {least most : ℕ} {ids : List PyStr} (h : Ids least most ids) :
    Ids least most (ids.insertionSort (· ≤ ·)) where
  least := by
    rw [List.length_insertionSort]
    exact h.least
  most := by
    rw [List.length_insertionSort]
    exact h.most
  id id hid := h.id id ((List.mem_insertionSort _).mp hid)
  nodup := (List.perm_insertionSort _ ids).nodup_iff.mpr h.nodup

theorem identifiers_ok {value : Json} {least most : ℕ} {bounds noun : String} {ids : List PyStr}
    (hvalue : proper value = true)
    (h : identifiers value path least most bounds noun = .ok ids) : Ids least most ids := by
  obtain ⟨items, hitems, h⟩ := bind_eq_ok.mp h
  obtain ⟨strings, hstrings, h⟩ := bind_eq_ok.mp h
  split_ifs at h with hvalid
  · cases h
  cases h
  obtain ⟨-, hleast, hmost⟩ := boundedList_ok hitems
  obtain ⟨hlength, -⟩ := boundedStrings_ok (boundedList_proper hvalue hitems) hstrings
  simp only [Bool.or_eq_true, List.any_eq_true, Bool.not_eq_true', decide_eq_false_iff_not,
    not_or, not_exists, not_and, Bool.not_eq_false, not_not] at hvalid
  exact ⟨by omega, by omega, hvalid.1, hvalid.2⟩

theorem textEntries_ok {entries : Dict} {named : List (PyStr × Json)}
    (h : textEntries entries = .ok named) :
    entries = named.map fun entry => (.str entry.1, entry.2) := by
  have hrel := mapM_eq_ok.mp h
  clear h
  induction hrel with
  | nil => rfl
  | @cons entry result entries named hentry _ ih =>
    obtain ⟨k, v⟩ := entry
    cases k with
    | str key =>
      cases hentry
      rw [ih]
      rfl
    | _ => cases hentry

/-- The named entries of an object, sorted. -/
theorem textEntries_sorted {entries : Dict} {named : List (PyStr × Json)}
    (hentries : ProperDict entries) (h : textEntries entries = .ok named) :
    let sorted := named.insertionSort fun a b => a.1 ≤ b.1
    (sorted.map Prod.fst).Nodup ∧ sorted.length = entries.length ∧
      ∀ entry ∈ sorted, proper entry.2 = true := by
  have heq := textEntries_ok h
  have hperm := List.perm_insertionSort (fun a b : PyStr × Json => a.1 ≤ b.1) named
  refine ⟨?_, ?_, ?_⟩
  · rw [(hperm.map _).nodup_iff]
    have hnodup := hentries.nodup
    rw [heq, List.map_map] at hnodup
    have hkeys : (named.map Prod.fst).map Json.str = named.map (Prod.fst ∘ fun entry =>
        (Json.str entry.1, entry.2)) := by
      rw [List.map_map]
      rfl
    rw [← hkeys] at hnodup
    exact hnodup.of_map
  · rw [hperm.length_eq, heq, List.length_map]
  · intro entry hentry
    have hmem : (Json.str entry.1, entry.2) ∈ entries := by
      rw [heq]
      exact List.mem_map_of_mem (hperm.mem_iff.mp hentry)
    exact (hentries.entry _ hmem).2

/-- The entries of a checked dictionary that becomes a sorted list of pairs. -/
theorem mapM_keys {α : Type} {entries : List (PyStr × Json)} {results : List (PyStr × α)}
    {f : PyStr × Json → Except PyError (PyStr × α)}
    (hf : ∀ entry result, f entry = .ok result → result.1 = entry.1)
    (h : entries.mapM f = .ok results) : results.map Prod.fst = entries.map Prod.fst := by
  have hrel := mapM_eq_ok.mp h
  clear h
  induction hrel with
  | nil => rfl
  | cons hentry _ ih => rw [List.map_cons, List.map_cons, ih, hf _ _ hentry]

/-- Environment variables that both programs accept. -/
structure Environment (environment : List (PyStr × PyStr)) : Prop where
  most : environment.length ≤ 64
  key : ∀ entry ∈ environment, envRe entry.1 = true ∧ entry.1 ∉ reservedEnv
  value : ∀ entry ∈ environment, Text 4096 entry.2
  nodup : (environment.map Prod.fst).Nodup

theorem environmentEntry_ok {entry : PyStr × Json} {result : PyStr × PyStr}
    (h : environmentEntry py path entry = .ok result) :
    result.1 = entry.1 ∧ envRe entry.1 = true ∧ entry.1 ∉ reservedEnv ∧
      boundedString entry.2 (path ++ lit "." ++ entry.1) 4096 false = .ok result.2 := by
  unfold environmentEntry at h
  split_ifs at h with hkey
  · cases h
  · obtain ⟨s, hs, h⟩ := bind_eq_ok.mp h
    cases h
    simp only [Bool.or_eq_true, Bool.not_eq_true', List.contains_iff_mem, not_or,
      Bool.not_eq_false] at hkey
    exact ⟨rfl, hkey.1, hkey.2, hs⟩

theorem environment_ok {value : Json} {result : List (PyStr × PyStr)}
    (hvalue : proper value = true) (h : environment py value path = .ok result) :
    Environment result := by
  unfold environment at h
  dsimp only at h
  split at h
  · rename_i entries
    split_ifs at h with hmost
    · cases h
    obtain ⟨named, hnamed, h⟩ := bind_eq_ok.mp h
    obtain ⟨hnodup, hlength, hproper⟩ := textEntries_sorted (proper_dict hvalue) hnamed
    have hkeys := mapM_keys (fun entry result hr => (environmentEntry_ok hr).1) h
    have hmem : ∀ result' ∈ result, envRe result'.1 = true ∧ result'.1 ∉ reservedEnv ∧
        Text 4096 result'.2 := by
      intro result' hresult'
      obtain ⟨entry, hin, heq⟩ := mem_mapM h hresult'
      obtain ⟨hfst, henv, hreserved, hbounded⟩ := environmentEntry_ok heq
      rw [hfst]
      exact ⟨henv, hreserved, (boundedString_ok (hproper entry hin) hbounded).1⟩
    refine ⟨?_, fun e he => ⟨(hmem e he).1, (hmem e he).2.1⟩, fun e he => (hmem e he).2.2, ?_⟩
    · have hsame := congrArg List.length hkeys
      rw [List.length_map, List.length_map] at hsame
      omega
    · rw [hkeys]
      exact hnodup
  · cases h

/-! ## Components -/

/-- The bounds of the fields that both versions have. -/
structure LaunchFields.Bounded (fields : LaunchFields) : Prop where
  timeout : 1 ≤ fields.readinessTimeoutMs ∧ fields.readinessTimeoutMs ≤ 300000
  initial : 1 ≤ fields.initialMs ∧ fields.initialMs ≤ 60000
  max : fields.initialMs ≤ fields.maxMs ∧ fields.maxMs ≤ 300000
  limit : fields.limit ≤ 1000
  arguments : 1 ≤ fields.argv.length ∧ fields.argv.length ≤ 64
  argument : ∀ argument ∈ fields.argv, Text 4096 argument
  absolute : (fields.argv.headD []).head? = some 47
  environment : Environment fields.environment

/-- An id and a list of dependencies that both programs accept. -/
structure Named {α : Type} (item : PlanComponent α) : Prop where
  id : idRe item.id = true
  after : Ids 0 32 item.after

theorem readiness_ok {item : Dict} {modes : List ReadinessMode} {result : ReadinessMode × ℕ}
    (h : readiness py item path modes = .ok result) : 1 ≤ result.2 ∧ result.2 ≤ 300000 := by
  obtain ⟨entries, -, h⟩ := bind_eq_ok.mp h
  obtain ⟨mode, -, h⟩ := bind_eq_ok.mp h
  obtain ⟨timeout, htimeout, h⟩ := bind_eq_ok.mp h
  cases h
  exact integer_ok htimeout

theorem backoff_ok {item : Dict} {result : Backoff} (h : backoff py item path = .ok result) :
    (1 ≤ result.initialMs ∧ result.initialMs ≤ 60000) ∧
      (result.initialMs ≤ result.maxMs ∧ result.maxMs ≤ 300000) ∧ result.limit ≤ 1000 := by
  obtain ⟨entries, -, h⟩ := bind_eq_ok.mp h
  obtain ⟨initialMs, hinitial, h⟩ := bind_eq_ok.mp h
  obtain ⟨maxMs, hmax, h⟩ := bind_eq_ok.mp h
  obtain ⟨limit, hlimit, h⟩ := bind_eq_ok.mp h
  cases h
  exact ⟨integer_ok hinitial, integer_ok hmax, (integer_ok hlimit).2⟩

theorem argv_ok {item : Dict} {result : List PyStr} (hitem : ProperDict item)
    (h : argv item path = .ok result) :
    (1 ≤ result.length ∧ result.length ≤ 64) ∧ (∀ argument ∈ result, Text 4096 argument) ∧
      (result.headD []).head? = some 47 := by
  obtain ⟨items, hitems, h⟩ := bind_eq_ok.mp h
  obtain ⟨strings, hstrings, h⟩ := bind_eq_ok.mp h
  split_ifs at h with habsolute
  · cases h
  cases h
  have hproper := boundedList_proper (hitem.get "exec" rfl) hitems
  obtain ⟨-, hleast, hmost⟩ := boundedList_ok hitems
  obtain ⟨hlength, hbounded⟩ := boundedStrings_ok hproper hstrings
  exact ⟨by omega, fun argument hargument => (hbounded argument hargument).1,
    not_not.mp habsolute⟩

theorem after_ok {item : Dict} {result : List PyStr} (h : after item path = .ok result) :
    Ids 0 32 result := by
  obtain ⟨items, hitems, h⟩ := bind_eq_ok.mp h
  obtain ⟨ids, hids, h⟩ := bind_eq_ok.mp h
  split_ifs at h with hnodup
  · cases h
  cases h
  obtain ⟨-, -, hmost⟩ := boundedList_ok hitems
  obtain ⟨hlength, hmem⟩ := mem_of_zipIdx_mapM hids
  refine ⟨Nat.zero_le _, by omega, fun id hid => ?_, by simpa using hnodup⟩
  obtain ⟨raw, -, index, hraw⟩ := hmem id hid
  exact identifier_ok hraw

theorem normalizeComponent_ok {raw : Json} {index : ℕ} {item : PlanComponent LaunchFields}
    (hraw : proper raw = true) (h : normalizeComponent py raw index = .ok item) :
    Named item ∧ item.fields.Bounded := by
  obtain ⟨entries, hentries, h⟩ := bind_eq_ok.mp h
  obtain ⟨id, hid, h⟩ := bind_eq_ok.mp h
  obtain ⟨kind, -, h⟩ := bind_eq_ok.mp h
  obtain ⟨critical, -, h⟩ := bind_eq_ok.mp h
  obtain ⟨restart, -, h⟩ := bind_eq_ok.mp h
  obtain ⟨⟨mode, timeout⟩, hreadiness, h⟩ := bind_eq_ok.mp h
  obtain ⟨backoff, hbackoff, h⟩ := bind_eq_ok.mp h
  obtain ⟨argv, hargv, h⟩ := bind_eq_ok.mp h
  obtain ⟨after, hafter, h⟩ := bind_eq_ok.mp h
  obtain ⟨environment, henvironment, h⟩ := bind_eq_ok.mp h
  cases h
  have hproper := closedObject_proper hraw hentries
  obtain ⟨hinitial, hmax, hlimit⟩ := backoff_ok hbackoff
  obtain ⟨harguments, hargument, habsolute⟩ := argv_ok hproper hargv
  exact ⟨⟨identifier_ok hid, (after_ok hafter).sorted⟩,
    ⟨readiness_ok hreadiness, hinitial, hmax, hlimit, harguments, hargument, habsolute,
      environment_ok (hproper.get "env" rfl) henvironment⟩⟩

/-- Services that are told apart by their kinds and names. -/
structure Provides (provides : List PlanProvide) : Prop where
  name : ∀ provided ∈ provides, idRe provided.name = true
  priority : ∀ provided ∈ provides, provided.priority ≤ 1000000
  nodup : (provides.map fun provided => (provided.kind, provided.name)).Nodup

theorem addProvide_ok {provides result : List PlanProvide} {entry : Json × ℕ}
    (hprovides : Provides provides) (h : addProvide py path provides entry = .ok result) :
    Provides result ∧ result.length = provides.length + 1 := by
  obtain ⟨provide, -, h⟩ := bind_eq_ok.mp h
  split at h
  · rename_i kind _
    obtain ⟨name, hname, h⟩ := bind_eq_ok.mp h
    obtain ⟨exclusive, -, h⟩ := bind_eq_ok.mp h
    obtain ⟨priority, hpriority, h⟩ := bind_eq_ok.mp h
    split_ifs at h with hknown
    · cases h
    cases h
    rw [List.contains_iff_mem] at hknown
    refine ⟨⟨?_, ?_, ?_⟩, List.length_append⟩
    · exact List.forall_mem_append.mpr ⟨hprovides.name, by simpa using identifier_ok hname⟩
    · exact List.forall_mem_append.mpr
        ⟨hprovides.priority, by simpa using (integer_ok hpriority).2⟩
    · rw [List.map_append, List.map_singleton]
      exact hprovides.nodup.append (List.nodup_singleton _) (by simpa using hknown)
  · cases h

theorem foldlM_addProvide_ok (entries : List (Json × ℕ)) :
    ∀ {provides result : List PlanProvide}, Provides provides →
      entries.foldlM (addProvide py path) provides = .ok result →
      Provides result ∧ result.length = provides.length + entries.length := by
  induction entries with
  | nil =>
    intro provides result hprovides h
    cases h
    exact ⟨hprovides, rfl⟩
  | cons entry entries ih =>
    intro provides result hprovides h
    rw [List.foldlM_cons] at h
    obtain ⟨next, hnext, h⟩ := bind_eq_ok.mp h
    obtain ⟨hkept, hlength⟩ := addProvide_ok hprovides hnext
    obtain ⟨hresult, htotal⟩ := ih hkept h
    refine ⟨hresult, ?_⟩
    rw [htotal, hlength, List.length_cons]
    omega

theorem provides_ok {item : Dict} {result : List PlanProvide}
    (h : provides py item path = .ok result) : Provides result ∧ result.length ≤ 32 := by
  obtain ⟨items, hitems, h⟩ := bind_eq_ok.mp h
  obtain ⟨-, -, hmost⟩ := boundedList_ok hitems
  obtain ⟨hresult, hlength⟩ := foldlM_addProvide_ok _ ⟨by simp, by simp, by simp⟩ h
  refine ⟨hresult, ?_⟩
  rw [hlength, List.length_zipIdx, List.length_nil]
  omega

/-- Distinct permissions, none of them empty. -/
structure Permissions (permissions : List PyStr) : Prop where
  most : permissions.length ≤ 128
  text : ∀ permission ∈ permissions, Text 256 permission ∧ permission ≠ []
  nodup : permissions.Nodup

theorem Permissions.sorted {permissions : List PyStr} (h : Permissions permissions) :
    Permissions (permissions.insertionSort (· ≤ ·)) where
  most := by
    rw [List.length_insertionSort]
    exact h.most
  text permission hpermission := h.text permission ((List.mem_insertionSort _).mp hpermission)
  nodup := (List.perm_insertionSort _ permissions).nodup_iff.mpr h.nodup

theorem permissions_ok {item : Dict} {result : List PyStr} (hitem : ProperDict item)
    (h : permissions item path = .ok result) : Permissions result := by
  obtain ⟨items, hitems, h⟩ := bind_eq_ok.mp h
  obtain ⟨strings, hstrings, h⟩ := bind_eq_ok.mp h
  split_ifs at h with hnodup
  · cases h
  cases h
  have hproper := boundedList_proper (hitem.get "permissions" rfl) hitems
  obtain ⟨-, -, hmost⟩ := boundedList_ok hitems
  obtain ⟨hlength, htext⟩ := boundedStrings_ok hproper hstrings
  refine ⟨by omega, fun s hs => ⟨(htext s hs).1, (htext s hs).2 rfl⟩, by simpa using hnodup⟩

structure PackageBounded (package : SourcePackage) : Prop where
  id : idRe package.id = true
  name : Text 256 package.name
  version : Text 64 package.version
  kind : Text 64 package.kind

theorem package_ok {item : Dict} {result : SourcePackage} (hitem : ProperDict item)
    (h : package py item path = .ok result) : PackageBounded result := by
  obtain ⟨entries, hentries, h⟩ := bind_eq_ok.mp h
  obtain ⟨id, hid, h⟩ := bind_eq_ok.mp h
  obtain ⟨name, hname, h⟩ := bind_eq_ok.mp h
  obtain ⟨version, hversion, h⟩ := bind_eq_ok.mp h
  obtain ⟨kind, hkind, h⟩ := bind_eq_ok.mp h
  cases h
  have hproper := closedObject_proper (hitem.get "package" rfl) hentries
  exact ⟨identifier_ok hid, (boundedString_ok (hproper.get "name" rfl) hname).1,
    (boundedString_ok (hproper.get "version" rfl) hversion).1,
    (boundedString_ok (hproper.get "kind" rfl) hkind).1⟩

structure WindowBounded (window : SourceWindowing) : Prop where
  system : Text 32 window.system
  display : Text 64 window.display
  mode : Text 64 window.mode
  title : Text 256 window.title
  appId : Text 256 window.appId
  wmClass : Text 256 window.wmClass
  wmInstance : Text 256 window.wmInstance

theorem windowing_ok {item : Dict} {result : SourceWindowing} (hitem : ProperDict item)
    (h : windowing py item path = .ok result) : WindowBounded result := by
  obtain ⟨entries, hentries, h⟩ := bind_eq_ok.mp h
  have hproper := closedObject_proper (hitem.get "windowing" rfl) hentries
  have hfield : ∀ {key : String} {limit : ℕ} {path s : PyStr},
      boundedString (Dict.get entries key (text "")) path limit false = .ok s → Text limit s :=
    fun hs => (boundedString_ok (hproper.get _ rfl) hs).1
  obtain ⟨system, hsystem, h⟩ := bind_eq_ok.mp h
  obtain ⟨display, hdisplay, h⟩ := bind_eq_ok.mp h
  obtain ⟨mode, hmode, h⟩ := bind_eq_ok.mp h
  obtain ⟨title, htitle, h⟩ := bind_eq_ok.mp h
  obtain ⟨appId, happId, h⟩ := bind_eq_ok.mp h
  obtain ⟨wmClass, hwmClass, h⟩ := bind_eq_ok.mp h
  obtain ⟨wmInstance, hwmInstance, h⟩ := bind_eq_ok.mp h
  cases h
  exact ⟨hfield hsystem, hfield hdisplay, hfield hmode, hfield htitle, hfield happId,
    hfield hwmClass, hfield hwmInstance⟩

/-- The bounds of the fields of version 2. -/
structure ServiceFields.Bounded (fields : ServiceFields) : Prop where
  launch : fields.toLaunchFields.Bounded
  idle : fields.idleTimeoutMs ≤ 3600000
  onDemand : fields.lifecycle = .onDemand → 100 ≤ fields.idleTimeoutMs
  started : fields.lifecycle ≠ .onDemand → fields.idleTimeoutMs = 0
  provides : Provides fields.provides
  services : fields.provides.length ≤ 32
  permissions : Permissions fields.permissions
  package : PackageBounded fields.package
  name : Text 256 fields.name ∧ fields.name ≠ []
  summary : Text 1024 fields.summary
  icon : Text 4096 fields.icon
  window : WindowBounded fields.window

theorem lifecycle_ok {item : Dict} {result : Lifecycle × ℕ}
    (h : lifecycle item path = .ok result) :
    result.2 ≤ 3600000 ∧ (result.1 = .onDemand → 100 ≤ result.2) ∧
      (result.1 ≠ .onDemand → result.2 = 0) := by
  obtain ⟨lifecycle, -, h⟩ := bind_eq_ok.mp h
  obtain ⟨idleTimeoutMs, hidle, h⟩ := bind_eq_ok.mp h
  split_ifs at h with hshort hother
  · cases h
  · cases h
  · cases h
    simp only [not_and, not_lt, not_not] at hshort hother
    exact ⟨(integer_ok hidle).2, hshort, hother⟩

theorem normalizeV2Component_ok {raw : Json} {index : ℕ} {item : PlanComponent ServiceFields}
    (hraw : proper raw = true) (h : normalizeV2Component py raw index = .ok item) :
    Named item ∧ item.fields.Bounded := by
  obtain ⟨entries, hentries, h⟩ := bind_eq_ok.mp h
  obtain ⟨id, hid, h⟩ := bind_eq_ok.mp h
  obtain ⟨kind, -, h⟩ := bind_eq_ok.mp h
  obtain ⟨critical, -, h⟩ := bind_eq_ok.mp h
  obtain ⟨⟨lifecycle, idleTimeoutMs⟩, hlifecycle, h⟩ := bind_eq_ok.mp h
  obtain ⟨restart, -, h⟩ := bind_eq_ok.mp h
  obtain ⟨⟨mode, timeout⟩, hreadiness, h⟩ := bind_eq_ok.mp h
  obtain ⟨backoff, hbackoff, h⟩ := bind_eq_ok.mp h
  obtain ⟨argv, hargv, h⟩ := bind_eq_ok.mp h
  obtain ⟨after, hafter, h⟩ := bind_eq_ok.mp h
  obtain ⟨environment, henvironment, h⟩ := bind_eq_ok.mp h
  obtain ⟨provides, hprovides, h⟩ := bind_eq_ok.mp h
  obtain ⟨permissions, hpermissions, h⟩ := bind_eq_ok.mp h
  obtain ⟨package, hpackage, h⟩ := bind_eq_ok.mp h
  obtain ⟨name, hname, h⟩ := bind_eq_ok.mp h
  obtain ⟨summary, hsummary, h⟩ := bind_eq_ok.mp h
  obtain ⟨icon, hicon, h⟩ := bind_eq_ok.mp h
  obtain ⟨launchable, -, h⟩ := bind_eq_ok.mp h
  obtain ⟨window, hwindow, h⟩ := bind_eq_ok.mp h
  cases h
  have hproper := closedObject_proper hraw hentries
  obtain ⟨hinitial, hmax, hlimit⟩ := backoff_ok hbackoff
  obtain ⟨harguments, hargument, habsolute⟩ := argv_ok hproper hargv
  obtain ⟨hidle, honDemand, hstarted⟩ := lifecycle_ok hlifecycle
  obtain ⟨hservices, hcount⟩ := provides_ok hprovides
  obtain ⟨hnameText, hnonempty⟩ := boundedString_ok (hproper.get "name" rfl) hname
  have hlaunch : LaunchFields.Bounded ⟨kind, restart, mode, timeout, backoff.initialMs,
      backoff.maxMs, backoff.limit, argv, environment⟩ :=
    ⟨readiness_ok hreadiness, hinitial, hmax, hlimit, harguments, hargument, habsolute,
      environment_ok (hproper.get "env" rfl) henvironment⟩
  refine ⟨⟨identifier_ok hid, (identifiers_ok (hproper.get "after" rfl) hafter).sorted⟩, ?_⟩
  exact
    { launch := hlaunch
      idle := hidle
      onDemand := honDemand
      started := hstarted
      provides := hservices
      services := hcount
      permissions := (permissions_ok hproper hpermissions).sorted
      package := package_ok hproper hpackage
      name := ⟨hnameText, hnonempty rfl⟩
      summary := (boundedString_ok (hproper.get "summary" rfl) hsummary).1
      icon := (boundedString_ok (hproper.get "icon" rfl) hicon).1
      window := windowing_ok hproper hwindow }

/-! ## Documents -/

/-- Components that both programs accept together. -/
structure Arranged {α : Type} (Bounded : α → Prop) (components : List (PlanComponent α)) :
    Prop where
  least : 1 ≤ components.length
  most : components.length ≤ 64
  named : ∀ item ∈ components, Named item
  bounded : ∀ item ∈ components, Bounded item.fields
  orderable : Orderable components
  topological : Topological components

theorem components_ok {α : Type} {Bounded : α → Prop}
    {normalize : Json → ℕ → Except PyError (PlanComponent α)} {root : Dict}
    {ordered : List (PlanComponent α)} (hroot : ProperDict root)
    (hnormalize : ∀ raw index item, proper raw = true → normalize raw index = .ok item →
      Named item ∧ Bounded item.fields)
    (h : components normalize root = .ok ordered) : Arranged Bounded ordered := by
  obtain ⟨items, hitems, h⟩ := bind_eq_ok.mp h
  obtain ⟨normalized, hnormalized, h⟩ := bind_eq_ok.mp h
  split at h
  · rename_i sorted hsorted
    cases h
    have hproper := boundedList_proper (hroot.get "components" rfl) hitems
    obtain ⟨-, hleast, hmost⟩ := boundedList_ok hitems
    obtain ⟨hlength, hmem⟩ := mem_of_zipIdx_mapM hnormalized
    obtain ⟨hreturns, hexact⟩ := topologicalComponents_exact normalized
    obtain ⟨hordered, -⟩ := hexact ordered hsorted
    have hitem : ∀ item ∈ ordered, Named item ∧ Bounded item.fields := by
      intro item hin
      obtain ⟨raw, hraw, index, heq⟩ := hmem item (hordered.perm.mem_iff.mp hin)
      exact hnormalize raw index item (hproper raw hraw) heq
    have hsame := hordered.perm.length_eq
    exact ⟨by omega, by unfold maxComponents at hmost; omega, fun item hin => (hitem item hin).1,
      fun item hin => (hitem item hin).2, (hreturns.mp ⟨_, hsorted⟩).perm hordered.perm,
      hordered.topological⟩
  · cases h

theorem stopGrace_ok {root : Dict} {result : ℕ} (h : stopGrace root = .ok result) :
    100 ≤ result ∧ result ≤ 60000 := integer_ok h

/-- The preferred providers of roles. -/
structure Roles (roles : List (PyStr × List PyStr)) : Prop where
  most : roles.length ≤ 64
  role : ∀ preference ∈ roles, idRe preference.1 = true
  providers : ∀ preference ∈ roles, Ids 1 64 preference.2
  nodup : (roles.map Prod.fst).Nodup

theorem profileRole_ok {entry : PyStr × Json} {result : PyStr × List PyStr}
    (h : profileRole py entry = .ok result) :
    result.1 = entry.1 ∧ idRe entry.1 = true ∧
      identifiers entry.2 (rolesPath ++ lit "." ++ entry.1) 1 maxComponents "1..64 providers"
        "providers" = .ok result.2 := by
  unfold profileRole at h
  split_ifs at h with hrole
  · cases h
  · obtain ⟨providers, hproviders, h⟩ := bind_eq_ok.mp h
    cases h
    exact ⟨rfl, by simpa using hrole, hproviders⟩

theorem profileRoles_ok {value : Json} {result : List (PyStr × List PyStr)}
    (hvalue : proper value = true) (h : profileRoles py value = .ok result) : Roles result := by
  unfold profileRoles at h
  dsimp only at h
  split at h
  · rename_i entries
    split_ifs at h with hmost
    · cases h
    obtain ⟨named, hnamed, h⟩ := bind_eq_ok.mp h
    obtain ⟨hnodup, hlength, hproper⟩ := textEntries_sorted (proper_dict hvalue) hnamed
    have hkeys := mapM_keys (fun entry result hr => (profileRole_ok hr).1) h
    have hmem : ∀ preference ∈ result, idRe preference.1 = true ∧ Ids 1 64 preference.2 := by
      intro preference hpreference
      obtain ⟨entry, hin, heq⟩ := mem_mapM h hpreference
      obtain ⟨hfst, hrole, hproviders⟩ := profileRole_ok heq
      rw [hfst]
      exact ⟨hrole, identifiers_ok (hproper entry hin) hproviders⟩
    refine ⟨?_, fun p hp => (hmem p hp).1, fun p hp => (hmem p hp).2, ?_⟩
    · have hsame := congrArg List.length hkeys
      rw [List.length_map, List.length_map] at hsame
      omega
    · rw [hkeys]
      exact hnodup
  · cases h

structure PlanProfile.Bounded (profile : PlanProfile) : Prop where
  id : idRe profile.id = true
  display : Text 63 profile.display
  roles : Roles profile.roles
  startup : Ids 0 64 profile.startup
  environment : Environment profile.environment

theorem profile_ok {root : Dict} {result : PlanProfile} (hroot : ProperDict root)
    (h : profile py root = .ok result) : result.Bounded := by
  obtain ⟨entries, hentries, h⟩ := bind_eq_ok.mp h
  obtain ⟨id, hid, h⟩ := bind_eq_ok.mp h
  obtain ⟨display, hdisplay, h⟩ := bind_eq_ok.mp h
  obtain ⟨roles, hroles, h⟩ := bind_eq_ok.mp h
  obtain ⟨startup, hstartup, h⟩ := bind_eq_ok.mp h
  obtain ⟨environment, henvironment, h⟩ := bind_eq_ok.mp h
  cases h
  have hproper := closedObject_proper (hroot.get "profile" rfl) hentries
  exact ⟨identifier_ok hid, (boundedString_ok (hproper.get "display" rfl) hdisplay).1,
    profileRoles_ok (hproper.get "roles" rfl) hroles,
    identifiers_ok (hproper.get "startup" rfl) hstartup,
    environment_ok (hproper.get "env" rfl) henvironment⟩

/-- What the profile names is there. -/
structure References (profile : PlanProfile) (components : List (PlanComponent ServiceFields)) :
    Prop where
  startup : ∀ component ∈ profile.startup, component ∈ components.map PlanComponent.id
  provider : ∀ preference ∈ profile.roles, ∀ provider ∈ preference.2,
    ∃ item ∈ components, item.id = provider ∧
      ∃ provided ∈ item.fields.provides, provided.kind = .role ∧ provided.name = preference.1

theorem checkReferences_ok {profile : PlanProfile}
    {components : List (PlanComponent ServiceFields)}
    (h : checkReferences profile components = .ok ()) : References profile components := by
  obtain ⟨⟨⟩, hstartup, hroles⟩ := bind_eq_ok.mp h
  constructor
  · intro component hcomponent
    have hcheck := forM_eq_ok.mp hstartup component hcomponent
    split_ifs at hcheck with hmem
    · exact hmem
    · cases hcheck
  · intro preference hpreference provider hprovider
    have hcheck := forM_eq_ok.mp (forM_eq_ok.mp hroles preference hpreference) provider hprovider
    split_ifs at hcheck with hknown hdeclared
    · obtain ⟨provided, hprovided, hkind⟩ := List.any_eq_true.mp hdeclared
      unfold providesOf at hprovided
      cases hfind : components.find? fun item => item.id == provider with
      | none => simp [hfind] at hprovided
      | some item =>
        rw [hfind] at hprovided
        refine ⟨item, List.mem_of_find?_eq_some hfind, ?_, provided, hprovided, ?_⟩
        · simpa using List.find?_some hfind
        · simpa using hkind
    · cases hcheck
    · cases hcheck

/-- A document that both programs accept. -/
def NormalizedDocument.Bounded : NormalizedDocument → Prop
  | .v1 stopGrace components =>
    (100 ≤ stopGrace ∧ stopGrace ≤ 60000) ∧ Arranged LaunchFields.Bounded components
  | .v2 stopGrace profile components =>
    (100 ≤ stopGrace ∧ stopGrace ≤ 60000) ∧ profile.Bounded ∧
      Arranged ServiceFields.Bounded components ∧ References profile components

theorem normalizeDocument_ok {document : Json} {normalized : NormalizedDocument}
    (hdocument : proper document = true)
    (h : normalizeDocument py document = .ok normalized) : normalized.Bounded := by
  unfold normalizeDocument at h
  split_ifs at h
  · obtain ⟨root, hroot, h⟩ := bind_eq_ok.mp h
    obtain ⟨stopGrace, hstop, h⟩ := bind_eq_ok.mp h
    obtain ⟨profile, hprofile, h⟩ := bind_eq_ok.mp h
    obtain ⟨components, hcomponents, h⟩ := bind_eq_ok.mp h
    obtain ⟨⟨⟩, hreferences, h⟩ := bind_eq_ok.mp h
    cases h
    have hproper := closedObject_proper hdocument hroot
    exact ⟨stopGrace_ok hstop, profile_ok hproper hprofile,
      components_ok hproper (fun _ _ _ => normalizeV2Component_ok) hcomponents,
      checkReferences_ok hreferences⟩
  · obtain ⟨root, hroot, h⟩ := bind_eq_ok.mp h
    split_ifs at h
    · cases h
    obtain ⟨stopGrace, hstop, h⟩ := bind_eq_ok.mp h
    obtain ⟨components, hcomponents, h⟩ := bind_eq_ok.mp h
    cases h
    have hproper := closedObject_proper hdocument hroot
    exact ⟨stopGrace_ok hstop,
      components_ok hproper (fun _ _ _ => normalizeComponent_ok) hcomponents⟩

end MsysCore.Native.PlanSource
