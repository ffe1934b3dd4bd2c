import MsysCore.Lib.Except
import MsysCore.Python.Values

/-!
# The profile contract

`validate_profile` of `profile_contract.py`. Component references are checked for their form
only: a profile may name providers that are installed later.
-/

namespace MsysCore.Core.ProfileContract

open Python

/-- `_fail` -/
def fail {α : Type} (path message : PyStr) : Except PyError α :=
  .error ⟨.valueError, path ++ lit ": " ++ message⟩

/-! ## Patterns -/

def lower (c : ℕ) : Bool := 97 ≤ c && c ≤ 122

def lowerOrDigit (c : ℕ) : Bool := lower c || (48 ≤ c && c ≤ 57)

/-- A full match of `^[first][rest]*$`. -/
def word (first rest : ℕ → Bool) : PyStr → Bool
  | [] => false
  | c :: s => first c && s.all rest

/-- `_PROFILE_ID` and `_ROLE` -/
def rolePattern : PyStr → Bool := word lower fun c => lowerOrDigit c || (lit ".-").contains c

/-- A name as the reference patterns have it behind its first character. -/
def nameChar (c : ℕ) : Bool := lowerOrDigit c || (lit "._-").contains c

/-- `_COMPONENT_REF`: a package id of two segments or more may stand before the name. -/
def componentRef (s : PyStr) : Bool :=
  match s.splitOn 58 with
  | [name] => word lower nameChar name
  | [package, name] =>
    let segments := package.splitOn 46
    2 ≤ segments.length
      && segments.all (word lowerOrDigit fun c => lowerOrDigit c || (lit "_-").contains c)
      && word lower nameChar name
  | _ => false

/-- `_ENV_NAME` -/
def envName : PyStr → Bool :=
  let start (c : ℕ) := lower c || (65 ≤ c && c ≤ 90) || c == 95
  word start fun c => start c || (48 ≤ c && c ≤ 57)

/-- `_EXTENSION` -/
def extension (s : PyStr) : Bool :=
  (lit "x-").isPrefixOf s && word lowerOrDigit nameChar (s.drop (lit "x-").length)

/-! ## Values -/

def object (value : Json) (path : PyStr) : Except PyError Dict :=
  match value with
  | .dict entries => .ok entries
  | _ => fail path (lit "must be an object")

mutual

/-- `_json_value` -/
def jsonValue (path : PyStr) (depth : ℕ) (value : Json) : Except PyError Unit :=
  if 64 < depth then fail path (lit "JSON nesting exceeds 64 levels")
  else
    match value with
    | .float f =>
      match f.value with
      | .finite _ => .ok ()
      | _ => fail path (lit "must be a finite JSON number")
    | .list items => jsonItems path (depth + 1) 0 items
    | .dict entries => jsonEntries path (depth + 1) entries
    | _ => .ok ()

def jsonItems (path : PyStr) (depth index : ℕ) : List Json → Except PyError Unit
  | [] => .ok ()
  | item :: items => do
    jsonValue (path ++ lit "[" ++ intText index ++ lit "]") depth item
    jsonItems path depth (index + 1) items

def jsonEntries (path : PyStr) (depth : ℕ) : List (Json × Json) → Except PyError Unit
  | [] => .ok ()
  | (key, item) :: entries =>
    match key with
    | .str key => do
      jsonValue (path ++ lit "." ++ key) depth item
      jsonEntries path depth entries
    | _ => fail path (lit "JSON object field names must be strings")

end

section

variable (py : Interpreter)

/-- `_string`, with the least and the greatest length and the pattern. -/
def string (value : Json) (path : PyStr) (minimum maximum : ℕ)
    (pattern : PyStr → Bool) : Except PyError PyStr :=
  match value with
  | .str s =>
    if s.length < minimum then
      fail path (lit "must contain at least " ++ intText minimum ++ lit " character(s)")
    else if maximum < s.length then
      fail path (lit "must contain at most " ++ intText maximum ++ lit " character(s)")
    else if 0 ∈ s then fail path (lit "must not contain NUL")
    else if !pattern s then fail path (lit "has invalid format: " ++ reprStr py s)
    else .ok s
  | _ => fail path (lit "must be a string")

/-- No pattern. -/
def anyText (_ : PyStr) : Bool := true

/-- One turn of the loop of `_keys`. -/
def checkField (path : PyStr) (allowed : List String) (entry : Json × Json) :
    Except PyError Unit :=
  match entry.1 with
  | .str key =>
    if (allowed.map lit).contains key then .ok ()
    else if !extension key then
      fail path (lit "unknown field " ++ reprStr py key ++ lit "; extensions must start with x-")
    else jsonValue (path ++ lit "." ++ key) 0 entry.2
  | _ => fail path (lit "field names must be strings")

/-- `_keys` -/
def checkFields (value : Dict) (path : PyStr) (allowed required : List String) :
    Except PyError Unit :=
  let absent := required.filter fun name => (Dict.get? value name).isNone
  match (absent.map lit).insertionSort (· ≤ ·) with
  | [] => value.forM (checkField py path allowed)
  | missing => fail path (lit "missing required field(s): " ++ joinComma missing)

/-- One turn of the loop of `_unique_strings`; `result` are the texts so far. -/
def uniqueString (path : PyStr) (pattern : PyStr → Bool) (result : List PyStr)
    (raw : Json × ℕ) : Except PyError (List PyStr) := do
  let item ← string py raw.1 (path ++ lit "[" ++ intText raw.2 ++ lit "]") 1 255 pattern
  if item ∈ result then fail path (lit "contains duplicate value " ++ reprStr py item)
  else pure (result ++ [item])

def uniqueStrings (value : Json) (path : PyStr) (pattern : PyStr → Bool) (maximumItems : ℕ) :
    Except PyError (List PyStr) :=
  match value with
  | .list items =>
    if maximumItems < items.length then
      fail path (lit "must contain at most " ++ intText maximumItems ++ lit " items")
    else items.zipIdx.foldlM (uniqueString py path pattern) []
  | _ => fail path (lit "must be an array")

/-! ## `validate_profile` -/

def validateProfileId (value : Json) (path : PyStr) : Except PyError PyStr :=
  string py value path 1 128 rolePattern

/-- One turn of the loop over the roles. -/
def validateRole (entry : Json × Json) : Except PyError Unit := do
  let role ← string py entry.1 (lit "$.roles.<name>") 1 128 rolePattern
  let _ ← uniqueStrings py entry.2 (lit "$.roles." ++ role) componentRef 64

def validateRoles (value : Json) : Except PyError Dict := do
  let roles ← object value (lit "$.roles")
  if 256 < roles.length then fail (lit "$.roles") (lit "must contain at most 256 roles")
  else do
    roles.forM (validateRole py)
    pure roles

/-- One turn of the loop over the variables. -/
def validateVariable (entry : Json × Json) : Except PyError Unit := do
  let name ← string py entry.1 (lit "$.env.<name>") 1 255 envName
  let _ ← string py entry.2 (lit "$.env." ++ name) 0 32768 anyText

def validateEnv (value : Json) : Except PyError Unit := do
  let env ← object value (lit "$.env")
  if 1024 < env.length then fail (lit "$.env") (lit "must contain at most 1024 variables")
  else env.forM (validateVariable py)

def validateStateDir (profile : Dict) : Except PyError Unit :=
  match Dict.get? profile "state_dir" with
  | none => .ok ()
  | some value => do
    let stateDir ← string py value (lit "$.state_dir") 1 4096 anyText
    if (lit "/").isPrefixOf stateDir then pure ()
    else fail (lit "$.state_dir") (lit "must be an absolute Linux path")

def validateIsolation (value : Json) : Except PyError Unit := do
  let isolation ← object value (lit "$.isolation")
  checkFields py isolation (lit "$.isolation") ["seccomp_helper"] []
  match Dict.get? isolation "seccomp_helper" with
  | none => pure ()
  | some value => do
    let _ ← string py value (lit "$.isolation.seccomp_helper") 1 4096 anyText

/-- The roles that a profile both lists and disables. -/
def conflicts (roles : Dict) (disabled : List PyStr) : List PyStr :=
  disabled.filter fun role => roles.any fun entry => isKey role entry.1

def checkConflicts (roles : Dict) (disabled : List PyStr) : Except PyError Unit :=
  match (conflicts roles disabled).insertionSort (· ≤ ·) with
  | [] => .ok ()
  | conflicts =>
    fail (lit "$") (lit "roles and disabled_roles conflict for: " ++ joinComma conflicts)

/-- The id that the profile was asked for. -/
def checkExpected (profileId : PyStr) : Option PyStr → Except PyError Unit
  | none => .ok ()
  | some expectedId => do
    let requested ← validateProfileId py (.str expectedId) (lit "$requested_profile")
    if profileId ≠ requested then
      fail (lit "$.id") (lit "must match requested profile " ++ reprStr py requested)
    else pure ()

def validateProfile (data : Json) (expectedId : Option PyStr) : Except PyError Dict := do
  let profile ← object data (lit "$")
  checkFields py profile (lit "$")
    ["schema", "id", "roles", "disabled_roles", "startup", "env", "state_dir", "isolation",
      "settings"]
    ["schema", "id", "roles", "startup"]
  if keyEq (Dict.get profile "schema" .null) (text "msys.profile.v1") = false then
    fail (lit "$.schema") (lit "must equal 'msys.profile.v1'")
  else do
    let profileId ← validateProfileId py (Dict.get profile "id" .null) (lit "$.id")
    checkExpected py profileId expectedId
    let roles ← validateRoles py (Dict.get profile "roles" .null)
    let disabled ← uniqueStrings py (Dict.get profile "disabled_roles" (.list []))
      (lit "$.disabled_roles") rolePattern 256
    checkConflicts roles disabled
    let _ ← uniqueStrings py (Dict.get profile "startup" .null) (lit "$.startup") componentRef 1024
    validateEnv py (Dict.get profile "env" (.dict []))
    validateStateDir py profile
    validateIsolation py (Dict.get profile "isolation" (.dict []))
    let settings ← object (Dict.get profile "settings" (.dict [])) (lit "$.settings")
    jsonValue (lit "$.settings") 0 (.dict settings)
    pure profile

end

/-! ## What a valid profile has -/

/-- The roles and the disabled roles of a valid profile. -/
structure Valid (profile roles : Dict) (disabled : List PyStr) : Prop where
  hasRoles : Dict.get profile "roles" (.dict []) = .dict roles
  role : ∀ entry ∈ roles, ∃ (name : PyStr) (ids : List PyStr),
    entry = (.str name, .list (ids.map .str)) ∧ rolePattern name = true
  hasDisabled : Dict.get profile "disabled_roles" (.list []) = .list (disabled.map .str)
  disabled : ∀ name ∈ disabled, rolePattern name = true

variable {py : Interpreter}

theorem string_eq_ok {value : Json} {path s : PyStr} {minimum maximum : ℕ}
    {pattern : PyStr → Bool} (h : string py value path minimum maximum pattern = .ok s) :
    value = .str s ∧ pattern s = true := by
  unfold string at h
  split at h
  · split_ifs at h with hminimum hmaximum hnul hpattern
    · cases h
    · cases h
    · cases h
    · cases h
    cases h
    exact ⟨rfl, by simpa using hpattern⟩
  · cases h

theorem foldlM_uniqueString {path : PyStr} {pattern : PyStr → Bool} (raws : List (Json × ℕ)) :
    ∀ {before after : List PyStr},
      raws.foldlM (uniqueString py path pattern) before = .ok after →
        ∃ ids : List PyStr, raws.map Prod.fst = ids.map .str ∧ after = before ++ ids ∧
          ∀ id ∈ ids, pattern id = true := by
  induction raws with
  | nil =>
    intro before after h
    cases h
    exact ⟨[], rfl, (List.append_nil _).symm, by simp⟩
  | cons raw raws ih =>
    intro before after h
    rw [List.foldlM_cons] at h
    obtain ⟨middle, hraw, hrest⟩ := bind_eq_ok.mp h
    obtain ⟨item, hitem, hraw⟩ := bind_eq_ok.mp hraw
    split_ifs at hraw with hseen
    · cases hraw
    cases hraw
    obtain ⟨ids, hids, rfl, hpattern⟩ := ih hrest
    obtain ⟨hvalue, hmatch⟩ := string_eq_ok hitem
    exact ⟨item :: ids, by rw [List.map_cons, List.map_cons, hids, hvalue], by simp,
      List.forall_mem_cons.mpr ⟨hmatch, hpattern⟩⟩

theorem uniqueStrings_eq_ok {value : Json} {path : PyStr} {pattern : PyStr → Bool}
    {maximumItems : ℕ} {ids : List PyStr}
    (h : uniqueStrings py value path pattern maximumItems = .ok ids) :
    value = .list (ids.map .str) ∧ ∀ id ∈ ids, pattern id = true := by
  unfold uniqueStrings at h
  split at h
  · split_ifs at h with hlength
    · cases h
    obtain ⟨found, hfound, rfl, hpattern⟩ := foldlM_uniqueString _ h
    rw [List.zipIdx_map_fst] at hfound
    exact ⟨congrArg Json.list hfound, hpattern⟩
  · cases h

theorem validateRole_eq_ok {entry : Json × Json} (h : validateRole py entry = .ok ()) :
    ∃ (name : PyStr) (ids : List PyStr), entry = (.str name, .list (ids.map .str)) ∧
      rolePattern name = true := by
  obtain ⟨name, hname, h⟩ := bind_eq_ok.mp h
  obtain ⟨ids, hids, -⟩ := bind_eq_ok.mp h
  obtain ⟨hkey, hpattern⟩ := string_eq_ok hname
  exact ⟨name, ids, Prod.ext hkey (uniqueStrings_eq_ok hids).1, hpattern⟩

theorem object_eq_ok {value : Json} {path : PyStr} {entries : Dict}
    (h : object value path = .ok entries) : value = .dict entries := by
  unfold object at h
  split at h
  · cases h
    rfl
  · cases h

theorem validateRoles_eq_ok {value : Json} {roles : Dict}
    (h : validateRoles py value = .ok roles) :
    value = .dict roles ∧ ∀ entry ∈ roles, validateRole py entry = .ok () := by
  obtain ⟨found, hfound, h⟩ := bind_eq_ok.mp h
  split_ifs at h with hlength
  · cases h
  obtain ⟨⟨⟩, hcheck, h⟩ := bind_eq_ok.mp h
  cases h
  exact ⟨object_eq_ok hfound, forM_eq_ok.mp hcheck⟩

theorem valid_of_ok {profile result : Dict} {expectedId : Option PyStr}
    (h : validateProfile py (.dict profile) expectedId = .ok result) :
    ∃ roles disabled, Valid profile roles disabled := by
  obtain ⟨entries, hentries, h⟩ := bind_eq_ok.mp h
  cases object_eq_ok hentries
  obtain ⟨⟨⟩, -, h⟩ := bind_eq_ok.mp h
  split_ifs at h with hschema
  · cases h
  obtain ⟨profileId, -, h⟩ := bind_eq_ok.mp h
  obtain ⟨⟨⟩, -, h⟩ := bind_eq_ok.mp h
  obtain ⟨roles, hroles, h⟩ := bind_eq_ok.mp h
  obtain ⟨disabled, hdisabled, -⟩ := bind_eq_ok.mp h
  obtain ⟨hpresent, hcheck⟩ := validateRoles_eq_ok hroles
  obtain ⟨hlist, hpattern⟩ := uniqueStrings_eq_ok hdisabled
  refine ⟨roles, disabled, ?_, fun entry hentry => validateRole_eq_ok (hcheck entry hentry), hlist,
    hpattern⟩
  unfold Dict.get at hpresent ⊢
  cases hget : Dict.get? profile "roles" with
  | none => simp [hget] at hpresent
  | some value =>
    rw [hget] at hpresent
    exact hpresent

end MsysCore.Core.ProfileContract
