import MsysCore.Core.PresentationCatalog
import MsysCore.Lib.RecentCache

/-!
# The catalog cache

`PresentationCatalogCache.get` keeps the catalogs, and the failures to load one, of the last
distinct requests. Over any requests it answers as a load without a cache does, as long as the
manifest paths name a file.
-/

namespace MsysCore.Core.Presentation

open Python

/-! ## Requests -/

def isNameChar (c : ℕ) : Bool :=
  (97 ≤ c && c ≤ 122) || (65 ≤ c && c ≤ 90) || (48 ≤ c && c ≤ 57) || c = 46 || c = 95 || c = 45

/-- `[A-Za-z0-9][A-Za-z0-9._-]*` -/
def isName (name : PyStr) : Bool :=
  name.head?.any (fun c => isNameChar c && c ≠ 46 && c ≠ 95 && c ≠ 45) && name.all isNameChar

/-- `_PACKAGE_RELATIVE_PATH.fullmatch`, and the checks before it. -/
def isRelativePath (text : PyStr) : Bool :=
  !text.isEmpty && decide (text.length ≤ 1024) && !text.contains 0 && (text.splitOn 47).all isName

/-- A `relative_path` that `get` accepts. -/
structure RelativePath where
  text : PyStr
  valid : isRelativePath text = true

def RelativePath.parse : Json → Option RelativePath
  | .str text => if h : isRelativePath text = true then some ⟨text, h⟩ else none
  | _ => none

/-- `relative_path.split("/")` -/
def RelativePath.names (relative : RelativePath) : List PyStr := relative.text.splitOn 47

theorem isPart_of_name {name : PyStr} (h : isName name = true) : IsPart name := by
  obtain ⟨hhead, hall⟩ := Bool.and_eq_true_iff.mp h
  cases name with
  | nil => cases hhead
  | cons c rest =>
    simp only [List.head?_cons, Option.any_some, Bool.and_eq_true, decide_eq_true_eq] at hhead
    refine ⟨List.cons_ne_nil _ _, fun hdot => ?_, fun hslash => ?_⟩
    · exact hhead.1.1.2 (List.cons.inj hdot).1
    · have hchar := List.all_eq_true.mp hall 47 hslash
      revert hchar
      decide

theorem RelativePath.isPart (relative : RelativePath) : ∀ name ∈ relative.names, IsPart name := by
  intro name hname
  have hvalid := relative.valid
  simp only [isRelativePath, Bool.and_eq_true] at hvalid
  exact isPart_of_name (List.all_eq_true.mp hvalid.2 name hname)

structure Request where
  manifestPath : PosixPath
  relativePath : Json

/-! ## The cache -/

abbrev CacheKey := PyStr × PyStr

structure Cache where
  limit : ℕ
  limit_pos : 0 < limit
  entries : List (CacheKey × Option Catalog)

/-- `PresentationCatalogCache(limit)` -/
def Cache.new (limit : ℤ) : Cache where
  limit := (max 1 limit).toNat
  limit_pos := by omega
  entries := []

section

variable (w : World)

def cacheKey (manifestPath : PosixPath) (relative : RelativePath) : CacheKey :=
  ((w.cwd.absolute manifestPath).str, relative.text)

/-- `path.resolve(strict=True)` -/
def resolve (path : PosixPath) : Except PyError PosixPath :=
  w.files.resolve (w.cwd.absolute path)

/-- The `try` block of `get`. -/
def loadBelow (manifestPath : PosixPath) (relative : RelativePath) : Except PyError Catalog := do
  let packageRoot ← resolve w manifestPath.parent
  let candidate := packageRoot.joinpath relative.names relative.isPart
  let resolved ← resolve w candidate
  if !resolved.isRelativeTo packageRoot then
    raise .valueError "is not in the subpath of the package root"
  load w resolved

/-- The `try` statement of `get`. -/
def loadOrNone (manifestPath : PosixPath) (relative : RelativePath) :
    Except PyError (Option Catalog) :=
  match loadBelow w manifestPath relative with
  | .ok catalog => .ok (some catalog)
  | .error e => if recoverable e then .ok none else .error e

/-- `PresentationCatalogCache.get` -/
def get (cache : Cache) (request : Request) : Except PyError (Option Catalog) × Cache :=
  match RelativePath.parse request.relativePath with
  | none => (.ok none, cache)
  | some relative =>
    let key := cacheKey w request.manifestPath relative
    match OrderedDict.get cache.entries key with
    | some value =>
      (.ok value, { cache with entries := RecentCache.touch cache.entries key value })
    | none =>
      match loadOrNone w request.manifestPath relative with
      | .error e => (.error e, cache)
      | .ok catalog =>
        (.ok catalog,
          { cache with entries := RecentCache.store cache.limit cache.entries key catalog })

/-- The answers to some requests, and the cache after them. -/
def run : Cache → List Request → List (Except PyError (Option Catalog)) × Cache
  | cache, [] => ([], cache)
  | cache, request :: requests =>
    let (answer, cache) := get w cache request
    let (answers, cache) := run cache requests
    (answer :: answers, cache)

/-! ## Answers without a cache -/

/-- What `get` answers when it remembers nothing. -/
def uncached (request : Request) : Except PyError (Option Catalog) :=
  match RelativePath.parse request.relativePath with
  | none => .ok none
  | some relative => loadOrNone w request.manifestPath relative

/-- The key of a request with a valid path. -/
def requestKey (request : Request) : Option CacheKey :=
  (RelativePath.parse request.relativePath).map (cacheKey w request.manifestPath)

/-- The key of a request that is valid and does not raise. -/
def answeredKey (request : Request) : Option CacheKey :=
  match uncached w request with
  | .ok _ => requestKey w request
  | .error _ => none

def answeredKeys (requests : List Request) : List CacheKey := requests.filterMap (answeredKey w)

/-- The path is refused, missing, leads out of the package, or is no catalog. -/
inductive Refused (request : Request) : Prop
  | invalid (hparse : RelativePath.parse request.relativePath = none)
  | missingRoot {relative : RelativePath} {e : PyError}
      (hparse : RelativePath.parse request.relativePath = some relative)
      (hroot : resolve w request.manifestPath.parent = .error e) (he : recoverable e = true)
  | missing {relative : RelativePath} {root : PosixPath} {e : PyError}
      (hparse : RelativePath.parse request.relativePath = some relative)
      (hroot : resolve w request.manifestPath.parent = .ok root)
      (hfile : resolve w (root.joinpath relative.names relative.isPart) = .error e)
      (he : recoverable e = true)
  | escaping {relative : RelativePath} {root resolved : PosixPath}
      (hparse : RelativePath.parse request.relativePath = some relative)
      (hroot : resolve w request.manifestPath.parent = .ok root)
      (hfile : resolve w (root.joinpath relative.names relative.isPart) = .ok resolved)
      (houtside : resolved.isRelativeTo root = false)
  | malformed {relative : RelativePath} {root resolved : PosixPath} {e : PyError}
      (hparse : RelativePath.parse request.relativePath = some relative)
      (hroot : resolve w request.manifestPath.parent = .ok root)
      (hfile : resolve w (root.joinpath relative.names relative.isPart) = .ok resolved)
      (hinside : resolved.isRelativeTo root = true)
      (hload : load w resolved = .error e) (he : recoverable e = true)

variable {w}

theorem uncached_of_refused {request : Request} (h : Refused w request) :
    uncached w request = .ok none := by
  have hnone : ∀ {relative e}, RelativePath.parse request.relativePath = some relative →
      loadBelow w request.manifestPath relative = .error e → recoverable e = true →
        uncached w request = .ok none := by
    intro relative e hparse hload he
    simp only [uncached, hparse, loadOrNone, hload, he, if_true]
  cases h with
  | invalid hparse => simp only [uncached, hparse]
  | missingRoot hparse hroot he =>
    refine hnone hparse ?_ he
    rw [loadBelow, hroot]
    rfl
  | missing hparse hroot hfile he =>
    refine hnone hparse ?_ he
    simp only [loadBelow, hroot, hfile, bind, Except.bind]
  | @escaping relative root resolved hparse hroot hfile houtside =>
    have hload : loadBelow w request.manifestPath relative =
        raise .valueError "is not in the subpath of the package root" := by
      simp [loadBelow, hroot, hfile, houtside, raise, bind, Except.bind]
    exact hnone hparse hload rfl
  | malformed hparse hroot hfile hinside hload he =>
    refine hnone hparse ?_ he
    simp [loadBelow, hroot, hfile, hinside, hload, bind, Except.bind]

/-- No request names the working directory by `.` while another spells it out. -/
def OneName (w : World) (requests : List Request) : Prop :=
  ∀ r ∈ requests, ∀ r' ∈ requests, r.manifestPath = .dot → r'.manifestPath ≠ w.cwd

/-- The absolute path says where the package is, but for the two names of the working
directory: the parent of `.` is `.`. -/
theorem resolve_parent_congr {p p' : PosixPath} (h : p = .dot → p' ≠ w.cwd)
    (h' : p' = .dot → p ≠ w.cwd) (heq : w.cwd.absolute p = w.cwd.absolute p') :
    resolve w p.parent = resolve w p'.parent := by
  by_cases hp : p = .dot
  · subst hp
    rw [PosixPath.absolute_dot] at heq
    rw [(PosixPath.eq_of_absolute_eq_cwd heq.symm).resolve_right (h rfl)]
  · by_cases hp' : p' = .dot
    · subst hp'
      rw [PosixPath.absolute_dot] at heq
      exact absurd ((PosixPath.eq_of_absolute_eq_cwd heq).resolve_right (h' rfl)) hp
    · rw [resolve, resolve, PosixPath.absolute_parent w.cwd hp,
        PosixPath.absolute_parent w.cwd hp', heq]

/-- Two requests with one key have one answer. -/
theorem uncached_congr {requests : List Request} (hnames : OneName w requests)
    {r r' : Request} (hr : r ∈ requests) (hr' : r' ∈ requests) {key : CacheKey}
    (hkey : requestKey w r = some key) (hkey' : requestKey w r' = some key) :
    uncached w r = uncached w r' := by
  obtain ⟨relative, hparse, hrelative⟩ := Option.map_eq_some_iff.mp hkey
  obtain ⟨relative', hparse', hrelative'⟩ := Option.map_eq_some_iff.mp hkey'
  obtain ⟨hstr, htext⟩ := Prod.mk.inj (hrelative.trans hrelative'.symm)
  have hsame : relative = relative' := by
    cases relative
    cases relative'
    simp only at htext
    subst htext
    rfl
  have habsolute : w.cwd.absolute r.manifestPath = w.cwd.absolute r'.manifestPath :=
    PosixPath.str_injective (PosixPath.root_absolute w.cwd_absolute _)
      (PosixPath.root_absolute w.cwd_absolute _) hstr
  have hroot := resolve_parent_congr (hnames r hr r' hr') (hnames r' hr' r hr) habsolute
  simp only [uncached, hparse, hparse', loadOrNone, loadBelow, hroot, hsame]

/-- A value that answers every request of its key. -/
def Loaded (w : World) (requests : List Request) (key : CacheKey) (value : Option Catalog) :
    Prop :=
  ∀ r ∈ requests, requestKey w r = some key → uncached w r = .ok value

/-! ## Runs -/

/-- The cache holds the answers of the last distinct ones of the `past` requests; `requests` are
those of the whole run. -/
def Remembers (w : World) (requests : List Request) (cache : Cache) (past : List Request) :
    Prop :=
  RecentCache.Recent cache.limit (Loaded w requests) (answeredKeys w past) cache.entries

theorem remembers_new (w : World) (requests : List Request) (limit : ℤ) :
    Remembers w requests (Cache.new limit) [] :=
  RecentCache.recent_nil

theorem answeredKeys_concat (past : List Request) (request : Request) :
    answeredKeys w (past ++ [request]) =
      answeredKeys w past ++ (answeredKey w request).toList := by
  rw [answeredKeys, List.filterMap_append]
  cases h : answeredKey w request <;> simp [answeredKeys, h]

theorem get_remembers {requests : List Request} (hnames : OneName w requests) {cache : Cache}
    {past : List Request} (h : Remembers w requests cache past) {request : Request}
    (hmem : request ∈ requests) :
    (get w cache request).1 = uncached w request ∧ (get w cache request).2.limit = cache.limit ∧
      Remembers w requests (get w cache request).2 (past ++ [request]) := by
  unfold Remembers at h ⊢
  rw [answeredKeys_concat]
  cases hparse : RelativePath.parse request.relativePath with
  | none =>
    have hkey : answeredKey w request = none := by
      simp [answeredKey, uncached, requestKey, hparse]
    have hget : get w cache request = (.ok none, cache) := by
      rw [get]
      simp only [hparse]
    rw [hget, hkey]
    refine ⟨by simp only [uncached, hparse], rfl, ?_⟩
    simpa using h
  | some relative =>
    have hkey : requestKey w request = some (cacheKey w request.manifestPath relative) := by
      rw [requestKey, hparse]
      rfl
    have huncached : uncached w request = loadOrNone w request.manifestPath relative := by
      rw [uncached]
      simp only [hparse]
    cases hentry : OrderedDict.get cache.entries (cacheKey w request.manifestPath relative) with
    | some value =>
      have hvalue := h.get hentry request hmem hkey
      have hanswered : answeredKey w request = some (cacheKey w request.manifestPath relative) := by
        rw [answeredKey, hvalue]
        exact hkey
      have hget : get w cache request = (.ok value, { cache with
          entries := RecentCache.touch cache.entries
            (cacheKey w request.manifestPath relative) value }) := by
        rw [get]
        simp only [hparse, hentry]
      rw [hget, hanswered]
      exact ⟨hvalue.symm, rfl, h.touch hentry⟩
    | none =>
      cases hload : loadOrNone w request.manifestPath relative with
      | error e =>
        have hanswered : answeredKey w request = none := by
          rw [answeredKey, huncached, hload]
        have hget : get w cache request = (.error e, cache) := by
          rw [get]
          simp only [hparse, hentry, hload]
        rw [hget, hanswered]
        refine ⟨by rw [huncached, hload], rfl, ?_⟩
        simpa using h
      | ok catalog =>
        have hvalue : uncached w request = .ok catalog := huncached.trans hload
        have hanswered :
            answeredKey w request = some (cacheKey w request.manifestPath relative) := by
          rw [answeredKey, hvalue]
          exact hkey
        have hget : get w cache request = (.ok catalog, { cache with
            entries := RecentCache.store cache.limit cache.entries
              (cacheKey w request.manifestPath relative) catalog }) := by
          rw [get]
          simp only [hparse, hentry, hload]
        rw [hget, hanswered]
        have hloaded : Loaded w requests (cacheKey w request.manifestPath relative) catalog :=
          fun r hr hrkey => (uncached_congr hnames hr hmem hrkey hkey).trans hvalue
        exact ⟨hvalue.symm, rfl, h.store cache.limit_pos hentry hloaded⟩

theorem run_remembers {requests : List Request} (hnames : OneName w requests)
    {future : List Request} (hfuture : future ⊆ requests) {cache : Cache} {past : List Request}
    (h : Remembers w requests cache past) :
    (run w cache future).1 = future.map (uncached w) ∧
      (run w cache future).2.limit = cache.limit ∧
      Remembers w requests (run w cache future).2 (past ++ future) := by
  induction future generalizing cache past with
  | nil => exact ⟨rfl, rfl, by rwa [List.append_nil]⟩
  | cons request future ih =>
    obtain ⟨hmem, hrest⟩ := List.cons_subset.mp hfuture
    obtain ⟨hanswer, hlimit, hstep⟩ := get_remembers hnames h hmem
    obtain ⟨hanswers, hlimit', hrun⟩ := ih hrest hstep
    refine ⟨?_, hlimit'.trans hlimit, ?_⟩
    · rw [List.map_cons, ← hanswer, ← hanswers]
      rfl
    · rwa [List.append_assoc] at hrun

theorem exists_of_answeredKeys {requests : List Request} {key : CacheKey}
    (h : key ∈ answeredKeys w requests) : ∃ r ∈ requests, requestKey w r = some key := by
  obtain ⟨r, hr, hkey⟩ := List.mem_filterMap.mp h
  refine ⟨r, hr, ?_⟩
  unfold answeredKey at hkey
  split at hkey
  · exact hkey
  · cases hkey

end

/-- Every call answers as a load without the cache does, with nothing for a request that is
refused; the cache holds at most its limit, and exactly the answers of the last distinct keys. -/
theorem run_answers_uncached (w : World) (limit : ℤ) (requests : List Request)
    (hnames : OneName w requests) :
    (run w (Cache.new limit) requests).1 = requests.map (uncached w) ∧
      (∀ r ∈ requests, Refused w r → uncached w r = .ok none) ∧
      ((run w (Cache.new limit) requests).2.entries.length : ℤ) ≤ max 1 limit ∧
      (run w (Cache.new limit) requests).2.entries.map Prod.fst =
        RecentCache.recent (max 1 limit).toNat (answeredKeys w requests) ∧
      ∀ entry ∈ (run w (Cache.new limit) requests).2.entries,
        ∃ r ∈ requests, requestKey w r = some entry.1 ∧ uncached w r = .ok entry.2 := by
  obtain ⟨hanswers, hlimit, hcache⟩ :=
    run_remembers hnames (List.Subset.refl requests) (remembers_new w requests limit)
  have hnew : (Cache.new limit).limit = (max 1 limit).toNat := rfl
  unfold Remembers at hcache
  rw [hlimit, hnew, List.nil_append] at hcache
  refine ⟨hanswers, fun r _ => uncached_of_refused, ?_, hcache.keys, fun entry hentry => ?_⟩
  · have hlength := hcache.length_le
    omega
  · have hkey : entry.1 ∈ answeredKeys w requests := by
      have hrecent : entry.1 ∈ RecentCache.recent (max 1 limit).toNat (answeredKeys w requests) :=
        hcache.keys ▸ List.mem_map_of_mem hentry
      exact List.mem_dedup.mp (List.mem_of_mem_drop hrecent)
    obtain ⟨r, hr, hrkey⟩ := exists_of_answeredKeys hkey
    exact ⟨r, hr, hrkey, hcache.values entry hentry r hr hrkey⟩

/-- `/srv/<name>`, or `/srv` itself. -/
def srv (names : List String) (h : ∀ p ∈ ("srv" :: names).map lit, IsPart p) : PosixPath where
  root := [47]
  parts := ("srv" :: names).map lit
  root_slashes := by decide
  parts_form := h

def englishCatalog : PyStr :=
  lit "\x7b\"schema\":\"msys.i18n.catalog.v1\",\"default_locale\":\"en\"," ++
    lit "\"messages\":\x7b\"en\":\x7b\x7d\x7d\x7d"

/-- A process in `/srv`, where `c.json` is the only file. -/
def srvWorld : World where
  py := bareInterpreter
  unicode := plainUnicode
  files := {
    resolve := fun path => .ok path
    stat := fun _ => .ok ⟨true, 100⟩
    readBytes := fun path =>
      if path.parts = ["srv", "c.json"].map lit then .ok (englishCatalog.map UInt8.ofNat)
      else raise .osError "No such file or directory" }
  cwd := srv [] (by decide)
  cwd_absolute := by decide
  depth := 100

def srvRequests : List Request :=
  [⟨srv ["manifest.json"] (by decide), text "c.json"⟩,
    ⟨srv ["manifest.json"] (by decide), text "d.json"⟩,
    ⟨srv ["manifest.json"] (by decide), text "../c.json"⟩]

theorem run_answers_uncached_srv :
    OneName srvWorld srvRequests ∧
      (run srvWorld (Cache.new 1) srvRequests).1 = srvRequests.map (uncached srvWorld) ∧
      (run srvWorld (Cache.new 1) srvRequests).2.entries.map Prod.fst =
        RecentCache.recent 1 (answeredKeys srvWorld srvRequests) := by
  have hnames : OneName srvWorld srvRequests := by
    unfold OneName
    decide
  obtain ⟨hanswers, -, -, hkeys, -⟩ := run_answers_uncached srvWorld 1 srvRequests hnames
  exact ⟨hnames, hanswers, hkeys⟩

/-- The working directory as a manifest path, by `.` and then by its own path: the second is
answered with the catalog of the first, though its package is the parent. -/
theorem dot_shares_key :
    (run srvWorld (Cache.new 1)
        [⟨.dot, text "c.json"⟩, ⟨srv [] (by decide), text "c.json"⟩]).1 ≠
      [⟨.dot, text "c.json"⟩, ⟨srv [] (by decide), text "c.json"⟩].map (uncached srvWorld) := by
  decide +kernel

end MsysCore.Core.Presentation
