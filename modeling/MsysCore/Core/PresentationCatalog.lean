import MsysCore.Core.LocaleTags
import MsysCore.Lib.OrderedDict
import MsysCore.Python.JsonHooks
import MsysCore.Python.Paths

/-!
# Presentation catalogs

`PresentationCatalog.load`: what a catalog file must be.
-/

namespace MsysCore.Core.Presentation

open Python Locale

/-- What `stat` tells of a file. -/
structure FileStat where
  regular : Bool
  size : ℕ

structure FileSystem where
  /-- `Path.resolve(strict=True)` of an absolute path. -/
  resolve : PosixPath → Except PyError PosixPath
  stat : PosixPath → Except PyError FileStat
  readBytes : PosixPath → Except PyError Bytes

/-- The process around the catalogs. None of it changes during a run. -/
structure World where
  py : Interpreter
  unicode : Unicode
  files : FileSystem
  cwd : PosixPath
  cwd_absolute : cwd.root ≠ []
  /-- The containers that the JSON decoder may nest before a `RecursionError`. -/
  depth : ℕ

/-- An instance of `OSError` or `ValueError`. -/
def recoverable (e : PyError) : Bool :=
  e.kind = .osError || e.kind = .valueError || e.kind = .unicodeEncodeError

/-! ## Loading -/

def catalogSchema : String := "msys.i18n.catalog.v1"

def maxCatalogBytes : ℕ := 2 * 1024 * 1024

/-- A `PresentationCatalogError`, which is a `ValueError`. -/
def catalogError {α : Type} (text : PyStr) : Except PyError α := .error ⟨.valueError, text⟩

/-- `_strict_object` -/
def strictObject (py : Interpreter) (pairs : List (PyStr × Json)) : Except PyError Json :=
  (pairs.foldlM (fun result pair =>
    if (OrderedDict.get result pair.1).isSome then
      catalogError (lit "duplicate JSON member " ++ reprStr py pair.1)
    else pure (OrderedDict.set result pair.1 pair.2)) []).map fun result =>
      .dict (result.map fun entry => (.str entry.1, entry.2))

def hooks (py : Interpreter) : JsonHooks where
  object := strictObject py
  constant value := catalogError (lit "non-JSON number " ++ lit value)

structure Catalog where
  defaultLocale : PyStr
  messages : List (PyStr × List (PyStr × PyStr))
  deriving DecidableEq

def readMessage : Json × Json → Except PyError (PyStr × PyStr)
  | (.str key, .str value) =>
    if key = [] ∨ 160 < key.length ∨ 16384 < value.length ∨ 0 ∈ value then
      catalogError (lit "invalid presentation message")
    else pure (key, value)
  | _ => catalogError (lit "invalid presentation message")

section

variable (w : World)

/-- `_normalized_locale(locale) == locale` -/
def isLocale (locale : PyStr) : Bool := normalizedLocale w.unicode locale = some locale

def readLocale : Json × Json → Except PyError (PyStr × List (PyStr × PyStr))
  | (.str locale, .dict values) =>
    if !isLocale w locale || decide (20000 < values.length) then
      catalogError (lit "invalid locale message map")
    else do
      let messages ← values.mapM readMessage
      pure (locale, messages)
  | _ => catalogError (lit "invalid locale message map")

/-- `PresentationCatalog.load` after the document is read. -/
def readCatalog : Json → Except PyError Catalog
  | .dict document =>
    if Dict.get document "schema" .null ≠ text catalogSchema then
      catalogError (lit "unsupported catalog schema")
    else
      match Dict.get document "default_locale" .null, Dict.get document "messages" .null with
      | .str defaultLocale, .dict messages =>
        if !isLocale w defaultLocale || messages.isEmpty || decide (128 < messages.length) ||
            !messages.any fun entry => isKey defaultLocale entry.1 then
          catalogError (lit "invalid locale catalog metadata")
        else do
          let copied ← messages.mapM (readLocale w)
          pure ⟨defaultLocale, copied⟩
      | _, _ => catalogError (lit "invalid locale catalog metadata")
  | _ => catalogError (lit "catalog root must be an object")

/-- The `try` block of `PresentationCatalog.load`. -/
def readDocument (path : PosixPath) : Except PyError Json := do
  let metadata ← w.files.stat path
  if !metadata.regular then catalogError (lit "catalog is not a regular file")
  if maxCatalogBytes < metadata.size then catalogError (lit "catalog exceeds the 2 MiB limit")
  let raw ← w.files.readBytes path
  if maxCatalogBytes < raw.length then catalogError (lit "catalog exceeds the 2 MiB limit")
  let document ← ofOption (utf8Decode raw)
  loadsWith w.py (hooks w.py) w.depth document

/-- `raise PresentationCatalogError(str(exc)) from exc` -/
def asCatalogError (e : PyError) : PyError :=
  if recoverable e then ⟨.valueError, e.text⟩ else e

/-- `PresentationCatalog.load` -/
def load (path : PosixPath) : Except PyError Catalog :=
  ((readDocument w path).mapError asCatalogError).bind (readCatalog w)

end

end MsysCore.Core.Presentation
