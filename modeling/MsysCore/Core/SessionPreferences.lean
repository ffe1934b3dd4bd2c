import MsysCore.Core.LocaleAgreement
import MsysCore.Lib.Runs
import MsysCore.Python.CodecRoundTrip

/-!
# The session preferences on disk

`_load_session_preferences`, `_persist_session_preferences` and the part of
`set_session_preferences` that stores a language. The file is written under another name
and moved into place, so a daemon that is killed leaves the old file or the new one. In
every run the file is the one of the last language that was moved into place, and a
daemon that starts reads that language back.

`read_text` also turns line ends into line feeds. Both are white space to the scanner, and
neither may stand in a string.
-/

namespace MsysCore.Core.Session

open Python Locale Runs

def sessionPreferencesSchema : String := "msys.session-preferences.v1"

/-- What comes of the write and the move. -/
inductive Write
  | done
  /-- An `OSError` before the move. -/
  | refused
  /-- An `OSError` of the `unlink` after the move. -/
  | notRemoved
  /-- The daemon ends in the middle, before or after the move. -/
  | killed (moved : Bool)
  deriving DecidableEq

structure SessionState where
  up : Bool := false
  language : PyStr := lit "system"
  /-- The file of the preferences; `none` where it can not be read. -/
  file : Option Bytes
  /-- Ghost: the language of the last file that was moved into place. -/
  stored : Option PyStr := none

inductive Label
  | start
  | set (value : Json) (write : Write)

section

variable (py : Interpreter) (u : Unicode)

/-- `_validate_session_language`; `none` stands for its `ValueError`. -/
def validateSessionLanguage (value : Json) : Option PyStr :=
  let language := u.strip (toStr py value)
  if language = lit "system" then some language
  else (normalizeMsysLocale u language).filter fun normalized => normalized = language

def sessionDocument (language : PyStr) : Dict :=
  record [("schema", text sessionPreferencesSchema), ("language", .str language)]

/-- What `_persist_session_preferences` writes. -/
def sessionFile (language : PyStr) : Except PyError Bytes :=
  utf8Encode (dumps (.dict (sessionDocument language)) ++ [10])

/-- The language `_load_session_preferences` leaves the daemon with. An integer over the digit
limit ends it, since its error is not a `JSONDecodeError`. -/
def loadSessionPreferences (file : Option Bytes) (language : PyStr) : Except PyError PyStr :=
  match file.bind utf8Decode with
  | none => .ok language
  | some s =>
    match loads py s with
    | .error .invalid => .ok language
    | .error .digitLimit => raise .valueError "Exceeds the limit (4300 digits)"
    | .ok (.dict data) =>
      if Dict.get? data "schema" = some (text sessionPreferencesSchema) then
        .ok ((validateSessionLanguage py u
          (Dict.get data "language" (text "system"))).getD language)
      else .ok language
    | .ok _ => .ok language

/-- `set_session_preferences` from the validated language on. An error of the encoder is not an
`OSError`, so it would leave the new language in place. -/
def storeLanguage (s : SessionState) (language : PyStr) (write : Write) : SessionState :=
  match sessionFile language with
  | .error _ => { s with language := language }
  | .ok data =>
    match write with
    | .done => { s with language := language, file := some data, stored := some language }
    | .refused => s
    | .notRemoved => { s with file := some data, stored := some language }
    | .killed moved =>
      if moved then { s with up := false, file := some data, stored := some language }
      else { s with up := false }

/-- `Msysd.__init__` as far as the preferences go. -/
def startDaemon (s : SessionState) : SessionState :=
  match loadSessionPreferences py u s.file (lit "system") with
  | .ok language => { s with up := true, language := language }
  | .error _ => { s with up := false }

def setLanguage (s : SessionState) (value : Json) (write : Write) : SessionState :=
  match validateSessionLanguage py u value with
  | none => s
  | some language => storeLanguage s language write

def step (s : SessionState) : Label → Option SessionState
  | .start => some (startDaemon py u s)
  | .set value write => if s.up then some (setLanguage py u s value write) else none

end

def initial (file : Option Bytes) : SessionState := { file := file }

/-! ## The languages that are stored -/

/-- The languages that `_validate_session_language` returns. -/
def SessionLanguage (u : Unicode) (language : PyStr) : Prop :=
  language = lit "system" ∨
    (canonicalLocale language = true ∧ normalizeMsysLocale u language = some language)

variable {py : Interpreter} {u : Unicode}

theorem strip_system : u.strip (lit "system") = lit "system" := by
  apply strip_self
  intro c hc
  have hlower : 97 ≤ c ∧ c ≤ 122 := by
    revert c
    decide
  rw [u.space_ascii c (by omega)]
  simp
  omega

theorem canonicalLocale_of_normalize {s t : PyStr} (h : normalizeMsysLocale u s = some t) :
    canonicalLocale t = true := by
  unfold normalizeMsysLocale at h
  simp only at h
  split_ifs at h
  exact canonicalLocale_of_msys h

theorem sessionLanguage_of_validate {value : Json} {language : PyStr}
    (h : validateSessionLanguage py u value = some language) : SessionLanguage u language := by
  unfold validateSessionLanguage at h
  simp only at h
  split_ifs at h with hsystem
  · cases h
    exact Or.inl hsystem
  · obtain ⟨hread, hsame⟩ := Option.filter_eq_some_iff.mp h
    obtain rfl : language = u.strip (toStr py value) := of_decide_eq_true hsame
    exact Or.inr ⟨canonicalLocale_of_normalize hread, hread⟩

/-- A stored language is accepted again when it is read. -/
theorem validate_sessionLanguage {language : PyStr} (h : SessionLanguage u language) :
    validateSessionLanguage py u (.str language) = some language := by
  unfold validateSessionLanguage
  rcases h with rfl | ⟨hcanonical, hread⟩
  · simp [toStr, strip_system]
  · obtain ⟨-, hstrip, -, -⟩ := plain_of_canonical (u := u) hcanonical
    simp only [toStr, hstrip, hread]
    simp

theorem ascii_of_sessionLanguage {language : PyStr} (h : SessionLanguage u language) :
    ∀ c ∈ language, c < 128 := by
  rcases h with rfl | ⟨hcanonical, -⟩
  · decide
  · intro c hc
    rcases chars_of_canonical hcanonical c hc with htag | rfl
    · exact lt_of_tagChar htag
    · decide

/-! ## The file -/

theorem readable_sessionDocument {language : PyStr} (h : ∀ c ∈ language, c < 128) :
    (Json.dict (sessionDocument language)).Readable py := by
  have hschema : CodePoints (lit "schema") := codePoints_of_ascii (by decide)
  have hvalue : CodePoints (lit sessionPreferencesSchema) := codePoints_of_ascii (by decide)
  have hlanguage : CodePoints (lit "language") := codePoints_of_ascii (by decide)
  exact ⟨rfl, hschema, hvalue, rfl, hlanguage, codePoints_of_ascii h, trivial⟩

theorem proper_sessionDocument (language : PyStr) :
    (Json.dict (sessionDocument language)).Proper := by
  refine ⟨⟨?_, ?_⟩, trivial, trivial, trivial⟩
  · simp [sessionDocument, record]
  · simp [sessionDocument, record]
    decide

theorem clean_sessionDocument {language : PyStr} (h : ∀ c ∈ language, c < 128) :
    (Json.dict (sessionDocument language)).clean = true := by
  have hlanguage : language.any isSurrogate = false := by
    rw [List.any_eq_false]
    intro c hc
    have hlt := h c hc
    simp [isSurrogate]
    omega
  have hkeys : (lit "schema").any isSurrogate = false ∧ (lit "language").any isSurrogate = false ∧
      (lit sessionPreferencesSchema).any isSurrogate = false := by decide
  simp [sessionDocument, record, text, Json.clean, cleanEntries, keyText, hlanguage, hkeys]

theorem scalar_sessionDocument {language : PyStr} (h : ∀ c ∈ language, c < 128) :
    ∀ c ∈ dumps (.dict (sessionDocument language)) ++ [10], Scalar c := by
  intro c hc
  rcases List.mem_append.mp hc with hc | hc
  · have hreadable : (Json.dict (sessionDocument language)).Readable bareInterpreter :=
      readable_sessionDocument h
    exact scalar_dumps hreadable (clean_sessionDocument h) c hc
  · rw [List.mem_singleton.mp hc]
    exact ⟨by decide, by decide⟩

/-- The file of a session language can be written. -/
theorem sessionFile_eq {language : PyStr} (h : SessionLanguage u language) :
    sessionFile language =
      .ok ((dumps (.dict (sessionDocument language)) ++ [10]).flatMap utf8Char) := by
  have hscalar := scalar_sessionDocument (ascii_of_sessionLanguage h)
  have hany : (dumps (.dict (sessionDocument language)) ++ [10]).any isSurrogate = false := by
    rw [List.any_eq_false]
    intro c hc
    simp [(hscalar c hc).2]
  rw [sessionFile, utf8Encode, hany]
  rfl

/-- The file of a session language is read as that language. -/
theorem load_sessionFile {language : PyStr} (h : SessionLanguage u language) {data : Bytes}
    (hdata : sessionFile language = .ok data) (other : PyStr) :
    loadSessionPreferences py u (some data) other = .ok language := by
  have hascii := ascii_of_sessionLanguage h
  obtain ⟨hkeys, hvalues⟩ := proper_sessionDocument language
  have himage : wireEntries [] (sessionDocument language) = sessionDocument language :=
    wireEntries_of_proper _ hvalues [] hkeys
  have hloads : loads py (dumps (.dict (sessionDocument language)) ++ [10]) =
      .ok (.dict (sessionDocument language)) := by
    rw [loads_dumps (readable_sessionDocument hascii)
      (closed_cons [] (Or.inr (Or.inr (Or.inr rfl)))) rfl, himage]
  rw [sessionFile_eq h] at hdata
  obtain rfl := Except.ok.inj hdata
  unfold loadSessionPreferences
  rw [Option.bind_some, utf8Decode_flatMap (scalar_sessionDocument hascii)]
  dsimp only
  rw [hloads]
  simp only [sessionDocument, Dict.get, get?_record_cons]
  simp [validate_sessionLanguage h]

/-! ## Runs -/

/-- The file is the one the daemon found, or that of the stored language. -/
structure FileOk (u : Unicode) (found : Option Bytes) (s : SessionState) : Prop where
  untouched : s.stored = none → s.file = found
  stored : ∀ language, s.stored = some language →
    SessionLanguage u language ∧ ∃ data, sessionFile language = .ok data ∧ s.file = some data

/-- A daemon that runs has the language that it would start with. -/
def Current (py : Interpreter) (u : Unicode) (s : SessionState) : Prop :=
  s.up = true → loadSessionPreferences py u s.file (lit "system") = .ok s.language

section

variable {found : Option Bytes} {s s' : SessionState}

theorem FileOk.keep (h : FileOk u found s) (hfile : s'.file = s.file)
    (hstored : s'.stored = s.stored) : FileOk u found s' := by
  constructor
  · rw [hfile, hstored]
    exact h.untouched
  · rw [hfile, hstored]
    exact h.stored

theorem fileOk_moved {language : PyStr} {data : Bytes} (hlanguage : SessionLanguage u language)
    (hdata : sessionFile language = .ok data) (hfile : s'.file = some data)
    (hstored : s'.stored = some language) : FileOk u found s' where
  untouched hnone := by
    rw [hstored] at hnone
    cases hnone
  stored other hother := by
    rw [hstored] at hother
    cases hother
    exact ⟨hlanguage, data, hdata, hfile⟩

theorem storeLanguage_fileOk {language : PyStr} (hlanguage : SessionLanguage u language)
    (write : Write) (h : FileOk u found s) : FileOk u found (storeLanguage s language write) := by
  have hdata := sessionFile_eq hlanguage
  unfold storeLanguage
  rw [hdata]
  cases write with
  | done => exact fileOk_moved hlanguage hdata rfl rfl
  | refused => exact h
  | notRemoved => exact fileOk_moved hlanguage hdata rfl rfl
  | killed moved =>
    cases moved with
    | true => exact fileOk_moved hlanguage hdata rfl rfl
    | false => exact h.keep rfl rfl

theorem step_fileOk {label : Label} (h : FileOk u found s)
    (hstep : step py u s label = some s') : FileOk u found s' := by
  cases label with
  | start =>
    cases hstep
    unfold startDaemon
    split
    · exact h.keep rfl rfl
    · exact h.keep rfl rfl
  | set value write =>
    rw [step] at hstep
    split_ifs at hstep
    cases hstep
    unfold setLanguage
    split
    · exact h
    · rename_i language hvalid
      exact storeLanguage_fileOk (sessionLanguage_of_validate hvalid) write h

/-- The name the file was written under goes away with the move. -/
def Removed : Label → Prop
  | .set _ write => write ≠ .notRemoved
  | .start => True

theorem storeLanguage_current {language : PyStr} {write : Write}
    (hlanguage : SessionLanguage u language) (hremoved : write ≠ .notRemoved)
    (h : Current py u s) : Current py u (storeLanguage s language write) := by
  have hdata := sessionFile_eq hlanguage
  unfold storeLanguage
  rw [hdata]
  cases write with
  | done => exact fun _ => load_sessionFile hlanguage hdata _
  | refused => exact h
  | notRemoved => exact absurd rfl hremoved
  | killed moved => cases moved <;> exact fun hup => absurd hup Bool.false_ne_true

theorem step_current {label : Label} (h : Current py u s) (hremoved : Removed label)
    (hstep : step py u s label = some s') : Current py u s' := by
  cases label with
  | start =>
    cases hstep
    unfold startDaemon
    split
    · rename_i language hload
      exact fun _ => hload
    · exact fun hup => absurd hup Bool.false_ne_true
  | set value write =>
    rw [step] at hstep
    split_ifs at hstep
    cases hstep
    unfold setLanguage
    split
    · exact h
    · rename_i language hvalid
      exact storeLanguage_current (sessionLanguage_of_validate hvalid) hremoved h

/-- In every run, whatever fails and wherever the daemon is killed, a start finds the language
whose file was moved into place last, or the file that was there. A daemon that runs has the
language a start would find, as long as the `unlink` after a move does not fail. -/
theorem run_session {labels : List Label}
    (hrun : run (step py u) (initial found) labels = some s) :
    (s.stored = none → s.file = found) ∧
      (∀ language, s.stored = some language →
        loadSessionPreferences py u s.file (lit "system") = .ok language) ∧
      ((∀ label ∈ labels, Removed label) → Current py u s) := by
  have hfile : FileOk u found s :=
    run_invariant_all (fun _ _ _ => step_fileOk) labels
      ⟨fun _ => rfl, fun language h => by cases h⟩ hrun
  refine ⟨hfile.untouched, fun language hstored => ?_, fun hremoved => ?_⟩
  · obtain ⟨hlanguage, data, hdata, hsome⟩ := hfile.stored language hstored
    rw [hsome]
    exact load_sessionFile hlanguage hdata _
  · have hstep (s : SessionState) (label : Label) (s' : SessionState) (h : Current py u s)
        (hremoved : Removed label) (hstep : step py u s label = some s') : Current py u s' :=
      step_current h hremoved hstep
    refine run_invariant hstep labels (fun hup => absurd hup Bool.false_ne_true) ?_ hrun
    exact along_of_forall labels (fun label hlabel _ => hremoved label hlabel) _

end

/-- A language is stored; the daemon is killed while it stores another one, and starts again. -/
def killedRun : List Label :=
  [.start, .set (text "de-DE") .done, .set (text "fr") (.killed false), .start]

theorem run_session_killed :
    ∃ s, run (step bareInterpreter plainUnicode) (initial none) killedRun = some s ∧
      s.up = true ∧ s.language = lit "de-DE" ∧
      loadSessionPreferences bareInterpreter plainUnicode s.file (lit "system") =
        .ok (lit "de-DE") := by
  have hends : (run (step bareInterpreter plainUnicode) (initial none) killedRun).map
      (fun s => (s.up, s.language)) = some (true, lit "de-DE") := by decide +kernel
  obtain ⟨s, hrun, hs⟩ := Option.map_eq_some_iff.mp hends
  obtain ⟨hup, hlanguage⟩ := Prod.mk.inj hs
  have hcurrent := (run_session hrun).2.2 (by simp [killedRun, Removed]) hup
  exact ⟨s, hrun, hup, hlanguage, hlanguage ▸ hcurrent⟩

end MsysCore.Core.Session
