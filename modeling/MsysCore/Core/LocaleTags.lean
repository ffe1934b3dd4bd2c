import MsysCore.Python.Casing

/-!
# Locale tags

Two readers turn a POSIX or BCP-47 locale into a canonical tag: `_normalize_msys_locale` of the
daemon and `_normalized_locale` of the presentation catalogs. Both take the tag apart at its
hyphens, respell each subtag, and check the result against the same pattern.
-/

namespace MsysCore.Core.Locale

open Python

/-! ## The pattern

`^[a-z]{2,8}(?:-[A-Z][a-z]{3})?(?:-(?:[A-Z]{2}|[0-9]{3}))?` and then
`(?:-(?:[a-z0-9]{5,8}|[0-9][a-z0-9]{3}))*$`, subtag by subtag. No subtag of one kind is also of
another. -/

def isLanguage (p : PyStr) : Bool :=
  decide (2 ≤ p.length) && decide (p.length ≤ 8) && p.all isAsciiLower

def isScript (p : PyStr) : Bool :=
  p.length = 4 && p.head?.any isAsciiUpper && p.tail.all isAsciiLower

def isRegion (p : PyStr) : Bool :=
  (p.length = 2 && p.all isAsciiUpper) || (p.length = 3 && p.all isAsciiDigit)

def isVariantTag (p : PyStr) : Bool :=
  ((decide (5 ≤ p.length) && decide (p.length ≤ 8)) ||
      (p.length = 4 && p.head?.any isAsciiDigit)) &&
    p.all fun c => isAsciiLower c || isAsciiDigit c

def afterScript : List PyStr → Bool
  | [] => true
  | p :: ps => if isRegion p then ps.all isVariantTag else (p :: ps).all isVariantTag

def afterLanguage : List PyStr → Bool
  | [] => true
  | p :: ps => if isScript p then afterScript ps else afterScript (p :: ps)

def isCanonicalTag : List PyStr → Bool
  | [] => false
  | language :: rest => isLanguage language && afterLanguage rest

/-- `_CANONICAL_LOCALE.fullmatch`, and `_I18N_LOCALE_NAME.fullmatch`. -/
def canonicalLocale (s : PyStr) : Bool := isCanonicalTag (s.splitOn 45)

/-- The subtags joined, if that is canonical. -/
def checked (canonical : List PyStr) : Option PyStr :=
  let normalized := [45].intercalate canonical
  if canonicalLocale normalized then some normalized else none

/-! ## The readers -/

/-- `raw.split("@", 1)[0].split(".", 1)[0]` -/
def withoutEncoding (raw : PyStr) : PyStr := (raw.takeWhile (· ≠ 64)).takeWhile (· ≠ 46)

/-- `tag.replace("_", "-").split("-")` -/
def subtags (tag : PyStr) : List PyStr :=
  (tag.map fun c => if c = 95 then 45 else c).splitOn 45

section

variable (u : Unicode)

/-- What both readers ask of the language. -/
def isLanguageLike (p : PyStr) : Bool :=
  u.isAlpha p && decide (2 ≤ p.length) && decide (p.length ≤ 8)

/-- One turn of the loop of `_normalize_msys_locale`. -/
def respell (index : ℕ) (part : PyStr) : PyStr :=
  if index = 1 && part.length = 4 && u.isAlpha part then u.titleStr part
  else if part.length = 2 && u.isAlpha part then u.upperStr part
  else if part.length = 3 && u.isDigit part then part
  else u.lowerStr part

/-- The loop; `isalnum` is false of an empty part. -/
def respellAll : ℕ → List PyStr → Option (List PyStr)
  | _, [] => some []
  | index, part :: parts =>
    if u.isAlnum part then (respellAll (index + 1) parts).map (respell u index part :: ·)
    else none

def canonicalMsys : List PyStr → Option PyStr
  | [] => none
  | language :: rest =>
    if isLanguageLike u language then
      (respellAll u 1 rest).bind fun canonical => checked (u.lowerStr language :: canonical)
    else none

/-- `_normalize_msys_locale` -/
def normalizeMsysLocale (value : PyStr) : Option PyStr :=
  let raw := u.strip value
  if raw = [] ∨ u.upperStr raw ∈ ["C", "POSIX", "C.UTF-8", "C.UTF8"].map lit then none
  else canonicalMsys u (subtags (withoutEncoding raw))

def scriptLike (p : PyStr) : Bool := p.length = 4 && u.isAlpha p

def regionLike (p : PyStr) : Bool :=
  (p.length = 2 && u.isAlpha p) || (p.length = 3 && u.isDigit p)

/-- What the last loop of `_normalized_locale` accepts. -/
def isVariant (p : PyStr) : Bool :=
  p.all (fun c => decide (c < 128)) && u.isAlnum p &&
    ((decide (5 ≤ p.length) && decide (p.length ≤ 8)) ||
      (p.length = 4 && p.head?.any u.digit))

/-- The subtag at `index`, if it is of a kind, and what follows. -/
def takeIf (test : PyStr → Bool) : List PyStr → List PyStr × List PyStr
  | [] => ([], [])
  | p :: ps => if test p then ([p], ps) else ([], p :: ps)

def canonicalPresentation : List PyStr → Option PyStr
  | [] => none
  | language :: rest =>
    if isLanguageLike u language then
      let (script, rest) := takeIf (scriptLike u) rest
      let (region, variants) := takeIf (regionLike u) rest
      if variants.all (isVariant u) then
        checked (u.lowerStr language ::
          (script.map u.titleStr ++ region.map u.upperStr ++ variants.map u.lowerStr))
      else none
    else none

/-- `_normalized_locale` -/
def normalizedLocale (value : PyStr) : Option PyStr :=
  let raw := u.strip value
  if raw = [] then none
  else if u.upperStr (withoutEncoding raw) ∈ ["C", "POSIX"].map lit then none
  else canonicalPresentation u (subtags (withoutEncoding raw))

end

end MsysCore.Core.Locale
