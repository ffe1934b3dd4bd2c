import MsysCore.Core.InstalledManifests
import MsysCore.Core.RoleCatalog

/-!
# Preflight and reload of the installed catalog

`preflight_installed_candidate`, `preflight_installed_removal` and the catalog that
`_reload_installed_components_locked` builds. `ServiceCatalog` accepts the components of every
manifest that loads.
-/

namespace MsysCore.Core.Preflight

open Python Manifest

/-- The fields of the daemon that a preflight reads. -/
structure Msysd where
  builtinComponents : Components
  builtin_nodup : (builtinComponents.map Prod.fst).Nodup
  components : Components
  profile : Dict
  roleRegistry : RoleRegistry

structure CatalogPreflightError where
  message : String
  package : PyStr
  path : Option PyStr
  reason : PyStr

structure Report where
  package : PyStr
  path : Option PyStr
  components : List PyStr
  catalogComponents : ℕ
  deriving DecidableEq

section

variable (py : Interpreter)

/-- The ordering fields of a catalog. -/
def dependencies (components : Components) : Catalog :=
  components.map fun entry => (entry.1, ⟨entry.2.requires, entry.2.after⟩)

def validateDependencyGraph (components : Components) : Except PyError Unit :=
  (dependencies components).validateDependencyGraph.mapError fun text => ⟨.valueError, text⟩

def rolesOf (components : Components) : RoleComponents :=
  components.map fun entry => (entry.1, entry.2.provides)

def has (components : Components) (key : PyStr) : Bool := (OrderedDict.get components key).isSome

/-- The components that a profile starts; a valid profile lists texts only. -/
def startup (profile : Dict) : Except PyError (List PyStr) := do
  let items ← iterate (Dict.get profile "startup" (.list []))
  pure (items.filterMap fun
    | .str component => some component
    | _ => none)

/-- What both preflights check of a prospective catalog. -/
def checkProspective (daemon : Msysd) (removes leaves : String) (prospective : Components) :
    Except PyError Unit := do
  validateDependencyGraph prospective
  let prospectiveRoles ← RoleRegistry.fromProfile py (rolesOf prospective) daemon.profile
  let starts ← startup daemon.profile
  let removedStartup := (starts.filter fun component =>
    has daemon.components component && !has prospective component).insertionSort (· ≤ ·)
  if removedStartup ≠ [] then
    .error ⟨.valueError, lit removes ++ joinComma removedStartup⟩
  else
    let lostRoles := (daemon.roleRegistry.listRoles.filter fun role =>
      (daemon.roleRegistry.listedPreferred role).isSome &&
        (role ∉ prospectiveRoles.listRoles || (prospectiveRoles.listedPreferred role).isNone))
      |>.insertionSort (· ≤ ·)
    if lostRoles ≠ [] then .error ⟨.valueError, lit leaves ++ joinComma lostRoles⟩
    else pure ()

/-- The directory of a candidate. -/
def candidateTarget (state : StateDir) (packageId path : PyStr) : Except PyError PyStr := do
  let target ← state.resolve path
  let parts ← state.packageParts target
  match parts with
  | [package, versions, _] =>
    if package ≠ packageId ∨ versions ≠ lit "versions" then
      raise .valueError "candidate is outside its managed package version root"
    else pure target
  | _ => raise .valueError "candidate is outside its managed package version root"

def candidateComponents (state : StateDir) (packageId target : PyStr) :
    Except PyError Components := do
  let candidate ← loadManifestPaths py state [target]
  if candidate = [] then raise .valueError "candidate manifest has no components"
  else if candidate.all fun entry => entry.2.packageId = packageId then pure candidate
  else raise .valueError "candidate manifest package identity mismatch"

/-- A prospective catalog, with the path and the components that its report shows. -/
structure Prospect where
  path : Option PyStr
  components : List PyStr
  catalog : Components

def prospectiveCandidate (builtin : Components) (state : StateDir) (packageId path : PyStr) :
    Except PyError Prospect := do
  let target ← candidateTarget state packageId path
  let candidate ← candidateComponents py state packageId target
  let installed ← loadInstalledManifests py state true
  pure
    { path := some target
      components := (candidate.map Prod.fst).insertionSort (· ≤ ·)
      catalog := replacePackageComponents builtin (replacePackageComponents installed candidate) }

def prospectiveRemoval (builtin : Components) (state : StateDir) (packageId : PyStr) :
    Except PyError Prospect :=
  if packageId = [] then raise .valueError "package id is required"
  else do
    let installed ← loadInstalledManifests py state true
    let removed := installed.filter fun entry => entry.2.packageId = packageId
    if removed = [] then raise .valueError "package is not present in the installed catalog"
    else
      pure
        { path := none
          components := (removed.map Prod.fst).insertionSort (· ≤ ·)
          catalog := replacePackageComponents builtin
            (installed.filter fun entry => entry.2.packageId ≠ packageId) }

/-- The rest of both preflights. -/
def preflight (daemon : Msysd) (message removes leaves : String) (packageId : PyStr)
    (path : Option PyStr) (prospective : Except PyError Prospect) :
    Except CatalogPreflightError Report :=
  let report : Except PyError Report := do
    let prospect ← prospective
    checkProspective py daemon removes leaves prospect.catalog
    pure
      { package := packageId
        path := prospect.path
        components := prospect.components
        catalogComponents := prospect.catalog.length }
  report.mapError fun error =>
    { message := message, package := packageId, path := path, reason := error.text.take 512 }

def preflightInstalledCandidate (daemon : Msysd) (state : StateDir) (packageId path : PyStr) :
    Except CatalogPreflightError Report :=
  preflight py daemon "prospective MSYS catalog is invalid"
    "candidate removes active profile startup components: "
    "candidate leaves enabled roles without providers: " packageId (some path)
    (prospectiveCandidate py daemon.builtinComponents state packageId path)

def preflightInstalledRemoval (daemon : Msysd) (state : StateDir) (packageId : PyStr) :
    Except CatalogPreflightError Report :=
  preflight py daemon "prospective MSYS catalog removal is invalid"
    "removal deletes active profile startup components: "
    "removal leaves enabled roles without providers: " packageId none
    (prospectiveRemoval py daemon.builtinComponents state packageId)

/-- The catalog that `_reload_installed_components_locked` builds. -/
def reloadCatalog (builtin : Components) (state : StateDir) : Except PyError Components := do
  let installed ← loadInstalledManifests py state false
  let replacement := replacePackageComponents builtin installed
  validateDependencyGraph replacement
  pure replacement

end

end MsysCore.Core.Preflight
