import MsysCore.Core.RoleCatalog

/-!
# Interfaces and capabilities

`services.py`: which components provide a service, by priority and then component id. Unlike
a role a service has no preference and no lease.
-/

namespace MsysCore.Core

open Python

def Manifest.ProvideKind.text : Manifest.ProvideKind → PyStr
  | .role => lit "role"
  | .interface => lit "interface"
  | .capability => lit "capability"

/-- `SERVICE_KINDS` -/
def serviceKinds : List PyStr := [lit "interface", lit "capability"]

structure ServiceProvider where
  kind : PyStr
  name : PyStr
  component : PyStr
  priority : ℤ
  exclusive : Bool
  deriving DecidableEq

inductive ServiceError
  | unsupportedKind (message : PyStr)
  | unknownService (message : PyStr)
  | unknownProvider
  deriving DecidableEq

/-- The services by kind and name. -/
abbrev ServiceCatalog := List ((PyStr × PyStr) × List ServiceProvider)

namespace ServiceCatalog

/-- `folded` of `_build` -/
abbrev Folded := List ((PyStr × PyStr) × List (PyStr × ServiceProvider))

def foldProvide (componentId : PyStr) (folded : Folded) (provide : Manifest.Provide) : Folded :=
  if provide.kind.text ∉ serviceKinds then folded
  else
    let key := (provide.kind.text, provide.name)
    let perService := (OrderedDict.get folded key).getD []
    let candidate : ServiceProvider :=
      { kind := provide.kind.text
        name := provide.name
        component := componentId
        priority := provide.priority
        exclusive := provide.exclusive }
    let entry := match OrderedDict.get perService componentId with
      | none => candidate
      | some previous =>
        { kind := candidate.kind
          name := candidate.name
          component := componentId
          priority := max previous.priority candidate.priority
          exclusive := previous.exclusive || candidate.exclusive }
    OrderedDict.set folded key (OrderedDict.set perService componentId entry)

def foldComponents (components : RoleComponents) : Folded :=
  components.foldl
    (fun folded component => component.2.foldl (foldProvide component.1) folded) []

/-- The providers of a service by `(-priority, component)`. -/
def sortProviders (perService : List (PyStr × ServiceProvider)) : List ServiceProvider :=
  (perService.map Prod.snd).insertionSort fun a b =>
    b.priority < a.priority ∨ (a.priority = b.priority ∧ a.component ≤ b.component)

/-- `_build` -/
def build (components : RoleComponents) : ServiceCatalog :=
  (foldComponents components).map fun service => (service.1, sortProviders service.2)

def checkedKind (kind : PyStr) : Except ServiceError PyStr :=
  if kind ∉ serviceKinds then .error (.unsupportedKind (lit "unsupported service kind: " ++ kind))
  else .ok kind

/-- Python's order on pairs of strings. -/
def keyLe (a b : PyStr × PyStr) : Bool := a.1 < b.1 || (a.1 = b.1 && a.2 ≤ b.2)

def names (catalog : ServiceCatalog) (kind : PyStr) : Except ServiceError (List PyStr) := do
  let checked ← checkedKind kind
  let keys := (catalog.map Prod.fst).insertionSort fun a b => keyLe a b
  pure ((keys.filter fun key => key.1 = checked).map Prod.snd)

def providers (catalog : ServiceCatalog) (kind name : PyStr) :
    Except ServiceError (List ServiceProvider) := do
  let checked ← checkedKind kind
  match OrderedDict.get catalog (checked, name) with
  | some found => pure found
  | none => .error (.unknownService (checked ++ lit ":" ++ name))

def providerIds (catalog : ServiceCatalog) (kind name : PyStr) :
    Except ServiceError (List PyStr) := do
  let found ← catalog.providers kind name
  pure (found.map ServiceProvider.component)

end ServiceCatalog

end MsysCore.Core
