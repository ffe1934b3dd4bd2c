import MsysCore.Core.RoleCatalog

/-!
# Calls on a role registry

The methods of `RoleRegistry` statement by statement: a method that raises leaves behind
what it had written. On a registry whose two lease indexes agree they are the operations of
`RoleRegistry`, and every sequence of calls keeps them in step.
-/

namespace MsysCore.Core

open Python

/-- What a method raises, with the values its text shows. The last three are the errors of an
index that is out of step: a `KeyError` of either, and the `ValueError` of `list.remove`. -/
inductive RoleFault
  | unknownRole (role : PyStr)
  | unknownCandidate (role provider : PyStr)
  | noCandidate (role : PyStr)
  | leaseConflict (role active : PyStr)
  | unknownLease (token : ℤ)
  | missingRole (role : PyStr)
  | missingLease (token : ℕ)
  | missingToken
  deriving DecidableEq

/-- The text of an exception; a `KeyError` shows the `repr` of its argument. -/
def RoleFault.text (py : Interpreter) : RoleFault → PyStr
  | .unknownRole role => reprStr py role
  | .unknownCandidate role provider =>
    reprStr py provider ++ lit " is not a candidate for role " ++ reprStr py role
  | .noCandidate role => lit "role " ++ reprStr py role ++ lit " has no installed candidate"
  | .leaseConflict role active =>
    lit "exclusive role " ++ reprStr py role ++ lit " is leased to " ++ reprStr py active
  | .unknownLease token => intText token
  | .missingRole role => reprStr py role
  | .missingLease token => intText token
  | .missingToken => lit "list.remove(x): x not in list"

/-- What `release` takes: a token, or a lease value with any fields. -/
inductive LeaseArgument
  | token (token : ℤ)
  | lease (token : ℤ) (role provider : PyStr) (holder : Option PyStr)
  deriving DecidableEq

namespace LeaseArgument

def tokenOf : LeaseArgument → ℤ
  | .token number => number
  | .lease number _ _ _ => number

/-- Not a lease value that differs from the stored one. -/
def Matches (stored : RoleLease) : LeaseArgument → Prop
  | .token _ => True
  | .lease number role provider holder =>
    number = stored.token ∧ role = stored.role ∧ provider = stored.provider ∧
      holder = stored.holder

instance (stored : RoleLease) : DecidablePred (Matches stored)
  | .token _ => isTrue trivial
  | .lease number role provider holder =>
    inferInstanceAs (Decidable (number = stored.token ∧ role = stored.role ∧
      provider = stored.provider ∧ holder = stored.holder))

def ofLease (lease : RoleLease) : LeaseArgument :=
  .lease lease.token lease.role lease.provider lease.holder

end LeaseArgument

/-- A method with its arguments. -/
inductive RoleCall
  | selectPreferred (role provider : PyStr)
  | resetPreferred (role : PyStr)
  | acquire (role : PyStr) (provider : Option PyStr) (holder : Option PyStr)
  | release (argument : LeaseArgument)
  | releaseProvider (provider : PyStr)
  deriving DecidableEq

inductive RoleReply
  | provider (provider : PyStr)
  | preference (provider : Option PyStr)
  | lease (lease : RoleLease)
  | leases (leases : List RoleLease)
  deriving DecidableEq

/-- How a method ends, and the registry it leaves. -/
inductive RoleOutcome (α : Type)
  | returned (value : α) (registry : RoleRegistry)
  | raised (fault : RoleFault) (registry : RoleRegistry)

namespace RoleOutcome

variable {α β : Type}

def registry : RoleOutcome α → RoleRegistry
  | .returned _ registry => registry
  | .raised _ registry => registry

def map (f : α → β) : RoleOutcome α → RoleOutcome β
  | .returned value registry => .returned (f value) registry
  | .raised fault registry => .raised fault registry

end RoleOutcome

namespace RoleMethods

def stateOf (registry : RoleRegistry) (role : PyStr) : Except RoleFault RoleState :=
  match OrderedDict.get registry.roles role with
  | some state => .ok state
  | none => .error (.unknownRole role)

def getCandidate (registry : RoleRegistry) (role provider : PyStr) : Except RoleFault PyStr := do
  let state ← stateOf registry role
  match state.candidates.find? fun candidate => candidate = provider with
  | some candidate => pure candidate
  | none => .error (.unknownCandidate role provider)

def preferredProvider (registry : RoleRegistry) (role : PyStr) :
    Except RoleFault (Option PyStr) := do
  let state ← stateOf registry role
  match OrderedDict.get registry.preferred role with
  | some selected => pure (some selected)
  | none => pure state.candidates.head?

def resolveCandidate (registry : RoleRegistry) (role : PyStr) : Except RoleFault PyStr := do
  match ← preferredProvider registry role with
  | none => .error (.noCandidate role)
  | some provider => getCandidate registry role provider

def selectPreferred (role provider : PyStr) (registry : RoleRegistry) : RoleOutcome PyStr :=
  match getCandidate registry role provider with
  | .error fault => .raised fault registry
  | .ok _ =>
    .returned provider { registry with
      preferred := OrderedDict.set registry.preferred role provider }

def resetPreferred (role : PyStr) (registry : RoleRegistry) : RoleOutcome (Option PyStr) :=
  match stateOf registry role with
  | .error fault => .raised fault registry
  | .ok _ =>
    let registry := { registry with preferred := OrderedDict.pop registry.preferred role }
    match preferredProvider registry role with
    | .error fault => .raised fault registry
    | .ok preferred => .returned preferred registry

/-- `self._leases[token] = lease`. -/
def setLease : List RoleLease → RoleLease → List RoleLease
  | [], lease => [lease]
  | other :: leases, lease =>
    if other.token = lease.token then lease :: leases else other :: setLease leases lease

def chosenCandidate (registry : RoleRegistry) (role : PyStr) (provider : Option PyStr) :
    Except RoleFault PyStr :=
  match provider with
  | none => resolveCandidate registry role
  | some provider => getCandidate registry role provider

def acquire (role : PyStr) (provider holder : Option PyStr) (registry : RoleRegistry) :
    RoleOutcome RoleLease :=
  match stateOf registry role with
  | .error fault => .raised fault registry
  | .ok state =>
    match chosenCandidate registry role provider with
    | .error fault => .raised fault registry
    | .ok candidate =>
      match OrderedDict.get registry.roleLeases role with
      | none => .raised (.missingRole role) registry
      | some activeTokens =>
        match state.exclusive, activeTokens with
        | true, token :: _ =>
          match registry.leaseOf token with
          | none => .raised (.missingLease token) registry
          | some active => .raised (.leaseConflict role active.provider) registry
        | _, _ =>
          let token := registry.nextLeaseToken
          let lease := ⟨token, role, candidate, holder⟩
          .returned lease { registry with
            nextLeaseToken := token + 1
            leases := setLease registry.leases lease
            roleLeases := OrderedDict.set registry.roleLeases role (activeTokens ++ [token]) }

/-- `self._leases.get(token)`. -/
def stored (registry : RoleRegistry) (token : ℤ) : Option RoleLease :=
  registry.leases.find? fun lease => (lease.token : ℤ) = token

def release (argument : LeaseArgument) (registry : RoleRegistry) : RoleOutcome RoleLease :=
  match stored registry argument.tokenOf with
  | none => .raised (.unknownLease argument.tokenOf) registry
  | some lease =>
    if argument.Matches lease then
      let registry :=
        { registry with leases := registry.leases.filter fun other => other.token ≠ lease.token }
      match OrderedDict.get registry.roleLeases lease.role with
      | none => .raised (.missingRole lease.role) registry
      | some tokens =>
        if lease.token ∈ tokens then
          .returned lease { registry with
            roleLeases := OrderedDict.set registry.roleLeases lease.role
              (tokens.erase lease.token) }
        else .raised .missingToken registry
    else .raised (.unknownLease argument.tokenOf) registry

/-- The loop of `release_provider`. -/
def releaseAll : List RoleLease → RoleRegistry → RoleOutcome Unit
  | [], registry => .returned () registry
  | lease :: leases, registry =>
    match release (.ofLease lease) registry with
    | .raised fault registry => .raised fault registry
    | .returned _ registry => releaseAll leases registry

def releaseProvider (provider : PyStr) (registry : RoleRegistry) : RoleOutcome (List RoleLease) :=
  let matching := registry.leases.filter fun lease => lease.provider = provider
  match releaseAll matching registry with
  | .raised fault registry => .raised fault registry
  | .returned _ registry => .returned matching registry

def perform (call : RoleCall) (registry : RoleRegistry) : RoleOutcome RoleReply :=
  match call with
  | .selectPreferred role provider => (selectPreferred role provider registry).map .provider
  | .resetPreferred role => (resetPreferred role registry).map .preference
  | .acquire role provider holder => (acquire role provider holder registry).map .lease
  | .release argument => (release argument registry).map .lease
  | .releaseProvider provider => (releaseProvider provider registry).map .leases

end RoleMethods

end MsysCore.Core
