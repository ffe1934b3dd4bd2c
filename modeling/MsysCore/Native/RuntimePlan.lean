import MsysCore.Native.MipcJson

/-!
# The runtime plan of the native supervisor

The data of `native_lite.hpp`. Texts are byte strings. The `uint32_t` fields are
naturals: the parser reads each of them within bounds of its own, all below `2^32`.
-/

namespace MsysCore.Native

def maxPlanBytes : ℕ := 1024 * 1024
def maxComponents : ℕ := 64
def maxArguments : ℕ := 64
def maxDependencies : ℕ := 32
def maxEnvironment : ℕ := 64
def maxProvides : ℕ := 32
def maxPermissions : ℕ := 128
def maxProfileRoles : ℕ := 64

inductive ComponentKind
  | display | window | shell | other
  deriving DecidableEq, Repr

inductive RestartPolicy
  | never | onFailure | always
  deriving DecidableEq, Repr

inductive ReadinessMode
  | exec | fd | mipc | x11Display
  deriving DecidableEq, Repr

inductive Lifecycle
  | background | onDemand | manual
  deriving DecidableEq, Repr

inductive ProvideKind
  | role | interface | capability
  deriving DecidableEq, Repr

structure ProvidePlan where
  kind : ProvideKind := .capability
  name : Bytes := []
  exclusive : Bool := false
  priority : ℕ := 0
  deriving DecidableEq, Repr

structure WindowPlan where
  system : Bytes := []
  display : Bytes := []
  mode : Bytes := []
  title : Bytes := []
  appId : Bytes := []
  wmClass : Bytes := []
  wmInstance : Bytes := []
  deriving DecidableEq, Repr

structure ComponentPlan where
  id : Bytes := []
  kind : ComponentKind := .other
  critical : Bool := false
  restart : RestartPolicy := .never
  readiness : ReadinessMode := .exec
  lifecycle : Lifecycle := .background
  readinessTimeoutMs : ℕ := 5000
  idleTimeoutMs : ℕ := 0
  backoffInitialMs : ℕ := 250
  backoffMaxMs : ℕ := 30000
  restartLimit : ℕ := 8
  argv : List Bytes := []
  after : List Bytes := []
  environment : List (Bytes × Bytes) := []
  provides : List ProvidePlan := []
  permissions : List Bytes := []
  window : WindowPlan := {}
  packageId : Bytes := []
  packageName : Bytes := []
  packageVersion : Bytes := []
  packageKind : Bytes := []
  name : Bytes := []
  summary : Bytes := []
  icon : Bytes := []
  launchable : Bool := false
  deriving DecidableEq, Repr

structure RolePreference where
  role : Bytes
  providers : List Bytes := []
  deriving DecidableEq, Repr

structure RuntimePlan where
  stopGraceMs : ℕ := 2000
  profileId : Bytes := []
  display : Bytes := []
  profileEnvironment : List (Bytes × Bytes) := []
  startup : List Bytes := []
  rolePreferences : List RolePreference := []
  components : List ComponentPlan := []
  deriving DecidableEq, Repr

end MsysCore.Native
