import MsysCore.Core.Failover
import MsysCore.Core.CallAccounting
import MsysCore.Core.CallAnswers
import MsysCore.Core.StopFence
import MsysCore.Core.PublicPeers
import MsysCore.Core.RoleLeases
import MsysCore.Core.MigrationRecords
import MsysCore.Core.DependencySearch
import MsysCore.Core.FrontApp
import MsysCore.Core.DisplayFence
import MsysCore.Core.FencedStop
import MsysCore.Core.DisplayRecovery
import MsysCore.Core.RestartInvariant
import MsysCore.Core.SpawnFailure
import MsysCore.Core.RollbackRestores
import MsysCore.Core.LockOrder
import MsysCore.Core.EventAuthority
import MsysCore.Core.IdleSafety
import MsysCore.Core.PackageReplacement
import MsysCore.Core.PreflightReload
import MsysCore.Core.ReloadProof
import MsysCore.Core.ProcessSnapshot
import MsysCore.Core.QuarantineWindow
import MsysCore.Core.IsolationRules
import MsysCore.Core.PresentationCache
import MsysCore.Core.SessionPreferences
import MsysCore.Native.MipcStrings
import MsysCore.Native.PublicInput
import MsysCore.Native.ReactorHandles
import MsysCore.Native.ChildCompletion
import MsysCore.Native.RelaySize
import MsysCore.Native.AclParity
import MsysCore.Native.MissedStarts
import MsysCore.Native.OperatorCommands
import MsysCore.Native.RestartBudget
import MsysCore.Native.OrderedShutdown
import MsysCore.Native.InflightCounts
import MsysCore.Native.StartAgreement
import MsysCore.Native.CatalogAgreement
import MsysCore.Native.EventDelivery
import MsysCore.Native.IdleTimers
import MsysCore.Native.ChildEnvironment
