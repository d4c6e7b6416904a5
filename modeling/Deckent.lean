import Deckent.Lib.Arithmetic
import Deckent.Lib.BinarySearch
import Deckent.Lib.BreadthFirst
import Deckent.Lib.Calendar
import Deckent.Lib.CodeUnits
import Deckent.Lib.CycleCheck
import Deckent.Lib.DelimitedText
import Deckent.Lib.Digraph
import Deckent.Lib.EventLog
import Deckent.Lib.Fallible
import Deckent.Lib.Fencing
import Deckent.Lib.HashChain
import Deckent.Lib.IndexedHeap
import Deckent.Lib.Interleaving
import Deckent.Lib.JsonText
import Deckent.Lib.KeyedReplacement
import Deckent.Lib.KeyedRows
import Deckent.Lib.Layering
import Deckent.Lib.OrderedMap
import Deckent.Lib.OrderedSet
import Deckent.Lib.Paging
import Deckent.Lib.PhraseQuery
import Deckent.Lib.PlainData
import Deckent.Lib.Precedence
import Deckent.Lib.Saturation
import Deckent.Lib.Segments
import Deckent.Lib.Sha256
import Deckent.Lib.StableSort
import Deckent.Lib.Walk
import Deckent.Model.AcceptanceConfirmation
import Deckent.Model.AcceptanceReconciliation
import Deckent.Model.AdmissionHeartbeat
import Deckent.Model.ApprovalAllowScope
import Deckent.Model.ApprovalLifecycle
import Deckent.Model.ApprovalSla
import Deckent.Model.ApprovalStore
import Deckent.Model.ApprovalTimeout
import Deckent.Model.AuditWriter
import Deckent.Model.CanonicalJson
import Deckent.Model.ConfigWriteLock
import Deckent.Model.CustodyJson
import Deckent.Model.DependencyResolver
import Deckent.Model.DependencyScheduler
import Deckent.Model.EventStream
import Deckent.Model.ExactTerminalAuthority
import Deckent.Model.ExecutionLock
import Deckent.Model.ExecutionLockOperation
import Deckent.Model.ExecutionLockRecord
import Deckent.Model.ExecutionTopology
import Deckent.Model.ExecutionWriteScopePolicy
import Deckent.Model.FlowScheduler
import Deckent.Model.FormulaEvaluator
import Deckent.Model.Js
import Deckent.Model.JsValue
import Deckent.Model.KindAdmission
import Deckent.Model.LegacyMigration
import Deckent.Model.LineageSettlement
import Deckent.Model.LiveExecutionBudget
import Deckent.Model.ManagedDocs
import Deckent.Model.MemoryQuery
import Deckent.Model.MissionAdmission
import Deckent.Model.MissionDispatch
import Deckent.Model.MissionEngines
import Deckent.Model.MissionLifecycle
import Deckent.Model.MissionOperations
import Deckent.Model.MissionScheduler
import Deckent.Model.MissionStore
import Deckent.Model.MissionTables
import Deckent.Model.ProviderLimitStore
import Deckent.Model.ProviderLimitTruth
import Deckent.Model.RepairBirthAuthority
import Deckent.Model.ResultCollector
import Deckent.Model.RunFlow
import Deckent.Model.RunFlowCoordinator
import Deckent.Model.RunFlowProjection
import Deckent.Model.RunFlowStore
import Deckent.Model.ScheduledFlow
import Deckent.Model.SchedulerReducer
import Deckent.Model.SchedulerState
import Deckent.Model.ScopeGate
import Deckent.Model.SprintPid
import Deckent.Model.StartAttempt
import Deckent.Model.Task
import Deckent.Model.TaskDependencyRefs
import Deckent.Model.TaskExecutionAdmission
import Deckent.Model.TaskLineage
import Deckent.Model.TermRpc
import Deckent.Proof.AbsorbingSettlement
import Deckent.Proof.AcceptanceReconciliation
import Deckent.Proof.AdmissionHeartbeat
import Deckent.Proof.ApprovalAllowScope
import Deckent.Proof.ApprovalCreation
import Deckent.Proof.ApprovalLifecycle
import Deckent.Proof.ApprovalSla
import Deckent.Proof.ApprovalSweep
import Deckent.Proof.ApprovalTimeout
import Deckent.Proof.ApprovedPlan
import Deckent.Proof.AuditChain
import Deckent.Proof.AuditTamper
import Deckent.Proof.AuditTexts
import Deckent.Proof.AuthoredOrder
import Deckent.Proof.CascadeContract
import Deckent.Proof.CircuitBreaker
import Deckent.Proof.CommandIdempotency
import Deckent.Proof.CommandReplay
import Deckent.Proof.ConfigWriteLock
import Deckent.Proof.CustodyJson
import Deckent.Proof.DependencyCascade
import Deckent.Proof.DependencyEnforcement
import Deckent.Proof.DependencyReferences
import Deckent.Proof.DependencyRun
import Deckent.Proof.DependencyUnblock
import Deckent.Proof.DispatchStrategy
import Deckent.Proof.EventStream
import Deckent.Proof.ExecutionLockAcquire
import Deckent.Proof.ExecutionLockAdoption
import Deckent.Proof.ExecutionLockFencing
import Deckent.Proof.ExecutionLockLoad
import Deckent.Proof.ExecutionLockOperation
import Deckent.Proof.ExecutionLockParse
import Deckent.Proof.ExecutionLockTransfer
import Deckent.Proof.ExecutionTopology
import Deckent.Proof.ExecutionWriteScope
import Deckent.Proof.FlowEventIterator
import Deckent.Proof.FlowScheduler
import Deckent.Proof.FlowTicks
import Deckent.Proof.FormulaEvaluator
import Deckent.Proof.FormulaTokens
import Deckent.Proof.LaterBirth
import Deckent.Proof.LiveExecutionBudget
import Deckent.Proof.LiveUsage
import Deckent.Proof.ManagedDocs
import Deckent.Proof.MemoryQuery
import Deckent.Proof.MissionAdoption
import Deckent.Proof.MissionAdvance
import Deckent.Proof.MissionBatch
import Deckent.Proof.MissionCompletion
import Deckent.Proof.MissionDefinition
import Deckent.Proof.MissionDispatch
import Deckent.Proof.MissionFences
import Deckent.Proof.MissionFencing
import Deckent.Proof.MissionKeys
import Deckent.Proof.MissionOperation
import Deckent.Proof.MissionProgress
import Deckent.Proof.MissionReplay
import Deckent.Proof.MissionTransition
import Deckent.Proof.MissionValidity
import Deckent.Proof.NotDispatched
import Deckent.Proof.PortablePath
import Deckent.Proof.ProjectionRecovery
import Deckent.Proof.ProviderLimitCommit
import Deckent.Proof.ProviderLimitSpend
import Deckent.Proof.ProviderLimitWrite
import Deckent.Proof.QueueContract
import Deckent.Proof.RepairLineage
import Deckent.Proof.RepairSupersession
import Deckent.Proof.ReservationGate
import Deckent.Proof.RunFlowCall
import Deckent.Proof.RunFlowCoordinator
import Deckent.Proof.RunFlowStore
import Deckent.Proof.RunFlowTransition
import Deckent.Proof.ScheduledFlow
import Deckent.Proof.SchedulerSettlement
import Deckent.Proof.SchedulerSlots
import Deckent.Proof.SchedulerState
import Deckent.Proof.SchedulerStep
import Deckent.Proof.SchedulerTick
import Deckent.Proof.ScopeRepair
import Deckent.Proof.ShadowEquivalence
import Deckent.Proof.SkillGraph
import Deckent.Proof.SkillOrder
import Deckent.Proof.SpawnOrder
import Deckent.Proof.SprintPid
import Deckent.Proof.StartAttempt
import Deckent.Proof.StartAttemptSettlement
import Deckent.Proof.StartAttemptStep
import Deckent.Proof.SupersessionGate
import Deckent.Proof.SupersessionReceipt
import Deckent.Proof.SupersessionSweep
import Deckent.Proof.TaskDependencyRefs
import Deckent.Proof.TaskExecutionAdmission
import Deckent.Proof.TaskLineage
import Deckent.Proof.TermRpc
import Deckent.Proof.TopologicalOrder
import Deckent.Proof.WavePlan
import Deckent.Proof.Waves
import Deckent.Proof.WriterOrder
