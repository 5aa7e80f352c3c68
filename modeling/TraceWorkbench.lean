import TraceWorkbench.Activity
import TraceWorkbench.Command
import TraceWorkbench.CommandLine.Answer
import TraceWorkbench.CommandLine.Arguments
import TraceWorkbench.CommandLine.Console
import TraceWorkbench.Config
import TraceWorkbench.Decimal.Nearest
import TraceWorkbench.Decimal.Shortest
import TraceWorkbench.Event
import TraceWorkbench.Failure
import TraceWorkbench.Files.Access
import TraceWorkbench.Files.OsError
import TraceWorkbench.Files.Scan
import TraceWorkbench.Files.Tree
import TraceWorkbench.Json.Decode
import TraceWorkbench.Json.Fault
import TraceWorkbench.Json.Lexeme
import TraceWorkbench.Json.Reader
import TraceWorkbench.Json.Skip
import TraceWorkbench.Json.Value
import TraceWorkbench.Json.Writer
import TraceWorkbench.Log.FieldValue
import TraceWorkbench.Log.Filter
import TraceWorkbench.Log.Pattern
import TraceWorkbench.Main
import TraceWorkbench.Outcome
import TraceWorkbench.Path
import TraceWorkbench.Project
import TraceWorkbench.Project.Active
import TraceWorkbench.Project.Linter
import TraceWorkbench.Project.Setup
import TraceWorkbench.Project.TraceConfig
import TraceWorkbench.Proofs.Cancellation
import TraceWorkbench.Proofs.FileTrees
import TraceWorkbench.Proofs.PathWalks
import TraceWorkbench.Proofs.ProductPaths
import TraceWorkbench.Proofs.Scanning
import TraceWorkbench.Proofs.SimulatedHost
import TraceWorkbench.Proofs.SlotHistory
import TraceWorkbench.Proofs.StageRuns
import TraceWorkbench.Proofs.VerifiedSpec
import TraceWorkbench.Proofs.Watching
import TraceWorkbench.Proofs.WorkflowOrder
import TraceWorkbench.Report
import TraceWorkbench.Simulation.Arithmetic
import TraceWorkbench.Simulation.Builtin
import TraceWorkbench.Simulation.Expansion
import TraceWorkbench.Simulation.Grammar
import TraceWorkbench.Simulation.Host
import TraceWorkbench.Simulation.Machine
import TraceWorkbench.Simulation.Octets
import TraceWorkbench.Simulation.Pattern
import TraceWorkbench.Simulation.Printing
import TraceWorkbench.Simulation.Program
import TraceWorkbench.Simulation.Pump
import TraceWorkbench.Simulation.Scene
import TraceWorkbench.Simulation.Shell
import TraceWorkbench.Simulation.Step
import TraceWorkbench.Simulation.Syntax
import TraceWorkbench.Simulation.Test
import TraceWorkbench.Simulation.Words
import TraceWorkbench.Sink
import TraceWorkbench.Slot
import TraceWorkbench.Spec.Compiled
import TraceWorkbench.Spec.ErrorScan
import TraceWorkbench.Spec.LocatedError
import TraceWorkbench.Spec.Tracked
import TraceWorkbench.Spec.Unused
import TraceWorkbench.Stage.Basic
import TraceWorkbench.Stage.Build
import TraceWorkbench.Stage.Execute
import TraceWorkbench.Stage.Kind
import TraceWorkbench.Stage.Verify
import TraceWorkbench.Text.Blank
import TraceWorkbench.Text.Letter
import TraceWorkbench.Text.Lines
import TraceWorkbench.Text.Printable
import TraceWorkbench.Text.Quoted
import TraceWorkbench.Text.Utf8
import TraceWorkbench.Text.WordChar
import TraceWorkbench.Watch
import TraceWorkbench.Workflow.Container
import TraceWorkbench.Workflow.Editor
import TraceWorkbench.Workflow.Pipeline
import TraceWorkbench.Workflow.Result
import TraceWorkbench.Workflow.StageRun
import TraceWorkbench.Proofs.StageEvents
import TraceWorkbench.Proofs.ShellQuoting
import TraceWorkbench.Proofs.ShellCommands
import TraceWorkbench.Proofs.HandOvers
import TraceWorkbench.Pool
import TraceWorkbench.Proofs.Protocol
import TraceWorkbench.Proofs.MutualExclusion
import TraceWorkbench.Proofs.TextBytes
import TraceWorkbench.Proofs.FileChanges
import TraceWorkbench.Proofs.FreshTrace
import TraceWorkbench.Proofs.CompiledOutput
import TraceWorkbench.Proofs.PrintedText
import TraceWorkbench.Proofs.SuccessfulRuns
import TraceWorkbench.Proofs.TidyTrees
import TraceWorkbench.Proofs.ScanChanges
import TraceWorkbench.Proofs.ProductScans
import TraceWorkbench.Proofs.CallCourses
import TraceWorkbench.Proofs.RefusalNotices
import TraceWorkbench.Proofs.BusyCalls
import TraceWorkbench.Proofs.StageDeeds
import TraceWorkbench.Proofs.DeedHistory
import TraceWorkbench.Proofs.PartyTurns
import TraceWorkbench.Proofs.PoolHistory
import TraceWorkbench.Proofs.OverlappingJobs
import TraceWorkbench.Proofs.ControlSigns
import TraceWorkbench.Proofs.ReadCuts
import TraceWorkbench.Proofs.ErrorGrammar
import TraceWorkbench.Proofs.ErrorScanning
import TraceWorkbench.Proofs.ProjectReplica
import TraceWorkbench.Proofs.FailureReasons
import TraceWorkbench.Proofs.StrayComma
import TraceWorkbench.Proofs.StreamSeams
import TraceWorkbench.Proofs.TrackedReferences
import TraceWorkbench.Proofs.UnusedPlaces
import TraceWorkbench.Proofs.UnusedReports
import TraceWorkbench.Proofs.OccurrenceSites
import TraceWorkbench.Proofs.TrackedOrder
import TraceWorkbench.Proofs.ByteOrder
import TraceWorkbench.Proofs.UncalledFunctions
import TraceWorkbench.Proofs.VisibleFiles
import TraceWorkbench.Proofs.Collection
import TraceWorkbench.Proofs.ProductNames
import TraceWorkbench.Proofs.ExecutedPrograms
import TraceWorkbench.Proofs.ContainerPaths
import TraceWorkbench.Proofs.LineEnds
import TraceWorkbench.Proofs.ReportLines
import TraceWorkbench.Proofs.ShownErrors
import TraceWorkbench.Proofs.DocumentOrder
import TraceWorkbench.Proofs.SelectedOutputs
import TraceWorkbench.Proofs.JsonTexts
import TraceWorkbench.Proofs.RecordTexts
import TraceWorkbench.Proofs.PartialConfigs
import TraceWorkbench.Proofs.InnermostRoots
import TraceWorkbench.Proofs.TraceConfigTexts
import TraceWorkbench.Proofs.PumpedBytes
