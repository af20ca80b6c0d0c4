import Dataflow.Actor
import Dataflow.Config.Basic
import Dataflow.Config.File
import Dataflow.Decimal
import Dataflow.Error
import Dataflow.Evaluation
import Dataflow.Frame
import Dataflow.Graph.Basic
import Dataflow.Graph.Builder
import Dataflow.Graph.Node
import Dataflow.Graph.Ledger
import Dataflow.Graph.Tabled
import Dataflow.Json.Basic
import Dataflow.Json.Record
import Dataflow.Json.Read
import Dataflow.Message
import Dataflow.Operator
import Dataflow.Payload
import Dataflow.Run.Distributed
import Dataflow.Run.Runner
import Dataflow.Run.Routing
import Dataflow.Run.TaskGraph
import Dataflow.Scenario
import Dataflow.Session.Basic
import Dataflow.Session.Roster
import Dataflow.Stock.Estimator
import Dataflow.Stock.Plain
import Dataflow.Text.Base64
import Dataflow.Text.Quoted
import Dataflow.Toml.Number
import Dataflow.Toml.Read
import Dataflow.Toml.Basic
import Dataflow.Workflow
import Dataflow.Yaml.Tag
import Dataflow.Yaml.Node
import Dataflow.Yaml.Scalar
import Dataflow.Yaml.Token
import Dataflow.Proofs.Building
import Dataflow.Proofs.Placement
import Dataflow.Proofs.Composition
import Dataflow.Proofs.Expansion
import Dataflow.Proofs.Groups
import Dataflow.Proofs.Stepping
import Dataflow.Proofs.Validation
import Dataflow.Proofs.Binding
import Dataflow.Proofs.DirectEvaluation
import Dataflow.Proofs.Simulation
import Dataflow.Proofs.Compilation
import Dataflow.Proofs.Dependencies
import Dataflow.Proofs.Interleaving
import Dataflow.Proofs.Scheduling
import Dataflow.Proofs.Joined
import Dataflow.Proofs.Agreement
import Dataflow.Proofs.Observing
import Dataflow.Proofs.Traces
import Dataflow.Proofs.ConcurrentTraces
import Dataflow.Proofs.ExactlyOnce
import Dataflow.Proofs.TrainersFirst
import Dataflow.Proofs.Lockstep
import Dataflow.Proofs.Executions
import Dataflow.Proofs.Coupling
import Dataflow.Proofs.Loading
import Dataflow.Proofs.Exporting
import Dataflow.Proofs.Histories
import Dataflow.Proofs.SingleWorker
import Dataflow.Proofs.Labels
import Dataflow.Proofs.CoupledRosters
import Dataflow.Proofs.CoupledSessions
import Dataflow.Proofs.FailedLoads
import Dataflow.Proofs.Invocations
import Dataflow.Proofs.Members
import Dataflow.Proofs.IdleCalls
import Dataflow.Proofs.Retained
import Dataflow.Proofs.Marks
import Dataflow.Proofs.ExactMarks
import Dataflow.Proofs.Folds
import Dataflow.Proofs.Leakage
import Dataflow.Proofs.TwinRuns
import Dataflow.Proofs.BlindFits
import Dataflow.Proofs.Rebracketing
import Dataflow.Proofs.Interruptions
import Dataflow.Proofs.InterruptedRuns
import Dataflow.Proofs.Cancellation
import Dataflow.Proofs.CrossEvaluation
import Dataflow.Proofs.Coding
import Dataflow.Proofs.SnapshotText
import Dataflow.Proofs.Persisting
import Dataflow.Proofs.Trainings
import Dataflow.Proofs.Restoring
import Dataflow.Proofs.Keeping
import Dataflow.Proofs.Ports
import Dataflow.Proofs.Widths
import Dataflow.Proofs.Composability
import Dataflow.Proofs.ValidGraphs
import Dataflow.Proofs.Trainable
import Dataflow.Proofs.FreshRuns
import Dataflow.Proofs.Ordering
import Dataflow.Proofs.Counting
import Dataflow.Proofs.Tabulation
import Dataflow.Proofs.WellFormed
import Dataflow.Proofs.Bookkeeping
import Dataflow.Proofs.Ledgers
import Dataflow.Proofs.ScriptedExpansion
import Dataflow.Proofs.Handovers
import Dataflow.Proofs.Routing
import Dataflow.Proofs.RoutedRuns
import Dataflow.Proofs.Numbering
import Dataflow.Proofs.RowSplits
import Dataflow.Proofs.Rectangles
import Dataflow.Proofs.SideBySide
import Dataflow.Proofs.LifeCycle
import Dataflow.Proofs.FloatRounding
import Dataflow.Proofs.FloatCounts
import Dataflow.Proofs.Accuracy
import Dataflow.Proofs.DrawingText
import Dataflow.Proofs.PayloadForms
import Dataflow.Proofs.GroupTexts
import Dataflow.Proofs.Verdicts
import Dataflow.Proofs.ShuffleKeys
import Dataflow.Proofs.Transposition
