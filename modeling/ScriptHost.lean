import ScriptHost.Path
import ScriptHost.Text.Blank
import ScriptHost.Text.Quoted
import ScriptHost.Text.Units
import ScriptHost.Text.Word
import ScriptHost.Decimal.Shortest
import ScriptHost.Number
import ScriptHost.Json.Basic
import ScriptHost.Json.Reader
import ScriptHost.Failure
import ScriptHost.Settings
import ScriptHost.Completion
import ScriptHost.Log
import ScriptHost.Interrupt
import ScriptHost.Files
import ScriptHost.Disk
import ScriptHost.Program
import ScriptHost.Script.Check
import ScriptHost.Script.Erasure.Items
import ScriptHost.Script.Printer
import ScriptHost.Untyped
import ScriptHost.Registry.Manifest
import ScriptHost.Registry.Basic
import ScriptHost.Registry.Resolve
import ScriptHost.Registry.Require
import ScriptHost.Engine.Machine
import ScriptHost.Scheduler.Submission
import ScriptHost.Scheduler.Lifecycle
import ScriptHost.Scheduler.Worker
import ScriptHost.Host.Control
import ScriptHost.Scripts
import ScriptHost.Command.Arguments
import ScriptHost.Command.Run
import ScriptHost.Main
import ScriptHost.Proofs.Scheduler.Isolation
import ScriptHost.Proofs.Scheduler.Joining
import ScriptHost.Proofs.Scheduler.Beginning
import ScriptHost.Proofs.Scheduler.Balance
import ScriptHost.Proofs.Registry.Graphs
import ScriptHost.Proofs.Registry.Recall
import ScriptHost.Proofs.Engine.Aborting
import ScriptHost.Proofs.Evaluation.Ending
import ScriptHost.Proofs.Evaluation.Presence
import ScriptHost.Proofs.Evaluation.Deciding
import ScriptHost.Proofs.Evaluation.Cancelling
import ScriptHost.Proofs.Path.Joining
import ScriptHost.Proofs.Registry.Packages
import ScriptHost.Proofs.Registry.Sharing
import ScriptHost.Proofs.Registry.Failures
import ScriptHost.Proofs.Registry.Registering
import ScriptHost.Proofs.Registry.Missing
import ScriptHost.Proofs.Registry.Compiling
import ScriptHost.Proofs.Registry.Pointing
import ScriptHost.Proofs.Timers.Agreement
import ScriptHost.Proofs.Evaluation.Rejecting
import ScriptHost.Proofs.Engine.Exporting
import ScriptHost.Proofs.Registry.Wrapping
import ScriptHost.Proofs.Engine.Interruptions
import ScriptHost.Proofs.Evaluation.Delays
import ScriptHost.Proofs.Evaluation.Loading
import ScriptHost.Proofs.Evaluation.Rounds
import ScriptHost.Proofs.Startup.Snapshots
