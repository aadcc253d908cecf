import GridBench.Json.Printer
import GridBench.Json.Reader
import GridBench.Naming
import GridBench.Draws
import GridBench.RunId
import GridBench.Settings.Client
import GridBench.Settings.Form
import GridBench.Yaml.Token.Lexer
import GridBench.Yaml.Reader
import GridBench.Settings.Search
import GridBench.Store.Memory
import GridBench.Element
import GridBench.Status.Gatherer
import GridBench.Status.Registry
import GridBench.Status.Readiness
import GridBench.Runner.Milestone
import GridBench.Run.Partition
import GridBench.Run.Loop
import GridBench.Runner.Load
import GridBench.Runner.Tester
import GridBench.Rehearsal.Script
import GridBench.Rehearsal.Stage
import GridBench.Cli.Arguments
import GridBench.Cli.LogLevel
import GridBench.Cli.Summary
import GridBench.Cli.App
import GridBench.Main
import GridBench.Proofs.Run.Undisturbed
import GridBench.Proofs.Run.Crew
import GridBench.Proofs.Run.Handover
import GridBench.Proofs.Run.Calls
import GridBench.Proofs.Run.Cancellation
import GridBench.Proofs.Run.Tolls
import GridBench.Proofs.Naming.Collision
import GridBench.Proofs.Status.History
import GridBench.Proofs.Run.Custody
import GridBench.Proofs.Run.Stored
import GridBench.Proofs.Run.Passes
import GridBench.Proofs.Cli.Summary
import GridBench.Proofs.Run.Ledger
import GridBench.Proofs.Run.Poison
import GridBench.Proofs.Run.Isolation
import GridBench.Proofs.Cli.Command
import GridBench.Proofs.Status.Mark
import GridBench.Proofs.Run.Order
import GridBench.Proofs.Runner.Lifecycle
import GridBench.Proofs.Settings.RoundTrip
import GridBench.Proofs.Store.History
import GridBench.Proofs.Status.Registry
import GridBench.Proofs.Runner.Troupe
import GridBench.Proofs.Runner.Repeated
import GridBench.Proofs.Store.Rations
import GridBench.Proofs.Run.Ingest
import GridBench.Proofs.Run.Readback
import GridBench.Proofs.Run.Retuned
import GridBench.Proofs.Run.Removal
import GridBench.Proofs.Naming.Maps
import GridBench.Proofs.Settings.Runnable
import GridBench.Proofs.Status.Readiness
import GridBench.Proofs.Settings.Search
import GridBench.Proofs.Element.Check
import GridBench.Proofs.Run.Acquire
import GridBench.Proofs.Run.Duration
import GridBench.Proofs.Settings.Usable
import GridBench.Proofs.Element.Populate
import GridBench.Proofs.Cli.Arguments
import GridBench.Proofs.Draws.Range
import GridBench.Proofs.Naming.Identity
