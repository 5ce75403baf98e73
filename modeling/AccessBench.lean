import AccessBench.Config.Writer
import AccessBench.Main
import AccessBench.Toml.Text
import AccessBench.Trial.Scripted
import AccessBench.Proofs.Benchmark.Completion
import AccessBench.Proofs.Pattern.Fit
import AccessBench.Proofs.Trial.Confinement
import AccessBench.Proofs.Benchmark.Repetitions
import AccessBench.Proofs.Machine.Confinement
import AccessBench.Proofs.Benchmark.Confinement
import AccessBench.Proofs.Cache
import AccessBench.Proofs.Machine.Transfer
import AccessBench.Proofs.Store.Change
import AccessBench.Proofs.Fixture
import AccessBench.Proofs.Benchmark.Frame
import AccessBench.Proofs.Machine.Disturbed
import AccessBench.Proofs.Benchmark.Lifetime
import AccessBench.Proofs.Toml.Number
import AccessBench.Proofs.Toml.Quoted
import AccessBench.Proofs.Toml.Value
import AccessBench.Proofs.Toml.Line
import AccessBench.Proofs.Toml.Document
import AccessBench.Proofs.Config.Writer
import AccessBench.Proofs.Config.RoundTrip
import AccessBench.Proofs.Trial.Projection
import AccessBench.Proofs.Benchmark.Projection
import AccessBench.Proofs.Report.Event
import AccessBench.Proofs.Report.Filing
import AccessBench.Proofs.Decimal.Digits
import AccessBench.Proofs.Report.Sheet
import AccessBench.Proofs.Benchmark.Sections
import AccessBench.Proofs.Report.Agreement
import AccessBench.Proofs.Answers
import AccessBench.Proofs.Decimal.Shortest
import AccessBench.Proofs.Decimal.Notation
import AccessBench.Proofs.Json.Number
import AccessBench.Proofs.Json.Text
import AccessBench.Proofs.Json.Value
import AccessBench.Proofs.Json.Record
import AccessBench.Proofs.Row.Json
import AccessBench.Proofs.Report.Document
import AccessBench.Proofs.Permutation.Draws
import AccessBench.Proofs.Report.Collected
import AccessBench.Proofs.Benchmark.Finish
import AccessBench.Proofs.Benchmark.Iterations
import AccessBench.Proofs.Program.Execution
import AccessBench.Proofs.Program.Loading
import AccessBench.Proofs.Machine.Bounds
import AccessBench.Proofs.Pattern.Check
import AccessBench.Proofs.Pattern.Requests
import AccessBench.Proofs.Pattern.Visits
import AccessBench.Proofs.Row.Mean
import AccessBench.Proofs.Fixture.Bytes
import AccessBench.Proofs.Machine.Contents
import AccessBench.Proofs.Scenario.Matrix
import AccessBench.Proofs.Size.Label
import AccessBench.Proofs.Scenario.StrideLabel
import AccessBench.Proofs.Region.Memory
import AccessBench.Proofs.Toml.WellFormed
import AccessBench.Proofs.Config.Fields
import AccessBench.Proofs.Config.Retouch
import AccessBench.Proofs.CommandLine.Seed
