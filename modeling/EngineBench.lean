import EngineBench.Bench.Act
import EngineBench.Bench.Bench
import EngineBench.Bench.Callers
import EngineBench.Bench.Duration
import EngineBench.Bench.Lifecycle
import EngineBench.Bench.Operation
import EngineBench.Bench.Pool
import EngineBench.Bench.Record
import EngineBench.Bench.Result
import EngineBench.Bench.Spawning
import EngineBench.Bench.State
import EngineBench.Bench.Sweep
import EngineBench.Bench.Watched
import EngineBench.Bench.Worker
import EngineBench.Bench.Workload
import EngineBench.Cli.Arguments
import EngineBench.Cli.Help
import EngineBench.Cli.Program
import EngineBench.Cli.Switch
import EngineBench.Data.Datum
import EngineBench.Data.Decode
import EngineBench.Data.Mismatch
import EngineBench.Definition.Benchmark
import EngineBench.Definition.File
import EngineBench.Definition.Problem
import EngineBench.Definition.Reading
import EngineBench.Dialogue
import EngineBench.Engine.Call
import EngineBench.Engine.Command
import EngineBench.Engine.Container
import EngineBench.Engine.Containerd.Request
import EngineBench.Engine.Containerd.Spec
import EngineBench.Engine.Containerd.Tasks
import EngineBench.Engine.Cri.Pods
import EngineBench.Engine.Cri.Request
import EngineBench.Engine.Cri.Template
import EngineBench.Engine.Docker.Api
import EngineBench.Engine.Docker.Client
import EngineBench.Engine.Docker.Request
import EngineBench.Engine.Docker.Usage
import EngineBench.Engine.Engine
import EngineBench.Engine.Error
import EngineBench.Engine.Exchange
import EngineBench.Engine.Kind
import EngineBench.Engine.Name
import EngineBench.Engine.Override
import EngineBench.Engine.Runtime.Bundle
import EngineBench.Engine.Runtime.Ctr
import EngineBench.Engine.Runtime.Listing
import EngineBench.Engine.Runtime.Oci
import EngineBench.Failure
import EngineBench.Host.Files
import EngineBench.Host.Rule
import EngineBench.Host.Script
import EngineBench.Host.Search
import EngineBench.Json.Format
import EngineBench.Json.Number
import EngineBench.Json.Text
import EngineBench.Json.Value
import EngineBench.Main
import EngineBench.Number.Binary
import EngineBench.Number.Fixed
import EngineBench.Number.Overflow
import EngineBench.Number.Shortest
import EngineBench.Rehearsal.OnHost
import EngineBench.Rehearsal.PlayedEngine
import EngineBench.Rehearsal.Timeline
import EngineBench.Rehearsal.World
import EngineBench.Report.Paint
import EngineBench.Report.Summary
import EngineBench.Report.Table
import EngineBench.Sampler.ControlGroup
import EngineBench.Sampler.Interval
import EngineBench.Sampler.ProcessTree
import EngineBench.Sampler.Sampling
import EngineBench.Stats.Builds
import EngineBench.Stats.Metrics
import EngineBench.Stats.Timings
import EngineBench.Text.Blank
import EngineBench.Text.CaseTable
import EngineBench.Text.CasedTable
import EngineBench.Text.Lowercase
import EngineBench.Text.Utf8
import EngineBench.Text.Width
import EngineBench.Text.WidthTable
import EngineBench.Text.Words
import EngineBench.Toml.Document
import EngineBench.Toml.Table
import EngineBench.Toml.Text
import EngineBench.Yaml.Cursor
import EngineBench.Yaml.Document
import EngineBench.Yaml.Event
import EngineBench.Yaml.Lexer
import EngineBench.Yaml.Scalar
import EngineBench.Yaml.Token
import EngineBench.Proofs.Tries
import EngineBench.Proofs.Rounds
import EngineBench.Proofs.Journals
import EngineBench.Proofs.Standing
import EngineBench.Proofs.Courses
import EngineBench.Proofs.LifecycleRuns
import EngineBench.Proofs.Progress
import EngineBench.Proofs.SteadyRuns
import EngineBench.Proofs.WatchedRuns
import EngineBench.Proofs.Rates
import EngineBench.Proofs.CallerLogs
import EngineBench.Proofs.WatchedCalls
import EngineBench.Proofs.WatchedCallers
import EngineBench.Proofs.PlainCalls
import EngineBench.Proofs.PlainCallers
import EngineBench.Proofs.Samples
import EngineBench.Proofs.WatchedOutcomes
import EngineBench.Proofs.Closings
import EngineBench.Proofs.CarefulWork
import EngineBench.Proofs.Cleaning
import EngineBench.Proofs.SoundDefinitions
import EngineBench.Proofs.Replies
import EngineBench.Proofs.Plans
import EngineBench.Proofs.Pods
import EngineBench.Proofs.Overrides
import EngineBench.Proofs.Dealings
import EngineBench.Proofs.SweepCalls
import EngineBench.Proofs.Passes
import EngineBench.Proofs.Distributions
import EngineBench.Proofs.Latencies
import EngineBench.Proofs.Reports
import EngineBench.Proofs.ProcessTrees
import EngineBench.Proofs.CleaningPasses
import EngineBench.Proofs.Charges
import EngineBench.Proofs.Descriptions
import EngineBench.Proofs.Queues
import EngineBench.Proofs.Spellings
import EngineBench.Proofs.ReadValues
import EngineBench.Proofs.Places
import EngineBench.Proofs.WrittenValues
import EngineBench.Proofs.Specifications
import EngineBench.Proofs.Comparisons
import EngineBench.Proofs.StoppedSampling
import EngineBench.Proofs.Overflows
import EngineBench.Proofs.Averages
import EngineBench.Proofs.Containers
import EngineBench.Proofs.Images
import EngineBench.Proofs.Names
import EngineBench.Proofs.Locations
import EngineBench.Proofs.Programs
import EngineBench.Proofs.Listings
