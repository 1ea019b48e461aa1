import Telescope.Catalog
import Telescope.Command
import Telescope.CommandLine.Arguments
import Telescope.CommandLine.Execute
import Telescope.CommandLine.Help
import Telescope.Decimal.Basic
import Telescope.Decimal.Fixed
import Telescope.Decimal.Reader
import Telescope.Decimal.Shortest
import Telescope.Decimal.Style
import Telescope.Detector.Layout
import Telescope.Detector.Volume
import Telescope.Event.Accumulator
import Telescope.Event.Outcome
import Telescope.Event.Step
import Telescope.Files.Path
import Telescope.Files.Tree
import Telescope.Gun
import Telescope.Json.Basic
import Telescope.Json.Forms
import Telescope.Json.Number
import Telescope.Json.Reader
import Telescope.Json.Record
import Telescope.Log
import Telescope.Main
import Telescope.Material
import Telescope.Moments
import Telescope.Particle
import Telescope.Plan
import Telescope.Proofs.Arithmetic
import Telescope.Proofs.BackwardCrossings
import Telescope.Proofs.Blanks
import Telescope.Proofs.CommandRanges
import Telescope.Proofs.ComposedScripts
import Telescope.Proofs.Dealing
import Telescope.Proofs.DecimalReading
import Telescope.Proofs.DoubleOrder
import Telescope.Proofs.Doubles
import Telescope.Proofs.EventCounts
import Telescope.Proofs.ExactParts
import Telescope.Proofs.FailingReplays
import Telescope.Proofs.FileLaws
import Telescope.Proofs.FiniteRows
import Telescope.Proofs.FirstDraws
import Telescope.Proofs.FixedReading
import Telescope.Proofs.Gathering
import Telescope.Proofs.GunDirections
import Telescope.Proofs.Interleaving
import Telescope.Proofs.JsonLiterals
import Telescope.Proofs.JsonRoundTrip
import Telescope.Proofs.LastWrites
import Telescope.Proofs.Lengths
import Telescope.Proofs.Locating
import Telescope.Proofs.MacroCommands
import Telescope.Proofs.MacroRoundTrip
import Telescope.Proofs.MemoryWorkers
import Telescope.Proofs.NamelessSteps
import Telescope.Proofs.NumberText
import Telescope.Proofs.OutOfTurn
import Telescope.Proofs.PathNames
import Telescope.Proofs.PlainNumbers
import Telescope.Proofs.Quotients
import Telescope.Proofs.ReplayRefinement
import Telescope.Proofs.RequestProblems
import Telescope.Proofs.Rounding
import Telescope.Proofs.RunHistory
import Telescope.Proofs.ScanNames
import Telescope.Proofs.ScanPlaces
import Telescope.Proofs.ScanProduct
import Telescope.Proofs.ScanWriting
import Telescope.Proofs.ScheduleFree
import Telescope.Proofs.ScriptLines
import Telescope.Proofs.SharedCounters
import Telescope.Proofs.ShortestDecimal
import Telescope.Proofs.SinkAgreement
import Telescope.Proofs.SquareRoots
import Telescope.Proofs.SurplusWords
import Telescope.Proofs.SyntheticEvents
import Telescope.Proofs.SyntheticRuns
import Telescope.Proofs.SyntheticTracks
import Telescope.Proofs.TableFiles
import Telescope.Proofs.TableText
import Telescope.Proofs.Tally
import Telescope.Proofs.TraceLines
import Telescope.Proofs.TraceRoundTrip
import Telescope.Proofs.VolumeNames
import Telescope.Proofs.WorkerCalls
import Telescope.Proofs.WorkerRun
import Telescope.Random.Block
import Telescope.Random.Generator
import Telescope.Run.Metrics
import Telescope.Run.Replay
import Telescope.Run.Summary
import Telescope.Run.Worker
import Telescope.Scan.Point
import Telescope.Scan.Reading
import Telescope.Scan.Request
import Telescope.Scan.Write
import Telescope.Script
import Telescope.Table.Name
import Telescope.Table.Record
import Telescope.Table.Sink
import Telescope.Text.Blank
import Telescope.Text.Lines
import Telescope.Text.Quoted
import Telescope.Text.Visible
import Telescope.Trace.Event
import Telescope.Trace.Lines
import Telescope.Trace.Store
import Telescope.Trace.Synthetic
import Telescope.Unit
import Telescope.Vector
import Telescope.Yaml.Document
import Telescope.Yaml.Node
import Telescope.Yaml.Spot
import Telescope.Yaml.Token
import Telescope.Yaml.Token.Block
import Telescope.Yaml.Token.Folding
import Telescope.Yaml.Token.Plain
import Telescope.Yaml.Token.Property
import Telescope.Yaml.Token.Quoted
import Telescope.Yaml.Token.Stream
