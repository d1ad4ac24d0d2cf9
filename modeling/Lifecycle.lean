import Lifecycle.Allocator
import Lifecycle.Classifier
import Lifecycle.Cli.Arguments
import Lifecycle.Cli.Command
import Lifecycle.Cli.Inquiry
import Lifecycle.Cli.Offline
import Lifecycle.Cli.Report
import Lifecycle.Cli.Run
import Lifecycle.Cli.Session
import Lifecycle.Clock
import Lifecycle.Cluster
import Lifecycle.Collector
import Lifecycle.Columns
import Lifecycle.Counters
import Lifecycle.Crew
import Lifecycle.Effect
import Lifecycle.Event
import Lifecycle.Fault
import Lifecycle.Files
import Lifecycle.Journal
import Lifecycle.Json
import Lifecycle.Keyed
import Lifecycle.Line
import Lifecycle.Logging
import Lifecycle.Main
import Lifecycle.Markup
import Lifecycle.Number.Binary64
import Lifecycle.Number.Digits
import Lifecycle.Number.Loose
import Lifecycle.Number.Reader
import Lifecycle.Number.Shortest
import Lifecycle.Page
import Lifecycle.Printed
import Lifecycle.Proofs.Allocator.Generations
import Lifecycle.Proofs.Allocator.Indices
import Lifecycle.Proofs.Cli.Deadline
import Lifecycle.Proofs.Cli.LiveLogs
import Lifecycle.Proofs.Cli.Offline
import Lifecycle.Proofs.Cli.Shown
import Lifecycle.Proofs.Collector.Accounts
import Lifecycle.Proofs.Collector.Asking
import Lifecycle.Proofs.Collector.Dense
import Lifecycle.Proofs.Collector.Discovery
import Lifecycle.Proofs.Collector.Gauge
import Lifecycle.Proofs.Collector.Identity
import Lifecycle.Proofs.Collector.Ownership
import Lifecycle.Proofs.Collector.Retention
import Lifecycle.Proofs.Collector.Staff
import Lifecycle.Proofs.Collector.Totals
import Lifecycle.Proofs.Collector.Tracking
import Lifecycle.Proofs.Collector.Work
import Lifecycle.Proofs.Crew.Places
import Lifecycle.Proofs.Desk.Ledger
import Lifecycle.Proofs.Desk.Reads
import Lifecycle.Proofs.Keyed
import Lifecycle.Proofs.Line.Markers
import Lifecycle.Proofs.Line.Names
import Lifecycle.Proofs.Line.Patterns
import Lifecycle.Proofs.Logging.Fields
import Lifecycle.Proofs.Logging.Setup
import Lifecycle.Proofs.Markup
import Lifecycle.Proofs.Page.Poll
import Lifecycle.Proofs.Registers.Crews
import Lifecycle.Proofs.Registers.Matching
import Lifecycle.Proofs.Registers.Ownership
import Lifecycle.Proofs.Registers.Refinement
import Lifecycle.Proofs.Rehearsal.Accounts
import Lifecycle.Proofs.Rehearsal.History
import Lifecycle.Proofs.Rehearsal.Isolation
import Lifecycle.Proofs.Rehearsal.Loops
import Lifecycle.Proofs.Rehearsal.Polling
import Lifecycle.Proofs.Rehearsal.Watchers
import Lifecycle.Proofs.Sequence.Attempts
import Lifecycle.Proofs.Sequence.Mark
import Lifecycle.Proofs.Sequence.Reads
import Lifecycle.Proofs.Store.Extraction
import Lifecycle.Proofs.Store.IdleSweep
import Lifecycle.Proofs.Store.Race
import Lifecycle.Proofs.Store.Reads
import Lifecycle.Proofs.Store.Registry
import Lifecycle.Proofs.Store.Runs
import Lifecycle.Proofs.Store.WriteOnce
import Lifecycle.Proofs.Store.Writers
import Lifecycle.Proofs.Text.Breaks
import Lifecycle.Proofs.Text.Lines
import Lifecycle.Proofs.Topology.Listing
import Lifecycle.Proofs.Translation
import Lifecycle.Proofs.Waiting.Turns
import Lifecycle.Proofs.Watcher.Alike
import Lifecycle.Proofs.Watcher.Blanks
import Lifecycle.Proofs.Watcher.Descriptions
import Lifecycle.Proofs.Watcher.Generations
import Lifecycle.Proofs.Watcher.Growth
import Lifecycle.Proofs.Watcher.Halting
import Lifecycle.Proofs.Watcher.Interleaving
import Lifecycle.Proofs.Watcher.Passes
import Lifecycle.Proofs.Watcher.PodLogs
import Lifecycle.Proofs.Watcher.Puts
import Lifecycle.Proofs.Watcher.Rereading
import Lifecycle.Registers
import Lifecycle.Rehearsal
import Lifecycle.Sequence
import Lifecycle.Settings
import Lifecycle.Source
import Lifecycle.Store
import Lifecycle.Table
import Lifecycle.Text.Blank
import Lifecycle.Text.Digit
import Lifecycle.Text.Lines
import Lifecycle.Text.Pictorial
import Lifecycle.Text.Printable
import Lifecycle.Text.Quoted
import Lifecycle.Text.Ranges
import Lifecycle.Text.Word
import Lifecycle.Text.ZeroWidth
import Lifecycle.Topology
import Lifecycle.Traced
import Lifecycle.Waiting
import Lifecycle.Watcher
import Lifecycle.Window
