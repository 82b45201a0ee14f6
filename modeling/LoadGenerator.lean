import LoadGenerator.Binary64.Text
import LoadGenerator.Text.Quoted
import LoadGenerator.Text.Blank
import LoadGenerator.Text.Integer
import LoadGenerator.Text.Utf8
import LoadGenerator.Load.Run
import LoadGenerator.Load.Worker.Processor
import LoadGenerator.Load.Worker.Memory
import LoadGenerator.Load.Worker.Disk
import LoadGenerator.Load.Worker.Thread
import LoadGenerator.Message.Frame
import LoadGenerator.Service.Ongoing
import LoadGenerator.Service.Script
import LoadGenerator.Service.Probe
import LoadGenerator.Configuration.Environment
import LoadGenerator.Connection.Basic
import LoadGenerator.Client.Basic
import LoadGenerator.Daemon.Basic
import LoadGenerator.Session
import LoadGenerator.CommandLine.Arguments
import LoadGenerator.CommandLine.Duration
import LoadGenerator.CommandLine.Parse
import LoadGenerator.Network.Address
import LoadGenerator.CommandLine.Execution
import LoadGenerator.Text.Uuid
import LoadGenerator.Daemon.StartUp
import LoadGenerator.Client.Script
import LoadGenerator.Configuration.FileTree
import LoadGenerator.Log.Filter
import LoadGenerator.Network.Target
import LoadGenerator.Service.CallBook
import LoadGenerator.Main
import LoadGenerator.Proofs.Service.Items
import LoadGenerator.Proofs.Service.Shapes
import LoadGenerator.Proofs.Connection.Lines
import LoadGenerator.Proofs.Connection.OpenCall
import LoadGenerator.Proofs.Connection.Transcript
import LoadGenerator.Proofs.Json.Strings
import LoadGenerator.Proofs.Binary64.Rounding
import LoadGenerator.Proofs.Binary64.Shortest
import LoadGenerator.Proofs.Json.Scaling
import LoadGenerator.Proofs.Json.Numbers
import LoadGenerator.Proofs.Json.Reals
import LoadGenerator.Proofs.Json.Canonical
import LoadGenerator.Proofs.Json.Values
import LoadGenerator.Proofs.Json.Skipping
import LoadGenerator.Proofs.Json.Depth
import LoadGenerator.Proofs.Json.Records
import LoadGenerator.Proofs.Message.Lines
import LoadGenerator.Proofs.Connection.Responses
import LoadGenerator.Proofs.Message.Work
import LoadGenerator.Proofs.Client.Incoming
import LoadGenerator.Proofs.Connection.Course
import LoadGenerator.Proofs.Client.Course
import LoadGenerator.Proofs.Session.Answers
import LoadGenerator.Proofs.Session.Invariant
import LoadGenerator.Proofs.Session.Composition
import LoadGenerator.Proofs.Load.Workers
import LoadGenerator.Proofs.Load.Validation
import LoadGenerator.Proofs.Load.Progress
import LoadGenerator.Proofs.Load.LifeCycle
import LoadGenerator.Proofs.Service.Truncation
import LoadGenerator.Proofs.Connection.Happenings
import LoadGenerator.Proofs.Daemon.Books
import LoadGenerator.Proofs.Message.RoundTrip
import LoadGenerator.Proofs.Service.Admission
import LoadGenerator.Proofs.Client.Messages
import LoadGenerator.Daemon.Ongoing
import LoadGenerator.Proofs.Connection.Ledger
import LoadGenerator.Proofs.Client.Progress
import LoadGenerator.Proofs.Connection.Serving
import LoadGenerator.Proofs.Session.Bytes
import LoadGenerator.Proofs.Service.Settled
import LoadGenerator.Proofs.Connection.Settled
import LoadGenerator.Proofs.Connection.Confluence
import LoadGenerator.Proofs.Daemon.Following
import LoadGenerator.Proofs.Daemon.Separation
import LoadGenerator.Proofs.Daemon.Isolation
import LoadGenerator.Load.Runs
import LoadGenerator.Proofs.Service.Streams
import LoadGenerator.Proofs.Load.Sharing
import LoadGenerator.Proofs.Connection.Inbound
import LoadGenerator.Proofs.Load.Checks
import LoadGenerator.Proofs.Service.Conversions
import LoadGenerator.Proofs.Client.Reading
import LoadGenerator.Proofs.Connection.Breaks
import LoadGenerator.Proofs.Connection.Closings
import LoadGenerator.Proofs.CommandLine.Quantities
import LoadGenerator.Proofs.Text.Numerals
import LoadGenerator.Proofs.Configuration.Sources
import LoadGenerator.Proofs.Configuration.Merging
import LoadGenerator.CommandLine.Ongoing
import LoadGenerator.Proofs.CommandLine.Outcomes
import LoadGenerator.Proofs.Binary64.Integers
import LoadGenerator.Proofs.Load.Spinning
import LoadGenerator.Proofs.Load.Committing
import LoadGenerator.Proofs.Load.Churning
