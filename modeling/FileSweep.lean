import FileSweep.App
import FileSweep.EventLoop
import FileSweep.Main
import FileSweep.Proofs.Escapes
import FileSweep.Proofs.Tokens
import FileSweep.Proofs.Parsing
import FileSweep.Proofs.Launches
import FileSweep.Proofs.RoundTrip
import FileSweep.Proofs.Arguments
import FileSweep.Schedule.Sweep
import FileSweep.Proofs.Visits
import FileSweep.Proofs.Release
import FileSweep.Proofs.Schedules
import FileSweep.Proofs.Paths
import FileSweep.Proofs.Walk
import FileSweep.Proofs.Located
import FileSweep.Proofs.Listings
import FileSweep.Proofs.ScanTree
import FileSweep.Proofs.Sequential
import FileSweep.Proofs.Works
import FileSweep.Proofs.Substitution
import FileSweep.Proofs.ChainControl
import FileSweep.Proofs.Cancellation
import FileSweep.Schedule.Run
import FileSweep.Proofs.Books
import FileSweep.Proofs.Outline
import FileSweep.Proofs.Validation
import FileSweep.Proofs.SequentialRun
import FileSweep.Schedule.Calls
import FileSweep.Proofs.OneShot
import FileSweep.Proofs.Attendance
import FileSweep.Proofs.Closing
import FileSweep.Proofs.Containment
import FileSweep.Proofs.ArgumentCount
import FileSweep.Proofs.Composition
import FileSweep.Proofs.Trimming
import FileSweep.Proofs.Checks
import FileSweep.Proofs.Strictness
import FileSweep.Proofs.Schema
import FileSweep.Proofs.Literals
import FileSweep.Proofs.Places
import FileSweep.Proofs.Resolution
import FileSweep.Proofs.SweepRoot
import FileSweep.Proofs.Growth
import FileSweep.Proofs.LookBack
import FileSweep.Proofs.Gluing
import FileSweep.Proofs.Encoding
import FileSweep.Proofs.Numbers
import FileSweep.Proofs.JsonAtoms
import FileSweep.Proofs.JsonText
import FileSweep.Proofs.Logging
import FileSweep.Proofs.Dump
import FileSweep.Proofs.SingleWord
import FileSweep.Proofs.Segments
import FileSweep.Proofs.FileSink
import FileSweep.Proofs.Normalization
import FileSweep.Proofs.ChosenSlots
import FileSweep.Proofs.ReportedCommand
import FileSweep.Proofs.Listing
import FileSweep.Schedule.Event
import FileSweep.Proofs.Interruption
import FileSweep.Proofs.Inertness
import FileSweep.Proofs.FileParts
import FileSweep.Proofs.FileVariables
import FileSweep.Proofs.LogLifecycle
