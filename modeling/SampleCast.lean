import SampleCast.Json.Reader
import SampleCast.Json.Printer
import SampleCast.Barrier.Session
import SampleCast.Metrics.Report
import SampleCast.Settings.Daemon
import SampleCast.Producer.Run
import SampleCast.Broadcast.Basic
import SampleCast.Subscriber
import SampleCast.Rehearsal.Single
import SampleCast.Rehearsal.Whole
import SampleCast.CommandLine.Options
import SampleCast.CommandLine.Daemon
import SampleCast.CommandLine.Viewer
import SampleCast.Host.Files
import SampleCast.Host.Offline
import SampleCast.Main
import SampleCast.Proofs.Barrier.History
import SampleCast.Proofs.Barrier.Pacing
import SampleCast.Proofs.Barrier.Sets
import SampleCast.Proofs.Barrier.Mirror
import SampleCast.Proofs.Connection.Steps
import SampleCast.Proofs.Broadcast.Steps
import SampleCast.Proofs.Broadcast.Course
import SampleCast.Proofs.Connection.Place
import SampleCast.Proofs.Connection.Agreement
import SampleCast.Proofs.Broadcast.Agreement
import SampleCast.Proofs.Queue
import SampleCast.Proofs.Wire.Payload
import SampleCast.Proofs.Stream.Reader
import SampleCast.Proofs.Wire.Decoder
import SampleCast.Proofs.Frame
import SampleCast.Proofs.Subscriber
import SampleCast.Proofs.Connection.Flow
import SampleCast.Proofs.Broadcast.Publication
import SampleCast.Proofs.Wire.Request
import SampleCast.Proofs.Connection.Ledger
import SampleCast.Proofs.Broadcast.Delivery
import SampleCast.Proofs.Queue.Fifo
import SampleCast.Proofs.Wire.InPlace
import SampleCast.Proofs.Wire.Messages
import SampleCast.Proofs.Connection.MessageSize
import SampleCast.Proofs.Producer.Tape
import SampleCast.Proofs.Broadcast.Isolation
import SampleCast.Proofs.Connection.Life
import SampleCast.Proofs.Broadcast.Lives
import SampleCast.Proofs.Connection.Balance
import SampleCast.Proofs.Broadcast.Conservation
import SampleCast.Proofs.Metrics
import SampleCast.Proofs.Connection.Log
import SampleCast.Proofs.Broadcast.Log
import SampleCast.Proofs.Broadcast.Accounts
import SampleCast.Proofs.Broadcast.Seating
import SampleCast.Proofs.Broadcast.Quiescence
import SampleCast.Proofs.Broadcast.Validated
import SampleCast.Proofs.Producer.Script
import SampleCast.Proofs.Stream.Singly
import SampleCast.Proofs.Wire.Independence
import SampleCast.Proofs.Broadcast.Time
import SampleCast.Proofs.Connection.Exit
import SampleCast.Proofs.Broadcast.Saturation
import SampleCast.Proofs.Connection.Gate
import SampleCast.Proofs.Settings.Size
import SampleCast.Proofs.Barrier.Independence
import SampleCast.Proofs.Barrier.Waiting
import SampleCast.Proofs.Source.Splitting
import SampleCast.Proofs.Address
import SampleCast.Proofs.Frame.Selection
import SampleCast.Proofs.Json.Printer
import SampleCast.Proofs.Settings.Fields
import SampleCast.Proofs.Settings.Files
import SampleCast.Proofs.Wire.Bookkeeping
import SampleCast.Proofs.Connection.Link
import SampleCast.Proofs.Broadcast.Link
import SampleCast.Proofs.Frame.Shape
import SampleCast.Proofs.Wire.Staging
