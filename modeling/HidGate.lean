import HidGate.Report
import HidGate.Text.Hex
import HidGate.Identity
import HidGate.Errno
import HidGate.Fault
import HidGate.Broadcast
import HidGate.Pipe
import HidGate.SoftLock
import HidGate.SoftLock.Contest
import HidGate.Toml.Quoted
import HidGate.Toml.Number
import HidGate.Toml.Moment
import HidGate.Toml.Table
import HidGate.Toml.Document
import HidGate.Config
import HidGate.Notice
import HidGate.Endpoint
import HidGate.Feature
import HidGate.Bench
import HidGate.Gate
import HidGate.Gate.Read
import HidGate.Gate.Exchange
import HidGate.Listener
import HidGate.Handle
import HidGate.Client
import HidGate.Turn
import HidGate.System
import HidGate.Session
import HidGate.FileTree
import HidGate.Node
import HidGate.Opening
import HidGate.Text.HexByte
import HidGate.Text.Visible
import HidGate.Text.Unstyled
import HidGate.Monitor.Command
import HidGate.Monitor.Arguments
import HidGate.Monitor.Report
import HidGate.Monitor.Run
import HidGate.Main
import HidGate.Proofs.Locking
import HidGate.Proofs.Ownership
import HidGate.Proofs.Bypass
import HidGate.Proofs.Reading
import HidGate.Proofs.Motion
import HidGate.Proofs.Queue
import HidGate.Proofs.Exclusion
import HidGate.Proofs.Delivery
import HidGate.Proofs.Wakeup
import HidGate.Proofs.Ready
import HidGate.Proofs.Deadlock
import HidGate.Proofs.Signal
import HidGate.Proofs.Halting
import HidGate.Proofs.Operations
import HidGate.Proofs.Separate
import HidGate.Proofs.Service
import HidGate.Proofs.Alike
import HidGate.Proofs.Echo
import HidGate.Proofs.Granting
import HidGate.Proofs.Traffic
import HidGate.Proofs.ErrorNumber
import HidGate.Proofs.Subscription
import HidGate.Proofs.Rest
import HidGate.Proofs.Cycle
import HidGate.Proofs.Lifecycle
import HidGate.Proofs.Quotation
import HidGate.Proofs.Settings
import HidGate.Proofs.Custody
import HidGate.Proofs.Course
import HidGate.Proofs.FailedRead
import HidGate.Proofs.ExactRead
import HidGate.Proofs.FeatureRequest
import HidGate.Proofs.Settling
import HidGate.Proofs.Endurance
import HidGate.Proofs.Tenure
import HidGate.Proofs.Solitude
import HidGate.Proofs.Overtaken
import HidGate.Proofs.Overclaim
import HidGate.Proofs.Starting
import HidGate.Proofs.Statements
import HidGate.Proofs.Loading
import HidGate.Proofs.Tokens
import HidGate.Proofs.Lines
import HidGate.Proofs.Sending
import HidGate.Proofs.Numerals
import HidGate.Proofs.Identification
import HidGate.Proofs.Spelling
import HidGate.Proofs.Rivals
import HidGate.Proofs.Contention
import HidGate.Proofs.Attendance
import HidGate.Proofs.Fetching
