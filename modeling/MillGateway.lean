import MillGateway.Main
import MillGateway.Scenario.Basic
import MillGateway.Proofs.Text.Segments
import MillGateway.Proofs.File.Tree
import MillGateway.Proofs.File.Access
import MillGateway.Proofs.Tool.Line
import MillGateway.Proofs.Tool.Table
import MillGateway.Proofs.Tool.Store
import MillGateway.Proofs.Tool.Refinement
import MillGateway.Proofs.Tool.Backup
import MillGateway.Proofs.Job.Walk
import MillGateway.Proofs.Crowd.Basic
import MillGateway.Proofs.Crowd.Play
import MillGateway.Proofs.Crowd.Advance
import MillGateway.Proofs.Schedule.Rounds
import MillGateway.Proofs.Schedule.Trails
import MillGateway.Proofs.Crowd.Protocol
import MillGateway.Proofs.Command.Returning
import MillGateway.Proofs.Crowd.Serial
import MillGateway.Proofs.Crowd.Trail
import MillGateway.Proofs.Crowd.Section
import MillGateway.Proofs.Crowd.Turns
import MillGateway.Proofs.Crowd.News
import MillGateway.Proofs.Tool.Edits
import MillGateway.Proofs.Command.Parts
import MillGateway.Proofs.Command.Mode
import MillGateway.Proofs.Console.Lines
import MillGateway.Proofs.Command.Rejection
import MillGateway.Proofs.Subscription.Notes
import MillGateway.Proofs.Poll.Protocol
import MillGateway.Proofs.Poll.Order
import MillGateway.Proofs.Poll.Delivery
import MillGateway.Proofs.Poll.Glance
import MillGateway.Proofs.Message.Protocol
import MillGateway.Proofs.Message.Simulation
import MillGateway.Proofs.Message.Order
import MillGateway.Proofs.Command.Attempts
import MillGateway.Proofs.Command.Restraint
import MillGateway.Proofs.Command.Start
import MillGateway.Proofs.Alone.Basic
import MillGateway.Proofs.Text.LetterCase
import MillGateway.Proofs.Tool.Codec
import MillGateway.Proofs.Tool.RoundTrip
import MillGateway.Proofs.Alone.Machine
import MillGateway.Proofs.File.Directory
import MillGateway.Proofs.Alone.Preserves
import MillGateway.Proofs.Command.Staging
import MillGateway.Proofs.Command.Upload
import MillGateway.Proofs.Tool.Exactness
import MillGateway.Proofs.Command.Codes
import MillGateway.Proofs.Command.Locking
import MillGateway.Proofs.Poll.Agreement
import MillGateway.Proofs.Command.Homing
import MillGateway.Proofs.Crowd.Ends
import MillGateway.Proofs.Console.Axes
import MillGateway.Proofs.Tool.Key
import MillGateway.Proofs.Tool.Meaning
import MillGateway.Proofs.Tool.Removal
import MillGateway.Proofs.Json.Members
import MillGateway.Proofs.Lookup
import MillGateway.Proofs.Tool.Decoding
import MillGateway.Proofs.Job.Timed
import MillGateway.Proofs.Alone.Timed
import MillGateway.Proofs.Command.Policy
import MillGateway.Proofs.Command.Deadline
import MillGateway.Proofs.Command.AxisOrder
import MillGateway.Proofs.Subscription.Visits
import MillGateway.Proofs.Message.Handles
import MillGateway.Proofs.Ini.Document
import MillGateway.Proofs.File.PlainName
import MillGateway.Proofs.Command.Confinement
import MillGateway.Proofs.Link.Interlock
import MillGateway.Proofs.Link.Bookkeeping
import MillGateway.Proofs.Alone.Calls
import MillGateway.Proofs.Command.Collecting
import MillGateway.Proofs.Schedule.Errands
