import Accelerator.Arena
import Accelerator.Dim3
import Accelerator.Directory
import Accelerator.Enumerated
import Accelerator.Executable
import Accelerator.Fault
import Accelerator.Flags
import Accelerator.Handle
import Accelerator.Json.Decode
import Accelerator.Json.Text
import Accelerator.Json.Token
import Accelerator.Json.Value
import Accelerator.Kernarg
import Accelerator.Kernel.Dispatch
import Accelerator.Kernel.Launch
import Accelerator.Kernel.Program
import Accelerator.Log.Config
import Accelerator.Log.Performance
import Accelerator.Memory.Contents
import Accelerator.Memory.Host
import Accelerator.Memory.Map
import Accelerator.Packet.Body
import Accelerator.Packet.Field
import Accelerator.Packet.Header
import Accelerator.Packet.Ring
import Accelerator.Packet.Slot
import Accelerator.Proofs.Accounts.Accesses
import Accelerator.Proofs.Accounts.Balance
import Accelerator.Proofs.Accounts.Blocks
import Accelerator.Proofs.Accounts.Books
import Accelerator.Proofs.Accounts.Copies
import Accelerator.Proofs.Accounts.Granules
import Accelerator.Proofs.Accounts.Registrations
import Accelerator.Proofs.Code.Changes
import Accelerator.Proofs.Code.InstructionSets
import Accelerator.Proofs.Code.Symbols
import Accelerator.Proofs.Code.Table
import Accelerator.Proofs.Grid.Admission
import Accelerator.Proofs.Grid.Arguments
import Accelerator.Proofs.Grid.Coverage
import Accelerator.Proofs.Grid.Execution
import Accelerator.Proofs.Grid.Footprints
import Accelerator.Proofs.Grid.Numbering
import Accelerator.Proofs.Grid.Schedules
import Accelerator.Proofs.Handles.Arena
import Accelerator.Proofs.Handles.Directory
import Accelerator.Proofs.Handles.History
import Accelerator.Proofs.Json.Decoding
import Accelerator.Proofs.Json.Parsing
import Accelerator.Proofs.Json.Scanning
import Accelerator.Proofs.Kernarg.Segments
import Accelerator.Proofs.Log.Thresholds
import Accelerator.Proofs.Memory.Access
import Accelerator.Proofs.Memory.Additions
import Accelerator.Proofs.Memory.Changes
import Accelerator.Proofs.Packet.Layouts
import Accelerator.Proofs.Packet.Updates
import Accelerator.Proofs.Processor.Attendance
import Accelerator.Proofs.Processor.Barriers
import Accelerator.Proofs.Processor.Deeds
import Accelerator.Proofs.Processor.Dispatch
import Accelerator.Proofs.Processor.Inactivation
import Accelerator.Proofs.Processor.Moves
import Accelerator.Proofs.Processor.Order
import Accelerator.Proofs.Processor.Progress
import Accelerator.Proofs.Processor.Waiting
import Accelerator.Proofs.Ring.Consumption
import Accelerator.Proofs.Ring.Contents
import Accelerator.Proofs.Ring.Delivery
import Accelerator.Proofs.Ring.Ledger
import Accelerator.Proofs.Ring.Limits
import Accelerator.Proofs.Ring.Processing
import Accelerator.Proofs.Ring.Production
import Accelerator.Proofs.Ring.Reservation
import Accelerator.Proofs.Ring.Slots
import Accelerator.Proofs.Ring.Storage
import Accelerator.Proofs.Ring.Submission
import Accelerator.Proofs.Runs.Actions
import Accelerator.Proofs.Runs.Calls
import Accelerator.Proofs.Runs.Creation
import Accelerator.Proofs.Runs.Destruction
import Accelerator.Proofs.Runs.Hosted
import Accelerator.Proofs.Runs.Lifetimes
import Accelerator.Proofs.Runs.Numbers
import Accelerator.Proofs.Runs.Operation
import Accelerator.Proofs.Runs.Origins
import Accelerator.Proofs.Runs.Outcomes
import Accelerator.Proofs.Runs.Queues
import Accelerator.Proofs.Runs.Refusals
import Accelerator.Proofs.Runs.Routine
import Accelerator.Proofs.Runs.Shutdown
import Accelerator.Proofs.Runs.Signals
import Accelerator.Proofs.Runs.Underway
import Accelerator.Proofs.Text.Masks
import Accelerator.Proofs.Text.Numerals
import Accelerator.Proofs.Topology.Opening
import Accelerator.Proofs.Topology.RoundTrip
import Accelerator.Proofs.Words
import Accelerator.Queue
import Accelerator.Session.Allocations
import Accelerator.Session.Consumer
import Accelerator.Session.Executables
import Accelerator.Session.Processing
import Accelerator.Session.Producer
import Accelerator.Session.Queues
import Accelerator.Session.Signals
import Accelerator.Session.State
import Accelerator.Signal
import Accelerator.Status
import Accelerator.Text.Blank
import Accelerator.Text.Numeral
import Accelerator.Text.Printable
import Accelerator.Text.Quoted
import Accelerator.Topology.Agent
import Accelerator.Topology.Codec
import Accelerator.Topology.Config
import Accelerator.Topology.Region
import Accelerator.Topology.Source
import Accelerator.Vocabulary
import Accelerator.Word
