import Capi4Linux.Capi.Accounting
import Capi4Linux.Capi.Capifs
import Capi4Linux.Capi.Contract
import Capi4Linux.Capi.DataPath
import Capi4Linux.Capi.Delivery
import Capi4Linux.Capi.Detached
import Capi4Linux.Capi.Files
import Capi4Linux.Capi.Ledger
import Capi4Linux.Capi.Lifetime
import Capi4Linux.Capi.Minor
import Capi4Linux.Capi.MinorNumbers
import Capi4Linux.Capi.MountOptions
import Capi4Linux.Capi.Moves
import Capi4Linux.Capi.Nccis
import Capi4Linux.Capi.Nodes
import Capi4Linux.Capi.Overread
import Capi4Linux.Capi.Plain
import Capi4Linux.Capi.ProcNccis
import Capi4Linux.Capi.Reach
import Capi4Linux.Capi.Receive
import Capi4Linux.Capi.Records
import Capi4Linux.Capi.Stack
import Capi4Linux.Capi.State
import Capi4Linux.Capi.Step
import Capi4Linux.Capi.Transmit
import Capi4Linux.Capi.Tty
import Capi4Linux.Capi.Turns
import Capi4Linux.Capi.Waiting
import Capi4Linux.Capi.WireFormat
import Capi4Linux.Capi.Wiring
import Capi4Linux.Capi.Writes
import Capi4Linux.Capicore.Addressing
import Capi4Linux.Capicore.Callbacks
import Capi4Linux.Capicore.Directory
import Capi4Linux.Capicore.Effects
import Capi4Linux.Capicore.FailedRegistration
import Capi4Linux.Capicore.Frame
import Capi4Linux.Capicore.Numbers
import Capi4Linux.Capicore.Operations
import Capi4Linux.Capicore.ProcAppls
import Capi4Linux.Capicore.Queries
import Capi4Linux.Capicore.Registry
import Capi4Linux.Capicore.State
import Capi4Linux.Capicore.Step
import Capi4Linux.Capidrv.Acknowledged
import Capi4Linux.Capidrv.Announced
import Capi4Linux.Capidrv.Answers
import Capi4Linux.Capidrv.Buffers
import Capi4Linux.Capidrv.Channels
import Capi4Linux.Capidrv.Commands
import Capi4Linux.Capidrv.Connections
import Capi4Linux.Capidrv.Controllers
import Capi4Linux.Capidrv.Convert
import Capi4Linux.Capidrv.Correlation
import Capi4Linux.Capidrv.Dispatch
import Capi4Linux.Capidrv.Drivers
import Capi4Linux.Capidrv.Effects
import Capi4Linux.Capidrv.Ending
import Capi4Linux.Capidrv.Handlers
import Capi4Linux.Capidrv.Hangup
import Capi4Linux.Capidrv.Harmless
import Capi4Linux.Capidrv.History
import Capi4Linux.Capidrv.Incoming
import Capi4Linux.Capidrv.IncomingNumbers
import Capi4Linux.Capidrv.LeasedLine
import Capi4Linux.Capidrv.LeasedLineScan
import Capi4Linux.Capidrv.Lifecycle
import Capi4Linux.Capidrv.Links
import Capi4Linux.Capidrv.Listening
import Capi4Linux.Capidrv.Outcomes
import Capi4Linux.Capidrv.Phases
import Capi4Linux.Capidrv.Reactions
import Capi4Linux.Capidrv.Records
import Capi4Linux.Capidrv.Refusals
import Capi4Linux.Capidrv.Removal
import Capi4Linux.Capidrv.Sendbuf
import Capi4Linux.Capidrv.Sizes
import Capi4Linux.Capidrv.State
import Capi4Linux.Capidrv.StatusBuffer
import Capi4Linux.Capidrv.Step
import Capi4Linux.Capidrv.Tasklet
import Capi4Linux.Capidrv.Trace
import Capi4Linux.Capidrv.Valid
import Capi4Linux.Capilib.Independence
import Capi4Linux.Capilib.Links
import Capi4Linux.Capilib.Queue
import Capi4Linux.Capilib.Window
import Capi4Linux.Capiutil.Cmsg
import Capi4Linux.Capiutil.Codec
import Capi4Linux.Capiutil.DataMessages
import Capi4Linux.Capiutil.Decode
import Capi4Linux.Capiutil.Encode
import Capi4Linux.Capiutil.Fill
import Capi4Linux.Capiutil.Format
import Capi4Linux.Capiutil.Lines
import Capi4Linux.Capiutil.Placed
import Capi4Linux.Capiutil.Print
import Capi4Linux.Capiutil.Printed
import Capi4Linux.Capiutil.Reencode
import Capi4Linux.Capiutil.Room
import Capi4Linux.Capiutil.RoundTrip
import Capi4Linux.Capiutil.Struct
import Capi4Linux.Capiutil.Template
import Capi4Linux.Capiutil.TextSize
import Capi4Linux.Capiutil.Walk
import Capi4Linux.Kernelcapi.Calls
import Capi4Linux.Kernelcapi.Clients
import Capi4Linux.Kernelcapi.Frames
import Capi4Linux.Kernelcapi.Interfaces
import Capi4Linux.Kernelcapi.Signals
import Capi4Linux.Kernelcapi.State
import Capi4Linux.Lib.AckQueue
import Capi4Linux.Lib.Bytes
import Capi4Linux.Lib.Clients
import Capi4Linux.Lib.Drain
import Capi4Linux.Lib.FirstGap
import Capi4Linux.Lib.Listing
import Capi4Linux.Lib.Memory
import Capi4Linux.Lib.Pool
import Capi4Linux.Lib.Projection
import Capi4Linux.Lib.Rank
import Capi4Linux.Lib.RingBuffer
import Capi4Linux.Lib.Run
import Capi4Linux.Lib.SendWindow
import Capi4Linux.Lib.Sprintf
import Capi4Linux.Lib.Wakeup
