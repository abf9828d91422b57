import Usbip.Lib.Machine
import Usbip.Lib.Trace
import Usbip.Lib.ListWalk
import Usbip.Lib.Codec
import Usbip.Lib.Framing
import Usbip.Wire.Header
import Usbip.Wire.Pdu
import Usbip.Wire.Stream
import Usbip.Vhci.Port
import Usbip.Vhci.Seqnum
import Usbip.Vhci.Giveback
import Usbip.Vhci.TxOrder
import Usbip.Stub.Device
import Usbip.Stub.ReplyOrder
import Usbip.Stub.Conservation
import Usbip.Stub.Settled
import Usbip.Lib.RecordRing
import Usbip.Lib.MarkedRing
import Usbip.Ptp.Filter
import Usbip.Ptp.Container
import Usbip.Ptp.Parser
import Usbip.Ptp.System
import Usbip.Ptp.Transparent
import Usbip.Ptp.Sound
import Usbip.Ptp.Produce
import Usbip.Ptp.Consume
import Usbip.Ptp.Complete
import Usbip.Ptp.Region
import Usbip.Ptp.Held
import Usbip.Ptp.Transfers
import Usbip.Ptp.ProduceCalls
import Usbip.Ptp.FirstPacket
import Usbip.Ptp.FrameCount
import Usbip.Lib.Heap
import Usbip.Ptp.OwnUrbs
import Usbip.Ptp.Ledger
import Usbip.Ptp.Served
import Usbip.Ptp.Wrap
import Usbip.Lib.SlotTable
import Usbip.Lib.Behavior
import Usbip.Stub.MatchTable
import Usbip.Event.Handler
import Usbip.Event.Service
import Usbip.Event.Removal
import Usbip.Stub.Connection
import Usbip.Vhci.LifeCycle
import Usbip.Vhci.Isolation
import Usbip.Client.DeviceLoop
import Usbip.Stub.Filtered
import Usbip.Stub.Retired
import Usbip.Stub.Teardown
import Usbip.Lib.WaitQueue
import Usbip.Wakeup
import Usbip.Lib.ListHead
import Usbip.Filter.Registry
import Usbip.Client.Matching
import Usbip.Filter.Removal
import Usbip.Lib.Endian
import Usbip.Wire.Endian
import Usbip.Lib.Reader
import Usbip.Client.DeviceList
import Usbip.Vhci.Lifetime
import Usbip.Stub.UnlinkLifetime
import Usbip.Lib.CallChain
import Usbip.Ptp.Locks
import Usbip.Ptp.Bodies
import Usbip.Ptp.LockDiscipline
import Usbip.Ptp.Dispatch
import Usbip.Vhci.Enqueue
import Usbip.Vhci.UnlinkCleanup
import Usbip.Vhci.Receive
import Usbip.Wire.Bounds
import Usbip.Vhci.Bounds
import Usbip.Stub.Bounds
import Usbip.Stub.Submit
import Usbip.Vhci.Idle
import Usbip.Stub.CleanupUrbs
import Usbip.Stub.LateCompletion
import Usbip.Lib.Compaction
import Usbip.Vhci.PadIso
import Usbip.Vhci.Hub
import Usbip.Vhci.HubRange
import Usbip.Vhci.HubSpeed
import Usbip.Vhci.HubChange
import Usbip.Client.ReadLoop
import Usbip.Client.Segmentation
import Usbip.Client.ErrorReply
import Usbip.Client.BufferBound
import Usbip.SpecialRequests
import Usbip.Lib.Loop
import Usbip.Ptp.Cursor
import Usbip.Ptp.ParserSafety
import Usbip.Ptp.Tokens
import Usbip.Ptp.Segments
import Usbip.Gadget.EpConfig
import Usbip.Gadget.Endpoints
import Usbip.Lib.Scan
import Usbip.Client.HostList
import Usbip.Vhci.Status
import Usbip.Client.DeviceOwnership
import Usbip.Lib.CondVar
import Usbip.Client.SyncWork
import Usbip.Vhci.Numbers
import Usbip.Stub.Working
import Usbip.Link.Connection
import Usbip.Link.Answers
import Usbip.Link.Agreement
import Usbip.Lib.Rest
import Usbip.Link.Rest
import Usbip.Lib.Records
import Usbip.Libusb0.Descriptors
import Usbip.Libusb0.Ownership
import Usbip.Libusb0.Bounds
import Usbip.Libusb0.RoundTrip
import Usbip.Lib.Sender
import Usbip.Tools.Import
import Usbip.Tools.Agreement
import Usbip.Tools.Outcome
