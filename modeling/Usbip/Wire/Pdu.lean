import Usbip.Wire.Header
import Usbip.Lib.Framing
import Usbip.Lib.ListWalk
import Mathlib.Data.Int.Notation

/-!
# Writing and reading PDUs

What the two kernel ends write for one request or reply, and what they read for it. The
lengths on the wire are decided four times: by `vhci_send_cmd_submit` from the URB of the local
driver, by `stub_build_urb` from the header and the endpoint, by `stub_send_ret_submit` from
the completed URB, and by `vhci_recv_ret_submit` from the header and the pending URB.

* `vhciSendCmdSubmit`, `vhciSendCmdUnlink`, `stubSendRetSubmit`, `stubSendRetUnlink` give the
  PDU that is handed to `kernel_sendmsg`, or `none` when they return early.
* `stubRxPdu`, `vhciRxPdu` take one PDU off the stream. The socket delivers every byte, so a
  read blocks (`none`) exactly while the stream is too short.

The memory behind a pointer of a URB is a function of the distance from it, so that a read of
`n` bytes always gives `n` bytes. What the receivers do after the last byte of a PDU
(`tweak_special_requests`, `masking_bogus_flags`, `usbip_pad_iso`, the giveback) is not part
of this module.
-/

namespace Usbip.Wire

open Framing ListWalk

/-- The transfer type of an endpoint. -/
inductive XferType
  | control | bulk | interrupt | isochronous
  deriving DecidableEq, Repr

/-- What `usb_pipetype`, `usb_pipein` and `usb_pipeendpoint` read of a pipe. -/
structure Pipe where
  type : XferType
  isIn : Bool
  endpoint : BitVec 4
  deriving DecidableEq, Repr

/-- The fields of `struct urb` that travel. -/
structure Urb where
  pipe : Pipe
  transferFlags : BitVec 32
  transferBufferLength : BitVec 32
  startFrame : BitVec 32
  numberOfPackets : BitVec 32
  interval : BitVec 32
  status : BitVec 32
  actualLength : BitVec 32
  errorCount : BitVec 32
  setupPacket : Option (Fin 8 → Byte)
  transferBuffer : ℕ → Byte
  isoFrameDesc : ℕ → IsoPacketDescriptor

/-- `usb_pipeisoc`. -/
def Urb.isoc (urb : Urb) : Bool := urb.pipe.type == .isochronous

/-- The iterations of `for (i = 0; i < np; i++)`. -/
def Urb.packets (urb : Urb) : ℕ := urb.numberOfPackets.toInt.toNat

/-- `n` consecutive entries of the memory behind a pointer. -/
def readMem {α : Type} (mem : ℕ → α) (off n : ℕ) : List α :=
  (List.range n).map fun i => mem (off + i)

@[simp] theorem length_readMem {α : Type} (mem : ℕ → α) (off n : ℕ) :
    (readMem mem off n).length = n := by
  simp [readMem]

/-- A block stored where a pointer points to. -/
def storeMem {α : Type} (mem : ℕ → α) (block : List α) : ℕ → α := fun i => block.getD i (mem i)

/-- What was stored is read back. -/
@[simp] theorem readMem_storeMem {α : Type} (mem : ℕ → α) (block : List α) :
    readMem (storeMem mem block) 0 block.length = block := by
  refine List.ext_getElem (by simp) fun i hi _ => ?_
  have hi : i < block.length := by simpa using hi
  simp [readMem, storeMem, hi]

/-- Which kernel allocations succeed at some moment. None reaches two gigabytes: the limit
`KMALLOC_MAX_SIZE` is far below. -/
structure Allocator where
  ok : ℕ → Bool
  bounded : ∀ n, ok n = true → n < 2 ^ 31

/-- A header, a transfer buffer and packet descriptors, in the order of the `iov` array. -/
structure Pdu where
  header : UsbipHeader
  payload : List Byte
  iso : List IsoPacketDescriptor

/-- The bytes of a PDU. -/
def Pdu.bytes (pdu : Pdu) : List Byte :=
  pdu.header.encode ++ (pdu.payload ++ isoCodec.encodeAll pdu.iso)

/-! ### The client sends -/

/-- `tweak_transfer_flags` clears `URB_NO_TRANSFER_DMA_MAP`. -/
def tweakTransferFlags (flags : BitVec 32) : BitVec 32 := flags &&& ~~~0x0004

/-- `usbip_pack_cmd_submit` with `pack == 1`, and the copy of the setup packet. -/
def packCmdSubmit (urb : Urb) : UsbipHeaderCmdSubmit where
  transferFlags := tweakTransferFlags urb.transferFlags
  transferBufferLength := urb.transferBufferLength
  startFrame := urb.startFrame
  numberOfPackets := urb.numberOfPackets
  interval := urb.interval
  setup := urb.setupPacket.getD fun _ => 0

/-- The `base.direction` of a CMD_SUBMIT. -/
def Urb.direction (urb : Urb) : BitVec 32 := if urb.pipe.isIn then usbipDirIn else usbipDirOut

/-- The `base.ep` of a CMD_SUBMIT. -/
def Urb.ep (urb : Urb) : BitVec 32 := urb.pipe.endpoint.setWidth 32

/-- `setup_cmd_submit_pdu`. -/
def setupCmdSubmitPdu (devid : BitVec 32) (seqnum : BitVec 64) (urb : Urb) : UsbipHeader where
  base := ⟨usbipCmdSubmit, seqnum.setWidth 32, devid, urb.direction, urb.ep⟩
  u := .cmdSubmit (packCmdSubmit urb)
  command_eq := rfl

/-- The `size_t` value of `np * sizeof(struct usbip_iso_packet_descriptor)`. -/
def isoDescSize (np : BitVec 32) : BitVec 64 := np.signExtend 64 * 16

/-- `usbip_alloc_iso_desc_pdu`. -/
def usbipAllocIsoDescPdu (kzalloc : Allocator) (urb : Urb) : Option (List IsoPacketDescriptor) :=
  if kzalloc.ok (isoDescSize urb.numberOfPackets).toNat then
    some (readMem urb.isoFrameDesc 0 urb.packets)
  else none

/-- The packet descriptors of an isochronous URB, and none otherwise. -/
def isoDescPdu (kzalloc : Allocator) (urb : Urb) : Option (List IsoPacketDescriptor) :=
  if urb.isoc then usbipAllocIsoDescPdu kzalloc urb else some []

/-- The transfer buffer of a CMD_SUBMIT. -/
def cmdSubmitPayload (urb : Urb) : List Byte :=
  if !urb.pipe.isIn && decide (0 < urb.transferBufferLength.toNat) then
    readMem urb.transferBuffer 0 urb.transferBufferLength.toNat
  else []

/-- The body of `vhci_send_cmd_submit` up to `kernel_sendmsg`. -/
def vhciSendCmdSubmit (kzalloc : Allocator) (devid : BitVec 32) (seqnum : BitVec 64) (urb : Urb) :
    Option Pdu :=
  (isoDescPdu kzalloc urb).map fun iso =>
    ⟨setupCmdSubmitPdu devid seqnum urb, cmdSubmitPayload urb, iso⟩

/-- The body of `vhci_send_cmd_unlink` up to `kernel_sendmsg`. -/
def vhciSendCmdUnlink (devid : BitVec 32) (seqnum unlinkSeqnum : BitVec 64) : Pdu where
  header :=
    { base := ⟨usbipCmdUnlink, seqnum.setWidth 32, devid, 0, 0⟩
      u := .cmdUnlink ⟨unlinkSeqnum.setWidth 32⟩
      command_eq := rfl }
  payload := []
  iso := []

/-! ### The server sends -/

/-- `usbip_pack_ret_submit` with `pack == 1`. -/
def packRetSubmit (urb : Urb) : UsbipHeaderRetSubmit where
  status := urb.status
  actualLength := urb.actualLength
  startFrame := urb.startFrame
  numberOfPackets := urb.numberOfPackets
  errorCount := urb.errorCount

/-- `setup_ret_submit_pdu`. -/
def setupRetSubmitPdu (seqnum : BitVec 64) (urb : Urb) : UsbipHeader where
  base := ⟨usbipRetSubmit, seqnum.setWidth 32, 0, 0, 0⟩
  u := .retSubmit (packRetSubmit urb)
  command_eq := rfl

/-- The transferred bytes of the packets, without the padding between them. -/
def gatherPackets (urb : Urb) : List Byte :=
  (readMem urb.isoFrameDesc 0 urb.packets).flatMap fun d =>
    readMem urb.transferBuffer d.offset.toNat d.actualLength.toNat

/-- The transfer buffer of a RET_SUBMIT; `none` when the packets of an isochronous URB do not
add up to its length. -/
def retSubmitPayload (urb : Urb) : Option (List Byte) :=
  if urb.pipe.isIn && !urb.isoc && decide (0 < urb.actualLength.toNat) then
    some (readMem urb.transferBuffer 0 urb.actualLength.toNat)
  else if urb.pipe.isIn && urb.isoc then
    if (gatherPackets urb).length = urb.actualLength.toNat then some (gatherPackets urb) else none
  else some []

/-- The body of the loop of `stub_send_ret_submit` up to `kernel_sendmsg`. -/
def stubSendRetSubmit (allocIov : Bool) (kzalloc : Allocator) (seqnum : BitVec 64) (urb : Urb) :
    Option Pdu :=
  if !allocIov then none
  else
    (retSubmitPayload urb).bind fun payload =>
      (isoDescPdu kzalloc urb).map fun iso => ⟨setupRetSubmitPdu seqnum urb, payload, iso⟩

/-- The body of the loop of `stub_send_ret_unlink` up to `kernel_sendmsg`. -/
def stubSendRetUnlink (seqnum : BitVec 64) (status : BitVec 32) : Pdu where
  header :=
    { base := ⟨usbipRetUnlink, seqnum.setWidth 32, 0, 0, 0⟩
      u := .retUnlink ⟨status⟩
      command_eq := rfl }
  payload := []
  iso := []

/-! ### Reading the parts of a PDU -/

/-- `enum usbip_side`. -/
inductive Side
  | stub | vhci
  deriving DecidableEq, Repr

/-- The negative results of `usbip_recv_xbuff` and `usbip_recv_iso`. The function that returns
`-EPIPE` has raised an event, the one that returns `-ENOMEM` has not. -/
inductive RecvError
  | enomem | epipe
  deriving DecidableEq, Repr

/-- The `size` of `usbip_recv_xbuff`, 0 for the direction without a payload. -/
def xbuffSize (side : Side) (urb : Urb) : ℤ :=
  match side with
  | .stub => if urb.pipe.isIn then 0 else urb.transferBufferLength.toInt
  | .vhci => if urb.pipe.isIn then urb.actualLength.toInt else 0

/-- `usbip_recv_xbuff`. -/
def usbipRecvXbuff (side : Side) (urb : Urb) (stream : List Byte) : Option (Urb × List Byte) :=
  if ¬ 0 < xbuffSize side urb then some (urb, stream)
  else
    (recv (xbuffSize side urb).toNat stream).map fun r =>
      ({ urb with transferBuffer := storeMem urb.transferBuffer r.1 }, r.2)

/-- The descriptors that `usbip_recv_iso` has stored; they must add up. -/
def storeIso (urb : Urb) (iso : List IsoPacketDescriptor) : Except RecvError Urb :=
  if (iso.map (·.actualLength)).sum = urb.actualLength then
    .ok { urb with isoFrameDesc := storeMem urb.isoFrameDesc iso }
  else .error .epipe

/-- `usbip_recv_iso`. `usbip_recv` turns a read of no bytes down. -/
def usbipRecvIso (kzalloc : Allocator) (urb : Urb) (stream : List Byte) :
    Option (Except RecvError Urb × List Byte) :=
  if !urb.isoc then some (.ok urb, stream)
  else if urb.numberOfPackets = 0 then some (.ok urb, stream)
  else
    let size := urb.numberOfPackets * 16
    if !kzalloc.ok (size.signExtend 64).toNat then some (.error .enomem, stream)
    else if size = 0 then some (.error .epipe, stream)
    else
      (recv size.toNat stream).map fun r =>
        (storeIso urb (isoCodec.decodeAll urb.packets r.1), r.2)

/-- The transfer buffer, then the packet descriptors. -/
def recvBody (side : Side) (kzalloc : Allocator) (urb : Urb) (stream : List Byte) :
    Option (Except RecvError Urb × List Byte) :=
  (usbipRecvXbuff side urb stream).bind fun r => usbipRecvIso kzalloc r.1 r.2

/-! ### The server receives -/

/-- What `stub_rx_pdu` consults besides the stream: the exported device, whether the status
is `SDEV_ST_USED`, the endpoints, and the results of the allocations. -/
structure StubEnv where
  devid : BitVec 32
  used : Bool
  epIn : ℕ → Option XferType
  epOut : ℕ → Option XferType
  allocPriv : Bool
  allocUrb : Bool
  allocSetup : Bool
  kzalloc : Allocator

/-- The endpoint that `get_pipe` looks at. -/
def StubEnv.endpoint (env : StubEnv) (ep dir : BitVec 32) : Option XferType :=
  if dir = usbipDirIn then env.epIn (ep &&& 0x7f).toNat else env.epOut (ep &&& 0x7f).toNat

/-- `get_pipe`, for an endpoint number below 16; `none` stands for `BUG()`. -/
def StubEnv.getPipe (env : StubEnv) (ep dir : BitVec 32) : Option Pipe :=
  (env.endpoint ep dir).map fun type => ⟨type, dir != usbipDirOut, ep.setWidth 4⟩

/-- How a call of `stub_rx_pdu` ends. -/
inductive StubRxResult
  /-- the URB is complete and goes on to the filters and the device -/
  | submit (pdu : UsbipHeader) (urb : Urb)
  | unlink (pdu : UsbipHeader)
  /-- an event has been raised, after which the loop ends -/
  | event
  /-- `stub_build_urb` returned `NULL` without an event -/
  | dropped
  /-- `BUG()` -/
  | bug

/-- After an event, and after `BUG()`, no further header is read. -/
def StubRxResult.stop : StubRxResult → Bool
  | .event | .bug => true
  | _ => false

/-- The URB that `stub_build_urb` sets up before it reads on: everything that is not in the
header is zero. -/
def unpackCmdSubmit (pipe : Pipe) (spdu : UsbipHeaderCmdSubmit) : Urb where
  pipe := pipe
  transferFlags := spdu.transferFlags
  transferBufferLength := spdu.transferBufferLength
  startFrame := spdu.startFrame
  numberOfPackets := spdu.numberOfPackets
  interval := spdu.interval
  status := 0
  actualLength := 0
  errorCount := 0
  setupPacket := some spdu.setup
  transferBuffer := fun _ => 0
  isoFrameDesc := fun _ => ⟨0, 0, 0, 0⟩

/-- All that `stub_build_urb` allocates. -/
def StubEnv.allocated (env : StubEnv) (spdu : UsbipHeaderCmdSubmit) : Bool :=
  env.allocPriv && env.allocUrb &&
    (decide (spdu.transferBufferLength.toInt ≤ 0) ||
      env.kzalloc.ok spdu.transferBufferLength.toNat) && env.allocSetup

/-- `stub_build_urb` up to the end of the PDU. -/
def stubBuildUrb (env : StubEnv) (pdu : UsbipHeader) (spdu : UsbipHeaderCmdSubmit)
    (stream : List Byte) : Option (StubRxResult × List Byte) :=
  match env.getPipe pdu.base.ep pdu.base.direction with
  | none => some (.bug, stream)
  | some pipe =>
    if !env.allocated spdu then some (.event, stream)
    else
      (recvBody .stub env.kzalloc (unpackCmdSubmit pipe spdu) stream).map fun r =>
        match r.1 with
        | .ok urb => (.submit pdu urb, r.2)
        | .error .epipe => (.event, r.2)
        | .error .enomem => (.dropped, r.2)

/-- `valid_request`. -/
def StubEnv.validRequest (env : StubEnv) (pdu : UsbipHeader) : Bool :=
  pdu.base.devid == env.devid && env.used

/-- `stub_rx_pdu`. -/
def stubRxPdu (env : StubEnv) (stream : List Byte) : Option (StubRxResult × List Byte) :=
  (recv UsbipHeader.size stream).bind fun r =>
    match UsbipHeader.decode r.1 with
    | none => some (.event, r.2)
    | some pdu =>
      if !env.validRequest pdu then some (.event, r.2)
      else
        match pdu.u with
        | .cmdUnlink _ => some (.unlink pdu, r.2)
        | .cmdSubmit spdu => stubBuildUrb env pdu spdu r.2
        | _ => some (.event, r.2)

/-! ### The client receives -/

/-- What `vhci_rx_pdu` consults besides the stream: the pending requests and the results of
the allocations. -/
structure VhciEnv where
  privRx : List (BitVec 64 × Urb)
  kzalloc : Allocator

/-- How a call of `vhci_rx_pdu` ends. -/
inductive VhciRxResult
  /-- the URB is complete and is given back -/
  | retSubmit (pdu : UsbipHeader) (urb : Urb)
  | retUnlink (pdu : UsbipHeader)
  /-- an event has been raised, after which the loop ends -/
  | event
  /-- `vhci_recv_ret_submit` returned early without an event -/
  | dropped

/-- After an event no further header is read. -/
def VhciRxResult.stop : VhciRxResult → Bool
  | .event => true
  | _ => false

/-- `usbip_pack_ret_submit` with `pack == 0`. -/
def unpackRetSubmit (rpdu : UsbipHeaderRetSubmit) (urb : Urb) : Urb :=
  { urb with
    status := rpdu.status
    actualLength := rpdu.actualLength
    startFrame := rpdu.startFrame
    numberOfPackets := rpdu.numberOfPackets
    errorCount := rpdu.errorCount }

/-- The request that `pickup_urb_and_free_priv` finds. -/
def VhciEnv.pending (env : VhciEnv) (seqnum : BitVec 32) : Option Urb :=
  (findSplit (fun p => p.1 == seqnum.setWidth 64) env.privRx).map fun r => r.2.1.2

/-- `vhci_recv_ret_submit` up to the end of the PDU. -/
def vhciRecvRetSubmit (env : VhciEnv) (pdu : UsbipHeader) (rpdu : UsbipHeaderRetSubmit)
    (stream : List Byte) : Option (VhciRxResult × List Byte) :=
  match env.pending pdu.base.seqnum with
  | none => some (.event, stream)
  | some urb =>
    (recvBody .vhci env.kzalloc (unpackRetSubmit rpdu urb) stream).map fun r =>
      match r.1 with
      | .ok urb => (.retSubmit pdu urb, r.2)
      | .error .epipe => (.event, r.2)
      | .error .enomem => (.dropped, r.2)

/-- `vhci_rx_pdu`. -/
def vhciRxPdu (env : VhciEnv) (stream : List Byte) : Option (VhciRxResult × List Byte) :=
  (recv UsbipHeader.size stream).bind fun r =>
    match UsbipHeader.decode r.1 with
    | none => some (.event, r.2)
    | some pdu =>
      match pdu.u with
      | .retSubmit rpdu => vhciRecvRetSubmit env pdu rpdu r.2
      | .retUnlink _ => some (.retUnlink pdu, r.2)
      | _ => some (.event, r.2)

end Usbip.Wire
