import Mathlib.Data.BitVec
import Usbip.Lib.Codec

/-!
# The header of a PDU

`struct usbip_header` on the wire: five 32-bit words that every PDU has, then 28 bytes that
are read according to the command. All words are in network order
(`usbip_header_correct_endian`); what a command does not use of the 28 bytes is zero, since
every sender clears the header first.
-/

namespace Usbip.Wire

/-- `USBIP_CMD_SUBMIT`. -/
def usbipCmdSubmit : BitVec 32 := 1

/-- `USBIP_CMD_UNLINK`. -/
def usbipCmdUnlink : BitVec 32 := 2

/-- `USBIP_RET_SUBMIT`. -/
def usbipRetSubmit : BitVec 32 := 3

/-- `USBIP_RET_UNLINK`. -/
def usbipRetUnlink : BitVec 32 := 4

/-- `USBIP_DIR_OUT`. -/
def usbipDirOut : BitVec 32 := 0

/-- `USBIP_DIR_IN`. -/
def usbipDirIn : BitVec 32 := 1

/-- `struct usbip_header_basic`. -/
structure UsbipHeaderBasic where
  command : BitVec 32
  seqnum : BitVec 32
  devid : BitVec 32
  direction : BitVec 32
  ep : BitVec 32

/-- `struct usbip_header_cmd_submit`. -/
structure UsbipHeaderCmdSubmit where
  transferFlags : BitVec 32
  transferBufferLength : BitVec 32
  startFrame : BitVec 32
  numberOfPackets : BitVec 32
  interval : BitVec 32
  setup : Fin 8 → Byte

/-- `struct usbip_header_ret_submit`. -/
structure UsbipHeaderRetSubmit where
  status : BitVec 32
  actualLength : BitVec 32
  startFrame : BitVec 32
  numberOfPackets : BitVec 32
  errorCount : BitVec 32

/-- `struct usbip_header_cmd_unlink`. -/
structure UsbipHeaderCmdUnlink where
  seqnum : BitVec 32

/-- `struct usbip_header_ret_unlink`. -/
structure UsbipHeaderRetUnlink where
  status : BitVec 32

/-- The union of `struct usbip_header`, with the member that is in use. -/
inductive UsbipHeaderU
  | cmdSubmit (pdu : UsbipHeaderCmdSubmit)
  | cmdUnlink (pdu : UsbipHeaderCmdUnlink)
  | retSubmit (pdu : UsbipHeaderRetSubmit)
  | retUnlink (pdu : UsbipHeaderRetUnlink)

/-- The command under which a member of the union is read. -/
def UsbipHeaderU.command : UsbipHeaderU → BitVec 32
  | .cmdSubmit _ => usbipCmdSubmit
  | .cmdUnlink _ => usbipCmdUnlink
  | .retSubmit _ => usbipRetSubmit
  | .retUnlink _ => usbipRetUnlink

/-- `struct usbip_header` with one of the four commands. -/
structure UsbipHeader where
  base : UsbipHeaderBasic
  u : UsbipHeaderU
  command_eq : base.command = u.command

open FixedCodec

/-- The five words of `struct usbip_header_basic`. -/
def basicCodec : FixedCodec UsbipHeaderBasic :=
  (u32be.pair (u32be.pair (u32be.pair (u32be.pair u32be)))).map
    (fun p => ⟨p.1, p.2.1, p.2.2.1, p.2.2.2.1, p.2.2.2.2⟩)
    (fun h => (h.command, h.seqnum, h.devid, h.direction, h.ep)) fun _ => rfl

/-- `struct usbip_header_cmd_submit` fills the union. -/
def cmdSubmitCodec : FixedCodec UsbipHeaderCmdSubmit :=
  (u32be.pair (u32be.pair (u32be.pair (u32be.pair (u32be.pair (bytes 8)))))).map
    (fun p => ⟨p.1, p.2.1, p.2.2.1, p.2.2.2.1, p.2.2.2.2.1, p.2.2.2.2.2⟩)
    (fun h => (h.transferFlags, h.transferBufferLength, h.startFrame, h.numberOfPackets,
      h.interval, h.setup)) fun _ => rfl

/-- `struct usbip_header_ret_submit` in the union. -/
def retSubmitCodec : FixedCodec UsbipHeaderRetSubmit :=
  ((u32be.pair (u32be.pair (u32be.pair (u32be.pair u32be)))).map
    (fun p => (⟨p.1, p.2.1, p.2.2.1, p.2.2.2.1, p.2.2.2.2⟩ : UsbipHeaderRetSubmit))
    (fun h => (h.status, h.actualLength, h.startFrame, h.numberOfPackets, h.errorCount))
    fun _ => rfl).padTo 28 (by decide)

/-- `struct usbip_header_cmd_unlink` in the union. -/
def cmdUnlinkCodec : FixedCodec UsbipHeaderCmdUnlink :=
  (u32be.map (fun n => (⟨n⟩ : UsbipHeaderCmdUnlink)) (fun h => h.seqnum) fun _ => rfl).padTo 28
    (by decide)

/-- `struct usbip_header_ret_unlink` in the union. -/
def retUnlinkCodec : FixedCodec UsbipHeaderRetUnlink :=
  (u32be.map (fun n => (⟨n⟩ : UsbipHeaderRetUnlink)) (fun h => h.status) fun _ => rfl).padTo 28
    (by decide)

/-- The 28 bytes of the union. -/
def UsbipHeaderU.encode : UsbipHeaderU → List Byte
  | .cmdSubmit pdu => cmdSubmitCodec.encode pdu
  | .cmdUnlink pdu => cmdUnlinkCodec.encode pdu
  | .retSubmit pdu => retSubmitCodec.encode pdu
  | .retUnlink pdu => retUnlinkCodec.encode pdu

theorem UsbipHeaderU.length_encode (u : UsbipHeaderU) : u.encode.length = 28 := by
  cases u with
  | cmdSubmit pdu => exact cmdSubmitCodec.length_encode pdu
  | cmdUnlink pdu => exact cmdUnlinkCodec.length_encode pdu
  | retSubmit pdu => exact retSubmitCodec.length_encode pdu
  | retUnlink pdu => exact retUnlinkCodec.length_encode pdu

namespace UsbipHeader

/-- `sizeof(struct usbip_header)`. -/
def size : ℕ := 48

/-- A header after `usbip_header_correct_endian(&pdu, 1)`. -/
def encode (h : UsbipHeader) : List Byte := basicCodec.encode h.base ++ h.u.encode

theorem length_encode (h : UsbipHeader) : h.encode.length = size := by
  rw [encode, List.length_append, basicCodec.length_encode, h.u.length_encode]
  rfl

/-- A header after `usbip_header_correct_endian(&pdu, 0)`; `none` for an unknown command. -/
def decode (l : List Byte) : Option UsbipHeader :=
  let base := basicCodec.decode (l.take 20)
  let u := l.drop 20
  if h : base.command = usbipCmdSubmit then some ⟨base, .cmdSubmit (cmdSubmitCodec.decode u), h⟩
  else if h : base.command = usbipRetSubmit then
    some ⟨base, .retSubmit (retSubmitCodec.decode u), h⟩
  else if h : base.command = usbipCmdUnlink then
    some ⟨base, .cmdUnlink (cmdUnlinkCodec.decode u), h⟩
  else if h : base.command = usbipRetUnlink then
    some ⟨base, .retUnlink (retUnlinkCodec.decode u), h⟩
  else none

/-- **Header round trip**: every header with one of the four commands is read back. -/
theorem decode_encode (h : UsbipHeader) : decode h.encode = some h := by
  obtain ⟨base, u, hcmd⟩ := h
  have htake : (basicCodec.encode base ++ u.encode).take 20 = basicCodec.encode base :=
    List.take_left' (basicCodec.length_encode base)
  have hdrop : (basicCodec.encode base ++ u.encode).drop 20 = u.encode :=
    List.drop_left' (basicCodec.length_encode base)
  simp only [decode, encode, htake, hdrop, basicCodec.decode_encode]
  cases u with
  | cmdSubmit pdu =>
    have hcmd : base.command = usbipCmdSubmit := hcmd
    rw [dif_pos hcmd]
    simp [UsbipHeaderU.encode]
  | cmdUnlink pdu =>
    have hcmd : base.command = usbipCmdUnlink := hcmd
    rw [dif_neg (by simp [hcmd, usbipCmdUnlink, usbipCmdSubmit]),
      dif_neg (by simp [hcmd, usbipCmdUnlink, usbipRetSubmit]), dif_pos hcmd]
    simp [UsbipHeaderU.encode]
  | retSubmit pdu =>
    have hcmd : base.command = usbipRetSubmit := hcmd
    rw [dif_neg (by simp [hcmd, usbipRetSubmit, usbipCmdSubmit]), dif_pos hcmd]
    simp [UsbipHeaderU.encode]
  | retUnlink pdu =>
    have hcmd : base.command = usbipRetUnlink := hcmd
    rw [dif_neg (by simp [hcmd, usbipRetUnlink, usbipCmdSubmit]),
      dif_neg (by simp [hcmd, usbipRetUnlink, usbipRetSubmit]),
      dif_neg (by simp [hcmd, usbipRetUnlink, usbipCmdUnlink]), dif_pos hcmd]
    simp [UsbipHeaderU.encode]

end UsbipHeader

/-! ### Isochronous packet descriptors -/

/-- `struct usbip_iso_packet_descriptor`, and `struct usb_iso_packet_descriptor`, which has
the same fields. -/
structure IsoPacketDescriptor where
  offset : BitVec 32
  length : BitVec 32
  actualLength : BitVec 32
  status : BitVec 32

/-- A descriptor after `usbip_iso_packet_correct_endian`. -/
def isoCodec : FixedCodec IsoPacketDescriptor :=
  (u32be.pair (u32be.pair (u32be.pair u32be))).map
    (fun p => ⟨p.1, p.2.1, p.2.2.1, p.2.2.2⟩)
    (fun d => (d.offset, d.length, d.actualLength, d.status)) fun _ => rfl

@[simp] theorem isoCodec_size : isoCodec.size = 16 := rfl

end Usbip.Wire
