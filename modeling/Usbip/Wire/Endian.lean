import Usbip.Lib.Endian
import Usbip.Wire.Header

/-!
# Two codecs of the URB header

The kernel converts a header by hand (`usbip_header_correct_endian`): the five basic words, then
the member of the union that the command selects, where the command is read before the basic
words are swapped on the way out and after that on the way in. The client library has its
functions generated from `usbip_struct.h` (`USBIP_STRUCT_PACK`, `USBIP_STRUCT_UNPACK`), one walk
over the members of a structure, and calls them for the two commands it knows.

Both work on the 48 bytes in memory, where the words stand in the order of the host. The kernel's
functions are shown to be the generated walks (`usbipHeaderCorrectEndian_send`,
`usbipHeaderCorrectEndian_receive`), and what a walk does to the image of a header is known from
the library.
-/

namespace Usbip.Wire

open FixedCodec ByteOrder

/-! ### `usbip_struct.h` -/

/-- The members of `struct usbip_header_basic`. -/
def basicMembers : List Member := [.u32, .u32, .u32, .u32, .u32]

/-- The members of `struct usbip_header_cmd_submit`; `setup` is bypassed by the conversions. -/
def cmdSubmitMembers : List Member := [.u32, .u32, .u32, .u32, .u32, .raw 8]

/-- The members of `struct usbip_header_ret_submit`. -/
def retSubmitMembers : List Member := [.u32, .u32, .u32, .u32, .u32]

/-- The members of `struct usbip_header_cmd_unlink`. -/
def cmdUnlinkMembers : List Member := [.u32]

/-- The members of `struct usbip_header_ret_unlink`. -/
def retUnlinkMembers : List Member := [.u32]

/-- The values of `struct usbip_header_basic`. -/
def UsbipHeaderBasic.fields (h : UsbipHeaderBasic) : List Field :=
  [.u32 h.command, .u32 h.seqnum, .u32 h.devid, .u32 h.direction, .u32 h.ep]

/-- The values of `struct usbip_header_cmd_submit`. -/
def UsbipHeaderCmdSubmit.fields (pdu : UsbipHeaderCmdSubmit) : List Field :=
  [.u32 pdu.transferFlags, .u32 pdu.transferBufferLength, .u32 pdu.startFrame,
    .u32 pdu.numberOfPackets, .u32 pdu.interval, .raw (List.ofFn pdu.setup)]

/-- The values of `struct usbip_header_ret_submit`. -/
def UsbipHeaderRetSubmit.fields (pdu : UsbipHeaderRetSubmit) : List Field :=
  [.u32 pdu.status, .u32 pdu.actualLength, .u32 pdu.startFrame, .u32 pdu.numberOfPackets,
    .u32 pdu.errorCount]

/-- The values of the member of the union that is in use. -/
def UsbipHeaderU.fields : UsbipHeaderU → List Field
  | .cmdSubmit pdu => pdu.fields
  | .cmdUnlink pdu => [.u32 pdu.seqnum]
  | .retSubmit pdu => pdu.fields
  | .retUnlink pdu => [.u32 pdu.status]

/-- The member of the union that a command selects; nothing for an unknown command. -/
def unionMembers (command : BitVec 32) : List Member :=
  if command = usbipCmdSubmit then cmdSubmitMembers
  else if command = usbipRetSubmit then retSubmitMembers
  else if command = usbipCmdUnlink then cmdUnlinkMembers
  else if command = usbipRetUnlink then retUnlinkMembers
  else []

/-- A header in the memory of a machine, with the bytes of the union that its member leaves. -/
def UsbipHeader.image (e : ByteOrder) (h : UsbipHeader) (tail : List Byte) : List Byte :=
  e.image h.base.fields ++ (e.image h.u.fields ++ tail)

/-- `pdu->base.command`. -/
def command (e : ByteOrder) (pdu : List Byte) : BitVec 32 := e.host32.decode (pdu.take 4)

/-! ### The kernel -/

/-- `correct_endian_basic`. -/
def correctEndianBasic (e : ByteOrder) (send : Bool) (pdu : List Byte) : List Byte :=
  if send then
    pdu |> e.modify32 0 e.cpuToBe32 |> e.modify32 4 e.cpuToBe32 |> e.modify32 8 e.cpuToBe32
      |> e.modify32 12 e.cpuToBe32 |> e.modify32 16 e.cpuToBe32
  else
    pdu |> e.modify32 0 e.be32ToCpu |> e.modify32 4 e.be32ToCpu |> e.modify32 8 e.be32ToCpu
      |> e.modify32 12 e.be32ToCpu |> e.modify32 16 e.be32ToCpu

/-- `correct_endian_cmd_submit`. -/
def correctEndianCmdSubmit (e : ByteOrder) (send : Bool) (pdu : List Byte) : List Byte :=
  if send then
    pdu |> e.modify32 20 e.cpuToBe32 |> e.modify32 24 e.cpuToBe32 |> e.modify32 28 e.cpuToBe32
      |> e.modify32 32 e.cpuToBe32 |> e.modify32 36 e.cpuToBe32
  else
    pdu |> e.modify32 20 e.be32ToCpu |> e.modify32 24 e.be32ToCpu |> e.modify32 28 e.be32ToCpu
      |> e.modify32 32 e.be32ToCpu |> e.modify32 36 e.be32ToCpu

/-- `correct_endian_ret_submit`. -/
def correctEndianRetSubmit (e : ByteOrder) (send : Bool) (pdu : List Byte) : List Byte :=
  if send then
    pdu |> e.modify32 20 e.cpuToBe32 |> e.modify32 24 e.cpuToBe32 |> e.modify32 28 e.cpuToBe32
      |> e.modify32 32 e.cpuToBe32 |> e.modify32 36 e.cpuToBe32
  else
    pdu |> e.modify32 20 e.be32ToCpu |> e.modify32 24 e.be32ToCpu |> e.modify32 28 e.be32ToCpu
      |> e.modify32 32 e.be32ToCpu |> e.modify32 36 e.be32ToCpu

/-- `correct_endian_cmd_unlink`. -/
def correctEndianCmdUnlink (e : ByteOrder) (send : Bool) (pdu : List Byte) : List Byte :=
  if send then e.modify32 20 e.cpuToBe32 pdu else e.modify32 20 e.be32ToCpu pdu

/-- `correct_endian_ret_unlink`. -/
def correctEndianRetUnlink (e : ByteOrder) (send : Bool) (pdu : List Byte) : List Byte :=
  if send then e.modify32 20 e.cpuToBe32 pdu else e.modify32 20 e.be32ToCpu pdu

/-- `usbip_header_correct_endian`. -/
def usbipHeaderCorrectEndian (e : ByteOrder) (send : Bool) (pdu : List Byte) : List Byte :=
  let pdu' := correctEndianBasic e send pdu
  -- the command is read while it is in the order of the host
  let cmd := if send then command e pdu else command e pdu'
  if cmd = usbipCmdSubmit then correctEndianCmdSubmit e send pdu'
  else if cmd = usbipRetSubmit then correctEndianRetSubmit e send pdu'
  else if cmd = usbipCmdUnlink then correctEndianCmdUnlink e send pdu'
  else if cmd = usbipRetUnlink then correctEndianRetUnlink e send pdu'
  else pdu'

/-! ### The client library -/

/-- `pack_usbip_header_basic`. -/
def packUsbipHeaderBasic (e : ByteOrder) (pdu : List Byte) : List Byte := e.pack basicMembers 0 pdu

/-- `pack_usbip_header_cmd_submit`. -/
def packUsbipHeaderCmdSubmit (e : ByteOrder) (pdu : List Byte) : List Byte :=
  e.pack cmdSubmitMembers 20 pdu

/-- `unpack_usbip_header_basic`. -/
def unpackUsbipHeaderBasic (e : ByteOrder) (pdu : List Byte) : List Byte :=
  e.unpack basicMembers 0 pdu

/-- `unpack_usbip_header_ret_submit`. -/
def unpackUsbipHeaderRetSubmit (e : ByteOrder) (pdu : List Byte) : List Byte :=
  e.unpack retSubmitMembers 20 pdu

/-- The header that `device_urb_transfer` writes once its fields are filled in; `none` for a
command that it refuses. -/
def deviceUrbTransfer (e : ByteOrder) (pdu : List Byte) : Option (List Byte) :=
  if command e pdu = usbipCmdSubmit then
    some (packUsbipHeaderBasic e (packUsbipHeaderCmdSubmit e pdu))
  else none

/-- The header that `device_loop` works on; `none` for a command that it refuses. -/
def deviceLoopHeader (e : ByteOrder) (pdu : List Byte) : Option (List Byte) :=
  let pdu := unpackUsbipHeaderBasic e pdu
  if command e pdu = usbipRetSubmit then some (unpackUsbipHeaderRetSubmit e pdu) else none

/-! ### The kernel's functions are walks over the members -/

variable {e e' : ByteOrder} {h : UsbipHeader} {tail : List Byte}

/-- The kernel and the generated functions convert the same fields on the way out. -/
theorem usbipHeaderCorrectEndian_send (e : ByteOrder) (pdu : List Byte) :
    usbipHeaderCorrectEndian e true pdu =
      e.pack (unionMembers (command e pdu)) 20 (e.pack basicMembers 0 pdu) := by
  simp only [usbipHeaderCorrectEndian, unionMembers, if_true]
  split_ifs <;> rfl

/-- And on the way in, where the command is the one of the unpacked header. -/
theorem usbipHeaderCorrectEndian_receive (e : ByteOrder) (pdu : List Byte) :
    usbipHeaderCorrectEndian e false pdu =
      e.unpack (unionMembers (command e (e.unpack basicMembers 0 pdu))) 20
        (e.unpack basicMembers 0 pdu) := by
  have hbasic : correctEndianBasic e false pdu = e.unpack basicMembers 0 pdu := rfl
  simp only [usbipHeaderCorrectEndian, unionMembers, hbasic, Bool.false_eq_true, if_false]
  split_ifs <;> rfl

/-! ### What they do to the image of a header -/

theorem UsbipHeaderBasic.member_fields (h : UsbipHeaderBasic) :
    h.fields.map Field.member = basicMembers := rfl

/-- The command of a header selects the member of the union that is in use. -/
theorem UsbipHeader.member_fields (h : UsbipHeader) :
    h.u.fields.map Field.member = unionMembers h.base.command := by
  obtain ⟨base, u, hcmd⟩ := h
  change u.fields.map Field.member = unionMembers base.command
  rw [show base.command = u.command from hcmd]
  cases u with
  | cmdSubmit pdu => rfl
  | cmdUnlink pdu => rfl
  | retSubmit pdu => rfl
  | retUnlink pdu => rfl

theorem length_image_basic (h : UsbipHeaderBasic) : (e.image h.fields).length = 20 :=
  length_image h.fields

/-- The command is the first word. -/
theorem command_image (n : BitVec 32) (fs : List Field) (post : List Byte) :
    command e (e.image (.u32 n :: fs) ++ post) = n := by
  have hlen : (e.host32.encode n).length = 4 := (e.host32.length_encode n).trans (host32_size e)
  have htake : (e.image (.u32 n :: fs) ++ post).take 4 = e.host32.encode n := by
    rw [image_cons, List.append_assoc]
    exact List.take_left' hlen
  rw [command, htake, decode_encode]

/-- Walking over the basic words and then over the rest packs both. -/
theorem pack_basic_then {bs us : List Field} (hbs : bs.map Field.member = basicMembers)
    (post : List Byte) :
    e.pack (us.map Field.member) 20 (e.pack basicMembers 0 (e.image bs ++ (e.image us ++ post))) =
      big.image bs ++ (big.image us ++ post) := by
  have hlen : (big.image bs).length = 20 := by rw [length_image, hbs]; rfl
  have hbasic := pack_image (e := e) bs [] (e.image us ++ post)
  have hunion := pack_image (e := e) us (big.image bs) post
  rw [hbs] at hbasic
  rw [hlen] at hunion
  exact (congrArg _ hbasic).trans hunion

/-- The other order gives the same. -/
theorem pack_basic_last {bs us : List Field} (hbs : bs.map Field.member = basicMembers)
    (post : List Byte) :
    e.pack basicMembers 0 (e.pack (us.map Field.member) 20 (e.image bs ++ (e.image us ++ post))) =
      big.image bs ++ (big.image us ++ post) := by
  have hlen : (e.image bs).length = 20 := by rw [length_image, hbs]; rfl
  have hunion := pack_image (e := e) us (e.image bs) post
  have hbasic := pack_image (e := e) bs [] (big.image us ++ post)
  rw [hbs] at hbasic
  rw [hlen] at hunion
  exact (congrArg _ hunion).trans hbasic

/-- Walking over the basic words and then over the rest unpacks both. -/
theorem unpack_basic_then {bs us : List Field} (hbs : bs.map Field.member = basicMembers)
    (post : List Byte) :
    e.unpack (us.map Field.member) 20
        (e.unpack basicMembers 0 (big.image bs ++ (big.image us ++ post))) =
      e.image bs ++ (e.image us ++ post) := by
  have hlen : (e.image bs).length = 20 := by rw [length_image, hbs]; rfl
  have hbasic := unpack_image (e := e) bs [] (big.image us ++ post)
  have hunion := unpack_image (e := e) us (e.image bs) post
  rw [hbs] at hbasic
  rw [hlen] at hunion
  exact (congrArg _ hbasic).trans hunion

/-- **Sending** puts the image of a header into network order. -/
theorem send_image (h : UsbipHeader) (tail : List Byte) :
    usbipHeaderCorrectEndian e true (h.image e tail) = h.image big tail := by
  have hcmd : command e (h.image e tail) = h.base.command := command_image _ _ _
  rw [usbipHeaderCorrectEndian_send, hcmd, ← h.member_fields]
  exact pack_basic_then h.base.member_fields tail

/-- The client library sends the same bytes, from a machine of either order. -/
theorem deviceUrbTransfer_image (hcmd : h.base.command = usbipCmdSubmit) (tail : List Byte) :
    deviceUrbTransfer e (h.image e tail) = some (h.image big tail) := by
  have hcommand : command e (h.image e tail) = usbipCmdSubmit :=
    (command_image _ _ _).trans hcmd
  have hmembers : h.u.fields.map Field.member = cmdSubmitMembers := by
    rw [h.member_fields, hcmd]
    rfl
  have hpack := @pack_basic_last e h.base.fields h.u.fields h.base.member_fields tail
  rw [hmembers] at hpack
  rw [deviceUrbTransfer, if_pos hcommand]
  exact congrArg some hpack

/-- The client library gets back the header that was packed for sending. -/
theorem deviceLoopHeader_image (hcmd : h.base.command = usbipRetSubmit) (tail : List Byte) :
    deviceLoopHeader e (h.image big tail) = some (h.image e tail) := by
  have hmembers : h.u.fields.map Field.member = retSubmitMembers := by
    rw [h.member_fields, hcmd]
    rfl
  have hbasic : e.unpack basicMembers 0 (h.image big tail) =
      e.image h.base.fields ++ (big.image h.u.fields ++ tail) :=
    unpack_image (e := e) h.base.fields [] (big.image h.u.fields ++ tail)
  have hcommand : command e (e.unpack basicMembers 0 (h.image big tail)) = usbipRetSubmit := by
    rw [hbasic]
    exact (command_image _ _ _).trans hcmd
  have hunpack := @unpack_basic_then e h.base.fields h.u.fields h.base.member_fields tail
  rw [hmembers] at hunpack
  rw [deviceLoopHeader]
  exact (if_pos hcommand).trans (congrArg some hunpack)

/-- The zeros that fill the union make the image the encoding of the header. -/
theorem image_zeros (h : UsbipHeader) :
    h.image big (List.replicate (28 - (big.image h.u.fields).length) 0) = h.encode := by
  obtain ⟨base, u, hcmd⟩ := h
  cases u with
  | cmdSubmit pdu => rfl
  | cmdUnlink pdu => rfl
  | retSubmit pdu => rfl
  | retUnlink pdu => rfl

/-- **Receiving and sending** gives back the bytes, whatever the command. -/
theorem send_receive {pdu : List Byte} (hlen : pdu.length = 48) :
    usbipHeaderCorrectEndian e true (usbipHeaderCorrectEndian e false pdu) = pdu := by
  obtain ⟨bs, rest, hbs, hpdu⟩ := exists_image basicMembers (l := pdu) (hlen ▸ by decide)
  have hrest : rest.length = 28 := by
    have hbasic : (big.image bs).length = 20 := by rw [length_image, hbs]; rfl
    rw [hpdu, List.length_append, hbasic] at hlen
    omega
  obtain ⟨cmd, cs, rfl⟩ : ∃ n cs, bs = .u32 n :: cs := by
    match bs, hbs with
    | .u32 n :: cs, _ => exact ⟨n, cs, rfl⟩
  have hunion : ((unionMembers cmd).map Member.size).sum ≤ rest.length := by
    rw [hrest, unionMembers]
    split_ifs <;> decide
  obtain ⟨us, post, hus, rfl⟩ := exists_image (unionMembers cmd) hunion
  -- the command of the unpacked header selects the member that is swapped, both times
  have hbasic : e.unpack basicMembers 0 pdu =
      e.image (.u32 cmd :: cs) ++ (big.image us ++ post) := by
    rw [← hbs, hpdu]
    exact unpack_image (e := e) _ [] _
  have hreceive : usbipHeaderCorrectEndian e false pdu =
      e.image (.u32 cmd :: cs) ++ (e.image us ++ post) := by
    rw [usbipHeaderCorrectEndian_receive, hbasic, command_image, ← hus, ← hbasic, hpdu]
    exact unpack_basic_then hbs post
  rw [hreceive, usbipHeaderCorrectEndian_send, command_image, ← hus, pack_basic_then hbs, hpdu]

/-- **The codecs agree.** Whatever the byte order of the two machines and whatever the union
holds behind its member:

* the kernel sends the network-order image of a header, 48 bytes of it, and with a cleared union
  the encoding of the wire format;
* the client library sends the same bytes for `USBIP_CMD_SUBMIT`;
* it recovers every field of a `USBIP_RET_SUBMIT` that the kernel sends;
* receiving and then sending any 48 bytes gives them back, unknown commands included. -/
theorem header_codecs_agree (e e' : ByteOrder) :
    (∀ (h : UsbipHeader) (tail : List Byte),
      usbipHeaderCorrectEndian e true (h.image e tail) = h.image big tail ∧
        ((big.image h.u.fields).length + tail.length = 28 →
          (usbipHeaderCorrectEndian e true (h.image e tail)).length = UsbipHeader.size)) ∧
    (∀ h : UsbipHeader, usbipHeaderCorrectEndian e true
      (h.image e (List.replicate (28 - (big.image h.u.fields).length) 0)) = h.encode) ∧
    (∀ (h : UsbipHeader) (tail : List Byte), h.base.command = usbipCmdSubmit →
      deviceUrbTransfer e' (h.image e' tail) =
        some (usbipHeaderCorrectEndian e true (h.image e tail))) ∧
    (∀ (h : UsbipHeader) (tail : List Byte), h.base.command = usbipRetSubmit →
      ∃ pdu, deviceLoopHeader e' (usbipHeaderCorrectEndian e true (h.image e tail)) = some pdu ∧
        e'.read basicMembers pdu = h.base.fields ∧
        e'.read retSubmitMembers (pdu.drop 20) = h.u.fields) ∧
    ∀ pdu : List Byte, pdu.length = 48 →
      usbipHeaderCorrectEndian e true (usbipHeaderCorrectEndian e false pdu) = pdu := by
  refine ⟨fun h tail => ⟨send_image h tail, fun hlen => ?_⟩, fun h => ?_, fun h tail hcmd => ?_,
    fun h tail hcmd => ?_, fun pdu => send_receive⟩
  · rw [send_image, UsbipHeader.image, List.length_append, List.length_append,
      length_image_basic, hlen]
    rfl
  · rw [send_image, image_zeros]
  · rw [send_image, deviceUrbTransfer_image hcmd]
  · refine ⟨h.image e' tail, by rw [send_image, deviceLoopHeader_image hcmd], ?_, ?_⟩
    · exact read_image h.base.fields _
    · have hdrop : (h.image e' tail).drop 20 = e'.image h.u.fields ++ tail :=
        List.drop_left' (length_image_basic h.base)
      have hmembers : h.u.fields.map Field.member = retSubmitMembers := by
        rw [h.member_fields, hcmd]
        rfl
      rw [hdrop, ← hmembers, read_image]

end Usbip.Wire
