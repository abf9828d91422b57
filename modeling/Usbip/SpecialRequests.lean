import Usbip.Lib.Endian
import Usbip.Stub.Bounds

/-!
# Special requests

Four control requests must not go to the exported device as they are: the server has to make them
through its own USB stack, which keeps account of configurations, alternate settings and halted
endpoints. The client sends them like any control request; `tweak_special_requests` finds them by
their setup packets and reads the arguments back from there.

A setup packet is a `struct usb_ctrlrequest` in `cmd_submit.setup`, where its 16-bit fields are
little-endian on both ends, and nothing on the way converts it. The client fills it in through
`libusbip_control_msg`, to which value and index are passed by position.

`SpecialCall.meansSame_iff` says which calls mean the same on both ends. All four are recognised for
what they are. The arguments arrive for all of them but one: `usb_set_configuration` passes the
configuration as the index, and 0 as the value, which is where the server looks for it.
-/

namespace Usbip

open Wire FixedCodec

/-! ### The setup packet -/

/-- `struct usb_ctrlrequest` -/
structure UsbCtrlrequest where
  bRequestType : Byte
  bRequest : Byte
  wValue : BitVec 16
  wIndex : BitVec 16
  wLength : BitVec 16

/-- `USB_RECIP_DEVICE` -/
def usbRecipDevice : BitVec 32 := 0

/-- `USB_RECIP_INTERFACE` -/
def usbRecipInterface : BitVec 32 := 1

/-- `USB_RECIP_ENDPOINT` -/
def usbRecipEndpoint : BitVec 32 := 2

/-- `USB_RECIP_OTHER | USB_TYPE_CLASS`, and `USB_RT_PORT` -/
def usbRtPort : BitVec 32 := 0x23

/-- `USB_REQ_CLEAR_FEATURE` -/
def usbReqClearFeature : BitVec 32 := 1

/-- `USB_REQ_SET_FEATURE` -/
def usbReqSetFeature : BitVec 32 := 3

/-- `USB_REQ_SET_CONFIGURATION` -/
def usbReqSetConfiguration : BitVec 32 := 9

/-- `USB_REQ_SET_INTERFACE` -/
def usbReqSetInterface : BitVec 32 := 11

/-- `USB_ENDPOINT_HALT` -/
def usbEndpointHalt : BitVec 16 := 0

/-- `USB_PORT_FEAT_RESET` -/
def usbPortFeatReset : BitVec 16 := 4

/-- A byte. -/
def byteCodec : FixedCodec Byte where
  size := 1
  encode b := [b]
  decode l := l.getD 0 0
  length_encode _ := rfl
  decode_encode _ := rfl

namespace UsbCtrlrequest

/-- A `struct usb_ctrlrequest` in the memory of a machine. -/
def codec (e : ByteOrder) : FixedCodec UsbCtrlrequest :=
  (byteCodec.pair (byteCodec.pair (e.host16.pair (e.host16.pair e.host16)))).map
    (fun p => ⟨p.1, p.2.1, p.2.2.1, p.2.2.2.1, p.2.2.2.2⟩)
    (fun r => (r.bRequestType, r.bRequest, r.wValue, r.wIndex, r.wLength)) fun _ => rfl

/-- The eight bytes, after a write through `(usb_ctrlrequest_t *)setup`. -/
def store (e : ByteOrder) (req : UsbCtrlrequest) : Fin 8 → Byte :=
  (bytes 8).decode ((codec e).encode req)

/-- What is read through `(struct usb_ctrlrequest *)setup_packet`. -/
def load (e : ByteOrder) (setup : Fin 8 → Byte) : UsbCtrlrequest :=
  (codec e).decode ((bytes 8).encode setup)

end UsbCtrlrequest

/-- Eight bytes are the setup packet that was made of them. -/
private theorem bytes_encode_decode {n : ℕ} {l : List Byte} (h : l.length = n) :
    (bytes n).encode ((bytes n).decode l) = l := by
  refine List.ext_getElem (by rw [length_encode]; exact h.symm) fun i _ hi => ?_
  simp [bytes, hi]

namespace UsbCtrlrequest

/-- A setup packet whose 16-bit fields are little-endian is read alike on every machine. -/
theorem load_store (e e' : ByteOrder) (requestType request : Byte)
    (value index length : BitVec 16) :
    load e' (store e ⟨requestType, request, e.cpuToLe16 value, e.cpuToLe16 index,
      e.cpuToLe16 length⟩) =
    ⟨requestType, request, e'.host16.decode (u16le.encode value),
      e'.host16.decode (u16le.encode index), e'.host16.decode (u16le.encode length)⟩ := by
  have himage : (codec e).encode ⟨requestType, request, e.cpuToLe16 value, e.cpuToLe16 index,
      e.cpuToLe16 length⟩ = [requestType] ++ ([request] ++ (u16le.encode value ++
        (u16le.encode index ++ u16le.encode length))) := by
    rw [← e.encode_cpuToLe16, ← e.encode_cpuToLe16, ← e.encode_cpuToLe16]
    rfl
  rw [load, store, himage, bytes_encode_decode (n := 8) rfl]
  cases e' with
  | little => rfl
  | big => rfl

end UsbCtrlrequest

/-! ### The client -/

/-- What `libusbip_control_msg` sets of a `urb_t`. -/
structure ControlUrb where
  direction : BitVec 32
  ep : BitVec 32
  bufLen : BitVec 32
  setup : Fin 8 → Byte

/-- `libusbip_control_msg` up to `work_submit`. All its numbers are of type `int`. -/
def libusbipControlMsg (e : ByteOrder) (requesttype request value index size : BitVec 32) :
    ControlUrb where
  direction := if requesttype &&& 0x80 ≠ 0 then usbipDirIn else usbipDirOut
  ep := 0
  bufLen := size
  setup := UsbCtrlrequest.store e
    { bRequestType := requesttype.setWidth 8
      bRequest := request.setWidth 8
      wValue := e.cpuToLe16 (value.setWidth 16)
      wIndex := e.cpuToLe16 (index.setWidth 16)
      wLength := e.cpuToLe16 (size.setWidth 16) }

/-- The header that `device_urb_transfer` completes and writes. -/
def deviceUrbTransfer (seqnum devid : BitVec 32) (urb : ControlUrb) : UsbipHeader where
  base := ⟨usbipCmdSubmit, seqnum, devid, urb.direction, urb.ep⟩
  u := .cmdSubmit ⟨0, urb.bufLen, 0, 0, 0, urb.setup⟩
  command_eq := rfl

/-- `usb_set_configuration` -/
def usbSetConfiguration (e : ByteOrder) (configuration : BitVec 32) : ControlUrb :=
  libusbipControlMsg e usbRecipDevice usbReqSetConfiguration 0 configuration 0

/-- `usb_set_altinterface`; without a claimed interface it returns `-EINVAL`. -/
def usbSetAltinterface (e : ByteOrder) (handleInterface alternate : BitVec 32) :
    Option ControlUrb :=
  if handleInterface.toInt < 0 then none
  else some (libusbipControlMsg e usbRecipInterface usbReqSetInterface alternate handleInterface 0)

/-- `usb_clear_halt` -/
def usbClearHalt (e : ByteOrder) (ep : BitVec 32) : ControlUrb :=
  libusbipControlMsg e usbRecipEndpoint usbReqClearFeature 0 ep 0

/-- `usb_reset` -/
def usbReset (e : ByteOrder) : ControlUrb :=
  libusbipControlMsg e usbRtPort usbReqSetFeature 4 0 0

/-! ### The server -/

/-- The four requests that `tweak_special_requests` tells apart. -/
inductive SpecialCmd
  | clearHalt
  | setInterface
  | setConfiguration
  | resetDevice
  deriving DecidableEq, Repr

/-- The `bRequest` of a request. -/
def SpecialCmd.request : SpecialCmd → BitVec 32
  | .clearHalt => usbReqClearFeature
  | .setInterface => usbReqSetInterface
  | .setConfiguration => usbReqSetConfiguration
  | .resetDevice => usbReqSetFeature

/-- Its `bRequestType`. -/
def SpecialCmd.requesttype : SpecialCmd → BitVec 32
  | .clearHalt => usbRecipEndpoint
  | .setInterface => usbRecipInterface
  | .setConfiguration => usbRecipDevice
  | .resetDevice => usbRtPort

/-- Its `wValue`, where there is only one. -/
def SpecialCmd.value : SpecialCmd → Option (BitVec 16)
  | .clearHalt => some usbEndpointHalt
  | .resetDevice => some usbPortFeatReset
  | _ => none

/-- What a `tweak_*` function passes on: to `usb_clear_halt` a pipe, to `usb_set_interface` an
interface and an alternate setting, and to the log a configuration. -/
inductive Tweak
  | clearHalt (targetEndp : BitVec 16) (targetIn : Bool) (targetPipe : BitVec 32)
  | setInterface (interface alternate : BitVec 16)
  | setConfiguration (config : BitVec 16)
  | resetDevice
  deriving DecidableEq, Repr

section Stub

variable (e : ByteOrder)

/-- `is_clear_halt_cmd` -/
def isClearHaltCmd (setupPacket : Fin 8 → Byte) : Bool :=
  let req := UsbCtrlrequest.load e setupPacket
  req.bRequest.setWidth 32 == usbReqClearFeature &&
    (req.bRequestType.setWidth 32 == usbRecipEndpoint && req.wValue == usbEndpointHalt)

/-- `is_set_interface_cmd` -/
def isSetInterfaceCmd (setupPacket : Fin 8 → Byte) : Bool :=
  let req := UsbCtrlrequest.load e setupPacket
  req.bRequest.setWidth 32 == usbReqSetInterface &&
    req.bRequestType.setWidth 32 == usbRecipInterface

/-- `is_set_configuration_cmd` -/
def isSetConfigurationCmd (setupPacket : Fin 8 → Byte) : Bool :=
  let req := UsbCtrlrequest.load e setupPacket
  req.bRequest.setWidth 32 == usbReqSetConfiguration &&
    req.bRequestType.setWidth 32 == usbRecipDevice

/-- `is_reset_device_cmd` -/
def isResetDeviceCmd (setupPacket : Fin 8 → Byte) : Bool :=
  let req := UsbCtrlrequest.load e setupPacket
  let value := e.le16ToCpu req.wValue
  req.bRequest.setWidth 32 == usbReqSetFeature &&
    (req.bRequestType.setWidth 32 == usbRtPort && value == usbPortFeatReset)

/-- The test that goes with a request. -/
def SpecialCmd.test : SpecialCmd → (Fin 8 → Byte) → Bool
  | .clearHalt => isClearHaltCmd e
  | .setInterface => isSetInterfaceCmd e
  | .setConfiguration => isSetConfigurationCmd e
  | .resetDevice => isResetDeviceCmd e

/-- `tweak_clear_halt_cmd` -/
def tweakClearHaltCmd (devnum : BitVec 7) (setupPacket : Fin 8 → Byte) : Tweak :=
  let req := UsbCtrlrequest.load e setupPacket
  let targetEndp := e.le16ToCpu req.wIndex &&& 0x000f
  let targetDir := e.le16ToCpu req.wIndex &&& 0x0080
  .clearHalt targetEndp (targetDir != 0)
    (Stub.createPipe .control devnum (targetEndp.setWidth 32) (targetDir != 0))

/-- `tweak_set_interface_cmd` -/
def tweakSetInterfaceCmd (setupPacket : Fin 8 → Byte) : Tweak :=
  let req := UsbCtrlrequest.load e setupPacket
  let alternate := e.le16ToCpu req.wValue
  let interface := e.le16ToCpu req.wIndex
  .setInterface interface alternate

/-- `tweak_set_configuration_cmd`, which does no more than log the configuration. -/
def tweakSetConfigurationCmd (setupPacket : Fin 8 → Byte) : Tweak :=
  let req := UsbCtrlrequest.load e setupPacket
  .setConfiguration (e.le16ToCpu req.wValue)

/-- The function that goes with a request. -/
def SpecialCmd.tweak (devnum : BitVec 7) (setupPacket : Fin 8 → Byte) : SpecialCmd → Tweak
  | .clearHalt => tweakClearHaltCmd e devnum setupPacket
  | .setInterface => tweakSetInterfaceCmd e setupPacket
  | .setConfiguration => tweakSetConfigurationCmd e setupPacket
  | .resetDevice => .resetDevice

/-- `tweak_special_requests` -/
def tweakSpecialRequests (devnum : BitVec 7) (urb : Urb) : Option Tweak :=
  match urb.setupPacket with
  | none => none
  | some setup =>
    if urb.pipe.type ≠ .control then none
    else if isClearHaltCmd e setup then some (tweakClearHaltCmd e devnum setup)
    else if isSetInterfaceCmd e setup then some (tweakSetInterfaceCmd e setup)
    else if isSetConfigurationCmd e setup then some (tweakSetConfigurationCmd e setup)
    else if isResetDeviceCmd e setup then some .resetDevice
    else none

end Stub

/-- The URB that the server builds of a header: `get_pipe` finds the control endpoint, and the setup
packet is a copy of the one in the header. -/
def stubControlUrb (devnum : BitVec 7) (pdu : UsbipHeader) : Option Urb :=
  match pdu.u with
  | .cmdSubmit spdu =>
    some (unpackCmdSubmit (Stub.pipeFields (Stub.createPipe .control devnum pdu.base.ep
      (pdu.base.direction != usbipDirOut))) spdu)
  | _ => none

/-! ### What arrives -/

/-- A call of one of the four functions, with arguments as wide as the fields of a setup packet. -/
inductive SpecialCall
  | setConfiguration (configuration : BitVec 16)
  | setAltinterface (interface alternate : BitVec 16)
  | clearHalt (endp : BitVec 4) (dirIn : Bool)
  | reset
  deriving DecidableEq, Repr

namespace SpecialCall

/-- What the call submits. -/
def urb (e : ByteOrder) : SpecialCall → Option ControlUrb
  | .setConfiguration configuration => some (usbSetConfiguration e (configuration.setWidth 32))
  | .setAltinterface interface alternate =>
    usbSetAltinterface e (interface.setWidth 32) (alternate.setWidth 32)
  | .clearHalt endp dirIn =>
    some (usbClearHalt e (endp.setWidth 32 ||| if dirIn then 0x80 else 0))
  | .reset => some (usbReset e)

/-- The request that the call stands for. -/
def cmd : SpecialCall → SpecialCmd
  | .setConfiguration _ => .setConfiguration
  | .setAltinterface _ _ => .setInterface
  | .clearHalt _ _ => .clearHalt
  | .reset => .resetDevice

/-- The call as the server has to understand it. -/
def tweak (devnum : BitVec 7) : SpecialCall → Tweak
  | .setConfiguration configuration => .setConfiguration configuration
  | .setAltinterface interface alternate => .setInterface interface alternate
  | .clearHalt endp dirIn =>
    .clearHalt (endp.setWidth 16) dirIn
      (Stub.createPipe .control devnum (endp.setWidth 32) dirIn)
  | .reset => .resetDevice

/-- The call as the server does understand it. -/
def received (devnum : BitVec 7) : SpecialCall → Tweak
  | .setConfiguration _ => .setConfiguration 0
  | call => call.tweak devnum

/-- **The call means the same on both ends**: it makes a request, the server finds in the bytes of
its header the setup packet of a control URB, exactly the test of this call recognises it, and the
arguments read back from it are those of the call. -/
def MeansSame (e e' : ByteOrder) (seqnum devid : BitVec 32) (devnum : BitVec 7)
    (call : SpecialCall) : Prop :=
  ∃ curb pdu urb setup, call.urb e = some curb ∧
    UsbipHeader.decode (deviceUrbTransfer seqnum devid curb).encode = some pdu ∧
    stubControlUrb devnum pdu = some urb ∧ urb.setupPacket = some setup ∧
    (∀ cmd : SpecialCmd, cmd.test e' setup = true ↔ cmd = call.cmd) ∧
    tweakSpecialRequests e' devnum urb = some (call.tweak devnum)

variable {e e' : ByteOrder} {seqnum devid : BitVec 32} {devnum : BitVec 7}

/-- 0 is the same in either order, so that comparing with it needs no conversion. -/
private theorem le16ToCpu_eq_zero_iff (n : BitVec 16) : e.le16ToCpu n = 0 ↔ n = 0 := by
  cases e with
  | little => exact Iff.rfl
  | big =>
    constructor
    · intro h
      rw [← ByteOrder.swab_swab u16be ByteOrder.encode_swab16 n]
      change ByteOrder.swab16 (ByteOrder.big.le16ToCpu n) = 0
      rw [h]
      rfl
    · rintro rfl
      rfl

/-- The four tests, on a setup packet that `libusbip_control_msg` fills in. -/
private theorem test_controlMsg (requesttype request value index : BitVec 32) (cmd : SpecialCmd) :
    cmd.test e' (libusbipControlMsg e requesttype request value index 0).setup = true ↔
      (request.setWidth 8).setWidth 32 = cmd.request ∧
        (requesttype.setWidth 8).setWidth 32 = cmd.requesttype ∧
          ∀ v ∈ cmd.value, value.setWidth 16 = v := by
  have hload : UsbCtrlrequest.load e' (libusbipControlMsg e requesttype request value index 0).setup
      = _ := UsbCtrlrequest.load_store ..
  generalize (libusbipControlMsg e requesttype request value index 0).setup = setup at hload ⊢
  cases cmd with
  | clearHalt =>
    have hzero : e'.host16.decode (u16le.encode (value.setWidth 16)) = 0 ↔
        value.setWidth 16 = 0 := by
      rw [← le16ToCpu_eq_zero_iff (e := e'), e'.le16ToCpu_decode]
    simp only [SpecialCmd.test, isClearHaltCmd, hload, SpecialCmd.request, SpecialCmd.requesttype,
      SpecialCmd.value, usbEndpointHalt, Bool.and_eq_true, beq_iff_eq, Option.mem_some_iff,
      forall_eq', hzero]
  | setInterface =>
    simp [SpecialCmd.test, isSetInterfaceCmd, hload, SpecialCmd.request, SpecialCmd.requesttype,
      SpecialCmd.value]
  | setConfiguration =>
    simp [SpecialCmd.test, isSetConfigurationCmd, hload, SpecialCmd.request,
      SpecialCmd.requesttype, SpecialCmd.value]
  | resetDevice =>
    simp [SpecialCmd.test, isResetDeviceCmd, hload, e'.le16ToCpu_decode, SpecialCmd.request,
      SpecialCmd.requesttype, SpecialCmd.value]

/-- A packet with the numbers of one request passes its test and no other. -/
private theorem test_controlMsg_iff {cmd : SpecialCmd} {value : BitVec 32}
    (hvalue : ∀ v ∈ cmd.value, value.setWidth 16 = v) (index : BitVec 32) (cmd' : SpecialCmd) :
    cmd'.test e' (libusbipControlMsg e cmd.requesttype cmd.request value index 0).setup = true ↔
      cmd' = cmd := by
  rw [test_controlMsg]
  constructor
  · rintro ⟨hrequest, -, -⟩
    revert hrequest
    cases cmd <;> cases cmd' <;> decide
  · rintro rfl
    refine ⟨?_, ?_, hvalue⟩
    · cases cmd' <;> rfl
    · cases cmd' <;> rfl

/-- The control endpoint has a control pipe. -/
private theorem usbPipetype_endpointZero : ∀ (devnum : BitVec 7) (isIn : Bool),
    Stub.usbPipetype (Stub.createPipe .control devnum 0 isIn) = .control := by
  decide +kernel

/-- The server finds the setup packet in the header, unchanged. -/
private theorem exists_stubControlUrb (seqnum devid : BitVec 32) (devnum : BitVec 7)
    {curb : ControlUrb} (hep : curb.ep = 0) : ∃ pdu urb,
      UsbipHeader.decode (deviceUrbTransfer seqnum devid curb).encode = some pdu ∧
        stubControlUrb devnum pdu = some urb ∧ urb.setupPacket = some curb.setup ∧
        urb.pipe.type = .control := by
  refine ⟨_, _, UsbipHeader.decode_encode _, rfl, rfl, ?_⟩
  change Stub.usbPipetype (Stub.createPipe .control devnum curb.ep _) = _
  rw [hep, usbPipetype_endpointZero]

/-- Once the tests have been made, one of the four functions is called. -/
private theorem tweakSpecialRequests_eq {urb : Urb} {setup : Fin 8 → Byte} {cmd : SpecialCmd}
    (hcontrol : urb.pipe.type = .control) (hsetup : urb.setupPacket = some setup)
    (htest : ∀ cmd' : SpecialCmd, cmd'.test e' setup = true ↔ cmd' = cmd) :
    tweakSpecialRequests e' devnum urb = some (cmd.tweak e' devnum setup) := by
  have hclear : (isClearHaltCmd e' setup = true ↔ _) := htest .clearHalt
  have hinterface : (isSetInterfaceCmd e' setup = true ↔ _) := htest .setInterface
  have hconfiguration : (isSetConfigurationCmd e' setup = true ↔ _) := htest .setConfiguration
  have hreset : (isResetDeviceCmd e' setup = true ↔ _) := htest .resetDevice
  simp only [tweakSpecialRequests, hsetup, hcontrol, ne_eq, not_true_eq_false, if_false, hclear,
    hinterface, hconfiguration, hreset]
  cases cmd <;> rfl

/-- The endpoint number and the direction bit, one beside the other. -/
private theorem endpointAddress : ∀ (endp : BitVec 4) (dirIn : Bool),
    let index := (endp.setWidth 32 ||| if dirIn then 0x80 else 0 : BitVec 32).setWidth 16
    index &&& 0x000f = endp.setWidth 16 ∧ (index &&& 0x0080 != 0) = dirIn := by
  decide

/-- A claimed interface is not negative. -/
private theorem not_toInt_setWidth_neg (interface : BitVec 16) :
    ¬ (interface.setWidth 32).toInt < 0 := by
  have := interface.isLt
  rw [BitVec.toInt_eq_toNat_cond, BitVec.toNat_setWidth]
  split <;> omega

/-- Each call passes the test that is meant for it and no other, and reaches the server with these
arguments. -/
theorem exists_urb (e e' : ByteOrder) (devnum : BitVec 7) (call : SpecialCall) :
    ∃ curb, call.urb e = some curb ∧ curb.ep = 0 ∧
      (∀ cmd : SpecialCmd, cmd.test e' curb.setup = true ↔ cmd = call.cmd) ∧
      call.cmd.tweak e' devnum curb.setup = call.received devnum := by
  cases call with
  | setConfiguration configuration =>
    have hvalue : ∀ v ∈ SpecialCmd.setConfiguration.value, (0 : BitVec 32).setWidth 16 = v := by
      simp [SpecialCmd.value]
    refine ⟨_, rfl, rfl, test_controlMsg_iff hvalue _, ?_⟩
    -- the value is 0, whatever the configuration
    simp only [cmd, SpecialCmd.tweak, tweakSetConfigurationCmd, usbSetConfiguration,
      libusbipControlMsg, UsbCtrlrequest.load_store, e'.le16ToCpu_decode]
    rfl
  | setAltinterface interface alternate =>
    have hvalue : ∀ v ∈ SpecialCmd.setInterface.value, (alternate.setWidth 32).setWidth 16 = v := by
      simp [SpecialCmd.value]
    refine ⟨_, if_neg (not_toInt_setWidth_neg interface), rfl, test_controlMsg_iff hvalue _, ?_⟩
    simp only [cmd, SpecialCmd.tweak, tweakSetInterfaceCmd, libusbipControlMsg,
      UsbCtrlrequest.load_store, e'.le16ToCpu_decode]
    simp [received, tweak]
  | clearHalt endp dirIn =>
    have hvalue : ∀ v ∈ SpecialCmd.clearHalt.value, (0 : BitVec 32).setWidth 16 = v := by
      simp [SpecialCmd.value, usbEndpointHalt]
    obtain ⟨hendp, hdir⟩ := endpointAddress endp dirIn
    refine ⟨_, rfl, rfl, test_controlMsg_iff hvalue _, ?_⟩
    simp only [cmd, SpecialCmd.tweak, tweakClearHaltCmd, usbClearHalt, libusbipControlMsg,
      UsbCtrlrequest.load_store, e'.le16ToCpu_decode, hendp, hdir]
    simp [received, tweak]
  | reset =>
    have hvalue : ∀ v ∈ SpecialCmd.resetDevice.value, (4 : BitVec 32).setWidth 16 = v := by
      simp [SpecialCmd.value, usbPortFeatReset]
    exact ⟨_, rfl, rfl, test_controlMsg_iff hvalue _, rfl⟩

/-- What the server does with a call, through the bytes of its header. -/
theorem exists_received (e e' : ByteOrder) (seqnum devid : BitVec 32) (devnum : BitVec 7)
    (call : SpecialCall) : ∃ curb pdu urb setup, call.urb e = some curb ∧
      UsbipHeader.decode (deviceUrbTransfer seqnum devid curb).encode = some pdu ∧
      stubControlUrb devnum pdu = some urb ∧ urb.setupPacket = some setup ∧
      (∀ cmd : SpecialCmd, cmd.test e' setup = true ↔ cmd = call.cmd) ∧
      tweakSpecialRequests e' devnum urb = some (call.received devnum) := by
  obtain ⟨curb, hurb, hep, htest, hreceived⟩ := call.exists_urb e e' devnum
  obtain ⟨pdu, urb, hdecode, hstub, hsetup, hcontrol⟩ :=
    exists_stubControlUrb seqnum devid devnum hep
  refine ⟨curb, pdu, urb, curb.setup, hurb, hdecode, hstub, hsetup, htest, ?_⟩
  rw [tweakSpecialRequests_eq hcontrol hsetup htest, ← hreceived]

/-- The call is understood as another one when it is to set a configuration other than 0. -/
theorem received_eq_tweak_iff (devnum : BitVec 7) (call : SpecialCall) :
    call.received devnum = call.tweak devnum ↔
      ∀ configuration, call = setConfiguration configuration → configuration = 0 := by
  cases call with
  | setConfiguration configuration =>
    constructor
    · rintro h _ ⟨⟩
      exact (Tweak.setConfiguration.inj h).symm
    · intro h
      rw [h configuration rfl]
      rfl
  | setAltinterface interface alternate => exact iff_of_true rfl nofun
  | clearHalt endp dirIn => exact iff_of_true rfl nofun
  | reset => exact iff_of_true rfl nofun

/-- The setup packet determines what the server does. -/
private theorem MeansSame.received_eq {call : SpecialCall}
    (h : call.MeansSame e e' seqnum devid devnum) : call.received devnum = call.tweak devnum := by
  obtain ⟨curb, pdu, urb, -, hurb, hdecode, hstub, -, -, htweak⟩ := h
  obtain ⟨curb', pdu', urb', -, hurb', hdecode', hstub', -, -, htweak'⟩ :=
    call.exists_received e e' seqnum devid devnum
  obtain rfl := Option.some.inj (hurb.symm.trans hurb')
  obtain rfl := Option.some.inj (hdecode.symm.trans hdecode')
  obtain rfl := Option.some.inj (hstub.symm.trans hstub')
  exact Option.some.inj (htweak'.symm.trans htweak)

/-- **Special requests mean the same on both ends**, on machines of either byte order, exactly when
they are not to set a configuration other than 0. -/
theorem meansSame_iff (e e' : ByteOrder) (seqnum devid : BitVec 32) (devnum : BitVec 7)
    (call : SpecialCall) : call.MeansSame e e' seqnum devid devnum ↔
      ∀ configuration, call = setConfiguration configuration → configuration = 0 := by
  rw [← received_eq_tweak_iff devnum]
  constructor
  · exact MeansSame.received_eq
  · intro hreceived
    obtain ⟨curb, pdu, urb, setup, hurb, hdecode, hstub, hsetup, htest, htweak⟩ :=
      call.exists_received e e' seqnum devid devnum
    rw [hreceived] at htweak
    exact ⟨curb, pdu, urb, setup, hurb, hdecode, hstub, hsetup, htest, htweak⟩

/-- Configuration 1 is not the one that the server reads, even between two machines of the same
byte order. -/
theorem not_meansSame_setConfiguration :
    ¬ (setConfiguration 1).MeansSame .little .little 1 0x10002 2 :=
  fun h => absurd h.received_eq (by decide)

end SpecialCall

end Usbip
