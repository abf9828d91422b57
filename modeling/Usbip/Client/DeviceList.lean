import Mathlib.Data.List.Forall2
import Mathlib.Data.List.TakeWhile
import Usbip.Lib.Endian
import Usbip.Lib.Reader

/-!
# The device list, from `usbipd` to the client library

`send_reply_devlist` writes the common header of a reply, the number of exported devices, and for
every device its record and the records of its interfaces. `device_info_req_cb` reads this in a
coroutine: two nested counted loops that yield before each record, with their counters in the
request. `read_cb` fills the buffer of the request and resumes the coroutine when it is full, so
how the connection splits the stream does not matter (`Reader.deliver_eq`).

The number of devices is a 32-bit word, so `usbipd` counts modulo `2^32`. And the client stores
the number of devices for its caller in the increment of the outer loop: an empty list leaves the
caller's variable as it was. Apart from that the caller gets the devices that were written
(`devlist_received_iff`).
-/

namespace Usbip.Client

open FixedCodec ByteOrder

/-! ### `libsrc/usbip_struct.h` -/

/-- `struct usbip_usb_device`. -/
structure UsbDevice where
  path : Fin 256 → Byte
  busid : Fin 32 → Byte
  busnum : BitVec 32
  devnum : BitVec 32
  speed : BitVec 32
  idVendor : BitVec 16
  idProduct : BitVec 16
  bcdDevice : BitVec 16
  bDeviceClass : Byte
  bDeviceSubClass : Byte
  bDeviceProtocol : Byte
  bConfigurationValue : Byte
  bNumConfigurations : Byte
  bNumInterfaces : Byte

/-- `struct usbip_usb_interface`. -/
structure UsbInterface where
  bInterfaceClass : Byte
  bInterfaceSubClass : Byte
  bInterfaceProtocol : Byte
  padding : Byte

/-- The members of `struct op_common`. -/
def opCommonMembers : List Member := [.u16, .u16, .u32]

/-- The members of `struct op_devlist_reply`. -/
def opDevlistReplyMembers : List Member := [.u32]

/-- The members of `struct usbip_usb_device`. -/
def usbDeviceMembers : List Member :=
  [.raw 256, .raw 32, .u32, .u32, .u32, .u16, .u16, .u16, .raw 1, .raw 1, .raw 1, .raw 1, .raw 1,
    .raw 1]

/-- The members of `struct usbip_usb_interface`. -/
def usbInterfaceMembers : List Member := [.raw 1, .raw 1, .raw 1, .raw 1]

/-- The values of `struct usbip_usb_device`. -/
def UsbDevice.fields (udev : UsbDevice) : List Field :=
  [.raw ((bytes 256).encode udev.path), .raw ((bytes 32).encode udev.busid), .u32 udev.busnum,
    .u32 udev.devnum, .u32 udev.speed, .u16 udev.idVendor, .u16 udev.idProduct, .u16 udev.bcdDevice,
    .raw [udev.bDeviceClass], .raw [udev.bDeviceSubClass], .raw [udev.bDeviceProtocol],
    .raw [udev.bConfigurationValue], .raw [udev.bNumConfigurations], .raw [udev.bNumInterfaces]]

/-- The values of `struct usbip_usb_interface`. -/
def UsbInterface.fields (uinf : UsbInterface) : List Field :=
  [.raw [uinf.bInterfaceClass], .raw [uinf.bInterfaceSubClass], .raw [uinf.bInterfaceProtocol],
    .raw [uinf.padding]]

/-- A cleared `struct usbip_usb_device`. -/
def UsbDevice.zero : UsbDevice where
  path _ := 0
  busid _ := 0
  busnum := 0
  devnum := 0
  speed := 0
  idVendor := 0
  idProduct := 0
  bcdDevice := 0
  bDeviceClass := 0
  bDeviceSubClass := 0
  bDeviceProtocol := 0
  bConfigurationValue := 0
  bNumConfigurations := 0
  bNumInterfaces := 0

/-- The `struct usbip_usb_device` in memory. -/
def UsbDevice.load (e : ByteOrder) (m : List Byte) : UsbDevice :=
  match e.read usbDeviceMembers m with
  | [.raw path, .raw busid, .u32 busnum, .u32 devnum, .u32 speed, .u16 idVendor, .u16 idProduct,
      .u16 bcdDevice, .raw cls, .raw sub, .raw proto, .raw conf, .raw numConf, .raw numIntf] =>
    ⟨(bytes 256).decode path, (bytes 32).decode busid, busnum, devnum, speed, idVendor, idProduct,
      bcdDevice, cls.getD 0 0, sub.getD 0 0, proto.getD 0 0, conf.getD 0 0, numConf.getD 0 0,
      numIntf.getD 0 0⟩
  | _ => .zero

/-- The `struct usbip_usb_interface` in memory. -/
def UsbInterface.load (m : List Byte) : UsbInterface :=
  ⟨m.getD 0 0, m.getD 1 0, m.getD 2 0, m.getD 3 0⟩

/-- `USBIP_VERSION` and `USBIP_VERSION_NUM`. -/
def usbipVersion : BitVec 16 := 0x111

/-- `OP_REP_DEVLIST`. -/
def opRepDevlist : BitVec 16 := 0x05

/-- `ST_OK`. -/
def stOk : BitVec 32 := 0

/-! ### `usbipd` -/

/-- A `struct usbip_exported_device`: one record for each interface, and a terminated `busid`. -/
structure ExportedDevice where
  udev : UsbDevice
  uinf : List UsbInterface
  length_uinf : uinf.length = udev.bNumInterfaces.toNat
  nul_busid : ∃ i, udev.busid i = 0

/-- `usbip_net_pack_uint32_t` on the word at an offset. -/
def usbipNetPackUint32 (e : ByteOrder) (pack : Bool) (off : ℕ) (m : List Byte) : List Byte :=
  e.modify32 off (if pack then e.cpuToBe32 else e.be32ToCpu) m

/-- `usbip_net_pack_uint16_t` on the word at an offset. -/
def usbipNetPackUint16 (e : ByteOrder) (pack : Bool) (off : ℕ) (m : List Byte) : List Byte :=
  e.modify16 off (if pack then e.cpuToBe16 else e.be16ToCpu) m

/-- `usbip_net_pack_usb_device`. -/
def usbipNetPackUsbDevice (e : ByteOrder) (pack : Bool) (udev : List Byte) : List Byte :=
  udev |> usbipNetPackUint32 e pack 288 |> usbipNetPackUint32 e pack 292
    |> usbipNetPackUint32 e pack 296
    |> usbipNetPackUint16 e pack 300 |> usbipNetPackUint16 e pack 302
    |> usbipNetPackUint16 e pack 304

/-- `usbip_net_pack_usb_interface`: bytes need nothing. -/
def usbipNetPackUsbInterface (_pack : Bool) (uinf : List Byte) : List Byte := uinf

/-- `PACK_OP_COMMON`. -/
def packOpCommon (e : ByteOrder) (pack : Bool) (op : List Byte) : List Byte :=
  op |> usbipNetPackUint16 e pack 0 |> usbipNetPackUint16 e pack 2 |> usbipNetPackUint32 e pack 4

/-- `PACK_OP_DEVLIST_REPLY`. -/
def packOpDevlistReply (e : ByteOrder) (pack : Bool) (reply : List Byte) : List Byte :=
  usbipNetPackUint32 e pack 0 reply

/-- What `usbip_net_send_op_common` writes. -/
def usbipNetSendOpCommon (e : ByteOrder) (code : BitVec 16) (status : BitVec 32) : List Byte :=
  packOpCommon e true (e.image [.u16 usbipVersion, .u16 code, .u32 status])

/-- What the round of `send_reply_devlist` for one device writes. -/
def sendDevice (e : ByteOrder) (edev : ExportedDevice) : List Byte :=
  usbipNetPackUsbDevice e true (e.image edev.udev.fields) ++
    edev.uinf.flatMap fun uinf => usbipNetPackUsbInterface true (e.image uinf.fields)

/-- `reply.ndev`, counted up. -/
def replyNdev (edevs : List ExportedDevice) : BitVec 32 :=
  edevs.foldl (fun ndev _ => ndev + 1) 0

/-- What `send_reply_devlist` writes. -/
def sendReplyDevlist (e : ByteOrder) (edevs : List ExportedDevice) : List Byte :=
  usbipNetSendOpCommon e opRepDevlist stOk ++
    (packOpDevlistReply e true (e.image [.u32 (replyNdev edevs)]) ++ edevs.flatMap (sendDevice e))

/-! ### The client library -/

/-- `libusbip_device_interface_t`. -/
structure DeviceInterface where
  bInterfaceClass : Byte
  bInterfaceSubClass : Byte
  bInterfaceProtocol : Byte

/-- `libusbip_device_info_t`. -/
structure DeviceInfo where
  busid : List Byte
  busnum : BitVec 32
  devnum : BitVec 32
  speed : BitVec 32
  idVendor : BitVec 16
  idProduct : BitVec 16
  bcdDevice : BitVec 16
  bDeviceClass : Byte
  bDeviceSubClass : Byte
  bDeviceProtocol : Byte
  bConfigurationValue : Byte
  bNumConfigurations : Byte
  bNumInterfaces : Byte
  interfaces : List DeviceInterface

/-- An entry of the array from `calloc`. -/
def DeviceInfo.zero : DeviceInfo :=
  ⟨List.replicate 32 0, 0, 0, 0, 0, 0, 0, 0, 0, 0, 0, 0, 0, []⟩

/-- The string that an array of characters holds. -/
def cString (l : List Byte) : List Byte := l.takeWhile (· ≠ 0)

/-- `strncpy(dst, src, n)`. -/
def strncpy (dst src : List Byte) (n : ℕ) : List Byte :=
  let s := cString (src.take n)
  s ++ List.replicate (n - s.length) 0 ++ dst.drop n

/-- What is stored of the record of a device. -/
def DeviceInfo.fill (udev : UsbDevice) (info : DeviceInfo) : DeviceInfo :=
  { info with
    busid := strncpy info.busid (List.ofFn udev.busid) 31
    busnum := udev.busnum
    devnum := udev.devnum
    speed := udev.speed
    idVendor := udev.idVendor
    idProduct := udev.idProduct
    bcdDevice := udev.bcdDevice
    bDeviceClass := udev.bDeviceClass
    bDeviceSubClass := udev.bDeviceSubClass
    bDeviceProtocol := udev.bDeviceProtocol
    bConfigurationValue := udev.bConfigurationValue
    bNumConfigurations := udev.bNumConfigurations
    interfaces := List.replicate udev.bNumInterfaces.toNat ⟨0, 0, 0⟩ }

/-- What is stored of the record of an interface. -/
def DeviceInfo.fillInterface (uinf : UsbInterface) (info : DeviceInfo) : DeviceInfo :=
  { info with
    interfaces := info.interfaces.set info.bNumInterfaces.toNat
      ⟨uinf.bInterfaceClass, uinf.bInterfaceSubClass, uinf.bInterfaceProtocol⟩
    bNumInterfaces := info.bNumInterfaces + 1 }

/-- Where `device_info_req_cb` has yielded. -/
inductive ReqPc
  | header
  | reply
  | udev
  | intf
  | done
  | abort
  deriving DecidableEq

/-- `device_info_req_t`, with the array `*pinfo` and the caller's variable `*pcount`. -/
structure DeviceInfoReq where
  pc : ReqPc
  udev : UsbDevice
  ndev : BitVec 32
  info : List DeviceInfo
  count : BitVec 32
  pcount : BitVec 32

namespace DeviceInfoReq

/-- `req->info[req->count]`. -/
def current (req : DeviceInfoReq) : DeviceInfo := req.info.getD req.count.toNat .zero

/-- A change of `req->info[req->count]`. -/
def modifyCurrent (req : DeviceInfoReq) (f : DeviceInfo → DeviceInfo) : DeviceInfoReq :=
  { req with info := req.info.modify req.count.toNat f }

/-- The test of the loop over the devices. -/
def nextDevice (req : DeviceInfoReq) : DeviceInfoReq :=
  if req.count < req.ndev then { req with pc := .udev } else { req with pc := .done }

/-- The increment of the loop over the devices, and its test. -/
def finishDevice (req : DeviceInfoReq) : DeviceInfoReq :=
  nextDevice { req with count := req.count + 1, pcount := req.count + 1 }

/-- The test of the loop over the interfaces. -/
def nextInterface (req : DeviceInfoReq) : DeviceInfoReq :=
  if req.current.bNumInterfaces < req.udev.bNumInterfaces then { req with pc := .intf }
  else req.finishDevice

/-- The reply header has been read: `CHECK_OP_REPLY` and the test of its status. -/
def recvHeader (e : ByteOrder) (req : DeviceInfoReq) (block : List Byte) : DeviceInfoReq :=
  match e.read opCommonMembers (e.unpack opCommonMembers 0 block) with
  | [.u16 version, .u16 code, .u32 status] =>
    if version ≠ usbipVersion then { req with pc := .abort }
    else if code ≠ opRepDevlist then { req with pc := .abort }
    else if status ≠ stOk then { req with pc := .abort }
    else { req with pc := .reply }
  | _ => { req with pc := .abort }

/-- The number of devices has been read. -/
def recvReply (e : ByteOrder) (req : DeviceInfoReq) (block : List Byte) : DeviceInfoReq :=
  match e.read opDevlistReplyMembers (e.unpack opDevlistReplyMembers 0 block) with
  | [.u32 ndev] => nextDevice { req with ndev := ndev, info := List.replicate ndev.toNat .zero }
  | _ => { req with pc := .abort }

/-- The record of a device has been read. -/
def recvUdev (e : ByteOrder) (req : DeviceInfoReq) (block : List Byte) : DeviceInfoReq :=
  let udev := UsbDevice.load e (e.unpack usbDeviceMembers 0 block)
  nextInterface ({ req with udev := udev }.modifyCurrent (DeviceInfo.fill udev))

/-- The record of an interface has been read. -/
def recvIntf (e : ByteOrder) (req : DeviceInfoReq) (block : List Byte) : DeviceInfoReq :=
  let uinf := UsbInterface.load (e.unpack usbInterfaceMembers 0 block)
  nextInterface (req.modifyCurrent (DeviceInfo.fillInterface uinf))

/-- The request when the reply is awaited. -/
def start (pcount : BitVec 32) : DeviceInfoReq := ⟨.header, .zero, 0, [], 0, pcount⟩

end DeviceInfoReq

/-- `device_info_req_cb` from its first read on. The memory for the array and for the interfaces is
there: of a `calloc` that fails nothing is modelled. -/
def deviceInfoReqCb (e : ByteOrder) : Reader DeviceInfoReq where
  want req :=
    match req.pc with
    | .header => 8
    | .reply => 4
    | .udev => 312
    | .intf => 4
    | .done | .abort => 0
  resume req block :=
    match req.pc with
    | .header => req.recvHeader e block
    | .reply => req.recvReply e block
    | .udev => req.recvUdev e block
    | .intf => req.recvIntf e block
    | .done | .abort => req

/-! ### The same devices -/

/-- An entry describes an exported device, with its interfaces in order. -/
structure SameDevice (edev : ExportedDevice) (info : DeviceInfo) : Prop where
  busid : cString info.busid = cString (List.ofFn edev.udev.busid)
  busnum : info.busnum = edev.udev.busnum
  devnum : info.devnum = edev.udev.devnum
  speed : info.speed = edev.udev.speed
  idVendor : info.idVendor = edev.udev.idVendor
  idProduct : info.idProduct = edev.udev.idProduct
  bcdDevice : info.bcdDevice = edev.udev.bcdDevice
  bDeviceClass : info.bDeviceClass = edev.udev.bDeviceClass
  bDeviceSubClass : info.bDeviceSubClass = edev.udev.bDeviceSubClass
  bDeviceProtocol : info.bDeviceProtocol = edev.udev.bDeviceProtocol
  bConfigurationValue : info.bConfigurationValue = edev.udev.bConfigurationValue
  bNumConfigurations : info.bNumConfigurations = edev.udev.bNumConfigurations
  bNumInterfaces : info.bNumInterfaces = edev.udev.bNumInterfaces
  interfaces : info.interfaces = edev.uinf.map fun uinf =>
    ⟨uinf.bInterfaceClass, uinf.bInterfaceSubClass, uinf.bInterfaceProtocol⟩

/-- The caller finds these devices in `*pinfo` and their number in `*pcount`. -/
structure DeviceInfoReq.Received (req : DeviceInfoReq) (edevs : List ExportedDevice) : Prop where
  count : req.pcount.toNat = edevs.length
  devices : List.Forall₂ SameDevice edevs (req.info.take req.pcount.toNat)

/-! ### One record -/

variable {e e' : ByteOrder}

/-- The packing by hand is the walk over the members. -/
theorem usbipNetPackUsbDevice_true (e : ByteOrder) (m : List Byte) :
    usbipNetPackUsbDevice e true m = e.pack usbDeviceMembers 0 m := rfl

theorem packOpCommon_true (e : ByteOrder) (m : List Byte) :
    packOpCommon e true m = e.pack opCommonMembers 0 m := rfl

theorem packOpDevlistReply_true (e : ByteOrder) (m : List Byte) :
    packOpDevlistReply e true m = e.pack opDevlistReplyMembers 0 m := rfl

/-- A packed record is the image in network order. -/
theorem pack_fields {xs : List Member} {fs : List Field} (h : fs.map Field.member = xs) :
    e.pack xs 0 (e.image fs) = big.image fs := by
  have hpack := pack_image (e := e) fs [] []
  rw [h, List.nil_append, List.nil_append, List.append_nil, List.append_nil] at hpack
  exact hpack

theorem unpack_fields {xs : List Member} {fs : List Field} (h : fs.map Field.member = xs) :
    e.unpack xs 0 (big.image fs) = e.image fs := by
  have hunpack := unpack_image (e := e) fs [] []
  rw [h, List.nil_append, List.nil_append, List.append_nil, List.append_nil] at hunpack
  exact hunpack

theorem read_fields {xs : List Member} {fs : List Field} (h : fs.map Field.member = xs) :
    e.read xs (e.image fs) = fs := by
  have hread := read_image (e := e) fs []
  rwa [h, List.append_nil] at hread

theorem UsbDevice.member_fields (udev : UsbDevice) :
    udev.fields.map Field.member = usbDeviceMembers := by
  simp only [UsbDevice.fields, List.map_cons, List.map_nil, Field.member, length_encode]
  rfl

theorem UsbInterface.member_fields (uinf : UsbInterface) :
    uinf.fields.map Field.member = usbInterfaceMembers := rfl

theorem UsbDevice.load_image (udev : UsbDevice) :
    UsbDevice.load e (e.image udev.fields) = udev := by
  rw [UsbDevice.load, read_fields udev.member_fields]
  simp only [UsbDevice.fields, decode_encode]
  rfl

theorem UsbInterface.load_image (uinf : UsbInterface) :
    UsbInterface.load (e.image uinf.fields) = uinf := rfl

/-- The round of the server for one device: its record, then the records of its interfaces. -/
theorem sendDevice_eq (e : ByteOrder) (edev : ExportedDevice) :
    sendDevice e edev =
      big.image edev.udev.fields ++ edev.uinf.flatMap fun uinf => big.image uinf.fields := by
  rw [sendDevice, usbipNetPackUsbDevice_true, pack_fields edev.udev.member_fields]
  rfl

/-- The entry for an exported device. -/
def ExportedDevice.info (edev : ExportedDevice) : DeviceInfo :=
  { DeviceInfo.zero.fill edev.udev with
    interfaces := edev.uinf.map fun uinf =>
      ⟨uinf.bInterfaceClass, uinf.bInterfaceSubClass, uinf.bInterfaceProtocol⟩
    bNumInterfaces := edev.udev.bNumInterfaces }

/-! ### The loops of the coroutine -/

namespace DeviceInfoReq

variable {req : DeviceInfoReq} {pre post : List DeviceInfo} {cur : DeviceInfo}

/-- The entry in progress stands behind those that are finished. -/
theorem current_eq (hinfo : req.info = pre ++ cur :: post) (hpre : pre.length = req.count.toNat) :
    req.current = cur := by
  rw [current, hinfo, ← hpre]
  simp

theorem modifyCurrent_eq (hinfo : req.info = pre ++ cur :: post)
    (hpre : pre.length = req.count.toNat) (f : DeviceInfo → DeviceInfo) :
    req.modifyCurrent f = { req with info := pre ++ f cur :: post } := by
  have hmodify : ∀ pre : List DeviceInfo,
      (pre ++ cur :: post).modify pre.length f = pre ++ f cur :: post := by
    intro pre
    induction pre with
    | nil => rfl
    | cons d pre ih => exact congrArg (d :: ·) ih
  rw [modifyCurrent, hinfo, ← hpre, hmodify]

/-- A counter below a bound of its own width does not wrap. -/
theorem toNat_add_one {w : ℕ} {a b : BitVec w} (h : a.toNat < b.toNat) :
    (a + 1).toNat = a.toNat + 1 := by
  have hbound := b.isLt
  have hone : (1 : BitVec w).toNat = 1 % 2 ^ w := BitVec.toNat_ofNat 1 w
  rw [BitVec.toNat_add, hone, Nat.add_mod_mod, Nat.mod_eq_of_lt (by omega)]

theorem resume_udev (req : DeviceInfoReq) (block : List Byte) :
    (deviceInfoReqCb e).resume { req with pc := .udev } block =
      recvUdev e { req with pc := .udev } block := by
  dsimp only [deviceInfoReqCb]

theorem resume_header (req : DeviceInfoReq) (block : List Byte) :
    (deviceInfoReqCb e).resume { req with pc := .header } block =
      recvHeader e { req with pc := .header } block := by
  dsimp only [deviceInfoReqCb]

theorem resume_reply (req : DeviceInfoReq) (block : List Byte) :
    (deviceInfoReqCb e).resume { req with pc := .reply } block =
      recvReply e { req with pc := .reply } block := by
  dsimp only [deviceInfoReqCb]

variable (e e') in
/-- The header of a successful reply is accepted. -/
theorem reaches_header (req : DeviceInfoReq) :
    (deviceInfoReqCb e).Reaches { req with pc := .header }
      (usbipNetSendOpCommon e' opRepDevlist stOk) { req with pc := .reply } := by
  have hsend : usbipNetSendOpCommon e' opRepDevlist stOk =
      big.image [.u16 usbipVersion, .u16 opRepDevlist, .u32 stOk] := by
    rw [usbipNetSendOpCommon, packOpCommon_true]
    exact pack_fields rfl
  have hrecv : recvHeader e { req with pc := .header }
      (big.image [.u16 usbipVersion, .u16 opRepDevlist, .u32 stOk]) =
        { req with pc := .reply } := by
    rw [recvHeader, @unpack_fields e opCommonMembers _ rfl,
      @read_fields e opCommonMembers _ rfl]
    simp
  rw [hsend, ← hrecv, ← resume_header]
  exact .single (Nat.succ_pos 7) rfl

variable (e e') in
/-- The number of devices is accepted, and the array is allocated. -/
theorem reaches_reply (req : DeviceInfoReq) (ndev : BitVec 32) :
    (deviceInfoReqCb e).Reaches { req with pc := .reply }
      (packOpDevlistReply e' true (e'.image [.u32 ndev]))
      (nextDevice { req with
        pc := .reply, ndev := ndev, info := List.replicate ndev.toNat .zero }) := by
  have hsend : packOpDevlistReply e' true (e'.image [.u32 ndev]) = big.image [.u32 ndev] := by
    rw [packOpDevlistReply_true]
    exact pack_fields rfl
  have hrecv : recvReply e { req with pc := .reply } (big.image [.u32 ndev]) = nextDevice { req with
      pc := .reply, ndev := ndev, info := List.replicate ndev.toNat .zero } := by
    rw [recvReply, @unpack_fields e opDevlistReplyMembers _ rfl,
      @read_fields e opDevlistReplyMembers _ rfl]
  rw [hsend, ← hrecv, ← resume_reply]
  exact .single (Nat.succ_pos 3) rfl

/-- One record of a device is read. -/
theorem reaches_udev (req : DeviceInfoReq) (udev : UsbDevice) :
    (deviceInfoReqCb e).Reaches { req with pc := .udev } (big.image udev.fields)
      (nextInterface ({ req with pc := .udev, udev := udev }.modifyCurrent
        (DeviceInfo.fill udev))) := by
  have hlen : (big.image udev.fields).length = 312 := by
    rw [length_image, udev.member_fields]
    rfl
  have hrecv : recvUdev e { req with pc := .udev } (big.image udev.fields) =
      nextInterface ({ req with pc := .udev, udev := udev }.modifyCurrent
        (DeviceInfo.fill udev)) := by
    rw [recvUdev, unpack_fields udev.member_fields, UsbDevice.load_image]
  rw [← hrecv, ← resume_udev]
  exact .single (Nat.succ_pos 311) hlen

/-- One record of an interface is read. -/
theorem reaches_intf (req : DeviceInfoReq) (uinf : UsbInterface) :
    (deviceInfoReqCb e).Reaches { req with pc := .intf } (big.image uinf.fields)
      (nextInterface ({ req with pc := .intf }.modifyCurrent
        (DeviceInfo.fillInterface uinf))) := by
  have hrecv : recvIntf e { req with pc := .intf } (big.image uinf.fields) =
      nextInterface ({ req with pc := .intf }.modifyCurrent (DeviceInfo.fillInterface uinf)) := by
    rw [recvIntf, unpack_fields uinf.member_fields, UsbInterface.load_image]
  rw [← hrecv]
  exact Reader.Reaches.single (r := deviceInfoReqCb e) (s := { req with pc := .intf })
    (Nat.succ_pos 3) rfl

/-- What is left to do for a device whose first `got.length` interfaces have been stored. -/
structure Interfaces (udev : UsbDevice) (cur : DeviceInfo) (got : List DeviceInterface)
    (rest : List UsbInterface) : Prop where
  stored : cur.interfaces = got ++ List.replicate rest.length ⟨0, 0, 0⟩
  length_got : got.length = cur.bNumInterfaces.toNat
  total : cur.bNumInterfaces.toNat + rest.length = udev.bNumInterfaces.toNat

variable (e req) in
/-- **Inner loop**: the rest of the interfaces is read, stored and counted. -/
theorem reaches_interfaces (rest : List UsbInterface) {got : List DeviceInterface}
    (hinfo : req.info = pre ++ cur :: post) (hpre : pre.length = req.count.toNat)
    (h : Interfaces req.udev cur got rest) :
    (deviceInfoReqCb e).Reaches req.nextInterface (rest.flatMap fun uinf => big.image uinf.fields)
      (finishDevice { req with info := pre ++
        { cur with
          interfaces := got ++ rest.map fun uinf =>
            ⟨uinf.bInterfaceClass, uinf.bInterfaceSubClass, uinf.bInterfaceProtocol⟩
          bNumInterfaces := req.udev.bNumInterfaces } :: post }) := by
  induction rest generalizing req cur got with
  | nil =>
    have hnum : cur.bNumInterfaces = req.udev.bNumInterfaces := BitVec.eq_of_toNat_eq h.total
    have hstored : got = cur.interfaces := by simpa using h.stored.symm
    have hend : ¬ req.current.bNumInterfaces < req.udev.bNumInterfaces := by
      rw [current_eq hinfo hpre, hnum]
      exact BitVec.lt_irrefl _
    rw [nextInterface, if_neg hend, hstored, ← hnum, List.map_nil, List.append_nil, ← hinfo]
    exact .refl _
  | cons uinf rest ih =>
    have htotal := h.total
    rw [List.length_cons] at htotal
    have hlt : cur.bNumInterfaces.toNat < req.udev.bNumInterfaces.toNat := by omega
    have hgo : req.current.bNumInterfaces < req.udev.bNumInterfaces := by
      rw [current_eq hinfo hpre]
      exact hlt
    have hnum : (cur.bNumInterfaces + 1).toNat = cur.bNumInterfaces.toNat + 1 := toNat_add_one hlt
    -- the record goes into the first entry that is still cleared
    have hfill : Interfaces req.udev (cur.fillInterface uinf)
        (got ++ [⟨uinf.bInterfaceClass, uinf.bInterfaceSubClass, uinf.bInterfaceProtocol⟩])
        rest := by
      constructor
      · rw [DeviceInfo.fillInterface, h.stored, ← h.length_got, List.length_cons,
          List.replicate_succ]
        simp
      · rw [List.length_append, List.length_singleton, h.length_got]
        exact hnum.symm
      · change (cur.bNumInterfaces + 1).toNat + rest.length = _
        omega
    have hrest := @ih { req with info := pre ++ cur.fillInterface uinf :: post } _ _ rfl hpre hfill
    rw [List.append_assoc] at hrest
    have hread := reaches_intf (e := e) req uinf
    rw [@modifyCurrent_eq { req with pc := .intf } pre post cur hinfo hpre] at hread
    rw [nextInterface, if_pos hgo, List.flatMap_cons]
    exact hread.trans hrest

variable (e e' req pre) in
/-- **Outer loop**: the rest of the devices is read, and the caller's count is the last one that
was stored. -/
theorem reaches_devices (edevs : List ExportedDevice)
    (hinfo : req.info = pre ++ List.replicate edevs.length .zero)
    (hpre : pre.length = req.count.toNat)
    (htotal : req.count.toNat + edevs.length = req.ndev.toNat) :
    ∃ req', (deviceInfoReqCb e).Reaches req.nextDevice (edevs.flatMap (sendDevice e')) req' ∧
      req'.pc = .done ∧ req'.info = pre ++ edevs.map ExportedDevice.info ∧
      req'.pcount = if edevs = [] then req.pcount else req.ndev := by
  induction edevs generalizing req pre with
  | nil =>
    have hend : ¬ req.count < req.ndev := by
      intro hlt
      have hlt : req.count.toNat < req.ndev.toNat := hlt
      simp at htotal
      omega
    rw [nextDevice, if_neg hend]
    refine ⟨_, .refl _, rfl, ?_, rfl⟩
    simpa using hinfo
  | cons edev edevs ih =>
    rw [List.length_cons] at hinfo htotal
    rw [List.replicate_succ] at hinfo
    have hgo : req.count < req.ndev := by
      change req.count.toNat < req.ndev.toNat
      omega
    have hcount : (req.count + 1).toNat = req.count.toNat + 1 := toNat_add_one hgo
    let req' : DeviceInfoReq := { req with
      pc := .udev
      udev := edev.udev
      info := pre ++ DeviceInfo.zero.fill edev.udev :: List.replicate edevs.length .zero }
    have hudev : (deviceInfoReqCb e).Reaches req.nextDevice (big.image edev.udev.fields)
        req'.nextInterface := by
      have hread := reaches_udev (e := e) req edev.udev
      rw [@modifyCurrent_eq { req with pc := .udev, udev := edev.udev } pre
        (List.replicate edevs.length .zero) .zero hinfo hpre] at hread
      rw [nextDevice, if_pos hgo]
      exact hread
    have hcleared : Interfaces edev.udev (DeviceInfo.zero.fill edev.udev) [] edev.uinf := by
      refine ⟨by rw [edev.length_uinf]; rfl, rfl, ?_⟩
      have hzero : (DeviceInfo.zero.fill edev.udev).bNumInterfaces.toNat = 0 := rfl
      rw [hzero, Nat.zero_add]
      exact edev.length_uinf
    have hintf := reaches_interfaces e req' edev.uinf rfl hpre hcleared
    -- the device is finished, and the next entry is the first cleared one
    let req'' : DeviceInfoReq := { req' with
      count := req.count + 1
      pcount := req.count + 1
      info := pre ++ edev.info :: List.replicate edevs.length .zero }
    have hpre' : (pre ++ [edev.info]).length = req''.count.toNat := by
      rw [List.length_append, List.length_singleton, hpre]
      exact hcount.symm
    have htotal' : req''.count.toNat + edevs.length = req''.ndev.toNat := by
      change (req.count + 1).toNat + edevs.length = req.ndev.toNat
      omega
    obtain ⟨last, hdevs, hpc, hlast, hpcount⟩ :=
      @ih req'' (pre ++ [edev.info]) (by simp [req'']) hpre' htotal'
    refine ⟨last, ?_, hpc, by rw [hlast, List.append_assoc]; rfl, ?_⟩
    · rw [List.flatMap_cons, sendDevice_eq]
      exact (hudev.trans hintf).trans hdevs
    · rw [hpcount, if_neg (List.cons_ne_nil _ _)]
      split
      next hnil =>
        subst hnil
        refine BitVec.eq_of_toNat_eq (hcount.trans ?_)
        simpa using htotal
      · rfl

end DeviceInfoReq

/-! ### The whole reply -/

/-- `usbipd` counts its devices modulo `2^32`. -/
theorem toNat_replyNdev (edevs : List ExportedDevice) :
    (replyNdev edevs).toNat = edevs.length % 2 ^ 32 := by
  have hcount : ∀ (edevs : List ExportedDevice) (n : BitVec 32),
      (edevs.foldl (fun ndev _ => ndev + 1) n).toNat = (n.toNat + edevs.length) % 2 ^ 32 := by
    intro edevs
    induction edevs with
    | nil => exact fun n => (Nat.mod_eq_of_lt n.isLt).symm
    | cons edev edevs ih =>
      intro n
      have hone : (1 : BitVec 32).toNat = 1 := rfl
      rw [List.foldl_cons, ih, BitVec.toNat_add, hone, List.length_cons, Nat.mod_add_mod]
      congr 1
      omega
  have hzero : (0 : BitVec 32).toNat = 0 := rfl
  exact (hcount edevs 0).trans (by rw [hzero, Nat.zero_add])

/-- **Reading the reply**: the client reads as many devices as the header announces, however the
stream is split, and leaves the rest in the socket. -/
theorem deliver_devlist (pcount : BitVec 32) (edevs : List ExportedDevice)
    {segs : List (List Byte)} (h : segs.flatten = sendReplyDevlist e' edevs) :
    ∃ req, (deviceInfoReqCb e).deliver (DeviceInfoReq.start pcount) segs =
        ⟨req, [], (edevs.drop (edevs.length % 2 ^ 32)).flatMap (sendDevice e')⟩ ∧
      req.pc = .done ∧
      req.info = (edevs.take (edevs.length % 2 ^ 32)).map ExportedDevice.info ∧
      req.pcount = if edevs.take (edevs.length % 2 ^ 32) = [] then pcount else replyNdev edevs := by
  have hlen : (edevs.take (edevs.length % 2 ^ 32)).length = (replyNdev edevs).toNat := by
    rw [toNat_replyNdev, List.length_take_of_le (Nat.mod_le _ _)]
  obtain ⟨req, hdevs, hpc, hinfo, hpcount⟩ := DeviceInfoReq.reaches_devices e e'
    { DeviceInfoReq.start pcount with
      pc := .reply
      ndev := replyNdev edevs
      info := List.replicate (replyNdev edevs).toNat .zero }
    [] (edevs.take (edevs.length % 2 ^ 32)) (by rw [hlen]; rfl) rfl
    (by rw [hlen]; exact Nat.zero_add _)
  have hheader := DeviceInfoReq.reaches_header e e' (DeviceInfoReq.start pcount)
  have hreply := DeviceInfoReq.reaches_reply e e' (DeviceInfoReq.start pcount) (replyNdev edevs)
  refine ⟨req, ?_, hpc, hinfo, hpcount⟩
  refine Reader.deliver_eq (hheader.trans (hreply.trans hdevs)) ?_ ?_
  · simp [deviceInfoReqCb, hpc]
  · rw [h, sendReplyDevlist, List.append_assoc, List.append_assoc, ← List.flatMap_append,
      List.take_append_drop]

/-- A terminated string keeps its value when it is copied into a cleared array that is not
shorter. -/
theorem cString_strncpy {src : List Byte} (h : (cString src).length ≤ 31) :
    cString (strncpy (List.replicate 32 0) src 31) = cString src := by
  have htake : cString (src.take 31) = cString src := by
    rw [cString, ← List.take_takeWhile]
    exact List.take_of_length_le h
  have hall : ∀ b ∈ cString src, decide (b ≠ 0) = true := by
    intro b hb
    exact List.mem_takeWhile_imp (p := fun x => decide (x ≠ 0)) hb
  have hzeros : ∀ l : List Byte, cString (cString src ++ (0 :: l)) = cString src := by
    intro l
    rw [cString, List.takeWhile_append_of_pos hall, List.takeWhile_cons_of_neg (by simp),
      List.append_nil, cString]
  have hdrop : (List.replicate 32 (0 : Byte)).drop 31 = [0] := rfl
  rw [strncpy, htake, hdrop, List.append_assoc]
  cases hn : 31 - (cString src).length with
  | zero => exact hzeros []
  | succ n => exact hzeros (List.replicate n 0 ++ [0])

/-- The entry that the client makes describes the device. -/
theorem ExportedDevice.sameDevice_info (edev : ExportedDevice) : SameDevice edev edev.info where
  busid := by
    obtain ⟨i, hi⟩ := edev.nul_busid
    refine cString_strncpy ?_
    by_contra hlong
    -- a string of 32 characters has no terminator
    have hlen : (List.ofFn edev.udev.busid).length = 32 := List.length_ofFn
    have hwhole : cString (List.ofFn edev.udev.busid) = List.ofFn edev.udev.busid :=
      (List.takeWhile_prefix _).eq_of_length_le (by change _ ≤ (cString _).length; omega)
    have hmem : (0 : Byte) ∈ cString (List.ofFn edev.udev.busid) := by
      rw [hwhole, ← hi]
      exact List.mem_ofFn.mpr ⟨i, rfl⟩
    exact of_decide_eq_true (List.mem_takeWhile_imp (p := fun x => decide (x ≠ 0)) hmem) rfl
  busnum := rfl
  devnum := rfl
  speed := rfl
  idVendor := rfl
  idProduct := rfl
  bcdDevice := rfl
  bDeviceClass := rfl
  bDeviceSubClass := rfl
  bDeviceProtocol := rfl
  bConfigurationValue := rfl
  bNumConfigurations := rfl
  bNumInterfaces := rfl
  interfaces := rfl

/-- **Device list round trip**: for machines of any byte order and any split of the stream, the
client finishes with the devices that were written and no byte unread exactly when their number
fits 32 bits and, if there is none, the caller's count was zero before. -/
theorem devlist_received_iff (e e' : ByteOrder) (pcount : BitVec 32) (edevs : List ExportedDevice)
    (segs : List (List Byte)) (h : segs.flatten = sendReplyDevlist e' edevs) :
    (((deviceInfoReqCb e).deliver (DeviceInfoReq.start pcount) segs).state.pc = .done ∧
      ((deviceInfoReqCb e).deliver (DeviceInfoReq.start pcount) segs).socket = [] ∧
      ((deviceInfoReqCb e).deliver (DeviceInfoReq.start pcount) segs).state.Received edevs) ↔
      edevs.length < 2 ^ 32 ∧ (edevs = [] → pcount = 0) := by
  obtain ⟨req, hdeliver, hpc, hinfo, hpcount⟩ := deliver_devlist (e := e) pcount edevs h
  rw [hdeliver]
  constructor
  · rintro ⟨-, -, hcount, -⟩
    have hcount : req.pcount.toNat = edevs.length := hcount
    refine ⟨hcount ▸ req.pcount.isLt, ?_⟩
    rintro rfl
    rw [List.take_nil, if_pos rfl] at hpcount
    rw [hpcount] at hcount
    exact BitVec.eq_of_toNat_eq hcount
  · rintro ⟨hlt, hempty⟩
    rw [Nat.mod_eq_of_lt hlt, List.take_length] at hinfo hpcount
    have hcount : req.pcount.toNat = edevs.length := by
      rw [hpcount]
      split
      next hnil =>
        rw [hempty hnil, hnil]
        rfl
      · rw [toNat_replyNdev, Nat.mod_eq_of_lt hlt]
    refine ⟨hpc, ?_, hcount, ?_⟩
    · rw [Nat.mod_eq_of_lt hlt, List.drop_length]
      rfl
    · change List.Forall₂ SameDevice edevs (req.info.take req.pcount.toNat)
      rw [hcount, hinfo, List.take_of_length_le (le_of_eq (List.length_map _)),
        List.forall₂_map_right_iff]
      exact List.forall₂_same.mpr fun edev _ => edev.sameDevice_info

/-- A device `1-1` with one interface. -/
def device11 : ExportedDevice where
  udev := { UsbDevice.zero with
    busid := fun i => if i = 0 ∨ i = 2 then 0x31 else if i = 1 then 0x2d else 0
    busnum := 1
    devnum := 2
    bNumInterfaces := 1 }
  uinf := [⟨8, 6, 80, 0⟩]
  length_uinf := rfl
  nul_busid := ⟨31, rfl⟩

/-- A device `2-4` with three interfaces. -/
def device24 : ExportedDevice where
  udev := { UsbDevice.zero with
    busid := fun i => if i = 0 then 0x32 else if i = 1 then 0x2d else if i = 2 then 0x34 else 0
    busnum := 2
    devnum := 4
    idVendor := 0x4a9
    bNumInterfaces := 3 }
  uinf := [⟨3, 0, 0, 0⟩, ⟨1, 1, 0, 0⟩, ⟨1, 2, 0, 0⟩]
  length_uinf := rfl
  nul_busid := ⟨31, rfl⟩

/-- What `usbipd` writes of both, cut in the header of the reply and between the interfaces of the
second device. -/
def devlistSegments : List (List Byte) :=
  let reply := sendReplyDevlist .big [device11, device24]
  [reply.take 5, (reply.drop 5).take 639, (reply.drop 5).drop 639]

theorem flatten_devlistSegments :
    devlistSegments.flatten = sendReplyDevlist .big [device11, device24] := by
  simp only [devlistSegments, List.flatten_cons, List.flatten_nil, List.append_nil,
    List.take_append_drop]

/-- They reach a client of the other byte order. -/
theorem devlist_received_two :
    ((deviceInfoReqCb .little).deliver (DeviceInfoReq.start 0) devlistSegments).state.pc = .done ∧
      ((deviceInfoReqCb .little).deliver (DeviceInfoReq.start 0) devlistSegments).socket = [] ∧
      ((deviceInfoReqCb .little).deliver (DeviceInfoReq.start 0)
        devlistSegments).state.Received [device11, device24] :=
  (devlist_received_iff .little .big 0 [device11, device24] _ flatten_devlistSegments).mpr
    ⟨by decide, by simp⟩

/-- A client that asks the next host with the same variable, as `gadgetfs` does, keeps the count
of the last host when this one exports nothing. -/
theorem empty_devlist_keeps_count :
    ¬ ∀ (pcount : BitVec 32) (edevs : List ExportedDevice) (segs : List (List Byte)),
      segs.flatten = sendReplyDevlist .little edevs →
      ((deviceInfoReqCb .little).deliver (DeviceInfoReq.start pcount) segs).state.pc = .done ∧
        ((deviceInfoReqCb .little).deliver (DeviceInfoReq.start pcount) segs).socket = [] ∧
        ((deviceInfoReqCb .little).deliver (DeviceInfoReq.start pcount) segs).state.Received
          edevs := by
  intro h
  have hsegs : [sendReplyDevlist .little []].flatten = sendReplyDevlist .little [] := by simp
  obtain ⟨req, hdeliver, -, -, hpcount⟩ := deliver_devlist (e := .little) 1 [] hsegs
  obtain ⟨-, -, hcount, -⟩ := h 1 [] _ hsegs
  rw [hdeliver] at hcount
  have hcount : req.pcount.toNat = 0 := hcount
  rw [hpcount, List.take_nil, if_pos rfl] at hcount
  exact absurd hcount (by decide)

end Usbip.Client
