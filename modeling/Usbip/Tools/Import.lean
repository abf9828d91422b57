import Usbip.Lib.Sender
import Usbip.Client.DeviceList
import Usbip.Vhci.LifeCycle
import Usbip.Vhci.Status
import Usbip.Stub.Bounds

/-!
# Importing a device

The two programs that set up a connection before the kernels take it over: `recv_pdu` of
`usbipd` with its two requests, and `query_import_device` of `usbip attach`, with the files of
sysfs that they write. `usbip_host_export_device` gives the socket to `usbip_host` if the device
was available when the list was made; `import_device` looks for a free port and writes the port,
the socket, the device id and the speed into the file `attach`, which `store_attach` reads.

`device_open_cb` of the client library sends the same request and reads the same reply, as a
coroutine that yields before each of the two records.
-/

namespace Usbip.Tools

open FixedCodec ByteOrder Socket Client Scan Vhci

/-! ### Strings -/

/-- `strncmp(a, b, n) == 0`, where what lies behind an array is taken as zero. -/
def strncmp : ℕ → List Byte → List Byte → Bool
  | 0, _, _ => true
  | n + 1, a, b =>
    a.headD 0 == b.headD 0 && (a.headD 0 == 0 || strncmp n a.tail b.tail)

/-! ### `usbip_network.c` -/

/-- `OP_REQ_IMPORT`. -/
def opReqImport : BitVec 16 := 0x8003

/-- `OP_REP_IMPORT`. -/
def opRepImport : BitVec 16 := 0x0003

/-- `OP_REQ_DEVLIST`. -/
def opReqDevlist : BitVec 16 := 0x8005

/-- `OP_UNSPEC`. -/
def opUnspec : BitVec 16 := 0

/-- `ST_NA`. -/
def stNa : BitVec 32 := 1

/-- What `usbip_net_recv_op_common` makes of the eight bytes: the code of the header, if it is one
of this version, with the code that the caller expects and status `ST_OK`. -/
def checkOpCommon (e : ByteOrder) (code : BitVec 16) (block : List Byte) : Option (BitVec 16) :=
  match e.read opCommonMembers (packOpCommon e false block) with
  | [.u16 version, .u16 opCode, .u32 status] =>
    if version ≠ usbipVersion then none
    else if code ≠ opUnspec ∧ opCode ≠ code then none
    else if status ≠ stOk then none
    else some opCode
  | _ => none

/-- `usbip_net_recv_op_common`. -/
def usbipNetRecvOpCommon (e : ByteOrder) (code : BitVec 16) (s : End) :
    Option (BitVec 16) × End :=
  match s.recv 8 with
  | (none, s) => (none, s)
  | (some block, s) => (checkOpCommon e code block, s)

/-! ### `usbipd.c` -/

/-- `SDEV_ST_AVAILABLE`. -/
def sdevStAvailable : ℤ := 1

/-- An entry of `edev_list`: `status` was read from `usbip_status` when the list was made. -/
structure Edev extends ExportedDevice where
  status : ℤ

/-- What a server process finds in sysfs: the list of `usbip_host_refresh_device_list`, unless
that fails, and the result of writing the socket into `usbip_sockfd` of a device. -/
structure Host where
  edevs : Option (List Edev)
  writeSockfd : Edev → ℤ

/-- How the request of one connection ends. `exported` is the device whose `usbip_sockfd` has
been written. -/
structure Served where
  ret : ℤ
  exported : Option Edev
  conn : End

/-- `usbip_host_export_device`. -/
def usbipHostExportDevice (host : Host) (edev : Edev) : ℤ :=
  if edev.status ≠ sdevStAvailable then -1 else host.writeSockfd edev

/-- The search of `recv_request_import`. -/
def findEdev (edevs : List Edev) (busid : List Byte) : Option Edev :=
  edevs.find? fun edev => strncmp 32 busid (List.ofFn edev.udev.busid)

/-- The record of `recv_request_import` for an exported device. -/
def packUdev (e : ByteOrder) (udev : UsbDevice) : List Byte :=
  usbipNetPackUsbDevice e true (e.image udev.fields)

/-- The end of `recv_request_import` for a device that has been exported. -/
def replyImport (e : ByteOrder) (edev : Edev) (s : End) : Served :=
  match s.send (usbipNetSendOpCommon e opRepImport stOk) with
  | (false, s) => ⟨-1, some edev, s⟩
  | (true, s) =>
    match s.send (packUdev e edev.udev) with
    | (false, s) => ⟨-1, some edev, s⟩
    | (true, s) => ⟨0, some edev, s⟩

/-- `recv_request_import`. -/
def recvRequestImport (e : ByteOrder) (host : Host) (edevs : List Edev) (s : End) : Served :=
  match s.recv 32 with
  | (none, s) => ⟨-1, none, s⟩
  | (some busid, s) =>
    match findEdev edevs busid with
    | none => ⟨-1, none, (s.send (usbipNetSendOpCommon e opRepImport stNa)).2⟩
    | some edev =>
      if usbipHostExportDevice host edev < 0 then
        ⟨-1, none, (s.send (usbipNetSendOpCommon e opRepImport stNa)).2⟩
      else replyImport e edev s

/-- One send after the other, up to the first that fails. -/
def sendAll : List (List Byte) → End → Bool × End
  | [], s => (true, s)
  | data :: later, s =>
    match s.send data with
    | (false, s) => (false, s)
    | (true, s) => sendAll later s

/-- The sends of `send_reply_devlist`. -/
def devlistSends (e : ByteOrder) (edevs : List Edev) : List (List Byte) :=
  usbipNetSendOpCommon e opRepDevlist stOk ::
    packOpDevlistReply e true (e.image [.u32 (replyNdev (edevs.map Edev.toExportedDevice))]) ::
    edevs.flatMap fun edev => packUdev e edev.udev ::
      edev.uinf.map fun uinf => usbipNetPackUsbInterface true (e.image uinf.fields)

/-- `recv_request_devlist`: the request has no members. -/
def recvRequestDevlist (e : ByteOrder) (edevs : List Edev) (s : End) : Served :=
  match s.recv 0 with
  | (none, s) => ⟨-1, none, s⟩
  | (some _, s) =>
    match sendAll (devlistSends e edevs) s with
    | (false, s) => ⟨-1, none, s⟩
    | (true, s) => ⟨0, none, s⟩

/-- `recv_pdu`. -/
def recvPdu (e : ByteOrder) (host : Host) (s : End) : Served :=
  match usbipNetRecvOpCommon e opUnspec s with
  | (none, s) => ⟨-1, none, s⟩
  | (some code, s) =>
    match host.edevs with
    | none => ⟨-1, none, s⟩
    | some edevs =>
      if code = opReqDevlist then recvRequestDevlist e edevs s
      else if code = opReqImport then recvRequestImport e host edevs s
      else ⟨-1, none, s⟩

/-! ### `usbip_attach.c` and `vhci_driver.c` -/

/-- `usbip_vhci_get_free_port` on the statuses of the ports as they were read. -/
def usbipVhciGetFreePort (idevs : List VdevStatus) : Option ℕ :=
  idevs.findIdx? (· = .null)

/-- `get_devid`, with the arguments cut to `uint8_t` by `usbip_vhci_attach_device`. -/
def getDevid (busnum devnum : BitVec 32) : BitVec 32 :=
  (busnum.setWidth 8).setWidth 32 <<< 16 ||| (devnum.setWidth 8).setWidth 32

/-- `snprintf(buff, sizeof(buff), "%u %u %u %u", port, sockfd, devid, speed)`. -/
def attachText (port : BitVec 8) (sockfd devid speed : BitVec 32) : List Byte :=
  numeral 10 port.toNat ++ ascii " " ++ numeral 10 sockfd.toNat ++ ascii " " ++
    numeral 10 devid.toNat ++ ascii " " ++ numeral 10 speed.toNat

/-- `MAXNPORT`, the length of the array `idev`. -/
def maxnport : ℕ := 128

/-- What `usbip attach` finds in sysfs: the statuses of the ports, unless
`usbip_vhci_driver_open` fails, and the result of writing the file `attach`. -/
structure Importer where
  idevs : Option (List VdevStatus)
  writeAttach : List Byte → ℤ
  nports_le : ∀ l, idevs = some l → l.length ≤ maxnport

/-- How the request ends: the port or -1. `written` is what has been written into `attach`. -/
structure Attached where
  ret : ℤ
  written : Option (List Byte)
  conn : End

/-- `import_device`. -/
def importDevice (importer : Importer) (sockfd : BitVec 32) (udev : UsbDevice) (s : End) :
    Attached :=
  match importer.idevs with
  | none => ⟨-1, none, s⟩
  | some idevs =>
    match usbipVhciGetFreePort idevs with
    | none => ⟨-1, none, s⟩
    | some port =>
      let text := attachText (BitVec.ofNat 8 port) sockfd (getDevid udev.busnum udev.devnum)
        udev.speed
      ⟨if importer.writeAttach text < 0 then -1 else port, some text, s⟩

/-- The end of `query_import_device`: the reply has been read into the array. -/
def checkReply (e : ByteOrder) (importer : Importer) (busid : List Byte) (sockfd : BitVec 32)
    (block : List Byte) (s : End) : Attached :=
  let udev := UsbDevice.load e (usbipNetPackUsbDevice e false block)
  if !strncmp 32 (List.ofFn udev.busid) busid then ⟨-1, none, s⟩
  else importDevice importer sockfd udev s

/-- `request.busid`. -/
def requestBusid (busid : List Byte) : List Byte := strncpy (List.replicate 32 0) busid 31

/-- `query_import_device`. -/
def queryImportDevice (e : ByteOrder) (importer : Importer) (busid : List Byte)
    (sockfd : BitVec 32) (s : End) : Attached :=
  match s.send (usbipNetSendOpCommon e opReqImport stOk) with
  | (false, s) => ⟨-1, none, s⟩
  | (true, s) =>
    match s.send (requestBusid busid) with
    | (false, s) => ⟨-1, none, s⟩
    | (true, s) =>
      match usbipNetRecvOpCommon e opRepImport s with
      | (none, s) => ⟨-1, none, s⟩
      | (some _, s) =>
        match s.recv 312 with
        | (none, s) => ⟨-1, none, s⟩
        | (some block, s) => checkReply e importer busid sockfd block s

/-! ### `vhci_sysfs.c` -/

/-- `sscanf(buf, "%u %u %u %u", &rhport, &sockfd, &devid, &speed)`, for variables that are zero:
what is not converted stays so. A `%u` of the kernel takes no sign and keeps the low bits. -/
def scanAttach (buf : List Byte) : BitVec 32 × BitVec 32 × BitVec 32 × BitVec 32 :=
  match scanNat buf with
  | none => (0, 0, 0, 0)
  | some (rhport, c) =>
    match scanNat (skipSpace c) with
    | none => (.ofNat 32 rhport, 0, 0, 0)
    | some (sockfd, c) =>
      match scanNat (skipSpace c) with
      | none => (.ofNat 32 rhport, .ofNat 32 sockfd, 0, 0)
      | some (devid, c) =>
        match scanNat (skipSpace c) with
        | none => (.ofNat 32 rhport, .ofNat 32 sockfd, .ofNat 32 devid, 0)
        | some (speed, _) =>
          (.ofNat 32 rhport, .ofNat 32 sockfd, .ofNat 32 devid, .ofNat 32 speed)

/-- `store_attach` on the ports: `none` for `-EINVAL`. -/
def storeAttach (sockfdToSocket : BitVec 32 → Option ℕ) (buf : List Byte)
    (ports : Fin vhciNports → LifeCycle) : Option (Fin vhciNports → LifeCycle) :=
  match scanAttach buf with
  | (rhport, sockfd, devid, speed) =>
    if h : rhport.toNat < vhciNports then
      if !LifeCycle.validSpeed speed.toNat then none
      else
        match sockfdToSocket sockfd with
        | none => none
        | some socket =>
          if (ports ⟨rhport.toNat, h⟩).status ≠ .null then none
          else
            some (Function.update ports ⟨rhport.toNat, h⟩
              ((ports ⟨rhport.toNat, h⟩).storeAttach speed.toNat devid.toNat (some socket)))
    else none

/-! ### `client.c` -/

/-- Where `device_open_cb` has yielded, or how it has ended: `restart` after a refused request,
which is repeated on a new connection as long as there are retries. -/
inductive OpenPc
  | header
  | reply
  | opened
  | restart
  | abort
  deriving DecidableEq

/-- What `device_open_cb` uses of a `device_t`. -/
structure DeviceOpen where
  pc : OpenPc
  reqBusid : List Byte
  devid : BitVec 32
  retry : ℤ
  maxRetry : ℤ

/-- `libusbip_device_open`. -/
def libusbipDeviceOpen (busid : List Byte) (busnum devnum : BitVec 32) (retry : ℤ) : DeviceOpen :=
  ⟨.header, strncpy (List.replicate 32 0) busid 31, busnum <<< 16 ||| devnum, 0, retry⟩

/-- What `device_open_cb` writes. -/
def DeviceOpen.request (e : ByteOrder) (dev : DeviceOpen) : List Byte :=
  e.pack opCommonMembers 0 (e.image [.u16 usbipVersion, .u16 opReqImport, .u32 0]) ++ dev.reqBusid

/-- The reply header has been read. -/
def DeviceOpen.recvHeader (e : ByteOrder) (dev : DeviceOpen) (block : List Byte) : DeviceOpen :=
  match e.read opCommonMembers (e.unpack opCommonMembers 0 block) with
  | [.u16 version, .u16 code, .u32 status] =>
    if version ≠ usbipVersion then { dev with pc := .abort }
    else if code ≠ opRepImport then { dev with pc := .abort }
    else if status ≠ stOk then
      if dev.retry + 1 > dev.maxRetry then { dev with pc := .abort, retry := dev.retry + 1 }
      else { dev with pc := .restart, retry := dev.retry + 1 }
    else { dev with pc := .reply }
  | _ => { dev with pc := .abort }

/-- The record of the device has been read. -/
def DeviceOpen.recvReply (e : ByteOrder) (dev : DeviceOpen) (block : List Byte) : DeviceOpen :=
  let udev := UsbDevice.load e (e.unpack usbDeviceMembers 0 block)
  if !strncmp 32 (List.ofFn udev.busid) dev.reqBusid then { dev with pc := .abort }
  else { dev with pc := .opened }

/-- `device_open_cb` from its first read on. -/
def deviceOpenCb (e : ByteOrder) : Reader DeviceOpen where
  want dev :=
    match dev.pc with
    | .header => 8
    | .reply => 312
    | .opened | .restart | .abort => 0
  resume dev block :=
    match dev.pc with
    | .header => dev.recvHeader e block
    | .reply => dev.recvReply e block
    | .opened | .restart | .abort => dev

/-! ### `stub_dev.c` -/

/-- The `devid` of `stub_device_alloc`, from the numbers of the bus and of the device. -/
def stubDevid (busnum devnum : BitVec 32) : BitVec 32 := busnum <<< 16 ||| devnum

end Usbip.Tools
