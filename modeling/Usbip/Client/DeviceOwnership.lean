import Mathlib.Data.List.GetD
import Usbip.Client.DeviceList
import Usbip.Lib.Heap

/-!
# Who owns the device list

`device_info_req_cb` gives its caller the array of the devices as soon as their number has come,
and their count in the increment of its loop; the array of the interfaces of a device is allocated
with its record. When the request is destroyed it frees the array of the devices if none has been
finished. `libusbip_free_devices_info` is the caller's way to free the lot.

`ReplyStream` is what a whole reply is, read off the bytes. The client returns 0 for just these,
but the caller owns what was allocated, and can free it, only in few cases (`ownsDevices_iff`):
an empty list is freed by both, and `libusbip_free_devices_info` frees the interfaces of the first
device once for each device.
-/

namespace Usbip.Client

open Heap FixedCodec ByteOrder

/-! ### The request and its memory -/

/-- `device_info_req_t` with the blocks that it allocates, numbered by `next`: the member
`interfaces` of the entries of the array, `req->info`, and the caller's variable `*pinfo`. A null
pointer is `none`. -/
structure DeviceInfoMem where
  req : DeviceInfoReq
  live : ℕ → Bool
  next : ℕ
  interfaces : ℕ → Option (Pointer ℕ)
  info : Option (Pointer ℕ)
  pinfo : Option (Pointer ℕ)

namespace DeviceInfoMem

/-- A `calloc` that succeeds, as every one is taken to do here: it gives a block of its own,
also for an array without entries. -/
def calloc (mem : DeviceInfoMem) : DeviceInfoMem :=
  { mem with live := Function.update mem.live mem.next true, next := mem.next + 1 }

/-- The number of devices has been read. -/
def recvReply (e : ByteOrder) (mem : DeviceInfoMem) (block : List Byte) : DeviceInfoMem :=
  { mem.calloc with
    req := mem.req.recvReply e block
    interfaces := fun _ => none
    info := some (.start mem.next)
    pinfo := some (.start mem.next) }

/-- The record of a device has been read. -/
def recvUdev (e : ByteOrder) (mem : DeviceInfoMem) (block : List Byte) : DeviceInfoMem :=
  { mem.calloc with
    req := mem.req.recvUdev e block
    interfaces :=
      Function.update mem.interfaces mem.req.count.toNat (some (.start mem.next)) }

/-- The request when the reply is awaited, with what the caller's variables hold. -/
def start (pinfo : Option (Pointer ℕ)) (pcount : BitVec 32) : DeviceInfoMem where
  req := .start pcount
  live _ := false
  next := 0
  interfaces _ := none
  info := none
  pinfo := pinfo

/-- `device_info_req_cb(work, wa_destroy)`. -/
def destroy (mem : DeviceInfoMem) : Option (ℕ → Bool) :=
  if mem.req.count = 0 then freeOpt mem.live mem.info else some mem.live

end DeviceInfoMem

/-- `deviceInfoReqCb` with the memory. -/
def deviceInfoMemCb (e : ByteOrder) : Reader DeviceInfoMem where
  want mem := (deviceInfoReqCb e).want mem.req
  resume mem block :=
    match mem.req.pc with
    | .reply => mem.recvReply e block
    | .udev => mem.recvUdev e block
    | .header | .intf | .done | .abort =>
      { mem with req := (deviceInfoReqCb e).resume mem.req block }

/-- What ends a request early: a code of libuv, as `WORK_ABORT` and `WORK_SET_ERR` store it. -/
structure ErrorCode where
  code : ℤ
  ne_zero : code ≠ 0

/-- `work->ret` at `work_done`; `err` is the error that ends the request at each of its yields. -/
def workRet (err : ReqPc → ErrorCode) : ReqPc → ℤ
  | .done => 0
  | pc => (err pc).code

/-- What the caller has when the request is gone: the result, its two variables, and the blocks
that were allocated with the pointers in the array. -/
structure DevicesInfo where
  ret : ℤ
  info : Option (Pointer ℕ)
  count : BitVec 32
  allocated : ℕ
  live : ℕ → Bool
  interfaces : ℕ → Option (Pointer ℕ)

/-- What is left of a request that has been destroyed. -/
def DeviceInfoMem.result (err : ReqPc → ErrorCode) (mem : DeviceInfoMem) (live : ℕ → Bool) :
    DevicesInfo :=
  ⟨workRet err mem.req.pc, mem.pinfo, mem.req.pcount, mem.next, live, mem.interfaces⟩

/-- `libusbip_get_devices_info`, when the server sends these segments and then no more, or the
time is over. -/
def libusbipGetDevicesInfo (e : ByteOrder) (err : ReqPc → ErrorCode)
    (pinfo : Option (Pointer ℕ)) (pcount : BitVec 32) (segs : List (List Byte)) :
    Option DevicesInfo :=
  let mem := ((deviceInfoMemCb e).deliver (.start pinfo pcount) segs).state
  mem.destroy.map (mem.result err)

/-- The loop of `libusbip_free_devices_info`: `free(info->interfaces)`, `n` times. -/
def freeInterfaces (info interfaces : Option (Pointer ℕ)) (live : ℕ → Bool) :
    ℕ → Option (ℕ → Bool)
  | 0 => some live
  | n + 1 =>
    if info.any fun p => live p.block then
      (freeOpt live interfaces).bind fun live => freeInterfaces info interfaces live n
    else none

/-- `libusbip_free_devices_info(*info, *count)`. -/
def DevicesInfo.libusbipFreeDevicesInfo (out : DevicesInfo) : Option (ℕ → Bool) :=
  (freeInterfaces out.info (out.interfaces 0) out.live out.count.toNat).bind fun live =>
    freeOpt live out.info

/-! ### What is asked of them -/

/-- The header of a reply without error. -/
def replyHeader : List Byte := [0x01, 0x11, 0x00, 0x05, 0x00, 0x00, 0x00, 0x00]

/-- The number of devices that a reply announces. -/
def replyNum (stream : List Byte) : ℕ := (u32be.decode ((stream.drop 8).take 4)).toNat

/-- The length of the record of a device with those of its interfaces. -/
def deviceSize (stream : List Byte) : ℕ := 312 + 4 * (stream.getD 311 0).toNat

/-- So many devices are at the front. -/
def DeviceRecords : ℕ → List Byte → Prop
  | 0, _ => True
  | n + 1, stream => deviceSize stream ≤ stream.length ∧
      DeviceRecords n (stream.drop (deviceSize stream))

/-- A whole reply is at the front. -/
structure ReplyStream (stream : List Byte) : Prop where
  header : stream.take 8 = replyHeader
  num : 12 ≤ stream.length
  devices : DeviceRecords (replyNum stream) (stream.drop 12)

namespace DevicesInfo

/-- `*info` is an array that has not been freed. -/
def InfoLive (out : DevicesInfo) : Prop := ∃ b, out.info = some (.start b) ∧ out.live b = true

/-- A block is `*info` or the array of the interfaces of one of the `*count` devices there. -/
def Reachable (out : DevicesInfo) (b : ℕ) : Prop :=
  out.info = some (.start b) ∨
    out.InfoLive ∧ ∃ i < out.count.toNat, out.interfaces i = some (.start b)

end DevicesInfo

/-- The result tells what was received, no block is lost or freed behind the caller's back, and
the caller can free them all. -/
structure OwnsDevices (stream : List Byte) (out : DevicesInfo) : Prop where
  ret : out.ret = 0 ↔ ReplyStream stream
  count : out.ret = 0 → out.count.toNat = replyNum stream
  infoLive : out.ret = 0 → out.InfoLive
  either : out.ret ≠ 0 → ∀ b < out.allocated, Xor (out.live b = false) (out.Reachable b)
  free : out.InfoLive → ∃ live, out.libusbipFreeDevicesInfo = some live ∧
    ∀ b < out.allocated, live b = false

/-- Of the reply not even the number of devices is read, or one device as a whole and of a next
one not even the record. -/
def OneDeviceRead (stream : List Byte) : Prop :=
  stream.take 8 = replyHeader → 12 ≤ stream.length →
    deviceSize (stream.drop 12) ≤ (stream.drop 12).length ∧
      (replyNum stream = 1 ∨ 1 < replyNum stream ∧
        (stream.drop 12).length < deviceSize (stream.drop 12) + 312)

/-! ### One record -/

variable {e : ByteOrder}

/-- Any eight bytes are a header, and only one is that of a reply without error. -/
theorem recvHeader_eq (req : DeviceInfoReq) {block : List Byte} (h : block.length = 8) :
    req.recvHeader e block =
      { req with pc := if block = replyHeader then .reply else .abort } := by
  obtain ⟨fs, hfs, hblock⟩ := exists_image_eq opCommonMembers h
  obtain ⟨version, code, status, rfl⟩ :
      ∃ version code status, fs = [.u16 version, .u16 code, .u32 status] :=
    ⟨_, _, _, (read_fields (e := big) hfs).symm⟩
  have hiff : block = replyHeader ↔
      version = usbipVersion ∧ code = opRepDevlist ∧ status = stOk := by
    have hheader : replyHeader = big.image [.u16 usbipVersion, .u16 opRepDevlist, .u32 stOk] := rfl
    rw [hblock, hheader]
    constructor
    · intro heq
      have hread := congrArg (big.read opCommonMembers) heq
      rw [@read_fields big opCommonMembers _ rfl, @read_fields big opCommonMembers _ rfl] at hread
      simpa using hread
    · rintro ⟨rfl, rfl, rfl⟩
      rfl
  rw [DeviceInfoReq.recvHeader, hblock, unpack_fields hfs, read_fields hfs, ← hblock]
  by_cases hversion : version = usbipVersion
  · by_cases hcode : code = opRepDevlist
    · by_cases hstatus : status = stOk
      · simp [hiff, hversion, hcode, hstatus]
      · simp [hiff, hversion, hcode, hstatus]
    · simp [hiff, hversion, hcode]
  · simp [hiff, hversion]

theorem recvReply_eq (req : DeviceInfoReq) {block : List Byte} (h : block.length = 4) :
    req.recvReply e block = DeviceInfoReq.nextDevice { req with
      ndev := u32be.decode block
      info := List.replicate (u32be.decode block).toNat .zero } := by
  have hblock : block = big.image [.u32 (u32be.decode block)] := by
    rw [image_cons, image_nil, List.append_nil]
    exact (u32be_encode_decode h).symm
  rw [DeviceInfoReq.recvReply, hblock, @unpack_fields e opDevlistReplyMembers _ rfl,
    @read_fields e opDevlistReplyMembers _ rfl, ← hblock]

/-- The last byte of the record of a device is the number of its interfaces. -/
theorem numInterfaces_load {block : List Byte} (h : block.length = 312) :
    (UsbDevice.load e (e.unpack usbDeviceMembers 0 block)).bNumInterfaces = block.getD 311 0 := by
  obtain ⟨fs, hfs, hblock⟩ := exists_image_eq usbDeviceMembers h
  obtain ⟨path, busid, busnum, devnum, speed, idVendor, idProduct, bcdDevice, cls, sub, proto, conf,
      numConf, numIntf, rfl⟩ : ∃ path busid busnum devnum speed idVendor idProduct bcdDevice cls sub
        proto conf numConf numIntf, fs = [.raw path, .raw busid, .u32 busnum, .u32 devnum,
          .u32 speed, .u16 idVendor, .u16 idProduct, .u16 bcdDevice, .raw cls, .raw sub, .raw proto,
          .raw conf, .raw numConf, .raw numIntf] :=
    ⟨_, _, _, _, _, _, _, _, _, _, _, _, _, _, (read_fields (e := big) hfs).symm⟩
  have hini : (big.image [.raw path, .raw busid, .u32 busnum, .u32 devnum, .u32 speed,
      .u16 idVendor, .u16 idProduct, .u16 bcdDevice, .raw cls, .raw sub, .raw proto, .raw conf,
      .raw numConf]).length = 311 := by
    rw [length_image]
    exact congrArg (fun ms => (List.map Member.size (List.dropLast ms)).sum) hfs
  have hlast : block = big.image [.raw path, .raw busid, .u32 busnum, .u32 devnum, .u32 speed,
      .u16 idVendor, .u16 idProduct, .u16 bcdDevice, .raw cls, .raw sub, .raw proto, .raw conf,
      .raw numConf] ++ numIntf := by
    rw [hblock]
    simp only [image_cons, image_nil, List.append_assoc, List.append_nil]
    rfl
  have hget : block.getD 311 0 = numIntf.getD 0 0 := by
    rw [hlast, List.getD_append_right _ _ _ _ (le_of_eq hini), hini]
  rw [hget, hblock, UsbDevice.load, unpack_fields hfs, read_fields hfs]

namespace DeviceInfoReq

/-! ### The loops on any stream -/

variable {req : DeviceInfoReq} {stream : List Byte} {k : ℕ}

theorem current_modifyCurrent (h : req.count.toNat < req.info.length)
    (f : DeviceInfo → DeviceInfo) : (req.modifyCurrent f).current = f req.current := by
  rw [current, current, modifyCurrent, List.getD_eq_getElem?_getD, List.getElem?_modify,
    List.getD_eq_getElem?_getD, List.getElem?_eq_getElem h]
  simp

theorem getD_modifyCurrent {i : ℕ} (h : req.count.toNat ≠ i) (f : DeviceInfo → DeviceInfo) :
    (req.modifyCurrent f).info.getD i .zero = req.info.getD i .zero := by
  rw [modifyCurrent, List.getD_eq_getElem?_getD, List.getElem?_modify,
    List.getD_eq_getElem?_getD]
  simp [h]

/-- At the test of the outer loop: the entries that are not finished are as `calloc` left them. -/
structure Cleared (req : DeviceInfoReq) : Prop where
  length_info : req.info.length = req.ndev.toNat
  count_le : req.count.toNat ≤ req.ndev.toNat
  later : ∀ i, req.count.toNat ≤ i → (req.info.getD i .zero).bNumInterfaces = 0

/-- At the test of the inner loop: so many interfaces are left. -/
structure Within (req : DeviceInfoReq) (k : ℕ) : Prop where
  length_info : req.info.length = req.ndev.toNat
  count_lt : req.count.toNat < req.ndev.toNat
  later : ∀ i, req.count.toNat < i → (req.info.getD i .zero).bNumInterfaces = 0
  left : req.current.bNumInterfaces.toNat + k = req.udev.bNumInterfaces.toNat

theorem nextDevice_of_lt (h : req.count.toNat < req.ndev.toNat) :
    req.nextDevice = { req with pc := .udev } := if_pos h

theorem nextDevice_of_eq (h : req.count.toNat = req.ndev.toNat) :
    req.nextDevice = { req with pc := .done } := by
  rw [nextDevice, if_neg]
  intro hlt
  have hlt : req.count.toNat < req.ndev.toNat := hlt
  omega

/-- The last interface finishes the device. -/
theorem Within.finish (h : Within req 0) : ∃ req', Cleared req' ∧
    req'.count.toNat = req.count.toNat + 1 ∧ req'.ndev = req.ndev ∧
      req.nextInterface = req'.nextDevice := by
  have hcount : (req.count + 1).toNat = req.count.toNat + 1 := toNat_add_one h.count_lt
  refine ⟨{ req with count := req.count + 1, pcount := req.count + 1 }, ⟨h.length_info, ?_, ?_⟩,
    hcount, rfl, ?_⟩
  · dsimp only
    rw [hcount]
    exact h.count_lt
  · intro i hi
    dsimp only at hi
    rw [hcount] at hi
    exact h.later i hi
  · have hend : ¬ req.current.bNumInterfaces < req.udev.bNumInterfaces := by
      rw [BitVec.lt_def, ← h.left]
      exact Nat.lt_irrefl _
    rw [nextInterface, if_neg hend, finishDevice]

theorem Within.nextInterface (h : Within req (k + 1)) :
    req.nextInterface = { req with pc := .intf } := by
  refine if_pos ?_
  rw [BitVec.lt_def, ← h.left]
  omega

/-- One record of an interface is read. -/
theorem Within.readAll_intf (h : Within req (k + 1)) (hlen : 4 ≤ stream.length) :
    ∃ req', Within req' k ∧ req'.count = req.count ∧ req'.ndev = req.ndev ∧
      (deviceInfoReqCb e).readAll req.nextInterface stream =
        (deviceInfoReqCb e).readAll req'.nextInterface (stream.drop 4) := by
  have hcurrent : req.count.toNat < req.info.length := h.length_info ▸ h.count_lt
  let uinf := UsbInterface.load (e.unpack usbInterfaceMembers 0 (stream.take 4))
  have hleft := h.left
  refine ⟨{ req with pc := .intf }.modifyCurrent (DeviceInfo.fillInterface uinf),
    ⟨?_, h.count_lt, fun i hi => ?_, ?_⟩, rfl, rfl, ?_⟩
  · exact (List.length_modify _ _ _).trans h.length_info
  · rw [@getD_modifyCurrent { req with pc := .intf } i (Nat.ne_of_lt hi)]
    exact h.later i hi
  · have hlt : req.current.bNumInterfaces.toNat < req.udev.bNumInterfaces.toNat := by omega
    have hnum : (req.current.bNumInterfaces + 1).toNat = req.current.bNumInterfaces.toNat + 1 :=
      toNat_add_one hlt
    rw [@current_modifyCurrent { req with pc := .intf } hcurrent]
    change (req.current.bNumInterfaces + 1).toNat + k = req.udev.bNumInterfaces.toNat
    omega
  · rw [h.nextInterface]
    exact Reader.readAll_block (r := deviceInfoReqCb e) (s := { req with pc := .intf })
      (Nat.succ_pos 3) hlen

/-- **Inner loop**: either all interfaces are read, or the stream ends in it. -/
theorem Within.readAll (h : Within req k) (stream : List Byte) :
    (4 * k ≤ stream.length → ∃ req', Cleared req' ∧ req'.count.toNat = req.count.toNat + 1 ∧
      req'.ndev = req.ndev ∧ (deviceInfoReqCb e).readAll req.nextInterface stream =
        (deviceInfoReqCb e).readAll req'.nextDevice (stream.drop (4 * k))) ∧
    (stream.length < 4 * k →
      ((deviceInfoReqCb e).readAll req.nextInterface stream).pc = .intf ∧
        ((deviceInfoReqCb e).readAll req.nextInterface stream).count = req.count) := by
  induction k generalizing req stream with
  | zero =>
    obtain ⟨req', hcleared, hcount, hndev, hnext⟩ := h.finish
    refine ⟨fun _ => ⟨req', hcleared, hcount, hndev, ?_⟩, fun hlt => absurd hlt (Nat.not_lt_zero _)⟩
    rw [hnext, Nat.mul_zero, List.drop_zero]
  | succ k ih =>
    by_cases hlen : 4 ≤ stream.length
    · obtain ⟨req', hwithin, hcount, hndev, hread⟩ := h.readAll_intf (e := e) hlen
      obtain ⟨hall, hpart⟩ := ih hwithin (stream.drop 4)
      rw [List.length_drop, List.drop_drop, hcount, hndev] at hall
      rw [List.length_drop, hcount] at hpart
      rw [hread]
      refine ⟨fun hk => ?_, fun hk => hpart (by omega)⟩
      obtain ⟨req'', hrest⟩ := hall (by omega)
      rw [Nat.mul_succ, Nat.add_comm (4 * k)]
      exact ⟨req'', hrest⟩
    · have hstarved : (deviceInfoReqCb e).Starved { req with pc := .intf } stream :=
        .inr (Nat.lt_of_not_le hlen)
      rw [h.nextInterface, Reader.readAll_of_starved hstarved]
      exact ⟨fun hk => by omega, fun _ => ⟨rfl, rfl⟩⟩

/-- The record of a device starts the inner loop. -/
theorem Cleared.fill (h : Cleared req) (hlt : req.count.toNat < req.ndev.toNat) (udev : UsbDevice) :
    Within ({ req with pc := .udev, udev := udev }.modifyCurrent (DeviceInfo.fill udev))
      udev.bNumInterfaces.toNat where
  length_info := (List.length_modify _ _ _).trans h.length_info
  count_lt := hlt
  later i hi := by
    rw [@getD_modifyCurrent { req with pc := .udev, udev := udev } i (Nat.ne_of_lt hi)]
    exact h.later i (Nat.le_of_lt hi)
  left := by
    have hcurrent : req.count.toNat < req.info.length := h.length_info ▸ hlt
    have hzero : req.current.bNumInterfaces = 0 := h.later _ le_rfl
    rw [@current_modifyCurrent { req with pc := .udev, udev := udev } hcurrent]
    change req.current.bNumInterfaces.toNat + udev.bNumInterfaces.toNat = _
    rw [hzero]
    exact Nat.zero_add _

/-- The record of a device is read. -/
theorem Cleared.readAll_udev (h : Cleared req) (hlt : req.count.toNat < req.ndev.toNat)
    (hlen : 312 ≤ stream.length) :
    ∃ req', Within req' (stream.getD 311 0).toNat ∧ req'.count = req.count ∧
      req'.ndev = req.ndev ∧ (deviceInfoReqCb e).readAll req.nextDevice stream =
        (deviceInfoReqCb e).readAll req'.nextInterface (stream.drop 312) := by
  have hnum : (UsbDevice.load e (e.unpack usbDeviceMembers 0 (stream.take 312))).bNumInterfaces =
      stream.getD 311 0 := by
    rw [numInterfaces_load (List.length_take_of_le hlen)]
    simp
  have hwant : (deviceInfoReqCb e).want { req with pc := .udev } = 312 := rfl
  have hread := Reader.readAll_block (r := deviceInfoReqCb e) (s := { req with pc := .udev })
    (Nat.succ_pos 311) hlen
  rw [hwant, resume_udev, recvUdev] at hread
  rw [nextDevice_of_lt hlt, ← hnum]
  generalize UsbDevice.load e (e.unpack usbDeviceMembers 0 (stream.take 312)) = udev at hread ⊢
  exact ⟨_, h.fill hlt udev, rfl, rfl, hread⟩

/-- One round of the outer loop: a device is read as a whole, or the stream ends in it. -/
theorem Cleared.readAll_device (h : Cleared req) (hlt : req.count.toNat < req.ndev.toNat)
    (stream : List Byte) :
    (deviceSize stream ≤ stream.length → ∃ req', Cleared req' ∧
      req'.count.toNat = req.count.toNat + 1 ∧ req'.ndev = req.ndev ∧
        (deviceInfoReqCb e).readAll req.nextDevice stream =
          (deviceInfoReqCb e).readAll req'.nextDevice (stream.drop (deviceSize stream))) ∧
    (stream.length < deviceSize stream →
      ((deviceInfoReqCb e).readAll req.nextDevice stream).pc =
          (if stream.length < 312 then .udev else .intf) ∧
        ((deviceInfoReqCb e).readAll req.nextDevice stream).count = req.count) := by
  by_cases hlen : stream.length < 312
  · have hstarved : (deviceInfoReqCb e).Starved { req with pc := .udev } stream := .inr hlen
    rw [nextDevice_of_lt hlt, Reader.readAll_of_starved hstarved, if_pos hlen, deviceSize]
    exact ⟨fun hsize => by omega, fun _ => ⟨rfl, rfl⟩⟩
  · obtain ⟨req', hwithin, hcount, hndev, hread⟩ :=
      h.readAll_udev (e := e) hlt (Nat.le_of_not_lt hlen)
    obtain ⟨hall, hpart⟩ := hwithin.readAll (e := e) (stream.drop 312)
    rw [List.length_drop, List.drop_drop, hcount, hndev] at hall
    rw [List.length_drop, hcount] at hpart
    rw [hread, if_neg hlen, deviceSize]
    exact ⟨fun hsize => hall (by omega), fun hsize => hpart (by omega)⟩

/-- **Outer loop**: the request is done when all devices have been read. -/
theorem Cleared.readAll (h : Cleared req) (stream : List Byte) :
    (((deviceInfoReqCb e).readAll req.nextDevice stream).pc = .done ↔
      DeviceRecords (req.ndev.toNat - req.count.toNat) stream) ∧
    req.count.toNat ≤ ((deviceInfoReqCb e).readAll req.nextDevice stream).count.toNat ∧
    (((deviceInfoReqCb e).readAll req.nextDevice stream).pc = .done →
      ((deviceInfoReqCb e).readAll req.nextDevice stream).count.toNat = req.ndev.toNat) := by
  generalize hn : req.ndev.toNat - req.count.toNat = n
  have hle := h.count_le
  induction n generalizing req stream with
  | zero =>
    have hstarved : (deviceInfoReqCb e).Starved { req with pc := .done } stream := .inl rfl
    have heq : req.count.toNat = req.ndev.toNat := le_antisymm hle (Nat.le_of_sub_eq_zero hn)
    rw [nextDevice_of_eq heq, Reader.readAll_of_starved hstarved]
    exact ⟨iff_of_true rfl trivial, le_rfl, fun _ => heq⟩
  | succ n ih =>
    obtain ⟨hall, hpart⟩ := h.readAll_device (e := e) (by omega) stream
    rw [DeviceRecords]
    by_cases hsize : deviceSize stream ≤ stream.length
    · obtain ⟨req', hcleared, hcount, hndev, hread⟩ := hall hsize
      have hleft : req'.ndev.toNat - req'.count.toNat = n := by
        rw [hndev, hcount, ← Nat.sub_sub, hn, Nat.add_sub_cancel]
      obtain ⟨hdone, hmono, hend⟩ :=
        ih hcleared (stream.drop (deviceSize stream)) hleft hcleared.count_le
      rw [hcount] at hmono
      rw [hndev] at hend
      rw [hread, and_iff_right hsize]
      exact ⟨hdone, Nat.le_of_succ_le hmono, hend⟩
    · obtain ⟨hpc, hcount⟩ := hpart (Nat.lt_of_not_le hsize)
      have hnot : (if stream.length < 312 then ReqPc.udev else .intf) ≠ .done := by
        split
        · exact nofun
        · exact nofun
      rw [hpc, hcount]
      exact ⟨iff_of_false hnot fun hrecords => hsize hrecords.1, le_rfl, fun h => absurd h hnot⟩

/-- One device is read and no more: the stream ends after it, or before the record of the next
one is there. -/
theorem Cleared.count_eq_one_iff (h : Cleared req) (hzero : req.count.toNat = 0)
    (stream : List Byte) :
    ((deviceInfoReqCb e).readAll req.nextDevice stream).count.toNat = 1 ∧
        ((deviceInfoReqCb e).readAll req.nextDevice stream).pc ≠ .intf ↔
      deviceSize stream ≤ stream.length ∧
        (req.ndev.toNat = 1 ∨ 1 < req.ndev.toNat ∧ stream.length < deviceSize stream + 312) := by
  by_cases hnum : req.ndev.toNat = 0
  · have hstarved : (deviceInfoReqCb e).Starved { req with pc := .done } stream := .inl rfl
    rw [nextDevice_of_eq (by omega), Reader.readAll_of_starved hstarved]
    exact iff_of_false (fun hone => by dsimp only at hone; omega) fun hone => by omega
  obtain ⟨hall, hpart⟩ := h.readAll_device (e := e) (by omega) stream
  by_cases hsize : deviceSize stream ≤ stream.length
  swap
  · obtain ⟨-, hcount⟩ := hpart (Nat.lt_of_not_le hsize)
    rw [hcount, hzero]
    exact iff_of_false (fun hone => Nat.zero_ne_one hone.1) fun hone => hsize hone.1
  obtain ⟨req', hcleared, hcount, hndev, hread⟩ := hall hsize
  rw [hzero] at hcount
  rw [hread, and_iff_right hsize]
  clear hall hpart hread
  by_cases hone : req.ndev.toNat = 1
  · -- the only device
    have hstarved : (deviceInfoReqCb e).Starved { req' with pc := .done }
      (stream.drop (deviceSize stream)) := .inl rfl
    rw [nextDevice_of_eq (by rw [hcount, hndev, hone]), Reader.readAll_of_starved hstarved]
    exact iff_of_true ⟨hcount, nofun⟩ (.inl hone)
  have hlt : req'.count.toNat < req'.ndev.toNat := by
    rw [hcount, hndev]
    omega
  obtain ⟨hall, hpart⟩ := hcleared.readAll_device (e := e) hlt (stream.drop (deviceSize stream))
  rw [List.length_drop] at hall hpart
  by_cases hnext : deviceSize (stream.drop (deviceSize stream)) ≤ stream.length - deviceSize stream
  · obtain ⟨req'', hcleared'', hcount'', -, hread⟩ := hall hnext
    have hmono := (hcleared''.readAll (e := e)
      ((stream.drop (deviceSize stream)).drop (deviceSize (stream.drop (deviceSize stream))))).2.1
    rw [deviceSize] at hnext
    rw [hread]
    refine iff_of_false (fun htwo => ?_) fun htwo => ?_
    · rw [htwo.1, hcount'', hcount] at hmono
      exact absurd hmono (by decide)
    · clear hall hpart
      omega
  · obtain ⟨hpc, hsame⟩ := hpart (Nat.lt_of_not_le hnext)
    rw [hpc, hsame, and_iff_right (show req'.count.toNat = 1 from hcount)]
    clear hall hpart
    split
    next hshort => exact iff_of_true nofun (.inr (by omega))
    next hlong => exact iff_of_false (fun h => h rfl) (by omega)

/-- There is no way back to the header. -/
theorem pc_readAll_nextDevice (req : DeviceInfoReq) (stream : List Byte) :
    ((deviceInfoReqCb e).readAll req.nextDevice stream).pc ∉ [ReqPc.header, .reply, .abort] := by
  have hdevice : ∀ req : DeviceInfoReq, req.nextDevice.pc ∉ [ReqPc.header, .reply, .abort] := by
    intro req
    rw [nextDevice]
    split
    · dsimp only
      decide
    · dsimp only
      decide
  have hintf : ∀ req : DeviceInfoReq, req.nextInterface.pc ∉ [ReqPc.header, .reply, .abort] := by
    intro req
    rw [nextInterface]
    split
    · dsimp only
      decide
    · exact hdevice _
  refine Reader.readAll_induction
    (P := fun req : DeviceInfoReq => req.pc ∉ [ReqPc.header, .reply, .abort])
    (fun req block h _ _ => ?_) _ stream (hdevice req)
  cases hpc : req.pc with
  | header => exact absurd (by simp [hpc]) h
  | reply => exact absurd (by simp [hpc]) h
  | abort => exact absurd (by simp [hpc]) h
  | done =>
    simp only [deviceInfoReqCb, hpc]
    decide
  | udev =>
    simp only [deviceInfoReqCb, hpc]
    exact hintf _
  | intf =>
    simp only [deviceInfoReqCb, hpc]
    exact hintf _

variable (e) in
/-- What is read before the devices. -/
theorem readAll_start (pcount : BitVec 32) (stream : List Byte) :
    if stream.take 8 = replyHeader ∧ 12 ≤ stream.length then
      ∃ req, Cleared req ∧ req.count.toNat = 0 ∧ req.ndev.toNat = replyNum stream ∧
        (deviceInfoReqCb e).readAll (.start pcount) stream =
          (deviceInfoReqCb e).readAll req.nextDevice (stream.drop 12)
    else ((deviceInfoReqCb e).readAll (.start pcount) stream).pc ∈
      [ReqPc.header, .reply, .abort] := by
  by_cases hlen : 8 ≤ stream.length
  swap
  · have hstarved : (deviceInfoReqCb e).Starved (start pcount) stream :=
      .inr (Nat.lt_of_not_le hlen)
    rw [if_neg fun h => hlen (by omega), Reader.readAll_of_starved hstarved]
    exact List.mem_cons_self
  have hheader := Reader.readAll_block (r := deviceInfoReqCb e) (s := start pcount)
    (Nat.succ_pos 7) hlen
  have hwant : (deviceInfoReqCb e).want (start pcount) = 8 := rfl
  have hresume : (deviceInfoReqCb e).resume (start pcount) (stream.take 8) =
      { start pcount with pc := if stream.take 8 = replyHeader then .reply else .abort } :=
    recvHeader_eq _ (List.length_take_of_le hlen)
  rw [hwant, hresume] at hheader
  rw [hheader]
  by_cases hok : stream.take 8 = replyHeader
  swap
  · have hstarved : (deviceInfoReqCb e).Starved { start pcount with pc := .abort }
      (stream.drop 8) := .inl rfl
    rw [if_neg fun h => hok h.1, if_neg hok, Reader.readAll_of_starved hstarved]
    dsimp only
    decide
  rw [if_pos hok]
  by_cases hnum : 12 ≤ stream.length
  · have hfour : 4 ≤ (stream.drop 8).length := by
      rw [List.length_drop]
      omega
    have hreply := Reader.readAll_block (r := deviceInfoReqCb e)
      (s := { start pcount with pc := .reply }) (Nat.succ_pos 3) hfour
    have hwant : (deviceInfoReqCb e).want { start pcount with pc := .reply } = 4 := rfl
    rw [hwant, resume_reply, recvReply_eq _ (List.length_take_of_le hfour),
      List.drop_drop] at hreply
    rw [if_pos ⟨hok, hnum⟩, hreply]
    refine ⟨_, ⟨List.length_replicate, Nat.zero_le _, fun i _ => ?_⟩, rfl, rfl, rfl⟩
    dsimp only
    rw [List.getD_eq_getElem?_getD, List.getElem?_replicate]
    split
    · rfl
    · rfl
  · have hstarved : (deviceInfoReqCb e).Starved { start pcount with pc := .reply }
      (stream.drop 8) := .inr (by rw [List.length_drop]; change _ < 4; omega)
    rw [if_neg fun h => hnum h.2, Reader.readAll_of_starved hstarved]
    dsimp only
    decide

end DeviceInfoReq

namespace DeviceInfoMem

/-! ### The blocks -/

variable {mem : DeviceInfoMem} {k : ℕ}

/-- Nothing has been allocated. -/
structure Fresh (mem : DeviceInfoMem) : Prop where
  count : mem.req.count = 0
  next : mem.next = 0
  live : ∀ b, mem.live b = false
  info : mem.info = none

/-- The array is block 0, and the interfaces of the first `k` devices are the blocks after it. -/
structure Blocks (mem : DeviceInfoMem) (k : ℕ) : Prop where
  next : mem.next = k + 1
  live : ∀ b ≤ k, mem.live b = true
  info : mem.info = some (.start 0)
  pinfo : mem.pinfo = some (.start 0)
  interfaces : ∀ i < k, mem.interfaces i = some (.start (i + 1))
  count_le : mem.req.count.toNat ≤ mem.req.ndev.toNat
  pcount : mem.req.count ≠ 0 → mem.req.pcount = mem.req.count

/-- What has been allocated at each yield. -/
structure Inv (mem : DeviceInfoMem) : Prop where
  fresh : mem.req.pc ∈ [ReqPc.header, .reply, .abort] → mem.Fresh
  udev : mem.req.pc = .udev →
    mem.Blocks mem.req.count.toNat ∧ mem.req.count.toNat < mem.req.ndev.toNat
  intf : mem.req.pc = .intf →
    mem.Blocks (mem.req.count.toNat + 1) ∧ mem.req.count.toNat < mem.req.ndev.toNat
  done : mem.req.pc = .done →
    mem.Blocks mem.req.count.toNat ∧ mem.req.count.toNat = mem.req.ndev.toNat

theorem Blocks.nextDevice (h : mem.Blocks mem.req.count.toNat) :
    Inv { mem with req := mem.req.nextDevice } := by
  by_cases hlt : mem.req.count.toNat < mem.req.ndev.toNat
  · rw [DeviceInfoReq.nextDevice_of_lt hlt]
    exact ⟨fun hpc => by simp at hpc, fun _ => ⟨⟨h.next, h.live, h.info, h.pinfo, h.interfaces,
      h.count_le, h.pcount⟩, hlt⟩, nofun, nofun⟩
  · have heq : mem.req.count.toNat = mem.req.ndev.toNat :=
      le_antisymm h.count_le (Nat.le_of_not_lt hlt)
    rw [DeviceInfoReq.nextDevice_of_eq heq]
    exact ⟨fun hpc => by simp at hpc, nofun, nofun, fun _ => ⟨⟨h.next, h.live, h.info, h.pinfo,
      h.interfaces, h.count_le, h.pcount⟩, heq⟩⟩

theorem Blocks.nextInterface (h : mem.Blocks (mem.req.count.toNat + 1))
    (hlt : mem.req.count.toNat < mem.req.ndev.toNat) :
    Inv { mem with req := mem.req.nextInterface } := by
  rw [DeviceInfoReq.nextInterface]
  split
  · refine ⟨fun hpc => ?_, fun hpc => ?_, fun _ => ?_, fun hpc => ?_⟩
    · simp at hpc
    · simp at hpc
    · exact ⟨⟨h.next, h.live, h.info, h.pinfo, h.interfaces, h.count_le, h.pcount⟩, hlt⟩
    · simp at hpc
  · have hcount : (mem.req.count + 1).toNat = mem.req.count.toNat + 1 :=
      DeviceInfoReq.toNat_add_one hlt
    rw [← hcount] at h
    have hle : (mem.req.count + 1).toNat ≤ mem.req.ndev.toNat := hcount ▸ hlt
    exact @Blocks.nextDevice { mem with
      req := { mem.req with count := mem.req.count + 1, pcount := mem.req.count + 1 } }
      ⟨h.next, h.live, h.info, h.pinfo, h.interfaces, hle, fun _ => rfl⟩

/-- The array is allocated. -/
theorem Fresh.recvReply (h : mem.Fresh) {block : List Byte} (hlen : block.length = 4) :
    (mem.recvReply e block).Inv := by
  rw [DeviceInfoMem.recvReply, recvReply_eq _ hlen, h.next]
  refine @Blocks.nextDevice { mem.calloc with
    req := { mem.req with
      ndev := u32be.decode block
      info := List.replicate (u32be.decode block).toNat .zero }
    interfaces := fun _ => none
    info := some (.start 0)
    pinfo := some (.start 0) } ?_
  have hzero : mem.req.count.toNat = 0 := congrArg BitVec.toNat h.count
  dsimp only
  rw [hzero]
  refine ⟨congrArg (· + 1) h.next, fun b hb => ?_, rfl, rfl,
    fun i hi => absurd hi (Nat.not_lt_zero i), ?_, fun hne => absurd h.count hne⟩
  · obtain rfl := Nat.le_zero.mp hb
    rw [← h.next]
    exact Function.update_self _ _ _
  · dsimp only
    rw [hzero]
    exact Nat.zero_le _

/-- The array of the interfaces of one more device is allocated. -/
theorem Blocks.recvUdev (h : mem.Blocks mem.req.count.toNat)
    (hlt : mem.req.count.toNat < mem.req.ndev.toNat) (block : List Byte) :
    (mem.recvUdev e block).Inv := by
  rw [DeviceInfoMem.recvUdev, DeviceInfoReq.recvUdev]
  generalize UsbDevice.load e (e.unpack usbDeviceMembers 0 block) = udev
  refine @Blocks.nextInterface { mem.calloc with
    req := { mem.req with udev := udev }.modifyCurrent (DeviceInfo.fill udev)
    interfaces := Function.update mem.interfaces mem.req.count.toNat (some (.start mem.next)) }
    ⟨congrArg (· + 1) h.next, fun b hb => ?_, h.info, h.pinfo, fun i hi => ?_, h.count_le, h.pcount⟩
    hlt
  · rw [calloc, h.next]
    by_cases hnew : b = mem.req.count.toNat + 1
    · rw [hnew]
      exact Function.update_self _ _ _
    · exact (Function.update_of_ne hnew _ _).trans (h.live b (Nat.le_of_lt_succ
        (lt_of_le_of_ne hb hnew)))
  · dsimp only
    by_cases hnew : i = mem.req.count.toNat
    · rw [hnew, Function.update_self, h.next]
    · rw [Function.update_of_ne hnew]
      exact h.interfaces i (lt_of_le_of_ne (Nat.le_of_lt_succ hi) hnew)

theorem Fresh.recvHeader (h : mem.Fresh) {block : List Byte} (hlen : block.length = 8) :
    Inv { mem with req := mem.req.recvHeader e block } := by
  rw [recvHeader_eq _ hlen]
  have hfresh : ∀ pc, Fresh { mem with req := { mem.req with pc := pc } } :=
    fun _ => ⟨h.count, h.next, h.live, h.info⟩
  by_cases hok : block = replyHeader
  · rw [if_pos hok]
    exact ⟨fun _ => hfresh .reply, nofun, nofun, nofun⟩
  · rw [if_neg hok]
    exact ⟨fun _ => hfresh .abort, nofun, nofun, nofun⟩

/-- Nothing is allocated for an interface. -/
theorem Blocks.recvIntf (h : mem.Blocks (mem.req.count.toNat + 1))
    (hlt : mem.req.count.toNat < mem.req.ndev.toNat) (block : List Byte) :
    Inv { mem with req := mem.req.recvIntf e block } := by
  rw [DeviceInfoReq.recvIntf]
  generalize UsbInterface.load (e.unpack usbInterfaceMembers 0 block) = uinf
  exact @Blocks.nextInterface { mem with
    req := mem.req.modifyCurrent (DeviceInfo.fillInterface uinf) }
    ⟨h.next, h.live, h.info, h.pinfo, h.interfaces, h.count_le, h.pcount⟩ hlt

/-- **Step**: every whole buffer keeps the account. -/
theorem Inv.resume (h : mem.Inv) (block : List Byte) (hpos : 0 < (deviceInfoMemCb e).want mem)
    (hlen : block.length = (deviceInfoMemCb e).want mem) :
    ((deviceInfoMemCb e).resume mem block).Inv := by
  cases hpc : mem.req.pc with
  | header =>
    have hresume : (deviceInfoMemCb e).resume mem block =
        { mem with req := mem.req.recvHeader e block } := by
      simp only [deviceInfoMemCb, deviceInfoReqCb, hpc]
    have hwant : (deviceInfoMemCb e).want mem = 8 := by
      simp only [deviceInfoMemCb, deviceInfoReqCb, hpc]
    rw [hresume]
    exact (h.fresh (by simp [hpc])).recvHeader (hlen.trans hwant)
  | reply =>
    have hresume : (deviceInfoMemCb e).resume mem block = mem.recvReply e block := by
      simp only [deviceInfoMemCb, hpc]
    have hwant : (deviceInfoMemCb e).want mem = 4 := by
      simp only [deviceInfoMemCb, deviceInfoReqCb, hpc]
    rw [hresume]
    exact (h.fresh (by simp [hpc])).recvReply (hlen.trans hwant)
  | udev =>
    have hresume : (deviceInfoMemCb e).resume mem block = mem.recvUdev e block := by
      simp only [deviceInfoMemCb, hpc]
    obtain ⟨hblocks, hlt⟩ := h.udev hpc
    rw [hresume]
    exact hblocks.recvUdev hlt block
  | intf =>
    have hresume : (deviceInfoMemCb e).resume mem block =
        { mem with req := mem.req.recvIntf e block } := by
      simp only [deviceInfoMemCb, deviceInfoReqCb, hpc]
    obtain ⟨hblocks, hlt⟩ := h.intf hpc
    rw [hresume]
    exact hblocks.recvIntf hlt block
  | done => simp [deviceInfoMemCb, deviceInfoReqCb, hpc] at hpos
  | abort => simp [deviceInfoMemCb, deviceInfoReqCb, hpc] at hpos

/-- **Run**: wherever the stream ends, the account is kept, and the request is where it is without
its memory. -/
theorem inv_readAll (pinfo : Option (Pointer ℕ)) (pcount : BitVec 32) (stream : List Byte) :
    ((deviceInfoMemCb e).readAll (start pinfo pcount) stream).Inv ∧
      ((deviceInfoMemCb e).readAll (start pinfo pcount) stream).req =
        (deviceInfoReqCb e).readAll (.start pcount) stream := by
  refine ⟨Reader.readAll_induction (fun mem block h => h.resume block) _ stream
    ⟨fun _ => ⟨rfl, rfl, fun _ => rfl, rfl⟩, nofun, nofun, nofun⟩, ?_⟩
  refine Reader.map_readAll (f := DeviceInfoMem.req) (fun _ => rfl) (fun mem block => ?_) _ stream
  obtain ⟨⟨pc, udev, ndev, info, count, pcount⟩, live, next, interfaces, info', pinfo⟩ := mem
  cases pc <;> rfl

end DeviceInfoMem

/-! ### Who may free what -/

theorem workRet_eq_zero_iff (err : ReqPc → ErrorCode) (pc : ReqPc) :
    workRet err pc = 0 ↔ pc = .done := by
  cases pc with
  | done => exact iff_of_true rfl rfl
  | header => exact iff_of_false (err _).ne_zero nofun
  | reply => exact iff_of_false (err _).ne_zero nofun
  | udev => exact iff_of_false (err _).ne_zero nofun
  | intf => exact iff_of_false (err _).ne_zero nofun
  | abort => exact iff_of_false (err _).ne_zero nofun

/-- With two devices the same pointer is freed twice. -/
theorem freeInterfaces_two (info : Option (Pointer ℕ)) (p : Pointer ℕ) (live : ℕ → Bool) (n : ℕ) :
    freeInterfaces info (some p) live (n + 2) = none := by
  have hdead : ∀ live live', free live p = some live' →
      freeInterfaces info (some p) live' (n + 1) = none := by
    intro live live' hfree
    have hall : freeAll live [p] = some live' := by
      rw [freeAll, hfree]
      rfl
    have hlast : live' p.block = false := eq_false_of_mem_of_freeAll hall List.mem_cons_self
    rw [freeInterfaces, freeOpt, free_of_not_live hlast, Option.bind_none, ite_self]
  rw [freeInterfaces, freeOpt]
  split
  · cases hfree : free live p with
    | none => rfl
    | some live' => exact hdead live live' hfree
  · rfl

namespace DeviceInfoMem

variable {mem : DeviceInfoMem} {stream : List Byte} {err : ReqPc → ErrorCode}

/-- Nothing was allocated, and nothing is owed. -/
theorem Fresh.ownsDevices (h : mem.Fresh) (hpc : mem.req.pc ≠ .done)
    (hstream : ¬ ReplyStream stream) :
    ∃ live, mem.destroy = some live ∧ OwnsDevices stream (mem.result err live) := by
  refine ⟨mem.live, ?_, ?_⟩
  · rw [destroy, if_pos h.count, h.info, freeOpt]
  · have hret : (mem.result err mem.live).ret ≠ 0 := mt (workRet_eq_zero_iff err _).mp hpc
    refine ⟨iff_of_false hret hstream, fun hzero => absurd hzero hret,
      fun hzero => absurd hzero hret, fun _ b hb => ?_, ?_⟩
    · have hb : b < mem.next := hb
      rw [h.next] at hb
      exact absurd hb (Nat.not_lt_zero b)
    · rintro ⟨b, -, hlive⟩
      have hlive : mem.live b = true := hlive
      rw [h.live b] at hlive
      exact absurd hlive Bool.false_ne_true

variable {k : ℕ} {live : ℕ → Bool}

/-- An array that no device has been finished in is freed, and the caller still has it. -/
theorem Blocks.not_ownsDevices_zero (h : mem.Blocks k) (hcount : mem.req.count = 0)
    (hdestroy : mem.destroy = some live) : ¬ OwnsDevices stream (mem.result err live) := by
  intro howns
  have hdead : live 0 = false := by
    rw [destroy, if_pos hcount, h.info, freeOpt,
      free_of_live (h.live 0 (Nat.zero_le k))] at hdestroy
    obtain rfl := Option.some.inj hdestroy
    exact Function.update_self _ _ _
  by_cases hret : (mem.result err live).ret = 0
  · obtain ⟨b, hinfo, hlive⟩ := howns.infoLive hret
    have hb : some (Pointer.start 0) = some (Pointer.start b) := h.pinfo.symm.trans hinfo
    obtain rfl : 0 = b := congrArg Pointer.block (Option.some.inj hb)
    exact absurd (hdead.symm.trans hlive) Bool.false_ne_true
  · have hnext : 0 < mem.next := h.next ▸ Nat.succ_pos k
    rcases howns.either hret 0 hnext with ⟨-, hreach⟩ | ⟨-, hlive⟩
    · exact hreach (.inl h.pinfo)
    · exact hlive hdead

theorem destroy_of_ne (h : mem.req.count ≠ 0) : mem.destroy = some mem.live := if_neg h

/-- The interfaces of a device in progress are lost. -/
theorem Blocks.not_ownsDevices_intf (h : mem.Blocks (mem.req.count.toNat + 1))
    (hcount : mem.req.count ≠ 0) (hpc : mem.req.pc = .intf) :
    ¬ OwnsDevices stream (mem.result err mem.live) := by
  intro howns
  have hret : (mem.result err mem.live).ret ≠ 0 :=
    mt (workRet_eq_zero_iff err _).mp (by rw [hpc]; exact nofun)
  have hnext : mem.req.count.toNat + 1 < mem.next := h.next ▸ Nat.lt_succ_self _
  rcases howns.either hret _ hnext with ⟨hdead, -⟩ | ⟨hreach, -⟩
  · have hdead : mem.live _ = false := hdead
    rw [h.live _ le_rfl] at hdead
    exact absurd hdead Bool.true_eq_false_eq_False
  · rcases hreach with hinfo | ⟨-, i, hi, hintf⟩
    · have hinfo : some (Pointer.start 0) = some (Pointer.start _) := h.pinfo.symm.trans hinfo
      exact absurd (congrArg Pointer.block (Option.some.inj hinfo)) (Nat.succ_ne_zero _).symm
    · have hi : i < mem.req.pcount.toNat := hi
      rw [h.pcount hcount] at hi
      have hintf : some (Pointer.start (i + 1)) = some (Pointer.start _) :=
        (h.interfaces i (Nat.lt_succ_of_lt hi)).symm.trans hintf
      have heq : i + 1 = mem.req.count.toNat + 1 := congrArg Pointer.block (Option.some.inj hintf)
      omega

/-- Two or more finished devices cannot be freed. -/
theorem Blocks.not_ownsDevices_two (h : mem.Blocks k) (hcount : 2 ≤ mem.req.count.toNat)
    (hk : mem.req.count.toNat ≤ k) : ¬ OwnsDevices stream (mem.result err mem.live) := by
  intro howns
  have hne : mem.req.count ≠ 0 := by
    intro hzero
    rw [hzero] at hcount
    exact absurd hcount (by decide)
  obtain ⟨n, hn⟩ := Nat.exists_eq_add_of_le' hcount
  obtain ⟨live, hfree, -⟩ := howns.free ⟨0, h.pinfo, h.live 0 (Nat.zero_le k)⟩
  have hnum : (mem.result err mem.live).count.toNat = n + 2 := (h.pcount hne ▸ hn :)
  have hfirst : (mem.result err mem.live).interfaces 0 = some (.start 1) :=
    h.interfaces 0 (by omega)
  rw [DevicesInfo.libusbipFreeDevicesInfo, hnum, hfirst, freeInterfaces_two] at hfree
  cases hfree

/-- One finished device is the caller's. -/
theorem Blocks.ownsDevices_one (h : mem.Blocks 1) (hcount : mem.req.count.toNat = 1)
    (hdone : mem.req.pc = .done ↔ ReplyStream stream)
    (hnum : mem.req.pc = .done → replyNum stream = 1) :
    OwnsDevices stream (mem.result err mem.live) := by
  have hne : mem.req.count ≠ 0 := by
    intro hzero
    rw [hzero] at hcount
    exact absurd hcount (by decide)
  have hpcount : (mem.result err mem.live).count.toNat = 1 := (h.pcount hne ▸ hcount :)
  have hlive₀ : mem.live 0 = true := h.live 0 (Nat.zero_le 1)
  have hinfo : (mem.result err mem.live).InfoLive := ⟨0, h.pinfo, hlive₀⟩
  have hfirst : mem.interfaces 0 = some (.start 1) := h.interfaces 0 Nat.one_pos
  have hblocks : ∀ b < mem.next, b = 0 ∨ b = 1 := by
    intro b hb
    rw [h.next] at hb
    omega
  refine ⟨(workRet_eq_zero_iff err _).trans hdone, fun hret => ?_, fun _ => hinfo,
    fun _ b hb => .inr ⟨?_, ?_⟩, fun _ => ?_⟩
  · rw [hpcount, hnum ((workRet_eq_zero_iff err _).mp hret)]
  · rcases hblocks b hb with rfl | rfl
    · exact .inl h.pinfo
    · exact .inr ⟨hinfo, 0, by rw [hpcount]; exact Nat.one_pos, hfirst⟩
  · intro hdead
    have hb : b < mem.next := hb
    rw [h.next] at hb
    have hlive : mem.live b = true := h.live b (Nat.le_of_lt_succ hb)
    exact absurd (hlive.symm.trans hdead) Bool.true_eq_false_eq_False
  · refine ⟨Function.update (Function.update mem.live 1 false) 0 false, ?_, fun b hb => ?_⟩
    · rw [DevicesInfo.libusbipFreeDevicesInfo, hpcount]
      have hany : (mem.pinfo.any fun p => mem.live p.block) = true := by
        rw [h.pinfo]
        exact hlive₀
      have hlive₁ : mem.live 1 = true := h.live 1 le_rfl
      dsimp only [result]
      rw [freeInterfaces, if_pos hany, hfirst, freeOpt, free_of_live hlive₁, Option.bind_some,
        freeInterfaces, Option.bind_some, h.pinfo, freeOpt]
      exact free_of_live ((Function.update_of_ne Nat.zero_ne_one _ _).trans hlive₀)
    · rcases hblocks b hb with rfl | rfl
      · exact Function.update_self _ _ _
      · rw [Function.update_of_ne Nat.one_ne_zero, Function.update_self]

/-- Once there is an array, all is well after one device and no interface of a second. -/
theorem Inv.exists_ownsDevices_iff (h : mem.Inv) (hpc : mem.req.pc ∉ [ReqPc.header, .reply, .abort])
    (hdone : mem.req.pc = .done ↔ ReplyStream stream)
    (hnum : mem.req.pc = .done → mem.req.count.toNat = replyNum stream) :
    (∃ live, mem.destroy = some live ∧ OwnsDevices stream (mem.result err live)) ↔
      mem.req.count.toNat = 1 ∧ mem.req.pc ≠ .intf := by
  obtain ⟨k, hblocks, hk⟩ : ∃ k, mem.Blocks k ∧
      k = if mem.req.pc = .intf then mem.req.count.toNat + 1 else mem.req.count.toNat := by
    cases hcase : mem.req.pc with
    | header => exact absurd (by simp [hcase]) hpc
    | reply => exact absurd (by simp [hcase]) hpc
    | abort => exact absurd (by simp [hcase]) hpc
    | udev => exact ⟨_, (h.udev hcase).1, rfl⟩
    | intf => exact ⟨_, (h.intf hcase).1, rfl⟩
    | done => exact ⟨_, (h.done hcase).1, rfl⟩
  by_cases hzero : mem.req.count = 0
  · refine iff_of_false ?_ fun hone => ?_
    · rintro ⟨live, hdestroy, howns⟩
      exact hblocks.not_ownsDevices_zero hzero hdestroy howns
    · rw [hzero] at hone
      exact absurd hone.1 (by decide)
  have hpos : mem.req.count.toNat ≠ 0 := fun hn => hzero (BitVec.eq_of_toNat_eq hn)
  rw [destroy_of_ne hzero]
  have hlive : (∃ live, some mem.live = some live ∧ OwnsDevices stream (mem.result err live)) ↔
      OwnsDevices stream (mem.result err mem.live) :=
    ⟨fun ⟨_, heq, howns⟩ => Option.some.inj heq ▸ howns, fun howns => ⟨_, rfl, howns⟩⟩
  rw [hlive]
  by_cases hintf : mem.req.pc = .intf
  · rw [if_pos hintf] at hk
    exact iff_of_false ((hk ▸ hblocks).not_ownsDevices_intf hzero hintf) fun hone => hone.2 hintf
  rw [if_neg hintf] at hk
  rw [and_iff_left hintf]
  constructor
  · intro howns
    by_contra hone
    exact hblocks.not_ownsDevices_two (by omega) hk.ge howns
  · intro hone
    refine Blocks.ownsDevices_one (hone ▸ hk ▸ hblocks) hone hdone fun hcase => ?_
    rw [← hnum hcase, hone]

end DeviceInfoMem

open DeviceInfoMem in
/-- **Ownership**: for every stream, in any segments and with any error that ends it, the caller
gets what it may rely on exactly when not even the number of devices is read, or one device as a
whole and of a next one not even the record. -/
theorem ownsDevices_iff (e : ByteOrder) (err : ReqPc → ErrorCode) (pinfo : Option (Pointer ℕ))
    (pcount : BitVec 32) (segs : List (List Byte)) :
    (∃ out, libusbipGetDevicesInfo e err pinfo pcount segs = some out ∧
      OwnsDevices segs.flatten out) ↔ OneDeviceRead segs.flatten := by
  rw [libusbipGetDevicesInfo, Reader.deliver_state]
  generalize segs.flatten = stream
  have hstart := DeviceInfoReq.readAll_start e pcount stream
  obtain ⟨hinv, hreq⟩ := inv_readAll (e := e) pinfo pcount stream
  generalize (deviceInfoMemCb e).readAll (start pinfo pcount) stream = mem at hinv hreq ⊢
  have hmap : (∃ out, mem.destroy.map (mem.result err) = some out ∧ OwnsDevices stream out) ↔
      ∃ live, mem.destroy = some live ∧ OwnsDevices stream (mem.result err live) := by
    constructor
    · rintro ⟨out, hout, howns⟩
      obtain ⟨live, hdestroy, rfl⟩ := Option.map_eq_some_iff.mp hout
      exact ⟨live, hdestroy, howns⟩
    · rintro ⟨live, hdestroy, howns⟩
      exact ⟨_, Option.map_eq_some_iff.mpr ⟨live, hdestroy, rfl⟩, howns⟩
  refine hmap.trans ?_
  by_cases hok : stream.take 8 = replyHeader ∧ 12 ≤ stream.length
  · rw [if_pos hok] at hstart
    obtain ⟨req, hcleared, hzero, hnum, hread⟩ := hstart
    rw [hread] at hreq
    obtain ⟨hrecords, -, hcount⟩ := hcleared.readAll (e := e) (stream.drop 12)
    have hone := hcleared.count_eq_one_iff (e := e) hzero (stream.drop 12)
    have hpc := req.pc_readAll_nextDevice (e := e) (stream.drop 12)
    rw [hzero, Nat.sub_zero] at hrecords
    rw [← hreq, hnum] at hrecords hone hcount
    rw [← hreq] at hpc
    have hdone : mem.req.pc = .done ↔ ReplyStream stream :=
      hrecords.trans ⟨fun hdevs => ⟨hok.1, hok.2, hdevs⟩, ReplyStream.devices⟩
    rw [hinv.exists_ownsDevices_iff hpc hdone hcount, hone]
    exact ⟨fun h _ _ => h, fun h => h hok.1 hok.2⟩
  · rw [if_neg hok, ← hreq] at hstart
    have hpc : mem.req.pc ≠ .done := by
      rintro hdone
      rw [hdone] at hstart
      exact absurd hstart (by decide)
    refine iff_of_true ((hinv.fresh hstart).ownsDevices hpc fun hs => hok ⟨hs.header, hs.num⟩) ?_
    exact fun hheader hnum => absurd ⟨hheader, hnum⟩ hok

/-- The list of a server that exports nothing is freed behind the caller's back. -/
theorem not_ownsDevices_empty :
    ¬ ∀ (e : ByteOrder) (err : ReqPc → ErrorCode) (pinfo : Option (Pointer ℕ))
      (pcount : BitVec 32) (segs : List (List Byte)),
      ∃ out, libusbipGetDevicesInfo e err pinfo pcount segs = some out ∧
        OwnsDevices segs.flatten out := by
  intro h
  have hempty := (ownsDevices_iff .little (fun _ => ⟨1, Int.one_ne_zero⟩) none 0
    [replyHeader ++ [0, 0, 0, 0]]).mp (h .little (fun _ => ⟨1, Int.one_ne_zero⟩) none 0 _)
  obtain ⟨hsize, -⟩ := hempty (by decide) (by decide)
  exact absurd hsize (by decide)

end Usbip.Client
