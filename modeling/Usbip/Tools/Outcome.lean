import Usbip.Tools.Agreement
import Usbip.Wire.Stream

/-!
# What becomes of a request

When nothing of the conversation is lost, `usbip attach` writes into the file `attach` exactly
when the server has exported the device, the bus id fits into the 32 bytes of a request, and there
is a free port (`import_outcome`). In the remaining cases the device stays exported to a client
that has given up.

`store_attach` takes the request over when the port is still free and the speed is one that it
knows (`storeAttach_isSome_iff`). The port then puts the device id of the file into its requests,
and `valid_request` of the exported device compares it with the one of `stub_device_alloc`. The
file got it from `get_devid`, whose arguments are bytes: the two are the same exactly when the
numbers of bus and device are below 256 (`attached_requests_valid_iff`). The client library
computes it from the full numbers, and ends with an open device exactly when the server has
exported one (`opened_iff_exported`).
-/

namespace Usbip.Tools

open FixedCodec ByteOrder Socket Client Scan Vhci

variable {e e' : ByteOrder} {host : Host} {importer : Importer} {busid : List Byte}
variable {sockfd : BitVec 32} {s c : End}

/-! ### The client of a whole reply -/

/-- A refusal, or nothing at all, makes the client give up. -/
theorem readReply_refused {rest : List Byte}
    (h : ready s.input = [] ∨ ready s.input = usbipNetSendOpCommon e opRepImport stNa ++ rest) :
    (readReply e' importer busid sockfd s).written = none := by
  rw [readReply, usbipNetRecvOpCommon]
  obtain ⟨s₁, heq, -⟩ | ⟨header, s₁, heq, hlen, happend, -⟩ := s.recv_cases 8
  · rw [heq]
  rw [heq]
  have hheader : header = usbipNetSendOpCommon e opRepImport stNa := by
    rcases h with hnil | hna
    · rw [hnil] at happend
      rw [(List.append_eq_nil_iff.mp happend).1] at hlen
      cases hlen
    · rw [hna] at happend
      exact (List.append_inj happend (hlen.trans (length_sendOpCommon _ _).symm)).1
  have hcheck : checkOpCommon e' opRepImport header = none := by
    rw [hheader, checkOpCommon_send, if_neg (fun h => absurd h.2 (by decide))]
  dsimp only
  rw [hcheck]

/-- A device is imported if it has the bus id that was asked for. -/
theorem readReply_exported {udev : UsbDevice}
    (h : ready s.input = usbipNetSendOpCommon e opRepImport stOk ++ packUdev e udev) :
    ∃ s', readReply e' importer busid sockfd s =
      if !strncmp 32 (List.ofFn udev.busid) busid then ⟨-1, none, s'⟩
      else importDevice importer sockfd udev s' := by
  obtain ⟨s₁, heq, hready, -⟩ := End.recv_of_ready (length_sendOpCommon _ _) h
  rw [← List.append_nil (packUdev e udev)] at hready
  obtain ⟨s₂, heq', -⟩ := End.recv_of_ready (length_packUdev udev) hready
  refine ⟨s₂, ?_⟩
  rw [readReply, usbipNetRecvOpCommon, heq]
  dsimp only
  rw [checkOpCommon_send, if_pos ⟨.inr rfl, rfl⟩]
  dsimp only
  rw [heq']
  dsimp only
  rw [checkReply, load_packUdev]

/-- There is a free port exactly when one of the ports has no device. -/
theorem isSome_getFreePort_iff (idevs : List VdevStatus) :
    (usbipVhciGetFreePort idevs).isSome ↔ .null ∈ idevs := by
  rw [usbipVhciGetFreePort, List.findIdx?_isSome, List.any_eq_true]
  simp

theorem isSome_written_importDevice_iff {udev : UsbDevice} :
    (importDevice importer sockfd udev s).written.isSome ↔
      ∃ idevs, importer.idevs = some idevs ∧ .null ∈ idevs := by
  rw [Option.isSome_iff_exists]
  constructor
  · rintro ⟨text, htext⟩
    obtain ⟨idevs, port, hidevs, hport, -⟩ := written_importDevice_iff.mp htext
    exact ⟨idevs, hidevs, (isSome_getFreePort_iff idevs).mp (hport ▸ rfl)⟩
  · rintro ⟨idevs, hidevs, hnull⟩
    obtain ⟨port, hport⟩ := Option.isSome_iff_exists.mp ((isSome_getFreePort_iff idevs).mpr hnull)
    exact ⟨_, written_importDevice_iff.mpr ⟨idevs, port, hidevs, hport, rfl⟩⟩

/-- The device that is exported for a request has the bus id of the request, as far as that fits. -/
theorem requested_busid {edev : Edev} (h : requested host busid = some edev) :
    cString (List.ofFn edev.udev.busid) = (cString busid).take 31 := by
  rw [requested, Option.filter_eq_some_iff, Option.bind_eq_some_iff] at h
  obtain ⟨⟨edevs, -, hfind⟩, -⟩ := h
  exact (findEdev_requestBusid hfind).2

/-- The client compares it with the whole bus id. -/
theorem strncmp_requested_iff {edev : Edev} (h : requested host busid = some edev) :
    strncmp 32 (List.ofFn edev.udev.busid) busid = true ↔ (cString busid).length < 32 := by
  have hbusid := requested_busid h
  constructor
  · intro hsame
    rw [← cString_eq_of_strncmp hsame]
    exact length_cString_busid edev.nul_busid
  · intro hlt
    rw [strncmp_iff, List.take_of_length_le List.length_ofFn.le, cString_take, hbusid,
      List.take_of_length_le (show (cString busid).length ≤ 31 by omega),
      List.take_of_length_le (show (cString busid).length ≤ 32 by omega)]

/-- The client sends its request whatever it is answered. -/
theorem sent_queryImportDevice (e : ByteOrder) (importer : Importer) (busid : List Byte)
    (sockfd : BitVec 32) (hfresh : c.sent = []) (hout : .error ∉ c.output) :
    (queryImportDevice e importer busid sockfd c).conn.sent =
      usbipNetSendOpCommon e opReqImport stOk ++ requestBusid busid := by
  obtain ⟨-, herror⟩ | ⟨s, -, hsent, heq⟩ :=
    queryImportDevice_cases e importer busid sockfd hfresh
  · exact absurd herror hout
  · rw [heq, sent_readReply, hsent]

/-- **What becomes of a request**: when nothing is lost, the server exports the device with the
bus id of the request if it can, and `usbip attach` goes on to a port exactly when it has and the
bus id is shorter than 32 characters and there is a free port. -/
theorem import_outcome (e e' : ByteOrder) (host : Host) (importer : Importer) (busid : List Byte)
    (sockfd : BitVec 32) {s c : End} (hs : s.sent = []) (hc : c.sent = [])
    (hsout : .error ∉ s.output) (hcout : .error ∉ c.output)
    (hrequest : ready s.input = (queryImportDevice e' importer busid sockfd c).conn.sent)
    (hreply : ready c.input = (recvPdu e host s).conn.sent) :
    (recvPdu e host s).exported = requested host busid ∧
      ((queryImportDevice e' importer busid sockfd c).written.isSome ↔
        (recvPdu e host s).exported.isSome ∧ (cString busid).length < 32 ∧
          ∃ idevs, importer.idevs = some idevs ∧ .null ∈ idevs) := by
  rw [sent_queryImportDevice e' importer busid sockfd hc hcout] at hrequest
  obtain ⟨-, herror⟩ | ⟨s', hinput, -, heq⟩ :=
    queryImportDevice_cases e' importer busid sockfd hc
  · exact absurd herror hcout
  obtain ⟨hexported, hanswer⟩ := recvPdu_import e host busid hs hsout hrequest
  refine ⟨hexported, ?_⟩
  rw [hexported, heq]
  rw [hanswer, ← hinput, importReply] at hreply
  rcases hreq : requested host busid with _ | edev
  · have hrefused : (readReply e' importer busid sockfd s').written = none := by
      refine @readReply_refused e e' importer busid sockfd s' [] ?_
      rcases hedevs : host.edevs with _ | edevs
      · rw [hedevs] at hreply
        exact .inl hreply
      · rw [hedevs, hreq] at hreply
        rw [List.append_nil]
        exact .inr hreply
    rw [hrefused]
    exact iff_of_false (fun h => Bool.false_ne_true h) (fun h => Bool.false_ne_true h.1)
  · have hreply : ready s'.input =
        usbipNetSendOpCommon e opRepImport stOk ++ packUdev e edev.udev := by
      rcases hedevs : host.edevs with _ | edevs
      · rw [requested, hedevs] at hreq
        cases hreq
      · rwa [hedevs, hreq] at hreply
    obtain ⟨s₁, hread⟩ := @readReply_exported e e' importer busid sockfd s' edev.udev hreply
    rw [hread]
    by_cases hlt : (cString busid).length < 32
    · rw [(strncmp_requested_iff hreq).mpr hlt]
      simp only [Bool.not_true, Bool.false_eq_true, if_false, Option.isSome_some, true_and, hlt]
      exact isSome_written_importDevice_iff
    · have hdiffer : strncmp 32 (List.ofFn edev.udev.busid) busid = false := by
        by_contra h
        exact hlt ((strncmp_requested_iff hreq).mp (Bool.not_eq_false _ ▸ h))
      rw [hdiffer]
      simp [hlt]

/-! ### The port -/

/-- `store_attach` takes a request over when the port is free and the socket and the speed are
good. -/
theorem storeAttach_eq_some_iff {sockfdToSocket : BitVec 32 → Option ℕ} {buf : List Byte}
    {ports ports' : Fin vhciNports → LifeCycle} {rhport devid speed : BitVec 32}
    (hread : scanAttach buf = (rhport, sockfd, devid, speed)) :
    storeAttach sockfdToSocket buf ports = some ports' ↔
      ∃ (h : rhport.toNat < vhciNports) (socket : ℕ),
        LifeCycle.validSpeed speed.toNat ∧ sockfdToSocket sockfd = some socket ∧
        (ports ⟨rhport.toNat, h⟩).status = .null ∧
        ports' = Function.update ports ⟨rhport.toNat, h⟩
          { ports ⟨rhport.toNat, h⟩ with
            devid := devid.toNat, speed := speed.toNat, tcpSocket := some socket
            status := .notAssigned, attached := true } := by
  rw [storeAttach, hread]
  dsimp only
  by_cases hport : rhport.toNat < vhciNports
  · rw [dif_pos hport]
    by_cases hspeed : LifeCycle.validSpeed speed.toNat
    · rcases hsocket : sockfdToSocket sockfd with _ | socket
      · simp [hspeed]
      · by_cases hnull : (ports ⟨rhport.toNat, hport⟩).status = .null
        · simp [hspeed, hnull, hport, LifeCycle.storeAttach, eq_comm]
        · simp [hspeed, hnull]
    · simp [hspeed]
  · rw [dif_neg hport]
    refine iff_of_false ?_ (fun h => hport h.1)
    intro h
    cases h

/-- The value of a device id whose numbers fit. -/
theorem toNat_stubDevid {busnum devnum : BitVec 32} (hbus : busnum.toNat < 2 ^ 16)
    (hdev : devnum.toNat < 2 ^ 16) :
    (stubDevid busnum devnum).toNat = 2 ^ 16 * busnum.toNat + devnum.toNat := by
  have hshift : busnum.toNat <<< 16 % 2 ^ 32 = 2 ^ 16 * busnum.toNat := by
    rw [Nat.shiftLeft_eq, Nat.mod_eq_of_lt (by omega), Nat.mul_comm]
  rw [stubDevid, BitVec.toNat_or, BitVec.toNat_shiftLeft, hshift,
    Nat.two_pow_add_eq_or_of_lt hdev]

/-- The tool computes the device id of the kernel exactly when both numbers are bytes. -/
theorem getDevid_eq_iff {busnum devnum : BitVec 32} (hbus : busnum.toNat < 2 ^ 16)
    (hdev : devnum.toNat < 2 ^ 16) :
    getDevid busnum devnum = stubDevid busnum devnum ↔
      busnum.toNat < 256 ∧ devnum.toNat < 256 := by
  have hcut : ∀ n : BitVec 32, ((n.setWidth 8).setWidth 32).toNat = n.toNat % 256 := by
    intro n
    rw [BitVec.toNat_setWidth, BitVec.toNat_setWidth]
    omega
  have hget : getDevid busnum devnum =
      stubDevid ((busnum.setWidth 8).setWidth 32) ((devnum.setWidth 8).setWidth 32) := rfl
  rw [hget, ← BitVec.toNat_inj, toNat_stubDevid (by rw [hcut]; omega) (by rw [hcut]; omega),
    toNat_stubDevid hbus hdev, hcut, hcut]
  omega

/-- The device id of a request of the client. -/
theorem devid_of_send {kzalloc : Wire.Allocator} {devid : BitVec 32} {m : Wire.VhciMsg}
    {pdu : Wire.Pdu} (h : m.send kzalloc devid = some pdu) : pdu.header.base.devid = devid := by
  cases m with
  | submit seqnum urb =>
    rw [Wire.VhciMsg.send, Wire.vhciSendCmdSubmit, Option.map_eq_some_iff] at h
    obtain ⟨iso, -, rfl⟩ := h
    rfl
  | unlink seqnum unlinkSeqnum =>
    obtain rfl := Option.some.inj h
    rfl

/-- **Requests of an attached port are valid**: whatever is lost of the conversation, when
`store_attach` takes over what `usbip attach` has written, the device has been exported, and with
numbers of bus and device below `2 ^ 16` it accepts the requests that the port sends, of any kind,
exactly when both numbers are below 256. -/
theorem attached_requests_valid_iff (e e' : ByteOrder) (host : Host) (importer : Importer)
    (busid : List Byte) (sockfd : BitVec 32) (sockfdToSocket : BitVec 32 → Option ℕ)
    (ports ports' : Fin vhciNports → LifeCycle) {s c : End} {text : List Byte} (hs : s.sent = [])
    (hc : c.sent = []) (hreply : ready c.input <+: (recvPdu e host s).conn.sent)
    (hwritten : (queryImportDevice e' importer busid sockfd c).written = some text)
    (hattach : storeAttach sockfdToSocket text ports = some ports') :
    ∃ edev port, Agreed host importer busid sockfd (recvPdu e host s).exported text edev ∧
      (ports port).status = .null ∧ (ports' port).status = .notAssigned ∧
      (∀ p, p ≠ port → ports' p = ports p) ∧
      (edev.udev.busnum.toNat < 2 ^ 16 → edev.udev.devnum.toNat < 2 ^ 16 →
        ∀ sdev : Stub.Sdev, sdev.devid = stubDevid edev.udev.busnum edev.udev.devnum →
          sdev.used = true → ∀ (kzalloc : Wire.Allocator) (m : Wire.VhciMsg) (pdu : Wire.Pdu),
            m.send kzalloc (BitVec.ofNat 32 (ports' port).devid) = some pdu →
              (sdev.validRequest pdu.header.base = true ↔
                edev.udev.busnum.toNat < 256 ∧ edev.udev.devnum.toNat < 256)) := by
  obtain ⟨edev, hagreed⟩ := attached_exported e e' host importer busid sockfd hs hc hreply hwritten
  obtain ⟨idevs, port, -, -, hread⟩ := hagreed.written
  obtain ⟨hport, socket, -, -, hnull, rfl⟩ := (storeAttach_eq_some_iff hread).mp hattach
  refine ⟨edev, ⟨_, hport⟩, hagreed, hnull, ?_, ?_, ?_⟩
  · rw [Function.update_self]
  · intro p hp
    rw [Function.update_of_ne hp]
  · intro hbus hdev sdev hsdev hused kzalloc m pdu hsend
    have hdevid := devid_of_send hsend
    rw [Function.update_self] at hdevid
    dsimp only at hdevid
    rw [BitVec.ofNat_toNat, BitVec.setWidth_eq] at hdevid
    rw [Stub.Sdev.validRequest, hused, Bool.and_true, beq_iff_eq, hdevid, hsdev]
    exact getDevid_eq_iff hbus hdev

/-! ### The client library -/

/-- The library writes what the tool writes. -/
theorem request_libusbipDeviceOpen (e : ByteOrder) (busid : List Byte) (busnum devnum : BitVec 32)
    (retry : ℤ) : (libusbipDeviceOpen busid busnum devnum retry).request e =
      usbipNetSendOpCommon e opReqImport stOk ++ requestBusid busid := rfl

/-- A reply header is read. -/
theorem reaches_openHeader (e e' : ByteOrder) {dev : DeviceOpen} (hpc : dev.pc = .header)
    (status : BitVec 32) :
    (deviceOpenCb e').Reaches dev (usbipNetSendOpCommon e opRepImport status)
      (if status ≠ stOk then
        if dev.retry + 1 > dev.maxRetry then { dev with pc := .abort, retry := dev.retry + 1 }
        else { dev with pc := .restart, retry := dev.retry + 1 }
      else { dev with pc := .reply }) := by
  have hsend : usbipNetSendOpCommon e opRepImport status =
      big.image [.u16 usbipVersion, .u16 opRepImport, .u32 status] := by
    rw [usbipNetSendOpCommon, packOpCommon_true]
    exact pack_fields rfl
  have hresume : (deviceOpenCb e').resume dev (usbipNetSendOpCommon e opRepImport status) =
      if status ≠ stOk then
        if dev.retry + 1 > dev.maxRetry then { dev with pc := .abort, retry := dev.retry + 1 }
        else { dev with pc := .restart, retry := dev.retry + 1 }
      else { dev with pc := .reply } := by
    rw [deviceOpenCb, hsend]
    dsimp only
    rw [hpc]
    dsimp only
    rw [DeviceOpen.recvHeader, @unpack_fields e' opCommonMembers _ rfl,
      @read_fields e' opCommonMembers _ rfl]
    simp
  have hwant : (deviceOpenCb e').want dev = 8 := by
    rw [deviceOpenCb]
    dsimp only
    rw [hpc]
  rw [← hresume]
  exact .single (by omega) (by rw [hwant, length_sendOpCommon])

/-- The record of a device is read. -/
theorem reaches_openReply (e e' : ByteOrder) {dev : DeviceOpen} (hpc : dev.pc = .reply)
    (udev : UsbDevice) :
    (deviceOpenCb e').Reaches dev (packUdev e udev)
      (if !strncmp 32 (List.ofFn udev.busid) dev.reqBusid then { dev with pc := .abort }
      else { dev with pc := .opened }) := by
  have hresume : (deviceOpenCb e').resume dev (packUdev e udev) =
      if !strncmp 32 (List.ofFn udev.busid) dev.reqBusid then { dev with pc := .abort }
      else { dev with pc := .opened } := by
    rw [deviceOpenCb, packUdev, usbipNetPackUsbDevice_true, pack_fields udev.member_fields]
    dsimp only
    rw [hpc]
    dsimp only
    rw [DeviceOpen.recvReply, unpack_fields udev.member_fields, UsbDevice.load_image]
  have hwant : (deviceOpenCb e').want dev = 312 := by
    rw [deviceOpenCb]
    dsimp only
    rw [hpc]
  rw [← hresume]
  exact .single (by omega) (by rw [hwant, length_packUdev])

/-- The library compares the bus id with the one it has sent, which is that of the device. -/
theorem strncmp_reqBusid {edev : Edev} (h : requested host busid = some edev) :
    strncmp 32 (List.ofFn edev.udev.busid) (requestBusid busid) = true := by
  rw [strncmp_iff, List.take_of_length_le List.length_ofFn.le,
    List.take_of_length_le (length_requestBusid busid).le, cString_requestBusid]
  exact requested_busid h

/-- **The client library and the server agree**: however the reply is split, the library ends with
an open device exactly when the server has exported one, and tries again exactly when the server
has refused and there are retries. The device id of its requests is the one of the kernel. -/
theorem opened_iff_exported (e e' : ByteOrder) (host : Host) (busid : List Byte)
    (busnum devnum : BitVec 32) (retry : ℤ) {s : End} (hs : s.sent = [])
    (hsout : .error ∉ s.output)
    (hrequest : ready s.input = (libusbipDeviceOpen busid busnum devnum retry).request e')
    (segs : List (List Byte)) (hsegs : segs.flatten = (recvPdu e host s).conn.sent) :
    let dev := ((deviceOpenCb e').deliver (libusbipDeviceOpen busid busnum devnum retry) segs).state
    (dev.pc = .opened ↔ (recvPdu e host s).exported.isSome) ∧
      (dev.pc = .restart ↔
        host.edevs.isSome ∧ (recvPdu e host s).exported = none ∧ 0 < retry) ∧
      dev.devid = stubDevid busnum devnum := by
  rw [request_libusbipDeviceOpen] at hrequest
  obtain ⟨hexported, hsent⟩ := recvPdu_import e host busid hs hsout hrequest
  rw [hsent, importReply] at hsegs
  rw [hexported]
  generalize hdev : libusbipDeviceOpen busid busnum devnum retry = dev₀
  have hpc : dev₀.pc = .header := by rw [← hdev]; rfl
  have hdevid : dev₀.devid = stubDevid busnum devnum := by rw [← hdev]; rfl
  dsimp only
  rcases hedevs : host.edevs with _ | edevs
  · -- the server has closed the connection without a word
    rw [hedevs] at hsegs
    have hwait : (deviceOpenCb e').Starved dev₀ [] := by
      refine .inr ?_
      rw [deviceOpenCb]
      dsimp only
      rw [hpc]
      exact Nat.succ_pos 7
    obtain ⟨hstate, -, -⟩ := Reader.deliver_of_reaches (.refl dev₀) hwait hsegs
    have hnone : requested host busid = none := by
      rw [requested, hedevs]
      rfl
    rw [hstate, hpc, hnone]
    exact ⟨by simp, by simp, hdevid⟩
  · rw [hedevs] at hsegs
    dsimp only at hsegs
    rcases hreq : requested host busid with _ | edev
    · rw [hreq] at hsegs
      have hreach := reaches_openHeader e e' hpc stNa
      have hretry : dev₀.retry + 1 > dev₀.maxRetry ↔ ¬ 0 < retry := by
        rw [← hdev]
        change 0 + 1 > retry ↔ ¬ 0 < retry
        omega
      rw [if_pos (by decide)] at hreach
      rw [← List.append_nil (usbipNetSendOpCommon _ _ _)] at hsegs
      by_cases hmore : 0 < retry
      · rw [if_neg (fun h => hretry.mp h hmore)] at hreach
        rw [Reader.deliver_eq hreach rfl hsegs]
        exact ⟨by simp, by simp [hmore], hdevid⟩
      · rw [if_pos (hretry.mpr hmore)] at hreach
        rw [Reader.deliver_eq hreach rfl hsegs]
        exact ⟨by simp, by simp [hmore], hdevid⟩
    · rw [hreq] at hsegs
      have hhead := reaches_openHeader e e' hpc stOk
      rw [if_neg (fun h => h rfl)] at hhead
      have hrecord := @reaches_openReply e e' { dev₀ with pc := .reply } rfl edev.udev
      have hsame : strncmp 32 (List.ofFn edev.udev.busid)
          ({ dev₀ with pc := .reply } : DeviceOpen).reqBusid = true := by
        rw [← hdev]
        exact strncmp_reqBusid hreq
      rw [hsame] at hrecord
      have hreach := hhead.trans hrecord
      dsimp only at hsegs
      rw [← List.append_nil (_ ++ _)] at hsegs
      rw [Reader.deliver_eq hreach rfl hsegs]
      exact ⟨by simp, by simp, hdevid⟩

/-! ### A device `1-1` and a client with a free port -/

/-- An available device `1-1` of high speed. -/
def edev11 : Edev where
  udev := { UsbDevice.zero with
    busid := fun i => [0x31, 0x2d, 0x31].getD i.val 0
    busnum := 1
    devnum := 2
    speed := 3 }
  uinf := []
  length_uinf := rfl
  nul_busid := ⟨31, rfl⟩
  status := sdevStAvailable

/-- A server that exports it. -/
def host11 : Host := ⟨some [edev11], fun _ => 3⟩

/-- A client whose second port is free. -/
def importer11 : Importer where
  idevs := some [.used, .null]
  writeAttach text := text.length
  nports_le l h := by
    obtain rfl := Option.some.inj h
    decide

/-- The bus id as it is given on the command line. -/
def busid11 : List Byte := [0x31, 0x2d, 0x31]

/-- The end of the server: the request arrives byte by byte at first. -/
def serverEnd : End :=
  ⟨(usbipNetSendOpCommon .little opReqImport stOk).map (fun b => .chunk b []) ++
    push (requestBusid busid11) [], [], []⟩

/-- The end of the client. -/
def clientEnd : End :=
  ⟨push (importReply .big host11 busid11) [],
    [.upTo (Nat.succPNat 0), .upTo (Nat.succPNat 5)], []⟩

theorem requested_device11 : requested host11 busid11 = some edev11 := by
  have hsame : strncmp 32 (requestBusid busid11) (List.ofFn edev11.udev.busid) = true := by decide
  have hfind : findEdev [edev11] (requestBusid busid11) = some edev11 := by
    rw [findEdev, List.find?_cons, hsame]
  rw [requested, host11, Option.bind_some, hfind]
  rfl

theorem ready_serverEnd : ready serverEnd.input =
    usbipNetSendOpCommon .little opReqImport stOk ++ requestBusid busid11 := by
  decide

theorem recvPdu_device11 : (recvPdu .big host11 serverEnd).exported = some edev11 ∧
    (recvPdu .big host11 serverEnd).conn.sent = importReply .big host11 busid11 := by
  have h := recvPdu_import .big host11 busid11 rfl List.not_mem_nil ready_serverEnd
  rwa [requested_device11] at h

theorem ready_clientEnd :
    ready clientEnd.input = (recvPdu .big host11 serverEnd).conn.sent := by
  rw [recvPdu_device11.2, clientEnd, ready_push]
  exact List.append_nil _

theorem no_error_clientEnd : .error ∉ clientEnd.output := by decide

/-- The text that the client writes. -/
theorem written_device11 : (queryImportDevice .little importer11 busid11 5 clientEnd).written =
    some (attachText 1 5 (getDevid 1 2) 3) := by
  obtain ⟨-, herror⟩ | ⟨s', hinput, -, heq⟩ :=
    @queryImportDevice_cases clientEnd .little importer11 busid11 5 rfl
  · exact absurd herror no_error_clientEnd
  have hready : ready s'.input = usbipNetSendOpCommon .big opRepImport stOk ++
      packUdev .big edev11.udev := by
    have hreply : importReply .big host11 busid11 =
        usbipNetSendOpCommon .big opRepImport stOk ++ packUdev .big edev11.udev := by
      rw [importReply, requested_device11]
      rfl
    rw [hinput, ready_clientEnd, recvPdu_device11.2, hreply]
  have hsame : strncmp 32 (List.ofFn edev11.udev.busid) busid11 = true := by decide
  obtain ⟨s₁, hread⟩ := @readReply_exported .big .little importer11 busid11 5 s' edev11.udev hready
  rw [heq, hread, hsame]
  rfl

/-- The request is a success on both sides. -/
theorem import_outcome_device11 : (recvPdu .big host11 serverEnd).exported = some edev11 ∧
    (queryImportDevice .little importer11 busid11 5 clientEnd).written.isSome := by
  have hrequest : ready serverEnd.input =
      (queryImportDevice .little importer11 busid11 5 clientEnd).conn.sent := by
    rw [ready_serverEnd, sent_queryImportDevice _ _ _ _ rfl no_error_clientEnd]
  obtain ⟨hexported, hwritten⟩ := import_outcome .big .little host11 importer11 busid11 5 rfl rfl
    List.not_mem_nil no_error_clientEnd hrequest ready_clientEnd
  rw [requested_device11] at hexported
  exact ⟨hexported, hwritten.mpr ⟨hexported ▸ rfl, by decide, _, rfl, by decide⟩⟩

/-- Ports that are all free. -/
def freePorts : Fin vhciNports → LifeCycle :=
  fun _ => ⟨.null, 0, 0, none, none, none, .idle, false⟩

/-- An allocator that has nothing, for a request that needs nothing. -/
def noMemory : Wire.Allocator := ⟨fun _ => false, fun _ h => Bool.noConfusion h⟩

/-- The exported device. -/
def sdev11 : Stub.Sdev := ⟨stubDevid 1 2, true, 2, fun _ => none, fun _ => none⟩

/-- An unlink request of the port is valid for the device. -/
theorem attached_request_valid_device11 : ∃ (ports' : Fin vhciNports → LifeCycle)
    (port : Fin vhciNports), (ports' port).status = .notAssigned ∧
      sdev11.validRequest
        (Wire.vhciSendCmdUnlink (BitVec.ofNat 32 (ports' port).devid) 4 3).header.base = true := by
  have hread := scanAttach_attachText 1 5 (getDevid 1 2) 3
  obtain ⟨ports', hattach⟩ : ∃ ports', storeAttach (fun fd => some fd.toNat)
      (attachText 1 5 (getDevid 1 2) 3) freePorts = some ports' :=
    ⟨_, (storeAttach_eq_some_iff hread).mpr ⟨by decide, 5, by decide, rfl, rfl, rfl⟩⟩
  obtain ⟨edev, port, hagreed, -, hstatus, -, hvalid⟩ :=
    @attached_requests_valid_iff .big .little host11 importer11 busid11 5
      (fun fd => some fd.toNat) freePorts ports' serverEnd clientEnd _ rfl rfl
      (ready_clientEnd ▸ List.prefix_rfl) written_device11 hattach
  obtain rfl : edev11 = edev :=
    Option.some.inj (recvPdu_device11.1.symm.trans hagreed.exported)
  exact ⟨ports', port, hstatus, (hvalid (by decide) (by decide) sdev11 rfl rfl noMemory
    (.unlink 4 3) _ rfl).mpr ⟨by decide, by decide⟩⟩

/-- The library opens the device, from a reply in two segments. -/
theorem opened_device11 :
    ((deviceOpenCb .little).deliver (libusbipDeviceOpen busid11 1 2 0)
      [(importReply .big host11 busid11).take 5,
        (importReply .big host11 busid11).drop 5]).state.pc = .opened := by
  have hsegs : [(importReply .big host11 busid11).take 5,
      (importReply .big host11 busid11).drop 5].flatten =
        (recvPdu .big host11 serverEnd).conn.sent := by
    rw [recvPdu_device11.2, List.flatten_cons, List.flatten_cons, List.flatten_nil,
      List.append_nil, List.take_append_drop]
  refine (opened_iff_exported .big .little host11 busid11 1 2 0 rfl List.not_mem_nil
    ready_serverEnd _ hsegs).1.mpr ?_
  rw [recvPdu_device11.1]
  rfl

end Usbip.Tools
