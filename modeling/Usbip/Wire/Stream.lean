import Usbip.Wire.Pdu
import Mathlib.Data.List.GetD
import Mathlib.Tactic.Common

/-!
# Both ends stay in step

For one PDU, the receiver reads exactly the bytes that the sender wrote:

* `usbipRecvXbuff_append`, `usbipRecvIso_append`: each part of the body is read off the front
  of the stream when it has the length that the receiver computes;
* `cmd_received`, `ret_received`: the lengths that the two ends compute agree, for the requests
  and for the replies.

The framing rule then gives the whole connection (`streams_framed`): every header is read at
the start of a PDU. A receiver that turns a PDU down raises an event and reads no further
header; in particular a RET_SUBMIT that matches no pending request keeps its payload in the
stream (`unmatched_reply_left_in_stream`).
-/

namespace Usbip.Wire

open Framing ListWalk

/-- What was received is what was sent. -/
structure Decoded (pdu : Pdu) (header : UsbipHeader) (urb : Urb) : Prop where
  header_eq : header = pdu.header
  payload_eq : readMem urb.transferBuffer 0 pdu.payload.length = pdu.payload
  iso_eq : readMem urb.isoFrameDesc 0 pdu.iso.length = pdu.iso

/-! ### The parts of a PDU -/

@[simp] theorem storeMem_nil {α : Type} (mem : ℕ → α) : storeMem mem [] = mem := rfl

/-- A payload of the expected length is read off the front of the stream. -/
theorem usbipRecvXbuff_append {side : Side} {urb : Urb} {payload rest : List Byte}
    (h : payload.length = (xbuffSize side urb).toNat) :
    usbipRecvXbuff side urb (payload ++ rest) =
      some ({ urb with transferBuffer := storeMem urb.transferBuffer payload }, rest) := by
  rw [usbipRecvXbuff]
  split
  next hsize =>
    obtain rfl : payload = [] := List.eq_nil_of_length_eq_zero (by omega)
    simp
  · rw [recv_append h]
    rfl

/-- Below two gigabytes the three computations of the descriptors' size agree. -/
theorem isoDescSize_toNat {np : BitVec 32} (hnp : 0 ≤ np.toInt)
    (hsize : (isoDescSize np).toNat < 2 ^ 31) :
    (isoDescSize np).toNat = np.toNat * 16 ∧ (np * 16).toNat = np.toNat * 16 ∧
      (np * 16).signExtend 64 = isoDescSize np := by
  have hmsb : np.msb = false := by
    rw [BitVec.msb_eq_toInt]
    simpa using hnp
  have hlt : np.toNat < 2 ^ 31 := by
    have := BitVec.msb_eq_false_iff_two_mul_lt.mp hmsb
    omega
  have hext : (np.signExtend 64).toNat = np.toNat := by
    rw [BitVec.signExtend_eq_setWidth_of_msb_false hmsb]
    simp
    omega
  have h64 : (isoDescSize np).toNat = np.toNat * 16 := by
    rw [isoDescSize, BitVec.toNat_mul, hext]
    simp
    omega
  have h32 : (np * 16).toNat = np.toNat * 16 := by
    rw [BitVec.toNat_mul]
    simp
    omega
  refine ⟨h64, h32, ?_⟩
  have hmsb' : (np * 16).msb = false := by
    rw [BitVec.msb_eq_false_iff_two_mul_lt, h32]
    omega
  apply BitVec.eq_of_toNat_eq
  rw [BitVec.signExtend_eq_setWidth_of_msb_false hmsb', h64, BitVec.toNat_setWidth, h32]
  omega

theorem packets_eq {urb : Urb} (hnp : 0 ≤ urb.numberOfPackets.toInt) :
    urb.packets = urb.numberOfPackets.toNat := by
  have hmsb : urb.numberOfPackets.msb = false := by
    rw [BitVec.msb_eq_toInt]
    simpa using hnp
  rw [Urb.packets, BitVec.toInt_eq_toNat_of_msb hmsb, Int.toNat_natCast]

/-- What `usbip_recv_iso` does with the descriptors once it has read them. -/
def isoResult (urb : Urb) (iso : List IsoPacketDescriptor) : Except RecvError Urb :=
  if urb.isoc = true ∧ urb.numberOfPackets ≠ 0 then storeIso urb iso else .ok urb

/-- As many descriptors as the URB has packets are read off the front of the stream. -/
theorem usbipRecvIso_append {kzalloc : Allocator} {urb : Urb} {iso : List IsoPacketDescriptor}
    {rest : List Byte} (hnp : 0 ≤ urb.numberOfPackets.toInt)
    (hiso : iso.length = if urb.isoc then urb.packets else 0)
    (halloc : urb.isoc = true → kzalloc.ok (isoDescSize urb.numberOfPackets).toNat = true) :
    usbipRecvIso kzalloc urb (isoCodec.encodeAll iso ++ rest) = some (isoResult urb iso, rest) := by
  rw [usbipRecvIso, isoResult]
  cases hi : urb.isoc with
  | false =>
    obtain rfl : iso = [] := List.eq_nil_of_length_eq_zero (by simpa [hi] using hiso)
    simp [FixedCodec.encodeAll]
  | true =>
    have hlen : iso.length = urb.numberOfPackets.toNat := by
      rw [hiso, if_pos hi, packets_eq hnp]
    by_cases hzero : urb.numberOfPackets = 0
    · obtain rfl : iso = [] := List.eq_nil_of_length_eq_zero (by simp [hlen, hzero])
      simp [hzero, FixedCodec.encodeAll]
    · have hok := halloc hi
      obtain ⟨-, h32, hext⟩ := isoDescSize_toNat hnp (kzalloc.bounded _ hok)
      have hpos : urb.numberOfPackets.toNat ≠ 0 := fun h =>
        hzero (BitVec.eq_of_toNat_eq (by simpa using h))
      have hsize : urb.numberOfPackets * 16 ≠ 0 := fun h => by
        rw [h] at h32
        simp at h32
        omega
      have hblock : (isoCodec.encodeAll iso).length = (urb.numberOfPackets * 16).toNat := by
        rw [FixedCodec.length_encodeAll, isoCodec_size, hlen, h32]
      have hdec : isoCodec.decodeAll urb.packets (isoCodec.encodeAll iso) = iso := by
        rw [packets_eq hnp, ← hlen]
        exact isoCodec.decodeAll_encodeAll iso
      simp only [Bool.not_true, Bool.false_eq_true, if_false, hzero, hext, hok, hsize,
        recv_append hblock, Option.map_some, hdec, ne_eq, not_false_eq_true, and_self, if_true]

/-- Both parts of the body are read off the front of the stream. -/
theorem recvBody_append {side : Side} {kzalloc : Allocator} {urb : Urb} {payload : List Byte}
    {iso : List IsoPacketDescriptor} {rest : List Byte}
    (hpayload : payload.length = (xbuffSize side urb).toNat)
    (hnp : 0 ≤ urb.numberOfPackets.toInt)
    (hiso : iso.length = if urb.isoc then urb.packets else 0)
    (halloc : urb.isoc = true → kzalloc.ok (isoDescSize urb.numberOfPackets).toNat = true) :
    recvBody side kzalloc urb (payload ++ (isoCodec.encodeAll iso ++ rest)) =
      some (isoResult { urb with transferBuffer := storeMem urb.transferBuffer payload } iso,
        rest) := by
  rw [recvBody, usbipRecvXbuff_append hpayload, Option.bind_some]
  exact usbipRecvIso_append hnp hiso halloc

/-- `usbip_recv_iso` turns down only descriptors that do not add up, and it raises an event
then. -/
theorem isoResult_eq_error {urb : Urb} {iso : List IsoPacketDescriptor} {e : RecvError}
    (h : isoResult urb iso = .error e) :
    e = .epipe ∧ urb.isoc = true ∧ (iso.map (·.actualLength)).sum ≠ urb.actualLength := by
  rw [isoResult] at h
  split at h
  next hi =>
    rw [storeIso] at h
    split at h
    · simp at h
    next hsum => exact ⟨(Except.error.inj h).symm, hi.1, hsum⟩
  · simp at h

/-- A URB that `usbip_recv_iso` accepts holds the payload and the descriptors that were read. -/
theorem decoded_of_isoResult {pdu : Pdu} {urb urb' : Urb}
    (hiso : pdu.iso.length = if urb.isoc then urb.packets else 0)
    (h : isoResult { urb with transferBuffer := storeMem urb.transferBuffer pdu.payload } pdu.iso =
      .ok urb') :
    Decoded pdu pdu.header urb' := by
  rw [isoResult] at h
  split at h
  next hi =>
    rw [storeIso] at h
    split at h
    · obtain rfl := Except.ok.inj h
      exact ⟨rfl, readMem_storeMem _ _, readMem_storeMem _ _⟩
    · simp at h
  next hi =>
    obtain rfl := Except.ok.inj h
    have hnil : pdu.iso = [] := by
      refine List.eq_nil_of_length_eq_zero ?_
      rw [hiso]
      split
      next hisoc =>
        have hnp : urb.numberOfPackets = 0 := by
          by_contra hne
          exact hi ⟨hisoc, hne⟩
        simp [Urb.packets, hnp]
      · rfl
    exact ⟨rfl, readMem_storeMem _ _, by simp [hnil, readMem]⟩

/-! ### Requests -/

/-- What the transmit thread of the client sends. -/
inductive VhciMsg
  | submit (seqnum : BitVec 64) (urb : Urb)
  | unlink (seqnum unlinkSeqnum : BitVec 64)

/-- The PDU of a request; `none` when the thread gives up instead. -/
def VhciMsg.send (kzalloc : Allocator) (devid : BitVec 32) : VhciMsg → Option Pdu
  | .submit seqnum urb => vhciSendCmdSubmit kzalloc devid seqnum urb
  | .unlink seqnum unlinkSeqnum => some (vhciSendCmdUnlink devid seqnum unlinkSeqnum)

/-- A request that was handed to the socket. -/
structure SentCmd (devid : BitVec 32) where
  msg : VhciMsg
  kzalloc : Allocator
  pdu : Pdu
  sent : msg.send kzalloc devid = some pdu

/-- What holds of a URB of the client and the endpoint it names on the server: the transfer
types agree, lengths are not negative, and the core has zeroed the isochronous actual lengths.
`usbip_recv_iso` gets the memory for the descriptors. -/
structure UrbAgrees (env : StubEnv) (urb : Urb) : Prop where
  type_eq : ∀ t, env.endpoint urb.ep urb.direction = some t → t = urb.pipe.type
  length_nonneg : 0 ≤ urb.transferBufferLength.toInt
  packets_nonneg : 0 ≤ urb.numberOfPackets.toInt
  zeroed : urb.isoc = true → ∀ i, i < urb.packets → (urb.isoFrameDesc i).actualLength = 0
  alloc : urb.isoc = true → env.kzalloc.ok (isoDescSize urb.numberOfPackets).toNat = true

/-- What both ends agree on for a request. -/
def CmdAgrees {devid : BitVec 32} (env : StubEnv) (m : SentCmd devid) : Prop :=
  match m.msg with
  | .submit _ urb => UrbAgrees env urb
  | .unlink _ _ => True

/-- The server does not turn the request down. -/
def CmdAccepted {devid : BitVec 32} (env : StubEnv) (m : SentCmd devid) : Prop :=
  env.validRequest m.pdu.header = true ∧
    match m.pdu.header.u with
    | .cmdSubmit spdu => (env.getPipe m.pdu.header.base.ep m.pdu.header.base.direction).isSome ∧
        env.allocated spdu = true
    | _ => True

/-- Unless the server stops, it has received the request as it was sent; and it stops only on
a request that it turns down. -/
def CmdReceived {devid : BitVec 32} (env : StubEnv) (m : SentCmd devid) (r : StubRxResult) :
    Prop :=
  (CmdAccepted env m → r.stop = false) ∧
    match r with
    | .submit pdu urb => Decoded m.pdu pdu urb
    | .unlink pdu => pdu = m.pdu.header
    | .event | .bug => True
    | .dropped => False

/-- `stub_rx_pdu` on a stream that starts with a header. -/
theorem stubRxPdu_encode (env : StubEnv) (pdu : UsbipHeader) (rest : List Byte) :
    stubRxPdu env (pdu.encode ++ rest) =
      if !env.validRequest pdu then some (.event, rest)
      else
        match pdu.u with
        | .cmdUnlink _ => some (.unlink pdu, rest)
        | .cmdSubmit spdu => stubBuildUrb env pdu spdu rest
        | _ => some (.event, rest) := by
  rw [stubRxPdu, recv_append pdu.length_encode, Option.bind_some]
  cases hu : pdu.u <;> simp only [pdu.decode_encode, hu]

/-- The length of the payload of a CMD_SUBMIT is the one that the server computes from the
header and its own pipe. -/
theorem length_cmdSubmitPayload {urb : Urb} {pipe : Pipe} (hin : pipe.isIn = urb.pipe.isIn)
    (hnn : 0 ≤ urb.transferBufferLength.toInt) :
    (cmdSubmitPayload urb).length =
      (xbuffSize .stub (unpackCmdSubmit pipe (packCmdSubmit urb))).toNat := by
  have hmsb : urb.transferBufferLength.msb = false := by
    rw [BitVec.msb_eq_toInt]
    simpa using hnn
  have hnat : urb.transferBufferLength.toInt = urb.transferBufferLength.toNat :=
    BitVec.toInt_eq_toNat_of_msb hmsb
  rw [cmdSubmitPayload, xbuffSize]
  cases hdir : urb.pipe.isIn with
  | true => simp [unpackCmdSubmit, hin, hdir]
  | false =>
    by_cases hpos : 0 < urb.transferBufferLength.toNat
    · simp [unpackCmdSubmit, packCmdSubmit, hin, hdir, hnat, hpos]
    · have hzero : urb.transferBufferLength.toNat = 0 := by omega
      simp [unpackCmdSubmit, packCmdSubmit, hin, hdir, hnat, hzero]

/-- The core has zeroed the actual lengths, so the server's sum is the zero of its new URB. -/
theorem sum_actualLength_eq_zero {urb : Urb}
    (hzero : ∀ i, i < urb.packets → (urb.isoFrameDesc i).actualLength = 0) :
    ((readMem urb.isoFrameDesc 0 urb.packets).map (·.actualLength)).sum = 0 := by
  have hmap : (readMem urb.isoFrameDesc 0 urb.packets).map (·.actualLength) =
      List.replicate urb.packets 0 := by
    refine List.eq_replicate_iff.mpr ⟨by simp, fun a ha => ?_⟩
    obtain ⟨d, hd, rfl⟩ := List.mem_map.mp ha
    obtain ⟨i, hi, rfl⟩ := List.mem_map.mp hd
    simpa using hzero i (List.mem_range.mp hi)
  rw [hmap]
  induction urb.packets with
  | zero => rfl
  | succ n ih =>
    rw [List.replicate_succ, List.sum_cons, ih]
    rfl

/-- The descriptors of a PDU are as many as the URB has packets, when it is isochronous. -/
theorem length_isoDescPdu {kzalloc : Allocator} {urb : Urb} {iso : List IsoPacketDescriptor}
    (h : isoDescPdu kzalloc urb = some iso) :
    iso.length = (if urb.isoc then urb.packets else 0) ∧
      (urb.isoc = true → iso = readMem urb.isoFrameDesc 0 urb.packets) := by
  rw [isoDescPdu] at h
  split at h
  next hi =>
    rw [usbipAllocIsoDescPdu] at h
    split at h
    · obtain rfl := Option.some.inj h
      exact ⟨by simp [hi], fun _ => rfl⟩
    · simp at h
  next hi =>
    obtain rfl := Option.some.inj h
    exact ⟨by simp [hi], fun hi' => absurd hi' hi⟩

/-- The pipe that the server builds is the client's, where the endpoints agree. -/
theorem pipe_of_getPipe {env : StubEnv} {urb : Urb} {pipe : Pipe} (h : UrbAgrees env urb)
    (hpipe : env.getPipe urb.ep urb.direction = some pipe) :
    pipe.type = urb.pipe.type ∧ pipe.isIn = urb.pipe.isIn := by
  obtain ⟨t, ht, rfl⟩ := Option.map_eq_some_iff.mp hpipe
  refine ⟨h.type_eq t ht, ?_⟩
  cases hin : urb.pipe.isIn <;> simp [Urb.direction, hin, usbipDirIn, usbipDirOut]

/-- The server builds the URB of a CMD_SUBMIT from exactly the bytes after its header. -/
theorem recvBody_cmdSubmit {env : StubEnv} {kzalloc : Allocator} {devid : BitVec 32}
    {seqnum : BitVec 64} {urb : Urb} {pdu : Pdu} {pipe : Pipe} (h : UrbAgrees env urb)
    (hpipe : env.getPipe urb.ep urb.direction = some pipe)
    (hsent : vhciSendCmdSubmit kzalloc devid seqnum urb = some pdu) (rest : List Byte) :
    ∃ urb', recvBody .stub env.kzalloc (unpackCmdSubmit pipe (packCmdSubmit urb))
        (pdu.payload ++ (isoCodec.encodeAll pdu.iso ++ rest)) = some (.ok urb', rest) ∧
      Decoded pdu pdu.header urb' := by
  obtain ⟨iso, hiso, rfl⟩ := Option.map_eq_some_iff.mp hsent
  obtain ⟨htype, hin⟩ := pipe_of_getPipe h hpipe
  obtain ⟨hlen, hdescs⟩ := length_isoDescPdu hiso
  have hisoc : (unpackCmdSubmit pipe (packCmdSubmit urb)).isoc = urb.isoc := by
    simp [Urb.isoc, unpackCmdSubmit, htype]
  have hbody : recvBody .stub env.kzalloc (unpackCmdSubmit pipe (packCmdSubmit urb))
      (cmdSubmitPayload urb ++ (isoCodec.encodeAll iso ++ rest)) = some (isoResult _ iso, rest) :=
    recvBody_append (length_cmdSubmitPayload hin h.length_nonneg) h.packets_nonneg
      (by rw [hisoc]; exact hlen) (by rw [hisoc]; exact h.alloc)
  cases hres : isoResult { unpackCmdSubmit pipe (packCmdSubmit urb) with
      transferBuffer := storeMem (unpackCmdSubmit pipe (packCmdSubmit urb)).transferBuffer
        (cmdSubmitPayload urb) } iso with
  | ok urb' =>
    have hlen' : iso.length = if (unpackCmdSubmit pipe (packCmdSubmit urb)).isoc then
        (unpackCmdSubmit pipe (packCmdSubmit urb)).packets else 0 := by
      rw [hisoc]
      exact hlen
    exact ⟨urb', by rw [hbody, hres], decoded_of_isoResult hlen' hres⟩
  | error e =>
    -- the sum is that of zeros
    obtain ⟨-, hi, hsum⟩ := isoResult_eq_error hres
    have hi : urb.isoc = true := hisoc ▸ hi
    rw [hdescs hi] at hsum
    exact absurd (sum_actualLength_eq_zero (h.zeroed hi)) hsum

/-- **One request**: the server reads exactly the bytes that the client wrote, and gets what
was sent, or it stops. -/
theorem cmd_received {devid : BitVec 32} (env : StubEnv) (m : SentCmd devid) (rest : List Byte)
    (h : CmdAgrees env m) :
    ∃ r after, stubRxPdu env (m.pdu.bytes ++ rest) = some (r, after) ∧ CmdReceived env m r ∧
      (r.stop = true ∨ after = rest) := by
  obtain ⟨msg, kzalloc, pdu, hsent⟩ := m
  rw [Pdu.bytes, List.append_assoc, stubRxPdu_encode]
  cases hvalid : env.validRequest pdu.header with
  | false =>
    refine ⟨.event, _, rfl, ⟨fun hacc => ?_, trivial⟩, Or.inl rfl⟩
    exact absurd hacc.1 (by simp [hvalid])
  | true =>
    cases msg with
    | unlink seqnum unlinkSeqnum =>
      obtain rfl : vhciSendCmdUnlink devid seqnum unlinkSeqnum = pdu := Option.some.inj hsent
      exact ⟨.unlink _, rest, rfl, ⟨fun _ => rfl, rfl⟩, Or.inr rfl⟩
    | submit seqnum urb =>
      have h : UrbAgrees env urb := h
      have hheader : pdu.header = setupCmdSubmitPdu devid seqnum urb := by
        obtain ⟨iso, -, rfl⟩ := Option.map_eq_some_iff.mp hsent
        rfl
      have hu : pdu.header.u = .cmdSubmit (packCmdSubmit urb) := by rw [hheader]; rfl
      have hep : env.getPipe pdu.header.base.ep pdu.header.base.direction =
          env.getPipe urb.ep urb.direction := by rw [hheader]; rfl
      rw [hu]
      simp only [Bool.not_true, Bool.false_eq_true, if_false, stubBuildUrb, hep]
      cases hpipe : env.getPipe urb.ep urb.direction with
      | none =>
        refine ⟨.bug, _, rfl, ⟨fun hacc => ?_, trivial⟩, Or.inl rfl⟩
        have hacc := hacc.2
        simp [hu, hep, hpipe] at hacc
      | some pipe =>
        cases halloc : env.allocated (packCmdSubmit urb) with
        | false =>
          refine ⟨.event, _, rfl, ⟨fun hacc => ?_, trivial⟩, Or.inl rfl⟩
          have hacc := hacc.2
          simp [hu, halloc] at hacc
        | true =>
          obtain ⟨urb', hbody, hdec⟩ := recvBody_cmdSubmit h hpipe hsent rest
          refine ⟨.submit pdu.header urb', rest, ?_, ⟨fun _ => rfl, hdec⟩, Or.inr rfl⟩
          simp [hbody]

/-! ### Replies -/

/-- What the transmit thread of the server sends. -/
inductive StubMsg
  | retSubmit (seqnum : BitVec 64) (urb : Urb)
  | retUnlink (seqnum : BitVec 64) (status : BitVec 32)

/-- The PDU of a reply; `none` when the thread gives up instead. -/
def StubMsg.send (allocIov : Bool) (kzalloc : Allocator) : StubMsg → Option Pdu
  | .retSubmit seqnum urb => stubSendRetSubmit allocIov kzalloc seqnum urb
  | .retUnlink seqnum status => some (stubSendRetUnlink seqnum status)

/-- A reply that was handed to the socket. -/
structure SentRet where
  msg : StubMsg
  allocIov : Bool
  kzalloc : Allocator
  pdu : Pdu
  sent : msg.send allocIov kzalloc = some pdu

/-- What holds of a URB of the server and the pending URB of the client it answers, if there
is one: type and direction agree, and lengths are not negative. `usbip_recv_iso` gets the
memory for the descriptors. -/
structure ReplyAgrees (env : VhciEnv) (seqnum : BitVec 64) (urb : Urb) : Prop where
  pipe_eq : ∀ u, env.pending (seqnum.setWidth 32) = some u →
    u.pipe.type = urb.pipe.type ∧ u.pipe.isIn = urb.pipe.isIn
  length_nonneg : 0 ≤ urb.actualLength.toInt
  packets_nonneg : 0 ≤ urb.numberOfPackets.toInt
  alloc : urb.isoc = true → env.kzalloc.ok (isoDescSize urb.numberOfPackets).toNat = true

/-- What both ends agree on for a reply. -/
def RetAgrees (env : VhciEnv) (m : SentRet) : Prop :=
  match m.msg with
  | .retSubmit seqnum urb => ReplyAgrees env seqnum urb
  | .retUnlink _ _ => True

/-- The client does not turn the reply down: a RET_SUBMIT matches a pending request, and the
packets of an isochronous OUT transfer, which only the client adds up, have the sum they
should. -/
def RetAccepted (env : VhciEnv) (m : SentRet) : Prop :=
  match m.msg with
  | .retSubmit seqnum urb => (env.pending (seqnum.setWidth 32)).isSome ∧
      (urb.isoc = true → urb.pipe.isIn = false →
        ((readMem urb.isoFrameDesc 0 urb.packets).map (·.actualLength)).sum = urb.actualLength)
  | .retUnlink _ _ => True

/-- Unless the client stops, it has received the reply as it was sent; and it stops only on a
reply that it turns down. -/
def RetReceived (env : VhciEnv) (m : SentRet) (r : VhciRxResult) : Prop :=
  (RetAccepted env m → r.stop = false) ∧
    match r with
    | .retSubmit pdu urb => Decoded m.pdu pdu urb
    | .retUnlink pdu => pdu = m.pdu.header
    | .event => True
    | .dropped => False

/-- `vhci_rx_pdu` on a stream that starts with a header. -/
theorem vhciRxPdu_encode (env : VhciEnv) (pdu : UsbipHeader) (rest : List Byte) :
    vhciRxPdu env (pdu.encode ++ rest) =
      match pdu.u with
      | .retSubmit rpdu => vhciRecvRetSubmit env pdu rpdu rest
      | .retUnlink _ => some (.retUnlink pdu, rest)
      | _ => some (.event, rest) := by
  rw [vhciRxPdu, recv_append pdu.length_encode, Option.bind_some]
  cases hu : pdu.u <;> simp only [pdu.decode_encode, hu]

/-- The length of the payload of a RET_SUBMIT is the one that the client computes from the
header and the pending URB. -/
theorem length_retSubmitPayload {urb u : Urb} {payload : List Byte}
    (hin : u.pipe.isIn = urb.pipe.isIn) (hnn : 0 ≤ urb.actualLength.toInt)
    (hpayload : retSubmitPayload urb = some payload) :
    payload.length = (xbuffSize .vhci (unpackRetSubmit (packRetSubmit urb) u)).toNat := by
  have hmsb : urb.actualLength.msb = false := by
    rw [BitVec.msb_eq_toInt]
    simpa using hnn
  have hnat : urb.actualLength.toInt = urb.actualLength.toNat :=
    BitVec.toInt_eq_toNat_of_msb hmsb
  have hsize : (xbuffSize .vhci (unpackRetSubmit (packRetSubmit urb) u)).toNat =
      if urb.pipe.isIn then urb.actualLength.toNat else 0 := by
    cases hdir : urb.pipe.isIn <;>
      simp [xbuffSize, unpackRetSubmit, packRetSubmit, hin, hdir, hnat]
  rw [hsize]
  rw [retSubmitPayload] at hpayload
  split at hpayload
  next h =>
    obtain rfl := Option.some.inj hpayload
    simp only [Bool.and_eq_true] at h
    simp [h.1.1]
  next h =>
    split at hpayload
    next h' =>
      split at hpayload
      next hsum =>
        obtain rfl := Option.some.inj hpayload
        simp only [Bool.and_eq_true] at h'
        simp [h'.1, hsum]
      · simp at hpayload
    next h' =>
      obtain rfl := Option.some.inj hpayload
      cases hdir : urb.pipe.isIn with
      | false => simp
      | true =>
        have hisoc : urb.isoc = false := by simpa [hdir] using h'
        have hzero : urb.actualLength.toNat = 0 := by simpa [hdir, hisoc] using h
        simp [hzero]

/-- A sum of 32-bit lengths is the sum of the lengths, modulo `2 ^ 32`. -/
theorem sum_actualLength (l : List IsoPacketDescriptor) :
    (l.map (·.actualLength)).sum = BitVec.ofNat 32 (l.map (·.actualLength.toNat)).sum := by
  induction l with
  | nil => rfl
  | cons d l ih => simp [ih, BitVec.ofNat_add]

/-- The server has added up the packets of an isochronous IN transfer. -/
theorem sum_of_retSubmitPayload {urb : Urb} {payload : List Byte} (hisoc : urb.isoc = true)
    (hin : urb.pipe.isIn = true) (hpayload : retSubmitPayload urb = some payload) :
    ((readMem urb.isoFrameDesc 0 urb.packets).map (·.actualLength)).sum = urb.actualLength := by
  have hgather : (gatherPackets urb).length =
      ((readMem urb.isoFrameDesc 0 urb.packets).map (·.actualLength.toNat)).sum := by
    rw [gatherPackets, List.length_flatMap]
    simp
  have hsum : (gatherPackets urb).length = urb.actualLength.toNat := by
    by_contra hne
    simp [retSubmitPayload, hisoc, hin, hne] at hpayload
  rw [sum_actualLength, ← hgather, hsum, BitVec.ofNat_toNat, BitVec.setWidth_eq]

/-- The header of a RET_SUBMIT. -/
theorem header_of_stubSendRetSubmit {allocIov : Bool} {kzalloc : Allocator} {seqnum : BitVec 64}
    {urb : Urb} {pdu : Pdu} (h : stubSendRetSubmit allocIov kzalloc seqnum urb = some pdu) :
    pdu.header = setupRetSubmitPdu seqnum urb := by
  rw [stubSendRetSubmit] at h
  split at h
  · simp at h
  · obtain ⟨payload, -, h⟩ := Option.bind_eq_some_iff.mp h
    obtain ⟨iso, -, rfl⟩ := Option.map_eq_some_iff.mp h
    rfl

/-- The client fills the pending URB from exactly the bytes after the header, and turns it down
only when the packets of an isochronous OUT transfer do not add up. -/
theorem recvBody_retSubmit {env : VhciEnv} {allocIov : Bool} {kzalloc : Allocator}
    {seqnum : BitVec 64} {urb u : Urb} {pdu : Pdu} (h : ReplyAgrees env seqnum urb)
    (hpend : env.pending (seqnum.setWidth 32) = some u)
    (hsent : stubSendRetSubmit allocIov kzalloc seqnum urb = some pdu) (rest : List Byte) :
    ∃ res, recvBody .vhci env.kzalloc (unpackRetSubmit (packRetSubmit urb) u)
        (pdu.payload ++ (isoCodec.encodeAll pdu.iso ++ rest)) = some (res, rest) ∧
      (∀ urb', res = .ok urb' → Decoded pdu pdu.header urb') ∧
      ∀ e, res = .error e → e = .epipe ∧ urb.isoc = true ∧ urb.pipe.isIn = false ∧
        ((readMem urb.isoFrameDesc 0 urb.packets).map (·.actualLength)).sum ≠ urb.actualLength := by
  rw [stubSendRetSubmit] at hsent
  split at hsent
  · simp at hsent
  obtain ⟨payload, hpayload, hsent⟩ := Option.bind_eq_some_iff.mp hsent
  obtain ⟨iso, hiso, rfl⟩ := Option.map_eq_some_iff.mp hsent
  obtain ⟨hlen, hdescs⟩ := length_isoDescPdu hiso
  obtain ⟨htype, hin⟩ := h.pipe_eq u hpend
  have hisoc : (unpackRetSubmit (packRetSubmit urb) u).isoc = urb.isoc := by
    simp [Urb.isoc, unpackRetSubmit, htype]
  have hlen' : iso.length = if (unpackRetSubmit (packRetSubmit urb) u).isoc then
      (unpackRetSubmit (packRetSubmit urb) u).packets else 0 := by
    rw [hisoc]
    exact hlen
  refine ⟨_, recvBody_append (length_retSubmitPayload hin h.length_nonneg hpayload)
    h.packets_nonneg hlen' (by rw [hisoc]; exact h.alloc),
    fun urb' hres => decoded_of_isoResult hlen' hres, fun e hres => ?_⟩
  obtain ⟨he, hi, hsum⟩ := isoResult_eq_error hres
  have hi : urb.isoc = true := hisoc ▸ hi
  rw [hdescs hi] at hsum
  refine ⟨he, hi, Bool.eq_false_iff.mpr fun hdir => ?_, hsum⟩
  exact hsum (sum_of_retSubmitPayload hi hdir hpayload)

/-- **One reply**: the client reads exactly the bytes that the server wrote, and gets what was
sent, or it stops. -/
theorem ret_received (env : VhciEnv) (m : SentRet) (rest : List Byte) (h : RetAgrees env m) :
    ∃ r after, vhciRxPdu env (m.pdu.bytes ++ rest) = some (r, after) ∧ RetReceived env m r ∧
      (r.stop = true ∨ after = rest) := by
  obtain ⟨msg, allocIov, kzalloc, pdu, hsent⟩ := m
  rw [Pdu.bytes, List.append_assoc, vhciRxPdu_encode]
  cases msg with
  | retUnlink seqnum status =>
    obtain rfl : stubSendRetUnlink seqnum status = pdu := Option.some.inj hsent
    exact ⟨.retUnlink _, rest, rfl, ⟨fun _ => rfl, rfl⟩, Or.inr rfl⟩
  | retSubmit seqnum urb =>
    have h : ReplyAgrees env seqnum urb := h
    have hsent : stubSendRetSubmit allocIov kzalloc seqnum urb = some pdu := hsent
    have hheader : pdu.header = setupRetSubmitPdu seqnum urb := header_of_stubSendRetSubmit hsent
    have hu : pdu.header.u = .retSubmit (packRetSubmit urb) := by rw [hheader]; rfl
    have hq : pdu.header.base.seqnum = seqnum.setWidth 32 := by rw [hheader]; rfl
    rw [hu]
    simp only [vhciRecvRetSubmit, hq, List.append_assoc]
    cases hpend : env.pending (seqnum.setWidth 32) with
    | none =>
      refine ⟨.event, _, rfl, ⟨fun hacc => ?_, trivial⟩, Or.inl rfl⟩
      simp [RetAccepted, hpend] at hacc
    | some u =>
      obtain ⟨res, hbody, hok, herr⟩ := recvBody_retSubmit h hpend hsent rest
      simp only [hbody, Option.map_some]
      cases res with
      | ok urb' => exact ⟨.retSubmit _ urb', rest, rfl, ⟨fun _ => rfl, hok urb' rfl⟩, Or.inr rfl⟩
      | error e =>
        obtain ⟨rfl, hi, hdir, hsum⟩ := herr e rfl
        exact ⟨.event, rest, rfl, ⟨fun hacc => absurd (hacc.2 hi hdir) hsum, trivial⟩, Or.inl rfl⟩

/-! ### The connection -/

theorem stubRxPdu_nil (env : StubEnv) : stubRxPdu env [] = none := rfl

theorem vhciRxPdu_nil (env : VhciEnv) : vhciRxPdu env [] = none := rfl

/-- **Both directions of a connection are framed.** Every header is read at the start of a
PDU; what the receiver accepts it has read to the last byte and decoded as it was sent; and
what it turns down ends the connection. -/
theorem streams_framed {devid : BitVec 32} {stubEnvs : List StubEnv} {cmds : List (SentCmd devid)}
    {vhciEnvs : List VhciEnv} {rets : List SentRet} (hcmds : Meets CmdAgrees stubEnvs cmds)
    (hrets : Meets RetAgrees vhciEnvs rets) :
    Framed (fun m : SentCmd devid => m.pdu.bytes) StubRxResult.stop CmdReceived stubEnvs cmds
        (receive stubRxPdu StubRxResult.stop stubEnvs (stream (fun m => m.pdu.bytes) cmds)) ∧
      Framed (fun m : SentRet => m.pdu.bytes) VhciRxResult.stop RetReceived vhciEnvs rets
        (receive vhciRxPdu VhciRxResult.stop vhciEnvs (stream (fun m => m.pdu.bytes) rets)) :=
  ⟨receive_framed stubRxPdu_nil cmd_received hcmds, receive_framed vhciRxPdu_nil ret_received hrets⟩

/-- Every message is read to its last byte. -/
def ConsumedExactly {π ρ : Type} (encode : π → List Byte) (msgs : List π)
    (calls : List (Call ρ)) : Prop :=
  ∀ (i : ℕ) c, calls[i]? = some c → c.after = stream encode (msgs.drop (i + 1))

/-- An allocator without any shortage. -/
def plenty : Allocator where
  ok n := decide (n < 2 ^ 31)
  bounded n h := by simpa using h

/-- A bulk URB with a two-byte buffer that was filled. -/
def bulkUrb (isIn : Bool) : Urb where
  pipe := ⟨.bulk, isIn, 1⟩
  transferFlags := 0
  transferBufferLength := 2
  startFrame := 0
  numberOfPackets := 0
  interval := 0
  status := 0
  actualLength := 2
  errorCount := 0
  setupPacket := none
  transferBuffer := fun i => BitVec.ofNat 8 i
  isoFrameDesc := fun _ => ⟨0, 0, 0, 0⟩

/-- An isochronous URB of the client with one packet, as the core hands it over. -/
def isoUrb : Urb :=
  { bulkUrb false with pipe := ⟨.isochronous, false, 2⟩, numberOfPackets := 1, actualLength := 0 }

/-- A server that exports device 1 with a bulk and an isochronous endpoint. -/
def exampleStub : StubEnv where
  devid := 1
  used := true
  epIn n := if n = 1 then some .bulk else none
  epOut n := if n = 1 then some .bulk else if n = 2 then some .isochronous else none
  allocPriv := true
  allocUrb := true
  allocSetup := true
  kzalloc := plenty

/-- An isochronous request, then its unlink. -/
def exampleCmds : List (SentCmd 1) :=
  [⟨.submit 1 isoUrb, plenty, _, rfl⟩, ⟨.unlink 2 1, plenty, _, rfl⟩]

/-- The reply to an unlink, then the reply to its target. -/
def exampleRets : List SentRet :=
  [⟨.retUnlink 2 0, true, plenty, _, rfl⟩, ⟨.retSubmit 1 (bulkUrb true), true, plenty, _, rfl⟩]

/-- The client still waits for both replies. -/
def pendingClient : List VhciEnv := [⟨[(1, bulkUrb true)], plenty⟩, ⟨[(1, bulkUrb true)], plenty⟩]

/-- The client has retired the target on the reply to the unlink. -/
def retiredClient : List VhciEnv := [⟨[(1, bulkUrb true)], plenty⟩, ⟨[], plenty⟩]

/-- Both ends agree on the example requests. -/
theorem exampleCmds_agree : Meets CmdAgrees [exampleStub, exampleStub] exampleCmds := by
  refine meets_cons.mpr ⟨?_, meets_cons.mpr ⟨trivial, meets_nil⟩⟩
  refine ⟨fun t ht => ?_, by decide, by decide, fun _ _ _ => rfl, fun _ => by decide⟩
  have ht : some XferType.isochronous = some t := ht
  exact (Option.some.inj ht).symm

/-- Both ends agree on the example replies, whatever is pending of the target. -/
theorem exampleRets_agree {env env' : VhciEnv}
    (h : ∀ u, env'.pending 1 = some u → u.pipe = (bulkUrb true).pipe) :
    Meets RetAgrees [env, env'] exampleRets := by
  refine meets_cons.mpr ⟨trivial, meets_cons.mpr ⟨?_, meets_nil⟩⟩
  refine ⟨fun u hu => ?_, by decide, by decide, fun hi => absurd hi (by decide)⟩
  rw [h u hu]
  exact ⟨rfl, rfl⟩

theorem streams_framed_example :
    Framed (fun m : SentCmd 1 => m.pdu.bytes) StubRxResult.stop CmdReceived
        [exampleStub, exampleStub] exampleCmds
        (receive stubRxPdu StubRxResult.stop [exampleStub, exampleStub]
          (stream (fun m => m.pdu.bytes) exampleCmds)) ∧
      Framed (fun m : SentRet => m.pdu.bytes) VhciRxResult.stop RetReceived pendingClient
        exampleRets (receive vhciRxPdu VhciRxResult.stop pendingClient
          (stream (fun m => m.pdu.bytes) exampleRets)) := by
  refine streams_framed exampleCmds_agree (exampleRets_agree fun u hu => ?_)
  obtain rfl : bulkUrb true = u := Option.some.inj hu
  rfl

/-- **A reply that matches no pending request is not read to its end**, although both ends
agree on everything: the client raises an event with the payload still in the stream. -/
theorem unmatched_reply_left_in_stream :
    Meets RetAgrees retiredClient exampleRets ∧
      ¬ ConsumedExactly (fun m : SentRet => m.pdu.bytes) exampleRets
        (receive vhciRxPdu VhciRxResult.stop retiredClient
          (stream (fun m => m.pdu.bytes) exampleRets)) := by
  refine ⟨exampleRets_agree fun u hu => by simp [VhciEnv.pending] at hu, fun h => ?_⟩
  have hcall : ((receive vhciRxPdu VhciRxResult.stop retiredClient
      (stream (fun m : SentRet => m.pdu.bytes) exampleRets))[1]?).map (·.after.length) =
      some 2 := by decide
  obtain ⟨c, hc, hlen⟩ := Option.map_eq_some_iff.mp hcall
  rw [h 1 c hc] at hlen
  simp [exampleRets] at hlen

end Usbip.Wire
