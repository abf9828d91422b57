import Usbip.Wire.Bounds
import Mathlib.Tactic.Common

/-!
# What a CMD_SUBMIT makes the server touch

`valid_request` compares `base.devid` and looks at the status of the device. All the rest of a
CMD_SUBMIT is used as it comes:

* `get_pipe` indexes `ep_in` or `ep_out`, arrays of 16, with seven bits of `base.ep`, and calls
  `BUG()` when there is no such endpoint. The whole of `base.ep` goes into the pipe, where bits 15
  and 16 of it fall on the transfer type;
* `number_of_packets`, an `int`, is what `usb_alloc_urb` gets when the pipe is isochronous;
* the transfer buffer is allocated when `transfer_buffer_length` is positive, and
  `stub_send_ret_submit` later reads as much of it as the host controller reports, for each packet
  from the offset that came with its descriptor.

`stubBuildUrb` follows `stub_build_urb` and notes what it passes on. The accesses are in bounds, for
every report of the host controller within the lengths it was given, exactly when the conditions of
`Bounded` hold (`stubBuildUrb_within_iff`).
-/

namespace Usbip.Stub

open Framing

/-! ### Pipes -/

/-- `PIPE_ISOCHRONOUS`, `PIPE_INTERRUPT`, `PIPE_CONTROL`, `PIPE_BULK` -/
def pipeCode : Wire.XferType → BitVec 32
  | .isochronous => 0
  | .interrupt => 1
  | .control => 2
  | .bulk => 3

/-- `usb_sndctrlpipe` and the like: the type, `__create_pipe` and `USB_DIR_IN`. -/
def createPipe (type : Wire.XferType) (devnum : BitVec 7) (epnum : BitVec 32) (isIn : Bool) :
    BitVec 32 :=
  pipeCode type <<< 30 ||| (devnum.setWidth 32 <<< 8 ||| epnum <<< 15) |||
    if isIn then 0x80 else 0

/-- `usb_pipetype` -/
def usbPipetype (pipe : BitVec 32) : Wire.XferType :=
  match (pipe >>> 30 &&& 3).toNat with
  | 0 => .isochronous
  | 1 => .interrupt
  | 2 => .control
  | _ => .bulk

/-- `usb_pipein` -/
def usbPipein (pipe : BitVec 32) : Bool := pipe &&& 0x80 != 0

/-- What is read of a pipe. -/
def pipeFields (pipe : BitVec 32) : Wire.Pipe :=
  ⟨usbPipetype pipe, usbPipein pipe, (pipe >>> 15).setWidth 4⟩

theorem toNat_pipetype (pipe : BitVec 32) : (pipe >>> 30 &&& 3).toNat = pipe.toNat / 2 ^ 30 := by
  have := pipe.isLt
  rw [BitVec.toNat_and, BitVec.toNat_ushiftRight, Nat.shiftRight_eq_div_pow]
  change _ &&& (2 ^ 2 - 1) = _
  rw [Nat.and_two_pow_sub_one_eq_mod]
  omega

theorem usbPipetype_eq_iff (pipe : BitVec 32) :
    usbPipetype pipe = .isochronous ↔ pipe.getLsbD 30 = false ∧ pipe.getLsbD 31 = false := by
  have hlt := pipe.isLt
  rw [usbPipetype, toNat_pipetype, BitVec.getLsbD, BitVec.getLsbD,
    Nat.testBit_eq_decide_div_mod_eq, Nat.testBit_eq_decide_div_mod_eq, decide_eq_false_iff_not,
    decide_eq_false_iff_not]
  split
  next h => exact iff_of_true rfl (by omega)
  next h => exact iff_of_false (by simp) (by omega)
  next h => exact iff_of_false (by simp) (by omega)
  next h0 h1 h2 => exact iff_of_false (by simp) fun h => h0 (by omega)

/-- The pipe is isochronous when the endpoint is, and the endpoint number leaves it so. -/
theorem isoc_createPipe_iff (type : Wire.XferType) (devnum : BitVec 7) (epnum : BitVec 32)
    (isIn : Bool) : usbPipetype (createPipe type devnum epnum isIn) = .isochronous ↔
      type = .isochronous ∧ epnum.getLsbD 15 = false ∧ epnum.getLsbD 16 = false := by
  rw [usbPipetype_eq_iff]
  cases type <;> cases isIn <;> simp [createPipe, pipeCode]

/-- The direction of the pipe is the one that was asked for. -/
theorem usbPipein_createPipe (type : Wire.XferType) (devnum : BitVec 7) (epnum : BitVec 32)
    (isIn : Bool) : usbPipein (createPipe type devnum epnum isIn) = isIn := by
  have hbit : ∀ pipe : BitVec 32, usbPipein pipe = pipe.getLsbD 7 := by
    intro pipe
    rw [usbPipein, show (0x80 : BitVec 32) = BitVec.twoPow 32 7 from rfl, BitVec.and_twoPow]
    cases pipe.getLsbD 7 with
    | false => rfl
    | true => rfl
  rw [hbit]
  cases type <;> cases isIn <;> simp [createPipe, pipeCode]

/-! ### Receiving a CMD_SUBMIT -/

/-- What `stub_rx_pdu` consults of the exported device. -/
structure Sdev where
  devid : BitVec 32
  used : Bool
  devnum : BitVec 7
  epIn : Fin 16 → Option Wire.XferType
  epOut : Fin 16 → Option Wire.XferType

/-- The results of the allocations. -/
structure Allocs where
  priv : Bool
  urb : Bool
  setup : Bool
  kzalloc : Wire.Allocator

/-- How `get_pipe` ends. -/
inductive PipeResult
  /-- it has read past the end of `ep_in` or `ep_out` -/
  | outside
  /-- `BUG()` -/
  | bug
  | pipe (pipe : BitVec 32)
  deriving DecidableEq, Repr

/-- What `stub_build_urb` passes on: the count that `usb_alloc_urb` gets, the count of the loop over
the descriptors, and the URB that it returns. -/
structure BuiltUrb where
  allocPackets : Option ℤ
  loopPackets : Option ℤ
  urb : Option Wire.Urb

namespace Sdev

/-- `valid_request` -/
def validRequest (sdev : Sdev) (base : Wire.UsbipHeaderBasic) : Bool :=
  base.devid == sdev.devid && sdev.used

/-- The endpoint that `get_pipe` looks at, if it is in the array. -/
def endpoint (sdev : Sdev) (epnum dir : BitVec 32) : Option Wire.XferType :=
  if h : (epnum &&& 0x7f).toNat < 16 then
    (if dir = Wire.usbipDirIn then sdev.epIn else sdev.epOut) ⟨(epnum &&& 0x7f).toNat, h⟩
  else none

/-- `get_pipe` -/
def getPipe (sdev : Sdev) (epnum dir : BitVec 32) : PipeResult :=
  if 16 ≤ (epnum &&& 0x7f).toNat then .outside
  else
    match sdev.endpoint epnum dir with
    | none => .bug
    | some type => .pipe (createPipe type sdev.devnum epnum (dir != Wire.usbipDirOut))

/-- `usbip_recv_xbuff`. When the client has `closed` the connection, `usbip_recv` returns 0, which
is not taken for an error. -/
def recvXbuff (urb : Wire.Urb) (stream : List Byte) (closed : Bool) :
    Option (Wire.Urb × List Byte) :=
  if ¬ 0 < Wire.xbuffSize .stub urb then some (urb, stream)
  else
    match recv (Wire.xbuffSize .stub urb).toNat stream with
    | some r => some ({ urb with transferBuffer := Wire.storeMem urb.transferBuffer r.1 }, r.2)
    | none =>
      if closed then
        some ({ urb with transferBuffer := Wire.storeMem urb.transferBuffer stream }, [])
      else none

/-- `stub_build_urb`. `stream` is what arrives after the header before the connection is closed or
fails. -/
def stubBuildUrb (sdev : Sdev) (allocs : Allocs) (base : Wire.UsbipHeaderBasic)
    (spdu : Wire.UsbipHeaderCmdSubmit) (stream : List Byte) (closed : Bool) : BuiltUrb :=
  match sdev.getPipe base.ep base.direction with
  | .outside | .bug => ⟨none, none, none⟩
  | .pipe pipe =>
    if !allocs.priv then ⟨none, none, none⟩
    else
      let count := if usbPipetype pipe = .isochronous then spdu.numberOfPackets.toInt else 0
      if !allocs.urb then ⟨some count, none, none⟩
      else if 0 < spdu.transferBufferLength.toInt ∧
          !allocs.kzalloc.ok spdu.transferBufferLength.toNat then ⟨some count, none, none⟩
      else if !allocs.setup then ⟨some count, none, none⟩
      else
        match recvXbuff (Wire.unpackCmdSubmit (pipeFields pipe) spdu) stream closed with
        | none => ⟨some count, none, none⟩
        | some (urb, stream) =>
          let loop := (Wire.recvIsoBuff allocs.kzalloc urb stream).map fun _ =>
            urb.numberOfPackets.toInt
          match Wire.usbipRecvIso allocs.kzalloc urb stream with
          | some (.ok urb, _) => ⟨some count, loop, some urb⟩
          | _ => ⟨some count, loop, none⟩

end Sdev

/-- The size of the transfer buffer. -/
def transferSize (spdu : Wire.UsbipHeaderCmdSubmit) : ℕ :=
  if 0 < spdu.transferBufferLength.toInt then spdu.transferBufferLength.toNat else 0

/-! ### Replying -/

/-- What the host controller reports of a URB. -/
structure Report where
  actualLength : BitVec 32
  packets : ℕ → BitVec 32

def Report.complete (r : Report) (urb : Wire.Urb) : Wire.Urb :=
  { urb with
    actualLength := r.actualLength
    isoFrameDesc := fun i => { urb.isoFrameDesc i with actualLength := r.packets i } }

/-- The host controller reports no more than the lengths it was given. -/
def Report.Honest (r : Report) (urb : Wire.Urb) : Prop :=
  if urb.isoc then ∀ i < urb.packets, (r.packets i).toNat ≤ (urb.isoFrameDesc i).length.toNat
  else r.actualLength.toNat ≤ urb.transferBufferLength.toNat

/-- The ranges of the transfer buffer that `stub_send_ret_submit` hands to `kernel_sendmsg`. -/
def sendRanges (urb : Wire.Urb) : List Wire.Range :=
  if urb.pipe.isIn && !urb.isoc && decide (0 < urb.actualLength.toNat) then
    [⟨0, urb.actualLength.toNat⟩]
  else if urb.pipe.isIn && urb.isoc then
    let iov : List Wire.Range := (Wire.readMem urb.isoFrameDesc 0 urb.packets).map fun d =>
      ⟨d.offset.toNat, d.actualLength.toNat⟩
    if (iov.map (·.len)).sum = urb.actualLength.toNat then iov else []
  else []

/-! ### What the client must keep -/

/-- The accesses that a CMD_SUBMIT leads to. `usbSubmitUrb` says which URBs the USB core takes; only
these are replied to. -/
structure Within (sdev : Sdev) (allocs : Allocs) (usbSubmitUrb : Wire.Urb → Bool)
    (base : Wire.UsbipHeaderBasic) (spdu : Wire.UsbipHeaderCmdSubmit) (stream : List Byte)
    (closed : Bool) : Prop where
  index : (base.ep &&& 0x7f).toNat < 16
  endpoint : sdev.getPipe base.ep base.direction ≠ .bug
  packets : ∀ n ∈ (sdev.stubBuildUrb allocs base spdu stream closed).allocPackets, 0 ≤ n ∧
    ∀ m ∈ (sdev.stubBuildUrb allocs base spdu stream closed).loopPackets, m = n
  reply : ∀ urb ∈ (sdev.stubBuildUrb allocs base spdu stream closed).urb,
    usbSubmitUrb urb = true → ∀ r : Report, r.Honest urb →
      ∀ range ∈ sendRanges (r.complete urb), range.Within (transferSize spdu)

/-- Whether the pipe will be isochronous: bits 15 and 16 of the endpoint number are on its type. -/
def IsocPipe (type : Wire.XferType) (epnum : BitVec 32) : Prop :=
  type = .isochronous ∧ epnum.getLsbD 15 = false ∧ epnum.getLsbD 16 = false

instance (type : Wire.XferType) (epnum : BitVec 32) : Decidable (IsocPipe type epnum) := by
  unfold IsocPipe
  infer_instance

/-- Nothing that `stub_build_urb` allocates fails. -/
structure Allocs.Complete (allocs : Allocs) (spdu : Wire.UsbipHeaderCmdSubmit) : Prop where
  priv : allocs.priv = true
  urb : allocs.urb = true
  buffer : 0 < spdu.transferBufferLength.toInt →
    allocs.kzalloc.ok spdu.transferBufferLength.toNat = true
  setup : allocs.setup = true

/-- The URB of a CMD_SUBMIT before its payload is read. -/
def submitUrb (sdev : Sdev) (type : Wire.XferType) (base : Wire.UsbipHeaderBasic)
    (spdu : Wire.UsbipHeaderCmdSubmit) : Wire.Urb :=
  Wire.unpackCmdSubmit
    (pipeFields (createPipe type sdev.devnum base.ep (base.direction != Wire.usbipDirOut))) spdu

/-- The URB of an IN transfer, with the descriptors that have followed the header. -/
def inUrb (sdev : Sdev) (type : Wire.XferType) (base : Wire.UsbipHeaderBasic)
    (spdu : Wire.UsbipHeaderCmdSubmit) (stream : List Byte) : Wire.Urb :=
  let urb := submitUrb sdev type base spdu
  if urb.isoc = true ∧ urb.numberOfPackets ≠ 0 then
    { urb with
      isoFrameDesc := Wire.storeMem urb.isoFrameDesc (Wire.descs urb.numberOfPackets stream) }
  else urb

/-- The conditions on a CMD_SUBMIT for an endpoint of type `type`, and on the descriptors that
follow it. -/
structure Bounded (sdev : Sdev) (allocs : Allocs) (usbSubmitUrb : Wire.Urb → Bool)
    (base : Wire.UsbipHeaderBasic) (spdu : Wire.UsbipHeaderCmdSubmit) (stream : List Byte)
    (type : Wire.XferType) : Prop where
  packets : allocs.priv = true → IsocPipe type base.ep → 0 ≤ spdu.numberOfPackets.toInt
  /-- What may be sent back of an IN transfer that is not isochronous. -/
  length : allocs.Complete spdu → base.direction ≠ Wire.usbipDirOut →
    usbSubmitUrb (inUrb sdev type base spdu stream) = true → ¬ IsocPipe type base.ep →
      0 ≤ spdu.transferBufferLength.toInt
  /-- What may be sent back of an isochronous IN transfer. -/
  descs : allocs.Complete spdu → base.direction ≠ Wire.usbipDirOut →
    usbSubmitUrb (inUrb sdev type base spdu stream) = true → IsocPipe type base.ep →
      Wire.DescsArrive allocs.kzalloc spdu.numberOfPackets stream →
        Wire.AddUp (Wire.descs spdu.numberOfPackets stream) 0 →
          ∀ d ∈ Wire.descs spdu.numberOfPackets stream, d.length ≠ 0 →
            d.offset.toNat + d.length.toNat ≤ transferSize spdu

section

variable {sdev : Sdev} {allocs : Allocs} {base : Wire.UsbipHeaderBasic}
  {spdu : Wire.UsbipHeaderCmdSubmit} {stream : List Byte} {closed : Bool} {type : Wire.XferType}

theorem getPipe_of_endpoint (h : sdev.endpoint base.ep base.direction = some type) :
    (base.ep &&& 0x7f).toNat < 16 ∧ sdev.getPipe base.ep base.direction =
      .pipe (createPipe type sdev.devnum base.ep (base.direction != Wire.usbipDirOut)) := by
  have hlt : (base.ep &&& 0x7f).toNat < 16 := by
    by_contra hge
    rw [Sdev.endpoint, dif_neg hge] at h
    cases h
  rw [Sdev.getPipe, if_neg (not_le.mpr hlt), h]
  exact ⟨hlt, rfl⟩

/-- The endpoint is there exactly when `get_pipe` comes to its end. -/
theorem isSome_endpoint_iff : (sdev.endpoint base.ep base.direction).isSome ↔
    (base.ep &&& 0x7f).toNat < 16 ∧ sdev.getPipe base.ep base.direction ≠ .bug := by
  constructor
  · intro h
    obtain ⟨type, htype⟩ := Option.isSome_iff_exists.mp h
    obtain ⟨hlt, hpipe⟩ := getPipe_of_endpoint htype
    exact ⟨hlt, by simp [hpipe]⟩
  · rintro ⟨hlt, hbug⟩
    rw [Sdev.getPipe, if_neg (not_le.mpr hlt)] at hbug
    split at hbug
    · exact absurd rfl hbug
    next htype => simp [htype]

theorem isoc_submitUrb :
    (submitUrb sdev type base spdu).isoc = true ↔ IsocPipe type base.ep := by
  rw [Wire.Urb.isoc, beq_iff_eq]
  exact isoc_createPipe_iff ..

theorem isIn_submitUrb :
    (submitUrb sdev type base spdu).pipe.isIn = (base.direction != Wire.usbipDirOut) :=
  usbPipein_createPipe ..

/-- `usbip_recv_xbuff` changes nothing but the transfer buffer. -/
theorem eq_of_recvXbuff {urb urb' : Wire.Urb} {rest : List Byte}
    (h : Sdev.recvXbuff urb stream closed = some (urb', rest)) :
    ∃ buf, urb' = { urb with transferBuffer := buf } := by
  rw [Sdev.recvXbuff] at h
  split at h
  · obtain ⟨rfl, -⟩ := Prod.mk.inj (Option.some.inj h)
    exact ⟨_, rfl⟩
  split at h
  · obtain ⟨rfl, -⟩ := Prod.mk.inj (Option.some.inj h)
    exact ⟨_, rfl⟩
  · obtain ⟨-, h⟩ := Option.ite_none_right_eq_some.mp h
    obtain ⟨rfl, -⟩ := Prod.mk.inj (Option.some.inj h)
    exact ⟨_, rfl⟩

theorem allocCount_eq : (if usbPipetype (createPipe type sdev.devnum base.ep
      (base.direction != Wire.usbipDirOut)) = .isochronous then spdu.numberOfPackets.toInt else 0) =
    if IsocPipe type base.ep then spdu.numberOfPackets.toInt else 0 :=
  if_congr (isoc_createPipe_iff ..) rfl rfl

/-- What `stub_build_urb` does when all its allocations succeed. -/
theorem stubBuildUrb_of_complete (htype : sdev.endpoint base.ep base.direction = some type)
    (hc : allocs.Complete spdu) :
    sdev.stubBuildUrb allocs base spdu stream closed =
      let count := if IsocPipe type base.ep then spdu.numberOfPackets.toInt else 0
      match Sdev.recvXbuff (submitUrb sdev type base spdu) stream closed with
      | none => ⟨some count, none, none⟩
      | some (urb, stream) =>
        let loop := (Wire.recvIsoBuff allocs.kzalloc urb stream).map fun _ =>
          urb.numberOfPackets.toInt
        match Wire.usbipRecvIso allocs.kzalloc urb stream with
        | some (.ok urb, _) => ⟨some count, loop, some urb⟩
        | _ => ⟨some count, loop, none⟩ := by
  have hbuffer : ¬ (0 < spdu.transferBufferLength.toInt ∧
      (!allocs.kzalloc.ok spdu.transferBufferLength.toNat) = true) := by
    rintro ⟨hpos, hfail⟩
    simp [hc.buffer hpos] at hfail
  rw [Sdev.stubBuildUrb, (getPipe_of_endpoint htype).2]
  dsimp only
  rw [allocCount_eq, if_neg (by simp [hc.priv]), if_neg (by simp [hc.urb]), if_neg hbuffer,
    if_neg (by simp [hc.setup])]
  rfl

/-- What it does when one fails. -/
theorem stubBuildUrb_of_not_complete (htype : sdev.endpoint base.ep base.direction = some type)
    (hc : ¬ allocs.Complete spdu) :
    sdev.stubBuildUrb allocs base spdu stream closed =
      ⟨if allocs.priv then some (if IsocPipe type base.ep then spdu.numberOfPackets.toInt else 0)
        else none, none, none⟩ := by
  rw [Sdev.stubBuildUrb, (getPipe_of_endpoint htype).2]
  dsimp only
  rw [allocCount_eq]
  by_cases hpriv : allocs.priv = true
  swap
  · rw [if_pos (by simpa using hpriv), if_neg hpriv]
  rw [if_neg (by simp [hpriv]), if_pos hpriv]
  split
  · rfl
  next hurb =>
  split
  · rfl
  next hbuffer =>
  split
  · rfl
  next hsetup =>
    refine absurd ⟨hpriv, by simpa using hurb, fun hpos => ?_, by simpa using hsetup⟩ hc
    by_contra hfail
    exact hbuffer ⟨hpos, by simpa using hfail⟩

/-- The URB that `stub_build_urb` returns keeps the pipe. -/
theorem pipe_of_mem_urb (htype : sdev.endpoint base.ep base.direction = some type) {urb : Wire.Urb}
    (h : urb ∈ (sdev.stubBuildUrb allocs base spdu stream closed).urb) :
    urb.pipe = (submitUrb sdev type base spdu).pipe := by
  by_cases hc : allocs.Complete spdu
  swap
  · rw [stubBuildUrb_of_not_complete htype hc] at h
    cases h
  rw [stubBuildUrb_of_complete htype hc] at h
  dsimp only at h
  split at h
  · cases h
  next urb₁ rest hx =>
    obtain ⟨buf, rfl⟩ := eq_of_recvXbuff hx
    split at h
    next urb₂ rest' hiso =>
      obtain rfl := Option.some.inj h
      rw [Wire.eq_of_usbipRecvIso hiso]
      split
      · rfl
      · rfl
    · cases h

/-- The URB of an IN transfer is built when the descriptors arrive and add up to nothing. -/
theorem mem_urb_iff_of_in (htype : sdev.endpoint base.ep base.direction = some type)
    (hin : base.direction ≠ Wire.usbipDirOut) {urb : Wire.Urb} :
    urb ∈ (sdev.stubBuildUrb allocs base spdu stream closed).urb ↔
      (allocs.Complete spdu ∧ (IsocPipe type base.ep → spdu.numberOfPackets ≠ 0 →
        Wire.DescsArrive allocs.kzalloc spdu.numberOfPackets stream ∧
          Wire.AddUp (Wire.descs spdu.numberOfPackets stream) 0)) ∧
        urb = inUrb sdev type base spdu stream := by
  by_cases hc : allocs.Complete spdu
  swap
  · rw [stubBuildUrb_of_not_complete htype hc]
    exact iff_of_false (by simp) fun h => hc h.1.1
  have hskip : Sdev.recvXbuff (submitUrb sdev type base spdu) stream closed =
      some (submitUrb sdev type base spdu, stream) := by
    have hisIn : (submitUrb sdev type base spdu).pipe.isIn = true := by
      rw [isIn_submitUrb]
      simpa using hin
    rw [Sdev.recvXbuff, Wire.xbuffSize, hisIn]
    rfl
  have hok : (IsocPipe type base.ep → spdu.numberOfPackets ≠ 0 →
      Wire.DescsArrive allocs.kzalloc spdu.numberOfPackets stream ∧
        Wire.AddUp (Wire.descs spdu.numberOfPackets stream) 0) ↔
      ∃ urb rest, Wire.usbipRecvIso allocs.kzalloc (submitUrb sdev type base spdu) stream =
        some (.ok urb, rest) := by
    rw [Wire.usbipRecvIso_ok_iff, isoc_submitUrb]
    rfl
  rw [stubBuildUrb_of_complete htype hc, hskip, hok]
  dsimp only
  split
  next urb' rest hiso =>
    rw [hiso, Wire.eq_of_usbipRecvIso hiso]
    exact ⟨fun h => ⟨⟨hc, _, _, rfl⟩, (Option.some.inj h).symm⟩, fun h => congrArg some h.2.symm⟩
  next hiso =>
    refine iff_of_false (by simp) ?_
    rintro ⟨⟨-, urb', rest, hok⟩, -⟩
    exact hiso urb' rest hok

/-- The count that `usb_alloc_urb` gets. -/
theorem allocPackets_stubBuildUrb (htype : sdev.endpoint base.ep base.direction = some type) :
    (sdev.stubBuildUrb allocs base spdu stream closed).allocPackets =
      if allocs.priv then some (if IsocPipe type base.ep then spdu.numberOfPackets.toInt else 0)
      else none := by
  by_cases hc : allocs.Complete spdu
  swap
  · rw [stubBuildUrb_of_not_complete htype hc]
  rw [stubBuildUrb_of_complete htype hc, if_pos hc.priv]
  dsimp only
  split
  · rfl
  split
  · rfl
  · rfl

/-- The count of the loop over the descriptors, which runs for an isochronous pipe only. -/
theorem eq_of_mem_loopPackets (htype : sdev.endpoint base.ep base.direction = some type) {m : ℤ}
    (h : m ∈ (sdev.stubBuildUrb allocs base spdu stream closed).loopPackets) :
    IsocPipe type base.ep ∧ m = spdu.numberOfPackets.toInt := by
  by_cases hc : allocs.Complete spdu
  swap
  · rw [stubBuildUrb_of_not_complete htype hc] at h
    cases h
  rw [stubBuildUrb_of_complete htype hc] at h
  dsimp only at h
  split at h
  · cases h
  next urb rest hx =>
    obtain ⟨buf, rfl⟩ := eq_of_recvXbuff hx
    have hloop : m ∈ (Wire.recvIsoBuff allocs.kzalloc
        { submitUrb sdev type base spdu with transferBuffer := buf } rest).map
          fun _ => spdu.numberOfPackets.toInt := by
      split at h
      · exact h
      · exact h
    obtain ⟨iso, hiso, rfl⟩ := Option.map_eq_some_iff.mp hloop
    have hisoc : (submitUrb sdev type base spdu).isoc = true :=
      (Wire.recvIsoBuff_eq_some_iff.mp hiso).1
    exact ⟨isoc_submitUrb.mp hisoc, rfl⟩

/-- Both counts come from the header. -/
theorem counts_iff (htype : sdev.endpoint base.ep base.direction = some type) :
    (∀ n ∈ (sdev.stubBuildUrb allocs base spdu stream closed).allocPackets, 0 ≤ n ∧
      ∀ m ∈ (sdev.stubBuildUrb allocs base spdu stream closed).loopPackets, m = n) ↔
      (allocs.priv = true → IsocPipe type base.ep → 0 ≤ spdu.numberOfPackets.toInt) := by
  rw [allocPackets_stubBuildUrb htype]
  by_cases hpriv : allocs.priv = true
  swap
  · simp [hpriv]
  rw [if_pos hpriv]
  by_cases hisoc : IsocPipe type base.ep
  · rw [if_pos hisoc]
    constructor
    · intro h _ _
      exact (h _ rfl).1
    · rintro h _ ⟨⟩
      exact ⟨h hpriv hisoc, fun m hm => (eq_of_mem_loopPackets htype hm).2⟩
  · rw [if_neg hisoc]
    refine iff_of_true ?_ fun _ h => absurd h hisoc
    rintro _ ⟨⟩
    exact ⟨le_rfl, fun m hm => absurd (eq_of_mem_loopPackets htype hm).1 hisoc⟩

end

/-! ### The ranges of a reply -/

/-- Only what the host controller was given for one packet, in the packet `i`. -/
def Report.only (urb : Wire.Urb) (i : ℕ) : Report where
  actualLength := (urb.isoFrameDesc i).length
  packets := fun j => if j = i then (urb.isoFrameDesc i).length else 0

/-- The ranges of an isochronous IN transfer: one for each packet. -/
theorem sendRanges_of_isoc {urb : Wire.Urb} (hin : urb.pipe.isIn = true)
    (hisoc : urb.isoc = true) :
    sendRanges urb =
      if ((List.range urb.packets).map fun i => (urb.isoFrameDesc i).actualLength.toNat).sum =
        urb.actualLength.toNat then
        (List.range urb.packets).map fun i =>
          ⟨(urb.isoFrameDesc i).offset.toNat, (urb.isoFrameDesc i).actualLength.toNat⟩
      else [] := by
  have hmap : ((Wire.readMem urb.isoFrameDesc 0 urb.packets).map fun d =>
      (⟨d.offset.toNat, d.actualLength.toNat⟩ : Wire.Range)) =
        (List.range urb.packets).map fun i =>
          ⟨(urb.isoFrameDesc i).offset.toNat, (urb.isoFrameDesc i).actualLength.toNat⟩ := by
    rw [Wire.readMem, List.map_map]
    refine List.map_congr_left fun i _ => ?_
    simp only [Function.comp_apply, Nat.zero_add]
  rw [sendRanges, if_neg (by simp [hisoc]), if_pos (by simp [hin, hisoc])]
  dsimp only
  rw [hmap, List.map_map]
  rfl

theorem sum_range_single {n i : ℕ} (h : i < n) (k : ℕ) :
    ((List.range n).map fun j => if j = i then k else 0).sum = k := by
  induction n with
  | zero => exact absurd h (Nat.not_lt_zero i)
  | succ n ih =>
    rw [List.range_succ, List.map_append, List.sum_append]
    rcases Nat.lt_succ_iff_lt_or_eq.mp h with hlt | rfl
    · simp [ih hlt, hlt.ne']
    · have hzero : (List.range i).map (fun j => if j = i then k else 0) =
          (List.range i).map fun _ => 0 :=
        List.map_congr_left fun j hj => if_neg (List.mem_range.mp hj).ne
      simp [hzero]

/-- When all the data came with one packet, the reply reads it where that packet is. -/
theorem mem_sendRanges_only {urb : Wire.Urb} (hin : urb.pipe.isIn = true)
    (hisoc : urb.isoc = true) {i : ℕ} (hi : i < urb.packets) :
    ⟨(urb.isoFrameDesc i).offset.toNat, (urb.isoFrameDesc i).length.toNat⟩ ∈
      sendRanges ((Report.only urb i).complete urb) := by
  have hlength : ∀ j, (((Report.only urb i).complete urb).isoFrameDesc j).actualLength.toNat =
      if j = i then (urb.isoFrameDesc i).length.toNat else 0 := by
    intro j
    simp only [Report.complete, Report.only]
    split
    · rfl
    · rfl
  have hsum : ((List.range urb.packets).map fun j =>
      (((Report.only urb i).complete urb).isoFrameDesc j).actualLength.toNat).sum =
        (urb.isoFrameDesc i).length.toNat := by
    simp only [hlength]
    exact sum_range_single hi _
  have hisIn : ((Report.only urb i).complete urb).pipe.isIn = true := hin
  have hisoc' : ((Report.only urb i).complete urb).isoc = true := hisoc
  rw [(sendRanges_of_isoc hisIn hisoc').trans (if_pos hsum)]
  simp only [hlength]
  exact List.mem_map.mpr ⟨i, List.mem_range.mpr hi, by rw [if_pos rfl]; rfl⟩

/-- The reply to an isochronous IN transfer: each packet with room for data must be inside. -/
theorem reply_isoc_iff {urb : Wire.Urb} (hin : urb.pipe.isIn = true) (hisoc : urb.isoc = true)
    (size : ℕ) :
    (∀ r : Report, r.Honest urb → ∀ range ∈ sendRanges (r.complete urb), range.Within size) ↔
      ∀ i < urb.packets, (urb.isoFrameDesc i).length ≠ 0 →
        (urb.isoFrameDesc i).offset.toNat + (urb.isoFrameDesc i).length.toNat ≤ size := by
  constructor
  · intro h i hi hlen
    have hhonest : (Report.only urb i).Honest urb := by
      rw [Report.Honest, if_pos hisoc]
      intro j _
      rw [Report.only]
      dsimp only
      split
      next hji => rw [hji]
      · exact Nat.zero_le _
    rcases h _ hhonest _ (mem_sendRanges_only hin hisoc hi) with hzero | ⟨-, hle⟩
    · exact absurd (BitVec.eq_of_toNat_eq hzero) hlen
    · dsimp only at hle
      exact_mod_cast hle
  · intro h r hr range hrange
    rw [Report.Honest, if_pos hisoc] at hr
    have hisIn : (r.complete urb).pipe.isIn = true := hin
    have hisoc' : (r.complete urb).isoc = true := hisoc
    rw [sendRanges_of_isoc hisIn hisoc'] at hrange
    split at hrange
    swap
    · exact absurd hrange List.not_mem_nil
    obtain ⟨i, hi, rfl⟩ := List.mem_map.mp hrange
    have hi : i < urb.packets := List.mem_range.mp hi
    have hle : (r.packets i).toNat ≤ (urb.isoFrameDesc i).length.toNat := hr i hi
    by_cases hzero : (r.packets i).toNat = 0
    · exact Or.inl hzero
    have hlen : (urb.isoFrameDesc i).length ≠ 0 := by
      intro hlen
      rw [hlen] at hle
      exact hzero (Nat.le_zero.mp hle)
    have hwithin := h i hi hlen
    refine Or.inr ⟨Int.natCast_nonneg _, ?_⟩
    change ((urb.isoFrameDesc i).offset.toNat : ℤ) + (r.packets i).toNat ≤ size
    omega

/-- The reply to another IN transfer: as much as the client has asked for. -/
theorem reply_length_iff {urb : Wire.Urb} (hin : urb.pipe.isIn = true) (hisoc : urb.isoc = false)
    (size : ℕ) :
    (∀ r : Report, r.Honest urb → ∀ range ∈ sendRanges (r.complete urb), range.Within size) ↔
      urb.transferBufferLength.toNat ≤ size := by
  have hranges : ∀ r : Report, sendRanges (r.complete urb) =
      if 0 < r.actualLength.toNat then [⟨0, r.actualLength.toNat⟩] else [] := by
    intro r
    have hisIn : (r.complete urb).pipe.isIn = true := hin
    have hisoc' : (r.complete urb).isoc = false := hisoc
    have hactual : (r.complete urb).actualLength = r.actualLength := rfl
    rw [sendRanges, hisIn, hisoc', hactual]
    by_cases hpos : 0 < r.actualLength.toNat
    · simp [hpos]
    · simp [hpos]
  simp only [Report.Honest, hisoc, Bool.false_eq_true, if_false, hranges]
  constructor
  · intro h
    by_cases hpos : 0 < urb.transferBufferLength.toNat
    swap
    · omega
    have hwithin := h ⟨urb.transferBufferLength, fun _ => 0⟩ le_rfl
      ⟨0, urb.transferBufferLength.toNat⟩ (by rw [if_pos hpos]; exact List.mem_singleton_self _)
    rcases hwithin with hzero | ⟨-, hle⟩
    · exact absurd hzero hpos.ne'
    · simpa using hle
  · intro h r hr range hrange
    split at hrange
    swap
    · exact absurd hrange List.not_mem_nil
    obtain rfl := List.mem_singleton.mp hrange
    refine Or.inr ⟨le_rfl, ?_⟩
    change (0 : ℤ) + r.actualLength.toNat ≤ size
    omega

/-- A buffer is allocated for every length but a negative one. -/
theorem length_le_transferSize_iff {spdu : Wire.UsbipHeaderCmdSubmit} :
    spdu.transferBufferLength.toNat ≤ transferSize spdu ↔
      0 ≤ spdu.transferBufferLength.toInt := by
  have hlt := spdu.transferBufferLength.isLt
  rw [transferSize, BitVec.toInt_eq_toNat_cond]
  split_ifs <;> omega

section

variable {sdev : Sdev} {allocs : Allocs} {base : Wire.UsbipHeaderBasic}
  {spdu : Wire.UsbipHeaderCmdSubmit} {stream : List Byte} {closed : Bool} {type : Wire.XferType}

/-- Nothing is sent back of an OUT transfer. -/
theorem sendRanges_of_out (htype : sdev.endpoint base.ep base.direction = some type)
    (hout : base.direction = Wire.usbipDirOut) {urb : Wire.Urb}
    (h : urb ∈ (sdev.stubBuildUrb allocs base spdu stream closed).urb) (r : Report) :
    sendRanges (r.complete urb) = [] := by
  have hisIn : (r.complete urb).pipe.isIn = false := by
    rw [Report.complete]
    dsimp only
    rw [pipe_of_mem_urb htype h, isIn_submitUrb, hout]
    rfl
  simp [sendRanges, hisIn]

/-- The packets of an isochronous IN transfer are those of the descriptors. -/
theorem packets_inUrb (hisoc : IsocPipe type base.ep) (P : Wire.IsoPacketDescriptor → Prop) :
    (∀ i < (inUrb sdev type base spdu stream).packets,
      P ((inUrb sdev type base spdu stream).isoFrameDesc i)) ↔
      ∀ d ∈ Wire.descs spdu.numberOfPackets stream, P d := by
  have hlength : (Wire.descs spdu.numberOfPackets stream).length =
      spdu.numberOfPackets.toInt.toNat := Wire.isoCodec.length_decodeAll ..
  have hpackets : (inUrb sdev type base spdu stream).packets =
      (Wire.descs spdu.numberOfPackets stream).length := by
    rw [hlength, inUrb]
    split
    · rfl
    · rfl
  rw [hpackets, List.forall_mem_iff_getElem]
  refine forall₂_congr fun i hi => ?_
  have hnp : spdu.numberOfPackets ≠ 0 := by
    intro hnp
    rw [hlength, hnp] at hi
    exact absurd hi (Nat.not_lt_zero i)
  have hdesc : (inUrb sdev type base spdu stream).isoFrameDesc i =
      (Wire.descs spdu.numberOfPackets stream)[i] := by
    rw [inUrb]
    rw [if_pos ⟨isoc_submitUrb.mpr hisoc, hnp⟩]
    change (Wire.descs spdu.numberOfPackets stream).getD i _ = _
    simp [hi]
  rw [hdesc]

/-- What the replies to an IN transfer read. -/
theorem reply_inUrb_iff (hin : base.direction ≠ Wire.usbipDirOut) :
    (∀ r : Report, r.Honest (inUrb sdev type base spdu stream) →
      ∀ range ∈ sendRanges (r.complete (inUrb sdev type base spdu stream)),
        range.Within (transferSize spdu)) ↔
      if IsocPipe type base.ep then
        ∀ d ∈ Wire.descs spdu.numberOfPackets stream, d.length ≠ 0 →
          d.offset.toNat + d.length.toNat ≤ transferSize spdu
      else 0 ≤ spdu.transferBufferLength.toInt := by
  have hpipe : (inUrb sdev type base spdu stream).pipe = (submitUrb sdev type base spdu).pipe := by
    rw [inUrb]
    split
    · rfl
    · rfl
  have hisIn : (inUrb sdev type base spdu stream).pipe.isIn = true := by
    rw [hpipe, isIn_submitUrb]
    simpa using hin
  have hsubmit : (inUrb sdev type base spdu stream).isoc =
      (submitUrb sdev type base spdu).isoc := by
    rw [Wire.Urb.isoc, hpipe]
    rfl
  split
  next hisoc =>
    rw [reply_isoc_iff hisIn (hsubmit.trans (isoc_submitUrb.mpr hisoc))]
    exact packets_inUrb hisoc fun d => d.length ≠ 0 →
      d.offset.toNat + d.length.toNat ≤ transferSize spdu
  next hisoc =>
    have hfalse : (submitUrb sdev type base spdu).isoc = false := by
      simpa using mt isoc_submitUrb.mp hisoc
    rw [reply_length_iff hisIn (hsubmit.trans hfalse), inUrb]
    rw [if_neg (by simp [hfalse])]
    exact length_le_transferSize_iff

/-- The replies read inside the buffer when the client has kept to its conditions. -/
theorem reply_iff (htype : sdev.endpoint base.ep base.direction = some type)
    (usbSubmitUrb : Wire.Urb → Bool) :
    (∀ urb ∈ (sdev.stubBuildUrb allocs base spdu stream closed).urb,
      usbSubmitUrb urb = true → ∀ r : Report, r.Honest urb →
        ∀ range ∈ sendRanges (r.complete urb), range.Within (transferSize spdu)) ↔
      (allocs.Complete spdu → base.direction ≠ Wire.usbipDirOut →
        usbSubmitUrb (inUrb sdev type base spdu stream) = true → ¬ IsocPipe type base.ep →
          0 ≤ spdu.transferBufferLength.toInt) ∧
        (allocs.Complete spdu → base.direction ≠ Wire.usbipDirOut →
          usbSubmitUrb (inUrb sdev type base spdu stream) = true → IsocPipe type base.ep →
            Wire.DescsArrive allocs.kzalloc spdu.numberOfPackets stream →
              Wire.AddUp (Wire.descs spdu.numberOfPackets stream) 0 →
                ∀ d ∈ Wire.descs spdu.numberOfPackets stream, d.length ≠ 0 →
                  d.offset.toNat + d.length.toNat ≤ transferSize spdu) := by
  by_cases hin : base.direction = Wire.usbipDirOut
  · refine iff_of_true (fun urb hurb _ r _ range hrange => ?_)
      ⟨fun _ h => absurd hin h, fun _ h => absurd hin h⟩
    rw [sendRanges_of_out htype hin hurb r] at hrange
    exact absurd hrange List.not_mem_nil
  constructor
  · intro h
    refine ⟨fun hc _ haccept hisoc => ?_, fun hc _ haccept hisoc harrive hadd => ?_⟩
    · have hmem : inUrb sdev type base spdu stream ∈
          (sdev.stubBuildUrb allocs base spdu stream closed).urb :=
        (mem_urb_iff_of_in htype hin).mpr ⟨⟨hc, fun hi => absurd hi hisoc⟩, rfl⟩
      have hreply := (reply_inUrb_iff hin).mp (h _ hmem haccept)
      rwa [if_neg hisoc] at hreply
    · have hmem : inUrb sdev type base spdu stream ∈
          (sdev.stubBuildUrb allocs base spdu stream closed).urb :=
        (mem_urb_iff_of_in htype hin).mpr ⟨⟨hc, fun _ _ => ⟨harrive, hadd⟩⟩, rfl⟩
      have hreply := (reply_inUrb_iff hin).mp (h _ hmem haccept)
      rwa [if_pos hisoc] at hreply
  · rintro ⟨hlength, hdescs⟩ urb hurb haccept
    obtain ⟨⟨hc, hread⟩, rfl⟩ := (mem_urb_iff_of_in htype hin).mp hurb
    refine (reply_inUrb_iff hin).mpr ?_
    split
    next hisoc =>
      by_cases hnp : spdu.numberOfPackets = 0
      · rw [hnp]
        exact fun d hd => absurd hd List.not_mem_nil
      · obtain ⟨harrive, hadd⟩ := hread hisoc hnp
        exact hdescs hc hin haccept hisoc harrive hadd
    next hisoc => exact hlength hc hin haccept hisoc

end

/-- A CMD_SUBMIT is handled within bounds exactly when there is such an endpoint and the client has
kept to its conditions. -/
theorem stubBuildUrb_within_iff (sdev : Sdev) (allocs : Allocs) (usbSubmitUrb : Wire.Urb → Bool)
    (base : Wire.UsbipHeaderBasic) (spdu : Wire.UsbipHeaderCmdSubmit) (stream : List Byte)
    (closed : Bool) :
    Within sdev allocs usbSubmitUrb base spdu stream closed ↔
      ∃ type, sdev.endpoint base.ep base.direction = some type ∧
        Bounded sdev allocs usbSubmitUrb base spdu stream type := by
  constructor
  · intro h
    obtain ⟨type, htype⟩ :=
      Option.isSome_iff_exists.mp (isSome_endpoint_iff.mpr ⟨h.index, h.endpoint⟩)
    obtain ⟨hlength, hdescs⟩ := (reply_iff htype usbSubmitUrb).mp h.reply
    exact ⟨type, htype, (counts_iff htype).mp h.packets, hlength, hdescs⟩
  · rintro ⟨type, htype, h⟩
    obtain ⟨hindex, hendpoint⟩ := isSome_endpoint_iff.mp (Option.isSome_of_eq_some htype)
    exact ⟨hindex, hendpoint, (counts_iff htype).mpr h.packets,
      (reply_iff htype usbSubmitUrb).mpr ⟨h.length, h.descs⟩⟩

/-- A device with nothing but its control endpoint. -/
def controlOnly : Sdev where
  devid := 1
  used := true
  devnum := 1
  epIn := fun i => if i = 0 then some .control else none
  epOut := fun i => if i = 0 then some .control else none

/-- The header of an IN transfer for endpoint 1. -/
def firstEndpoint : Wire.UsbipHeaderBasic := ⟨Wire.usbipCmdSubmit, 1, 1, Wire.usbipDirIn, 1⟩

/-- An endpoint that the device does not have passes `valid_request` and ends in `BUG()`. -/
theorem stubBuildUrb_not_within :
    ¬ ∀ (sdev : Sdev) (allocs : Allocs) (usbSubmitUrb : Wire.Urb → Bool)
      (base : Wire.UsbipHeaderBasic) (spdu : Wire.UsbipHeaderCmdSubmit) (stream : List Byte)
      (closed : Bool), sdev.validRequest base = true →
        Within sdev allocs usbSubmitUrb base spdu stream closed := by
  intro h
  have hwithin := h controlOnly ⟨true, true, true, ⟨fun n => decide (n < 2 ^ 22), by
    intro n hn
    exact (of_decide_eq_true hn).trans (by decide)⟩⟩ (fun _ => true) firstEndpoint
    ⟨0, 512, 0, 0, 0, fun _ => 0⟩ [] false rfl
  exact hwithin.endpoint rfl

end Usbip.Stub
