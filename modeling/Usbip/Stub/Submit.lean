import Usbip.Wire.Recv
import Usbip.Stub.Bounds

/-!
# A CMD_SUBMIT that arrives in part

`stub_build_urb` reads the payload and the packet descriptors after it has made its allocations, and
tests the results of both functions for a negative value. `usbip_recv_xbuff` has raised an event
whenever the payload is cut off, but its result is that of `usbip_recv`: an error code, or 0 when
the client has closed the connection in order. With 0 the function goes on. If there are descriptors
to read, they do not come either and the second test ends it; if there are none, the URB is complete
as far as the function knows, and goes to the filters and to the device with the zeros of `kzalloc`
in place of what is missing.

`usbip_recv_iso` returns `-ENOMEM` without an event, and reads as many bytes as
`number_of_packets * 16` gives in an `int`. `stubRecvCmdSubmit_allOrNothing_iff` says that nothing
else goes wrong.
-/

namespace Usbip.Stub.Submit

open Socket

/-- What `stub_build_urb` leaves: the URB that it returns, the events that it has raised, and how
many bytes of the payload and of the descriptors it has received. -/
structure Build where
  urb : Option Wire.Urb
  events : List Event.EhEvent
  payload : ℕ
  descs : ℕ

/-- The end of `stub_build_urb`: the payload, then the packet descriptors. -/
def readUrb (kzalloc : Wire.Allocator) (urb : Wire.Urb) (s : List Outcome) : Build :=
  let xbuff := Wire.Sock.usbipRecvXbuff .stub true urb s
  if xbuff.ret < 0 then ⟨none, xbuff.events, xbuff.bytes.length, 0⟩
  else
    let iso := Wire.Sock.usbipRecvIso kzalloc xbuff.urb xbuff.rest
    ⟨if iso.ret < 0 then none else some iso.urb, xbuff.events ++ iso.events, xbuff.bytes.length,
      iso.bytes.length⟩

/-- `stub_build_urb` -/
def stubBuildUrb (sdev : Sdev) (allocs : Allocs) (base : Wire.UsbipHeaderBasic)
    (spdu : Wire.UsbipHeaderCmdSubmit) (s : List Outcome) : Build :=
  match sdev.getPipe base.ep base.direction with
  | .outside | .bug => ⟨none, [], 0, 0⟩
  | .pipe pipe =>
    if !allocs.priv then ⟨none, [.errorMalloc], 0, 0⟩
    else if !allocs.urb then ⟨none, [.errorMalloc], 0, 0⟩
    else if 0 < spdu.transferBufferLength.toInt ∧
        !allocs.kzalloc.ok spdu.transferBufferLength.toNat then ⟨none, [.errorMalloc], 0, 0⟩
    else if !allocs.setup then ⟨none, [.errorMalloc], 0, 0⟩
    else readUrb allocs.kzalloc (Wire.unpackCmdSubmit (pipeFields pipe) spdu) s

/-- What is behind `stub_recv_cmd_submit`: which URBs the filters keep, and which the USB core
takes. -/
structure Env where
  usbipFilterOnRx : Wire.Urb → Bool
  usbSubmitUrb : Wire.Urb → Bool

/-- What becomes of a CMD_SUBMIT: the URB that the filters get, the one that `usb_submit_urb`
gets, the events, and the bytes that were received. -/
structure Submitted where
  filtered : Option Wire.Urb
  submitted : Option Wire.Urb
  events : List Event.EhEvent
  payload : ℕ
  descs : ℕ

/-- `stub_recv_cmd_submit` -/
def stubRecvCmdSubmit (env : Env) (sdev : Sdev) (allocs : Allocs) (base : Wire.UsbipHeaderBasic)
    (spdu : Wire.UsbipHeaderCmdSubmit) (s : List Outcome) : Submitted :=
  let build := stubBuildUrb sdev allocs base spdu s
  match build.urb with
  | none => ⟨none, none, build.events, build.payload, build.descs⟩
  | some urb =>
    if env.usbipFilterOnRx urb then ⟨some urb, none, build.events, build.payload, build.descs⟩
    else
      ⟨some urb, some urb,
        build.events ++ if env.usbSubmitUrb urb then [] else [.errorSubmit], build.payload,
        build.descs⟩

/-! ### What is asked of it -/

/-- The bytes of the payload of a URB. -/
def payloadBytes (urb : Wire.Urb) : ℕ := (Wire.xbuffSize .stub urb).toNat

/-- The bytes of its packet descriptors. -/
def descBytes (urb : Wire.Urb) : ℕ := if urb.isoc then 16 * urb.packets else 0

/-- `stub_build_urb` comes to the point where it reads. -/
def Reads (sdev : Sdev) (allocs : Allocs) (base : Wire.UsbipHeaderBasic)
    (spdu : Wire.UsbipHeaderCmdSubmit) : Prop :=
  (sdev.endpoint base.ep base.direction).isSome ∧ allocs.Complete spdu

/-- A URB is handed on when all that belongs to it has been received. A request whose URB is not
handed on, although it has been read for, ends the connection. -/
structure AllOrNothing (reads : Prop) (r : Submitted) : Prop where
  received : ∀ urb, urb ∈ r.filtered ∨ urb ∈ r.submitted →
    r.payload = payloadBytes urb ∧ r.descs = descBytes urb
  event : reads → r.filtered = none → r.submitted = none ∧ .errorTcp ∈ r.events

/-- The connection is not closed within a payload after which there is nothing to read, and what
`usbip_recv_iso` computes from the number of packets can be allocated and is no less than the
descriptors need. -/
structure Intact (kzalloc : Wire.Allocator) (urb : Wire.Urb) (s : List Outcome) : Prop where
  closed : (ready s).length < payloadBytes urb → verdict s = 0 →
    urb.isoc = true ∧ urb.numberOfPackets ≠ 0
  memory : payloadBytes urb ≤ (ready s).length → urb.isoc = true → urb.numberOfPackets ≠ 0 →
    kzalloc.ok ((urb.numberOfPackets * 16).signExtend 64).toNat = true
  count : payloadBytes urb ≤ (ready s).length → urb.isoc = true → urb.numberOfPackets ≠ 0 →
    Wire.DescsArrive kzalloc urb.numberOfPackets ((ready s).drop (payloadBytes urb)) →
      Wire.AddUp (Wire.descs urb.numberOfPackets ((ready s).drop (payloadBytes urb)))
        urb.actualLength →
        (urb.numberOfPackets * 16).toNat = 16 * urb.packets

/-! ### Reading -/

/-- What `AllOrNothing` says about `stub_build_urb`. -/
def Build.Whole (b : Build) : Prop :=
  (∀ urb, b.urb = some urb → b.payload = payloadBytes urb ∧ b.descs = descBytes urb) ∧
    (b.urb = none → .errorTcp ∈ b.events)

variable {kzalloc : Wire.Allocator} {urb : Wire.Urb} {s : List Outcome}

/-- What the reading of the payload keeps of a URB. -/
structure SameRequest (urb filled : Wire.Urb) : Prop where
  isoc : filled.isoc = urb.isoc
  numberOfPackets : filled.numberOfPackets = urb.numberOfPackets
  actualLength : filled.actualLength = urb.actualLength
  payloadBytes : payloadBytes filled = Submit.payloadBytes urb

theorem SameRequest.descBytes {filled : Wire.Urb} (h : SameRequest urb filled) :
    descBytes filled = Submit.descBytes urb := by
  rw [Submit.descBytes, Submit.descBytes, h.isoc, Wire.Urb.packets, Wire.Urb.packets,
    h.numberOfPackets]

/-- A payload that arrives, or is not there, leaves the socket behind it. -/
theorem xbuff_of_le (h : payloadBytes urb ≤ (ready s).length) :
    ∃ filled bytes rest, SameRequest urb filled ∧
      Wire.Sock.usbipRecvXbuff .stub true urb s = ⟨payloadBytes urb, [], filled, bytes, rest⟩ ∧
        bytes.length = payloadBytes urb ∧ ready rest = (ready s).drop (payloadBytes urb) := by
  obtain ⟨mem, bytes, rest, heq, hbytes, hrest⟩ :=
    @Wire.Sock.usbipRecvXbuff_whole s .stub urb true fun _ => ⟨rfl, h⟩
  exact ⟨{ urb with transferBuffer := mem }, bytes, rest, ⟨rfl, rfl, rfl, rfl⟩, heq, hbytes,
    hrest⟩

/-- A payload that is cut off. -/
theorem xbuff_of_lt (h : (ready s).length < payloadBytes urb) :
    ∃ filled, SameRequest urb filled ∧ Wire.Sock.usbipRecvXbuff .stub true urb s =
      ⟨verdict s, [.errorTcp], filled, ready s, afterVerdict s⟩ := by
  refine ⟨_, ?_, Wire.Sock.usbipRecvXbuff_of_lt h⟩
  exact ⟨rfl, rfl, rfl, rfl⟩

/-- A URB without descriptors needs none. -/
theorem descBytes_of_none (h : urb.isoc = true → urb.numberOfPackets = 0) : descBytes urb = 0 := by
  rw [descBytes]
  split
  next hisoc =>
    rw [Wire.Urb.packets, h hisoc]
    rfl
  · rfl

/-- The descriptors, after all of the payload. -/
theorem readIso_whole_iff (hle : payloadBytes urb ≤ (ready s).length) {filled : Wire.Urb}
    {rest : List Outcome} (hsame : SameRequest urb filled)
    (hrest : ready rest = (ready s).drop (payloadBytes urb)) :
    (let iso := Wire.Sock.usbipRecvIso kzalloc filled rest;
      Build.Whole ⟨if iso.ret < 0 then none else some iso.urb, iso.events, payloadBytes urb,
        iso.bytes.length⟩) ↔ Intact kzalloc urb s := by
  have hclosed : (ready s).length < payloadBytes urb → verdict s = 0 →
      urb.isoc = true ∧ urb.numberOfPackets ≠ 0 := fun hlt => absurd hlt (not_lt.mpr hle)
  have hiso := Wire.Sock.isoRead kzalloc filled rest
  dsimp only
  generalize Wire.Sock.usbipRecvIso kzalloc filled rest = iso at hiso ⊢
  cases hiso with
  | none h =>
    rw [hsame.isoc, hsame.numberOfPackets] at h
    refine iff_of_true ⟨fun u hu => ?_, fun hu => by simp at hu⟩
      ⟨hclosed, fun _ hisoc hnp => absurd (h hisoc) hnp, fun _ hisoc hnp => absurd (h hisoc) hnp⟩
    obtain rfl := Option.some.inj hu
    exact ⟨hsame.payloadBytes.symm, (hsame.descBytes.trans (descBytes_of_none h)).symm⟩
  | noMemory hisoc hnp h =>
    rw [hsame.numberOfPackets] at hnp h
    refine iff_of_false (fun hwhole => ?_) fun hintact => ?_
    · -- `-ENOMEM` comes without an event
      have := hwhole.2 rfl
      simp at this
    · have := hintact.memory hle (hsame.isoc ▸ hisoc) hnp
      rw [h] at this
      cases this
  | stored hisoc hnp harrive hsum hlen hrest' =>
    rw [hsame.isoc] at hisoc
    rw [hsame.numberOfPackets] at hnp hlen
    rw [hsame.numberOfPackets, hrest] at harrive hsum
    rw [hsame.actualLength] at hsum
    -- the size was computed in 32 bits
    have hdesc : descBytes filled = 16 * urb.packets := hsame.descBytes.trans (if_pos hisoc)
    dsimp only
    rw [if_neg (by omega), hlen]
    constructor
    · intro hwhole
      have hread : (urb.numberOfPackets * 16).toNat = descBytes filled := (hwhole.1 _ rfl).2
      exact ⟨hclosed, fun _ _ _ => harrive.1, fun _ _ _ _ _ => hread.trans hdesc⟩
    · intro hintact
      refine ⟨fun u hu => ?_, fun hu => by simp at hu⟩
      obtain rfl := Option.some.inj hu
      have hread := hintact.count hle hisoc hnp harrive hsum
      exact ⟨hsame.payloadBytes.symm, hread.trans hdesc.symm⟩
  | failed hisoc hnp halloc h =>
    rw [hsame.numberOfPackets] at halloc
    rw [hsame.numberOfPackets, hrest, hsame.actualLength] at h
    exact iff_of_true ⟨fun u hu => by simp [Wire.Sock.epipe] at hu, fun _ => by simp⟩
      ⟨hclosed, fun _ _ _ => halloc, fun _ _ _ harrive hsum => absurd ⟨harrive, hsum⟩ h⟩

/-- The descriptors, after a payload that is cut off by an orderly close. -/
theorem readIso_of_closed {filled : Wire.Urb} (hisoc : filled.isoc = true)
    (hnp : filled.numberOfPackets ≠ 0) : (Wire.Sock.usbipRecvIso kzalloc filled []).ret < 0 := by
  have hiso := Wire.Sock.isoRead kzalloc filled []
  generalize Wire.Sock.usbipRecvIso kzalloc filled [] = iso at hiso ⊢
  cases hiso with
  | none h => exact absurd (h hisoc) hnp
  | noMemory => exact (by decide : Wire.Sock.enomem < 0)
  | stored _ _ harrive =>
    have hzero : (filled.numberOfPackets * 16).toNat = 0 := Nat.le_zero.mp harrive.2.2
    exact absurd (BitVec.eq_of_toNat_eq hzero) harrive.2.1
  | failed => exact (by decide : Wire.Sock.epipe < 0)

/-- **Reading is all or nothing when the connection stays intact.** -/
theorem readUrb_whole_iff : (readUrb kzalloc urb s).Whole ↔ Intact kzalloc urb s := by
  obtain hlt | hle := Nat.lt_or_ge (ready s).length (payloadBytes urb)
  swap
  · obtain ⟨filled, bytes, rest, hsame, heq, hbytes, hrest⟩ := @xbuff_of_le urb s hle
    rw [readUrb, heq]
    dsimp only
    rw [if_neg (by omega), List.nil_append, hbytes]
    exact readIso_whole_iff hle hsame hrest
  obtain ⟨filled, hsame, heq⟩ := xbuff_of_lt hlt
  have hmemory : payloadBytes urb ≤ (ready s).length → urb.isoc = true →
      urb.numberOfPackets ≠ 0 →
        kzalloc.ok ((urb.numberOfPackets * 16).signExtend 64).toNat = true :=
    fun hle => absurd hle (not_le.mpr hlt)
  rw [readUrb, heq]
  dsimp only
  split
  next hneg =>
    -- an error code
    refine iff_of_true ⟨fun u hu => by simp at hu, fun _ => by simp⟩
      ⟨fun _ hzero => ?_, hmemory, fun hle => absurd hle (not_le.mpr hlt)⟩
    omega
  next hzero =>
    have hzero : verdict s = 0 := le_antisymm (verdict_nonpos s) (not_lt.mp hzero)
    rw [afterVerdict_of_closed hzero]
    by_cases hnone : urb.isoc = true → urb.numberOfPackets = 0
    · -- the close goes unnoticed
      have hskip : Wire.Sock.usbipRecvIso kzalloc filled [] = ⟨0, [], filled, [], []⟩ :=
        Wire.Sock.usbipRecvIso_of_none (by rwa [hsame.isoc, hsame.numberOfPackets])
      rw [hskip]
      refine iff_of_false (fun hwhole => ?_) fun hintact => ?_
      · have hread : (ready s).length = payloadBytes filled := (hwhole.1 _ rfl).1
        rw [hsame.payloadBytes] at hread
        omega
      · obtain ⟨hisoc, hne⟩ := hintact.closed hlt hzero
        exact hne (hnone hisoc)
    · obtain ⟨hisoc, hne⟩ := Classical.not_imp.mp hnone
      have hneg := @readIso_of_closed kzalloc filled (hsame.isoc.trans hisoc)
        (by rwa [hsame.numberOfPackets])
      rw [if_pos hneg]
      exact iff_of_true ⟨fun u hu => by simp at hu, fun _ => by simp⟩
        ⟨fun _ _ => ⟨hisoc, hne⟩, hmemory, fun hle => absurd hle (not_le.mpr hlt)⟩

/-! ### The whole function -/

section

variable {env : Env} {sdev : Sdev} {allocs : Allocs} {base : Wire.UsbipHeaderBasic}
  {spdu : Wire.UsbipHeaderCmdSubmit} {type : Wire.XferType}

/-- With its allocations made, `stub_build_urb` reads. -/
theorem stubBuildUrb_of_complete (htype : sdev.endpoint base.ep base.direction = some type)
    (hc : allocs.Complete spdu) : stubBuildUrb sdev allocs base spdu s =
      readUrb allocs.kzalloc (submitUrb sdev type base spdu) s := by
  have hbuffer : ¬ (0 < spdu.transferBufferLength.toInt ∧
      (!allocs.kzalloc.ok spdu.transferBufferLength.toNat) = true) := by
    rintro ⟨hpos, hfail⟩
    simp [hc.buffer hpos] at hfail
  rw [stubBuildUrb, (getPipe_of_endpoint htype).2]
  dsimp only
  rw [if_neg (by simp [hc.priv]), if_neg (by simp [hc.urb]), if_neg hbuffer,
    if_neg (by simp [hc.setup])]
  rfl

/-- Otherwise there is no URB. -/
theorem stubBuildUrb_of_not_reads (h : ¬ Reads sdev allocs base spdu) :
    (stubBuildUrb sdev allocs base spdu s).urb = none := by
  rw [stubBuildUrb]
  split
  · rfl
  · rfl
  next pipe hpipe =>
  split
  · rfl
  next hpriv =>
  split
  · rfl
  next hurb =>
  split
  · rfl
  next hbuffer =>
  split
  · rfl
  next hsetup =>
    refine absurd ⟨isSome_endpoint_iff.mpr ?_, ?_⟩ h
    · refine ⟨?_, by simp [hpipe]⟩
      by_contra hge
      rw [Sdev.getPipe, if_pos (not_lt.mp hge)] at hpipe
      cases hpipe
    · refine ⟨by simpa using hpriv, by simpa using hurb, fun hpos => ?_, by simpa using hsetup⟩
      by_contra hfail
      exact hbuffer ⟨hpos, by simpa using hfail⟩

/-- What the filters and the device get is what was built. -/
theorem allOrNothing_iff {reads : Prop} :
    AllOrNothing reads (stubRecvCmdSubmit env sdev allocs base spdu s) ↔
      (∀ urb, (stubBuildUrb sdev allocs base spdu s).urb = some urb →
        (stubBuildUrb sdev allocs base spdu s).payload = payloadBytes urb ∧
          (stubBuildUrb sdev allocs base spdu s).descs = descBytes urb) ∧
        (reads → (stubBuildUrb sdev allocs base spdu s).urb = none →
          .errorTcp ∈ (stubBuildUrb sdev allocs base spdu s).events) := by
  rw [stubRecvCmdSubmit]
  generalize stubBuildUrb sdev allocs base spdu s = build
  split
  next hnone =>
    constructor
    · intro h
      exact ⟨fun urb hurb => by simp [hnone] at hurb, fun hreads _ => (h.event hreads rfl).2⟩
    · intro h
      exact ⟨fun urb hurb => by simp at hurb, fun hreads _ => ⟨rfl, h.2 hreads hnone⟩⟩
  next u hu =>
    split
    · constructor
      · intro h
        refine ⟨fun urb hurb => h.received urb (.inl ?_), fun _ hnone => by simp [hu] at hnone⟩
        rwa [← hu]
      · intro h
        refine ⟨fun urb hurb => h.1 urb ?_, fun _ hnone => by simp at hnone⟩
        obtain hurb | hurb := hurb
        · rwa [hu]
        · cases hurb
    · constructor
      · intro h
        refine ⟨fun urb hurb => h.received urb (.inl ?_), fun _ hnone => by simp [hu] at hnone⟩
        rwa [← hu]
      · intro h
        refine ⟨fun urb hurb => h.1 urb ?_, fun _ hnone => by simp at hnone⟩
        obtain hurb | hurb := hurb
        · rwa [hu]
        · rwa [hu]

end

/-- **A CMD_SUBMIT is handed on whole, or ends the connection, exactly when its reading is not cut
short unnoticed.** -/
theorem stubRecvCmdSubmit_allOrNothing_iff (env : Env) (sdev : Sdev) (allocs : Allocs)
    (base : Wire.UsbipHeaderBasic) (spdu : Wire.UsbipHeaderCmdSubmit) (s : List Outcome) :
    AllOrNothing (Reads sdev allocs base spdu)
        (stubRecvCmdSubmit env sdev allocs base spdu s) ↔
      ∀ type, sdev.endpoint base.ep base.direction = some type → allocs.Complete spdu →
        Intact allocs.kzalloc (submitUrb sdev type base spdu) s := by
  rw [allOrNothing_iff]
  by_cases hreads : Reads sdev allocs base spdu
  · obtain ⟨type, htype⟩ := Option.isSome_iff_exists.mp hreads.1
    rw [stubBuildUrb_of_complete htype hreads.2]
    constructor
    · rintro ⟨hurb, hevent⟩ type' htype' -
      rw [htype] at htype'
      obtain rfl := Option.some.inj htype'
      exact readUrb_whole_iff.mp ⟨hurb, hevent hreads⟩
    · intro hintact
      obtain ⟨hurb, hevent⟩ := readUrb_whole_iff.mpr (hintact type htype hreads.2)
      exact ⟨hurb, fun _ => hevent⟩
  · have hnone := @stubBuildUrb_of_not_reads s sdev allocs base spdu hreads
    refine iff_of_true ⟨fun urb hurb => by simp [hnone] at hurb, fun h => absurd h hreads⟩ ?_
    intro type htype hc
    exact absurd ⟨by simp [htype], hc⟩ hreads

/-- Every allocation of less than a page succeeds. -/
def pages : Allocs where
  priv := true
  urb := true
  setup := true
  kzalloc :=
    { ok := fun n => decide (n < 4096)
      bounded := fun n hn => (of_decide_eq_true hn).trans (by decide) }

/-- The header of an OUT transfer of four bytes for endpoint 0. -/
def fourBytesOut : Wire.UsbipHeaderBasic × Wire.UsbipHeaderCmdSubmit :=
  (⟨Wire.usbipCmdSubmit, 1, 1, Wire.usbipDirOut, 0⟩, ⟨0, 4, 0, 0, 0, fun _ => 0⟩)

/-- Two bytes of four arrive before the client closes the connection, and the URB is submitted. -/
theorem stubRecvCmdSubmit_closed :
    ¬ ∀ (env : Env) (sdev : Sdev) (allocs : Allocs) (base : Wire.UsbipHeaderBasic)
      (spdu : Wire.UsbipHeaderCmdSubmit) (s : List Outcome),
      AllOrNothing (Reads sdev allocs base spdu)
        (stubRecvCmdSubmit env sdev allocs base spdu s) := by
  intro h
  obtain ⟨hpayload, -⟩ := (h ⟨fun _ => false, fun _ => true⟩ controlOnly pages fourBytesOut.1
    fourBytesOut.2 [.chunk 1 [2]]).received _ (.inr rfl)
  have hshort : 2 = 4 := hpayload
  exact absurd hshort (by decide)

end Usbip.Stub.Submit
