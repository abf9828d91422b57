import Usbip.Vhci.Bounds
import Usbip.Wire.Recv

/-!
# Timeouts and the framing of replies

`vhci_rx_pdu` reads a header with `usbip_recv`, and then what belongs to it. The receive timeout of
the socket makes `usbip_recv` return `-EAGAIN`, at any byte; `vhci_rx_pdu` takes this for an idle
connection when no URB is pending and returns without an event. The bytes that `usbip_recv` had read
by then are lost with its running total. A server that is slow to send the reply to a CMD_UNLINK,
whose URB has been given back already, loses the framing so.

`usbip_recv_iso` also returns without an event when it has no memory, with the descriptors still to
come. `vhciRxLoop_whole_iff` says that every call without an event otherwise takes no bytes or one
PDU.
-/

namespace Usbip.Vhci.Idle

open Socket

/-- `-EAGAIN` -/
def eagain : ℤ := -11

/-- What a call of `vhci_rx_pdu` consults besides the socket: the URBs of `priv_rx`, which of them
have a transfer buffer, and the results of the allocations. -/
structure Env extends Wire.VhciEnv where
  buffer : BitVec 32 → Bool

/-- What a call leaves: the events that it has raised, the bytes that it has taken from the stream,
and what the socket does next. -/
structure Rx where
  events : List Event.EhEvent
  taken : List Byte
  rest : List Outcome

/-- `vhci_recv_ret_submit`, as far as it reads. -/
def vhciRecvRetSubmit (env : Env) (pdu : Wire.UsbipHeader) (rpdu : Wire.UsbipHeaderRetSubmit)
    (s : List Outcome) : Rx :=
  match env.pending pdu.base.seqnum with
  | none => ⟨[.errorTcp], [], s⟩
  | some urb =>
    let xbuff := Wire.Sock.usbipRecvXbuff .vhci (env.buffer pdu.base.seqnum)
      (Wire.unpackRetSubmit rpdu urb) s
    if xbuff.ret < 0 then ⟨xbuff.events, xbuff.bytes, xbuff.rest⟩
    else
      let iso := Wire.Sock.usbipRecvIso env.kzalloc xbuff.urb xbuff.rest
      ⟨xbuff.events ++ iso.events, xbuff.bytes ++ iso.bytes, iso.rest⟩

/-- `vhci_rx_pdu` -/
def vhciRxPdu (env : Env) (s : List Outcome) : Rx :=
  let r := Wire.Sock.usbipRecv true Wire.UsbipHeader.size s
  if r.ret < 0 then
    if r.ret = eagain ∧ env.privRx.isEmpty then ⟨[], r.bytes, r.rest⟩
    else ⟨[.errorTcp], r.bytes, r.rest⟩
  else if r.ret = 0 then ⟨[.down], r.bytes, r.rest⟩
  else if r.ret ≠ Wire.UsbipHeader.size then ⟨[.errorTcp], r.bytes, r.rest⟩
  else
    match Wire.UsbipHeader.decode r.bytes with
    | none => ⟨[.errorTcp], r.bytes, r.rest⟩
    | some pdu =>
      match pdu.u with
      | .retSubmit rpdu =>
        let ret := vhciRecvRetSubmit env pdu rpdu r.rest
        { ret with taken := r.bytes ++ ret.taken }
      | .retUnlink _ => ⟨[], r.bytes, r.rest⟩
      | _ => ⟨[.errorTcp], r.bytes, r.rest⟩

/-- `vhci_rx_loop` up to the first event: for each call its environment and the bytes that it has
taken. -/
def vhciRxLoop : List Env → List Outcome → List (Env × List Byte)
  | [], _ => []
  | env :: envs, s =>
    let r := vhciRxPdu env s
    if r.events = [] then (env, r.taken) :: vhciRxLoop envs r.rest else []

/-! ### What is asked of it -/

/-- The length of the PDU that starts with a header. -/
def pduLength (env : Env) (pdu : Wire.UsbipHeader) : ℕ :=
  Wire.UsbipHeader.size +
    match pdu.u, env.pending pdu.base.seqnum with
    | .retSubmit rpdu, some urb =>
      payloadLength urb rpdu + if urb.isoc then 16 * rpdu.numberOfPackets.toInt.toNat else 0
    | _, _ => 0

/-- No byte at all, or one PDU. -/
def Whole (env : Env) (taken : List Byte) : Prop :=
  taken = [] ∨ ∃ pdu, Wire.UsbipHeader.decode (taken.take Wire.UsbipHeader.size) = some pdu ∧
    taken.length = pduLength env pdu

/-- The conditions on the number of packets of a reply whose payload has arrived: there is memory
for the descriptors, and `number_of_packets * 16` is not cut down to an `int`. -/
structure Counted (kzalloc : Wire.Allocator) (buffer : Bool) (urb : Wire.Urb)
    (rpdu : Wire.UsbipHeaderRetSubmit) (stream : List Byte) : Prop where
  memory : (0 < payloadLength urb rpdu → buffer = true ∧ payloadLength urb rpdu ≤ stream.length) →
    urb.isoc = true → 0 < rpdu.numberOfPackets.toInt →
      kzalloc.ok ((rpdu.numberOfPackets * 16).signExtend 64).toNat = true
  count : DescsReached kzalloc buffer urb rpdu stream →
    Wire.AddUp (recvDescs urb rpdu stream) rpdu.actualLength →
      (rpdu.numberOfPackets * 16).toNat = 16 * rpdu.numberOfPackets.toInt.toNat

/-- The conditions on one call. -/
structure InStep (env : Env) (s : List Outcome) : Prop where
  /-- When no URB is pending, the socket does not time out within a header. -/
  idle : env.privRx = [] → (ready s).length < Wire.UsbipHeader.size → verdict s = eagain →
    ready s = []
  descs : Wire.UsbipHeader.size ≤ (ready s).length →
    ∀ pdu rpdu urb, Wire.UsbipHeader.decode ((ready s).take Wire.UsbipHeader.size) = some pdu →
      pdu.u = .retSubmit rpdu → env.pending pdu.base.seqnum = some urb →
        Counted env.kzalloc (env.buffer pdu.base.seqnum) urb rpdu
          ((ready s).drop Wire.UsbipHeader.size)

/-- The conditions on each call of a run. -/
def RunInStep : List Env → List Outcome → Prop
  | [], _ => True
  | env :: envs, s =>
    InStep env s ∧ ((vhciRxPdu env s).events = [] → RunInStep envs (vhciRxPdu env s).rest)

/-! ### One call -/

variable {env : Env} {s : List Outcome} {pdu : Wire.UsbipHeader}
  {rpdu : Wire.UsbipHeaderRetSubmit} {urb : Wire.Urb}

/-- The payload arrives, or there is none. -/
theorem xbuff_of_payload {buffer : Bool} (h : 0 < payloadLength urb rpdu →
      buffer = true ∧ payloadLength urb rpdu ≤ (ready s).length) :
    ∃ buf bytes rest, Wire.Sock.usbipRecvXbuff .vhci buffer (Wire.unpackRetSubmit rpdu urb) s =
        ⟨payloadLength urb rpdu, [], payloadStored urb rpdu buf, bytes, rest⟩ ∧
      bytes.length = payloadLength urb rpdu ∧
        ready rest = (ready s).drop (payloadLength urb rpdu) := by
  have hsize : (Wire.xbuffSize .vhci (Wire.unpackRetSubmit rpdu urb)).toNat =
      payloadLength urb rpdu := xbuffSize_unpack
  rw [← hsize] at h ⊢
  exact Wire.Sock.usbipRecvXbuff_whole h

/-- The payload does not arrive, which is noticed. -/
theorem xbuff_of_not_payload {buffer : Bool} (h : ¬ (0 < payloadLength urb rpdu →
      buffer = true ∧ payloadLength urb rpdu ≤ (ready s).length)) :
    ∃ urb' bytes rest, Wire.Sock.usbipRecvXbuff .vhci buffer (Wire.unpackRetSubmit rpdu urb) s =
      ⟨Wire.Sock.epipe, [.errorTcp], urb', bytes, rest⟩ := by
  have hsize : (Wire.xbuffSize .vhci (Wire.unpackRetSubmit rpdu urb)).toNat =
      payloadLength urb rpdu := xbuffSize_unpack
  obtain ⟨hpos, hnot⟩ := Classical.not_imp.mp h
  cases buffer with
  | false =>
    rw [Wire.Sock.usbipRecvXbuff]
    dsimp only
    rw [if_neg (by omega), if_pos]
    · exact ⟨_, _, _, rfl⟩
    · have hret : (Wire.Sock.usbipRecv false
          (Wire.xbuffSize .vhci (Wire.unpackRetSubmit rpdu urb)).toNat s).ret =
            Wire.Sock.einval := rfl
      have hneg : Wire.Sock.einval < 0 := by decide
      rw [hret]
      omega
  | true =>
    have hlt : (ready s).length < payloadLength urb rpdu := by
      by_contra hle
      exact hnot ⟨rfl, not_lt.mp hle⟩
    rw [← hsize] at hlt
    rw [Wire.Sock.usbipRecvXbuff_of_lt hlt]
    exact ⟨_, _, _, rfl⟩

/-- A reply to a pending URB is taken whole when its packets are counted right. -/
theorem recvRet_whole_iff (hurb : env.pending pdu.base.seqnum = some urb) :
    ((vhciRecvRetSubmit env pdu rpdu s).events = [] →
      (vhciRecvRetSubmit env pdu rpdu s).taken.length = payloadLength urb rpdu +
        if urb.isoc then 16 * rpdu.numberOfPackets.toInt.toNat else 0) ↔
      Counted env.kzalloc (env.buffer pdu.base.seqnum) urb rpdu (ready s) := by
  rw [vhciRecvRetSubmit, hurb]
  dsimp only
  by_cases hpayload : 0 < payloadLength urb rpdu →
      env.buffer pdu.base.seqnum = true ∧ payloadLength urb rpdu ≤ (ready s).length
  swap
  · -- `usbip_recv_xbuff` has raised an event
    obtain ⟨urb', bytes, rest, heq⟩ := xbuff_of_not_payload hpayload
    rw [heq, if_pos (by decide : Wire.Sock.epipe < 0)]
    exact iff_of_true (fun h => by simp at h)
      ⟨fun h => absurd h hpayload, fun h => absurd h.payload hpayload⟩
  obtain ⟨buf, bytes, rest, heq, hbytes, hrest⟩ := xbuff_of_payload hpayload
  have hiso := Wire.Sock.isoRead env.kzalloc (payloadStored urb rpdu buf) rest
  rw [heq]
  dsimp only
  rw [if_neg (by omega), List.nil_append, List.length_append, hbytes, Nat.add_left_cancel_iff]
  generalize Wire.Sock.usbipRecvIso env.kzalloc (payloadStored urb rpdu buf) rest = iso at hiso ⊢
  -- the ways in which `usbip_recv_iso` ends, behind the payload
  cases hiso with
  | none h =>
    have h : urb.isoc = true → rpdu.numberOfPackets = 0 := h
    refine iff_of_true (fun _ => ?_) ⟨fun _ hisoc hpos => ?_, fun hreached _ => ?_⟩
    · split
      next hisoc =>
        rw [h hisoc]
        rfl
      · rfl
    · rw [h hisoc] at hpos
      exact absurd hpos (by decide)
    · rw [h hreached.isoc]
      rfl
  | noMemory hisoc hnp h =>
    have hisoc : urb.isoc = true := hisoc
    have h : env.kzalloc.ok ((rpdu.numberOfPackets * 16).signExtend 64).toNat = false := h
    rw [if_pos hisoc]
    constructor
    · intro hzero
      -- nothing is read and no event raised, so the reply has to have no descriptors
      have hzero : 0 = 16 * rpdu.numberOfPackets.toInt.toNat := hzero rfl
      refine ⟨fun _ _ hpos => by omega, fun hreached _ => ?_⟩
      have := hreached.arrive.1
      rw [h] at this
      cases this
    · intro hcounted _
      change 0 = _
      by_contra hne
      have := hcounted.memory hpayload hisoc (by omega)
      rw [h] at this
      cases this
  | stored hisoc hnp harrive hsum hlen hrest' =>
    have hisoc : urb.isoc = true := hisoc
    have hlen : _ = (rpdu.numberOfPackets * 16).toNat := hlen
    -- the size was computed in 32 bits, and that many bytes have been read
    have hreached : DescsReached env.kzalloc (env.buffer pdu.base.seqnum) urb rpdu (ready s) :=
      ⟨hpayload, hisoc, hrest ▸ harrive⟩
    rw [if_pos hisoc, hlen]
    constructor
    · intro hread
      exact ⟨fun _ _ _ => harrive.1, fun _ _ => hread rfl⟩
    · intro hcounted _
      refine hcounted.count hreached ?_
      rw [recvDescs, ← hrest]
      exact hsum
  | failed hisoc hnp halloc h =>
    refine iff_of_true (fun h => by simp at h) ⟨fun _ _ _ => halloc, fun hreached hsum => ?_⟩
    rw [hrest] at h
    exact absurd ⟨hreached.arrive, hsum⟩ h

/-- Bytes that begin with a header are one PDU when they have its length. -/
theorem whole_append_iff {header bytes : List Byte} (hlen : header.length = Wire.UsbipHeader.size)
    (hpdu : Wire.UsbipHeader.decode header = some pdu) :
    Whole env (header ++ bytes) ↔
      Wire.UsbipHeader.size + bytes.length = pduLength env pdu := by
  have htake : (header ++ bytes).take Wire.UsbipHeader.size = header := List.take_left' hlen
  rw [Whole, htake, List.length_append, hlen]
  constructor
  · rintro (hnil | ⟨pdu', hpdu', hlength⟩)
    · have hzero := congrArg List.length hnil
      rw [List.length_append, hlen] at hzero
      exact absurd hzero (by simp [Wire.UsbipHeader.size])
    · rw [hpdu] at hpdu'
      obtain rfl := Option.some.inj hpdu'
      exact hlength
  · exact fun hlength => .inr ⟨pdu, hpdu, hlength⟩

/-- Less than a header is whole when it is nothing. -/
theorem whole_short_iff {bytes : List Byte} (hlen : bytes.length < Wire.UsbipHeader.size) :
    Whole env bytes ↔ bytes = [] := by
  refine ⟨fun h => h.resolve_right ?_, .inl⟩
  rintro ⟨pdu, -, hlength⟩
  rw [pduLength] at hlength
  omega

/-- A timeout within a header is the only way to lose part of it unnoticed. -/
theorem vhciRxPdu_whole_iff_of_lt (hlt : (ready s).length < Wire.UsbipHeader.size) :
    ((vhciRxPdu env s).events = [] → Whole env (vhciRxPdu env s).taken) ↔ InStep env s := by
  have hdescs : Wire.UsbipHeader.size ≤ (ready s).length →
      ∀ pdu rpdu urb, Wire.UsbipHeader.decode ((ready s).take Wire.UsbipHeader.size) = some pdu →
        pdu.u = .retSubmit rpdu → env.pending pdu.base.seqnum = some urb →
          Counted env.kzalloc (env.buffer pdu.base.seqnum) urb rpdu
            ((ready s).drop Wire.UsbipHeader.size) := fun hle => absurd hle (not_le.mpr hlt)
  have hverdict := verdict_nonpos s
  rw [vhciRxPdu, Wire.Sock.usbipRecv_of_lt hlt]
  dsimp only
  split
  next hneg =>
    split
    next hidle =>
      -- `-EAGAIN` with no URB pending: nothing is noticed
      have hempty : env.privRx = [] := List.isEmpty_iff.mp hidle.2
      rw [whole_short_iff hlt]
      exact ⟨fun h => ⟨fun _ _ _ => h rfl, hdescs⟩, fun h _ => h.idle hempty hlt hidle.1⟩
    next hidle =>
      refine iff_of_true (fun h => by simp at h) ⟨fun hempty _ heagain => ?_, hdescs⟩
      exact absurd ⟨heagain, by simp [hempty]⟩ hidle
  next hneg =>
    have hzero : verdict s = 0 := by omega
    rw [if_pos hzero]
    refine iff_of_true (fun h => by simp at h) ⟨fun _ _ heagain => ?_, hdescs⟩
    rw [hzero] at heagain
    exact absurd heagain (by decide)

/-- **A call of `vhci_rx_pdu` keeps to the PDUs exactly under the conditions of `InStep`.** -/
theorem vhciRxPdu_whole_iff :
    ((vhciRxPdu env s).events = [] → Whole env (vhciRxPdu env s).taken) ↔ InStep env s := by
  obtain hlt | hle := Nat.lt_or_ge (ready s).length Wire.UsbipHeader.size
  · exact vhciRxPdu_whole_iff_of_lt hlt
  obtain ⟨rest, heq, hrest⟩ := Wire.Sock.usbipRecv_of_le (by decide) hle
  have hlen : ((ready s).take Wire.UsbipHeader.size).length = Wire.UsbipHeader.size :=
    List.length_take_of_le hle
  have hidle : env.privRx = [] → (ready s).length < Wire.UsbipHeader.size → verdict s = eagain →
      ready s = [] := fun _ hlt => absurd hle (not_le.mpr hlt)
  have hsize : ((Wire.UsbipHeader.size : ℕ) : ℤ) = 48 := rfl
  rw [vhciRxPdu, heq]
  dsimp only
  rw [if_neg (by omega), if_neg (by omega), if_neg (not_not.mpr rfl)]
  cases hpdu : Wire.UsbipHeader.decode ((ready s).take Wire.UsbipHeader.size) with
  | none =>
    refine iff_of_true (fun h => by simp at h) ⟨hidle, fun _ pdu rpdu urb h => ?_⟩
    rw [hpdu] at h
    cases h
  | some pdu =>
    have hother : (∀ rpdu, pdu.u ≠ .retSubmit rpdu) → InStep env s := by
      intro hne
      refine ⟨hidle, fun _ pdu' rpdu urb hpdu' hu => ?_⟩
      rw [hpdu] at hpdu'
      obtain rfl := Option.some.inj hpdu'
      exact absurd hu (hne rpdu)
    dsimp only
    split
    next rpdu hu =>
      dsimp only
      cases hurb : env.pending pdu.base.seqnum with
      | none =>
        rw [vhciRecvRetSubmit, hurb]
        refine iff_of_true (fun h => by simp at h) ⟨hidle, fun _ pdu' rpdu urb hpdu' _ h => ?_⟩
        rw [hpdu] at hpdu'
        obtain rfl := Option.some.inj hpdu'
        rw [hurb] at h
        cases h
      | some urb =>
        have hret := @recvRet_whole_iff env rest pdu rpdu urb hurb
        have hlength : pduLength env pdu = Wire.UsbipHeader.size +
            (payloadLength urb rpdu +
              if urb.isoc then 16 * rpdu.numberOfPackets.toInt.toNat else 0) := by
          rw [pduLength, hu, hurb]
        rw [whole_append_iff hlen hpdu, hlength, Nat.add_left_cancel_iff, hret, hrest.ready]
        constructor
        · intro hcounted
          refine ⟨hidle, fun _ pdu' rpdu' urb' hpdu' hu' hurb' => ?_⟩
          rw [hpdu] at hpdu'
          obtain rfl := Option.some.inj hpdu'
          rw [hu] at hu'
          obtain rfl := Wire.UsbipHeaderU.retSubmit.inj hu'
          rw [hurb] at hurb'
          obtain rfl := Option.some.inj hurb'
          exact hcounted
        · exact fun h => h.descs hle pdu rpdu urb hpdu hu hurb
    next rpdu hu =>
      have hwhole : Whole env ((ready s).take Wire.UsbipHeader.size) := by
        refine .inr ⟨pdu, ?_, ?_⟩
        · rw [List.take_take, Nat.min_self]
          exact hpdu
        · simp only [hlen, pduLength, hu, Nat.add_zero]
      exact iff_of_true (fun _ => hwhole) (hother fun rpdu h => by simp [hu] at h)
    next hret hunlink =>
      exact iff_of_true (fun h => by simp at h) (hother hret)

/-! ### The loop -/

/-- **`vhci_rx_loop` keeps to the PDUs**: in every run the calls that raise no event take whole
PDUs, exactly when each call meets its conditions. -/
theorem vhciRxLoop_whole_iff (envs : List Env) (s : List Outcome) :
    (∀ call ∈ vhciRxLoop envs s, Whole call.1 call.2) ↔ RunInStep envs s := by
  induction envs generalizing s with
  | nil => exact iff_of_true (fun call h => absurd h List.not_mem_nil) trivial
  | cons env envs ih =>
    rw [vhciRxLoop, RunInStep, ← vhciRxPdu_whole_iff]
    split
    next hquiet =>
      rw [List.forall_mem_cons, ih]
      exact and_congr ⟨fun h _ => h, fun h => h hquiet⟩ ⟨fun h _ => h, fun h => h hquiet⟩
    next hevent =>
      exact iff_of_true (fun call h => absurd h List.not_mem_nil)
        ⟨fun h => absurd h hevent, fun h => absurd h hevent⟩

/-- No URB is pending, and there is memory for nothing. -/
def idle : Env := ⟨⟨[], noMemory⟩, fun _ => false⟩

/-- One byte of a header arrives before the timeout, and the rest is taken for the next header. -/
theorem vhciRxLoop_not_whole :
    ¬ ∀ (envs : List Env) (s : List Outcome),
      ∀ call ∈ vhciRxLoop envs s, Whole call.1 call.2 := by
  intro h
  have hlost := h [idle] [.chunk 0 [], .error 11] (idle, [0]) (List.mem_singleton.mpr rfl)
  exact absurd ((whole_short_iff (by decide)).mp hlost) (by decide)

end Usbip.Vhci.Idle
