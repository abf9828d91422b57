import Usbip.Vhci.Receive
import Mathlib.Algebra.BigOperators.Group.List.Basic

/-!
# What a RET_SUBMIT makes the client write

`vhci_recv_ret_submit` copies the header into the URB before it reads on, so that the length of the
payload, the number of packet descriptors and the places to which `usbip_pad_iso` moves the packets
are the server's. `recvRetAccesses` follows the three functions and notes each access: how much of
the transfer buffer `usbip_recv` fills, which entries of `iso_frame_desc` are written, and the
ranges that `usbip_pad_iso` moves.

The only test on the way is that the lengths of the packets add up to `actual_length`, modulo
`2 ^ 32`. The accesses stay within the URB's allocations exactly when the conditions of `Bounded`
hold (`recvRetAccesses_within_iff`), none of which the code checks.
-/

namespace Usbip.Vhci

open Framing

/-! ### The accesses -/

/-- One `memmove` of `usbip_pad_iso`, with its destination and its source in the transfer buffer. -/
structure Move where
  dest : Wire.Range
  src : Wire.Range
  deriving DecidableEq, Repr

/-- The loop of `usbip_pad_iso` from packet `i` down to packet 1. `actualoffset` is an `int`, to
which the lengths, unsigned, are added modulo `2 ^ 32`. -/
def padLoop (desc : ℕ → Wire.IsoPacketDescriptor) : ℕ → BitVec 32 → List Move
  | 0, _ => []
  | i + 1, actualoffset =>
    let len := (desc (i + 1)).actualLength
    let actualoffset := actualoffset - len
    ⟨⟨(desc (i + 1)).offset.toNat, len.toNat⟩, ⟨actualoffset.toInt, len.toNat⟩⟩ ::
      padLoop desc i actualoffset

/-- `usbip_pad_iso` -/
def usbipPadIso (urb : Wire.Urb) : List Move :=
  if !urb.isoc then []
  else if urb.numberOfPackets = 0 ∨ urb.actualLength = 0 then []
  else if urb.actualLength = urb.transferBufferLength then []
  else padLoop urb.isoFrameDesc (urb.packets - 1) urb.actualLength

/-- What `vhci_recv_ret_submit` writes and moves: the bytes of the payload, the indices of
`iso_frame_desc`, and the moves. -/
structure Accesses where
  payload : ℕ
  descs : List ℕ
  moves : List Move

/-- `vhci_recv_ret_submit` after `usbip_pack_pdu`. `stream` is what arrives before the connection
fails or ends. -/
def recvRetAccesses (kzalloc : Wire.Allocator) (buffer : Bool) (urb : Wire.Urb)
    (stream : List Byte) : Accesses :=
  if 0 < Wire.xbuffSize .vhci urb ∧ buffer = false then ⟨0, [], []⟩
  else
    let payload := min (Wire.xbuffSize .vhci urb).toNat stream.length
    match Wire.usbipRecvXbuff .vhci urb stream with
    | none => ⟨payload, [], []⟩
    | some (urb, stream) =>
      let descs := ((Wire.recvIsoBuff kzalloc urb stream).map List.length).getD 0
      match Wire.usbipRecvIso kzalloc urb stream with
      | some (.ok urb, _) => ⟨payload, List.range descs, usbipPadIso urb⟩
      | _ => ⟨payload, List.range descs, []⟩

/-- Every access is inside the transfer buffer, or inside the descriptors that the URB was submitted
with. -/
structure Accesses.Within (a : Accesses) (urb : Wire.Urb) : Prop where
  payload : a.payload ≤ urb.transferBufferLength.toNat
  descs : ∀ i ∈ a.descs, i < urb.packets
  moves : ∀ m ∈ a.moves, m.dest.Within urb.transferBufferLength.toNat ∧
    m.src.Within urb.transferBufferLength.toNat

/-! ### What the server must keep -/

/-- The length of the packets before packet `i`, as the code computes it. -/
def lengthBefore (iso : List Wire.IsoPacketDescriptor) (i : ℕ) : BitVec 32 :=
  ((iso.take i).map (·.actualLength)).sum

/-- A packet that is moved has its place, and its data, in the transfer buffer. -/
def PacketFits (iso : List Wire.IsoPacketDescriptor) (size i : ℕ) : Prop :=
  ∀ d ∈ iso[i]?, d.actualLength ≠ 0 →
    d.offset.toNat + d.actualLength.toNat ≤ size ∧ (lengthBefore iso i).toNat < 2 ^ 31 ∧
      (lengthBefore iso i).toNat + d.actualLength.toNat ≤ size

/-- The payload that the header announces. -/
def payloadLength (urb : Wire.Urb) (rpdu : Wire.UsbipHeaderRetSubmit) : ℕ :=
  if urb.pipe.isIn then rpdu.actualLength.toInt.toNat else 0

/-- The payload is there, and so are the descriptors after it. -/
structure DescsReached (kzalloc : Wire.Allocator) (buffer : Bool) (urb : Wire.Urb)
    (rpdu : Wire.UsbipHeaderRetSubmit) (stream : List Byte) : Prop where
  payload : 0 < payloadLength urb rpdu → buffer = true ∧ payloadLength urb rpdu ≤ stream.length
  isoc : urb.isoc = true
  arrive : Wire.DescsArrive kzalloc rpdu.numberOfPackets (stream.drop (payloadLength urb rpdu))

/-- The descriptors after the payload. -/
def recvDescs (urb : Wire.Urb) (rpdu : Wire.UsbipHeaderRetSubmit) (stream : List Byte) :
    List Wire.IsoPacketDescriptor :=
  Wire.descs rpdu.numberOfPackets (stream.drop (payloadLength urb rpdu))

/-- The conditions on the header of a URB and on what follows it. -/
structure Bounded (kzalloc : Wire.Allocator) (buffer : Bool) (urb : Wire.Urb)
    (rpdu : Wire.UsbipHeaderRetSubmit) (stream : List Byte) : Prop where
  /-- No more payload than the transfer buffer holds. -/
  payload : buffer = true →
    min (payloadLength urb rpdu) stream.length ≤ urb.transferBufferLength.toNat
  /-- No more packets than the URB has. -/
  descs : DescsReached kzalloc buffer urb rpdu stream →
    rpdu.numberOfPackets.toInt ≤ urb.packets
  /-- Unless the packets fill the transfer buffer, each but the first fits in it. -/
  moves : DescsReached kzalloc buffer urb rpdu stream →
    Wire.AddUp (recvDescs urb rpdu stream) rpdu.actualLength → rpdu.actualLength ≠ 0 →
      rpdu.actualLength ≠ urb.transferBufferLength →
        ∀ i, 0 < i → PacketFits (recvDescs urb rpdu stream) urb.transferBufferLength.toNat i

instance (kzalloc : Wire.Allocator) (buffer : Bool) (urb : Wire.Urb)
    (rpdu : Wire.UsbipHeaderRetSubmit) (stream : List Byte) :
    Decidable (DescsReached kzalloc buffer urb rpdu stream) :=
  decidable_of_iff (_ ∧ _ ∧ _)
    ⟨fun h => ⟨h.1, h.2.1, h.2.2⟩, fun h => ⟨h.payload, h.isoc, h.arrive⟩⟩

/-! ### The moves -/

variable {iso : List Wire.IsoPacketDescriptor} {desc : ℕ → Wire.IsoPacketDescriptor} {i k size : ℕ}

theorem lengthBefore_succ {d : Wire.IsoPacketDescriptor} (h : iso[i]? = some d) :
    lengthBefore iso (i + 1) = lengthBefore iso i + d.actualLength := by
  rw [lengthBefore, lengthBefore, List.take_add_one, h, Option.toList_some, List.map_append,
    List.sum_append]
  simp

/-- `usbip_pad_iso` moves each packet but the first from the end of the packets before it. -/
theorem mem_padLoop_iff (hdesc : ∀ j d, iso[j]? = some d → desc j = d) (hk : k < iso.length)
    {m : Move} : m ∈ padLoop desc k (lengthBefore iso (k + 1)) ↔
      ∃ i d, 0 < i ∧ i ≤ k ∧ iso[i]? = some d ∧
        m = ⟨⟨d.offset.toNat, d.actualLength.toNat⟩,
          ⟨(lengthBefore iso i).toInt, d.actualLength.toNat⟩⟩ := by
  induction k with
  | zero =>
    refine iff_of_false List.not_mem_nil ?_
    rintro ⟨i, d, hpos, hi, -⟩
    omega
  | succ k ih =>
    have hget : iso[k + 1]? = some iso[k + 1] := List.getElem?_eq_getElem hk
    have hlast : desc (k + 1) = iso[k + 1] := hdesc _ _ hget
    have hoff : lengthBefore iso (k + 1 + 1) - iso[k + 1].actualLength =
        lengthBefore iso (k + 1) := by
      rw [lengthBefore_succ hget]
      exact BitVec.add_sub_cancel ..
    rw [padLoop, hlast, hoff, List.mem_cons, ih (by omega)]
    constructor
    · rintro (rfl | ⟨i, d, hpos, hi, hd, rfl⟩)
      · exact ⟨k + 1, iso[k + 1], by omega, le_rfl, hget, rfl⟩
      · exact ⟨i, d, hpos, by omega, hd, rfl⟩
    · rintro ⟨i, d, hpos, hi, hd, rfl⟩
      obtain rfl | hi := Nat.eq_or_lt_of_le hi
      · rw [hget] at hd
        obtain rfl := Option.some.inj hd
        exact .inl rfl
      · exact .inr ⟨i, d, hpos, by omega, hd, rfl⟩

/-- A range that starts at an `int`. -/
theorem within_toInt_iff (off : BitVec 32) (len : ℕ) :
    (⟨off.toInt, len⟩ : Wire.Range).Within size ↔
      len = 0 ∨ off.toNat < 2 ^ 31 ∧ off.toNat + len ≤ size := by
  refine or_congr_right ?_
  dsimp only
  rw [BitVec.toInt_eq_toNat_cond]
  split
  next h => exact ⟨fun h' => by omega, fun h' => by omega⟩
  next h =>
    have := off.isLt
    exact ⟨fun h' => by omega, fun h' => by omega⟩

theorem packetFits_iff {d : Wire.IsoPacketDescriptor} (h : iso[i]? = some d) :
    PacketFits iso size i ↔
      (⟨d.offset.toNat, d.actualLength.toNat⟩ : Wire.Range).Within size ∧
        (⟨(lengthBefore iso i).toInt, d.actualLength.toNat⟩ : Wire.Range).Within size := by
  have hzero : d.actualLength = 0 ↔ d.actualLength.toNat = 0 := by
    rw [← BitVec.toNat_inj]
    rfl
  rw [within_toInt_iff, PacketFits, h, Wire.Range.Within]
  simp only [Option.mem_def, Option.some_inj, forall_eq', hzero, ne_eq]
  constructor
  · intro hfits
    by_cases hlen : d.actualLength.toNat = 0
    · exact ⟨.inl hlen, .inl hlen⟩
    · obtain ⟨hdest, hneg, hsrc⟩ := hfits hlen
      exact ⟨.inr ⟨by omega, by omega⟩, .inr ⟨hneg, hsrc⟩⟩
  · rintro ⟨hdest, hsrc⟩ hlen
    have hdest := hdest.resolve_left hlen
    have hsrc := hsrc.resolve_left hlen
    exact ⟨by omega, hsrc.1, hsrc.2⟩

/-- The moves are inside the buffer when every packet but the first fits. -/
theorem padLoop_within_iff (hdesc : ∀ j d, iso[j]? = some d → desc j = d) :
    (∀ m ∈ padLoop desc (iso.length - 1) (lengthBefore iso iso.length),
      m.dest.Within size ∧ m.src.Within size) ↔ ∀ i, 0 < i → PacketFits iso size i := by
  by_cases hnil : iso.length = 0
  · obtain rfl : iso = [] := List.eq_nil_of_length_eq_zero hnil
    refine iff_of_true (fun m hm => absurd hm List.not_mem_nil) fun i _ d hd => ?_
    simp at hd
  obtain ⟨k, hk⟩ : ∃ k, iso.length = k + 1 := ⟨iso.length - 1, by omega⟩
  rw [hk, Nat.add_sub_cancel]
  constructor
  · intro h i hpos d hd
    refine (packetFits_iff hd).mpr (h ⟨⟨_, _⟩, ⟨_, _⟩⟩ ?_) d hd
    rw [mem_padLoop_iff hdesc (by omega)]
    have hi : i < iso.length := (List.getElem?_eq_some_iff.mp hd).1
    exact ⟨i, d, hpos, by omega, hd, rfl⟩
  · intro h m hm
    rw [mem_padLoop_iff hdesc (by omega)] at hm
    obtain ⟨i, d, hpos, -, hd, rfl⟩ := hm
    exact (packetFits_iff hd).mp (h i hpos)

/-! ### The whole function -/

section

variable {kzalloc : Wire.Allocator} {buffer : Bool} {urb : Wire.Urb}
  {rpdu : Wire.UsbipHeaderRetSubmit} {stream : List Byte}

theorem xbuffSize_unpack :
    (Wire.xbuffSize .vhci (Wire.unpackRetSubmit rpdu urb)).toNat = payloadLength urb rpdu := by
  rw [Wire.xbuffSize, payloadLength, Wire.unpackRetSubmit]
  split
  · rfl
  · rfl

/-- The URB as `usbip_pad_iso` finds it. -/
def descsStored (urb : Wire.Urb) (rpdu : Wire.UsbipHeaderRetSubmit) (stream : List Byte) :
    Wire.Urb :=
  { Wire.unpackRetSubmit rpdu urb with
    isoFrameDesc := Wire.storeMem urb.isoFrameDesc (recvDescs urb rpdu stream) }

/-- The URB after `usbip_recv_xbuff`. -/
def payloadStored (urb : Wire.Urb) (rpdu : Wire.UsbipHeaderRetSubmit) (buf : ℕ → Byte) : Wire.Urb :=
  { Wire.unpackRetSubmit rpdu urb with transferBuffer := buf }

/-- `usbip_recv_xbuff` changes nothing but the transfer buffer. -/
theorem exists_usbipRecvXbuff (hlen : payloadLength urb rpdu ≤ stream.length) :
    ∃ buf, Wire.usbipRecvXbuff .vhci (Wire.unpackRetSubmit rpdu urb) stream =
      some (payloadStored urb rpdu buf, stream.drop (payloadLength urb rpdu)) := by
  rw [Wire.usbipRecvXbuff, xbuffSize_unpack]
  split
  next hsize =>
    have hzero : payloadLength urb rpdu = 0 := by
      rw [← xbuffSize_unpack]
      omega
    rw [hzero, List.drop_zero]
    exact ⟨_, rfl⟩
  · rw [recv, if_pos hlen]
    exact ⟨_, rfl⟩

/-- What `usbip_recv_iso` and `usbip_pad_iso` touch, once the payload has been read. -/
theorem recvRetAccesses_of_payload (hok : ¬ (0 < payloadLength urb rpdu ∧ buffer = false))
    (hlen : payloadLength urb rpdu ≤ stream.length) :
    recvRetAccesses kzalloc buffer (Wire.unpackRetSubmit rpdu urb) stream =
      ⟨payloadLength urb rpdu,
        if DescsReached kzalloc buffer urb rpdu stream then
          List.range (recvDescs urb rpdu stream).length else [],
        if DescsReached kzalloc buffer urb rpdu stream ∧
            Wire.AddUp (recvDescs urb rpdu stream) rpdu.actualLength then
          usbipPadIso (descsStored urb rpdu stream) else []⟩ := by
  obtain ⟨buf, hbuf⟩ := exists_usbipRecvXbuff hlen
  have hsize : 0 < Wire.xbuffSize .vhci (Wire.unpackRetSubmit rpdu urb) ↔
      0 < payloadLength urb rpdu := by
    rw [← xbuffSize_unpack]
    omega
  have hpayload : 0 < payloadLength urb rpdu →
      buffer = true ∧ payloadLength urb rpdu ≤ stream.length := by
    intro hpos
    exact ⟨Bool.of_not_eq_false fun hnull => hok ⟨hpos, hnull⟩, hlen⟩
  rw [recvRetAccesses, if_neg (by rwa [hsize]), hbuf, xbuffSize_unpack, Nat.min_eq_left hlen]
  dsimp only
  cases hbuff : Wire.recvIsoBuff kzalloc (payloadStored urb rpdu buf)
      (stream.drop (payloadLength urb rpdu)) with
  | none =>
    have hnot : ¬ DescsReached kzalloc buffer urb rpdu stream := by
      rintro ⟨-, hisoc, harrive⟩
      -- descriptors that have arrived are stored
      have hnp : rpdu.numberOfPackets ≠ 0 := fun h => harrive.2.1 (by rw [h]; rfl)
      have hsome : Wire.recvIsoBuff kzalloc (payloadStored urb rpdu buf)
          (stream.drop (payloadLength urb rpdu)) = some (recvDescs urb rpdu stream) :=
        Wire.recvIsoBuff_eq_some_iff.mpr ⟨hisoc, hnp, harrive, rfl⟩
      simp [hbuff] at hsome
    rw [if_neg hnot, if_neg fun h => hnot h.1]
    split
    next urb' rest hiso =>
      obtain ⟨hzero, rfl, -⟩ := (Wire.usbipRecvIso_of_recvIsoBuff_eq_none hbuff).mp hiso
      -- without descriptors there is nothing to pad
      have hpad : usbipPadIso (payloadStored urb rpdu buf) = [] := by
        rw [usbipPadIso]
        split
        · rfl
        next hisoc => exact if_pos (.inl (hzero (by simpa using hisoc)))
      rw [hpad]
      rfl
    · rfl
  | some iso =>
    obtain ⟨hisoc, hnp, harrive, hiso⟩ := Wire.recvIsoBuff_eq_some_iff.mp hbuff
    have hiso : iso = recvDescs urb rpdu stream := hiso
    have hreached : DescsReached kzalloc buffer urb rpdu stream := ⟨hpayload, hisoc, harrive⟩
    rw [if_pos hreached, Wire.usbipRecvIso_of_recvIsoBuff hbuff, hiso]
    by_cases hsum : Wire.AddUp (recvDescs urb rpdu stream) rpdu.actualLength
    · have hstore : Wire.storeIso (payloadStored urb rpdu buf) (recvDescs urb rpdu stream) =
          .ok { payloadStored urb rpdu buf with
            isoFrameDesc := Wire.storeMem urb.isoFrameDesc (recvDescs urb rpdu stream) } :=
        if_pos hsum
      rw [hstore, if_pos ⟨hreached, hsum⟩]
      rfl
    · have hstore : Wire.storeIso (payloadStored urb rpdu buf) (recvDescs urb rpdu stream) =
          .error .epipe := if_neg hsum
      rw [hstore, if_neg fun h => hsum h.2]
      rfl

theorem length_recvDescs : (recvDescs urb rpdu stream).length = rpdu.numberOfPackets.toInt.toNat :=
  Wire.isoCodec.length_decodeAll ..

/-- `usbip_pad_iso` reads the descriptors back and moves the packets. -/
theorem usbipPadIso_within_iff (hreached : DescsReached kzalloc buffer urb rpdu stream)
    (hsum : Wire.AddUp (recvDescs urb rpdu stream) rpdu.actualLength) (size : ℕ) :
    (∀ m ∈ usbipPadIso (descsStored urb rpdu stream), m.dest.Within size ∧ m.src.Within size) ↔
      (rpdu.actualLength ≠ 0 → rpdu.actualLength ≠ urb.transferBufferLength →
        ∀ i, 0 < i → PacketFits (recvDescs urb rpdu stream) size i) := by
  have hisoc : (descsStored urb rpdu stream).isoc = true := hreached.isoc
  have hnp : rpdu.numberOfPackets ≠ 0 := fun h => hreached.arrive.2.1 (by rw [h]; rfl)
  rw [usbipPadIso, if_neg (by simp [hisoc])]
  change (∀ m ∈ (if rpdu.numberOfPackets = 0 ∨ rpdu.actualLength = 0 then []
    else if rpdu.actualLength = urb.transferBufferLength then []
    else padLoop (descsStored urb rpdu stream).isoFrameDesc
      (rpdu.numberOfPackets.toInt.toNat - 1) rpdu.actualLength), _) ↔ _
  by_cases hzero : rpdu.actualLength = 0
  · simp [hzero]
  rw [if_neg (not_or.mpr ⟨hnp, hzero⟩)]
  by_cases hfull : rpdu.actualLength = urb.transferBufferLength
  · simp [hfull]
  rw [if_neg hfull, ← length_recvDescs]
  have hall : rpdu.actualLength =
      lengthBefore (recvDescs urb rpdu stream) (recvDescs urb rpdu stream).length := by
    rw [lengthBefore, List.take_length]
    exact hsum.symm
  have hdesc : ∀ j d, (recvDescs urb rpdu stream)[j]? = some d →
      (descsStored urb rpdu stream).isoFrameDesc j = d := by
    intro j d hd
    change (recvDescs urb rpdu stream).getD j _ = d
    rw [List.getD_eq_getElem?_getD, hd, Option.getD_some]
  simp only [ne_eq, hzero, hfull, not_false_eq_true, true_imp_iff]
  rw [← padLoop_within_iff hdesc, ← hall]

/-- The loop over the descriptors stays within those of the URB when it has no more packets. -/
theorem range_lt_iff {np : BitVec 32} {n : ℕ} :
    (∀ i ∈ List.range np.toInt.toNat, i < n) ↔ np.toInt ≤ n := by
  constructor
  · intro h
    by_contra hlt
    have := h n (List.mem_range.mpr (by omega))
    omega
  · intro h i hi
    have := List.mem_range.mp hi
    omega

theorem recvRetAccesses_of_short (hok : ¬ (0 < payloadLength urb rpdu ∧ buffer = false))
    (hlen : stream.length < payloadLength urb rpdu) :
    recvRetAccesses kzalloc buffer (Wire.unpackRetSubmit rpdu urb) stream =
      ⟨stream.length, [], []⟩ := by
  have hsize : 0 < Wire.xbuffSize .vhci (Wire.unpackRetSubmit rpdu urb) := by
    have : (Wire.xbuffSize .vhci (Wire.unpackRetSubmit rpdu urb)).toNat = _ := xbuffSize_unpack
    omega
  have hnone : Wire.usbipRecvXbuff .vhci (Wire.unpackRetSubmit rpdu urb) stream = none := by
    rw [Wire.usbipRecvXbuff, xbuffSize_unpack, if_neg (not_not.mpr hsize), recv,
      if_neg (by omega), Option.map_none]
  have hbuffer : ¬ (0 < Wire.xbuffSize .vhci (Wire.unpackRetSubmit rpdu urb) ∧ buffer = false) :=
    fun h => hok ⟨by omega, h.2⟩
  rw [recvRetAccesses, if_neg hbuffer, hnone, xbuffSize_unpack, Nat.min_eq_right hlen.le]

theorem recvRetAccesses_of_null (h : 0 < payloadLength urb rpdu ∧ buffer = false) :
    recvRetAccesses kzalloc buffer (Wire.unpackRetSubmit rpdu urb) stream = ⟨0, [], []⟩ := by
  have hsize : 0 < Wire.xbuffSize .vhci (Wire.unpackRetSubmit rpdu urb) := by
    have hpos := h.1
    rw [← xbuffSize_unpack] at hpos
    omega
  exact if_pos ⟨hsize, h.2⟩

/-- **The client stays within the URB's allocations exactly when the server keeps the bounds.** -/
theorem recvRetAccesses_within_iff (kzalloc : Wire.Allocator) (buffer : Bool) (urb : Wire.Urb)
    (rpdu : Wire.UsbipHeaderRetSubmit) (stream : List Byte) :
    (recvRetAccesses kzalloc buffer (Wire.unpackRetSubmit rpdu urb) stream).Within urb ↔
      Bounded kzalloc buffer urb rpdu stream := by
  by_cases hok : 0 < payloadLength urb rpdu ∧ buffer = false
  · -- no buffer for the payload: `usbip_recv` refuses it
    have hnot : ¬ DescsReached kzalloc buffer urb rpdu stream := fun h => by
      have := (h.payload hok.1).1
      simp [hok.2] at this
    rw [recvRetAccesses_of_null hok]
    exact iff_of_true ⟨Nat.zero_le _, by simp, by simp⟩
      ⟨fun h => by simp [hok.2] at h, fun h => absurd h hnot, fun h => absurd h hnot⟩
  by_cases hlen : stream.length < payloadLength urb rpdu
  · have hnot : ¬ DescsReached kzalloc buffer urb rpdu stream := fun h => by
      have := (h.payload (by omega)).2
      omega
    have hbuffer : buffer = true := Bool.of_not_eq_false fun hnull => hok ⟨by omega, hnull⟩
    -- the payload is cut off, and only what has come is stored
    rw [recvRetAccesses_of_short hok hlen]
    constructor
    · intro h
      refine ⟨fun _ => ?_, fun h => absurd h hnot, fun h => absurd h hnot⟩
      rw [Nat.min_eq_right hlen.le]
      exact h.payload
    · intro h
      refine ⟨?_, by simp, by simp⟩
      have := h.payload hbuffer
      rwa [Nat.min_eq_right hlen.le] at this
  -- the payload is there, and what it may write is bounded by its length
  have hlen : payloadLength urb rpdu ≤ stream.length := not_lt.mp hlen
  rw [recvRetAccesses_of_payload hok hlen]
  have hpayload : payloadLength urb rpdu ≤ urb.transferBufferLength.toNat ↔
      (buffer = true → min (payloadLength urb rpdu) stream.length ≤
        urb.transferBufferLength.toNat) := by
    rw [Nat.min_eq_left hlen]
    refine ⟨fun h _ => h, fun h => ?_⟩
    by_cases hpos : 0 < payloadLength urb rpdu
    · exact h (Bool.of_not_eq_false fun hnull => hok ⟨hpos, hnull⟩)
    · omega
  constructor
  · rintro ⟨hp, hd, hm⟩
    refine ⟨hpayload.mp hp, fun hreached => ?_, fun hreached hsum => ?_⟩
    · dsimp only at hd
      rw [if_pos hreached, length_recvDescs, range_lt_iff] at hd
      exact hd
    · dsimp only at hm
      rw [if_pos (And.intro hreached hsum)] at hm
      exact (usbipPadIso_within_iff hreached hsum _).mp hm
  · rintro ⟨hp, hd, hm⟩
    refine ⟨hpayload.mpr hp, ?_, ?_⟩
    · dsimp only
      split
      next hreached =>
        rw [length_recvDescs, range_lt_iff]
        exact hd hreached
      · simp
    · dsimp only
      split
      next hreached =>
        exact (usbipPadIso_within_iff hreached.1 hreached.2 _).mpr (hm hreached.1 hreached.2)
      · simp

/-- A RET_SUBMIT with eight bytes for a URB of four overruns the transfer buffer. -/
theorem recvRetAccesses_overrun :
    ¬ ∀ (kzalloc : Wire.Allocator) (urb : Wire.Urb) (rpdu : Wire.UsbipHeaderRetSubmit)
      (stream : List Byte),
      (recvRetAccesses kzalloc true (Wire.unpackRetSubmit rpdu urb) stream).Within urb := by
  intro h
  have := (h noMemory bulkIn ⟨0, 8, 0, 0, 0⟩ [1, 2, 3, 4, 5, 6, 7, 8]).payload
  exact absurd this (by decide)

end

end Usbip.Vhci
