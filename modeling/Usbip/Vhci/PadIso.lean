import Usbip.Lib.Compaction
import Usbip.Vhci.Bounds
import Usbip.Wire.Stream

/-!
# Isochronous packets on their way to the client

For an isochronous IN URB `stub_send_ret_submit` sends the bytes of the packets without the padding
between them. The client stores them at the start of its transfer buffer, and `usbip_pad_iso` moves
them apart, the last packet first.

`isoc_roundTrip` is the whole way for a URB whose packets are in order (`InSlots`): each packet but
the first is at its own offset in the end, the first is at the start of the buffer, and no move
touches the bytes of a packet that is still to be moved (`RoundTrip`). `usbip_pad_iso` never moves
packet 0, so that the URB is restored as a whole when this packet has offset 0.
-/

namespace Usbip.Vhci

open Framing

/-- `memmove` within a transfer buffer. -/
def memmove (mem : ℕ → Byte) (m : Move) : ℕ → Byte := fun x =>
  if m.dest.off ≤ x ∧ (x : ℤ) < m.dest.off + m.dest.len then
    mem (m.src.off + (x - m.dest.off)).toNat
  else mem x

/-- The transfer buffer after `usbip_pad_iso`. -/
def padIso (urb : Wire.Urb) : ℕ → Byte := (usbipPadIso urb).foldl memmove urb.transferBuffer

/-! ### What the round trip is about -/

/-- An isochronous IN URB that has been completed, with its packets in order. -/
structure InSlots (urb : Wire.Urb) : Prop where
  isoc : urb.isoc = true
  isIn : urb.pipe.isIn = true
  packets_nonneg : 0 ≤ urb.numberOfPackets.toInt
  /-- `usb_submit_urb` turns down a transfer buffer that is longer than an `int` can say. -/
  size_lt : urb.transferBufferLength.toNat < 2 ^ 31
  inside : ∀ i, i < urb.packets →
    (urb.isoFrameDesc i).offset.toNat + (urb.isoFrameDesc i).length.toNat ≤
      urb.transferBufferLength.toNat
  order : ∀ i, i + 1 < urb.packets →
    (urb.isoFrameDesc i).offset.toNat + (urb.isoFrameDesc i).length.toNat ≤
      (urb.isoFrameDesc (i + 1)).offset.toNat
  actual_le : ∀ i, i < urb.packets →
    (urb.isoFrameDesc i).actualLength.toNat ≤ (urb.isoFrameDesc i).length.toNat
  total : ((Wire.readMem urb.isoFrameDesc 0 urb.packets).map (·.actualLength.toNat)).sum =
    urb.actualLength.toNat

/-- The URB of the client that the server has carried out. -/
structure CarriedOut (u urb : Wire.Urb) : Prop where
  type_eq : u.pipe.type = urb.pipe.type
  isIn_eq : u.pipe.isIn = urb.pipe.isIn
  length_eq : u.transferBufferLength = urb.transferBufferLength

/-- The bytes of a packet. -/
def packetBytes (mem : ℕ → Byte) (d : Wire.IsoPacketDescriptor) : List Byte :=
  Wire.readMem mem d.offset.toNat d.actualLength.toNat

/-- Where the bytes of packet `i` start when there is no padding. -/
def gatheredAt (urb : Wire.Urb) (i : ℕ) : ℕ :=
  ((Wire.readMem urb.isoFrameDesc 0 i).map (·.actualLength.toNat)).sum

/-- Two ranges without a byte in common. -/
def Apart (r r' : Wire.Range) : Prop :=
  ∀ x : ℤ, r.off ≤ x → x < r.off + r.len → ¬ (r'.off ≤ x ∧ x < r'.off + r'.len)

/-- What `usbip_pad_iso` makes of the URB of the client, `got`, that has received the packets of
`urb`. -/
structure RoundTrip (urb got : Wire.Urb) : Prop where
  descs : Wire.readMem got.isoFrameDesc 0 urb.packets = Wire.readMem urb.isoFrameDesc 0 urb.packets
  own : ∀ i, 0 < i → i < urb.packets →
    packetBytes (padIso got) (urb.isoFrameDesc i) =
      packetBytes urb.transferBuffer (urb.isoFrameDesc i)
  first : 0 < urb.packets →
    Wire.readMem (padIso got) 0 (urb.isoFrameDesc 0).actualLength.toNat =
      packetBytes urb.transferBuffer (urb.isoFrameDesc 0)
  restored : (urb.isoFrameDesc 0).offset = 0 → ∀ i, i < urb.packets →
    packetBytes (padIso got) (urb.isoFrameDesc i) =
      packetBytes urb.transferBuffer (urb.isoFrameDesc i)
  /-- After `k` moves all but the last `k` packets are where the payload has put them. -/
  waiting : ∀ k i, i + k < urb.packets →
    Wire.readMem (((usbipPadIso got).take k).foldl memmove got.transferBuffer) (gatheredAt urb i)
        (urb.isoFrameDesc i).actualLength.toNat =
      packetBytes urb.transferBuffer (urb.isoFrameDesc i)
  /-- No move overwrites what a later one moves, -/
  spared : (usbipPadIso got).Pairwise fun m m' => Apart m.dest m'.src
  /-- nor the first packet. -/
  spared_first : ∀ m ∈ usbipPadIso got,
    Apart m.dest ⟨0, (urb.isoFrameDesc 0).actualLength.toNat⟩

/-! ### The packets as slots -/

/-- A packet descriptor as a slot of the transfer buffer. -/
def slot (d : Wire.IsoPacketDescriptor) : Compaction.Slot :=
  ⟨d.offset.toNat, d.length.toNat, d.actualLength.toNat⟩

/-- `n` packets from packet `i` on. -/
def slots (desc : ℕ → Wire.IsoPacketDescriptor) (i n : ℕ) : List Compaction.Slot :=
  (Wire.readMem desc i n).map slot

/-- A move of the library as one of the code. -/
def ofMove (m : Compaction.Move) : Move := ⟨⟨m.dest, m.len⟩, ⟨m.src, m.len⟩⟩

variable {desc : ℕ → Wire.IsoPacketDescriptor} {urb u : Wire.Urb} {i k n : ℕ}

theorem memmove_ofMove (mem : ℕ → Byte) (m : Compaction.Move) :
    memmove mem (ofMove m) = m.run mem := by
  funext x
  rw [memmove, Compaction.Move.run, ofMove]
  dsimp only
  by_cases h : m.dest ≤ x ∧ x < m.dest + m.len
  · rw [if_pos ⟨by omega, by omega⟩, if_pos h]
    congr 1
    omega
  · rw [if_neg (fun h' => h ⟨by omega, by omega⟩), if_neg h]

theorem foldl_memmove (mem : ℕ → Byte) (ms : List Compaction.Move) :
    (ms.map ofMove).foldl memmove mem = ms.foldl Compaction.Move.run mem := by
  induction ms generalizing mem with
  | nil => rfl
  | cons m ms ih => rw [List.map_cons, List.foldl_cons, List.foldl_cons, memmove_ofMove, ih]

theorem slots_succ : slots desc i (n + 1) = slots desc i n ++ [slot (desc (i + n))] := by
  rw [slots, Wire.readMem, List.range_succ, List.map_append, List.map_append]
  rfl

theorem slots_zero_succ : slots desc 0 (n + 1) = slot (desc 0) :: slots desc 1 n := by
  induction n with
  | zero => rfl
  | succ n ih => rw [slots_succ, ih, slots_succ, List.cons_append, Nat.zero_add, Nat.add_comm 1 n]

theorem getElem?_slots (h : i < n) : (slots desc 0 n)[i]? = some (slot (desc i)) := by
  simp [slots, Wire.readMem, h]

theorem take_slots (h : i ≤ n) : (slots desc 0 n).take i = slots desc 0 i := by
  rw [slots, Wire.readMem, ← List.map_take, ← List.map_take, List.take_range, Nat.min_eq_left h]
  rfl

@[simp] theorem length_slots : (slots desc i n).length = n := by simp [slots]

theorem used_slots : Compaction.used (slots desc i n) =
    ((Wire.readMem desc i n).map (·.actualLength.toNat)).sum := by
  rw [Compaction.used, slots, List.map_map]
  rfl

theorem gatherPackets_eq (urb : Wire.Urb) : Wire.gatherPackets urb =
    Compaction.compact urb.transferBuffer (slots urb.isoFrameDesc 0 urb.packets) := by
  rw [Wire.gatherPackets, Compaction.compact, slots, List.flatMap_map]
  rfl

theorem InSlots.inOrder (h : InSlots urb) :
    Compaction.InOrder urb.transferBufferLength.toNat 0 (slots urb.isoFrameDesc 0 urb.packets) := by
  refine Compaction.inOrder_of_adjacent (Nat.zero_le _) (fun s _ => Nat.zero_le _)
    (fun s hs => ?_) fun i s t hs ht => ?_
  · obtain ⟨i, hi⟩ := List.mem_iff_getElem?.mp hs
    have hlt : i < urb.packets := by simpa using (List.getElem?_eq_some_iff.mp hi).1
    rw [getElem?_slots hlt] at hi
    obtain rfl := Option.some.inj hi
    exact ⟨h.actual_le i hlt, h.inside i hlt⟩
  · have hlt : i + 1 < urb.packets := by simpa using (List.getElem?_eq_some_iff.mp ht).1
    rw [getElem?_slots hlt] at ht
    rw [getElem?_slots (by omega)] at hs
    obtain rfl := Option.some.inj hs
    obtain rfl := Option.some.inj ht
    exact h.order i hlt

/-- The loop of `usbip_pad_iso` spreads out the packets from packet 1 on. -/
theorem padLoop_eq {src : ℕ} (h : src + Compaction.used (slots desc 1 k) < 2 ^ 31) :
    padLoop desc k (BitVec.ofNat 32 (src + Compaction.used (slots desc 1 k))) =
      (Compaction.moves src (slots desc 1 k)).map ofMove := by
  induction k with
  | zero => rfl
  | succ k ih =>
    have hslots : slots desc 1 (k + 1) = slots desc 1 k ++ [slot (desc (k + 1))] := by
      rw [slots_succ, Nat.add_comm 1 k]
    have hused : Compaction.used (slots desc 1 (k + 1)) =
        Compaction.used (slots desc 1 k) + (desc (k + 1)).actualLength.toNat := by
      rw [hslots, Compaction.used_append]
      rfl
    have hoff : BitVec.ofNat 32 (src + Compaction.used (slots desc 1 (k + 1))) -
        (desc (k + 1)).actualLength = BitVec.ofNat 32 (src + Compaction.used (slots desc 1 k)) := by
      rw [hused, ← Nat.add_assoc, BitVec.ofNat_add, BitVec.ofNat_toNat, BitVec.setWidth_eq]
      exact BitVec.add_sub_cancel ..
    have hlt : src + Compaction.used (slots desc 1 k) < 2 ^ 31 := by omega
    have hint : (BitVec.ofNat 32 (src + Compaction.used (slots desc 1 k))).toInt =
        ((src + Compaction.used (slots desc 1 k) : ℕ) : ℤ) := by
      rw [BitVec.toInt_eq_toNat_cond, BitVec.toNat_ofNat, Nat.mod_eq_of_lt (by omega),
        if_pos (by omega)]
    rw [padLoop, hoff, ih hlt, hslots, Compaction.moves_append_singleton, List.map_cons, hint]
    rfl

/-! ### What the client holds -/

theorem readMem_congr {α : Type} {mem mem' : ℕ → α} {off off' : ℕ}
    (h : ∀ i, i < n → mem (off + i) = mem' (off' + i)) :
    Wire.readMem mem off n = Wire.readMem mem' off' n :=
  List.map_congr_left fun i hi => h i (List.mem_range.mp hi)

theorem apart_of_le {r r' : Wire.Range} (h : r'.off + r'.len ≤ r.off) : Apart r r' := by
  rintro x hle - ⟨-, hlt⟩
  omega

/-- A packet of slots that are in their places. -/
theorem packetBytes_of_restored {mem : ℕ → Byte} {j : ℕ}
    (h : Compaction.Restored mem urb.transferBuffer (slots urb.isoFrameDesc j n)) (hi : i < n) :
    packetBytes mem (urb.isoFrameDesc (j + i)) =
      packetBytes urb.transferBuffer (urb.isoFrameDesc (j + i)) := by
  refine readMem_congr fun x hx => h (slot (urb.isoFrameDesc (j + i))) ?_ x hx
  exact List.mem_map_of_mem (List.mem_map_of_mem (List.mem_range.mpr hi))

/-- A packet that has not been moved. -/
theorem readMem_of_packed {mem : ℕ → Byte}
    (h : Compaction.Packed mem urb.transferBuffer 0 (slots urb.isoFrameDesc 0 n)) (hi : i < n) :
    Wire.readMem mem (gatheredAt urb i) (urb.isoFrameDesc i).actualLength.toNat =
      packetBytes urb.transferBuffer (urb.isoFrameDesc i) := by
  refine readMem_congr fun x hx => ?_
  have hget := h.getElem (getElem?_slots hi) hx
  rw [Nat.zero_add, take_slots (by omega), used_slots] at hget
  exact hget

variable {got : Wire.Urb}

/-- Packet 0 ends where it has to, too, when it is to be at the start. -/
theorem restored_of_own (hown : ∀ i, 0 < i → i < urb.packets →
      packetBytes (padIso got) (urb.isoFrameDesc i) =
        packetBytes urb.transferBuffer (urb.isoFrameDesc i))
    (hfirst : 0 < urb.packets →
      Wire.readMem (padIso got) 0 (urb.isoFrameDesc 0).actualLength.toNat =
        packetBytes urb.transferBuffer (urb.isoFrameDesc 0))
    (hzero : (urb.isoFrameDesc 0).offset = 0) (i : ℕ) (hi : i < urb.packets) :
    packetBytes (padIso got) (urb.isoFrameDesc i) =
      packetBytes urb.transferBuffer (urb.isoFrameDesc i) := by
  cases i with
  | zero =>
    rw [packetBytes, hzero]
    exact hfirst hi
  | succ i => exact hown _ (Nat.succ_pos i) hi

/-- `usbip_pad_iso` returns early, and the packets are where they have to be. -/
theorem roundTrip_of_nil
    (hdescs : Wire.readMem got.isoFrameDesc 0 urb.packets =
      Wire.readMem urb.isoFrameDesc 0 urb.packets)
    (hpacked : Compaction.Packed got.transferBuffer urb.transferBuffer 0
      (slots urb.isoFrameDesc 0 urb.packets)) (hmoves : usbipPadIso got = [])
    (hrestored : Compaction.Restored got.transferBuffer urb.transferBuffer
      (slots urb.isoFrameDesc 0 urb.packets)) : RoundTrip urb got := by
  have hpad : padIso got = got.transferBuffer := by rw [padIso, hmoves, List.foldl_nil]
  have hown : ∀ i, 0 < i → i < urb.packets → packetBytes (padIso got) (urb.isoFrameDesc i) =
      packetBytes urb.transferBuffer (urb.isoFrameDesc i) := by
    intro i _ hi
    have h := packetBytes_of_restored hrestored hi
    rwa [Nat.zero_add, ← hpad] at h
  have hfirst : 0 < urb.packets →
      Wire.readMem (padIso got) 0 (urb.isoFrameDesc 0).actualLength.toNat =
        packetBytes urb.transferBuffer (urb.isoFrameDesc 0) := by
    intro hpos
    rw [hpad]
    exact readMem_of_packed hpacked hpos
  refine ⟨hdescs, hown, hfirst, restored_of_own hown hfirst, fun k i hi => ?_, ?_, ?_⟩
  · rw [hmoves, List.take_nil, List.foldl_nil]
    exact readMem_of_packed hpacked (by omega)
  · rw [hmoves]
    exact .nil
  · rw [hmoves]
    exact fun m hm => absurd hm List.not_mem_nil

/-- `usbip_pad_iso` moves the packets from packet 1 on to their places. -/
theorem roundTrip_of_moves (h : InSlots urb) (hn : urb.packets = n + 1)
    (hdescs : Wire.readMem got.isoFrameDesc 0 urb.packets =
      Wire.readMem urb.isoFrameDesc 0 urb.packets)
    (hpacked : Compaction.Packed got.transferBuffer urb.transferBuffer 0
      (slots urb.isoFrameDesc 0 urb.packets))
    (hmoves : usbipPadIso got = (Compaction.moves (urb.isoFrameDesc 0).actualLength.toNat
      (slots urb.isoFrameDesc 1 n)).map ofMove) : RoundTrip urb got := by
  have horder := h.inOrder
  have hall := Compaction.moves_pairwise horder (Nat.le_refl 0)
  have htake := Compaction.packed_take horder (Nat.le_refl 0) hpacked
  have hmoves0 : Compaction.moves 0 (slots urb.isoFrameDesc 0 urb.packets) =
      Compaction.moves (urb.isoFrameDesc 0).actualLength.toNat (slots urb.isoFrameDesc 1 n) ++
        [⟨(urb.isoFrameDesc 0).offset.toNat, 0, (urb.isoFrameDesc 0).actualLength.toNat⟩] := by
    rw [hn, slots_zero_succ, Compaction.moves, slot, Nat.zero_add]
  rw [hmoves0, List.pairwise_append] at hall
  have hpad : padIso got = (Compaction.moves (urb.isoFrameDesc 0).actualLength.toNat
      (slots urb.isoFrameDesc 1 n)).foldl Compaction.Move.run got.transferBuffer := by
    rw [padIso, hmoves, foldl_memmove]
  -- `k` moves leave the packets before the last `k` alone
  have hwaiting : ∀ k i, i + k < urb.packets →
      Wire.readMem (((usbipPadIso got).take k).foldl memmove got.transferBuffer) (gatheredAt urb i)
          (urb.isoFrameDesc i).actualLength.toNat =
        packetBytes urb.transferBuffer (urb.isoFrameDesc i) := by
    intro k i hi
    have hk := htake k
    rw [hmoves0, List.take_append_of_le_length (by simp; omega), length_slots,
      take_slots (Nat.sub_le _ _)] at hk
    rw [hmoves, ← List.map_take, foldl_memmove]
    exact readMem_of_packed hk (by omega)
  have hown : ∀ i, 0 < i → i < urb.packets → packetBytes (padIso got) (urb.isoFrameDesc i) =
      packetBytes urb.transferBuffer (urb.isoFrameDesc i) := by
    intro i hpos hi
    rw [hn, slots_zero_succ] at horder hpacked
    obtain ⟨-, hlen, hrest⟩ := horder
    have hrestored := Compaction.restored_moves hrest (by omega) hpacked.2
    rw [Nat.zero_add] at hrestored
    obtain ⟨i, rfl⟩ : ∃ j, i = 1 + j := ⟨i - 1, by omega⟩
    rw [hpad]
    exact packetBytes_of_restored hrestored (by omega)
  have hfirst : 0 < urb.packets →
      Wire.readMem (padIso got) 0 (urb.isoFrameDesc 0).actualLength.toNat =
        packetBytes urb.transferBuffer (urb.isoFrameDesc 0) := by
    intro _
    have hw := hwaiting n 0 (by omega)
    rwa [hmoves, List.take_of_length_le (by simp), ← hmoves] at hw
  refine ⟨hdescs, hown, hfirst, restored_of_own hown hfirst, hwaiting, ?_, ?_⟩
  · rw [hmoves, List.pairwise_map]
    exact hall.1.imp fun hle => apart_of_le (by rw [ofMove, ofMove]; dsimp only; omega)
  · intro m hm
    rw [hmoves] at hm
    obtain ⟨m', hm', rfl⟩ := List.mem_map.mp hm
    have hle := hall.2.2 m' hm' _ List.mem_cons_self
    exact apart_of_le (by rw [ofMove]; dsimp only at hle ⊢; omega)

/-! ### The way to the client -/

/-- The URB of the client with what it has received for `urb`. -/
def received (urb u : Wire.Urb) : Wire.Urb :=
  { Wire.unpackRetSubmit (Wire.packRetSubmit urb) u with
    transferBuffer := Wire.storeMem u.transferBuffer (Wire.gatherPackets urb)
    isoFrameDesc := Wire.storeMem u.isoFrameDesc (Wire.readMem urb.isoFrameDesc 0 urb.packets) }

theorem InSlots.length_gatherPackets (h : InSlots urb) :
    (Wire.gatherPackets urb).length = urb.actualLength.toNat := by
  rw [gatherPackets_eq, Compaction.length_compact, used_slots]
  exact h.total

theorem InSlots.actualLength_lt (h : InSlots urb) : urb.actualLength.toNat < 2 ^ 31 := by
  have hle := h.inOrder.used_le
  rw [used_slots, h.total] at hle
  exact Nat.lt_of_le_of_lt (by omega) h.size_lt

/-- The payload is packed at the start of the buffer. -/
theorem packed_received (h : InSlots urb) (u : Wire.Urb) :
    Compaction.Packed (received urb u).transferBuffer urb.transferBuffer 0
      (slots urb.isoFrameDesc 0 urb.packets) := by
  refine Compaction.packed_of_compact fun i hi => ?_
  rw [used_slots, h.total, ← h.length_gatherPackets] at hi
  rw [← gatherPackets_eq, List.getElem?_eq_getElem hi, Nat.zero_add]
  exact congrArg some (List.getD_eq_getElem _ _ hi).symm

/-- What the client does with the packets that it has received. -/
theorem roundTrip_received (h : InSlots urb) (hu : CarriedOut u urb) :
    RoundTrip urb (received urb u) := by
  have hpacked := packed_received h u
  have hdescs : Wire.readMem (received urb u).isoFrameDesc 0 urb.packets =
      Wire.readMem urb.isoFrameDesc 0 urb.packets := by
    have hread := Wire.readMem_storeMem u.isoFrameDesc (Wire.readMem urb.isoFrameDesc 0 urb.packets)
    rwa [Wire.length_readMem] at hread
  have hisoc : (received urb u).isoc = true := by
    rw [← h.isoc, Wire.Urb.isoc, Wire.Urb.isoc, ← hu.type_eq]
    rfl
  have hpad : usbipPadIso (received urb u) =
      if urb.numberOfPackets = 0 ∨ urb.actualLength = 0 then []
      else if urb.actualLength = urb.transferBufferLength then []
      else padLoop (received urb u).isoFrameDesc (urb.packets - 1) urb.actualLength := by
    rw [usbipPadIso, hisoc, ← hu.length_eq]
    rfl
  have htotal :
      Compaction.used (slots urb.isoFrameDesc 0 urb.packets) = urb.actualLength.toNat := by
    rw [used_slots]
    exact h.total
  by_cases hnone : urb.numberOfPackets = 0 ∨ urb.actualLength = 0
  · rw [if_pos hnone] at hpad
    refine roundTrip_of_nil hdescs hpacked hpad fun s hs i hi => ?_
    -- no packet has any bytes
    have hused : Compaction.used (slots urb.isoFrameDesc 0 urb.packets) = 0 := by
      obtain hnp | hlen := hnone
      · rw [Wire.Urb.packets, hnp]
        rfl
      · rw [htotal, hlen]
        rfl
    have hle := Compaction.len_le_used hs
    omega
  rw [if_neg hnone] at hpad
  by_cases hfull : urb.actualLength = urb.transferBufferLength
  · rw [if_pos hfull] at hpad
    refine roundTrip_of_nil hdescs hpacked hpad (Compaction.restored_of_full h.inOrder ?_ hpacked)
    rw [htotal, Nat.zero_add, hfull]
  · rw [if_neg hfull] at hpad
    have hpos : urb.packets ≠ 0 := by
      rw [Wire.packets_eq h.packets_nonneg]
      exact fun hzero => hnone (.inl (BitVec.eq_of_toNat_eq (by simpa using hzero)))
    obtain ⟨n, hn⟩ : ∃ n, urb.packets = n + 1 := ⟨urb.packets - 1, by omega⟩
    refine roundTrip_of_moves h hn hdescs hpacked ?_
    have hsplit : slots urb.isoFrameDesc 0 urb.packets =
        slot (urb.isoFrameDesc 0) :: slots urb.isoFrameDesc 1 n := by rw [hn, slots_zero_succ]
    have hslots : slots (received urb u).isoFrameDesc 1 n = slots urb.isoFrameDesc 1 n := by
      have hboth : slots (received urb u).isoFrameDesc 0 urb.packets =
          slots urb.isoFrameDesc 0 urb.packets := by rw [slots, hdescs, slots]
      rw [hsplit, hn, slots_zero_succ] at hboth
      exact (List.cons.inj hboth).2
    have hlen : urb.actualLength.toNat = (urb.isoFrameDesc 0).actualLength.toNat +
        Compaction.used (slots (received urb u).isoFrameDesc 1 n) := by
      rw [hslots, ← htotal, hsplit, Compaction.used_cons]
      rfl
    have hoff : urb.actualLength = BitVec.ofNat 32 ((urb.isoFrameDesc 0).actualLength.toNat +
        Compaction.used (slots (received urb u).isoFrameDesc 1 n)) := by
      rw [← hlen, BitVec.ofNat_toNat, BitVec.setWidth_eq]
    have hlt := h.actualLength_lt
    rw [hpad, hn, Nat.add_sub_cancel, hoff, padLoop_eq (hlen ▸ hlt), hslots]

/-- `usbip_recv_iso` stores descriptors that add up. -/
theorem isoResult_ok {iso : List Wire.IsoPacketDescriptor}
    (hsum : (iso.map (·.actualLength)).sum = u.actualLength) (hisoc : u.isoc = true)
    (hnil : u.numberOfPackets = 0 → iso = []) :
    Wire.isoResult u iso = .ok { u with isoFrameDesc := Wire.storeMem u.isoFrameDesc iso } := by
  rw [Wire.isoResult]
  split
  · rw [Wire.storeIso, if_pos hsum]
  next hnp =>
    have hzero : u.numberOfPackets = 0 := by
      by_contra hne
      exact hnp ⟨hisoc, hne⟩
    rw [hnil hzero, Wire.storeMem_nil]

/-- The client reads what `stub_send_ret_submit` has gathered. -/
theorem recvBody_received {kzalloc : Wire.Allocator} (h : InSlots urb) (hu : CarriedOut u urb)
    (hrecv : kzalloc.ok (Wire.isoDescSize urb.numberOfPackets).toNat = true)
    (hpayload : Wire.retSubmitPayload urb = some (Wire.gatherPackets urb)) (rest : List Byte) :
    Wire.recvBody .vhci kzalloc (Wire.unpackRetSubmit (Wire.packRetSubmit urb) u)
        (Wire.gatherPackets urb ++
          (Wire.isoCodec.encodeAll (Wire.readMem urb.isoFrameDesc 0 urb.packets) ++ rest)) =
      some (.ok (received urb u), rest) := by
  have hisoc : u.isoc = true := by
    rw [← h.isoc, Wire.Urb.isoc, Wire.Urb.isoc, ← hu.type_eq]
  have hnonneg : 0 ≤ urb.actualLength.toInt := by
    have hlt := h.actualLength_lt
    rw [BitVec.toInt_eq_toNat_cond, if_pos (by omega)]
    exact Int.natCast_nonneg _
  have hcount : (Wire.readMem urb.isoFrameDesc 0 urb.packets).length =
      if (Wire.unpackRetSubmit (Wire.packRetSubmit urb) u).isoc then
        (Wire.unpackRetSubmit (Wire.packRetSubmit urb) u).packets else 0 := by
    rw [Wire.length_readMem]
    exact (if_pos hisoc).symm
  rw [Wire.recvBody_append (Wire.length_retSubmitPayload hu.isIn_eq hnonneg hpayload)
    h.packets_nonneg hcount (fun _ => hrecv)]
  refine congrArg (fun r => some (r, rest)) (isoResult_ok ?_ hisoc fun hnp => ?_)
  · exact Wire.sum_of_retSubmitPayload h.isoc h.isIn hpayload
  · have hnp : urb.numberOfPackets = 0 := hnp
    rw [Wire.Urb.packets, hnp]
    rfl

/-- **The round trip of isochronous packets.** What the server sends for a URB with its packets in
order, the client receives, and its transfer buffer has the packets in their places then. -/
theorem isoc_roundTrip {env : Wire.VhciEnv} {kzalloc : Wire.Allocator} {seqnum : BitVec 64}
    (h : InSlots urb) (hpend : env.pending (seqnum.setWidth 32) = some u) (hu : CarriedOut u urb)
    (hsent : kzalloc.ok (Wire.isoDescSize urb.numberOfPackets).toNat = true)
    (hrecv : env.kzalloc.ok (Wire.isoDescSize urb.numberOfPackets).toNat = true)
    (rest : List Byte) :
    ∃ pdu got, Wire.stubSendRetSubmit true kzalloc seqnum urb = some pdu ∧
      Wire.vhciRxPdu env (pdu.bytes ++ rest) = some (.retSubmit pdu.header got, rest) ∧
        RoundTrip urb got := by
  have hpayload : Wire.retSubmitPayload urb = some (Wire.gatherPackets urb) := by
    simp [Wire.retSubmitPayload, h.isIn, h.isoc, h.length_gatherPackets]
  have hiso : Wire.isoDescPdu kzalloc urb = some (Wire.readMem urb.isoFrameDesc 0 urb.packets) := by
    rw [Wire.isoDescPdu, if_pos h.isoc, Wire.usbipAllocIsoDescPdu, if_pos hsent]
  have hpdu : Wire.stubSendRetSubmit true kzalloc seqnum urb =
      some ⟨Wire.setupRetSubmitPdu seqnum urb, Wire.gatherPackets urb,
        Wire.readMem urb.isoFrameDesc 0 urb.packets⟩ := by
    rw [Wire.stubSendRetSubmit, hpayload, hiso]
    rfl
  refine ⟨_, received urb u, hpdu, ?_, roundTrip_received h hu⟩
  rw [Wire.Pdu.bytes, List.append_assoc, Wire.vhciRxPdu_encode]
  simp only [Wire.setupRetSubmitPdu, Wire.vhciRecvRetSubmit, hpend, List.append_assoc,
    recvBody_received h hu hrecv hpayload, Option.map_some]

/-- An isochronous URB with a buffer of twelve bytes for three packets, of which the second is
empty. -/
def spreadUrb : Wire.Urb where
  pipe := ⟨.isochronous, true, 1⟩
  transferFlags := 0
  transferBufferLength := 12
  startFrame := 0
  numberOfPackets := 3
  interval := 1
  status := 0
  actualLength := 4
  errorCount := 0
  setupPacket := none
  transferBuffer := fun i => BitVec.ofNat 8 i
  isoFrameDesc := fun i => ⟨BitVec.ofNat 32 (4 * i), 4, if i = 1 then 0 else 2, 0⟩

theorem spreadUrb_inSlots : InSlots spreadUrb := by
  have horder : ∀ i, i < 2 →
      (spreadUrb.isoFrameDesc i).offset.toNat + (spreadUrb.isoFrameDesc i).length.toNat ≤
        (spreadUrb.isoFrameDesc (i + 1)).offset.toNat := by decide
  refine ⟨rfl, rfl, by decide, by decide, by decide, fun i hi => ?_, by decide, by decide⟩
  exact horder i (Nat.lt_of_succ_lt_succ hi)

theorem isoc_roundTrip_spreadUrb :
    ∃ pdu got, Wire.stubSendRetSubmit true Wire.plenty 1 spreadUrb = some pdu ∧
      Wire.vhciRxPdu ⟨[(1, spreadUrb)], Wire.plenty⟩ (pdu.bytes ++ []) =
        some (.retSubmit pdu.header got, []) ∧ RoundTrip spreadUrb got :=
  isoc_roundTrip spreadUrb_inSlots rfl ⟨rfl, rfl, rfl⟩ (by decide) (by decide) []

end Usbip.Vhci
