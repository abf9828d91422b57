import Usbip.Wire.Pdu
import Mathlib.Tactic.Common

/-!
# What the lengths on the wire touch

The lengths, counts and offsets of a PDU come from the other end. This module has what both
kernel ends share: ranges of a buffer, and the packet descriptors that `usbip_recv_iso` reads.
`number_of_packets * 16` is computed in 64 bits and stored in an `int`, so that a count of
`2 ^ 28` and more may stand for fewer bytes than the loop over the descriptors will use. Such a
loop reads past its buffer; here it reads zeros there.
-/

namespace Usbip.Wire

open Framing

/-- `len` bytes from `off` on, seen from the start of a buffer. -/
structure Range where
  off : ℤ
  len : ℕ
  deriving DecidableEq, Repr

/-- A buffer of `size` bytes contains the range. -/
def Range.Within (r : Range) (size : ℕ) : Prop := r.len = 0 ∨ 0 ≤ r.off ∧ r.off + r.len ≤ size

instance (r : Range) (size : ℕ) : Decidable (r.Within size) := by
  unfold Range.Within
  infer_instance

/-! ### Packet descriptors -/

/-- The descriptors that `usbip_recv_iso` has read when it comes to its loop; `none` when it
returns before that. -/
def recvIsoBuff (kzalloc : Allocator) (urb : Urb) (stream : List Byte) :
    Option (List IsoPacketDescriptor) :=
  if !urb.isoc then none
  else if urb.numberOfPackets = 0 then none
  else
    let size := urb.numberOfPackets * 16
    if !kzalloc.ok (size.signExtend 64).toNat then none
    else if size = 0 then none
    else (recv size.toNat stream).map fun r => isoCodec.decodeAll urb.packets r.1

/-- There is memory for the descriptors of `np` packets, and they all arrive. -/
def DescsArrive (kzalloc : Allocator) (np : BitVec 32) (stream : List Byte) : Prop :=
  kzalloc.ok ((np * 16).signExtend 64).toNat = true ∧ np * 16 ≠ 0 ∧ (np * 16).toNat ≤ stream.length

/-- The descriptors at the front of the stream. -/
def descs (np : BitVec 32) (stream : List Byte) : List IsoPacketDescriptor :=
  isoCodec.decodeAll np.toInt.toNat (stream.take (np * 16).toNat)

/-- The lengths of the packets add up. -/
def AddUp (iso : List IsoPacketDescriptor) (length : BitVec 32) : Prop :=
  (iso.map (·.actualLength)).sum = length

instance (kzalloc : Allocator) (np : BitVec 32) (stream : List Byte) :
    Decidable (DescsArrive kzalloc np stream) := by
  unfold DescsArrive
  infer_instance

instance (iso : List IsoPacketDescriptor) (length : BitVec 32) : Decidable (AddUp iso length) := by
  unfold AddUp
  infer_instance

variable {kzalloc : Allocator} {urb : Urb} {stream : List Byte}

theorem recvIsoBuff_eq_some_iff {iso : List IsoPacketDescriptor} :
    recvIsoBuff kzalloc urb stream = some iso ↔
      urb.isoc = true ∧ urb.numberOfPackets ≠ 0 ∧
        DescsArrive kzalloc urb.numberOfPackets stream ∧
          iso = descs urb.numberOfPackets stream := by
  rw [recvIsoBuff, DescsArrive, descs]
  by_cases hisoc : urb.isoc = true
  swap
  · simp [hisoc]
  by_cases hnp : urb.numberOfPackets = 0
  · simp [hnp]
  rw [if_neg (by simp [hisoc]), if_neg hnp]
  dsimp only
  change _ ↔ _ ∧ _ ∧ _ ∧ iso = isoCodec.decodeAll urb.packets _
  generalize urb.numberOfPackets * 16 = size
  by_cases halloc : kzalloc.ok (size.signExtend 64).toNat = true
  swap
  · simp [halloc]
  by_cases hsize : size = 0
  · rw [if_neg (by simp [halloc]), if_pos hsize]
    exact iff_of_false (by simp) fun h => h.2.2.1.2.1 hsize
  rw [if_neg (by simp [halloc]), if_neg hsize, recv]
  by_cases hlen : size.toNat ≤ stream.length
  · rw [if_pos hlen, Option.map_some, Option.some_inj]
    exact ⟨fun h => ⟨hisoc, hnp, ⟨halloc, hsize, hlen⟩, h.symm⟩, fun h => h.2.2.2.symm⟩
  · rw [if_neg hlen]
    exact iff_of_false (by simp) fun h => hlen h.2.2.1.2.2

/-- The loop over the descriptors stores them, and their lengths decide the result. -/
theorem usbipRecvIso_of_recvIsoBuff {iso : List IsoPacketDescriptor}
    (h : recvIsoBuff kzalloc urb stream = some iso) :
    usbipRecvIso kzalloc urb stream =
      some (storeIso urb iso, stream.drop (urb.numberOfPackets * 16).toNat) := by
  obtain ⟨hisoc, hnp, ⟨halloc, hsize, hlen⟩, rfl⟩ := recvIsoBuff_eq_some_iff.mp h
  rw [usbipRecvIso, if_neg (by simp [hisoc]), if_neg hnp]
  dsimp only
  rw [if_neg (by simp only [halloc, Bool.not_true, Bool.false_eq_true, not_false_eq_true]),
    if_neg hsize, recv, if_pos hlen]
  rfl

/-- Without the loop, `usbip_recv_iso` succeeds only when there is nothing to read. -/
theorem usbipRecvIso_of_recvIsoBuff_eq_none (h : recvIsoBuff kzalloc urb stream = none)
    {urb' : Urb} {rest : List Byte} :
    usbipRecvIso kzalloc urb stream = some (.ok urb', rest) ↔
      (urb.isoc = true → urb.numberOfPackets = 0) ∧ urb' = urb ∧ rest = stream := by
  rw [recvIsoBuff] at h
  rw [usbipRecvIso]
  have hskip : some (Except.ok (ε := RecvError) urb, stream) = some (.ok urb', rest) ↔
      urb' = urb ∧ rest = stream := by
    rw [Option.some_inj, Prod.mk.injEq, Except.ok.injEq]
    exact and_congr eq_comm eq_comm
  by_cases hisoc : urb.isoc = true
  swap
  · rw [if_pos (by simpa using hisoc), hskip]
    exact (and_iff_right fun h => absurd h hisoc).symm
  by_cases hnp : urb.numberOfPackets = 0
  · rw [if_neg (by simp [hisoc]), if_pos hnp, hskip]
    exact (and_iff_right fun _ => hnp).symm
  rw [if_neg (by simp [hisoc]), if_neg hnp] at h ⊢
  dsimp only at h ⊢
  refine iff_of_false (fun hok => ?_) fun hzero => hnp (hzero.1 hisoc)
  generalize urb.numberOfPackets * 16 = size at h hok
  split at hok
  · simp at hok
  next halloc =>
  split at hok
  · simp at hok
  next hsize =>
    rw [if_neg halloc, if_neg hsize, Option.map_eq_none_iff] at h
    simp [h] at hok

/-- `usbip_recv_iso` succeeds when there is nothing to read, or the descriptors arrive and add
up. -/
theorem usbipRecvIso_ok_iff :
    (∃ urb' rest, usbipRecvIso kzalloc urb stream = some (.ok urb', rest)) ↔
      (urb.isoc = true → urb.numberOfPackets ≠ 0 →
        DescsArrive kzalloc urb.numberOfPackets stream ∧
          AddUp (descs urb.numberOfPackets stream) urb.actualLength) := by
  cases hbuff : recvIsoBuff kzalloc urb stream with
  | none =>
    have hnone : urb.isoc = true → urb.numberOfPackets ≠ 0 →
        ¬ DescsArrive kzalloc urb.numberOfPackets stream := by
      intro hisoc hnp harrive
      have := recvIsoBuff_eq_some_iff.mpr ⟨hisoc, hnp, harrive, rfl⟩
      simp [hbuff] at this
    simp only [usbipRecvIso_of_recvIsoBuff_eq_none hbuff]
    refine ⟨fun ⟨_, _, hzero, _⟩ hisoc hnp => absurd (hzero hisoc) hnp, fun h => ?_⟩
    refine ⟨urb, stream, fun hisoc => ?_, rfl, rfl⟩
    by_contra hnp
    exact hnone hisoc hnp (h hisoc hnp).1
  | some iso =>
    obtain ⟨hisoc, hnp, harrive, rfl⟩ := recvIsoBuff_eq_some_iff.mp hbuff
    rw [usbipRecvIso_of_recvIsoBuff hbuff, storeIso]
    split
    next hsum => exact iff_of_true ⟨_, _, rfl⟩ fun _ _ => ⟨harrive, hsum⟩
    next hsum => exact iff_of_false (by simp) fun h => hsum (h hisoc hnp).2

/-- The URB that `usbip_recv_iso` leaves. -/
theorem eq_of_usbipRecvIso {urb' : Urb} {rest : List Byte}
    (h : usbipRecvIso kzalloc urb stream = some (.ok urb', rest)) :
    urb' = if urb.isoc = true ∧ urb.numberOfPackets ≠ 0 then
        { urb with isoFrameDesc := storeMem urb.isoFrameDesc (descs urb.numberOfPackets stream) }
      else urb := by
  cases hbuff : recvIsoBuff kzalloc urb stream with
  | none =>
    obtain ⟨hzero, rfl, -⟩ := (usbipRecvIso_of_recvIsoBuff_eq_none hbuff).mp h
    exact (if_neg fun h => h.2 (hzero h.1)).symm
  | some iso =>
    obtain ⟨hisoc, hnp, -, rfl⟩ := recvIsoBuff_eq_some_iff.mp hbuff
    rw [usbipRecvIso_of_recvIsoBuff hbuff, storeIso] at h
    rw [if_pos ⟨hisoc, hnp⟩]
    split at h
    · simp only [Option.some.injEq, Prod.mk.injEq, Except.ok.injEq] at h
      exact h.1.symm
    · simp at h

end Usbip.Wire
