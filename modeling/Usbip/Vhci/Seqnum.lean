import Usbip.Vhci.Port
import Mathlib.Tactic.Common

/-!
# Sequence numbers on the wire

`vhci_tx_urb` and `vhci_urb_dequeue` number their requests with
`atomic_inc_return(&the_controller->seqnum)`, a 32-bit `int`, and keep the number in an
`unsigned long`. The header field is 32 bits wide, a server echoes it, and
`pickup_urb_and_free_priv` and `dequeue_pending_unlink` compare the echo, as an unsigned
32-bit number, with the stored one. The conversion into `unsigned long` extends the sign and
the comparison does not, so the two agree exactly while the `int` is not negative
(`toULong_eq_echo_iff`): from request `2 ^ 31` on, and for the `2 ^ 31` requests after it, a
correct reply is not recognised (`reply_finds_request_iff`).
-/

namespace Usbip.Vhci

open ListWalk

namespace Port

/-- `pdup->base.seqnum = priv->seqnum` and `pdu_header.base.seqnum = unlink->seqnum`: the
header field keeps the low 32 bits. A server returns the field as it is. -/
def wireSeqnum (n : BitVec 64) : BitVec 32 := n.setWidth 32

/-- Truncation undoes the conversion to `unsigned long`. -/
@[simp] theorem wireSeqnum_toULong (n : BitVec 32) : wireSeqnum (toULong n) = n := by
  apply BitVec.eq_of_getLsbD_eq
  intro i hi
  have h64 : i < 64 := by omega
  simp [wireSeqnum, toULong, BitVec.getElem_signExtend, hi, h64]

/-- The stored number and the widened echo agree exactly when the `int` is not negative. -/
theorem toULong_eq_echo_iff (n : BitVec 32) :
    toULong n = (wireSeqnum (toULong n)).setWidth 64 ↔ 0 ≤ n.toInt := by
  rw [wireSeqnum_toULong, toULong]
  constructor
  · intro h
    have hmsb : (n.signExtend 64).msb = (n.setWidth 64).msb := by rw [h]
    refine BitVec.toInt_nonneg_of_msb_false ?_
    simpa [BitVec.msb_signExtend, BitVec.msb_setWidth] using hmsb
  · intro h
    refine BitVec.signExtend_eq_setWidth_of_msb_false ?_
    rw [BitVec.msb_eq_toInt]
    simpa using h

/-- `pickup_urb_and_free_priv` recognises an entry of `priv_rx` by its stored number. -/
theorem pickupUrbAndFreePriv_isSome {t : Port} {q : BitVec 32} :
    (t.pickupUrbAndFreePriv q).isSome ↔ ∃ p ∈ t.privRx, p.seqnum = q.setWidth 64 := by
  rw [pickupUrbAndFreePriv, Option.isSome_map, findSplit_isSome]
  simp only [beq_iff_eq]

/-- `dequeue_pending_unlink` recognises an entry of `unlink_rx` by its stored number. -/
theorem dequeuePendingUnlink_isSome {t : Port} {q : BitVec 32} :
    (t.dequeuePendingUnlink q).isSome ↔ ∃ u ∈ t.unlinkRx, u.seqnum = q.setWidth 64 := by
  rw [dequeuePendingUnlink, Option.isSome_map, findSplit_isSome]
  simp only [beq_iff_eq]

/-- A new entry of `priv_tx` carries the number the counter gave. -/
theorem seqnum_of_vhciTxUrb {s : Port} {urb : Urb} {p : VhciPriv}
    (hp : p ∈ (s.vhciTxUrb urb true).privTx) (hnew : p ∉ s.privTx) :
    p.seqnum = toULong s.atomicIncReturn := by
  rw [vhciTxUrb] at hp
  split at hp
  · exact absurd hp hnew
  · obtain hp | rfl : p ∈ s.privTx ∨ p = _ := by simpa using hp
    · exact absurd hp hnew
    · rfl

/-- A new entry of `unlink_tx` carries the number the counter gave. -/
theorem seqnum_of_vhciUrbDequeue {s s' : Port} {urb : ℕ} {u : VhciUnlink}
    (h : s.vhciUrbDequeue urb 0 true = some s') (hu : u ∈ s'.unlinkTx)
    (hnew : u ∉ s.unlinkTx) : u.seqnum = toULong s.atomicIncReturn := by
  rw [vhciUrbDequeue] at h
  split at h
  · obtain rfl : s = s' := by simpa using h
    exact absurd hu hnew
  · simp only [ne_eq, not_true_eq_false, if_false, Bool.not_true, Bool.false_eq_true] at h
    split at h
    · obtain rfl : _ = s' := by simpa using h
      exact absurd hu hnew
    · obtain ⟨p, -, rfl⟩ := Option.map_eq_some_iff.mp h
      obtain hu | rfl : u ∈ s.unlinkTx ∨ u = _ := by simpa using hu
      · exact absurd hu hnew
      · rfl

end Port

open Port

/-- The reply to a request numbered while the controller's counter stands at `n` finds it:
whichever port the entry is pending on and whatever else is pending there, the echo of a new
`vhci_priv` is recognised by `pickup_urb_and_free_priv`, and the echo of a new `vhci_unlink`
by `dequeue_pending_unlink`. -/
def ReplyFindsRequest (n : BitVec 32) : Prop :=
  (∀ (s t : Port) (urb : Urb) (p : VhciPriv), s.seqnum = n →
    p ∈ (s.vhciTxUrb urb true).privTx → p ∉ s.privTx → p ∈ t.privRx →
    (t.pickupUrbAndFreePriv (wireSeqnum p.seqnum)).isSome) ∧
  (∀ (s s' t : Port) (urb : ℕ) (u : VhciUnlink), s.seqnum = n →
    s.vhciUrbDequeue urb 0 true = some s' → u ∈ s'.unlinkTx → u ∉ s.unlinkTx →
    u ∈ t.unlinkRx → (t.dequeuePendingUnlink (wireSeqnum u.seqnum)).isSome)

/-- A number that is negative as an `int` is not recognised, even when its request is the only
one pending. -/
theorem not_replyFindsRequest_of_negative {n : BitVec 32} (h : (n + 1).toInt < 0) :
    ¬ ReplyFindsRequest n := by
  rintro ⟨hpriv, -⟩
  let urb : Urb := ⟨0, 0, einprogress, 1, false, none⟩
  let p : VhciPriv := ⟨0, toULong (n + 1), 0⟩
  have hfound := hpriv (attached n (some 0)) { attached n (some 0) with privRx := [p] } urb p
    rfl (by simp [vhciTxUrb, attached, atomicIncReturn, urb, p]) (by simp [attached]) (by simp)
  obtain ⟨p', hp', heq⟩ := pickupUrbAndFreePriv_isSome.mp hfound
  obtain rfl : p' = p := by simpa using hp'
  have hnn := (toULong_eq_echo_iff (n + 1)).mp heq
  omega

/-- **A correct reply finds its request exactly when the number, as an `int`, is not
negative.** -/
theorem reply_finds_request_iff (n : BitVec 32) :
    ReplyFindsRequest n ↔ 0 ≤ (n + 1).toInt := by
  constructor
  · intro h
    by_contra hneg
    exact not_replyFindsRequest_of_negative (by omega) h
  · intro h
    have hecho := (toULong_eq_echo_iff (n + 1)).mpr h
    refine ⟨fun s t urb p hn hp hnew ht => ?_, fun s s' t urb u hn hs hu hnew ht => ?_⟩
    · have hq := seqnum_of_vhciTxUrb hp hnew
      rw [atomicIncReturn, hn] at hq
      exact pickupUrbAndFreePriv_isSome.mpr ⟨p, ht, by rw [hq]; exact hecho⟩
    · have hq := seqnum_of_vhciUrbDequeue hs hu hnew
      rw [atomicIncReturn, hn] at hq
      exact dequeuePendingUnlink_isSome.mpr ⟨u, ht, by rw [hq]; exact hecho⟩

/-- After `2 ^ 31 - 1` requests the next one is numbered `-2 ^ 31`, and the reply to it is not
found. -/
theorem not_replyFindsRequest_at_wrap : ¬ ReplyFindsRequest 0x7fffffff#32 :=
  not_replyFindsRequest_of_negative (by decide)

end Usbip.Vhci
