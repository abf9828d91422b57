import Usbip.Vhci.Port
import Mathlib.Tactic.Common

/-!
# The order of CMD_SUBMIT and CMD_UNLINK on the wire

`vhci_tx_loop` empties `priv_tx` before `unlink_tx`, so that the server hears of a URB before
it is asked to unlink it. Between the two loops nothing is locked: a URB that is enqueued
after `priv_tx` was found empty and dequeued before `unlink_tx` is found empty has its
CMD_UNLINK written first (`unlink_overtakes_submit`). The server then answers that the URB is
not in submission, the client retires it on that answer, and the RET_SUBMIT that follows
matches no request.

The condition `DequeueInOrder` excludes exactly such dequeues. Under it every queued unlink
has its CMD_SUBMIT ahead of it (`TxInv`): already written, about to be written, or still on
`priv_tx` while the thread has yet to empty that queue.
-/

namespace Usbip.Vhci

open Trace

/-- The transmit thread is in `vhci_send_cmd_unlink`. -/
def TxPc.unlinking : TxPc → Bool
  | .unlinkLoop | .sendUnlink _ => true
  | _ => false

/-- `u` asks the server to unlink the request `p`. -/
def UnlinkOf (u : VhciUnlink) (p : VhciPriv) : Prop :=
  p.id = u.target ∧ p.seqnum = u.unlinkSeqnum

/-- A CMD_UNLINK comes after the CMD_SUBMIT of its target. -/
def SubmitFirst (pre : List CmdPdu) (e : CmdPdu) : Prop :=
  ∀ u, e = .cmdUnlink u → ∃ p, UnlinkOf u p ∧ .cmdSubmit p ∈ pre

/-- While the transmit thread empties `unlink_tx`, no unlink is queued for a URB whose request
is still on `priv_tx`. -/
def DequeueInOrder (s : Port) : Act → Prop
  | .dequeue urb checkRet alloc => checkRet = 0 → alloc = true → s.tx.unlinking = true →
      ∀ p ∈ s.privTx, s.hcpriv urb ≠ some p.id
  | _ => True

instance (s : Port) (a : Act) : Decidable (DequeueInOrder s a) := by
  cases a <;> dsimp only [DequeueInOrder] <;> infer_instance

namespace Port

/-- The CMD_SUBMIT of `p` has left `priv_tx`. -/
def Taken (s : Port) (p : VhciPriv) : Prop := .cmdSubmit p ∈ s.wire ∨ s.tx = .sendSubmit p

/-- The CMD_SUBMIT of `p` will be written before `unlink_tx` is served again. -/
def Ahead (s : Port) (p : VhciPriv) : Prop :=
  s.Taken p ∨ p ∈ s.privTx ∧ s.tx.unlinking = false

end Port

/-- The invariant of the transmit thread. What is on the queues matters only as long as the
thread runs. -/
structure TxInv (s : Port) : Prop where
  wire : Historical SubmitFirst s.wire
  closed : s.tcpSocket = false → s.tx = .stopped
  taken : s.tx ≠ .stopped → ∀ p ∈ s.privRx, s.Taken p
  queued : s.tx ≠ .stopped → ∀ u ∈ s.unlinkTx, ∃ p, UnlinkOf u p ∧ s.Ahead p
  current : ∀ u, s.tx = .sendUnlink u → ∃ p, UnlinkOf u p ∧ .cmdSubmit p ∈ s.wire

namespace TxInv

variable {s s' : Port}

/-- Once the thread has stopped, nothing is written any more. -/
theorem stopped (hwire : Historical SubmitFirst s.wire) (htx : s.tx = .stopped) : TxInv s where
  wire := hwire
  closed _ := htx
  taken h := absurd htx h
  queued h := absurd htx h
  current u h := by simp [htx] at h

/-- A step of another context may link requests to `priv_tx`, and remove entries from
`priv_rx` and `unlink_tx`. -/
theorem mono (h : TxInv s) (hwire : s'.wire = s.wire) (htx : s'.tx = s.tx)
    (hsock : s'.tcpSocket = s.tcpSocket) (hrx : s'.privRx ⊆ s.privRx)
    (hun : s'.unlinkTx ⊆ s.unlinkTx) (hptx : s.privTx ⊆ s'.privTx) : TxInv s' := by
  have htaken : ∀ p, s.Taken p → s'.Taken p := fun p hp => by
    rwa [Port.Taken, hwire, htx]
  refine ⟨by rw [hwire]; exact h.wire, by rw [hsock, htx]; exact h.closed,
    fun hs p hp => htaken p (h.taken (htx ▸ hs) p (hrx hp)), fun hs u hu => ?_,
    fun u hu => by rw [hwire]; exact h.current u (htx ▸ hu)⟩
  obtain ⟨p, hup, hp⟩ := h.queued (htx ▸ hs) u (hun hu)
  refine ⟨p, hup, hp.imp (htaken p) fun hp => ?_⟩
  rw [htx]
  exact ⟨hptx hp.1, hp.2⟩

/-- A step that touches neither the thread nor the queues. -/
theorem frame (h : TxInv s) (hwire : s'.wire = s.wire) (htx : s'.tx = s.tx)
    (hsock : s'.tcpSocket = s.tcpSocket) (hrx : s'.privRx = s.privRx)
    (hun : s'.unlinkTx = s.unlinkTx) (hptx : s'.privTx = s.privTx) : TxInv s' :=
  h.mono hwire htx hsock (hrx ▸ List.Subset.refl _) (hun ▸ List.Subset.refl _)
    (hptx ▸ List.Subset.refl _)

/-- The thread is somewhere else than before a write, so what was taken is written. -/
theorem mem_wire_of_taken {p : VhciPriv} (hp : s.Taken p) (htx : ∀ q, s.tx ≠ .sendSubmit q) :
    .cmdSubmit p ∈ s.wire :=
  hp.resolve_right (htx p)

/-- While the thread empties `unlink_tx`, what is ahead is written. -/
theorem mem_wire_of_ahead {p : VhciPriv} (hp : s.Ahead p) (htx : s.tx.unlinking = true) :
    .cmdSubmit p ∈ s.wire := by
  rcases hp with hp | ⟨-, hp⟩
  · refine mem_wire_of_taken hp fun q hq => ?_
    simp [hq, TxPc.unlinking] at htx
  · simp [htx] at hp

/-! ### The steps keep the invariant -/

theorem vhciTxUrb (h : TxInv s) (urb : Urb) (alloc : Bool) : TxInv (s.vhciTxUrb urb alloc) := by
  rw [Port.vhciTxUrb]
  split
  · exact h
  split
  · exact h.frame rfl rfl rfl rfl rfl rfl
  · exact h.mono rfl rfl rfl (List.Subset.refl _) (List.Subset.refl _)
      (List.subset_append_left _ _)

theorem vhciUrbEnqueue (h : TxInv s) (urb : Urb) (linkRet : ℤ) (alloc : Bool) :
    TxInv (s.vhciUrbEnqueue urb linkRet alloc).2 := by
  have hacc : TxInv (s.accept urb) := h.frame rfl rfl rfl rfl rfl rfl
  have hudev : TxInv ((s.accept urb).setUdev urb) := hacc.frame rfl rfl rfl rfl rfl rfl
  exact Port.vhciUrbEnqueue_cases h (hacc.frame rfl rfl rfl rfl rfl rfl)
    (hacc.frame rfl rfl rfl rfl rfl rfl) (hudev.vhciTxUrb urb alloc) (hacc.vhciTxUrb urb alloc)
    linkRet

/-- The one step that needs the condition: the request of the new unlink has been taken off
`priv_tx`, or the thread will take it before it serves `unlink_tx` again. -/
theorem linkUnlink (h : TxInv s) {urb id : ℕ} {p : VhciPriv} {q : BitVec 32}
    (hok : DequeueInOrder s (.dequeue urb 0 true)) (hid : s.hcpriv urb = some id)
    (hfind : s.privs.find? (fun p => p.id == id) = some p) :
    TxInv { s with
      seqnum := q
      unlinkTx := s.unlinkTx ++ [⟨Port.toULong q, p.seqnum, id⟩] } := by
  have hpid : p.id = id := by simpa using List.find?_some hfind
  refine ⟨h.wire, h.closed, h.taken, fun hrun u hu => ?_, h.current⟩
  rcases List.mem_append.mp hu with hu | hu
  · exact h.queued hrun u hu
  obtain rfl := List.mem_singleton.mp hu
  refine ⟨p, ⟨hpid, rfl⟩, ?_⟩
  rcases List.mem_append.mp (List.mem_of_find?_eq_some hfind) with hp | hp
  · refine Or.inr ⟨hp, ?_⟩
    refine Bool.eq_false_iff.mpr fun htx => ?_
    exact hok rfl rfl htx p hp (by rw [hid, hpid])
  · exact Or.inl (h.taken hrun p hp)

/-- A thread that is not about to write has written what it has taken. -/
theorem advance (h : TxInv s) {tx : TxPc} (hrun : s.tx ≠ .stopped)
    (hsend : ∀ q, s.tx ≠ .sendSubmit q) (hsend' : ∀ u, tx ≠ .sendUnlink u)
    (hun : tx.unlinking = true → s.tx.unlinking = true ∨ s.privTx = []) :
    TxInv { s with tx := tx } := by
  have hwritten : ∀ p, s.Taken p → .cmdSubmit p ∈ s.wire := fun p hp =>
    mem_wire_of_taken hp hsend
  refine ⟨h.wire, fun hsock => absurd (h.closed hsock) hrun,
    fun _ p hp => Or.inl (hwritten p (h.taken hrun p hp)), fun _ u hu => ?_,
    fun u hu => absurd hu (hsend' u)⟩
  obtain ⟨p, hup, hp⟩ := h.queued hrun u hu
  refine ⟨p, hup, ?_⟩
  rcases hp with hp | ⟨hp, htx⟩
  · exact Or.inl (Or.inl (hwritten p hp))
  · refine Or.inr ⟨hp, Bool.eq_false_iff.mpr fun hun' => ?_⟩
    rcases hun hun' with hun | hempty
    · simp [htx] at hun
    · simp [hempty] at hp

/-- The thread takes an entry of `priv_tx`. -/
theorem takeSubmit (h : TxInv s) {q : VhciPriv} {rest : List VhciPriv}
    (htx : s.tx = .submitLoop) (hq : s.privTx = q :: rest) :
    TxInv { s with privTx := rest, privRx := s.privRx ++ [q], tx := .sendSubmit q } := by
  have hrun : s.tx ≠ .stopped := by simp [htx]
  have hwritten : ∀ p, s.Taken p → .cmdSubmit p ∈ s.wire := fun p hp =>
    mem_wire_of_taken hp (by simp [htx])
  refine ⟨h.wire, fun hsock => absurd (h.closed hsock) hrun, fun _ p hp => ?_, fun _ u hu => ?_,
    fun u hu => by simp at hu⟩
  · rcases List.mem_append.mp hp with hp | hp
    · exact Or.inl (hwritten p (h.taken hrun p hp))
    · obtain rfl := List.mem_singleton.mp hp
      exact Or.inr rfl
  · obtain ⟨p, hup, hp⟩ := h.queued hrun u hu
    refine ⟨p, hup, ?_⟩
    rcases hp with hp | ⟨hp, -⟩
    · exact Or.inl (Or.inl (hwritten p hp))
    rcases List.mem_cons.mp (hq ▸ hp) with rfl | hp
    · exact Or.inl (Or.inr rfl)
    · exact Or.inr ⟨hp, rfl⟩

theorem submitSent (h : TxInv s) {q : VhciPriv} (htx : s.tx = .sendSubmit q) :
    TxInv { s with wire := s.wire ++ [.cmdSubmit q], tx := .submitLoop } := by
  have hrun : s.tx ≠ .stopped := by simp [htx]
  have hwritten : ∀ p, s.Taken p → .cmdSubmit p ∈ s.wire ++ [.cmdSubmit q] := by
    rintro p (hp | hp)
    · exact List.mem_append_left _ hp
    · obtain rfl : q = p := by simpa [htx] using hp
      simp
  refine ⟨historical_concat.mpr ⟨h.wire, fun u hu => by simp at hu⟩,
    fun hsock => absurd (h.closed hsock) hrun,
    fun _ p hp => Or.inl (hwritten p (h.taken hrun p hp)), fun _ u hu => ?_,
    fun u hu => by simp at hu⟩
  obtain ⟨p, hup, hp⟩ := h.queued hrun u hu
  exact ⟨p, hup, hp.imp (fun hp => Or.inl (hwritten p hp)) fun hp => ⟨hp.1, rfl⟩⟩

/-- The thread takes an entry of `unlink_tx`; the CMD_SUBMIT that it names is written. -/
theorem takeUnlink (h : TxInv s) {v : VhciUnlink} {rest : List VhciUnlink}
    (htx : s.tx = .unlinkLoop) (hv : s.unlinkTx = v :: rest) :
    TxInv { s with unlinkTx := rest, unlinkRx := s.unlinkRx ++ [v], tx := .sendUnlink v } := by
  have hrun : s.tx ≠ .stopped := by simp [htx]
  have hwritten : ∀ u ∈ s.unlinkTx, ∃ p, UnlinkOf u p ∧ .cmdSubmit p ∈ s.wire := by
    intro u hu
    obtain ⟨p, hup, hp⟩ := h.queued hrun u hu
    exact ⟨p, hup, mem_wire_of_ahead hp (by simp [htx, TxPc.unlinking])⟩
  refine ⟨h.wire, fun hsock => absurd (h.closed hsock) hrun, fun _ p hp => Or.inl ?_,
    fun _ u hu => ?_, fun u hu => ?_⟩
  · exact mem_wire_of_taken (s := s) (h.taken hrun p hp) (by simp [htx])
  · obtain ⟨p, hup, hp⟩ := hwritten u (hv ▸ List.mem_cons_of_mem _ hu)
    exact ⟨p, hup, Or.inl (Or.inl hp)⟩
  · obtain rfl : v = u := by simpa using hu
    exact hwritten v (hv ▸ List.mem_cons_self)

theorem unlinkSent (h : TxInv s) {v : VhciUnlink} (htx : s.tx = .sendUnlink v) :
    TxInv { s with wire := s.wire ++ [.cmdUnlink v], tx := .unlinkLoop } := by
  have hrun : s.tx ≠ .stopped := by simp [htx]
  have hwire : Historical SubmitFirst (s.wire ++ [.cmdUnlink v]) := by
    refine historical_concat.mpr ⟨h.wire, fun u hu => ?_⟩
    obtain rfl : v = u := by simpa using hu
    exact h.current v htx
  refine ⟨hwire, fun hsock => absurd (h.closed hsock) hrun, fun _ p hp => Or.inl ?_,
    fun _ u hu => ?_, fun u hu => by simp at hu⟩
  · exact List.mem_append_left _ (mem_wire_of_taken (h.taken hrun p hp) (by simp [htx]))
  · obtain ⟨p, hup, hp⟩ := h.queued hrun u hu
    have hp := mem_wire_of_ahead hp (by simp [htx, TxPc.unlinking])
    exact ⟨p, hup, Or.inl (Or.inl (List.mem_append_left _ hp))⟩

/-- Taking an entry off `priv_rx`. -/
theorem pickup (h : TxInv s) {q : BitVec 32} {urb : ℕ}
    (hp : s.pickupUrbAndFreePriv q = some (urb, s')) : TxInv s' := by
  obtain ⟨l₁, p, l₂, hl, -, rfl⟩ := Port.pickupUrbAndFreePriv_eq_some hp
  refine h.mono rfl rfl rfl ?_ (List.Subset.refl _) (List.Subset.refl _)
  simp [hl]

theorem unlinkCleanupLoop (us : List VhciUnlink) (h : TxInv s) :
    TxInv (Port.unlinkCleanupLoop us s) :=
  Port.unlinkCleanupLoop_cases (h.frame rfl rfl rfl rfl rfl rfl)
    (fun _ _ _ _ hp => (h.pickup hp).frame rfl rfl rfl rfl rfl rfl) us

/-- Every step that meets the condition keeps the invariant. -/
theorem step (h : TxInv s) {a : Act} (hok : DequeueInOrder s a) (hs : s.step a = some s') :
    TxInv s' := by
  cases Port.moves_of_step hs with
  | enqueue hout linkRet alloc => exact h.vhciUrbEnqueue _ linkRet alloc
  | dequeueGone | dequeueRefused | retUnlinkUnknown => exact h
  | dequeueClosed hid hsocket alloc => exact stopped h.wire (h.closed hsocket)
  | dequeueLinked hid hsocket hp => exact h.linkUnlink hok hid hp
  | dequeueFailed | callerGiveback | retSubmitUnknown | payload | payloadFailed | pickupNone
  | rxGiveback | rxStop | shutdown | cleanupGiveback => exact h.frame rfl rfl rfl rfl rfl rfl
  | submitsDone htx hempty =>
    exact h.advance (by simp [htx]) (by simp [htx]) (by simp) fun _ => Or.inr hempty
  | submitTaken htx hp => exact h.takeSubmit htx hp
  | submitSent htx => exact h.submitSent htx
  | submitUnsent | unlinkUnsent | txStop => exact stopped h.wire rfl
  | unlinksDone htx hempty | txWake htx hwork =>
    exact h.advance (by simp [htx]) (by simp [htx]) (by simp)
      fun hun => by simp [TxPc.unlinking] at hun
  | unlinkTaken htx hu => exact h.takeUnlink htx hu
  | unlinkSent htx => exact h.unlinkSent htx
  | retSubmit hrx hpick status | pickup hrx hpick =>
    exact (h.pickup hpick).frame rfl rfl rfl rfl rfl rfl
  | retUnlink hrx hun status =>
    obtain ⟨l₁, l₂, -, rfl⟩ := Port.dequeuePendingUnlink_eq_some hun
    exact h.frame rfl rfl rfl rfl rfl rfl
  | releaseSocket hshut htx hrx => exact stopped h.wire htx
  | cleanup hshut =>
    have hdrop : TxInv { s with unlinkTx := [] } :=
      h.mono rfl rfl rfl (List.Subset.refl _) (List.nil_subset _) (List.Subset.refl _)
    exact hdrop.unlinkCleanupLoop _
  | cleanupOn hshut => exact h.unlinkCleanupLoop _

/-- The invariant holds in every state reached by steps that meet the condition. -/
theorem of_reachableWhere {seqnum : BitVec 32} {udev : Option ℕ}
    (h : (vhciPort seqnum udev).ReachableWhere DequeueInOrder s) : TxInv s := by
  refine h.invariant ⟨?_, ?_, ?_, ?_, ?_⟩ fun s a s' hs hok hstep => hs.step hok hstep
  all_goals simp [vhciPort, attached]

end TxInv

/-! ### The order on the wire -/

/-- **As long as no URB is dequeued between the two loops, a CMD_UNLINK follows its
CMD_SUBMIT**, in every state of a connection. -/
theorem submit_before_unlink {seqnum : BitVec 32} {udev : Option ℕ} {s : Port}
    (h : (vhciPort seqnum udev).ReachableWhere DequeueInOrder s) :
    Historical SubmitFirst s.wire :=
  (TxInv.of_reachableWhere h).wire

/-- A URB dequeued while its request is still on `priv_tx`, before the thread looks there. -/
def dequeueBeforeSubmitLoop : List Act :=
  [.enqueue ⟨7, 1, einprogress, 2, false, none⟩ 0 true, .dequeue 7 0 true, .txDequeueSubmit,
    .txSendSubmit true, .txDequeueSubmit, .txDequeueUnlink, .txSendUnlink true]

theorem submit_before_unlink_dequeueBeforeSubmitLoop :
    ∃ s, (vhciPort 0 (some 1)).runWhere DequeueInOrder (attached 0 (some 1))
        dequeueBeforeSubmitLoop = some s ∧ Historical SubmitFirst s.wire :=
  Machine.exists_runWhere (m := vhciPort 0 (some 1)) (by decide) fun _ h =>
    submit_before_unlink h

/-- A URB enqueued and dequeued while the thread is between its two loops. -/
def dequeueBetweenLoops : List Act :=
  [.txDequeueSubmit, .enqueue ⟨7, 1, einprogress, 2, false, none⟩ 0 true, .dequeue 7 0 true,
    .txDequeueUnlink, .txSendUnlink true]

/-- **Dequeued between the two loops, a URB has its CMD_UNLINK written first.** -/
theorem unlink_overtakes_submit :
    ∃ s, (vhciPort 0 (some 1)).Reachable s ∧ ¬ Historical SubmitFirst s.wire := by
  obtain ⟨s, hrun⟩ : ∃ s, (vhciPort 0 (some 1)).run (attached 0 (some 1))
      dequeueBetweenLoops = some s := Option.isSome_iff_exists.mp (by decide)
  refine ⟨s, Machine.reachable_of_run hrun, fun hw => ?_⟩
  have hwire : s.wire = [.cmdUnlink ⟨2, 1, 0⟩] := by
    have h : ((vhciPort 0 (some 1)).run (attached 0 (some 1)) dequeueBetweenLoops).map
        (·.wire) = some [.cmdUnlink ⟨2, 1, 0⟩] := by decide
    rw [hrun] at h
    exact Option.some.inj h
  obtain ⟨p, -, hp⟩ := hw [] _ [] hwire _ rfl
  simp at hp

end Usbip.Vhci
