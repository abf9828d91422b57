import Usbip.Lib.WaitQueue
import Usbip.Stub.ReplyOrder
import Usbip.Vhci.Port
import Mathlib.Tactic.Common

/-!
# Waking the transmit threads

`stub_tx_loop` and `vhci_tx_loop` sleep in `wait_event_interruptible` until one of their two
queues has an entry. Four functions link entries to these queues from other contexts:

* `stub_complete` links and then calls `wake_up` on each of its paths that links anything;
* `vhci_tx_urb` (from `vhci_urb_enqueue`) and `vhci_urb_dequeue` call `wake_up` before they
  release `priv_lock`;
* `stub_recv_cmd_unlink` links a RET_UNLINK through `stub_enqueue_ret_unlink` when the target is
  not on `priv_init`, and calls no `wake_up` at all.

So the port never loses its transmit thread, and the stub loses it exactly when a CMD_UNLINK that
misses is processed while the thread sleeps and no completion is about to wake it. The reply then
stays on `unlink_tx` until some URB completes.
-/

namespace Usbip.Stub

open ListWalk

/-- The condition of the wait in `stub_tx_loop`, as long as nobody stops the thread. -/
def StubDevice.txReady (s : StubDevice) : Bool := !s.privTx.isEmpty || !s.unlinkTx.isEmpty

/-- The steps whose context calls `wake_up(&sdev->tx_waitq)` afterwards: `stub_complete`, unless
it returns early for `-ENOENT`. -/
def StubDevice.wakes (_ : StubDevice) : Act → Bool
  | .complete _ status _ => decide (status ≠ enoent)
  | _ => false

/-- The transmit thread of a device in its `wait_event_interruptible`. -/
def txWait (requests : List Request) : Waiting (stubDevice requests) where
  ready := StubDevice.txReady
  atWait s := s.tx == .wait
  leaves a := a == .txWake
  wakes := StubDevice.wakes

/-- The receive thread is about to process a CMD_UNLINK whose target is not on `priv_init`. -/
def StubDevice.unlinkMisses (s : StubDevice) : Prop :=
  s.rx = .idle ∧ ∃ t ∈ s.unlinkTarget, ∀ p ∈ s.privInit, p.seqnum ≠ ofU32 t

instance (s : StubDevice) : Decidable s.unlinkMisses := by
  unfold StubDevice.unlinkMisses
  infer_instance

/-- A CMD_UNLINK that misses its target is not processed while the transmit thread sleeps and no
wake-up is pending (without memory for the reply it may be). -/
def UnlinkHeard (s : Waiting.State StubDevice) : Waiting.Act Act → Prop
  | .act (.rxPdu true) => s.asleep = true → s.pending = 0 → ¬ s.base.unlinkMisses
  | _ => True

instance (s : Waiting.State StubDevice) (a : Waiting.Act Act) : Decidable (UnlinkHeard s a) := by
  unfold UnlinkHeard
  split <;> infer_instance

namespace StubDevice

variable {s s' : StubDevice} {a : Act}

theorem txReady_eq_false : s.txReady = false ↔ s.privTx = [] ∧ s.unlinkTx = [] := by
  simp [txReady]

/-- With an empty queue in front of it the thread's own steps leave both queues alone, and so do
the steps of the receive thread but the first section of a request. -/
theorem txReady_eq_of_step (h : s.step a = some s') (hready : s.txReady = false)
    (hrx : ∀ alloc, a ≠ .rxPdu alloc) (hwakes : s.wakes a = false) : s'.txReady = false := by
  rw [txReady_eq_false] at hready ⊢
  cases moves_of_step h with
  | cmdSubmit _ _ alloc | cmdUnlinkFound _ _ _ alloc | cmdUnlinkMissed _ _ _ alloc
  | invalid _ _ alloc => exact absurd rfl (hrx alloc)
  | unlinked hid hstatus hwalk hunl alloc | completed hid hstatus hwalk hunl alloc =>
    simp [wakes, hstatus] at hwakes
  | submitTaken htx hp => simp [hready.1] at hp
  | unlinkTaken htx hu => simp [hready.2] at hu
  | built | notBuilt | submitted | notSubmitted | unlinkUrb | rxStop | killed | submitsDone
  | retSubmit | unsentSubmit | freePrivs | unlinksDone | retUnlink | unsentUnlink | freeUnlinks
  | txStop | txWake => exact hready

/-- A request links something exactly when it is a CMD_UNLINK that misses and memory is there. -/
theorem txReady_rxPdu {alloc : Bool} (h : s.stubRxPdu alloc = some s')
    (hready : s.txReady = false) :
    s'.txReady = true ↔ s.unlinkMisses ∧ alloc = true := by
  obtain ⟨h1, h2⟩ := txReady_eq_false.mp hready
  cases moves_rxPdu h with
  | @cmdSubmit q rest hrx hin =>
    have hno : ¬ s.unlinkMisses := by
      rintro ⟨-, t', ht', -⟩
      simp [unlinkTarget, hin] at ht'
    have hq : ({ s with input := rest }.stubPrivAlloc q alloc).txReady = false := by
      rw [stubPrivAlloc]
      split
      · exact hready
      · exact hready
    simp [hq, hno]
  | @cmdUnlinkFound q t rest pre post p hrx hin hwalk =>
    obtain ⟨hl, hp, -⟩ := findSplit_eq_some hwalk
    have hno : ¬ s.unlinkMisses := by
      rintro ⟨-, t', ht', hmiss⟩
      obtain rfl : t = t' := by simpa [unlinkTarget, hin] using ht'
      exact hmiss p (by simp [hl]) (by simpa using hp)
    have hq : (markUnlinking { s with input := rest } q t pre p post).txReady = false := hready
    simp [hq, hno]
  | @cmdUnlinkMissed q t rest hrx hin hwalk =>
    have hmiss : s.unlinkMisses := by
      refine ⟨hrx, t, by simp [unlinkTarget, hin], fun p hp heq => ?_⟩
      have hne := findSplit_eq_none.mp hwalk p hp
      simp [heq] at hne
    cases alloc with
    | true => simp [stubEnqueueRetUnlink, note, txReady, hmiss]
    | false => simp [stubEnqueueRetUnlink, note, txReady, h1, h2]
  | invalid hrx hin =>
    have hno : ¬ s.unlinkMisses := by
      rintro ⟨-, t', ht', -⟩
      simp [unlinkTarget, hin] at ht'
    simpa [hno, txReady] using ⟨h1, h2⟩

/-- The only silent step is the one of a CMD_UNLINK that misses. -/
theorem silent_iff {requests : List Request} :
    (txWait requests).Silent s a ↔
      a = .rxPdu true ∧ s.txReady = false ∧ s.unlinkMisses := by
  constructor
  · rintro ⟨hwakes, hready, s', hstep, hready'⟩
    by_cases hrx : ∃ alloc, a = .rxPdu alloc
    · obtain ⟨alloc, rfl⟩ := hrx
      obtain ⟨hmiss, rfl⟩ := (txReady_rxPdu hstep hready).mp hready'
      exact ⟨rfl, hready, hmiss⟩
    · have := txReady_eq_of_step hstep hready (fun alloc ha => hrx ⟨alloc, ha⟩) hwakes
      exact absurd (hready'.symm.trans this) (by simp)
  · rintro ⟨rfl, hready, hmiss⟩
    obtain ⟨s', hstep⟩ : ∃ s', s.stubRxPdu true = some s' := by
      obtain ⟨hidle, t, ht, -⟩ := hmiss
      obtain ⟨q, rest, hin⟩ : ∃ q rest, s.input = .cmdUnlink q t :: rest := by
        rw [unlinkTarget] at ht
        split at ht
        next q t' rest hin =>
          obtain rfl : t' = t := by simpa using ht
          exact ⟨q, rest, hin⟩
        · simp at ht
      simp [stubRxPdu, hidle, hin]
    exact ⟨rfl, hready, s', hstep, (txReady_rxPdu hstep hready).mpr ⟨hmiss, rfl⟩⟩

end StubDevice

/-- While the thread is not lost, the steps that lose it are those that `UnlinkHeard` excludes. -/
theorem unheard_iff {requests : List Request} {s : Waiting.State StubDevice}
    {a : Waiting.Act Act} (hs : ¬ (txWait requests).Lost s) :
    (txWait requests).Unheard s a ↔ ¬ UnlinkHeard s a := by
  constructor
  · rintro ⟨hasleep, hpending, b, rfl, hsilent⟩ hok
    obtain ⟨rfl, -, hmiss⟩ := StubDevice.silent_iff.mp hsilent
    exact hok hasleep hpending hmiss
  · intro hok
    unfold UnlinkHeard at hok
    split at hok
    · push Not at hok
      obtain ⟨hasleep, hpending, hmiss⟩ := hok
      have hready : s.base.txReady = false := by
        rw [← Bool.not_eq_true]
        exact fun hr => hs ⟨hasleep, hpending, hr⟩
      exact ⟨hasleep, hpending, _, rfl, StubDevice.silent_iff.mpr ⟨rfl, hready, hmiss⟩⟩
    · exact absurd trivial hok

end Usbip.Stub

namespace Usbip.Vhci

/-- The condition of the wait in `vhci_tx_loop`. -/
def Port.txReady (s : Port) : Bool :=
  !s.privTx.isEmpty || !s.unlinkTx.isEmpty || s.shut == .stopping

/-- `vhci_tx_urb` reaches its `wake_up`. -/
def Port.txUrbWakes (s : Port) (urb : Urb) (alloc : Bool) : Bool :=
  decide (s.udev = some urb.dev) && alloc

/-- `vhci_urb_enqueue` reaches the `wake_up` of `vhci_tx_urb`. -/
def Port.enqueueWakes (s : Port) (urb : Urb) (linkRet : ℤ) (alloc : Bool) : Bool :=
  if urb.status ≠ einprogress then false
  else if s.status = .null ∨ s.status = .error then false
  else if linkRet ≠ 0 then false
  else if urb.devnum = 0 then
    match urb.control, urb.setup with
    | true, some (6, _) => (s.setUdev urb).txUrbWakes urb alloc
    | _, _ => false
  else s.txUrbWakes urb alloc

/-- `vhci_urb_dequeue` reaches its `wake_up`. -/
def Port.dequeueWakes (s : Port) (urb : ℕ) (checkRet : ℤ) (alloc : Bool) : Bool :=
  (s.hcpriv urb).isSome && checkRet == 0 && s.tcpSocket && alloc

/-- The steps whose context calls `wake_up(&vdev->waitq_tx)`, or wakes the thread to stop it. -/
def Port.wakes (s : Port) : Act → Bool
  | .enqueue urb linkRet alloc => s.enqueueWakes urb linkRet alloc
  | .dequeue urb checkRet alloc => s.dequeueWakes urb checkRet alloc
  | .shutdown => true
  | _ => false

/-- The transmit thread of a port in its `wait_event_interruptible`. -/
def txWait (seqnum : BitVec 32) (udev : Option ℕ) : Waiting (vhciPort seqnum udev) where
  ready := Port.txReady
  atWait s := s.tx == .wait
  leaves a := a == .txWake
  wakes := Port.wakes

namespace Port

variable {s s' : Port} {a : Act}

theorem txReady_eq_false :
    s.txReady = false ↔ s.privTx = [] ∧ s.unlinkTx = [] ∧ s.shut ≠ .stopping := by
  simp [txReady, and_assoc]

/-- `vhci_tx_urb` links an entry only when it calls `wake_up`. -/
theorem txReady_vhciTxUrb {urb : Urb} {alloc : Bool} (hready : s.txReady = false)
    (hwakes : s.txUrbWakes urb alloc = false) : (s.vhciTxUrb urb alloc).txReady = false := by
  rw [vhciTxUrb]
  split
  · exact hready
  next hudev =>
    have halloc : alloc = false := by simpa [txUrbWakes, not_not.mp hudev] using hwakes
    rw [if_pos (by simp [halloc])]
    exact hready

theorem txReady_vhciUrbEnqueue {urb : Urb} {linkRet : ℤ} {alloc : Bool}
    (hready : s.txReady = false) (hwakes : s.enqueueWakes urb linkRet alloc = false) :
    (s.vhciUrbEnqueue urb linkRet alloc).2.txReady = false := by
  rw [enqueueWakes] at hwakes
  rw [vhciUrbEnqueue]
  split at hwakes
  next h => rwa [if_pos h]
  next h =>
    rw [if_neg h]
    split at hwakes
    next h => rwa [if_pos h]
    next h =>
      rw [if_neg h]
      split at hwakes
      next h =>
        rw [if_pos h]
        exact hready
      next h =>
        rw [if_neg h]
        split at hwakes
        next h =>
          rw [if_pos h]
          -- requests to the default address: only GET_DESCRIPTOR is transmitted
          split
          · exact hready
          next heq₁ heq₂ =>
            simp only [heq₁, heq₂] at hwakes
            exact txReady_vhciTxUrb (s := (s.accept urb).setUdev urb) hready hwakes
          · exact hready
        next h =>
          rw [if_neg h]
          exact txReady_vhciTxUrb (s := s.accept urb) hready hwakes

/-- `unlink_cleanup` links nothing. -/
theorem txReady_unlinkCleanupLoop (us : List VhciUnlink) (h1 : s.privTx = [])
    (h2 : s.unlinkTx = []) : (unlinkCleanupLoop us s).txReady = false := by
  refine unlinkCleanupLoop_cases (motive := fun q => q.txReady = false) ?_
    (fun seqnum urb s₁ rest hpick => ?_) us
  · exact txReady_eq_false.mpr ⟨h1, h2, by simp⟩
  · obtain ⟨l₁, p, l₂, -, -, rfl⟩ := pickupUrbAndFreePriv_eq_some hpick
    exact txReady_eq_false.mpr ⟨h1, h2, by simp⟩

/-- Each step that fills an empty queue is followed by a `wake_up`. -/
theorem not_silent {seqnum : BitVec 32} {udev : Option ℕ} (s : Port) (a : Act) :
    ¬ (txWait seqnum udev).Silent s a := by
  rintro ⟨hwakes, hready, s', hstep, hready'⟩
  change s.wakes a = false at hwakes
  change s.txReady = false at hready
  change s.step a = some s' at hstep
  change s'.txReady = true at hready'
  obtain ⟨h1, h2, h3⟩ := txReady_eq_false.mp hready
  suffices hs' : s'.txReady = false from absurd (hready'.symm.trans hs') (by simp)
  cases moves_of_step hstep with
  | enqueue hout linkRet alloc => exact txReady_vhciUrbEnqueue hready hwakes
  | dequeueLinked hid hsocket hp =>
    -- the entry is linked, and `wake_up` is called
    exact absurd hwakes (by simp [wakes, dequeueWakes, hid, hsocket])
  | shutdown hshut => simp [wakes] at hwakes
  | submitTaken htx hp => simp [h1] at hp
  | unlinkTaken htx hu => simp [h2] at hu
  | dequeueClosed hid hsocket alloc =>
    exact txReady_eq_false.mpr ⟨by simp [dequeueClosed, h1], h2, h3⟩
  | retSubmit hrx hpick status | pickup hrx hpick =>
    obtain ⟨l₁, p, l₂, -, -, rfl⟩ := pickupUrbAndFreePriv_eq_some hpick
    exact hready
  | retUnlink hrx hun status =>
    obtain ⟨l₁, l₂, -, rfl⟩ := dequeuePendingUnlink_eq_some hun
    exact hready
  | releaseSocket hshut htx hrx => exact txReady_eq_false.mpr ⟨h1, h2, by simp⟩
  | cleanup hshut => exact txReady_unlinkCleanupLoop _ h1 rfl
  | cleanupOn hshut => exact txReady_unlinkCleanupLoop _ h1 h2
  | cleanupGiveback hshut => exact txReady_eq_false.mpr ⟨h1, h2, by simp⟩
  | dequeueGone | dequeueRefused | dequeueFailed | callerGiveback | submitsDone | submitSent
  | submitUnsent | unlinksDone | unlinkSent | unlinkUnsent | txStop | txWake
  | retSubmitUnknown | payload | payloadFailed | retUnlinkUnknown | pickupNone | rxGiveback
  | rxStop => exact hready

end Port

end Usbip.Vhci

namespace Usbip

/-- **No lost wake-up** of `stub_tx_loop` in a run in which no CMD_UNLINK that misses its target
is processed while the thread sleeps with no wake-up pending, and none of `vhci_tx_loop` in any
run. In the stub such a CMD_UNLINK loses the thread at once. -/
theorem no_lost_wakeup (requests : List Stub.Request) (seqnum : BitVec 32) (udev : Option ℕ) :
    (∀ s, (Stub.txWait requests).machine.ReachableWhere Stub.UnlinkHeard s →
      s.asleep = true → s.pending = 0 → s.base.privTx = [] ∧ s.base.unlinkTx = []) ∧
    (∀ s a s', (Stub.txWait requests).machine.ReachableWhere Stub.UnlinkHeard s →
      (Stub.txWait requests).machine.step s a = some s' →
      (s'.asleep = true ∧ s'.pending = 0 ∧ ¬ (s'.base.privTx = [] ∧ s'.base.unlinkTx = []) ↔
        ¬ Stub.UnlinkHeard s a)) ∧
    ∀ s, (Vhci.txWait seqnum udev).machine.Reachable s →
      s.asleep = true → s.pending = 0 → s.base.privTx = [] ∧ s.base.unlinkTx = [] := by
  have hstub : ∀ s, (Stub.txWait requests).machine.ReachableWhere Stub.UnlinkHeard s →
      ¬ (Stub.txWait requests).Lost s := by
    intro s h
    refine h.invariant (I := fun s => ¬ (Stub.txWait requests).Lost s) ?_
      fun s a s' hs ha hstep => ?_
    · rintro ⟨hasleep, -, -⟩
      cases hasleep
    · rw [Waiting.lost_step_iff hs hstep, Stub.unheard_iff hs]
      exact not_not.mpr ha
  refine ⟨?_, ?_, ?_⟩
  · intro s h hasleep hpending
    rw [← Stub.StubDevice.txReady_eq_false, ← Bool.not_eq_true]
    exact fun hready => hstub s h ⟨hasleep, hpending, hready⟩
  · intro s a s' h hstep
    have hs := hstub s h
    rw [← Stub.unheard_iff hs, ← Waiting.lost_step_iff hs hstep,
      ← Stub.StubDevice.txReady_eq_false, Bool.not_eq_false]
    rfl
  · intro s h hasleep hpending
    have hs := Waiting.not_lost_of_not_silent Vhci.Port.not_silent h
    have hready : s.base.txReady = false := by
      rw [← Bool.not_eq_true]
      exact fun hready => hs ⟨hasleep, hpending, hready⟩
    obtain ⟨h1, h2, -⟩ := Vhci.Port.txReady_eq_false.mp hready
    exact ⟨h1, h2⟩

/-- The transmit thread goes to sleep, then a CMD_UNLINK comes for a request that is not on
`priv_init`. -/
def unheardUnlink : List (Waiting.Act Stub.Act) :=
  [.act .txDequeueSubmit, .act .txFreePrivs, .act .txDequeueUnlink, .act .txFreeUnlinks, .sleep,
    .act (.rxPdu true)]

/-- The reply to that CMD_UNLINK waits on `unlink_tx` and nobody wakes the thread. -/
theorem unlink_reply_unheard :
    ∃ s, (Stub.txWait [.cmdUnlink 2 1]).machine.Reachable s ∧
      s.asleep = true ∧ s.pending = 0 ∧ s.base.unlinkTx ≠ [] := by
  obtain ⟨s, hs, hp⟩ := Machine.exists_reachable_of_any
    (m := (Stub.txWait [.cmdUnlink 2 1]).machine) unheardUnlink
    (fun s => decide (s.asleep = true ∧ s.pending = 0 ∧ s.base.unlinkTx ≠ [])) (by decide)
  exact ⟨s, hs, of_decide_eq_true hp⟩

/-- The same CMD_UNLINK before the thread sleeps: it is answered. -/
theorem no_lost_wakeup_unlink :
    ∃ s, (Stub.txWait [.cmdUnlink 2 1]).machine.runWhere Stub.UnlinkHeard
        (Stub.txWait [.cmdUnlink 2 1]).machine.init
        [.act .txDequeueSubmit, .act .txFreePrivs, .act .txDequeueUnlink, .act .txFreeUnlinks,
          .act (.rxPdu true), .act .txWake, .act .txDequeueSubmit, .act .txFreePrivs,
          .act .txDequeueUnlink, .act (.txSendUnlink true), .act .txDequeueUnlink,
          .act .txFreeUnlinks, .sleep] = some s ∧
      (s.asleep = true → s.pending = 0 → s.base.privTx = [] ∧ s.base.unlinkTx = []) :=
  Machine.exists_runWhere (by decide) fun s h => (no_lost_wakeup [.cmdUnlink 2 1] 0 none).1 s h

end Usbip
