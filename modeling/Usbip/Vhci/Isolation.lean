import Usbip.Vhci.Port

/-!
# One connection after another on a port

The machine `portAttachments` runs the port of `Usbip.Vhci.Port` through any number of
connections: the event handler resets the port after a shutdown (`vhci_device_reset`) or marks
it as unusable, and `store_attach` puts a new connection on a port that is NULL. The USB core
dequeues the requests of the old device whenever it likes.

Neither the shutdown nor the reset nor the attachment empties `priv_tx`. As long as no request
is left there when a connection is attached, every CMD_SUBMIT on its socket belongs to a URB
that was enqueued since (`connection_isolated`); a request that is left is sent to the new
server.
-/

namespace Usbip.Vhci

/-- A port and its connections. `wire` of the port is what was written to the socket of the
latest connection. `firstId` is a ghost field: the records allocated since the latest
attachment are those with this number or a higher one. -/
structure Attachments where
  port : Port
  firstId : ℕ

namespace Attachments

/-- `vhci_device_reset`, called by the event handler after the shutdown. -/
def reset (s : Attachments) : Option Attachments :=
  if s.port.shut = .done then
    some { s with port :=
      { s.port with udev := none, tcpSocket := false, status := .null, event := false } }
  else none

/-- `vhci_device_unusable`. -/
def unusable (s : Attachments) : Option Attachments :=
  if s.port.shut = .done then
    some { s with port := { s.port with status := .error, event := false } }
  else none

/-- The event handler shuts down a port that has no connection: only
`vhci_device_unlink_cleanup` does something. -/
def shutdownAgain (s : Attachments) : Option Attachments :=
  if s.port.shut = .done then some { s with port := { s.port with shut := .released } } else none

/-- `store_attach`: a socket, two new threads, and the lists as they are. -/
def attach (s : Attachments) : Option Attachments :=
  if s.port.shut ≠ .done then none
  else if s.port.status ≠ .null then some s
  else
    some
      { port :=
          { s.port with
            tcpSocket := true
            status := .notAssigned
            tx := .submitLoop
            rx := .idle
            shut := .live
            wire := [] }
        firstId := s.port.nextId }

/-- The steps: those of the port's own contexts, and those between two connections. -/
inductive Act
  | port (a : Vhci.Act)
  | reset
  | unusable
  | shutdownAgain
  | attach
  deriving DecidableEq, Repr

/-- One step. -/
def step (s : Attachments) : Act → Option Attachments
  | .port a => (s.port.step a).map fun port => { s with port := port }
  | .reset => s.reset
  | .unusable => s.unusable
  | .shutdownAgain => s.shutdownAgain
  | .attach => s.attach

end Attachments

/-- A port that has never been attached. -/
def unattached (seqnum : BitVec 32) : Port :=
  { attached seqnum none with
    status := .null
    tcpSocket := false
    tx := .stopped
    rx := .stopped
    shut := .done }

/-- A port from `vhci_device_init` on; the counter of the controller may have any value. -/
def portAttachments (seqnum : BitVec 32) : Machine Attachments Attachments.Act where
  init := ⟨unattached seqnum, 0⟩
  step := Attachments.step

/-! ### Where a request may be written from -/

/-- Every request that is written to the socket, or is going to be, has a number from `n` on
and below the next one. -/
structure Since (n : ℕ) (s : Port) : Prop where
  le_next : n ≤ s.nextId
  queued : ∀ p ∈ s.privTx, n ≤ p.id ∧ p.id < s.nextId
  sending : ∀ p, s.tx = .sendSubmit p → n ≤ p.id
  written : ∀ p, .cmdSubmit p ∈ s.wire → n ≤ p.id

namespace Since

variable {n : ℕ} {s s' : Port}

/-- A step that allocates nothing, queues nothing and writes no CMD_SUBMIT. -/
theorem frame (h : Since n s) (hid : s'.nextId = s.nextId) (hq : s'.privTx ⊆ s.privTx)
    (htx : ∀ p, s'.tx = .sendSubmit p → s.tx = .sendSubmit p)
    (hw : ∀ p, .cmdSubmit p ∈ s'.wire → .cmdSubmit p ∈ s.wire) : Since n s' := by
  refine ⟨hid ▸ h.le_next, fun p hp => ?_, fun p hp => h.sending p (htx p hp),
    fun p hp => h.written p (hw p hp)⟩
  rw [hid]
  exact h.queued p (hq hp)

theorem vhciTxUrb (h : Since n s) (urb : Urb) (alloc : Bool) : Since n (s.vhciTxUrb urb alloc) := by
  unfold Port.vhciTxUrb
  split
  · exact h
  split
  · exact h.frame rfl (List.Subset.refl _) (fun _ => id) fun _ => id
  · refine ⟨Nat.le_succ_of_le h.le_next, fun p hp => ?_, h.sending, h.written⟩
    rcases List.mem_append.mp hp with hp | hp
    · obtain ⟨h1, h2⟩ := h.queued p hp
      exact ⟨h1, Nat.lt_succ_of_lt h2⟩
    · -- the new record
      obtain rfl := List.mem_singleton.mp hp
      exact ⟨h.le_next, Nat.lt_succ_self _⟩

theorem vhciUrbEnqueue (h : Since n s) (urb : Urb) (linkRet : ℤ) (alloc : Bool) :
    Since n (s.vhciUrbEnqueue urb linkRet alloc).2 := by
  have hsame : ∀ s' : Port, s'.nextId = s.nextId → s'.privTx = s.privTx → s'.tx = s.tx →
      s'.wire = s.wire → Since n s' := by
    intro s' h1 h2 h3 h4
    exact h.frame h1 (h2 ▸ List.Subset.refl _) (fun p hp => h3 ▸ hp) fun p hp => h4 ▸ hp
  have hacc := hsame (s.accept urb) rfl rfl rfl rfl
  have hudev := hsame ((s.accept urb).setUdev urb) rfl rfl rfl rfl
  exact Port.vhciUrbEnqueue_cases h (hsame _ rfl rfl rfl rfl) (hsame _ rfl rfl rfl rfl)
    (hudev.vhciTxUrb urb alloc) (hacc.vhciTxUrb urb alloc) linkRet

/-- A step that does not touch what is sent. -/
theorem same (h : Since n s) (hid : s'.nextId = s.nextId) (hq : s'.privTx = s.privTx)
    (htx : s'.tx = s.tx) (hw : s'.wire = s.wire) : Since n s' :=
  h.frame hid (hq ▸ List.Subset.refl _) (fun _ hp => htx ▸ hp) fun _ hp => hw ▸ hp

theorem pickup (h : Since n s) {q : BitVec 32} {urb : ℕ}
    (hp : s.pickupUrbAndFreePriv q = some (urb, s')) : Since n s' := by
  obtain ⟨l₁, p, l₂, -, -, rfl⟩ := Port.pickupUrbAndFreePriv_eq_some hp
  exact h.same rfl rfl rfl rfl

theorem unlinkCleanupLoop (us : List VhciUnlink) (h : Since n s) :
    Since n (Port.unlinkCleanupLoop us s) :=
  Port.unlinkCleanupLoop_cases (h.same rfl rfl rfl rfl)
    (fun _ _ _ _ hp => (h.pickup hp).same rfl rfl rfl rfl) us

/-- The contexts of one connection keep the invariant. -/
theorem step (h : Since n s) {a : Vhci.Act} (hs : s.step a = some s') : Since n s' := by
  cases Port.moves_of_step hs with
  | enqueue hout linkRet alloc => exact h.vhciUrbEnqueue _ linkRet alloc
  | dequeueGone | dequeueRefused | retUnlinkUnknown => exact h
  | dequeueClosed hid hsocket alloc =>
    exact h.frame rfl (fun p hp => (List.mem_filter.mp hp).1) (fun _ => id) fun _ => id
  | dequeueFailed | dequeueLinked | callerGiveback | retSubmitUnknown | payload | payloadFailed
  | pickupNone | rxGiveback | rxStop | shutdown | releaseSocket | cleanupGiveback =>
    exact h.same rfl rfl rfl rfl
  | @submitTaken p rest htx hp =>
    refine ⟨h.le_next, fun q hq => h.queued q ?_, fun q hq => ?_, h.written⟩
    · rw [hp]
      exact List.mem_cons_of_mem _ hq
    · cases hq
      exact (h.queued p (by rw [hp]; exact List.mem_cons_self)).1
  | @submitSent p htx =>
    refine ⟨h.le_next, h.queued, fun q hq => (by cases hq), fun q hq => ?_⟩
    rcases List.mem_append.mp hq with hq | hq
    · exact h.written q hq
    · obtain rfl : q = p := by simpa using hq
      exact h.sending q htx
  | unlinkSent htx =>
    -- what is appended is a CMD_UNLINK
    refine h.frame rfl (List.Subset.refl _) (fun _ hp => by cases hp) fun p hp => ?_
    simpa using hp
  | submitsDone | submitUnsent | unlinksDone | unlinkTaken | unlinkUnsent | txStop | txWake =>
    exact h.frame rfl (List.Subset.refl _) (fun _ hp => by cases hp) fun _ => id
  | retSubmit hrx hpick status | pickup hrx hpick => exact (h.pickup hpick).same rfl rfl rfl rfl
  | retUnlink hrx hun status =>
    obtain ⟨l₁, l₂, -, rfl⟩ := Port.dequeuePendingUnlink_eq_some hun
    exact h.same rfl rfl rfl rfl
  | cleanup hshut =>
    have hdrop : Since n { s with unlinkTx := [] } := h.same rfl rfl rfl rfl
    exact hdrop.unlinkCleanupLoop _
  | cleanupOn hshut => exact h.unlinkCleanupLoop _

end Since

/-! ### The connections -/

namespace Attachments

/-- `store_attach` finds `priv_tx` empty when it takes the port. -/
def QueueEmpty (s : Attachments) : Act → Prop
  | .attach => s.port.shut = .done → s.port.status = .null → s.port.privTx = []
  | _ => True

instance (s : Attachments) (a : Act) : Decidable (s.QueueEmpty a) := by
  cases a <;> unfold QueueEmpty <;> infer_instance

variable {s s' : Attachments}

theorem since_attach (h : Since s.firstId s.port) (hok : s.QueueEmpty .attach)
    (hs : s.attach = some s') : Since s'.firstId s'.port := by
  unfold attach at hs
  split at hs
  · cases hs
  next hdone =>
  split at hs
  · cases hs
    exact h
  next hnull =>
  cases hs
  have hempty : s.port.privTx = [] := hok (not_not.mp hdone) (not_not.mp hnull)
  refine ⟨Nat.le_refl _, fun p hp => ?_, fun p hp => (by cases hp), fun p hp => (by cases hp)⟩
  rw [show s.port.privTx = [] from hempty] at hp
  cases hp

/-- **Steps that attach only with an empty queue keep the invariant.** -/
theorem since_step {a : Act} (h : Since s.firstId s.port) (hok : s.QueueEmpty a)
    (hs : s.step a = some s') : Since s'.firstId s'.port := by
  cases a with
  | port a =>
    obtain ⟨p, hp, rfl⟩ := Option.map_eq_some_iff.mp hs
    exact h.step hp
  | attach => exact since_attach h hok hs
  | _ =>
    obtain ⟨-, hs⟩ := Option.ite_none_right_eq_some.mp hs
    cases hs
    exact h.same rfl rfl rfl rfl

end Attachments

open Attachments

theorem since_unattached (seqnum : BitVec 32) : Since 0 (unattached seqnum) :=
  ⟨Nat.le_refl _, fun _ h => (by cases h), fun _ h => (by cases h), fun _ h => (by cases h)⟩

/-- **Every CMD_SUBMIT on the socket of a connection belongs to a URB enqueued since the
connection was attached**, in every state of every run in which a connection is only attached
while no request of an earlier one is left on `priv_tx`. -/
theorem connection_isolated {seqnum : BitVec 32} {s : Attachments}
    (h : (portAttachments seqnum).ReachableWhere QueueEmpty s) :
    ∀ p, .cmdSubmit p ∈ s.port.wire → s.firstId ≤ p.id :=
  have hsince : Since s.firstId s.port := h.invariant (I := fun s => Since s.firstId s.port)
    (since_unattached seqnum) fun _ _ _ hs hok hstep => since_step hs hok hstep
  hsince.written

/-- The port is attached, used, taken down with nothing left on `priv_tx`, reset and attached
again. -/
def attachedTwice : List Attachments.Act :=
  [.attach, .port (.enqueue ⟨7, 1, einprogress, 0, true, some (6, 0)⟩ 0 true),
    .port .txDequeueSubmit, .port (.txSendSubmit true), .port .txDequeueSubmit,
    .port .txDequeueUnlink, .port .shutdown, .port .txWake, .port .rxStop, .port .releaseSocket,
    .port .cleanup, .reset, .attach,
    .port (.enqueue ⟨8, 2, einprogress, 0, true, some (6, 0)⟩ 0 true), .port .txDequeueSubmit,
    .port (.txSendSubmit true)]

theorem connection_isolated_attachedTwice :
    ∃ s, (portAttachments 0).runWhere QueueEmpty (portAttachments 0).init attachedTwice = some s ∧
      ∀ p, .cmdSubmit p ∈ s.port.wire → s.firstId ≤ p.id :=
  Machine.exists_runWhere (by decide) fun _ h => connection_isolated h

/-- A URB is enqueued after the transmit thread has stopped, and the USB core has not dequeued
it when the next connection is attached. -/
def attachedWithOldRequest : List Attachments.Act :=
  [.attach, .port .txDequeueSubmit, .port .txDequeueUnlink, .port .shutdown, .port .txWake,
    .port (.enqueue ⟨7, 1, einprogress, 0, true, some (6, 0)⟩ 0 true), .port .rxStop,
    .port .releaseSocket, .port .cleanup, .reset, .attach, .port .txDequeueSubmit,
    .port (.txSendSubmit true)]

/-- **A request left on `priv_tx` is sent to the new server.** -/
theorem old_request_transmitted :
    ∃ s, (portAttachments 0).Reachable s ∧ ∃ p, .cmdSubmit p ∈ s.port.wire ∧ p.id < s.firstId := by
  obtain ⟨s, hs, hp⟩ := Machine.exists_reachable_of_any (m := portAttachments 0)
    attachedWithOldRequest (fun s => .cmdSubmit ⟨0, 1, 7⟩ ∈ s.port.wire ∧ 0 < s.firstId)
    (by decide)
  have hp : .cmdSubmit ⟨0, 1, 7⟩ ∈ s.port.wire ∧ 0 < s.firstId := by simpa using hp
  exact ⟨s, hs, _, hp.1, hp.2⟩

end Usbip.Vhci
