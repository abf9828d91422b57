import Usbip.Lib.Machine
import Usbip.Lib.Trace
import Usbip.Lib.ListWalk
import Mathlib.Logic.Function.Basic
import Mathlib.Data.Int.Notation

/-!
# One port of the virtual host controller

The client side of a connection: `vhci_hcd.c`, `vhci_tx.c` and `vhci_rx.c` for one
`struct vhci_device`. The contexts that touch it are

* the USB core calling `vhci_urb_enqueue` and `vhci_urb_dequeue` (any number of them),
* the transmit thread `vhci_tx_loop` (`TxPc`),
* the receive thread `vhci_rx_loop` (`RxPc`), fed by an arbitrary server,
* the event handler running `vhci_shutdown_connection` (`ShutPc`).

Every section protected by `the_controller->lock` or by the port's `priv_lock` is one step of
the machine `vhciPort`, and so is every call made outside them (a write to the socket, the
completion of a transfer, `usb_hcd_giveback_urb`). A label names the context that moves, what
it received, and the results of the calls whose code is not in this repository
(`usb_hcd_link_urb_to_ep`, `usb_hcd_check_unlink_urb`, `kzalloc`, `kernel_sendmsg`).

A `vhci_priv` is identified by the number of its allocation, which plays the part of its
address: two allocations never share one. The numbers `seqnum` keep the widths they have in
the code, a 32-bit `atomic_t` copied into 64-bit `unsigned long` fields.
-/

namespace Usbip.Vhci

open ListWalk

/-- `enum usbip_status`, the values a `vhci_device` takes. -/
inductive VdevStatus
  | null | notAssigned | used | error
  deriving DecidableEq, Repr

/-- `-EINPROGRESS`, the status the core gives a URB that it submits. -/
def einprogress : ℤ := -115

/-- `-ENODEV`. -/
def enodev : ℤ := -19

/-- `-EINVAL`. -/
def einval : ℤ := -22

/-- What `vhci_urb_enqueue` reads of a `struct urb`. `setup` holds `bRequest` and `wValue` of
the setup packet, when there is one. -/
structure Urb where
  id : ℕ
  dev : ℕ
  status : ℤ
  devnum : ℕ
  control : Bool
  setup : Option (ℕ × ℕ)
  deriving DecidableEq, Repr

/-- `struct vhci_priv`; `urb->hcpriv` points to it while the request is pending. -/
structure VhciPriv where
  id : ℕ
  seqnum : BitVec 64
  urb : ℕ
  deriving DecidableEq, Repr

/-- `struct vhci_unlink`. `target` is a ghost field: the `vhci_priv` whose sequence number
was copied into `unlink_seqnum`. -/
structure VhciUnlink where
  seqnum : BitVec 64
  unlinkSeqnum : BitVec 64
  target : ℕ
  deriving DecidableEq, Repr

/-- A PDU written to the socket. -/
inductive CmdPdu
  | cmdSubmit (priv : VhciPriv)
  | cmdUnlink (unlink : VhciUnlink)
  deriving DecidableEq, Repr

/-- What the USB core sees of a URB: an enqueue that the controller accepted, and a call of
its completion handler with the URB's status. -/
inductive CoreEvent
  | enqueue (urb : ℕ)
  | giveback (urb : ℕ) (status : ℤ)
  deriving DecidableEq, Repr

/-- Where the transmit thread stands in `vhci_tx_loop`. -/
inductive TxPc
  /-- about to call `dequeue_from_priv_tx` -/
  | submitLoop
  /-- took `priv`, has not written its CMD_SUBMIT yet -/
  | sendSubmit (priv : VhciPriv)
  /-- about to call `dequeue_from_unlink_tx` -/
  | unlinkLoop
  /-- took `unlink`, has not written its CMD_UNLINK yet -/
  | sendUnlink (unlink : VhciUnlink)
  /-- in `wait_event_interruptible` -/
  | wait
  | stopped
  deriving DecidableEq, Repr

/-- Where the receive thread stands in `vhci_rx_loop`. -/
inductive RxPc
  | idle
  /-- `vhci_recv_ret_submit` has taken the URB off `priv_rx` and receives its payload -/
  | retSubmit (urb : ℕ)
  /-- `vhci_recv_ret_unlink` has taken the unlink off `unlink_rx` -/
  | retUnlink (unlink : VhciUnlink) (status : ℤ)
  /-- about to call `usb_hcd_giveback_urb` -/
  | giveback (urb : ℕ)
  | stopped
  deriving DecidableEq, Repr

/-- How far `vhci_shutdown_connection` has come. -/
inductive ShutPc
  | live
  /-- the socket is shut down, the threads are being stopped -/
  | stopping
  /-- the socket is released, `vhci_device_unlink_cleanup` is next -/
  | released
  /-- `vhci_device_unlink_cleanup` is about to lock again for its loop -/
  | cleanup
  /-- `vhci_device_unlink_cleanup` is about to call `usb_hcd_giveback_urb` -/
  | giveback (urb : ℕ)
  | done
  deriving DecidableEq, Repr

/-- One `struct vhci_device`, the controller's counter, and the contexts working on them.
`callers` are the URBs that calls of `vhci_urb_enqueue` and `vhci_urb_dequeue` are about to
give back, outside the lock. `wire` and `core` are histories. -/
structure Port where
  seqnum : BitVec 32
  status : VdevStatus
  udev : Option ℕ
  tcpSocket : Bool
  event : Bool
  privTx : List VhciPriv
  privRx : List VhciPriv
  unlinkTx : List VhciUnlink
  unlinkRx : List VhciUnlink
  nextId : ℕ
  hcpriv : ℕ → Option ℕ
  urbStatus : ℕ → ℤ
  tx : TxPc
  rx : RxPc
  shut : ShutPc
  callers : List ℕ
  wire : List CmdPdu
  core : List CoreEvent

namespace Port

/-- The `vhci_priv` records linked to the port. -/
def privs (s : Port) : List VhciPriv := s.privTx ++ s.privRx

/-- `usb_hcd_giveback_urb`: the core clears `hcpriv` and calls the completion handler. -/
def givebackUrb (s : Port) (urb : ℕ) : Port :=
  { s with
    hcpriv := Function.update s.hcpriv urb none
    core := s.core ++ [.giveback urb (s.urbStatus urb)] }

/-! ### Submission -/

/-- `atomic_inc_return`: a C `int`, so the value may be negative. -/
def atomicIncReturn (s : Port) : BitVec 32 := s.seqnum + 1

/-- The implicit conversion from the `int` that `atomic_inc_return` gives to the
`unsigned long` it is stored in. -/
def toULong (n : BitVec 32) : BitVec 64 := n.signExtend 64

/-- `vhci_tx_urb`. `get_vdev` finds the port when its `udev` is the URB's device; without a
port or without memory the URB is left linked to its endpoint and nowhere else. -/
def vhciTxUrb (s : Port) (urb : Urb) (alloc : Bool) : Port :=
  if s.udev ≠ some urb.dev then s
  else if !alloc then { s with event := true }
  else
    { s with
      seqnum := s.atomicIncReturn
      nextId := s.nextId + 1
      hcpriv := Function.update s.hcpriv urb.id (some s.nextId)
      privTx := s.privTx ++ [⟨s.nextId, toULong s.atomicIncReturn, urb.id⟩] }

/-- The error labels of `vhci_urb_enqueue` and the SET_ADDRESS branch: unlock, and give the
URB back from the calling context. -/
def noNeedXmit (s : Port) (urb : ℕ) : Port := { s with callers := s.callers ++ [urb] }

/-- The core has handed the URB over to the controller. -/
def accept (s : Port) (urb : Urb) : Port :=
  { s with
    urbStatus := Function.update s.urbStatus urb.id urb.status
    core := s.core ++ [.enqueue urb.id] }

/-- `vdev->udev = usb_get_dev(urb->dev)`. -/
def setUdev (s : Port) (urb : Urb) : Port := { s with udev := some urb.dev }

/-- SET_ADDRESS is answered by the controller itself and never transmitted. -/
def setAddress (s : Port) (urb : Urb) : Port :=
  { s.setUdev urb with
    status := .used
    urbStatus := Function.update s.urbStatus urb.id 0 }

/-- `vhci_urb_enqueue`: the returned value and the port after the section protected by
`the_controller->lock`. -/
def vhciUrbEnqueue (s : Port) (urb : Urb) (linkRet : ℤ) (alloc : Bool) : ℤ × Port :=
  if urb.status ≠ einprogress then (urb.status, s)
  else if s.status = .null ∨ s.status = .error then (enodev, s)
  else if linkRet ≠ 0 then (linkRet, (s.accept urb).noNeedXmit urb.id)
  else if urb.devnum = 0 then
    match urb.control, urb.setup with
    | true, some (5, _) => (0, ((s.accept urb).setAddress urb).noNeedXmit urb.id)
    | true, some (6, _) => (0, ((s.accept urb).setUdev urb).vhciTxUrb urb alloc)
    | _, _ => (einval, (s.accept urb).noNeedXmit urb.id)
  else (0, (s.accept urb).vhciTxUrb urb alloc)

/-- What `vhci_urb_enqueue` leaves: the port as it was, a URB that the call itself gives back,
or a URB that has come to `vhci_tx_urb`. -/
theorem vhciUrbEnqueue_cases {motive : Port → Prop} {s : Port} {urb : Urb} {alloc : Bool}
    (same : motive s) (failed : motive ((s.accept urb).noNeedXmit urb.id))
    (address : motive (((s.accept urb).setAddress urb).noNeedXmit urb.id))
    (descriptor : motive (((s.accept urb).setUdev urb).vhciTxUrb urb alloc))
    (sent : motive ((s.accept urb).vhciTxUrb urb alloc)) (linkRet : ℤ) :
    motive (s.vhciUrbEnqueue urb linkRet alloc).2 := by
  rw [vhciUrbEnqueue]
  split
  · exact same
  split
  · exact same
  split
  · exact failed
  split
  · split
    · exact address
    · exact descriptor
    · exact failed
  · exact sent

/-! ### Retirement -/

/-- `pickup_urb_and_free_priv`: the first entry of `priv_rx` with this sequence number is
unlinked and freed, and its URB returned. The 32-bit argument is widened for the comparison. -/
def pickupUrbAndFreePriv (s : Port) (seqnum : BitVec 32) : Option (ℕ × Port) :=
  (findSplit (fun p => p.seqnum == seqnum.setWidth 64) s.privRx).map fun r =>
    (r.2.1.urb,
      { s with
        privRx := r.1 ++ r.2.2
        hcpriv := Function.update s.hcpriv r.2.1.urb none })

/-- What `pickup_urb_and_free_priv` does when it finds an entry. -/
theorem pickupUrbAndFreePriv_eq_some {s s₁ : Port} {seqnum : BitVec 32} {urb : ℕ}
    (h : s.pickupUrbAndFreePriv seqnum = some (urb, s₁)) :
    ∃ l₁ p l₂, s.privRx = l₁ ++ p :: l₂ ∧ p.urb = urb ∧
      s₁ = { s with privRx := l₁ ++ l₂, hcpriv := Function.update s.hcpriv urb none } := by
  rw [pickupUrbAndFreePriv] at h
  obtain ⟨⟨l₁, p, l₂⟩, hwalk, heq⟩ := Option.map_eq_some_iff.mp h
  obtain ⟨hl, -, -⟩ := findSplit_eq_some hwalk
  obtain ⟨rfl, rfl⟩ := Prod.mk.inj heq
  exact ⟨l₁, p, l₂, hl, rfl, rfl⟩

/-- `dequeue_pending_unlink`: the first entry of `unlink_rx` with this sequence number. -/
def dequeuePendingUnlink (s : Port) (seqnum : BitVec 32) : Option (VhciUnlink × Port) :=
  (findSplit (fun u => u.seqnum == seqnum.setWidth 64) s.unlinkRx).map fun r =>
    (r.2.1, { s with unlinkRx := r.1 ++ r.2.2 })

/-- What `dequeue_pending_unlink` does when it finds an entry. -/
theorem dequeuePendingUnlink_eq_some {s s₁ : Port} {seqnum : BitVec 32} {u : VhciUnlink}
    (h : s.dequeuePendingUnlink seqnum = some (u, s₁)) :
    ∃ l₁ l₂, s.unlinkRx = l₁ ++ u :: l₂ ∧ s₁ = { s with unlinkRx := l₁ ++ l₂ } := by
  rw [dequeuePendingUnlink] at h
  obtain ⟨⟨l₁, v, l₂⟩, hwalk, heq⟩ := Option.map_eq_some_iff.mp h
  obtain ⟨hl, -, -⟩ := findSplit_eq_some hwalk
  obtain ⟨rfl, rfl⟩ := Prod.mk.inj heq
  exact ⟨l₁, l₂, hl, rfl⟩

/-- `urb->status = status`. -/
def setStatus (s : Port) (urb : ℕ) (status : ℤ) : Port :=
  { s with urbStatus := Function.update s.urbStatus urb status }

/-- `vhci_urb_dequeue` on a port without a socket: the record is unlinked and freed, and the
calling context gives the URB back. -/
def dequeueClosed (s : Port) (urb id : ℕ) : Port :=
  { s with
    privTx := s.privTx.filter fun p => p.id != id
    privRx := s.privRx.filter fun p => p.id != id
    hcpriv := Function.update s.hcpriv urb none
    callers := s.callers ++ [urb] }

/-- `vhci_urb_dequeue` up to the release of `the_controller->lock`. `checkRet` is the result of
`usb_hcd_check_unlink_urb`. A dangling `hcpriv` has no meaning, so the step is undefined then;
`PortInv.hcpriv_live` shows that it never is one. -/
def vhciUrbDequeue (s : Port) (urb : ℕ) (checkRet : ℤ) (alloc : Bool) : Option Port :=
  match s.hcpriv urb with
  | none => some s
  | some id =>
    if checkRet ≠ 0 then some s
    else if !s.tcpSocket then some (s.dequeueClosed urb id)
    else if !alloc then some { s with event := true }
    else
      (s.privs.find? fun p => p.id == id).map fun p =>
        { s with
          seqnum := s.atomicIncReturn
          unlinkTx := s.unlinkTx ++ [⟨toULong s.atomicIncReturn, p.seqnum, id⟩] }

/-! ### The transmit thread -/

/-- `dequeue_from_priv_tx`, or the end of the loop of `vhci_send_cmd_submit`. -/
def dequeueFromPrivTx (s : Port) : Option Port :=
  if s.tx ≠ .submitLoop then none
  else
    match s.privTx with
    | [] => some { s with tx := .unlinkLoop }
    | p :: rest => some { s with privTx := rest, privRx := s.privRx ++ [p], tx := .sendSubmit p }

/-- The rest of the body of `vhci_send_cmd_submit`; `ok = false` stands for an early return. -/
def sendCmdSubmit (s : Port) (ok : Bool) : Option Port :=
  match s.tx with
  | .sendSubmit p =>
    if ok then some { s with wire := s.wire ++ [.cmdSubmit p], tx := .submitLoop }
    else some { s with event := true, tx := .stopped }
  | _ => none

/-- `dequeue_from_unlink_tx`, or the end of the loop of `vhci_send_cmd_unlink`. -/
def dequeueFromUnlinkTx (s : Port) : Option Port :=
  if s.tx ≠ .unlinkLoop then none
  else
    match s.unlinkTx with
    | [] => some { s with tx := .wait }
    | u :: rest =>
      some { s with unlinkTx := rest, unlinkRx := s.unlinkRx ++ [u], tx := .sendUnlink u }

/-- The rest of the body of `vhci_send_cmd_unlink`. -/
def sendCmdUnlink (s : Port) (ok : Bool) : Option Port :=
  match s.tx with
  | .sendUnlink u =>
    if ok then some { s with wire := s.wire ++ [.cmdUnlink u], tx := .unlinkLoop }
    else some { s with event := true, tx := .stopped }
  | _ => none

/-- `wait_event_interruptible` and the loop test of `vhci_tx_loop`: nothing happens while both
queues are empty and the thread is not being stopped. -/
def txWake (s : Port) : Option Port :=
  if s.tx ≠ .wait then none
  else if s.shut = .stopping then some { s with tx := .stopped }
  else if s.privTx = [] ∧ s.unlinkTx = [] then none
  else some { s with tx := .submitLoop }

/-! ### The receive thread -/

/-- The first section of `vhci_recv_ret_submit` and `usbip_pack_pdu`. -/
def recvRetSubmit (s : Port) (seqnum : BitVec 32) (status : ℤ) : Option Port :=
  if s.rx ≠ .idle then none
  else
    match s.pickupUrbAndFreePriv seqnum with
    | none => some { s with event := true }
    | some (urb, s) => some { s.setStatus urb status with rx := .retSubmit urb }

/-- `usbip_recv_xbuff` and `usbip_recv_iso`: on an error the function returns at once. -/
def recvPayload (s : Port) (ok : Bool) : Option Port :=
  match s.rx with
  | .retSubmit urb =>
    if ok then some { s with rx := .giveback urb } else some { s with event := true, rx := .idle }
  | _ => none

/-- The first section of `vhci_recv_ret_unlink`. -/
def recvRetUnlink (s : Port) (seqnum : BitVec 32) (status : ℤ) : Option Port :=
  if s.rx ≠ .idle then none
  else
    match s.dequeuePendingUnlink seqnum with
    | none => some s
    | some (u, s) => some { s with rx := .retUnlink u status }

/-- The second section of `vhci_recv_ret_unlink`: case 2a gives the URB back, case 2b does
not. -/
def recvRetUnlinkPickup (s : Port) : Option Port :=
  match s.rx with
  | .retUnlink u status =>
    match s.pickupUrbAndFreePriv (u.unlinkSeqnum.setWidth 32) with
    | none => some { s with rx := .idle }
    | some (urb, s) => some { s.setStatus urb status with rx := .giveback urb }
  | _ => none

/-- `usb_hcd_giveback_urb` called by the receive thread. -/
def rxGiveback (s : Port) : Option Port :=
  match s.rx with
  | .giveback urb => some { s.givebackUrb urb with rx := .idle }
  | _ => none

/-- `vhci_rx_loop` ends when it is stopped or an event has happened. -/
def rxStop (s : Port) : Option Port :=
  if s.rx = .idle ∧ (s.shut = .stopping ∨ s.event) then some { s with rx := .stopped } else none

/-! ### Shutting the connection down -/

/-- `kernel_sock_shutdown`, then `kthread_stop_put` begins to wait for the threads. -/
def shutdownConnection (s : Port) : Option Port :=
  if s.shut = .live then some { s with shut := .stopping } else none

/-- Both threads have returned; the socket is released. -/
def releaseSocket (s : Port) : Option Port :=
  if s.shut = .stopping ∧ s.tx = .stopped ∧ s.rx = .stopped then
    some { s with tcpSocket := false, shut := .released }
  else none

/-- The loop of `vhci_device_unlink_cleanup` over `unlink_rx`, up to the release of the locks
for a giveback or to its end. -/
def unlinkCleanupLoop : List VhciUnlink → Port → Port
  | [], s => { s with unlinkRx := [], shut := .done }
  | u :: rest, s =>
    match s.pickupUrbAndFreePriv (u.unlinkSeqnum.setWidth 32) with
    | none => unlinkCleanupLoop rest s
    | some (urb, s) => { s.setStatus urb enodev with unlinkRx := rest, shut := .giveback urb }

/-- The loop ends, or has picked up one request: what it has passed over leaves no trace. -/
theorem unlinkCleanupLoop_cases {motive : Port → Prop} {s : Port}
    (done : motive { s with unlinkRx := [], shut := .done })
    (pickup : ∀ seqnum urb s₁ rest, s.pickupUrbAndFreePriv seqnum = some (urb, s₁) →
      motive { s₁.setStatus urb enodev with unlinkRx := rest, shut := .giveback urb })
    (us : List VhciUnlink) : motive (unlinkCleanupLoop us s) := by
  induction us with
  | nil => exact done
  | cons u rest ih =>
    rw [unlinkCleanupLoop]
    split
    · exact ih
    next urb s₁ hpick => exact pickup _ urb s₁ rest hpick

/-- A section of `vhci_device_unlink_cleanup`: the first one also drops `unlink_tx`. -/
def unlinkCleanup (s : Port) : Option Port :=
  if s.shut = .released then some (unlinkCleanupLoop s.unlinkRx { s with unlinkTx := [] })
  else if s.shut = .cleanup then some (unlinkCleanupLoop s.unlinkRx s)
  else none

/-- `usb_hcd_giveback_urb` called by `vhci_device_unlink_cleanup`. -/
def cleanupGiveback (s : Port) : Option Port :=
  match s.shut with
  | .giveback urb => some { s.givebackUrb urb with shut := .cleanup }
  | _ => none

/-- `usb_hcd_giveback_urb` called by `vhci_urb_enqueue` or `vhci_urb_dequeue`. -/
def callerGiveback (s : Port) (urb : ℕ) : Option Port :=
  if urb ∈ s.callers then some { s.givebackUrb urb with callers := s.callers.erase urb } else none

end Port

/-! ### The port as a machine -/

/-- Whether the core, after this history, waits for the URB to be given back. -/
def outstanding (h : List CoreEvent) (urb : ℕ) : Bool :=
  h.foldl (fun b e => match e with
    | .enqueue u => if u = urb then true else b
    | .giveback u _ => if u = urb then false else b) false

@[simp] theorem outstanding_nil (urb : ℕ) : outstanding [] urb = false := rfl

@[simp] theorem outstanding_enqueue (h : List CoreEvent) (u urb : ℕ) :
    outstanding (h ++ [.enqueue u]) urb = if u = urb then true else outstanding h urb := by
  simp [outstanding, List.foldl_append]

@[simp] theorem outstanding_giveback (h : List CoreEvent) (u urb : ℕ) (st : ℤ) :
    outstanding (h ++ [.giveback u st]) urb = if u = urb then false else outstanding h urb := by
  simp [outstanding, List.foldl_append]

/-- The steps of the contexts working on a port. -/
inductive Act
  | enqueue (urb : Urb) (linkRet : ℤ) (alloc : Bool)
  | dequeue (urb : ℕ) (checkRet : ℤ) (alloc : Bool)
  | callerGiveback (urb : ℕ)
  | txDequeueSubmit
  | txSendSubmit (ok : Bool)
  | txDequeueUnlink
  | txSendUnlink (ok : Bool)
  | txWake
  | rxRetSubmit (seqnum : BitVec 32) (status : ℤ)
  | rxPayload (ok : Bool)
  | rxRetUnlink (seqnum : BitVec 32) (status : ℤ)
  | rxPickup
  | rxGiveback
  | rxStop
  | shutdown
  | releaseSocket
  | cleanup
  | cleanupGiveback
  deriving DecidableEq, Repr

/-- One step. The core does not submit a URB again before it has been given back. -/
def Port.step (s : Port) : Act → Option Port
  | .enqueue urb linkRet alloc =>
    if outstanding s.core urb.id then none else some (s.vhciUrbEnqueue urb linkRet alloc).2
  | .dequeue urb checkRet alloc => s.vhciUrbDequeue urb checkRet alloc
  | .callerGiveback urb => s.callerGiveback urb
  | .txDequeueSubmit => s.dequeueFromPrivTx
  | .txSendSubmit ok => s.sendCmdSubmit ok
  | .txDequeueUnlink => s.dequeueFromUnlinkTx
  | .txSendUnlink ok => s.sendCmdUnlink ok
  | .txWake => s.txWake
  | .rxRetSubmit seqnum status => s.recvRetSubmit seqnum status
  | .rxPayload ok => s.recvPayload ok
  | .rxRetUnlink seqnum status => s.recvRetUnlink seqnum status
  | .rxPickup => s.recvRetUnlinkPickup
  | .rxGiveback => s.rxGiveback
  | .rxStop => s.rxStop
  | .shutdown => s.shutdownConnection
  | .releaseSocket => s.releaseSocket
  | .cleanup => s.unlinkCleanup
  | .cleanupGiveback => s.cleanupGiveback

/-- What a step does, with what it has found. -/
inductive Port.Moves (s : Port) : Act → Port → Prop
  | enqueue {urb : Urb} (hout : outstanding s.core urb.id = false) (linkRet : ℤ) (alloc : Bool) :
    Moves s (.enqueue urb linkRet alloc) (s.vhciUrbEnqueue urb linkRet alloc).2
  | dequeueGone {urb : ℕ} (hnone : s.hcpriv urb = none) (checkRet : ℤ) (alloc : Bool) :
    Moves s (.dequeue urb checkRet alloc) s
  | dequeueRefused {urb id : ℕ} (hid : s.hcpriv urb = some id) {checkRet : ℤ}
    (hret : checkRet ≠ 0) (alloc : Bool) : Moves s (.dequeue urb checkRet alloc) s
  | dequeueClosed {urb id : ℕ} (hid : s.hcpriv urb = some id) (hsocket : s.tcpSocket = false)
    (alloc : Bool) : Moves s (.dequeue urb 0 alloc) (s.dequeueClosed urb id)
  | dequeueFailed {urb id : ℕ} (hid : s.hcpriv urb = some id) (hsocket : s.tcpSocket = true) :
    Moves s (.dequeue urb 0 false) { s with event := true }
  | dequeueLinked {urb id : ℕ} {p : VhciPriv} (hid : s.hcpriv urb = some id)
    (hsocket : s.tcpSocket = true) (hp : s.privs.find? (fun p => p.id == id) = some p) :
    Moves s (.dequeue urb 0 true) { s with
      seqnum := s.atomicIncReturn
      unlinkTx := s.unlinkTx ++ [⟨toULong s.atomicIncReturn, p.seqnum, id⟩] }
  | callerGiveback {urb : ℕ} (hmem : urb ∈ s.callers) :
    Moves s (.callerGiveback urb) { s.givebackUrb urb with callers := s.callers.erase urb }
  | submitsDone (htx : s.tx = .submitLoop) (hempty : s.privTx = []) :
    Moves s .txDequeueSubmit { s with tx := .unlinkLoop }
  | submitTaken {p : VhciPriv} {rest : List VhciPriv} (htx : s.tx = .submitLoop)
    (hp : s.privTx = p :: rest) :
    Moves s .txDequeueSubmit
      { s with privTx := rest, privRx := s.privRx ++ [p], tx := .sendSubmit p }
  | submitSent {p : VhciPriv} (htx : s.tx = .sendSubmit p) :
    Moves s (.txSendSubmit true) { s with wire := s.wire ++ [.cmdSubmit p], tx := .submitLoop }
  | submitUnsent {p : VhciPriv} (htx : s.tx = .sendSubmit p) :
    Moves s (.txSendSubmit false) { s with event := true, tx := .stopped }
  | unlinksDone (htx : s.tx = .unlinkLoop) (hempty : s.unlinkTx = []) :
    Moves s .txDequeueUnlink { s with tx := .wait }
  | unlinkTaken {u : VhciUnlink} {rest : List VhciUnlink} (htx : s.tx = .unlinkLoop)
    (hu : s.unlinkTx = u :: rest) :
    Moves s .txDequeueUnlink
      { s with unlinkTx := rest, unlinkRx := s.unlinkRx ++ [u], tx := .sendUnlink u }
  | unlinkSent {u : VhciUnlink} (htx : s.tx = .sendUnlink u) :
    Moves s (.txSendUnlink true) { s with wire := s.wire ++ [.cmdUnlink u], tx := .unlinkLoop }
  | unlinkUnsent {u : VhciUnlink} (htx : s.tx = .sendUnlink u) :
    Moves s (.txSendUnlink false) { s with event := true, tx := .stopped }
  | txStop (htx : s.tx = .wait) (hshut : s.shut = .stopping) :
    Moves s .txWake { s with tx := .stopped }
  | txWake (htx : s.tx = .wait) (hwork : ¬ (s.privTx = [] ∧ s.unlinkTx = [])) :
    Moves s .txWake { s with tx := .submitLoop }
  | retSubmitUnknown {seqnum : BitVec 32} (hrx : s.rx = .idle)
    (hpick : s.pickupUrbAndFreePriv seqnum = none) (status : ℤ) :
    Moves s (.rxRetSubmit seqnum status) { s with event := true }
  | retSubmit {seqnum : BitVec 32} {urb : ℕ} {s₁ : Port} (hrx : s.rx = .idle)
    (hpick : s.pickupUrbAndFreePriv seqnum = some (urb, s₁)) (status : ℤ) :
    Moves s (.rxRetSubmit seqnum status) { s₁.setStatus urb status with rx := .retSubmit urb }
  | payload {urb : ℕ} (hrx : s.rx = .retSubmit urb) :
    Moves s (.rxPayload true) { s with rx := .giveback urb }
  | payloadFailed {urb : ℕ} (hrx : s.rx = .retSubmit urb) :
    Moves s (.rxPayload false) { s with event := true, rx := .idle }
  | retUnlinkUnknown {seqnum : BitVec 32} (hrx : s.rx = .idle)
    (hun : s.dequeuePendingUnlink seqnum = none) (status : ℤ) :
    Moves s (.rxRetUnlink seqnum status) s
  | retUnlink {seqnum : BitVec 32} {u : VhciUnlink} {s₁ : Port} (hrx : s.rx = .idle)
    (hun : s.dequeuePendingUnlink seqnum = some (u, s₁)) (status : ℤ) :
    Moves s (.rxRetUnlink seqnum status) { s₁ with rx := .retUnlink u status }
  | pickupNone {u : VhciUnlink} {status : ℤ} (hrx : s.rx = .retUnlink u status)
    (hpick : s.pickupUrbAndFreePriv (u.unlinkSeqnum.setWidth 32) = none) :
    Moves s .rxPickup { s with rx := .idle }
  | pickup {u : VhciUnlink} {status : ℤ} {urb : ℕ} {s₁ : Port} (hrx : s.rx = .retUnlink u status)
    (hpick : s.pickupUrbAndFreePriv (u.unlinkSeqnum.setWidth 32) = some (urb, s₁)) :
    Moves s .rxPickup { s₁.setStatus urb status with rx := .giveback urb }
  | rxGiveback {urb : ℕ} (hrx : s.rx = .giveback urb) :
    Moves s .rxGiveback { s.givebackUrb urb with rx := .idle }
  | rxStop (hrx : s.rx = .idle) (hstop : s.shut = .stopping ∨ s.event) :
    Moves s .rxStop { s with rx := .stopped }
  | shutdown (hshut : s.shut = .live) : Moves s .shutdown { s with shut := .stopping }
  | releaseSocket (hshut : s.shut = .stopping) (htx : s.tx = .stopped) (hrx : s.rx = .stopped) :
    Moves s .releaseSocket { s with tcpSocket := false, shut := .released }
  | cleanup (hshut : s.shut = .released) :
    Moves s .cleanup (unlinkCleanupLoop s.unlinkRx { s with unlinkTx := [] })
  | cleanupOn (hshut : s.shut = .cleanup) : Moves s .cleanup (unlinkCleanupLoop s.unlinkRx s)
  | cleanupGiveback {urb : ℕ} (hshut : s.shut = .giveback urb) :
    Moves s .cleanupGiveback { s.givebackUrb urb with shut := .cleanup }

namespace Port

variable {s s' : Port}

theorem moves_dequeue {urb : ℕ} {checkRet : ℤ} {alloc : Bool}
    (hs : s.vhciUrbDequeue urb checkRet alloc = some s') :
    s.Moves (.dequeue urb checkRet alloc) s' := by
  rw [vhciUrbDequeue] at hs
  split at hs
  next hnone => exact Option.some.inj hs ▸ .dequeueGone hnone checkRet alloc
  next id hid =>
  split at hs
  next hret => exact Option.some.inj hs ▸ .dequeueRefused hid hret alloc
  next hret =>
  obtain rfl : checkRet = 0 := not_not.mp hret
  split at hs
  next hsocket =>
    exact Option.some.inj hs ▸ .dequeueClosed hid (by simpa using hsocket) alloc
  next hsocket =>
  have hsocket : s.tcpSocket = true := by simpa using hsocket
  cases alloc with
  | false => exact Option.some.inj hs ▸ .dequeueFailed hid hsocket
  | true =>
    obtain ⟨p, hp, rfl⟩ := Option.map_eq_some_iff.mp hs
    exact .dequeueLinked hid hsocket hp

/-- **What a step can do.** -/
theorem moves_of_step {a : Act} (hs : s.step a = some s') : s.Moves a s' := by
  cases a with
  | enqueue urb linkRet alloc =>
    obtain ⟨hout, hs⟩ := Option.ite_none_left_eq_some.mp hs
    exact Option.some.inj hs ▸ .enqueue (by simpa using hout) linkRet alloc
  | dequeue urb checkRet alloc => exact moves_dequeue hs
  | callerGiveback urb =>
    obtain ⟨hmem, hs⟩ := Option.ite_none_right_eq_some.mp hs
    exact Option.some.inj hs ▸ .callerGiveback hmem
  | txDequeueSubmit =>
    obtain ⟨htx, hs⟩ := Option.ite_none_left_eq_some.mp hs
    have htx : s.tx = .submitLoop := not_not.mp htx
    split at hs
    next hempty => exact Option.some.inj hs ▸ .submitsDone htx hempty
    next p rest hp => exact Option.some.inj hs ▸ .submitTaken htx hp
  | txSendSubmit ok =>
    simp only [step, sendCmdSubmit] at hs
    split at hs
    next p htx =>
      cases ok with
      | true => exact Option.some.inj hs ▸ .submitSent htx
      | false => exact Option.some.inj hs ▸ .submitUnsent htx
    · cases hs
  | txDequeueUnlink =>
    obtain ⟨htx, hs⟩ := Option.ite_none_left_eq_some.mp hs
    have htx : s.tx = .unlinkLoop := not_not.mp htx
    split at hs
    next hempty => exact Option.some.inj hs ▸ .unlinksDone htx hempty
    next u rest hu => exact Option.some.inj hs ▸ .unlinkTaken htx hu
  | txSendUnlink ok =>
    simp only [step, sendCmdUnlink] at hs
    split at hs
    next u htx =>
      cases ok with
      | true => exact Option.some.inj hs ▸ .unlinkSent htx
      | false => exact Option.some.inj hs ▸ .unlinkUnsent htx
    · cases hs
  | txWake =>
    obtain ⟨htx, hs⟩ := Option.ite_none_left_eq_some.mp hs
    have htx : s.tx = .wait := not_not.mp htx
    split at hs
    next hshut => exact Option.some.inj hs ▸ .txStop htx hshut
    next =>
      obtain ⟨hwork, hs⟩ := Option.ite_none_left_eq_some.mp hs
      exact Option.some.inj hs ▸ .txWake htx hwork
  | rxRetSubmit seqnum status =>
    obtain ⟨hrx, hs⟩ := Option.ite_none_left_eq_some.mp hs
    have hrx : s.rx = .idle := not_not.mp hrx
    split at hs
    next hpick => exact Option.some.inj hs ▸ .retSubmitUnknown hrx hpick status
    next urb s₁ hpick => exact Option.some.inj hs ▸ .retSubmit hrx hpick status
  | rxPayload ok =>
    simp only [step, recvPayload] at hs
    split at hs
    next urb hrx =>
      cases ok with
      | true => exact Option.some.inj hs ▸ .payload hrx
      | false => exact Option.some.inj hs ▸ .payloadFailed hrx
    · cases hs
  | rxRetUnlink seqnum status =>
    obtain ⟨hrx, hs⟩ := Option.ite_none_left_eq_some.mp hs
    have hrx : s.rx = .idle := not_not.mp hrx
    split at hs
    next hun => exact Option.some.inj hs ▸ .retUnlinkUnknown hrx hun status
    next u s₁ hun => exact Option.some.inj hs ▸ .retUnlink hrx hun status
  | rxPickup =>
    simp only [step, recvRetUnlinkPickup] at hs
    split at hs
    next u status hrx =>
      split at hs
      next hpick => exact Option.some.inj hs ▸ .pickupNone hrx hpick
      next urb s₁ hpick => exact Option.some.inj hs ▸ .pickup hrx hpick
    · cases hs
  | rxGiveback =>
    simp only [step, Port.rxGiveback] at hs
    split at hs
    next urb hrx => exact Option.some.inj hs ▸ .rxGiveback hrx
    · cases hs
  | rxStop =>
    obtain ⟨⟨hrx, hstop⟩, hs⟩ := Option.ite_none_right_eq_some.mp hs
    exact Option.some.inj hs ▸ .rxStop hrx hstop
  | shutdown =>
    obtain ⟨hshut, hs⟩ := Option.ite_none_right_eq_some.mp hs
    exact Option.some.inj hs ▸ .shutdown hshut
  | releaseSocket =>
    obtain ⟨⟨hshut, htx, hrx⟩, hs⟩ := Option.ite_none_right_eq_some.mp hs
    exact Option.some.inj hs ▸ .releaseSocket hshut htx hrx
  | cleanup =>
    simp only [step, unlinkCleanup] at hs
    split at hs
    next hshut => exact Option.some.inj hs ▸ .cleanup hshut
    next =>
      obtain ⟨hshut, hs⟩ := Option.ite_none_right_eq_some.mp hs
      exact Option.some.inj hs ▸ .cleanupOn hshut
  | cleanupGiveback =>
    simp only [step, Port.cleanupGiveback] at hs
    split at hs
    next urb hshut => exact Option.some.inj hs ▸ .cleanupGiveback hshut
    · cases hs

end Port

/-- A port right after `store_attach`: a live socket, both threads started, no request. The
counter belongs to the controller and may have any value, and the port may already know the
device that answers on it. -/
def attached (seqnum : BitVec 32) (udev : Option ℕ) : Port where
  seqnum := seqnum
  status := .notAssigned
  udev := udev
  tcpSocket := true
  event := false
  privTx := []
  privRx := []
  unlinkTx := []
  unlinkRx := []
  nextId := 0
  hcpriv := fun _ => none
  urbStatus := fun _ => 0
  tx := .submitLoop
  rx := .idle
  shut := .live
  callers := []
  wire := []
  core := []

/-- One connection of a port, from its attachment on. -/
def vhciPort (seqnum : BitVec 32) (udev : Option ℕ) : Machine Port Act :=
  ⟨attached seqnum udev, Port.step⟩

end Usbip.Vhci
