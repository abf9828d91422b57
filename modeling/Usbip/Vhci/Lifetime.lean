import Usbip.Vhci.Giveback

/-!
# How long a request is used

`Port` takes every section under a lock as one step. Here the two locks are kept apart, and the
stretches between them are cut at each use of a `vhci_priv` or of its URB:

* `vhci_send_cmd_submit` goes on with an entry after it has moved it to `priv_rx` and released
  `priv_lock`: it reads `priv->urb`, sets up the header, sets up the buffers and sends them;
* `vhci_urb_dequeue` reads `urb->hcpriv` under `the_controller->lock` only, and takes `priv_lock`
  later in that section;
* the receive thread frees an entry under `priv_lock` only, and gives its URB back after
  `usb_hcd_unlink_urb_from_ep` under `the_controller->lock`.

So an answer that comes while an entry is in use frees it under the hands of the user. That is the
only way: `requests_owned` says that everything in use is owned by the port as long as the
receive thread takes no entry and gives back no URB that is in use, and that the first step that
does ends the ownership.
-/

namespace Usbip.Vhci

open ListWalk

/-- Where `vhci_send_cmd_submit` stands with the entry that it has taken. -/
inductive SendStage
  /-- about to read `priv->urb` -/
  | taken
  /-- about to call `setup_cmd_submit_pdu`, which reads the entry through `urb->hcpriv` -/
  | setup
  /-- about to set up the transfer buffer and the iso descriptors -/
  | buffers
  /-- about to call `kernel_sendmsg` -/
  | sendmsg
  deriving DecidableEq, Repr

/-- The context that holds `the_controller->lock` between two steps, and where it stands: one call
of `vhci_urb_dequeue`. -/
inductive CtlPc
  | free
  /-- `hcpriv` has been read, `usb_hcd_check_unlink_urb` is next -/
  | check (urb id : ℕ)
  /-- about to read `priv->vdev` -/
  | vdev (urb id : ℕ)
  /-- about to test `vdev->ud.tcp_socket` -/
  | socket (urb id : ℕ)
  /-- about to lock `priv_lock` and to link a `vhci_unlink` -/
  | link (urb id : ℕ)
  /-- about to lock `priv_lock` and to free the entry -/
  | release (urb id : ℕ)
  /-- about to call `usb_hcd_unlink_urb_from_ep` and to unlock -/
  | unlinkEp (urb : ℕ)
  deriving DecidableEq, Repr

/-- The entry that the call still uses, with its URB. -/
def CtlPc.priv : CtlPc → Option (ℕ × ℕ)
  | .check urb id | .vdev urb id | .socket urb id | .link urb id | .release urb id => some (urb, id)
  | _ => none

/-- The URB that the call still uses before it unlocks. -/
def CtlPc.urb : CtlPc → Option ℕ
  | .check urb _ | .vdev urb _ | .socket urb _ | .link urb _ | .release urb _ | .unlinkEp urb =>
    some urb
  | .free => none

/-- A port with the two locks apart. `stage` counts while the transmit thread holds an entry;
`unlinkedEp` says that the receive thread has called `usb_hcd_unlink_urb_from_ep` for the URB that
it is about to give back. -/
structure SplitPort where
  port : Port
  stage : SendStage
  ctl : CtlPc
  unlinkedEp : Bool

/-- The steps: those of `Port`, but the ones that are cut into several here. -/
inductive SplitAct
  | port (a : Act)
  | txReadUrb
  | txSetup
  | txBuffers
  | dequeueLock (urb : ℕ)
  | dequeueCheck (checkRet : ℤ)
  | dequeueVdev
  | dequeueSocket
  | dequeueLink (alloc : Bool)
  | dequeueRelease
  | dequeueUnlinkEp
  | rxUnlinkEp
  deriving DecidableEq, Repr

namespace SplitPort

/-- A step of the port that leaves the rest alone. -/
def lift (s : SplitPort) (a : Act) : Option SplitPort :=
  (s.port.step a).map fun p => { s with port := p }

/-- A step of the port. `vhci_urb_enqueue` and the cleanup work under `the_controller->lock`, the
message is sent when its parts are set up (or not, without memory for the iso descriptors), and a
URB is given back after it has been unlinked from its endpoint. -/
def portStep (s : SplitPort) (a : Act) : Option SplitPort :=
  match a with
  | .dequeue .. => none
  | .enqueue .. | .cleanup => if s.ctl = .free then s.lift a else none
  | .callerGiveback urb => if s.ctl = .unlinkEp urb then none else s.lift a
  | .txDequeueSubmit => (s.lift a).map fun s => { s with stage := .taken }
  | .txSendSubmit ok =>
    if s.stage = .sendmsg ∨ (s.stage = .buffers ∧ ok = false) then s.lift a else none
  | .rxGiveback =>
    if s.unlinkedEp then (s.lift a).map fun s => { s with unlinkedEp := false } else none
  | _ => s.lift a

/-- The transmit thread goes from one use of its entry to the next. -/
def sendStep (s : SplitPort) (old new : SendStage) : Option SplitPort :=
  match s.port.tx with
  | .sendSubmit _ => if s.stage = old then some { s with stage := new } else none
  | _ => none

/-- `vhci_urb_dequeue` locks and reads `urb->hcpriv`. -/
def dequeueLock (s : SplitPort) (urb : ℕ) : Option SplitPort :=
  if s.ctl ≠ .free then none
  else
    match s.port.hcpriv urb with
    | none => some s
    | some id => some { s with ctl := .check urb id }

/-- `usb_hcd_check_unlink_urb`. -/
def dequeueCheck (s : SplitPort) (checkRet : ℤ) : Option SplitPort :=
  match s.ctl with
  | .check urb id => some { s with ctl := if checkRet ≠ 0 then .free else .vdev urb id }
  | _ => none

/-- `vdev = priv->vdev`. -/
def dequeueVdev (s : SplitPort) : Option SplitPort :=
  match s.ctl with
  | .vdev urb id => some { s with ctl := .socket urb id }
  | _ => none

/-- The test of `vdev->ud.tcp_socket`. -/
def dequeueSocket (s : SplitPort) : Option SplitPort :=
  match s.ctl with
  | .socket urb id =>
    some { s with ctl := if s.port.tcpSocket then .link urb id else .release urb id }
  | _ => none

/-- The section under `priv_lock` on a live connection. What `priv->seqnum` is in a freed entry
is not defined. -/
def dequeueLink (s : SplitPort) (alloc : Bool) : Option SplitPort :=
  match s.ctl with
  | .link _ id =>
    if !alloc then some { s with port := { s.port with event := true }, ctl := .free }
    else
      (s.port.privs.find? fun p => p.id == id).map fun p =>
        { s with
          port :=
            { s.port with
              seqnum := s.port.atomicIncReturn
              unlinkTx := s.port.unlinkTx ++
                [⟨Port.toULong s.port.atomicIncReturn, p.seqnum, id⟩] }
          ctl := .free }
  | _ => none

/-- The section under `priv_lock` without a connection; freeing twice is not defined. -/
def dequeueRelease (s : SplitPort) : Option SplitPort :=
  match s.ctl with
  | .release urb id =>
    if id ∈ s.port.privs.map (·.id) then
      some { s with port := s.port.dequeueClosed urb id, ctl := .unlinkEp urb }
    else none
  | _ => none

/-- `usb_hcd_unlink_urb_from_ep`, and the lock is released for the giveback. -/
def dequeueUnlinkEp (s : SplitPort) : Option SplitPort :=
  match s.ctl with
  | .unlinkEp _ => some { s with ctl := .free }
  | _ => none

/-- `usb_hcd_unlink_urb_from_ep` called by the receive thread. -/
def rxUnlinkEp (s : SplitPort) : Option SplitPort :=
  match s.port.rx with
  | .giveback _ =>
    if s.ctl = .free ∧ s.unlinkedEp = false then some { s with unlinkedEp := true } else none
  | _ => none

def step (s : SplitPort) : SplitAct → Option SplitPort
  | .port a => s.portStep a
  | .txReadUrb => s.sendStep .taken .setup
  | .txSetup => s.sendStep .setup .buffers
  | .txBuffers => s.sendStep .buffers .sendmsg
  | .dequeueLock urb => s.dequeueLock urb
  | .dequeueCheck checkRet => s.dequeueCheck checkRet
  | .dequeueVdev => s.dequeueVdev
  | .dequeueSocket => s.dequeueSocket
  | .dequeueLink alloc => s.dequeueLink alloc
  | .dequeueRelease => s.dequeueRelease
  | .dequeueUnlinkEp => s.dequeueUnlinkEp
  | .rxUnlinkEp => s.rxUnlinkEp

/-! ### What is in use -/

/-- The URB that `vhci_send_cmd_submit` has still to use. -/
def txUrb (s : SplitPort) : Option ℕ :=
  match s.port.tx with
  | .sendSubmit p => some p.urb
  | _ => none

/-- The entry that `vhci_send_cmd_submit` has still to use. -/
def txPriv (s : SplitPort) : Option VhciPriv :=
  match s.port.tx, s.stage with
  | .sendSubmit p, .taken | .sendSubmit p, .setup => some p
  | _, _ => none

/-- **Ownership**: what the transmit thread and `vhci_urb_dequeue` have picked up and still use
belongs to the port. An entry has not been freed, and the core still waits for its URB. -/
structure Owned (s : SplitPort) : Prop where
  tx_priv : ∀ p, s.txPriv = some p → p ∈ s.port.privs
  tx_urb : ∀ urb, s.txUrb = some urb → outstanding s.port.core urb = true
  dequeue_priv : ∀ urb id, s.ctl.priv = some (urb, id) → ∃ p ∈ s.port.privs, p.id = id
  dequeue_urb : ∀ urb, s.ctl.urb = some urb → outstanding s.port.core urb = true
  /-- what a call has unlocked for is given back by itself -/
  dequeue_giveback : ∀ urb ∈ s.port.callers, outstanding s.port.core urb = true

/-- Some context still uses the entry. -/
def inUse (s : SplitPort) (p : VhciPriv) : Bool :=
  s.txPriv == some p || s.ctl.priv.any fun r => r.2 == p.id

/-- The entry that `pickup_urb_and_free_priv` frees for a sequence number. -/
def picked (s : SplitPort) (seqnum : BitVec 32) : Option VhciPriv :=
  (findSplit (fun p => p.seqnum == seqnum.setWidth 64) s.port.privRx).map (·.2.1)

/-- **No early answer**: the receive thread does not free an entry that is in use, and does not
give back a URB whose CMD_SUBMIT is being sent. -/
def notEarly (s : SplitPort) : SplitAct → Bool
  | .port (.rxRetSubmit seqnum _) => (s.picked seqnum).all fun p => !s.inUse p
  | .port .rxPickup =>
    match s.port.rx with
    | .retUnlink u _ => (s.picked (u.unlinkSeqnum.setWidth 32)).all fun p => !s.inUse p
    | _ => true
  | .port .rxGiveback =>
    match s.port.rx with
    | .giveback urb => s.txUrb != some urb
    | _ => true
  | _ => true

end SplitPort

/-- One connection of a port, with the two locks apart. -/
def splitPort (seqnum : BitVec 32) (udev : Option ℕ) : Machine SplitPort SplitAct :=
  ⟨⟨attached seqnum udev, .taken, .free, false⟩, SplitPort.step⟩

/-! ### The invariant -/

/-- The invariant of a port with the two locks apart, as long as no answer is early. -/
structure SplitInv (s : SplitPort) : Prop where
  port : PortInv s.port
  tx_priv : ∀ p, s.txPriv = some p → p ∈ s.port.privs
  tx_urb : ∀ p, s.port.tx = .sendSubmit p →
    outstanding s.port.core p.urb = true ∧ p.urb ∉ s.port.callers
  ctl_priv : ∀ urb id, s.ctl.priv = some (urb, id) → ∃ p ∈ s.port.privs, p.id = id ∧ p.urb = urb
  unlink_ep : ∀ urb, s.ctl = .unlinkEp urb → urb ∈ s.port.callers
  /-- The socket is released, and the connection cleaned up, when the threads have stopped. -/
  past_shut : s.port.shut ≠ .live → s.port.shut ≠ .stopping → s.port.tx = .stopped
  no_socket : s.port.tcpSocket = false → s.port.tx = .stopped
  release : ∀ urb id, s.ctl = .release urb id → s.port.tx = .stopped

namespace SplitInv

variable {s s' : SplitPort}

/-- The invariant is what the claim of ownership needs. -/
theorem owned (h : SplitInv s) : s.Owned where
  tx_priv := h.tx_priv
  tx_urb urb hurb := by
    unfold SplitPort.txUrb at hurb
    split at hurb
    next p htx =>
      obtain rfl := Option.some.inj hurb
      exact (h.tx_urb p htx).1
    · cases hurb
  dequeue_priv urb id hid := by
    obtain ⟨p, hp, hpid, -⟩ := h.ctl_priv urb id hid
    exact ⟨p, hp, hpid⟩
  dequeue_urb urb hurb := by
    have hpriv : ∀ id, s.ctl.priv = some (urb, id) → outstanding s.port.core urb = true := by
      intro id hid
      obtain ⟨p, hp, -, rfl⟩ := h.ctl_priv urb id hid
      exact h.port.held_outstanding p.urb (List.mem_append_left _ (List.mem_map_of_mem hp))
    cases hctl : s.ctl with
    | free => simp [hctl, CtlPc.urb] at hurb
    | unlinkEp u =>
      obtain rfl : u = urb := by simpa [hctl, CtlPc.urb] using hurb
      exact h.port.held_outstanding u (List.mem_append_right _
        (List.mem_append_right _ (h.unlink_ep u hctl)))
    | check u id | vdev u id | socket u id | link u id | release u id =>
      obtain rfl : u = urb := by simpa [hctl, CtlPc.urb] using hurb
      exact hpriv id (by rw [hctl]; rfl)
  dequeue_giveback urb hurb := h.port.held_outstanding urb
    (List.mem_append_right _ (List.mem_append_right _ hurb))

/-- The transmit thread has not stopped while it holds an entry. -/
theorem tx_ne_stopped {p : VhciPriv} (htx : s.port.tx = .sendSubmit p) : s.port.tx ≠ .stopped := by
  rw [htx]
  exact TxPc.noConfusion

theorem inUse_of_txPriv {p : VhciPriv} (hp : s.txPriv = some p) : s.inUse p = true := by
  simp [SplitPort.inUse, hp]

theorem inUse_of_ctl {p : VhciPriv} {urb : ℕ} (hp : s.ctl.priv = some (urb, p.id)) :
    s.inUse p = true := by
  simp [SplitPort.inUse, hp]

/-- What a step of the port must leave alone. The transmit thread goes on as it is or lets its
entry go; what is in use stays linked, is not given back and does not come to a call. -/
structure Leaves (s : SplitPort) (port : Port) : Prop where
  tx : port.tx = s.port.tx ∨ (s.port.tx ≠ .stopped ∧ ∀ p, port.tx ≠ .sendSubmit p)
  privs : ∀ p ∈ s.port.privs, s.inUse p = true → p ∈ port.privs
  tx_urb : ∀ p, s.port.tx = .sendSubmit p →
    outstanding s.port.core p.urb = true ∧ p.urb ∉ s.port.callers →
    outstanding port.core p.urb = true ∧ p.urb ∉ port.callers
  unlink_ep : ∀ urb, s.ctl = .unlinkEp urb → urb ∈ s.port.callers → urb ∈ port.callers
  past_shut : port.shut ≠ .live → port.shut ≠ .stopping →
    port.tx = .stopped ∨ (s.port.shut ≠ .live ∧ s.port.shut ≠ .stopping)
  no_socket : port.tcpSocket = false → port.tx = .stopped ∨ s.port.tcpSocket = false

/-- The records, the core and the calls stand still. -/
theorem Leaves.of_frame {port : Port}
    (htx : port.tx = s.port.tx ∨ (s.port.tx ≠ .stopped ∧ ∀ p, port.tx ≠ .sendSubmit p))
    (hprivs : port.privs = s.port.privs) (hcore : port.core = s.port.core)
    (hcallers : port.callers = s.port.callers) (hshut : port.shut = s.port.shut)
    (hsocket : port.tcpSocket = s.port.tcpSocket) : Leaves s port where
  tx := htx
  privs p hp _ := hprivs ▸ hp
  tx_urb p _ hp := by rwa [hcore, hcallers]
  unlink_ep urb _ hurb := hcallers ▸ hurb
  past_shut h₁ h₂ := .inr ⟨hshut ▸ h₁, hshut ▸ h₂⟩
  no_socket hs := .inr (hsocket ▸ hs)

/-- Only the transmit thread has moved. -/
theorem Leaves.of_tx {port : Port} (hnot : s.port.tx ≠ .stopped)
    (htx : ∀ p, port.tx ≠ .sendSubmit p) (hprivs : port.privs = s.port.privs)
    (hcore : port.core = s.port.core) (hcallers : port.callers = s.port.callers)
    (hshut : port.shut = s.port.shut) (hsocket : port.tcpSocket = s.port.tcpSocket) :
    Leaves s port :=
  .of_frame (.inr ⟨hnot, htx⟩) hprivs hcore hcallers hshut hsocket

/-- The transmit thread stands still, and so do the records, the core and the calls. -/
theorem Leaves.of_eq {port : Port} (htx : port.tx = s.port.tx)
    (hprivs : port.privs = s.port.privs) (hcore : port.core = s.port.core)
    (hcallers : port.callers = s.port.callers) (hshut : port.shut = s.port.shut)
    (hsocket : port.tcpSocket = s.port.tcpSocket) : Leaves s port :=
  .of_frame (.inl htx) hprivs hcore hcallers hshut hsocket

/-- Such a step keeps the invariant. -/
theorem leaves (h : SplitInv s) {port : Port} (hport : PortInv port) (hl : Leaves s port) :
    SplitInv { s with port := port } := by
  have hstopped : s.port.tx = .stopped → port.tx = .stopped := by
    intro hs
    rcases hl.tx with htx | ⟨hnot, -⟩
    · exact htx.trans hs
    · exact absurd hs hnot
  have hsend : ∀ p, port.tx = .sendSubmit p → port.tx = s.port.tx := by
    intro p hp
    rcases hl.tx with htx | ⟨-, hnone⟩
    · exact htx
    · exact absurd hp (hnone p)
  constructor
  · exact hport
  · intro p hp
    have htx : port.tx = s.port.tx := by
      cases htx : port.tx with
      | sendSubmit q => exact htx ▸ hsend q htx
      | submitLoop | unlinkLoop | sendUnlink q | wait | stopped =>
        simp [SplitPort.txPriv, htx] at hp
    have hp : s.txPriv = some p := by
      rw [← hp]
      simp only [SplitPort.txPriv, htx]
    exact hl.privs p (h.tx_priv p hp) (inUse_of_txPriv hp)
  · intro p hp
    have hp : s.port.tx = .sendSubmit p := (hsend p hp).symm.trans hp
    exact hl.tx_urb p hp (h.tx_urb p hp)
  · intro urb id hid
    obtain ⟨p, hp, rfl, hurb⟩ := h.ctl_priv urb id hid
    exact ⟨p, hl.privs p hp (inUse_of_ctl hid), rfl, hurb⟩
  · exact fun urb hurb => hl.unlink_ep urb hurb (h.unlink_ep urb hurb)
  · intro h₁ h₂
    rcases hl.past_shut h₁ h₂ with hs | ⟨h₁, h₂⟩
    · exact hs
    · exact hstopped (h.past_shut h₁ h₂)
  · intro hs
    rcases hl.no_socket hs with hs | hs
    · exact hs
    · exact hstopped (h.no_socket hs)
  · exact fun urb id hid => hstopped (h.release urb id hid)

/-- A step of a call that holds `the_controller->lock` or of the transmit thread: the port stays
as it is. -/
theorem stay (h : SplitInv s) {stage : SendStage} {ctl : CtlPc} {unlinkedEp : Bool}
    (hstage : ∀ p, SplitPort.txPriv { s with stage := stage } = some p → s.txPriv = some p)
    (hpriv : ∀ urb id, ctl.priv = some (urb, id) → s.ctl.priv = some (urb, id))
    (hep : ∀ urb, ctl = .unlinkEp urb → urb ∈ s.port.callers)
    (hrelease : ∀ urb id, ctl = .release urb id → s.port.tx = .stopped) :
    SplitInv ⟨s.port, stage, ctl, unlinkedEp⟩ where
  port := h.port
  tx_priv p hp := h.tx_priv p (hstage p hp)
  tx_urb := h.tx_urb
  ctl_priv urb id hid := h.ctl_priv urb id (hpriv urb id hid)
  unlink_ep := hep
  past_shut := h.past_shut
  no_socket := h.no_socket
  release := hrelease

/-- What `pickup_urb_and_free_priv` finds is the entry that it frees. -/
theorem picked_of_pickup {seqnum : BitVec 32} {urb : ℕ} {port : Port}
    (hp : s.port.pickupUrbAndFreePriv seqnum = some (urb, port)) :
    ∃ l₁ p l₂, s.picked seqnum = some p ∧ s.port.privRx = l₁ ++ p :: l₂ ∧ p.urb = urb ∧
      port = { s.port with
        privRx := l₁ ++ l₂, hcpriv := Function.update s.port.hcpriv urb none } := by
  obtain ⟨⟨l₁, p, l₂⟩, hwalk, heq⟩ := Option.map_eq_some_iff.mp hp
  obtain ⟨hl, -, -⟩ := findSplit_eq_some hwalk
  obtain ⟨rfl, rfl⟩ := Prod.mk.inj heq
  refine ⟨l₁, p, l₂, ?_, hl, rfl, rfl⟩
  rw [SplitPort.picked, hwalk]
  rfl

/-- An entry that is not in use is freed: everything that is in use stays linked. -/
theorem mem_privs_of_pickup {seqnum : BitVec 32} {urb : ℕ} {port : Port}
    (hp : s.port.pickupUrbAndFreePriv seqnum = some (urb, port))
    (hnot : ((s.picked seqnum).all fun p => !s.inUse p) = true) :
    ∀ q ∈ s.port.privs, s.inUse q = true → q ∈ port.privs := by
  obtain ⟨l₁, p, l₂, hpicked, hl, rfl, rfl⟩ := picked_of_pickup hp
  intro q hq huse
  have hne : q ≠ p := by
    rintro rfl
    simp [hpicked, huse] at hnot
  rw [Port.privs, hl, List.mem_append, List.mem_append, List.mem_cons] at hq
  rw [Port.privs, List.mem_append, List.mem_append]
  rcases hq with hq | hq | rfl | hq
  · exact .inl hq
  · exact .inr (.inl hq)
  · exact absurd rfl hne
  · exact .inr (.inr hq)

/-- The first sections of `vhci_recv_ret_submit` and the second of `vhci_recv_ret_unlink` leave
the rest alone when they free nothing that is in use. -/
theorem leaves_pickup {seqnum : BitVec 32} {urb : ℕ} {port : Port} (status : ℤ) (rx : RxPc)
    (hp : s.port.pickupUrbAndFreePriv seqnum = some (urb, port))
    (hnot : ((s.picked seqnum).all fun p => !s.inUse p) = true) :
    Leaves s { port.setStatus urb status with rx := rx } := by
  have hprivs := mem_privs_of_pickup hp hnot
  obtain ⟨l₁, p, l₂, -, -, rfl, rfl⟩ := picked_of_pickup hp
  exact ⟨.inl rfl, hprivs, fun _ _ h => h, fun _ _ h => h, fun h₁ h₂ => .inr ⟨h₁, h₂⟩, .inr⟩

/-- A new URB does not end the time of another. -/
theorem outstanding_of_enqueue {core : List CoreEvent} {urb u : ℕ}
    (hu : outstanding core u = true) : outstanding (core ++ [.enqueue urb]) u = true := by
  rw [outstanding_enqueue]
  split
  · rfl
  · exact hu

/-- A new URB is recorded, and possibly a new entry; no thread and no call has moved. -/
theorem leaves_newEntry {port : Port} {urb : ℕ} (htx : port.tx = s.port.tx)
    (hshut : port.shut = s.port.shut) (hsocket : port.tcpSocket = s.port.tcpSocket)
    (hprivs : ∀ p ∈ s.port.privs, p ∈ port.privs)
    (hcore : port.core = s.port.core ++ [.enqueue urb]) (hcallers : port.callers = s.port.callers) :
    Leaves s port := by
  refine ⟨.inl htx, fun p hp _ => hprivs p hp, fun p _ hp => ?_, fun u _ hu => hcallers ▸ hu,
    fun h₁ h₂ => .inr ⟨hshut ▸ h₁, hshut ▸ h₂⟩, fun hs => .inr (hsocket ▸ hs)⟩
  rw [hcore, hcallers]
  exact ⟨outstanding_of_enqueue hp.1, hp.2⟩

/-- `vhci_tx_urb` after the URB has been recorded. -/
theorem leaves_txUrb {port : Port} {urb : Urb} (alloc : Bool) (htx : port.tx = s.port.tx)
    (hshut : port.shut = s.port.shut) (hsocket : port.tcpSocket = s.port.tcpSocket)
    (hprivs : port.privs = s.port.privs)
    (hcore : port.core = s.port.core ++ [.enqueue urb.id])
    (hcallers : port.callers = s.port.callers) : Leaves s (port.vhciTxUrb urb alloc) := by
  rw [Port.vhciTxUrb]
  split
  · exact leaves_newEntry htx hshut hsocket (fun p hp => hprivs ▸ hp) hcore hcallers
  split
  · exact leaves_newEntry htx hshut hsocket (fun p hp => hprivs ▸ hp) hcore hcallers
  · refine leaves_newEntry htx hshut hsocket (fun p hp => ?_) hcore hcallers
    rw [← hprivs, Port.privs, List.mem_append] at hp
    rw [Port.privs, List.mem_append]
    exact hp.imp_left (List.mem_append_left _)

/-- The new URB comes to the call itself, to be given back. -/
theorem leaves_noNeedXmit {port : Port} {urb : ℕ} (hout : outstanding s.port.core urb = false)
    (htx : port.tx = s.port.tx) (hshut : port.shut = s.port.shut)
    (hsocket : port.tcpSocket = s.port.tcpSocket) (hprivs : port.privs = s.port.privs)
    (hcore : port.core = s.port.core ++ [.enqueue urb]) (hcallers : port.callers = s.port.callers) :
    Leaves s (port.noNeedXmit urb) := by
  refine ⟨.inl htx, fun p hp _ => ?_, fun p _ hp => ⟨?_, ?_⟩, fun u _ hu => ?_,
    fun h₁ h₂ => .inr ⟨hshut ▸ h₁, hshut ▸ h₂⟩, fun hs => .inr (hsocket ▸ hs)⟩
  · change p ∈ port.privs
    rwa [hprivs]
  · change outstanding port.core _ = true
    rw [hcore]
    exact outstanding_of_enqueue hp.1
  · have hne : p.urb ≠ urb := by
      rintro rfl
      simp [hp.1] at hout
    change p.urb ∉ port.callers ++ [urb]
    rw [hcallers, List.mem_append, List.mem_singleton, not_or]
    exact ⟨hp.2, hne⟩
  · change u ∈ port.callers ++ [urb]
    rw [hcallers]
    exact List.mem_append_left _ hu

/-- What an accepted or refused enqueue does to the parts that others use: the URB goes to a new
entry, to the calling context, or nowhere. -/
theorem leaves_enqueue (urb : Urb) (linkRet : ℤ) (alloc : Bool)
    (hout : outstanding s.port.core urb.id = false) :
    Leaves s (s.port.vhciUrbEnqueue urb linkRet alloc).2 := by
  have hsame : Leaves s s.port := .of_eq rfl rfl rfl rfl rfl rfl
  exact Port.vhciUrbEnqueue_cases hsame (leaves_noNeedXmit hout rfl rfl rfl rfl rfl rfl)
    (leaves_noNeedXmit hout rfl rfl rfl rfl rfl rfl) (leaves_txUrb alloc rfl rfl rfl rfl rfl rfl)
    (leaves_txUrb alloc rfl rfl rfl rfl rfl rfl) linkRet

/-- The cleanup does not move the transmit thread. -/
theorem unlinkCleanupLoop_tx (us : List VhciUnlink) (p : Port) :
    (Port.unlinkCleanupLoop us p).tx = p.tx := by
  refine Port.unlinkCleanupLoop_cases (motive := fun q => q.tx = p.tx) rfl
    (fun _ _ _ _ hp => ?_) us
  obtain ⟨_, _, _, -, rfl, rfl⟩ := Port.pickupUrbAndFreePriv_eq_some hp
  rfl

/-- When the threads have stopped and nobody holds `the_controller->lock`, nothing is in use. -/
theorem leaves_stopped {port : Port} (hstopped : s.port.tx = .stopped) (hctl : s.ctl.priv = none)
    (htx : port.tx = s.port.tx) (hep : ∀ urb, s.ctl ≠ .unlinkEp urb) : Leaves s port where
  tx := .inl htx
  privs p _ hp := by
    simp [SplitPort.inUse, SplitPort.txPriv, hstopped, hctl] at hp
  tx_urb p hp := absurd hstopped (tx_ne_stopped hp)
  unlink_ep urb hurb := absurd hurb (hep urb)
  past_shut _ _ := .inl (htx.trans hstopped)
  no_socket _ := .inl (htx.trans hstopped)

/-- A call gives back the URB that it has taken, unless it is only about to unlink it. -/
theorem leaves_callerGiveback {urb : ℕ} (hctl : s.ctl ≠ .unlinkEp urb)
    (hmem : urb ∈ s.port.callers) :
    Leaves s { s.port.givebackUrb urb with callers := s.port.callers.erase urb } := by
  refine ⟨.inl rfl, fun p hp _ => hp, fun p _ hp => ⟨?_, ?_⟩, fun u hu hmem => ?_,
    fun h₁ h₂ => .inr ⟨h₁, h₂⟩, .inr⟩
  · have hne : urb ≠ p.urb := by
      rintro rfl
      exact hp.2 hmem
    exact (outstanding_giveback _ _ _ _).trans ((if_neg hne).trans hp.1)
  · exact fun hmem => hp.2 (List.mem_of_mem_erase hmem)
  · have hne : u ≠ urb := by
      rintro rfl
      exact hctl hu
    exact (List.mem_erase_of_ne hne).mpr hmem

/-- The receive thread gives back a URB whose buffer is not being sent. -/
theorem leaves_rxGiveback {urb : ℕ} (hne : ∀ p, s.port.tx = .sendSubmit p → urb ≠ p.urb) :
    Leaves s { s.port.givebackUrb urb with rx := .idle } :=
  ⟨.inl rfl, fun _ hp _ => hp,
    fun p htx hp =>
      ⟨(outstanding_giveback _ _ _ _).trans ((if_neg (hne p htx)).trans hp.1), hp.2⟩,
    fun _ _ hu => hu, fun h₁ h₂ => .inr ⟨h₁, h₂⟩, .inr⟩

/-- The transmit thread takes an entry of `priv_tx`, or finds none. -/
theorem takeSubmit (h : SplitInv s) (hs : s.portStep .txDequeueSubmit = some s') :
    SplitInv s' := by
  obtain ⟨s₁, hs₁, rfl⟩ := Option.map_eq_some_iff.mp hs
  obtain ⟨port, hport, rfl⟩ := Option.map_eq_some_iff.mp hs₁
  have hinv := h.port.step hport
  cases Port.moves_of_step hport with
  | submitsDone htx hempty =>
    have hloop := h.leaves hinv
      (.of_tx (by simp [htx]) (fun _ => TxPc.noConfusion) rfl rfl rfl rfl rfl)
    exact hloop.stay (fun _ hp => by cases hp) (fun _ _ hid => hid) hloop.unlink_ep
      hloop.release
  | @submitTaken p rest htx hprivTx =>
    have hnot : s.port.tx ≠ .stopped := by simp [htx]
    have hmem : p ∈ s.port.privs := by
      rw [Port.privs, hprivTx]
      exact List.mem_append_left _ List.mem_cons_self
    have hheld : p.urb ∉ s.port.callers := by
      intro hcall
      have hnd := List.disjoint_of_nodup_append h.port.held_nodup
      exact hnd (List.mem_map_of_mem hmem) (List.mem_append_right _ hcall)
    have hprivs : ∀ q ∈ s.port.privs, q ∈ rest ++ (s.port.privRx ++ [p]) := by
      intro q hq
      rw [Port.privs, hprivTx] at hq
      simp only [List.cons_append, List.mem_cons, List.mem_append] at hq
      simp only [List.mem_append, List.mem_singleton]
      tauto
    refine ⟨hinv, ?_, ?_, ?_, h.unlink_ep, fun h₁ h₂ => absurd (h.past_shut h₁ h₂) hnot,
      fun hs => absurd (h.no_socket hs) hnot, fun u id hid => absurd (h.release u id hid) hnot⟩
    · intro q hq
      obtain rfl : p = q := Option.some.inj hq
      exact hprivs p hmem
    · intro q hq
      obtain rfl : p = q := TxPc.sendSubmit.inj hq
      exact ⟨h.port.held_outstanding _ (List.mem_append_left _ (List.mem_map_of_mem hmem)),
        hheld⟩
    · intro urb id hid
      obtain ⟨q, hq, hqid⟩ := h.ctl_priv urb id hid
      exact ⟨q, hprivs q hq, hqid⟩

/-- The steps that are the port's own keep the invariant. -/
theorem portStep (h : SplitInv s) {a : Act} (hok : s.notEarly (.port a) = true)
    (hs : s.portStep a = some s') : SplitInv s' := by
  -- these steps leave the control thread where it is
  have hlift : ∀ {s' : SplitPort}, s.lift a = some s' → (∀ port, s.port.step a = some port →
      Leaves s port) → SplitInv s' := by
    intro s' hs hl
    obtain ⟨port, hport, rfl⟩ := Option.map_eq_some_iff.mp hs
    exact h.leaves (h.port.step hport) (hl port hport)
  cases a with
  | dequeue urb checkRet alloc => simp [SplitPort.portStep] at hs
  | enqueue urb linkRet alloc =>
    refine hlift (Option.ite_none_right_eq_some.mp hs).2 fun port hport => ?_
    cases Port.moves_of_step hport with
    | enqueue hout => exact leaves_enqueue urb linkRet alloc hout
  | callerGiveback urb =>
    obtain ⟨hctl, hs⟩ := Option.ite_none_left_eq_some.mp hs
    refine hlift hs fun port hport => ?_
    cases Port.moves_of_step hport with
    | callerGiveback hmem => exact leaves_callerGiveback hctl hmem
  | txDequeueSubmit => exact h.takeSubmit hs
  | txSendSubmit ok =>
    refine hlift (Option.ite_none_right_eq_some.mp hs).2 fun port hport => ?_
    cases Port.moves_of_step hport with
    | submitSent htx | submitUnsent htx =>
      exact .of_tx (by simp [htx]) (fun _ => TxPc.noConfusion) rfl rfl rfl rfl rfl
  | txDequeueUnlink =>
    refine hlift hs fun port hport => ?_
    cases Port.moves_of_step hport with
    | unlinksDone htx | unlinkTaken htx =>
      exact .of_tx (by simp [htx]) (fun _ => TxPc.noConfusion) rfl rfl rfl rfl rfl
  | txSendUnlink ok =>
    refine hlift hs fun port hport => ?_
    cases Port.moves_of_step hport with
    | unlinkSent htx | unlinkUnsent htx =>
      exact .of_tx (by simp [htx]) (fun _ => TxPc.noConfusion) rfl rfl rfl rfl rfl
  | txWake =>
    refine hlift hs fun port hport => ?_
    cases Port.moves_of_step hport with
    | txStop htx | txWake htx =>
      exact .of_tx (by simp [htx]) (fun _ => TxPc.noConfusion) rfl rfl rfl rfl rfl
  | rxRetSubmit seqnum status =>
    refine hlift hs fun port hport => ?_
    cases Port.moves_of_step hport with
    | retSubmitUnknown => exact .of_eq rfl rfl rfl rfl rfl rfl
    | retSubmit hrx hpick => exact leaves_pickup status _ hpick hok
  | rxPayload ok =>
    refine hlift hs fun port hport => ?_
    cases Port.moves_of_step hport with
    | payload | payloadFailed => exact .of_eq rfl rfl rfl rfl rfl rfl
  | rxRetUnlink seqnum status =>
    refine hlift hs fun port hport => ?_
    cases Port.moves_of_step hport with
    | retUnlinkUnknown => exact .of_eq rfl rfl rfl rfl rfl rfl
    | retUnlink hrx hun =>
      obtain ⟨_, _, -, rfl⟩ := Port.dequeuePendingUnlink_eq_some hun
      exact .of_eq rfl rfl rfl rfl rfl rfl
  | rxPickup =>
    refine hlift hs fun port hport => ?_
    cases Port.moves_of_step hport with
    | pickupNone => exact .of_eq rfl rfl rfl rfl rfl rfl
    | @pickup u status urb port₁ hrx hpick =>
      simp only [SplitPort.notEarly, hrx] at hok
      exact leaves_pickup status _ hpick hok
  | rxGiveback =>
    obtain ⟨-, hs⟩ := Option.ite_none_right_eq_some.mp hs
    obtain ⟨s₁, hs₁, rfl⟩ := Option.map_eq_some_iff.mp hs
    have hinv : SplitInv s₁ := by
      refine hlift hs₁ fun port hport => ?_
      cases Port.moves_of_step hport with
      | rxGiveback hrx =>
        refine leaves_rxGiveback fun p htx => ?_
        rintro rfl
        simp [SplitPort.notEarly, SplitPort.txUrb, hrx, htx] at hok
    exact hinv.stay (fun _ hp => hp) (fun _ _ hid => hid) hinv.unlink_ep hinv.release
  | rxStop =>
    refine hlift hs fun port hport => ?_
    cases Port.moves_of_step hport with
    | rxStop => exact .of_eq rfl rfl rfl rfl rfl rfl
  | shutdown =>
    refine hlift hs fun port hport => ?_
    cases Port.moves_of_step hport with
    | shutdown =>
      exact ⟨.inl rfl, fun p hp _ => hp, fun _ _ h => h, fun _ _ h => h,
        fun _ hnot => absurd rfl hnot, .inr⟩
  | releaseSocket =>
    refine hlift hs fun port hport => ?_
    cases Port.moves_of_step hport with
    | releaseSocket hshut htx hrx =>
      exact ⟨.inl rfl, fun p hp _ => hp, fun _ _ h => h, fun _ _ h => h, fun _ _ => .inl htx,
        fun _ => .inl htx⟩
  | cleanup =>
    obtain ⟨hctl, hs⟩ := Option.ite_none_right_eq_some.mp hs
    refine hlift hs fun port hport => ?_
    have hfree : s.ctl.priv = none := by rw [hctl]; rfl
    have hep : ∀ urb, s.ctl ≠ .unlinkEp urb := by
      intro urb
      rw [hctl]
      exact CtlPc.noConfusion
    cases Port.moves_of_step hport with
    | cleanup hshut | cleanupOn hshut =>
      have hstopped := h.past_shut (by simp [hshut]) (by simp [hshut])
      exact leaves_stopped hstopped hfree (unlinkCleanupLoop_tx _ _) hep
  | cleanupGiveback =>
    refine hlift hs fun port hport => ?_
    cases Port.moves_of_step hport with
    | cleanupGiveback hshut =>
      have hstopped := h.past_shut (by simp [hshut]) (by simp [hshut])
      exact ⟨.inl rfl, fun p hp _ => hp, fun p htx => absurd hstopped (tx_ne_stopped htx),
        fun _ _ hu => hu, fun _ _ => .inl hstopped, fun _ => .inl hstopped⟩

/-- The transmit thread gets to the next use of its entry. -/
theorem sendStep (h : SplitInv s) {old new : SendStage} (hnew : new ≠ .taken)
    (hold : new = .setup → old = .taken) (hs : s.sendStep old new = some s') : SplitInv s' := by
  unfold SplitPort.sendStep at hs
  split at hs
  next p htx =>
    obtain ⟨hstage, hs⟩ := Option.ite_none_right_eq_some.mp hs
    obtain rfl := Option.some.inj hs
    refine h.stay (fun q hq => ?_) (fun _ _ hid => hid) h.unlink_ep h.release
    cases new with
    | taken => exact absurd rfl hnew
    | setup =>
      have hq : some p = some q := by simpa [SplitPort.txPriv, htx] using hq
      simpa [SplitPort.txPriv, htx, hstage, hold rfl] using hq
    | buffers | sendmsg => simp [SplitPort.txPriv, htx] at hq
  · cases hs

theorem dequeueLock (h : SplitInv s) {urb : ℕ} (hs : s.dequeueLock urb = some s') :
    SplitInv s' := by
  obtain ⟨hctl, hs⟩ := Option.ite_none_left_eq_some.mp hs
  split at hs
  · exact Option.some.inj hs ▸ h
  next id hid =>
    obtain rfl := Option.some.inj hs
    -- the entry is linked, as `hcpriv` points to it
    obtain ⟨p, hp, hpid, hpurb⟩ := h.port.linked.live urb id hid
    refine ⟨h.port, h.tx_priv, h.tx_urb, fun u i hi => ?_, fun _ hu => CtlPc.noConfusion hu,
      h.past_shut, h.no_socket, fun _ _ hu => CtlPc.noConfusion hu⟩
    obtain ⟨rfl, rfl⟩ : urb = u ∧ id = i := by simpa [CtlPc.priv] using hi
    exact ⟨p, hp, hpid, hpurb⟩

/-- A call of `vhci_urb_dequeue` goes on with the entry that it has read, or unlocks. -/
theorem dequeueNext (h : SplitInv s) {urb id : ℕ} (hctl : s.ctl.priv = some (urb, id))
    {ctl : CtlPc} (hnext : ctl.priv = some (urb, id) ∨ ctl.priv = none)
    (hep : ∀ u, ctl ≠ .unlinkEp u) (hrelease : ∀ u i, ctl = .release u i → s.port.tx = .stopped) :
    SplitInv { s with ctl := ctl } := by
  refine h.stay (fun _ hp => hp) (fun u i hi => ?_) (fun u hu => absurd hu (hep u)) hrelease
  rcases hnext with hsame | hnone
  · rw [hsame] at hi
    rw [hctl]
    exact hi
  · rw [hnone] at hi
    cases hi

theorem dequeueCheck (h : SplitInv s) {checkRet : ℤ} (hs : s.dequeueCheck checkRet = some s') :
    SplitInv s' := by
  unfold SplitPort.dequeueCheck at hs
  split at hs
  next urb id hctl =>
    obtain rfl := Option.some.inj hs
    have hpriv : s.ctl.priv = some (urb, id) := by rw [hctl]; rfl
    split
    · exact h.dequeueNext hpriv (.inr rfl) (fun _ => CtlPc.noConfusion)
        fun _ _ => CtlPc.noConfusion
    · exact h.dequeueNext hpriv (.inl rfl) (fun _ => CtlPc.noConfusion)
        fun _ _ => CtlPc.noConfusion
  · cases hs

theorem dequeueVdev (h : SplitInv s) (hs : s.dequeueVdev = some s') : SplitInv s' := by
  unfold SplitPort.dequeueVdev at hs
  split at hs
  next urb id hctl =>
    obtain rfl := Option.some.inj hs
    have hpriv : s.ctl.priv = some (urb, id) := by rw [hctl]; rfl
    exact h.dequeueNext hpriv (.inl rfl) (fun _ => CtlPc.noConfusion) fun _ _ => CtlPc.noConfusion
  · cases hs

/-- A call that sees no socket comes after the threads have stopped. -/
theorem dequeueSocket (h : SplitInv s) (hs : s.dequeueSocket = some s') : SplitInv s' := by
  unfold SplitPort.dequeueSocket at hs
  split at hs
  next urb id hctl =>
    obtain rfl := Option.some.inj hs
    have hpriv : s.ctl.priv = some (urb, id) := by rw [hctl]; rfl
    split
    · exact h.dequeueNext hpriv (.inl rfl) (fun _ => CtlPc.noConfusion)
        fun _ _ => CtlPc.noConfusion
    next hsocket =>
      exact h.dequeueNext hpriv (.inl rfl) (fun _ => CtlPc.noConfusion)
        fun _ _ _ => h.no_socket (by simpa using hsocket)
  · cases hs

theorem dequeueLink (h : SplitInv s) {alloc : Bool} (hs : s.dequeueLink alloc = some s') :
    SplitInv s' := by
  unfold SplitPort.dequeueLink at hs
  split at hs
  next urb id hctl =>
    have hpriv : s.ctl.priv = some (urb, id) := by rw [hctl]; rfl
    have hfree : SplitInv { s with ctl := .free } :=
      h.dequeueNext hpriv (.inr rfl) (fun _ => CtlPc.noConfusion) fun _ _ => CtlPc.noConfusion
    split at hs
    · obtain rfl := Option.some.inj hs
      exact hfree.leaves (hfree.port.frame rfl rfl rfl rfl rfl) (.of_eq rfl rfl rfl rfl rfl rfl)
    · obtain ⟨p, -, rfl⟩ := Option.map_eq_some_iff.mp hs
      exact hfree.leaves (hfree.port.frame rfl rfl rfl rfl rfl) (.of_eq rfl rfl rfl rfl rfl rfl)
  · cases hs

/-- Without a connection the entry is freed and the URB comes to the call. -/
theorem dequeueRelease (h : SplitInv s) (hs : s.dequeueRelease = some s') : SplitInv s' := by
  unfold SplitPort.dequeueRelease at hs
  split at hs
  next urb id hctl =>
    obtain ⟨-, hs⟩ := Option.ite_none_right_eq_some.mp hs
    obtain rfl := Option.some.inj hs
    have hstopped := h.release urb id hctl
    obtain ⟨p, hp, rfl, rfl⟩ := h.ctl_priv urb id (by rw [hctl]; rfl)
    have hid : { s.port with tcpSocket := false }.hcpriv p.urb = some p.id :=
      h.port.linked.back p hp
    have hclosed : PortInv ({ s.port with tcpSocket := false }.dequeueClosed p.urb p.id) :=
      (h.port.frame rfl rfl rfl rfl rfl : PortInv { s.port with tcpSocket := false }).dequeueClosed
        hid
    refine ⟨hclosed.frame rfl rfl rfl rfl rfl, fun q hq => ?_,
      fun q hq => absurd hstopped (tx_ne_stopped hq), fun _ _ hid => (by cases hid),
      fun u hu => ?_, fun _ _ => hstopped, fun _ => hstopped, fun _ _ _ => hstopped⟩
    · have hnone : s.txPriv = some q := hq
      simp [SplitPort.txPriv, hstopped] at hnone
    · obtain rfl : p.urb = u := CtlPc.unlinkEp.inj hu
      exact List.mem_append_right _ (List.mem_singleton_self _)
  · cases hs

theorem dequeueUnlinkEp (h : SplitInv s) (hs : s.dequeueUnlinkEp = some s') : SplitInv s' := by
  unfold SplitPort.dequeueUnlinkEp at hs
  split at hs
  · obtain rfl := Option.some.inj hs
    exact h.stay (fun _ hp => hp) (fun _ _ hid => by cases hid) (fun _ => CtlPc.noConfusion)
      fun _ _ => CtlPc.noConfusion
  · cases hs

theorem rxUnlinkEp (h : SplitInv s) (hs : s.rxUnlinkEp = some s') : SplitInv s' := by
  unfold SplitPort.rxUnlinkEp at hs
  split at hs
  · obtain ⟨-, hs⟩ := Option.ite_none_right_eq_some.mp hs
    obtain rfl := Option.some.inj hs
    exact h.stay (fun _ hp => hp) (fun _ _ hid => hid) h.unlink_ep h.release
  · cases hs

/-- Every step that is not early keeps the invariant. -/
theorem step (h : SplitInv s) {a : SplitAct} (hok : s.notEarly a = true)
    (hs : s.step a = some s') : SplitInv s' := by
  cases a with
  | port a => exact h.portStep hok hs
  | txReadUrb => exact h.sendStep SendStage.noConfusion (fun _ => rfl) hs
  | txSetup => exact h.sendStep SendStage.noConfusion SendStage.noConfusion hs
  | txBuffers => exact h.sendStep SendStage.noConfusion SendStage.noConfusion hs
  | dequeueLock urb => exact h.dequeueLock hs
  | dequeueCheck checkRet => exact h.dequeueCheck hs
  | dequeueVdev => exact h.dequeueVdev hs
  | dequeueSocket => exact h.dequeueSocket hs
  | dequeueLink alloc => exact h.dequeueLink hs
  | dequeueRelease => exact h.dequeueRelease hs
  | dequeueUnlinkEp => exact h.dequeueUnlinkEp hs
  | rxUnlinkEp => exact h.rxUnlinkEp hs

theorem init (seqnum : BitVec 32) (udev : Option ℕ) : SplitInv (splitPort seqnum udev).init where
  port := PortInv.of_reachable (.init : (vhciPort seqnum udev).Reachable _)
  tx_priv _ hp := by cases hp
  tx_urb _ hp := by cases hp
  ctl_priv _ _ hid := by cases hid
  unlink_ep _ hu := by cases hu
  past_shut hlive := absurd rfl hlive
  no_socket hs := by cases hs
  release _ _ hid := by cases hid

/-- The invariant holds as long as no step has been early. -/
theorem of_reachableWhere {seqnum : BitVec 32} {udev : Option ℕ}
    (h : (splitPort seqnum udev).ReachableWhere (fun s a => s.notEarly a = true) s) :
    SplitInv s :=
  h.invariant (init seqnum udev) fun _ _ _ hs hok hstep => hs.step hok hstep

/-- An entry that is freed while it is in use is not owned any more. -/
theorem not_owned_of_pickup (h : SplitInv s) {seqnum : BitVec 32} {urb : ℕ} {port : Port}
    (status : ℤ) (rx : RxPc) (hp : s.port.pickupUrbAndFreePriv seqnum = some (urb, port))
    (hearly : ¬ ((s.picked seqnum).all fun p => !s.inUse p) = true) :
    ¬ SplitPort.Owned { s with port := { port.setStatus urb status with rx := rx } } := by
  obtain ⟨l₁, p, l₂, hpicked, hl, rfl, rfl⟩ := picked_of_pickup hp
  have huse : s.inUse p = true := by simpa [hpicked] using hearly
  have hnd := h.port.linked.id_nodup
  rw [Port.privs, hl] at hnd
  have hgone : ∀ q ∈ s.port.privTx ++ (l₁ ++ l₂), q.id ≠ p.id := by
    intro q hq
    have hperm : (s.port.privTx ++ (l₁ ++ p :: l₂)).Perm (p :: (s.port.privTx ++ (l₁ ++ l₂))) :=
      ((List.perm_middle (a := p)).append_left s.port.privTx).trans List.perm_middle
    have hnd := List.nodup_cons.mp ((hperm.map VhciPriv.id).nodup_iff.mp hnd)
    exact fun heq => hnd.1 (List.mem_map.mpr ⟨q, hq, heq⟩)
  intro howned
  rw [SplitPort.inUse, Bool.or_eq_true] at huse
  rcases huse with huse | huse
  · have htx : s.txPriv = some p := by simpa using huse
    exact hgone p (howned.tx_priv p htx) rfl
  · obtain ⟨⟨u, i⟩, hctl, hid⟩ := (Option.any_eq_true _ _).mp huse
    obtain ⟨q, hq, hqid⟩ := howned.dequeue_priv u i hctl
    exact hgone q hq (hqid.trans (by simpa using hid))

/-- The first early step ends the ownership. -/
theorem not_owned_of_early (h : SplitInv s) {a : SplitAct} (hearly : ¬ s.notEarly a = true)
    (hs : s.step a = some s') : ¬ s'.Owned := by
  unfold SplitPort.notEarly at hearly
  split at hearly
  next seqnum status =>
    obtain ⟨port, hport, rfl⟩ := Option.map_eq_some_iff.mp hs
    cases Port.moves_of_step hport with
    | retSubmitUnknown hrx hnone =>
      rw [Port.pickupUrbAndFreePriv, Option.map_eq_none_iff] at hnone
      simp [SplitPort.picked, hnone] at hearly
    | retSubmit hrx hpick => exact h.not_owned_of_pickup status _ hpick hearly
  · split at hearly
    next u status hrx =>
      obtain ⟨port, hport, rfl⟩ := Option.map_eq_some_iff.mp hs
      cases Port.moves_of_step hport with
      | pickupNone hrx' hnone =>
        obtain ⟨rfl, -⟩ := RxPc.retUnlink.inj (hrx.symm.trans hrx')
        rw [Port.pickupUrbAndFreePriv, Option.map_eq_none_iff] at hnone
        simp [SplitPort.picked, hnone] at hearly
      | pickup hrx' hpick =>
        obtain ⟨rfl, -⟩ := RxPc.retUnlink.inj (hrx.symm.trans hrx')
        exact h.not_owned_of_pickup _ _ hpick hearly
    · exact absurd rfl hearly
  · split at hearly
    next urb hrx =>
      obtain ⟨-, hs⟩ := Option.ite_none_right_eq_some.mp hs
      obtain ⟨s₁, hs₁, rfl⟩ := Option.map_eq_some_iff.mp hs
      obtain ⟨port, hport, rfl⟩ := Option.map_eq_some_iff.mp hs₁
      cases Port.moves_of_step hport with
      | rxGiveback hrx' =>
        obtain rfl := RxPc.giveback.inj (hrx.symm.trans hrx')
        have hurb : s.txUrb = some urb := by simpa using hearly
        intro howned
        have hout :
            outstanding (s.port.core ++ [.giveback urb (s.port.urbStatus urb)]) urb = true :=
          howned.tx_urb urb hurb
        simp at hout
    · exact absurd rfl hearly
  · exact absurd rfl hearly

end SplitInv

/-- **Ownership of requests**: as long as the receive thread has not freed an entry in use nor
given back a URB that is being sent, all that `vhci_send_cmd_submit` and `vhci_urb_dequeue` still
use is owned by the port; and a step keeps it so exactly when it is not early. -/
theorem requests_owned {seqnum : BitVec 32} {udev : Option ℕ} {s : SplitPort}
    (h : (splitPort seqnum udev).ReachableWhere (fun s a => s.notEarly a = true) s) :
    s.Owned ∧ ∀ a s', s.step a = some s' → (s'.Owned ↔ s.notEarly a = true) := by
  have hinv := SplitInv.of_reachableWhere h
  refine ⟨hinv.owned, fun a s' hs => ⟨fun howned => ?_, fun hok => (hinv.step hok hs).owned⟩⟩
  by_contra hearly
  exact hinv.not_owned_of_early hearly hs howned

/-- A request is sent, unlinked and answered, each in its time. -/
def answeredInTime : List SplitAct :=
  [.port (.enqueue ⟨7, 1, einprogress, 2, false, none⟩ 0 true), .port .txDequeueSubmit,
    .txReadUrb, .txSetup, .txBuffers, .port (.txSendSubmit true), .dequeueLock 7,
    .dequeueCheck 0, .dequeueVdev, .dequeueSocket, .dequeueLink true,
    .port (.rxRetSubmit 1 0), .port (.rxPayload true), .rxUnlinkEp, .port .rxGiveback]

theorem requests_owned_answeredInTime :
    ∃ s, (splitPort 0 (some 1)).runWhere (fun s a => s.notEarly a = true)
      (splitPort 0 (some 1)).init answeredInTime = some s ∧
      (s.Owned ∧ ∀ a s', s.step a = some s' → (s'.Owned ↔ s.notEarly a = true)) :=
  Machine.exists_runWhere (m := splitPort 0 (some 1)) (by decide) fun _ h => requests_owned h

/-- The server answers a request that has been taken off `priv_tx` and not been sent. -/
def answeredBeforeSent : List SplitAct :=
  [.port (.enqueue ⟨7, 1, einprogress, 2, false, none⟩ 0 true), .port .txDequeueSubmit,
    .port (.rxRetSubmit 1 0)]

/-- The answer of a request comes while its unlink has read `hcpriv`. -/
def answeredWhileDequeued : List SplitAct :=
  [.port (.enqueue ⟨7, 1, einprogress, 2, false, none⟩ 0 true), .port .txDequeueSubmit,
    .txReadUrb, .txSetup, .txBuffers, .port (.txSendSubmit true), .dequeueLock 7,
    .port (.rxRetSubmit 1 0)]

/-- In the first run the transmit thread is left with a freed entry, in the second
`vhci_urb_dequeue` is. -/
theorem entry_freed_in_use :
    (∃ s, (splitPort 0 (some 1)).Reachable s ∧ s.txPriv = some ⟨0, 1, 7⟩ ∧ s.port.privs = [] ∧
      ¬ s.Owned) ∧
    ∃ s, (splitPort 0 (some 1)).Reachable s ∧ s.ctl = .check 7 0 ∧ s.port.privs = [] ∧
      ¬ s.Owned := by
  constructor
  · obtain ⟨s, hs, hp⟩ := Machine.exists_reachable_of_any (m := splitPort 0 (some 1))
      answeredBeforeSent (fun s => s.txPriv == some ⟨0, 1, 7⟩ && s.port.privs == []) (by decide)
    rw [Bool.and_eq_true, beq_iff_eq, beq_iff_eq] at hp
    refine ⟨s, hs, hp.1, hp.2, fun howned => ?_⟩
    have hmem := howned.tx_priv _ hp.1
    rw [hp.2] at hmem
    cases hmem
  · obtain ⟨s, hs, hp⟩ := Machine.exists_reachable_of_any (m := splitPort 0 (some 1))
      answeredWhileDequeued (fun s => s.ctl == .check 7 0 && s.port.privs == []) (by decide)
    rw [Bool.and_eq_true, beq_iff_eq, beq_iff_eq] at hp
    refine ⟨s, hs, hp.1, hp.2, fun howned => ?_⟩
    obtain ⟨q, hmem, -⟩ := howned.dequeue_priv 7 0 (by rw [hp.1]; rfl)
    rw [hp.2] at hmem
    cases hmem

end Usbip.Vhci
