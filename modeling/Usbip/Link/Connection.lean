import Usbip.Vhci.Numbers
import Usbip.Stub.Working

/-!
# The two ends of one connection

A port of the virtual host controller (`Vhci.Port`) and the exported device that it is attached to
(`Stub.StubDevice`), joined by a TCP connection: what the port writes is what the device has left to
read, in order, and the other way round. The contexts of both sides and the two directions of the
socket interleave freely.

* `request` and `reply` say what one side reads for what the other has written;
* `Connection.step` is a step of one of the sides, the receipt of the next reply, or a request of
  another port, which moves the counter that the ports share;
* `Healthy` is the condition of both sides together. It expects nothing of the replies: that they
  find their requests is to be proved.

The first facts are about the traffic from the port to the device: it numbers its requests apart,
and names in a CMD_UNLINK what it has submitted before (`clientTraffic`, `unlinkAfterSubmit`), as
the device expects of its client.
-/

namespace Usbip.Link

open Trace
open Vhci (CmdPdu VhciPriv VhciUnlink UnlinkOf ClientInv)
open Vhci.Port (wireSeqnum)
open Stub (Request StubEvent toU32)

/-- The header of a reply. -/
inductive Reply
  | retSubmit (seqnum : BitVec 32)
  | retUnlink (seqnum status : BitVec 32)
  deriving DecidableEq, Repr

/-- The request that the device reads for a PDU of the port. -/
def request : CmdPdu → Request
  | .cmdSubmit p => .cmdSubmit (wireSeqnum p.seqnum)
  | .cmdUnlink u => .cmdUnlink (wireSeqnum u.seqnum) (wireSeqnum u.unlinkSeqnum)

/-- The header that the port reads for a PDU of the device. -/
@[simp] def reply : StubEvent → Option Reply
  | .retSubmit p => some (.retSubmit (toU32 p.seqnum))
  | .retUnlink u => some (.retUnlink (toU32 u.seqnum) u.status)
  | _ => none

/-- A port, the device that it is attached to, and the replies on their way. `received` is the
history of the replies that the port has read. -/
structure Connection where
  port : Vhci.Port
  stub : Stub.StubDevice
  replies : List Reply
  received : List Reply

/-- The steps of the two sides and of the socket between them. -/
inductive Act
  | port (a : Vhci.Act)
  | stub (a : Stub.Act)
  /-- the receive thread of the port reads the next reply, a RET_SUBMIT with this status -/
  | recv (status : ℤ)
  /-- another port of the controller numbers a request -/
  | otherPort
  deriving DecidableEq, Repr

/-- `vhci_rx_pdu` on a header. -/
def Reply.act (status : ℤ) : Reply → Vhci.Act
  | .retSubmit q => .rxRetSubmit q status
  | .retUnlink q st => .rxRetUnlink q st.toInt

/-- A reply is read by the port only when the device has written it. -/
def ownAct : Vhci.Act → Bool
  | .rxRetSubmit _ _ | .rxRetUnlink _ _ => false
  | _ => true

namespace Connection

/-- What the port has written so far, as the device reads it. -/
def requests (s : Connection) : List Request := s.port.wire.map request

/-- A step of the port: what it writes has arrived at the device. -/
def portStep (s : Connection) (a : Vhci.Act) : Option Connection :=
  (s.port.step a).map fun p =>
    { s with
      port := p
      stub := { s.stub with
        input := s.stub.input ++ (p.wire.drop s.port.wire.length).map request } }

/-- A step of the device: what it writes is on its way. -/
def stubStep (s : Connection) (a : Stub.Act) : Option Connection :=
  (s.stub.step a).map fun d =>
    { s with
      stub := d
      replies := s.replies ++ (d.log.drop s.stub.log.length).filterMap reply }

/-- The port reads the next reply. -/
def recv (s : Connection) (status : ℤ) : Option Connection :=
  match s.replies with
  | [] => none
  | r :: rest =>
    (s.port.step (r.act status)).map fun p =>
      { s with port := p, replies := rest, received := s.received ++ [r] }

/-- One step. -/
def step (s : Connection) : Act → Option Connection
  | .port a => if ownAct a then s.portStep a else none
  | .stub a => s.stubStep a
  | .recv status => s.recv status
  | .otherPort => some { s with port := { s.port with seqnum := s.port.atomicIncReturn } }

/-- What a step does. -/
inductive Moves (s : Connection) : Act → Connection → Prop
  | port {a : Vhci.Act} {p : Vhci.Port} {l : List CmdPdu} (hown : ownAct a = true)
    (hs : s.port.step a = some p) (hl : p.wire = s.port.wire ++ l) :
    Moves s (.port a)
      { s with port := p, stub := { s.stub with input := s.stub.input ++ l.map request } }
  | stub {a : Stub.Act} {d : Stub.StubDevice} {l : List StubEvent} (hs : s.stub.step a = some d)
    (hl : d.log = s.stub.log ++ l) :
    Moves s (.stub a) { s with stub := d, replies := s.replies ++ l.filterMap reply }
  | recv {r : Reply} {rest : List Reply} {p : Vhci.Port} {status : ℤ} (hr : s.replies = r :: rest)
    (hs : s.port.step (r.act status) = some p) :
    Moves s (.recv status) { s with port := p, replies := rest, received := s.received ++ [r] }
  | otherPort :
    Moves s .otherPort { s with port := { s.port with seqnum := s.port.atomicIncReturn } }

/-- **What a step can do.** -/
theorem moves_of_step {s s' : Connection} {a : Act} (hs : s.step a = some s') : s.Moves a s' := by
  cases a with
  | port a =>
    obtain ⟨hown, hs⟩ := Option.ite_none_right_eq_some.mp hs
    obtain ⟨p, hp, rfl⟩ := Option.map_eq_some_iff.mp hs
    obtain ⟨l, hl⟩ := Vhci.wire_of_step hp
    rw [hl, List.drop_left]
    exact .port hown hp hl
  | stub a =>
    obtain ⟨d, hd, rfl⟩ := Option.map_eq_some_iff.mp hs
    obtain ⟨l, hl⟩ := Stub.log_of_step hd
    rw [hl, List.drop_left]
    exact .stub hd hl
  | recv status =>
    simp only [step, Connection.recv] at hs
    split at hs
    · cases hs
    next r rest hr =>
    obtain ⟨p, hp, rfl⟩ := Option.map_eq_some_iff.mp hs
    exact .recv hr hp
  | otherPort => exact Option.some.inj hs ▸ .otherPort

end Connection

/-- Both sides are healthy, and the counter does not become negative. -/
def Healthy (s : Connection) : Act → Prop
  | .port a => Vhci.Healthy s.port a
  | .stub a => Stub.Healthy s.stub a
  | .recv _ => True
  | .otherPort => 0 ≤ s.port.atomicIncReturn.toInt

instance (s : Connection) (a : Act) : Decidable (Healthy s a) := by
  induction a using Act.casesOn <;> dsimp only [Healthy] <;> infer_instance

/-- A port that has just been attached, and the device at the other end. -/
def established (seqnum : BitVec 32) (udev : Option ℕ) : Connection :=
  ⟨Vhci.attached seqnum udev, Stub.connected [], [], []⟩

/-- One connection, from its start on. -/
def connection (seqnum : BitVec 32) (udev : Option ℕ) : Machine Connection Act :=
  ⟨established seqnum udev, Connection.step⟩

/-! ### What the device hears -/

/-- A port sends no header that the device turns down. -/
theorem request_valid (c : CmdPdu) : (request c).valid := by
  cases c <;> trivial

/-- The numbers of the requests are those of the PDUs. -/
theorem perm_numbers (cs : List CmdPdu) :
    ((cs.map request).filterMap Request.submit ++ (cs.map request).filterMap Request.unlink).Perm
      (cs.map CmdPdu.num) := by
  induction cs with
  | nil => exact List.Perm.refl _
  | cons c cs ih =>
    cases c with
    | cmdSubmit p => exact ih.cons (wireSeqnum p.seqnum)
    | cmdUnlink u => exact List.perm_middle.trans (ih.cons (wireSeqnum u.seqnum))

theorem mem_submit_iff {cs : List CmdPdu} {q : BitVec 32} :
    q ∈ (cs.map request).filterMap Request.submit ↔
      ∃ p, .cmdSubmit p ∈ cs ∧ wireSeqnum p.seqnum = q := by
  rw [List.filterMap_map, List.mem_filterMap]
  constructor
  · rintro ⟨c, hc, hq⟩
    cases c with
    | cmdSubmit p => exact ⟨p, hc, Option.some.inj hq⟩
    | cmdUnlink u => cases hq
  · rintro ⟨p, hp, rfl⟩
    exact ⟨_, hp, rfl⟩

theorem mem_unlink_iff {cs : List CmdPdu} {q : BitVec 32} :
    q ∈ (cs.map request).filterMap Request.unlink ↔
      ∃ u, .cmdUnlink u ∈ cs ∧ wireSeqnum u.seqnum = q := by
  rw [List.filterMap_map, List.mem_filterMap]
  constructor
  · rintro ⟨c, hc, hq⟩
    cases c with
    | cmdSubmit p => cases hq
    | cmdUnlink u => exact ⟨u, hc, Option.some.inj hq⟩
  · rintro ⟨u, hu, rfl⟩
    exact ⟨_, hu, rfl⟩

theorem mem_cmdUnlink_iff {cs : List CmdPdu} {q t : BitVec 32} :
    .cmdUnlink q t ∈ cs.map request ↔
      ∃ u, .cmdUnlink u ∈ cs ∧ wireSeqnum u.seqnum = q ∧ wireSeqnum u.unlinkSeqnum = t := by
  rw [List.mem_map]
  constructor
  · rintro ⟨c, hc, heq⟩
    cases c with
    | cmdSubmit p => cases heq
    | cmdUnlink u =>
      obtain ⟨hq, ht⟩ := Request.cmdUnlink.inj heq
      exact ⟨u, hc, hq, ht⟩
  · rintro ⟨u, hu, rfl, rfl⟩
    exact ⟨_, hu, rfl⟩

variable {p : Vhci.Port}

/-- A healthy port is a client that numbers its requests apart and unlinks what it has
submitted. -/
theorem clientTraffic (h : ClientInv p) : Stub.ClientTraffic (p.wire.map request) := by
  refine ⟨(perm_numbers p.wire).nodup_iff.mpr ?_, fun q t hmem => ?_⟩
  · refine h.numbered.nodup.sublist ?_
    rw [Vhci.Port.issued, List.map_append]
    exact List.sublist_append_left _ _
  · obtain ⟨u, hu, -, rfl⟩ := mem_cmdUnlink_iff.mp hmem
    obtain ⟨r, hur, hr, -⟩ := h.numbered.target_written h.order hu
    exact mem_submit_iff.mpr ⟨r, hr, congrArg wireSeqnum hur.2⟩

/-- It does so in order. -/
theorem unlinkAfterSubmit (h : ClientInv p) : Stub.UnlinkAfterSubmit (p.wire.map request) := by
  intro pre e post heq q t he
  obtain ⟨pre', rest, hwire, rfl, hrest⟩ := List.map_eq_append_iff.mp heq
  obtain ⟨c, post', rfl, hc, -⟩ := List.map_eq_cons_iff.mp hrest
  cases c with
  | cmdSubmit r => rw [← hc] at he; cases he
  | cmdUnlink u =>
    rw [← hc] at he
    obtain ⟨-, rfl⟩ := Request.cmdUnlink.inj he
    obtain ⟨r, hur, hr⟩ := h.order.wire pre' _ post' hwire u rfl
    exact mem_submit_iff.mpr ⟨r, hr, congrArg wireSeqnum hur.2⟩

end Usbip.Link
