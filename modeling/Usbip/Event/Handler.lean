import Usbip.Lib.Behavior

/-!
# The event handler thread

`usbip_event.c`: the thread `event_handler_loop` of one `struct usbip_device` and the callers
of `usbip_event_add` and `usbip_stop_eh`. Every read of the event mask, every operation and
every clearing of a bit is one step of the thread (`EventThread.advance`), and so is the test
of the stop flag.

The operations belong to the device (`EhOps`): `machine ops side` runs the handler thread of
any device together with threads that add events, connections that are attached as soon as the
device lets them (`EhOps.attach`), and one thread that removes the device.
-/

namespace Usbip.Event

/-- The bits of the event mask. -/
structure Events where
  shutdown : Bool
  bye : Bool
  reset : Bool
  unusable : Bool
  deriving DecidableEq, Repr

namespace Events

/-- An empty mask. -/
def zero : Events := ⟨false, false, false, false⟩

/-- `ud->event |= event`. -/
def or (m e : Events) : Events :=
  ⟨m.shutdown || e.shutdown, m.bye || e.bye, m.reset || e.reset, m.unusable || e.unusable⟩

/-- `ud->event != 0`. -/
def happened (m : Events) : Bool := m.shutdown || m.bye || m.reset || m.unusable

end Events

/-- The events that the threads of a connection and the user raise: `SDEV_EVENT_DOWN`,
`SDEV_EVENT_ERROR_TCP`, `SDEV_EVENT_ERROR_SUBMIT`, `SDEV_EVENT_ERROR_MALLOC` and their
`VDEV_` counterparts, which carry the same bits. -/
inductive EhEvent
  | down | errorTcp | errorSubmit | errorMalloc
  deriving DecidableEq, Repr

/-- The bits of an event. -/
def EhEvent.mask : EhEvent → Events
  | .errorMalloc => ⟨true, false, false, true⟩
  | _ => ⟨true, false, true, false⟩

/-- `enum usbip_side`. -/
inductive Side
  | stub | vhci
  deriving DecidableEq, Repr

/-- `SDEV_EVENT_REMOVED` and `VDEV_EVENT_REMOVED`. -/
def Side.removed : Side → Events
  | .stub => ⟨true, true, true, false⟩
  | .vhci => ⟨true, true, false, false⟩

/-- Where the thread stands: at the head of `event_handler_loop`, in its wait, or in
`event_handler`. -/
inductive EhPc
  /-- about to call `kthread_should_stop` -/
  | loopTop
  /-- in `wait_event_interruptible` -/
  | wait
  /-- about to call `usbip_event_happened` -/
  | happened
  | testShutdown | runShutdown | clearShutdown
  | testReset | runReset | clearReset
  | testUnusable | runUnusable | clearUnusable
  | testBye
  /-- `event_handler_loop` has returned -/
  | stopped
  deriving DecidableEq, Repr

/-- The thread of a device: its event mask, its position and the flag of `kthread_stop`. -/
structure EventThread where
  event : Events
  pc : EhPc
  stop : Bool
  deriving DecidableEq, Repr

namespace EventThread

/-- `usbip_start_eh`. -/
def start : EventThread := ⟨Events.zero, .loopTop, false⟩

/-- `usbip_event_add`. -/
def add (t : EventThread) (event : Events) : EventThread := { t with event := t.event.or event }

/-- One step of the thread; `none` while it waits and after it has returned. -/
def advance (t : EventThread) : Option EventThread :=
  match t.pc with
  | .loopTop => some { t with pc := if t.stop then .stopped else .wait }
  | .wait => if t.event.happened || t.stop then some { t with pc := .happened } else none
  | .happened => some { t with pc := if t.event.happened then .testShutdown else .loopTop }
  | .testShutdown => some { t with pc := if t.event.shutdown then .runShutdown else .testReset }
  | .runShutdown => some { t with pc := .clearShutdown }
  | .clearShutdown => some { t with pc := .testReset, event := { t.event with shutdown := false } }
  | .testReset => some { t with pc := if t.event.reset then .runReset else .testUnusable }
  | .runReset => some { t with pc := .clearReset }
  | .clearReset => some { t with pc := .testUnusable, event := { t.event with reset := false } }
  | .testUnusable => some { t with pc := if t.event.unusable then .runUnusable else .testBye }
  | .runUnusable => some { t with pc := .clearUnusable }
  | .clearUnusable => some { t with pc := .testBye, event := { t.event with unusable := false } }
  | .testBye => some { t with pc := if t.event.bye then .stopped else .happened }
  | .stopped => none

end EventThread

/-- `struct eh_ops` of a device with state `σ`, the results `ρ` of the calls it makes, and the
attachment of a new connection, which the device may refuse. -/
structure EhOps (σ ρ : Type) where
  shutdown : σ → ρ → σ
  reset : σ → ρ → σ
  unusable : σ → ρ → σ
  attach : σ → Option σ

/-- How far the caller that removes the device has come. -/
inductive RemoverPc
  | idle
  /-- has added the REMOVED event -/
  | added
  /-- in `kthread_stop`, the flag is set -/
  | stopping
  /-- `usbip_stop_eh` has returned -/
  | returned
  deriving DecidableEq, Repr

/-- A device with its handler thread. `shutdownRan` is a ghost field: the shutdown operation
has run since the REMOVED event was added. -/
structure Served (σ : Type) where
  eh : EventThread
  dev : σ
  remover : RemoverPc
  shutdownRan : Bool
  deriving DecidableEq, Repr

/-- The steps: a thread adds an event, a connection is attached, the handler thread moves, the
remover adds its event, sets the stop flag, and finds that the thread has returned. -/
inductive Act (ρ : Type)
  | add (e : EhEvent)
  | attach
  | handler (r : ρ)
  | remove
  | stopEh
  | stopReturn
  deriving DecidableEq, Repr

namespace Served

variable {σ ρ : Type}

/-- What the operation at the thread's position does to the device. -/
def operate (ops : EhOps σ ρ) (s : Served σ) (r : ρ) : σ :=
  match s.eh.pc with
  | .runShutdown => ops.shutdown s.dev r
  | .runReset => ops.reset s.dev r
  | .runUnusable => ops.unusable s.dev r
  | _ => s.dev

/-- One step. -/
def step (ops : EhOps σ ρ) (side : Side) (s : Served σ) : Act ρ → Option (Served σ)
  | .add e => some { s with eh := s.eh.add e.mask }
  | .attach => (ops.attach s.dev).map fun dev => { s with dev := dev }
  | .handler r =>
    s.eh.advance.map fun eh =>
      { s with
        eh := eh
        dev := s.operate ops r
        shutdownRan := s.shutdownRan || s.eh.pc = .runShutdown }
  | .remove =>
    if s.remover = .idle then
      some { s with eh := s.eh.add side.removed, remover := .added, shutdownRan := false }
    else none
  | .stopEh =>
    if s.remover = .added then
      some { s with eh := { s.eh with stop := true }, remover := .stopping }
    else none
  | .stopReturn =>
    if s.remover = .stopping ∧ s.eh.pc = .stopped then some { s with remover := .returned }
    else none

end Served

/-- The handler thread of a device that starts in `dev`. -/
def machine {σ ρ : Type} (ops : EhOps σ ρ) (side : Side) (dev : σ) :
    Machine (Served σ) (Act ρ) where
  init := ⟨EventThread.start, dev, .idle, false⟩
  step := Served.step ops side

/-- The labels of the handler thread. -/
def Act.ofHandler {ρ : Type} : Act ρ → Prop
  | .handler _ => True
  | _ => False

end Usbip.Event
