import Usbip.Lib.Machine
import Usbip.Lib.Trace
import Usbip.Lib.ListWalk
import Mathlib.Data.Int.Notation
import Mathlib.Data.List.Basic

/-!
# One exported device on a live connection

The server side: `stub_rx.c` and `stub_tx.c` for one `struct stub_device` without a filter,
from the moment `store_sockfd` has started the threads until the connection is shut down. The
contexts are

* the receive thread `stub_rx_loop` (`RxPc`), reading the requests of an arbitrary client,
* the completion handler `stub_complete`, called by the host controller driver at any time
  after `usb_submit_urb`,
* the transmit thread `stub_tx_loop` (`TxPc`).

Every section protected by `priv_lock` is one step of the machine `stubDevice`, and so is
every call made outside it. A label names the context that moves and the results of the calls
whose code is not in this repository.

A `stub_priv` is identified by the number of its allocation, which plays the part of its
address. The 64-bit `unsigned long` fields `seqnum` hold numbers that come from and go to
32-bit header fields.
-/

namespace Usbip.Stub

open ListWalk

/-- `-ENOENT`, the status of a URB stopped by `usb_kill_urb`. -/
def enoent : ℤ := -2

/-- `-ECONNRESET`, the status of a URB stopped by `usb_unlink_urb`. -/
def econnreset : ℤ := -104

/-- A header field stored in an `unsigned long`. -/
def ofU32 (n : BitVec 32) : BitVec 64 := n.setWidth 64

/-- An `unsigned long` passed on as a `__u32`. -/
def toU32 (n : BitVec 64) : BitVec 32 := n.setWidth 32

@[simp] theorem toU32_ofU32 (n : BitVec 32) : toU32 (ofU32 n) = n := by
  simp [toU32, ofU32, BitVec.setWidth_setWidth_of_le]

/-- `struct stub_priv`. -/
structure StubPriv where
  id : ℕ
  seqnum : BitVec 64
  unlinking : Bool
  deriving DecidableEq, Repr

/-- `struct stub_unlink`. -/
structure StubUnlink where
  seqnum : BitVec 64
  status : BitVec 32
  deriving DecidableEq, Repr

/-- A header as the receive thread reads it: what the two request handlers use of it, or one
that `valid_request` or the command switch turns down. -/
inductive Request
  | cmdSubmit (seqnum : BitVec 32)
  | cmdUnlink (seqnum target : BitVec 32)
  | invalid
  deriving DecidableEq, Repr

/-- What has happened on the connection. The replies are the PDUs written to the socket. -/
inductive StubEvent
  /-- a CMD_SUBMIT was received and got its `stub_priv` -/
  | cmdSubmit (seqnum : BitVec 32)
  /-- a CMD_UNLINK was processed -/
  | cmdUnlink (seqnum target : BitVec 32)
  /-- the CMD_UNLINK just processed found this `stub_priv` in `priv_init` -/
  | converted (priv : StubPriv)
  /-- the URB completed and its `stub_priv` went to `priv_tx` -/
  | complete (priv : StubPriv)
  | retSubmit (priv : StubPriv)
  | retUnlink (unlink : StubUnlink)
  /-- the transmit thread gave up before it had written this RET_SUBMIT -/
  | unsentSubmit (priv : StubPriv)
  /-- the transmit thread gave up before it had written this RET_UNLINK -/
  | unsentUnlink (unlink : StubUnlink)
  deriving DecidableEq, Repr

/-- Where the receive thread stands in `stub_rx_loop`. -/
inductive RxPc
  /-- about to read a header -/
  | idle
  /-- in `stub_build_urb`, after `stub_priv_alloc` -/
  | buildUrb (id : ℕ)
  /-- about to call `usb_submit_urb` -/
  | submitUrb (id : ℕ)
  /-- about to call `usb_unlink_urb` -/
  | unlinkUrb (id : ℕ)
  | stopped
  deriving DecidableEq, Repr

/-- Where the transmit thread stands in `stub_tx_loop`. -/
inductive TxPc
  /-- about to call `dequeue_from_priv_tx` -/
  | submitLoop
  /-- took `priv`, has not written its RET_SUBMIT yet -/
  | sendSubmit (priv : StubPriv)
  /-- `priv_tx` was empty; about to free `priv_free` -/
  | freeSubmit
  /-- about to call `dequeue_from_unlink_tx` -/
  | unlinkLoop
  /-- took `unlink`, has not written its RET_UNLINK yet -/
  | sendUnlink (unlink : StubUnlink)
  /-- `unlink_tx` was empty; about to free `unlink_free` -/
  | freeUnlink
  /-- in `wait_event_interruptible` -/
  | wait
  | stopped
  deriving DecidableEq, Repr

/-- One `struct stub_device` and the contexts working on it. `input` is what the client has
sent and the receive thread has not read yet, `inFlight` are the URBs that the host controller
driver has not completed, `live` the allocated `stub_priv` records. `log` is a history. -/
structure StubDevice where
  event : Bool
  input : List Request
  privInit : List StubPriv
  privTx : List StubPriv
  privFree : List StubPriv
  unlinkTx : List StubUnlink
  unlinkFree : List StubUnlink
  nextId : ℕ
  live : List ℕ
  inFlight : List ℕ
  rx : RxPc
  tx : TxPc
  log : List StubEvent

namespace StubDevice

/-- Extend the history. -/
def note (s : StubDevice) (e : StubEvent) : StubDevice := { s with log := s.log ++ [e] }

/-- `stub_enqueue_ret_unlink`. -/
def stubEnqueueRetUnlink (s : StubDevice) (seqnum status : BitVec 32) (alloc : Bool) :
    StubDevice :=
  if alloc then { s with unlinkTx := s.unlinkTx ++ [⟨ofU32 seqnum, status⟩] }
  else { s with event := true }

/-! ### The receive thread -/

/-- `stub_priv_alloc`. -/
def stubPrivAlloc (s : StubDevice) (seqnum : BitVec 32) (alloc : Bool) : StubDevice :=
  if alloc then
    { s with
      privInit := s.privInit ++ [⟨s.nextId, ofU32 seqnum, false⟩]
      nextId := s.nextId + 1
      live := s.live ++ [s.nextId]
      rx := .buildUrb s.nextId
      log := s.log ++ [.cmdSubmit seqnum] }
  else { s with event := true, rx := .idle }

/-- A `stub_priv` found in `priv_init` takes over the number of the CMD_UNLINK. -/
def markUnlinking (s : StubDevice) (seqnum target : BitVec 32) (pre : List StubPriv)
    (priv : StubPriv) (post : List StubPriv) : StubDevice :=
  { s with
    privInit := pre ++ { priv with unlinking := true, seqnum := ofU32 seqnum } :: post
    rx := .unlinkUrb priv.id
    log := s.log ++ [.cmdUnlink seqnum target, .converted priv] }

/-- The section of `stub_recv_cmd_unlink` protected by `priv_lock`. -/
def stubRecvCmdUnlink (s : StubDevice) (seqnum target : BitVec 32) (alloc : Bool) :
    StubDevice :=
  match findSplit (fun p => p.seqnum == ofU32 target) s.privInit with
  | some (pre, priv, post) => s.markUnlinking seqnum target pre priv post
  | none => (s.note (.cmdUnlink seqnum target)).stubEnqueueRetUnlink seqnum 0 alloc

/-- `stub_rx_pdu` up to the first release of `priv_lock`. The loop looks for an event before
it blocks in the read, so a request may still be taken after one. -/
def stubRxPdu (s : StubDevice) (alloc : Bool) : Option StubDevice :=
  if s.rx ≠ .idle then none
  else
    match s.input with
    | [] => none
    | .cmdSubmit seqnum :: rest => some ({ s with input := rest }.stubPrivAlloc seqnum alloc)
    | .cmdUnlink seqnum target :: rest =>
      some ({ s with input := rest }.stubRecvCmdUnlink seqnum target alloc)
    | .invalid :: rest => some { s with input := rest, event := true }

/-- The rest of `stub_build_urb`; `ok = false` stands for an early return, which leaves the
`stub_priv` where it is. -/
def stubBuildUrb (s : StubDevice) (ok : Bool) : Option StubDevice :=
  match s.rx with
  | .buildUrb id =>
    if ok then some { s with rx := .submitUrb id } else some { s with event := true, rx := .idle }
  | _ => none

/-- `stub_submit_urb`. -/
def stubSubmitUrb (s : StubDevice) (ok : Bool) : Option StubDevice :=
  match s.rx with
  | .submitUrb id =>
    if ok then some { s with inFlight := s.inFlight ++ [id], rx := .idle }
    else some { s with event := true, rx := .idle }
  | _ => none

/-- `usb_unlink_urb`, called without the lock. It asks the driver to complete the URB early,
which the driver does, or has done, by a call of `stub_complete`. -/
def usbUnlinkUrb (s : StubDevice) : Option StubDevice :=
  match s.rx with
  | .unlinkUrb _ => some { s with rx := .idle }
  | _ => none

/-- `stub_rx_loop` ends after an event. -/
def rxStop (s : StubDevice) : Option StubDevice :=
  if s.rx = .idle ∧ s.event then some { s with rx := .stopped } else none

/-! ### Completion -/

/-- The section of `stub_complete` for a URB that is being unlinked: the reply is queued and
the `stub_priv` freed. -/
def completeUnlinking (s : StubDevice) (pre : List StubPriv) (priv : StubPriv)
    (post : List StubPriv) (status : ℤ) (alloc : Bool) : StubDevice :=
  { s with
    privInit := pre ++ post
    live := s.live.erase priv.id }.stubEnqueueRetUnlink (toU32 priv.seqnum)
      (BitVec.ofInt 32 status) alloc

/-- The section of `stub_complete` for any other URB. -/
def completeNormally (s : StubDevice) (pre : List StubPriv) (priv : StubPriv)
    (post : List StubPriv) : StubDevice :=
  { s with
    privInit := pre ++ post
    privTx := s.privTx ++ [priv]
    log := s.log ++ [.complete priv] }

/-- The host controller driver is done with the URB. -/
def urbDone (s : StubDevice) (id : ℕ) : StubDevice := { s with inFlight := s.inFlight.erase id }

/-- `stub_complete`. The `stub_priv` of a URB in flight is linked to `priv_init`, so
the walk finds it (`ListInv.stubComplete_isSome`). -/
def stubComplete (s : StubDevice) (id : ℕ) (status : ℤ) (alloc : Bool) : Option StubDevice :=
  if id ∉ s.inFlight then none
  else if status = enoent then some (s.urbDone id)
  else
    (findSplit (fun p => p.id == id) s.privInit).map fun r =>
      if r.2.1.unlinking then (s.urbDone id).completeUnlinking r.1 r.2.1 r.2.2 status alloc
      else (s.urbDone id).completeNormally r.1 r.2.1 r.2.2

/-! ### The transmit thread -/

/-- `dequeue_from_priv_tx`, or the end of the loop of `stub_send_ret_submit`. -/
def dequeueFromPrivTx (s : StubDevice) : Option StubDevice :=
  if s.tx ≠ .submitLoop then none
  else
    match s.privTx with
    | [] => some { s with tx := .freeSubmit }
    | p :: rest =>
      some { s with privTx := rest, privFree := s.privFree ++ [p], tx := .sendSubmit p }

/-- The rest of the body of the loop of `stub_send_ret_submit`; `ok = false` stands for an
early return. -/
def sendRetSubmit (s : StubDevice) (ok : Bool) : Option StubDevice :=
  match s.tx with
  | .sendSubmit p =>
    if ok then some { s with tx := .submitLoop, log := s.log ++ [.retSubmit p] }
    else some { s with event := true, tx := .stopped, log := s.log ++ [.unsentSubmit p] }
  | _ => none

/-- The end of `stub_send_ret_submit`: every entry of `priv_free` is freed. -/
def freePrivs (s : StubDevice) : Option StubDevice :=
  if s.tx ≠ .freeSubmit then none
  else
    some { s with
      privFree := []
      live := s.live.diff (s.privFree.map (·.id))
      tx := .unlinkLoop }

/-- `dequeue_from_unlink_tx`, or the end of the loop of `stub_send_ret_unlink`. -/
def dequeueFromUnlinkTx (s : StubDevice) : Option StubDevice :=
  if s.tx ≠ .unlinkLoop then none
  else
    match s.unlinkTx with
    | [] => some { s with tx := .freeUnlink }
    | u :: rest =>
      some { s with unlinkTx := rest, unlinkFree := s.unlinkFree ++ [u], tx := .sendUnlink u }

/-- The rest of the body of the loop of `stub_send_ret_unlink`. -/
def sendRetUnlink (s : StubDevice) (ok : Bool) : Option StubDevice :=
  match s.tx with
  | .sendUnlink u =>
    if ok then some { s with tx := .unlinkLoop, log := s.log ++ [.retUnlink u] }
    else some { s with event := true, tx := .stopped, log := s.log ++ [.unsentUnlink u] }
  | _ => none

/-- The end of `stub_send_ret_unlink`. -/
def freeUnlinks (s : StubDevice) : Option StubDevice :=
  if s.tx ≠ .freeUnlink then none else some { s with unlinkFree := [], tx := .wait }

/-- `wait_event_interruptible` and the test at the top of `stub_tx_loop`. -/
def txWake (s : StubDevice) : Option StubDevice :=
  if s.tx ≠ .wait ∨ s.privTx = [] ∧ s.unlinkTx = [] then none
  else if s.event then some { s with tx := .stopped }
  else some { s with tx := .submitLoop }

end StubDevice

/-! ### The device as a machine -/

/-- The steps of the contexts working on a device. -/
inductive Act
  | rxPdu (alloc : Bool)
  | rxBuild (ok : Bool)
  | rxSubmit (ok : Bool)
  | rxUnlinkUrb
  | rxStop
  | complete (id : ℕ) (status : ℤ) (alloc : Bool)
  | txDequeueSubmit
  | txSendSubmit (ok : Bool)
  | txFreePrivs
  | txDequeueUnlink
  | txSendUnlink (ok : Bool)
  | txFreeUnlinks
  | txWake
  deriving DecidableEq, Repr

/-- One step. -/
def StubDevice.step (s : StubDevice) : Act → Option StubDevice
  | .rxPdu alloc => s.stubRxPdu alloc
  | .rxBuild ok => s.stubBuildUrb ok
  | .rxSubmit ok => s.stubSubmitUrb ok
  | .rxUnlinkUrb => s.usbUnlinkUrb
  | .rxStop => s.rxStop
  | .complete id status alloc => s.stubComplete id status alloc
  | .txDequeueSubmit => s.dequeueFromPrivTx
  | .txSendSubmit ok => s.sendRetSubmit ok
  | .txFreePrivs => s.freePrivs
  | .txDequeueUnlink => s.dequeueFromUnlinkTx
  | .txSendUnlink ok => s.sendRetUnlink ok
  | .txFreeUnlinks => s.freeUnlinks
  | .txWake => s.txWake

/-- What a step does, with what it has found. -/
inductive StubDevice.Moves (s : StubDevice) : Act → StubDevice → Prop
  | cmdSubmit {q : BitVec 32} {rest : List Request} (hrx : s.rx = .idle)
    (hin : s.input = .cmdSubmit q :: rest) (alloc : Bool) :
    Moves s (.rxPdu alloc) ({ s with input := rest }.stubPrivAlloc q alloc)
  | cmdUnlinkFound {q t : BitVec 32} {rest : List Request} {pre post : List StubPriv}
    {p : StubPriv} (hrx : s.rx = .idle) (hin : s.input = .cmdUnlink q t :: rest)
    (hwalk : findSplit (fun p => p.seqnum == ofU32 t) s.privInit = some (pre, p, post))
    (alloc : Bool) :
    Moves s (.rxPdu alloc) ({ s with input := rest }.markUnlinking q t pre p post)
  | cmdUnlinkMissed {q t : BitVec 32} {rest : List Request} (hrx : s.rx = .idle)
    (hin : s.input = .cmdUnlink q t :: rest)
    (hwalk : findSplit (fun p => p.seqnum == ofU32 t) s.privInit = none) (alloc : Bool) :
    Moves s (.rxPdu alloc)
      (({ s with input := rest }.note (.cmdUnlink q t)).stubEnqueueRetUnlink q 0 alloc)
  | invalid {rest : List Request} (hrx : s.rx = .idle) (hin : s.input = .invalid :: rest)
    (alloc : Bool) : Moves s (.rxPdu alloc) { s with input := rest, event := true }
  | built {id : ℕ} (hrx : s.rx = .buildUrb id) :
    Moves s (.rxBuild true) { s with rx := .submitUrb id }
  | notBuilt {id : ℕ} (hrx : s.rx = .buildUrb id) :
    Moves s (.rxBuild false) { s with event := true, rx := .idle }
  | submitted {id : ℕ} (hrx : s.rx = .submitUrb id) :
    Moves s (.rxSubmit true) { s with inFlight := s.inFlight ++ [id], rx := .idle }
  | notSubmitted {id : ℕ} (hrx : s.rx = .submitUrb id) :
    Moves s (.rxSubmit false) { s with event := true, rx := .idle }
  | unlinkUrb {id : ℕ} (hrx : s.rx = .unlinkUrb id) : Moves s .rxUnlinkUrb { s with rx := .idle }
  | rxStop (hrx : s.rx = .idle) (hevent : s.event = true) :
    Moves s .rxStop { s with rx := .stopped }
  | killed {id : ℕ} (hid : id ∈ s.inFlight) (alloc : Bool) :
    Moves s (.complete id enoent alloc) (s.urbDone id)
  | unlinked {id : ℕ} {status : ℤ} {pre post : List StubPriv} {p : StubPriv}
    (hid : id ∈ s.inFlight) (hstatus : status ≠ enoent)
    (hwalk : findSplit (fun p => p.id == id) s.privInit = some (pre, p, post))
    (hunl : p.unlinking = true) (alloc : Bool) :
    Moves s (.complete id status alloc)
      ((s.urbDone id).completeUnlinking pre p post status alloc)
  | completed {id : ℕ} {status : ℤ} {pre post : List StubPriv} {p : StubPriv}
    (hid : id ∈ s.inFlight) (hstatus : status ≠ enoent)
    (hwalk : findSplit (fun p => p.id == id) s.privInit = some (pre, p, post))
    (hunl : p.unlinking = false) (alloc : Bool) :
    Moves s (.complete id status alloc) ((s.urbDone id).completeNormally pre p post)
  | submitsDone (htx : s.tx = .submitLoop) (hempty : s.privTx = []) :
    Moves s .txDequeueSubmit { s with tx := .freeSubmit }
  | submitTaken {p : StubPriv} {rest : List StubPriv} (htx : s.tx = .submitLoop)
    (hp : s.privTx = p :: rest) :
    Moves s .txDequeueSubmit
      { s with privTx := rest, privFree := s.privFree ++ [p], tx := .sendSubmit p }
  | retSubmit {p : StubPriv} (htx : s.tx = .sendSubmit p) :
    Moves s (.txSendSubmit true) { s with tx := .submitLoop, log := s.log ++ [.retSubmit p] }
  | unsentSubmit {p : StubPriv} (htx : s.tx = .sendSubmit p) :
    Moves s (.txSendSubmit false)
      { s with event := true, tx := .stopped, log := s.log ++ [.unsentSubmit p] }
  | freePrivs (htx : s.tx = .freeSubmit) :
    Moves s .txFreePrivs { s with
      privFree := []
      live := s.live.diff (s.privFree.map (·.id))
      tx := .unlinkLoop }
  | unlinksDone (htx : s.tx = .unlinkLoop) (hempty : s.unlinkTx = []) :
    Moves s .txDequeueUnlink { s with tx := .freeUnlink }
  | unlinkTaken {u : StubUnlink} {rest : List StubUnlink} (htx : s.tx = .unlinkLoop)
    (hu : s.unlinkTx = u :: rest) :
    Moves s .txDequeueUnlink
      { s with unlinkTx := rest, unlinkFree := s.unlinkFree ++ [u], tx := .sendUnlink u }
  | retUnlink {u : StubUnlink} (htx : s.tx = .sendUnlink u) :
    Moves s (.txSendUnlink true) { s with tx := .unlinkLoop, log := s.log ++ [.retUnlink u] }
  | unsentUnlink {u : StubUnlink} (htx : s.tx = .sendUnlink u) :
    Moves s (.txSendUnlink false)
      { s with event := true, tx := .stopped, log := s.log ++ [.unsentUnlink u] }
  | freeUnlinks (htx : s.tx = .freeUnlink) :
    Moves s .txFreeUnlinks { s with unlinkFree := [], tx := .wait }
  | txStop (htx : s.tx = .wait) (hevent : s.event = true) :
    Moves s .txWake { s with tx := .stopped }
  | txWake (htx : s.tx = .wait) (hevent : s.event = false) :
    Moves s .txWake { s with tx := .submitLoop }

namespace StubDevice

variable {s s' : StubDevice}

theorem moves_rxPdu {alloc : Bool} (hs : s.stubRxPdu alloc = some s') :
    s.Moves (.rxPdu alloc) s' := by
  rw [stubRxPdu] at hs
  obtain ⟨hrx, hs⟩ := Option.ite_none_left_eq_some.mp hs
  have hrx : s.rx = .idle := not_not.mp hrx
  split at hs
  · cases hs
  next q rest hin =>
    obtain rfl := Option.some.inj hs
    exact .cmdSubmit hrx hin alloc
  next q t rest hin =>
    obtain rfl := Option.some.inj hs
    rw [stubRecvCmdUnlink]
    split
    next pre p post hwalk => exact .cmdUnlinkFound hrx hin hwalk alloc
    next hwalk => exact .cmdUnlinkMissed hrx hin hwalk alloc
  next rest hin =>
    obtain rfl := Option.some.inj hs
    exact .invalid hrx hin alloc

theorem moves_complete {id : ℕ} {status : ℤ} {alloc : Bool}
    (hs : s.stubComplete id status alloc = some s') : s.Moves (.complete id status alloc) s' := by
  rw [stubComplete] at hs
  obtain ⟨hid, hs⟩ := Option.ite_none_left_eq_some.mp hs
  have hid : id ∈ s.inFlight := not_not.mp hid
  split at hs
  next hstatus =>
    obtain rfl := Option.some.inj hs
    exact hstatus ▸ .killed hid alloc
  next hstatus =>
    obtain ⟨⟨pre, p, post⟩, hwalk, rfl⟩ := Option.map_eq_some_iff.mp hs
    split
    next hunl => exact .unlinked hid hstatus hwalk hunl alloc
    next hunl => exact .completed hid hstatus hwalk (Bool.not_eq_true _ ▸ hunl) alloc

/-- **What a step can do.** -/
theorem moves_of_step {a : Act} (hs : s.step a = some s') : s.Moves a s' := by
  cases a with
  | rxPdu alloc => exact moves_rxPdu hs
  | complete id status alloc => exact moves_complete hs
  | rxBuild ok =>
    simp only [step, stubBuildUrb] at hs
    split at hs
    next id hrx =>
      cases ok with
      | true => exact Option.some.inj hs ▸ .built hrx
      | false => exact Option.some.inj hs ▸ .notBuilt hrx
    · cases hs
  | rxSubmit ok =>
    simp only [step, stubSubmitUrb] at hs
    split at hs
    next id hrx =>
      cases ok with
      | true => exact Option.some.inj hs ▸ .submitted hrx
      | false => exact Option.some.inj hs ▸ .notSubmitted hrx
    · cases hs
  | rxUnlinkUrb =>
    simp only [step, usbUnlinkUrb] at hs
    split at hs
    next id hrx => exact Option.some.inj hs ▸ .unlinkUrb hrx
    · cases hs
  | rxStop =>
    obtain ⟨⟨hrx, hevent⟩, hs⟩ := Option.ite_none_right_eq_some.mp hs
    exact Option.some.inj hs ▸ .rxStop hrx hevent
  | txDequeueSubmit =>
    obtain ⟨htx, hs⟩ := Option.ite_none_left_eq_some.mp hs
    have htx : s.tx = .submitLoop := not_not.mp htx
    split at hs
    next hempty => exact Option.some.inj hs ▸ .submitsDone htx hempty
    next p rest hp => exact Option.some.inj hs ▸ .submitTaken htx hp
  | txSendSubmit ok =>
    simp only [step, sendRetSubmit] at hs
    split at hs
    next p htx =>
      cases ok with
      | true => exact Option.some.inj hs ▸ .retSubmit htx
      | false => exact Option.some.inj hs ▸ .unsentSubmit htx
    · cases hs
  | txFreePrivs =>
    obtain ⟨htx, hs⟩ := Option.ite_none_left_eq_some.mp hs
    exact Option.some.inj hs ▸ .freePrivs (not_not.mp htx)
  | txDequeueUnlink =>
    obtain ⟨htx, hs⟩ := Option.ite_none_left_eq_some.mp hs
    have htx : s.tx = .unlinkLoop := not_not.mp htx
    split at hs
    next hempty => exact Option.some.inj hs ▸ .unlinksDone htx hempty
    next u rest hu => exact Option.some.inj hs ▸ .unlinkTaken htx hu
  | txSendUnlink ok =>
    simp only [step, sendRetUnlink] at hs
    split at hs
    next u htx =>
      cases ok with
      | true => exact Option.some.inj hs ▸ .retUnlink htx
      | false => exact Option.some.inj hs ▸ .unsentUnlink htx
    · cases hs
  | txFreeUnlinks =>
    obtain ⟨htx, hs⟩ := Option.ite_none_left_eq_some.mp hs
    exact Option.some.inj hs ▸ .freeUnlinks (not_not.mp htx)
  | txWake =>
    obtain ⟨hwait, hs⟩ := Option.ite_none_left_eq_some.mp hs
    have htx : s.tx = .wait := not_not.mp (not_or.mp hwait).1
    split at hs
    next hevent => exact Option.some.inj hs ▸ .txStop htx hevent
    next hevent => exact Option.some.inj hs ▸ .txWake htx (Bool.not_eq_true _ ▸ hevent)

end StubDevice

/-- A device right after `store_sockfd`, about to be sent these requests. -/
def connected (requests : List Request) : StubDevice where
  event := false
  input := requests
  privInit := []
  privTx := []
  privFree := []
  unlinkTx := []
  unlinkFree := []
  nextId := 0
  live := []
  inFlight := []
  rx := .idle
  tx := .submitLoop
  log := []

/-- One connection of a device, from its start on. -/
def stubDevice (requests : List Request) : Machine StubDevice Act :=
  ⟨connected requests, StubDevice.step⟩

end Usbip.Stub
