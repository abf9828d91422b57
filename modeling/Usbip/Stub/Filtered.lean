import Usbip.Lib.Machine
import Usbip.Ptp.Filter
import Usbip.Stub.Device
import Mathlib.Logic.Function.Basic
import Mathlib.Data.Fintype.Basic

/-!
# The device with the PTP filter

What becomes of the client's `stub_priv` records when the PTP filter takes part. A record is
linked to one list at a time: to one of the lists of the device, or to `client_queue` or
`request_queue` of the filter, which holds URBs back and completes or submits them later by
itself. Several connections follow each other on the same device and the same filter.

The machine `filteredStub n` has the receive thread, the transmit thread, the event handler, the
host controller driver, and `n` contexts (completion handlers, the timer) that may be inside the
filter at a time. Every section protected by `priv_lock` or `filter->lock` is one step, and so is
every call made outside them.

* The tests that `ptp_on_rx`, `ptp_consume_` and `ptp_produce_` make on the state of the filter
  are those of the source. What depends on the contents of the containers and of the frame buffer
  (`Usbip.Ptp.System`) is part of the label, and so are the changes of the state by the filter's
  own transactions.
* The filter's own URBs are left out: a client URB on `request_queue` may be taken as if none of
  them were ahead. `filter->lock` is not modelled, so that the passes of `ptp_consume_` interleave
  with everything. Both only add runs.
* RET_UNLINK is followed until it is queued. Both threads may stop whenever their loops test for
  an event or for a request to stop.

A record that has been freed, or taken off its list by `list_del`, must not be used any more; a
step that does has no meaning and is undefined.
-/

namespace Usbip.Stub.Filtered

open Ptp (FilterState)

/-- What the filter tells apart by `usb_pipebulk` and `usb_pipein`. -/
inductive UrbKind
  | bulkIn | bulkOut | other
  deriving DecidableEq, Repr

/-- The list heads that a client's `stub_priv` is linked to. -/
inductive Place
  | privInit | privTx | privFree | clientQueue | requestQueue
  deriving DecidableEq, Repr

/-- A call of `ptp_consume_` outside its loop body: its locals `priv`, `pending` and `ret`. -/
inductive ConsumePc
  /-- at the top of the loop -/
  | loop (priv : Option ℕ) (pending ret : Bool)
  /-- has released the lock and is about to complete the URB -/
  | complete (urb : ℕ) (pending : Bool)
  deriving DecidableEq, Repr

/-- Where the receive thread stands. -/
inductive RxPc
  /-- about to read a header -/
  | idle
  /-- in `stub_build_urb`, after `stub_priv_alloc` -/
  | buildUrb (id : ℕ)
  /-- about to call `ptp_on_rx` -/
  | onRx (id : ℕ)
  /-- in `ptp_on_rx` for this URB, which has called `ptp_consume_` -/
  | consume (id : ℕ) (pc : ConsumePc)
  /-- in `ptp_on_rx`, about to complete a preview command; `start` if the stream starts -/
  | preview (id : ℕ) (start : Bool)
  /-- in `ptp_on_rx`, after the preview command that starts the stream was completed -/
  | previewed (id : ℕ)
  /-- about to call `stub_submit_urb` -/
  | submitUrb (id : ℕ)
  /-- about to call `usb_unlink_urb` -/
  | unlinkUrb (id : ℕ)
  | stopped
  deriving DecidableEq, Repr

/-- Where the transmit thread stands. -/
inductive TxPc
  /-- about to call `dequeue_from_priv_tx` -/
  | submitLoop
  /-- took a record, has not written its RET_SUBMIT yet -/
  | sendSubmit (id : ℕ)
  /-- `priv_tx` was empty; about to free `priv_free` -/
  | freeSubmit
  /-- in `stub_send_ret_unlink` or waiting -/
  | rest
  | stopped
  deriving DecidableEq, Repr

/-- How far `stub_shutdown_connection` has come. -/
inductive ShutPc
  | live
  /-- the socket is shut down, the threads are being stopped -/
  | stopping
  /-- in `stub_device_cleanup_urbs`, about to call `stub_priv_pop` -/
  | cleanup
  /-- in `stub_device_cleanup_urbs`, waiting in `usb_kill_urb` -/
  | kill (id : ℕ)
  /-- `stub_shutdown_connection` has returned -/
  | done
  deriving DecidableEq, Repr

/-- A context that may be inside the filter. -/
inductive CtxPc
  | idle
  /-- in `ptp_consume_`, called by `ptp_data_complete` -/
  | consume (pc : ConsumePc)
  /-- in `ptp_produce_`, about to call `stub_submit_urb` for a client URB -/
  | submit (id : ℕ)
  deriving DecidableEq, Repr

/-- What has happened. -/
inductive Event
  /-- a CMD_SUBMIT was received and got this record -/
  | cmdSubmit (id : ℕ) (seqnum : BitVec 32)
  /-- the URB completed and its RET_SUBMIT was queued -/
  | complete (id : ℕ)
  /-- the URB completed and a RET_UNLINK was queued in place of its RET_SUBMIT -/
  | unlinked (id : ℕ)
  /-- a RET_UNLINK was queued for a CMD_UNLINK that did not find its target in `priv_init` -/
  | notFound (seqnum target : BitVec 32)
  /-- a RET_SUBMIT was written to the socket of this connection -/
  | retSubmit (conn id : ℕ)
  deriving DecidableEq, Repr

/-- The device, the filter, and the contexts working on them. `order` lists the records by the
time they were last linked to a list, so that `place` and `order` give all the lists. `owner` is
the connection that a record was created on; it and `log` are ghost fields. -/
structure Device (n : ℕ) where
  conn : ℕ
  nextId : ℕ
  order : List ℕ
  place : ℕ → Option Place
  live : ℕ → Bool
  owner : ℕ → ℕ
  seqnum : ℕ → BitVec 64
  unlinking : ℕ → Bool
  kind : ℕ → UrbKind
  inFlight : ℕ → Bool
  state : FilterState
  frameServing : Bool
  rx : RxPc
  tx : TxPc
  shut : ShutPc
  ctx : Fin n → CtxPc
  log : List Event

namespace Device

variable {n : ℕ}

/-! ### Lists -/

/-- `list_move_tail` and `list_add_tail`. -/
def link (s : Device n) (id : ℕ) (p : Place) : Device n :=
  { s with
    place := Function.update s.place id (some p)
    order := s.order.filter (fun i => i != id) ++ [id] }

/-- `list_del`. -/
def listDel (s : Device n) (id : ℕ) : Device n :=
  { s with place := Function.update s.place id none }

/-- The first entry of a list. -/
def first (s : Device n) (p : Place) : Option ℕ := s.order.find? fun id => s.place id == some p

/-- Extend the history. -/
def note (s : Device n) (e : Event) : Device n := { s with log := s.log ++ [e] }

/-- The receive thread moves on. -/
def setRx (s : Device n) (pc : RxPc) : Device n := { s with rx := pc }

/-- The transmit thread moves on. -/
def setTx (s : Device n) (pc : TxPc) : Device n := { s with tx := pc }

/-- The event handler moves on. -/
def setShut (s : Device n) (pc : ShutPc) : Device n := { s with shut := pc }

/-- A context moves on. -/
def setCtx (s : Device n) (i : Fin n) (pc : CtxPc) : Device n :=
  { s with ctx := Function.update s.ctx i pc }

/-- The driver is done with a URB. -/
def urbDone (s : Device n) (id : ℕ) : Device n :=
  { s with inFlight := Function.update s.inFlight id false }

/-! ### Completion -/

/-- `stub_free_priv_and_urb`. -/
def stubFreePrivAndUrb (s : Device n) (id : ℕ) : Device n :=
  { s with
    place := Function.update s.place id none
    live := Function.update s.live id false }

/-- `stub_enqueue_ret_unlink`, which gives up without memory. -/
def stubEnqueueRetUnlink (s : Device n) (e : Event) (alloc : Bool) : Device n :=
  if alloc then s.note e else s

/-- `stub_complete`, called by the driver or by the filter. -/
def stubComplete (s : Device n) (id : ℕ) (status : ℤ) (alloc : Bool) : Option (Device n) :=
  if status = enoent then some s
  else if s.live id = false ∨ s.place id = none then none
  else if s.unlinking id then
    some ((s.stubFreePrivAndUrb id).stubEnqueueRetUnlink (.unlinked id) alloc)
  else some ((s.link id .privTx).note (.complete id))

/-- The driver completes a URB; it is in flight until `stub_complete` has returned. -/
def usbComplete (s : Device n) (id : ℕ) (status : ℤ) (alloc : Bool) : Option (Device n) :=
  if s.inFlight id = true then
    (s.stubComplete id status alloc).map fun s => s.urbDone id
  else none

/-- `usb_submit_urb`. -/
def usbSubmitUrb (s : Device n) (id : ℕ) (ok : Bool) : Device n :=
  if ok then { s with inFlight := Function.update s.inFlight id true } else s

/-! ### The filter -/

/-- The filter's own transactions and the responses to the client change the state. -/
def changeState (s : Device n) (state : FilterState) (frameServing : Bool) : Device n :=
  { s with state := state, frameServing := frameServing }

/-- The state after a command of the client that is sent at once; `none` when it cannot be. -/
def afterCommand : FilterState → Option FilterState
  | .idle => some .command
  | .sleep => some .sleepWait
  | .active => some .wait
  | _ => none

/-- `ptp_produce_` with the first URB on `request_queue`, when that is a client's: it is put back
on `priv_init` to be submitted, or has to wait. -/
def ptpProduce (s : Device n) (i : Fin n) : Option (Device n) :=
  if s.ctx i ≠ .idle then none
  else
    match s.first .requestQueue with
    | none => none
    | some id =>
      if s.kind id = .bulkOut then
        (afterCommand s.state).map fun state =>
          ((s.link id .privInit).setCtx i (.submit id)).changeState state s.frameServing
      else if s.state ≠ .busy ∧ s.state ≠ .drop then
        some ((s.link id .privInit).setCtx i (.submit id))
      else none

/-- How a pass of `ptp_consume_` ends. -/
inductive Copy
  /-- `break` -/
  | stop
  /-- `ptp_bypass3` -/
  | bypass
  /-- the URB has room left and the container goes on -/
  | more
  /-- the URB is to be completed; `last` if the frame is -/
  | full (last : Bool)
  deriving DecidableEq, Repr

/-- What a pass of `ptp_consume_` comes to: another pass or the completion, or a return. -/
inductive Consumed (n : ℕ)
  | goOn (s : Device n) (pc : ConsumePc)
  | return (s : Device n) (ret : Bool)

/-- One pass of the loop of `ptp_consume_`. -/
def ptpConsume (s : Device n) (priv : Option ℕ) (pending ret : Bool) (copy : Copy) : Consumed n :=
  if ¬ s.state.Filtering then .return (s.changeState s.state false) ret
  else
    match priv.or (s.first .clientQueue) with
    | none => .return s ret
    | some u =>
      let pending := pending || priv.isNone
      match copy with
      | .stop => .return (if pending then s else s.link u .clientQueue) true
      | .bypass => .return (s.changeState .bypassed s.frameServing) false
      | .more => .goOn s (.loop (some u) pending true)
      | .full last =>
        .goOn
          ((if pending then s.link u .privInit else s).changeState s.state
            (!last && s.frameServing))
          (.complete u pending)

/-- The local `priv` of `ptp_consume_` points to a record that exists. -/
def localLive (s : Device n) (priv : Option ℕ) : Bool := priv.all s.live

/-- What `ptp_parse` tells `ptp_on_rx` about a URB to the camera. -/
inductive Parsed
  /-- no complete command container, or the parser gave up -/
  | other
  | preview
  | command
  deriving DecidableEq, Repr

/-- `ptp_on_rx` with a URB to the camera. -/
def ptpOnRxOut (s : Device n) (id : ℕ) (parsed : Parsed) : Device n :=
  match parsed with
  | .other => s.setRx (.submitUrb id)
  | .preview =>
    if s.state = .idle ∨ s.state = .sleep then
      (s.changeState .active true).setRx (.preview id true)
    else if s.state.Filtering ∧ s.frameServing = false then
      (s.changeState s.state true).setRx (.preview id false)
    else (s.changeState .bypassed s.frameServing).setRx (.submitUrb id)
  | .command =>
    match afterCommand s.state with
    | some state => (s.changeState state s.frameServing).setRx (.submitUrb id)
    | none =>
      if s.state = .drop ∨ s.state = .busy then (s.link id .requestQueue).setRx .idle
      else (s.changeState .bypassed s.frameServing).setRx (.submitUrb id)

/-- `ptp_on_rx` with a URB from the camera. -/
def ptpOnRxIn (s : Device n) (id : ℕ) : Device n :=
  if s.frameServing then s.setRx (.consume id (.loop (some id) false false))
  else if s.state = .drop ∨ s.state = .busy then (s.link id .requestQueue).setRx .idle
  else s.setRx (.submitUrb id)

/-- `usbip_filter_on_rx`. -/
def ptpOnRx (s : Device n) (parsed : Parsed) : Option (Device n) :=
  match s.rx with
  | .onRx id =>
    if s.state = .bypassed then some (s.setRx (.submitUrb id))
    else
      match s.kind id with
      | .bulkIn => some (s.ptpOnRxIn id)
      | .bulkOut => some (s.ptpOnRxOut id parsed)
      | .other => some (s.setRx (.submitUrb id))
  | _ => none

/-- `ptp_on_rx` completes a preview command. -/
def previewComplete (s : Device n) (alloc : Bool) : Option (Device n) :=
  match s.rx with
  | .preview id start =>
    (s.stubComplete id 0 alloc).map fun s => s.setRx (if start then .previewed id else .idle)
  | _ => none

/-- The rest of `ptp_on_rx` for the preview command that starts the stream; `ok = false` stands
for `ptp_bypass1`. -/
def previewRest (s : Device n) (ok : Bool) : Option (Device n) :=
  match s.rx with
  | .previewed id =>
    if ok then some (s.setRx .idle)
    else some ((s.changeState .bypassed s.frameServing).setRx (.submitUrb id))
  | _ => none

/-- A pass of `ptp_consume_` in `ptp_on_rx`. -/
def rxConsume (s : Device n) (copy : Copy) : Option (Device n) :=
  match s.rx with
  | .consume id (.loop priv pending ret) =>
    if s.localLive priv = false then none
    else
      match s.ptpConsume priv pending ret copy with
      | .goOn s pc => some (s.setRx (.consume id pc))
      | .return s ret => some (s.setRx (if ret then .idle else .submitUrb id))
  | _ => none

/-- `ptp_complete_urb` in a `ptp_consume_` of `ptp_on_rx`. -/
def rxConsumeComplete (s : Device n) (alloc : Bool) : Option (Device n) :=
  match s.rx with
  | .consume id (.complete u pending) =>
    (s.stubComplete u 0 alloc).map fun s => s.setRx (.consume id (.loop none pending true))
  | _ => none

/-- `ptp_data_complete` calls `ptp_consume_`. -/
def ctxStart (s : Device n) (i : Fin n) : Option (Device n) :=
  if s.ctx i = .idle then
    some (s.setCtx i (.consume (.loop none false false)))
  else none

/-- A pass of `ptp_consume_` in `ptp_data_complete`. -/
def ctxConsume (s : Device n) (i : Fin n) (copy : Copy) : Option (Device n) :=
  match s.ctx i with
  | .consume (.loop priv pending ret) =>
    if s.localLive priv = false then none
    else
      match s.ptpConsume priv pending ret copy with
      | .goOn s pc => some (s.setCtx i (.consume pc))
      | .return s _ => some (s.setCtx i .idle)
  | _ => none

/-- `ptp_complete_urb` in a `ptp_consume_` of `ptp_data_complete`. -/
def ctxConsumeComplete (s : Device n) (i : Fin n) (alloc : Bool) : Option (Device n) :=
  match s.ctx i with
  | .consume (.complete u pending) =>
    (s.stubComplete u 0 alloc).map fun s => s.setCtx i (.consume (.loop none pending true))
  | _ => none

/-- `stub_submit_urb` in `ptp_produce_`. -/
def ctxSubmit (s : Device n) (i : Fin n) (ok : Bool) : Option (Device n) :=
  match s.ctx i with
  | .submit id => some ((s.usbSubmitUrb id ok).setCtx i .idle)
  | _ => none

/-! ### The receive thread -/

/-- `stub_priv_alloc`. -/
def stubPrivAlloc (s : Device n) (seqnum : BitVec 32) (kind : UrbKind) : Device n :=
  { s with
    nextId := s.nextId + 1
    order := s.order ++ [s.nextId]
    place := Function.update s.place s.nextId (some .privInit)
    live := Function.update s.live s.nextId true
    owner := Function.update s.owner s.nextId s.conn
    seqnum := Function.update s.seqnum s.nextId (ofU32 seqnum)
    unlinking := Function.update s.unlinking s.nextId false
    kind := Function.update s.kind s.nextId kind
    rx := .buildUrb s.nextId
    log := s.log ++ [.cmdSubmit s.nextId seqnum] }

/-- A CMD_SUBMIT is received. -/
def stubRecvCmdSubmit (s : Device n) (seqnum : BitVec 32) (kind : UrbKind) (alloc : Bool) :
    Option (Device n) :=
  if s.rx ≠ .idle then none
  else if alloc then some (s.stubPrivAlloc seqnum kind)
  else some s

/-- The rest of `stub_build_urb`. -/
def stubBuildUrb (s : Device n) (ok : Bool) : Option (Device n) :=
  match s.rx with
  | .buildUrb id => some (s.setRx (if ok then .onRx id else .idle))
  | _ => none

/-- `stub_submit_urb`. -/
def stubSubmitUrb (s : Device n) (ok : Bool) : Option (Device n) :=
  match s.rx with
  | .submitUrb id => some ((s.usbSubmitUrb id ok).setRx .idle)
  | _ => none

/-- The walk of `stub_recv_cmd_unlink`. -/
def findInit (s : Device n) (target : BitVec 32) : Option ℕ :=
  s.order.find? fun id => s.place id == some .privInit && s.seqnum id == ofU32 target

/-- A record found in `priv_init` takes over the number of the CMD_UNLINK. -/
def markUnlinking (s : Device n) (seqnum : BitVec 32) (id : ℕ) : Device n :=
  { s with
    unlinking := Function.update s.unlinking id true
    seqnum := Function.update s.seqnum id (ofU32 seqnum)
    rx := .unlinkUrb id }

/-- `stub_recv_cmd_unlink` up to `usb_unlink_urb`. -/
def stubRecvCmdUnlink (s : Device n) (seqnum target : BitVec 32) (alloc : Bool) :
    Option (Device n) :=
  if s.rx ≠ .idle then none
  else
    match s.findInit target with
    | some id => some (s.markUnlinking seqnum id)
    | none => some (s.stubEnqueueRetUnlink (.notFound seqnum target) alloc)

/-- `usb_unlink_urb`. -/
def usbUnlinkUrb (s : Device n) : Option (Device n) :=
  match s.rx with
  | .unlinkUrb _ => some (s.setRx .idle)
  | _ => none

/-- `stub_rx_loop` ends. -/
def rxStop (s : Device n) : Option (Device n) :=
  if s.rx = .idle then some (s.setRx .stopped) else none

/-! ### The transmit thread -/

/-- `dequeue_from_priv_tx`, or the end of the loop of `stub_send_ret_submit`. -/
def dequeueFromPrivTx (s : Device n) : Option (Device n) :=
  if s.tx ≠ .submitLoop then none
  else
    match s.first .privTx with
    | none => some (s.setTx .freeSubmit)
    | some id => some ((s.link id .privFree).setTx (.sendSubmit id))

/-- The rest of the body of the loop of `stub_send_ret_submit`. -/
def sendRetSubmit (s : Device n) (ok : Bool) : Option (Device n) :=
  match s.tx with
  | .sendSubmit id =>
    if ok then some ((s.note (.retSubmit s.conn id)).setTx .submitLoop)
    else some (s.setTx .stopped)
  | _ => none

/-- The end of `stub_send_ret_submit`: every entry of `priv_free` is freed. -/
def freePrivs (s : Device n) : Option (Device n) :=
  if s.tx ≠ .freeSubmit then none
  else
    some
      { s with
        place := fun id => if s.place id = some .privFree then none else s.place id
        live := fun id => if s.place id = some .privFree then false else s.live id
        tx := .rest }

/-- `stub_tx_loop` goes round again. -/
def txLoop (s : Device n) : Option (Device n) :=
  if s.tx = .rest then some (s.setTx .submitLoop) else none

/-- `stub_tx_loop` ends. -/
def txStop (s : Device n) : Option (Device n) :=
  if s.tx = .rest then some (s.setTx .stopped) else none

/-! ### Teardown -/

/-- The event handler enters `stub_shutdown_connection`. -/
def shutdownConnection (s : Device n) : Option (Device n) :=
  if s.shut = .live then some (s.setShut .stopping) else none

/-- Both threads have returned, and the socket is closed. -/
def closeSocket (s : Device n) : Option (Device n) :=
  if s.shut = .stopping ∧ s.rx = .stopped ∧ s.tx = .stopped then some (s.setShut .cleanup)
  else none

/-- `stub_priv_pop`. -/
def stubPrivPop (s : Device n) : Option ℕ :=
  ((s.first .privInit).or (s.first .privTx)).or (s.first .privFree)

/-- `stub_device_cleanup_urbs` takes the next record, or `stub_shutdown_connection` returns. -/
def cleanupPop (s : Device n) : Option (Device n) :=
  if s.shut ≠ .cleanup then none
  else
    match s.stubPrivPop with
    | some id => some ((s.listDel id).setShut (.kill id))
    | none => some (s.setShut .done)

/-- `usb_kill_urb` returns, and the record is freed. -/
def killed (s : Device n) : Option (Device n) :=
  match s.shut with
  | .kill id =>
    if s.inFlight id = false then
      some { s with live := Function.update s.live id false, shut := .cleanup }
    else none
  | _ => none

/-- `stub_device_reset`, and `store_sockfd` with the next socket. -/
def storeSockfd (s : Device n) : Option (Device n) :=
  if s.shut = .done then
    some { s with conn := s.conn + 1, rx := .idle, tx := .submitLoop, shut := .live }
  else none

end Device

open Device

/-- The steps, named by who moves. -/
inductive Act (n : ℕ)
  | rxSubmit (seqnum : BitVec 32) (kind : UrbKind) (alloc : Bool)
  | rxBuild (ok : Bool)
  | rxOnRx (parsed : Parsed)
  | rxPreviewComplete (alloc : Bool)
  | rxPreviewRest (ok : Bool)
  | rxConsume (copy : Copy)
  | rxConsumeComplete (alloc : Bool)
  | rxUrb (ok : Bool)
  | rxUnlink (seqnum target : BitVec 32) (alloc : Bool)
  | rxUnlinkUrb
  | rxStop
  | changeState (state : FilterState) (frameServing : Bool)
  | produce (i : Fin n)
  | ctxStart (i : Fin n)
  | ctxConsume (i : Fin n) (copy : Copy)
  | ctxConsumeComplete (i : Fin n) (alloc : Bool)
  | ctxSubmit (i : Fin n) (ok : Bool)
  | complete (id : ℕ) (status : ℤ) (alloc : Bool)
  | txDequeue
  | txSend (ok : Bool)
  | txFree
  | txLoop
  | txStop
  | shutdown
  | closeSocket
  | cleanupPop
  | killed
  | storeSockfd

/-- One step. -/
def Device.step {n : ℕ} (s : Device n) : Act n → Option (Device n)
  | .rxSubmit seqnum kind alloc => s.stubRecvCmdSubmit seqnum kind alloc
  | .rxBuild ok => s.stubBuildUrb ok
  | .rxOnRx parsed => s.ptpOnRx parsed
  | .rxPreviewComplete alloc => s.previewComplete alloc
  | .rxPreviewRest ok => s.previewRest ok
  | .rxConsume copy => s.rxConsume copy
  | .rxConsumeComplete alloc => s.rxConsumeComplete alloc
  | .rxUrb ok => s.stubSubmitUrb ok
  | .rxUnlink seqnum target alloc => s.stubRecvCmdUnlink seqnum target alloc
  | .rxUnlinkUrb => s.usbUnlinkUrb
  | .rxStop => s.rxStop
  | .changeState state frameServing => some (s.changeState state frameServing)
  | .produce i => s.ptpProduce i
  | .ctxStart i => s.ctxStart i
  | .ctxConsume i copy => s.ctxConsume i copy
  | .ctxConsumeComplete i alloc => s.ctxConsumeComplete i alloc
  | .ctxSubmit i ok => s.ctxSubmit i ok
  | .complete id status alloc => s.usbComplete id status alloc
  | .txDequeue => s.dequeueFromPrivTx
  | .txSend ok => s.sendRetSubmit ok
  | .txFree => s.freePrivs
  | .txLoop => s.txLoop
  | .txStop => s.txStop
  | .shutdown => s.shutdownConnection
  | .closeSocket => s.closeSocket
  | .cleanupPop => s.cleanupPop
  | .killed => s.killed
  | .storeSockfd => s.storeSockfd

/-! ### What the functions work on -/

/-- The record that a call of `ptp_consume_` has as a local. -/
def ConsumePc.refs : ConsumePc → List ℕ
  | .loop priv _ _ => priv.toList
  | .complete u _ => [u]

/-- The records that the receive thread is working on. -/
def RxPc.refs : RxPc → List ℕ
  | .buildUrb id | .onRx id | .preview id _ | .previewed id | .submitUrb id => [id]
  | .consume id pc => id :: pc.refs
  | .idle | .unlinkUrb _ | .stopped => []

/-- The records that a context is working on. -/
def CtxPc.refs : CtxPc → List ℕ
  | .idle => []
  | .consume pc => pc.refs
  | .submit id => [id]

namespace Device

variable {n : ℕ}

/-- A function under way, or the driver, may complete the URB. -/
def Handled (s : Device n) (id : ℕ) : Prop :=
  id ∈ s.rx.refs ∨ (∃ i, id ∈ (s.ctx i).refs) ∨ s.inFlight id = true

instance (s : Device n) (id : ℕ) : Decidable (s.Handled id) := by
  unfold Handled
  infer_instance

/-! ### What the functions do -/

variable {s s' : Device n}

/-- The first entry of a list is linked to it. -/
theorem place_of_first {p : Place} {id : ℕ} (h : s.first p = some id) : s.place id = some p := by
  simpa using List.find?_some h

/-- What `stub_complete` does, unless the URB was killed. -/
theorem stubComplete_eq_some {id : ℕ} {status : ℤ} {alloc : Bool}
    (h : s.stubComplete id status alloc = some s') :
    status = enoent ∧ s' = s ∨
      (s.live id = true ∧ s.place id ≠ none) ∧
        (s.unlinking id = true ∧
            s' = (s.stubFreePrivAndUrb id).stubEnqueueRetUnlink (.unlinked id) alloc ∨
          s.unlinking id = false ∧ s' = (s.link id .privTx).note (.complete id)) := by
  unfold stubComplete at h
  split at h
  next hst => exact Or.inl ⟨hst, (Option.some.inj h).symm⟩
  split at h
  · cases h
  next hlive =>
  have hlive : s.live id = true ∧ s.place id ≠ none := by simpa using hlive
  split at h
  next hun => exact Or.inr ⟨hlive, Or.inl ⟨hun, (Option.some.inj h).symm⟩⟩
  next hun => exact Or.inr ⟨hlive, Or.inr ⟨by simpa using hun, (Option.some.inj h).symm⟩⟩

/-- The URB that a pass of `ptp_consume_` works on: its local, or the first of `client_queue`. -/
theorem served_cases {priv : Option ℕ} {u : ℕ} (h : priv.or (s.first .clientQueue) = some u) :
    priv = some u ∨ priv = none ∧ s.place u = some .clientQueue := by
  cases priv with
  | some v => exact Or.inl h
  | none => exact Or.inr ⟨rfl, place_of_first h⟩

/-- A pass of `ptp_consume_` that does not return. -/
theorem ptpConsume_goOn {priv : Option ℕ} {pending ret : Bool} {copy : Copy} {pc : ConsumePc}
    (h : s.ptpConsume priv pending ret copy = .goOn s' pc) :
    ∃ u, priv.or (s.first .clientQueue) = some u ∧
      (pc = .loop (some u) (pending || priv.isNone) true ∧ s' = s ∨
        pc = .complete u (pending || priv.isNone) ∧ ∃ serving,
          s' = (if pending || priv.isNone then s.link u .privInit else s).changeState s.state
            serving) := by
  unfold ptpConsume at h
  split at h
  · cases h
  split at h
  · cases h
  next u hu =>
    refine ⟨u, hu, ?_⟩
    cases copy with
    | stop => cases h
    | bypass => cases h
    | more =>
      cases h
      exact Or.inl ⟨rfl, rfl⟩
    | full last =>
      cases h
      exact Or.inr ⟨rfl, _, rfl⟩

/-- A pass of `ptp_consume_` that returns. -/
theorem ptpConsume_return {priv : Option ℕ} {pending ret ret' : Bool} {copy : Copy}
    (h : s.ptpConsume priv pending ret copy = .return s' ret') :
    (ret' = ret ∧ ∃ serving, s' = s.changeState s.state serving) ∨
      ∃ u, priv.or (s.first .clientQueue) = some u ∧
        (ret' = true ∧ s' = (if pending || priv.isNone then s else s.link u .clientQueue) ∨
          copy = .bypass ∧ ret' = false ∧ s' = s.changeState .bypassed s.frameServing) := by
  unfold ptpConsume at h
  split at h
  · cases h
    exact Or.inl ⟨rfl, false, rfl⟩
  split at h
  · cases h
    exact Or.inl ⟨rfl, s.frameServing, rfl⟩
  next u hu =>
    refine Or.inr ⟨u, hu, ?_⟩
    cases copy with
    | stop =>
      cases h
      exact Or.inl ⟨rfl, rfl⟩
    | bypass =>
      cases h
      exact Or.inr ⟨rfl, rfl, rfl⟩
    | more => cases h
    | full last => cases h

/-- What `ptp_produce_` does with a client's URB that need not wait. -/
theorem ptpProduce_eq_some {i : Fin n} (h : s.ptpProduce i = some s') :
    s.ctx i = .idle ∧ ∃ id state, s.place id = some .requestQueue ∧
      s' = ((s.link id .privInit).setCtx i (.submit id)).changeState state s.frameServing := by
  unfold ptpProduce at h
  split at h
  · cases h
  next hidle =>
  split at h
  · cases h
  next id hid =>
  refine ⟨not_not.mp hidle, id, ?_⟩
  split at h
  · obtain ⟨state, -, rfl⟩ := Option.map_eq_some_iff.mp h
    exact ⟨state, place_of_first hid, rfl⟩
  split at h
  · cases h
    exact ⟨s.state, place_of_first hid, rfl⟩
  · cases h

/-- What `ptp_on_rx` does with a URB: it is held back on `request_queue`, served from the frame
buffer, or passed on, unless it is a preview command. -/
theorem ptpOnRx_eq_some {parsed : Parsed} (h : s.ptpOnRx parsed = some s') :
    ∃ id, s.rx = .onRx id ∧ ∃ state serving,
      s' = (s.changeState state serving).setRx (.submitUrb id) ∨
      (∃ start, s' = (s.changeState state serving).setRx (.preview id start)) ∨
      s' = s.setRx (.consume id (.loop (some id) false false)) ∨
      s' = (s.link id .requestQueue).setRx .idle := by
  unfold ptpOnRx at h
  split at h
  next id hrx =>
    refine ⟨id, hrx, ?_⟩
    split at h
    · cases h
      exact ⟨s.state, s.frameServing, Or.inl rfl⟩
    split at h
    · cases h
      unfold ptpOnRxIn
      split
      · exact ⟨s.state, s.frameServing, Or.inr (Or.inr (Or.inl rfl))⟩
      split
      · exact ⟨s.state, s.frameServing, Or.inr (Or.inr (Or.inr rfl))⟩
      · exact ⟨s.state, s.frameServing, Or.inl rfl⟩
    · cases h
      unfold ptpOnRxOut
      cases parsed with
      | other => exact ⟨s.state, s.frameServing, Or.inl rfl⟩
      | preview =>
        simp only
        split
        · exact ⟨.active, true, Or.inr (Or.inl ⟨true, rfl⟩)⟩
        split
        · exact ⟨s.state, true, Or.inr (Or.inl ⟨false, rfl⟩)⟩
        · exact ⟨.bypassed, s.frameServing, Or.inl rfl⟩
      | command =>
        simp only
        split
        next state _ => exact ⟨state, s.frameServing, Or.inl rfl⟩
        split
        · exact ⟨s.state, s.frameServing, Or.inr (Or.inr (Or.inr rfl))⟩
        · exact ⟨.bypassed, s.frameServing, Or.inl rfl⟩
    · cases h
      exact ⟨s.state, s.frameServing, Or.inl rfl⟩
  · cases h

end Device

/-- A device with the filter of a known model, right after the first `store_sockfd`. -/
def connected (n : ℕ) : Device n where
  conn := 0
  nextId := 0
  order := []
  place := fun _ => none
  live := fun _ => false
  owner := fun _ => 0
  seqnum := fun _ => 0
  unlinking := fun _ => false
  kind := fun _ => .other
  inFlight := fun _ => false
  state := .idle
  frameServing := false
  rx := .idle
  tx := .submitLoop
  shut := .live
  ctx := fun _ => .idle
  log := []

/-- The device with the filter, for all connections from the first one on. -/
def filteredStub (n : ℕ) : Machine (Device n) (Act n) := ⟨connected n, Device.step⟩

end Usbip.Stub.Filtered
