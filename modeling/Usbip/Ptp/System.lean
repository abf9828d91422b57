import Usbip.Ptp.Filter
import Usbip.Lib.Machine

/-!
# The PTP filter: consumer, completion handlers and their interleavings

`ptp_consume_`, `ptp_data_complete`, `ptp_cmd_complete`, `ptp_timer` and the streaming parts of
`ptp_on_rx` and `ptp_on_tx`, put together as the machine `ptpFilter`.

Each step runs from one acquisition of `filter->lock` to its next release, with two exceptions.
The loop of `ptp_consume_` takes one step per pass; meanwhile the lock has a `holder`. Where
the lock is released in the middle of a function (around `stub_submit_urb` and around the
completion of a client's URB) the rest of the function is on `suspended` and goes on whenever
the lock is free again. The receive thread runs one `ptp_on_rx` at a time, every other context
may overlap with all others.

The outcome of a call that depends on the camera, on the timer or on `ptp_parse` is part of the
label: the data of a transfer, its status, whether the response code was `PTP_RC_OK`, and every
`ptpfs_bypassed` set by `ptp_parse` (`Act.bypass`).
-/

namespace Usbip.Ptp

open RecordRing

/-- A call of `ptp_consume_` under way: whether the receive thread makes it, and the locals
`priv` and `pending`. -/
structure Consumer where
  rx : Bool
  priv : Option ℕ
  pending : Bool
  deriving DecidableEq, Repr

/-- A function that will take the lock again. -/
inductive Suspended
  /-- `ptp_consume_` is at the end of a pass -/
  | again (c : Consumer)
  /-- `ptp_consume_` has completed a URB and will call `ptp_produce_` -/
  | completed (c : Consumer)
  /-- `ptp_on_tx` has read the state and will change it -/
  | onTx (read : FilterState)
  deriving DecidableEq, Repr

/-- Whether the receive thread is in there. -/
def Suspended.rx : Suspended → Bool
  | .again c => c.rx
  | .completed c => c.rx
  | .onTx _ => false

/-- The filter, its callers, and the client's read URBs, numbered by arrival: `size u` is
`transfer_buffer_length` and `copied u` the bytes copied so far (`actual_length` of them). -/
structure System where
  filter : Filter
  holder : Option Consumer
  suspended : List Suspended
  arrivals : ℕ
  size : ℕ → ℕ
  copied : ℕ → List Byte

/-- The steps, named by who moves. -/
inductive Act
  /-- `ptp_on_rx` with a read URB of the client -/
  | readUrb (size : ℕ)
  /-- `ptp_on_rx` with a preview command -/
  | preview
  /-- `ptp_on_rx` with another command -/
  | command
  /-- `ptp_check_new_session` -/
  | newSession
  /-- a call of `ptp_parse` fails -/
  | bypass
  /-- `ptp_timer` -/
  | timer
  /-- completion of the `i`-th URB of `busy_queue`, a command -/
  | cmdComplete (i : ℕ) (ok : Bool)
  /-- completion of the `i`-th URB of `busy_queue`, a receive URB -/
  | dataComplete (i : ℕ) (data : List Byte) (ok rcOk : Bool)
  /-- `ptp_on_tx` reads the state after a response -/
  | onTxState
  /-- `ptp_on_tx` calls `ptp_produce_` -/
  | onTxProduce
  /-- the `i`-th suspended function goes on -/
  | resume (i : ℕ)
  /-- the next pass of `ptp_consume_` -/
  | pass

namespace Filter

/-! ### `ptp_consume_` -/

/-- `frame_rx_tail2` or `frame_rx_tail` is reached by the consumer. -/
def clearMark (f : Filter) : Filter :=
  if f.frameTail = f.frameRxTail2 then { f with frameRxTail2 := -1 }
  else if f.frameTail = f.frameRxTail then { f with frameRxTail := -1 }
  else f

/-- The outcomes of looking at the container at `frame_tail`. -/
inductive Begun
  /-- leave the loop -/
  | stop (f : Filter)
  /-- `ptp_bypass3` -/
  | bypass (f : Filter)
  /-- copy -/
  | go (f : Filter)

/-- The container header at `frame_tail`. -/
def header (f : Filter) : List Byte := readMem f.frameBuffer f.frameTail bulkHeaderSize

/-- Whether the container at `frame_tail` ends the frame. -/
def readType (f : Filter) : Filter :=
  { f with framePduEnd := containerType f.header = containerResponse }

/-- How long the container at `frame_tail` is. -/
def readLength (f : Filter) : Filter := { f with frameLength := containerLength f.header }

/-- The part of a pass that starts a container, `actual` being `urb->actual_length`. -/
def beginContainer (f : Filter) (actual : ℕ) : Begun :=
  if f.frameLength ≠ 0 then .go f
  else if f.frameTail ≠ f.frameRxTail2 ∧ f.frameTail = f.frameRxTail ∧ f.state = .drop then .stop f
  else if u32 f.toEndCount < bulkHeaderSize then .stop f.clearMark
  else if actual ≠ 0 then .bypass f.clearMark.readType
  else if containerLength f.header < bulkHeaderSize then .bypass f.clearMark.readType.readLength
  else .go f.clearMark.readType.readLength

/-- `copy_length`, for a URB that has room for `room` more bytes. -/
def copyLength (f : Filter) (room : ℕ) : ℕ :=
  min (u32 (min (room : ℤ) f.toEndCount)).toNat f.frameLength

/-- `n` bytes at `frame_tail` have been copied: they are overwritten, and the tail moves. -/
def advance (f : Filter) (n : ℕ) : Filter :=
  let tail := (f.frameTail + n) % f.frameBufferSize
  let last := f.frameLength = n
  { f with
    frameBuffer := fun i =>
      if f.frameTail ≤ i ∧ i < f.frameTail + n then 0xff else f.frameBuffer i
    frameLength := f.frameLength - n
    frameBufferSize := if tail < f.frameTail then framebufFullSize else f.frameBufferSize
    frameTail := if last then framebufAlign tail else tail
    frameServing := if last ∧ f.framePduEnd then false else f.frameServing
    frameCount := if last ∧ f.framePduEnd then f.frameCount - 1 else f.frameCount
    kept := f.kept.filter fun c => ¬ (f.frameTail ≤ c.pos ∧ c.pos < f.frameTail + n) }

/-! ### Completion handlers -/

/-- `ptp_bypass4` -/
def bypass4 (f : Filter) : Filter :=
  { f with freeUrbs := f.freeUrbs + 1 }.changeState .bypassed

/-- No container is being received. -/
def resetRx (f : Filter) : Filter := { f with frameRxLength := 0 }

/-- `ptp_cmd_complete`: the URB is sent again to receive the answer. -/
def cmdComplete (cfg : Config) (f : Filter) (ok : Bool) : Filter :=
  if ¬ ok ∨ ¬ f.state.Filtering then f.bypass4
  else if transferLength cfg (u32 f.toEndSpace) = 0 then
    f.resetRx.changeState .bypassed
  else f.resetRx.submit (.data f.frameHead (transferLength cfg (u32 f.toEndSpace)))

/-- What is left to receive of the container that `data` starts or continues. -/
def rxRemaining (f : Filter) (data : List Byte) : ℕ :=
  if f.frameRxLength = 0 then containerLength data else f.frameRxLength

/-- The header of a new container is too short, or tells too small a length. -/
abbrev RxInvalid (f : Filter) (data : List Byte) : Prop :=
  f.frameRxLength = 0 ∧ (data.length < bulkHeaderSize ∨ containerLength data < bulkHeaderSize)

/-- What is left of the container after `data` (`frame_rx_length` is a `u32`). -/
def rxLeft (f : Filter) (data : List Byte) : ℕ :=
  (f.rxRemaining data + 2 ^ 32 - data.length) % 2 ^ 32

/-- `head` after `data`, before it is aligned. -/
def rxHead (f : Filter) (data : List Byte) : ℤ :=
  if f.state = .drop then f.frameHead else (f.frameHead + data.length) % f.frameBufferSize

/-- The camera has delivered more of the last frame. -/
def addToLast (frames : List (List Byte)) (data : List Byte) : List (List Byte) :=
  frames.dropLast ++ [frames.getLastD [] ++ data]

/-- The fields that a received transfer changes. -/
def counted (f : Filter) (pduEnd : Bool) (left : ℕ) (head : ℤ) (kept : List (Cell Byte))
    (frames : List (List Byte)) : Filter :=
  { f with
    frameRxPduEnd := pduEnd, frameRxLength := left, frameHead := head, kept := kept,
    frames := frames }

/-- `data` is in the buffer at `offset`: the counts of the receiving container and, unless the
frame is dropped, the head move on. -/
def receive (f : Filter) (offset : ℤ) (data : List Byte) : Filter :=
  f.counted
    (if f.frameRxLength = 0 then containerType data = containerResponse else f.frameRxPduEnd)
    (f.rxLeft data)
    (if f.rxLeft data = 0 then framebufAlign (f.rxHead data) else f.rxHead data)
    (if f.state = .drop then f.kept else f.kept ++ block offset (f.rxRemaining data) data)
    (if f.state = .drop then f.frames else addToLast f.frames data)

/-- The URB of a dropped frame is free again, and the head is back at its mark. -/
def endDropped (f : Filter) : Filter :=
  { f with
    freeUrbs := f.freeUrbs + 1
    frameHead := f.frameRxTail
    frameBufferSize := if f.frameTail ≤ f.frameRxTail then framebufFullSize
      else f.frameBufferSize }

/-- The URB of a complete frame is free again. -/
def endFrame (f : Filter) : Filter :=
  { f with freeUrbs := f.freeUrbs + 1, frameCount := f.frameCount + 1 }

/-- The response container of a frame is complete. -/
def frameDone (cfg : Config) (f : Filter) (rcOk : Bool) : Filter :=
  if f.state = .drop then f.endDropped.changeState .sleep
  else if cfg.bufferCount ≤ u32 (f.frameCount + 1) ∨ ¬ rcOk then f.endFrame.changeState .sleep
  else f.endFrame.changeState .active

/-- The URB goes on to `ptp_produce_`, unless the frame it received is complete. -/
def received (cfg : Config) (f : Filter) (rcOk : Bool) : Produced :=
  if f.frameRxLength = 0 ∧ f.frameRxPduEnd then (f.frameDone cfg rcOk).produce cfg none
  else f.produce cfg (some .selfData)

/-- The camera's data is in the buffer. -/
def written (f : Filter) (offset : ℤ) (data : List Byte) : Filter :=
  { f with frameBuffer := writeMem f.frameBuffer offset data }

/-- `frame_rx_length` when the header of a container is refused. -/
def refused (f : Filter) (data : List Byte) : Filter :=
  { f with frameRxLength := if data.length < bulkHeaderSize then 0 else containerLength data }

/-- `ptp_data_complete`, with the data in the buffer: it gives up, or comes to its call of
`ptp_consume_`. -/
def dataComplete (cfg : Config) (f : Filter) (offset : ℤ) (data : List Byte) (ok rcOk : Bool) :
    Filter ⊕ Produced :=
  if ¬ ok ∨ (f.state ≠ .busy ∧ f.state ≠ .drop) then .inl f.bypass4
  else if f.RxInvalid data then .inl (f.refused data).bypass4
  else .inr ((f.receive offset data).received cfg rcOk)

/-! ### `ptp_timer` and `ptp_on_rx` -/

/-- `ptp_timer` -/
def timer (cfg : Config) (f : Filter) : Filter :=
  if ¬ f.state.Filtering ∨ f.state = .drop ∨ f.state = .sleep ∨ f.state = .sleepWait then f
  else
    match f.freeUrbs with
    | 0 => f
    | n + 1 => ({ f with freeUrbs := n }.produce cfg (some .selfCmd)).filter

/-- `ptp_on_rx` with a preview command; in state `ptpfs_idle` the stream starts over. -/
def preview (f : Filter) : Filter :=
  if f.state = .idle then
    { f with
      frameCount := 0
      frameRxTail := -1
      frameRxTail2 := -1
      frameHead := 0
      frameTail := 0
      frameLength := 0
      frameServing := true
      kept := [] }.changeState .active
  else if f.state = .sleep then { f with frameServing := true }.changeState .active
  else if f.state.Filtering ∧ f.frameServing = false then { f with frameServing := true }
  else f.changeState .bypassed

/-- `ptp_on_rx` with a command that is no preview command. -/
def command (f : Filter) : Filter :=
  match f.state with
  | .active => f.changeState .wait
  | .sleep => f.changeState .sleepWait
  | .idle => f.changeState .command
  | .drop => f.pend .clientOut false
  | .busy => f.pend .clientOut false
  | _ => f.changeState .bypassed

end Filter

/-- A URB of the filter has come back. -/
def Filter.complete (f : Filter) (i : ℕ) : Filter :=
  { f with busyQueue := f.busyQueue.eraseIdx i }

/-- The consumer is told that there is no stream. -/
def Filter.stopServing (f : Filter) : Filter := { f with frameServing := false }

/-- A read URB waits at the end of `client_queue`. -/
def Filter.queueRead (f : Filter) (u : ℕ) : Filter :=
  { f with clientQueue := f.clientQueue ++ [u] }

/-- A read URB leaves `client_queue` to be completed. -/
def Filter.unqueueRead (f : Filter) (u : ℕ) : Filter :=
  { f with clientQueue := f.clientQueue.erase u }

/-- The state `ptp_on_tx` sets after a response to the client. -/
def FilterState.afterResponse : FilterState → FilterState
  | .wait => .active
  | .sleepWait => .sleep
  | .command => .idle
  | s => s

namespace System

variable (cfg : Config) (s : System)

/-- `ptp_consume_` leaves its loop: a URB taken from the caller goes to `client_queue`. -/
def leave (f : Filter) (c : Consumer) : System :=
  { s with
    filter := match c.priv, c.pending with
      | some u, false => f.queueRead u
      | _, _ => f
    holder := none }

/-- `ptp_produce_` has returned to `ptp_consume_`, with the lock taken again if it was released
in between. -/
def produced (p : Filter.Produced) (c : Consumer) : System :=
  if p.released then
    { s with filter := p.filter, holder := none, suspended := s.suspended ++ [.again c] }
  else { s with filter := p.filter, holder := some c }

/-- `n` bytes are copied to the URB `u`; it is completed when it is full or the container ends. -/
def serve (f : Filter) (c : Consumer) (u n : ℕ) : System :=
  let s' := { s with
    copied := Function.update s.copied u (s.copied u ++ readMem f.frameBuffer f.frameTail n) }
  let f' := f.advance n
  if f'.frameLength = 0 ∨ (s'.copied u).length = s.size u then
    { s' with
      filter := if c.pending then f'.unqueueRead u else f'
      holder := none
      suspended := s.suspended ++ [.completed { c with priv := none }] }
  else s'.produced (f'.produce cfg none) c

/-- One pass of the loop of `ptp_consume_`. -/
def pass (c : Consumer) : System :=
  if ¬ s.filter.state.Filtering then
    { s with filter := s.filter.stopServing, holder := none }
  else
    match c.priv.or s.filter.clientQueue.head? with
    | none => { s with holder := none }
    | some u =>
      let c' : Consumer := ⟨c.rx, some u, c.pending || c.priv.isNone⟩
      match s.filter.beginContainer (s.copied u).length with
      | .stop f => s.leave f c'
      | .bypass f => { s with filter := f.changeState .bypassed, holder := none }
      | .go f =>
        if f.copyLength (s.size u - (s.copied u).length) = 0 then s.leave f c'
        else s.serve cfg f c' u (f.copyLength (s.size u - (s.copied u).length))

/-- `ptp_on_rx` with a read URB: `frame_serving` decides between consumer and producer. -/
def readUrb (n : ℕ) : System :=
  let s' := { s with arrivals := s.arrivals + 1, size := Function.update s.size s.arrivals n }
  if s.filter.frameServing then { s' with holder := some ⟨true, some s.arrivals, false⟩ }
  else if s.filter.state.Filtering then
    { s' with filter := (s.filter.produce cfg (some .clientIn)).filter }
  else s'

/-- The consumer that `ptp_data_complete` starts. -/
def freshConsumer : Consumer := ⟨false, none, false⟩

/-- A suspended function has the lock again. -/
def resume (x : Suspended) : System :=
  match x with
  | .again c => { s with holder := some c }
  | .completed c => s.produced (s.filter.produce cfg none) c
  | .onTx read => { s with filter := s.filter.changeState read.afterResponse }

/-- The receive thread is not inside `ptp_on_rx`. -/
abbrev RxFree : Prop := ∀ x ∈ s.suspended, x.rx = false

/-- The steps that take the lock. -/
def locked : Act → Option System
  | .readUrb n => if s.RxFree ∧ n < 2 ^ 31 then some (s.readUrb cfg n) else none
  | .preview => if s.RxFree then some { s with filter := s.filter.preview } else none
  | .command => if s.RxFree then some { s with filter := s.filter.command } else none
  | .newSession => if s.RxFree then some { s with filter := s.filter.changeState .idle } else none
  | .bypass => some { s with filter := s.filter.changeState .bypassed }
  | .timer => some { s with filter := s.filter.timer cfg }
  | .cmdComplete i ok =>
    match s.filter.busyQueue[i]? with
    | some .cmd => some { s with filter := (s.filter.complete i).cmdComplete cfg ok }
    | _ => none
  | .dataComplete i data ok rcOk =>
    match s.filter.busyQueue[i]? with
    | some (.data offset length) =>
      if data.length ≤ length then
        match ((s.filter.complete i).written offset data).dataComplete cfg offset data ok rcOk with
        | .inl f => some { s with filter := f }
        | .inr p => some (s.produced p freshConsumer)
      else none
    | _ => none
  | .onTxState =>
    if s.filter.state.afterResponse ≠ s.filter.state then
      some { s with suspended := s.suspended ++ [.onTx s.filter.state] }
    else none
  | .onTxProduce => some { s with filter := (s.filter.produce cfg none).filter }
  | .resume i =>
    match s.suspended[i]? with
    | some x => some ({ s with suspended := s.suspended.eraseIdx i }.resume cfg x)
    | none => none
  | .pass => none

/-- One step. The lock is held only between the passes of `ptp_consume_`. -/
def step (s : System) (a : Act) : Option System :=
  match s.holder, a with
  | some c, .pass => some (s.pass cfg c)
  | some _, _ => none
  | none, a => s.locked cfg a

end System

/-- The filter after `ptp_probe` of a known model. The buffer and the `PTP_FREE_URB_COUNT` URBs
are there from the start, as nothing uses them before the first preview command allocates them. -/
def Filter.probed : Filter where
  state := .idle
  frameCount := 0
  frameServing := false
  frameHead := 0
  frameTail := 0
  frameLength := 0
  framePduEnd := false
  frameRxLength := 0
  frameRxPduEnd := false
  frameBufferSize := framebufFullSize
  frameRxTail := 0
  frameRxTail2 := 0
  frameBuffer := fun _ => 0xfd
  clientQueue := []
  requestQueue := []
  freeUrbs := 2
  busyQueue := []
  kept := []
  frames := []
  mark := 0
  mark₂ := 0

/-- The interleavings of the filter's contexts, with any client and any camera. -/
def ptpFilter (cfg : Config) : Machine System Act where
  init := ⟨.probed, none, [], 0, fun _ => 0, fun _ => []⟩
  step := System.step cfg

end Usbip.Ptp
