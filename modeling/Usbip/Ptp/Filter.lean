import Usbip.Lib.Codec
import Usbip.Lib.RecordRing

/-!
# The PTP filter: its state and `ptp_produce_`

`filter_ptp.c` reads preview frames ahead of the client. It issues the preview command itself,
receives the containers of the answer into a 1 MiB ring (`frame_buffer`), and serves the
client's read URBs from there. This module has the filter's fields, the ring arithmetic of its
macros, `ptp_change_state_` and `ptp_produce_`, which submits the first pending request or
chooses the part of the ring that the next transfer from the camera goes to.

Positions are integers, since `frame_rx_tail` and `frame_rx_tail2` are `-1` when unset; where
the source stores an `int` in an unsigned field the conversion is written `u32`.

Four fields are not the source's, and no test of the source depends on them. `kept` lists the
bytes the camera has delivered and the consumer has not copied yet, each with the place the camera
put it and with what is left of its container. `frames` has all that was ever delivered, frame by
frame, without the frames that were dropped; `mark` and `mark₂` count the frames before the one
that starts at `frame_rx_tail` and before the one at `frame_rx_tail2`.
-/

namespace Usbip.Ptp

open RecordRing

/-- `ptp_framebuf_full_size` -/
def framebufFullSize : ℤ := 1024 * 1024

/-- `ptp_framebuf_align` -/
def framebufAlign (pt : ℤ) : ℤ :=
  if pt % 64 = 0 then pt else (pt / 64 + 1) * 64

/-- An `int` stored in a field of type `u32`. -/
def u32 (n : ℤ) : ℤ := n % 2 ^ 32

/-- `enum ptp_filter_state` -/
inductive FilterState
  | init
  | bypassed
  | idle
  | command
  | active
  | busy
  | wait
  | drop
  | sleep
  | sleepWait
  deriving DecidableEq, Repr

/-- The value of the enumerator. -/
def FilterState.val : FilterState → ℕ
  | init => 0
  | bypassed => 1
  | idle => 2
  | command => 3
  | active => 4
  | busy => 5
  | wait => 6
  | drop => 7
  | sleep => 8
  | sleepWait => 9

/-- `filter->state >= ptpfs_active` -/
abbrev FilterState.Filtering (s : FilterState) : Prop := FilterState.active.val ≤ s.val

/-- A URB on `request_queue`: one of the filter's own, told apart by its completion handler, or
one of the client's, told apart by its direction. -/
inductive Request
  /-- the preview command (`ptp_cmd_complete`) -/
  | selfCmd
  /-- a read of the answer to it (`ptp_data_complete`) -/
  | selfData
  /-- a read of the client -/
  | clientIn
  /-- a command of the client other than a preview command -/
  | clientOut
  deriving DecidableEq, Repr

/-- A URB of the filter that the host controller driver has. -/
inductive Transfer
  | cmd
  /-- a receive URB with `transfer_buffer = frame_buffer + offset` -/
  | data (offset length : ℤ)
  deriving DecidableEq, Repr

/-- The parameters of a run. -/
structure Config where
  /-- `filter->out_pipe_size`, a `wMaxPacketSize` -/
  outPipeSize : ℤ
  /-- `usbip_ptp_buffer_count` -/
  bufferCount : ℤ
  outPipeSize_pos : 0 < outPipeSize
  outPipeSize_lt : outPipeSize < 2 ^ 16

/-- The fields of `struct ptp_filter` that streaming uses. `busyQueue` lists the URBs in flight
and `freeUrbs` counts those of `free_list`; the timer is its handler, which may run whenever the
lock is free. -/
structure Filter where
  state : FilterState
  frameCount : ℤ
  frameServing : Bool
  frameHead : ℤ
  frameTail : ℤ
  frameLength : ℕ
  framePduEnd : Bool
  frameRxLength : ℕ
  frameRxPduEnd : Bool
  frameBufferSize : ℤ
  frameRxTail : ℤ
  frameRxTail2 : ℤ
  frameBuffer : ℤ → Byte
  /-- read URBs of the client, by their order of arrival -/
  clientQueue : List ℕ
  requestQueue : List Request
  freeUrbs : ℕ
  busyQueue : List Transfer
  /-- bytes received and not copied yet -/
  kept : List (Cell Byte)
  /-- bytes received of each frame that was not dropped -/
  frames : List (List Byte)
  /-- the frames before the one marked by `frame_rx_tail` -/
  mark : ℕ
  /-- the frames before the one marked by `frame_rx_tail2` -/
  mark₂ : ℕ

/-! ### Containers -/

/-- `le32_to_cpu(ptpdu->length)` -/
def containerLength : List Byte → ℕ
  | b₀ :: b₁ :: b₂ :: b₃ :: _ =>
    b₀.toNat + 2 ^ 8 * b₁.toNat + 2 ^ 16 * b₂.toNat + 2 ^ 24 * b₃.toNat
  | _ => 0

theorem containerLength_lt (data : List Byte) : containerLength data < 2 ^ 32 := by
  match data with
  | [] => simp [containerLength]
  | [_] => simp [containerLength]
  | [_, _] => simp [containerLength]
  | [_, _, _] => simp [containerLength]
  | b₀ :: b₁ :: b₂ :: b₃ :: _ =>
    have h₀ := b₀.isLt
    have h₁ := b₁.isLt
    have h₂ := b₂.isLt
    have h₃ := b₃.isLt
    simp only [containerLength]
    omega

/-- `le16_to_cpu(ptpdu->type)` -/
def containerType : List Byte → ℕ
  | _ :: _ :: _ :: _ :: b₄ :: b₅ :: _ => b₄.toNat + 2 ^ 8 * b₅.toNat
  | _ => 0

/-- `PTP_USB_CONTAINER_RESPONSE` -/
def containerResponse : ℕ := 3

/-- `sizeof(PTPUSBBulkHeader)` -/
abbrev bulkHeaderSize : ℕ := 12

namespace Filter

variable (cfg : Config) (f : Filter)

/-! ### Ring arithmetic -/

/-- `ptp_framebuf_to_end_count` -/
def toEndCount : ℤ :=
  if f.frameTail ≤ f.frameHead then f.frameHead - f.frameTail
  else f.frameBufferSize - f.frameTail

/-- `ptp_framebuf_to_end_space` -/
def toEndSpace : ℤ :=
  if f.frameTail ≤ f.frameHead then f.frameBufferSize - f.frameHead
  else f.frameTail - f.frameHead

/-- `ptp_framebuf_space` -/
def space : ℤ :=
  if f.frameTail ≤ f.frameHead then f.frameBufferSize - f.frameHead + f.frameTail
  else f.frameTail - f.frameHead

/-- `ptp_framebuf_nospace` -/
abbrev Nospace : Prop := u32 f.space ≤ cfg.outPipeSize

end Filter

/-- `PTP_TRANSFER_LENGTH` -/
def transferLength (cfg : Config) (length : ℤ) : ℤ :=
  length / cfg.outPipeSize * cfg.outPipeSize

namespace Filter

/-! ### `ptp_change_state_` -/

/-- `ptp_change_state_`: going to sleep takes the preview commands off `request_queue`. -/
def changeState (f : Filter) (s : FilterState) : Filter :=
  if s = .sleep then
    { f with
      state := .sleep
      requestQueue := f.requestQueue.filter fun r => r ≠ .selfCmd
      freeUrbs := f.freeUrbs + f.requestQueue.count .selfCmd }
  else { f with state := s }

/-! ### `ptp_produce_` -/

/-- What `ptp_produce_` leaves behind, and whether it released the lock to submit a URB. -/
structure Produced where
  filter : Filter
  released : Bool

/-- A request that has to wait; it is already on `request_queue` when it is `pending`. -/
def pend (f : Filter) (r : Request) (pending : Bool) : Filter :=
  if pending then f else { f with requestQueue := f.requestQueue ++ [r] }

/-- `ptp_submit_urb` takes a pending request off `request_queue`. -/
def unqueue (f : Filter) (pending : Bool) : Filter :=
  if pending then { f with requestQueue := f.requestQueue.tail } else f

/-- A URB of the filter goes to the host controller driver. -/
def submit (f : Filter) (t : Transfer) : Filter := { f with busyQueue := f.busyQueue ++ [t] }

/-- The frame asked for next will start at `frame_head`. -/
def markFrame (f : Filter) : Filter :=
  { f with
    frameRxTail2 := if 0 < f.frameRxTail then f.frameRxTail else f.frameRxTail2
    frameRxTail := f.frameHead
    frames := f.frames ++ [[]]
    mark := f.frames.length
    mark₂ := if 0 < f.frameRxTail then f.mark else f.mark₂ }

def submitCmd (f : Filter) (pending : Bool) : Produced :=
  ⟨((f.markFrame.changeState .busy).unqueue pending).submit .cmd, true⟩

def produceCmd (cfg : Config) (f : Filter) (pending : Bool) : Produced :=
  if f.state = .sleep then (f.changeState .active).submitCmd pending
  else if f.state ≠ .active ∨ f.Nospace cfg then ⟨f.pend .selfCmd pending, false⟩
  else f.submitCmd pending

def produceClientOut (f : Filter) (pending : Bool) : Produced :=
  match f.state with
  | .idle => ⟨(f.changeState .command).unqueue pending, true⟩
  | .sleep => ⟨(f.changeState .sleepWait).unqueue pending, true⟩
  | .active => ⟨(f.changeState .wait).unqueue pending, true⟩
  | _ => ⟨f.pend .clientOut pending, false⟩

/-- A read of the client; outside a preview transaction it goes to the camera as it is. -/
def produceClientIn (f : Filter) (pending : Bool) : Produced :=
  if f.state ≠ .busy ∧ f.state ≠ .drop then
    if pending then ⟨f.unqueue pending, true⟩ else ⟨f, false⟩
  else ⟨f.pend .clientIn pending, false⟩

/-- Where a receive URB may go: the effective size of the buffer, the offset and the number of
bytes there. -/
structure Room where
  size : ℤ
  head : ℤ
  length : ℤ

/-- The room at `frame_head`. When it is short of a packet at the end of the buffer, the buffer
gets its full size back, or else ends early and the head rolls over. `frame_head` itself is not
changed here. -/
def makeRoom (cfg : Config) (f : Filter) : Room :=
  if u32 f.toEndSpace < cfg.outPipeSize ∧ f.frameTail < f.frameHead then
    if cfg.outPipeSize ≤ u32 (framebufFullSize - f.frameHead) then
      ⟨framebufFullSize, f.frameHead, framebufFullSize - f.frameHead⟩
    else if f.frameTail ≠ 0 then ⟨f.frameHead, 0, f.frameTail⟩
    else ⟨f.frameBufferSize, f.frameHead, u32 f.toEndSpace⟩
  else ⟨f.frameBufferSize, f.frameHead, u32 f.toEndSpace⟩

/-- The bytes from the mark `frame_rx_tail` on belong to frames that are dropped. -/
def discard (f : Filter) : Filter :=
  { f with
    kept := before f.frameRxTail f.kept
    frames := f.frames.take f.mark }

/-- The data of a dropped frame goes to the larger part of what is left of the buffer. -/
def dropPlace (f : Filter) : Filter :=
  if f.frameRxTail ≤ f.frameTail then { f with frameHead := f.frameRxTail }
  else if f.frameTail < framebufFullSize - f.frameRxTail then
    { f with frameHead := f.frameRxTail, frameBufferSize := framebufFullSize }
  else { f with frameHead := 0 }

/-- One pass of the loop that finds room for a frame that is dropped. -/
def dropPass (f : Filter) : Filter := f.discard.dropPlace

/-- The frame before is dropped, too. -/
def dropPrevious (f : Filter) : Filter :=
  { f with frameRxTail := f.frameRxTail2, frameRxTail2 := -1, mark := f.mark₂ }

/-- The loop: its first pass drops the frame being received, and the second one, if the room is
still small, the frame before it. There is no third pass, because the mark is used up. -/
def dropFrame (cfg : Config) (f : Filter) : Filter :=
  if 0 ≤ f.dropPass.frameRxTail2 ∧ 1 < f.dropPass.frameCount ∧
      u32 f.dropPass.toEndSpace < cfg.outPipeSize * 2 ^ 5 then
    f.dropPass.dropPrevious.dropPass
  else f.dropPass

def submitData (cfg : Config) (f : Filter) (head length : ℤ) (pending : Bool) : Produced :=
  if transferLength cfg length = 0 then ⟨f.changeState .bypassed, false⟩
  else ⟨(f.unqueue pending).submit (.data head (transferLength cfg length)), true⟩

/-- The end of the buffer is where `makeRoom` puts it. -/
def resized (cfg : Config) (f : Filter) : Filter :=
  { f with frameBufferSize := (f.makeRoom cfg).size }

/-- Receiving a frame, or more of it, that is dropped. -/
def produceDropped (cfg : Config) (f : Filter) (pending : Bool) : Produced :=
  f.submitData cfg f.frameHead (u32 f.toEndSpace) pending

def produceData (cfg : Config) (f : Filter) (pending : Bool) : Produced :=
  if (f.makeRoom cfg).length < cfg.outPipeSize ∧ f.frameRxTail < 0 then
    ⟨(f.resized cfg).pend .selfData pending, false⟩
  else if (f.makeRoom cfg).length < cfg.outPipeSize ∨ f.state = .drop then
    (((f.resized cfg).changeState .drop).dropFrame cfg).produceDropped cfg pending
  else (f.resized cfg).submitData cfg (f.makeRoom cfg).head (f.makeRoom cfg).length pending

def produceUrb (cfg : Config) (f : Filter) (r : Request) (pending : Bool) : Produced :=
  match r with
  | .selfCmd => f.produceCmd cfg pending
  | .clientOut => f.produceClientOut pending
  | .clientIn => f.produceClientIn pending
  | .selfData => f.produceData cfg pending

/-- `ptp_produce_`, for the given URB or for the first one on `request_queue`. -/
def produce (cfg : Config) (f : Filter) (priv : Option Request) : Produced :=
  match priv, f.requestQueue with
  | some r, _ => f.produceUrb cfg r false
  | none, [] => ⟨f, false⟩
  | none, r :: _ => f.produceUrb cfg r true

end Filter

end Usbip.Ptp
