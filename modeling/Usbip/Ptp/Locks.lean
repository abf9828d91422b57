import Usbip.Lib.CallChain
import Usbip.Ptp.Transparent

/-!
# The PTP filter as call chains

Each function of `filter_ptp.c` that is entered from outside, as a call chain with its lock
operations: the hooks `ptp_on_rx` and `ptp_on_tx`, the timer, the two completion handlers and
`ptp_remove`, and around the hooks `usbip_filter_on_rx` and `usbip_filter_on_tx`. Two locks count:
`filter->lock`, and `ud->filter_lock`, which the dispatch holds around a hook.

A function that goes on after a lock operation has one `Call` for each part. What it does to the
fields is what `Filter`, `System` and `Parser` say. A part takes one step; only the lock
operations of `ptp_parse` follow when it has done its work, and where it reads outside of the
buffer the chain ends in `fault`.

Whenever the chain does not hold `filter->lock` other contexts may have changed everything. With
the lock they change what is not protected by it: the parsers, the transaction identifiers,
`frame_serving_urb`, the pointer `frame_buffer` and what the camera writes there.
-/

namespace Usbip.Ptp

open RecordRing

/-- The locks of a call chain. -/
inductive Lock
  /-- `filter->lock` -/
  | lock
  /-- `ud->filter_lock` -/
  | filterLock
  deriving DecidableEq, Repr

/-- A URB at a hook: `data` is the buffer of an OUT URB and what an IN URB has received. -/
structure Urb where
  id : ℕ
  /-- `usb_pipebulk` -/
  bulk : Bool
  /-- `usb_pipeout` -/
  pipeOut : Bool
  /-- the status is 0 -/
  ok : Bool
  data : List Byte
  deriving DecidableEq

/-- The functions, and the parts of functions after a lock operation. -/
inductive Call
  | usbipFilterOnRx (urb : Urb)
  | usbipFilterOnTx (urb : Urb)
  | ptpOnRx (urb : Urb)
  /-- `ptp_on_rx` with a read URB -/
  | onRxIn (id : ℕ)
  /-- `ptp_on_rx` after `ptp_parse` -/
  | onRxParsed (urb : Urb)
  /-- `ptp_on_rx` with a command -/
  | onRxCommand (urb : Urb)
  /-- `ptp_on_rx` after the completion of a preview command that starts the stream -/
  | startStream (urb : Urb)
  | ptpOnTx (urb : Urb)
  /-- `ptp_on_tx` after `ptp_parse` -/
  | onTxParsed (urb : Urb) (done : Bool)
  | ptpTimer
  | timerLocked
  | ptpCmdComplete (i : ℕ) (ok : Bool)
  | cmdCompleteLocked (ok : Bool)
  | ptpDataComplete (i : ℕ) (offset : ℤ) (data : List Byte) (ok : Bool)
  | dataCompleteLocked (offset : ℤ) (data : List Byte)
  /-- `ptp_data_complete` with a failed URB -/
  | dataFailed
  | ptpRemove
  /-- `ptp_change_state` -/
  | changeState (state : FilterState)
  | produce (priv : Option Request)
  /-- `ptp_parse` in `ptp_submit_urb` -/
  | parseSend
  | stubSubmitUrb
  | consume (priv : Option ℕ) (pending : Bool)
  /-- `ptp_complete_urb` -/
  | completeUrb (urb : Urb)
  | stubComplete (urb : Urb)
  /-- the end of `ptp_complete_urb` -/
  | completed
  /-- `ptp_parse` reads outside of the buffer -/
  | fault
  deriving DecidableEq

/-- A lock operation or a call of the filter. -/
abbrev FilterOp := ChainOp Lock Call

/-! ### `ptp_parse` with its lock operations -/

/-- The lock operations of `ptp_bypass1`. -/
def bypass1 : List FilterOp := [.acquire .lock, .release .lock]

/-- An OpenSession or CloseSession command. -/
def BulkHeader.changesSession (ptpdu : BulkHeader) : Bool :=
  decide (ptpdu.type = containerCommand) &&
    (decide (ptpdu.code = ocOpenSession) || decide (ptpdu.code = ocCloseSession))

/-- The lock operations of `ptp_check_new_session`: it does not release the lock. -/
def newSession (which : Parser) (ptpdu : BulkHeader) : List FilterOp :=
  if which = .rx ∧ ptpdu.changesSession then [.acquire .lock] else []

/-- `parsePhase` with the lock operations. -/
def lockPhase (which : Parser) (serving : Bool)
    (next : StateMachine → Session → Bool → List Byte → Option Parsed × List FilterOp)
    (m : StateMachine) (s : Session) (done : Bool) (data : List Byte) :
    Option Parsed × List FilterOp :=
  if (data.length + m.size) % 2 ^ 32 < m.ptpdu.length then
    (some ⟨{ m with size := (m.size + data.length) % 2 ^ 32 }, s, data, done⟩, [])
  else
    let offset := (m.ptpdu.length + 2 ^ 32 - m.size) % 2 ^ 32
    if data.length < offset then (none, [])
    else if m.state = .response then
      let r := next { m with state := .none } (s.endResponse which serving) true (data.drop offset)
      (r.1.map (·.prepend (data.take offset)), r.2)
    else
      let r := next { m with state := .waitResponse } s done (data.drop offset)
      (r.1.map (·.prepend (data.take offset)), r.2)

/-- `parseLoop` with the lock operations. -/
def lockLoop (which : Parser) (serving : Bool) :
    ℕ → StateMachine → Session → Bool → List Byte → Option Parsed × List FilterOp
  | _, m, s, done, [] => (some ⟨m, s, [], done⟩, [])
  | 0, _, _, _, _ => (none, [])
  | n + 1, m, s, done, data =>
    if m.state = .waitResponse ∨ m.state = .none then
      if data.length < bulkHeaderSize then (some ⟨m, s.bypass, data, false⟩, bypass1)
      else
        let ptpdu := readHeader data
        let rewritten := (s.checkNewSession which ptpdu).rewriteTransId which
          (data.take bulkHeaderSize)
        match phaseOf ptpdu.type with
        | none => (some ⟨⟨.unknown, bulkHeaderSize, ptpdu⟩, rewritten.1.bypass,
            rewritten.2 ++ data.drop bulkHeaderSize, false⟩, newSession which ptpdu ++ bypass1)
        | some state =>
          let r := lockPhase which serving (lockLoop which serving n) ⟨state, bulkHeaderSize, ptpdu⟩
            rewritten.1 done (data.drop bulkHeaderSize)
          (r.1.map (·.prepend rewritten.2), newSession which ptpdu ++ r.2)
    else lockPhase which serving (lockLoop which serving n) m s done data

/-- `ptp_parse`: what it leaves behind, and its lock operations. -/
def lockParse (which : Parser) (serving : Bool) (m : StateMachine) (s : Session)
    (data : List Byte) : Option Parsed × List FilterOp :=
  lockLoop which serving (2 * data.length) m s false data

theorem lockPhase_fst {which : Parser} {serving : Bool}
    {next : StateMachine → Session → Bool → List Byte → Option Parsed}
    {lockNext : StateMachine → Session → Bool → List Byte → Option Parsed × List FilterOp}
    (h : ∀ m s done data, (lockNext m s done data).1 = next m s done data)
    (m : StateMachine) (s : Session) (done : Bool) (data : List Byte) :
    (lockPhase which serving lockNext m s done data).1 =
      parsePhase which serving next m s done data := by
  simp only [lockPhase, parsePhase]
  split_ifs
  · simp only
  · simp only
  · simp only [h]
  · simp only [h]

/-- Apart from the lock operations this is the parser. -/
theorem lockLoop_fst (which : Parser) (serving : Bool) (n : ℕ) (m : StateMachine) (s : Session)
    (done : Bool) (data : List Byte) :
    (lockLoop which serving n m s done data).1 = parseLoop which serving n m s done data := by
  induction n generalizing m s done data with
  | zero => cases data <;> rfl
  | succ n ih =>
    have hphase := @lockPhase_fst which serving _ _ ih
    cases data with
    | nil => rfl
    | cons b data =>
      rw [lockLoop, parseLoop]
      · split
        · split
          · rfl
          cases hstate : phaseOf (readHeader (b :: data)).type with
          | none => simp only [hstate]
          | some state => simp only [hstate, hphase]
        · exact hphase m s done (b :: data)
      all_goals simp

theorem lockParse_fst (which : Parser) (serving : Bool) (m : StateMachine) (s : Session)
    (data : List Byte) :
    (lockParse which serving m s data).1 = parse which serving m s data :=
  lockLoop_fst which serving _ m s false data

/-! ### The shared state -/

/-- What the contexts share: the fields of `struct ptp_filter`, and the read URBs of the client
with their `transfer_buffer_length` and what has been copied to them. -/
structure Shared where
  filter : Filter
  transId : BitVec 32
  rxTransId : BitVec 32
  parsers : Parser → StateMachine
  /-- `info.VendorExtensionID` -/
  vendorExtensionId : ℕ
  /-- `frame_buffer` has been allocated -/
  bufferAllocated : Bool
  /-- `frame_serving_urb` -/
  servingUrb : Option ℕ
  size : ℕ → ℕ
  copied : ℕ → List Byte

/-- What a step of the chain does not decide by itself: the data of the URB that `ptp_produce_`
sends, whether the next frame is not due yet, and how many allocations succeed. -/
structure Choice where
  sent : List Byte
  early : Bool
  allocs : ℕ

/-- `PTP_RC_OK` -/
def rcOk : ℕ := 0x2001

/-- The URB goes to the camera. -/
def Request.pipeOut : Request → Bool
  | .selfCmd | .clientOut => true
  | .selfData | .clientIn => false

namespace Shared

/-- The fields that `ptp_parse` shares. -/
def session (x : Shared) : Session := ⟨x.filter.state, x.transId, x.rxTransId⟩

/-- The fields used outside of the live view. -/
def ptpFilter (x : Shared) : PtpFilter :=
  ⟨x.session, x.parsers .tx, x.parsers .rx, x.vendorExtensionId, x.filter.frameServing⟩

def setFilter (x : Shared) (f : Filter) : Shared := { x with filter := f }

/-- A call of `ptp_parse` has come to its end. -/
def setParsed (x : Shared) (which : Parser) (p : Parsed) : Shared :=
  { x with
    filter := { x.filter with state := p.session.state }
    transId := p.session.transId
    rxTransId := p.session.rxTransId
    parsers := Function.update x.parsers which p.machine }

/-- A call of `ptp_parse`, and what comes after it. -/
def parsed (x : Shared) (which : Parser) (serving : Bool) (data : List Byte)
    (next : Parsed → List FilterOp) : Shared × List FilterOp :=
  let r := lockParse which serving (x.parsers which) x.session data
  match r.1 with
  | none => (x, r.2 ++ [.call .fault])
  | some p => (x.setParsed which p, r.2 ++ next p)

/-- `ptp_change_state` with the lock to be taken. -/
def changeStateOps (state : FilterState) : List FilterOp :=
  [.acquire .lock, .call (.changeState state), .release .lock]

/-! ### `ptp_on_rx` -/

def ptpOnRx (x : Shared) (urb : Urb) : Shared × List FilterOp :=
  if x.filter.state = .bypassed ∨ urb.bulk = false then (x, [])
  else if urb.pipeOut then
    x.parsed .rx false urb.data fun p => [.call (.onRxParsed { urb with data := p.data })]
  else (x, [.acquire .lock, .call (.onRxIn urb.id)])

def onRxIn (x : Shared) (id : ℕ) : Shared × List FilterOp :=
  if x.filter.frameServing then (x, [.call (.consume (some id) false), .release .lock])
  else if x.filter.state.Filtering then (x, [.call (.produce (some .clientIn)), .release .lock])
  else (x, [.release .lock])

def onRxParsed (x : Shared) (urb : Urb) : Shared × List FilterOp :=
  if (x.parsers .rx).state ≠ .waitResponse ∨ (x.parsers .rx).ptpdu.type ≠ containerCommand then
    (x, [])
  else (x, [.acquire .lock, .call (.onRxCommand urb)])

/-- The filter answers the preview command itself. -/
abbrev TakesPreview (x : Shared) : Prop :=
  x.filter.state = .idle ∨ x.filter.state = .sleep ∨
    (x.filter.state.Filtering ∧ x.filter.frameServing = false)

/-- What follows on a preview command: if the stream starts, or starts again with a frame that is
due, `ptp_timer` is called in the end. -/
def previewOps (x : Shared) (urb : Urb) (early : Bool) : List FilterOp :=
  if x.TakesPreview then
    [.release .lock, .call (.completeUrb { urb with ok := true })] ++
      if x.filter.state = .idle ∨ x.filter.state = .sleep ∧ ¬ (x.filter.frameCount ≠ 0 ∧ early) then
        [.call (.startStream urb)]
      else []
  else [.release .lock]

def onRxCommand (x : Shared) (urb : Urb) (early : Bool) : Shared × List FilterOp :=
  match x.ptpFilter.checkPreview urb.data with
  | none => (x, [.call .fault])
  | some true => (x.setFilter x.filter.preview, x.previewOps urb early)
  | some false => (x.setFilter x.filter.command, [.release .lock])

/-- The buffer, the copy of the preview command and the URBs of the filter are allocated when the
stream starts for the first time. -/
def startStream (x : Shared) (urb : Urb) (allocs : ℕ) : Shared × List FilterOp :=
  if x.bufferAllocated then (x, [.call .ptpTimer])
  else if allocs = 0 then (x, changeStateOps .bypassed)
  else
    let x' := { x with bufferAllocated := true }
    if urb.data.length ≠ containerLength urb.data ∨ allocs = 1 then (x', changeStateOps .bypassed)
    else
      let n := min (allocs - 2) 2
      let x'' := x'.setFilter { x.filter with freeUrbs := x.filter.freeUrbs + n }
      if n < 2 then (x'', changeStateOps .bypassed) else (x'', [.call .ptpTimer])

/-! ### `ptp_on_tx` -/

def ptpOnTx (x : Shared) (urb : Urb) : Shared × List FilterOp :=
  if x.filter.state = .bypassed ∨ urb.bulk = false then (x, [])
  else if urb.ok = false then (x, changeStateOps .bypassed)
  else
    x.parsed .tx (x.servingUrb == some urb.id) urb.data fun p => [.call (.onTxParsed urb p.done)]

def onTxParsed (x : Shared) (urb : Urb) (done : Bool) : Shared × List FilterOp :=
  if urb.pipeOut ∨ x.filter.state = .init ∨ done = false then (x, [])
  else
    (x, (if x.filter.state.afterResponse ≠ x.filter.state then
        changeStateOps x.filter.state.afterResponse
      else []) ++ [.acquire .lock, .call (.produce none), .release .lock])

/-! ### The timer and the completion handlers -/

def timerLocked (x : Shared) : Shared × List FilterOp :=
  if ¬ x.filter.state.Filtering ∨ x.filter.state = .drop ∨ x.filter.state = .sleep ∨
      x.filter.state = .sleepWait then (x, [])
  else
    match x.filter.freeUrbs with
    | 0 => (x, [])
    | n + 1 => (x.setFilter { x.filter with freeUrbs := n }, [.call (.produce (some .selfCmd))])

def cmdCompleteLocked (cfg : Config) (x : Shared) (ok : Bool) : Shared × List FilterOp :=
  (x.setFilter (x.filter.cmdComplete cfg ok),
    if (¬ ok ∨ ¬ x.filter.state.Filtering) ∨ transferLength cfg (u32 x.filter.toEndSpace) = 0 then
      [.release .lock]
    else [.release .lock, .call .stubSubmitUrb])

def ptpDataComplete (x : Shared) (i : ℕ) (offset : ℤ) (data : List Byte) (ok : Bool) :
    Shared × List FilterOp :=
  let x' := x.setFilter ((x.filter.complete i).written offset data)
  if ok = false then (x', [.acquire .lock, .call .dataFailed, .release .lock])
  else
    x'.parsed .self false data fun _ => [.acquire .lock, .call (.dataCompleteLocked offset data)]

def dataCompleteLocked (cfg : Config) (x : Shared) (offset : ℤ) (data : List Byte) :
    Shared × List FilterOp :=
  let f := x.filter.receive offset data
  if x.filter.state ≠ .busy ∧ x.filter.state ≠ .drop then
    (x.setFilter x.filter.bypass4, [.release .lock])
  else if x.filter.RxInvalid data then
    (x.setFilter (x.filter.refused data).bypass4, [.release .lock])
  else if f.frameRxLength = 0 ∧ f.frameRxPduEnd then
    (x.setFilter (f.frameDone cfg (decide ((x.parsers .self).ptpdu.code = rcOk))),
      [.call (.produce none), .call (.consume none false), .release .lock])
  else
    (x.setFilter f,
      [.call (.produce (some .selfData)), .call (.consume none false), .release .lock])

/-! ### `ptp_produce_` and `ptp_consume_` -/

/-- `ptp_produce_` releases the lock to submit a URB. -/
def produce (cfg : Config) (x : Shared) (priv : Option Request) : Shared × List FilterOp :=
  (x.setFilter (x.filter.produce cfg priv).filter,
    if (x.filter.produce cfg priv).released then
      [.release .lock] ++
        (if (priv.or x.filter.requestQueue.head?).any Request.pipeOut then [.call .parseSend]
          else []) ++
        [.call .stubSubmitUrb, .acquire .lock]
    else [])

/-- `ptp_consume_` leaves its loop: a URB taken from the caller goes to `client_queue`. -/
def leave (x : Shared) (f : Filter) (u : ℕ) (pending : Bool) : Shared :=
  x.setFilter (if pending then f else f.queueRead u)

/-- `n` bytes are copied to a URB; it is completed when it is full or the container ends. -/
def serve (x : Shared) (f : Filter) (u n : ℕ) (pending : Bool) : Shared × List FilterOp :=
  let x' : Shared :=
    { x with
      filter := f.advance n
      copied := Function.update x.copied u
        (x.copied u ++ readMem f.frameBuffer f.frameTail n) }
  if x'.filter.frameLength = 0 ∨ (x'.copied u).length = x.size u then
    (x'.setFilter (if pending then x'.filter.unqueueRead u else x'.filter),
      [.release .lock, .call (.completeUrb ⟨u, true, false, true, x'.copied u⟩), .acquire .lock,
        .call (.produce none), .call (.consume none pending)])
  else (x', [.call (.produce none), .call (.consume (some u) pending)])

/-- One pass of the loop of `ptp_consume_`; `ptp_bypass3` releases the lock and returns. -/
def consume (x : Shared) (priv : Option ℕ) (pending : Bool) : Shared × List FilterOp :=
  if ¬ x.filter.state.Filtering then (x.setFilter x.filter.stopServing, [])
  else
    match priv.or x.filter.clientQueue.head? with
    | none => (x, [])
    | some u =>
      let pending := pending || priv.isNone
      match x.filter.beginContainer (x.copied u).length with
      | .stop f => (x.leave f u pending, [])
      | .bypass f => (x.setFilter (f.changeState .bypassed), [.release .lock])
      | .go f =>
        if f.copyLength (x.size u - (x.copied u).length) = 0 then (x.leave f u pending, [])
        else x.serve f u (f.copyLength (x.size u - (x.copied u).length)) pending

end Shared

/-! ### The program -/

/-- What a function does next. -/
def Call.body (cfg : Config) (x : Shared) (t : Call) (c : Choice) :
    Option (Shared × List FilterOp) :=
  match t with
  | .usbipFilterOnRx urb =>
    some (x, [.acquire .filterLock, .call (.ptpOnRx urb), .release .filterLock])
  | .usbipFilterOnTx urb =>
    some (x, [.acquire .filterLock, .call (.ptpOnTx urb), .release .filterLock])
  | .ptpOnRx urb => some (x.ptpOnRx urb)
  | .onRxIn id => some (x.onRxIn id)
  | .onRxParsed urb => some (x.onRxParsed urb)
  | .onRxCommand urb => some (x.onRxCommand urb c.early)
  | .startStream urb => some (x.startStream urb c.allocs)
  | .ptpOnTx urb => some (x.ptpOnTx urb)
  | .onTxParsed urb done => some (x.onTxParsed urb done)
  | .ptpTimer => some (x, [.acquire .lock, .call .timerLocked, .release .lock])
  | .timerLocked => some x.timerLocked
  | .ptpCmdComplete i ok =>
    some (x.setFilter (x.filter.complete i), [.acquire .lock, .call (.cmdCompleteLocked ok)])
  | .cmdCompleteLocked ok => some (x.cmdCompleteLocked cfg ok)
  | .ptpDataComplete i offset data ok => some (x.ptpDataComplete i offset data ok)
  | .dataCompleteLocked offset data => some (x.dataCompleteLocked cfg offset data)
  | .dataFailed => some (x.setFilter x.filter.bypass4, [])
  | .ptpRemove => some (x, Shared.changeStateOps .idle)
  | .changeState state => some (x.setFilter (x.filter.changeState state), [])
  | .produce priv => some (x.produce cfg priv)
  | .parseSend => some (x.parsed .send false c.sent fun _ => [])
  | .stubSubmitUrb => some (x, [])
  | .consume priv pending => some (x.consume priv pending)
  | .completeUrb urb =>
    some ({ x with servingUrb := some urb.id }, [.call (.stubComplete urb), .call .completed])
  | .stubComplete urb => some (x, [.call (.usbipFilterOnTx urb)])
  | .completed => some ({ x with servingUrb := none }, [])
  | .fault => none

/-- What other contexts may change: everything, or what `filter->lock` does not protect. -/
def Shared.meddle (depth : Lock → ℤ) (x y : Shared) : Shared :=
  if depth .lock ≤ 0 then y
  else
    { y with
      filter := { x.filter with frameBuffer := y.filter.frameBuffer }
      vendorExtensionId := x.vendorExtensionId
      size := x.size
      copied := x.copied }

/-- A chain of calls of the filter. -/
abbrev FilterChain := CallChain Shared Lock Call

/-- The program of the filter. -/
def filterProgram (cfg : Config) : CallChain.Program Shared Lock Call Choice :=
  ⟨Call.body cfg, Shared.meddle⟩

/-- The chains that begin with the call of a function, from any state of the filter. -/
def filterChain (cfg : Config) (x : Shared) (entry : Call) :
    Machine FilterChain (CallChain.Act Shared Choice) :=
  CallChain.machine (filterProgram cfg) x [.call entry]

end Usbip.Ptp
