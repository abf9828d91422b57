import Usbip.Ptp.Parser
import Usbip.Ptp.System

/-!
# The PTP filter without live view

A client and a camera with the stub between them, with the filter attached or without it
(`relay`). The client and the camera take the same steps in both systems: a label says which URB
the client submits, and which one the camera completes with which data. A `Party` is what one of
the two has seen of the two bulk pipes; the camera puts the identifier of the last command that
it received into its containers, so it answers to the identifiers that reach it.

As long as the client does not start the live view, the URBs at the camera and at the client are
the same with the filter as without it, up to the identifiers in what the camera receives
(`relay_transparent`). One condition is not the client's business: after a command
`ptp_on_rx` takes an empty URB for another one, and reads its code from a buffer that is not
there (`empty_urb_after_command`).

Of `ptp_on_rx` and `ptp_on_tx` this module has what happens outside of the live view; where the
live view takes a URB the step is refused. No URB waits on `request_queue`, so the call of
`ptp_produce_` in `ptp_on_tx` does nothing. Locks are left out.
-/

namespace Usbip.Ptp

/-- `PTP_VENDOR_CANON` -/
def ptpVendorCanon : ℕ := 0xb

/-- `PTP_OC_CANON_EOS_GetViewFinderData` -/
def ocCanonEosGetViewFinderData : ℕ := 0x9153

/-! ### The filter -/

/-- The fields of `struct ptp_filter` that are used outside of the live view. -/
structure PtpFilter where
  session : Session
  tx : StateMachine
  rx : StateMachine
  /-- `info.VendorExtensionID` -/
  vendorExtensionId : ℕ
  frameServing : Bool
  deriving DecidableEq

namespace PtpFilter

/-- `ptp_probe` of a known model. -/
def probed : PtpFilter := ⟨⟨.idle, 0, 0⟩, .fresh, .fresh, ptpVendorCanon, false⟩

/-- `ptp_change_state` -/
def changeState (f : PtpFilter) (state : FilterState) : PtpFilter :=
  { f with session := { f.session with state := state } }

/-- `ptp_check_preview`; `none` when the buffer has no code. -/
def checkPreview (f : PtpFilter) (buffer : List Byte) : Option Bool :=
  if f.vendorExtensionId = ptpVendorCanon then
    if buffer.length < 8 then none
    else some (decide (containerCode buffer = ocCanonEosGetViewFinderData))
  else some false

end PtpFilter

/-- What a filter does with a URB of the client. -/
inductive OnRx
  /-- the URB is submitted, with this buffer -/
  | pass (f : Option PtpFilter) (buffer : List Byte)
  /-- the live view takes the URB -/
  | taken
  /-- the filter reads outside of the buffer -/
  | fault

namespace PtpFilter

/-- The end of `ptp_on_rx`, for a command. -/
def onCommand (f : PtpFilter) (buffer : List Byte) : OnRx :=
  match f.checkPreview buffer with
  | none => .fault
  | some true =>
    if f.session.state = .idle ∨ f.session.state = .sleep ∨
        (f.session.state.Filtering ∧ f.frameServing = false) then .taken
    else .pass (some (f.changeState .bypassed)) buffer
  | some false =>
    match f.session.state with
    | .active => .pass (some (f.changeState .wait)) buffer
    | .sleep => .pass (some (f.changeState .sleepWait)) buffer
    | .idle => .pass (some (f.changeState .command)) buffer
    | .drop => .taken
    | .busy => .taken
    | _ => .pass (some (f.changeState .bypassed)) buffer

/-- `ptp_on_rx` for the bulk OUT pipe. -/
def onRxOut (f : PtpFilter) (buffer : List Byte) : OnRx :=
  if f.session.state = .bypassed then .pass (some f) buffer
  else
    match parse .rx false f.rx f.session buffer with
    | none => .fault
    | some p =>
      let f' := { f with rx := p.machine, session := p.session }
      if p.machine.state ≠ .waitResponse ∨ p.machine.ptpdu.type ≠ containerCommand then
        .pass (some f') p.data
      else f'.onCommand p.data

/-- `ptp_on_rx` for the bulk IN pipe. -/
def onRxIn (f : PtpFilter) : OnRx :=
  if f.session.state = .bypassed then .pass (some f) []
  else if f.frameServing ∨ f.session.state.Filtering then .taken
  else .pass (some f) []

/-- `ptp_on_tx`: the filter and the buffer after it; `none` when it reads outside of the
buffer. -/
def onTx (f : PtpFilter) (pipeOut ok : Bool) (buffer : List Byte) :
    Option (PtpFilter × List Byte) :=
  if f.session.state = .bypassed then some (f, buffer)
  else if ok = false then some (f.changeState .bypassed, buffer)
  else
    match parse .tx false f.tx f.session buffer with
    | none => none
    | some p =>
      let f' := { f with tx := p.machine, session := p.session }
      if pipeOut ∨ p.session.state = .init ∨ p.done = false then some (f', p.data)
      else some (f'.changeState p.session.state.afterResponse, p.data)

end PtpFilter

/-- `usbip_filter_on_rx` for the bulk OUT pipe. -/
def usbipFilterOnRxOut (filter : Option PtpFilter) (buffer : List Byte) : OnRx :=
  match filter with
  | none => .pass none buffer
  | some f => f.onRxOut buffer

/-- `usbip_filter_on_rx` for the bulk IN pipe. -/
def usbipFilterOnRxIn (filter : Option PtpFilter) : OnRx :=
  match filter with
  | none => .pass none []
  | some f => f.onRxIn

/-- `usbip_filter_on_tx` -/
def usbipFilterOnTx (filter : Option PtpFilter) (pipeOut ok : Bool) (buffer : List Byte) :
    Option (Option PtpFilter × List Byte) :=
  match filter with
  | none => some (none, buffer)
  | some f => (f.onTx pipeOut ok buffer).map fun r => (some r.1, r.2)

/-! ### The client and the camera -/

/-- What one end has seen of the pipes: the containers on both, how many commands and how many
whole responses there were, and the identifier of the last command. -/
structure Party where
  out : Progress
  inn : Progress
  commands : ℕ
  responses : ℕ
  transId : BitVec 32

/-- The identifier of the command that begins with the piece. -/
def Piece.command : Piece → Option (BitVec 32)
  | .more _ => none
  | .start h _ => if h.type = containerCommand then some h.transId else none

namespace Party

/-- Nothing yet. -/
def fresh : Party := ⟨.fresh, .fresh, 0, 0, 0⟩

/-- A piece on the bulk OUT pipe. -/
def takeOut (p : Party) (piece : Piece) : Party :=
  { p with
    out := p.out.step piece
    commands := if piece.command.isSome then p.commands + 1 else p.commands
    transId := piece.command.getD p.transId }

/-- A piece on the bulk IN pipe. -/
def takeIn (p : Party) (piece : Piece) : Party :=
  { p with
    inn := p.inn.step piece
    responses := if (p.inn.step piece).EndsResponse then p.responses + 1 else p.responses }

/-- A transfer on the bulk OUT pipe. -/
def seesOut (p : Party) (data : List Byte) : Party := ((p.out.cut data).getD []).foldl takeOut p

/-- A transfer on the bulk IN pipe. -/
def seesIn (p : Party) (data : List Byte) : Party := ((p.inn.cut data).getD []).foldl takeIn p

end Party

/-- What passes between the stub and the camera, and between the stub and the client. -/
inductive Event
  /-- `usb_submit_urb`, on the bulk OUT pipe -/
  | submitOut (seqnum : ℕ) (buffer : List Byte)
  /-- `usb_submit_urb`, on the bulk IN pipe -/
  | submitIn (seqnum length : ℕ)
  /-- the URB goes back to the client -/
  | retOut (seqnum : ℕ) (ok : Bool)
  /-- the URB goes back to the client, whose current command has this identifier -/
  | retIn (seqnum : ℕ) (ok : Bool) (current : BitVec 32) (data : List Byte)
  deriving DecidableEq

/-- A client and a camera, and the stub with its filter; URBs complete in the order in which
they were submitted to their pipe. -/
structure Relay where
  filter : Option PtpFilter
  client : Party
  camera : Party
  outFlight : List (ℕ × List Byte)
  inFlight : List (ℕ × ℕ)
  trace : List Event
  faulted : Bool

namespace Relay

inductive Act
  /-- `stub_recv_cmd_submit` on the bulk OUT pipe -/
  | submitOut (seqnum : ℕ) (buffer : List Byte)
  /-- `stub_recv_cmd_submit` on the bulk IN pipe -/
  | submitIn (seqnum length : ℕ)
  /-- the camera has taken the data of a URB, and `stub_complete` runs -/
  | completeOut (ok : Bool)
  /-- the camera has sent the data, with the identifier that it knows, and `stub_complete` runs -/
  | completeIn (ok : Bool) (data : List Byte)

/-- A call into the filter reads outside of a buffer. -/
def fault (s : Relay) : Relay := { s with faulted := true }

/-- `transfer_buffer_length` is an `int`. -/
def submitOut (s : Relay) (seqnum : ℕ) (buffer : List Byte) : Option Relay :=
  if buffer.length < 2 ^ 31 then
    let s' := { s with client := s.client.seesOut buffer }
    match usbipFilterOnRxOut s.filter buffer with
    | .pass filter buffer' =>
      some { s' with
        filter := filter
        outFlight := s.outFlight ++ [(seqnum, buffer')]
        trace := s.trace ++ [.submitOut seqnum buffer'] }
    | .taken => none
    | .fault => some s'.fault
  else none

def submitIn (s : Relay) (seqnum length : ℕ) : Option Relay :=
  if length < 2 ^ 31 then
    match usbipFilterOnRxIn s.filter with
    | .pass filter _ =>
      some { s with
        filter := filter
        inFlight := s.inFlight ++ [(seqnum, length)]
        trace := s.trace ++ [.submitIn seqnum length] }
    | .taken => none
    | .fault => some s.fault
  else none

def completeOut (s : Relay) (ok : Bool) : Option Relay :=
  match s.outFlight with
  | [] => none
  | (seqnum, buffer) :: rest =>
    let s' := { s with outFlight := rest, camera := s.camera.seesOut buffer }
    match usbipFilterOnTx s.filter true ok buffer with
    | none => some s'.fault
    | some (filter, _) =>
      some { s' with filter := filter, trace := s.trace ++ [.retOut seqnum ok] }

def completeIn (s : Relay) (ok : Bool) (data : List Byte) : Option Relay :=
  match s.inFlight with
  | [] => none
  | (seqnum, length) :: rest =>
    if data.length ≤ length then
      let sent := s.camera.inn.retag s.camera.transId data
      let s' := { s with inFlight := rest, camera := s.camera.seesIn sent }
      match usbipFilterOnTx s.filter false ok sent with
      | none => some s'.fault
      | some (filter, data') =>
        some { s' with
          filter := filter
          client := s.client.seesIn data'
          trace := s.trace ++ [.retIn seqnum ok s.client.transId data'] }
    else none

def step (s : Relay) (a : Act) : Option Relay :=
  if s.faulted then none
  else
    match a with
    | .submitOut seqnum buffer => s.submitOut seqnum buffer
    | .submitIn seqnum length => s.submitIn seqnum length
    | .completeOut ok => s.completeOut ok
    | .completeIn ok data => s.completeIn ok data

end Relay

/-- The runs of a client and a camera, with a filter or without one. -/
def relay (filter : Option PtpFilter) : Machine Relay Relay.Act where
  init := ⟨filter, .fresh, .fresh, [], [], [], false⟩
  step := Relay.step

/-! ### The runs without live view -/

/-- The client starts a command after the response to the one before, and all in one URB; its
other containers carry the identifier of the command. -/
def Party.Sends : Party → List Piece → Prop
  | _, [] => True
  | p, .more body :: ps => (p.takeOut (.more body)).Sends ps
  | p, .start h body :: ps =>
    phaseOf h.type ≠ none ∧
    (h.type = containerCommand →
      p.commands = p.responses ∧ bulkHeaderSize + body.length = h.length) ∧
    (h.type ≠ containerCommand → h.transId = p.transId) ∧ (p.takeOut (.start h body)).Sends ps

/-- The camera sends containers while it answers a command. -/
def Party.Answers : Party → List Piece → Prop
  | _, [] => True
  | p, piece :: ps => piece.Known ∧ p.commands ≠ p.responses ∧ (p.takeIn piece).Answers ps

/-- The last container that the client has begun is a command, and it is complete. -/
def Party.HasCommand (p : Party) : Prop := ¬ p.out.Inside ∧ p.out.type = containerCommand

instance (p : Party) : Decidable p.HasCommand := by
  unfold Party.HasCommand
  infer_instance

instance Party.decidableSends : (p : Party) → (ps : List Piece) → Decidable (p.Sends ps)
  | _, [] => isTrue trivial
  | p, .more body :: ps => decidableSends (p.takeOut (.more body)) ps
  | p, .start h body :: ps =>
    have := decidableSends (p.takeOut (.start h body)) ps
    inferInstanceAs (Decidable (_ ∧ _ ∧ _ ∧ _))

instance Party.decidableAnswers : (p : Party) → (ps : List Piece) → Decidable (p.Answers ps)
  | _, [] => isTrue trivial
  | p, piece :: ps =>
    have := decidableAnswers (p.takeIn piece) ps
    inferInstanceAs (Decidable (_ ∧ _ ∧ _))

namespace Relay

/-- The steps of a client and a camera that do without live view; all URBs succeed. -/
def Ordinary (s : Relay) : Act → Prop
  | .submitOut _ buffer => ∃ ps ∈ s.client.out.cut buffer, s.client.Sends ps
  | .submitIn _ _ => True
  | .completeOut ok =>
    ok = true ∧ ∀ urb ∈ s.outFlight.head?, urb.2 = [] ∨ ¬ s.camera.inn.Inside
  | .completeIn ok data =>
    ok = true ∧ (data = [] ∨ ¬ s.camera.out.Inside) ∧
      ∃ ps ∈ s.camera.inn.cut data, s.camera.Answers ps

/-- What `ptp_on_rx` takes for a command has a code, and that is no preview command. -/
def NoPreview (s : Relay) : Act → Prop
  | .submitOut _ buffer => (s.client.seesOut buffer).HasCommand →
      8 ≤ buffer.length ∧ containerCode buffer ≠ ocCanonEosGetViewFinderData
  | _ => True

instance (s : Relay) (a : Act) : Decidable (s.Ordinary a) := by
  cases a <;> unfold Ordinary <;> infer_instance

instance (s : Relay) (a : Act) : Decidable (s.NoPreview a) := by
  cases a <;> unfold NoPreview <;> infer_instance

end Relay

/-- The trace with all identifiers in what the camera receives set to zero. -/
def hideIds : Progress → List Event → List Event
  | _, [] => []
  | pr, .submitOut seqnum buffer :: trace =>
    .submitOut seqnum (pr.retag 0 buffer) :: hideIds (pr.after buffer) trace
  | pr, e :: trace => e :: hideIds pr trace

/-- The bulk OUT pipe after what was submitted to it. -/
def outAfter : Progress → List Event → Progress
  | pr, [] => pr
  | pr, .submitOut _ buffer :: trace => outAfter (pr.after buffer) trace
  | pr, _ :: trace => outAfter pr trace

/-- Every container that goes back to the client has the identifier of its current command. -/
def CarriesIds : Progress → List Event → Prop
  | _, [] => True
  | pr, .retIn _ _ current data :: trace =>
    pr.retag current data = data ∧ CarriesIds (pr.after data) trace
  | pr, _ :: trace => CarriesIds pr trace

/-- The bulk IN pipe after what went back to the client. -/
def inAfter : Progress → List Event → Progress
  | pr, [] => pr
  | pr, .retIn _ _ _ data :: trace => inAfter (pr.after data) trace
  | pr, _ :: trace => inAfter pr trace

/-! ### The ends of the pipes -/

theorem Piece.Like.isSome_command {p q : Piece} (h : p.Like q) :
    q.command.isSome = p.command.isSome := by
  cases h with
  | more body => rfl
  | start h t body =>
    rw [Piece.command, Piece.command, Header.type_setTransId]
    by_cases hc : h.type = containerCommand
    · rw [if_pos hc, if_pos hc, Option.isSome_some, Option.isSome_some]
    · rw [if_neg hc, if_neg hc]

namespace Party

variable {p q : Party} {ps qs : List Piece}

theorem out_foldl (p : Party) (ps : List Piece) :
    (ps.foldl takeOut p).out = ps.foldl Progress.step p.out := by
  induction ps generalizing p with
  | nil => rfl
  | cons piece ps ih => rw [List.foldl_cons, List.foldl_cons, ih, takeOut]

theorem inn_foldl_takeOut (p : Party) (ps : List Piece) :
    (ps.foldl takeOut p).inn = p.inn ∧ (ps.foldl takeOut p).responses = p.responses := by
  induction ps generalizing p with
  | nil => exact ⟨rfl, rfl⟩
  | cons piece ps ih => exact ih (p.takeOut piece)

theorem inn_foldl (p : Party) (ps : List Piece) :
    (ps.foldl takeIn p).inn = ps.foldl Progress.step p.inn := by
  induction ps generalizing p with
  | nil => rfl
  | cons piece ps ih => rw [List.foldl_cons, List.foldl_cons, ih, takeIn]

theorem out_foldl_takeIn (p : Party) (ps : List Piece) :
    (ps.foldl takeIn p).out = p.out ∧ (ps.foldl takeIn p).commands = p.commands ∧
      (ps.foldl takeIn p).transId = p.transId := by
  induction ps generalizing p with
  | nil => exact ⟨rfl, rfl, rfl⟩
  | cons piece ps ih => exact ih (p.takeIn piece)

theorem foldl_takeIn_like (h : Like ps qs) (p : Party) :
    qs.foldl takeIn p = ps.foldl takeIn p := by
  induction h generalizing p with
  | nil => rfl
  | cons hp _ ih =>
    rw [List.foldl_cons, List.foldl_cons, ih, takeIn, hp.step]
    rfl

/-- Responses are counted by what is on the bulk IN pipe. -/
theorem responses_foldl_congr (hinn : p.inn = q.inn) (hresp : p.responses = q.responses)
    (ps : List Piece) : (ps.foldl takeIn p).responses = (ps.foldl takeIn q).responses := by
  induction ps generalizing p q with
  | nil => exact hresp
  | cons piece ps ih =>
    refine ih (congrArg (Progress.step · piece) hinn) ?_
    rw [takeIn, takeIn, hinn, hresp]

theorem le_responses_foldl (p : Party) (ps : List Piece) :
    p.responses ≤ (ps.foldl takeIn p).responses := by
  induction ps generalizing p with
  | nil => exact le_rfl
  | cons piece ps ih =>
    refine le_trans ?_ (ih (p.takeIn piece))
    change p.responses ≤ if (p.inn.step piece).EndsResponse then p.responses + 1 else p.responses
    split <;> omega

theorem seesOut_of_cuts (h : Cuts p.out ps) : p.seesOut (bytesOf ps) = ps.foldl takeOut p := by
  rw [seesOut, cut_eq_some.mpr ⟨h, rfl⟩, Option.getD_some]

theorem seesIn_of_cuts (h : Cuts p.inn ps) : p.seesIn (bytesOf ps) = ps.foldl takeIn p := by
  rw [seesIn, cut_eq_some.mpr ⟨h, rfl⟩, Option.getD_some]

/-- Commands are counted, and only they change the identifier. -/
theorem commands_foldl (p : Party) (ps : List Piece) :
    p.commands ≤ (ps.foldl takeOut p).commands ∧
      ((ps.foldl takeOut p).commands = p.commands →
        (ps.foldl takeOut p).transId = p.transId) := by
  induction ps generalizing p with
  | nil => exact ⟨le_rfl, fun _ => rfl⟩
  | cons piece ps ih =>
    obtain ⟨hle, heq⟩ := ih (p.takeOut piece)
    rw [List.foldl_cons]
    cases hcmd : piece.command with
    | none =>
      have hcommands : (p.takeOut piece).commands = p.commands := by simp [takeOut, hcmd]
      have htransId : (p.takeOut piece).transId = p.transId := by simp [takeOut, hcmd]
      rw [hcommands] at hle heq
      rw [htransId] at heq
      exact ⟨hle, heq⟩
    | some t =>
      have hsucc : (p.takeOut piece).commands = p.commands + 1 := by simp [takeOut, hcmd]
      exact ⟨by omega, fun h => by omega⟩

/-- The two parties have seen the same on the bulk OUT pipe. -/
structure SameOut (p q : Party) : Prop where
  out : q.out = p.out
  commands : q.commands = p.commands
  transId : q.transId = p.transId

theorem SameOut.foldl (h : p.SameOut q) (ps : List Piece) :
    (ps.foldl takeOut p).SameOut (ps.foldl takeOut q) := by
  induction ps generalizing p q with
  | nil => exact h
  | cons piece ps ih =>
    refine ih ?_
    unfold takeOut
    rw [h.out, h.commands, h.transId]
    exact ⟨rfl, rfl, rfl⟩

/-- The two parties have seen the same, up to identifiers. -/
structure Twin (p q : Party) : Prop where
  out : q.out = p.out
  inn : q.inn = p.inn
  commands : q.commands = p.commands
  responses : q.responses = p.responses

theorem Twin.foldl_takeOut (h : p.Twin q) (hlike : Like ps qs) :
    (ps.foldl takeOut p).Twin (qs.foldl takeOut q) := by
  induction hlike generalizing p q with
  | nil => exact h
  | cons hp _ ih =>
    refine ih ?_
    unfold takeOut
    rw [h.out, h.commands, hp.step p.out, hp.isSome_command]
    exact ⟨rfl, h.inn, rfl, h.responses⟩

theorem Twin.foldl_takeIn (h : p.Twin q) (hlike : Like ps qs) :
    (ps.foldl takeIn p).Twin (qs.foldl takeIn q) := by
  induction hlike generalizing p q with
  | nil => exact h
  | cons hp _ ih =>
    refine ih ?_
    unfold takeIn
    rw [h.inn, hp.step p.inn, h.responses]
    exact ⟨h.out, rfl, h.commands, rfl⟩

/-! ### What the client and the camera do in an ordinary run -/

theorem Sends.known (h : p.Sends ps) : ∀ piece ∈ ps, piece.Known := by
  induction ps generalizing p with
  | nil => simp
  | cons piece ps ih =>
    intro x hx
    cases piece with
    | more body =>
      rcases List.mem_cons.mp hx with rfl | hx
      · trivial
      · exact ih h x hx
    | start hd body =>
      rcases List.mem_cons.mp hx with rfl | hx
      · exact h.1
      · exact ih h.2.2.2 x hx

theorem Answers.known (h : p.Answers ps) : ∀ piece ∈ ps, piece.Known := by
  induction ps generalizing p with
  | nil => simp
  | cons piece ps ih =>
    intro x hx
    rcases List.mem_cons.mp hx with rfl | hx
    · exact h.1
    · exact ih h.2.2 x hx

/-- The next pieces of a party that sends as it should. -/
theorem Sends.tail {piece : Piece} (h : p.Sends (piece :: ps)) : (p.takeOut piece).Sends ps := by
  cases piece with
  | more body => exact h
  | start hd body => exact h.2.2.2

/-- A command only begins when there is no other one. -/
theorem Sends.eq_of_command {piece : Piece} (h : p.Sends (piece :: ps))
    (hc : piece.command.isSome = true) : p.commands = p.responses := by
  cases piece with
  | more body => cases hc
  | start hd body =>
    refine (h.2.1 ?_).1
    by_contra hne
    rw [Piece.command, if_neg hne] at hc
    cases hc

/-- The client has at most one command under way. -/
theorem Sends.commands_le (h : p.Sends ps) (hle : p.commands ≤ p.responses + 1) :
    (ps.foldl takeOut p).commands ≤ p.responses + 1 := by
  induction ps generalizing p with
  | nil => exact hle
  | cons piece ps ih =>
    refine ih h.tail ?_
    change (if piece.command.isSome then p.commands + 1 else p.commands) ≤ p.responses + 1
    split
    next hc => exact Nat.add_le_add_right (h.eq_of_command hc).le 1
    next => exact hle

/-- The client is not inside a command. -/
def Whole (p : Party) : Prop := p.out.Inside → p.out.type ≠ containerCommand

theorem Sends.whole (h : p.Sends ps) (hw : p.Whole) : (ps.foldl takeOut p).Whole := by
  induction ps generalizing p with
  | nil => exact hw
  | cons piece ps ih =>
    refine ih h.tail ?_
    intro hin hcmd
    cases piece with
    | more body =>
      have hin : p.out.size + body.length < p.out.total := hin
      exact hw (by omega) hcmd
    | start hd body =>
      have hin : bulkHeaderSize + body.length < hd.length := hin
      have hwhole := (h.2.1 hcmd).2
      omega

/-- When the last container of a transfer is a complete command, there was none under way
before it, and there is one after it. -/
theorem Sends.idle (h : p.Sends ps) (hw : p.Whole) (hcuts : Cuts p.out ps) (hne : ps ≠ [])
    (hcmd : (ps.foldl takeOut p).HasCommand) :
    p.commands = p.responses ∧ (ps.foldl takeOut p).commands = p.responses + 1 := by
  induction ps generalizing p with
  | nil => exact absurd rfl hne
  | cons piece ps ih =>
    by_cases hlast : ps = []
    · -- the only piece is all of the command
      rw [hlast] at hcmd ⊢
      cases piece with
      | more body =>
        cases hcuts with
        | more inside => exact absurd hcmd.2 (hw inside)
      | start hd body =>
        have hc : hd.type = containerCommand := hcmd.2
        have heq := (h.2.1 hc).1
        have hsome : (Piece.command (.start hd body)).isSome = true := by
          rw [Piece.command, if_pos hc, Option.isSome_some]
        exact ⟨heq, (if_pos hsome).trans (congrArg (· + 1) heq)⟩
    · have hnext : Cuts (p.takeOut piece).out ps := by
        cases hcuts with
        | more _ _ _ _ _ next => exact next
        | start _ _ _ next => exact next
      have hone : p.Sends [piece] := by
        cases piece with
        | more body => trivial
        | start hd body => exact ⟨h.1, h.2.1, h.2.2.1, trivial⟩
      obtain ⟨heq, hsucc⟩ := ih h.tail (hone.whole hw) hnext hlast hcmd
      refine ⟨?_, hsucc⟩
      by_cases hc : piece.command.isSome = true
      · exact h.eq_of_command hc
      · have hsame : (p.takeOut piece).commands = p.commands := if_neg hc
        rw [← hsame, heq]
        rfl

/-- The camera has no more responses than commands. -/
theorem Answers.responses_le (h : p.Answers ps) (hle : p.responses ≤ p.commands) :
    (ps.foldl takeIn p).responses ≤ p.commands := by
  induction ps generalizing p with
  | nil => exact hle
  | cons piece ps ih =>
    refine ih h.2.2 ?_
    have hne := h.2.1
    change (if (p.inn.step piece).EndsResponse then p.responses + 1 else p.responses) ≤ p.commands
    split <;> omega

end Party

/-! ### What the parsers do -/

section Walk

variable {serving : Bool} {s : Session} {pr : Progress} {ps : List Piece}

/-- `rx` changes nothing but identifiers. -/
theorem like_walk_rx : Like ps (walk .rx serving s pr ps).2.1 := by
  induction ps generalizing s pr with
  | nil => exact .nil
  | cons piece ps ih =>
    refine .cons ?_ ih
    cases piece with
    | more body => exact .more body
    | start h body => exact .start h _ body

theorem state_closePiece (which : Parser) :
    (s.closePiece which serving pr).state = s.state ∧
      (s.closePiece which serving pr).rxTransId = s.rxTransId := by
  unfold Session.closePiece Session.endResponse
  split_ifs <;> exact ⟨rfl, rfl⟩

theorem checkNewSession_cases (which : Parser) (ptpdu : BulkHeader) :
    ((s.checkNewSession which ptpdu).state = .idle ∨
      (s.checkNewSession which ptpdu).state = s.state) := by
  unfold Session.checkNewSession
  split
  · exact Or.inl rfl
  · exact Or.inr rfl

/-- `rx` leaves the state as it is, or a session begins or ends. -/
theorem state_walk_rx :
    (walk .rx serving s pr ps).1.state = .idle ∨ (walk .rx serving s pr ps).1.state = s.state := by
  induction ps generalizing s pr with
  | nil => exact Or.inr rfl
  | cons piece ps ih =>
    have hopen : (s.openPiece .rx piece).1.state = .idle ∨
        (s.openPiece .rx piece).1.state = s.state := by
      cases piece with
      | more body => exact Or.inr rfl
      | start h body => exact checkNewSession_cases .rx _
    rcases ih (s := (s.openPiece .rx piece).1.closePiece .rx serving (pr.step piece)) with hi | hi
    · exact Or.inl hi
    · rw [(state_closePiece .rx).1] at hi
      exact hopen.imp hi.trans hi.trans

/-- `rx` saves the identifier of the client's command. -/
theorem rxTransId_walk_rx {p : Party} (hsend : p.Sends ps) (hid : s.rxTransId = p.transId) :
    (walk .rx serving s pr ps).1.rxTransId = (ps.foldl Party.takeOut p).transId := by
  induction ps generalizing s pr p with
  | nil => exact hid
  | cons piece ps ih =>
    refine ih hsend.tail ?_
    rw [(state_closePiece .rx).2]
    cases piece with
    | more body => exact hid
    | start h body =>
      change h.transId = (Piece.command (.start h body)).getD p.transId
      by_cases hc : h.type = containerCommand
      · rw [Piece.command, if_pos hc, Option.getD_some]
      · rw [Piece.command, if_neg hc, Option.getD_none, hsend.2.2.1 hc]

/-- `tx` writes the saved identifier into every header. -/
theorem walk_tx :
    (walk .tx serving s pr ps).2.1 = ps.map (Piece.retag s.rxTransId) ∧
      (walk .tx serving s pr ps).1.state = s.state ∧
      (walk .tx serving s pr ps).1.rxTransId = s.rxTransId := by
  induction ps generalizing s pr with
  | nil => exact ⟨rfl, rfl, rfl⟩
  | cons piece ps ih =>
    have hopen : (s.openPiece .tx piece).1 = s ∧
        (s.openPiece .tx piece).2 = piece.retag s.rxTransId := by
      cases piece <;> exact ⟨rfl, rfl⟩
    have hclose : (s.closePiece .tx serving (pr.step piece)).state = s.state ∧
        (s.closePiece .tx serving (pr.step piece)).rxTransId = s.rxTransId := state_closePiece .tx
    rw [walk]
    dsimp only
    rw [hopen.1, hopen.2, ih.1, ih.2.1, ih.2.2, hclose.1, hclose.2]
    exact ⟨rfl, rfl, rfl⟩

/-- `tx` reports the end of a response. -/
theorem done_walk_tx {p : Party} (h : (walk .tx serving s p.inn ps).2.2 = false) :
    (ps.foldl Party.takeIn p).responses = p.responses := by
  induction ps generalizing s p with
  | nil => rfl
  | cons piece ps ih =>
    rw [walk] at h
    dsimp only at h
    rw [Bool.or_eq_false_iff] at h
    have hresp : (p.takeIn piece).responses = p.responses := if_neg (of_decide_eq_false h.1)
    rw [List.foldl_cons, ih h.2, hresp]

end Walk

/-! ### The filter in an ordinary run -/

namespace PtpFilter

/-- The filter is where the pipes are, has the identifier of the client's command, and is idle
when there is none. -/
structure Follows (φ : PtpFilter) (client camera : Party) : Prop where
  serving : φ.frameServing = false
  rx : φ.rx.At client.out
  knows : φ.rx.Knows client.out
  tx : φ.tx.At (if camera.inn.Inside then camera.inn else camera.out)
  rxTransId : φ.session.rxTransId = client.transId
  state : φ.session.state = .idle ∨ φ.session.state = .command
  idle : client.commands = client.responses → φ.session.state = .idle

variable {φ : PtpFilter} {client camera : Party} {ps qs : List Piece}

theorem Follows.not_bypassed (h : φ.Follows client camera) : φ.session.state ≠ .bypassed := by
  rcases h.state with hs | hs <;> rw [hs] <;> decide

/-- What the filter takes for a command is one. -/
theorem hasCommand_iff {m : StateMachine} {pr : Progress} (hat : m.At pr) (hknows : m.Knows pr) :
    (m.state = .waitResponse ∧ m.ptpdu.type = containerCommand) ↔
      ¬ pr.Inside ∧ pr.type = containerCommand := by
  constructor
  · rintro ⟨hstate, htype⟩
    refine ⟨fun hin => ?_, hknows.type.symm.trans htype⟩
    exact phaseOf_ne (hat.inside hin).1 (Or.inl hstate)
  · rintro ⟨hout, htype⟩
    exact ⟨hknows.command hout htype, hknows.type.trans htype⟩

/-- **A URB of the client** is passed on with other identifiers at most. -/
theorem Follows.onRxOut (h : φ.Follows client camera) (hle : client.responses ≤ client.commands)
    (hsend : client.Sends ps) (hcuts : Cuts client.out ps) (hw : client.Whole)
    (hlt : (bytesOf ps).length < 2 ^ 32)
    (hcode : (ps.foldl Party.takeOut client).HasCommand →
      8 ≤ (bytesOf ps).length ∧ containerCode (bytesOf ps) ≠ ocCanonEosGetViewFinderData) :
    ∃ φ' qs, φ.onRxOut (bytesOf ps) = .pass (some φ') (bytesOf qs) ∧ Like ps qs ∧
      φ'.Follows (ps.foldl Party.takeOut client) camera := by
  obtain ⟨m, hparse, hat, hknows⟩ := parse_of_cuts .rx false hcuts hsend.known hlt φ.session h.rx
  have hlike : Like ps (walk .rx false φ.session client.out ps).2.1 := like_walk_rx
  have hrxid : (walk .rx false φ.session client.out ps).1.rxTransId = _ :=
    rxTransId_walk_rx hsend h.rxTransId
  have hstate : (walk .rx false φ.session client.out ps).1.state = .idle ∨
      (walk .rx false φ.session client.out ps).1.state = φ.session.state := state_walk_rx
  rw [← Party.out_foldl] at hat hknows
  set final := ps.foldl Party.takeOut client with hfinal
  set walked := walk .rx false φ.session client.out ps with hwalked
  have hresp : final.responses = client.responses := (Party.inn_foldl_takeOut client ps).2
  rw [PtpFilter.onRxOut, if_neg h.not_bypassed, hparse]
  dsimp only
  by_cases hcmd : final.HasCommand
  · -- a command: the filter was idle, and now waits for the response
    obtain ⟨h8, hne⟩ := hcode hcmd
    have hps : ps ≠ [] := by
      rintro rfl
      simp at h8
    obtain ⟨heq, hsucc⟩ := hsend.idle hw hcuts hps hcmd
    rw [← hfinal] at hsucc
    have hidle : walked.1.state = .idle := by
      rcases hstate with hs | hs
      · exact hs
      · exact hs.trans (h.idle heq)
    have hboth := (hasCommand_iff hat (hknows h.knows)).mpr hcmd
    set φ' : PtpFilter := { φ with rx := m, session := walked.1 } with hφ'
    have hcheck : φ'.checkPreview (bytesOf walked.2.1) = some false := by
      rw [checkPreview, hlike.length_bytesOf, hlike.containerCode_bytesOf h8]
      split
      · rw [if_neg (by omega), decide_eq_false hne]
      · rfl
    rw [if_neg (by simp [hboth])]
    refine ⟨φ'.changeState .command, walked.2.1, ?_, hlike, ?_⟩
    · rw [onCommand, hcheck]
      have hidle' : φ'.session.state = .idle := hidle
      simp only [hidle']
    · exact ⟨h.serving, hat, hknows h.knows, h.tx, hrxid, Or.inr rfl, fun hf => by omega⟩
  · have hnot := mt (hasCommand_iff hat (hknows h.knows)).mp hcmd
    rw [if_pos (by rwa [not_and_or] at hnot)]
    refine ⟨_, walked.2.1, rfl, hlike, h.serving, hat, hknows h.knows, h.tx, hrxid, ?_, ?_⟩
    · rcases hstate with hs | hs
      · exact Or.inl hs
      · exact h.state.imp hs.trans hs.trans
    · intro hf
      have hmono : client.commands ≤ final.commands := (Party.commands_foldl client ps).1
      rcases hstate with hs | hs
      · exact hs
      · exact hs.trans (h.idle (by omega))

theorem Follows.onRxIn (h : φ.Follows client camera) : φ.onRxIn = .pass (some φ) [] := by
  have hnot : ¬ φ.session.state.Filtering := by
    rcases h.state with hs | hs <;> rw [hs] <;> decide
  rw [PtpFilter.onRxIn, if_neg h.not_bypassed, if_neg (by simp [h.serving, hnot])]

/-- **A URB that the camera has taken** moves the parser on. -/
theorem Follows.onTxOut (h : φ.Follows client camera) (hcuts : Cuts camera.out ps)
    (hknown : ∀ piece ∈ ps, piece.Known) (hturn : ps = [] ∨ ¬ camera.inn.Inside)
    (hlt : (bytesOf ps).length < 2 ^ 32) (hlike : Like ps qs) :
    ∃ φ' buffer, φ.onTx true true (bytesOf qs) = some (φ', buffer) ∧
      φ'.Follows client (ps.foldl Party.takeOut camera) := by
  set pr := if camera.inn.Inside then camera.inn else camera.out with hpr
  have hcuts' : Cuts pr qs := by
    rcases hturn with rfl | hout
    · cases hlike
      exact .nil pr
    · rw [hpr, if_neg hout]
      exact hlike.cuts hcuts
  obtain ⟨m, hparse, hat, -⟩ := parse_of_cuts .tx false hcuts' (hlike.known hknown)
    (hlike.length_bytesOf.trans_lt hlt) φ.session h.tx
  rw [hlike.foldl_step] at hat
  obtain ⟨-, hstate, hid⟩ : (walk .tx false φ.session pr qs).2.1 = _ ∧ _ := walk_tx
  have hinn := (Party.inn_foldl_takeOut camera ps).1
  rw [PtpFilter.onTx, if_neg h.not_bypassed, if_neg (by decide), hparse]
  refine ⟨_, _, rfl, h.serving, h.rx, h.knows, ?_, hid.trans h.rxTransId, ?_, fun heq => ?_⟩
  · rw [hinn, Party.out_foldl]
    change m.At _
    rcases hturn with rfl | hout
    · exact hat
    · rw [if_neg hout]
      rwa [hpr, if_neg hout] at hat
  · exact h.state.imp hstate.trans hstate.trans
  · exact hstate.trans (h.idle heq)

/-- **A URB with data of the camera** goes back with the identifier of the client's command. -/
theorem Follows.onTxIn (h : φ.Follows client camera) (hcuts : Cuts camera.inn ps)
    (hknown : ∀ piece ∈ ps, piece.Known) (hturn : ps = [] ∨ ¬ camera.out.Inside)
    (hinn : client.inn = camera.inn) (hlt : (bytesOf ps).length < 2 ^ 32) (hlike : Like ps qs) :
    ∃ φ', φ.onTx false true (bytesOf qs) =
        some (φ', bytesOf (ps.map (Piece.retag client.transId))) ∧
      φ'.Follows (ps.foldl Party.takeIn client) (ps.foldl Party.takeIn camera) := by
  obtain ⟨hout, hcommands, hid⟩ := Party.out_foldl_takeIn client ps
  obtain ⟨houtc, -, -⟩ := Party.out_foldl_takeIn camera ps
  rcases eq_or_ne ps [] with rfl | hne
  · -- no data: the parser does nothing
    cases hlike
    refine ⟨φ, ?_, h⟩
    have hparse : parse .tx false φ.tx φ.session (bytesOf []) = some ⟨φ.tx, φ.session, [], false⟩ :=
      rfl
    rw [PtpFilter.onTx, if_neg h.not_bypassed, if_neg (by decide), hparse]
    simp
  have hapart := hturn.resolve_left hne
  have htx : φ.tx.At camera.inn := by
    have htx := h.tx
    split at htx
    next => exact htx
    next hin => exact .closed hin (htx.between hapart)
  obtain ⟨m, hparse, hat, -⟩ := parse_of_cuts .tx false (hlike.cuts hcuts)
    (hlike.known hknown) (hlike.length_bytesOf.trans_lt hlt) φ.session htx
  rw [hlike.foldl_step] at hat
  obtain ⟨hps, hstate, htid⟩ : (walk .tx false φ.session camera.inn qs).2.1 = _ ∧ _ := walk_tx
  rw [h.rxTransId, hlike.map_retag] at hps
  rw [h.rxTransId] at htid
  have hat' : m.At (if (ps.foldl Party.takeIn camera).inn.Inside then
      (ps.foldl Party.takeIn camera).inn else (ps.foldl Party.takeIn camera).out) := by
    rw [Party.inn_foldl, houtc]
    split
    next => exact hat
    next hin => exact .closed hapart (hat.between hin)
  rw [PtpFilter.onTx, if_neg h.not_bypassed, if_neg (by decide), hparse, hps]
  dsimp only
  by_cases hdone : (walk .tx false φ.session camera.inn qs).2.2 = false
  · rw [if_pos (Or.inr (Or.inr hdone))]
    refine ⟨_, rfl, h.serving, hout ▸ h.rx, hout ▸ h.knows, hat', htid.trans hid.symm, ?_, ?_⟩
    · exact h.state.imp hstate.trans hstate.trans
    · intro heq
      rw [← hinn] at hdone
      rw [hcommands, ← Party.foldl_takeIn_like hlike, done_walk_tx hdone] at heq
      exact hstate.trans (h.idle heq)
  · -- the response is complete
    have hactive : (walk .tx false φ.session camera.inn qs).1.state ≠ .init := by
      rw [hstate]
      rcases h.state with hs | hs <;> rw [hs] <;> decide
    have hafter : (walk .tx false φ.session camera.inn qs).1.state.afterResponse = .idle := by
      rw [hstate]
      rcases h.state with hs | hs <;> rw [hs] <;> rfl
    rw [if_neg (by simp [hdone, hactive]), hafter]
    exact ⟨_, rfl, h.serving, hout ▸ h.rx, hout ▸ h.knows, hat', htid.trans hid.symm, Or.inl rfl,
      fun _ => rfl⟩

end PtpFilter

/-! ### Traces -/

section Trace

variable {pr : Progress} {trace trace' : List Event}

theorem outAfter_append : outAfter pr (trace ++ trace') = outAfter (outAfter pr trace) trace' := by
  induction trace generalizing pr with
  | nil => rfl
  | cons e trace ih => cases e <;> exact ih

theorem hideIds_append :
    hideIds pr (trace ++ trace') = hideIds pr trace ++ hideIds (outAfter pr trace) trace' := by
  induction trace generalizing pr with
  | nil => rfl
  | cons e trace ih => cases e <;> exact congrArg (_ :: ·) ih

theorem length_hideIds : (hideIds pr trace).length = trace.length := by
  induction trace generalizing pr with
  | nil => rfl
  | cons e trace ih => cases e <;> exact congrArg (· + 1) ih

theorem inAfter_append : inAfter pr (trace ++ trace') = inAfter (inAfter pr trace) trace' := by
  induction trace generalizing pr with
  | nil => rfl
  | cons e trace ih => cases e <;> exact ih

theorem carriesIds_append :
    CarriesIds pr (trace ++ trace') ↔
      CarriesIds pr trace ∧ CarriesIds (inAfter pr trace) trace' := by
  induction trace generalizing pr with
  | nil => exact ⟨fun h => ⟨trivial, h⟩, fun h => h.2⟩
  | cons e trace ih =>
    cases e with
    | retIn seqnum ok current data => exact (and_congr_right fun _ => ih).trans and_assoc.symm
    | submitOut seqnum buffer => exact ih
    | submitIn seqnum length => exact ih
    | retOut seqnum ok => exact ih

end Trace

/-! ### With and without the filter -/

/-- The URBs on the bulk OUT pipe in both systems, and what the camera will have seen after
them. -/
inductive Flight : Party → List (ℕ × List Byte) → List (ℕ × List Byte) → Party → Prop
  | nil (camera : Party) : Flight camera [] [] camera
  | cons {camera final : Party} {seqnum : ℕ} {ps qs : List Piece}
      {flight flight' : List (ℕ × List Byte)} (cuts : Cuts camera.out ps)
      (known : ∀ piece ∈ ps, piece.Known) (lt : (bytesOf ps).length < 2 ^ 32) (like : Like ps qs)
      (next : Flight (ps.foldl Party.takeOut camera) flight flight' final) :
      Flight camera ((seqnum, bytesOf ps) :: flight) ((seqnum, bytesOf qs) :: flight') final

namespace Flight

variable {camera camera' final : Party} {flight flight' : List (ℕ × List Byte)}

theorem snoc (h : Flight camera flight flight' final) {seqnum : ℕ} {ps qs : List Piece}
    (cuts : Cuts final.out ps) (known : ∀ piece ∈ ps, piece.Known)
    (lt : (bytesOf ps).length < 2 ^ 32) (like : Like ps qs) :
    Flight camera (flight ++ [(seqnum, bytesOf ps)]) (flight' ++ [(seqnum, bytesOf qs)])
      (ps.foldl Party.takeOut final) := by
  induction h with
  | nil camera => exact .cons cuts known lt like (.nil _)
  | cons cuts' known' lt' like' _ ih => exact .cons cuts' known' lt' like' (ih cuts)

/-- What is under way adds commands, and only commands change the identifier. -/
theorem commands_le (h : Flight camera flight flight' final) :
    camera.commands ≤ final.commands ∧
      (final.commands = camera.commands → final.transId = camera.transId) := by
  induction h with
  | nil camera => exact ⟨le_rfl, fun _ => rfl⟩
  | @cons camera final _ ps _ _ _ _ _ _ _ _ ih =>
    obtain ⟨hle, heq⟩ := Party.commands_foldl camera ps
    refine ⟨hle.trans ih.1, fun hf => ?_⟩
    rw [ih.2 (by omega), heq (by omega)]

/-- Only the bulk OUT pipe matters. -/
theorem congr (h : Flight camera flight flight' final) (hsame : camera.SameOut camera') :
    ∃ final', Flight camera' flight flight' final' ∧ final.SameOut final' := by
  induction h generalizing camera' with
  | nil camera => exact ⟨camera', .nil camera', hsame⟩
  | @cons camera final _ ps _ _ _ cuts known lt like _ ih =>
    obtain ⟨final', hnext, hfinal⟩ := ih (hsame.foldl ps)
    exact ⟨final', .cons (hsame.out.symm ▸ cuts) known lt like hnext, hfinal⟩

end Flight

/-- The system without the filter and the one with it, after the same steps. -/
structure Mirrors (p f : Relay) : Prop where
  plain : p.filter = none
  filter : ∃ φ, f.filter = some φ ∧ φ.Follows p.client p.camera
  client : f.client = p.client
  camera : p.camera.Twin f.camera
  inFlight : f.inFlight = p.inFlight
  inFlight_lt : ∀ urb ∈ p.inFlight, urb.2 < 2 ^ 31
  flight : ∃ final, Flight p.camera p.outFlight f.outFlight final ∧ final.SameOut p.client
  inn : p.client.inn = p.camera.inn
  responses : p.client.responses = p.camera.responses
  le : p.camera.responses ≤ p.camera.commands
  one : p.client.commands ≤ p.client.responses + 1
  whole : p.client.Whole
  unfaulted : p.faulted = false ∧ f.faulted = false
  hidden : hideIds .fresh f.trace = hideIds .fresh p.trace
  outs : outAfter .fresh p.trace = p.client.out ∧ outAfter .fresh f.trace = p.client.out
  carries : CarriesIds .fresh f.trace
  inns : inAfter .fresh f.trace = p.client.inn

namespace Mirrors

variable {p p' f : Relay}

theorem responses_le (h : Mirrors p f) : p.client.responses ≤ p.client.commands := by
  obtain ⟨final, hflight, hsame⟩ := h.flight
  rw [h.responses, hsame.commands]
  exact h.le.trans hflight.commands_le.1

theorem submitOut (h : Mirrors p f) {seqnum : ℕ} {buffer : List Byte}
    (hok : p.Ordinary (.submitOut seqnum buffer)) (hcode : p.NoPreview (.submitOut seqnum buffer))
    (hs : p.submitOut seqnum buffer = some p') :
    ∃ f', f.submitOut seqnum buffer = some f' ∧ Mirrors p' f' := by
  obtain ⟨ps, hps, hsend⟩ := hok
  obtain ⟨hcuts, rfl⟩ := cut_eq_some.mp hps
  obtain ⟨hlt, hs⟩ := Option.ite_none_right_eq_some.mp hs
  obtain ⟨φ, hφ, hfollows⟩ := h.filter
  obtain ⟨final, hflight, hsame⟩ := h.flight
  rw [Relay.NoPreview, Party.seesOut_of_cuts hcuts] at hcode
  obtain ⟨φ', qs, hrx, hlike, hfollows'⟩ :=
    hfollows.onRxOut h.responses_le hsend hcuts h.whole (hlt.trans (by decide)) hcode
  obtain ⟨hinn, hresp⟩ := Party.inn_foldl_takeOut p.client ps
  have hout := Party.out_foldl p.client ps
  have hsees := Party.seesOut_of_cuts hcuts
  rw [h.plain] at hs
  cases hs
  refine ⟨_, by rw [Relay.submitOut, if_pos hlt, hφ, usbipFilterOnRxOut, hrx], ?_⟩
  have hbuf : (bytesOf ps).length < 2 ^ 32 := hlt.trans (by decide)
  constructor
  case plain => rfl
  case filter => exact ⟨φ', rfl, hsees.symm ▸ hfollows'⟩
  case client => exact congrArg (Party.seesOut · (bytesOf ps)) h.client
  case camera => exact h.camera
  case inFlight => exact h.inFlight
  case inFlight_lt => exact h.inFlight_lt
  case flight =>
    refine ⟨_, hflight.snoc (hsame.out ▸ hcuts) hsend.known hbuf hlike, ?_⟩
    exact hsees.symm ▸ hsame.foldl ps
  case inn => exact (congrArg Party.inn hsees).trans (hinn.trans h.inn)
  case responses => exact (congrArg Party.responses hsees).trans (hresp.trans h.responses)
  case le => exact h.le
  case one =>
    have hone := hsend.commands_le h.one
    rw [← hresp] at hone
    exact hsees.symm ▸ hone
  case whole => exact hsees.symm ▸ hsend.whole h.whole
  case unfaulted => exact h.unfaulted
  case hidden =>
    rw [hideIds_append, hideIds_append, h.hidden, h.outs.1, h.outs.2]
    exact congrArg (fun b => _ ++ [Event.submitOut seqnum b]) (hlike.retag_eq hcuts 0)
  case outs =>
    have hps := Progress.after_of_cuts hcuts
    have hqs := Progress.after_of_cuts (hlike.cuts hcuts)
    rw [hlike.foldl_step] at hqs
    rw [outAfter_append, outAfter_append, h.outs.1, h.outs.2]
    exact ⟨hps.trans (hsees ▸ hout.symm), hqs.trans (hsees ▸ hout.symm)⟩
  case carries => exact carriesIds_append.mpr ⟨h.carries, trivial⟩
  case inns =>
    rw [inAfter_append, h.inns]
    exact ((congrArg Party.inn hsees).trans hinn).symm

theorem submitIn (h : Mirrors p f) {seqnum length : ℕ} (hs : p.submitIn seqnum length = some p') :
    ∃ f', f.submitIn seqnum length = some f' ∧ Mirrors p' f' := by
  obtain ⟨hlt, hs⟩ := Option.ite_none_right_eq_some.mp hs
  obtain ⟨φ, hφ, hfollows⟩ := h.filter
  rw [h.plain] at hs
  cases hs
  refine ⟨_, by rw [Relay.submitIn, if_pos hlt, hφ, usbipFilterOnRxIn, hfollows.onRxIn], ?_⟩
  constructor
  case plain => rfl
  case filter => exact ⟨φ, rfl, hfollows⟩
  case client => exact h.client
  case camera => exact h.camera
  case inFlight => exact congrArg (· ++ [(seqnum, length)]) h.inFlight
  case inFlight_lt =>
    intro urb hurb
    rcases List.mem_append.mp hurb with hurb | hurb
    · exact h.inFlight_lt urb hurb
    · rwa [List.mem_singleton.mp hurb]
  case flight => exact h.flight
  case inn => exact h.inn
  case responses => exact h.responses
  case le => exact h.le
  case one => exact h.one
  case whole => exact h.whole
  case unfaulted => exact h.unfaulted
  case hidden =>
    rw [hideIds_append, hideIds_append, h.hidden]
    rfl
  case outs =>
    rw [outAfter_append, outAfter_append]
    exact h.outs
  case carries => exact carriesIds_append.mpr ⟨h.carries, trivial⟩
  case inns =>
    rw [inAfter_append]
    exact h.inns

theorem completeOut (h : Mirrors p f) {ok : Bool} (hok : p.Ordinary (.completeOut ok))
    (hs : p.completeOut ok = some p') : ∃ f', f.completeOut ok = some f' ∧ Mirrors p' f' := by
  obtain ⟨rfl, hturn⟩ := hok
  obtain ⟨φ, hφ, hfollows⟩ := h.filter
  obtain ⟨final, hflight, hsame⟩ := h.flight
  rw [Relay.completeOut] at hs ⊢
  cases hp : p.outFlight with
  | nil =>
    rw [hp] at hs
    cases hs
  | cons urb flight =>
    rw [hp] at hs hturn hflight
    cases hflight' : f.outFlight with
    | nil =>
      rw [hflight'] at hflight
      cases hflight
    | cons urb' flight' =>
      rw [hflight'] at hflight
      cases hflight with
      | @cons _ _ seqnum ps qs _ _ cuts known lt like next =>
        have hturn' : ps = [] ∨ ¬ p.camera.inn.Inside := by
          refine (hturn _ rfl).imp_left fun hnil => ?_
          have hnil : bytesOf ps = [] := hnil
          have hlen := cuts.length_le
          rw [hnil] at hlen
          exact List.length_eq_zero_iff.mp (Nat.le_zero.mp hlen)
        obtain ⟨φ', buffer, htx, hfollows'⟩ := hfollows.onTxOut cuts known hturn' lt like
        have hsees := Party.seesOut_of_cuts cuts
        obtain ⟨hinn, hresp⟩ := Party.inn_foldl_takeOut p.camera ps
        have hcuts' : Cuts f.camera.out qs := h.camera.out.symm ▸ like.cuts cuts
        have hsees' := Party.seesOut_of_cuts hcuts'
        rw [h.plain] at hs
        cases hs
        have htx' : usbipFilterOnTx f.filter true true (bytesOf qs) = some (some φ', buffer) := by
          rw [hφ]
          exact congrArg (Option.map _) htx
        dsimp only
        rw [htx']
        refine ⟨_, rfl, ?_⟩
        constructor
        case plain => rfl
        case filter => exact ⟨φ', rfl, hsees.symm ▸ hfollows'⟩
        case client => exact h.client
        case camera => exact hsees.symm ▸ hsees'.symm ▸ h.camera.foldl_takeOut like
        case inFlight => exact h.inFlight
        case inFlight_lt => exact h.inFlight_lt
        case flight => exact ⟨final, hsees.symm ▸ next, hsame⟩
        case inn => exact h.inn.trans (hsees.symm ▸ hinn.symm)
        case responses => exact h.responses.trans (hsees.symm ▸ hresp.symm)
        case le =>
          have hle : (ps.foldl Party.takeOut p.camera).responses ≤
              (ps.foldl Party.takeOut p.camera).commands :=
            hresp.le.trans (h.le.trans (Party.commands_foldl p.camera ps).1)
          exact hsees.symm ▸ hle
        case one => exact h.one
        case whole => exact h.whole
        case unfaulted => exact h.unfaulted
        case hidden =>
          rw [hideIds_append, hideIds_append, h.hidden]
          rfl
        case outs =>
          rw [outAfter_append, outAfter_append]
          exact h.outs
        case carries => exact carriesIds_append.mpr ⟨h.carries, trivial⟩
        case inns =>
          rw [inAfter_append]
          exact h.inns

/-- While the camera answers, it knows the client's command. -/
theorem transId (h : Mirrors p f) (hne : p.camera.commands ≠ p.camera.responses) :
    p.camera.transId = p.client.transId := by
  obtain ⟨final, hflight, hsame⟩ := h.flight
  obtain ⟨hle, heq⟩ := hflight.commands_le
  have hone := h.one
  have hcamera := h.le
  have hresp := h.responses
  have hcommands := hsame.commands
  rw [hsame.transId]
  exact (heq (by omega)).symm

theorem completeIn (h : Mirrors p f) {ok : Bool} {data : List Byte}
    (hok : p.Ordinary (.completeIn ok data)) (hs : p.completeIn ok data = some p') :
    ∃ f', f.completeIn ok data = some f' ∧ Mirrors p' f' := by
  obtain ⟨rfl, hturn, ps, hps, hanswers⟩ := hok
  obtain ⟨hcuts, rfl⟩ := cut_eq_some.mp hps
  obtain ⟨φ, hφ, hfollows⟩ := h.filter
  obtain ⟨final, hflight, hsame⟩ := h.flight
  rw [Relay.completeIn] at hs ⊢
  rw [h.inFlight]
  cases hp : p.inFlight with
  | nil =>
    rw [hp] at hs
    cases hs
  | cons urb flight =>
    obtain ⟨seqnum, length⟩ := urb
    rw [hp] at hs
    obtain ⟨hle, hs⟩ := Option.ite_none_right_eq_some.mp hs
    have hlt := h.inFlight_lt (seqnum, length) (hp ▸ List.mem_cons_self)
    have hturn' : ps = [] ∨ ¬ p.camera.out.Inside := by
      refine hturn.imp_left fun hnil => ?_
      have hlen := hcuts.length_le
      rw [hnil] at hlen
      exact List.length_eq_zero_iff.mp (Nat.le_zero.mp hlen)
    -- what the client gets is the same in both systems
    have hsame' : ps.map (Piece.retag p.camera.transId) =
        ps.map (Piece.retag p.client.transId) := by
      rcases eq_or_ne ps [] with rfl | hne
      · rfl
      · obtain ⟨piece, ps, rfl⟩ := List.exists_cons_of_ne_nil hne
        rw [h.transId hanswers.2.1]
    have hlike := Like.retag_self ps f.camera.transId
    have hlike' := Like.retag_self ps p.client.transId
    obtain ⟨φ', htx, hfollows'⟩ := hfollows.onTxIn hcuts hanswers.known hturn' h.inn
      (lt_of_le_of_lt (hle.trans hlt.le) (by decide)) hlike
    have hclientcuts : Cuts p.client.inn (ps.map (Piece.retag p.client.transId)) :=
      h.inn.symm ▸ hlike'.cuts hcuts
    have hsent : p.camera.inn.retag p.camera.transId (bytesOf ps) =
        bytesOf (ps.map (Piece.retag p.client.transId)) := by
      rw [Progress.retag_of_cuts hcuts, hsame']
    have hsent' : f.camera.inn.retag f.camera.transId (bytesOf ps) =
        bytesOf (ps.map (Piece.retag f.camera.transId)) := by
      rw [h.camera.inn, Progress.retag_of_cuts hcuts]
    have hclient : p.client.seesIn (bytesOf (ps.map (Piece.retag p.client.transId))) =
        ps.foldl Party.takeIn p.client := by
      rw [Party.seesIn_of_cuts hclientcuts, Party.foldl_takeIn_like hlike']
    have hcamera : p.camera.seesIn (bytesOf (ps.map (Piece.retag p.client.transId))) =
        ps.foldl Party.takeIn p.camera := by
      rw [Party.seesIn_of_cuts (hlike'.cuts hcuts), Party.foldl_takeIn_like hlike']
    have hcamera' : f.camera.seesIn (bytesOf (ps.map (Piece.retag f.camera.transId))) =
        (ps.map (Piece.retag f.camera.transId)).foldl Party.takeIn f.camera :=
      Party.seesIn_of_cuts (h.camera.inn.symm ▸ hlike.cuts hcuts)
    have htx' : usbipFilterOnTx f.filter false true
        (bytesOf (ps.map (Piece.retag f.camera.transId))) =
        some (some φ', bytesOf (ps.map (Piece.retag p.client.transId))) := by
      rw [hφ]
      exact congrArg (Option.map _) htx
    rw [h.plain, hsent] at hs
    cases hs
    dsimp only
    rw [if_pos hle, hsent', htx', h.client]
    refine ⟨_, rfl, ?_⟩
    obtain ⟨hout, hcommands, hid⟩ := Party.out_foldl_takeIn p.client ps
    obtain ⟨houtc, hcommandsc, hidc⟩ := Party.out_foldl_takeIn p.camera ps
    have hresponses : (ps.foldl Party.takeIn p.client).responses =
        (ps.foldl Party.takeIn p.camera).responses :=
      Party.responses_foldl_congr h.inn h.responses ps
    constructor
    case plain => rfl
    case filter => exact ⟨φ', rfl, hclient.symm ▸ hcamera.symm ▸ hfollows'⟩
    case client => rfl
    case camera => exact hcamera.symm ▸ hcamera'.symm ▸ h.camera.foldl_takeIn hlike
    case inFlight => rfl
    case inFlight_lt => exact fun urb hurb => h.inFlight_lt urb (hp ▸ List.mem_cons_of_mem _ hurb)
    case flight =>
      obtain ⟨final', hflight', hfinal⟩ := hflight.congr ⟨houtc, hcommandsc, hidc⟩
      refine ⟨final', hcamera.symm ▸ hflight', ?_⟩
      exact hclient.symm ▸ ⟨hout.trans (hsame.out.trans hfinal.out.symm),
        hcommands.trans (hsame.commands.trans hfinal.commands.symm),
        hid.trans (hsame.transId.trans hfinal.transId.symm)⟩
    case inn =>
      have hinn : (ps.foldl Party.takeIn p.client).inn = (ps.foldl Party.takeIn p.camera).inn := by
        rw [Party.inn_foldl, Party.inn_foldl, h.inn]
      exact hclient.symm ▸ hcamera.symm ▸ hinn
    case responses => exact hclient.symm ▸ hcamera.symm ▸ hresponses
    case le =>
      have hle := hanswers.responses_le h.le
      rw [← hcommandsc] at hle
      exact hcamera.symm ▸ hle
    case one =>
      have hone : (ps.foldl Party.takeIn p.client).commands ≤
          (ps.foldl Party.takeIn p.client).responses + 1 := by
        rw [hcommands]
        exact h.one.trans (Nat.add_le_add_right (Party.le_responses_foldl p.client ps) 1)
      exact hclient.symm ▸ hone
    case whole =>
      have hwhole : (ps.foldl Party.takeIn p.client).Whole := by
        rw [Party.Whole, hout]
        exact h.whole
      exact hclient.symm ▸ hwhole
    case unfaulted => exact h.unfaulted
    case hidden =>
      rw [hideIds_append, hideIds_append, h.hidden]
      rfl
    case outs =>
      rw [outAfter_append, outAfter_append]
      exact hclient.symm ▸ hout.symm ▸ h.outs
    case carries =>
      refine carriesIds_append.mpr ⟨h.carries, ?_, trivial⟩
      rw [h.inns, Progress.retag_of_cuts hclientcuts, hlike'.map_retag]
    case inns =>
      rw [inAfter_append, h.inns]
      have hafter : p.client.inn.after (bytesOf (ps.map (Piece.retag p.client.transId))) =
          (ps.foldl Party.takeIn p.client).inn := by
        rw [Progress.after_of_cuts hclientcuts, hlike'.foldl_step, Party.inn_foldl]
      exact hclient.symm ▸ hafter

/-- **One step.** -/
theorem step (h : Mirrors p f) {a : Relay.Act} (hok : p.Ordinary a) (hcode : p.NoPreview a)
    (hs : p.step a = some p') : ∃ f', f.step a = some f' ∧ Mirrors p' f' := by
  unfold Relay.step at hs ⊢
  rw [h.unfaulted.1, if_neg Bool.false_ne_true] at hs
  rw [h.unfaulted.2, if_neg Bool.false_ne_true]
  cases a with
  | submitOut seqnum buffer => exact h.submitOut hok hcode hs
  | submitIn seqnum length => exact h.submitIn hs
  | completeOut ok => exact h.completeOut hok hs
  | completeIn ok data => exact h.completeIn hok hs

end Mirrors

theorem mirrors_init : Mirrors (relay none).init (relay (some .probed)).init := by
  have hout : ¬ Progress.fresh.Inside := by decide
  have hat : StateMachine.fresh.At .fresh := .closed hout (Or.inr rfl)
  constructor
  case plain => rfl
  case filter =>
    have htx : PtpFilter.probed.tx.At
        (if Progress.fresh.Inside then Progress.fresh else Progress.fresh) := by
      rwa [if_neg hout]
    exact ⟨.probed, rfl, rfl, hat, ⟨rfl, fun _ hc => by cases hc⟩, htx, rfl, Or.inl rfl,
      fun _ => rfl⟩
  case client => rfl
  case camera => exact ⟨rfl, rfl, rfl, rfl⟩
  case inFlight => rfl
  case inFlight_lt => exact fun urb hurb => absurd hurb List.not_mem_nil
  case flight => exact ⟨.fresh, .nil _, rfl, rfl, rfl⟩
  case inn => rfl
  case responses => rfl
  case le => exact le_rfl
  case one => exact Nat.zero_le _
  case whole => exact fun hin => absurd hin hout
  case unfaulted => exact ⟨rfl, rfl⟩
  case hidden => rfl
  case outs => exact ⟨rfl, rfl⟩
  case carries => trivial
  case inns => rfl

/-- **The filter is transparent without live view.** Whatever a client and a camera do that do
without live view, the stub with the filter does what the one without it does, with the same
URBs in the same order; only the identifiers that reach the camera differ, and what goes back to
the client has the identifier of its command. -/
theorem relay_transparent {as : List Relay.Act} {p : Relay}
    (h : (relay none).runWhere (fun s a => s.Ordinary a ∧ s.NoPreview a) (relay none).init as =
      some p) :
    ∃ f, (relay (some .probed)).run (relay (some .probed)).init as = some f ∧
      hideIds .fresh f.trace = hideIds .fresh p.trace ∧ CarriesIds .fresh f.trace := by
  have hstep : ∀ s t a s', Mirrors s t → s.Ordinary a ∧ s.NoPreview a →
      (relay none).step s a = some s' →
      ∃ t', (relay (some .probed)).step t a = some t' ∧ Mirrors s' t' :=
    fun _ _ _ _ hR hok hs => hR.step hok.1 hok.2 hs
  obtain ⟨f, hf, hmirrors⟩ := Machine.exists_run_of_runWhere hstep mirrors_init h
  exact ⟨f, hf, hmirrors.hidden, hmirrors.carries⟩

/-- The bytes of a container. -/
def containerBytes (type code : BitVec 8) (t : BitVec 32) (payload : List Byte) : List Byte :=
  FixedCodec.u32le.encode (BitVec.ofNat 32 (bulkHeaderSize + payload.length)) ++
    [type, 0, code, 0x10] ++ FixedCodec.u32le.encode t ++ payload

/-- `OpenSession`, a command that the camera answers with data, and one that the client sends
data for; the camera sees other identifiers than the client's. -/
def sessionRun : List Relay.Act :=
  [.submitOut 1 (containerBytes 1 2 7 [1, 0, 0, 0]), .completeOut true, .submitIn 2 16,
    .completeIn true (containerBytes 3 1 0 []),
    .submitOut 3 (containerBytes 1 1 9 []), .completeOut true, .submitIn 4 16, .submitIn 5 16,
    .completeIn true (containerBytes 2 1 0 [1, 2, 3, 4]),
    .completeIn true (containerBytes 3 1 0 []),
    .submitOut 6 (containerBytes 1 22 11 []), .submitOut 7 (containerBytes 2 22 11 [5, 6, 7]),
    .completeOut true, .completeOut true, .submitIn 8 16,
    .completeIn true (containerBytes 3 1 0 [])]

theorem relay_transparent_sessionRun :
    ∃ p f, (relay none).runWhere (fun s a => s.Ordinary a ∧ s.NoPreview a) (relay none).init
        sessionRun = some p ∧
      (relay (some .probed)).run (relay (some .probed)).init sessionRun = some f ∧
      hideIds .fresh f.trace = hideIds .fresh p.trace ∧ CarriesIds .fresh f.trace := by
  obtain ⟨p, hp⟩ := Option.isSome_iff_exists.mp (show ((relay none).runWhere
    (fun s a => s.Ordinary a ∧ s.NoPreview a) (relay none).init sessionRun).isSome = true by decide)
  obtain ⟨f, hf⟩ := relay_transparent hp
  exact ⟨p, f, hp, hf⟩

/-- An empty URB on the bulk OUT pipe, right after a command. -/
def emptyUrbRun : List Relay.Act :=
  [.submitOut 1 (containerBytes 1 2 0 [1, 0, 0, 0]), .completeOut true, .submitOut 2 []]

/-- **An empty URB after a command never reaches the camera**: the filter takes it for a command
and reads its code from a buffer that has none. -/
theorem empty_urb_after_command :
    ∃ p f, (relay none).runWhere Relay.Ordinary (relay none).init emptyUrbRun = some p ∧
      (relay (some .probed)).run (relay (some .probed)).init emptyUrbRun = some f ∧
      f.faulted = true ∧ hideIds .fresh f.trace ≠ hideIds .fresh p.trace := by
  have hplain : ((relay none).runWhere Relay.Ordinary (relay none).init emptyUrbRun).any
      (fun p => p.trace.length = 3) = true := by decide
  have hfilter : ((relay (some .probed)).run (relay (some .probed)).init emptyUrbRun).any
      (fun f => f.faulted = true ∧ f.trace.length = 2) = true := by decide
  obtain ⟨p, hp, hlen⟩ := (Option.any_eq_true _ _).mp hplain
  obtain ⟨f, hf, hfault⟩ := (Option.any_eq_true _ _).mp hfilter
  obtain ⟨hfault, hlen'⟩ := of_decide_eq_true hfault
  refine ⟨p, f, hp, hf, hfault, fun heq => ?_⟩
  have hlength := congrArg List.length heq
  rw [length_hideIds, length_hideIds, of_decide_eq_true hlen, hlen'] at hlength
  cases hlength

end Usbip.Ptp
