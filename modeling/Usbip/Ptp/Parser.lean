import Usbip.Ptp.Container

/-!
# The PTP filter: `ptp_parse`

`ptp_parse` follows the containers in the data of a URB and rewrites their transaction
identifiers. The filter has four parsers, which differ in what they do at a header: `rx`, for
what the client sends, `tx`, for what comes back from the camera, `send`, for what the filter
submits after a delay, and `self`, for the answers to the filter's own commands.

The source reads on wherever the length in a header sends it. Here `parse` is `none` when that
is outside of the buffer. On data that are cut into containers of the known types the parser is
`walk`, a pass over the pieces (`parse_of_cuts`).
-/

namespace Usbip.Ptp

/-- `PTP_OC_OpenSession` -/
def ocOpenSession : ℕ := 0x1002

/-- `PTP_OC_CloseSession` -/
def ocCloseSession : ℕ := 0x1003

/-- `enum ptp_parser_state` -/
inductive ParserState
  | none
  | data
  | response
  | command
  | unknown
  | waitResponse
  deriving DecidableEq, Repr

/-- The parsers of a filter. -/
inductive Parser
  | tx
  | rx
  | self
  | send
  deriving DecidableEq, Repr

/-- `PTPUSBBulkHeader`, as a parser keeps it. -/
structure BulkHeader where
  length : ℕ
  type : ℕ
  code : ℕ
  transId : BitVec 32
  deriving DecidableEq

/-- `struct ptp_state_machine` -/
structure StateMachine where
  state : ParserState
  size : ℕ
  ptpdu : BulkHeader
  deriving DecidableEq

/-- A parser of a filter that was just allocated. -/
def StateMachine.fresh : StateMachine := ⟨.none, 0, ⟨0, 0, 0, 0⟩⟩

/-- The fields of `struct ptp_filter` that all parsers share. -/
structure Session where
  state : FilterState
  transId : BitVec 32
  rxTransId : BitVec 32
  deriving DecidableEq

/-- What a call of `ptp_parse` leaves behind: the parser, the shared fields, the buffer with the
identifiers rewritten, and its result. -/
structure Parsed where
  machine : StateMachine
  session : Session
  data : List Byte
  done : Bool
  deriving DecidableEq

/-- The header at the start of the data. -/
def readHeader (data : List Byte) : BulkHeader :=
  ⟨containerLength data, containerType data, containerCode data, containerTransId data⟩

namespace Session

/-- `ptp_bypass1` -/
def bypass (s : Session) : Session := { s with state := .bypassed }

/-- `ptp_check_new_session` -/
def checkNewSession (which : Parser) (ptpdu : BulkHeader) (s : Session) : Session :=
  if which = .rx ∧ ptpdu.type = containerCommand ∧
      (ptpdu.code = ocOpenSession ∨ ptpdu.code = ocCloseSession) then
    { s with
      transId := if ptpdu.code = ocOpenSession then 0 else s.transId
      state := .idle }
  else s

/-- What a parser does with the identifier in a header; `rx` saves it, `tx` restores it. -/
def rewriteTransId (which : Parser) (s : Session) (data : List Byte) : Session × List Byte :=
  match which with
  | .rx => ({ s with rxTransId := containerTransId data }, setTransId data s.transId)
  | .tx => (s, setTransId data s.rxTransId)
  | .send => (s, setTransId data s.transId)
  | .self => (s, data)

/-- The end of a response; `serving` tells whether the URB is `frame_serving_urb`. -/
def endResponse (which : Parser) (serving : Bool) (s : Session) : Session :=
  if which ≠ .rx ∧ ¬ serving then { s with transId := s.transId + 1 } else s

end Session

/-- The state of a parser inside a container of the type. -/
def phaseOf (type : ℕ) : Option ParserState :=
  if type = containerCommand then some .command
  else if type = containerResponse then some .response
  else if type = containerData then some .data
  else none

/-- Data that the parser has left behind come before the rest. -/
def Parsed.prepend (front : List Byte) (p : Parsed) : Parsed := { p with data := front ++ p.data }

/-- The part of a pass that is common to all phases; `next` is the next pass. -/
def parsePhase (which : Parser) (serving : Bool)
    (next : StateMachine → Session → Bool → List Byte → Option Parsed)
    (m : StateMachine) (s : Session) (done : Bool) (data : List Byte) : Option Parsed :=
  if (data.length + m.size) % 2 ^ 32 < m.ptpdu.length then
    some ⟨{ m with size := (m.size + data.length) % 2 ^ 32 }, s, data, done⟩
  else
    let offset := (m.ptpdu.length + 2 ^ 32 - m.size) % 2 ^ 32
    if data.length < offset then none
    else if m.state = .response then
      (next { m with state := .none } (s.endResponse which serving) true
        (data.drop offset)).map (·.prepend (data.take offset))
    else
      (next { m with state := .waitResponse } s done
        (data.drop offset)).map (·.prepend (data.take offset))

/-- The loop of `ptp_parse`, for at most `n` passes. -/
def parseLoop (which : Parser) (serving : Bool) :
    ℕ → StateMachine → Session → Bool → List Byte → Option Parsed
  | _, m, s, done, [] => some ⟨m, s, [], done⟩
  | 0, _, _, _, _ => none
  | n + 1, m, s, done, data =>
    if m.state = .waitResponse ∨ m.state = .none then
      if data.length < bulkHeaderSize then some ⟨m, s.bypass, data, false⟩
      else
        let ptpdu := readHeader data
        let rewritten := (s.checkNewSession which ptpdu).rewriteTransId which
          (data.take bulkHeaderSize)
        match phaseOf ptpdu.type with
        | none => some ⟨⟨.unknown, bulkHeaderSize, ptpdu⟩, rewritten.1.bypass,
            rewritten.2 ++ data.drop bulkHeaderSize, false⟩
        | some state =>
          (parsePhase which serving (parseLoop which serving n) ⟨state, bulkHeaderSize, ptpdu⟩
            rewritten.1 done (data.drop bulkHeaderSize)).map (·.prepend rewritten.2)
    else parsePhase which serving (parseLoop which serving n) m s done data

/-- `ptp_parse`; every second pass at least moves on in the data. -/
def parse (which : Parser) (serving : Bool) (m : StateMachine) (s : Session)
    (data : List Byte) : Option Parsed :=
  parseLoop which serving (2 * data.length) m s false data

/-! ### The parser as a pass over the pieces -/

namespace Session

/-- What a parser does at a header: the shared fields and the header after it. -/
def openHeader (which : Parser) (s : Session) (h : Header) : Session × Header :=
  match which with
  | .rx =>
    let s' := s.checkNewSession .rx ⟨h.length, h.type, h.code, h.transId⟩
    ({ s' with rxTransId := h.transId }, h.setTransId s'.transId)
  | .tx => (s, h.setTransId s.rxTransId)
  | .send => (s, h.setTransId s.transId)
  | .self => (s, h)

/-- What a parser does at a piece. -/
def openPiece (which : Parser) (s : Session) : Piece → Session × Piece
  | .more body => (s, .more body)
  | .start h body => ((s.openHeader which h).1, .start (s.openHeader which h).2 body)

end Session

/-- A response ends here. -/
def Progress.EndsResponse (pr : Progress) : Prop := ¬ pr.Inside ∧ pr.type = containerResponse

instance (pr : Progress) : Decidable pr.EndsResponse := by
  unfold Progress.EndsResponse
  infer_instance

/-- The shared fields after a piece. -/
def Session.closePiece (which : Parser) (serving : Bool) (pr : Progress) (s : Session) : Session :=
  if pr.EndsResponse then s.endResponse which serving else s

/-- `ptp_parse` on pieces: the shared fields, the pieces as they are rewritten, and whether a
response ended. -/
def walk (which : Parser) (serving : Bool) :
    Session → Progress → List Piece → Session × List Piece × Bool
  | s, _, [] => (s, [], false)
  | s, pr, p :: ps =>
    let opened := s.openPiece which p
    let rest := walk which serving (opened.1.closePiece which serving (pr.step p)) (pr.step p) ps
    (rest.1, opened.2 :: rest.2.1, decide (pr.step p).EndsResponse || rest.2.2)

/-- The type of a container that begins is known. -/
def Piece.Known : Piece → Prop
  | .more _ => True
  | .start h _ => phaseOf h.type ≠ none

instance (p : Piece) : Decidable p.Known := by
  cases p <;> unfold Piece.Known <;> infer_instance

theorem Like.known {ps qs : List Piece} (h : Like ps qs) (hknown : ∀ p ∈ ps, p.Known) :
    ∀ q ∈ qs, q.Known := by
  induction h with
  | nil => exact fun q hq => absurd hq List.not_mem_nil
  | cons hp _ ih =>
    intro q hq
    rcases List.mem_cons.mp hq with rfl | hq
    · have hfirst := hknown _ List.mem_cons_self
      cases hp with
      | more body => trivial
      | start h t body =>
        rw [Piece.Known, Header.type_setTransId]
        exact hfirst
    · exact ih (fun p hp => hknown p (List.mem_cons_of_mem _ hp)) q hq

/-- The parser is where the pipe is. -/
structure StateMachine.At (m : StateMachine) (pr : Progress) : Prop where
  inside : pr.Inside → phaseOf pr.type = some m.state ∧ m.size = pr.size ∧
    m.ptpdu.length = pr.total ∧ m.ptpdu.type = pr.type
  between : ¬ pr.Inside → m.state = .waitResponse ∨ m.state = .none

/-- The parser remembers the type of the last container. -/
structure StateMachine.Knows (m : StateMachine) (pr : Progress) : Prop where
  type : m.ptpdu.type = pr.type
  command : ¬ pr.Inside → pr.type = containerCommand → m.state = .waitResponse

/-! #### The first piece -/

section Phase

variable {which : Parser} {serving : Bool}
variable {next : StateMachine → Session → Bool → List Byte → Option Parsed}
variable {m : StateMachine} {s : Session} {done : Bool} {body tail : List Byte}

/-- The transfer ends inside the container. -/
theorem parsePhase_pending (hlt : m.size + body.length < 2 ^ 32)
    (hin : m.size + body.length < m.ptpdu.length) :
    parsePhase which serving next m s done body =
      some ⟨{ m with size := m.size + body.length }, s, body, done⟩ := by
  have hmod : (body.length + m.size) % 2 ^ 32 = m.size + body.length := by
    rw [Nat.add_comm, Nat.mod_eq_of_lt hlt]
  rw [parsePhase, hmod, if_pos hin, Nat.mod_eq_of_lt hlt]

/-- The container ends, and the next one may begin. -/
theorem parsePhase_ends (hlt : m.size + (body ++ tail).length < 2 ^ 32)
    (hend : m.size + body.length = m.ptpdu.length) :
    parsePhase which serving next m s done (body ++ tail) =
      (if m.state = .response then
        next { m with state := .none } (s.endResponse which serving) true tail
      else next { m with state := .waitResponse } s done tail).map (·.prepend body) := by
  rw [List.length_append] at hlt
  have hmod : ((body ++ tail).length + m.size) % 2 ^ 32 = m.size + (body ++ tail).length := by
    rw [List.length_append, Nat.add_comm, Nat.mod_eq_of_lt hlt]
  have hoffset : (m.ptpdu.length + 2 ^ 32 - m.size) % 2 ^ 32 = body.length := by
    rw [show m.ptpdu.length + 2 ^ 32 - m.size = body.length + 2 ^ 32 by omega,
      Nat.add_mod_right, Nat.mod_eq_of_lt (by omega)]
  have hnot : ¬ m.size + (body ++ tail).length < m.ptpdu.length := by
    rw [List.length_append]
    omega
  have hfit : ¬ (body ++ tail).length < body.length := by
    rw [List.length_append]
    omega
  rw [parsePhase, hmod, if_neg hnot]
  simp only [hoffset]
  rw [if_neg hfit, List.take_left' rfl, List.drop_left' rfl]
  split <;> rfl

end Phase

theorem phaseOf_ne {type : ℕ} {state : ParserState} (h : phaseOf type = some state) :
    ¬ (state = .waitResponse ∨ state = .none) := by
  unfold phaseOf at h
  split_ifs at h <;> cases h <;> simp

theorem phaseOf_eq_response {type : ℕ} {state : ParserState} (h : phaseOf type = some state) :
    state = .response ↔ type = containerResponse := by
  unfold phaseOf at h
  split_ifs at h with hc hr hd <;> cases h <;> simp_all [containerCommand, containerResponse]

/-- The header of a container is read off the front of the data. -/
theorem readHeader_append (h : Header) (data : List Byte) :
    readHeader (h.bytes ++ data) = ⟨h.length, h.type, h.code, h.transId⟩ := by
  have hlen : h.bytes.length = 12 := h.length_bytes
  rw [readHeader, containerLength_append (by omega), containerType_append (by omega),
    containerCode_append (by omega), containerTransId_append hlen.ge]
  rfl

theorem rewriteTransId_eq (which : Parser) (s : Session) (h : Header) :
    (s.checkNewSession which ⟨h.length, h.type, h.code, h.transId⟩).rewriteTransId which h.bytes =
      ((s.openHeader which h).1, (s.openHeader which h).2.bytes) := by
  cases which with
  | rx => rfl
  | tx =>
    rw [Session.checkNewSession, if_neg (by simp)]
    rfl
  | self =>
    rw [Session.checkNewSession, if_neg (by simp)]
    rfl
  | send =>
    rw [Session.checkNewSession, if_neg (by simp)]
    rfl

section Loop

variable {which : Parser} {serving : Bool} {n : ℕ} {m : StateMachine} {s : Session} {done : Bool}

/-- A pass of the loop inside a container. -/
theorem parseLoop_inside {data : List Byte} (hne : data ≠ [])
    (hm : ¬ (m.state = .waitResponse ∨ m.state = .none)) :
    parseLoop which serving (n + 1) m s done data =
      parsePhase which serving (parseLoop which serving n) m s done data := by
  cases data with
  | nil => exact absurd rfl hne
  | cons b data => exact if_neg hm

/-- A pass of the loop at the header of a container. -/
theorem parseLoop_header {h : Header} {state : ParserState} (hstate : phaseOf h.type = some state)
    (hm : m.state = .waitResponse ∨ m.state = .none) (data : List Byte) :
    parseLoop which serving (n + 1) m s done (h.bytes ++ data) =
      (parsePhase which serving (parseLoop which serving n)
        ⟨state, bulkHeaderSize, ⟨h.length, h.type, h.code, h.transId⟩⟩ (s.openHeader which h).1
        done data).map (·.prepend (s.openHeader which h).2.bytes) := by
  have hlen := h.length_bytes
  have hshort : ¬ (h.bytes ++ data).length < bulkHeaderSize := by
    rw [List.length_append]
    omega
  have hread := readHeader_append h data
  have htake : (h.bytes ++ data).take bulkHeaderSize = h.bytes := List.take_left' hlen
  have hdrop : (h.bytes ++ data).drop bulkHeaderSize = data := List.drop_left' hlen
  cases hd : h.bytes ++ data with
  | nil =>
    rw [hd] at hshort
    exact absurd (by decide) hshort
  | cons b bs =>
    rw [hd] at hshort hread htake hdrop
    rw [parseLoop, if_pos hm, if_neg hshort]
    · simp only [hread, htake, hdrop, rewriteTransId_eq, hstate]
    · simp

end Loop

/-- Which state a parser has after a container, by its type. -/
theorem StateMachine.At.closed {m : StateMachine} {pr : Progress} (hout : ¬ pr.Inside)
    (hm : m.state = .waitResponse ∨ m.state = .none) : m.At pr :=
  ⟨fun hin => absurd hin hout, fun _ => hm⟩

/-- What the parsers do with pieces, given that the phase of the last piece is done by `next`. -/
theorem parsePhase_walk {which : Parser} {serving : Bool}
    {next : StateMachine → Session → Bool → List Byte → Option Parsed}
    (pr : Progress) (m : StateMachine) (s : Session) (done : Bool) {body : List Byte}
    {ps : List Piece} (hstate : phaseOf pr.type = some m.state)
    (hlength : m.ptpdu.length = pr.total) (htype : m.ptpdu.type = pr.type)
    (hsize : m.size + body.length = pr.size) (hle : pr.size ≤ pr.total)
    (hlast : pr.size < pr.total → ps = []) (hlt : m.size + (body ++ bytesOf ps).length < 2 ^ 32)
    (hnext : ∀ (m' : StateMachine) (s' : Session) (done' : Bool), m'.At pr → m'.Knows pr →
      ∃ m'', next m' s' done' (bytesOf ps) = some ⟨m'', (walk which serving s' pr ps).1,
        bytesOf (walk which serving s' pr ps).2.1, done' || (walk which serving s' pr ps).2.2⟩ ∧
        m''.At (ps.foldl Progress.step pr) ∧ m''.Knows (ps.foldl Progress.step pr)) :
    ∃ m'', parsePhase which serving next m s done (body ++ bytesOf ps) =
        some ⟨m'', (walk which serving (s.closePiece which serving pr) pr ps).1,
          body ++ bytesOf (walk which serving (s.closePiece which serving pr) pr ps).2.1,
          done || (decide pr.EndsResponse ||
            (walk which serving (s.closePiece which serving pr) pr ps).2.2)⟩ ∧
      m''.At (ps.foldl Progress.step pr) ∧ m''.Knows (ps.foldl Progress.step pr) := by
  by_cases hin : pr.size < pr.total
  · -- the transfer ends inside the container
    obtain rfl := hlast hin
    have hends : ¬ pr.EndsResponse := fun h => h.1 hin
    rw [bytesOf_nil, List.append_nil] at hlt ⊢
    rw [parsePhase_pending (by rwa [hsize] at hlt ⊢) (by rwa [hsize, hlength]), hsize]
    refine ⟨{ m with size := pr.size }, ?_,
      ⟨fun _ => ⟨hstate, rfl, hlength, htype⟩, fun hout => absurd hin hout⟩,
      ⟨htype, fun hout => absurd hin hout⟩⟩
    simp [walk, Session.closePiece, hends]
  · have hresponse : pr.EndsResponse ↔ m.state = .response := by
      rw [phaseOf_eq_response hstate]
      exact ⟨fun h => h.2, fun h => ⟨hin, h⟩⟩
    rw [parsePhase_ends hlt (by omega)]
    by_cases hr : m.state = .response
    · have htr := (phaseOf_eq_response hstate).mp hr
      have hclose : s.closePiece which serving pr = s.endResponse which serving :=
        if_pos (hresponse.mpr hr)
      obtain ⟨m'', heq, hat, hknows⟩ := hnext { m with state := .none }
        (s.endResponse which serving) true (.closed hin (.inr rfl))
        ⟨htype, fun _ hc => absurd (htr.symm.trans hc) (by decide)⟩
      refine ⟨m'', ?_, hat, hknows⟩
      rw [if_pos hr, heq, hclose, Option.map_some, Parsed.prepend]
      simp [hresponse, hr]
    · have hclose : s.closePiece which serving pr = s := if_neg fun h => hr (hresponse.mp h)
      obtain ⟨m'', heq, hat, hknows⟩ := hnext { m with state := .waitResponse } s done
        (.closed hin (.inl rfl)) ⟨htype, fun _ _ => rfl⟩
      refine ⟨m'', ?_, hat, hknows⟩
      rw [if_neg hr, heq, hclose, Option.map_some, Parsed.prepend]
      simp [hresponse, hr]

/-- **`ptp_parse` is a pass over the pieces**: on data that continue the pipe with containers of
known types, a parser that is where the pipe is stays there, and it leaves what `walk` does. -/
theorem parseLoop_of_cuts {which : Parser} {serving : Bool} {pr : Progress} {ps : List Piece}
    (h : Cuts pr ps) (hknown : ∀ p ∈ ps, p.Known) (hlt : (bytesOf ps).length < 2 ^ 32) {n : ℕ}
    (hn : ps.length ≤ n) (m : StateMachine) (s : Session) (done : Bool) (hat : m.At pr) :
    ∃ m', parseLoop which serving n m s done (bytesOf ps) =
        some ⟨m', (walk which serving s pr ps).1, bytesOf (walk which serving s pr ps).2.1,
          done || (walk which serving s pr ps).2.2⟩ ∧
      m'.At (ps.foldl Progress.step pr) ∧
      (m.Knows pr → m'.Knows (ps.foldl Progress.step pr)) := by
  induction h generalizing n m s done with
  | nil pr => exact ⟨m, by simp [walk, parseLoop], hat, id⟩
  | @more pr body ps inside body_ne le last lt next ih =>
    obtain ⟨hstate, hsize, hlength, htype⟩ := hat.inside inside
    rw [bytesOf_cons, List.length_append] at hlt
    obtain ⟨n, rfl⟩ : ∃ k, n = k + 1 := ⟨n - 1, by rw [List.length_cons] at hn; omega⟩
    rw [List.length_cons, Nat.add_le_add_iff_right] at hn
    have hne : body ++ bytesOf ps ≠ [] := List.append_ne_nil_of_left_ne_nil body_ne _
    rw [bytesOf_cons, Piece.bytes, parseLoop_inside hne (phaseOf_ne hstate)]
    obtain ⟨m', heq, hat', hknows⟩ := parsePhase_walk (pr.step (.more body)) m s done hstate
      hlength htype (congrArg (· + body.length) hsize) le last (by rwa [hsize])
      fun m' s' done' hat' hknows' => by
        obtain ⟨m'', heq, hat'', hkn⟩ := ih (fun p hp => hknown p (List.mem_cons_of_mem _ hp))
          (by omega) hn m' s' done' hat'
        exact ⟨m'', heq, hat'', hkn hknows'⟩
    exact ⟨m', heq, hat', fun _ => hknows⟩
  | @start pr h body ps hout le last next ih =>
    have hlen := Piece.length_bytes_start h body
    rw [bytesOf_cons, List.length_append] at hlt
    obtain ⟨n, rfl⟩ : ∃ k, n = k + 1 := ⟨n - 1, by rw [List.length_cons] at hn; omega⟩
    rw [List.length_cons, Nat.add_le_add_iff_right] at hn
    obtain ⟨state, hstate⟩ := Option.ne_none_iff_exists'.mp (hknown _ List.mem_cons_self)
    rw [bytesOf_cons, Piece.bytes, List.append_assoc,
      parseLoop_header hstate (hat.between hout)]
    obtain ⟨m', heq, hat', hknows⟩ := parsePhase_walk (pr.step (.start h body))
      ⟨state, bulkHeaderSize, ⟨h.length, h.type, h.code, h.transId⟩⟩ (s.openHeader which h).1 done
      hstate rfl rfl rfl le last
      (by rw [List.length_append]; dsimp only; omega)
      fun m' s' done' hat' hknows' => by
        obtain ⟨m'', heq, hat'', hkn⟩ := ih (fun p hp => hknown p (List.mem_cons_of_mem _ hp))
          (by omega) hn m' s' done' hat'
        exact ⟨m'', heq, hat'', hkn hknows'⟩
    refine ⟨m', ?_, hat', fun _ => hknows⟩
    rw [heq, Option.map_some, Parsed.prepend, ← List.append_assoc]
    rfl

theorem parse_of_cuts (which : Parser) (serving : Bool) {pr : Progress} {ps : List Piece}
    (h : Cuts pr ps) (hknown : ∀ p ∈ ps, p.Known) (hlt : (bytesOf ps).length < 2 ^ 32)
    {m : StateMachine} (s : Session) (hat : m.At pr) :
    ∃ m', parse which serving m s (bytesOf ps) =
        some ⟨m', (walk which serving s pr ps).1, bytesOf (walk which serving s pr ps).2.1,
          (walk which serving s pr ps).2.2⟩ ∧
      m'.At (ps.foldl Progress.step pr) ∧
      (m.Knows pr → m'.Knows (ps.foldl Progress.step pr)) := by
  have hn := h.length_le
  exact parseLoop_of_cuts h hknown hlt (by omega) m s false hat

end Usbip.Ptp
