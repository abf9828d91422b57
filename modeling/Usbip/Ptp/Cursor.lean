import Usbip.Lib.Loop
import Usbip.Ptp.Parser

/-!
# `ptp_parse` with its pointer

`ptp_parse` walks through the data of a URB with a pointer and a count of what remains, both moved
by differences of 32-bit numbers. `Cursor` has these variables, the memory that the pointer goes
through, and the parser; `Cursor.pass` is one pass of the loop. A pass is `Within` the data when it
reads and rewrites a header inside of them only, and takes no more from the count than there is.

On data that are walked safely the loop does what `parse` says (`parse_of_safe`).
-/

namespace Usbip.Ptp

open RecordRing StateTransition

/-- The variables of `ptp_parse`, with what they point to. Position 0 of the memory is the start of
the transfer buffer. -/
structure Cursor where
  machine : StateMachine
  session : Session
  mem : ℤ → Byte
  data : ℤ
  length : ℕ
  done : Bool
  /-- `ptp_bypass1` has returned 0 -/
  returned : Bool
  /-- how often `done = 1` was executed; no test depends on it -/
  responses : ℕ
  /-- how often `++filter->trans_id` was executed; no test depends on it -/
  increments : ℕ

namespace Cursor

/-- The loop is entered. -/
def start (m : StateMachine) (s : Session) (mem : ℤ → Byte) (length : ℕ) : Cursor :=
  ⟨m, s, mem, 0, length, false, false, 0, 0⟩

/-- A header is expected. -/
abbrev Between (c : Cursor) : Prop :=
  c.machine.state = .waitResponse ∨ c.machine.state = .none

/-- The first cases of the `switch`, up to where they fall through. -/
def header (which : Parser) (c : Cursor) : Cursor :=
  if c.Between then
    if c.length < bulkHeaderSize then
      { c with session := c.session.bypass, done := false, returned := true }
    else
      let bytes := readMem c.mem c.data bulkHeaderSize
      let ptpdu := readHeader bytes
      let rewritten := (c.session.checkNewSession which ptpdu).rewriteTransId which bytes
      let mem := writeMem c.mem c.data rewritten.2
      match phaseOf ptpdu.type with
      | none => ⟨⟨.unknown, bulkHeaderSize, ptpdu⟩, rewritten.1.bypass, mem,
          c.data + bulkHeaderSize, c.length - bulkHeaderSize, false, true, c.responses,
          c.increments⟩
      | some state => ⟨⟨state, bulkHeaderSize, ptpdu⟩, rewritten.1, mem,
          c.data + bulkHeaderSize, c.length - bulkHeaderSize, c.done, false, c.responses,
          c.increments⟩
  else c

/-- `offset`, unless all that remains belongs to the container. -/
def offset (c : Cursor) : Option ℕ :=
  if (c.length + c.machine.size) % 2 ^ 32 < c.machine.ptpdu.length then none
  else some ((c.machine.ptpdu.length + 2 ^ 32 - c.machine.size) % 2 ^ 32)

/-- The default case of the `switch`. -/
def body (which : Parser) (serving : Bool) (c : Cursor) : Cursor :=
  match c.offset with
  | none =>
    { c with
      machine := { c.machine with size := (c.machine.size + c.length) % 2 ^ 32 }
      length := 0 }
  | some offset =>
    let moved := { c with
      data := c.data + offset
      length := (c.length + 2 ^ 32 - offset) % 2 ^ 32 }
    if c.machine.state = .response then
      { moved with
        machine := { c.machine with state := .none }
        session := c.session.endResponse which serving
        done := true
        responses := c.responses + 1
        increments := c.increments + if which ≠ .rx ∧ ¬ serving then 1 else 0 }
    else { moved with machine := { c.machine with state := .waitResponse } }

/-- One pass of `while (length)`. -/
def pass (which : Parser) (serving : Bool) (c : Cursor) : Option Cursor :=
  if c.returned ∨ c.length = 0 then none
  else if (c.header which).returned then some (c.header which)
  else some ((c.header which).body which serving)

/-- The pass stays within the first `total` bytes: the header that it reads and rewrites lies there,
and `length -= offset` does not wrap around. -/
structure Within (which : Parser) (total : ℕ) (c : Cursor) : Prop where
  touched : c.returned = false → c.Between → bulkHeaderSize ≤ c.length →
    0 ≤ c.data ∧ c.data + bulkHeaderSize ≤ total
  remaining : c.returned = false → c.length ≠ 0 → (c.header which).returned = false →
    ∀ offset, (c.header which).offset = some offset → offset ≤ (c.header which).length

end Cursor

/-- **The call is safe**: the loop ends, every byte it touches is one of the `length` bytes, and the
remaining length does not wrap around. -/
def SafeParse (which : Parser) (serving : Bool) (m : StateMachine) (s : Session) (mem : ℤ → Byte)
    (length : ℕ) : Prop :=
  Loop.Safe (Cursor.pass which serving) (Cursor.Within which length) (.start m s mem length)

/-! ### One pass -/

namespace Cursor

variable {which : Parser} {serving : Bool} {c : Cursor}

theorem lt_of_offset_eq_none (h : c.offset = none) :
    (c.length + c.machine.size) % 2 ^ 32 < c.machine.ptpdu.length := by
  by_contra hnot
  rw [offset, if_neg hnot] at h
  cases h

theorem of_offset_eq_some {o : ℕ} (h : c.offset = some o) :
    ¬ (c.length + c.machine.size) % 2 ^ 32 < c.machine.ptpdu.length ∧
      (c.machine.ptpdu.length + 2 ^ 32 - c.machine.size) % 2 ^ 32 = o := by
  rw [offset] at h
  split at h
  · cases h
  next hnot => exact ⟨hnot, Option.some.inj h⟩

/-- A count that has not passed the length of the container leads to its end, and not further than
the data go: if the sum wraps around, there is more than enough of them. -/
theorem offset_le {o : ℕ} (hsize : c.machine.size ≤ c.machine.ptpdu.length)
    (hlt : c.machine.ptpdu.length < 2 ^ 32) (h : c.offset = some o) :
    o = c.machine.ptpdu.length - c.machine.size ∧ o ≤ c.length := by
  obtain ⟨hnot, rfl⟩ := of_offset_eq_some h
  rw [show c.machine.ptpdu.length + 2 ^ 32 - c.machine.size =
    c.machine.ptpdu.length - c.machine.size + 2 ^ 32 by omega, Nat.add_mod_right,
    Nat.mod_eq_of_lt (by omega)]
  omega

theorem pass_of_length (h : c.length = 0) : c.pass which serving = none := if_pos (.inr h)

theorem pass_of_returned (h : c.returned = true) : c.pass which serving = none := if_pos (.inl h)

variable (which serving) in
/-- The data end inside the container. -/
theorem body_of_none (h : c.offset = none) : c.body which serving =
    { c with
      machine := { c.machine with size := (c.machine.size + c.length) % 2 ^ 32 }
      length := 0 } := by
  rw [body, h]

variable (which serving) in
/-- The container ends, and the pointer moves there. -/
theorem body_of_some {o : ℕ} (h : c.offset = some o) (hle : o ≤ c.length)
    (hlt : c.length < 2 ^ 32) : c.body which serving =
      { c with
        machine := { c.machine with
          state := if c.machine.state = .response then .none else .waitResponse }
        session := if c.machine.state = .response then c.session.endResponse which serving
          else c.session
        data := c.data + o
        length := c.length - o
        done := c.machine.state = .response || c.done
        responses := c.responses + if c.machine.state = .response then 1 else 0
        increments := c.increments +
          if c.machine.state = .response ∧ which ≠ .rx ∧ ¬ serving then 1 else 0 } := by
  have hlength : (c.length + 2 ^ 32 - o) % 2 ^ 32 = c.length - o := by
    rw [show c.length + 2 ^ 32 - o = c.length - o + 2 ^ 32 by omega, Nat.add_mod_right,
      Nat.mod_eq_of_lt (by omega)]
  rw [body, h]
  dsimp only
  rw [hlength]
  by_cases hr : c.machine.state = .response
  · simp [hr]
  · simp [hr]

variable (which serving) in
theorem between_body {o : ℕ} (h : c.offset = some o) (hle : o ≤ c.length)
    (hlt : c.length < 2 ^ 32) : (c.body which serving).Between := by
  rw [body_of_some _ _ h hle hlt, Between]
  dsimp only
  split <;> simp

/-- Inside a container there is no header to read. -/
theorem header_of_inside (h : ¬ c.Between) : c.header which = c := if_neg h

variable (which) in
/-- The rewritten header is as long as it was. -/
theorem length_rewriteTransId (s : Session) {bytes : List Byte}
    (h : bytes.length = bulkHeaderSize) :
    (s.rewriteTransId which bytes).2.length = bulkHeaderSize := by
  have hset : ∀ t, (setTransId bytes t).length = bulkHeaderSize := by
    intro t
    rw [setTransId, List.length_append, List.length_append, FixedCodec.length_encode,
      List.length_take, List.length_drop, h]
    rfl
  cases which with
  | rx => exact hset _
  | tx => exact hset _
  | send => exact hset _
  | self => exact h

end Cursor

/-! ### The cursor and `parse` -/

/-- A header is read off the front of the data. -/
private theorem readHeader_front {front rest : List Byte} (h : front.length = bulkHeaderSize) :
    readHeader (front ++ rest) = readHeader front := by
  have hsize : bulkHeaderSize = 12 := rfl
  rw [readHeader, containerLength_append (by omega), containerType_append (by omega),
    containerCode_append (by omega), containerTransId_append (by omega)]
  rfl

namespace Cursor

variable {which : Parser} {serving : Bool} {c d : Cursor}

/-- What the data are when the call is over. -/
def parsed (c d : Cursor) : Parsed :=
  ⟨d.machine, d.session, readMem d.mem c.data c.length, d.done⟩

/-- The default case is `parsePhase`, provided that `next` does the passes after it. -/
theorem parsePhase_eq {next : StateMachine → Session → Bool → List Byte → Option Parsed}
    (hlt : c.length < 2 ^ 32) (hle : ∀ o, c.offset = some o → o ≤ c.length)
    (hpending : c.offset = none → d = c.body which serving)
    (hnext : c.offset ≠ none → next (c.body which serving).machine
      (c.body which serving).session (c.body which serving).done
      (readMem (c.body which serving).mem (c.body which serving).data
        (c.body which serving).length) = some ((c.body which serving).parsed d))
    (hframe : ∀ x < (c.body which serving).data, d.mem x = (c.body which serving).mem x) :
    parsePhase which serving next c.machine c.session c.done (readMem c.mem c.data c.length) =
      some (c.parsed d) := by
  have hlength : (readMem c.mem c.data c.length).length = c.length := length_readMem ..
  cases ho : c.offset with
  | none =>
    rw [parsePhase, hlength, if_pos (lt_of_offset_eq_none ho), parsed, hpending ho,
      body_of_none _ _ ho]
  | some o =>
    have hole := hle o ho
    obtain ⟨hnot, hval⟩ := of_offset_eq_some ho
    have hbody := body_of_some which serving ho hole hlt
    have hfront : (readMem c.mem c.data o).length = o := length_readMem ..
    have hsplit : readMem c.mem c.data c.length =
        readMem c.mem c.data o ++ readMem c.mem (c.data + o) (c.length - o) := by
      rw [← readMem_add, Nat.add_sub_cancel' hole]
    have hmem : readMem d.mem c.data c.length =
        readMem c.mem c.data o ++ readMem d.mem (c.data + o) (c.length - o) := by
      rw [hbody] at hframe
      rw [← readMem_congr fun x _ hx => hframe x hx, ← readMem_add, Nat.add_sub_cancel' hole]
    have hnext := hnext (by simp [ho])
    rw [hbody] at hnext
    rw [parsePhase, hlength, if_neg hnot]
    simp only [hval]
    rw [if_neg (not_lt.mpr hole), hsplit, List.take_left' hfront, List.drop_left' hfront]
    by_cases hr : c.machine.state = .response
    · simp only [hr, if_true, decide_true, Bool.true_or] at hnext ⊢
      rw [hnext]
      simp [parsed, Parsed.prepend, hmem]
    · simp only [hr, if_false, decide_false, Bool.false_or] at hnext ⊢
      rw [hnext]
      simp [parsed, Parsed.prepend, hmem]

/-- The pointer does not move back, and what is behind it stays as it is. -/
structure Ahead (c c' : Cursor) : Prop where
  data : c.data ≤ c'.data
  mem : ∀ x < c.data, c'.mem x = c.mem x

theorem ahead_header : c.Ahead (c.header which) := by
  rw [header]
  split
  · split
    · exact ⟨le_rfl, fun _ _ => rfl⟩
    · dsimp only
      split
      · refine ⟨by dsimp only; omega, fun x hx => writeMem_outside ?_⟩
        omega
      · refine ⟨by dsimp only; omega, fun x hx => writeMem_outside ?_⟩
        omega
  · exact ⟨le_rfl, fun _ _ => rfl⟩

theorem ahead_body : c.Ahead (c.body which serving) := by
  rw [body]
  split
  · exact ⟨le_rfl, fun _ _ => rfl⟩
  · dsimp only
    split <;> exact ⟨by dsimp only; omega, fun _ _ => rfl⟩

theorem Ahead.trans {e : Cursor} (h : c.Ahead d) (h' : d.Ahead e) : c.Ahead e :=
  ⟨h.data.trans h'.data, fun x hx => (h'.mem x (hx.trans_le h.data)).trans (h.mem x hx)⟩

theorem ahead_pass (h : c.pass which serving = some d) : c.Ahead d := by
  rw [pass] at h
  split at h
  · cases h
  · split at h
    · exact Option.some.inj h ▸ ahead_header
    · exact Option.some.inj h ▸ ahead_header.trans ahead_body

theorem ahead_of_reaches (h : Reaches (pass which serving) c d) : c.Ahead d :=
  Loop.invariant (fun _ _ hs hpass => hs.trans (ahead_pass hpass)) ⟨le_rfl, fun _ _ => rfl⟩ h

theorem returned_header_of_lt (hb : c.Between) (hlen : c.length < bulkHeaderSize) :
    (c.header which).returned = true := by
  rw [header, if_pos hb, if_pos hlen]

variable (which) in
theorem header_moves (hb : c.Between) (hlen : bulkHeaderSize ≤ c.length) :
    (c.header which).data = c.data + bulkHeaderSize ∧
      (c.header which).length = c.length - bulkHeaderSize := by
  rw [header, if_pos hb, if_neg (not_lt.mpr hlen)]
  dsimp only
  split <;> exact ⟨rfl, rfl⟩

/-- A pass of `parseLoop` between two containers. -/
private theorem parseLoop_between {m : StateMachine} {s : Session} {done : Bool}
    {data : List Byte} (n : ℕ) (hne : data ≠ []) (hm : m.state = .waitResponse ∨ m.state = .none) :
    parseLoop which serving (n + 1) m s done data =
      if data.length < bulkHeaderSize then some ⟨m, s.bypass, data, false⟩
      else
        let ptpdu := readHeader data
        let rewritten := (s.checkNewSession which ptpdu).rewriteTransId which
          (data.take bulkHeaderSize)
        match phaseOf ptpdu.type with
        | none => some ⟨⟨.unknown, bulkHeaderSize, ptpdu⟩, rewritten.1.bypass,
            rewritten.2 ++ data.drop bulkHeaderSize, false⟩
        | some state =>
          (parsePhase which serving (parseLoop which serving n) ⟨state, bulkHeaderSize, ptpdu⟩
            rewritten.1 done (data.drop bulkHeaderSize)).map (·.prepend rewritten.2) := by
  cases data with
  | nil => exact absurd rfl hne
  | cons b data => exact if_pos hm

/-- The pass of `parseLoop` that reads a header, which is what `Cursor.header` does. -/
theorem parseLoop_header_eq {n : ℕ} (hb : c.Between) (hlen : bulkHeaderSize ≤ c.length) :
    parseLoop which serving (n + 1) c.machine c.session c.done
        (readMem c.mem c.data c.length) =
      if (c.header which).returned then some (c.parsed (c.header which))
      else (parsePhase which serving (parseLoop which serving n) (c.header which).machine
        (c.header which).session (c.header which).done
        (readMem (c.header which).mem (c.header which).data (c.header which).length)).map
          (·.prepend (readMem (c.header which).mem c.data bulkHeaderSize)) := by
  have hfront : (readMem c.mem c.data bulkHeaderSize).length = bulkHeaderSize := length_readMem ..
  have hdata : readMem c.mem c.data c.length = readMem c.mem c.data bulkHeaderSize ++
      readMem c.mem (c.data + bulkHeaderSize) (c.length - bulkHeaderSize) := by
    rw [← readMem_add, Nat.add_sub_cancel' hlen]
  have hwritten : ∀ bytes : List Byte, bytes.length = bulkHeaderSize →
      readMem (writeMem c.mem c.data bytes) c.data bulkHeaderSize = bytes ∧
      readMem (writeMem c.mem c.data bytes) (c.data + bulkHeaderSize)
        (c.length - bulkHeaderSize) =
          readMem c.mem (c.data + bulkHeaderSize) (c.length - bulkHeaderSize) := by
    intro bytes hbytes
    refine ⟨?_, readMem_congr fun x hx _ => writeMem_outside (by rw [hbytes]; omega)⟩
    rw [readMem_writeMem hbytes.ge, ← hbytes, List.take_length]
  have hall : ∀ bytes : List Byte, bytes.length = bulkHeaderSize →
      readMem (writeMem c.mem c.data bytes) c.data c.length =
        bytes ++ readMem c.mem (c.data + bulkHeaderSize) (c.length - bulkHeaderSize) := by
    intro bytes hbytes
    obtain ⟨hfront, hrest⟩ := hwritten bytes hbytes
    calc readMem (writeMem c.mem c.data bytes) c.data c.length
        = readMem (writeMem c.mem c.data bytes) c.data
            (bulkHeaderSize + (c.length - bulkHeaderSize)) := by rw [Nat.add_sub_cancel' hlen]
      _ = bytes ++ readMem c.mem (c.data + bulkHeaderSize) (c.length - bulkHeaderSize) := by
        rw [readMem_add, hfront, hrest]
  have hlength : ¬ (readMem c.mem c.data bulkHeaderSize ++
      readMem c.mem (c.data + bulkHeaderSize) (c.length - bulkHeaderSize)).length <
        bulkHeaderSize := by
    rw [List.length_append, hfront]
    exact not_lt.mpr (Nat.le_add_right ..)
  have hne : readMem c.mem c.data bulkHeaderSize ++
      readMem c.mem (c.data + bulkHeaderSize) (c.length - bulkHeaderSize) ≠ [] :=
    List.append_ne_nil_of_left_ne_nil (List.ne_nil_of_length_pos (by rw [hfront]; decide)) _
  have hheader : c.header which = _ := (if_pos hb).trans (if_neg (not_lt.mpr hlen))
  rw [parsed, hheader, hdata, parseLoop_between n hne hb, if_neg hlength]
  simp only [readHeader_front hfront, List.take_left' hfront, List.drop_left' hfront]
  have hrewritten := length_rewriteTransId which
    (c.session.checkNewSession which (readHeader (readMem c.mem c.data bulkHeaderSize))) hfront
  cases phaseOf (readHeader (readMem c.mem c.data bulkHeaderSize)).type with
  | none =>
    simp only [if_true]
    rw [hall _ hrewritten]
  | some state =>
    simp only [Bool.false_eq_true, if_false]
    rw [(hwritten _ hrewritten).1, (hwritten _ hrewritten).2]

/-- A pass after which the function returns. -/
private theorem parseLoop_returned {n : ℕ} (hb : c.Between) (hne : c.length ≠ 0)
    (hret : (c.header which).returned = true) :
    parseLoop which serving (n + 1) c.machine c.session c.done
      (readMem c.mem c.data c.length) = some (c.parsed (c.header which)) := by
  have hlength : (readMem c.mem c.data c.length).length = c.length := length_readMem ..
  by_cases hlen : c.length < bulkHeaderSize
  · have hheader : c.header which = _ := (if_pos hb).trans (if_pos hlen)
    have hdata : readMem c.mem c.data c.length ≠ [] :=
      List.ne_nil_of_length_pos (by rw [hlength]; omega)
    rw [parseLoop_between n hdata hb, if_pos (by rwa [hlength]), parsed, hheader]
  · rw [parseLoop_header_eq hb (not_lt.mp hlen), if_pos hret]

/-- The passes of the loop, from any of them on. -/
theorem parseLoop_eq {total : ℕ} (hsafe : Loop.Safe (pass which serving) (Within which total) c)
    (hreach : Reaches (pass which serving) c d) (hend : d.pass which serving = none)
    (hret : c.returned = false) (hlt : c.length < 2 ^ 32) {n : ℕ}
    (hn : c.length + (if c.Between then 0 else 1) ≤ n ∨ c.length = 0) :
    parseLoop which serving n c.machine c.session c.done (readMem c.mem c.data c.length) =
      some (c.parsed d) := by
  induction n generalizing c with
  | zero =>
    have hzero : c.length = 0 := by omega
    obtain rfl := Loop.eq_of_reaches (pass_of_length hzero) hreach
    rw [hzero, parsed, hzero]
    rfl
  | succ n ih =>
    by_cases hzero : c.length = 0
    · obtain rfl := Loop.eq_of_reaches (pass_of_length hzero) hreach
      rw [hzero, parsed, hzero]
      rfl
    · have hwithin := hsafe.2 c .refl
      have hstep : (c.header which).returned = false →
          c.pass which serving = some ((c.header which).body which serving) := by
        intro hret'
        rw [pass, if_neg (by simp [hret, hzero]), if_neg (by simp [hret'])]
      -- what the passes after the default case come to
      have hbody : ∀ e : Cursor, e = c.header which → e.returned = false → e.length ≤ c.length →
          (c.Between → e.length < c.length) →
          parsePhase which serving (parseLoop which serving n) e.machine e.session e.done
            (readMem e.mem e.data e.length) = some (e.parsed d) := by
        rintro e rfl hret' hle hshorter
        have hreach' := Loop.reaches_of_pass (hstep hret') hreach hend
        have hole := hwithin.remaining hret hzero hret'
        refine parsePhase_eq (by omega) hole (fun ho => ?_) (fun ho => ?_) ?_
        · refine Loop.eq_of_reaches (pass_of_length ?_) hreach'
          rw [body_of_none _ _ ho]
        · obtain ⟨o, ho⟩ := Option.ne_none_iff_exists'.mp ho
          have heq := body_of_some which serving ho (hole o ho) (by omega)
          have hbetween := between_body which serving ho (hole o ho)
            (by omega)
          refine ih (hsafe.of_reaches (.single (hstep hret'))) hreach' (by rw [heq]; exact hret')
            (by rw [heq]; dsimp only; omega) (.inl ?_)
          rw [if_pos hbetween, heq]
          split at hn
          next hb =>
            have := hshorter hb
            dsimp only
            omega
          next =>
            dsimp only
            omega
        · exact (ahead_of_reaches hreach').mem
      by_cases hb : c.Between
      · by_cases hret' : (c.header which).returned = true
        · have hpass : c.pass which serving = some (c.header which) := by
            rw [pass, if_neg (by simp [hret, hzero]), if_pos hret']
          obtain rfl := Loop.eq_of_reaches (pass_of_returned hret')
            (Loop.reaches_of_pass hpass hreach hend)
          exact parseLoop_returned hb hzero hret'
        · have hlen : bulkHeaderSize ≤ c.length := by
            by_contra hshort
            exact hret' (returned_header_of_lt hb (not_le.mp hshort))
          obtain ⟨hdata, hlength⟩ := header_moves which hb hlen
          rw [Bool.not_eq_true] at hret'
          have hmem : readMem d.mem c.data bulkHeaderSize =
              readMem (c.header which).mem c.data bulkHeaderSize := by
            have hahead := (ahead_body (c := c.header which)).trans
              (ahead_of_reaches (Loop.reaches_of_pass (hstep hret') hreach hend))
            exact readMem_congr fun x _ hx => hahead.mem x (by rw [hdata]; exact hx)
          have hshorter : (c.header which).length < c.length := by
            have hsize : bulkHeaderSize = 12 := rfl
            omega
          rw [parseLoop_header_eq hb hlen, if_neg (by simp [hret']),
            hbody _ rfl hret' hshorter.le fun _ => hshorter, Option.map_some, Parsed.prepend,
            parsed, parsed, hdata, hlength, ← hmem, ← readMem_add, Nat.add_sub_cancel' hlen]
      · have hne : readMem c.mem c.data c.length ≠ [] :=
          List.ne_nil_of_length_pos (by rw [length_readMem]; omega)
        rw [parseLoop_inside hne hb]
        exact hbody c (header_of_inside hb).symm hret le_rfl fun h => absurd h hb

end Cursor

/-- **The cursor does what `parse` says**: a safe call ends, and leaves what `parse` leaves. -/
theorem parse_of_safe {which : Parser} {serving : Bool} {m : StateMachine} {s : Session}
    {mem : ℤ → Byte} {length : ℕ} (h : SafeParse which serving m s mem length)
    (hlt : length < 2 ^ 32) :
    ∃ c, Reaches (Cursor.pass which serving) (.start m s mem length) c ∧
      c.pass which serving = none ∧ parse which serving m s (readMem mem 0 length) =
        some ⟨c.machine, c.session, readMem c.mem 0 length, c.done⟩ := by
  obtain ⟨c, hreach, hend⟩ := Loop.ends_iff.mp h.1
  refine ⟨c, hreach, hend, ?_⟩
  rw [parse, length_readMem]
  refine Cursor.parseLoop_eq h hreach hend rfl hlt ?_
  by_cases hzero : length = 0
  · exact .inr hzero
  · left
    change length + _ ≤ _
    split <;> omega

end Usbip.Ptp
