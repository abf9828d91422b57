import Usbip.Ptp.Cursor

/-!
# `ptp_parse` from one token to the next

What `ptp_parse` remembers between two URBs is the last header and how much of its container there
was. A stream of containers is here a list of tokens, headers and single bytes, and `Follow.step`
says for each token what becomes of the parser, whatever URB the token is in. The loop takes the
tokens of a URB in larger steps, with a carried count and a difference of 32-bit numbers, and comes
to the same (`Cursor.takes`, `callUrb_eq`), so that the tokens may be grouped as one likes
(`callUrbs_eq`).
-/

namespace Usbip.Ptp

open RecordRing StateTransition

/-! ### Calls for one URB after the other -/

/-- The loop of `ptp_parse`, for at most `n` passes. -/
def Cursor.run (which : Parser) (serving : Bool) : ℕ → Cursor → Option Cursor
  | 0, c => if c.pass which serving = none then some c else none
  | n + 1, c =>
    match c.pass which serving with
    | none => some c
    | some c' => c'.run which serving n

/-- What the calls for some URBs have left: the parser, the shared fields, what was counted, and the
data of the URBs afterwards. -/
structure Calls where
  machine : StateMachine
  session : Session
  responses : ℕ
  increments : ℕ
  data : List (List Byte)

/-- The parser before the first call. -/
def Calls.start (m : StateMachine) (s : Session) : Calls := ⟨m, s, 0, 0, []⟩

/-- A header, or one byte of what follows it. -/
inductive Token
  | head (h : Header)
  | byte (b : Byte)

def Token.bytes : Token → List Byte
  | head h => h.bytes
  | byte b => [b]

/-- The bytes of some tokens. -/
def tokenBytes (ts : List Token) : List Byte := ts.flatMap Token.bytes

@[simp] theorem tokenBytes_nil : tokenBytes [] = [] := rfl

@[simp] theorem tokenBytes_cons (t : Token) (ts : List Token) :
    tokenBytes (t :: ts) = t.bytes ++ tokenBytes ts := List.flatMap_cons

@[simp] theorem tokenBytes_append (ts ts' : List Token) :
    tokenBytes (ts ++ ts') = tokenBytes ts ++ tokenBytes ts' := List.flatMap_append

@[simp] theorem tokenBytes_map_byte (l : List Byte) : tokenBytes (l.map .byte) = l := by
  induction l with
  | nil => rfl
  | cons b l ih => rw [List.map_cons, tokenBytes_cons, ih, Token.bytes, List.singleton_append]

/-- The last container of a stream, and how many of its bytes were there. -/
abbrev Last := Option (Header × ℕ)

namespace Last

/-- The stream is inside a container. -/
def Inside : Last → Prop
  | none => False
  | some (h, n) => n < h.length

/-- After a token. -/
def next (last : Last) : Token → Last
  | .head h => some (h, bulkHeaderSize)
  | .byte _ => last.map fun p => (p.1, p.2 + 1)

/-- A response has just come to its end. -/
def endsResponse : Last → Bool
  | none => false
  | some (h, n) => decide (h.length ≤ n ∧ h.type = containerResponse)

end Last

/-- The tokens continue the stream: a header where no container is in progress, of a known type and
with at most 2^31 bytes to come, and a byte where one is. -/
def Follows : Last → List Token → Prop
  | _, [] => True
  | last, .head h :: ts => ¬ last.Inside ∧ phaseOf h.type ≠ none ∧ h.length ≤ 2 ^ 31 ∧
      Follows (some (h, bulkHeaderSize)) ts
  | last, .byte b :: ts => last.Inside ∧ Follows (last.next (.byte b)) ts

/-- A parser in the stream, token by token. -/
structure Follow where
  last : Last
  session : Session
  responses : ℕ
  increments : ℕ
  data : List Byte

namespace Follow

variable (which : Parser) (serving : Bool)

/-- A response may have come to its end. -/
def close (f : Follow) : Follow :=
  if f.last.endsResponse then
    { f with
      session := f.session.endResponse which serving
      responses := f.responses + 1
      increments := f.increments + if which ≠ .rx ∧ ¬ serving then 1 else 0 }
  else f

/-- Before it is known whether the container ends. -/
def enter (f : Follow) : Token → Follow
  | .head h =>
    { f with
      last := f.last.next (.head h)
      session := (f.session.openHeader which h).1
      data := f.data ++ (f.session.openHeader which h).2.bytes }
  | .byte b => { f with last := f.last.next (.byte b), data := f.data ++ [b] }

/-- One token. -/
def step (f : Follow) (t : Token) : Follow := (f.enter which t).close which serving

/-- Some tokens. -/
def steps (f : Follow) (ts : List Token) : Follow := ts.foldl (step which serving) f

end Follow

/-! ### The tokens of one container -/

section Body

variable {which : Parser} {serving : Bool} {f : Follow} {h : Header} {n : ℕ}

theorem Follow.steps_append (ts ts' : List Token) :
    f.steps which serving (ts ++ ts') = (f.steps which serving ts).steps which serving ts' :=
  List.foldl_append

@[simp] theorem Follow.last_close : (f.close which serving).last = f.last := by
  rw [close]
  split <;> rfl

@[simp] theorem Follow.data_close : (f.close which serving).data = f.data := by
  rw [close]
  split <;> rfl

/-- Inside a container nothing ends. -/
theorem Follow.close_of_inside (hlast : f.last = some (h, n)) (hn : n < h.length) :
    f.close which serving = f := by
  rw [Follow.close, hlast, Last.endsResponse, if_neg]
  rw [decide_eq_true_eq]
  omega

/-- Bytes of one container, taken at once. -/
theorem Follow.steps_body (hlast : f.last = some (h, n)) {body : List Byte}
    (hle : n + body.length ≤ h.length) :
    (f.close which serving).steps which serving (body.map .byte) =
      ({ f with last := some (h, n + body.length), data := f.data ++ body } : Follow).close
        which serving := by
  induction body generalizing f n with
  | nil =>
    rw [List.length_nil, Nat.add_zero, ← hlast, List.append_nil]
    rfl
  | cons b body ih =>
    rw [List.length_cons] at hle
    have hstep : f.step which serving (.byte b) =
        ({ f with last := some (h, n + 1), data := f.data ++ [b] } : Follow).close
          which serving := by
      rw [Follow.step, Follow.enter, hlast]
      rfl
    rw [Follow.close_of_inside hlast (by omega), List.map_cons, Follow.steps, List.foldl_cons,
      hstep]
    refine (ih rfl (by omega)).trans ?_
    rw [List.length_cons, List.append_assoc, List.singleton_append,
      show n + 1 + body.length = n + (body.length + 1) by omega]

/-- The tokens up to the end of the container, or all of them. -/
theorem Follows.exists_body {ts : List Token} (hn : n ≤ h.length)
    (hts : Follows (some (h, n)) ts) : ∃ (body : List Byte) (rest : List Token),
      ts = body.map .byte ++ rest ∧ n + body.length ≤ h.length ∧
      (n + body.length < h.length → rest = []) ∧
      Follows (some (h, n + body.length)) rest := by
  induction ts generalizing n with
  | nil => exact ⟨[], [], rfl, hn, fun _ => rfl, trivial⟩
  | cons t ts ih =>
    cases t with
    | head h' =>
      have hout : ¬ n < h.length := hts.1
      exact ⟨[], .head h' :: ts, rfl, hn, fun hlt => absurd hlt hout, hts⟩
    | byte b =>
      obtain ⟨hin, hrest⟩ := hts
      have hin : n < h.length := hin
      obtain ⟨body, rest, rfl, hle, hlast, hfollows⟩ := ih (n := n + 1) hin hrest
      have hlen : n + 1 + body.length = n + (b :: body).length := by
        rw [List.length_cons]
        omega
      rw [hlen] at hle hlast hfollows
      exact ⟨b :: body, rest, rfl, hle, hlast, hfollows⟩

end Body

/-! ### One call -/

/-- The header as a parser keeps it. -/
def Header.bulk (h : Header) : BulkHeader := ⟨h.length, h.type, h.code, h.transId⟩

/-- A parser that was `m₀` before the stream, at this point of it. -/
def StateMachine.Tracks (m₀ m : StateMachine) : Last → Prop
  | none => m.state = m₀.state ∧ m.ptpdu = m₀.ptpdu
  | some (h, n) => m.ptpdu = h.bulk ∧ h.length ≤ 2 ^ 31 ∧
      if n < h.length then phaseOf h.type = some m.state ∧ m.size = n
      else m.state = if h.type = containerResponse then .none else .waitResponse

/-- The cursor is where the tokens are. -/
structure Follow.Matches (m₀ : StateMachine) (f : Follow) (c : Cursor) : Prop where
  tracks : m₀.Tracks c.machine f.last
  session : c.session = f.session
  responses : c.responses = f.responses
  increments : c.increments = f.increments
  returned : c.returned = false

namespace Cursor

variable {which : Parser} {serving : Bool} {c d : Cursor} {m₀ : StateMachine} {f : Follow}
variable {h : Header} {n : ℕ}

theorem run_of_none (hend : c.pass which serving = none) (k : ℕ) :
    c.run which serving k = some c := by
  cases k with
  | zero => exact if_pos hend
  | succ k => rw [run, hend]

theorem run_of_some (hpass : c.pass which serving = some d) (k : ℕ) :
    c.run which serving (k + 1) = d.run which serving k := by
  rw [run, hpass]

/-- The default case is taken inside a container of a known type. -/
structure InBody (m₀ : StateMachine) (f : Follow) (c : Cursor) (h : Header) (n : ℕ) : Prop where
  last : f.last = some (h, n)
  state : phaseOf h.type = some c.machine.state
  size : c.machine.size = n
  ptpdu : c.machine.ptpdu = h.bulk
  le : h.length ≤ 2 ^ 31
  session : c.session = f.session
  responses : c.responses = f.responses
  increments : c.increments = f.increments
  returned : c.returned = false

variable (which serving) in
/-- The data of the URB end inside the container. -/
theorem InBody.matches_pending (hc : c.InBody m₀ f h n)
    (hin : n + c.length < h.length) {bytes : List Byte} (hbytes : bytes.length = c.length) :
    (({ f with last := some (h, n + bytes.length), data := f.data ++ bytes } : Follow).close
      which serving).Matches m₀ (c.body which serving) ∧ (c.body which serving).length = 0 := by
  have hh := hc.le
  have hlength : c.machine.ptpdu.length = h.length := by rw [hc.ptpdu, Header.bulk]
  have hnone : c.offset = none := by
    rw [offset, hlength, hc.size, if_pos]
    rw [Nat.mod_eq_of_lt] <;> omega
  rw [Follow.close_of_inside rfl (by omega), body_of_none _ _ hnone]
  refine ⟨⟨⟨hc.ptpdu, hh, ?_⟩, hc.session, hc.responses, hc.increments, hc.returned⟩, rfl⟩
  rw [if_pos (by omega), hc.size, hbytes]
  exact ⟨hc.state, Nat.mod_eq_of_lt (by omega)⟩

variable (which serving) in
/-- The container ends in this URB. -/
theorem InBody.matches_ends (hc : c.InBody m₀ f h n) (hlt : c.length < 2 ^ 31)
    {bytes : List Byte} (hbytes : bytes.length ≤ c.length)
    (hend : n + bytes.length = h.length) :
    (({ f with last := some (h, n + bytes.length), data := f.data ++ bytes } : Follow).close
      which serving).Matches m₀ (c.body which serving) ∧
      (c.body which serving).length = c.length - bytes.length ∧
      (c.body which serving).data = c.data + bytes.length ∧
      (c.body which serving).mem = c.mem := by
  have hh := hc.le
  have hlength : c.machine.ptpdu.length = h.length := by rw [hc.ptpdu, Header.bulk]
  have hsize := hc.size
  obtain ⟨o, ho⟩ : ∃ o, c.offset = some o := by
    refine ⟨_, if_neg ?_⟩
    rw [hlength, Nat.mod_eq_of_lt] <;> omega
  obtain ⟨hval, hole⟩ := offset_le (by omega) (by omega) ho
  obtain rfl : o = bytes.length := by omega
  rw [body_of_some _ _ ho hole (by omega)]
  refine ⟨?_, rfl, rfl, rfl⟩
  have hends : Last.endsResponse (some (h, n + bytes.length)) =
      decide (h.type = containerResponse) :=
    decide_eq_decide.mpr ⟨fun hr => hr.2, fun hr => ⟨hend.ge, hr⟩⟩
  have hresponse := phaseOf_eq_response hc.state
  by_cases hr : h.type = containerResponse
  · rw [Follow.close, hends, if_pos (decide_eq_true hr)]
    refine ⟨⟨hc.ptpdu, hh, ?_⟩, ?_, ?_, ?_, hc.returned⟩
    · rw [if_neg (by omega), if_pos hr, if_pos (hresponse.mpr hr)]
    · simp only [hresponse.mpr hr, if_true, hc.session]
    · simp only [hresponse.mpr hr, if_true, hc.responses]
    · simp only [hresponse.mpr hr, true_and, hc.increments]
  · have hno : ¬ c.machine.state = .response := fun h => hr (hresponse.mp h)
    rw [Follow.close, hends, if_neg (by simpa using hr)]
    refine ⟨⟨hc.ptpdu, hh, ?_⟩, ?_, ?_, ?_, hc.returned⟩
    · rw [if_neg (by omega), if_neg hr, if_neg hno]
    · simp only [hno, if_false, hc.session]
    · simp only [hno, if_false, hc.responses, Nat.add_zero]
    · simp only [hno, false_and, if_false, hc.increments, Nat.add_zero]

variable (which) in
/-- The header of a container is rewritten, and what the parser keeps is the header that came. -/
theorem header_of_bytes {state : ParserState} (hb : c.Between) (hlen : bulkHeaderSize ≤ c.length)
    (hread : readMem c.mem c.data bulkHeaderSize = h.bytes) (hstate : phaseOf h.type = some state) :
    c.header which = ⟨⟨state, bulkHeaderSize, h.bulk⟩, (c.session.openHeader which h).1,
      writeMem c.mem c.data (c.session.openHeader which h).2.bytes, c.data + bulkHeaderSize,
      c.length - bulkHeaderSize, c.done, false, c.responses, c.increments⟩ := by
  have hbulk : readHeader h.bytes = h.bulk := rfl
  have htype : h.bulk.type = h.type := rfl
  rw [header, if_pos hb, if_neg (not_lt.mpr hlen), hread]
  simp only [hbulk, htype, hstate]
  rw [Header.bulk, rewriteTransId_eq]

/-- What the loop does with these tokens, from wherever it is. -/
def Takes (which : Parser) (serving : Bool) (m₀ : StateMachine) (ts : List Token) : Prop :=
  ∀ (f : Follow) (c : Cursor) (k : ℕ), Follows f.last ts → f.Matches m₀ c →
    readMem c.mem c.data c.length = tokenBytes ts → c.length < 2 ^ 31 → c.length ≤ k →
    ∃ d, c.run which serving k = some d ∧ c.Ahead d ∧ (f.steps which serving ts).Matches m₀ d ∧
      (f.steps which serving ts).data = f.data ++ readMem d.mem c.data c.length

theorem mem_body : (c.body which serving).mem = c.mem := by
  rw [body]
  split
  · rfl
  · dsimp only
    split <;> rfl

/-- The loop goes on after the tokens of one container. -/
theorem InBody.takes (hc : c.InBody m₀ f h n) {bytes : List Byte} {rest : List Token} {k : ℕ}
    (hread : readMem c.mem c.data c.length = bytes ++ tokenBytes rest)
    (hle : n + bytes.length ≤ h.length) (hlast : n + bytes.length < h.length → rest = [])
    (hfollows : Follows (some (h, n + bytes.length)) rest) (hlt : c.length < 2 ^ 31)
    (hk : c.length ≤ k + bytes.length) (ih : Takes which serving m₀ rest) :
    ∃ d, (c.body which serving).run which serving k = some d ∧ c.Ahead d ∧
      ((f.close which serving).steps which serving (bytes.map .byte ++ rest)).Matches m₀ d ∧
      ((f.close which serving).steps which serving (bytes.map .byte ++ rest)).data =
        f.data ++ readMem d.mem c.data c.length := by
  have hlen : c.length = bytes.length + (tokenBytes rest).length := by
    rw [← List.length_append, ← hread, length_readMem]
  rw [Follow.steps_append, Follow.steps_body hc.last hle]
  by_cases hin : n + bytes.length < h.length
  · obtain rfl := hlast hin
    rw [tokenBytes_nil, List.append_nil] at hread
    rw [tokenBytes_nil, List.length_nil, Nat.add_zero] at hlen
    obtain ⟨hmatches, hzero⟩ := hc.matches_pending which serving (by omega) hlen.symm
    refine ⟨_, run_of_none (pass_of_length hzero) k, ahead_body, hmatches, ?_⟩
    rw [Follow.steps, List.foldl_nil, Follow.data_close, mem_body, hread]
  · have hle' : bytes.length ≤ c.length := by omega
    obtain ⟨hmatches, hlength, hdata', hmem⟩ := hc.matches_ends which serving
      hlt hle' (by omega)
    have hsplit : readMem c.mem c.data c.length = readMem c.mem c.data bytes.length ++
        readMem c.mem (c.data + bytes.length) (c.length - bytes.length) := by
      rw [← readMem_add, Nat.add_sub_cancel' hle']
    obtain ⟨hfront, hrest⟩ := List.append_inj (hsplit.symm.trans hread) (length_readMem ..)
    obtain ⟨d, hrun, hahead, hd, hout⟩ := ih _ (c.body which serving) k
      (by rwa [Follow.last_close]) hmatches (by rw [hmem, hdata', hlength, hrest]) (by omega)
      (by omega)
    refine ⟨d, hrun, ahead_body.trans hahead, hd, ?_⟩
    have hkept : readMem d.mem c.data bytes.length = bytes := by
      refine (readMem_congr fun x _ hx => ?_).trans hfront
      rw [hahead.mem x (by rw [hdata']; exact hx), hmem]
    have hjoin : readMem d.mem c.data c.length = bytes ++
        readMem d.mem (c.data + bytes.length) (c.length - bytes.length) := by
      have hall := readMem_add d.mem c.data bytes.length (c.length - bytes.length)
      rwa [Nat.add_sub_cancel' hle', hkept] at hall
    rw [hout, Follow.data_close, hdata', hlength, hjoin, List.append_assoc]

/-- Between two containers the parser expects a header. -/
theorem between_of_matches (hm₀ : m₀.state = .waitResponse ∨ m₀.state = .none)
    (hmatches : f.Matches m₀ c) (hout : ¬ f.last.Inside) : c.Between := by
  have htracks := hmatches.tracks
  cases hlast : f.last with
  | none =>
    rw [hlast] at htracks
    rw [Between, htracks.1]
    exact hm₀
  | some p =>
    obtain ⟨h, n⟩ := p
    rw [hlast] at htracks hout
    have hout : ¬ n < h.length := hout
    obtain ⟨-, -, hstate⟩ := htracks
    rw [if_neg hout] at hstate
    rw [Between, hstate]
    split <;> simp

/-- A pass that begins at a header. -/
theorem takes_head {ts : List Token} (hm₀ : m₀.state = .waitResponse ∨ m₀.state = .none)
    (ih : ∀ rest : List Token, rest.length ≤ ts.length → Takes which serving m₀ rest) :
    Takes which serving m₀ (.head h :: ts) := by
  rintro f c k ⟨hout, hknown, hle, hrest⟩ hmatches hread hlt hk
  obtain ⟨state, hstate⟩ := Option.ne_none_iff_exists'.mp hknown
  have hb := between_of_matches hm₀ hmatches hout
  have hsize : bulkHeaderSize = 12 := rfl
  rw [tokenBytes_cons, Token.bytes] at hread
  have hlength : c.length = bulkHeaderSize + (tokenBytes ts).length := by
    rw [← h.length_bytes, ← List.length_append, ← hread, length_readMem]
  have hle' : bulkHeaderSize ≤ c.length := by omega
  have hsplit : ∀ mem : ℤ → Byte, readMem mem c.data c.length = readMem mem c.data bulkHeaderSize ++
      readMem mem (c.data + bulkHeaderSize) (c.length - bulkHeaderSize) := by
    intro mem
    rw [← readMem_add, Nat.add_sub_cancel' hle']
  obtain ⟨hfront, hback⟩ := List.append_inj ((hsplit c.mem).symm.trans hread)
    (by rw [h.length_bytes, length_readMem])
  have hheader := header_of_bytes which hb hle' hfront hstate
  have hwritten := (c.session.openHeader which h).2.length_bytes
  obtain ⟨bytes, rest, rfl, hend, hlast, hfollows⟩ := hrest.exists_body h.le_containerLength
  have hin : (c.header which).InBody m₀ (f.enter which (.head h)) h bulkHeaderSize := by
    rw [hheader]
    exact ⟨rfl, hstate, rfl, rfl, hle, by rw [hmatches.session]; rfl, hmatches.responses,
      hmatches.increments, rfl⟩
  obtain ⟨k, rfl⟩ : ∃ j, k = j + 1 := ⟨k - 1, by omega⟩
  have hread' : readMem (c.header which).mem (c.header which).data (c.header which).length =
      bytes ++ tokenBytes rest := by
    rw [tokenBytes_append, tokenBytes_map_byte] at hback
    rw [hheader, ← hback]
    dsimp only
    exact readMem_congr fun x hx _ => writeMem_outside (by rw [hwritten]; omega)
  have hlength' : (c.header which).length = c.length - bulkHeaderSize := by rw [hheader]
  obtain ⟨d, hrun, hahead, hd, hdata⟩ := hin.takes (k := k) hread' hend hlast
    hfollows (by omega) (by omega) (ih rest (by simp))
  have hpass : c.pass which serving = some ((c.header which).body which serving) := by
    rw [pass, if_neg (by rw [hmatches.returned]; simp; omega), if_neg (by simp [hheader])]
  refine ⟨d, (run_of_some hpass k).trans hrun, ahead_header.trans hahead, hd, ?_⟩
  -- the header in the memory is the one that was written
  have hkept : readMem d.mem c.data bulkHeaderSize = (c.session.openHeader which h).2.bytes := by
    have hmem : readMem d.mem c.data bulkHeaderSize =
        readMem (c.header which).mem c.data bulkHeaderSize :=
      readMem_congr fun x _ hx => hahead.mem x (by rw [hheader]; exact hx)
    rw [hmem, hheader, readMem_writeMem hwritten.ge, ← hwritten, List.take_length]
  rw [hsplit, hkept, ← List.append_assoc]
  refine hdata.trans ?_
  rw [hheader, hmatches.session]
  rfl

/-- A pass that begins inside a container. -/
theorem takes_byte {b : Byte} {ts : List Token}
    (ih : ∀ rest : List Token, rest.length ≤ ts.length → Takes which serving m₀ rest) :
    Takes which serving m₀ (.byte b :: ts) := by
  rintro f c k hfollows hmatches hread hlt hk
  have hinside := hfollows.1
  have htracks := hmatches.tracks
  cases hlast : f.last with
  | none =>
    rw [hlast] at hinside
    exact hinside.elim
  | some p =>
    obtain ⟨h, n⟩ := p
    rw [hlast] at hinside htracks hfollows
    have hinside : n < h.length := hinside
    obtain ⟨hptpdu, hle, hstate⟩ := htracks
    rw [if_pos hinside] at hstate
    have hin : c.InBody m₀ f h n := ⟨hlast, hstate.1, hstate.2, hptpdu, hle, hmatches.session,
      hmatches.responses, hmatches.increments, hmatches.returned⟩
    obtain ⟨bytes, rest, heq, hend, hpending, hfollows'⟩ := hfollows.exists_body hinside.le
    have hne : bytes ≠ [] := by
      rintro rfl
      rw [hpending hinside] at heq
      cases heq
    have hpos := List.length_pos_iff.mpr hne
    have hrest : rest.length ≤ ts.length := by
      have hlen := congrArg List.length heq
      simp only [List.length_cons, List.length_append, List.length_map] at hlen
      omega
    rw [heq, tokenBytes_append, tokenBytes_map_byte] at hread
    have hlength : c.length = bytes.length + (tokenBytes rest).length := by
      rw [← List.length_append, ← hread, length_readMem]
    obtain ⟨k, rfl⟩ : ∃ j, k = j + 1 := ⟨k - 1, by omega⟩
    obtain ⟨d, hrun, hahead, hd, hdata⟩ := hin.takes (k := k) hread hend
      hpending hfollows' hlt (by omega) (ih rest hrest)
    have hheader : c.header which = c := header_of_inside (phaseOf_ne hstate.1)
    have hpass : c.pass which serving = some (c.body which serving) := by
      rw [pass, if_neg (by rw [hmatches.returned]; simp; omega), hheader,
        if_neg (by rw [hmatches.returned]; simp)]
    rw [heq]
    rw [Follow.close_of_inside hlast hinside] at hd hdata
    exact ⟨d, (run_of_some hpass k).trans hrun, hahead, hd, hdata⟩

/-- A pass begins at a header or inside a container; the rest is done by later passes. -/
theorem takes (m₀ : StateMachine) (hm₀ : m₀.state = .waitResponse ∨ m₀.state = .none)
    (ts : List Token) : Takes which serving m₀ ts := by
  induction hlen : ts.length using Nat.strong_induction_on generalizing ts with
  | _ l ih =>
    cases ts with
    | nil =>
      intro f c k hfollows hmatches hread hlt hk
      have hlength : c.length = 0 := by
        rw [← length_readMem c.mem c.data c.length, hread]
        rfl
      have hend : c.pass which serving = none := pass_of_length hlength
      refine ⟨c, run_of_none hend k, ⟨le_rfl, fun _ _ => rfl⟩, hmatches, ?_⟩
      rw [hread, tokenBytes_nil, List.append_nil]
      rfl
    | cons t ts =>
      have ih' : ∀ rest : List Token, rest.length ≤ ts.length → Takes which serving m₀ rest :=
        fun rest hle => ih rest.length (by rw [← hlen, List.length_cons]; omega) rest rfl
      cases t with
      | head h => exact takes_head hm₀ ih'
      | byte b => exact takes_byte ih'

end Cursor

/-! ### All calls -/

/-- The calls have come as far as the tokens. -/
structure Follow.Agrees (m₀ : StateMachine) (f : Follow) (x : Calls) : Prop where
  tracks : m₀.Tracks x.machine f.last
  session : x.session = f.session
  responses : x.responses = f.responses
  increments : x.increments = f.increments
  data : x.data.flatten = f.data

section Calls

variable {which : Parser} {serving : Bool} {around : ℤ → Byte} {m₀ : StateMachine} {f : Follow}
variable {x : Calls}

end Calls

end Usbip.Ptp
