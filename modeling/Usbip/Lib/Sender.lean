import Usbip.Lib.Socket
import Mathlib.Data.List.Infix

/-!
# Sending and receiving on one end of a connection

`sendLoop` is the counterpart of `recvLoop`: it offers what is left to the next send call until
nothing is left, and gives up at the first call that fails. What it has sent is a prefix of what
it was given, all of it exactly when it does not give up.

`End` is one end of a stream connection with both directions, for a program that sends and
receives in turn. All that a stream socket promises is that the bytes ready at one end are a
prefix of what the other end sends, however it cuts them and wherever it loses the connection.
`End.send_cases` and `End.recv_cases` are the rules for a program that stops at the first call
that fails; a block that it receives stands in what is ready, so also in what the other end sends.
-/

namespace Socket

/-- What a send call does: it takes at least one byte, as many as there are at most, or fails. -/
inductive Accept
  | upTo (n : ℕ+)
  | error
  deriving DecidableEq

/-- What a loop of send calls leaves: the bytes that have been sent, whether that is all, and what
the socket does next. -/
structure Sent where
  bytes : List Byte
  ok : Bool
  rest : List Accept

/-- `while (size > 0) { ret = send(buf, size); if (ret <= 0) return -1; buf += ret; size -= ret; }`.
Calls that are not listed take all that they are given. -/
def sendLoop : List Byte → List Accept → Sent
  | [], out => ⟨[], true, out⟩
  | data, [] => ⟨data, true, []⟩
  | _, .error :: out => ⟨[], false, out⟩
  | b :: bs, .upTo n :: out =>
    let r := sendLoop ((b :: bs).drop n) out
    { r with bytes := (b :: bs).take n ++ r.bytes }

variable {data : List Byte} {out : List Accept}

theorem sendLoop_isPrefix (data : List Byte) (out : List Accept) :
    (sendLoop data out).bytes <+: data := by
  induction data, out using sendLoop.induct with
  | case1 out => rw [sendLoop]
  | case2 data hne =>
    rw [sendLoop]
    exact hne
  | case3 data out hne =>
    rw [sendLoop]
    · exact List.nil_prefix
    · exact hne
  | case4 b bs n out ih =>
    rw [sendLoop]
    -- the bytes of this call, then a prefix of what is left
    have h := (List.prefix_append_right_inj ((b :: bs).take n)).mpr ih
    rwa [List.take_append_drop] at h

theorem sendLoop_ok_iff (data : List Byte) (out : List Accept) :
    (sendLoop data out).ok = true ↔ (sendLoop data out).bytes = data := by
  induction data, out using sendLoop.induct with
  | case1 out => simp [sendLoop]
  | case2 data hne =>
    obtain ⟨b, bs, rfl⟩ := List.exists_cons_of_ne_nil hne
    simp [sendLoop]
  | case3 data out hne =>
    obtain ⟨b, bs, rfl⟩ := List.exists_cons_of_ne_nil hne
    simp [sendLoop]
  | case4 b bs n out ih =>
    rw [sendLoop]
    dsimp only
    rw [ih]
    constructor
    · intro h
      rw [h, List.take_append_drop]
    · intro h
      have hsplit := (List.take_append_drop n (b :: bs)).symm
      exact List.append_cancel_left (h.trans hsplit)

/-- Where no call fails, everything is sent. -/
theorem sendLoop_of_no_error (h : .error ∉ out) :
    (sendLoop data out).ok = true ∧ .error ∉ (sendLoop data out).rest := by
  induction data, out using sendLoop.induct with
  | case1 out =>
    rw [sendLoop]
    exact ⟨rfl, h⟩
  | case2 data hne =>
    rw [sendLoop]
    · exact ⟨rfl, List.not_mem_nil⟩
    · exact hne
  | case3 data out hne => exact absurd List.mem_cons_self h
  | case4 b bs n out ih =>
    rw [sendLoop]
    exact ih fun hmem => h (List.mem_cons_of_mem _ hmem)

/-! ### Both directions -/

/-- One end of a connection: what its next receive and send calls do, and what it has sent. -/
structure End where
  input : List Outcome
  output : List Accept
  sent : List Byte

namespace End

/-- All of the bytes are sent, or the call fails. -/
def send (s : End) (data : List Byte) : Bool × End :=
  let r := sendLoop data s.output
  (r.ok, { s with output := r.rest, sent := s.sent ++ r.bytes })

/-- `n` bytes are received, or the call fails. -/
def recv (s : End) (n : ℕ) : Option (List Byte) × End :=
  if n = 0 then (some [], s)
  else
    let r := recvLoop 0 n s.input
    (if r.ret ≤ 0 then none else some r.bytes, { s with input := r.rest })

variable {s s' : End} {n : ℕ} {block : List Byte}

@[simp] theorem sent_recv (s : End) (n : ℕ) : (s.recv n).2.sent = s.sent := by
  rw [recv]
  split <;> rfl

@[simp] theorem output_recv (s : End) (n : ℕ) : (s.recv n).2.output = s.output := by
  rw [recv]
  split <;> rfl

/-- A send call sends everything, or a prefix when a call of the socket fails. -/
theorem send_cases (s : End) (data : List Byte) :
    (∃ s', s.send data = (false, s') ∧ s'.sent <+: s.sent ++ data ∧ .error ∈ s.output) ∨
      ∃ s', s.send data = (true, s') ∧ s'.sent = s.sent ++ data ∧ s'.input = s.input ∧
        (.error ∉ s.output → .error ∉ s'.output) := by
  rw [send]
  rcases hok : (sendLoop data s.output).ok with _ | _
  · refine .inl ⟨_, rfl, ?_, ?_⟩
    · exact (List.prefix_append_right_inj s.sent).mpr (sendLoop_isPrefix data s.output)
    · by_contra hno
      exact Bool.false_ne_true (hok.symm.trans (sendLoop_of_no_error hno).1)
  · refine .inr ⟨_, rfl, ?_, rfl, fun hno => (sendLoop_of_no_error hno).2⟩
    rw [(sendLoop_ok_iff data s.output).mp hok]

/-- Where no call fails, everything is sent. -/
theorem send_of_no_error (h : .error ∉ s.output) (data : List Byte) :
    ∃ s', s.send data = (true, s') ∧ s'.sent = s.sent ++ data ∧ s'.input = s.input ∧
      .error ∉ s'.output := by
  obtain ⟨_, -, -, herror⟩ | ⟨s', heq, hsent, hinput, hno⟩ := s.send_cases data
  · exact absurd herror h
  · exact ⟨s', heq, hsent, hinput, hno h⟩

/-- A receive call gives a block exactly when so many bytes are ready, and it is their front. -/
theorem recv_eq_some_iff : (s.recv n).1 = some block ↔
    n ≤ (ready s.input).length ∧ block = (ready s.input).take n := by
  rw [recv]
  split
  next hzero =>
    subst hzero
    simp [eq_comm]
  next hpos =>
    dsimp only
    rcases Nat.lt_or_ge (ready s.input).length n with hlt | hge
    · rw [recvLoop_of_lt hlt]
      dsimp only
      rw [if_pos (verdict_nonpos s.input)]
      constructor
      · intro h
        cases h
      · rintro ⟨hle, -⟩
        omega
    · obtain ⟨rest, heq, -⟩ := @recvLoop_of_le s.input 0 n (by omega) hge
      rw [heq]
      dsimp only
      rw [if_neg (by omega), Option.some.injEq]
      exact ⟨fun h => ⟨hge, h.symm⟩, fun h => h.2.symm⟩

/-- Behind it the rest of the bytes is ready. -/
theorem ready_recv (h : (s.recv n).1 = some block) :
    ready (s.recv n).2.input = (ready s.input).drop n := by
  obtain ⟨hle, -⟩ := recv_eq_some_iff.mp h
  rw [recv]
  split
  next hzero => rw [hzero, List.drop_zero]
  next hpos =>
    obtain ⟨rest, heq, hpast⟩ := @recvLoop_of_le s.input 0 n (by omega) hle
    dsimp only
    rw [heq]
    exact hpast.ready

/-- A receive call fails, or takes a block off what is ready. It sends nothing. -/
theorem recv_cases (s : End) (n : ℕ) :
    (∃ s', s.recv n = (none, s') ∧ s'.sent = s.sent) ∨
      ∃ block s', s.recv n = (some block, s') ∧ block.length = n ∧
        block ++ ready s'.input = ready s.input ∧ s'.sent = s.sent ∧ s'.output = s.output := by
  have hsent := s.sent_recv n
  have houtput := s.output_recv n
  rcases hrecv : s.recv n with ⟨_ | block, s'⟩
  · rw [hrecv] at hsent
    exact .inl ⟨s', rfl, hsent⟩
  · have hsome : (s.recv n).1 = some block := by rw [hrecv]
    have hready := ready_recv hsome
    obtain ⟨hle, hblock⟩ := recv_eq_some_iff.mp hsome
    rw [hrecv] at hsent houtput hready
    refine .inr ⟨block, s', rfl, ?_, ?_, hsent, houtput⟩
    · rw [hblock, List.length_take_of_le hle]
    · rw [hready, hblock, List.take_append_drop]

/-- A block is received when it is what is ready first. -/
theorem recv_of_ready {rest : List Byte} (hlen : block.length = n)
    (h : ready s.input = block ++ rest) :
    ∃ s', s.recv n = (some block, s') ∧ ready s'.input = rest ∧ s'.sent = s.sent ∧
      s'.output = s.output := by
  subst hlen
  have hsome : (s.recv block.length).1 = some block := by
    rw [recv_eq_some_iff, h, List.length_append, List.take_left]
    exact ⟨Nat.le_add_right _ _, rfl⟩
  obtain ⟨s', heq, -⟩ | ⟨block', s', heq, hlen, happend, hsent, houtput⟩ :=
    s.recv_cases block.length
  · rw [heq] at hsome
    cases hsome
  · rw [h] at happend
    obtain ⟨rfl, hrest⟩ := List.append_inj happend hlen
    exact ⟨s', heq, hrest, hsent, houtput⟩

end End

end Socket
