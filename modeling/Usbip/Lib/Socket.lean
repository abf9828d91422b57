import Usbip.Lib.Codec
import Mathlib.Data.PNat.Basic

/-!
# Receiving a fixed number of bytes

A stream socket is given by what its next receive calls do. `Outcome.chunk` is data that has
arrived, at least one byte, of which a call takes no more than it asks for; `Outcome.error` is a
call that fails. After the last outcome the peer has closed the connection in order, and every call
from then on gives 0.

`recvLoop` asks until all its bytes are there, and gives up at the first call without data. All that
it sees of a socket is `ready`, the bytes up to that call, and `verdict`, the result of it: the loop
succeeds exactly when enough bytes are ready, and how they are cut into chunks makes no difference
(`recvLoop_of_le`, `recvLoop_of_lt`).
-/

namespace Socket

/-- What a receive call does. -/
inductive Outcome
  | chunk (b : Byte) (bs : List Byte)
  /-- a negative result -/
  | error (errno : ℕ+)
  deriving DecidableEq

/-- What a loop of receive calls leaves: the bytes that it has taken, its result, and what the
socket does next. -/
structure Received where
  bytes : List Byte
  ret : ℤ
  rest : List Outcome

/-- Data in front of what the socket does next. -/
def push : List Byte → List Outcome → List Outcome
  | [], s => s
  | b :: bs, s => .chunk b bs :: s

/-- `do { ret = recv(size); if (ret <= 0) return ret; size -= ret; total += ret; } while (size > 0)`
and then `total`. -/
def recvLoop (total size : ℕ) : List Outcome → Received
  | [] => ⟨[], 0, []⟩
  | .error errno :: s => ⟨[], -errno, s⟩
  | .chunk b bs :: s =>
    let data := b :: bs
    if size ≤ data.length then ⟨data.take size, (total + size : ℕ), push (data.drop size) s⟩
    else
      let r := recvLoop (total + data.length) (size - data.length) s
      { r with bytes := data ++ r.bytes }

/-! ### What the loop sees -/

/-- The bytes that arrive before a call gives none. -/
def ready : List Outcome → List Byte
  | .chunk b bs :: s => b :: bs ++ ready s
  | _ => []

/-- The result of the first call that gives no byte. -/
def verdict : List Outcome → ℤ
  | [] => 0
  | .chunk _ _ :: s => verdict s
  | .error errno :: _ => -errno

/-- What the socket does after the first call that gives no byte. -/
def afterVerdict : List Outcome → List Outcome
  | [] => []
  | .chunk _ _ :: s => afterVerdict s
  | .error _ :: s => s

variable {s rest : List Outcome} {data : List Byte} {total n : ℕ}

@[simp] theorem ready_push : ready (push data s) = data ++ ready s := by
  cases data with
  | nil => rfl
  | cons b bs => rfl

@[simp] theorem verdict_push : verdict (push data s) = verdict s := by
  cases data with
  | nil => rfl
  | cons b bs => rfl

@[simp] theorem afterVerdict_push : afterVerdict (push data s) = afterVerdict s := by
  cases data with
  | nil => rfl
  | cons b bs => rfl

theorem verdict_nonpos (s : List Outcome) : verdict s ≤ 0 := by
  induction s with
  | nil => exact le_rfl
  | cons o s ih =>
    cases o with
    | chunk b bs => exact ih
    | error errno =>
      have := errno.pos
      change -((errno : ℕ) : ℤ) ≤ 0
      omega

/-- An orderly close is final. -/
theorem afterVerdict_of_closed (h : verdict s = 0) : afterVerdict s = [] := by
  induction s with
  | nil => rfl
  | cons o s ih =>
    cases o with
    | chunk b bs => exact ih h
    | error errno =>
      have hpos := errno.pos
      have h : -((errno : ℕ) : ℤ) = 0 := h
      omega

/-- `rest` is what is left of a socket after `n` of its bytes. -/
structure Past (n : ℕ) (s rest : List Outcome) : Prop where
  ready : ready rest = (Socket.ready s).drop n
  verdict : verdict rest = Socket.verdict s
  afterVerdict : afterVerdict rest = Socket.afterVerdict s

/-- With enough bytes ready the loop takes them. -/
theorem recvLoop_of_le (hpos : 0 < n) (h : n ≤ (ready s).length) :
    ∃ rest, recvLoop total n s = ⟨(ready s).take n, (total + n : ℕ), rest⟩ ∧ Past n s rest := by
  induction s generalizing total n with
  | nil =>
    have h : n ≤ 0 := h
    omega
  | cons o s ih =>
    cases o with
    | error errno =>
      have h : n ≤ 0 := h
      omega
    | chunk b bs =>
      have hready : ready (.chunk b bs :: s) = b :: bs ++ ready s := rfl
      rw [hready] at h ⊢
      rw [recvLoop]
      dsimp only
      generalize hdata : b :: bs = data at h hready ⊢
      split
      next hle =>
        refine ⟨push (data.drop n) s, ?_, ?_, verdict_push, afterVerdict_push⟩
        · rw [List.take_append_of_le_length hle]
        · rw [ready_push, hready, List.drop_append_of_le_length hle]
      next hlt =>
        have hlt : data.length < n := not_le.mp hlt
        rw [List.length_append] at h
        obtain ⟨rest, heq, hrest⟩ :=
          @ih (total + data.length) (n - data.length) (by omega) (by omega)
        refine ⟨rest, ?_, ?_, hrest.verdict, hrest.afterVerdict⟩
        · have htake : (data ++ ready s).take n = data ++ (ready s).take (n - data.length) := by
            rw [List.take_append, List.take_of_length_le hlt.le]
          have htotal : total + data.length + (n - data.length) = total + n := by omega
          rw [heq, htake, htotal]
        · rw [hrest.ready, hready, List.drop_append, List.drop_of_length_le hlt.le, List.nil_append]

/-- Otherwise it takes what is ready, and returns the result of the call that gave nothing. -/
theorem recvLoop_of_lt (h : (ready s).length < n) :
    recvLoop total n s = ⟨ready s, verdict s, afterVerdict s⟩ := by
  induction s generalizing total n with
  | nil => rfl
  | cons o s ih =>
    cases o with
    | error errno => rfl
    | chunk b bs =>
      have hready : ready (.chunk b bs :: s) = b :: bs ++ ready s := rfl
      rw [hready, List.length_append] at h
      rw [recvLoop]
      dsimp only
      rw [if_neg (by omega), @ih (total + (b :: bs).length) (n - (b :: bs).length) (by omega)]
      rfl

end Socket
