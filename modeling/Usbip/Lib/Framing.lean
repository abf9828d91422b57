import Usbip.Lib.Codec

/-!
# Framing of a message stream

A sender writes messages one after the other; a receiver calls `rx`, which reads one message
from the stream, until a result tells it to stop. `receive` records for every call the stream
before and after it. What `rx` consults besides the stream (its tables, the results of
allocations) may differ from call to call and is a list of environments.

The rule `receive_framed` reduces the framing of a whole stream to one message: if `rx`, given
a stream that starts with the bytes of a message, either stops or leaves the rest of the
stream, then every call starts at a message boundary.
-/

universe u v w

namespace Framing

variable {ω : Type u} {π : Type v} {ρ : Type w}

/-- Read `n` bytes; `none` while the stream does not hold that many. -/
def recv (n : ℕ) (stream : List Byte) : Option (List Byte × List Byte) :=
  if n ≤ stream.length then some (stream.take n, stream.drop n) else none

/-- A block of the expected length is read off the front of the stream. -/
theorem recv_append {n : ℕ} {block rest : List Byte} (h : block.length = n) :
    recv n (block ++ rest) = some (block, rest) := by
  have hn : n ≤ (block ++ rest).length := by
    rw [List.length_append]
    omega
  rw [recv, if_pos hn, List.take_left' h, List.drop_left' h]

/-- One call of the receiver. -/
structure Call (ρ : Type w) where
  before : List Byte
  result : ρ
  after : List Byte

/-- Call `rx` once for each environment, until it blocks or a result stops the loop. -/
def receive (rx : ω → List Byte → Option (ρ × List Byte)) (stop : ρ → Bool) :
    List ω → List Byte → List (Call ρ)
  | [], _ => []
  | env :: envs, stream =>
    match rx env stream with
    | none => []
    | some (r, rest) => ⟨stream, r, rest⟩ :: if stop r then [] else receive rx stop envs rest

/-- The bytes of a sequence of messages. -/
def stream (encode : π → List Byte) (msgs : List π) : List Byte := msgs.flatMap encode

@[simp] theorem stream_nil (encode : π → List Byte) : stream encode [] = [] := rfl

@[simp] theorem stream_cons (encode : π → List Byte) (m : π) (msgs : List π) :
    stream encode (m :: msgs) = encode m ++ stream encode msgs := rfl

/-- What the calls of a receiver say about the messages. -/
structure Framed (encode : π → List Byte) (stop : ρ → Bool) (Q : ω → π → ρ → Prop)
    (envs : List ω) (msgs : List π) (calls : List (Call ρ)) : Prop where
  /-- Call number `i` starts at the boundary before message number `i`, its result is related
  to that message, and it ends at the next boundary unless it stops the loop. -/
  inStep : ∀ (i : ℕ) c, calls[i]? = some c → ∃ env m, envs[i]? = some env ∧ msgs[i]? = some m ∧
    c.before = stream encode (msgs.drop i) ∧ Q env m c.result ∧
    (stop c.result = true ∨ c.after = stream encode (msgs.drop (i + 1)))
  /-- No call blocks inside a message: the loop goes on until a result stops it. -/
  goesOn : ∀ i, i < envs.length → i < msgs.length →
    (∀ (j : ℕ) c, j < i → calls[j]? = some c → stop c.result = false) → i < calls.length

/-- Each call meets the message with its number under the condition `Good`. -/
def Meets (Good : ω → π → Prop) (envs : List ω) (msgs : List π) : Prop :=
  ∀ (i : ℕ) env m, envs[i]? = some env → msgs[i]? = some m → Good env m

theorem meets_nil {Good : ω → π → Prop} : Meets Good [] [] := by
  intro i env m he
  simp at he

/-- The first call meets the first message, the others meet the others. -/
theorem meets_cons {Good : ω → π → Prop} {env : ω} {envs : List ω} {m : π} {msgs : List π} :
    Meets Good (env :: envs) (m :: msgs) ↔ Good env m ∧ Meets Good envs msgs := by
  constructor
  · intro h
    exact ⟨h 0 env m rfl rfl, fun i env' m' he hm => h (i + 1) env' m' he hm⟩
  · rintro ⟨hg, h⟩ i env' m' he hm
    cases i with
    | zero =>
      obtain rfl : env = env' := by simpa using he
      obtain rfl : m = m' := by simpa using hm
      exact hg
    | succ i => exact h i env' m' he hm

/-- **Framing rule**: a receiver that reads each message exactly, or stops, is in step with
the sender for the whole stream. -/
theorem receive_framed {rx : ω → List Byte → Option (ρ × List Byte)} {stop : ρ → Bool}
    {encode : π → List Byte} {Good : ω → π → Prop} {Q : ω → π → ρ → Prop}
    (hempty : ∀ env, rx env [] = none)
    (hmsg : ∀ env m rest, Good env m → ∃ r after, rx env (encode m ++ rest) = some (r, after) ∧
      Q env m r ∧ (stop r = true ∨ after = rest))
    {envs : List ω} {msgs : List π} (hgood : Meets Good envs msgs) :
    Framed encode stop Q envs msgs (receive rx stop envs (stream encode msgs)) := by
  induction envs generalizing msgs with
  | nil => exact ⟨fun i c hc => by simp [receive] at hc, fun i hi => by simp at hi⟩
  | cons env envs ih =>
    cases msgs with
    | nil => exact ⟨fun i c hc => by simp [receive, hempty] at hc, fun i _ hi => by simp at hi⟩
    | cons m msgs =>
      obtain ⟨hgood, hrest⟩ := meets_cons.mp hgood
      obtain ⟨r, after, hrx, hQ, hafter⟩ := hmsg env m (stream encode msgs) hgood
      have hframed := ih hrest
      rw [stream_cons, receive, hrx]
      constructor
      · intro i c hc
        cases i with
        | zero =>
          obtain rfl : ⟨encode m ++ stream encode msgs, r, after⟩ = c := by simpa using hc
          exact ⟨env, m, rfl, rfl, rfl, hQ, hafter⟩
        | succ i =>
          simp only [List.getElem?_cons_succ] at hc
          split at hc
          · simp at hc
          next hstop =>
            obtain rfl := hafter.resolve_left hstop
            exact hframed.inStep i c hc
      · intro i hi hi' hbefore
        cases i with
        | zero => simp
        | succ i =>
          have hstop : stop r = false := hbefore 0 _ (Nat.succ_pos i) rfl
          obtain rfl := hafter.resolve_left (by simp [hstop])
          simp only [hstop, Bool.false_eq_true, if_false, List.length_cons,
            Nat.add_lt_add_iff_right] at hi hi' ⊢
          refine hframed.goesOn i hi hi' fun j c hj hc => hbefore (j + 1) c (by omega) ?_
          simpa [hstop] using hc

end Framing
