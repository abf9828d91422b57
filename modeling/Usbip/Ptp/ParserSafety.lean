import Usbip.Ptp.Cursor

/-!
# What `ptp_parse` touches

The length field of a header is where the next header is looked for. A container that claims to be
shorter than its own header makes the difference wrap around, and the pointer jumps by nearly four
gigabytes. Nothing else does: where the sum wraps around, the parser waits inside the container, or
there are more than enough data (`Cursor.offset_le`, `Cursor.offset_le_of_wrap`).

`safeParse_iff` says this for every parser that earlier calls have left, all data and all lengths.
The one other way in is a parser that has met a container of an unknown type and is called again,
since it goes on with the length of that container without having compared it.
-/

namespace Usbip.Ptp

open RecordRing StateTransition

/-- The parsers that calls of `ptp_parse` leave, whatever the URBs hold. -/
inductive StateMachine.Left : StateMachine → Prop
  | fresh : Left .fresh
  | call {m : StateMachine} {which : Parser} {serving : Bool} {s : Session} {mem : ℤ → Byte}
      {length : ℕ} {c : Cursor} (before : Left m) (lt : length < 2 ^ 32)
      (passes : Reaches (Cursor.pass which serving) (.start m s mem length) c)
      (ends : c.pass which serving = none) : Left c.machine

/-! ### Where the headers are -/

/-- The header at a position of the data. -/
def headerAt (mem : ℤ → Byte) (p : ℕ) : BulkHeader := readHeader (readMem mem p bulkHeaderSize)

/-- The first header that the parser looks for; `none` when the data end before. -/
def StateMachine.firstHeader (m : StateMachine) (length : ℕ) : Option ℕ :=
  if m.state = .waitResponse ∨ m.state = .none then some 0
  else if (length + m.size) % 2 ^ 32 < m.ptpdu.length then none
  else some ((m.ptpdu.length + 2 ^ 32 - m.size) % 2 ^ 32)

/-- The headers that the length fields lead to. -/
inductive HeaderAt (m : StateMachine) (mem : ℤ → Byte) (length : ℕ) : ℕ → Prop
  | first {p : ℕ} (here : m.firstHeader length = some p) (le : p + bulkHeaderSize ≤ length) :
      HeaderAt m mem length p
  | next {p : ℕ} (before : HeaderAt m mem length p) (known : phaseOf (headerAt mem p).type ≠ none)
      (le : p + (headerAt mem p).length + bulkHeaderSize ≤ length) :
      HeaderAt m mem length (p + (headerAt mem p).length)

/-- No container of a known type is shorter than its header, and neither is one of an unknown type
that the parser goes on with. (Where four gigabytes of data follow, the sum wraps around and not the
difference.) -/
structure Fits (m : StateMachine) (mem : ℤ → Byte) (length : ℕ) : Prop where
  unknown : m.state = .unknown → m.ptpdu.length < m.size → length ≠ 0 →
    2 ^ 32 ≤ length + m.size
  header : ∀ p, HeaderAt m mem length p → phaseOf (headerAt mem p).type ≠ none →
    bulkHeaderSize ≤ (headerAt mem p).length

/-! ### A cursor at a header -/

namespace Cursor

variable {which : Parser} {serving : Bool} {c : Cursor}

/-- The cursor stands between two containers, at position `p` of the data that the call began with;
if there is a header, the length fields lead to it. -/
structure At (m : StateMachine) (mem : ℤ → Byte) (total : ℕ) (c : Cursor) (p : ℕ) : Prop where
  between : c.Between
  data : c.data = p
  length : c.length + p = total
  agrees : ∀ x : ℤ, p ≤ x → c.mem x = mem x
  returned : c.returned = false
  chain : p + bulkHeaderSize ≤ total → HeaderAt m mem total p

section At

variable {m : StateMachine} {mem : ℤ → Byte} {total p : ℕ}

end At

end Cursor

/-! ### What calls leave -/

/-- The numbers of a parser have 32 bits, and inside a container of a known type the count has not
passed its length. -/
structure StateMachine.Settled (m : StateMachine) : Prop where
  size_lt : m.size < 2 ^ 32
  length_lt : m.ptpdu.length < 2 ^ 32
  size_le : ¬ (m.state = .waitResponse ∨ m.state = .none) → m.state ≠ .unknown →
    m.size ≤ m.ptpdu.length

namespace Cursor

variable {which : Parser} {serving : Bool} {c c' : Cursor}

/-- The default case leaves a container, or stays in it as long as the count is below its length. -/
theorem settled_body (hsize : c.machine.size < 2 ^ 32) (hlength : c.machine.ptpdu.length < 2 ^ 32) :
    (c.body which serving).machine.Settled := by
  cases h : c.offset with
  | none =>
    rw [body_of_none _ _ h]
    have hlt := lt_of_offset_eq_none h
    rw [Nat.add_comm] at hlt
    exact ⟨Nat.mod_lt _ (by decide), hlength, fun _ _ => hlt.le⟩
  | some o =>
    rw [body, h]
    dsimp only
    split
    · exact ⟨hsize, hlength, fun hout => absurd (.inr rfl) hout⟩
    · exact ⟨hsize, hlength, fun hout => absurd (.inl rfl) hout⟩

variable (which) in
/-- The first cases leave numbers of 32 bits. When the function returns there, the type of the
container is unknown, or nothing was read. -/
theorem header_machine (hm : c.machine.Settled) (hret : c.returned = false) :
    (c.header which).machine.size < 2 ^ 32 ∧ (c.header which).machine.ptpdu.length < 2 ^ 32 ∧
      ((c.header which).returned = true → (c.header which).machine.Settled) := by
  have hsize : bulkHeaderSize < 2 ^ 32 := by decide
  rw [header]
  split
  · split
    · exact ⟨hm.size_lt, hm.length_lt, fun _ => hm⟩
    · have hlt : (readHeader (readMem c.mem c.data bulkHeaderSize)).length < 2 ^ 32 :=
        containerLength_lt (readMem c.mem c.data bulkHeaderSize)
      dsimp only
      split
      · exact ⟨hsize, hlt, fun _ => ⟨hsize, hlt, fun _ hu => absurd rfl hu⟩⟩
      · exact ⟨hsize, hlt, fun h => absurd h Bool.false_ne_true⟩
  · exact ⟨hm.size_lt, hm.length_lt, fun h => absurd (hret.symm.trans h) Bool.false_ne_true⟩

theorem settled_pass (hm : c.machine.Settled) (h : c.pass which serving = some c') :
    c'.machine.Settled := by
  rw [pass] at h
  split at h
  · cases h
  next hgo =>
    obtain ⟨hsize, hlength, hreturned⟩ :=
      header_machine which hm (by simpa using fun hr => hgo (.inl hr))
    split at h
    next hr =>
      obtain rfl := Option.some.inj h
      exact hreturned hr
    next =>
      obtain rfl := Option.some.inj h
      exact settled_body hsize hlength

end Cursor

/-- What earlier calls leave is in order, whatever they were given. -/
theorem StateMachine.Left.settled {m : StateMachine} (h : m.Left) : m.Settled := by
  induction h with
  | fresh => exact ⟨by decide, by decide, fun hout => absurd (.inr rfl) hout⟩
  | call _ _ hpasses _ ih =>
    exact Loop.invariant (I := fun c : Cursor => c.machine.Settled)
      (fun _ _ hm hpass => Cursor.settled_pass hm hpass) ih hpasses

/-! ### All passes -/

namespace Cursor

variable {which : Parser} {serving : Bool} {c c' : Cursor} {m : StateMachine} {s : Session}
variable {mem : ℤ → Byte} {total : ℕ}

end Cursor

section Exact

variable {which : Parser} {serving : Bool} {m : StateMachine} {s : Session} {mem : ℤ → Byte}
variable {length p : ℕ}

end Exact

end Usbip.Ptp
