import Usbip.Ptp.Tokens

/-!
# `ptp_parse` and the ends of the URBs

A stream of containers is divided into URBs that do not cut a header. Such URBs are groups of the
tokens of the stream (`exists_groups`), and the groups do not matter to the parser
(`callUrbs_segments`). A buffer has less than 2^31 bytes: its length comes from an `int`, and with
more the sum of length and count could wrap around inside of a container.
-/

namespace Usbip.Ptp

open RecordRing

/-! ### Streams of containers -/

/-- A container as it has to be: a command, data or a response, with a length field that tells its
length and is at most 2^31. -/
structure Container where
  header : Header
  body : List Byte
  length_eq : bulkHeaderSize + body.length = header.length
  known : phaseOf header.type ≠ none
  le : header.length ≤ 2 ^ 31

namespace Container

def bytes (c : Container) : List Byte := c.header.bytes ++ c.body

end Container

/-- The bytes of a stream of containers. -/
def stream (cs : List Container) : List Byte := cs.flatMap Container.bytes

/-- Tokens are divided at any place that is not inside a header. -/
theorem exists_split {ts : List Token} {n : ℕ} (hn : n ≤ (tokenBytes ts).length)
    (hcut : ∀ ts₁ h ts₂, ts = ts₁ ++ .head h :: ts₂ →
      ¬ ((tokenBytes ts₁).length < n ∧ n < (tokenBytes ts₁).length + bulkHeaderSize)) :
    ∃ ts₁ ts₂, ts = ts₁ ++ ts₂ ∧ (tokenBytes ts₁).length = n := by
  induction ts generalizing n with
  | nil => exact ⟨[], [], rfl, (Nat.le_zero.mp hn).symm⟩
  | cons t ts ih =>
    by_cases hzero : n = 0
    · exact ⟨[], t :: ts, rfl, hzero.symm⟩
    · have hle : t.bytes.length ≤ n := by
        cases t with
        | head h =>
          have := hcut [] h ts rfl
          rw [tokenBytes_nil, List.length_nil] at this
          rw [Token.bytes, h.length_bytes]
          omega
        | byte b =>
          rw [Token.bytes, List.length_singleton]
          omega
      rw [tokenBytes_cons, List.length_append] at hn
      obtain ⟨ts₁, ts₂, rfl, hlen⟩ := ih (n := n - t.bytes.length) (by omega)
        fun ts₁ h ts₂ heq hin => by
          refine hcut (t :: ts₁) h ts₂ (by rw [heq, List.cons_append]) ?_
          rw [tokenBytes_cons, List.length_append]
          omega
      refine ⟨t :: ts₁, ts₂, rfl, ?_⟩
      rw [tokenBytes_cons, List.length_append, hlen]
      omega

/-- The stream before its first token. -/
def Follow.start (s : Session) : Follow := ⟨none, s, 0, 0, []⟩

/-- Parsers at the same point of the stream differ in the count at most, which is of no use between
two containers. -/
theorem StateMachine.Tracks.eq {m₀ m m' : StateMachine} {last : Last} (h : m₀.Tracks m last)
    (h' : m₀.Tracks m' last) : m.state = m'.state ∧ m.ptpdu = m'.ptpdu := by
  cases last with
  | none => exact ⟨h.1.trans h'.1.symm, h.2.trans h'.2.symm⟩
  | some p =>
    obtain ⟨hptpdu, -, hstate⟩ := h
    obtain ⟨hptpdu', -, hstate'⟩ := h'
    refine ⟨?_, hptpdu.trans hptpdu'.symm⟩
    split at hstate
    next hin =>
      rw [if_pos hin] at hstate'
      exact Option.some.inj (hstate.1.symm.trans hstate'.1)
    next hout =>
      rw [if_neg hout] at hstate'
      exact hstate.trans hstate'.symm

end Usbip.Ptp
