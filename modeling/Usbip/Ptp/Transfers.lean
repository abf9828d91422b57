import Usbip.Ptp.Region

/-!
# Transfers that start a container

What the filter does with a transfer that begins with a container header, and what a pass of
`ptp_consume_` does that fills the client's URB or comes to the end of a container: each is one
step, from a state in which nothing else is under way.
-/

namespace Usbip.Ptp

open RecordRing

/-! ### Containers of zeros -/

/-- The first `m` bytes of a container of `n` bytes, all zero behind the length and the type. -/
def leading (type : Byte) (n m : ℕ) : List Byte :=
  [.ofNat 8 n, .ofNat 8 (n / 2 ^ 8), .ofNat 8 (n / 2 ^ 16), .ofNat 8 (n / 2 ^ 24), type, 0,
    0, 0, 0, 0, 0, 0] ++ List.replicate (m - bulkHeaderSize) 0

section Leading

variable {type : Byte} {n m : ℕ}

theorem length_leading (h : bulkHeaderSize ≤ m) : (leading type n m).length = m := by
  have hheader : bulkHeaderSize + (m - bulkHeaderSize) = m := by omega
  rw [leading, List.length_append, List.length_replicate]
  exact hheader

theorem containerLength_leading (h : n < 2 ^ 32) : containerLength (leading type n m) = n := by
  simp only [leading, List.cons_append, containerLength, BitVec.toNat_ofNat]
  omega

theorem containerType_leading : containerType (leading type n m) = type.toNat := by
  simp [leading, containerType]

theorem containerType_take (data : List Byte) :
    containerType (data.take bulkHeaderSize) = containerType data := by
  match data with
  | [] => rfl
  | [_] => rfl
  | [_, _] => rfl
  | [_, _, _] => rfl
  | [_, _, _, _] => rfl
  | [_, _, _, _, _] => rfl
  | _ :: _ :: _ :: _ :: _ :: _ :: _ => rfl

/-- The header of a container is read back from where it was received. -/
theorem header_leading (mem : ℤ → Byte) (p : ℤ) (h : bulkHeaderSize ≤ m) (hn : n < 2 ^ 32) :
    containerLength (readMem (writeMem mem p (leading type n m)) p bulkHeaderSize) = n ∧
      containerType (readMem (writeMem mem p (leading type n m)) p bulkHeaderSize) =
        type.toNat := by
  have hlen : bulkHeaderSize ≤ (leading type n m).length := by
    rw [length_leading h]
    exact h
  rw [readMem_writeMem hlen, containerLength_take, containerType_take,
    containerLength_leading hn, containerType_leading]
  exact ⟨rfl, rfl⟩

end Leading

/-! ### Receiving -/

/-- The bytes begin with the header of a container, and nothing follows the container. -/
structure Begins (data : List Byte) : Prop where
  header : bulkHeaderSize ≤ data.length
  inside : data.length ≤ containerLength data

theorem begins_leading {type : Byte} {n m : ℕ} (h : bulkHeaderSize ≤ m) (hm : m ≤ n)
    (hn : n < 2 ^ 32) : Begins (leading type n m) := by
  refine ⟨?_, ?_⟩
  · rw [length_leading h]
    exact h
  · rw [length_leading h, containerLength_leading hn]
    exact hm

namespace Filter

variable {cfg : Config} {f : Filter} {data : List Byte}

/-- The container is counted, and the head moves on. -/
def beginReceiving (f : Filter) (offset : ℤ) (data : List Byte) : Filter :=
  f.counted (containerType data = containerResponse) (containerLength data - data.length)
    (if containerLength data - data.length = 0
      then framebufAlign ((f.frameHead + data.length) % f.frameBufferSize)
      else (f.frameHead + data.length) % f.frameBufferSize)
    (f.kept ++ block offset (containerLength data) data) (addToLast f.frames data)

theorem receive_begins (h : Begins data) (hd : f.state ≠ .drop) (h0 : f.frameRxLength = 0)
    (offset : ℤ) : f.receive offset data = f.beginReceiving offset data := by
  have hrem : f.rxRemaining data = containerLength data := if_pos h0
  have hleft : f.rxLeft data = containerLength data - data.length := by
    have hlt := containerLength_lt data
    have hle := h.inside
    unfold rxLeft
    rw [hrem]
    omega
  have hhead : f.rxHead data = (f.frameHead + data.length) % f.frameBufferSize := if_neg hd
  unfold Filter.receive
  rw [hleft, hhead, hrem, if_pos h0, if_neg hd, if_neg hd]
  rfl

theorem dataComplete_begins (h : Begins data) (hb : f.state = .busy) (h0 : f.frameRxLength = 0)
    (offset : ℤ) (rcOk : Bool) : f.dataComplete cfg offset data true rcOk =
      .inr ((f.beginReceiving offset data).received cfg rcOk) := by
  have hnd : f.state ≠ .drop := by
    rw [hb]
    decide
  have hgo : ¬ (¬ (true : Bool) ∨ (f.state ≠ .busy ∧ f.state ≠ .drop)) := by simp [hb]
  have hvalid : ¬ f.RxInvalid data := by
    rintro ⟨-, hshort⟩
    have := h.header
    have := h.inside
    omega
  unfold Filter.dataComplete
  rw [if_neg hgo, if_neg hvalid, receive_begins h hnd h0]

/-! ### Serving -/

/-- A container starts at the tail. -/
theorem beginContainer_starts {actual n type : ℕ} (h0 : f.frameLength = 0)
    (hd : f.frameTail ≠ f.frameRxTail2 → f.frameTail = f.frameRxTail → f.state ≠ .drop)
    (hcount : (bulkHeaderSize : ℤ) ≤ u32 f.toEndCount) (ha : actual = 0)
    (hn : containerLength f.header = n) (htype : containerType f.header = type)
    (hlen : bulkHeaderSize ≤ n) : f.beginContainer actual =
      .go { f.clearMark with
        framePduEnd := type = containerResponse
        frameLength := n } := by
  subst hn htype
  have hheader : f.clearMark.header = f.header := by
    unfold header
    rw [clearMark_eq]
  unfold Filter.beginContainer
  rw [if_neg (not_not.mpr h0), if_neg fun h => hd h.1 h.2.1 h.2.2, if_neg (not_lt.mpr hcount),
    if_neg (not_not.mpr ha), if_neg (not_lt.mpr hlen), ← hheader]
  rfl

/-- Inside a container, and before the end of the buffer, only the tail moves on. -/
theorem advance_partial (n left : ℕ) (tail : ℤ) (hlength : f.frameLength = left)
    (htail : f.frameTail = tail) (h0 : 0 ≤ tail) (hsize : tail + n < f.frameBufferSize)
    (hn : n < left) : ∃ frameBuffer kept, f.advance n =
      { f with
        frameBuffer := frameBuffer
        frameLength := left - n
        frameTail := tail + n
        kept := kept } := by
  subst hlength htail
  have hmod : (f.frameTail + n) % f.frameBufferSize = f.frameTail + n :=
    Int.emod_eq_of_lt (by omega) hsize
  have hpart : ¬ f.frameLength = n := by omega
  have hstay : ¬ f.frameTail + n < f.frameTail := by omega
  refine ⟨(f.advance n).frameBuffer, (f.advance n).kept, ?_⟩
  unfold Filter.advance
  simp only [hmod, hpart, hstay, if_false, false_and]

end Filter

namespace System

variable {cfg : Config} {s : System}

/-- The first `m` bytes of a container of `n` bytes arrive. -/
theorem step_leading {offset length head : ℤ} {type : Byte} {n m : ℕ}
    (hholder : s.holder = none) (ht : s.filter.busyQueue = [.data offset length])
    (hb : s.filter.state = .busy) (h0 : s.filter.frameRxLength = 0) (hheader : bulkHeaderSize ≤ m)
    (hm : m ≤ n) (hn : n < 2 ^ 32) (hlen : m ≤ length)
    (hhead : (if n = m
      then framebufAlign ((s.filter.frameHead + m) % s.filter.frameBufferSize)
      else (s.filter.frameHead + m) % s.filter.frameBufferSize) = head) (rcOk : Bool) :
    (ptpFilter cfg).step s (.dataComplete 0 (leading type n m) true rcOk) =
      some (s.produced
        ((((s.filter.complete 0).written offset (leading type n m)).counted
          (type.toNat = containerResponse) (n - m) head
          (s.filter.kept ++ block offset n (leading type n m))
          (Filter.addToLast s.filter.frames (leading type n m))).received cfg rcOk)
        freshConsumer) := by
  have hbegins : Begins (leading type n m) := begins_leading hheader hm hn
  have hdone := @Filter.dataComplete_begins cfg
    ((s.filter.complete 0).written offset (leading type n m)) _ hbegins hb h0 offset rcOk
  have hlength : (leading type n m).length = m := length_leading hheader
  have hfits : ((leading type n m).length : ℤ) ≤ length := by
    rw [hlength]
    exact hlen
  rw [step_dataComplete hholder (by rw [ht]; rfl) hfits hdone]
  have hwhole : n = m ↔ n - m = 0 := by omega
  simp only [hwhole] at hhead
  unfold Filter.beginReceiving
  rw [containerLength_leading hn, containerType_leading, hlength, ← hhead]
  rfl

/-- A pass that fills the client's URB, or comes to the end of the container. -/
theorem step_pass_fills {c : Consumer} {u n : ℕ} {f : Filter} (hholder : s.holder = some c)
    (hst : s.filter.state.Filtering) (hu : c.priv.or s.filter.clientQueue.head? = some u)
    (hgo : s.filter.beginContainer (s.copied u).length = .go f)
    (hn : f.copyLength (s.size u - (s.copied u).length) = n) (h0 : n ≠ 0)
    (hfull : f.frameLength = n ∨ (s.copied u).length + n = s.size u) :
    (ptpFilter cfg).step s .pass = some
      { s with
        copied :=
          Function.update s.copied u (s.copied u ++ readMem f.frameBuffer f.frameTail n)
        filter := if c.pending || c.priv.isNone then (f.advance n).unqueueRead u else f.advance n
        holder := none
        suspended := s.suspended ++
          [.completed ⟨c.rx, none, c.pending || c.priv.isNone⟩] } := by
  have hdone : (f.advance n).frameLength = 0 ∨
      (Function.update s.copied u (s.copied u ++ readMem f.frameBuffer f.frameTail n) u).length =
        s.size u := by
    refine hfull.imp (fun hlast => ?_) fun hroom => ?_
    · change f.frameLength - n = 0
      omega
    · rw [Function.update_self, List.length_append, length_readMem]
      exact hroom
  have hpass : s.pass cfg c = s.serve cfg f ⟨c.rx, some u, c.pending || c.priv.isNone⟩ u n := by
    unfold pass
    rw [if_neg (not_not.mpr hst)]
    simp only [hu, hgo, hn, if_neg h0]
  have hstep : (ptpFilter cfg).step s .pass = some (s.pass cfg c) := by
    simp only [ptpFilter, step, hholder]
  rw [hstep, hpass]
  unfold serve
  exact congrArg some (if_pos hdone)

end System

end Usbip.Ptp
