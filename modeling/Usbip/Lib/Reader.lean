import Mathlib.Logic.Function.Iterate
import Usbip.Lib.Codec

/-!
# Readers that wait for a full buffer

A reader of a byte stream names the size of its next buffer, waits until the buffer is full and
goes on with its contents: `want` and `resume`. The stream comes in segments of any size. Each
read takes what is there, as much as the buffer has room for, and the reader is resumed when
nothing is missing any more (`readCb`).

`Reaches r s bytes s'` says what the reader makes of whole buffers, one after the other. The rule
`deliver_eq` reduces every way in which the stream can be split to that: a reader that finishes on
`bytes` finishes in the same state whatever the segments are, and has read exactly `bytes`.
`readAll` is what becomes of it on a stream that may end at any byte (`deliver_state`).
-/

universe u

/-- A reader in state `s` waits for `want s` bytes, none when it has finished. -/
structure Reader (σ : Type u) where
  want : σ → ℕ
  resume : σ → List Byte → σ

namespace Reader

variable {σ : Type u} {r : Reader σ}

/-- A reader with its connection: what the current buffer holds, and what has arrived but has
not been read. -/
structure Conn (σ : Type u) where
  state : σ
  buf : List Byte
  socket : List Byte

/-- The part of the buffer that is still free. -/
def room (r : Reader σ) (c : Conn σ) : ℕ := r.want c.state - c.buf.length

/-- Some bytes have been read into the buffer. -/
def readCb (r : Reader σ) (s : σ) (buf : List Byte) : σ × List Byte :=
  if buf.length < r.want s then (s, buf) else (r.resume s buf, [])

/-- One read; without data or without room there is none. -/
def read (r : Reader σ) (c : Conn σ) : Conn σ :=
  if r.room c = 0 ∨ c.socket = [] then c
  else
    let next := r.readCb c.state (c.buf ++ c.socket.take (r.room c))
    ⟨next.1, next.2, c.socket.drop (r.room c)⟩

/-- A segment arrives and is read as far as the reader wants it. -/
def arrive (r : Reader σ) (c : Conn σ) (seg : List Byte) : Conn σ :=
  r.read^[(c.socket ++ seg).length] { c with socket := c.socket ++ seg }

/-- The segments of a stream arrive one after the other. -/
def deliver (r : Reader σ) (s : σ) (segs : List (List Byte)) : Conn σ :=
  segs.foldl r.arrive ⟨s, [], []⟩

/-- The reader gets from one state to the other on these bytes, a buffer at a time. -/
inductive Reaches (r : Reader σ) : σ → List Byte → σ → Prop
  | refl (s : σ) : Reaches r s [] s
  | block {s s' : σ} {block bytes : List Byte} (hpos : 0 < r.want s)
      (hlen : block.length = r.want s) (h : Reaches r (r.resume s block) bytes s') :
      Reaches r s (block ++ bytes) s'

/-- One buffer. -/
theorem Reaches.single {s : σ} {block : List Byte} (hpos : 0 < r.want s)
    (hlen : block.length = r.want s) : Reaches r s block (r.resume s block) := by
  have h := Reaches.block hpos hlen (Reaches.refl (r.resume s block))
  rwa [List.append_nil] at h

theorem Reaches.trans {s s' s'' : σ} {bytes bytes' : List Byte} (h : Reaches r s bytes s')
    (h' : Reaches r s' bytes' s'') : Reaches r s (bytes ++ bytes') s'' := by
  induction h with
  | refl s => exact h'
  | block hpos hlen _ ih =>
    rw [List.append_assoc]
    exact .block hpos hlen (ih h')

/-- A reader that has finished, or whose next buffer is not filled by what is left. -/
def Starved (r : Reader σ) (s : σ) (rest : List Byte) : Prop :=
  r.want s = 0 ∨ rest.length < r.want s

/-- A reader that still waits and whose buffer can be filled finds it at the front. -/
theorem Reaches.split {s s' : σ} {bytes rest : List Byte} (h : Reaches r s bytes s')
    (hpos : 0 < r.want s) (hend : r.Starved s' rest) (hfull : r.want s ≤ (bytes ++ rest).length) :
    r.want s ≤ bytes.length ∧
      Reaches r (r.resume s (bytes.take (r.want s))) (bytes.drop (r.want s)) s' := by
  cases h with
  | refl =>
    rw [List.nil_append] at hfull
    rcases hend with hzero | hlt
    · omega
    · omega
  | block _ hlen h =>
    refine ⟨by rw [List.length_append]; omega, ?_⟩
    rw [List.take_left' hlen, List.drop_left' hlen]
    exact h

/-- Of a finished reader nothing more is read. -/
theorem Reaches.eq_of_want_eq_zero {s s' : σ} {bytes : List Byte} (h : Reaches r s bytes s')
    (hzero : r.want s = 0) : s' = s ∧ bytes = [] := by
  cases h with
  | refl => exact ⟨rfl, rfl⟩
  | block hpos => omega

/-! ### Any segmentation -/

/-- While the segments `later` are still under way, the reader is on its way to `s'`, where it
finishes and leaves `rest`. -/
structure OnTheWay (r : Reader σ) (s' : σ) (rest : List Byte) (later : List Byte) (c : Conn σ) :
    Prop where
  /-- The buffer is not full. -/
  open_buf : c.buf = [] ∨ c.buf.length < r.want c.state
  reaches : ∃ bytes, c.buf ++ (c.socket ++ later) = bytes ++ rest ∧ Reaches r c.state bytes s'

variable {s s' : σ} {rest later : List Byte} {c : Conn σ}

/-- A read keeps the reader on its way. -/
theorem OnTheWay.read (h : OnTheWay r s' rest later c) (hend : r.Starved s' rest) :
    OnTheWay r s' rest later (r.read c) := by
  unfold Reader.read
  split
  · exact h
  next hread =>
    obtain ⟨hroom, -⟩ := not_or.mp hread
    obtain ⟨bytes, hbytes, hreach⟩ := h.reaches
    have hpos : 0 < r.want c.state := by unfold room at hroom; omega
    have hsocket := List.take_append_drop (r.room c) c.socket
    have hlen : (c.buf ++ c.socket.take (r.room c)).length ≤ r.want c.state := by
      rw [List.length_append, List.length_take]
      unfold room at hroom ⊢
      omega
    have hall : (c.buf ++ c.socket.take (r.room c)) ++ (c.socket.drop (r.room c) ++ later) =
        bytes ++ rest := by
      rw [← hbytes, List.append_assoc, ← List.append_assoc _ _ later, hsocket]
    by_cases hfull : (c.buf ++ c.socket.take (r.room c)).length < r.want c.state
    · rw [readCb, if_pos hfull]
      exact ⟨.inr hfull, bytes, hall, hreach⟩
    · rw [readCb, if_neg hfull]
      -- the buffer is what the reader takes off the front
      have hfull : (c.buf ++ c.socket.take (r.room c)).length = r.want c.state := by omega
      have hthere : r.want c.state ≤ (bytes ++ rest).length := by
        rw [← hall, List.length_append, hfull]
        exact Nat.le_add_right _ _
      obtain ⟨hwant, hnext⟩ := hreach.split hpos hend hthere
      refine ⟨.inl rfl, bytes.drop (r.want c.state), ?_, ?_⟩
      · have hdrop := congrArg (List.drop (r.want c.state)) hall
        rw [List.drop_left' hfull, List.drop_append_of_le_length hwant] at hdrop
        exact hdrop
      · have htake := congrArg (List.take (r.want c.state)) hall
        rw [List.take_left' hfull, List.take_append_of_le_length hwant] at htake
        rw [htake]
        exact hnext

theorem OnTheWay.iterate (h : OnTheWay r s' rest later c) (hend : r.Starved s' rest) (n : ℕ) :
    OnTheWay r s' rest later (r.read^[n] c) := by
  induction n generalizing c with
  | zero => exact h
  | succ n ih => exact ih (h.read hend)

/-- Each read takes something, until there is nothing to take or no room. -/
theorem drained (r : Reader σ) (c : Conn σ) {n : ℕ} (h : c.socket.length ≤ n) :
    r.room (r.read^[n] c) = 0 ∨ (r.read^[n] c).socket = [] := by
  induction n generalizing c with
  | zero => exact .inr (List.eq_nil_of_length_eq_zero (Nat.le_zero.mp h))
  | succ n ih =>
    rw [Function.iterate_succ_apply]
    by_cases hidle : r.room c = 0 ∨ c.socket = []
    · have hread : r.read c = c := if_pos hidle
      have hiter : r.read^[n] c = c := Function.iterate_fixed hread n
      rw [hread, hiter]
      exact hidle
    · have hread : (r.read c).socket = c.socket.drop (r.room c) := by
        rw [Reader.read, if_neg hidle]
      obtain ⟨hroom, -⟩ := not_or.mp hidle
      exact ih _ (by rw [hread, List.length_drop]; omega)

theorem OnTheWay.arrive {seg : List Byte} (h : OnTheWay r s' rest (seg ++ later) c)
    (hend : r.Starved s' rest) : OnTheWay r s' rest later (r.arrive c seg) := by
  obtain ⟨bytes, hbytes, hreach⟩ := h.reaches
  have hseg : OnTheWay r s' rest later { c with socket := c.socket ++ seg } := by
    refine ⟨h.open_buf, bytes, ?_, hreach⟩
    rw [← hbytes, List.append_assoc]
  exact hseg.iterate hend _

/-- After an arrival nothing that is wanted is left in the socket. -/
theorem arrive_drained (r : Reader σ) (c : Conn σ) (seg : List Byte) :
    r.room (r.arrive c seg) = 0 ∨ (r.arrive c seg).socket = [] :=
  drained r _ le_rfl

/-- When everything has arrived, the reader is at the end of its way. -/
theorem OnTheWay.of_drained (h : OnTheWay r s' rest [] c) (hend : r.Starved s' rest)
    (hdrained : r.room c = 0 ∨ c.socket = []) : c.state = s' ∧ c.buf ++ c.socket = rest := by
  obtain ⟨state, buf, socket⟩ := c
  obtain ⟨bytes, hbytes, hreach⟩ := h.reaches
  have hopen : buf = [] ∨ buf.length < r.want state := h.open_buf
  have hall : buf ++ socket = bytes ++ rest := by simpa using hbytes
  by_cases hzero : r.want state = 0
  · obtain ⟨rfl, rfl⟩ := hreach.eq_of_want_eq_zero hzero
    exact ⟨rfl, hall⟩
  · -- a reader that still waits has room and a part of its next buffer unread
    have hpos : 0 < r.want state := Nat.pos_of_ne_zero hzero
    have hbuf : buf.length < r.want state := by
      rcases hopen with rfl | hlt
      · exact hpos
      · exact hlt
    have hroom : r.room ⟨state, buf, socket⟩ ≠ 0 := Nat.sub_ne_zero_of_lt hbuf
    obtain rfl : socket = [] := hdrained.resolve_left hroom
    have hlen := congrArg List.length hall
    simp only [List.length_append, List.length_nil] at hlen
    cases hreach with
    | refl => exact ⟨rfl, hall⟩
    | block _ hblock _ =>
      have hblock : _ = r.want state := hblock
      rw [List.length_append, hblock] at hlen
      omega

/-- Whatever the segments, the reader gets to where it has finished or the stream ends, and what
it has not used is in the buffer and in the socket. -/
theorem deliver_of_reaches {bytes : List Byte} (h : Reaches r s bytes s')
    (hend : r.Starved s' rest) {segs : List (List Byte)} (hsegs : segs.flatten = bytes ++ rest) :
    (r.deliver s segs).state = s' ∧ (r.deliver s segs).buf ++ (r.deliver s segs).socket = rest ∧
      ((r.deliver s segs).buf = [] ∨ (r.deliver s segs).buf.length < r.want s') := by
  have hrun : ∀ (segs : List (List Byte)) (c : Conn σ), OnTheWay r s' rest segs.flatten c →
      (r.room c = 0 ∨ c.socket = []) →
      OnTheWay r s' rest [] (segs.foldl r.arrive c) ∧
        (r.room (segs.foldl r.arrive c) = 0 ∨ (segs.foldl r.arrive c).socket = []) := by
    intro segs
    induction segs with
    | nil => exact fun c hc hdrained => ⟨hc, hdrained⟩
    | cons seg segs ih => exact fun c hc _ => ih _ (hc.arrive hend) (r.arrive_drained c seg)
  obtain ⟨hway, hdrained⟩ := hrun segs ⟨s, [], []⟩ ⟨.inl rfl, bytes, hsegs, h⟩ (.inr rfl)
  obtain ⟨hstate, hrest⟩ := hway.of_drained hend hdrained
  exact ⟨hstate, hrest, hstate ▸ hway.open_buf⟩

/-- **Segmentation does not matter**: a reader that finishes on `bytes` is delivered any split of
the stream, and it has finished in the same state with the same bytes unread. -/
theorem deliver_eq {bytes : List Byte} (h : Reaches r s bytes s') (hend : r.want s' = 0)
    {segs : List (List Byte)} (hsegs : segs.flatten = bytes ++ rest) :
    r.deliver s segs = ⟨s', [], rest⟩ := by
  obtain ⟨hstate, hrest, hbuf⟩ := deliver_of_reaches h (.inl hend) hsegs
  have hbuf : (r.deliver s segs).buf = [] := hbuf.resolve_right (by omega)
  rw [hbuf, List.nil_append] at hrest
  rw [← hstate, ← hbuf, ← hrest]

/-! ### A stream that ends -/

/-- Whole buffers for as long as the stream has them. -/
def readAll (r : Reader σ) (s : σ) (stream : List Byte) : σ :=
  if 0 < r.want s ∧ r.want s ≤ stream.length then
    r.readAll (r.resume s (stream.take (r.want s))) (stream.drop (r.want s))
  else s
termination_by stream.length
decreasing_by
  rw [List.length_drop]
  omega

variable {stream : List Byte}

theorem readAll_of_starved (h : r.Starved s stream) : r.readAll s stream = s := by
  rw [readAll, if_neg]
  rcases h with hzero | hlt
  · omega
  · omega

theorem readAll_block (hpos : 0 < r.want s) (hlen : r.want s ≤ stream.length) :
    r.readAll s stream =
      r.readAll (r.resume s (stream.take (r.want s))) (stream.drop (r.want s)) := by
  rw [readAll, if_pos ⟨hpos, hlen⟩]

/-- What holds at first and is kept by each whole buffer holds in the end. -/
theorem readAll_induction {P : σ → Prop} (hstep : ∀ s block, P s → 0 < r.want s →
      block.length = r.want s → P (r.resume s block))
    (s : σ) (stream : List Byte) (h : P s) : P (r.readAll s stream) := by
  induction s, stream using readAll.induct r with
  | case1 s stream hgo ih =>
    rw [readAll_block hgo.1 hgo.2]
    exact ih (hstep s _ h hgo.1 (List.length_take_of_le hgo.2))
  | case2 s stream hstop =>
    rwa [readAll, if_neg hstop]

/-- A reader with more state reads the same, if the rest of its state has no say. -/
theorem map_readAll {τ : Type u} {r' : Reader τ} {f : τ → σ} (hwant : ∀ t, r'.want t = r.want (f t))
    (hresume : ∀ t block, f (r'.resume t block) = r.resume (f t) block) (t : τ)
    (stream : List Byte) : f (r'.readAll t stream) = r.readAll (f t) stream := by
  induction t, stream using readAll.induct r' with
  | case1 t stream hgo ih =>
    rw [readAll_block hgo.1 hgo.2, ih, hresume, hwant]
    rw [hwant] at hgo
    exact (readAll_block hgo.1 hgo.2).symm
  | case2 t stream hstop =>
    rw [readAll, if_neg hstop]
    rw [hwant] at hstop
    rw [readAll, if_neg hstop]

theorem exists_reaches_readAll (s : σ) (stream : List Byte) :
    ∃ bytes rest, stream = bytes ++ rest ∧ Reaches r s bytes (r.readAll s stream) ∧
      r.Starved (r.readAll s stream) rest := by
  induction s, stream using readAll.induct r with
  | case1 s stream hgo ih =>
    obtain ⟨bytes, rest, hstream, hreach, hend⟩ := ih
    rw [readAll_block hgo.1 hgo.2]
    refine ⟨stream.take (r.want s) ++ bytes, rest, ?_, ?_, hend⟩
    · rw [List.append_assoc, ← hstream, List.take_append_drop]
    · exact .block hgo.1 (List.length_take_of_le hgo.2) hreach
  | case2 s stream hstop =>
    have hend : r.Starved s stream := by
      rw [Starved]
      omega
    rw [readAll_of_starved hend]
    exact ⟨[], stream, rfl, .refl s, hend⟩

/-- **Truncation**: where a stream ends, the reader has read the whole buffers of it. -/
theorem deliver_state (s : σ) (segs : List (List Byte)) :
    (r.deliver s segs).state = r.readAll s segs.flatten := by
  obtain ⟨bytes, rest, hstream, hreach, hend⟩ := exists_reaches_readAll (r := r) s segs.flatten
  exact (deliver_of_reaches hreach hend hstream).1

end Reader
