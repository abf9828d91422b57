import Usbip.Ptp.System
import Usbip.Lib.MarkedRing

/-!
# The invariant of the ring

`Filter.Sound` holds whenever the filter's lock is free. Its core is `RingAt`: read with the
macros of `filter_ptp.c`, the fields `frame_head`, `frame_tail`, `frame_buffer_size`,
`frame_rx_tail` and `frame_rx_tail2` describe a `RecordRing.Ring` of the bytes kept. Around it
stand the facts that tie the ring to the URBs: at most one receive or command URB is under way,
its region is free, and in state `ptpfs_busy` it lies where the data is expected (`Headed`).

The lemmas of this module are about `ptp_produce_`.
-/

namespace Usbip.Ptp

open RecordRing

/-! ### Alignment and lengths -/

theorem le_framebufAlign (x : ℤ) : x ≤ framebufAlign x := by
  unfold framebufAlign
  split <;> omega

theorem framebufAlign_mod (x : ℤ) : framebufAlign x % 64 = 0 := by
  unfold framebufAlign
  split <;> omega

theorem framebufAlign_of_mod {x : ℤ} (h : x % 64 = 0) : framebufAlign x = x := if_pos h

theorem u32_of_bounds {x : ℤ} (h0 : 0 ≤ x) (h : x ≤ framebufFullSize) : u32 x = x :=
  Int.emod_eq_of_lt h0 (by unfold framebufFullSize at h; omega)

section TransferLength

variable (cfg : Config) {x : ℤ}

theorem transferLength_nonneg (h : 0 ≤ x) : 0 ≤ transferLength cfg x :=
  mul_nonneg (Int.ediv_nonneg h cfg.outPipeSize_pos.le) cfg.outPipeSize_pos.le

theorem transferLength_le : transferLength cfg x ≤ x :=
  Int.ediv_mul_le x cfg.outPipeSize_pos.ne'

end TransferLength

/-- The container header is in the first bytes. -/
theorem containerLength_take (data : List Byte) :
    containerLength (data.take bulkHeaderSize) = containerLength data := by
  match data with
  | [] => rfl
  | [_] => rfl
  | [_, _] => rfl
  | [_, _, _] => rfl
  | _ :: _ :: _ :: _ :: _ => rfl

/-! ### The invariant -/

/-- A state that streams, with no URB of the filter's own under way. -/
structure FilterState.Quiet (s : FilterState) : Prop where
  filtering : s.Filtering
  not_busy : s ≠ .busy
  not_drop : s ≠ .drop

/-- A part of the buffer with no byte in it that is kept. -/
structure FreeRegion (kept : List (Cell Byte)) (offset length : ℤ) : Prop where
  offset_nonneg : 0 ≤ offset
  le_full : offset + length ≤ framebufFullSize
  free : ∀ c ∈ kept, ¬ (offset ≤ c.pos ∧ c.pos < offset + length)

/-- A part of the buffer to which the bytes after `head` may go. -/
structure AtHead (tail head size offset length : ℤ) : Prop where
  straight : tail ≤ head → head < size → offset = head ∧ head + length ≤ size
  rolled : head = size → offset = 0 ∧ length ≤ tail
  wrapped : head < tail → offset = head ∧ head + length ≤ tail

theorem AtHead.mono {tail head size offset n m : ℤ} (h : AtHead tail head size offset n)
    (hm : m ≤ n) : AtHead tail head size offset m := by
  refine ⟨fun h₁ h₂ => ?_, fun h₁ => ?_, fun h₁ => ?_⟩
  · have := h.straight h₁ h₂
    exact ⟨this.1, by omega⟩
  · have := h.rolled h₁
    exact ⟨this.1, by omega⟩
  · have := h.wrapped h₁
    exact ⟨this.1, by omega⟩

/-- The head while the frame that starts at `mark` is dropped. -/
structure DropHead (tail head mark : ℤ) : Prop where
  mark_nonneg : 0 ≤ mark
  mark_lt : mark < framebufFullSize
  head : head = mark ∨ head = 0 ∧ 0 < tail ∧ tail ≤ mark

namespace Filter

/-- The end of what the consumer may read: `frame_head`, or the start of the frame being dropped,
while `frame_head` is only where its data goes. -/
def level (f : Filter) : ℤ := if f.state = .drop then f.frameRxTail else f.frameHead

/-- A receive URB is in flight or waits for room. -/
def Receives (f : Filter) : Prop :=
  .selfData ∈ f.requestQueue ∨ ∃ offset length, .data offset length ∈ f.busyQueue

open Classical in
/-- The bytes missing of the last container kept. -/
noncomputable def missing (f : Filter) : ℕ :=
  if f.state ≠ .drop ∧ f.Receives then f.frameRxLength else 0

/-- The fields describe a ring that holds the bytes kept. -/
abbrev RingAt (f : Filter) (missing : ℕ) : Prop :=
  Ring framebufAlign bulkHeaderSize containerLength f.frameTail f.frameBufferSize f.frameLength
    f.kept f.level f.frameRxTail f.frameRxTail2 missing

/-- The region of a receive URB holds no byte that is kept. -/
abbrev Region (f : Filter) (offset length : ℤ) : Prop := FreeRegion f.kept offset length

/-- The region of a receive URB is where the next bytes of the frame are expected. -/
abbrev Headed (f : Filter) (offset length : ℤ) : Prop :=
  AtHead f.frameTail f.frameHead f.frameBufferSize offset length

/-- The first bytes of a frame are received at its mark: only then may the head roll over. -/
def Marked (f : Filter) : Prop :=
  0 ≤ f.frameRxTail → (∀ c ∈ f.kept, c.pos ≠ f.frameRxTail) → f.frameHead ≠ f.frameBufferSize

/-- Where the head is while a frame is dropped. -/
abbrev Dropping (f : Filter) : Prop := DropHead f.frameTail f.frameHead f.frameRxTail

/-- The facts about the buffer that hold in every state. -/
structure Stored (f : Filter) : Prop where
  size_nonneg : 0 ≤ f.frameBufferSize
  size_le : f.frameBufferSize ≤ framebufFullSize
  holds : ∀ c ∈ f.kept, f.frameBuffer c.pos = c.val
  apart : f.kept ≠ [] → f.frameHead ≠ f.frameTail
  rxLength_lt : f.frameRxLength < 2 ^ 32
  mark_aligned : f.frameRxTail % 64 = 0 ∨ f.frameRxTail < 0
  mark₂_aligned : f.frameRxTail2 % 64 = 0 ∨ f.frameRxTail2 < 0

/-- The invariant. -/
structure Sound (f : Filter) : Prop extends Stored f where
  /-- at most one URB of the filter's own is on its way or waits for room -/
  single : f.busyQueue.length + f.requestQueue.count .selfData ≤ 1
  quiet : f.state.Quiet → f.busyQueue = [] ∧ .selfData ∉ f.requestQueue
  head_aligned : f.state.Quiet → f.frameHead % 64 = 0
  region : ∀ offset length, .data offset length ∈ f.busyQueue → f.Region offset length
  headed : f.state = .busy → ∀ offset length, .data offset length ∈ f.busyQueue →
    f.Headed offset length ∧ f.Marked
  /-- only a frame that is being consumed is waited for -/
  waiting : .selfData ∈ f.requestQueue → f.frameRxTail < 0
  ring : f.state.Filtering ∨ .selfData ∈ f.requestQueue → f.RingAt f.missing
  dropping : f.state = .drop → f.Dropping ∧ .cmd ∉ f.busyQueue

/-- What holds of the filter while `ptp_data_complete` has its URB in hand. -/
structure Receiving (f : Filter) : Prop extends Stored f where
  state : f.state = .busy ∨ f.state = .drop
  no_busy : f.busyQueue = []
  no_data : .selfData ∉ f.requestQueue
  ring : f.RingAt (if f.state = .drop then 0 else f.frameRxLength)
  dropping : f.state = .drop → f.Dropping
  begun : f.state = .busy → 0 ≤ f.frameRxTail → ∃ c ∈ f.kept, c.pos = f.frameRxTail
  aligned : f.state = .busy → f.frameRxLength = 0 → f.frameHead % 64 = 0

variable {cfg : Config} {f : Filter} {r : ℕ}

@[simp] theorem level_of_ne_drop (h : f.state ≠ .drop) : f.level = f.frameHead := if_neg h

theorem level_of_drop (h : f.state = .drop) : f.level = f.frameRxTail := if_pos h

theorem RingAt.of_drop (hd : f.state = .drop)
    (h : Ring framebufAlign bulkHeaderSize containerLength f.frameTail f.frameBufferSize
      f.frameLength f.kept f.frameRxTail f.frameRxTail f.frameRxTail2 r) : f.RingAt r := by
  rw [RingAt, level_of_drop hd]
  exact h

theorem RingAt.of_ne_drop (hd : f.state ≠ .drop)
    (h : Ring framebufAlign bulkHeaderSize containerLength f.frameTail f.frameBufferSize
      f.frameLength f.kept f.frameHead f.frameRxTail f.frameRxTail2 r) : f.RingAt r := by
  rw [RingAt, level_of_ne_drop hd]
  exact h

/-! ### Positions -/

theorem toEndSpace_of_le (h : f.frameTail ≤ f.frameHead) :
    f.toEndSpace = f.frameBufferSize - f.frameHead := if_pos h

theorem toEndSpace_of_lt (h : f.frameHead < f.frameTail) :
    f.toEndSpace = f.frameTail - f.frameHead := if_neg (not_le.mpr h)

/-- The head is inside the buffer. -/
structure HeadIn (f : Filter) : Prop where
  tail_nonneg : 0 ≤ f.frameTail
  tail_le : f.frameTail ≤ f.frameBufferSize
  head_nonneg : 0 ≤ f.frameHead
  head_le : f.frameHead ≤ f.frameBufferSize

theorem RingAt.headIn (h : f.RingAt r) (hd : f.state = .drop → f.Dropping) : f.HeadIn := by
  have hT := h.tail_nonneg
  have hTS := h.layout.tail_le le_framebufAlign
  have hL := h.layout.level_nonneg le_framebufAlign hT
  have hLS := h.layout.level_le
  by_cases hdrop : f.state = .drop
  · rw [level_of_drop hdrop] at hL hLS
    rcases (hd hdrop).head with heq | ⟨heq, h0, hle⟩
    · exact ⟨hT, hTS, by omega, by omega⟩
    · exact ⟨hT, hTS, by omega, by omega⟩
  · rw [level_of_ne_drop hdrop] at hL hLS
    exact ⟨hT, hTS, hL, hLS⟩

theorem HeadIn.toEndSpace_nonneg (h : f.HeadIn) : 0 ≤ f.toEndSpace := by
  have := h.head_le
  unfold toEndSpace
  split <;> omega

theorem HeadIn.toEndSpace_le (h : f.HeadIn) (hs : f.frameBufferSize ≤ framebufFullSize) :
    f.toEndSpace ≤ framebufFullSize := by
  have := h.head_nonneg
  have := h.tail_le
  unfold toEndSpace
  split <;> omega

theorem HeadIn.u32_toEndSpace (h : f.HeadIn) (hs : f.frameBufferSize ≤ framebufFullSize) :
    u32 f.toEndSpace = f.toEndSpace :=
  u32_of_bounds h.toEndSpace_nonneg (h.toEndSpace_le hs)

theorem HeadIn.u32_rest (h : f.HeadIn) (hs : f.frameBufferSize ≤ framebufFullSize) :
    u32 (framebufFullSize - f.frameHead) = framebufFullSize - f.frameHead := by
  have := h.head_le
  have := h.head_nonneg
  exact u32_of_bounds (by omega) (by omega)

/-- The room at the head is where the next bytes are expected. -/
theorem HeadIn.headed_toEndSpace (h : f.HeadIn) {n : ℤ} (hn : n ≤ f.toEndSpace) (h0 : 0 < n) :
    f.Headed f.frameHead n := by
  have hT := h.tail_le
  unfold toEndSpace at hn
  refine ⟨fun hTH _ => ?_, fun hHS => ?_, fun hHT => ?_⟩
  · rw [if_pos hTH] at hn
    exact ⟨rfl, by omega⟩
  · rw [if_pos (by omega)] at hn
    omega
  · rw [if_neg (by omega)] at hn
    exact ⟨rfl, by omega⟩

/-- Where the next bytes are expected no byte is kept. -/
theorem Headed.region {offset n : ℤ} (h : f.Headed offset n) (hr : f.RingAt r) (hst : f.Stored)
    (hd : f.state ≠ .drop) : f.Region offset n := by
  have hin := hr.headIn fun h => absurd h hd
  have hT := hin.tail_nonneg
  have hTS := hin.tail_le
  have hH := hin.head_nonneg
  have hHS := hin.head_le
  have hS := hst.size_le
  have hfree : ∀ c ∈ f.kept, (f.frameTail ≤ f.frameHead → f.frameTail ≤ c.pos ∧
      c.pos < f.frameHead) ∧ (f.frameHead < f.frameTail → c.pos < f.frameHead ∨
      f.frameTail ≤ c.pos) := by
    intro c hc
    have := hr.layout.free le_framebufAlign hc
    rwa [level_of_ne_drop hd] at this
  rcases lt_or_ge f.frameHead f.frameTail with hlt | hle
  · obtain ⟨rfl, hn⟩ := h.wrapped hlt
    refine ⟨hH, by omega, fun c hc => ?_⟩
    rcases (hfree c hc).2 hlt with hc | hc <;> omega
  · rcases hHS.lt_or_eq with hlt | heq
    · obtain ⟨rfl, hn⟩ := h.straight hle hlt
      refine ⟨hH, by omega, fun c hc => ?_⟩
      have := (hfree c hc).1 hle
      omega
    · obtain ⟨rfl, hn⟩ := h.rolled heq
      refine ⟨le_rfl, by omega, fun c hc => ?_⟩
      have := (hfree c hc).1 hle
      omega

/-! ### Where the next transfer goes -/

/-- Making room changes nothing but the end of the buffer, which the ring allows. -/
theorem RingAt.makeRoom (h : f.RingAt r) (hst : f.Stored) (hd : f.state = .drop → f.Dropping) :
    (f.resized cfg).RingAt r ∧
      0 ≤ (f.makeRoom cfg).size ∧ (f.makeRoom cfg).size ≤ framebufFullSize := by
  have hin := h.headIn hd
  have hT := hin.tail_nonneg
  have hS0 := hst.size_nonneg
  have hS := hst.size_le
  unfold Filter.resized Filter.makeRoom
  split
  next hshort =>
    -- the head is above the tail, so it is the level
    have hlevel : f.level = f.frameHead := by
      by_cases hdrop : f.state = .drop
      · rcases (hd hdrop).head with heq | ⟨heq, h0, -⟩
        · rw [level_of_drop hdrop, heq]
        · omega
      · exact level_of_ne_drop hdrop
    have hTL : f.frameTail ≤ f.level := hlevel ▸ hshort.2.le
    split
    next =>
      have hLF : f.level ≤ framebufFullSize := hlevel ▸ hin.head_le.trans hS
      exact ⟨Ring.resize le_framebufAlign h hTL hLF, hS0.trans hS, le_rfl⟩
    next =>
      split
      · refine ⟨Ring.resize le_framebufAlign h hTL hlevel.le, ?_, ?_⟩ <;>
          dsimp only <;> have := hin.head_le <;> omega
      · exact ⟨h, hS0, hS⟩
  next => exact ⟨h, hS0, hS⟩

/-- The room made for a frame that is not dropped is where its next bytes are expected. -/
theorem RingAt.headed_makeRoom (h : f.RingAt r) (hst : f.Stored) (hd : f.state ≠ .drop) {n : ℤ}
    (hn : n ≤ (f.makeRoom cfg).length) (h0 : 0 < n)
    (hlen : cfg.outPipeSize ≤ (f.makeRoom cfg).length) :
    (f.resized cfg).Headed (f.makeRoom cfg).head n := by
  have hin := h.headIn fun h => absurd h hd
  have hu := hin.u32_toEndSpace hst.size_le
  have hP0 := cfg.outPipeSize_pos
  unfold Filter.resized
  unfold Filter.makeRoom at hn hlen ⊢
  split
  next hshort =>
    rw [if_pos hshort] at hn hlen
    split
    next hP =>
      rw [if_pos hP] at hn
      dsimp only at hn
      exact ⟨fun _ _ => ⟨rfl, by dsimp only; omega⟩, fun _ => by dsimp only at *; omega,
        fun _ => by dsimp only at *; omega⟩
    next hP =>
      rw [if_neg hP] at hn hlen
      split
      next hT =>
        rw [if_pos hT] at hn
        exact ⟨fun _ hlt => absurd hlt (lt_irrefl _), fun _ => ⟨rfl, hn⟩,
          fun hlt => by dsimp only at hlt; omega⟩
      next hT =>
        rw [if_neg hT] at hlen
        dsimp only at hlen
        omega
  next hroom =>
    rw [if_neg hroom] at hn
    dsimp only at hn
    rw [hu] at hn
    exact hin.headed_toEndSpace hn h0

/-! ### Dropping a frame -/

/-- What a pass of the loop needs: a mark that the frame may be cut off at. -/
structure Droppable (f : Filter) : Prop extends Stored f where
  state : f.state = .drop
  mark_nonneg : 0 ≤ f.frameRxTail
  ring : ∃ L r, Ring framebufAlign bulkHeaderSize containerLength f.frameTail f.frameBufferSize
    f.frameLength f.kept L f.frameRxTail f.frameRxTail2 r ∧
      ((∃ c ∈ f.kept, c.pos = f.frameRxTail) ∨
        L = f.frameRxTail ∧ f.frameRxTail < framebufFullSize)

/-- What a pass of the loop achieves. -/
structure Dropped (f : Filter) : Prop extends Stored f where
  state : f.state = .drop
  ring : f.RingAt 0
  dropping : f.Dropping
  region : f.Region f.frameHead f.toEndSpace

theorem Droppable.mark_lt (h : f.Droppable) : f.frameRxTail < framebufFullSize := by
  obtain ⟨L, r, hring, ⟨c, hc, hpos⟩ | ⟨-, hlt⟩⟩ := h.ring
  · have := (hring.layout.bounds le_framebufAlign hring.tail_nonneg hc).2
    have := h.size_le
    omega
  · exact hlt

theorem Droppable.dropPass (h : f.Droppable) : f.dropPass.Dropped := by
  obtain ⟨L, r, hring, hmark⟩ := h.ring
  have hp0 := h.mark_nonneg
  have hpF := h.mark_lt
  have hS0 := h.size_nonneg
  have hS := h.size_le
  have hcut := hring.discard hp0
  have hT := hcut.tail_nonneg
  have hTS := hcut.layout.tail_le le_framebufAlign
  have hpS := hcut.layout.level_le
  have hholds : ∀ c ∈ before f.frameRxTail f.kept, f.frameBuffer c.pos = c.val :=
    fun c hc => h.holds c (mem_before hc).1
  have hfree := fun {c} (hc : c ∈ before f.frameRxTail f.kept) =>
    hcut.layout.free le_framebufAlign hc
  have hapart := hcut.layout.level_ne_tail le_framebufAlign
  unfold Filter.dropPass Filter.dropPlace
  split
  next hle =>
    -- the data goes from the mark up to the tail
    refine ⟨⟨hS0, hS, hholds, hapart, h.rxLength_lt, h.mark_aligned, h.mark₂_aligned⟩, h.state,
      ?_, ⟨hp0, hpF, .inl rfl⟩, hp0, ?_, ?_⟩
    · exact RingAt.of_drop h.state hcut
    · rcases hle.lt_or_eq with hlt | heq
      · rw [toEndSpace_of_lt hlt]
        dsimp only [discard]
        omega
      · rw [toEndSpace_of_le heq.ge]
        dsimp only [discard]
        omega
    · intro c hc
      rcases hle.lt_or_eq with hlt | heq
      · rw [toEndSpace_of_lt hlt]
        have := (hfree hc).2 hlt
        dsimp only [discard]
        omega
      · exact absurd heq (hapart (List.ne_nil_of_mem hc))
  next hgt =>
    have hTp : f.frameTail ≤ f.frameRxTail := (not_le.mp hgt).le
    split
    next hroom =>
      -- it goes from the mark up to the full size of the buffer
      refine ⟨⟨hS0.trans hS, le_rfl, hholds, hapart, h.rxLength_lt, h.mark_aligned,
        h.mark₂_aligned⟩, h.state, ?_, ⟨hp0, hpF, .inl rfl⟩, hp0, ?_, ?_⟩
      · exact RingAt.of_drop h.state (hcut.resize le_framebufAlign hTp hpF.le)
      · rw [toEndSpace_of_le hTp]
        dsimp only [discard]
        omega
      · intro c hc
        have := ((hfree hc).1 hTp).2
        dsimp only [discard]
        omega
    next hroom =>
      -- it goes from the start of the buffer up to the tail
      have hT0 : 0 < f.frameTail := by
        dsimp only [discard] at hroom
        omega
      refine ⟨⟨hS0, hS, hholds, fun _ => hT0.ne, h.rxLength_lt, h.mark_aligned,
        h.mark₂_aligned⟩, h.state, ?_, ⟨hp0, hpF, .inr ⟨rfl, hT0, hTp⟩⟩, le_rfl, ?_, ?_⟩
      · exact RingAt.of_drop h.state hcut
      · rw [toEndSpace_of_lt hT0]
        dsimp only [discard]
        omega
      · intro c hc
        have := ((hfree hc).1 hTp).1
        rw [toEndSpace_of_lt hT0]
        dsimp only [discard]
        omega

/-- The frame before a dropped one can be dropped too, when it is marked. -/
theorem Dropped.dropPrevious (h : f.Dropped) (hq : 0 ≤ f.frameRxTail2) :
    f.dropPrevious.Droppable := by
  have hring := h.ring
  rw [RingAt, level_of_drop h.state] at hring
  have hneg : (-1 : ℤ) < 0 := by decide
  refine ⟨⟨h.size_nonneg, h.size_le, h.holds, h.apart, h.rxLength_lt, h.mark₂_aligned,
    .inr hneg⟩, h.state, hq, f.frameRxTail, 0, hring.step_back hneg, ?_⟩
  by_cases hcell : ∃ c ∈ f.kept, c.pos = f.frameRxTail2
  · exact .inl hcell
  · have heq := (hring.mark₂ hq).level fun c hc hpos => hcell ⟨c, hc, hpos⟩
    have := h.dropping.mark_lt
    exact .inr ⟨heq.symm, heq.trans_lt this⟩

theorem Droppable.dropFrame (h : f.Droppable) : (f.dropFrame cfg).Dropped := by
  unfold Filter.dropFrame
  split
  next hback => exact (h.dropPass.dropPrevious hback.1).dropPass
  next => exact h.dropPass

section Frame

@[simp] theorem dropPass_busyQueue : f.dropPass.busyQueue = f.busyQueue := by
  unfold dropPass dropPlace
  split
  · rfl
  · split <;> rfl

@[simp] theorem dropPass_requestQueue : f.dropPass.requestQueue = f.requestQueue := by
  unfold dropPass dropPlace
  split
  · rfl
  · split <;> rfl

@[simp] theorem dropFrame_busyQueue : (f.dropFrame cfg).busyQueue = f.busyQueue := by
  unfold dropFrame
  split <;> simp [Filter.dropPrevious]

@[simp] theorem dropFrame_requestQueue : (f.dropFrame cfg).requestQueue = f.requestQueue := by
  unfold dropFrame
  split <;> simp [Filter.dropPrevious]

end Frame

end Filter

end Usbip.Ptp
