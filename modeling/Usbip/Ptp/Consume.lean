import Usbip.Ptp.Produce

/-!
# `ptp_consume_` keeps the invariant

The two parts of a pass are `Sound.beginContainer`, which reads a container header at the tail,
and `Sound.advance`, which takes the copied bytes away there. What the pass relies on and the
code does not check is the condition `PassFits` on the state before it.
-/

namespace Usbip.Ptp.Filter

open RecordRing

variable {cfg : Config} {f : Filter}

/-! ### Starting a container -/

/-- The length of the container at the tail, or what is left of the one under way. -/
def servingLength (f : Filter) : ℕ :=
  if f.frameLength = 0 then containerLength f.header else f.frameLength

/-- A pass of the consumer, with `room` bytes left in the client's URB, meets no slip of the
source. A container does not start where both marks stand, and while the level is at the end of
the buffer the pass stops short of that end. -/
def PassFits (f : Filter) (room : ℕ) : Prop :=
  (f.frameLength = 0 → bulkHeaderSize ≤ f.toEndCount →
    ¬ (f.frameTail = f.frameRxTail2 ∧ f.frameTail = f.frameRxTail)) ∧
  (f.level = f.frameBufferSize → f.frameLength ≠ 0 ∨ bulkHeaderSize ≤ f.toEndCount →
    (room : ℤ) < f.frameBufferSize - f.frameTail ∨
      (f.servingLength : ℤ) < f.frameBufferSize - f.frameTail)

instance (f : Filter) (room : ℕ) : Decidable (f.PassFits room) := by
  unfold PassFits level
  infer_instance

/-- Bytes up to the head or the end of the buffer lie inside it. -/
theorem HeadIn.toEndCount_le (h : f.HeadIn) : f.frameTail + f.toEndCount ≤ f.frameBufferSize := by
  have := h.head_le
  unfold toEndCount
  split <;> omega

theorem HeadIn.toEndCount_nonneg (h : f.HeadIn) : 0 ≤ f.toEndCount := by
  have := h.tail_le
  unfold toEndCount
  split <;> omega

theorem HeadIn.u32_toEndCount (h : f.HeadIn) (hs : f.frameBufferSize ≤ framebufFullSize) :
    u32 f.toEndCount = f.toEndCount := by
  have := h.toEndCount_le
  have := h.tail_nonneg
  exact u32_of_bounds h.toEndCount_nonneg (by omega)

/-- As long as the count is no negative number, the mixed comparisons do no harm. -/
theorem copyLength_eq (hu : u32 f.toEndCount = f.toEndCount) (room : ℕ) :
    f.copyLength room = min (min room f.toEndCount.toNat) f.frameLength := by
  have h0 : 0 ≤ f.toEndCount := hu ▸ Int.emod_nonneg _ (by decide)
  have hlt : f.toEndCount < 2 ^ 32 := hu ▸ Int.emod_lt_of_pos _ (by decide)
  have hmin : u32 (min (room : ℤ) f.toEndCount) = min (room : ℤ) f.toEndCount :=
    Int.emod_eq_of_lt (by omega) (by omega)
  rw [copyLength, hmin]
  omega

theorem Sound.ringAt (h : f.Sound) (hf : f.state.Filtering) : f.RingAt f.missing :=
  h.ring (.inl hf)

theorem Sound.headIn (h : f.Sound) (hf : f.state.Filtering) : f.HeadIn :=
  (h.ringAt hf).headIn fun hd => (h.dropping hd).1

/-- Passing the start of a frame. -/
theorem Sound.clearMark (h : f.Sound)
    (hd : f.frameTail ≠ f.frameRxTail2 → f.frameTail = f.frameRxTail → f.state ≠ .drop) :
    f.clearMark.Sound := by
  have hneg : (-1 : ℤ) < 0 := by decide
  unfold Filter.clearMark
  split
  next =>
    refine ⟨⟨h.size_nonneg, h.size_le, h.holds, h.apart, h.rxLength_lt, h.mark_aligned, .inr hneg⟩,
      h.single, h.quiet, h.head_aligned, h.region, h.headed, h.waiting, fun hr => ?_, h.dropping⟩
    exact (h.ring hr).unmark₂ hneg
  next hne =>
    split
    next heq =>
      have hnd := hd hne heq
      refine ⟨⟨h.size_nonneg, h.size_le, h.holds, h.apart, h.rxLength_lt, .inr hneg,
        h.mark₂_aligned⟩, h.single, h.quiet, h.head_aligned, h.region,
        fun hb o n hm => ⟨(h.headed hb o n hm).1, fun h0 => absurd h0 (not_le.mpr hneg)⟩,
        fun _ => hneg, fun hr => ?_, fun hd => absurd hd hnd⟩
      have hring := h.ring hr
      rw [RingAt, level_of_ne_drop hnd, ← heq] at hring
      exact RingAt.of_ne_drop hnd (hring.unmark le_framebufAlign hne hneg)
    next => exact h

@[simp] theorem clearMark_kept : f.clearMark.kept = f.kept := by
  unfold clearMark
  split
  · rfl
  · split <;> rfl

@[simp] theorem clearMark_state : f.clearMark.state = f.state := by
  unfold clearMark
  split
  · rfl
  · split <;> rfl

@[simp] theorem clearMark_toEndCount : f.clearMark.toEndCount = f.toEndCount := by
  unfold clearMark
  split
  · rfl
  · split <;> rfl

/-- A container may begin, but as much of the buffer is filled as before. -/
theorem toEndCount_of_go {f' : Filter} {actual : ℕ} (h : f.beginContainer actual = .go f') :
    f'.toEndCount = f.toEndCount := by
  unfold beginContainer at h
  split_ifs at h <;> cases h
  · rfl
  · exact clearMark_toEndCount

/-- After that no mark stands at the tail. -/
theorem clearMark_ne (hmarks : ¬ (f.frameTail = f.frameRxTail2 ∧ f.frameTail = f.frameRxTail)) :
    (0 ≤ f.clearMark.frameRxTail → f.frameTail ≠ f.clearMark.frameRxTail) ∧
      (0 ≤ f.clearMark.frameRxTail2 → f.frameTail ≠ f.clearMark.frameRxTail2) := by
  unfold clearMark
  split
  next heq => exact ⟨fun _ hp => hmarks ⟨heq, hp⟩, fun h0 => absurd h0 (by dsimp only; decide)⟩
  next hq =>
    split
    next => exact ⟨fun h0 => absurd h0 (by dsimp only; decide), fun _ => hq⟩
    next hp => exact ⟨fun _ => hp, fun _ => hq⟩

/-- With a container header to read, bytes are kept and the first of them lies at the tail. -/
theorem Sound.exists_head (h : f.Sound) (hf : f.state.Filtering)
    (hcount : (bulkHeaderSize : ℤ) ≤ f.toEndCount)
    (hmarks : ¬ (f.frameTail = f.frameRxTail2 ∧ f.frameTail = f.frameRxTail))
    (hd : f.frameTail ≠ f.frameRxTail2 → f.frameTail = f.frameRxTail → f.state ≠ .drop) :
    ∃ c cs, f.kept = c :: cs ∧ c.pos = f.frameTail := by
  have hring := h.ringAt hf
  have hin := h.headIn hf
  have hle := hin.toEndCount_le
  have hhdr : (0 : ℤ) < bulkHeaderSize := by decide
  cases hk : f.kept with
  | cons c cs =>
    have hlay := hring.layout
    rw [hk] at hlay
    exact ⟨c, cs, rfl, hlay.head_pos (by omega)⟩
  | nil =>
    exfalso
    have hlay := hring.layout
    rw [hk] at hlay
    have hlevel : f.level = f.frameTail := by
      cases hlay with
      | linear chain level fits => exact level.symm
      | wrapped as bs split upper fills lower level apart fits =>
        obtain ⟨rfl, rfl⟩ : as = [] ∧ bs = [] := by simpa using split.symm
        rcases fills with hTS | ⟨x, hx, -⟩
        · rw [walkEnd_nil] at hTS
          omega
        · simp at hx
    by_cases hdrop : f.state = .drop
    · rw [level_of_drop hdrop] at hlevel
      by_cases hq : f.frameTail = f.frameRxTail2
      · exact hmarks ⟨hq, hlevel.symm⟩
      · exact hd hq hlevel.symm hdrop
    · rw [level_of_ne_drop hdrop] at hlevel
      have : f.toEndCount = 0 := by
        unfold toEndCount
        rw [if_pos hlevel.ge]
        omega
      omega

/-- The header read at the tail is that of the container that is kept there. -/
theorem Sound.header_kept (h : f.Sound) (hf : f.state.Filtering) (h0 : f.frameLength = 0)
    {c : Cell Byte} {cs : List (Cell Byte)} (hk : f.kept = c :: cs)
    (hcount : (bulkHeaderSize : ℤ) ≤ f.toEndCount) :
    f.header = (f.kept.take bulkHeaderSize).map Cell.val := by
  have hring := h.ringAt hf
  have hle := (h.headIn hf).toEndCount_le
  have hst := hring.streamed
  have hlay := hring.layout
  rw [h0, hk] at hst
  rw [hk] at hlay
  have hopen := hst.open
  obtain ⟨hlen, hleft, -, -, -⟩ := hst
  have hread := hlay.readMem_eq le_framebufAlign hopen hleft hlen (by omega)
    fun x hx => h.holds x (hk ▸ hx)
  rw [hk]
  exact hread

/-- The header at the tail tells the length of the container that is kept there. -/
theorem Sound.header_eq (h : f.Sound) (hf : f.state.Filtering) (h0 : f.frameLength = 0)
    {c : Cell Byte} {cs : List (Cell Byte)} (hk : f.kept = c :: cs)
    (hcount : (bulkHeaderSize : ℤ) ≤ f.toEndCount) :
    containerLength f.header = c.left ∧ bulkHeaderSize ≤ c.left := by
  have hst := (h.ringAt hf).streamed
  rw [h0, hk] at hst
  obtain ⟨-, hleft, -, hval, -⟩ := hst
  rw [h.header_kept hf h0 hk hcount, hk]
  exact ⟨hval, hleft⟩

/-- The level is none of the marks that are cleared. -/
theorem clearMark_level
    (hd : f.frameTail ≠ f.frameRxTail2 → f.frameTail = f.frameRxTail → f.state ≠ .drop) :
    f.clearMark.level = f.level := by
  unfold clearMark
  split
  next => rfl
  next hq =>
    split
    next hp =>
      have hnd := hd hq hp
      rw [level_of_ne_drop hnd]
      exact level_of_ne_drop (f := { f with frameRxTail := -1 }) hnd
    next => rfl

theorem clearMark_eq : f.clearMark =
    { f with
      frameRxTail := f.clearMark.frameRxTail
      frameRxTail2 := f.clearMark.frameRxTail2 } := by
  unfold clearMark
  split
  · rfl
  · split <;> rfl

/-- Looking at the container at the tail keeps what clearing a mark, reading the type and reading
the length keep. In the state `drop` the first mark is not cleared. -/
theorem beginContainer_keeps {P : Filter → Prop} (h : P f)
    (hclear : (f.frameTail ≠ f.frameRxTail2 → f.frameTail = f.frameRxTail → f.state ≠ .drop) →
      P f.clearMark)
    (htype : ∀ g : Filter, P g → P g.readType) (hlength : ∀ g : Filter, P g → P g.readLength)
    (actual : ℕ) :
    match f.beginContainer actual with
    | .stop f' => P f'
    | .bypass f' => P f'
    | .go f' => P f' := by
  unfold Filter.beginContainer
  by_cases h0 : f.frameLength ≠ 0
  · rw [if_pos h0]
    exact h
  · rw [if_neg h0]
    by_cases hstop : f.frameTail ≠ f.frameRxTail2 ∧ f.frameTail = f.frameRxTail ∧ f.state = .drop
    · rw [if_pos hstop]
      exact h
    · rw [if_neg hstop]
      have hcleared := hclear fun hq hp hdrop => hstop ⟨hq, hp, hdrop⟩
      have htyped := htype _ hcleared
      split_ifs
      · exact hcleared
      · exact htyped
      · exact hlength _ htyped
      · exact hlength _ htyped

/-- The header of the container at the tail has been read. -/
theorem Sound.readLength (h : f.Sound) (hf : f.state.Filtering) (h0 : f.frameLength = 0)
    {c : Cell Byte} {cs : List (Cell Byte)} (hk : f.kept = c :: cs)
    (hlen : containerLength f.header = c.left) (hp : 0 ≤ f.frameRxTail → c.pos ≠ f.frameRxTail)
    (hq : 0 ≤ f.frameRxTail2 → c.pos ≠ f.frameRxTail2) : f.readLength.Sound := by
  refine ⟨⟨h.size_nonneg, h.size_le, h.holds, h.apart, h.rxLength_lt, h.mark_aligned,
    h.mark₂_aligned⟩, h.single, h.quiet, h.head_aligned, h.region, h.headed, h.waiting,
    fun _ => ?_, h.dropping⟩
  have hring := h.ringAt hf
  rw [RingAt, h0, hk] at hring
  have hopen := hring.open hp hq
  rw [← hk, ← hlen] at hopen
  exact hopen

/-- What a pass finds at the tail. -/
theorem Sound.beginContainer (h : f.Sound) (hf : f.state.Filtering)
    (hmarks : f.frameLength = 0 → bulkHeaderSize ≤ f.toEndCount →
      ¬ (f.frameTail = f.frameRxTail2 ∧ f.frameTail = f.frameRxTail)) (actual : ℕ) :
    match f.beginContainer actual with
    | .stop f' => f'.Sound
    | .bypass f' => f'.Sound
    | .go f' => f'.Sound ∧ f'.frameLength = f.servingLength ∧
        (f.frameLength ≠ 0 ∨ (bulkHeaderSize : ℤ) ≤ f.toEndCount) ∧
        f' = { f with
          frameRxTail := f'.frameRxTail, frameRxTail2 := f'.frameRxTail2,
          framePduEnd := f'.framePduEnd, frameLength := f'.frameLength } ∧
        f'.level = f.level := by
  unfold Filter.beginContainer
  by_cases h0 : f.frameLength = 0
  · rw [if_neg (not_not.mpr h0)]
    by_cases hstop : f.frameTail ≠ f.frameRxTail2 ∧ f.frameTail = f.frameRxTail ∧ f.state = .drop
    · rw [if_pos hstop]
      exact h
    · rw [if_neg hstop]
      have hd : f.frameTail ≠ f.frameRxTail2 → f.frameTail = f.frameRxTail → f.state ≠ .drop :=
        fun hq hp hdrop => hstop ⟨hq, hp, hdrop⟩
      have hclear := h.clearMark hd
      rw [(h.headIn hf).u32_toEndCount h.size_le]
      by_cases hcount : f.toEndCount < bulkHeaderSize
      · rw [if_pos hcount]
        exact hclear
      · rw [if_neg hcount]
        rw [not_lt] at hcount
        by_cases hactual : actual ≠ 0
        · rw [if_pos hactual]
          exact hclear.frame _ _ _ _ _ _ _ _ _
        · rw [if_neg hactual]
          obtain ⟨c, cs, hk, hpos⟩ := h.exists_head hf hcount (hmarks h0 hcount) hd
          obtain ⟨hlen, hleft⟩ := h.header_eq hf h0 hk hcount
          rw [if_neg (by omega)]
          have hne := clearMark_ne (hmarks h0 hcount)
          have hlevel := clearMark_level hd
          have hheader : f.clearMark.readType.header = f.header := by
            unfold header readType
            rw [clearMark_eq]
          refine ⟨?_, ?_, .inr hcount, ?_, hlevel⟩
          · have hstate : f.clearMark.state = f.state := clearMark_state
            have hkept : f.clearMark.kept = f.kept := clearMark_kept
            have hzero : f.clearMark.frameLength = 0 := by rw [clearMark_eq]; exact h0
            have htyped : f.clearMark.readType.Sound := hclear.frame _ _ _ _ _ _ _ _ _
            exact htyped.readLength (hstate ▸ hf) hzero (hkept.trans hk)
              ((congrArg containerLength hheader).trans hlen)
              (fun hp => hpos.trans_ne (hne.1 hp)) (fun hq => hpos.trans_ne (hne.2 hq))
          · rw [servingLength, if_pos h0]
            exact congrArg containerLength hheader
          · rw [clearMark_eq]
            rfl
  · rw [if_pos h0]
    exact ⟨h, by rw [servingLength, if_neg h0], .inl h0, rfl, rfl⟩

/-! ### Copying -/

variable {n : ℕ}

/-- How many bytes of the first container are kept. -/
theorem Sound.le_kept (h : f.Sound) (hf : f.state.Filtering) (hr : n ≤ f.frameLength)
    (hn : (n : ℤ) ≤ f.toEndCount) : n ≤ f.kept.length := by
  have hring := h.ringAt hf
  by_cases hd : f.state = .drop
  · have hst := hring.streamed
    rw [missing_of_drop hd] at hst
    exact hr.trans hst.le_length
  · have hlay := hring.layout
    rw [level_of_ne_drop hd] at hlay
    unfold toEndCount at hn
    refine hlay.le_length le_framebufAlign hring.streamed hr (fun hTL => ?_) fun hLT => ?_
    · rw [if_pos hTL] at hn
      omega
    · rw [if_neg (by omega)] at hn
      omega

/-- The bytes copied are the first ones kept, which are kept no more. -/
theorem Sound.advance_kept (h : f.Sound) (hf : f.state.Filtering) (hr : n ≤ f.frameLength)
    (hn : (n : ℤ) ≤ f.toEndCount) : (f.advance n).kept = f.kept.drop n := by
  have hring := h.ringAt hf
  have hlen := h.le_kept hf hr hn
  have hle := (h.headIn hf).toEndCount_le
  have htake := hring.layout.take_pos le_framebufAlign hring.streamed hr hlen (by omega)
  have hdrop := hring.layout.drop_pos le_framebufAlign hring.streamed hr hlen (by omega)
  have hsplit := List.take_append_drop n f.kept
  change f.kept.filter (fun c => ¬ (f.frameTail ≤ c.pos ∧ c.pos < f.frameTail + n)) = _
  conv_lhs => rw [← hsplit]
  rw [List.filter_append, List.filter_eq_nil_iff.mpr fun c hc => by simpa using htake c hc,
    List.nil_append]
  exact List.filter_eq_self.mpr fun c hc => decide_eq_true (hdrop c hc)

/-- What is copied is what the camera delivered. -/
theorem Sound.readMem_eq (h : f.Sound) (hf : f.state.Filtering) (hr : n ≤ f.frameLength)
    (hn : (n : ℤ) ≤ f.toEndCount) :
    readMem f.frameBuffer f.frameTail n = (f.kept.take n).map Cell.val := by
  have hring := h.ringAt hf
  have hle := (h.headIn hf).toEndCount_le
  exact hring.layout.readMem_eq le_framebufAlign hring.streamed hr (h.le_kept hf hr hn)
    (by omega) h.holds

section Advance

variable (h : f.Sound) (hf : f.state.Filtering) (h0 : 0 < n) (hr : n ≤ f.frameLength)
  (hn : (n : ℤ) ≤ f.toEndCount)
include h hf h0 hr hn

omit hr hn in
/-- Inside the buffer only the tail moves. -/
theorem Sound.advance_inside (hlt : f.frameTail + n < f.frameBufferSize) :
    (f.advance n).frameBufferSize = f.frameBufferSize ∧
      (f.advance n).frameTail =
        if n = f.frameLength then framebufAlign (f.frameTail + n) else f.frameTail + n := by
  have hT := (h.ringAt hf).tail_nonneg
  have hmod : (f.frameTail + n) % f.frameBufferSize = f.frameTail + n :=
    Int.emod_eq_of_lt (by omega) hlt
  constructor
  · change (if (f.frameTail + n) % f.frameBufferSize < f.frameTail then _ else _) = _
    rw [hmod, if_neg (by omega)]
  · change (if f.frameLength = n then framebufAlign ((f.frameTail + n) % f.frameBufferSize)
      else (f.frameTail + n) % f.frameBufferSize) = _
    rw [hmod]
    simp only [eq_comm]

/-- At the end of the buffer the tail rolls over, and the buffer gets its full size back. -/
theorem Sound.advance_end (heq : f.frameTail + n = f.frameBufferSize)
    (hL : f.level ≠ f.frameBufferSize) :
    (f.advance n).frameBufferSize = framebufFullSize ∧ (f.advance n).frameTail = 0 ∧
      f.level < f.frameTail := by
  have hring := h.ringAt hf
  have hLT := (hring.layout.pop_end le_framebufAlign hring.streamed h0 hr (h.le_kept hf hr hn)
    heq hL le_rfl).2
  have hL0 := hring.layout.level_nonneg le_framebufAlign hring.tail_nonneg
  have hmod : (f.frameTail + n) % f.frameBufferSize = 0 := by rw [heq, Int.emod_self]
  refine ⟨?_, ?_, hLT⟩
  · change (if (f.frameTail + n) % f.frameBufferSize < f.frameTail then _ else _) = _
    rw [hmod, if_pos (by omega)]
  · change (if f.frameLength = n then framebufAlign ((f.frameTail + n) % f.frameBufferSize)
      else (f.frameTail + n) % f.frameBufferSize) = _
    rw [hmod, framebufAlign_of_mod (by decide)]
    exact ite_self 0

/-- The ring without the bytes copied. -/
theorem Sound.advance_ring (hL : f.frameTail + n = f.frameBufferSize →
    f.level ≠ f.frameBufferSize) : (f.advance n).RingAt f.missing := by
  have hring := h.ringAt hf
  have hlen := h.le_kept hf hr hn
  have hle := (h.headIn hf).toEndCount_le
  have hkept := h.advance_kept hf hr hn
  have hlevel : (f.advance n).level = f.level := rfl
  have hlength : (f.advance n).frameLength = f.frameLength - n := rfl
  rw [RingAt, hkept, hlevel, hlength]
  rcases (show f.frameTail + n ≤ f.frameBufferSize by omega).lt_or_eq with hlt | heq
  · obtain ⟨hsize, htail⟩ := h.advance_inside hf h0 hlt
    rw [hsize, htail]
    exact hring.pop le_framebufAlign h0 hr hlen hlt
  · obtain ⟨hsize, htail, -⟩ := h.advance_end hf h0 hr hn heq (hL heq)
    rw [hsize, htail]
    exact hring.pop_end le_framebufAlign h0 hr hlen heq (hL heq) h.size_le

/-- The place of the transfer under way stays where the next bytes are expected. -/
theorem Sound.advance_headed (hd : f.state ≠ .drop)
    (hL : f.frameTail + n = f.frameBufferSize → f.level ≠ f.frameBufferSize) {offset len : ℤ}
    (hh : f.Headed offset len) : (f.advance n).Headed offset len := by
  have hring := h.ringAt hf
  have hin := h.headIn hf
  have hle := hin.toEndCount_le
  have hS := h.size_le
  have hH := hin.head_nonneg
  have hHS := hin.head_le
  have hhead : (f.advance n).frameHead = f.frameHead := rfl
  unfold Headed
  rw [hhead]
  rw [level_of_ne_drop hd] at hL
  rcases (show f.frameTail + n ≤ f.frameBufferSize by omega).lt_or_eq with hlt | heq
  · obtain ⟨hsize, htail⟩ := h.advance_inside hf h0 hlt
    rw [hsize, htail]
    have hge : f.frameTail + n ≤
        if n = f.frameLength then framebufAlign (f.frameTail + n) else f.frameTail + n := by
      have := le_framebufAlign (f.frameTail + n)
      split <;> omega
    have hpop := hring.layout.pop_le le_framebufAlign hring.streamed h0 hr (h.le_kept hf hr hn)
    rw [level_of_ne_drop hd] at hpop
    refine ⟨fun hTH hlt' => hh.straight (by omega) hlt', fun hroll => ?_, fun hHT => ?_⟩
    · have := hh.rolled hroll
      exact ⟨this.1, by omega⟩
    · rcases lt_or_ge f.frameHead f.frameTail with hw | hs
      · have := hh.wrapped hw
        exact ⟨this.1, by omega⟩
      · have := hpop hs
        omega
  · obtain ⟨hsize, htail, hLT⟩ := h.advance_end hf h0 hr hn heq
      (by rw [level_of_ne_drop hd]; exact hL heq)
    rw [level_of_ne_drop hd] at hLT
    rw [hsize, htail]
    have hw := hh.wrapped hLT
    refine ⟨fun _ _ => ⟨hw.1, by omega⟩, fun hroll => by omega, fun hneg => by omega⟩

/-- The head of a frame being dropped stays where it may be. -/
theorem Sound.advance_dropping (hd : f.state = .drop)
    (hL : f.frameTail + n = f.frameBufferSize → f.level ≠ f.frameBufferSize) :
    (f.advance n).Dropping := by
  have hdrop := (h.dropping hd).1
  have hring := h.ringAt hf
  have hle := (h.headIn hf).toEndCount_le
  refine ⟨hdrop.mark_nonneg, hdrop.mark_lt, hdrop.head.imp_right fun ⟨hzero, hT, hTp⟩ => ?_⟩
  refine ⟨hzero, ?_⟩
  rw [level_of_drop hd] at hL
  rcases (show f.frameTail + n ≤ f.frameBufferSize by omega).lt_or_eq with hlt | heq
  · obtain ⟨hsize, htail⟩ := h.advance_inside hf h0 hlt
    have hge : f.frameTail + n ≤
        if n = f.frameLength then framebufAlign (f.frameTail + n) else f.frameTail + n := by
      have := le_framebufAlign (f.frameTail + n)
      split <;> omega
    have hpop := hring.layout.pop_le le_framebufAlign hring.streamed h0 hr (h.le_kept hf hr hn)
    rw [level_of_drop hd] at hpop
    rw [htail]
    exact ⟨by omega, hpop hTp⟩
  · have := (h.advance_end hf h0 hr hn heq (by rw [level_of_drop hd]; exact hL heq)).2.2
    rw [level_of_drop hd] at this
    omega

/-- **Copying keeps the invariant.** -/
theorem Sound.advance (hL : f.frameTail + n = f.frameBufferSize →
    f.level ≠ f.frameBufferSize) : (f.advance n).Sound := by
  have hring := h.advance_ring hf h0 hr hn hL
  have hkept := h.advance_kept hf hr hn
  have hsub : ∀ c ∈ (f.advance n).kept, c ∈ f.kept := fun c hc =>
    List.mem_of_mem_drop (hkept ▸ hc)
  have hle := (h.headIn hf).toEndCount_le
  have hmiss : (f.advance n).missing = f.missing := rfl
  have hsize : 0 ≤ (f.advance n).frameBufferSize ∧
      (f.advance n).frameBufferSize ≤ framebufFullSize := by
    rcases (show f.frameTail + n ≤ f.frameBufferSize by omega).lt_or_eq with hlt | heq
    · rw [(h.advance_inside hf h0 hlt).1]
      exact ⟨h.size_nonneg, h.size_le⟩
    · rw [(h.advance_end hf h0 hr hn heq (hL heq)).1]
      exact ⟨h.size_nonneg.trans h.size_le, le_rfl⟩
  refine ⟨⟨hsize.1, hsize.2, fun c hc => ?_, fun hne => ?_, h.rxLength_lt, h.mark_aligned,
    h.mark₂_aligned⟩, h.single, h.quiet, h.head_aligned, fun o m hm => ?_, fun hb o m hm => ?_,
    h.waiting, fun _ => hmiss ▸ hring, fun hd => ?_⟩
  · -- what is overwritten is not kept any more
    have hout : ¬ (f.frameTail ≤ c.pos ∧ c.pos < f.frameTail + n) := by
      have := (List.mem_filter.mp (show c ∈ f.kept.filter _ from hc)).2
      exact of_decide_eq_true this
    change (if f.frameTail ≤ c.pos ∧ c.pos < f.frameTail + n then 0xff else f.frameBuffer c.pos) = _
    rw [if_neg hout]
    exact h.holds c (hsub c hc)
  · have hapart := hring.layout.level_ne_tail le_framebufAlign hne
    by_cases hd : f.state = .drop
    · have hdrop := h.advance_dropping hf h0 hr hn hd hL
      rcases hdrop.head with hhead | ⟨hhead, hT, -⟩
      · rw [hhead]
        rwa [level_of_drop (f := f.advance n) hd] at hapart
      · rw [hhead]
        exact hT.ne
    · rwa [level_of_ne_drop (f := f.advance n) hd] at hapart
  · have hregion := h.region o m hm
    exact ⟨hregion.offset_nonneg, hregion.le_full, fun c hc => hregion.free c (hsub c hc)⟩
  · have hstate : f.state = .busy := hb
    have hnd : f.state ≠ .drop := by
      rw [hstate]
      decide
    obtain ⟨hh, hmark⟩ := h.headed hb o m hm
    refine ⟨h.advance_headed hf h0 hr hn hnd hL hh, fun hp0 hne => ?_⟩
    -- the start of the frame is not among the bytes copied
    have hm := (h.ringAt hf).mark hp0
    have heq := hm.level_drop hr (hkept ▸ hne)
    rw [level_of_ne_drop hnd] at heq
    have hne' : ∀ c ∈ f.kept, c.pos ≠ f.frameRxTail := by
      rw [heq, ← level_of_ne_drop hnd]
      exact fun c hc => (h.ringAt hf).layout.pos_ne le_framebufAlign hc
    have hroll := hmark hp0 hne'
    change f.frameHead ≠ (f.advance n).frameBufferSize
    rcases (show f.frameTail + n ≤ f.frameBufferSize by omega).lt_or_eq with hlt | hend
    · rwa [(h.advance_inside hf h0 hlt).1]
    · obtain ⟨hsize', -, hLT⟩ := h.advance_end hf h0 hr hn hend (hL hend)
      rw [level_of_ne_drop hnd] at hLT
      have := h.size_le
      rw [hsize']
      omega
  · exact ⟨h.advance_dropping hf h0 hr hn hd hL, (h.dropping hd).2⟩

end Advance

end Usbip.Ptp.Filter
