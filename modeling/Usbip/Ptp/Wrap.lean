import Usbip.Ptp.Served
import Usbip.Ptp.Transfers

/-!
# The tail at the end of the buffer

While bytes wait in the buffer, `ptp_consume_` can go on only if some of them lie between
`frame_tail` and the end of the buffer or `frame_head`, that is if `ptp_framebuf_to_end_count` is
positive. `Filter.TailInside` says so of the positions alone, for any camera and any client, and
without the invariant of the ring.

One statement of the source can break it. At the end of a container `ptp_consume_` rounds the tail
up to 64 bytes after it has been reduced by the size of the buffer, so the tail may come to stand
at the end of the buffer, or beyond it, where it is not reduced any more.
-/

namespace Usbip.Ptp

open RecordRing

/-- Places in the buffer: the tail is one that holds a byte, the others may be the end as well. -/
structure Placed (state : FilterState) (head tail size mark mark₂ : ℤ) : Prop where
  head_nonneg : 0 ≤ head
  head_le : head ≤ framebufFullSize
  tail_nonneg : 0 ≤ tail
  tail_lt : tail < size
  size_le : size ≤ framebufFullSize
  mark_le : mark ≤ framebufFullSize
  mark₂_le : mark₂ ≤ framebufFullSize
  /-- a frame is dropped back to its mark -/
  mark_nonneg : state = .drop → 0 ≤ mark

/-- Rounding up does not lead out of the buffer. -/
theorem framebufAlign_le {x : ℤ} (h : x ≤ framebufFullSize) :
    framebufAlign x ≤ framebufFullSize := by
  unfold framebufFullSize at *
  unfold framebufAlign
  split <;> omega

namespace Filter

/-- The tail is inside the buffer. -/
abbrev TailInside (f : Filter) : Prop :=
  Placed f.state f.frameHead f.frameTail f.frameBufferSize f.frameRxTail f.frameRxTail2

/-- The end of a container, `n` bytes after the tail, rounded up to 64 bytes, is still inside the
buffer. -/
def EndsInside (f : Filter) (n : ℕ) : Prop :=
  framebufAlign ((f.frameTail + n) % f.frameBufferSize) <
    if (f.frameTail + n) % f.frameBufferSize < f.frameTail then framebufFullSize
    else f.frameBufferSize

instance (f : Filter) (n : ℕ) : Decidable (f.EndsInside n) :=
  inferInstanceAs (Decidable (_ < ite _ _ _))

variable {cfg : Config} {f : Filter} {pending : Bool} {data : List Byte}

theorem probed_tailInside : probed.TailInside :=
  ⟨le_rfl, by decide, le_rfl, by decide, le_rfl, by decide, by decide, nofun⟩

namespace TailInside

/-- The bytes that wait can be copied. -/
theorem toEndCount_pos (h : f.TailInside) (hne : f.frameHead ≠ f.frameTail) :
    0 < f.toEndCount := by
  have := h.tail_lt
  unfold toEndCount
  split <;> omega

theorem toEndCount_nonneg (h : f.TailInside) : 0 ≤ f.toEndCount := by
  have := h.tail_lt
  unfold toEndCount
  split <;> omega

theorem u32_toEndCount (h : f.TailInside) : u32 f.toEndCount = f.toEndCount := by
  have hT := h.tail_nonneg
  have hS := h.size_le
  have hH := h.head_le
  refine u32_of_bounds h.toEndCount_nonneg ?_
  unfold toEndCount
  split <;> omega

/-! ### `ptp_produce_` -/

theorem changeState (h : f.TailInside) {s : FilterState} (hs : s = .drop → 0 ≤ f.frameRxTail) :
    (f.changeState s).TailInside := by
  have hplaced : Placed s f.frameHead f.frameTail f.frameBufferSize f.frameRxTail
      f.frameRxTail2 :=
    ⟨h.head_nonneg, h.head_le, h.tail_nonneg, h.tail_lt, h.size_le, h.mark_le, h.mark₂_le, hs⟩
  unfold Filter.changeState
  split
  next heq =>
    subst heq
    exact hplaced
  next => exact hplaced

theorem pend (h : f.TailInside) (r : Request) : (f.pend r pending).TailInside := by
  unfold Filter.pend
  split
  · exact h
  · exact h

theorem unqueue (h : f.TailInside) : (f.unqueue pending).TailInside := by
  unfold Filter.unqueue
  split
  · exact h
  · exact h

/-- A frame is asked for. -/
theorem submitCmd (h : f.TailInside) : (f.submitCmd pending).filter.TailInside := by
  have hmarked : f.markFrame.TailInside := by
    refine ⟨h.head_nonneg, h.head_le, h.tail_nonneg, h.tail_lt, h.size_le, h.head_le, ?_,
      fun _ => h.head_nonneg⟩
    have hp := h.mark_le
    have hq := h.mark₂_le
    unfold markFrame
    dsimp only
    split
    · exact hp
    · exact hq
  exact (hmarked.changeState (s := .busy) nofun).unqueue

theorem produceCmd (h : f.TailInside) : (f.produceCmd cfg pending).filter.TailInside := by
  unfold Filter.produceCmd
  split
  · exact (h.changeState (s := .active) nofun).submitCmd
  · split
    · exact h.pend _
    · exact h.submitCmd

theorem produceClientOut (h : f.TailInside) :
    (f.produceClientOut pending).filter.TailInside := by
  unfold Filter.produceClientOut
  split
  · exact (h.changeState (s := .command) nofun).unqueue
  · exact (h.changeState (s := .sleepWait) nofun).unqueue
  · exact (h.changeState (s := .wait) nofun).unqueue
  · exact h.pend _

theorem produceClientIn (h : f.TailInside) : (f.produceClientIn pending).filter.TailInside := by
  unfold Filter.produceClientIn
  split
  · split
    · exact h.unqueue
    · exact h
  · exact h.pend _

/-- The buffer ends early only at a head above the tail. -/
theorem resized (h : f.TailInside) : (f.resized cfg).TailInside := by
  have hT := h.tail_lt
  have hS := h.size_le
  have hH := h.head_le
  have hsize : f.frameTail < (f.makeRoom cfg).size ∧
      (f.makeRoom cfg).size ≤ framebufFullSize := by
    unfold makeRoom
    split
    next hshort =>
      split
      · exact ⟨hT.trans_le hS, le_rfl⟩
      · split
        · exact ⟨hshort.2, hH⟩
        · exact ⟨hT, hS⟩
    next => exact ⟨hT, hS⟩
  exact ⟨h.head_nonneg, hH, h.tail_nonneg, hsize.1, hsize.2, h.mark_le, h.mark₂_le,
    h.mark_nonneg⟩

theorem dropPass (h : f.TailInside) (hp : 0 ≤ f.frameRxTail) : f.dropPass.TailInside := by
  have hcut : f.discard.TailInside := h
  unfold Filter.dropPass dropPlace
  split
  · exact ⟨hp, h.mark_le, h.tail_nonneg, h.tail_lt, h.size_le, h.mark_le, h.mark₂_le, fun _ => hp⟩
  · split
    · exact ⟨hp, h.mark_le, h.tail_nonneg, h.tail_lt.trans_le h.size_le, le_rfl, h.mark_le,
        h.mark₂_le, fun _ => hp⟩
    · exact ⟨le_rfl, by dsimp only; decide, h.tail_nonneg, h.tail_lt, h.size_le, h.mark_le,
        h.mark₂_le, fun _ => hp⟩

theorem dropFrame (h : f.TailInside) (hp : 0 ≤ f.frameRxTail) :
    (f.dropFrame cfg).TailInside := by
  have hpass := h.dropPass hp
  have hneg : (-1 : ℤ) ≤ framebufFullSize := by decide
  unfold Filter.dropFrame
  split
  next hback =>
    have hprev : f.dropPass.dropPrevious.TailInside :=
      ⟨hpass.head_nonneg, hpass.head_le, hpass.tail_nonneg, hpass.tail_lt, hpass.size_le,
        hpass.mark₂_le, hneg, fun _ => hback.1⟩
    exact hprev.dropPass hback.1
  next => exact hpass

theorem submitData (h : f.TailInside) (head length : ℤ) :
    (f.submitData cfg head length pending).filter.TailInside := by
  unfold Filter.submitData
  split
  · exact h.changeState (s := .bypassed) nofun
  · exact h.unqueue

theorem produceData (h : f.TailInside) : (f.produceData cfg pending).filter.TailInside := by
  unfold Filter.produceData
  split
  next => exact h.resized.pend _
  next hnowait =>
    split
    next hd =>
      -- a frame is dropped only where it has a mark
      have hp : 0 ≤ f.frameRxTail := by
        by_contra hlt
        rw [not_le] at hlt
        rcases hd with hshort | hdrop
        · exact hnowait ⟨hshort, hlt⟩
        · exact absurd (h.mark_nonneg hdrop) (not_le.mpr hlt)
      exact ((h.resized.changeState (s := .drop) fun _ => hp).dropFrame (by
        rw [changeState_of_ne (by decide)]
        exact hp)).submitData _ _
    next => exact h.resized.submitData _ _

theorem produceUrb (h : f.TailInside) (r : Request) :
    (f.produceUrb cfg r pending).filter.TailInside := by
  cases r with
  | selfCmd => exact h.produceCmd
  | selfData => exact h.produceData
  | clientIn => exact h.produceClientIn
  | clientOut => exact h.produceClientOut

theorem produce (h : f.TailInside) (priv : Option Request) :
    (f.produce cfg priv).filter.TailInside := by
  unfold Filter.produce
  split
  · exact h.produceUrb _
  · exact h
  · exact h.produceUrb _

/-! ### Completion handlers, `ptp_timer` and `ptp_on_rx` -/

theorem bypass4 (h : f.TailInside) : f.bypass4.TailInside := by
  have hfree : TailInside { f with freeUrbs := f.freeUrbs + 1 } := h
  exact hfree.changeState (s := .bypassed) nofun

theorem cmdComplete (h : f.TailInside) (ok : Bool) : (f.cmdComplete cfg ok).TailInside := by
  have hreset : f.resetRx.TailInside := h
  unfold Filter.cmdComplete
  split
  · exact h.bypass4
  · split
    · exact hreset.changeState (s := .bypassed) nofun
    · exact h

theorem counted (h : f.TailInside) {pduEnd : Bool} {left : ℕ} {head : ℤ}
    {kept : List (Cell Byte)} {frames : List (List Byte)} (h0 : 0 ≤ head)
    (hle : head ≤ framebufFullSize) : (f.counted pduEnd left head kept frames).TailInside :=
  ⟨h0, hle, h.tail_nonneg, h.tail_lt, h.size_le, h.mark_le, h.mark₂_le, h.mark_nonneg⟩

/-- The head is reduced by the size of the buffer and then rounded up. -/
theorem receive (h : f.TailInside) (offset : ℤ) : (f.receive offset data).TailInside := by
  have hS := h.size_le
  have hS0 := h.tail_nonneg.trans_lt h.tail_lt
  have hrx : 0 ≤ f.rxHead data ∧ f.rxHead data ≤ framebufFullSize := by
    unfold rxHead
    split
    · exact ⟨h.head_nonneg, h.head_le⟩
    · have h0 := Int.emod_nonneg (f.frameHead + data.length) hS0.ne'
      have hlt := Int.emod_lt_of_pos (f.frameHead + data.length) hS0
      exact ⟨h0, by omega⟩
  have hhead : 0 ≤ (if f.rxLeft data = 0 then framebufAlign (f.rxHead data) else f.rxHead data) ∧
      (if f.rxLeft data = 0 then framebufAlign (f.rxHead data) else f.rxHead data) ≤
        framebufFullSize := by
    split
    · exact ⟨hrx.1.trans (le_framebufAlign _), framebufAlign_le hrx.2⟩
    · exact hrx
  exact h.counted hhead.1 hhead.2

theorem frameDone (h : f.TailInside) (rcOk : Bool) : (f.frameDone cfg rcOk).TailInside := by
  have hdone : f.endFrame.TailInside := h
  unfold Filter.frameDone
  split
  next hdrop =>
    have hp := h.mark_nonneg hdrop
    have hdropped : f.endDropped.TailInside := by
      refine ⟨hp, h.mark_le, h.tail_nonneg, ?_, ?_, h.mark_le, h.mark₂_le, fun _ => hp⟩
      · have hT := h.tail_lt
        have hS := h.size_le
        unfold endDropped
        dsimp only
        split
        · exact hT.trans_le hS
        · exact hT
      · have hS := h.size_le
        unfold endDropped
        dsimp only
        split
        · exact le_rfl
        · exact hS
    exact hdropped.changeState (s := .sleep) nofun
  next =>
    split
    · exact hdone.changeState (s := .sleep) nofun
    · exact hdone.changeState (s := .active) nofun

theorem received (h : f.TailInside) (rcOk : Bool) :
    (f.received cfg rcOk).filter.TailInside := by
  unfold Filter.received
  split
  · exact (h.frameDone rcOk).produce none
  · exact h.produce (some .selfData)

theorem dataComplete (h : f.TailInside) (offset : ℤ) (ok rcOk : Bool) :
    match f.dataComplete cfg offset data ok rcOk with
    | .inl f' => f'.TailInside
    | .inr p => p.filter.TailInside := by
  have hrefused : (f.refused data).TailInside := h
  unfold Filter.dataComplete
  split_ifs
  · exact h.bypass4
  · exact hrefused.bypass4
  · exact (h.receive offset).received rcOk

theorem timer (h : f.TailInside) : (f.timer cfg).TailInside := by
  unfold Filter.timer
  split
  · exact h
  · split
    · exact h
    · rename_i n _
      have htaken : TailInside { f with freeUrbs := n } := h
      exact htaken.produce _

/-- A stream starts over at the start of the buffer, whose end stays where it is. -/
theorem preview (h : f.TailInside) : f.preview.TailInside := by
  have hserving : TailInside { f with frameServing := true } := h
  unfold Filter.preview
  split
  · have hS := h.size_le
    have hS0 := h.tail_nonneg.trans_lt h.tail_lt
    have hstart : TailInside { f with
        frameCount := 0, frameRxTail := -1, frameRxTail2 := -1, frameHead := 0, frameTail := 0,
        frameLength := 0, frameServing := true, kept := [], state := .active } :=
      ⟨le_rfl, by dsimp only; decide, le_rfl, hS0, hS, by dsimp only; decide,
        by dsimp only; decide, nofun⟩
    exact hstart
  · split
    · exact hserving.changeState (s := .active) nofun
    · split
      · exact hserving
      · exact h.changeState (s := .bypassed) nofun

theorem command (h : f.TailInside) : f.command.TailInside := by
  unfold Filter.command
  split
  · exact h.changeState (s := .wait) nofun
  · exact h.changeState (s := .sleepWait) nofun
  · exact h.changeState (s := .command) nofun
  · exact h.pend _
  · exact h.pend _
  · exact h.changeState (s := .bypassed) nofun

/-! ### `ptp_consume_` -/

theorem clearMark (h : f.TailInside)
    (hd : f.frameTail ≠ f.frameRxTail2 → f.frameTail = f.frameRxTail → f.state ≠ .drop) :
    f.clearMark.TailInside := by
  have hneg : (-1 : ℤ) ≤ framebufFullSize := by decide
  unfold Filter.clearMark
  split
  next =>
    exact ⟨h.head_nonneg, h.head_le, h.tail_nonneg, h.tail_lt, h.size_le, h.mark_le, hneg,
      h.mark_nonneg⟩
  next hne =>
    split
    next heq =>
      exact ⟨h.head_nonneg, h.head_le, h.tail_nonneg, h.tail_lt, h.size_le, hneg, h.mark₂_le,
        fun hdrop => absurd hdrop (hd hne heq)⟩
    next => exact h

theorem beginContainer (h : f.TailInside) (actual : ℕ) :
    match f.beginContainer actual with
    | .stop f' => f'.TailInside
    | .bypass f' => f'.TailInside
    | .go f' => f'.TailInside :=
  beginContainer_keeps h h.clearMark (fun _ hg => ⟨hg.head_nonneg, hg.head_le, hg.tail_nonneg,
    hg.tail_lt, hg.size_le, hg.mark_le, hg.mark₂_le, hg.mark_nonneg⟩)
    (fun _ hg => ⟨hg.head_nonneg, hg.head_le, hg.tail_nonneg, hg.tail_lt, hg.size_le, hg.mark_le,
      hg.mark₂_le, hg.mark_nonneg⟩) actual

/-- Copying moves the tail on inside the buffer, unless a container ends too near to the end of
the buffer. -/
theorem advance (h : f.TailInside) {n : ℕ} (hend : f.frameLength = n → f.EndsInside n) :
    (f.advance n).TailInside := by
  have hS0 : 0 < f.frameBufferSize := h.tail_nonneg.trans_lt h.tail_lt
  have hS := h.size_le
  have h0 := Int.emod_nonneg (f.frameTail + n) hS0.ne'
  have hlt := Int.emod_lt_of_pos (f.frameTail + n) hS0
  have hsize : f.frameBufferSize ≤ (f.advance n).frameBufferSize ∧
      (f.advance n).frameBufferSize ≤ framebufFullSize := by
    unfold Filter.advance
    dsimp only
    split
    · exact ⟨hS, le_rfl⟩
    · exact ⟨le_rfl, hS⟩
  have htail : 0 ≤ (f.advance n).frameTail ∧
      (f.advance n).frameTail < (f.advance n).frameBufferSize := by
    by_cases hlast : f.frameLength = n
    · have haligned : (f.advance n).frameTail =
          framebufAlign ((f.frameTail + n) % f.frameBufferSize) := if_pos hlast
      rw [haligned]
      exact ⟨h0.trans (le_framebufAlign _), hend hlast⟩
    · have hplain : (f.advance n).frameTail = (f.frameTail + n) % f.frameBufferSize :=
        if_neg hlast
      rw [hplain]
      exact ⟨h0, hlt.trans_le hsize.1⟩
  exact ⟨h.head_nonneg, h.head_le, htail.1, htail.2, hsize.2, h.mark_le, h.mark₂_le,
    h.mark_nonneg⟩

end TailInside

theorem frameTail_advance_of_last {n : ℕ} (h : f.frameLength = n) : (f.advance n).frameTail =
    framebufAlign ((f.frameTail + n) % f.frameBufferSize) := if_pos h

/-- A container that does not end inside the buffer leaves nothing to copy to a head that has come
around. -/
theorem toEndCount_nonpos_of_not_endsInside {n : ℕ} (h : f.frameLength = n)
    (hends : ¬ f.EndsInside n)
    (hhead : f.frameHead < framebufAlign ((f.frameTail + n) % f.frameBufferSize)) :
    (f.advance n).toEndCount ≤ 0 := by
  have htail := frameTail_advance_of_last h
  have hpast : (f.advance n).frameBufferSize ≤ (f.advance n).frameTail := by
    rw [htail]
    exact not_lt.mp hends
  have hafter : ¬ (f.advance n).frameTail ≤ (f.advance n).frameHead := by
    rw [htail]
    exact not_le.mpr hhead
  unfold toEndCount
  rw [if_neg hafter]
  omega

/-- The container that a pass serves, and where. -/
theorem serving_of_go {f' : Filter} {actual : ℕ} (h : f.beginContainer actual = .go f') :
    f'.frameLength = f.servingLength ∧ f'.toEndCount = f.toEndCount ∧
      ∀ n, f'.EndsInside n ↔ f.EndsInside n := by
  have hcount := toEndCount_of_go h
  unfold Filter.beginContainer at h
  split_ifs at h with h0
  · cases h
    exact ⟨by rw [servingLength, if_neg h0], hcount, fun _ => Iff.rfl⟩
  · cases h
    have hheader : f.clearMark.readType.header = f.header := by
      unfold header readType
      rw [clearMark_eq]
    refine ⟨?_, hcount, fun n => ?_⟩
    · rw [servingLength, if_pos (not_not.mp h0)]
      exact congrArg containerLength hheader
    · rw [clearMark_eq]
      exact Iff.rfl

end Filter

/-! ### The condition on a run -/

namespace System

variable {cfg : Config} {s s' : System}

/-- A pass of `ptp_consume_` that copies a container up to its end leaves the tail inside the
buffer when it rounds it up. -/
def EndsInside (s : System) : Act → Prop
  | .pass => ∀ c u, s.holder = some c → c.priv.or s.filter.clientQueue.head? = some u →
      s.filter.state.Filtering →
      s.filter.Serves (s.copied u).length (s.size u - (s.copied u).length) →
      s.filter.servingLength ≤ s.size u - (s.copied u).length →
      s.filter.servingLength ≤ s.filter.toEndCount →
      s.filter.EndsInside s.filter.servingLength
  | _ => True

instance (s : System) : (a : Act) → Decidable (s.EndsInside a)
  | .pass => decidable_of_iff
      (∀ c ∈ s.holder, ∀ u ∈ c.priv.or s.filter.clientQueue.head?, s.filter.state.Filtering →
        s.filter.Serves (s.copied u).length (s.size u - (s.copied u).length) →
        s.filter.servingLength ≤ s.size u - (s.copied u).length →
        s.filter.servingLength ≤ s.filter.toEndCount →
        s.filter.EndsInside s.filter.servingLength)
      ⟨fun h c u hc hu => h c hc u hu, fun h c hc u hu => h c u hc hu⟩
  | .readUrb _ | .preview | .command | .newSession | .bypass | .timer | .cmdComplete _ _
  | .dataComplete _ _ _ _ | .onTxState | .onTxProduce | .resume _ =>
    inferInstanceAs (Decidable True)

/-- `ptp_on_tx` changes only a state that a response of the camera ends. -/
def Responding (s : System) : Prop :=
  ∀ read, .onTx read ∈ s.suspended → read.afterResponse ≠ read

theorem suspended_produced (p : Filter.Produced) (c : Consumer) {x : Suspended}
    (hx : x ∈ (s.produced p c).suspended) : x ∈ s.suspended ∨ x = .again c := by
  unfold produced at hx
  split at hx
  · exact (List.mem_append.mp hx).imp_right List.mem_singleton.mp
  · exact .inl hx

theorem suspended_pass {c : Consumer} {x : Suspended} (hx : x ∈ (s.pass cfg c).suspended) :
    x ∈ s.suspended ∨ (∃ d, x = .again d) ∨ ∃ d, x = .completed d := by
  unfold pass at hx
  split at hx
  · exact .inl hx
  · split at hx
    · exact .inl hx
    · dsimp only at hx
      split at hx
      · exact .inl hx
      · exact .inl hx
      · split at hx
        · exact .inl hx
        · unfold serve at hx
          dsimp only at hx
          split at hx
          · exact (List.mem_append.mp hx).imp_right fun hx => .inr ⟨_, List.mem_singleton.mp hx⟩
          · exact (suspended_produced _ _ hx).imp_right fun hx => .inl ⟨_, hx⟩

theorem Responding.step {a : Act} (h : s.Responding) (hs : s.step cfg a = some s') :
    s'.Responding := by
  intro read hread
  -- a pass of `ptp_consume_`, or a step while no call of it is running
  obtain ⟨c, -, rfl, rfl⟩ | ⟨-, hmoves⟩ := step_cases hs
  · obtain hread | ⟨d, hd⟩ | ⟨d, hd⟩ := suspended_pass hread
    · exact h read hread
    · exact absurd hd nofun
    · exact absurd hd nofun
  cases a with
  | readUrb n =>
    obtain ⟨-, -, rfl⟩ := hmoves
    have hsame : (s.readUrb cfg n).suspended = s.suspended := by
      unfold readUrb
      dsimp only
      split
      · rfl
      · split <;> rfl
    exact h read (hsame ▸ hread)
  | preview =>
    obtain ⟨-, rfl⟩ := hmoves
    exact h read hread
  | command =>
    obtain ⟨-, rfl⟩ := hmoves
    exact h read hread
  | newSession =>
    obtain ⟨-, rfl⟩ := hmoves
    exact h read hread
  | bypass =>
    obtain rfl := hmoves
    exact h read hread
  | timer =>
    obtain rfl := hmoves
    exact h read hread
  | cmdComplete i ok =>
    obtain ⟨-, rfl⟩ := hmoves
    exact h read hread
  | dataComplete i data ok rcOk =>
    obtain ⟨offset, length, -, -, hs'⟩ := hmoves
    revert hs'
    cases Filter.dataComplete cfg _ offset data ok rcOk with
    | inl f =>
      rintro rfl
      exact h read hread
    | inr p =>
      rintro rfl
      exact (suspended_produced _ _ hread).elim (h read) fun heq => absurd heq nofun
  | onTxState =>
    obtain ⟨hne, rfl⟩ := hmoves
    rcases List.mem_append.mp hread with hread | hread
    · exact h read hread
    · cases List.mem_singleton.mp hread
      exact hne
  | onTxProduce =>
    obtain rfl := hmoves
    exact h read hread
  | resume i =>
    obtain ⟨x, hx, rfl⟩ := hmoves
    have hsub : ∀ y ∈ s.suspended.eraseIdx i, y ∈ s.suspended := fun y hy =>
      (List.eraseIdx_sublist s.suspended i).subset hy
    cases x with
    | again c => exact h read (hsub _ hread)
    | completed c =>
      exact (suspended_produced _ _ hread).elim (fun hread => h read (hsub _ hread)) fun heq =>
        absurd heq nofun
    | onTx read' => exact h read (hsub _ hread)
  | pass => exact hmoves.elim

/-! ### Each step keeps the tail inside -/

theorem tailInside_produced {p : Filter.Produced} (hp : p.filter.TailInside) (c : Consumer) :
    (s.produced p c).filter.TailInside := by
  rw [filter_produced]
  exact hp

theorem tailInside_leave {f : Filter} (hf : f.TailInside) (c : Consumer) :
    (s.leave f c).filter.TailInside := by
  unfold leave
  dsimp only
  split
  · exact hf
  · exact hf

theorem tailInside_serve {f : Filter} {n : ℕ} (hf : (f.advance n).TailInside) (c : Consumer)
    (u : ℕ) : (s.serve cfg f c u n).filter.TailInside := by
  unfold serve
  dsimp only
  split
  · split
    · exact hf
    · exact hf
  · exact tailInside_produced (hf.produce none) c

/-- One pass of `ptp_consume_`. -/
theorem tailInside_pass (h : s.filter.TailInside) {c : Consumer} (hholder : s.holder = some c)
    (hends : s.EndsInside .pass) : (s.pass cfg c).filter.TailInside := by
  unfold pass
  split
  · exact h
  rename_i hst
  rw [not_not] at hst
  split
  · exact h
  rename_i u hu
  have hbegin := h.beginContainer (s.copied u).length
  have hserving : ∀ f, s.filter.beginContainer (s.copied u).length = .go f → _ :=
    fun f hgo => Filter.serving_of_go hgo
  have hserves : ∀ f, s.filter.beginContainer (s.copied u).length = .go f →
      f.copyLength (s.size u - (s.copied u).length) ≠ 0 → s.filter.Serves _ _ :=
    fun f hgo hcopy => Filter.serves_of_go h.u32_toEndCount hgo hcopy
  revert hbegin hserving hserves
  dsimp only
  cases s.filter.beginContainer (s.copied u).length with
  | stop f => exact fun hf _ _ => tailInside_leave hf _
  | bypass f =>
    intro hf _ _
    exact hf.changeState (s := .bypassed) nofun
  | go f =>
    intro hf hserving hserves
    obtain ⟨hlength, hcount, hinside⟩ := hserving f rfl
    dsimp only
    split
    · exact tailInside_leave hf _
    rename_i h0
    refine tailInside_serve (hf.advance fun hlast => ?_) _ _
    -- the pass copies the rest of the container
    have hcopied : s.filter.servingLength ≤ s.size u - (s.copied u).length ∧
        s.filter.servingLength ≤ s.filter.toEndCount.toNat := by
      rw [Filter.copyLength_eq (by rw [hcount, h.u32_toEndCount]), hcount, hlength] at hlast
      omega
    rw [hinside, ← hlast, hlength]
    have hcount0 := h.toEndCount_nonneg
    exact hends c u hholder hu hst (hserves f rfl h0) hcopied.1 (by omega)

/-- A suspended function has the lock again. -/
theorem tailInside_resume (h : s.filter.TailInside) {x : Suspended}
    (hread : ∀ read, x = .onTx read → read.afterResponse ≠ read) :
    (s.resume cfg x).filter.TailInside := by
  cases x with
  | again c => exact h
  | completed c => exact tailInside_produced (h.produce none) c
  | onTx read =>
    have hne : read.afterResponse ≠ .drop := by
      have hread := hread read rfl
      revert hread
      cases read <;> decide
    exact h.changeState fun hdrop => absurd hdrop hne

/-- `ptp_on_rx` with a read URB -/
theorem tailInside_readUrb (h : s.filter.TailInside) (n : ℕ) :
    (s.readUrb cfg n).filter.TailInside := by
  unfold readUrb
  dsimp only
  split
  · exact h
  · split
    · exact h.produce _
    · exact h

/-- **Each step that meets the condition keeps the tail inside the buffer.** -/
theorem tailInside_step {a : Act} (hresp : s.Responding) (h : s.filter.TailInside)
    (hends : s.EndsInside a) (hs : s.step cfg a = some s') : s'.filter.TailInside := by
  obtain ⟨c, hholder, rfl, rfl⟩ | ⟨-, hmoves⟩ := step_cases hs
  · exact tailInside_pass h hholder hends
  cases a with
  | readUrb n =>
    obtain ⟨-, -, rfl⟩ := hmoves
    exact tailInside_readUrb h n
  | preview =>
    obtain ⟨-, rfl⟩ := hmoves
    exact h.preview
  | command =>
    obtain ⟨-, rfl⟩ := hmoves
    exact h.command
  | newSession =>
    obtain ⟨-, rfl⟩ := hmoves
    exact h.changeState (s := .idle) nofun
  | bypass =>
    obtain rfl := hmoves
    exact h.changeState (s := .bypassed) nofun
  | timer =>
    obtain rfl := hmoves
    exact h.timer
  | cmdComplete i ok =>
    obtain ⟨-, rfl⟩ := hmoves
    have hcomplete : (s.filter.complete i).TailInside := h
    exact hcomplete.cmdComplete ok
  | dataComplete i data ok rcOk =>
    obtain ⟨offset, length, -, -, hs'⟩ := hmoves
    have hwritten : ((s.filter.complete i).written offset data).TailInside := h
    have hdone : match ((s.filter.complete i).written offset data).dataComplete cfg offset data
        ok rcOk with
        | .inl f => f.TailInside
        | .inr p => p.filter.TailInside := hwritten.dataComplete offset ok rcOk
    revert hdone hs'
    cases Filter.dataComplete cfg _ offset data ok rcOk with
    | inl f =>
      rintro rfl hf
      exact hf
    | inr p =>
      rintro rfl hp
      exact tailInside_produced hp _
  | onTxState =>
    obtain ⟨-, rfl⟩ := hmoves
    exact h
  | onTxProduce =>
    obtain rfl := hmoves
    exact h.produce none
  | resume i =>
    obtain ⟨x, hx, rfl⟩ := hmoves
    exact tailInside_resume (s := { s with suspended := s.suspended.eraseIdx i }) h
      fun read hread => hresp read (List.mem_of_getElem? (hread ▸ hx))
  | pass => exact hmoves.elim

theorem tailInside_of_reachable (h : (ptpFilter cfg).ReachableWhere EndsInside s) :
    s.filter.TailInside :=
  (h.invariant (I := fun s => s.Responding ∧ s.filter.TailInside)
    ⟨fun _ hread => absurd hread List.not_mem_nil, Filter.probed_tailInside⟩
    fun _ _ _ hI hends hs => ⟨hI.1.step hs, tailInside_step hI.1 hI.2 hends hs⟩).2

end System

/-- **In a run whose passes leave the tail inside the buffer at the end of a container, the bytes
that wait can always be copied**: `ptp_framebuf_to_end_count` is positive, and the tail is before
the end of the buffer whenever the head has come around. -/
theorem toEndCount_pos_of_endsInside (cfg : Config) {s : System}
    (h : (ptpFilter cfg).ReachableWhere System.EndsInside s) :
    (s.filter.frameHead ≠ s.filter.frameTail → 0 < s.filter.toEndCount) ∧
      (s.filter.frameHead < s.filter.frameTail →
        s.filter.frameTail < s.filter.frameBufferSize) :=
  ⟨(System.tailInside_of_reachable h).toEndCount_pos,
    fun _ => (System.tailInside_of_reachable h).tail_lt⟩

/-- A data container has been copied up to its end, and the response behind it can be copied. -/
theorem toEndCount_pos_served :
    ∃ s, (ptpFilter highSpeed).ReachableWhere System.EndsInside s ∧
      (s.filter.frameTail = 64 ∧ s.filter.frameHead = 128) ∧ 0 < s.filter.toEndCount := by
  obtain ⟨s, hs, hp⟩ := @Machine.exists_reachableWhere_of_any _ _ (ptpFilter highSpeed)
    System.EndsInside _ servedRun
    (fun s => decide (s.filter.frameTail = 64 ∧ s.filter.frameHead = 128)) (by decide +kernel)
  have hplaces := of_decide_eq_true hp
  have hne : s.filter.frameHead ≠ s.filter.frameTail := by
    rw [hplaces.1, hplaces.2]
    decide
  exact ⟨s, hs, hplaces, (toEndCount_pos_of_endsInside highSpeed hs).1 hne⟩

/-! ### A container that ends in the last 64 bytes of the buffer -/

/-- The sizes of the client's first two read URBs, one before the stream and one of it. -/
def twoReads : ℕ → ℕ := Function.update (Function.update (fun _ => 0) 0 512) 1 512

/-- A container of 1 MiB less 60 bytes is in the buffer, `frame_head` is at the end of it, and a
read of the client and the next receive URB wait. -/
def Filter.filled (frameBuffer : ℤ → Byte) (kept : List (Cell Byte)) (frames : List (List Byte)) :
    Filter :=
  { Filter.requested with
    frameHead := framebufFullSize
    frameRxTail := -1
    clientQueue := [1]
    requestQueue := [.selfData]
    busyQueue := []
    frameBuffer := frameBuffer
    kept := kept
    frames := frames }

theorem filled_reachable : ∃ frameBuffer kept frames,
    containerLength (readMem frameBuffer 0 bulkHeaderSize) = 1048516 ∧
      containerType (readMem frameBuffer 0 bulkHeaderSize) = 2 ∧
      (ptpFilter highSpeed).Reachable
        ⟨.filled frameBuffer kept frames, some System.freshConsumer, [], 2, twoReads,
          fun _ => []⟩ := by
  -- a read of the client comes before the first byte
  have hread : (ptpFilter highSpeed).Reachable
      ⟨.requested, some ⟨true, some 1, false⟩, [], 2, twoReads, fun _ => []⟩ :=
    requested_reachable.next (a := .readUrb 512) trivial rfl
  have hwaits : (ptpFilter highSpeed).Reachable
      ⟨{ Filter.requested with frameRxTail := -1, clientQueue := [1] }, none, [], 2, twoReads,
        fun _ => []⟩ :=
    hread.next (a := .pass) trivial rfl
  have hstep := @System.step_leading highSpeed
    ⟨{ Filter.requested with frameRxTail := -1, clientQueue := [1] }, none, [], 2, twoReads,
      fun _ => []⟩ _ _ _ 2 1048516 1048516 rfl rfl rfl rfl
    (by decide) le_rfl (by decide) (by decide)
    ((if_pos rfl).trans (by decide : framebufAlign ((0 + (1048516 : ℕ)) % framebufFullSize) =
      framebufFullSize)) true
  obtain ⟨hn, htype⟩ := @header_leading 2 1048516 1048516
    Filter.requested.frameBuffer 0 (by decide) (by decide)
  exact ⟨_, _, _, hn, htype, hwaits.next trivial hstep⟩

/-- The read has got the first 512 bytes of that container, and the buffer ends at `frame_head`:
the next transfer goes to its start. -/
def Filter.rolledOver (frameBuffer : ℤ → Byte) (kept : List (Cell Byte))
    (frames : List (List Byte)) : Filter :=
  { Filter.requested with
    frameHead := framebufFullSize
    frameTail := 512
    frameLength := 1048004
    frameRxTail := -1
    busyQueue := [.data 0 512]
    frameBuffer := frameBuffer
    kept := kept
    frames := frames }

theorem rolledOver_reachable : ∃ frameBuffer kept frames copied,
    (ptpFilter highSpeed).Reachable
      ⟨.rolledOver frameBuffer kept frames, none, [.again ⟨false, none, true⟩], 2, twoReads,
        Function.update (fun _ => []) 1 copied⟩ := by
  obtain ⟨frameBuffer, kept, frames, hn, htype, hreach⟩ := filled_reachable
  have hgo := @Filter.beginContainer_starts (.filled frameBuffer kept frames) 0 _ _
    rfl (fun _ _ => of_decide_eq_true rfl) (of_decide_eq_true rfl) rfl hn htype (by decide)
  have hpass := @System.step_pass_fills highSpeed
    ⟨.filled frameBuffer kept frames, some System.freshConsumer, [], 2, twoReads, fun _ => []⟩
    System.freshConsumer 1 512 _ rfl (of_decide_eq_true rfl) rfl hgo rfl (by decide) (.inr rfl)
  obtain ⟨memory, rest, hpart⟩ := Filter.advance_partial
    (f := { (Filter.filled frameBuffer kept frames).clearMark with
      framePduEnd := (2 : ℕ) = containerResponse, frameLength := 1048516 }) 512 1048516 0
    rfl rfl le_rfl (of_decide_eq_true rfl) (by decide)
  rw [hpart] at hpass
  obtain ⟨frameBuffer', kept', copied, hcopied⟩ : ∃ frameBuffer' kept' copied,
      (ptpFilter highSpeed).Reachable
        ⟨{ Filter.filled frameBuffer' kept' frames with
            frameTail := 512, frameLength := 1048004, clientQueue := [] }, none,
          [.completed ⟨false, none, true⟩], 2, twoReads,
          Function.update (fun _ => []) 1 copied⟩ :=
    ⟨_, _, _, hreach.next (a := .pass) trivial hpass⟩
  exact ⟨_, _, _, _, hcopied.next (a := .resume 0) trivial rfl⟩

/-- The response of 12 bytes has been received at the start of the buffer, and a read of the client
takes the rest of the first container. -/
def Filter.cameAround (frameBuffer : ℤ → Byte) (kept : List (Cell Byte))
    (frames : List (List Byte)) : Filter :=
  { Filter.rolledOver frameBuffer kept frames with
    state := .active
    frameCount := 1
    frameHead := 64
    frameRxPduEnd := true
    busyQueue := []
    freeUrbs := 2 }

theorem cameAround_reachable : ∃ frameBuffer kept frames copied,
    (ptpFilter highSpeed).Reachable
      ⟨.cameAround frameBuffer kept frames, some ⟨true, some 2, false⟩,
        [.again ⟨false, none, true⟩], 3, Function.update twoReads 2 1048004,
        Function.update (fun _ => []) 1 copied⟩ := by
  obtain ⟨frameBuffer, kept, frames, copied, hreach⟩ := rolledOver_reachable
  have hstep := @System.step_leading highSpeed
    ⟨.rolledOver frameBuffer kept frames, none, [.again ⟨false, none, true⟩], 2, twoReads,
      Function.update (fun _ => []) 1 copied⟩
    _ _ _ 3 12 12 rfl rfl rfl rfl (by decide) le_rfl (by decide) (by decide)
    ((if_pos rfl).trans (by decide : framebufAlign ((framebufFullSize + (12 : ℕ)) %
      framebufFullSize) = 64)) true
  obtain ⟨frameBuffer', kept', frames', hresponse⟩ : ∃ frameBuffer' kept' frames',
      (ptpFilter highSpeed).Reachable
        ⟨.cameAround frameBuffer' kept' frames', some System.freshConsumer,
          [.again ⟨false, none, true⟩], 2, twoReads,
          Function.update (fun _ => []) 1 copied⟩ :=
    ⟨_, _, _, hreach.next trivial hstep⟩
  have hidle := hresponse.next (a := .pass) trivial rfl
  exact ⟨_, _, _, _, hidle.next (a := .readUrb 1048004) trivial rfl⟩

/-- **A container that ends in the last 64 bytes of the buffer brings the tail to the end of the
buffer, where nothing can be copied any more, though the next container waits at the start.** -/
theorem toEndCount_not_pos : ∃ s, (ptpFilter highSpeed).Reachable s ∧ s.holder = none ∧
    s.filter.frameHead ≠ s.filter.frameTail ∧ ¬ 0 < s.filter.toEndCount := by
  obtain ⟨frameBuffer, kept, frames, copied, hreach⟩ := cameAround_reachable
  have hgo : (Filter.cameAround frameBuffer kept frames).beginContainer 0 = .go _ :=
    if_pos (of_decide_eq_true rfl)
  have hpass := @System.step_pass_fills highSpeed
    ⟨.cameAround frameBuffer kept frames, some ⟨true, some 2, false⟩,
      [.again ⟨false, none, true⟩], 3, Function.update twoReads 2 1048004,
      Function.update (fun _ => []) 1 copied⟩
    ⟨true, some 2, false⟩ 2 1048004 _ rfl (of_decide_eq_true rfl) rfl hgo
    rfl (by decide) (.inl rfl)
  have hends : ¬ (Filter.cameAround frameBuffer kept frames).EndsInside 1048004 :=
    (by decide : ¬ framebufAlign ((512 + (1048004 : ℕ)) % framebufFullSize) <
      if (512 + (1048004 : ℕ)) % framebufFullSize < 512 then framebufFullSize
      else framebufFullSize)
  have hhead : (Filter.cameAround frameBuffer kept frames).frameHead <
      framebufAlign (((Filter.cameAround frameBuffer kept frames).frameTail + (1048004 : ℕ)) %
        (Filter.cameAround frameBuffer kept frames).frameBufferSize) :=
    (by decide : (64 : ℤ) < framebufAlign ((512 + (1048004 : ℕ)) % framebufFullSize))
  have hcount := Filter.toEndCount_nonpos_of_not_endsInside rfl hends hhead
  have htail := Filter.frameTail_advance_of_last
    (f := .cameAround frameBuffer kept frames) (n := 1048004) rfl
  exact ⟨_, hreach.next (a := .pass) trivial hpass, rfl, (hhead.trans_eq htail.symm).ne,
    not_lt.mpr hcount⟩

end Usbip.Ptp
