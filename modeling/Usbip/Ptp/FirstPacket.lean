import Usbip.Ptp.ProduceCalls
import Usbip.Ptp.Transfers

/-!
# Room for the first packet

`ptp_produce_` and `ptp_cmd_complete` each have a branch marked "bug", for a receive URB that
would have no length. `System.TakesBug` says that a step takes one of them.

The check before a preview command looks at all the free space, while the transfer set up later
needs a packet of it in one piece; and the place that a dropped frame goes to is not checked at
all. `System.LeavesPacket` says what the two rely on. In a run that meets it, beside what the ring
itself relies on (`System.Fits`), a mark in the buffer always has room for a packet (`Roomy`), and
neither branch is taken.
-/

namespace Usbip.Ptp

open RecordRing

namespace Filter

variable {cfg : Config} {f : Filter} {pending : Bool} {r : ℕ} {p : ℤ}

/-! ### The length of a receive URB -/

/-- The length of the URB that `produceData` submits, before it is rounded; `none` when the URB
has to wait. -/
def dataLength (cfg : Config) (f : Filter) : Option ℤ :=
  if (f.makeRoom cfg).length < cfg.outPipeSize ∧ f.frameRxTail < 0 then none
  else if (f.makeRoom cfg).length < cfg.outPipeSize ∨ f.state = .drop then
    some (u32 (((f.resized cfg).changeState .drop).dropFrame cfg).toEndSpace)
  else some (f.makeRoom cfg).length

theorem transferLength_pos {length : ℤ} (h : cfg.outPipeSize ≤ length) :
    0 < transferLength cfg length := by
  have hP := cfg.outPipeSize_pos
  have hone : 1 ≤ length / cfg.outPipeSize := Int.le_ediv_of_mul_le hP ((one_mul _).trans_le h)
  exact mul_pos (by omega) hP

/-! ### What the source relies on -/

/-- There is room for a packet at the head, with the buffer at its full size if need be, or at
the start of the buffer. -/
def HasRoom (cfg : Config) (f : Filter) : Prop :=
  cfg.outPipeSize ≤ f.toEndSpace ∨
    f.frameTail < f.frameHead ∧ (cfg.outPipeSize ≤ framebufFullSize - f.frameHead ∨
      cfg.outPipeSize ≤ f.frameTail)

instance (cfg : Config) (f : Filter) : Decidable (f.HasRoom cfg) :=
  inferInstanceAs (Decidable (_ ∨ _ ∧ (_ ∨ _)))

/-- A preview command that is submitted has room for a packet at the head. -/
def SendsWithRoom (cfg : Config) (f : Filter) : Prop :=
  f.state = .sleep ∨ f.state = .active ∧ ¬ f.Nospace cfg → cfg.outPipeSize ≤ f.toEndSpace

instance (cfg : Config) (f : Filter) : Decidable (f.SendsWithRoom cfg) :=
  inferInstanceAs (Decidable (_ ∨ _ ∧ _ → _))

/-- The larger part of the space for a dropped frame whose mark is not where the tail stands. -/
def dropRoom (f : Filter) : ℤ :=
  if f.frameRxTail < f.frameTail then f.frameTail - f.frameRxTail
  else max (framebufFullSize - f.frameRxTail) f.frameTail

/-- A frame is dropped back to a mark where the tail stands, the frame before it being dropped or
not, only if a packet fits in between the mark and the end of the buffer. -/
def DropsWithRoom (cfg : Config) (f : Filter) : Prop :=
  f.state = .drop ∨ ¬ f.HasRoom cfg → 0 ≤ f.frameRxTail →
    (f.frameTail = f.frameRxTail → f.frameRxTail + cfg.outPipeSize ≤ f.frameBufferSize) ∧
    (0 ≤ f.frameRxTail2 → 1 < f.frameCount → f.dropRoom < cfg.outPipeSize * 2 ^ 5 →
      f.frameTail = f.frameRxTail2 → f.frameRxTail2 + cfg.outPipeSize ≤ f.frameBufferSize)

instance (cfg : Config) (f : Filter) : Decidable (f.DropsWithRoom cfg) :=
  inferInstanceAs (Decidable (_ → _ → _ ∧ (_ → _ → _ → _ → _)))

/-! ### The invariant -/

/-- A packet fits in between the mark `p` and the end of the buffer at its full size, and in
between the mark and the tail behind it. -/
def MarkRoom (cfg : Config) (f : Filter) (p : ℤ) : Prop :=
  p + cfg.outPipeSize ≤ framebufFullSize ∧
    (p < f.frameTail → p + cfg.outPipeSize ≤ f.frameTail)

/-- The answer to a preview command has room for its first packet, and so has either mark. -/
structure Roomy (cfg : Config) (f : Filter) : Prop where
  cmd : .cmd ∈ f.busyQueue → cfg.outPipeSize ≤ f.toEndSpace
  mark : 0 ≤ f.frameRxTail → f.MarkRoom cfg f.frameRxTail
  mark₂ : 0 ≤ f.frameRxTail2 → f.MarkRoom cfg f.frameRxTail2

/-- The head is a mark with room. -/
theorem HeadIn.markRoom (h : f.HeadIn) (hsize : f.frameBufferSize ≤ framebufFullSize)
    (hroom : cfg.outPipeSize ≤ f.toEndSpace) : f.MarkRoom cfg f.frameHead := by
  have hTS := h.tail_le
  unfold toEndSpace at hroom
  unfold MarkRoom
  split at hroom
  · exact ⟨by omega, fun hlt => by omega⟩
  · exact ⟨by omega, fun _ => by omega⟩

theorem probed_roomy : probed.Roomy cfg := by
  have hlt := cfg.outPipeSize_lt
  have hzero : probed.MarkRoom cfg 0 := by
    refine ⟨?_, fun h => absurd h (lt_irrefl 0)⟩
    unfold framebufFullSize
    omega
  exact ⟨nofun, fun _ => hzero, fun _ => hzero⟩

namespace Roomy

variable (h : f.Roomy cfg)
include h

theorem changeState (s : FilterState) : (f.changeState s).Roomy cfg := by
  unfold Filter.changeState
  split
  · exact ⟨h.cmd, h.mark, h.mark₂⟩
  · exact ⟨h.cmd, h.mark, h.mark₂⟩

theorem pend (r : Request) : (f.pend r pending).Roomy cfg := by
  unfold Filter.pend
  split
  · exact h
  · exact ⟨h.cmd, h.mark, h.mark₂⟩

theorem unqueue : (f.unqueue pending).Roomy cfg := by
  unfold Filter.unqueue
  split
  · exact ⟨h.cmd, h.mark, h.mark₂⟩
  · exact h

/-- A frame is asked for. -/
theorem submitCmd (hin : f.HeadIn) (hsize : f.frameBufferSize ≤ framebufFullSize)
    (hroom : cfg.outPipeSize ≤ f.toEndSpace) : (f.submitCmd pending).filter.Roomy cfg := by
  have hhead := hin.markRoom hsize hroom
  have hmarked : Roomy cfg (f.markFrame.submit .cmd) := by
    refine ⟨fun _ => hroom, fun _ => hhead, ?_⟩
    unfold markFrame
    dsimp only [Filter.submit]
    split
    next hp => exact fun _ => h.mark hp.le
    next => exact h.mark₂
  have hbusy : (((f.markFrame.submit .cmd).changeState .busy).unqueue pending).Roomy cfg :=
    (hmarked.changeState .busy).unqueue
  unfold Filter.submitCmd
  rw [submit_unqueue]
  rw [changeState_of_ne (by decide)] at hbusy ⊢
  exact hbusy

theorem produceCmd (hs : f.Sound) (hfit : f.SendsWithRoom cfg) :
    (f.produceCmd cfg pending).filter.Roomy cfg := by
  unfold Filter.produceCmd
  split
  next hsleep =>
    have hroom := hfit (.inl hsleep)
    have hin := hs.headIn (hsleep ▸ by decide)
    have hactive := h.changeState .active
    rw [changeState_of_ne (by decide)] at hactive ⊢
    exact hactive.submitCmd ⟨hin.tail_nonneg, hin.tail_le, hin.head_nonneg, hin.head_le⟩
      hs.size_le hroom
  next =>
    split
    next => exact h.pend _
    next hgo =>
      obtain ⟨hactive, hspace⟩ := not_or.mp hgo
      rw [not_not] at hactive
      have hroom := hfit (.inr ⟨hactive, hspace⟩)
      exact h.submitCmd (hs.headIn (hactive ▸ by decide)) hs.size_le hroom

theorem produceClientOut : (f.produceClientOut pending).filter.Roomy cfg := by
  unfold Filter.produceClientOut
  split
  · exact (h.changeState _).unqueue
  · exact (h.changeState _).unqueue
  · exact (h.changeState _).unqueue
  · exact h.pend _

theorem produceClientIn : (f.produceClientIn pending).filter.Roomy cfg := by
  unfold Filter.produceClientIn
  split
  · split
    · exact h.unqueue
    · exact h
  · exact h.pend _

section NoCommand

variable (hb : f.busyQueue = [])
include hb

theorem resized : (f.resized cfg).Roomy cfg := by
  refine ⟨fun hmem => ?_, h.mark, h.mark₂⟩
  have hmem : Transfer.cmd ∈ f.busyQueue := hmem
  rw [hb] at hmem
  exact absurd hmem List.not_mem_nil

theorem dropPass : f.dropPass.Roomy cfg := by
  have htail : f.dropPass.frameTail = f.frameTail ∧ f.dropPass.frameRxTail = f.frameRxTail ∧
      f.dropPass.frameRxTail2 = f.frameRxTail2 := by
    unfold Filter.dropPass dropPlace
    split
    · exact ⟨rfl, rfl, rfl⟩
    · split
      · exact ⟨rfl, rfl, rfl⟩
      · exact ⟨rfl, rfl, rfl⟩
  obtain ⟨ht, hp, hq⟩ := htail
  refine ⟨fun hmem => ?_, fun h0 => ?_, fun h0 => ?_⟩
  · rw [dropPass_busyQueue, hb] at hmem
    exact absurd hmem List.not_mem_nil
  · rw [hp] at h0 ⊢
    unfold MarkRoom
    rw [ht]
    exact h.mark h0
  · rw [hq] at h0 ⊢
    unfold MarkRoom
    rw [ht]
    exact h.mark₂ h0

theorem dropFrame : (f.dropFrame cfg).Roomy cfg := by
  have hneg : ¬ (0 : ℤ) ≤ -1 := by decide
  have hpass := h.dropPass hb
  unfold Filter.dropFrame
  split
  · have hprev : f.dropPass.dropPrevious.Roomy cfg :=
      ⟨hpass.cmd, hpass.mark₂, fun h0 => absurd h0 hneg⟩
    exact hprev.dropPass ((dropPass_busyQueue).trans hb)
  · exact hpass

theorem submitData (head length : ℤ) :
    (f.submitData cfg head length pending).filter.Roomy cfg := by
  unfold Filter.submitData
  split
  · exact h.changeState .bypassed
  · have hun : (f.unqueue pending).Roomy cfg := h.unqueue
    refine ⟨fun hmem => ?_, hun.mark, hun.mark₂⟩
    have hqueue : (f.unqueue pending).busyQueue = [] := by
      cases pending
      · exact hb
      · exact hb
    have hmem : Transfer.cmd ∈ (f.unqueue pending).busyQueue ++ _ := hmem
    rw [hqueue] at hmem
    simp at hmem

theorem produceData : (f.produceData cfg pending).filter.Roomy cfg := by
  have hresized : (f.resized cfg).Roomy cfg := h.resized hb
  unfold Filter.produceData
  split
  · exact hresized.pend _
  · split
    · have hdrop := hresized.changeState .drop
      rw [changeState_of_ne (by decide)] at hdrop ⊢
      refine (hdrop.dropFrame hb).submitData ?_ _ _
      rw [dropFrame_busyQueue]
      exact hb
    · exact hresized.submitData hb _ _

theorem counted {pduEnd : Bool} {left : ℕ} {head : ℤ} {kept : List (Cell Byte)}
    {frames : List (List Byte)} : (f.counted pduEnd left head kept frames).Roomy cfg := by
  refine ⟨fun hmem => ?_, h.mark, h.mark₂⟩
  have hmem : Transfer.cmd ∈ f.busyQueue := hmem
  rw [hb] at hmem
  exact absurd hmem List.not_mem_nil

theorem receive {offset : ℤ} {data : List Byte} : (f.receive offset data).Roomy cfg :=
  h.counted hb

theorem frameDone (rcOk : Bool) : (f.frameDone cfg rcOk).Roomy cfg := by
  have hdone : f.endFrame.Roomy cfg := ⟨h.cmd, h.mark, h.mark₂⟩
  have hdropped : f.endDropped.Roomy cfg := by
    refine ⟨fun hmem => ?_, h.mark, h.mark₂⟩
    have hmem : Transfer.cmd ∈ f.busyQueue := hmem
    rw [hb] at hmem
    exact absurd hmem List.not_mem_nil
  unfold Filter.frameDone
  split
  · exact hdropped.changeState _
  · split
    · exact hdone.changeState _
    · exact hdone.changeState _

end NoCommand

/-! ### Completion handlers, `ptp_on_rx` and `ptp_consume_` -/

theorem bypass4 : f.bypass4.Roomy cfg := by
  have hfree : Roomy cfg { f with freeUrbs := f.freeUrbs + 1 } := ⟨h.cmd, h.mark, h.mark₂⟩
  exact hfree.changeState _

theorem cmdComplete {i : ℕ} (hb : (f.complete i).busyQueue = []) (ok : Bool) :
    ((f.complete i).cmdComplete cfg ok).Roomy cfg := by
  have hnone : ∀ {g : Filter}, g.busyQueue = [] → .cmd ∉ g.busyQueue := by
    intro g hg hmem
    rw [hg] at hmem
    exact absurd hmem List.not_mem_nil
  have hcomplete : (f.complete i).Roomy cfg :=
    ⟨fun hmem => absurd hmem (hnone hb), h.mark, h.mark₂⟩
  have hreset : (f.complete i).resetRx.Roomy cfg :=
    ⟨fun hmem => absurd hmem (hnone hb), h.mark, h.mark₂⟩
  unfold Filter.cmdComplete
  split
  · exact hcomplete.bypass4
  · split
    · exact hreset.changeState _
    · refine ⟨fun hmem => ?_, h.mark, h.mark₂⟩
      have hmem : Transfer.cmd ∈ (f.complete i).busyQueue ++ _ := hmem
      rw [hb] at hmem
      simp at hmem

theorem preview (hidle : f.state = .idle → f.busyQueue = []) : f.preview.Roomy cfg := by
  have hneg : ¬ (0 : ℤ) ≤ -1 := by decide
  have hserving : Roomy cfg { f with frameServing := true } := ⟨h.cmd, h.mark, h.mark₂⟩
  unfold Filter.preview
  split
  next hst =>
    have hstart : Roomy cfg { f with
        frameCount := 0, frameRxTail := -1, frameRxTail2 := -1, frameHead := 0, frameTail := 0,
        frameLength := 0, frameServing := true, kept := [] } := by
      refine ⟨fun hmem => ?_, fun h0 => absurd h0 hneg, fun h0 => absurd h0 hneg⟩
      have hmem : Transfer.cmd ∈ f.busyQueue := hmem
      rw [hidle hst] at hmem
      exact absurd hmem List.not_mem_nil
    exact hstart.changeState _
  next =>
    split
    · exact hserving.changeState _
    · split
      · exact hserving
      · exact h.changeState _

theorem command : f.command.Roomy cfg := by
  unfold Filter.command
  split
  · exact h.changeState _
  · exact h.changeState _
  · exact h.changeState _
  · exact h.pend _
  · exact h.pend _
  · exact h.changeState _

theorem clearMark : f.clearMark.Roomy cfg := by
  have hneg : ¬ (0 : ℤ) ≤ -1 := by decide
  unfold Filter.clearMark
  split
  · exact ⟨h.cmd, h.mark, fun h0 => absurd h0 hneg⟩
  · split
    · exact ⟨h.cmd, fun h0 => absurd h0 hneg, h.mark₂⟩
    · exact h

theorem beginContainer (actual : ℕ) :
    match f.beginContainer actual with
    | .stop f' => f'.Roomy cfg
    | .bypass f' => f'.Roomy cfg
    | .go f' => f'.Roomy cfg :=
  beginContainer_keeps h (fun _ => h.clearMark) (fun _ hg => ⟨hg.cmd, hg.mark, hg.mark₂⟩)
    (fun _ hg => ⟨hg.cmd, hg.mark, hg.mark₂⟩) actual

/-- The consumer makes room at the head, and it passes no mark. -/
theorem advance (hs : f.Sound) (hf : f.state.Filtering) {n : ℕ} (h0 : 0 < n)
    (hr : n ≤ f.frameLength) (hn : (n : ℤ) ≤ f.toEndCount)
    (hL : f.frameTail + n = f.frameBufferSize → f.level ≠ f.frameBufferSize) :
    (f.advance n).Roomy cfg := by
  have hring := hs.ringAt hf
  have hin := hs.headIn hf
  have hle := hin.toEndCount_le
  have hS := hs.size_le
  have hlen := hs.le_kept hf hr hn
  rcases (show f.frameTail + n ≤ f.frameBufferSize by omega).lt_or_eq with hlt | heq
  · obtain ⟨hsize, htail⟩ := hs.advance_inside hf h0 hlt
    have hge : f.frameTail ≤ (f.advance n).frameTail := by
      have := le_framebufAlign (f.frameTail + n)
      rw [htail]
      split <;> omega
    have hmark : ∀ {p : ℤ}, 0 ≤ p →
        RecordRing.Mark framebufAlign bulkHeaderSize containerLength f.frameTail
          f.frameBufferSize f.frameLength f.kept f.level p →
        f.MarkRoom cfg p → (f.advance n).MarkRoom cfg p := by
      intro p hp hm hroom
      refine ⟨hroom.1, fun hpT => ?_⟩
      rcases lt_or_ge p f.frameTail with hpt | hpt
      · have := hroom.2 hpt
        omega
      · have hpop := hm.layout.pop_le le_framebufAlign hm.streamed h0 hr (hm.le_length hr) hpt
        rw [← htail] at hpop
        omega
    refine ⟨fun hmem => ?_, fun hp => hmark hp (hring.mark hp) (h.mark hp),
      fun hq => hmark hq (hring.mark₂ hq) (h.mark₂ hq)⟩
    have hcmd := h.cmd hmem
    have hnd : f.state ≠ .drop := fun hd => (hs.dropping hd).2 hmem
    have hpop := hring.layout.pop_le le_framebufAlign hring.streamed h0 hr hlen
    rw [level_of_ne_drop hnd, ← htail] at hpop
    have hhead : (f.advance n).frameHead = f.frameHead := rfl
    unfold toEndSpace at hcmd ⊢
    rw [hhead, hsize]
    split at hcmd
    next hTH => rwa [if_pos (hpop hTH)]
    next hHT =>
      split
      next => omega
      next => omega
  · obtain ⟨hsize, htail, hLT⟩ := hs.advance_end hf h0 hr hn heq (hL heq)
    have hmark : ∀ {p : ℤ}, 0 ≤ p → f.MarkRoom cfg p → (f.advance n).MarkRoom cfg p := by
      intro p hp hroom
      refine ⟨hroom.1, fun hpT => ?_⟩
      rw [htail] at hpT
      omega
    refine ⟨fun hmem => ?_, fun hp => hmark hp (h.mark hp), fun hq => hmark hq (h.mark₂ hq)⟩
    have hcmd := h.cmd hmem
    have hnd : f.state ≠ .drop := fun hd => (hs.dropping hd).2 hmem
    have hhead : (f.advance n).frameHead = f.frameHead := rfl
    have hH := hin.head_nonneg
    rw [level_of_ne_drop hnd] at hLT
    rw [toEndSpace_of_lt hLT] at hcmd
    have hspace : (f.advance n).toEndSpace = framebufFullSize - f.frameHead := by
      rw [toEndSpace_of_le (by rw [hhead, htail]; exact hH), hsize, hhead]
    have hTS := hin.tail_le
    omega

end Roomy

/-! ### A dropped frame -/

/-- The space that a pass of the loop finds. -/
theorem toEndSpace_dropPass (hlt : f.frameRxTail < framebufFullSize) : f.dropPass.toEndSpace =
    if f.frameTail = f.frameRxTail then f.frameBufferSize - f.frameRxTail else f.dropRoom := by
  unfold Filter.dropPass dropPlace dropRoom discard
  dsimp only
  split
  next hle =>
    rcases hle.lt_or_eq with hback | heq
    · rw [if_neg hback.ne', if_pos hback, toEndSpace_of_lt hback]
    · rw [if_pos heq.symm, toEndSpace_of_le heq.ge]
  next hgt =>
    rw [not_le] at hgt
    rw [if_neg hgt.ne, if_neg hgt.not_gt]
    split
    next hroom =>
      rw [toEndSpace_of_le (by dsimp only; exact hgt.le)]
      exact (max_eq_left hroom.le).symm
    next hroom =>
      rw [not_lt] at hroom
      have hT : 0 < f.frameTail := by omega
      rw [toEndSpace_of_lt (by dsimp only; exact hT), max_eq_right hroom]
      exact sub_zero _

/-- A mark with room has room for a dropped frame. -/
theorem MarkRoom.le_dropRoom (h : f.MarkRoom cfg f.frameRxTail) :
    cfg.outPipeSize ≤ f.dropRoom := by
  unfold dropRoom
  split
  next hlt =>
    have := h.2 hlt
    omega
  next hge =>
    have := h.1
    exact le_max_of_le_left (by omega)

/-- The mark is one with room, also where the tail stands. -/
structure DropMark (cfg : Config) (f : Filter) : Prop where
  room : f.MarkRoom cfg f.frameRxTail
  at_tail : f.frameTail = f.frameRxTail → f.frameRxTail + cfg.outPipeSize ≤ f.frameBufferSize

theorem DropMark.le_toEndSpace (h : f.DropMark cfg) :
    cfg.outPipeSize ≤ f.dropPass.toEndSpace := by
  have hP := cfg.outPipeSize_pos
  have hfull := h.room.1
  rw [toEndSpace_dropPass (by omega)]
  split
  next heq =>
    have := h.at_tail heq
    omega
  next => exact h.room.le_dropRoom

theorem dropPass_fields : f.dropPass.frameTail = f.frameTail ∧
    f.dropPass.frameRxTail2 = f.frameRxTail2 ∧ f.dropPass.frameCount = f.frameCount ∧
    (f.dropPass.frameBufferSize = f.frameBufferSize ∨
      f.dropPass.frameBufferSize = framebufFullSize) := by
  unfold Filter.dropPass dropPlace
  split
  · exact ⟨rfl, rfl, rfl, .inl rfl⟩
  · split
    · exact ⟨rfl, rfl, rfl, .inr rfl⟩
    · exact ⟨rfl, rfl, rfl, .inl rfl⟩

/-- The tail at the mark of a dropped frame leaves nothing of the frame before it. -/
theorem Dropped.mark₂_eq (h : f.Dropped) (hq : 0 ≤ f.frameRxTail2)
    (heq : f.frameTail = f.frameRxTail) : f.frameRxTail2 = f.frameRxTail := by
  have hring := h.ring
  rw [RingAt, level_of_drop h.state] at hring
  have hnil : f.kept = [] := by
    by_contra hne
    exact hring.layout.level_ne_tail le_framebufAlign hne heq.symm
  refine (hring.mark₂ hq).level fun c hc => ?_
  rw [hnil] at hc
  exact absurd hc List.not_mem_nil

/-- **The loop finds room for a packet.** -/
theorem Droppable.le_toEndSpace (hd : f.Droppable) (h : f.DropMark cfg)
    (hroom₂ : 0 ≤ f.frameRxTail2 → f.MarkRoom cfg f.frameRxTail2)
    (hfit : 0 ≤ f.frameRxTail2 → 1 < f.frameCount → f.dropRoom < cfg.outPipeSize * 2 ^ 5 →
      f.frameTail = f.frameRxTail2 → f.frameRxTail2 + cfg.outPipeSize ≤ f.frameBufferSize) :
    cfg.outPipeSize ≤ u32 (f.dropFrame cfg).toEndSpace := by
  have hdropped : (f.dropFrame cfg).Dropped := hd.dropFrame
  have hu := (hdropped.ring.headIn fun _ => hdropped.dropping).u32_toEndSpace hdropped.size_le
  obtain ⟨ht, hq, hc, hsize⟩ := dropPass_fields (f := f)
  rw [hu]
  unfold Filter.dropFrame
  split
  next hback =>
    obtain ⟨hq0, hcount, hspace⟩ := hback
    have hpass := hd.dropPass
    have hu := (hpass.ring.headIn fun _ => hpass.dropping).u32_toEndSpace hpass.size_le
    rw [hu, toEndSpace_dropPass hd.mark_lt] at hspace
    have hq0' : 0 ≤ f.frameRxTail2 := hq ▸ hq0
    -- the frame before is dropped, too, from its own mark on
    have hprev : f.dropPass.dropPrevious.DropMark cfg := by
      refine ⟨?_, fun heq => ?_⟩
      · have := hroom₂ hq0'
        unfold MarkRoom at this ⊢
        change f.dropPass.frameRxTail2 + cfg.outPipeSize ≤ _ ∧
          (f.dropPass.frameRxTail2 < f.dropPass.frameTail →
            f.dropPass.frameRxTail2 + cfg.outPipeSize ≤ f.dropPass.frameTail)
        rw [hq, ht]
        exact this
      · have heq : f.dropPass.frameTail = f.dropPass.frameRxTail2 := heq
        change f.dropPass.frameRxTail2 + cfg.outPipeSize ≤ f.dropPass.frameBufferSize
        have hfits : f.frameRxTail2 + cfg.outPipeSize ≤ f.frameBufferSize := by
          by_cases hmark : f.frameTail = f.frameRxTail
          · -- then both marks are where the tail is
            have hp : f.dropPass.frameRxTail = f.frameRxTail := by
              unfold Filter.dropPass dropPlace
              split
              · rfl
              · split <;> rfl
            have hsame := hpass.mark₂_eq hq0 (by rw [ht, hp]; exact hmark)
            rw [hq, hp] at hsame
            rw [hsame]
            exact h.at_tail hmark
          · rw [if_neg hmark] at hspace
            exact hfit hq0' (hc ▸ hcount) hspace (by rw [← ht, ← hq]; exact heq)
        have hfull := (hroom₂ hq0').1
        rw [hq]
        rcases hsize with hsize | hsize
        · rw [hsize]
          exact hfits
        · rw [hsize]
          exact hfull
    exact hprev.le_toEndSpace
  next => exact h.le_toEndSpace

/-! ### The length of every receive URB -/

/-- `makeRoom` finds room for a packet where there is some. -/
theorem makeRoom_length_lt (hin : f.HeadIn) (hsize : f.frameBufferSize ≤ framebufFullSize)
    (hshort : (f.makeRoom cfg).length < cfg.outPipeSize) : ¬ f.HasRoom cfg := by
  have hu := hin.u32_toEndSpace hsize
  have hP := cfg.outPipeSize_pos
  unfold makeRoom at hshort
  rw [hu, hin.u32_rest hsize] at hshort
  rintro (hroom | ⟨hTH, hroom⟩)
  · rw [if_neg (by omega)] at hshort
    dsimp only at hshort
    omega
  · split at hshort
    · split at hshort
      · dsimp only at hshort
        omega
      · split at hshort
        · dsimp only at hshort
          omega
        · omega
    · dsimp only at hshort
      omega

/-- What `makeRoom` does to the size leaves room at a mark where the tail stands. -/
theorem Roomy.at_tail_resized (h : f.Roomy cfg) (hin : f.HeadIn)
    (hsize : f.frameBufferSize ≤ framebufFullSize)
    (hd : f.state = .drop → f.Dropping) (hmark : 0 ≤ f.frameRxTail)
    (hdrops : f.state = .drop ∨ ¬ f.HasRoom cfg) {p : ℤ} (hroom : f.MarkRoom cfg p)
    (heq : f.frameTail = p) (hfit : p + cfg.outPipeSize ≤ f.frameBufferSize) :
    p + cfg.outPipeSize ≤ (f.resized cfg).frameBufferSize := by
  have hP := cfg.outPipeSize_pos
  have hlt := cfg.outPipeSize_lt
  have hT := hin.tail_nonneg
  change p + cfg.outPipeSize ≤ (f.makeRoom cfg).size
  unfold makeRoom
  rw [hin.u32_rest hsize]
  split
  next hshort =>
    split
    next => exact hroom.1
    next hend =>
      split
      next =>
        -- the head rolls over, and the tail is within a packet of the start of the buffer
        dsimp only
        rcases hdrops with hdrop | hno
        · have hp := (h.mark hmark).1
          rcases (hd hdrop).head with hhead | ⟨hhead, -, -⟩
          · omega
          · omega
        · have hnone := not_or.mp hno
          have htail : ¬ cfg.outPipeSize ≤ f.frameTail := fun hle => hnone.2 ⟨hshort.2, .inr hle⟩
          unfold framebufFullSize at hend
          omega
      next => exact hfit
  next => exact hfit

theorem Roomy.le_dataLength (h : f.Roomy cfg) (hin : f.HeadIn)
    (hsize : f.frameBufferSize ≤ framebufFullSize) (hd : f.state = .drop → f.Dropping)
    (hdroppable : 0 ≤ f.frameRxTail → f.state = .drop ∨ ¬ f.HasRoom cfg →
      ((f.resized cfg).changeState .drop).Droppable)
    (hfit : f.DropsWithRoom cfg) {length : ℤ} (hl : f.dataLength cfg = some length) :
    cfg.outPipeSize ≤ length := by
  unfold dataLength at hl
  split_ifs at hl with hwait hdrop
  · obtain rfl := Option.some.inj hl
    have hdrops : f.state = .drop ∨ ¬ f.HasRoom cfg := by
      rcases hdrop with hshort | hdrop
      · exact .inr (makeRoom_length_lt hin hsize hshort)
      · exact .inl hdrop
    have h0 : 0 ≤ f.frameRxTail := by
      rcases hdrop with hshort | hdrop
      · by_contra hneg
        exact hwait ⟨hshort, not_le.mp hneg⟩
      · exact (hd hdrop).mark_nonneg
    obtain ⟨hfirst, hprevious⟩ := hfit hdrops h0
    have hresized := fun {p : ℤ} => h.at_tail_resized (p := p) hin hsize hd h0 hdrops
    have hready := hdroppable h0 hdrops
    rw [changeState_of_ne (by decide)] at hready ⊢
    refine hready.le_toEndSpace ⟨h.mark h0, fun heq => ?_⟩ h.mark₂ fun hq hcount hspace heq => ?_
    · exact hresized (h.mark h0) heq (hfirst heq)
    · exact hresized (h.mark₂ hq) heq (hprevious hq hcount hspace heq)
  · obtain rfl := Option.some.inj hl
    have := not_or.mp hdrop
    omega

/-- A URB that `ptp_data_complete` passes on. -/
theorem Roomy.le_dataLength_received (h : f.Roomy cfg) (hr : f.Receiving)
    (hfit : f.DropsWithRoom cfg) {length : ℤ} (hl : f.dataLength cfg = some length) :
    cfg.outPipeSize ≤ length :=
  h.le_dataLength (hr.ring.headIn hr.dropping) hr.size_le hr.dropping
    (fun h0 _ => hr.droppable h0) hfit hl

/-- A URB that has waited for room. -/
theorem Roomy.le_dataLength_pending (h : f.Roomy cfg) (hs : f.Sound)
    (hw : .selfData ∈ f.requestQueue) (hfit : f.DropsWithRoom cfg) {length : ℤ}
    (hl : f.dataLength cfg = some length) : cfg.outPipeSize ≤ length := by
  have hsupply := hs.supply hw
  have hneg := hs.waiting hw
  have hnd : f.state = .drop → f.Dropping := fun hd => absurd hd hsupply.not_drop
  exact h.le_dataLength (hsupply.ring.headIn hnd) hs.size_le hnd
    (fun h0 => absurd h0 (not_le.mpr hneg)) hfit hl

end Filter

/-! ### The calls of `ptp_produce_` -/

namespace ProduceCall

variable {cfg : Config} {c : ProduceCall}

/-- A call that submits a preview command, or drops a frame, has room for a packet. -/
def LeavesPacket (cfg : Config) (c : ProduceCall) : Prop :=
  (c.urb = some .selfCmd → c.filter.SendsWithRoom cfg) ∧
    (c.urb = some .selfData → c.filter.DropsWithRoom cfg)

instance (cfg : Config) (c : ProduceCall) : Decidable (c.LeavesPacket cfg) :=
  inferInstanceAs (Decidable ((_ → _) ∧ (_ → _)))

/-- The call comes to `ptp_bypass5`. -/
def TakesBug (cfg : Config) (c : ProduceCall) : Prop :=
  c.urb = some .selfData ∧
    ∃ length, c.filter.dataLength cfg = some length ∧ transferLength cfg length = 0

theorem Ready.roomy_run (hready : c.Ready) (h : c.filter.Roomy cfg) (hleaves : c.LeavesPacket cfg) :
    (c.run cfg).filter.Roomy cfg := by
  cases hu : c.urb with
  | none =>
    rw [run_of_urb_none hu]
    exact h
  | some r =>
    rw [run_of_urb hu]
    cases r with
    | selfCmd => exact h.produceCmd (hready.sound (by decide) hu) (hleaves.1 hu)
    | selfData =>
      have hb : c.filter.busyQueue = [] := by
        rcases hready.data hu with ⟨hs, rest, hq⟩ | hr
        · exact (hs.supply (hq ▸ List.mem_cons_self)).no_busy
        · exact hr.no_busy
      exact h.produceData hb
    | clientIn => exact h.produceClientIn
    | clientOut => exact h.produceClientOut

/-- Every receive URB that is submitted has a length of at least a packet. -/
theorem Ready.le_dataLength (hready : c.Ready) (h : c.filter.Roomy cfg)
    (hleaves : c.LeavesPacket cfg) (hu : c.urb = some .selfData) {length : ℤ}
    (hl : c.filter.dataLength cfg = some length) : cfg.outPipeSize ≤ length := by
  rcases hready.data hu with ⟨hs, rest, hq⟩ | hr
  · exact h.le_dataLength_pending hs (hq ▸ List.mem_cons_self) (hleaves.2 hu) hl
  · exact h.le_dataLength_received hr (hleaves.2 hu) hl

end ProduceCall

namespace System

variable {cfg : Config} {s s' : System} {call : ProduceCall}

/-- What the two branches marked "bug" rely on. -/
def LeavesPacket (cfg : Config) (s : System) (a : Act) : Prop :=
  ∀ call, s.producing cfg a = some call → call.LeavesPacket cfg

instance (cfg : Config) (s : System) (a : Act) : Decidable (s.LeavesPacket cfg a) :=
  inferInstanceAs (Decidable (∀ call ∈ s.producing cfg a, call.LeavesPacket cfg))

/-- The step takes a branch marked "bug". -/
def TakesBug (cfg : Config) (s : System) (a : Act) : Prop :=
  (∃ i, a = .cmdComplete i true ∧ s.filter.busyQueue[i]? = some .cmd ∧
    s.filter.state.Filtering ∧ transferLength cfg (u32 s.filter.toEndSpace) = 0) ∨
  ∃ call, s.producing cfg a = some call ∧ call.TakesBug cfg

/-! ### Each step keeps the room -/

/-- The filter that a call starts from. -/
theorem roomy_of_producing {a : Act} (hsound : s.filter.Sound) (hfits : s.Fits a)
    (h : s.filter.Roomy cfg) (hs : s.step cfg a = some s')
    (hp : s.producing cfg a = some call) : call.filter.Roomy cfg := by
  obtain ⟨c, hholder, rfl, rfl⟩ | ⟨-, hmoves⟩ := step_cases hs
  · have hp : s.passCall c = some call := by simpa [producing, hholder] using hp
    obtain ⟨u, f, hst, hu, hgo, h0, rfl⟩ := go_of_passCall hp
    have hserving := hsound.serving hst (hfits c u hholder hu hst) hgo h0
    have hbegin := h.beginContainer (s.copied u).length
    rw [hgo] at hbegin
    exact hbegin.advance hserving.sound hserving.filtering hserving.pos hserving.le_length
      hserving.le_count hserving.stops
  cases a with
  | readUrb n =>
    unfold producing at hp
    split_ifs at hp
    obtain rfl := Option.some.inj hp
    exact h
  | timer =>
    obtain ⟨n, rfl⟩ := Filter.timerCall_eq hp
    exact ⟨h.cmd, h.mark, h.mark₂⟩
  | dataComplete i data ok rcOk =>
    obtain ⟨offset, length, ht, -, -⟩ := hmoves
    unfold producing at hp
    simp only [ht] at hp
    obtain ⟨-, -, -, rfl⟩ := Filter.dataCall_eq hp
    have hb := (hsound.complete_eq ht).2.1
    have hwritten : ((s.filter.complete i).written offset data).Roomy cfg := by
      refine ⟨fun hmem => ?_, h.mark, h.mark₂⟩
      have hmem : Transfer.cmd ∈ (s.filter.complete i).busyQueue := hmem
      rw [hb] at hmem
      exact absurd hmem List.not_mem_nil
    have hreceived : (((s.filter.complete i).written offset data).receive offset data).Roomy cfg :=
      hwritten.receive hb
    unfold Filter.receivedCall
    split
    · exact hreceived.frameDone hb rcOk
    · exact hreceived
  | onTxProduce =>
    obtain rfl := Option.some.inj hp
    exact h
  | resume i =>
    obtain ⟨x, hx, -⟩ := hmoves
    unfold producing at hp
    simp only [hx] at hp
    cases x with
    | completed c =>
      obtain rfl := Option.some.inj hp
      exact h
    | again c => simp at hp
    | onTx read => simp at hp
  | pass => exact hmoves.elim
  | _ => simp [producing] at hp

/-- A pass that ends without a call. -/
theorem roomy_passEnd (hsound : s.filter.Sound) (h : s.filter.Roomy cfg) {c : Consumer}
    (hfits : ∀ u, c.priv.or s.filter.clientQueue.head? = some u → s.filter.state.Filtering →
      s.filter.PassFits (s.size u - (s.copied u).length)) {f : Filter} (hf : s.PassEnd c f) :
    f.Roomy cfg := by
  cases hf with
  | stopped hst => exact ⟨h.cmd, h.mark, h.mark₂⟩
  | idle => exact h
  | @left u f hst hu hf reads =>
    have hbegin := h.beginContainer (s.copied u).length
    have hroomy : f.Roomy cfg := by
      rcases hf with hf | hf
      · rw [hf] at hbegin
        exact hbegin
      · rw [hf] at hbegin
        exact hbegin
    exact ⟨hroomy.cmd, hroomy.mark, hroomy.mark₂⟩
  | @gaveUp u f hst hu hf =>
    have hbegin := h.beginContainer (s.copied u).length
    rw [hf] at hbegin
    exact hbegin.changeState _
  | @filled u f hst hu hf h0 reads =>
    have hserving := hsound.serving hst (hfits u hu hst) hf h0
    have hbegin := h.beginContainer (s.copied u).length
    rw [hf] at hbegin
    have hadvance := hbegin.advance hserving.sound hserving.filtering hserving.pos
      hserving.le_length hserving.le_count hserving.stops
    exact ⟨hadvance.cmd, hadvance.mark, hadvance.mark₂⟩

/-- A step without a call. -/
theorem roomy_of_not_producing {a : Act} (hsound : s.filter.Sound) (hfits : s.Fits a)
    (h : s.filter.Roomy cfg) (hs : s.step cfg a = some s')
    (hp : s.producing cfg a = none) : s'.filter.Roomy cfg := by
  have hnone : ∀ {i : ℕ} {t : Transfer}, s.filter.busyQueue[i]? = some t →
      (s.filter.complete i).Roomy cfg := by
    intro i t ht
    refine ⟨fun hmem => ?_, h.mark, h.mark₂⟩
    rw [(hsound.complete_eq ht).2.1] at hmem
    exact absurd hmem List.not_mem_nil
  have hend := stepEnd hs hp
  generalize s'.filter = g at hend ⊢
  cases hend with
  | same => exact h
  | preview => exact h.preview fun hidle => (hfits hidle).1
  | command => exact h.command
  | newSession => exact h.changeState _
  | bypass => exact h.changeState _
  | cmdComplete ht ok => exact h.cmdComplete (hsound.complete_eq ht).2.1 ok
  | @failed i offset length data ht hlen ok rcOk =>
    have hcomplete := hnone ht
    have hwritten : ((s.filter.complete i).written offset data).Roomy cfg :=
      ⟨hcomplete.cmd, hcomplete.mark, hcomplete.mark₂⟩
    exact hwritten.bypass4
  | @refused i offset length data ht hlen ok rcOk =>
    have hcomplete := hnone ht
    have hrefused : (((s.filter.complete i).written offset data).refused data).Roomy cfg :=
      ⟨hcomplete.cmd, hcomplete.mark, hcomplete.mark₂⟩
    exact hrefused.bypass4
  | onTx hx => exact h.changeState _
  | @pass c f hholder hf => exact roomy_passEnd hsound h (fun u => hfits c u hholder) hf

theorem roomy_step {a : Act} (hsound : s.filter.Sound) (hfits : s.Fits a)
    (hleaves : s.LeavesPacket cfg a) (h : s.filter.Roomy cfg)
    (hs : s.step cfg a = some s') : s'.filter.Roomy cfg := by
  cases hp : s.producing cfg a with
  | none => exact roomy_of_not_producing hsound hfits h hs hp
  | some call =>
    rw [filter_of_producing hs hp]
    exact (ready_of_producing hsound hfits hs hp).roomy_run
      (roomy_of_producing hsound hfits h hs hp) (hleaves call hp)

theorem roomy_of_reachable
    (h : (ptpFilter cfg).ReachableWhere (fun s a => s.Fits a ∧ s.LeavesPacket cfg a) s) :
    s.filter.Roomy cfg :=
  (h.invariant (I := fun s => s.filter.Sound ∧ s.filter.Roomy cfg)
    ⟨Filter.probed_sound, Filter.probed_roomy⟩ fun _ _ _ hI hok hs =>
      ⟨sound_step hI.1 hok.1 hs, roomy_step hI.1 hok.1 hok.2 hI.2 hs⟩).2

end System

/-- **In a run whose preview commands are sent, and whose frames are dropped, with room for a
packet, no step takes a branch marked "bug"**: a packet fits in at the head when the command of the
filter completes, and every receive URB that `ptp_produce_` submits has a positive length. -/
theorem no_bug_of_leavesPacket (cfg : Config) {s s' : System} {a : Act}
    (h : (ptpFilter cfg).ReachableWhere (fun s a => s.Fits a ∧ s.LeavesPacket cfg a) s)
    (hok : s.Fits a ∧ s.LeavesPacket cfg a) (hs : (ptpFilter cfg).step s a = some s') :
    (.cmd ∈ s.filter.busyQueue → cfg.outPipeSize ≤ s.filter.toEndSpace) ∧
      (∀ call length, s.producing cfg a = some call → call.urb = some .selfData →
        call.filter.dataLength cfg = some length → 0 < transferLength cfg length) ∧
      ¬ s.TakesBug cfg a := by
  have hsound : s.filter.Sound := System.sound_of_reachable (h.mono fun _ _ hok => hok.1)
  have hroomy := System.roomy_of_reachable h
  have hdata : ∀ call length, s.producing cfg a = some call → call.urb = some .selfData →
      call.filter.dataLength cfg = some length → 0 < transferLength cfg length := by
    intro call length hp hu hl
    have hready := System.ready_of_producing hsound hok.1 hs hp
    have hcall := System.roomy_of_producing hsound hok.1 hroomy hs hp
    exact Filter.transferLength_pos (hready.le_dataLength hcall (hok.2 call hp) hu hl)
  refine ⟨hroomy.cmd, hdata, ?_⟩
  rintro (⟨i, -, hi, hst, hzero⟩ | ⟨call, hp, hu, length, hl, hzero⟩)
  · rw [(hsound.headIn hst).u32_toEndSpace hsound.size_le] at hzero
    exact (Filter.transferLength_pos (hroomy.cmd (List.mem_of_getElem? hi))).ne' hzero
  · exact (hdata call length hp hu hl).ne' hzero

/-- Behind a response that waits, the command for the next frame finds room for a packet, and so
does the URB that goes on after the first container of that frame. -/
theorem no_bug_served :
    (∃ s,
      (ptpFilter highSpeed).ReachableWhere (fun s a => s.Fits a ∧ s.LeavesPacket highSpeed a) s ∧
      s.filter.kept ≠ [] ∧ highSpeed.outPipeSize ≤ s.filter.toEndSpace ∧
      ¬ s.TakesBug highSpeed (.cmdComplete 0 true)) ∧
    ∃ s call length,
      (ptpFilter highSpeed).ReachableWhere (fun s a => s.Fits a ∧ s.LeavesPacket highSpeed a) s ∧
      s.producing highSpeed (.dataComplete 0 shortContainer true true) = some call ∧
      call.filter.dataLength highSpeed = some length ∧ 0 < transferLength highSpeed length ∧
      ¬ s.TakesBug highSpeed (.dataComplete 0 shortContainer true true) := by
  constructor
  -- before the last step of the run the command is still in flight
  · obtain ⟨s, hs, hp⟩ := @Machine.exists_reachableWhere_of_any _ _ (ptpFilter highSpeed)
      (fun s a => s.Fits a ∧ s.LeavesPacket highSpeed a) _ servedRun.dropLast
      (fun s => decide (s.filter.kept ≠ [] ∧ .cmd ∈ s.filter.busyQueue ∧
        (s.Fits (.cmdComplete 0 true) ∧ s.LeavesPacket highSpeed (.cmdComplete 0 true)) ∧
        ((ptpFilter highSpeed).step s (.cmdComplete 0 true)).isSome)) (by decide +kernel)
    obtain ⟨hkept, hcmd, hok, hstep⟩ := of_decide_eq_true hp
    obtain ⟨s', hs'⟩ := Option.isSome_iff_exists.mp hstep
    have hbug := no_bug_of_leavesPacket highSpeed hs hok hs'
    exact ⟨s, hs, hkept, hbug.1 hcmd, hbug.2.2⟩
  -- the whole run, and then a data container for the URB that the command has been followed by
  · obtain ⟨s, hs, hp⟩ := @Machine.exists_reachableWhere_of_any _ _ (ptpFilter highSpeed)
      (fun s a => s.Fits a ∧ s.LeavesPacket highSpeed a) _ servedRun
      (fun s => decide ((s.Fits (.dataComplete 0 shortContainer true true) ∧
          s.LeavesPacket highSpeed (.dataComplete 0 shortContainer true true)) ∧
        ((ptpFilter highSpeed).step s (.dataComplete 0 shortContainer true true)).isSome ∧
        ∃ call ∈ s.producing highSpeed (.dataComplete 0 shortContainer true true),
          call.urb = some .selfData ∧ (call.filter.dataLength highSpeed).isSome))
      (by decide +kernel)
    obtain ⟨hok, hstep, call, hcall, hurb, hlength⟩ := of_decide_eq_true hp
    obtain ⟨s', hs'⟩ := Option.isSome_iff_exists.mp hstep
    obtain ⟨length, hlength⟩ := Option.isSome_iff_exists.mp hlength
    have hbug := no_bug_of_leavesPacket highSpeed hs hok hs'
    exact ⟨s, call, length, hs, hcall, hlength, hbug.2.1 call length hcall hurb hlength, hbug.2.2⟩

/-! ### A frame that ends near to the end of the buffer -/

/-- A frame of 1 MiB less 256 bytes is in the buffer. -/
def Filter.nearEnd (frameBuffer : ℤ → Byte) (kept : List (Cell Byte))
    (frames : List (List Byte)) : Filter :=
  { Filter.requested with
    state := .active
    frameCount := 1
    frameHead := 1048320
    frameRxPduEnd := true
    freeUrbs := 2
    busyQueue := []
    frameBuffer := frameBuffer
    kept := kept
    frames := frames }

theorem nearEnd_reachable : ∃ frameBuffer kept frames,
    containerLength (readMem frameBuffer 0 bulkHeaderSize) = 1048320 ∧
      containerType (readMem frameBuffer 0 bulkHeaderSize) = 3 ∧
      (ptpFilter highSpeed).Reachable
        ⟨.nearEnd frameBuffer kept frames, some System.freshConsumer, [], 1,
          Function.update (fun _ => 0) 0 512, fun _ => []⟩ := by
  have hstep := @System.step_leading highSpeed .requested _ _ _ 3 1048320 1048320 rfl rfl rfl rfl
    (by decide) le_rfl (by decide) (by decide)
    ((if_pos rfl).trans (by decide : framebufAlign ((0 + (1048320 : ℕ)) % framebufFullSize) =
      1048320)) true
  obtain ⟨hn, htype⟩ := @header_leading 3 1048320 1048320
    Filter.requested.frameBuffer 0 (by decide) (by decide)
  exact ⟨_, _, _, hn, htype, requested_reachable.next trivial hstep⟩

/-- A read of the client has got the first 1024 bytes of it. -/
theorem shortOfRoom_reachable : ∃ frameBuffer kept frames copied,
    (ptpFilter highSpeed).Reachable
      ⟨{ Filter.nearEnd frameBuffer kept frames with
          frameTail := 1024, frameLength := 1047296, framePduEnd := true, frameRxTail := -1 },
        none, [.completed ⟨true, none, false⟩], 2,
        Function.update (Function.update (fun _ => 0) 0 512) 1 1024,
        Function.update (fun _ => []) 1 copied⟩ := by
  obtain ⟨frameBuffer, kept, frames, hn, htype, hreach⟩ := nearEnd_reachable
  have hidle := hreach.next (a := .pass) trivial rfl
  have hread := hidle.next (a := .readUrb 1024) trivial rfl
  have hgo := @Filter.beginContainer_starts (.nearEnd frameBuffer kept frames) 0 _ _
    rfl (fun _ _ => of_decide_eq_true rfl) (of_decide_eq_true rfl) rfl hn htype (by decide)
  have hpass := @System.step_pass_fills highSpeed
    ⟨.nearEnd frameBuffer kept frames, some ⟨true, some 1, false⟩, [], 2,
      Function.update (Function.update (fun _ => 0) 0 512) 1 1024, fun _ => []⟩
    ⟨true, some 1, false⟩ 1 1024 _ rfl (of_decide_eq_true rfl) rfl hgo
    rfl (by decide) (.inr rfl)
  obtain ⟨memory, rest, hpart⟩ := Filter.advance_partial
    (f := { (Filter.nearEnd frameBuffer kept frames).clearMark with
      framePduEnd := (3 : ℕ) = containerResponse, frameLength := 1048320 }) 1024 1048320 0
    rfl rfl le_rfl (of_decide_eq_true rfl) (by decide)
  rw [hpart] at hpass
  exact ⟨_, _, _, _, hread.next (a := .pass) trivial hpass⟩

/-- **A preview command is sent when a packet fits in with the free space, but not at the head,
and its answer has no room for a packet.** -/
theorem takesBug_reachable : ∃ s s', (ptpFilter highSpeed).Reachable s ∧
    (ptpFilter highSpeed).step s (.cmdComplete 0 true) = some s' ∧
    s.filter.toEndSpace < highSpeed.outPipeSize ∧
    s.TakesBug highSpeed (.cmdComplete 0 true) := by
  obtain ⟨frameBuffer, kept, frames, copied, hreach⟩ := shortOfRoom_reachable
  have hsent := hreach.next (a := .timer) trivial rfl
  refine ⟨_, _, hsent, rfl, of_decide_eq_true rfl, .inl ⟨0, rfl, rfl, of_decide_eq_true rfl, rfl⟩⟩

end Usbip.Ptp
