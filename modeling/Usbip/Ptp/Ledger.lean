import Usbip.Ptp.Region

/-!
# What of the frames is still in the buffer

`Accounted served reads f` says that the bytes `served` to the client, followed by the bytes that
wait in the buffer, are the bytes of the frames that were not dropped, and that either mark divides
both lists at the start of a frame; `reads` are the read URBs on `client_queue`. The steps of the
filter keep this, and a pass of `ptp_consume_` moves what it copies from the buffer to `served`.
-/

namespace Usbip.Ptp.Filter

open RecordRing

variable {cfg : Config} {f : Filter} {served data : List Byte} {reads : List ℕ} {pending : Bool}

/-! ### Frames -/

theorem flatten_addToLast (frames : List (List Byte)) (data : List Byte) :
    (addToLast frames data).flatten = frames.flatten ++ data := by
  rcases List.eq_nil_or_concat frames with rfl | ⟨older, last, rfl⟩
  · simp [addToLast]
  · simp [addToLast, List.getLastD_eq_getLast?]

theorem length_addToLast {frames : List (List Byte)} (h : frames ≠ []) (data : List Byte) :
    (addToLast frames data).length = frames.length := by
  have := List.length_pos_iff.mpr h
  simp [addToLast]
  omega

/-- The frames before the last one stay as they are. -/
theorem take_addToLast {frames : List (List Byte)} {m : ℕ} (h : m < frames.length)
    (data : List Byte) : (addToLast frames data).take m = frames.take m := by
  have hdrop : m ≤ frames.dropLast.length := by
    rw [List.length_dropLast]
    omega
  rw [addToLast, List.take_append_of_le_length hdrop, List.dropLast_eq_take, List.take_take,
    min_eq_left (by omega)]

/-! ### What a transfer leaves alone -/

section Arrived

variable {offset : ℤ} (h : f.Arrived offset data) (hb : f.state = .busy)
include h hb

/-- Where the cells of a transfer begin, if nothing of its frame has come before. -/
theorem Arrived.head_pos (hp : 0 ≤ f.frameRxTail) (hne : ∀ c ∈ f.kept, c.pos ≠ f.frameRxTail) :
    ∀ c ∈ (block offset (f.rxRemaining data) data).head?, c.pos = f.frameHead := by
  have hnd : f.state ≠ .drop := by
    rw [hb]
    decide
  obtain ⟨hring, -, hmarked⟩ := h.busy hb
  have hin := hring.headIn fun hd => absurd hd hnd
  have hoffset := h.offset_eq hb (lt_of_le_of_ne hin.head_le (hmarked hp hne))
  exact fun c hc => (head_block hc).trans hoffset

theorem Arrived.before_receive (hp : 0 ≤ f.frameRxTail) :
    before f.frameRxTail (f.kept ++ block offset (f.rxRemaining data) data) =
      before f.frameRxTail f.kept := by
  have hnd : f.state ≠ .drop := by
    rw [hb]
    decide
  obtain ⟨hring, -, -⟩ := h.busy hb
  by_cases hcell : ∃ c ∈ f.kept, c.pos = f.frameRxTail
  · exact before_append hcell
  · have hne : ∀ c ∈ f.kept, c.pos ≠ f.frameRxTail := fun c hc hpos => hcell ⟨c, hc, hpos⟩
    have hlevel := (hring.mark hp).level hne
    rw [level_of_ne_drop hnd] at hlevel
    rw [before_append_of_head hne (hlevel ▸ h.head_pos hb hp hne), before_eq_self hne]

theorem Arrived.before_receive₂ (hq : 0 ≤ f.frameRxTail2) :
    before f.frameRxTail2 (f.kept ++ block offset (f.rxRemaining data) data) =
      before f.frameRxTail2 f.kept := by
  have hnd : f.state ≠ .drop := by
    rw [hb]
    decide
  obtain ⟨hring, -, -⟩ := h.busy hb
  by_cases hcell : ∃ c ∈ f.kept, c.pos = f.frameRxTail2
  · exact before_append hcell
  · have hne : ∀ c ∈ f.kept, c.pos ≠ f.frameRxTail2 := fun c hc hpos => hcell ⟨c, hc, hpos⟩
    have hlevel := (hring.mark₂ hq).level hne
    rw [level_of_ne_drop hnd] at hlevel
    have hhead := h.head_pos hb (hring.order hq).1 (hring.no_cell hq hne)
    rw [before_append_of_head hne (hlevel ▸ hhead), before_eq_self hne]

end Arrived

/-! ### The account -/

/-- The bytes before the mark `p` are those of the first `m` frames. -/
structure Divides (served : List Byte) (kept : List (Cell Byte)) (frames : List (List Byte))
    (p : ℤ) (m : ℕ) : Prop where
  le_length : m ≤ frames.length
  bytes : served ++ (before p kept).map Cell.val = (frames.take m).flatten

/-- The bytes served and the bytes kept are those of the frames that were not dropped. -/
structure Accounted (served : List Byte) (reads : List ℕ) (f : Filter) : Prop where
  reads : f.clientQueue = reads
  total : served ++ f.kept.map Cell.val = f.frames.flatten
  mark : 0 ≤ f.frameRxTail → Divides served f.kept f.frames f.frameRxTail f.mark
  mark₂ : 0 ≤ f.frameRxTail2 → Divides served f.kept f.frames f.frameRxTail2 f.mark₂
  order : 0 ≤ f.frameRxTail2 → f.mark₂ ≤ f.mark
  /-- the frame under way comes after its mark -/
  under : f.state = .busy → 0 ≤ f.frameRxTail → f.mark < f.frames.length

namespace Divides

variable {kept bs : List (Cell Byte)} {frames : List (List Byte)} {p : ℤ} {m n : ℕ}

/-- A further frame. -/
theorem append (h : Divides served kept frames p m) (later : List (List Byte)) :
    Divides served kept (frames ++ later) p m := by
  refine ⟨?_, ?_⟩
  · rw [List.length_append]
    exact h.le_length.trans (Nat.le_add_right ..)
  · rw [List.take_append_of_le_length h.le_length]
    exact h.bytes

/-- More of the last frame, behind the mark. -/
theorem extend (h : Divides served kept frames p m) (hm : m < frames.length)
    (hbefore : before p (kept ++ bs) = before p kept) :
    Divides served (kept ++ bs) (addToLast frames data) p m := by
  refine ⟨?_, ?_⟩
  · rw [length_addToLast (List.ne_nil_of_length_pos (Nat.zero_lt_of_lt hm))]
    exact h.le_length
  · rw [hbefore, take_addToLast hm]
    exact h.bytes

/-- The frames from a later mark on are dropped. -/
theorem cut (h : Divides served kept frames p m) {q : ℤ}
    (hle : (before p kept).length ≤ (before q kept).length) (hm : m ≤ n) :
    Divides served (before q kept) (frames.take n) p m := by
  refine ⟨?_, ?_⟩
  · rw [List.length_take]
    exact le_min hm h.le_length
  · rw [before_before hle, List.take_take, min_eq_left hm]
    exact h.bytes

/-- Bytes before the mark are served. -/
theorem serve (h : Divides served kept frames p m) (hn : n ≤ (before p kept).length) :
    Divides (served ++ (kept.take n).map Cell.val) (kept.drop n) frames p m := by
  refine ⟨h.le_length, ?_⟩
  obtain ⟨after, hafter⟩ : before p kept <+: kept := before_isPrefix
  have htake : kept.take n = (before p kept).take n := by
    rw [← hafter, List.take_append_of_le_length hn]
    rw [hafter]
  rw [before_drop hn, htake, List.append_assoc, ← List.map_append, List.take_append_drop]
  exact h.bytes

end Divides

namespace Accounted

variable (h : f.Accounted served reads)
include h

/-! ### Changes of state and requests -/

theorem changeState {s : FilterState} (hs : s ≠ .busy) :
    (f.changeState s).Accounted served reads := by
  unfold Filter.changeState
  split
  · exact ⟨h.reads, h.total, h.mark, h.mark₂, h.order, nofun⟩
  · exact ⟨h.reads, h.total, h.mark, h.mark₂, h.order, fun hb => absurd hb hs⟩

theorem changeState_self : (f.changeState f.state).Accounted served reads := by
  by_cases hb : f.state = .busy
  · rw [changeState_of_ne (by rw [hb]; decide)]
    exact h
  · exact h.changeState hb

theorem pend (r : Request) : (f.pend r pending).Accounted served reads := by
  unfold Filter.pend
  split
  · exact h
  · exact ⟨h.reads, h.total, h.mark, h.mark₂, h.order, h.under⟩

theorem unqueue : (f.unqueue pending).Accounted served reads := by
  unfold Filter.unqueue
  split
  · exact ⟨h.reads, h.total, h.mark, h.mark₂, h.order, h.under⟩
  · exact h

theorem submit (t : Transfer) : (f.submit t).Accounted served reads :=
  ⟨h.reads, h.total, h.mark, h.mark₂, h.order, h.under⟩

theorem resized : (f.resized cfg).Accounted served reads :=
  ⟨h.reads, h.total, h.mark, h.mark₂, h.order, h.under⟩

/-- A frame is asked for. -/
theorem submitCmd (hhead : ∀ c ∈ f.kept, c.pos ≠ f.frameHead) :
    (f.submitCmd pending).filter.Accounted served reads := by
  have hself := before_eq_self hhead
  have hall : Divides served f.kept (f.frames ++ [[]]) f.frameHead f.frames.length := by
    refine ⟨?_, ?_⟩
    · rw [List.length_append]
      exact Nat.le_add_right ..
    · rw [hself, List.take_left]
      exact h.total
  have hmarked : ((f.markFrame.changeState .busy)).Accounted served reads := by
    rw [changeState_of_ne (by decide)]
    refine ⟨h.reads, ?_, fun _ => hall, fun hq => ?_, fun hq => ?_, fun _ _ => ?_⟩
    · simpa [markFrame] using h.total
    · by_cases hp : 0 < f.frameRxTail
      · have := (h.mark hp.le).append [[]]
        simpa [markFrame, hp] using this
      · have hq : 0 ≤ f.frameRxTail2 := by simpa [markFrame, hp] using hq
        have := (h.mark₂ hq).append [[]]
        simpa [markFrame, hp] using this
    · by_cases hp : 0 < f.frameRxTail
      · have := (h.mark hp.le).le_length
        simpa [markFrame, hp] using this
      · have hq : 0 ≤ f.frameRxTail2 := by simpa [markFrame, hp] using hq
        have := (h.mark₂ hq).le_length
        simpa [markFrame, hp] using this
    · simp [markFrame]
  exact hmarked.unqueue.submit .cmd

theorem produceCmd (hs : f.Sound) : (f.produceCmd cfg pending).filter.Accounted served reads := by
  have hhead : f.state.Quiet → ∀ c ∈ f.kept, c.pos ≠ f.frameHead := by
    intro hq c hc
    have := (hs.ringAt hq.filtering).layout.pos_ne le_framebufAlign hc
    rwa [level_of_ne_drop hq.not_drop] at this
  unfold Filter.produceCmd
  split
  next hsleep =>
    have hquiet : f.state.Quiet := hsleep ▸ ⟨by decide, by decide, by decide⟩
    refine (h.changeState (s := .active) (by decide)).submitCmd ?_
    rw [changeState_of_ne (by decide)]
    exact hhead hquiet
  next =>
    split
    next => exact h.pend _
    next hnot =>
      have hactive : f.state = .active := by
        by_contra hne
        exact hnot (.inl hne)
      exact h.submitCmd (hhead (hactive ▸ ⟨by decide, by decide, by decide⟩))

theorem produceClientOut : (f.produceClientOut pending).filter.Accounted served reads := by
  unfold Filter.produceClientOut
  split
  · exact (h.changeState (by decide)).unqueue
  · exact (h.changeState (by decide)).unqueue
  · exact (h.changeState (by decide)).unqueue
  · exact h.pend _

theorem produceClientIn : (f.produceClientIn pending).filter.Accounted served reads := by
  unfold Filter.produceClientIn
  split
  · split
    · exact h.unqueue
    · exact h
  · exact h.pend _

/-! ### Dropping frames -/

theorem dropPass (hs : f.state ≠ .busy) (hp : 0 ≤ f.frameRxTail)
    (hq : 0 ≤ f.frameRxTail2 →
      (before f.frameRxTail2 f.kept).length ≤ (before f.frameRxTail f.kept).length) :
    f.dropPass.Accounted served reads := by
  have hcut : f.discard.Accounted served reads := by
    have hmark := h.mark hp
    refine ⟨h.reads, hmark.bytes, fun _ => hmark.cut le_rfl le_rfl,
      fun hq0 => (h.mark₂ hq0).cut (hq hq0) (h.order hq0), h.order,
      fun hb => absurd hb hs⟩
  unfold Filter.dropPass dropPlace
  split
  · exact ⟨hcut.reads, hcut.total, hcut.mark, hcut.mark₂, hcut.order, hcut.under⟩
  · split
    · exact ⟨hcut.reads, hcut.total, hcut.mark, hcut.mark₂, hcut.order, hcut.under⟩
    · exact ⟨hcut.reads, hcut.total, hcut.mark, hcut.mark₂, hcut.order, hcut.under⟩

theorem dropPrevious (hs : f.state ≠ .busy) : f.dropPrevious.Accounted served reads := by
  have hneg : ¬ (0 : ℤ) ≤ -1 := by decide
  exact ⟨h.reads, h.total, h.mark₂, fun hq => absurd hq hneg, fun hq => absurd hq hneg,
    fun hb => absurd hb hs⟩

theorem dropFrame (hd : f.Droppable) : (f.dropFrame cfg).Accounted served reads := by
  have hnb : ∀ {g : Filter}, g.state = .drop → g.state ≠ .busy := by
    intro g hg
    rw [hg]
    decide
  obtain ⟨L, r, hring, -⟩ := hd.ring
  have hpass := h.dropPass (hnb hd.state) hd.mark_nonneg fun hq => (hring.order hq).2
  unfold Filter.dropFrame
  split
  next hback =>
    have hneg : ¬ (0 : ℤ) ≤ -1 := by decide
    have hprev := hd.dropPass.dropPrevious hback.1
    exact (hpass.dropPrevious (hnb hd.dropPass.state)).dropPass (hnb hprev.state)
      hprev.mark_nonneg fun hq => absurd hq hneg
  next => exact hpass

/-! ### Receive URBs -/

theorem submitData (head length : ℤ) :
    (f.submitData cfg head length pending).filter.Accounted served reads := by
  unfold Filter.submitData
  split
  · exact h.changeState (s := .bypassed) (by decide)
  · exact h.unqueue.submit _

/-- A receive URB waits, or gets its place, or the frame is dropped. -/
theorem produceData (hdrop : 0 ≤ f.frameRxTail → (f.makeRoom cfg).length < cfg.outPipeSize ∨
      f.state = .drop → ((f.resized cfg).changeState .drop).Droppable)
    (hneg : f.frameRxTail < 0 → f.state ≠ .drop) :
    (f.produceData cfg pending).filter.Accounted served reads := by
  unfold Filter.produceData
  split
  next => exact h.resized.pend _
  next hnowait =>
    split
    next hd =>
      have h0 : 0 ≤ f.frameRxTail := by
        by_contra hlt
        rw [not_le] at hlt
        rcases hd with hshort | hd
        · exact hnowait ⟨hshort, hlt⟩
        · exact hneg hlt hd
      have hdropping : ((f.resized cfg).changeState .drop).Accounted served reads :=
        h.resized.changeState (by decide)
      exact (hdropping.dropFrame (hdrop h0 hd)).submitData _ _
    next => exact h.resized.submitData _ _

/-- The receive URB on `request_queue` is tried again. -/
theorem produceData_pending (hs : f.Sound) {rest : List Request}
    (hq : f.requestQueue = .selfData :: rest) :
    (f.produceData cfg true).filter.Accounted served reads := by
  have hw : .selfData ∈ f.requestQueue := hq ▸ List.mem_cons_self
  exact h.produceData (fun h0 => absurd (hs.waiting hw) (not_lt.mpr h0))
    fun _ => (hs.supply hw).not_drop

/-- `ptp_data_complete` passes its URB on. -/
theorem produceData_received (hr : f.Receiving) :
    (f.produceData cfg false).filter.Accounted served reads := by
  refine h.produceData (fun h0 _ => hr.droppable h0) fun hneg hd => ?_
  have := (hr.dropping hd).mark_nonneg
  omega

/-- The first request on `request_queue`, if there is one. -/
theorem produce (hs : f.Sound) : (f.produce cfg none).filter.Accounted served reads := by
  unfold Filter.produce
  split
  next => contradiction
  next => exact h
  next r rest hq _ =>
    cases r with
    | selfCmd => exact h.produceCmd hs
    | selfData => exact h.produceData_pending hs (by assumption)
    | clientIn => exact h.produceClientIn
    | clientOut => exact h.produceClientOut

/-- A URB that carries no data of a frame. -/
theorem produce_some (hs : f.Sound) {r : Request} (hr : r ≠ .selfData) :
    (f.produce cfg (some r)).filter.Accounted served reads := by
  cases r with
  | selfCmd => exact h.produceCmd hs
  | selfData => exact absurd rfl hr
  | clientIn => exact h.produceClientIn
  | clientOut => exact h.produceClientOut

/-! ### Completion handlers -/

theorem bypass4 : f.bypass4.Accounted served reads := by
  have hfree : Accounted served reads { f with freeUrbs := f.freeUrbs + 1 } :=
    ⟨h.reads, h.total, h.mark, h.mark₂, h.order, h.under⟩
  exact hfree.changeState (by decide)

theorem cmdComplete (i : ℕ) (ok : Bool) :
    ((f.complete i).cmdComplete cfg ok).Accounted served reads := by
  have hcomplete : (f.complete i).Accounted served reads :=
    ⟨h.reads, h.total, h.mark, h.mark₂, h.order, h.under⟩
  have hreset : (f.complete i).resetRx.Accounted served reads :=
    ⟨h.reads, h.total, h.mark, h.mark₂, h.order, h.under⟩
  unfold Filter.cmdComplete
  split
  · exact hcomplete.bypass4
  · split
    · exact hreset.changeState (by decide)
    · exact hreset.submit _

section Counted

variable {pduEnd : Bool} {left : ℕ} {head : ℤ}

theorem counted_drop : (f.counted pduEnd left head f.kept f.frames).Accounted served reads :=
  ⟨h.reads, h.total, h.mark, h.mark₂, h.order, h.under⟩

/-- More of the last frame. -/
theorem counted_busy (hb : f.state = .busy) {bs : List (Cell Byte)}
    (hbytes : bs.map Cell.val = data) (hq : 0 ≤ f.frameRxTail2 → 0 ≤ f.frameRxTail)
    (hbefore : 0 ≤ f.frameRxTail →
      before f.frameRxTail (f.kept ++ bs) = before f.frameRxTail f.kept)
    (hbefore₂ : 0 ≤ f.frameRxTail2 →
      before f.frameRxTail2 (f.kept ++ bs) = before f.frameRxTail2 f.kept) :
    (f.counted pduEnd left head (f.kept ++ bs) (addToLast f.frames data)).Accounted served
      reads := by
  have hlast : 0 ≤ f.frameRxTail → f.mark < f.frames.length := h.under hb
  refine ⟨h.reads, ?_, fun hp => (h.mark hp).extend (hlast hp) (hbefore hp), fun hq0 => ?_,
    h.order, fun _ hp => ?_⟩
  · change served ++ (f.kept ++ bs).map Cell.val = (addToLast f.frames data).flatten
    rw [List.map_append, hbytes, flatten_addToLast, ← h.total, List.append_assoc]
  · have hlt : f.mark₂ < f.frames.length := (h.order hq0).trans_lt (hlast (hq hq0))
    exact (h.mark₂ hq0).extend hlt (hbefore₂ hq0)
  · have hlt := hlast hp
    have hne : f.frames ≠ [] := List.ne_nil_of_length_pos (Nat.zero_lt_of_lt hlt)
    change f.mark < (addToLast f.frames data).length
    rw [length_addToLast hne]
    exact hlt

end Counted

theorem receive {offset : ℤ} (ha : f.Arrived offset data)
    (hstate : f.state = .busy ∨ f.state = .drop) :
    (f.receive offset data).Accounted served reads := by
  unfold Filter.receive
  rcases hstate with hb | hd
  · have hnd : f.state ≠ .drop := by
      rw [hb]
      decide
    obtain ⟨hring, -, -⟩ := ha.busy hb
    rw [if_neg hnd, if_neg hnd]
    exact h.counted_busy hb map_val_block (fun hq => (hring.order hq).1)
      (fun hp => ha.before_receive hb hp) fun hq => ha.before_receive₂ hb hq
  · rw [if_pos hd, if_pos hd]
    exact h.counted_drop

theorem frameDone (rcOk : Bool) : (f.frameDone cfg rcOk).Accounted served reads := by
  have hdropped : f.endDropped.Accounted served reads :=
    ⟨h.reads, h.total, h.mark, h.mark₂, h.order, h.under⟩
  have hdone : f.endFrame.Accounted served reads :=
    ⟨h.reads, h.total, h.mark, h.mark₂, h.order, h.under⟩
  unfold Filter.frameDone
  split
  · exact hdropped.changeState (by decide)
  · split
    · exact hdone.changeState (by decide)
    · exact hdone.changeState (by decide)

theorem received (hr : f.Receiving) (rcOk : Bool) :
    (f.received cfg rcOk).filter.Accounted served reads := by
  unfold Filter.received
  split
  next hdone => exact (h.frameDone rcOk).produce (hr.frameDone hdone.1 rcOk)
  next => exact h.produceData_received hr

/-- `ptp_data_complete` -/
theorem dataComplete {offset : ℤ} (ha : f.Arrived offset data) (ok rcOk : Bool)
    (hfits : ok = true → f.TransferFits data) :
    match f.dataComplete cfg offset data ok rcOk with
    | .inl f' => f'.Accounted served reads
    | .inr p => p.filter.Accounted served reads := by
  have hrefused : (f.refused data).Accounted served reads :=
    ⟨h.reads, h.total, h.mark, h.mark₂, h.order, h.under⟩
  unfold Filter.dataComplete
  by_cases hstate : ¬ ok ∨ (f.state ≠ .busy ∧ f.state ≠ .drop)
  · rw [if_pos hstate]
    exact h.bypass4
  · rw [if_neg hstate]
    rw [not_or, not_not, not_and_or, not_not, not_not] at hstate
    by_cases hvalid : f.RxInvalid data
    · rw [if_pos hvalid]
      exact hrefused.bypass4
    · rw [if_neg hvalid]
      exact (h.receive ha hstate.2).received
        (ha.receive hvalid hstate.2 (hfits hstate.1)) rcOk

/-! ### `ptp_timer` and `ptp_on_rx` -/

theorem timer (hs : f.Sound) : (f.timer cfg).Accounted served reads := by
  unfold Filter.timer
  split
  · exact h
  · split
    · exact h
    · rename_i n _
      have hfree : Accounted served reads { f with freeUrbs := n } :=
        ⟨h.reads, h.total, h.mark, h.mark₂, h.order, h.under⟩
      exact hfree.produce_some (hs.frame _ _ _ _ _ _ _ _ _) (by decide)

/-- A stream starts over with an empty buffer. -/
theorem preview (hempty : f.state = .idle → f.kept = []) : f.preview.Accounted served reads := by
  have hneg : ¬ (0 : ℤ) ≤ -1 := by decide
  unfold Filter.preview
  split
  next hidle =>
    have hstart : Accounted served reads { f with
        frameCount := 0, frameRxTail := -1, frameRxTail2 := -1, frameHead := 0, frameTail := 0,
        frameLength := 0, frameServing := true, kept := [] } := by
      refine ⟨h.reads, ?_, fun hp => absurd hp hneg, fun hq => absurd hq hneg,
        fun hq => absurd hq hneg, fun _ hp => absurd hp hneg⟩
      have htotal := h.total
      rw [hempty hidle] at htotal
      exact htotal
    exact hstart.changeState (by decide)
  next =>
    have hserving : Accounted served reads { f with frameServing := true } :=
      ⟨h.reads, h.total, h.mark, h.mark₂, h.order, h.under⟩
    split
    · exact hserving.changeState (by decide)
    · split
      · exact hserving
      · exact h.changeState (by decide)

theorem command : f.command.Accounted served reads := by
  unfold Filter.command
  split
  · exact h.changeState (by decide)
  · exact h.changeState (by decide)
  · exact h.changeState (by decide)
  · exact h.pend _
  · exact h.pend _
  · exact h.changeState (by decide)

/-! ### `ptp_consume_` -/

theorem clearMark : f.clearMark.Accounted served reads := by
  have hneg : ¬ (0 : ℤ) ≤ -1 := by decide
  unfold Filter.clearMark
  split
  · exact ⟨h.reads, h.total, h.mark, fun hq => absurd hq hneg, fun hq => absurd hq hneg, h.under⟩
  · split
    · exact ⟨h.reads, h.total, fun hp => absurd hp hneg, h.mark₂, h.order,
        fun _ hp => absurd hp hneg⟩
    · exact h

theorem beginContainer (actual : ℕ) :
    match f.beginContainer actual with
    | .stop f' => f'.Accounted served reads
    | .bypass f' => f'.Accounted served reads
    | .go f' => f'.Accounted served reads :=
  beginContainer_keeps h (fun _ => h.clearMark)
    (fun _ hg => ⟨hg.reads, hg.total, hg.mark, hg.mark₂, hg.order, hg.under⟩)
    (fun _ hg => ⟨hg.reads, hg.total, hg.mark, hg.mark₂, hg.order, hg.under⟩) actual

/-- **What a pass copies are the next bytes of the frames.** -/
theorem advance (hs : f.Sound) (hf : f.state.Filtering) {n : ℕ} (hr : n ≤ f.frameLength)
    (hn : (n : ℤ) ≤ f.toEndCount) :
    (f.advance n).Accounted (served ++ readMem f.frameBuffer f.frameTail n) reads := by
  have hring := hs.ringAt hf
  have hkept := hs.advance_kept hf hr hn
  rw [hs.readMem_eq hf hr hn]
  refine ⟨h.reads, ?_, fun hp => ?_, fun hq => ?_, h.order, h.under⟩
  · rw [hkept, List.append_assoc, ← List.map_append, List.take_append_drop]
    exact h.total
  · rw [hkept]
    exact (h.mark hp).serve ((hring.mark hp).le_length hr)
  · rw [hkept]
    exact (h.mark₂ hq).serve ((hring.mark₂ hq).le_length hr)

end Accounted

end Usbip.Ptp.Filter
