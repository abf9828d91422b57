import Usbip.Lib.RecordKind
import Usbip.Ptp.FirstPacket
import Usbip.Ptp.Ledger

/-!
# The number of complete frames

`frame_count` goes up when the response container of a frame has been received and down when one
has been copied to the client as a whole. `Filter.completeFrames` counts the response containers
whose last byte is in the buffer.

A frame under way may be dropped without harm, since it has not been counted. The frame before it
has been counted, and the source does not take it back when that frame is dropped, too. In a run
that drops no frame but the one under way (`System.KeepsPrevious`), `frame_count` is the number of
complete frames in the buffer (`Filter.Tallied`).
-/

namespace Usbip.Ptp

open RecordRing

/-- The header is that of a response container, which ends a frame. -/
def isResponse (header : List Byte) : Bool := containerType header = containerResponse

namespace Filter

variable {cfg : Config} {f : Filter} {pending : Bool} {offset : ℤ} {data : List Byte}

/-- The frames in the buffer whose response container has been received as a whole, and has not
been copied as a whole. -/
def completeFrames (f : Filter) : ℕ :=
  completed bulkHeaderSize isResponse f.frameLength f.framePduEnd f.kept

/-- Those of them that end before the mark `p`. -/
def completeBefore (f : Filter) (p : ℤ) : ℕ :=
  completed bulkHeaderSize isResponse f.frameLength f.framePduEnd (before p f.kept)

/-- Whether the last container that has begun is a response. -/
def lastResponse (f : Filter) : Bool :=
  lastKind bulkHeaderSize isResponse f.frameLength f.framePduEnd f.kept

/-- The frame under way is dropped, and the one before it, which starts somewhere else. -/
def DropsPrevious (cfg : Config) (f : Filter) : Prop :=
  (f.state = .drop ∨ ¬ f.HasRoom cfg) ∧ 0 ≤ f.frameRxTail ∧ 0 ≤ f.frameRxTail2 ∧
    f.frameRxTail2 ≠ f.frameRxTail ∧ 1 < f.frameCount ∧ f.dropRoom < cfg.outPipeSize * 2 ^ 5

instance (cfg : Config) (f : Filter) : Decidable (f.DropsPrevious cfg) :=
  inferInstanceAs (Decidable (_ ∧ _))

/-- The invariant: no complete frame lies behind the mark of the frame under way, and the type of
its last container is in `frame_rx_pdu_end`. -/
structure Tallied (f : Filter) : Prop where
  count : f.state.Filtering → f.frameCount = f.completeFrames
  mark : f.state = .busy → 0 ≤ f.frameRxTail → f.frameCount = f.completeBefore f.frameRxTail
  kind : f.state = .busy → .cmd ∉ f.busyQueue → 0 < f.frameRxLength →
    f.lastResponse = f.frameRxPduEnd

/-- Outside the stream nothing is counted. -/
theorem tallied_of_stopped (h : ¬ f.state.Filtering) : f.Tallied := by
  have hnb : f.state ≠ .busy := by
    intro hb
    rw [hb] at h
    exact h (by decide)
  exact ⟨fun hf => absurd hf h, fun hb => absurd hb hnb, fun hb => absurd hb hnb⟩

theorem tallied_of_ne_busy (hnb : f.state ≠ .busy) (h : f.frameCount = f.completeFrames) :
    f.Tallied :=
  ⟨fun _ => h, fun hb => absurd hb hnb, fun hb => absurd hb hnb⟩

theorem probed_tallied : probed.Tallied := tallied_of_stopped (by decide)

namespace Tallied

variable (h : f.Tallied)
include h

/-! ### Changes of state and requests -/

theorem changeState {s : FilterState} (hs : s ≠ .busy)
    (hf : s.Filtering → f.state.Filtering) : (f.changeState s).Tallied := by
  unfold Filter.changeState
  split
  next hsleep =>
    subst hsleep
    exact tallied_of_ne_busy nofun (h.count (hf (by decide)))
  next =>
    exact ⟨fun hst => h.count (hf hst), fun hb => absurd hb hs, fun hb => absurd hb hs⟩

theorem changeState_self : (f.changeState f.state).Tallied := by
  by_cases hb : f.state = .busy
  · rw [changeState_of_ne (by rw [hb]; decide)]
    exact h
  · exact h.changeState hb id

theorem pend (r : Request) : (f.pend r pending).Tallied := by
  unfold Filter.pend
  split
  · exact h
  · exact ⟨h.count, h.mark, h.kind⟩

theorem unqueue : (f.unqueue pending).Tallied := by
  unfold Filter.unqueue
  split
  · exact ⟨h.count, h.mark, h.kind⟩
  · exact h

theorem resized : (f.resized cfg).Tallied := ⟨h.count, h.mark, h.kind⟩

/-- A frame is asked for where no byte is kept. -/
theorem submitCmd (hf : f.state.Filtering) (hhead : ∀ c ∈ f.kept, c.pos ≠ f.frameHead) :
    (f.submitCmd pending).filter.Tallied := by
  have hcount := h.count hf
  have hbefore := before_eq_self hhead
  have hbusy : Tallied { f.markFrame.submit .cmd with state := .busy } := by
    refine ⟨fun _ => hcount, fun _ _ => ?_, fun _ hcmd => ?_⟩
    · change f.frameCount = completed _ _ _ _ (before f.frameHead f.kept)
      rw [hbefore]
      exact hcount
    · exact absurd (List.mem_append_right _ (List.mem_singleton_self _)) hcmd
  unfold Filter.submitCmd
  rw [submit_unqueue, changeState_of_ne (by decide)]
  exact hbusy.unqueue

theorem produceCmd (hs : f.Sound) : (f.produceCmd cfg pending).filter.Tallied := by
  have hhead : f.state.Quiet → ∀ c ∈ f.kept, c.pos ≠ f.frameHead := by
    intro hq c hc
    have := (hs.ringAt hq.filtering).layout.pos_ne le_framebufAlign hc
    rwa [level_of_ne_drop hq.not_drop] at this
  unfold Filter.produceCmd
  split
  next hsleep =>
    have hquiet : f.state.Quiet := hsleep ▸ ⟨by decide, by decide, by decide⟩
    have hactive : (f.changeState .active).Tallied :=
      h.changeState (by decide) fun _ => hquiet.filtering
    have hfilter : FilterState.active.Filtering := by decide
    rw [changeState_of_ne (by decide)] at hactive ⊢
    exact hactive.submitCmd hfilter (hhead hquiet)
  next =>
    split
    next => exact h.pend _
    next hgo =>
      have hactive : f.state = .active := by
        by_contra hne
        exact hgo (.inl hne)
      have hquiet : f.state.Quiet := hactive ▸ ⟨by decide, by decide, by decide⟩
      exact h.submitCmd hquiet.filtering (hhead hquiet)

theorem produceClientOut : (f.produceClientOut pending).filter.Tallied := by
  have hstop : ¬ FilterState.command.Filtering := by decide
  unfold Filter.produceClientOut
  split
  next => exact (h.changeState (by decide) fun hf => absurd hf hstop).unqueue
  next hsleep => exact (h.changeState (by decide) fun _ => hsleep ▸ by decide).unqueue
  next hactive => exact (h.changeState (by decide) fun _ => hactive ▸ by decide).unqueue
  next => exact h.pend _

theorem produceClientIn : (f.produceClientIn pending).filter.Tallied := by
  unfold Filter.produceClientIn
  split
  · split
    · exact h.unqueue
    · exact h
  · exact h.pend _

theorem submitData (head length : ℤ) : (f.submitData cfg head length pending).filter.Tallied := by
  have hstop : ¬ FilterState.bypassed.Filtering := by decide
  unfold Filter.submitData
  split
  · exact h.changeState (by decide) fun hf => absurd hf hstop
  · have hun : (f.unqueue pending).Tallied := h.unqueue
    exact ⟨hun.count, hun.mark, fun hb hcmd =>
      hun.kind hb fun hmem => hcmd (List.mem_append_left _ hmem)⟩

end Tallied

/-! ### Dropping frames -/

theorem dropPass_frameRxTail : f.dropPass.frameRxTail = f.frameRxTail := by
  unfold Filter.dropPass dropPlace
  split
  · rfl
  · split
    · rfl
    · rfl

/-- What is left of a pass of the loop are the frames before the mark. -/
theorem completeFrames_dropPass : f.dropPass.completeFrames = f.completeBefore f.frameRxTail := by
  unfold Filter.dropPass dropPlace
  split
  · rfl
  · split
    · rfl
    · rfl

theorem kept_dropPass : f.dropPass.kept = before f.frameRxTail f.kept := by
  unfold Filter.dropPass dropPlace
  split
  · rfl
  · split
    · rfl
    · rfl

/-- When the loop takes the frame before, too, it starts where the frame under way does. -/
theorem Droppable.frameRxTail2_eq (hd : f.Droppable)
    (hback : 0 ≤ f.dropPass.frameRxTail2 ∧ 1 < f.dropPass.frameCount ∧
      u32 f.dropPass.toEndSpace < cfg.outPipeSize * 2 ^ 5)
    (hkeeps : ¬ f.DropsPrevious cfg) : f.frameRxTail2 = f.frameRxTail := by
  obtain ⟨hq0, hcount, hspace⟩ := hback
  obtain ⟨ht, hq, hc, -⟩ := dropPass_fields (f := f)
  have hpass := hd.dropPass
  rw [(hpass.ring.headIn fun _ => hpass.dropping).u32_toEndSpace hpass.size_le,
    toEndSpace_dropPass hd.mark_lt] at hspace
  by_contra hne
  by_cases hmark : f.frameTail = f.frameRxTail
  · have hsame := hpass.mark₂_eq hq0 (by rw [ht, dropPass_frameRxTail]; exact hmark)
    rw [hq, dropPass_frameRxTail] at hsame
    exact hne hsame
  · rw [if_neg hmark] at hspace
    rw [hq] at hq0
    rw [hc] at hcount
    exact hkeeps ⟨.inl hd.state, hd.mark_nonneg, hq0, hne, hcount, hspace⟩

/-- The frame under way is dropped, and no complete frame with it. -/
theorem Droppable.tallied_dropFrame (hd : f.Droppable)
    (hmark : f.frameCount = f.completeBefore f.frameRxTail)
    (hkeeps : ¬ f.DropsPrevious cfg) : (f.dropFrame cfg).Tallied := by
  have hdropped : (f.dropFrame cfg).Dropped := hd.dropFrame
  have hnb : (f.dropFrame cfg).state ≠ .busy := by
    rw [hdropped.state]
    decide
  refine tallied_of_ne_busy hnb ?_
  obtain ⟨-, hq, hc, -⟩ := dropPass_fields (f := f)
  have hpass : f.dropPass.frameCount = f.dropPass.completeFrames := by
    rw [hc, completeFrames_dropPass]
    exact hmark
  unfold Filter.dropFrame
  split
  next hback =>
    have heq := hd.frameRxTail2_eq hback hkeeps
    have hsame : before f.dropPass.frameRxTail2 f.dropPass.kept = f.dropPass.kept := by
      rw [hq, heq, kept_dropPass]
      exact before_before le_rfl
    obtain ⟨-, -, hc₂, -⟩ := dropPass_fields (f := f.dropPass.dropPrevious)
    rw [hc₂, completeFrames_dropPass]
    change f.dropPass.frameCount =
      completed _ _ _ _ (before f.dropPass.frameRxTail2 f.dropPass.kept)
    rw [hsame]
    exact hpass
  next => exact hpass

/-! ### Receive URBs -/

/-- A receive URB waits, or gets its place, or the frame is dropped. -/
theorem Tallied.produceData (h : f.Tallied) (hin : f.HeadIn)
    (hsize : f.frameBufferSize ≤ framebufFullSize)
    (hmark : 0 ≤ f.frameRxTail → f.frameCount = f.completeBefore f.frameRxTail)
    (hdrop : 0 ≤ f.frameRxTail → ((f.resized cfg).changeState .drop).Droppable)
    (hneg : f.frameRxTail < 0 → f.state ≠ .drop) (hkeeps : ¬ f.DropsPrevious cfg) :
    (f.produceData cfg pending).filter.Tallied := by
  unfold Filter.produceData
  split
  next => exact h.resized.pend _
  next hnowait =>
    split
    next hd =>
      have h0 : 0 ≤ f.frameRxTail := by
        by_contra hlt
        rw [not_le] at hlt
        rcases hd with hshort | hd
        · exact hnowait ⟨hshort, hlt⟩
        · exact hneg hlt hd
      have hdrops : f.state = .drop ∨ ¬ f.HasRoom cfg :=
        hd.symm.imp_right (makeRoom_length_lt hin hsize)
      have hdroppable := hdrop h0
      have hdropped : (((f.resized cfg).changeState .drop).dropFrame cfg).Tallied := by
        rw [changeState_of_ne (by decide)] at hdroppable ⊢
        exact hdroppable.tallied_dropFrame (hmark h0) fun hprev => hkeeps ⟨hdrops, hprev.2⟩
      exact hdropped.submitData _ _
    next => exact h.resized.submitData _ _

/-- The receive URB on `request_queue` is tried again. -/
theorem Tallied.produceData_pending (h : f.Tallied) (hs : f.Sound)
    (hw : .selfData ∈ f.requestQueue) (hkeeps : ¬ f.DropsPrevious cfg) :
    (f.produceData cfg pending).filter.Tallied := by
  have hsupply := hs.supply hw
  have hneg := hs.waiting hw
  have hin := hsupply.ring.headIn fun hd => absurd hd hsupply.not_drop
  exact h.produceData hin hs.size_le (fun h0 => absurd h0 (not_le.mpr hneg))
    (fun h0 => absurd h0 (not_le.mpr hneg)) (fun _ => hsupply.not_drop) hkeeps

/-- `ptp_data_complete` passes its URB on. -/
theorem Tallied.produceData_received (h : f.Tallied) (hr : f.Receiving)
    (hkeeps : ¬ f.DropsPrevious cfg) : (f.produceData cfg pending).filter.Tallied := by
  have hin := hr.ring.headIn hr.dropping
  refine h.produceData hin hr.size_le (fun h0 => ?_) hr.droppable (fun hneg hd => ?_) hkeeps
  · rcases hr.state with hb | hd
    · exact h.mark hb h0
    · -- the bytes of a frame that is dropped are not kept
      have hring := hr.ring
      have hself : before f.frameRxTail f.kept = f.kept := before_eq_self fun c hc => by
        have := hring.layout.pos_ne le_framebufAlign hc
        rwa [level_of_drop hd] at this
      rw [completeBefore, hself]
      exact h.count (hd ▸ by decide)
  · have := (hr.dropping hd).mark_nonneg
    omega

/-! ### A transfer that is counted -/

section Arrived

variable (ha : f.Arrived offset data) (h : f.Tallied)
include ha h

/-- A transfer of a frame that is not dropped. -/
theorem Arrived.completed_receive (hb : f.state = .busy) (hcmd : .cmd ∉ f.busyQueue)
    (hvalid : ¬ f.RxInvalid data) (hn : data.length ≤ f.rxRemaining data) {pduEnd : Bool}
    (hpdu : pduEnd = if f.frameRxLength = 0 then isResponse data else f.frameRxPduEnd) :
    completed bulkHeaderSize isResponse f.frameLength f.framePduEnd
        (f.kept ++ block offset (f.rxRemaining data) data) =
      f.completeFrames + (if data.length = f.rxRemaining data ∧ pduEnd then 1 else 0) ∧
    lastKind bulkHeaderSize isResponse f.frameLength f.framePduEnd
        (f.kept ++ block offset (f.rxRemaining data) data) = pduEnd := by
  obtain ⟨hring, -, -⟩ := ha.busy hb
  have hpos := rxRemaining_pos hvalid
  rw [completed_append hring.streamed, lastKind_append hring.streamed, hpdu]
  by_cases h0 : f.frameRxLength = 0
  · have hdata : 0 < data.length := by
      by_contra hlt
      exact hvalid ⟨h0, .inl ((not_lt.mp hlt).trans_lt (by decide))⟩
    have htype : isResponse (data.take bulkHeaderSize) = isResponse data := by
      unfold isResponse
      rw [containerType_take]
    rw [h0, if_pos rfl, completed_block_start hn hdata, lastKind_block_start hn hdata, htype]
    exact ⟨rfl, rfl⟩
  · have hrest : f.rxRemaining data = f.frameRxLength := if_neg h0
    have hkind : lastKind _ _ _ _ _ = _ := h.kind hb hcmd (Nat.pos_of_ne_zero h0)
    rw [hrest] at hn hpos ⊢
    rw [if_neg h0, completed_block hn hpos, lastKind_block hn, hkind]
    exact ⟨rfl, rfl⟩

end Arrived

/-- In between two frames only the count matters. -/
theorem tallied_changeState {s : FilterState} (hs : s ≠ .busy)
    (h : f.frameCount = f.completeFrames) : (f.changeState s).Tallied := by
  unfold Filter.changeState
  split
  · exact tallied_of_ne_busy nofun h
  · exact tallied_of_ne_busy hs h

theorem tallied_frameDone (hb : f.state = .busy) (h : f.completeFrames = f.frameCount + 1)
    (rcOk : Bool) : (f.frameDone cfg rcOk).Tallied := by
  have hnd : f.state ≠ .drop := by
    rw [hb]
    decide
  have hcount : f.endFrame.frameCount = f.endFrame.completeFrames := h.symm
  unfold Filter.frameDone
  rw [if_neg hnd]
  split
  · exact tallied_changeState (by decide) hcount
  · exact tallied_changeState (by decide) hcount

theorem tallied_endDropped (hd : f.state = .drop) (h : f.frameCount = f.completeFrames)
    (rcOk : Bool) : (f.frameDone cfg rcOk).Tallied := by
  have hcount : f.endDropped.frameCount = f.endDropped.completeFrames := h
  unfold Filter.frameDone
  rw [if_pos hd]
  exact tallied_changeState (by decide) hcount

section Counted

variable {pduEnd : Bool} {left : ℕ} {head : ℤ} {kept : List (Cell Byte)}
variable {frames : List (List Byte)}

theorem tallied_counted_busy (hb : f.state = .busy)
    (hcount : completed bulkHeaderSize isResponse f.frameLength f.framePduEnd kept =
      f.frameCount + (if left = 0 ∧ pduEnd then 1 else 0))
    (hmark : 0 ≤ f.frameRxTail → f.frameCount =
      completed bulkHeaderSize isResponse f.frameLength f.framePduEnd (before f.frameRxTail kept))
    (hkind : lastKind bulkHeaderSize isResponse f.frameLength f.framePduEnd kept = pduEnd)
    (rcOk : Bool) :
    ((f.counted pduEnd left head kept frames).receivedCall cfg rcOk).filter.Tallied := by
  unfold receivedCall
  split
  next hdone =>
    have hdone : left = 0 ∧ pduEnd := hdone
    rw [if_pos hdone] at hcount
    exact tallied_frameDone (f := f.counted pduEnd left head kept frames) hb hcount rcOk
  next hmore =>
    have hmore : ¬ (left = 0 ∧ pduEnd) := hmore
    rw [if_neg hmore, add_zero] at hcount
    exact ⟨fun _ => hcount.symm, fun _ => hmark, fun _ _ _ => hkind⟩

theorem tallied_counted_drop (hd : f.state = .drop) (h : f.frameCount = f.completeFrames)
    (rcOk : Bool) :
    ((f.counted pduEnd left head f.kept f.frames).receivedCall cfg rcOk).filter.Tallied := by
  unfold receivedCall
  split
  next => exact tallied_endDropped (f := f.counted pduEnd left head f.kept f.frames) hd h rcOk
  next =>
    have hnb : f.state ≠ .busy := by
      rw [hd]
      decide
    exact tallied_of_ne_busy hnb h

end Counted

/-- **A transfer is counted, and so is the frame that it completes.** -/
theorem Arrived.tallied_received (ha : f.Arrived offset data) (h : f.Tallied)
    (hvalid : ¬ f.RxInvalid data) (hstate : f.state = .busy ∨ f.state = .drop)
    (hfits : f.TransferFits data) (rcOk : Bool) :
    ((f.receive offset data).receivedCall cfg rcOk).filter.Tallied := by
  obtain ⟨hn, -⟩ := hfits hstate hvalid
  unfold Filter.receive
  rcases hstate with hb | hd
  · have hnd : f.state ≠ .drop := by
      rw [hb]
      decide
    have hcmd : .cmd ∉ f.busyQueue := by
      rw [ha.no_busy]
      exact List.not_mem_nil
    obtain ⟨hcount, hkind⟩ := ha.completed_receive h hb hcmd hvalid hn rfl
    have hleft := rxLeft_eq ha.rxLength_lt hn
    rw [if_neg hnd, if_neg hnd]
    refine tallied_counted_busy hb ?_ (fun h0 => ?_) hkind rcOk
    · have hwhole : data.length = f.rxRemaining data ↔ f.rxLeft data = 0 := by omega
      rw [hcount, h.count (hb ▸ by decide)]
      simp only [hwhole]
      push_cast
      rfl
    · rw [ha.before_receive hb h0]
      exact h.mark hb h0
  · rw [if_pos hd, if_pos hd]
    exact tallied_counted_drop hd (h.count (hd ▸ by decide)) rcOk

/-! ### A pass of `ptp_consume_` -/

theorem Tallied.clearMark (h : f.Tallied) : f.clearMark.Tallied := by
  have hneg : ¬ (0 : ℤ) ≤ -1 := by decide
  unfold Filter.clearMark
  split
  · exact ⟨h.count, h.mark, h.kind⟩
  · split
    · exact ⟨h.count, fun _ h0 => absurd h0 hneg, h.kind⟩
    · exact h

/-- The header of the container at the tail is read, behind which the mark is. -/
theorem Tallied.readHeader (h : f.Tallied) (hs : f.Sound) (hf : f.state.Filtering)
    (h0 : f.frameLength = 0) {c : Cell Byte} {cs : List (Cell Byte)} (hk : f.kept = c :: cs)
    (hcount : (bulkHeaderSize : ℤ) ≤ f.toEndCount)
    (hp : 0 ≤ f.frameRxTail → c.pos ≠ f.frameRxTail) : f.readType.readLength.Tallied := by
  obtain ⟨hlength, hleft⟩ := hs.header_eq hf h0 hk hcount
  have hheader : f.header = headerOf bulkHeaderSize f.kept := hs.header_kept hf h0 hk hcount
  have hpos : 0 < c.left := (by decide : 0 < bulkHeaderSize).trans_le hleft
  have hlen : f.readType.readLength.frameLength = c.left := hlength
  have hend : f.readType.readLength.framePduEnd = isResponse (headerOf bulkHeaderSize f.kept) :=
    congrArg isResponse hheader
  have hkept : f.readType.readLength.kept = c :: cs := hk
  refine ⟨fun hst => ?_, fun hb hm => ?_, fun hb hcmd hrx => ?_⟩
  · have := h.count hst
    rw [completeFrames, h0, hk, completed_open hpos, ← hk, ← hend, ← hlen] at this
    exact this
  · have hmark := (hs.ringAt hf).mark hm
    have hcons : before f.frameRxTail f.kept = c :: before f.frameRxTail cs := by
      rw [hk]
      simp [before, hp hm]
    have hst := hmark.streamed
    rw [h0, hcons] at hst
    have hbefore : headerOf bulkHeaderSize (before f.frameRxTail f.kept) =
        headerOf bulkHeaderSize f.kept := headerOf_before (by rw [hcons]; exact hst.1)
    have := h.mark hb hm
    rw [completeBefore, h0, hcons, completed_open hpos, ← hcons, hbefore, ← hend, ← hlen] at this
    exact this
  · have := h.kind hb hcmd hrx
    rw [lastResponse, h0, hk, lastKind_open hpos, ← hk, ← hend, ← hlen] at this
    exact this

/-- A pass that goes on, or leaves the loop, keeps the count. -/
theorem Tallied.beginContainer (h : f.Tallied) (hs : f.Sound) (hf : f.state.Filtering)
    (hmarks : f.frameLength = 0 → bulkHeaderSize ≤ f.toEndCount →
      ¬ (f.frameTail = f.frameRxTail2 ∧ f.frameTail = f.frameRxTail)) (actual : ℕ) :
    match f.beginContainer actual with
    | .stop f' => f'.Tallied
    | .bypass _ => True
    | .go f' => f'.Tallied := by
  unfold Filter.beginContainer
  by_cases h0 : f.frameLength = 0
  · rw [if_neg (not_not.mpr h0)]
    by_cases hstop : f.frameTail ≠ f.frameRxTail2 ∧ f.frameTail = f.frameRxTail ∧ f.state = .drop
    · rw [if_pos hstop]
      exact h
    · rw [if_neg hstop]
      have hd : f.frameTail ≠ f.frameRxTail2 → f.frameTail = f.frameRxTail → f.state ≠ .drop :=
        fun hq hp hdrop => hstop ⟨hq, hp, hdrop⟩
      have hclear := h.clearMark
      rw [(hs.headIn hf).u32_toEndCount hs.size_le]
      by_cases hcount : f.toEndCount < bulkHeaderSize
      · rw [if_pos hcount]
        exact hclear
      · rw [if_neg hcount]
        rw [not_lt] at hcount
        split_ifs
        · trivial
        · trivial
        · obtain ⟨c, cs, hk, hpos⟩ := hs.exists_head hf hcount (hmarks h0 hcount) hd
          have hzero : f.clearMark.frameLength = 0 := by rw [clearMark_eq]; exact h0
          have hthere : f.clearMark.toEndCount = f.toEndCount := by rw [clearMark_eq]; rfl
          have hfilter : f.clearMark.state.Filtering := by
            rw [clearMark_state]
            exact hf
          refine hclear.readHeader (hs.clearMark hd) hfilter hzero (clearMark_kept.trans hk)
            (hthere ▸ hcount) fun hp => ?_
          exact hpos.trans_ne ((clearMark_ne (hmarks h0 hcount)).1 hp)
  · rw [if_pos h0]
    exact h

/-- A response container that has been copied as a whole is not counted any more. -/
theorem Tallied.advance (h : f.Tallied) {n : ℕ} (hs : f.Serving n) : (f.advance n).Tallied := by
  have hr := hs.le_length
  have hkept := hs.sound.advance_kept hs.filtering hr hs.le_count
  have hlen := hs.sound.le_kept hs.filtering hr hs.le_count
  have hring := hs.sound.ringAt hs.filtering
  have hlength : (f.advance n).frameLength = f.frameLength - n := rfl
  have hend : (f.advance n).framePduEnd = f.framePduEnd := rfl
  -- one response container less at the front of a list of cells
  have hserved : ∀ {cells : List (Cell Byte)}, n ≤ cells.length →
      f.frameCount = completed bulkHeaderSize isResponse f.frameLength f.framePduEnd cells →
      (f.advance n).frameCount = completed bulkHeaderSize isResponse
        (f.advance n).frameLength (f.advance n).framePduEnd (cells.drop n) := by
    intro cells hcells hcount
    rw [completed_drop hr hcells hs.pos] at hcount
    rw [hlength, hend]
    change (if f.frameLength = n ∧ f.framePduEnd then f.frameCount - 1 else f.frameCount) = _
    by_cases hlast : f.frameLength = n ∧ f.framePduEnd
    · rw [if_pos ⟨hlast.1.symm, hlast.2⟩] at hcount
      rw [if_pos hlast, hcount]
      push_cast
      omega
    · rw [if_neg fun hn => hlast ⟨hn.1.symm, hn.2⟩, Nat.zero_add] at hcount
      rw [if_neg hlast, hcount]
  refine ⟨fun hst => ?_, fun hb hm => ?_, fun hb hcmd hrx => ?_⟩
  · rw [completeFrames, hkept]
    exact hserved hlen (h.count hst)
  · have hle := (hring.mark hm).le_length hr
    have htail : (f.advance n).frameRxTail = f.frameRxTail := rfl
    rw [completeBefore, hkept, htail, before_drop hle]
    exact hserved hle (h.mark hb hm)
  · have := h.kind hb hcmd hrx
    rw [lastResponse, lastKind_drop hr hlen, ← hlength, ← hkept] at this
    exact this

/-! ### Completion handlers and `ptp_on_rx` -/

theorem tallied_bypass4 : f.bypass4.Tallied := tallied_of_stopped (by
  unfold Filter.bypass4
  rw [changeState_of_ne (by decide)]
  exact (by decide : ¬ FilterState.bypassed.Filtering))

namespace Tallied

variable (h : f.Tallied)
include h

/-- No container of the frame asked for has begun. -/
theorem cmdComplete (i : ℕ) (ok : Bool) : ((f.complete i).cmdComplete cfg ok).Tallied := by
  have hstop : ¬ FilterState.bypassed.Filtering := by decide
  have hreset : (f.complete i).resetRx.Tallied :=
    ⟨h.count, h.mark, fun _ _ hpos => absurd hpos (lt_irrefl 0)⟩
  unfold Filter.cmdComplete
  split
  · exact tallied_bypass4
  · split
    · exact hreset.changeState (by decide) fun hf => absurd hf hstop
    · exact ⟨hreset.count, hreset.mark, fun _ _ hpos => absurd hpos (lt_irrefl 0)⟩

theorem preview : f.preview.Tallied := by
  have hstop : ¬ FilterState.bypassed.Filtering := by decide
  unfold Filter.preview
  split
  next => exact tallied_changeState (by decide) (by simp [completeFrames])
  next =>
    split
    next hsleep =>
      have hserving : Tallied { f with frameServing := true } := ⟨h.count, h.mark, h.kind⟩
      exact hserving.changeState (by decide) fun _ => hsleep ▸ by decide
    next =>
      split
      next => exact ⟨h.count, h.mark, h.kind⟩
      next => exact h.changeState (by decide) fun hf => absurd hf hstop

theorem command : f.command.Tallied := by
  have hstop : ¬ FilterState.bypassed.Filtering := by decide
  have hcommand : ¬ FilterState.command.Filtering := by decide
  unfold Filter.command
  split
  next hactive => exact h.changeState (by decide) fun _ => hactive ▸ by decide
  next hsleep => exact h.changeState (by decide) fun _ => hsleep ▸ by decide
  next => exact h.changeState (by decide) fun hf => absurd hf hcommand
  next => exact h.pend _
  next => exact h.pend _
  next => exact h.changeState (by decide) fun hf => absurd hf hstop

/-- `ptp_on_tx` changes the state that it has read. -/
theorem afterResponse : (f.changeState f.state.afterResponse).Tallied := by
  have hidle : ¬ FilterState.idle.Filtering := by decide
  have hself := h.changeState_self
  cases hst : f.state with
  | wait => exact h.changeState (by decide) fun _ => hst ▸ by decide
  | sleepWait => exact h.changeState (by decide) fun _ => hst ▸ by decide
  | command => exact h.changeState (by decide) fun hf => absurd hf hidle
  | _ =>
    rw [hst] at hself
    exact hself

end Tallied

end Filter

/-! ### The calls of `ptp_produce_` -/

theorem ProduceCall.Ready.tallied_run {cfg : Config} {c : ProduceCall} (hready : c.Ready)
    (h : c.filter.Tallied) (hkeeps : c.urb = some .selfData → ¬ c.filter.DropsPrevious cfg) :
    (c.run cfg).filter.Tallied := by
  cases hu : c.urb with
  | none =>
    rw [ProduceCall.run_of_urb_none hu]
    exact h
  | some r =>
    rw [ProduceCall.run_of_urb hu]
    cases r with
    | selfCmd => exact h.produceCmd (hready.sound (by decide) hu)
    | selfData =>
      rcases hready.data hu with ⟨hs, rest, hq⟩ | hr
      · exact h.produceData_pending hs (hq ▸ List.mem_cons_self) (hkeeps hu)
      · exact h.produceData_received hr (hkeeps hu)
    | clientIn => exact h.produceClientIn
    | clientOut => exact h.produceClientOut

namespace System

variable {cfg : Config} {s s' : System} {call : ProduceCall}

/-- A step drops no frame but the one under way. -/
def KeepsPrevious (cfg : Config) (s : System) (a : Act) : Prop :=
  ∀ call, s.producing cfg a = some call → call.urb = some .selfData →
    ¬ call.filter.DropsPrevious cfg

instance (cfg : Config) (s : System) (a : Act) : Decidable (s.KeepsPrevious cfg a) :=
  inferInstanceAs (Decidable (∀ call ∈ s.producing cfg a, call.urb = some .selfData →
    ¬ call.filter.DropsPrevious cfg))

/-! ### Each step keeps the count -/

/-- The filter that a call starts from. -/
theorem tallied_of_producing {a : Act} (hsound : s.filter.Sound) (hfits : s.Fits a)
    (h : s.filter.Tallied) (hs : s.step cfg a = some s')
    (hp : s.producing cfg a = some call) : call.filter.Tallied := by
  obtain ⟨c, hholder, rfl, rfl⟩ | ⟨-, hmoves⟩ := step_cases hs
  · have hp : s.passCall c = some call := by simpa [producing, hholder] using hp
    obtain ⟨u, f, hst, hu, hgo, h0, rfl⟩ := go_of_passCall hp
    have hpass := hfits c u hholder hu hst
    have hbegin := h.beginContainer hsound hst hpass.1 (s.copied u).length
    rw [hgo] at hbegin
    exact hbegin.advance (hsound.serving hst hpass hgo h0)
  cases a with
  | readUrb n =>
    unfold producing at hp
    split_ifs at hp
    obtain rfl := Option.some.inj hp
    exact h
  | timer =>
    obtain ⟨n, rfl⟩ := Filter.timerCall_eq hp
    exact ⟨h.count, h.mark, h.kind⟩
  | dataComplete i data ok rcOk =>
    obtain ⟨offset, length, ht, hlen, -⟩ := hmoves
    unfold producing at hp
    simp only [ht] at hp
    obtain ⟨hok, hstate, hvalid, rfl⟩ := Filter.dataCall_eq hp
    obtain ⟨hqueue, -, -⟩ := hsound.complete_eq ht
    have hcmd : Transfer.cmd ∉ s.filter.busyQueue := by
      rw [hqueue]
      simp
    have hwritten : ((s.filter.complete i).written offset data).Tallied :=
      ⟨h.count, h.mark, fun hb _ => h.kind hb hcmd⟩
    exact (hsound.arrived ht hlen).tallied_received hwritten hvalid hstate (hfits hok) rcOk
  | onTxProduce =>
    obtain rfl := Option.some.inj hp
    exact h
  | resume i =>
    obtain ⟨x, hx, -⟩ := hmoves
    unfold producing at hp
    simp only [hx] at hp
    cases x with
    | completed c =>
      obtain rfl := Option.some.inj hp
      exact h
    | again c => simp at hp
    | onTx read => simp at hp
  | pass => exact hmoves.elim
  | _ => simp [producing] at hp

/-- A pass that ends without a call. -/
theorem tallied_passEnd (hsound : s.filter.Sound) (h : s.filter.Tallied) {c : Consumer}
    (hfits : ∀ u, c.priv.or s.filter.clientQueue.head? = some u → s.filter.state.Filtering →
      s.filter.PassFits (s.size u - (s.copied u).length)) {f : Filter} (hf : s.PassEnd c f) :
    f.Tallied := by
  cases hf with
  | stopped hst => exact ⟨h.count, h.mark, h.kind⟩
  | idle => exact h
  | @left u f hst hu hf reads =>
    have hbegin := h.beginContainer hsound hst (hfits u hu hst).1 (s.copied u).length
    have htallied : f.Tallied := by
      rcases hf with hf | hf
      · rw [hf] at hbegin
        exact hbegin
      · rw [hf] at hbegin
        exact hbegin
    exact ⟨htallied.count, htallied.mark, htallied.kind⟩
  | @gaveUp u f hst hu hf =>
    refine Filter.tallied_of_stopped ?_
    rw [Filter.changeState_of_ne (by decide)]
    exact (by decide : ¬ FilterState.bypassed.Filtering)
  | @filled u f hst hu hf h0 reads =>
    have hbegin := h.beginContainer hsound hst (hfits u hu hst).1 (s.copied u).length
    rw [hf] at hbegin
    have hadvance := hbegin.advance (hsound.serving hst (hfits u hu hst) hf h0)
    exact ⟨hadvance.count, hadvance.mark, hadvance.kind⟩

/-- A step without a call. -/
theorem tallied_of_not_producing {a : Act} (hsound : s.filter.Sound) (hfits : s.Fits a)
    (h : s.filter.Tallied) (hs : s.step cfg a = some s')
    (hp : s.producing cfg a = none) : s'.filter.Tallied := by
  have hstop : ¬ FilterState.bypassed.Filtering := by decide
  have hidle : ¬ FilterState.idle.Filtering := by decide
  have hend := stepEnd hs hp
  generalize s'.filter = g at hend ⊢
  cases hend with
  | same => exact h
  | preview => exact h.preview
  | command => exact h.command
  | newSession => exact h.changeState (by decide) fun hf => absurd hf hidle
  | bypass => exact h.changeState (by decide) fun hf => absurd hf hstop
  | cmdComplete ht ok => exact h.cmdComplete _ ok
  | failed ht hlen ok rcOk => exact Filter.tallied_bypass4
  | refused ht hlen ok rcOk => exact Filter.tallied_bypass4
  | onTx hx =>
    have hread := hfits _ hx
    rw [← hread]
    exact h.afterResponse
  | @pass c f hholder hf => exact tallied_passEnd hsound h (fun u => hfits c u hholder) hf

theorem tallied_step {a : Act} (hsound : s.filter.Sound) (hfits : s.Fits a)
    (hkeeps : s.KeepsPrevious cfg a) (h : s.filter.Tallied)
    (hs : s.step cfg a = some s') : s'.filter.Tallied := by
  cases hp : s.producing cfg a with
  | none => exact tallied_of_not_producing hsound hfits h hs hp
  | some call =>
    rw [filter_of_producing hs hp]
    exact (ready_of_producing hsound hfits hs hp).tallied_run
      (tallied_of_producing hsound hfits h hs hp) (hkeeps call hp)

theorem tallied_of_reachable
    (h : (ptpFilter cfg).ReachableWhere (fun s a => s.Fits a ∧ s.KeepsPrevious cfg a) s) :
    s.filter.Tallied :=
  (h.invariant (I := fun s => s.filter.Sound ∧ s.filter.Tallied)
    ⟨Filter.probed_sound, Filter.probed_tallied⟩ fun _ _ _ hI hok hs =>
      ⟨sound_step hI.1 hok.1 hs, tallied_step hI.1 hok.1 hok.2 hI.2 hs⟩).2

end System

/-- **In a run that drops no frame but the one under way, `frame_count` is the number of complete
frames in the buffer.** -/
theorem frameCount_eq_of_keepsPrevious (cfg : Config) {s : System}
    (h : (ptpFilter cfg).ReachableWhere (fun s a => s.Fits a ∧ s.KeepsPrevious cfg a) s)
    (hf : s.filter.state.Filtering) :
    s.filter.frameCount = s.filter.completeFrames ∧ 0 ≤ s.filter.frameCount := by
  have hcount := (System.tallied_of_reachable h).count hf
  refine ⟨hcount, ?_⟩
  rw [hcount]
  exact Int.natCast_nonneg _

/-- One frame, whose response waits to be read, is counted while the next one is being
received. -/
theorem frameCount_eq_served :
    ∃ s, (ptpFilter highSpeed).ReachableWhere
        (fun s a => s.Fits a ∧ s.KeepsPrevious highSpeed a) s ∧
      (s.filter.state.Filtering ∧ s.filter.frameCount = 1) ∧
      s.filter.frameCount = s.filter.completeFrames ∧ 0 ≤ s.filter.frameCount := by
  obtain ⟨s, hs, hp⟩ := @Machine.exists_reachableWhere_of_any _ _ (ptpFilter highSpeed)
    (fun s a => s.Fits a ∧ s.KeepsPrevious highSpeed a) _ servedRun
    (fun s => decide (s.filter.state.Filtering ∧ s.filter.frameCount = 1)) (by decide +kernel)
  have hcount := of_decide_eq_true hp
  exact ⟨s, hs, hcount, frameCount_eq_of_keepsPrevious highSpeed hs hcount.1⟩

/-! ### The frame before is dropped, too -/

/-- `count` frames are in the buffer, up to `head`, and the last one starts at `start`. -/
def Filter.holding (count head start : ℤ) (frameBuffer : ℤ → Byte) (kept : List (Cell Byte))
    (frames : List (List Byte)) (mark : ℕ) : Filter :=
  { Filter.requested with
    state := .active
    frameCount := count
    frameHead := head
    frameRxTail := start
    frameRxPduEnd := true
    freeUrbs := 2
    busyQueue := []
    frameBuffer := frameBuffer
    kept := kept
    frames := frames
    mark := mark }

/-- A frame of 1 MiB less 2048 bytes, which the client has not begun to read. -/
theorem oneFrame_reachable : ∃ frameBuffer frames, (ptpFilter highSpeed).Reachable
    ⟨.holding 1 1046528 0 frameBuffer (block 0 1046528 (leading 3 1046528 1046528)) frames 0,
      some System.freshConsumer, [], 1, Function.update (fun _ => 0) 0 512, fun _ => []⟩ := by
  have hstep := @System.step_leading highSpeed .requested 0 1048576 1046528 3 1046528 1046528
    rfl rfl rfl rfl (by decide) le_rfl (by decide) (by decide)
    ((if_pos rfl).trans (by decide : framebufAlign ((0 + (1046528 : ℕ)) % framebufFullSize) =
      1046528)) true
  exact ⟨_, _, requested_reachable.next trivial hstep⟩

/-- A second one, which is short. -/
theorem twoFrames_reachable : ∃ frameBuffer frames mark, (ptpFilter highSpeed).Reachable
    ⟨.holding 2 1046592 1046528 frameBuffer
        (block 0 1046528 (leading 3 1046528 1046528) ++ block 1046528 12 (leading 3 12 12))
        frames mark,
      some System.freshConsumer, [], 1, Function.update (fun _ => 0) 0 512, fun _ => []⟩ := by
  obtain ⟨frameBuffer, frames, hreach⟩ := oneFrame_reachable
  have hidle := hreach.next (a := .pass) trivial rfl
  have hcommand := hidle.next (a := .timer) trivial rfl
  have hsent := hcommand.next (a := .cmdComplete 0 true) trivial rfl
  have hdone := hsent.next trivial (@System.step_leading highSpeed _ 1046528 2048 1046592 3 12 12
    rfl rfl rfl rfl le_rfl le_rfl (by decide) (by decide)
    ((if_pos rfl).trans (by decide : framebufAlign ((1046528 + (12 : ℕ)) % framebufFullSize) =
      1046592)) true)
  exact ⟨_, _, _, hdone⟩

/-- The first bytes of a third frame leave less than a packet to the end of the buffer. -/
def Filter.full (frameBuffer : ℤ → Byte) (kept : List (Cell Byte)) (frames : List (List Byte))
    (mark mark₂ : ℕ) : Filter :=
  { Filter.holding 2 1048128 1046592 frameBuffer kept frames mark with
    state := .busy
    frameRxLength := 3464
    frameRxPduEnd := false
    frameRxTail2 := 1046528
    freeUrbs := 1
    mark₂ := mark₂ }

theorem full_reachable : ∃ frameBuffer frames mark mark₂ s, (ptpFilter highSpeed).Reachable s ∧
    s.filter = ((Filter.full frameBuffer
      (block 0 1046528 (leading 3 1046528 1046528) ++ block 1046528 12 (leading 3 12 12) ++
        block 1046592 5000 (leading 2 5000 1536)) frames mark mark₂).received highSpeed
          true).filter := by
  obtain ⟨frameBuffer, frames, mark, hreach⟩ := twoFrames_reachable
  have hidle := hreach.next (a := .pass) trivial rfl
  have hcommand := hidle.next (a := .timer) trivial rfl
  have hsent := hcommand.next (a := .cmdComplete 0 true) trivial rfl
  have hdone := hsent.next trivial (@System.step_leading highSpeed _ 1046592 1536 1048128 2
    5000 1536 rfl rfl rfl rfl (by decide) (by decide) (by decide) (by decide)
    ((if_neg (by decide)).trans (by decide : (1046592 + (1536 : ℕ)) % framebufFullSize =
      1048128)) true)
  exact ⟨_, _, _, _, _, hdone, System.filter_produced _ _⟩

/-- It is dropped, and so is the second one. -/
theorem received_full (frameBuffer : ℤ → Byte) (kept : List (Cell Byte))
    (frames : List (List Byte)) (mark mark₂ : ℕ) :
    let f := ((Filter.full frameBuffer kept frames mark mark₂).received highSpeed true).filter
    f.state = .drop ∧ f.frameCount = 2 ∧ f.frameLength = 0 ∧
      f.kept = before 1046528 (before 1046592 kept) :=
  ⟨rfl, rfl, rfl, rfl⟩

/-- **Two frames are counted when the second one has been dropped, and only the first one is in
the buffer.** -/
theorem frameCount_reachable_ne : ∃ s, (ptpFilter highSpeed).Reachable s ∧
    s.filter.state.Filtering ∧ s.filter.frameCount ≠ s.filter.completeFrames := by
  obtain ⟨frameBuffer, frames, mark, mark₂, s, hreach, hfilter⟩ := full_reachable
  obtain ⟨hstate, hcount, hlength, hkept⟩ := received_full frameBuffer
    (block 0 1046528 (leading 3 1046528 1046528) ++ block 1046528 12 (leading 3 12 12) ++
      block 1046592 5000 (leading 2 5000 1536)) frames mark mark₂
  rw [← hfilter] at hstate hcount hlength hkept
  have hone : (leading 3 1046528 1046528).length = 1046528 := length_leading (by decide)
  have htwo : (leading 3 12 12).length = 12 := length_leading le_rfl
  have hfirst : ∀ c ∈ block 0 1046528 (leading 3 1046528 1046528), c.pos < 1046528 := by
    intro c hc
    have hpos := (block_pos hc).2
    rw [hone] at hpos
    exact hpos
  have hsecond : ∀ c ∈ block 1046528 12 (leading 3 12 12), c.pos < 1046592 := by
    intro c hc
    have hpos := (block_pos hc).2
    rw [htwo] at hpos
    exact hpos.trans (by decide)
  have hthird : before 1046592 (block 0 1046528 (leading 3 1046528 1046528) ++
      block 1046528 12 (leading 3 12 12) ++ block 1046592 5000 (leading 2 5000 1536)) =
        block 0 1046528 (leading 3 1046528 1046528) ++ block 1046528 12 (leading 3 12 12) := by
    refine before_append_of_head (fun c hc => ?_) fun c hc => head_block hc
    rcases List.mem_append.mp hc with hc | hc
    · exact ((hfirst c hc).trans (by decide)).ne
    · exact (hsecond c hc).ne
  rw [hthird, before_append_of_head (fun c hc => (hfirst c hc).ne) fun c hc => head_block hc]
    at hkept
  have htype : isResponse ((leading 3 1046528 1046528).take bulkHeaderSize) = true := by
    unfold isResponse
    rw [containerType_take, containerType_leading]
    rfl
  have hpos : 0 < (leading 3 1046528 1046528).length := by
    rw [hone]
    decide
  have hcomplete : s.filter.completeFrames = 1 := by
    unfold Filter.completeFrames
    rw [hlength, hkept, completed_block_start hone.le hpos, if_pos ⟨hone, htype⟩]
  refine ⟨s, hreach, hstate ▸ by decide, ?_⟩
  rw [hcount, hcomplete]
  decide

end Usbip.Ptp
