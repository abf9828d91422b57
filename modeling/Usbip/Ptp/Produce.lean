import Usbip.Ptp.Sound

/-!
# `ptp_produce_` keeps the invariant

One lemma for each kind of request, and `Sound.produce` for the first one on `request_queue`.
A receive URB is the interesting case: `Supply` is what is known while it waits for its place,
and the place found by `makeRoom` or by the loop over `dropPass` makes the filter `Sound` again.
-/

namespace Usbip.Ptp.Filter

open RecordRing

variable {cfg : Config} {f : Filter} {pending : Bool}

/-! ### Fields the invariant does not mention -/

theorem Sound.frame (h : f.Sound) (count : ℤ) (serving pduEnd rxPduEnd : Bool) (reads : List ℕ)
    (free : ℕ) (frames : List (List Byte)) (mark mark₂ : ℕ) :
    Sound { f with
      frameCount := count, frameServing := serving, framePduEnd := pduEnd,
      frameRxPduEnd := rxPduEnd, clientQueue := reads, freeUrbs := free,
      frames := frames, mark := mark, mark₂ := mark₂ } :=
  ⟨⟨h.size_nonneg, h.size_le, h.holds, h.apart, h.rxLength_lt, h.mark_aligned, h.mark₂_aligned⟩,
    h.single, h.quiet, h.head_aligned, h.region, h.headed, h.waiting, h.ring, h.dropping⟩

theorem missing_of_drop (h : f.state = .drop) : f.missing = 0 := if_neg fun hc => hc.1 h

theorem missing_of_receives (hd : f.state ≠ .drop) (h : f.Receives) :
    f.missing = f.frameRxLength := if_pos ⟨hd, h⟩

theorem missing_of_not_receives (h : ¬ f.Receives) : f.missing = 0 := if_neg fun hc => h hc.2

/-- Only the receive URBs on `request_queue` matter. -/
theorem Sound.requests (h : f.Sound) {q : List Request}
    (hq : q.count .selfData = f.requestQueue.count .selfData) :
    Sound { f with requestQueue := q } := by
  have hmem : .selfData ∈ q ↔ .selfData ∈ f.requestQueue := by
    rw [← List.count_pos_iff, hq, List.count_pos_iff]
  have hmiss : missing { f with requestQueue := q } = f.missing := by
    unfold missing Receives
    rw [hmem]
  refine ⟨⟨h.size_nonneg, h.size_le, h.holds, h.apart, h.rxLength_lt, h.mark_aligned,
    h.mark₂_aligned⟩, hq ▸ h.single, fun hs => ?_, h.head_aligned, h.region, h.headed,
    fun hw => h.waiting (hmem.mp hw), fun hr => ?_, h.dropping⟩
  · exact ⟨(h.quiet hs).1, fun hw => (h.quiet hs).2 (hmem.mp hw)⟩
  · rw [hmiss]
    exact h.ring (hr.imp_right hmem.mp)

theorem Sound.pend (h : f.Sound) {r : Request} (hr : r ≠ .selfData) :
    (f.pend r pending).Sound := by
  unfold Filter.pend
  split
  · exact h
  · exact h.requests (by rw [List.count_append, List.count_singleton, if_neg (by simpa using hr),
      Nat.add_zero])

/-- The request that a call of `ptp_produce_` is about. -/
abbrev Pending (f : Filter) (r : Request) (pending : Bool) : Prop :=
  pending = true → ∃ rest, f.requestQueue = r :: rest

theorem Sound.unqueue (h : f.Sound) {r : Request} (hr : r ≠ .selfData)
    (hp : f.Pending r pending) : (f.unqueue pending).Sound := by
  unfold Filter.unqueue
  split
  next hpend =>
    obtain ⟨rest, hq⟩ := hp hpend
    refine h.requests ?_
    rw [hq, List.tail_cons, List.count_cons_of_ne hr]
  next => exact h

theorem submit_unqueue (t : Transfer) :
    (f.unqueue pending).submit t = (f.submit t).unqueue pending := by
  cases pending <;> rfl

/-! ### Changes of state -/

@[simp] theorem changeState_state (s : FilterState) : (f.changeState s).state = s := by
  unfold changeState
  split
  next h => exact h.symm
  next => rfl

/-- Apart from going to sleep a change of state is nothing but that. -/
theorem changeState_of_ne {s : FilterState} (h : s ≠ .sleep) :
    f.changeState s = { f with state := s } := if_neg h

/-- Leaving the stream. -/
theorem Sound.changeState_stopped (h : f.Sound) {s : FilterState} (hs : ¬ s.Filtering) :
    (f.changeState s).Sound := by
  have hsleep : s ≠ .sleep := by
    rintro rfl
    exact hs (by decide)
  have hbusy : s ≠ .busy := by
    rintro rfl
    exact hs (by decide)
  have hdrop : s ≠ .drop := by
    rintro rfl
    exact hs (by decide)
  rw [changeState_of_ne hsleep]
  refine ⟨⟨h.size_nonneg, h.size_le, h.holds, h.apart, h.rxLength_lt, h.mark_aligned,
    h.mark₂_aligned⟩, h.single, fun hq => absurd hq.filtering hs, fun hq => absurd hq.filtering hs,
    h.region, fun hb => absurd hb hbusy, h.waiting, fun hr => ?_, fun hd => absurd hd hdrop⟩
  have hw := hr.resolve_left hs
  -- a URB that waits for room was not dropping its frame
  have hnd : f.state ≠ .drop := fun hd => by
    have h1 := h.waiting hw
    have h2 := (h.dropping hd).1.mark_nonneg
    omega
  have hring := h.ring (.inr hw)
  rw [missing_of_receives hnd (.inl hw), RingAt, level_of_ne_drop hnd] at hring
  rw [missing_of_receives hdrop (.inl hw)]
  exact RingAt.of_ne_drop hdrop hring

/-- Between the states in which the stream has nothing under way. -/
theorem Sound.changeState_quiet (h : f.Sound) {s : FilterState} (hf : f.state.Quiet)
    (hs : s.Quiet) : (f.changeState s).Sound := by
  have key : ∀ g : Filter, g.Sound → g.state.Quiet → Sound { g with state := s } := by
    intro g h hf
    obtain ⟨hbusy, hdata⟩ := h.quiet hf
    have hnr : ∀ t, ¬ Receives { g with state := t } := by
      rintro t (hw | ⟨offset, length, hw⟩)
      · exact hdata hw
      · rw [hbusy] at hw
        simp at hw
    refine ⟨⟨h.size_nonneg, h.size_le, h.holds, h.apart, h.rxLength_lt, h.mark_aligned,
      h.mark₂_aligned⟩, h.single, fun _ => ⟨hbusy, hdata⟩, fun _ => h.head_aligned hf, h.region,
      fun hb => absurd hb hs.not_busy, h.waiting, fun _ => ?_, fun hd => absurd hd hs.not_drop⟩
    have hring := h.ring (.inl hf.filtering)
    rw [missing_of_not_receives (hnr g.state), RingAt, level_of_ne_drop hf.not_drop] at hring
    rw [missing_of_not_receives (hnr s)]
    exact RingAt.of_ne_drop hs.not_drop hring
  unfold changeState
  split
  next heq =>
    subst heq
    have hcount : (f.requestQueue.filter fun r => r ≠ .selfCmd).count .selfData =
        f.requestQueue.count .selfData := List.count_filter (by decide)
    exact key _ ((h.requests hcount).frame _ _ _ _ _ _ _ _ _) hf
  next => exact key f h hf

/-! ### Requests without data -/

theorem Sound.submitCmd (h : f.Sound) (hf : f.state.Quiet) (hp : f.Pending .selfCmd pending) :
    (f.submitCmd pending).filter.Sound := by
  obtain ⟨hbusy, hdata⟩ := h.quiet hf
  have hhead := h.head_aligned hf
  have hring := h.ring (.inl hf.filtering)
  have hnr : ¬ f.Receives := by
    rintro (hw | ⟨offset, length, hw⟩)
    · exact hdata hw
    · rw [hbusy] at hw
      simp at hw
  rw [missing_of_not_receives hnr, RingAt, level_of_ne_drop hf.not_drop] at hring
  have hcount : f.requestQueue.count .selfData = 0 := List.count_eq_zero.mpr hdata
  have hmark₂ : (if 0 < f.frameRxTail then f.frameRxTail else f.frameRxTail2) = f.frameRxTail2 ∨
      0 ≤ f.frameRxTail ∧
        (if 0 < f.frameRxTail then f.frameRxTail else f.frameRxTail2) = f.frameRxTail := by
    split
    next hpos => exact .inr ⟨hpos.le, rfl⟩
    next => exact .inl rfl
  have hmarked := hring.mark_level le_framebufAlign hmark₂
  have haligned₂ : (if 0 < f.frameRxTail then f.frameRxTail else f.frameRxTail2) % 64 = 0 ∨
      (if 0 < f.frameRxTail then f.frameRxTail else f.frameRxTail2) < 0 := by
    split
    · exact h.mark_aligned
    · exact h.mark₂_aligned
  have hsound : Sound ((f.markFrame.changeState .busy).submit .cmd) := by
    rw [changeState_of_ne (by decide)]
    have hcmd : ∀ o n, .data o n ∉ f.busyQueue ++ [Transfer.cmd] := by
      intro o n hmem
      rw [hbusy] at hmem
      simp at hmem
    have hnr' : ¬ Receives (submit { f.markFrame with state := .busy } .cmd) := by
      rintro (hw | ⟨offset, length, hw⟩)
      · exact hdata hw
      · exact hcmd offset length hw
    refine ⟨⟨h.size_nonneg, h.size_le, h.holds, h.apart, h.rxLength_lt, .inl hhead, haligned₂⟩,
      ?_, fun hq => absurd rfl hq.not_busy, fun hq => absurd rfl hq.not_busy,
      fun o n hmem => absurd hmem (hcmd o n), fun _ o n hmem => absurd hmem (hcmd o n),
      fun hw => absurd hw hdata, fun _ => ?_, fun hdrop => ?_⟩
    · dsimp only [Filter.submit, markFrame]
      rw [hbusy, hcount]
      decide
    · rw [missing_of_not_receives hnr']
      exact RingAt.of_ne_drop (by simp [Filter.submit]) hmarked
    · simp [Filter.submit] at hdrop
  have hpend : Pending ((f.markFrame.changeState .busy).submit .cmd) .selfCmd pending := by
    rw [changeState_of_ne (by decide)]
    exact hp
  unfold Filter.submitCmd
  rw [submit_unqueue]
  exact hsound.unqueue (by decide) hpend

theorem Sound.produceCmd (h : f.Sound) (hp : f.Pending .selfCmd pending) :
    (f.produceCmd cfg pending).filter.Sound := by
  unfold Filter.produceCmd
  split
  next hsleep =>
    have hf : f.state.Quiet := hsleep ▸ ⟨by decide, by decide, by decide⟩
    have hactive : FilterState.active.Quiet := ⟨by decide, by decide, by decide⟩
    have := h.changeState_quiet hf hactive
    refine this.submitCmd (by simpa using hactive) ?_
    rw [changeState_of_ne (by decide)]
    exact hp
  next =>
    split
    next => exact h.pend (by decide)
    next hnot =>
      have hactive : f.state = .active := by
        by_contra hne
        exact hnot (.inl hne)
      exact h.submitCmd (hactive ▸ ⟨by decide, by decide, by decide⟩) hp

theorem Sound.produceClientOut (h : f.Sound) (hp : f.Pending .clientOut pending) :
    (f.produceClientOut pending).filter.Sound := by
  have hpend : ∀ s, s ≠ .sleep → Pending (f.changeState s) .clientOut pending := by
    intro s hs
    rw [changeState_of_ne hs]
    exact hp
  unfold Filter.produceClientOut
  split
  next hidle =>
    exact (h.changeState_stopped (by decide)).unqueue (by decide) (hpend _ (by decide))
  next hsleep =>
    have hf : f.state.Quiet := hsleep ▸ ⟨by decide, by decide, by decide⟩
    exact (h.changeState_quiet hf ⟨by decide, by decide, by decide⟩).unqueue (by decide)
      (hpend _ (by decide))
  next hactive =>
    have hf : f.state.Quiet := hactive ▸ ⟨by decide, by decide, by decide⟩
    exact (h.changeState_quiet hf ⟨by decide, by decide, by decide⟩).unqueue (by decide)
      (hpend _ (by decide))
  next => exact h.pend (by decide)

theorem Sound.produceClientIn (h : f.Sound) (hp : f.Pending .clientIn pending) :
    (f.produceClientIn pending).filter.Sound := by
  unfold Filter.produceClientIn
  split
  · split
    · exact h.unqueue (by decide) hp
    · exact h
  · exact h.pend (by decide)

/-! ### Receive URBs -/

/-- What is known of the filter while a receive URB of a frame that is not dropped has no place
yet, whatever `request_queue` holds. -/
structure Supply (f : Filter) : Prop extends Stored f where
  not_drop : f.state ≠ .drop
  busy : f.state.Filtering → f.state = .busy
  no_busy : f.busyQueue = []
  ring : f.RingAt f.frameRxLength

theorem Receiving.supply (h : f.Receiving) (hd : f.state ≠ .drop) : f.Supply := by
  have hbusy := h.state.resolve_right hd
  refine ⟨h.toStored, hd, fun _ => hbusy, h.no_busy, ?_⟩
  have := h.ring
  rwa [if_neg hd] at this

/-- A URB on `request_queue` waits for a frame that is not dropped. -/
theorem Sound.supply (h : f.Sound) (hw : .selfData ∈ f.requestQueue) : f.Supply := by
  have hneg := h.waiting hw
  have hnd : f.state ≠ .drop := fun hd => by
    have := (h.dropping hd).1.mark_nonneg
    omega
  have hone := h.single
  have hpos := List.count_pos_iff.mpr hw
  refine ⟨h.toStored, hnd, fun hf => ?_, List.length_eq_zero_iff.mp (by omega), ?_⟩
  · by_contra hb
    exact (h.quiet ⟨hf, hb, hnd⟩).2 hw
  · have := h.ring (.inr hw)
    rwa [missing_of_receives hnd (.inl hw)] at this

namespace Supply

theorem requests (h : f.Supply) (q : List Request) : Supply { f with requestQueue := q } :=
  ⟨⟨h.size_nonneg, h.size_le, h.holds, h.apart, h.rxLength_lt, h.mark_aligned, h.mark₂_aligned⟩,
    h.not_drop, h.busy, h.no_busy, h.ring⟩

theorem resized (h : f.Supply) : (f.resized cfg).Supply := by
  obtain ⟨hring, h0, hle⟩ : (f.resized cfg).RingAt _ ∧ _ :=
    h.ring.makeRoom h.toStored fun hd => absurd hd h.not_drop
  exact ⟨⟨h0, hle, h.holds, h.apart, h.rxLength_lt, h.mark_aligned, h.mark₂_aligned⟩,
    h.not_drop, h.busy, h.no_busy, hring⟩

/-- The URB waits on `request_queue`. -/
theorem sound (h : f.Supply) (hq : f.requestQueue.count .selfData = 1)
    (hneg : f.frameRxTail < 0) : f.Sound := by
  have hw : .selfData ∈ f.requestQueue := List.count_pos_iff.mp (by omega)
  have hbusy : ∀ t, t ∉ f.busyQueue := by
    rw [h.no_busy]
    simp
  have hnq : ¬ f.state.Quiet := fun hq => hq.not_busy (h.busy hq.filtering)
  refine ⟨h.toStored, ?_, fun hq => absurd hq hnq, fun hq => absurd hq hnq,
    fun o n hmem => absurd hmem (hbusy _), fun _ o n hmem => absurd hmem (hbusy _),
    fun _ => hneg, fun _ => ?_, fun hd => absurd hd h.not_drop⟩
  · rw [h.no_busy, hq]
    decide
  · rw [missing_of_receives h.not_drop (.inl hw)]
    exact h.ring

/-- The URB is submitted to where the next bytes are expected. -/
theorem submit (h : f.Supply) (hq : f.requestQueue.count .selfData = 0) {offset n : ℤ}
    (hh : f.Headed offset n) (hmarked : f.Marked) : (f.submit (.data offset n)).Sound := by
  have hqueue : f.busyQueue ++ [.data offset n] = [.data offset n] := by rw [h.no_busy]; rfl
  have hdata : .selfData ∉ f.requestQueue := List.count_eq_zero.mp hq
  have hregion := hh.region h.ring h.toStored h.not_drop
  have hnq : ¬ f.state.Quiet := fun hq => hq.not_busy (h.busy hq.filtering)
  have hmem : ∀ o m, Transfer.data o m ∈ f.busyQueue ++ [.data offset n] →
      o = offset ∧ m = n := by
    intro o m hm
    rw [hqueue] at hm
    simpa using hm
  have hrec : Receives (f.submit (.data offset n)) :=
    .inr ⟨offset, n, List.mem_append_right _ (List.mem_singleton_self _)⟩
  refine ⟨⟨h.size_nonneg, h.size_le, h.holds, h.apart, h.rxLength_lt, h.mark_aligned,
    h.mark₂_aligned⟩, ?_, fun hq => absurd hq hnq, fun hq => absurd hq hnq, fun o m hm => ?_,
    fun _ o m hm => ?_, fun hw => absurd hw hdata, fun _ => ?_, fun hd => absurd hd h.not_drop⟩
  · dsimp only [Filter.submit]
    rw [hqueue, hq]
    simp
  · obtain ⟨rfl, rfl⟩ := hmem o m hm
    exact ⟨hregion.offset_nonneg, hregion.le_full, hregion.free⟩
  · obtain ⟨rfl, rfl⟩ := hmem o m hm
    exact ⟨hh, hmarked⟩
  · rw [missing_of_receives (f := f.submit (.data offset n)) h.not_drop hrec]
    exact h.ring

end Supply

theorem submitData_of_ne {head length : ℤ} (h : transferLength cfg length ≠ 0) :
    (f.submitData cfg head length pending).filter =
      (f.unqueue pending).submit (.data head (transferLength cfg length)) := by
  unfold submitData
  rw [if_neg h]

/-- A receive URB of a frame that is not dropped gets its place. -/
theorem Supply.place (h : f.Supply)
    (hcount : (f.unqueue pending).requestQueue.count .selfData = 0)
    (hcell : 0 ≤ f.frameRxTail → ∃ c ∈ f.kept, c.pos = f.frameRxTail)
    (hroom : cfg.outPipeSize ≤ (f.makeRoom cfg).length) :
    ((f.resized cfg).submitData cfg (f.makeRoom cfg).head (f.makeRoom cfg).length
      pending).filter.Sound := by
  have hP := cfg.outPipeSize_pos
  have hone : 1 ≤ (f.makeRoom cfg).length / cfg.outPipeSize :=
    Int.le_ediv_of_mul_le hP ((one_mul _).trans_le hroom)
  have htl : 0 < transferLength cfg (f.makeRoom cfg).length := mul_pos (by omega) hP
  have hheaded := h.ring.headed_makeRoom h.toStored h.not_drop (transferLength_le cfg) htl hroom
  rw [submitData_of_ne htl.ne']
  have hs : (f.resized cfg).Supply := h.resized
  have hmarked : (f.resized cfg).Marked := by
    intro h0 hne
    obtain ⟨c, hc, hpos⟩ := hcell h0
    exact absurd hpos (hne c hc)
  cases pending with
  | true => exact (hs.requests _).submit hcount hheaded hmarked
  | false => exact hs.submit hcount hheaded hmarked

/-- A receive URB waits for room, because the frame is being consumed. -/
theorem Supply.wait (h : f.Supply) (pending : Bool)
    (hcount : (f.pend .selfData pending).requestQueue.count .selfData = 1)
    (hneg : f.frameRxTail < 0) : ((f.resized cfg).pend .selfData pending).Sound := by
  have hs : (f.resized cfg).Supply := h.resized
  cases pending with
  | true => exact hs.sound hcount hneg
  | false => exact (hs.requests _).sound hcount hneg

/-- The frame under way can be dropped. -/
theorem Receiving.droppable (h : f.Receiving) (h0 : 0 ≤ f.frameRxTail) :
    ((f.resized cfg).changeState .drop).Droppable := by
  obtain ⟨hring, hs0, hsle⟩ : (f.resized cfg).RingAt _ ∧ _ := h.ring.makeRoom h.toStored h.dropping
  rw [changeState_of_ne (by decide)]
  refine ⟨⟨hs0, hsle, h.holds, h.apart, h.rxLength_lt, h.mark_aligned, h.mark₂_aligned⟩, rfl, h0,
    (f.resized cfg).level, _, hring, ?_⟩
  rcases h.state with hb | hd
  · exact .inl (h.begun hb h0)
  · exact .inr ⟨level_of_drop (f := f.resized cfg) hd, (h.dropping hd).mark_lt⟩

theorem Dropped.produceDropped (h : f.Dropped) (hb : f.busyQueue = [])
    (hd : .selfData ∉ f.requestQueue) : (f.produceDropped cfg false).filter.Sound := by
  have hin := h.ring.headIn fun _ => h.dropping
  have hcount : f.requestQueue.count .selfData = 0 := List.count_eq_zero.mpr hd
  have hu := hin.u32_toEndSpace h.size_le
  unfold Filter.produceDropped
  rw [hu]
  by_cases htl : transferLength cfg f.toEndSpace = 0
  · unfold submitData
    rw [if_pos htl, changeState_of_ne (by decide)]
    have hmem : ∀ t, t ∉ f.busyQueue := by
      rw [hb]
      simp
    have hstop : ¬ FilterState.bypassed.Filtering := by decide
    refine ⟨⟨h.size_nonneg, h.size_le, h.holds, h.apart, h.rxLength_lt, h.mark_aligned,
      h.mark₂_aligned⟩, ?_, fun hq => absurd hq.filtering hstop,
      fun hq => absurd hq.filtering hstop, fun o n hm => absurd hm (hmem _), nofun,
      fun hw => absurd hw hd, fun hr => ?_, nofun⟩
    · dsimp only
      rw [hb, hcount]
      decide
    · rcases hr with hr | hr
      · exact absurd hr hstop
      · exact absurd hr hd
  · rw [submitData_of_ne htl]
    have hqueue : f.busyQueue ++ [.data f.frameHead (transferLength cfg f.toEndSpace)] =
        [.data f.frameHead (transferLength cfg f.toEndSpace)] := by rw [hb]; rfl
    have hle := transferLength_le cfg (x := f.toEndSpace)
    have hnq : ¬ f.state.Quiet := fun hq => hq.not_drop h.state
    refine ⟨⟨h.size_nonneg, h.size_le, h.holds, h.apart, h.rxLength_lt, h.mark_aligned,
      h.mark₂_aligned⟩, ?_, fun hq => absurd hq hnq, fun hq => absurd hq hnq, fun o n hm => ?_,
      fun hs => ?_, fun hw => absurd hw hd, fun _ => ?_, fun _ => ⟨h.dropping, ?_⟩⟩
    · dsimp only [Filter.submit, Filter.unqueue]
      rw [if_neg (by decide), hqueue, hcount]
      simp
    · obtain ⟨rfl, rfl⟩ : o = f.frameHead ∧ n = transferLength cfg f.toEndSpace := by
        have : Transfer.data o n ∈ f.busyQueue ++ _ := hm
        rw [hqueue] at this
        simpa using this
      have hregion := h.region
      refine ⟨hregion.offset_nonneg, ?_, fun c hc ⟨hlo, hhi⟩ => hregion.free c hc ⟨hlo, ?_⟩⟩
      · have := hregion.le_full
        omega
      · omega
    · have : f.state = .busy := hs
      rw [h.state] at this
      exact absurd this (by decide)
    · rw [missing_of_drop (f := (f.unqueue false).submit _) h.state]
      exact h.ring
    · intro hm
      have : Transfer.cmd ∈ f.busyQueue ++ _ := hm
      rw [hqueue] at this
      simp at this

/-- `ptp_data_complete` passes its URB on to receive more of the frame. -/
theorem Receiving.produceData (h : f.Receiving) : (f.produceData cfg false).filter.Sound := by
  have hcount : f.requestQueue.count .selfData = 0 := List.count_eq_zero.mpr h.no_data
  unfold Filter.produceData
  split
  next hwait =>
    have hnd : f.state ≠ .drop := fun hd => by
      have := (h.dropping hd).mark_nonneg
      omega
    refine (h.supply hnd).wait false ?_ hwait.2
    change (f.requestQueue ++ [Request.selfData]).count Request.selfData = 1
    rw [List.count_append, hcount]
    decide
  next hnowait =>
    split
    next hdrop =>
      have h0 : 0 ≤ f.frameRxTail := by
        rcases hdrop with hshort | hd
        · omega
        · exact (h.dropping hd).mark_nonneg
      have hdroppable : ((f.resized cfg).changeState .drop).Droppable := h.droppable h0
      refine hdroppable.dropFrame.produceDropped ?_ ?_
      · rw [dropFrame_busyQueue, changeState_of_ne (by decide)]
        exact h.no_busy
      · rw [dropFrame_requestQueue, changeState_of_ne (by decide)]
        exact h.no_data
    next hroom =>
      have hnd : f.state ≠ .drop := fun hd => hroom (.inr hd)
      exact (h.supply hnd).place hcount (h.begun (h.state.resolve_right hnd)) (by omega)

/-- The receive URB on `request_queue` is tried again. -/
theorem Sound.produceData (h : f.Sound) {rest : List Request}
    (hq : f.requestQueue = .selfData :: rest) : (f.produceData cfg true).filter.Sound := by
  have hw : .selfData ∈ f.requestQueue := hq ▸ List.mem_cons_self
  have hneg := h.waiting hw
  have hsupply := h.supply hw
  have hone := h.single
  have hcount : f.requestQueue.count .selfData = 1 := by
    have := List.count_pos_iff.mpr hw
    omega
  unfold Filter.produceData
  split
  next => exact hsupply.wait true hcount hneg
  next hnowait =>
    split
    next hdrop =>
      rcases hdrop with hshort | hd
      · omega
      · exact absurd hd hsupply.not_drop
    next hroom =>
      refine hsupply.place ?_ (fun h0 => absurd h0 (by omega)) (by omega)
      change f.requestQueue.tail.count .selfData = 0
      rw [hq, List.count_cons_self] at hcount
      rw [hq, List.tail_cons]
      omega

/-! ### Any request -/

/-- The first request on `request_queue`, if there is one. -/
theorem Sound.produce (h : f.Sound) : (f.produce cfg none).filter.Sound := by
  unfold Filter.produce
  split
  next => contradiction
  next => exact h
  next r rest hq _ =>
    have hp : f.Pending r true := fun _ => ⟨_, by assumption⟩
    cases r with
    | selfCmd => exact h.produceCmd hp
    | selfData => exact h.produceData (by assumption)
    | clientIn => exact h.produceClientIn hp
    | clientOut => exact h.produceClientOut hp

/-- A URB that carries no data of a frame. -/
theorem Sound.produce_some (h : f.Sound) {r : Request} (hr : r ≠ .selfData) :
    (f.produce cfg (some r)).filter.Sound := by
  have hp : f.Pending r false := nofun
  cases r with
  | selfCmd => exact h.produceCmd hp
  | selfData => exact absurd rfl hr
  | clientIn => exact h.produceClientIn hp
  | clientOut => exact h.produceClientOut hp

theorem Receiving.produce (h : f.Receiving) : (f.produce cfg (some .selfData)).filter.Sound :=
  h.produceData

end Usbip.Ptp.Filter
