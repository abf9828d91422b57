import Usbip.Ptp.Consume

/-!
# The completion handlers keep the invariant

`ptp_cmd_complete` submits the first receive URB of a frame. `ptp_data_complete` goes from
`Arrived`, when a transfer is in the buffer, over `Receiving`, when it is counted, back to
`Sound`, when its URB has a new place or the frame is complete. What it relies on and the code
does not check is the condition `TransferFits` on the transfer.
-/

namespace Usbip.Ptp.Filter

open RecordRing

variable {cfg : Config} {f : Filter} {data : List Byte} {offset : ℤ}

/-! ### The condition on a transfer -/

/-- Where a transfer of a frame that is not dropped begins. -/
def writeHead (f : Filter) : ℤ := if f.frameHead = f.frameBufferSize then 0 else f.frameHead

/-- Where the next byte after a transfer would go, if the buffer did not end. -/
def headAfter (f : Filter) (data : List Byte) : ℤ :=
  if data.length = f.rxRemaining data then framebufAlign (f.writeHead + data.length)
  else f.writeHead + data.length

/-- The head does not come to the tail, and it passes the end of the buffer only with a transfer
that ends there exactly. -/
def LeavesRoom (f : Filter) (data : List Byte) : Prop :=
  if f.frameTail ≤ f.frameHead ∧ f.frameHead < f.frameBufferSize then
    (f.frameHead + data.length = f.frameBufferSize → 0 < f.frameTail) ∧
      (f.frameHead + data.length < f.frameBufferSize → f.headAfter data ≤ f.frameBufferSize)
  else f.headAfter data < f.frameTail

/-- A transfer that is counted meets no slip of the source: it carries bytes of one container,
and unless they are dropped they leave room between head and tail. -/
def TransferFits (f : Filter) (data : List Byte) : Prop :=
  (f.state = .busy ∨ f.state = .drop) → ¬ f.RxInvalid data →
    data.length ≤ f.rxRemaining data ∧ (f.state = .busy → f.LeavesRoom data)

instance (f : Filter) (data : List Byte) : Decidable (f.TransferFits data) := by
  unfold TransferFits LeavesRoom
  infer_instance

/-! ### The first receive URB of a frame -/

/-- With one URB under way the others are none. -/
theorem Sound.complete_eq (h : f.Sound) {i : ℕ} {t : Transfer} (ht : f.busyQueue[i]? = some t) :
    f.busyQueue = [t] ∧ (f.complete i).busyQueue = [] ∧ .selfData ∉ f.requestQueue := by
  have hone := h.single
  obtain ⟨hi, hget⟩ := List.getElem?_eq_some_iff.mp ht
  have hlen : f.busyQueue.length = 1 := by omega
  obtain ⟨u, hu⟩ := List.length_eq_one_iff.mp hlen
  obtain rfl : i = 0 := by omega
  obtain rfl : u = t := by simpa [hu] using ht
  refine ⟨hu, ?_, fun hw => ?_⟩
  · change f.busyQueue.eraseIdx 0 = []
    rw [hu]
    rfl
  · have := List.count_pos_iff.mpr hw
    omega

/-- A state with nothing under way outside the stream. -/
theorem Stored.stopped (h : f.Stored) (hb : f.busyQueue = []) (hd : .selfData ∉ f.requestQueue)
    {s : FilterState} (hs : ¬ s.Filtering) : (f.changeState s).Sound := by
  have hsleep : s ≠ .sleep := by
    rintro rfl
    exact hs (by decide)
  have hdrop : s ≠ .drop := by
    rintro rfl
    exact hs (by decide)
  have hmem : ∀ t, t ∉ f.busyQueue := by
    rw [hb]
    simp
  rw [changeState_of_ne hsleep]
  refine ⟨⟨h.size_nonneg, h.size_le, h.holds, h.apart, h.rxLength_lt, h.mark_aligned,
    h.mark₂_aligned⟩, ?_, fun hq => absurd hq.filtering hs, fun hq => absurd hq.filtering hs,
    fun o n hm => absurd hm (hmem _), fun _ o n hm => absurd hm (hmem _),
    fun hw => absurd hw hd, fun hr => (hr.elim hs hd).elim, fun hd => absurd hd hdrop⟩
  dsimp only
  rw [hb, List.count_eq_zero.mpr hd]
  exact Nat.zero_le 1

/-- A state between two frames. -/
theorem Stored.quiet (h : f.Stored) (hb : f.busyQueue = []) (hd : .selfData ∉ f.requestQueue)
    (hring : Ring framebufAlign bulkHeaderSize containerLength f.frameTail f.frameBufferSize
      f.frameLength f.kept f.frameHead f.frameRxTail f.frameRxTail2 0)
    (halign : f.frameHead % 64 = 0) {s : FilterState} (hs : s.Quiet) :
    (f.changeState s).Sound := by
  have key : ∀ t : FilterState, t.Quiet → Sound { f with state := t } := by
    intro t ht
    have hmem : ∀ t, t ∉ f.busyQueue := by
      rw [hb]
      simp
    have hnr : ¬ Receives { f with state := t } := by
      rintro (hw | ⟨o, n, hw⟩)
      · exact hd hw
      · exact hmem _ hw
    refine ⟨⟨h.size_nonneg, h.size_le, h.holds, h.apart, h.rxLength_lt, h.mark_aligned,
      h.mark₂_aligned⟩, ?_, fun _ => ⟨hb, hd⟩, fun _ => halign,
      fun o n hm => absurd hm (hmem _), fun _ o n hm => absurd hm (hmem _),
      fun hw => absurd hw hd, fun _ => ?_, fun hd => absurd hd ht.not_drop⟩
    · dsimp only
      rw [hb, List.count_eq_zero.mpr hd]
      exact Nat.zero_le 1
    · rw [missing_of_not_receives hnr]
      exact RingAt.of_ne_drop ht.not_drop hring
  by_cases hsleep : s = .sleep
  · have hquiet : FilterState.active.Quiet := ⟨by decide, by decide, by decide⟩
    have := (key .active hquiet).changeState_quiet hquiet hs
    rw [hsleep] at this ⊢
    exact this
  · rw [changeState_of_ne hsleep]
    exact key s hs

theorem Sound.bypass4 (h : f.Stored) (hb : f.busyQueue = []) (hd : .selfData ∉ f.requestQueue) :
    f.bypass4.Sound :=
  Stored.stopped (f := { f with freeUrbs := f.freeUrbs + 1 })
    ⟨h.size_nonneg, h.size_le, h.holds, h.apart, h.rxLength_lt, h.mark_aligned, h.mark₂_aligned⟩
    hb hd (by decide)

/-- `ptp_cmd_complete` -/
theorem Sound.cmdComplete (h : f.Sound) {i : ℕ} (ht : f.busyQueue[i]? = some .cmd) (ok : Bool) :
    ((f.complete i).cmdComplete cfg ok).Sound := by
  obtain ⟨hcmd, hnone, hdata⟩ := h.complete_eq ht
  have hst : (f.complete i).Stored := ⟨h.size_nonneg, h.size_le, h.holds, h.apart, h.rxLength_lt,
    h.mark_aligned, h.mark₂_aligned⟩
  unfold Filter.cmdComplete
  split
  next => exact Sound.bypass4 hst hnone hdata
  next hgo =>
    split
    next =>
      have hstop : ¬ FilterState.bypassed.Filtering := by decide
      have hreset : (f.complete i).resetRx.Stored := ⟨h.size_nonneg, h.size_le, h.holds, h.apart,
        Nat.two_pow_pos 32, h.mark_aligned, h.mark₂_aligned⟩
      exact hreset.stopped hnone hdata hstop
    next htl =>
      have hf : f.state.Filtering := by
        by_contra hf
        exact hgo (.inr hf)
      have hnd : f.state ≠ .drop := fun hd =>
        (h.dropping hd).2 (hcmd ▸ List.mem_singleton_self _)
      have hbusy : f.state = .busy := by
        by_contra hb
        have := (h.quiet ⟨hf, hb, hnd⟩).1
        rw [hcmd] at this
        simp at this
      have hin := h.headIn hf
      have hu : u32 (f.complete i).toEndSpace = f.toEndSpace := hin.u32_toEndSpace h.size_le
      rw [hu] at htl ⊢
      have htl0 : 0 < transferLength cfg f.toEndSpace :=
        lt_of_le_of_ne (transferLength_nonneg cfg hin.toEndSpace_nonneg) (Ne.symm htl)
      have hle := transferLength_le cfg (x := f.toEndSpace)
      have hring := h.ringAt hf
      have hnr : ¬ f.Receives := by
        rintro (hw | ⟨o, n, hw⟩)
        · exact hdata hw
        · rw [hcmd] at hw
          simp at hw
      rw [missing_of_not_receives hnr] at hring
      have hsupply : (f.complete i).resetRx.Supply :=
        ⟨⟨h.size_nonneg, h.size_le, h.holds, h.apart, Nat.two_pow_pos 32, h.mark_aligned,
          h.mark₂_aligned⟩, hnd, fun _ => hbusy, hnone, hring⟩
      refine hsupply.submit (List.count_eq_zero.mpr hdata) (hin.headed_toEndSpace hle htl0) ?_
      -- there is room at the head, so it is not at the end of the buffer
      intro _ _ hroll
      have hTS := hin.tail_le
      have hroll' : f.frameHead = f.frameBufferSize := hroll
      have hspace : f.toEndSpace = 0 := by
        rw [toEndSpace_of_le (hroll' ▸ hTS), hroll', sub_self]
      omega

/-! ### A transfer in the buffer -/

/-- A transfer has come back with `data`, which is in the buffer and not counted yet. -/
structure Arrived (f : Filter) (offset : ℤ) (data : List Byte) : Prop extends Stored f where
  no_busy : f.busyQueue = []
  no_data : .selfData ∉ f.requestQueue
  buffer : ∀ R, ∀ c ∈ block offset R data, f.frameBuffer c.pos = c.val
  busy : f.state = .busy → f.RingAt f.frameRxLength ∧ f.Headed offset data.length ∧ f.Marked
  drop : f.state = .drop → f.RingAt 0 ∧ f.Dropping

theorem Sound.arrived (h : f.Sound) {i : ℕ} {length : ℤ}
    (ht : f.busyQueue[i]? = some (.data offset length)) (hle : data.length ≤ length) :
    ((f.complete i).written offset data).Arrived offset data := by
  obtain ⟨hdata, hnone, hnd⟩ := h.complete_eq ht
  have hmem : Transfer.data offset length ∈ f.busyQueue := hdata ▸ List.mem_singleton_self _
  have hregion := h.region offset length hmem
  have hholds : ∀ c ∈ f.kept, writeMem f.frameBuffer offset data c.pos = c.val := by
    intro c hc
    have hfree := hregion.free c hc
    rw [writeMem_outside (by omega)]
    exact h.holds c hc
  refine ⟨⟨h.size_nonneg, h.size_le, hholds, h.apart, h.rxLength_lt, h.mark_aligned,
    h.mark₂_aligned⟩, hnone, hnd, fun R c hc => writeMem_block hc, fun hb => ?_, fun hd => ?_⟩
  · have hbusy : f.state = .busy := hb
    have hnot : f.state ≠ .drop := by
      rw [hbusy]
      decide
    obtain ⟨hheaded, hmarked⟩ := h.headed hbusy offset length hmem
    have hring := h.ringAt (hbusy ▸ by decide)
    rw [missing_of_receives hnot (.inr ⟨offset, length, hmem⟩)] at hring
    exact ⟨hring, hheaded.mono hle, hmarked⟩
  · have hdrop : f.state = .drop := hd
    have hring := h.ringAt (hdrop ▸ by decide)
    rw [missing_of_drop hdrop] at hring
    exact ⟨hring, (h.dropping hdrop).1⟩

/-! ### Counting it -/

theorem rxRemaining_lt (h : f.frameRxLength < 2 ^ 32) : f.rxRemaining data < 2 ^ 32 := by
  unfold rxRemaining
  split
  · exact containerLength_lt data
  · exact h

/-- A transfer that carries bytes of one container leaves the rest of it to come. -/
theorem rxLeft_eq (h : f.frameRxLength < 2 ^ 32) (hn : data.length ≤ f.rxRemaining data) :
    f.rxLeft data = f.rxRemaining data - data.length := by
  have hlt : f.rxRemaining data < 2 ^ 32 := rxRemaining_lt h
  unfold rxLeft
  omega

/-- The head after a transfer. -/
def newHead (f : Filter) (data : List Byte) : ℤ :=
  if f.rxLeft data = 0 then framebufAlign (f.rxHead data) else f.rxHead data

theorem rxHead_of_ne (hd : f.state ≠ .drop) :
    f.rxHead data = (f.frameHead + data.length) % f.frameBufferSize := if_neg hd

/-- The cells of a transfer end where the next byte would go. -/
theorem walkEnd_headAfter (hn : data.length ≤ f.rxRemaining data) (hpos : 0 < f.rxRemaining data) :
    walkEnd framebufAlign f.writeHead (block f.writeHead (f.rxRemaining data) data) =
      f.headAfter data := by
  by_cases hne : data = []
  · subst hne
    unfold headAfter
    rw [if_neg (by simpa using hpos.ne)]
    simp
  · rw [walkEnd_block hn hne]
    rfl

/-- The head moves on with the bytes of a frame that is not dropped. -/
theorem Arrived.receive_layout (h : f.Arrived offset data) (hb : f.state = .busy)
    (hn : data.length ≤ f.rxRemaining data) (hpos : 0 < f.rxRemaining data)
    (hroom : f.LeavesRoom data) :
    Layout framebufAlign f.frameTail f.frameBufferSize
      (f.kept ++ block offset (f.rxRemaining data) data) (f.newHead data) := by
  have hnd : f.state ≠ .drop := by
    rw [hb]
    decide
  obtain ⟨hring, hheaded, -⟩ := h.busy hb
  have hin := hring.headIn fun hd => absurd hd hnd
  have hT := hin.tail_nonneg
  have hTS := hin.tail_le
  have hH := hin.head_nonneg
  have hHS := hin.head_le
  have hlay := hring.layout
  rw [level_of_ne_drop hnd] at hlay
  have hend := walkEnd_headAfter hn hpos
  have hchain : ∀ p, Chain framebufAlign p (block p _ data) := fun p => chain_block hn
  -- the new head, for a transfer that does not reach the end of the buffer
  have hhead : ∀ x : ℤ, (f.frameHead + data.length) % f.frameBufferSize = x →
      x = f.writeHead + data.length → f.newHead data = f.headAfter data := by
    intro x hx hw
    have hcount := rxLeft_eq h.rxLength_lt hn
    rw [newHead, rxHead_of_ne hnd, hx, hcount, hw]
    unfold headAfter
    by_cases hlast : data.length = f.rxRemaining data
    · rw [if_pos (by omega), if_pos hlast]
    · rw [if_neg (by omega), if_neg hlast]
  have hafter : f.writeHead + data.length ≤ f.headAfter data := by
    unfold headAfter
    split
    · exact le_framebufAlign _
    · exact le_rfl
  unfold LeavesRoom at hroom
  rcases lt_or_ge f.frameHead f.frameTail with hlt | hle
  · -- the head is below the tail and stays there
    rw [if_neg (by omega)] at hroom
    have hw : f.writeHead = f.frameHead := if_neg (by omega)
    obtain ⟨rfl, -⟩ := hheaded.wrapped hlt
    rw [hw] at hend hafter hhead
    rw [hhead _ (Int.emod_eq_of_lt (by omega) (by omega)) rfl, ← hend]
    exact hlay.push_wrapped le_framebufAlign hlt (hchain _) (hend ▸ hroom)
  · rcases hHS.lt_or_eq with hlt | heq
    · rw [if_pos ⟨hle, hlt⟩] at hroom
      have hw : f.writeHead = f.frameHead := if_neg (by omega)
      obtain ⟨rfl, hfit⟩ := hheaded.straight hle hlt
      rw [hw] at hend hhead
      rcases hfit.lt_or_eq with hinside | hexact
      · rw [hhead _ (Int.emod_eq_of_lt (by omega) hinside) rfl, ← hend]
        exact hlay.push hle (hchain _) (hend ▸ hroom.2 hinside)
      · -- the transfer ends with the buffer
        have hne : data ≠ [] := by
          rintro rfl
          simp at hexact
          omega
        obtain ⟨x, hx, hxe⟩ := getLast?_block (p := f.frameHead) (R := f.rxRemaining data) hne
        have hzero : f.newHead data = 0 := by
          rw [newHead, rxHead_of_ne hnd, hexact, Int.emod_self,
            framebufAlign_of_mod (by decide)]
          exact ite_self 0
        rw [hzero]
        exact hlay.push_end le_framebufAlign hle (hroom.1 hexact) (hchain _) hx
          (hxe.trans hexact)
    · -- the head was at the end of the buffer, and the transfer at its start
      rw [if_neg (by omega)] at hroom
      have hw : f.writeHead = 0 := if_pos heq
      obtain ⟨rfl, -⟩ := hheaded.rolled heq
      rw [hw] at hend hafter hhead
      rw [heq] at hlay
      have hmod : (f.frameHead + data.length) % f.frameBufferSize = data.length := by
        rw [heq, Int.add_emod_left]
        exact Int.emod_eq_of_lt (by omega) (by omega)
      rw [hhead _ hmod (zero_add _).symm, ← hend]
      exact hlay.push_rolled le_framebufAlign (hchain _) (hend ▸ hroom)

/-- The bytes of a container that has begun, or of one whose header was accepted. -/
theorem receive_streamed (hvalid : ¬ f.RxInvalid data) (hn : data.length ≤ f.rxRemaining data) :
    Streamed bulkHeaderSize containerLength f.frameRxLength (block offset (f.rxRemaining data) data)
      (f.rxRemaining data - data.length) := by
  unfold rxRemaining at hn ⊢
  by_cases h0 : f.frameRxLength = 0
  · rw [if_pos h0] at hn ⊢
    rw [h0]
    have hhdr : bulkHeaderSize ≤ data.length ∧ bulkHeaderSize ≤ containerLength data := by
      by_contra hlt
      exact hvalid ⟨h0, by omega⟩
    have hne : data ≠ [] := by
      rintro rfl
      simp at hhdr
    exact Streamed.block_start hne hhdr.1 hhdr.2 (containerLength_take data) hn
  · rw [if_neg h0] at hn ⊢
    exact Streamed.block hn

theorem rxRemaining_pos (hvalid : ¬ f.RxInvalid data) : 0 < f.rxRemaining data := by
  unfold rxRemaining
  split
  next h0 =>
    by_contra hlt
    have hzero : containerLength data = 0 := by omega
    exact hvalid ⟨h0, .inr (by rw [hzero]; decide)⟩
  next h0 => omega

/-- A frame whose first bytes have come has a byte at its mark. -/
theorem Arrived.begun (h : f.Arrived offset data) (hb : f.state = .busy)
    (hvalid : ¬ f.RxInvalid data) (h0 : 0 ≤ f.frameRxTail) :
    ∃ c ∈ f.kept ++ block offset (f.rxRemaining data) data, c.pos = f.frameRxTail := by
  have hnd : f.state ≠ .drop := by
    rw [hb]
    decide
  obtain ⟨hring, hheaded, hmarked⟩ := h.busy hb
  have hin := hring.headIn fun hd => absurd hd hnd
  by_cases hcell : ∃ c ∈ f.kept, c.pos = f.frameRxTail
  · obtain ⟨c, hc, hpos⟩ := hcell
    exact ⟨c, List.mem_append_left _ hc, hpos⟩
  · have hne : ∀ c ∈ f.kept, c.pos ≠ f.frameRxTail := fun c hc hpos => hcell ⟨c, hc, hpos⟩
    have hmark := hring.mark h0
    have hlevel := hmark.level hne
    rw [level_of_ne_drop hnd] at hlevel
    have hroll := hmarked h0 hne
    -- nothing of the frame has come before, so this is the start of a container
    have hzero : f.frameRxLength = 0 := by
      have hst := hmark.streamed
      rw [before_eq_self hne] at hst
      exact hring.streamed.unique hst
    have hoffset : offset = f.frameHead := by
      rcases lt_or_ge f.frameHead f.frameTail with hlt | hle
      · exact (hheaded.wrapped hlt).1
      · exact (hheaded.straight hle (lt_of_le_of_ne hin.head_le hroll)).1
    cases data with
    | nil => exact absurd ⟨hzero, .inl (by decide)⟩ hvalid
    | cons b bs =>
      exact ⟨⟨offset, b, f.rxRemaining (b :: bs)⟩, List.mem_append_right _ List.mem_cons_self,
        hoffset.trans hlevel.symm⟩

/-- The head of a frame that is dropped stays where it is. -/
theorem Arrived.newHead_drop (h : f.Arrived offset data) (hd : f.state = .drop) :
    f.newHead data = f.frameHead := by
  have hdrop := (h.drop hd).2
  have halign : f.frameHead % 64 = 0 := by
    have := hdrop.mark_nonneg
    have := h.mark_aligned
    rcases hdrop.head with heq | ⟨heq, -⟩ <;> omega
  have hhead : f.rxHead data = f.frameHead := if_pos hd
  rw [newHead, hhead, framebufAlign_of_mod halign]
  exact ite_self _

/-- The first byte of a frame goes to the head. -/
theorem Arrived.offset_eq (h : f.Arrived offset data) (hb : f.state = .busy)
    (hroll : f.frameHead < f.frameBufferSize) : offset = f.frameHead := by
  obtain ⟨-, hheaded, -⟩ := h.busy hb
  rcases lt_or_ge f.frameHead f.frameTail with hlt | hle
  · exact (hheaded.wrapped hlt).1
  · exact (hheaded.straight hle hroll).1

/-- The ring with the bytes of a frame that is not dropped. -/
theorem Arrived.receive_ring (h : f.Arrived offset data) (hb : f.state = .busy)
    (hvalid : ¬ f.RxInvalid data) (hn : data.length ≤ f.rxRemaining data)
    (hroom : f.LeavesRoom data) :
    Ring framebufAlign bulkHeaderSize containerLength f.frameTail f.frameBufferSize f.frameLength
      (f.kept ++ block offset (f.rxRemaining data) data) (f.newHead data) f.frameRxTail
      f.frameRxTail2 (f.rxLeft data) := by
  have hnd : f.state ≠ .drop := by
    rw [hb]
    decide
  obtain ⟨hring, hheaded, hmarked⟩ := h.busy hb
  have hpos := rxRemaining_pos hvalid
  have hcount := rxLeft_eq h.rxLength_lt hn
  have hin := hring.headIn fun hd => absurd hd hnd
  rw [hcount]
  refine hring.extend (h.receive_layout hb hn hpos hroom) (receive_streamed hvalid hn)
    fun h0 hne => ?_
  have hroll := lt_of_le_of_ne hin.head_le (hmarked h0 hne)
  rw [level_of_ne_drop hnd]
  refine ⟨fun x hx => (head_block hx).trans (h.offset_eq hb hroll), fun hnil => ?_⟩
  · have hlen : data.length = 0 := by
      rw [← length_block (p := offset) (R := f.rxRemaining data), hnil, List.length_nil]
    rw [newHead, hcount, if_neg (by omega), rxHead_of_ne hnd, hlen, Nat.cast_zero, add_zero]
    exact Int.emod_eq_of_lt hin.head_nonneg hroll

section Counted

variable {pduEnd : Bool} {left : ℕ} {head : ℤ} {kept : List (Cell Byte)} {frames : List (List Byte)}

theorem Arrived.counted_busy (h : f.Arrived offset data) (hb : f.state = .busy)
    (hleft : left < 2 ^ 32)
    (hring : Ring framebufAlign bulkHeaderSize containerLength f.frameTail f.frameBufferSize
      f.frameLength kept head f.frameRxTail f.frameRxTail2 left)
    (hholds : ∀ c ∈ kept, f.frameBuffer c.pos = c.val)
    (hbegun : 0 ≤ f.frameRxTail → ∃ c ∈ kept, c.pos = f.frameRxTail)
    (haligned : left = 0 → head % 64 = 0) :
    (f.counted pduEnd left head kept frames).Receiving := by
  have hnd : f.state ≠ .drop := by
    rw [hb]
    decide
  refine ⟨⟨h.size_nonneg, h.size_le, hholds, hring.layout.level_ne_tail le_framebufAlign, hleft,
    h.mark_aligned, h.mark₂_aligned⟩, .inl hb, h.no_busy, h.no_data, ?_, fun hd => absurd hd hnd,
    fun _ => hbegun, fun _ => haligned⟩
  rw [if_neg (c := (f.counted pduEnd left head kept frames).state = .drop) hnd]
  exact RingAt.of_ne_drop hnd hring

theorem Arrived.counted_drop (h : f.Arrived offset data) (hd : f.state = .drop)
    (hleft : left < 2 ^ 32) :
    (f.counted pduEnd left f.frameHead f.kept frames).Receiving := by
  obtain ⟨hring, hdrop⟩ := h.drop hd
  have hnb : f.state ≠ .busy := by
    rw [hd]
    decide
  refine ⟨⟨h.size_nonneg, h.size_le, h.holds, h.apart, hleft, h.mark_aligned, h.mark₂_aligned⟩,
    .inr hd, h.no_busy, h.no_data, ?_, fun _ => hdrop, fun hb => absurd hb hnb,
    fun hb => absurd hb hnb⟩
  rw [if_pos (c := (f.counted pduEnd left f.frameHead f.kept frames).state = .drop) hd]
  rw [RingAt, level_of_drop hd] at hring
  exact RingAt.of_drop hd hring

end Counted

/-- **Counting a transfer keeps the ring.** -/
theorem Arrived.receive (h : f.Arrived offset data) (hvalid : ¬ f.RxInvalid data)
    (hstate : f.state = .busy ∨ f.state = .drop) (hfits : f.TransferFits data) :
    (f.receive offset data).Receiving := by
  obtain ⟨hn, hroom⟩ := hfits hstate hvalid
  have hlt : f.rxLeft data < 2 ^ 32 := by
    have : f.rxRemaining data < 2 ^ 32 := rxRemaining_lt h.rxLength_lt
    rw [rxLeft_eq h.rxLength_lt hn]
    omega
  unfold Filter.receive
  rcases hstate with hb | hd
  · have hnd : f.state ≠ .drop := by
      rw [hb]
      decide
    rw [if_neg hnd]
    refine h.counted_busy hb hlt (h.receive_ring hb hvalid hn (hroom hb)) (fun c hc => ?_)
      (h.begun hb hvalid) fun hzero => ?_
    · rcases List.mem_append.mp hc with hc | hc
      · exact h.holds c hc
      · exact h.buffer _ c hc
    · rw [if_pos hzero]
      exact framebufAlign_mod _
  · have hhead := h.newHead_drop hd
    unfold newHead at hhead
    rw [if_pos hd, hhead]
    exact h.counted_drop hd hlt

/-! ### The end of a frame -/

/-- **A complete frame leaves the ring between two frames.** -/
theorem Receiving.frameDone (h : f.Receiving) (h0 : f.frameRxLength = 0) (rcOk : Bool) :
    (f.frameDone cfg rcOk).Sound := by
  have hsleep : FilterState.sleep.Quiet := ⟨by decide, by decide, by decide⟩
  have hactive : FilterState.active.Quiet := ⟨by decide, by decide, by decide⟩
  have hring := h.ring
  unfold Filter.frameDone
  split
  next hd =>
    have hdrop := h.dropping hd
    rw [if_pos hd, RingAt, level_of_drop hd] at hring
    have hsize : 0 ≤ (if f.frameTail ≤ f.frameRxTail then framebufFullSize
        else f.frameBufferSize) ∧ (if f.frameTail ≤ f.frameRxTail then framebufFullSize
        else f.frameBufferSize) ≤ framebufFullSize := by
      have := h.size_nonneg
      have := h.size_le
      split <;> constructor <;> omega
    have hst : f.endDropped.Stored := ⟨hsize.1, hsize.2, h.holds,
      hring.layout.level_ne_tail le_framebufAlign, h.rxLength_lt, h.mark_aligned,
      h.mark₂_aligned⟩
    refine hst.quiet h.no_busy h.no_data ?_ ?_ hsleep
    · unfold endDropped
      dsimp only
      split
      next hle => exact hring.resize le_framebufAlign hle hdrop.mark_lt.le
      next => exact hring
    · exact h.mark_aligned.resolve_right (not_lt.mpr hdrop.mark_nonneg)
  next hd =>
    have hb := h.state.resolve_right hd
    rw [if_neg hd, RingAt, level_of_ne_drop hd, h0] at hring
    have hst : f.endFrame.Stored := ⟨h.size_nonneg, h.size_le, h.holds, h.apart, h.rxLength_lt,
      h.mark_aligned, h.mark₂_aligned⟩
    have key : ∀ s : FilterState, s.Quiet → (f.endFrame.changeState s).Sound :=
      fun s hs => hst.quiet h.no_busy h.no_data hring (h.aligned hb h0) hs
    split
    · exact key .sleep hsleep
    · exact key .active hactive

theorem Receiving.received (h : f.Receiving) (rcOk : Bool) :
    (f.received cfg rcOk).filter.Sound := by
  unfold Filter.received
  split
  next hdone => exact (h.frameDone hdone.1 rcOk).produce
  next => exact h.produce

/-- `ptp_data_complete` -/
theorem Arrived.dataComplete (h : f.Arrived offset data) (ok rcOk : Bool)
    (hfits : ok = true → f.TransferFits data) :
    match f.dataComplete cfg offset data ok rcOk with
    | .inl f' => f'.Sound
    | .inr p => p.filter.Sound := by
  unfold Filter.dataComplete
  by_cases hstate : ¬ ok ∨ (f.state ≠ .busy ∧ f.state ≠ .drop)
  · rw [if_pos hstate]
    exact Sound.bypass4 h.toStored h.no_busy h.no_data
  · rw [if_neg hstate]
    rw [not_or, not_not, not_and_or, not_not, not_not] at hstate
    by_cases hvalid : f.RxInvalid data
    · rw [if_pos hvalid]
      refine Sound.bypass4 (f := f.refused data) ⟨h.size_nonneg, h.size_le, h.holds, h.apart, ?_,
        h.mark_aligned, h.mark₂_aligned⟩ h.no_busy h.no_data
      unfold refused
      dsimp only
      split
      · exact Nat.two_pow_pos 32
      · exact containerLength_lt data
    · rw [if_neg hvalid]
      exact (h.receive hvalid hstate.2 (hfits hstate.1)).received rcOk

end Usbip.Ptp.Filter
