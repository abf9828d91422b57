import Usbip.Ptp.Complete

/-!
# The receive region

`ptpFilter` keeps the invariant `Filter.Sound` in every step that meets `System.Fits`, which is
what the source relies on without a check. So in every run of such steps a receive URB under way
has a part of the frame buffer to itself, and head and tail do not meet while bytes wait.
-/

namespace Usbip.Ptp

open RecordRing

namespace Filter

variable {cfg : Config} {f : Filter}

/-! ### The callers of `ptp_produce_` -/

theorem probed_sound : probed.Sound := by
  have hstop : ¬ FilterState.idle.Filtering := by decide
  refine ⟨⟨by decide, le_rfl, nofun, fun hne => absurd rfl hne, by decide, .inl rfl, .inl rfl⟩,
    by decide, fun hq => absurd hq.filtering hstop, fun hq => absurd hq.filtering hstop, nofun,
    nofun, nofun, fun hr => ?_, nofun⟩
  rcases hr with hf | hw
  · exact absurd hf hstop
  · exact absurd hw (by decide)

/-- `ptp_timer` -/
theorem Sound.timer (h : f.Sound) : (f.timer cfg).Sound := by
  unfold Filter.timer
  split
  · exact h
  · split
    · exact h
    · exact (h.frame _ _ _ _ _ _ _ _ _).produce_some (by decide)

/-- The ring of a stream that starts over is empty. -/
theorem Sound.startOver (h : f.Sound) (hb : f.busyQueue = []) (hd : .selfData ∉ f.requestQueue)
    (hidle : f.state = .idle) : f.preview.Sound := by
  have hneg : (-1 : ℤ) < 0 := by decide
  unfold Filter.preview
  rw [if_pos hidle]
  refine Stored.quiet (f := { f with
      frameCount := 0, frameRxTail := -1, frameRxTail2 := -1, frameHead := 0, frameTail := 0,
      frameLength := 0, frameServing := true, kept := [] })
    ⟨h.size_nonneg, h.size_le, nofun, fun hne => absurd rfl hne, h.rxLength_lt, .inr hneg,
      .inr hneg⟩ hb hd ?_ rfl ⟨by decide, by decide, by decide⟩
  exact Ring.empty le_rfl h.size_nonneg hneg hneg

/-- `ptp_on_rx` with a preview command -/
theorem Sound.preview (h : f.Sound)
    (hidle : f.state = .idle → f.busyQueue = [] ∧ .selfData ∉ f.requestQueue) :
    f.preview.Sound := by
  by_cases hst : f.state = .idle
  · obtain ⟨hb, hd⟩ := hidle hst
    exact h.startOver hb hd hst
  · unfold Filter.preview
    rw [if_neg hst]
    split
    next hsleep =>
      have hquiet : f.state.Quiet := hsleep ▸ ⟨by decide, by decide, by decide⟩
      exact (h.frame _ _ _ _ _ _ _ _ _).changeState_quiet hquiet ⟨by decide, by decide, by decide⟩
    next =>
      split
      · exact h.frame _ _ _ _ _ _ _ _ _
      · exact h.changeState_stopped (by decide)

/-- `ptp_on_rx` with another command -/
theorem Sound.command (h : f.Sound) : f.command.Sound := by
  unfold Filter.command
  split
  next hactive =>
    have hquiet : f.state.Quiet := hactive ▸ ⟨by decide, by decide, by decide⟩
    exact h.changeState_quiet hquiet ⟨by decide, by decide, by decide⟩
  next hsleep =>
    have hquiet : f.state.Quiet := hsleep ▸ ⟨by decide, by decide, by decide⟩
    exact h.changeState_quiet hquiet ⟨by decide, by decide, by decide⟩
  next => exact h.changeState_stopped (by decide)
  next => exact h.pend (by decide)
  next => exact h.pend (by decide)
  next => exact h.changeState_stopped (by decide)

/-- `ptp_on_tx` changes the state that it has read. -/
theorem Sound.afterResponse (h : f.Sound) : (f.changeState f.state.afterResponse).Sound := by
  have hself : f.state ≠ .sleep → (f.changeState f.state).Sound := by
    intro hsleep
    rw [changeState_of_ne hsleep]
    exact h
  have hquiet : FilterState.active.Quiet ∧ FilterState.sleep.Quiet :=
    ⟨⟨by decide, by decide, by decide⟩, ⟨by decide, by decide, by decide⟩⟩
  cases hst : f.state with
  | wait => exact h.changeState_quiet (hst ▸ ⟨by decide, by decide, by decide⟩) hquiet.1
  | sleepWait => exact h.changeState_quiet (hst ▸ ⟨by decide, by decide, by decide⟩) hquiet.2
  | sleep => exact h.changeState_quiet (hst ▸ hquiet.2) hquiet.2
  | command => exact h.changeState_stopped (by decide)
  | _ =>
    rw [hst] at hself
    exact hself (by decide)

/-! ### A pass of `ptp_consume_` -/

theorem copyLength_le (h : f.HeadIn) (hs : f.frameBufferSize ≤ framebufFullSize) (room : ℕ) :
    f.copyLength room ≤ room ∧ (f.copyLength room : ℤ) ≤ f.toEndCount ∧
      f.copyLength room ≤ f.frameLength := by
  have := h.toEndCount_nonneg
  rw [copyLength_eq (h.u32_toEndCount hs)]
  omega

/-- The container found at the tail is copied as far as there is room and as it is there. -/
theorem Sound.advance_copyLength (h : f.Sound) (hf : f.state.Filtering) {room : ℕ}
    (h0 : f.copyLength room ≠ 0)
    (hfits : f.level = f.frameBufferSize → (room : ℤ) < f.frameBufferSize - f.frameTail ∨
      (f.frameLength : ℤ) < f.frameBufferSize - f.frameTail) :
    (f.advance (f.copyLength room)).Sound := by
  obtain ⟨hroom, hcount, hlen⟩ := copyLength_le (h.headIn hf) h.size_le room
  refine h.advance hf (Nat.pos_of_ne_zero h0) hlen hcount fun hend hlevel => ?_
  rcases hfits hlevel with hlt | hlt <;> omega

end Filter

/-! ### The condition on a run -/

namespace System

variable {cfg : Config} {s : System}

/-- A step meets no slip of the source that can bring head and tail out of order. The stream does
not start over while a URB of the filter is under way; a transfer, and a pass of `ptp_consume_`,
leave the head and the tail apart; and `ptp_on_tx` changes the state that it has read. -/
def Fits (s : System) : Act → Prop
  | .preview => s.filter.state = .idle →
      s.filter.busyQueue = [] ∧ .selfData ∉ s.filter.requestQueue
  | .dataComplete _ data ok _ => ok = true → s.filter.TransferFits data
  | .resume i => ∀ read, s.suspended[i]? = some (.onTx read) → s.filter.state = read
  | .pass => ∀ c u, s.holder = some c → c.priv.or s.filter.clientQueue.head? = some u →
      s.filter.state.Filtering → s.filter.PassFits (s.size u - (s.copied u).length)
  | _ => True

instance (s : System) : (x : Suspended) →
    Decidable (∀ read, x = .onTx read → s.filter.state = read)
  | .onTx read => decidable_of_iff (s.filter.state = read)
      ⟨fun h _ hread => Suspended.onTx.inj hread ▸ h, fun h => h read rfl⟩
  | .again _ => isTrue fun _ hread => Suspended.noConfusion hread
  | .completed _ => isTrue fun _ hread => Suspended.noConfusion hread

instance (s : System) : (a : Act) → Decidable (s.Fits a)
  | .preview => inferInstanceAs (Decidable (_ → _))
  | .dataComplete _ _ _ _ => inferInstanceAs (Decidable (_ → _))
  | .resume i => decidable_of_iff
      (∀ x ∈ s.suspended[i]?, ∀ read, x = .onTx read → s.filter.state = read)
      ⟨fun h read hx => h _ hx read rfl, fun h _ hx read hread => h read (hread ▸ hx)⟩
  | .pass => decidable_of_iff
      (∀ c ∈ s.holder, ∀ u ∈ c.priv.or s.filter.clientQueue.head?, s.filter.state.Filtering →
        s.filter.PassFits (s.size u - (s.copied u).length))
      ⟨fun h c u hc hu => h c hc u hu, fun h c hc u hu => h c u hc hu⟩
  | .readUrb _ | .command | .newSession | .bypass | .timer | .cmdComplete _ _ | .onTxState
  | .onTxProduce => inferInstanceAs (Decidable True)

/-- What a step that takes the lock does, its guards included. -/
def Moves (cfg : Config) (s : System) : Act → System → Prop
  | .readUrb n, s' => s.RxFree ∧ n < 2 ^ 31 ∧ s' = s.readUrb cfg n
  | .preview, s' => s.RxFree ∧ s' = { s with filter := s.filter.preview }
  | .command, s' => s.RxFree ∧ s' = { s with filter := s.filter.command }
  | .newSession, s' => s.RxFree ∧ s' = { s with filter := s.filter.changeState .idle }
  | .bypass, s' => s' = { s with filter := s.filter.changeState .bypassed }
  | .timer, s' => s' = { s with filter := s.filter.timer cfg }
  | .cmdComplete i ok, s' => s.filter.busyQueue[i]? = some .cmd ∧
      s' = { s with filter := (s.filter.complete i).cmdComplete cfg ok }
  | .dataComplete i data ok rcOk, s' => ∃ offset length,
      s.filter.busyQueue[i]? = some (.data offset length) ∧ data.length ≤ length ∧
        match ((s.filter.complete i).written offset data).dataComplete cfg offset data ok rcOk with
        | .inl f => s' = { s with filter := f }
        | .inr p => s' = s.produced p freshConsumer
  | .onTxState, s' => s.filter.state.afterResponse ≠ s.filter.state ∧
      s' = { s with suspended := s.suspended ++ [.onTx s.filter.state] }
  | .onTxProduce, s' => s' = { s with filter := (s.filter.produce cfg none).filter }
  | .resume i, s' => ∃ x, s.suspended[i]? = some x ∧
      s' = { s with suspended := s.suspended.eraseIdx i }.resume cfg x
  | .pass, _ => False

theorem moves_of_locked {s' : System} {a : Act} (hs : s.locked cfg a = some s') :
    s.Moves cfg a s' := by
  cases a with
  | cmdComplete i ok =>
    dsimp only [locked] at hs
    split at hs
    next ht => exact ⟨ht, (Option.some.inj hs).symm⟩
    next => simp at hs
  | dataComplete i data ok rcOk =>
    dsimp only [locked] at hs
    split at hs
    next offset length ht =>
      obtain ⟨hlen, hs⟩ := Option.ite_none_right_eq_some.mp hs
      refine ⟨offset, length, ht, hlen, ?_⟩
      revert hs
      cases Filter.dataComplete cfg _ offset data ok rcOk with
      | inl f => exact fun hs => (Option.some.inj hs).symm
      | inr p => exact fun hs => (Option.some.inj hs).symm
    next => simp at hs
  | resume i =>
    dsimp only [locked] at hs
    split at hs
    next x hx => exact ⟨x, hx, (Option.some.inj hs).symm⟩
    next => simp at hs
  | pass => simp [locked] at hs
  | _ =>
    simp only [locked, Option.ite_none_right_eq_some, Option.some.injEq] at hs
    simp only [Moves]
    grind

/-- The lock is held by a consumer, who alone goes on, or it is taken. -/
theorem step_cases {s' : System} {a : Act} (hs : s.step cfg a = some s') :
    (∃ c, s.holder = some c ∧ a = .pass ∧ s' = s.pass cfg c) ∨
      s.holder = none ∧ s.Moves cfg a s' := by
  cases hholder : s.holder with
  | none =>
    have hs : s.locked cfg a = some s' := by simpa [step, hholder] using hs
    exact .inr ⟨rfl, moves_of_locked hs⟩
  | some c =>
    cases a with
    | pass =>
      have hs : some (s.pass cfg c) = some s' := by simpa [step, hholder] using hs
      exact .inl ⟨c, rfl, rfl, (Option.some.inj hs).symm⟩
    | _ => simp [step, hholder] at hs

theorem step_dataComplete {i : ℕ} {offset length : ℤ} {data : List Byte} {ok rcOk : Bool}
    {p : Filter.Produced} (hholder : s.holder = none)
    (ht : s.filter.busyQueue[i]? = some (.data offset length)) (hlen : data.length ≤ length)
    (hp : ((s.filter.complete i).written offset data).dataComplete cfg offset data ok rcOk =
      .inr p) :
    (ptpFilter cfg).step s (.dataComplete i data ok rcOk) = some (s.produced p freshConsumer) := by
  simp only [ptpFilter, step, hholder, locked, ht, if_pos hlen, hp]

@[simp] theorem filter_produced (p : Filter.Produced) (c : Consumer) :
    (s.produced p c).filter = p.filter := by
  unfold produced
  split <;> rfl

theorem sound_produced {p : Filter.Produced} (hp : p.filter.Sound) (c : Consumer) :
    (s.produced p c).filter.Sound := by
  rw [filter_produced]
  exact hp

theorem sound_leave {f : Filter} (hf : f.Sound) (c : Consumer) :
    (s.leave f c).filter.Sound := by
  unfold leave
  dsimp only
  split
  · exact hf.frame _ _ _ _ _ _ _ _ _
  · exact hf

theorem sound_serve {f : Filter} {n : ℕ} (hf : (f.advance n).Sound) (c : Consumer) (u : ℕ) :
    (s.serve cfg f c u n).filter.Sound := by
  unfold serve
  dsimp only
  split
  · split
    · exact hf.frame _ _ _ _ _ _ _ _ _
    · exact hf
  · exact sound_produced hf.produce c

/-- One pass of `ptp_consume_`. -/
theorem sound_pass (h : s.filter.Sound) {c : Consumer}
    (hfits : ∀ u, c.priv.or s.filter.clientQueue.head? = some u → s.filter.state.Filtering →
      s.filter.PassFits (s.size u - (s.copied u).length)) : (s.pass cfg c).filter.Sound := by
  unfold pass
  split
  · exact h.frame _ _ _ _ _ _ _ _ _
  · rename_i hst
    rw [not_not] at hst
    split
    · exact h
    · rename_i u hu
      obtain ⟨hmarks, hend⟩ := hfits u hu hst
      have hbegin := h.beginContainer hst hmarks (s.copied u).length
      revert hbegin
      dsimp only
      cases s.filter.beginContainer (s.copied u).length with
      | stop f => exact fun hf => sound_leave hf _
      | bypass f =>
        have hstop : ¬ FilterState.bypassed.Filtering := by decide
        exact fun hf => hf.changeState_stopped hstop
      | go f =>
        rintro ⟨hf, hlength, hthere, heq, hlevel⟩
        dsimp only
        split
        · exact sound_leave hf _
        · rename_i h0
          have hstate : f.state.Filtering := by
            rw [heq]
            exact hst
          have htail : f.frameTail = s.filter.frameTail := by rw [heq]
          have hsize : f.frameBufferSize = s.filter.frameBufferSize := by rw [heq]
          refine sound_serve (hf.advance_copyLength hstate h0 fun hl => ?_) _ _
          rw [hlength, htail, hsize]
          exact hend (by rw [← hlevel, hl, hsize]) hthere

/-- A suspended function has the lock again. -/
theorem sound_resume (h : s.filter.Sound) {x : Suspended}
    (hfits : ∀ read, x = .onTx read → s.filter.state = read) : (s.resume cfg x).filter.Sound := by
  cases x with
  | again c => exact h
  | completed c => exact sound_produced h.produce c
  | onTx read =>
    have hread := hfits read rfl
    subst hread
    exact h.afterResponse

/-- `ptp_on_rx` with a read URB -/
theorem sound_readUrb (h : s.filter.Sound) (n : ℕ) : (s.readUrb cfg n).filter.Sound := by
  unfold readUrb
  dsimp only
  split
  · exact h
  · split
    · exact h.produce_some (by decide)
    · exact h

/-- **Each step keeps the invariant of the ring.** -/
theorem sound_step {s' : System} {a : Act} (h : s.filter.Sound) (hfits : s.Fits a)
    (hs : s.step cfg a = some s') : s'.filter.Sound := by
  have hstop : ¬ FilterState.bypassed.Filtering := by decide
  have hidle : ¬ FilterState.idle.Filtering := by decide
  obtain ⟨c, hholder, rfl, rfl⟩ | ⟨-, hmoves⟩ := step_cases hs
  · exact sound_pass h fun u => hfits c u hholder
  cases a with
  | readUrb n =>
    obtain ⟨-, -, rfl⟩ := hmoves
    exact sound_readUrb h n
  | preview =>
    obtain ⟨-, rfl⟩ := hmoves
    exact h.preview hfits
  | command =>
    obtain ⟨-, rfl⟩ := hmoves
    exact h.command
  | newSession =>
    obtain ⟨-, rfl⟩ := hmoves
    exact h.changeState_stopped hidle
  | bypass =>
    obtain rfl := hmoves
    exact h.changeState_stopped hstop
  | timer =>
    obtain rfl := hmoves
    exact h.timer
  | cmdComplete i ok =>
    obtain ⟨ht, rfl⟩ := hmoves
    exact h.cmdComplete ht ok
  | dataComplete i data ok rcOk =>
    obtain ⟨offset, length, ht, hlen, hs'⟩ := hmoves
    have hdone : match ((s.filter.complete i).written offset data).dataComplete cfg offset data
        ok rcOk with
        | .inl f => f.Sound
        | .inr p => p.filter.Sound :=
      (h.arrived ht hlen).dataComplete ok rcOk hfits
    revert hdone hs'
    cases Filter.dataComplete cfg _ offset data ok rcOk with
    | inl f =>
      rintro rfl hf
      exact hf
    | inr p =>
      rintro rfl hp
      exact sound_produced hp _
  | onTxState =>
    obtain ⟨-, rfl⟩ := hmoves
    exact h
  | onTxProduce =>
    obtain rfl := hmoves
    exact h.produce
  | resume i =>
    obtain ⟨x, hx, rfl⟩ := hmoves
    have h' : System.filter { s with suspended := s.suspended.eraseIdx i } |>.Sound := h
    exact sound_resume h' fun read hread => hfits read (hread ▸ hx)
  | pass => exact hmoves.elim

theorem sound_of_reachable (h : (ptpFilter cfg).ReachableWhere Fits s) : s.filter.Sound :=
  h.invariant (I := fun s => s.filter.Sound) Filter.probed_sound
    fun _ _ _ hI hfits hs => sound_step hI hfits hs

end System

/-! ### The region of a receive URB -/

namespace Filter

/-- A receive URB under way has a part of the frame buffer to itself, and the head, where the
next transfer goes, has not come around to the tail while bytes wait there. -/
structure ReceiveSafe (f : Filter) : Prop where
  region : ∀ offset length, .data offset length ∈ f.busyQueue →
    0 ≤ offset ∧ offset + length ≤ framebufFullSize ∧
      ∀ c ∈ f.kept, ¬ (offset ≤ c.pos ∧ c.pos < offset + length)
  apart : f.kept ≠ [] → f.frameHead ≠ f.frameTail
  /-- the bytes that wait lie from the tail up to the head -/
  between : f.state.Filtering → f.state ≠ .drop → ∀ c ∈ f.kept,
    (f.frameTail ≤ f.frameHead → f.frameTail ≤ c.pos ∧ c.pos < f.frameHead) ∧
      (f.frameHead < f.frameTail → c.pos < f.frameHead ∨ f.frameTail ≤ c.pos)

variable {f : Filter}

theorem Sound.receiveSafe (h : f.Sound) : f.ReceiveSafe where
  region offset length hmem := by
    have hregion := h.region offset length hmem
    exact ⟨hregion.offset_nonneg, hregion.le_full, hregion.free⟩
  apart := h.apart
  between hf hd c hc := by
    have hfree := (h.ringAt hf).layout.free le_framebufAlign hc
    rwa [level_of_ne_drop hd] at hfree

end Filter

/-- **In a run whose steps meet `System.Fits` no receive URB can overwrite bytes that the client
has not been given.** -/
theorem receive_region_safe (cfg : Config) {s : System}
    (h : (ptpFilter cfg).ReachableWhere System.Fits s) : s.filter.ReceiveSafe :=
  (System.sound_of_reachable h).receiveSafe

/-- A high-speed bulk endpoint and the default of `usbip_ptp_buffer_count`. -/
def highSpeed : Config := ⟨512, 3, by decide, by decide⟩

/-- A data container of 24 bytes. -/
def shortContainer : List Byte :=
  [24, 0, 0, 0, 2, 0, 0x53, 0x91, 1, 0, 0, 0, 1, 2, 3, 4, 5, 6, 7, 8, 9, 10, 11, 12]

/-- A response container, `PTP_RC_OK`. -/
def responseContainer : List Byte := [12, 0, 0, 0, 3, 0, 0x01, 0x20, 1, 0, 0, 0]

/-- The client reads from the camera, and then starts the live view. The filter receives a data
container, which the client reads in two parts, and the response, and asks for the next frame. -/
def servedRun : List Act :=
  [.readUrb 512, .preview, .timer, .cmdComplete 0 true, .dataComplete 0 shortContainer true true,
    .resume 0, .pass, .readUrb 16, .pass, .resume 0, .pass, .readUrb 512, .pass, .resume 0, .pass,
    .dataComplete 0 responseContainer true true, .pass, .timer, .cmdComplete 0 true]

/-- The response waits in the buffer, and behind it is the region of the next receive URB. -/
theorem receive_region_safe_served :
    ∃ s, (ptpFilter highSpeed).ReachableWhere System.Fits s ∧
      (s.filter.kept.map Cell.val = responseContainer ∧
        s.filter.busyQueue = [.data 128 1048064]) ∧ s.filter.ReceiveSafe := by
  obtain ⟨s, hs, hp⟩ := @Machine.exists_reachableWhere_of_any _ _ (ptpFilter highSpeed)
    System.Fits _ servedRun (fun s => decide (s.filter.kept.map Cell.val = responseContainer ∧
      s.filter.busyQueue = [.data 128 1048064])) (by decide +kernel)
  exact ⟨s, hs, of_decide_eq_true hp, receive_region_safe highSpeed hs⟩

/-! ### A container as long as the buffer -/

/-- The first receive URB of the first frame is under way. -/
def Filter.requested : Filter :=
  { Filter.probed with
    state := .busy
    frameServing := true
    frameRxTail := 0
    frameRxTail2 := -1
    freeUrbs := 1
    busyQueue := [.data 0 framebufFullSize]
    frames := [[]] }

/-- The client has sent a read URB before, which has gone to the camera as it is. -/
def System.afterRead (f : Filter) : System :=
  ⟨f, none, [], 1, Function.update (fun _ => 0) 0 512, fun _ => []⟩

/-- The filter is `Filter.requested`, and the client has read nothing of the stream. -/
def System.requested : System := .afterRead .requested

theorem requested_reachable : (ptpFilter highSpeed).Reachable .requested := by
  have hread : (ptpFilter highSpeed).Reachable (.afterRead .probed) :=
    .next (a := .readUrb 512) .init trivial rfl
  have hpreview : (ptpFilter highSpeed).Reachable (.afterRead Filter.probed.preview) :=
    .next (a := .preview) hread trivial rfl
  have htimer : (ptpFilter highSpeed).Reachable
      (.afterRead (Filter.probed.preview.timer highSpeed)) :=
    .next (a := .timer) hpreview trivial rfl
  exact .next (a := .cmdComplete 0 true) htimer trivial rfl

/-- A data container of 1 MiB, received with one URB. -/
def fullContainer : List Byte :=
  [0x00, 0x00, 0x10, 0x00, 0x02, 0x00, 0x53, 0x91, 0x01, 0x00, 0x00, 0x00] ++
    List.replicate (2 ^ 20 - 12) 0

theorem length_fullContainer : fullContainer.length = 2 ^ 20 := by
  rw [fullContainer, List.length_append, List.length_replicate]
  rfl

theorem rxRemaining_fullContainer {f : Filter} (h : f.frameRxLength = 0) :
    f.rxRemaining fullContainer = 2 ^ 20 := by
  rw [Filter.rxRemaining, if_pos h]
  rfl

/-- With an empty ring the next receive URB gets the whole buffer. -/
theorem produceData_empty {f : Filter} (hs : f.state = .busy) (hh : f.frameHead = 0)
    (ht : f.frameTail = 0) (hsize : f.frameBufferSize = framebufFullSize) :
    (f.produceData highSpeed false).filter =
      { f with busyQueue := f.busyQueue ++ [.data 0 framebufFullSize] } := by
  have hspace : u32 f.toEndSpace = framebufFullSize := by
    unfold Filter.toEndSpace
    rw [if_pos (by omega), hh, hsize]
    rfl
  have hroom : f.makeRoom highSpeed = ⟨framebufFullSize, 0, framebufFullSize⟩ := by
    unfold Filter.makeRoom
    rw [if_neg (by omega), hsize, hh, hspace]
  have hlong : ¬ framebufFullSize < highSpeed.outPipeSize := by decide
  have hne : ¬ transferLength highSpeed framebufFullSize = 0 := by decide
  have hresized : f.resized highSpeed = f := by
    unfold Filter.resized
    rw [hroom, ← hsize]
  unfold Filter.produceData
  rw [hresized, hroom, if_neg (fun h => hlong h.1), if_neg (by rw [hs]; simpa using hlong)]
  unfold Filter.submitData
  rw [if_neg hne]
  rfl

/-- With such a container the head is back at the start of the buffer. -/
theorem receive_fullContainer {f : Filter} (hs : f.state = .busy) (hr : f.frameRxLength = 0)
    (hh : f.frameHead = 0) (hsize : f.frameBufferSize = framebufFullSize) :
    f.receive 0 fullContainer = f.counted false 0 0 (f.kept ++ block 0 (2 ^ 20) fullContainer)
      (Filter.addToLast f.frames fullContainer) := by
  have hnd : f.state ≠ .drop := by
    rw [hs]
    decide
  have hleft : f.rxLeft fullContainer = 0 := by
    rw [Filter.rxLeft, rxRemaining_fullContainer hr, length_fullContainer]
    rfl
  have hhead : f.rxHead fullContainer = 0 := by
    rw [Filter.rxHead, if_neg hnd, hh, hsize, length_fullContainer]
    rfl
  have htype : ¬ containerType fullContainer = containerResponse := by decide
  unfold Filter.receive
  rw [hleft, hhead, if_pos hr, if_pos rfl, if_neg hnd, if_neg hnd, rxRemaining_fullContainer hr]
  simp only [htype, decide_false]
  rfl

/-- The URB that has received it is sent again to the same place. -/
theorem dataComplete_fullContainer {f : Filter} (hs : f.state = .busy) (hr : f.frameRxLength = 0)
    (hh : f.frameHead = 0) (ht : f.frameTail = 0) (hsize : f.frameBufferSize = framebufFullSize) :
    ∃ p, f.dataComplete highSpeed 0 fullContainer true true = .inr p ∧
      p.filter.busyQueue = f.busyQueue ++ [.data 0 framebufFullSize] ∧
      p.filter.kept = f.kept ++ block 0 (2 ^ 20) fullContainer := by
  have hgo : ¬ (¬ (true : Bool) ∨ (f.state ≠ .busy ∧ f.state ≠ .drop)) := by simp [hs]
  have hvalid : ¬ f.RxInvalid fullContainer := by
    rintro ⟨-, h | h⟩
    · rw [length_fullContainer] at h
      exact absurd h (by decide)
    · exact absurd h (by decide)
  have hagain : (f.receive 0 fullContainer).received highSpeed true =
      (f.receive 0 fullContainer).produceData highSpeed false := by
    rw [receive_fullContainer hs hr hh hsize]
    exact if_neg fun h => Bool.noConfusion h.2
  have hfilter := produceData_empty (f := f.receive 0 fullContainer)
  rw [receive_fullContainer hs hr hh hsize] at hfilter
  have hsent := hfilter hs rfl ht hsize
  refine ⟨(f.receive 0 fullContainer).produceData highSpeed false, ?_, ?_, ?_⟩
  · unfold Filter.dataComplete
    rw [if_neg hgo, if_neg hvalid, hagain]
  · rw [receive_fullContainer hs hr hh hsize, hsent]
    rfl
  · rw [receive_fullContainer hs hr hh hsize, hsent]
    rfl

/-- **A container of exactly 1 MiB brings the head around to the tail, and the next receive URB
gets the place of its bytes.** -/
theorem receive_region_overlaps :
    ∃ s, (ptpFilter highSpeed).Reachable s ∧ ¬ s.filter.ReceiveSafe := by
  obtain ⟨p, hp, hbusy, hkept⟩ := dataComplete_fullContainer
    (f := (System.requested.filter.complete 0).written 0 fullContainer) rfl rfl rfl rfl rfl
  have hlen : (fullContainer.length : ℤ) ≤ framebufFullSize := by
    rw [length_fullContainer]
    decide
  have hstep := @System.step_dataComplete highSpeed .requested 0 0 framebufFullSize fullContainer
    true true p rfl rfl hlen hp
  have hreach := requested_reachable.next trivial hstep
  refine ⟨_, hreach, fun hsafe => ?_⟩
  rw [System.filter_produced] at hsafe
  have hmem : Transfer.data 0 framebufFullSize ∈ p.filter.busyQueue := by
    rw [hbusy]
    exact List.mem_append_right _ (List.mem_singleton_self _)
  have hcell : ⟨0, 0x00, 2 ^ 20⟩ ∈ p.filter.kept := by
    rw [hkept]
    exact List.mem_append_right _ (List.mem_cons_self ..)
  exact (hsafe.region 0 framebufFullSize hmem).2.2 _ hcell ⟨le_rfl, by decide⟩

end Usbip.Ptp
