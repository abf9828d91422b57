import Usbip.Ptp.Region

/-!
# The calls of `ptp_produce_`

A step of the filter calls `ptp_produce_` at most once. `System.producing` gives the filter that
this call starts from and the URB it is given, and `filter_of_producing` says that the step leaves
what the call leaves.
-/

namespace Usbip.Ptp

/-- A call of `ptp_produce_`: the filter as the call finds it, and its argument `priv`. -/
structure ProduceCall where
  filter : Filter
  priv : Option Request

namespace ProduceCall

variable {cfg : Config} {c : ProduceCall} {r : Request}

def run (cfg : Config) (c : ProduceCall) : Filter.Produced := c.filter.produce cfg c.priv

/-- The URB that the call is about. -/
def urb (c : ProduceCall) : Option Request := c.priv.or c.filter.requestQueue.head?

theorem run_of_urb_none (h : c.urb = none) : c.run cfg = ⟨c.filter, false⟩ := by
  obtain ⟨f, priv⟩ := c
  cases priv with
  | none =>
    have hq : f.requestQueue = [] := by simpa [urb] using h
    simp [run, Filter.produce, hq]
  | some r => simp [urb] at h

theorem run_of_urb (h : c.urb = some r) :
    c.run cfg = c.filter.produceUrb cfg r c.priv.isNone := by
  obtain ⟨f, priv⟩ := c
  cases priv with
  | none =>
    obtain ⟨rest, hq⟩ := List.head?_eq_some_iff.mp (by simpa [urb] using h)
    simp [run, Filter.produce, hq]
  | some r' =>
    obtain rfl : r' = r := by simpa [urb] using h
    rfl

/-- A request that the call finds on `request_queue`. -/
theorem pending (h : c.urb = some r) : c.filter.Pending r c.priv.isNone := by
  intro hp
  have hnone : c.priv = none := by simpa using hp
  unfold urb at h
  rw [hnone, Option.none_or] at h
  exact (List.head?_eq_some_iff.mp h)

/-- The filter is sound, or it is `ptp_data_complete` that passes its URB on. -/
def Ready (c : ProduceCall) : Prop :=
  c.filter.Sound ∧ c.priv ≠ some .selfData ∨ c.filter.Receiving ∧ c.priv = some .selfData

theorem Ready.sound (h : c.Ready) {r : Request} (hr : r ≠ .selfData) (hu : c.urb = some r) :
    c.filter.Sound := by
  rcases h with ⟨hs, -⟩ | ⟨-, hpriv⟩
  · exact hs
  · unfold urb at hu
    rw [hpriv, Option.some_or] at hu
    exact absurd (Option.some.inj hu).symm hr

/-- A receive URB has waited, or it has just come back. -/
theorem Ready.data (h : c.Ready) (hu : c.urb = some .selfData) :
    (c.filter.Sound ∧ ∃ rest, c.filter.requestQueue = .selfData :: rest) ∨
      c.filter.Receiving := by
  rcases h with ⟨hs, hpriv⟩ | ⟨hr, -⟩
  · have hnone : c.priv = none := by
      cases hp : c.priv with
      | none => rfl
      | some r =>
        unfold urb at hu
        rw [hp, Option.some_or] at hu
        exact absurd (hp.trans hu) hpriv
    exact .inl ⟨hs, pending hu (by rw [hnone]; rfl)⟩
  · exact .inr hr

end ProduceCall

namespace Filter

variable {cfg : Config} {f : Filter} {c : ProduceCall} {offset : ℤ} {data : List Byte}
variable {ok rcOk : Bool}

/-- The call in `ptp_data_complete`, with the transfer counted. -/
def receivedCall (cfg : Config) (f : Filter) (rcOk : Bool) : ProduceCall :=
  if f.frameRxLength = 0 ∧ f.frameRxPduEnd then ⟨f.frameDone cfg rcOk, none⟩
  else ⟨f, some .selfData⟩

theorem received_eq : f.received cfg rcOk = (f.receivedCall cfg rcOk).run cfg := by
  unfold received receivedCall
  split
  · rfl
  · rfl

/-- The call in `ptp_data_complete`, unless it gives up. -/
def dataCall (cfg : Config) (f : Filter) (offset : ℤ) (data : List Byte) (ok rcOk : Bool) :
    Option ProduceCall :=
  if ¬ ok ∨ (f.state ≠ .busy ∧ f.state ≠ .drop) then none
  else if f.RxInvalid data then none
  else some ((f.receive offset data).receivedCall cfg rcOk)

theorem dataComplete_of_dataCall (h : f.dataCall cfg offset data ok rcOk = some c) :
    f.dataComplete cfg offset data ok rcOk = .inr (c.run cfg) := by
  unfold dataCall at h
  split_ifs at h with hstate hvalid
  unfold dataComplete
  rw [if_neg hstate, if_neg hvalid, received_eq, Option.some.inj h]

theorem dataComplete_of_dataCall_none (h : f.dataCall cfg offset data ok rcOk = none) :
    f.dataComplete cfg offset data ok rcOk = .inl f.bypass4 ∨
      f.dataComplete cfg offset data ok rcOk = .inl (f.refused data).bypass4 := by
  unfold dataCall at h
  unfold dataComplete
  split_ifs at h with hstate hvalid
  · exact .inl (if_pos hstate)
  · rw [if_neg hstate, if_pos hvalid]
    exact .inr rfl

theorem dataCall_eq (h : f.dataCall cfg offset data ok rcOk = some c) : ok = true ∧
    (f.state = .busy ∨ f.state = .drop) ∧ ¬ f.RxInvalid data ∧
    c = (f.receive offset data).receivedCall cfg rcOk := by
  unfold dataCall at h
  split_ifs at h with hstate hvalid
  rw [not_or, not_not, not_and_or, not_not, not_not] at hstate
  exact ⟨hstate.1, hstate.2, hvalid, (Option.some.inj h).symm⟩

/-- The call in `ptp_timer`. -/
def timerCall (f : Filter) : Option ProduceCall :=
  if ¬ f.state.Filtering ∨ f.state = .drop ∨ f.state = .sleep ∨ f.state = .sleepWait then none
  else
    match f.freeUrbs with
    | 0 => none
    | n + 1 => some ⟨{ f with freeUrbs := n }, some .selfCmd⟩

theorem timer_of_timerCall (h : f.timerCall = some c) :
    f.timer cfg = (c.run cfg).filter := by
  unfold timerCall at h
  unfold timer
  split at h
  · simp at h
  next hstate =>
    rw [if_neg hstate]
    cases hfree : f.freeUrbs with
    | zero => simp [hfree] at h
    | succ n =>
      simp only [hfree] at h
      obtain rfl := Option.some.inj h
      rfl

theorem timer_of_timerCall_none (h : f.timerCall = none) : f.timer cfg = f := by
  unfold timerCall at h
  unfold timer
  split
  · rfl
  next hstate =>
    rw [if_neg hstate] at h
    split
    · rfl
    next n hfree => simp [hfree] at h

theorem timerCall_eq (h : f.timerCall = some c) :
    ∃ n, c = ⟨{ f with freeUrbs := n }, some .selfCmd⟩ := by
  unfold timerCall at h
  split at h
  · simp at h
  · split at h
    · simp at h
    · exact ⟨_, (Option.some.inj h).symm⟩

/-- A pass copies `n` bytes of the container at the tail. -/
structure Serving (f : Filter) (n : ℕ) : Prop where
  sound : f.Sound
  filtering : f.state.Filtering
  pos : 0 < n
  le_length : n ≤ f.frameLength
  le_count : (n : ℤ) ≤ f.toEndCount
  stops : f.frameTail + n = f.frameBufferSize → f.level ≠ f.frameBufferSize

theorem Serving.advance {n : ℕ} (h : f.Serving n) : (f.advance n).Sound :=
  h.sound.advance h.filtering h.pos h.le_length h.le_count h.stops

theorem Sound.serving (h : f.Sound) (hf : f.state.Filtering) {actual room : ℕ}
    (hfits : f.PassFits room) {f' : Filter} (hgo : f.beginContainer actual = .go f')
    (h0 : f'.copyLength room ≠ 0) : f'.Serving (f'.copyLength room) := by
  have hbegin := h.beginContainer hf hfits.1 actual
  rw [hgo] at hbegin
  obtain ⟨hs, hlength, hthere, heq, hlevel⟩ := hbegin
  have hstate : f'.state.Filtering := by
    rw [heq]
    exact hf
  have htail : f'.frameTail = f.frameTail := by rw [heq]
  have hsize : f'.frameBufferSize = f.frameBufferSize := by rw [heq]
  obtain ⟨hroom, hcount, hlen⟩ := copyLength_le (hs.headIn hstate) hs.size_le room
  refine ⟨hs, hstate, Nat.pos_of_ne_zero h0, hlen, hcount, fun hend hl => ?_⟩
  have := hfits.2 (by rw [← hlevel, hl, hsize]) hthere
  rw [← hlength] at this
  rw [htail, hsize] at hend
  omega

end Filter

namespace System

variable {cfg : Config} {s s' : System} {call : ProduceCall}

/-- The call at the end of a pass of `ptp_consume_` that leaves the client's URB where it is. -/
def passCall (s : System) (c : Consumer) : Option ProduceCall :=
  if ¬ s.filter.state.Filtering then none
  else
    match c.priv.or s.filter.clientQueue.head? with
    | none => none
    | some u =>
      match s.filter.beginContainer (s.copied u).length with
      | .go f =>
        let n := f.copyLength (s.size u - (s.copied u).length)
        if n = 0 ∨ (f.advance n).frameLength = 0 ∨ (s.copied u).length + n = s.size u then none
        else some ⟨f.advance n, none⟩
      | _ => none

/-- The call of `ptp_produce_` in a step, if there is one. -/
def producing (cfg : Config) (s : System) : Act → Option ProduceCall
  | .readUrb _ =>
    if s.filter.frameServing then none
    else if s.filter.state.Filtering then some ⟨s.filter, some .clientIn⟩
    else none
  | .timer => s.filter.timerCall
  | .dataComplete i data ok rcOk =>
    match s.filter.busyQueue[i]? with
    | some (.data offset _) =>
      ((s.filter.complete i).written offset data).dataCall cfg offset data ok rcOk
    | _ => none
  | .onTxProduce => some ⟨s.filter, none⟩
  | .resume i =>
    match s.suspended[i]? with
    | some (.completed _) => some ⟨s.filter, none⟩
    | _ => none
  | .pass => s.holder.bind s.passCall
  | _ => none

theorem go_of_passCall {c : Consumer} (h : s.passCall c = some call) :
    ∃ u f, s.filter.state.Filtering ∧ c.priv.or s.filter.clientQueue.head? = some u ∧
      s.filter.beginContainer (s.copied u).length = .go f ∧
      f.copyLength (s.size u - (s.copied u).length) ≠ 0 ∧
      call = ⟨f.advance (f.copyLength (s.size u - (s.copied u).length)), none⟩ := by
  unfold passCall at h
  split at h
  · simp at h
  rename_i hst
  split at h
  · simp at h
  rename_i u hu
  split at h
  · rename_i f hgo
    dsimp only at h
    split_ifs at h with hdone
    exact ⟨u, f, not_not.mp hst, hu, hgo, (not_or.mp hdone).1, (Option.some.inj h).symm⟩
  · simp at h

theorem filter_pass {c : Consumer} (h : s.passCall c = some call) :
    (s.pass cfg c).filter = (call.run cfg).filter := by
  unfold passCall at h
  unfold pass
  split at h
  · simp at h
  rename_i hst
  rw [if_neg hst]
  split at h
  · simp at h
  rename_i u hu
  simp only [hu]
  revert h
  cases s.filter.beginContainer (s.copied u).length with
  | stop f => simp
  | bypass f => simp
  | go f =>
    intro h
    dsimp only at h ⊢
    split_ifs at h with hdone
    obtain rfl := Option.some.inj h
    obtain ⟨h0, hrest⟩ := not_or.mp hdone
    rw [if_neg h0]
    have hlength : ∀ n, (Function.update s.copied u
        (s.copied u ++ RecordRing.readMem f.frameBuffer f.frameTail n) u).length =
          (s.copied u).length + n := fun n => by
      rw [Function.update_self, List.length_append, RecordRing.length_readMem]
    unfold serve
    simp only [hlength]
    rw [if_neg hrest, filter_produced]
    rfl

/-- How a pass of `ptp_consume_` ends without a call of `ptp_produce_`. -/
inductive PassEnd (s : System) (c : Consumer) : Filter → Prop
  /-- there is no stream -/
  | stopped (hst : ¬ s.filter.state.Filtering) : PassEnd s c s.filter.stopServing
  /-- no read waits -/
  | idle : PassEnd s c s.filter
  /-- nothing can be copied to the read `u` -/
  | left {u : ℕ} {f : Filter} (hst : s.filter.state.Filtering)
      (hu : c.priv.or s.filter.clientQueue.head? = some u)
      (hf : s.filter.beginContainer (s.copied u).length = .stop f ∨
        s.filter.beginContainer (s.copied u).length = .go f) (reads : List ℕ) :
      PassEnd s c { f with clientQueue := reads }
  /-- the container is not understood -/
  | gaveUp {u : ℕ} {f : Filter} (hst : s.filter.state.Filtering)
      (hu : c.priv.or s.filter.clientQueue.head? = some u)
      (hf : s.filter.beginContainer (s.copied u).length = .bypass f) :
      PassEnd s c (f.changeState .bypassed)
  /-- the read `u` is completed -/
  | filled {u : ℕ} {f : Filter} (hst : s.filter.state.Filtering)
      (hu : c.priv.or s.filter.clientQueue.head? = some u)
      (hf : s.filter.beginContainer (s.copied u).length = .go f)
      (h0 : f.copyLength (s.size u - (s.copied u).length) ≠ 0) (reads : List ℕ) :
      PassEnd s c { f.advance (f.copyLength (s.size u - (s.copied u).length)) with
        clientQueue := reads }

theorem leave_eq (f : Filter) (c : Consumer) :
    ∃ reads, (s.leave f c).filter = { f with clientQueue := reads } := by
  unfold leave
  dsimp only
  split
  · exact ⟨_, rfl⟩
  · exact ⟨f.clientQueue, rfl⟩

theorem passEnd {c : Consumer} (h : s.passCall c = none) : s.PassEnd c (s.pass cfg c).filter := by
  unfold passCall at h
  unfold pass
  split
  next hst => exact .stopped hst
  next hst =>
    rw [if_neg hst] at h
    rw [not_not] at hst
    split
    next => exact .idle
    next u hu =>
      simp only [hu] at h
      have hleft : ∀ f, (s.filter.beginContainer (s.copied u).length = .stop f ∨
          s.filter.beginContainer (s.copied u).length = .go f) → ∀ d : Consumer,
          s.PassEnd c (s.leave f d).filter := by
        intro f hf d
        obtain ⟨reads, heq⟩ := s.leave_eq f d
        rw [heq]
        exact .left hst hu hf reads
      cases hbegin : s.filter.beginContainer (s.copied u).length with
      | stop f => exact hleft f (.inl hbegin) _
      | bypass f => exact .gaveUp hst hu hbegin
      | go f =>
        simp only [hbegin] at h
        dsimp only
        split
        next => exact hleft f (.inr hbegin) _
        next h0 =>
          have hfilled := fun reads => PassEnd.filled hst hu hbegin h0 reads
          have hlength : (Function.update s.copied u (s.copied u ++ RecordRing.readMem
              f.frameBuffer f.frameTail (f.copyLength (s.size u - (s.copied u).length)))
              u).length = (s.copied u).length +
                f.copyLength (s.size u - (s.copied u).length) := by
            rw [Function.update_self, List.length_append, RecordRing.length_readMem]
          have hdone := (Ne.ite_eq_left_iff (Option.some_ne_none _).symm).mp h
          unfold serve
          dsimp only
          rw [hlength, if_pos (hdone.resolve_left h0)]
          dsimp only
          split
          · exact hfilled _
          · exact hfilled f.clientQueue

/-- **A step leaves what its call of `ptp_produce_` leaves.** -/
theorem filter_of_producing {a : Act} (hs : s.step cfg a = some s')
    (h : s.producing cfg a = some call) : s'.filter = (call.run cfg).filter := by
  obtain ⟨c, hholder, rfl, rfl⟩ | ⟨-, hmoves⟩ := step_cases hs
  · exact filter_pass (by simpa [producing, hholder] using h)
  cases a with
  | readUrb n =>
    obtain ⟨-, -, rfl⟩ := hmoves
    unfold producing at h
    unfold readUrb
    split_ifs at h with hserving hst
    obtain rfl := Option.some.inj h
    dsimp only
    rw [if_neg hserving, if_pos hst]
    rfl
  | timer =>
    obtain rfl := hmoves
    exact Filter.timer_of_timerCall h
  | dataComplete i data ok rcOk =>
    obtain ⟨offset, length, ht, -, hs'⟩ := hmoves
    unfold producing at h
    simp only [ht] at h
    rw [Filter.dataComplete_of_dataCall h] at hs'
    rw [hs', filter_produced]
  | onTxProduce =>
    obtain rfl := hmoves
    obtain rfl := Option.some.inj h
    rfl
  | resume i =>
    obtain ⟨x, hx, rfl⟩ := hmoves
    unfold producing at h
    simp only [hx] at h
    cases x with
    | completed c =>
      obtain rfl := Option.some.inj h
      exact filter_produced _ _
    | again c => simp at h
    | onTx read => simp at h
  | pass => exact hmoves.elim
  | _ => simp [producing] at h

/-- What a step leaves that does not call `ptp_produce_`. -/
inductive StepEnd (cfg : Config) (s : System) : Act → Filter → Prop
  | same (a : Act) : StepEnd cfg s a s.filter
  | preview : StepEnd cfg s .preview s.filter.preview
  | command : StepEnd cfg s .command s.filter.command
  | newSession : StepEnd cfg s .newSession (s.filter.changeState .idle)
  | bypass : StepEnd cfg s .bypass (s.filter.changeState .bypassed)
  | cmdComplete {i : ℕ} (ht : s.filter.busyQueue[i]? = some .cmd) (ok : Bool) :
      StepEnd cfg s (.cmdComplete i ok) ((s.filter.complete i).cmdComplete cfg ok)
  /-- `ptp_data_complete` gives up -/
  | failed {i : ℕ} {offset length : ℤ} {data : List Byte}
      (ht : s.filter.busyQueue[i]? = some (.data offset length)) (hlen : data.length ≤ length)
      (ok rcOk : Bool) : StepEnd cfg s (.dataComplete i data ok rcOk)
        ((s.filter.complete i).written offset data).bypass4
  /-- it has looked at a container header -/
  | refused {i : ℕ} {offset length : ℤ} {data : List Byte}
      (ht : s.filter.busyQueue[i]? = some (.data offset length)) (hlen : data.length ≤ length)
      (ok rcOk : Bool) : StepEnd cfg s (.dataComplete i data ok rcOk)
        (((s.filter.complete i).written offset data).refused data).bypass4
  | onTx {i : ℕ} {read : FilterState} (hx : s.suspended[i]? = some (.onTx read)) :
      StepEnd cfg s (.resume i) (s.filter.changeState read.afterResponse)
  | pass {c : Consumer} {f : Filter} (hholder : s.holder = some c) (hf : s.PassEnd c f) :
      StepEnd cfg s .pass f

theorem stepEnd {a : Act} (hs : s.step cfg a = some s') (hp : s.producing cfg a = none) :
    s.StepEnd cfg a s'.filter := by
  obtain ⟨c, hholder, rfl, rfl⟩ | ⟨-, hmoves⟩ := step_cases hs
  · have hp : s.passCall c = none := by simpa [producing, hholder] using hp
    exact .pass hholder (passEnd hp)
  cases a with
  | readUrb n =>
    obtain ⟨-, -, rfl⟩ := hmoves
    unfold producing at hp
    unfold readUrb
    split_ifs at hp with hserving hst
    · dsimp only
      rw [if_pos hserving]
      exact .same _
    · dsimp only
      rw [if_neg hserving, if_neg hst]
      exact .same _
  | preview =>
    obtain ⟨-, rfl⟩ := hmoves
    exact .preview
  | command =>
    obtain ⟨-, rfl⟩ := hmoves
    exact .command
  | newSession =>
    obtain ⟨-, rfl⟩ := hmoves
    exact .newSession
  | bypass =>
    obtain rfl := hmoves
    exact .bypass
  | timer =>
    obtain rfl := hmoves
    have hsame : s.filter.timer cfg = s.filter := Filter.timer_of_timerCall_none hp
    dsimp only
    rw [hsame]
    exact .same _
  | cmdComplete i ok =>
    obtain ⟨ht, rfl⟩ := hmoves
    exact .cmdComplete ht ok
  | dataComplete i data ok rcOk =>
    obtain ⟨offset, length, ht, hlen, hs'⟩ := hmoves
    unfold producing at hp
    simp only [ht] at hp
    rcases Filter.dataComplete_of_dataCall_none hp with hfailed | hrefused
    · rw [hfailed] at hs'
      obtain rfl := hs'
      exact .failed ht hlen ok rcOk
    · rw [hrefused] at hs'
      obtain rfl := hs'
      exact .refused ht hlen ok rcOk
  | onTxState =>
    obtain ⟨-, rfl⟩ := hmoves
    exact .same _
  | onTxProduce => simp [producing] at hp
  | resume i =>
    obtain ⟨x, hx, rfl⟩ := hmoves
    unfold producing at hp
    simp only [hx] at hp
    cases x with
    | again c => exact .same _
    | completed c => simp at hp
    | onTx read => exact .onTx hx
  | pass => exact hmoves.elim

/-- The filter that a call starts from in a run that meets `Fits`. -/
theorem ready_of_producing {a : Act} (h : s.filter.Sound) (hfits : s.Fits a)
    (hs : s.step cfg a = some s') (hp : s.producing cfg a = some call) : call.Ready := by
  obtain ⟨c, hholder, rfl, rfl⟩ | ⟨-, hmoves⟩ := step_cases hs
  · have hp : s.passCall c = some call := by simpa [producing, hholder] using hp
    obtain ⟨u, f, hst, hu, hgo, h0, rfl⟩ := go_of_passCall hp
    exact .inl ⟨(h.serving hst (hfits c u hholder hu hst) hgo h0).advance, nofun⟩
  cases a with
  | readUrb n =>
    unfold producing at hp
    split_ifs at hp
    obtain rfl := Option.some.inj hp
    exact .inl ⟨h, nofun⟩
  | timer =>
    obtain ⟨n, rfl⟩ := Filter.timerCall_eq hp
    exact .inl ⟨h.frame _ _ _ _ _ _ _ _ _, nofun⟩
  | dataComplete i data ok rcOk =>
    obtain ⟨offset, length, ht, hlen, -⟩ := hmoves
    unfold producing at hp
    simp only [ht] at hp
    obtain ⟨hok, hstate, hvalid, rfl⟩ := Filter.dataCall_eq hp
    have hreceived := (h.arrived ht hlen).receive hvalid hstate (hfits hok)
    unfold Filter.receivedCall
    split
    next hdone => exact .inl ⟨hreceived.frameDone hdone.1 rcOk, nofun⟩
    next => exact .inr ⟨hreceived, rfl⟩
  | onTxProduce =>
    obtain rfl := Option.some.inj hp
    exact .inl ⟨h, nofun⟩
  | resume i =>
    obtain ⟨x, hx, -⟩ := hmoves
    unfold producing at hp
    simp only [hx] at hp
    cases x with
    | completed c =>
      obtain rfl := Option.some.inj hp
      exact .inl ⟨h, nofun⟩
    | again c => simp at hp
    | onTx read => simp at hp
  | pass => exact hmoves.elim
  | _ => simp [producing] at hp

end System

end Usbip.Ptp
