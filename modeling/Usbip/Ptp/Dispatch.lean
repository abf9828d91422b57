import Usbip.Ptp.LockDiscipline

/-!
# Who holds `ud->filter_lock`

`usbip_filter_on_rx` and `usbip_filter_on_tx` hold `ud->filter_lock` while they call the hooks of
a filter. `stub_complete` calls `usbip_filter_on_tx`, so a hook that completes a URB of the client
comes back to the lock that its caller holds.

Two functions complete a URB of the client: `ptp_on_rx`, at a preview command that the filter
answers itself, and `ptp_consume_`, when it has filled a URB or come to the end of a container.
Both happen in the dispatch of a received URB. `dispatch_not_reentered` says that the lock is
taken once as long as neither happens, and that the first of them leads to the second acquisition;
`onTx_not_reentered` that nothing of the kind happens in the dispatch of a completed URB.
-/

namespace Usbip.Ptp

open CallChain RecordRing

/-- What a call leaves of `ud->filter_lock`, in a chain that begins with the dispatch: the
dispatch and its callers find it free, everything else is done under it. -/
def dispatchConv (t : Call) (held : Bool) : Option Bool :=
  match t with
  | .usbipFilterOnRx _ | .usbipFilterOnTx _ | .completeUrb _ | .stubComplete _ | .completed =>
    if held then none else some false
  | _ => if held then some true else none

/-! ### Completing a URB of the client -/

/-- The chain is not about to complete a URB of the client. -/
def answersNoUrb (s : FilterChain) : CallChain.Act Shared Choice → Bool
  | .meddle _ => true
  | .step _ =>
    match s.todo.head? with
    | some (.call (.onRxCommand urb)) => !s.shared.answersCommand urb
    | some (.call (.consume priv _)) => !s.shared.fillsUrb priv
    | _ => true

/-- A pass that fills a URB completes it. -/
theorem consume_of_fillsUrb {x : Shared} {priv : Option ℕ} (h : x.fillsUrb priv = true)
    (pending : Bool) :
    ∃ urb rest, (x.consume priv pending).2 =
      .release .lock :: .call (.completeUrb urb) :: rest := by
  obtain ⟨hstate, hany⟩ := (Bool.and_eq_true _ _).mp h
  obtain ⟨u, hu, hfills⟩ := (Option.any_eq_true _ _).mp hany
  simp only [Bool.and_eq_true, Bool.or_eq_true, decide_eq_true_eq] at hfills
  obtain ⟨⟨hcontainer, hn⟩, hdone⟩ := hfills
  obtain ⟨f, hf⟩ := exists_go hcontainer
  obtain ⟨hleft, hcount, -⟩ := beginContainer_go hf
  rw [← hleft, ← hcount] at hn hdone
  have hn : f.copyLength (x.size u - (x.copied u).length) ≠ 0 := hn
  simp only [Shared.consume, of_decide_eq_true hstate, not_true, if_false, hu, hf]
  rw [if_neg hn]
  obtain ⟨urb, hops⟩ := x.serve_full (pending || priv.isNone) hdone (Nat.min_le_right _ _)
  exact ⟨urb, _, hops⟩

/-- A command that the filter answers is completed by it. -/
theorem onRxCommand_of_answers {x : Shared} {urb : Urb} (h : x.answersCommand urb = true)
    (early : Bool) :
    ∃ rest, (x.onRxCommand urb early).2 =
      .release .lock :: .call (.completeUrb { urb with ok := true }) :: rest := by
  obtain ⟨hpreview, htakes⟩ := (Bool.and_eq_true _ _).mp h
  rw [Shared.onRxCommand, of_decide_eq_true hpreview]
  dsimp only
  rw [Shared.previewOps, if_pos (of_decide_eq_true htakes)]
  exact ⟨_, rfl⟩

/-! ### The bodies -/

/-- `ptp_parse` does not touch `ud->filter_lock`. -/
theorem ParserOps.dispatch_append {changes : Bool} {ops : List FilterOp}
    (h : ParserOps changes ops) (held : Bool) (rest : List FilterOp) :
    after dispatchConv .filterLock held (ops ++ rest) =
      after dispatchConv .filterLock held rest := by
  rw [CallChain.after_append, after_other (k := .lock) (by decide) h.locks]
  rfl

/-- What `dispatchConv` says of a call that is made as it should be. -/
theorem dispatchConv_eq {t : Call} {held held' : Bool} (h : dispatchConv t held = some held') :
    held' = held := by
  unfold dispatchConv at h
  split at h <;> split_ifs at h with hheld <;> simpa [hheld] using h.symm

/-- **Every function keeps its convention** as long as no URB of the client is completed. -/
theorem body_dispatch {cfg : Config} {s : FilterChain} {c : Choice} {t : Call}
    {r : Shared × List FilterOp} {held : Bool} (hok : answersNoUrb s (.step c) = true)
    (htodo : s.todo.head? = some (.call t)) (hbody : t.body cfg s.shared c = some r)
    (hconv : dispatchConv t held = some held) :
    after dispatchConv .filterLock held r.2 = some held := by
  simp only [answersNoUrb, htodo] at hok
  have hdoes := body_does hbody
  generalize r.2 = ops at hdoes ⊢
  cases hdoes with
  | returns h | unlocks h | changesState h =>
    cases t <;> cases h <;> cases held <;> first | rfl | cases hconv
  | outside ht h =>
    rw [h.dispatch_append]
    cases t <;> cases ht <;> cases held <;> first | rfl | cases hconv
  | ptpOnRxOutside urb h | ptpOnRxParsed urb urb' h | ptpOnTxParsed urb done h
  | ptpDataCompleteParsed i offset data ok h =>
    rw [h.dispatch_append]
    cases held <;> first | rfl | cases hconv
  | parseSend h =>
    have hafter := h.dispatch_append held []
    rw [List.append_nil] at hafter
    exact hafter
  | onRxCommandAnswered urb h | onRxCommandStarted urb h | consumeFilled h =>
    -- the condition excludes just these
    simp [h] at hok
  | _ => cases held <;> first | rfl | cases hconv

/-! ### The dispatch -/

/-- A function that is called under the lock completes a URB of the client. -/
theorem leads_of_completeUrb {cfg : Config} {s s' : FilterChain} {c : Choice} {t : Call}
    {r : Shared × List FilterOp} {urb : Urb} {rest rest' : List FilterOp}
    (hdepth : s.depth .filterLock = 1) (htodo : s.todo = .call t :: rest)
    (hbody : t.body cfg s.shared c = some r)
    (hops : r.2 = .release .lock :: .call (.completeUrb urb) :: rest')
    (hs : s.next (filterProgram cfg) c = some s') :
    ∃ s'', Leads (filterProgram cfg) s' s'' ∧ s''.depth .filterLock = 2 := by
  have hnext := next_call (P := filterProgram cfg) htodo hbody
  obtain rfl := Option.some.inj (hnext.symm.trans hs)
  have htodo' : r.2 ++ rest = .release .lock :: .call (.completeUrb urb) :: (rest' ++ rest) := by
    rw [hops]
    rfl
  -- the handler calls `usbip_filter_on_tx`
  refine ⟨_, .head (fun a => next_release htodo' a) (.head (fun a => next_call rfl rfl)
    (.head (fun a => next_call rfl rfl) (.head (fun a => next_call rfl rfl)
      (.single fun a => next_acquire rfl a)))), ?_⟩
  simp [hdepth]

/-- The two directions of the dispatch. -/
inductive Dispatch
  | usbipFilterOnRx (urb : Urb)
  | usbipFilterOnTx (urb : Urb)
  deriving DecidableEq

/-- The call. -/
def Dispatch.call : Dispatch → Call
  | usbipFilterOnRx urb => .usbipFilterOnRx urb
  | usbipFilterOnTx urb => .usbipFilterOnTx urb

/-- The lock is held as it should be as long as no URB of the client has been completed. -/
theorem dispatch_inOrder {cfg : Config} {x : Shared} {entry : Dispatch} {s : FilterChain}
    (h : (filterChain cfg x entry.call).ReachableWhere (fun s a => answersNoUrb s a = true) s) :
    ∃ held, InOrder dispatchConv .filterLock s held := by
  refine h.invariant (I := fun s => ∃ held, InOrder dispatchConv .filterLock s held)
    ⟨false, InOrder.init x (by cases entry <;> rfl)⟩ ?_
  rintro s a s' ⟨held, hs⟩ hok hstep
  refine hs.step ?_ hstep
  rintro c t y ops held' rfl htodo hbody hconv
  obtain rfl := dispatchConv_eq hconv
  exact body_dispatch hok htodo hbody hconv

/-- **The dispatch is not reentered**, from any state of the filter and with any URB, as long as
no URB of the client is completed in it; and the first one that is leads to the second acquisition
of `ud->filter_lock`. -/
theorem dispatch_not_reentered {cfg : Config} {x : Shared} {entry : Dispatch} {s : FilterChain}
    (h : (filterChain cfg x entry.call).ReachableWhere (fun s a => answersNoUrb s a = true) s) :
    s.depth .filterLock ≤ 1 ∧ ∀ a s', CallChain.step (filterProgram cfg) s a = some s' →
      answersNoUrb s a = false →
      ∃ s'', Leads (filterProgram cfg) s' s'' ∧ s''.depth .filterLock = 2 := by
  obtain ⟨held, hinOrder⟩ := dispatch_inOrder h
  refine ⟨hinOrder.depth_le_one, fun a s' hs hanswers => ?_⟩
  cases a with
  | meddle y => cases hanswers
  | step c =>
    have hdepth := hinOrder.depth
    unfold answersNoUrb at hanswers
    dsimp only at hanswers
    split at hanswers
    next urb hhead =>
      obtain ⟨rest, htodo⟩ := List.head?_eq_some_iff.mp hhead
      -- the hook is called under the lock
      obtain rfl : held = true := hinOrder.held_of_call htodo rfl
      obtain ⟨rest', hops⟩ := onRxCommand_of_answers (by simpa using hanswers) c.early
      exact leads_of_completeUrb hdepth htodo rfl hops hs
    next priv pending hhead =>
      obtain ⟨rest, htodo⟩ := List.head?_eq_some_iff.mp hhead
      obtain rfl : held = true := hinOrder.held_of_call htodo rfl
      obtain ⟨urb, rest', hops⟩ := consume_of_fillsUrb (by simpa using hanswers) pending
      exact leads_of_completeUrb hdepth htodo rfl hops hs
    · cases hanswers

/-! ### The dispatch of a completed URB -/

/-- The functions below `usbip_filter_on_tx`. -/
def Call.belowOnTx : Call → Bool
  | .usbipFilterOnTx _ | .ptpOnTx _ | .onTxParsed _ _ | .changeState _ | .produce _ | .parseSend
  | .stubSubmitUrb | .fault => true
  | _ => false

/-- All calls that are left to do are below `usbip_filter_on_tx`. -/
def BelowOnTx (ops : List FilterOp) : Prop := ∀ t, .call t ∈ ops → t.belowOnTx = true

theorem BelowOnTx.append {ops rest : List FilterOp} (h : BelowOnTx ops) (hrest : BelowOnTx rest) :
    BelowOnTx (ops ++ rest) :=
  fun t ht => (List.mem_append.mp ht).elim (h t) (hrest t)

/-- `ptp_parse` calls nothing. -/
theorem ParserOps.belowOnTx {changes : Bool} {ops : List FilterOp} (h : ParserOps changes ops) :
    BelowOnTx ops := by
  intro t ht
  rcases h.locks _ ht with heq | heq
  · cases heq
  · cases heq

theorem body_belowOnTx {cfg : Config} {x : Shared} {c : Choice} {t : Call}
    {r : Shared × List FilterOp} (ht : t.belowOnTx = true) (hbody : t.body cfg x c = some r) :
    BelowOnTx r.2 := by
  have hdoes := body_does hbody
  generalize r.2 = ops at hdoes ⊢
  cases hdoes with
  | outside _ h => exact h.belowOnTx.append (by simp [BelowOnTx, Call.belowOnTx])
  | ptpOnTxParsed urb done h => exact h.belowOnTx.append (by simp [BelowOnTx, Call.belowOnTx])
  | parseSend h => exact h.belowOnTx
  | returns _ | unlocks _ => simp [BelowOnTx]
  | changesState _ | usbipFilterOnTx _ | onTxParsed _ _ | onTxParsedChanged _ _ _
  | produceOut _ | produceIn _ => simp [BelowOnTx, Shared.changeStateOps, Call.belowOnTx]
  | _ => cases ht

/-- The dispatch of a completed URB takes the lock once, with no condition. -/
theorem onTx_not_reentered {cfg : Config} {x : Shared} {urb : Urb} {s : FilterChain}
    (h : (filterChain cfg x (.usbipFilterOnTx urb)).Reachable s) : s.depth .filterLock ≤ 1 := by
  have hbelow : ∀ {s}, (filterChain cfg x (.usbipFilterOnTx urb)).Reachable s →
      BelowOnTx s.todo := by
    intro s hs
    refine hs.invariant (I := fun s => BelowOnTx s.todo) ?_ fun s a s' h _ hstep => ?_
    · intro t ht
      obtain rfl : t = .usbipFilterOnTx urb := by simpa [filterChain, CallChain.machine] using ht
      rfl
    · refine step_todo (fun op rest hrest t ht => hrest t (List.mem_cons_of_mem _ ht))
        (fun c t y ops rest hbody hrest => ?_) h hstep
      exact (body_belowOnTx (hrest t List.mem_cons_self) hbody).append
        fun u hu => hrest u (List.mem_cons_of_mem _ hu)
  have hanswers : (filterChain cfg x (Dispatch.usbipFilterOnTx urb).call).ReachableWhere
      (fun s a => answersNoUrb s a = true) s := by
    induction h with
    | init => exact .init
    | @next s s' a hr _ hs ih =>
      refine .next ih ?_ hs
      -- neither of the two functions is below `usbip_filter_on_tx`
      cases a with
      | meddle y => rfl
      | step c =>
        unfold answersNoUrb
        dsimp only
        split
        next u hhead => exact Bool.noConfusion (hbelow hr _ (List.mem_of_mem_head? hhead))
        next p q hhead => exact Bool.noConfusion (hbelow hr _ (List.mem_of_mem_head? hhead))
        · rfl
  obtain ⟨held, hinOrder⟩ := dispatch_inOrder hanswers
  exact hinOrder.depth_le_one

/-! ### Runs -/

theorem dispatch_not_reentered_read :
    ∃ s, (filterChain fullSpeed (.streaming false)
          (Dispatch.usbipFilterOnRx clientRead).call).runWhere
        (fun s a => answersNoUrb s a = true)
        (filterChain fullSpeed (.streaming false) (Dispatch.usbipFilterOnRx clientRead).call).init
        (alone 8) = some s ∧
      (s.depth .filterLock ≤ 1 ∧ ∀ a s', CallChain.step (filterProgram fullSpeed) s a = some s' →
        answersNoUrb s a = false →
        ∃ s'', Leads (filterProgram fullSpeed) s' s'' ∧ s''.depth .filterLock = 2) :=
  Machine.exists_runWhere
    (m := filterChain fullSpeed (.streaming false) (Dispatch.usbipFilterOnRx clientRead).call)
    (by decide) fun _ h => dispatch_not_reentered h

/-- The preview command, in one URB. -/
def previewCommand : Urb := ⟨0, true, true, true, [12, 0, 0, 0, 1, 0, 0x53, 0x91, 0, 0, 0, 0]⟩

/-- A frame in the buffer: a response container without parameters. -/
def Shared.frameReady : Shared :=
  { Shared.streaming true with
    filter := { (Shared.streaming true).filter with
      frameBuffer := fun i => if i = 0 then 12 else if i = 4 then 3 else 0 } }

/-- The preview command that starts the stream is completed under `ud->filter_lock`, and so is a
read URB that gets the rest of a frame. -/
theorem dispatch_reentered :
    (∃ s, (filterChain fullSpeed .probed (.usbipFilterOnRx previewCommand)).Reachable s ∧
      s.depth .filterLock = 2) ∧
    ∃ s, (filterChain fullSpeed .frameReady (.usbipFilterOnRx clientRead)).Reachable s ∧
      s.depth .filterLock = 2 := by
  constructor
  · obtain ⟨s, hs, hp⟩ := Machine.exists_reachable_of_any
      (m := filterChain fullSpeed .probed (.usbipFilterOnRx previewCommand)) (alone 11)
      (fun s => s.depth .filterLock == 2) (by decide)
    exact ⟨s, hs, by simpa using hp⟩
  · obtain ⟨s, hs, hp⟩ := Machine.exists_reachable_of_any
      (m := filterChain fullSpeed .frameReady (.usbipFilterOnRx clientRead)) (alone 11)
      (fun s => s.depth .filterLock == 2) (by decide)
    exact ⟨s, hs, by simpa using hp⟩

end Usbip.Ptp
