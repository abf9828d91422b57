import Usbip.Ptp.Bodies

/-!
# Who holds `filter->lock`

Every function of the filter is entered with the lock or without it, and leaves it as it found it
or released (`Call.convention`). Two bodies do not keep their convention: `ptp_parse` returns with
the lock when the client opens or closes a session, and `ptp_consume_` returns without it when it
meets a container that it does not understand.

`lock_discipline` says that a chain is in order as long as neither happens, and that a chain in
which one of them happens gets out of order by itself, unless `ptp_parse` has read outside of the
buffer by then.
-/

namespace Usbip.Ptp

open CallChain

/-! ### Conventions -/

/-- How a function finds `filter->lock` and how it leaves it. -/
inductive Convention
  /-- not held, neither before nor after -/
  | free
  /-- held before and after -/
  | held
  /-- held before, and released by the function -/
  | releases
  /-- the function does not return -/
  | stops
  deriving DecidableEq, Repr

/-- The lock after the call. -/
def Convention.leaves : Convention → Bool → Option Bool
  | .free, false => some false
  | .held, true => some true
  | .releases, true => some false
  | .stops, _ => some false
  | _, _ => none

def Call.convention : Call → Convention
  | .changeState _ | .timerLocked | .dataFailed | .produce _ | .consume _ _ => .held
  | .onRxIn _ | .onRxCommand _ | .cmdCompleteLocked _ | .dataCompleteLocked _ _ => .releases
  | .fault => .stops
  | _ => .free

/-- What a call leaves of `filter->lock`. -/
def lockConv (t : Call) (held : Bool) : Option Bool := t.convention.leaves held

/-- The functions that a chain may call only with `filter->lock` free, as they may come back into
the filter. -/
def Call.callsOut : Call → Bool
  | .stubSubmitUrb | .completeUrb _ | .stubComplete _ => true
  | _ => false

theorem lockConv_callsOut {t : Call} (h : t.callsOut = true) : lockConv t true = none := by
  cases t <;> first | rfl | cases h

/-! ### Where a body keeps its convention -/

/-- The chain is not about to change the session, nor at a container that `ptp_consume_` does not
understand. -/
def keepsLock (s : FilterChain) : CallChain.Act Shared Choice → Bool
  | .meddle _ => true
  | .step _ =>
    match s.todo.head? with
    | some (.call (.ptpOnRx urb)) => !s.shared.changesSession urb
    | some (.call (.consume priv _)) => !s.shared.badContainer priv
    | _ => true

/-- Without a change of the session `ptp_parse` leaves the lock free. -/
theorem ParserOps.after_append {ops : List FilterOp} (h : ParserOps false ops)
    (rest : List FilterOp) :
    after lockConv .lock false (ops ++ rest) = after lockConv .lock false rest := by
  rcases h.quiet rfl with rfl | rfl
  · rfl
  · rfl

/-- What the three conventions of functions that return say of the lock. -/
theorem Convention.leaves_eq {v : Convention} {held held' : Bool}
    (h : v.leaves held = some held') : v = .stops ∨
      (held = decide (v ≠ .free) ∧ held' = decide (v = .held)) := by
  cases v <;> cases held <;> cases h <;> decide

/-- **Every function keeps its convention**, but for the two. -/
theorem body_keeps {cfg : Config} {s : FilterChain} {c : Choice} {t : Call}
    {r : Shared × List FilterOp} {held held' : Bool} (hok : keepsLock s (.step c) = true)
    (htodo : s.todo.head? = some (.call t)) (hbody : t.body cfg s.shared c = some r)
    (hconv : lockConv t held = some held') : after lockConv .lock held r.2 = some held' := by
  simp only [keepsLock, htodo] at hok
  rcases Convention.leaves_eq hconv with hstops | ⟨hheld, hheld'⟩
  · obtain rfl : t = .fault := by
      cases t <;> first | rfl | cases hstops
    cases hbody
  subst hheld
  subst hheld'
  have hdoes := body_does hbody
  generalize r.2 = ops at hdoes ⊢
  cases hdoes with
  | returns h | unlocks h | changesState h => cases t <;> cases h <;> rfl
  | ptpOnRxOutside urb h | ptpOnRxParsed urb urb' h =>
    have hquiet : s.shared.changesSession urb = false := by simpa using hok
    rw [hquiet] at h
    exact h.after_append _
  | outside ht h => cases t <;> cases ht <;> exact h.after_append _
  | ptpOnTxParsed urb done h | ptpDataCompleteParsed i offset data b h => exact h.after_append _
  | parseSend h =>
    have hafter := h.after_append []
    rwa [List.append_nil] at hafter
  | consumeBypassed h pending =>
    -- the condition excludes just this
    simp [h] at hok
  | _ => rfl

/-! ### The discipline -/

/-- **The lock discipline** at one moment of a chain: it has not acquired the lock twice nor
released it twice, has released it if it is at its end, and has released it where it submits a URB
or calls a completion handler. -/
structure Disciplined (s : FilterChain) : Prop where
  not_twice : s.depth .lock ≤ 1
  not_below : 0 ≤ s.depth .lock
  returns_free : s.todo = [] → s.depth .lock = 0
  calls_free : ∀ t, s.todo.head? = some (.call t) → t.callsOut = true → s.depth .lock = 0

/-- A chain in order is disciplined. -/
theorem disciplined_of_inOrder {s : FilterChain} {held : Bool}
    (h : InOrder lockConv .lock s held) : Disciplined s where
  not_twice := h.depth_le_one
  not_below := h.depth_nonneg
  returns_free := h.depth_of_done
  calls_free t ht hout := by
    obtain ⟨rest, htodo⟩ := List.head?_eq_some_iff.mp ht
    exact h.depth_of_call htodo (lockConv_callsOut hout)

/-! ### What stands after a call -/

/-- What the caller does next: `ptp_consume_` is called by functions that release the lock then,
and `ptp_on_rx` is the last call of a chain. -/
def callerNext : FilterOp → List FilterOp → Prop
  | .call (.consume _ _), rest => rest.head? = some (.release .lock)
  | .call (.ptpOnRx _), rest => rest = [] ∨ rest = [.release .filterLock]
  | .call (.usbipFilterOnRx _), rest => rest = []
  | _, _ => True

/-- All calls that are left to do are followed by what their callers do next. -/
def Followed : List FilterOp → Prop
  | [] => True
  | op :: rest => callerNext op rest ∧ Followed rest

theorem followed_append {ops rest : List FilterOp}
    (hops : ∀ op ∈ ops, op = .acquire .lock ∨ op = .release .lock) (h : Followed rest) :
    Followed (ops ++ rest) := by
  induction ops with
  | nil => exact h
  | cons op ops ih =>
    refine ⟨?_, ih fun o ho => hops o (List.mem_cons_of_mem _ ho)⟩
    rcases hops op List.mem_cons_self with rfl | rfl <;> trivial

/-- Every body calls the functions in this way. -/
theorem body_followed {cfg : Config} {x : Shared} {c : Choice} {t : Call}
    {r : Shared × List FilterOp} {rest : List FilterOp} (hbody : t.body cfg x c = some r)
    (hrest : Followed (.call t :: rest)) : Followed (r.2 ++ rest) := by
  obtain ⟨hnext, h⟩ := hrest
  have hdoes := body_does hbody
  generalize r.2 = ops at hdoes ⊢
  cases hdoes with
  | usbipFilterOnRx urb =>
    obtain rfl : rest = [] := hnext
    simp [Followed, callerNext]
  | ptpOnRxOutside urb hops | ptpOnRxParsed urb urb' hops | outside ht hops
  | ptpOnTxParsed urb done hops =>
    rw [List.append_assoc]
    exact followed_append hops.locks ⟨trivial, h⟩
  | ptpDataCompleteParsed i offset data ok hops =>
    rw [List.append_assoc]
    exact followed_append hops.locks ⟨trivial, trivial, h⟩
  | parseSend hops => exact followed_append hops.locks h
  | consumeFilled hfills pending pending' urb =>
    -- the loop goes on in the place of the call
    exact ⟨trivial, trivial, trivial, trivial, hnext, h⟩
  | consumeMore priv pending pending' u => exact ⟨trivial, hnext, h⟩
  | _ => simpa [Followed, callerNext, Shared.changeStateOps] using h

/-! ### A chain gets out of order -/

/-- `ptp_consume_` gives up on such a container. -/
theorem consume_of_badContainer {x : Shared} {priv : Option ℕ} (h : x.badContainer priv = true)
    (pending : Bool) : (x.consume priv pending).2 = [.release .lock] := by
  obtain ⟨hstate, hany⟩ := (Bool.and_eq_true _ _).mp h
  obtain ⟨u, hu, hbad⟩ := (Option.any_eq_true _ _).mp hany
  simp only [Bool.and_eq_true, Bool.or_eq_true, Bool.not_eq_true', decide_eq_true_eq,
    decide_eq_false_iff_not] at hbad
  obtain ⟨⟨⟨hlen, hmark⟩, hend⟩, hbad⟩ := hbad
  have hbegin : ∃ f, x.filter.beginContainer (x.copied u).length = .bypass f := by
    unfold Filter.beginContainer
    rw [if_neg (not_not.mpr hlen), if_neg hmark, if_neg hend]
    by_cases hactual : (x.copied u).length ≠ 0
    · exact ⟨_, if_pos hactual⟩
    · exact ⟨_, (if_neg hactual).trans (if_pos (hbad.resolve_left hactual))⟩
  obtain ⟨f, hf⟩ := hbegin
  simp only [Shared.consume, of_decide_eq_true hstate, not_true, if_false, hu, hf]

/-- The lock is released once more by the caller. -/
theorem leads_of_badContainer {cfg : Config} {s s' : FilterChain} {c : Choice}
    (hdepth : s.depth .lock = 1) (hfollowed : Followed s.todo) {priv : Option ℕ} {pending : Bool}
    {rest : List FilterOp} (htodo : s.todo = .call (.consume priv pending) :: rest)
    (hbad : s.shared.badContainer priv = true)
    (hs : s.next (filterProgram cfg) c = some s') :
    ∃ s'', Leads (filterProgram cfg) s' s'' ∧ ¬ Disciplined s'' := by
  rw [htodo] at hfollowed
  obtain ⟨rest', rfl⟩ := List.head?_eq_some_iff.mp hfollowed.1
  have hnext := next_call (P := filterProgram cfg) htodo (a := c)
    (r := s.shared.consume priv pending) rfl
  rw [consume_of_badContainer hbad] at hnext
  obtain rfl := Option.some.inj (hnext.symm.trans hs)
  refine ⟨_, .head (fun a => next_release rfl a) (.single fun a => next_release rfl a), ?_⟩
  intro hdisc
  have hbelow := hdisc.not_below
  simp [hdepth] at hbelow

/-- The session changes of a call of `ptp_parse` take the lock that often. -/
theorem flatMap_newSession (hs : List BulkHeader) :
    hs.flatMap (newSession .rx) =
      List.replicate (hs.countP BulkHeader.changesSession) (.acquire .lock) := by
  induction hs with
  | nil => rfl
  | cons h hs ih =>
    rw [List.flatMap_cons, ih, List.countP_cons]
    cases hsession : h.changesSession with
    | true => simp [newSession, hsession, List.replicate_succ]
    | false => simp [newSession, hsession]

/-- The lock operations of a call of `ptp_parse` that changes the session begin with one that
takes the lock; if there is another one, it takes the lock again. -/
theorem ParseOps.changes {hs : List BulkHeader} {ops : List FilterOp} (h : ParseOps .rx hs ops)
    (hany : hs.any BulkHeader.changesSession = true) :
    ops = [.acquire .lock] ∨ ∃ l, ops = .acquire .lock :: .acquire .lock :: l := by
  have hpos : 0 < hs.countP BulkHeader.changesSession :=
    List.countP_pos_iff.mpr (List.any_eq_true.mp hany)
  obtain ⟨n, hn⟩ := Nat.exists_eq_succ_of_ne_zero hpos.ne'
  have heq := h.eq
  rw [flatMap_newSession, hn, List.replicate_succ] at heq
  cases n with
  | zero =>
    rcases heq with rfl | rfl
    · exact .inl rfl
    · exact .inr ⟨_, rfl⟩
  | succ n =>
    rw [List.replicate_succ] at heq
    rcases heq with rfl | rfl
    · exact .inr ⟨_, rfl⟩
    · exact .inr ⟨_, rfl⟩

/-- A chain that is about to take a lock that it holds, or is at its end with the lock. -/
theorem not_disciplined_of_depth {s : FilterChain} (h : s.depth .lock = 2) : ¬ Disciplined s := by
  intro hdisc
  have htwice := hdisc.not_twice
  rw [h] at htwice
  exact absurd htwice (by decide)

theorem not_disciplined_at_end {s : FilterChain} (h : s.depth .lock = 1) (hend : s.todo = []) :
    ¬ Disciplined s := by
  intro hdisc
  have hfree := hdisc.returns_free hend
  rw [h] at hfree
  exact absurd hfree (by decide)

/-- The rest of `ptp_on_rx` with the lock held from `ptp_parse`. -/
theorem leads_of_onRxParsed (cfg : Config) {s : FilterChain} {urb : Urb} {rest : List FilterOp}
    (hdepth : s.depth .lock = 1) (htodo : s.todo = .call (.onRxParsed urb) :: rest)
    (hrest : rest = [] ∨ rest = [.release .filterLock]) :
    ∃ s', Leads (filterProgram cfg) s s' ∧ ¬ Disciplined s' := by
  have hnext : ∀ a : Choice, s.next (filterProgram cfg) a =
      some { s with
        shared := (s.shared.onRxParsed urb).1, todo := (s.shared.onRxParsed urb).2 ++ rest } :=
    fun a => next_call htodo rfl
  by_cases hcommand : (s.shared.parsers .rx).state ≠ .waitResponse ∨
      (s.shared.parsers .rx).ptpdu.type ≠ containerCommand
  · -- it returns with the lock
    have hops : (s.shared.onRxParsed urb).2 = [] := by
      rw [Shared.onRxParsed, if_pos hcommand]
    rw [hops] at hnext
    rcases hrest with rfl | rfl
    · exact ⟨_, .single hnext, not_disciplined_at_end hdepth rfl⟩
    · refine ⟨_, .head hnext (.single fun a => next_release rfl a),
        not_disciplined_at_end ?_ rfl⟩
      simpa using hdepth
  · -- it takes the lock again
    have hops : (s.shared.onRxParsed urb).2 = [.acquire .lock, .call (.onRxCommand urb)] := by
      rw [Shared.onRxParsed, if_neg hcommand]
    rw [hops] at hnext
    refine ⟨_, .head hnext (.single fun a => next_acquire rfl a), not_disciplined_of_depth ?_⟩
    simp [hdepth]

/-- The chain is where `ptp_parse` reads outside of the buffer. -/
def ReadsOutside (s : FilterChain) : Prop := s.todo.head? = some (.call .fault)

/-- A change of the session leaves `ptp_on_rx` with the lock. -/
theorem leads_of_changesSession {cfg : Config} {s s' : FilterChain} {c : Choice}
    (hdepth : s.depth .lock = 0) (hfollowed : Followed s.todo) {urb : Urb} {rest : List FilterOp}
    (htodo : s.todo = .call (.ptpOnRx urb) :: rest) (hchange : s.shared.changesSession urb = true)
    (hs : s.next (filterProgram cfg) c = some s') :
    ∃ s'', Leads (filterProgram cfg) s' s'' ∧ (¬ Disciplined s'' ∨ ReadsOutside s'') := by
  rw [htodo] at hfollowed
  have hrest : rest = [] ∨ rest = [.release .filterLock] := hfollowed.1
  simp only [Shared.changesSession, Bool.and_eq_true, decide_eq_true_eq] at hchange
  obtain ⟨⟨⟨hstate, hbulk⟩, hout⟩, hany⟩ := hchange
  have hpass : ¬ (s.shared.filter.state = .bypassed ∨ urb.bulk = false) := by
    rintro (h | h)
    · exact hstate h
    · simp [h] at hbulk
  have hnext := next_call (P := filterProgram cfg) htodo (a := c) (r := s.shared.ptpOnRx urb) rfl
  obtain rfl := Option.some.inj (hnext.symm.trans hs)
  rw [Shared.ptpOnRx, if_neg hpass, if_pos hout]
  have hops :=
    (lockParse_ops .rx false (s.shared.parsers .rx) s.shared.session urb.data).changes hany
  unfold Shared.parsed
  dsimp only
  split
  next hnone =>
    rcases hops with hops | ⟨l, hops⟩
    · rw [hops]
      refine ⟨_, .single fun a => next_acquire rfl a, .inr ?_⟩
      rfl
    · rw [hops]
      refine ⟨_, .head (fun a => next_acquire rfl a) (.single fun a => next_acquire rfl a),
        .inl (not_disciplined_of_depth ?_)⟩
      simp [hdepth]
  next p hp =>
    rcases hops with hops | ⟨l, hops⟩
    · rw [hops]
      obtain ⟨s'', hleads, hdisc⟩ := leads_of_onRxParsed cfg
        (s := ⟨s.shared.setParsed .rx p, Function.update s.depth .lock (s.depth .lock + 1),
          .call (.onRxParsed { urb with data := p.data }) :: rest⟩)
        (by simp [hdepth]) rfl hrest
      exact ⟨s'', .head (fun a => next_acquire rfl a) hleads, .inl hdisc⟩
    · rw [hops]
      refine ⟨_, .head (fun a => next_acquire rfl a) (.single fun a => next_acquire rfl a),
        .inl (not_disciplined_of_depth ?_)⟩
      simp [hdepth]

/-! ### The entry points -/

/-- The functions of the filter that are called from outside. -/
inductive Entry
  | ptpOnRx (urb : Urb)
  | ptpOnTx (urb : Urb)
  | ptpTimer
  | ptpCmdComplete (i : ℕ) (ok : Bool)
  | ptpDataComplete (i : ℕ) (offset : ℤ) (data : List Byte) (ok : Bool)
  | ptpRemove
  deriving DecidableEq

/-- The call. -/
def Entry.call : Entry → Call
  | ptpOnRx urb => .ptpOnRx urb
  | ptpOnTx urb => .ptpOnTx urb
  | ptpTimer => .ptpTimer
  | ptpCmdComplete i ok => .ptpCmdComplete i ok
  | ptpDataComplete i offset data ok => .ptpDataComplete i offset data ok
  | ptpRemove => .ptpRemove

/-- The invariant of a chain in which every function has kept its convention. -/
structure LockInv (s : FilterChain) : Prop where
  inOrder : ∃ held, InOrder lockConv .lock s held
  followed : Followed s.todo

namespace LockInv

variable {cfg : Config} {s s' : FilterChain}

theorem init (x : Shared) (entry : Entry) : LockInv (filterChain cfg x entry.call).init where
  inOrder := ⟨false, InOrder.init x (by cases entry <;> rfl)⟩
  followed := by
    cases entry with
    | ptpOnRx urb => exact ⟨.inl rfl, trivial⟩
    | ptpOnTx urb | ptpTimer | ptpCmdComplete i ok | ptpDataComplete i offset data ok
    | ptpRemove => exact ⟨trivial, trivial⟩

theorem step (h : LockInv s) {a : CallChain.Act Shared Choice} (hok : keepsLock s a = true)
    (hs : CallChain.step (filterProgram cfg) s a = some s') : LockInv s' := by
  obtain ⟨held, hinOrder⟩ := h.inOrder
  have hfollowed : Followed s'.todo :=
    step_todo (fun op rest hrest => hrest.2) (fun c t x ops rest hbody => body_followed hbody)
      h.followed hs
  refine ⟨hinOrder.step ?_ hs, hfollowed⟩
  rintro c t x ops held' rfl htodo hbody hconv
  exact body_keeps hok htodo hbody hconv

/-- The invariant holds as long as every function has kept its convention. -/
theorem of_reachableWhere {x : Shared} {entry : Entry}
    (h : (filterChain cfg x entry.call).ReachableWhere (fun s a => keepsLock s a = true) s) :
    LockInv s :=
  h.invariant (init x entry) fun _ _ _ hs hok hstep => hs.step hok hstep

end LockInv

/-- **The lock discipline of the PTP filter**: from any state of the filter, a call of an entry
point takes and releases `filter->lock` in turn, returns with it free, and has it free where it
submits a URB or completes one, as long as the client does not change the session and
`ptp_consume_` meets no bad container. The first step that does leads the chain out of order, if
it does not lead `ptp_parse` out of the buffer. -/
theorem lock_discipline {cfg : Config} {x : Shared} {entry : Entry} {s : FilterChain}
    (h : (filterChain cfg x entry.call).ReachableWhere (fun s a => keepsLock s a = true) s) :
    Disciplined s ∧ ∀ a s', CallChain.step (filterProgram cfg) s a = some s' →
      keepsLock s a = false →
      ∃ s'', Leads (filterProgram cfg) s' s'' ∧ (¬ Disciplined s'' ∨ ReadsOutside s'') := by
  have hinv := LockInv.of_reachableWhere h
  obtain ⟨held, hinOrder⟩ := hinv.inOrder
  refine ⟨disciplined_of_inOrder hinOrder, fun a s' hs hbad => ?_⟩
  cases a with
  | meddle y => cases hbad
  | step c =>
    have hdepth := hinOrder.depth
    unfold keepsLock at hbad
    dsimp only at hbad
    split at hbad
    next urb hhead =>
      obtain ⟨rest, htodo⟩ := List.head?_eq_some_iff.mp hhead
      -- `ptp_on_rx` is entered without the lock
      obtain rfl : held = false := hinOrder.held_of_call htodo rfl
      exact leads_of_changesSession hdepth hinv.followed htodo (by simpa using hbad) hs
    next priv pending hhead =>
      obtain ⟨rest, htodo⟩ := List.head?_eq_some_iff.mp hhead
      -- and `ptp_consume_` with it
      obtain rfl : held = true := hinOrder.held_of_call htodo rfl
      obtain ⟨s'', hleads, hdisc⟩ :=
        leads_of_badContainer hdepth hinv.followed htodo (by simpa using hbad) hs
      exact ⟨s'', hleads, .inl hdisc⟩
    · cases hbad

/-! ### Calls in order and out of order -/

/-- A full-speed camera. -/
def fullSpeed : Config := ⟨64, 3, by decide, by decide⟩

/-- The filter after `ptp_probe` of a known model. -/
def Shared.probed : Shared :=
  ⟨.probed, 0, 0, fun _ => .fresh, ptpVendorCanon, false, none, fun _ => 0, fun _ => []⟩

/-- The filter in state `ptpfs_active`, with a read URB of the client to come. -/
def Shared.streaming (serving : Bool) : Shared :=
  { Shared.probed with
    filter := { Filter.probed with
      state := .active, frameServing := serving, frameHead := 12, frameBuffer := fun _ => 0 }
    size := fun _ => 512 }

/-- A read URB of the client. -/
def clientRead : Urb := ⟨0, true, false, true, []⟩

/-- A chain left alone. -/
def alone (n : ℕ) : List (CallChain.Act Shared Choice) := List.replicate n (.step ⟨[], false, 0⟩)

theorem lock_discipline_read :
    ∃ s, (filterChain fullSpeed (.streaming false) (Entry.ptpOnRx clientRead).call).runWhere
        (fun s a => keepsLock s a = true)
        (filterChain fullSpeed (.streaming false) (Entry.ptpOnRx clientRead).call).init (alone 5) =
          some s ∧
      (Disciplined s ∧ ∀ a s', CallChain.step (filterProgram fullSpeed) s a = some s' →
        keepsLock s a = false →
        ∃ s'', Leads (filterProgram fullSpeed) s' s'' ∧ (¬ Disciplined s'' ∨ ReadsOutside s'')) :=
  Machine.exists_runWhere
    (m := filterChain fullSpeed (.streaming false) (Entry.ptpOnRx clientRead).call)
    (by decide) fun _ h => lock_discipline h

/-- OpenSession, in one URB. -/
def openSession : Urb := ⟨0, true, true, true, [12, 0, 0, 0, 1, 0, 0x02, 0x10, 0, 0, 0, 0]⟩

/-- `ptp_on_rx` takes the lock twice when the client opens a session, and releases it twice when
it is to serve a frame whose container has the length 0. -/
theorem lock_twice :
    (∃ s, (filterChain fullSpeed .probed (.ptpOnRx openSession)).Reachable s ∧
      s.depth .lock = 2 ∧ ¬ Disciplined s) ∧
    ∃ s, (filterChain fullSpeed (.streaming true) (.ptpOnRx clientRead)).Reachable s ∧
      s.depth .lock = -1 ∧ ¬ Disciplined s := by
  constructor
  · obtain ⟨s, hs, hp⟩ := Machine.exists_reachable_of_any
      (m := filterChain fullSpeed .probed (.ptpOnRx openSession)) (alone 4)
      (fun s => s.depth .lock == 2) (by decide)
    have hdepth : s.depth .lock = 2 := by simpa using hp
    exact ⟨s, hs, hdepth, not_disciplined_of_depth hdepth⟩
  · obtain ⟨s, hs, hp⟩ := Machine.exists_reachable_of_any
      (m := filterChain fullSpeed (.streaming true) (.ptpOnRx clientRead)) (alone 6)
      (fun s => s.depth .lock == -1) (by decide)
    have hdepth : s.depth .lock = -1 := by simpa using hp
    refine ⟨s, hs, hdepth, fun hdisc => ?_⟩
    have hbelow := hdisc.not_below
    rw [hdepth] at hbelow
    exact absurd hbelow (by decide)

end Usbip.Ptp
