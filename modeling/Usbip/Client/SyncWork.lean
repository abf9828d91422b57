import Usbip.Lib.CondVar
import Mathlib.Logic.Function.Basic
import Mathlib.Data.Int.Notation
import Mathlib.Data.List.Nodup

/-!
# Synchronous calls of the client library

`work_new_` makes a work and puts it into the queue of the session; the loop thread takes it out
in `session_notify`, runs it, and calls `work_done_` when it is finished. For a synchronous call
`work_wait` then waits on the condition of the work's `sync_t` until the work is `ws_done`, and has
the loop thread drop the last reference through `libusbip_work_close`; `work_del` gives the
`sync_t` back for another work.

The steps of `workMachine` are the sections under `mem_mutex`, `work_mutex` and the mutex of a
`sync_t`, and what the loop thread does between them. `workWait` adds the conditions. `work_wait`
does not look at the state before it waits for the first time. A work that is done by then has
given its signal already, and the thread waits for ever; this is the only way in which a
completion is missed (`not_lost_of_inTime`).
-/

namespace Usbip.Client

/-! ### Works and their session -/

/-- `enum work_state_t` -/
inductive WorkState
  | pending
  | busy
  | done
  deriving DecidableEq

/-- `work->cb`, with `work->data` of a `work_unref_cb`. -/
inductive WorkCb
  | work
  | workUnrefCb (target : ℕ)
  deriving DecidableEq

/-- Where the thread is that has called `work_new_`: before it queues the work, in or before
`work_wait`, before `libusbip_work_close`, or past all that. -/
inductive CallerPc
  | new
  | wait
  | closing
  | left
  deriving DecidableEq

/-- How `work_new_` is called: without a job and with a timeout of 0 or more, with a job, or
without a job and with a negative timeout. -/
inductive WorkKind
  | sync
  | job
  | detached
  deriving DecidableEq

/-- A `work_t`, with its thread. -/
structure Work where
  state : WorkState
  refCount : ℤ
  sync : Option ℕ
  userCb : Bool
  cb : WorkCb
  caller : CallerPc

/-- Where the thread goes when its work is queued: into `work_wait` for a synchronous call; a job
may be closed from then on. -/
def Work.queued (k : Work) : CallerPc :=
  if k.sync.isSome then .wait else if k.userCb then .closing else .left

/-- The decrement of `work_unref`. -/
def Work.dropRef (k : Work) : Work := { k with refCount := k.refCount - 1 }

/-- A `session_t`. `unref` is the work that `work_done_` has still to unreference. -/
structure WorkSession where
  work : ℕ → Work
  nextWork : ℕ
  freeSyncList : List ℕ
  nextSync : ℕ
  workQueue : List ℕ
  unref : Option ℕ

namespace WorkSession

variable (s : WorkSession)

/-- A session without works. -/
def start : WorkSession where
  work _ := ⟨.done, 0, none, false, .work, .left⟩
  nextWork := 0
  freeSyncList := []
  nextSync := 0
  workQueue := []
  unref := none

def modify (w : ℕ) (f : Work → Work) : WorkSession :=
  { s with work := Function.update s.work w (f (s.work w)) }

/-- A `sync_t` from the free list, or a new one. -/
def takeSync : ℕ × WorkSession :=
  match s.freeSyncList with
  | c :: rest => (c, { s with freeSyncList := rest })
  | [] => (s.nextSync, { s with nextSync := s.nextSync + 1 })

def addWork (k : Work) : WorkSession :=
  { s with work := Function.update s.work s.nextWork k, nextWork := s.nextWork + 1 }

/-- `work_new_` up to the queue. -/
def workNew (cb : WorkCb) : WorkKind → WorkSession
  | .sync => s.takeSync.2.addWork ⟨.pending, 2, some s.takeSync.1, false, cb, .new⟩
  | .job => s.addWork ⟨.pending, 2, none, true, cb, .new⟩
  | .detached => s.addWork ⟨.pending, 1, none, false, cb, .new⟩

/-- `work_unref`, with `work_del` when the last reference is gone. -/
def workUnref (w : ℕ) : WorkSession :=
  let s' := s.modify w Work.dropRef
  if (s.work w).refCount - 1 = 0 then
    { s' with freeSyncList := (s.work w).sync.toList ++ s'.freeSyncList }
  else s'

end WorkSession

/-- The sections of the threads that submit works: `work_new_` under `mem_mutex` and under
`work_mutex`, the end of `work_wait`, and `work_new_` under `mem_mutex` for
`libusbip_work_close`. And those of the loop thread: a round of `session_notify`, `work_done_` of
a work that is running, the `work_unref` at its end, and `work_unref_cb`. -/
inductive WorkAct
  | new (kind : WorkKind)
  | queue (w : ℕ)
  | leave (w : ℕ)
  | close (w : ℕ)
  | dequeue
  | done (w : ℕ)
  | unref
  | runUnref (u : ℕ)
  deriving DecidableEq

namespace WorkSession

/-- One step. -/
def step (s : WorkSession) : WorkAct → Option WorkSession
  | .new kind => some (s.workNew .work kind)
  | .queue w =>
    if (s.work w).caller = .new then
      some ({ s with workQueue := s.workQueue ++ [w] }.modify w fun k =>
        { k with caller := k.queued })
    else none
  | .leave w =>
    if (s.work w).caller = .wait ∧ (s.work w).state = .done then
      some (s.modify w fun k => { k with caller := .closing })
    else none
  | .close w =>
    if (s.work w).caller = .closing then
      some ((s.modify w fun k => { k with caller := .left }).workNew (.workUnrefCb w) .detached)
    else none
  | .dequeue =>
    match s.unref, s.workQueue with
    | none, w :: rest => some ({ s with workQueue := rest }.modify w fun k =>
        if k.state = WorkState.pending then { k with state := .busy } else k)
    | _, _ => none
  | .done w =>
    if s.unref = none ∧ (s.work w).state = .busy ∧ (s.work w).cb = .work then
      some ({ s with unref := some w }.modify w fun k => { k with state := .done })
    else none
  | .unref => s.unref.map { s with unref := none }.workUnref
  | .runUnref u =>
    match (s.work u).cb with
    | .workUnrefCb w =>
      if s.unref = none ∧ (s.work u).state = .busy then
        some (({ s with unref := some u }.workUnref w).modify u fun k => { k with state := .done })
      else none
    | .work => none

end WorkSession

/-- A session and its threads. -/
def workMachine : Machine WorkSession WorkAct := ⟨.start, WorkSession.step⟩

/-- `work_wait`: the thread of a work waits on the condition of its `sync_t` until the work is
done. `work_done_` signals it. -/
def workWait : CondWait workMachine ℕ ℕ where
  ready s w := (s.work w).state == .done
  atWait s w := (s.work w).caller == .wait
  cond s w := (s.work w).sync
  signal s a :=
    match a with
    | .done w => (s.work w).sync
    | _ => none
  leaves a :=
    match a with
    | .leave w => some w
    | _ => none

/-- The thread of a work waits on the condition although the work is done, and however things go
on, there will be no `work_done_` for it. -/
def Lost (s : CondWait.State WorkSession ℕ) (w : ℕ) : Prop :=
  w ∈ s.waiting ∧ (s.base.work w).state = .done ∧
    ∀ acts s', workWait.machine.run s acts = some s' →
      ∀ woke, workWait.machine.step s' (.act (.done w) woke) = none

/-! ### Who has a `sync_t` -/

namespace WorkSession

variable {s s' : WorkSession} {w x : ℕ} {f : Work → Work} {k : Work}

theorem modify_work_self (s : WorkSession) (w : ℕ) (f : Work → Work) :
    (s.modify w f).work w = f (s.work w) := Function.update_self _ _ _

theorem modify_work_of_ne (h : x ≠ w) : (s.modify w f).work x = s.work x :=
  Function.update_of_ne h _ _

theorem addWork_work_self (s : WorkSession) (k : Work) : (s.addWork k).work s.nextWork = k :=
  Function.update_self _ _ _

theorem addWork_work_of_ne (h : x ≠ s.nextWork) : (s.addWork k).work x = s.work x :=
  Function.update_of_ne h _ _

/-- A modification that leaves a member of a work alone leaves it alone in all works. -/
theorem modify_apply {β : Type} (g : Work → β) (h : g (f (s.work w)) = g (s.work w)) (x : ℕ) :
    g ((s.modify w f).work x) = g (s.work x) := by
  by_cases hx : x = w
  · rw [hx, modify_work_self, h]
  · rw [modify_work_of_ne hx]

/-- No `sync_t` is in the free list twice, or has two works that are referenced, or a referenced
work while it is in the free list. -/
structure Pool (s : WorkSession) : Prop where
  free_lt : ∀ c ∈ s.freeSyncList, c < s.nextSync
  free_nodup : s.freeSyncList.Nodup
  sync_lt : ∀ w c, (s.work w).sync = some c → c < s.nextSync
  not_free : ∀ w c, (s.work w).sync = some c → 1 ≤ (s.work w).refCount → c ∉ s.freeSyncList
  alone : ∀ w x c, (s.work w).sync = some c → (s.work x).sync = some c →
    1 ≤ (s.work w).refCount → 1 ≤ (s.work x).refCount → w = x

theorem Pool.congr (h : Pool s) (hsync : ∀ w, (s'.work w).sync = (s.work w).sync)
    (href : ∀ w, (s'.work w).refCount = (s.work w).refCount)
    (hfree : s'.freeSyncList = s.freeSyncList) (hnext : s'.nextSync = s.nextSync) : Pool s' := by
  constructor
  · rw [hfree, hnext]
    exact h.free_lt
  · rw [hfree]
    exact h.free_nodup
  · intro w c
    rw [hsync, hnext]
    exact h.sync_lt w c
  · intro w c
    rw [hsync, href, hfree]
    exact h.not_free w c
  · intro w x c
    rw [hsync, hsync, href, href]
    exact h.alone w x c

/-- The `sync_t` goes into the free list with the last reference. -/
theorem Pool.workUnref (h : Pool s) (w : ℕ) : Pool (s.workUnref w) := by
  have hsync : ∀ x, ((s.modify w Work.dropRef).work x).sync =
      (s.work x).sync := modify_apply Work.sync rfl
  have href : ∀ x, ((s.modify w Work.dropRef).work x).refCount ≤
      (s.work x).refCount := by
    intro x
    by_cases hx : x = w
    · rw [hx, modify_work_self]
      exact Int.sub_le_self _ Int.one_nonneg
    · exact Int.le_of_eq (congrArg Work.refCount (modify_work_of_ne hx))
  rw [WorkSession.workUnref]
  split
  · next hlast =>
    have hone : 1 ≤ (s.work w).refCount := by omega
    -- of the works with this `sync_t` only the one that is given up was referenced
    have hgone : ∀ x c, (s.work x).sync = some c → (s.work w).sync = some c →
        ¬ 1 ≤ ((s.modify w Work.dropRef).work x).refCount := by
      intro x c hx hw hle
      obtain rfl := h.alone x w c hx hw (Int.le_trans hle (href x)) hone
      rw [modify_work_self, Work.dropRef] at hle
      dsimp only at hle
      omega
    constructor
    · intro c hc
      rcases List.mem_append.mp hc with hc | hc
      · exact h.sync_lt w c (Option.mem_toList.mp hc)
      · exact h.free_lt c hc
    · refine List.nodup_append.mpr ⟨?_, h.free_nodup, fun c hc x hx heq => ?_⟩
      · cases (s.work w).sync with
        | none => exact List.nodup_nil
        | some c => exact List.nodup_singleton c
      · exact h.not_free w c (Option.mem_toList.mp hc) hone (heq ▸ hx)
    · intro x c hx
      exact h.sync_lt x c ((hsync x).symm.trans hx)
    · intro x c hx hle hc
      have hx : (s.work x).sync = some c := (hsync x).symm.trans hx
      rcases List.mem_append.mp hc with hc | hc
      · exact hgone x c hx (Option.mem_toList.mp hc) hle
      · exact h.not_free x c hx (Int.le_trans hle (href x)) hc
    · intro x y c hx hy hlex hley
      exact h.alone x y c ((hsync x).symm.trans hx) ((hsync y).symm.trans hy)
        (Int.le_trans hlex (href x)) (Int.le_trans hley (href y))
  · constructor
    · exact h.free_lt
    · exact h.free_nodup
    · intro x c hx
      exact h.sync_lt x c ((hsync x).symm.trans hx)
    · intro x c hx hle
      exact h.not_free x c ((hsync x).symm.trans hx) (Int.le_trans hle (href x))
    · intro x y c hx hy hlex hley
      exact h.alone x y c ((hsync x).symm.trans hx) ((hsync y).symm.trans hy)
        (Int.le_trans hlex (href x)) (Int.le_trans hley (href y))

/-- A work may get a `sync_t` that no other work has. -/
theorem Pool.addWork (h : Pool s) (hlt : ∀ c, k.sync = some c → c < s.nextSync)
    (hfree : ∀ c, k.sync = some c → c ∉ s.freeSyncList)
    (hnew : ∀ x c, k.sync = some c → (s.work x).sync = some c → ¬ 1 ≤ (s.work x).refCount) :
    Pool (s.addWork k) := by
  constructor
  · exact h.free_lt
  · exact h.free_nodup
  · intro x c
    by_cases hx : x = s.nextWork
    · rw [hx, addWork_work_self]
      exact hlt c
    · rw [addWork_work_of_ne hx]
      exact h.sync_lt x c
  · intro x c
    by_cases hx : x = s.nextWork
    · rw [hx, addWork_work_self]
      exact fun hk _ => hfree c hk
    · rw [addWork_work_of_ne hx]
      exact h.not_free x c
  · intro x y c
    by_cases hx : x = s.nextWork
    · by_cases hy : y = s.nextWork
      · exact fun _ _ _ _ => hx.trans hy.symm
      · rw [hx, addWork_work_self, addWork_work_of_ne hy]
        exact fun hk hyc _ hley => absurd hley (hnew y c hk hyc)
    · by_cases hy : y = s.nextWork
      · rw [hy, addWork_work_self, addWork_work_of_ne hx]
        exact fun hxc hk hlex _ => absurd hlex (hnew x c hk hxc)
      · rw [addWork_work_of_ne hx, addWork_work_of_ne hy]
        exact h.alone x y c

theorem Pool.workNew (h : Pool s) (cb : WorkCb) (kind : WorkKind) : Pool (s.workNew cb kind) := by
  cases kind with
  | job => exact h.addWork nofun nofun nofun
  | detached => exact h.addWork nofun nofun nofun
  | sync =>
    rw [WorkSession.workNew, takeSync]
    split
    next c rest hlist =>
      have hnodup := h.free_nodup
      rw [hlist, List.nodup_cons] at hnodup
      have hrest : Pool { s with freeSyncList := rest } := by
        refine ⟨fun c hc => h.free_lt c ?_, hnodup.2, h.sync_lt, fun w c hw hle hc => ?_, h.alone⟩
        · rw [hlist]
          exact List.mem_cons_of_mem _ hc
        · refine h.not_free w c hw hle ?_
          rw [hlist]
          exact List.mem_cons_of_mem _ hc
      have hmem : c ∈ s.freeSyncList := hlist ▸ List.mem_cons_self
      refine hrest.addWork ?_ ?_ ?_
      · rintro _ ⟨⟩
        exact h.free_lt c hmem
      · rintro _ ⟨⟩
        exact hnodup.1
      · rintro x _ ⟨⟩ hx hle
        exact h.not_free x c hx hle hmem
    next hlist =>
      have hnext : Pool { s with nextSync := s.nextSync + 1 } :=
        ⟨fun c hc => Nat.lt_succ_of_lt (h.free_lt c hc), h.free_nodup,
          fun w c hw => Nat.lt_succ_of_lt (h.sync_lt w c hw), h.not_free, h.alone⟩
      refine hnext.addWork ?_ ?_ ?_
      · rintro _ ⟨⟩
        exact Nat.lt_succ_self _
      · rintro _ ⟨⟩ hc
        exact Nat.lt_irrefl _ (h.free_lt _ hc)
      · rintro x _ ⟨⟩ hx
        exact absurd (h.sync_lt x _ hx) (Nat.lt_irrefl _)

theorem Pool.start : Pool start :=
  ⟨fun _ hc => absurd hc List.not_mem_nil, List.nodup_nil, nofun, nofun, nofun⟩

theorem Pool.step {a : WorkAct} (h : Pool s) (hs : s.step a = some s') : Pool s' := by
  cases a with
  | new kind =>
    obtain rfl := Option.some.inj hs
    exact h.workNew _ kind
  | queue w =>
    obtain ⟨-, hs⟩ := Option.ite_none_right_eq_some.mp hs
    obtain rfl := Option.some.inj hs
    exact h.congr (modify_apply Work.sync rfl) (modify_apply Work.refCount rfl) rfl rfl
  | leave w =>
    obtain ⟨-, hs⟩ := Option.ite_none_right_eq_some.mp hs
    obtain rfl := Option.some.inj hs
    exact h.congr (modify_apply Work.sync rfl) (modify_apply Work.refCount rfl) rfl rfl
  | close w =>
    obtain ⟨-, hs⟩ := Option.ite_none_right_eq_some.mp hs
    obtain rfl := Option.some.inj hs
    have hleft : Pool (s.modify w fun k => { k with caller := .left }) :=
      h.congr (modify_apply Work.sync rfl) (modify_apply Work.refCount rfl) rfl rfl
    exact hleft.workNew _ _
  | dequeue =>
    rw [WorkSession.step] at hs
    split at hs
    next w rest _ _ =>
      obtain rfl := Option.some.inj hs
      have hif : ∀ k : Work, (if k.state = .pending then { k with state := .busy } else k) =
          { k with state := if k.state = .pending then .busy else k.state } := by
        intro k
        split
        · rfl
        · rfl
      refine h.congr (modify_apply Work.sync ?_) (modify_apply Work.refCount ?_) rfl rfl
      · rw [hif]
      · rw [hif]
    · cases hs
  | done w =>
    obtain ⟨-, hs⟩ := Option.ite_none_right_eq_some.mp hs
    obtain rfl := Option.some.inj hs
    exact h.congr (modify_apply Work.sync rfl) (modify_apply Work.refCount rfl) rfl rfl
  | unref =>
    obtain ⟨w, -, rfl⟩ := Option.map_eq_some_iff.mp hs
    have hpool : Pool { s with unref := none } := h.congr (fun _ => rfl) (fun _ => rfl) rfl rfl
    exact hpool.workUnref w
  | runUnref u =>
    rw [WorkSession.step] at hs
    split at hs
    next w _ =>
      obtain ⟨-, hs⟩ := Option.ite_none_right_eq_some.mp hs
      obtain rfl := Option.some.inj hs
      have hpool : Pool { s with unref := some u } := h.congr (fun _ => rfl) (fun _ => rfl) rfl rfl
      exact (hpool.workUnref w).congr (modify_apply Work.sync rfl) (modify_apply Work.refCount rfl)
        rfl rfl
    · cases hs

end WorkSession

/-! ### Who has a reference -/

/-- Of the work `w`: a synchronous call has a reference until `libusbip_work_close`, and
`work_done_` has another one until its end. -/
structure Work.Counted (unref : Option ℕ) (w : ℕ) (k : Work) : Prop where
  wait : k.caller = .wait → k.sync.isSome = true
  finished : k.sync.isSome = true → k.caller = .closing ∨ k.caller = .left → k.state = .done
  held : k.sync.isSome = true → k.caller ≠ .left → 1 ≤ k.refCount
  twice : k.sync.isSome = true → k.caller ≠ .left → k.state ≠ .done ∨ unref = some w →
    2 ≤ k.refCount
  unref : unref = some w → k.state = .done

namespace WorkSession

variable {s s' : WorkSession} {w x : ℕ} {f : Work → Work} {k : Work}

/-- The references are counted, a work that does not exist yet has no thread, and the target of a
`work_unref_cb` is closed. -/
structure Refs (s : WorkSession) : Prop where
  counted : ∀ w, (s.work w).Counted s.unref w
  bound : ∀ w, s.nextWork ≤ w →
    (s.work w).state = .done ∧ (s.work w).caller = .left ∧ s.unref ≠ some w
  closer : ∀ u w, (s.work u).cb = .workUnrefCb w →
    (s.work u).sync = none ∧ w < s.nextWork ∧ (s.work w).caller = .left

theorem Refs.congr (h : Refs s) (hwork : s'.work = s.work) (hnext : s'.nextWork = s.nextWork)
    (hunref : s'.unref = s.unref) : Refs s' := by
  refine ⟨fun w => ?_, fun w => ?_, fun u w => ?_⟩
  · rw [hwork, hunref]
    exact h.counted w
  · rw [hwork, hunref, hnext]
    exact h.bound w
  · rw [hwork, hnext]
    exact h.closer u w

theorem Refs.lt_of_caller (h : Refs s) (hw : (s.work w).caller ≠ .left) : w < s.nextWork := by
  by_contra hge
  exact hw (h.bound w (Nat.le_of_not_lt hge)).2.1

theorem Refs.lt_of_state (h : Refs s) (hw : (s.work w).state ≠ .done) : w < s.nextWork := by
  by_contra hge
  exact hw (h.bound w (Nat.le_of_not_lt hge)).1

/-- A step that changes one work. -/
theorem Refs.modify (h : Refs s) (hlt : w < s.nextWork) (hnext : s'.nextWork = s.nextWork)
    (hwork : s'.work = Function.update s.work w k) (hk : k.Counted s'.unref w)
    (hunref : ∀ x ≠ w, s'.unref = some x → s.unref = some x) (hcb : k.cb = (s.work w).cb)
    (hsync : k.sync = (s.work w).sync)
    (hleft : (s.work w).caller = .left → k.caller = .left) : Refs s' := by
  have hself : s'.work w = k := by rw [hwork, Function.update_self]
  have hother : ∀ x ≠ w, s'.work x = s.work x := fun x hx => by
    rw [hwork, Function.update_of_ne hx]
  have hstill : ∀ x, (s.work x).caller = .left → (s'.work x).caller = .left := by
    intro x hx
    by_cases hxw : x = w
    · rw [hxw, hself]
      exact hleft (hxw ▸ hx)
    · rwa [hother x hxw]
  constructor
  · intro x
    by_cases hxw : x = w
    · rw [hxw, hself]
      exact hk
    · have hx := h.counted x
      rw [hother x hxw]
      exact ⟨hx.wait, hx.finished, hx.held, fun hsome hne hrun => hx.twice hsome hne
        (hrun.imp_right (hunref x hxw)), fun hu => hx.unref (hunref x hxw hu)⟩
  · intro x hx
    rw [hnext] at hx
    have hxw : x ≠ w := fun hxw => absurd hlt (Nat.not_lt_of_le (hxw ▸ hx))
    obtain ⟨hstate, hcaller, hne⟩ := h.bound x hx
    rw [hother x hxw]
    exact ⟨hstate, hcaller, fun hu => hne (hunref x hxw hu)⟩
  · intro u x
    rw [hnext]
    by_cases huw : u = w
    · rw [huw, hself, hcb, hsync]
      intro hu
      obtain ⟨hnone, hlt', hcaller⟩ := h.closer w x hu
      exact ⟨hnone, hlt', hstill x hcaller⟩
    · rw [hother u huw]
      intro hu
      obtain ⟨hnone, hlt', hcaller⟩ := h.closer u x hu
      exact ⟨hnone, hlt', hstill x hcaller⟩

/-- A new work. -/
theorem Refs.addWork (h : Refs s) (hcaller : k.caller = .new)
    (href : k.sync.isSome = true → 2 ≤ k.refCount)
    (hcb : ∀ w, k.cb = .workUnrefCb w →
      k.sync = none ∧ w < s.nextWork ∧ (s.work w).caller = .left) : Refs (s.addWork k) := by
  obtain ⟨-, -, hunref⟩ := h.bound s.nextWork (Nat.le_refl _)
  constructor
  · intro x
    by_cases hx : x = s.nextWork
    · rw [hx, addWork_work_self]
      refine ⟨fun hw => ?_, fun _ hw => ?_, fun hsome _ => ?_, fun hsome _ _ => href hsome,
        fun hu => absurd hu hunref⟩
      · rw [hcaller] at hw
        cases hw
      · rw [hcaller] at hw
        rcases hw with hw | hw
        · cases hw
        · cases hw
      · exact Int.le_trans (by decide) (href hsome)
    · rw [addWork_work_of_ne hx]
      exact h.counted x
  · intro x hx
    have hx : s.nextWork < x := hx
    rw [addWork_work_of_ne (Nat.ne_of_gt hx)]
    exact h.bound x (Nat.le_of_lt hx)
  · intro u w hu
    have hcloser : ((s.addWork k).work u).sync = none ∧ w < s.nextWork ∧
        (s.work w).caller = .left := by
      by_cases hun : u = s.nextWork
      · rw [hun, addWork_work_self] at hu ⊢
        exact hcb w hu
      · rw [addWork_work_of_ne hun] at hu ⊢
        exact h.closer u w hu
    obtain ⟨hnone, hlt, hleft⟩ := hcloser
    rw [addWork_work_of_ne (Nat.ne_of_lt hlt)]
    exact ⟨hnone, Nat.lt_succ_of_lt hlt, hleft⟩

theorem Refs.workNew (h : Refs s) {cb : WorkCb} (kind : WorkKind)
    (hcb : ∀ w, cb = .workUnrefCb w →
      kind ≠ .sync ∧ w < s.nextWork ∧ (s.work w).caller = .left) : Refs (s.workNew cb kind) := by
  cases kind with
  | job => exact h.addWork rfl nofun fun w hw => ⟨rfl, (hcb w hw).2⟩
  | detached => exact h.addWork rfl nofun fun w hw => ⟨rfl, (hcb w hw).2⟩
  | sync =>
    have htake : Refs s.takeSync.2 := by
      rw [takeSync]
      split
      · exact h.congr rfl rfl rfl
      · exact h.congr rfl rfl rfl
    exact htake.addWork rfl (fun _ => Int.le_refl _) fun w hw => absurd rfl (hcb w hw).1

theorem workUnref_frame (s : WorkSession) (w : ℕ) :
    (s.workUnref w).work = (s.modify w Work.dropRef).work ∧
      (s.workUnref w).nextWork = s.nextWork ∧ (s.workUnref w).unref = s.unref := by
  rw [workUnref]
  split
  · exact ⟨rfl, rfl, rfl⟩
  · exact ⟨rfl, rfl, rfl⟩

/-- A reference is given up. -/
theorem Refs.workUnref (h : Refs s) (hlt : w < s.nextWork)
    (hheld : (s.work w).sync.isSome = true → (s.work w).caller ≠ .left →
      2 ≤ (s.work w).refCount ∧ (s.work w).state = .done) (hno : s.unref ≠ some w) :
    Refs (s.workUnref w) := by
  obtain ⟨hwork, hnext, hunref⟩ := s.workUnref_frame w
  have hk := h.counted w
  refine h.modify hlt hnext hwork ?_ (fun _ _ hu => hunref.symm.trans hu) rfl rfl fun hl => hl
  rw [hunref]
  refine ⟨hk.wait, hk.finished, fun hsome hne => ?_, fun hsome hne hrun => ?_, hk.unref⟩
  · have htwo := (hheld hsome hne).1
    rw [Work.dropRef]
    dsimp only
    omega
  · rcases hrun with hrun | hrun
    · exact absurd (hheld hsome hne).2 hrun
    · exact absurd hrun hno

theorem Refs.start : Refs start := by
  refine ⟨fun w => ⟨nofun, nofun, nofun, nofun, nofun⟩, fun w _ => ⟨rfl, rfl, nofun⟩, nofun⟩

theorem Refs.step {a : WorkAct} (h : Refs s) (hs : s.step a = some s') : Refs s' := by
  cases a with
  | new kind =>
    obtain rfl := Option.some.inj hs
    exact h.workNew kind nofun
  | queue w =>
    obtain ⟨hnew, hs⟩ := Option.ite_none_right_eq_some.mp hs
    obtain rfl := Option.some.inj hs
    have hk := h.counted w
    have hne : (s.work w).caller ≠ .left := by
      rw [hnew]
      exact nofun
    have hsync : (s.work w).sync.isSome = true → (s.work w).queued = .wait :=
      fun hsome => if_pos hsome
    refine h.modify (h.lt_of_caller hne) rfl rfl ⟨fun hw => ?_, fun hsome hc => ?_,
      fun hsome _ => hk.held hsome hne, fun hsome _ => hk.twice hsome hne, hk.unref⟩
      (fun _ _ hu => hu) rfl rfl fun hl => absurd hl hne
    · have hw : (s.work w).queued = .wait := hw
      rw [Work.queued] at hw
      split at hw
      next hsome => exact hsome
      · split at hw
        · cases hw
        · cases hw
    · dsimp only at hc
      rw [hsync hsome] at hc
      rcases hc with hc | hc
      · cases hc
      · cases hc
  | leave w =>
    obtain ⟨⟨hwait, hdone⟩, hs⟩ := Option.ite_none_right_eq_some.mp hs
    obtain rfl := Option.some.inj hs
    have hk := h.counted w
    have hne : (s.work w).caller ≠ .left := by
      rw [hwait]
      exact nofun
    exact h.modify (h.lt_of_caller hne) rfl rfl ⟨nofun, fun _ _ => hdone,
      fun hsome _ => hk.held hsome hne, fun hsome _ => hk.twice hsome hne, hk.unref⟩
      (fun _ _ hu => hu) rfl rfl fun hl => absurd hl hne
  | close w =>
    obtain ⟨hclosing, hs⟩ := Option.ite_none_right_eq_some.mp hs
    obtain rfl := Option.some.inj hs
    have hk := h.counted w
    have hne : (s.work w).caller ≠ .left := by
      rw [hclosing]
      exact nofun
    have hlt := h.lt_of_caller hne
    have hleft : Refs (s.modify w fun k => { k with caller := .left }) :=
      h.modify hlt rfl rfl ⟨nofun, fun hsome _ => hk.finished hsome (.inl hclosing),
        fun _ hc => absurd rfl hc, fun _ hc => absurd rfl hc, hk.unref⟩
        (fun _ _ hu => hu) rfl rfl fun _ => rfl
    refine hleft.workNew .detached fun x hx => ?_
    obtain rfl := WorkCb.workUnrefCb.inj hx
    exact ⟨nofun, hlt, congrArg Work.caller (modify_work_self s w _)⟩
  | dequeue =>
    rw [WorkSession.step] at hs
    split at hs
    next w rest hunref _ =>
      obtain rfl := Option.some.inj hs
      have hk := h.counted w
      by_cases hpending : (s.work w).state = .pending
      · have hrun : (s.work w).state ≠ .done := by
          rw [hpending]
          exact nofun
        have hwork : Function.update s.work w (if (s.work w).state = WorkState.pending then
            { s.work w with state := .busy } else s.work w) =
            Function.update s.work w { s.work w with state := .busy } :=
          congrArg _ (if_pos hpending)
        refine h.modify (h.lt_of_state hrun) rfl hwork ⟨hk.wait,
          fun hsome hc => absurd (hk.finished hsome hc) hrun, hk.held,
          fun hsome hne _ => hk.twice hsome hne (.inl hrun), fun hu => ?_⟩
          (fun _ _ hu => hu) rfl rfl fun hl => hl
        exact absurd (hunref.symm.trans hu) nofun
      · refine h.congr ?_ rfl rfl
        exact (congrArg _ (if_neg hpending)).trans (Function.update_eq_self _ _)
    · cases hs
  | done w =>
    obtain ⟨⟨hunref, hbusy, -⟩, hs⟩ := Option.ite_none_right_eq_some.mp hs
    obtain rfl := Option.some.inj hs
    have hk := h.counted w
    have hrun : (s.work w).state ≠ .done := by
      rw [hbusy]
      exact nofun
    refine h.modify (h.lt_of_state hrun) rfl rfl ⟨hk.wait, fun _ _ => rfl, hk.held,
      fun hsome hne _ => hk.twice hsome hne (.inl hrun), fun _ => rfl⟩ (fun x hx hu => ?_) rfl rfl
      fun hl => hl
    exact absurd (Option.some.inj hu).symm hx
  | unref =>
    obtain ⟨w, hunref, rfl⟩ := Option.map_eq_some_iff.mp hs
    have hk := h.counted w
    have hlt : w < s.nextWork := by
      by_contra hge
      exact (h.bound w (Nat.le_of_not_lt hge)).2.2 hunref
    have hnone : Refs { s with unref := none } := by
      refine h.modify (w := w) hlt rfl (Function.update_eq_self _ _).symm ⟨hk.wait, hk.finished,
        hk.held, fun hsome hne _ => hk.twice hsome hne (.inr hunref), nofun⟩
        (fun _ _ hu => ?_) rfl rfl fun hl => hl
      cases hu
    exact hnone.workUnref hlt (fun hsome hne => ⟨hk.twice hsome hne (.inr hunref), hk.unref hunref⟩)
      nofun
  | runUnref u =>
    rw [WorkSession.step] at hs
    split at hs
    next w hcb =>
      obtain ⟨⟨hunref, hbusy⟩, hs⟩ := Option.ite_none_right_eq_some.mp hs
      obtain rfl := Option.some.inj hs
      obtain ⟨hsync, hlt, hleft⟩ := h.closer u w hcb
      have hrun : (s.work u).state ≠ .done := by
        rw [hbusy]
        exact nofun
      have hw : Refs (s.workUnref w) := by
        refine h.workUnref hlt (fun _ hne => absurd hleft hne) ?_
        rw [hunref]
        exact nofun
      obtain ⟨hwork, hnext, -⟩ := s.workUnref_frame w
      obtain ⟨hwork', hnext', hunref'⟩ := { s with unref := some u }.workUnref_frame w
      have hnone : ((s.workUnref w).work u).sync = none := by
        have hsame : ((s.workUnref w).work u).sync = (s.work u).sync := by
          rw [hwork]
          exact modify_apply (f := Work.dropRef) Work.sync rfl u
        exact hsame.trans hsync
      have hnot : ¬ ((s.workUnref w).work u).sync.isSome = true := by
        rw [hnone]
        exact nofun
      have hlast : (({ s with unref := some u }.workUnref w).modify u fun k =>
          { k with state := .done }).unref = some u := hunref'
      refine hw.modify (w := u) (k := { (s.workUnref w).work u with state := .done })
        (hnext ▸ h.lt_of_state hrun) (hnext'.trans hnext.symm) ?_ ?_ (fun x hx hu => ?_) rfl rfl
        fun hl => hl
      · rw [WorkSession.modify, hwork', hwork]
        rfl
      · rw [hlast]
        exact ⟨(hw.counted u).wait, fun hsome => absurd hsome hnot, fun hsome => absurd hsome hnot,
          fun hsome => absurd hsome hnot, fun _ => rfl⟩
      · rw [hlast] at hu
        exact absurd (Option.some.inj hu).symm hx
    · cases hs

end WorkSession

/-! ### Completions -/

/-- How a step changes a work that exists. -/
structure Work.Follows (a : WorkAct) (w : ℕ) (k k' : Work) : Prop where
  sync : k'.sync = k.sync
  caller : k'.caller = k.caller ∨ a = .queue w ∧ k.caller = .new ∨ a = .leave w ∨
    a = .close w ∧ k.caller = .closing
  state : k'.state = k.state ∨ k.state = .pending ∧ k'.state = .busy ∨
    (a = .done w ∨ a = .runUnref w) ∧ k.state = .busy

theorem Work.Follows.of_view {a : WorkAct} {w : ℕ} {k k₁ k' : Work} (h : k₁.Follows a w k')
    (hsync : k₁.sync = k.sync) (hcaller : k₁.caller = k.caller) (hstate : k₁.state = k.state) :
    k.Follows a w k' :=
  ⟨hsync ▸ h.sync, hcaller ▸ h.caller, hstate ▸ h.state⟩

namespace WorkSession

variable {s s' : WorkSession} {w : ℕ} {a : WorkAct}

theorem follows_of_eq {k k' : Work} (h : k' = k) : k.Follows a w k' := by
  rw [h]
  exact ⟨rfl, .inl rfl, .inl rfl⟩

theorem follows_modify {x : ℕ} {f : Work → Work}
    (h : x = w → (s.work w).Follows a w (f (s.work w))) :
    (s.work w).Follows a w ((s.modify x f).work w) := by
  by_cases hx : w = x
  · rw [hx, modify_work_self]
    exact hx ▸ h hx.symm
  · exact follows_of_eq (modify_work_of_ne hx)

theorem workNew_frame (hlt : w < s.nextWork) (cb : WorkCb) (kind : WorkKind) :
    w < (s.workNew cb kind).nextWork ∧ (s.workNew cb kind).work w = s.work w := by
  have hadd : ∀ (t : WorkSession) (k : Work), t.nextWork = s.nextWork → t.work w = s.work w →
      w < (t.addWork k).nextWork ∧ (t.addWork k).work w = s.work w := by
    intro t k hnext ht
    refine ⟨Nat.lt_succ_of_lt (hnext ▸ hlt), ?_⟩
    rw [addWork_work_of_ne (Nat.ne_of_lt (hnext ▸ hlt)), ht]
  cases kind with
  | job => exact hadd s _ rfl rfl
  | detached => exact hadd s _ rfl rfl
  | sync =>
    rw [workNew, takeSync]
    split
    · exact hadd _ _ rfl rfl
    · exact hadd _ _ rfl rfl

/-- **One step** and one work. -/
theorem follows_of_step (hlt : w < s.nextWork) (h : s.step a = some s') :
    w < s'.nextWork ∧ (s.work w).Follows a w (s'.work w) := by
  cases a with
  | new kind =>
    obtain rfl := Option.some.inj h
    obtain ⟨hlt', hsame⟩ := workNew_frame hlt .work kind
    exact ⟨hlt', follows_of_eq hsame⟩
  | queue x =>
    obtain ⟨hnew, h⟩ := Option.ite_none_right_eq_some.mp h
    obtain rfl := Option.some.inj h
    refine ⟨hlt, @follows_modify { s with workQueue := s.workQueue ++ [x] } w _ x _ ?_⟩
    rintro rfl
    exact ⟨rfl, .inr (.inl ⟨rfl, hnew⟩), .inl rfl⟩
  | leave x =>
    obtain ⟨-, h⟩ := Option.ite_none_right_eq_some.mp h
    obtain rfl := Option.some.inj h
    refine ⟨hlt, follows_modify ?_⟩
    rintro rfl
    exact ⟨rfl, .inr (.inr (.inl rfl)), .inl rfl⟩
  | close x =>
    obtain ⟨hclosing, h⟩ := Option.ite_none_right_eq_some.mp h
    obtain rfl := Option.some.inj h
    obtain ⟨hlt', hsame⟩ := @workNew_frame (s.modify x fun k => { k with caller := .left }) w hlt
      (.workUnrefCb x) .detached
    refine ⟨hlt', ?_⟩
    rw [hsame]
    refine follows_modify ?_
    rintro rfl
    exact ⟨rfl, .inr (.inr (.inr ⟨rfl, hclosing⟩)), .inl rfl⟩
  | dequeue =>
    rw [step] at h
    split at h
    next x rest _ _ =>
      obtain rfl := Option.some.inj h
      refine ⟨hlt, @follows_modify { s with workQueue := rest } w _ x _ fun _ => ?_⟩
      dsimp only
      split
      next hpending => exact ⟨rfl, .inl rfl, .inr (.inl ⟨hpending, rfl⟩)⟩
      · exact follows_of_eq rfl
    · cases h
  | done x =>
    obtain ⟨⟨-, hbusy, -⟩, h⟩ := Option.ite_none_right_eq_some.mp h
    obtain rfl := Option.some.inj h
    refine ⟨hlt, @follows_modify { s with unref := some x } w _ x _ ?_⟩
    rintro rfl
    exact ⟨rfl, .inl rfl, .inr (.inr ⟨.inl rfl, hbusy⟩)⟩
  | unref =>
    obtain ⟨x, -, rfl⟩ := Option.map_eq_some_iff.mp h
    obtain ⟨hwork, hnext, -⟩ := { s with unref := none }.workUnref_frame x
    rw [hwork, hnext]
    exact ⟨hlt, @follows_modify s w _ x Work.dropRef fun _ => ⟨rfl, .inl rfl, .inl rfl⟩⟩
  | runUnref u =>
    rw [step] at h
    split at h
    next x _ =>
      obtain ⟨⟨-, hbusy⟩, h⟩ := Option.ite_none_right_eq_some.mp h
      obtain rfl := Option.some.inj h
      obtain ⟨hwork, hnext, -⟩ := { s with unref := some u }.workUnref_frame x
      have hkeep : ∀ {β : Type} (g : Work → β), (∀ k, g k.dropRef = g k) → ∀ y,
          g (({ s with unref := some u }.workUnref x).work y) = g (s.work y) := by
        intro β g hg y
        rw [hwork]
        exact @modify_apply s x Work.dropRef β g (hg _) y
      have hview := hkeep Work.state (fun _ => rfl) u
      refine ⟨hnext.symm ▸ hlt, Work.Follows.of_view (follows_modify ?_)
        (hkeep Work.sync (fun _ => rfl) w) (hkeep Work.caller (fun _ => rfl) w)
        (hkeep Work.state (fun _ => rfl) w)⟩
      rintro rfl
      exact ⟨rfl, .inl rfl, .inr (.inr ⟨.inr rfl, hview.trans hbusy⟩)⟩
    · cases h

end WorkSession

section Reachable

variable {s s' : WorkSession} {w : ℕ} {a : WorkAct}

/-- **Every reachable session** counts its references and has each `sync_t` once. -/
theorem pool_and_refs (h : workMachine.Reachable s) : s.Pool ∧ s.Refs :=
  h.invariant (I := fun s => s.Pool ∧ s.Refs) ⟨.start, .start⟩
    fun _ _ _ hs _ hstep => ⟨hs.1.step hstep, hs.2.step hstep⟩

/-- A thread that waits has its `sync_t` for itself, and only `work_done_` wakes it up. -/
theorem workWait_heard : workWait.Heard where
  stays := by
    intro s a s' w hs hstep hwait hne
    have hcaller : (s.work w).caller = .wait := eq_of_beq hwait
    have hlt : w < s.nextWork := (pool_and_refs hs).2.lt_of_caller (by rw [hcaller]; exact nofun)
    obtain ⟨-, hfollows⟩ := WorkSession.follows_of_step hlt hstep
    refine beq_iff_eq.mpr ?_
    rcases hfollows.caller with hsame | ⟨-, hnew⟩ | rfl | ⟨-, hclosing⟩
    · exact hsame.trans hcaller
    · exact absurd (hcaller.symm.trans hnew) nofun
    · exact absurd rfl hne
    · exact absurd (hcaller.symm.trans hclosing) nofun
  alone := by
    intro s w x hs hw hx hsome heq
    obtain ⟨hpool, hrefs⟩ := pool_and_refs hs
    have hheld : ∀ y, workWait.atWait s y = true → 1 ≤ (s.work y).refCount := by
      intro y hy
      have hcaller : (s.work y).caller = .wait := eq_of_beq hy
      have hk := hrefs.counted y
      exact hk.held (hk.wait hcaller) (by rw [hcaller]; exact nofun)
    obtain ⟨c, hc⟩ := Option.isSome_iff_exists.mp hsome
    exact hpool.alone w x c hc (heq.symm.trans hc) (hheld w hw) (hheld x hx)
  signalled := by
    intro s a s' w hs hstep hw hnot hdone
    have hrefs := (pool_and_refs hs).2
    have hcaller : (s.work w).caller = .wait := eq_of_beq hw
    have hsome := (hrefs.counted w).wait hcaller
    have hnot : (s.work w).state ≠ .done := ne_of_beq_false hnot
    have hdone : (s'.work w).state = .done := eq_of_beq hdone
    obtain ⟨-, hfollows⟩ := WorkSession.follows_of_step (hrefs.lt_of_state hnot) hstep
    rcases hfollows.state with hsame | ⟨-, hbusy⟩ | ⟨rfl | rfl, -⟩
    · exact absurd (hsame.symm.trans hdone) hnot
    · exact absurd (hdone.symm.trans hbusy) nofun
    · exact ⟨hsome, rfl⟩
    · -- a `work_unref_cb` has no `sync_t`
      rw [workMachine] at hstep
      have hcb : ∃ x, (s.work w).cb = .workUnrefCb x := by
        cases hcb : (s.work w).cb with
        | workUnrefCb x => exact ⟨x, rfl⟩
        | work =>
          have hnone : s.step (.runUnref w) = none := by
            rw [WorkSession.step, hcb]
          exact absurd (hnone.symm.trans hstep) nofun
      obtain ⟨x, hcb⟩ := hcb
      rw [(hrefs.closer w x hcb).1] at hsome
      cases hsome

end Reachable

variable {s s' : CondWait.State WorkSession ℕ} {w : ℕ}

/-- A work that is done stays so. -/
theorem done_of_run {acts : List (CondWait.Act WorkAct ℕ)} (hlt : w < s.base.nextWork)
    (hdone : (s.base.work w).state = .done) (h : workWait.machine.run s acts = some s') :
    (s'.base.work w).state = .done := by
  have hstep : ∀ s a s', w < s.base.nextWork ∧ (s.base.work w).state = .done →
      workWait.machine.step s a = some s' →
        w < s'.base.nextWork ∧ (s'.base.work w).state = .done := by
    rintro s a s' ⟨hlt, hdone⟩ hstep
    rcases CondWait.base_eq_or_step hstep with heq | ⟨b, hb⟩
    · rw [heq]
      exact ⟨hlt, hdone⟩
    · obtain ⟨hlt', hfollows⟩ := WorkSession.follows_of_step hlt hb
      refine ⟨hlt', ?_⟩
      rcases hfollows.state with hsame | ⟨hpending, -⟩ | ⟨-, hbusy⟩
      · exact hsame.trans hdone
      · exact absurd (hdone.symm.trans hpending) nofun
      · exact absurd (hdone.symm.trans hbusy) nofun
  exact (Machine.run_invariant hstep ⟨hlt, hdone⟩ h).2

/-- A thread is lost when it has missed the signal of `work_done_`: there is only one. -/
theorem lost_iff {ok : CondWait.State WorkSession ℕ → CondWait.Act WorkAct ℕ → Prop}
    (h : workWait.machine.ReachableWhere ok s) : Lost s w ↔ workWait.Missed s w := by
  constructor
  · rintro ⟨hmem, hdone, -⟩
    exact ⟨hmem, beq_iff_eq.mpr hdone⟩
  · rintro ⟨hmem, hready⟩
    have hdone : (s.base.work w).state = .done := eq_of_beq hready
    have hbase := CondWait.reachable_base h
    have hcaller : (s.base.work w).caller = .wait :=
      eq_of_beq ((CondWait.account workWait_heard h).atWait w (.inl hmem))
    have hlt : w < s.base.nextWork :=
      (pool_and_refs hbase).2.lt_of_caller (by rw [hcaller]; exact nofun)
    refine ⟨hmem, hdone, fun acts s' hrun woke => ?_⟩
    have hstill := done_of_run hlt hdone hrun
    have hnone : s'.base.step (.done w) = none := by
      rw [WorkSession.step, if_neg]
      rintro ⟨-, hbusy, -⟩
      exact absurd (hstill.symm.trans hbusy) nofun
    rw [← Option.not_isSome_iff_eq_none]
    intro hsome
    obtain ⟨s'', hs''⟩ := Option.isSome_iff_exists.mp hsome
    exact absurd ((CondWait.step_act hs'').1.symm.trans hnone) nofun

/-- **Completions are not missed** in any run in which each thread comes to its first
`uv_cond_wait` before its work is done; and a thread that comes later is lost. -/
theorem not_lost_of_inTime (h : workWait.machine.ReachableWhere workWait.InTime s) :
    (∀ w, ¬ Lost s w) ∧ ∀ a s', workWait.machine.step s a = some s' →
      ((∃ w, Lost s' w) ↔ ¬ workWait.InTime s a) := by
  have hbase := CondWait.reachable_base h
  have hacc := CondWait.account workWait_heard h
  have hmissed : ∀ w, ¬ workWait.Missed s w := CondWait.not_missed workWait_heard h
  refine ⟨fun w hlost => hmissed w ((lost_iff h).mp hlost), fun a s' hstep => ?_⟩
  have hs' : workWait.machine.Reachable s' := .next h.reachable trivial hstep
  rw [← CondWait.missed_step_iff workWait_heard hbase hacc hmissed hstep]
  exact exists_congr fun w => lost_iff hs'

/-- The loop thread takes a second. -/
theorem not_lost_of_inTime_call : ∃ s, workWait.machine.runWhere workWait.InTime
      workWait.machine.init [.act (.new .sync) none, .act (.queue 0) none, .act .dequeue none,
        .enter 0, .act (.done 0) (some 0), .act .unref none, .act (.leave 0) none,
        .act (.close 0) none, .act (.queue 1) none, .act .dequeue none,
        .act (.runUnref 1) none] = some s ∧
    (∀ w, ¬ Lost s w) ∧ ∀ a s', workWait.machine.step s a = some s' →
      ((∃ w, Lost s' w) ↔ ¬ workWait.InTime s a) :=
  Machine.exists_runWhere (by decide) fun _ hs => not_lost_of_inTime hs

/-- A work that fails at once is done before its thread waits. -/
theorem lost_at_once : ¬ ∀ s, workWait.machine.Reachable s → ∀ w, ¬ Lost s w := by
  intro h
  obtain ⟨s, hs, hlost⟩ := Machine.exists_reachable_of_any (m := workWait.machine)
    [.act (.new .sync) none, .act (.queue 0) none, .act .dequeue none, .act (.done 0) none,
      .enter 0]
    (fun s => decide (0 ∈ s.waiting) && workWait.ready s.base 0) (by decide)
  rw [Bool.and_eq_true, decide_eq_true_iff] at hlost
  exact h s hs 0 ((lost_iff hs).mpr hlost)

end Usbip.Client
