import Usbip.Ptp.System
import Mathlib.Data.List.Perm.Basic
import Mathlib.Tactic.Common

/-!
# The client URBs that the PTP filter holds back

A read URB of the client waits on `client_queue` for a preview frame, or on `request_queue` for the
end of a preview transaction, as do the client's commands. They leave the queues in two functions:
`ptp_consume_` completes URBs of `client_queue` while the filter is active, and `ptp_produce_`
submits the first URB of `request_queue` if the state allows it.

When the filter becomes bypassed there will be no call of `ptp_consume_` that goes further than its
first test, and no new call of `ptp_produce_`; only calls that are under way come to one. After
`ptp_check_new_session` nothing at all runs any more, because it takes `filter->lock` for good, and
`ptp_remove` frees the filter. A URB that is still on a queue then stays there
(`Stranded.forever`).

The machine `heldUrbs` has the two queues with the client's URBs by number, the state of the filter,
and the calls under way that will take the lock again. How a transfer ends, what the frame buffer
holds and what `ptp_parse` makes of a URB is part of the label. The lock is not modelled otherwise,
so that the passes of `ptp_consume_` interleave with everything; this only adds runs.
-/

namespace Usbip.Ptp.Held

/-- An entry of `request_queue`. -/
inductive Entry
  | selfCmd
  | selfData
  | clientIn (u : ℕ)
  | clientOut (u : ℕ)
  deriving DecidableEq, Repr

/-- The URB of the client. -/
def Entry.urb : Entry → Option ℕ
  | .clientIn u => some u
  | .clientOut u => some u
  | _ => none

def Entry.isClientIn : Entry → Bool
  | .clientIn _ => true
  | _ => false

/-- A call that will take the lock again. -/
inductive Call
  /-- `ptp_consume_` at the top of its loop -/
  | loop (priv : Option ℕ) (pending : Bool)
  /-- `ptp_consume_` has completed a URB and will call `ptp_produce_` -/
  | completed (pending : Bool)
  /-- `ptp_on_tx` has found that the filter is not bypassed, and the end of a response -/
  | onTx
  /-- `ptp_on_tx` has read the state and will change it -/
  | onTxChange (read : FilterState)
  /-- `ptp_on_tx` will call `ptp_produce_` -/
  | onTxProduce
  deriving DecidableEq, Repr

/-- The call comes to `ptp_produce_` in any state. -/
def Call.produces : Call → Bool
  | .loop _ _ => false
  | _ => true

/-- The call sets a state other than `ptpfs_bypassed`. -/
def Call.revives : Call → Bool
  | .onTxChange read => read.afterResponse != .bypassed
  | _ => false

/-- How many steps a call takes before it is done with `ptp_produce_`. -/
def Call.weight : Call → ℕ
  | .loop _ _ => 0
  | .completed _ => 1
  | .onTx => 2
  | .onTxChange _ => 2
  | .onTxProduce => 1

/-- The queues and those who work on them. `ended` is set when the lock has been taken for good or
the filter is gone, to the state before. -/
structure Queues where
  state : FilterState
  frameServing : Bool
  ended : Option FilterState
  arrivals : ℕ
  clientQueue : List ℕ
  requestQueue : List Entry
  calls : List Call

/-- What `ptp_produce_` does with a URB of the filter's own. -/
inductive Own
  /-- it waits -/
  | wait
  | submit
  /-- the buffer is full, and the frame is dropped -/
  | drop
  /-- `ptp_bypass5` -/
  | bypass
  deriving DecidableEq, Repr

/-- How a pass of `ptp_consume_` ends. -/
inductive Copy
  /-- `break` -/
  | stop
  /-- `ptp_bypass3` -/
  | bypass
  /-- the URB has room left and the container goes on -/
  | more
  /-- the URB is completed; `last` if the frame is -/
  | full (last : Bool)
  deriving DecidableEq, Repr

/-- The steps, named by who moves. -/
inductive Act
  /-- `ptp_on_rx` with a read URB -/
  | readUrb
  /-- `ptp_on_rx` with a preview command -/
  | preview
  /-- `ptp_on_rx` with another command -/
  | command
  /-- `ptp_check_new_session` -/
  | newSession
  /-- `ptp_remove` -/
  | remove
  /-- any other way to `ptpfs_bypassed`: `ptp_parse`, an error of a URB, an invalid container -/
  | bypass
  /-- `ptp_timer` -/
  | timer (own : Own)
  /-- `ptp_data_complete`, for the last transfer of a frame with the state that is set -/
  | dataComplete (done : Option FilterState) (own : Own)
  /-- `ptp_on_tx` at the end of a response -/
  | onTx
  /-- the `i`-th call goes on -/
  | resume (i : ℕ) (copy : Copy) (own : Own)

namespace Queues

variable (q : Queues)

/-- The client URBs on the queues. -/
def held : List ℕ := q.clientQueue ++ q.requestQueue.filterMap Entry.urb

/-- The calls that will come to `ptp_produce_`. -/
def producers : ℕ := q.calls.countP Call.produces

/-! ### The filter's functions -/

/-- `ptp_change_state_`: going to sleep takes the preview commands off `request_queue`. -/
def changeState (s : FilterState) : Queues :=
  { q with
    state := s
    requestQueue := if s = .sleep then q.requestQueue.filter fun e => e ≠ .selfCmd
      else q.requestQueue }

/-- The state in which a command of the client waits for its response. -/
def afterCommand : FilterState → Option FilterState
  | .idle => some .command
  | .sleep => some .sleepWait
  | .active => some .wait
  | _ => none

/-- `ptp_produce_` with a URB that is not on `request_queue`. -/
def produce (e : Entry) (own : Own) : Queues :=
  let wait := { q with requestQueue := q.requestQueue ++ [e] }
  match e with
  | .selfCmd =>
    if q.state = .sleep ∨ q.state = .active ∧ own = .submit then q.changeState .busy else wait
  | .selfData =>
    match own with
    | .wait => wait
    | .submit => q
    | .drop => q.changeState .drop
    | .bypass => q.changeState .bypassed
  | .clientIn _ => if q.state ≠ .busy ∧ q.state ≠ .drop then q else wait
  | .clientOut _ =>
    match afterCommand q.state with
    | some s => q.changeState s
    | none => wait

/-- `ptp_produce_` with the first URB on `request_queue`. -/
def produceFirst (own : Own) : Queues :=
  match q.requestQueue with
  | [] => q
  | e :: rest =>
    let taken := { q with requestQueue := rest }
    match e with
    | .selfCmd =>
      if q.state = .sleep ∨ q.state = .active ∧ own = .submit then taken.changeState .busy else q
    | .selfData =>
      match own with
      | .wait => q
      | .submit => taken
      | .drop => taken.changeState .drop
      | .bypass => q.changeState .bypassed
    | .clientIn _ => if q.state ≠ .busy ∧ q.state ≠ .drop then taken else q
    | .clientOut _ =>
      match afterCommand q.state with
      | some s => taken.changeState s
      | none => q

/-- A call is under way. -/
def call (c : Call) : Queues := { q with calls := q.calls ++ [c] }

/-- One pass of the loop of `ptp_consume_`. -/
def pass (priv : Option ℕ) (pending : Bool) (copy : Copy) (own : Own) : Queues :=
  if ¬ q.state.Filtering then { q with frameServing := false }
  else
    match priv.or q.clientQueue.head? with
    | none => q
    | some u =>
      let pending := pending || priv.isNone
      match copy with
      | .stop => if pending then q else { q with clientQueue := q.clientQueue ++ [u] }
      | .bypass => q.changeState .bypassed
      | .more => (q.produceFirst own).call (.loop (some u) pending)
      | .full last =>
        { q with
          clientQueue := if pending then q.clientQueue.erase u else q.clientQueue
          frameServing := q.frameServing && !last }.call (.completed pending)

/-- A call has the lock again. -/
def goOn (c : Call) (copy : Copy) (own : Own) : Queues :=
  match c with
  | .loop priv pending => q.pass priv pending copy own
  | .completed pending => (q.produceFirst own).call (.loop none pending)
  | .onTx =>
    if q.state.afterResponse ≠ q.state then q.call (.onTxChange q.state) else q.call .onTxProduce
  | .onTxChange read => (q.changeState read.afterResponse).call .onTxProduce
  | .onTxProduce => q.produceFirst own

/-- `ptp_on_rx` with a read URB. -/
def readUrb : Queues :=
  let q' := { q with arrivals := q.arrivals + 1 }
  if q.frameServing then q'.call (.loop (some q.arrivals) false)
  else if q.state.Filtering then q'.produce (.clientIn q.arrivals) .wait
  else q'

/-- `ptp_on_rx` with a preview command. -/
def preview : Queues :=
  if q.state = .idle ∨ q.state = .sleep then { q with frameServing := true }.changeState .active
  else if q.state.Filtering ∧ q.frameServing = false then { q with frameServing := true }
  else q.changeState .bypassed

/-- `ptp_on_rx` with another command. -/
def command : Queues :=
  let q' := { q with arrivals := q.arrivals + 1 }
  match afterCommand q.state with
  | some s => q'.changeState s
  | none =>
    if q.state = .drop ∨ q.state = .busy then
      { q' with requestQueue := q.requestQueue ++ [.clientOut q.arrivals] }
    else q'.changeState .bypassed

/-- The lock is not released any more. -/
def finish : Queues := { q.changeState .idle with ended := some q.state }

/-- `ptp_timer` -/
def timer (own : Own) : Queues :=
  if ¬ q.state.Filtering ∨ q.state = .drop ∨ q.state = .sleep ∨ q.state = .sleepWait then q
  else q.produce .selfCmd own

/-- `ptp_data_complete`; `done` is the state after the last transfer of a frame. -/
def dataComplete (done : Option FilterState) (own : Own) : Queues :=
  match done with
  | none => (q.produce .selfData own).call (.loop none false)
  | some s => ((q.changeState s).produceFirst own).call (.loop none false)

/-- One step. -/
def step (q : Queues) (a : Act) : Option Queues :=
  if q.ended.isSome then none
  else
    match a with
    | .readUrb => some q.readUrb
    | .preview => some q.preview
    | .command => some q.command
    | .newSession => some q.finish
    | .remove => some q.finish
    | .bypass => some (q.changeState .bypassed)
    | .timer own => some (q.timer own)
    | .dataComplete done own =>
      if (q.state = .busy ∨ q.state = .drop) ∧ (∀ s ∈ done, s = .sleep ∨ s = .active) then
        some (q.dataComplete done own)
      else none
    | .onTx => if q.state ≠ .bypassed then some (q.call .onTx) else none
    | .resume i copy own =>
      match q.calls[i]? with
      | some c => some ({ q with calls := q.calls.eraseIdx i }.goOn c copy own)
      | none => none

/-! ### What may become of the held URBs -/

/-- A client URB is on a queue, and nobody is left to take it off. -/
def Stranded (u : ℕ) : Prop :=
  u ∈ q.held ∧
    (q.ended = none ∧ q.state = .bypassed ∧ q.producers = 0 ∨
      ∃ s ∈ q.ended, s.Filtering ∨ s = .bypassed)

/-- The calls under way are enough for the client URBs on the queues: these are read URBs at the
front of `request_queue`, no more than there are calls that come to `ptp_produce_`. -/
def Draining : Prop :=
  q.clientQueue = [] ∧ (∀ e ∈ q.requestQueue.dropWhile Entry.isClientIn, e.urb = none) ∧
    (q.requestQueue.takeWhile Entry.isClientIn).length ≤ q.producers

instance : Decidable q.Draining := by
  unfold Draining
  infer_instance

/-- `ptp_on_tx` is about to set another state. -/
def Reviving : Prop := ∃ c ∈ q.calls, c.revives = true

instance : Decidable q.Reviving := by
  unfold Reviving
  infer_instance

end Queues

/-- The machine of the queues, from `ptp_probe` on. -/
def heldUrbs : Machine Queues Act where
  init := ⟨.idle, false, none, 0, [], [], []⟩
  step := Queues.step

/-- The condition on a step. One that bypasses the filter leaves no URB behind that the calls under
way will not submit; one after which nothing runs leaves none at all. -/
def Releases (q : Queues) (a : Act) : Prop :=
  ∀ q' ∈ q.step a,
    (q.state ≠ .bypassed → q'.state = .bypassed → q.Draining ∨ q.Reviving) ∧
      (q'.ended.isSome → q.state.Filtering ∨ q.state = .bypassed → q.held = [])

instance (q : Queues) (a : Act) : Decidable (Releases q a) := by
  unfold Releases
  infer_instance

/-! ### Queues that drain -/

/-- `n` calls of `ptp_produce_` are enough for the client URBs on `request_queue`. -/
def Drains (n : ℕ) (l : List Entry) : Prop :=
  ∃ front back, l = front ++ back ∧ (∀ e ∈ front, e.isClientIn = true) ∧
    (∀ e ∈ back, e.urb = none) ∧ front.length ≤ n

theorem Entry.isClientIn_eq_false {e : Entry} (h : e.urb = none) : e.isClientIn = false := by
  cases e with
  | selfCmd => rfl
  | selfData => rfl
  | clientIn u => cases h
  | clientOut u => cases h

namespace Drains

variable {n k : ℕ} {l : List Entry} {e : Entry}

theorem mono (h : Drains n l) (hle : n ≤ k) : Drains k l := by
  obtain ⟨front, back, hl, hfront, hback, hlen⟩ := h
  exact ⟨front, back, hl, hfront, hback, hlen.trans hle⟩

/-- A URB of the filter's own waits behind the others. -/
theorem append_own (h : Drains n l) (he : e.urb = none) : Drains n (l ++ [e]) := by
  obtain ⟨front, back, rfl, hfront, hback, hlen⟩ := h
  refine ⟨front, back ++ [e], List.append_assoc .., hfront, fun x hx => ?_, hlen⟩
  rcases List.mem_append.mp hx with hx | hx
  · exact hback x hx
  · rwa [List.mem_singleton.mp hx]

/-- The filter takes URBs of its own off the queue. -/
theorem filter (h : Drains n l) (p : Entry → Bool) (hp : ∀ e, e.isClientIn = true → p e = true) :
    Drains n (l.filter p) := by
  obtain ⟨front, back, rfl, hfront, hback, hlen⟩ := h
  refine ⟨front, back.filter p, ?_, hfront, fun x hx => hback x (List.mem_of_mem_filter hx), hlen⟩
  rw [List.filter_append, List.filter_eq_self.mpr fun x hx => hp x (hfront x hx)]

/-- The first read URB is submitted. -/
theorem tail {u : ℕ} (h : Drains (n + 1) (.clientIn u :: l)) : Drains n l := by
  obtain ⟨front, back, hl, hfront, hback, hlen⟩ := h
  cases front with
  | nil =>
    obtain rfl : .clientIn u :: l = back := hl
    have hnone := hback (.clientIn u) List.mem_cons_self
    cases hnone
  | cons x front =>
    obtain ⟨-, rfl⟩ := List.cons.inj hl
    exact ⟨front, back, rfl, fun y hy => hfront y (List.mem_cons_of_mem x hy), hback,
      Nat.le_of_succ_le_succ hlen⟩

/-- Behind anything else there is no URB of the client. -/
theorem zero_of_cons (h : Drains n (e :: l)) (he : e.isClientIn = false) :
    Drains 0 (e :: l) ∧ Drains 0 l := by
  obtain ⟨front, back, hl, hfront, hback, -⟩ := h
  cases front with
  | nil =>
    obtain rfl : e :: l = back := hl
    exact ⟨⟨[], _, rfl, fun _ hx => absurd hx List.not_mem_nil, hback, le_rfl⟩,
      ⟨[], l, rfl, fun _ hx => absurd hx List.not_mem_nil,
        fun x hx => hback x (List.mem_cons_of_mem e hx), le_rfl⟩⟩
  | cons x front =>
    obtain ⟨rfl, -⟩ := List.cons.inj hl
    have htrue := hfront e List.mem_cons_self
    rw [he] at htrue
    exact Bool.noConfusion htrue

end Drains

namespace Queues

variable {q q' : Queues}

theorem draining_iff : q.Draining ↔ q.clientQueue = [] ∧ Drains q.producers q.requestQueue := by
  refine and_congr_right fun _ => ?_
  constructor
  · rintro ⟨hback, hlen⟩
    exact ⟨_, _, List.takeWhile_append_dropWhile.symm,
      fun e he => List.mem_takeWhile_imp he, hback, hlen⟩
  · rintro ⟨front, back, hl, hfront, hback, hlen⟩
    have htake : back.takeWhile Entry.isClientIn = [] := by
      cases back with
      | nil => rfl
      | cons e back =>
        rw [List.takeWhile_cons, Entry.isClientIn_eq_false (hback e List.mem_cons_self)]
        rfl
    have hdrop : back.dropWhile Entry.isClientIn = back := by
      have happend := List.takeWhile_append_dropWhile (p := Entry.isClientIn) (l := back)
      rwa [htake, List.nil_append] at happend
    rw [hl, List.dropWhile_append_of_pos hfront, List.takeWhile_append_of_pos hfront, hdrop, htake,
      List.append_nil]
    exact ⟨hback, hlen⟩

/-! ### What the functions do to the queues of a bypassed filter -/

theorem changeState_drains {n : ℕ} (s : FilterState) (h : Drains n q.requestQueue) :
    Drains n (q.changeState s).requestQueue := by
  rw [changeState]
  split
  · refine h.filter _ fun e he => ?_
    cases e with
    | clientIn u => rfl
    | selfCmd => cases he
    | selfData => cases he
    | clientOut u => cases he
  · exact h

/-- A call of `ptp_produce_` after which the filter is bypassed: a read URB at the front has been
submitted. -/
theorem produceFirst_drains {n : ℕ} {own : Own} (hstate : (q.produceFirst own).state = .bypassed)
    (h : Drains (n + 1) q.requestQueue) : Drains n (q.produceFirst own).requestQueue := by
  cases hqueue : q.requestQueue with
  | nil =>
    simp only [produceFirst, hqueue]
    exact ⟨[], [], rfl, fun _ hx => absurd hx List.not_mem_nil,
      fun _ hx => absurd hx List.not_mem_nil, Nat.zero_le n⟩
  | cons e rest =>
    rw [hqueue] at h
    simp only [produceFirst, hqueue] at hstate ⊢
    cases e with
    | selfCmd =>
      obtain ⟨hall, -⟩ := h.zero_of_cons rfl
      dsimp only at hstate ⊢
      split at hstate
      · cases hstate
      next hwait =>
        rw [if_neg hwait, hqueue]
        exact hall.mono (Nat.zero_le n)
    | selfData =>
      obtain ⟨hall, hrest⟩ := h.zero_of_cons rfl
      cases own with
      | wait =>
        dsimp only
        rw [hqueue]
        exact hall.mono (Nat.zero_le n)
      | submit => exact hrest.mono (Nat.zero_le n)
      | drop => cases hstate
      | bypass =>
        refine changeState_drains _ ?_
        rw [hqueue]
        exact hall.mono (Nat.zero_le n)
    | clientIn u =>
      dsimp only at hstate ⊢
      split at hstate
      next hfree =>
        rw [if_pos hfree]
        exact h.tail
      next hbusy =>
        rw [hstate] at hbusy
        exact absurd ⟨nofun, nofun⟩ hbusy
    | clientOut u =>
      obtain ⟨hall, hrest⟩ := h.zero_of_cons rfl
      dsimp only
      split
      · exact changeState_drains _ (hrest.mono (Nat.zero_le n))
      · rw [hqueue]
        exact hall.mono (Nat.zero_le n)

/-- Neither `client_queue` nor the calls under way are touched, and the lock is not lost. -/
structure SameRest (q q' : Queues) : Prop where
  clientQueue : q'.clientQueue = q.clientQueue
  calls : q'.calls = q.calls
  ended : q'.ended = q.ended

theorem produceFirst_rest (own : Own) : SameRest q (q.produceFirst own) := by
  rw [produceFirst]
  split
  · exact ⟨rfl, rfl, rfl⟩
  next e rest hqueue =>
    cases e with
    | selfCmd =>
      dsimp only
      split
      · exact ⟨rfl, rfl, rfl⟩
      · exact ⟨rfl, rfl, rfl⟩
    | selfData => cases own <;> exact ⟨rfl, rfl, rfl⟩
    | clientIn u =>
      dsimp only
      split
      · exact ⟨rfl, rfl, rfl⟩
      · exact ⟨rfl, rfl, rfl⟩
    | clientOut u =>
      dsimp only
      split
      · exact ⟨rfl, rfl, rfl⟩
      · exact ⟨rfl, rfl, rfl⟩

theorem produce_rest (e : Entry) (own : Own) : SameRest q (q.produce e own) := by
  cases e with
  | selfCmd =>
    rw [produce]
    split
    · exact ⟨rfl, rfl, rfl⟩
    · exact ⟨rfl, rfl, rfl⟩
  | selfData => cases own <;> exact ⟨rfl, rfl, rfl⟩
  | clientIn u =>
    rw [produce]
    split
    · exact ⟨rfl, rfl, rfl⟩
    · exact ⟨rfl, rfl, rfl⟩
  | clientOut u =>
    rw [produce]
    split
    · exact ⟨rfl, rfl, rfl⟩
    · exact ⟨rfl, rfl, rfl⟩

/-- A URB that is not on `request_queue` yet: one of the filter's own may have to wait there. -/
theorem produce_drains {n : ℕ} {e : Entry} {own : Own} (he : e.urb = none)
    (h : Drains n q.requestQueue) : Drains n (q.produce e own).requestQueue := by
  cases e with
  | selfCmd =>
    rw [produce]
    split
    · exact changeState_drains _ h
    · exact h.append_own he
  | selfData =>
    cases own with
    | wait => exact h.append_own he
    | submit => exact h
    | drop => exact changeState_drains _ h
    | bypass => exact changeState_drains _ h
  | clientIn u => cases he
  | clientOut u => cases he

/-- A read URB only waits during a preview transaction. -/
theorem produce_clientIn (u : ℕ) (own : Own)
    (hstate : (q.produce (.clientIn u) own).state = .bypassed) :
    q.produce (.clientIn u) own = q := by
  rw [produce] at hstate ⊢
  split at hstate
  next hfree => rw [if_pos hfree]
  next hbusy =>
    dsimp only at hstate
    rw [hstate] at hbusy
    exact absurd ⟨nofun, nofun⟩ hbusy

/-! ### One step -/

/-- What holds of the held URBs before a step that leaves the filter bypassed holds after it. -/
structure Keeps (q q' : Queues) : Prop where
  draining : q.Draining → q'.Draining
  calls : ∀ c ∈ q.calls, c.revives = true → c ∈ q'.calls

theorem Keeps.trans {q₁ q₂ q₃ : Queues} (h : Keeps q₁ q₂) (h' : Keeps q₂ q₃) : Keeps q₁ q₃ :=
  ⟨fun hd => h'.draining (h.draining hd), fun c hc hr => h'.calls c (h.calls c hc hr) hr⟩

/-- No call ends. -/
theorem keeps_of_queues (hclient : q'.clientQueue = q.clientQueue)
    (hqueue : Drains q.producers q.requestQueue → Drains q.producers q'.requestQueue)
    (hcalls : q.calls.Sublist q'.calls) : Keeps q q' where
  draining := fun h => by
    rw [draining_iff] at h ⊢
    exact ⟨hclient.trans h.1, (hqueue h.2).mono (hcalls.countP_le)⟩
  calls := fun c hc _ => hcalls.subset hc

theorem call_keeps (c : Call) : Keeps q (q.call c) :=
  keeps_of_queues rfl id (List.sublist_append_left ..)

theorem changeState_keeps (s : FilterState) : Keeps q (q.changeState s) :=
  keeps_of_queues rfl (changeState_drains s) (List.Sublist.refl _)

theorem produce_keeps {e : Entry} {own : Own} (he : e.urb = none) : Keeps q (q.produce e own) := by
  obtain ⟨hclient, hcalls, -⟩ := produce_rest (q := q) e own
  exact keeps_of_queues hclient (produce_drains he) (hcalls ▸ List.Sublist.refl _)

theorem produceFirst_keeps {own : Own} (hstate : (q.produceFirst own).state = .bypassed) :
    Keeps q (q.produceFirst own) := by
  obtain ⟨hclient, hcalls, -⟩ := produceFirst_rest (q := q) own
  exact keeps_of_queues hclient (fun h => produceFirst_drains hstate (h.mono (Nat.le_succ _)))
    (hcalls ▸ List.Sublist.refl _)

theorem pass_keeps {priv : Option ℕ} {pending : Bool} {copy : Copy} {own : Own}
    (hstate : (q.pass priv pending copy own).state = .bypassed) :
    Keeps q (q.pass priv pending copy own) := by
  rw [pass] at hstate ⊢
  split at hstate
  next hoff =>
    rw [if_pos hoff]
    exact keeps_of_queues rfl id (List.Sublist.refl _)
  next hon =>
    rw [if_neg hon]
    split at hstate
    next hnone => exact keeps_of_queues rfl id (List.Sublist.refl _)
    next u hsome =>
      -- a pass that copies is made in an active filter, and stays there
      have hactive : q.state ≠ .bypassed := by
        intro h
        rw [h] at hon
        exact hon (by decide)
      cases copy with
      | stop =>
        dsimp only at hstate
        split at hstate
        · exact absurd hstate hactive
        · exact absurd hstate hactive
      | bypass => exact changeState_keeps _
      | more => exact (produceFirst_keeps hstate).trans (call_keeps _)
      | full last => exact absurd hstate hactive

theorem dataComplete_keeps {done : Option FilterState} {own : Own}
    (hstate : (q.dataComplete done own).state = .bypassed) : Keeps q (q.dataComplete done own) := by
  cases done with
  | none => exact (produce_keeps rfl).trans (call_keeps _)
  | some s => exact ((changeState_keeps s).trans (produceFirst_keeps hstate)).trans (call_keeps _)

/-- A call that goes on is off the list. -/
def take (q : Queues) (i : ℕ) : Queues := { q with calls := q.calls.eraseIdx i }

theorem producers_take {i : ℕ} {c : Call} (hc : q.calls[i]? = some c) :
    q.producers = (q.take i).producers + if c.produces then 1 else 0 := by
  obtain ⟨hi, rfl⟩ := List.getElem?_eq_some_iff.mp hc
  rw [producers, ← (List.getElem_cons_eraseIdx_perm hi).countP_eq, List.countP_cons]
  rfl

theorem mem_take {i : ℕ} {c c' : Call} (hc : q.calls[i]? = some c) (hc' : c' ∈ q.calls) :
    c' = c ∨ c' ∈ (q.take i).calls := by
  obtain ⟨hi, rfl⟩ := List.getElem?_eq_some_iff.mp hc
  exact List.mem_cons.mp ((List.getElem_cons_eraseIdx_perm hi).mem_iff.mpr hc')

/-- A call of `ptp_produce_` that was counted comes to pass. -/
theorem produced_keeps {i : ℕ} {c : Call} {own : Own} (hc : q.calls[i]? = some c)
    (hproduces : c.produces = true) (hrevives : c.revives = false)
    (hstate : ((q.take i).produceFirst own).state = .bypassed) :
    Keeps q ((q.take i).produceFirst own) := by
  obtain ⟨hclient, hcalls, -⟩ := produceFirst_rest (q := q.take i) own
  have hcount : ((q.take i).produceFirst own).producers = (q.take i).producers := by
    rw [producers, hcalls, producers]
  constructor
  · intro h
    rw [draining_iff] at h ⊢
    rw [producers_take hc, if_pos hproduces] at h
    rw [hcount]
    exact ⟨hclient.trans h.1, produceFirst_drains hstate h.2⟩
  · intro c' hc' hr
    rcases mem_take hc hc' with rfl | hmem
    · rw [hrevives] at hr
      exact Bool.noConfusion hr
    · exact hcalls ▸ hmem

/-- A call is replaced by another one that counts. -/
theorem replaced_keeps {i : ℕ} {c c' : Call} (hc : q.calls[i]? = some c)
    (hproduces : c'.produces = true) (hrevives : c.revives = false) :
    Keeps q ((q.take i).call c') := by
  have hcount : q.producers ≤ ((q.take i).call c').producers := by
    have hone : ([c'] : List Call).countP Call.produces = 1 := by
      simp [hproduces]
    rw [producers_take hc, producers, producers, call, List.countP_append, hone]
    split <;> omega
  constructor
  · intro h
    rw [draining_iff] at h ⊢
    exact ⟨h.1, h.2.mono hcount⟩
  · intro x hx hr
    rcases mem_take hc hx with rfl | hmem
    · rw [hrevives] at hr
      exact Bool.noConfusion hr
    · exact List.mem_append_left _ hmem

theorem goOn_keeps {i : ℕ} {c : Call} {copy : Copy} {own : Own} (hc : q.calls[i]? = some c)
    (hstate : ((q.take i).goOn c copy own).state = .bypassed) :
    Keeps q ((q.take i).goOn c copy own) := by
  cases c with
  | loop priv pending =>
    have htake : Keeps q (q.take i) := by
      constructor
      · intro h
        rw [draining_iff] at h ⊢
        rwa [producers_take hc] at h
      · intro x hx hr
        rcases mem_take hc hx with rfl | hmem
        · cases hr
        · exact hmem
    exact htake.trans (pass_keeps hstate)
  | completed pending => exact (produced_keeps hc rfl rfl hstate).trans (call_keeps _)
  | onTx =>
    rw [goOn]
    split
    · exact replaced_keeps hc rfl rfl
    · exact replaced_keeps hc rfl rfl
  | onTxChange read =>
    have hread : read.afterResponse = .bypassed := hstate
    have hrevives : (Call.onTxChange read).revives = false := by
      rw [Call.revives, hread]
      rfl
    exact (replaced_keeps hc rfl hrevives).trans (changeState_keeps _)
  | onTxProduce => exact produced_keeps hc rfl rfl hstate

/-- **The step lemma.** -/
theorem step_keeps {a : Act} (hstep : q.step a = some q') (hended : q'.ended = none)
    (hstate : q'.state = .bypassed) : Keeps q q' := by
  obtain ⟨-, hstep⟩ := Option.ite_none_left_eq_some.mp hstep
  have hrefl : Keeps q q := keeps_of_queues rfl id (List.Sublist.refl _)
  cases a with
  | readUrb =>
    obtain rfl := Option.some.inj hstep
    have harrive : Keeps q { q with arrivals := q.arrivals + 1 } :=
      keeps_of_queues rfl id (List.Sublist.refl _)
    rw [readUrb] at hstate ⊢
    split at hstate
    next hserving =>
      rw [if_pos hserving]
      exact harrive.trans (call_keeps _)
    next hserving =>
      rw [if_neg hserving]
      split at hstate
      next hon =>
        rw [if_pos hon, produce_clientIn _ _ hstate]
        exact harrive
      next hoff =>
        rw [if_neg hoff]
        exact harrive
  | preview =>
    obtain rfl := Option.some.inj hstep
    rw [preview] at hstate ⊢
    split at hstate
    · cases hstate
    next hidle =>
      rw [if_neg hidle]
      split
      · exact keeps_of_queues rfl id (List.Sublist.refl _)
      · exact changeState_keeps _
  | command =>
    obtain rfl := Option.some.inj hstep
    have harrive : Keeps q { q with arrivals := q.arrivals + 1 } :=
      keeps_of_queues rfl id (List.Sublist.refl _)
    rw [command] at hstate ⊢
    split at hstate
    next s hs => exact harrive.trans (changeState_keeps s)
    next hs =>
      dsimp only at hstate ⊢
      split at hstate
      next hbusy =>
        dsimp only at hstate
        rw [hstate] at hbusy
        rcases hbusy with hbusy | hbusy <;> cases hbusy
      next hbusy =>
        rw [if_neg hbusy]
        exact harrive.trans (changeState_keeps _)
  | newSession =>
    obtain rfl := Option.some.inj hstep
    cases hended
  | remove =>
    obtain rfl := Option.some.inj hstep
    cases hended
  | bypass =>
    obtain rfl := Option.some.inj hstep
    exact changeState_keeps _
  | timer own =>
    obtain rfl := Option.some.inj hstep
    rw [timer]
    split
    · exact hrefl
    · exact produce_keeps rfl
  | dataComplete done own =>
    obtain ⟨-, hstep⟩ := Option.ite_none_right_eq_some.mp hstep
    obtain rfl := Option.some.inj hstep
    exact dataComplete_keeps hstate
  | onTx =>
    obtain ⟨-, hstep⟩ := Option.ite_none_right_eq_some.mp hstep
    obtain rfl := Option.some.inj hstep
    exact call_keeps _
  | resume i copy own =>
    dsimp only at hstep
    split at hstep
    next c hc =>
      obtain rfl := Option.some.inj hstep
      exact goOn_keeps hc hstate
    · cases hstep

theorem pass_ended (priv : Option ℕ) (pending : Bool) (copy : Copy) (own : Own) :
    (q.pass priv pending copy own).ended = q.ended := by
  rw [pass]
  split
  · rfl
  split
  · rfl
  next u hsome =>
    cases copy with
    | stop =>
      dsimp only
      split
      · rfl
      · rfl
    | bypass => rfl
    | more => exact (produceFirst_rest own).ended
    | full last => rfl

theorem goOn_ended (c : Call) (copy : Copy) (own : Own) : (q.goOn c copy own).ended = q.ended := by
  cases c with
  | loop priv pending => exact pass_ended ..
  | completed pending => exact (produceFirst_rest own).ended
  | onTx =>
    rw [goOn]
    split
    · rfl
    · rfl
  | onTxChange read => rfl
  | onTxProduce => exact (produceFirst_rest own).ended

/-- Only two steps take the lock for good. -/
theorem ended_or_finish {a : Act} (hstep : q.step a = some q') :
    q.ended = none ∧ (q'.ended = none ∨ q' = q.finish) := by
  obtain ⟨hended, hstep⟩ := Option.ite_none_left_eq_some.mp hstep
  have hnone : q.ended = none := by simpa using hended
  refine ⟨hnone, ?_⟩
  cases a with
  | readUrb =>
    obtain rfl := Option.some.inj hstep
    left
    rw [readUrb]
    split
    · exact hnone
    split
    · exact (produce_rest _ _).ended.trans hnone
    · exact hnone
  | preview =>
    obtain rfl := Option.some.inj hstep
    left
    rw [preview]
    split
    · exact hnone
    split
    · exact hnone
    · exact hnone
  | command =>
    obtain rfl := Option.some.inj hstep
    left
    rw [command]
    split
    · exact hnone
    dsimp only
    split
    · exact hnone
    · exact hnone
  | newSession => exact Or.inr (Option.some.inj hstep).symm
  | remove => exact Or.inr (Option.some.inj hstep).symm
  | bypass =>
    obtain rfl := Option.some.inj hstep
    exact Or.inl hnone
  | timer own =>
    obtain rfl := Option.some.inj hstep
    left
    rw [timer]
    split
    · exact hnone
    · exact (produce_rest _ _).ended.trans hnone
  | dataComplete done own =>
    obtain ⟨-, hstep⟩ := Option.ite_none_right_eq_some.mp hstep
    obtain rfl := Option.some.inj hstep
    left
    cases done with
    | none => exact (produce_rest _ _).ended.trans hnone
    | some s => exact (produceFirst_rest own).ended.trans hnone
  | onTx =>
    obtain ⟨-, hstep⟩ := Option.ite_none_right_eq_some.mp hstep
    obtain rfl := Option.some.inj hstep
    exact Or.inl hnone
  | resume i copy own =>
    dsimp only at hstep
    split at hstep
    next c hc =>
      obtain rfl := Option.some.inj hstep
      exact Or.inl ((goOn_ended c copy own).trans hnone)
    · cases hstep

/-! ### Stranded for good -/

theorem produces_eq_false (hzero : q.producers = 0) {c : Call} (hc : c ∈ q.calls) :
    c.produces = false := by
  have hall := List.countP_eq_zero.mp hzero c hc
  simpa using hall

/-- Without a call that comes to `ptp_produce_`, nothing changes in a bypassed filter but the
test of `ptp_consume_`, and the end of everything. -/
theorem held_of_step {a : Act} (hstate : q.state = .bypassed) (hzero : q.producers = 0)
    (hstep : q.step a = some q') :
    q'.held = q.held ∧ (q'.ended = some .bypassed ∨
      q'.ended = q.ended ∧ q'.state = .bypassed ∧ q'.producers = 0) := by
  obtain ⟨hended, hstep⟩ := Option.ite_none_left_eq_some.mp hstep
  have hoff : ¬ q.state.Filtering := by
    rw [hstate]
    decide
  have hfinish : q.finish.held = q.held ∧ q.finish.ended = some .bypassed := by
    refine ⟨rfl, ?_⟩
    rw [finish, hstate]
  cases a with
  | readUrb =>
    obtain rfl := Option.some.inj hstep
    rw [readUrb]
    split
    · refine ⟨rfl, Or.inr ⟨rfl, hstate, ?_⟩⟩
      rw [producers, call, List.countP_append]
      exact congrArg (· + 0) hzero
    · exact ⟨rfl, Or.inr ⟨rfl, hstate, hzero⟩⟩
  | preview =>
    obtain rfl := Option.some.inj hstep
    rw [preview, if_neg (by simp [hstate]), if_neg fun h => hoff h.1]
    exact ⟨rfl, Or.inr ⟨rfl, rfl, hzero⟩⟩
  | command =>
    obtain rfl := Option.some.inj hstep
    rw [command, hstate]
    exact ⟨rfl, Or.inr ⟨rfl, rfl, hzero⟩⟩
  | newSession =>
    obtain rfl := Option.some.inj hstep
    exact ⟨hfinish.1, Or.inl hfinish.2⟩
  | remove =>
    obtain rfl := Option.some.inj hstep
    exact ⟨hfinish.1, Or.inl hfinish.2⟩
  | bypass =>
    obtain rfl := Option.some.inj hstep
    exact ⟨rfl, Or.inr ⟨rfl, rfl, hzero⟩⟩
  | timer own =>
    obtain rfl := Option.some.inj hstep
    rw [timer, if_pos (Or.inl hoff)]
    exact ⟨rfl, Or.inr ⟨rfl, hstate, hzero⟩⟩
  | dataComplete done own =>
    obtain ⟨⟨hbusy, -⟩, -⟩ := Option.ite_none_right_eq_some.mp hstep
    rw [hstate] at hbusy
    rcases hbusy with hbusy | hbusy <;> cases hbusy
  | onTx =>
    obtain ⟨hne, -⟩ := Option.ite_none_right_eq_some.mp hstep
    exact absurd hstate hne
  | resume i copy own =>
    dsimp only at hstep
    split at hstep
    next c hc =>
      obtain rfl := Option.some.inj hstep
      have hproduces := produces_eq_false hzero (List.mem_of_getElem? hc)
      cases c with
      | loop priv pending =>
        have htake := producers_take hc
        rw [hzero] at htake
        rw [goOn, pass, if_pos hoff]
        exact ⟨rfl, Or.inr ⟨rfl, hstate, htake.symm⟩⟩
      | completed pending => cases hproduces
      | onTx => cases hproduces
      | onTxChange read => cases hproduces
      | onTxProduce => cases hproduces
    · cases hstep

/-- What is stranded stays so, whatever happens. -/
theorem Stranded.forever {u : ℕ} {as : List Act} (h : q.Stranded u)
    (hrun : heldUrbs.run q as = some q') : q'.Stranded u := by
  have hkept : ∀ q a q', q.Stranded u → heldUrbs.step q a = some q' → q'.Stranded u := by
    rintro q a q' ⟨hu, hlost⟩ hstep
    rcases hlost with ⟨hended, hstate, hzero⟩ | ⟨s, hs, -⟩
    · obtain ⟨hheld, hlost | ⟨hended', hstate', hzero'⟩⟩ := held_of_step hstate hzero hstep
      · exact ⟨hheld ▸ hu, Or.inr ⟨.bypassed, hlost, Or.inr rfl⟩⟩
      · exact ⟨hheld ▸ hu, Or.inl ⟨hended'.trans hended, hstate', hzero'⟩⟩
    · rw [(ended_or_finish hstep).1] at hs
      cases hs
  exact @Machine.run_invariant _ _ heldUrbs (fun q => q.Stranded u) q q' as hkept h hrun

/-! ### The condition is needed -/

/-- The steps that the calls under way take. -/
def work (q : Queues) : ℕ := (q.calls.map Call.weight).sum

/-- A bypassed filter whose calls under way will not empty its queues. -/
structure Undrained (q : Queues) : Prop where
  ended : q.ended = none
  state : q.state = .bypassed
  draining : ¬ q.Draining
  reviving : ¬ q.Reviving

theorem work_take {i : ℕ} {c : Call} (hc : q.calls[i]? = some c) :
    q.work = (q.take i).work + c.weight := by
  obtain ⟨hi, rfl⟩ := List.getElem?_eq_some_iff.mp hc
  have hperm := (List.getElem_cons_eraseIdx_perm hi).map Call.weight
  rw [work, ← hperm.sum_nat, List.map_cons, List.sum_cons, Nat.add_comm]
  rfl

theorem work_call (c : Call) : (q.call c).work = q.work + c.weight := by
  rw [work, call, List.map_append, List.sum_append, List.map_singleton, List.sum_singleton]
  rfl

/-- What `ptp_produce_` does in a bypassed filter, the filter's own URBs having to wait. -/
theorem produceFirst_bypassed (hstate : q.state = .bypassed) :
    q.produceFirst .wait = q ∨
      ∃ u rest, q.requestQueue = .clientIn u :: rest ∧
        q.produceFirst .wait = { q with requestQueue := rest } := by
  cases hqueue : q.requestQueue with
  | nil =>
    left
    simp only [produceFirst, hqueue]
  | cons e rest =>
    simp only [produceFirst, hqueue, hstate]
    cases e with
    | selfCmd => exact Or.inl rfl
    | selfData => exact Or.inl rfl
    | clientIn u => exact Or.inr ⟨u, rest, rfl, rfl⟩
    | clientOut u => exact Or.inl rfl

/-- A call of `ptp_produce_` empties the queues of no more than it was counted for. -/
theorem Undrained.produced {i : ℕ} {c : Call} (h : q.Undrained) (hc : q.calls[i]? = some c)
    (hproduces : c.produces = true) : ((q.take i).produceFirst .wait).Undrained := by
  obtain ⟨hclient, hcalls, hended⟩ := produceFirst_rest (q := q.take i) .wait
  have hcount : ((q.take i).produceFirst .wait).producers = (q.take i).producers := by
    rw [producers, hcalls, producers]
  have hstate : (q.take i).state = .bypassed := h.state
  refine ⟨hended.trans h.ended, ?_, fun hd => h.draining ?_, fun hr => h.reviving ?_⟩
  · rcases produceFirst_bypassed hstate with hsame | ⟨u, rest, -, hrest⟩
    · rwa [hsame]
    · rwa [hrest]
  · rw [draining_iff] at hd ⊢
    rw [hcount, hclient] at hd
    rw [producers_take hc, if_pos hproduces]
    refine ⟨hd.1, ?_⟩
    rcases produceFirst_bypassed hstate with hsame | ⟨u, rest, hqueue, hrest⟩
    · rw [hsame] at hd
      exact hd.2.mono (Nat.le_succ _)
    · rw [hrest] at hd
      obtain ⟨front, back, hl, hfront, hback, hlen⟩ := hd.2
      refine ⟨.clientIn u :: front, back, ?_, fun e he => ?_, hback, Nat.succ_le_succ hlen⟩
      · exact hqueue.trans (congrArg (_ :: ·) hl)
      · rcases List.mem_cons.mp he with rfl | he
        · rfl
        · exact hfront e he
  · obtain ⟨c', hc', hrevives⟩ := hr
    rw [hcalls] at hc'
    exact ⟨c', List.mem_of_mem_eraseIdx hc', hrevives⟩

/-- A call that neither produces nor revives does not help. -/
theorem Undrained.call_loop (h : q.Undrained) (priv : Option ℕ) (pending : Bool) :
    (q.call (.loop priv pending)).Undrained := by
  have hcount : (q.call (.loop priv pending)).producers = q.producers := by
    rw [producers, call, List.countP_append]
    rfl
  refine ⟨h.ended, h.state, fun hd => h.draining ?_, fun hr => h.reviving ?_⟩
  · rw [draining_iff] at hd ⊢
    rwa [hcount] at hd
  · obtain ⟨c, hc, hrevives⟩ := hr
    rcases List.mem_append.mp hc with hc | hc
    · exact ⟨c, hc, hrevives⟩
    · rw [List.mem_singleton.mp hc] at hrevives
      cases hrevives

/-- Nor does a call that comes nearer to `ptp_produce_`. -/
theorem Undrained.replaced {i : ℕ} {c : Call} (h : q.Undrained) (hc : q.calls[i]? = some c)
    (hproduces : c.produces = true) : ((q.take i).call .onTxProduce).Undrained := by
  have hcount : ((q.take i).call .onTxProduce).producers = q.producers := by
    rw [producers_take hc, if_pos hproduces, producers, call, List.countP_append]
    rfl
  refine ⟨h.ended, h.state, fun hd => h.draining ?_, fun hr => h.reviving ?_⟩
  · rw [draining_iff] at hd ⊢
    rwa [hcount] at hd
  · obtain ⟨c', hc', hrevives⟩ := hr
    rcases List.mem_append.mp hc' with hc' | hc'
    · exact ⟨c', List.mem_of_mem_eraseIdx hc', hrevives⟩
    · rw [List.mem_singleton.mp hc'] at hrevives
      cases hrevives

/-- In a bypassed filter that state is set again without effect. -/
theorem changeState_bypassed {i : ℕ} (hstate : q.state = .bypassed) :
    (q.take i).changeState .bypassed = q.take i := by
  cases q
  cases hstate
  rfl

/-- A call that goes on empties no more than it was counted for. -/
theorem Undrained.goOn {i : ℕ} {c : Call} (h : q.Undrained) (hc : q.calls[i]? = some c)
    (hproduces : c.produces = true) :
    ((q.take i).goOn c .stop .wait).Undrained ∧
      ((q.take i).goOn c .stop .wait).work < q.work := by
  have hwork : ((q.take i).produceFirst .wait).work = (q.take i).work := by
    rw [work, (produceFirst_rest (q := q.take i) .wait).calls, work]
  rw [work_take hc]
  cases c with
  | loop priv pending => cases hproduces
  | completed pending =>
    refine ⟨(h.produced hc rfl).call_loop none pending, ?_⟩
    rw [Queues.goOn, work_call, hwork]
    exact Nat.lt_succ_self _
  | onTx =>
    have hstate : (q.take i).state = .bypassed := h.state
    have hgo : (q.take i).goOn .onTx .stop .wait = (q.take i).call .onTxProduce := by
      rw [Queues.goOn, hstate]
      rfl
    rw [hgo, work_call]
    exact ⟨h.replaced hc rfl, Nat.lt_succ_self _⟩
  | onTxChange read =>
    have hread : read.afterResponse = .bypassed := by
      by_contra hne
      exact h.reviving ⟨_, List.mem_of_getElem? hc, bne_iff_ne.mpr hne⟩
    have hgo : (q.take i).goOn (.onTxChange read) .stop .wait = (q.take i).call .onTxProduce := by
      rw [Queues.goOn, hread, changeState_bypassed h.state]
    rw [hgo, work_call]
    exact ⟨h.replaced hc rfl, Nat.lt_succ_self _⟩
  | onTxProduce =>
    refine ⟨h.produced hc rfl, ?_⟩
    rw [Queues.goOn, hwork]
    exact Nat.lt_succ_self _

/-- Without calls that produce, a URB is stranded. -/
theorem Undrained.stranded (h : q.Undrained) (hzero : q.producers = 0) : ∃ u, q.Stranded u := by
  by_contra hnone
  refine h.draining (draining_iff.mpr ?_)
  have hheld : q.held = [] := by
    refine List.eq_nil_iff_forall_not_mem.mpr fun u hu => hnone ⟨u, hu, ?_⟩
    exact Or.inl ⟨h.ended, h.state, hzero⟩
  obtain ⟨hclient, hqueue⟩ := List.append_eq_nil_iff.mp hheld
  exact ⟨hclient, [], _, rfl, fun _ he => absurd he List.not_mem_nil,
    List.filterMap_eq_nil_iff.mp hqueue, Nat.zero_le _⟩

/-- When a bypassed filter does not meet the condition, the calls under way may come to their end
with a URB left behind. -/
theorem Undrained.exists_stranded (h : q.Undrained) :
    ∃ as q' u, heldUrbs.run q as = some q' ∧ q'.Stranded u := by
  generalize hn : q.work = n
  induction n using Nat.strong_induction_on generalizing q with
  | _ n ih =>
    by_cases hzero : q.producers = 0
    · obtain ⟨u, hu⟩ := h.stranded hzero
      exact ⟨[], q, u, rfl, hu⟩
    · obtain ⟨c, hmem, hproduces⟩ := List.countP_pos_iff.mp (Nat.pos_of_ne_zero hzero)
      obtain ⟨i, hc⟩ := List.getElem?_of_mem hmem
      obtain ⟨hnext, hlt⟩ := h.goOn hc hproduces
      obtain ⟨as, q', u, hrun, hu⟩ := ih _ (hn ▸ hlt) hnext rfl
      refine ⟨.resume i .stop .wait :: as, q', u, ?_, hu⟩
      have hstep : q.step (.resume i .stop .wait) = some ((q.take i).goOn c .stop .wait) := by
        rw [Queues.step, if_neg (by simp [h.ended]), hc]
        rfl
      rw [Machine.run_cons]
      exact (congrArg (fun o => Option.bind o _) hstep).trans hrun

/-! ### Runs -/

/-- Every URB that is held in a bypassed filter has a call that will submit it. -/
structure Settled (q : Queues) : Prop where
  bypassed : q.ended = none → q.state = .bypassed → q.Draining ∨ q.Reviving
  ended : ∀ s ∈ q.ended, s.Filtering ∨ s = .bypassed → q.held = []

theorem Settled.step {a : Act} (h : q.Settled) (hok : Releases q a)
    (hstep : q.step a = some q') : q'.Settled := by
  obtain ⟨hnone, hcases⟩ := ended_or_finish hstep
  obtain ⟨hbypass, hfinish⟩ := hok q' hstep
  constructor
  · intro hended hstate
    have hbefore : q.Draining ∨ q.Reviving := by
      by_cases hq : q.state = .bypassed
      · exact h.bypassed hnone hq
      · exact hbypass hq hstate
    have hkeeps := step_keeps hstep hended hstate
    rcases hbefore with hdraining | ⟨c, hc, hr⟩
    · exact Or.inl (hkeeps.draining hdraining)
    · exact Or.inr ⟨c, hkeeps.calls c hc hr, hr⟩
  · intro s hs hbad
    rcases hcases with hended | rfl
    · rw [hended] at hs
      cases hs
    · obtain rfl : q.state = s := Option.some.inj hs
      exact hfinish rfl hbad

end Queues

end Usbip.Ptp.Held
