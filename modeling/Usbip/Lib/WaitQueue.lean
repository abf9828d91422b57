import Usbip.Lib.Machine
import Mathlib.Data.Nat.Notation

/-!
# A thread that sleeps on a wait queue

A machine with one consumer thread that waits until a condition holds, and any number of
producers that make it true. `wait_event` tests the condition and puts the thread to sleep only
if it is false; a sleeping thread tests again only after a `wake_up`. A producer changes the
shared state first and calls `wake_up` later, so between the two the wake-up is pending.

`Waiting.machine` adds this to a machine that knows nothing of sleeping. The thread is lost when
it sleeps, no wake-up is pending and its condition holds. `lost_step_iff` says which steps lose
it: exactly the *silent* ones, which make the condition true without a wake-up, taken while the
thread sleeps and none is pending.
-/

universe u v

/-- What sleeping adds to a machine: the condition waited for, where the thread waits, the steps
that take it out of the wait, and which steps are followed by a `wake_up`. -/
structure Waiting {σ : Type u} {α : Type v} (m : Machine σ α) where
  /-- the condition of the wait -/
  ready : σ → Bool
  /-- the thread stands in the wait -/
  atWait : σ → Bool
  /-- the thread leaves the wait -/
  leaves : α → Bool
  /-- the context that takes this step calls `wake_up` afterwards -/
  wakes : σ → α → Bool

namespace Waiting

variable {σ : Type u} {α : Type v} {m : Machine σ α} {W : Waiting m}

/-- The state of the machine, whether the thread sleeps, and how many contexts have still to
call `wake_up`. -/
structure State (σ : Type u) where
  base : σ
  asleep : Bool
  pending : ℕ

/-- The steps of the machine, the test that puts the thread to sleep, and a `wake_up`. -/
inductive Act (α : Type v)
  | act (a : α)
  | sleep
  | wakeUp
  deriving DecidableEq, Repr

/-- One step. -/
def step (W : Waiting m) (s : State σ) : Act α → Option (State σ)
  | .act a =>
    if W.leaves a ∧ s.asleep then none
    else
      (m.step s.base a).map fun b =>
        { s with base := b, pending := s.pending + (W.wakes s.base a).toNat }
  | .sleep =>
    if W.atWait s.base ∧ W.ready s.base = false ∧ s.asleep = false then
      some { s with asleep := true }
    else none
  | .wakeUp =>
    if s.pending = 0 then none
    else some { s with pending := s.pending - 1, asleep := false }

/-- The machine with sleeping; at first the thread is awake and no wake-up is pending. -/
def machine (W : Waiting m) : Machine (State σ) (Act α) := ⟨⟨m.init, false, 0⟩, W.step⟩

/-- The thread sleeps although what it waits for has happened, and nobody is about to wake it. -/
def Lost (W : Waiting m) (s : State σ) : Prop :=
  s.asleep = true ∧ s.pending = 0 ∧ W.ready s.base = true

instance (s : State σ) : Decidable (W.Lost s) := by
  unfold Lost
  infer_instance

/-- A step that makes the condition true and is not followed by a wake-up. -/
def Silent (W : Waiting m) (s : σ) (a : α) : Prop :=
  W.wakes s a = false ∧ W.ready s = false ∧ ∃ s', m.step s a = some s' ∧ W.ready s' = true

/-- The step is silent and is taken while the thread sleeps and no wake-up is pending. -/
def Unheard (W : Waiting m) (s : State σ) (a : Act α) : Prop :=
  s.asleep = true ∧ s.pending = 0 ∧ ∃ b, a = .act b ∧ W.Silent s.base b

/-- What a step of the underlying machine does to a sleeping thread. -/
theorem step_act {s s' : State σ} {a : α} (h : W.step s (.act a) = some s') :
    s'.asleep = s.asleep ∧ m.step s.base a = some s'.base ∧
      s'.pending = s.pending + (W.wakes s.base a).toNat := by
  rw [step] at h
  split at h
  · simp at h
  · obtain ⟨b, hb, rfl⟩ := Option.map_eq_some_iff.mp h
    exact ⟨rfl, hb, rfl⟩

/-- **Which steps lose the thread**, from a state in which it is not lost. -/
theorem lost_step_iff {s s' : State σ} {a : Act α} (hs : ¬ W.Lost s)
    (h : W.machine.step s a = some s') : W.Lost s' ↔ W.Unheard s a := by
  cases a with
  | act a =>
    obtain ⟨hasleep, hbase, hpending⟩ := step_act h
    constructor
    · rintro ⟨h1, h2, h3⟩
      have hzero : s.pending = 0 ∧ (W.wakes s.base a).toNat = 0 := by omega
      have hwakes : W.wakes s.base a = false := by
        simpa using hzero.2
      have hready : W.ready s.base = false := by
        rw [← Bool.not_eq_true]
        exact fun hr => hs ⟨hasleep ▸ h1, hzero.1, hr⟩
      exact ⟨hasleep ▸ h1, hzero.1, a, rfl, hwakes, hready, s'.base, hbase, h3⟩
    · rintro ⟨h1, h2, b, hb, hwakes, -, t, ht, hready⟩
      obtain rfl : a = b := Act.act.inj hb
      obtain rfl : s'.base = t := Option.some.inj (hbase.symm.trans ht)
      refine ⟨hasleep.trans h1, ?_, hready⟩
      rw [hpending, h2, hwakes]
      rfl
  | sleep =>
    -- the thread has just seen its condition false
    obtain ⟨⟨-, hready, -⟩, hs'⟩ := Option.ite_none_right_eq_some.mp h
    obtain rfl := Option.some.inj hs'
    constructor
    · intro hlost
      exact absurd hlost.2.2 (by simp [hready])
    · rintro ⟨-, -, b, hb, -⟩
      cases hb
  | wakeUp =>
    change (if s.pending = 0 then none else _) = some s' at h
    split at h
    · simp at h
    · obtain rfl := Option.some.inj h
      constructor
      · intro hlost
        exact absurd hlost.1 (by simp)
      · rintro ⟨-, -, b, hb, -⟩
        cases hb

/-- **The run rule.** A run loses the thread nowhere when none of its steps is unheard. -/
theorem not_lost {ok : State σ → Act α → Prop} (hok : ∀ s a, ok s a → ¬ W.Unheard s a)
    {s : State σ} (h : W.machine.ReachableWhere ok s) : ¬ W.Lost s := by
  refine h.invariant (I := fun s => ¬ W.Lost s) ?_ fun s a s' hs ha hstep => ?_
  · rintro ⟨hasleep, -, -⟩
    cases hasleep
  · rw [lost_step_iff hs hstep]
    exact hok s a ha

/-- A machine without silent steps never loses the thread. -/
theorem not_lost_of_not_silent (hm : ∀ s a, ¬ W.Silent s a) {s : State σ}
    (h : W.machine.Reachable s) : ¬ W.Lost s := by
  refine not_lost (fun s a _ => ?_) h
  rintro ⟨-, -, b, -, hb⟩
  exact hm s.base b hb

end Waiting
