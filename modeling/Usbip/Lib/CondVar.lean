import Usbip.Lib.Machine
import Mathlib.Data.List.Basic
import Mathlib.Tactic.Common

/-!
# Threads that wait on condition variables

A machine whose threads wait, each on a condition variable, for something to become true. A thread
that enters its wait is in the wait set of the variable until a signal, which wakes one thread of
the set, or a spurious wake-up. A thread that is awake again tests what it waits for, and goes on
or enters the wait set once more. The first time it enters without a test, as in
`do wait(cond); while(!ready)`.

`CondWait.machine` adds the wait sets to a machine that knows nothing of them. A thread has missed
its signal when it is in a wait set although what it waits for is there. If every step that makes
something ready signals the variable of the thread that waits for it, and no two threads wait on
one variable (`CondWait.Heard`), then only an entry can miss a signal, and it does exactly when the
thread is ready then (`missed_step_iff`).
-/

universe u v w x

/-- What waiting adds to a machine: what the threads wait for, whether a thread stands at its
wait, the variable it waits on, the variable that a step signals, and the thread that a step takes
out of its wait. -/
structure CondWait {σ : Type u} {α : Type v} (m : Machine σ α) (ι : Type w) (κ : Type x) where
  ready : σ → ι → Bool
  atWait : σ → ι → Bool
  cond : σ → ι → Option κ
  signal : σ → α → Option κ
  leaves : α → Option ι

namespace CondWait

variable {σ : Type u} {α : Type v} {ι : Type w} {κ : Type x} [DecidableEq ι] [DecidableEq κ]
  {m : Machine σ α}

/-- The state of the machine, the threads in the wait sets, and those that have been woken. -/
structure State (σ : Type u) (ι : Type w) where
  base : σ
  waiting : List ι
  woken : List ι

/-- The steps of the machine, with the thread that they wake; the first entry of a thread; a
failed test; and a wake-up without a signal. -/
inductive Act (α : Type v) (ι : Type w)
  | act (a : α) (woke : Option ι)
  | enter (i : ι)
  | again (i : ι)
  | spurious (i : ι)
  deriving DecidableEq

/-- A signal wakes one of the threads that wait on its variable, if there is any. -/
def Wakes (W : CondWait m ι κ) (s : State σ ι) (a : α) : Option ι → Prop
  | some i => i ∈ s.waiting ∧ (W.signal s.base a).isSome ∧ W.cond s.base i = W.signal s.base a
  | none => ∀ i ∈ s.waiting, (W.signal s.base a).isSome → W.cond s.base i ≠ W.signal s.base a

instance (W : CondWait m ι κ) (s : State σ ι) (a : α) (woke : Option ι) :
    Decidable (W.Wakes s a woke) :=
  match woke with
  | some _ => inferInstanceAs (Decidable (_ ∧ _))
  | none => inferInstanceAs (Decidable (∀ i ∈ s.waiting, _ → _))

/-- One step. -/
def step (W : CondWait m ι κ) (s : State σ ι) : Act α ι → Option (State σ ι)
  | .act a woke =>
    if (∀ i ∈ W.leaves a, i ∈ s.woken) ∧ W.Wakes s a woke then
      (m.step s.base a).map fun b =>
        ⟨b, s.waiting.filter fun i => some i ≠ woke,
          (woke.toList ++ s.woken).filter fun i => some i ≠ W.leaves a⟩
    else none
  | .enter i =>
    if W.atWait s.base i ∧ i ∉ s.waiting ∧ i ∉ s.woken then
      some { s with waiting := i :: s.waiting }
    else none
  | .again i =>
    if i ∈ s.woken ∧ W.ready s.base i = false then
      some { s with waiting := i :: s.waiting, woken := s.woken.filter (· ≠ i) }
    else none
  | .spurious i =>
    if i ∈ s.waiting then
      some { s with waiting := s.waiting.filter (· ≠ i), woken := i :: s.woken }
    else none

/-- The machine with the wait sets, which are empty at first. -/
def machine (W : CondWait m ι κ) : Machine (State σ ι) (Act α ι) := ⟨⟨m.init, [], []⟩, W.step⟩

/-- The thread is in a wait set although what it waits for is there. -/
def Missed (W : CondWait m ι κ) (s : State σ ι) (i : ι) : Prop :=
  i ∈ s.waiting ∧ W.ready s.base i = true

/-- A thread that enters its wait does so before what it waits for is there. -/
def InTime (W : CondWait m ι κ) (s : State σ ι) (a : Act α ι) : Prop :=
  ∀ i, a = .enter i → W.ready s.base i = false

instance (W : CondWait m ι κ) (s : State σ ι) (a : Act α ι) : Decidable (W.InTime s a) :=
  match a with
  | .enter i => decidable_of_iff (W.ready s.base i = false) <| by
      constructor
      · rintro h j hj
        exact Act.enter.inj hj ▸ h
      · exact fun h => h i rfl
  | .act _ _ => .isTrue nofun
  | .again _ => .isTrue nofun
  | .spurious _ => .isTrue nofun

/-- The threads of a machine can rely on the signals: a thread stays at its wait until it leaves
it, no two threads wait on one variable, and what makes a thread ready signals its variable. -/
structure Heard (W : CondWait m ι κ) : Prop where
  stays : ∀ {s a s' i}, m.Reachable s → m.step s a = some s' → W.atWait s i = true →
    W.leaves a ≠ some i → W.atWait s' i = true
  alone : ∀ {s i j}, m.Reachable s → W.atWait s i = true → W.atWait s j = true →
    (W.cond s i).isSome → W.cond s i = W.cond s j → i = j
  signalled : ∀ {s a s' i}, m.Reachable s → m.step s a = some s' → W.atWait s i = true →
    W.ready s i = false → W.ready s' i = true →
      (W.signal s a).isSome ∧ W.cond s i = W.signal s a

variable {W : CondWait m ι κ} {s s' : State σ ι}

/-- What a step of the underlying machine does to the wait sets. -/
theorem step_act {a : α} {woke : Option ι} (h : W.step s (.act a woke) = some s') :
    m.step s.base a = some s'.base ∧ (∀ i ∈ W.leaves a, i ∈ s.woken) ∧ W.Wakes s a woke ∧
      s'.waiting = s.waiting.filter (fun i => some i ≠ woke) ∧
      s'.woken = (woke.toList ++ s.woken).filter fun i => some i ≠ W.leaves a := by
  obtain ⟨⟨hleaves, hwakes⟩, h⟩ := Option.ite_none_right_eq_some.mp h
  obtain ⟨b, hb, rfl⟩ := Option.map_eq_some_iff.mp h
  exact ⟨hb, hleaves, hwakes, rfl, rfl⟩

/-- Steps of the wait sets leave the machine as it is. -/
theorem base_eq_or_step {a : Act α ι} (h : W.machine.step s a = some s') :
    s'.base = s.base ∨ ∃ b, m.step s.base b = some s'.base := by
  cases a with
  | act a woke => exact .inr ⟨a, (step_act h).1⟩
  | enter i =>
    obtain ⟨-, h⟩ := Option.ite_none_right_eq_some.mp h
    exact .inl (Option.some.inj h ▸ rfl)
  | again i =>
    obtain ⟨-, h⟩ := Option.ite_none_right_eq_some.mp h
    exact .inl (Option.some.inj h ▸ rfl)
  | spurious i =>
    obtain ⟨-, h⟩ := Option.ite_none_right_eq_some.mp h
    exact .inl (Option.some.inj h ▸ rfl)

/-- The machine below goes through its own states. -/
theorem reachable_base {ok : State σ ι → Act α ι → Prop} (h : W.machine.ReachableWhere ok s) :
    m.Reachable s.base := by
  refine h.invariant (I := fun s => m.Reachable s.base) .init fun s a s' hs _ hstep => ?_
  rcases base_eq_or_step hstep with heq | ⟨b, hb⟩
  · rwa [heq]
  · exact .next hs trivial hb

/-- The threads in the wait sets and the woken ones stand at their wait, and no thread is both. -/
structure Account (W : CondWait m ι κ) (s : State σ ι) : Prop where
  atWait : ∀ i, i ∈ s.waiting ∨ i ∈ s.woken → W.atWait s.base i = true
  disjoint : ∀ i ∈ s.waiting, i ∉ s.woken

theorem Account.step {a : Act α ι} (hW : W.Heard) (hbase : m.Reachable s.base) (h : W.Account s)
    (hstep : W.machine.step s a = some s') : W.Account s' := by
  cases a with
  | act a woke =>
    obtain ⟨hb, hleaves, hwakes, hwaiting, hwoken⟩ := step_act hstep
    have hwoke : ∀ i ∈ woke, i ∈ s.waiting := by
      rintro i rfl
      exact hwakes.1
    have hmem : ∀ i, i ∈ woke.toList ++ s.woken ↔ woke = some i ∨ i ∈ s.woken := by
      intro i
      rw [List.mem_append, Option.mem_toList]
    constructor
    · intro i hi
      have hold : W.atWait s.base i = true ∧ W.leaves a ≠ some i := by
        rw [hwaiting, hwoken, List.mem_filter, List.mem_filter, hmem] at hi
        rcases hi with ⟨hi, -⟩ | ⟨hi, hne⟩
        · exact ⟨h.atWait i (.inl hi), fun hl => h.disjoint i hi (hleaves i hl)⟩
        · have hne : some i ≠ W.leaves a := of_decide_eq_true hne
          refine ⟨h.atWait i ?_, hne.symm⟩
          rcases hi with hi | hi
          · exact .inl (hwoke i hi)
          · exact .inr hi
      exact hW.stays hbase hb hold.1 hold.2
    · intro i hi hi'
      rw [hwaiting, List.mem_filter] at hi
      rw [hwoken, List.mem_filter, hmem] at hi'
      have hne : some i ≠ woke := of_decide_eq_true hi.2
      rcases hi'.1 with hwoke | hi'
      · exact hne hwoke.symm
      · exact h.disjoint i hi.1 hi'
  | enter i =>
    obtain ⟨⟨hat, hnot, hnot'⟩, hs'⟩ := Option.ite_none_right_eq_some.mp hstep
    obtain rfl := Option.some.inj hs'
    constructor
    · intro j hj
      rw [List.mem_cons] at hj
      rcases hj with (rfl | hj) | hj
      · exact hat
      · exact h.atWait j (.inl hj)
      · exact h.atWait j (.inr hj)
    · intro j hj
      rcases List.mem_cons.mp hj with rfl | hj
      · exact hnot'
      · exact h.disjoint j hj
  | again i =>
    obtain ⟨⟨hi, -⟩, hs'⟩ := Option.ite_none_right_eq_some.mp hstep
    obtain rfl := Option.some.inj hs'
    constructor
    · intro j hj
      rw [List.mem_cons, List.mem_filter] at hj
      rcases hj with (rfl | hj) | hj
      · exact h.atWait j (.inr hi)
      · exact h.atWait j (.inl hj)
      · exact h.atWait j (.inr hj.1)
    · intro j hj hj'
      rw [List.mem_filter] at hj'
      rcases List.mem_cons.mp hj with rfl | hj
      · exact of_decide_eq_true hj'.2 rfl
      · exact h.disjoint j hj hj'.1
  | spurious i =>
    obtain ⟨hi, hs'⟩ := Option.ite_none_right_eq_some.mp hstep
    obtain rfl := Option.some.inj hs'
    constructor
    · intro j hj
      rw [List.mem_cons, List.mem_filter] at hj
      rcases hj with hj | rfl | hj
      · exact h.atWait j (.inl hj.1)
      · exact h.atWait j (.inl hi)
      · exact h.atWait j (.inr hj)
    · intro j hj hj'
      rw [List.mem_filter] at hj
      rcases List.mem_cons.mp hj' with rfl | hj'
      · exact of_decide_eq_true hj.2 rfl
      · exact h.disjoint j hj.1 hj'

theorem account {ok : State σ ι → Act α ι → Prop} (hW : W.Heard)
    (h : W.machine.ReachableWhere ok s) : W.Account s := by
  refine Machine.ReachableWhere.invariant_with (I := fun s => m.Reachable s.base)
    (fun s hs => reachable_base hs) ?_ (fun s a s' hbase hs _ hstep => hs.step hW hbase hstep) h
  exact ⟨fun i hi => by simp [machine] at hi, fun i hi => by simp [machine] at hi⟩

/-- **Which steps miss a signal**, from a state in which none has been missed. -/
theorem missed_step_iff {a : Act α ι} (hW : W.Heard) (hbase : m.Reachable s.base)
    (hacc : W.Account s) (hs : ∀ i, ¬ W.Missed s i) (h : W.machine.step s a = some s') :
    (∃ i, W.Missed s' i) ↔ ¬ W.InTime s a := by
  have hready : ∀ i ∈ s.waiting, W.ready s.base i = false := fun i hi =>
    Bool.eq_false_iff.mpr fun hr => hs i ⟨hi, hr⟩
  cases a with
  | act a woke =>
    obtain ⟨hb, -, hwakes, hwaiting, -⟩ := step_act h
    refine iff_of_false ?_ (not_not_intro nofun)
    rintro ⟨i, hi, hr⟩
    rw [hwaiting, List.mem_filter] at hi
    have hne : some i ≠ woke := of_decide_eq_true hi.2
    have hat := hacc.atWait i (.inl hi.1)
    obtain ⟨hsome, hcond⟩ := hW.signalled hbase hb hat (hready i hi.1) hr
    cases woke with
    | none => exact hwakes i hi.1 hsome hcond
    | some j =>
      -- the signal has woken the only thread that waits there
      obtain ⟨hj, -, hcond'⟩ := hwakes
      have heq := hW.alone hbase hat (hacc.atWait j (.inl hj)) (hcond ▸ hsome)
        (hcond.trans hcond'.symm)
      exact hne (congrArg some heq)
  | enter i =>
    obtain ⟨-, hs'⟩ := Option.ite_none_right_eq_some.mp h
    obtain rfl := Option.some.inj hs'
    constructor
    · rintro ⟨j, hj, hr⟩ hin
      rcases List.mem_cons.mp hj with rfl | hj
      · exact Bool.false_ne_true ((hin j rfl).symm.trans hr)
      · exact hs j ⟨hj, hr⟩
    · intro hnot
      by_contra hmissed
      refine hnot fun j hj => Bool.eq_false_iff.mpr fun hr => ?_
      exact hmissed ⟨i, List.mem_cons_self, Act.enter.inj hj ▸ hr⟩
  | again i =>
    -- the thread has just seen that it is not ready
    obtain ⟨⟨-, hnot⟩, hs'⟩ := Option.ite_none_right_eq_some.mp h
    obtain rfl := Option.some.inj hs'
    refine iff_of_false ?_ (not_not_intro nofun)
    rintro ⟨j, hj, hr⟩
    rcases List.mem_cons.mp hj with rfl | hj
    · exact Bool.false_ne_true (hnot.symm.trans hr)
    · exact hs j ⟨hj, hr⟩
  | spurious i =>
    obtain ⟨-, hs'⟩ := Option.ite_none_right_eq_some.mp h
    obtain rfl := Option.some.inj hs'
    refine iff_of_false ?_ (not_not_intro nofun)
    rintro ⟨j, hj, hr⟩
    exact hs j ⟨(List.mem_filter.mp hj).1, hr⟩

/-- **The run rule.** As long as every thread enters its wait in time, no signal is missed. -/
theorem not_missed (hW : W.Heard) (h : W.machine.ReachableWhere W.InTime s) (i : ι) :
    ¬ W.Missed s i := by
  have hall : ∀ s, W.machine.ReachableWhere W.InTime s → m.Reachable s.base ∧ W.Account s :=
    fun s hs => ⟨reachable_base hs, account hW hs⟩
  have hinit : ∀ i, ¬ W.Missed W.machine.init i := by
    rintro i ⟨hi, -⟩
    exact absurd hi List.not_mem_nil
  have hstep : ∀ s a s', m.Reachable s.base ∧ W.Account s → (∀ i, ¬ W.Missed s i) → W.InTime s a →
      W.machine.step s a = some s' → ∀ i, ¬ W.Missed s' i := by
    intro s a s' hs hnot hin hstep
    refine not_exists.mp fun hmissed => ?_
    exact (missed_step_iff hW hs.1 hs.2 hnot hstep).mp hmissed hin
  exact Machine.ReachableWhere.invariant_with hall hinit hstep h i

end CondWait
