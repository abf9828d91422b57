import Mathlib.Logic.Basic
import Mathlib.Data.Option.Basic

/-!
# Partial labelled machines and their guarded runs

A `Machine` is an initial state and a partial step function: `step s a = none` says that the
step named `a` cannot be taken in `s`. Interleavings of several threads are runs of one
machine whose labels name the thread that moves and the outcome of the calls it makes.

Two presentations of a run are kept side by side:

* `Machine.run` executes a list of labels, so a concrete interleaving is evaluated;
* `Machine.ReachableWhere ok` is the inductive set of states reached by steps that all meet
  the condition `ok` in the state they are taken from, so an invariant is proved once per
  step (`ReachableWhere.invariant`) and holds of every run.

`Machine.Reachable` is the unconditional case.
-/

universe u v

/-- A partial labelled transition system with one initial state. -/
structure Machine (σ : Type u) (α : Type v) where
  /-- The state every run starts from. -/
  init : σ
  /-- The state after a step, or `none` when the step cannot be taken. -/
  step : σ → α → Option σ

namespace Machine

variable {σ : Type u} {α : Type v} {m : Machine σ α}

/-- Execute the labels from left to right; `none` as soon as one of them is not enabled. -/
def run (m : Machine σ α) : σ → List α → Option σ
  | s, [] => some s
  | s, a :: as => (m.step s a).bind fun s' => m.run s' as

@[simp] theorem run_nil (s : σ) : m.run s [] = some s := rfl

@[simp] theorem run_cons (s : σ) (a : α) (as : List α) :
    m.run s (a :: as) = (m.step s a).bind fun s' => m.run s' as := rfl

/-- A run splits after any prefix of its labels. -/
theorem run_append (s : σ) (as bs : List α) :
    m.run s (as ++ bs) = (m.run s as).bind fun s' => m.run s' bs := by
  induction as generalizing s with
  | nil => rfl
  | cons a as ih =>
    cases h : m.step s a with
    | none => simp [h]
    | some s' => simp [h, ih]

/-- What every step keeps, a run keeps. -/
theorem run_invariant {Inv : σ → Prop} {s s' : σ} {as : List α}
    (hstep : ∀ s a s', Inv s → m.step s a = some s' → Inv s') (hs : Inv s)
    (h : m.run s as = some s') : Inv s' := by
  induction as generalizing s with
  | nil =>
    obtain rfl : s = s' := by simpa using h
    exact hs
  | cons a as ih =>
    obtain ⟨s₁, h1, hrest⟩ := Option.bind_eq_some_iff.mp h
    exact ih (hstep s a s₁ hs h1) hrest

/-- The states reached from the initial one by steps that each meet `ok` in the state they
are taken from. -/
inductive ReachableWhere (m : Machine σ α) (ok : σ → α → Prop) : σ → Prop
  | init : ReachableWhere m ok m.init
  | next {s s' : σ} {a : α} :
      ReachableWhere m ok s → ok s a → m.step s a = some s' → ReachableWhere m ok s'

/-- The states reached by any run. -/
abbrev Reachable (m : Machine σ α) : σ → Prop :=
  m.ReachableWhere fun _ _ => True

namespace ReachableWhere

variable {ok ok' : σ → α → Prop} {s : σ}

/-- **The invariant rule**: what holds initially and is kept by every step that meets the
condition holds in every state so reached. -/
theorem invariant {I : σ → Prop} (hinit : I m.init)
    (hstep : ∀ s a s', I s → ok s a → m.step s a = some s' → I s')
    (h : m.ReachableWhere ok s) : I s := by
  induction h with
  | init => exact hinit
  | next _ hok hs ih => exact hstep _ _ _ ih hok hs

/-- An invariant may be proved with an earlier one in hand. -/
theorem invariant_with {I Inv : σ → Prop} (hI : ∀ s, m.ReachableWhere ok s → I s)
    (hinit : Inv m.init)
    (hstep : ∀ s a s', I s → Inv s → ok s a → m.step s a = some s' → Inv s')
    (h : m.ReachableWhere ok s) : Inv s := by
  induction h with
  | init => exact hinit
  | next hr hok hs ih => exact hstep _ _ _ (hI _ hr) ih hok hs

/-- A weaker condition reaches at least the same states. -/
theorem mono (himp : ∀ s a, ok s a → ok' s a) (h : m.ReachableWhere ok s) :
    m.ReachableWhere ok' s := by
  induction h with
  | init => exact .init
  | next _ hok hs ih => exact .next ih (himp _ _ hok) hs

/-- Every guarded run is a run. -/
theorem reachable (h : m.ReachableWhere ok s) : m.Reachable s :=
  h.mono fun _ _ _ => trivial

end ReachableWhere

/-- Executing labels from a reachable state stays among the reachable states. -/
theorem Reachable.run {s s' : σ} (hs : m.Reachable s) {as : List α}
    (h : m.run s as = some s') : m.Reachable s' := by
  induction as generalizing s with
  | nil =>
    obtain rfl : s = s' := by simpa using h
    exact hs
  | cons a as ih =>
    cases hstep : m.step s a with
    | none => simp [hstep] at h
    | some s₁ =>
      rw [run_cons, hstep, Option.bind_some] at h
      exact ih (.next hs trivial hstep) h

/-- A state computed from the initial one is reachable. -/
theorem reachable_of_run {s : σ} {as : List α} (h : m.run m.init as = some s) :
    m.Reachable s :=
  Reachable.run .init h

/-- What holds of all reachable states holds of the one that a run computes. -/
theorem exists_run {P : σ → Prop} {as : List α} (hrun : (m.run m.init as).isSome = true)
    (hP : ∀ s, m.Reachable s → P s) : ∃ s, m.run m.init as = some s ∧ P s := by
  obtain ⟨s, hs⟩ := Option.isSome_iff_exists.mp hrun
  exact ⟨s, hs, hP s (reachable_of_run hs)⟩

/-- A decidable property of the state that a run computes is found by evaluating it. -/
theorem exists_reachable_of_any (as : List α) (p : σ → Bool)
    (h : (m.run m.init as).any p = true) : ∃ s, m.Reachable s ∧ p s = true := by
  obtain ⟨s, hs, hp⟩ := (Option.any_eq_true _ _).mp h
  exact ⟨s, reachable_of_run hs, hp⟩

/-- Execute the labels as long as each of them meets a decidable condition. -/
def runWhere (m : Machine σ α) (ok : σ → α → Prop) [∀ s a, Decidable (ok s a)] :
    σ → List α → Option σ
  | s, [] => some s
  | s, a :: as => if ok s a then (m.step s a).bind fun s' => m.runWhere ok s' as else none

/-- **Lock-step simulation.** A machine that follows each step of a guarded run of another one
follows the run. -/
theorem exists_run_of_runWhere {τ : Type*} {m' : Machine τ α} {ok : σ → α → Prop}
    [∀ s a, Decidable (ok s a)] {R : σ → τ → Prop}
    (hstep : ∀ s t a s', R s t → ok s a → m.step s a = some s' →
      ∃ t', m'.step t a = some t' ∧ R s' t')
    {s s' : σ} {t : τ} {as : List α} (hR : R s t) (h : m.runWhere ok s as = some s') :
    ∃ t', m'.run t as = some t' ∧ R s' t' := by
  induction as generalizing s t with
  | nil =>
    obtain rfl : s = s' := by simpa [Machine.runWhere] using h
    exact ⟨t, rfl, hR⟩
  | cons a as ih =>
    rw [Machine.runWhere] at h
    obtain ⟨hok, h⟩ := Option.ite_none_right_eq_some.mp h
    obtain ⟨s₁, hs₁, hrest⟩ := Option.bind_eq_some_iff.mp h
    obtain ⟨t₁, ht₁, hR₁⟩ := hstep s t a s₁ hR hok hs₁
    obtain ⟨t', ht', hR'⟩ := ih hR₁ hrest
    exact ⟨t', by rw [run_cons, ht₁, Option.bind_some, ht'], hR'⟩

/-- A state computed by a guarded run is reached by one. -/
theorem ReachableWhere.runWhere {ok : σ → α → Prop} [∀ s a, Decidable (ok s a)] {s s' : σ}
    (hs : m.ReachableWhere ok s) {as : List α} (h : m.runWhere ok s as = some s') :
    m.ReachableWhere ok s' := by
  induction as generalizing s with
  | nil =>
    obtain rfl : s = s' := by simpa [Machine.runWhere] using h
    exact hs
  | cons a as ih =>
    rw [Machine.runWhere] at h
    split at h
    next hok =>
      obtain ⟨s₁, hstep, hrest⟩ := Option.bind_eq_some_iff.mp h
      exact ih (.next hs hok hstep) hrest
    · simp at h

/-- What holds of all states reached by guarded runs holds of the one that such a run
computes. -/
theorem exists_runWhere {ok : σ → α → Prop} [∀ s a, Decidable (ok s a)] {P : σ → Prop}
    {as : List α} (hrun : (m.runWhere ok m.init as).isSome = true)
    (hP : ∀ s, m.ReachableWhere ok s → P s) : ∃ s, m.runWhere ok m.init as = some s ∧ P s := by
  obtain ⟨s, hs⟩ := Option.isSome_iff_exists.mp hrun
  exact ⟨s, hs, hP s (ReachableWhere.runWhere .init hs)⟩

/-- A decidable property of the state that a guarded run computes is found by evaluating it. -/
theorem exists_reachableWhere_of_any {ok : σ → α → Prop} [∀ s a, Decidable (ok s a)]
    (as : List α) (p : σ → Bool) (h : (m.runWhere ok m.init as).any p = true) :
    ∃ s, m.ReachableWhere ok s ∧ p s = true := by
  obtain ⟨s, hs, hp⟩ := (Option.any_eq_true _ _).mp h
  exact ⟨s, ReachableWhere.runWhere .init hs, hp⟩

end Machine
