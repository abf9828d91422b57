import Usbip.Lib.Machine
import Mathlib.Order.Basic
import Mathlib.Order.Nat
import Mathlib.Tactic.Choose
import Mathlib.Tactic.ByContra

/-!
# Infinite behaviors and fair threads

A `Behavior` of a machine is an infinite sequence of states in which every position either
takes a step or stutters, so that every finite run is a behavior as well. A thread is a set
of labels. It is treated fairly (`Fair`) when it does not stay enabled for ever without
moving; a thread that waits for something is not enabled.

* `Fair.leadsTo` is the rule for "is followed by": while an obligation is open the thread is
  enabled, its own steps bring the obligation down a rank, and no other step raises it.
* `exists_behavior` extends a finite run after which the thread is blocked to a fair behavior.
-/

namespace Machine

universe u v

variable {σ : Type u} {α : Type v}

/-- An infinite run; `none` is a stutter. -/
structure Behavior (m : Machine σ α) where
  state : ℕ → σ
  label : ℕ → Option α
  start : state 0 = m.init
  next : ∀ n, match label n with
    | none => state (n + 1) = state n
    | some a => m.step (state n) a = some (state (n + 1))

/-- A thread can take one of its steps. -/
def Enabled (m : Machine σ α) (T : α → Prop) (s : σ) : Prop :=
  ∃ a, T a ∧ (m.step s a).isSome = true

namespace Behavior

variable {m : Machine σ α} {b : Behavior m} {T : α → Prop} {n : ℕ}

theorem next_of_none (h : b.label n = none) : b.state (n + 1) = b.state n := by
  have := b.next n
  rwa [h] at this

theorem next_of_some {a : α} (h : b.label n = some a) :
    m.step (b.state n) a = some (b.state (n + 1)) := by
  have := b.next n
  rwa [h] at this

/-- The thread is not enabled for ever without taking a step. -/
def Fair (b : Behavior m) (T : α → Prop) : Prop :=
  ∀ n, (∀ k, n ≤ k → m.Enabled T (b.state k)) → ∃ k a, n ≤ k ∧ b.label k = some a ∧ T a

/-- Every step meets a condition in the state it is taken from. -/
def Where (b : Behavior m) (ok : σ → α → Prop) : Prop :=
  ∀ n a, b.label n = some a → ok (b.state n) a

/-- **The response rule.** `R` says that the obligation is open and `G` that the thread's
next step discharges it. Then a fair behavior that meets `R` takes a step of the thread from
a state that meets `R` and `G`. -/
theorem Fair.leadsTo {ok : σ → α → Prop} {R G : σ → Prop} (rank : σ → ℕ) (hfair : b.Fair T)
    (hok : b.Where ok) (henabled : ∀ s, R s → m.Enabled T s)
    (hstep : ∀ s a s', R s → ok s a → m.step s a = some s' → ¬ (T a ∧ G s) →
      R s' ∧ rank s' ≤ rank s ∧ (T a → rank s' < rank s))
    (hR : R (b.state n)) :
    ∃ k a, n ≤ k ∧ b.label k = some a ∧ T a ∧ R (b.state k) ∧ G (b.state k) := by
  induction hr : rank (b.state n) using Nat.strong_induction_on generalizing n with | _ r ih
  subst hr
  -- as long as the thread does not move, the obligation stays open at the same rank
  have hstay : ∀ k, (∀ j a, n ≤ j → j < n + k → b.label j = some a → ¬ T a) →
      R (b.state (n + k)) ∧ rank (b.state (n + k)) ≤ rank (b.state n) := by
    intro k
    induction k with
    | zero => exact fun _ => ⟨hR, le_refl _⟩
    | succ k ih =>
      intro hno
      obtain ⟨hk, hrank⟩ := ih fun j a h1 h2 => hno j a h1 (by omega)
      rw [← Nat.add_assoc]
      cases hl : b.label (n + k) with
      | none =>
        rw [next_of_none hl]
        exact ⟨hk, hrank⟩
      | some a =>
        have hT : ¬ T a := hno (n + k) a (by omega) (by omega) hl
        obtain ⟨hR', hle, -⟩ :=
          hstep _ _ _ hk (hok _ _ hl) (next_of_some hl) fun h => hT h.1
        exact ⟨hR', hle.trans hrank⟩
  -- so it is enabled until it moves, and it does move
  have hmove : ∃ k a, b.label (n + k) = some a ∧ T a := by
    by_contra hnone
    have hno : ∀ j a, n ≤ j → b.label j = some a → ¬ T a := by
      intro j a hj hl hT
      obtain ⟨k, rfl⟩ := Nat.exists_eq_add_of_le hj
      exact hnone ⟨k, a, hl, hT⟩
    obtain ⟨k, a, hk, hl, hT⟩ := hfair n fun k hk => by
      obtain ⟨j, rfl⟩ := Nat.exists_eq_add_of_le hk
      exact henabled _ (hstay j fun i a h1 _ => hno i a h1).1
    exact hno k a hk hl hT
  obtain ⟨k, ⟨a, hl, hT⟩, hmin⟩ : ∃ k, (∃ a, b.label (n + k) = some a ∧ T a) ∧
      ∀ i, i < k → ¬ ∃ a, b.label (n + i) = some a ∧ T a := by
    classical
    exact ⟨Nat.find hmove, Nat.find_spec hmove, fun i hi => Nat.find_min hmove hi⟩
  obtain ⟨hk, hrank⟩ := hstay k fun j a h1 h2 hl' hT' => by
    obtain ⟨i, rfl⟩ := Nat.exists_eq_add_of_le h1
    exact hmin i (by omega) ⟨a, hl', hT'⟩
  by_cases hg : G (b.state (n + k))
  · exact ⟨n + k, a, by omega, hl, hT, hk, hg⟩
  · obtain ⟨hR', -, hlt⟩ := hstep _ _ _ hk (hok _ _ hl) (next_of_some hl) fun h => hg h.2
    have hdec : rank (b.state (n + k + 1)) < rank (b.state n) :=
      Nat.lt_of_lt_of_le (hlt hT) hrank
    obtain ⟨j, a', hj, hrest⟩ := ih _ hdec hR' rfl
    exact ⟨j, a', by omega, hrest⟩

end Behavior

/-- The state that a list of labels leads to, staying where a label is not enabled. -/
def follow (m : Machine σ α) (as : List α) (n : ℕ) : Option σ := m.run m.init (as.take n)

theorem follow_succ {m : Machine σ α} {as : List α} {n : ℕ} {a : α} (h : as[n]? = some a) :
    m.follow as (n + 1) = (m.follow as n).bind fun s => m.step s a := by
  have htake : as.take (n + 1) = as.take n ++ [a] := by
    rw [List.take_add_one, h, Option.toList_some]
  rw [follow, follow, htake, run_append]
  congr 1
  funext s
  simp

/-- **A finite run that ends with the thread blocked is a fair behavior.** -/
theorem exists_behavior {m : Machine σ α} {T : α → Prop} {as : List α} {s : σ}
    (hrun : m.run m.init as = some s) (hblocked : ¬ m.Enabled T s) :
    ∃ b : Behavior m, b.Fair T ∧ (∀ n, b.label n = as[n]?) ∧
      ∀ n, m.follow as n = some (b.state n) := by
  have hsome : ∀ n, ∃ s', m.follow as n = some s' := by
    intro n
    have hsplit := hrun
    rw [← List.take_append_drop n as, run_append] at hsplit
    obtain ⟨s', hs', -⟩ := Option.bind_eq_some_iff.mp hsplit
    exact ⟨s', hs'⟩
  choose st hst using hsome
  refine ⟨⟨st, fun n => as[n]?, ?_, fun n => ?_⟩, ?_, fun n => rfl, hst⟩
  · have h0 := hst 0
    rw [follow, List.take_zero, run_nil] at h0
    exact (Option.some.inj h0).symm
  · cases ha : as[n]? with
    | none =>
      have hle : as.length ≤ n := List.getElem?_eq_none_iff.mp ha
      have h1 := hst n
      have h2 := hst (n + 1)
      rw [follow, List.take_of_length_le (by omega)] at h1 h2
      exact Option.some.inj (h2.symm.trans h1)
    | some a =>
      have h2 := hst (n + 1)
      rw [follow_succ ha, hst n, Option.bind_some] at h2
      exact h2
  · intro n hen
    refine absurd (hen (n + as.length) (by omega)) ?_
    have hlast := hst (n + as.length)
    rw [follow, List.take_of_length_le (by omega), hrun] at hlast
    obtain rfl : s = st (n + as.length) := Option.some.inj hlast
    exact hblocked

theorem runWhere_append {m : Machine σ α} {ok : σ → α → Prop} [∀ s a, Decidable (ok s a)]
    (s : σ) (as bs : List α) :
    m.runWhere ok s (as ++ bs) = (m.runWhere ok s as).bind fun s' => m.runWhere ok s' bs := by
  induction as generalizing s with
  | nil => rfl
  | cons a as ih =>
    rw [List.cons_append, runWhere, runWhere]
    split
    · cases h : m.step s a with
      | none => rfl
      | some s' => simp [ih]
    · rfl

theorem run_of_runWhere {m : Machine σ α} {ok : σ → α → Prop} [∀ s a, Decidable (ok s a)]
    {s s' : σ} {as : List α} (h : m.runWhere ok s as = some s') : m.run s as = some s' := by
  induction as generalizing s with
  | nil => exact h
  | cons a as ih =>
    rw [runWhere] at h
    split at h
    · obtain ⟨s₁, hstep, hrest⟩ := Option.bind_eq_some_iff.mp h
      rw [run_cons, hstep, Option.bind_some]
      exact ih hrest
    · cases h

/-- A guarded run that ends with the thread blocked is a fair behavior of guarded steps. -/
theorem exists_behavior_where {m : Machine σ α} {T : α → Prop} {ok : σ → α → Prop}
    [∀ s a, Decidable (ok s a)] {as : List α} {s : σ} (hrun : m.runWhere ok m.init as = some s)
    (hblocked : ¬ m.Enabled T s) :
    ∃ b : Behavior m, b.Fair T ∧ b.Where ok ∧ ∀ n, b.label n = as[n]? := by
  obtain ⟨b, hfair, hlabel, hstate⟩ := exists_behavior (run_of_runWhere hrun) hblocked
  refine ⟨b, hfair, fun n a hl => ?_, hlabel⟩
  rw [hlabel] at hl
  obtain ⟨hn, rfl⟩ := List.getElem?_eq_some_iff.mp hl
  -- the guard was checked in the state that the first `n` labels lead to
  have hsplit := hrun
  rw [← List.take_append_drop n as, runWhere_append] at hsplit
  obtain ⟨s₁, h1, h2⟩ := Option.bind_eq_some_iff.mp hsplit
  have hs₁ : s₁ = b.state n := by
    have hfollow := hstate n
    rw [follow, run_of_runWhere h1] at hfollow
    exact Option.some.inj hfollow
  rw [List.drop_eq_getElem_cons hn, runWhere] at h2
  split at h2
  next hok => exact hs₁ ▸ hok
  · cases h2

end Machine
