import Mathlib.Data.List.Basic

/-!
# Histories that grow at the end

A history is the list of events emitted so far, oldest first. `Historical P l` says that
every entry of `l` stands in the relation `P` to the entries before it, which is how orders
("the reply only after the request") and alternations ("never twice without one between")
are stated. Appending one event checks that event only (`historical_concat`).
-/

namespace Trace

universe u

variable {α : Type u} {P Q : List α → α → Prop} {l : List α}

/-- Every entry of the history meets `P` with respect to the entries before it. -/
def Historical (P : List α → α → Prop) (l : List α) : Prop :=
  ∀ pre e post, l = pre ++ e :: post → P pre e

@[simp] theorem historical_nil : Historical P [] := by
  intro pre e post h
  simp at h

/-- Appending an event checks it against the whole history so far. -/
theorem historical_concat {e : α} :
    Historical P (l ++ [e]) ↔ Historical P l ∧ P l e := by
  constructor
  · intro h
    refine ⟨fun pre e' post hl => h pre e' (post ++ [e]) (by simp [hl]), h l e [] rfl⟩
  · rintro ⟨hl, he⟩ pre e' post heq
    rcases List.eq_nil_or_concat post with rfl | ⟨post', x, rfl⟩
    · obtain ⟨rfl, h2⟩ := List.append_inj' heq rfl
      obtain rfl : e = e' := by simpa using h2
      exact he
    · have h' : l ++ [e] = (pre ++ e' :: post') ++ [x] := by
        simpa [List.concat_eq_append] using heq
      obtain ⟨h1, -⟩ := List.append_inj' h' rfl
      exact hl pre e' post' h1

/-- A history that meets a stronger relation meets a weaker one. -/
theorem Historical.imp (himp : ∀ pre e, P pre e → Q pre e) (h : Historical P l) :
    Historical Q l :=
  fun pre e post hl => himp pre e (h pre e post hl)

end Trace
