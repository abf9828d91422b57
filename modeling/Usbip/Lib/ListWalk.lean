import Mathlib.Data.List.Basic

/-!
# Walking a list to its first match

The loops over intrusive lists all have one shape: visit the entries in order, stop at the
first one that satisfies a test, and then remove, move or update that entry. `findSplit`
returns the entries before the match, the match and the entries after it, so each of these
updates is written with `++` and the two facts a proof needs (where the entry stood, and that
no earlier entry matched) come from `findSplit_eq_some`.
-/

namespace ListWalk

universe u v

variable {α : Type u} {β : Type v} {p : α → Bool} {l l₁ l₂ : List α} {a : α}

/-- Split a list at its first entry satisfying `p`. -/
def findSplit (p : α → Bool) : List α → Option (List α × α × List α)
  | [] => none
  | a :: l =>
    if p a then some ([], a, l)
    else (findSplit p l).map fun r => (a :: r.1, r.2.1, r.2.2)

@[simp] theorem findSplit_nil : findSplit p [] = none := rfl

theorem findSplit_cons :
    findSplit p (a :: l) = if p a then some ([], a, l)
      else (findSplit p l).map fun r => (a :: r.1, r.2.1, r.2.2) := rfl

/-- What a successful walk found. -/
theorem findSplit_eq_some (h : findSplit p l = some (l₁, a, l₂)) :
    l = l₁ ++ a :: l₂ ∧ p a = true ∧ ∀ x ∈ l₁, p x = false := by
  induction l generalizing l₁ with
  | nil => simp at h
  | cons b l ih =>
    rw [findSplit_cons] at h
    split at h
    · next hb =>
      obtain ⟨rfl, rfl, rfl⟩ : l₁ = [] ∧ b = a ∧ l = l₂ := by simpa [eq_comm] using h
      simpa using hb
    · next hb =>
      obtain ⟨⟨r₁, b', r₂⟩, hr, heq⟩ := Option.map_eq_some_iff.mp h
      obtain ⟨rfl, rfl, rfl⟩ : b :: r₁ = l₁ ∧ b' = a ∧ r₂ = l₂ := by simpa using heq
      obtain ⟨hl, hpa, hpre⟩ := ih hr
      refine ⟨by simp [hl], hpa, fun x hx => ?_⟩
      rcases List.mem_cons.mp hx with rfl | hx
      · simpa using hb
      · exact hpre x hx

/-- A walk finds nothing exactly when no entry matches. -/
theorem findSplit_eq_none : findSplit p l = none ↔ ∀ x ∈ l, p x = false := by
  induction l with
  | nil => simp
  | cons b l ih =>
    rw [findSplit_cons]
    split
    · next hb => simp [hb]
    · next hb => simp [ih, hb]

/-- A walk over a list with a matching entry finds one. -/
theorem exists_findSplit (ha : a ∈ l) (hp : p a = true) :
    ∃ l₁ b l₂, findSplit p l = some (l₁, b, l₂) := by
  cases h : findSplit p l with
  | none => exact absurd (findSplit_eq_none.mp h a ha) (by simp [hp])
  | some r => exact ⟨r.1, r.2.1, r.2.2, rfl⟩

/-- A walk finds something exactly when an entry matches. -/
theorem findSplit_isSome : (findSplit p l).isSome ↔ ∃ x ∈ l, p x = true := by
  rw [← not_iff_not, Bool.not_eq_true, Option.isSome_eq_false_iff, Option.isNone_iff_eq_none,
    findSplit_eq_none]
  simp

end ListWalk
