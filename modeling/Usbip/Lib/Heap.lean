import Mathlib.Data.List.Nodup
import Mathlib.Data.List.Basic
import Mathlib.Logic.Function.Basic
import Mathlib.Tactic.Common

/-!
# Freeing blocks

An allocator knows which blocks are live. A pointer may be freed when it is the start of one;
then the block is live no more. `freeAll_eq_some_iff` says when a list of pointers can be freed one
after the other, and what is left.
-/

namespace Heap

universe u

variable {β : Type u}

/-- `off` bytes into a block. -/
structure Pointer (β : Type u) where
  block : β
  off : ℕ
  deriving DecidableEq, Repr

/-- The start of a block. -/
def Pointer.start (b : β) : Pointer β := ⟨b, 0⟩

variable [DecidableEq β]

/-- Free a pointer; `none` unless it is the start of a live block. -/
def free (live : β → Bool) (p : Pointer β) : Option (β → Bool) :=
  if p.off = 0 ∧ live p.block = true then some (Function.update live p.block false) else none

/-- Free a pointer that may be null, which does nothing. -/
def freeOpt (live : β → Bool) : Option (Pointer β) → Option (β → Bool)
  | none => some live
  | some p => free live p

/-- Free pointers from left to right. -/
def freeAll (live : β → Bool) : List (Pointer β) → Option (β → Bool)
  | [] => some live
  | p :: ps => (free live p).bind fun live => freeAll live ps

/-- The blocks that are live after `ps` have been freed. -/
def remaining (live : β → Bool) (ps : List (Pointer β)) : β → Bool :=
  fun b => live b && decide (b ∉ ps.map Pointer.block)

theorem free_of_live {live : β → Bool} {b : β} (h : live b = true) :
    free live (.start b) = some (Function.update live b false) := if_pos ⟨rfl, h⟩

theorem free_of_not_live {live : β → Bool} {p : Pointer β} (h : live p.block = false) :
    free live p = none := if_neg fun hp => by simp [h] at hp

theorem remaining_cons (live : β → Bool) (p : Pointer β) (ps : List (Pointer β)) :
    remaining (Function.update live p.block false) ps = remaining live (p :: ps) := by
  funext b
  by_cases hb : b = p.block
  · simp [remaining, hb]
  · simp [remaining, hb]

/-- Pointers can be freed one after the other when each is the start of a live block and no block
comes twice. -/
theorem freeAll_eq_some_iff {live live' : β → Bool} {ps : List (Pointer β)} :
    freeAll live ps = some live' ↔
      (∀ p ∈ ps, p.off = 0 ∧ live p.block = true) ∧ (ps.map Pointer.block).Nodup ∧
        live' = remaining live ps := by
  induction ps generalizing live with
  | nil =>
    have hremaining : remaining live [] = live := by
      funext b
      simp [remaining]
    rw [freeAll, Option.some_inj, hremaining]
    exact ⟨fun h => ⟨fun p hp => absurd hp List.not_mem_nil, List.nodup_nil, h.symm⟩,
      fun h => h.2.2.symm⟩
  | cons p ps ih =>
    rw [freeAll, free]
    by_cases hp : p.off = 0 ∧ live p.block = true
    swap
    · rw [if_neg hp]
      exact iff_of_false (by simp) fun h => hp (h.1 p List.mem_cons_self)
    rw [if_pos hp, Option.bind_some, ih, remaining_cons, List.map_cons, List.nodup_cons]
    constructor
    · rintro ⟨hall, hnodup, rfl⟩
      have hfresh : ∀ q ∈ ps, q.block ≠ p.block := by
        intro q hq heq
        have hlive := (hall q hq).2
        rw [heq, Function.update_self] at hlive
        exact absurd hlive Bool.false_ne_true
      refine ⟨fun q hq => ?_, ⟨fun hmem => ?_, hnodup⟩, rfl⟩
      · rcases List.mem_cons.mp hq with rfl | hq
        · exact hp
        · have hlive := hall q hq
          rwa [Function.update_of_ne (hfresh q hq)] at hlive
      · obtain ⟨q, hq, heq⟩ := List.mem_map.mp hmem
        exact hfresh q hq heq
    · rintro ⟨hall, ⟨hmem, hnodup⟩, rfl⟩
      refine ⟨fun q hq => ?_, hnodup, rfl⟩
      have hne : q.block ≠ p.block := fun heq => hmem (List.mem_map.mpr ⟨q, hq, heq⟩)
      rw [Function.update_of_ne hne]
      exact hall q (List.mem_cons_of_mem p hq)

/-- A block that is freed was live, and is no more. -/
theorem eq_false_of_mem_of_freeAll {live live' : β → Bool} {ps : List (Pointer β)}
    (h : freeAll live ps = some live') {p : Pointer β} (hp : p ∈ ps) : live' p.block = false := by
  obtain ⟨-, -, rfl⟩ := freeAll_eq_some_iff.mp h
  have hmem : p.block ∈ ps.map Pointer.block := List.mem_map.mpr ⟨p, hp, rfl⟩
  rw [remaining, decide_eq_false (not_not_intro hmem), Bool.and_false]

/-- The other blocks are as they were. -/
theorem eq_of_notMem_of_freeAll {live live' : β → Bool} {ps : List (Pointer β)}
    (h : freeAll live ps = some live') {b : β} (hb : ∀ p ∈ ps, p.block ≠ b) : live' b = live b := by
  obtain ⟨-, -, rfl⟩ := freeAll_eq_some_iff.mp h
  have hmem : b ∉ ps.map Pointer.block := fun hmem => by
    obtain ⟨p, hp, heq⟩ := List.mem_map.mp hmem
    exact hb p hp heq
  rw [remaining, decide_eq_true hmem, Bool.and_true]

end Heap
