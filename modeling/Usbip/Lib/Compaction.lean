import Mathlib.Algebra.Ring.Nat
import Mathlib.Algebra.Order.BigOperators.Group.List
import Mathlib.Algebra.Order.Group.Nat
import Mathlib.Tactic.Common

/-!
# Packing slots together, and spreading them out in place

A buffer has slots, one after the other, of which only the first `len` entries are in use. `compact`
lists the entries in use without the gaps between them. To undo this inside the buffer that holds
the packed entries at its start, each slot is moved back to its place, the last one first (`moves`).
Source and destination of a move may overlap.

The order matters for one reason only: no move touches the source of a move that is still to come
(`moves_pairwise`). From this the slots still packed stay as they are (`packed_take`), and every
slot ends up in its place (`restored_moves`). When the slots in use fill the buffer there are no
gaps, and nothing has to move (`restored_of_full`).
-/

namespace Compaction

universe u

variable {α : Type u}

/-- A slot of a buffer, with the number of its entries that are in use. -/
structure Slot where
  off : ℕ
  cap : ℕ
  len : ℕ
  deriving DecidableEq, Repr

/-- A copy from one place of a buffer to another. -/
structure Move where
  dest : ℕ
  src : ℕ
  len : ℕ
  deriving DecidableEq, Repr

/-- A move reads all entries before it writes any. -/
def Move.run (mem : ℕ → α) (m : Move) : ℕ → α := fun x =>
  if m.dest ≤ x ∧ x < m.dest + m.len then mem (m.src + (x - m.dest)) else mem x

/-- The number of entries in use. -/
def used (slots : List Slot) : ℕ := (slots.map (·.len)).sum

/-- The entries in use, without the gaps. -/
def compact (mem : ℕ → α) (slots : List Slot) : List α :=
  slots.flatMap fun s => (List.range s.len).map fun i => mem (s.off + i)

/-- The moves that spread out slots whose entries are packed from `src` on. -/
def moves (src : ℕ) : List Slot → List Move
  | [] => []
  | s :: slots => moves (src + s.len) slots ++ [⟨s.off, src, s.len⟩]

/-- The slots follow one another from `pos` on, up to `size`. -/
def InOrder (size : ℕ) : ℕ → List Slot → Prop
  | pos, [] => pos ≤ size
  | pos, s :: slots => pos ≤ s.off ∧ s.len ≤ s.cap ∧ InOrder size (s.off + s.cap) slots

/-- The entries in use of the slots of `orig` are packed in `mem`, from `src` on. -/
def Packed (mem orig : ℕ → α) : ℕ → List Slot → Prop
  | _, [] => True
  | src, s :: slots =>
    (∀ i, i < s.len → mem (src + i) = orig (s.off + i)) ∧ Packed mem orig (src + s.len) slots

/-- The entries in use are where they are in `orig`. -/
def Restored (mem orig : ℕ → α) (slots : List Slot) : Prop :=
  ∀ s ∈ slots, ∀ i, i < s.len → mem (s.off + i) = orig (s.off + i)

variable {mem orig : ℕ → α} {size pos src : ℕ} {s : Slot} {slots : List Slot}

@[simp] theorem used_cons : used (s :: slots) = s.len + used slots := by simp [used]

@[simp] theorem used_append (slots' : List Slot) :
    used (slots ++ slots') = used slots + used slots' := by
  simp [used]

theorem len_le_used (hs : s ∈ slots) : s.len ≤ used slots :=
  List.single_le_sum (fun _ _ => Nat.zero_le _) _ (List.mem_map_of_mem hs)

/-- The last slot is moved first. -/
theorem moves_append_singleton (src : ℕ) (slots : List Slot) (s : Slot) :
    moves src (slots ++ [s]) = ⟨s.off, src + used slots, s.len⟩ :: moves src slots := by
  induction slots generalizing src with
  | nil => rfl
  | cons t slots ih =>
    rw [List.cons_append, moves, ih, moves, List.cons_append, used_cons, Nat.add_assoc]

@[simp] theorem length_moves (src : ℕ) (slots : List Slot) :
    (moves src slots).length = slots.length := by
  induction slots generalizing src with
  | nil => rfl
  | cons s slots ih =>
    rw [moves, List.length_append, ih]
    rfl

/-! ### Slots in order -/

/-- It is enough that each slot ends before the next one starts. -/
theorem inOrder_of_adjacent (hpos : pos ≤ size) (hfirst : ∀ s ∈ slots[0]?, pos ≤ s.off)
    (hslots : ∀ s ∈ slots, s.len ≤ s.cap ∧ s.off + s.cap ≤ size)
    (hnext : ∀ i s t, slots[i]? = some s → slots[i + 1]? = some t → s.off + s.cap ≤ t.off) :
    InOrder size pos slots := by
  induction slots generalizing pos with
  | nil => exact hpos
  | cons s slots ih =>
    obtain ⟨hlen, hend⟩ := hslots s List.mem_cons_self
    refine ⟨hfirst s rfl, hlen, ih hend (fun t ht => hnext 0 s t rfl ?_)
      (fun t ht => hslots t (List.mem_cons_of_mem _ ht))
      fun i t t' ht ht' => hnext (i + 1) t t' ?_ ?_⟩
    · simpa using ht
    · simpa using ht
    · simpa using ht'

theorem InOrder.used_le (h : InOrder size pos slots) : pos + used slots ≤ size := by
  induction slots generalizing pos with
  | nil => exact h
  | cons s slots ih =>
    obtain ⟨hoff, hlen, hrest⟩ := h
    have hle := ih hrest
    rw [used_cons]
    omega

theorem InOrder.le_dest (h : InOrder size pos slots) {m : Move} (hm : m ∈ moves src slots) :
    pos ≤ m.dest := by
  induction slots generalizing pos src with
  | nil => exact absurd hm List.not_mem_nil
  | cons s slots ih =>
    obtain ⟨hoff, hlen, hrest⟩ := h
    rw [moves, List.mem_append, List.mem_singleton] at hm
    obtain hm | rfl := hm
    · have hle := ih hrest hm
      omega
    · exact hoff

theorem InOrder.le_off (h : InOrder size pos slots) (hs : s ∈ slots) : pos ≤ s.off := by
  induction slots generalizing pos with
  | nil => exact absurd hs List.not_mem_nil
  | cons t slots ih =>
    obtain ⟨hoff, hlen, hrest⟩ := h
    obtain rfl | hs := List.mem_cons.mp hs
    · exact hoff
    · have hle := ih hrest hs
      omega

/-- **No move touches the source of a move that is still to come.** -/
theorem moves_pairwise (h : InOrder size pos slots) (hsrc : src ≤ pos) :
    (moves src slots).Pairwise fun m m' => m'.src + m'.len ≤ m.dest := by
  induction slots generalizing pos src with
  | nil => exact .nil
  | cons s slots ih =>
    obtain ⟨hoff, hlen, hrest⟩ := h
    rw [moves, List.pairwise_append]
    refine ⟨ih hrest (by omega), List.pairwise_singleton _ _, fun m hm m' hm' => ?_⟩
    obtain rfl := List.mem_singleton.mp hm'
    have hle := hrest.le_dest hm
    dsimp only
    omega

/-! ### Running the moves -/

theorem Move.run_of_lt {m : Move} {x : ℕ} (h : x < m.dest) : m.run mem x = mem x :=
  if_neg fun h' => by omega

theorem Move.run_of_ge {m : Move} {x : ℕ} (h : m.dest + m.len ≤ x) : m.run mem x = mem x :=
  if_neg fun h' => by omega

theorem Move.run_dest (m : Move) {i : ℕ} (h : i < m.len) :
    m.run mem (m.dest + i) = mem (m.src + i) := by
  rw [Move.run, if_pos ⟨by omega, by omega⟩, Nat.add_sub_cancel_left]

/-- Below every destination nothing changes. -/
theorem foldl_run_of_lt {ms : List Move} (h : ∀ m ∈ ms, pos ≤ m.dest) {x : ℕ} (hx : x < pos) :
    ms.foldl Move.run mem x = mem x := by
  induction ms generalizing mem with
  | nil => rfl
  | cons m ms ih =>
    rw [List.foldl_cons, ih fun m' hm' => h m' (List.mem_cons_of_mem _ hm')]
    exact Move.run_of_lt (Nat.lt_of_lt_of_le hx (h m List.mem_cons_self))

/-- Once the moves are made every slot is in its place. -/
theorem restored_moves (h : InOrder size pos slots) (hsrc : src ≤ pos)
    (hpacked : Packed mem orig src slots) :
    Restored ((moves src slots).foldl Move.run mem) orig slots := by
  induction slots generalizing pos src with
  | nil => exact fun s hs => absurd hs List.not_mem_nil
  | cons s slots ih =>
    obtain ⟨hoff, hlen, hrest⟩ := h
    obtain ⟨hhead, htail⟩ := hpacked
    have hdone := ih hrest (by omega) htail
    rw [moves, List.foldl_append, List.foldl_cons, List.foldl_nil]
    intro t ht i hi
    obtain rfl | ht := List.mem_cons.mp ht
    · -- the source of this move has been left alone by those before it
      have hlt : src + i < t.off + t.cap := by omega
      rw [Move.run_dest ⟨t.off, src, t.len⟩ hi, ← hhead i hi]
      exact foldl_run_of_lt (fun m hm => hrest.le_dest hm) hlt
    · rw [Move.run_of_ge, hdone t ht i hi]
      have hle := hrest.le_off ht
      dsimp only
      omega

/-- After `k` moves all but the last `k` slots are still packed. -/
theorem packed_take (h : InOrder size pos slots) (hsrc : src ≤ pos)
    (hpacked : Packed mem orig src slots) (k : ℕ) :
    Packed (((moves src slots).take k).foldl Move.run mem) orig src
      (slots.take (slots.length - k)) := by
  induction slots generalizing pos src with
  | nil => rw [List.take_nil]; exact trivial
  | cons s slots ih =>
    obtain ⟨hoff, hlen, hrest⟩ := h
    obtain ⟨hhead, htail⟩ := hpacked
    have hcount : (moves (src + s.len) slots).length = slots.length := length_moves _ _
    by_cases hk : k ≤ slots.length
    · rw [moves, List.take_append_of_le_length (by omega), List.length_cons,
        Nat.succ_sub hk, List.take_succ_cons]
      refine ⟨fun i hi => ?_, ih hrest (by omega) htail⟩
      rw [← hhead i hi]
      have hlt : src + i < s.off + s.cap := by omega
      exact foldl_run_of_lt (fun m hm => hrest.le_dest (List.mem_of_mem_take hm)) hlt
    · rw [List.length_cons, Nat.sub_eq_zero_of_le (by omega), List.take_zero]
      exact trivial

/-- Slots whose entries in use fill the buffer have no gaps: packed, they are in their places. -/
theorem restored_of_full (h : InOrder size pos slots) (hfull : pos + used slots = size)
    (hpacked : Packed mem orig pos slots) : Restored mem orig slots := by
  induction slots generalizing pos with
  | nil => exact fun s hs => absurd hs List.not_mem_nil
  | cons s slots ih =>
    obtain ⟨hoff, hlen, hrest⟩ := h
    obtain ⟨hhead, htail⟩ := hpacked
    have hle := hrest.used_le
    rw [used_cons] at hfull
    have hpos : s.off = pos := by omega
    have hcap : s.cap = s.len := by omega
    intro t ht i hi
    obtain rfl | ht := List.mem_cons.mp ht
    · rw [← hhead i hi, hpos]
    · rw [hpos, hcap] at hrest
      exact ih hrest (by omega) htail t ht i hi

/-! ### Packing -/

/-- Where a buffer holds what `compact` lists, the slots are packed. -/
theorem packed_of_compact
    (h : ∀ i, i < used slots → (compact orig slots)[i]? = some (mem (src + i))) :
    Packed mem orig src slots := by
  induction slots generalizing src with
  | nil => exact trivial
  | cons s slots ih =>
    have hlen : ((List.range s.len).map fun i => orig (s.off + i)).length = s.len := by simp
    rw [used_cons] at h
    refine ⟨fun i hi => ?_, ih fun i hi => ?_⟩
    · have hi' := h i (by omega)
      rw [compact, List.flatMap_cons, List.getElem?_append_left (by omega)] at hi'
      simpa [hi] using hi'.symm
    · have hi' := h (s.len + i) (by omega)
      rw [compact, List.flatMap_cons, List.getElem?_append_right (by omega), hlen,
        Nat.add_sub_cancel_left] at hi'
      rw [Nat.add_assoc]
      exact hi'

theorem length_compact (mem : ℕ → α) (slots : List Slot) :
    (compact mem slots).length = used slots := by
  rw [compact, List.length_flatMap, used]
  simp

/-- A packed slot lies behind the entries of those before it. -/
theorem Packed.getElem (h : Packed mem orig src slots) {j : ℕ} (hj : slots[j]? = some s) {i : ℕ}
    (hi : i < s.len) : mem (src + used (slots.take j) + i) = orig (s.off + i) := by
  induction slots generalizing src j with
  | nil => simp at hj
  | cons t slots ih =>
    obtain ⟨hhead, htail⟩ := h
    cases j with
    | zero =>
      obtain rfl : t = s := by simpa using hj
      exact hhead i hi
    | succ j =>
      rw [List.take_succ_cons, used_cons, ← Nat.add_assoc]
      exact ih htail (by simpa using hj)

end Compaction
