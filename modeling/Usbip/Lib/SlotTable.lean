import Mathlib.Data.List.Pairwise
import Mathlib.Data.List.Basic

/-!
# Tables of slots searched by name

A table is a list of slots. `key e` is the name a slot carries, `none` when the slot is free,
and `find key l k` is the first slot that carries `k`. When no name occurs twice (`Distinct`)
the table is a partial map from names to slots, and overwriting one slot updates that map:

* `find_replace` says what every search finds afterwards;
* `Distinct.replace` says when the names stay distinct.

The slot that a search by index stops at is written `pre ++ e :: post` (`exists_split`).
-/

namespace SlotTable

universe u v

variable {σ : Type u} {κ : Type v}

/-- The first slot that carries the name `k`. -/
def find [DecidableEq κ] (key : σ → Option κ) (l : List σ) (k : κ) : Option σ :=
  l.find? fun e => key e = some k

/-- No name occurs in two slots. -/
def Distinct (key : σ → Option κ) (l : List σ) : Prop :=
  l.Pairwise fun x y => ∀ k, key x = some k → key y ≠ some k

/-- A search by index splits the table at the slot it stops at. -/
theorem exists_split {p : σ → Bool} {l : List σ} {i : ℕ} (h : l.findIdx? p = some i) :
    ∃ pre e post, l = pre ++ e :: post ∧ pre.length = i ∧ p e = true ∧
      ∀ x ∈ pre, p x = false := by
  obtain ⟨hi, hp, hbefore⟩ := List.findIdx?_eq_some_iff_getElem.mp h
  refine ⟨l.take i, l[i], l.drop (i + 1), ?_, ?_, hp, ?_⟩
  · rw [List.getElem_cons_drop, List.take_append_drop]
  · rw [List.length_take, Nat.min_eq_left (Nat.le_of_lt hi)]
  · intro x hx
    obtain ⟨j, hj, rfl⟩ := List.mem_iff_getElem.mp hx
    rw [List.length_take] at hj
    rw [List.getElem_take]
    simpa using hbefore j (by omega)

/-- Rewriting the slot that a table is split at. -/
theorem modify_split (pre : List σ) (e : σ) (post : List σ) (f : σ → σ) :
    (pre ++ e :: post).modify pre.length f = pre ++ f e :: post := by
  induction pre with
  | nil => rfl
  | cons x pre ih => simp [ih]

/-- Taking a slot out leaves the other names distinct. -/
theorem Distinct.remove {key : σ → Option κ} {pre post : List σ} {e : σ}
    (h : Distinct key (pre ++ e :: post)) : Distinct key (pre ++ post) :=
  h.sublist (List.Sublist.append_left (List.sublist_cons_self e post) pre)

section Search

variable [DecidableEq κ] {key : σ → Option κ} {pre post l : List σ} {e e' : σ} {k : κ}

/-- A search finds a slot of the table that carries the name. -/
theorem mem_of_find (h : find key l k = some e) : e ∈ l ∧ key e = some k :=
  ⟨List.mem_of_find?_eq_some h, by simpa using List.find?_some h⟩

/-- A search that fails has seen every slot. -/
theorem find_eq_none : find key l k = none ↔ ∀ e ∈ l, key e ≠ some k := by
  simp [find]

/-- In the middle of a table with distinct names, a slot is found under its own name. -/
theorem find_middle (h : Distinct key (pre ++ e :: post)) :
    find key (pre ++ e :: post) k =
      if key e = some k then some e else find key (pre ++ post) k := by
  obtain ⟨-, -, hcross⟩ := List.pairwise_append.mp h
  split
  next he =>
    -- no earlier slot carries the name
    have hpre : find key pre k = none :=
      find_eq_none.mpr fun x hx hk => hcross x hx e List.mem_cons_self k hk he
    rw [find, List.find?_append, ← find, hpre, Option.none_or,
      List.find?_cons_of_pos (by simpa using he)]
  next he =>
    rw [find, List.find?_append, List.find?_cons_of_neg (by simpa using he),
      ← List.find?_append, ← find]

/-- **Overwriting a slot keeps the names distinct** when the new name is the old one or was
free. -/
theorem Distinct.replace (h : Distinct key (pre ++ e :: post))
    (hnew : ∀ k, key e' = some k → key e = some k ∨ find key (pre ++ e :: post) k = none) :
    Distinct key (pre ++ e' :: post) := by
  have hrest := h.remove
  obtain ⟨hpre, hpost, hcross⟩ := List.pairwise_append.mp h
  obtain ⟨hpre', hpost', hcross'⟩ := List.pairwise_append.mp hrest
  -- a slot other than the overwritten one never carries the new name
  have hother : ∀ x ∈ pre ++ post, ∀ k, key e' = some k → key x ≠ some k := by
    intro x hx k hk hxk
    rcases hnew k hk with hek | hnone
    · rcases List.mem_append.mp hx with hx | hx
      · exact hcross x hx e List.mem_cons_self k hxk hek
      · exact (List.pairwise_cons.mp hpost).1 x hx k hek hxk
    · refine find_eq_none.mp hnone x ?_ hxk
      rcases List.mem_append.mp hx with hx | hx
      · exact List.mem_append_left _ hx
      · exact List.mem_append_right _ (List.mem_cons_of_mem _ hx)
  refine List.pairwise_append.mpr ⟨hpre', List.pairwise_cons.mpr ⟨?_, hpost'⟩, ?_⟩
  · exact fun x hx k hk => hother x (List.mem_append_right _ hx) k hk
  · intro x hx y hy k hxk
    rcases List.mem_cons.mp hy with rfl | hy
    · exact fun hk => hother x (List.mem_append_left _ hx) k hk hxk
    · exact hcross' x hx y hy k hxk

/-- **Overwriting a slot updates the map**: the new name finds the new slot, the old name
nothing unless it was kept, and every other name what it found before. -/
theorem find_replace (h : Distinct key (pre ++ e :: post))
    (hnew : ∀ k, key e' = some k → key e = some k ∨ find key (pre ++ e :: post) k = none) :
    find key (pre ++ e' :: post) k =
      if key e' = some k then some e'
      else if key e = some k then none
      else find key (pre ++ e :: post) k := by
  rw [find_middle (h.replace hnew)]
  split
  · rfl
  · split
    next hek =>
      refine find_eq_none.mpr fun x hx hxk => ?_
      obtain ⟨-, hpost, hcross⟩ := List.pairwise_append.mp h
      rcases List.mem_append.mp hx with hx | hx
      · exact hcross x hx e List.mem_cons_self k hxk hek
      · exact (List.pairwise_cons.mp hpost).1 x hx k hek hxk
    next hek => rw [find_middle h, if_neg hek]

end Search

end SlotTable
