import Mathlib.Data.List.Nodup
import Mathlib.Data.Nat.Notation
import Mathlib.Logic.Function.Basic

/-!
# Intrusive circular lists

The doubly linked lists of `list.h`: a head and the linked nodes form one ring, and each of them
carries a `next` and a `prev` pointer. `Circular L h l` says that the ring of `h` holds exactly
the nodes `l`, in this order, with both pointers agreeing. Adding before the head and deleting a
node act on the list as expected (`Circular.listAddTail`, `Circular.listDel`), and a ring may be
read from any of its nodes (`Circular.rotate`).

The two loops over such a list are `forEach`, which reads `next` after its body, and
`forEachSafe`, which reads it before, so that the body may delete the node. Both visit the list
that the ring holds (`forEach_eq`, `forEachSafe_eq`).
-/

namespace ListHead

universe u v

open Function

variable {α : Type u} [DecidableEq α]

/-- The pointers of all list nodes. -/
structure Links (α : Type u) where
  next : α → α
  prev : α → α

namespace Links

/-- `INIT_LIST_HEAD`. -/
def initListHead (L : Links α) (h : α) : Links α := ⟨update L.next h h, update L.prev h h⟩

/-- `__list_add`. -/
def listAdd (L : Links α) (new prev next : α) : Links α where
  next := update (update L.next new next) prev new
  prev := update (update L.prev next new) new prev

/-- `list_add_tail`: the new node goes in front of the head. -/
def listAddTail (L : Links α) (new head : α) : Links α := L.listAdd new (L.prev head) head

/-- `list_del`. The node itself keeps its pointers here; in the kernel they are poisoned. -/
def listDel (L : Links α) (entry : α) : Links α where
  next := update L.next (L.prev entry) (L.next entry)
  prev := update L.prev (L.next entry) (L.prev entry)

end Links

/-- Both pointers between two neighbours agree. -/
def Linked (L : Links α) (a b : α) : Prop := L.next a = b ∧ L.prev b = a

/-- Following the pointers from `a` one passes the nodes `l` and arrives at `b`. -/
def Path (L : Links α) : α → List α → α → Prop
  | a, [], b => Linked L a b
  | a, x :: l, b => Linked L a x ∧ Path L x l b

/-- The ring of `h` holds the nodes `l`. -/
def Circular (L : Links α) (h : α) (l : List α) : Prop := Path L h l h ∧ (h :: l).Nodup

variable {L L' : Links α} {a b c h x : α} {l l₁ l₂ : List α}

omit [DecidableEq α] in
/-- A path splits at each of its nodes. -/
theorem path_append : Path L a (l₁ ++ x :: l₂) b ↔ Path L a l₁ x ∧ Path L x l₂ b := by
  induction l₁ generalizing a with
  | nil => rfl
  | cons y l₁ ih => simp only [List.cons_append, Path, ih, and_assoc]

omit [DecidableEq α] in
/-- A path depends on the `next` pointers of the nodes it leaves and the `prev` pointers of the
nodes it enters. -/
theorem Path.congr (h : Path L a l b) (hnext : ∀ y ∈ a :: l, L'.next y = L.next y)
    (hprev : ∀ y ∈ l ++ [b], L'.prev y = L.prev y) : Path L' a l b := by
  induction l generalizing a with
  | nil => exact ⟨(hnext a (by simp)).trans h.1, (hprev b (by simp)).trans h.2⟩
  | cons x l ih =>
    obtain ⟨hax, hpath⟩ := h
    refine ⟨⟨(hnext a (by simp)).trans hax.1, (hprev x (by simp)).trans hax.2⟩, ih hpath ?_ ?_⟩
    · exact fun y hy => hnext y (List.mem_cons_of_mem _ hy)
    · exact fun y hy => hprev y (List.mem_cons_of_mem _ hy)

omit [DecidableEq α] in
/-- The last step of a path. -/
theorem Path.last (h : Path L a l b) :
    l = [] ∧ Linked L a b ∨ ∃ l' x, l = l' ++ [x] ∧ Path L a l' x ∧ Linked L x b := by
  rcases List.eq_nil_or_concat l with rfl | ⟨l', x, rfl⟩
  · exact Or.inl ⟨rfl, h⟩
  · rw [List.concat_eq_append] at h ⊢
    obtain ⟨h1, h2⟩ := path_append.mp h
    exact Or.inr ⟨l', x, rfl, h1, h2⟩

omit [DecidableEq α] in
/-- The node before the end of a path is on it, and so is the one after its start. -/
theorem Path.prev_mem (h : Path L a l b) : L.prev b ∈ a :: l := by
  rcases h.last with ⟨rfl, hab⟩ | ⟨l', y, rfl, -, hyb⟩
  · simp [hab.2]
  · simp [hyb.2]

omit [DecidableEq α] in
theorem Path.next_mem (h : Path L a l b) : L.next a ∈ l ++ [b] := by
  cases l with
  | nil => simp [h.1]
  | cons x l => simp [h.1.1]

omit [DecidableEq α] in
/-- Paths to an end that is on neither of them agree. -/
theorem Path.unique (h₁ : Path L a l₁ b) (h₂ : Path L a l₂ b) (hb₁ : b ∉ l₁) (hb₂ : b ∉ l₂) :
    l₁ = l₂ := by
  induction l₁ generalizing a l₂ with
  | nil =>
    cases l₂ with
    | nil => rfl
    | cons y l₂ => exact absurd (h₁.1.symm.trans h₂.1.1) fun heq => hb₂ (by simp [heq])
  | cons x l₁ ih =>
    cases l₂ with
    | nil => exact absurd (h₂.1.symm.trans h₁.1.1) fun heq => hb₁ (by simp [heq])
    | cons y l₂ =>
      obtain rfl : x = y := h₁.1.1.symm.trans h₂.1.1
      rw [ih h₁.2 h₂.2 (fun h => hb₁ (by simp [h])) fun h => hb₂ (by simp [h])]

/-- Deleting a node joins the two paths that meet in it. -/
theorem Path.listDel (h₁ : Path L a l₁ x) (h₂ : Path L x l₂ b) (ha : (a :: (l₁ ++ l₂)).Nodup)
    (hb : ((l₁ ++ l₂) ++ [b]).Nodup) : Path (L.listDel x) a (l₁ ++ l₂) b := by
  induction l₁ generalizing a with
  | nil =>
    have hprev : L.prev x = a := h₁.2
    cases l₂ with
    | nil =>
      have hnext : L.next x = b := h₂.1
      exact ⟨by simp [Links.listDel, hprev, hnext], by simp [Links.listDel, hprev, hnext]⟩
    | cons y l₂ =>
      obtain ⟨⟨hnext, -⟩, hpath⟩ := h₂
      refine ⟨⟨by simp [Links.listDel, hprev, hnext], by simp [Links.listDel, hprev, hnext]⟩,
        hpath.congr (fun z hz => ?_) fun z hz => ?_⟩
      · have hza : z ≠ a := fun heq => (List.nodup_cons.mp ha).1 (heq ▸ hz)
        simp [Links.listDel, hprev, hza]
      · have hzy : z ≠ y := fun heq => (List.nodup_cons.mp hb).1 (heq ▸ hz)
        simp [Links.listDel, hnext, hzy]
  | cons y l₁ ih =>
    obtain ⟨⟨hay, hya⟩, hpath⟩ := h₁
    rw [List.cons_append] at ha hb ⊢
    -- the first step is not one of the two that the deletion changes
    have hap : a ≠ L.prev x := by
      rintro rfl
      refine (List.nodup_cons.mp ha).1 ?_
      rw [← List.cons_append]
      exact List.mem_append_left _ hpath.prev_mem
    have hyn : y ≠ L.next x := by
      rintro rfl
      refine (List.nodup_cons.mp hb).1 ?_
      change _ ∈ (l₁ ++ l₂) ++ [b]
      rw [List.append_assoc]
      exact List.mem_append_right _ h₂.next_mem
    refine ⟨⟨?_, ?_⟩, ih hpath (List.nodup_cons.mp ha).2 (List.nodup_cons.mp hb).2⟩
    · simpa [Links.listDel, hap] using hay
    · simpa [Links.listDel, hyn] using hya

namespace Circular

omit [DecidableEq α] in
/-- A ring does not depend on the pointers of other nodes. -/
theorem congr (hc : Circular L h l) (hnext : ∀ y ∈ h :: l, L'.next y = L.next y)
    (hprev : ∀ y ∈ h :: l, L'.prev y = L.prev y) : Circular L' h l := by
  refine ⟨hc.1.congr hnext fun y hy => hprev y ?_, hc.2⟩
  rcases List.mem_append.mp hy with hy | hy
  · exact List.mem_cons_of_mem _ hy
  · rw [List.mem_singleton.mp hy]
    exact List.mem_cons_self

/-- `INIT_LIST_HEAD` makes an empty list. -/
theorem initListHead (L : Links α) (h : α) : Circular (L.initListHead h) h [] :=
  ⟨⟨update_self .., update_self ..⟩, by simp⟩

omit [DecidableEq α] in
/-- A ring read from another of its nodes. -/
theorem rotate (hc : Circular L h (l₁ ++ x :: l₂)) : Circular L x (l₂ ++ h :: l₁) := by
  obtain ⟨h1, h2⟩ := path_append.mp hc.1
  refine ⟨path_append.mpr ⟨h2, h1⟩, ?_⟩
  have hperm : (x :: (l₂ ++ h :: l₁)).Perm (h :: (l₁ ++ x :: l₂)) := by
    have hcomm := @List.perm_append_comm _ (x :: l₂) (h :: l₁)
    simpa using hcomm
  exact hperm.nodup_iff.mpr hc.2

/-- `list_add_tail` appends a node that is not on the list. -/
theorem listAddTail (hc : Circular L h l) (hx : x ∉ h :: l) :
    Circular (L.listAddTail x h) h (l ++ [x]) := by
  have hxh : x ≠ h := fun heq => hx (by simp [heq])
  have hnodup : (h :: (l ++ [x])).Nodup := by
    rw [← List.cons_append]
    exact List.nodup_append.mpr ⟨hc.2, by simp, fun y hy z hz hyz => by
      rw [List.mem_singleton.mp hz] at hyz
      exact hx (hyz ▸ hy)⟩
  refine ⟨path_append.mpr ?_, hnodup⟩
  rcases hc.1.last with ⟨rfl, hhh⟩ | ⟨l', y, rfl, hpath, hyh⟩
  · -- the first entry
    have hprev : L.prev h = h := hhh.2
    refine ⟨⟨?_, ?_⟩, ?_, ?_⟩ <;> simp [Links.listAddTail, Links.listAdd, hprev, hxh, hxh.symm]
  · have hprev : L.prev h = y := hyh.2
    have hyx : y ≠ x := fun heq => hx (by simp [heq])
    have hnd := hc.2
    have hyl : y ∉ h :: l' := by
      rw [← List.cons_append, List.nodup_append] at hnd
      exact fun hy => hnd.2.2 y hy y (by simp) rfl
    refine ⟨path_append.mpr ⟨?_, ?_, ?_⟩, ?_, ?_⟩
    · -- in front of the old last node nothing changes
      refine hpath.congr (fun z hz => ?_) fun z hz => ?_
      · have hzy : z ≠ y := fun heq => hyl (heq ▸ hz)
        have hzx : z ≠ x := fun heq => hx (by
          rw [← heq]
          rcases List.mem_cons.mp hz with rfl | hz
          · simp
          · simp [hz])
        simp [Links.listAddTail, Links.listAdd, hprev, hzy, hzx]
      · have hzh : z ≠ h := fun heq => (List.nodup_cons.mp hnd).1 (heq ▸ hz)
        have hzx : z ≠ x := fun heq => hx (List.mem_cons_of_mem _ (heq ▸ hz))
        simp [Links.listAddTail, Links.listAdd, hzh, hzx]
    all_goals simp [Links.listAddTail, Links.listAdd, hprev, hxh.symm, hyx.symm]

/-- `list_del` removes a node of the list. -/
theorem listDel (hc : Circular L h (l₁ ++ x :: l₂)) : Circular (L.listDel x) h (l₁ ++ l₂) := by
  obtain ⟨h₁, h₂⟩ := path_append.mp hc.1
  have hsub : (h :: (l₁ ++ l₂)).Sublist (h :: (l₁ ++ x :: l₂)) :=
    ((List.sublist_cons_self x l₂).append_left l₁).cons_cons h
  have hnodup := hc.2.sublist hsub
  refine ⟨h₁.listDel h₂ hnodup ?_, hnodup⟩
  exact (List.perm_append_singleton h (l₁ ++ l₂)).nodup_iff.mpr hnodup

/-- `INIT_LIST_HEAD` leaves the rings of other nodes alone. -/
theorem initListHead_other (hc : Circular L h l) (hx : x ∉ h :: l) :
    Circular (L.initListHead x) h l := by
  refine hc.congr (fun y hy => ?_) fun y hy => ?_
  all_goals
    have hyx : y ≠ x := fun heq => hx (heq ▸ hy)
    simp [Links.initListHead, hyx]

/-- `list_add_tail` leaves the rings of other nodes alone. -/
theorem listAddTail_other (hc : Circular L h l) (ha : a ∉ h :: l) (hb : b ∉ h :: l)
    (hprev : L.prev b ∉ h :: l) : Circular (L.listAddTail a b) h l := by
  refine hc.congr (fun y hy => ?_) fun y hy => ?_
  all_goals
    have hya : y ≠ a := fun heq => ha (heq ▸ hy)
    have hyb : y ≠ b := fun heq => hb (heq ▸ hy)
    have hyp : y ≠ L.prev b := fun heq => hprev (heq ▸ hy)
    simp [Links.listAddTail, Links.listAdd, hya, hyb, hyp]

omit [DecidableEq α] in
/-- The nodes of a ring follow each other. -/
theorem next_eq (hc : Circular L h (l₁ ++ x :: l₂)) : L.next x = l₂.headD h := by
  obtain ⟨-, hpath⟩ := path_append.mp hc.1
  cases l₂ with
  | nil => exact hpath.1
  | cons y l₂ => exact hpath.1.1

omit [DecidableEq α] in
theorem next_head (hc : Circular L h l) : L.next h = l.headD h := by
  cases l with
  | nil => exact hc.1.1
  | cons y l => exact hc.1.1.1

omit [DecidableEq α] in
/-- A ring determines its list. -/
theorem unique (hc : Circular L h l₁) (hc' : Circular L h l₂) : l₁ = l₂ :=
  hc.1.unique hc'.1 (List.nodup_cons.mp hc.2).1 (List.nodup_cons.mp hc'.2).1

end Circular

/-! ### Loops -/

variable {σ : Type v}

/-- The body applied to the nodes of a list in order, until it asks to stop. -/
def visit (body : α → σ → σ × Bool) : List α → σ → σ
  | [], s => s
  | x :: l, s => if (body x s).2 then (body x s).1 else visit body l (body x s).1

/-- `list_for_each`, from the node `x` on: `next` is read after the body. -/
def forEach (links : σ → Links α) (head : α) (body : α → σ → σ × Bool) : ℕ → α → σ → Option σ
  | 0, _, _ => none
  | fuel + 1, x, s =>
    if x = head then some s
    else if (body x s).2 then some (body x s).1
    else forEach links head body fuel ((links (body x s).1).next x) (body x s).1

/-- `list_for_each_safe`, from the node `x` on: `next` is read before the body. -/
def forEachSafe (links : σ → Links α) (head : α) (body : α → σ → σ × Bool) :
    ℕ → α → σ → Option σ
  | 0, _, _ => none
  | fuel + 1, x, s =>
    if x = head then some s
    else if (body x s).2 then some (body x s).1
    else forEachSafe links head body fuel ((links s).next x) (body x s).1

variable {links : σ → Links α} {body : α → σ → σ × Bool} {head : α}

/-- **The rule of `list_for_each`.** `I` is kept by the body at each node, and tells the nodes that
are still to come. -/
theorem forEach_eq {I : List α → σ → Prop}
    (hstep : ∀ x l s, I (x :: l) s → x ≠ head ∧
      ((body x s).2 = false → I l (body x s).1 ∧ (links (body x s).1).next x = l.headD head))
    {fuel : ℕ} {s : σ} (hI : I l s) (hfuel : l.length < fuel) :
    forEach links head body fuel (l.headD head) s = some (visit body l s) := by
  induction l generalizing fuel s with
  | nil =>
    obtain ⟨fuel, rfl⟩ : ∃ k, fuel = k + 1 := Nat.exists_eq_succ_of_ne_zero (by omega)
    simp [forEach, visit]
  | cons x l ih =>
    obtain ⟨fuel, rfl⟩ : ∃ k, fuel = k + 1 := Nat.exists_eq_succ_of_ne_zero (by omega)
    obtain ⟨hx, hgo⟩ := hstep x l s hI
    rw [List.headD_cons, forEach, if_neg hx, visit]
    cases hb : (body x s).2 with
    | true => rfl
    | false =>
      obtain ⟨hI', hnext⟩ := hgo hb
      simp only [Bool.false_eq_true, if_false]
      rw [hnext]
      exact ih hI' (by simpa using hfuel)

/-- **The rule of `list_for_each_safe`.** -/
theorem forEachSafe_eq {I : List α → σ → Prop}
    (hstep : ∀ x l s, I (x :: l) s → x ≠ head ∧ (links s).next x = l.headD head ∧
      ((body x s).2 = false → I l (body x s).1))
    {fuel : ℕ} {s : σ} (hI : I l s) (hfuel : l.length < fuel) :
    forEachSafe links head body fuel (l.headD head) s = some (visit body l s) := by
  induction l generalizing fuel s with
  | nil =>
    obtain ⟨fuel, rfl⟩ : ∃ k, fuel = k + 1 := Nat.exists_eq_succ_of_ne_zero (by omega)
    simp [forEachSafe, visit]
  | cons x l ih =>
    obtain ⟨fuel, rfl⟩ : ∃ k, fuel = k + 1 := Nat.exists_eq_succ_of_ne_zero (by omega)
    obtain ⟨hx, hnext, hgo⟩ := hstep x l s hI
    rw [List.headD_cons, forEachSafe, if_neg hx, visit]
    cases hb : (body x s).2 with
    | true => rfl
    | false =>
      simp only [Bool.false_eq_true, if_false]
      rw [hnext]
      exact ih (hgo hb) (by simpa using hfuel)

end ListHead
