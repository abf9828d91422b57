import Usbip.Lib.Machine
import Mathlib.Logic.Function.Basic
import Mathlib.Logic.Relation
import Mathlib.Data.Int.Notation
import Mathlib.Tactic.Common

/-!
# Call chains and the locks they hold

A call chain is what one processor does from its entry into a function until the return: the
functions that are called on the way, and the lock operations in between. `Program.body` says what
a function does next, as a list of lock operations and calls, and the chain keeps a stack of what
is left to do. Other contexts may change the shared state at any time, as far as
`Program.meddle` lets them with the locks that the chain holds.

A *convention* says what a function leaves of a lock, given how it finds it; a way of finding it
that the function is not made for has no result. `after` follows a lock through a list of
operations by the conventions of the functions called. If every body keeps the convention of its
function, a chain never takes a lock twice, never releases it twice and returns with the lock free
(`InOrder.step`).
-/

universe u v w y

/-- A lock operation, or the call of a function. -/
inductive ChainOp (ℓ : Type u) (τ : Type v)
  | acquire (l : ℓ)
  | release (l : ℓ)
  | call (t : τ)
  deriving DecidableEq, Repr

/-- A call chain: the shared state, how many times more it has acquired each lock than released
it, and what is left to do. -/
structure CallChain (σ : Type w) (ℓ : Type u) (τ : Type v) where
  shared : σ
  depth : ℓ → ℤ
  todo : List (ChainOp ℓ τ)

namespace CallChain

variable {σ : Type w} {ℓ : Type u} {τ : Type v} {α : Type y}

/-- A program: what a function does next, given the outcome of the calls that it makes to the
outside, and what becomes of the shared state when other contexts try to replace it. -/
structure Program (σ : Type w) (ℓ : Type u) (τ : Type v) (α : Type y) where
  body : σ → τ → α → Option (σ × List (ChainOp ℓ τ))
  meddle : (ℓ → ℤ) → σ → σ → σ

/-- The chain goes on, or other contexts do. -/
inductive Act (σ : Type w) (α : Type y)
  | step (a : α)
  | meddle (x : σ)

variable [DecidableEq ℓ] {P : Program σ ℓ τ α} {s s' : CallChain σ ℓ τ}

/-- The chain itself goes on. -/
def next (P : Program σ ℓ τ α) (s : CallChain σ ℓ τ) (a : α) : Option (CallChain σ ℓ τ) :=
  match s.todo with
  | [] => none
  | .acquire l :: rest =>
    some { s with depth := Function.update s.depth l (s.depth l + 1), todo := rest }
  | .release l :: rest =>
    some { s with depth := Function.update s.depth l (s.depth l - 1), todo := rest }
  | .call t :: rest =>
    (P.body s.shared t a).map fun r => { s with shared := r.1, todo := r.2 ++ rest }

/-- One step. -/
def step (P : Program σ ℓ τ α) (s : CallChain σ ℓ τ) : Act σ α → Option (CallChain σ ℓ τ)
  | .step a => s.next P a
  | .meddle x => some { s with shared := P.meddle s.depth s.shared x }

/-- The chains that begin with these operations, no lock held. -/
def machine (P : Program σ ℓ τ α) (x : σ) (todo : List (ChainOp ℓ τ)) :
    Machine (CallChain σ ℓ τ) (Act σ α) :=
  ⟨⟨x, fun _ => 0, todo⟩, step P⟩

/-! ### What a chain does by itself -/

theorem next_acquire {l : ℓ} {rest : List (ChainOp ℓ τ)} (h : s.todo = .acquire l :: rest) (a : α) :
    s.next P a =
      some { s with depth := Function.update s.depth l (s.depth l + 1), todo := rest } := by
  rw [next, h]

theorem next_release {l : ℓ} {rest : List (ChainOp ℓ τ)} (h : s.todo = .release l :: rest) (a : α) :
    s.next P a =
      some { s with depth := Function.update s.depth l (s.depth l - 1), todo := rest } := by
  rw [next, h]

theorem next_call {t : τ} {rest : List (ChainOp ℓ τ)} (h : s.todo = .call t :: rest) {a : α}
    {r : σ × List (ChainOp ℓ τ)} (hr : P.body s.shared t a = some r) :
    s.next P a = some { s with shared := r.1, todo := r.2 ++ rest } := by
  simp only [next, h, hr, Option.map_some]

/-- The chain goes on to the other state, left alone and whatever the calls to the outside
bring. -/
def Leads (P : Program σ ℓ τ α) : CallChain σ ℓ τ → CallChain σ ℓ τ → Prop :=
  Relation.ReflTransGen fun s s' => ∀ a, s.next P a = some s'

theorem Leads.head {s₁ s₂ : CallChain σ ℓ τ} (h : ∀ a, s.next P a = some s₁)
    (hs : Leads P s₁ s₂) : Leads P s s₂ :=
  Relation.ReflTransGen.head h hs

theorem Leads.single (h : ∀ a, s.next P a = some s') : Leads P s s' :=
  Relation.ReflTransGen.single h

/-- What is left to do keeps a property that a list shares with its tail, if the body of each
function does in the place of its call. -/
theorem step_todo {Q : List (ChainOp ℓ τ) → Prop} (htail : ∀ op rest, Q (op :: rest) → Q rest)
    (hcall : ∀ c t x ops rest, P.body s.shared t c = some (x, ops) → Q (.call t :: rest) →
      Q (ops ++ rest)) (h : Q s.todo) {a : Act σ α} (hs : step P s a = some s') : Q s'.todo := by
  cases a with
  | meddle x => exact Option.some.inj hs ▸ h
  | step c =>
    simp only [step, next] at hs
    split at hs
    · cases hs
    next l rest htodo =>
      rw [htodo] at h
      exact Option.some.inj hs ▸ htail _ _ h
    next l rest htodo =>
      rw [htodo] at h
      exact Option.some.inj hs ▸ htail _ _ h
    next t rest htodo =>
      obtain ⟨⟨x, ops⟩, hx, rfl⟩ := Option.map_eq_some_iff.mp hs
      rw [htodo] at h
      exact hcall c t x ops rest hx h

/-! ### Following a lock -/

/-- Whether the lock is held after the operations; `none` if one of them finds the lock in a way
that it is not made for. -/
def after (conv : τ → Bool → Option Bool) (l : ℓ) : Bool → List (ChainOp ℓ τ) → Option Bool
  | held, [] => some held
  | held, .acquire k :: ops =>
    if k ≠ l then after conv l held ops else if held then none else after conv l true ops
  | held, .release k :: ops =>
    if k ≠ l then after conv l held ops else if held then after conv l false ops else none
  | held, .call t :: ops => (conv t held).bind fun held => after conv l held ops

variable {conv : τ → Bool → Option Bool} {l : ℓ} {held : Bool} {ops rest : List (ChainOp ℓ τ)}

@[simp] theorem after_nil : after conv l held [] = some held := rfl

@[simp] theorem after_call (t : τ) :
    after conv l held (.call t :: ops) = (conv t held).bind fun h => after conv l h ops := rfl

@[simp] theorem after_acquire :
    after conv l held (.acquire l :: ops) = if held then none else after conv l true ops := by
  rw [after, if_neg (not_not.mpr rfl)]

@[simp] theorem after_release :
    after conv l held (.release l :: ops) = if held then after conv l false ops else none := by
  rw [after, if_neg (not_not.mpr rfl)]

theorem after_acquire_of_ne {k : ℓ} (h : k ≠ l) :
    after conv l held (.acquire k :: ops) = after conv l held ops := by
  rw [after, if_pos h]

theorem after_release_of_ne {k : ℓ} (h : k ≠ l) :
    after conv l held (.release k :: ops) = after conv l held ops := by
  rw [after, if_pos h]

/-- Operations on another lock. -/
theorem after_other {k : ℓ} (hk : k ≠ l)
    (h : ∀ op ∈ ops, op = .acquire k ∨ op = .release k) : after conv l held ops = some held := by
  induction ops with
  | nil => rfl
  | cons op ops ih =>
    have ih := ih fun o ho => h o (List.mem_cons_of_mem _ ho)
    rcases h op List.mem_cons_self with rfl | rfl
    · rw [after_acquire_of_ne hk, ih]
    · rw [after_release_of_ne hk, ih]

/-- Operations follow each other. -/
theorem after_append :
    after conv l held (ops ++ rest) =
      (after conv l held ops).bind fun h => after conv l h rest := by
  induction ops generalizing held with
  | nil => rfl
  | cons op ops ih =>
    cases op with
    | call t =>
      rw [List.cons_append, after_call, after_call, Option.bind_assoc]
      exact Option.bind_congr fun h _ => ih
    | acquire k =>
      simp only [List.cons_append, after, ih]
      split_ifs <;> rfl
    | release k =>
      simp only [List.cons_append, after, ih]
      split_ifs <;> rfl

/-- A chain is in order for a lock: it holds the lock at most once, and by the conventions it will
come to its end with the lock free. -/
structure InOrder (conv : τ → Bool → Option Bool) (l : ℓ) (s : CallChain σ ℓ τ) (held : Bool) :
    Prop where
  depth : s.depth l = if held then 1 else 0
  todo : after conv l held s.todo = some false

namespace InOrder

/-- A chain begins in order if the convention of the function called is to leave the lock free. -/
theorem init (x : σ) {todo : List (ChainOp ℓ τ)} (h : after conv l false todo = some false) :
    InOrder conv l (machine P x todo).init false :=
  ⟨rfl, h⟩

theorem depth_nonneg (h : InOrder conv l s held) : 0 ≤ s.depth l := by
  rw [h.depth]
  split <;> decide

theorem depth_le_one (h : InOrder conv l s held) : s.depth l ≤ 1 := by
  rw [h.depth]
  split <;> decide

/-- The chain returns with the lock free. -/
theorem depth_of_done (h : InOrder conv l s held) (hdone : s.todo = []) : s.depth l = 0 := by
  have hheld : some held = some false := by simpa [hdone] using h.todo
  rw [h.depth, Option.some.inj hheld]
  rfl

/-- A function that is called finds the lock in a way that it is made for. -/
theorem held_of_call (h : InOrder conv l s held) {t : τ} (htodo : s.todo = .call t :: rest)
    {b : Bool} (ht : conv t (!b) = none) : held = b := by
  by_contra hne
  have hafter := h.todo
  rw [htodo, after_call, Bool.eq_not_of_ne hne, ht] at hafter
  cases hafter

/-- A function that is not made for being called under the lock is called without it. -/
theorem depth_of_call (h : InOrder conv l s held) {t : τ} (htodo : s.todo = .call t :: rest)
    (ht : conv t true = none) : s.depth l = 0 := by
  obtain rfl : held = false := h.held_of_call htodo ht
  exact h.depth

/-- **A step keeps the order**, given that the body of the function called keeps its
convention. -/
theorem step (h : InOrder conv l s held) {a : Act σ α}
    (hbody : ∀ c t x ops h', a = .step c → s.todo.head? = some (.call t) →
      P.body s.shared t c = some (x, ops) → conv t held = some h' →
      after conv l held ops = some h')
    (hs : CallChain.step P s a = some s') : ∃ held', InOrder conv l s' held' := by
  cases a with
  | meddle x => exact ⟨held, Option.some.inj hs ▸ ⟨h.depth, h.todo⟩⟩
  | step c =>
    have hdepth := h.depth
    have htodo := h.todo
    simp only [CallChain.step, CallChain.next] at hs
    split at hs
    · cases hs
    next k rest heq =>
      obtain rfl := Option.some.inj hs
      rw [heq] at htodo
      by_cases hk : k = l
      · subst hk
        rw [after_acquire] at htodo
        obtain ⟨hheld, htodo⟩ := Option.ite_none_left_eq_some.mp htodo
        refine ⟨true, ?_, htodo⟩
        rw [if_neg hheld] at hdepth
        simp [hdepth]
      · rw [after_acquire_of_ne hk] at htodo
        exact ⟨held, by simpa [Function.update_of_ne (Ne.symm hk)] using hdepth, htodo⟩
    next k rest heq =>
      obtain rfl := Option.some.inj hs
      rw [heq] at htodo
      by_cases hk : k = l
      · subst hk
        rw [after_release] at htodo
        obtain ⟨hheld, htodo⟩ := Option.ite_none_right_eq_some.mp htodo
        refine ⟨false, ?_, htodo⟩
        rw [if_pos hheld] at hdepth
        simp [hdepth]
      · rw [after_release_of_ne hk] at htodo
        exact ⟨held, by simpa [Function.update_of_ne (Ne.symm hk)] using hdepth, htodo⟩
    next t rest heq =>
      obtain ⟨⟨x, ops⟩, hx, rfl⟩ := Option.map_eq_some_iff.mp hs
      rw [heq, after_call] at htodo
      obtain ⟨h', hconv, hrest⟩ := Option.bind_eq_some_iff.mp htodo
      -- the lock itself is as before, and the body leaves it as the convention says
      refine ⟨held, hdepth, ?_⟩
      rw [after_append, hbody c t x ops h' rfl (by rw [heq]; rfl) hx hconv]
      exact hrest

end InOrder

end CallChain
