import Mathlib.Data.Int.Basic
import Mathlib.Data.List.Basic
import Mathlib.Data.List.TakeWhile
import Mathlib.Tactic.Linarith

/-!
# Records in a circular buffer

A producer writes records of variable length into a buffer of positions `[0, S)` and a consumer
takes them out in order. A record occupies consecutive positions, except that it may be broken
once at the end of the buffer and continued at position `0`; the record after it starts at the
next position `pad` allows. Nothing is stored but the bytes: where a record ends is known from
the length in its own first `hdr` bytes.

* `Chain` lays cells out from a position on, `walkEnd` is the position after the last one.
* `Streamed` says the cells are records in sequence, each as long as its header tells.
* `Layout T S cells L` says that from the tail `T` the cells lead to the level `L`, either
  straight or over the end `S` of the buffer.

The results are the ring operations: cells are taken at the tail (`Layout.pop`,
`Layout.pop_end`), read back from memory (`Layout.readMem_eq`), and added at the level
(`Layout.push`, `push_end`, `push_rolled`, `push_wrapped`).
-/

namespace RecordRing

universe u

/-- One byte kept in the buffer: where it lies, what it is, and how many bytes of its record
there are from it on, so that `left = 1` marks the last byte of a record. -/
structure Cell (β : Type u) where
  /-- The position in the buffer. -/
  pos : ℤ
  /-- The stored value. -/
  val : β
  /-- The bytes of the record from this one on. -/
  left : ℕ
  deriving DecidableEq

variable {β : Type u} {pad : ℤ → ℤ} {hdr : ℕ} {len : List β → ℕ}
variable {T S S' L p : ℤ} {r r' m n : ℕ} {c : Cell β} {cells as bs : List (Cell β)}

/-! ### Chains of cells -/

/-- Where the cell after `c` lies when the buffer does not end in between. -/
def Cell.next (pad : ℤ → ℤ) (c : Cell β) : ℤ :=
  if c.left = 1 then pad (c.pos + 1) else c.pos + 1

/-- The cells follow one another from position `p` on. -/
def Chain (pad : ℤ → ℤ) : ℤ → List (Cell β) → Prop
  | _, [] => True
  | p, c :: cs => c.pos = p ∧ Chain pad (c.next pad) cs

/-- The position after the last cell of a chain from `p`. -/
def walkEnd (pad : ℤ → ℤ) : ℤ → List (Cell β) → ℤ
  | p, [] => p
  | _, c :: cs => walkEnd pad (c.next pad) cs

@[simp] theorem chain_nil : Chain pad p ([] : List (Cell β)) := trivial

@[simp] theorem chain_cons : Chain pad p (c :: cells) ↔
    c.pos = p ∧ Chain pad (c.next pad) cells := Iff.rfl

@[simp] theorem walkEnd_nil : walkEnd pad p ([] : List (Cell β)) = p := rfl

@[simp] theorem walkEnd_cons : walkEnd pad p (c :: cells) = walkEnd pad (c.next pad) cells := rfl

theorem chain_append :
    Chain pad p (as ++ bs) ↔ Chain pad p as ∧ Chain pad (walkEnd pad p as) bs := by
  induction as generalizing p with
  | nil => simp
  | cons c as ih => simp [ih, and_assoc]

theorem walkEnd_append : walkEnd pad p (as ++ bs) = walkEnd pad (walkEnd pad p as) bs := by
  induction as generalizing p with
  | nil => simp
  | cons c as ih => simp [ih]

section Bounds

variable (hpad : ∀ x, x ≤ pad x)
include hpad

theorem Cell.lt_next (c : Cell β) : c.pos < c.next pad := by
  have h := hpad (c.pos + 1)
  unfold Cell.next
  split <;> omega

theorem le_walkEnd (h : Chain pad p cells) : p ≤ walkEnd pad p cells := by
  induction cells generalizing p with
  | nil => simp
  | cons c cells ih =>
    obtain ⟨rfl, h⟩ := h
    have hnext := c.lt_next hpad
    have hrest := ih h
    rw [walkEnd_cons]
    omega

/-- A nonempty chain ends after the position it starts from. -/
theorem lt_walkEnd (h : Chain pad p cells) (hne : cells ≠ []) : p < walkEnd pad p cells := by
  cases cells with
  | nil => exact absurd rfl hne
  | cons c cells =>
    obtain ⟨rfl, h⟩ := h
    exact lt_of_lt_of_le (c.lt_next hpad) (le_walkEnd hpad h)

/-- The cells of a chain lie between its two ends. -/
theorem Chain.bounds (h : Chain pad p cells) (hc : c ∈ cells) :
    p ≤ c.pos ∧ c.pos < walkEnd pad p cells := by
  induction cells generalizing p with
  | nil => simp at hc
  | cons d cells ih =>
    obtain ⟨rfl, h⟩ := h
    have hnext := d.lt_next hpad
    have hrest := le_walkEnd hpad h
    rw [walkEnd_cons]
    rcases List.mem_cons.mp hc with rfl | hc
    · constructor <;> omega
    · have := ih h hc
      constructor <;> omega

/-- The last cell of a chain lies furthest. -/
theorem Chain.le_last {x : Cell β} (h : Chain pad p cells) (hx : cells.getLast? = some x)
    (hc : c ∈ cells) : c.pos ≤ x.pos := by
  obtain ⟨ys, rfl⟩ := List.getLast?_eq_some_iff.mp hx
  rw [chain_append] at h
  obtain ⟨hys, hx', -⟩ := h
  rcases List.mem_append.mp hc with hc | hc
  · have := (hys.bounds hpad hc).2
    omega
  · rw [List.mem_singleton.mp hc]

end Bounds

/-- The `n` values of a memory from position `p` on. -/
def readMem (mem : ℤ → β) : ℤ → ℕ → List β
  | _, 0 => []
  | p, n + 1 => mem p :: readMem mem (p + 1) n

theorem length_readMem (mem : ℤ → β) (p : ℤ) (n : ℕ) : (readMem mem p n).length = n := by
  induction n generalizing p with
  | zero => rfl
  | succ n ih => rw [readMem, List.length_cons, ih]

/-- A memory is read in two parts. -/
theorem readMem_add (mem : ℤ → β) (p : ℤ) (a b : ℕ) :
    readMem mem p (a + b) = readMem mem p a ++ readMem mem (p + a) b := by
  induction a generalizing p with
  | zero => simp [readMem]
  | succ a ih =>
    rw [Nat.add_right_comm, readMem, readMem, ih, List.cons_append]
    congr 3
    push_cast
    omega

/-- The memory with a list of values written from position `p` on. -/
def writeMem (mem : ℤ → β) : ℤ → List β → ℤ → β
  | _, [] => mem
  | p, b :: bs => Function.update (writeMem mem (p + 1) bs) p b

theorem writeMem_outside {mem : ℤ → β} {data : List β} {x : ℤ}
    (h : ¬ (p ≤ x ∧ x < p + data.length)) : writeMem mem p data x = mem x := by
  induction data generalizing p with
  | nil => rfl
  | cons b data ih =>
    rw [List.length_cons] at h
    push_cast at h
    rw [writeMem, Function.update_of_ne (by omega), ih (by omega)]

theorem readMem_congr {mem mem' : ℤ → β} (h : ∀ x, p ≤ x → x < p + n → mem x = mem' x) :
    readMem mem p n = readMem mem' p n := by
  induction n generalizing p with
  | zero => rfl
  | succ n ih =>
    rw [readMem, readMem, h p le_rfl (by omega)]
    rw [ih fun x hx hlt => h x (by omega) (by push_cast; omega)]

/-- What was written is read back. -/
theorem readMem_writeMem {mem : ℤ → β} {data : List β} (h : n ≤ data.length) :
    readMem (writeMem mem p data) p n = data.take n := by
  induction data generalizing p n with
  | nil =>
    obtain rfl : n = 0 := by simpa using h
    rfl
  | cons b data ih =>
    cases n with
    | zero => rfl
    | succ n =>
      have hrest : readMem (writeMem mem p (b :: data)) (p + 1) n =
          readMem (writeMem mem (p + 1) data) (p + 1) n :=
        readMem_congr fun x hx _ => Function.update_of_ne (by omega) _ _
      rw [readMem, hrest, ih (Nat.le_of_succ_le_succ h), List.take_succ_cons, writeMem,
        Function.update_self]

/-- The cells of one write: `data` from position `p` on, `R` bytes of its record being left. -/
def block : ℤ → ℕ → List β → List (Cell β)
  | _, _, [] => []
  | p, R, b :: bs => ⟨p, b, R⟩ :: block (p + 1) (R - 1) bs

section Block

variable {data : List β} {R : ℕ}

@[simp] theorem block_nil : block p R ([] : List β) = [] := rfl

@[simp] theorem length_block : (block p R data).length = data.length := by
  induction data generalizing p R with
  | nil => rfl
  | cons b data ih => simp [block, ih]

@[simp] theorem map_val_block : (block p R data).map Cell.val = data := by
  induction data generalizing p R with
  | nil => rfl
  | cons b data ih => simp [block, ih]

theorem block_pos {x : Cell β} (hx : x ∈ block p R data) :
    p ≤ x.pos ∧ x.pos < p + data.length := by
  induction data generalizing p R with
  | nil => simp [block] at hx
  | cons b data ih =>
    rw [List.length_cons]
    push_cast
    rcases List.mem_cons.mp hx with rfl | hx
    · constructor <;> dsimp only <;> omega
    · have := ih hx
      constructor <;> omega

theorem head_block {x : Cell β} (hx : x ∈ (block p R data).head?) : x.pos = p := by
  cases data with
  | nil => simp at hx
  | cons b data =>
    obtain rfl : _ = x := by simpa [block] using hx
    rfl

theorem writeMem_block {mem : ℤ → β} {x : Cell β} (hx : x ∈ block p R data) :
    writeMem mem p data x.pos = x.val := by
  induction data generalizing p R with
  | nil => simp [block] at hx
  | cons b data ih =>
    rw [writeMem]
    rcases List.mem_cons.mp hx with rfl | hx
    · exact Function.update_self ..
    · have := (block_pos hx).1
      rw [Function.update_of_ne (by omega), ih hx]

theorem getLast?_block (hne : data ≠ []) :
    ∃ x, (block p R data).getLast? = some x ∧ x.pos + 1 = p + data.length := by
  induction data generalizing p R with
  | nil => exact absurd rfl hne
  | cons b data ih =>
    cases data with
    | nil => exact ⟨⟨p, b, R⟩, rfl, by simp⟩
    | cons b' data =>
      obtain ⟨x, hx, hpos⟩ := ih (p := p + 1) (R := R - 1) (by simp)
      refine ⟨x, ?_, ?_⟩
      · rw [block, List.getLast?_cons, hx, Option.getD_some]
      · rw [hpos]
        simp only [List.length_cons]
        push_cast
        omega

theorem chain_block (hR : data.length ≤ R) : Chain pad p (block p R data) := by
  induction data generalizing p R with
  | nil => trivial
  | cons b data ih =>
    rw [List.length_cons] at hR
    refine ⟨rfl, ?_⟩
    cases data with
    | nil => trivial
    | cons b' data =>
      rw [List.length_cons] at hR
      have hnext : Cell.next pad ⟨p, b, R⟩ = p + 1 := if_neg (by dsimp only; omega)
      rw [hnext]
      exact ih (by rw [List.length_cons]; omega)

theorem walkEnd_block (hR : data.length ≤ R) (hne : data ≠ []) :
    walkEnd pad p (block p R data) =
      if data.length = R then pad (p + data.length) else p + data.length := by
  induction data generalizing p R with
  | nil => exact absurd rfl hne
  | cons b data ih =>
    rw [List.length_cons] at hR ⊢
    cases data with
    | nil =>
      rw [block, walkEnd_cons, block_nil, walkEnd_nil, Cell.next]
      simp [eq_comm]
    | cons b' data =>
      rw [List.length_cons] at hR
      have hnext : Cell.next pad ⟨p, b, R⟩ = p + 1 := if_neg (by dsimp only; omega)
      rw [block, walkEnd_cons, hnext, ih (by rw [List.length_cons]; omega) (by simp)]
      have hiff : ((b' :: data).length = R - 1) ↔ ((b' :: data).length + 1 = R) := by
        rw [List.length_cons]
        omega
      have hadd : p + 1 + ((b' :: data).length : ℤ) = p + ((b' :: data).length + 1 : ℕ) := by
        push_cast
        omega
      simp only [hiff, hadd]

end Block

/-! ### Records in sequence -/

/-- The cells are the rest of a record, of which `r` bytes are still to come, followed by
records in sequence; `r'` bytes of the last one are missing at the end. At the start of a record
its header is present as a whole and tells its length. -/
def Streamed (hdr : ℕ) (len : List β → ℕ) : ℕ → List (Cell β) → ℕ → Prop
  | r, [], r' => r = r'
  | 0, c :: cs, r' => hdr ≤ (c :: cs).length ∧ hdr ≤ c.left ∧ 0 < c.left ∧
      len (((c :: cs).take hdr).map Cell.val) = c.left ∧ Streamed hdr len (c.left - 1) cs r'
  | r + 1, c :: cs, r' => c.left = r + 1 ∧ Streamed hdr len r cs r'

@[simp] theorem streamed_nil : Streamed hdr len r ([] : List (Cell β)) r' ↔ r = r' := by
  cases r <;> simp [Streamed]

@[simp] theorem streamed_zero_cons : Streamed hdr len 0 (c :: cells) r' ↔
    hdr ≤ (c :: cells).length ∧ hdr ≤ c.left ∧ 0 < c.left ∧
      len (((c :: cells).take hdr).map Cell.val) = c.left ∧
      Streamed hdr len (c.left - 1) cells r' := Iff.rfl

@[simp] theorem streamed_succ_cons : Streamed hdr len (r + 1) (c :: cells) r' ↔
    c.left = r + 1 ∧ Streamed hdr len r cells r' := Iff.rfl

namespace Streamed

/-- Inside a record the count runs down with the cells. -/
theorem tail (h : Streamed hdr len r (c :: cells) r') (hr : 0 < r) :
    c.left = r ∧ Streamed hdr len (r - 1) cells r' := by
  cases r with
  | zero => exact absurd hr (lt_irrefl 0)
  | succ r => exact h

/-- Reading the header of a record tells how much of it is there to come. -/
theorem «open» (h : Streamed hdr len 0 (c :: cells) r') :
    Streamed hdr len c.left (c :: cells) r' := by
  obtain ⟨-, -, hpos, -, h⟩ := h
  obtain ⟨k, hk⟩ : ∃ k, c.left = k + 1 := ⟨c.left - 1, by omega⟩
  rw [hk] at h ⊢
  exact ⟨hk, h⟩

theorem drop (h : Streamed hdr len r cells r') (hr : n ≤ r) (hn : n ≤ cells.length) :
    Streamed hdr len (r - n) (cells.drop n) r' := by
  induction n generalizing r cells with
  | zero => exact h
  | succ n ih =>
    cases cells with
    | nil => simp at hn
    | cons c cells =>
      have hlen : n ≤ cells.length := by simpa using hn
      have := ih (h.tail (by omega)).2 (by omega) hlen
      rwa [Nat.sub_sub, Nat.add_comm 1 n] at this

/-- What is missing at the end is determined by the cells. -/
theorem unique {m' : ℕ} (h : Streamed hdr len r cells m) (h' : Streamed hdr len r cells m') :
    m = m' := by
  induction cells generalizing r with
  | nil =>
    rw [streamed_nil] at h h'
    exact h.symm.trans h'
  | cons c cells ih =>
    cases r with
    | zero => exact ih h.2.2.2.2 h'.2.2.2.2
    | succ r => exact ih h.2 h'.2

/-- A record whose cells end with it is there as a whole. -/
theorem le_length (h : Streamed hdr len r cells 0) : r ≤ cells.length := by
  induction cells generalizing r with
  | nil => simp_all
  | cons c cells ih =>
    rcases Nat.eq_zero_or_pos r with rfl | hr
    · exact Nat.zero_le _
    · have := ih (h.tail hr).2
      rw [List.length_cons]
      omega

theorem append (ha : Streamed hdr len r as m) (hb : Streamed hdr len m bs r') :
    Streamed hdr len r (as ++ bs) r' := by
  induction as generalizing r with
  | nil =>
    obtain rfl : r = m := by simpa using ha
    exact hb
  | cons c as ih =>
    cases r with
    | zero =>
      obtain ⟨hlen, hleft, hpos, hval, hrest⟩ := ha
      have htake : (c :: as ++ bs).take hdr = (c :: as).take hdr :=
        List.take_append_of_le_length hlen
      rw [List.cons_append] at htake ⊢
      refine ⟨?_, hleft, hpos, by rwa [htake], ih hrest⟩
      rw [List.length_cons] at hlen ⊢
      rw [List.length_append]
      omega
    | succ r => exact ⟨ha.1, ih ha.2⟩

/-- A chain shorter than the record it begins with is contiguous. -/
theorem walkEnd_eq (h : Streamed hdr len r (as ++ bs) r') (hc : Chain pad p as)
    (hlt : as.length < r) : walkEnd pad p as = p + as.length := by
  induction as generalizing r p with
  | nil => simp
  | cons c as ih =>
    obtain ⟨rfl, hc⟩ := hc
    rw [List.length_cons] at hlt
    obtain ⟨hleft, h⟩ := h.tail (by omega)
    have hnext : c.next pad = c.pos + 1 := if_neg (by omega)
    rw [hnext] at hc
    rw [walkEnd_cons, hnext, ih h hc (by omega), List.length_cons]
    push_cast
    omega

/-- More of the record under way. -/
theorem block {data : List β} (hR : data.length ≤ r) :
    Streamed hdr len r (block p r data) (r - data.length) := by
  induction data generalizing p r with
  | nil => simp
  | cons b data ih =>
    rw [List.length_cons] at hR ⊢
    obtain ⟨k, rfl⟩ : ∃ k, r = k + 1 := ⟨r - 1, by omega⟩
    refine ⟨rfl, ?_⟩
    have := ih (p := p + 1) (r := k) (by omega)
    rwa [show k + 1 - (data.length + 1) = k - data.length by omega]

/-- The first part of a record, its header included. -/
theorem block_start {data : List β} {R : ℕ} (hne : data ≠ []) (hdata : hdr ≤ data.length)
    (hle : hdr ≤ R) (hval : len (data.take hdr) = R) (hR : data.length ≤ R) :
    Streamed hdr len 0 (RecordRing.block p R data) (R - data.length) := by
  cases data with
  | nil => exact absurd rfl hne
  | cons b data =>
    have hlen : (RecordRing.block p R (b :: data)).length = _ := length_block
    have hmap : (RecordRing.block p R (b :: data)).map _ = _ := map_val_block
    have hrest : Streamed hdr len _ (RecordRing.block p _ _) _ := block hR
    rw [List.length_cons] at hR
    rw [RecordRing.block] at hlen hmap hrest ⊢
    refine ⟨hlen ▸ hdata, hle, by dsimp only; omega, ?_, ?_⟩
    · rw [List.map_take, hmap, hval]
    · exact (hrest.tail (by omega)).2

end Streamed

/-! ### The ring -/

/-- The cells from `p` on leave no room before the end `S` of the buffer: the next cell would
lie at `S`, or the last one is the last byte of the buffer. -/
def Fills (pad : ℤ → ℤ) (p : ℤ) (cells : List (Cell β)) (S : ℤ) : Prop :=
  walkEnd pad p cells = S ∨ ∃ x, cells.getLast? = some x ∧ x.pos + 1 = S

/-- From the tail `T` of a buffer of effective size `S` the cells lead to the level `L`, straight
or over the end of the buffer. -/
inductive Layout (pad : ℤ → ℤ) (T S : ℤ) (cells : List (Cell β)) (L : ℤ) : Prop
  | linear (chain : Chain pad T cells) (level : walkEnd pad T cells = L) (fits : L ≤ S)
  | wrapped (as bs : List (Cell β)) (split : cells = as ++ bs) (upper : Chain pad T as)
      (fills : Fills pad T as S) (lower : Chain pad 0 bs) (level : walkEnd pad 0 bs = L)
      (apart : L < T) (fits : T ≤ S)

namespace Layout

/-- An empty ring, with its level at the tail. -/
theorem empty (h : T ≤ S) : Layout pad T S ([] : List (Cell β)) T := .linear trivial rfl h

theorem level_le (h : Layout pad T S cells L) : L ≤ S := by
  cases h with
  | linear chain level fits => exact fits
  | wrapped as bs split upper fills lower level apart fits => omega

/-- A level at or above the tail means that the cells have not wrapped. -/
theorem straight (h : Layout pad T S cells L) (hTL : T ≤ L) :
    Chain pad T cells ∧ walkEnd pad T cells = L := by
  cases h with
  | linear chain level fits => exact ⟨chain, level⟩
  | wrapped as bs split upper fills lower level apart fits => omega

theorem head_pos (h : Layout pad T S (c :: cells) L) (hTS : T < S) : c.pos = T := by
  cases h with
  | linear chain level fits => exact chain.1
  | wrapped as bs split upper fills lower level apart fits =>
    cases as with
    | nil =>
      rcases fills with h | ⟨x, hx, -⟩
      · exact absurd h hTS.ne
      · simp at hx
    | cons a as =>
      obtain ⟨rfl, -⟩ : c = a ∧ cells = as ++ bs := by simpa using split
      exact upper.1

/-- Without a wrap the end of the buffer may be moved, as long as the cells still fit. -/
theorem resize (h : Layout pad T S cells L) (hTL : T ≤ L) (hLS : L ≤ S') :
    Layout pad T S' cells L :=
  have hs := h.straight hTL
  .linear hs.1 hs.2 hLS

/-- Cells added above the tail, within the buffer. -/
theorem push (h : Layout pad T S cells L) (hTL : T ≤ L)
    (hbs : Chain pad L bs) (hfit : walkEnd pad L bs ≤ S) :
    Layout pad T S (cells ++ bs) (walkEnd pad L bs) := by
  obtain ⟨chain, rfl⟩ := h.straight hTL
  exact .linear (chain_append.mpr ⟨chain, hbs⟩) walkEnd_append hfit

end Layout

section Ring

variable (hpad : ∀ x, x ≤ pad x)
include hpad

theorem Fills.le (h : Fills pad p cells S) (hc : Chain pad p cells) : p ≤ S := by
  rcases h with h | ⟨x, hx, h⟩
  · exact h ▸ le_walkEnd hpad hc
  · have := (hc.bounds hpad (List.mem_of_getLast? hx)).1
    omega

/-- Cells that fill the buffer up lie below its end. -/
theorem Fills.pos_lt (h : Fills pad p cells S) (hc : Chain pad p cells) {x : Cell β}
    (hx : x ∈ cells) : x.pos < S := by
  rcases h with h | ⟨y, hy, h⟩
  · exact h ▸ (hc.bounds hpad hx).2
  · have := hc.le_last hpad hy hx
    omega

namespace Layout

theorem tail_le (h : Layout pad T S cells L) : T ≤ S := by
  cases h with
  | linear chain level fits => exact (le_walkEnd hpad chain).trans (level ▸ fits)
  | wrapped as bs split upper fills lower level apart fits => exact fits

theorem level_nonneg (h : Layout pad T S cells L) (hT : 0 ≤ T) : 0 ≤ L := by
  cases h with
  | linear chain level fits => exact hT.trans (level ▸ le_walkEnd hpad chain)
  | wrapped as bs split upper fills lower level apart fits =>
    exact level ▸ le_walkEnd hpad lower

/-- The cells lie inside the buffer. -/
theorem bounds (h : Layout pad T S cells L) (hT : 0 ≤ T) (hc : c ∈ cells) :
    0 ≤ c.pos ∧ c.pos < S := by
  cases h with
  | linear chain level fits =>
    have := chain.bounds hpad hc
    constructor <;> omega
  | wrapped as bs split upper fills lower level apart fits =>
    subst split
    rcases List.mem_append.mp hc with hc | hc
    · exact ⟨hT.trans (upper.bounds hpad hc).1, fills.pos_lt hpad upper hc⟩
    · have := lower.bounds hpad hc
      constructor <;> omega

/-- No cell lies in the free part of the ring, from the level up to the tail. -/
theorem free (h : Layout pad T S cells L) (hc : c ∈ cells) :
    (T ≤ L → T ≤ c.pos ∧ c.pos < L) ∧ (L < T → c.pos < L ∨ T ≤ c.pos) := by
  cases h with
  | linear chain level fits =>
    have := chain.bounds hpad hc
    have := le_walkEnd hpad chain
    constructor <;> intro <;> omega
  | wrapped as bs split upper fills lower level apart fits =>
    subst split
    refine ⟨fun h => absurd apart (by omega), fun _ => ?_⟩
    rcases List.mem_append.mp hc with hc | hc
    · exact .inr (upper.bounds hpad hc).1
    · exact .inl (level ▸ (lower.bounds hpad hc).2)

/-- In particular no cell lies at the level. -/
theorem pos_ne (h : Layout pad T S cells L) (hc : c ∈ cells) : c.pos ≠ L := by
  have := h.free hpad hc
  rcases lt_or_ge L T with hlt | hle
  · rcases this.2 hlt with h | h <;> omega
  · exact (this.1 hle).2.ne

/-- Level and tail meet only in an empty ring. -/
theorem level_ne_tail (h : Layout pad T S cells L) (hne : cells ≠ []) : L ≠ T := by
  cases h with
  | linear chain level fits => exact level ▸ (lt_walkEnd hpad chain hne).ne'
  | wrapped as bs split upper fills lower level apart fits => exact apart.ne

/-! #### Adding at the level -/

/-- Cells added above the tail up to the very end of the buffer: the level goes to `0`. -/
theorem push_end (h : Layout pad T S cells L) (hTL : T ≤ L) (hT : 0 < T)
    (hbs : Chain pad L bs) {x : Cell β} (hx : bs.getLast? = some x) (hend : x.pos + 1 = S) :
    Layout pad T S (cells ++ bs) 0 := by
  obtain ⟨chain, rfl⟩ := h.straight hTL
  have hxb := (hbs.bounds hpad (List.mem_of_getLast? hx)).1
  refine .wrapped (cells ++ bs) [] (by simp) (chain_append.mpr ⟨chain, hbs⟩)
    (.inr ⟨x, ?_, hend⟩) trivial rfl hT (by omega)
  rw [List.getLast?_append_of_ne_nil, hx]
  rintro rfl
  simp at hx

/-- The first cells below the tail, the level being at the end of the buffer. -/
theorem push_rolled (h : Layout pad T S cells S) (hbs : Chain pad 0 bs)
    (hlt : walkEnd pad 0 bs < T) :
    Layout pad T S (cells ++ bs) (walkEnd pad 0 bs) := by
  have hTS := h.tail_le hpad
  obtain ⟨chain, level⟩ := h.straight hTS
  exact .wrapped cells bs rfl chain (.inl level) hbs rfl hlt hTS

/-- Further cells below the tail. -/
theorem push_wrapped (h : Layout pad T S cells L) (hLT : L < T) (hbs : Chain pad L bs)
    (hlt : walkEnd pad L bs < T) : Layout pad T S (cells ++ bs) (walkEnd pad L bs) := by
  cases h with
  | linear chain level fits =>
    have := le_walkEnd hpad chain
    omega
  | wrapped cs ds split upper fills lower level apart fits =>
    subst split level
    exact .wrapped cs (ds ++ bs) (by simp) upper fills (chain_append.mpr ⟨lower, hbs⟩)
      walkEnd_append hlt fits

/-! #### Taking at the tail -/

/-- The tail lies at no cell but the first. -/
theorem ne_head (h : Layout pad T S (c :: cells) L) (hTS : T < S) {x : Cell β}
    (hx : x ∈ cells) : x.pos ≠ c.pos := by
  have hpos := h.head_pos hTS
  have hnext := c.lt_next hpad
  cases h with
  | linear chain level fits =>
    have := (chain.2.bounds hpad hx).1
    omega
  | wrapped as bs split upper fills lower level apart fits =>
    cases as with
    | nil =>
      rcases fills with h | ⟨y, hy, -⟩
      · exact absurd h hTS.ne
      · simp at hy
    | cons a as =>
      obtain ⟨rfl, rfl⟩ : c = a ∧ cells = as ++ bs := by simpa using split
      rcases List.mem_append.mp hx with hx | hx
      · have := (upper.2.bounds hpad hx).1
        omega
      · have := (lower.bounds hpad hx).2
        omega

/-- Taking one cell away from the tail, not the last byte of the buffer. -/
theorem pop_one (h : Layout pad T S (c :: cells) L) (hTS : T + 1 < S) :
    Layout pad (c.next pad) S cells L := by
  have hpos := h.head_pos (by omega)
  cases h with
  | linear chain level fits => exact .linear chain.2 level fits
  | wrapped as bs split upper fills lower level apart fits =>
    cases as with
    | nil =>
      rcases fills with h | ⟨x, hx, -⟩
      · rw [walkEnd_nil] at h
        omega
      · simp at hx
    | cons a as =>
      obtain ⟨rfl, rfl⟩ : c = a ∧ cells = as ++ bs := by simpa using split
      have hnext := c.lt_next hpad
      have hfills : Fills pad (c.next pad) as S := by
        rcases fills with h | ⟨x, hx, hend⟩
        · exact .inl h
        · cases as with
          | nil =>
            obtain rfl : c = x := by simpa using hx
            omega
          | cons b as => exact .inr ⟨x, by simpa using hx, hend⟩
      exact .wrapped as bs rfl upper.2 hfills lower level (by omega) (hfills.le hpad upper.2)

/-- Taking the last byte of the buffer away: the tail goes to `0`, and the buffer may get its
full size back. -/
theorem pop_one_end (h : Layout pad T S (c :: cells) L) (hTS : T + 1 = S) (hL : L ≠ S)
    (hSS : S ≤ S') : Layout pad 0 S' cells L ∧ L < T := by
  have hpos := h.head_pos (by omega)
  have hnext := c.lt_next hpad
  cases h with
  | linear chain level fits =>
    have hle := le_walkEnd hpad chain.2
    rw [walkEnd_cons] at level
    omega
  | wrapped as bs split upper fills lower level apart fits =>
    cases as with
    | nil =>
      rcases fills with h | ⟨x, hx, -⟩
      · rw [walkEnd_nil] at h
        omega
      · simp at hx
    | cons a as =>
      obtain ⟨rfl, rfl⟩ : c = a ∧ cells = as ++ bs := by simpa using split
      cases as with
      | nil => exact ⟨.linear lower level (by omega), apart⟩
      | cons b as =>
        have hb := fills.pos_lt hpad upper (x := b) (by simp)
        have : b.pos = c.next pad := upper.2.1
        omega

variable (hst : Streamed hdr len r cells r')
include hst

/-- Taking `n` bytes of one record away from the tail. -/
theorem pop (h : Layout pad T S cells L) (h0 : 0 < n) (hr : n ≤ r) (hn : n ≤ cells.length)
    (hTS : T + n < S) :
    Layout pad (if n = r then pad (T + n) else T + n) S (cells.drop n) L := by
  induction n generalizing T r cells with
  | zero => exact absurd h0 (lt_irrefl 0)
  | succ n ih =>
    cases cells with
    | nil => simp at hn
    | cons c cells =>
      push_cast at hTS
      have hpos := h.head_pos (by omega)
      have hrest := h.pop_one hpad (by omega)
      obtain ⟨hleft, hst'⟩ := hst.tail (by omega)
      rcases Nat.eq_zero_or_pos n with rfl | hn0
      · rw [Cell.next, hleft, hpos] at hrest
        simpa [eq_comm] using hrest
      · have hnext : c.next pad = T + 1 := by rw [Cell.next, if_neg (by omega), hpos]
        rw [hnext] at hrest
        have := ih hst' hrest hn0 (by omega) (by simpa using hn) (by omega)
        have hiff : (n = r - 1) = (n + 1 = r) := propext (by omega)
        have hadd : T + 1 + (n : ℤ) = T + (n + 1 : ℕ) := by push_cast; omega
        rw [List.drop_succ_cons]
        simpa only [hadd, hiff] using this

/-- The tail does not pass a level above it. -/
theorem pop_le (h : Layout pad T S cells L) (h0 : 0 < n) (hr : n ≤ r) (hn : n ≤ cells.length)
    (hTL : T ≤ L) : (if n = r then pad (T + n) else T + n) ≤ L := by
  obtain ⟨chain, rfl⟩ := h.straight hTL
  clear h hTL
  induction n generalizing T r cells with
  | zero => exact absurd h0 (lt_irrefl 0)
  | succ n ih =>
    cases cells with
    | nil => simp at hn
    | cons c cells =>
      obtain ⟨rfl, chain⟩ := chain
      obtain ⟨hleft, hst'⟩ := hst.tail (by omega)
      rw [walkEnd_cons]
      rcases Nat.eq_zero_or_pos n with rfl | hn0
      · have := le_walkEnd hpad chain
        rw [Cell.next, hleft] at this ⊢
        simpa [eq_comm] using this
      · have hnext : c.next pad = c.pos + 1 := if_neg (by omega)
        rw [hnext] at chain ⊢
        have := ih hst' hn0 (by omega) (by simpa using hn) chain
        have hiff : (n = r - 1) = (n + 1 = r) := propext (by omega)
        have hadd : c.pos + 1 + (n : ℤ) = c.pos + (n + 1 : ℕ) := by push_cast; omega
        simpa only [hadd, hiff] using this

/-- Taking `n` bytes of one record away from the tail, up to the end of the buffer. -/
theorem pop_end (h : Layout pad T S cells L) (h0 : 0 < n) (hr : n ≤ r) (hn : n ≤ cells.length)
    (hTS : T + n = S) (hL : L ≠ S) (hSS : S ≤ S') :
    Layout pad 0 S' (cells.drop n) L ∧ L < T := by
  induction n generalizing T r cells with
  | zero => exact absurd h0 (lt_irrefl 0)
  | succ n ih =>
    cases cells with
    | nil => simp at hn
    | cons c cells =>
      push_cast at hTS
      have hpos := h.head_pos (by omega)
      obtain ⟨hleft, hst'⟩ := hst.tail (by omega)
      rcases Nat.eq_zero_or_pos n with rfl | hn0
      · simpa using h.pop_one_end hpad (by simpa using hTS) hL hSS
      · have hrest := h.pop_one hpad (by omega)
        have hnext : c.next pad = T + 1 := by rw [Cell.next, if_neg (by omega), hpos]
        rw [hnext] at hrest
        obtain ⟨hlay, hlt⟩ :=
          ih hst' hrest hn0 (by omega) (by simpa using hn) (by omega)
        refine ⟨hlay, ?_⟩
        -- the level stays off the cells that were taken
        have hfree := (h.free hpad (List.mem_cons_self)).2
        rcases lt_or_ge L T with hLT | hTL
        · exact hLT
        · have hle := h.straight hTL
          have := lt_walkEnd hpad hle.1 (by simp)
          have := (hrest.straight (by omega)).2
          omega

/-! #### What lies at the tail -/

/-- The `n` bytes at the tail are the first `n` cells. -/
theorem take_pos (h : Layout pad T S cells L) (hr : n ≤ r) (hn : n ≤ cells.length)
    (hTS : T + n ≤ S) : ∀ x ∈ cells.take n, T ≤ x.pos ∧ x.pos < T + n := by
  induction n generalizing T r cells with
  | zero => simp
  | succ n ih =>
    cases cells with
    | nil => simp at hn
    | cons c cells =>
      push_cast at hTS ⊢
      have hpos := h.head_pos (by omega)
      obtain ⟨hleft, hst'⟩ := hst.tail (by omega)
      intro x hx
      rcases List.mem_cons.mp (List.take_succ_cons ▸ hx) with rfl | hx
      · constructor <;> omega
      · have hn0 : n ≠ 0 := by
          rintro rfl
          simp at hx
        have hrest := h.pop_one hpad (by omega)
        have hnext : c.next pad = T + 1 := by rw [Cell.next, if_neg (by omega), hpos]
        rw [hnext] at hrest
        have := ih hst' hrest (by omega) (by simpa using hn) (by omega) x hx
        constructor <;> omega

/-- The cells after the first `n` lie outside the `n` bytes at the tail. -/
theorem drop_pos (h : Layout pad T S cells L) (hr : n ≤ r) (hn : n ≤ cells.length)
    (hTS : T + n ≤ S) : ∀ x ∈ cells.drop n, ¬ (T ≤ x.pos ∧ x.pos < T + n) := by
  induction n generalizing T r cells with
  | zero =>
    intro x hx
    omega
  | succ n ih =>
    cases cells with
    | nil => simp at hn
    | cons c cells =>
      push_cast at hTS ⊢
      have hpos := h.head_pos (by omega)
      obtain ⟨hleft, hst'⟩ := hst.tail (by omega)
      intro x hx
      rw [List.drop_succ_cons] at hx
      have hne := h.ne_head hpad (by omega) (List.mem_of_mem_drop hx)
      rcases Nat.eq_zero_or_pos n with rfl | hn0
      · rw [hpos] at hne
        omega
      · have hrest := h.pop_one hpad (by omega)
        have hnext : c.next pad = T + 1 := by rw [Cell.next, if_neg (by omega), hpos]
        rw [hnext] at hrest
        have := ih hst' hrest (by omega) (by simpa using hn) (by omega) x hx
        omega

/-- What a consumer copies from the tail of a memory that holds the cells. -/
theorem readMem_eq (h : Layout pad T S cells L) (hr : n ≤ r) (hn : n ≤ cells.length)
    (hTS : T + n ≤ S) {mem : ℤ → β} (hmem : ∀ x ∈ cells, mem x.pos = x.val) :
    readMem mem T n = (cells.take n).map Cell.val := by
  induction n generalizing T r cells with
  | zero => simp [readMem]
  | succ n ih =>
    cases cells with
    | nil => simp at hn
    | cons c cells =>
      push_cast at hTS
      have hpos := h.head_pos (by omega)
      obtain ⟨hleft, hst'⟩ := hst.tail (by omega)
      rw [readMem, List.take_succ_cons, List.map_cons, ← hpos, hmem c List.mem_cons_self, hpos]
      rcases Nat.eq_zero_or_pos n with rfl | hn0
      · simp [readMem]
      · have hrest := h.pop_one hpad (by omega)
        have hnext : c.next pad = T + 1 := by rw [Cell.next, if_neg (by omega), hpos]
        rw [hnext] at hrest
        rw [ih hst' hrest (by omega) (by simpa using hn) (by omega) fun x hx =>
          hmem x (List.mem_cons_of_mem c hx)]

/-- Bytes of the record at the tail that lie below the level, or below the end of the buffer
once the cells have wrapped, are all there. -/
theorem le_length (h : Layout pad T S cells L) (hr : n ≤ r) (hTL : T ≤ L → T + n ≤ L)
    (hLT : L < T → T + n ≤ S) : n ≤ cells.length := by
  by_contra hlt
  rw [not_le] at hlt
  cases h with
  | linear chain level fits =>
    have hle := le_walkEnd hpad chain
    have hst' : Streamed hdr len r (cells ++ []) r' := by simpa using hst
    have hend := hst'.walkEnd_eq chain (by omega)
    rw [hend] at level
    omega
  | wrapped as bs split upper fills lower level apart fits =>
    subst split
    rw [List.length_append] at hlt
    have hend := hst.walkEnd_eq upper (by omega)
    rcases fills with h | ⟨x, hx, h⟩
    · omega
    · have := (upper.bounds hpad (List.mem_of_getLast? hx)).2
      omega

end Layout

end Ring

/-! ### Marks -/

/-- The cells before the one at position `p`, all of them when there is none. -/
def before (p : ℤ) (cells : List (Cell β)) : List (Cell β) :=
  cells.takeWhile fun c => c.pos ≠ p

theorem before_isPrefix : before p cells <+: cells := List.takeWhile_prefix _

theorem before_eq_self (h : ∀ x ∈ cells, x.pos ≠ p) : before p cells = cells :=
  List.takeWhile_eq_self_iff.mpr fun x hx => decide_eq_true (h x hx)

theorem mem_before {x : Cell β} (hx : x ∈ before p cells) : x ∈ cells ∧ x.pos ≠ p :=
  ⟨before_isPrefix.subset hx, by simpa using List.mem_takeWhile_imp hx⟩

/-- Cells added behind a mark that has a cell do not change what is before it. -/
theorem before_append (h : ∃ x ∈ cells, x.pos = p) : before p (cells ++ bs) = before p cells := by
  induction cells with
  | nil => simp at h
  | cons c cells ih =>
    by_cases hc : c.pos = p
    · simp [before, hc]
    · obtain ⟨x, hx, hp⟩ := h
      rcases List.mem_cons.mp hx with rfl | hx
      · exact absurd hp hc
      · have := ih ⟨x, hx, hp⟩
        simpa [before, hc] using this

/-- Cells added at a mark leave all the earlier ones before it. -/
theorem before_append_of_head (h : ∀ x ∈ cells, x.pos ≠ p) (hbs : ∀ x ∈ bs.head?, x.pos = p) :
    before p (cells ++ bs) = cells := by
  rw [before, List.takeWhile_append_of_pos fun x hx => decide_eq_true (h x hx)]
  cases bs with
  | nil => simp
  | cons b bs => simp [hbs b rfl]

/-- Of two marks the earlier one keeps its place when the cells behind the later one go. -/
theorem before_before {q : ℤ} (h : (before q cells).length ≤ (before p cells).length) :
    before q (before p cells) = before q cells := by
  obtain ⟨ds, hds⟩ : before p cells <+: cells := before_isPrefix
  by_cases hq : ∃ x ∈ before p cells, x.pos = q
  · have happ : before q (before p cells ++ ds) = _ := before_append hq
    rw [← happ, hds]
  · rw [not_exists] at hq
    have hne : ∀ x ∈ before p cells, x.pos ≠ q := fun x hx hpos => hq x ⟨hx, hpos⟩
    have hpre : before p cells <+: before q cells := by
      have htake : before q (before p cells ++ ds) = _ :=
        List.takeWhile_append_of_pos fun x hx => decide_eq_true (hne x hx)
      rw [hds] at htake
      exact ⟨_, htake.symm⟩
    rw [before_eq_self hne]
    exact hpre.eq_of_length (le_antisymm hpre.length_le h)

theorem before_drop (h : n ≤ (before p cells).length) :
    before p (cells.drop n) = (before p cells).drop n := by
  induction n generalizing cells with
  | zero => rfl
  | succ n ih =>
    cases cells with
    | nil => simp [before] at h
    | cons c cells =>
      by_cases hc : c.pos = p
      · simp [before, hc] at h
      · have hcons : before p (c :: cells) = c :: before p cells := by simp [before, hc]
        rw [hcons] at h ⊢
        exact ih (by simpa using h)

end RecordRing
