import Usbip.Lib.RecordRing

/-!
# Counting the records of a kind

The header of a record tells whether the record is of a certain `kind`. `completed` counts the
records of that kind whose last byte is in a list of cells, and `lastKind` tells the kind of the
last record that the cells have begun. Both are given what a consumer knows who is inside a record:
that `r` bytes of it are to come, and whether it is of the kind.

The results say what becomes of the count when cells are added at the end (`completed_append`,
`completed_block`, `completed_block_start`) and when they are taken at the front
(`completed_open`, `completed_drop`).
-/

namespace RecordRing

universe u

variable {β : Type u} {hdr : ℕ} {len : List β → ℕ} {kind : List β → Bool}
variable {r r' n R : ℕ} {k : Bool} {p : ℤ} {c : Cell β} {cells bs : List (Cell β)} {data : List β}

/-- The header of the record that the cells begin with. -/
def headerOf (hdr : ℕ) (cells : List (Cell β)) : List β := (cells.take hdr).map Cell.val

/-- The records of the kind that end in the cells. -/
def completed (hdr : ℕ) (kind : List β → Bool) : ℕ → Bool → List (Cell β) → ℕ
  | _, _, [] => 0
  | 0, _, c :: cs =>
    (if c.left = 1 ∧ kind (headerOf hdr (c :: cs)) then 1 else 0) +
      completed hdr kind (c.left - 1) (kind (headerOf hdr (c :: cs))) cs
  | r + 1, k, _ :: cs => (if r = 0 ∧ k then 1 else 0) + completed hdr kind r k cs

/-- Whether the last record begun is of the kind. -/
def lastKind (hdr : ℕ) (kind : List β → Bool) : ℕ → Bool → List (Cell β) → Bool
  | _, k, [] => k
  | 0, _, c :: cs => lastKind hdr kind (c.left - 1) (kind (headerOf hdr (c :: cs))) cs
  | r + 1, k, _ :: cs => lastKind hdr kind r k cs

@[simp] theorem completed_nil : completed hdr kind r k ([] : List (Cell β)) = 0 := by
  cases r <;> rfl

@[simp] theorem lastKind_nil : lastKind hdr kind r k ([] : List (Cell β)) = k := by
  cases r <;> rfl

/-! ### The header -/

theorem headerOf_append (h : hdr ≤ cells.length) :
    headerOf hdr (cells ++ bs) = headerOf hdr cells := by
  rw [headerOf, List.take_append_of_le_length h, headerOf]

theorem headerOf_block (R : ℕ) : headerOf hdr (block p R data) = data.take hdr := by
  rw [headerOf, List.map_take, map_val_block]

/-- The cells before a mark begin with the same record, if they have its header. -/
theorem headerOf_before (h : hdr ≤ (before p cells).length) :
    headerOf hdr (before p cells) = headerOf hdr cells := by
  obtain ⟨behind, hbehind⟩ : before p cells <+: cells := before_isPrefix
  conv_rhs => rw [← hbehind]
  exact (headerOf_append h).symm

/-! ### Reading on at the front -/

/-- The header of the record at the front has been read. -/
theorem completed_open (h : 0 < c.left) :
    completed hdr kind 0 k (c :: cells) =
      completed hdr kind c.left (kind (headerOf hdr (c :: cells))) (c :: cells) := by
  obtain ⟨left, hleft⟩ : ∃ left, c.left = left + 1 := ⟨c.left - 1, by omega⟩
  rw [completed, hleft, completed]
  simp

theorem lastKind_open (h : 0 < c.left) :
    lastKind hdr kind 0 k (c :: cells) =
      lastKind hdr kind c.left (kind (headerOf hdr (c :: cells))) (c :: cells) := by
  obtain ⟨left, hleft⟩ : ∃ left, c.left = left + 1 := ⟨c.left - 1, by omega⟩
  rw [lastKind, hleft, lastKind, Nat.add_sub_cancel]

/-- Cells of the record at the front are taken, perhaps its last one. -/
theorem completed_drop (hr : n ≤ r) (hn : n ≤ cells.length) (h0 : 0 < n) :
    completed hdr kind r k cells =
      (if n = r ∧ k then 1 else 0) + completed hdr kind (r - n) k (cells.drop n) := by
  induction n generalizing r cells with
  | zero => exact absurd h0 (lt_irrefl 0)
  | succ n ih =>
    obtain ⟨r, rfl⟩ : ∃ m, r = m + 1 := ⟨r - 1, by omega⟩
    cases cells with
    | nil => simp at hn
    | cons c cells =>
      rw [completed, List.drop_succ_cons, Nat.add_sub_add_right]
      rcases Nat.eq_zero_or_pos n with rfl | hpos
      · simp
      · have hrest : completed hdr kind r k cells = _ := ih (by omega) (by simpa using hn) hpos
        rw [if_neg (by omega), Nat.zero_add, hrest]
        simp

theorem lastKind_drop (hr : n ≤ r) (hn : n ≤ cells.length) :
    lastKind hdr kind r k cells = lastKind hdr kind (r - n) k (cells.drop n) := by
  induction n generalizing r cells with
  | zero => rfl
  | succ n ih =>
    obtain ⟨r, rfl⟩ : ∃ m, r = m + 1 := ⟨r - 1, by omega⟩
    cases cells with
    | nil => simp at hn
    | cons c cells =>
      rw [lastKind, List.drop_succ_cons, Nat.add_sub_add_right]
      exact ih (by omega) (by simpa using hn)

/-! ### Adding at the end -/

/-- Further cells are counted from where the earlier ones end. -/
theorem completed_append (h : Streamed hdr len r cells r') :
    completed hdr kind r k (cells ++ bs) = completed hdr kind r k cells +
      completed hdr kind r' (lastKind hdr kind r k cells) bs := by
  induction cells generalizing r k with
  | nil =>
    obtain rfl : r = r' := by simpa using h
    simp
  | cons c cells ih =>
    cases r with
    | zero =>
      obtain ⟨hlen, -, -, -, hrest⟩ := h
      have hheader : headerOf hdr (c :: cells ++ bs) = _ := headerOf_append hlen
      rw [List.cons_append] at hheader ⊢
      rw [completed, completed, lastKind, hheader, ih hrest, Nat.add_assoc]
    | succ r =>
      rw [List.cons_append, completed, completed, lastKind, ih h.2, Nat.add_assoc]

theorem lastKind_append (h : Streamed hdr len r cells r') :
    lastKind hdr kind r k (cells ++ bs) =
      lastKind hdr kind r' (lastKind hdr kind r k cells) bs := by
  induction cells generalizing r k with
  | nil =>
    obtain rfl : r = r' := by simpa using h
    simp
  | cons c cells ih =>
    cases r with
    | zero =>
      obtain ⟨hlen, -, -, -, hrest⟩ := h
      have hheader : headerOf hdr (c :: cells ++ bs) = _ := headerOf_append hlen
      rw [List.cons_append] at hheader ⊢
      rw [lastKind, lastKind, hheader, ih hrest]
    | succ r => rw [List.cons_append, lastKind, lastKind, ih h.2]

/-- More of the record under way. -/
theorem completed_block (hR : data.length ≤ R) (h0 : 0 < R) :
    completed hdr kind R k (block p R data) = if data.length = R ∧ k then 1 else 0 := by
  rcases Nat.eq_zero_or_pos data.length with hnil | hpos
  · obtain rfl := List.length_eq_zero_iff.mp hnil
    rw [block_nil, completed_nil, if_neg (by rw [List.length_nil]; omega)]
  · have hlen : data.length ≤ (block p R data).length := length_block.ge
    rw [completed_drop hR hlen hpos, List.drop_of_length_le length_block.le, completed_nil,
      Nat.add_zero]

theorem lastKind_block (hR : data.length ≤ R) :
    lastKind hdr kind R k (block p R data) = k := by
  have hlen : data.length ≤ (block p R data).length := length_block.ge
  rw [lastKind_drop hR hlen, List.drop_of_length_le length_block.le, lastKind_nil]

/-- The first part of a record. -/
theorem completed_block_start (hR : data.length ≤ R) (h0 : 0 < data.length) :
    completed hdr kind 0 k (block p R data) =
      if data.length = R ∧ kind (data.take hdr) then 1 else 0 := by
  have hheader : headerOf hdr (block p R data) = _ := headerOf_block R
  cases data with
  | nil => simp at h0
  | cons b data =>
    have hpos : 0 < R := h0.trans_le hR
    have hopen : completed hdr kind 0 k (⟨p, b, R⟩ :: block (p + 1) (R - 1) data) = _ :=
      completed_open hpos
    rw [block] at hheader ⊢
    rw [hopen, hheader]
    exact completed_block hR hpos

theorem lastKind_block_start (hR : data.length ≤ R) (h0 : 0 < data.length) :
    lastKind hdr kind 0 k (block p R data) = kind (data.take hdr) := by
  have hheader : headerOf hdr (block p R data) = _ := headerOf_block R
  cases data with
  | nil => simp at h0
  | cons b data =>
    have hpos : 0 < R := h0.trans_le hR
    have hopen : lastKind hdr kind 0 k (⟨p, b, R⟩ :: block (p + 1) (R - 1) data) = _ :=
      lastKind_open hpos
    rw [block] at hheader ⊢
    rw [hopen, hheader]
    exact lastKind_block hR

end RecordRing
