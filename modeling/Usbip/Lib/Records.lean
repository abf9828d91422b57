import Usbip.Lib.Codec
import Usbip.Lib.RecordRing

/-!
# Skipping records

A format that leaves room for others puts its own parts between records that tell their length:
the first byte of a record is its length, the second its type. A reader that knows only some types
skips the records of the others, and leaves the loop at the first one it knows or where less than a
header is left.

* `At`: some bytes stand in a memory;
* `Rule`: which types a reader knows, and which lengths it refuses. A record shorter than its own
  header is always refused, so the loop ends (`Rule.skip_eq`);
* `Rule.skip_records`: records that a reader neither knows nor refuses are skipped;
* `Rule.skip_le` and `Rule.reach_skip_le`: for any bytes, how far the reader gets, and that it reads
  no header outside of what is left. Only a record that is refused for being too long cannot lead
  it out (`Rule.skip_le_of_bounded`).
-/

namespace Records

open RecordRing

/-! ### Bytes in a memory -/

section At

universe u

variable {β : Type u} {mem : ℤ → β} {p : ℤ}

/-- `l` stands in the memory at position `p`. -/
def At (mem : ℤ → β) (p : ℤ) (l : List β) : Prop := readMem mem p l.length = l

@[simp]
theorem at_nil : At mem p [] := rfl

@[simp]
theorem at_cons {b : β} {l : List β} : At mem p (b :: l) ↔ mem p = b ∧ At mem (p + 1) l :=
  List.cons_eq_cons

@[simp]
theorem at_append {l l' : List β} :
    At mem p (l ++ l') ↔ At mem p l ∧ At mem (p + l.length) l' := by
  rw [At, List.length_append, readMem_add]
  constructor
  · intro h
    exact List.append_inj h (length_readMem ..)
  · rintro ⟨hl, hl'⟩
    rw [hl, hl']

/-- What was written stands there. -/
theorem at_writeMem {l : List β} : At (writeMem mem p l) p l :=
  (readMem_writeMem le_rfl).trans List.take_length

end At

/-! ### Records -/

/-- A record of a type with a body. Its length fits into the first byte. -/
structure Record where
  type : Byte
  body : List Byte
  short : body.length + 2 < 256

namespace Record

/-- The bytes of a record. -/
def bytes (r : Record) : List Byte := BitVec.ofNat 8 (r.body.length + 2) :: r.type :: r.body

@[simp]
theorem length_bytes (r : Record) : r.bytes.length = r.body.length + 2 := rfl

end Record

/-- The bytes of some records, one after the other. -/
def bytesAll (rs : List Record) : List Byte := rs.flatMap Record.bytes

@[simp]
theorem bytesAll_nil : bytesAll [] = [] := rfl

@[simp]
theorem bytesAll_cons (r : Record) (rs : List Record) :
    bytesAll (r :: rs) = r.bytes ++ bytesAll rs := List.flatMap_cons

/-! ### The loop -/

/-- What a reader does with a record: the types it stops at, and the lengths it refuses when so
much is left. It refuses what is too short for a header, and takes what is long enough and fits. -/
structure Rule where
  stop : Byte → Bool
  refuse : ℕ → ℤ → Bool
  refuse_short : ∀ len size, len < 2 → refuse len size = true
  accept : ∀ (len : ℕ) size, 2 ≤ len → (len : ℤ) ≤ size → refuse len size = false

namespace Rule

variable (R : Rule) (mem : ℤ → Byte)

/-- The loop from position `pos` on while at least a header is left: where it stops, `none` at a
record it refuses, and the end of the last header it has read, `reach` before the loop. -/
def skipLoop : ℕ → ℤ → ℤ → ℤ → Option ℤ × ℤ
  | 0, pos, _, reach => (some pos, reach)
  | n + 1, pos, size, reach =>
    if size < 2 then (some pos, reach)
    else if R.refuse (mem pos).toNat size then (none, max reach (pos + 2))
    else if R.stop (mem (pos + 1)) then (some pos, max reach (pos + 2))
    else skipLoop n (pos + (mem pos).toNat) (size - (mem pos).toNat) (max reach (pos + 2))

/-- Skip records in the `size` bytes at `pos`. -/
def skip (pos size reach : ℤ) : Option ℤ × ℤ := R.skipLoop mem size.toNat pos size reach

variable {R mem} {pos size reach : ℤ}

/-- A length that is not refused leads on. -/
theorem two_le_of_not_refuse {len : ℕ} (h : ¬ R.refuse len size = true) : 2 ≤ len := by
  by_contra hlt
  exact h (R.refuse_short len size (by omega))

/-- One pass for every byte left is enough. -/
theorem skipLoop_eq {n : ℕ} (hn : size.toNat ≤ n) :
    R.skipLoop mem n pos size reach = R.skip mem pos size reach := by
  induction n using Nat.strong_induction_on generalizing pos size reach with
  | _ n ih =>
    rw [skip]
    obtain rfl | hlt := hn.eq_or_lt
    · rfl
    rcases n with _ | n
    · omega
    by_cases hsize : size < 2
    · -- too little for a header: the loop is left at once, whatever the number of passes
      rcases hm : size.toNat with _ | m <;> simp [skipLoop, hsize]
    obtain ⟨m, hm⟩ : ∃ m, size.toNat = m + 1 := ⟨size.toNat - 1, by omega⟩
    rw [hm, skipLoop, skipLoop]
    simp only [if_neg hsize]
    split
    · rfl
    next hrefuse =>
      have hlen := two_le_of_not_refuse hrefuse
      split
      · rfl
      · rw [ih n (by omega) (by omega), ih m (by omega) (by omega)]

/-- The loop, pass by pass. -/
theorem skip_eq (R : Rule) (mem : ℤ → Byte) (pos size reach : ℤ) :
    R.skip mem pos size reach =
      if size < 2 then (some pos, reach)
      else if R.refuse (mem pos).toNat size then (none, max reach (pos + 2))
      else if R.stop (mem (pos + 1)) then (some pos, max reach (pos + 2))
      else R.skip mem (pos + (mem pos).toNat) (size - (mem pos).toNat) (max reach (pos + 2)) := by
  rw [← skipLoop_eq (Nat.le_succ size.toNat), skipLoop]
  congr 3
  exact skipLoop_eq (by omega)

/-- To prove something of the loop: it is left where less than a header is left, at a record that
is refused and at one that stops it, and otherwise it goes on behind the record. -/
theorem skip_induction {P : ℤ → ℤ → ℤ → Option ℤ × ℤ → Prop}
    (done : ∀ pos size reach, size < 2 → P pos size reach (some pos, reach))
    (refused : ∀ pos size reach, 2 ≤ size → P pos size reach (none, max reach (pos + 2)))
    (stopped : ∀ pos size reach, 2 ≤ size → R.refuse (mem pos).toNat size = false →
      R.stop (mem (pos + 1)) = true → P pos size reach (some pos, max reach (pos + 2)))
    (next : ∀ pos size reach r, 2 ≤ size → 2 ≤ (mem pos).toNat →
      R.refuse (mem pos).toNat size = false → R.stop (mem (pos + 1)) = false →
      P (pos + (mem pos).toNat) (size - (mem pos).toNat) (max reach (pos + 2)) r →
      P pos size reach r)
    (pos size reach : ℤ) : P pos size reach (R.skip mem pos size reach) := by
  induction hn : size.toNat using Nat.strong_induction_on generalizing pos size reach with
  | _ n ih =>
    rw [skip_eq]
    split
    next hsize => exact done pos size reach hsize
    next hsize =>
      split
      next hrefuse => exact refused pos size reach (by omega)
      next hrefuse =>
        have hlen := two_le_of_not_refuse hrefuse
        rw [Bool.not_eq_true] at hrefuse
        split
        next hstop => exact stopped pos size reach (by omega) hrefuse hstop
        next hstop =>
          rw [Bool.not_eq_true] at hstop
          exact next pos size reach _ (by omega) hlen hrefuse hstop (ih _ (by omega) _ _ _ rfl)

/-! ### Any bytes -/

/-- The loop does not go back. -/
theorem le_skip (R : Rule) (mem : ℤ → Byte) (pos size reach : ℤ) :
    ∀ e, (R.skip mem pos size reach).1 = some e → pos ≤ e := by
  refine skip_induction (P := fun pos _ _ r => ∀ e, r.1 = some e → pos ≤ e) ?_ ?_ ?_ ?_ pos size
    reach
  · rintro pos size reach - e ⟨⟩
    exact le_rfl
  · rintro pos size reach - e ⟨⟩
  · rintro pos size reach - - - e ⟨⟩
    exact le_rfl
  · rintro pos size reach r - - - - ih e he
    have hle := ih e he
    omega

/-- If no length is taken that is more than `k` bytes too long, then the loop ends at most `k` bytes
behind the end. -/
theorem skip_le {k : ℤ} (hk : ∀ len size, len < 256 → 2 ≤ size → R.refuse len size = false →
      (len : ℤ) ≤ size + k) (pos size reach : ℤ) :
    ∀ e, (R.skip mem pos size reach).1 = some e → e ≤ max pos (pos + size + k) := by
  refine skip_induction (P := fun pos size _ r => ∀ e, r.1 = some e → e ≤ max pos (pos + size + k))
    ?_ ?_ ?_ ?_ pos size reach
  · rintro pos size reach - e ⟨⟩
    exact le_max_left ..
  · rintro pos size reach - e ⟨⟩
  · rintro pos size reach - - - e ⟨⟩
    exact le_max_left ..
  · rintro pos size reach r hsize hlen hrefuse - ih e he
    have hfit := hk _ size (mem pos).isLt hsize hrefuse
    have hle := ih e he
    omega

/-- No header is read outside of what is left. -/
theorem reach_skip (R : Rule) (mem : ℤ → Byte) (pos size reach : ℤ) :
    reach ≤ (R.skip mem pos size reach).2 ∧
      (R.skip mem pos size reach).2 ≤ max reach (pos + size) := by
  refine skip_induction (P := fun pos size reach r => reach ≤ r.2 ∧ r.2 ≤ max reach (pos + size))
    ?_ ?_ ?_ ?_ pos size reach
  · rintro pos size reach -
    exact ⟨le_rfl, le_max_left ..⟩
  · intro pos size reach hsize
    exact ⟨le_max_left .., max_le_max_left _ (by omega)⟩
  · rintro pos size reach hsize - -
    exact ⟨le_max_left .., max_le_max_left _ (by omega)⟩
  · rintro pos size reach r hsize - - - ⟨hge, hle⟩
    omega

/-- Where the loop ends does not depend on what was read before. -/
theorem fst_skip (reach reach' : ℤ) :
    (R.skip mem pos size reach).1 = (R.skip mem pos size reach').1 := by
  induction hn : size.toNat using Nat.strong_induction_on generalizing pos size reach reach' with
  | _ n ih =>
    rw [skip_eq, skip_eq R mem pos size reach']
    split
    · rfl
    split
    · rfl
    next hrefuse =>
      have hlen := two_le_of_not_refuse hrefuse
      split
      · rfl
      · exact ih _ (by omega) _ _ rfl

/-! ### Well-formed records -/

/-- The loop is left where less than a header is left. -/
theorem skip_end (h : size < 2) : R.skip mem pos size reach = (some pos, reach) := by
  rw [skip_eq, if_pos h]

/-- The loop stops at a record of a type that the reader knows. -/
theorem skip_stop {len type : Byte} (hat : At mem pos [len, type]) (hstop : R.stop type = true)
    (hlen : 2 ≤ len.toNat) (hfit : (len.toNat : ℤ) ≤ size) :
    R.skip mem pos size reach = (some pos, max reach (pos + 2)) := by
  simp only [at_cons, at_nil, and_true] at hat
  rw [skip_eq, if_neg (by omega), hat.1, R.accept _ _ hlen hfit, if_neg Bool.false_ne_true, hat.2,
    if_pos hstop]

/-- Records that the reader does not know are skipped. -/
theorem skip_records {rs : List Record} (hat : At mem pos (bytesAll rs))
    (hother : ∀ r ∈ rs, R.stop r.type = false) (size reach : ℤ)
    (hfit : ((bytesAll rs).length : ℤ) ≤ size) :
    (R.skip mem pos size reach).1 =
      (R.skip mem (pos + (bytesAll rs).length) (size - (bytesAll rs).length) reach).1 := by
  induction rs generalizing pos size reach with
  | nil => simp
  | cons r rs ih =>
    simp only [bytesAll_cons, at_append, Record.length_bytes, List.length_append] at hat hfit ⊢
    obtain ⟨hr, hrs⟩ := hat
    simp only [Record.bytes, at_cons] at hr
    have hlen : (mem pos).toNat = r.body.length + 2 := by
      rw [hr.1, BitVec.toNat_ofNat, Nat.mod_eq_of_lt r.short]
    have hstop : R.stop (mem (pos + 1)) = false := by
      rw [hr.2.1]
      exact hother r List.mem_cons_self
    rw [skip_eq, if_neg (by omega), hlen, R.accept _ _ (by omega) (by omega),
      if_neg Bool.false_ne_true, hstop, if_neg Bool.false_ne_true,
      ih hrs (fun r' hr' => hother r' (List.mem_cons_of_mem r hr')) _ _ (by omega),
      fst_skip _ reach]
    congr 2 <;> push_cast <;> omega

end Rule

end Records
