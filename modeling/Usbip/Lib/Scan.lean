import Mathlib.Data.List.DropRight
import Mathlib.Data.Nat.Digits.Lemmas
import Usbip.Lib.Codec

/-!
# Numbers and words in a text

What `printf` and `scanf` do with numbers and words. A text is a list of bytes without the zero at
its end.

* `numeral`: the digits of a number (`%u` and `%x`), which `List.leftpad` pads to a width;
* `scanInt`, `scanHex` and `scanWord`: the conversions `%d`, `%x` and `%s`, each with the rest of
  the text, and `scanNat`: a `%u` that takes no sign, as in the kernel. Leading blanks are skipped,
  as a blank in the format does (`skipSpace`);
* `scanInt_append`, `scanNat_append`, `scanHex_append` and `scanWord_append`: a number or a word
  behind blanks and in front of a blank is read back;
* `strchr`: the next place where a character is.
-/

namespace Scan

/-- `isspace` -/
def isSpace (c : Byte) : Bool := c.toNat = 0x20 ∨ 9 ≤ c.toNat ∧ c.toNat ≤ 13

/-- The value of a digit, and 16 for what is not one. -/
def digitValue (c : Byte) : ℕ :=
  if 0x30 ≤ c.toNat ∧ c.toNat ≤ 0x39 then c.toNat - 0x30
  else if 0x61 ≤ c.toNat ∧ c.toNat ≤ 0x66 then c.toNat - 0x57
  else if 0x41 ≤ c.toNat ∧ c.toNat ≤ 0x46 then c.toNat - 0x37
  else 16

/-- A digit of the base `b`. -/
def isDigit (b : ℕ) (c : Byte) : Bool := digitValue c < b

/-- The digit of a value below 16. -/
def digitByte (d : ℕ) : Byte := BitVec.ofNat 8 (if d < 10 then 0x30 + d else 0x57 + d)

/-- The digits of a number. -/
def numeral (b n : ℕ) : List Byte := if n = 0 then [0x30] else (b.digits n).reverse.map digitByte

/-- The number of some digits. -/
def value (b : ℕ) (l : List Byte) : ℕ := Nat.ofDigits b (l.reverse.map digitValue)

/-- A blank in a format. -/
def skipSpace (l : List Byte) : List Byte := l.dropWhile isSpace

/-- Some digits of the base `b`. -/
def scanDigits (b : ℕ) (l : List Byte) : Option (ℕ × List Byte) :=
  if l.takeWhile (isDigit b) = [] then none
  else some (value b (l.takeWhile (isDigit b)), l.dropWhile (isDigit b))

/-- A number with or without a sign. -/
def scanSigned (scan : List Byte → Option (ℕ × List Byte)) : List Byte → Option (ℤ × List Byte)
  | 0x2d :: l => (scan l).map fun p => (-p.1, p.2)
  | 0x2b :: l => (scan l).map fun p => (p.1, p.2)
  | l => (scan l).map fun p => (p.1, p.2)

/-- Hexadecimal digits, with `0x` in front of them or not. -/
def scanHexDigits : List Byte → Option (ℕ × List Byte)
  | 0x30 :: 0x78 :: l => scanDigits 16 l
  | 0x30 :: 0x58 :: l => scanDigits 16 l
  | l => scanDigits 16 l

/-- `%d` -/
def scanInt (l : List Byte) : Option (ℤ × List Byte) := scanSigned (scanDigits 10) (skipSpace l)

/-- `%u` of the kernel -/
def scanNat (l : List Byte) : Option (ℕ × List Byte) := scanDigits 10 (skipSpace l)

/-- `%x` -/
def scanHex (l : List Byte) : Option (ℤ × List Byte) := scanSigned scanHexDigits (skipSpace l)

/-- `%s` -/
def scanWord (l : List Byte) : Option (List Byte × List Byte) :=
  if (skipSpace l).takeWhile (fun c => !isSpace c) = [] then none
  else some ((skipSpace l).takeWhile (fun c => !isSpace c),
    (skipSpace l).dropWhile fun c => !isSpace c)

/-! ### Digits -/

variable {b n : ℕ} {c : Byte} {ds l rest : List Byte}

theorem digitValue_digitByte {d : ℕ} (hd : d < 16) : digitValue (digitByte d) = d := by
  revert d
  decide

theorem isDigit_mono {b' : ℕ} (hb : b ≤ b') (h : isDigit b c) : isDigit b' c := by
  rw [isDigit, decide_eq_true_iff] at h ⊢
  omega

private theorem not_isSpace_of_isDigit_sixteen : ∀ c : Byte, isDigit 16 c →
    isSpace c = false ∧ c ≠ 0x2d ∧ c ≠ 0x2b ∧ c ≠ 0x78 ∧ c ≠ 0x58 := by decide

/-- A digit is no blank, no sign and no `x`. -/
theorem not_isSpace_of_isDigit (hb : b ≤ 16) (h : isDigit b c) :
    isSpace c = false ∧ c ≠ 0x2d ∧ c ≠ 0x2b ∧ c ≠ 0x78 ∧ c ≠ 0x58 :=
  not_isSpace_of_isDigit_sixteen c (isDigit_mono hb h)

private theorem ne_of_isSpace : ∀ c : Byte, isSpace c → c ≠ 0x78 ∧ c ≠ 0x58 := by decide

theorem isDigit_numeral (hb : 2 ≤ b) (hb' : b ≤ 16) (n : ℕ) : ∀ c ∈ numeral b n, isDigit b c := by
  intro c hc
  rw [numeral] at hc
  rw [isDigit, decide_eq_true_iff]
  split at hc
  · rw [List.mem_singleton] at hc
    subst hc
    exact lt_of_lt_of_le Nat.zero_lt_two hb
  · obtain ⟨d, hd, rfl⟩ := List.mem_map.mp hc
    have hlt := Nat.digits_lt_base hb (List.mem_reverse.mp hd)
    rwa [digitValue_digitByte (hlt.trans_le hb')]

theorem numeral_ne_nil (b n : ℕ) : numeral b n ≠ [] := by
  rw [numeral]
  split
  · exact List.cons_ne_nil _ _
  next hn => simpa using Nat.digits_ne_nil_iff_ne_zero.mpr hn

theorem value_numeral (hb : 2 ≤ b) (hb' : b ≤ 16) (n : ℕ) : value b (numeral b n) = n := by
  rw [numeral]
  split
  next hn =>
    rw [hn]
    rfl
  next hn =>
    have hmap : (b.digits n).map (digitValue ∘ digitByte) = b.digits n := by
      refine (List.map_congr_left fun d hd => ?_).trans (List.map_id _)
      exact digitValue_digitByte ((Nat.digits_lt_base hb hd).trans_le hb')
    rw [value, ← List.map_reverse, List.reverse_reverse, List.map_map, hmap, Nat.ofDigits_digits]

/-- Zeros in front of a number do not change it. -/
theorem value_leftpad (b w : ℕ) (l : List Byte) : value b (l.leftpad w 0x30) = value b l := by
  rw [value, List.leftpad, List.reverse_append, List.map_append, List.reverse_replicate,
    List.map_replicate]
  exact Nat.ofDigits_append_replicate_zero _

theorem isDigit_leftpad (hb : 0 < b) (h : ∀ c ∈ l, isDigit b c) (w : ℕ) :
    ∀ c ∈ l.leftpad w 0x30, isDigit b c := by
  intro c hc
  rcases List.mem_append.mp hc with hc | hc
  · rw [(List.mem_replicate.mp hc).2, isDigit, decide_eq_true_iff]
    exact hb
  · exact h c hc

/-! ### Reading back -/

/-- A text that begins with a blank, or is empty. -/
def Blank (l : List Byte) : Prop := ∀ c ∈ l.head?, isSpace c

theorem takeWhile_append {p : Byte → Bool} (hl : ∀ c ∈ l, p c) (hrest : ∀ c ∈ rest.head?, ¬ p c) :
    (l ++ rest).takeWhile p = l ∧ (l ++ rest).dropWhile p = rest := by
  rw [List.takeWhile_append_of_pos hl, List.dropWhile_append_of_pos hl]
  cases rest with
  | nil => exact ⟨List.append_nil l, rfl⟩
  | cons c rest =>
    have hc := hrest c rfl
    rw [List.takeWhile_cons_of_neg hc, List.dropWhile_cons_of_neg hc, List.append_nil]
    exact ⟨rfl, rfl⟩

theorem skipSpace_append (hl : ∀ c ∈ l, isSpace c) (hrest : ∀ c ∈ rest.head?, isSpace c = false) :
    skipSpace (l ++ rest) = rest :=
  (takeWhile_append hl fun c hc => by simp [hrest c hc]).2

theorem skipSpace_cons (hc : isSpace c) (l : List Byte) : skipSpace (c :: l) = skipSpace l :=
  List.dropWhile_cons_of_pos hc

theorem skipSpace_skipSpace (l : List Byte) : skipSpace (skipSpace l) = skipSpace l :=
  List.dropWhile_idempotent _ _

/-- A blank in the format in front of a conversion. -/
theorem scanInt_skipSpace (hc : isSpace c) (l : List Byte) :
    scanInt (skipSpace (c :: l)) = scanInt l := by
  rw [scanInt, skipSpace_skipSpace, skipSpace_cons hc, scanInt]

theorem scanNat_skipSpace (hc : isSpace c) (l : List Byte) :
    scanNat (skipSpace (c :: l)) = scanNat l := by
  rw [scanNat, skipSpace_skipSpace, skipSpace_cons hc, scanNat]

theorem scanHex_skipSpace (hc : isSpace c) (l : List Byte) :
    scanHex (skipSpace (c :: l)) = scanHex l := by
  rw [scanHex, skipSpace_skipSpace, skipSpace_cons hc, scanHex]

theorem scanWord_skipSpace (hc : isSpace c) (l : List Byte) :
    scanWord (skipSpace (c :: l)) = scanWord l := by
  rw [scanWord, skipSpace_skipSpace, skipSpace_cons hc, scanWord]

theorem scanDigits_append (hb : b ≤ 16) (hds : ∀ c ∈ ds, isDigit b c) (hne : ds ≠ [])
    (hrest : Blank rest) : scanDigits b (ds ++ rest) = some (value b ds, rest) := by
  obtain ⟨htake, hdrop⟩ := takeWhile_append (p := isDigit b) hds fun c hc hdigit =>
    absurd (hrest c hc) (by simp [(not_isSpace_of_isDigit hb hdigit).1])
  rw [scanDigits, htake, hdrop, if_neg hne]

theorem scanSigned_of_isDigit {scan : List Byte → Option (ℕ × List Byte)} (hb : b ≤ 16)
    (hc : isDigit b c) (h : scan (c :: l) = some (n, rest)) :
    scanSigned scan (c :: l) = some ((n : ℤ), rest) := by
  obtain ⟨-, hminus, hplus, -⟩ := not_isSpace_of_isDigit hb hc
  rw [scanSigned, h]
  · rfl
  · rintro _ h
    exact hminus (List.cons.inj h).1
  · rintro _ h
    exact hplus (List.cons.inj h).1

/-- A number behind blanks and in front of a blank. -/
theorem scanInt_append (hl : ∀ c ∈ l, isSpace c) (hds : ∀ c ∈ ds, isDigit 10 c) (hne : ds ≠ [])
    (hrest : Blank rest) : scanInt (l ++ (ds ++ rest)) = some ((value 10 ds : ℤ), rest) := by
  obtain ⟨c, ds, rfl⟩ := List.exists_cons_of_ne_nil hne
  have hc := hds c List.mem_cons_self
  rw [scanInt, skipSpace_append hl (by simpa using (not_isSpace_of_isDigit (by decide) hc).1)]
  exact scanSigned_of_isDigit (by decide) hc (scanDigits_append (by decide) hds hne hrest)

theorem scanNat_append (hl : ∀ c ∈ l, isSpace c) (hds : ∀ c ∈ ds, isDigit 10 c) (hne : ds ≠ [])
    (hrest : Blank rest) : scanNat (l ++ (ds ++ rest)) = some (value 10 ds, rest) := by
  obtain ⟨c, ds, rfl⟩ := List.exists_cons_of_ne_nil hne
  have hc := hds c List.mem_cons_self
  rw [scanNat, skipSpace_append hl (by simpa using (not_isSpace_of_isDigit (by decide) hc).1)]
  exact scanDigits_append (by decide) hds hne hrest

/-- What is neither a blank nor a sign nor a digit is no number. -/
theorem scanInt_eq_none (hspace : isSpace c = false) (hminus : c ≠ 0x2d) (hplus : c ≠ 0x2b)
    (hdigit : isDigit 10 c = false) (l : List Byte) : scanInt (c :: l) = none := by
  have hskip : skipSpace (c :: l) = c :: l := List.dropWhile_cons_of_neg (by simp [hspace])
  rw [scanInt, hskip, scanSigned, scanDigits, List.takeWhile_cons_of_neg (by simp [hdigit]),
    if_pos rfl]
  · rfl
  · rintro _ h
    exact hminus (List.cons.inj h).1
  · rintro _ h
    exact hplus (List.cons.inj h).1

/-- A hexadecimal number behind blanks and in front of a blank. -/
theorem scanHex_append (hl : ∀ c ∈ l, isSpace c) (hds : ∀ c ∈ ds, isDigit 16 c) (hne : ds ≠ [])
    (hrest : Blank rest) : scanHex (l ++ (ds ++ rest)) = some ((value 16 ds : ℤ), rest) := by
  have hscan := scanDigits_append le_rfl hds hne hrest
  obtain ⟨c, ds, rfl⟩ := List.exists_cons_of_ne_nil hne
  have hc := hds c List.mem_cons_self
  rw [scanHex, skipSpace_append hl (by simpa using (not_isSpace_of_isDigit le_rfl hc).1)]
  refine scanSigned_of_isDigit le_rfl hc ?_
  -- no `x` comes after the first digit
  have hx : ∀ x ∈ (ds ++ rest).head?, x ≠ 0x78 ∧ x ≠ 0x58 := by
    intro x hx
    cases ds with
    | nil => exact ne_of_isSpace x (hrest x hx)
    | cons d ds =>
      obtain rfl : d = x := Option.some.inj hx
      exact (not_isSpace_of_isDigit le_rfl (hds d (by simp))).2.2.2
  rw [List.cons_append] at hscan
  change scanHexDigits (c :: (ds ++ rest)) = _
  rw [scanHexDigits, hscan]
  · rintro l' h
    exact (hx 0x78 (by rw [(List.cons.inj h).2]; rfl)).1 rfl
  · rintro l' h
    exact (hx 0x58 (by rw [(List.cons.inj h).2]; rfl)).2 rfl

/-- A word behind blanks and in front of a blank. -/
theorem scanWord_append {w : List Byte} (hl : ∀ c ∈ l, isSpace c) (hw : ∀ c ∈ w, isSpace c = false)
    (hne : w ≠ []) (hrest : Blank rest) : scanWord (l ++ (w ++ rest)) = some (w, rest) := by
  have hskip : skipSpace (l ++ (w ++ rest)) = w ++ rest := by
    obtain ⟨c, w, rfl⟩ := List.exists_cons_of_ne_nil hne
    exact skipSpace_append hl (by simpa using hw c List.mem_cons_self)
  obtain ⟨htake, hdrop⟩ : (w ++ rest).takeWhile (fun c => !isSpace c) = w ∧
      (w ++ rest).dropWhile (fun c => !isSpace c) = rest :=
    takeWhile_append (fun c hc => by simp [hw c hc]) fun c hc => by simp [hrest c hc]
  rw [scanWord, hskip, htake, hdrop, if_neg hne]

/-! ### Characters -/

/-- `strchr`, as an offset. -/
def strchr (ch : Byte) : List Byte → Option ℕ
  | [] => none
  | b :: l => if b = ch then some 0 else (strchr ch l).map (· + 1)

theorem strchr_append (h : c ∉ l) (r : List Byte) :
    strchr c (l ++ r) = (strchr c r).map (· + l.length) := by
  induction l with
  | nil => simp
  | cons b l ih =>
    rw [List.mem_cons, not_or] at h
    rw [List.cons_append, strchr, if_neg (Ne.symm h.1), ih h.2, Option.map_map]
    exact Option.map_congr fun n _ => by simp [Nat.add_assoc]

theorem strchr_self (c : Byte) (r : List Byte) : strchr c (c :: r) = some 0 := if_pos rfl

theorem strchr_of_not_mem (h : c ∉ l) : strchr c l = none := by
  have happend := strchr_append h []
  rwa [List.append_nil] at happend

end Scan
