import Mathlib.Data.List.OfFn
import Mathlib.Tactic.Common

/-!
# Fixed-size byte codecs

A `FixedCodec α` writes every value in the same number of bytes and reads it back. It is a
structure whose laws are fields, so a codec assembled from smaller ones (`pair`, `map`) is
correct by construction:

* `u32be`, `u32le`: a 32-bit word, most or least significant byte first;
* `bytes n`: `n` bytes as they are;
* `pair`, `map`, `padTo`: two fields in a row, a record of fields, and a record followed by
  zeros up to a fixed size;
* `encodeAll` and `decodeAll`: an array of records whose length is known from elsewhere.
-/

universe u v

/-- Eight bits. -/
abbrev Byte := BitVec 8

/-- A value of `α` as exactly `size` bytes. -/
structure FixedCodec (α : Type u) where
  size : ℕ
  encode : α → List Byte
  decode : List Byte → α
  length_encode : ∀ a, (encode a).length = size
  decode_encode : ∀ a, decode (encode a) = a

namespace FixedCodec

attribute [simp] length_encode decode_encode

variable {α : Type u} {β : Type v}

/-- Distinct values have distinct encodings. -/
theorem encode_injective (c : FixedCodec α) {a b : α} (h : c.encode a = c.encode b) : a = b := by
  rw [← c.decode_encode a, h, c.decode_encode]

/-- A 32-bit word in network order. -/
def u32be : FixedCodec (BitVec 32) where
  size := 4
  encode n := [n.extractLsb' 24 8, n.extractLsb' 16 8, n.extractLsb' 8 8, n.extractLsb' 0 8]
  decode l := l.getD 0 0 ++ (l.getD 1 0 ++ (l.getD 2 0 ++ l.getD 3 0))
  length_encode _ := rfl
  decode_encode n := by
    have h₀ : n.extractLsb' 8 8 ++ n.extractLsb' 0 8 = n.extractLsb' 0 16 :=
      BitVec.extractLsb'_append_extractLsb'_eq_extractLsb' rfl
    have h₁ : n.extractLsb' 16 8 ++ n.extractLsb' 0 16 = n.extractLsb' 0 24 :=
      BitVec.extractLsb'_append_extractLsb'_eq_extractLsb' rfl
    have h₂ : n.extractLsb' 24 8 ++ n.extractLsb' 0 24 = n.extractLsb' 0 32 :=
      BitVec.extractLsb'_append_extractLsb'_eq_extractLsb' rfl
    change n.extractLsb' 24 8 ++ (n.extractLsb' 16 8 ++ (n.extractLsb' 8 8 ++
      n.extractLsb' 0 8)) = n
    rw [h₀, h₁, h₂, BitVec.extractLsb'_eq_self]

/-- A 32-bit word, least significant byte first. -/
def u32le : FixedCodec (BitVec 32) where
  size := 4
  encode n := (u32be.encode n).reverse
  decode l := u32be.decode (l.take 4).reverse
  length_encode _ := rfl
  decode_encode n := by
    have htake : (u32be.encode n).reverse.take 4 = (u32be.encode n).reverse :=
      List.take_of_length_le (le_of_eq rfl)
    rw [htake, List.reverse_reverse, u32be.decode_encode]

/-- A word is read off the front of the bytes. -/
theorem u32le_decode_append {a b : List Byte} (h : 4 ≤ a.length) :
    u32le.decode (a ++ b) = u32le.decode a := by
  change u32be.decode ((a ++ b).take 4).reverse = u32be.decode (a.take 4).reverse
  rw [List.take_append_of_le_length h]

/-- `n` bytes without any interpretation. -/
def bytes (n : ℕ) : FixedCodec (Fin n → Byte) where
  size := n
  encode := List.ofFn
  decode l := fun i => l.getD i 0
  length_encode _ := List.length_ofFn
  decode_encode f := by
    funext i
    simp

/-- One value after the other. -/
def pair (c : FixedCodec α) (d : FixedCodec β) : FixedCodec (α × β) where
  size := c.size + d.size
  encode p := c.encode p.1 ++ d.encode p.2
  decode l := (c.decode (l.take c.size), d.decode (l.drop c.size))
  length_encode p := by simp
  decode_encode p := by
    have htake : (c.encode p.1 ++ d.encode p.2).take c.size = c.encode p.1 :=
      List.take_left' (c.length_encode p.1)
    have hdrop : (c.encode p.1 ++ d.encode p.2).drop c.size = d.encode p.2 :=
      List.drop_left' (c.length_encode p.1)
    rw [htake, hdrop, c.decode_encode, d.decode_encode]

/-- The same bytes for another presentation of the value. -/
def map (c : FixedCodec α) (f : α → β) (g : β → α) (hfg : ∀ b, f (g b) = b) : FixedCodec β where
  size := c.size
  encode b := c.encode (g b)
  decode l := f (c.decode l)
  length_encode b := c.length_encode (g b)
  decode_encode b := by rw [c.decode_encode, hfg]

/-- A value followed by zeros. -/
def padTo (c : FixedCodec α) (n : ℕ) (h : c.size ≤ n) : FixedCodec α where
  size := n
  encode a := c.encode a ++ List.replicate (n - c.size) 0
  decode l := c.decode (l.take c.size)
  length_encode a := by
    rw [List.length_append, c.length_encode, List.length_replicate]
    omega
  decode_encode a := by rw [List.take_left' (c.length_encode a), c.decode_encode]

/-! ### Arrays -/

/-- An array of records. -/
def encodeAll (c : FixedCodec α) (l : List α) : List Byte := l.flatMap c.encode

/-- The first `n` records of an array. -/
def decodeAll (c : FixedCodec α) : ℕ → List Byte → List α
  | 0, _ => []
  | n + 1, l => c.decode (l.take c.size) :: c.decodeAll n (l.drop c.size)

theorem length_encodeAll (c : FixedCodec α) (l : List α) :
    (c.encodeAll l).length = l.length * c.size := by
  induction l with
  | nil => simp [encodeAll]
  | cons a l ih =>
    rw [encodeAll, List.flatMap_cons, List.length_append, c.length_encode, List.length_cons,
      Nat.succ_mul, ← ih, encodeAll, Nat.add_comm]

theorem length_decodeAll (c : FixedCodec α) (n : ℕ) (l : List Byte) :
    (c.decodeAll n l).length = n := by
  induction n generalizing l with
  | zero => rfl
  | succ n ih => simp [decodeAll, ih]

/-- An array is read back from its bytes. -/
theorem decodeAll_encodeAll (c : FixedCodec α) (l : List α) :
    c.decodeAll l.length (c.encodeAll l) = l := by
  induction l with
  | nil => rfl
  | cons a l ih =>
    rw [encodeAll, List.flatMap_cons, List.length_cons, decodeAll,
      List.take_left' (c.length_encode a), List.drop_left' (c.length_encode a), c.decode_encode]
    exact congrArg (a :: ·) ih

end FixedCodec
