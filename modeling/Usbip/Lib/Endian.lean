import Mathlib.Algebra.Ring.Nat
import Usbip.Lib.Codec

/-!
# Byte order and packed records

A program that sends a record in network order converts each of its fields in place: it reads
the field in the byte order of the host, swaps it if that is not the network's, and stores it
again. `ByteOrder` is the order of the host, `cpuToBe32` and `be32ToCpu` the conversions of a
value, `modify32` the read, convert and store at an offset of a memory block.

A packed record is described twice: by its `Member`s, which the code walks with a running offset
(`walk`), and by its `Field`s with their values, whose bytes in either order are `image`.
`pack_image` and `unpack_image` connect the two: packing turns the host's image of a record into
the image in network order, unpacking turns it back. `read` looks the values up in a memory block,
and `exists_image` says that any bytes are the image of some record.
-/

namespace FixedCodec

/-- A 16-bit word in network order. -/
def u16be : FixedCodec (BitVec 16) where
  size := 2
  encode n := [n.extractLsb' 8 8, n.extractLsb' 0 8]
  decode l := l.getD 0 0 ++ l.getD 1 0
  length_encode _ := rfl
  decode_encode n := by
    have h : n.extractLsb' 8 8 ++ n.extractLsb' 0 8 = n.extractLsb' 0 16 :=
      BitVec.extractLsb'_append_extractLsb'_eq_extractLsb' rfl
    change n.extractLsb' 8 8 ++ n.extractLsb' 0 8 = n
    rw [h, BitVec.extractLsb'_eq_self]

/-- A 16-bit word, least significant byte first. -/
def u16le : FixedCodec (BitVec 16) where
  size := 2
  encode n := (u16be.encode n).reverse
  decode l := u16be.decode (l.take 2).reverse
  length_encode _ := rfl
  decode_encode n := by
    have htake : (u16be.encode n).reverse.take 2 = (u16be.encode n).reverse :=
      List.take_of_length_le (le_of_eq rfl)
    rw [htake, List.reverse_reverse, u16be.decode_encode]

/-- Four bytes are the encoding of the word that they decode to. -/
theorem u32be_encode_append (a b c d : Byte) :
    u32be.encode (a ++ (b ++ (c ++ d))) = [a, b, c, d] := by
  simp only [u32be, List.cons.injEq, and_true]
  refine ⟨BitVec.extractLsb'_append_eq_left, ?_, ?_, ?_⟩
  · rw [BitVec.extractLsb'_append_eq_of_add_le (by decide)]
    exact BitVec.extractLsb'_append_eq_left
  · rw [BitVec.extractLsb'_append_eq_of_add_le (by decide),
      BitVec.extractLsb'_append_eq_of_add_le (by decide)]
    exact BitVec.extractLsb'_append_eq_left
  · rw [BitVec.extractLsb'_append_eq_of_add_le (by decide),
      BitVec.extractLsb'_append_eq_of_add_le (by decide)]
    exact BitVec.extractLsb'_append_eq_right

theorem u16be_encode_append (a b : Byte) : u16be.encode (a ++ b) = [a, b] := by
  simp only [u16be, List.cons.injEq, and_true]
  exact ⟨BitVec.extractLsb'_append_eq_left, BitVec.extractLsb'_append_eq_right⟩

theorem u32be_encode_decode {l : List Byte} (h : l.length = 4) :
    u32be.encode (u32be.decode l) = l :=
  match l, h with
  | [a, b, c, d], _ => u32be_encode_append a b c d

theorem u16be_encode_decode {l : List Byte} (h : l.length = 2) :
    u16be.encode (u16be.decode l) = l :=
  match l, h with
  | [a, b], _ => u16be_encode_append a b

end FixedCodec

/-- The byte order of a machine. -/
inductive ByteOrder
  | little
  | big
  deriving DecidableEq, Repr

namespace ByteOrder

open FixedCodec

/-- A 32-bit word in memory. -/
def host32 : ByteOrder → FixedCodec (BitVec 32)
  | .little => u32le
  | .big => u32be

/-- A 16-bit word in memory. -/
def host16 : ByteOrder → FixedCodec (BitVec 16)
  | .little => u16le
  | .big => u16be

/-- `swab32`. -/
def swab32 (n : BitVec 32) : BitVec 32 :=
  n.extractLsb' 0 8 ++ (n.extractLsb' 8 8 ++ (n.extractLsb' 16 8 ++ n.extractLsb' 24 8))

/-- `swab16`. -/
def swab16 (n : BitVec 16) : BitVec 16 := n.extractLsb' 0 8 ++ n.extractLsb' 8 8

/-- `cpu_to_be32` and `htonl`. -/
def cpuToBe32 (e : ByteOrder) (n : BitVec 32) : BitVec 32 :=
  match e with
  | .little => swab32 n
  | .big => n

/-- `be32_to_cpu` and `ntohl`. -/
def be32ToCpu (e : ByteOrder) (n : BitVec 32) : BitVec 32 :=
  match e with
  | .little => swab32 n
  | .big => n

/-- `cpu_to_be16` and `htons`. -/
def cpuToBe16 (e : ByteOrder) (n : BitVec 16) : BitVec 16 :=
  match e with
  | .little => swab16 n
  | .big => n

/-- `be16_to_cpu` and `ntohs`. -/
def be16ToCpu (e : ByteOrder) (n : BitVec 16) : BitVec 16 :=
  match e with
  | .little => swab16 n
  | .big => n

/-- `cpu_to_le16` and `htole16` -/
def cpuToLe16 (e : ByteOrder) (n : BitVec 16) : BitVec 16 :=
  match e with
  | .little => n
  | .big => swab16 n

/-- `le16_to_cpu` -/
def le16ToCpu (e : ByteOrder) (n : BitVec 16) : BitVec 16 :=
  match e with
  | .little => n
  | .big => swab16 n

variable {e e₁ e₂ : ByteOrder}

/-- Swapping the bytes of a word reverses its encoding. -/
theorem encode_swab32 (n : BitVec 32) : u32be.encode (swab32 n) = (u32be.encode n).reverse := by
  rw [swab32, u32be_encode_append]
  rfl

theorem encode_swab16 (n : BitVec 16) : u16be.encode (swab16 n) = (u16be.encode n).reverse := by
  rw [swab16, u16be_encode_append]
  rfl

/-- What reverses the encoding is undone by doing it again. -/
theorem swab_swab {α : Type} (c : FixedCodec α) {swab : α → α}
    (h : ∀ n, c.encode (swab n) = (c.encode n).reverse) (n : α) : swab (swab n) = n :=
  c.encode_injective (by rw [h, h, List.reverse_reverse])

/-- A converted word lies in memory in network order. -/
@[simp] theorem encode_cpuToBe32 (e : ByteOrder) (n : BitVec 32) :
    e.host32.encode (e.cpuToBe32 n) = u32be.encode n := by
  cases e with
  | little =>
    change (u32be.encode (swab32 n)).reverse = _
    rw [encode_swab32, List.reverse_reverse]
  | big => rfl

@[simp] theorem encode_cpuToBe16 (e : ByteOrder) (n : BitVec 16) :
    e.host16.encode (e.cpuToBe16 n) = u16be.encode n := by
  cases e with
  | little =>
    change (u16be.encode (swab16 n)).reverse = _
    rw [encode_swab16, List.reverse_reverse]
  | big => rfl

/-- A word that came in network order is converted to its value. -/
@[simp] theorem be32ToCpu_decode (e : ByteOrder) (n : BitVec 32) :
    e.be32ToCpu (e.host32.decode (u32be.encode n)) = n := by
  have hdecode : e.host32.decode (u32be.encode n) = e.cpuToBe32 n := by
    rw [← e.encode_cpuToBe32, decode_encode]
  rw [hdecode]
  cases e with
  | little => exact swab_swab u32be encode_swab32 n
  | big => rfl

@[simp] theorem be16ToCpu_decode (e : ByteOrder) (n : BitVec 16) :
    e.be16ToCpu (e.host16.decode (u16be.encode n)) = n := by
  have hdecode : e.host16.decode (u16be.encode n) = e.cpuToBe16 n := by
    rw [← e.encode_cpuToBe16, decode_encode]
  rw [hdecode]
  cases e with
  | little => exact swab_swab u16be encode_swab16 n
  | big => rfl

/-- A word converted for a little-endian device lies in memory least significant byte first. -/
@[simp] theorem encode_cpuToLe16 (e : ByteOrder) (n : BitVec 16) :
    e.host16.encode (e.cpuToLe16 n) = u16le.encode n := by
  cases e with
  | little => rfl
  | big =>
    change u16be.encode (swab16 n) = _
    rw [encode_swab16]
    rfl

@[simp] theorem le16ToCpu_decode (e : ByteOrder) (n : BitVec 16) :
    e.le16ToCpu (e.host16.decode (u16le.encode n)) = n := by
  have hdecode : e.host16.decode (u16le.encode n) = e.cpuToLe16 n := by
    rw [← e.encode_cpuToLe16, decode_encode]
  rw [hdecode]
  cases e with
  | little => rfl
  | big => exact swab_swab u16be encode_swab16 n

/-! ### Fields of a memory block -/

/-- Read a 32-bit field, convert it, store it. -/
def modify32 (e : ByteOrder) (off : ℕ) (f : BitVec 32 → BitVec 32) (m : List Byte) : List Byte :=
  m.take off ++ (e.host32.encode (f (e.host32.decode ((m.drop off).take 4))) ++ m.drop (off + 4))

/-- Read a 16-bit field, convert it, store it. -/
def modify16 (e : ByteOrder) (off : ℕ) (f : BitVec 16 → BitVec 16) (m : List Byte) : List Byte :=
  m.take off ++ (e.host16.encode (f (e.host16.decode ((m.drop off).take 2))) ++ m.drop (off + 2))

/-- The field at an offset is the block that stands there. -/
theorem modify32_append {f : BitVec 32 → BitVec 32} {pre block post : List Byte}
    (h : block.length = 4) :
    e.modify32 pre.length f (pre ++ (block ++ post)) =
      pre ++ (e.host32.encode (f (e.host32.decode block)) ++ post) := by
  rw [modify32, List.take_left, List.drop_left, ← List.drop_drop, List.drop_left,
    List.take_left' h, List.drop_left' h]

theorem modify16_append {f : BitVec 16 → BitVec 16} {pre block post : List Byte}
    (h : block.length = 2) :
    e.modify16 pre.length f (pre ++ (block ++ post)) =
      pre ++ (e.host16.encode (f (e.host16.decode block)) ++ post) := by
  rw [modify16, List.take_left, List.drop_left, ← List.drop_drop, List.drop_left,
    List.take_left' h, List.drop_left' h]

/-- A member of a packed record: a word that is converted, or bytes that are not. -/
inductive Member
  | u32
  | u16
  | raw (size : ℕ)
  deriving DecidableEq, Repr

/-- `sizeof`. -/
def Member.size : Member → ℕ
  | .u32 => 4
  | .u16 => 2
  | .raw n => n

/-- Convert one member in place. -/
def Member.convert (e : ByteOrder) (f32 : BitVec 32 → BitVec 32) (f16 : BitVec 16 → BitVec 16)
    (off : ℕ) (m : List Byte) : Member → List Byte
  | .u32 => e.modify32 off f32 m
  | .u16 => e.modify16 off f16 m
  | .raw _ => m

/-- Convert the members of a record one after the other. -/
def walk (e : ByteOrder) (f32 : BitVec 32 → BitVec 32) (f16 : BitVec 16 → BitVec 16) :
    List Member → ℕ → List Byte → List Byte
  | [], _, m => m
  | x :: xs, off, m => walk e f32 f16 xs (off + x.size) (x.convert e f32 f16 off m)

/-- Convert a record at this offset for sending. -/
def pack (e : ByteOrder) (xs : List Member) (off : ℕ) (m : List Byte) : List Byte :=
  e.walk e.cpuToBe32 e.cpuToBe16 xs off m

/-- Convert a received record at this offset. -/
def unpack (e : ByteOrder) (xs : List Member) (off : ℕ) (m : List Byte) : List Byte :=
  e.walk e.be32ToCpu e.be16ToCpu xs off m

/-- A member with its value. -/
inductive Field
  | u32 (n : BitVec 32)
  | u16 (n : BitVec 16)
  | raw (l : List Byte)
  deriving DecidableEq

/-- What the code knows of a field without its value. -/
def Field.member : Field → Member
  | .u32 _ => .u32
  | .u16 _ => .u16
  | .raw l => .raw l.length

/-- The bytes of a field in memory. -/
def Field.image (e : ByteOrder) : Field → List Byte
  | .u32 n => e.host32.encode n
  | .u16 n => e.host16.encode n
  | .raw l => l

/-- The bytes of a record in memory. -/
def image (e : ByteOrder) (fs : List Field) : List Byte := fs.flatMap (Field.image e)

@[simp] theorem image_nil : e.image [] = [] := rfl

@[simp] theorem image_cons (f : Field) (fs : List Field) :
    e.image (f :: fs) = f.image e ++ e.image fs := rfl

@[simp] theorem host32_size (e : ByteOrder) : e.host32.size = 4 := by
  cases e <;> rfl

@[simp] theorem host16_size (e : ByteOrder) : e.host16.size = 2 := by
  cases e <;> rfl

@[simp] theorem Field.length_image (f : Field) : (f.image e).length = f.member.size := by
  cases f <;> simp [Field.image, Field.member, Member.size]

theorem length_image (fs : List Field) :
    (e.image fs).length = ((fs.map Field.member).map Member.size).sum := by
  induction fs with
  | nil => rfl
  | cons f fs ih => simp [ih]

/-- A walk that takes each word from one order to the other takes the record there. -/
theorem walk_image {f32 : BitVec 32 → BitVec 32} {f16 : BitVec 16 → BitVec 16}
    (h32 : ∀ n, e.host32.encode (f32 (e.host32.decode (e₁.host32.encode n))) = e₂.host32.encode n)
    (h16 : ∀ n, e.host16.encode (f16 (e.host16.decode (e₁.host16.encode n))) = e₂.host16.encode n)
    (fs : List Field) (pre post : List Byte) :
    e.walk f32 f16 (fs.map Field.member) pre.length (pre ++ (e₁.image fs ++ post)) =
      pre ++ (e₂.image fs ++ post) := by
  induction fs generalizing pre with
  | nil => rfl
  | cons f fs ih =>
    have hconvert : f.member.convert e f32 f16 pre.length
        (pre ++ (f.image e₁ ++ (e₁.image fs ++ post))) =
        pre ++ (f.image e₂ ++ (e₁.image fs ++ post)) := by
      cases f with
      | u32 n =>
        have hlen : (e₁.host32.encode n).length = 4 :=
          (e₁.host32.length_encode n).trans (host32_size e₁)
        exact (modify32_append hlen).trans (congrArg (fun l => pre ++ (l ++ _)) (h32 n))
      | u16 n =>
        have hlen : (e₁.host16.encode n).length = 2 :=
          (e₁.host16.length_encode n).trans (host16_size e₁)
        exact (modify16_append hlen).trans (congrArg (fun l => pre ++ (l ++ _)) (h16 n))
      | raw l => rfl
    have hlen : pre.length + f.member.size = (pre ++ f.image e₂).length := by simp
    rw [List.map_cons, walk, image_cons, image_cons, List.append_assoc, hconvert, hlen,
      ← List.append_assoc pre, ih, List.append_assoc, List.append_assoc]

/-- **Packing** puts a record into network order, whatever stands around it. -/
theorem pack_image (fs : List Field) (pre post : List Byte) :
    e.pack (fs.map Field.member) pre.length (pre ++ (e.image fs ++ post)) =
      pre ++ (big.image fs ++ post) :=
  walk_image (fun n => by rw [decode_encode, encode_cpuToBe32]; rfl)
    (fun n => by rw [decode_encode, encode_cpuToBe16]; rfl) fs pre post

/-- **Unpacking** a record in network order gives the host's. -/
theorem unpack_image (fs : List Field) (pre post : List Byte) :
    e.unpack (fs.map Field.member) pre.length (pre ++ (big.image fs ++ post)) =
      pre ++ (e.image fs ++ post) :=
  walk_image (fun n => congrArg _ (be32ToCpu_decode e n))
    (fun n => congrArg _ (be16ToCpu_decode e n)) fs pre post

/-- The value of one member that begins a memory block. -/
def Member.read (e : ByteOrder) (m : List Byte) : Member → Field
  | .u32 => .u32 (e.host32.decode (m.take 4))
  | .u16 => .u16 (e.host16.decode (m.take 2))
  | .raw n => .raw (m.take n)

/-- The values of the members of a record that begins a memory block. -/
def read (e : ByteOrder) : List Member → List Byte → List Field
  | [], _ => []
  | x :: xs, m => x.read e m :: read e xs (m.drop x.size)

/-- A record is read back from its image. -/
theorem read_image (fs : List Field) (post : List Byte) :
    e.read (fs.map Field.member) (e.image fs ++ post) = fs := by
  induction fs with
  | nil => rfl
  | cons f fs ih =>
    have hread : f.member.read e (f.image e ++ (e.image fs ++ post)) = f := by
      have htake : (f.image e ++ (e.image fs ++ post)).take f.member.size = f.image e :=
        List.take_left' f.length_image
      cases f with
      | u32 n => exact congrArg Field.u32 ((congrArg _ htake).trans (decode_encode _ n))
      | u16 n => exact congrArg Field.u16 ((congrArg _ htake).trans (decode_encode _ n))
      | raw l => exact congrArg Field.raw htake
    rw [List.map_cons, read, image_cons, List.append_assoc, hread,
      List.drop_left' f.length_image, ih]

/-- Any bytes are the image in network order of the record that one reads in them. -/
theorem exists_image (xs : List Member) {l : List Byte} (h : (xs.map Member.size).sum ≤ l.length) :
    ∃ fs post, fs.map Field.member = xs ∧ l = big.image fs ++ post := by
  induction xs generalizing l with
  | nil => exact ⟨[], l, rfl, rfl⟩
  | cons x xs ih =>
    rw [List.map_cons, List.sum_cons] at h
    obtain ⟨fs, post, hfs, hl⟩ := ih (l := l.drop x.size) (by rw [List.length_drop]; omega)
    have hlen : (l.take x.size).length = x.size := List.length_take_of_le (by omega)
    obtain ⟨f, hf, himage⟩ : ∃ f : Field, f.member = x ∧ f.image big = l.take x.size := by
      cases x with
      | u32 => exact ⟨.u32 (u32be.decode (l.take 4)), rfl, u32be_encode_decode hlen⟩
      | u16 => exact ⟨.u16 (u16be.decode (l.take 2)), rfl, u16be_encode_decode hlen⟩
      | raw n => exact ⟨.raw (l.take n), congrArg Member.raw hlen, rfl⟩
    refine ⟨f :: fs, post, by rw [List.map_cons, hf, hfs], ?_⟩
    rw [image_cons, himage, List.append_assoc, ← hl, List.take_append_drop]

theorem exists_image_eq (xs : List Member) {l : List Byte}
    (h : l.length = (xs.map Member.size).sum) :
    ∃ fs, fs.map Field.member = xs ∧ l = big.image fs := by
  obtain ⟨fs, post, hfs, hl⟩ := exists_image xs h.ge
  have hlen := congrArg List.length hl
  rw [List.length_append, length_image, hfs, h] at hlen
  obtain rfl : post = [] := List.eq_nil_of_length_eq_zero (Nat.add_left_cancel hlen).symm
  exact ⟨fs, hfs, by rw [hl, List.append_nil]⟩

end ByteOrder
