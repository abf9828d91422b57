import Usbip.Ptp.Filter
import Mathlib.Data.List.Forall2

/-!
# PTP containers on a bulk pipe

A bulk pipe carries containers one after the other: a header of 12 bytes, which tells the length
of the container, its type, its code and the identifier of its transaction, and then the rest of
the container. The transfers of the pipe may end anywhere but inside a header.

`cut` divides the data of a transfer into the pieces that belong to different containers, given
how far the transfers before it have come (`Progress`). The identifiers are the only part of the
data that the two ends of a filter may see differently: `retag` writes one identifier into every
header, and `Like` relates data that differ in the identifiers only.
-/

namespace Usbip.Ptp

/-! ### Headers -/

/-- `PTP_USB_CONTAINER_COMMAND` -/
def containerCommand : ℕ := 1

/-- `PTP_USB_CONTAINER_DATA` -/
def containerData : ℕ := 2

/-- `le16_to_cpu(ptpdu->code)` -/
def containerCode : List Byte → ℕ
  | _ :: _ :: _ :: _ :: _ :: _ :: b₆ :: b₇ :: _ => b₆.toNat + 2 ^ 8 * b₇.toNat
  | _ => 0

/-- `ptpdu->trans_id` -/
def containerTransId (data : List Byte) : BitVec 32 := FixedCodec.u32le.decode (data.drop 8)

/-- The data after an assignment to `ptpdu->trans_id`. -/
def setTransId (data : List Byte) (t : BitVec 32) : List Byte :=
  data.take 8 ++ FixedCodec.u32le.encode t ++ data.drop bulkHeaderSize

theorem containerLength_append {a b : List Byte} (h : 4 ≤ a.length) :
    containerLength (a ++ b) = containerLength a := by
  match a with
  | _ :: _ :: _ :: _ :: _ => rfl

theorem containerType_append {a b : List Byte} (h : 6 ≤ a.length) :
    containerType (a ++ b) = containerType a := by
  match a with
  | _ :: _ :: _ :: _ :: _ :: _ :: _ => rfl

theorem containerCode_append {a b : List Byte} (h : 8 ≤ a.length) :
    containerCode (a ++ b) = containerCode a := by
  match a with
  | _ :: _ :: _ :: _ :: _ :: _ :: _ :: _ :: _ => rfl

theorem containerTransId_append {a b : List Byte} (h : bulkHeaderSize ≤ a.length) :
    containerTransId (a ++ b) = containerTransId a := by
  have hsize : bulkHeaderSize = 12 := rfl
  rw [containerTransId, containerTransId, List.drop_append_of_le_length (by omega)]
  refine FixedCodec.u32le_decode_append ?_
  rw [List.length_drop]
  omega

/-- The header of a container that is at least as long as its header. -/
structure Header where
  bytes : List Byte
  length_bytes : bytes.length = bulkHeaderSize
  le_containerLength : bulkHeaderSize ≤ containerLength bytes

namespace Header

variable (h : Header)

/-- The length of the container, its header included. -/
def length : ℕ := containerLength h.bytes

def type : ℕ := containerType h.bytes

def code : ℕ := containerCode h.bytes

def transId : BitVec 32 := containerTransId h.bytes

theorem bytes_eq (t : BitVec 32) :
    Usbip.Ptp.setTransId h.bytes t = h.bytes.take 8 ++ FixedCodec.u32le.encode t := by
  rw [Usbip.Ptp.setTransId, ← h.length_bytes, List.drop_length, List.append_nil]

theorem length_take : (h.bytes.take 8).length = 8 := by
  rw [List.length_take, h.length_bytes]
  rfl

/-- A reader of the first eight bytes does not see the identifier. -/
theorem read_setTransId {α : Type*} {read : List Byte → α}
    (happ : ∀ {a b : List Byte}, 8 ≤ a.length → read (a ++ b) = read a) (t : BitVec 32) :
    read (Usbip.Ptp.setTransId h.bytes t) = read h.bytes := by
  have h8 := h.length_take
  calc read (Usbip.Ptp.setTransId h.bytes t)
      = read (h.bytes.take 8) := by rw [h.bytes_eq, happ h8.ge]
    _ = read (h.bytes.take 8 ++ h.bytes.drop 8) := (happ h8.ge).symm
    _ = read h.bytes := by rw [List.take_append_drop]

theorem containerLength_setTransId (t : BitVec 32) :
    containerLength (Usbip.Ptp.setTransId h.bytes t) = containerLength h.bytes :=
  h.read_setTransId (fun ha => containerLength_append (by omega)) t

/-- The header with another identifier. -/
def setTransId (t : BitVec 32) : Header where
  bytes := Usbip.Ptp.setTransId h.bytes t
  length_bytes := by
    rw [h.bytes_eq, List.length_append, h.length_take]
    rfl
  le_containerLength := by
    rw [h.containerLength_setTransId]
    exact h.le_containerLength

@[simp] theorem length_setTransId (t : BitVec 32) : (h.setTransId t).length = h.length :=
  h.containerLength_setTransId t

@[simp] theorem type_setTransId (t : BitVec 32) : (h.setTransId t).type = h.type :=
  h.read_setTransId (fun ha => containerType_append (by omega)) t

@[simp] theorem setTransId_setTransId (t t' : BitVec 32) :
    (h.setTransId t).setTransId t' = h.setTransId t' := by
  have h8 : (Usbip.Ptp.setTransId h.bytes t).take 8 = h.bytes.take 8 := by
    rw [h.bytes_eq, List.take_left' h.length_take]
  have hbytes : ((h.setTransId t).setTransId t').bytes = (h.setTransId t').bytes := by
    calc ((h.setTransId t).setTransId t').bytes
        = (h.setTransId t).bytes.take 8 ++ FixedCodec.u32le.encode t' := bytes_eq _ t'
      _ = h.bytes.take 8 ++ FixedCodec.u32le.encode t' := congrArg (· ++ _) h8
      _ = (h.setTransId t').bytes := (h.bytes_eq t').symm
  cases hl : (h.setTransId t).setTransId t'
  cases hr : h.setTransId t'
  rw [hl, hr] at hbytes
  cases hbytes
  rfl

end Header

/-! ### Pieces of containers -/

/-- The part of a transfer's data that belongs to one container. -/
inductive Piece
  /-- the container began in an earlier transfer -/
  | more (body : List Byte)
  /-- a container begins -/
  | start (h : Header) (body : List Byte)

def Piece.bytes : Piece → List Byte
  | more body => body
  | start h body => h.bytes ++ body

/-- The data that the pieces make up. -/
def bytesOf (ps : List Piece) : List Byte := ps.flatMap Piece.bytes

@[simp] theorem bytesOf_nil : bytesOf [] = [] := rfl

@[simp] theorem bytesOf_cons (p : Piece) (ps : List Piece) :
    bytesOf (p :: ps) = p.bytes ++ bytesOf ps := List.flatMap_cons

/-- How far a pipe has come: the length and the type of the last container on it, and how many
of its bytes were there. -/
structure Progress where
  total : ℕ
  size : ℕ
  type : ℕ

namespace Progress

/-- No container has begun. -/
def fresh : Progress := ⟨0, 0, 0⟩

/-- The pipe is inside a container. -/
abbrev Inside (pr : Progress) : Prop := pr.size < pr.total

/-- After a piece. -/
def step (pr : Progress) : Piece → Progress
  | .more body => { pr with size := pr.size + body.length }
  | .start h body => ⟨h.length, bulkHeaderSize + body.length, h.type⟩

end Progress

/-- The pieces continue a pipe. A container that ends in a later transfer is the last one of its
transfer, and the counts fit in 32 bits. -/
inductive Cuts : Progress → List Piece → Prop
  | nil (pr : Progress) : Cuts pr []
  | more {pr : Progress} {body : List Byte} {ps : List Piece} (inside : pr.Inside)
      (body_ne : body ≠ []) (le : pr.size + body.length ≤ pr.total)
      (last : pr.size + body.length < pr.total → ps = [])
      (lt : pr.size + (body ++ bytesOf ps).length < 2 ^ 32)
      (next : Cuts (pr.step (.more body)) ps) : Cuts pr (.more body :: ps)
  | start {pr : Progress} {h : Header} {body : List Byte} {ps : List Piece} (done : ¬ pr.Inside)
      (le : bulkHeaderSize + body.length ≤ h.length)
      (last : bulkHeaderSize + body.length < h.length → ps = [])
      (next : Cuts (pr.step (.start h body)) ps) : Cuts pr (.start h body :: ps)

/-- A piece has at least one byte. -/
theorem Cuts.length_le {pr : Progress} {ps : List Piece} (h : Cuts pr ps) :
    ps.length ≤ (bytesOf ps).length := by
  induction h with
  | nil pr => exact le_rfl
  | @more pr body ps _ body_ne _ _ _ _ ih =>
    have hpos := List.length_pos_iff.mpr body_ne
    rw [bytesOf_cons, List.length_append, List.length_cons, Piece.bytes]
    omega
  | @start pr h body ps _ _ _ _ ih =>
    have hpos : 0 < h.bytes.length := by
      rw [h.length_bytes]
      decide
    rw [bytesOf_cons, List.length_append, List.length_cons, Piece.bytes, List.length_append]
    omega

/-- Divide data into pieces, at most `n` of them; `none` when a header is split, when it tells
too small a length, or when the counts overflow. -/
def cutLoop : ℕ → Progress → List Byte → Option (List Piece)
  | _, _, [] => some []
  | 0, _, _ => none
  | n + 1, pr, data =>
    if pr.Inside then
      if pr.size + data.length < 2 ^ 32 then
        let piece := Piece.more (data.take (pr.total - pr.size))
        (cutLoop n (pr.step piece) (data.drop (pr.total - pr.size))).map (piece :: ·)
      else none
    else if h : bulkHeaderSize ≤ data.length ∧
        bulkHeaderSize ≤ containerLength (data.take bulkHeaderSize) then
      let header : Header := ⟨data.take bulkHeaderSize, List.length_take_of_le h.1, h.2⟩
      let piece := Piece.start header ((data.take header.length).drop bulkHeaderSize)
      (cutLoop n (pr.step piece) (data.drop header.length)).map (piece :: ·)
    else none

/-- The first piece of data that is not empty. -/
theorem cutLoop_succ {n : ℕ} {pr : Progress} {data : List Byte} (hne : data ≠ []) :
    cutLoop (n + 1) pr data =
      if pr.Inside then
        if pr.size + data.length < 2 ^ 32 then
          (cutLoop n (pr.step (.more (data.take (pr.total - pr.size))))
            (data.drop (pr.total - pr.size))).map (.more (data.take (pr.total - pr.size)) :: ·)
        else none
      else if h : bulkHeaderSize ≤ data.length ∧
          bulkHeaderSize ≤ containerLength (data.take bulkHeaderSize) then
        let header : Header := ⟨data.take bulkHeaderSize, List.length_take_of_le h.1, h.2⟩
        let piece := Piece.start header ((data.take header.length).drop bulkHeaderSize)
        (cutLoop n (pr.step piece) (data.drop header.length)).map (piece :: ·)
      else none := by
  cases data with
  | nil => exact absurd rfl hne
  | cons b data => rfl

/-- Divide the data of a transfer into pieces; a piece has at least one byte. -/
def Progress.cut (pr : Progress) (data : List Byte) : Option (List Piece) :=
  cutLoop data.length pr data

theorem Piece.length_bytes_start (h : Header) (body : List Byte) :
    (Piece.start h body).bytes.length = bulkHeaderSize + body.length := by
  rw [Piece.bytes, List.length_append, h.length_bytes]

/-- A cut divides the data, and its pieces continue the pipe. -/
theorem cuts_of_cutLoop {n : ℕ} {pr : Progress} {data : List Byte} {ps : List Piece}
    (h : cutLoop n pr data = some ps) : Cuts pr ps ∧ bytesOf ps = data := by
  induction n generalizing pr data ps with
  | zero =>
    cases data with
    | nil =>
      cases h
      exact ⟨.nil pr, rfl⟩
    | cons b data => cases h
  | succ n ih =>
    by_cases hnil : data = []
    · rw [hnil] at h ⊢
      cases h
      exact ⟨.nil pr, rfl⟩
    · have hpos := List.length_pos_iff.mpr hnil
      rw [cutLoop_succ hnil] at h
      split at h
      next hin =>
        obtain ⟨hlt, h⟩ := Option.ite_none_right_eq_some.mp h
        obtain ⟨qs, hqs, rfl⟩ := Option.map_eq_some_iff.mp h
        obtain ⟨hcuts, hbytes⟩ := ih hqs
        have hlen : (data.take (pr.total - pr.size)).length =
            min (pr.total - pr.size) data.length := List.length_take
        have hall : data.take (pr.total - pr.size) ++ bytesOf qs = data := by
          rw [hbytes, List.take_append_drop]
        refine ⟨.more hin (fun hnil => ?_) (by omega) (fun hshort => ?_) (by rwa [hall]) hcuts, ?_⟩
        · rw [hnil, List.length_nil] at hlen
          omega
        · -- the transfer ends inside the container
          have hnil : data.drop (pr.total - pr.size) = [] := List.drop_of_length_le (by omega)
          rw [hnil] at hqs
          cases n <;> exact (Option.some.inj hqs).symm
        · rw [bytesOf_cons, Piece.bytes, hall]
      next hout =>
        obtain ⟨hhead, h⟩ := Option.dite_none_right_eq_some.mp h
        obtain ⟨qs, hqs, rfl⟩ := Option.map_eq_some_iff.mp h
        obtain ⟨hcuts, hbytes⟩ := ih hqs
        set header : Header :=
          ⟨data.take bulkHeaderSize, List.length_take_of_le hhead.1, hhead.2⟩ with hheader
        have hle : bulkHeaderSize ≤ header.length := header.le_containerLength
        have hlen : ((data.take header.length).drop bulkHeaderSize).length =
            min header.length data.length - bulkHeaderSize := by
          rw [List.length_drop, List.length_take]
        have hhead : header.bytes ++ (data.take header.length).drop bulkHeaderSize =
            data.take header.length := by
          have htake : header.bytes = (data.take header.length).take bulkHeaderSize := by
            rw [List.take_take, min_eq_left hle]
          rw [htake, List.take_append_drop]
        refine ⟨.start hout (by omega) (fun hshort => ?_) hcuts, ?_⟩
        · have hnil : data.drop header.length = [] := List.drop_of_length_le (by omega)
          rw [hnil] at hqs
          cases n <;> exact (Option.some.inj hqs).symm
        · rw [bytesOf_cons, Piece.bytes, hhead, hbytes, List.take_append_drop]

/-- Pieces that continue the pipe are what their data is cut into. -/
theorem cutLoop_of_cuts {n : ℕ} {pr : Progress} {ps : List Piece} (h : Cuts pr ps)
    (hn : (bytesOf ps).length ≤ n) : cutLoop n pr (bytesOf ps) = some ps := by
  induction h generalizing n with
  | nil pr => cases n <;> rfl
  | @more pr body ps inside body_ne le last lt next ih =>
    have hbody := List.length_pos_iff.mpr body_ne
    rw [bytesOf_cons, Piece.bytes, List.length_append] at hn
    obtain ⟨n, rfl⟩ : ∃ m, n = m + 1 := ⟨n - 1, by omega⟩
    have hsplit : (body ++ bytesOf ps).take (pr.total - pr.size) = body ∧
        (body ++ bytesOf ps).drop (pr.total - pr.size) = bytesOf ps := by
      by_cases hshort : pr.size + body.length < pr.total
      · rw [last hshort, bytesOf_nil, List.append_nil]
        exact ⟨List.take_of_length_le (by omega), List.drop_of_length_le (by omega)⟩
      · have hlen : body.length = pr.total - pr.size := by omega
        exact ⟨List.take_left' hlen, List.drop_left' hlen⟩
    have hne : body ++ bytesOf ps ≠ [] := List.append_ne_nil_of_left_ne_nil body_ne _
    rw [bytesOf_cons, Piece.bytes, cutLoop_succ hne, if_pos inside, if_pos lt, hsplit.1, hsplit.2,
      ih (by omega), Option.map_some]
  | @start pr h body ps done le last next ih =>
    have hsize : bulkHeaderSize = 12 := rfl
    rw [bytesOf_cons, List.length_append, Piece.length_bytes_start] at hn
    obtain ⟨n, rfl⟩ : ∃ m, n = m + 1 := ⟨n - 1, by omega⟩
    have hlen : (Piece.start h body).bytes.length = bulkHeaderSize + body.length :=
      Piece.length_bytes_start h body
    have htake : ((Piece.start h body).bytes ++ bytesOf ps).take bulkHeaderSize = h.bytes := by
      rw [Piece.bytes, List.append_assoc, List.take_left' h.length_bytes]
    have hsplit : ((Piece.start h body).bytes ++ bytesOf ps).take h.length =
          (Piece.start h body).bytes ∧
        ((Piece.start h body).bytes ++ bytesOf ps).drop h.length = bytesOf ps := by
      by_cases hshort : bulkHeaderSize + body.length < h.length
      · rw [last hshort, bytesOf_nil, List.append_nil]
        exact ⟨List.take_of_length_le (by omega), List.drop_of_length_le (by omega)⟩
      · have hfull : (Piece.start h body).bytes.length = h.length := by omega
        exact ⟨List.take_left' hfull, List.drop_left' hfull⟩
    have hne : (Piece.start h body).bytes ++ bytesOf ps ≠ [] := by
      refine List.append_ne_nil_of_left_ne_nil (List.length_pos_iff.mp ?_) _
      omega
    have hhead : bulkHeaderSize ≤ ((Piece.start h body).bytes ++ bytesOf ps).length ∧
        bulkHeaderSize ≤ containerLength
          (((Piece.start h body).bytes ++ bytesOf ps).take bulkHeaderSize) := by
      rw [htake, List.length_append]
      exact ⟨by omega, h.le_containerLength⟩
    have heq : (⟨((Piece.start h body).bytes ++ bytesOf ps).take bulkHeaderSize,
        List.length_take_of_le hhead.1, hhead.2⟩ : Header) = h := by
      cases h
      congr
    have hbody : (Piece.start h body).bytes.drop bulkHeaderSize = body :=
      List.drop_left' h.length_bytes
    rw [bytesOf_cons, cutLoop_succ hne, if_neg done, dif_pos hhead]
    simp only [heq, hsplit.1, hsplit.2, hbody]
    rw [ih (by omega), Option.map_some]

theorem cut_eq_some {pr : Progress} {data : List Byte} {ps : List Piece} :
    pr.cut data = some ps ↔ Cuts pr ps ∧ bytesOf ps = data := by
  constructor
  · exact cuts_of_cutLoop
  · rintro ⟨hcuts, rfl⟩
    exact cutLoop_of_cuts hcuts le_rfl

/-- The pipe after a transfer. -/
def Progress.after (pr : Progress) (data : List Byte) : Progress :=
  ((pr.cut data).getD []).foldl Progress.step pr

theorem Progress.after_of_cuts {pr : Progress} {ps : List Piece} (h : Cuts pr ps) :
    pr.after (bytesOf ps) = ps.foldl Progress.step pr := by
  rw [Progress.after, cut_eq_some.mpr ⟨h, rfl⟩, Option.getD_some]

/-! ### Identifiers -/

/-- The piece with another identifier in its header. -/
def Piece.retag (t : BitVec 32) : Piece → Piece
  | .more body => .more body
  | .start h body => .start (h.setTransId t) body

/-- The second piece differs from the first one in the identifier at most. -/
inductive Piece.Like : Piece → Piece → Prop
  | more (body : List Byte) : Like (.more body) (.more body)
  | start (h : Header) (t : BitVec 32) (body : List Byte) :
      Like (.start h body) (.start (h.setTransId t) body)

namespace Piece.Like

variable {p q : Piece}

theorem retag_self (p : Piece) (t : BitVec 32) : p.Like (p.retag t) := by
  cases p with
  | more body => exact .more body
  | start h body => exact .start h t body

theorem retag (h : p.Like q) (t : BitVec 32) : q.retag t = p.retag t := by
  cases h with
  | more body => rfl
  | start h t' body => rw [Piece.retag, Piece.retag, Header.setTransId_setTransId]

theorem length_bytes (h : p.Like q) : q.bytes.length = p.bytes.length := by
  cases h with
  | more body => rfl
  | start h t body => rw [Piece.length_bytes_start, Piece.length_bytes_start]

theorem step (h : p.Like q) (pr : Progress) : pr.step q = pr.step p := by
  cases h with
  | more body => rfl
  | start h t body =>
    rw [Progress.step, Progress.step, Header.length_setTransId, Header.type_setTransId]

end Piece.Like

/-- Data that differ in the identifiers at most, piece by piece. -/
abbrev Like : List Piece → List Piece → Prop := List.Forall₂ Piece.Like

namespace Like

variable {pr : Progress} {ps qs : List Piece}

theorem retag_self (ps : List Piece) (t : BitVec 32) : Like ps (ps.map (Piece.retag t)) := by
  induction ps with
  | nil => exact .nil
  | cons p ps ih => exact .cons (.retag_self p t) ih

theorem map_retag (h : Like ps qs) (t : BitVec 32) :
    qs.map (Piece.retag t) = ps.map (Piece.retag t) := by
  induction h with
  | nil => rfl
  | cons hp _ ih => rw [List.map_cons, List.map_cons, hp.retag, ih]

theorem length_bytesOf (h : Like ps qs) : (bytesOf qs).length = (bytesOf ps).length := by
  induction h with
  | nil => rfl
  | cons hp _ ih =>
    rw [bytesOf_cons, bytesOf_cons, List.length_append, List.length_append, hp.length_bytes, ih]

/-- The first eight bytes of a transfer hold no identifier. -/
theorem take_bytesOf (h : Like ps qs) {n : ℕ} (hn : n ≤ 8) :
    (bytesOf qs).take n = (bytesOf ps).take n := by
  induction h generalizing n with
  | nil => rfl
  | cons hp _ ih =>
    cases hp with
    | more body =>
      rw [bytesOf_cons, bytesOf_cons, List.take_append, List.take_append, ih (by omega)]
    | start h t body =>
      have h8 : n ≤ (h.bytes.take 8).length := by rwa [h.length_take]
      have h12 : n ≤ h.bytes.length := by
        rw [h.length_bytes]
        exact hn.trans (by decide)
      have hset : (h.setTransId t).bytes = h.bytes.take 8 ++ FixedCodec.u32le.encode t :=
        h.bytes_eq t
      rw [bytesOf_cons, bytesOf_cons, Piece.bytes, Piece.bytes, hset, List.append_assoc,
        List.append_assoc, List.append_assoc, List.take_append_of_le_length h8,
        List.take_append_of_le_length h12, List.take_take, min_eq_left hn]

theorem containerCode_bytesOf (h : Like ps qs) (h8 : 8 ≤ (bytesOf ps).length) :
    containerCode (bytesOf qs) = containerCode (bytesOf ps) := by
  have hcode : ∀ {l : List Byte}, 8 ≤ l.length → containerCode l = containerCode (l.take 8) := by
    intro l hl
    have htake : 8 ≤ (l.take 8).length := (List.length_take_of_le hl).ge
    conv_lhs => rw [← List.take_append_drop 8 l]
    exact containerCode_append htake
  rw [hcode h8, hcode (by rwa [h.length_bytesOf]), h.take_bytesOf le_rfl]

theorem foldl_step (h : Like ps qs) : qs.foldl Progress.step pr = ps.foldl Progress.step pr := by
  induction h generalizing pr with
  | nil => rfl
  | cons hp _ ih => rw [List.foldl_cons, List.foldl_cons, hp.step, ih]

theorem eq_nil (h : Like ps qs) (hps : ps = []) : qs = [] := by
  rw [hps] at h
  cases h
  rfl

/-- Both continue the same pipes. -/
theorem cuts (h : Like ps qs) (hc : Cuts pr ps) : Cuts pr qs := by
  induction h generalizing pr with
  | nil => exact .nil pr
  | cons hp hps ih =>
    have hlen := Like.length_bytesOf hps
    cases hc with
    | more inside body_ne le last lt next =>
      cases hp
      refine .more inside body_ne le (fun hshort => eq_nil hps (last hshort)) ?_ (ih next)
      rwa [List.length_append, hlen, ← List.length_append]
    | @start _ hd body _ done le last next =>
      cases hp with
      | start _ t _ =>
        rw [← Header.length_setTransId hd t] at le last
        refine .start done le (fun hshort => eq_nil hps (last hshort)) ?_
        rw [(Piece.Like.start hd t body).step]
        exact ih next

end Like

/-- The data with one identifier in all the headers. -/
def Progress.retag (pr : Progress) (t : BitVec 32) (data : List Byte) : List Byte :=
  match pr.cut data with
  | some ps => bytesOf (ps.map (Piece.retag t))
  | none => data

theorem Progress.retag_of_cuts {pr : Progress} {ps : List Piece} (h : Cuts pr ps) (t : BitVec 32) :
    pr.retag t (bytesOf ps) = bytesOf (ps.map (Piece.retag t)) := by
  rw [Progress.retag, cut_eq_some.mpr ⟨h, rfl⟩]

/-- Data that differ in the identifiers only are the same with one identifier in all headers. -/
theorem Like.retag_eq {pr : Progress} {ps qs : List Piece} (h : Like ps qs) (hc : Cuts pr ps)
    (t : BitVec 32) : pr.retag t (bytesOf qs) = pr.retag t (bytesOf ps) := by
  rw [Progress.retag_of_cuts (h.cuts hc), Progress.retag_of_cuts hc, h.map_retag]

end Usbip.Ptp
