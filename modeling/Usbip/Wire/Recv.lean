import Usbip.Wire.Bounds
import Usbip.Lib.Socket
import Usbip.Event.Handler

/-!
# Reading from the socket

`usbip_recv`, and `usbip_recv_xbuff` and `usbip_recv_iso`, which read the rest of a PDU with it, one
call of `kernel_recvmsg` after the other. `Usbip.Wire.Pdu` reads from a stream that does not end;
here the connection may be cut anywhere, fail, or be closed.

The result of `usbip_recv` is the size that was asked for, or that of the call that gave nothing:
0 when the connection was closed in order, before the first byte or after any other, and the error
code otherwise. What had been read of the part until then is not counted. `usbip_recv_xbuff` makes
`-EPIPE` of it at the client; at the server it hands the result on, and the event that it raises is
then all that tells a closed connection from a payload of no bytes.
-/

namespace Usbip.Wire.Sock

open Socket

/-- `-EINVAL` -/
def einval : ℤ := -22

/-- `-ENOMEM` -/
def enomem : ℤ := -12

/-- `-EPIPE` -/
def epipe : ℤ := -32

/-- `usbip_recv` -/
def usbipRecv (buf : Bool) (size : ℕ) (s : List Outcome) : Received :=
  if !buf || size == 0 then ⟨[], einval, s⟩ else recvLoop 0 size s

/-- What a function that reads a part of a PDU leaves. -/
structure Part where
  ret : ℤ
  events : List Event.EhEvent
  urb : Urb
  bytes : List Byte
  rest : List Outcome

/-- What `usbip_recv_xbuff` returns when `usbip_recv` has not returned the size. -/
def Side.xbuffRet (ret : ℤ) : Side → ℤ
  | .stub => ret
  | .vhci => epipe

/-- `usbip_recv_xbuff`; `buf` says whether the URB has a transfer buffer. -/
def usbipRecvXbuff (side : Side) (buf : Bool) (urb : Urb) (s : List Outcome) : Part :=
  let size := xbuffSize side urb
  if ¬ 0 < size then ⟨0, [], urb, [], s⟩
  else
    let r := usbipRecv buf size.toNat s
    let urb := { urb with transferBuffer := storeMem urb.transferBuffer r.bytes }
    if r.ret ≠ size then ⟨Side.xbuffRet r.ret side, [.errorTcp], urb, r.bytes, r.rest⟩
    else ⟨r.ret, [], urb, r.bytes, r.rest⟩

/-- `usbip_recv_iso` -/
def usbipRecvIso (kzalloc : Allocator) (urb : Urb) (s : List Outcome) : Part :=
  if !urb.isoc then ⟨0, [], urb, [], s⟩
  else if urb.numberOfPackets = 0 then ⟨0, [], urb, [], s⟩
  else
    let size := urb.numberOfPackets * 16
    if !kzalloc.ok (size.signExtend 64).toNat then ⟨enomem, [], urb, [], s⟩
    else
      let r := usbipRecv true size.toNat s
      if r.ret ≠ size.toInt then ⟨epipe, [.errorTcp], urb, r.bytes, r.rest⟩
      else
        let iso := isoCodec.decodeAll urb.packets r.bytes
        let stored := { urb with isoFrameDesc := storeMem urb.isoFrameDesc iso }
        if AddUp iso urb.actualLength then ⟨r.ret, [], stored, r.bytes, r.rest⟩
        else ⟨epipe, [.errorTcp], stored, r.bytes, r.rest⟩

/-! ### `usbip_recv` -/

variable {n : ℕ} {s : List Outcome} {side : Side} {urb : Urb} {kzalloc : Allocator}

theorem usbipRecv_of_pos (hpos : 0 < n) : usbipRecv true n s = recvLoop 0 n s := by
  rw [usbipRecv, if_neg]
  simpa using hpos.ne'

theorem usbipRecv_of_le (hpos : 0 < n) (h : n ≤ (ready s).length) :
    ∃ rest, usbipRecv true n s = ⟨(ready s).take n, n, rest⟩ ∧ Past n s rest := by
  obtain ⟨rest, heq, hrest⟩ := @recvLoop_of_le s 0 n hpos h
  refine ⟨rest, ?_, hrest⟩
  rw [usbipRecv_of_pos hpos, heq, Nat.zero_add]

theorem usbipRecv_of_lt (h : (ready s).length < n) :
    usbipRecv true n s = ⟨ready s, verdict s, afterVerdict s⟩ := by
  rw [usbipRecv_of_pos (by omega), recvLoop_of_lt h]

/-! ### The payload -/

theorem usbipRecvXbuff_of_zero {buf : Bool} (h : (xbuffSize side urb).toNat = 0) :
    usbipRecvXbuff side buf urb s = ⟨0, [], urb, [], s⟩ :=
  if_pos (by omega)

/-- All of the payload arrives. -/
theorem usbipRecvXbuff_of_le (hpos : 0 < (xbuffSize side urb).toNat)
    (h : (xbuffSize side urb).toNat ≤ (ready s).length) :
    ∃ rest, usbipRecvXbuff side true urb s =
        ⟨(xbuffSize side urb).toNat, [],
          { urb with
            transferBuffer :=
              storeMem urb.transferBuffer ((ready s).take (xbuffSize side urb).toNat) },
          (ready s).take (xbuffSize side urb).toNat, rest⟩ ∧
      Past (xbuffSize side urb).toNat s rest := by
  obtain ⟨rest, heq, hrest⟩ := usbipRecv_of_le hpos h
  refine ⟨rest, ?_, hrest⟩
  rw [usbipRecvXbuff]
  dsimp only
  rw [if_neg (by omega), heq, if_neg (by dsimp only; omega)]

/-- There is no payload, or all of it arrives in a buffer. -/
theorem usbipRecvXbuff_whole {buf : Bool} (h : 0 < (xbuffSize side urb).toNat →
      buf = true ∧ (xbuffSize side urb).toNat ≤ (ready s).length) :
    ∃ mem bytes rest, usbipRecvXbuff side buf urb s =
        ⟨(xbuffSize side urb).toNat, [], { urb with transferBuffer := mem }, bytes, rest⟩ ∧
      bytes.length = (xbuffSize side urb).toNat ∧
        ready rest = (ready s).drop (xbuffSize side urb).toNat := by
  obtain hzero | hpos := Nat.eq_zero_or_pos (xbuffSize side urb).toNat
  · refine ⟨urb.transferBuffer, [], s, ?_, hzero.symm, ?_⟩
    · rw [usbipRecvXbuff_of_zero hzero, hzero]
      rfl
    · rw [hzero, List.drop_zero]
  · obtain ⟨rfl, hle⟩ := h hpos
    obtain ⟨rest, heq, hrest⟩ := usbipRecvXbuff_of_le hpos hle
    exact ⟨_, _, rest, heq, List.length_take_of_le hle, hrest.ready⟩

/-- The payload is cut off. -/
theorem usbipRecvXbuff_of_lt (h : (ready s).length < (xbuffSize side urb).toNat) :
    usbipRecvXbuff side true urb s =
      ⟨Side.xbuffRet (verdict s) side, [.errorTcp],
        { urb with transferBuffer := storeMem urb.transferBuffer (ready s) }, ready s,
        afterVerdict s⟩ := by
  have hverdict := verdict_nonpos s
  rw [usbipRecvXbuff]
  dsimp only
  rw [if_neg (by omega), usbipRecv_of_lt h, if_pos (by dsimp only; omega)]

/-! ### The packet descriptors -/

theorem usbipRecvIso_of_none (h : urb.isoc = true → urb.numberOfPackets = 0) :
    usbipRecvIso kzalloc urb s = ⟨0, [], urb, [], s⟩ := by
  rw [usbipRecvIso]
  split
  · rfl
  next hisoc => exact if_pos (h (by simpa using hisoc))

/-- A size for which there is memory is not negative. -/
theorem toInt_of_ok {size : BitVec 32} (h : kzalloc.ok (size.signExtend 64).toNat = true) :
    size.toInt = size.toNat := by
  have hlt := kzalloc.bounded _ h
  refine BitVec.toInt_eq_toNat_of_msb ?_
  by_contra hmsb
  have hmsb : size.msb = true := Bool.of_not_eq_false hmsb
  have hneg : size.toInt < 0 := BitVec.toInt_neg_of_msb_true hmsb
  have hext : (size.signExtend 64).toInt = size.toInt := BitVec.toInt_signExtend_of_le (by decide)
  have := BitVec.toInt_eq_toNat_cond (size.signExtend 64)
  split at this
  · omega
  · omega

/-- How `usbip_recv_iso` ends. -/
inductive IsoRead (kzalloc : Allocator) (urb : Urb) (s : List Outcome) : Part → Prop
  /-- there is nothing to read -/
  | none (h : urb.isoc = true → urb.numberOfPackets = 0) : IsoRead kzalloc urb s ⟨0, [], urb, [], s⟩
  /-- there is no memory, and no event is raised -/
  | noMemory (hisoc : urb.isoc = true) (hnp : urb.numberOfPackets ≠ 0)
      (h : kzalloc.ok ((urb.numberOfPackets * 16).signExtend 64).toNat = false) :
      IsoRead kzalloc urb s ⟨enomem, [], urb, [], s⟩
  | stored (hisoc : urb.isoc = true) (hnp : urb.numberOfPackets ≠ 0)
      (harrive : DescsArrive kzalloc urb.numberOfPackets (ready s))
      (hsum : AddUp (descs urb.numberOfPackets (ready s)) urb.actualLength)
      {bytes : List Byte} (hlen : bytes.length = (urb.numberOfPackets * 16).toNat)
      {rest : List Outcome} (hrest : Past (urb.numberOfPackets * 16).toNat s rest) :
      IsoRead kzalloc urb s
        ⟨(urb.numberOfPackets * 16).toNat, [],
          { urb with
            isoFrameDesc := storeMem urb.isoFrameDesc (descs urb.numberOfPackets (ready s)) },
          bytes, rest⟩
  /-- the descriptors do not arrive, or do not add up -/
  | failed (hisoc : urb.isoc = true) (hnp : urb.numberOfPackets ≠ 0)
      (halloc : kzalloc.ok ((urb.numberOfPackets * 16).signExtend 64).toNat = true)
      (h : ¬ (DescsArrive kzalloc urb.numberOfPackets (ready s) ∧
        AddUp (descs urb.numberOfPackets (ready s)) urb.actualLength))
      {urb' : Urb} {bytes : List Byte} {rest : List Outcome} :
      IsoRead kzalloc urb s ⟨epipe, [.errorTcp], urb', bytes, rest⟩

/-- The descriptors arrive. -/
theorem isoRead_of_arrive (hisoc : urb.isoc = true) (hnp : urb.numberOfPackets ≠ 0)
    (h : DescsArrive kzalloc urb.numberOfPackets (ready s)) :
    IsoRead kzalloc urb s (usbipRecvIso kzalloc urb s) := by
  have hpos : 0 < (urb.numberOfPackets * 16).toNat := by
    by_contra hzero
    exact h.2.1 (BitVec.eq_of_toNat_eq (Nat.eq_zero_of_not_pos hzero))
  obtain ⟨rest, heq, hrest⟩ := usbipRecv_of_le hpos h.2.2
  rw [usbipRecvIso, if_neg (by simp [hisoc]), if_neg hnp]
  dsimp only
  rw [if_neg (by simp only [h.1, Bool.not_true, Bool.false_eq_true, not_false_eq_true]), heq,
    if_neg (by rw [toInt_of_ok h.1]; exact not_not.mpr rfl)]
  split
  next hsum => exact .stored hisoc hnp h hsum (List.length_take_of_le h.2.2) hrest
  next hsum => exact .failed hisoc hnp h.1 fun h => hsum h.2

theorem isoRead (kzalloc : Allocator) (urb : Urb) (s : List Outcome) :
    IsoRead kzalloc urb s (usbipRecvIso kzalloc urb s) := by
  by_cases harrive : urb.isoc = true ∧ urb.numberOfPackets ≠ 0 ∧
      DescsArrive kzalloc urb.numberOfPackets (ready s)
  · exact isoRead_of_arrive harrive.1 harrive.2.1 harrive.2.2
  rw [usbipRecvIso]
  split
  next hisoc => exact .none fun h => by simp [h] at hisoc
  next hisoc =>
  have hisoc : urb.isoc = true := by simpa using hisoc
  split
  next hnp => exact .none fun _ => hnp
  next hnp =>
  dsimp only
  split
  next halloc => exact .noMemory hisoc hnp (Bool.not_eq_true _ ▸ (Bool.not_inj_iff.mp halloc))
  next halloc =>
    have halloc : kzalloc.ok ((urb.numberOfPackets * 16).signExtend 64).toNat = true :=
      Bool.of_not_eq_false fun h => halloc (by rw [h]; rfl)
    have harrive : ¬ DescsArrive kzalloc urb.numberOfPackets (ready s) :=
      fun h => harrive ⟨hisoc, hnp, h⟩
    have hverdict := verdict_nonpos s
    rw [toInt_of_ok halloc, if_pos]
    · exact .failed hisoc hnp halloc fun h => harrive h.1
    by_cases hsize : urb.numberOfPackets * 16 = 0
    · have hret : (usbipRecv true (0 : BitVec 32).toNat s).ret = einval := rfl
      rw [hsize, hret]
      decide
    · have hlt : (ready s).length < (urb.numberOfPackets * 16).toNat := by
        by_contra hle
        exact harrive ⟨halloc, hsize, not_lt.mp hle⟩
      rw [usbipRecv_of_lt hlt]
      dsimp only
      omega

end Usbip.Wire.Sock
