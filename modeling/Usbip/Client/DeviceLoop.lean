import Usbip.Wire.Pdu
import Usbip.Wire.Stream

/-!
# Replies read by the user-space client

The body of `device_loop` for one reply of the stub. The loop decides from its own URB, from
the status and from the direction field of the reply whether a payload follows; the stub has
decided from its pipe and `actual_length` alone.

The two agree exactly under `ExpectsPayload` (`reply_consumed_exactly`), and then every header
is read at the start of a PDU (`replies_framed`). They disagree on a reply with data and an
error status, on a reply after which an error has been recorded in the work of the loop, and on
a reply with data that matches no URB: the loop would drop its payload when the direction field
says `USBIP_DIR_IN` (`unmatched_reply_dropped`), but the stub leaves that field zero.
-/

namespace Usbip.Client

open Framing Wire

/-- What `device_loop` reads of a `urb_t`. -/
structure UrbT where
  seqnum : BitVec 32
  direction : BitVec 32
  work : Bool
  deriving DecidableEq

/-- What one round of `device_loop` consults besides the stream: the URBs of the device that
wait for a reply, and `ret` of the work that runs the loop. libuv does not say what it does with
a buffer of no bytes; `emptyRead` tells whether it reports success. -/
structure DeviceEnv where
  urbList : List UrbT
  ret : ℤ
  emptyRead : Bool

/-- How a round of `device_loop` ends. -/
inductive LoopResult
  /-- `work_done` of the URB; the status is non-zero if `UV_EIO` has been recorded -/
  | urbDone (urb : UrbT) (status : BitVec 32)
  /-- no URB was found, the next header is read -/
  | dropped
  /-- `WORK_EXIT` -/
  | exit
  /-- `WORK_ABORT` -/
  | abort
  deriving DecidableEq

/-- After these no further header is read. -/
def LoopResult.stop : LoopResult → Bool
  | .exit | .abort => true
  | _ => false

namespace DeviceEnv

/-- `device_find_urb`. -/
def deviceFindUrb (env : DeviceEnv) (seqnum : BitVec 32) : Option UrbT :=
  env.urbList.find? fun urb => urb.work && urb.seqnum == seqnum

/-- `READ_PREPARE_` and `WORK_YIELD` for a payload of `n` bytes: `read_cb` resumes the loop once
the buffer is full. `status` shares its memory with `nread`, so a count with bit 31 set is taken
for an error. -/
def readYield (env : DeviceEnv) (n : ℕ) (stream : List Byte) : Option (Bool × List Byte) :=
  if n = 0 then some (env.emptyRead, stream)
  else (recv n stream).map fun r => (decide (n < 2 ^ 31), r.2)

/-- `sizeof(dev->recv.buf)`. -/
def recvBuf : ℕ := 64 * 1024

/-- The loop that drops a payload, a buffer at a time. -/
def dropRead (n : ℕ) (stream : List Byte) : Option (List Byte) :=
  if n = 0 then some stream
  else (recv (min n recvBuf) stream).bind fun r => dropRead (n - min n recvBuf) r.2
termination_by n
decreasing_by
  have hbuf : 0 < recvBuf := by decide
  omega

/-- The branch of `device_loop` for a RET_SUBMIT. -/
def deviceRetSubmit (env : DeviceEnv) (base : UsbipHeaderBasic) (rpdu : UsbipHeaderRetSubmit)
    (stream : List Byte) : Option (LoopResult × List Byte) :=
  match env.deviceFindUrb base.seqnum with
  | none =>
    if rpdu.status = 0 ∧ base.direction = usbipDirIn then
      (dropRead rpdu.actualLength.toNat stream).map fun rest => (.dropped, rest)
    else some (.dropped, stream)
  | some urb =>
    if rpdu.status ≠ 0 then some (.urbDone urb rpdu.status, stream)
    else if urb.direction = usbipDirIn then
      (env.readYield rpdu.actualLength.toNat stream).map fun r =>
        (if r.1 then .urbDone urb 0 else .abort, r.2)
    else some (.urbDone urb 0, stream)

/-- One round of the loop of `device_loop`. The test of `ret` is that of `WORK_YIELD`. -/
def deviceLoop (env : DeviceEnv) (stream : List Byte) : Option (LoopResult × List Byte) :=
  (recv UsbipHeader.size stream).bind fun r =>
    if env.ret ≠ 0 then some (.exit, r.2)
    else
      match UsbipHeader.decode r.1 with
      | none => some (.abort, r.2)
      | some pdu =>
        match pdu.u with
        | .retSubmit rpdu => env.deviceRetSubmit pdu.base rpdu r.2
        | _ => some (.abort, r.2)

/-- The loop reads a payload for a reply with this number and status. -/
def ExpectsPayload (env : DeviceEnv) (seqnum status : BitVec 32) : Prop :=
  env.ret = 0 ∧ status = 0 ∧
    ∃ urb, env.deviceFindUrb seqnum = some urb ∧ urb.direction = usbipDirIn

variable {env : DeviceEnv}

/-! ### Reading and dropping -/

theorem dropRead_append {n : ℕ} {block rest : List Byte} (h : block.length = n) :
    dropRead n (block ++ rest) = some rest := by
  induction n using Nat.strong_induction_on generalizing block with
  | _ n ih =>
    rw [dropRead]
    split
    next hzero =>
      obtain rfl := List.eq_nil_of_length_eq_zero (h.trans hzero)
      rfl
    next hpos =>
      have hbuf : 0 < recvBuf := by decide
      -- one buffer, then the rest of the block
      have htake : (block.take (min n recvBuf)).length = min n recvBuf := by
        rw [List.length_take, h]
        omega
      have hdrop : (block.drop (min n recvBuf)).length = n - min n recvBuf := by
        rw [List.length_drop, h]
      rw [← List.take_append_drop (min n recvBuf) block, List.append_assoc, recv_append htake]
      exact ih (n - min n recvBuf) (by omega) hdrop

/-- A read of a positive length that leaves `rest` found exactly that many bytes ahead of it. -/
theorem readYield_leaves {n : ℕ} {stream rest : List Byte} {b : Bool} (hpos : 0 < n)
    (h : env.readYield n stream = some (b, rest)) : stream.length = n + rest.length := by
  rw [readYield, if_neg (by omega)] at h
  obtain ⟨r, hr, heq⟩ := Option.map_eq_some_iff.mp h
  unfold recv at hr
  split at hr
  next hlen =>
    obtain rfl := Option.some.inj hr
    obtain rfl : stream.drop n = rest := (Prod.mk.inj heq).2
    rw [List.length_drop]
    omega
  · cases hr

theorem readYield_append {n : ℕ} {block rest : List Byte} (h : block.length = n) :
    ∃ b, env.readYield n (block ++ rest) = some (b, rest) := by
  by_cases hzero : n = 0
  · obtain rfl := List.eq_nil_of_length_eq_zero (h.trans hzero)
    exact ⟨env.emptyRead, by rw [readYield, if_pos hzero, List.nil_append]⟩
  · exact ⟨decide (n < 2 ^ 31), by rw [readYield, if_neg hzero, recv_append h, Option.map_some]⟩

/-! ### One reply -/

/-- A round on a stream that starts with a RET_SUBMIT of the stub. -/
theorem deviceLoop_encode (seqnum : BitVec 64) (urb : Urb) (stream : List Byte) :
    env.deviceLoop ((setupRetSubmitPdu seqnum urb).encode ++ stream) =
      if env.ret ≠ 0 then some (.exit, stream)
      else env.deviceRetSubmit (setupRetSubmitPdu seqnum urb).base (packRetSubmit urb) stream := by
  rw [deviceLoop, recv_append (UsbipHeader.length_encode _), Option.bind_some]
  simp only [UsbipHeader.decode_encode]
  rfl

/-- The stub leaves the direction field zero, so a reply that the loop expects no payload for is
not read beyond its header. -/
theorem deviceLoop_header_only {seqnum : BitVec 64} {urb : Urb} (stream : List Byte)
    (h : ¬ env.ExpectsPayload (seqnum.setWidth 32) urb.status) :
    ∃ r, env.deviceLoop ((setupRetSubmitPdu seqnum urb).encode ++ stream) = some (r, stream) := by
  rw [deviceLoop_encode]
  by_cases hret : env.ret = 0
  · rw [if_neg (not_not.mpr hret), deviceRetSubmit]
    have hdir : ¬ (setupRetSubmitPdu seqnum urb).base.direction = usbipDirIn := by
      simp [setupRetSubmitPdu, usbipDirIn]
    cases hfind : env.deviceFindUrb (setupRetSubmitPdu seqnum urb).base.seqnum with
    | none => exact ⟨.dropped, by simp only [hdir, and_false, if_false]⟩
    | some u =>
      by_cases hstatus : urb.status = 0
      · have hu : ¬ u.direction = usbipDirIn := fun hin => h ⟨hret, hstatus, u, hfind, hin⟩
        have hst : ¬ (packRetSubmit urb).status ≠ 0 := not_not.mpr hstatus
        exact ⟨.urbDone u 0, by simp only [hst, hu, if_false]⟩
      · have hst : (packRetSubmit urb).status ≠ 0 := hstatus
        exact ⟨.urbDone u (packRetSubmit urb).status, by simp only [if_pos hst]⟩
  · exact ⟨.exit, if_pos hret⟩

/-- With a payload expected, the round reads `actual_length` bytes after the header. -/
theorem deviceLoop_payload {seqnum : BitVec 64} {urb : Urb} (stream : List Byte)
    (h : env.ExpectsPayload (seqnum.setWidth 32) urb.status) :
    ∃ u, env.deviceLoop ((setupRetSubmitPdu seqnum urb).encode ++ stream) =
      (env.readYield urb.actualLength.toNat stream).map fun r =>
        (if r.1 then LoopResult.urbDone u 0 else .abort, r.2) := by
  obtain ⟨hret, hstatus, u, hfind, hin⟩ := h
  refine ⟨u, ?_⟩
  have hfind' : env.deviceFindUrb (setupRetSubmitPdu seqnum urb).base.seqnum = some u := hfind
  have hst : ¬ (packRetSubmit urb).status ≠ 0 := not_not.mpr hstatus
  rw [deviceLoop_encode, if_neg (not_not.mpr hret), deviceRetSubmit]
  simp only [hfind', hst, hin, if_false, if_true]
  rfl

/-- The bytes of a reply that is not isochronous. -/
theorem bytes_of_stubSendRetSubmit {allocIov : Bool} {kzalloc : Allocator} {seqnum : BitVec 64}
    {urb : Urb} {pdu : Pdu} (hisoc : urb.isoc = false)
    (h : stubSendRetSubmit allocIov kzalloc seqnum urb = some pdu) :
    ∃ payload, pdu.bytes = (setupRetSubmitPdu seqnum urb).encode ++ payload ∧
      payload.length = if urb.pipe.isIn then urb.actualLength.toNat else 0 := by
  rw [stubSendRetSubmit] at h
  split at h
  · cases h
  obtain ⟨payload, hpayload, h⟩ := Option.bind_eq_some_iff.mp h
  obtain ⟨iso, hiso, rfl⟩ := Option.map_eq_some_iff.mp h
  obtain rfl : iso = [] := by
    refine List.eq_nil_of_length_eq_zero ?_
    rw [(length_isoDescPdu hiso).1, hisoc]
    rfl
  refine ⟨payload, by simp [Pdu.bytes, FixedCodec.encodeAll], ?_⟩
  rw [retSubmitPayload, hisoc] at hpayload
  cases hin : urb.pipe.isIn with
  | false =>
    simp only [hin, Bool.false_and, Bool.false_eq_true, if_false] at hpayload
    cases hpayload
    rfl
  | true =>
    simp only [hin, Bool.true_and, Bool.not_false, decide_eq_true_eq, Bool.and_false,
      Bool.false_eq_true, if_false] at hpayload
    split at hpayload
    · cases hpayload
      simp
    next hzero =>
      cases hpayload
      simp only [List.length_nil, if_true]
      omega

/-- The stub and the loop agree on whether a payload follows the header of this reply. -/
def PayloadAgrees (env : DeviceEnv) (seqnum : BitVec 64) (urb : Urb) : Prop :=
  urb.actualLength = 0 ∨
    (urb.pipe.isIn = true ↔ env.ExpectsPayload (seqnum.setWidth 32) urb.status)

section Reply

variable {allocIov : Bool} {kzalloc : Allocator} {seqnum : BitVec 64} {urb : Urb} {pdu : Pdu}

/-- Where the two agree, the round ends at the end of the reply. -/
theorem deviceLoop_of_agrees (hisoc : urb.isoc = false)
    (hsent : stubSendRetSubmit allocIov kzalloc seqnum urb = some pdu)
    (hagree : env.PayloadAgrees seqnum urb) (rest : List Byte) :
    ∃ r, env.deviceLoop (pdu.bytes ++ rest) = some (r, rest) := by
  obtain ⟨payload, hbytes, hlen⟩ := bytes_of_stubSendRetSubmit hisoc hsent
  rw [hbytes, List.append_assoc]
  by_cases hexp : env.ExpectsPayload (seqnum.setWidth 32) urb.status
  · obtain ⟨u, hloop⟩ := deviceLoop_payload (payload ++ rest) hexp
    have hlen' : payload.length = urb.actualLength.toNat := by
      rcases hagree with h0 | hin
      · rw [hlen, h0]
        split <;> rfl
      · rw [hlen, if_pos (hin.mpr hexp)]
    obtain ⟨b, hread⟩ := @readYield_append env _ _ rest hlen'
    exact ⟨_, by rw [hloop, hread, Option.map_some]⟩
  · obtain ⟨r, hloop⟩ := deviceLoop_header_only (payload ++ rest) hexp
    have hnil : payload = [] := by
      refine List.eq_nil_of_length_eq_zero ?_
      rw [hlen]
      rcases hagree with h0 | hin
      · rw [h0]
        split <;> rfl
      · exact if_neg fun h => hexp (hin.mp h)
    exact ⟨r, by rw [hloop, hnil, List.nil_append]⟩

/-- A round that ends at the end of the reply read as much as was written. -/
theorem agrees_of_deviceLoop (hisoc : urb.isoc = false)
    (hsent : stubSendRetSubmit allocIov kzalloc seqnum urb = some pdu) {rest : List Byte}
    {r : LoopResult} (h : env.deviceLoop (pdu.bytes ++ rest) = some (r, rest)) :
    env.PayloadAgrees seqnum urb := by
  obtain ⟨payload, hbytes, hlen⟩ := bytes_of_stubSendRetSubmit hisoc hsent
  rw [hbytes, List.append_assoc] at h
  by_cases hzero : urb.actualLength.toNat = 0
  · exact Or.inl (BitVec.eq_of_toNat_eq hzero)
  by_cases hexp : env.ExpectsPayload (seqnum.setWidth 32) urb.status
  · obtain ⟨u, hloop⟩ := deviceLoop_payload (payload ++ rest) hexp
    rw [hloop] at h
    obtain ⟨⟨b, rest'⟩, hread, heq⟩ := Option.map_eq_some_iff.mp h
    obtain rfl : rest' = rest := (Prod.mk.inj heq).2
    have hleft := readYield_leaves (by omega) hread
    rw [List.length_append] at hleft
    refine Or.inr ⟨fun _ => hexp, fun _ => ?_⟩
    by_contra hout
    rw [if_neg hout] at hlen
    omega
  · obtain ⟨r', hloop⟩ := deviceLoop_header_only (payload ++ rest) hexp
    rw [hloop] at h
    have hrest : (payload ++ rest).length = rest.length :=
      congrArg List.length (Prod.mk.inj (Option.some.inj h)).2
    rw [List.length_append] at hrest
    refine Or.inr ⟨fun hin => ?_, fun h => absurd h hexp⟩
    rw [if_pos hin] at hlen
    omega

/-- **One reply**: `device_loop` reads exactly what `stub_send_ret_submit` has written for a
URB, if and only if nothing was transferred, or the URB is an IN transfer exactly when the loop
expects a payload. -/
theorem reply_consumed_exactly (hisoc : urb.isoc = false)
    (hsent : stubSendRetSubmit allocIov kzalloc seqnum urb = some pdu) (rest : List Byte) :
    (∃ r, env.deviceLoop (pdu.bytes ++ rest) = some (r, rest)) ↔ env.PayloadAgrees seqnum urb :=
  ⟨fun ⟨_, h⟩ => agrees_of_deviceLoop hisoc hsent h,
    fun h => deviceLoop_of_agrees hisoc hsent h rest⟩

end Reply

/-- A bulk IN reply of two bytes for the URB with number 1. -/
def bulkReply (status : BitVec 32) : Urb := { bulkUrb true with status := status }

/-- The loop waits for a reply to the IN URB with number 1. -/
def waiting : DeviceEnv := ⟨[⟨1, usbipDirIn, true⟩], 0, true⟩

/-- The loop waits for nothing. -/
def forgotten : DeviceEnv := ⟨[], 0, true⟩

/-- What the stub writes for it. -/
def bulkReplyPdu (status : BitVec 32) : Pdu := ⟨setupRetSubmitPdu 1 (bulkReply status), [0, 1], []⟩

theorem reply_consumed_exactly_waiting :
    (∃ r, waiting.deviceLoop ((bulkReplyPdu 0).bytes ++ []) = some (r, [])) ↔
      waiting.PayloadAgrees 1 (bulkReply 0) :=
  @reply_consumed_exactly waiting true plenty _ _ _ rfl rfl []

/-- **The payload of a reply that matches no URB, and that of a reply with an error status, stay
in the stream**, where the next header is read. -/
theorem payload_left_in_stream :
    (stubSendRetSubmit true plenty 1 (bulkReply 0) = some (bulkReplyPdu 0) ∧
      ¬ ∃ r, forgotten.deviceLoop ((bulkReplyPdu 0).bytes ++ []) = some (r, [])) ∧
    (stubSendRetSubmit true plenty 1 (bulkReply (-75)) = some (bulkReplyPdu (-75)) ∧
      ¬ ∃ r, waiting.deviceLoop ((bulkReplyPdu (-75)).bytes ++ []) = some (r, [])) := by
  have hunmatched : (forgotten.deviceLoop ((bulkReplyPdu 0).bytes ++ [])).map (·.2.length) =
      some 2 := by decide
  have herror : (waiting.deviceLoop ((bulkReplyPdu (-75)).bytes ++ [])).map (·.2.length) =
      some 2 := by decide
  refine ⟨⟨rfl, ?_⟩, ⟨rfl, ?_⟩⟩
  · rintro ⟨r, hr⟩
    rw [hr] at hunmatched
    cases hunmatched
  · rintro ⟨r, hr⟩
    rw [hr] at herror
    cases herror

/-! ### The direction field -/

/-- The loop drops the payload of a reply that matches no URB, if the reply says that it has
one. -/
theorem unmatched_reply_dropped {base : UsbipHeaderBasic} {rpdu : UsbipHeaderRetSubmit}
    {payload : List Byte} (hfind : env.deviceFindUrb base.seqnum = none)
    (hstatus : rpdu.status = 0) (hdir : base.direction = usbipDirIn)
    (hlen : payload.length = rpdu.actualLength.toNat) (rest : List Byte) :
    env.deviceRetSubmit base rpdu (payload ++ rest) = some (.dropped, rest) := by
  rw [deviceRetSubmit, hfind]
  simp only [hstatus, hdir, and_self, if_true]
  rw [dropRead_append hlen, Option.map_some]

/-! ### All replies -/

/-- A reply that was handed to the socket. -/
structure SentReply where
  allocIov : Bool
  kzalloc : Allocator
  seqnum : BitVec 64
  urb : Urb
  pdu : Pdu
  not_isoc : urb.isoc = false
  sent : stubSendRetSubmit allocIov kzalloc seqnum urb = some pdu

theorem deviceLoop_nil (env : DeviceEnv) : env.deviceLoop [] = none := rfl

/-- **While the two agree, every header is read at the start of a PDU.** -/
theorem replies_framed {envs : List DeviceEnv} {replies : List SentReply}
    (h : Meets (fun env m => env.PayloadAgrees m.seqnum m.urb) envs replies) :
    Framed (fun m : SentReply => m.pdu.bytes) LoopResult.stop (fun _ _ _ => True) envs replies
      (receive deviceLoop LoopResult.stop envs (stream (fun m => m.pdu.bytes) replies)) := by
  refine receive_framed deviceLoop_nil (fun env m rest hagree => ?_) h
  obtain ⟨r, hr⟩ := deviceLoop_of_agrees m.not_isoc m.sent hagree rest
  exact ⟨r, rest, hr, trivial, Or.inr rfl⟩

end DeviceEnv

end Usbip.Client
