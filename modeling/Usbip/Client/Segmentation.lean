import Usbip.Client.ReadLoop
import Usbip.Lib.Framing
import Mathlib.Data.List.Nodup

/-!
# Replies in segments

What the loop has made of the first `n` bytes of a stream of replies, however these were cut into
read callbacks. `afterBytes` does not run the callbacks: it computes the state from the replies
that are complete (`received`) and the part of the next one (`receiving`). Each callback takes
`afterBytes` of the bytes before to `afterBytes` of the bytes with it (`readCb_afterBytes`), as
long as no IN reply is empty.

An empty payload is a buffer of no bytes. The loop yields for it as for any other, so the URB of
an IN reply with `actual_length` 0 is not finished by the callback that ends its header
(`prompt_iff`).
-/

namespace Usbip.Client

open Framing ListWalk Wire

/-- A well-formed reply without an error, for the URB of a transfer. -/
structure GoodReply where
  urb : Transfer
  pdu : UsbipHeader
  rpdu : UsbipHeaderRetSubmit
  payload : List Byte
  u_eq : pdu.u = .retSubmit rpdu
  status_eq : rpdu.status = 0
  nonneg : 0 ≤ rpdu.actualLength.toInt
  length_eq : payload.length =
    if urb.urb.direction = usbipDirIn then rpdu.actualLength.toNat else 0

namespace GoodReply

variable (r : GoodReply)

def bytes : List Byte := r.pdu.encode ++ r.payload

theorem length_bytes : r.bytes.length = UsbipHeader.size + r.payload.length := by
  rw [bytes, List.length_append, r.pdu.length_encode]

theorem size_le : UsbipHeader.size ≤ r.bytes.length := by
  rw [length_bytes]
  omega

theorem bytes_pos : 0 < r.bytes.length := Nat.lt_of_lt_of_le (by decide) r.size_le

theorem length_in (h : r.urb.urb.direction = usbipDirIn) :
    r.payload.length = r.rpdu.actualLength.toNat := by
  rw [r.length_eq, if_pos h]

theorem payload_out (h : r.urb.urb.direction ≠ usbipDirIn) : r.payload = [] := by
  refine List.eq_nil_of_length_eq_zero ?_
  rw [r.length_eq, if_neg h]

/-- The count is one that `status` does not take for an error. -/
theorem msb_length {n : ℕ} (h : n ≤ r.rpdu.actualLength.toNat) :
    (BitVec.ofNat 32 n).msb = false := by
  have hnonneg := r.nonneg
  have hmsb : r.rpdu.actualLength.msb = false := by
    rw [BitVec.msb_eq_toInt]
    exact decide_eq_false (by omega)
  rw [BitVec.msb_eq_false_iff_two_mul_lt] at hmsb ⊢
  rw [BitVec.toNat_ofNat]
  have hmod := Nat.mod_le n (2 ^ 32)
  omega

/-- An IN reply with `actual_length` 0. -/
def EmptyIn : Prop := r.urb.urb.direction = usbipDirIn ∧ r.rpdu.actualLength = 0

instance : Decidable r.EmptyIn := inferInstanceAs (Decidable (_ ∧ _))

end GoodReply

namespace ReadLoop

/-- `device_find_urb` finds the URB of the reply, and no more was transferred than asked for. -/
def Answers (s : ReadLoop) (r : GoodReply) : Prop :=
  (∃ pre post, s.deviceFindUrb r.pdu.base.seqnum = some (pre, r.urb, post)) ∧
    r.rpdu.actualLength.toInt ≤ s.size r.urb.id

/-- `urb_list` without the URB that has this number. -/
def unlisted (s : ReadLoop) (seqnum : BitVec 32) : List Transfer :=
  match s.deviceFindUrb seqnum with
  | none => s.urbList
  | some (pre, _, post) => pre ++ post

/-- The device once the reply has been received. -/
def received (s : ReadLoop) (r : GoodReply) : ReadLoop :=
  { s with
    urbList := s.unlisted r.pdu.base.seqnum
    pc := .header
    want := UsbipHeader.size
    buf := []
    mem := storeAt s.mem r.urb.id 0 r.payload
    retOf := Function.update s.retOf r.urb.id r.rpdu.actualLength
    finished := s.finished ++ [(r.urb.id, s.workRet r.urb.id)] }

/-- The device after a part of the reply. -/
def receiving (s : ReadLoop) (r : GoodReply) (part : List Byte) : ReadLoop :=
  if part.length < UsbipHeader.size then { s with buf := part }
  else
    { s with
      urbList := s.unlisted r.pdu.base.seqnum
      pc := .payload r.urb r.rpdu.actualLength
      want := r.rpdu.actualLength.toNat
      buf := part.drop UsbipHeader.size
      mem := storeAt s.mem r.urb.id 0 (part.drop UsbipHeader.size) }

/-- The device after the first `n` bytes of the replies. -/
def afterBytes : ReadLoop → List GoodReply → ℕ → ReadLoop
  | s, [], _ => s
  | s, r :: rs, n =>
    if n < r.bytes.length then s.receiving r (r.bytes.take n)
    else afterBytes (s.received r) rs (n - r.bytes.length)

/-- The replies that are complete within the first `n` bytes. -/
def contained : List GoodReply → ℕ → List GoodReply
  | [], _ => []
  | r :: rs, n => if n < r.bytes.length then [] else r :: contained rs (n - r.bytes.length)

/-- Each reply answers a URB that waits when its turn comes. -/
def AnswersAll : ReadLoop → List GoodReply → Prop
  | _, [] => True
  | s, r :: rs => s.Answers r ∧ AnswersAll (s.received r) rs

/-- The loop waits for a header, and nothing has happened to the URBs on the list. -/
structure Ready (s : ReadLoop) : Prop where
  isOpen : s.state = .opening
  pc_eq : s.pc = .header
  want_eq : s.want = UsbipHeader.size
  buf_eq : s.buf = []
  ret_eq : s.ret = none
  result : ∀ u ∈ s.urbList, s.workRet u.id = none
  nodup : (s.urbList.map Transfer.id).Nodup
  clean : ∀ u ∈ s.urbList, ∀ off, s.mem u.id off = none

variable {s : ReadLoop} {r : GoodReply} {rs : List GoodReply}

theorem Inv.ready (h : s.Inv) (hopen : s.state = .opening) (hpc : s.pc = .header)
    (hbuf : s.buf = []) (hret : s.ret = none) : s.Ready := by
  have hnodup := h.owns.drop_current.nodup
  rw [List.append_nil] at hnodup
  exact ⟨hopen, hpc, ((reading_header hpc).mp h.reading).1, hbuf, hret,
    fun u hu => h.owns.result hopen u (List.mem_append_left _ hu), hnodup,
    fun u hu => (h.owns.clean u hu).1⟩

/-! ### One reply -/

theorem Answers.mem (h : s.Answers r) : r.urb ∈ s.urbList := by
  obtain ⟨pre, post, hfind⟩ := h.1
  obtain ⟨hl, -, -⟩ := findSplit_eq_some hfind
  rw [hl]
  simp

/-- The list splits at the URB of the reply. -/
theorem Answers.split (h : s.Answers r) : ∃ pre post, s.urbList = pre ++ r.urb :: post ∧
    s.deviceFindUrb r.pdu.base.seqnum = some (pre, r.urb, post) ∧
      s.unlisted r.pdu.base.seqnum = pre ++ post := by
  obtain ⟨pre, post, hfind⟩ := h.1
  obtain ⟨hl, -, -⟩ := findSplit_eq_some hfind
  refine ⟨pre, post, hl, hfind, ?_⟩
  rw [unlisted, hfind]

theorem Answers.subset (h : s.Answers r) : (s.received r).urbList ⊆ s.urbList := by
  obtain ⟨pre, post, hl, -, hun⟩ := h.split
  have hlist : (s.received r).urbList = pre ++ post := hun
  intro u hu
  rw [hlist] at hu
  rw [hl]
  rcases List.mem_append.mp hu with hu | hu
  · exact List.mem_append_left _ hu
  · exact List.mem_append_right _ (List.mem_cons_of_mem _ hu)

/-- The URBs that still wait are others than that of the reply. -/
theorem Ready.nodup_received (h : s.Ready) (hans : s.Answers r) :
    ((s.received r).urbList.map Transfer.id).Nodup ∧
      ∀ u ∈ (s.received r).urbList, u.id ≠ r.urb.id := by
  obtain ⟨pre, post, hl, -, hun⟩ := hans.split
  have hlist : (s.received r).urbList = pre ++ post := hun
  have hnodup := h.nodup
  rw [hl, List.map_append, List.map_cons, List.nodup_middle, List.nodup_cons,
    ← List.map_append] at hnodup
  rw [hlist]
  exact ⟨hnodup.2, fun u hu heq => hnodup.1 (heq ▸ List.mem_map_of_mem hu)⟩

theorem Ready.received (h : s.Ready) (hans : s.Answers r) : (s.received r).Ready := by
  obtain ⟨hnodup, hne⟩ := h.nodup_received hans
  refine ⟨h.isOpen, rfl, rfl, rfl, h.ret_eq, fun u hu => h.result u (hans.subset hu), hnodup,
    fun u hu off => ?_⟩
  change storeAt s.mem r.urb.id 0 r.payload u.id off = none
  rw [storeAt_of_ne (hne u hu)]
  exact h.clean u (hans.subset hu) off

/-- The header of a good reply: what an OUT URB waits for is complete, an IN URB waits for its
payload. -/
theorem Ready.readCb_header (h : s.Ready) (hans : s.Answers r) {part chunk : List Byte}
    (hbuf : part ++ chunk = r.pdu.encode) :
    { s with buf := part }.readCb chunk =
      if r.urb.urb.direction = usbipDirIn then s.receiving r r.pdu.encode else s.received r := by
  obtain ⟨pre, post, -, hfind, hun⟩ := hans.split
  have hstep := @ReadLoop.readCb_header { s with buf := part } chunk r.pdu r.rpdu h.pc_eq h.want_eq
    h.ret_eq hbuf r.u_eq
  rw [hstep, retSubmit_buf, retSubmit_found hfind]
  rw [replied, if_neg (not_not.mpr r.status_eq)]
  by_cases hin : r.urb.urb.direction = usbipDirIn
  · rw [if_pos hin, if_pos hin]
    rw [receiving, if_neg (by rw [r.pdu.length_encode]; omega), hun,
      List.drop_of_length_le (by rw [r.pdu.length_encode]), storeAt_nil]
    rfl
  · rw [if_neg hin, if_neg hin]
    rw [ReadLoop.received, hun, r.payload_out hin, storeAt_nil]
    rfl

/-- A callback that starts within the header of a reply. -/
theorem Ready.readCb_head (h : s.Ready) (hans : s.Answers r) (hin : ¬ r.EmptyIn)
    {part chunk rest : List Byte} (hbytes : part ++ (chunk ++ rest) = r.bytes)
    (hhead : part.length < UsbipHeader.size) (hroom : chunk.length ≤ (s.receiving r part).room) :
    (s.receiving r part).readCb chunk =
      if (part ++ chunk).length < r.bytes.length then s.receiving r (part ++ chunk)
      else s.received r := by
  have hstate : s.receiving r part = { s with buf := part } := if_pos hhead
  have hroom' : { s with buf := part }.room = UsbipHeader.size - part.length := by
    rw [room, h.want_eq]
  rw [hstate] at hroom ⊢
  by_cases hlt : chunk.length < { s with buf := part }.room
  · -- the header is not complete yet
    have hshort : (part ++ chunk).length < UsbipHeader.size := by
      rw [List.length_append]
      omega
    have hnext : s.receiving r (part ++ chunk) = { s with buf := part ++ chunk } := if_pos hshort
    rw [if_pos (Nat.lt_of_lt_of_le hshort r.size_le), hnext]
    exact readCb_header_of_lt h.pc_eq hlt
  · have hlen : (part ++ chunk).length = UsbipHeader.size := by
      rw [List.length_append]
      omega
    have hbuf : part ++ chunk = r.pdu.encode := by
      rw [← List.append_assoc] at hbytes
      exact (List.append_inj hbytes (hlen.trans r.pdu.length_encode.symm)).1
    rw [h.readCb_header hans hbuf, hlen, hbuf, r.length_bytes]
    by_cases hdir : r.urb.urb.direction = usbipDirIn
    · have hpos : r.payload.length ≠ 0 := by
        rw [r.length_in hdir]
        exact fun hzero => hin ⟨hdir, BitVec.eq_of_toNat_eq hzero⟩
      rw [if_pos hdir, if_pos (by omega)]
    · rw [if_neg hdir, if_neg (by rw [r.payload_out hdir]; simp)]

/-- A callback that starts within the payload of a reply. -/
theorem Ready.readCb_rest (h : s.Ready) {part chunk rest : List Byte}
    (hbytes : part ++ (chunk ++ rest) = r.bytes) (hpart : part.length < r.bytes.length)
    (hhead : ¬ part.length < UsbipHeader.size)
    (hroom : chunk.length ≤ (s.receiving r part).room) :
    (s.receiving r part).readCb chunk =
      if (part ++ chunk).length < r.bytes.length then s.receiving r (part ++ chunk)
      else s.received r := by
  have hstate : s.receiving r part = { s with
      urbList := s.unlisted r.pdu.base.seqnum
      pc := .payload r.urb r.rpdu.actualLength
      want := r.rpdu.actualLength.toNat
      buf := part.drop UsbipHeader.size
      mem := storeAt s.mem r.urb.id 0 (part.drop UsbipHeader.size) } := if_neg hhead
  have hpay : part.drop UsbipHeader.size ++ (chunk ++ rest) = r.payload := by
    have hdrop := congrArg (List.drop UsbipHeader.size) hbytes
    rw [List.drop_append_of_le_length (by omega), GoodReply.bytes,
      List.drop_left' r.pdu.length_encode] at hdrop
    exact hdrop
  have hdir : r.urb.urb.direction = usbipDirIn := by
    by_contra hout
    rw [r.length_bytes, r.payload_out hout, List.length_nil] at hpart
    omega
  have hdropped : (part.drop UsbipHeader.size).length = part.length - UsbipHeader.size :=
    List.length_drop
  have hroom' : (s.receiving r part).room =
      r.rpdu.actualLength.toNat - (part.length - UsbipHeader.size) := by
    rw [hstate, room, hdropped]
  have htotal := r.length_bytes
  rw [r.length_in hdir] at htotal
  -- what was there of the payload, and the callback's own bytes
  have hmem : storeAt (storeAt s.mem r.urb.id 0 (part.drop UsbipHeader.size)) r.urb.id
      (part.drop UsbipHeader.size).length chunk =
        storeAt s.mem r.urb.id 0 (part.drop UsbipHeader.size ++ chunk) := by
    rw [← storeAt_append, Nat.zero_add]
  by_cases hlt : chunk.length < (s.receiving r part).room
  · have hmore : (part ++ chunk).length < r.bytes.length := by
      rw [List.length_append]
      omega
    have hpast : ¬ (part ++ chunk).length < UsbipHeader.size := by
      rw [List.length_append]
      omega
    rw [readCb_of_lt hlt, if_pos hmore, hstate, receiving, if_neg hpast, place,
      List.drop_append_of_le_length (by omega), ← hmem]
  · have hlen : (part ++ chunk).length = r.bytes.length := by
      rw [List.length_append]
      omega
    have hwhole : part.drop UsbipHeader.size ++ chunk = r.payload := by
      have hrest : rest = [] := by
        have hall := congrArg List.length hbytes
        rw [List.length_append, List.length_append] at hall
        rw [List.length_append] at hlen
        exact List.eq_nil_of_length_eq_zero (by omega)
      rw [hrest, List.append_nil] at hpay
      exact hpay
    have hfull : chunk.length = (s.receiving r part).room := by omega
    have hpc : (s.receiving r part).pc = .payload r.urb r.rpdu.actualLength := by rw [hstate]
    have hret : (s.receiving r part).ret = none := by
      rw [hstate]
      exact h.ret_eq
    have hmsb : (BitVec.ofNat 32 ((s.receiving r part).buf ++ chunk).length).msb = false := by
      refine r.msb_length ?_
      rw [hstate, hwhole, r.length_in hdir]
    rw [if_neg (by omega), readCb_payload hpc hret hfull hmsb, hstate, ReadLoop.received, place]
    dsimp only
    rw [hmem, hwhole]
    rfl

/-- **One callback within a reply.** -/
theorem Ready.readCb_receiving (h : s.Ready) (hans : s.Answers r) (hin : ¬ r.EmptyIn)
    {part chunk rest : List Byte} (hbytes : part ++ (chunk ++ rest) = r.bytes)
    (hpart : part.length < r.bytes.length)
    (hroom : chunk.length ≤ (s.receiving r part).room) :
    (s.receiving r part).readCb chunk =
      if (part ++ chunk).length < r.bytes.length then s.receiving r (part ++ chunk)
      else s.received r := by
  by_cases hhead : part.length < UsbipHeader.size
  · exact h.readCb_head hans hin hbytes hhead hroom
  · exact h.readCb_rest hbytes hpart hhead hroom

/-- Within a reply there is room, and for no more than the reply. -/
theorem Ready.room_receiving (h : s.Ready) {part : List Byte}
    (hpart : part.length < r.bytes.length) :
    0 < (s.receiving r part).room ∧
      (s.receiving r part).room ≤ r.bytes.length - part.length := by
  have htotal := r.length_bytes
  unfold receiving room
  by_cases hhead : part.length < UsbipHeader.size
  · rw [if_pos hhead]
    dsimp only
    rw [h.want_eq]
    omega
  · rw [if_neg hhead]
    dsimp only
    rw [List.length_drop]
    by_cases hdir : r.urb.urb.direction = usbipDirIn
    · rw [r.length_in hdir] at htotal
      omega
    · rw [r.payload_out hdir, List.length_nil] at htotal
      omega

theorem receiving_state (s : ReadLoop) (r : GoodReply) (part : List Byte) :
    (s.receiving r part).state = s.state := by
  unfold receiving
  split <;> rfl

/-- A round of `device_loop` on the bytes of the reply finishes its URB, too, and leaves the
rest. -/
theorem Ready.deviceLoop_received (h : s.Ready) (hans : s.Answers r) (hin : ¬ r.EmptyIn)
    (emptyRead : Bool) (rest : List Byte) :
    (s.env emptyRead).deviceLoop (r.bytes ++ rest) = some (.urbDone r.urb.urb 0, rest) := by
  obtain ⟨pre, post, -, hfind, -⟩ := hans.split
  rw [GoodReply.bytes, List.append_assoc, deviceLoop_env h.ret_eq r.u_eq, DeviceEnv.deviceRetSubmit,
    deviceFindUrb_env, hfind, Option.map_some]
  dsimp only
  rw [if_neg (not_not.mpr r.status_eq)]
  by_cases hdir : r.urb.urb.direction = usbipDirIn
  · have hpos : r.rpdu.actualLength.toNat ≠ 0 :=
      fun hzero => hin ⟨hdir, BitVec.eq_of_toNat_eq hzero⟩
    have hlt : r.rpdu.actualLength.toNat < 2 ^ 31 := by
      have hmsb := r.msb_length (le_refl _)
      rw [BitVec.ofNat_toNat, BitVec.setWidth_eq, BitVec.msb_eq_false_iff_two_mul_lt] at hmsb
      omega
    rw [if_pos hdir, DeviceEnv.readYield, if_neg hpos, recv_append (r.length_in hdir),
      Option.map_some, Option.map_some, decide_eq_true hlt, if_pos rfl]
  · rw [if_neg hdir, r.payload_out hdir, List.nil_append]

/-! ### All replies -/

theorem afterBytes_of_lt {n : ℕ} (h : n < r.bytes.length) :
    afterBytes s (r :: rs) n = s.receiving r (r.bytes.take n) := if_pos h

theorem afterBytes_of_le {n : ℕ} (h : r.bytes.length ≤ n) :
    afterBytes s (r :: rs) n = afterBytes (s.received r) rs (n - r.bytes.length) :=
  if_neg (by omega)

theorem afterBytes_zero (h : s.Ready) (rs : List GoodReply) : afterBytes s rs 0 = s := by
  cases rs with
  | nil => rfl
  | cons r rs =>
    rw [afterBytes_of_lt r.bytes_pos, List.take_zero]
    rw [receiving, if_pos (by decide), ← h.buf_eq]

theorem length_stream_cons :
    (stream GoodReply.bytes (r :: rs)).length =
      r.bytes.length + (stream GoodReply.bytes rs).length := by
  rw [stream_cons, List.length_append]

/-- As long as bytes are missing there is room for one. -/
theorem Ready.room_afterBytes (h : s.Ready) (hans : AnswersAll s rs) {n : ℕ}
    (hn : n < (stream GoodReply.bytes rs).length) :
    (afterBytes s rs n).state = .opening ∧ 0 < (afterBytes s rs n).room := by
  induction rs generalizing s n with
  | nil => exact absurd hn (Nat.not_lt_zero _)
  | cons r rs ih =>
    by_cases hlt : n < r.bytes.length
    · have hpart : (r.bytes.take n).length < r.bytes.length := by
        rw [List.length_take]
        omega
      rw [afterBytes_of_lt hlt, receiving_state]
      exact ⟨h.isOpen, (h.room_receiving hpart).1⟩
    · rw [length_stream_cons] at hn
      rw [afterBytes_of_le (by omega)]
      exact ih (h.received hans.1) hans.2 (by omega)

/-- **One callback** takes the state after some bytes to the state after these and its own. -/
theorem Ready.readCb_afterBytes (h : s.Ready) (hans : AnswersAll s rs)
    (hin : ∀ r ∈ rs, ¬ r.EmptyIn) {n : ℕ} {chunk rest : List Byte}
    (hchunk : (stream GoodReply.bytes rs).drop n = chunk ++ rest)
    (hn : n ≤ (stream GoodReply.bytes rs).length)
    (hroom : chunk.length ≤ (afterBytes s rs n).room) :
    (afterBytes s rs n).readCb chunk = afterBytes s rs (n + chunk.length) := by
  induction rs generalizing s n with
  | nil =>
    obtain rfl : chunk = [] := (List.append_eq_nil_iff.mp (hchunk.symm.trans List.drop_nil)).1
    change s.readCb [] = s
    have hlt : ([] : List Byte).length < s.room := by
      rw [room, h.want_eq, h.buf_eq]
      decide
    rw [readCb_of_lt hlt, place_nil]
  | cons r rs ih =>
    by_cases hlt : n < r.bytes.length
    · have htake : (r.bytes.take n).length = n := by
        rw [List.length_take]
        omega
      have hpart : (r.bytes.take n).length < r.bytes.length := by omega
      rw [afterBytes_of_lt hlt] at hroom ⊢
      -- the callback ends within the reply
      have hwithin := Nat.le_trans hroom (h.room_receiving hpart).2
      have hdrop : (r.bytes.drop n).take chunk.length = chunk := by
        rw [stream_cons, List.drop_append_of_le_length (by omega)] at hchunk
        have htake := congrArg (List.take chunk.length) hchunk
        rw [List.take_left' rfl, List.take_append_of_le_length
          (by rw [List.length_drop]; omega)] at htake
        exact htake
      have hbytes : r.bytes.take n ++ (chunk ++ (r.bytes.drop n).drop chunk.length) = r.bytes := by
        conv_rhs => rw [← List.take_append_drop n r.bytes,
          ← List.take_append_drop chunk.length (r.bytes.drop n), hdrop]
      have hmore : r.bytes.take n ++ chunk = r.bytes.take (n + chunk.length) := by
        rw [List.take_add, hdrop]
      rw [h.readCb_receiving hans.1 (hin r (by simp)) hbytes hpart hroom, List.length_append,
        htake]
      by_cases hend : n + chunk.length < r.bytes.length
      · rw [if_pos hend, afterBytes_of_lt hend, hmore]
      · have hexact : n + chunk.length - r.bytes.length = 0 := by omega
        rw [if_neg hend, afterBytes_of_le (by omega), hexact, afterBytes_zero (h.received hans.1)]
    · have hle : r.bytes.length ≤ n := by omega
      rw [stream_cons, List.drop_append, List.drop_eq_nil_of_le hle, List.nil_append] at hchunk
      rw [length_stream_cons] at hn
      rw [afterBytes_of_le hle] at hroom ⊢
      rw [afterBytes_of_le (by omega),
        ih (h.received hans.1) hans.2 (fun q hq => hin q (List.mem_cons_of_mem _ hq)) hchunk
          (by omega) hroom]
      congr 1
      omega

/-! ### Runs -/

/-- The segments in which a part of the stream arrives do not matter. -/
theorem Ready.eq_afterBytes (h : s.Ready) (hans : AnswersAll s rs) (hin : ∀ r ∈ rs, ¬ r.EmptyIn)
    {chunks : List (List Byte)} {n : ℕ} {rest : List Byte} {s' : ReadLoop}
    (hchunks : (stream GoodReply.bytes rs).drop n = chunks.flatten ++ rest)
    (hn : n ≤ (stream GoodReply.bytes rs).length)
    (hrun : readLoop.run (afterBytes s rs n) (chunks.map .read) = some s') :
    s' = afterBytes s rs (n + chunks.flatten.length) := by
  induction chunks generalizing n with
  | nil => exact (Option.some.inj hrun).symm
  | cons chunk chunks ih =>
    obtain ⟨-, hroom, hrun⟩ := run_read hrun
    rw [List.flatten_cons, List.append_assoc] at hchunks
    have hlen := congrArg List.length hchunks
    rw [List.length_drop, List.length_append] at hlen
    rw [h.readCb_afterBytes hans hin hchunks hn hroom] at hrun
    have hrest : (stream GoodReply.bytes rs).drop (n + chunk.length) = chunks.flatten ++ rest := by
      rw [← List.drop_drop, hchunks, List.drop_left' rfl]
    rw [ih hrest (by omega) hrun, List.flatten_cons, List.length_append, Nat.add_assoc]

/-- The stream can be read a byte at a time. -/
theorem Ready.run_bytes (h : s.Ready) (hans : AnswersAll s rs) (hin : ∀ r ∈ rs, ¬ r.EmptyIn)
    {n : ℕ} (hn : n ≤ (stream GoodReply.bytes rs).length) :
    readLoop.run s ((((stream GoodReply.bytes rs).take n).map fun b : Byte => [b]).map .read) =
      some (afterBytes s rs n) := by
  induction n with
  | zero => exact congrArg some (afterBytes_zero h rs).symm
  | succ n ih =>
    obtain ⟨b, hb⟩ : ∃ b, (stream GoodReply.bytes rs)[n]? = some b :=
      ⟨_, List.getElem?_eq_getElem hn⟩
    obtain ⟨hopen, hroom⟩ := h.room_afterBytes hans hn
    have hdrop : (stream GoodReply.bytes rs).drop n =
        [b] ++ (stream GoodReply.bytes rs).drop (n + 1) := by
      obtain ⟨hlt, rfl⟩ := List.getElem?_eq_some_iff.mp hb
      exact List.drop_eq_getElem_cons hlt
    have hstep : readLoop.step (afterBytes s rs n) (.read [b]) =
        some (afterBytes s rs (n + 1)) := by
      refine (if_pos ⟨hopen, hroom⟩).trans ?_
      exact congrArg some (h.readCb_afterBytes hans hin hdrop (by omega) hroom)
    rw [List.take_add_one, hb, Option.toList_some, List.map_append, List.map_append,
      Machine.run_append, ih (by omega), Option.bind_some]
    change (readLoop.step (afterBytes s rs n) (.read [b])).bind _ = _
    rw [hstep]
    rfl

/-! ### What is complete -/

/-- Exactly these replies have been completed since the state `s`: their URBs are finished in
this order and without an error, the payloads are in the buffers and the lengths in `*ret`. -/
structure Completed (s s' : ReadLoop) (rs : List GoodReply) : Prop where
  finished : s'.finished = s.finished ++ rs.map fun r => (r.urb.id, none)
  retOf : ∀ r ∈ rs, s'.retOf r.urb.id = r.rpdu.actualLength
  mem : ∀ r ∈ rs, ∀ off, s'.mem r.urb.id off = r.payload[off]?

/-- The other URBs are left alone. -/
theorem Ready.afterBytes_of_ne (h : s.Ready) (hans : AnswersAll s rs) {id n : ℕ}
    (hne : ∀ u ∈ s.urbList, u.id ≠ id) :
    (afterBytes s rs n).mem id = s.mem id ∧ (afterBytes s rs n).retOf id = s.retOf id := by
  induction rs generalizing s n with
  | nil => exact ⟨rfl, rfl⟩
  | cons r rs ih =>
    have hid : id ≠ r.urb.id := (hne r.urb hans.1.mem).symm
    by_cases hlt : n < r.bytes.length
    · rw [afterBytes_of_lt hlt]
      unfold receiving
      split
      · exact ⟨rfl, rfl⟩
      · exact ⟨storeAt_of_ne hid, rfl⟩
    · obtain ⟨hmem, hretOf⟩ := ih (h.received hans.1) hans.2 fun u hu =>
        hne u (hans.1.subset hu)
      rw [afterBytes_of_le (by omega), hmem, hretOf]
      exact ⟨storeAt_of_ne hid, Function.update_of_ne hid _ _⟩

theorem Ready.completed (h : s.Ready) (hans : AnswersAll s rs) (n : ℕ) :
    s.Completed (afterBytes s rs n) (contained rs n) := by
  induction rs generalizing s n with
  | nil => exact ⟨(List.append_nil _).symm, by simp [contained], by simp [contained]⟩
  | cons r rs ih =>
    by_cases hlt : n < r.bytes.length
    · have hcontained : contained (r :: rs) n = [] := if_pos hlt
      have hfinished : (s.receiving r (r.bytes.take n)).finished = s.finished := by
        unfold receiving
        split <;> rfl
      rw [afterBytes_of_lt hlt, hcontained]
      refine ⟨?_, by simp, by simp⟩
      rw [hfinished, List.map_nil, List.append_nil]
    · have hcontained : contained (r :: rs) n = r :: contained rs (n - r.bytes.length) :=
        if_neg hlt
      have hready := h.received hans.1
      have hrest := ih hready hans.2 (n - r.bytes.length)
      obtain ⟨hmem, hretOf⟩ := @Ready.afterBytes_of_ne _ rs hready hans.2 r.urb.id
        (n - r.bytes.length) (h.nodup_received hans.1).2
      rw [afterBytes_of_le (by omega), hcontained]
      refine ⟨?_, fun q hq => ?_, fun q hq off => ?_⟩
      · rw [hrest.finished, List.map_cons, ← h.result r.urb hans.1.mem]
        exact (List.append_assoc _ _ _)
      · obtain rfl | hq := List.mem_cons.mp hq
        · rw [hretOf]
          exact Function.update_self _ _ _
        · exact hrest.retOf q hq
      · obtain rfl | hq := List.mem_cons.mp hq
        · rw [hmem]
          exact storeAt_zero (h.clean q.urb hans.1.mem)
        · exact hrest.mem q hq off

/-- **Segmentation independence**: every part of the stream can arrive, and however it is cut into
callbacks, exactly the replies that it contains are complete. -/
def Prompt (s : ReadLoop) (rs : List GoodReply) : Prop :=
  ∀ n ≤ (stream GoodReply.bytes rs).length,
    (∃ (chunks : List (List Byte)) (s' : ReadLoop),
      chunks.flatten = (stream GoodReply.bytes rs).take n ∧
        readLoop.run s (chunks.map .read) = some s') ∧
    ∀ (chunks : List (List Byte)) (s' : ReadLoop),
      chunks.flatten = (stream GoodReply.bytes rs).take n →
        readLoop.run s (chunks.map .read) = some s' → s.Completed s' (contained rs n)

theorem flatten_singletons (l : List Byte) : (l.map fun b => [b]).flatten = l := by
  rw [← List.flatMap_def, List.flatMap_singleton']

theorem Ready.prompt (h : s.Ready) (hans : AnswersAll s rs) (hin : ∀ r ∈ rs, ¬ r.EmptyIn) :
    s.Prompt rs := by
  intro n hn
  refine ⟨⟨_, _, flatten_singletons _, h.run_bytes hans hin hn⟩, fun chunks s' hflat hrun => ?_⟩
  have hchunks : (stream GoodReply.bytes rs).drop 0 =
      chunks.flatten ++ (stream GoodReply.bytes rs).drop n := by
    rw [hflat, List.take_append_drop, List.drop_zero]
  rw [← afterBytes_zero h rs] at hrun
  have hlen : 0 + chunks.flatten.length = n := by
    rw [hflat, List.length_take]
    omega
  rw [h.eq_afterBytes hans hin hchunks (Nat.zero_le _) hrun, hlen]
  exact h.completed hans n

/-! ### Empty payloads -/

/-- Answers in two parts. -/
theorem answersAll_append {done later : List GoodReply} :
    AnswersAll s (done ++ later) ↔
      AnswersAll s done ∧ AnswersAll (done.foldl received s) later := by
  induction done generalizing s with
  | nil => exact ⟨fun h => ⟨trivial, h⟩, And.right⟩
  | cons r done ih => exact (and_congr_right fun _ => ih).trans and_assoc.symm

theorem Ready.afterBytes_stream (h : s.Ready) (hans : AnswersAll s rs) :
    (rs.foldl ReadLoop.received s).Ready ∧
      afterBytes s rs (stream GoodReply.bytes rs).length = rs.foldl ReadLoop.received s := by
  induction rs generalizing s with
  | nil => exact ⟨h, rfl⟩
  | cons r rs ih =>
    rw [length_stream_cons, afterBytes_of_le (by omega), Nat.add_sub_cancel_left]
    exact ih (h.received hans.1) hans.2

theorem contained_append {done later : List GoodReply} (n : ℕ) :
    contained (done ++ later) ((stream GoodReply.bytes done).length + n) =
      done ++ contained later n := by
  induction done with
  | nil => rw [List.nil_append, stream_nil, List.length_nil, Nat.zero_add, List.nil_append]
  | cons r done ih =>
    have hsub : r.bytes.length + (stream GoodReply.bytes done).length + n - r.bytes.length =
        (stream GoodReply.bytes done).length + n := by omega
    rw [length_stream_cons, List.cons_append, contained, if_neg (by omega), hsub, ih,
      List.cons_append]

theorem contained_zero (rs : List GoodReply) : contained rs 0 = [] := by
  cases rs with
  | nil => rfl
  | cons r rs => exact if_pos r.bytes_pos

/-- After the last byte of an IN reply without a payload its URB still waits. -/
theorem Ready.emptyIn_waits {done : List GoodReply} (h : s.Ready) (hans : AnswersAll s done)
    (hanswers : (done.foldl ReadLoop.received s).Answers r) (hdone : ∀ q ∈ done, ¬ q.EmptyIn)
    (hempty : r.EmptyIn) : ∃ (chunks : List (List Byte)) (s' : ReadLoop),
      chunks.flatten = stream GoodReply.bytes done ++ r.bytes ∧
        readLoop.run s (chunks.map .read) = some s' ∧
          s'.finished = s.finished ++ done.map fun q => (q.urb.id, none) := by
  obtain ⟨hready, hafter⟩ := h.afterBytes_stream hans
  have hbytes : r.bytes = r.pdu.encode := by
    rw [GoodReply.bytes, List.eq_nil_of_length_eq_zero (l := r.payload), List.append_nil]
    rw [r.length_in hempty.1, hempty.2]
    rfl
  -- the bytes of the replies before it one by one, then its header in one callback
  refine ⟨(stream GoodReply.bytes done).map (fun b => [b]) ++ [r.pdu.encode],
    (done.foldl ReadLoop.received s).receiving r r.pdu.encode, ?_, ?_, ?_⟩
  · rw [List.flatten_append, flatten_singletons, List.flatten_singleton, hbytes]
  · have hfirst := h.run_bytes hans hdone (le_refl _)
    rw [List.take_length, hafter] at hfirst
    have hroom : r.pdu.encode.length ≤ (done.foldl ReadLoop.received s).room := by
      rw [room, hready.want_eq, hready.buf_eq, r.pdu.length_encode]
      exact le_refl _
    have hstep : readLoop.step (done.foldl ReadLoop.received s) (.read r.pdu.encode) =
        some ((done.foldl ReadLoop.received s).receiving r r.pdu.encode) := by
      refine (if_pos ⟨hready.isOpen, hroom⟩).trans (congrArg some ?_)
      have hhead := hready.readCb_header hanswers (List.nil_append r.pdu.encode)
      rw [if_pos hempty.1, ← hready.buf_eq] at hhead
      exact hhead
    rw [List.map_append, Machine.run_append, hfirst, Option.bind_some]
    change (readLoop.step (done.foldl ReadLoop.received s) (.read r.pdu.encode)).bind _ = _
    rw [hstep]
    rfl
  · have hcompleted := (h.completed hans (stream GoodReply.bytes done).length).finished
    have hcontained := @contained_append done [] 0
    rw [Nat.add_zero, List.append_nil, contained_zero, List.append_nil] at hcontained
    rw [hafter, hcontained] at hcompleted
    rw [← hcompleted]
    unfold receiving
    split <;> rfl

/-- **An IN reply without a payload is not finished by its last byte.** -/
theorem Ready.not_prompt {done later : List GoodReply} (h : s.Ready)
    (hans : AnswersAll s (done ++ r :: later)) (hdone : ∀ q ∈ done, ¬ q.EmptyIn)
    (hempty : r.EmptyIn) : ¬ s.Prompt (done ++ r :: later) := by
  intro hprompt
  obtain ⟨hans, hanswers, -⟩ := answersAll_append.mp hans
  obtain ⟨chunks, s', hflat, hrun, hwaits⟩ := h.emptyIn_waits hans hanswers hdone hempty
  have hstream : stream GoodReply.bytes (done ++ r :: later) =
      (stream GoodReply.bytes done ++ r.bytes) ++ stream GoodReply.bytes later := by
    rw [List.append_assoc]
    exact List.flatMap_append
  have hlen : (stream GoodReply.bytes done ++ r.bytes).length ≤
      (stream GoodReply.bytes (done ++ r :: later)).length := by
    rw [hstream]
    exact (List.sublist_append_left _ _).length_le
  have htake : chunks.flatten = (stream GoodReply.bytes (done ++ r :: later)).take
      (stream GoodReply.bytes done ++ r.bytes).length := by
    rw [hstream, List.take_left' rfl, hflat]
  have hfinished := ((hprompt _ hlen).2 chunks s' htake hrun).finished
  rw [List.length_append, contained_append, contained, if_neg (by omega), Nat.sub_self,
    contained_zero, hwaits, List.map_append] at hfinished
  have hcount := congrArg List.length hfinished
  simp only [List.length_append, List.length_map, List.length_singleton] at hcount
  omega

/-- **Segmentation independence of the replies**: from every state in which the loop waits for a
header, a stream of well-formed replies without an error is handled promptly, however it is cut,
if and only if no IN reply in it has `actual_length` 0. -/
theorem prompt_iff (hs : readLoop.Reachable s) (hopen : s.state = .opening)
    (hpc : s.pc = .header) (hbuf : s.buf = []) (hret : s.ret = none) (hans : AnswersAll s rs) :
    s.Prompt rs ↔ ∀ r ∈ rs, r.urb.urb.direction = usbipDirIn → r.rpdu.actualLength ≠ 0 := by
  have hready := (readLoop_inv hs).ready hopen hpc hbuf hret
  constructor
  · intro hprompt r hr hdir hzero
    have hp : decide r.EmptyIn = true := decide_eq_true ⟨hdir, hzero⟩
    -- the first such reply
    obtain ⟨done, q, later, hfind⟩ :=
      @exists_findSplit _ (fun q : GoodReply => decide q.EmptyIn) rs r hr hp
    obtain ⟨rfl, hq, hfirst⟩ := findSplit_eq_some hfind
    exact hready.not_prompt hans (fun q hq => of_decide_eq_false (hfirst q hq))
      (of_decide_eq_true hq) hprompt
  · intro hne
    exact hready.prompt hans fun r hr hempty => hne r hr hempty.1 hempty.2

end ReadLoop

/-- A write of three bytes behind the read of `oneIn`. -/
def inAndOut : ReadLoop := oneIn.transfer usbipDirOut 3

theorem inAndOut_reachable : readLoop.Reachable inAndOut := by
  have hstep : readLoop.step oneIn (.transfer usbipDirOut 3) = some inAndOut := rfl
  exact .next oneIn_reachable trivial hstep

/-- A reply to the read with both bytes. -/
def inReply : GoodReply where
  urb := ⟨0, ⟨0, usbipDirIn, true⟩⟩
  pdu := retSubmitHeader 0 0 2
  rpdu := ⟨0, 2, 0, 0, 0⟩
  payload := [7, 9]
  u_eq := rfl
  status_eq := rfl
  nonneg := by decide
  length_eq := rfl

/-- A reply to the write. -/
def outReply : GoodReply where
  urb := ⟨1, ⟨1, usbipDirOut, true⟩⟩
  pdu := retSubmitHeader 1 0 3
  rpdu := ⟨0, 3, 0, 0, 0⟩
  payload := []
  u_eq := rfl
  status_eq := rfl
  nonneg := by decide
  length_eq := rfl

/-- The write is answered first. -/
theorem prompt_outReply_inReply : inAndOut.Prompt [outReply, inReply] := by
  have hout : inAndOut.Answers outReply :=
    ⟨⟨[⟨0, ⟨0, usbipDirIn, true⟩⟩], [], rfl⟩, by decide⟩
  -- the write is no longer in the list, the read still is
  have hin : (inAndOut.received outReply).Answers inReply := ⟨⟨[], [], rfl⟩, by decide⟩
  have hans : ReadLoop.AnswersAll inAndOut [outReply, inReply] := ⟨hout, hin, trivial⟩
  exact (ReadLoop.prompt_iff inAndOut_reachable rfl rfl rfl rfl hans).mpr (by decide)

/-- A reply to the read without data. -/
def emptyReply : GoodReply where
  urb := ⟨0, ⟨0, usbipDirIn, true⟩⟩
  pdu := retSubmitHeader 0 0 0
  rpdu := ⟨0, 0, 0, 0, 0⟩
  payload := []
  u_eq := rfl
  status_eq := rfl
  nonneg := by decide
  length_eq := rfl

/-- **A short read of no bytes**: all of the reply has arrived, and its URB waits on. -/
theorem emptyReply_not_prompt : readLoop.Reachable oneIn ∧ ReadLoop.AnswersAll oneIn [emptyReply] ∧
    ¬ oneIn.Prompt [emptyReply] := by
  have hans : ReadLoop.AnswersAll oneIn [emptyReply] := ⟨⟨⟨[], [], rfl⟩, by decide⟩, trivial⟩
  have hready := (readLoop_inv oneIn_reachable).ready rfl rfl rfl rfl
  exact ⟨oneIn_reachable, hans, @ReadLoop.Ready.not_prompt oneIn emptyReply [] [] hready hans
    (by simp) ⟨rfl, rfl⟩⟩

end Usbip.Client
