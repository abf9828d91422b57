import Usbip.Client.Matching

/-!
# The read callbacks of the user-space client

`device_loop` is a coroutine on the event loop: it names a buffer with `READ_PREPARE_`, yields,
and `read_cb` resumes it once the buffer is full. What a callback brings goes straight into that
buffer, which for a payload is the buffer of the caller. The machine `readLoop` has one step for
each callback of a device; `mem` and `retOf` are what its transfers have in their buffers and in
`*ret`, `finished` is the history of `work_done`.

Two errors are kept apart: `ret` of the work that runs the loop, and the result of the work of
each URB.
-/

namespace Usbip.Client

open ListWalk Wire

/-- Codes of libuv that `work->ret` holds; 0 is `none`. -/
inductive UvErr
  | eio
  | ecanceled
  | etimedout
  deriving DecidableEq

/-- `dev->state` while the loop runs and after. -/
inductive DevState
  | opening
  | closing
  | closed
  deriving DecidableEq

/-- Where `device_loop` has yielded. -/
inductive ReadPc
  | header
  /-- so much of the `actual_length` of an unknown reply is still to be dropped -/
  | drop (left : BitVec 32)
  /-- the URB is off `urb_list` and its payload is being received -/
  | payload (u : Transfer) (actualLength : BitVec 32)
  | exited
  deriving DecidableEq

/-- One `device_t` with its loop. `want` and `buf` are the size and the contents of the buffer of
the last `READ_PREPARE_`, `ret` is that of the work of the loop. Of each transfer, `size` is the
length that was passed, `workRet` is `ret` of its work. -/
structure ReadLoop where
  state : DevState
  seqnum : BitVec 32
  nextId : ℕ
  size : ℕ → ℕ
  urbList : List Transfer
  pc : ReadPc
  want : ℕ
  buf : List Byte
  ret : Option UvErr
  mem : ℕ → ℕ → Option Byte
  retOf : ℕ → BitVec 32
  workRet : ℕ → Option UvErr
  finished : List (ℕ × Option UvErr)

/-- A buffer after these bytes have been read into it, from the offset `n` on. -/
def storeAt (mem : ℕ → ℕ → Option Byte) (id n : ℕ) (chunk : List Byte) :
    ℕ → ℕ → Option Byte := fun i off =>
  if i = id ∧ n ≤ off ∧ off < n + chunk.length then chunk[off - n]? else mem i off

namespace ReadLoop

/-- `READ_PREPARE_`. -/
def readPrepare (s : ReadLoop) (pc : ReadPc) (size : ℕ) : ReadLoop :=
  { s with pc := pc, want := size, buf := [] }

/-- The head of the loop. -/
def readHeader (s : ReadLoop) : ReadLoop := s.readPrepare .header UsbipHeader.size

/-- `DEVICE_CLOSE`. -/
def deviceClose (s : ReadLoop) : ReadLoop :=
  { s with state := if s.state = .opening then .closing else s.state }

/-- `WORK_EXIT`: `work_done` drops the last reference to the work of the loop, and its
`wa_destroy` closes the device. -/
def workExit (s : ReadLoop) : ReadLoop := { s.deviceClose with pc := .exited }

/-- `WORK_ABORT`; nobody reads the code it records in the work of the loop. -/
def workAbort (s : ReadLoop) : ReadLoop := s.deviceClose.workExit

/-- `work_done` of the work of a URB. -/
def workDone (s : ReadLoop) (u : Transfer) : ReadLoop :=
  { s with finished := s.finished ++ [(u.id, s.workRet u.id)] }

/-- `*dev->recv.urb->ret = actual_length`. -/
def setRet (s : ReadLoop) (u : Transfer) (actualLength : BitVec 32) : ReadLoop :=
  { s with retOf := Function.update s.retOf u.id actualLength }

/-- `device_find_urb`, as a walk over `urb_list`. -/
def deviceFindUrb (s : ReadLoop) (seqnum : BitVec 32) :
    Option (List Transfer × Transfer × List Transfer) :=
  findSplit (fun u => u.urb.work && u.urb.seqnum == seqnum) s.urbList

/-- The loop that drops a payload, up to its next yield. -/
def dropLoop (s : ReadLoop) (left : BitVec 32) : ReadLoop :=
  if left = 0 then s.readHeader
  else s.readPrepare (.drop left) (min left.toNat DeviceEnv.recvBuf)

/-- A reply for a URB that has been taken off `urb_list`. `WORK_SET_ERR` without a second
argument is about the work of the loop. -/
def replied (s : ReadLoop) (u : Transfer) (rpdu : UsbipHeaderRetSubmit) : ReadLoop :=
  if rpdu.status ≠ 0 then ({ s with ret := s.ret.or (some .eio) }.workDone u).readHeader
  else if u.urb.direction = usbipDirIn then
    s.readPrepare (.payload u rpdu.actualLength) rpdu.actualLength.toNat
  else ((s.setRet u rpdu.actualLength).workDone u).readHeader

/-- The branch of `device_loop` for a RET_SUBMIT, up to its next yield. -/
def retSubmit (s : ReadLoop) (base : UsbipHeaderBasic) (rpdu : UsbipHeaderRetSubmit) : ReadLoop :=
  match s.deviceFindUrb base.seqnum with
  | none =>
    if rpdu.status = 0 ∧ base.direction = usbipDirIn then s.dropLoop rpdu.actualLength
    else s.readHeader
  | some (pre, u, post) => { s with urbList := pre ++ post }.replied u rpdu

/-- `device_loop` from one yield to the next. `status` shares its memory with `nread`. -/
def resume (s : ReadLoop) (status : BitVec 32) : ReadLoop :=
  if s.ret ≠ none then s.workExit
  else if status.msb then s.workAbort
  else
    match s.pc with
    | .header =>
      match UsbipHeader.decode s.buf with
      | none => s.workAbort
      | some pdu =>
        match pdu.u with
        | .retSubmit rpdu => s.retSubmit pdu.base rpdu
        | _ => s.workAbort
    | .drop left => s.dropLoop (left - BitVec.ofNat 32 s.buf.length)
    | .payload u actualLength => ((s.setRet u actualLength).workDone u).readHeader
    | .exited => s

/-- The room that `alloc_cb` offers. -/
def room (s : ReadLoop) : ℕ := s.want - s.buf.length

/-- What a read leaves in memory: only the buffer of a payload is the caller's, the others are
in `dev->recv`. -/
def place (s : ReadLoop) (chunk : List Byte) : ReadLoop :=
  { s with
    buf := s.buf ++ chunk
    mem := match s.pc with
      | .payload u _ => storeAt s.mem u.id s.buf.length chunk
      | _ => s.mem }

/-- `read_cb` without an error. -/
def readCb (s : ReadLoop) (chunk : List Byte) : ReadLoop :=
  if chunk.length < s.room then s.place chunk
  else (s.place chunk).resume (BitVec.ofNat 32 (s.place chunk).buf.length)

/-- The write callback of a transfer puts its URB on `urb_list`. Writes end in the order in which
the numbers were given, so the numbers on the list are those of a counter. -/
def transfer (s : ReadLoop) (direction : BitVec 32) (size : ℕ) : ReadLoop :=
  { s with
    seqnum := s.seqnum + 1
    nextId := s.nextId + 1
    size := Function.update s.size s.nextId size
    retOf := Function.update s.retOf s.nextId (-1)
    workRet := Function.update s.workRet s.nextId none
    urbList := s.urbList ++ [⟨s.nextId, ⟨s.seqnum, direction, true⟩⟩] }

/-- The URB whose payload is being received. -/
def current (s : ReadLoop) : List Transfer :=
  match s.pc with
  | .payload u _ => [u]
  | _ => []

/-- `timedout_cb` and `work_abort_cb` for the work of a transfer. -/
def abort (s : ReadLoop) (id : ℕ) (e : UvErr) : ReadLoop :=
  { s.deviceClose with
    workRet := Function.update s.workRet id ((s.workRet id).or (some e)) }

/-- `socket_close_cb`. -/
def socketCloseCb (s : ReadLoop) : ReadLoop :=
  { s with
    state := .closed
    urbList := []
    ret := s.ret.or (some .ecanceled)
    pc := .exited
    finished := s.finished ++ s.urbList.map fun u =>
      (u.id, (s.workRet u.id).or (some .ecanceled)) }

end ReadLoop

/-- The callbacks of a device. -/
inductive ReadAct
  | transfer (direction : BitVec 32) (size : ℕ)
  | read (chunk : List Byte)
  | readErr
  | abort (id : ℕ) (e : UvErr)
  /-- `device_close_cb` -/
  | close
  | socketClosed
  deriving DecidableEq

/-- One step. libuv reads no more than there is room for, and nothing after `uv_close`. -/
def ReadLoop.step (s : ReadLoop) : ReadAct → Option ReadLoop
  | .transfer direction size =>
    if s.state = .closed then none else some (s.transfer direction size)
  | .read chunk =>
    if s.state = .opening ∧ chunk.length ≤ s.room then some (s.readCb chunk) else none
  | .readErr => if s.state = .opening then some (s.resume (-1)) else none
  | .abort id e =>
    if ∃ u ∈ s.urbList ++ s.current, u.id = id then some (s.abort id e) else none
  | .close => some s.deviceClose
  | .socketClosed => if s.state = .closing then some s.socketCloseCb else none

/-- A device whose loop has just started to read. -/
def readLoop : Machine ReadLoop ReadAct where
  init :=
    { state := .opening, seqnum := 0, nextId := 0, size := fun _ => 0, urbList := [],
      pc := .header, want := UsbipHeader.size, buf := [], ret := none,
      mem := fun _ _ => none, retOf := fun _ => 0, workRet := fun _ => none, finished := [] }
  step := ReadLoop.step

/-! ### What is stored -/

section StoreAt

variable {mem : ℕ → ℕ → Option Byte} {id i n off : ℕ} {chunk chunk' : List Byte}

theorem storeAt_nil : storeAt mem id n [] = mem := by
  funext i off
  refine if_neg fun h => ?_
  have hlt : off < n + 0 := h.2.2
  omega

theorem storeAt_of_ne (h : i ≠ id) : storeAt mem id n chunk i = mem i := by
  funext off
  exact if_neg fun hcond => h hcond.1

/-- A block that comes in two parts. -/
theorem storeAt_append :
    storeAt (storeAt mem id n chunk) id (n + chunk.length) chunk' =
      storeAt mem id n (chunk ++ chunk') := by
  funext i off
  unfold storeAt
  rw [List.length_append]
  by_cases hi : i = id
  · by_cases hlo : n ≤ off
    · by_cases hmid : off < n + chunk.length
      · rw [if_neg (by omega), if_pos ⟨hi, hlo, hmid⟩, if_pos ⟨hi, hlo, by omega⟩,
          List.getElem?_append_left (by omega)]
      · by_cases hhi : off < n + chunk.length + chunk'.length
        · rw [if_pos ⟨hi, by omega, hhi⟩, if_pos ⟨hi, hlo, by omega⟩,
            List.getElem?_append_right (by omega)]
          congr 1
          omega
        · rw [if_neg (by omega), if_neg (by omega), if_neg (by omega)]
    · rw [if_neg (by omega), if_neg (by omega), if_neg (by omega)]
  · rw [if_neg fun h => hi h.1, if_neg fun h => hi h.1, if_neg fun h => hi h.1]

/-- More bytes in a buffer that holds what has been read so far. -/
theorem storeAt_length {buf : List Byte} (h : ∀ off, mem id off = buf[off]?) :
    storeAt mem id buf.length chunk id off = (buf ++ chunk)[off]? := by
  unfold storeAt
  by_cases hlo : buf.length ≤ off
  · rw [List.getElem?_append_right hlo]
    by_cases hhi : off < buf.length + chunk.length
    · rw [if_pos ⟨rfl, hlo, hhi⟩]
    · rw [if_neg (by omega), h, List.getElem?_eq_none hlo, List.getElem?_eq_none (by omega)]
  · rw [if_neg (by omega), h, List.getElem?_append_left (by omega)]

/-- In a buffer that was untouched there is what has been read. -/
theorem storeAt_zero (h : ∀ off, mem id off = none) :
    storeAt mem id 0 chunk id off = chunk[off]? :=
  @storeAt_length mem id off chunk [] h

end StoreAt

namespace ReadLoop

/-! ### The URBs that wait -/

/-- What holds of the URBs on `urb_list` and of `current`, those off the list that are still to be
finished. While the device is open no error has been recorded in their works. -/
structure Owns (s : ReadLoop) (current : List Transfer) : Prop where
  nodup : ((s.urbList ++ current).map Transfer.id).Nodup
  fresh : ∀ u ∈ s.urbList ++ current, u.id < s.nextId
  unused : ∀ id, s.nextId ≤ id → ∀ off, s.mem id off = none
  clean : ∀ u ∈ s.urbList, (∀ off, s.mem u.id off = none) ∧ s.retOf u.id = -1
  result : s.state = .opening → ∀ u ∈ s.urbList ++ current, s.workRet u.id = none

/-- The buffer that the loop waits for has room, or no bytes at all. -/
def Reading (s : ReadLoop) : Prop :=
  match s.pc with
  | .header => s.want = UsbipHeader.size ∧ s.buf.length < s.want
  | .drop left => s.want = min left.toNat DeviceEnv.recvBuf ∧ s.buf.length < s.want
  | .payload u actualLength =>
    s.want = actualLength.toNat ∧ (s.buf.length < s.want ∨ s.want = 0 ∧ s.buf = []) ∧
      s.retOf u.id = -1 ∧ (∀ off, s.mem u.id off = s.buf[off]?) ∧ s.ret = none
  | .exited => s.state ≠ .opening

/-- The invariant of the loop. -/
structure Inv (s : ReadLoop) : Prop where
  owns : s.Owns s.current
  reading : s.Reading

namespace Owns

variable {s : ReadLoop} {current : List Transfer}

/-- Fewer URBs. -/
theorem mono (h : s.Owns current) {l current' : List Transfer}
    (hsub : (l ++ current').Sublist (s.urbList ++ current)) (hl : l ⊆ s.urbList) :
    { s with urbList := l }.Owns current' where
  nodup := (hsub.map Transfer.id).nodup h.nodup
  fresh u hu := h.fresh u (hsub.subset hu)
  unused := h.unused
  clean u hu := h.clean u (hl hu)
  result hopen u hu := h.result hopen u (hsub.subset hu)

theorem deviceClose_state (s : ReadLoop) : s.deviceClose.state ≠ .opening := by
  change (if s.state = .opening then DevState.closing else s.state) ≠ .opening
  split
  · decide
  next h => exact h

theorem deviceClose (h : s.Owns current) : s.deviceClose.Owns current :=
  ⟨h.nodup, h.fresh, h.unused, h.clean, fun hopen => absurd hopen (deviceClose_state s)⟩

/-- A URB of the list and the one whose payload is being received are two. -/
theorem id_ne {u v : Transfer} (h : s.Owns current) (hv : v ∈ s.urbList) (hu : u ∈ current) :
    v.id ≠ u.id := by
  have hnodup := h.nodup
  rw [List.map_append, List.nodup_append] at hnodup
  exact hnodup.2.2 v.id (List.mem_map_of_mem hv) u.id (List.mem_map_of_mem hu)

/-- `recv.urb` is let go of. -/
theorem drop_current (h : s.Owns current) : s.Owns [] :=
  h.mono (by rw [List.append_nil]; exact List.sublist_append_left _ _) (List.Subset.refl _)

theorem readHeader (h : s.Owns []) : s.readHeader.Inv :=
  ⟨⟨h.nodup, h.fresh, h.unused, h.clean, h.result⟩, rfl, by
    change 0 < UsbipHeader.size
    decide⟩

theorem workExit (h : s.Owns current) : s.workExit.Inv := by
  have hclose := h.deviceClose.drop_current
  exact ⟨⟨hclose.nodup, hclose.fresh, hclose.unused, hclose.clean, hclose.result⟩,
    deviceClose_state s⟩

theorem workAbort (h : s.Owns current) : s.workAbort.Inv := h.deviceClose.workExit

theorem dropLoop (h : s.Owns []) (left : BitVec 32) : (s.dropLoop left).Inv := by
  unfold ReadLoop.dropLoop
  by_cases hleft : left = 0
  · rw [if_pos hleft]
    exact h.readHeader
  · rw [if_neg hleft]
    refine ⟨⟨h.nodup, h.fresh, h.unused, h.clean, h.result⟩, rfl, ?_⟩
    have hpos : left.toNat ≠ 0 := fun hzero => hleft (BitVec.eq_of_toNat_eq hzero)
    have hbuf : 0 < DeviceEnv.recvBuf := by decide
    change 0 < min left.toNat DeviceEnv.recvBuf
    omega

/-- The URB that is off the list has its `work_done`. -/
theorem completed {u : Transfer} (h : s.Owns [u]) (actualLength : BitVec 32) :
    ((s.setRet u actualLength).workDone u).readHeader.Inv := by
  refine readHeader ⟨h.drop_current.nodup, h.drop_current.fresh, h.unused, fun v hv => ?_,
    h.drop_current.result⟩
  refine ⟨(h.clean v hv).1, ?_⟩
  exact (Function.update_of_ne (h.id_ne hv (by simp)) _ _).trans (h.clean v hv).2

theorem replied {u : Transfer} (h : s.Owns [u]) (hmem : ∀ off, s.mem u.id off = none)
    (hretOf : s.retOf u.id = -1) (hret : s.ret = none) (rpdu : UsbipHeaderRetSubmit) :
    (s.replied u rpdu).Inv := by
  unfold ReadLoop.replied
  by_cases hstatus : rpdu.status ≠ 0
  · rw [if_pos hstatus]
    have hnil := h.drop_current
    exact readHeader ⟨hnil.nodup, hnil.fresh, hnil.unused, hnil.clean, hnil.result⟩
  · rw [if_neg hstatus]
    by_cases hin : u.urb.direction = usbipDirIn
    · rw [if_pos hin]
      refine ⟨⟨h.nodup, h.fresh, h.unused, h.clean, h.result⟩, rfl, ?_, hretOf, hmem, hret⟩
      change 0 < rpdu.actualLength.toNat ∨ rpdu.actualLength.toNat = 0 ∧ _
      exact (Nat.eq_zero_or_pos _).symm.imp_right fun hzero => ⟨hzero, rfl⟩
    · rw [if_neg hin]
      exact h.completed _

theorem retSubmit (h : s.Owns []) (hret : s.ret = none) (base : UsbipHeaderBasic)
    (rpdu : UsbipHeaderRetSubmit) : (s.retSubmit base rpdu).Inv := by
  unfold ReadLoop.retSubmit
  cases hfind : s.deviceFindUrb base.seqnum with
  | none =>
    dsimp only
    by_cases hdrop : rpdu.status = 0 ∧ base.direction = usbipDirIn
    · rw [if_pos hdrop]
      exact h.dropLoop _
    · rw [if_neg hdrop]
      exact h.readHeader
  | some r =>
    obtain ⟨pre, u, post⟩ := r
    obtain ⟨hl, -, -⟩ := findSplit_eq_some hfind
    have hperm : (s.urbList ++ []).Perm ((pre ++ post) ++ [u]) := by
      rw [List.append_nil, hl]
      exact List.perm_middle.trans (List.perm_append_singleton u (pre ++ post)).symm
    have hu : u ∈ s.urbList := by rw [hl]; simp
    have howns : { s with urbList := pre ++ post }.Owns [u] := by
      refine ⟨?_, fun v hv => h.fresh v (hperm.mem_iff.mpr hv), h.unused, fun v hv => ?_,
        fun hopen v hv => h.result hopen v (hperm.mem_iff.mpr hv)⟩
      · exact (hperm.map Transfer.id).nodup_iff.mp h.nodup
      · refine h.clean v ?_
        rw [hl]
        rcases List.mem_append.mp hv with hv | hv
        · exact List.mem_append_left _ hv
        · exact List.mem_append_right _ (List.mem_cons_of_mem _ hv)
    exact howns.replied (h.clean u hu).1 (h.clean u hu).2 hret rpdu

/-- From one yield to the next. -/
theorem resume (h : s.Owns s.current) (hpc : s.pc = .exited → s.state ≠ .opening)
    (status : BitVec 32) : (s.resume status).Inv := by
  unfold ReadLoop.resume
  by_cases hret : s.ret ≠ none
  · -- an earlier error ends the loop
    rw [if_pos hret]
    exact h.workExit
  rw [if_neg hret]
  have hret := not_not.mp hret
  by_cases hmsb : status.msb = true
  · -- a negative status is an error of the socket
    rw [if_pos hmsb]
    exact h.workAbort
  rw [if_neg hmsb]
  unfold current at h
  cases hs : s.pc with
  | header =>
    rw [hs] at h
    dsimp only at h ⊢
    cases UsbipHeader.decode s.buf with
    | none => exact h.workAbort
    | some pdu =>
      dsimp only
      cases pdu.u with
      | retSubmit rpdu => exact h.retSubmit hret pdu.base rpdu
      | cmdSubmit _ => exact h.workAbort
      | cmdUnlink _ => exact h.workAbort
      | retUnlink _ => exact h.workAbort
  | drop left =>
    rw [hs] at h
    exact h.dropLoop _
  | payload u actualLength =>
    rw [hs] at h
    exact h.completed _
  | exited =>
    refine ⟨?_, ?_⟩
    · unfold current
      exact h
    · rw [Reading, hs]
      exact hpc hs

end Owns

/-! ### Reading -/

variable {s : ReadLoop} {chunk : List Byte}

theorem reading_header (hpc : s.pc = .header) :
    s.Reading ↔ s.want = UsbipHeader.size ∧ s.buf.length < s.want := by
  rw [Reading, hpc]

theorem reading_drop {left : BitVec 32} (hpc : s.pc = .drop left) :
    s.Reading ↔ s.want = min left.toNat DeviceEnv.recvBuf ∧ s.buf.length < s.want := by
  rw [Reading, hpc]

theorem reading_payload {u : Transfer} {actualLength : BitVec 32}
    (hpc : s.pc = .payload u actualLength) :
    s.Reading ↔ s.want = actualLength.toNat ∧
      (s.buf.length < s.want ∨ s.want = 0 ∧ s.buf = []) ∧ s.retOf u.id = -1 ∧
        (∀ off, s.mem u.id off = s.buf[off]?) ∧ s.ret = none := by
  rw [Reading, hpc]

theorem reading_exited (hpc : s.pc = .exited) : s.Reading ↔ s.state ≠ .opening := by
  rw [Reading, hpc]

/-- What the loop waits for is not changed by anything else. -/
theorem Reading.frame {t : ReadLoop} (h : s.Reading) (hpc : t.pc = s.pc) (hwant : t.want = s.want)
    (hbuf : t.buf = s.buf) (hret : t.ret = s.ret) (hstate : t.state = .opening → s.state = .opening)
    (hmem : ∀ u ∈ s.current, t.mem u.id = s.mem u.id ∧ t.retOf u.id = s.retOf u.id) :
    t.Reading := by
  unfold current at hmem
  cases hs : s.pc with
  | header =>
    rw [reading_header (hpc.trans hs), hwant, hbuf]
    exact (reading_header hs).mp h
  | drop left =>
    rw [reading_drop (hpc.trans hs), hwant, hbuf]
    exact (reading_drop hs).mp h
  | payload u actualLength =>
    rw [hs] at hmem
    obtain ⟨hu, hretOf⟩ := hmem u (by simp)
    rw [reading_payload (hpc.trans hs), hwant, hbuf, hret, hu, hretOf]
    exact (reading_payload hs).mp h
  | exited =>
    rw [reading_exited (hpc.trans hs)]
    exact fun hopen => (reading_exited hs).mp h (hstate hopen)

theorem place_mem_payload {u : Transfer} {actualLength : BitVec 32}
    (hpc : s.pc = .payload u actualLength) :
    (s.place chunk).mem = storeAt s.mem u.id s.buf.length chunk := by
  rw [place, hpc]

/-- The bytes of a callback go to the URB whose payload is being received, or to none. -/
theorem place_mem_of_ne {id : ℕ} (h : ∀ u ∈ s.current, id ≠ u.id) :
    (s.place chunk).mem id = s.mem id := by
  unfold current at h
  unfold place
  cases hpc : s.pc with
  | payload u actualLength =>
    rw [hpc] at h
    exact storeAt_of_ne (h u (by simp))
  | header => rfl
  | drop left => rfl
  | exited => rfl

theorem Inv.place (h : s.Inv) (chunk : List Byte) :
    (s.place chunk).Owns (s.place chunk).current := by
  have howns := h.owns
  refine ⟨howns.nodup, howns.fresh, fun id hid off => ?_, fun v hv => ?_, howns.result⟩
  · have hle : s.nextId ≤ id := hid
    have hne : ∀ u ∈ s.current, id ≠ u.id := by
      intro u hu
      have hlt := howns.fresh u (List.mem_append_right _ hu)
      omega
    rw [place_mem_of_ne hne]
    exact howns.unused id hid off
  · rw [place_mem_of_ne fun u hu => howns.id_ne hv hu]
    exact howns.clean v hv

/-- A callback that does not fill the buffer. -/
theorem Inv.partly (h : s.Inv) (hlt : chunk.length < s.room) : (s.place chunk).Inv := by
  refine ⟨h.place chunk, ?_⟩
  have hlen : (s.buf ++ chunk).length < s.want := by
    unfold room at hlt
    rw [List.length_append]
    omega
  -- the loop waits where it waited before
  have hsame : (s.place chunk).pc = s.pc := rfl
  cases hpc : s.pc with
  | header =>
    have hreading := (reading_header hpc).mp h.reading
    exact (reading_header (hsame.trans hpc)).mpr ⟨hreading.1, hlen⟩
  | drop left =>
    have hreading := (reading_drop hpc).mp h.reading
    exact (reading_drop (hsame.trans hpc)).mpr ⟨hreading.1, hlen⟩
  | payload u actualLength =>
    obtain ⟨hwant, -, hretOf, hmem, hret⟩ := (reading_payload hpc).mp h.reading
    refine (reading_payload (hsame.trans hpc)).mpr
      ⟨hwant, Or.inl hlen, hretOf, fun off => ?_, hret⟩
    rw [place_mem_payload hpc]
    exact storeAt_length hmem
  | exited => exact (reading_exited (hsame.trans hpc)).mpr ((reading_exited hpc).mp h.reading)

theorem Inv.readCb (h : s.Inv) (chunk : List Byte) : (s.readCb chunk).Inv := by
  unfold ReadLoop.readCb
  by_cases hlt : chunk.length < s.room
  · rw [if_pos hlt]
    exact h.partly hlt
  · rw [if_neg hlt]
    exact (h.place chunk).resume (fun hpc => (@reading_exited s hpc).mp h.reading) _

/-! ### Whole buffers -/

theorem place_of_ne_payload (h : s.current = []) :
    s.place chunk = { s with buf := s.buf ++ chunk } := by
  unfold current at h
  unfold place
  cases hpc : s.pc with
  | payload u actualLength =>
    rw [hpc] at h
    exact absurd h (List.cons_ne_nil _ _)
  | header => rfl
  | drop left => rfl
  | exited => rfl

theorem place_nil : s.place [] = s := by
  cases hpc : s.pc with
  | payload u actualLength =>
    rw [place, hpc, List.append_nil]
    dsimp only
    rw [storeAt_nil]
    exact congrArg (fun pc => { s with pc := pc }) hpc.symm
  | header =>
    rw [place_of_ne_payload (by rw [current, hpc]), List.append_nil]
  | drop left =>
    rw [place_of_ne_payload (by rw [current, hpc]), List.append_nil]
  | exited =>
    rw [place_of_ne_payload (by rw [current, hpc]), List.append_nil]

theorem readCb_of_lt (hlt : chunk.length < s.room) : s.readCb chunk = s.place chunk := if_pos hlt

theorem readCb_of_full (hfull : chunk.length = s.room) :
    s.readCb chunk = (s.place chunk).resume (BitVec.ofNat 32 (s.place chunk).buf.length) :=
  if_neg (by omega)

/-- A callback within a header. -/
theorem readCb_header_of_lt (hpc : s.pc = .header) (hlt : chunk.length < s.room) :
    s.readCb chunk = { s with buf := s.buf ++ chunk } := by
  rw [readCb_of_lt hlt]
  exact place_of_ne_payload (by rw [current, hpc])

/-- Once an error has been recorded in its own work the loop ends, whatever the buffer holds. -/
theorem resume_of_ret (hret : s.ret ≠ none) (status : BitVec 32) : s.resume status = s.workExit :=
  if_pos hret

theorem retSubmit_found {base : UsbipHeaderBasic} {rpdu : UsbipHeaderRetSubmit}
    {pre post : List Transfer} {u : Transfer}
    (hfind : s.deviceFindUrb base.seqnum = some (pre, u, post)) :
    s.retSubmit base rpdu = { s with urbList := pre ++ post }.replied u rpdu := by
  rw [retSubmit, hfind]

/-- Every branch prepares its own buffer. -/
theorem retSubmit_buf (base : UsbipHeaderBasic) (rpdu : UsbipHeaderRetSubmit) (buf : List Byte) :
    { s with buf := buf }.retSubmit base rpdu = s.retSubmit base rpdu := by
  have hfind : { s with buf := buf }.deviceFindUrb base.seqnum = s.deviceFindUrb base.seqnum := rfl
  unfold retSubmit
  rw [hfind]
  cases s.deviceFindUrb base.seqnum with
  | none =>
    dsimp only
    split
    · unfold dropLoop
      split <;> rfl
    · rfl
  | some r =>
    dsimp only
    unfold replied
    split
    · rfl
    · split <;> rfl

/-- The callback that ends the header of a RET_SUBMIT. -/
theorem readCb_header {pdu : UsbipHeader} {rpdu : UsbipHeaderRetSubmit} (hpc : s.pc = .header)
    (hwant : s.want = UsbipHeader.size) (hret : s.ret = none) (hbuf : s.buf ++ chunk = pdu.encode)
    (hu : pdu.u = .retSubmit rpdu) : s.readCb chunk = s.retSubmit pdu.base rpdu := by
  have hlen : (s.buf ++ chunk).length = s.want := by rw [hbuf, hwant, pdu.length_encode]
  have hplace : s.place chunk = { s with buf := pdu.encode } := by
    rw [place_of_ne_payload (by rw [current, hpc]), hbuf]
  have hroom : chunk.length = s.room := by
    unfold room
    rw [List.length_append] at hlen
    omega
  rw [readCb_of_full hroom, hplace, ← retSubmit_buf (s := s) pdu.base rpdu pdu.encode]
  rw [resume, if_neg (not_not.mpr hret)]
  dsimp only
  rw [pdu.length_encode, if_neg (by decide), hpc]
  dsimp only
  rw [UsbipHeader.decode_encode]
  dsimp only
  rw [hu]

/-- The callback that ends a payload. -/
theorem readCb_payload {u : Transfer} {actualLength : BitVec 32}
    (hpc : s.pc = .payload u actualLength) (hret : s.ret = none) (hfull : chunk.length = s.room)
    (hmsb : (BitVec.ofNat 32 (s.buf ++ chunk).length).msb = false) :
    s.readCb chunk = (((s.place chunk).setRet u actualLength).workDone u).readHeader := by
  have hsame : (s.place chunk).pc = .payload u actualLength := hpc
  have hret' : ¬ (s.place chunk).ret ≠ none := not_not.mpr hret
  have hmsb' : ¬ (BitVec.ofNat 32 (s.place chunk).buf.length).msb = true := by
    rw [Bool.not_eq_true]
    exact hmsb
  rw [readCb_of_full hfull]
  rw [resume, if_neg hret', if_neg hmsb', hsame]

/-! ### A round of `device_loop` -/

/-- What a round of `device_loop` consults in this state. -/
def env (s : ReadLoop) (emptyRead : Bool) : DeviceEnv :=
  ⟨s.urbList.map Transfer.urb, if s.ret = none then 0 else -1, emptyRead⟩

theorem deviceFindUrb_env (s : ReadLoop) (emptyRead : Bool) (seqnum : BitVec 32) :
    (s.env emptyRead).deviceFindUrb seqnum = (s.deviceFindUrb seqnum).map fun r => r.2.1.urb :=
  Device.find?_urb s.urbList seqnum

/-- A round that starts with the header of a RET_SUBMIT. -/
theorem deviceLoop_env {pdu : UsbipHeader} {rpdu : UsbipHeaderRetSubmit} (hret : s.ret = none)
    (hu : pdu.u = .retSubmit rpdu) (emptyRead : Bool) (stream : List Byte) :
    (s.env emptyRead).deviceLoop (pdu.encode ++ stream) =
      (s.env emptyRead).deviceRetSubmit pdu.base rpdu stream := by
  have hzero : ¬ (s.env emptyRead).ret ≠ 0 := not_not.mpr (if_pos hret)
  rw [DeviceEnv.deviceLoop, Framing.recv_append pdu.length_encode, Option.bind_some, if_neg hzero]
  dsimp only
  rw [UsbipHeader.decode_encode]
  dsimp only
  rw [hu]

/-! ### The other callbacks -/

theorem Inv.transfer (h : s.Inv) (direction : BitVec 32) (size : ℕ) :
    (s.transfer direction size).Inv := by
  have howns := h.owns
  have hcurrent : (s.transfer direction size).current = s.current := rfl
  -- the new transfer comes before the one whose payload is being read
  have hperm : ((s.transfer direction size).urbList ++ s.current).Perm
      (⟨s.nextId, ⟨s.seqnum, direction, true⟩⟩ :: (s.urbList ++ s.current)) := by
    change ((s.urbList ++ [_]) ++ s.current).Perm _
    rw [List.append_assoc]
    exact List.perm_middle
  have hne : ∀ v ∈ s.urbList ++ s.current, v.id ≠ s.nextId := by
    intro v hv
    have hlt := howns.fresh v hv
    omega
  refine ⟨⟨?_, fun v hv => ?_, fun id hid => ?_, fun v hv => ?_, fun hopen v hv => ?_⟩, ?_⟩
  · rw [hcurrent, (hperm.map Transfer.id).nodup_iff, List.map_cons, List.nodup_cons]
    refine ⟨fun hmem => ?_, howns.nodup⟩
    obtain ⟨v, hv, hid⟩ := List.mem_map.mp hmem
    exact hne v hv hid
  · rw [hcurrent, hperm.mem_iff] at hv
    change v.id < s.nextId + 1
    obtain rfl | hv := List.mem_cons.mp hv
    · exact Nat.lt_succ_self _
    · exact Nat.lt_succ_of_lt (howns.fresh v hv)
  · have hle : s.nextId + 1 ≤ id := hid
    exact howns.unused id (by omega)
  · obtain hv | hv := List.mem_append.mp hv
    · refine ⟨(howns.clean v hv).1, ?_⟩
      exact (Function.update_of_ne (hne v (List.mem_append_left _ hv)) _ _).trans
        (howns.clean v hv).2
    · obtain rfl := List.mem_singleton.mp hv
      exact ⟨howns.unused _ (le_refl _), Function.update_self _ _ _⟩
  · rw [hcurrent, hperm.mem_iff] at hv
    obtain rfl | hv := List.mem_cons.mp hv
    · exact Function.update_self _ _ _
    · exact (Function.update_of_ne (hne v hv) _ _).trans (howns.result hopen v hv)
  · refine h.reading.frame rfl rfl rfl rfl (fun hopen => hopen) fun u hu => ⟨rfl, ?_⟩
    exact Function.update_of_ne (hne u (List.mem_append_right _ hu)) _ _

theorem Inv.deviceClose (h : s.Inv) : s.deviceClose.Inv :=
  ⟨h.owns.deviceClose, h.reading.frame rfl rfl rfl rfl
    (fun hopen => absurd hopen (Owns.deviceClose_state s)) fun _ _ => ⟨rfl, rfl⟩⟩

/-- An error in the work of a URB is recorded as the device is closed. -/
theorem Inv.abort (h : s.Inv) (id : ℕ) (e : UvErr) : (s.abort id e).Inv := by
  have hclose := h.deviceClose
  have hstate := Owns.deviceClose_state s
  exact ⟨⟨hclose.owns.nodup, hclose.owns.fresh, hclose.owns.unused, hclose.owns.clean,
    fun hopen => absurd hopen hstate⟩, hclose.reading.frame rfl rfl rfl rfl
    (fun hopen => absurd hopen hstate) fun _ _ => ⟨rfl, rfl⟩⟩

theorem Inv.socketCloseCb (h : s.Inv) : s.socketCloseCb.Inv := by
  have hcurrent : s.socketCloseCb.current = [] := rfl
  refine ⟨?_, (reading_exited rfl).mpr (by simp [ReadLoop.socketCloseCb])⟩
  rw [hcurrent]
  refine ⟨List.nodup_nil, fun u hu => ?_, h.owns.unused, fun u hu => ?_, fun hopen => ?_⟩
  · exact absurd hu List.not_mem_nil
  · exact absurd hu List.not_mem_nil
  · exact absurd hopen (by simp [ReadLoop.socketCloseCb])

theorem Inv.step {a : ReadAct} {s' : ReadLoop} (h : s.Inv) (hs : s.step a = some s') : s'.Inv := by
  cases a with
  | transfer direction size =>
    obtain ⟨-, hs⟩ := Option.ite_none_left_eq_some.mp hs
    obtain rfl := Option.some.inj hs
    exact h.transfer direction size
  | read chunk =>
    obtain ⟨-, hs⟩ := Option.ite_none_right_eq_some.mp hs
    obtain rfl := Option.some.inj hs
    exact h.readCb chunk
  | readErr =>
    obtain ⟨-, hs⟩ := Option.ite_none_right_eq_some.mp hs
    obtain rfl := Option.some.inj hs
    exact h.owns.resume (fun hpc => (reading_exited hpc).mp h.reading) _
  | abort id e =>
    obtain ⟨-, hs⟩ := Option.ite_none_right_eq_some.mp hs
    obtain rfl := Option.some.inj hs
    exact h.abort id e
  | close =>
    obtain rfl := Option.some.inj hs
    exact h.deviceClose
  | socketClosed =>
    obtain ⟨-, hs⟩ := Option.ite_none_right_eq_some.mp hs
    obtain rfl := Option.some.inj hs
    exact h.socketCloseCb

end ReadLoop

/-- The first of several read callbacks. -/
theorem ReadLoop.run_read {s t : ReadLoop} {chunk : List Byte} {chunks : List (List Byte)}
    (hrun : readLoop.run s ((chunk :: chunks).map .read) = some t) :
    s.state = .opening ∧ chunk.length ≤ s.room ∧
      readLoop.run (s.readCb chunk) (chunks.map .read) = some t := by
  obtain ⟨s', hstep, hrest⟩ := Option.bind_eq_some_iff.mp hrun
  obtain ⟨⟨hopen, hroom⟩, hstep⟩ := Option.ite_none_right_eq_some.mp hstep
  obtain rfl := Option.some.inj hstep
  exact ⟨hopen, hroom, hrest⟩

/-- **The invariant of the loop** holds in every state that a run reaches. -/
theorem readLoop_inv {s : ReadLoop} (h : readLoop.Reachable s) : s.Inv := by
  refine h.invariant ?_ fun _ _ _ hinv _ hs => hinv.step hs
  have howns : readLoop.init.Owns [] :=
    ⟨List.nodup_nil, fun u hu => absurd hu List.not_mem_nil, fun _ _ _ => rfl,
      fun u hu => absurd hu List.not_mem_nil, fun _ u hu => absurd hu List.not_mem_nil⟩
  exact howns.readHeader

/-- A device with one IN transfer of two bytes. -/
def oneIn : ReadLoop := readLoop.init.transfer usbipDirIn 2

theorem oneIn_reachable : readLoop.Reachable oneIn := by
  have hstep : readLoop.step readLoop.init (.transfer usbipDirIn 2) = some oneIn := rfl
  exact .next .init trivial hstep

/-- The header of a reply to the transfer with this number. -/
def retSubmitHeader (seqnum status actualLength : BitVec 32) : UsbipHeader :=
  ⟨⟨usbipRetSubmit, seqnum, 0, 0, 0⟩, .retSubmit ⟨status, actualLength, 0, 0, 0⟩, rfl⟩

end Usbip.Client
