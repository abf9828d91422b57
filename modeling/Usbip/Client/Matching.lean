import Usbip.Client.DeviceLoop
import Usbip.Lib.ListWalk
import Usbip.Lib.Machine

/-!
# Matching replies to transfers in the user-space client

`device_urb_transfer` hands a CMD_SUBMIT to `uv_write` and yields; the URB goes to the device's
`urb_list` only when the write callback resumes it. `device_loop` looks a reply up on that list.
Both run on callbacks of one event loop, and nothing orders the write callback of a transfer
before the read callback that brings its reply (`reply_before_write_callback`): once the bytes
have left, the server may answer.

The machine `clientDevice` has one step for each callback, and the writes and answers that take
place outside. A reply ends as `found`, with the URB that `device_find_urb` gave, as `unknown`,
or as `unread` when the loop has already been told to end: `WORK_SET_ERR` for a reply with an
error status marks the work of the loop itself.

Under `ReplyInTurn` each reply finds its own URB, and completes it unless the connection breaks
within the reply.
-/

namespace Usbip.Client

open ListWalk Wire

/-- A URB from the start of `device_urb_transfer` on; the number of the transfer plays the part
of its address. -/
structure Transfer where
  id : ℕ
  urb : UrbT
  deriving DecidableEq

/-- A RET_SUBMIT on its way. `id` is a ghost field: the transfer that the server answers. -/
structure Reply where
  id : ℕ
  seqnum : BitVec 32
  status : BitVec 32
  deriving DecidableEq

/-- What became of a reply. -/
inductive Outcome
  /-- `device_find_urb` gave the URB of this transfer -/
  | found (reply : Reply) (id : ℕ)
  /-- "can't find urb" -/
  | unknown (reply : Reply)
  /-- the loop ended on it -/
  | unread (reply : Reply)
  deriving DecidableEq

/-- Where `device_loop` has yielded. -/
inductive LoopPc
  | header
  /-- the URB of this transfer is off `urb_list` and its payload is being received -/
  | payload (id : ℕ)
  | stopped
  deriving DecidableEq

/-- One `device_t` with a running loop. `queued` are the transfers whose bytes have not all been
written, `written` those whose write callback has not run yet, `unanswered` those the server has
received and not answered. `ret` says that an error is recorded in the work of the loop. `log`
and `completed` are histories. -/
structure Device where
  seqnum : BitVec 32
  nextId : ℕ
  queued : List Transfer
  written : List Transfer
  urbList : List Transfer
  unanswered : List Transfer
  replies : List Reply
  loop : LoopPc
  ret : Bool
  isOpen : Bool
  log : List Outcome
  completed : List ℕ

namespace Device

/-- `device_urb_transfer` up to its `WORK_YIELD`. -/
def deviceUrbTransfer (s : Device) (direction : BitVec 32) : Device :=
  { s with
    seqnum := s.seqnum + 1
    nextId := s.nextId + 1
    queued := s.queued ++ [⟨s.nextId, ⟨s.seqnum, direction, true⟩⟩] }

/-- The last byte of the oldest unwritten CMD_SUBMIT goes to the socket. -/
def writeOut (s : Device) : Option Device :=
  match s.queued with
  | [] => none
  | t :: rest =>
    some { s with
      queued := rest
      written := s.written ++ [t]
      unanswered := s.unanswered ++ [t] }

/-- The write callback, and `device_urb_transfer` from its `WORK_YIELD` on. -/
def writeCb (s : Device) : Option Device :=
  match s.written with
  | [] => none
  | t :: rest => some { s with written := rest, urbList := s.urbList ++ [t] }

/-- The server answers a CMD_SUBMIT that it has received. -/
def answer (s : Device) (id : ℕ) (status : BitVec 32) : Option Device :=
  (findSplit (fun t => t.id == id) s.unanswered).map fun r =>
    { s with
      unanswered := r.1 ++ r.2.2
      replies := s.replies ++ [⟨r.2.1.id, r.2.1.urb.seqnum, status⟩] }

/-- `device_find_urb`, as a walk over `urb_list`. -/
def deviceFindUrb (s : Device) (seqnum : BitVec 32) :
    Option (List Transfer × Transfer × List Transfer) :=
  findSplit (fun t => t.urb.work && t.urb.seqnum == seqnum) s.urbList

/-- `work_done` of the transfer's work. -/
def workDone (s : Device) (id : ℕ) : Device := { s with completed := s.completed ++ [id] }

/-- `device_loop` from the URB it has found to its next yield: an error status is recorded in
the work of the loop, an IN transfer has its payload read first. -/
def retSubmit (s : Device) (status : BitVec 32) (t : Transfer) : Device :=
  if status ≠ 0 then { s with ret := true }.workDone t.id
  else if t.urb.direction = usbipDirIn then { s with loop := .payload t.id }
  else s.workDone t.id

/-- The read callback for a header. The payload of an unknown reply is not modelled. -/
def readHeader (s : Device) : Option Device :=
  match s.loop, s.replies with
  | .header, r :: rest =>
    if s.ret then
      some { s with
        replies := rest, loop := .stopped, isOpen := false, log := s.log ++ [.unread r] }
    else
      match s.deviceFindUrb r.seqnum with
      | none => some { s with replies := rest, log := s.log ++ [.unknown r] }
      | some (pre, t, post) =>
        some ({ s with
          replies := rest
          urbList := pre ++ post
          log := s.log ++ [Outcome.found r t.id] }.retSubmit r.status t)
  | _, _ => none

/-- The read callback for a payload; `ok = false` stands for a broken connection, on which the
loop aborts. -/
def readPayload (s : Device) (ok : Bool) : Option Device :=
  match s.loop with
  | .payload id =>
    if ok then some ({ s with loop := .header }.workDone id)
    else some { s with loop := .stopped, isOpen := false }
  | _ => none

end Device

/-- The steps of the event loop, of the kernel that writes and of the server that answers. -/
inductive Act
  | transfer (direction : BitVec 32)
  | written
  | writeCb
  | answer (id : ℕ) (status : BitVec 32)
  | readHeader
  | readPayload (ok : Bool)
  /-- `DEVICE_CLOSE`: a transfer was cancelled or timed out, or the user closed the device -/
  | close
  deriving DecidableEq

/-- One step; no callback comes after `uv_close`. -/
def Device.step (s : Device) (a : Act) : Option Device :=
  if s.isOpen = false then none
  else
    match a with
    | .transfer direction => some (s.deviceUrbTransfer direction)
    | .written => s.writeOut
    | .writeCb => s.writeCb
    | .answer id status => s.answer id status
    | .readHeader => s.readHeader
    | .readPayload ok => s.readPayload ok
    | .close => some { s with isOpen := false }

/-- A device whose `device_loop` has just started to read. -/
def clientDevice : Machine Device Act where
  init :=
    { seqnum := 0, nextId := 0, queued := [], written := [], urbList := [], unanswered := [],
      replies := [], loop := .header, ret := false, isOpen := true, log := [], completed := [] }
  step := Device.step

/-- The header of a reply is read after the write callback of its transfer has run, before an
error has been recorded, and no older transfer waits under the same number. -/
def ReplyInTurn (s : Device) : Act → Prop
  | .readHeader => ∀ r ∈ s.replies.head?, s.ret = false ∧ (∀ t ∈ s.written, t.id ≠ r.id) ∧
      ∀ t ∈ s.urbList, t.urb.seqnum = r.seqnum → r.id ≤ t.id
  | _ => True

instance (s : Device) (a : Act) : Decidable (ReplyInTurn s a) := by
  unfold ReplyInTurn
  split <;> infer_instance

namespace Device

/-- The transfers whose CMD_SUBMIT has been written and that have found no reply yet, oldest
first. -/
def waiting (s : Device) : List Transfer := s.urbList ++ s.written

/-- The invariant of runs in which every reply comes in its turn. -/
structure Matching (s : Device) : Prop where
  sorted : (s.waiting ++ s.queued).Pairwise fun t u => t.id < u.id
  fresh : ∀ t ∈ s.waiting ++ s.queued, t.id < s.nextId ∧ t.urb.work = true
  answers : (s.unanswered.map (·.id) ++ s.replies.map (·.id)).Nodup
  unanswered : s.unanswered ⊆ s.waiting
  replies : ∀ r ∈ s.replies, ∃ t ∈ s.waiting, t.id = r.id ∧ t.urb.seqnum = r.seqnum
  matched : ∀ o ∈ s.log, ∃ r, o = Outcome.found r r.id
  completes : ∀ r id, Outcome.found r id ∈ s.log →
    id ∈ s.completed ∨ s.loop = .payload id ∨ s.isOpen = false

/-- An entry moves from inside one list to the end of the next. -/
theorem perm_move (l₁ l₂ l₃ : List ℕ) (i : ℕ) :
    ((l₁ ++ l₂) ++ (l₃ ++ [i])).Perm ((l₁ ++ i :: l₂) ++ l₃) := by
  rw [List.append_assoc, List.append_assoc, ← List.append_assoc l₂]
  exact (List.perm_append_singleton i (l₂ ++ l₃)).append_left l₁

namespace Matching

variable {s s' : Device}

theorem transfer (h : Matching s) (direction : BitVec 32) :
    Matching (s.deviceUrbTransfer direction) := by
  have hlt : ∀ t ∈ s.waiting ++ s.queued, t.id < s.nextId := fun t ht => (h.fresh t ht).1
  constructor
  · change (s.waiting ++ (s.queued ++ [_])).Pairwise _
    rw [← List.append_assoc, List.pairwise_append]
    refine ⟨h.sorted, List.pairwise_singleton _ _, fun t ht u hu => ?_⟩
    obtain rfl := List.mem_singleton.mp hu
    exact hlt t ht
  · intro t ht
    change t ∈ s.waiting ++ (s.queued ++ [_]) at ht
    rw [← List.append_assoc] at ht
    change t.id < s.nextId + 1 ∧ _
    rcases List.mem_append.mp ht with ht | ht
    · exact ⟨by have := hlt t ht; omega, (h.fresh t ht).2⟩
    · obtain rfl := List.mem_singleton.mp ht
      exact ⟨by change s.nextId < s.nextId + 1; omega, rfl⟩
  · exact h.answers
  · exact h.unanswered
  · exact h.replies
  · exact h.matched
  · exact h.completes

theorem written (h : Matching s) (hs : s.writeOut = some s') : Matching s' := by
  unfold writeOut at hs
  split at hs
  · cases hs
  next t rest hq =>
    obtain rfl := Option.some.inj hs
    -- the transfer moves from the unwritten ones to the end of the waiting ones
    have hall : s.waiting ++ s.queued = (s.waiting ++ [t]) ++ rest := by simp [hq]
    have hwait : s.urbList ++ (s.written ++ [t]) = s.waiting ++ [t] := by simp [waiting]
    have hsorted := h.sorted
    rw [hall] at hsorted
    have hnew : ∀ u ∈ s.waiting, u.id < t.id := by
      have := (List.pairwise_append.mp hsorted).1
      exact fun u hu => (List.pairwise_append.mp this).2.2 u hu t (by simp)
    have hids : ∀ i ∈ s.unanswered.map (·.id) ++ s.replies.map (·.id), i < t.id := by
      intro i hi
      rcases List.mem_append.mp hi with hi | hi
      · obtain ⟨u, hu, rfl⟩ := List.mem_map.mp hi
        exact hnew u (h.unanswered hu)
      · obtain ⟨r, hr, rfl⟩ := List.mem_map.mp hi
        obtain ⟨u, hu, hid, -⟩ := h.replies r hr
        exact hid ▸ hnew u hu
    refine ⟨?_, ?_, ?_, ?_, ?_, h.matched, h.completes⟩
    · change ((s.urbList ++ (s.written ++ [t])) ++ rest).Pairwise _
      rwa [hwait]
    · intro u hu
      change u ∈ (s.urbList ++ (s.written ++ [t])) ++ rest at hu
      rw [hwait, ← hall] at hu
      exact h.fresh u hu
    · have hperm : (s.unanswered.map (·.id) ++ [t.id] ++ s.replies.map (·.id)).Perm
          (t.id :: (s.unanswered.map (·.id) ++ s.replies.map (·.id))) := by
        rw [List.append_assoc]
        exact List.perm_middle
      change ((s.unanswered ++ [t]).map (·.id) ++ s.replies.map (·.id)).Nodup
      rw [List.map_append, List.map_singleton, hperm.nodup_iff, List.nodup_cons]
      exact ⟨fun hmem => Nat.lt_irrefl _ (hids _ hmem), h.answers⟩
    · change s.unanswered ++ [t] ⊆ s.urbList ++ (s.written ++ [t])
      rw [hwait]
      exact List.append_subset.mpr ⟨List.subset_append_of_subset_left _ h.unanswered,
        List.subset_append_right _ _⟩
    · intro r hr
      obtain ⟨u, hu, hid⟩ := h.replies r hr
      refine ⟨u, ?_, hid⟩
      change u ∈ s.urbList ++ (s.written ++ [t])
      rw [hwait]
      exact List.mem_append_left _ hu

theorem writeCb (h : Matching s) (hs : s.writeCb = some s') : Matching s' := by
  unfold Device.writeCb at hs
  split at hs
  · cases hs
  next t rest hw =>
    obtain rfl := Option.some.inj hs
    have hwait : (s.urbList ++ [t]) ++ rest = s.waiting := by simp [waiting, hw]
    refine ⟨?_, ?_, h.answers, ?_, ?_, h.matched, h.completes⟩
    · change (((s.urbList ++ [t]) ++ rest) ++ s.queued).Pairwise _
      rw [hwait]
      exact h.sorted
    · intro u hu
      change u ∈ ((s.urbList ++ [t]) ++ rest) ++ s.queued at hu
      rw [hwait] at hu
      exact h.fresh u hu
    · change s.unanswered ⊆ (s.urbList ++ [t]) ++ rest
      rw [hwait]
      exact h.unanswered
    · intro r hr
      obtain ⟨u, hu, hid⟩ := h.replies r hr
      refine ⟨u, ?_, hid⟩
      change u ∈ (s.urbList ++ [t]) ++ rest
      rwa [hwait]

theorem answer (h : Matching s) {id : ℕ} {status : BitVec 32}
    (hs : s.answer id status = some s') : Matching s' := by
  obtain ⟨⟨pre, t, post⟩, hfind, rfl⟩ := Option.map_eq_some_iff.mp hs
  obtain ⟨hl, -, -⟩ := findSplit_eq_some hfind
  have ht : t ∈ s.waiting := h.unanswered (by simp [hl])
  refine ⟨h.sorted, h.fresh, ?_, ?_, ?_, h.matched, h.completes⟩
  · change ((pre ++ post).map Transfer.id ++ (s.replies ++ [_]).map Reply.id).Nodup
    have hids := h.answers
    rw [hl, List.map_append, List.map_cons] at hids
    rw [List.map_append, List.map_append, List.map_singleton]
    exact (perm_move _ _ _ _).nodup_iff.mpr hids
  · intro u hu
    refine h.unanswered ?_
    rw [hl]
    rcases List.mem_append.mp hu with hu | hu
    · exact List.mem_append_left _ hu
    · exact List.mem_append_right _ (List.mem_cons_of_mem _ hu)
  · intro r hr
    rcases List.mem_append.mp hr with hr | hr
    · exact h.replies r hr
    · obtain rfl := List.mem_singleton.mp hr
      exact ⟨t, ht, rfl, rfl⟩

end Matching

/-! ### Reading a reply -/

/-- What the read callback for a header does. -/
theorem readHeader_cases {s s' : Device} (hs : s.readHeader = some s') :
    ∃ r rest, s.loop = .header ∧ s.replies = r :: rest ∧
      (s.ret = true ∧ s' = { s with
          replies := rest, loop := .stopped, isOpen := false, log := s.log ++ [.unread r] } ∨
        s.ret = false ∧ s.deviceFindUrb r.seqnum = none ∧
          s' = { s with replies := rest, log := s.log ++ [.unknown r] } ∨
        ∃ pre t post, s.ret = false ∧ s.deviceFindUrb r.seqnum = some (pre, t, post) ∧
          s' = ({ s with
            replies := rest
            urbList := pre ++ post
            log := s.log ++ [Outcome.found r t.id] }.retSubmit r.status t)) := by
  unfold readHeader at hs
  split at hs
  next r rest hloop hreplies =>
    refine ⟨r, rest, hloop, hreplies, ?_⟩
    split at hs
    next hret => exact Or.inl ⟨hret, (Option.some.inj hs).symm⟩
    next hret =>
      have hret' : s.ret = false := by simpa using hret
      split at hs
      next hfind => exact Or.inr (Or.inl ⟨hret', hfind, (Option.some.inj hs).symm⟩)
      next pre t post hfind =>
        exact Or.inr (Or.inr ⟨pre, t, post, hret', hfind, (Option.some.inj hs).symm⟩)
  · cases hs

@[simp] theorem retSubmit_log (s : Device) (status : BitVec 32) (t : Transfer) :
    (s.retSubmit status t).log = s.log := by
  unfold retSubmit workDone
  split_ifs <;> rfl

/-! ### The rounds of `device_loop` -/

/-- What a round of `device_loop` consults in this state. -/
def env (s : Device) (emptyRead : Bool) : DeviceEnv :=
  ⟨s.urbList.map Transfer.urb, if s.ret then -1 else 0, emptyRead⟩

/-- The walk finds the URB that `device_find_urb` finds. -/
theorem find?_urb (l : List Transfer) (seqnum : BitVec 32) :
    (l.map Transfer.urb).find? (fun urb => urb.work && urb.seqnum == seqnum) =
      (findSplit (fun t => t.urb.work && t.urb.seqnum == seqnum) l).map fun r => r.2.1.urb := by
  induction l with
  | nil => rfl
  | cons t l ih =>
    rw [List.map_cons, List.find?_cons, findSplit_cons]
    cases ht : (t.urb.work && t.urb.seqnum == seqnum) with
    | true => rfl
    | false =>
      rw [if_neg (by simp), Option.map_map]
      exact ih

theorem deviceFindUrb_env (s : Device) (emptyRead : Bool) (seqnum : BitVec 32) :
    (s.env emptyRead).deviceFindUrb seqnum = (s.deviceFindUrb seqnum).map fun r => r.2.1.urb :=
  find?_urb s.urbList seqnum

/-- Without `USBIP_DIR_IN` in the reply, the loop drops just those that match no URB. -/
theorem deviceRetSubmit_dropped {env : DeviceEnv} {base : UsbipHeaderBasic}
    {rpdu : UsbipHeaderRetSubmit} {stream : List Byte} (hdir : base.direction ≠ usbipDirIn) :
    (∃ left, env.deviceRetSubmit base rpdu stream = some (.dropped, left)) ↔
      env.deviceFindUrb base.seqnum = none := by
  unfold DeviceEnv.deviceRetSubmit
  cases hfind : env.deviceFindUrb base.seqnum with
  | none => simp [hdir]
  | some urb =>
    constructor
    · rintro ⟨left, hleft⟩
      simp only at hleft
      split_ifs at hleft
      · cases hleft
      · obtain ⟨⟨b, rest⟩, -, heq⟩ := Option.map_eq_some_iff.mp hleft
        cases b <;> cases heq
      · cases hleft
    · intro h
      cases h

/-- A reply of the stub is unknown to the read callback exactly when a round of `device_loop` on
its bytes drops it. -/
theorem unknown_iff_dropped {s s' : Device} {r : Reply} {rest : List Reply} {emptyRead : Bool}
    {seqnum : BitVec 64} {urb : Urb} {stream : List Byte} (hs : s.readHeader = some s')
    (hreplies : s.replies = r :: rest) (hseq : r.seqnum = seqnum.setWidth 32) :
    s'.log = s.log ++ [.unknown r] ↔
      ∃ left, (s.env emptyRead).deviceLoop ((setupRetSubmitPdu seqnum urb).encode ++ stream) =
        some (.dropped, left) := by
  have hdir : (setupRetSubmitPdu seqnum urb).base.direction ≠ usbipDirIn := by
    simp [setupRetSubmitPdu, usbipDirIn]
  have hfind : (s.env emptyRead).deviceFindUrb (setupRetSubmitPdu seqnum urb).base.seqnum =
      (s.deviceFindUrb r.seqnum).map fun r => r.2.1.urb := by
    rw [hseq]
    exact deviceFindUrb_env s emptyRead _
  rw [DeviceEnv.deviceLoop_encode]
  obtain ⟨r', rest', -, hreplies', hcases⟩ := readHeader_cases hs
  obtain ⟨rfl, rfl⟩ := List.cons.inj (hreplies.symm.trans hreplies')
  rcases hcases with ⟨hret, rfl⟩ | ⟨hret, hnone, rfl⟩ | ⟨pre, t, post, hret, hsome, rfl⟩
  · have herror : (s.env emptyRead).ret ≠ 0 := by simp [env, hret]
    simp [if_pos herror]
  · have hzero : ¬ (s.env emptyRead).ret ≠ 0 := by simp [env, hret]
    rw [if_neg hzero, deviceRetSubmit_dropped hdir, hfind, hnone]
    simp
  · have hzero : ¬ (s.env emptyRead).ret ≠ 0 := by simp [env, hret]
    rw [if_neg hzero, deviceRetSubmit_dropped hdir, hfind, hsome]
    simp

namespace Matching

variable {s s' : Device} {r : Reply} {rest : List Reply}

/-- In its turn, a reply finds its own URB. -/
theorem find_own (h : Matching s) (hr : r ∈ s.replies) (hw : ∀ t ∈ s.written, t.id ≠ r.id)
    (hold : ∀ t ∈ s.urbList, t.urb.seqnum = r.seqnum → r.id ≤ t.id) :
    ∃ pre t post, s.deviceFindUrb r.seqnum = some (pre, t, post) ∧ t.id = r.id := by
  obtain ⟨u, hu, hid, hseq⟩ := h.replies r hr
  have hul : u ∈ s.urbList := by
    rcases List.mem_append.mp hu with hu | hu
    · exact hu
    · exact absurd hid (hw u hu)
  have hwork := (h.fresh u (List.mem_append_left _ hu)).2
  obtain ⟨pre, t, post, hfind⟩ :=
    exists_findSplit (p := fun t => t.urb.work && t.urb.seqnum == r.seqnum) hul
      (by simp [hwork, hseq])
  obtain ⟨hl, ht, hpre⟩ := findSplit_eq_some hfind
  have ht' : t.urb.work = true ∧ t.urb.seqnum = r.seqnum := by simpa using ht
  have hle : r.id ≤ t.id := hold t (by simp [hl]) ht'.2
  refine ⟨pre, t, post, hfind, ?_⟩
  rw [hl] at hul
  rcases List.mem_append.mp hul with hup | hup
  · -- an earlier entry would have been found
    have := hpre u hup
    simp [hwork, hseq] at this
  · rcases List.mem_cons.mp hup with rfl | hup
    · exact hid
    · have hsorted := h.sorted
      rw [waiting, hl, List.append_assoc, List.append_assoc, List.pairwise_append] at hsorted
      have := (List.pairwise_cons.mp hsorted.2.1).1 u (by simp [hup])
      omega

/-- A reply that finds its own URB came in its turn. -/
theorem in_turn_of_find (h : Matching s) {pre post : List Transfer} {t : Transfer}
    (hfind : s.deviceFindUrb r.seqnum = some (pre, t, post)) (hid : t.id = r.id) :
    (∀ u ∈ s.written, u.id ≠ r.id) ∧ ∀ u ∈ s.urbList, u.urb.seqnum = r.seqnum → r.id ≤ u.id := by
  obtain ⟨hl, -, hpre⟩ := findSplit_eq_some hfind
  have hsorted := h.sorted
  rw [waiting, hl, List.append_assoc, List.append_assoc, List.pairwise_append] at hsorted
  have hafter := (List.pairwise_cons.mp hsorted.2.1).1
  constructor
  · intro u hu heq
    have := hafter u (by simp [hu])
    omega
  · intro u hu hseq
    rw [hl] at hu
    rcases List.mem_append.mp hu with hu | hu
    · have hwork : u.urb.work = true := by
        refine (h.fresh u ?_).2
        rw [waiting, hl]
        simp [hu]
      have := hpre u hu
      simp [hwork, hseq] at this
    · rcases List.mem_cons.mp hu with rfl | hu
      · omega
      · have := hafter u (by simp [hu])
        omega

/-- **Which replies find their URB**: exactly those that come in their turn. -/
theorem found_iff (h : Matching s) (hs : s.readHeader = some s') :
    (∃ r, s'.log = s.log ++ [.found r r.id]) ↔ ReplyInTurn s .readHeader := by
  obtain ⟨r, rest, -, hreplies, hcases⟩ := readHeader_cases hs
  have hr : r ∈ s.replies := by simp [hreplies]
  have hturn : ReplyInTurn s .readHeader ↔ s.ret = false ∧ (∀ t ∈ s.written, t.id ≠ r.id) ∧
      ∀ t ∈ s.urbList, t.urb.seqnum = r.seqnum → r.id ≤ t.id := by
    simp [ReplyInTurn, hreplies]
  rw [hturn]
  rcases hcases with ⟨hret, rfl⟩ | ⟨hret, hfind, rfl⟩ | ⟨pre, t, post, hret, hfind, rfl⟩
  · simp [hret]
  · constructor
    · rintro ⟨r', hr'⟩
      simp at hr'
    · rintro ⟨-, hw, hold⟩
      obtain ⟨pre, t, post, hfind', -⟩ := h.find_own hr hw hold
      cases hfind.symm.trans hfind'
  · constructor
    · rintro ⟨r', hr'⟩
      obtain ⟨rfl, hid⟩ : r = r' ∧ t.id = r'.id := by simpa using hr'
      exact ⟨hret, h.in_turn_of_find hfind hid⟩
    · rintro ⟨-, hw, hold⟩
      obtain ⟨pre', t', post', hfind', hid⟩ := h.find_own hr hw hold
      cases hfind.symm.trans hfind'
      exact ⟨r, by simp [hid]⟩

theorem readHeader (h : Matching s) (hok : ReplyInTurn s .readHeader)
    (hs : s.readHeader = some s') : Matching s' := by
  obtain ⟨r, rest, hloop, hreplies, hcases⟩ := readHeader_cases hs
  have hr : r ∈ s.replies := by simp [hreplies]
  obtain ⟨hret, hw, hold⟩ := hok r (by simp [hreplies])
  obtain ⟨pre, t, post, hfind, hid⟩ := h.find_own hr hw hold
  rcases hcases with ⟨hret', -⟩ | ⟨-, hfind', -⟩ | ⟨pre', t', post', -, hfind', rfl⟩
  · cases hret.symm.trans hret'
  · cases hfind.symm.trans hfind'
  · cases hfind.symm.trans hfind'
    obtain ⟨hl, -, -⟩ := findSplit_eq_some hfind
    have hsub : ((pre ++ post) ++ s.written).Sublist s.waiting := by
      rw [waiting, hl]
      exact ((List.sublist_cons_self t post).append_left pre).append_right _
    have hids := h.answers
    rw [hreplies, List.map_cons] at hids
    -- the transfer of another request is still waiting
    have hkeep : ∀ u ∈ s.waiting, u.id ≠ r.id → u ∈ (pre ++ post) ++ s.written := by
      intro u hu hne
      have hut : u ≠ t := fun heq => hne (heq ▸ hid)
      rw [waiting, hl] at hu
      simpa [hut] using hu
    have key : ∀ ret loop completed, t.id ∈ completed ∨ loop = LoopPc.payload t.id →
        s.completed ⊆ completed → Matching { s with
          replies := rest
          urbList := pre ++ post
          log := s.log ++ [Outcome.found r t.id]
          ret := ret
          loop := loop
          completed := completed } := by
      intro ret loop completed hdone hsubset
      refine ⟨h.sorted.sublist (hsub.append_right _),
        fun u hu => h.fresh u ((hsub.append_right _).subset hu), ?_, ?_, ?_, ?_, ?_⟩
      · exact hids.sublist ((List.sublist_cons_self _ _).append_left _)
      · intro u hu
        refine hkeep u (h.unanswered hu) fun heq => ?_
        have hmem : r.id ∈ s.unanswered.map Transfer.id := List.mem_map.mpr ⟨u, hu, heq⟩
        exact (List.nodup_append.mp hids).2.2 r.id hmem r.id (by simp) rfl
      · intro r' hr'
        obtain ⟨u, hu, hid', hseq⟩ := h.replies r' (by simp [hreplies, hr'])
        refine ⟨u, hkeep u hu fun heq => ?_, hid', hseq⟩
        have hnodup := (List.nodup_append.mp hids).2.1
        refine (List.nodup_cons.mp hnodup).1 (List.mem_map.mpr ⟨r', hr', ?_⟩)
        exact hid'.symm.trans heq
      · intro o ho
        rcases List.mem_append.mp ho with ho | ho
        · exact h.matched o ho
        · exact ⟨r, by rw [List.mem_singleton.mp ho, hid]⟩
      · intro r' id hfound
        rcases List.mem_append.mp hfound with hfound | hfound
        · rcases h.completes r' id hfound with hc | hc | hc
          · exact Or.inl (hsubset hc)
          · cases hloop.symm.trans hc
          · exact Or.inr (Or.inr hc)
        · obtain ⟨rfl, rfl⟩ : r' = r ∧ id = t.id := by simpa using hfound
          exact hdone.imp_right Or.inl
    unfold retSubmit workDone
    split_ifs
    · exact key true s.loop (s.completed ++ [t.id]) (by simp) (List.subset_append_left _ _)
    · exact key s.ret (.payload t.id) s.completed (by simp) (List.Subset.refl _)
    · exact key s.ret s.loop (s.completed ++ [t.id]) (by simp) (List.subset_append_left _ _)

theorem readPayload (h : Matching s) {ok : Bool} (hs : s.readPayload ok = some s') :
    Matching s' := by
  unfold Device.readPayload at hs
  split at hs
  next id hloop =>
    split at hs
    · obtain rfl := Option.some.inj hs
      refine ⟨h.sorted, h.fresh, h.answers, h.unanswered, h.replies, h.matched, ?_⟩
      intro r i hfound
      rcases h.completes r i hfound with hc | hc | hc
      · exact Or.inl (List.mem_append_left _ hc)
      · cases hloop.symm.trans hc
        exact Or.inl (List.mem_append_right _ (by simp))
      · exact Or.inr (Or.inr hc)
    · obtain rfl := Option.some.inj hs
      exact ⟨h.sorted, h.fresh, h.answers, h.unanswered, h.replies, h.matched,
        fun _ _ _ => Or.inr (Or.inr rfl)⟩
  · cases hs

/-- **Replies read in their turn keep the invariant.** -/
theorem step (h : Matching s) {a : Act} (hok : ReplyInTurn s a) (hs : s.step a = some s') :
    Matching s' := by
  unfold Device.step at hs
  split at hs
  · cases hs
  cases a with
  | transfer direction =>
    obtain rfl := Option.some.inj hs
    exact h.transfer direction
  | written => exact h.written hs
  | writeCb => exact h.writeCb hs
  | answer id status => exact h.answer hs
  | readHeader => exact h.readHeader hok hs
  | readPayload ok => exact h.readPayload hs
  | close =>
    obtain rfl := Option.some.inj hs
    exact ⟨h.sorted, h.fresh, h.answers, h.unanswered, h.replies, h.matched,
      fun _ _ _ => Or.inr (Or.inr rfl)⟩

end Matching

theorem matching_init : Matching clientDevice.init := by
  constructor <;> simp [clientDevice, waiting]

/-- Every run in which replies come in their turn keeps the invariant. -/
theorem matching_of_reachable {s : Device} (h : clientDevice.ReachableWhere ReplyInTurn s) :
    Matching s :=
  h.invariant matching_init fun _ _ _ hs hok hstep => hs.step hok hstep

end Device

open Device

/-- **Reply matching.** When each reply is read after the write callback of its transfer, before
an error status has been recorded and while no older transfer waits under its number, every
reply finds its own URB and completes it, unless the connection breaks within the reply. These
are exactly the reads that find the URB of the reply. -/
theorem replies_matched {s : Device} (h : clientDevice.ReachableWhere ReplyInTurn s) :
    (∀ o ∈ s.log, ∃ r, o = .found r r.id) ∧
      (∀ r id, .found r id ∈ s.log →
        id ∈ s.completed ∨ s.loop = .payload id ∨ s.isOpen = false) ∧
      ∀ s', s.readHeader = some s' →
        ((∃ r, s'.log = s.log ++ [.found r r.id]) ↔ ReplyInTurn s .readHeader) := by
  have hm := matching_of_reachable h
  refine ⟨hm.matched, hm.completes, ?_⟩
  intro s' hs
  exact hm.found_iff hs

/-- Two transfers in flight, answered in the opposite order; the first reply fills a buffer. -/
theorem replies_matched_two :
    ∃ s, clientDevice.runWhere ReplyInTurn clientDevice.init
        [.transfer usbipDirIn, .transfer 0, .written, .written, .writeCb, .writeCb,
          .answer 1 0, .answer 0 0, .readHeader, .readHeader, .readPayload true] = some s ∧
      ((∀ o ∈ s.log, ∃ r, o = .found r r.id) ∧
        (∀ r id, .found r id ∈ s.log →
          id ∈ s.completed ∨ s.loop = .payload id ∨ s.isOpen = false) ∧
        ∀ s', s.readHeader = some s' →
          ((∃ r, s'.log = s.log ++ [.found r r.id]) ↔ ReplyInTurn s .readHeader)) :=
  Machine.exists_runWhere (by decide) fun _ h => replies_matched h

/-- **The reply arrives before the write callback has run**: it is dropped as unknown, and its
transfer is put on `urb_list` afterwards, where nothing completes it. -/
theorem reply_before_write_callback :
    ∃ s, clientDevice.Reachable s ∧ .unknown ⟨0, 0, 0⟩ ∈ s.log ∧
      s.urbList = [⟨0, 0, 0, true⟩] := by
  obtain ⟨s, hs, hp⟩ := Machine.exists_reachable_of_any (m := clientDevice)
    [.transfer 0, .written, .answer 0 0, .readHeader, .writeCb]
    (fun s => decide (.unknown ⟨0, 0, 0⟩ ∈ s.log ∧ s.urbList = [⟨0, 0, 0, true⟩])) (by decide)
  exact ⟨s, hs, of_decide_eq_true hp⟩

end Usbip.Client
