import Usbip.Stub.Device
import Mathlib.Data.List.Perm.Basic
import Mathlib.Data.List.Nodup
import Mathlib.Tactic.Common

/-!
# Every request is answered once

A CMD_SUBMIT is answered by a RET_SUBMIT, unless a CMD_UNLINK finds its `stub_priv` in
`priv_init`: then the `stub_priv` takes over the number of the CMD_UNLINK and is answered by
its RET_UNLINK. A CMD_UNLINK that finds nothing is answered at once.

* `ListInv`: the live `stub_priv` records are the entries of `priv_init`, `priv_tx` and
  `priv_free`, each on one of them, and a URB in flight has its record on `priv_init`.
* `ReplyInv`: what has been received is, up to order, what the device still owes, what it has
  answered and what it gave up. The requests that the device owes are read off its queues.

Both are equations between lists up to permutation, so a step that moves an entry from one
queue to the next keeps them.
-/

namespace Usbip.Stub

open ListWalk

/-! ### Numbers of the requests and replies in a history -/

/-- The number of a CMD_SUBMIT. -/
@[simp] def Request.submit : Request → Option (BitVec 32)
  | .cmdSubmit q => some q
  | _ => none

/-- The number of a CMD_UNLINK. -/
@[simp] def Request.unlink : Request → Option (BitVec 32)
  | .cmdUnlink q _ => some q
  | _ => none

namespace StubEvent

/-- The number of a received CMD_SUBMIT. -/
@[simp] def submit : StubEvent → Option (BitVec 32)
  | .cmdSubmit q => some q
  | _ => none

/-- The number of a processed CMD_UNLINK. -/
@[simp] def unlink : StubEvent → Option (BitVec 32)
  | .cmdUnlink q _ => some q
  | _ => none

/-- The number a `stub_priv` had when a CMD_UNLINK found it in `priv_init`. -/
@[simp] def conversion : StubEvent → Option (BitVec 32)
  | .converted p => some (toU32 p.seqnum)
  | _ => none

/-- The `base.seqnum` of a RET_SUBMIT. -/
@[simp] def submitReply : StubEvent → Option (BitVec 32)
  | .retSubmit p => some (toU32 p.seqnum)
  | _ => none

/-- The `base.seqnum` of a RET_UNLINK. -/
@[simp] def unlinkReply : StubEvent → Option (BitVec 32)
  | .retUnlink u => some (toU32 u.seqnum)
  | _ => none

/-- The `base.seqnum` of a RET_SUBMIT that was not written. -/
@[simp] def submitGivenUp : StubEvent → Option (BitVec 32)
  | .unsentSubmit p => some (toU32 p.seqnum)
  | _ => none

/-- The `base.seqnum` of a RET_UNLINK that was not written. -/
@[simp] def unlinkGivenUp : StubEvent → Option (BitVec 32)
  | .unsentUnlink u => some (toU32 u.seqnum)
  | _ => none

end StubEvent

/-- What a client may send: it numbers its requests apart from each other, and an unlink names
the number of one of its submits. -/
structure ClientTraffic (requests : List Request) : Prop where
  nodup : (requests.filterMap Request.submit ++ requests.filterMap Request.unlink).Nodup
  target : ∀ q t, .cmdUnlink q t ∈ requests → t ∈ requests.filterMap Request.submit

/-- No allocation fails. -/
def Allocated (_ : StubDevice) : Act → Prop
  | .rxPdu alloc => alloc = true
  | .complete _ _ alloc => alloc = true
  | _ => True

instance (s : StubDevice) (a : Act) : Decidable (Allocated s a) := by
  cases a <;> dsimp only [Allocated] <;> infer_instance

/-! ### The lists of a device -/

/-- The URB that the receive thread has built and not submitted yet. -/
def RxPc.pending : RxPc → List ℕ
  | .buildUrb id | .submitUrb id => [id]
  | _ => []

/-- The `stub_priv` records linked to a device. -/
def StubDevice.privs (s : StubDevice) : List StubPriv := s.privInit ++ s.privTx ++ s.privFree

/-- Each live record is on exactly one list, and it is on `priv_init` until its URB has
completed. -/
structure ListInv (s : StubDevice) : Prop where
  linked : (s.privs.map (·.id)).Perm s.live
  nodup : s.live.Nodup
  id_lt : ∀ id ∈ s.live, id < s.nextId
  inFlight_nodup : (s.rx.pending ++ s.inFlight).Nodup
  inFlight_init : ∀ id ∈ s.rx.pending ++ s.inFlight, id ∈ s.privInit.map (·.id)

namespace ListInv

variable {s s' : StubDevice}

/-- A step that moves records between lists, and leaves those of pending URBs on `priv_init`. -/
theorem move (h : ListInv s) (hprivs : (s'.privs.map (·.id)).Perm (s.privs.map (·.id)))
    (hlive : s'.live = s.live) (hid : s'.nextId = s.nextId)
    (hfl : (s'.rx.pending ++ s'.inFlight).Sublist (s.rx.pending ++ s.inFlight))
    (hinit : ∀ id ∈ s'.rx.pending ++ s'.inFlight, id ∈ s'.privInit.map (·.id)) :
    ListInv s' where
  linked := by rw [hlive]; exact hprivs.trans h.linked
  nodup := by rw [hlive]; exact h.nodup
  id_lt := by rw [hlive, hid]; exact h.id_lt
  inFlight_nodup := hfl.nodup h.inFlight_nodup
  inFlight_init := hinit

/-- A step that leaves the lists alone. -/
theorem frame (h : ListInv s) (hinit : s'.privInit.map (·.id) = s.privInit.map (·.id))
    (htx : s'.privTx = s.privTx) (hfree : s'.privFree = s.privFree) (hlive : s'.live = s.live)
    (hid : s'.nextId = s.nextId)
    (hfl : (s'.rx.pending ++ s'.inFlight).Sublist (s.rx.pending ++ s.inFlight)) :
    ListInv s' := by
  refine h.move ?_ hlive hid hfl fun id hmem => ?_
  · simp only [StubDevice.privs, List.map_append, hinit, htx, hfree, List.Perm.refl]
  · rw [hinit]
    exact h.inFlight_init id (hfl.subset hmem)

/-- Freeing what is on the last list leaves what is on the others. -/
private theorem perm_diff {l₁ l₂ l : List ℕ} (h : (l₁ ++ l₂).Perm l) : l₁.Perm (l.diff l₂) := by
  have hcomm : (l₂ ++ l₁).Perm l := List.perm_append_comm.trans h
  have hdiff : (l₂ ++ l.diff l₂).Perm l :=
    List.subperm_append_diff_self_of_count_le fun i _ =>
      ((List.sublist_append_left l₂ l₁).subperm.trans hcomm.subperm).count_le i
  exact (List.perm_append_left_iff l₂).mp (hcomm.trans hdiff.symm)

/-- `stub_enqueue_ret_unlink` does not touch the records. -/
theorem stubEnqueueRetUnlink (h : ListInv s) (q st : BitVec 32) (alloc : Bool) :
    ListInv (s.stubEnqueueRetUnlink q st alloc) := by
  rw [StubDevice.stubEnqueueRetUnlink]
  split <;> exact h.frame rfl rfl rfl rfl rfl (List.Sublist.refl _)

theorem stubPrivAlloc (h : ListInv s) (hrx : s.rx = .idle) (q : BitVec 32) (alloc : Bool) :
    ListInv (s.stubPrivAlloc q alloc) := by
  rw [StubDevice.stubPrivAlloc]
  split
  · have hfl : ∀ id ∈ s.inFlight, id ∈ s.privInit.map (·.id) := fun id hid =>
      h.inFlight_init id (List.mem_append_right _ hid)
    have hlt : ∀ id ∈ s.inFlight, id < s.nextId := fun id hid => by
      refine h.id_lt id (h.linked.subset ?_)
      rw [StubDevice.privs, List.append_assoc, List.map_append]
      exact List.mem_append_left _ (hfl id hid)
    have hnew : s.nextId ∉ s.live := fun hmem => absurd (h.id_lt _ hmem) (Nat.lt_irrefl _)
    refine ⟨?_, ?_, fun id hid => ?_, ?_, fun id hid => ?_⟩
    · refine List.Perm.trans (List.perm_iff_count.mpr fun i => ?_) (h.linked.append_right _)
      simp only [StubDevice.privs, List.map_append, List.count_append, List.map_cons,
        List.map_nil]
      omega
    · exact (List.nodup_append_comm.mp (List.nodup_cons.mpr ⟨hnew, h.nodup⟩))
    · rcases List.mem_append.mp hid with hid | hid
      · exact Nat.lt_succ_of_lt (h.id_lt id hid)
      · obtain rfl := List.mem_singleton.mp hid
        exact Nat.lt_succ_self _
    · have hfn : s.inFlight.Nodup := by simpa [hrx, RxPc.pending] using h.inFlight_nodup
      exact List.nodup_cons.mpr ⟨fun hmem => absurd (hlt _ hmem) (Nat.lt_irrefl _), hfn⟩
    · rw [List.map_append]
      rcases List.mem_append.mp hid with hid | hid
      · obtain rfl := List.mem_singleton.mp hid
        exact List.mem_append_right _ (by simp)
      · exact List.mem_append_left _ (hfl id hid)
  · refine h.frame rfl rfl rfl rfl rfl ?_
    simp [hrx]

theorem markUnlinking (h : ListInv s) {q t : BitVec 32} {pre post : List StubPriv} {p : StubPriv}
    (hl : s.privInit = pre ++ p :: post) : ListInv (s.markUnlinking q t pre p post) := by
  refine h.frame ?_ rfl rfl rfl rfl ?_
  · simp [StubDevice.markUnlinking, hl]
  · simp [StubDevice.markUnlinking, RxPc.pending]

/-- A completed URB is out of flight, and its record is not that of a pending URB. -/
theorem urbDone (h : ListInv s) {id : ℕ} (hid : id ∈ s.inFlight) :
    ListInv (s.urbDone id) ∧ ∀ i ∈ s.rx.pending ++ s.inFlight.erase id, i ≠ id := by
  refine ⟨h.frame rfl rfl rfl rfl rfl (List.erase_sublist.append_left _), fun i hi => ?_⟩
  obtain ⟨-, hfn, hdis⟩ := List.nodup_append'.mp h.inFlight_nodup
  rintro rfl
  rcases List.mem_append.mp hi with hi | hi
  · exact hdis hi hid
  · exact hfn.not_mem_erase hi

/-- What is left on `priv_init` has the records of all other pending URBs. -/
theorem rest_init (h : ListInv s) {id : ℕ} {pre post : List StubPriv} {p : StubPriv}
    (hid : id ∈ s.inFlight) (hl : s.privInit = pre ++ p :: post) (hpid : p.id = id) :
    ∀ i ∈ s.rx.pending ++ s.inFlight.erase id, i ∈ (pre ++ post).map (·.id) := by
  obtain ⟨hdone, hne⟩ := h.urbDone hid
  intro i hi
  have hmem : i ∈ (s.urbDone id).privInit.map (·.id) := hdone.inFlight_init i hi
  have hip := hne i hi
  simp only [StubDevice.urbDone, hl, List.map_append, List.map_cons, List.mem_append,
    List.mem_cons] at hmem ⊢
  rcases hmem with hmem | rfl | hmem
  · exact Or.inl hmem
  · exact absurd hpid hip
  · exact Or.inr hmem

/-- The record of a URB that was being unlinked is freed. -/
theorem completeUnlinking (h : ListInv s) {id : ℕ} {pre post : List StubPriv} {p : StubPriv}
    (hid : id ∈ s.inFlight) (hl : s.privInit = pre ++ p :: post) (hpid : p.id = id) (status : ℤ)
    (alloc : Bool) : ListInv ((s.urbDone id).completeUnlinking pre p post status alloc) := by
  obtain ⟨hdone, -⟩ := h.urbDone hid
  rw [StubDevice.completeUnlinking]
  refine stubEnqueueRetUnlink ?_ _ _ _
  have hperm : (p.id :: (pre ++ post ++ s.privTx ++ s.privFree).map (·.id)).Perm s.live := by
    refine List.Perm.trans (List.perm_iff_count.mpr fun i => ?_) h.linked
    simp only [StubDevice.privs, hl, List.map_append, List.count_append, List.map_cons,
      List.count_cons]
    omega
  have hlive : ((pre ++ post ++ s.privTx ++ s.privFree).map (·.id)).Perm (s.live.erase p.id) := by
    simpa using hperm.erase p.id
  exact ⟨hlive, h.nodup.erase _, fun i hi => h.id_lt i (List.mem_of_mem_erase hi),
    hdone.inFlight_nodup, h.rest_init hid hl hpid⟩

/-- Any other record moves to `priv_tx`. -/
theorem completeNormally (h : ListInv s) {id : ℕ} {pre post : List StubPriv} {p : StubPriv}
    (hid : id ∈ s.inFlight) (hl : s.privInit = pre ++ p :: post) (hpid : p.id = id) :
    ListInv ((s.urbDone id).completeNormally pre p post) := by
  obtain ⟨hdone, -⟩ := h.urbDone hid
  refine hdone.move (List.perm_iff_count.mpr fun i => ?_) rfl rfl (List.Sublist.refl _)
    (h.rest_init hid hl hpid)
  simp only [StubDevice.completeNormally, StubDevice.privs, StubDevice.urbDone, hl,
    List.map_append, List.count_append, List.map_cons, List.map_nil, List.count_cons,
    List.count_nil]
  omega

/-- Every step keeps the records linked. -/
theorem step (h : ListInv s) {a : Act} (hs : s.step a = some s') : ListInv s' := by
  have hread : ∀ rest, ListInv { s with input := rest } := fun rest =>
    h.frame rfl rfl rfl rfl rfl (List.Sublist.refl _)
  cases StubDevice.moves_of_step hs with
  | @cmdSubmit q rest hrx hin alloc => exact (hread rest).stubPrivAlloc hrx q alloc
  | @cmdUnlinkFound q t rest pre post p hrx hin hwalk alloc =>
    obtain ⟨hl, -, -⟩ := findSplit_eq_some hwalk
    exact (hread rest).markUnlinking hl
  | @cmdUnlinkMissed q t rest hrx hin hwalk alloc =>
    refine stubEnqueueRetUnlink ?_ _ _ _
    exact (hread rest).frame rfl rfl rfl rfl rfl (List.Sublist.refl _)
  | invalid hrx hin alloc => exact h.frame rfl rfl rfl rfl rfl (List.Sublist.refl _)
  | built hrx | notBuilt hrx | notSubmitted hrx | unlinkUrb hrx | rxStop hrx hevent =>
    exact h.frame rfl rfl rfl rfl rfl (by simp [hrx, RxPc.pending])
  | @submitted id hrx =>
    -- the pending URB is in flight now
    have hperm : (s.inFlight ++ [id]).Perm (s.rx.pending ++ s.inFlight) := by
      rw [hrx]
      exact List.perm_append_comm
    exact ⟨h.linked, h.nodup, h.id_lt, hperm.nodup_iff.mpr h.inFlight_nodup,
      fun i hi => h.inFlight_init i (hperm.mem_iff.mp hi)⟩
  | killed hid alloc => exact (h.urbDone hid).1
  | unlinked hid hstatus hwalk hunl alloc =>
    obtain ⟨hl, hpid, -⟩ := findSplit_eq_some hwalk
    exact h.completeUnlinking hid hl (by simpa using hpid) _ alloc
  | completed hid hstatus hwalk hunl alloc =>
    obtain ⟨hl, hpid, -⟩ := findSplit_eq_some hwalk
    exact h.completeNormally hid hl (by simpa using hpid)
  | @submitTaken p rest htx hp =>
    refine h.move ?_ rfl rfl (List.Sublist.refl _) h.inFlight_init
    refine List.Perm.map _ ?_
    simp only [StubDevice.privs, hp, List.append_assoc]
    refine List.Perm.append_left _ ?_
    rw [← List.append_assoc]
    exact List.perm_append_singleton p (rest ++ s.privFree)
  | freePrivs htx =>
    have hperm : ((s.privInit ++ s.privTx).map (·.id)).Perm
        (s.live.diff (s.privFree.map (·.id))) :=
      perm_diff (by simpa [StubDevice.privs] using h.linked)
    refine ⟨?_, (List.diff_sublist _ _).nodup h.nodup,
      fun i hi => h.id_lt i ((List.diff_sublist _ _).subset hi), h.inFlight_nodup,
      h.inFlight_init⟩
    simpa [StubDevice.privs] using hperm
  | submitsDone htx hempty | retSubmit htx | unsentSubmit htx | unlinksDone htx hempty
  | unlinkTaken htx hu | retUnlink htx | unsentUnlink htx | freeUnlinks htx | txStop htx hevent
  | txWake htx hevent => exact h.frame rfl rfl rfl rfl rfl (List.Sublist.refl _)

/-- The records are linked in every state of a connection. -/
theorem of_reachable {requests : List Request} (h : (stubDevice requests).Reachable s) :
    ListInv s := by
  refine h.invariant ⟨?_, ?_, ?_, ?_, ?_⟩ fun s a s' hs _ hstep => hs.step hstep
  all_goals simp [stubDevice, connected, StubDevice.privs, RxPc.pending]

end ListInv

/-! ### What is owed, answered and given up -/

/-- How often a history mentions a number in one role. -/
def seen (f : StubEvent → Option (BitVec 32)) (log : List StubEvent) (q : BitVec 32) : ℕ :=
  (log.filterMap f).count q

@[simp] theorem seen_nil (f : StubEvent → Option (BitVec 32)) (q : BitVec 32) :
    seen f [] q = 0 := rfl

@[simp] theorem seen_cons (f : StubEvent → Option (BitVec 32)) (e : StubEvent)
    (log : List StubEvent) (q : BitVec 32) :
    seen f (e :: log) q = (f e).toList.count q + seen f log q := by
  cases h : f e with
  | none => simp [seen, h]
  | some n => simp [seen, h, List.count_cons, Nat.add_comm]

@[simp] theorem seen_append (f : StubEvent → Option (BitVec 32)) (log log' : List StubEvent)
    (q : BitVec 32) : seen f (log ++ log') q = seen f log q + seen f log' q := by
  simp [seen]

theorem seen_pos {f : StubEvent → Option (BitVec 32)} {log : List StubEvent} {q : BitVec 32} :
    0 < seen f log q ↔ q ∈ log.filterMap f :=
  List.count_pos_iff

/-- The entry that the transmit thread is writing. -/
def TxPc.sendingSubmit : TxPc → List StubPriv
  | .sendSubmit p => [p]
  | _ => []

/-- The unlink that the transmit thread is writing. -/
def TxPc.sendingUnlink : TxPc → List StubUnlink
  | .sendUnlink u => [u]
  | _ => []

namespace StubDevice

/-- The numbers of the RET_SUBMITs to come. -/
def owedSubmits (s : StubDevice) : List (BitVec 32) :=
  (s.privInit.filter (fun p => !p.unlinking) ++ s.privTx ++ s.tx.sendingSubmit).map
    fun p => toU32 p.seqnum

/-- The numbers of the RET_UNLINKs to come. -/
def owedUnlinks (s : StubDevice) : List (BitVec 32) :=
  (s.privInit.filter (fun p => p.unlinking)).map (fun p => toU32 p.seqnum) ++
    (s.unlinkTx ++ s.tx.sendingUnlink).map fun u => toU32 u.seqnum

/-- All queues are empty. -/
def Drained (s : StubDevice) : Prop :=
  s.privInit = [] ∧ s.privTx = [] ∧ s.privFree = [] ∧ s.unlinkTx = [] ∧ s.unlinkFree = []

end StubDevice

/-- The balance of requests and replies. `wide` says that the numbers on `priv_init` come from
32-bit fields, and the last two fields that an entry whose reply is being written or was given
up is still on `priv_free` or `unlink_free`. -/
structure ReplyInv (requests : List Request) (s : StubDevice) : Prop where
  read : ∃ done, requests = done ++ s.input ∧
    s.log.filterMap StubEvent.submit = done.filterMap Request.submit ∧
    s.log.filterMap StubEvent.unlink = done.filterMap Request.unlink
  wide : ∀ p ∈ s.privInit, ofU32 (toU32 p.seqnum) = p.seqnum
  submits : ∀ q, s.owedSubmits.count q + seen StubEvent.submitReply s.log q +
    seen StubEvent.conversion s.log q + seen StubEvent.submitGivenUp s.log q =
      seen StubEvent.submit s.log q
  unlinks : ∀ q, s.owedUnlinks.count q + seen StubEvent.unlinkReply s.log q +
    seen StubEvent.unlinkGivenUp s.log q = seen StubEvent.unlink s.log q
  unsentSubmit : s.privFree = [] →
    s.tx.sendingSubmit = [] ∧ s.log.filterMap StubEvent.submitGivenUp = []
  unsentUnlink : s.unlinkFree = [] →
    s.tx.sendingUnlink = [] ∧ s.log.filterMap StubEvent.unlinkGivenUp = []
  running : s.tx ≠ .stopped → s.log.filterMap StubEvent.submitGivenUp = [] ∧
    s.log.filterMap StubEvent.unlinkGivenUp = []

namespace ReplyInv

variable {requests : List Request} {s s' : StubDevice}

/-- A step that touches neither the queues nor the history. -/
theorem frame (h : ReplyInv requests s) (hin : s'.input = s.input)
    (hinit : s'.privInit = s.privInit) (hptx : s'.privTx = s.privTx)
    (hpf : s'.privFree = s.privFree) (hutx : s'.unlinkTx = s.unlinkTx)
    (huf : s'.unlinkFree = s.unlinkFree) (htx : s'.tx = s.tx) (hlog : s'.log = s.log) :
    ReplyInv requests s' := by
  refine ⟨?_, ?_, fun q => ?_, fun q => ?_, ?_, ?_, ?_⟩
  · rw [hin, hlog]; exact h.read
  · rw [hinit]; exact h.wide
  · rw [StubDevice.owedSubmits, hinit, hptx, htx, hlog]; exact h.submits q
  · rw [StubDevice.owedUnlinks, hinit, hutx, htx, hlog]; exact h.unlinks q
  · rw [hpf, htx, hlog]; exact h.unsentSubmit
  · rw [huf, htx, hlog]; exact h.unsentUnlink
  · rw [htx, hlog]; exact h.running

/-- A number on `priv_init` that was taken over from a CMD_UNLINK is not the number of a
CMD_SUBMIT, so what a CMD_UNLINK finds there is not being unlinked yet. -/
theorem unlinking_eq_false (h : ReplyInv requests s) (hreq : ClientTraffic requests)
    {q t : BitVec 32} {rest : List Request} (hin : s.input = .cmdUnlink q t :: rest)
    {p : StubPriv} (hp : p ∈ s.privInit) (ht : p.seqnum = ofU32 t) : p.unlinking = false := by
  obtain ⟨done, hdone, -, hun⟩ := h.read
  refine Bool.eq_false_iff.mpr fun hunl => ?_
  have htarget : t ∈ requests.filterMap Request.submit :=
    hreq.target q t (by rw [hdone, hin]; simp)
  have howed : t ∈ s.owedUnlinks := by
    refine List.mem_append_left _ (List.mem_map.mpr ⟨p, List.mem_filter.mpr ⟨hp, hunl⟩, ?_⟩)
    rw [ht, toU32_ofU32]
  have hseen : t ∈ s.log.filterMap StubEvent.unlink := by
    have hcount := h.unlinks t
    have hpos := List.count_pos_iff.mpr howed
    exact seen_pos.mp (by omega)
  have hunlink : t ∈ requests.filterMap Request.unlink := by
    rw [hdone, List.filterMap_append, ← hun]
    exact List.mem_append_left _ hseen
  exact (List.nodup_append'.mp hreq.nodup).2.2 htarget hunlink

/-- The receive thread takes a request and notes it under its number: the two balances of the
new state are all that is left to show. -/
theorem received (h : ReplyInv requests s) {r : Request} {rest : List Request}
    {events : List StubEvent} (hin : s.input = r :: rest) (hin' : s'.input = rest)
    (hlog : s'.log = s.log ++ events)
    (hsub : events.filterMap StubEvent.submit = [r].filterMap Request.submit)
    (hunl : events.filterMap StubEvent.unlink = [r].filterMap Request.unlink)
    (hgive : events.filterMap StubEvent.submitGivenUp = [] ∧
      events.filterMap StubEvent.unlinkGivenUp = [])
    (htx : s'.tx = s.tx) (hpf : s'.privFree = s.privFree) (huf : s'.unlinkFree = s.unlinkFree)
    (hwide : ∀ p ∈ s'.privInit, ofU32 (toU32 p.seqnum) = p.seqnum)
    (hsubmits : ∀ q, s'.owedSubmits.count q + seen StubEvent.submitReply s'.log q +
      seen StubEvent.conversion s'.log q + seen StubEvent.submitGivenUp s'.log q =
        seen StubEvent.submit s'.log q)
    (hunlinks : ∀ q, s'.owedUnlinks.count q + seen StubEvent.unlinkReply s'.log q +
      seen StubEvent.unlinkGivenUp s'.log q = seen StubEvent.unlink s'.log q) :
    ReplyInv requests s' := by
  obtain ⟨done, hdone, hs, hu⟩ := h.read
  refine ⟨⟨done ++ [r], ?_, ?_, ?_⟩, hwide, hsubmits, hunlinks, ?_, ?_, ?_⟩
  · rw [hdone, hin, hin', List.append_assoc, List.singleton_append]
  · rw [hlog, List.filterMap_append, List.filterMap_append, hs, hsub]
  · rw [hlog, List.filterMap_append, List.filterMap_append, hu, hunl]
  · rw [hpf, htx, hlog, List.filterMap_append, hgive.1, List.append_nil]
    exact h.unsentSubmit
  · rw [huf, htx, hlog, List.filterMap_append, hgive.2, List.append_nil]
    exact h.unsentUnlink
  · rw [htx, hlog, List.filterMap_append, List.filterMap_append, hgive.1, hgive.2,
      List.append_nil, List.append_nil]
    exact h.running

/-- A CMD_SUBMIT adds one RET_SUBMIT to what is owed. -/
theorem cmdSubmit (h : ReplyInv requests s) {q : BitVec 32} {rest : List Request}
    (hin : s.input = .cmdSubmit q :: rest) :
    ReplyInv requests ({ s with input := rest }.stubPrivAlloc q true) := by
  refine h.received hin rfl rfl rfl rfl ⟨rfl, rfl⟩ rfl rfl rfl ?_ (fun n => ?_) fun n => ?_
  · simpa [StubDevice.stubPrivAlloc, or_imp, forall_and] using h.wide
  · have hn := h.submits n
    simp [StubDevice.stubPrivAlloc, StubDevice.owedSubmits, List.count_cons] at hn ⊢
    omega
  · have hn := h.unlinks n
    simpa [StubDevice.stubPrivAlloc, StubDevice.owedUnlinks] using hn

/-- A CMD_UNLINK that finds its `stub_priv` turns one RET_SUBMIT that is owed into a
RET_UNLINK. -/
theorem cmdUnlinkFound (h : ReplyInv requests s) (hreq : ClientTraffic requests)
    {q t : BitVec 32} {rest : List Request} {pre post : List StubPriv} {p : StubPriv}
    (hin : s.input = .cmdUnlink q t :: rest)
    (hwalk : findSplit (fun p => p.seqnum == ofU32 t) s.privInit = some (pre, p, post)) :
    ReplyInv requests ({ s with input := rest }.markUnlinking q t pre p post) := by
  obtain ⟨hl, hpt, -⟩ := findSplit_eq_some hwalk
  have hpt : p.seqnum = ofU32 t := by simpa using hpt
  have hp : p ∈ s.privInit := by simp [hl]
  have hunl := h.unlinking_eq_false hreq hin hp hpt
  refine h.received hin rfl rfl rfl rfl ⟨rfl, rfl⟩ rfl rfl rfl ?_ (fun n => ?_) fun n => ?_
  · have hw := h.wide
    simp [StubDevice.markUnlinking, hl, or_imp, forall_and] at hw ⊢
    exact ⟨hw.1, hw.2.2⟩
  · have hn := h.submits n
    simp [StubDevice.markUnlinking, StubDevice.owedSubmits, hl, hunl, List.count_cons] at hn ⊢
    omega
  · have hn := h.unlinks n
    simp [StubDevice.markUnlinking, StubDevice.owedUnlinks, hl, hunl, List.count_cons] at hn ⊢
    omega

/-- A CMD_UNLINK that finds nothing adds one RET_UNLINK to what is owed. -/
theorem cmdUnlinkMissed (h : ReplyInv requests s) {q t : BitVec 32} {rest : List Request}
    (hin : s.input = .cmdUnlink q t :: rest) :
    ReplyInv requests
      (({ s with input := rest }.note (.cmdUnlink q t)).stubEnqueueRetUnlink q 0 true) := by
  refine h.received hin rfl rfl rfl rfl ⟨rfl, rfl⟩ rfl rfl rfl h.wide (fun n => ?_) fun n => ?_
  · have hn := h.submits n
    simpa [StubDevice.stubEnqueueRetUnlink, StubDevice.note, StubDevice.owedSubmits] using hn
  · have hn := h.unlinks n
    simp [StubDevice.stubEnqueueRetUnlink, StubDevice.note, StubDevice.owedUnlinks,
      List.count_cons] at hn ⊢
    omega

/-- The receive thread takes a request. -/
theorem rxPdu (h : ReplyInv requests s) (hreq : ClientTraffic requests)
    (hm : s.Moves (.rxPdu true) s') : ReplyInv requests s' := by
  cases hm with
  | cmdSubmit hrx hin => exact h.cmdSubmit hin
  | cmdUnlinkFound hrx hin hwalk => exact h.cmdUnlinkFound hreq hin hwalk
  | cmdUnlinkMissed hrx hin hwalk => exact h.cmdUnlinkMissed hin
  | invalid hrx hin =>
    exact h.received hin rfl (List.append_nil _).symm rfl rfl ⟨rfl, rfl⟩ rfl rfl rfl h.wide
      h.submits h.unlinks

/-- A URB completes. -/
theorem complete (h : ReplyInv requests s) {id : ℕ} {status : ℤ}
    (hm : s.Moves (.complete id status true) s') : ReplyInv requests s' := by
  have hdone : ReplyInv requests (s.urbDone id) := h.frame rfl rfl rfl rfl rfl rfl rfl rfl
  have hwide : ∀ pre p post, s.privInit = pre ++ p :: post → ∀ r ∈ pre ++ post,
      ofU32 (toU32 r.seqnum) = r.seqnum := by
    intro pre p post hl r hr
    refine h.wide r ?_
    rcases List.mem_append.mp hr with hr | hr <;> simp [hl, hr]
  cases hm with
  | killed hid => exact hdone
  | @unlinked _ _ pre post p hid hstatus hwalk hunl =>
    obtain ⟨hl, -, -⟩ := findSplit_eq_some hwalk
    refine ⟨h.read, hwide pre p post hl, fun n => ?_, fun n => ?_, h.unsentSubmit, h.unsentUnlink,
      h.running⟩
    · have hn := h.submits n
      simpa [StubDevice.completeUnlinking, StubDevice.stubEnqueueRetUnlink, StubDevice.urbDone,
        StubDevice.owedSubmits, hl, hunl] using hn
    · have hn := h.unlinks n
      simp [StubDevice.completeUnlinking, StubDevice.stubEnqueueRetUnlink, StubDevice.urbDone,
        StubDevice.owedUnlinks, hl, hunl, List.count_cons] at hn ⊢
      omega
  | @completed _ _ pre post p hid hstatus hwalk hunl =>
    obtain ⟨hl, -, -⟩ := findSplit_eq_some hwalk
    have hread := h.read
    refine ⟨?_, hwide pre p post hl, fun n => ?_, fun n => ?_, ?_, ?_, ?_⟩
    · simpa [StubDevice.completeNormally, StubDevice.urbDone, List.filterMap_cons] using hread
    · have hn := h.submits n
      simp [StubDevice.completeNormally, StubDevice.urbDone, StubDevice.owedSubmits, hl, hunl,
        List.count_cons] at hn ⊢
      omega
    · have hn := h.unlinks n
      simpa [StubDevice.completeNormally, StubDevice.urbDone, StubDevice.owedUnlinks, hl, hunl]
        using hn
    · simpa [StubDevice.completeNormally, StubDevice.urbDone] using h.unsentSubmit
    · simpa [StubDevice.completeNormally, StubDevice.urbDone] using h.unsentUnlink
    · simpa [StubDevice.completeNormally, StubDevice.urbDone] using h.running

/-- The transmit thread moves on, with nothing in its hands before and after. -/
theorem advance (h : ReplyInv requests s) (hin : s'.input = s.input)
    (hinit : s'.privInit = s.privInit) (hptx : s'.privTx = s.privTx)
    (hutx : s'.unlinkTx = s.unlinkTx) (hlog : s'.log = s.log) (hrun : s.tx ≠ .stopped)
    (hsend : s.tx.sendingSubmit = [] ∧ s.tx.sendingUnlink = [])
    (hsend' : s'.tx.sendingSubmit = [] ∧ s'.tx.sendingUnlink = []) : ReplyInv requests s' := by
  refine ⟨?_, ?_, fun q => ?_, fun q => ?_, fun _ => ⟨hsend'.1, ?_⟩, fun _ => ⟨hsend'.2, ?_⟩,
    fun _ => ?_⟩
  · rw [hin, hlog]; exact h.read
  · rw [hinit]; exact h.wide
  · have hq := h.submits q
    rw [StubDevice.owedSubmits, hsend.1] at hq
    rw [StubDevice.owedSubmits, hsend'.1, hinit, hptx, hlog]
    exact hq
  · have hq := h.unlinks q
    rw [StubDevice.owedUnlinks, hsend.2] at hq
    rw [StubDevice.owedUnlinks, hsend'.2, hinit, hutx, hlog]
    exact hq
  all_goals rw [hlog]
  · exact (h.running hrun).1
  · exact (h.running hrun).2
  · exact h.running hrun

theorem takeSubmit (h : ReplyInv requests s) {p : StubPriv} {rest : List StubPriv}
    (htx : s.tx = .submitLoop) (hp : s.privTx = p :: rest) :
    ReplyInv requests
      { s with privTx := rest, privFree := s.privFree ++ [p], tx := .sendSubmit p } := by
  have hrun : s.tx ≠ .stopped := by simp [htx]
  refine ⟨h.read, h.wide, fun n => ?_, fun n => ?_, fun hf => by simp at hf, fun _ => ⟨rfl, ?_⟩,
    fun _ => h.running hrun⟩
  · have hn := h.submits n
    simp [StubDevice.owedSubmits, TxPc.sendingSubmit, htx, hp, List.count_cons] at hn ⊢
    omega
  · have hn := h.unlinks n
    simpa [StubDevice.owedUnlinks, TxPc.sendingUnlink, htx] using hn
  · exact (h.running hrun).2

/-- The entry of a RET_SUBMIT that is being written is on `priv_free`. -/
theorem privFree_ne_nil (h : ReplyInv requests s) {p : StubPriv} (htx : s.tx = .sendSubmit p) :
    s.privFree ≠ [] := fun hf => by
  simpa [htx, TxPc.sendingSubmit] using (h.unsentSubmit hf).1

theorem retSubmit (h : ReplyInv requests s) {p : StubPriv} (htx : s.tx = .sendSubmit p) :
    ReplyInv requests { s with tx := .submitLoop, log := s.log ++ [.retSubmit p] } := by
  have hrun : s.tx ≠ .stopped := by simp [htx]
  refine ⟨?_, h.wide, fun n => ?_, fun n => ?_, fun hf => absurd hf (h.privFree_ne_nil htx),
    fun _ => ⟨rfl, ?_⟩, fun _ => ?_⟩
  · simpa [List.filterMap_cons] using h.read
  · have hn := h.submits n
    simp [StubDevice.owedSubmits, TxPc.sendingSubmit, htx, List.count_cons] at hn ⊢
    omega
  · have hn := h.unlinks n
    simpa [StubDevice.owedUnlinks, TxPc.sendingUnlink, htx] using hn
  · simpa using (h.running hrun).2
  · simpa using h.running hrun

theorem unsentSubmit_step (h : ReplyInv requests s) {p : StubPriv} (htx : s.tx = .sendSubmit p) :
    ReplyInv requests
      { s with event := true, tx := .stopped, log := s.log ++ [.unsentSubmit p] } := by
  have hrun : s.tx ≠ .stopped := by simp [htx]
  refine ⟨?_, h.wide, fun n => ?_, fun n => ?_, fun hf => absurd hf (h.privFree_ne_nil htx),
    fun _ => ⟨rfl, ?_⟩, fun hst => absurd rfl hst⟩
  · simpa [List.filterMap_cons] using h.read
  · have hn := h.submits n
    simp [StubDevice.owedSubmits, TxPc.sendingSubmit, htx, List.count_cons] at hn ⊢
    omega
  · have hn := h.unlinks n
    simpa [StubDevice.owedUnlinks, TxPc.sendingUnlink, htx] using hn
  · simpa using (h.running hrun).2

theorem takeUnlink (h : ReplyInv requests s) {u : StubUnlink} {rest : List StubUnlink}
    (htx : s.tx = .unlinkLoop) (hu : s.unlinkTx = u :: rest) :
    ReplyInv requests
      { s with unlinkTx := rest, unlinkFree := s.unlinkFree ++ [u], tx := .sendUnlink u } := by
  have hrun : s.tx ≠ .stopped := by simp [htx]
  refine ⟨h.read, h.wide, fun n => ?_, fun n => ?_, fun _ => ⟨rfl, ?_⟩, fun hf => by simp at hf,
    fun _ => h.running hrun⟩
  · have hn := h.submits n
    simpa [StubDevice.owedSubmits, TxPc.sendingSubmit, htx] using hn
  · have hn := h.unlinks n
    simp [StubDevice.owedUnlinks, TxPc.sendingUnlink, htx, hu, List.count_cons] at hn ⊢
    omega
  · exact (h.running hrun).1

theorem unlinkFree_ne_nil (h : ReplyInv requests s) {u : StubUnlink} (htx : s.tx = .sendUnlink u) :
    s.unlinkFree ≠ [] := fun hf => by
  simpa [htx, TxPc.sendingUnlink] using (h.unsentUnlink hf).1

theorem retUnlink (h : ReplyInv requests s) {u : StubUnlink} (htx : s.tx = .sendUnlink u) :
    ReplyInv requests { s with tx := .unlinkLoop, log := s.log ++ [.retUnlink u] } := by
  have hrun : s.tx ≠ .stopped := by simp [htx]
  refine ⟨?_, h.wide, fun n => ?_, fun n => ?_, fun _ => ⟨rfl, ?_⟩,
    fun hf => absurd hf (h.unlinkFree_ne_nil htx), fun _ => ?_⟩
  · simpa [List.filterMap_cons] using h.read
  · have hn := h.submits n
    simpa [StubDevice.owedSubmits, TxPc.sendingSubmit, htx] using hn
  · have hn := h.unlinks n
    simp [StubDevice.owedUnlinks, TxPc.sendingUnlink, htx, List.count_cons] at hn ⊢
    omega
  · simpa using (h.running hrun).1
  · simpa using h.running hrun

theorem unsentUnlink_step (h : ReplyInv requests s) {u : StubUnlink} (htx : s.tx = .sendUnlink u) :
    ReplyInv requests
      { s with event := true, tx := .stopped, log := s.log ++ [.unsentUnlink u] } := by
  have hrun : s.tx ≠ .stopped := by simp [htx]
  refine ⟨?_, h.wide, fun n => ?_, fun n => ?_, fun _ => ⟨rfl, ?_⟩,
    fun hf => absurd hf (h.unlinkFree_ne_nil htx), fun hst => absurd rfl hst⟩
  · simpa [List.filterMap_cons] using h.read
  · have hn := h.submits n
    simpa [StubDevice.owedSubmits, TxPc.sendingSubmit, htx] using hn
  · have hn := h.unlinks n
    simp [StubDevice.owedUnlinks, TxPc.sendingUnlink, htx, List.count_cons] at hn ⊢
    omega
  · simpa using (h.running hrun).1

/-- Every step without an allocation failure keeps the balance. -/
theorem step (h : ReplyInv requests s) (hreq : ClientTraffic requests) {a : Act}
    (hok : Allocated s a) (hs : s.step a = some s') : ReplyInv requests s' := by
  have hm := StubDevice.moves_of_step hs
  cases a with
  | rxPdu alloc =>
    obtain rfl : alloc = true := hok
    exact h.rxPdu hreq hm
  | complete id status alloc =>
    obtain rfl : alloc = true := hok
    exact h.complete hm
  | rxBuild ok | rxSubmit ok | rxUnlinkUrb | rxStop =>
    cases hm <;> exact h.frame rfl rfl rfl rfl rfl rfl rfl rfl
  | txDequeueSubmit =>
    cases hm with
    | submitsDone htx hempty =>
      exact h.advance rfl rfl rfl rfl rfl (by simp [htx])
        (by simp [htx, TxPc.sendingSubmit, TxPc.sendingUnlink])
        (by simp [TxPc.sendingSubmit, TxPc.sendingUnlink])
    | submitTaken htx hp => exact h.takeSubmit htx hp
  | txSendSubmit ok =>
    cases hm with
    | retSubmit htx => exact h.retSubmit htx
    | unsentSubmit htx => exact h.unsentSubmit_step htx
  | txDequeueUnlink =>
    cases hm with
    | unlinksDone htx hempty =>
      exact h.advance rfl rfl rfl rfl rfl (by simp [htx])
        (by simp [htx, TxPc.sendingSubmit, TxPc.sendingUnlink])
        (by simp [TxPc.sendingSubmit, TxPc.sendingUnlink])
    | unlinkTaken htx hu => exact h.takeUnlink htx hu
  | txSendUnlink ok =>
    cases hm with
    | retUnlink htx => exact h.retUnlink htx
    | unsentUnlink htx => exact h.unsentUnlink_step htx
  | txFreePrivs =>
    cases hm with
    | freePrivs htx =>
      exact h.advance rfl rfl rfl rfl rfl (by simp [htx])
        (by simp [htx, TxPc.sendingSubmit, TxPc.sendingUnlink])
        (by simp [TxPc.sendingSubmit, TxPc.sendingUnlink])
  | txFreeUnlinks =>
    cases hm with
    | freeUnlinks htx =>
      exact h.advance rfl rfl rfl rfl rfl (by simp [htx])
        (by simp [htx, TxPc.sendingSubmit, TxPc.sendingUnlink])
        (by simp [TxPc.sendingSubmit, TxPc.sendingUnlink])
  | txWake =>
    cases hm with
    | txStop htx hevent | txWake htx hevent =>
      exact h.advance rfl rfl rfl rfl rfl (by simp [htx])
        (by simp [htx, TxPc.sendingSubmit, TxPc.sendingUnlink])
        (by simp [TxPc.sendingSubmit, TxPc.sendingUnlink])

/-- The balance holds in every state reached without an allocation failure. -/
theorem of_reachableWhere (hreq : ClientTraffic requests)
    (h : (stubDevice requests).ReachableWhere Allocated s) : ReplyInv requests s := by
  refine h.invariant ⟨⟨[], ?_, ?_, ?_⟩, ?_, ?_, ?_, ?_, ?_, ?_⟩
    fun s a s' hs hok hstep => hs.step hreq hok hstep
  all_goals simp [stubDevice, connected, StubDevice.owedSubmits, StubDevice.owedUnlinks,
    TxPc.sendingSubmit, TxPc.sendingUnlink]

/-- No number is received twice. -/
theorem seen_submit_le (h : ReplyInv requests s) (hreq : ClientTraffic requests)
    (q : BitVec 32) : seen StubEvent.submit s.log q ≤ 1 := by
  obtain ⟨done, hdone, hsub, -⟩ := h.read
  have hnd := (List.nodup_append'.mp hreq.nodup).1
  rw [hdone, List.filterMap_append] at hnd
  rw [seen, hsub]
  exact List.nodup_iff_count_le_one.mp (List.nodup_append'.mp hnd).1 q

theorem seen_unlink_le (h : ReplyInv requests s) (hreq : ClientTraffic requests)
    (q : BitVec 32) : seen StubEvent.unlink s.log q ≤ 1 := by
  obtain ⟨done, hdone, -, hun⟩ := h.read
  have hnd := (List.nodup_append'.mp hreq.nodup).2.1
  rw [hdone, List.filterMap_append] at hnd
  rw [seen, hun]
  exact List.nodup_iff_count_le_one.mp (List.nodup_append'.mp hnd).1 q

/-- When all queues are empty nothing is owed and nothing was given up. -/
theorem drained (h : ReplyInv requests s) (hd : s.Drained) (q : BitVec 32) :
    seen StubEvent.submitReply s.log q + seen StubEvent.conversion s.log q =
        seen StubEvent.submit s.log q ∧
      seen StubEvent.unlinkReply s.log q = seen StubEvent.unlink s.log q := by
  obtain ⟨hinit, hptx, hpf, hutx, huf⟩ := hd
  obtain ⟨hs1, hs2⟩ := h.unsentSubmit hpf
  obtain ⟨hu1, hu2⟩ := h.unsentUnlink huf
  have hsub := h.submits q
  have hun := h.unlinks q
  simp only [StubDevice.owedSubmits, StubDevice.owedUnlinks, seen, hinit, hptx, hutx, hs1, hs2,
    hu1, hu2, List.filter_nil, List.append_nil, List.map_nil, List.count_nil] at hsub hun ⊢
  omega

end ReplyInv

/-! ### Conservation -/

/-- What the history of a connection says about its requests: no number is answered that was
not received, each request is answered at most once, exactly once when all queues are empty;
for a CMD_SUBMIT, being taken over by a CMD_UNLINK counts as its answer. -/
structure AnsweredOnce (s : StubDevice) : Prop where
  submit_le : ∀ q, seen StubEvent.submitReply s.log q + seen StubEvent.conversion s.log q ≤
    seen StubEvent.submit s.log q
  submit_le_one : ∀ q, seen StubEvent.submit s.log q ≤ 1
  unlink_le : ∀ q, seen StubEvent.unlinkReply s.log q ≤ seen StubEvent.unlink s.log q
  unlink_le_one : ∀ q, seen StubEvent.unlink s.log q ≤ 1
  drained : s.Drained → ∀ q,
    seen StubEvent.submitReply s.log q + seen StubEvent.conversion s.log q =
        seen StubEvent.submit s.log q ∧
      seen StubEvent.unlinkReply s.log q = seen StubEvent.unlink s.log q

/-- **Every request is answered once, and every live `stub_priv` is on exactly one list**, in
every state that a connection reaches without an allocation failure. -/
theorem answered_once {requests : List Request} (hreq : ClientTraffic requests) {s : StubDevice}
    (h : (stubDevice requests).ReachableWhere Allocated s) :
    AnsweredOnce s ∧ ((s.privInit ++ s.privTx ++ s.privFree).map (·.id)).Nodup ∧
      ∀ id, id ∈ s.live ↔ id ∈ (s.privInit ++ s.privTx ++ s.privFree).map (·.id) := by
  have hinv := ReplyInv.of_reachableWhere hreq h
  have hlist := ListInv.of_reachable h.reachable
  refine ⟨⟨fun q => ?_, hinv.seen_submit_le hreq, fun q => ?_, hinv.seen_unlink_le hreq,
    hinv.drained⟩, hlist.linked.nodup_iff.mpr hlist.nodup, fun id => hlist.linked.mem_iff.symm⟩
  · have hq := hinv.submits q
    omega
  · have hq := hinv.unlinks q
    omega

/-- The requests of `unlinkRun`. -/
def unlinkRequests : List Request := [.cmdSubmit 1, .cmdSubmit 2, .cmdUnlink 3 2, .cmdUnlink 4 1]

/-- The first URB completes before its CMD_UNLINK is read, the second is found in `priv_init`;
then all queues are drained. -/
def unlinkRun : List Act :=
  [.rxPdu true, .rxBuild true, .rxSubmit true, .rxPdu true, .rxBuild true, .rxSubmit true,
    .rxPdu true, .complete 0 0 true, .rxUnlinkUrb, .rxPdu true, .txDequeueSubmit,
    .complete 1 econnreset true, .txSendSubmit true, .txDequeueSubmit, .txFreePrivs,
    .txDequeueUnlink, .txSendUnlink true, .txDequeueUnlink, .txSendUnlink true,
    .txDequeueUnlink, .txFreeUnlinks]

theorem answered_once_unlinkRun :
    ∃ s, (stubDevice unlinkRequests).runWhere Allocated (connected unlinkRequests) unlinkRun =
        some s ∧
      (AnsweredOnce s ∧ ((s.privInit ++ s.privTx ++ s.privFree).map (·.id)).Nodup ∧
        ∀ id, id ∈ s.live ↔ id ∈ (s.privInit ++ s.privTx ++ s.privFree).map (·.id)) :=
  Machine.exists_runWhere (m := stubDevice unlinkRequests) (by decide) fun _ h =>
    answered_once ⟨by decide, fun q t hmem => by
      simp only [unlinkRequests, List.mem_cons, Request.cmdUnlink.injEq, reduceCtorEq, false_or,
        List.not_mem_nil, or_false] at hmem
      rcases hmem with ⟨-, rfl⟩ | ⟨-, rfl⟩ <;> decide⟩ h

end Usbip.Stub
