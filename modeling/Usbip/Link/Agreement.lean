import Usbip.Link.Answers

/-!
# The two ends agree

What holds of a port and its device across every interleaving of a healthy connection (`LinkInv`),
and what follows from it:

* `replies_find_requests`: every reply on its way finds its request waiting, so neither side ever
  reports an event: the protocol by itself does not tear a connection down;
* `served_urbs_pending`: a URB that the device still works on, unlinked or not, is still pending at
  the port, and the core waits for it.

The first uses that the device writes no RET_SUBMIT after the RET_UNLINK of a CMD_UNLINK that names
the same URB (`Stub.NotSettled`): such a RET_SUBMIT would find nothing.
-/

namespace Usbip.Link

open Trace
open Vhci (CmdPdu VhciPriv VhciUnlink UnlinkOf ClientInv Port outstanding)
open Vhci.Port (wireSeqnum)
open Stub (Request StubEvent StubDevice ServerInv toU32 ofU32)

/-! ### The replies and the history of the device -/

/-- The number of a RET_SUBMIT. -/
@[simp] def Reply.submit : Reply → Option (BitVec 32)
  | .retSubmit q => some q
  | _ => none

/-- The number of a RET_UNLINK. -/
@[simp] def Reply.unlink : Reply → Option (BitVec 32)
  | .retUnlink q _ => some q
  | _ => none

theorem filterMap_submit (log : List StubEvent) :
    (log.filterMap reply).filterMap Reply.submit = log.filterMap StubEvent.submitReply := by
  rw [List.filterMap_filterMap]
  refine congrArg (List.filterMap · log) (funext fun e => ?_)
  cases e <;> rfl

theorem filterMap_unlink (log : List StubEvent) :
    (log.filterMap reply).filterMap Reply.unlink = log.filterMap StubEvent.unlinkReply := by
  rw [List.filterMap_filterMap]
  refine congrArg (List.filterMap · log) (funext fun e => ?_)
  cases e <;> rfl

theorem mem_submitReply {log : List StubEvent} {q : BitVec 32} :
    .retSubmit q ∈ log.filterMap reply ↔ q ∈ log.filterMap StubEvent.submitReply := by
  rw [← filterMap_submit, List.mem_filterMap (f := Reply.submit)]
  constructor
  · exact fun hmem => ⟨_, hmem, rfl⟩
  · rintro ⟨r, hr, hq⟩
    cases r with
    | retSubmit q' =>
      obtain rfl := Option.some.inj hq
      exact hr
    | retUnlink q' st => simp at hq

theorem mem_unlinkReply {log : List StubEvent} {q : BitVec 32} :
    (∃ st, .retUnlink q st ∈ log.filterMap reply) ↔ q ∈ log.filterMap StubEvent.unlinkReply := by
  rw [← filterMap_unlink, List.mem_filterMap (f := Reply.unlink)]
  constructor
  · exact fun ⟨st, hmem⟩ => ⟨_, hmem, rfl⟩
  · rintro ⟨r, hr, hq⟩
    cases r with
    | retSubmit q' => simp at hq
    | retUnlink q' st =>
      obtain rfl := Option.some.inj hq
      exact ⟨st, hr⟩

/-- A RET_UNLINK comes from an entry of the transmit thread. -/
theorem exists_retUnlink {log : List StubEvent} {q st : BitVec 32}
    (hmem : .retUnlink q st ∈ log.filterMap reply) :
    ∃ u, .retUnlink u ∈ log ∧ toU32 u.seqnum = q := by
  obtain ⟨e, he, heq⟩ := List.mem_filterMap.mp hmem
  cases e with
  | retUnlink u =>
    obtain ⟨rfl, -⟩ := Reply.retUnlink.inj (Option.some.inj heq)
    exact ⟨u, he, rfl⟩
  | _ => simp at heq

/-! ### The invariant -/

/-- What holds of the two ends of a healthy connection. -/
structure LinkInv (s : Connection) : Prop where
  client : ClientInv s.port
  server : ServerInv s.requests s.stub
  sent : s.stub.log.filterMap reply = s.received ++ s.replies
  answers : Answers s.port s.received

namespace LinkInv

variable {s s' : Connection}

/-- A number that the device has answered by a RET_SUBMIT is that of a CMD_SUBMIT it received. -/
theorem submit_of_reply (h : LinkInv s) {q : BitVec 32}
    (hq : q ∈ s.stub.log.filterMap StubEvent.submitReply) :
    q ∈ s.stub.log.filterMap StubEvent.submit := by
  have hcount := h.server.reply.submits q
  have hpos := Stub.seen_pos.mpr hq
  exact Stub.seen_pos.mp (by omega)

/-- A number that the device has answered by a RET_UNLINK is that of a CMD_UNLINK it received. -/
theorem unlink_of_reply (h : LinkInv s) {q : BitVec 32}
    (hq : q ∈ s.stub.log.filterMap StubEvent.unlinkReply) :
    q ∈ s.stub.log.filterMap StubEvent.unlink := by
  have hcount := h.server.reply.unlinks q
  have hpos := Stub.seen_pos.mpr hq
  exact Stub.seen_pos.mp (by omega)

/-- A CMD_SUBMIT that the device has received was written by the port. -/
theorem submit_written (h : LinkInv s) {q : BitVec 32}
    (hq : q ∈ s.stub.log.filterMap StubEvent.submit) :
    ∃ p, .cmdSubmit p ∈ s.port.wire ∧ wireSeqnum p.seqnum = q := by
  obtain ⟨done, hdone, hsub, -⟩ := h.server.reply.read
  refine mem_submit_iff.mp ?_
  rw [show s.port.wire.map request = s.requests from rfl, hdone, List.filterMap_append, ← hsub]
  exact List.mem_append_left _ hq

/-- A CMD_UNLINK that the device has processed was written by the port. -/
theorem unlink_written (h : LinkInv s) {q t : BitVec 32} (hmem : .cmdUnlink q t ∈ s.stub.log) :
    ∃ u, .cmdUnlink u ∈ s.port.wire ∧ wireSeqnum u.seqnum = q ∧ wireSeqnum u.unlinkSeqnum = t :=
  mem_cmdUnlink_iff.mp (h.server.heard.mem_of_cmdUnlink hmem)

/-- All replies, read or on their way, answer requests that the port has written. -/
theorem known (h : LinkInv s) : Known s.port (s.received ++ s.replies) := by
  rw [← h.sent]
  refine ⟨fun q hmem => ?_, fun q st hmem => ?_⟩
  · exact h.submit_written (h.submit_of_reply (mem_submitReply.mp hmem))
  · have hq := h.unlink_of_reply (mem_unlinkReply.mp ⟨st, hmem⟩)
    obtain ⟨e, he, heq⟩ := List.mem_filterMap.mp hq
    obtain ⟨t, rfl⟩ := StubEvent.unlink_eq_some heq
    obtain ⟨u, hu, hnum, -⟩ := h.unlink_written he
    exact ⟨u, hu, hnum⟩

theorem known_received (h : LinkInv s) : Known s.port s.received where
  submit q hmem := h.known.submit q (List.mem_append_left _ hmem)
  unlink q st hmem := h.known.unlink q st (List.mem_append_left _ hmem)

/-- No number is answered twice. -/
theorem replies_nodup (h : LinkInv s) :
    ((s.received ++ s.replies).filterMap Reply.submit).Nodup ∧
      ((s.received ++ s.replies).filterMap Reply.unlink).Nodup := by
  have hreq := clientTraffic h.client
  rw [← h.sent, filterMap_submit, filterMap_unlink]
  constructor
  · refine List.nodup_iff_count_le_one.mpr fun q => ?_
    have hcount := h.server.reply.submits q
    have hle := h.server.reply.seen_submit_le hreq q
    rw [Stub.seen] at hcount
    omega
  · refine List.nodup_iff_count_le_one.mpr fun q => ?_
    have hcount := h.server.reply.unlinks q
    have hle := h.server.reply.seen_unlink_le hreq q
    rw [Stub.seen] at hcount
    omega

/-! ### A reply on its way finds its request -/

/-- The CMD_SUBMIT of a RET_SUBMIT on its way has not been answered by a RET_UNLINK. -/
theorem not_unlinked (h : LinkInv s) {q : BitVec 32} (hmem : .retSubmit q ∈ s.replies)
    {u : VhciUnlink} (hu : .cmdUnlink u ∈ s.port.wire) (hq : wireSeqnum u.unlinkSeqnum = q)
    (st : BitVec 32) : .retUnlink (wireSeqnum u.seqnum) st ∉ s.received := by
  intro hreply
  obtain ⟨l₁, l₂, hlog, hl₁, hl₂⟩ := List.filterMap_eq_append_iff.mp h.sent
  obtain ⟨e, he, heq⟩ := List.mem_filterMap.mp (hl₂ ▸ hmem)
  obtain ⟨l₃, l₄, rfl⟩ := List.append_of_mem he
  have hpre : s.stub.log = (l₁ ++ l₃) ++ e :: l₄ := by rw [hlog, List.append_assoc]
  cases e with
  | retSubmit p =>
    obtain rfl := Reply.retSubmit.inj (Option.some.inj heq)
    obtain ⟨v, hv, hvq⟩ := exists_retUnlink (hl₁ ▸ hreply)
    obtain ⟨a, b, rfl⟩ := List.append_of_mem hv
    -- the CMD_UNLINK was processed before its RET_UNLINK was written
    obtain ⟨t, ht⟩ := h.server.settle.answers a (.retUnlink v) (b ++ (l₃ ++ .retSubmit p :: l₄))
      (by simp [hlog]) v rfl
    obtain ⟨u', hu', hnum, htarget⟩ := h.unlink_written (q := toU32 v.seqnum) (t := t)
      (by rw [hlog]; simp [ht])
    obtain rfl := unlink_eq_of_num h.client (issued_of_wire hu) (issued_of_wire hu')
      (by rw [hnum, hvq])
    refine h.server.settle.wire _ _ _ hpre p rfl v t ?_ ?_ ?_
    · simp
    · simp [ht]
    · rw [← htarget, hq]
  | _ => simp at heq

/-- **A RET_SUBMIT on its way finds its entry on `priv_rx`.** -/
theorem submit_waits (h : LinkInv s) {q : BitVec 32} (hmem : .retSubmit q ∈ s.replies) :
    ∃ p ∈ s.port.privRx, .cmdSubmit p ∈ s.port.wire ∧ p.seqnum = q.setWidth 64 := by
  obtain ⟨p, hp, rfl⟩ := h.known.submit q (List.mem_append_right _ hmem)
  refine ⟨p, (h.answers.submit p hp).mpr ?_, hp, h.client.numbered.wide _ (issued_of_wire hp)⟩
  rintro (hreply | ⟨u, st, hu, hup, hreply, -⟩)
  · have hnd := h.replies_nodup.1
    rw [List.filterMap_append] at hnd
    exact (List.nodup_append'.mp hnd).2.2 (List.mem_filterMap.mpr ⟨_, hreply, rfl⟩)
      (List.mem_filterMap.mpr ⟨_, hmem, rfl⟩)
  · exact h.not_unlinked hmem hu (congrArg wireSeqnum hup.2.symm) st hreply

/-- **A RET_UNLINK on its way finds its entry on `unlink_rx`.** -/
theorem unlink_waits (h : LinkInv s) {q st : BitVec 32} (hmem : .retUnlink q st ∈ s.replies) :
    ∃ u ∈ s.port.unlinkRx, .cmdUnlink u ∈ s.port.wire ∧ u.seqnum = q.setWidth 64 := by
  obtain ⟨u, hu, rfl⟩ := h.known.unlink q st (List.mem_append_right _ hmem)
  refine ⟨u, (h.answers.unlink u hu).mpr fun st' hreply => ?_, hu,
    h.client.numbered.wide _ (issued_of_wire hu)⟩
  have hnd := h.replies_nodup.2
  rw [List.filterMap_append] at hnd
  exact (List.nodup_append'.mp hnd).2.2 (List.mem_filterMap.mpr ⟨_, hreply, rfl⟩)
    (List.mem_filterMap.mpr ⟨_, hmem, rfl⟩)

/-- So the port may read the next reply. -/
theorem recv_healthy (h : LinkInv s) {r : Reply} (hr : r ∈ s.replies) (status : ℤ) :
    Vhci.Healthy s.port (r.act status) := by
  cases r with
  | retSubmit q => exact h.submit_waits hr
  | retUnlink q st => exact h.unlink_waits hr

/-! ### The steps keep the invariant -/

/-- The port reads the next reply. -/
theorem recv (h : LinkInv s) {r : Reply} {rest : List Reply} {p : Port} {status : ℤ}
    (hr : s.replies = r :: rest) (hs : s.port.step (r.act status) = some p) :
    LinkInv { s with port := p, replies := rest, received := s.received ++ [r] } := by
  have hok := h.recv_healthy (r := r) (by simp [hr]) status
  have hclient := h.client.step hok hs
  have hsent : s.stub.log.filterMap reply = s.received ++ [r] ++ rest := by
    rw [h.sent, hr, List.append_assoc, List.singleton_append]
  have hserver : p.wire = s.port.wire → ServerInv (p.wire.map request) s.stub := fun hwire =>
    hwire ▸ h.server
  cases r with
  | retSubmit q =>
    obtain ⟨e, hmem, hwritten, hq⟩ := hok
    have hnum : wireSeqnum e.seqnum = q := by simp [wireSeqnum, hq, BitVec.setWidth_setWidth_of_le]
    cases Port.moves_of_step hs with
    | retSubmitUnknown hrx hpick status =>
      have hsome := Port.pickupUrbAndFreePriv_isSome.mpr ⟨e, hmem, hq⟩
      simp [hpick] at hsome
    | retSubmit hrx hpick status =>
      obtain ⟨l₁, l₂, hl, -, rfl⟩ := h.client.numbered.pickup_written h.client.order
        h.client.running hwritten hq hpick
      refine ⟨hclient, hserver rfl, hsent, ?_⟩
      exact h.answers.recvSubmit h.client hwritten hnum hl rfl rfl rfl (by rw [hrx]; rfl) rfl
  | retUnlink q st =>
    obtain ⟨e, hmem, hwritten, hq⟩ := hok
    have hnum : wireSeqnum e.seqnum = q := by simp [wireSeqnum, hq, BitVec.setWidth_setWidth_of_le]
    cases Port.moves_of_step hs with
    | retUnlinkUnknown hrx hdeq status =>
      have hsome := Port.dequeuePendingUnlink_isSome.mpr ⟨e, hmem, hq⟩
      simp [hdeq] at hsome
    | retUnlink hrx hdeq status =>
      obtain ⟨rfl, l₁, l₂, hl, rfl⟩ := h.client.numbered.dequeue_written h.client.pending hwritten
        hq hdeq
      refine ⟨hclient, hserver rfl, hsent, ?_⟩
      exact h.answers.recvUnlink h.client hwritten hnum hl rfl rfl rfl (by rw [hrx]; rfl) rfl

/-- Every step of a healthy connection keeps the invariant. -/
theorem step (h : LinkInv s) {a : Act} (hok : Healthy s a) (hs : s.step a = some s') :
    LinkInv s' := by
  cases Connection.moves_of_step hs with
  | @port a p l hown hp hl =>
    have hserver : ServerInv (p.wire.map request)
        { s.stub with input := s.stub.input ++ l.map request } := by
      rw [hl, List.map_append]
      refine h.server.feed fun r hr => ?_
      obtain ⟨c, -, rfl⟩ := List.mem_map.mp hr
      exact request_valid c
    exact ⟨h.client.step hok hp, hserver, h.sent,
      h.answers.step h.client h.known_received hok hown hp⟩
  | @stub a d l hd hl =>
    have hserver := h.server.step (clientTraffic h.client) (unlinkAfterSubmit h.client) hok hd
    refine ⟨h.client, hserver, ?_, h.answers⟩
    rw [hl, List.filterMap_append, h.sent, List.append_assoc]
  | recv hr hp => exact h.recv hr hp
  | otherPort =>
    exact ⟨h.client.tick hok, h.server, h.sent, h.answers.frame rfl rfl rfl rfl⟩

/-- The invariant holds in every state of a healthy connection. -/
theorem of_reachableWhere {seqnum : BitVec 32} (hn : 0 ≤ seqnum.toInt) {udev : Option ℕ}
    (h : (connection seqnum udev).ReachableWhere Healthy s) : LinkInv s := by
  refine h.invariant ?_ fun s a s' hinv hok hs => hinv.step hok hs
  exact ⟨.attached hn udev, .connected, rfl, by simp [connection, established, Vhci.attached],
    by simp [connection, established, Vhci.attached],
    by simp [connection, established, Vhci.attached, unlinkInHand]⟩

end LinkInv

/-- **Every reply on its way finds its request waiting, and no event happens on either side**, in
every state of a healthy connection. -/
theorem replies_find_requests {seqnum : BitVec 32} (hn : 0 ≤ seqnum.toInt) {udev : Option ℕ}
    {s : Connection} (h : (connection seqnum udev).ReachableWhere Healthy s) :
    (∀ q, .retSubmit q ∈ s.replies → ∃ p ∈ s.port.privRx, p.seqnum = q.setWidth 64) ∧
    (∀ q st, .retUnlink q st ∈ s.replies → ∃ u ∈ s.port.unlinkRx, u.seqnum = q.setWidth 64) ∧
    s.port.event = false ∧ s.stub.event = false := by
  have hinv := LinkInv.of_reachableWhere hn h
  refine ⟨fun q hmem => ?_, fun q st hmem => ?_, hinv.client.running.event,
    hinv.server.working.event⟩
  · obtain ⟨p, hp, -, hq⟩ := hinv.submit_waits hmem
    exact ⟨p, hp, hq⟩
  · obtain ⟨u, hu, -, hq⟩ := hinv.unlink_waits hmem
    exact ⟨u, hu, hq⟩

/-- Two URBs are submitted. The first one completes while its CMD_UNLINK is on the way, the second
one is found by its CMD_UNLINK and stopped; all four requests are answered and both URBs given
back, and both sides come to rest. -/
def unlinkedLink : List Act :=
  [.port (.enqueue ⟨7, 1, Vhci.einprogress, 2, false, none⟩ 0 true),
    .port (.enqueue ⟨8, 1, Vhci.einprogress, 2, false, none⟩ 0 true), .otherPort,
    .port .txDequeueSubmit, .port (.txSendSubmit true), .stub (.rxPdu true), .stub (.rxBuild true),
    .stub (.rxSubmit true), .port .txDequeueSubmit, .port (.txSendSubmit true),
    .port .txDequeueSubmit, .port (.dequeue 7 0 true), .port (.dequeue 8 0 true),
    .port .txDequeueUnlink, .port (.txSendUnlink true), .stub (.rxPdu true), .stub (.rxBuild true),
    .stub (.rxSubmit true), .port .txDequeueUnlink, .port (.txSendUnlink true),
    .stub (.complete 0 0 true), .stub (.rxPdu true), .stub (.rxPdu true), .stub .rxUnlinkUrb,
    .stub (.complete 1 Stub.econnreset true), .stub .txDequeueSubmit, .stub (.txSendSubmit true),
    .recv 0, .port (.rxPayload true), .port .rxGiveback, .stub .txDequeueSubmit,
    .stub .txFreePrivs, .stub .txDequeueUnlink, .stub (.txSendUnlink true), .stub .txDequeueUnlink,
    .stub (.txSendUnlink true), .stub .txDequeueUnlink, .stub .txFreeUnlinks, .recv 0,
    .port .rxPickup, .recv 0, .port .rxPickup, .port .rxGiveback, .port .txDequeueUnlink]

theorem replies_find_requests_unlinkedLink :
    ∃ s, (connection 0 (some 1)).runWhere Healthy (established 0 (some 1)) unlinkedLink = some s ∧
      ((∀ q, .retSubmit q ∈ s.replies → ∃ p ∈ s.port.privRx, p.seqnum = q.setWidth 64) ∧
      (∀ q st, .retUnlink q st ∈ s.replies → ∃ u ∈ s.port.unlinkRx, u.seqnum = q.setWidth 64) ∧
      s.port.event = false ∧ s.stub.event = false) :=
  Machine.exists_runWhere (m := connection 0 (some 1)) (by decide) fun _ h =>
    replies_find_requests (by decide) h

/-! ### What the device works on is pending -/

/-- The core unlinks no URB twice. -/
def UnlinkedOnce (s : Connection) : Act → Prop
  | .port a => Vhci.UnlinkedOnce s.port a
  | _ => True

instance (s : Connection) (a : Act) : Decidable (UnlinkedOnce s a) := by
  induction a using Act.casesOn <;> dsimp only [UnlinkedOnce] <;> infer_instance

/-- A healthy connection whose core unlinks no URB twice. -/
def HealthyOnce (s : Connection) (a : Act) : Prop := Healthy s a ∧ UnlinkedOnce s a

instance (s : Connection) (a : Act) : Decidable (HealthyOnce s a) :=
  inferInstanceAs (Decidable (_ ∧ _))

/-- The entry of the device serves the CMD_SUBMIT of `p`, or a CMD_UNLINK that names it. -/
def Serves (s : Connection) (e : Stub.StubPriv) (p : VhciPriv) : Prop :=
  (e.unlinking = false ∧ toU32 e.seqnum = wireSeqnum p.seqnum) ∨
  (e.unlinking = true ∧ ∃ u, .cmdUnlink u ∈ s.port.wire ∧ UnlinkOf u p ∧
    toU32 e.seqnum = wireSeqnum u.seqnum)

namespace LinkInv

variable {s s' : Connection}

/-- An entry that is not being unlinked serves a CMD_SUBMIT that is pending: none of the two kinds
of answer to it has been written. -/
theorem serves_submit (h : LinkInv s) {e : Stub.StubPriv} (he : e ∈ s.stub.privInit)
    (hunl : e.unlinking = false) :
    ∃ p ∈ s.port.privRx, toU32 e.seqnum = wireSeqnum p.seqnum := by
  have howed : toU32 e.seqnum ∈ s.stub.owedSubmits := by
    refine List.mem_map_of_mem (List.mem_append_left _ (List.mem_append_left _ ?_))
    exact List.mem_filter.mpr ⟨he, by simp [hunl]⟩
  have hsub : toU32 e.seqnum ∈ s.stub.log.filterMap StubEvent.submit := by
    have hcount := h.server.reply.submits (toU32 e.seqnum)
    have hpos := List.count_pos_iff.mpr howed
    exact Stub.seen_pos.mp (by omega)
  obtain ⟨p, hp, hnum⟩ := h.submit_written hsub
  refine ⟨p, (h.answers.submit p hp).mpr ?_, hnum.symm⟩
  rintro (hreply | ⟨u, st, hu, hup, hreply, -⟩)
  · have hmem : .retSubmit (toU32 e.seqnum) ∈ s.stub.log.filterMap reply := by
      rw [h.sent, ← hnum]
      exact List.mem_append_left _ hreply
    exact h.server.reply.not_replied_of_owed (clientTraffic h.client) howed
      (mem_submitReply.mp hmem)
  · have hmem : .retUnlink (wireSeqnum u.seqnum) st ∈ s.stub.log.filterMap reply := by
      rw [h.sent]
      exact List.mem_append_left _ hreply
    obtain ⟨v, hv, hvq⟩ := exists_retUnlink hmem
    obtain ⟨a, b, hab⟩ := List.append_of_mem hv
    obtain ⟨t, ht⟩ := h.server.settle.answers a _ b hab v rfl
    have ht : .cmdUnlink (toU32 v.seqnum) t ∈ s.stub.log := by simp [hab, ht]
    obtain ⟨u', hu', hnum', htarget⟩ := h.unlink_written ht
    obtain rfl := unlink_eq_of_num h.client (issued_of_wire hu) (issued_of_wire hu')
      (by rw [hnum', hvq])
    refine h.server.settle.init _ _ ht e he ?_
    rw [← h.server.reply.wide e he, ← htarget, ← hup.2, hnum]

/-- An entry that is being unlinked serves the one CMD_UNLINK that names its URB. -/
theorem serves_unlink (h : LinkInv s) (honce : Vhci.Once s.port.issued) {e : Stub.StubPriv}
    (he : e ∈ s.stub.privInit) (hunl : e.unlinking = true) :
    ∃ p ∈ s.port.privRx, ∃ u, .cmdUnlink u ∈ s.port.wire ∧ UnlinkOf u p ∧
      toU32 e.seqnum = wireSeqnum u.seqnum := by
  obtain ⟨t, hmem, hconv⟩ := h.server.conversions.init e he hunl
  obtain ⟨u, hu, hnum, rfl⟩ := h.unlink_written hmem
  obtain ⟨p, hup, hp, -⟩ := h.client.numbered.target_written h.client.order hu
  have hreq := clientTraffic h.client
  refine ⟨p, (h.answers.submit p hp).mpr ?_, u, hu, hup, hnum.symm⟩
  rintro (hreply | ⟨v, st, hv, hvp, hreply, -⟩)
  · -- the RET_SUBMIT was given up for the conversion
    have hmem : .retSubmit (wireSeqnum p.seqnum) ∈ s.stub.log.filterMap reply := by
      rw [h.sent]
      exact List.mem_append_left _ hreply
    have hcount := h.server.reply.submits (wireSeqnum u.unlinkSeqnum)
    have hle := h.server.reply.seen_submit_le hreq (wireSeqnum u.unlinkSeqnum)
    have h1 := Stub.seen_pos.mpr hconv
    have h2 := Stub.seen_pos.mpr (mem_submitReply.mp hmem)
    rw [hup.2] at h2
    omega
  · -- the CMD_UNLINK that has been answered is the one that is served
    obtain rfl := honce v u (issued_of_wire hv) (issued_of_wire hu) (hvp.1.symm.trans hup.1)
    have hmem : .retUnlink (wireSeqnum v.seqnum) st ∈ s.stub.log.filterMap reply := by
      rw [h.sent]
      exact List.mem_append_left _ hreply
    have howed : toU32 e.seqnum ∈ s.stub.owedUnlinks :=
      List.mem_append_left _ (List.mem_map_of_mem (List.mem_filter.mpr ⟨he, hunl⟩))
    have hcount := h.server.reply.unlinks (toU32 e.seqnum)
    have hle := h.server.reply.seen_unlink_le hreq (toU32 e.seqnum)
    have h1 := List.count_pos_iff.mpr howed
    have h2 := Stub.seen_pos.mpr (mem_unlinkReply.mp ⟨st, hmem⟩)
    rw [hnum] at h2
    omega

/-- No URB is unlinked twice in a connection whose core does not. -/
theorem once_step (h : LinkInv s) (honce : Vhci.Once s.port.issued) {a : Act}
    (hok : HealthyOnce s a) (hs : s.step a = some s') : Vhci.Once s'.port.issued := by
  cases Connection.moves_of_step hs with
  | port hown hp hl => exact honce.step h.client.running hok.1 hok.2 hp
  | stub => exact honce
  | @recv r rest p status hr hp =>
    refine honce.step h.client.running (h.recv_healthy (by simp [hr]) status) ?_ hp
    cases r <;> trivial
  | otherPort => exact honce

end LinkInv

/-- **What the device works on, the port still waits for**: every entry of `priv_init` serves the
request of an entry of `priv_rx`, whose URB has not been given back to the core, in every state of
a healthy connection whose core unlinks no URB twice. -/
theorem served_urbs_pending {seqnum : BitVec 32} (hn : 0 ≤ seqnum.toInt) {udev : Option ℕ}
    {s : Connection} (h : (connection seqnum udev).ReachableWhere HealthyOnce s) :
    ∀ e ∈ s.stub.privInit, ∃ p ∈ s.port.privRx, Serves s e p ∧
      outstanding s.port.core p.urb = true := by
  have hinv := LinkInv.of_reachableWhere hn (h.mono fun _ _ hok => hok.1)
  have honce : Vhci.Once s.port.issued := by
    refine h.invariant_with (I := LinkInv)
      (fun s hs => .of_reachableWhere hn (hs.mono fun _ _ hok => hok.1)) ?_
      fun s a s' hinv honce hok hs => hinv.once_step honce hok hs
    simp [connection, established, Vhci.Once, Port.issued, Vhci.attached, Vhci.TxPc.sending]
  have hout : ∀ p ∈ s.port.privRx, outstanding s.port.core p.urb = true := fun p hp =>
    hinv.client.port.held_outstanding _
      (List.mem_append_left _ (List.mem_map_of_mem (List.mem_append_right _ hp)))
  intro e he
  cases hunl : e.unlinking with
  | false =>
    obtain ⟨p, hp, hnum⟩ := hinv.serves_submit he hunl
    exact ⟨p, hp, Or.inl ⟨hunl, hnum⟩, hout p hp⟩
  | true =>
    obtain ⟨p, hp, hu⟩ := hinv.serves_unlink honce he hunl
    exact ⟨p, hp, Or.inr ⟨hunl, hu⟩, hout p hp⟩

theorem served_urbs_pending_unlinkedLink :
    ∃ s, (connection 0 (some 1)).runWhere HealthyOnce (established 0 (some 1))
        (unlinkedLink.take 24) = some s ∧
      ∀ e ∈ s.stub.privInit, ∃ p ∈ s.port.privRx, Serves s e p ∧
        outstanding s.port.core p.urb = true :=
  Machine.exists_runWhere (m := connection 0 (some 1)) (by decide) fun _ h =>
    served_urbs_pending (by decide) h

/-- There the device works on the second URB, which is being unlinked. -/
example : ((connection 0 (some 1)).run (established 0 (some 1)) (unlinkedLink.take 24)).map
    (fun s => s.stub.privInit) = some [⟨1, 5, true⟩] := by decide

end Usbip.Link
