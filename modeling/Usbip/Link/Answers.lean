import Usbip.Link.Connection

/-!
# Which requests have been answered

A request that the port has written waits on `priv_rx` or `unlink_rx` exactly until its answer has
been read (`Answers`). A CMD_UNLINK is answered by its RET_UNLINK, a CMD_SUBMIT by its RET_SUBMIT
or by the RET_UNLINK of a CMD_UNLINK that names it, as soon as the receive thread is done with it
(`Answered`).

The invariant relates the port and the replies that it has read, so it is stated without the
device. Of the replies it needs to know only that they answer requests that have been written
(`Known`).
-/

namespace Usbip.Link

open Trace
open Vhci (CmdPdu VhciPriv VhciUnlink UnlinkOf ClientInv Port RxPc)
open Vhci.Port (wireSeqnum)

/-- The unlink that the receive thread has in its hands. -/
def unlinkInHand : RxPc → Option VhciUnlink
  | .retUnlink u _ => some u
  | _ => none

/-- The CMD_SUBMIT of `p` has been answered. -/
def Answered (s : Port) (received : List Reply) (p : VhciPriv) : Prop :=
  .retSubmit (wireSeqnum p.seqnum) ∈ received ∨
  ∃ u st, .cmdUnlink u ∈ s.wire ∧ UnlinkOf u p ∧ .retUnlink (wireSeqnum u.seqnum) st ∈ received ∧
    unlinkInHand s.rx ≠ some u

/-- The replies are answers to requests that have been written. -/
structure Known (s : Port) (received : List Reply) : Prop where
  submit : ∀ q, .retSubmit q ∈ received → ∃ p, .cmdSubmit p ∈ s.wire ∧ wireSeqnum p.seqnum = q
  unlink : ∀ q st, .retUnlink q st ∈ received →
    ∃ u, .cmdUnlink u ∈ s.wire ∧ wireSeqnum u.seqnum = q

/-- What has been written waits until it is answered. -/
structure Answers (s : Port) (received : List Reply) : Prop where
  submit : ∀ p, .cmdSubmit p ∈ s.wire → (p ∈ s.privRx ↔ ¬ Answered s received p)
  unlink : ∀ u, .cmdUnlink u ∈ s.wire →
    (u ∈ s.unlinkRx ↔ ∀ st, .retUnlink (wireSeqnum u.seqnum) st ∉ received)
  current : ∀ u, unlinkInHand s.rx = some u → ∃ st, .retUnlink (wireSeqnum u.seqnum) st ∈ received

section Requests

variable {s : Port}

/-- Written CMD_SUBMITs with one number in the header are one. -/
theorem submit_eq_of_num (h : ClientInv s) {p r : VhciPriv} (hp : .cmdSubmit p ∈ s.issued)
    (hr : .cmdSubmit r ∈ s.issued) (heq : wireSeqnum p.seqnum = wireSeqnum r.seqnum) : p = r :=
  CmdPdu.cmdSubmit.inj (h.numbered.eq_of_num_eq hp hr heq)

/-- Written CMD_UNLINKs with one number in the header are one. -/
theorem unlink_eq_of_num (h : ClientInv s) {u v : VhciUnlink} (hu : .cmdUnlink u ∈ s.issued)
    (hv : .cmdUnlink v ∈ s.issued) (heq : wireSeqnum u.seqnum = wireSeqnum v.seqnum) : u = v :=
  CmdPdu.cmdUnlink.inj (h.numbered.eq_of_num_eq hu hv heq)

/-- What has been written has been made. -/
theorem issued_of_wire {c : CmdPdu} (hc : c ∈ s.wire) : c ∈ s.issued := List.mem_append_left _ hc

/-- What is on its way has been made. -/
theorem issued_of_sending {c : CmdPdu} (hc : c ∈ s.tx.sending) : c ∈ s.issued :=
  List.mem_append_right _ (List.mem_append_left _ hc)

/-- Two CMD_SUBMITs that one CMD_UNLINK names are one. -/
theorem target_eq (h : ClientInv s) {u : VhciUnlink} {p r : VhciPriv} (hp : .cmdSubmit p ∈ s.issued)
    (hr : .cmdSubmit r ∈ s.issued) (hup : UnlinkOf u p) (hur : UnlinkOf u r) : p = r :=
  submit_eq_of_num h hp hr (congrArg wireSeqnum (hup.2.trans hur.2.symm))

/-- `priv_rx` holds no entry twice. -/
theorem privRx_nodup (h : ClientInv s) : s.privRx.Nodup := by
  have hnd := h.port.linked.id_nodup
  rw [Port.privs, List.map_append] at hnd
  exact .of_map _ (List.nodup_append'.mp hnd).2.1

end Requests

/-- Taking an entry out of a list without repetitions. -/
theorem mem_remove_iff {α : Type*} {l l₁ l₂ : List α} {a b : α} (hnd : l.Nodup)
    (hl : l = l₁ ++ a :: l₂) : b ∈ l₁ ++ l₂ ↔ b ∈ l ∧ b ≠ a := by
  rw [hl, List.nodup_middle] at hnd
  have hnotin := (List.nodup_cons.mp hnd).1
  rw [hl, List.mem_append, List.mem_append, List.mem_cons]
  constructor
  · intro hb
    refine ⟨by tauto, ?_⟩
    rintro rfl
    exact hnotin (List.mem_append.mpr hb)
  · rintro ⟨hb, hne⟩
    tauto

namespace Answers

variable {s s' : Port} {received : List Reply}

/-- A step that touches neither the written requests nor what waits for an answer. -/
theorem frame (h : Answers s received) (hwire : s'.wire = s.wire) (hprx : s'.privRx = s.privRx)
    (hurx : s'.unlinkRx = s.unlinkRx) (hrx : unlinkInHand s'.rx = unlinkInHand s.rx) :
    Answers s' received := by
  have hans : ∀ p, Answered s' received p ↔ Answered s received p := fun p => by
    rw [Answered, Answered, hwire, hrx]
  refine ⟨fun p hp => ?_, fun u hu => ?_, fun u hu => h.current u (hrx ▸ hu)⟩
  · rw [hprx, hans]
    exact h.submit p (hwire ▸ hp)
  · rw [hurx]
    exact h.unlink u (hwire ▸ hu)

/-- What is taken to be written next is not written yet. -/
theorem take (h : Answers s received) (hwire : s'.wire = s.wire)
    (hprx : ∀ p, .cmdSubmit p ∈ s.wire → (p ∈ s'.privRx ↔ p ∈ s.privRx))
    (hurx : ∀ u, .cmdUnlink u ∈ s.wire → (u ∈ s'.unlinkRx ↔ u ∈ s.unlinkRx))
    (hrx : s'.rx = s.rx) : Answers s' received := by
  have hans : ∀ p, Answered s' received p ↔ Answered s received p := fun p => by
    rw [Answered, Answered, hwire, hrx]
  refine ⟨fun p hp => ?_, fun u hu => ?_, fun u hu => h.current u (hrx ▸ hu)⟩
  · rw [hprx p (hwire ▸ hp), hans]
    exact h.submit p (hwire ▸ hp)
  · rw [hurx u (hwire ▸ hu)]
    exact h.unlink u (hwire ▸ hu)

/-- A CMD_SUBMIT is written: nothing has answered it yet. -/
theorem submitSent (h : Answers s received) (hc : ClientInv s) (hk : Known s received)
    {q : VhciPriv} (htx : s.tx = .sendSubmit q) :
    Answers { s with wire := s.wire ++ [.cmdSubmit q], tx := .submitLoop } received := by
  have hsend : CmdPdu.cmdSubmit q ∈ s.tx.sending := by simp [htx, Vhci.TxPc.sending]
  have hnew : .cmdSubmit q ∉ s.wire := hc.numbered.not_written (List.mem_append_left _ hsend)
  have hold : ∀ r, .cmdSubmit r ∈ s.wire → wireSeqnum r.seqnum ≠ wireSeqnum q.seqnum := by
    intro r hr heq
    obtain rfl := submit_eq_of_num hc (issued_of_wire hr) (issued_of_sending hsend) heq
    exact hnew hr
  refine ⟨fun p hp => ?_, fun u hu => h.unlink u (by simpa using hu), h.current⟩
  have hans : Answered { s with wire := s.wire ++ [.cmdSubmit q], tx := .submitLoop } received p ↔
      Answered s received p := by
    simp [Answered]
  rw [hans]
  rcases List.mem_append.mp hp with hp | hp
  · exact h.submit p hp
  obtain rfl := CmdPdu.cmdSubmit.inj (List.mem_singleton.mp hp)
  refine iff_of_true (hc.pending.sendSubmit p htx) ?_
  rintro (hreply | ⟨u, st, hu, hup, -, -⟩)
  · obtain ⟨r, hr, heq⟩ := hk.submit _ hreply
    exact hold r hr heq
  · obtain ⟨r, hur, hr, -⟩ := hc.numbered.target_written hc.order hu
    exact hold r hr (congrArg wireSeqnum (hur.2.trans hup.2.symm))

/-- A CMD_UNLINK is written: nothing has answered it yet. -/
theorem unlinkSent (h : Answers s received) (hc : ClientInv s) (hk : Known s received)
    {v : VhciUnlink} (htx : s.tx = .sendUnlink v) :
    Answers { s with wire := s.wire ++ [.cmdUnlink v], tx := .unlinkLoop } received := by
  have hsend : CmdPdu.cmdUnlink v ∈ s.tx.sending := by simp [htx, Vhci.TxPc.sending]
  have hnew : .cmdUnlink v ∉ s.wire := hc.numbered.not_written (List.mem_append_left _ hsend)
  have hunanswered : ∀ st, .retUnlink (wireSeqnum v.seqnum) st ∉ received := by
    intro st hreply
    obtain ⟨u, hu, heq⟩ := hk.unlink _ _ hreply
    obtain rfl := unlink_eq_of_num hc (issued_of_wire hu) (issued_of_sending hsend) heq
    exact hnew hu
  refine ⟨fun p hp => ?_, fun u hu => ?_, h.current⟩
  · have hans : Answered { s with wire := s.wire ++ [.cmdUnlink v], tx := .unlinkLoop } received p ↔
        Answered s received p := by
      refine or_congr_right (exists_congr fun u => exists_congr fun st => ?_)
      constructor
      · rintro ⟨hu, hup, hreply, hhand⟩
        rcases List.mem_append.mp hu with hu | hu
        · exact ⟨hu, hup, hreply, hhand⟩
        · obtain rfl := CmdPdu.cmdUnlink.inj (List.mem_singleton.mp hu)
          exact absurd hreply (hunanswered st)
      · rintro ⟨hu, hrest⟩
        exact ⟨List.mem_append_left _ hu, hrest⟩
    rw [hans]
    exact h.submit p (by simpa using hp)
  · rcases List.mem_append.mp hu with hu | hu
    · exact h.unlink u hu
    · obtain rfl := CmdPdu.cmdUnlink.inj (List.mem_singleton.mp hu)
      exact iff_of_true (hc.pending.sendUnlink u htx) hunanswered

/-- The receive thread is done with a RET_UNLINK. What it names is not pending any more. -/
theorem pickupDone (h : Answers s received) (hc : ClientInv s) {u : VhciUnlink} {st : ℤ}
    (hrx : s.rx = .retUnlink u st) (hwire : s'.wire = s.wire) (hurx : s'.unlinkRx = s.unlinkRx)
    (hrx' : unlinkInHand s'.rx = none)
    (hprx : ∀ p, .cmdSubmit p ∈ s.wire → (p ∈ s'.privRx ↔ p ∈ s.privRx ∧ ¬ UnlinkOf u p)) :
    Answers s' received := by
  have hu : .cmdUnlink u ∈ s.wire := hc.pending.retUnlink u st hrx
  have hhand : unlinkInHand s.rx = some u := by simp [hrx, unlinkInHand]
  obtain ⟨st', hreply⟩ := h.current u hhand
  have hans : ∀ p, Answered s' received p ↔ Answered s received p ∨ UnlinkOf u p := by
    intro p
    rw [Answered, Answered, hwire, hrx', hhand, or_assoc]
    refine or_congr_right ?_
    constructor
    · rintro ⟨v, st, hv, hvp, hvr, -⟩
      by_cases huv : u = v
      · exact Or.inr (huv ▸ hvp)
      · exact Or.inl ⟨v, st, hv, hvp, hvr, fun heq => huv (Option.some.inj heq)⟩
    · rintro (⟨v, st, hv, hvp, hvr, -⟩ | hup)
      · exact ⟨v, st, hv, hvp, hvr, by simp⟩
      · exact ⟨u, st', hu, hup, hreply, by simp⟩
  refine ⟨fun p hp => ?_, fun v hv => ?_, fun v hv => by simp [hrx'] at hv⟩
  · rw [hprx p (hwire ▸ hp), hans, h.submit p (hwire ▸ hp), not_or]
  · rw [hurx]
    exact h.unlink v (hwire ▸ hv)

/-- The port reads a RET_SUBMIT and takes the entry off `priv_rx` that it answers. -/
theorem recvSubmit (h : Answers s received) (hc : ClientInv s) {p : VhciPriv} {q : BitVec 32}
    {l₁ l₂ : List VhciPriv} (hp : .cmdSubmit p ∈ s.wire) (hq : wireSeqnum p.seqnum = q)
    (hl : s.privRx = l₁ ++ p :: l₂) (hwire : s'.wire = s.wire) (hprx : s'.privRx = l₁ ++ l₂)
    (hurx : s'.unlinkRx = s.unlinkRx) (hrx : unlinkInHand s.rx = none)
    (hrx' : unlinkInHand s'.rx = none) : Answers s' (received ++ [.retSubmit q]) := by
  have hans : ∀ r, .cmdSubmit r ∈ s.wire →
      (Answered s' (received ++ [.retSubmit q]) r ↔ Answered s received r ∨ r = p) := by
    intro r hr
    have hnum : wireSeqnum r.seqnum = q ↔ r = p := by
      constructor
      · exact fun heq => submit_eq_of_num hc (issued_of_wire hr) (issued_of_wire hp)
          (heq.trans hq.symm)
      · rintro rfl
        exact hq
    simp only [Answered, hwire, hrx, hrx', List.mem_append, List.mem_singleton,
      Reply.retSubmit.injEq, reduceCtorEq, or_false, hnum]
    exact or_right_comm
  refine ⟨fun r hr => ?_, fun v hv => ?_, fun v hv => by simp [hrx'] at hv⟩
  · have hr : .cmdSubmit r ∈ s.wire := hwire ▸ hr
    rw [hprx, mem_remove_iff (privRx_nodup hc) hl, hans r hr, h.submit r hr, not_or]
  · rw [hurx]
    simpa using h.unlink v (hwire ▸ hv)

/-- The port reads a RET_UNLINK and takes the entry off `unlink_rx` that it answers. -/
theorem recvUnlink (h : Answers s received) (hc : ClientInv s) {u : VhciUnlink} {q st : BitVec 32}
    {l₁ l₂ : List VhciUnlink} (hu : .cmdUnlink u ∈ s.wire) (hq : wireSeqnum u.seqnum = q)
    (hl : s.unlinkRx = l₁ ++ u :: l₂) (hwire : s'.wire = s.wire) (hprx : s'.privRx = s.privRx)
    (hurx : s'.unlinkRx = l₁ ++ l₂) (hrx : unlinkInHand s.rx = none)
    (hrx' : unlinkInHand s'.rx = some u) : Answers s' (received ++ [.retUnlink q st]) := by
  have hnum : ∀ v, .cmdUnlink v ∈ s.wire → (wireSeqnum v.seqnum = q ↔ v = u) := by
    intro v hv
    constructor
    · exact fun heq => unlink_eq_of_num hc (issued_of_wire hv) (issued_of_wire hu)
        (heq.trans hq.symm)
    · rintro rfl
      exact hq
  have hwaits : ∀ st, .retUnlink (wireSeqnum u.seqnum) st ∉ received :=
    (h.unlink u hu).mp (by simp [hl])
  have hans : ∀ r, Answered s' (received ++ [.retUnlink q st]) r ↔ Answered s received r := by
    intro r
    simp only [Answered, hwire, hrx, hrx', List.mem_append, List.mem_singleton, reduceCtorEq,
      or_false, Reply.retUnlink.injEq]
    refine or_congr_right (exists_congr fun v => exists_congr fun st' => ?_)
    constructor
    · rintro ⟨hv, hvr, hreply | ⟨hvq, -⟩, hne⟩
      · exact ⟨hv, hvr, hreply, by simp⟩
      · exact absurd (congrArg some ((hnum v hv).mp hvq).symm) hne
    · rintro ⟨hv, hvr, hreply, -⟩
      refine ⟨hv, hvr, Or.inl hreply, fun heq => ?_⟩
      obtain rfl := Option.some.inj heq
      exact hwaits st' hreply
  refine ⟨fun r hr => ?_, fun v hv => ?_, fun v hv => ?_⟩
  · rw [hprx, hans]
    exact h.submit r (hwire ▸ hr)
  · have hv : .cmdUnlink v ∈ s.wire := hwire ▸ hv
    rw [hurx, mem_remove_iff hc.pending.unlinkRx_nodup hl, h.unlink v hv]
    simp only [List.mem_append, List.mem_singleton, Reply.retUnlink.injEq, hnum v hv, not_or]
    constructor
    · rintro ⟨hno, hne⟩ st'
      exact ⟨hno st', fun heq => hne heq.1⟩
    · intro hall
      exact ⟨fun st' => (hall st').1, fun heq => (hall st).2 ⟨heq, rfl⟩⟩
  · rw [hrx'] at hv
    obtain rfl := Option.some.inj hv
    exact ⟨st, by simp [hq]⟩

/-- Every step of the port but the receipt of a reply. -/
theorem step (h : Answers s received) (hc : ClientInv s) (hk : Known s received) {a : Vhci.Act}
    (hok : Vhci.Healthy s a) (hown : ownAct a = true) (hs : s.step a = some s') :
    Answers s' received := by
  have hunsent : ∀ {c : CmdPdu}, c ∈ s.privTx.map CmdPdu.cmdSubmit ++ s.unlinkTx.map .cmdUnlink →
      c ∉ s.wire := fun hmem => hc.numbered.not_written (List.mem_append_right _ hmem)
  have htx : ∀ (s₁ : Port) urb alloc, Answers s₁ received →
      Answers (s₁.vhciTxUrb urb alloc) received := by
    intro s₁ urb alloc h₁
    rw [Port.vhciTxUrb]
    split
    · exact h₁
    split <;> exact h₁.frame rfl rfl rfl rfl
  cases Port.moves_of_step hs with
  | @enqueue urb hout linkRet alloc =>
    have hacc : Answers (s.accept urb) received := h.frame rfl rfl rfl rfl
    have hudev : Answers ((s.accept urb).setUdev urb) received := h.frame rfl rfl rfl rfl
    exact Port.vhciUrbEnqueue_cases (motive := fun p => Answers p received) h
      (h.frame rfl rfl rfl rfl) (h.frame rfl rfl rfl rfl) (htx _ urb alloc hudev)
      (htx _ urb alloc hacc) linkRet
  | dequeueGone | dequeueRefused => exact h
  | dequeueClosed hid hsocket alloc => simp [hc.running.tcpSocket] at hsocket
  | dequeueFailed | dequeueLinked | callerGiveback | submitsDone | unlinksDone | txWake | txStop
  | submitUnsent | unlinkUnsent | shutdown | releaseSocket | cleanupGiveback =>
    exact h.frame rfl rfl rfl rfl
  | payload hrx | payloadFailed hrx | rxGiveback hrx | rxStop hrx =>
    exact h.frame rfl rfl rfl (by rw [hrx]; rfl)
  | @submitTaken p rest htx hp =>
    refine h.take rfl (fun r hr => ?_) (fun u hu => Iff.rfl) rfl
    have hne : r ≠ p := by
      rintro rfl
      exact hunsent (by simp [hp]) hr
    simp [hne]
  | submitSent htx => exact h.submitSent hc hk htx
  | @unlinkTaken u rest htx hu =>
    refine h.take rfl (fun r hr => Iff.rfl) (fun v hv => ?_) rfl
    have hne : v ≠ u := by
      rintro rfl
      exact hunsent (by simp [hu]) hv
    simp [hne]
  | unlinkSent htx => exact h.unlinkSent hc hk htx
  | @pickupNone u status hrx hpick =>
    refine h.pickupDone hc hrx rfl rfl rfl fun p hp => ?_
    refine ⟨fun hmem => ⟨hmem, fun hup => ?_⟩, And.left⟩
    obtain ⟨r, hur, hr, hq⟩ := hc.numbered.target_written hc.order
      (hc.pending.retUnlink u status hrx)
    obtain rfl := target_eq hc (issued_of_wire hp) (issued_of_wire hr) hup hur
    have hsome := (Port.pickupUrbAndFreePriv_isSome (t := s)).mpr ⟨p, hmem, hq⟩
    rw [wireSeqnum, hpick] at hsome
    exact Bool.false_ne_true hsome
  | @pickup u status urb s₁ hrx hpick =>
    obtain ⟨r, hur, hr, hq⟩ := hc.numbered.target_written hc.order
      (hc.pending.retUnlink u status hrx)
    obtain ⟨l₁, l₂, hl, -, rfl⟩ := hc.numbered.pickup_written hc.order hc.running hr hq hpick
    refine h.pickupDone hc hrx rfl rfl rfl fun p hp => ?_
    refine (mem_remove_iff (privRx_nodup hc) hl).trans ?_
    refine and_congr_right fun _ => not_congr ⟨?_, fun hup => ?_⟩
    · rintro rfl
      exact hur
    · exact target_eq hc (issued_of_wire hp) (issued_of_wire hr) hup hur
  | retSubmitUnknown | retSubmit | retUnlinkUnknown | retUnlink => simp [ownAct] at hown
  | cleanup hshut | cleanupOn hshut => simp [hc.running.shut] at hshut

end Answers

end Usbip.Link
