import Usbip.Vhci.Seqnum
import Usbip.Vhci.TxOrder
import Usbip.Vhci.Giveback

/-!
# The requests of a healthy connection

What the client side keeps to as long as nothing fails: allocations and writes succeed, the
counter does not become negative, and the server answers only what it has been sent and what is
pending (`Healthy`). Then

* `Running`: no event has happened, both threads run and the socket is open;
* `Numbered`: all requests made so far (`Port.issued`), written or on their way, have different
  numbers, none above the counter, so that the header carries the whole number, and a CMD_UNLINK
  names one of the CMD_SUBMITs;
* `Pending`: what waits for an answer has been written or is being written;
* `Kept`: a URB that the core waits for is held by the port.
-/

namespace Usbip.Vhci

open ListWalk Trace Port

/-! ### The numbers of the requests -/

namespace CmdPdu

/-- The stored number of a request. -/
def seqnum : CmdPdu → BitVec 64
  | .cmdSubmit p => p.seqnum
  | .cmdUnlink u => u.seqnum

/-- The number in the header. -/
def num (c : CmdPdu) : BitVec 32 := wireSeqnum c.seqnum

end CmdPdu

/-- The request that the transmit thread is writing. -/
def TxPc.sending : TxPc → List CmdPdu
  | .sendSubmit p => [.cmdSubmit p]
  | .sendUnlink u => [.cmdUnlink u]
  | _ => []

/-- All requests made so far. -/
def Port.issued (s : Port) : List CmdPdu :=
  s.wire ++ (s.tx.sending ++ (s.privTx.map .cmdSubmit ++ s.unlinkTx.map .cmdUnlink))

/-- Requests numbered by a counter that has not become negative. -/
structure Numbered (cs : List CmdPdu) (n : BitVec 32) : Prop where
  counter : 0 ≤ n.toInt
  nodup : (cs.map CmdPdu.num).Nodup
  wide : ∀ c ∈ cs, c.seqnum = c.num.setWidth 64
  le : ∀ c ∈ cs, c.num.toNat ≤ n.toNat
  target : ∀ u, .cmdUnlink u ∈ cs → ∃ p, UnlinkOf u p ∧ .cmdSubmit p ∈ cs

namespace Numbered

variable {cs cs' : List CmdPdu} {n : BitVec 32}

theorem perm (h : Numbered cs n) (hp : cs'.Perm cs) : Numbered cs' n where
  counter := h.counter
  nodup := (hp.map _).nodup_iff.mpr h.nodup
  wide c hc := h.wide c (hp.mem_iff.mp hc)
  le c hc := h.le c (hp.mem_iff.mp hc)
  target u hu := by
    obtain ⟨p, hup, hp'⟩ := h.target u (hp.mem_iff.mp hu)
    exact ⟨p, hup, hp.mem_iff.mpr hp'⟩

/-- Two requests with one number in the header are one. -/
theorem eq_of_num_eq (h : Numbered cs n) {c d : CmdPdu} (hc : c ∈ cs) (hd : d ∈ cs)
    (heq : c.num = d.num) : c = d :=
  List.inj_on_of_nodup_map h.nodup hc hd heq

/-- A counter that is not negative as an `int` counts. -/
theorem toNat_succ (hn : 0 ≤ n.toInt) : (n + 1).toNat = n.toNat + 1 := by
  have hlt := n.isLt
  rw [BitVec.toInt_eq_toNat_cond] at hn
  have hone : (1 : BitVec 32).toNat = 1 := rfl
  rw [BitVec.toNat_add, hone]
  omega

/-- The controller numbers a request of another port. -/
theorem tick (h : Numbered cs n) (hn : 0 ≤ (n + 1).toInt) : Numbered cs (n + 1) where
  counter := hn
  nodup := h.nodup
  wide := h.wide
  le c hc := by
    have hsucc := toNat_succ h.counter
    have hle := h.le c hc
    omega
  target := h.target

/-- The controller numbers a new request of this port. -/
theorem add (h : Numbered cs n) (hn : 0 ≤ (n + 1).toInt) {c : CmdPdu}
    (hc : c.seqnum = toULong (n + 1))
    (htarget : ∀ u, c = .cmdUnlink u → ∃ p, UnlinkOf u p ∧ .cmdSubmit p ∈ cs) :
    Numbered (c :: cs) (n + 1) := by
  have htick := h.tick hn
  have hnum : c.num = n + 1 := by rw [CmdPdu.num, hc, wireSeqnum_toULong]
  have hsucc := toNat_succ h.counter
  refine ⟨hn, ?_, fun d hd => ?_, fun d hd => ?_, fun u hu => ?_⟩
  · refine List.nodup_cons.mpr ⟨fun hmem => ?_, h.nodup⟩
    obtain ⟨d, hd, heq⟩ := List.mem_map.mp hmem
    have hle := h.le d hd
    rw [heq, hnum] at hle
    omega
  · rcases List.mem_cons.mp hd with rfl | hd
    · rw [hnum, hc]
      simpa using (toULong_eq_echo_iff (n + 1)).mpr hn
    · exact h.wide d hd
  · rcases List.mem_cons.mp hd with rfl | hd
    · exact hnum ▸ Nat.le_refl _
    · exact htick.le d hd
  · rcases List.mem_cons.mp hu with rfl | hu
    · obtain ⟨p, hup, hp⟩ := htarget u rfl
      exact ⟨p, hup, List.mem_cons_of_mem _ hp⟩
    · obtain ⟨p, hup, hp⟩ := h.target u hu
      exact ⟨p, hup, List.mem_cons_of_mem _ hp⟩

end Numbered

/-! ### What is expected of the environment -/

/-- No failure: memory, socket and payloads are as they should be, the core submits URBs for the
device of the port and unlinks none between the two loops of the transmit thread, the counter does
not become negative, and the server answers requests that have been written and are pending. -/
def Healthy (s : Port) : Act → Prop
  | .enqueue urb _ alloc => alloc = true ∧ (urb.devnum ≠ 0 → s.udev = some urb.dev) ∧
      0 ≤ s.atomicIncReturn.toInt
  | .dequeue urb checkRet alloc => alloc = true ∧ 0 ≤ s.atomicIncReturn.toInt ∧
      DequeueInOrder s (.dequeue urb checkRet alloc)
  | .txSendSubmit ok | .txSendUnlink ok | .rxPayload ok => ok = true
  | .rxRetSubmit q _ => ∃ p ∈ s.privRx, .cmdSubmit p ∈ s.wire ∧ p.seqnum = q.setWidth 64
  | .rxRetUnlink q _ => ∃ u ∈ s.unlinkRx, .cmdUnlink u ∈ s.wire ∧ u.seqnum = q.setWidth 64
  | .shutdown => False
  | _ => True

instance (s : Port) (a : Act) : Decidable (Healthy s a) := by
  induction a using Act.casesOn <;> dsimp only [Healthy] <;> infer_instance

/-- A healthy connection keeps the CMD_UNLINKs behind their CMD_SUBMITs. -/
theorem Healthy.inOrder {s : Port} {a : Act} (h : Healthy s a) : DequeueInOrder s a := by
  cases a with
  | dequeue urb checkRet alloc => exact h.2.2
  | _ => trivial

/-! ### The threads -/

/-- Nothing has failed so far. -/
structure Running (s : Port) : Prop where
  event : s.event = false
  tcpSocket : s.tcpSocket = true
  shut : s.shut = .live
  tx : s.tx ≠ .stopped
  rx : s.rx ≠ .stopped

namespace Running

variable {s s' : Port}

theorem frame (h : Running s) (hevent : s'.event = s.event) (hsock : s'.tcpSocket = s.tcpSocket)
    (hshut : s'.shut = s.shut) (htx : s'.tx ≠ .stopped) (hrx : s'.rx ≠ .stopped) : Running s' :=
  ⟨hevent ▸ h.event, hsock ▸ h.tcpSocket, hshut ▸ h.shut, htx, hrx⟩

/-- A step that moves no thread and reports no event. -/
theorem same (h : Running s) (hevent : s'.event = s.event) (hsock : s'.tcpSocket = s.tcpSocket)
    (hshut : s'.shut = s.shut) (htx : s'.tx = s.tx) (hrx : s'.rx = s.rx) : Running s' :=
  h.frame hevent hsock hshut (htx ▸ h.tx) (hrx ▸ h.rx)

theorem vhciTxUrb (h : Running s) (urb : Urb) : Running (s.vhciTxUrb urb true) := by
  rw [Port.vhciTxUrb]
  split
  · exact h
  · exact h.same rfl rfl rfl rfl rfl

/-- Every step of a healthy connection leaves it running. -/
theorem step (h : Running s) {a : Act} (hok : Healthy s a) (hs : s.step a = some s') :
    Running s' := by
  cases Port.moves_of_step hs with
  | @enqueue urb hout linkRet alloc =>
    obtain ⟨rfl, -, -⟩ := hok
    have hacc : Running (s.accept urb) := h.same rfl rfl rfl rfl rfl
    have hudev : Running ((s.accept urb).setUdev urb) := hacc.same rfl rfl rfl rfl rfl
    exact vhciUrbEnqueue_cases h (hacc.same rfl rfl rfl rfl rfl) (hacc.same rfl rfl rfl rfl rfl)
      (hudev.vhciTxUrb urb) (hacc.vhciTxUrb urb) linkRet
  | dequeueGone | dequeueRefused | retUnlinkUnknown => exact h
  | dequeueClosed hid hsocket alloc => simp [h.tcpSocket] at hsocket
  | dequeueFailed hid hsocket =>
    obtain ⟨halloc, -⟩ := hok
    simp at halloc
  | dequeueLinked | callerGiveback => exact h.same rfl rfl rfl rfl rfl
  | submitsDone | submitTaken | submitSent | unlinksDone | unlinkTaken | unlinkSent | txWake =>
    exact h.frame rfl rfl rfl (by simp) h.rx
  | submitUnsent | unlinkUnsent | payloadFailed => exact absurd hok (by simp [Healthy])
  | txStop htx hshut => simp [h.shut] at hshut
  | retSubmitUnknown hrx hpick status =>
    obtain ⟨p, hp, -, hq⟩ := hok
    have hsome := pickupUrbAndFreePriv_isSome.mpr ⟨p, hp, hq⟩
    simp [hpick] at hsome
  | retSubmit hrx hpick status =>
    obtain ⟨l₁, p, l₂, -, -, rfl⟩ := pickupUrbAndFreePriv_eq_some hpick
    exact h.frame rfl rfl rfl h.tx (by simp)
  | payload | pickupNone | rxGiveback => exact h.frame rfl rfl rfl h.tx (by simp)
  | retUnlink hrx hun status =>
    obtain ⟨l₁, l₂, -, rfl⟩ := dequeuePendingUnlink_eq_some hun
    exact h.frame rfl rfl rfl h.tx (by simp)
  | pickup hrx hpick =>
    obtain ⟨l₁, p, l₂, -, -, rfl⟩ := pickupUrbAndFreePriv_eq_some hpick
    exact h.frame rfl rfl rfl h.tx (by simp)
  | rxStop hrx hstop => simp [h.shut, h.event] at hstop
  | shutdown => exact absurd hok id
  | releaseSocket hshut | cleanup hshut | cleanupOn hshut | cleanupGiveback hshut =>
    simp [h.shut] at hshut

end Running

/-! ### The requests made by a step -/

/-- `s'` has made the requests of `s` and perhaps one more, numbered by the counter. One to unlink
is made by `vhci_urb_dequeue` for a URB that is pending. -/
def Makes (s : Port) (a : Act) (s' : Port) : Prop :=
  (s'.issued.Perm s.issued ∧ s'.seqnum = s.seqnum) ∨
  ∃ c, s'.issued.Perm (c :: s.issued) ∧ c.seqnum = toULong s.atomicIncReturn ∧
    s'.seqnum = s.atomicIncReturn ∧ 0 ≤ s.atomicIncReturn.toInt ∧
    ∀ u, c = .cmdUnlink u → (∃ p ∈ s.privs, UnlinkOf u p) ∧
      ∃ urb, a = .dequeue urb 0 true ∧ s.hcpriv urb = some u.target

variable {s s' : Port}

theorem makes_of_eq {a : Act} (h : s'.issued = s.issued) (hn : s'.seqnum = s.seqnum) :
    Makes s a s' :=
  Or.inl ⟨h ▸ List.Perm.refl _, hn⟩

theorem makes_vhciTxUrb {a : Act} (hn : 0 ≤ s.atomicIncReturn.toInt) (urb : Urb) (alloc : Bool) :
    Makes s a (s.vhciTxUrb urb alloc) := by
  rw [Port.vhciTxUrb]
  split
  · exact makes_of_eq rfl rfl
  split
  · exact makes_of_eq rfl rfl
  · refine Or.inr ⟨.cmdSubmit ⟨s.nextId, toULong s.atomicIncReturn, urb.id⟩,
      List.perm_iff_count.mpr fun c => ?_, rfl, rfl, hn, by simp⟩
    simp only [Port.issued, List.map_append, List.count_append, List.map_cons, List.map_nil,
      List.count_cons, List.count_nil]
    omega

/-- A step makes at most one request. -/
theorem makes_of_step {a : Act} (hrun : Running s) (hok : Healthy s a) (hs : s.step a = some s') :
    Makes s a s' := by
  cases Port.moves_of_step hs with
  | @enqueue urb hout linkRet alloc =>
    exact vhciUrbEnqueue_cases (motive := Makes s (.enqueue urb linkRet alloc))
      (makes_of_eq rfl rfl) (makes_of_eq rfl rfl) (makes_of_eq rfl rfl)
      (makes_vhciTxUrb (s := (s.accept urb).setUdev urb) hok.2.2 urb alloc)
      (makes_vhciTxUrb (s := s.accept urb) hok.2.2 urb alloc) linkRet
  | dequeueClosed hid hsocket alloc => simp [hrun.tcpSocket] at hsocket
  | @dequeueLinked urb id p hid hsocket hp =>
    refine Or.inr ⟨.cmdUnlink ⟨toULong s.atomicIncReturn, p.seqnum, id⟩,
      List.perm_iff_count.mpr fun c => ?_, rfl, rfl, hok.2.1, ?_⟩
    · simp only [Port.issued, List.map_append, List.count_append, List.map_cons, List.map_nil,
        List.count_cons, List.count_nil]
      omega
    · rintro u hu
      obtain rfl := CmdPdu.cmdUnlink.inj hu
      exact ⟨⟨p, List.mem_of_find?_eq_some hp, by simpa using List.find?_some hp, rfl⟩,
        urb, rfl, hid⟩
  | submitsDone htx | unlinksDone htx | txWake htx | txStop htx =>
    exact makes_of_eq (by simp [Port.issued, htx, TxPc.sending]) rfl
  | submitTaken htx hp => exact makes_of_eq (by simp [Port.issued, htx, hp, TxPc.sending]) rfl
  | submitSent htx => exact makes_of_eq (by simp [Port.issued, htx, TxPc.sending]) rfl
  | unlinkTaken htx hu =>
    refine Or.inl ⟨List.perm_iff_count.mpr fun c => ?_, rfl⟩
    simp only [Port.issued, htx, hu, TxPc.sending, List.count_append, List.map_cons,
      List.count_cons, List.count_nil]
    omega
  | unlinkSent htx => exact makes_of_eq (by simp [Port.issued, htx, TxPc.sending]) rfl
  | submitUnsent | unlinkUnsent => exact absurd hok (by simp [Healthy])
  | retSubmit hrx hpick status =>
    obtain ⟨l₁, p, l₂, -, -, rfl⟩ := pickupUrbAndFreePriv_eq_some hpick
    exact makes_of_eq rfl rfl
  | retUnlink hrx hun status =>
    obtain ⟨l₁, l₂, -, rfl⟩ := dequeuePendingUnlink_eq_some hun
    exact makes_of_eq rfl rfl
  | pickup hrx hpick =>
    obtain ⟨l₁, p, l₂, -, -, rfl⟩ := pickupUrbAndFreePriv_eq_some hpick
    exact makes_of_eq rfl rfl
  | dequeueGone | dequeueRefused | retUnlinkUnknown | dequeueFailed | callerGiveback
  | retSubmitUnknown | payload | payloadFailed | pickupNone | rxGiveback | rxStop | shutdown
  | releaseSocket | cleanupGiveback => exact makes_of_eq rfl rfl
  | cleanup hshut | cleanupOn hshut => simp [hrun.shut] at hshut

/-- What a request to unlink names has been made before. -/
theorem cmdSubmit_mem_issued (htx : TxInv s) (hrun : Running s) {p : VhciPriv} (hp : p ∈ s.privs) :
    .cmdSubmit p ∈ s.issued := by
  rcases List.mem_append.mp hp with hp | hp
  · simp [Port.issued, hp]
  · rcases htx.taken hrun.tx p hp with hp | hp
    · simp [Port.issued, hp]
    · simp [Port.issued, hp, TxPc.sending]

/-- Every step of a healthy connection keeps the requests numbered. -/
theorem Numbered.step (h : Numbered s.issued s.seqnum) (htx : TxInv s) (hrun : Running s) {a : Act}
    (hok : Healthy s a) (hs : s.step a = some s') : Numbered s'.issued s'.seqnum := by
  rcases makes_of_step hrun hok hs with ⟨hperm, hn⟩ | ⟨c, hperm, hc, hn, hcounter, hun⟩
  · exact hn ▸ h.perm hperm
  · rw [hn]
    refine (h.add hcounter hc fun u hu => ?_).perm hperm
    obtain ⟨⟨p, hp, hup⟩, -⟩ := hun u hu
    exact ⟨p, hup, cmdSubmit_mem_issued htx hrun hp⟩

/-- The entry that a request asks to unlink. -/
def CmdPdu.target : CmdPdu → Option ℕ
  | .cmdSubmit _ => none
  | .cmdUnlink u => some u.target

/-- `usb_hcd_check_unlink_urb` refuses a URB that has been unlinked already. -/
def UnlinkedOnce (s : Port) : Act → Prop
  | .dequeue urb checkRet _ => checkRet = 0 →
      ∀ c ∈ s.issued, c.target ≠ none → s.hcpriv urb ≠ c.target
  | _ => True

instance (s : Port) (a : Act) : Decidable (UnlinkedOnce s a) := by
  induction a using Act.casesOn <;> dsimp only [UnlinkedOnce] <;> infer_instance

/-- No two requests to unlink name one entry. -/
def Once (cs : List CmdPdu) : Prop :=
  ∀ u v, .cmdUnlink u ∈ cs → .cmdUnlink v ∈ cs → u.target = v.target → u = v

/-- Every step keeps it as long as no URB is unlinked twice. -/
theorem Once.step (h : Once s.issued) {a : Act} (hrun : Running s) (hok : Healthy s a)
    (honce : UnlinkedOnce s a) (hs : s.step a = some s') : Once s'.issued := by
  rcases makes_of_step hrun hok hs with ⟨hperm, -⟩ | ⟨c, hperm, -, -, -, hun⟩
  · exact fun u v hu hv => h u v (hperm.mem_iff.mp hu) (hperm.mem_iff.mp hv)
  have hnew : ∀ u v, c = .cmdUnlink u → .cmdUnlink v ∈ s.issued → u.target ≠ v.target := by
    intro u v hu hv heq
    obtain ⟨-, urb, rfl, hid⟩ := hun u hu
    exact honce rfl _ hv (by simp [CmdPdu.target]) (hid.trans (congrArg some heq))
  intro u v hu hv heq
  rcases List.mem_cons.mp (hperm.mem_iff.mp hu) with hu | hu
  · rcases List.mem_cons.mp (hperm.mem_iff.mp hv) with hv | hv
    · exact CmdPdu.cmdUnlink.inj (hu.trans hv.symm)
    · exact absurd heq (hnew u v hu.symm hv)
  · rcases List.mem_cons.mp (hperm.mem_iff.mp hv) with hv | hv
    · exact absurd heq.symm (hnew v u hv.symm hu)
    · exact h u v hu hv heq

/-! ### What waits for an answer -/

/-- `unlink_rx` holds what has been written or is being written, the request being written waits
for its answer, and the receive thread works on the answer to a request that has been written. -/
structure Pending (s : Port) : Prop where
  unlinkRx : ∀ u ∈ s.unlinkRx, .cmdUnlink u ∈ s.wire ∨ s.tx = .sendUnlink u
  unlinkRx_nodup : s.unlinkRx.Nodup
  sendSubmit : ∀ p, s.tx = .sendSubmit p → p ∈ s.privRx
  sendUnlink : ∀ u, s.tx = .sendUnlink u → u ∈ s.unlinkRx
  retUnlink : ∀ u st, s.rx = .retUnlink u st → .cmdUnlink u ∈ s.wire

/-- What `pickup_urb_and_free_priv` finds is what was asked for. -/
theorem pickupUrbAndFreePriv_found {q : BitVec 32} {urb : ℕ}
    (h : s.pickupUrbAndFreePriv q = some (urb, s')) :
    ∃ l₁ p l₂, s.privRx = l₁ ++ p :: l₂ ∧ p.seqnum = q.setWidth 64 ∧ p.urb = urb ∧
      s' = { s with privRx := l₁ ++ l₂, hcpriv := Function.update s.hcpriv urb none } := by
  rw [pickupUrbAndFreePriv] at h
  obtain ⟨⟨l₁, p, l₂⟩, hwalk, heq⟩ := Option.map_eq_some_iff.mp h
  obtain ⟨hl, hp, -⟩ := findSplit_eq_some hwalk
  obtain ⟨rfl, rfl⟩ := Prod.mk.inj heq
  exact ⟨l₁, p, l₂, hl, by simpa using hp, rfl, rfl⟩

/-- What `dequeue_pending_unlink` finds is what was asked for. -/
theorem dequeuePendingUnlink_found {q : BitVec 32} {u : VhciUnlink}
    (h : s.dequeuePendingUnlink q = some (u, s')) :
    ∃ l₁ l₂, s.unlinkRx = l₁ ++ u :: l₂ ∧ u.seqnum = q.setWidth 64 ∧
      s' = { s with unlinkRx := l₁ ++ l₂ } := by
  rw [dequeuePendingUnlink] at h
  obtain ⟨⟨l₁, v, l₂⟩, hwalk, heq⟩ := Option.map_eq_some_iff.mp h
  obtain ⟨hl, hp, -⟩ := findSplit_eq_some hwalk
  obtain ⟨rfl, rfl⟩ := Prod.mk.inj heq
  exact ⟨l₁, l₂, hl, by simpa using hp, rfl⟩

namespace Numbered

/-- Requests with one stored number are one. -/
theorem eq_of_seqnum_eq {cs : List CmdPdu} {n : BitVec 32} (h : Numbered cs n) {c d : CmdPdu}
    (hc : c ∈ cs) (hd : d ∈ cs) (heq : c.seqnum = d.seqnum) : c = d :=
  h.eq_of_num_eq hc hd (congrArg wireSeqnum heq)

/-- What is on its way has not been written before. -/
theorem not_written (h : Numbered s.issued s.seqnum) {c : CmdPdu}
    (hc : c ∈ s.tx.sending ++ (s.privTx.map .cmdSubmit ++ s.unlinkTx.map .cmdUnlink)) :
    c ∉ s.wire := by
  have hnd := h.nodup
  rw [Port.issued, List.map_append] at hnd
  intro hw
  exact (List.nodup_append'.mp hnd).2.2 (List.mem_map_of_mem hw) (List.mem_map_of_mem hc)

/-- The entry that a RET_SUBMIT takes off `priv_rx` is the one that was written under its
number. -/
theorem pickup_written (h : Numbered s.issued s.seqnum) (htx : TxInv s) (hrun : Running s)
    {q : BitVec 32} {urb : ℕ} {p : VhciPriv} (hp : .cmdSubmit p ∈ s.wire)
    (hq : p.seqnum = q.setWidth 64) (hpick : s.pickupUrbAndFreePriv q = some (urb, s')) :
    ∃ l₁ l₂, s.privRx = l₁ ++ p :: l₂ ∧ p.urb = urb ∧
      s' = { s with privRx := l₁ ++ l₂, hcpriv := Function.update s.hcpriv urb none } := by
  obtain ⟨l₁, r, l₂, hl, hrq, hurb, hs'⟩ := pickupUrbAndFreePriv_found hpick
  have hr : .cmdSubmit r ∈ s.issued :=
    cmdSubmit_mem_issued htx hrun (List.mem_append_right _ (by simp [hl]))
  have heq := h.eq_of_seqnum_eq hr (List.mem_append_left _ hp) (hrq.trans hq.symm)
  obtain rfl := CmdPdu.cmdSubmit.inj heq
  exact ⟨l₁, l₂, hl, hurb, hs'⟩

/-- The entry that a RET_UNLINK takes off `unlink_rx` is the one that was written under its
number. -/
theorem dequeue_written (h : Numbered s.issued s.seqnum) (hpend : Pending s) {q : BitVec 32}
    {u v : VhciUnlink} (hu : .cmdUnlink u ∈ s.wire) (hq : u.seqnum = q.setWidth 64)
    (hdeq : s.dequeuePendingUnlink q = some (v, s')) :
    v = u ∧ ∃ l₁ l₂, s.unlinkRx = l₁ ++ u :: l₂ ∧ s' = { s with unlinkRx := l₁ ++ l₂ } := by
  obtain ⟨l₁, l₂, hl, hvq, hs'⟩ := dequeuePendingUnlink_found hdeq
  have hv : .cmdUnlink v ∈ s.issued := by
    rcases hpend.unlinkRx v (by simp [hl]) with hv | hv
    · exact List.mem_append_left _ hv
    · simp [Port.issued, hv, TxPc.sending]
  have heq := h.eq_of_seqnum_eq hv (List.mem_append_left _ hu) (hvq.trans hq.symm)
  obtain rfl := CmdPdu.cmdUnlink.inj heq
  exact ⟨rfl, l₁, l₂, hl, hs'⟩

/-- The number in a CMD_UNLINK that has been written is that of a CMD_SUBMIT written before. -/
theorem target_written (h : Numbered s.issued s.seqnum) (htx : TxInv s) {u : VhciUnlink}
    (hu : .cmdUnlink u ∈ s.wire) :
    ∃ p, UnlinkOf u p ∧ .cmdSubmit p ∈ s.wire ∧
      p.seqnum = (wireSeqnum u.unlinkSeqnum).setWidth 64 := by
  obtain ⟨pre, post, hw⟩ := List.append_of_mem hu
  obtain ⟨p, hup, hp⟩ := htx.wire pre _ post hw u rfl
  have hp : .cmdSubmit p ∈ s.wire := by simp [hw, hp]
  exact ⟨p, hup, hp, hup.2 ▸ h.wide _ (List.mem_append_left _ hp)⟩

end Numbered

namespace Pending

/-- A step that touches neither the transmit thread nor what waits for an answer. -/
theorem frame (h : Pending s) (hwire : s'.wire = s.wire) (htx : s'.tx = s.tx)
    (hprx : s'.privRx = s.privRx) (hurx : s'.unlinkRx = s.unlinkRx)
    (hrx : ∀ u st, s'.rx = .retUnlink u st → s.rx = .retUnlink u st) : Pending s' where
  unlinkRx u hu := by rw [hwire, htx]; exact h.unlinkRx u (hurx ▸ hu)
  unlinkRx_nodup := hurx ▸ h.unlinkRx_nodup
  sendSubmit p hp := hprx ▸ h.sendSubmit p (htx ▸ hp)
  sendUnlink u hu := hurx ▸ h.sendUnlink u (htx ▸ hu)
  retUnlink u st hu := hwire ▸ h.retUnlink u st (hrx u st hu)

/-- A thread that has written what it has taken goes on. -/
theorem advance (h : Pending s) {tx : TxPc} (hsend : s.tx.sending = []) (hsend' : tx.sending = []) :
    Pending { s with tx := tx } where
  unlinkRx u hu := by
    refine Or.inl ((h.unlinkRx u hu).resolve_right fun hu' => ?_)
    simp [hu', TxPc.sending] at hsend
  unlinkRx_nodup := h.unlinkRx_nodup
  sendSubmit p hp := by simp [show tx = .sendSubmit p from hp, TxPc.sending] at hsend'
  sendUnlink u hu := by simp [show tx = .sendUnlink u from hu, TxPc.sending] at hsend'
  retUnlink := h.retUnlink

/-- What has been taken is written. -/
theorem sent (h : Pending s) {tx : TxPc} {c : CmdPdu} (hsend : s.tx.sending = [c])
    (hsend' : tx.sending = []) : Pending { s with wire := s.wire ++ [c], tx := tx } where
  unlinkRx u hu := by
    refine Or.inl (List.mem_append.mpr ((h.unlinkRx u hu).imp_right fun hu' => ?_))
    simpa [hu', TxPc.sending] using hsend
  unlinkRx_nodup := h.unlinkRx_nodup
  sendSubmit p hp := by simp [show tx = .sendSubmit p from hp, TxPc.sending] at hsend'
  sendUnlink u hu := by simp [show tx = .sendUnlink u from hu, TxPc.sending] at hsend'
  retUnlink u st hu := List.mem_append_left _ (h.retUnlink u st hu)

/-- An entry that was written is taken off `priv_rx`. -/
theorem remove (h : Pending s) (hnum : Numbered s.issued s.seqnum) {p : VhciPriv}
    {l₁ l₂ : List VhciPriv} (hp : .cmdSubmit p ∈ s.wire) (hl : s.privRx = l₁ ++ p :: l₂)
    (hwire : s'.wire = s.wire) (htx : s'.tx = s.tx) (hprx : s'.privRx = l₁ ++ l₂)
    (hurx : s'.unlinkRx = s.unlinkRx) (hrx : ∀ u st, s'.rx ≠ .retUnlink u st) : Pending s' where
  unlinkRx u hu := by rw [hwire, htx]; exact h.unlinkRx u (hurx ▸ hu)
  unlinkRx_nodup := hurx ▸ h.unlinkRx_nodup
  sendSubmit r hr := by
    have hne : r ≠ p := by
      rintro rfl
      exact hnum.not_written (by simp [htx ▸ hr, TxPc.sending]) hp
    have hmem := h.sendSubmit r (htx ▸ hr)
    rw [hl] at hmem
    simpa [hprx, hne] using hmem
  sendUnlink u hu := hurx ▸ h.sendUnlink u (htx ▸ hu)
  retUnlink u st hu := absurd hu (hrx u st)

/-- An entry that was written is taken off `unlink_rx` by the receive thread. -/
theorem removeUnlink (h : Pending s) (hnum : Numbered s.issued s.seqnum) {u : VhciUnlink}
    {l₁ l₂ : List VhciUnlink} (hu : .cmdUnlink u ∈ s.wire) (hl : s.unlinkRx = l₁ ++ u :: l₂)
    (status : ℤ) : Pending { s with unlinkRx := l₁ ++ l₂, rx := .retUnlink u status } where
  unlinkRx v hv := by
    refine h.unlinkRx v ?_
    rcases List.mem_append.mp hv with hv | hv <;> simp [hl, hv]
  unlinkRx_nodup := (List.nodup_middle.mp (hl ▸ h.unlinkRx_nodup)).of_cons
  sendSubmit := h.sendSubmit
  sendUnlink v hv := by
    have hne : v ≠ u := by
      rintro rfl
      exact hnum.not_written (by simp [show s.tx = .sendUnlink v from hv, TxPc.sending]) hu
    have hmem := h.sendUnlink v hv
    rw [hl] at hmem
    simpa [hne] using hmem
  retUnlink v st hv := by
    obtain ⟨rfl, -⟩ := RxPc.retUnlink.inj hv
    exact hu

theorem vhciTxUrb (h : Pending s) (urb : Urb) (alloc : Bool) :
    Pending (s.vhciTxUrb urb alloc) := by
  rw [Port.vhciTxUrb]
  split
  · exact h
  split
  · exact h.frame rfl rfl rfl rfl fun _ _ h => h
  · exact h.frame rfl rfl rfl rfl fun _ _ h => h

/-- Every step of a healthy connection keeps what waits for an answer. -/
theorem step (h : Pending s) (hnum : Numbered s.issued s.seqnum) (htxi : TxInv s)
    (hrun : Running s) {a : Act} (hok : Healthy s a) (hs : s.step a = some s') : Pending s' := by
  cases Port.moves_of_step hs with
  | @enqueue urb hout linkRet alloc =>
    have hacc : Pending (s.accept urb) := h.frame rfl rfl rfl rfl fun _ _ h => h
    have hudev : Pending ((s.accept urb).setUdev urb) := hacc.frame rfl rfl rfl rfl fun _ _ h => h
    exact vhciUrbEnqueue_cases h (hacc.frame rfl rfl rfl rfl fun _ _ h => h)
      (hacc.frame rfl rfl rfl rfl fun _ _ h => h) (hudev.vhciTxUrb urb alloc)
      (hacc.vhciTxUrb urb alloc) linkRet
  | dequeueGone | dequeueRefused | retUnlinkUnknown => exact h
  | dequeueClosed hid hsocket alloc => simp [hrun.tcpSocket] at hsocket
  | dequeueFailed | dequeueLinked | callerGiveback | retSubmitUnknown | shutdown
  | releaseSocket | cleanupGiveback => exact h.frame rfl rfl rfl rfl fun _ _ h => h
  | payload | payloadFailed | pickupNone | rxGiveback | rxStop =>
    exact h.frame rfl rfl rfl rfl fun _ _ h => by simp at h
  | submitsDone htx | unlinksDone htx | txWake htx | txStop htx =>
    exact h.advance (by simp [htx, TxPc.sending]) rfl
  | @submitTaken p rest htx hp =>
    refine ⟨fun u hu => Or.inl ((h.unlinkRx u hu).resolve_right (by simp [htx])),
      h.unlinkRx_nodup, fun r hr => ?_, fun u hu => by simp at hu, h.retUnlink⟩
    obtain rfl := TxPc.sendSubmit.inj hr
    exact List.mem_append_right _ List.mem_cons_self
  | submitSent htx => exact h.sent (by simp [htx, TxPc.sending]) rfl
  | @unlinkTaken u rest htx hu =>
    have hwritten : ∀ v ∈ s.unlinkRx, .cmdUnlink v ∈ s.wire := fun v hv =>
      (h.unlinkRx v hv).resolve_right (by simp [htx])
    refine ⟨fun v hv => ?_, ?_, fun p hp => by simp at hp, fun v hv => ?_, h.retUnlink⟩
    · rcases List.mem_append.mp hv with hv | hv
      · exact Or.inl (hwritten v hv)
      · obtain rfl := List.mem_singleton.mp hv
        exact Or.inr rfl
    · refine List.nodup_append_comm.mp (List.nodup_cons.mpr ⟨fun hmem => ?_, h.unlinkRx_nodup⟩)
      exact hnum.not_written (by simp [hu]) (hwritten u hmem)
    · obtain rfl := TxPc.sendUnlink.inj hv
      exact List.mem_append_right _ List.mem_cons_self
  | unlinkSent htx => exact h.sent (by simp [htx, TxPc.sending]) rfl
  | submitUnsent | unlinkUnsent => exact absurd hok (by simp [Healthy])
  | retSubmit hrx hpick status =>
    obtain ⟨p, -, hp, hq⟩ := hok
    obtain ⟨l₁, l₂, hl, -, rfl⟩ := hnum.pickup_written htxi hrun hp hq hpick
    exact h.remove hnum hp hl rfl rfl rfl rfl fun _ _ h => by simp at h
  | retUnlink hrx hun status =>
    obtain ⟨u, -, hu, hq⟩ := hok
    obtain ⟨rfl, l₁, l₂, hl, rfl⟩ := hnum.dequeue_written h hu hq hun
    exact h.removeUnlink hnum hu hl status
  | pickup hrx hpick =>
    obtain ⟨p, -, hp, hq⟩ := hnum.target_written htxi (h.retUnlink _ _ hrx)
    obtain ⟨l₁, l₂, hl, -, rfl⟩ := hnum.pickup_written htxi hrun hp hq hpick
    exact h.remove hnum hp hl rfl rfl rfl rfl fun _ _ h => by simp at h
  | cleanup hshut | cleanupOn hshut => simp [hrun.shut] at hshut

end Pending

/-! ### No URB is lost -/

/-- The port holds every URB that the core waits for. -/
def Kept (s : Port) : Prop := ∀ u, outstanding s.core u = true → u ∈ s.held

namespace Kept

theorem frame (h : Kept s) (hheld : s.held ⊆ s'.held) (hcore : s'.core = s.core) : Kept s' :=
  fun u hu => hheld (h u (hcore ▸ hu))

/-- A giveback drops the URB that it completes. -/
theorem giveback (h : Kept s) {u : ℕ} {st : ℤ} (hheld : s.held ⊆ u :: s'.held)
    (hcore : s'.core = s.core ++ [.giveback u st]) : Kept s' := by
  intro v hv
  rw [hcore, outstanding_giveback] at hv
  split at hv
  · simp at hv
  next hne => exact (List.mem_cons.mp (hheld (h v hv))).resolve_left fun heq => hne heq.symm

/-- A URB handed over goes to one place. -/
theorem place (h : Kept s) (urb : Urb) (hheld : s.held ⊆ s'.held) (hmem : urb.id ∈ s'.held)
    (hcore : s'.core = s.core ++ [.enqueue urb.id]) : Kept s' := by
  intro v hv
  rw [hcore, outstanding_enqueue] at hv
  split at hv
  next heq => exact heq ▸ hmem
  next => exact hheld (h v hv)

/-- The port takes over a URB for its device. -/
theorem vhciTxUrb (h : Kept s) {urb : Urb} (hdev : s.udev = some urb.dev) :
    Kept ((s.accept urb).vhciTxUrb urb true) := by
  have hacc : (s.accept urb).udev = some urb.dev := hdev
  rw [Port.vhciTxUrb, if_neg (not_not.mpr hacc), if_neg (by simp)]
  refine h.place urb (fun v hv => ?_) (by simp [Port.held, Port.privs]) rfl
  simp only [Port.held, Port.privs, Port.accept, List.map_append, List.mem_append] at hv ⊢
  tauto

theorem vhciUrbEnqueue (h : Kept s) {urb : Urb} (hdev : urb.devnum ≠ 0 → s.udev = some urb.dev)
    (linkRet : ℤ) : Kept (s.vhciUrbEnqueue urb linkRet true).2 := by
  have hcaller : ∀ s₁ : Port, s₁.held = s.held → s₁.core = s.core ++ [.enqueue urb.id] →
      Kept (s₁.noNeedXmit urb.id) := fun s₁ hheld hcore => by
    refine h.place urb (fun v hv => ?_) ?_ hcore
    · rw [← hheld] at hv
      simp only [Port.held, Port.privs, Port.retiring, Port.noNeedXmit, List.mem_append] at hv ⊢
      tauto
    · simp [Port.held, Port.retiring, Port.noNeedXmit]
  rw [Port.vhciUrbEnqueue]
  split
  · exact h
  split
  · exact h
  split
  · exact hcaller _ rfl rfl
  split
  · split
    · exact hcaller _ rfl rfl
    · have hudev : Kept (s.setUdev urb) := h.frame (List.Subset.refl _) rfl
      exact hudev.vhciTxUrb rfl
    · exact hcaller _ rfl rfl
  next hnum => exact h.vhciTxUrb (hdev hnum)

/-- An entry goes from `priv_rx` to the receive thread. -/
theorem pickup (h : Kept s) {q : BitVec 32} {urb : ℕ} {s₁ : Port}
    (hpick : s.pickupUrbAndFreePriv q = some (urb, s₁)) {rx : RxPc} (hidle : s.rx.held = [])
    (hrx : rx.held = [urb]) (st : ℤ) : Kept { s₁.setStatus urb st with rx := rx } := by
  obtain ⟨l₁, p, l₂, hl, rfl, rfl⟩ := pickupUrbAndFreePriv_eq_some hpick
  refine h.frame (fun v hv => ?_) rfl
  simp only [Port.held, Port.privs, Port.retiring, Port.setStatus, hl, hidle, hrx,
    List.map_append, List.map_cons, List.mem_append, List.mem_cons, List.not_mem_nil] at hv ⊢
  tauto

/-- Every step of a healthy connection keeps the URBs. -/
theorem step (h : Kept s) (hrun : Running s) {a : Act} (hok : Healthy s a)
    (hs : s.step a = some s') : Kept s' := by
  cases Port.moves_of_step hs with
  | @enqueue urb hout linkRet alloc =>
    obtain ⟨rfl, hdev, -⟩ := hok
    exact h.vhciUrbEnqueue hdev linkRet
  | dequeueGone | dequeueRefused | retUnlinkUnknown => exact h
  | dequeueClosed hid hsocket alloc => simp [hrun.tcpSocket] at hsocket
  | dequeueFailed | dequeueLinked | submitsDone | submitSent | submitUnsent | unlinksDone
  | unlinkTaken | unlinkSent | unlinkUnsent | txStop | txWake | retSubmitUnknown =>
    exact h.frame (List.Subset.refl _) rfl
  | @callerGiveback urb hmem =>
    refine h.giveback (fun v hv => ?_) rfl
    simp only [Port.held, Port.privs, Port.retiring, Port.givebackUrb, List.mem_append,
      List.mem_cons] at hv ⊢
    have herase : v ∈ s.callers → v ∈ urb :: s.callers.erase urb :=
      (List.perm_cons_erase hmem).mem_iff.mp
    rw [List.mem_cons] at herase
    tauto
  | submitTaken htx hp =>
    refine h.frame (fun v hv => ?_) rfl
    simp only [Port.held, Port.privs, Port.retiring, hp, List.map_append, List.map_cons,
      List.mem_append, List.mem_cons] at hv ⊢
    tauto
  | retSubmit hrx hpick status => exact h.pickup hpick (by simp [hrx, RxPc.held]) rfl status
  | pickup hrx hpick => exact h.pickup hpick (by simp [hrx, RxPc.held]) rfl _
  | payload hrx | pickupNone hrx hpick | rxStop hrx hstop =>
    refine h.frame (fun v hv => ?_) rfl
    simpa [Port.held, Port.privs, Port.retiring, hrx, RxPc.held] using hv
  | payloadFailed => exact absurd hok (by simp [Healthy])
  | retUnlink hrx hun status =>
    obtain ⟨l₁, l₂, -, rfl⟩ := dequeuePendingUnlink_eq_some hun
    refine h.frame (fun v hv => ?_) rfl
    simpa [Port.held, Port.privs, Port.retiring, hrx, RxPc.held] using hv
  | @rxGiveback urb hrx =>
    refine h.giveback (fun v hv => ?_) rfl
    simp only [Port.held, Port.privs, Port.retiring, Port.givebackUrb, hrx, RxPc.held,
      List.mem_append, List.mem_cons, List.not_mem_nil] at hv ⊢
    tauto
  | shutdown => exact absurd hok id
  | releaseSocket hshut | cleanup hshut | cleanupOn hshut | cleanupGiveback hshut =>
    simp [hrun.shut] at hshut

end Kept

/-! ### The client side as a whole -/

/-- Everything that a healthy connection keeps on the client side. -/
structure ClientInv (s : Port) : Prop where
  port : PortInv s
  order : TxInv s
  running : Running s
  numbered : Numbered s.issued s.seqnum
  pending : Pending s
  kept : Kept s

namespace ClientInv

/-- Every step of a healthy connection keeps it. -/
theorem step (h : ClientInv s) {a : Act} (hok : Healthy s a) (hs : s.step a = some s') :
    ClientInv s' where
  port := h.port.step hs
  order := h.order.step hok.inOrder hs
  running := h.running.step hok hs
  numbered := h.numbered.step h.order h.running hok hs
  pending := h.pending.step h.numbered h.order h.running hok hs
  kept := h.kept.step h.running hok hs

/-- A request of another port moves the counter only. -/
theorem tick (h : ClientInv s) (hn : 0 ≤ s.atomicIncReturn.toInt) :
    ClientInv { s with seqnum := s.atomicIncReturn } where
  port := h.port.frame rfl rfl rfl rfl rfl
  order := h.order.frame rfl rfl rfl rfl rfl rfl
  running := h.running.same rfl rfl rfl rfl rfl
  numbered := h.numbered.tick hn
  pending := h.pending.frame rfl rfl rfl rfl fun _ _ h => h
  kept := h.kept.frame (List.Subset.refl _) rfl

/-- A port that has just been attached. -/
theorem attached {seqnum : BitVec 32} (hn : 0 ≤ seqnum.toInt) (udev : Option ℕ) :
    ClientInv (attached seqnum udev) where
  port := .of_reachable (.init : (vhciPort seqnum udev).Reachable _)
  order := .of_reachableWhere (.init : (vhciPort seqnum udev).ReachableWhere DequeueInOrder _)
  running := ⟨rfl, rfl, rfl, by simp [Vhci.attached], by simp [Vhci.attached]⟩
  numbered := ⟨hn, by simp [Port.issued, Vhci.attached, TxPc.sending],
    by simp [Port.issued, Vhci.attached, TxPc.sending],
    by simp [Port.issued, Vhci.attached, TxPc.sending],
    by simp [Port.issued, Vhci.attached, TxPc.sending]⟩
  pending := ⟨by simp [Vhci.attached], by simp [Vhci.attached], by simp [Vhci.attached],
    by simp [Vhci.attached], by simp [Vhci.attached]⟩
  kept := by simp [Kept, Vhci.attached]

end ClientInv

/-- What is written stays written. -/
theorem wire_of_step {a : Act} (hs : s.step a = some s') : ∃ l, s'.wire = s.wire ++ l := by
  have hsame : s'.wire = s.wire → ∃ l, s'.wire = s.wire ++ l := fun h => ⟨[], by simp [h]⟩
  have hloop : ∀ us (s₁ : Port), s₁.wire = s.wire → (unlinkCleanupLoop us s₁).wire = s.wire := by
    intro us s₁ h
    refine unlinkCleanupLoop_cases (motive := fun p => p.wire = s.wire) h
      (fun seqnum urb s₂ rest hpick => ?_) us
    obtain ⟨l₁, p, l₂, -, -, rfl⟩ := pickupUrbAndFreePriv_eq_some hpick
    exact h
  cases Port.moves_of_step hs with
  | submitSent htx => exact ⟨_, rfl⟩
  | unlinkSent htx => exact ⟨_, rfl⟩
  | @enqueue urb hout linkRet alloc =>
    have htx : ∀ s₁ : Port, s₁.wire = s.wire → (s₁.vhciTxUrb urb alloc).wire = s.wire := by
      intro s₁ h
      rw [Port.vhciTxUrb]
      split
      · exact h
      split <;> exact h
    refine hsame (vhciUrbEnqueue_cases (motive := fun p => p.wire = s.wire) rfl rfl rfl
      (htx _ rfl) (htx _ rfl) linkRet)
  | retSubmit hrx hpick status | pickup hrx hpick =>
    obtain ⟨l₁, p, l₂, -, -, rfl⟩ := pickupUrbAndFreePriv_eq_some hpick
    exact hsame rfl
  | retUnlink hrx hun status =>
    obtain ⟨l₁, l₂, -, rfl⟩ := dequeuePendingUnlink_eq_some hun
    exact hsame rfl
  | cleanup hshut | cleanupOn hshut => exact hsame (hloop _ _ rfl)
  | _ => exact hsame rfl

end Usbip.Vhci
