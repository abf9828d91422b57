import Usbip.Stub.Device
import Mathlib.Tactic.Common

/-!
# The order of RET_SUBMIT and RET_UNLINK

`stub_tx_loop` empties `priv_tx` before `unlink_tx`, so that a URB that completed before its
CMD_UNLINK was processed has its RET_SUBMIT written before the RET_UNLINK, as its comment
says. Between the two loops nothing is locked: when a completion and the CMD_UNLINK both land
after `priv_tx` was found empty and before `unlink_tx` is found empty, the RET_UNLINK is
written first (`ret_unlink_overtakes_ret_submit`). The client then retires the URB on it, and
the RET_SUBMIT that follows matches no request.

The condition `UnlinkInOrder` excludes exactly such CMD_UNLINKs. Under it every URB that had
completed when an unlink for it was processed has its RET_SUBMIT ahead (`OrderInv`): already
written, about to be written, or still on `priv_tx` while the thread has yet to empty that
queue.
-/

namespace Usbip.Stub

open ListWalk Trace

/-- The transmit thread has found `priv_tx` empty and not yet `unlink_tx`. -/
def TxPc.unlinking : TxPc → Bool
  | .freeSubmit | .unlinkLoop | .sendUnlink _ => true
  | _ => false

/-- A RET_UNLINK comes after the RET_SUBMIT of each URB that had completed when the CMD_UNLINK
it answers was processed. -/
def SubmitReplyFirst (pre : List StubEvent) (e : StubEvent) : Prop :=
  ∀ u, e = .retUnlink u → ∀ a b q t, pre = a ++ .cmdUnlink q t :: b → u.seqnum = ofU32 q →
    ∀ p, .complete p ∈ a → p.seqnum = ofU32 t → .retSubmit p ∈ pre

/-- The `unlink.seqnum` of the CMD_UNLINK that the receive thread reads next. -/
def StubDevice.unlinkTarget (s : StubDevice) : Option (BitVec 32) :=
  match s.input with
  | .cmdUnlink _ target :: _ => some target
  | _ => none

/-- While the transmit thread is between its two loops or in the second, no CMD_UNLINK is
processed whose target is on `priv_tx`. -/
def UnlinkInOrder (s : StubDevice) : Act → Prop
  | .rxPdu _ => s.tx.unlinking = true → ∀ p ∈ s.privTx, s.unlinkTarget.map ofU32 ≠ some p.seqnum
  | _ => True

instance (s : StubDevice) (a : Act) : Decidable (UnlinkInOrder s a) := by
  induction a using Act.casesOn <;> dsimp only [UnlinkInOrder] <;> infer_instance

/-- A CMD_UNLINK for this `stub_priv` has been processed after its URB completed. -/
def Late (log : List StubEvent) (p : StubPriv) : Prop :=
  ∃ a b q t, log = a ++ .cmdUnlink q t :: b ∧ .complete p ∈ a ∧ p.seqnum = ofU32 t

/-- Only a CMD_UNLINK for a completed URB makes it late. -/
theorem late_concat {log : List StubEvent} {e : StubEvent} {p : StubPriv} :
    Late (log ++ [e]) p ↔
      Late log p ∨ ∃ q t, e = .cmdUnlink q t ∧ .complete p ∈ log ∧ p.seqnum = ofU32 t := by
  constructor
  · rintro ⟨a, b, q, t, heq, hp, ht⟩
    rcases List.eq_nil_or_concat b with rfl | ⟨b', x, rfl⟩
    · obtain ⟨rfl, h2⟩ := List.append_inj' heq rfl
      exact Or.inr ⟨q, t, by simpa using h2, hp, ht⟩
    · have h' : log ++ [e] = (a ++ .cmdUnlink q t :: b') ++ [x] := by
        simpa [List.concat_eq_append] using heq
      obtain ⟨h1, -⟩ := List.append_inj' h' rfl
      exact Or.inl ⟨a, b', q, t, h1, hp, ht⟩
  · rintro (⟨a, b, q, t, rfl, hp, ht⟩ | ⟨q, t, rfl, hp, ht⟩)
    · exact ⟨a, b ++ [e], q, t, by simp, hp, ht⟩
    · exact ⟨log, [], q, t, rfl, hp, ht⟩

namespace StubDevice

/-- `p` has left `priv_tx`. -/
def Taken (s : StubDevice) (p : StubPriv) : Prop := .retSubmit p ∈ s.log ∨ s.tx = .sendSubmit p

/-- The RET_SUBMIT of `p` will be written before `unlink_tx` is served again. -/
def Ahead (s : StubDevice) (p : StubPriv) : Prop :=
  s.Taken p ∨ p ∈ s.privTx ∧ s.tx.unlinking = false

end StubDevice

/-- The invariant of the transmit thread. What is on the queues matters only as long as the
thread runs. -/
structure OrderInv (s : StubDevice) : Prop where
  wire : Historical SubmitReplyFirst s.log
  completed : s.tx ≠ .stopped → ∀ p, .complete p ∈ s.log → s.Taken p ∨ p ∈ s.privTx
  late : s.tx ≠ .stopped → ∀ p, Late s.log p → s.Ahead p

namespace OrderInv

variable {s s' : StubDevice}

/-- Once the thread has stopped, nothing is written any more. -/
theorem stopped (hwire : Historical SubmitReplyFirst s.log) (htx : s.tx = .stopped) :
    OrderInv s :=
  ⟨hwire, fun h => absurd htx h, fun h => absurd htx h⟩

/-- A step that touches neither the thread nor its queue. -/
theorem frame (h : OrderInv s) (hlog : s'.log = s.log) (htx : s'.tx = s.tx)
    (hptx : s'.privTx = s.privTx) : OrderInv s' := by
  refine ⟨hlog ▸ h.wire, fun hrun p hp => ?_, fun hrun p hp => ?_⟩
  · rw [StubDevice.Taken, hlog, htx, hptx]
    exact h.completed (htx ▸ hrun) p (hlog ▸ hp)
  · rw [StubDevice.Ahead, StubDevice.Taken, hlog, htx, hptx]
    exact h.late (htx ▸ hrun) p (hlog ▸ hp)

/-- An event that is neither a reply to an unlink, nor a completion, nor a CMD_UNLINK. -/
theorem emit (h : OrderInv s) {e : StubEvent} (hlog : s'.log = s.log ++ [e])
    (htx : s'.tx = s.tx) (hptx : s'.privTx = s.privTx) (hun : ∀ u, e ≠ .retUnlink u)
    (hco : ∀ p, e ≠ .complete p) (hcm : ∀ q t, e ≠ .cmdUnlink q t) : OrderInv s' := by
  have htaken : ∀ p, s.Taken p → s'.Taken p := by
    intro p hp
    rw [StubDevice.Taken, hlog, htx]
    exact hp.imp_left (List.mem_append_left _)
  refine ⟨?_, fun hrun p hp => ?_, fun hrun p hp => ?_⟩
  · rw [hlog, historical_concat]
    exact ⟨h.wire, fun u hu => absurd hu (hun u)⟩
  · rw [hlog, List.mem_append, List.mem_singleton] at hp
    have hp := hp.resolve_right fun heq => hco p heq.symm
    rw [hptx]
    exact (h.completed (htx ▸ hrun) p hp).imp_left (htaken p)
  · rw [hlog, late_concat] at hp
    have hp := hp.resolve_right fun ⟨q, t, heq, _⟩ => hcm q t heq
    rw [StubDevice.Ahead, htx, hptx]
    exact (h.late (htx ▸ hrun) p hp).imp_left (htaken p)

/-- The thread is somewhere else than before a write, so what was taken is written. -/
theorem mem_log_of_taken {p : StubPriv} (hp : s.Taken p) (htx : ∀ q, s.tx ≠ .sendSubmit q) :
    .retSubmit p ∈ s.log :=
  hp.resolve_right (htx p)

/-- While the thread empties `unlink_tx`, what is ahead is written. -/
theorem mem_log_of_ahead {p : StubPriv} (hp : s.Ahead p) (htx : s.tx.unlinking = true) :
    .retSubmit p ∈ s.log := by
  rcases hp with hp | ⟨-, hp⟩
  · refine mem_log_of_taken hp fun q hq => ?_
    simp [hq, TxPc.unlinking] at htx
  · simp [htx] at hp

/-- The thread moves on without writing, and all that was taken is written. -/
theorem advance (h : OrderInv s) (hrun : s.tx ≠ .stopped) (hlog : s'.log = s.log)
    (hptx : s'.privTx = s.privTx) (hsend : ∀ q, s.tx ≠ .sendSubmit q)
    (hun : s'.tx.unlinking = true → s.tx.unlinking = true ∨ s.privTx = []) : OrderInv s' := by
  have htaken : ∀ p, s.Taken p → s'.Taken p := fun p hp => by
    rw [StubDevice.Taken, hlog]
    exact Or.inl (mem_log_of_taken hp hsend)
  refine ⟨hlog ▸ h.wire, fun _ p hp => ?_, fun _ p hp => ?_⟩
  · rw [hptx]
    exact (h.completed hrun p (hlog ▸ hp)).imp_left (htaken p)
  · rcases h.late hrun p (hlog ▸ hp) with hp | ⟨hp, htx⟩
    · exact Or.inl (htaken p hp)
    · refine Or.inr ⟨hptx ▸ hp, Bool.eq_false_iff.mpr fun hun' => ?_⟩
      rcases hun hun' with hun | hempty
      · simp [htx] at hun
      · simp [hempty] at hp

/-! ### The steps keep the invariant -/

/-- The one event that needs the condition: a URB that had completed is taken, or it is on
`priv_tx` and the thread will take it before it serves `unlink_tx` again. -/
theorem note_cmdUnlink (h : OrderInv s) {q t : BitVec 32}
    (hok : s.tx.unlinking = true → ∀ p ∈ s.privTx, ofU32 t ≠ p.seqnum) :
    OrderInv (s.note (.cmdUnlink q t)) := by
  have htaken : ∀ p, s.Taken p → (s.note (.cmdUnlink q t)).Taken p := fun p hp =>
    hp.imp_left (List.mem_append_left _)
  refine ⟨?_, fun hrun p hp => ?_, fun hrun p hp => ?_⟩
  · exact historical_concat.mpr ⟨h.wire, fun u hu => by simp at hu⟩
  · have hp : .complete p ∈ s.log := by simpa [StubDevice.note] using hp
    exact (h.completed hrun p hp).imp_left (htaken p)
  · rcases late_concat.mp hp with hp | ⟨q', t', heq, hco, ht⟩
    · exact (h.late hrun p hp).imp_left (htaken p)
    · obtain ⟨-, rfl⟩ : q = q' ∧ t = t' := by simpa using heq
      refine (h.completed hrun p hco).imp (htaken p) fun hp => ⟨hp, ?_⟩
      exact Bool.eq_false_iff.mpr fun hun => hok hun p hp ht.symm

theorem stubEnqueueRetUnlink (h : OrderInv s) (q st : BitVec 32) (alloc : Bool) :
    OrderInv (s.stubEnqueueRetUnlink q st alloc) := by
  rw [StubDevice.stubEnqueueRetUnlink]
  split <;> exact h.frame rfl rfl rfl

/-- A CMD_UNLINK that comes in order is read. -/
theorem read_cmdUnlink (h : OrderInv s) {alloc : Bool} (hok : UnlinkInOrder s (.rxPdu alloc))
    {q t : BitVec 32} {rest : List Request} (hin : s.input = .cmdUnlink q t :: rest) :
    OrderInv ({ s with input := rest }.note (.cmdUnlink q t)) := by
  have hread : OrderInv { s with input := rest } := h.frame rfl rfl rfl
  exact hread.note_cmdUnlink fun hun p hp heq =>
    hok hun p hp (by simp [StubDevice.unlinkTarget, hin, heq])

theorem completeNormally (h : OrderInv s) (pre : List StubPriv) (p : StubPriv)
    (post : List StubPriv) : OrderInv (s.completeNormally pre p post) := by
  refine ⟨historical_concat.mpr ⟨h.wire, fun u hu => by simp at hu⟩, fun hrun r hr => ?_,
    fun hrun r hr => ?_⟩
  · rcases List.mem_append.mp hr with hr | hr
    · exact (h.completed hrun r hr).imp (Or.imp_left (List.mem_append_left _))
        (List.mem_append_left _)
    · obtain rfl : r = p := by simpa using hr
      exact Or.inr (List.mem_append_right _ List.mem_cons_self)
  · have hr := (late_concat.mp hr).resolve_right fun ⟨_, _, heq, _⟩ => by simp at heq
    exact (h.late hrun r hr).imp (Or.imp_left (List.mem_append_left _)) fun hr =>
      ⟨List.mem_append_left _ hr.1, hr.2⟩

/-- The transmit thread takes an entry of `priv_tx`. -/
theorem takeSubmit (h : OrderInv s) {q : StubPriv} {rest : List StubPriv}
    (htx : s.tx = .submitLoop) (hq : s.privTx = q :: rest) :
    OrderInv { s with privTx := rest, privFree := s.privFree ++ [q], tx := .sendSubmit q } := by
  have hrun : s.tx ≠ .stopped := by simp [htx]
  have hwritten : ∀ p, s.Taken p → .retSubmit p ∈ s.log := fun p hp =>
    mem_log_of_taken hp (by simp [htx])
  refine ⟨h.wire, fun _ p hp => ?_, fun _ p hp => ?_⟩
  · rcases h.completed hrun p hp with hp | hp
    · exact Or.inl (Or.inl (hwritten p hp))
    rcases List.mem_cons.mp (hq ▸ hp) with rfl | hp
    · exact Or.inl (Or.inr rfl)
    · exact Or.inr hp
  · rcases h.late hrun p hp with hp | ⟨hp, -⟩
    · exact Or.inl (Or.inl (hwritten p hp))
    rcases List.mem_cons.mp (hq ▸ hp) with rfl | hp
    · exact Or.inl (Or.inr rfl)
    · exact Or.inr ⟨hp, rfl⟩

theorem retSubmit (h : OrderInv s) {q : StubPriv} (htx : s.tx = .sendSubmit q) :
    OrderInv { s with tx := .submitLoop, log := s.log ++ [.retSubmit q] } := by
  have hrun : s.tx ≠ .stopped := by simp [htx]
  have hwritten : ∀ p, s.Taken p → .retSubmit p ∈ s.log ++ [.retSubmit q] := by
    rintro p (hp | hp)
    · exact List.mem_append_left _ hp
    · obtain rfl : q = p := by simpa [htx] using hp
      simp
  refine ⟨historical_concat.mpr ⟨h.wire, fun u hu => by simp at hu⟩, fun _ p hp => ?_,
    fun _ p hp => ?_⟩
  · have hp : .complete p ∈ s.log := by simpa using hp
    exact (h.completed hrun p hp).imp_left fun hp => Or.inl (hwritten p hp)
  · have hp := (late_concat.mp hp).resolve_right fun ⟨_, _, heq, _⟩ => by simp at heq
    exact (h.late hrun p hp).imp (fun hp => Or.inl (hwritten p hp)) fun hp => ⟨hp.1, rfl⟩

theorem retUnlink (h : OrderInv s) {v : StubUnlink} (htx : s.tx = .sendUnlink v) :
    OrderInv { s with tx := .unlinkLoop, log := s.log ++ [.retUnlink v] } := by
  have hrun : s.tx ≠ .stopped := by simp [htx]
  have hlate : ∀ p, Late s.log p → .retSubmit p ∈ s.log := fun p hp =>
    mem_log_of_ahead (h.late hrun p hp) (by simp [htx, TxPc.unlinking])
  refine ⟨historical_concat.mpr ⟨h.wire, ?_⟩, fun _ p hp => ?_, fun _ p hp => ?_⟩
  · intro u _ a b q t hab _ p hp ht
    exact hlate p ⟨a, b, q, t, hab, hp, ht⟩
  · have hp : .complete p ∈ s.log := by simpa using hp
    refine (h.completed hrun p hp).imp_left fun hp => Or.inl ?_
    exact List.mem_append_left _ (mem_log_of_taken hp (by simp [htx]))
  · have hp := (late_concat.mp hp).resolve_right fun ⟨_, _, heq, _⟩ => by simp at heq
    exact Or.inl (Or.inl (List.mem_append_left _ (hlate p hp)))

/-- Every step that meets the condition keeps the invariant. -/
theorem step (h : OrderInv s) {a : Act} (hok : UnlinkInOrder s a) (hs : s.step a = some s') :
    OrderInv s' := by
  have hdone : ∀ id, OrderInv (s.urbDone id) := fun id => h.frame rfl rfl rfl
  cases StubDevice.moves_of_step hs with
  | cmdSubmit hrx hin alloc =>
    rw [StubDevice.stubPrivAlloc]
    split
    · exact h.emit rfl rfl rfl (by simp) (by simp) (by simp)
    · exact h.frame rfl rfl rfl
  | @cmdUnlinkFound q t rest pre post priv hrx hin hwalk alloc =>
    refine (h.read_cmdUnlink hok hin).emit (e := .converted priv) ?_ rfl rfl (by simp) (by simp)
      (by simp)
    simp [StubDevice.markUnlinking, StubDevice.note]
  | cmdUnlinkMissed hrx hin hwalk alloc =>
    exact (h.read_cmdUnlink hok hin).stubEnqueueRetUnlink _ _ _
  | invalid hrx hin alloc => exact h.frame rfl rfl rfl
  | built hrx | notBuilt hrx | submitted hrx | notSubmitted hrx | unlinkUrb hrx
  | rxStop hrx hevent => exact h.frame rfl rfl rfl
  | killed hid alloc => exact hdone _
  | @unlinked id status pre post p hid hstatus hwalk hunl alloc =>
    rw [StubDevice.completeUnlinking]
    refine stubEnqueueRetUnlink ?_ _ _ _
    exact (hdone id).frame rfl rfl rfl
  | completed hid hstatus hwalk hunl alloc => exact (hdone _).completeNormally _ _ _
  | submitsDone htx hempty =>
    exact h.advance (by simp [htx]) rfl rfl (by simp [htx]) fun _ => Or.inr hempty
  | submitTaken htx hq => exact h.takeSubmit htx hq
  | retSubmit htx => exact h.retSubmit htx
  | unsentSubmit htx | unsentUnlink htx =>
    exact stopped (historical_concat.mpr ⟨h.wire, fun u hu => by simp at hu⟩) rfl
  | freePrivs htx | unlinksDone htx hempty | unlinkTaken htx hu =>
    exact h.advance (by simp [htx]) rfl rfl (by simp [htx])
      fun _ => Or.inl (by simp [htx, TxPc.unlinking])
  | retUnlink htx => exact h.retUnlink htx
  | freeUnlinks htx | txWake htx hevent =>
    exact h.advance (by simp [htx]) rfl rfl (by simp [htx])
      fun hun => by simp [TxPc.unlinking] at hun
  | txStop htx hevent => exact stopped h.wire rfl

/-- The invariant holds in every state reached by steps that meet the condition. -/
theorem of_reachableWhere {requests : List Request}
    (h : (stubDevice requests).ReachableWhere UnlinkInOrder s) : OrderInv s := by
  refine h.invariant ⟨?_, ?_, ?_⟩ fun s a s' hs hok hstep => hs.step hok hstep
  all_goals simp [stubDevice, connected, Late]

end OrderInv

/-! ### The order on the wire -/

/-- **As long as no CMD_UNLINK for a URB on `priv_tx` is processed between the two loops, a
RET_UNLINK follows the RET_SUBMIT of a URB that had completed**, in every state of a
connection. -/
theorem ret_submit_before_ret_unlink {requests : List Request} {s : StubDevice}
    (h : (stubDevice requests).ReachableWhere UnlinkInOrder s) :
    Historical SubmitReplyFirst s.log :=
  (OrderInv.of_reachableWhere h).wire

/-- A URB is submitted and completes; its CMD_UNLINK is processed after `unlink_tx` was found
empty. -/
def unlinkAfterLoops : List Act :=
  [.rxPdu true, .rxBuild true, .rxSubmit true, .txDequeueSubmit, .txFreePrivs,
    .txDequeueUnlink, .complete 0 0 true, .rxPdu true, .txFreeUnlinks, .txWake,
    .txDequeueSubmit, .txSendSubmit true, .txDequeueSubmit, .txFreePrivs, .txDequeueUnlink,
    .txSendUnlink true]

theorem ret_submit_before_ret_unlink_unlinkAfterLoops :
    ∃ s, (stubDevice [.cmdSubmit 1, .cmdUnlink 2 1]).runWhere UnlinkInOrder
        (connected [.cmdSubmit 1, .cmdUnlink 2 1]) unlinkAfterLoops = some s ∧
      Historical SubmitReplyFirst s.log :=
  Machine.exists_runWhere (m := stubDevice [.cmdSubmit 1, .cmdUnlink 2 1]) (by decide)
    fun _ h => ret_submit_before_ret_unlink h

/-- The completion and the CMD_UNLINK of a URB both land between the two loops. -/
def unlinkBetweenLoops : List Act :=
  [.rxPdu true, .rxBuild true, .rxSubmit true, .txDequeueSubmit, .complete 0 0 true,
    .rxPdu true, .txFreePrivs, .txDequeueUnlink, .txSendUnlink true]

/-- **When both land between the two loops, the RET_UNLINK is written first.** -/
theorem ret_unlink_overtakes_ret_submit :
    ∃ s, (stubDevice [.cmdSubmit 1, .cmdUnlink 2 1]).Reachable s ∧
      ¬ Historical SubmitReplyFirst s.log := by
  obtain ⟨s, hrun⟩ : ∃ s, (stubDevice [.cmdSubmit 1, .cmdUnlink 2 1]).run
      (connected [.cmdSubmit 1, .cmdUnlink 2 1]) unlinkBetweenLoops = some s :=
    Option.isSome_iff_exists.mp (by decide)
  refine ⟨s, Machine.reachable_of_run hrun, fun hw => ?_⟩
  have hlog : s.log = [.cmdSubmit 1, .complete ⟨0, 1, false⟩, .cmdUnlink 2 1,
      .retUnlink ⟨2, 0⟩] := by
    have h : ((stubDevice [.cmdSubmit 1, .cmdUnlink 2 1]).run
        (connected [.cmdSubmit 1, .cmdUnlink 2 1]) unlinkBetweenLoops).map (·.log) =
        some [.cmdSubmit 1, .complete ⟨0, 1, false⟩, .cmdUnlink 2 1, .retUnlink ⟨2, 0⟩] := by
      decide
    rw [hrun] at h
    exact Option.some.inj h
  have hlast := hw [.cmdSubmit 1, .complete ⟨0, 1, false⟩, .cmdUnlink 2 1] _ [] hlog _ rfl
  have hp := hlast [.cmdSubmit 1, .complete ⟨0, 1, false⟩] [] 2 1 rfl rfl ⟨0, 1, false⟩
    (by simp) rfl
  simp at hp

end Usbip.Stub
