import Usbip.Stub.ReplyOrder
import Usbip.Stub.Conservation

/-!
# After its RET_UNLINK a URB is settled

The client retires a URB on the RET_UNLINK of a CMD_UNLINK that names it, whatever the status in
it. So no RET_SUBMIT of that URB may follow (`no_ret_submit_after_ret_unlink`), which is more than
the order of the two replies of one URB: it also says that a URB whose CMD_UNLINK found nothing
will not complete any more.

Two things are needed of the client: the numbers of its requests differ (`ClientTraffic`), and it
asks for no URB to be unlinked before it has submitted it (`UnlinkAfterSubmit`). Then

* no entry of `priv_init` has the number of a URB whose CMD_UNLINK has been processed: the entry
  found there has taken over the number of the CMD_UNLINK, and the number is not used again;
* an entry on its way to a RET_SUBMIT with such a number had completed before the CMD_UNLINK was
  processed (`Late`), so that `OrderInv` puts its RET_SUBMIT before the RET_UNLINK.
-/

namespace Usbip.Stub

open ListWalk Trace

/-- A CMD_UNLINK comes after the CMD_SUBMIT that it names. -/
def UnlinkAfterSubmit (requests : List Request) : Prop :=
  Historical (fun pre r => ∀ q t, r = .cmdUnlink q t → t ∈ pre.filterMap Request.submit) requests

/-- A RET_SUBMIT does not come after a RET_UNLINK that answers a CMD_UNLINK for its number. -/
def NotSettled (pre : List StubEvent) (e : StubEvent) : Prop :=
  ∀ p, e = .retSubmit p → ∀ u t, .retUnlink u ∈ pre → .cmdUnlink (toU32 u.seqnum) t ∈ pre →
    toU32 p.seqnum ≠ t

/-- A RET_UNLINK comes after the CMD_UNLINK that it answers. -/
def UnlinkAnswered (pre : List StubEvent) (e : StubEvent) : Prop :=
  ∀ u, e = .retUnlink u → ∃ t, .cmdUnlink (toU32 u.seqnum) t ∈ pre

/-- The entries on their way to a RET_SUBMIT. -/
def StubDevice.replying (s : StubDevice) : List StubPriv := s.privTx ++ s.tx.sendingSubmit

theorem StubEvent.unlink_eq_some {e : StubEvent} {q : BitVec 32} (h : e.unlink = some q) :
    ∃ t, e = .cmdUnlink q t := by
  cases e with
  | cmdUnlink q' t =>
    obtain rfl := Option.some.inj h
    exact ⟨t, rfl⟩
  | _ => simp at h

theorem ofU32_injective {m n : BitVec 32} (h : ofU32 m = ofU32 n) : m = n := by
  rw [← toU32_ofU32 m, h, toU32_ofU32]

/-! ### What the balance of the requests says about numbers -/

namespace ReplyInv

variable {requests : List Request} {s : StubDevice}

/-- A number that the device owes a RET_SUBMIT for has had none. -/
theorem not_replied_of_owed (h : ReplyInv requests s) (hreq : ClientTraffic requests)
    {q : BitVec 32} (howed : q ∈ s.owedSubmits) : q ∉ s.log.filterMap StubEvent.submitReply := by
  intro hreply
  have hcount := h.submits q
  have hle := h.seen_submit_le hreq q
  have h1 := List.count_pos_iff.mpr howed
  have h2 := seen_pos.mpr hreply
  omega

/-- The number of a CMD_UNLINK that has been processed is not that of a CMD_SUBMIT that has been
received. -/
theorem unlink_ne_submit (h : ReplyInv requests s) (hreq : ClientTraffic requests)
    {q t : BitVec 32} (hq : q ∈ requests.filterMap Request.unlink)
    (ht : t ∈ s.log.filterMap StubEvent.submit) : q ≠ t := by
  obtain ⟨done, hdone, hsub, -⟩ := h.read
  rintro rfl
  have hsubmit : q ∈ requests.filterMap Request.submit := by
    rw [hdone, List.filterMap_append, ← hsub]
    exact List.mem_append_left _ ht
  exact (List.nodup_append'.mp hreq.nodup).2.2 hsubmit hq

/-- The CMD_SUBMIT that is read next has a new number. -/
theorem submit_new (h : ReplyInv requests s) (hreq : ClientTraffic requests) {q : BitVec 32}
    {rest : List Request} (hin : s.input = .cmdSubmit q :: rest) :
    q ∉ s.log.filterMap StubEvent.submit := by
  obtain ⟨done, hdone, hsub, -⟩ := h.read
  have hnd := (List.nodup_append'.mp hreq.nodup).1
  rw [hdone, hin, List.filterMap_append] at hnd
  rw [hsub]
  exact fun hmem => (List.nodup_append'.mp hnd).2.2 hmem (by simp)

/-- The CMD_UNLINK that is read next has a new number. -/
theorem unlink_new (h : ReplyInv requests s) (hreq : ClientTraffic requests) {q t : BitVec 32}
    {rest : List Request} (hin : s.input = .cmdUnlink q t :: rest) :
    q ∉ s.log.filterMap StubEvent.unlink := by
  obtain ⟨done, hdone, -, hun⟩ := h.read
  have hnd := (List.nodup_append'.mp hreq.nodup).2.1
  rw [hdone, hin, List.filterMap_append] at hnd
  rw [hun]
  exact fun hmem => (List.nodup_append'.mp hnd).2.2 hmem (by simp)

/-- The CMD_UNLINK that is read next names a CMD_SUBMIT that has been received. -/
theorem target_submitted (h : ReplyInv requests s) (hord : UnlinkAfterSubmit requests)
    {q t : BitVec 32} {rest : List Request} (hin : s.input = .cmdUnlink q t :: rest) :
    t ∈ s.log.filterMap StubEvent.submit := by
  obtain ⟨done, hdone, hsub, -⟩ := h.read
  rw [hsub]
  exact hord done _ rest (by rw [hdone, hin]) q t rfl

/-- The CMD_UNLINK that is read next is one of the requests. -/
theorem unlink_mem (h : ReplyInv requests s) {q t : BitVec 32} {rest : List Request}
    (hin : s.input = .cmdUnlink q t :: rest) : q ∈ requests.filterMap Request.unlink := by
  obtain ⟨done, hdone, -, -⟩ := h.read
  rw [hdone, hin]
  simp

/-- Two entries of `priv_init` do not have the number that a CMD_UNLINK looks for. -/
theorem seqnum_ne_of_found (h : ReplyInv requests s) (hreq : ClientTraffic requests)
    {q t : BitVec 32} {rest : List Request} (hin : s.input = .cmdUnlink q t :: rest)
    {pre post : List StubPriv} {p : StubPriv} (hl : s.privInit = pre ++ p :: post)
    (hp : p.seqnum = ofU32 t) {r : StubPriv} (hr : r ∈ post) : r.seqnum ≠ ofU32 t := by
  intro hrt
  have hpunl := h.unlinking_eq_false hreq hin (p := p) (by simp [hl]) hp
  have hrunl := h.unlinking_eq_false hreq hin (p := r) (by simp [hl, hr]) hrt
  have hcount := h.submits t
  have hle := h.seen_submit_le hreq t
  have hpost : t ∈ (post.filter fun p => !p.unlinking).map fun p => toU32 p.seqnum := by
    refine List.mem_map.mpr ⟨r, List.mem_filter.mpr ⟨hr, by simp [hrunl]⟩, ?_⟩
    rw [hrt, toU32_ofU32]
  have hpos := List.count_pos_iff.mpr hpost
  simp [StubDevice.owedSubmits, hl, hpunl, hp] at hcount
  omega

end ReplyInv

/-! ### The invariant -/

/-- What is known about the URBs whose CMD_UNLINK has been processed. -/
structure SettleInv (s : StubDevice) : Prop where
  submitted : ∀ q t, .cmdUnlink q t ∈ s.log → t ∈ s.log.filterMap StubEvent.submit
  init : ∀ q t, .cmdUnlink q t ∈ s.log → ∀ p ∈ s.privInit, p.seqnum ≠ ofU32 t
  completed : ∀ p ∈ s.replying, .complete p ∈ s.log
  wide : ∀ p ∈ s.replying, ofU32 (toU32 p.seqnum) = p.seqnum
  late : ∀ q t, .cmdUnlink q t ∈ s.log → ∀ p ∈ s.replying, p.seqnum = ofU32 t → Late s.log p
  settled : ∀ u, .retUnlink u ∈ s.log → ∀ t, .cmdUnlink (toU32 u.seqnum) t ∈ s.log →
    ∀ p ∈ s.replying, p.seqnum ≠ ofU32 t
  wire : Historical NotSettled s.log
  answers : Historical UnlinkAnswered s.log

namespace SettleInv

variable {requests : List Request} {s s' : StubDevice}

/-- A step that links nothing new. -/
theorem mono (h : SettleInv s) (hlog : s'.log = s.log) (hinit : s'.privInit ⊆ s.privInit)
    (hrep : s'.replying ⊆ s.replying) : SettleInv s' where
  submitted := hlog ▸ h.submitted
  init q t hun p hp := h.init q t (hlog ▸ hun) p (hinit hp)
  completed p hp := hlog ▸ h.completed p (hrep hp)
  wide p hp := h.wide p (hrep hp)
  late q t hun p hp hpt := hlog ▸ h.late q t (hlog ▸ hun) p (hrep hp) hpt
  settled u hu t hun p hp := h.settled u (hlog ▸ hu) t (hlog ▸ hun) p (hrep hp)
  wire := hlog ▸ h.wire
  answers := hlog ▸ h.answers

/-- An event of a URB that is neither a CMD_UNLINK nor the reply to one. What it links to
`priv_init` has a number that no processed CMD_UNLINK names, and what is on its way to a reply
now has just completed. -/
theorem emit (h : SettleInv s) {e : StubEvent} (hlog : s'.log = s.log ++ [e])
    (hcm : ∀ q t, e ≠ .cmdUnlink q t) (hru : ∀ u, e ≠ .retUnlink u) (hwire : NotSettled s.log e)
    (hinit : ∀ p ∈ s'.privInit, p ∈ s.privInit ∨
      ∀ t ∈ s.log.filterMap StubEvent.submit, p.seqnum ≠ ofU32 t)
    (hrep : ∀ p ∈ s'.replying, p ∈ s.replying ∨
      e = .complete p ∧ p ∈ s.privInit ∧ ofU32 (toU32 p.seqnum) = p.seqnum) :
    SettleInv s' := by
  have hun : ∀ q t, .cmdUnlink q t ∈ s'.log → .cmdUnlink q t ∈ s.log := by
    intro q t hmem
    rw [hlog, List.mem_append, List.mem_singleton] at hmem
    exact hmem.resolve_right fun heq => hcm q t heq.symm
  have hsub : s.log.filterMap StubEvent.submit ⊆ s'.log.filterMap StubEvent.submit := by
    rw [hlog, List.filterMap_append]
    exact List.subset_append_left _ _
  refine ⟨fun q t hmem => hsub (h.submitted q t (hun q t hmem)), fun q t hmem p hp => ?_,
    fun p hp => ?_, fun p hp => ?_, fun q t hmem p hp hpt => ?_, fun u hu t hmem p hp => ?_, ?_, ?_⟩
  · rcases hinit p hp with hp | hp
    · exact h.init q t (hun q t hmem) p hp
    · exact hp t (h.submitted q t (hun q t hmem))
  · rw [hlog]
    rcases hrep p hp with hp | ⟨rfl, -, -⟩
    · exact List.mem_append_left _ (h.completed p hp)
    · exact List.mem_append_right _ List.mem_cons_self
  · rcases hrep p hp with hp | ⟨-, -, hp⟩
    · exact h.wide p hp
    · exact hp
  · rcases hrep p hp with hp | ⟨-, hp, -⟩
    · rw [hlog]
      exact late_concat.mpr (Or.inl (h.late q t (hun q t hmem) p hp hpt))
    · exact absurd hpt (h.init q t (hun q t hmem) p hp)
  · rcases hrep p hp with hp | ⟨-, hp, -⟩
    · rw [hlog, List.mem_append, List.mem_singleton] at hu
      have hu := hu.resolve_right fun heq => hru u heq.symm
      exact h.settled u hu t (hun _ t hmem) p hp
    · exact h.init _ t (hun _ t hmem) p hp
  · rw [hlog]
    exact historical_concat.mpr ⟨h.wire, hwire⟩
  · rw [hlog]
    exact historical_concat.mpr ⟨h.answers, fun u hu => absurd hu (hru u)⟩

/-- A CMD_UNLINK with a new number is processed, and no entry with the number it names is left on
`priv_init`. What is on its way to a RET_SUBMIT then has completed before. -/
theorem noteUnlink (h : SettleInv s) {q t : BitVec 32} (hlog : s'.log = s.log ++ [.cmdUnlink q t])
    (hsub : t ∈ s.log.filterMap StubEvent.submit)
    (hnew : ∀ u, .retUnlink u ∈ s.log → toU32 u.seqnum ≠ q)
    (hfound : ∀ p ∈ s'.privInit, p.seqnum ≠ ofU32 t)
    (hinit : ∀ p ∈ s'.privInit, p ∈ s.privInit ∨
      ∀ t ∈ s.log.filterMap StubEvent.submit, p.seqnum ≠ ofU32 t)
    (hrep : s'.replying = s.replying) : SettleInv s' := by
  have hun : ∀ q' t', .cmdUnlink q' t' ∈ s'.log →
      .cmdUnlink q' t' ∈ s.log ∨ q' = q ∧ t' = t := by
    intro q' t' hmem
    rw [hlog, List.mem_append, List.mem_singleton] at hmem
    exact hmem.imp_right fun heq => by simpa using heq
  have hru : ∀ u, .retUnlink u ∈ s'.log → .retUnlink u ∈ s.log := by
    intro u hu
    simpa [hlog] using hu
  refine ⟨fun q' t' hmem => ?_, fun q' t' hmem p hp => ?_, fun p hp => ?_,
    fun p hp => h.wide p (hrep ▸ hp), fun q' t' hmem p hp hpt => ?_, fun u hu t' hmem p hp => ?_,
    ?_, ?_⟩
  · rw [hlog, List.filterMap_append]
    refine List.mem_append_left _ ?_
    rcases hun q' t' hmem with hmem | ⟨-, rfl⟩
    · exact h.submitted q' t' hmem
    · exact hsub
  · rcases hun q' t' hmem with hmem | ⟨-, rfl⟩
    · rcases hinit p hp with hp | hp
      · exact h.init q' t' hmem p hp
      · exact hp t' (h.submitted q' t' hmem)
    · exact hfound p hp
  · rw [hlog]
    exact List.mem_append_left _ (h.completed p (hrep ▸ hp))
  · rw [hlog, late_concat]
    rcases hun q' t' hmem with hmem | ⟨rfl, rfl⟩
    · exact Or.inl (h.late q' t' hmem p (hrep ▸ hp) hpt)
    · exact Or.inr ⟨q', t', rfl, h.completed p (hrep ▸ hp), hpt⟩
  · rcases hun _ t' hmem with hmem | ⟨huq, -⟩
    · exact h.settled u (hru u hu) t' hmem p (hrep ▸ hp)
    · exact absurd huq (hnew u (hru u hu))
  · rw [hlog]
    exact historical_concat.mpr ⟨h.wire, fun p hp => by simp at hp⟩
  · rw [hlog]
    exact historical_concat.mpr ⟨h.answers, fun u hu => by simp at hu⟩

/-! ### The steps keep the invariant -/

/-- The reply to a CMD_UNLINK is written only after the CMD_UNLINK was processed. -/
theorem retUnlink_ne_of_new (hR : ReplyInv requests s) {q : BitVec 32}
    (hnew : q ∉ s.log.filterMap StubEvent.unlink) :
    ∀ u, .retUnlink u ∈ s.log → toU32 u.seqnum ≠ q := by
  rintro u hu rfl
  have hreply : toU32 u.seqnum ∈ s.log.filterMap StubEvent.unlinkReply :=
    List.mem_filterMap.mpr ⟨.retUnlink u, hu, rfl⟩
  have hcount := hR.unlinks (toU32 u.seqnum)
  have hpos := seen_pos.mpr hreply
  exact hnew (seen_pos.mp (by omega))

/-- A CMD_SUBMIT is received: its number is new. -/
theorem cmdSubmit (h : SettleInv s) (hR : ReplyInv requests s) (hreq : ClientTraffic requests)
    {q : BitVec 32} {rest : List Request} (hin : s.input = .cmdSubmit q :: rest) (alloc : Bool) :
    SettleInv ({ s with input := rest }.stubPrivAlloc q alloc) := by
  rw [StubDevice.stubPrivAlloc]
  split
  · refine h.emit rfl (by simp) (by simp) (fun p hp => by simp at hp) (fun p hp => ?_)
      fun p hp => Or.inl hp
    rcases List.mem_append.mp hp with hp | hp
    · exact Or.inl hp
    obtain rfl := List.mem_singleton.mp hp
    refine Or.inr fun t ht heq => hR.submit_new hreq hin ?_
    exact ofU32_injective heq ▸ ht
  · exact h.mono rfl (List.Subset.refl _) (List.Subset.refl _)

/-- A CMD_UNLINK finds an entry, which takes over its number. -/
theorem cmdUnlinkFound (h : SettleInv s) (hR : ReplyInv requests s) (hreq : ClientTraffic requests)
    (hord : UnlinkAfterSubmit requests) {q t : BitVec 32} {rest : List Request}
    {pre post : List StubPriv} {p : StubPriv} (hin : s.input = .cmdUnlink q t :: rest)
    (hwalk : findSplit (fun p => p.seqnum == ofU32 t) s.privInit = some (pre, p, post)) :
    SettleInv ({ s with input := rest }.markUnlinking q t pre p post) := by
  obtain ⟨hl, hpt, hpre⟩ := findSplit_eq_some hwalk
  have hpt : p.seqnum = ofU32 t := by simpa using hpt
  have hsub := hR.target_submitted hord hin
  have hne : ∀ t' ∈ s.log.filterMap StubEvent.submit, ofU32 q ≠ ofU32 t' := fun t' ht' heq =>
    hR.unlink_ne_submit hreq (hR.unlink_mem hin) ht' (ofU32_injective heq)
  let marked : StubDevice :=
    { s with
      input := rest
      privInit := pre ++ { p with unlinking := true, seqnum := ofU32 q } :: post
      rx := .unlinkUrb p.id
      log := s.log ++ [.cmdUnlink q t] }
  have hmarked : SettleInv marked := by
    refine h.noteUnlink rfl hsub (retUnlink_ne_of_new hR (hR.unlink_new hreq hin))
      (fun r hr => ?_) (fun r hr => ?_) rfl
    · rcases List.mem_append.mp hr with hr | hr
      · simpa using hpre r hr
      rcases List.mem_cons.mp hr with rfl | hr
      · exact hne t hsub
      · exact hR.seqnum_ne_of_found hreq hin hl hpt hr
    · rcases List.mem_append.mp hr with hr | hr
      · exact Or.inl (by simp [hl, hr])
      rcases List.mem_cons.mp hr with rfl | hr
      · exact Or.inr hne
      · exact Or.inl (by simp [hl, hr])
  refine hmarked.emit (e := .converted p) ?_ (by simp) (by simp) (fun r hr => by simp at hr)
    (fun r hr => Or.inl hr) fun r hr => Or.inl hr
  simp [StubDevice.markUnlinking, marked]

/-- A CMD_UNLINK finds nothing. -/
theorem cmdUnlinkMissed (h : SettleInv s) (hR : ReplyInv requests s) (hreq : ClientTraffic requests)
    (hord : UnlinkAfterSubmit requests) {q t : BitVec 32} {rest : List Request}
    (hin : s.input = .cmdUnlink q t :: rest)
    (hwalk : findSplit (fun p => p.seqnum == ofU32 t) s.privInit = none) (alloc : Bool) :
    SettleInv
      (({ s with input := rest }.note (.cmdUnlink q t)).stubEnqueueRetUnlink q 0 alloc) := by
  have hnoted : SettleInv ({ s with input := rest }.note (.cmdUnlink q t)) := by
    refine h.noteUnlink rfl (hR.target_submitted hord hin)
      (retUnlink_ne_of_new hR (hR.unlink_new hreq hin)) (fun r hr => ?_) (fun r hr => Or.inl hr) rfl
    simpa using findSplit_eq_none.mp hwalk r hr
  rw [StubDevice.stubEnqueueRetUnlink]
  split <;> exact hnoted.mono rfl (List.Subset.refl _) (List.Subset.refl _)

/-- A RET_UNLINK is written. An entry with the number that its CMD_UNLINK names, still on its way
to a RET_SUBMIT, would have completed before the CMD_UNLINK was processed, and its RET_SUBMIT
would be written. -/
theorem retUnlink (h : SettleInv s) (hR : ReplyInv requests s) (hreq : ClientTraffic requests)
    (hO : OrderInv s) {v : StubUnlink} (htx : s.tx = .sendUnlink v) :
    SettleInv { s with tx := .unlinkLoop, log := s.log ++ [.retUnlink v] } := by
  have hrun : s.tx ≠ .stopped := by simp [htx]
  have hrep : s.replying = s.privTx := by
    rw [StubDevice.replying, htx]
    exact List.append_nil _
  have hun : ∀ q t, StubEvent.cmdUnlink q t ∈ s.log ++ [.retUnlink v] → .cmdUnlink q t ∈ s.log :=
    fun q t hmem => by simpa using hmem
  have hreplied : ∀ q t, .cmdUnlink q t ∈ s.log → ∀ p ∈ s.privTx, p.seqnum ≠ ofU32 t := by
    intro q t hmem p hp hpt
    have hlate := h.late q t hmem p (hrep ▸ hp) hpt
    have hsent : .retSubmit p ∈ s.log :=
      OrderInv.mem_log_of_ahead (hO.late hrun p hlate) (by simp [htx, TxPc.unlinking])
    refine hR.not_replied_of_owed hreq (q := toU32 p.seqnum) ?_ ?_
    · exact List.mem_map_of_mem (by simp [hp])
    · exact List.mem_filterMap.mpr ⟨_, hsent, rfl⟩
  have hmemTx : ∀ p, p ∈ s.privTx ++ TxPc.unlinkLoop.sendingSubmit → p ∈ s.privTx := fun p hp => by
    simpa [TxPc.sendingSubmit] using hp
  refine ⟨fun q t hmem => ?_, fun q t hmem => h.init q t (hun q t hmem), fun p hp => ?_,
    fun p hp => h.wide p (hrep ▸ hmemTx p hp), fun q t hmem p hp hpt => ?_,
    fun u hu t hmem p hp => hreplied _ t (hun _ t hmem) p (hmemTx p hp), ?_, ?_⟩
  · simpa using h.submitted q t (hun q t hmem)
  · exact List.mem_append_left _ (h.completed p (hrep ▸ hmemTx p hp))
  · exact late_concat.mpr (Or.inl (h.late q t (hun q t hmem) p (hrep ▸ hmemTx p hp) hpt))
  · exact historical_concat.mpr ⟨h.wire, fun p hp => by simp at hp⟩
  · refine historical_concat.mpr ⟨h.answers, fun u hu => ?_⟩
    obtain rfl : v = u := by simpa using hu
    have howed : toU32 v.seqnum ∈ s.owedUnlinks :=
      List.mem_append_right _ (List.mem_map_of_mem (by simp [htx, TxPc.sendingUnlink]))
    have hcount := hR.unlinks (toU32 v.seqnum)
    have hpos := List.count_pos_iff.mpr howed
    have hseen : 0 < seen StubEvent.unlink s.log (toU32 v.seqnum) := by omega
    obtain ⟨e, he, heq⟩ := List.mem_filterMap.mp (seen_pos.mp hseen)
    obtain ⟨t, rfl⟩ := StubEvent.unlink_eq_some heq
    exact ⟨t, he⟩

/-- Every step that meets the conditions keeps the invariant. -/
theorem step (h : SettleInv s) (hR : ReplyInv requests s) (hreq : ClientTraffic requests)
    (hord : UnlinkAfterSubmit requests) (hO : OrderInv s) {a : Act} (hs : s.step a = some s') :
    SettleInv s' := by
  have hinit : ∀ {pre post : List StubPriv} {p : StubPriv}, s.privInit = pre ++ p :: post →
      pre ++ post ⊆ s.privInit := by
    intro pre post p hl r hr
    rcases List.mem_append.mp hr with hr | hr <;> simp [hl, hr]
  cases StubDevice.moves_of_step hs with
  | cmdSubmit hrx hin alloc => exact h.cmdSubmit hR hreq hin alloc
  | cmdUnlinkFound hrx hin hwalk alloc => exact h.cmdUnlinkFound hR hreq hord hin hwalk
  | cmdUnlinkMissed hrx hin hwalk alloc => exact h.cmdUnlinkMissed hR hreq hord hin hwalk alloc
  | invalid | built | notBuilt | submitted | notSubmitted | unlinkUrb | rxStop | killed =>
    exact h.mono rfl (List.Subset.refl _) (List.Subset.refl _)
  | unlinked hid hstatus hwalk hunl alloc =>
    obtain ⟨hl, -, -⟩ := findSplit_eq_some hwalk
    rw [StubDevice.completeUnlinking, StubDevice.stubEnqueueRetUnlink]
    split <;> exact h.mono rfl (hinit hl) (List.Subset.refl _)
  | @completed id status pre post p hid hstatus hwalk hunl alloc =>
    obtain ⟨hl, -, -⟩ := findSplit_eq_some hwalk
    refine h.emit (e := .complete p) rfl (by simp) (by simp) (fun r hr => by simp at hr)
      (fun r hr => Or.inl (hinit hl hr)) fun r hr => ?_
    have hr : r ∈ s.replying ∨ r = p := by
      simpa [StubDevice.replying, StubDevice.completeNormally, StubDevice.urbDone, or_assoc,
        or_comm, or_left_comm] using hr
    refine hr.imp_right ?_
    rintro rfl
    exact ⟨rfl, by simp [hl], hR.wide r (by simp [hl])⟩
  | submitsDone htx hempty | freePrivs htx | unlinksDone htx hempty | unlinkTaken htx hu
  | freeUnlinks htx | txStop htx hevent | txWake htx hevent =>
    refine h.mono rfl (List.Subset.refl _) ?_
    simp [StubDevice.replying, TxPc.sendingSubmit]
  | submitTaken htx hp =>
    refine h.mono rfl (List.Subset.refl _) ?_
    simp [StubDevice.replying, TxPc.sendingSubmit, hp]
  | @retSubmit p htx =>
    have hp : p ∈ s.replying := by simp [StubDevice.replying, TxPc.sendingSubmit, htx]
    refine h.emit (e := .retSubmit p) rfl (by simp) (by simp) ?_ (fun r hr => Or.inl hr)
      fun r hr => Or.inl ?_
    · intro r hr u t hu hmem hrt
      obtain rfl : p = r := by simpa using hr
      exact h.settled u hu t hmem p hp (by rw [← hrt, h.wide p hp])
    · have hr : r ∈ s.privTx := by simpa [StubDevice.replying, TxPc.sendingSubmit] using hr
      exact List.mem_append_left _ hr
  | @unsentSubmit p htx =>
    refine h.emit (e := .unsentSubmit p) rfl (by simp) (by simp) (fun r hr => by simp at hr)
      (fun r hr => Or.inl hr) fun r hr => Or.inl ?_
    have hr : r ∈ s.privTx := by simpa [StubDevice.replying, TxPc.sendingSubmit] using hr
    exact List.mem_append_left _ hr
  | retUnlink htx => exact h.retUnlink hR hreq hO htx
  | @unsentUnlink u htx =>
    refine h.emit (e := .unsentUnlink u) rfl (by simp) (by simp) (fun r hr => by simp at hr)
      (fun r hr => Or.inl hr) fun r hr => Or.inl ?_
    have hr : r ∈ s.privTx := by simpa [StubDevice.replying, TxPc.sendingSubmit] using hr
    exact List.mem_append_left _ hr

/-- Nothing has been unlinked yet. -/
theorem connected (requests : List Request) : SettleInv (connected requests) := by
  refine ⟨?_, ?_, ?_, ?_, ?_, ?_, ?_, ?_⟩
  all_goals simp [Stub.connected, StubDevice.replying, TxPc.sendingSubmit]

end SettleInv

/-! ### The replies on the wire -/

/-- No allocation fails, and no CMD_UNLINK for an entry of `priv_tx` is processed between the two
loops of the transmit thread. -/
def AllocatedInOrder (s : StubDevice) (a : Act) : Prop := Allocated s a ∧ UnlinkInOrder s a

instance (s : StubDevice) (a : Act) : Decidable (AllocatedInOrder s a) :=
  inferInstanceAs (Decidable (_ ∧ _))

/-- **After the RET_UNLINK of a CMD_UNLINK no RET_SUBMIT of the URB that it names is written**, in
every state of a connection. -/
theorem no_ret_submit_after_ret_unlink {requests : List Request} (hreq : ClientTraffic requests)
    (hord : UnlinkAfterSubmit requests) {s : StubDevice}
    (h : (stubDevice requests).ReachableWhere AllocatedInOrder s) :
    Historical NotSettled s.log := by
  have hinv : SettleInv s := by
    refine h.invariant_with (I := fun s => ReplyInv requests s ∧ OrderInv s) (fun s hs => ?_)
      (SettleInv.connected requests)
      fun s a s' hI hinv hok hstep => hinv.step hI.1 hreq hord hI.2 hstep
    exact ⟨.of_reachableWhere hreq (hs.mono fun _ _ hok => hok.1),
      .of_reachableWhere (hs.mono fun _ _ hok => hok.2)⟩
  exact hinv.wire

/-- One URB completes before its CMD_UNLINK is read, the other one is found in `priv_init`. -/
theorem no_ret_submit_after_ret_unlink_unlinkRun :
    ∃ s, (stubDevice unlinkRequests).runWhere AllocatedInOrder (connected unlinkRequests)
        unlinkRun = some s ∧ Historical NotSettled s.log := by
  refine Machine.exists_runWhere (m := stubDevice unlinkRequests) (by decide) fun s h =>
    no_ret_submit_after_ret_unlink ⟨by decide, fun q t hmem => ?_⟩ ?_ h
  · simp only [unlinkRequests, List.mem_cons, Request.cmdUnlink.injEq, reduceCtorEq, false_or,
      List.not_mem_nil, or_false] at hmem
    rcases hmem with ⟨-, rfl⟩ | ⟨-, rfl⟩ <;> decide
  · have hsplit : unlinkRequests =
        (([] ++ [.cmdSubmit 1] ++ [.cmdSubmit 2]) ++ [.cmdUnlink 3 2]) ++ [.cmdUnlink 4 1] := rfl
    rw [UnlinkAfterSubmit, hsplit]
    simp only [historical_concat, historical_nil, true_and, reduceCtorEq, false_imp_iff,
      implies_true, Request.cmdUnlink.injEq]
    constructor <;> · rintro q t ⟨-, rfl⟩; decide

end Usbip.Stub
