import Usbip.Vhci.Port
import Mathlib.Data.List.Perm.Basic
import Mathlib.Data.List.Nodup
import Mathlib.Data.List.Induction
import Mathlib.Tactic.Common

/-!
# A URB is given back at most once

Four paths retire a URB: RET_SUBMIT, RET_UNLINK, `vhci_device_unlink_cleanup`, and
`vhci_urb_dequeue` on a port without a socket. Each takes the URB over by removing its
`vhci_priv` from `priv_tx` or `priv_rx` and clearing `hcpriv` in one locked section, and calls
`usb_hcd_giveback_urb` later, unlocked. The invariant `PortInv` therefore lists all the places
that hold a URB (`Port.held`): the two queues, the receive thread, the cleanup and the calls in
progress. No URB is in two places, and each is one the core waits for.

The steps only move URBs between places (`List.Perm` of `held`), except that an accepted
enqueue adds the URB it was given and a giveback removes the URB it completes.
-/

namespace Usbip.Vhci

open ListWalk Trace

/-! ### The records linked to a port -/

/-- `privs` are distinct records of distinct URBs, and `hcpriv` of a URB points to its record
and to nothing else. -/
structure Linked (privs : List VhciPriv) (hcpriv : ℕ → Option ℕ) (nextId : ℕ) : Prop where
  urb_nodup : (privs.map (·.urb)).Nodup
  id_nodup : (privs.map (·.id)).Nodup
  id_lt : ∀ p ∈ privs, p.id < nextId
  back : ∀ p ∈ privs, hcpriv p.urb = some p.id
  live : ∀ u id, hcpriv u = some id → ∃ p ∈ privs, p.id = id ∧ p.urb = u

namespace Linked

variable {privs privs' : List VhciPriv} {hcpriv : ℕ → Option ℕ} {nextId : ℕ}

/-- Moving records between the queues of a port keeps them linked. -/
theorem perm (h : Linked privs hcpriv nextId) (hp : privs'.Perm privs) :
    Linked privs' hcpriv nextId where
  urb_nodup := (hp.map _).nodup_iff.mpr h.urb_nodup
  id_nodup := (hp.map _).nodup_iff.mpr h.id_nodup
  id_lt p hpm := h.id_lt p (hp.mem_iff.mp hpm)
  back p hpm := h.back p (hp.mem_iff.mp hpm)
  live u id hu := by
    obtain ⟨p, hpm, hid⟩ := h.live u id hu
    exact ⟨p, hp.mem_iff.mpr hpm, hid⟩

/-- A URB without a record has no `hcpriv`. -/
theorem hcpriv_eq_none (h : Linked privs hcpriv nextId) {u : ℕ}
    (hu : u ∉ privs.map (·.urb)) : hcpriv u = none := by
  cases hc : hcpriv u with
  | none => rfl
  | some id =>
    obtain ⟨p, hp, -, rfl⟩ := h.live u id hc
    exact absurd (List.mem_map_of_mem hp) hu

/-- Freeing a record and clearing the `hcpriv` of its URB. -/
theorem remove (h : Linked privs hcpriv nextId) {p : VhciPriv}
    (hp : privs.Perm (p :: privs')) :
    Linked privs' (Function.update hcpriv p.urb none) nextId := by
  have h := h.perm hp.symm
  have hurb := List.nodup_cons.mp h.urb_nodup
  have hne : ∀ q ∈ privs', q.urb ≠ p.urb := fun q hq heq =>
    hurb.1 (List.mem_map.mpr ⟨q, hq, heq⟩)
  refine ⟨hurb.2, (List.nodup_cons.mp h.id_nodup).2,
    fun q hq => h.id_lt q (List.mem_cons_of_mem _ hq), fun q hq => ?_, fun u id hu => ?_⟩
  · rw [Function.update_of_ne (hne q hq)]
    exact h.back q (List.mem_cons_of_mem _ hq)
  · have hup : u ≠ p.urb := by
      rintro rfl
      simp at hu
    rw [Function.update_of_ne hup] at hu
    obtain ⟨q, hq, hid, rfl⟩ := h.live u id hu
    rcases List.mem_cons.mp hq with rfl | hq
    · exact absurd rfl hup
    · exact ⟨q, hq, hid, rfl⟩

/-- Clearing the `hcpriv` of a URB that has no record. -/
theorem clear (h : Linked privs hcpriv nextId) {u : ℕ} (hu : u ∉ privs.map (·.urb)) :
    Linked privs (Function.update hcpriv u none) nextId := by
  have : Function.update hcpriv u none = hcpriv := by
    rw [Function.update_eq_self_iff, h.hcpriv_eq_none hu]
  rwa [this]

/-- Linking a record made for a URB that has none. -/
theorem add (h : Linked privs hcpriv nextId) {q : BitVec 64} {u : ℕ}
    (hu : u ∉ privs.map (·.urb)) (hp : privs'.Perm (⟨nextId, q, u⟩ :: privs)) :
    Linked privs' (Function.update hcpriv u (some nextId)) (nextId + 1) := by
  have hne : ∀ p ∈ privs, p.urb ≠ u := fun p hp heq => hu (heq ▸ List.mem_map_of_mem hp)
  have hnew : nextId ∉ privs.map (·.id) := by
    intro hmem
    obtain ⟨p, hp, hid⟩ := List.mem_map.mp hmem
    exact absurd (h.id_lt p hp) (by omega)
  refine Linked.perm (?_ : Linked (⟨nextId, q, u⟩ :: privs) _ _) hp
  refine ⟨by simpa using ⟨by simpa using hu, h.urb_nodup⟩,
    by simpa using ⟨by simpa using hnew, h.id_nodup⟩, ?_, ?_, fun v id hv => ?_⟩
  · intro p hp
    rcases List.mem_cons.mp hp with rfl | hp
    · exact Nat.lt_succ_self _
    · exact Nat.lt_succ_of_lt (h.id_lt p hp)
  · intro p hp
    rcases List.mem_cons.mp hp with rfl | hp
    · simp
    · rw [Function.update_of_ne (hne p hp)]
      exact h.back p hp
  · by_cases hvu : v = u
    · subst hvu
      rw [Function.update_self] at hv
      exact ⟨_, List.mem_cons_self, Option.some.inj hv, rfl⟩
    · rw [Function.update_of_ne hvu] at hv
      obtain ⟨p, hp, hid⟩ := h.live v id hv
      exact ⟨p, List.mem_cons_of_mem _ hp, hid⟩

/-- `list_del` of the record with a given address leaves the others. -/
theorem perm_filter {p : VhciPriv} (hnd : (privs.map (·.id)).Nodup) (hp : p ∈ privs) :
    privs.Perm (p :: privs.filter fun q => q.id != p.id) := by
  induction privs with
  | nil => simp at hp
  | cons q privs ih =>
    have hnd' := List.nodup_cons.mp hnd
    rcases List.mem_cons.mp hp with rfl | hp
    · have hall : privs.filter (fun q => q.id != p.id) = privs := by
        refine List.filter_eq_self.mpr fun q hq => ?_
        rw [bne_iff_ne]
        rintro heq
        exact hnd'.1 (List.mem_map.mpr ⟨q, hq, heq⟩)
      simp [hall]
    · have hne : q.id ≠ p.id := fun heq => hnd'.1 (List.mem_map.mpr ⟨p, hp, heq.symm⟩)
      rw [List.filter_cons_of_pos (by simpa using hne)]
      exact ((ih hnd'.2 hp).cons q).trans (List.Perm.swap _ _ _)

end Linked

/-! ### The places that hold a URB -/

/-- The URB the receive thread has taken off the port and not given back yet. -/
def RxPc.held : RxPc → List ℕ
  | .retSubmit urb => [urb]
  | .giveback urb => [urb]
  | _ => []

/-- The URB the cleanup has taken off the port and not given back yet. -/
def ShutPc.held : ShutPc → List ℕ
  | .giveback urb => [urb]
  | _ => []

/-- The URBs out of the queues that some context is about to give back. -/
def Port.retiring (s : Port) : List ℕ := s.rx.held ++ s.shut.held ++ s.callers

/-- All the places of a port that hold a URB. -/
def Port.held (s : Port) : List ℕ := s.privs.map (·.urb) ++ s.retiring

/-- A giveback completes a URB that the core waits for. -/
def GivebackOwed (pre : List CoreEvent) (e : CoreEvent) : Prop :=
  ∀ u st, e = .giveback u st → outstanding pre u = true

/-- The invariant of a port. -/
structure PortInv (s : Port) : Prop where
  linked : Linked s.privs s.hcpriv s.nextId
  held_nodup : s.held.Nodup
  held_outstanding : ∀ u ∈ s.held, outstanding s.core u = true
  core_owed : Historical GivebackOwed s.core

namespace PortInv

variable {s s' : Port}

/-- A step that only moves URBs between places. -/
theorem move (h : PortInv s) (hlinked : Linked s'.privs s'.hcpriv s'.nextId)
    (hheld : s'.held.Perm s.held) (hcore : s'.core = s.core) : PortInv s' where
  linked := hlinked
  held_nodup := hheld.nodup_iff.mpr h.held_nodup
  held_outstanding u hu := by rw [hcore]; exact h.held_outstanding u (hheld.mem_iff.mp hu)
  core_owed := by rw [hcore]; exact h.core_owed

/-- A step that touches neither the records nor the places. -/
theorem frame (h : PortInv s) (hprivs : s'.privs = s.privs) (hhc : s'.hcpriv = s.hcpriv)
    (hid : s'.nextId = s.nextId) (hret : s'.retiring = s.retiring) (hcore : s'.core = s.core) :
    PortInv s' :=
  h.move (by rw [hprivs, hhc, hid]; exact h.linked)
    (by rw [Port.held, hprivs, hret]; exact List.Perm.refl _) hcore

/-- A step that abandons URBs it held. -/
theorem lose (h : PortInv s) (hprivs : s'.privs = s.privs) (hhc : s'.hcpriv = s.hcpriv)
    (hid : s'.nextId = s.nextId) (hret : s'.retiring.Sublist s.retiring)
    (hcore : s'.core = s.core) : PortInv s' := by
  have hsub : s'.held.Sublist s.held := by
    rw [Port.held, hprivs]
    exact (List.Sublist.refl _).append hret
  refine ⟨by rw [hprivs, hhc, hid]; exact h.linked, hsub.nodup h.held_nodup, fun u hu => ?_,
    by rw [hcore]; exact h.core_owed⟩
  rw [hcore]
  exact h.held_outstanding u (hsub.subset hu)

/-- A giveback removes the URB from the place that held it. -/
theorem giveback (h : PortInv s) {u : ℕ} (hprivs : s'.privs = s.privs)
    (hhc : s'.hcpriv = Function.update s.hcpriv u none) (hid : s'.nextId = s.nextId)
    (hret : s.retiring.Perm (u :: s'.retiring)) {st : ℤ}
    (hcore : s'.core = s.core ++ [.giveback u st]) : PortInv s' := by
  have hperm : s.held.Perm (u :: s'.held) := by
    rw [Port.held, Port.held, hprivs]
    exact (hret.append_left _).trans List.perm_middle
  have hnd := List.nodup_cons.mp (hperm.nodup_iff.mp h.held_nodup)
  have hu : u ∉ s.privs.map (·.urb) := by
    intro hmem
    exact hnd.1 (by rw [Port.held, hprivs]; exact List.mem_append_left _ hmem)
  refine ⟨by rw [hprivs, hhc, hid]; exact h.linked.clear hu, hnd.2, fun v hv => ?_, ?_⟩
  · have hvu : u ≠ v := fun heq => hnd.1 (heq ▸ hv)
    rw [hcore, outstanding_giveback, if_neg hvu]
    exact h.held_outstanding v (hperm.mem_iff.mpr (List.mem_cons_of_mem _ hv))
  · rw [hcore, historical_concat]
    refine ⟨h.core_owed, fun v st' heq => ?_⟩
    obtain ⟨rfl, -⟩ : u = v ∧ st = st' := by simpa using heq
    exact h.held_outstanding u (hperm.mem_iff.mpr List.mem_cons_self)

/-- The core hands over a URB that it does not wait for; so far no place holds it. -/
theorem accept (h : PortInv s) {urb : Urb} (hout : outstanding s.core urb.id = false) :
    PortInv (s.accept urb) ∧ urb.id ∉ (s.accept urb).held ∧
      outstanding (s.accept urb).core urb.id = true := by
  have hnew : urb.id ∉ s.held := fun hmem => by
    simp [h.held_outstanding _ hmem] at hout
  refine ⟨⟨h.linked, h.held_nodup, fun u hu => ?_, ?_⟩, hnew, by simp [Port.accept]⟩
  · have hne : urb.id ≠ u := by
      rintro rfl
      exact hnew hu
    simpa [Port.accept, hne] using h.held_outstanding u hu
  · rw [Port.accept, historical_concat]
    exact ⟨h.core_owed, fun v st heq => by simp at heq⟩

/-- A URB handed over goes to one place. -/
theorem place (h : PortInv s) {u : ℕ} (hnew : u ∉ s.held) (hout : outstanding s.core u = true)
    (hlinked : Linked s'.privs s'.hcpriv s'.nextId) (hheld : s'.held.Perm (u :: s.held))
    (hcore : s'.core = s.core) : PortInv s' := by
  refine ⟨hlinked, hheld.nodup_iff.mpr (List.nodup_cons.mpr ⟨hnew, h.held_nodup⟩),
    fun v hv => ?_, by rw [hcore]; exact h.core_owed⟩
  rw [hcore]
  rcases List.mem_cons.mp (hheld.mem_iff.mp hv) with rfl | hv
  · exact hout
  · exact h.held_outstanding v hv

/-- A calling context takes a URB over. -/
theorem retiring_callers {u : ℕ} (hrx : s'.rx = s.rx) (hshut : s'.shut = s.shut)
    (hc : s'.callers = s.callers ++ [u]) : s'.retiring.Perm (u :: s.retiring) := by
  rw [Port.retiring, hrx, hshut, hc, ← List.append_assoc]
  exact List.perm_append_singleton _ _

/-- A record and the rest of the records, seen as places that hold URBs. -/
theorem held_perm {p : VhciPriv} {l : List VhciPriv} (hp : s.privs.Perm (p :: l)) :
    s.held.Perm (p.urb :: (l.map (·.urb) ++ s.retiring)) :=
  (List.Perm.map VhciPriv.urb hp).append_right s.retiring

/-! ### The steps keep the invariant -/

/-- Taking a URB off `priv_rx` moves it from its record to the context that will give it
back. -/
theorem pickup (h : PortInv s) {p : VhciPriv} {l₁ l₂ : List VhciPriv}
    (hl : s.privRx = l₁ ++ p :: l₂) (hprivs : s'.privs = s.privTx ++ (l₁ ++ l₂))
    (hhc : s'.hcpriv = Function.update s.hcpriv p.urb none) (hid : s'.nextId = s.nextId)
    (hret : s'.retiring.Perm (p.urb :: s.retiring)) (hcore : s'.core = s.core) :
    PortInv s' := by
  have hperm : s.privs.Perm (p :: s'.privs) := by
    rw [hprivs, Port.privs, hl]
    exact ((List.perm_middle (a := p)).append_left s.privTx).trans List.perm_middle
  refine h.move (by rw [hhc, hid]; exact h.linked.remove hperm) ?_ hcore
  exact ((hret.append_left _).trans List.perm_middle).trans (held_perm hperm).symm

theorem vhciTxUrb (h : PortInv s) {urb : Urb} (hnew : urb.id ∉ s.held)
    (hout : outstanding s.core urb.id = true) (alloc : Bool) :
    PortInv (s.vhciTxUrb urb alloc) := by
  rw [Port.vhciTxUrb]
  split
  · exact h
  split
  · exact h.frame rfl rfl rfl rfl rfl
  have hnew' : urb.id ∉ s.privs.map (·.urb) := fun hm => hnew (List.mem_append_left _ hm)
  have hperm : ∀ p : VhciPriv, ((s.privTx ++ [p]) ++ s.privRx).Perm (p :: s.privs) := fun p => by
    rw [List.append_assoc]
    exact List.perm_middle
  refine h.place hnew hout (h.linked.add hnew' (hperm _)) ?_ rfl
  exact (List.Perm.map VhciPriv.urb (hperm _)).append_right s.retiring

theorem noNeedXmit (h : PortInv s) {u : ℕ} (hnew : u ∉ s.held)
    (hout : outstanding s.core u = true) : PortInv (s.noNeedXmit u) := by
  refine h.place hnew hout h.linked ?_ rfl
  have hret : (s.noNeedXmit u).retiring.Perm (u :: s.retiring) := retiring_callers rfl rfl rfl
  exact (hret.append_left _).trans List.perm_middle

theorem vhciUrbEnqueue (h : PortInv s) {urb : Urb}
    (hout : outstanding s.core urb.id = false) (linkRet : ℤ) (alloc : Bool) :
    PortInv (s.vhciUrbEnqueue urb linkRet alloc).2 := by
  obtain ⟨hacc, hnew, hout'⟩ := h.accept hout
  have haddr : PortInv ((s.accept urb).setAddress urb) := hacc.frame rfl rfl rfl rfl rfl
  have hudev : PortInv ((s.accept urb).setUdev urb) := hacc.frame rfl rfl rfl rfl rfl
  exact Port.vhciUrbEnqueue_cases h (hacc.noNeedXmit hnew hout') (haddr.noNeedXmit hnew hout')
    (hudev.vhciTxUrb hnew hout' alloc) (hacc.vhciTxUrb hnew hout' alloc) linkRet

/-- Without a socket the record is freed by the call, which gives the URB back. -/
theorem dequeueClosed (h : PortInv s) {u id : ℕ} (hid : s.hcpriv u = some id) :
    PortInv (s.dequeueClosed u id) := by
  obtain ⟨p, hp, rfl, rfl⟩ := h.linked.live u id hid
  have hperm : s.privs.Perm (p :: (s.privTx.filter (fun q => q.id != p.id) ++
      s.privRx.filter fun q => q.id != p.id)) := by
    rw [← List.filter_append]
    exact Linked.perm_filter h.linked.id_nodup hp
  refine h.move (h.linked.remove hperm) ?_ rfl
  have hret : (s.dequeueClosed p.urb p.id).retiring.Perm (p.urb :: s.retiring) :=
    retiring_callers rfl rfl rfl
  exact ((hret.append_left _).trans List.perm_middle).trans (held_perm hperm).symm

theorem unlinkCleanupLoop (us : List VhciUnlink) (h : PortInv s) (hshut : s.shut.held = []) :
    PortInv (Port.unlinkCleanupLoop us s) := by
  refine Port.unlinkCleanupLoop_cases ?_ (fun seqnum urb s₁ rest hp => ?_) us
  · refine h.frame rfl rfl rfl ?_ rfl
    rw [Port.retiring, Port.retiring, hshut]
    rfl
  · obtain ⟨l₁, p, l₂, hl, rfl, rfl⟩ := Port.pickupUrbAndFreePriv_eq_some hp
    refine h.pickup hl rfl rfl rfl ?_ rfl
    rw [Port.retiring, Port.retiring, hshut, List.append_nil]
    exact (List.perm_append_singleton p.urb s.rx.held).append_right s.callers

/-- Every step keeps the invariant. -/
theorem step (h : PortInv s) {a : Act} (hs : s.step a = some s') : PortInv s' := by
  cases Port.moves_of_step hs with
  | enqueue hout linkRet alloc => exact h.vhciUrbEnqueue hout linkRet alloc
  | dequeueGone | dequeueRefused | retUnlinkUnknown => exact h
  | dequeueClosed hid hsocket alloc => exact h.dequeueClosed hid
  | @callerGiveback urb hmem =>
    refine h.giveback (u := urb) rfl rfl rfl ?_ rfl
    exact ((List.perm_cons_erase hmem).append_left _).trans List.perm_middle
  | dequeueFailed | dequeueLinked | submitsDone | submitSent | submitUnsent | unlinksDone
  | unlinkTaken | unlinkSent | unlinkUnsent | txStop | txWake | retSubmitUnknown =>
    exact h.frame rfl rfl rfl rfl rfl
  | @submitTaken p rest htx hp =>
    have hperm : (rest ++ (s.privRx ++ [p])).Perm s.privs := by
      rw [Port.privs, hp, ← List.append_assoc]
      exact List.perm_append_singleton _ _
    exact h.move (h.linked.perm hperm) ((hperm.map _).append_right _) rfl
  | retSubmit hrx hpick status =>
    obtain ⟨l₁, p, l₂, hl, rfl, rfl⟩ := Port.pickupUrbAndFreePriv_eq_some hpick
    refine h.pickup hl rfl rfl rfl ?_ rfl
    simp [Port.retiring, hrx, RxPc.held, Port.setStatus]
  | payload hrx | pickupNone hrx hpick | rxStop hrx hstop =>
    exact h.frame rfl rfl rfl (by simp [Port.retiring, hrx, RxPc.held]) rfl
  | payloadFailed hrx =>
    refine h.lose rfl rfl rfl ?_ rfl
    simp [Port.retiring, hrx, RxPc.held]
  | retUnlink hrx hun status =>
    obtain ⟨l₁, l₂, -, rfl⟩ := Port.dequeuePendingUnlink_eq_some hun
    exact h.frame rfl rfl rfl (by simp [Port.retiring, hrx, RxPc.held]) rfl
  | pickup hrx hpick =>
    obtain ⟨l₁, p, l₂, hl, rfl, rfl⟩ := Port.pickupUrbAndFreePriv_eq_some hpick
    refine h.pickup hl rfl rfl rfl ?_ rfl
    simp [Port.retiring, hrx, RxPc.held, Port.setStatus]
  | @rxGiveback urb hrx =>
    refine h.giveback (u := urb) rfl rfl rfl ?_ rfl
    simp [Port.retiring, hrx, RxPc.held, Port.givebackUrb]
  | shutdown hshut | releaseSocket hshut htx hrx =>
    exact h.frame rfl rfl rfl (by simp [Port.retiring, hshut, ShutPc.held]) rfl
  | cleanup hshut =>
    have hdrop : PortInv { s with unlinkTx := [] } := h.frame rfl rfl rfl rfl rfl
    exact hdrop.unlinkCleanupLoop _ (by simp [hshut, ShutPc.held])
  | cleanupOn hshut => exact h.unlinkCleanupLoop _ (by simp [hshut, ShutPc.held])
  | @cleanupGiveback urb hshut =>
    refine h.giveback (u := urb) rfl rfl rfl ?_ rfl
    simp only [Port.retiring, hshut, ShutPc.held, Port.givebackUrb, List.append_nil]
    exact (List.perm_append_singleton urb s.rx.held).append_right s.callers

/-- The invariant holds in every state of a connection. -/
theorem of_reachable {seqnum : BitVec 32} {udev : Option ℕ}
    (h : (vhciPort seqnum udev).Reachable s) : PortInv s := by
  refine h.invariant ⟨⟨by simp [attached, vhciPort, Port.privs], ?_, ?_, ?_, ?_⟩, ?_, ?_, ?_⟩
    fun s a s' hs _ hstep => hs.step hstep
  all_goals simp [attached, vhciPort, Port.privs, Port.held, Port.retiring, RxPc.held, ShutPc.held]

end PortInv

/-! ### The history the core sees -/

/-- Between two givebacks of a URB the core enqueued it. -/
def GivenBackOnce (h : List CoreEvent) : Prop :=
  ∀ u st st' pre mid post,
    h = pre ++ .giveback u st :: mid ++ .giveback u st' :: post → .enqueue u ∈ mid

/-- The core waits for a URB after a history only if it did before, or if it enqueued the URB
since. -/
theorem outstanding_append {h h' : List CoreEvent} {u : ℕ}
    (ho : outstanding (h ++ h') u = true) : outstanding h u = true ∨ .enqueue u ∈ h' := by
  induction h' using List.reverseRecOn with
  | nil => exact Or.inl (by simpa using ho)
  | append_singleton l e ih =>
    rw [← List.append_assoc] at ho
    cases e with
    | enqueue v =>
      rw [outstanding_enqueue] at ho
      split at ho
      · next hv => exact Or.inr (by simp [hv])
      · exact (ih ho).imp_right (List.mem_append_left _)
    | giveback v st =>
      rw [outstanding_giveback] at ho
      split at ho
      · simp at ho
      · exact (ih ho).imp_right (List.mem_append_left _)

/-- Givebacks that are all owed never come twice in a row. -/
theorem GivenBackOnce.of_owed {h : List CoreEvent} (ho : Historical GivebackOwed h) :
    GivenBackOnce h := by
  intro u st st' pre mid post heq
  have howed := ho (pre ++ .giveback u st :: mid) (.giveback u st') post heq u st' rfl
  rw [List.append_cons] at howed
  rcases outstanding_append howed with h1 | h1
  · simp at h1
  · exact h1

/-- **A URB is given back at most once per enqueue**, whatever the server sends and however
the contexts interleave; and the records on `priv_tx` and `priv_rx` stay distinct, each the
target of its URB's `hcpriv`. -/
theorem giveback_at_most_once {seqnum : BitVec 32} {udev : Option ℕ} {s : Port}
    (h : (vhciPort seqnum udev).Reachable s) :
    GivenBackOnce s.core ∧ ((s.privTx ++ s.privRx).map (·.id)).Nodup ∧
      ∀ p ∈ s.privTx ++ s.privRx, s.hcpriv p.urb = some p.id := by
  have hinv := PortInv.of_reachable h
  exact ⟨.of_owed hinv.core_owed, hinv.linked.id_nodup, hinv.linked.back⟩

/-- A URB is submitted, unlinked, and answered twice; the second answer finds nothing. A second
URB is still pending when the connection ends and is given back by its late dequeue. -/
def lateReplies : List Act :=
  [.enqueue ⟨7, 1, einprogress, 2, false, none⟩ 0 true, .txDequeueSubmit, .txSendSubmit true,
    .dequeue 7 0 true, .rxRetSubmit 1 0, .rxPayload true, .rxGiveback,
    .enqueue ⟨8, 1, einprogress, 2, false, none⟩ 0 true, .txDequeueSubmit, .txSendSubmit true,
    .txDequeueSubmit, .txDequeueUnlink, .txSendUnlink true, .rxRetUnlink 2 (-104), .rxPickup,
    .shutdown, .rxStop, .txDequeueUnlink, .txWake, .releaseSocket, .cleanup, .dequeue 8 0 true,
    .callerGiveback 8]

theorem giveback_at_most_once_lateReplies :
    ∃ s, (vhciPort 0 (some 1)).run (attached 0 (some 1)) lateReplies = some s ∧
      (GivenBackOnce s.core ∧ ((s.privTx ++ s.privRx).map (·.id)).Nodup ∧
        ∀ p ∈ s.privTx ++ s.privRx, s.hcpriv p.urb = some p.id) :=
  Machine.exists_run (m := vhciPort 0 (some 1)) (by decide) fun _ h => giveback_at_most_once h

example : ((vhciPort 0 (some 1)).run (attached 0 (some 1)) lateReplies).map (·.core) =
    some [.enqueue 7, .giveback 7 0, .enqueue 8, .giveback 8 einprogress] := by decide

end Usbip.Vhci
