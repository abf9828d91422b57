import Usbip.Vhci.Giveback

/-!
# Unlinked URBs at the end of a connection

While the connection is up, `vhci_urb_dequeue` only queues a `vhci_unlink` and returns 0: the URB
will be given back when its RET_UNLINK or RET_SUBMIT comes, or else by
`vhci_device_unlink_cleanup`. The core does not ask for a URB twice, so after
`vhci_shutdown_connection` every such URB must have been given back.

`UnlinkingPort.Clears` is what has to be true of the steps for this:

* a URB without `hcpriv` is one that some context is about to give back, and not one that
  `vhci_tx_urb` or a failing read has lost;
* an unlink that is taken off `unlink_rx` finds its request as the first one on `priv_rx` with
  its number, unless the request is gone. It misses a request that is still on `priv_tx`, and any
  whose number is negative as an `int`;
* `unlink_tx` holds no unlink of a pending request when the cleanup frees it. The cleanup gives
  nothing back there.
-/

namespace Usbip.Vhci

open ListWalk

/-! ### From the release of the socket on -/

/-- The socket has been released. -/
def ShutPc.late : ShutPc → Bool
  | .live | .stopping => false
  | _ => true

/-- The cleanup has gone through `unlink_tx`. -/
def ShutPc.cleaning : ShutPc → Bool
  | .live | .stopping | .released => false
  | _ => true

/-- What the port looks like once the socket has been released, and once the cleanup has begun. -/
structure ShutInv (s : Port) : Prop where
  socket : s.shut.late = true → s.tcpSocket = false
  rx : s.shut.late = true → s.rx = .stopped
  unlinkTx : s.shut.cleaning = true → s.unlinkTx = []

namespace ShutInv

variable {s s' : Port}

theorem frame (h : ShutInv s) (hsocket : s'.tcpSocket = s.tcpSocket) (hrx : s'.rx = s.rx)
    (htx : s'.unlinkTx = s.unlinkTx) (hshut : s'.shut = s.shut) : ShutInv s' where
  socket := by rw [hshut, hsocket]; exact h.socket
  rx := by rw [hshut, hrx]; exact h.rx
  unlinkTx := by rw [hshut, htx]; exact h.unlinkTx

theorem late_of_cleaning {p : ShutPc} (h : p.cleaning = true) : p.late = true := by
  cases p with
  | live | stopping | released => cases h
  | cleanup | giveback urb | done => rfl

/-- Before the release of the socket nothing is known. -/
theorem early (hshut : s.shut.late = false) : ShutInv s where
  socket h := by simp [hshut] at h
  rx h := by simp [hshut] at h
  unlinkTx h := by simp [late_of_cleaning h] at hshut

/-- The receive thread runs only before the release of the socket. -/
theorem late_eq_false (h : ShutInv s) (hrx : s.rx ≠ .stopped) : s.shut.late = false := by
  cases hl : s.shut.late with
  | false => rfl
  | true => exact absurd (h.rx hl) hrx

/-- A dequeue finds the socket only before its release. -/
theorem late_eq_false_of_socket (h : ShutInv s) (hsocket : s.tcpSocket = true) :
    s.shut.late = false := by
  cases hl : s.shut.late with
  | false => rfl
  | true => simp [h.socket hl] at hsocket

theorem unlinkCleanupLoop (us : List VhciUnlink) (hsocket : s.tcpSocket = false)
    (hrx : s.rx = .stopped) (htx : s.unlinkTx = []) : ShutInv (Port.unlinkCleanupLoop us s) := by
  refine Port.unlinkCleanupLoop_cases ⟨fun _ => hsocket, fun _ => hrx, fun _ => htx⟩
    (fun seqnum urb s₁ rest hp => ?_) us
  obtain ⟨l₁, p, l₂, hl, rfl, rfl⟩ := Port.pickupUrbAndFreePriv_eq_some hp
  exact ⟨fun _ => hsocket, fun _ => hrx, fun _ => htx⟩

theorem vhciUrbEnqueue (h : ShutInv s) (urb : Urb) (linkRet : ℤ) (alloc : Bool) :
    ShutInv (s.vhciUrbEnqueue urb linkRet alloc).2 := by
  have hsend : ∀ t : Port, ShutInv t → ShutInv (t.vhciTxUrb urb alloc) := by
    intro t ht
    rw [Port.vhciTxUrb]
    split
    · exact ht
    split
    · exact ht.frame rfl rfl rfl rfl
    · exact ht.frame rfl rfl rfl rfl
  have hself : ShutInv (s.accept urb) := h.frame rfl rfl rfl rfl
  exact Port.vhciUrbEnqueue_cases h (h.frame rfl rfl rfl rfl) (h.frame rfl rfl rfl rfl)
    (hsend _ (h.frame rfl rfl rfl rfl)) (hsend _ hself) linkRet

theorem step (h : ShutInv s) {a : Act} (hs : s.step a = some s') : ShutInv s' := by
  cases Port.moves_of_step hs with
  | enqueue hout linkRet alloc => exact h.vhciUrbEnqueue _ linkRet alloc
  | dequeueGone | dequeueRefused | retUnlinkUnknown => exact h
  | dequeueClosed | callerGiveback | dequeueFailed | submitsDone | submitTaken | submitSent
  | submitUnsent | unlinksDone | unlinkSent | unlinkUnsent | txStop | txWake | retSubmitUnknown =>
    exact h.frame rfl rfl rfl rfl
  | dequeueLinked hid hsocket hp => exact early (h.late_eq_false_of_socket hsocket)
  | unlinkTaken htx hu =>
    refine ⟨h.socket, h.rx, fun hclean => ?_⟩
    simp [h.unlinkTx hclean] at hu
  | retSubmit hrx hpick =>
    obtain ⟨l₁, p, l₂, hl, rfl, rfl⟩ := Port.pickupUrbAndFreePriv_eq_some hpick
    exact early (h.late_eq_false (by simp [hrx]))
  | payload hrx | payloadFailed hrx | pickupNone hrx | rxGiveback hrx | rxStop hrx =>
    exact early (h.late_eq_false (by simp [hrx]))
  | retUnlink hrx hun =>
    obtain ⟨l₁, l₂, -, rfl⟩ := Port.dequeuePendingUnlink_eq_some hun
    exact early (h.late_eq_false (by simp [hrx]))
  | pickup hrx hpick =>
    obtain ⟨l₁, p, l₂, hl, rfl, rfl⟩ := Port.pickupUrbAndFreePriv_eq_some hpick
    exact early (h.late_eq_false (by simp [hrx]))
  | shutdown hshut => exact early rfl
  | releaseSocket hshut htx hrx =>
    exact ⟨fun _ => rfl, fun _ => hrx, fun hclean => nomatch hclean⟩
  | cleanup hshut =>
    exact unlinkCleanupLoop _ (h.socket (by rw [hshut]; rfl)) (h.rx (by rw [hshut]; rfl)) rfl
  | cleanupOn hshut =>
    exact unlinkCleanupLoop _ (h.socket (by rw [hshut]; rfl)) (h.rx (by rw [hshut]; rfl))
      (h.unlinkTx (by rw [hshut]; rfl))
  | cleanupGiveback hshut =>
    exact ⟨fun _ => h.socket (by rw [hshut]; rfl), fun _ => h.rx (by rw [hshut]; rfl),
      fun _ => h.unlinkTx (by rw [hshut]; rfl)⟩

theorem of_reachable {seqnum : BitVec 32} {udev : Option ℕ}
    (h : (vhciPort seqnum udev).Reachable s) : ShutInv s :=
  h.invariant (early rfl) fun _ _ _ hs _ hstep => hs.step hstep

end ShutInv

/-! ### The URBs that wait for their unlink -/

/-- `-ENOMEM` -/
def enomem : ℤ := -12

/-- The unlink that the receive thread has taken off `unlink_rx`. -/
def RxPc.unlinks : RxPc → List VhciUnlink
  | .retUnlink unlink _ => [unlink]
  | _ => []

namespace Port

/-- What `vhci_urb_dequeue` returns. -/
def dequeueRet (s : Port) (urb : ℕ) (checkRet : ℤ) (alloc : Bool) : ℤ :=
  match s.hcpriv urb with
  | none => 0
  | some _ =>
    if checkRet ≠ 0 then checkRet
    else if !s.tcpSocket then 0
    else if !alloc then enomem
    else 0

/-- The unlinks that are not answered. -/
def unlinks (s : Port) : List VhciUnlink := s.unlinkTx ++ (s.unlinkRx ++ s.rx.unlinks)

/-- `pickup_urb_and_free_priv` finds the request that the unlink is for, if it is still there. -/
def Finds (s : Port) (un : VhciUnlink) : Prop :=
  ∀ p ∈ s.privs, p.id = un.target →
    s.privRx.find? (fun q => q.seqnum == (un.unlinkSeqnum.setWidth 32).setWidth 64) = some p

/-- Somebody is about to give the URB back, or an unlink of its request is on its way. -/
def Retires (s : Port) (u : ℕ) : Prop :=
  u ∈ s.retiring ∨ ∃ p ∈ s.privs, p.urb = u ∧ ∃ un ∈ s.unlinks, un.target = p.id

instance (s : Port) (un : VhciUnlink) : Decidable (s.Finds un) := by
  unfold Finds
  infer_instance

end Port

/-- A port and the URBs that the core waits for: `accepted` those that `usb_hcd_check_unlink_urb`
has accepted for unlinking, `pending` those for which `vhci_urb_dequeue` has returned 0 while the
port had its socket. -/
structure UnlinkingPort where
  port : Port
  accepted : List ℕ
  pending : List ℕ

namespace UnlinkingPort

/-- The URB of a dequeue that asks `usb_hcd_check_unlink_urb` and is accepted. -/
def newAccepted (s : Port) : Act → List ℕ
  | .dequeue urb checkRet _ => if (s.hcpriv urb).isSome ∧ checkRet = 0 then [urb] else []
  | _ => []

/-- The URB of a dequeue that returns 0 on the live connection. -/
def newPending (s : Port) : Act → List ℕ
  | .dequeue urb checkRet alloc =>
    if s.tcpSocket = true ∧ s.dequeueRet urb checkRet alloc = 0 then [urb] else []
  | _ => []

def step (s : UnlinkingPort) (a : Act) : Option UnlinkingPort :=
  (s.port.step a).map fun port =>
    { port := port
      accepted := (s.accepted ++ newAccepted s.port a).filter (outstanding port.core)
      pending := (s.pending ++ newPending s.port a).filter (outstanding port.core) }

/-- `usb_hcd_check_unlink_urb` accepts a URB only once. -/
def ChecksOnce (s : UnlinkingPort) : Act → Prop
  | .dequeue urb checkRet _ => checkRet = 0 → urb ∉ s.accepted
  | _ => True

/-- The steps that lose no URB. -/
def Clears (s : UnlinkingPort) : Act → Prop
  | .dequeue urb _ _ => s.port.hcpriv urb = none → outstanding s.port.core urb = true →
      urb ∈ s.port.retiring
  | .rxPayload ok => ok = true ∨ ∀ urb ∈ s.port.rx.held, urb ∉ s.pending
  | .rxPickup => ∀ un ∈ s.port.rx.unlinks, s.port.Finds un
  | .cleanup =>
    (s.port.shut = .released → ∀ un ∈ s.port.unlinkTx, un.target ∉ s.port.privs.map (·.id)) ∧
      (∀ un ∈ s.port.unlinkRx, s.port.Finds un) ∧ ∀ urb ∈ s.port.callers, urb ∉ s.pending
  | _ => True

instance (s : UnlinkingPort) (a : Act) : Decidable (s.ChecksOnce a) := by
  induction a using Act.casesOn <;> dsimp only [ChecksOnce] <;> infer_instance

instance (s : UnlinkingPort) (a : Act) : Decidable (s.Clears a) := by
  induction a using Act.casesOn <;> dsimp only [Clears] <;> infer_instance

end UnlinkingPort

def unlinkingPort (seqnum : BitVec 32) (udev : Option ℕ) : Machine UnlinkingPort Act where
  init := ⟨attached seqnum udev, [], []⟩
  step := UnlinkingPort.step

/-! ### Nothing is lost -/

namespace Port

variable {s s' : Port} {u : ℕ}

theorem Retires.mono (h : s.Retires u) (hret : s.retiring ⊆ s'.retiring)
    (hprivs : s.privs ⊆ s'.privs) (hun : s.unlinks ⊆ s'.unlinks) : s'.Retires u := by
  obtain hu | ⟨p, hp, rfl, un, hmem, hid⟩ := h
  · exact .inl (hret hu)
  · exact .inr ⟨p, hprivs hp, rfl, un, hun hmem, hid⟩

/-- A giveback concerns no URB that the core waits for afterwards. -/
theorem Retires.giveback (h : s.Retires u) {v : ℕ} (hne : u ≠ v)
    (hret : ∀ w ∈ s.retiring, w ≠ v → w ∈ s'.retiring) (hprivs : s.privs ⊆ s'.privs)
    (hun : s.unlinks ⊆ s'.unlinks) : s'.Retires u := by
  obtain hu | ⟨p, hp, rfl, un, hmem, hid⟩ := h
  · exact .inl (hret _ hu hne)
  · exact .inr ⟨p, hprivs hp, rfl, un, hun hmem, hid⟩

/-- A request is taken off `priv_rx` by the context that will give its URB back. -/
theorem Retires.pickup (h : s.Retires u) {p : VhciPriv} {l₁ l₂ : List VhciPriv}
    (hl : s.privRx = l₁ ++ p :: l₂) (hprivs : s'.privs = s.privTx ++ (l₁ ++ l₂))
    (hret : s.retiring ⊆ s'.retiring) (hp : p.urb ∈ s'.retiring)
    (hun : ∀ un ∈ s.unlinks, un ∈ s'.unlinks ∨ ∀ q ∈ s.privs, q.id = un.target → q = p) :
    s'.Retires u := by
  obtain hu | ⟨q, hq, rfl, un, hmem, hid⟩ := h
  · exact .inl (hret hu)
  by_cases hqp : q = p
  · exact .inl (hqp ▸ hp)
  have hq' : q ∈ s'.privs := by
    rw [privs, hl] at hq
    rw [hprivs]
    simp only [List.mem_append, List.mem_cons, hqp, false_or] at hq ⊢
    exact hq
  obtain hmem' | honly := hun un hmem
  · exact .inr ⟨q, hq', rfl, un, hmem', hid⟩
  · exact absurd (honly q hq hid.symm) hqp

/-- What `pickup_urb_and_free_priv` takes is the entry that the walk comes to first. -/
theorem find?_of_pickup {q : BitVec 32} {l₁ l₂ : List VhciPriv} {p : VhciPriv}
    (h : findSplit (fun p => p.seqnum == q.setWidth 64) s.privRx = some (l₁, p, l₂)) :
    s.privRx.find? (fun p => p.seqnum == q.setWidth 64) = some p := by
  obtain ⟨hl, hp, hpre⟩ := findSplit_eq_some h
  rw [hl, List.find?_append, List.find?_eq_none.mpr fun x hx => by simpa using hpre x hx,
    Option.none_or]
  exact List.find?_cons_of_pos hp

/-- The request that the pickup for an unlink takes is the one that the unlink is for. -/
theorem Finds.pickup {un : VhciUnlink} (h : s.Finds un) {urb : ℕ} {s₁ : Port}
    (hpick : s.pickupUrbAndFreePriv (un.unlinkSeqnum.setWidth 32) = some (urb, s₁)) :
    ∃ l₁ p l₂, s.privRx = l₁ ++ p :: l₂ ∧ p.urb = urb ∧
      s₁ = { s with privRx := l₁ ++ l₂, hcpriv := Function.update s.hcpriv urb none } ∧
      ∀ q ∈ s.privs, q.id = un.target → q = p := by
  rw [pickupUrbAndFreePriv] at hpick
  obtain ⟨⟨l₁, p, l₂⟩, hwalk, heq⟩ := Option.map_eq_some_iff.mp hpick
  obtain ⟨rfl, rfl⟩ := Prod.mk.inj heq
  refine ⟨l₁, p, l₂, (findSplit_eq_some hwalk).1, rfl, rfl, fun q hq hid => ?_⟩
  have := (h q hq hid).symm.trans (find?_of_pickup hwalk)
  exact Option.some.inj this

/-- If the pickup finds nothing, the request is gone. -/
theorem Finds.dead {un : VhciUnlink} (h : s.Finds un)
    (hpick : s.pickupUrbAndFreePriv (un.unlinkSeqnum.setWidth 32) = none) :
    ∀ p ∈ s.privs, p.id ≠ un.target := by
  intro p hp hid
  rw [pickupUrbAndFreePriv, Option.map_eq_none_iff, findSplit_eq_none] at hpick
  have hfind := h p hp hid
  exact absurd (List.find?_some hfind) (by simp [hpick p (List.mem_of_find?_eq_some hfind)])

/-- The loop of `vhci_device_unlink_cleanup` drops only unlinks whose request is gone, or gives
the request back. -/
theorem Retires.unlinkCleanupLoop (us : List VhciUnlink) (hfind : ∀ un ∈ us, s.Finds un)
    (hshut : s.shut.held = [])
    (h : u ∈ s.retiring ∨ ∃ p ∈ s.privs, p.urb = u ∧ ∃ un ∈ us, un.target = p.id) :
    (Port.unlinkCleanupLoop us s).Retires u := by
  induction us with
  | nil =>
    obtain hu | ⟨p, hp, rfl, un, hmem, -⟩ := h
    · rw [retiring, hshut] at hu
      exact .inl hu
    · simp at hmem
  | cons un rest ih =>
    have hun := hfind un List.mem_cons_self
    rw [Port.unlinkCleanupLoop]
    split
    next hpick =>
      refine ih (fun v hv => hfind v (List.mem_cons_of_mem _ hv)) ?_
      refine h.imp_right ?_
      rintro ⟨p, hp, hurb, v, hmem, hid⟩
      refine ⟨p, hp, hurb, v, ?_, hid⟩
      refine (List.mem_cons.mp hmem).resolve_left ?_
      rintro rfl
      exact hun.dead hpick p hp hid.symm
    next urb s₁ hpick =>
      obtain ⟨l₁, q, l₂, hl, rfl, rfl, honly⟩ := hun.pickup hpick
      have hret : s.retiring ⊆ s.rx.held ++ [q.urb] ++ s.callers := by
        simp only [retiring, hshut, List.append_nil]
        exact ((List.sublist_append_left _ _).append_right _).subset
      obtain hu | ⟨p, hp, rfl, v, hmem, hid⟩ := h
      · exact .inl (hret hu)
      by_cases hpq : p = q
      · subst hpq
        refine .inl (List.mem_append_left _ (List.mem_append_right _ ?_))
        exact List.mem_singleton_self _
      · refine .inr ⟨p, ?_, rfl, v, ?_, hid⟩
        · rw [privs, hl] at hp
          simp only [List.mem_append, List.mem_cons, hpq, false_or] at hp
          simpa [privs, setStatus] using hp
        · have hne : v ≠ un := by
            rintro rfl
            exact hpq (honly p hp hid.symm)
          have hrest : v ∈ rest := (List.mem_cons.mp hmem).resolve_left hne
          exact List.mem_append_right _ (List.mem_append_left _ hrest)

theorem Retires.vhciUrbEnqueue (h : s.Retires u) (urb : Urb) (linkRet : ℤ) (alloc : Bool) :
    (s.vhciUrbEnqueue urb linkRet alloc).2.Retires u := by
  have hsend : ∀ t : Port, t.Retires u → (t.vhciTxUrb urb alloc).Retires u := by
    intro t ht
    rw [vhciTxUrb]
    split
    · exact ht
    split
    · exact ht
    · refine ht.mono (List.Subset.refl _) ?_ (List.Subset.refl _)
      exact ((List.sublist_append_left _ _).append_right _).subset
  have hcall : ∀ t : Port, t.Retires u → (t.noNeedXmit urb.id).Retires u := fun t ht =>
    ht.mono (((List.sublist_append_left _ _).append_left _).subset) (List.Subset.refl _)
      (List.Subset.refl _)
  have haccept : (s.accept urb).Retires u := h
  have haddr : ((s.accept urb).setAddress urb).Retires u := h
  have hudev : ((s.accept urb).setUdev urb).Retires u := h
  exact vhciUrbEnqueue_cases (motive := fun t => t.Retires u) h (hcall _ haccept) (hcall _ haddr)
    (hsend _ hudev) (hsend _ haccept) linkRet

end Port

namespace UnlinkingPort

variable {s : UnlinkingPort} {port : Port} {u : ℕ}

/-- A step that loses no URB leaves each pending one with somebody. -/
theorem retires_step (hinv : PortInv s.port) (hshut : ShutInv s.port) {a : Act} (hok : s.Clears a)
    (hs : s.port.step a = some port) (hu : u ∈ s.pending) (h : s.port.Retires u)
    (hout : outstanding port.core u = true) : port.Retires u := by
  cases Port.moves_of_step hs with
  | enqueue houtb linkRet alloc => exact h.vhciUrbEnqueue _ linkRet alloc
  | dequeueGone | dequeueRefused | retUnlinkUnknown => exact h
  | @dequeueClosed urb id hid hsocket alloc =>
    obtain ⟨p, hp, rfl, rfl⟩ := hinv.linked.live _ _ hid
    obtain hu | ⟨q, hq, rfl, un, hmem, hun⟩ := h
    · exact .inl (((List.sublist_append_left _ _).append_left _).subset hu)
    by_cases hqp : q.id = p.id
    · obtain rfl : q = p := List.inj_on_of_nodup_map hinv.linked.id_nodup hq hp hqp
      -- the caller of `vhci_urb_dequeue` is about to give it back
      refine .inl (List.mem_append_right _ (List.mem_append_right _ ?_))
      exact List.mem_singleton_self _
    · refine .inr ⟨q, ?_, rfl, un, hmem, hun⟩
      change q ∈ s.port.privTx.filter (fun r => r.id != p.id) ++
        s.port.privRx.filter fun r => r.id != p.id
      rw [← List.filter_append]
      exact List.mem_filter.mpr ⟨hq, by simpa using hqp⟩
  | @callerGiveback urb hmem =>
    have hne : u ≠ urb := by
      rintro rfl
      simp [Port.givebackUrb] at hout
    refine h.giveback hne (fun w hw hwne => ?_) (List.Subset.refl _) (List.Subset.refl _)
    obtain hw | hw := List.mem_append.mp hw
    · exact List.mem_append_left _ hw
    · exact List.mem_append_right _ ((List.mem_erase_of_ne hwne).mpr hw)
  | dequeueFailed | submitsDone | submitSent | submitUnsent | unlinksDone | unlinkSent
  | unlinkUnsent | txStop | txWake | retSubmitUnknown => exact h
  | dequeueLinked hid hsocket hp =>
    refine h.mono (List.Subset.refl _) (List.Subset.refl _) ?_
    exact ((List.sublist_append_left _ _).append_right _).subset
  | @submitTaken p rest htx hp =>
    refine h.mono (List.Subset.refl _) ?_ (List.Subset.refl _)
    rw [Port.privs, hp]
    intro q hq
    simp only [List.mem_append, List.mem_cons, Port.privs, List.not_mem_nil, or_false] at hq ⊢
    tauto
  | unlinkTaken htx hun =>
    refine h.mono (List.Subset.refl _) (List.Subset.refl _) ?_
    rw [Port.unlinks, hun]
    intro q hq
    simp only [List.mem_append, List.mem_cons, Port.unlinks, List.not_mem_nil, or_false] at hq ⊢
    tauto
  | retSubmit hrx hpick status =>
    obtain ⟨l₁, p, l₂, hl, rfl, rfl⟩ := Port.pickupUrbAndFreePriv_eq_some hpick
    refine h.pickup hl rfl ?_ (by simp [Port.retiring, RxPc.held]) fun un hun => .inl ?_
    · simp [Port.retiring, hrx, RxPc.held, Port.setStatus]
    · simpa [Port.unlinks, hrx, RxPc.unlinks, Port.setStatus] using hun
  | payload hrx =>
    refine h.mono ?_ (List.Subset.refl _) ?_
    · simp [Port.retiring, hrx, RxPc.held]
    · simp [Port.unlinks, hrx, RxPc.unlinks]
  | @payloadFailed urb hrx =>
    have hne : u ≠ urb := by
      rintro rfl
      obtain hok | hok := hok
      · cases hok
      · exact hok u (by simp [hrx, RxPc.held]) hu
    refine h.giveback hne (fun w hw hwne => ?_) (List.Subset.refl _) ?_
    · simpa [Port.retiring, hrx, RxPc.held, hwne] using hw
    · simp [Port.unlinks, hrx, RxPc.unlinks]
  | retUnlink hrx hun status =>
    obtain ⟨l₁, l₂, hl, rfl⟩ := Port.dequeuePendingUnlink_eq_some hun
    refine h.mono ?_ (List.Subset.refl _) ?_
    · simp [Port.retiring, hrx, RxPc.held]
    · intro q hq
      simp only [Port.unlinks, hrx, hl, RxPc.unlinks, List.mem_append, List.mem_cons,
        List.not_mem_nil, or_false] at hq ⊢
      tauto
  | @pickupNone un status hrx hpick =>
    have hfind := hok un (by simp [hrx, RxPc.unlinks])
    obtain hu | ⟨p, hp, rfl, v, hmem, hid⟩ := h
    · refine .inl ?_
      simpa [Port.retiring, hrx, RxPc.held] using hu
    · refine .inr ⟨p, hp, rfl, v, ?_, hid⟩
      have hne : v ≠ un := by
        rintro rfl
        exact hfind.dead hpick p hp hid.symm
      simpa [Port.unlinks, hrx, RxPc.unlinks, hne] using hmem
  | @pickup un status urb s₁ hrx hpick =>
    have hfind := hok un (by simp [hrx, RxPc.unlinks])
    obtain ⟨l₁, p, l₂, hl, rfl, rfl, honly⟩ := hfind.pickup hpick
    refine h.pickup hl rfl ?_ (by simp [Port.retiring, RxPc.held]) fun v hv => ?_
    · simp [Port.retiring, hrx, RxPc.held, Port.setStatus]
    · by_cases hvun : v = un
      · exact .inr (hvun ▸ honly)
      · refine .inl ?_
        simpa [Port.unlinks, hrx, RxPc.unlinks, Port.setStatus, hvun] using hv
  | @rxGiveback urb hrx =>
    have hne : u ≠ urb := by
      rintro rfl
      simp [Port.givebackUrb] at hout
    refine h.giveback hne (fun w hw hwne => ?_) (List.Subset.refl _) ?_
    · simpa [Port.retiring, hrx, RxPc.held, Port.givebackUrb, hwne] using hw
    · simp [Port.unlinks, hrx, RxPc.unlinks, Port.givebackUrb]
  | rxStop hrx hstop =>
    refine h.mono ?_ (List.Subset.refl _) ?_
    · simp [Port.retiring, hrx, RxPc.held]
    · simp [Port.unlinks, hrx, RxPc.unlinks]
  | shutdown hshut | releaseSocket hshut htx hrx =>
    refine h.mono ?_ (List.Subset.refl _) (List.Subset.refl _)
    simp [Port.retiring, hshut, ShutPc.held]
  | cleanup hlate =>
    obtain ⟨htx, hrx, -⟩ := hok
    refine Port.Retires.unlinkCleanupLoop (s := { s.port with unlinkTx := [] }) _ hrx
      (by simp [hlate, ShutPc.held]) ?_
    refine h.imp_right ?_
    rintro ⟨p, hp, hurb, un, hmem, hid⟩
    refine ⟨p, hp, hurb, un, ?_, hid⟩
    have hstop : s.port.rx = .stopped := hshut.rx (by rw [hlate]; rfl)
    have hlive : un ∉ s.port.unlinkTx := fun hun =>
      htx hlate un hun (List.mem_map.mpr ⟨p, hp, hid.symm⟩)
    simpa [Port.unlinks, hstop, RxPc.unlinks, hlive] using hmem
  | cleanupOn hlate =>
    obtain ⟨-, hrx, -⟩ := hok
    refine Port.Retires.unlinkCleanupLoop _ hrx (by simp [hlate, ShutPc.held]) ?_
    refine h.imp_right ?_
    rintro ⟨p, hp, hurb, un, hmem, hid⟩
    refine ⟨p, hp, hurb, un, ?_, hid⟩
    have hstop : s.port.rx = .stopped := hshut.rx (by rw [hlate]; rfl)
    have htx : s.port.unlinkTx = [] := hshut.unlinkTx (by rw [hlate]; rfl)
    simpa [Port.unlinks, hstop, htx, RxPc.unlinks] using hmem
  | @cleanupGiveback urb hshut =>
    have hne : u ≠ urb := by
      rintro rfl
      simp [Port.givebackUrb] at hout
    refine h.giveback hne (fun w hw hwne => ?_) (List.Subset.refl _) (List.Subset.refl _)
    simpa [Port.retiring, hshut, ShutPc.held, Port.givebackUrb, hwne] using hw

/-- After a dequeue that returns 0, somebody is about to give the URB back, or its unlink is
queued. -/
theorem retires_newPending (hinv : PortInv s.port) {a : Act} (hok : s.Clears a)
    (hs : s.port.step a = some port) (hu : u ∈ newPending s.port a)
    (hout : outstanding port.core u = true) : port.Retires u := by
  have hmem : ∀ {c : Prop} [Decidable c] {v : ℕ}, u ∈ (if c then [v] else []) → u = v ∧ c := by
    intro c _ v h
    split at h
    next hc => exact ⟨List.mem_singleton.mp h, hc⟩
    · cases h
  cases Port.moves_of_step hs with
  | @dequeueGone urb hnone checkRet alloc =>
    obtain ⟨rfl, -⟩ := hmem hu
    exact .inl (hok hnone hout)
  | @dequeueRefused urb id hid checkRet hret alloc =>
    obtain ⟨-, -, hzero⟩ := hmem hu
    simp [Port.dequeueRet, hid, hret] at hzero
  | @dequeueClosed urb id hid hsocket alloc =>
    obtain ⟨-, hopen, -⟩ := hmem hu
    simp [hsocket] at hopen
  | @dequeueFailed urb id hid hsocket =>
    obtain ⟨-, -, hzero⟩ := hmem hu
    simp [Port.dequeueRet, hid, hsocket, enomem] at hzero
  | @dequeueLinked urb id p hid hsocket hp =>
    obtain ⟨rfl, -⟩ := hmem hu
    obtain ⟨q, hq, hqid, hqurb⟩ := hinv.linked.live _ _ hid
    have hpmem : p ∈ s.port.privs := List.mem_of_find?_eq_some hp
    have hpid : p.id = id := by simpa using List.find?_some hp
    obtain rfl : p = q := List.inj_on_of_nodup_map hinv.linked.id_nodup hpmem hq
      (hpid.trans hqid.symm)
    refine .inr ⟨p, hpmem, hqurb, ⟨Port.toULong s.port.atomicIncReturn, p.seqnum, id⟩, ?_,
      hpid.symm⟩
    exact List.mem_append_left _ (List.mem_append_right _ (List.mem_singleton_self _))
  | _ => cases hu

/-- The invariant of the runs in which no URB is lost. -/
structure ClearInv (s : UnlinkingPort) : Prop where
  port : PortInv s.port
  shut : ShutInv s.port
  retires : ∀ u ∈ s.pending, s.port.Retires u
  done : s.port.shut = .done → s.pending = []

namespace ClearInv

variable {s' : UnlinkingPort}

/-- When the cleanup ends, nobody holds a pending URB any more. -/
theorem not_retires_of_done {port : Port} {u : ℕ} (hrx : port.rx = .stopped)
    (hshut : port.shut = .done) (htx : port.unlinkTx = []) (hun : port.unlinkRx = [])
    (hcallers : u ∉ port.callers) : ¬ port.Retires u := by
  rintro (hu | ⟨p, -, -, un, hmem, -⟩)
  · simp [Port.retiring, hrx, hshut, RxPc.held, ShutPc.held, hcallers] at hu
  · simp [Port.unlinks, hrx, htx, hun, RxPc.unlinks] at hmem

theorem unlinkCleanupLoop_callers (us : List VhciUnlink) (t : Port) :
    (Port.unlinkCleanupLoop us t).callers = t.callers := by
  refine Port.unlinkCleanupLoop_cases (motive := fun t' => t'.callers = t.callers) rfl
    (fun seqnum urb s₁ rest hp => ?_) us
  obtain ⟨l₁, p, l₂, -, -, rfl⟩ := Port.pickupUrbAndFreePriv_eq_some hp
  rfl

theorem unlinkCleanupLoop_unlinkRx (us : List VhciUnlink) (t : Port) :
    (Port.unlinkCleanupLoop us t).shut = .done → (Port.unlinkCleanupLoop us t).unlinkRx = [] := by
  refine Port.unlinkCleanupLoop_cases (motive := fun t' => t'.shut = .done → t'.unlinkRx = [])
    (fun _ => rfl) (fun seqnum urb s₁ rest hp hdone => ?_) us
  cases hdone

/-- Only the cleanup comes to the end of `vhci_shutdown_connection`. -/
theorem cleanup_of_done {t t' : Port} {a : Act} (hs : t.step a = some t') (hdone : t'.shut = .done)
    (hne : t.shut ≠ .done) :
    a = .cleanup ∧ t'.unlinkRx = [] ∧ t'.callers = t.callers := by
  have hsend : ∀ p : Port, ∀ urb alloc, (p.vhciTxUrb urb alloc).shut = p.shut := by
    intro p urb alloc
    rw [Port.vhciTxUrb]
    split
    · rfl
    split
    · rfl
    · rfl
  cases Port.moves_of_step hs with
  | @enqueue urb hout linkRet alloc =>
    refine absurd ?_ hne
    rw [← hdone]
    exact (Port.vhciUrbEnqueue_cases (motive := fun p => p.shut = t.shut) rfl rfl rfl
      (hsend _ urb alloc) (hsend _ urb alloc) linkRet).symm
  | retSubmit hrx hpick | pickup hrx hpick =>
    obtain ⟨l₁, p, l₂, -, rfl, rfl⟩ := Port.pickupUrbAndFreePriv_eq_some hpick
    exact absurd hdone hne
  | retUnlink hrx hun =>
    obtain ⟨l₁, l₂, -, rfl⟩ := Port.dequeuePendingUnlink_eq_some hun
    exact absurd hdone hne
  | shutdown | releaseSocket | cleanupGiveback => cases hdone
  | cleanup | cleanupOn =>
    exact ⟨rfl, unlinkCleanupLoop_unlinkRx _ _ hdone, unlinkCleanupLoop_callers _ _⟩
  | _ => exact absurd hdone hne

theorem step (h : ClearInv s) {a : Act} (hok : s.Clears a) (hs : s.step a = some s') :
    ClearInv s' := by
  obtain ⟨port, hport, rfl⟩ := Option.map_eq_some_iff.mp hs
  have hshut := h.shut.step hport
  have hretires : ∀ u ∈ (s.pending ++ newPending s.port a).filter (outstanding port.core),
      port.Retires u := by
    intro u hu
    obtain ⟨hu, hout⟩ := List.mem_filter.mp hu
    obtain hu | hu := List.mem_append.mp hu
    · exact retires_step h.port h.shut hok hport hu (h.retires u hu) hout
    · exact retires_newPending h.port hok hport hu hout
  refine ⟨h.port.step hport, hshut, hretires, fun hdone => ?_⟩
  have hdone : port.shut = .done := hdone
  by_cases hbefore : s.port.shut = .done
  · have hsocket : s.port.tcpSocket = false := h.shut.socket (by rw [hbefore]; rfl)
    have hnew : newPending s.port a = [] := by
      cases a with
      | dequeue urb checkRet alloc => simp [newPending, hsocket]
      | _ => rfl
    simp [h.done hbefore, hnew]
  · obtain ⟨rfl, hun, hcallers⟩ := cleanup_of_done hport hdone hbefore
    refine List.eq_nil_iff_forall_not_mem.mpr fun u hu => ?_
    have hpending : u ∈ s.pending := by
      simpa [newPending] using (List.mem_filter.mp hu).1
    refine not_retires_of_done (hshut.rx (by rw [hdone]; rfl)) hdone
      (hshut.unlinkTx (by rw [hdone]; rfl)) hun ?_ (hretires u hu)
    rw [hcallers]
    exact fun hmem => hok.2.2 u hmem hpending

theorem of_reachableWhere {seqnum : BitVec 32} {udev : Option ℕ} {ok : UnlinkingPort → Act → Prop}
    (himp : ∀ s a, ok s a → s.Clears a) (h : (unlinkingPort seqnum udev).ReachableWhere ok s) :
    ClearInv s :=
  h.invariant ⟨.of_reachable .init, .of_reachable .init, fun _ hu => absurd hu List.not_mem_nil,
      fun _ => rfl⟩
    fun s a _ hs hok hstep => hs.step (himp s a hok) hstep

end ClearInv

/-- **When `vhci_shutdown_connection` has returned, every URB for which `vhci_urb_dequeue` had
returned 0 on the live connection has been given back**, in every run that loses no URB. -/
theorem unlinked_given_back {seqnum : BitVec 32} {udev : Option ℕ}
    (h : (unlinkingPort seqnum udev).ReachableWhere (fun s a => s.ChecksOnce a ∧ s.Clears a) s)
    (hdone : s.port.shut = .done) : s.pending = [] :=
  (ClearInv.of_reachableWhere (fun _ _ hok => hok.2) h).done hdone

/-- A request that has been sent and an unlink that has been sent; the server answers neither. -/
def unansweredUnlink : List Act :=
  [.enqueue ⟨7, 1, einprogress, 2, false, none⟩ 0 true, .txDequeueSubmit, .txSendSubmit true,
    .dequeue 7 0 true, .txDequeueSubmit, .txDequeueUnlink, .txSendUnlink true, .txDequeueUnlink,
    .shutdown, .rxStop, .txWake, .releaseSocket, .cleanup, .cleanupGiveback, .cleanup]

theorem unlinked_given_back_unanswered :
    ∃ s, (unlinkingPort 0 (some 1)).runWhere (fun s a => s.ChecksOnce a ∧ s.Clears a)
        (unlinkingPort 0 (some 1)).init unansweredUnlink = some s ∧
      (s.port.shut = .done → s.pending = []) :=
  Machine.exists_runWhere (by decide) fun _ h => unlinked_given_back h

/-- The transmit thread is stopped before it has taken the unlink off `unlink_tx`. -/
def unsentUnlink : List Act :=
  [.enqueue ⟨7, 1, einprogress, 2, false, none⟩ 0 true, .txDequeueSubmit, .txSendSubmit true,
    .txDequeueSubmit, .txDequeueUnlink, .dequeue 7 0 true, .shutdown, .txWake, .rxStop,
    .releaseSocket, .cleanup]

/-- `vhci_device_unlink_cleanup` frees the unlink on `unlink_tx`, and nobody gives the URB back. -/
theorem unlinked_not_given_back :
    ¬ ∀ s, (unlinkingPort 0 (some 1)).ReachableWhere ChecksOnce s → s.port.shut = .done →
      s.pending = [] := by
  intro h
  obtain ⟨s, hs, hp⟩ : ∃ s, (unlinkingPort 0 (some 1)).ReachableWhere ChecksOnce s ∧
      decide (s.port.shut = .done ∧ s.pending ≠ []) = true :=
    Machine.exists_reachableWhere_of_any unsentUnlink
      (fun s : UnlinkingPort => s.port.shut = .done ∧ s.pending ≠ []) (by decide)
  obtain ⟨hdone, hpending⟩ := of_decide_eq_true hp
  exact hpending (h s hs hdone)

end UnlinkingPort

end Usbip.Vhci
