import Usbip.Vhci.Port
import Mathlib.Data.Fintype.Basic
import Mathlib.Tactic.Common

/-!
# Who owns a URB after `vhci_urb_enqueue`

The USB core and a host controller driver agree on who has a URB by the value that enqueue
returns: with an error the URB stays with the core, with zero the driver has it until it gives it
back. `Contract` says what that means for the endpoint and the queues of the ports.

`vhci_urb_enqueue` meets it on six of its eight ways out only under conditions
(`enqueue_contract_iff`). Its error labels give the URB back and return the error as well; and
`vhci_tx_urb` returns nothing, so a URB for which there is no memory, or whose device is not the
one that the port knows, is accepted and left on no queue. The early return for a port without a
connection, by contrast, leaves the URB alone.

Here the controller has all its ports, and URBs are linked to their endpoints. On one port
`Hcd.vhciUrbEnqueue` is what `Port.vhciUrbEnqueue` says (`onPort_vhciUrbEnqueue`).
-/

namespace Usbip.Vhci

/-- `VHCI_NPORTS` -/
abbrev vhciNports : ℕ := 8

/-- What an enqueue reads and changes of a `struct vhci_device`. -/
structure Vdev where
  status : VdevStatus
  udev : Option ℕ
  event : Bool
  privTx : List VhciPriv
  privRx : List VhciPriv
  deriving DecidableEq

/-- `the_controller`. `linked` are the URBs that `usb_hcd_link_urb_to_ep` has linked to their
endpoints, `givenBack` are the calls of `usb_hcd_giveback_urb`. -/
structure Hcd where
  seqnum : BitVec 32
  nextId : ℕ
  vdev : Fin vhciNports → Vdev
  hcpriv : ℕ → Option ℕ
  urbStatus : ℕ → ℤ
  linked : List ℕ
  givenBack : List ℕ

/-- `bRequest` of a control URB with a setup packet. -/
def Urb.request (urb : Urb) : Option ℕ := if urb.control then urb.setup.map Prod.fst else none

namespace Hcd

/-- `get_vdev` -/
def getVdev (s : Hcd) (dev : ℕ) : Option (Fin vhciNports) :=
  (List.finRange vhciNports).find? fun i => (s.vdev i).udev == some dev

def setVdev (s : Hcd) (i : Fin vhciNports) (v : Vdev) : Hcd :=
  { s with vdev := Function.update s.vdev i v }

/-- The part of `vhci_tx_urb` that holds `priv_lock`. -/
def addPriv (s : Hcd) (i : Fin vhciNports) (urb : ℕ) : Hcd :=
  { s.setVdev i { s.vdev i with
      privTx := (s.vdev i).privTx ++ [⟨s.nextId, Port.toULong (s.seqnum + 1), urb⟩] } with
    seqnum := s.seqnum + 1
    nextId := s.nextId + 1
    hcpriv := Function.update s.hcpriv urb (some s.nextId) }

/-- `vhci_tx_urb` -/
def vhciTxUrb (s : Hcd) (urb : Urb) (alloc : Bool) : Hcd :=
  match s.getVdev urb.dev with
  | none => s
  | some i => if !alloc then s.setVdev i { s.vdev i with event := true } else s.addPriv i urb.id

/-- The core hands the URB over. -/
def enter (s : Hcd) (urb : Urb) : Hcd :=
  { s with urbStatus := Function.update s.urbStatus urb.id urb.status }

/-- `usb_hcd_link_urb_to_ep`, when it succeeds. -/
def link (s : Hcd) (urb : ℕ) : Hcd := { s with linked := s.linked ++ [urb] }

/-- The label `no_need_unlink`. -/
def noNeedUnlink (s : Hcd) (urb : ℕ) : Hcd := { s with givenBack := s.givenBack ++ [urb] }

/-- The label `no_need_xmit`. -/
def noNeedXmit (s : Hcd) (urb : ℕ) : Hcd := { s with linked := s.linked.erase urb }.noNeedUnlink urb

/-- `vdev->udev = usb_get_dev(urb->dev)` -/
def setUdev (s : Hcd) (port : Fin vhciNports) (urb : Urb) : Hcd :=
  s.setVdev port { s.vdev port with udev := some urb.dev }

/-- SET_ADDRESS is answered by the controller itself. -/
def setAddress (s : Hcd) (port : Fin vhciNports) (urb : Urb) : Hcd :=
  { s.setVdev port { s.vdev port with udev := some urb.dev, status := .used } with
    urbStatus := Function.update s.urbStatus urb.id 0 }

/-- `vhci_urb_enqueue` for a URB of the device on `port`: the returned value and the controller
afterwards. -/
def vhciUrbEnqueue (s : Hcd) (port : Fin vhciNports) (urb : Urb) (linkRet : ℤ) (alloc : Bool) :
    ℤ × Hcd :=
  if urb.status ≠ einprogress then (urb.status, s)
  else if (s.vdev port).status = .null ∨ (s.vdev port).status = .error then (enodev, s)
  else if linkRet ≠ 0 then (linkRet, (s.enter urb).noNeedUnlink urb.id)
  else if urb.devnum = 0 then
    match urb.control, urb.setup with
    | true, some (5, _) =>
      (0, (((s.enter urb).link urb.id).setAddress port urb).noNeedXmit urb.id)
    | true, some (6, _) =>
      (0, (((s.enter urb).link urb.id).setUdev port urb).vhciTxUrb urb alloc)
    | _, _ => (einval, ((s.enter urb).link urb.id).noNeedXmit urb.id)
  else (0, ((s.enter urb).link urb.id).vhciTxUrb urb alloc)

/-! ### The contract -/

/-- The entries of a queue that refer to the URB. -/
def refs (l : List VhciPriv) (urb : ℕ) : ℕ := (l.map (·.urb)).count urb

/-- The controller does not know the URB. -/
def Idle (s : Hcd) (urb : ℕ) : Prop :=
  urb ∉ s.linked ∧ ∀ i, refs (s.vdev i).privTx urb = 0 ∧ refs (s.vdev i).privRx urb = 0

/-- The URB is linked to its endpoint, and exactly one `vhci_priv` refers to it, on the `priv_tx`
of `port`. -/
def Pending (s : Hcd) (port : Fin vhciNports) (urb : ℕ) : Prop :=
  urb ∈ s.linked ∧ ∀ i, refs (s.vdev i).privTx urb = (if i = port then 1 else 0) ∧
    refs (s.vdev i).privRx urb = 0

/-- What the core relies on when the call has returned `ret`. -/
def Contract (s s' : Hcd) (port : Fin vhciNports) (urb : ℕ) (ret : ℤ) : Prop :=
  ret ≠ 0 ∧ s'.givenBack.count urb = s.givenBack.count urb ∧ s'.Idle urb ∨
  ret = 0 ∧ (s'.givenBack.count urb = s.givenBack.count urb + 1 ∧ s'.Idle urb ∨
    s'.givenBack.count urb = s.givenBack.count urb ∧ s'.Pending port urb)

/-- `vhci_tx_urb` has memory, and finds no other port before this one. -/
def Sends (s : Hcd) (port : Fin vhciNports) (urb : Urb) (alloc : Bool) : Prop :=
  alloc = true ∧ ((s.vdev port).udev = some urb.dev ∨ urb.devnum = 0) ∧
    ∀ i < port, (s.vdev i).udev ≠ some urb.dev

/-- The calls that meet the contract. A URB that is taken over is linked to its endpoint, is no
invalid request to a device without an address, and is either answered at once (SET_ADDRESS) or
sent. -/
def Accepts (s : Hcd) (port : Fin vhciNports) (urb : Urb) (linkRet : ℤ) (alloc : Bool) : Prop :=
  if urb.status ≠ einprogress then urb.status ≠ 0
  else (s.vdev port).status = .null ∨ (s.vdev port).status = .error ∨
    linkRet = 0 ∧ (urb.devnum = 0 ∧ urb.request = some 5 ∨
      (urb.devnum = 0 → urb.request = some 6) ∧ s.Sends port urb alloc)

instance (s : Hcd) (u : ℕ) : Decidable (s.Idle u) := by
  unfold Idle
  infer_instance

instance (s : Hcd) (port : Fin vhciNports) (u : ℕ) : Decidable (s.Pending port u) := by
  unfold Pending
  infer_instance

instance (s s' : Hcd) (port : Fin vhciNports) (u : ℕ) (ret : ℤ) :
    Decidable (Contract s s' port u ret) := by
  unfold Contract
  infer_instance

instance (s : Hcd) (port : Fin vhciNports) (urb : Urb) (linkRet : ℤ) (alloc : Bool) :
    Decidable (s.Accepts port urb linkRet alloc) := by
  unfold Accepts Sends
  infer_instance

/-! ### What each way out leaves -/

variable {s : Hcd} {port : Fin vhciNports} {urb : Urb} {u : ℕ} {alloc : Bool}

/-- `get_vdev` finds the first port that knows the device. -/
theorem getVdev_eq_some_iff {dev : ℕ} : s.getVdev dev = some port ↔
    (s.vdev port).udev = some dev ∧ ∀ i < port, (s.vdev i).udev ≠ some dev := by
  rw [getVdev, List.find?_eq_some_iff_getElem]
  constructor
  · rintro ⟨hp, i, hi, rfl, hlt⟩
    refine ⟨by simpa using hp, fun j hj => ?_⟩
    have := hlt j (by simpa [Fin.lt_def] using hj)
    simpa using this
  · rintro ⟨hp, hlt⟩
    refine ⟨by simpa using hp, port, by simp, by simp, fun j hj => ?_⟩
    simpa using hlt ⟨j, hj.trans port.isLt⟩ (Fin.lt_def.mpr hj)

/-- Neither given back nor on `priv_tx`, the URB is lost. -/
theorem not_contract_of_refs {s' : Hcd} (hback : s'.givenBack = s.givenBack)
    (hrefs : refs (s'.vdev port).privTx u = 0) :
    ¬ Contract s s' port u 0 := by
  rintro (⟨hret, -⟩ | ⟨-, ⟨hcount, -⟩ | ⟨-, hpend⟩⟩)
  · exact hret rfl
  · rw [hback] at hcount
    omega
  · have := (hpend.2 port).1
    rw [hrefs, if_pos rfl] at this
    exact absurd this (by decide)

/-- A URB that has been given back must not be returned with an error. -/
theorem not_contract_of_givenBack {s' : Hcd} {ret : ℤ} (hret : ret ≠ 0)
    (hback : s'.givenBack = s.givenBack ++ [u]) : ¬ Contract s s' port u ret := by
  rintro (⟨-, hcount, -⟩ | ⟨h0, -⟩)
  · rw [hback, List.count_append, List.count_singleton_self] at hcount
    omega
  · exact hret h0

theorem contract_refused (h : s.Idle u) {ret : ℤ} (hret : ret ≠ 0) : Contract s s port u ret :=
  .inl ⟨hret, rfl, h⟩

/-- SET_ADDRESS -/
theorem contract_setAddress (h : s.Idle urb.id) :
    Contract s ((((s.enter urb).link urb.id).setAddress port urb).noNeedXmit urb.id) port urb.id
      0 := by
  refine .inr ⟨rfl, .inl ⟨?_, ?_, fun i => ?_⟩⟩
  · change (s.givenBack ++ [urb.id]).count urb.id = _
    rw [List.count_append, List.count_singleton_self]
  · change urb.id ∉ (s.linked ++ [urb.id]).erase urb.id
    rw [List.erase_append_right _ h.1, List.erase_cons_head, List.append_nil]
    exact h.1
  · change refs (Function.update s.vdev port _ i).privTx urb.id = 0 ∧
      refs (Function.update s.vdev port _ i).privRx urb.id = 0
    by_cases hi : i = port
    · subst hi
      rw [Function.update_self]
      exact h.2 i
    · rw [Function.update_of_ne hi]
      exact h.2 i

/-- What `vhci_tx_urb` makes of a URB that is linked to its endpoint. -/
theorem contract_vhciTxUrb {s₁ : Hcd} (hback : s₁.givenBack = s.givenBack) (hlinked : u ∈ s₁.linked)
    (hrefs : ∀ i, refs (s₁.vdev i).privTx u = 0 ∧ refs (s₁.vdev i).privRx u = 0)
    (hu : u = urb.id) : Contract s (s₁.vhciTxUrb urb alloc) port u 0 ↔
      alloc = true ∧ s₁.getVdev urb.dev = some port := by
  subst hu
  unfold vhciTxUrb
  split
  next hnone =>
    rw [hnone]
    exact iff_of_false (not_contract_of_refs hback (hrefs port).1) (by simp)
  next i hi =>
    rw [hi, Option.some_inj]
    cases alloc with
    | false =>
      refine iff_of_false (not_contract_of_refs hback ?_) (by simp)
      change refs (Function.update s₁.vdev i _ port).privTx _ = 0
      by_cases hp : port = i
      · subst hp
        rw [Function.update_self]
        exact (hrefs port).1
      · rw [Function.update_of_ne hp]
        exact (hrefs port).1
    | true =>
      have hvdev : ∀ j, refs ((s₁.addPriv i urb.id).vdev j).privTx urb.id =
            (if j = i then 1 else 0) ∧ refs ((s₁.addPriv i urb.id).vdev j).privRx urb.id = 0 := by
        intro j
        change refs (Function.update s₁.vdev i _ j).privTx _ = _ ∧
          refs (Function.update s₁.vdev i _ j).privRx _ = 0
        by_cases hj : j = i
        · subst hj
          have hnew := (hrefs j).1
          unfold refs at hnew
          rw [Function.update_self, if_pos rfl]
          refine ⟨?_, (hrefs j).2⟩
          simp [refs, hnew]
        · rw [Function.update_of_ne hj, if_neg hj]
          exact hrefs j
      by_cases hp : i = port
      · subst hp
        exact iff_of_true (.inr ⟨rfl, .inr ⟨by rw [← hback]; rfl, hlinked, hvdev⟩⟩) ⟨rfl, rfl⟩
      · refine iff_of_false (not_contract_of_refs hback ?_) (by simp [hp])
        have := (hvdev port).1
        rwa [if_neg (Ne.symm hp)] at this

/-- A URB for the address that its device has. -/
theorem contract_out (h : s.Idle urb.id) : Contract s
    (((s.enter urb).link urb.id).vhciTxUrb urb alloc) port urb.id 0 ↔
      alloc = true ∧ (s.vdev port).udev = some urb.dev ∧
        ∀ i < port, (s.vdev i).udev ≠ some urb.dev := by
  have hback : ((s.enter urb).link urb.id).givenBack = s.givenBack := rfl
  have hlinked : urb.id ∈ ((s.enter urb).link urb.id).linked :=
    List.mem_append_right _ (List.mem_singleton_self _)
  refine (contract_vhciTxUrb hback hlinked h.2 rfl).trans ?_
  rw [getVdev_eq_some_iff]
  exact Iff.rfl

/-- GET_DESCRIPTOR to a device without an address, after which the port knows the device. -/
theorem contract_getDescriptor (h : s.Idle urb.id) : Contract s
    ((((s.enter urb).link urb.id).setUdev port urb).vhciTxUrb urb alloc) port urb.id 0 ↔
      alloc = true ∧ ∀ i < port, (s.vdev i).udev ≠ some urb.dev := by
  have hvdev : ∀ i, ((((s.enter urb).link urb.id).setUdev port urb).vdev i) =
      if i = port then { s.vdev port with udev := some urb.dev } else s.vdev i := fun i =>
    Function.update_apply ..
  have hback : (((s.enter urb).link urb.id).setUdev port urb).givenBack = s.givenBack := rfl
  have hlinked : urb.id ∈ (((s.enter urb).link urb.id).setUdev port urb).linked :=
    List.mem_append_right _ (List.mem_singleton_self _)
  refine (contract_vhciTxUrb hback hlinked (fun i => ?_) rfl).trans ?_
  · rw [hvdev i]
    split
    next hi => exact hi ▸ h.2 i
    next hi => exact h.2 i
  · rw [getVdev_eq_some_iff, hvdev port, if_pos rfl]
    refine and_congr_right fun _ => ⟨fun hfind i hi => ?_, fun hfind => ⟨rfl, fun i hi => ?_⟩⟩
    · have := hfind.2 i hi
      rwa [hvdev i, if_neg hi.ne] at this
    · rw [hvdev i, if_neg hi.ne]
      exact hfind i hi

/-- **`vhci_urb_enqueue` keeps the contract exactly in the calls that it accepts.** -/
theorem enqueue_contract_iff (s : Hcd) (port : Fin vhciNports) (urb : Urb) (linkRet : ℤ)
    (alloc : Bool) (h : s.Idle urb.id) :
    Contract s (s.vhciUrbEnqueue port urb linkRet alloc).2 port urb.id
        (s.vhciUrbEnqueue port urb linkRet alloc).1 ↔
      s.Accepts port urb linkRet alloc := by
  unfold vhciUrbEnqueue Accepts
  by_cases hstatus : urb.status ≠ einprogress
  · rw [if_pos hstatus, if_pos hstatus]
    refine ⟨?_, fun hne => contract_refused h hne⟩
    rintro (⟨hret, -⟩ | ⟨hret, hlost⟩)
    · exact hret
    · -- a URB whose status is zero is left alone, and taken for accepted
      have hno : ¬ Contract s s port urb.id 0 := not_contract_of_refs rfl (h.2 port).1
      exact absurd (.inr ⟨rfl, hlost⟩) hno
  rw [if_neg hstatus, if_neg hstatus]
  by_cases hdead : (s.vdev port).status = .null ∨ (s.vdev port).status = .error
  · rw [if_pos hdead]
    exact iff_of_true (contract_refused h (by decide : enodev ≠ 0)) (hdead.imp_right .inl)
  rw [if_neg hdead]
  obtain ⟨hnull, herror⟩ := not_or.mp hdead
  by_cases hlink : linkRet ≠ 0
  · rw [if_pos hlink]
    exact iff_of_false (not_contract_of_givenBack hlink rfl) (by simp [hnull, herror, hlink])
  rw [if_neg hlink]
  simp only [hnull, herror, not_not.mp hlink, false_or, true_and]
  by_cases haddr : urb.devnum = 0
  · rw [if_pos haddr]
    simp only [haddr, true_and, true_imp_iff, Sends, or_true]
    split
    next x hcontrol hsetup =>
      have hreq : urb.request = some 5 := by simp [Urb.request, hcontrol, hsetup]
      exact iff_of_true (contract_setAddress h) (.inl hreq)
    next x hcontrol hsetup =>
      have hreq : urb.request = some 6 := by simp [Urb.request, hcontrol, hsetup]
      rw [hreq]
      simpa using contract_getDescriptor h
    next hset hget =>
      refine iff_of_false (not_contract_of_givenBack (by decide : einval ≠ 0) rfl) ?_
      have hreq : ∀ n, urb.request = some n → n ≠ 5 ∧ n ≠ 6 := by
        intro n hn
        obtain ⟨hcontrol, hmap⟩ := Option.ite_none_right_eq_some.mp hn
        obtain ⟨⟨r, v⟩, hsetup, rfl⟩ := Option.map_eq_some_iff.mp hmap
        exact ⟨fun h => hset v hcontrol (by rw [hsetup, ← h]),
          fun h => hget v hcontrol (by rw [hsetup, ← h])⟩
      rintro (h | ⟨h, -⟩)
      · exact (hreq 5 h).1 rfl
      · exact (hreq 6 h).2 rfl
  · rw [if_neg haddr]
    simp only [haddr, false_and, false_imp_iff, true_and, false_or, Sends, or_false]
    exact contract_out h

/-- A controller without a request. Every port has its connection, and none knows a device. -/
def connected : Hcd where
  seqnum := 0
  nextId := 0
  vdev := fun _ => ⟨.notAssigned, none, false, [], []⟩
  hcpriv := fun _ => none
  urbStatus := fun _ => 0
  linked := []
  givenBack := []

/-- A GET_DESCRIPTOR to a new device on port 3 is accepted. -/
theorem enqueue_contract_getDescriptor :
    connected.Idle 7 ∧
      Contract connected
        (connected.vhciUrbEnqueue 3 ⟨7, 1, einprogress, 0, true, some (6, 256)⟩ 0 true).2 3 7
        (connected.vhciUrbEnqueue 3 ⟨7, 1, einprogress, 0, true, some (6, 256)⟩ 0 true).1 :=
  ⟨by decide, (enqueue_contract_iff connected 3 ⟨7, 1, einprogress, 0, true, some (6, 256)⟩ 0 true
    (by decide)).mpr (by decide)⟩

/-- The endpoint refuses the URB (`-EHOSTUNREACH`): it is given back, and the core has it too. -/
theorem enqueue_breaks_contract :
    ¬ ∀ (s : Hcd) (port : Fin vhciNports) (urb : Urb) (linkRet : ℤ) (alloc : Bool),
      s.Idle urb.id → Contract s (s.vhciUrbEnqueue port urb linkRet alloc).2 port urb.id
        (s.vhciUrbEnqueue port urb linkRet alloc).1 := by
  intro h
  have := h connected 3 ⟨7, 1, einprogress, 0, true, some (6, 256)⟩ (-113) true (by decide)
  exact absurd this (by decide)

/-! ### One port of the controller -/

/-- What `Port` has of the port `i`, the rest being taken from `p`. -/
def onPort (s : Hcd) (i : Fin vhciNports) (p : Port) : Port :=
  { p with
    seqnum := s.seqnum
    nextId := s.nextId
    status := (s.vdev i).status
    udev := (s.vdev i).udev
    event := (s.vdev i).event
    privTx := (s.vdev i).privTx
    privRx := (s.vdev i).privRx
    hcpriv := s.hcpriv
    urbStatus := s.urbStatus
    callers := p.callers ++ s.givenBack }

theorem getVdev_of_unique (h : ∀ j ≠ port, (s.vdev j).udev ≠ some urb.dev) :
    s.getVdev urb.dev = if (s.vdev port).udev = some urb.dev then some port else none := by
  split
  next hudev => exact getVdev_eq_some_iff.mpr ⟨hudev, fun i hi => h i hi.ne⟩
  next hudev =>
    rw [getVdev, List.find?_eq_none]
    intro i _
    by_cases hi : i = port
    · subst hi
      simpa using hudev
    · simpa using h i hi

theorem onPort_setVdev (v : Vdev) (p : Port) : (s.setVdev port v).onPort port p =
    { s.onPort port p with
      status := v.status, udev := v.udev, event := v.event, privTx := v.privTx,
      privRx := v.privRx } := by
  have hv : (s.setVdev port v).vdev port = v := Function.update_self ..
  simp only [onPort, hv]
  rfl

theorem onPort_noNeedUnlink (p : Port) :
    (s.noNeedUnlink u).onPort port p = (s.onPort port p).noNeedXmit u := by
  simp only [onPort, noNeedUnlink, Port.noNeedXmit, List.append_assoc]

theorem onPort_noNeedXmit (p : Port) :
    (s.noNeedXmit u).onPort port p = (s.onPort port p).noNeedXmit u :=
  onPort_noNeedUnlink p

theorem onPort_setUdev (p : Port) :
    (s.setUdev port urb).onPort port p = (s.onPort port p).setUdev urb :=
  onPort_setVdev _ p

theorem onPort_setAddress (p : Port) :
    (s.setAddress port urb).onPort port p = (s.onPort port p).setAddress urb :=
  congrArg (Port.setStatus · urb.id 0) (onPort_setVdev (s := s) _ p)

theorem onPort_vhciTxUrb (h : ∀ j ≠ port, (s.vdev j).udev ≠ some urb.dev) (p : Port) :
    (s.vhciTxUrb urb alloc).onPort port p = (s.onPort port p).vhciTxUrb urb alloc := by
  rw [vhciTxUrb, getVdev_of_unique h, Port.vhciTxUrb]
  by_cases hudev : (s.vdev port).udev = some urb.dev
  · rw [if_pos hudev, if_neg (show ¬ (s.onPort port p).udev ≠ some urb.dev from not_not.mpr hudev)]
    cases alloc with
    | false => exact onPort_setVdev _ p
    | true =>
      exact congrArg (fun q : Port => { q with
        seqnum := s.seqnum + 1
        nextId := s.nextId + 1
        hcpriv := Function.update s.hcpriv urb.id (some s.nextId) }) (onPort_setVdev (s := s) _ p)
  · rw [if_neg hudev, if_pos (show (s.onPort port p).udev ≠ some urb.dev from hudev)]

/-- **As long as no other port knows the URB's device, the controller does with it what the
port alone does.** -/
theorem onPort_vhciUrbEnqueue (h : ∀ j ≠ port, (s.vdev j).udev ≠ some urb.dev) (linkRet : ℤ)
    (p : Port) : ∃ core, (s.onPort port p).vhciUrbEnqueue urb linkRet alloc =
      ((s.vhciUrbEnqueue port urb linkRet alloc).1,
        (s.vhciUrbEnqueue port urb linkRet alloc).2.onPort port { p with core := core }) := by
  by_cases hstatus : urb.status ≠ einprogress
  · refine ⟨p.core, ?_⟩
    rw [Port.vhciUrbEnqueue, vhciUrbEnqueue, if_pos hstatus, if_pos hstatus]
  by_cases hdead : (s.vdev port).status = .null ∨ (s.vdev port).status = .error
  · refine ⟨p.core, ?_⟩
    rw [Port.vhciUrbEnqueue, vhciUrbEnqueue, if_neg hstatus, if_neg hstatus, if_pos hdead]
    exact if_pos hdead
  refine ⟨p.core ++ [.enqueue urb.id], ?_⟩
  have haccept : ((s.enter urb).link urb.id).onPort port
      { p with core := p.core ++ [.enqueue urb.id] } = (s.onPort port p).accept urb := rfl
  have hudev : ∀ j ≠ port, ((((s.enter urb).link urb.id).setUdev port urb).vdev j).udev ≠
      some urb.dev := by
    intro j hj
    change ((Function.update s.vdev port _) j).udev ≠ _
    rw [Function.update_of_ne hj]
    exact h j hj
  rw [Port.vhciUrbEnqueue, vhciUrbEnqueue, if_neg hstatus, if_neg hstatus, if_neg hdead,
    if_neg (show ¬ ((s.onPort port p).status = .null ∨ (s.onPort port p).status = .error) from
      hdead)]
  by_cases hlink : linkRet ≠ 0
  · rw [if_pos hlink, if_pos hlink, ← haccept]
    exact congrArg _ (onPort_noNeedUnlink _).symm
  rw [if_neg hlink, if_neg hlink]
  split
  · split
    next v hcontrol hsetup =>
      simp only [hcontrol, hsetup]
      rw [onPort_noNeedXmit, onPort_setAddress, haccept]
    next v hcontrol hsetup =>
      simp only [hcontrol, hsetup]
      rw [onPort_vhciTxUrb hudev, onPort_setUdev, haccept]
    next hset hget =>
      simp only
      rw [onPort_noNeedXmit, haccept]
  · rw [onPort_vhciTxUrb (s := (s.enter urb).link urb.id) h, haccept]

end Hcd

end Usbip.Vhci
