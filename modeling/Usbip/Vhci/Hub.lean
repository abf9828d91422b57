import Usbip.Vhci.Enqueue

/-!
# The root hub of the virtual host controller

`vhci_hub_control` of `vhci_hcd.c`, by which the hub driver of the core sees and steers the ports.
The function takes the port from the low byte of `wIndex`. It looks at the whole of `wIndex` to
print a message, and for GetPortStatus to set its result, but it goes on in any case.

`HubRun` carries the controller together with what has been touched so far: the elements of
`port_status` and `vdev`, and the amounts of the shifts `1 << wValue`. An index outside the arrays
is kept as it is, and the words there are further values of the same functions. In the code they
belong to other fields, so that a run says nothing about the time after such an access.

Each request touches one port only (`Local`), and leaves the devices alone.
-/

namespace Usbip.Vhci

/-! ### Constants of the core -/

/-- `enum usb_device_speed` -/
inductive UsbDeviceSpeed
  | unknown | low | full | high | wireless | super
  deriving DecidableEq, Repr

def usbPortFeatSuspend : ℕ := 2
def usbPortFeatReset : ℕ := 4
def usbPortFeatPower : ℕ := 8
def usbPortFeatCConnection : ℕ := 16
def usbPortFeatCSuspend : ℕ := 18
def usbPortFeatCReset : ℕ := 20

def usbPortStatConnection : BitVec 32 := 0x0001
def usbPortStatEnable : BitVec 32 := 0x0002
def usbPortStatSuspend : BitVec 32 := 0x0004
def usbPortStatLowSpeed : BitVec 32 := 0x0200
def usbPortStatHighSpeed : BitVec 32 := 0x0400

/-- `-EPIPE` -/
def epipe : ℤ := -32

/-- `-ETIMEDOUT` -/
def etimedout : ℤ := -110

/-- The values of `typeReq` that `vhci_hub_control` knows. -/
inductive HubRequest
  | clearHubFeature | clearPortFeature | getHubDescriptor | getHubStatus | getPortStatus
  | setHubFeature | setPortFeature | other
  deriving DecidableEq, Repr

/-- `bmRequestType` and `bRequest` in one word. -/
def HubRequest.ofTypeReq (typeReq : BitVec 16) : HubRequest :=
  if typeReq = 0x2001 then .clearHubFeature
  else if typeReq = 0x2301 then .clearPortFeature
  else if typeReq = 0xa006 then .getHubDescriptor
  else if typeReq = 0xa000 then .getHubStatus
  else if typeReq = 0xa300 then .getPortStatus
  else if typeReq = 0x2003 then .setHubFeature
  else if typeReq = 0x2303 then .setPortFeature
  else .other

/-- The requests that name a port. -/
def HubRequest.IsPort (r : HubRequest) : Prop :=
  r = .clearPortFeature ∨ r = .getPortStatus ∨ r = .setPortFeature

instance (r : HubRequest) : Decidable r.IsPort := by
  unfold HubRequest.IsPort
  infer_instance

/-- `time_after` -/
def timeAfter (a b : BitVec 64) : Bool := (b - a).msb

/-- `1 << n`. -/
def bit (n : ℕ) : BitVec 32 := 1 <<< n

/-! ### The state -/

/-- The fields of `struct vhci_device` that concern the root hub. -/
structure HubVdev where
  speed : UsbDeviceSpeed
  status : VdevStatus
  deriving DecidableEq, Repr

/-- The fields of `struct vhci_hcd` that concern the root hub. -/
structure Hub where
  portStatus : ℤ → BitVec 32
  vdev : ℤ → HubVdev
  resuming : Bool
  reTimeout : BitVec 64

/-- What `vhci_hub_control` finds outside the controller: `HCD_HW_ACCESSIBLE`,
`usbip_dbg_flag_vhci_rh`, the values of `jiffies` in the order in which a call reads it, and the
length of a millisecond. -/
structure HubEnv where
  accessible : Bool
  dbg : Bool
  jiffies : BitVec 64
  jiffies' : BitVec 64
  msecsToJiffies : ℕ → BitVec 64

/-- An element of an array that is read or written, or a shift of 1. -/
inductive HubAccess
  | portStatus (rhport : ℤ)
  | vdev (rhport : ℤ)
  | shift (n : ℕ)
  deriving DecidableEq, Repr

/-- The controller in the course of a call, and what the call has touched. -/
structure HubRun where
  hub : Hub
  accesses : List HubAccess

namespace HubRun

def touch (s : HubRun) (a : HubAccess) : HubRun := { s with accesses := a :: s.accesses }

/-- `port_status[i] = w` -/
def setPort (s : HubRun) (i : ℤ) (w : BitVec 32) : HubRun :=
  { hub := { s.hub with portStatus := Function.update s.hub.portStatus i w }
    accesses := .portStatus i :: s.accesses }

/-- `port_status[i] |= w` -/
def orPort (s : HubRun) (i : ℤ) (w : BitVec 32) : HubRun := s.setPort i (s.hub.portStatus i ||| w)

/-- `port_status[i] &= ~w` -/
def andNotPort (s : HubRun) (i : ℤ) (w : BitVec 32) : HubRun :=
  s.setPort i (s.hub.portStatus i &&& ~~~w)

def setResuming (s : HubRun) (b : Bool) : HubRun := { s with hub := { s.hub with resuming := b } }

def setReTimeout (s : HubRun) (t : BitVec 64) : HubRun :=
  { s with hub := { s.hub with reTimeout := t } }

/-- The `switch` over a speed. -/
def orSpeed (s : HubRun) (i : ℤ) : UsbDeviceSpeed → HubRun
  | .high => s.orPort i usbPortStatHighSpeed
  | .low => s.orPort i usbPortStatLowSpeed
  | _ => s

end HubRun

/-! ### The requests -/

/-- `case ClearPortFeature` -/
def clearPortFeature (env : HubEnv) (s : HubRun) (rhport : ℤ) (wValue : BitVec 16) : HubRun :=
  if wValue.toNat = usbPortFeatSuspend then
    let s := s.touch (.portStatus rhport)
    if s.hub.portStatus rhport &&& usbPortStatSuspend ≠ 0 then
      (s.setResuming true).setReTimeout (env.jiffies + env.msecsToJiffies 20)
    else s
  else if wValue.toNat = usbPortFeatPower then (s.setPort rhport 0).setResuming false
  else
    let s :=
      if wValue.toNat = usbPortFeatCReset then
        (s.touch (.vdev rhport)).orSpeed rhport (s.hub.vdev rhport).speed
      else s
    (s.touch (.shift wValue.toNat)).andNotPort rhport (bit wValue.toNat)

/-- `case SetPortFeature` -/
def setPortFeature (env : HubEnv) (s : HubRun) (rhport : ℤ) (wValue : BitVec 16) : HubRun :=
  if wValue.toNat = usbPortFeatSuspend then s
  else
    let s :=
      if wValue.toNat = usbPortFeatReset then
        let s := s.touch (.portStatus rhport)
        let s :=
          if s.hub.portStatus rhport &&& usbPortStatEnable ≠ 0 then
            s.andNotPort rhport (usbPortStatEnable ||| usbPortStatLowSpeed ||| usbPortStatHighSpeed)
          else s
        s.setReTimeout (env.jiffies + env.msecsToJiffies 50)
      else s
    (s.touch (.shift wValue.toNat)).orPort rhport (bit wValue.toNat)

/-- `dum->resuming && time_after(jiffies, dum->re_timeout)` -/
def resumeDue (env : HubEnv) (hub : Hub) : Bool :=
  hub.resuming && timeAfter env.jiffies hub.reTimeout

/-- The reset of a port has been signalled for long enough. -/
def resetDue (env : HubEnv) (hub : Hub) (rhport : ℤ) : Bool :=
  hub.portStatus rhport &&& bit usbPortFeatReset != 0 && timeAfter env.jiffies' hub.reTimeout

/-- The first `if` of `case GetPortStatus` that changes the port. -/
def endResume (env : HubEnv) (s : HubRun) (rhport : ℤ) : HubRun :=
  if resumeDue env s.hub then
    (((s.orPort rhport (bit usbPortFeatCSuspend)).andNotPort rhport
      (bit usbPortFeatSuspend)).setResuming false).setReTimeout 0
  else s

/-- The second one. -/
def endReset (env : HubEnv) (s : HubRun) (rhport : ℤ) : HubRun :=
  let s := s.touch (.portStatus rhport)
  if resetDue env s.hub rhport then
    let s := ((s.orPort rhport (bit usbPortFeatCReset)).andNotPort rhport
      (bit usbPortFeatReset)).setReTimeout 0
    let s := s.touch (.vdev rhport)
    if (s.hub.vdev rhport).status = .notAssigned then s.orPort rhport usbPortStatEnable else s
  else s

/-- `struct usb_hub_descriptor`, as far as `hub_descriptor` sets it. -/
structure UsbHubDescriptor where
  bDescriptorType : BitVec 8
  bDescLength : BitVec 8
  wHubCharacteristics : BitVec 16
  bNbrPorts : BitVec 8
  deviceRemovable : BitVec 8 × BitVec 8
  deriving DecidableEq, Repr

/-- `hub_descriptor` -/
def hubDescriptor : UsbHubDescriptor where
  bDescriptorType := 0x29
  bDescLength := 9
  wHubCharacteristics := 0x0001
  bNbrPorts := BitVec.ofNat 8 vhciNports
  deviceRemovable := (0xff, 0xff)

/-- What the call leaves in `buf`. -/
inductive HubBuf
  | untouched
  | hubDescriptor (desc : UsbHubDescriptor)
  | hubStatus (status : BitVec 32)
  | portStatus (status change : BitVec 16)
  deriving DecidableEq, Repr

/-- The result of `vhci_hub_control`. -/
structure HubResult where
  retval : ℤ
  buf : HubBuf
  run : HubRun

/-- `case GetPortStatus` -/
def getPortStatus (env : HubEnv) (s : HubRun) (rhport : ℤ) (wIndex : BitVec 16) : HubResult :=
  let retval := if vhciNports < wIndex.toNat ∨ wIndex.toNat < 1 then epipe else 0
  let s := (endReset env (endResume env s rhport) rhport).touch (.portStatus rhport)
  let status := s.hub.portStatus rhport
  ⟨retval, .portStatus (status.setWidth 16) ((status >>> 16).setWidth 16), s⟩

/-- `rhport = ((__u8)(wIndex & 0x00ff)) - 1` -/
def rhportOf (wIndex : BitVec 16) : ℤ := ((wIndex &&& 0x00ff).setWidth 8).toNat - 1

/-- The number of a port, which starts at 1 here. -/
def PortNumber (wIndex : BitVec 16) : Prop := 1 ≤ wIndex.toNat ∧ wIndex.toNat ≤ vhciNports

instance (wIndex : BitVec 16) : Decidable (PortNumber wIndex) := by
  unfold PortNumber
  infer_instance

/-- The `switch` over `typeReq`. -/
def hubRequest (env : HubEnv) (r : HubRequest) (s : HubRun) (rhport : ℤ)
    (wValue wIndex : BitVec 16) : HubResult :=
  match r with
  | .clearHubFeature => ⟨0, .untouched, s⟩
  | .clearPortFeature => ⟨0, .untouched, clearPortFeature env s rhport wValue⟩
  | .getHubDescriptor => ⟨0, .hubDescriptor hubDescriptor, s⟩
  | .getHubStatus => ⟨0, .hubStatus 0, s⟩
  | .getPortStatus => getPortStatus env s rhport wIndex
  | .setHubFeature => ⟨epipe, .untouched, s⟩
  | .setPortFeature => ⟨0, .untouched, setPortFeature env s rhport wValue⟩
  | .other => ⟨epipe, .untouched, s⟩

/-- The `memcpy` of the old words, where there is debugging output. -/
def oldWords (env : HubEnv) : List HubAccess :=
  if env.dbg then (List.range vhciNports).map fun i : ℕ => .portStatus i else []

/-- `vhci_hub_control` -/
def vhciHubControl (env : HubEnv) (typeReq wValue wIndex : BitVec 16) (hub : Hub) : HubResult :=
  if !env.accessible then ⟨etimedout, .untouched, ⟨hub, []⟩⟩
  else
    let rhport := rhportOf wIndex
    let r := hubRequest env (.ofTypeReq typeReq) ⟨hub, oldWords env⟩ rhport wValue wIndex
    if env.dbg = true ∧ 0 ≤ rhport then { r with run := r.run.touch (.portStatus rhport) } else r

/-! ### The bits of a port -/

/-- Bit `k` of the word of port `i`. -/
def Hub.shows (hub : Hub) (i : ℤ) (k : ℕ) : Bool := (hub.portStatus i).getLsbD k

theorem getLsbD_bit (n k : ℕ) : (bit n).getLsbD k = (decide (n < 32) && decide (n = k)) :=
  BitVec.getLsbD_twoPow n k

theorem and_bit_ne_zero_iff (w : BitVec 32) (n : ℕ) : w &&& bit n ≠ 0 ↔ w.getLsbD n = true := by
  have hand : w &&& bit n = if w.getLsbD n then bit n else 0 := BitVec.and_twoPow w n
  rw [hand]
  cases h : w.getLsbD n with
  | false => simp
  | true =>
    have hlt : n < 32 := BitVec.lt_of_getLsbD h
    refine iff_of_true (fun hzero => ?_) rfl
    have hbit : bit n = 0 := hzero
    have hget : (bit n).getLsbD n = false := by
      rw [hbit]
      exact BitVec.getLsbD_zero
    simp only [getLsbD_bit, hlt, decide_true, Bool.and_self, Bool.true_eq_false] at hget

section

variable (s : HubRun) (i : ℤ) (k : ℕ) (w : BitVec 32)

@[simp] theorem HubRun.touch_hub (a : HubAccess) : (s.touch a).hub = s.hub := rfl

@[simp] theorem HubRun.shows_setResuming (b : Bool) :
    (s.setResuming b).hub.shows i k = s.hub.shows i k :=
  rfl

@[simp] theorem HubRun.shows_setReTimeout (t : BitVec 64) :
    (s.setReTimeout t).hub.shows i k = s.hub.shows i k :=
  rfl

@[simp] theorem HubRun.shows_setPort : (s.setPort i w).hub.shows i k = w.getLsbD k := by
  rw [Hub.shows, HubRun.setPort]
  dsimp only
  rw [Function.update_self]

@[simp] theorem HubRun.shows_orPort :
    (s.orPort i w).hub.shows i k = (s.hub.shows i k || w.getLsbD k) := by
  rw [HubRun.orPort, HubRun.shows_setPort, BitVec.getLsbD_or, Hub.shows]

@[simp] theorem HubRun.shows_andNotPort :
    (s.andNotPort i w).hub.shows i k = (s.hub.shows i k && !w.getLsbD k) := by
  rw [HubRun.andNotPort, HubRun.shows_setPort, BitVec.getLsbD_and, BitVec.getLsbD_not, Hub.shows]
  cases h : (s.hub.portStatus i).getLsbD k with
  | false => rfl
  | true =>
    have hlt : k < 32 := BitVec.lt_of_getLsbD h
    simp [hlt]

end

/-! ### One port only -/

/-- From one point of a call to a later one nothing but port `i` has been touched, and nothing has
been shifted but by `n`. -/
structure Local (i : ℤ) (n : ℕ) (s s' : HubRun) : Prop where
  ports : ∀ j, j ≠ i → s'.hub.portStatus j = s.hub.portStatus j
  vdev : s'.hub.vdev = s.hub.vdev
  accesses : ∀ a ∈ s'.accesses,
    a ∈ s.accesses ∨ a = .portStatus i ∨ a = .vdev i ∨ a = .shift n
  grows : ∀ a ∈ s.accesses, a ∈ s'.accesses

variable {env : HubEnv} {i : ℤ} {n : ℕ} {s s' s'' : HubRun} {w : BitVec 32} {wValue : BitVec 16}

namespace Local

theorem refl (s : HubRun) : Local i n s s :=
  ⟨fun _ _ => rfl, rfl, fun _ h => .inl h, fun _ h => h⟩

theorem trans (h : Local i n s s') (h' : Local i n s' s'') : Local i n s s'' := by
  refine ⟨fun j hj => (h'.ports j hj).trans (h.ports j hj), h'.vdev.trans h.vdev, fun a ha => ?_,
    fun a ha => h'.grows a (h.grows a ha)⟩
  obtain ha | ha := h'.accesses a ha
  · exact h.accesses a ha
  · exact .inr ha

theorem touch {a : HubAccess} (h : Local i n s s')
    (ha : a = .portStatus i ∨ a = .vdev i ∨ a = .shift n) : Local i n s (s'.touch a) := by
  refine h.trans ⟨fun _ _ => rfl, rfl, fun b hb => ?_, fun b hb => List.mem_cons_of_mem _ hb⟩
  obtain rfl | hb := List.mem_cons.mp hb
  · exact .inr ha
  · exact .inl hb

theorem setPort (h : Local i n s s') : Local i n s (s'.setPort i w) := by
  refine h.trans ⟨fun j hj => Function.update_of_ne hj _ _, rfl, fun b hb => ?_,
    fun b hb => List.mem_cons_of_mem _ hb⟩
  obtain rfl | hb := List.mem_cons.mp hb
  · exact .inr (.inl rfl)
  · exact .inl hb

theorem orPort (h : Local i n s s') : Local i n s (s'.orPort i w) := h.setPort

theorem andNotPort (h : Local i n s s') : Local i n s (s'.andNotPort i w) := h.setPort

theorem setResuming (h : Local i n s s') (b : Bool) : Local i n s (s'.setResuming b) :=
  h.trans ⟨fun _ _ => rfl, rfl, fun _ h => .inl h, fun _ h => h⟩

theorem setReTimeout (h : Local i n s s') (t : BitVec 64) : Local i n s (s'.setReTimeout t) :=
  h.trans ⟨fun _ _ => rfl, rfl, fun _ h => .inl h, fun _ h => h⟩

theorem orSpeed (h : Local i n s s') (speed : UsbDeviceSpeed) :
    Local i n s (s'.orSpeed i speed) := by
  cases speed with
  | high => exact h.orPort
  | low => exact h.orPort
  | unknown => exact h
  | full => exact h
  | wireless => exact h
  | super => exact h

end Local

theorem clearPortFeature_local (env : HubEnv) (s : HubRun) (i : ℤ) (wValue : BitVec 16) :
    Local i wValue.toNat s (clearPortFeature env s i wValue) := by
  have h := Local.refl s (i := i) (n := wValue.toNat)
  rw [clearPortFeature]
  split
  · dsimp only
    split
    · exact ((h.touch (.inl rfl)).setResuming _).setReTimeout _
    · exact h.touch (.inl rfl)
  split
  · exact h.setPort.setResuming _
  dsimp only
  split
  · exact (((h.touch (.inr (.inl rfl))).orSpeed _).touch (.inr (.inr rfl))).andNotPort
  · exact (h.touch (.inr (.inr rfl))).andNotPort

theorem setPortFeature_local (env : HubEnv) (s : HubRun) (i : ℤ) (wValue : BitVec 16) :
    Local i wValue.toNat s (setPortFeature env s i wValue) := by
  have h := Local.refl s (i := i) (n := wValue.toNat)
  rw [setPortFeature]
  split
  · exact h
  dsimp only
  split
  · split
    · exact (((h.touch (.inl rfl)).andNotPort.setReTimeout _).touch (.inr (.inr rfl))).orPort
    · exact (((h.touch (.inl rfl)).setReTimeout _).touch (.inr (.inr rfl))).orPort
  · exact (h.touch (.inr (.inr rfl))).orPort

theorem endResume_local (env : HubEnv) (s : HubRun) (i : ℤ) (n : ℕ) :
    Local i n s (endResume env s i) := by
  have h := Local.refl s (i := i) (n := n)
  rw [endResume]
  split
  · exact (h.orPort.andNotPort.setResuming _).setReTimeout _
  · exact h

theorem endReset_local (env : HubEnv) (s : HubRun) (i : ℤ) (n : ℕ) :
    Local i n s (endReset env s i) := by
  have h := (Local.refl s (i := i) (n := n)).touch (.inl rfl)
  rw [endReset]
  dsimp only
  split
  · have h' := ((h.orPort (w := bit usbPortFeatCReset)).andNotPort
      (w := bit usbPortFeatReset)).setReTimeout 0
    split
    · exact (h'.touch (.inr (.inl rfl))).orPort
    · exact h'.touch (.inr (.inl rfl))
  · exact h

theorem getPortStatus_local (env : HubEnv) (s : HubRun) (i : ℤ) (wIndex : BitVec 16) (n : ℕ) :
    Local i n s (getPortStatus env s i wIndex).run :=
  ((endResume_local env s i n).trans (endReset_local env _ i n)).touch (.inl rfl)

theorem hubRequest_local (env : HubEnv) (r : HubRequest) (s : HubRun) (i : ℤ)
    (wValue wIndex : BitVec 16) :
    Local i wValue.toNat s (hubRequest env r s i wValue wIndex).run := by
  cases r with
  | clearPortFeature => exact clearPortFeature_local env s i wValue
  | setPortFeature => exact setPortFeature_local env s i wValue
  | getPortStatus => exact getPortStatus_local env s i wIndex _
  | clearHubFeature => exact .refl s
  | getHubDescriptor => exact .refl s
  | getHubStatus => exact .refl s
  | setHubFeature => exact .refl s
  | other => exact .refl s

/-- The debugging output changes nothing. -/
theorem vhciHubControl_hub {hub : Hub} {typeReq wIndex : BitVec 16} (h : env.accessible = true) :
    (vhciHubControl env typeReq wValue wIndex hub).run.hub =
      (hubRequest env (.ofTypeReq typeReq) ⟨hub, oldWords env⟩ (rhportOf wIndex) wValue
        wIndex).run.hub := by
  rw [vhciHubControl, if_neg (by simp [h])]
  dsimp only
  split <;> rfl

/-- An inaccessible controller is left alone. -/
theorem vhciHubControl_hub_of_not_accessible {hub : Hub} {typeReq wIndex : BitVec 16}
    (h : env.accessible = false) :
    (vhciHubControl env typeReq wValue wIndex hub).run.hub = hub := by
  rw [vhciHubControl, if_pos (by simp [h])]

end Usbip.Vhci
