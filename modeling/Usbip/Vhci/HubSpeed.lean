import Usbip.Vhci.Hub
import Mathlib.Tactic.Common

/-!
# The speed that a port shows

`USB_PORT_STAT_LOW_SPEED` and `USB_PORT_STAT_HIGH_SPEED` tell the hub driver how fast the device
at a port is. `rh_port_connect` sets the bit of a new device, and so does
ClearPortFeature(C_RESET). `rh_port_disconnect` leaves both alone. A port loses them when it is
powered off, or when the hub driver resets it while it is enabled, so that a bit may outlast its
device.

The machine `hubMachine` has as its steps the sections that are locked by the controller or by the
device. The two sections of `store_attach` are two steps, `attach` and `connect`. A step is
`timely` when the new device finds the bit of the other speed cleared, and when
ClearPortFeature(C_RESET) finds no bit but the device's own. `speedBits_timely` is about every run
of timely steps: the bits are right in all its states, and the first step that is not timely makes
them wrong.
-/

namespace Usbip.Vhci

/-! ### Attaching and detaching a device -/

def usbPortFeatLowspeed : ℕ := 9
def usbPortFeatHighspeed : ℕ := 10

/-- `rh_port_connect` -/
def rhPortConnect (hub : Hub) (rhport : ℤ) (speed : UsbDeviceSpeed) : Hub :=
  let s : HubRun := ⟨hub, []⟩
  ((s.orPort rhport (usbPortStatConnection ||| bit usbPortFeatCConnection)).orSpeed rhport
    speed).hub

/-- `rh_port_disconnect` -/
def rhPortDisconnect (hub : Hub) (rhport : ℤ) : Hub :=
  let s : HubRun := ⟨hub, []⟩
  ((s.andNotPort rhport usbPortStatConnection).orPort rhport (bit usbPortFeatCConnection)).hub

/-- `valid_args`. Any other number for a speed is turned down, too. -/
def validArgs (rhport : ℕ) (speed : UsbDeviceSpeed) : Bool :=
  decide (rhport < vhciNports) &&
    match speed with
    | .low | .full | .high | .wireless => true
    | _ => false

def Hub.setVdev (hub : Hub) (rhport : ℤ) (vdev : HubVdev) : Hub :=
  { hub with vdev := Function.update hub.vdev rhport vdev }

/-- `store_attach` up to the end of its lock; `none` when it returns `-EINVAL`. -/
def storeAttach (hub : Hub) (rhport : ℕ) (speed : UsbDeviceSpeed) : Option Hub :=
  if !validArgs rhport speed then none
  else if (hub.vdev rhport).status ≠ .null then none
  else some (hub.setVdev rhport ⟨speed, .notAssigned⟩)

/-- `vhci_device_reset` -/
def vhciDeviceReset (hub : Hub) (rhport : ℤ) : Hub := hub.setVdev rhport ⟨.unknown, .null⟩

/-- `vhci_device_unusable` -/
def vhciDeviceUnusable (hub : Hub) (rhport : ℤ) : Hub :=
  hub.setVdev rhport ⟨(hub.vdev rhport).speed, .error⟩

/-- `vhci_urb_enqueue` for a SetAddress request; `none` when it returns `-ENODEV`. -/
def setAddress (hub : Hub) (rhport : ℤ) : Option Hub :=
  if (hub.vdev rhport).status = .null ∨ (hub.vdev rhport).status = .error then none
  else some (hub.setVdev rhport ⟨(hub.vdev rhport).speed, .used⟩)

/-! ### The machine -/

/-- The controller, and the calls of `store_attach` that have left their lock and are about to call
`rh_port_connect`. -/
structure HubSys where
  hub : Hub
  connecting : List (ℕ × UsbDeviceSpeed)

inductive HubStep
  | attach (rhport : ℕ) (speed : UsbDeviceSpeed)
  | connect (rhport : ℕ) (speed : UsbDeviceSpeed)
  | disconnect (rhport : ℕ)
  | reset (rhport : ℕ)
  | unusable (rhport : ℕ)
  | setAddress (rhport : ℕ)
  | request (env : HubEnv) (typeReq wValue wIndex : BitVec 16)

/-- A request for a port that there is, which neither sets nor clears a speed bit itself. A shift
by 32 or more is undefined, and it may hit any bit. -/
def ValidRequest (typeReq wValue wIndex : BitVec 16) : Prop :=
  match HubRequest.ofTypeReq typeReq with
  | .clearPortFeature | .setPortFeature =>
    PortNumber wIndex ∧ wValue.toNat < 32 ∧ wValue.toNat ≠ usbPortFeatLowspeed ∧
      wValue.toNat ≠ usbPortFeatHighspeed
  | .getPortStatus => PortNumber wIndex
  | _ => True

instance (typeReq wValue wIndex : BitVec 16) : Decidable (ValidRequest typeReq wValue wIndex) := by
  unfold ValidRequest
  split <;> infer_instance

def HubSys.step (s : HubSys) : HubStep → Option HubSys
  | .attach rhport speed =>
    (storeAttach s.hub rhport speed).map fun hub => ⟨hub, (rhport, speed) :: s.connecting⟩
  | .connect rhport speed =>
    if (rhport, speed) ∈ s.connecting then
      some ⟨rhPortConnect s.hub rhport speed, s.connecting.erase (rhport, speed)⟩
    else none
  | .disconnect rhport =>
    if rhport < vhciNports then some { s with hub := rhPortDisconnect s.hub rhport } else none
  | .reset rhport =>
    if rhport < vhciNports then some { s with hub := vhciDeviceReset s.hub rhport } else none
  | .unusable rhport =>
    if rhport < vhciNports then some { s with hub := vhciDeviceUnusable s.hub rhport } else none
  | .setAddress rhport => (setAddress s.hub rhport).map fun hub => { s with hub }
  | .request env typeReq wValue wIndex =>
    if ValidRequest typeReq wValue wIndex then
      some { s with hub := (vhciHubControl env typeReq wValue wIndex s.hub).run.hub }
    else none

/-- The controller after `vhci_start`. -/
def HubSys.start : HubSys := ⟨⟨fun _ => 0, fun _ => ⟨.unknown, .null⟩, false, 0⟩, []⟩

def hubMachine : Machine HubSys HubStep := ⟨.start, HubSys.step⟩

/-! ### Right bits -/

def Hub.isLow (hub : Hub) (i : ℤ) : Bool := hub.shows i usbPortFeatLowspeed

def Hub.isHigh (hub : Hub) (i : ℤ) : Bool := hub.shows i usbPortFeatHighspeed

/-- No port shows two speeds. -/
def OneSpeed (hub : Hub) : Prop :=
  ∀ i : ℕ, i < vhciNports → ¬ (hub.isLow i = true ∧ hub.isHigh i = true)

/-- The port shows the speed of its device. -/
def SaysSpeed (hub : Hub) (i : ℤ) : Prop :=
  (hub.isLow i = true ↔ (hub.vdev i).speed = .low) ∧
    (hub.isHigh i = true ↔ (hub.vdev i).speed = .high)

/-- The port of a ClearPortFeature(C_RESET). -/
def HubStep.clearsReset : HubStep → Option ℤ
  | .request env typeReq wValue wIndex =>
    if env.accessible = true ∧ HubRequest.ofTypeReq typeReq = .clearPortFeature ∧
        wValue.toNat = usbPortFeatCReset then
      some (rhportOf wIndex)
    else none
  | _ => none

/-- What the bits have to be after a step. -/
def KeepsSpeed (s : HubSys) (a : HubStep) (s' : HubSys) : Prop :=
  OneSpeed s'.hub ∧ ∀ i ∈ a.clearsReset, (s.hub.vdev i).status ≠ .null → SaysSpeed s'.hub i

/-- The port shows no speed but this one. -/
def Hub.showsOnly (hub : Hub) (i : ℤ) (speed : UsbDeviceSpeed) : Bool :=
  (!hub.isLow i || speed == .low) && (!hub.isHigh i || speed == .high)

/-- The step comes when no bit is left from an earlier device that would make it wrong. -/
def HubSys.timely (s : HubSys) : HubStep → Bool
  | .connect rhport speed =>
    (!s.hub.isLow rhport || speed != .high) && (!s.hub.isHigh rhport || speed != .low)
  | a =>
    match a.clearsReset with
    | some i => (s.hub.vdev i).status == .null || s.hub.showsOnly i (s.hub.vdev i).speed
    | none => true

/-! ### The bits of the speeds -/

/-- The bits of the two speeds. -/
def IsSpeedBit (k : ℕ) : Prop := k = usbPortFeatLowspeed ∨ k = usbPortFeatHighspeed

/-- The word that is put into `port_status` for a speed. -/
def speedWord : UsbDeviceSpeed → BitVec 32
  | .high => usbPortStatHighSpeed
  | .low => usbPortStatLowSpeed
  | _ => 0

variable {i j : ℤ} {k : ℕ} {s s' s'' : HubRun} {hub : Hub} {w : BitVec 32} {wValue : BitVec 16}

theorem shows_orSpeed (s : HubRun) (i : ℤ) (speed : UsbDeviceSpeed) (k : ℕ) :
    (s.orSpeed i speed).hub.shows i k = (s.hub.shows i k || (speedWord speed).getLsbD k) := by
  cases speed <;> simp [HubRun.orSpeed, speedWord]

theorem speedWord_low (speed : UsbDeviceSpeed) :
    (speedWord speed).getLsbD usbPortFeatLowspeed = (speed == .low) := by
  cases speed <;> rfl

theorem speedWord_high (speed : UsbDeviceSpeed) :
    (speedWord speed).getLsbD usbPortFeatHighspeed = (speed == .high) := by
  cases speed <;> rfl

theorem getLsbD_bit_speed {n : ℕ} (hlow : n ≠ usbPortFeatLowspeed)
    (hhigh : n ≠ usbPortFeatHighspeed) (hk : IsSpeedBit k) : (bit n).getLsbD k = false := by
  obtain rfl | rfl := hk
  · simp [getLsbD_bit, hlow]
  · simp [getLsbD_bit, hhigh]

/-- Port `i` has no speed bit that it did not have before. -/
def Fades (i : ℤ) (s s' : HubRun) : Prop :=
  ∀ k, IsSpeedBit k → s'.hub.shows i k = true → s.hub.shows i k = true

namespace Fades

theorem refl (s : HubRun) : Fades i s s := fun _ _ h => h

theorem trans (h : Fades i s s') (h' : Fades i s' s'') : Fades i s s'' :=
  fun k hk hshow => h k hk (h' k hk hshow)

theorem orPort (h : Fades i s s') (hw : ∀ k, IsSpeedBit k → w.getLsbD k = false) :
    Fades i s (s'.orPort i w) := by
  intro k hk hshow
  rw [HubRun.shows_orPort, hw k hk, Bool.or_false] at hshow
  exact h k hk hshow

theorem orBit {n : ℕ} (h : Fades i s s') (hlow : n ≠ usbPortFeatLowspeed)
    (hhigh : n ≠ usbPortFeatHighspeed) : Fades i s (s'.orPort i (bit n)) :=
  h.orPort fun _ hk => getLsbD_bit_speed hlow hhigh hk

theorem andNotPort (h : Fades i s s') : Fades i s (s'.andNotPort i w) := by
  intro k hk hshow
  rw [HubRun.shows_andNotPort, Bool.and_eq_true] at hshow
  exact h k hk hshow.1

end Fades

/-! ### The requests -/

/-- ClearPortFeature sets a speed bit only for C_RESET. -/
theorem clearPortFeature_fades (env : HubEnv) (s : HubRun) (i : ℤ)
    (h : wValue.toNat ≠ usbPortFeatCReset) : Fades i s (clearPortFeature env s i wValue) := by
  rw [clearPortFeature]
  by_cases hsuspend : wValue.toNat = usbPortFeatSuspend
  · rw [if_pos hsuspend]
    dsimp only
    split <;> exact Fades.refl s
  rw [if_neg hsuspend]
  by_cases hpower : wValue.toNat = usbPortFeatPower
  · rw [if_pos hpower]
    intro k _ hshow
    have hzero : (0 : BitVec 32).getLsbD k = false := BitVec.getLsbD_zero
    rw [HubRun.shows_setResuming, HubRun.shows_setPort, hzero] at hshow
    exact absurd hshow Bool.false_ne_true
  · rw [if_neg hpower, if_neg h]
    exact (Fades.refl s).andNotPort

/-- SetPortFeature sets no speed bit but the one that it is asked for. -/
theorem setPortFeature_fades (env : HubEnv) (s : HubRun) (i : ℤ)
    (hlow : wValue.toNat ≠ usbPortFeatLowspeed) (hhigh : wValue.toNat ≠ usbPortFeatHighspeed) :
    Fades i s (setPortFeature env s i wValue) := by
  rw [setPortFeature]
  split
  · exact .refl s
  dsimp only
  split
  · split
    · have h : Fades i s ((s.touch (.portStatus i)).andNotPort i
          (usbPortStatEnable ||| usbPortStatLowSpeed ||| usbPortStatHighSpeed)) :=
        (Fades.refl s).andNotPort
      exact h.orBit hlow hhigh
    · exact (Fades.refl s).orBit hlow hhigh
  · exact (Fades.refl s).orBit hlow hhigh

theorem endResume_fades (env : HubEnv) (s : HubRun) (i : ℤ) : Fades i s (endResume env s i) := by
  rw [endResume]
  split
  · exact ((Fades.refl s).orBit (by decide) (by decide)).andNotPort
  · exact .refl s

theorem endReset_fades (env : HubEnv) (s : HubRun) (i : ℤ) : Fades i s (endReset env s i) := by
  rw [endReset]
  dsimp only
  split
  · have h : Fades i s ((((s.touch (.portStatus i)).orPort i (bit usbPortFeatCReset)).andNotPort i
        (bit usbPortFeatReset)).setReTimeout 0) :=
      ((Fades.refl s).orBit (by decide) (by decide)).andNotPort
    split
    · exact h.orBit (n := 1) (by decide) (by decide)
    · exact h
  · exact .refl s

/-- A valid request other than ClearPortFeature(C_RESET) sets no speed bit. -/
theorem hubRequest_fades {typeReq wIndex : BitVec 16} (env : HubEnv) (s : HubRun) (i : ℤ)
    (hvalid : ValidRequest typeReq wValue wIndex)
    (h : HubRequest.ofTypeReq typeReq = .clearPortFeature → wValue.toNat ≠ usbPortFeatCReset) :
    Fades i s (hubRequest env (.ofTypeReq typeReq) s i wValue wIndex).run := by
  rw [ValidRequest] at hvalid
  generalize HubRequest.ofTypeReq typeReq = r at hvalid h
  cases r with
  | clearPortFeature => exact clearPortFeature_fades env s i (h rfl)
  | setPortFeature => exact setPortFeature_fades env s i hvalid.2.2.1 hvalid.2.2.2
  | getPortStatus => exact (endResume_fades env s i).trans (endReset_fades env _ i)
  | clearHubFeature => exact .refl s
  | getHubDescriptor => exact .refl s
  | getHubStatus => exact .refl s
  | setHubFeature => exact .refl s
  | other => exact .refl s

/-- ClearPortFeature(C_RESET) adds the bit of the device. -/
theorem shows_clearPortFeature (env : HubEnv) (s : HubRun) (i : ℤ) (hk : IsSpeedBit k)
    (h : wValue.toNat = usbPortFeatCReset) :
    (clearPortFeature env s i wValue).hub.shows i k =
      (s.hub.shows i k || (speedWord (s.hub.vdev i).speed).getLsbD k) := by
  have hbit : (bit usbPortFeatCReset).getLsbD k = false :=
    getLsbD_bit_speed (by decide) (by decide) hk
  rw [clearPortFeature, h, if_neg (by decide), if_neg (by decide), if_pos rfl]
  rw [HubRun.shows_andNotPort, HubRun.touch_hub, shows_orSpeed, hbit, Bool.not_false, Bool.and_true]
  rfl

/-! ### Setting the bit of a speed -/

/-- At port `i` the bit of `speed` has been added. -/
structure SpeedSet (i : ℤ) (speed : UsbDeviceSpeed) (hub hub' : Hub) : Prop where
  others : ∀ j, j ≠ i → hub'.portStatus j = hub.portStatus j
  low : hub'.isLow i = (hub.isLow i || speed == .low)
  high : hub'.isHigh i = (hub.isHigh i || speed == .high)

variable {hub' : Hub} {speed : UsbDeviceSpeed}

theorem isLow_congr (h : hub'.portStatus j = hub.portStatus j) : hub'.isLow j = hub.isLow j := by
  rw [Hub.isLow, Hub.isLow, Hub.shows, Hub.shows, h]

theorem isHigh_congr (h : hub'.portStatus j = hub.portStatus j) : hub'.isHigh j = hub.isHigh j := by
  rw [Hub.isHigh, Hub.isHigh, Hub.shows, Hub.shows, h]

/-- Only port `i` has to be looked at when the others are as they were. -/
theorem OneSpeed.of_others (h : OneSpeed hub)
    (hj : ∀ j, j ≠ i → hub'.portStatus j = hub.portStatus j)
    (hi : ∀ n : ℕ, n < vhciNports → (n : ℤ) = i → ¬ (hub'.isLow n = true ∧ hub'.isHigh n = true)) :
    OneSpeed hub' := by
  intro j hlt
  by_cases hji : (j : ℤ) = i
  · exact hi j hlt hji
  · rw [isLow_congr (hj j hji), isHigh_congr (hj j hji)]
    exact h j hlt

theorem OneSpeed.congr (h : OneSpeed hub) (heq : hub'.portStatus = hub.portStatus) :
    OneSpeed hub' := by
  intro j hlt
  rw [isLow_congr (congrFun heq j), isHigh_congr (congrFun heq j)]
  exact h j hlt

theorem OneSpeed.of_fades (h : OneSpeed s.hub)
    (hj : ∀ j, j ≠ i → s'.hub.portStatus j = s.hub.portStatus j) (hf : Fades i s s') :
    OneSpeed s'.hub := by
  refine h.of_others hj fun n hlt hn hboth => ?_
  subst hn
  exact h n hlt ⟨hf _ (.inl rfl) hboth.1, hf _ (.inr rfl) hboth.2⟩

/-- The new bit is alone when the bit of the other speed is not there. -/
theorem SpeedSet.oneSpeed_iff {i : ℕ} (h : SpeedSet i speed hub hub') (hone : OneSpeed hub)
    (hi : i < vhciNports) :
    OneSpeed hub' ↔
      ((!hub.isLow i || speed != .high) && (!hub.isHigh i || speed != .low)) = true := by
  have hport := hone i hi
  have hboth : ¬ (hub'.isLow i = true ∧ hub'.isHigh i = true) ↔
      ((!hub.isLow i || speed != .high) && (!hub.isHigh i || speed != .low)) = true := by
    rw [h.low, h.high]
    revert hport
    cases hub.isLow i <;> cases hub.isHigh i <;> cases speed <;> decide
  rw [← hboth]
  refine ⟨fun hone' => hone' i hi, fun hnot => hone.of_others h.others fun n _ hn => ?_⟩
  rw [hn]
  exact hnot

/-- The device's bit is the only one when no other was there. -/
theorem SpeedSet.saysSpeed_iff (h : SpeedSet i (hub.vdev i).speed hub hub')
    (hvdev : hub'.vdev = hub.vdev) :
    SaysSpeed hub' i ↔ hub.showsOnly i (hub.vdev i).speed = true := by
  rw [SaysSpeed, h.low, h.high, hvdev, Hub.showsOnly]
  generalize (hub.vdev i).speed = speed
  cases hub.isLow i <;> cases hub.isHigh i <;> cases speed <;> decide

/-- Connecting a device touches its port only. -/
theorem rhPortConnect_local (hub : Hub) (i : ℤ) (speed : UsbDeviceSpeed) :
    Local i 0 ⟨hub, []⟩ (((⟨hub, []⟩ : HubRun).orPort i
      (usbPortStatConnection ||| bit usbPortFeatCConnection)).orSpeed i speed) :=
  (Local.refl _).orPort.orSpeed speed

theorem rhPortConnect_speedSet (hub : Hub) (i : ℤ) (speed : UsbDeviceSpeed) :
    SpeedSet i speed hub (rhPortConnect hub i speed) := by
  refine ⟨(rhPortConnect_local hub i speed).ports, ?_, ?_⟩
  · rw [Hub.isLow, rhPortConnect, shows_orSpeed, HubRun.shows_orPort, speedWord_low]
    exact congrArg (· || _) (Bool.or_false _)
  · rw [Hub.isHigh, rhPortConnect, shows_orSpeed, HubRun.shows_orPort, speedWord_high]
    exact congrArg (· || _) (Bool.or_false _)

theorem clearPortFeature_speedSet (env : HubEnv) (s : HubRun) (i : ℤ)
    (h : wValue.toNat = usbPortFeatCReset) :
    SpeedSet i (s.hub.vdev i).speed s.hub (clearPortFeature env s i wValue).hub := by
  refine ⟨(clearPortFeature_local env s i wValue).ports, ?_, ?_⟩
  · rw [Hub.isLow, shows_clearPortFeature env s i (.inl rfl) h, speedWord_low]
    rfl
  · rw [Hub.isHigh, shows_clearPortFeature env s i (.inr rfl) h, speedWord_high]
    rfl

/-! ### The steps -/

/-- The bits are right, a port without a device has no speed, and every call of `store_attach`
that has left its lock has a valid port. -/
structure SpeedInv (s : HubSys) : Prop where
  one : OneSpeed s.hub
  unknown : ∀ i, (s.hub.vdev i).status = .null → (s.hub.vdev i).speed = .unknown
  ports : ∀ p ∈ s.connecting, p.1 < vhciNports

/-- A step that is no ClearPortFeature(C_RESET). -/
theorem keepsSpeed_iff_oneSpeed {t t' : HubSys} {a : HubStep} (h : a.clearsReset = none) :
    KeepsSpeed t a t' ↔ OneSpeed t'.hub := by
  rw [KeepsSpeed, h]
  exact and_iff_left fun i hi => absurd hi (by simp)

/-- ClearPortFeature(C_RESET) at a port with or without a device. -/
theorem SpeedSet.keepsSpeed_iff (h : SpeedSet i (hub.vdev i).speed hub hub') (hone : OneSpeed hub)
    (hvdev : hub'.vdev = hub.vdev)
    (hunknown : (hub.vdev i).status = .null → (hub.vdev i).speed = .unknown) :
    OneSpeed hub' ∧ ((hub.vdev i).status ≠ .null → SaysSpeed hub' i) ↔
      ((hub.vdev i).status == .null || hub.showsOnly i (hub.vdev i).speed) = true := by
  rw [h.saysSpeed_iff hvdev, Bool.or_eq_true, beq_iff_eq]
  by_cases hnull : (hub.vdev i).status = .null
  · refine iff_of_true ⟨hone.of_others h.others fun n hlt hn => ?_, fun hno => absurd hnull hno⟩
      (.inl hnull)
    -- nothing is added
    rw [hn, h.low, h.high, hunknown hnull, ← hn]
    exact fun hboth => hone n hlt (by simpa using hboth)
  · refine ⟨fun hkeeps => .inr (hkeeps.2 hnull), fun hok => ?_⟩
    have honly := hok.resolve_left hnull
    refine ⟨hone.of_others h.others fun n _ hn hboth => ?_, fun _ => honly⟩
    obtain ⟨hlow, hhigh⟩ := (h.saysSpeed_iff hvdev).mpr honly
    rw [hn] at hboth
    have hspeed := hlow.mp hboth.1
    rw [hhigh.mp hboth.2] at hspeed
    exact UsbDeviceSpeed.noConfusion hspeed

theorem storeAttach_eq_some {rhport : ℕ} {speed : UsbDeviceSpeed}
    (h : storeAttach hub rhport speed = some hub') :
    validArgs rhport speed = true ∧ (hub.vdev rhport).status = .null ∧
      hub' = hub.setVdev rhport ⟨speed, .notAssigned⟩ := by
  rw [storeAttach] at h
  split at h
  · cases h
  next hvalid =>
    split at h
    · cases h
    next hnull => exact ⟨by simpa using hvalid, not_not.mp hnull, (Option.some.inj h).symm⟩

theorem setAddress_eq_some (h : setAddress hub i = some hub') :
    ¬ ((hub.vdev i).status = .null ∨ (hub.vdev i).status = .error) ∧
      hub' = hub.setVdev i ⟨(hub.vdev i).speed, .used⟩ := by
  obtain ⟨hlive, h⟩ := Option.ite_none_left_eq_some.mp h
  exact ⟨hlive, (Option.some.inj h).symm⟩

/-- What a step can do, and when it is possible. -/
inductive HubSys.Moves (t : HubSys) : HubStep → HubSys → Prop
  | attach {rhport : ℕ} {speed : UsbDeviceSpeed} (hvalid : validArgs rhport speed = true)
    (hnull : (t.hub.vdev rhport).status = .null) :
    Moves t (.attach rhport speed)
      ⟨t.hub.setVdev rhport ⟨speed, .notAssigned⟩, (rhport, speed) :: t.connecting⟩
  | connect {rhport : ℕ} {speed : UsbDeviceSpeed} (hmem : (rhport, speed) ∈ t.connecting) :
    Moves t (.connect rhport speed)
      ⟨rhPortConnect t.hub rhport speed, t.connecting.erase (rhport, speed)⟩
  | disconnect {rhport : ℕ} (hlt : rhport < vhciNports) :
    Moves t (.disconnect rhport) { t with hub := rhPortDisconnect t.hub rhport }
  | reset {rhport : ℕ} (hlt : rhport < vhciNports) :
    Moves t (.reset rhport) { t with hub := t.hub.setVdev rhport ⟨.unknown, .null⟩ }
  | unusable {rhport : ℕ} (hlt : rhport < vhciNports) :
    Moves t (.unusable rhport)
      { t with hub := t.hub.setVdev rhport ⟨(t.hub.vdev rhport).speed, .error⟩ }
  | setAddress {rhport : ℕ} (hlive : ¬ ((t.hub.vdev rhport).status = .null ∨
      (t.hub.vdev rhport).status = .error)) :
    Moves t (.setAddress rhport)
      { t with hub := t.hub.setVdev rhport ⟨(t.hub.vdev rhport).speed, .used⟩ }
  | request {env : HubEnv} {typeReq wValue wIndex : BitVec 16}
    (hvalid : ValidRequest typeReq wValue wIndex) :
    Moves t (.request env typeReq wValue wIndex)
      { t with hub := (vhciHubControl env typeReq wValue wIndex t.hub).run.hub }

theorem HubSys.moves_of_step {t t' : HubSys} {a : HubStep} (h : t.step a = some t') :
    t.Moves a t' := by
  cases a with
  | attach rhport speed =>
    obtain ⟨hub', hstore, rfl⟩ := Option.map_eq_some_iff.mp h
    obtain ⟨hvalid, hnull, rfl⟩ := storeAttach_eq_some hstore
    exact .attach hvalid hnull
  | connect rhport speed =>
    obtain ⟨hmem, h⟩ := Option.ite_none_right_eq_some.mp h
    exact Option.some.inj h ▸ .connect hmem
  | disconnect rhport =>
    obtain ⟨hlt, h⟩ := Option.ite_none_right_eq_some.mp h
    exact Option.some.inj h ▸ .disconnect hlt
  | reset rhport =>
    obtain ⟨hlt, h⟩ := Option.ite_none_right_eq_some.mp h
    exact Option.some.inj h ▸ .reset hlt
  | unusable rhport =>
    obtain ⟨hlt, h⟩ := Option.ite_none_right_eq_some.mp h
    exact Option.some.inj h ▸ .unusable hlt
  | setAddress rhport =>
    obtain ⟨hub', hset, rfl⟩ := Option.map_eq_some_iff.mp h
    obtain ⟨hlive, rfl⟩ := setAddress_eq_some hset
    exact .setAddress hlive
  | request env typeReq wValue wIndex =>
    obtain ⟨hvalid, h⟩ := Option.ite_none_right_eq_some.mp h
    exact Option.some.inj h ▸ .request hvalid

/-- A hub request does not touch the devices. -/
theorem vdev_vhciHubControl (env : HubEnv) (typeReq wValue wIndex : BitVec 16) (hub : Hub) :
    (vhciHubControl env typeReq wValue wIndex hub).run.hub.vdev = hub.vdev := by
  cases hacc : env.accessible with
  | true =>
    rw [vhciHubControl_hub hacc]
    exact (hubRequest_local ..).vdev
  | false => rw [vhciHubControl_hub_of_not_accessible hacc]

theorem timely_request (t : HubSys) (env : HubEnv) (typeReq wValue wIndex : BitVec 16) :
    t.timely (.request env typeReq wValue wIndex) =
      match (HubStep.request env typeReq wValue wIndex).clearsReset with
      | some i => (t.hub.vdev i).status == .null || t.hub.showsOnly i (t.hub.vdev i).speed
      | none => true :=
  rfl

/-- **A hub request** keeps the bits right exactly when it is timely. -/
theorem keepsSpeed_request_iff {t : HubSys} (hinv : SpeedInv t) {env : HubEnv}
    {typeReq wValue wIndex : BitVec 16} (hvalid : ValidRequest typeReq wValue wIndex) :
    KeepsSpeed t (.request env typeReq wValue wIndex)
        { t with hub := (vhciHubControl env typeReq wValue wIndex t.hub).run.hub } ↔
      t.timely (.request env typeReq wValue wIndex) = true := by
  have hvdev := vdev_vhciHubControl env typeReq wValue wIndex t.hub
  by_cases hreset : env.accessible = true ∧ HubRequest.ofTypeReq typeReq = .clearPortFeature ∧
      wValue.toNat = usbPortFeatCReset
  · have hclears :
        (HubStep.request env typeReq wValue wIndex).clearsReset = some (rhportOf wIndex) :=
      if_pos hreset
    have hhub : SpeedSet (rhportOf wIndex) (t.hub.vdev (rhportOf wIndex)).speed t.hub
        (vhciHubControl env typeReq wValue wIndex t.hub).run.hub := by
      rw [vhciHubControl_hub hreset.1, hreset.2.1]
      exact clearPortFeature_speedSet env ⟨t.hub, oldWords env⟩ _ hreset.2.2
    rw [KeepsSpeed, timely_request, hclears]
    simp only [Option.mem_def, Option.some_inj, forall_eq']
    exact hhub.keepsSpeed_iff hinv.one hvdev (hinv.unknown _)
  · have hclears : (HubStep.request env typeReq wValue wIndex).clearsReset = none := if_neg hreset
    rw [keepsSpeed_iff_oneSpeed hclears, timely_request, hclears]
    refine iff_of_true ?_ rfl
    cases hacc : env.accessible with
    | true =>
      rw [vhciHubControl_hub hacc]
      exact OneSpeed.of_fades (s := ⟨t.hub, oldWords env⟩) hinv.one (hubRequest_local ..).ports
        (hubRequest_fades env _ _ hvalid fun hr hw => hreset ⟨hacc, hr, hw⟩)
    | false =>
      rw [vhciHubControl_hub_of_not_accessible hacc]
      exact hinv.one

/-- **One step** keeps the bits right exactly when it is timely. -/
theorem SpeedInv.keepsSpeed_iff {t t' : HubSys} (hinv : SpeedInv t) {a : HubStep}
    (h : t.step a = some t') : KeepsSpeed t a t' ↔ t.timely a = true := by
  cases HubSys.moves_of_step h with
  | attach | reset | unusable | setAddress =>
    -- the ports are not touched
    rw [keepsSpeed_iff_oneSpeed rfl]
    exact iff_of_true (hinv.one.congr rfl) rfl
  | @connect rhport speed hmem =>
    rw [keepsSpeed_iff_oneSpeed rfl]
    exact (rhPortConnect_speedSet t.hub rhport speed).oneSpeed_iff hinv.one (hinv.ports _ hmem)
  | @disconnect rhport =>
    rw [keepsSpeed_iff_oneSpeed rfl]
    have hlocal : Local rhport 0 ⟨t.hub, []⟩ ((((⟨t.hub, []⟩ : HubRun).andNotPort rhport
        usbPortStatConnection)).orPort rhport (bit usbPortFeatCConnection)) :=
      (Local.refl _).andNotPort.orPort
    exact iff_of_true (OneSpeed.of_fades (s := ⟨t.hub, []⟩) hinv.one hlocal.ports
      ((Fades.refl _).andNotPort.orBit (by decide) (by decide))) rfl
  | request hvalid => exact keepsSpeed_request_iff hinv hvalid

/-- A device that is set keeps the second part of the invariant, unless it has a speed and no
status. -/
theorem unknown_setVdev (h : ∀ j, (hub.vdev j).status = .null → (hub.vdev j).speed = .unknown)
    {vdev : HubVdev} (hset : vdev.status = .null → vdev.speed = .unknown) (i j : ℤ)
    (hnull : ((hub.setVdev i vdev).vdev j).status = .null) :
    ((hub.setVdev i vdev).vdev j).speed = .unknown := by
  rw [Hub.setVdev] at hnull ⊢
  dsimp only at hnull ⊢
  by_cases hji : j = i
  · subst hji
    rw [Function.update_self] at hnull ⊢
    exact hset hnull
  · rw [Function.update_of_ne hji] at hnull ⊢
    exact h j hnull

/-- Timely steps keep the invariant. -/
theorem SpeedInv.step {t t' : HubSys} (hinv : SpeedInv t) {a : HubStep} (hok : t.timely a = true)
    (h : t.step a = some t') : SpeedInv t' := by
  have hone := ((hinv.keepsSpeed_iff h).mpr hok).1
  cases HubSys.moves_of_step h with
  | attach hvalid =>
    refine ⟨hone, unknown_setVdev hinv.unknown (fun hnull => by cases hnull) _, fun p hp => ?_⟩
    obtain rfl | hp := List.mem_cons.mp hp
    · exact of_decide_eq_true (Bool.and_eq_true_iff.mp hvalid).1
    · exact hinv.ports p hp
  | @connect rhport speed =>
    have hvdev : (rhPortConnect t.hub rhport speed).vdev = t.hub.vdev :=
      (rhPortConnect_local t.hub rhport speed).vdev
    refine ⟨hone, ?_, fun p hp => hinv.ports p (List.mem_of_mem_erase hp)⟩
    rw [hvdev]
    exact hinv.unknown
  | disconnect => exact ⟨hone, hinv.unknown, hinv.ports⟩
  | reset => exact ⟨hone, unknown_setVdev hinv.unknown (fun _ => rfl) _, hinv.ports⟩
  | unusable | setAddress =>
    exact ⟨hone, unknown_setVdev hinv.unknown (fun hnull => by cases hnull) _, hinv.ports⟩
  | request =>
    refine ⟨hone, ?_, hinv.ports⟩
    rw [vdev_vhciHubControl]
    exact hinv.unknown

theorem SpeedInv.start : SpeedInv .start := by
  refine ⟨fun _ _ hboth => ?_, fun _ _ => rfl, fun _ hp => absurd hp List.not_mem_nil⟩
  simp [Hub.isLow, Hub.shows, HubSys.start] at hboth

/-! ### Runs -/

/-- **The speed bits follow the device** as long as every step is timely; and a step that is not
makes them wrong. -/
theorem speedBits_timely {t : HubSys}
    (h : hubMachine.ReachableWhere (fun t a => t.timely a = true) t) :
    OneSpeed t.hub ∧ ∀ a t', t.step a = some t' → (KeepsSpeed t a t' ↔ t.timely a = true) := by
  have hinv : SpeedInv t := h.invariant .start fun _ _ _ hinv hok hs => hinv.step hok hs
  exact ⟨hinv.one, fun a t' hs => hinv.keepsSpeed_iff hs⟩

/-- A core that does not trace the root hub. -/
def hubEnv (jiffies : BitVec 64) : HubEnv where
  accessible := true
  dbg := false
  jiffies := jiffies
  jiffies' := jiffies
  msecsToJiffies := fun n => BitVec.ofNat 64 n

/-- A high-speed device is attached to port 1, reset and enabled by the hub driver, and detached;
then the driver powers the port off. -/
def attachAndPowerOff : List HubStep :=
  [.attach 0 .high, .connect 0 .high, .request (hubEnv 0) 0x2303 4 1,
    .request (hubEnv 100) 0xa300 0 1, .request (hubEnv 100) 0x2301 20 1, .setAddress 0,
    .disconnect 0, .reset 0, .request (hubEnv 200) 0x2301 8 1]

theorem speedBits_timely_powerOff :
    ∃ t, hubMachine.runWhere (fun t a => t.timely a = true) .start
        (attachAndPowerOff ++ [.attach 0 .low, .connect 0 .low]) = some t ∧
      OneSpeed t.hub ∧ ∀ a t', t.step a = some t' → (KeepsSpeed t a t' ↔ t.timely a = true) :=
  Machine.exists_runWhere (m := hubMachine) (by decide) fun _ h => speedBits_timely h

/-- **Without power-off the bit stays**: a low-speed device after a high-speed one shows both
speeds. -/
theorem speedBits_stale :
    ¬ ∀ t, hubMachine.Reachable t → ∀ a t', t.step a = some t' → KeepsSpeed t a t' := by
  intro h
  obtain ⟨t, ht, hstep⟩ := Machine.exists_reachable_of_any (m := hubMachine)
    [.attach 0 .high, .connect 0 .high, .disconnect 0, .reset 0, .attach 0 .low]
    (fun t => (t.step (.connect 0 .low)).any fun t' => t'.hub.isLow 0 && t'.hub.isHigh 0)
    (by decide)
  obtain ⟨t', hs, hboth⟩ := (Option.any_eq_true _ _).mp hstep
  rw [Bool.and_eq_true] at hboth
  exact (h t ht _ t' hs).1 0 (by decide) hboth

end Usbip.Vhci
