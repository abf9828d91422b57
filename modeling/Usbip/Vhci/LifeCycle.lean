import Usbip.Vhci.Port

/-!
# The life cycle of a port

`store_attach` and `show_status` of `vhci_sysfs.c`, the two sections of `vhci_urb_enqueue` that
hold `vdev->ud.lock`, and the event handler's `vhci_shutdown_connection`, `vhci_device_reset`
and `vhci_device_unusable`. `vhci_urb_enqueue` tests the status in its first section and, for
SET_ADDRESS, sets it to USED in the second one. It holds `the_controller->lock` in between,
which keeps `store_attach` out but not the reset.

As long as no reset falls into a SET_ADDRESS call, a port that is NOTASSIGNED or USED has been
attached since its last reset and a USED port knows its device (`port_life_cycle`).
-/

namespace Usbip.Vhci

/-- Where the call of `vhci_urb_enqueue` stands that holds `the_controller->lock`. -/
inductive EnqueuePc
  /-- the status was neither NULL nor ERROR -/
  | checked (urb : Urb)
  /-- SET_ADDRESS: `udev` is set, the status is still to be set -/
  | setAddress (urb : Urb)
  deriving DecidableEq, Repr

/-- What the event handler is doing with the port. -/
inductive HandlerPc
  | idle
  /-- in `vhci_shutdown_connection`, the threads are being stopped -/
  | shutdown
  /-- the socket is released, `vhci_device_unlink_cleanup` and `rh_port_disconnect` are next -/
  | cleanup
  /-- the shutdown has returned -/
  | down
  deriving DecidableEq, Repr

/-- The fields of a `vhci_device` that its life cycle is about. `attached` is a ghost field:
`store_attach` has succeeded since the last reset. -/
structure LifeCycle where
  status : VdevStatus
  speed : ℕ
  devid : ℕ
  udev : Option ℕ
  tcpSocket : Option ℕ
  enqueue : Option EnqueuePc
  handler : HandlerPc
  attached : Bool
  deriving DecidableEq, Repr

namespace LifeCycle

/-- `valid_args`: USB_SPEED_LOW, USB_SPEED_FULL, USB_SPEED_HIGH or USB_SPEED_WIRELESS. -/
def validSpeed (speed : ℕ) : Bool := speed = 1 || speed = 2 || speed = 3 || speed = 4

/-- `store_attach` up to its release of the locks; `socket` is what `sockfd_to_socket`
returns. -/
def storeAttach (s : LifeCycle) (speed devid : ℕ) (socket : Option ℕ) : LifeCycle :=
  if !validSpeed speed then s
  else
    match socket with
    | none => s
    | some socket =>
      if s.status ≠ .null then s
      else
        { s with
          devid := devid
          speed := speed
          tcpSocket := some socket
          status := .notAssigned
          attached := true }

/-- The request is a SET_ADDRESS to device 0. -/
def isSetAddress (urb : Urb) : Bool :=
  match urb.setup with
  | some (5, _) => urb.devnum = 0 && urb.control
  | _ => false

/-- The request is a GET_DESCRIPTOR to device 0. -/
def isGetDescriptor (urb : Urb) : Bool :=
  match urb.setup with
  | some (6, _) => urb.devnum = 0 && urb.control
  | _ => false

/-- `vhci_urb_enqueue` up to its test of the status. -/
def enqueueCheck (s : LifeCycle) (urb : Urb) : LifeCycle :=
  if urb.status ≠ einprogress then s
  else if s.status = .null ∨ s.status = .error then s
  else { s with enqueue := some (.checked urb) }

/-- The rest of `vhci_urb_enqueue`, for SET_ADDRESS up to the second section. -/
def enqueueRest (s : LifeCycle) (linkRet : ℤ) : Option LifeCycle :=
  match s.enqueue with
  | some (.checked urb) =>
    if linkRet ≠ 0 then some { s with enqueue := none }
    else if isSetAddress urb then
      some { s with udev := some urb.dev, enqueue := some (.setAddress urb) }
    else if isGetDescriptor urb then some { s with udev := some urb.dev, enqueue := none }
    else some { s with enqueue := none }
  | _ => none

/-- The second section of `vhci_urb_enqueue`. -/
def enqueueUsed (s : LifeCycle) : Option LifeCycle :=
  match s.enqueue with
  | some (.setAddress _) => some { s with status := .used, enqueue := none }
  | _ => none

/-- The line of `show_status` for the port: the status, and for a USED port its speed, its
device and the name of `udev`; `none` where the code follows a null pointer. -/
def showStatus (s : LifeCycle) : Option (VdevStatus × ℕ × ℕ × Option ℕ × Option ℕ) :=
  if s.status = .used then
    s.udev.map fun udev => (s.status, s.speed, s.devid, s.tcpSocket, some udev)
  else some (s.status, 0, 0, none, none)

/-- `vhci_device_reset`. -/
def reset (s : LifeCycle) : LifeCycle :=
  { s with
    speed := 0
    devid := 0
    udev := none
    tcpSocket := none
    status := .null
    handler := .idle
    attached := false }

/-- The steps of the contexts. The attachment and the cleanup hold `the_controller->lock`,
which a call of `vhci_urb_enqueue` does not release before it ends. -/
inductive Act
  | attach (speed devid : ℕ) (socket : Option ℕ)
  | enqueueCheck (urb : Urb)
  | enqueueRest (linkRet : ℤ)
  | enqueueUsed
  | shutdown
  | releaseSocket
  | cleanup
  | reset
  | unusable
  deriving DecidableEq, Repr

/-- One step. -/
def step (s : LifeCycle) : Act → Option LifeCycle
  | .attach speed devid socket =>
    if s.enqueue.isSome then none else some (s.storeAttach speed devid socket)
  | .enqueueCheck urb => if s.enqueue.isSome then none else some (s.enqueueCheck urb)
  | .enqueueRest linkRet => s.enqueueRest linkRet
  | .enqueueUsed => s.enqueueUsed
  | .shutdown => if s.handler = .idle then some { s with handler := .shutdown } else none
  | .releaseSocket =>
    if s.handler = .shutdown then some { s with tcpSocket := none, handler := .cleanup } else none
  | .cleanup =>
    if s.handler = .cleanup ∧ s.enqueue = none then some { s with handler := .down } else none
  | .reset => if s.handler = .down then some s.reset else none
  | .unusable =>
    if s.handler = .down then some { s with status := .error, handler := .idle } else none

end LifeCycle

/-- A port from `vhci_device_init` on. -/
def portLifeCycle : Machine LifeCycle LifeCycle.Act where
  init := ⟨.null, 0, 0, none, none, none, .idle, false⟩
  step := LifeCycle.step

namespace LifeCycle

/-- The call in progress, if any, is on its way to the section that sets the status. -/
def settingAddress : Option EnqueuePc → Bool
  | none => false
  | some (.checked urb) => isSetAddress urb
  | some (.setAddress _) => true

/-- No reset between the two sections of a SET_ADDRESS call. -/
def ResetApart (s : LifeCycle) : Act → Prop
  | .reset => settingAddress s.enqueue = false
  | _ => True

instance (s : LifeCycle) : (a : Act) → Decidable (s.ResetApart a)
  | .reset => inferInstanceAs (Decidable (settingAddress s.enqueue = false))
  | .attach .. => .isTrue trivial
  | .enqueueCheck _ => .isTrue trivial
  | .enqueueRest _ => .isTrue trivial
  | .enqueueUsed => .isTrue trivial
  | .shutdown => .isTrue trivial
  | .releaseSocket => .isTrue trivial
  | .cleanup => .isTrue trivial
  | .unusable => .isTrue trivial

/-- A port in use is attached, and `show_status` finds its device. -/
structure Consistent (s : LifeCycle) : Prop where
  attached : s.status = .notAssigned ∨ s.status = .used → s.attached = true
  udev : s.status = .used → s.udev ≠ none

/-- What the steps keep: in the middle of a SET_ADDRESS call the port is attached, and it
knows the device once the call has set it. -/
structure Inv (s : LifeCycle) : Prop where
  consistent : s.Consistent
  address : settingAddress s.enqueue = true → s.attached = true
  device : ∀ urb, s.enqueue = some (.setAddress urb) → s.udev ≠ none

variable {s s' : LifeCycle} {a : Act}

theorem Inv.storeAttach (h : s.Inv) {speed devid : ℕ} {socket : Option ℕ} :
    (s.storeAttach speed devid socket).Inv := by
  unfold LifeCycle.storeAttach
  split
  · exact h
  split
  · exact h
  split
  · exact h
  · exact ⟨⟨fun _ => rfl, fun hu => (by cases hu)⟩, fun _ => rfl, h.device⟩

theorem Inv.enqueueCheck (h : s.Inv) (urb : Urb) : (s.enqueueCheck urb).Inv := by
  unfold LifeCycle.enqueueCheck
  split
  · exact h
  split
  · exact h
  next hst =>
    refine ⟨⟨h.consistent.attached, h.consistent.udev⟩, fun _ => h.consistent.attached ?_,
      fun _ hu => (by cases hu)⟩
    cases hs : s.status <;> simp [hs] at hst ⊢

theorem Inv.enqueueRest (h : s.Inv) {linkRet : ℤ} (hs : s.enqueueRest linkRet = some s') :
    s'.Inv := by
  unfold LifeCycle.enqueueRest at hs
  split at hs
  next urb hurb =>
    split at hs
    · cases hs
      exact ⟨⟨h.consistent.attached, h.consistent.udev⟩, fun h0 => (by cases h0),
        fun _ h0 => (by cases h0)⟩
    split at hs
    next haddr =>
      cases hs
      refine ⟨⟨h.consistent.attached, fun _ => by simp⟩, fun _ => h.address ?_, fun _ _ => by simp⟩
      rw [hurb]
      exact haddr
    split at hs
    · cases hs
      exact ⟨⟨h.consistent.attached, fun _ => by simp⟩, fun h0 => (by cases h0),
        fun _ h0 => (by cases h0)⟩
    · cases hs
      exact ⟨⟨h.consistent.attached, h.consistent.udev⟩, fun h0 => (by cases h0),
        fun _ h0 => (by cases h0)⟩
  · cases hs

theorem Inv.enqueueUsed (h : s.Inv) (hs : s.enqueueUsed = some s') : s'.Inv := by
  unfold LifeCycle.enqueueUsed at hs
  split at hs
  next urb hurb =>
    cases hs
    have hatt : s.attached = true := h.address (by rw [hurb]; rfl)
    exact ⟨⟨fun _ => hatt, fun _ => h.device urb hurb⟩, fun h0 => (by cases h0),
      fun _ h0 => (by cases h0)⟩
  · cases hs

/-- **Steps without a reset in a SET_ADDRESS call keep the invariant.** -/
theorem Inv.step (h : s.Inv) (hok : s.ResetApart a) (hs : s.step a = some s') : s'.Inv := by
  cases a with
  | attach speed devid socket =>
    simp only [LifeCycle.step] at hs
    split at hs <;> cases hs
    exact h.storeAttach
  | enqueueCheck urb =>
    simp only [LifeCycle.step] at hs
    split at hs <;> cases hs
    exact h.enqueueCheck urb
  | enqueueRest linkRet => exact h.enqueueRest hs
  | enqueueUsed => exact h.enqueueUsed hs
  | reset =>
    obtain ⟨-, hs⟩ := Option.ite_none_right_eq_some.mp hs
    cases hs
    have hno : settingAddress s.enqueue = false := hok
    refine ⟨⟨by simp [reset], by simp [reset]⟩, fun h0 => ?_, fun urb h0 => ?_⟩
    · cases hno.symm.trans h0
    · rw [show s.enqueue = some (.setAddress urb) from h0] at hno
      cases hno
  | unusable =>
    obtain ⟨-, hs⟩ := Option.ite_none_right_eq_some.mp hs
    cases hs
    exact ⟨⟨by simp, by simp⟩, h.address, h.device⟩
  | _ =>
    obtain ⟨-, hs⟩ := Option.ite_none_right_eq_some.mp hs
    cases hs
    exact ⟨⟨h.consistent.attached, h.consistent.udev⟩, h.address, h.device⟩

theorem inv_init : portLifeCycle.init.Inv :=
  ⟨⟨by simp [portLifeCycle], by simp [portLifeCycle]⟩, fun h => (by cases h), fun _ h => by cases h⟩

end LifeCycle

open LifeCycle

/-- **A port in use is attached and knows its device**, in every state of every run in which no
reset falls between the two sections of a SET_ADDRESS call; `show_status` then follows no null
pointer. -/
theorem port_life_cycle {s : LifeCycle} (h : portLifeCycle.ReachableWhere ResetApart s) :
    s.Consistent ∧ s.showStatus.isSome = true := by
  have hc := (h.invariant inv_init fun _ _ _ hs hok hstep => hs.step hok hstep).consistent
  refine ⟨hc, ?_⟩
  unfold showStatus
  split
  next hused =>
    rw [Option.isSome_map]
    exact Option.isSome_iff_ne_none.mpr (hc.udev hused)
  · rfl

/-- SET_ADDRESS from the device `dev`. -/
def setAddressUrb (dev : ℕ) : Urb := ⟨0, dev, einprogress, 0, true, some (5, 1)⟩

/-- A port is attached, addressed, taken down, reset and attached again. -/
def reattached : List LifeCycle.Act :=
  [.attach 3 7 (some 1), .enqueueCheck (setAddressUrb 2), .enqueueRest 0, .enqueueUsed,
    .shutdown, .releaseSocket, .cleanup, .reset, .attach 3 7 (some 2),
    .enqueueCheck (setAddressUrb 4), .enqueueRest 0, .enqueueUsed]

theorem port_life_cycle_reattached :
    ∃ s, portLifeCycle.runWhere ResetApart portLifeCycle.init reattached = some s ∧
      s.Consistent ∧ s.showStatus.isSome = true :=
  Machine.exists_runWhere (by decide) fun _ h => port_life_cycle h

/-- The connection is taken down and reset while SET_ADDRESS is being enqueued. -/
def resetWithinSetAddress : List LifeCycle.Act :=
  [.attach 3 7 (some 1), .shutdown, .releaseSocket, .cleanup, .enqueueCheck (setAddressUrb 2),
    .enqueueRest 0, .reset, .enqueueUsed]

/-- **A reset in the middle of a SET_ADDRESS call leaves a USED port without a device**, that
nobody has attached; `show_status` then follows a null pointer. -/
theorem used_without_device :
    ∃ s, portLifeCycle.Reachable s ∧ s.status = .used ∧ s.attached = false ∧ s.udev = none ∧
      s.showStatus = none := by
  obtain ⟨s, hs, hp⟩ := Machine.exists_reachable_of_any (m := portLifeCycle) resetWithinSetAddress
    (fun s => s.status = .used ∧ s.attached = false ∧ s.udev = none ∧ s.showStatus = none)
    (by decide)
  exact ⟨s, hs, by simpa using hp⟩

end Usbip.Vhci
