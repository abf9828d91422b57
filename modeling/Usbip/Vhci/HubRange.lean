import Usbip.Vhci.Hub
import Mathlib.Tactic.Common

/-!
# The port number of a hub request

`wIndex` names a port from 1 to `VHCI_NPORTS`. `vhci_hub_control` complains about another value
and goes on with it, where the comment on its debugging output says that only a valid port is
dumped. A call is in order (`InOrder`) when it stays inside `port_status` and `vdev`, shifts by
less than 32, and turns down a request for a port that there is not, without any effect.

`vhciHubControl_inOrder_iff` says which calls are: ClearPortFeature and SetPortFeature need a port
number that is valid, and a feature below 32. GetPortStatus alone has a result for an invalid one,
but it has effects all the same when the low byte of `wIndex` is the number of a port with a
resume or a reset to be ended.
-/

namespace Usbip.Vhci

/-- An element that there is, or a shift that is defined. -/
def HubAccess.InRange : HubAccess → Prop
  | .portStatus i => 0 ≤ i ∧ i < vhciNports
  | .vdev i => 0 ≤ i ∧ i < vhciNports
  | .shift n => n < 32

/-- The words of the ports and the state of a resume are what they were. -/
structure Unchanged (hub hub' : Hub) : Prop where
  portStatus : ∀ i : ℤ, 0 ≤ i → i < vhciNports → hub'.portStatus i = hub.portStatus i
  resuming : hub'.resuming = hub.resuming
  reTimeout : hub'.reTimeout = hub.reTimeout

/-- A call that stays in range, and that turns down a port that there is not. -/
structure InOrder (r : HubRequest) (wIndex : BitVec 16) (hub : Hub) (res : HubResult) : Prop where
  inRange : ∀ a ∈ res.run.accesses, a.InRange
  refused : r.IsPort → ¬ PortNumber wIndex → res.retval < 0 ∧ Unchanged hub res.run.hub

/-- What a caller has to keep. -/
def InOrderWhen (env : HubEnv) (r : HubRequest) (wValue wIndex : BitVec 16) (hub : Hub) : Prop :=
  match r with
  | .clearPortFeature | .setPortFeature => PortNumber wIndex ∧ wValue.toNat < 32
  | .getPortStatus => PortNumber wIndex ∨
      (0 ≤ rhportOf wIndex ∧ rhportOf wIndex < vhciNports) ∧ resumeDue env hub = false ∧
        resetDue env hub (rhportOf wIndex) = false
  | _ => env.dbg = true → rhportOf wIndex < vhciNports

variable {env : HubEnv} {typeReq wValue wIndex : BitVec 16} {hub : Hub} {s : HubRun} {i : ℤ}

/-- A valid number is not changed by the truncation. -/
theorem rhportOf_of_portNumber (h : PortNumber wIndex) :
    0 ≤ rhportOf wIndex ∧ rhportOf wIndex < vhciNports := by
  obtain ⟨hpos, hle⟩ := h
  have hand : (wIndex &&& 0x00ff).toNat = wIndex.toNat % 2 ^ 8 := by
    rw [BitVec.toNat_and]
    exact Nat.and_two_pow_sub_one_eq_mod wIndex.toNat 8
  rw [vhciNports] at hle ⊢
  rw [rhportOf, BitVec.toNat_setWidth, hand]
  omega

/-! ### The requests -/

/-- Each access of a request is at its port, or shifts by its feature. -/
theorem Local.inRange {n : ℕ} {s' : HubRun} (h : Local i n s s')
    (hs : ∀ a ∈ s.accesses, a.InRange) (hi : 0 ≤ i ∧ i < vhciNports) (hn : n < 32) :
    ∀ a ∈ s'.accesses, a.InRange := by
  intro a ha
  obtain ha | rfl | rfl | rfl := h.accesses a ha
  · exact hs a ha
  · exact hi
  · exact hi
  · exact hn

/-- ClearPortFeature touches its port, and shifts by any other feature than those it knows. -/
theorem accesses_clearPortFeature (env : HubEnv) (s : HubRun) (i : ℤ) (wValue : BitVec 16) :
    .portStatus i ∈ (clearPortFeature env s i wValue).accesses ∧
      (32 ≤ wValue.toNat → .shift wValue.toNat ∈ (clearPortFeature env s i wValue).accesses) := by
  rw [clearPortFeature]
  split
  next hf =>
    rw [usbPortFeatSuspend] at hf
    refine ⟨?_, fun hle => by omega⟩
    dsimp only
    split <;> exact List.mem_cons_self
  split
  next hf =>
    rw [usbPortFeatPower] at hf
    exact ⟨List.mem_cons_self, fun hle => by omega⟩
  exact ⟨List.mem_cons_self, fun _ => List.mem_cons_of_mem _ List.mem_cons_self⟩

/-- So does SetPortFeature shift. -/
theorem accesses_setPortFeature (env : HubEnv) (s : HubRun) (i : ℤ) (wValue : BitVec 16)
    (h : 32 ≤ wValue.toNat) : .shift wValue.toNat ∈ (setPortFeature env s i wValue).accesses := by
  rw [setPortFeature]
  split
  next hf =>
    rw [usbPortFeatSuspend] at hf
    omega
  exact List.mem_cons_of_mem _ List.mem_cons_self

theorem endResume_of_not_due (h : resumeDue env s.hub = false) : endResume env s i = s := by
  rw [endResume, if_neg (by simp [h])]

/-- Without a resume or a reset to be ended, GetPortStatus has no effect. -/
theorem getPortStatus_hub (hresume : resumeDue env s.hub = false)
    (hreset : resetDue env s.hub i = false) : (getPortStatus env s i wIndex).run.hub = s.hub := by
  have hsecond : (endReset env s i).hub = s.hub := by
    have hreset : ¬ resetDue env (s.touch (.portStatus i)).hub i = true := by
      rw [HubRun.touch_hub, hreset]
      exact Bool.false_ne_true
    rw [endReset]
    dsimp only
    rw [if_neg hreset, HubRun.touch_hub]
  rw [getPortStatus, endResume_of_not_due hresume]
  exact hsecond

/-- GetPortStatus ends a resume that is due. -/
theorem resuming_getPortStatus (hresume : resumeDue env s.hub = true) :
    (getPortStatus env s i wIndex).run.hub.resuming = false := by
  have hfirst : (endResume env s i).hub.resuming = false := by
    rw [endResume, if_pos hresume]
    rfl
  have hsecond (t : HubRun) : (endReset env t i).hub.resuming = t.hub.resuming := by
    rw [endReset]
    dsimp only
    split
    · split <;> rfl
    · rfl
  exact (hsecond _).trans hfirst

/-- GetPortStatus ends a reset that is due. -/
theorem shows_getPortStatus (hresume : resumeDue env s.hub = false)
    (hreset : resetDue env s.hub i = true) :
    (getPortStatus env s i wIndex).run.hub.shows i usbPortFeatReset = false := by
  have hsecond : (endReset env s i).hub.shows i usbPortFeatReset = false := by
    rw [endReset]
    dsimp only
    rw [if_pos (by exact hreset)]
    split
    · simp [getLsbD_bit, usbPortFeatReset, usbPortStatEnable]
    · simp [getLsbD_bit, usbPortFeatReset]
  rw [getPortStatus, endResume_of_not_due hresume]
  exact hsecond

/-! ### The whole function -/

theorem inRange_oldWords (env : HubEnv) : ∀ a ∈ oldWords env, a.InRange := by
  intro a ha
  rw [oldWords] at ha
  split at ha
  · obtain ⟨i, hi, rfl⟩ := List.mem_map.mp ha
    have hi := List.mem_range.mp hi
    exact ⟨by omega, by omega⟩
  · exact absurd ha List.not_mem_nil

/-- The debugging output adds one access, of a port whose number it checks from below only. -/
theorem inOrder_vhciHubControl_iff (h : env.accessible = true) :
    InOrder (.ofTypeReq typeReq) wIndex hub (vhciHubControl env typeReq wValue wIndex hub) ↔
      (env.dbg = true → rhportOf wIndex < vhciNports) ∧
        InOrder (.ofTypeReq typeReq) wIndex hub
          (hubRequest env (.ofTypeReq typeReq) ⟨hub, oldWords env⟩ (rhportOf wIndex) wValue
            wIndex) := by
  rw [vhciHubControl, if_neg (by simp [h])]
  dsimp only
  split
  next hdump =>
    constructor
    · intro hin
      exact ⟨fun _ => (hin.inRange _ List.mem_cons_self).2,
        fun a ha => hin.inRange a (List.mem_cons_of_mem _ ha), hin.refused⟩
    · rintro ⟨hlt, hin⟩
      refine ⟨fun a ha => ?_, hin.refused⟩
      obtain rfl | ha := List.mem_cons.mp ha
      · exact ⟨hdump.2, hlt hdump.1⟩
      · exact hin.inRange a ha
  next hdump =>
    refine ⟨fun hin => ⟨fun hdbg => ?_, hin⟩, fun hin => hin.2⟩
    have hneg : ¬ 0 ≤ rhportOf wIndex := fun hle => hdump ⟨hdbg, hle⟩
    rw [vhciNports]
    omega

variable {r : HubRequest} {accesses : List HubAccess}

/-- A request that does not name a port touches nothing. -/
theorem inOrder_of_not_isPort (hacc : ∀ a ∈ accesses, a.InRange) (hr : ¬ r.IsPort) {res : HubResult}
    (hrun : res.run = ⟨hub, accesses⟩) : InOrder r wIndex hub res := by
  refine ⟨fun a ha => ?_, fun hport => absurd hport hr⟩
  rw [hrun] at ha
  exact hacc a ha

/-- ClearPortFeature and SetPortFeature never turn a port down. -/
theorem inOrder_setClear_iff (hacc : ∀ a ∈ accesses, a.InRange) (hr : r.IsPort) {buf : HubBuf}
    (hlocal : Local (rhportOf wIndex) wValue.toNat ⟨hub, accesses⟩ s)
    (hshift : 32 ≤ wValue.toNat → .shift wValue.toNat ∈ s.accesses) :
    InOrder r wIndex hub ⟨0, buf, s⟩ ↔ PortNumber wIndex ∧ wValue.toNat < 32 := by
  constructor
  · intro hin
    refine ⟨?_, ?_⟩
    · by_contra hport
      exact absurd (hin.refused hr hport).1 (Int.lt_irrefl 0)
    · by_contra hlt
      exact hlt (hin.inRange _ (hshift (by omega)))
  · rintro ⟨hport, hlt⟩
    exact ⟨hlocal.inRange hacc (rhportOf_of_portNumber hport) hlt, fun _ hno => absurd hport hno⟩

/-- GetPortStatus reports a port that there is not, and goes on. -/
theorem inOrder_getPortStatus_iff (hacc : ∀ a ∈ accesses, a.InRange) :
    InOrder .getPortStatus wIndex hub
        (getPortStatus env ⟨hub, accesses⟩ (rhportOf wIndex) wIndex) ↔
      PortNumber wIndex ∨ (0 ≤ rhportOf wIndex ∧ rhportOf wIndex < vhciNports) ∧
        resumeDue env hub = false ∧ resetDue env hub (rhportOf wIndex) = false := by
  have hlocal := getPortStatus_local env ⟨hub, accesses⟩ (rhportOf wIndex) wIndex 0
  constructor
  · intro hin
    by_cases hport : PortNumber wIndex
    · exact .inl hport
    -- a port that is not there: the request may change nothing
    obtain ⟨-, hsame⟩ := hin.refused (.inr (.inl rfl)) hport
    have hrange : 0 ≤ rhportOf wIndex ∧ rhportOf wIndex < vhciNports :=
      hin.inRange (.portStatus (rhportOf wIndex)) List.mem_cons_self
    -- the end of a resume would clear `resuming`
    have hresume : resumeDue env hub = false := by
      by_contra hdue
      have hdue : resumeDue env hub = true := by simpa using hdue
      have hstop : (getPortStatus env ⟨hub, accesses⟩ (rhportOf wIndex)
          wIndex).run.hub.resuming = false := resuming_getPortStatus hdue
      rw [hsame.resuming] at hstop
      rw [resumeDue, hstop] at hdue
      exact Bool.false_ne_true hdue
    refine .inr ⟨hrange, hresume, ?_⟩
    -- the end of a reset would clear the bit of the reset
    by_contra hdue
    have hdue : resetDue env hub (rhportOf wIndex) = true := by simpa using hdue
    have hcleared : (getPortStatus env ⟨hub, accesses⟩ (rhportOf wIndex) wIndex).run.hub.shows
        (rhportOf wIndex) usbPortFeatReset = false := shows_getPortStatus hresume hdue
    rw [Hub.shows, hsame.portStatus _ hrange.1 hrange.2] at hcleared
    rw [resetDue, Bool.and_eq_true, bne_iff_ne, and_bit_ne_zero_iff, hcleared] at hdue
    exact Bool.false_ne_true hdue.1
  · intro hwhen
    have hrange : 0 ≤ rhportOf wIndex ∧ rhportOf wIndex < vhciNports := by
      obtain hport | ⟨hrange, -⟩ := hwhen
      · exact rhportOf_of_portNumber hport
      · exact hrange
    refine ⟨hlocal.inRange hacc hrange (by decide), fun _ hno => ?_⟩
    obtain hport | ⟨-, hresume, hreset⟩ := hwhen
    · exact absurd hport hno
    · have hhub : (getPortStatus env ⟨hub, accesses⟩ (rhportOf wIndex) wIndex).run.hub = hub :=
        getPortStatus_hub hresume hreset
      have hretval :
          (getPortStatus env ⟨hub, accesses⟩ (rhportOf wIndex) wIndex).retval = epipe := by
        rw [getPortStatus]
        exact if_pos (by rw [PortNumber] at hno; omega)
      rw [hretval, hhub]
      exact ⟨by decide, fun _ _ _ => rfl, rfl, rfl⟩

/-- **Which hub requests are in order**, of all that the core can make of an accessible
controller. -/
theorem vhciHubControl_inOrder_iff (env : HubEnv) (typeReq wValue wIndex : BitVec 16) (hub : Hub)
    (h : env.accessible = true) :
    InOrder (.ofTypeReq typeReq) wIndex hub (vhciHubControl env typeReq wValue wIndex hub) ↔
      InOrderWhen env (.ofTypeReq typeReq) wValue wIndex hub := by
  have hacc := inRange_oldWords env
  rw [inOrder_vhciHubControl_iff h]
  generalize HubRequest.ofTypeReq typeReq = r
  cases r with
  | clearPortFeature =>
    rw [hubRequest, inOrder_setClear_iff hacc (.inl rfl) (clearPortFeature_local ..)
      (accesses_clearPortFeature ..).2, InOrderWhen]
    exact and_iff_right_of_imp fun hwhen _ => (rhportOf_of_portNumber hwhen.1).2
  | setPortFeature =>
    rw [hubRequest, inOrder_setClear_iff hacc (.inr (.inr rfl)) (setPortFeature_local ..)
      (accesses_setPortFeature _ _ _ _), InOrderWhen]
    exact and_iff_right_of_imp fun hwhen _ => (rhportOf_of_portNumber hwhen.1).2
  | getPortStatus =>
    rw [hubRequest, inOrder_getPortStatus_iff hacc, InOrderWhen]
    refine and_iff_right_of_imp fun hwhen _ => ?_
    obtain hport | ⟨hrange, -⟩ := hwhen
    · exact (rhportOf_of_portNumber hport).2
    · exact hrange.2
  | clearHubFeature => exact and_iff_left (inOrder_of_not_isPort hacc (by decide) rfl)
  | getHubDescriptor => exact and_iff_left (inOrder_of_not_isPort hacc (by decide) rfl)
  | getHubStatus => exact and_iff_left (inOrder_of_not_isPort hacc (by decide) rfl)
  | setHubFeature => exact and_iff_left (inOrder_of_not_isPort hacc (by decide) rfl)
  | other => exact and_iff_left (inOrder_of_not_isPort hacc (by decide) rfl)

/-- A controller without devices, and a core that does not trace it. -/
def quietHub : Hub where
  portStatus := fun _ => 0
  vdev := fun _ => ⟨.unknown, .null⟩
  resuming := false
  reTimeout := 0

def quietEnv : HubEnv where
  accessible := true
  dbg := false
  jiffies := 0
  jiffies' := 0
  msecsToJiffies := fun n => BitVec.ofNat 64 n

theorem vhciHubControl_inOrder_iff_quiet :
    quietEnv.accessible = true ∧
      (InOrder (.ofTypeReq 0x2303) 1 quietHub (vhciHubControl quietEnv 0x2303 4 1 quietHub) ↔
        InOrderWhen quietEnv (.ofTypeReq 0x2303) 4 1 quietHub) :=
  ⟨rfl, vhciHubControl_inOrder_iff quietEnv 0x2303 4 1 quietHub rfl⟩

/-- **A request for port 9** powers off what comes behind the array, and succeeds. -/
theorem vhciHubControl_not_inOrder :
    quietEnv.accessible = true ∧ HubRequest.ofTypeReq 0x2301 = .clearPortFeature ∧
      ¬ InOrder (.ofTypeReq 0x2301) 9 quietHub (vhciHubControl quietEnv 0x2301 8 9 quietHub) := by
  refine ⟨rfl, rfl, fun hin => ?_⟩
  have hrange : HubAccess.InRange (.portStatus 8) := hin.inRange _ List.mem_cons_self
  exact absurd hrange.2 (by decide)

end Usbip.Vhci
