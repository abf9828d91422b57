import Usbip.Vhci.HubSpeed
import Usbip.Lib.Rest

/-!
# Changes of the ports reach the hub driver

`vhci_hub_status` of `vhci_hcd.c` tells the hub driver of the core which ports have changed: a
bitmap in which port `n` has bit `n + 1`, and the length of the bitmap if there is a change at all.
The bits of a port that count are those of `PORT_C_MASK`.

A device that comes or goes sets C_CONNECTION. The bit outlasts whatever happens to the port, up to
a ClearPortFeature of that bit or of the power, and for as long the bitmap has the port's bit
(`connection_change_reported`).
-/

namespace Usbip.Vhci

/-- `PORT_C_MASK` -/
def portCMask : BitVec 32 := (0x0001 ||| 0x0002 ||| 0x0004 ||| 0x0008 ||| 0x0010) <<< 16

/-- The result of `vhci_hub_status`, what it leaves in `buf`, and whether it has called
`usb_hcd_resume_root_hub`. -/
structure HubStatus where
  retval : ℤ
  buf : List (BitVec 8)
  resume : Bool

/-- `DIV_ROUND_UP(VHCI_NPORTS + 1, 8)` -/
def hubStatusSize : ℕ := (vhciNports + 1 + 7) / 8

/-- The status of the port has been changed. -/
def Hub.changed (hub : Hub) (rhport : ℕ) : Bool := hub.portStatus rhport &&& portCMask != 0

/-- One round of the loop over the ports. -/
def checkPort (hub : Hub) (r : List (BitVec 8) × Bool) (rhport : ℕ) : List (BitVec 8) × Bool :=
  if hub.changed rhport then
    (r.1.modify ((rhport + 1) / 8) (· ||| BitVec.twoPow 8 ((rhport + 1) % 8)), true)
  else r

/-- `vhci_hub_status`, where `accessible` is `HCD_HW_ACCESSIBLE(hcd)` and `suspended` says that
the state of `hcd` is HC_STATE_SUSPENDED. -/
def vhciHubStatus (accessible suspended : Bool) (hub : Hub) : HubStatus :=
  let buf := List.replicate hubStatusSize 0
  if !accessible then ⟨0, buf, false⟩
  else
    let r := (List.range vhciNports).foldl (checkPort hub) (buf, false)
    ⟨if r.2 then hubStatusSize else 0, r.1, suspended && r.2⟩

/-- Bit `n` of a bitmap. -/
def bitmap (buf : List (BitVec 8)) (n : ℕ) : Bool := (buf.getD (n / 8) 0).getLsbD (n % 8)

/-! ### The bitmap -/

variable {hub : Hub} {buf : List (BitVec 8)} {n m : ℕ}

/-- Setting a bit that the bitmap has room for. -/
theorem bitmap_modify (hm : m / 8 < buf.length) :
    bitmap (buf.modify (m / 8) (· ||| BitVec.twoPow 8 (m % 8))) n =
      (bitmap buf n || decide (n = m)) := by
  rw [bitmap, bitmap, List.getD_eq_getElem?_getD, List.getD_eq_getElem?_getD, List.getElem?_modify]
  by_cases hbyte : m / 8 = n / 8
  · rw [← hbyte, List.getElem?_eq_getElem hm]
    have hiff : n % 8 = m % 8 ↔ n = m := by omega
    simp only [Option.map_eq_map, Option.map_some, Option.getD_some, if_true, BitVec.getLsbD_or,
      BitVec.getLsbD_twoPow, Nat.mod_lt m (Nat.succ_pos 7), decide_true, Bool.true_and]
    congr 1
    exact decide_eq_decide.mpr (by omega)
  · have hne : n ≠ m := by
      rintro rfl
      exact hbyte rfl
    simp [hbyte, hne]

/-- The bitmap after the first ports. -/
structure Checked (hub : Hub) (k : ℕ) (r : List (BitVec 8) × Bool) : Prop where
  length : r.1.length = hubStatusSize
  marked : ∀ n, bitmap r.1 n = true ↔ ∃ p < k, n = p + 1 ∧ hub.changed p = true
  any : r.2 = true ↔ ∃ p < k, hub.changed p = true

theorem checked_loop (hub : Hub) {k : ℕ} (hk : k ≤ vhciNports) :
    Checked hub k ((List.range k).foldl (checkPort hub)
      (List.replicate hubStatusSize 0, false)) := by
  induction k with
  | zero =>
    refine ⟨List.length_replicate, ?_, by simp⟩
    intro n
    have hzero : bitmap (List.replicate hubStatusSize 0) n = false := by
      rw [bitmap, List.getD_eq_getElem?_getD, List.getElem?_replicate]
      split <;> exact BitVec.getLsbD_zero
    change bitmap (List.replicate hubStatusSize 0) n = true ↔ _
    rw [hzero]
    simp
  | succ k ih =>
    have h := ih (Nat.le_of_succ_le hk)
    rw [List.range_succ, List.foldl_append, List.foldl_cons, List.foldl_nil, checkPort]
    split
    next hchanged =>
      have hroom : (k + 1) / 8 < hubStatusSize := by
        have hsize : hubStatusSize = 2 := rfl
        have hports : vhciNports = 8 := rfl
        omega
      refine ⟨by rw [List.length_modify, h.length], ?_, ?_⟩
      · intro n
        rw [bitmap_modify (h.length.symm ▸ hroom), Bool.or_eq_true, h.marked, decide_eq_true_iff]
        constructor
        · rintro (⟨p, hp, hn, hc⟩ | rfl)
          · exact ⟨p, Nat.lt_succ_of_lt hp, hn, hc⟩
          · exact ⟨k, Nat.lt_succ_self k, rfl, hchanged⟩
        · rintro ⟨p, hp, hn, hc⟩
          rcases Nat.lt_succ_iff_lt_or_eq.mp hp with hp | rfl
          · exact .inl ⟨p, hp, hn, hc⟩
          · exact .inr hn
      · exact iff_of_true rfl ⟨k, Nat.lt_succ_self k, hchanged⟩
    next hsame =>
      have hstep : ∀ {P : ℕ → Prop}, (∃ p < k + 1, P p ∧ hub.changed p = true) ↔
          ∃ p < k, P p ∧ hub.changed p = true := by
        intro P
        constructor
        · rintro ⟨p, hp, hP, hc⟩
          rcases Nat.lt_succ_iff_lt_or_eq.mp hp with hp | rfl
          · exact ⟨p, hp, hP, hc⟩
          · exact absurd hc hsame
        · rintro ⟨p, hp, hP, hc⟩
          exact ⟨p, Nat.lt_succ_of_lt hp, hP, hc⟩
      refine ⟨h.length, fun n => (h.marked n).trans hstep.symm, h.any.trans ?_⟩
      have htrue := @hstep fun _ => True
      simp only [true_and] at htrue
      exact htrue.symm

/-- **What `vhci_hub_status` reports** of an accessible controller: the ports that have changed,
and no other bit. -/
theorem vhciHubStatus_reports (suspended : Bool) (hub : Hub) :
    (∀ n, bitmap (vhciHubStatus true suspended hub).buf n = true ↔
      ∃ p < vhciNports, n = p + 1 ∧ hub.changed p = true) ∧
    (vhciHubStatus true suspended hub).retval =
      (if (∃ p < vhciNports, hub.changed p = true) then (hubStatusSize : ℤ) else 0) := by
  have h := checked_loop hub (le_refl vhciNports)
  refine ⟨h.marked, ?_⟩
  rw [vhciHubStatus]
  dsimp only
  rw [if_neg (by simp)]
  exact if_congr h.any rfl rfl

/-! ### Changes stay -/

/-- The step clears the change of a connection at port `i`, with its own feature or with the
power. -/
def HubStep.acknowledges (i : ℤ) : HubStep → Bool
  | .request env typeReq wValue wIndex =>
    env.accessible && HubRequest.ofTypeReq typeReq == .clearPortFeature && rhportOf wIndex == i &&
      (wValue.toNat == usbPortFeatCConnection || wValue.toNat == usbPortFeatPower)
  | _ => false

/-- Port `i` keeps bit `k`. -/
def Keeps (k : ℕ) (i : ℤ) (s s' : HubRun) : Prop :=
  s.hub.shows i k = true → s'.hub.shows i k = true

variable {k : ℕ} {i : ℤ} {s s' s'' : HubRun} {w : BitVec 32} {wValue : BitVec 16}

namespace Keeps

theorem refl (s : HubRun) : Keeps k i s s := fun h => h

theorem trans (h : Keeps k i s s') (h' : Keeps k i s' s'') : Keeps k i s s'' := fun hs => h' (h hs)

theorem touch (h : Keeps k i s s') (a : HubAccess) : Keeps k i s (s'.touch a) := h

theorem orPort (h : Keeps k i s s') : Keeps k i s (s'.orPort i w) := by
  intro hs
  rw [HubRun.shows_orPort, h hs, Bool.true_or]

theorem andNotPort (h : Keeps k i s s') (hw : w.getLsbD k = false) :
    Keeps k i s (s'.andNotPort i w) := by
  intro hs
  rw [HubRun.shows_andNotPort, h hs, hw]
  rfl

theorem orSpeed (h : Keeps k i s s') (speed : UsbDeviceSpeed) :
    Keeps k i s (s'.orSpeed i speed) := by
  intro hs
  rw [shows_orSpeed, h hs, Bool.true_or]

end Keeps

/-- ClearPortFeature leaves the bits of other features alone, unless it is about the power. -/
theorem clearPortFeature_keeps (env : HubEnv) (s : HubRun) (i : ℤ) (hk : wValue.toNat ≠ k)
    (hpower : wValue.toNat ≠ usbPortFeatPower) : Keeps k i s (clearPortFeature env s i wValue) := by
  have hbit : (bit wValue.toNat).getLsbD k = false := by
    rw [getLsbD_bit, decide_eq_false hk, Bool.and_false]
  rw [clearPortFeature]
  by_cases hsuspend : wValue.toNat = usbPortFeatSuspend
  · rw [if_pos hsuspend]
    dsimp only
    split <;> exact Keeps.refl s
  rw [if_neg hsuspend, if_neg hpower]
  dsimp only
  split
  · exact ((((Keeps.refl s).touch _).orSpeed _).touch _).andNotPort hbit
  · exact ((Keeps.refl s).touch _).andNotPort hbit

/-- SetPortFeature takes no bits away but, for a reset, those of an enabled port. -/
theorem setPortFeature_keeps (env : HubEnv) (s : HubRun) (i : ℤ)
    (hk : (usbPortStatEnable ||| usbPortStatLowSpeed ||| usbPortStatHighSpeed).getLsbD k = false) :
    Keeps k i s (setPortFeature env s i wValue) := by
  rw [setPortFeature]
  split
  · exact .refl s
  dsimp only
  split
  · split
    · exact ((Keeps.refl s).andNotPort hk).orPort
    · exact (Keeps.refl s).orPort
  · exact (Keeps.refl s).orPort

/-- The end of a resume or a reset takes away the bit that it ends. -/
theorem getPortStatus_keeps (env : HubEnv) (s : HubRun) (i : ℤ) (wIndex : BitVec 16)
    (hsuspend : k ≠ usbPortFeatSuspend) (hreset : k ≠ usbPortFeatReset) :
    Keeps k i s (getPortStatus env s i wIndex).run := by
  have hbit : ∀ n, k ≠ n → (bit n).getLsbD k = false := by
    intro n hn
    rw [getLsbD_bit, decide_eq_false hn.symm, Bool.and_false]
  have hresume : Keeps k i s (endResume env s i) := by
    rw [endResume]
    split
    · exact (Keeps.refl s).orPort.andNotPort (hbit _ hsuspend)
    · exact .refl s
  have hend : ∀ t, Keeps k i t (endReset env t i) := by
    intro t
    rw [endReset]
    dsimp only
    split
    · have h : Keeps k i t ((((t.touch (.portStatus i)).orPort i
          (bit usbPortFeatCReset)).andNotPort i (bit usbPortFeatReset)).setReTimeout 0) :=
        (Keeps.refl t).orPort.andNotPort (hbit _ hreset)
      split
      · exact h.orPort
      · exact h
    · exact .refl t
  exact hresume.trans (hend _)

/-- A request for another port keeps every bit of this one. -/
theorem hubRequest_keeps_other (env : HubEnv) (r : HubRequest) (s : HubRun) {j : ℤ}
    (wIndex : BitVec 16) (hj : i ≠ j) : Keeps k i s (hubRequest env r s j wValue wIndex).run := by
  intro hs
  rw [Hub.shows, (hubRequest_local env r s j wValue wIndex).ports i hj]
  exact hs

/-- **A change stays** in every step that does not acknowledge it. -/
theorem change_step {t t' : HubSys} {a : HubStep} (ha : a.acknowledges i = false)
    (hs : t.hub.shows i usbPortFeatCConnection = true) (hstep : hubMachine.step t a = some t') :
    t'.hub.shows i usbPortFeatCConnection = true := by
  cases a with
  | attach rhport speed =>
    obtain ⟨hub, hattach, rfl⟩ := Option.map_eq_some_iff.mp hstep
    rw [storeAttach] at hattach
    split at hattach
    · cases hattach
    split at hattach
    · cases hattach
    obtain rfl := Option.some.inj hattach
    exact hs
  | connect rhport speed =>
    obtain ⟨-, hs'⟩ := Option.ite_none_right_eq_some.mp hstep
    obtain rfl := Option.some.inj hs'
    by_cases hi : i = rhport
    · subst hi
      exact ((Keeps.refl ⟨t.hub, []⟩).orPort.orSpeed speed) hs
    · change (rhPortConnect t.hub rhport speed).shows i _ = true
      rw [Hub.shows, (rhPortConnect_speedSet t.hub rhport speed).others i hi]
      exact hs
  | disconnect rhport =>
    obtain ⟨-, hs'⟩ := Option.ite_none_right_eq_some.mp hstep
    obtain rfl := Option.some.inj hs'
    by_cases hi : i = rhport
    · subst hi
      exact ((Keeps.refl ⟨t.hub, []⟩).andNotPort (by decide)).orPort hs
    · have hlocal : Local rhport 0 ⟨t.hub, []⟩ (((⟨t.hub, []⟩ : HubRun).andNotPort rhport
          usbPortStatConnection).orPort rhport (bit usbPortFeatCConnection)) :=
        (Local.refl _).andNotPort.orPort
      change (rhPortDisconnect t.hub rhport).shows i _ = true
      rw [Hub.shows, rhPortDisconnect, hlocal.ports i hi]
      exact hs
  | reset rhport =>
    obtain ⟨-, hs'⟩ := Option.ite_none_right_eq_some.mp hstep
    obtain rfl := Option.some.inj hs'
    exact hs
  | unusable rhport =>
    obtain ⟨-, hs'⟩ := Option.ite_none_right_eq_some.mp hstep
    obtain rfl := Option.some.inj hs'
    exact hs
  | setAddress rhport =>
    obtain ⟨hub, haddr, rfl⟩ := Option.map_eq_some_iff.mp hstep
    rw [setAddress] at haddr
    split at haddr
    · cases haddr
    obtain rfl := Option.some.inj haddr
    exact hs
  | request env typeReq wValue wIndex =>
    obtain ⟨-, hs'⟩ := Option.ite_none_right_eq_some.mp hstep
    obtain rfl := Option.some.inj hs'
    dsimp only
    rcases hacc : env.accessible with _ | _
    · rw [vhciHubControl_hub_of_not_accessible hacc]
      exact hs
    rw [vhciHubControl_hub hacc]
    by_cases hi : i = rhportOf wIndex
    · rw [HubStep.acknowledges, hacc, ← hi] at ha
      rw [← hi]
      generalize HubRequest.ofTypeReq typeReq = r at ha
      cases r with
      | clearPortFeature =>
        have hvalues : wValue.toNat ≠ usbPortFeatCConnection ∧
            wValue.toNat ≠ usbPortFeatPower := by simpa using ha
        exact clearPortFeature_keeps env ⟨t.hub, oldWords env⟩ i hvalues.1 hvalues.2 hs
      | setPortFeature => exact setPortFeature_keeps env ⟨t.hub, oldWords env⟩ i (by decide) hs
      | getPortStatus =>
        exact getPortStatus_keeps env ⟨t.hub, oldWords env⟩ i wIndex (by decide) (by decide) hs
      | clearHubFeature => exact hs
      | getHubDescriptor => exact hs
      | getHubStatus => exact hs
      | setHubFeature => exact hs
      | other => exact hs
    · exact hubRequest_keeps_other env _ ⟨t.hub, oldWords env⟩ wIndex hi hs

/-- A device that comes or goes sets the change bit of its port. -/
theorem change_set {t t' : HubSys} {a : HubStep} {p : ℕ} {speed : UsbDeviceSpeed}
    (ha : a = .connect p speed ∨ a = .disconnect p) (hstep : hubMachine.step t a = some t') :
    t'.hub.shows p usbPortFeatCConnection = true := by
  rcases ha with rfl | rfl
  · obtain ⟨-, hs'⟩ := Option.ite_none_right_eq_some.mp hstep
    obtain rfl := Option.some.inj hs'
    change (rhPortConnect t.hub p speed).shows p _ = true
    rw [rhPortConnect, shows_orSpeed, HubRun.shows_orPort, BitVec.getLsbD_or, getLsbD_bit]
    simp [usbPortFeatCConnection]
  · obtain ⟨-, hs'⟩ := Option.ite_none_right_eq_some.mp hstep
    obtain rfl := Option.some.inj hs'
    change (rhPortDisconnect t.hub p).shows p _ = true
    rw [rhPortDisconnect, HubRun.shows_orPort, getLsbD_bit]
    simp [usbPortFeatCConnection]

/-- The bit is one of those that count. -/
theorem changed_of_shows {p : ℕ} (h : hub.shows p usbPortFeatCConnection = true) :
    hub.changed p = true := by
  rw [Hub.changed, bne_iff_ne]
  intro hzero
  have hbit := congrArg (BitVec.getLsbD · usbPortFeatCConnection) hzero
  have hmask : portCMask.getLsbD usbPortFeatCConnection = true := by decide
  rw [Hub.shows] at h
  simp only [BitVec.getLsbD_and, h, hmask, Bool.and_self] at hbit
  cases hbit

/-- **No change of a connection is lost**: from the step in which a device has come to a port or
gone from it, in every run in which the hub driver does not clear that change or the power of the
port, `vhci_hub_status` reports the port, and wakes a root hub that is suspended. -/
theorem connection_change_reported {t t₁ t₂ : HubSys} {a : HubStep} {as : List HubStep} {p : ℕ}
    {speed : UsbDeviceSpeed} (hp : p < vhciNports)
    (ha : a = .connect p speed ∨ a = .disconnect p) (hstep : hubMachine.step t a = some t₁)
    (hrun : hubMachine.Via (fun _ b => b.acknowledges p = false) t₁ as t₂) (suspended : Bool) :
    bitmap (vhciHubStatus true suspended t₂.hub).buf (p + 1) = true ∧
      (vhciHubStatus true suspended t₂.hub).retval = hubStatusSize ∧
      (vhciHubStatus true suspended t₂.hub).resume = suspended := by
  have hshows : t₂.hub.shows p usbPortFeatCConnection = true :=
    Machine.Via.invariant (I := fun t => t.hub.shows p usbPortFeatCConnection = true)
      (fun t b t' ht hb hs => change_step hb ht hs) (change_set ha hstep) hrun
  have hchanged := changed_of_shows hshows
  have hany : ∃ p < vhciNports, t₂.hub.changed p = true := ⟨p, hp, hchanged⟩
  obtain ⟨hmarked, hretval⟩ := vhciHubStatus_reports suspended t₂.hub
  refine ⟨(hmarked (p + 1)).mpr ⟨p, hp, rfl, hchanged⟩, hretval.trans (if_pos hany), ?_⟩
  have hloop := (checked_loop t₂.hub (le_refl vhciNports)).any.mpr hany
  rw [vhciHubStatus]
  dsimp only
  rw [if_neg (by simp), hloop, Bool.and_true]

/-- A high-speed device is at port 1, and `store_attach` has left its lock. -/
def attachedHigh : Hub := HubSys.start.hub.setVdev 0 ⟨.high, .notAssigned⟩

/-- The hub driver asks for the status of the port, and resets it, before it looks at the bitmap. -/
def resetFirst : List HubStep :=
  [.request (hubEnv 0) 0xa300 0 1, .request (hubEnv 0) 0x2303 4 1,
    .request (hubEnv 100) 0xa300 0 1, .request (hubEnv 100) 0x2301 20 1, .setAddress 0,
    .disconnect 0]

theorem connection_change_reported_reset :
    ∃ t₂, hubMachine.runWhere (fun _ b => b.acknowledges (0 : ℕ) = false)
        ⟨rhPortConnect attachedHigh 0 .high, []⟩ resetFirst = some t₂ ∧
      bitmap (vhciHubStatus true true t₂.hub).buf (0 + 1) = true ∧
      (vhciHubStatus true true t₂.hub).retval = hubStatusSize ∧
      (vhciHubStatus true true t₂.hub).resume = true := by
  have hrun : (hubMachine.runWhere (fun _ b => b.acknowledges (0 : ℕ) = false)
      ⟨rhPortConnect attachedHigh 0 .high, []⟩ resetFirst).isSome = true := by decide
  obtain ⟨t₂, ht₂⟩ := Option.isSome_iff_exists.mp hrun
  have hstep : hubMachine.step ⟨attachedHigh, [(0, .high)]⟩ (.connect 0 .high) =
      some ⟨rhPortConnect attachedHigh 0 .high, []⟩ := rfl
  exact ⟨t₂, ht₂, connection_change_reported (by decide) (.inl rfl) hstep (.of_runWhere ht₂) true⟩

end Usbip.Vhci
