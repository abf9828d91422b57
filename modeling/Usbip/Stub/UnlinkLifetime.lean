import Usbip.Stub.Conservation

/-!
# How long an unlinked request is used

`Device` takes the rest of `stub_recv_cmd_unlink` as one step. Here it is cut at its three uses of
the `stub_priv` that it has marked: `usb_unlink_urb(priv->urb)` is called, it returns, and
`priv->urb` is read once more for a message unless the result is `-EINPROGRESS`. All of that is
outside `priv_lock`, and the flag that was set under it makes `stub_complete` free the entry.

`unlink_kept` says that the entry is there at each of these uses and that each CMD_UNLINK keeps
its answer, as long as every step is `timely`; and that the first step that is not ends one of the
two. There are two ways for that on a healthy connection: the URB completes in one of the windows,
or a second CMD_UNLINK names the number that the first one has written into the entry.
-/

namespace Usbip.Stub

open ListWalk

/-- `-EINPROGRESS`, the result of `usb_unlink_urb` when the driver has been asked to stop the
URB. -/
def einprogress : ℤ := -115

/-- Where `stub_recv_cmd_unlink` stands after it has marked an entry and released `priv_lock`. -/
inductive UnlinkStage
  /-- about to read `priv->urb` and to call `usb_unlink_urb` -/
  | call
  /-- in `usb_unlink_urb` -/
  | running
  /-- about to test the result; any other than `-EINPROGRESS` is reported with `priv->urb` -/
  | returned (ret : ℤ)
  deriving DecidableEq, Repr

/-- A device whose receive thread is watched inside `stub_recv_cmd_unlink`. `stage` counts while
the thread is there with an entry. -/
structure UnlinkingDevice where
  dev : StubDevice
  stage : UnlinkStage

/-- The steps: those of the device, with the call of `usb_unlink_urb` cut into three. -/
inductive UnlinkAct
  | dev (a : Act)
  | callUnlinkUrb
  | returnUnlinkUrb (ret : ℤ)
  | leaveUnlink
  deriving DecidableEq, Repr

/-- The entry carries the number of a CMD_UNLINK. -/
def StubDevice.isUnlinking (s : StubDevice) (id : ℕ) : Bool :=
  s.privInit.any fun p => p.id == id && p.unlinking

/-- How many CMD_UNLINKs of this number are to be answered, have been answered, or were given up
by the transmit thread. -/
def StubDevice.unlinkAnswers (s : StubDevice) (q : BitVec 32) : ℕ :=
  s.owedUnlinks.count q + seen StubEvent.unlinkReply s.log q +
    seen StubEvent.unlinkGivenUp s.log q

instance (s : StubDevice) : Decidable s.Drained :=
  inferInstanceAs (Decidable (s.privInit = [] ∧ s.privTx = [] ∧ s.privFree = [] ∧
    s.unlinkTx = [] ∧ s.unlinkFree = []))

namespace UnlinkingDevice

/-- A step of the device. -/
def devStep (s : UnlinkingDevice) : Act → Option UnlinkingDevice
  | .rxUnlinkUrb => none
  | .rxPdu alloc => (s.dev.step (.rxPdu alloc)).map fun dev => ⟨dev, .call⟩
  | a => (s.dev.step a).map fun dev => { s with dev := dev }

/-- `usb_unlink_urb` is called for the URB of the entry. -/
def callUnlinkUrb (s : UnlinkingDevice) : Option UnlinkingDevice :=
  match s.dev.rx with
  | .unlinkUrb _ => if s.stage = .call then some { s with stage := .running } else none
  | _ => none

/-- `usb_unlink_urb` returns. -/
def returnUnlinkUrb (s : UnlinkingDevice) (ret : ℤ) : Option UnlinkingDevice :=
  match s.dev.rx with
  | .unlinkUrb _ => if s.stage = .running then some { s with stage := .returned ret } else none
  | _ => none

/-- The end of `stub_recv_cmd_unlink`, with the message if there is one. -/
def leaveUnlink (s : UnlinkingDevice) : Option UnlinkingDevice :=
  match s.stage with
  | .returned _ => s.dev.usbUnlinkUrb.map fun dev => { s with dev := dev }
  | _ => none

def step (s : UnlinkingDevice) : UnlinkAct → Option UnlinkingDevice
  | .dev a => s.devStep a
  | .callUnlinkUrb => s.callUnlinkUrb
  | .returnUnlinkUrb ret => s.returnUnlinkUrb ret
  | .leaveUnlink => s.leaveUnlink

/-- The entry that `stub_recv_cmd_unlink` is about to pass to `usb_unlink_urb`, or to read. -/
def inHand (s : UnlinkingDevice) : Option ℕ :=
  match s.dev.rx, s.stage with
  | .unlinkUrb id, .call => some id
  | .unlinkUrb id, .returned ret => if ret = einprogress then none else some id
  | _, _ => none

/-- **What an unlink relies on**: the entry that is passed to `usb_unlink_urb` or read has not been
freed, and every CMD_UNLINK received is answered, given up with the connection, or still to be
answered under its own number, by `unlink_tx` or by the completion of a URB in flight. -/
structure Kept (s : UnlinkingDevice) : Prop where
  held : ∀ id, s.inHand = some id → id ∈ s.dev.live
  answers : ∀ q, s.dev.unlinkAnswers q = seen StubEvent.unlink s.dev.log q
  in_flight : ∀ p ∈ s.dev.privInit, p.unlinking = true → p.id ∈ s.dev.inFlight

/-- **In time**: a CMD_UNLINK finds a URB in flight that no other CMD_UNLINK has found, or nothing,
and then a reply can be queued; a URB that is being unlinked completes with a reply, and not when
its entry is about to be passed on or read; `usb_unlink_urb` says `-EINPROGRESS` if the entry has
been freed meanwhile. -/
def timely (s : UnlinkingDevice) : UnlinkAct → Bool
  | .dev (.rxPdu alloc) =>
    match s.dev.input with
    | .cmdUnlink _ target :: _ =>
      match findSplit (fun p => p.seqnum == ofU32 target) s.dev.privInit with
      | some (_, p, _) => !p.unlinking && decide (p.id ∈ s.dev.inFlight)
      | none => alloc
    | _ => true
  | .dev (.complete id status alloc) =>
    !s.dev.isUnlinking id || (decide (status ≠ enoent) && alloc && s.inHand != some id)
  | .returnUnlinkUrb ret =>
    match s.dev.rx with
    | .unlinkUrb id => decide (ret = einprogress) || decide (id ∈ s.dev.live)
    | _ => true
  | _ => true

end UnlinkingDevice

/-- One connection, with the calls of `usb_unlink_urb` in sight. -/
def unlinkingDevice (requests : List Request) : Machine UnlinkingDevice UnlinkAct :=
  ⟨⟨connected requests, .call⟩, UnlinkingDevice.step⟩

/-! ### Steps that leave the unlinked entries alone -/

namespace StubDevice

variable {s s' : StubDevice}

/-- What an unlink sees of a step that neither reads a request nor completes a URB. -/
structure LeavesUnlinks (s s' : StubDevice) : Prop where
  privInit : s'.privInit = s.privInit
  inFlight : ∀ id ∈ s.inFlight, id ∈ s'.inFlight
  rx : ∀ id, s'.rx = .unlinkUrb id → s.rx = .unlinkUrb id
  live : ∀ id ∈ s'.live, id ∈ s.live
  answers : ∀ q, s'.unlinkAnswers q = s.unlinkAnswers q
  received : ∀ q, seen StubEvent.unlink s'.log q = seen StubEvent.unlink s.log q

/-- The receive thread has moved. -/
theorem LeavesUnlinks.of_rx (hinit : s'.privInit = s.privInit)
    (hfl : ∀ id ∈ s.inFlight, id ∈ s'.inFlight) (hrx : ∀ id, s'.rx ≠ .unlinkUrb id)
    (hlive : s'.live = s.live) (hutx : s'.unlinkTx = s.unlinkTx) (htx : s'.tx = s.tx)
    (hlog : s'.log = s.log) : LeavesUnlinks s s' where
  privInit := hinit
  inFlight := hfl
  rx id h := absurd h (hrx id)
  live _ hid := hlive ▸ hid
  answers q := by simp only [unlinkAnswers, owedUnlinks, hinit, hutx, htx, hlog]
  received q := by rw [hlog]

/-- The transmit thread has moved. -/
theorem LeavesUnlinks.of_tx (hinit : s'.privInit = s.privInit) (hfl : s'.inFlight = s.inFlight)
    (hrx : s'.rx = s.rx) (hlive : ∀ id ∈ s'.live, id ∈ s.live)
    (hanswers : ∀ q, s'.unlinkAnswers q = s.unlinkAnswers q)
    (hreceived : ∀ q, seen StubEvent.unlink s'.log q = seen StubEvent.unlink s.log q) :
    LeavesUnlinks s s' where
  privInit := hinit
  inFlight _ hid := hfl ▸ hid
  rx _ h := hrx ▸ h
  live := hlive
  answers := hanswers
  received := hreceived

/-- Steps of this kind leave the unlinks alone. The replies that wait in `unlink_tx`, the one in
hand and those in the history are together the same. -/
theorem leavesUnlinks_of_step {a : Act} (hs : s.step a = some s')
    (hread : ∀ alloc, a ≠ .rxPdu alloc)
    (hcomplete : ∀ id status alloc, a ≠ .complete id status alloc) : LeavesUnlinks s s' := by
  cases moves_of_step hs with
  | cmdSubmit hrx hin alloc | cmdUnlinkFound hrx hin hwalk alloc
  | cmdUnlinkMissed hrx hin hwalk alloc | invalid hrx hin alloc => exact absurd rfl (hread alloc)
  | killed hid alloc | unlinked hid hstatus hwalk hunl alloc
  | completed hid hstatus hwalk hunl alloc => exact absurd rfl (hcomplete _ _ alloc)
  | built hrx | notBuilt hrx | notSubmitted hrx | unlinkUrb hrx | rxStop hrx hevent =>
    exact .of_rx rfl (fun _ hid => hid) (by simp) rfl rfl rfl rfl
  | submitted hrx =>
    exact .of_rx rfl (fun _ hid => List.mem_append_left _ hid) (by simp) rfl rfl rfl rfl
  | submitsDone htx hempty | submitTaken htx hp | unlinksDone htx hempty | freeUnlinks htx
  | txStop htx hevent | txWake htx hevent =>
    refine .of_tx rfl rfl rfl (fun _ hid => hid) (fun q => ?_) fun q => rfl
    simp [unlinkAnswers, owedUnlinks, TxPc.sendingUnlink, htx]
  | retSubmit htx | unsentSubmit htx =>
    refine .of_tx rfl rfl rfl (fun _ hid => hid) (fun q => ?_) fun q => by simp
    simp [unlinkAnswers, owedUnlinks, TxPc.sendingUnlink, htx]
  | freePrivs htx =>
    refine .of_tx rfl rfl rfl (fun _ hid => (List.diff_sublist _ _).subset hid) (fun q => ?_)
      fun q => rfl
    simp [unlinkAnswers, owedUnlinks, TxPc.sendingUnlink, htx]
  | unlinkTaken htx hu =>
    refine .of_tx rfl rfl rfl (fun _ hid => hid) (fun q => ?_) fun q => rfl
    simp [unlinkAnswers, owedUnlinks, TxPc.sendingUnlink, htx, hu, List.count_cons]
  | retUnlink htx | unsentUnlink htx =>
    refine .of_tx rfl rfl rfl (fun _ hid => hid) (fun q => ?_) fun q => by simp
    simp [unlinkAnswers, owedUnlinks, TxPc.sendingUnlink, htx, List.count_cons]
    omega

end StubDevice

/-! ### The invariant -/

/-- The invariant as long as every step is in time. An entry that is still allocated while
`stub_recv_cmd_unlink` works with it waits on `priv_init` for its completion. -/
structure UnlinkInv (s : UnlinkingDevice) : Prop where
  lists : ListInv s.dev
  kept : s.Kept
  marked : ∀ id, s.dev.rx = .unlinkUrb id → id ∈ s.dev.live →
    ∃ p ∈ s.dev.privInit, p.id = id ∧ p.unlinking = true

/-- An entry on `priv_init` is allocated. -/
theorem ListInv.live_of_init {s : StubDevice} (h : ListInv s) {p : StubPriv}
    (hp : p ∈ s.privInit) : p.id ∈ s.live := by
  have hmem : p ∈ s.privs := List.mem_append_left _ (List.mem_append_left _ hp)
  exact h.linked.subset (List.mem_map_of_mem hmem)

/-- No entry is twice on `priv_init`. -/
theorem ListInv.init_nodup {s : StubDevice} (h : ListInv s) : (s.privInit.map (·.id)).Nodup := by
  have hnd : (s.privs.map (·.id)).Nodup := h.linked.nodup_iff.mpr h.nodup
  rw [StubDevice.privs, List.append_assoc, List.map_append] at hnd
  exact hnd.of_append_left

namespace UnlinkInv

variable {s s' : UnlinkingDevice}

theorem rx_of_inHand {id : ℕ} (h : s.inHand = some id) : s.dev.rx = .unlinkUrb id := by
  unfold UnlinkingDevice.inHand at h
  split at h
  next i hrx _ => rw [hrx, Option.some.inj h]
  next i ret hrx _ =>
    obtain ⟨-, h⟩ := Option.ite_none_left_eq_some.mp h
    rw [hrx, Option.some.inj h]
  · cases h

/-- What is in hand depends on the receive thread only. -/
theorem inHand_congr {dev : StubDevice} (hrx : dev.rx = s.dev.rx) :
    UnlinkingDevice.inHand { s with dev := dev } = s.inHand := by
  simp only [UnlinkingDevice.inHand, hrx]

/-- What is in hand waits for its completion. -/
theorem exists_of_inHand (h : UnlinkInv s) {id : ℕ} (hid : s.inHand = some id) :
    ∃ p ∈ s.dev.privInit, p.id = id ∧ p.unlinking = true :=
  h.marked id (rx_of_inHand hid) (h.kept.held id hid)

/-- A step that neither reads a request nor completes a URB. -/
theorem leaves (h : UnlinkInv s) {dev : StubDevice} (hlists : ListInv dev)
    (hl : s.dev.LeavesUnlinks dev) : UnlinkInv { s with dev := dev } := by
  refine ⟨hlists, ⟨?_, ?_, ?_⟩, ?_⟩
  · intro id hid
    have hrx' : dev.rx = .unlinkUrb id := rx_of_inHand hid
    have hrx : dev.rx = s.dev.rx := hrx'.trans (hl.rx id hrx').symm
    obtain ⟨p, hp, rfl, -⟩ := h.exists_of_inHand ((inHand_congr hrx).symm.trans hid)
    exact hlists.live_of_init (hl.privInit ▸ hp)
  · intro q
    exact (hl.answers q).trans ((h.kept.answers q).trans (hl.received q).symm)
  · intro p hp hunl
    exact hl.inFlight p.id (h.kept.in_flight p (hl.privInit ▸ hp) hunl)
  · intro id hrx hlive
    obtain ⟨p, hp, hpid⟩ := h.marked id (hl.rx id hrx) (hl.live id hlive)
    exact ⟨p, hl.privInit ▸ hp, hpid⟩

/-- The receive thread is not in `stub_recv_cmd_unlink` with an entry. -/
theorem of_rx_ne (hlists : ListInv s.dev) (hrx : ∀ id, s.dev.rx ≠ .unlinkUrb id)
    (hanswers : ∀ q, s.dev.unlinkAnswers q = seen StubEvent.unlink s.dev.log q)
    (hfl : ∀ p ∈ s.dev.privInit, p.unlinking = true → p.id ∈ s.dev.inFlight) : UnlinkInv s where
  lists := hlists
  kept := ⟨fun id hid => absurd (rx_of_inHand hid) (hrx id), hanswers, hfl⟩
  marked id h := absurd h (hrx id)

/-- A CMD_UNLINK is in time: a record that it finds is in flight and unmarked, and it is answered
at once when it finds none. -/
theorem timely_cmdUnlink {alloc : Bool} {q t : BitVec 32} {rest : List Request}
    (hin : s.dev.input = .cmdUnlink q t :: rest) :
    s.timely (.dev (.rxPdu alloc)) =
      match findSplit (fun p => p.seqnum == ofU32 t) s.dev.privInit with
      | some (_, p, _) => !p.unlinking && decide (p.id ∈ s.dev.inFlight)
      | none => alloc := by
  simp only [UnlinkingDevice.timely, hin]

theorem rxPdu (h : UnlinkInv s) {alloc : Bool} {dev : StubDevice}
    (hok : s.timely (.dev (.rxPdu alloc)) = true) (hs : s.dev.stubRxPdu alloc = some dev) :
    UnlinkInv ⟨dev, .call⟩ := by
  have hlists : ListInv dev := h.lists.step (a := .rxPdu alloc) hs
  cases StubDevice.moves_rxPdu hs with
  | cmdSubmit hrx hin =>
    -- the new record is not marked
    cases alloc with
    | true =>
      refine of_rx_ne hlists (fun id => by simp [StubDevice.stubPrivAlloc]) (fun n => ?_) ?_
      · have hn := h.kept.answers n
        simpa [StubDevice.stubPrivAlloc, StubDevice.unlinkAnswers, StubDevice.owedUnlinks] using hn
      · intro p hp hunl
        rcases List.mem_append.mp hp with hp | hp
        · exact h.kept.in_flight p hp hunl
        · obtain rfl := List.mem_singleton.mp hp
          cases hunl
    | false =>
      exact of_rx_ne hlists (fun id => by simp [StubDevice.stubPrivAlloc]) h.kept.answers
        h.kept.in_flight
  | @cmdUnlinkFound q t rest pre post p hrx hin hwalk =>
    -- the record found takes over the number
    rw [timely_cmdUnlink hin, hwalk] at hok
    obtain ⟨hunl, hfl⟩ : p.unlinking = false ∧ p.id ∈ s.dev.inFlight := by simpa using hok
    obtain ⟨hl, -, -⟩ := findSplit_eq_some hwalk
    refine ⟨hlists, ⟨?_, ?_, ?_⟩, ?_⟩
    · intro id hid
      obtain rfl : p.id = id := Option.some.inj hid
      exact h.lists.live_of_init (by simp [hl])
    · intro n
      have hn := h.kept.answers n
      simp [StubDevice.markUnlinking, StubDevice.unlinkAnswers, StubDevice.owedUnlinks, hl, hunl,
        List.count_cons] at hn ⊢
      omega
    · intro r hr hrunl
      rcases List.mem_append.mp hr with hr | hr
      · exact h.kept.in_flight r (by simp [hl, hr]) hrunl
      · rcases List.mem_cons.mp hr with rfl | hr
        · exact hfl
        · exact h.kept.in_flight r (by simp [hl, hr]) hrunl
    · intro id hid _
      obtain rfl : p.id = id := RxPc.unlinkUrb.inj hid
      exact ⟨{ p with unlinking := true, seqnum := ofU32 q },
        by simp [StubDevice.markUnlinking], rfl, rfl⟩
  | @cmdUnlinkMissed q t rest hrx hin hwalk =>
    rw [timely_cmdUnlink hin, hwalk] at hok
    obtain rfl : alloc = true := hok
    refine of_rx_ne hlists (fun id => ?_) (fun n => ?_) h.kept.in_flight
    · simp [StubDevice.stubEnqueueRetUnlink, StubDevice.note, hrx]
    · have hn := h.kept.answers n
      simp [StubDevice.stubEnqueueRetUnlink, StubDevice.note, StubDevice.unlinkAnswers,
        StubDevice.owedUnlinks, List.count_cons] at hn ⊢
      omega
  | invalid hrx hin =>
    exact of_rx_ne hlists (fun id => by simp [hrx]) h.kept.answers h.kept.in_flight

/-- Whether the completing URB is being unlinked is read off its record. -/
theorem isUnlinking_of_walk (h : ListInv s.dev) {id : ℕ} {pre post : List StubPriv} {p : StubPriv}
    (hwalk : findSplit (fun p => p.id == id) s.dev.privInit = some (pre, p, post)) :
    s.dev.isUnlinking id = p.unlinking := by
  obtain ⟨hl, hid, -⟩ := findSplit_eq_some hwalk
  have hp : p ∈ s.dev.privInit := by simp [hl]
  have hid : p.id = id := by simpa using hid
  apply Bool.eq_iff_iff.mpr
  constructor
  · intro hunl
    obtain ⟨r, hr, hr'⟩ := List.any_eq_true.mp hunl
    obtain ⟨hrid, hrunl⟩ : r.id = id ∧ r.unlinking = true := by simpa using hr'
    obtain rfl : r = p := List.inj_on_of_nodup_map h.init_nodup hr hp (hrid.trans hid.symm)
    exact hrunl
  · intro hunl
    exact List.any_eq_true.mpr ⟨p, hp, by simp [hid, hunl]⟩

/-- What is left on `priv_init` when the completed record is taken off has other numbers. -/
theorem id_ne_of_walk (h : ListInv s.dev) {id : ℕ} {pre post : List StubPriv} {p : StubPriv}
    (hl : s.dev.privInit = pre ++ p :: post) (hid : p.id = id) :
    ∀ r ∈ pre ++ post, r.id ≠ id := by
  have hnd := h.init_nodup
  rw [hl] at hnd
  have hnd := List.nodup_cons.mp ((List.perm_middle.map StubPriv.id).nodup_iff.mp hnd)
  intro r hr hrid
  exact hnd.1 (List.mem_map.mpr ⟨r, hr, hrid.trans hid.symm⟩)

/-- The other records stay on `priv_init`. -/
theorem mem_rest {l pre post : List StubPriv} {p r : StubPriv} (hl : l = pre ++ p :: post)
    (hr : r ∈ l) (hrp : r ≠ p) : r ∈ pre ++ post := by
  simpa [hl, hrp] using hr

/-- The URBs of the records that are left on `priv_init` are still in flight. -/
theorem in_flight_rest (h : UnlinkInv s) {id : ℕ} {pre post : List StubPriv} {p : StubPriv}
    (hl : s.dev.privInit = pre ++ p :: post) (hpid : p.id = id) :
    ∀ r ∈ pre ++ post, r.unlinking = true → r.id ∈ s.dev.inFlight.erase id := by
  intro r hr hunl
  refine (List.mem_erase_of_ne (id_ne_of_walk h.lists hl hpid r hr)).mpr
    (h.kept.in_flight r ?_ hunl)
  rcases List.mem_append.mp hr with hr | hr <;> simp [hl, hr]

theorem complete (h : UnlinkInv s) {id : ℕ} {status : ℤ} {alloc : Bool} {dev : StubDevice}
    (hok : s.timely (.dev (.complete id status alloc)) = true)
    (hs : s.dev.stubComplete id status alloc = some dev) : UnlinkInv { s with dev := dev } := by
  have hlists : ListInv dev := h.lists.step (a := .complete id status alloc) hs
  have hok : s.dev.isUnlinking id = true →
      (status ≠ enoent ∧ alloc = true) ∧ s.inHand ≠ some id := by
    intro hunl
    simpa [UnlinkingDevice.timely, hunl] using hok
  cases StubDevice.moves_complete hs with
  | killed hid =>
    -- a killed URB is not being unlinked
    refine ⟨hlists, ⟨h.kept.held, h.kept.answers, ?_⟩, h.marked⟩
    intro p hp hunl
    have hne : p.id ≠ id := by
      rintro rfl
      have hany : s.dev.isUnlinking p.id = true := List.any_eq_true.mpr ⟨p, hp, by simp [hunl]⟩
      exact (hok hany).1.1 rfl
    exact (List.mem_erase_of_ne hne).mpr (h.kept.in_flight p hp hunl)
  | @unlinked _ _ pre post p hid hstatus hwalk hunl =>
    -- the record is freed, with nobody about to use it
    obtain ⟨hl, hpid, -⟩ := findSplit_eq_some hwalk
    have hpid : p.id = id := by simpa using hpid
    obtain ⟨⟨-, rfl⟩, hhand⟩ := hok ((isUnlinking_of_walk h.lists hwalk).trans hunl)
    refine ⟨hlists, ⟨?_, ?_, h.in_flight_rest hl hpid⟩, ?_⟩
    · intro i hi
      have hi : s.inHand = some i := hi
      have hine : i ≠ p.id := by
        rintro rfl
        exact hhand (hpid ▸ hi)
      exact (List.mem_erase_of_ne hine).mpr (h.kept.held i hi)
    · intro n
      have hn := h.kept.answers n
      simp [StubDevice.completeUnlinking, StubDevice.stubEnqueueRetUnlink, StubDevice.urbDone,
        StubDevice.unlinkAnswers, StubDevice.owedUnlinks, hl, hunl, List.count_cons] at hn ⊢
      omega
    · intro i hrx hlive
      have hlive : i ∈ s.dev.live.erase p.id := hlive
      obtain ⟨hine, hlive⟩ := (List.Nodup.mem_erase_iff h.lists.nodup).mp hlive
      obtain ⟨r, hr, rfl, hrunl⟩ := h.marked i hrx hlive
      have hrp : r ≠ p := fun heq => hine (congrArg StubPriv.id heq)
      exact ⟨r, mem_rest hl hr hrp, rfl, hrunl⟩
  | @completed _ _ pre post p hid hstatus hwalk hunl =>
    obtain ⟨hl, hpid, -⟩ := findSplit_eq_some hwalk
    have hpid : p.id = id := by simpa using hpid
    refine ⟨hlists, ⟨h.kept.held, ?_, h.in_flight_rest hl hpid⟩, ?_⟩
    · intro n
      have hn := h.kept.answers n
      simpa [StubDevice.completeNormally, StubDevice.urbDone, StubDevice.unlinkAnswers,
        StubDevice.owedUnlinks, hl, hunl] using hn
    · intro i hrx hlive
      obtain ⟨r, hr, rfl, hrunl⟩ := h.marked i hrx hlive
      have hrp : r ≠ p := by
        rintro rfl
        simp [hunl] at hrunl
      exact ⟨r, mem_rest hl hr hrp, rfl, hrunl⟩

theorem callUnlinkUrb (h : UnlinkInv s) (hs : s.callUnlinkUrb = some s') : UnlinkInv s' := by
  unfold UnlinkingDevice.callUnlinkUrb at hs
  split at hs
  next i hrx =>
    obtain ⟨-, hs⟩ := Option.ite_none_right_eq_some.mp hs
    obtain rfl := Option.some.inj hs
    refine ⟨h.lists, ⟨?_, h.kept.answers, h.kept.in_flight⟩, h.marked⟩
    intro id hid
    simp [UnlinkingDevice.inHand, hrx] at hid
  · cases hs

theorem returnUnlinkUrb (h : UnlinkInv s) {ret : ℤ}
    (hok : s.timely (.returnUnlinkUrb ret) = true) (hs : s.returnUnlinkUrb ret = some s') :
    UnlinkInv s' := by
  unfold UnlinkingDevice.returnUnlinkUrb at hs
  split at hs
  next i hrx =>
    obtain ⟨-, hs⟩ := Option.ite_none_right_eq_some.mp hs
    obtain rfl := Option.some.inj hs
    have hok : ret = einprogress ∨ i ∈ s.dev.live := by
      simpa [UnlinkingDevice.timely, hrx] using hok
    refine ⟨h.lists, ⟨?_, h.kept.answers, h.kept.in_flight⟩, h.marked⟩
    intro id hid
    simp only [UnlinkingDevice.inHand, hrx] at hid
    obtain ⟨hret, hid⟩ := Option.ite_none_left_eq_some.mp hid
    exact Option.some.inj hid ▸ hok.resolve_left hret
  · cases hs

/-- The receive thread is done with the entry. -/
theorem leaveUnlink (h : UnlinkInv s) (hs : s.leaveUnlink = some s') : UnlinkInv s' := by
  unfold UnlinkingDevice.leaveUnlink at hs
  split at hs
  · obtain ⟨dev, hdev, rfl⟩ := Option.map_eq_some_iff.mp hs
    have hdev : s.dev.step .rxUnlinkUrb = some dev := hdev
    exact h.leaves (h.lists.step hdev) (StubDevice.leavesUnlinks_of_step hdev (by simp) (by simp))
  · cases hs

/-- Every step of the device that is in time keeps the invariant. -/
theorem devStep (h : UnlinkInv s) {a : Act} (hok : s.timely (.dev a) = true)
    (hs : s.devStep a = some s') : UnlinkInv s' := by
  cases a with
  | rxUnlinkUrb => cases hs
  | rxPdu alloc =>
    obtain ⟨dev, hdev, rfl⟩ := Option.map_eq_some_iff.mp hs
    exact h.rxPdu hok hdev
  | complete id status alloc =>
    obtain ⟨dev, hdev, rfl⟩ := Option.map_eq_some_iff.mp hs
    exact h.complete hok hdev
  | rxBuild ok | rxSubmit ok | rxStop | txDequeueSubmit | txSendSubmit ok | txFreePrivs
  | txDequeueUnlink | txSendUnlink ok | txFreeUnlinks | txWake =>
    obtain ⟨dev, hdev, rfl⟩ := Option.map_eq_some_iff.mp hs
    exact h.leaves (h.lists.step hdev) (StubDevice.leavesUnlinks_of_step hdev (by simp) (by simp))

/-- Every step that is in time keeps the invariant. -/
theorem step (h : UnlinkInv s) {a : UnlinkAct} (hok : s.timely a = true)
    (hs : s.step a = some s') : UnlinkInv s' := by
  cases a with
  | dev a => exact h.devStep hok hs
  | callUnlinkUrb => exact h.callUnlinkUrb hs
  | returnUnlinkUrb ret => exact h.returnUnlinkUrb hok hs
  | leaveUnlink => exact h.leaveUnlink hs

theorem init (requests : List Request) : UnlinkInv (unlinkingDevice requests).init where
  lists := ListInv.of_reachable (.init : (stubDevice requests).Reachable _)
  kept := ⟨fun _ hid => (by cases hid), fun _ => rfl, fun _ hp => (by cases hp)⟩
  marked _ hrx := by cases hrx

/-- The invariant holds as long as every step has been in time. -/
theorem of_reachableWhere {requests : List Request}
    (h : (unlinkingDevice requests).ReachableWhere (fun s a => s.timely a = true) s) :
    UnlinkInv s :=
  h.invariant (init requests) fun _ _ _ hs hok hstep => hs.step hok hstep

/-! ### Steps that are not in time -/

/-- A CMD_UNLINK takes an entry from another one, or finds one without a URB in flight, or cannot
queue its reply. -/
theorem not_kept_rxPdu (h : UnlinkInv s) {alloc : Bool} {dev : StubDevice} {stage : UnlinkStage}
    (hlate : ¬ s.timely (.dev (.rxPdu alloc)) = true) (hs : s.dev.stubRxPdu alloc = some dev) :
    ¬ UnlinkingDevice.Kept ⟨dev, stage⟩ := by
  intro hkept
  cases StubDevice.moves_rxPdu hs with
  | cmdSubmit hrx hin | invalid hrx hin => simp [UnlinkingDevice.timely, hin] at hlate
  | @cmdUnlinkMissed q t rest hrx hin hwalk =>
    -- nothing is queued for the number just received
    have halloc : alloc = false := by simpa [timely_cmdUnlink hin, hwalk] using hlate
    have hq := h.kept.answers q
    have hq' := hkept.answers q
    simp [halloc, StubDevice.stubEnqueueRetUnlink, StubDevice.note, StubDevice.unlinkAnswers,
      StubDevice.owedUnlinks] at hq hq'
    omega
  | @cmdUnlinkFound q t rest pre post p hrx hin hwalk =>
    obtain ⟨hl, hpt, -⟩ := findSplit_eq_some hwalk
    have hpt : p.seqnum = ofU32 t := by simpa using hpt
    have hlate : p.unlinking = false → p.id ∉ s.dev.inFlight := by
      simpa [timely_cmdUnlink hin, hwalk] using hlate
    by_cases hunl : p.unlinking = true
    · -- the number that the entry had is owed no more, but has not been answered
      have hq := h.kept.answers t
      have hq' := hkept.answers t
      simp [StubDevice.markUnlinking, hl, hunl, hpt, StubDevice.unlinkAnswers,
        StubDevice.owedUnlinks, List.count_cons] at hq hq'
      omega
    · refine hlate (by simpa using hunl) ?_
      have hfl := hkept.in_flight { p with unlinking := true, seqnum := ofU32 q }
      simpa [StubDevice.markUnlinking] using hfl

/-- A URB that is being unlinked is killed, or completes without a reply, or completes when its
entry is about to be used. -/
theorem not_kept_complete (h : UnlinkInv s) {id : ℕ} {status : ℤ} {alloc : Bool}
    {dev : StubDevice} (hlate : ¬ s.timely (.dev (.complete id status alloc)) = true)
    (hs : s.dev.stubComplete id status alloc = some dev) :
    ¬ UnlinkingDevice.Kept { s with dev := dev } := by
  intro hkept
  obtain ⟨hunl, hlate⟩ : s.dev.isUnlinking id = true ∧
      (status ≠ enoent → alloc = true → s.inHand = some id) := by
    simpa [UnlinkingDevice.timely] using hlate
  cases StubDevice.moves_complete hs with
  | killed hid =>
    -- the URB is gone and its entry stays
    obtain ⟨p, hp, hpid⟩ := List.any_eq_true.mp hunl
    obtain ⟨rfl, hpunl⟩ : p.id = id ∧ p.unlinking = true := by simpa using hpid
    have hfl : p.id ∈ s.dev.inFlight.erase p.id := hkept.in_flight p hp hpunl
    have hnd : s.dev.inFlight.Nodup := h.lists.inFlight_nodup.of_append_right
    exact hnd.not_mem_erase hfl
  | completed hid hstatus hwalk hpunl =>
    have hpunl' := (isUnlinking_of_walk h.lists hwalk).symm.trans hunl
    exact Bool.noConfusion (hpunl.symm.trans hpunl')
  | @unlinked _ _ pre post p hid hstatus hwalk hpunl =>
    obtain ⟨hl, hpid, -⟩ := findSplit_eq_some hwalk
    have hpid : p.id = id := by simpa using hpid
    cases alloc with
    | false =>
      have hq := h.kept.answers (toU32 p.seqnum)
      have hq' := hkept.answers (toU32 p.seqnum)
      simp [StubDevice.completeUnlinking, StubDevice.stubEnqueueRetUnlink, StubDevice.urbDone,
        StubDevice.unlinkAnswers, StubDevice.owedUnlinks, hl, hpunl] at hq hq'
      omega
    | true =>
      -- the entry in hand has been freed
      have hhand : s.inHand = some p.id := hpid ▸ hlate hstatus rfl
      have hlive : p.id ∈ s.dev.live.erase p.id := hkept.held p.id hhand
      exact h.lists.nodup.not_mem_erase hlive

/-- `usb_unlink_urb` fails for a URB that has been freed meanwhile. -/
theorem not_kept_returnUnlinkUrb {ret : ℤ}
    (hlate : ¬ s.timely (.returnUnlinkUrb ret) = true) (hs : s.returnUnlinkUrb ret = some s') :
    ¬ s'.Kept := by
  intro hkept
  unfold UnlinkingDevice.returnUnlinkUrb at hs
  split at hs
  next i hrx =>
    obtain ⟨-, hs⟩ := Option.ite_none_right_eq_some.mp hs
    obtain rfl := Option.some.inj hs
    obtain ⟨hret, hfree⟩ : ret ≠ einprogress ∧ i ∉ s.dev.live := by
      simpa [UnlinkingDevice.timely, hrx] using hlate
    exact hfree (hkept.held i (by simp [UnlinkingDevice.inHand, hrx, hret]))
  · cases hs

/-- The first step that is not in time breaks what the unlinks rely on. -/
theorem not_kept_of_late (h : UnlinkInv s) {a : UnlinkAct} (hlate : ¬ s.timely a = true)
    (hs : s.step a = some s') : ¬ s'.Kept := by
  cases a with
  | dev a =>
    cases a with
    | rxPdu alloc =>
      obtain ⟨dev, hdev, rfl⟩ := Option.map_eq_some_iff.mp hs
      exact h.not_kept_rxPdu hlate hdev
    | complete id status alloc =>
      obtain ⟨dev, hdev, rfl⟩ := Option.map_eq_some_iff.mp hs
      exact h.not_kept_complete hlate hdev
    | rxBuild ok | rxSubmit ok | rxUnlinkUrb | rxStop | txDequeueSubmit | txSendSubmit ok
    | txFreePrivs | txDequeueUnlink | txSendUnlink ok | txFreeUnlinks | txWake =>
      exact absurd rfl hlate
  | returnUnlinkUrb ret => exact not_kept_returnUnlinkUrb hlate hs
  | callUnlinkUrb | leaveUnlink => exact absurd rfl hlate

end UnlinkInv

/-! ### The lifetime of an unlink -/

/-- **Lifetime of an unlink**: as long as every step has been in time, the entry that
`stub_recv_cmd_unlink` passes to `usb_unlink_urb` or reads is allocated and each CMD_UNLINK keeps
its answer; and a step keeps it so exactly when it is in time. -/
theorem unlink_kept {requests : List Request} {s : UnlinkingDevice}
    (h : (unlinkingDevice requests).ReachableWhere (fun s a => s.timely a = true) s) :
    s.Kept ∧ ∀ a s', s.step a = some s' → (s'.Kept ↔ s.timely a = true) := by
  have hinv := UnlinkInv.of_reachableWhere h
  refine ⟨hinv.kept, fun a s' hs => ?_⟩
  constructor
  · intro hkept
    by_contra hlate
    exact hinv.not_kept_of_late hlate hs hkept
  · intro hok
    exact (hinv.step hok hs).kept

/-- A request is unlinked while its URB is in flight, and the reply is written. -/
def unlinkedInTime : List UnlinkAct :=
  [.dev (.rxPdu true), .dev (.rxBuild true), .dev (.rxSubmit true), .dev (.rxPdu true),
    .callUnlinkUrb, .returnUnlinkUrb einprogress, .leaveUnlink,
    .dev (.complete 0 econnreset true), .dev .txDequeueSubmit, .dev .txFreePrivs,
    .dev .txDequeueUnlink, .dev (.txSendUnlink true)]

theorem unlink_kept_unlinkedInTime :
    ∃ s, (unlinkingDevice [.cmdSubmit 1, .cmdUnlink 2 1]).runWhere (fun s a => s.timely a = true)
      (unlinkingDevice [.cmdSubmit 1, .cmdUnlink 2 1]).init unlinkedInTime = some s ∧
      (s.Kept ∧ ∀ a s', s.step a = some s' → (s'.Kept ↔ s.timely a = true)) :=
  Machine.exists_runWhere (m := unlinkingDevice [.cmdSubmit 1, .cmdUnlink 2 1]) (by decide)
    fun _ h => unlink_kept h

/-- The URB completes between the release of `priv_lock` and the call of `usb_unlink_urb`. -/
def completedBeforeUnlink : List UnlinkAct :=
  [.dev (.rxPdu true), .dev (.rxBuild true), .dev (.rxSubmit true), .dev (.rxPdu true),
    .dev (.complete 0 0 true)]

/-- A second CMD_UNLINK names the number of the first one; the URB completes, and all replies that
were queued are written. -/
def unlinkUnlinked : List UnlinkAct :=
  [.dev (.rxPdu true), .dev (.rxBuild true), .dev (.rxSubmit true), .dev (.rxPdu true),
    .callUnlinkUrb, .returnUnlinkUrb einprogress, .leaveUnlink, .dev (.rxPdu true),
    .callUnlinkUrb, .returnUnlinkUrb einprogress, .leaveUnlink,
    .dev (.complete 0 econnreset true), .dev .txDequeueSubmit, .dev .txFreePrivs,
    .dev .txDequeueUnlink, .dev (.txSendUnlink true), .dev .txDequeueUnlink, .dev .txFreeUnlinks]

/-- In the first run `stub_recv_cmd_unlink` is left with a freed entry, in the second the CMD_UNLINK
with number 2 is never answered. -/
theorem unlinked_entry_freed :
    (∃ s, (unlinkingDevice [.cmdSubmit 1, .cmdUnlink 2 1]).Reachable s ∧
      s.inHand = some 0 ∧ s.dev.live = [] ∧ ¬ s.Kept) ∧
    ∃ s, (unlinkingDevice [.cmdSubmit 1, .cmdUnlink 2 1, .cmdUnlink 3 2]).Reachable s ∧
      s.dev.Drained ∧ seen StubEvent.unlink s.dev.log 2 = 1 ∧
      seen StubEvent.unlinkReply s.dev.log 2 = 0 ∧ ¬ s.Kept := by
  constructor
  · obtain ⟨s, hs, hp⟩ := Machine.exists_reachable_of_any
      (m := unlinkingDevice [.cmdSubmit 1, .cmdUnlink 2 1]) completedBeforeUnlink
      (fun s => s.inHand == some 0 && s.dev.live == []) (by decide)
    obtain ⟨hhand, hlive⟩ : s.inHand = some 0 ∧ s.dev.live = [] := by simpa using hp
    refine ⟨s, hs, hhand, hlive, fun hkept => ?_⟩
    have hmem := hkept.held 0 hhand
    rw [hlive] at hmem
    cases hmem
  · obtain ⟨s, hs, hp⟩ := Machine.exists_reachable_of_any
      (m := unlinkingDevice [.cmdSubmit 1, .cmdUnlink 2 1, .cmdUnlink 3 2]) unlinkUnlinked
      (fun s => decide (s.dev.Drained ∧ seen StubEvent.unlink s.dev.log 2 = 1 ∧
        seen StubEvent.unlinkReply s.dev.log 2 = 0 ∧ s.dev.unlinkAnswers 2 = 0)) (by decide)
    obtain ⟨hdrained, hun, hreply, hanswers⟩ := of_decide_eq_true hp
    refine ⟨s, hs, hdrained, hun, hreply, fun hkept => ?_⟩
    have hq := hkept.answers 2
    omega

end Usbip.Stub
