import Usbip.Lib.Heap
import Usbip.Lib.Machine

/-!
# The URBs of the PTP filter and their memory

With the first preview command `ptp_on_rx` allocates the frame buffer, a copy of the command
(`trigger.ptpdu`), and `PTP_FREE_URB_COUNT` URBs built by `stub_build_urb`. From then on the URBs
go between `free_list`, `request_queue` and `busy_queue`. The transfer buffer of a URB is never one
of its own: it is the copy of the command, or a place in the frame buffer.

`ptp_remove` frees the frame buffer and the copy, and hands the URBs of `free_list` to
`stub_free_priv_and_urb`, which frees the transfer buffer, too.

The machine `ownUrbs` follows these allocations and the lists. What `ptp_produce_` makes of a URB,
where `frame_head` is, and how a transfer ends, is part of the label; so are the URBs of the client
that may be ahead on `request_queue`. This only adds runs. The order of `busy_queue` is that in
which the URBs were last put there.
-/

namespace Usbip.Ptp.OwnUrbs

open Heap

/-- What the filter allocates: `frame_buffer`, `trigger.ptpdu`, the filter itself, and three blocks
for each of its `stub_priv` records. -/
inductive Block
  | frameBuffer
  | ptpdu
  | filter
  | priv (id : ℕ)
  | urb (id : ℕ)
  | setupPacket (id : ℕ)
  deriving DecidableEq, Repr

/-- A URB of the filter. `isData` tells its completion handler: `ptp_data_complete` or
`ptp_cmd_complete`. -/
structure OwnUrb where
  id : ℕ
  isData : Bool
  transferBuffer : Pointer Block
  submitted : Bool
  deriving DecidableEq, Repr

/-- How `stub_build_urb` ends for one of them. -/
inductive Build
  | built
  | noSetup
  | noUrb
  | noPriv
  deriving DecidableEq, Repr

/-- A record that `stub_build_urb` has left on `priv_init`. -/
structure Unfinished where
  id : ℕ
  hasUrb : Bool
  deriving DecidableEq, Repr

/-- The memory of the filter. `frameBuffer` and `ptpdu` say whether the pointers are set, and
`created` counts the records that were allocated. -/
structure Store where
  live : Block → Bool
  frameBuffer : Bool
  ptpdu : Bool
  created : ℕ
  privInit : List Unfinished
  freeList : List OwnUrb
  requestQueue : List OwnUrb
  busyQueue : List OwnUrb

/-- What `ptp_produce_` does with a URB: it submits it, which may fail, lets it wait, or comes to
the branch marked as a bug. -/
inductive Outcome
  | submit (ok : Bool)
  | pend
  | bug
  deriving DecidableEq, Repr

/-- How `ptp_cmd_complete` ends. -/
inductive CmdEnd
  | failed
  | submit (head : ℕ) (ok : Bool)
  | bug (head : ℕ)
  deriving DecidableEq, Repr

/-- How `ptp_data_complete` ends: the URB is free, or goes to `ptp_produce_`. -/
inductive DataEnd
  | free
  | produce (head : ℕ) (outcome : Outcome)
  deriving DecidableEq, Repr

/-- The steps. -/
inductive Act
  /-- `ptp_on_rx` with a preview command -/
  | preview (buffer copy : Bool) (builds : List Build)
  /-- `ptp_timer` -/
  | timer (outcome : Outcome)
  /-- `ptp_produce_` with the first URB on `request_queue` -/
  | produce (head : ℕ) (outcome : Outcome)
  /-- completion of the `i`-th URB on `busy_queue` -/
  | cmdComplete (i : ℕ) (how : CmdEnd)
  | dataComplete (i : ℕ) (how : DataEnd)
  /-- `ptp_change_state_` to `ptpfs_sleep` -/
  | sleep
  /-- `stub_device_cleanup_urbs` comes to a record of the filter -/
  | cleanup

/-- `PTP_FREE_URB_COUNT` -/
def ptpFreeUrbCount : ℕ := 2

namespace OwnUrb

/-- `urb->transfer_buffer = filter->frame_buffer + head`, for a URB that receives. -/
def place (u : OwnUrb) (head : ℕ) : OwnUrb :=
  if u.isData then { u with transferBuffer := ⟨.frameBuffer, head⟩ } else u

/-- `stub_submit_urb` -/
def submit (u : OwnUrb) (ok : Bool) : OwnUrb := { u with submitted := ok }

/-- The driver is done with it. -/
def done (u : OwnUrb) : OwnUrb := { u with submitted := false }

/-- The timer makes it a preview command. -/
def command (u : OwnUrb) : OwnUrb :=
  { u with isData := false, transferBuffer := .start .ptpdu }

/-- `ptp_cmd_complete` makes it receive at `head`. -/
def receive (u : OwnUrb) (head : ℕ) : OwnUrb :=
  { u with isData := true, transferBuffer := ⟨.frameBuffer, head⟩ }

/-- What `stub_free_priv_and_urb` frees. -/
def frees (u : OwnUrb) : List (Pointer Block) :=
  [.start (.setupPacket u.id), u.transferBuffer, .start (.priv u.id), .start (.urb u.id)]

end OwnUrb

namespace Store

variable (s : Store)

/-- All URBs that were built. -/
def urbs : List OwnUrb := s.freeList ++ s.requestQueue ++ s.busyQueue

/-- A block is allocated. -/
def alloc (b : Block) : Store := { s with live := Function.update s.live b true }

/-! ### The first preview command -/

/-- `stub_build_urb`; a URB that is built goes to `free_list`. -/
def stubBuildUrb (r : Build) : Store :=
  match r with
  | .noPriv => s
  | .noUrb =>
    { s.alloc (.priv s.created) with
      created := s.created + 1
      privInit := s.privInit ++ [⟨s.created, false⟩] }
  | .noSetup =>
    { (s.alloc (.priv s.created)).alloc (.urb s.created) with
      created := s.created + 1
      privInit := s.privInit ++ [⟨s.created, true⟩] }
  | .built =>
    { ((s.alloc (.priv s.created)).alloc (.urb s.created)).alloc (.setupPacket s.created) with
      created := s.created + 1
      freeList := s.freeList ++ [⟨s.created, false, .start .ptpdu, false⟩] }

/-- The loop over the URBs; it ends with the first that cannot be built. -/
def buildUrbs (s : Store) : List Build → Store
  | [] => s
  | .built :: rest => buildUrbs (s.stubBuildUrb .built) rest
  | r :: _ => s.stubBuildUrb r

/-- `ptp_on_rx` with a preview command allocates when there is no frame buffer yet. -/
def preview (buffer copy : Bool) (builds : List Build) : Store :=
  if s.frameBuffer || !buffer then s
  else if !copy then { s.alloc .frameBuffer with frameBuffer := true }
  else
    buildUrbs
      { (s.alloc .frameBuffer).alloc .ptpdu with frameBuffer := true, ptpdu := true } builds

/-! ### The URBs move -/

/-- `ptp_produce_` with a URB that is on no list, or on `busy_queue`. -/
def produceUrb (u : OwnUrb) (head : ℕ) (outcome : Outcome) : Store :=
  match outcome with
  | .submit ok => { s with busyQueue := s.busyQueue ++ [(u.place head).submit ok] }
  | .pend => { s with requestQueue := s.requestQueue ++ [u] }
  | .bug => { s with busyQueue := s.busyQueue ++ [u.place head] }

/-- `ptp_timer` -/
def timer (outcome : Outcome) : Store :=
  match s.freeList with
  | [] => s
  | u :: rest => { s with freeList := rest }.produceUrb u.command 0 outcome

/-- `ptp_produce_` with the first URB on `request_queue`. -/
def produce (head : ℕ) (outcome : Outcome) : Store :=
  match s.requestQueue with
  | [] => s
  | u :: rest =>
    match outcome with
    | .submit ok => { s with requestQueue := rest }.produceUrb u head (.submit ok)
    | .pend => s
    | .bug => { s with requestQueue := u.place head :: rest }

/-- A URB is on `free_list` again. -/
def release (u : OwnUrb) : Store := { s with freeList := s.freeList ++ [u] }

/-- A URB leaves `busy_queue`. -/
def takeBusy (i : ℕ) : Store := { s with busyQueue := s.busyQueue.eraseIdx i }

/-- `ptp_cmd_complete` -/
def cmdComplete (u : OwnUrb) (how : CmdEnd) : Store :=
  match how with
  | .failed => s.release u
  | .submit head ok =>
    { s with busyQueue := s.busyQueue ++ [(u.receive head).submit ok] }
  | .bug head => { s with busyQueue := s.busyQueue ++ [u.receive head] }

/-- `ptp_data_complete` -/
def dataComplete (u : OwnUrb) (how : DataEnd) : Store :=
  match how with
  | .free => s.release u
  | .produce head outcome => s.produceUrb u head outcome

/-- The URB at `i` on `busy_queue`, when the host controller driver has it and will call the
handler `ptp_data_complete`, or `ptp_cmd_complete`. -/
def inFlight (i : ℕ) (isData : Bool) : Option OwnUrb :=
  (s.busyQueue[i]?).filter fun u => u.submitted && u.isData == isData

/-- `ptp_change_state_` to `ptpfs_sleep` -/
def sleep : Store :=
  { s with
    freeList := s.freeList ++ s.requestQueue.filter fun u => !u.isData
    requestQueue := s.requestQueue.filter fun u => u.isData }

/-- `stub_device_cleanup_urbs`, for the first record of the filter on `priv_init`. It uses the URB
of the record. -/
def cleanup : Option Store :=
  match s.privInit with
  | [] => none
  | r :: rest =>
    if r.hasUrb then
      (freeAll s.live [.start (.priv r.id), .start .ptpdu, .start (.urb r.id)]).map fun live =>
        { s with live := live, privInit := rest }
    else none

/-- One step. -/
def step (s : Store) (a : Act) : Option Store :=
  match a with
  | .preview buffer copy builds =>
    if builds.length = ptpFreeUrbCount then some (s.preview buffer copy builds) else none
  | .timer outcome => some (s.timer outcome)
  | .produce head outcome => some (s.produce head outcome)
  | .cmdComplete i how => (s.inFlight i false).map fun u => (s.takeBusy i).cmdComplete u.done how
  | .dataComplete i how => (s.inFlight i true).map fun u => (s.takeBusy i).dataComplete u.done how
  | .sleep => some s.sleep
  | .cleanup => s.cleanup

/-! ### `ptp_remove` -/

/-- The pointers that `ptp_remove` frees. -/
def ptpRemove : List (Pointer Block) :=
  (if s.frameBuffer then [.start .frameBuffer] else []) ++
    (if s.ptpdu then [.start .ptpdu] else []) ++
      s.freeList.flatMap OwnUrb.frees ++ [.start .filter]

/-- `ptp_remove` frees every block of the filter once and nothing else, and no URB is in flight
when its buffer goes. -/
structure RemovedOnce (live : Block → Bool) : Prop where
  freed : freeAll s.live s.ptpRemove = some live
  frameBuffer : live .frameBuffer = false
  ptpdu : live .ptpdu = false
  records : ∀ id < s.created, live (.priv id) = false ∧ live (.urb id) = false
  idle : ∀ u ∈ s.urbs, u.submitted = true → live u.transferBuffer.block = true

end Store

/-- The memory of the filter, from `ptp_probe` on. -/
def ownUrbs : Machine Store Act where
  init := ⟨fun b => b == .filter, false, false, 0, [], [], [], []⟩
  step := Store.step

/-! ### What every step keeps -/

/-- The transfer buffer is not of the URB's own. -/
def OwnUrb.Shares (u : OwnUrb) : Prop :=
  u.transferBuffer.block = .frameBuffer ∨ u.transferBuffer.block = .ptpdu

theorem OwnUrb.Shares.place {u : OwnUrb} (h : u.Shares) (head : ℕ) : (u.place head).Shares := by
  rw [OwnUrb.place]
  split
  · exact Or.inl rfl
  · exact h

/-- Before there is a record, and after. -/
structure Inv (s : Store) : Prop where
  filter : s.live .filter = true
  frame : s.live .frameBuffer = s.frameBuffer
  shares : ∀ u ∈ s.urbs, u.Shares
  fresh : s.created = 0 → s.urbs = [] ∧ s.privInit = [] ∧ s.live .ptpdu = s.ptpdu
  pointers : 0 < s.created → s.frameBuffer = true ∧ s.ptpdu = true
  /-- A record is freed together with the command. -/
  records : ∀ id < s.created, s.live (.priv id) = true ∨ s.live .ptpdu = false

theorem inv_init : Inv ownUrbs.init where
  filter := rfl
  frame := rfl
  shares := fun _ hu => absurd hu List.not_mem_nil
  fresh := fun _ => ⟨rfl, rfl, rfl⟩
  pointers := fun h => absurd h (Nat.lt_irrefl 0)
  records := fun id h => absurd h (Nat.not_lt_zero id)

/-- Nothing is allocated or freed. -/
structure SameMemory (s s' : Store) : Prop where
  live : s'.live = s.live
  frameBuffer : s'.frameBuffer = s.frameBuffer
  ptpdu : s'.ptpdu = s.ptpdu
  created : s'.created = s.created
  privInit : s'.privInit = s.privInit

/-- URBs have moved. -/
structure Moves (s s' : Store) : Prop extends SameMemory s s' where
  urbs : ∀ v ∈ s'.urbs, s.urbs ≠ [] ∧ v.Shares

theorem Inv.moves {s s' : Store} (h : Inv s) (hm : Moves s s') : Inv s' where
  filter := by rw [hm.live, h.filter]
  frame := by rw [hm.live, hm.frameBuffer, h.frame]
  shares := fun v hv => (hm.urbs v hv).2
  fresh := fun h0 => by
    rw [hm.created] at h0
    obtain ⟨hurbs, hinit, hptpdu⟩ := h.fresh h0
    refine ⟨List.eq_nil_iff_forall_not_mem.mpr fun v hv => (hm.urbs v hv).1 hurbs, ?_, ?_⟩
    · rw [hm.privInit, hinit]
    · rw [hm.live, hm.ptpdu, hptpdu]
  pointers := fun h0 => by
    rw [hm.created] at h0
    rw [hm.frameBuffer, hm.ptpdu]
    exact h.pointers h0
  records := fun id hid => by
    rw [hm.created] at hid
    rw [hm.live]
    exact h.records id hid

namespace Store

variable {s : Store}

theorem mem_urbs {u : OwnUrb} :
    u ∈ s.urbs ↔ u ∈ s.freeList ∨ u ∈ s.requestQueue ∨ u ∈ s.busyQueue := by
  rw [urbs, List.mem_append, List.mem_append, or_assoc]

/-- `ptp_produce_` leaves the other URBs alone. -/
theorem mem_urbs_produceUrb {u v : OwnUrb} {head : ℕ} {outcome : Outcome} (hu : u.Shares)
    (hv : v ∈ (s.produceUrb u head outcome).urbs) : v ∈ s.urbs ∨ v.Shares := by
  rw [mem_urbs] at hv ⊢
  cases outcome with
  | submit ok =>
    rcases hv with hv | hv | hv
    · exact Or.inl (Or.inl hv)
    · exact Or.inl (Or.inr (Or.inl hv))
    · rcases List.mem_append.mp hv with hv | hv
      · exact Or.inl (Or.inr (Or.inr hv))
      · obtain rfl := List.mem_singleton.mp hv
        exact Or.inr (hu.place head)
  | pend =>
    rcases hv with hv | hv | hv
    · exact Or.inl (Or.inl hv)
    · rcases List.mem_append.mp hv with hv | hv
      · exact Or.inl (Or.inr (Or.inl hv))
      · obtain rfl := List.mem_singleton.mp hv
        exact Or.inr hu
    · exact Or.inl (Or.inr (Or.inr hv))
  | bug =>
    rcases hv with hv | hv | hv
    · exact Or.inl (Or.inl hv)
    · exact Or.inl (Or.inr (Or.inl hv))
    · rcases List.mem_append.mp hv with hv | hv
      · exact Or.inl (Or.inr (Or.inr hv))
      · obtain rfl := List.mem_singleton.mp hv
        exact Or.inr (hu.place head)

theorem mem_urbs_release {u v : OwnUrb} (hu : u.Shares) (hv : v ∈ (s.release u).urbs) :
    v ∈ s.urbs ∨ v.Shares := by
  rw [mem_urbs] at hv ⊢
  rcases hv with hv | hv
  · rcases List.mem_append.mp hv with hv | hv
    · exact Or.inl (Or.inl hv)
    · obtain rfl := List.mem_singleton.mp hv
      exact Or.inr hu
  · exact Or.inl (Or.inr hv)

theorem mem_urbs_busy {u v : OwnUrb} (hu : u.Shares)
    (hv : v ∈ { s with busyQueue := s.busyQueue ++ [u] }.urbs) : v ∈ s.urbs ∨ v.Shares := by
  rw [mem_urbs] at hv ⊢
  rcases hv with hv | hv | hv
  · exact Or.inl (Or.inl hv)
  · exact Or.inl (Or.inr (Or.inl hv))
  · rcases List.mem_append.mp hv with hv | hv
    · exact Or.inl (Or.inr (Or.inr hv))
    · obtain rfl := List.mem_singleton.mp hv
      exact Or.inr hu

theorem mem_urbs_takeBusy {v : OwnUrb} {i : ℕ} (hv : v ∈ (s.takeBusy i).urbs) : v ∈ s.urbs := by
  rw [mem_urbs] at hv ⊢
  rcases hv with hv | hv | hv
  · exact Or.inl hv
  · exact Or.inr (Or.inl hv)
  · exact Or.inr (Or.inr (List.mem_of_mem_eraseIdx hv))

theorem mem_urbs_of_inFlight {u : OwnUrb} {i : ℕ} {isData : Bool}
    (h : s.inFlight i isData = some u) : u ∈ s.urbs :=
  mem_urbs.mpr (Or.inr (Or.inr (List.mem_of_getElem? (Option.filter_eq_some_iff.mp h).1)))

theorem produceUrb_same (s : Store) (u : OwnUrb) (head : ℕ) (outcome : Outcome) :
    SameMemory s (s.produceUrb u head outcome) := by
  cases outcome with
  | submit ok => exact ⟨rfl, rfl, rfl, rfl, rfl⟩
  | pend => exact ⟨rfl, rfl, rfl, rfl, rfl⟩
  | bug => exact ⟨rfl, rfl, rfl, rfl, rfl⟩

/-! ### The URBs move -/

section

variable (hs : ∀ u ∈ s.urbs, u.Shares)
include hs

theorem moves_refl : Moves s s :=
  ⟨⟨rfl, rfl, rfl, rfl, rfl⟩, fun v hv => ⟨List.ne_nil_of_mem hv, hs v hv⟩⟩

theorem timer_moves (outcome : Outcome) : Moves s (s.timer outcome) := by
  rw [timer]
  split
  · exact moves_refl hs
  next u rest hfree =>
    have hne : s.urbs ≠ [] :=
      List.ne_nil_of_mem (mem_urbs.mpr (Or.inl (hfree ▸ List.mem_cons_self)))
    obtain ⟨h₁, h₂, h₃, h₄, h₅⟩ :=
      produceUrb_same { s with freeList := rest } u.command 0 outcome
    refine ⟨⟨h₁, h₂, h₃, h₄, h₅⟩, fun v hv => ⟨hne, ?_⟩⟩
    rcases mem_urbs_produceUrb (Or.inr rfl) hv with hv | hv
    · refine hs v ?_
      rw [mem_urbs] at hv ⊢
      rw [hfree]
      exact hv.imp_left fun h => List.mem_cons_of_mem u h
    · exact hv

theorem produce_moves (head : ℕ) (outcome : Outcome) : Moves s (s.produce head outcome) := by
  rw [produce]
  split
  · exact moves_refl hs
  next u rest hqueue =>
    have hu : u ∈ s.urbs := mem_urbs.mpr (Or.inr (Or.inl (hqueue ▸ List.mem_cons_self)))
    have hrest : ∀ v, v ∈ { s with requestQueue := rest }.urbs → v ∈ s.urbs := by
      intro v hv
      rw [mem_urbs] at hv ⊢
      rw [hqueue]
      exact hv.imp_right fun h => h.imp_left fun h => List.mem_cons_of_mem u h
    cases outcome with
    | submit ok =>
      refine ⟨⟨rfl, rfl, rfl, rfl, rfl⟩, fun v hv => ⟨List.ne_nil_of_mem hu, ?_⟩⟩
      rcases mem_urbs_produceUrb (hs u hu) hv with hv | hv
      · exact hs v (hrest v hv)
      · exact hv
    | pend => exact moves_refl hs
    | bug =>
      refine ⟨⟨rfl, rfl, rfl, rfl, rfl⟩, fun v hv => ⟨List.ne_nil_of_mem hu, ?_⟩⟩
      rcases mem_urbs.mp hv with hv | hv | hv
      · exact hs v (mem_urbs.mpr (Or.inl hv))
      · rcases List.mem_cons.mp hv with rfl | hv
        · exact (hs u hu).place head
        · exact hs v (hrest v (mem_urbs.mpr (Or.inr (Or.inl hv))))
      · exact hs v (mem_urbs.mpr (Or.inr (Or.inr hv)))

theorem cmdComplete_moves {i : ℕ} {isData : Bool} {u : OwnUrb} (how : CmdEnd)
    (hu : s.inFlight i isData = some u) : Moves s ((s.takeBusy i).cmdComplete u.done how) := by
  have hmem := mem_urbs_of_inFlight hu
  have hshares : u.done.Shares := hs u hmem
  have hrest : ∀ v, v ∈ (s.takeBusy i).urbs ∨ v.Shares → s.urbs ≠ [] ∧ v.Shares := by
    rintro v (hv | hv)
    · exact ⟨List.ne_nil_of_mem hmem, hs v (mem_urbs_takeBusy hv)⟩
    · exact ⟨List.ne_nil_of_mem hmem, hv⟩
  cases how with
  | failed =>
    exact ⟨⟨rfl, rfl, rfl, rfl, rfl⟩, fun v hv => hrest v (mem_urbs_release hshares hv)⟩
  | submit head ok =>
    exact ⟨⟨rfl, rfl, rfl, rfl, rfl⟩, fun v hv => hrest v (mem_urbs_busy (Or.inl rfl) hv)⟩
  | bug head =>
    exact ⟨⟨rfl, rfl, rfl, rfl, rfl⟩, fun v hv => hrest v (mem_urbs_busy (Or.inl rfl) hv)⟩

theorem dataComplete_moves {i : ℕ} {isData : Bool} {u : OwnUrb} (how : DataEnd)
    (hu : s.inFlight i isData = some u) : Moves s ((s.takeBusy i).dataComplete u.done how) := by
  have hmem := mem_urbs_of_inFlight hu
  have hshares : u.done.Shares := hs u hmem
  have hrest : ∀ v, v ∈ (s.takeBusy i).urbs ∨ v.Shares → s.urbs ≠ [] ∧ v.Shares := by
    rintro v (hv | hv)
    · exact ⟨List.ne_nil_of_mem hmem, hs v (mem_urbs_takeBusy hv)⟩
    · exact ⟨List.ne_nil_of_mem hmem, hv⟩
  cases how with
  | free =>
    exact ⟨⟨rfl, rfl, rfl, rfl, rfl⟩, fun v hv => hrest v (mem_urbs_release hshares hv)⟩
  | produce head outcome =>
    obtain ⟨h₁, h₂, h₃, h₄, h₅⟩ := produceUrb_same (s.takeBusy i) u.done head outcome
    exact ⟨⟨h₁, h₂, h₃, h₄, h₅⟩, fun v hv => hrest v (mem_urbs_produceUrb hshares hv)⟩

theorem sleep_moves : Moves s s.sleep := by
  refine ⟨⟨rfl, rfl, rfl, rfl, rfl⟩, fun v hv => ?_⟩
  have hmem : v ∈ s.urbs := by
    rw [mem_urbs] at hv ⊢
    rcases hv with hv | hv | hv
    · rcases List.mem_append.mp hv with hv | hv
      · exact Or.inl hv
      · exact Or.inr (Or.inl (List.mem_of_mem_filter hv))
    · exact Or.inr (Or.inl (List.mem_of_mem_filter hv))
    · exact Or.inr (Or.inr hv)
  exact ⟨List.ne_nil_of_mem hmem, hs v hmem⟩

end

/-! ### Allocating -/

theorem live_alloc {b c : Block} (h : s.live b = true) : (s.alloc c).live b = true := by
  rw [alloc]
  dsimp only
  rw [Function.update_apply]
  split
  · rfl
  · exact h

theorem live_alloc_self (b : Block) : (s.alloc b).live b = true := Function.update_self ..

end Store

/-- One more record, with the pointers set. -/
theorem Inv.create {s s' : Store} (h : Inv s) (hlive : ∀ b, s.live b = true → s'.live b = true)
    (hframe : s.frameBuffer = true) (hptpdu : s.live .ptpdu = true)
    (hframe' : s'.frameBuffer = true) (hptpdu' : s'.ptpdu = true)
    (hcreated : s'.created = s.created + 1) (hnew : s'.live (.priv s.created) = true)
    (hshares : ∀ u ∈ s'.urbs, u.Shares) : Inv s' where
  filter := hlive _ h.filter
  frame := by rw [hframe', hlive _ (h.frame.trans hframe)]
  shares := hshares
  fresh := fun h0 => absurd (hcreated.symm.trans h0) (Nat.succ_ne_zero _)
  pointers := fun _ => ⟨hframe', hptpdu'⟩
  records := fun id hid => by
    rw [hcreated] at hid
    rcases Nat.lt_succ_iff_lt_or_eq.mp hid with hlt | rfl
    · rcases h.records id hlt with hrec | hdead
      · exact Or.inl (hlive _ hrec)
      · rw [hptpdu] at hdead
        exact absurd hdead Bool.noConfusion
    · exact Or.inl hnew

namespace Store

variable {s : Store}

/-- While the URBs are built, the two shared blocks are there. -/
structure Building (s : Store) : Prop extends Inv s where
  frameSet : s.frameBuffer = true
  ptpduSet : s.ptpdu = true
  ptpduLive : s.live .ptpdu = true

/-- `stub_build_urb` frees nothing, and a record that it counts is live. -/
theorem live_stubBuildUrb (s : Store) (r : Build) {b : Block} (hb : s.live b = true) :
    (s.stubBuildUrb r).live b = true := by
  cases r with
  | noPriv => exact hb
  | noUrb => exact live_alloc (s := s) hb
  | noSetup => exact live_alloc (s := s.alloc _) (live_alloc hb)
  | built => exact live_alloc (s := (s.alloc _).alloc _) (live_alloc (live_alloc hb))

theorem live_stubBuildUrb_new (s : Store) {r : Build} (hr : r ≠ .noPriv) :
    (s.stubBuildUrb r).live (.priv s.created) = true := by
  cases r with
  | noPriv => exact absurd rfl hr
  | noUrb => exact live_alloc_self (s := s) _
  | noSetup =>
    have hpriv : (s.alloc (.priv s.created)).live (.priv s.created) = true := live_alloc_self _
    exact live_alloc (c := .urb s.created) hpriv
  | built =>
    have hpriv : (s.alloc (.priv s.created)).live (.priv s.created) = true := live_alloc_self _
    exact live_alloc (c := .setupPacket s.created) (live_alloc (c := .urb s.created) hpriv)

theorem Building.stubBuildUrb (h : s.Building) (r : Build) : (s.stubBuildUrb r).Building := by
  cases r with
  | noPriv => exact h
  | noUrb =>
    exact ⟨h.toInv.create (fun b hb => live_stubBuildUrb s .noUrb hb) h.frameSet h.ptpduLive
      h.frameSet h.ptpduSet rfl (live_stubBuildUrb_new s nofun) h.shares, h.frameSet, h.ptpduSet,
      live_stubBuildUrb s .noUrb h.ptpduLive⟩
  | noSetup =>
    exact ⟨h.toInv.create (fun b hb => live_stubBuildUrb s .noSetup hb) h.frameSet h.ptpduLive
      h.frameSet h.ptpduSet rfl (live_stubBuildUrb_new s nofun) h.shares, h.frameSet, h.ptpduSet,
      live_stubBuildUrb s .noSetup h.ptpduLive⟩
  | built =>
    refine ⟨h.toInv.create (fun b hb => live_stubBuildUrb s .built hb) h.frameSet h.ptpduLive
      h.frameSet h.ptpduSet rfl (live_stubBuildUrb_new s nofun) fun u hu => ?_, h.frameSet,
      h.ptpduSet, live_stubBuildUrb s .built h.ptpduLive⟩
    rcases mem_urbs_release (Or.inr rfl) hu with hu | hu
    · exact h.shares u hu
    · exact hu

theorem Building.buildUrbs (h : s.Building) (builds : List Build) :
    (s.buildUrbs builds).Building := by
  induction builds generalizing s with
  | nil => exact h
  | cons r rest ih =>
    cases r with
    | built => exact ih (h.stubBuildUrb .built)
    | noSetup => exact h.stubBuildUrb .noSetup
    | noUrb => exact h.stubBuildUrb .noUrb
    | noPriv => exact h.stubBuildUrb .noPriv

/-- Before the first record, the shared blocks may be allocated. -/
theorem fresh_inv (h : Inv s) {s' : Store} (h0 : s.created = 0) (hcreated : s'.created = 0)
    (hlive : ∀ b, s.live b = true → s'.live b = true) (hurbs : s'.urbs = s.urbs)
    (hinit : s'.privInit = s.privInit) (hframe : s'.live .frameBuffer = s'.frameBuffer)
    (hptpdu : s'.live .ptpdu = s'.ptpdu) : Inv s' where
  filter := hlive _ h.filter
  frame := hframe
  shares := hurbs ▸ h.shares
  fresh := fun _ => ⟨hurbs.trans (h.fresh h0).1, hinit.trans (h.fresh h0).2.1, hptpdu⟩
  pointers := fun hpos => absurd hcreated (Nat.ne_of_gt hpos)
  records := fun id hid => absurd (hcreated ▸ hid) (Nat.not_lt_zero id)

theorem preview_inv (h : Inv s) (buffer copy : Bool) (builds : List Build) :
    Inv (s.preview buffer copy builds) := by
  rw [preview]
  split
  · exact h
  next hnone =>
  have hframe : s.frameBuffer = false := by
    cases hframe : s.frameBuffer with
    | false => rfl
    | true => simp [hframe] at hnone
  have hzero : s.created = 0 := by
    by_contra hne
    have hset := (h.pointers (Nat.pos_of_ne_zero hne)).1
    rw [hframe] at hset
    exact Bool.noConfusion hset
  have hbuffer : (s.alloc .frameBuffer).live .frameBuffer = true := live_alloc_self _
  split
  · exact fresh_inv h hzero hzero (fun b hb => live_alloc (s := s) hb) rfl rfl hbuffer
      (h.fresh hzero).2.2
  · have hlive : ((s.alloc .frameBuffer).alloc .ptpdu).live .ptpdu = true := live_alloc_self _
    have hbuffer' : ((s.alloc .frameBuffer).alloc .ptpdu).live .frameBuffer = true :=
      live_alloc hbuffer
    have hbuilding : Building { (s.alloc .frameBuffer).alloc .ptpdu with
        frameBuffer := true, ptpdu := true } :=
      ⟨fresh_inv h hzero hzero (fun b hb => live_alloc (s := s.alloc _) (live_alloc hb)) rfl rfl
        hbuffer' hlive, rfl, rfl, hlive⟩
    exact (hbuilding.buildUrbs builds).toInv

theorem cleanup_inv {s' : Store} (h : Inv s) (hstep : s.cleanup = some s') : Inv s' := by
  rw [cleanup] at hstep
  split at hstep
  · cases hstep
  next r rest hinit =>
  obtain ⟨-, hstep⟩ := Option.ite_none_right_eq_some.mp hstep
  obtain ⟨live, hfree, rfl⟩ := Option.map_eq_some_iff.mp hstep
  have hcreated : s.created ≠ 0 := by
    intro h0
    rw [(h.fresh h0).2.1] at hinit
    cases hinit
  have hkept : ∀ b, b ≠ .priv r.id → b ≠ .ptpdu → b ≠ .urb r.id → live b = s.live b := by
    intro b h₁ h₂ h₃
    refine eq_of_notMem_of_freeAll hfree fun p hp => ?_
    simp only [List.mem_cons, List.not_mem_nil, or_false] at hp
    rcases hp with rfl | rfl | rfl
    · exact h₁.symm
    · exact h₂.symm
    · exact h₃.symm
  have hptpdu : live .ptpdu = false :=
    eq_false_of_mem_of_freeAll hfree (List.mem_cons_of_mem _ List.mem_cons_self)
  refine ⟨?_, ?_, h.shares, fun h0 => absurd h0 hcreated, h.pointers, fun id _ => Or.inr hptpdu⟩
  · exact (hkept .filter nofun nofun nofun).trans h.filter
  · exact (hkept .frameBuffer nofun nofun nofun).trans h.frame

/-- **The step lemma.** -/
theorem step_inv {s' : Store} {a : Act} (h : Inv s) (hstep : s.step a = some s') : Inv s' := by
  cases a with
  | preview buffer copy builds =>
    obtain ⟨-, hstep⟩ := Option.ite_none_right_eq_some.mp hstep
    obtain rfl := Option.some.inj hstep
    exact preview_inv h buffer copy builds
  | timer outcome =>
    obtain rfl := Option.some.inj hstep
    exact h.moves (timer_moves h.shares outcome)
  | produce head outcome =>
    obtain rfl := Option.some.inj hstep
    exact h.moves (produce_moves h.shares head outcome)
  | cmdComplete i how =>
    obtain ⟨u, hu, rfl⟩ := Option.map_eq_some_iff.mp hstep
    exact h.moves (cmdComplete_moves h.shares how hu)
  | dataComplete i how =>
    obtain ⟨u, hu, rfl⟩ := Option.map_eq_some_iff.mp hstep
    exact h.moves (dataComplete_moves h.shares how hu)
  | sleep =>
    obtain rfl := Option.some.inj hstep
    exact h.moves (sleep_moves h.shares)
  | cleanup => exact cleanup_inv h hstep

end Store

theorem inv_of_reachable {s : Store} (h : ownUrbs.Reachable s) : Inv s :=
  h.invariant inv_init fun _ _ _ hinv _ hstep => Store.step_inv hinv hstep

/-! ### Removal -/

namespace Store

variable {s : Store}

theorem mem_ptpRemove {p : Pointer Block} :
    p ∈ s.ptpRemove ↔ s.frameBuffer = true ∧ p = .start .frameBuffer ∨
      s.ptpdu = true ∧ p = .start .ptpdu ∨ (∃ u ∈ s.freeList, p ∈ u.frees) ∨
        p = .start .filter := by
  rw [ptpRemove, List.mem_append, List.mem_append, List.mem_append, List.mem_flatMap,
    List.mem_singleton]
  cases s.frameBuffer with
  | false => cases s.ptpdu <;> simp [or_assoc]
  | true => cases s.ptpdu <;> simp [or_assoc]

/-- Without a record the two shared blocks and the filter are freed. -/
theorem removedOnce_of_fresh (h : Inv s) (h0 : s.created = 0) :
    s.RemovedOnce (remaining s.live s.ptpRemove) := by
  obtain ⟨hurbs, -, hptpdu⟩ := h.fresh h0
  have hfree : s.freeList = [] := (List.append_eq_nil_iff.mp (List.append_eq_nil_iff.mp hurbs).1).1
  have hremove : s.ptpRemove = (if s.frameBuffer then [.start .frameBuffer] else []) ++
      (if s.ptpdu then [.start .ptpdu] else []) ++ [.start .filter] := by
    rw [ptpRemove, hfree]
    simp
  have hfreed : freeAll s.live s.ptpRemove = some (remaining s.live s.ptpRemove) := by
    refine freeAll_eq_some_iff.mpr ⟨fun p hp => ?_, ?_, rfl⟩
    · rcases mem_ptpRemove.mp hp with ⟨hset, rfl⟩ | ⟨hset, rfl⟩ | ⟨u, hu, -⟩ | rfl
      · exact ⟨rfl, h.frame.trans hset⟩
      · exact ⟨rfl, hptpdu.trans hset⟩
      · rw [hfree] at hu
        exact absurd hu List.not_mem_nil
      · exact ⟨rfl, h.filter⟩
    · rw [hremove]
      cases s.frameBuffer with
      | false => cases s.ptpdu <;> simp [Pointer.start]
      | true => cases s.ptpdu <;> simp [Pointer.start]
  -- a shared block that is still live was not allocated, so its pointer is not set
  have hdead : ∀ b set, s.live b = set → (set = true → .start b ∈ s.ptpRemove) →
      remaining s.live s.ptpRemove b = false := by
    intro b set hlive hmem
    cases set with
    | false => rw [remaining, hlive, Bool.false_and]
    | true => exact eq_false_of_mem_of_freeAll hfreed (hmem rfl)
  refine ⟨hfreed, hdead _ _ h.frame fun hset => ?_, hdead _ _ hptpdu fun hset => ?_,
    fun id hid => absurd (h0 ▸ hid) (Nat.not_lt_zero id), fun u hu => ?_⟩
  · exact mem_ptpRemove.mpr (Or.inl ⟨hset, rfl⟩)
  · exact mem_ptpRemove.mpr (Or.inr (Or.inl ⟨hset, rfl⟩))
  · rw [hurbs] at hu
    exact absurd hu List.not_mem_nil

/-- The blocks of two pointers at different places of the list are not the same. -/
theorem not_shares_of_freeAll {live : Block → Bool} (h : Inv s) (h0 : 0 < s.created)
    (hfree : freeAll s.live s.ptpRemove = some live) {u : OwnUrb} (hu : u ∈ s.freeList) :
    ¬ u.Shares := by
  obtain ⟨hframe, hptpdu⟩ := h.pointers h0
  have hnodup := (freeAll_eq_some_iff.mp hfree).2.1
  rw [ptpRemove, if_pos hframe, if_pos hptpdu, List.append_assoc, List.append_assoc,
    List.map_append, List.map_append, List.map_append] at hnodup
  have hmem : u.transferBuffer.block ∈
      ((s.freeList.flatMap OwnUrb.frees).map Pointer.block) :=
    List.mem_map.mpr ⟨u.transferBuffer, List.mem_flatMap.mpr ⟨u, hu,
      List.mem_cons_of_mem _ List.mem_cons_self⟩, rfl⟩
  rw [List.nodup_append] at hnodup
  obtain ⟨-, hnodup, hne⟩ := hnodup
  rw [List.nodup_append] at hnodup
  obtain ⟨-, -, hne'⟩ := hnodup
  rintro (hblock | hblock)
  · exact hne _ List.mem_cons_self _
      (List.mem_append_right _ (List.mem_append_left _ (hblock ▸ hmem))) rfl
  · exact hne' _ List.mem_cons_self _ (List.mem_append_left _ (hblock ▸ hmem)) rfl

/-- With a record the removal goes wrong, on whatever list it is. -/
theorem not_removedOnce_of_created (h : Inv s) (h0 : 0 < s.created) (live : Block → Bool) :
    ¬ s.RemovedOnce live := by
  intro hr
  obtain ⟨-, hptpdu⟩ := h.pointers h0
  have hlive : s.live .ptpdu = true :=
    ((freeAll_eq_some_iff.mp hr.freed).1 _
      (mem_ptpRemove.mpr (Or.inr (Or.inl ⟨hptpdu, rfl⟩)))).2
  have hrecord : s.live (.priv 0) = true := by
    rcases h.records 0 h0 with hrecord | hdead
    · exact hrecord
    · rw [hlive] at hdead
      exact Bool.noConfusion hdead
  -- the record is freed, so it is on `free_list`, and its transfer buffer is freed twice
  by_cases hfreed : ∀ p ∈ s.ptpRemove, p.block ≠ .priv 0
  · have hkept := eq_of_notMem_of_freeAll hr.freed hfreed
    rw [(hr.records 0 h0).1, hrecord] at hkept
    exact Bool.noConfusion hkept
  · obtain ⟨p, hp, hblock⟩ : ∃ p ∈ s.ptpRemove, p.block = .priv 0 := by simpa using hfreed
    rcases mem_ptpRemove.mp hp with ⟨-, rfl⟩ | ⟨-, rfl⟩ | ⟨u, hu, -⟩ | rfl
    · cases hblock
    · cases hblock
    · exact not_shares_of_freeAll h h0 hr.freed hu (h.shares u (mem_urbs.mpr (Or.inl hu)))
    · cases hblock

end Store

/-- **The removal.** `ptp_remove` frees everything once exactly when the filter has never created a
URB of its own. -/
theorem ptpRemove_once_iff {s : Store} (h : ownUrbs.Reachable s) :
    (∃ live, s.RemovedOnce live) ↔ s.created = 0 := by
  have hinv := inv_of_reachable h
  constructor
  · rintro ⟨live, hr⟩
    by_contra hne
    exact Store.not_removedOnce_of_created hinv (Nat.pos_of_ne_zero hne) live hr
  · intro h0
    exact ⟨_, Store.removedOnce_of_fresh hinv h0⟩

/-- A stream: both URBs are built, and the timer sends the first preview command. -/
def streamOn : List Act := [.preview true true [.built, .built], .timer (.submit true)]

/-- After the first preview command the two sides of the equivalence are false. -/
theorem ptpRemove_once_iff_streamOn :
    ∃ s, ownUrbs.run ownUrbs.init streamOn = some s ∧
      ((∃ live, s.RemovedOnce live) ↔ s.created = 0) :=
  Machine.exists_run (by decide) fun _ h => ptpRemove_once_iff h

/-- A transfer buffer is freed twice, and one URB is in flight. -/
theorem ptpRemove_not_once :
    ¬ ∀ s, ownUrbs.Reachable s → ∃ live, s.RemovedOnce live := by
  intro h
  obtain ⟨s, hreach, hs⟩ := Machine.exists_reachable_of_any (m := ownUrbs) streamOn
    (fun s => (freeAll s.live s.ptpRemove).isNone) (by decide)
  obtain ⟨live, hr⟩ := h s hreach
  rw [hr.freed] at hs
  exact Bool.noConfusion hs

end Usbip.Ptp.OwnUrbs
