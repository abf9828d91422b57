import Usbip.Lib.Machine
import Usbip.Lib.SlotTable
import Mathlib.Data.Int.Notation
import Mathlib.Data.BitVec
import Mathlib.Data.List.TakeWhile

/-!
# The table of exported bus ids

`busid_table` of `stub_main.c` and the functions that drive it: the attribute `match_busid`
(`store_match_busid`, `add_match_busid`, `del_match_busid`) and the driver callbacks
`stub_probe` and `stub_disconnect` of `stub_dev.c`. Each call is one step of the machine
`matchTable`.

`latest b` is the last successful command for `b`. The table is meant to follow it:

* the names in the table stay distinct, whatever happens;
* as long as no `del` meets an entry without a device and no `add` meets an entry that is
  being removed, a probe passes the match check exactly when the latest command was an `add`;
* either of the two reports success and leaves the check as it was.
-/

namespace Usbip.Stub

/-- `STUB_BUSID_OTHER`, `STUB_BUSID_REMOV`, `STUB_BUSID_ADDED` and `STUB_BUSID_ALLOC`. -/
inductive BusidStatus
  | other | remov | added | alloc
  deriving DecidableEq, Repr

/-- `BUSID_SIZE`. -/
def busidSize : ℕ := 32

/-- `MAX_BUSID`. -/
def maxBusid : ℕ := 16

/-- What a `char[BUSID_SIZE]` holds up to its terminating zero. -/
structure Busid where
  bytes : List (BitVec 8)
  short : bytes.length < busidSize
  no_nul : 0 ∉ bytes
  deriving DecidableEq

/-- The name of a free slot. -/
def Busid.empty : Busid := ⟨[], by decide, by decide⟩

/-- `struct bus_id_priv`. A `struct stub_device` is known by the number of its allocation. -/
structure BusIdPriv where
  name : Busid
  status : BusidStatus
  interfCount : ℤ
  sdev : Option ℕ
  shutdownBusid : Bool
  deriving DecidableEq

namespace BusIdPriv

/-- A slot of the table after `init_busid_table`. -/
def zero : BusIdPriv := ⟨Busid.empty, .other, 0, none, false⟩

/-- The name under which a slot is found; a free slot is never found. -/
def key (e : BusIdPriv) : Option Busid := if e.name.bytes = [] then none else some e.name

theorem key_eq_some {e : BusIdPriv} {b : Busid} :
    e.key = some b ↔ e.name.bytes ≠ [] ∧ e.name = b := by
  unfold key
  split <;> simp_all

/-- What `add_match_busid` writes into a free slot. -/
def add (e : BusIdPriv) (busid : Busid) : BusIdPriv :=
  { e with
    name := busid
    status := if e.status ≠ .alloc ∧ e.status ≠ .remov then .added else e.status }

/-- The first half of `del_match_busid`: the name is cleared in state OTHER. -/
def clearName (e : BusIdPriv) : BusIdPriv :=
  if e.status = .other then { e with name := Busid.empty } else e

/-- The second half of `del_match_busid`. -/
def markRemoved (e : BusIdPriv) : BusIdPriv :=
  if e.status ≠ .other ∧ e.status ≠ .added then { e with status := .remov } else e

/-- What `del_match_busid` does to the slot that it finds. -/
def del (e : BusIdPriv) : BusIdPriv := e.clearName.markRemoved

end BusIdPriv

/-- An interface of a plugged device; `parent` is the device's own name. -/
structure Interface where
  number : ℕ
  parent : Busid
  named : parent.bytes ≠ []
  deriving DecidableEq

/-- The two commands of the attribute `match_busid`. -/
inductive Command
  | add | del
  deriving DecidableEq, Repr

/-- The driver's data. `intfdata` lists the interfaces whose private data is set;
`history` is the list of the commands that succeeded, oldest first. -/
structure MatchTable where
  table : List BusIdPriv
  intfdata : List (Interface × ℕ)
  nextSdev : ℕ
  history : List (Command × Busid)

/-! ### The table -/

/-- `get_busid_idx`. -/
def getBusidIdx (table : List BusIdPriv) (busid : Busid) : Option ℕ :=
  table.findIdx? fun e => e.name.bytes ≠ [] ∧ e.name = busid

/-- `add_match_busid`. -/
def addMatchBusid (table : List BusIdPriv) (busid : Busid) : List BusIdPriv × ℤ :=
  if (getBusidIdx table busid).isSome then (table, 0)
  else
    match table.findIdx? fun e => e.name.bytes = [] with
    | none => (table, -1)
    | some i => (table.modify i (·.add busid), 0)

/-- `del_match_busid`. -/
def delMatchBusid (table : List BusIdPriv) (busid : Busid) : List BusIdPriv × ℤ :=
  match getBusidIdx table busid with
  | none => (table, -1)
  | some i => (table.modify i BusIdPriv.del, 0)

/-- `"add "`. -/
def addPrefix : List (BitVec 8) := [0x61, 0x64, 0x64, 0x20]

/-- `"del "`. -/
def delPrefix : List (BitVec 8) := [0x64, 0x65, 0x6c, 0x20]

/-- What `store_match_busid` reads from a buffer of `buf.length` bytes, which sysfs ends with
a zero; `none` is `-EINVAL`. -/
def parseMatchBusid (buf : List (BitVec 8)) : Option (Command × Busid) :=
  if buf.length < 5 then none
  else if h : ((buf.drop 4).takeWhile (· ≠ 0)).length < busidSize then
    let busid : Busid := ⟨(buf.drop 4).takeWhile (· ≠ 0), h, fun hmem => by
      simpa using List.mem_takeWhile_imp hmem⟩
    if buf.take 4 = addPrefix then some (.add, busid)
    else if buf.take 4 = delPrefix then some (.del, busid)
    else none
  else none

/-- The function behind a command. -/
def Command.apply : Command → List BusIdPriv → Busid → List BusIdPriv × ℤ
  | .add => addMatchBusid
  | .del => delMatchBusid

namespace MatchTable

/-- `get_busid_priv`. -/
def getBusidPriv (s : MatchTable) (busid : Busid) : Option BusIdPriv :=
  (getBusidIdx s.table busid).bind (s.table[·]?)

/-- Write through the pointer that `get_busid_priv` returned. -/
def modifyPriv (s : MatchTable) (busid : Busid) (f : BusIdPriv → BusIdPriv) : MatchTable :=
  match getBusidIdx s.table busid with
  | none => s
  | some i => { s with table := s.table.modify i f }

/-- `store_match_busid`; a command that fails writes nothing. -/
def storeMatchBusid (s : MatchTable) (buf : List (BitVec 8)) : MatchTable :=
  match parseMatchBusid buf with
  | none => s
  | some (c, busid) =>
    if (c.apply s.table busid).2 < 0 then s
    else { s with
      table := (c.apply s.table busid).1
      history := s.history ++ [(c, busid)] }

/-- `usb_get_intfdata`. -/
def getIntfdata (s : MatchTable) (i : Interface) : Option ℕ :=
  (s.intfdata.find? fun p => p.1 = i).map (·.2)

/-- `usb_set_intfdata` with a device. -/
def setIntfdata (s : MatchTable) (i : Interface) (sdev : ℕ) : MatchTable :=
  { s with intfdata := (i, sdev) :: s.intfdata.filter (·.1 ≠ i) }

/-- `usb_set_intfdata` with `NULL`. -/
def clearIntfdata (s : MatchTable) (i : Interface) : MatchTable :=
  { s with intfdata := s.intfdata.filter (·.1 ≠ i) }

/-- The match check at the head of `stub_probe`. -/
def matchCheck (s : MatchTable) (busid : Busid) : Bool :=
  match s.getBusidPriv busid with
  | none => false
  | some e => !(e.status = .remov || e.status = .other)

/-- What `stub_probe` reads of the device and the results of its calls: whether the device is
a hub, whether it hangs on the virtual host controller, whether `stub_device_alloc` succeeds
and whether `stub_add_files` does. -/
structure ProbeCalls where
  hub : Bool
  vhci : Bool
  alloc : Bool
  addFiles : Bool
  deriving DecidableEq, Repr

/-- A new device in its entry. -/
def registerEntry (sdev : ℕ) (e : BusIdPriv) : BusIdPriv :=
  { e with interfCount := 1, shutdownBusid := false, sdev := some sdev, status := .alloc }

/-- What an entry is left with when `stub_add_files` fails for a new device. -/
def unregisterEntry (e : BusIdPriv) : BusIdPriv :=
  { e with interfCount := 0, shutdownBusid := false, sdev := none }

/-- `stub_probe`. -/
def stubProbe (s : MatchTable) (i : Interface) (r : ProbeCalls) : MatchTable :=
  if !s.matchCheck i.parent then s
  else if r.hub then s
  else if r.vhci then s
  else
    match s.getBusidPriv i.parent with
    | none => s
    | some e =>
      if e.status = .alloc then
        match e.sdev with
        | none => s
        | some sdev =>
          -- on an error the count and the private data are restored
          if r.addFiles then
            (s.modifyPriv i.parent fun e => { e with interfCount := e.interfCount + 1 }).setIntfdata
              i sdev
          else s.clearIntfdata i
      else if !r.alloc then s
      else if r.addFiles then
        ({ s with nextSdev := s.nextSdev + 1 }.modifyPriv i.parent
          (registerEntry s.nextSdev)).setIntfdata i s.nextSdev
      else
        ({ s with nextSdev := s.nextSdev + 1 }.modifyPriv i.parent unregisterEntry).clearIntfdata i

/-- `shutdown_busid` as far as the table is concerned. -/
def shutdownEntry (e : BusIdPriv) : BusIdPriv :=
  if e.sdev.isSome ∧ !e.shutdownBusid then { e with shutdownBusid := true } else e

/-- The end of `stub_disconnect` for the last interface of a device. -/
def releaseEntry (e : BusIdPriv) : BusIdPriv :=
  { e with
    interfCount := 0
    sdev := none
    status := if e.status = .alloc then .added else .other }

/-- `stub_disconnect`; `fromEh` says that the event handler of the device is the caller. The
result is `none` where the function hits `BUG()` or follows a null pointer. -/
def stubDisconnect (s : MatchTable) (i : Interface) (fromEh : Bool) : Option MatchTable :=
  match s.getBusidPriv i.parent with
  | none => none
  | some e =>
    match s.getIntfdata i with
    | none => some s
    | some _ =>
      if e.sdev.isNone then none
      else if fromEh then
        some ((s.clearIntfdata i).modifyPriv i.parent fun e =>
          { e with interfCount := e.interfCount - 1 })
      else if e.interfCount > 1 then
        some ((s.clearIntfdata i).modifyPriv i.parent fun e =>
          shutdownEntry { e with interfCount := e.interfCount - 1 })
      else
        let s' := (s.clearIntfdata i).modifyPriv i.parent fun e => releaseEntry (shutdownEntry e)
        if e.status = .alloc then some s'
        else some { s' with table := (delMatchBusid s'.table i.parent).1 }

/-- The driver core probes an interface that no driver is bound to, and disconnects any. -/
inductive Act
  | store (buf : List (BitVec 8))
  | probe (i : Interface) (r : ProbeCalls)
  | disconnect (i : Interface) (fromEh : Bool)

/-- One call. -/
def step (s : MatchTable) : Act → Option MatchTable
  | .store buf => some (s.storeMatchBusid buf)
  | .probe i r => if (s.getIntfdata i).isSome then none else some (s.stubProbe i r)
  | .disconnect i fromEh => s.stubDisconnect i fromEh

/-- The latest successful command for `busid`. -/
def latest (s : MatchTable) (busid : Busid) : Option Command :=
  ((s.history.filter (·.2 = busid)).getLast?).map (·.1)

end MatchTable

/-- The driver from `usbip_host_init` on. -/
def matchTable : Machine MatchTable MatchTable.Act where
  init := ⟨List.replicate maxBusid BusIdPriv.zero, [], 0, []⟩
  step := MatchTable.step

open SlotTable

section Table

variable {t : List BusIdPriv} {b : Busid} {e : BusIdPriv} {f : BusIdPriv → BusIdPriv}

/-- The search predicate of `get_busid_idx` is equality of names. -/
theorem decide_named_iff (e : BusIdPriv) (b : Busid) :
    decide (e.name.bytes ≠ [] ∧ e.name = b) = decide (e.key = some b) :=
  decide_eq_decide.mpr BusIdPriv.key_eq_some.symm

theorem getBusidIdx_eq_none : getBusidIdx t b = none ↔ find BusIdPriv.key t b = none := by
  rw [getBusidIdx, List.findIdx?_eq_none_iff, find_eq_none]
  simp only [decide_named_iff, decide_eq_false_iff_not]

/-- `get_busid_idx` stops at the first slot that carries the name. -/
theorem split_of_getBusidIdx {i : ℕ} (h : getBusidIdx t b = some i) :
    ∃ pre e post, t = pre ++ e :: post ∧ pre.length = i ∧ (∀ x ∈ pre, x.key ≠ some b) ∧
      find BusIdPriv.key t b = some e := by
  obtain ⟨pre, e, post, rfl, hlen, he, hpre⟩ := exists_split h
  simp only [decide_named_iff, decide_eq_true_eq, decide_eq_false_iff_not] at he hpre
  refine ⟨pre, e, post, rfl, hlen, hpre, ?_⟩
  rw [find, List.find?_append, ← find, find_eq_none.mpr hpre, Option.none_or,
    List.find?_cons_of_pos (by simpa using he)]

/-- The slot a successful search returns. -/
theorem exists_getBusidIdx (h : find BusIdPriv.key t b = some e) :
    ∃ pre post, t = pre ++ e :: post ∧ (∀ x ∈ pre, x.key ≠ some b) ∧
      getBusidIdx t b = some pre.length := by
  obtain ⟨i, hi⟩ := Option.ne_none_iff_exists'.mp fun hnone => by
    rw [getBusidIdx_eq_none.mp hnone] at h
    cases h
  obtain ⟨pre, e', post, rfl, rfl, hpre, he⟩ := split_of_getBusidIdx hi
  obtain rfl : e' = e := Option.some.inj (he.symm.trans h)
  exact ⟨pre, post, rfl, hpre, hi⟩

/-- `del_match_busid` on a split table. -/
theorem delMatchBusid_split {pre post : List BusIdPriv} (hpre : ∀ x ∈ pre, x.key ≠ some b)
    (he : e.key = some b) : delMatchBusid (pre ++ e :: post) b = (pre ++ e.del :: post, 0) := by
  have hidx : getBusidIdx (pre ++ e :: post) b = some pre.length := by
    unfold getBusidIdx
    simp only [decide_named_iff]
    rw [List.findIdx?_append, List.findIdx?_eq_none_iff.mpr fun x hx => by simpa using hpre x hx]
    simp [List.findIdx?_cons, he]
  rw [delMatchBusid, hidx]
  simp only [modify_split]

end Table

/-- One slot of `t` is overwritten, and its name is the old one, cleared, or free so far. -/
inductive Overwritten (t : List BusIdPriv) (e e' : BusIdPriv) : List BusIdPriv → Prop
  | mk (pre post : List BusIdPriv) (split : t = pre ++ e :: post)
      (fresh : ∀ b, e'.key = some b → e.key = some b ∨ find BusIdPriv.key t b = none) :
      Overwritten t e e' (pre ++ e' :: post)

namespace Overwritten

variable {t t' : List BusIdPriv} {e e' : BusIdPriv} {b : Busid}

/-- A write that keeps or clears the name of a slot. -/
theorem of_split {pre post : List BusIdPriv} (h : t = pre ++ e :: post)
    (hkey : e'.key = e.key ∨ e'.key = none) : Overwritten t e e' (pre ++ e' :: post) := by
  refine .mk pre post h fun b hb => ?_
  rcases hkey with hkey | hkey
  · exact .inl (hkey ▸ hb)
  · rw [hkey] at hb
    cases hb

theorem mem (h : Overwritten t e e' t') : e ∈ t := by
  obtain ⟨pre, post, rfl, -⟩ := h
  simp

/-- A property of all slots is checked on the new one. -/
theorem forall_mem {P : BusIdPriv → Prop} (h : Overwritten t e e' t') (ht : ∀ x ∈ t, P x)
    (he : P e') : ∀ x ∈ t', P x := by
  obtain ⟨pre, post, rfl, -⟩ := h
  intro x hx
  simp only [List.mem_append, List.mem_cons] at hx ht
  rcases hx with hx | rfl | hx
  · exact ht x (.inl hx)
  · exact he
  · exact ht x (.inr (.inr hx))

theorem distinct (h : Overwritten t e e' t') (ht : Distinct BusIdPriv.key t) :
    Distinct BusIdPriv.key t' := by
  obtain ⟨pre, post, rfl, hfresh⟩ := h
  exact ht.replace hfresh

/-- The table as a map after the write. -/
theorem find_eq (h : Overwritten t e e' t') (ht : Distinct BusIdPriv.key t) :
    find BusIdPriv.key t' b =
      if e'.key = some b then some e'
      else if e.key = some b then none else find BusIdPriv.key t b := by
  obtain ⟨pre, post, rfl, hfresh⟩ := h
  exact find_replace ht hfresh

end Overwritten

section Writes

variable {t : List BusIdPriv} {b : Busid} {e : BusIdPriv}

theorem BusIdPriv.name_del (e : BusIdPriv) :
    e.del.name = if e.status = .other then Busid.empty else e.name := by
  unfold BusIdPriv.del BusIdPriv.clearName BusIdPriv.markRemoved
  split <;> split <;> rfl

theorem BusIdPriv.del_of_other (h : e.status = .other) :
    e.del = { e with name := Busid.empty } := by
  unfold BusIdPriv.del BusIdPriv.clearName BusIdPriv.markRemoved
  rw [if_pos h, if_neg fun hne => hne.1 h]

theorem BusIdPriv.key_del (e : BusIdPriv) : e.del.key = e.key ∨ e.del.key = none := by
  by_cases h : e.status = .other
  · right
    rw [BusIdPriv.key, BusIdPriv.name_del, if_pos h]
    rfl
  · left
    rw [BusIdPriv.key, BusIdPriv.key, BusIdPriv.name_del, if_neg h]

/-- **`add_match_busid`** does nothing for a name in the table, fills a free slot otherwise,
and fails only when there is none. -/
theorem addMatchBusid_cases (t : List BusIdPriv) (b : Busid) :
    (addMatchBusid t b = (t, 0) ∧ (find BusIdPriv.key t b).isSome) ∨
    addMatchBusid t b = (t, -1) ∨
    ∃ e t', addMatchBusid t b = (t', 0) ∧ find BusIdPriv.key t b = none ∧ e.key = none ∧
      Overwritten t e (e.add b) t' := by
  unfold addMatchBusid
  split
  next h =>
    obtain ⟨i, hi⟩ := Option.isSome_iff_exists.mp h
    obtain ⟨pre, e, post, -, -, -, he⟩ := split_of_getBusidIdx hi
    exact .inl ⟨rfl, by rw [he]; rfl⟩
  next h =>
    have hnone : find BusIdPriv.key t b = none := by
      rw [← getBusidIdx_eq_none]
      simpa using h
    split
    · exact .inr (.inl rfl)
    next i hi =>
      obtain ⟨pre, e, post, rfl, rfl, he, -⟩ := exists_split hi
      have hfree : e.key = none := if_pos (by simpa using he)
      refine .inr (.inr ⟨e, _, rfl, hnone, hfree, ?_⟩)
      rw [modify_split]
      refine .mk pre post rfl fun k hk => .inr ?_
      obtain ⟨-, rfl⟩ := BusIdPriv.key_eq_some.mp hk
      exact hnone

/-- **`del_match_busid`** fails for a name that is not in the table and otherwise rewrites its
slot. -/
theorem delMatchBusid_cases (t : List BusIdPriv) (b : Busid) :
    (delMatchBusid t b = (t, -1) ∧ find BusIdPriv.key t b = none) ∨
    ∃ e t', delMatchBusid t b = (t', 0) ∧ find BusIdPriv.key t b = some e ∧
      Overwritten t e e.del t' := by
  cases h : find BusIdPriv.key t b with
  | none =>
    left
    rw [delMatchBusid, getBusidIdx_eq_none.mpr h]
    exact ⟨rfl, rfl⟩
  | some e =>
    right
    obtain ⟨pre, post, rfl, hpre, -⟩ := exists_getBusidIdx h
    exact ⟨e, _, delMatchBusid_split hpre (mem_of_find h).2, rfl, .of_split rfl e.key_del⟩

end Writes

namespace BusIdPriv

/-- What the fields of a slot say about each other: the device is there in states ALLOC and
REMOV only, OTHER is the state of free slots, and a free slot has no device. -/
structure Ok (e : BusIdPriv) : Prop where
  sdev_iff : e.sdev.isSome = true ↔ e.status = .alloc ∨ e.status = .remov
  free_of_other : e.status = .other → e.key = none
  no_sdev : e.key = none → e.sdev = none

/-- The match check lets the entry pass. -/
def accepted (e : BusIdPriv) : Prop := e.status ≠ .remov ∧ e.status ≠ .other

variable {e : BusIdPriv} {b : Busid}

theorem ok_zero : zero.Ok := ⟨by decide, by decide, by decide⟩

theorem Ok.add (h : e.Ok) (hfree : e.key = none) : (e.add b).Ok ∧ (e.add b).status = .added := by
  have hnone := h.no_sdev hfree
  have hstatus : e.status ≠ .alloc ∧ e.status ≠ .remov := by
    constructor
    · intro hs
      have := h.sdev_iff.mpr (.inl hs)
      simp [hnone] at this
    · intro hs
      have := h.sdev_iff.mpr (.inr hs)
      simp [hnone] at this
  have hadded : (e.add b).status = .added := if_pos hstatus
  refine ⟨⟨?_, ?_, fun _ => hnone⟩, hadded⟩
  · rw [hadded]
    simp [BusIdPriv.add, hnone]
  · rw [hadded]
    intro hne
    cases hne

theorem Ok.del (h : e.Ok) (hnamed : e.key = some b) :
    e.del.Ok ∧ e.del.key = some b ∧ e.del.sdev = e.sdev ∧ e.del.interfCount = e.interfCount ∧
      e.del.status = if e.status = .added then .added else .remov := by
  have hother : e.status ≠ .other := by
    intro ho
    rw [h.free_of_other ho] at hnamed
    cases hnamed
  have hdel : e.del = if e.status = .added then e else { e with status := .remov } := by
    unfold BusIdPriv.del clearName markRemoved
    rw [if_neg hother]
    by_cases ha : e.status = .added
    · simp [ha]
    · simp [ha, hother]
  rw [hdel]
  split
  next ha => exact ⟨h, hnamed, rfl, rfl, ha⟩
  next ha =>
    refine ⟨⟨?_, ?_, ?_⟩, hnamed, rfl, rfl, rfl⟩
    · have := h.sdev_iff
      cases hs : e.status with
      | other => exact absurd hs hother
      | added => exact absurd hs ha
      | remov => simpa [hs] using this
      | alloc => simpa [hs] using this
    · intro hne
      cases hne
    · exact h.no_sdev

end BusIdPriv

namespace MatchTable

variable {s s' : MatchTable} {i : Interface} {b : Busid} {e : BusIdPriv}

/-- The entry that the kernel's search by name finds. -/
def lookup (s : MatchTable) (b : Busid) : Option BusIdPriv := find BusIdPriv.key s.table b

theorem getBusidPriv_eq (s : MatchTable) (b : Busid) : s.getBusidPriv b = s.lookup b := by
  unfold getBusidPriv lookup
  cases h : getBusidIdx s.table b with
  | none => rw [getBusidIdx_eq_none.mp h, Option.bind_none]
  | some i =>
    obtain ⟨pre, e, post, hs, rfl, -, he⟩ := split_of_getBusidIdx h
    rw [he, Option.bind_some, hs, List.getElem?_append_right (le_refl _), Nat.sub_self,
      List.getElem?_cons_zero]

theorem key_of_lookup (h : s.lookup b = some e) : e ∈ s.table ∧ e.key = some b :=
  mem_of_find h

theorem named_of_lookup (h : s.lookup b = some e) : b.bytes ≠ [] := by
  obtain ⟨hne, rfl⟩ := BusIdPriv.key_eq_some.mp (key_of_lookup h).2
  exact hne

/-- Writing through the pointer to an entry. -/
theorem modifyPriv_eq (h : s.lookup b = some e) :
    ∃ pre post, s.table = pre ++ e :: post ∧ (∀ x ∈ pre, x.key ≠ some b) ∧
      ∀ d n f, ({ s with intfdata := d, nextSdev := n } : MatchTable).modifyPriv b f =
        { s with intfdata := d, nextSdev := n, table := pre ++ f e :: post } := by
  obtain ⟨pre, post, hs, hpre, hi⟩ := exists_getBusidIdx h
  refine ⟨pre, post, hs, hpre, fun d n f => ?_⟩
  rw [hs] at hi
  unfold modifyPriv
  simp only [hs, hi, modify_split]

theorem matchCheck_iff : s.matchCheck b = true ↔ ∃ e, s.lookup b = some e ∧ e.accepted := by
  unfold matchCheck
  rw [getBusidPriv_eq]
  cases s.lookup b with
  | none => simp
  | some e => simp [BusIdPriv.accepted]

/-! ### The invariant -/

/-- The number of interfaces of a device that the driver is bound to. -/
def bound (s : MatchTable) (b : Busid) : ℕ := s.intfdata.countP (·.1.parent = b)

/-- The number of interfaces an entry accounts for. -/
def accounted : Option BusIdPriv → ℤ
  | none => 0
  | some e => if e.sdev.isSome then e.interfCount else 0

/-- What every call keeps. -/
structure Sound (s : MatchTable) : Prop where
  distinct : Distinct BusIdPriv.key s.table
  ok : ∀ e ∈ s.table, e.Ok
  bound_once : (s.intfdata.map (·.1)).Nodup
  counted : ∀ b, (s.bound b : ℤ) = accounted (s.lookup b)

/-- A write to the slot of `b`, or to a free slot that gets the name `b`, keeps the invariant
when the account of `b` stays right. -/
theorem Sound.overwrite (h : s.Sound) {e e' : BusIdPriv} {b : Busid}
    (hw : Overwritten s.table e e' s'.table) (hok : e'.Ok)
    (hnodup : (s'.intfdata.map (·.1)).Nodup)
    (hname : e.key = some b ∨ e.key = none) (hname' : e'.key = some b ∨ e'.key = none)
    (hown : s'.bound b = accounted (s'.lookup b))
    (hother : ∀ k, k ≠ b → s'.bound k = s.bound k) : s'.Sound := by
  refine ⟨hw.distinct h.distinct, hw.forall_mem h.ok hok, hnodup, fun k => ?_⟩
  by_cases hkb : k = b
  · rw [hkb]
    exact hown
  · have hne' : e'.key ≠ some k := by
      rcases hname' with hn' | hn' <;> rw [hn'] <;> simp [Ne.symm hkb]
    have hne : e.key ≠ some k := by
      rcases hname with hn | hn <;> rw [hn] <;> simp [Ne.symm hkb]
    rw [lookup, hw.find_eq h.distinct, if_neg hne', if_neg hne, hother k hkb]
    exact h.counted k

/-! ### The commands -/

/-- The names under which other entries are found do not depend on the history. -/
theorem Sound.command (h : s.Sound) {c : Command} {t : List BusIdPriv} {r : ℤ}
    (hc : c.apply s.table b = (t, r)) {hist : List (Command × Busid)} :
    ({ s with table := t, history := hist } : MatchTable).Sound := by
  cases c with
  | add =>
    rcases addMatchBusid_cases s.table b with ⟨heq, -⟩ | heq | ⟨e, t', heq, hnone, hfree, hw⟩
    all_goals obtain ⟨rfl, -⟩ := Prod.mk.inj (hc.symm.trans heq)
    · exact ⟨h.distinct, h.ok, h.bound_once, h.counted⟩
    · exact ⟨h.distinct, h.ok, h.bound_once, h.counted⟩
    · have hok := (h.ok e hw.mem).add (b := b) hfree
      have hkey : (e.add b).key = some b ∨ (e.add b).key = none := by
        unfold BusIdPriv.key
        split
        · exact .inr rfl
        · exact .inl rfl
      have hb := h.counted b
      refine h.overwrite hw hok.1 h.bound_once (.inr hfree) hkey ?_ fun k _ => rfl
      rw [lookup, hw.find_eq h.distinct]
      -- the new entry has no device yet
      have hnosdev : accounted (some (e.add b)) = 0 := by
        rw [accounted]
        have : (e.add b).sdev = none := (h.ok e hw.mem).no_sdev hfree
        simp [this]
      rw [lookup, hnone] at hb
      split
      · rw [hnosdev]
        exact hb
      · rw [hfree, if_neg (by simp), hnone]
        exact hb
  | del =>
    rcases delMatchBusid_cases s.table b with ⟨heq, -⟩ | ⟨e, t', heq, he, hw⟩
    all_goals obtain ⟨rfl, -⟩ := Prod.mk.inj (hc.symm.trans heq)
    · exact ⟨h.distinct, h.ok, h.bound_once, h.counted⟩
    · obtain ⟨hmem, hnamed⟩ := key_of_lookup he
      obtain ⟨hok, hkey, hsdev, hcount, -⟩ := (h.ok e hmem).del hnamed
      have hb := h.counted b
      refine h.overwrite hw hok h.bound_once (.inl hnamed) (.inl hkey) ?_ fun k _ => rfl
      rw [lookup, hw.find_eq h.distinct, if_pos hkey, accounted, hsdev, hcount]
      rw [lookup, he] at hb
      exact hb

/-! ### The driver callbacks -/

theorem countP_erase {l : List (Interface × ℕ)} (hl : (l.map (·.1)).Nodup)
    {p : Interface × ℕ} (hp : p ∈ l) (k : Busid) :
    (l.filter (·.1 ≠ p.1)).countP (·.1.parent = k) + (if p.1.parent = k then 1 else 0) =
      l.countP (·.1.parent = k) := by
  induction l with
  | nil => cases hp
  | cons q l ih =>
    obtain ⟨hq, hl⟩ := List.nodup_cons.mp hl
    rcases List.mem_cons.mp hp with rfl | hp
    · have hkeep : l.filter (·.1 ≠ p.1) = l := by
        refine List.filter_eq_self.mpr fun x hx => ?_
        have : x.1 ≠ p.1 := fun he => hq (List.mem_map.mpr ⟨x, hx, he⟩)
        simpa using this
      rw [List.filter_cons_of_neg (by simp), hkeep, List.countP_cons]
      simp
    · have hne : q.1 ≠ p.1 := fun he => hq (List.mem_map.mpr ⟨p, hp, he.symm⟩)
      rw [List.filter_cons_of_pos (by simpa using hne), List.countP_cons, List.countP_cons,
        ← ih hl hp]
      omega

/-- The private data of an interface is set when the driver is bound to it. -/
theorem mem_of_getIntfdata {d : ℕ} (h : s.getIntfdata i = some d) :
    ∃ p ∈ s.intfdata, p.1 = i := by
  obtain ⟨p, hp, -⟩ := Option.map_eq_some_iff.mp h
  exact ⟨p, List.mem_of_find?_eq_some hp, by simpa using List.find?_some hp⟩

theorem filter_of_getIntfdata (h : s.getIntfdata i = none) :
    s.intfdata.filter (·.1 ≠ i) = s.intfdata := by
  refine List.filter_eq_self.mpr fun x hx => ?_
  simp only [getIntfdata, Option.map_eq_none_iff, List.find?_eq_none] at h
  simpa using h x hx

theorem nodup_filter (h : (s.intfdata.map (·.1)).Nodup) :
    ((s.intfdata.filter (·.1 ≠ i)).map (·.1)).Nodup :=
  h.sublist (List.filter_sublist.map _)

/-- A probe by the driver binds the interface to the entry of its device. -/
theorem Sound.bind (h : s.Sound) (hi : s.getIntfdata i = none) {d n : ℕ} {e' : BusIdPriv}
    {t : List BusIdPriv} (he : s.lookup i.parent = some e) (hw : Overwritten s.table e e' t)
    (hname : e'.key = e.key) (hok : e'.Ok)
    (hcount : accounted (some e') = accounted (some e) + 1) :
    ({ s with table := t, nextSdev := n }.setIntfdata i d).Sound := by
  obtain ⟨hmem, hkey⟩ := key_of_lookup he
  rw [hkey] at hname
  have hnotin : i ∉ s.intfdata.map (·.1) := by
    intro hin
    obtain ⟨p, hp, rfl⟩ := List.mem_map.mp hin
    simp only [getIntfdata, Option.map_eq_none_iff, List.find?_eq_none] at hi
    simpa using hi p hp
  have hdata : s.intfdata.filter (·.1 ≠ i) = s.intfdata := filter_of_getIntfdata hi
  refine Sound.overwrite h hw hok ?_ (.inl hkey) (.inl hname) ?_ fun k hk => ?_
  · simp only [setIntfdata, hdata, List.map_cons, List.nodup_cons]
    exact ⟨hnotin, h.bound_once⟩
  · have hb := h.counted i.parent
    rw [he] at hb
    rw [lookup, setIntfdata, hw.find_eq h.distinct, if_pos hname, hcount, ← hb, bound, hdata,
      List.countP_cons_of_pos (by simp), bound]
    push_cast
    rfl
  · rw [bound, setIntfdata, hdata, List.countP_cons_of_neg (by simpa using Ne.symm hk)]
    rfl

/-- Disconnecting a bound interface gives its share of the entry back. -/
theorem Sound.unbind (h : s.Sound) {d : ℕ} (hi : s.getIntfdata i = some d) {e' : BusIdPriv}
    {t : List BusIdPriv} (he : s.lookup i.parent = some e) (hw : Overwritten s.table e e' t)
    (hok : e'.Ok)
    (hcount : (e'.key = e.key ∧ accounted (some e') = accounted (some e) - 1) ∨
      (e'.key = none ∧ accounted (some e) ≤ 1)) :
    ({ s with table := t, intfdata := s.intfdata.filter (·.1 ≠ i) } : MatchTable).Sound := by
  obtain ⟨hmem, hkey⟩ := key_of_lookup he
  obtain ⟨p, hp, rfl⟩ := mem_of_getIntfdata hi
  have hb := h.counted p.1.parent
  have herase := countP_erase h.bound_once hp
  rw [he, bound] at hb
  refine h.overwrite hw hok (nodup_filter h.bound_once) (.inl hkey) ?_ ?_ fun k hk => ?_
  · exact hcount.imp (fun hc => hc.1.trans hkey) (·.1)
  · have hown := herase p.1.parent
    rw [if_pos rfl] at hown
    rw [lookup, hw.find_eq h.distinct, bound, hkey, if_pos rfl]
    dsimp only
    rcases hcount with ⟨hkey', hcount⟩ | ⟨hkey', hcount⟩
    · rw [hkey', hkey, if_pos rfl, hcount]
      omega
    · rw [hkey', if_neg (by simp), accounted]
      omega
  · have hoth := herase k
    rw [if_neg (Ne.symm hk), add_zero] at hoth
    exact hoth

/-- The driver core disconnects only from a device whose entry and `stub_device` are there,
so `stub_disconnect` reaches neither `BUG()` nor a null pointer. -/
theorem Sound.entry_of_bound (h : s.Sound) {d : ℕ} (hi : s.getIntfdata i = some d) :
    ∃ e, s.lookup i.parent = some e ∧ e.sdev.isSome = true ∧ 1 ≤ e.interfCount := by
  obtain ⟨p, hp, rfl⟩ := mem_of_getIntfdata hi
  have hpos : 0 < s.bound p.1.parent := List.countP_pos_iff.mpr ⟨p, hp, by simp⟩
  have hb := h.counted p.1.parent
  cases he : s.lookup p.1.parent with
  | none =>
    rw [he, accounted] at hb
    omega
  | some e =>
    rw [he, accounted] at hb
    by_cases hs : e.sdev.isSome
    · rw [if_pos hs] at hb
      exact ⟨e, rfl, hs, by omega⟩
    · rw [if_neg hs] at hb
      omega

/-! ### Every call keeps the invariant -/

theorem Sound.storeMatchBusid (h : s.Sound) (buf : List (BitVec 8)) :
    (s.storeMatchBusid buf).Sound := by
  unfold MatchTable.storeMatchBusid
  split
  · exact h
  next c busid _ =>
    split
    · exact h
    · exact h.command (Prod.mk.eta (p := c.apply s.table busid)).symm

/-- A call that keeps or clears the name of the slot of `b`, and never lets the match check
change its answer. -/
structure Keeps (s : MatchTable) (b : Busid) (e e' : BusIdPriv) (t : List BusIdPriv) : Prop where
  found : s.lookup b = some e
  write : Overwritten s.table e e' t
  ok : e'.Ok
  kept : (e'.key = e.key ∧ (e'.accepted ↔ e.accepted)) ∨ (e'.key = none ∧ ¬ e.accepted)

/-- **`stub_probe`** leaves everything as it is, or binds the interface to the entry of its
device, or fails after it has touched the entry. -/
theorem Sound.stubProbe_cases (h : s.Sound) (hi : s.getIntfdata i = none) (r : ProbeCalls) :
    s.stubProbe i r = s ∨
    ∃ e e' t n, s.Keeps i.parent e e' t ∧ e'.key = e.key ∧
      ((∃ d, s.stubProbe i r = { s with table := t, nextSdev := n }.setIntfdata i d ∧
          accounted (some e') = accounted (some e) + 1) ∨
        (s.stubProbe i r = { s with table := t, nextSdev := n } ∧
          accounted (some e') = accounted (some e))) := by
  by_cases hcheck : s.matchCheck i.parent = true
  swap
  · left
    rw [stubProbe, if_pos (by simpa using hcheck)]
  obtain ⟨e, he, hacc⟩ := matchCheck_iff.mp hcheck
  obtain ⟨hmem, hkey⟩ := key_of_lookup he
  have hok := h.ok e hmem
  obtain ⟨pre, post, hs, -, hmod⟩ := modifyPriv_eq he
  have hsame : ∀ n t, ({ s with table := t, nextSdev := n } : MatchTable).clearIntfdata i =
      { s with table := t, nextSdev := n } := by
    intro n t
    rw [clearIntfdata, filter_of_getIntfdata hi]
  -- one copy of the result is split, not the three of the goal
  generalize hprobe : s.stubProbe i r = s'
  rw [stubProbe, getBusidPriv_eq, he, hcheck] at hprobe
  dsimp only at hprobe
  split at hprobe
  · exact .inl hprobe.symm
  split at hprobe
  · exact .inl hprobe.symm
  split at hprobe
  · exact .inl hprobe.symm
  split at hprobe
  next halloc =>
    split at hprobe
    · exact .inl hprobe.symm
    next d hd =>
      split at hprobe
      · -- a further interface of a device that is already there
        refine .inr ⟨e, { e with interfCount := e.interfCount + 1 }, _, s.nextSdev,
          ⟨he, .of_split hs (.inl rfl), ⟨hok.1, hok.2, hok.3⟩, .inl ⟨rfl, Iff.rfl⟩⟩, rfl,
          .inl ⟨d, ?_, by simp [accounted, hd]⟩⟩
        exact hprobe.symm.trans (congrArg (·.setIntfdata i d) (hmod s.intfdata s.nextSdev _))
      · exact .inl (hprobe.symm.trans (hsame s.nextSdev s.table))
  next hnalloc =>
    split at hprobe
    · exact .inl hprobe.symm
    have hsdev : e.sdev = none := by
      have := hok.sdev_iff
      simp only [hnalloc, hacc.1, or_self, iff_false] at this
      simpa using this
    split at hprobe
    · -- the first interface of a device
      refine .inr ⟨e, registerEntry s.nextSdev e, _, s.nextSdev + 1,
        ⟨he, .of_split hs (.inl rfl), ⟨?_, ?_, fun hnone => ?_⟩, .inl ⟨rfl, ?_⟩⟩, rfl,
        .inl ⟨s.nextSdev, ?_, by simp [accounted, registerEntry, hsdev]⟩⟩
      · simp [registerEntry]
      · simp [registerEntry]
      · cases hkey.symm.trans hnone
      · simp [BusIdPriv.accepted, registerEntry, hacc.1, hacc.2]
      · exact hprobe.symm.trans
          (congrArg (·.setIntfdata i s.nextSdev) (hmod s.intfdata (s.nextSdev + 1) _))
    · refine .inr ⟨e, unregisterEntry e, _, s.nextSdev + 1,
        ⟨he, .of_split hs (.inl rfl), ⟨?_, hok.2, fun _ => rfl⟩, .inl ⟨rfl, Iff.rfl⟩⟩, rfl,
        .inr ⟨?_, by simp [accounted, unregisterEntry, hsdev]⟩⟩
      · simp [unregisterEntry, hnalloc, hacc.1]
      · refine hprobe.symm.trans
          ((congrArg (·.clearIntfdata i) (hmod s.intfdata (s.nextSdev + 1) _)).trans ?_)
        exact hsame _ _

theorem Sound.stubProbe (h : s.Sound) (hi : s.getIntfdata i = none) (r : ProbeCalls) :
    (s.stubProbe i r).Sound := by
  rcases h.stubProbe_cases hi r with heq | ⟨e, e', t, n, hk, hkey, hcases⟩
  · rw [heq]
    exact h
  · rcases hcases with ⟨d, heq, hcount⟩ | ⟨heq, hcount⟩
    all_goals rw [heq]
    · exact h.bind hi hk.found hk.write hkey hk.ok hcount
    · have hb := h.counted i.parent
      have hkey' := hkey.trans (key_of_lookup hk.found).2
      rw [hk.found, ← hcount] at hb
      refine h.overwrite hk.write hk.ok h.bound_once (.inl (key_of_lookup hk.found).2)
        (.inl hkey') ?_ fun k _ => rfl
      rw [lookup, hk.write.find_eq h.distinct, if_pos hkey']
      exact hb

theorem shutdownEntry_eq (e : BusIdPriv) :
    shutdownEntry e = { e with shutdownBusid := (shutdownEntry e).shutdownBusid } := by
  unfold shutdownEntry
  split <;> rfl

/-- **`stub_disconnect`** does nothing for an interface without private data; otherwise it
takes the interface out of the entry's account or frees the entry. -/
theorem Sound.stubDisconnect_cases (h : s.Sound) {fromEh : Bool}
    (hd : s.stubDisconnect i fromEh = some s') :
    s' = s ∨
    ∃ d e e' t, s.getIntfdata i = some d ∧
      s' = { s with table := t, intfdata := s.intfdata.filter (·.1 ≠ i) } ∧
      s.Keeps i.parent e e' t ∧
      ((e'.key = e.key ∧ accounted (some e') = accounted (some e) - 1) ∨
        (e'.key = none ∧ accounted (some e) ≤ 1)) := by
  unfold MatchTable.stubDisconnect at hd
  rw [getBusidPriv_eq] at hd
  cases hi : s.getIntfdata i with
  | none =>
    left
    cases he : s.lookup i.parent with
    | none =>
      rw [he] at hd
      cases hd
    | some e =>
      rw [he, hi] at hd
      exact (Option.some.inj hd).symm
  | some d =>
    right
    obtain ⟨e, he, hsdev, hcount⟩ := h.entry_of_bound hi
    obtain ⟨hmem, hkey⟩ := key_of_lookup he
    have hok := h.ok e hmem
    have hstatus := hok.sdev_iff.mp hsdev
    obtain ⟨pre, post, hs, hpre, hmod⟩ := modifyPriv_eq he
    have hmod' : ∀ f, (s.clearIntfdata i).modifyPriv i.parent f =
        { s with intfdata := s.intfdata.filter (·.1 ≠ i), table := pre ++ f e :: post } :=
      hmod (s.intfdata.filter (·.1 ≠ i)) s.nextSdev
    have hnn : ¬ e.sdev.isNone = true := by simp [Option.isSome_iff_ne_none.mp hsdev]
    have hown : accounted (some e) = e.interfCount := if_pos hsdev
    rw [he, hi] at hd
    simp only [hmod', if_neg hnn] at hd
    split at hd
    · -- the event handler gives its interface back and leaves the device
      cases hd
      exact ⟨d, e, _, _, rfl, rfl, ⟨he, .of_split hs (.inl rfl), ⟨hok.1, hok.2, hok.3⟩,
        .inl ⟨rfl, Iff.rfl⟩⟩, .inl ⟨rfl, by simp [accounted, hsdev]⟩⟩
    split at hd
    · -- other interfaces of the device stay bound
      cases hd
      rw [shutdownEntry_eq]
      exact ⟨d, e, _, _, rfl, rfl, ⟨he, .of_split hs (.inl rfl), ⟨hok.1, hok.2, hok.3⟩,
        .inl ⟨rfl, Iff.rfl⟩⟩, .inl ⟨rfl, by simp [accounted, hsdev]⟩⟩
    split at hd
    next halloc =>
      cases hd
      rw [shutdownEntry_eq]
      refine ⟨d, e, _, _, rfl, rfl, ⟨he, .of_split hs (.inl rfl), ⟨?_, ?_, fun _ => rfl⟩,
        .inl ⟨rfl, ?_⟩⟩, .inl ⟨rfl, ?_⟩⟩
      · simp [releaseEntry, halloc]
      · simp [releaseEntry, halloc]
      · simp [BusIdPriv.accepted, releaseEntry, halloc]
      · have hzero : ∀ e, accounted (some (releaseEntry e)) = 0 := fun e => rfl
        rw [hzero]
        omega
    next hnalloc =>
      -- the entry was marked as removed: `del_match_busid` now clears the name
      have hremov := hstatus.resolve_left hnalloc
      have hdel : delMatchBusid (pre ++ releaseEntry (shutdownEntry e) :: post) _ = _ :=
        delMatchBusid_split hpre (by rw [shutdownEntry_eq]; exact hkey)
      have hother : (releaseEntry (shutdownEntry e)).status = .other := by
        rw [shutdownEntry_eq]
        exact if_neg hnalloc
      rw [hdel, BusIdPriv.del_of_other hother] at hd
      cases hd
      refine ⟨d, e, _, _, rfl, rfl, ⟨he, .of_split hs (.inr rfl), ⟨⟨fun hs => ?_, fun hs => ?_⟩,
        fun _ => rfl, fun _ => rfl⟩, .inr ⟨rfl, fun hacc => hacc.1 hremov⟩⟩,
        .inr ⟨rfl, by omega⟩⟩
      · cases hs
      · rcases hs with hs | hs <;> cases hother.symm.trans hs

theorem Sound.stubDisconnect (h : s.Sound) {fromEh : Bool}
    (hd : s.stubDisconnect i fromEh = some s') : s'.Sound := by
  rcases h.stubDisconnect_cases hd with rfl | ⟨d, e, e', t, hi, rfl, hk, hcount⟩
  · exact h
  · exact h.unbind hi hk.found hk.write hk.ok hcount

theorem Sound.step (h : s.Sound) {a : Act} (hs : s.step a = some s') : s'.Sound := by
  cases a with
  | store buf =>
    obtain rfl : s.storeMatchBusid buf = s' := Option.some.inj hs
    exact h.storeMatchBusid buf
  | probe i r =>
    simp only [MatchTable.step] at hs
    split at hs
    · cases hs
    next hi =>
      cases hs
      exact h.stubProbe (by simpa using hi) r
  | disconnect i fromEh => exact h.stubDisconnect hs

theorem eq_zero_of_mem_init : ∀ e ∈ matchTable.init.table, e = BusIdPriv.zero := by
  intro e he
  exact List.eq_of_mem_replicate he

theorem lookup_init (b : Busid) : matchTable.init.lookup b = none := by
  refine find_eq_none.mpr fun e he => ?_
  rw [eq_zero_of_mem_init e he]
  intro hk
  cases hk

theorem sound_init : matchTable.init.Sound := by
  have hkey := eq_zero_of_mem_init
  refine ⟨?_, ?_, List.nodup_nil, fun b => ?_⟩
  · refine List.pairwise_of_forall_mem_list fun x hx y _ k hk => ?_
    rw [hkey x hx] at hk
    cases hk
  · intro e he
    rw [hkey e he]
    exact BusIdPriv.ok_zero
  · rw [lookup_init]
    rfl

theorem sound_of_reachable (h : matchTable.Reachable s) : s.Sound :=
  h.invariant sound_init fun _ _ _ hs _ hstep => hs.step hstep

/-! ### The match check follows the commands -/

/-- The match check answers for every interface as the latest successful command says. -/
def FollowsLatest (s : MatchTable) : Prop :=
  ∀ i : Interface, s.matchCheck i.parent = true ↔ s.latest i.parent = some .add

/-- The status of the entry of a name. -/
def status (s : MatchTable) (b : Busid) : Option BusidStatus :=
  (s.getBusidPriv b).map (·.status)

/-- The state in which a command reports success and changes nothing. -/
def idleStatus : Command → BusidStatus
  | .add => .remov
  | .del => .added

/-- A `del` does not meet an entry that waits for its device, and an `add` does not meet one
that is being removed. -/
def TakesEffect (s : MatchTable) : Act → Prop
  | .store buf => ∀ p ∈ parseMatchBusid buf, s.status p.2 ≠ some (idleStatus p.1)
  | _ => True

instance (s : MatchTable) : (a : Act) → Decidable (s.TakesEffect a)
  | .store buf => inferInstanceAs
      (Decidable (∀ p ∈ parseMatchBusid buf, s.status p.2 ≠ some (idleStatus p.1)))
  | .probe .. => .isTrue trivial
  | .disconnect .. => .isTrue trivial

theorem status_eq : s.status b = (s.lookup b).map (·.status) := by
  rw [status, getBusidPriv_eq]

theorem matchCheck_eq_of_keeps (h : s.Sound) {e' : BusIdPriv} {t : List BusIdPriv}
    (hk : s.Keeps b e e' t) (ht : s'.table = t) (k : Busid) :
    s'.matchCheck k = true ↔ s.matchCheck k = true := by
  obtain ⟨-, hkey⟩ := key_of_lookup hk.found
  rw [matchCheck_iff, matchCheck_iff, lookup, ht, hk.write.find_eq h.distinct, hkey]
  by_cases hkb : k = b
  · subst hkb
    rw [if_pos rfl, hk.found]
    rcases hk.kept with ⟨hk', hacc⟩ | ⟨hk', hacc⟩
    · rw [if_pos (hk'.trans hkey)]
      simpa using hacc
    · rw [hk', if_neg (by simp)]
      simpa using hacc
  · have hne' : e'.key ≠ some k := by
      rcases hk.kept with ⟨hk', -⟩ | ⟨hk', -⟩ <;> rw [hk'] <;> simp [hkey, Ne.symm hkb]
    rw [if_neg hne', if_neg (by simpa using Ne.symm hkb), ← lookup]

theorem latest_append {c : Command} {k : Busid} {t : List BusIdPriv} :
    ({ s with table := t, history := s.history ++ [(c, b)] } : MatchTable).latest k =
      if k = b then some c else s.latest k := by
  unfold latest
  rw [List.filter_append]
  by_cases hk : k = b
  · subst hk
    simp
  · have hbk : ¬ b = k := fun h => hk h.symm
    simp [hk, hbk]

theorem BusIdPriv.key_add (e : BusIdPriv) (b : Busid) :
    (e.add b).key = if b.bytes = [] then none else some b := rfl

/-- A command leaves the entries of the names it does not mention. -/
theorem lookup_command (h : s.Sound) {c : Command} {k : Busid} (hk : k ≠ b) :
    find BusIdPriv.key (c.apply s.table b).1 k = s.lookup k := by
  cases c with
  | add =>
    rcases addMatchBusid_cases s.table b with ⟨heq, -⟩ | heq | ⟨e, t', heq, -, hfree, hw⟩
    all_goals rw [Command.apply, heq]
    · rfl
    · rfl
    · have hkey : (e.add b).key ≠ some k := by
        rw [BusIdPriv.key_add]
        split <;> simp [Ne.symm hk]
      rw [hw.find_eq h.distinct, if_neg hkey, hfree, if_neg (by simp), lookup]
  | del =>
    rcases delMatchBusid_cases s.table b with ⟨heq, -⟩ | ⟨e, t', heq, he, hw⟩
    all_goals rw [Command.apply, heq]
    · rfl
    · obtain ⟨hmem, hnamed⟩ := key_of_lookup (s := s) he
      obtain ⟨-, hkey, -⟩ := (h.ok e hmem).del hnamed
      rw [hw.find_eq h.distinct, hkey, hnamed, if_neg (by simpa using Ne.symm hk),
        if_neg (by simpa using Ne.symm hk), lookup]

/-- **A command that takes effect is what the match check answers.** -/
theorem lookup_command_self (h : s.Sound) {c : Command} (hr : 0 ≤ (c.apply s.table b).2)
    (hb : b.bytes ≠ []) (heff : s.status b ≠ some (idleStatus c)) :
    ∃ e, find BusIdPriv.key (c.apply s.table b).1 b = some e ∧ (e.accepted ↔ c = .add) := by
  rw [status_eq] at heff
  cases c with
  | add =>
    rcases addMatchBusid_cases s.table b with ⟨heq, hsome⟩ | heq | ⟨e, t', heq, hnone, hfree, hw⟩
    all_goals rw [Command.apply, heq] at hr ⊢
    · -- the entry is there, and it is not being removed
      obtain ⟨e, he⟩ := Option.isSome_iff_exists.mp hsome
      obtain ⟨hmem, hkey⟩ := key_of_lookup (s := s) he
      have hother : e.status ≠ .other := by
        intro ho
        cases ((h.ok e hmem).free_of_other ho).symm.trans hkey
      rw [lookup, he] at heff
      exact ⟨e, he, by simpa [BusIdPriv.accepted, hother, idleStatus] using heff⟩
    · cases hr
    · have hkey : (e.add b).key = some b := if_neg hb
      have hadded := ((h.ok e hw.mem).add (b := b) hfree).2
      exact ⟨e.add b, by rw [hw.find_eq h.distinct, if_pos hkey],
        by simp [BusIdPriv.accepted, hadded]⟩
  | del =>
    rcases delMatchBusid_cases s.table b with ⟨heq, -⟩ | ⟨e, t', heq, he, hw⟩
    all_goals rw [Command.apply, heq] at hr ⊢
    · cases hr
    · obtain ⟨hmem, hnamed⟩ := key_of_lookup (s := s) he
      obtain ⟨-, hkey, -, -, hstatus⟩ := (h.ok e hmem).del hnamed
      rw [lookup, he] at heff
      rw [if_neg (by simpa [idleStatus] using heff)] at hstatus
      exact ⟨e.del, by rw [hw.find_eq h.distinct, if_pos hkey],
        by simp [BusIdPriv.accepted, hstatus]⟩

/-- **A command that meets its idle status changes the history and not the check.** -/
theorem matchCheck_idle {c : Command} (hidle : s.status b = some (idleStatus c)) :
    c.apply s.table b = (s.table, 0) ∧ b.bytes ≠ [] ∧
      (s.matchCheck b = true ↔ c = .del) := by
  rw [status_eq] at hidle
  obtain ⟨e, he, hstatus⟩ := Option.map_eq_some_iff.mp hidle
  obtain ⟨hmem, hkey⟩ := key_of_lookup he
  refine ⟨?_, named_of_lookup he, ?_⟩
  · cases c with
    | add =>
      rcases addMatchBusid_cases s.table b with ⟨heq, -⟩ | heq | ⟨-, -, -, hnone, -, -⟩
      · exact heq
      · obtain ⟨pre, post, hs, -, hi⟩ := exists_getBusidIdx he
        rw [addMatchBusid, hi] at heq
        cases heq
      · cases he.symm.trans hnone
    | del =>
      obtain ⟨pre, post, hs, hpre, -⟩ := exists_getBusidIdx he
      have hdel : e.del = e := by
        unfold BusIdPriv.del BusIdPriv.clearName BusIdPriv.markRemoved
        simp [hstatus, idleStatus]
      rw [Command.apply, hs, delMatchBusid_split hpre hkey, hdel]
  · rw [matchCheck_iff, he]
    cases c <;> simp [BusIdPriv.accepted, hstatus, idleStatus]

/-- Commands that take effect, probes and disconnects keep the check in step with the
commands. -/
theorem FollowsLatest.step (h : s.Sound) (hf : s.FollowsLatest) {a : Act}
    (hok : s.TakesEffect a) (hs : s.step a = some s') : s'.FollowsLatest := by
  intro j
  cases a with
  | store buf =>
    obtain rfl : s.storeMatchBusid buf = s' := Option.some.inj hs
    unfold storeMatchBusid
    split
    · exact hf j
    next c busid hparse =>
      split
      · exact hf j
      next hr =>
        rw [latest_append, matchCheck_iff, lookup]
        by_cases hj : j.parent = busid
        · have hb : busid.bytes ≠ [] := hj ▸ j.named
          obtain ⟨e, he, hacc⟩ := lookup_command_self h (not_lt.mp hr) hb (hok _ hparse)
          rw [hj, if_pos rfl, he]
          simpa using hacc
        · rw [if_neg hj, lookup_command h hj, ← matchCheck_iff]
          exact hf j
  | probe i r =>
    simp only [MatchTable.step] at hs
    split at hs
    · cases hs
    next hi =>
      cases hs
      rcases h.stubProbe_cases (by simpa using hi) r with heq | ⟨e, e', t, n, hk, -, hcases⟩
      · rw [heq]
        exact hf j
      · rcases hcases with ⟨d, heq, -⟩ | ⟨heq, -⟩ <;> rw [heq]
        · exact (matchCheck_eq_of_keeps h hk rfl j.parent).trans (hf j)
        · exact (matchCheck_eq_of_keeps h hk rfl j.parent).trans (hf j)
  | disconnect i fromEh =>
    rcases h.stubDisconnect_cases hs with rfl | ⟨d, e, e', t, -, rfl, hk, -⟩
    · exact hf j
    · exact (matchCheck_eq_of_keeps h hk rfl j.parent).trans (hf j)

/-- A command in its idle status breaks the correspondence. -/
theorem not_followsLatest_of_idle {buf : List (BitVec 8)}
    (hno : ¬ s.TakesEffect (.store buf)) (hs : s.step (.store buf) = some s') :
    ¬ s'.FollowsLatest := by
  obtain rfl : s.storeMatchBusid buf = s' := Option.some.inj hs
  simp only [TakesEffect, not_forall, not_not] at hno
  obtain ⟨⟨c, b⟩, hparse, hidle⟩ := hno
  obtain ⟨heq, hb, hcheck⟩ := matchCheck_idle hidle
  intro hf
  have h := hf ⟨0, b, hb⟩
  unfold storeMatchBusid at h
  rw [Option.mem_def.mp hparse] at h
  simp only [heq, Int.reduceLT, if_false] at h
  rw [latest_append, if_pos rfl] at h
  have hsame : ({ s with table := s.table, history := s.history ++ [(c, b)] } :
      MatchTable).matchCheck b = s.matchCheck b := rfl
  rw [hsame, hcheck] at h
  cases c <;> simp at h

end MatchTable

open MatchTable

/-- No two slots of the table carry the same non-empty name. -/
def NamesDistinct (table : List BusIdPriv) : Prop :=
  table.Pairwise fun x y => x.name.bytes ≠ [] → x.name ≠ y.name

theorem namesDistinct_of_distinct {t : List BusIdPriv} (h : Distinct BusIdPriv.key t) :
    NamesDistinct t := by
  refine h.imp fun {x y} hxy hx heq => ?_
  exact hxy x.name (BusIdPriv.key_eq_some.mpr ⟨hx, rfl⟩)
    (BusIdPriv.key_eq_some.mpr ⟨heq ▸ hx, heq.symm⟩)

/-- **The match check and the commands.** The names in the table are distinct in every state.
As long as every command takes effect, the match check passes exactly for the bus ids whose
latest successful command was an `add`; the first command that does not take effect ends
this. -/
theorem matchCheck_follows_commands {s : MatchTable} (h : matchTable.Reachable s) :
    NamesDistinct s.table ∧ (matchTable.ReachableWhere TakesEffect s → s.FollowsLatest) ∧
      ∀ a s', matchTable.step s a = some s' → ¬ s.TakesEffect a → ¬ s'.FollowsLatest := by
  refine ⟨namesDistinct_of_distinct (sound_of_reachable h).distinct, ?_, ?_⟩
  · intro hwhere
    refine hwhere.invariant_with (fun s hs => sound_of_reachable hs.reachable) ?_
      fun s a s' hsound hf hok hstep => hf.step hsound hok hstep
    intro i
    rw [matchCheck_iff, lookup_init]
    simp [latest, matchTable]
  · intro a s' hstep hno
    cases a with
    | store buf => exact not_followsLatest_of_idle hno hstep
    | probe i r => exact absurd trivial hno
    | disconnect i fromEh => exact absurd trivial hno

/-- The device `1-1`. -/
def busid11 : Busid := ⟨[0x31, 0x2d, 0x31], by decide, by decide⟩

/-- Its first interface. -/
def interface11 : Interface := ⟨0, busid11, by decide⟩

/-- The device is added, probed, removed, unplugged and added again. -/
def addProbeDelDisconnectAdd : List MatchTable.Act :=
  [.store (addPrefix ++ busid11.bytes), .probe interface11 ⟨false, false, true, true⟩,
    .store (delPrefix ++ busid11.bytes), .disconnect interface11 false,
    .store (addPrefix ++ busid11.bytes)]

theorem matchCheck_follows_commands_addProbeDelDisconnectAdd :
    ∃ s, matchTable.runWhere TakesEffect matchTable.init addProbeDelDisconnectAdd = some s ∧
      s.FollowsLatest :=
  Machine.exists_runWhere (by decide) fun _ h => (matchCheck_follows_commands h.reachable).2.1 h

/-- **A `del` right after the `add` reports success and the device is still taken.** -/
theorem matchCheck_ignores_del :
    ∃ s, matchTable.Reachable s ∧ s.latest busid11 = some .del ∧ ¬ s.FollowsLatest := by
  obtain ⟨s, hs, hp⟩ := Machine.exists_reachable_of_any (m := matchTable)
    [.store (addPrefix ++ busid11.bytes), .store (delPrefix ++ busid11.bytes)]
    (fun s => s.latest busid11 = some .del ∧ s.matchCheck busid11 = true) (by decide)
  simp only [decide_eq_true_eq] at hp
  refine ⟨s, hs, hp.1, fun hf => ?_⟩
  have hadd := (hf interface11).mp hp.2
  cases hadd.symm.trans hp.1

/-! ### The calls around the table -/

/-- **No `BUG()`**: the driver core can disconnect the driver from every interface that it is
bound to. -/
theorem stubDisconnect_isSome {s : MatchTable} {i : Interface} (h : matchTable.Reachable s)
    (hi : (s.getIntfdata i).isSome = true) (fromEh : Bool) :
    (s.stubDisconnect i fromEh).isSome = true := by
  obtain ⟨d, hd⟩ := Option.isSome_iff_exists.mp hi
  obtain ⟨e, he, hsdev, -⟩ := (sound_of_reachable h).entry_of_bound hd
  have hnn : ¬ e.sdev.isNone = true := by simp [Option.isSome_iff_ne_none.mp hsdev]
  unfold stubDisconnect
  rw [getBusidPriv_eq, he, hd]
  dsimp only
  rw [if_neg hnn]
  split
  · rfl
  split
  · rfl
  split <;> rfl

/-- The text that userspace writes is read as it is meant. -/
theorem parseMatchBusid_text (c : Command) (b : Busid) (hb : b.bytes ≠ []) :
    parseMatchBusid ((match c with | .add => addPrefix | .del => delPrefix) ++ b.bytes) =
      some (c, b) := by
  have hpos : 0 < b.bytes.length := List.length_pos_iff.mpr hb
  have htake : b.bytes.takeWhile (· ≠ 0) = b.bytes := by
    refine List.takeWhile_eq_self_iff.mpr fun x hx => ?_
    have : x ≠ 0 := fun h0 => b.no_nul (h0 ▸ hx)
    simpa using this
  have hlen : b.bytes.length < busidSize := b.short
  have hparse : ∀ p : List (BitVec 8), p.length = 4 → parseMatchBusid (p ++ b.bytes) =
      if p = addPrefix then some (.add, b) else if p = delPrefix then some (.del, b)
      else none := by
    intro p hp
    unfold parseMatchBusid
    rw [if_neg (by rw [List.length_append]; omega)]
    simp only [← hp, List.drop_left, List.take_left, htake]
    rw [dif_pos hlen]
  cases c
  · exact hparse addPrefix rfl
  · exact hparse delPrefix rfl

end Usbip.Stub
