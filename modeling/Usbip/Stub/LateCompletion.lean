import Usbip.Stub.Conservation

/-!
# Completions during the cleanup

`stub_device_cleanup_urbs` runs when both threads of the connection have returned, but while the
driver may still complete URBs. It takes an entry off its list under `priv_lock`, calls
`usb_kill_urb`, which returns when the URB is not in flight and its callback is not running, and
frees the entry and its URB.

`stub_complete` tests the status first and takes `priv_lock` afterwards. Once it is past the test
it moves the entry to `priv_tx`, or frees it when it is being unlinked, and in both cases removes
it from the list that it is on. If the entry has been popped meanwhile it is on none: the first
puts an entry that is about to be freed back on a list, and the second frees it before
`stub_device_cleanup_urbs` does so again.

`cleanup_safe` says that there is no other danger: as long as no entry is popped whose callback has
passed the test of its status, and a URB whose entry has been popped completes with `-ENOENT`, every
entry is freed once. The first step of another kind lets the callback do one of the two.
-/

namespace Usbip.Stub

/-- Where `stub_device_cleanup_urbs` stands. -/
inductive CleanupPc
  /-- about to call `stub_priv_pop` -/
  | pop
  /-- in `usb_kill_urb` -/
  | kill (priv : StubPriv)
  /-- about to free the entry and its URB -/
  | free (priv : StubPriv)
  | returned
  deriving DecidableEq, Repr

/-- The entry that has been popped. -/
def CleanupPc.held : CleanupPc → List ℕ
  | .kill p | .free p => [p.id]
  | .pop | .returned => []

/-- The lists of the device during the cleanup. `inFlight` are the entries whose URBs the driver
has, `linking` those whose callback is past the test of the status, with that status, and `freed`
the numbers of the entries that were freed, in order. -/
structure Cleanup where
  privInit : List StubPriv
  privTx : List StubPriv
  privFree : List StubPriv
  unlinkTx : List StubUnlink
  inFlight : List StubPriv
  linking : List (StubPriv × ℤ)
  freed : List ℕ
  pc : CleanupPc

/-- The steps: a callback up to the test of the status and from `priv_lock` on, and the parts of
`stub_device_cleanup_urbs`. `kept` says whether a filter keeps the URB. -/
inductive CleanupAct
  | complete (priv : StubPriv) (status : ℤ) (kept : Bool)
  | link (priv : StubPriv) (status : ℤ) (alloc : Bool)
  | pop
  | killed
  | free
  deriving DecidableEq, Repr

namespace Cleanup

variable (s : Cleanup)

/-- All entries that are on a list. -/
def privs : List StubPriv := s.privInit ++ s.privTx ++ s.privFree

/-- The entries whose callback has not returned. -/
def callbacks : List StubPriv := s.inFlight ++ s.linking.map Prod.fst

/-- `list_del`, on whichever list the entry is. -/
def listDel (p : StubPriv) : Cleanup :=
  { s with
    privInit := s.privInit.filter (·.id != p.id)
    privTx := s.privTx.filter (·.id != p.id)
    privFree := s.privFree.filter (·.id != p.id) }

/-- `stub_complete` up to the tests of the status and of the filter's result. -/
def complete (p : StubPriv) (status : ℤ) (kept : Bool) : Option Cleanup :=
  if p ∉ s.inFlight then none
  else if status = enoent ∨ kept then some { s with inFlight := s.inFlight.erase p }
  else
    some { s with inFlight := s.inFlight.erase p, linking := s.linking ++ [(p, status)] }

/-- The section of `stub_complete` under `priv_lock`. -/
def link (p : StubPriv) (status : ℤ) (alloc : Bool) : Option Cleanup :=
  if (p, status) ∉ s.linking then none
  else
    let s := { s with linking := s.linking.erase (p, status) }.listDel p
    if p.unlinking then
      some { s with
        unlinkTx := if alloc then s.unlinkTx ++ [⟨p.seqnum, BitVec.ofInt 32 status⟩] else s.unlinkTx
        freed := s.freed ++ [p.id] }
    else some { s with privTx := s.privTx ++ [p] }

/-- `stub_priv_pop` -/
def stubPrivPop : Option Cleanup :=
  if s.pc ≠ .pop then none
  else
    match s.privInit, s.privTx, s.privFree with
    | p :: rest, _, _ => some { s with privInit := rest, pc := .kill p }
    | [], p :: rest, _ => some { s with privTx := rest, pc := .kill p }
    | [], [], p :: rest => some { s with privFree := rest, pc := .kill p }
    | [], [], [] => some { s with pc := .returned }

/-- `usb_kill_urb` returns. -/
def killed : Option Cleanup :=
  match s.pc with
  | .kill p => if p ∈ s.callbacks then none else some { s with pc := .free p }
  | _ => none

/-- The entry, its URB and the buffers are freed. -/
def free : Option Cleanup :=
  match s.pc with
  | .free p => some { s with freed := s.freed ++ [p.id], pc := .pop }
  | _ => none

def step (s : Cleanup) : CleanupAct → Option Cleanup
  | .complete p status kept => s.complete p status kept
  | .link p status alloc => s.link p status alloc
  | .pop => s.stubPrivPop
  | .killed => s.killed
  | .free => s.free

/-- The device as the threads have left it. -/
def start (d : StubDevice) : Cleanup where
  privInit := d.privInit
  privTx := d.privTx
  privFree := d.privFree
  unlinkTx := d.unlinkTx
  inFlight := d.privInit.filter fun p => decide (p.id ∈ d.inFlight)
  linking := []
  freed := []
  pc := .pop

/-- **What the cleanup promises** for the entries that were allocated when it began. -/
structure Safe (live : List ℕ) : Prop where
  once : s.freed.Nodup
  all : s.pc = .returned → ∀ id ∈ live, id ∈ s.freed
  /-- A callback that has not returned finds its entry. -/
  untouched : ∀ p ∈ s.callbacks, p.id ∉ s.freed
  /-- A popped entry is not freed by another. -/
  held : ∀ id ∈ s.pc.held, id ∉ s.freed
  /-- An entry that was popped or freed is on no list. -/
  gone : ∀ p ∈ s.privs, p.id ∉ s.pc.held ∧ p.id ∉ s.freed

/-- **In time**: no entry is popped whose callback is past the test of its status, and the URB of an
entry that has been popped completes with `-ENOENT`, or is kept by a filter. -/
def timely : CleanupAct → Bool
  | .complete p status kept => s.pc != .kill p || decide (status = enoent) || kept
  | .pop => s.privs.head?.all fun p => decide (p ∉ s.linking.map Prod.fst)
  | _ => true

end Cleanup

/-- The cleanup of a device. -/
def cleanup (d : StubDevice) : Machine Cleanup CleanupAct := ⟨.start d, Cleanup.step⟩

/-! ### The invariant -/

/-- The invariant as long as every step is in time. -/
structure CleanupInv (live : List ℕ) (s : Cleanup) : Prop where
  nodup : live.Nodup
  /-- Each entry is on a list, popped, or freed. -/
  part : (s.privs.map (·.id) ++ (s.pc.held ++ s.freed)).Perm live
  callbacks_nodup : s.callbacks.Nodup
  linking_init : ∀ c ∈ s.linking, c.1 ∈ s.privInit
  inFlight_init : ∀ p ∈ s.inFlight, p ∈ s.privInit ∨ s.pc = .kill p
  returned : s.pc = .returned → s.privs = []

namespace CleanupInv

variable {live : List ℕ} {s s' : Cleanup}

theorem part_nodup (h : CleanupInv live s) :
    (s.privs.map (·.id) ++ (s.pc.held ++ s.freed)).Nodup := h.part.nodup_iff.mpr h.nodup

/-- A callback that has not returned has its entry on `priv_init`, or waits to be killed. -/
theorem mem_of_callback (h : CleanupInv live s) {p : StubPriv} (hp : p ∈ s.callbacks) :
    p ∈ s.privInit ∨ s.pc = .kill p := by
  rcases List.mem_append.mp hp with hp | hp
  · exact h.inFlight_init p hp
  · obtain ⟨c, hc, rfl⟩ := List.mem_map.mp hp
    exact .inl (h.linking_init c hc)

theorem mem_privs_of_init {p : StubPriv} (hp : p ∈ s.privInit) : p ∈ s.privs :=
  List.mem_append_left _ (List.mem_append_left _ hp)

theorem safe (h : CleanupInv live s) : s.Safe live := by
  have hnodup := h.part_nodup
  have hgone : ∀ p ∈ s.privs, p.id ∉ s.pc.held ∧ p.id ∉ s.freed := by
    intro p hp
    have hdisj := List.disjoint_of_nodup_append hnodup (List.mem_map_of_mem hp)
    exact ⟨fun hheld => hdisj (List.mem_append_left _ hheld),
      fun hfreed => hdisj (List.mem_append_right _ hfreed)⟩
  have hheld : ∀ id ∈ s.pc.held, id ∉ s.freed := fun id hid hfreed =>
    List.disjoint_of_nodup_append hnodup.of_append_right hid hfreed
  refine ⟨hnodup.of_append_right.of_append_right, fun hret id hid => ?_, fun p hp => ?_, hheld,
    hgone⟩
  · have hmem := h.part.mem_iff.mpr hid
    rw [h.returned hret, hret] at hmem
    simpa [CleanupPc.held] using hmem
  · obtain hinit | hkill := h.mem_of_callback hp
    · exact (hgone p (mem_privs_of_init hinit)).2
    · exact hheld p.id (by simp [hkill, CleanupPc.held])

/-! ### The steps -/

/-- Only what is not in flight is lost from the callbacks. -/
theorem callbacks_erase_sublist (p : StubPriv) :
    (s.inFlight.erase p ++ s.linking.map Prod.fst).Sublist s.callbacks :=
  List.erase_sublist.append (List.Sublist.refl _)

theorem complete (h : CleanupInv live s) {p : StubPriv} {status : ℤ} {kept : Bool}
    (hok : s.timely (.complete p status kept) = true)
    (hs : s.complete p status kept = some s') : CleanupInv live s' := by
  rw [Cleanup.complete] at hs
  split at hs
  · cases hs
  next hp =>
  have hp : p ∈ s.inFlight := not_not.mp hp
  have hin : ∀ q ∈ s.inFlight.erase p, q ∈ s.privInit ∨ s.pc = .kill q := fun q hq =>
    h.inFlight_init q (List.mem_of_mem_erase hq)
  split at hs
  next hskip =>
    obtain rfl := Option.some.inj hs
    exact ⟨h.nodup, h.part, (callbacks_erase_sublist p).nodup h.callbacks_nodup, h.linking_init,
      hin, h.returned⟩
  next hskip =>
    obtain rfl := Option.some.inj hs
    have hpc : s.pc ≠ .kill p := by
      intro hpc
      refine hskip ?_
      simpa [Cleanup.timely, hpc] using hok
    have hperm : (s.inFlight.erase p ++ (s.linking ++ [(p, status)]).map Prod.fst).Perm
        s.callbacks := by
      rw [List.map_append, ← List.append_assoc]
      refine List.perm_append_comm.trans ?_
      exact ((List.perm_cons_erase hp).append_right (s.linking.map Prod.fst)).symm
    refine ⟨h.nodup, h.part, hperm.nodup_iff.mpr h.callbacks_nodup, fun c hc => ?_, hin,
      h.returned⟩
    obtain hc | hc := List.mem_append.mp hc
    · exact h.linking_init c hc
    · obtain rfl := List.mem_singleton.mp hc
      exact (h.inFlight_init p hp).resolve_right hpc

/-- `list_del` takes one number off the lists. -/
theorem privs_listDel (h : CleanupInv live s) {p : StubPriv} (hp : p ∈ s.privs) :
    (s.privs.map (·.id)).Perm (p.id :: (s.listDel p).privs.map (·.id)) := by
  have hfilter : (s.listDel p).privs.map (·.id) = (s.privs.map (·.id)).erase p.id := by
    rw [h.part_nodup.of_append_left.erase_eq_filter, List.filter_map, Cleanup.privs, Cleanup.privs,
      List.filter_append, List.filter_append]
    rfl
  rw [hfilter]
  exact List.perm_cons_erase (List.mem_map_of_mem hp)

/-- Other entries stay on `priv_init`. -/
theorem mem_listDel (h : CleanupInv live s) {p q : StubPriv} (hp : p ∈ s.privInit)
    (hq : q ∈ s.privInit) (hne : q ≠ p) : q ∈ (s.listDel p).privInit := by
  refine List.mem_filter.mpr ⟨hq, bne_iff_ne.mpr fun hid => hne ?_⟩
  exact List.inj_on_of_nodup_map h.part_nodup.of_append_left (mem_privs_of_init hq)
    (mem_privs_of_init hp) hid

theorem link (h : CleanupInv live s) {p : StubPriv} {status : ℤ} {alloc : Bool}
    (hs : s.link p status alloc = some s') : CleanupInv live s' := by
  rw [Cleanup.link] at hs
  split at hs
  · cases hs
  next hmem =>
  have hmem : (p, status) ∈ s.linking := not_not.mp hmem
  have hp : p ∈ s.privInit := h.linking_init _ hmem
  -- `list_move_tail` and `list_del` take the entry from where the cleanup has left it
  have hperm := h.privs_listDel (mem_privs_of_init hp)
  have hcallbacks : (s.inFlight ++ (s.linking.erase (p, status)).map Prod.fst).Nodup :=
    ((List.Sublist.refl _).append (List.erase_sublist.map _)).nodup h.callbacks_nodup
  have hmap : (s.linking.map Prod.fst).Nodup := h.callbacks_nodup.of_append_right
  -- no other callback is about the same entry
  have hlinking : ∀ c ∈ s.linking.erase (p, status), c.1 ∈ (s.listDel p).privInit := by
    intro c hc
    refine h.mem_listDel hp (h.linking_init c (List.mem_of_mem_erase hc)) fun hcp => ?_
    have heq : c = (p, status) :=
      List.inj_on_of_nodup_map hmap (List.mem_of_mem_erase hc) hmem hcp
    exact hmap.of_map.not_mem_erase (heq ▸ hc)
  have hinFlight : ∀ q ∈ s.inFlight, q ∈ (s.listDel p).privInit ∨ s.pc = .kill q := by
    intro q hq
    refine (h.inFlight_init q hq).imp_left fun hinit => h.mem_listDel hp hinit ?_
    rintro rfl
    exact List.disjoint_of_nodup_append h.callbacks_nodup hq (List.mem_map_of_mem hmem)
  -- the cleanup has not returned, with the entry still on a list
  have hreturned : s.pc = .returned → False := fun hret => by
    have hnil := h.returned hret
    rw [List.eq_nil_iff_forall_not_mem] at hnil
    exact hnil p (mem_privs_of_init hp)
  have hpart : (p.id :: ((s.listDel p).privs.map (·.id) ++ (s.pc.held ++ s.freed))).Perm live :=
    (hperm.symm.append_right _).trans h.part
  dsimp only at hs
  split at hs
  · -- the callback frees the entry
    obtain rfl := Option.some.inj hs
    refine ⟨h.nodup, ?_, hcallbacks, hlinking, hinFlight, fun hret => (hreturned hret).elim⟩
    refine List.Perm.trans ?_ hpart
    change ((s.listDel p).privs.map (·.id) ++ (s.pc.held ++ (s.freed ++ [p.id]))).Perm _
    rw [← List.append_assoc s.pc.held, ← List.append_assoc]
    exact List.perm_append_singleton _ _
  · -- the callback moves it to `priv_tx`
    obtain rfl := Option.some.inj hs
    refine ⟨h.nodup, ?_, hcallbacks, hlinking, hinFlight, fun hret => (hreturned hret).elim⟩
    refine List.Perm.trans ?_ hpart
    rw [← List.cons_append]
    refine List.Perm.append_right _ ?_
    rw [← List.map_cons (f := fun q : StubPriv => q.id)]
    refine List.Perm.map _ ?_
    change ((s.listDel p).privInit ++ ((s.listDel p).privTx ++ [p]) ++ (s.listDel p).privFree).Perm
      (p :: ((s.listDel p).privInit ++ (s.listDel p).privTx ++ (s.listDel p).privFree))
    rw [← List.append_assoc, List.append_assoc _ [p]]
    exact List.perm_middle

/-- `usb_kill_urb` returns when the callback is done. -/
theorem killed (h : CleanupInv live s) (hs : s.killed = some s') : CleanupInv live s' := by
  rw [Cleanup.killed] at hs
  split at hs
  next p hpc =>
    obtain ⟨hidle, hs⟩ := Option.ite_none_left_eq_some.mp hs
    obtain rfl := Option.some.inj hs
    refine ⟨h.nodup, ?_, h.callbacks_nodup, h.linking_init, fun q hq => .inl ?_, by simp⟩
    · have hpart := h.part
      rwa [hpc] at hpart
    · refine (h.inFlight_init q hq).resolve_right fun hkill => hidle ?_
      rw [hpc] at hkill
      obtain rfl := CleanupPc.kill.inj hkill
      exact List.mem_append_left _ hq
  · cases hs

theorem free (h : CleanupInv live s) (hs : s.free = some s') : CleanupInv live s' := by
  rw [Cleanup.free] at hs
  split at hs
  next p hpc =>
    obtain rfl := Option.some.inj hs
    refine ⟨h.nodup, ?_, h.callbacks_nodup, h.linking_init, fun q hq => .inl ?_, by simp⟩
    · have hpart := h.part
      rw [hpc] at hpart
      refine List.Perm.trans ?_ hpart
      exact List.Perm.append_left _ (List.perm_append_singleton p.id s.freed)
    · exact (h.inFlight_init q hq).resolve_right (by simp [hpc])
  · cases hs

/-! ### Taking an entry off its list -/

/-- What a step of `stub_priv_pop` that finds an entry changes. -/
structure Popped (s s' : Cleanup) (p : StubPriv) : Prop where
  privs : s.privs = p :: s'.privs
  init : ∀ q ∈ s.privInit, q = p ∨ q ∈ s'.privInit
  inFlight : s'.inFlight = s.inFlight
  linking : s'.linking = s.linking
  freed : s'.freed = s.freed
  pc : s'.pc = .kill p

theorem popped_of_pop (hs : s.stubPrivPop = some s') :
    s.pc = .pop ∧ (s.privs = [] ∧ s' = { s with pc := .returned } ∨ ∃ p, Popped s s' p) := by
  obtain ⟨privInit, privTx, privFree, unlinkTx, inFlight, linking, freed, pc⟩ := s
  rw [Cleanup.stubPrivPop] at hs
  obtain ⟨hpc, hs⟩ := Option.ite_none_left_eq_some.mp hs
  refine ⟨not_not.mp hpc, ?_⟩
  cases privInit with
  | cons p rest =>
    obtain rfl := Option.some.inj hs
    exact .inr ⟨p, rfl, fun q hq => List.mem_cons.mp hq, rfl, rfl, rfl, rfl⟩
  | nil =>
    cases privTx with
    | cons p rest =>
      obtain rfl := Option.some.inj hs
      exact .inr ⟨p, rfl, fun q hq => absurd hq List.not_mem_nil, rfl, rfl, rfl, rfl⟩
    | nil =>
      cases privFree with
      | cons p rest =>
        obtain rfl := Option.some.inj hs
        exact .inr ⟨p, rfl, fun q hq => absurd hq List.not_mem_nil, rfl, rfl, rfl, rfl⟩
      | nil =>
        obtain rfl := Option.some.inj hs
        exact .inl ⟨rfl, rfl⟩

/-- Whether a pop is in time is about the callback of the entry that it finds. -/
theorem timely_pop {p : StubPriv} (hp : Popped s s' p) :
    s.timely .pop = true ↔ p ∉ s.linking.map Prod.fst := by
  rw [Cleanup.timely, hp.privs, List.head?_cons, Option.all_some, decide_eq_true_iff]

theorem pop (h : CleanupInv live s) (hok : s.timely .pop = true)
    (hs : s.stubPrivPop = some s') : CleanupInv live s' := by
  obtain ⟨hpc, hs⟩ := popped_of_pop hs
  have hinit : ∀ q ∈ s.inFlight, q ∈ s.privInit := fun q hq =>
    (h.inFlight_init q hq).resolve_right (by simp [hpc])
  obtain ⟨hnil, rfl⟩ | ⟨p, hp⟩ := hs
  · refine ⟨h.nodup, ?_, h.callbacks_nodup, h.linking_init, fun q hq => .inl (hinit q hq),
      fun _ => hnil⟩
    have hpart := h.part
    rwa [hpc] at hpart
  · have hidle := (timely_pop hp).mp hok
    refine ⟨h.nodup, ?_, ?_, fun c hc => ?_, fun q hq => ?_, fun hret => ?_⟩
    · have hpart := h.part
      rw [hp.privs, hpc] at hpart
      refine List.Perm.trans ?_ hpart
      rw [hp.pc, hp.freed]
      exact List.perm_middle
    · rw [Cleanup.callbacks, hp.inFlight, hp.linking]
      exact h.callbacks_nodup
    · rw [hp.linking] at hc
      refine (hp.init c.1 (h.linking_init c hc)).resolve_left fun hcp => hidle ?_
      exact hcp ▸ List.mem_map_of_mem hc
    · rw [hp.inFlight] at hq
      rw [hp.pc]
      obtain rfl | hrest := hp.init q (hinit q hq)
      · exact .inr rfl
      · exact .inl hrest
    · rw [hp.pc] at hret
      cases hret

/-- Every step that is in time keeps the invariant. -/
theorem step (h : CleanupInv live s) {a : CleanupAct} (hok : s.timely a = true)
    (hs : s.step a = some s') : CleanupInv live s' := by
  cases a with
  | complete p status kept => exact h.complete hok hs
  | link p status alloc => exact h.link hs
  | pop => exact h.pop hok hs
  | killed => exact h.killed hs
  | free => exact h.free hs

/-- The cleanup begins with the entries of the device. -/
theorem init {d : StubDevice} (h : ListInv d) : CleanupInv d.live (.start d) where
  nodup := h.nodup
  part := by
    change (d.privs.map StubPriv.id ++ ([] ++ [])).Perm d.live
    rw [List.append_nil, List.append_nil]
    exact h.linked
  callbacks_nodup := by
    rw [Cleanup.callbacks, Cleanup.start, List.map_nil, List.append_nil]
    have hnodup : (d.privs.map (·.id)).Nodup := h.linked.nodup_iff.mpr h.nodup
    exact (hnodup.of_map.of_append_left.of_append_left).filter _
  linking_init _ hc := absurd hc List.not_mem_nil
  inFlight_init p hp := .inl (List.mem_of_mem_filter hp)
  returned hret := by cases hret

/-! ### Steps that are not in time -/

/-- A callback that is past the test of the status acts on a popped entry. -/
theorem not_safe_of_linking {p : StubPriv} {status : ℤ} (hpc : s.pc = .kill p)
    (hmem : (p, status) ∈ s.linking) :
    ∃ s', s.step (.link p status true) = some s' ∧ ¬ s'.Safe live := by
  have hheld : p.id ∈ s.pc.held := by simp [hpc, CleanupPc.held]
  rw [Cleanup.step, Cleanup.link, if_neg (not_not.mpr hmem)]
  dsimp only
  split
  · -- it frees the entry that is about to be freed
    refine ⟨_, rfl, fun hsafe => hsafe.held p.id hheld ?_⟩
    exact List.mem_append_right _ (List.mem_singleton.mpr rfl)
  · -- it links the entry that is about to be freed
    refine ⟨_, rfl, fun hsafe => (hsafe.gone p ?_).1 hheld⟩
    refine List.mem_append_left _ (List.mem_append_right _ ?_)
    exact List.mem_append_right _ (List.mem_singleton.mpr rfl)

/-- After a step that is not in time there is such a callback. -/
theorem linking_of_late {a : CleanupAct} (hlate : s.timely a = false)
    (hs : s.step a = some s') : ∃ p status, s'.pc = .kill p ∧ (p, status) ∈ s'.linking := by
  cases a with
  | complete p status kept =>
    obtain ⟨⟨hpc, hstatus⟩, hkept⟩ :
        (s.pc = .kill p ∧ status ≠ enoent) ∧ kept = false := by
      simpa [Cleanup.timely] using hlate
    rw [Cleanup.step, Cleanup.complete] at hs
    obtain ⟨-, hs⟩ := Option.ite_none_left_eq_some.mp hs
    rw [if_neg (by simp [hstatus, hkept])] at hs
    obtain rfl := Option.some.inj hs
    exact ⟨p, status, hpc, List.mem_append_right _ (List.mem_singleton.mpr rfl)⟩
  | pop =>
    obtain ⟨-, ⟨hnil, -⟩ | ⟨p, hp⟩⟩ := popped_of_pop hs
    · simp [Cleanup.timely, hnil] at hlate
    · have hmem : p ∈ s.linking.map Prod.fst := by
        by_contra hnot
        rw [(timely_pop hp).mpr hnot] at hlate
        cases hlate
      obtain ⟨⟨q, status⟩, hc, rfl⟩ := List.mem_map.mp hmem
      exact ⟨q, status, hp.pc, hp.linking ▸ hc⟩
  | link p status alloc | killed | free => cases hlate

end CleanupInv

/-! ### The cleanup -/

/-- **The cleanup frees every entry once**, as long as every step is in time; and after the first
step that is not, a callback may break it. -/
theorem cleanup_safe {requests : List Request} {d : StubDevice}
    (hd : (stubDevice requests).Reachable d) {s : Cleanup}
    (h : (cleanup d).ReachableWhere (fun s a => s.timely a = true) s) :
    s.Safe d.live ∧ ∀ a s', s.step a = some s' →
      (s.timely a = true → s'.Safe d.live) ∧
        (s.timely a = false → ∃ b s'', s'.step b = some s'' ∧ ¬ s''.Safe d.live) := by
  have hinv : CleanupInv d.live s :=
    h.invariant (.init (.of_reachable hd)) fun _ _ _ hs hok hstep => hs.step hok hstep
  refine ⟨hinv.safe, fun a s' hs => ⟨fun hok => (hinv.step hok hs).safe, fun hlate => ?_⟩⟩
  obtain ⟨p, status, hpc, hmem⟩ := CleanupInv.linking_of_late hlate hs
  exact ⟨_, CleanupInv.not_safe_of_linking hpc hmem⟩

/-- The URB of one request is in flight. -/
def oneInFlight : StubDevice :=
  ((stubDevice [.cmdSubmit 1]).run (connected [.cmdSubmit 1])
    [.rxPdu true, .rxBuild true, .rxSubmit true]).getD (connected [])

theorem reachable_oneInFlight : (stubDevice [.cmdSubmit 1]).Reachable oneInFlight :=
  @Machine.reachable_of_run _ _ (stubDevice [.cmdSubmit 1]) oneInFlight
    [.rxPdu true, .rxBuild true, .rxSubmit true] rfl

/-- The entry of that request. -/
def onlyPriv : StubPriv := ⟨0, 1, false⟩

/-- The URB is killed and freed. -/
theorem cleanup_safe_oneInFlight :
    ∃ s, (cleanup oneInFlight).runWhere (fun s a => s.timely a = true) (.start oneInFlight)
        [.pop, .complete onlyPriv enoent false, .killed, .free, .pop] = some s ∧
      s.Safe oneInFlight.live ∧ ∀ a s', s.step a = some s' →
        (s.timely a = true → s'.Safe oneInFlight.live) ∧
          (s.timely a = false → ∃ b s'', s'.step b = some s'' ∧ ¬ s''.Safe oneInFlight.live) :=
  Machine.exists_runWhere (m := cleanup oneInFlight) (by decide)
    fun _ h => cleanup_safe reachable_oneInFlight h

/-- The URB completes normally while its entry is popped: the callback links the entry to `priv_tx`,
from where it is popped and freed again. -/
theorem cleanup_frees_twice :
    ¬ ∀ (requests : List Request) (d : StubDevice), (stubDevice requests).Reachable d →
      ∀ s, (cleanup d).Reachable s → s.Safe d.live := by
  intro h
  obtain ⟨s, hs, hp⟩ := Machine.exists_reachable_of_any (m := cleanup oneInFlight)
    [.complete onlyPriv 0 false, .pop, .link onlyPriv 0 true, .killed, .free, .pop, .killed, .free]
    (fun s => s.freed == [0, 0]) (by decide)
  have hfreed : s.freed = [0, 0] := by simpa using hp
  have honce := (h _ _ reachable_oneInFlight s hs).once
  rw [hfreed] at honce
  exact absurd honce (by decide)

end Usbip.Stub
