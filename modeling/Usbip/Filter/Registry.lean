import Usbip.Lib.ListHead
import Mathlib.Data.Int.Notation
import Mathlib.Data.List.Induction
import Mathlib.Tactic.Common

/-!
# The filter registry

The filters of `usbip_common.c`: drivers register on the global list `usbip_filters`, a device
that is bound has each of them probe it, and every filter so made is linked to `ud->filters`,
which `usbip_filter_on_rx` and `usbip_filter_on_tx` walk for each URB.

`usbip_filter_probe` calls `list_add_tail(&ud->filters, &filter->list)`: the head of the device's
list is added to the ring of the new filter, and what the head was linked to before is lost. The
list therefore holds at most the last filter made (`attached_probe`), and no filter is lost
exactly when none is made, or one is made for a device that had none
(`filter_probe_keeps_all`).

The hooks of the drivers are code of their own; they are functions on a world `ω` that they may
read and change. `π` is the private data of a filter, `ρ` and `τ` are what a hook is passed
besides the filter (a PDU and a URB, or a URB).
-/

namespace Usbip.Filter

open Function ListHead

universe u

/-- Every `struct list_head` of the two lists: the heads, `drv->list` and `filter->list`. -/
inductive Node
  | registry
  | driver (d : ℕ)
  | filters
  | filter (f : ℕ)
  deriving DecidableEq, Repr

theorem Node.filter_injective : Injective Node.filter := fun _ _ h => Node.filter.inj h

/-- `struct usbip_filter`. -/
structure UsbipFilter (π : Type u) where
  drv : ℕ
  priv : π
  deriving DecidableEq

/-- `struct usbip_filter_driver`; each hook may be null. -/
structure UsbipFilterDriver (π ω ρ τ : Type u) where
  probe : Option (ω → Option π × ω)
  remove : Option (UsbipFilter π → ω → ω)
  onTx : Option (UsbipFilter π → τ → ω → ℤ × ω)
  onRx : Option (UsbipFilter π → ρ → ω → ℤ × ω)

/-- `usbip_filters`, `ud->filters` and the allocated filters; `nextId` is the address of the
next one. -/
structure Filters (π ω : Type u) where
  links : Links Node
  filter : ℕ → Option (UsbipFilter π)
  nextId : ℕ
  world : ω

variable {π ω ρ τ : Type u}

namespace Filters

/-- `usbip_filter_register`. -/
def usbipFilterRegister (s : Filters π ω) (d : ℕ) : Filters π ω :=
  { s with links := s.links.listAddTail (.driver d) .registry }

/-- The body of the loop of `usbip_filter_unregister`. -/
def unregisterBody (d : ℕ) (x : Node) (s : Filters π ω) : Filters π ω × Bool :=
  if x = .driver d then ({ s with links := s.links.listDel x }, true) else (s, false)

/-- `usbip_filter_unregister`. -/
def usbipFilterUnregister (fuel d : ℕ) (s : Filters π ω) : Option (Filters π ω) :=
  forEach Filters.links .registry (unregisterBody d) fuel (s.links.next .registry) s

/-- A new filter: its fields are set and the two lists are linked, with the arguments of
`list_add_tail` as they stand. -/
def addFilter (s : Filters π ω) (f : UsbipFilter π) : Filters π ω :=
  { s with
    links := (s.links.initListHead (.filter s.nextId)).listAddTail .filters (.filter s.nextId)
    filter := update s.filter s.nextId (some f)
    nextId := s.nextId + 1 }

section Drivers

variable (drv : ℕ → UsbipFilterDriver π ω ρ τ)

/-- The body of the loop of `usbip_filter_probe`; `kmalloc` tells whether memory is found for the
filter at this address. -/
def probeBody (kmalloc : ℕ → Bool) (x : Node) (s : Filters π ω) : Filters π ω × Bool :=
  match x with
  | .driver d =>
    match (drv d).probe with
    | none => (s, false)
    | some probe =>
      match probe s.world with
      | (none, w) => ({ s with world := w }, false)
      | (some priv, w) =>
        if kmalloc s.nextId then ({ s with world := w }.addFilter ⟨d, priv⟩, false)
        else ({ s with world := w }, true)
  | _ => (s, false)

/-- `usbip_filter_probe`. -/
def usbipFilterProbe (kmalloc : ℕ → Bool) (fuel : ℕ) (s : Filters π ω) : Option (Filters π ω) :=
  forEach Filters.links .registry (probeBody drv kmalloc) fuel (s.links.next .registry) s

/-- The body of the loops of `usbip_filter_on_rx` and `usbip_filter_on_tx`: one hook, called with
`arg`. The second component is `ret`. -/
def hookBody {α : Type u} (hook : UsbipFilterDriver π ω ρ τ →
      Option (UsbipFilter π → α → ω → ℤ × ω)) (arg : α)
    (x : Node) (s : Filters π ω × ℤ) : (Filters π ω × ℤ) × Bool :=
  match x with
  | .filter i =>
    match s.1.filter i with
    | none => (s, false)
    | some f =>
      match hook (drv f.drv) with
      | none => (s, false)
      | some h =>
        let r := h f arg s.1.world
        (({ s.1 with world := r.2 }, r.1), decide (r.1 ≠ 0))
  | _ => (s, false)

/-- The loop that `usbip_filter_on_rx` and `usbip_filter_on_tx` share. -/
def usbipFilterOn {α : Type u} (hook : UsbipFilterDriver π ω ρ τ →
      Option (UsbipFilter π → α → ω → ℤ × ω)) (arg : α)
    (fuel : ℕ) (s : Filters π ω) : Option (Filters π ω × ℤ) :=
  forEachSafe (fun s => s.1.links) .filters (hookBody drv hook arg) fuel
    (s.links.next .filters) (s, 0)

/-- `usbip_filter_on_rx`. -/
def usbipFilterOnRx (arg : ρ) (fuel : ℕ) (s : Filters π ω) : Option (Filters π ω × ℤ) :=
  usbipFilterOn drv UsbipFilterDriver.onRx arg fuel s

/-- `usbip_filter_on_tx`. -/
def usbipFilterOnTx (arg : τ) (fuel : ℕ) (s : Filters π ω) : Option (Filters π ω × ℤ) :=
  usbipFilterOn drv UsbipFilterDriver.onTx arg fuel s

/-- The body of the loop of `usbip_filter_remove`. The hook is that of the driver passed to the
function. -/
def removeBody (arg : Option ℕ) (x : Node) (s : Filters π ω) : Filters π ω × Bool :=
  match x with
  | .filter i =>
    match s.filter i with
    | none => (s, false)
    | some f =>
      if arg = none ∧ arg ≠ some f.drv then (s, false)
      else
        ({ s with
          world := (arg.bind fun d => (drv d).remove).elim s.world fun remove => remove f s.world
          links := s.links.listDel x
          filter := update s.filter i none }, false)
  | _ => (s, false)

/-- `usbip_filter_remove`. -/
def usbipFilterRemove (arg : Option ℕ) (fuel : ℕ) (s : Filters π ω) : Option (Filters π ω) :=
  forEachSafe Filters.links .filters (removeBody drv arg) fuel (s.links.next .filters) s

/-! ### What the lists are for -/

/-- The filters that probing these drivers makes, from this address on. -/
def created : List ℕ → ℕ → ω → List (ℕ × UsbipFilter π) × ω
  | [], _, w => ([], w)
  | d :: ds, n, w =>
    match (drv d).probe with
    | none => created ds n w
    | some probe =>
      match probe w with
      | (none, w') => created ds n w'
      | (some priv, w') => ((n, ⟨d, priv⟩) :: (created ds (n + 1) w').1, (created ds (n + 1) w').2)

/-- The hooks of a list of filters are called in order until one returns non-zero. -/
def dispatch {α : Type u} (hook : UsbipFilterDriver π ω ρ τ →
    Option (UsbipFilter π → α → ω → ℤ × ω)) (arg : α) : List (ℕ × UsbipFilter π) → ω → ℤ × ω
  | [], w => (0, w)
  | p :: l, w =>
    match hook (drv p.2.drv) with
    | none => dispatch hook arg l w
    | some h =>
      if (h p.2 arg w).1 ≠ 0 then h p.2 arg w else dispatch hook arg l (h p.2 arg w).2

/-- The filters' own drivers are told of their removal, in order. -/
def ownRemoves (l : List (ℕ × UsbipFilter π)) (w : ω) : ω :=
  l.foldl (fun w p => (drv p.2.drv).remove.elim w fun remove => remove p.2 w) w

end Drivers

/-- The registered drivers, in order of registration. -/
def Registered (s : Filters π ω) (ds : List ℕ) : Prop :=
  Circular s.links .registry (ds.map Node.driver)

/-- `ud->filters` is well formed and holds these filters. -/
structure Attached (s : Filters π ω) (l : List (ℕ × UsbipFilter π)) : Prop where
  ring : Circular s.links .filters (l.map fun p => Node.filter p.1)
  allocated : ∀ p ∈ l, s.filter p.1 = some p.2

variable {s s' : Filters π ω} {ds : List ℕ} {l old : List (ℕ × UsbipFilter π)}

/-- The list is determined by the pointers and the allocated filters. -/
theorem Attached.unique {l₁ l₂ : List (ℕ × UsbipFilter π)} (h₁ : Attached s l₁)
    (h₂ : Attached s l₂) : l₁ = l₂ := by
  have hids : l₁.map Prod.fst = l₂.map Prod.fst := by
    refine List.map_injective_iff.mpr Node.filter_injective ?_
    rw [List.map_map, List.map_map]
    exact h₁.ring.unique h₂.ring
  have hall : ∀ l : List (ℕ × UsbipFilter π), (∀ p ∈ l, s.filter p.1 = some p.2) →
      l.map some = (l.map Prod.fst).map fun i => (s.filter i).map fun f => (i, f) := by
    intro l hl
    rw [List.map_map]
    refine List.map_congr_left fun p hp => ?_
    simp [hl p hp]
  refine List.map_injective_iff.mpr (fun _ _ h => Option.some.inj h) ?_
  rw [hall l₁ h₁.allocated, hall l₂ h₂.allocated, hids]

/-! ### Registration -/

theorem Registered.register {d : ℕ} (h : Registered s ds) (hd : d ∉ ds) :
    Registered (s.usbipFilterRegister d) (ds ++ [d]) := by
  unfold Registered
  rw [List.map_append]
  exact h.listAddTail (by simpa using hd)

/-- Registration leaves the list of a device alone. -/
theorem Attached.register (h : Attached s l) (hreg : Registered s ds) (d : ℕ) :
    Attached (s.usbipFilterRegister d) l := by
  refine ⟨h.ring.listAddTail_other (by simp) (by simp) fun hmem => ?_, h.allocated⟩
  rcases List.mem_cons.mp hreg.1.prev_mem with heq | hd
  · simp [heq] at hmem
  · obtain ⟨e, -, he⟩ := List.mem_map.mp hd
    simp [← he] at hmem

/-- The loop of `usbip_filter_unregister` comes to the driver. -/
theorem visit_unregister {d : ℕ} (hd : d ∈ ds) :
    visit (unregisterBody d) (ds.map Node.driver) s =
      { s with links := s.links.listDel (.driver d) } := by
  induction ds with
  | nil => simp at hd
  | cons e ds ih =>
    rw [List.map_cons, visit]
    by_cases he : e = d
    · simp [unregisterBody, he]
    · have hstay : unregisterBody d (.driver e) s = (s, false) := by simp [unregisterBody, he]
      rw [hstay]
      exact ih ((List.mem_cons.mp hd).resolve_left (Ne.symm he))

/-- `usbip_filter_unregister` removes the driver and no other. -/
theorem Registered.unregister {d fuel : ℕ} {pre post : List ℕ}
    (h : Registered s (pre ++ d :: post)) (hfuel : (pre ++ d :: post).length < fuel) :
    ∃ s', usbipFilterUnregister fuel d s = some s' ∧ Registered s' (pre ++ post) := by
  have hloop : usbipFilterUnregister fuel d s =
      some (visit (unregisterBody d) ((pre ++ d :: post).map Node.driver) s) := by
    rw [usbipFilterUnregister, h.next_head]
    refine forEach_eq (I := fun l t => s = t ∧ ∃ l', l' ++ l = (pre ++ d :: post).map Node.driver)
      ?_ ⟨rfl, [], rfl⟩ (by simpa using hfuel)
    rintro x l _ ⟨rfl, l', hl⟩
    have hring : Circular s.links .registry (l' ++ x :: l) := hl ▸ h
    refine ⟨?_, fun hgo => ?_⟩
    · rintro rfl
      exact (List.nodup_cons.mp hring.2).1 (by simp)
    · have hne : x ≠ .driver d := by
        rintro rfl
        simp [unregisterBody] at hgo
      have hstay : unregisterBody d x s = (s, false) := if_neg hne
      rw [hstay]
      exact ⟨⟨rfl, l' ++ [x], by simp [hl]⟩, hring.next_eq⟩
  refine ⟨_, hloop, ?_⟩
  rw [visit_unregister (by simp)]
  unfold Registered at h ⊢
  rw [List.map_append, List.map_cons] at h
  rw [List.map_append]
  exact h.listDel

/-! ### Probing -/

/-- A new filter's ring takes the head of the list over. -/
theorem Attached.addFilter (s : Filters π ω) (f : UsbipFilter π) :
    Attached (s.addFilter f) [(s.nextId, f)] := by
  have hring : Circular (s.links.initListHead (.filter s.nextId)) (.filter s.nextId) [] :=
    Circular.initListHead _ _
  have hadd := hring.listAddTail (x := .filters) (by simp)
  refine ⟨?_, ?_⟩
  · have hhead : Circular _ _ ([] ++ Node.filters :: []) := hadd
    exact hhead.rotate
  · intro p hp
    rw [List.mem_singleton.mp hp]
    exact update_self ..

/-- The registry does not notice. -/
theorem Registered.addFilter (h : Registered s ds) (f : UsbipFilter π) :
    Registered (s.addFilter f) ds := by
  have hfilter : Node.filter s.nextId ∉ Node.registry :: ds.map Node.driver := by simp
  refine Circular.listAddTail_other (h.initListHead_other hfilter) (by simp) hfilter ?_
  simp [Links.initListHead]

section Drivers

variable {drv : ℕ → UsbipFilterDriver π ω ρ τ}

variable (ds drv) in
/-- What the loop of `usbip_filter_probe` leaves behind when memory never runs out: the list is
untouched, or holds the last filter alone. -/
theorem visit_probe (hl : Attached s l) :
    Attached (visit (probeBody drv fun _ => true) (ds.map Node.driver) s)
        (match (created drv ds s.nextId s.world).1.getLast? with
          | none => l
          | some p => [p]) ∧
      (visit (probeBody drv fun _ => true) (ds.map Node.driver) s).world =
        (created drv ds s.nextId s.world).2 := by
  induction ds generalizing s l with
  | nil => exact ⟨hl, rfl⟩
  | cons d ds ih =>
    rw [List.map_cons, visit]
    cases hprobe : (drv d).probe with
    | none =>
      have hbody : probeBody drv (fun _ => true) (.driver d) s = (s, false) := by
        simp [probeBody, hprobe]
      have hcreated : created drv (d :: ds) s.nextId s.world = created drv ds s.nextId s.world := by
        simp [created, hprobe]
      rw [hbody, hcreated]
      exact ih hl
    | some probe =>
      cases hres : probe s.world with
      | mk r w =>
        cases r with
        | none =>
          have hbody : probeBody drv (fun _ => true) (.driver d) s =
              ({ s with world := w }, false) := by
            simp [probeBody, hprobe, hres]
          have hcreated : created drv (d :: ds) s.nextId s.world =
              created drv ds s.nextId w := by
            simp [created, hprobe, hres]
          rw [hbody, hcreated]
          exact ih (s := { s with world := w }) ⟨hl.ring, hl.allocated⟩
        | some priv =>
          have hbody : probeBody drv (fun _ => true) (.driver d) s =
              ({ s with world := w }.addFilter ⟨d, priv⟩, false) := by
            simp [probeBody, hprobe, hres]
          have hcreated : created drv (d :: ds) s.nextId s.world =
              ((s.nextId, ⟨d, priv⟩) :: (created drv ds (s.nextId + 1) w).1,
                (created drv ds (s.nextId + 1) w).2) := by
            simp [created, hprobe, hres]
          rw [hbody, hcreated]
          obtain ⟨hring, hworld⟩ := ih (Attached.addFilter { s with world := w } ⟨d, priv⟩)
          refine ⟨?_, hworld⟩
          -- the filter just made is the last one, unless a later driver makes another
          cases hnew : (created drv ds (s.nextId + 1) w).1 with
          | nil => simpa [Filters.addFilter, hnew] using hring
          | cons q new => simpa [Filters.addFilter, hnew, List.getLast?_cons] using hring

/-- `usbip_filter_probe` visits each registered driver. -/
theorem usbipFilterProbe_eq {fuel : ℕ} (h : Registered s ds) (hfuel : ds.length < fuel) :
    usbipFilterProbe drv (fun _ => true) fuel s =
      some (visit (probeBody drv fun _ => true) (ds.map Node.driver) s) := by
  rw [usbipFilterProbe, h.next_head]
  refine forEach_eq (I := fun l t => Registered t ds ∧ ∃ l', l' ++ l = ds.map Node.driver)
    ?_ ⟨h, [], rfl⟩ (by simpa using hfuel)
  rintro x l t ⟨ht, l', hl⟩
  obtain ⟨d, -, rfl⟩ : ∃ d ∈ ds, Node.driver d = x := by
    have hx : x ∈ ds.map Node.driver := by
      rw [← hl]
      simp
    exact List.mem_map.mp hx
  refine ⟨by simp, fun _ => ?_⟩
  have hkept : Registered (probeBody drv (fun _ => true) (.driver d) t).1 ds := by
    unfold probeBody
    simp only
    split
    · exact ht
    split
    · exact ht
    next priv w hres =>
      rw [if_pos trivial]
      exact Registered.addFilter (s := { t with world := w }) ht ⟨d, priv⟩
  refine ⟨⟨hkept, l' ++ [.driver d], by simp [hl]⟩, ?_⟩
  have hring : Circular (probeBody drv (fun _ => true) (.driver d) t).1.links .registry
      (l' ++ .driver d :: l) := hl ▸ hkept
  exact hring.next_eq

/-! ### Dispatch -/

section Dispatch

variable {α : Type u} {hook : UsbipFilterDriver π ω ρ τ →
  Option (UsbipFilter π → α → ω → ℤ × ω)} {arg : α}

/-- The loop over the filters calls the hooks in order. -/
theorem visit_hook (hl : ∀ p ∈ l, s.filter p.1 = some p.2) :
    visit (hookBody drv hook arg) (l.map fun p => Node.filter p.1) (s, 0) =
      ({ s with world := (dispatch drv hook arg l s.world).2 },
        (dispatch drv hook arg l s.world).1) := by
  induction l generalizing s with
  | nil => rfl
  | cons p l ih =>
    have hp : s.filter p.1 = some p.2 := hl p (by simp)
    have hrest : ∀ q ∈ l, s.filter q.1 = some q.2 := fun q hq => hl q (by simp [hq])
    rw [List.map_cons, visit]
    cases hh : hook (drv p.2.drv) with
    | none =>
      have hbody : hookBody drv hook arg (.filter p.1) (s, 0) = ((s, 0), false) := by
        simp [hookBody, hp, hh]
      rw [hbody, dispatch, hh]
      exact ih hrest
    | some f =>
      have hbody : hookBody drv hook arg (.filter p.1) (s, 0) =
          (({ s with world := (f p.2 arg s.world).2 }, (f p.2 arg s.world).1),
            decide ((f p.2 arg s.world).1 ≠ 0)) := by
        simp [hookBody, hp, hh]
      rw [hbody, dispatch, hh]
      by_cases hzero : (f p.2 arg s.world).1 = 0
      · have := ih (s := { s with world := (f p.2 arg s.world).2 }) hrest
        simpa [hzero] using this
      · simp [hzero]

/-- **Dispatch** over a well-formed list. -/
theorem usbipFilterOn_eq {fuel : ℕ} (h : Attached s l) (hfuel : l.length < fuel) :
    usbipFilterOn drv hook arg fuel s =
      some ({ s with world := (dispatch drv hook arg l s.world).2 },
        (dispatch drv hook arg l s.world).1) := by
  rw [usbipFilterOn, h.ring.next_head, ← visit_hook h.allocated]
  refine forEachSafe_eq (I := fun m t => t.1.links = s.links ∧
    ∃ m', m' ++ m = l.map fun p => Node.filter p.1) ?_ ⟨rfl, [], rfl⟩ (by simpa using hfuel)
  rintro x m t ⟨ht, m', hm⟩
  have hring : Circular t.1.links .filters (m' ++ x :: m) := by
    rw [ht, hm]
    exact h.ring
  refine ⟨?_, hring.next_eq, fun _ => ⟨?_, m' ++ [x], by simp [hm]⟩⟩
  · rintro rfl
    exact (List.nodup_cons.mp hring.2).1 (by simp)
  · rw [← ht]
    unfold hookBody
    split
    · split
      · rfl
      · split <;> rfl
    · rfl

end Dispatch

/-! ### The list after probing -/

/-- What `usbip_filter_probe` and the two dispatchers promise: the filters the device had are
followed by one for each driver that accepts it, and all of them are called in order. -/
def KeepsAll (drv : ℕ → UsbipFilterDriver π ω ρ τ) (s' : Filters π ω)
    (l : List (ℕ × UsbipFilter π)) : Prop :=
  Attached s' l ∧ ∀ fuel, l.length < fuel →
    (∀ arg, usbipFilterOnRx drv arg fuel s' =
      some ({ s' with world := (dispatch drv UsbipFilterDriver.onRx arg l s'.world).2 },
        (dispatch drv UsbipFilterDriver.onRx arg l s'.world).1)) ∧
    ∀ arg, usbipFilterOnTx drv arg fuel s' =
      some ({ s' with world := (dispatch drv UsbipFilterDriver.onTx arg l s'.world).2 },
        (dispatch drv UsbipFilterDriver.onTx arg l s'.world).1)

theorem keepsAll_iff : KeepsAll drv s l ↔ Attached s l :=
  ⟨fun h => h.1, fun h => ⟨h, fun _ hfuel =>
    ⟨fun _ => usbipFilterOn_eq h hfuel, fun _ => usbipFilterOn_eq h hfuel⟩⟩⟩

/-- The last of a list's entries is all of it and of what stood before. -/
theorem append_eq_last_iff {new : List (ℕ × UsbipFilter π)} :
    old ++ new = (match new.getLast? with
      | none => old
      | some p => [p]) ↔ new = [] ∨ old = [] ∧ new.length = 1 := by
  rcases List.eq_nil_or_concat new with rfl | ⟨new, p, rfl⟩
  · simp
  · rw [List.concat_eq_append]
    simp only [List.getLast?_append, List.getLast?_singleton, Option.some_or]
    constructor
    · intro h
      have hlen := congrArg List.length h
      simp only [List.length_append, List.length_singleton] at hlen
      exact Or.inr ⟨List.eq_nil_of_length_eq_zero (by omega),
        by rw [List.length_append, List.length_singleton]; omega⟩
    · rintro (h | ⟨rfl, h⟩)
      · simp at h
      · rw [List.length_append, List.length_singleton] at h
        rw [List.eq_nil_of_length_eq_zero (by omega : new.length = 0)]
        rfl

/-- **The filter registry**: with memory for every filter, the list after `usbip_filter_probe` is
the old one followed by one filter per accepting driver, all of them called by the dispatchers,
if and only if no driver accepts the device, or exactly one does and the list was empty. -/
theorem filter_probe_keeps_all (hreg : Registered s ds) (hold : Attached s old) {fuel : ℕ}
    (hfuel : ds.length < fuel) :
    ∃ s', usbipFilterProbe drv (fun _ => true) fuel s = some s' ∧
      (KeepsAll drv s' (old ++ (created drv ds s.nextId s.world).1) ↔
        (created drv ds s.nextId s.world).1 = [] ∨
          old = [] ∧ (created drv ds s.nextId s.world).1.length = 1) := by
  refine ⟨_, usbipFilterProbe_eq hreg hfuel, ?_⟩
  obtain ⟨hlist, -⟩ := visit_probe ds drv hold
  rw [keepsAll_iff, ← append_eq_last_iff]
  constructor
  · exact fun h => h.unique hlist
  · intro h
    rw [h]
    exact hlist

end Drivers

end Filters

/-! ### Two drivers -/

/-- Drivers that accept every device; on_rx counts its calls and returns the number of the
filter's driver. -/
def eager (d : ℕ) : UsbipFilterDriver Unit ℕ Unit Unit where
  probe := some fun w => (some (), w)
  remove := some fun _ w => w + 1
  onTx := none
  onRx := some fun _ _ w => (d, w + 1)

/-- Before any driver registers, with a device that has no filter. -/
def empty : Filters Unit ℕ where
  links := ((⟨id, id⟩ : Links Node).initListHead .registry).initListHead .filters
  filter := fun _ => none
  nextId := 0
  world := 0

/-- A system in which these drivers have registered. -/
def registered (ds : List ℕ) : Filters Unit ℕ := ds.foldl Filters.usbipFilterRegister empty

theorem registered_spec {ds : List ℕ} (h : ds.Nodup) :
    Filters.Registered (registered ds) ds ∧ Filters.Attached (registered ds) [] := by
  induction ds using List.reverseRecOn with
  | nil =>
    exact ⟨(Circular.initListHead _ _).initListHead_other (by simp), Circular.initListHead _ _,
      by simp⟩
  | append_singleton ds d ih =>
    obtain ⟨hds, -, hd⟩ := List.nodup_append.mp h
    obtain ⟨hreg, hatt⟩ := ih hds
    rw [registered, List.foldl_append]
    exact ⟨hreg.register fun hmem => hd d hmem d (by simp) rfl, hatt.register hreg d⟩

theorem filter_probe_keeps_all_one :
    ∃ s', Filters.usbipFilterProbe eager (fun _ => true) 2 (registered [1]) = some s' ∧
      (Filters.KeepsAll eager s' ([] ++ (Filters.created eager [1] 0 0).1) ↔
        (Filters.created eager [1] 0 0).1 = [] ∨
          ([] : List (ℕ × UsbipFilter Unit)) = [] ∧ (Filters.created eager [1] 0 0).1.length = 1) :=
  Filters.filter_probe_keeps_all (registered_spec (by simp)).1 (registered_spec (by simp)).2
    (by decide)

/-- **The second driver's filter displaces the first one's.** -/
theorem second_filter_displaces_first :
    ∃ s', Filters.usbipFilterProbe eager (fun _ => true) 3 (registered [0, 1]) = some s' ∧
      (Filters.created eager [0, 1] 0 0).1 = [(0, ⟨0, ()⟩), (1, ⟨1, ()⟩)] ∧
      ¬ Filters.KeepsAll eager s' [(0, ⟨0, ()⟩), (1, ⟨1, ()⟩)] := by
  have hrun : (Filters.usbipFilterProbe eager (fun _ => true) 3 (registered [0, 1])).map
      (fun s => s.links.next .filters) = some (.filter 1) := by decide
  obtain ⟨s', hs', hnext⟩ := Option.map_eq_some_iff.mp hrun
  refine ⟨s', hs', rfl, fun h => ?_⟩
  have := h.1.ring.next_head
  simp [hnext] at this

end Usbip.Filter
