import Usbip.Filter.Registry

/-!
# Removing filters

`usbip_filter_remove(ud, drv)` is called with a driver, for the filters that this driver made,
and by `stub_disconnect` with a null pointer, for all of them. Its loop skips a filter when
`!drv && drv != filter->drv`. For a null `drv` this holds of every filter, so none is removed;
for any other it holds of none, so every filter is removed, and with the hook of `drv`, whoever
made it (`visit_remove`).

So the call with a null pointer does what it should only for an empty list, and the call with a
driver only when all filters of the device are that driver's (`filter_remove_iff`).
-/

namespace Usbip.Filter

open Function ListHead

universe u

variable {π ω ρ τ : Type u}

namespace Filters

/-- The filters that `usbip_filter_remove` is asked to remove. -/
def Selected (arg : Option ℕ) (p : ℕ × UsbipFilter π) : Prop := ∀ d ∈ arg, p.2.drv = d

instance (arg : Option ℕ) (p : ℕ × UsbipFilter π) : Decidable (Selected arg p) := by
  unfold Selected
  infer_instance

/-- The selected filters are gone, each told to its own driver's hook once and in order; the
others are still attached, in their order and unchanged. -/
structure Removes (drv : ℕ → UsbipFilterDriver π ω ρ τ) (arg : Option ℕ)
    (l : List (ℕ × UsbipFilter π)) (s s' : Filters π ω) : Prop where
  attached : Attached s' (l.filter fun p => ¬ Selected arg p)
  hooks : s'.world = ownRemoves drv (l.filter fun p => Selected arg p) s.world
  freed : ∀ p ∈ l, Selected arg p → s'.filter p.1 = none
  kept : ∀ i, (∀ p ∈ l, Selected arg p → p.1 ≠ i) → s'.filter i = s.filter i

variable {drv : ℕ → UsbipFilterDriver π ω ρ τ} {s : Filters π ω} {l : List (ℕ × UsbipFilter π)}
  {fuel : ℕ}

/-! ### A null pointer -/

/-- With a null pointer the loop skips every filter. -/
theorem removeBody_null (x : Node) : removeBody drv none x s = (s, false) := by
  unfold removeBody
  split
  · split
    · rfl
    · exact if_pos ⟨rfl, by simp⟩
  · rfl

theorem visit_remove_null (l : List Node) : visit (removeBody drv none) l s = s := by
  induction l with
  | nil => rfl
  | cons x l ih =>
    rw [visit, removeBody_null]
    exact ih

/-- The call with a null pointer changes nothing. -/
theorem usbipFilterRemove_null (h : Attached s l) (hfuel : l.length < fuel) :
    usbipFilterRemove drv none fuel s = some s := by
  have hloop : usbipFilterRemove drv none fuel s =
      some (visit (removeBody drv none) (l.map fun p => Node.filter p.1) s) := by
    rw [usbipFilterRemove, h.ring.next_head]
    refine forEachSafe_eq (I := fun m t => s = t ∧ ∃ m', m' ++ m = l.map fun p => Node.filter p.1)
      ?_ ⟨rfl, [], rfl⟩ (by simpa using hfuel)
    rintro x m t ⟨rfl, m', hm⟩
    have hring : Circular s.links .filters (m' ++ x :: m) := by
      rw [hm]
      exact h.ring
    rw [removeBody_null]
    refine ⟨?_, hring.next_eq, fun _ => ⟨rfl, m' ++ [x], by simp [hm]⟩⟩
    rintro rfl
    exact (List.nodup_cons.mp hring.2).1 (by simp)
  rw [hloop, visit_remove_null]

/-! ### A driver -/

/-- One filter is unlinked and freed, and the hook of the driver `d` is told. -/
def dropFilter (drv : ℕ → UsbipFilterDriver π ω ρ τ) (d : ℕ) (p : ℕ × UsbipFilter π)
    (s : Filters π ω) : Filters π ω :=
  { s with
    world := (drv d).remove.elim s.world fun remove => remove p.2 s.world
    links := s.links.listDel (.filter p.1)
    filter := update s.filter p.1 none }

/-- The loop drops a filter, whoever made it. -/
theorem removeBody_some {d : ℕ} {p : ℕ × UsbipFilter π} (hp : s.filter p.1 = some p.2) :
    removeBody drv (some d) (.filter p.1) s = (dropFilter drv d p s, false) := by
  simp [removeBody, dropFilter, hp]

/-- Dropping the first filter leaves the others attached. -/
theorem Attached.drop {p : ℕ × UsbipFilter π} (h : Attached s (p :: l)) (d : ℕ) :
    Attached (dropFilter drv d p s) l := by
  have hring : Circular s.links .filters ([] ++ .filter p.1 :: l.map fun p => .filter p.1) := h.ring
  refine ⟨hring.listDel, fun q hq => ?_⟩
  have hne : q.1 ≠ p.1 := by
    have hnodup := (List.nodup_cons.mp h.ring.2).2
    rw [List.map_cons, List.nodup_cons] at hnodup
    exact fun heq => hnodup.1 (List.mem_map.mpr ⟨q, hq, congrArg Node.filter heq⟩)
  exact (update_of_ne hne ..).trans (h.allocated q (by simp [hq]))

/-- The hook of one driver, called for each filter of a list. -/
def driverRemoves (drv : ℕ → UsbipFilterDriver π ω ρ τ) (d : ℕ) (l : List (ℕ × UsbipFilter π))
    (w : ω) : ω :=
  l.foldl (fun w p => (drv d).remove.elim w fun remove => remove p.2 w) w

variable (drv) in
/-- With a driver the loop drops every filter of the device. -/
theorem visit_remove_some (d : ℕ) (h : Attached s l) :
    Attached (visit (removeBody drv (some d)) (l.map fun p => Node.filter p.1) s) [] ∧
      (visit (removeBody drv (some d)) (l.map fun p => Node.filter p.1) s).world =
        driverRemoves drv d l s.world ∧
      (∀ p ∈ l,
        (visit (removeBody drv (some d)) (l.map fun p => Node.filter p.1) s).filter p.1 = none) ∧
      ∀ i, (∀ p ∈ l, p.1 ≠ i) →
        (visit (removeBody drv (some d)) (l.map fun p => Node.filter p.1) s).filter i =
          s.filter i := by
  induction l generalizing s with
  | nil => exact ⟨h, rfl, by simp, fun _ _ => rfl⟩
  | cons p l ih =>
    rw [List.map_cons, visit, removeBody_some (h.allocated p (by simp))]
    obtain ⟨hatt, hworld, hfreed, hkept⟩ := ih (h.drop d)
    refine ⟨hatt, hworld, fun q hq => ?_, fun i hi => ?_⟩
    · rcases List.mem_cons.mp hq with rfl | hq
      · -- later steps do not touch the filter just freed
        have hnew : ∀ r ∈ l, r.1 ≠ q.1 := by
          have hnodup := (List.nodup_cons.mp h.ring.2).2
          rw [List.map_cons, List.nodup_cons] at hnodup
          exact fun r hr heq => hnodup.1 (List.mem_map.mpr ⟨r, hr, congrArg Node.filter heq⟩)
        exact (hkept q.1 hnew).trans (update_self ..)
      · exact hfreed q hq
    · refine (hkept i fun q hq => hi q (by simp [hq])).trans ?_
      exact update_of_ne (Ne.symm (hi p (by simp))) ..

theorem usbipFilterRemove_some {d : ℕ} (h : Attached s l) (hfuel : l.length < fuel) :
    usbipFilterRemove drv (some d) fuel s =
      some (visit (removeBody drv (some d)) (l.map fun p => Node.filter p.1) s) := by
  rw [usbipFilterRemove, h.ring.next_head]
  refine forEachSafe_eq (I := fun m t => ∃ l', m = l'.map (fun p => Node.filter p.1) ∧
    Attached t l') ?_ ⟨l, rfl, h⟩ (by simpa using hfuel)
  rintro x m t ⟨l', hm, ht⟩
  cases l' with
  | nil => cases hm
  | cons p l' =>
    obtain ⟨rfl, rfl⟩ := List.cons.inj hm
    have hring : Circular t.links .filters ([] ++ .filter p.1 :: l'.map fun p => .filter p.1) :=
      ht.ring
    refine ⟨by simp, hring.next_eq, fun _ => ⟨l', rfl, ?_⟩⟩
    rw [removeBody_some (ht.allocated p (by simp))]
    exact ht.drop d

/-! ### Both -/

/-- The hooks of the filters' own drivers are those of one driver that made all of them. -/
theorem ownRemoves_eq {d : ℕ} (h : ∀ p ∈ l, p.2.drv = d) (w : ω) :
    ownRemoves drv l w = driverRemoves drv d l w := by
  induction l generalizing w with
  | nil => rfl
  | cons p l ih =>
    have hp := h p (by simp)
    have := ih (fun q hq => h q (by simp [hq]))
      ((drv d).remove.elim w fun remove => remove p.2 w)
    simpa [ownRemoves, driverRemoves, hp] using this

/-- **Removing filters**: `usbip_filter_remove` removes the filters that it is asked to, and those
only, if and only if the pointer is null and there are none, or all of them are the driver's. -/
theorem filter_remove_iff (arg : Option ℕ) (h : Attached s l) (hfuel : l.length < fuel) :
    ∃ s', usbipFilterRemove drv arg fuel s = some s' ∧
      (Removes drv arg l s s' ↔
        match arg with
        | none => l = []
        | some d => ∀ p ∈ l, p.2.drv = d) := by
  cases arg with
  | none =>
    refine ⟨s, usbipFilterRemove_null h hfuel, ?_⟩
    have hall : ∀ p ∈ l, Selected none p := by
      intro p _ d hd
      cases hd
    constructor
    · intro hr
      have hatt := hr.attached
      rw [List.filter_eq_nil_iff.mpr fun p hp => by simpa using hall p hp] at hatt
      exact h.unique hatt
    · rintro rfl
      exact ⟨h, rfl, by simp, fun _ _ => rfl⟩
  | some d =>
    refine ⟨_, usbipFilterRemove_some h hfuel, ?_⟩
    obtain ⟨hatt, hworld, hfreed, hkept⟩ := visit_remove_some drv d h
    have hsel : ∀ p : ℕ × UsbipFilter π, Selected (some d) p ↔ p.2.drv = d := by
      simp [Selected]
    constructor
    · intro hr p hp
      have hnone := hr.attached.unique hatt
      have := List.filter_eq_nil_iff.mp hnone p hp
      simpa [hsel] using this
    · intro hown
      have hno : l.filter (fun p => ¬ Selected (some d) p) = [] :=
        List.filter_eq_nil_iff.mpr fun p hp => by simp [hsel, hown p hp]
      have hyes : l.filter (fun p => Selected (some d) p) = l :=
        List.filter_eq_self.mpr fun p hp => by simp [hsel, hown p hp]
      refine ⟨?_, ?_, fun p hp _ => hfreed p hp, fun i hi => hkept i fun p hp => ?_⟩
      · rw [hno]
        exact hatt
      · rw [hyes, hworld, ownRemoves_eq hown]
      · exact hi p hp ((hsel p).mpr (hown p hp))

end Filters

/-! ### Two filters -/

/-- A device with a filter of each of these drivers. -/
def filtered (ds : List ℕ) : Filters Unit ℕ where
  links := ds.foldl (fun links d => links.listAddTail (.filter d) .filters)
    ((⟨id, id⟩ : Links Node).initListHead .filters)
  filter := fun i => if i ∈ ds then some ⟨i, ()⟩ else none
  nextId := ds.length
  world := 0

theorem filtered_spec {ds : List ℕ} (h : ds.Nodup) :
    Filters.Attached (filtered ds) (ds.map fun d => (d, ⟨d, ()⟩)) := by
  constructor
  · rw [List.map_map]
    change Circular (filtered ds).links .filters (ds.map Node.filter)
    unfold filtered
    dsimp only
    induction ds using List.reverseRecOn with
    | nil => exact Circular.initListHead _ _
    | append_singleton ds d ih =>
      obtain ⟨hds, -, hd⟩ := List.nodup_append.mp h
      rw [List.foldl_append, List.map_append]
      refine (ih hds).listAddTail ?_
      simpa using fun hmem => hd d hmem d (by simp) rfl
  · intro p hp
    obtain ⟨d, hd, rfl⟩ := List.mem_map.mp hp
    simp [filtered, hd]

theorem filter_remove_iff_own :
    ∃ s', Filters.usbipFilterRemove eager (some 1) 2 (filtered [1]) = some s' ∧
      (Filters.Removes eager (some 1) [(1, ⟨1, ()⟩)] (filtered [1]) s' ↔
        ∀ p ∈ [((1 : ℕ), (⟨1, ()⟩ : UsbipFilter Unit))], p.2.drv = 1) :=
  Filters.filter_remove_iff (some 1) (filtered_spec (by simp)) (by decide)

/-- **A disconnect removes no filter, and a driver takes the filters of others with it.** -/
theorem filter_remove_wrong :
    (∃ s', Filters.usbipFilterRemove eager none 3 (filtered [0, 1]) = some s' ∧
      ¬ Filters.Removes eager none [(0, ⟨0, ()⟩), (1, ⟨1, ()⟩)] (filtered [0, 1]) s') ∧
    ∃ s', Filters.usbipFilterRemove eager (some 0) 3 (filtered [0, 1]) = some s' ∧
      ¬ Filters.Removes eager (some 0) [(0, ⟨0, ()⟩), (1, ⟨1, ()⟩)] (filtered [0, 1]) s' := by
  constructor
  · have hrun : (Filters.usbipFilterRemove eager none 3 (filtered [0, 1])).map
        (fun s => s.filter 0) = some (some ⟨0, ()⟩) := by decide
    obtain ⟨s', hs', hfilter⟩ := Option.map_eq_some_iff.mp hrun
    refine ⟨s', hs', fun h => ?_⟩
    have := h.freed (0, ⟨0, ()⟩) (by simp) (by simp [Filters.Selected])
    simp [hfilter] at this
  · have hrun : (Filters.usbipFilterRemove eager (some 0) 3 (filtered [0, 1])).map
        (fun s => s.filter 1) = some none := by decide
    obtain ⟨s', hs', hfilter⟩ := Option.map_eq_some_iff.mp hrun
    refine ⟨s', hs', fun h => ?_⟩
    have := h.kept 1 (by simp [Filters.Selected])
    simp [hfilter, filtered] at this

end Usbip.Filter
