import Mathlib.Algebra.Order.Group.Multiset
import Mathlib.Tactic.Abel
import Usbip.Libusb0.Descriptors

/-!
# The blocks of a configuration

What the parser allocates hangs in the tree it makes, also when it gives up in the middle, and
`usb_destroy_configuration` frees what hangs there. Some blocks get lost: the extra descriptors of a
configuration are never freed, a `realloc` that fails takes the settings with it that were there
before, and when a configuration cannot be read, those before it are dropped with the array.

`Adds s s' l` says that `l` are the blocks that are live in `s'` and were not in `s`. Each function
of the parser has one lemma about what it adds: the blocks of the tree, and then what is lost.
-/

namespace Usbip.Libusb0

open Records

variable (mem after : ℤ → Byte) (grant : ℕ → Bool) {s s' s'' : Store} {l l' : List ℕ}

/-- `l` are the blocks that came between `s` and `s'`, each of them once. -/
structure Adds (s s' : Store) (l : List ℕ) : Prop where
  le : s.calls ≤ s'.calls
  old : ∀ b, s.live b = true → b < s.calls
  fresh : ∀ b ∈ l, s.calls ≤ b ∧ b < s'.calls
  nodup : l.Nodup
  live : ∀ b, s'.live b = true ↔ s.live b = true ∨ b ∈ l

namespace Adds

theorem refl (h : ∀ b, s.live b = true → b < s.calls) : Adds s s [] :=
  ⟨le_rfl, h, by simp, List.nodup_nil, by simp⟩

/-- Afterwards the live blocks have names that were used, too. -/
theorem bounded (h : Adds s s' l) (b : ℕ) (hb : s'.live b = true) : b < s'.calls := by
  rcases (h.live b).mp hb with hold | hmem
  · exact (h.old b hold).trans_le h.le
  · exact (h.fresh b hmem).2

theorem trans (h : Adds s s' l) (h' : Adds s' s'' l') : Adds s s'' (l ++ l') where
  le := h.le.trans h'.le
  old := h.old
  fresh b hb := by
    have hle := h.le
    have hle' := h'.le
    rcases List.mem_append.mp hb with hb | hb
    · have := h.fresh b hb
      omega
    · have := h'.fresh b hb
      omega
  nodup := by
    refine List.nodup_append.mpr ⟨h.nodup, h'.nodup, fun b hb b' hb' heq => ?_⟩
    have := h.fresh b hb
    have := h'.fresh b' hb'
    omega
  live b := by rw [h'.live, h.live, List.mem_append, or_assoc]

theorem perm (h : Adds s s' l) (hl : l.Perm l') : Adds s s' l' where
  le := h.le
  old := h.old
  fresh b hb := h.fresh b (hl.mem_iff.mpr hb)
  nodup := hl.nodup_iff.mp h.nodup
  live b := by rw [h.live, hl.mem_iff]

/-- Reading is of no account. -/
theorem look (h : Adds s s' l) (pos : ℤ) (n : ℕ) : Adds s (s'.look pos n) l :=
  ⟨h.le, h.old, h.fresh, h.nodup, h.live⟩

theorem skip (h : Adds s s' l) (R : Rule) (pos size : ℤ) : Adds s (s'.skip R mem pos size).2 l :=
  ⟨h.le, h.old, h.fresh, h.nodup, h.live⟩

/-- A block that came and is freed again. -/
theorem free (h : Adds s s' l) {b : ℕ} (hl : l.Perm (b :: l')) :
    Adds s { s' with live := Function.update s'.live b false } l' where
  le := h.le
  old := h.old
  fresh c hc := h.fresh c (hl.mem_iff.mpr (List.mem_cons_of_mem b hc))
  nodup := (List.nodup_cons.mp (hl.nodup_iff.mp h.nodup)).2
  live c := by
    have hnodup := List.nodup_cons.mp (hl.nodup_iff.mp h.nodup)
    have hb := h.fresh b (hl.mem_iff.mpr List.mem_cons_self)
    have hlive := h.live c
    rw [hl.mem_iff, List.mem_cons] at hlive
    rcases eq_or_ne c b with rfl | hne
    · simp only [Function.update_self]
      refine iff_of_false Bool.false_ne_true ?_
      rintro (hold | hmem)
      · have := h.old c hold
        omega
      · exact hnodup.1 hmem
    · simp only [Function.update_of_ne hne, hlive, hne, false_or]

end Adds

/-! ### Allocating -/

theorem adds_malloc (h : ∀ b, s.live b = true → b < s.calls) :
    Adds s (s.malloc grant).2 (s.malloc grant).1.toList := by
  rw [Store.malloc]
  split
  · refine ⟨Nat.le_succ _, h, by simp, by simp, fun b => ?_⟩
    rcases eq_or_ne b s.calls with rfl | hne
    · simp
    · simp [hne]
  · exact ⟨Nat.le_succ _, h, by simp, by simp, by simp⟩

/-- `realloc` puts a new block in the place of the old one. -/
theorem Adds.realloc {old : Option ℕ} {b : ℕ} (h : Adds s s' (l ++ old.toList))
    (hr : s'.realloc grant old = (some b, s'')) : Adds s s'' (l ++ [b]) := by
  have hnew := h.trans (adds_malloc grant h.bounded)
  rcases hm : s'.malloc grant with ⟨_ | c, t⟩
  · simp [Store.realloc, hm] at hr
  rw [hm] at hnew
  rcases old with _ | o
  · obtain ⟨rfl, rfl⟩ : c = b ∧ t = s'' := by simpa [Store.realloc, hm] using hr
    simpa using hnew
  · obtain ⟨rfl, rfl⟩ : c = b ∧ { t with live := Function.update t.live o false } = s'' := by
      simpa [Store.realloc, hm] using hr
    refine hnew.free (List.Perm.trans ?_ List.perm_middle)
    simp

/-- A `realloc` that fails leaves the blocks as they are. -/
theorem Adds.realloc_none {old : Option ℕ} (h : Adds s s' l)
    (hr : s'.realloc grant old = (none, s'')) : Adds s s'' l := by
  have hnew := h.trans (adds_malloc grant h.bounded)
  rcases hm : s'.malloc grant with ⟨_ | c, t⟩
  · obtain rfl : t = s'' := by simpa [Store.realloc, hm] using hr
    rw [hm] at hnew
    simpa using hnew
  · rcases old with _ | o <;> simp [Store.realloc, hm] at hr

theorem adds_copy (h : ∀ b, s.live b = true → b < s.calls) (start : ℤ) (len : ℕ) :
    Adds s (s.copy grant mem start len).2 (block (s.copy grant mem start len).1) := by
  have hnew := adds_malloc grant h
  rw [Store.copy]
  split
  next heq => simpa [heq, block] using hnew
  next heq => simpa [heq, block] using hnew.look _ _

theorem adds_copyExtra (h : ∀ b, s.live b = true → b < s.calls) (start : ℤ) (len : ℕ) :
    Adds s (s.copyExtra grant mem start len).2
      (block ((s.copyExtra grant mem start len).1.getD none)) := by
  rw [Store.copyExtra]
  split
  · exact .refl h
  have hnew := adds_copy mem grant h start len
  split
  next heq => simpa [heq, block] using hnew
  next heq => simpa [heq, block] using hnew

/-! ### The endpoints -/

theorem adds_read (h : ∀ b, s.live b = true → b < s.calls) (e : UsbEndpointDescriptor) (buffer : ℤ)
    (len : ℕ) : (e.read mem buffer len s).1.extra = e.extra ∧
      Adds s (e.read mem buffer len s).2 [] := by
  rw [UsbEndpointDescriptor.read]
  split
  · exact ⟨rfl, (Adds.refl h).look _ _⟩
  split
  · exact ⟨rfl, (Adds.refl h).look _ _⟩
  · exact ⟨rfl, .refl h⟩

theorem adds_usbParseEndpoint (h : ∀ b, s.live b = true → b < s.calls) (buffer size : ℤ) :
    Adds s (usbParseEndpoint mem grant .zero buffer size s).2.2
      (block (usbParseEndpoint mem grant .zero buffer size s).2.1.extra) := by
  rw [usbParseEndpoint]
  have hlook := (Adds.refl h).look buffer 2
  dsimp only
  split
  · exact hlook
  split
  · exact hlook
  generalize (header mem buffer).bLength.toNat = len
  obtain ⟨hextra, hread⟩ := adds_read mem hlook.bounded .zero buffer len
  have hskip := (hlook.trans hread).skip mem ownRule (buffer + len) (size - len)
  rcases hs : (UsbEndpointDescriptor.zero.read mem buffer len (s.look buffer 2)).2.skip ownRule mem
    (buffer + len) (size - len) with ⟨_ | stop, t⟩
  · rw [hs, List.append_nil] at hskip
    have hnone :
        (UsbEndpointDescriptor.zero.read mem buffer len (s.look buffer 2)).1.extra = none := hextra
    dsimp only
    rwa [hnone]
  · rw [hs] at hskip
    have hcopy := hskip.trans (adds_copyExtra mem grant hskip.bounded
      (buffer + len) (stop - (buffer + len)).toNat)
    rcases hc : t.copyExtra grant mem (buffer + len) (stop - (buffer + len)).toNat with
      ⟨_ | _ | extra, u⟩
    all_goals simpa [hc, block] using hcopy

theorem adds_parseEndpoints (n : ℕ) (h : ∀ b, s.live b = true → b < s.calls) (buffer size : ℤ) :
    (parseEndpoints mem grant n buffer size s).2.1.length = n ∧
      Adds s (parseEndpoints mem grant n buffer size s).2.2
        ((parseEndpoints mem grant n buffer size s).2.1.flatMap fun e => block e.extra) := by
  induction n generalizing buffer size s with
  | zero => exact ⟨rfl, .refl h⟩
  | succ n ih =>
    have hzero : ∀ k, (List.replicate k UsbEndpointDescriptor.zero).flatMap
        (fun e => block e.extra) = [] := fun k => List.flatMap_eq_nil_iff.mpr fun e he => by
      rw [List.eq_of_mem_replicate he]
      rfl
    rw [parseEndpoints]
    have hlook := (Adds.refl h).look buffer 2
    dsimp only
    split
    · exact ⟨List.length_replicate, by simpa [hzero] using hlook⟩
    have hone := hlook.trans (adds_usbParseEndpoint mem grant hlook.bounded
      buffer size)
    rcases hr : usbParseEndpoint mem grant .zero buffer size (s.look buffer 2) with
      ⟨_ | retval, e, t⟩
    · rw [hr] at hone
      exact ⟨by simp, by simpa [hzero] using hone⟩
    · rw [hr] at hone
      obtain ⟨hlen, hrest⟩ := ih hone.bounded (buffer + retval) (size - retval)
      exact ⟨by simp [hlen], by simpa using hone.trans hrest⟩

/-! ### The settings -/

theorem adds_alternate (h : ∀ b, s.live b = true → b < s.calls) (buffer size : ℤ) :
    Adds s (alternate mem buffer size s).2 [] := by
  rw [alternate]
  split
  · exact .refl h
  split
  · exact (Adds.refl h).look _ _
  dsimp only
  split
  · exact ((Adds.refl h).look _ _).look _ _
  · exact ((Adds.refl h).look _ _).look _ _

/-- What an interface that has no endpoints yet has got to itself. -/
theorem freed_of_endpoint_none {ifp : UsbInterfaceDescriptor} (h : ifp.endpoint = none) :
    ifp.freed = block ifp.extra := by
  simp [UsbInterfaceDescriptor.freed, h, elements, block]

theorem adds_settingEndpoints (h : Adds s s' ifp.freed) (hnone : ifp.endpoint = none)
    (buffer size : ℤ) :
    Adds s (settingEndpoints mem grant ifp buffer size s').2.2
      (settingEndpoints mem grant ifp buffer size s').2.1.freed := by
  rw [settingEndpoints]
  have hlook := h.look buffer 2
  dsimp only
  split
  · exact hlook
  split
  · exact hlook
  split
  · simpa using hlook.trans (adds_alternate mem hlook.bounded buffer size)
  have hmalloc := hlook.trans (adds_malloc grant hlook.bounded)
  rcases hm : (s'.look buffer 2).malloc grant with ⟨_ | b, t⟩
  · rw [hm] at hmalloc
    simpa using hmalloc
  rw [hm, Option.toList_some] at hmalloc
  obtain ⟨hlen, hrest⟩ := adds_parseEndpoints mem grant
    ifp.bNumEndpoints.toNat hmalloc.bounded buffer size
  have hall := hmalloc.trans hrest
  -- the array was allocated before the blocks of its elements, and is freed after them
  have hfreed : ∀ endpoints : List UsbEndpointDescriptor,
      endpoints.length = ifp.bNumEndpoints.toNat →
      (ifp.freed ++ [b] ++ endpoints.flatMap fun e => block e.extra).Perm
        { ifp with endpoint := some (b, endpoints) }.freed := by
    intro endpoints hlen
    rw [freed_of_endpoint_none hnone, UsbInterfaceDescriptor.freed, List.append_assoc,
      List.append_assoc]
    refine List.Perm.append_left _ ?_
    simpa [elements, block, ← hlen] using (List.perm_append_singleton b _).symm
  dsimp only
  rcases hr : parseEndpoints mem grant ifp.bNumEndpoints.toNat buffer size t with
    ⟨_ | ⟨buffer', size'⟩, endpoints, u⟩
  · rw [hr] at hall hlen
    exact hall.perm (hfreed endpoints hlen)
  · rw [hr] at hall hlen
    have halt := hall.trans (adds_alternate mem hall.bounded buffer' size')
    rw [List.append_nil] at halt
    exact halt.perm (hfreed endpoints hlen)

theorem adds_parseSetting (h : ∀ b, s.live b = true → b < s.calls) (buffer size : ℤ) :
    Adds s (parseSetting mem grant buffer size s).2.2
      (parseSetting mem grant buffer size s).2.1.freed := by
  rw [parseSetting]
  dsimp only
  -- the fields that are filled own nothing
  obtain ⟨ifp, hifp⟩ : ∃ ifp, ifp = UsbInterfaceDescriptor.zero.fill (usbParseDescriptor mem buffer
    ['b', 'b', 'b', 'b', 'b', 'b', 'b', 'b', 'b']).1 := ⟨_, rfl⟩
  have hnone : ifp.endpoint = none := by rw [hifp]; rfl
  have hextra : ifp.extra = none := by rw [hifp]; rfl
  rw [← hifp]
  generalize ifp.bLength.toNat = len
  have hskip := ((Adds.refl h).look buffer (usbParseDescriptor mem buffer
    ['b', 'b', 'b', 'b', 'b', 'b', 'b', 'b', 'b']).2).skip mem ownRule (buffer + len)
      (size - len)
  rcases hs : ((s.look buffer (usbParseDescriptor mem buffer
    ['b', 'b', 'b', 'b', 'b', 'b', 'b', 'b', 'b']).2).skip ownRule mem (buffer + len)
      (size - len)) with ⟨_ | stop, t⟩
  · rw [hs] at hskip
    rw [freed_of_endpoint_none hnone, hextra]
    exact hskip
  rw [hs] at hskip
  have hcopy := hskip.trans (adds_copyExtra mem grant hskip.bounded
    (buffer + len) (stop - (buffer + len)).toNat)
  dsimp only
  rcases hc : t.copyExtra grant mem (buffer + len) (stop - (buffer + len)).toNat with
    ⟨_ | _ | extra, u⟩
  · rw [hc] at hcopy
    rw [freed_of_endpoint_none hnone, hextra]
    exact hcopy
  · rw [hc] at hcopy
    refine adds_settingEndpoints mem grant (?_ : Adds s u ifp.freed) hnone _ _
    rw [freed_of_endpoint_none hnone, hextra]
    exact hcopy
  · rw [hc] at hcopy
    dsimp only
    refine adds_settingEndpoints mem grant ?_ (?_ : _ = none) _ _
    · rw [freed_of_endpoint_none (by exact hnone)]
      exact hcopy
    · exact hnone

/-- The array of settings has as many elements as are counted, and there is one with the first. -/
def UsbInterface.Counted (interface : UsbInterface) : Prop :=
  interface.numAltsetting = (elements interface.altsetting).length ∧
    (interface.altsetting = none ↔ interface.numAltsetting = 0)

/-- The settings that were there before a `realloc` failed are lost. -/
def UsbInterface.Lost (interface : UsbInterface) : Prop :=
  interface.altsetting = none ∧ interface.numAltsetting ≠ 0

namespace UsbInterface.Counted

variable {interface : UsbInterface}

theorem freed (h : interface.Counted) :
    interface.freed =
      (elements interface.altsetting).flatMap UsbInterfaceDescriptor.freed ++
        block interface.altsetting := by
  rw [UsbInterface.freed, h.1, List.take_length]

theorem not_lost (h : interface.Counted) : ¬ interface.Lost := by
  rintro ⟨hnone, hnum⟩
  exact hnum (h.2.mp hnone)

/-- Without an array there is nothing to free. -/
theorem freed_eq_nil_iff (h : interface.Counted) :
    interface.freed = [] ↔ interface.altsetting = none := by
  rw [h.freed]
  rcases interface.altsetting with _ | ⟨b, settings⟩ <;> simp [elements, block]

/-- One more setting in a new array. -/
theorem push (h : interface.Counted) (b : ℕ) (ifp : UsbInterfaceDescriptor) :
    Counted ⟨some (b, elements interface.altsetting ++ [ifp]), interface.numAltsetting + 1⟩ := by
  refine ⟨?_, by simp⟩
  simp [elements, h.1]

end UsbInterface.Counted

theorem adds_parseSettings (n : ℕ) {interface : UsbInterface} (hcounted : interface.Counted)
    (h : Adds s s' interface.freed) (buffer size : ℤ) :
    ∃ lost, Adds s (parseSettings mem grant n interface buffer size s').2.2
        ((parseSettings mem grant n interface buffer size s').2.1.freed ++ lost) ∧
      (lost = [] ↔ ¬ (parseSettings mem grant n interface buffer size s').2.1.Lost) := by
  induction n generalizing interface buffer size s' with
  | zero => exact ⟨[], by simpa [parseSettings] using h, iff_of_true rfl hcounted.not_lost⟩
  | succ n ih =>
    rw [parseSettings]
    split
    · exact ⟨[], by simpa using h, iff_of_true rfl hcounted.not_lost⟩
    rcases hr : s'.realloc grant (interface.altsetting.map Prod.fst) with ⟨_ | b, t⟩
    · -- the pointer to the array is gone, with all that hangs in it
      refine ⟨interface.freed, ?_, ?_⟩
      · simpa [UsbInterface.freed, elements, block] using h.realloc_none grant hr
      · rw [hcounted.freed_eq_nil_iff, UsbInterface.Lost, not_and_not_right, hcounted.2]
        exact ⟨fun hnum _ => hnum, fun himp => himp rfl⟩
    rw [hcounted.freed] at h
    have hadds := h.realloc grant hr
    have hall := hadds.trans (adds_parseSetting mem grant hadds.bounded buffer
      size)
    have hpush := hcounted.push b (parseSetting mem grant buffer size t).2.1
    replace hall : Adds s (parseSetting mem grant buffer size t).2.2
        (UsbInterface.freed ⟨some (b, elements interface.altsetting ++
          [(parseSetting mem grant buffer size t).2.1]), interface.numAltsetting + 1⟩) := by
      refine hall.perm ?_
      rw [hpush.freed]
      simpa [elements, block] using
        List.Perm.append_left _ (List.perm_append_singleton b _).symm
    dsimp only
    split
    · exact ⟨[], by simpa using hall, iff_of_true rfl hpush.not_lost⟩
    · exact ⟨[], by simpa using hall, iff_of_true rfl hpush.not_lost⟩
    · exact ih hpush hall _ _

theorem adds_usbParseInterface (h : ∀ b, s.live b = true → b < s.calls) (buffer size : ℤ) :
    ∃ lost, Adds s (usbParseInterface mem grant .zero buffer size s).2.2
        ((usbParseInterface mem grant .zero buffer size s).2.1.freed ++ lost) ∧
      (lost = [] ↔ ¬ (usbParseInterface mem grant .zero buffer size s).2.1.Lost) :=
  adds_parseSettings mem grant _ ⟨rfl, iff_of_true rfl rfl⟩ (.refl h) _ _

/-! ### The configurations -/

/-- What a configuration owns: what is freed of it, and its extra descriptors. -/
def UsbConfigDescriptor.owned (cf : UsbConfigDescriptor) : List ℕ := cf.freed ++ block cf.extra

/-- Everything of a configuration is freed: it has no extra descriptors, and no setting is lost. -/
def UsbConfigDescriptor.Released (cf : UsbConfigDescriptor) : Prop :=
  cf.extra = none ∧ ∀ interface ∈ elements cf.interface, ¬ interface.Lost

@[simp]
theorem UsbInterface.freed_zero : UsbInterface.zero.freed = [] := rfl

theorem UsbInterface.not_lost_zero : ¬ UsbInterface.zero.Lost := fun h => h.2 rfl

theorem flatMap_freed_zero (n : ℕ) :
    (List.replicate n UsbInterface.zero).flatMap UsbInterface.freed = [] :=
  List.flatMap_eq_nil_iff.mpr fun i hi => by
    rw [List.eq_of_mem_replicate hi, UsbInterface.freed_zero]

theorem adds_configExtra {config : UsbConfigDescriptor}
    (h : Adds s s' (l ++ block config.extra)) (hlen : config.extralen = 0 → config.extra = none)
    (start : ℤ) (len : ℕ) :
    Adds s (configExtra mem grant config start len s').2.2
        (l ++ block (configExtra mem grant config start len s').2.1.extra) ∧
      ((configExtra mem grant config start len s').2.1.extralen = 0 →
        (configExtra mem grant config start len s').2.1.extra = none) ∧
      (configExtra mem grant config start len s').2.1.bNumInterfaces = config.bNumInterfaces := by
  rw [configExtra]
  split
  · exact ⟨h, hlen, rfl⟩
  next hnot =>
    rw [not_or, not_not] at hnot
    have hcopy := h.trans (adds_copy mem grant h.bounded start len)
    rw [hlen hnot.2] at hcopy
    rcases hc : s'.copy grant mem start len with ⟨_ | extra, t⟩
    · rw [hc] at hcopy
      exact ⟨by simpa [block] using hcopy, fun _ => rfl, rfl⟩
    · rw [hc] at hcopy
      exact ⟨by simpa [block] using hcopy, fun hzero => absurd hzero hnot.1, rfl⟩

/-- What the interfaces of a configuration own, and what is lost. -/
theorem adds_parseInterfaces (n : ℕ) (config : UsbConfigDescriptor)
    (h : Adds s s' (l ++ block config.extra)) (hlen : config.extralen = 0 → config.extra = none)
    (buffer size : ℤ) :
    (parseInterfaces mem grant n buffer size config s').2.1.length = n ∧
      (parseInterfaces mem grant n buffer size config s').2.2.1.bNumInterfaces =
        config.bNumInterfaces ∧
      ∃ lost, Adds s (parseInterfaces mem grant n buffer size config s').2.2.2
          (l ++
            (parseInterfaces mem grant n buffer size config s').2.1.flatMap UsbInterface.freed ++
            block (parseInterfaces mem grant n buffer size config s').2.2.1.extra ++ lost) ∧
        (lost = [] ↔
          ∀ i ∈ (parseInterfaces mem grant n buffer size config s').2.1, ¬ i.Lost) := by
  induction n generalizing l config buffer size s' with
  | zero => exact ⟨rfl, rfl, [], by simpa [parseInterfaces] using h, by simp [parseInterfaces]⟩
  | succ n ih =>
    have hzero : ∀ k, ∀ i ∈ List.replicate k UsbInterface.zero, ¬ i.Lost := by
      intro k i hi
      rw [List.eq_of_mem_replicate hi]
      exact UsbInterface.not_lost_zero
    rw [parseInterfaces]
    have hskip := h.skip mem configRule buffer size
    rcases hs : s'.skip configRule mem buffer size with ⟨_ | stop, t⟩
    · rw [hs] at hskip
      refine ⟨List.length_replicate, rfl, [], ?_, iff_of_true rfl (hzero _)⟩
      simpa only [flatMap_freed_zero, List.append_nil] using hskip
    rw [hs] at hskip
    obtain ⟨hextra, hlen', hnum⟩ := adds_configExtra mem grant hskip hlen buffer
      (stop - buffer).toNat
    dsimp only
    rcases hc : configExtra mem grant config buffer (stop - buffer).toNat t with
      ⟨_ | _, config', u⟩
    · rw [hc] at hextra hnum
      refine ⟨List.length_replicate, hnum, [], ?_, iff_of_true rfl (hzero _)⟩
      simpa only [flatMap_freed_zero, List.append_nil] using hextra
    rw [hc] at hextra hlen' hnum
    obtain ⟨lost, hone, hlost⟩ := adds_usbParseInterface mem grant
      hextra.bounded stop (size - (stop - buffer).toNat)
    dsimp only
    rcases hi : usbParseInterface mem grant .zero stop (size - (stop - buffer).toNat) u with
      ⟨_ | retval, interface, v⟩
    · rw [hi] at hone hlost
      refine ⟨by simp, hnum, lost, (hextra.trans hone).perm ?_, ?_⟩
      · simp only [List.flatMap_cons, flatMap_freed_zero, List.append_nil,
          ← Multiset.coe_eq_coe, ← Multiset.coe_add]
        abel
      · rw [hlost]
        simp only [List.forall_mem_cons]
        exact (and_iff_left (hzero n)).symm
    rw [hi] at hone hlost
    have hall : Adds s v (l ++ interface.freed ++ lost ++ block config'.extra) := by
      refine (hextra.trans hone).perm ?_
      simp only [← Multiset.coe_eq_coe, ← Multiset.coe_add]
      abel
    obtain ⟨hlength, hnum', lost', hrest, hlost'⟩ := ih config' hall hlen' (stop + retval)
      (size - (stop - buffer).toNat - retval)
    refine ⟨by rw [List.length_cons, hlength], hnum'.trans hnum, lost ++ lost', hrest.perm ?_, ?_⟩
    · simp only [List.flatMap_cons, ← Multiset.coe_eq_coe, ← Multiset.coe_add]
      abel
    · rw [List.append_eq_nil_iff, hlost, hlost', List.forall_mem_cons]

theorem adds_usbParseConfiguration (h : ∀ b, s.live b = true → b < s.calls) :
    ∃ lost, Adds s (usbParseConfiguration mem grant .zero s).2.2
        ((usbParseConfiguration mem grant .zero s).2.1.owned ++ lost) ∧
      (lost = [] ↔ ∀ i ∈ elements (usbParseConfiguration mem grant .zero s).2.1.interface,
        ¬ i.Lost) ∧
      ((usbParseConfiguration mem grant .zero s).2.1.interface = none →
        (usbParseConfiguration mem grant .zero s).2.1.extra = none) := by
  rw [usbParseConfiguration]
  have hlook := (Adds.refl h).look 0
    (usbParseDescriptor mem 0 ['b', 'b', 'w', 'b', 'b', 'b', 'b', 'b']).2
  dsimp only
  obtain ⟨config, hconfig⟩ : ∃ config, config = UsbConfigDescriptor.zero.fill
    (usbParseDescriptor mem 0 ['b', 'b', 'w', 'b', 'b', 'b', 'b', 'b']).1 := ⟨_, rfl⟩
  have hextra : config.extra = none := by rw [hconfig]; rfl
  have hinterface : config.interface = none := by rw [hconfig]; rfl
  rw [← hconfig]
  split
  · refine ⟨[], ?_, by simp [hinterface, elements], fun _ => hextra⟩
    simpa [UsbConfigDescriptor.owned, UsbConfigDescriptor.freed, hextra, hinterface, elements,
      block] using hlook
  have hmalloc := hlook.trans (adds_malloc grant hlook.bounded)
  generalize
    (usbParseDescriptor mem 0 ['b', 'b', 'w', 'b', 'b', 'b', 'b', 'b']).2 = len at hmalloc ⊢
  rcases hm : (s.look 0 len).malloc grant with ⟨_ | b, t⟩
  · rw [hm] at hmalloc
    refine ⟨[], ?_, by simp [elements], fun _ => hextra⟩
    simpa [UsbConfigDescriptor.owned, UsbConfigDescriptor.freed, hextra, elements, block] using
      hmalloc
  rw [hm] at hmalloc
  dsimp only
  generalize hc : { config with extra := none, extralen := 0 } = config'
  have hnone : config'.extra = none := by rw [← hc]
  have hnum' : config'.bNumInterfaces = config.bNumInterfaces := by rw [← hc]
  obtain ⟨hlength, hnum, lost, hall, hlost⟩ := adds_parseInterfaces mem grant
    config.bNumInterfaces.toNat config' (by simpa [hnone, block] using hmalloc) (fun _ => hnone)
    config.bLength.toNat
    (config.wTotalLength.toNat - config.bLength.toNat)
  have howned : ∀ (interfaces : List UsbInterface) (cf : UsbConfigDescriptor),
      interfaces.length = config.bNumInterfaces.toNat →
      cf.bNumInterfaces = config.bNumInterfaces →
      ([b] ++ interfaces.flatMap UsbInterface.freed ++ block cf.extra ++ lost).Perm
        ({ cf with interface := some (b, interfaces) }.owned ++ lost) := by
    intro interfaces cf hlength hnum
    simp only [UsbConfigDescriptor.owned, UsbConfigDescriptor.freed, elements, block, hnum,
      ← hlength, Option.map_some, Option.getD_some, List.take_length, Option.toList_some,
      ← Multiset.coe_eq_coe, ← Multiset.coe_add]
    abel
  rcases hr : parseInterfaces mem grant config.bNumInterfaces.toNat config.bLength.toNat
    (config.wTotalLength.toNat - config.bLength.toNat) config' t with
    ⟨_ | size, interfaces, cf, u⟩
  · rw [hr] at hlength hnum hall hlost
    exact ⟨lost, hall.perm (howned _ _ hlength (hnum.trans hnum')), hlost, fun h => nomatch h⟩
  · rw [hr] at hlength hnum hall hlost
    exact ⟨lost, hall.perm (howned _ _ hlength (hnum.trans hnum')), hlost, fun h => nomatch h⟩

/-! ### The device -/

/-- A configuration that is read owns all that came, but for what is lost. -/
theorem adds_fetchConfiguration (h : ∀ b, s.live b = true → b < s.calls) (answer : Answer) :
    (∀ t, fetchConfiguration after grant answer s = (none, t) → Adds s t []) ∧
      ∀ cf t, fetchConfiguration after grant answer s = (some cf, t) →
        ∃ lost, Adds s t (cf.owned ++ lost) ∧
          (lost = [] ↔ ∀ i ∈ elements cf.interface, ¬ i.Lost) ∧
          (cf.interface = none → cf.extra = none) := by
  rw [fetchConfiguration]
  dsimp only
  split
  · exact ⟨by rintro t ⟨⟩; exact .refl h, by rintro cf t ⟨⟩⟩
  have hmalloc := adds_malloc grant h
  rcases hm : s.malloc grant with ⟨_ | bigbuffer, t⟩
  · rw [hm] at hmalloc
    exact ⟨by rintro u ⟨⟩; exact hmalloc, by rintro cf u ⟨⟩⟩
  rw [hm] at hmalloc
  dsimp only
  split
  · exact ⟨by rintro u ⟨⟩; exact hmalloc.free (.refl _), by rintro cf u ⟨⟩⟩
  refine ⟨by rintro u ⟨⟩, ?_⟩
  rintro cf u ⟨⟩
  obtain ⟨lost, hall, hlost⟩ := adds_usbParseConfiguration (usbGetDescriptor after
    answer.second (UsbConfigDescriptor.zero.fill (usbParseDescriptor (usbGetDescriptor after
      answer.first 8).2 0 ['b', 'b', 'w']).1).wTotalLength.toNat).2 grant hmalloc.bounded
  exact ⟨lost, (hmalloc.trans hall).free (.refl _), hlost⟩

theorem adds_fetchConfigurations (answers : List Answer)
    (h : ∀ b, s.live b = true → b < s.calls) :
    ∃ lost, Adds s (fetchConfigurations after grant answers s).2.2
        ((fetchConfigurations after grant answers s).2.1.flatMap UsbConfigDescriptor.owned ++
          lost) ∧
      (lost = [] ↔ ∀ cf ∈ (fetchConfigurations after grant answers s).2.1,
        ∀ i ∈ elements cf.interface, ¬ i.Lost) ∧
      (∀ cf ∈ (fetchConfigurations after grant answers s).2.1,
        cf.interface = none → cf.extra = none) ∧
      ((fetchConfigurations after grant answers s).1 = true →
        (fetchConfigurations after grant answers s).2.1.length = answers.length) := by
  induction answers generalizing s with
  | nil => exact ⟨[], .refl h, by simp [fetchConfigurations], by simp [fetchConfigurations],
      fun _ => rfl⟩
  | cons answer answers ih =>
    obtain ⟨hnone, hsome⟩ := adds_fetchConfiguration after grant h answer
    rw [fetchConfigurations]
    rcases hr : fetchConfiguration after grant answer s with ⟨_ | cf, t⟩
    · exact ⟨[], hnone t hr, by simp, by simp, fun hok => nomatch hok⟩
    obtain ⟨lost, hone, hlost, hextra⟩ := hsome cf t hr
    obtain ⟨lost', hrest, hlost', hextra', hlength⟩ := ih hone.bounded
    refine ⟨lost ++ lost', (hone.trans hrest).perm ?_, ?_, ?_, fun hok => ?_⟩
    · simp only [List.flatMap_cons, ← Multiset.coe_eq_coe, ← Multiset.coe_add]
      abel
    · rw [List.append_eq_nil_iff, hlost, hlost', List.forall_mem_cons]
    · exact List.forall_mem_cons.mpr ⟨hextra, hextra'⟩
    · rw [List.length_cons, List.length_cons, hlength hok]

/-- The configurations that are parsed, also when the array is given up afterwards. -/
def parsedConfigurations (after : ℤ → Byte) (grant : ℕ → Bool) (dev : UsbDevice)
    (answer : ℕ → Answer) (s : Store) : List UsbConfigDescriptor :=
  if usbMaxconfig < dev.bNumConfigurations.toNat ∨ dev.bNumConfigurations.toNat < 1 then []
  else
    match s.malloc grant with
    | (none, _) => []
    | (some _, s) =>
      (fetchConfigurations after grant ((List.range dev.bNumConfigurations.toNat).map answer) s).2.1

/-- What is added can be freed. Everything is freed if nothing else was added. -/
theorem Adds.freeAll (l l' : List ℕ) (h : Adds s s' (l ++ l')) :
    ∃ live', Heap.freeAll s'.live (l.map .start) = some live' ∧
      ((∀ b, live' b = s.live b) ↔ l' = []) := by
  obtain ⟨hl, -, hdisj⟩ := List.nodup_append.mp h.nodup
  have hblocks : (l.map Heap.Pointer.start).map Heap.Pointer.block = l := by
    simp [Function.comp_def, Heap.Pointer.start]
  refine ⟨Heap.remaining s'.live (l.map .start), Heap.freeAll_eq_some_iff.mpr ⟨?_, ?_, rfl⟩, ?_⟩
  · intro p hp
    obtain ⟨b, hb, rfl⟩ := List.mem_map.mp hp
    exact ⟨rfl, (h.live b).mpr (Or.inr (List.mem_append_left l' hb))⟩
  · rwa [hblocks]
  -- a block of `l` was not live before, and the blocks of `l'` still are
  have hremaining : ∀ b, Heap.remaining s'.live (l.map .start) b = true ↔
      s.live b = true ∨ b ∈ l' := by
    intro b
    rw [Heap.remaining, Bool.and_eq_true, decide_eq_true_eq, hblocks, h.live, List.mem_append]
    constructor
    · rintro ⟨hold | hmem | hmem, hnot⟩
      · exact Or.inl hold
      · exact absurd hmem hnot
      · exact Or.inr hmem
    · rintro (hold | hmem)
      · refine ⟨Or.inl hold, fun hmem => ?_⟩
        have := h.old b hold
        have := (h.fresh b (List.mem_append_left l' hmem)).1
        omega
      · exact ⟨Or.inr (Or.inr hmem), fun hmem' => hdisj b hmem' b hmem rfl⟩
  constructor
  · intro heq
    refine List.eq_nil_iff_forall_not_mem.mpr fun b hb => ?_
    have hlive := (hremaining b).mpr (Or.inr hb)
    rw [heq] at hlive
    have := h.old b hlive
    have := (h.fresh b (List.mem_append_right l hb)).1
    omega
  · rintro rfl b
    rw [Bool.eq_iff_iff, hremaining, or_iff_left (List.not_mem_nil)]

/-- A configuration without an array of interfaces owns nothing. -/
theorem UsbConfigDescriptor.owned_eq_nil_iff {cf : UsbConfigDescriptor}
    (h : cf.interface = none → cf.extra = none) : cf.owned = [] ↔ cf.interface = none := by
  constructor
  · intro hnil
    rcases hi : cf.interface with _ | ⟨b, interfaces⟩
    · rfl
    · simp [UsbConfigDescriptor.owned, UsbConfigDescriptor.freed, hi, block] at hnil
  · intro hnone
    simp [UsbConfigDescriptor.owned, UsbConfigDescriptor.freed, hnone, h hnone, elements, block]

/-- **`usb_destroy_configuration` frees what was parsed**, whatever the device answers and whichever
calls of `malloc` and `realloc` fail: every pointer it frees is the start of a live block. All the
blocks that `usb_fetch_and_parse_descriptors` has left are freed if and only if no configuration has
extra descriptors of its own and none has lost its settings, or, when the array was given up, no
configuration before had got as far as its interfaces. -/
theorem destroy_frees_all_iff (after : ℤ → Byte) (grant : ℕ → Bool) (dev : UsbDevice)
    (answer : ℕ → Answer) (s : Store) (hold : ∀ b, s.live b = true → b < s.calls)
    (hnew : dev.config = none) :
    ∃ live', usbDestroyConfiguration (usbFetchAndParseDescriptors after grant dev answer s).1
        (usbFetchAndParseDescriptors after grant dev answer s).2.live = some live' ∧
      ((∀ b, live' b = s.live b) ↔
        ∀ cf ∈ parsedConfigurations after grant dev answer s,
          ((usbFetchAndParseDescriptors after grant dev answer s).1.config = none →
            cf.interface = none) ∧
          ((usbFetchAndParseDescriptors after grant dev answer s).1.config ≠ none →
            cf.Released)) := by
  have hfreed : ∀ dev : UsbDevice, dev.config = none → dev.freed = [] := fun dev h => by
    simp [UsbDevice.freed, h, elements, block]
  rw [usbFetchAndParseDescriptors, parsedConfigurations]
  split
  next hmany =>
    rw [if_pos (Or.inl hmany), usbDestroyConfiguration, hfreed dev hnew]
    exact ⟨_, rfl, by simp⟩
  split
  next hfew =>
    rw [if_pos (Or.inr hfew), usbDestroyConfiguration, hfreed dev hnew]
    exact ⟨_, rfl, by simp⟩
  next hmany hfew =>
  rw [if_neg (not_or.mpr ⟨hmany, hfew⟩)]
  have hmalloc := adds_malloc grant hold
  rcases hm : s.malloc grant with ⟨_ | b, t⟩
  · rw [hm] at hmalloc
    dsimp only
    obtain ⟨live', hfree, hall⟩ := Adds.freeAll [] [] hmalloc
    rw [usbDestroyConfiguration, hfreed _ rfl]
    exact ⟨live', hfree, iff_of_true (hall.mpr rfl) (by simp)⟩
  rw [hm] at hmalloc
  obtain ⟨lost, hadds, hlost, hextra, hlength⟩ := adds_fetchConfigurations after grant
    ((List.range dev.bNumConfigurations.toNat).map answer) hmalloc.bounded
  have hall := hmalloc.trans hadds
  dsimp only
  rcases hr : fetchConfigurations after grant ((List.range dev.bNumConfigurations.toNat).map answer)
    t with ⟨_ | _, configs, u⟩
  · -- the array is freed, and the configurations are dropped
    rw [hr] at hall hlost hextra
    obtain ⟨live', hfree, hnil⟩ := Adds.freeAll [] _ (hall.free (.refl _))
    rw [usbDestroyConfiguration, hfreed _ rfl]
    refine ⟨live', hfree, hnil.trans ?_⟩
    rw [List.append_eq_nil_iff, List.flatMap_eq_nil_iff, hlost]
    simp only [ne_eq, not_true_eq_false, false_implies, and_true, true_implies]
    constructor
    · rintro ⟨howned, -⟩ cf hcf
      exact (UsbConfigDescriptor.owned_eq_nil_iff (hextra cf hcf)).mp (howned cf hcf)
    · intro hnone
      refine ⟨fun cf hcf => ?_, fun cf hcf => ?_⟩
      · exact (UsbConfigDescriptor.owned_eq_nil_iff (hextra cf hcf)).mpr (hnone cf hcf)
      · rw [hnone cf hcf]
        simp [elements]
  · rw [hr] at hall hlost hlength
    have hdev : (UsbDevice.mk dev.bNumConfigurations (some (b, configs))).freed =
        configs.flatMap UsbConfigDescriptor.freed ++ [b] := by
      have hcount : configs.length = dev.bNumConfigurations.toNat := by simpa using hlength rfl
      simp [UsbDevice.freed, elements, block, ← hcount]
    have howned : ∀ cfs : List UsbConfigDescriptor, (cfs.flatMap UsbConfigDescriptor.owned).Perm
        (cfs.flatMap UsbConfigDescriptor.freed ++ cfs.flatMap fun cf => block cf.extra) := by
      intro cfs
      induction cfs with
      | nil => exact .refl _
      | cons cf cfs ih =>
        rw [← Multiset.coe_eq_coe] at ih ⊢
        simp only [List.flatMap_cons, UsbConfigDescriptor.owned, ← Multiset.coe_add] at ih ⊢
        rw [ih]
        abel
    obtain ⟨live', hfree, hnil⟩ := Adds.freeAll
      (UsbDevice.mk dev.bNumConfigurations (some (b, configs))).freed
      ((configs.flatMap fun cf => block cf.extra) ++ lost) (hall.perm (by
        rw [hdev]
        have hperm := howned configs
        rw [← Multiset.coe_eq_coe] at hperm ⊢
        simp only [← Multiset.coe_add, Option.toList_some] at hperm ⊢
        rw [hperm]
        abel))
    refine ⟨live', hfree, hnil.trans ?_⟩
    rw [List.append_eq_nil_iff, List.flatMap_eq_nil_iff, hlost, ← forall₂_and]
    refine forall₂_congr fun cf _ => ?_
    rw [UsbConfigDescriptor.Released]
    simp [block]

/-- A configuration with an interface association in front of its only interface. -/
def associated : List Byte :=
  [9, 2, 26, 0, 1, 1, 0, 0x80, 50, 8, 11, 0, 1, 3, 1, 1, 0, 9, 4, 0, 0, 0, 3, 1, 1, 0]

/-- The interface association is never freed. -/
theorem destroy_frees_all_iff_associated :
    ∃ live', usbDestroyConfiguration
        (usbFetchAndParseDescriptors (fun _ => 0) (fun _ => true) ⟨1, none⟩
          (fun _ => ⟨some associated, some associated⟩) ⟨0, fun _ => false, 0⟩).1
        (usbFetchAndParseDescriptors (fun _ => 0) (fun _ => true) ⟨1, none⟩
          (fun _ => ⟨some associated, some associated⟩) ⟨0, fun _ => false, 0⟩).2.live =
          some live' ∧
      ¬ ∀ b, live' b = false := by
  obtain ⟨live', hfree, hiff⟩ := destroy_frees_all_iff (fun _ => 0) (fun _ => true) ⟨1, none⟩
    (fun _ => ⟨some associated, some associated⟩) ⟨0, fun _ => false, 0⟩ (by simp) rfl
  refine ⟨live', hfree, fun hall => ?_⟩
  have hextra : (parsedConfigurations (fun _ => 0) (fun _ => true) ⟨1, none⟩
      (fun _ => ⟨some associated, some associated⟩) ⟨0, fun _ => false, 0⟩).map
        (fun cf => cf.extra.isSome) = [true] := by decide +kernel
  obtain ⟨cf, hcf, hsome⟩ := List.mem_map.mp (hextra ▸ List.mem_singleton_self true)
  have hreleased := (hiff.mp hall cf hcf).2 (by decide +kernel)
  rw [hreleased.1] at hsome
  exact Bool.false_ne_true hsome

end Usbip.Libusb0
