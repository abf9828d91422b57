import Mathlib.Order.Interval.Finset.Basic
import Mathlib.Data.Int.Interval
import Usbip.Lib.Loop
import Usbip.Lib.Codec

/-!
# The endpoints of the gadget

The gadget shows a remote device as if it were here. It has read the configuration of the device, a
`struct usb_config_descriptor` and the descriptors after it, and `ep_config` goes through these to
find the endpoints of an interface. Each descriptor begins with its length, and that is a byte of
the remote device, read as a `char`.

* `pass`: one pass of the loop. A descriptor is a position in the memory, so that there is something
  at every position, in the configuration or not;
* `way`: where the length bytes lead, without what is done with the descriptors.

`safe_iff` says for which configurations the loop ends and reads no descriptor outside of them. Most
length bytes lead on. A zero is the same descriptor again, and one with the high bit is a descriptor
further back, or before the first one.
-/

namespace Usbip.Gadget

open StateTransition Relation

/-! ### Descriptors -/

/-- `USB_DT_INTERFACE` -/
def usbDtInterface : Byte := 4

/-- `USB_DT_ENDPOINT` -/
def usbDtEndpoint : Byte := 5

/-- `sizeof(struct usb_config_descriptor)` -/
def configSize : ℤ := 9

/-- The length of the configuration, `__le16_to_cpu(config->wTotalLength)`. -/
def wTotalLength (mem : ℤ → Byte) : ℤ := (mem 3 ++ mem 2 : BitVec 16).toNat

def bDescriptorType (mem : ℤ → Byte) (i : ℤ) : Byte := mem (i + 1)

def bInterfaceNumber (mem : ℤ → Byte) (i : ℤ) : Byte := mem (i + 2)

def bAlternateSetting (mem : ℤ → Byte) (i : ℤ) : Byte := mem (i + 3)

def bEndpointAddress (mem : ℤ → Byte) (i : ℤ) : Byte := mem (i + 2)

/-- `i + desc[i]`, where `desc` points to `char`. -/
def next (mem : ℤ → Byte) (i : ℤ) : ℤ := i + (mem i).toInt

/-- `ep_index` -/
def epIndex (mem : ℤ → Byte) (i : ℤ) : ℕ :=
  (bEndpointAddress mem i &&& 0x0f).toNat +
    if bEndpointAddress mem i &&& 0x80 = 0x80 then 16 else 0

/-! ### `ep_config` -/

/-- An `ep_t`, as far as it is configured. The descriptors are pointers into the configuration. -/
structure Ep where
  init : Bool
  interface : Option ℤ
  desc : Option ℤ

/-- `STATE_SEEK` and `STATE_CONFIG` -/
inductive EpState
  | seek
  | config

/-- The variables of `ep_config`, with the endpoints of the context, and with what was configured:
the descriptors of the endpoint and of its interface. -/
structure Walk where
  i : ℤ
  state : EpState
  current : Option ℤ
  ret : ℤ
  returned : Bool
  eps : ℕ → Ep
  configured : List (ℤ × Option ℤ)

namespace Walk

/-- The variables before the first pass. -/
def start (eps : ℕ → Ep) : Walk := ⟨configSize, .seek, none, -1, false, eps, []⟩

/-- An endpoint of the current interface. -/
def configure (mem : ℤ → Byte) (w : Walk) : Walk :=
  { w with
    eps := Function.update w.eps (epIndex mem w.i) ⟨true, w.current, some w.i⟩
    configured := w.configured ++ [(w.i, w.current)] }

end Walk

/-- The interface that was asked for, in the alternate setting that was asked for if one was. -/
def Asked (mem : ℤ → Byte) (interface altsetting : ℤ) (i : ℤ) : Prop :=
  bDescriptorType mem i = usbDtInterface ∧ ((bInterfaceNumber mem i).toNat : ℤ) = interface ∧
    (altsetting < 0 ∨ ((bAlternateSetting mem i).toNat : ℤ) = altsetting)

instance (mem : ℤ → Byte) (interface altsetting i : ℤ) :
    Decidable (Asked mem interface altsetting i) := inferInstanceAs (Decidable (_ ∧ _ ∧ _))

namespace Walk

/-- What `STATE_SEEK` does. -/
def seek (mem : ℤ → Byte) (interface altsetting : ℤ) (w : Walk) : Walk :=
  if Asked mem interface altsetting w.i then
    { w with ret := 0, current := some w.i, state := .config }
  else w

/-- To the next descriptor. -/
def advance (mem : ℤ → Byte) (w : Walk) : Walk := { w with i := next mem w.i }

end Walk

/-- One pass of the loop, or none at the end. -/
def pass (mem : ℤ → Byte) (interface altsetting : ℤ) (w : Walk) : Option Walk :=
  if w.returned ∨ wTotalLength mem ≤ w.i then none
  else
    match w.state with
    | .config =>
      if bDescriptorType mem w.i = usbDtEndpoint then some ((w.configure mem).advance mem)
      else if bDescriptorType mem w.i ≠ usbDtInterface then some (w.advance mem)
      else if 0 ≤ altsetting then some { w with ret := 0, returned := true }
      else some ((w.seek mem interface altsetting).advance mem)
    | .seek => some ((w.seek mem interface altsetting).advance mem)

/-- A descriptor is read in the configuration, behind the first one. -/
def InBounds (mem : ℤ → Byte) (interface altsetting : ℤ) (w : Walk) : Prop :=
  pass mem interface altsetting w ≠ none → configSize ≤ w.i ∧ w.i < wTotalLength mem

/-- The loop ends, and reads no descriptor outside of the configuration. -/
def SafeWalk (mem : ℤ → Byte) (interface altsetting : ℤ) (eps : ℕ → Ep) : Prop :=
  Loop.Safe (pass mem interface altsetting) (InBounds mem interface altsetting) (.start eps)

/-! ### Where the length bytes lead -/

section Way

variable {mem : ℤ → Byte} {last : ℤ → Prop} [DecidablePred last] {i j : ℤ}

/-- From a descriptor to the next one. Nothing comes after the end or after one of `last`. -/
def way (mem : ℤ → Byte) (last : ℤ → Prop) [DecidablePred last] (i : ℤ) : Option ℤ :=
  if i < wTotalLength mem ∧ ¬ last i then some (next mem i) else none

/-- The length bytes lead from one descriptor to the other. -/
def Leads (mem : ℤ → Byte) (last : ℤ → Prop) [DecidablePred last] : ℤ → ℤ → Prop :=
  Reaches (way mem last)

/-- The length bytes lead on. A zero, or one with the high bit, does not lead out of the
configuration, or to where the length bytes lead back to it. -/
def LeadsOn (mem : ℤ → Byte) (last : ℤ → Prop) [DecidablePred last] (i : ℤ) : Prop :=
  ∀ j, Leads mem last i j → j < wTotalLength mem → ¬ last j → (mem j).toInt ≤ 0 →
    configSize ≤ next mem j ∧ ¬ Leads mem last (next mem j) j

theorem way_eq_some_iff : way mem last i = some j ↔
    i < wTotalLength mem ∧ ¬ last i ∧ next mem i = j := by
  rw [way]
  split
  next h => exact ⟨fun heq => ⟨h.1, h.2, Option.some.inj heq⟩, fun heq => congrArg some heq.2.2⟩
  next h => exact ⟨nofun, fun heq => absurd ⟨heq.1, heq.2.1⟩ h⟩

/-- A way back has a step back. -/
theorem exists_back (h : Leads mem last i j) (hlt : j < i) : ∃ k, Leads mem last i k ∧
    k < wTotalLength mem ∧ ¬ last k ∧ (mem k).toInt ≤ 0 ∧ Leads mem last (next mem k) j := by
  induction h using ReflTransGen.head_induction_on with
  | refl => exact absurd hlt (lt_irrefl j)
  | @head i i' hstep hrest ih =>
    obtain ⟨hi, hlast, rfl⟩ := way_eq_some_iff.mp hstep
    by_cases hle : (mem i).toInt ≤ 0
    · exact ⟨i, .refl, hi, hlast, hle, hrest⟩
    · obtain ⟨k, hk, hkt⟩ := ih (by rw [next]; omega)
      exact ⟨k, .head hstep hk, hkt⟩

/-- A way is finite and inside of the configuration if and only if the length bytes lead on. -/
theorem safe_way_iff (hi : configSize ≤ i) :
    Loop.Safe (way mem last) (fun j => j < wTotalLength mem → configSize ≤ j) i ↔
      LeadsOn mem last i := by
  constructor
  · rintro ⟨hends, hok⟩ j hj hlt hlast hle
    have hstep : way mem last j = some (next mem j) := way_eq_some_iff.mpr ⟨hlt, hlast, rfl⟩
    refine ⟨hok _ (hj.tail hstep) (by rw [next]; omega), fun hback => ?_⟩
    exact Loop.not_ends_of_cycle hstep hback ((Loop.ends_congr hj).mp hends)
  · intro h
    have hbound : ∀ j, Leads mem last i j →
        configSize ≤ j ∧ j ≤ max i (wTotalLength mem + 127) := by
      intro j hj
      induction hj with
      | refl => exact ⟨hi, le_max_left ..⟩
      | @tail j k hj hstep ih =>
        obtain ⟨hlt, hlast, rfl⟩ := way_eq_some_iff.mp hstep
        have hmax := BitVec.toInt_lt (x := mem j)
        refine ⟨?_, le_max_of_le_right (by rw [next]; omega)⟩
        by_cases hle : (mem j).toInt ≤ 0
        · exact (h j hj hlt hlast hle).1
        · rw [next]
          omega
    refine ⟨Loop.ends_of_acyclic ((Set.finite_Icc _ _).subset fun j hj => hbound j hj) ?_,
      fun j hj _ => (hbound j hj).1⟩
    intro j j' hj hstep hback
    obtain ⟨hlt, hlast, rfl⟩ := way_eq_some_iff.mp hstep
    by_cases hle : (mem j).toInt ≤ 0
    · exact (h j hj hlt hlast hle).2 hback
    · obtain ⟨k, hk, hklt, hklast, hkle, hkj⟩ := exists_back hback (by rw [next]; omega)
      have hjk : Leads mem last j k := .head hstep hk
      exact (h k (hj.trans hjk) hklt hklast hkle).2 (hkj.trans hjk)

end Way

/-! ### The walk -/

section Pass

variable {mem : ℤ → Byte} {interface altsetting : ℤ} {w w' : Walk} {i j : ℤ}

theorem pass_of_le (h : wTotalLength mem ≤ w.i) : pass mem interface altsetting w = none :=
  if_pos (.inr h)

theorem pass_of_returned (h : w.returned = true) : pass mem interface altsetting w = none :=
  if_pos (.inl h)

variable (interface altsetting) in
/-- A pass in `STATE_SEEK`. -/
theorem pass_eq_seek (hreturned : w.returned = false) (hi : w.i < wTotalLength mem)
    (hstate : w.state = .seek) :
    pass mem interface altsetting w = some ((w.seek mem interface altsetting).advance mem) := by
  rw [pass, if_neg (by simp [hreturned, hi]), hstate]

variable (interface altsetting) in
/-- A pass in `STATE_CONFIG`. -/
theorem pass_eq_config (hreturned : w.returned = false) (hi : w.i < wTotalLength mem)
    (hstate : w.state = .config) :
    pass mem interface altsetting w =
      if bDescriptorType mem w.i = usbDtEndpoint then some ((w.configure mem).advance mem)
      else if bDescriptorType mem w.i ≠ usbDtInterface then some (w.advance mem)
      else if 0 ≤ altsetting then some { w with ret := 0, returned := true }
      else some ((w.seek mem interface altsetting).advance mem) := by
  rw [pass, if_neg (by simp [hreturned, hi]), hstate]

theorem safe_of_pass (h : pass mem interface altsetting w = none) :
    Loop.Safe (pass mem interface altsetting) (InBounds mem interface altsetting) w :=
  Loop.safe_of_none h fun hpass => absurd h hpass

/-- The loop is at the descriptor `i`, in one of the states of `state`. -/
structure At (state : EpState → Prop) (w : Walk) (i : ℤ) : Prop where
  i : w.i = i
  state : state w.state
  returned : w.returned = false

/-- Before the interface that was asked for. -/
theorem pass_seek (h : At (· = .seek) w i) (hi : i < wTotalLength mem)
    (hasked : ¬ Asked mem interface altsetting i) :
    pass mem interface altsetting w = some (w.advance mem) := by
  obtain ⟨rfl, hstate, hreturned⟩ := h
  rw [pass_eq_seek _ _ hreturned hi hstate, Walk.seek, if_neg hasked]

/-- At the interface that was asked for. -/
theorem pass_asked (h : At (· = .seek) w i) (hi : i < wTotalLength mem)
    (hasked : Asked mem interface altsetting i) :
    ∃ w', pass mem interface altsetting w = some w' ∧ At (· = .config) w' (next mem i) := by
  obtain ⟨rfl, hstate, hreturned⟩ := h
  rw [pass_eq_seek _ _ hreturned hi hstate, Walk.seek, if_pos hasked]
  exact ⟨_, rfl, rfl, rfl, hreturned⟩

/-- After the interface that was asked for, up to the next one. -/
theorem pass_config (h : At (· = .config) w i) (hi : i < wTotalLength mem)
    (hintf : bDescriptorType mem i ≠ usbDtInterface) :
    ∃ w', pass mem interface altsetting w = some w' ∧ At (· = .config) w' (next mem i) := by
  obtain ⟨rfl, hstate, hreturned⟩ := h
  rw [pass_eq_config _ _ hreturned hi hstate]
  split
  · exact ⟨_, rfl, rfl, hstate, hreturned⟩
  · exact ⟨_, rfl, rfl, hstate, hreturned⟩

variable (interface) in
/-- At the next interface. -/
theorem pass_interface (h : At (· = .config) w i) (hi : i < wTotalLength mem)
    (hintf : bDescriptorType mem i = usbDtInterface) (halt : 0 ≤ altsetting) :
    pass mem interface altsetting w = some { w with ret := 0, returned := true } := by
  obtain ⟨rfl, hstate, hreturned⟩ := h
  rw [pass_eq_config _ _ hreturned hi hstate, if_neg (by rw [hintf]; decide),
    if_neg (by simpa using hintf), if_pos halt]

variable (interface) in
/-- No interface is the last one if every interface is to be configured. -/
theorem pass_all (h : At (fun _ => True) w i) (hi : i < wTotalLength mem) (halt : altsetting < 0) :
    ∃ w', pass mem interface altsetting w = some w' ∧ At (fun _ => True) w' (next mem i) := by
  obtain ⟨rfl, -, hreturned⟩ := h
  have hseek : ∃ w', some ((w.seek mem interface altsetting).advance mem) = some w' ∧
      At (fun _ => True) w' (next mem w.i) := by
    rw [Walk.seek]
    split
    · exact ⟨_, rfl, rfl, trivial, hreturned⟩
    · exact ⟨_, rfl, rfl, trivial, hreturned⟩
  cases hstate : w.state with
  | seek => rwa [pass_eq_seek _ _ hreturned hi hstate]
  | config =>
    rw [pass_eq_config _ _ hreturned hi hstate, if_neg (not_le.mpr halt)]
    split
    · exact ⟨_, rfl, rfl, trivial, hreturned⟩
    · split
      · exact ⟨_, rfl, rfl, trivial, hreturned⟩
      · exact hseek

/-- As long as there is another pass, the bounds are those of the way. -/
theorem inBounds_iff {state : EpState → Prop} (h : At state w i)
    (hpass : i < wTotalLength mem → pass mem interface altsetting w ≠ none) :
    InBounds mem interface altsetting w ↔ (i < wTotalLength mem → configSize ≤ i) := by
  obtain ⟨rfl, -, -⟩ := h
  refine ⟨fun hin hlt => (hin (hpass hlt)).1, fun hin hne => ?_⟩
  have hlt : w.i < wTotalLength mem := not_le.mp fun hle => hne (pass_of_le hle)
  exact ⟨hin hlt, hlt⟩

/-- All interfaces: the walk is a way to the end. -/
theorem safe_all_iff (halt : altsetting < 0) (h : At (fun _ => True) w i) (hi : configSize ≤ i) :
    Loop.Safe (pass mem interface altsetting) (InBounds mem interface altsetting) w ↔
      LeadsOn mem (fun _ => False) i := by
  rw [← safe_way_iff hi]
  refine (Loop.safe_phase_iff (R := At fun _ => True) ?_ ?_ h).trans
    (and_iff_left fun j t _ hend _ ht => safe_of_pass (pass_of_le ?_))
  · intro w i j hw hstep
    obtain ⟨hlt, -, rfl⟩ := way_eq_some_iff.mp hstep
    exact pass_all interface hw hlt halt
  · intro w i hw
    refine inBounds_iff hw fun hlt hnone => ?_
    obtain ⟨w', hpass, -⟩ := pass_all interface hw hlt halt
    exact absurd (hnone.symm.trans hpass) nofun
  · rw [ht.i]
    by_contra hlt
    exact absurd (hend.symm.trans (way_eq_some_iff.mpr ⟨not_le.mp hlt, id, rfl⟩)) nofun

theorem inBounds_config_iff (halt : 0 ≤ altsetting) (h : At (· = .config) w i) :
    InBounds mem interface altsetting w ↔ (i < wTotalLength mem → configSize ≤ i) := by
  refine inBounds_iff h fun hlt hnone => ?_
  by_cases hintf : bDescriptorType mem i = usbDtInterface
  · exact absurd (hnone.symm.trans (pass_interface interface h hlt hintf halt)) nofun
  · obtain ⟨w', hpass, -⟩ := pass_config h hlt hintf
    exact absurd (hnone.symm.trans hpass) nofun

/-- One interface, after its descriptor: the walk is a way to the next one. -/
theorem safe_config_iff (halt : 0 ≤ altsetting) (h : At (· = .config) w i)
    (hi : configSize ≤ i) :
    Loop.Safe (pass mem interface altsetting) (InBounds mem interface altsetting) w ↔
      LeadsOn mem (fun j => bDescriptorType mem j = usbDtInterface) i := by
  rw [← safe_way_iff hi]
  refine (Loop.safe_phase_iff (R := At (· = .config)) ?_ ?_ h).trans
    (and_iff_left_of_imp fun hway j t hj hend _ ht => ?_)
  · intro w i j hw hstep
    obtain ⟨hlt, hintf, rfl⟩ := way_eq_some_iff.mp hstep
    exact pass_config hw hlt hintf
  · exact fun w i hw => inBounds_config_iff halt hw
  · by_cases hlt : j < wTotalLength mem
    · have hintf : bDescriptorType mem j = usbDtInterface := by
        by_contra hintf
        exact absurd (hend.symm.trans (way_eq_some_iff.mpr ⟨hlt, hintf, rfl⟩)) nofun
      have hreturn := pass_interface interface ht hlt hintf halt
      refine (Loop.safe_head_iff hreturn).mpr ⟨fun _ => ?_, safe_of_pass (pass_of_returned rfl)⟩
      rw [ht.i]
      exact ⟨hway.2 j hj hlt, hlt⟩
    · exact safe_of_pass (pass_of_le (by rw [ht.i]; exact not_lt.mp hlt))

/-- One interface: the walk is a way to its descriptor, and then a way to the next one. -/
theorem safe_seek_iff (halt : 0 ≤ altsetting) (h : At (· = .seek) w i) (hi : configSize ≤ i) :
    Loop.Safe (pass mem interface altsetting) (InBounds mem interface altsetting) w ↔
      LeadsOn mem (Asked mem interface altsetting) i ∧
      ∀ j, Leads mem (Asked mem interface altsetting) i j → j < wTotalLength mem →
        Asked mem interface altsetting j → configSize ≤ next mem j ∧
          LeadsOn mem (fun k => bDescriptorType mem k = usbDtInterface) (next mem j) := by
  have hstep : ∀ w i j, At (· = .seek) w i → way mem (Asked mem interface altsetting) i = some j →
      ∃ t, pass mem interface altsetting w = some t ∧ At (· = .seek) t j := by
    intro w i j hw hstep
    obtain ⟨hlt, hasked, rfl⟩ := way_eq_some_iff.mp hstep
    exact ⟨_, pass_seek hw hlt hasked, congrArg (next mem) hw.i, hw.state, hw.returned⟩
  have hok : ∀ w i, At (· = .seek) w i → (InBounds mem interface altsetting w ↔
      (i < wTotalLength mem → configSize ≤ i)) := by
    intro w i hw
    refine inBounds_iff hw fun hlt hnone => ?_
    by_cases hasked : Asked mem interface altsetting i
    · obtain ⟨w', hpass, -⟩ := pass_asked hw hlt hasked
      exact absurd (hnone.symm.trans hpass) nofun
    · exact absurd (hnone.symm.trans (pass_seek hw hlt hasked)) nofun
  rw [← safe_way_iff hi]
  refine (Loop.safe_phase_iff hstep hok h).trans (and_congr_right fun hway =>
    ⟨fun hrest j hj hlt hasked => ?_, fun hrest j t hj hend _ ht => ?_⟩)
  · obtain ⟨t, hreach, ht⟩ := Loop.reaches_of_phase hstep h hj
    have hend : way mem (Asked mem interface altsetting) j = none :=
      if_neg fun hmore => hmore.2 hasked
    obtain ⟨w', hpass, hw'⟩ := pass_asked ht hlt hasked
    have hsafe := ((Loop.safe_head_iff hpass).mp (hrest j t hj hend hreach ht)).2
    have hnext : configSize ≤ next mem j := by
      have hj' := hway.2 j hj hlt
      by_contra hback
      exact hback ((inBounds_config_iff halt hw').mp (hsafe.2 w' .refl) (by omega))
    exact ⟨hnext, (safe_config_iff halt hw' hnext).mp hsafe⟩
  · by_cases hlt : j < wTotalLength mem
    · have hasked : Asked mem interface altsetting j := by
        by_contra hasked
        exact absurd (hend.symm.trans (way_eq_some_iff.mpr ⟨hlt, hasked, rfl⟩)) nofun
      obtain ⟨w', hpass, hw'⟩ := pass_asked ht hlt hasked
      obtain ⟨hnext, hon⟩ := hrest j hj hlt hasked
      exact (Loop.safe_head_iff hpass).mpr
        ⟨(hok t j ht).mpr (hway.2 j hj), (safe_config_iff halt hw' hnext).mpr hon⟩
    · exact safe_of_pass (pass_of_le (by rw [ht.i]; exact not_lt.mp hlt))

end Pass

/-- The length bytes lead from the first descriptor to the end, or to the interface that was asked
for and from there to the next interface. -/
def LengthsLeadOn (mem : ℤ → Byte) (interface altsetting : ℤ) : Prop :=
  if altsetting < 0 then LeadsOn mem (fun _ => False) configSize
  else
    LeadsOn mem (Asked mem interface altsetting) configSize ∧
    ∀ i, Leads mem (Asked mem interface altsetting) configSize i → i < wTotalLength mem →
      Asked mem interface altsetting i → configSize ≤ next mem i ∧
        LeadsOn mem (fun j => bDescriptorType mem j = usbDtInterface) (next mem i)

/-- **When `ep_config` is safe.** For any bytes, the walk ends and stays inside of the configuration
if and only if no length byte of zero or with the high bit leads out of the configuration or back to
itself. -/
theorem safeWalk_iff (mem : ℤ → Byte) (interface altsetting : ℤ) (eps : ℕ → Ep) :
    SafeWalk mem interface altsetting eps ↔ LengthsLeadOn mem interface altsetting := by
  rw [LengthsLeadOn]
  split
  next halt => exact safe_all_iff halt ⟨rfl, trivial, rfl⟩ le_rfl
  next halt => exact safe_seek_iff (not_lt.mp halt) ⟨rfl, rfl, rfl⟩ le_rfl

/-- A configuration of 11 bytes, with a descriptor that has a length byte of zero. -/
private def noLength (i : ℤ) : Byte := if i = 2 then 11 else 0

theorem not_safeWalk_noLength : ¬ SafeWalk noLength 0 (-1) fun _ => ⟨false, none, none⟩ := by
  intro h
  have hpass : pass noLength 0 (-1) (.start fun _ => ⟨false, none, none⟩) =
    some (.start fun _ => ⟨false, none, none⟩) := rfl
  exact Loop.not_ends_of_cycle hpass .refl h.1

end Usbip.Gadget
