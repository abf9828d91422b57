import Usbip.Libusb0.Descriptors

/-!
# How far the parser reads

`usb_parse_configuration` trusts most length bytes. An interface or endpoint descriptor, and what is
skipped behind it, may say that it is longer than what is left, and the parser goes there, copies
what it has skipped, and reads the header of what comes next before it looks at what is left. From
there it turns back: with nothing left no loop goes on.

`Within T s` says that nothing was read more than 255 bytes behind `T`, the end of the
configuration. It is kept by every function from a position at most 253 bytes behind `T`.
-/

namespace Usbip.Libusb0

open Records RecordRing

variable (mem : ℤ → Byte) (grant : ℕ → Bool) {s : Store} {T buffer size : ℤ}

/-- Nothing was read more than 255 bytes behind `T`. -/
def Within (T : ℤ) (s : Store) : Prop := s.reach ≤ T + 255

theorem Within.look (h : Within T s) (pos : ℤ) (n : ℕ) (hle : pos + n ≤ T + 255) :
    Within T (s.look pos n) := max_le h hle

theorem Within.malloc (h : Within T s) : Within T (s.malloc grant).2 := by
  rw [Store.malloc]
  split
  · exact h
  · exact h

theorem Within.realloc (h : Within T s) (old : Option ℕ) : Within T (s.realloc grant old).2 := by
  have hmalloc := h.malloc grant
  rcases hm : s.malloc grant with ⟨_ | b, t⟩ <;> rcases old with _ | o
  all_goals
    rw [hm] at hmalloc
    simpa [Store.realloc, hm, Within] using hmalloc

theorem Within.copyExtra (h : Within T s) (start : ℤ) (len : ℕ)
    (hle : start + len ≤ T + 255) : Within T (s.copyExtra grant mem start len).2 := by
  have hmalloc := h.malloc grant
  rw [Store.copyExtra]
  split
  · exact h
  rw [Store.copy]
  rcases hm : s.malloc grant with ⟨_ | b, t⟩
  · rw [hm] at hmalloc
    exact hmalloc
  · rw [hm] at hmalloc
    exact hmalloc.look _ _ hle

/-- Skipping stays within what is left, but for the last record. -/
theorem Within.skip (h : Within T s) (R : Rule) (pos size : ℤ) (hT : pos + size ≤ T) :
    Within T (s.skip R mem pos size).2 := by
  have hle : (s.skip R mem pos size).2.reach ≤ max s.reach (pos + size) :=
    (Rule.reach_skip R mem pos size s.reach).2
  exact hle.trans (max_le h (by omega))

/-- A record that ends the loop ends at most 253 bytes behind what is left. -/
theorem skip_ownRule {pos e : ℤ} (h : (s.skip ownRule mem pos size).1 = some e) :
    pos ≤ e ∧ e ≤ max pos (pos + size + 253) := by
  refine ⟨Rule.le_skip _ _ _ _ _ e h, Rule.skip_le (k := 253) ?_ _ _ _ e h⟩
  intro len size hlen hsize _
  omega

/-- In front of an interface it ends where something is left. -/
theorem skip_configRule {pos e : ℤ} (h : (s.skip configRule mem pos size).1 = some e) :
    pos ≤ e ∧ e ≤ max pos (pos + size) := by
  refine ⟨Rule.le_skip _ _ _ _ _ e h, ?_⟩
  have hle := Rule.skip_le (R := configRule) (k := 0) ?_ pos size s.reach e h
  · simpa using hle
  · intro len size _ _ hrefuse
    simp [configRule] at hrefuse
    omega

/-! ### The endpoints -/

/-- The fields of an endpoint are read as far as its descriptor is long. -/
theorem Within.read (h : Within T s) (endpoint : UsbEndpointDescriptor) (buffer : ℤ) (len : ℕ)
    (hT : buffer + len ≤ T) : Within T (endpoint.read mem buffer len s).2 := by
  rw [UsbEndpointDescriptor.read]
  split
  · exact h.look _ _ (by simp only [usbParseDescriptor]; omega)
  split
  · exact h.look _ _ (by simp only [usbParseDescriptor]; omega)
  · exact h

theorem within_usbParseEndpoint (h : Within T s) (endpoint : UsbEndpointDescriptor)
    (hT : buffer + size = T) (hbuffer : buffer ≤ T + 253) :
    Within T (usbParseEndpoint mem grant endpoint buffer size s).2.2 ∧
      ∀ retval, (usbParseEndpoint mem grant endpoint buffer size s).1 = some retval →
        buffer + retval ≤ T + 253 := by
  rw [usbParseEndpoint]
  have hlook := h.look buffer 2 (by omega)
  dsimp only
  generalize (header mem buffer).bLength.toNat = len
  split
  · exact ⟨hlook, by rintro retval ⟨⟩⟩
  next hfit =>
  split
  · exact ⟨hlook, by rintro retval ⟨⟩; simpa using hbuffer⟩
  have hread := hlook.read mem endpoint buffer len (by omega)
  have hskip := hread.skip mem ownRule (buffer + len) (size - len)
    (by omega)
  rcases hs : (endpoint.read mem buffer len (s.look buffer 2)).2.skip ownRule mem (buffer + len)
    (size - len) with ⟨_ | stop, t⟩
  · rw [hs] at hskip
    exact ⟨hskip, by rintro retval ⟨⟩⟩
  rw [hs] at hskip
  obtain ⟨hge, hle⟩ := skip_ownRule mem (e := stop) (congrArg Prod.fst hs)
  have hcopy := hskip.copyExtra mem grant (buffer + len)
    (stop - (buffer + len)).toNat (by omega)
  dsimp only
  rcases hc : t.copyExtra grant mem (buffer + len) (stop - (buffer + len)).toNat with
    ⟨_ | _ | extra, u⟩
  all_goals
    rw [hc] at hcopy
    refine ⟨hcopy, ?_⟩
    rintro retval ⟨⟩
    push_cast
    omega

theorem within_parseEndpoints (n : ℕ) (h : Within T s) (hT : buffer + size = T)
    (hbuffer : buffer ≤ T + 253) :
    Within T (parseEndpoints mem grant n buffer size s).2.2 ∧
      ∀ r, (parseEndpoints mem grant n buffer size s).1 = some r →
        r.1 + r.2 = T ∧ r.1 ≤ T + 253 := by
  induction n generalizing buffer size s with
  | zero => exact ⟨h, by rintro r ⟨⟩; exact ⟨hT, hbuffer⟩⟩
  | succ n ih =>
    rw [parseEndpoints]
    have hlook := h.look buffer 2 (by omega)
    dsimp only
    split
    · exact ⟨hlook, by rintro r ⟨⟩⟩
    obtain ⟨hone, hle⟩ := within_usbParseEndpoint mem grant hlook .zero hT hbuffer
    rcases hr : usbParseEndpoint mem grant .zero buffer size (s.look buffer 2) with
      ⟨_ | retval, endpoint, t⟩
    · rw [hr] at hone
      exact ⟨hone, by rintro r ⟨⟩⟩
    · rw [hr] at hone hle
      exact ih hone (by omega) (hle retval rfl)

/-! ### The settings -/

/-- A pass goes on only with enough left for another setting. -/
def Pass.Next (T : ℤ) : Pass → Prop
  | .fail => True
  | .done _ => True
  | .again buffer size => buffer + size = T ∧ 9 ≤ size

theorem within_alternate (h : Within T s) (hT : buffer + size = T) :
    Within T (alternate mem buffer size s).2 ∧ (alternate mem buffer size s).1.Next T := by
  rw [alternate]
  split
  · exact ⟨h, trivial⟩
  next hsize =>
  have htype := h.look (buffer + 1) 1 (by push_cast; omega)
  split
  · exact ⟨htype, trivial⟩
  have halt := htype.look (buffer + 3) 1 (by push_cast; omega)
  dsimp only
  split
  · exact ⟨halt, trivial⟩
  · exact ⟨halt, hT, by omega⟩

theorem within_settingEndpoints (ifp : UsbInterfaceDescriptor) (h : Within T s)
    (hT : buffer + size = T) (hbuffer : buffer ≤ T + 253) :
    Within T (settingEndpoints mem grant ifp buffer size s).2.2 ∧
      (settingEndpoints mem grant ifp buffer size s).1.Next T := by
  rw [settingEndpoints]
  have hlook := h.look buffer 2 (by omega)
  dsimp only
  split
  · exact ⟨hlook, trivial⟩
  split
  · exact ⟨hlook, trivial⟩
  split
  · exact within_alternate mem hlook hT
  have hmalloc := hlook.malloc grant
  rcases hm : (s.look buffer 2).malloc grant with ⟨_ | b, t⟩
  · rw [hm] at hmalloc
    exact ⟨hmalloc, trivial⟩
  rw [hm] at hmalloc
  obtain ⟨hall, hend⟩ := within_parseEndpoints mem grant
    ifp.bNumEndpoints.toNat hmalloc hT hbuffer
  dsimp only
  rcases hr : parseEndpoints mem grant ifp.bNumEndpoints.toNat buffer size t with
    ⟨_ | ⟨buffer', size'⟩, endpoints, u⟩
  · rw [hr] at hall
    exact ⟨hall, trivial⟩
  · rw [hr] at hall hend
    exact within_alternate mem hall (hend _ rfl).1

theorem within_parseSetting (h : Within T s) (hT : buffer + size = T) (hsize : 9 ≤ size) :
    Within T (parseSetting mem grant buffer size s).2.2 ∧
      (parseSetting mem grant buffer size s).1.Next T := by
  rw [parseSetting]
  dsimp only
  have hlook := h.look buffer (usbParseDescriptor mem buffer
    ['b', 'b', 'b', 'b', 'b', 'b', 'b', 'b', 'b']).2 (by simp only [usbParseDescriptor]; omega)
  generalize UsbInterfaceDescriptor.zero.fill (usbParseDescriptor mem buffer
    ['b', 'b', 'b', 'b', 'b', 'b', 'b', 'b', 'b']).1 = ifp
  have hlen : ifp.bLength.toNat < 256 := ifp.bLength.isLt
  have hskip := hlook.skip mem ownRule (buffer + ifp.bLength.toNat)
    (size - ifp.bLength.toNat) (by omega)
  rcases hs : (s.look buffer (usbParseDescriptor mem buffer
    ['b', 'b', 'b', 'b', 'b', 'b', 'b', 'b', 'b']).2).skip ownRule mem
      (buffer + ifp.bLength.toNat) (size - ifp.bLength.toNat) with ⟨_ | stop, t⟩
  · rw [hs] at hskip
    exact ⟨hskip, trivial⟩
  rw [hs] at hskip
  obtain ⟨hge, hle⟩ := skip_ownRule mem (e := stop) (congrArg Prod.fst hs)
  have hcopy := hskip.copyExtra mem grant
    (buffer + ifp.bLength.toNat) (stop - (buffer + ifp.bLength.toNat)).toNat
    (by omega)
  dsimp only
  rcases hc : t.copyExtra grant mem (buffer + ifp.bLength.toNat)
    (stop - (buffer + ifp.bLength.toNat)).toNat with ⟨_ | _ | extra, u⟩
  · rw [hc] at hcopy
    exact ⟨hcopy, trivial⟩
  all_goals
    rw [hc] at hcopy
    exact within_settingEndpoints mem grant _ hcopy (by omega) (by omega)

theorem within_parseSettings (n : ℕ) {interface : UsbInterface} (h : Within T s)
    (hT : buffer + size = T) :
    Within T (parseSettings mem grant n interface buffer size s).2.2 := by
  induction n generalizing interface buffer size s with
  | zero => exact h
  | succ n ih =>
    rw [parseSettings]
    split
    · exact h
    next hsize =>
    have hrealloc := h.realloc grant (interface.altsetting.map Prod.fst)
    rcases hr : s.realloc grant (interface.altsetting.map Prod.fst) with ⟨_ | b, t⟩
    · rw [hr] at hrealloc
      exact hrealloc
    rw [hr] at hrealloc
    obtain ⟨hone, hnext⟩ := within_parseSetting mem grant hrealloc hT
      (by omega)
    dsimp only
    split
    · exact hone
    · exact hone
    next heq =>
      rw [heq] at hnext
      exact ih hone hnext.1

/-! ### The configuration -/

theorem within_configExtra (h : Within T s) (config : UsbConfigDescriptor) (start : ℤ) (len : ℕ)
    (hle : len ≠ 0 → start + len ≤ T + 255) :
    Within T (configExtra mem grant config start len s).2.2 := by
  rw [configExtra]
  split
  · exact h
  next hnot =>
  have hcopy := h.copyExtra mem grant _ _ (hle (not_or.mp hnot).1)
  rw [Store.copyExtra, if_neg (not_or.mp hnot).1] at hcopy
  rcases hc : s.copy grant mem start len with ⟨_ | extra, t⟩
  · rw [hc] at hcopy
    exact hcopy
  · rw [hc] at hcopy
    exact hcopy

theorem within_parseInterfaces (n : ℕ) (config : UsbConfigDescriptor) (h : Within T s)
    (buffer size : ℤ) (hT : buffer + size = T) :
    Within T (parseInterfaces mem grant n buffer size config s).2.2.2 := by
  induction n generalizing config buffer size s with
  | zero => exact h
  | succ n ih =>
    rw [parseInterfaces]
    have hskip := h.skip mem configRule buffer size (by omega)
    rcases hs : s.skip configRule mem buffer size with ⟨_ | stop, t⟩
    · rw [hs] at hskip
      exact hskip
    rw [hs] at hskip
    obtain ⟨hge, hle⟩ := skip_configRule mem (e := stop) (congrArg Prod.fst hs)
    have hextra := within_configExtra mem grant hskip config buffer
      (stop - buffer).toNat (by omega)
    dsimp only
    rcases hc : configExtra mem grant config buffer (stop - buffer).toNat t with
      ⟨_ | _, config', u⟩
    · rw [hc] at hextra
      exact hextra
    rw [hc] at hextra
    have hone : Within T (usbParseInterface mem grant .zero stop
        (size - (stop - buffer).toNat) u).2.2 := within_parseSettings mem grant _ hextra (by omega)
    dsimp only
    rcases hi : usbParseInterface mem grant .zero stop (size - (stop - buffer).toNat) u with
      ⟨_ | retval, interface, v⟩
    · rw [hi] at hone
      exact hone
    rw [hi] at hone
    exact ih _ hone _ _ (by omega)

@[simp]
theorem wTotalLength_fill (config : UsbConfigDescriptor) :
    (config.fill
      (usbParseDescriptor mem 0 ['b', 'b', 'w', 'b', 'b', 'b', 'b', 'b']).1).wTotalLength =
        (mem 3 ++ mem 2 : BitVec 16) :=
  BitVec.ofNat_toNat _ _ |>.trans (BitVec.setWidth_eq _)

/-- **The parser reads at most 255 bytes behind the configuration**, whatever the bytes are and
whichever allocations fail. -/
theorem reach_usbParseConfiguration (mem : ℤ → Byte) (grant : ℕ → Bool)
    (config : UsbConfigDescriptor) (calls : ℕ) (live : ℕ → Bool) :
    (usbParseConfiguration mem grant config ⟨calls, live, 0⟩).2.2.reach ≤
      (mem 3 ++ mem 2 : BitVec 16).toNat + 255 := by
  rw [usbParseConfiguration]
  dsimp only
  have hstart : Within (mem 3 ++ mem 2 : BitVec 16).toNat ⟨calls, live, 0⟩ := by
    change (0 : ℤ) ≤ _
    omega
  have hlook := hstart.look 0 (usbParseDescriptor mem 0
    ['b', 'b', 'w', 'b', 'b', 'b', 'b', 'b']).2 (by simp only [usbParseDescriptor]; omega)
  split
  · exact hlook
  have hmalloc := hlook.malloc grant
  rcases hm : (Store.look ⟨calls, live, 0⟩ 0 (usbParseDescriptor mem 0
    ['b', 'b', 'w', 'b', 'b', 'b', 'b', 'b']).2).malloc grant with ⟨_ | b, t⟩
  · rw [hm] at hmalloc
    exact hmalloc
  rw [hm] at hmalloc
  dsimp only
  have hT := wTotalLength_fill mem config
  generalize config.fill (usbParseDescriptor mem 0 ['b', 'b', 'w', 'b', 'b', 'b', 'b', 'b']).1 =
    config' at hT ⊢
  rw [← hT] at hmalloc ⊢
  have hall := within_parseInterfaces mem grant config'.bNumInterfaces.toNat
    { config' with extra := none, extralen := 0 } hmalloc config'.bLength.toNat
    (config'.wTotalLength.toNat - config'.bLength.toNat) (by omega)
  split
  next heq => rwa [heq] at hall
  next heq => rwa [heq] at hall

/-- An interface with something behind it that says it were 255 bytes long. -/
example : (usbParseConfiguration (writeMem (fun _ => 0) 0
      [9, 2, 20, 0, 1, 1, 0, 0x80, 50, 9, 4, 0, 0, 0, 3, 1, 1, 0, 255, 33])
    (fun _ => true) .zero ⟨0, fun _ => false, 0⟩).2.2.reach = 20 + 255 := by decide +kernel

end Usbip.Libusb0
