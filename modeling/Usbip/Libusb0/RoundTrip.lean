import Usbip.Lib.Endian
import Usbip.Libusb0.Descriptors

/-!
# Well-formed configurations

A `ConfigTree` is a configuration as a device describes it, and `ConfigTree.bytes` are its
descriptors in order: the configuration, then for every interface its settings, each followed by its
endpoints. Behind the configuration, a setting and an endpoint there may be other descriptors. The
trees carry what the parser asks for: there are 1 to `usbMaxinterfaces` interfaces, a setting has at
most `usbMaxendpoints` endpoints, the total length fits into its field, and among the settings of an
interface the first one has the number 0 and the others have another number.
-/

namespace Usbip.Libusb0

open Records RecordRing FixedCodec

/-! ### Trees -/

/-- Descriptors of types that the parser does not know. -/
abbrev Extras := { rs : List Record // ∀ r ∈ rs, proper r.type = false }

/-- The bytes of the descriptors. -/
def Extras.bytes (x : Extras) : List Byte := bytesAll x.1

/-- An endpoint, with the two more bytes that an audio endpoint has. -/
structure EndpointTree where
  bEndpointAddress : Byte
  bmAttributes : Byte
  wMaxPacketSize : BitVec 16
  bInterval : Byte
  audio : Option (Byte × Byte)
  extras : Extras

/-- The descriptor of an endpoint. -/
def EndpointTree.head (t : EndpointTree) : List Byte :=
  match t.audio with
  | none =>
    [7, usbDtEndpoint, t.bEndpointAddress, t.bmAttributes] ++ u16le.encode t.wMaxPacketSize ++
      [t.bInterval]
  | some (bRefresh, bSynchAddress) =>
    [9, usbDtEndpoint, t.bEndpointAddress, t.bmAttributes] ++ u16le.encode t.wMaxPacketSize ++
      [t.bInterval, bRefresh, bSynchAddress]

/-- The descriptors of an endpoint. -/
def EndpointTree.bytes (t : EndpointTree) : List Byte := t.head ++ t.extras.bytes

/-- An alternate setting. -/
structure SettingTree where
  bInterfaceNumber : Byte
  bAlternateSetting : Byte
  bInterfaceClass : Byte
  bInterfaceSubClass : Byte
  bInterfaceProtocol : Byte
  iInterface : Byte
  extras : Extras
  endpoints : List EndpointTree
  few : endpoints.length ≤ usbMaxendpoints

/-- The descriptor of a setting. -/
def SettingTree.head (t : SettingTree) : List Byte :=
  [9, usbDtInterface, t.bInterfaceNumber, t.bAlternateSetting, BitVec.ofNat 8 t.endpoints.length,
    t.bInterfaceClass, t.bInterfaceSubClass, t.bInterfaceProtocol, t.iInterface]

/-- The descriptors of a setting. -/
def SettingTree.bytes (t : SettingTree) : List Byte :=
  t.head ++ (t.extras.bytes ++ t.endpoints.flatMap EndpointTree.bytes)

/-- An interface with its settings. -/
structure InterfaceTree where
  first : SettingTree
  alternates : List SettingTree
  main : first.bAlternateSetting = 0
  other : ∀ t ∈ alternates, t.bAlternateSetting ≠ 0

/-- The settings of an interface. -/
def InterfaceTree.settings (t : InterfaceTree) : List SettingTree := t.first :: t.alternates

/-- The descriptors of an interface. -/
def InterfaceTree.bytes (t : InterfaceTree) : List Byte := t.settings.flatMap SettingTree.bytes

/-- The length of a configuration. -/
def totalLength (extras : Extras) (interfaces : List InterfaceTree) : ℕ :=
  9 + (extras.bytes ++ interfaces.flatMap InterfaceTree.bytes).length

/-- A configuration. -/
structure ConfigTree where
  bConfigurationValue : Byte
  iConfiguration : Byte
  bmAttributes : Byte
  maxPower : Byte
  extras : Extras
  interfaces : List InterfaceTree
  notEmpty : interfaces ≠ []
  few : interfaces.length ≤ usbMaxinterfaces
  short : totalLength extras interfaces < 65536

/-- The descriptor of a configuration. -/
def ConfigTree.head (t : ConfigTree) : List Byte :=
  [9, usbDtConfig] ++ u16le.encode (BitVec.ofNat 16 (totalLength t.extras t.interfaces)) ++
    [BitVec.ofNat 8 t.interfaces.length, t.bConfigurationValue, t.iConfiguration, t.bmAttributes,
      t.maxPower]

/-- The descriptors of a configuration. -/
def ConfigTree.bytes (t : ConfigTree) : List Byte :=
  t.head ++ (t.extras.bytes ++ t.interfaces.flatMap InterfaceTree.bytes)

/-! ### The structures of a tree -/

/-- A copy of the extra descriptors, the name of the block left out. -/
def Extras.copied (x : Extras) : Option (ℕ × List Byte) :=
  if x.bytes = [] then none else some (0, x.bytes)

/-- What becomes of an endpoint. -/
def EndpointTree.descriptor (t : EndpointTree) : UsbEndpointDescriptor where
  bLength := if t.audio.isSome then 9 else 7
  bDescriptorType := usbDtEndpoint
  bEndpointAddress := t.bEndpointAddress
  bmAttributes := t.bmAttributes
  wMaxPacketSize := t.wMaxPacketSize
  bInterval := t.bInterval
  bRefresh := (t.audio.map Prod.fst).getD 0
  bSynchAddress := (t.audio.map Prod.snd).getD 0
  extra := t.extras.copied
  extralen := t.extras.bytes.length

/-- What becomes of a setting. -/
def SettingTree.descriptor (t : SettingTree) : UsbInterfaceDescriptor where
  bLength := 9
  bDescriptorType := usbDtInterface
  bInterfaceNumber := t.bInterfaceNumber
  bAlternateSetting := t.bAlternateSetting
  bNumEndpoints := BitVec.ofNat 8 t.endpoints.length
  bInterfaceClass := t.bInterfaceClass
  bInterfaceSubClass := t.bInterfaceSubClass
  bInterfaceProtocol := t.bInterfaceProtocol
  iInterface := t.iInterface
  endpoint := if t.endpoints = [] then none else some (0, t.endpoints.map EndpointTree.descriptor)
  extra := t.extras.copied
  extralen := t.extras.bytes.length

/-- What becomes of an interface. -/
def InterfaceTree.descriptor (t : InterfaceTree) : UsbInterface :=
  ⟨some (0, t.settings.map SettingTree.descriptor), t.settings.length⟩

/-- What becomes of a configuration. -/
def ConfigTree.descriptor (t : ConfigTree) : UsbConfigDescriptor where
  bLength := 9
  bDescriptorType := usbDtConfig
  wTotalLength := BitVec.ofNat 16 (totalLength t.extras t.interfaces)
  bNumInterfaces := BitVec.ofNat 8 t.interfaces.length
  bConfigurationValue := t.bConfigurationValue
  iConfiguration := t.iConfiguration
  bmAttributes := t.bmAttributes
  maxPower := t.maxPower
  interface := some (0, t.interfaces.map InterfaceTree.descriptor)
  extra := t.extras.copied
  extralen := t.extras.bytes.length

/-- An array without the name of its block. -/
def unnamed {α : Type} (f : α → α) (array : Option (ℕ × List α)) : Option (ℕ × List α) :=
  array.map fun a => (0, a.2.map f)

/-- An endpoint without the names of its blocks. -/
def UsbEndpointDescriptor.unnamed (e : UsbEndpointDescriptor) : UsbEndpointDescriptor :=
  { e with extra := Libusb0.unnamed id e.extra }

/-- A setting without the names of its blocks. -/
def UsbInterfaceDescriptor.unnamed (as : UsbInterfaceDescriptor) : UsbInterfaceDescriptor :=
  { as with
    endpoint := Libusb0.unnamed UsbEndpointDescriptor.unnamed as.endpoint
    extra := Libusb0.unnamed id as.extra }

/-- An interface without the names of its blocks. -/
def UsbInterface.unnamed (i : UsbInterface) : UsbInterface :=
  { i with altsetting := Libusb0.unnamed UsbInterfaceDescriptor.unnamed i.altsetting }

/-- A configuration without the names of its blocks. -/
def UsbConfigDescriptor.unnamed (cf : UsbConfigDescriptor) : UsbConfigDescriptor :=
  { cf with
    interface := Libusb0.unnamed UsbInterface.unnamed cf.interface
    extra := Libusb0.unnamed id cf.extra }

/-! ### What is read -/

variable {mem : ℤ → Byte} {s s' s'' : Store} {pos size T k : ℤ} {rest : List Byte}

/-- All memory is granted. -/
abbrev granted : ℕ → Bool := fun _ => true

/-- Between `s` and `s'` the parser has read up to `T + k`, or for `k = 0` at most up to `T`. -/
structure Reads (T k : ℤ) (s s' : Store) : Prop where
  ge : s.reach ≤ s'.reach
  le : s'.reach ≤ max s.reach (T + k)
  end_le : k ≠ 0 → T + k ≤ s'.reach

namespace Reads

theorem refl (T : ℤ) (s : Store) : Reads T 0 s s := ⟨le_rfl, le_max_left .., fun h => absurd rfl h⟩

theorem trans (h : Reads T 0 s s') (h' : Reads T k s' s'') (hk : 0 ≤ k) : Reads T k s s'' where
  ge := h.ge.trans h'.ge
  le := by
    have hle := h.le
    have hle' := h'.le
    omega
  end_le := h'.end_le

theorem trans_zero (h : Reads T k s s') (h' : Reads T 0 s' s'') (hk : 0 ≤ k) : Reads T k s s'' where
  ge := h.ge.trans h'.ge
  le := by
    have hle := h.le
    have hle' := h'.le
    omega
  end_le hne := (h.end_le hne).trans h'.ge

theorem look (h : Reads T 0 s s') {p : ℤ} {n : ℕ} (hle : p + n ≤ T) :
    Reads T 0 s (s'.look p n) where
  ge := h.ge.trans (le_max_left ..)
  le := by
    have hle' := h.le
    simp only [Store.look]
    omega
  end_le h := absurd rfl h

/-- The allocator reads nothing. -/
theorem congr (h : Reads T k s s') (heq : s''.reach = s'.reach) : Reads T k s s'' :=
  ⟨heq ▸ h.ge, heq ▸ h.le, fun hk => heq ▸ h.end_le hk⟩

end Reads

theorem malloc_granted (s : Store) : ∃ b s', s.malloc granted = (some b, s') ∧ s'.reach = s.reach :=
  ⟨_, _, if_pos rfl, rfl⟩

theorem realloc_granted (s : Store) (old : Option ℕ) :
    ∃ b s', s.realloc granted old = (some b, s') ∧ s'.reach = s.reach := by
  rcases old with _ | o
  · exact ⟨_, _, rfl, rfl⟩
  · exact ⟨_, _, rfl, rfl⟩

/-- A copy of extra descriptors. -/
theorem copyExtra_granted (x : Extras) (hat : At mem pos x.bytes) (hT : pos + x.bytes.length ≤ T) :
    ∃ extra s', s.copyExtra granted mem pos x.bytes.length = (some extra, s') ∧
      unnamed id extra = x.copied ∧ Reads T 0 s s' := by
  rw [Store.copyExtra, Extras.copied]
  by_cases hnil : x.bytes = []
  · rw [hnil]
    exact ⟨none, s, rfl, rfl, .refl T s⟩
  rw [if_neg (by simpa using hnil), if_neg hnil]
  obtain ⟨b, t, hm, hreach⟩ := malloc_granted s
  rw [Store.copy, hm]
  refine ⟨_, _, rfl, ?_, ((Reads.refl T s).congr hreach).look hT⟩
  rw [unnamed, Option.map_some, List.map_id, At] at *
  rw [hat]

/-- What may stand behind the descriptors of an endpoint or a setting: nothing, or a descriptor that
stops the skipping and fits. -/
def Stops (rest : List Byte) : Prop :=
  rest = [] ∨ ∃ len type tail, rest = len :: type :: tail ∧ proper type = true ∧ 2 ≤ len.toNat ∧
    len.toNat ≤ rest.length

/-- Extra descriptors are skipped. -/
theorem skip_extras {R : Rule} (hR : R.stop = proper) (x : Extras) (hstops : Stops rest)
    (hat : At mem pos (x.bytes ++ rest)) (hsize : size = (x.bytes ++ rest).length)
    (hT : pos + size = T) :
    ∃ s', s.skip R mem pos size = (some (pos + x.bytes.length), s') ∧ Reads T 0 s s' := by
  obtain ⟨hx, hrest⟩ := at_append.mp hat
  rw [List.length_append] at hsize
  push_cast at hsize
  have hskip := Rule.skip_records (R := R) hx
    (fun r hr => by rw [hR]; exact x.2 r hr) size s.reach (by rw [← Extras.bytes]; omega)
  have hstop : (R.skip mem (pos + x.bytes.length) (size - x.bytes.length) s.reach).1 =
      some (pos + x.bytes.length) := by
    rcases hstops with rfl | ⟨len, type, tail, rfl, htype, hlen, hfit⟩
    · rw [Rule.skip_end (by simp at hsize; omega)]
    · rw [Rule.skip_stop ?_ (by rw [hR]; exact htype) hlen (by omega)]
      have hhead : At mem (pos + x.bytes.length) ([len, type] ++ tail) := hrest
      exact (at_append.mp hhead).1
  obtain ⟨hge, hle⟩ := Rule.reach_skip R mem pos size s.reach
  refine ⟨_, Prod.ext (hskip.trans hstop) rfl, hge, ?_, fun h => absurd rfl h⟩
  rwa [add_zero, ← hT]

/-! ### The endpoints -/

theorem at_u16le {w : BitVec 16} (h : At mem pos (u16le.encode w)) :
    (mem (pos + 1) ++ mem pos : BitVec 16) = w := by
  have hw : At mem pos [w.extractLsb' 0 8, w.extractLsb' 8 8] := h
  simp only [at_cons, at_nil, and_true] at hw
  rw [hw.1, hw.2]
  exact u16be.decode_encode w

theorem header_eq {len type : Byte} (hlen : mem pos = len) (htype : mem (pos + 1) = type) :
    header mem pos = ⟨len, type⟩ := by
  simp [header, usbParseDescriptor, hlen, htype, field]

theorem EndpointTree.length_head (t : EndpointTree) :
    t.head.length = t.descriptor.bLength.toNat := by
  rcases h : t.audio with _ | ⟨a, b⟩ <;> simp [head, descriptor, h] <;> rfl

/-- The fields of an endpoint are read back. -/
theorem read_endpoint (t : EndpointTree) (hat : At mem pos t.head) (s : Store) :
    UsbEndpointDescriptor.read mem .zero pos t.head.length s =
      ({ t.descriptor with extra := none, extralen := 0 }, s.look pos t.head.length) := by
  rw [EndpointTree.head] at hat
  have hsize : u16le.size = 2 := rfl
  rcases h : t.audio with _ | ⟨bRefresh, bSynchAddress⟩
  · rw [h] at hat
    simp only [at_append, at_cons, at_nil, and_true, List.length_append, List.length_cons,
      List.length_nil, length_encode, hsize] at hat
    obtain ⟨⟨⟨h0, h1, h2, h3⟩, hword⟩, h6⟩ := hat
    have h4 := at_u16le hword
    have hlen : t.head.length = 7 := by simp [EndpointTree.length_head, EndpointTree.descriptor, h]
    rw [UsbEndpointDescriptor.read, hlen]
    simp [Int.add_assoc] at h0 h1 h2 h3 h4 h6
    simp [usbParseDescriptor, UsbEndpointDescriptor.fill, EndpointTree.descriptor, h, field,
      UsbEndpointDescriptor.zero, Int.add_assoc, h0, h1, h2, h3, h4, h6]
  · rw [h] at hat
    simp only [at_append, at_cons, at_nil, and_true, List.length_append, List.length_cons,
      List.length_nil, length_encode, hsize] at hat
    obtain ⟨⟨⟨h0, h1, h2, h3⟩, hword⟩, h6, h7, h8⟩ := hat
    have h4 := at_u16le hword
    have hlen : t.head.length = 9 := by simp [EndpointTree.length_head, EndpointTree.descriptor, h]
    rw [UsbEndpointDescriptor.read, hlen]
    simp [Int.add_assoc] at h0 h1 h2 h3 h4 h6 h7 h8
    simp [usbParseDescriptor, UsbEndpointDescriptor.fill, EndpointTree.descriptor, h, field,
      Int.add_assoc, h0, h1, h2, h3, h4, h6, h7, h8]
    exact ⟨rfl, rfl⟩

/-- The descriptor of an endpoint begins with its length and its type. -/
theorem EndpointTree.head_eq (t : EndpointTree) :
    ∃ tail, t.head = t.descriptor.bLength :: usbDtEndpoint :: tail := by
  rcases h : t.audio with _ | ⟨bRefresh, bSynchAddress⟩ <;>
    exact ⟨_, by simp only [head, descriptor, h]; rfl⟩

theorem EndpointTree.header_eq (t : EndpointTree) (hat : At mem pos (t.bytes ++ rest)) :
    header mem pos = ⟨t.descriptor.bLength, usbDtEndpoint⟩ := by
  obtain ⟨tail, hhead⟩ := t.head_eq
  rw [bytes, hhead] at hat
  simp only [List.cons_append, at_cons] at hat
  exact Libusb0.header_eq hat.1 hat.2.1

theorem EndpointTree.two_le_length_head (t : EndpointTree) : 2 ≤ t.head.length := by
  obtain ⟨tail, hhead⟩ := t.head_eq
  rw [hhead]
  simp

theorem EndpointTree.length_bytes (t : EndpointTree) :
    t.bytes.length = t.head.length + t.extras.bytes.length := List.length_append

theorem usbParseEndpoint_eq (t : EndpointTree) (hstops : Stops rest)
    (hat : At mem pos (t.bytes ++ rest)) (hsize : size = (t.bytes ++ rest).length)
    (hT : pos + size = T) :
    ∃ e s', usbParseEndpoint mem granted .zero pos size s = (some t.bytes.length, e, s') ∧
      e.unnamed = t.descriptor ∧ Reads T 0 s s' := by
  have hheader := t.header_eq hat
  have htwo := t.two_le_length_head
  rw [EndpointTree.bytes, List.append_assoc] at hat
  rw [EndpointTree.bytes, List.append_assoc, List.length_append, List.length_append] at hsize
  push_cast at hsize
  obtain ⟨hat, hextras⟩ := at_append.mp hat
  have hlen : t.descriptor.bLength.toNat = t.head.length := t.length_head.symm
  rw [usbParseEndpoint, hheader]
  dsimp only
  rw [hlen, if_neg (by omega), if_neg (not_not.mpr rfl), read_endpoint t hat]
  dsimp only
  obtain ⟨t', hskip, hreads⟩ := skip_extras (R := ownRule)
    (s := (s.look pos 2).look pos t.head.length) rfl t.extras hstops hextras
      (by rw [List.length_append]; push_cast; omega : size - t.head.length = _)
      (by omega : _ = T)
  obtain ⟨extra, u, hcopy, hextra, hreads'⟩ := copyExtra_granted (s := t') (T := T) t.extras
    (at_append.mp hextras).1 (by omega)
  have hskipped : (pos + t.head.length + t.extras.bytes.length - (pos + t.head.length)).toNat =
      t.extras.bytes.length := by omega
  rw [hskip]
  dsimp only
  rw [hskipped, hcopy]
  have hlook := ((Reads.refl T s).look (p := pos) (n := 2) (by omega)).look (p := pos)
    (n := t.head.length) (by omega)
  have hall : Reads T 0 s u := (hlook.trans hreads le_rfl).trans hreads' le_rfl
  rw [t.length_bytes]
  rcases extra with _ | extra
  · refine ⟨_, u, rfl, ?_, hall⟩
    have hnil : t.extras.bytes = [] := by
      by_contra hne
      rw [Extras.copied, if_neg hne] at hextra
      exact nomatch hextra
    simp [UsbEndpointDescriptor.unnamed, EndpointTree.descriptor, unnamed, Extras.copied, hnil]
  · refine ⟨_, u, rfl, ?_, hall⟩
    simp [UsbEndpointDescriptor.unnamed, EndpointTree.descriptor, hextra]

theorem EndpointTree.stops (t : EndpointTree) (rest : List Byte) : Stops (t.bytes ++ rest) := by
  obtain ⟨tail, hhead⟩ := t.head_eq
  have hlen := t.length_head
  refine Or.inr ⟨t.descriptor.bLength, usbDtEndpoint, tail ++ (t.extras.bytes ++ rest), ?_, rfl, ?_,
    ?_⟩
  · rw [EndpointTree.bytes, hhead, List.append_assoc]
    rfl
  · rw [← hlen, hhead]
    simp
  · rw [← hlen, EndpointTree.bytes, List.append_assoc, List.length_append]
    omega

theorem stops_endpoints (ts : List EndpointTree) (h : Stops rest) :
    Stops (ts.flatMap EndpointTree.bytes ++ rest) := by
  rcases ts with _ | ⟨t, ts⟩
  · exact h
  · rw [List.flatMap_cons, List.append_assoc]
    exact t.stops _

theorem parseEndpoints_eq (ts : List EndpointTree) (hstops : Stops rest)
    (hat : At mem pos (ts.flatMap EndpointTree.bytes ++ rest))
    (hsize : size = (ts.flatMap EndpointTree.bytes ++ rest).length) (hT : pos + size = T) :
    ∃ es s', parseEndpoints mem granted ts.length pos size s =
        (some (pos + (ts.flatMap EndpointTree.bytes).length, (rest.length : ℤ)), es, s') ∧
      es.map UsbEndpointDescriptor.unnamed = ts.map EndpointTree.descriptor ∧ Reads T 0 s s' := by
  induction ts generalizing pos size s with
  | nil =>
    refine ⟨[], s, ?_, rfl, .refl T s⟩
    simp [parseEndpoints, hsize]
  | cons t ts ih =>
    rw [List.flatMap_cons, List.append_assoc] at hat hsize
    have hlen := t.length_head
    have hbytes := t.length_bytes
    have htwo := t.two_le_length_head
    have hsum := hsize
    rw [List.length_append] at hsum
    push_cast at hsum
    rw [List.length_cons, parseEndpoints, t.header_eq hat]
    dsimp only
    rw [if_neg (by omega)]
    obtain ⟨e, t', hone, he, hreads⟩ := usbParseEndpoint_eq (s := s.look pos 2) t
      (stops_endpoints ts hstops) hat hsize hT
    obtain ⟨es, u, hall, hes, hreads'⟩ := ih (s := t') (at_append.mp hat).2
      (by omega : size - t.bytes.length = _) (by omega)
    rw [hone]
    dsimp only
    rw [hall]
    have hlook := (Reads.refl T s).look (p := pos) (n := 2) (by omega)
    refine ⟨e :: es, u, ?_, by simp [he, hes], (hlook.trans hreads le_rfl).trans hreads' le_rfl⟩
    rw [List.flatMap_cons, List.length_append]
    push_cast
    rw [add_assoc]

/-! ### The settings -/

/-- What may stand behind a setting: nothing, or the descriptor of a setting, of the same interface
or of the next. -/
def Follows (rest : List Byte) (again : Bool) : Prop :=
  rest = [] ∧ again = false ∨
    ∃ num alt tail, rest = 9 :: usbDtInterface :: num :: alt :: tail ∧ 5 ≤ tail.length ∧
      again = decide (alt ≠ 0)

theorem Follows.stops {again : Bool} (h : Follows rest again) : Stops rest := by
  rcases h with ⟨rfl, -⟩ | ⟨num, alt, tail, rfl, hlen, -⟩
  · exact Or.inl rfl
  · refine Or.inr ⟨9, usbDtInterface, num :: alt :: tail, rfl, rfl, by decide, ?_⟩
    simp
    omega

theorem alternate_eq {again : Bool} (h : Follows rest again) (hat : At mem pos rest)
    (hsize : size = rest.length) (hT : pos + size = T) :
    ∃ s', alternate mem pos size s = (if again then .again pos size else .done pos, s') ∧
      Reads T 0 s s' := by
  rw [alternate]
  rcases h with ⟨rfl, rfl⟩ | ⟨num, alt, tail, rfl, hlen, rfl⟩
  · rw [List.length_nil] at hsize
    rw [if_pos (by omega)]
    exact ⟨s, rfl, .refl T s⟩
  · simp only [List.length_cons] at hsize
    push_cast at hsize
    simp only [at_cons, Int.add_assoc] at hat
    obtain ⟨-, htype, -, halt, -⟩ := hat
    have hthree : mem (pos + 3) = alt := halt
    rw [if_neg (by omega), htype, if_neg (not_not.mpr rfl), hthree]
    have hlook := ((Reads.refl T s).look (p := pos + 1) (n := 1) (by omega)).look (p := pos + 3)
      (n := 1) (by omega)
    refine ⟨_, ?_, hlook⟩
    by_cases hzero : alt = 0
    · rw [if_pos hzero, decide_eq_false (not_not.mpr hzero)]
      rfl
    · rw [if_neg hzero, decide_eq_true hzero]
      rfl

/-- How far the parser reads behind the end: by the header that it reads behind a setting that has
no endpoints, when nothing comes any more. -/
def overrun (endpoints : List EndpointTree) (rest : List Byte) : ℤ :=
  if endpoints = [] ∧ rest = [] then 2 else 0

theorem overrun_nonneg (endpoints : List EndpointTree) (rest : List Byte) :
    0 ≤ overrun endpoints rest := by
  rw [overrun]
  split <;> omega

/-- Behind a setting there is neither a configuration nor a device. -/
theorem not_unexpected {again : Bool} (endpoints : List EndpointTree) (h : Follows rest again)
    (hat : At mem pos (endpoints.flatMap EndpointTree.bytes ++ rest))
    (hsize : size = (endpoints.flatMap EndpointTree.bytes ++ rest).length) :
    ¬ (2 ≤ size ∧ ((header mem pos).bDescriptorType = usbDtConfig ∨
      (header mem pos).bDescriptorType = usbDtDevice)) := by
  rintro ⟨htwo, htype⟩
  rcases endpoints with _ | ⟨t, ts⟩
  · rcases h with ⟨rfl, -⟩ | ⟨num, alt, tail, rfl, -, -⟩
    · simp only [List.flatMap_nil, List.append_nil, List.length_nil] at hsize
      omega
    · simp only [List.flatMap_nil, List.nil_append, at_cons] at hat
      rw [header_eq hat.1 hat.2.1] at htype
      exact absurd htype (by decide)
  · rw [List.flatMap_cons, List.append_assoc] at hat
    rw [t.header_eq hat] at htype
    have hother : ¬ (usbDtEndpoint = usbDtConfig ∨ usbDtEndpoint = usbDtDevice) := by decide
    exact hother htype

/-- The first header behind a setting, and what is read of it behind the end. -/
theorem reads_header (endpoints : List EndpointTree) {again : Bool} (h : Follows rest again)
    (hsize : size = (endpoints.flatMap EndpointTree.bytes ++ rest).length) (hT : pos + size = T) :
    Reads T (overrun endpoints rest) s (s.look pos 2) := by
  rw [overrun]
  split
  next hnil =>
    obtain ⟨rfl, rfl⟩ := hnil
    simp only [List.flatMap_nil, List.append_nil, List.length_nil] at hsize
    refine ⟨le_max_left .., ?_, fun _ => ?_⟩
    all_goals
      simp only [Store.look]
      omega
  next hnil =>
    have htwo : 2 ≤ (endpoints.flatMap EndpointTree.bytes ++ rest).length := by
      rcases stops_endpoints endpoints h.stops with hnil' | ⟨len, type, tail, heq, -⟩
      · rw [List.append_eq_nil_iff] at hnil'
        rcases endpoints with _ | ⟨t, ts⟩
        · exact absurd ⟨rfl, hnil'.2⟩ hnil
        · obtain ⟨tail, hhead⟩ := t.head_eq
          simp [EndpointTree.bytes, hhead] at hnil'
      · rw [heq]
        simp
    exact (Reads.refl T s).look (by omega)

theorem settingEndpoints_eq (ifp : UsbInterfaceDescriptor) (endpoints : List EndpointTree)
    (hnum : ifp.bNumEndpoints.toNat = endpoints.length) (hfew : endpoints.length ≤ usbMaxendpoints)
    (hnone : ifp.endpoint = none) {again : Bool} (h : Follows rest again)
    (hat : At mem pos (endpoints.flatMap EndpointTree.bytes ++ rest))
    (hsize : size = (endpoints.flatMap EndpointTree.bytes ++ rest).length) (hT : pos + size = T) :
    ∃ endpoint s', settingEndpoints mem granted ifp pos size s =
        (if again then .again (pos + (endpoints.flatMap EndpointTree.bytes).length) rest.length
          else .done (pos + (endpoints.flatMap EndpointTree.bytes).length),
          { ifp with endpoint := endpoint }, s') ∧
      unnamed UsbEndpointDescriptor.unnamed endpoint =
        (if endpoints = [] then none else some (0, endpoints.map EndpointTree.descriptor)) ∧
      Reads T (overrun endpoints rest) s s' := by
  have hheader := reads_header (s := s) endpoints h hsize hT
  have hrest := (at_append.mp hat).2
  rw [settingEndpoints]
  dsimp only
  rw [if_neg (not_unexpected endpoints h hat hsize), if_neg (by omega), hnum]
  by_cases hnil : endpoints = []
  · subst hnil
    simp only [List.flatMap_nil, List.nil_append, List.length_nil, Nat.cast_zero, add_zero] at *
    obtain ⟨s', halt, hreads⟩ := alternate_eq (s := s.look pos 2) h hrest hsize hT
    rw [if_pos trivial, halt, ← hsize]
    exact ⟨none, s', by rw [← hnone], rfl, hheader.trans_zero hreads (overrun_nonneg ..)⟩
  rw [if_neg (by simpa using hnil), if_neg hnil]
  obtain ⟨b, t, hm, hreach⟩ := malloc_granted (s.look pos 2)
  rw [hm]
  dsimp only
  obtain ⟨es, u, hes, hunnamed, hreads⟩ := parseEndpoints_eq (s := t) endpoints h.stops hat hsize hT
  rw [List.length_append] at hsize
  push_cast at hsize
  obtain ⟨v, halt, hreads'⟩ := alternate_eq (s := u) h hrest rfl (by omega : _ = T)
  rw [hes]
  dsimp only
  rw [halt]
  refine ⟨some (b, es), v, rfl, ?_, ?_⟩
  · rw [unnamed, Option.map_some, hunnamed]
  · exact ((hheader.congr hreach).trans_zero hreads (overrun_nonneg ..)).trans_zero hreads'
      (overrun_nonneg ..)

/-! ### A setting -/

theorem SettingTree.length_bytes (t : SettingTree) : t.bytes.length =
    9 + (t.extras.bytes.length + (t.endpoints.flatMap EndpointTree.bytes).length) := by
  rw [bytes, List.length_append, List.length_append]
  rfl

/-- What stands before a setting. -/
theorem SettingTree.follows (t : SettingTree) (rest : List Byte) :
    Follows (t.bytes ++ rest) (decide (t.bAlternateSetting ≠ 0)) := by
  refine Or.inr ⟨t.bInterfaceNumber, t.bAlternateSetting, _, by
    rw [bytes, head, List.append_assoc]; rfl, ?_, rfl⟩
  simp

/-- The fields of a setting are read back. -/
theorem fill_setting (t : SettingTree) (hat : At mem pos t.head) :
    UsbInterfaceDescriptor.zero.fill
        (usbParseDescriptor mem pos ['b', 'b', 'b', 'b', 'b', 'b', 'b', 'b', 'b']).1 =
      { t.descriptor with endpoint := none, extra := none, extralen := 0 } := by
  simp only [SettingTree.head, at_cons, at_nil, and_true] at hat
  obtain ⟨h0, h1, h2, h3, h4, h5, h6, h7, h8⟩ := hat
  simp only [usbParseDescriptor, h0, h1, h2, h3, h4, h5, h6, h7, h8]
  simp only [UsbInterfaceDescriptor.fill, field, List.getD_cons_zero, List.getD_cons_succ,
    BitVec.ofNat_toNat, BitVec.setWidth_eq]
  rfl

theorem parseSetting_eq (t : SettingTree) {again : Bool} (h : Follows rest again)
    (hat : At mem pos (t.bytes ++ rest)) (hsize : size = (t.bytes ++ rest).length)
    (hT : pos + size = T) :
    ∃ ifp s', parseSetting mem granted pos size s =
        (if again then .again (pos + t.bytes.length) rest.length else .done (pos + t.bytes.length),
          ifp, s') ∧
      ifp.unnamed = t.descriptor ∧ Reads T (overrun t.endpoints rest) s s' := by
  have hlength := t.length_bytes
  have hnine : t.head.length = 9 := rfl
  have hfit : size = t.bytes.length + rest.length := by
    rw [hsize, List.length_append]
    push_cast
    rfl
  rw [SettingTree.bytes, List.append_assoc, List.append_assoc] at hat
  obtain ⟨hhead, hat⟩ := at_append.mp hat
  rw [hnine] at hat
  have hcount :
      (usbParseDescriptor mem pos ['b', 'b', 'b', 'b', 'b', 'b', 'b', 'b', 'b']).2 = 9 := by
    simp only [usbParseDescriptor]
  have hnum : t.descriptor.bNumEndpoints.toNat = t.endpoints.length := by
    have hfew := t.few
    rw [usbMaxendpoints] at hfew
    simp only [SettingTree.descriptor, BitVec.toNat_ofNat]
    omega
  rw [parseSetting]
  dsimp only
  rw [fill_setting t hhead, hcount]
  have hlen : t.descriptor.bLength.toNat = 9 := rfl
  dsimp only
  rw [hlen]
  obtain ⟨u, hskip, hreads⟩ := skip_extras (R := ownRule) (s := s.look pos 9) rfl t.extras
    (stops_endpoints t.endpoints h.stops) hat
    (by simp only [List.length_append]; push_cast; omega : size - (9 : ℕ) = _) (by omega : _ = T)
  obtain ⟨extra, v, hcopy, hextra, hreads'⟩ := copyExtra_granted (s := u) (T := T) t.extras
    (at_append.mp hat).1 (by omega)
  have hskipped : (pos + (9 : ℕ) + t.extras.bytes.length - (pos + (9 : ℕ))).toNat =
      t.extras.bytes.length := by omega
  have hlook := (Reads.refl T s).look (p := pos) (n := 9) (by omega)
  have hreads := (hlook.trans hreads le_rfl).trans hreads' le_rfl
  rw [hskip]
  dsimp only
  rw [hskipped, hcopy]
  have hend : pos + (9 : ℕ) + t.extras.bytes.length +
      (t.endpoints.flatMap EndpointTree.bytes).length = pos + t.bytes.length := by omega
  have hrest := (at_append.mp hat).2
  have hsize' : size - (9 : ℕ) - t.extras.bytes.length =
      (t.endpoints.flatMap EndpointTree.bytes ++ rest).length := by
    rw [List.length_append]
    push_cast
    omega
  rcases extra with _ | extra
  · have hnil : t.extras.bytes = [] := by
      by_contra hne
      rw [Extras.copied, if_neg hne] at hextra
      exact nomatch hextra
    obtain ⟨endpoint, w, hset, hunnamed, hreads'⟩ := settingEndpoints_eq (s := v)
      { t.descriptor with endpoint := none, extra := none, extralen := 0 } t.endpoints hnum t.few
      rfl h hrest hsize' (by omega : _ = T)
    dsimp only
    rw [hset, hend]
    refine ⟨_, w, rfl, ?_, hreads.trans hreads' (overrun_nonneg ..)⟩
    simp only [UsbInterfaceDescriptor.unnamed, hunnamed]
    simp [SettingTree.descriptor, unnamed, Extras.copied, hnil]
  · obtain ⟨endpoint, w, hset, hunnamed, hreads'⟩ := settingEndpoints_eq (s := v)
      { t.descriptor with
        endpoint := none, extra := some extra, extralen := t.extras.bytes.length }
      t.endpoints hnum t.few rfl h hrest hsize' (by omega : _ = T)
    dsimp only
    rw [hset, hend]
    refine ⟨_, w, rfl, ?_, hreads.trans hreads' (overrun_nonneg ..)⟩
    simp only [UsbInterfaceDescriptor.unnamed, hunnamed, hextra]
    rfl

/-! ### The interfaces -/

/-- The settings of an interface are added to those that are there. -/
theorem parseSettings_eq (t : SettingTree) (ts : List SettingTree)
    (hother : ∀ u ∈ ts, u.bAlternateSetting ≠ 0) (h : Follows rest false) (n : ℕ)
    (interface : UsbInterface)
    (hat : At mem pos ((t :: ts).flatMap SettingTree.bytes ++ rest))
    (hsize : size = ((t :: ts).flatMap SettingTree.bytes ++ rest).length) (hT : pos + size = T)
    (hn : size ≤ n) :
    ∃ interface' s', parseSettings mem granted n interface pos size s =
        (some (pos + ((t :: ts).flatMap SettingTree.bytes).length), interface', s') ∧
      interface'.unnamed =
        ⟨some (0, (elements interface.altsetting).map UsbInterfaceDescriptor.unnamed ++
          (t :: ts).map SettingTree.descriptor), interface.numAltsetting + (t :: ts).length⟩ ∧
      Reads T (overrun ((t :: ts).getLast (List.cons_ne_nil t ts)).endpoints rest) s s' := by
  have hlong := t.length_bytes
  induction ts generalizing t n interface pos size s with
  | nil =>
    rw [List.flatMap_cons, List.flatMap_nil, List.append_nil] at hat hsize ⊢
    have hfit := hsize
    rw [List.length_append] at hfit
    push_cast at hfit
    obtain ⟨n, rfl⟩ : ∃ m, n = m + 1 := ⟨n - 1, by omega⟩
    obtain ⟨b, u, hr, hreach⟩ := realloc_granted s (interface.altsetting.map Prod.fst)
    obtain ⟨ifp, v, hset, hunnamed, hreads⟩ := parseSetting_eq (s := u) t h hat hsize hT
    rw [parseSettings, if_neg (by omega), hr]
    dsimp only
    rw [hset]
    refine ⟨_, v, rfl, ?_, ?_⟩
    · simp [UsbInterface.unnamed, unnamed, hunnamed]
    · exact ((Reads.refl T s).congr hreach).trans hreads (overrun_nonneg ..)
  | cons next ts ih =>
    have halt := hother next List.mem_cons_self
    rw [List.flatMap_cons, List.append_assoc] at hat hsize
    have hfit := hsize
    rw [List.length_append] at hfit
    push_cast at hfit
    obtain ⟨n, rfl⟩ : ∃ m, n = m + 1 := ⟨n - 1, by omega⟩
    obtain ⟨b, u, hr, hreach⟩ := realloc_granted s (interface.altsetting.map Prod.fst)
    have hfollows : Follows ((next :: ts).flatMap SettingTree.bytes ++ rest) true := by
      rw [List.flatMap_cons, List.append_assoc]
      have hnext := next.follows (ts.flatMap SettingTree.bytes ++ rest)
      rwa [decide_eq_true halt] at hnext
    have hsome : (next :: ts).flatMap SettingTree.bytes ++ rest ≠ [] := by
      simp [SettingTree.bytes, SettingTree.head]
    obtain ⟨ifp, v, hset, hunnamed, hreads⟩ := parseSetting_eq (s := u) t hfollows hat hsize hT
    have hzero : overrun t.endpoints ((next :: ts).flatMap SettingTree.bytes ++ rest) = 0 :=
      if_neg fun hnil => hsome hnil.2
    rw [hzero] at hreads
    rw [parseSettings, if_neg (by omega), hr]
    dsimp only
    rw [hset]
    obtain ⟨interface', w, hall, hinterface, hreads'⟩ := ih (s := v) next
      (fun x hx => hother x (List.mem_cons_of_mem next hx)) n
      ⟨some (b, elements interface.altsetting ++ [ifp]), interface.numAltsetting + 1⟩
      (at_append.mp hat).2 rfl (by omega) (by omega) next.length_bytes
    refine ⟨interface', w, ?_, ?_, ?_⟩
    · refine hall.trans ?_
      have hsum : ((t :: next :: ts).flatMap SettingTree.bytes).length =
          t.bytes.length + ((next :: ts).flatMap SettingTree.bytes).length := List.length_append
      rw [hsum]
      push_cast
      rw [add_assoc]
    · rw [hinterface]
      simp [elements, hunnamed]
      omega
    · rw [List.getLast_cons (List.cons_ne_nil next ts)]
      exact (((Reads.refl T s).congr hreach).trans hreads le_rfl).trans hreads' (overrun_nonneg ..)

/-- The last setting of an interface. -/
def InterfaceTree.last (t : InterfaceTree) : SettingTree :=
  t.settings.getLast (List.cons_ne_nil t.first t.alternates)

theorem usbParseInterface_eq (t : InterfaceTree) (h : Follows rest false)
    (hat : At mem pos (t.bytes ++ rest)) (hsize : size = (t.bytes ++ rest).length)
    (hT : pos + size = T) :
    ∃ interface s', usbParseInterface mem granted .zero pos size s =
        (some (t.bytes.length : ℤ), interface, s') ∧
      interface.unnamed = t.descriptor ∧ Reads T (overrun t.last.endpoints rest) s s' := by
  obtain ⟨interface, s', hall, hinterface, hreads⟩ := parseSettings_eq (s := s) t.first t.alternates
    t.other h size.toNat UsbInterface.zero hat hsize hT (by omega)
  refine ⟨interface, s', ?_, ?_, hreads⟩
  · have hzero : { UsbInterface.zero with numAltsetting := 0 } = UsbInterface.zero := rfl
    rw [usbParseInterface, hzero, hall]
    simp [InterfaceTree.bytes, InterfaceTree.settings]
  · rw [hinterface]
    simp [InterfaceTree.descriptor, InterfaceTree.settings, UsbInterface.zero, elements]

/-! ### The configuration -/

theorem InterfaceTree.follows (t : InterfaceTree) (rest : List Byte) :
    Follows (t.bytes ++ rest) false := by
  have hfirst := t.first.follows (t.alternates.flatMap SettingTree.bytes ++ rest)
  rw [t.main] at hfirst
  rw [bytes, settings, List.flatMap_cons, List.append_assoc]
  exact hfirst

theorem follows_interfaces (ts : List InterfaceTree) :
    Follows (ts.flatMap InterfaceTree.bytes) false := by
  rcases ts with _ | ⟨t, ts⟩
  · exact Or.inl ⟨rfl, rfl⟩
  · exact t.follows _

/-- How far the parser reads behind the last of some interfaces. -/
def overrunAll (ts : List InterfaceTree) : ℤ :=
  match ts.getLast? with
  | none => 0
  | some t => overrun t.last.endpoints []

theorem overrunAll_nonneg (ts : List InterfaceTree) : 0 ≤ overrunAll ts := by
  rw [overrunAll]
  split
  · exact le_rfl
  · exact overrun_nonneg ..

/-- Only the last interface can lead the parser out. -/
theorem overrunAll_cons (t : InterfaceTree) (ts : List InterfaceTree) :
    overrunAll (t :: ts) =
      if ts = [] then overrun t.last.endpoints [] else overrunAll ts := by
  rcases ts with _ | ⟨u, ts⟩
  · rfl
  · rw [if_neg (List.cons_ne_nil u ts), overrunAll, overrunAll, List.getLast?_cons_cons]

/-- A configuration with extra descriptors, if there are any. -/
def UsbConfigDescriptor.withExtras (config : UsbConfigDescriptor) (x : Extras) :
    UsbConfigDescriptor :=
  if x.bytes = [] then config
  else { config with extra := x.copied, extralen := x.bytes.length }

theorem configExtra_eq (x : Extras) (config : UsbConfigDescriptor)
    (h : x.bytes = [] ∨ config.extralen = 0) (hat : At mem pos x.bytes)
    (hT : pos + x.bytes.length ≤ T) :
    ∃ config' s', configExtra mem granted config pos x.bytes.length s = (true, config', s') ∧
      (x.bytes = [] → config' = config) ∧ config'.unnamed = config.unnamed.withExtras x ∧
      Reads T 0 s s' := by
  by_cases hnil : x.bytes = []
  · refine ⟨config, s, ?_, fun _ => rfl, (if_pos hnil).symm, .refl T s⟩
    rw [configExtra, hnil]
    rfl
  have hlen := h.resolve_left hnil
  obtain ⟨extra, s', hcopy, hextra, hreads⟩ := copyExtra_granted (s := s) x hat hT
  rw [Store.copyExtra, if_neg (by simpa using hnil)] at hcopy
  rw [configExtra, if_neg (by simp [hnil, hlen])]
  rcases hc : s.copy granted mem pos x.bytes.length with ⟨_ | extra', t⟩
  · rw [hc] at hcopy
    exact nomatch hcopy
  · rw [hc] at hcopy
    obtain ⟨rfl, rfl⟩ : some extra' = extra ∧ t = s' := by simpa using hcopy
    refine ⟨_, _, rfl, fun h => absurd h hnil, ?_, hreads⟩
    rw [UsbConfigDescriptor.withExtras, if_neg hnil, UsbConfigDescriptor.unnamed, hextra]
    rfl

/-- One pass of the loop over the interfaces. -/
theorem parseInterfaces_succ (x : Extras) (t : InterfaceTree) (n : ℕ) (config : UsbConfigDescriptor)
    (hconfig : x.bytes = [] ∨ config.extralen = 0) (h : Follows rest false)
    (hat : At mem pos (x.bytes ++ (t.bytes ++ rest)))
    (hsize : size = (x.bytes ++ (t.bytes ++ rest)).length) (hT : pos + size = T) :
    ∃ config' interface s' r, parseInterfaces mem granted n
        (pos + x.bytes.length + t.bytes.length) rest.length config' s' = r ∧
      parseInterfaces mem granted (n + 1) pos size config s = (r.1, interface :: r.2.1, r.2.2) ∧
      (x.bytes = [] → config' = config) ∧ config'.unnamed = config.unnamed.withExtras x ∧
      interface.unnamed = t.descriptor ∧ Reads T (overrun t.last.endpoints rest) s s' := by
  have hlen := hsize
  rw [List.length_append, List.length_append] at hlen
  push_cast at hlen
  obtain ⟨hx, hrest⟩ := at_append.mp hat
  obtain ⟨u, hskip, hreads⟩ := skip_extras (R := configRule) (s := s) rfl x
    (t.follows rest).stops hat hsize hT
  obtain ⟨config', v, hextra, hsame, hconfig', hreads'⟩ := configExtra_eq (s := u) (T := T) x config
    hconfig hx (by omega)
  obtain ⟨interface, w, hone, hinterface, hreads''⟩ := usbParseInterface_eq (s := v) t h hrest
    (by rw [List.length_append]; push_cast; omega : size - x.bytes.length = _) (by omega : _ = T)
  have hskipped : (pos + x.bytes.length - pos).toNat = x.bytes.length := by omega
  have hleft : size - x.bytes.length - t.bytes.length = rest.length := by omega
  refine ⟨config', interface, w, _, rfl, ?_, hsame, hconfig', hinterface, ?_⟩
  · rw [parseInterfaces, hskip]
    dsimp only
    rw [hskipped, hextra]
    dsimp only
    rw [hone]
    dsimp only
    rw [hleft]
  · exact (hreads.trans hreads' le_rfl).trans hreads'' (overrun_nonneg ..)

theorem flatMap_bytes_eq_nil_iff (ts : List InterfaceTree) :
    ts.flatMap InterfaceTree.bytes = [] ↔ ts = [] := by
  rcases ts with _ | ⟨t, ts⟩
  · exact iff_of_true rfl rfl
  · refine iff_of_false ?_ (List.cons_ne_nil t ts)
    simp [InterfaceTree.bytes, InterfaceTree.settings, SettingTree.bytes, SettingTree.head]

/-- How far one interface leads behind the end, and those after it. -/
theorem reads_interfaces {t : InterfaceTree} {ts : List InterfaceTree}
    (h : Reads T (overrun t.last.endpoints (ts.flatMap InterfaceTree.bytes)) s s')
    (h' : Reads T (overrunAll ts) s' s'') : Reads T (overrunAll (t :: ts)) s s'' := by
  rw [overrunAll_cons]
  by_cases hnil : ts = []
  · subst hnil
    exact h.trans_zero h' (overrun_nonneg ..)
  · rw [if_neg hnil]
    have hzero : overrun t.last.endpoints (ts.flatMap InterfaceTree.bytes) = 0 :=
      if_neg fun h => hnil ((flatMap_bytes_eq_nil_iff ts).mp h.2)
    rw [hzero] at h
    exact h.trans h' (overrunAll_nonneg ts)

theorem parseInterfaces_eq (ts : List InterfaceTree) (config : UsbConfigDescriptor)
    (hat : At mem pos (ts.flatMap InterfaceTree.bytes))
    (hsize : size = (ts.flatMap InterfaceTree.bytes).length) (hT : pos + size = T) :
    ∃ interfaces s', parseInterfaces mem granted ts.length pos size config s =
        (some 0, interfaces, config, s') ∧
      interfaces.map UsbInterface.unnamed = ts.map InterfaceTree.descriptor ∧
      Reads T (overrunAll ts) s s' := by
  induction ts generalizing pos size s with
  | nil =>
    refine ⟨[], s, ?_, rfl, .refl T s⟩
    rw [List.length_nil, parseInterfaces, hsize]
    rfl
  | cons t ts ih =>
    rw [List.flatMap_cons] at hat hsize
    have hlen := hsize
    rw [List.length_append] at hlen
    push_cast at hlen
    obtain ⟨config', interface, u, r, hr, hall, hsame, -, hinterface, hreads⟩ :=
      parseInterfaces_succ (s := s) ⟨[], by decide⟩ t ts.length config (Or.inl rfl)
        (follows_interfaces ts) (by simpa [Extras.bytes] using hat)
        (by simpa [Extras.bytes] using hsize) hT
    have hpos : pos + (Extras.bytes ⟨[], by decide⟩).length + t.bytes.length =
        pos + t.bytes.length := by simp [Extras.bytes]
    rw [hsame rfl, hpos] at hr
    obtain ⟨interfaces, v, hrest, hinterfaces, hreads'⟩ := ih (s := u) (at_append.mp hat).2 rfl
      (by omega)
    rw [hrest] at hr
    refine ⟨interface :: interfaces, v, ?_, by simp [hinterface, hinterfaces],
      reads_interfaces hreads hreads'⟩
    rw [List.length_cons, hall, ← hr]

/-- The fields of a configuration are read back. -/
theorem fill_config (t : ConfigTree) (hat : At mem 0 t.head) :
    UsbConfigDescriptor.zero.fill
        (usbParseDescriptor mem 0 ['b', 'b', 'w', 'b', 'b', 'b', 'b', 'b']).1 =
      { t.descriptor with interface := none, extra := none, extralen := 0 } := by
  have hsize : u16le.size = 2 := rfl
  simp only [ConfigTree.head, at_append, at_cons, at_nil, and_true, List.length_append,
    List.length_cons, List.length_nil, length_encode, hsize] at hat
  obtain ⟨⟨⟨h0, h1⟩, hword⟩, h4, h5, h6, h7, h8⟩ := hat
  have h2 := at_u16le hword
  norm_num at h0 h1 h2 h4 h5 h6 h7 h8
  change _ = t.descriptor.wTotalLength at h2
  change _ = t.descriptor.bNumInterfaces at h4
  simp only [usbParseDescriptor]
  norm_num [h0, h1, h2, h4, h5, h6, h7, h8]
  simp only [UsbConfigDescriptor.fill, field, List.getD_cons_zero, List.getD_cons_succ,
    BitVec.ofNat_toNat, BitVec.setWidth_eq]
  rfl

theorem ConfigTree.length_bytes (t : ConfigTree) :
    t.bytes.length = totalLength t.extras t.interfaces := by
  rw [bytes, List.length_append]
  rfl

theorem parsedConfiguration (t : ConfigTree) (hat : At mem 0 t.bytes) :
    ∃ config s', usbParseConfiguration mem granted .zero s = (0, config, s') ∧
      config.unnamed = t.descriptor ∧
      Reads t.bytes.length (overrunAll t.interfaces) (s.look 0 9) s' := by
  have hlength := t.length_bytes
  have hshort := t.short
  have hfew := t.few
  rw [usbMaxinterfaces] at hfew
  rw [ConfigTree.bytes] at hat
  obtain ⟨hhead, hat⟩ := at_append.mp hat
  have hnum : (BitVec.ofNat 8 t.interfaces.length).toNat = t.interfaces.length := by
    rw [BitVec.toNat_ofNat]
    omega
  have htotal : (BitVec.ofNat 16 (totalLength t.extras t.interfaces)).toNat =
      totalLength t.extras t.interfaces := by
    rw [BitVec.toNat_ofNat]
    omega
  have hcount : (usbParseDescriptor mem 0 ['b', 'b', 'w', 'b', 'b', 'b', 'b', 'b']).2 = 9 := by
    simp only [usbParseDescriptor]
  rw [usbParseConfiguration]
  dsimp only
  rw [fill_config t hhead, hcount]
  obtain ⟨b, u, hm, hreach'⟩ := malloc_granted (s.look 0 9)
  rw [hm]
  dsimp only
  have hdnum : t.descriptor.bNumInterfaces.toNat = t.interfaces.length := hnum
  have hdtotal : t.descriptor.wTotalLength.toNat = totalLength t.extras t.interfaces := htotal
  have hdlen : t.descriptor.bLength.toNat = 9 := rfl
  rw [hdnum, hdtotal, hdlen, if_neg (by rw [usbMaxinterfaces]; omega)]
  obtain ⟨i, is, his⟩ := List.exists_cons_of_ne_nil t.notEmpty
  have hinterfaces : t.interfaces.flatMap InterfaceTree.bytes =
      i.bytes ++ is.flatMap InterfaceTree.bytes := by rw [his, List.flatMap_cons]
  have hnine : t.head.length = 9 := rfl
  rw [hinterfaces, hnine, zero_add] at hat
  rw [totalLength, hinterfaces] at hlength
  have hsize : (totalLength t.extras t.interfaces : ℤ) - (9 : ℕ) =
      (t.extras.bytes ++ (i.bytes ++ is.flatMap InterfaceTree.bytes)).length := by
    rw [totalLength, hinterfaces]
    push_cast
    omega
  have hT : ((9 : ℕ) : ℤ) + (totalLength t.extras t.interfaces - (9 : ℕ)) = t.bytes.length := by
    rw [hlength, hsize]
    push_cast
    rfl
  rw [his, List.length_cons, ← his]
  obtain ⟨config, interface, v, r, hr, hall, -, hconfig, hinterface, hreads⟩ :=
    parseInterfaces_succ (s := u) t.extras i is.length
      { t.descriptor with interface := none, extra := none, extralen := 0 } (Or.inr rfl)
      (follows_interfaces is) hat hsize hT
  obtain ⟨interfaces, w, hrest, hunnamed, hreads'⟩ := parseInterfaces_eq (s := v) is config
    (at_append.mp (at_append.mp hat).2).2 rfl (by
      rw [hlength]
      simp only [List.length_append]
      push_cast
      omega : _ = (t.bytes.length : ℤ))
  rw [hrest] at hr
  rw [hall, ← hr]
  refine ⟨_, w, rfl, ?_, ?_⟩
  · have hset : ∀ (cf : UsbConfigDescriptor) (a : Option (ℕ × List UsbInterface)),
        { cf with interface := a }.unnamed =
          { cf.unnamed with interface := unnamed UsbInterface.unnamed a } := fun _ _ => rfl
    rw [hset, hconfig, unnamed, Option.map_some, List.map_cons, hinterface, hunnamed,
      UsbConfigDescriptor.withExtras]
    split
    next hnil => simp [UsbConfigDescriptor.unnamed, unnamed, ConfigTree.descriptor, his,
      Extras.copied, hnil]
    next hnil => simp [UsbConfigDescriptor.unnamed, unnamed, ConfigTree.descriptor, his]
  · rw [his]
    exact (Reads.congr (Reads.refl _ _) hreach').trans (reads_interfaces hreads hreads')
      (overrunAll_nonneg _)

/-- The last setting of a configuration has an endpoint. -/
def ConfigTree.Closed (t : ConfigTree) : Prop :=
  ∀ i ∈ t.interfaces.getLast?, i.last.endpoints ≠ []

/-- A headset with keys. In front of the first interface stands a class descriptor, in front of the
endpoint of its keys another one. The second interface, the sound, needs no bandwidth in its main
setting; the alternate one has an audio endpoint, with class descriptors on both sides. -/
def headset : ConfigTree where
  bConfigurationValue := 1
  iConfiguration := 0
  bmAttributes := 0x80
  maxPower := 50
  extras := ⟨[⟨0x0b, [0, 2, 1, 0, 0, 0], by decide⟩], by decide⟩
  interfaces :=
    [{ first :=
        { bInterfaceNumber := 0
          bAlternateSetting := 0
          bInterfaceClass := 3
          bInterfaceSubClass := 0
          bInterfaceProtocol := 0
          iInterface := 0
          extras := ⟨[⟨0x21, [0x11, 1, 0, 1, 0x22, 52, 0], by decide⟩], by decide⟩
          endpoints := [⟨0x81, 3, 4, 10, none, ⟨[], by decide⟩⟩]
          few := by decide }
       alternates := []
       main := rfl
       other := by simp },
     { first :=
        { bInterfaceNumber := 1
          bAlternateSetting := 0
          bInterfaceClass := 1
          bInterfaceSubClass := 2
          bInterfaceProtocol := 0
          iInterface := 0
          extras := ⟨[], by decide⟩
          endpoints := []
          few := by decide }
       alternates :=
        [{ bInterfaceNumber := 1
           bAlternateSetting := 1
           bInterfaceClass := 1
           bInterfaceSubClass := 2
           bInterfaceProtocol := 0
           iInterface := 0
           extras := ⟨[⟨0x24, [1, 1, 1, 1, 0], by decide⟩], by decide⟩
           endpoints :=
            [⟨0x02, 9, 192, 4, some (0, 0),
              ⟨[⟨0x25, [1, 0, 0, 0, 0], by decide⟩], by decide⟩⟩]
           few := by decide }]
       main := rfl
       other := by simp }]
  notEmpty := by simp
  few := by decide
  short := by decide

/-- **A well-formed configuration is parsed as it is meant**, when there is memory for it, and
nothing is left. The parser stays in it if and only if the last setting has an endpoint; otherwise
it reads the two bytes behind the configuration. -/
theorem usbParseConfiguration_bytes (t : ConfigTree) (mem : ℤ → Byte) (calls : ℕ)
    (live : ℕ → Bool) :
    ∃ config s', usbParseConfiguration (writeMem mem 0 t.bytes) granted .zero ⟨calls, live, 0⟩ =
        (0, config, s') ∧
      config.unnamed = t.descriptor ∧ (s'.reach ≤ t.bytes.length ↔ t.Closed) := by
  obtain ⟨config, s', hparse, hconfig, hreads⟩ := parsedConfiguration (s := ⟨calls, live, 0⟩) t
    (at_writeMem : At (writeMem mem 0 t.bytes) 0 t.bytes)
  refine ⟨config, s', hparse, hconfig, ?_⟩
  have hlong := t.length_bytes
  rw [totalLength] at hlong
  have hle := hreads.le
  have hend := hreads.end_le
  simp only [Store.look] at hle
  obtain ⟨i, hi⟩ : ∃ i, t.interfaces.getLast? = some i :=
    Option.ne_none_iff_exists'.mp fun h => t.notEmpty (List.getLast?_eq_none_iff.mp h)
  rw [ConfigTree.Closed, hi]
  rw [overrunAll, hi] at hle hend
  dsimp only at hle hend
  by_cases hnil : i.last.endpoints = []
  · rw [overrun, if_pos ⟨hnil, rfl⟩] at hend
    refine iff_of_false ?_ (fun h => h i rfl hnil)
    have := hend (by decide)
    omega
  · rw [overrun, if_neg fun h => hnil h.1] at hle
    refine iff_of_true ?_ (by rintro j ⟨⟩; exact hnil)
    omega

/-- The headset: its two interfaces, the alternate setting, both kinds of endpoints and the class
descriptors are found, and nothing behind them is read. -/
theorem usbParseConfiguration_headset :
    headset.bytes =
      [9, 2, 83, 0, 2, 1, 0, 0x80, 50] ++ [8, 0x0b, 0, 2, 1, 0, 0, 0] ++
      [9, 4, 0, 0, 1, 3, 0, 0, 0] ++ [9, 0x21, 0x11, 1, 0, 1, 0x22, 52, 0] ++
      [7, 5, 0x81, 3, 4, 0, 10] ++
      [9, 4, 1, 0, 0, 1, 2, 0, 0] ++
      [9, 4, 1, 1, 1, 1, 2, 0, 0] ++ [7, 0x24, 1, 1, 1, 1, 0] ++
      [9, 5, 0x02, 9, 192, 0, 4, 0, 0] ++ [7, 0x25, 1, 0, 0, 0, 0] ∧
    ∃ config s', usbParseConfiguration (writeMem (fun _ => 0) 0 headset.bytes) granted .zero
        ⟨0, fun _ => false, 0⟩ = (0, config, s') ∧
      config.unnamed = headset.descriptor ∧ s'.reach ≤ 83 := by
  refine ⟨by decide, ?_⟩
  obtain ⟨config, s', hparse, hconfig, hreach⟩ :=
    usbParseConfiguration_bytes headset (fun _ => 0) 0 fun _ => false
  refine ⟨config, s', hparse, hconfig, hreach.mpr ?_⟩
  -- the last setting is the alternate one of the sound, which has an endpoint
  rintro i ⟨⟩
  exact List.cons_ne_nil _ _

end Usbip.Libusb0
