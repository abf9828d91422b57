import Usbip.Lib.Heap
import Usbip.Lib.Records

/-!
# The configuration of a device

`usb_fetch_and_parse_descriptors` reads the configurations of a device and makes trees of them:
a `struct usb_config_descriptor` has an array of interfaces, an interface an array of alternate
settings, and a setting an array of endpoints. The bytes of a configuration come from the device.
What stands between the descriptors the parser knows is copied into a block of its own (`extra`).

A buffer is a memory `mem : ℤ → Byte` with the buffer at position 0, so that there is something at
every position. `Store` is what the parser leaves behind besides the tree: the blocks it has
allocated and the end of the furthest read. `grant` says which calls of `malloc` and `realloc`
succeed; a block is named by the number of the call.
-/

namespace Usbip.Libusb0

open Records RecordRing

/-! ### Memory -/

/-- The calls of `malloc` and `realloc` so far, the blocks that are live, and the end of the
furthest read of the buffer. -/
structure Store where
  calls : ℕ
  live : ℕ → Bool
  reach : ℤ

namespace Store

variable (s : Store)

/-- `n` bytes are read at `pos`. -/
def look (pos : ℤ) (n : ℕ) : Store := { s with reach := max s.reach (pos + n) }

variable (grant : ℕ → Bool)

/-- `malloc` -/
def malloc : Option ℕ × Store :=
  if grant s.calls then
    (some s.calls, { s with calls := s.calls + 1, live := Function.update s.live s.calls true })
  else (none, { s with calls := s.calls + 1 })

/-- `realloc`. If it fails the old block stays. -/
def realloc (old : Option ℕ) : Option ℕ × Store :=
  match s.malloc grant, old with
  | (some b, s), some o => (some b, { s with live := Function.update s.live o false })
  | r, _ => r

/-- `malloc(len)` and `memcpy` from the buffer. -/
def copy (mem : ℤ → Byte) (start : ℤ) (len : ℕ) : Option (ℕ × List Byte) × Store :=
  match s.malloc grant with
  | (none, s) => (none, s)
  | (some b, s) => (some (b, readMem mem start len), s.look start len)

/-- Skip records in the buffer. -/
def skip (R : Rule) (mem : ℤ → Byte) (pos size : ℤ) : Option ℤ × Store :=
  ((R.skip mem pos size s.reach).1, { s with reach := (R.skip mem pos size s.reach).2 })

end Store

/-! ### Descriptors -/

/-- `USB_DT_DEVICE` -/
def usbDtDevice : Byte := 1

/-- `USB_DT_CONFIG` -/
def usbDtConfig : Byte := 2

/-- `USB_DT_INTERFACE` -/
def usbDtInterface : Byte := 4

/-- `USB_DT_ENDPOINT` -/
def usbDtEndpoint : Byte := 5

/-- `USB_MAXENDPOINTS` -/
def usbMaxendpoints : ℕ := 32

/-- `USB_MAXINTERFACES` -/
def usbMaxinterfaces : ℕ := 32

/-- `USB_MAXCONFIG` -/
def usbMaxconfig : ℕ := 8

/-- `struct usb_endpoint_descriptor`. What `extra` points to is a block with its contents. -/
structure UsbEndpointDescriptor where
  bLength : Byte
  bDescriptorType : Byte
  bEndpointAddress : Byte
  bmAttributes : Byte
  wMaxPacketSize : BitVec 16
  bInterval : Byte
  bRefresh : Byte
  bSynchAddress : Byte
  extra : Option (ℕ × List Byte)
  extralen : ℕ

/-- `struct usb_interface_descriptor` -/
structure UsbInterfaceDescriptor where
  bLength : Byte
  bDescriptorType : Byte
  bInterfaceNumber : Byte
  bAlternateSetting : Byte
  bNumEndpoints : Byte
  bInterfaceClass : Byte
  bInterfaceSubClass : Byte
  bInterfaceProtocol : Byte
  iInterface : Byte
  endpoint : Option (ℕ × List UsbEndpointDescriptor)
  extra : Option (ℕ × List Byte)
  extralen : ℕ

/-- `struct usb_interface` -/
structure UsbInterface where
  altsetting : Option (ℕ × List UsbInterfaceDescriptor)
  numAltsetting : ℕ

/-- `struct usb_config_descriptor` -/
structure UsbConfigDescriptor where
  bLength : Byte
  bDescriptorType : Byte
  wTotalLength : BitVec 16
  bNumInterfaces : Byte
  bConfigurationValue : Byte
  iConfiguration : Byte
  bmAttributes : Byte
  maxPower : Byte
  interface : Option (ℕ × List UsbInterface)
  extra : Option (ℕ × List Byte)
  extralen : ℕ

/-- A `struct usb_endpoint_descriptor` of zeros. -/
def UsbEndpointDescriptor.zero : UsbEndpointDescriptor := ⟨0, 0, 0, 0, 0, 0, 0, 0, none, 0⟩

/-- A `struct usb_interface_descriptor` of zeros. -/
def UsbInterfaceDescriptor.zero : UsbInterfaceDescriptor :=
  ⟨0, 0, 0, 0, 0, 0, 0, 0, 0, none, none, 0⟩

/-- A `struct usb_interface` of zeros. -/
def UsbInterface.zero : UsbInterface := ⟨none, 0⟩

/-- A `struct usb_config_descriptor` of zeros. -/
def UsbConfigDescriptor.zero : UsbConfigDescriptor := ⟨0, 0, 0, 0, 0, 0, 0, 0, none, none, 0⟩

/-- `usb_parse_descriptor`: the values of the fields that the letters describe, and how many bytes
they take. A word is little endian. `W` and `D`, in the byte order of the host, are not for the
descriptors of a configuration. -/
def usbParseDescriptor (mem : ℤ → Byte) : ℤ → List Char → List ℕ × ℕ
  | _, [] => ([], 0)
  | sp, 'b' :: cs =>
    let r := usbParseDescriptor mem (sp + 1) cs
    ((mem sp).toNat :: r.1, r.2 + 1)
  | sp, 'w' :: cs =>
    let r := usbParseDescriptor mem (sp + 2) cs
    ((mem (sp + 1) ++ mem sp : BitVec 16).toNat :: r.1, r.2 + 2)
  | sp, 'd' :: cs =>
    let r := usbParseDescriptor mem (sp + 4) cs
    ((mem (sp + 3) ++ (mem (sp + 2) ++ (mem (sp + 1) ++ mem sp)) : BitVec 32).toNat :: r.1,
      r.2 + 4)
  | sp, _ :: cs => usbParseDescriptor mem sp cs

/-- The field number `i` of `vs`, or as it was. -/
def field {w : ℕ} (vs : List ℕ) (i : ℕ) (old : BitVec w) : BitVec w :=
  BitVec.ofNat w (vs.getD i old.toNat)

/-- `struct usb_descriptor_header` -/
structure UsbDescriptorHeader where
  bLength : Byte
  bDescriptorType : Byte

/-- `usb_parse_descriptor(buffer, "bb", &header)` -/
def header (mem : ℤ → Byte) (buffer : ℤ) : UsbDescriptorHeader :=
  let vs := (usbParseDescriptor mem buffer ['b', 'b']).1
  ⟨field vs 0 0, field vs 1 0⟩

/-- The first fields of an endpoint descriptor. -/
def UsbEndpointDescriptor.fill (endpoint : UsbEndpointDescriptor) (vs : List ℕ) :
    UsbEndpointDescriptor :=
  { endpoint with
    bLength := field vs 0 endpoint.bLength
    bDescriptorType := field vs 1 endpoint.bDescriptorType
    bEndpointAddress := field vs 2 endpoint.bEndpointAddress
    bmAttributes := field vs 3 endpoint.bmAttributes
    wMaxPacketSize := field vs 4 endpoint.wMaxPacketSize
    bInterval := field vs 5 endpoint.bInterval
    bRefresh := field vs 6 endpoint.bRefresh
    bSynchAddress := field vs 7 endpoint.bSynchAddress }

/-- The first fields of an interface descriptor. -/
def UsbInterfaceDescriptor.fill (ifp : UsbInterfaceDescriptor) (vs : List ℕ) :
    UsbInterfaceDescriptor :=
  { ifp with
    bLength := field vs 0 ifp.bLength
    bDescriptorType := field vs 1 ifp.bDescriptorType
    bInterfaceNumber := field vs 2 ifp.bInterfaceNumber
    bAlternateSetting := field vs 3 ifp.bAlternateSetting
    bNumEndpoints := field vs 4 ifp.bNumEndpoints
    bInterfaceClass := field vs 5 ifp.bInterfaceClass
    bInterfaceSubClass := field vs 6 ifp.bInterfaceSubClass
    bInterfaceProtocol := field vs 7 ifp.bInterfaceProtocol
    iInterface := field vs 8 ifp.iInterface }

/-- The first fields of a configuration descriptor. -/
def UsbConfigDescriptor.fill (config : UsbConfigDescriptor) (vs : List ℕ) : UsbConfigDescriptor :=
  { config with
    bLength := field vs 0 config.bLength
    bDescriptorType := field vs 1 config.bDescriptorType
    wTotalLength := field vs 2 config.wTotalLength
    bNumInterfaces := field vs 3 config.bNumInterfaces
    bConfigurationValue := field vs 4 config.bConfigurationValue
    iConfiguration := field vs 5 config.iConfiguration
    bmAttributes := field vs 6 config.bmAttributes
    maxPower := field vs 7 config.maxPower }

/-! ### The parser -/

/-- A "proper" descriptor, where the skipping is done. -/
def proper (type : Byte) : Bool :=
  type == usbDtEndpoint || type == usbDtInterface || type == usbDtConfig || type == usbDtDevice

/-- Skipping behind an endpoint or an interface: a length below 2 is invalid. -/
def ownRule : Rule where
  stop := proper
  refuse len _ := decide (len < 2)
  refuse_short _ _ h := decide_eq_true h
  accept _ _ h _ := decide_eq_false (by omega)

/-- Skipping in front of an interface: a length that is more than is left is invalid, too. -/
def configRule : Rule where
  stop := proper
  refuse len size := decide (size < len) || decide (len < 2)
  refuse_short _ _ h := by simp [h]
  accept _ _ h h' := by simp; omega

/-- A block for the skipped descriptors, if there are any: `none` when there is no memory. -/
def Store.copyExtra (grant : ℕ → Bool) (mem : ℤ → Byte) (start : ℤ) (len : ℕ) (s : Store) :
    Option (Option (ℕ × List Byte)) × Store :=
  if len = 0 then (some none, s)
  else
    match s.copy grant mem start len with
    | (none, s) => (none, s)
    | (some extra, s) => (some (some extra), s)

section Parser

variable (mem : ℤ → Byte) (grant : ℕ → Bool)

/-- The fields of an endpoint, by the length of its descriptor. -/
def UsbEndpointDescriptor.read (endpoint : UsbEndpointDescriptor) (buffer : ℤ) (len : ℕ)
    (s : Store) : UsbEndpointDescriptor × Store :=
  if 9 ≤ len then
    let r := usbParseDescriptor mem buffer ['b', 'b', 'b', 'b', 'w', 'b', 'b', 'b']
    (endpoint.fill r.1, s.look buffer r.2)
  else if 7 ≤ len then
    let r := usbParseDescriptor mem buffer ['b', 'b', 'b', 'b', 'w', 'b']
    (endpoint.fill r.1, s.look buffer r.2)
  else (endpoint, s)

/-- `usb_parse_endpoint`: the bytes that were parsed, `none` for -1. -/
def usbParseEndpoint (endpoint : UsbEndpointDescriptor) (buffer size : ℤ) (s : Store) :
    Option ℕ × UsbEndpointDescriptor × Store :=
  let h := header mem buffer
  let len := h.bLength.toNat
  let s := s.look buffer 2
  if size < len then (none, endpoint, s)
  else if h.bDescriptorType ≠ usbDtEndpoint then (some 0, endpoint, s)
  else
    let r := endpoint.read mem buffer len s
    match r.2.skip ownRule mem (buffer + len) (size - len) with
    | (none, s) => (none, r.1, s)
    | (some stop, s) =>
      let skipped := (stop - (buffer + len)).toNat
      match s.copyExtra grant mem (buffer + len) skipped with
      -- without memory the endpoint goes without its extra descriptors
      | (none, s) => (some (len + skipped), { r.1 with extralen := 0, extra := none }, s)
      | (some none, s) => (some (len + skipped), { r.1 with extra := none, extralen := 0 }, s)
      | (some (some extra), s) =>
        (some (len + skipped), { r.1 with extra := some extra, extralen := skipped }, s)

/-- The loop over the endpoints of a setting: where it gets, with how much left, and the endpoints,
of which those not parsed are zeros. -/
def parseEndpoints : ℕ → ℤ → ℤ → Store → Option (ℤ × ℤ) × List UsbEndpointDescriptor × Store
  | 0, buffer, size, s => (some (buffer, size), [], s)
  | n + 1, buffer, size, s =>
    let s := s.look buffer 2
    if size < (header mem buffer).bLength.toNat then (none, .replicate (n + 1) .zero, s)
    else
      match usbParseEndpoint mem grant .zero buffer size s with
      | (none, endpoint, s) => (none, endpoint :: .replicate n .zero, s)
      | (some retval, endpoint, s) =>
        let r := parseEndpoints n (buffer + retval) (size - retval) s
        (r.1, endpoint :: r.2.1, r.2.2)

/-- How a pass of the loop over the settings of an interface ends: the interface is parsed up to
here, or there is another setting. -/
inductive Pass
  | fail
  | done (buffer : ℤ)
  | again (buffer size : ℤ)

/-- Whether the next descriptor is another setting of the interface. -/
def alternate (buffer size : ℤ) (s : Store) : Pass × Store :=
  if size < 9 then (.done buffer, s)
  else if mem (buffer + 1) ≠ usbDtInterface then (.done buffer, s.look (buffer + 1) 1)
  else
    let s := (s.look (buffer + 1) 1).look (buffer + 3) 1
    if mem (buffer + 3) = 0 then (.done buffer, s) else (.again buffer size, s)

/-- The endpoints of a setting, and what comes after them. -/
def settingEndpoints (ifp : UsbInterfaceDescriptor) (buffer size : ℤ) (s : Store) :
    Pass × UsbInterfaceDescriptor × Store :=
  let type := (header mem buffer).bDescriptorType
  -- the header is read before the size is checked
  let s := s.look buffer 2
  if 2 ≤ size ∧ (type = usbDtConfig ∨ type = usbDtDevice) then (.done buffer, ifp, s)
  else if usbMaxendpoints < ifp.bNumEndpoints.toNat then (.fail, ifp, s)
  else if ifp.bNumEndpoints.toNat = 0 then
    let r := alternate mem buffer size s
    (r.1, ifp, r.2)
  else
    match s.malloc grant with
    | (none, s) => (.fail, ifp, s)
    | (some b, s) =>
      match parseEndpoints mem grant ifp.bNumEndpoints.toNat buffer size s with
      | (none, endpoints, s) => (.fail, { ifp with endpoint := some (b, endpoints) }, s)
      | (some (buffer, size), endpoints, s) =>
        let r := alternate mem buffer size s
        (r.1, { ifp with endpoint := some (b, endpoints) }, r.2)

/-- A pass of the loop over the settings, after the array has got its new element. -/
def parseSetting (buffer size : ℤ) (s : Store) : Pass × UsbInterfaceDescriptor × Store :=
  let r := usbParseDescriptor mem buffer ['b', 'b', 'b', 'b', 'b', 'b', 'b', 'b', 'b']
  let ifp := UsbInterfaceDescriptor.zero.fill r.1
  let len := ifp.bLength.toNat
  match (s.look buffer r.2).skip ownRule mem (buffer + len) (size - len) with
  | (none, s) => (.fail, ifp, s)
  | (some stop, s) =>
    let skipped := (stop - (buffer + len)).toNat
    match s.copyExtra grant mem (buffer + len) skipped with
    | (none, s) => (.fail, ifp, s)
    | (some none, s) => settingEndpoints mem grant ifp stop (size - len - skipped) s
    | (some (some extra), s) =>
      settingEndpoints mem grant { ifp with extra := some extra, extralen := skipped } stop
        (size - len - skipped) s

/-- The elements of an array, none when there is no array. -/
def elements {α : Type} (array : Option (ℕ × List α)) : List α := (array.map Prod.snd).getD []

/-- The loop over the settings. A pass makes the rest shorter, so one for each byte is enough. -/
def parseSettings : ℕ → UsbInterface → ℤ → ℤ → Store → Option ℤ × UsbInterface × Store
  | 0, interface, buffer, _, s => (some buffer, interface, s)
  | n + 1, interface, buffer, size, s =>
    if size < 9 then (some buffer, interface, s)
    else
      match s.realloc grant (interface.altsetting.map Prod.fst) with
      | (none, s) => (none, { interface with altsetting := none }, s)
      | (some b, s) =>
        let r := parseSetting mem grant buffer size s
        let interface : UsbInterface :=
          ⟨some (b, elements interface.altsetting ++ [r.2.1]), interface.numAltsetting + 1⟩
        match r.1 with
        | .fail => (none, interface, r.2.2)
        | .done buffer => (some buffer, interface, r.2.2)
        | .again buffer size => parseSettings n interface buffer size r.2.2

/-- `usb_parse_interface`: the bytes that were parsed, `none` for -1. -/
def usbParseInterface (interface : UsbInterface) (buffer size : ℤ) (s : Store) :
    Option ℤ × UsbInterface × Store :=
  let r := parseSettings mem grant size.toNat { interface with numAltsetting := 0 } buffer size s
  (r.1.map (· - buffer), r.2)

/-- A block for the descriptors in front of an interface. Only the first ones are kept. -/
def configExtra (config : UsbConfigDescriptor) (start : ℤ) (len : ℕ) (s : Store) :
    Bool × UsbConfigDescriptor × Store :=
  if len = 0 ∨ config.extralen ≠ 0 then (true, config, s)
  else
    match s.copy grant mem start len with
    | (none, s) => (false, { config with extra := none, extralen := 0 }, s)
    | (some extra, s) => (true, { config with extra := some extra, extralen := len }, s)

/-- The loop over the interfaces of a configuration: how much is left, and the interfaces, of which
those not parsed are zeros. -/
def parseInterfaces : ℕ → ℤ → ℤ → UsbConfigDescriptor → Store →
    Option ℤ × List UsbInterface × UsbConfigDescriptor × Store
  | 0, _, size, config, s => (some size, [], config, s)
  | n + 1, buffer, size, config, s =>
    match s.skip configRule mem buffer size with
    | (none, s) => (none, .replicate (n + 1) .zero, config, s)
    | (some stop, s) =>
      let len := (stop - buffer).toNat
      match configExtra mem grant config buffer len s with
      | (false, config, s) => (none, .replicate (n + 1) .zero, config, s)
      | (true, config, s) =>
        match usbParseInterface mem grant .zero stop (size - len) s with
        | (none, interface, s) => (none, interface :: .replicate n .zero, config, s)
        | (some retval, interface, s) =>
          let r := parseInterfaces n (stop + retval) (size - len - retval) config s
          (r.1, interface :: r.2.1, r.2.2)

/-- `usb_parse_configuration`: the bytes that are left, or -1. -/
def usbParseConfiguration (config : UsbConfigDescriptor) (s : Store) :
    ℤ × UsbConfigDescriptor × Store :=
  let r := usbParseDescriptor mem 0 ['b', 'b', 'w', 'b', 'b', 'b', 'b', 'b']
  let config := config.fill r.1
  let s := s.look 0 r.2
  let len := config.bLength.toNat
  if usbMaxinterfaces < config.bNumInterfaces.toNat then (-1, config, s)
  else
    match s.malloc grant with
    | (none, s) => (-1, { config with interface := none }, s)
    | (some b, s) =>
      let config := { config with extra := none, extralen := 0 }
      match parseInterfaces mem grant config.bNumInterfaces.toNat len
        (config.wTotalLength.toNat - len) config s with
      | (none, interfaces, config, s) =>
        (-1, { config with interface := some (b, interfaces) }, s)
      | (some size, interfaces, config, s) =>
        (size, { config with interface := some (b, interfaces) }, s)

end Parser

/-! ### The configurations of a device -/

/-- `struct usb_device`, as far as its configurations go. -/
structure UsbDevice where
  bNumConfigurations : Byte
  config : Option (ℕ × List UsbConfigDescriptor)

/-- `usb_get_descriptor`: the result, and the buffer, with `after` around it. A device that does not
answer is an error. -/
def usbGetDescriptor (after : ℤ → Byte) (answer : Option (List Byte)) (size : ℕ) :
    ℤ × (ℤ → Byte) :=
  match answer with
  | none => (-1, writeMem after 0 (.replicate size 0))
  | some l => (min l.length size, writeMem (writeMem after 0 (.replicate size 0)) 0 (l.take size))

/-- What the device answers when it is asked for the first bytes of a configuration, and when it is
asked for all of it. -/
structure Answer where
  first : Option (List Byte)
  second : Option (List Byte)

section Fetch

variable (after : ℤ → Byte) (grant : ℕ → Bool)

/-- The body of the loop in `usb_fetch_and_parse_descriptors`, without a result at `goto err`. -/
def fetchConfiguration (answer : Answer) (s : Store) : Option UsbConfigDescriptor × Store :=
  let r := usbGetDescriptor after answer.first 8
  if r.1 < 8 then (none, s)
  else
    let config := UsbConfigDescriptor.zero.fill (usbParseDescriptor r.2 0 ['b', 'b', 'w']).1
    let size := config.wTotalLength.toNat
    match s.malloc grant with
    | (none, s) => (none, s)
    | (some bigbuffer, s) =>
      let r := usbGetDescriptor after answer.second size
      if r.1 < size then (none, { s with live := Function.update s.live bigbuffer false })
      else
        let r := usbParseConfiguration r.2 grant .zero s
        (some r.2.1, { r.2.2 with live := Function.update r.2.2.live bigbuffer false })

/-- The loop over the configurations: whether it comes to its end, and what was parsed. -/
def fetchConfigurations : List Answer → Store → Bool × List UsbConfigDescriptor × Store
  | [], s => (true, [], s)
  | answer :: answers, s =>
    match fetchConfiguration after grant answer s with
    | (none, s) => (false, [], s)
    | (some config, s) =>
      let r := fetchConfigurations answers s
      (r.1, config :: r.2.1, r.2.2)

/-- `usb_fetch_and_parse_descriptors` -/
def usbFetchAndParseDescriptors (dev : UsbDevice) (answer : ℕ → Answer) (s : Store) :
    UsbDevice × Store :=
  if usbMaxconfig < dev.bNumConfigurations.toNat then (dev, s)
  else if dev.bNumConfigurations.toNat < 1 then (dev, s)
  else
    match s.malloc grant with
    | (none, s) => ({ dev with config := none }, s)
    | (some b, s) =>
      match fetchConfigurations after grant
        ((List.range dev.bNumConfigurations.toNat).map answer) s with
      | (true, configs, s) => ({ dev with config := some (b, configs) }, s)
      | (false, _, s) =>
        ({ dev with config := none }, { s with live := Function.update s.live b false })

end Fetch

/-! ### `usb_destroy_configuration` -/

/-- The block of an array or of extra descriptors, if there is one. -/
def block {α : Type} (array : Option (ℕ × List α)) : List ℕ := (array.map Prod.fst).toList

/-- What is freed of a setting: its extra descriptors, those of its endpoints, and the endpoints. -/
def UsbInterfaceDescriptor.freed (as : UsbInterfaceDescriptor) : List ℕ :=
  block as.extra ++
    ((elements as.endpoint).take as.bNumEndpoints.toNat).flatMap (fun e => block e.extra) ++
      block as.endpoint

/-- What is freed of an interface. -/
def UsbInterface.freed (ifp : UsbInterface) : List ℕ :=
  ((elements ifp.altsetting).take ifp.numAltsetting).flatMap UsbInterfaceDescriptor.freed ++
    block ifp.altsetting

/-- What is freed of a configuration. Its own extra descriptors are not. -/
def UsbConfigDescriptor.freed (cf : UsbConfigDescriptor) : List ℕ :=
  ((elements cf.interface).take cf.bNumInterfaces.toNat).flatMap UsbInterface.freed ++
    block cf.interface

/-- What `usb_destroy_configuration` frees, in this order. -/
def UsbDevice.freed (dev : UsbDevice) : List ℕ :=
  ((elements dev.config).take dev.bNumConfigurations.toNat).flatMap UsbConfigDescriptor.freed ++
    block dev.config

/-- `usb_destroy_configuration`: the blocks that are live after it, without a result if a pointer
cannot be freed. -/
def usbDestroyConfiguration (dev : UsbDevice) (live : ℕ → Bool) : Option (ℕ → Bool) :=
  Heap.freeAll live (dev.freed.map .start)

end Usbip.Libusb0
