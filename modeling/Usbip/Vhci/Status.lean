import Usbip.Lib.Scan
import Usbip.Client.DeviceList
import Usbip.Vhci.Enqueue

/-!
# The status file of the ports

`show_status` writes a line for each port into a file of sysfs, and `parse_status` of the userspace
tools reads it. A port in use has a line with its speed, device id, socket and bus id. Every other
port has a line with zeros, in which there is one number more, so that what is read as its bus id is
the zeros meant for the socket.

`parse_status` looks up the device of each port that is neither `VDEV_ST_NULL` nor
`VDEV_ST_NOTASSIGNED`. `roundTrips_iff` says when all ports are recovered: a port in the error state
makes the parse fail, as there is no device to look up, and the device id of a port that is not in
use is lost.
-/

namespace Usbip.Vhci

open Scan Client

/-- The bytes of a text. -/
def ascii (s : String) : List Byte := s.toList.map fun c => BitVec.ofNat 8 c.toNat

/-! ### `show_status` -/

/-- The number of a status in `enum usbip_status`. -/
def VdevStatus.number : VdevStatus → ℕ
  | .null => 4
  | .notAssigned => 5
  | .used => 6
  | .error => 7

/-- What `show_status` reads of a `vhci_device`: the digits that are printed for the socket, and the
name of the USB device. -/
structure VhciDevice where
  status : VdevStatus
  speed : BitVec 32
  devid : BitVec 32
  socket : List Byte
  busid : List Byte
  socket_ok : socket ≠ [] ∧ ∀ c ∈ socket, isDigit 16 c
  busid_ok : busid ≠ [] ∧ ∀ c ∈ busid, isSpace c = false ∧ c ≠ 0
  busid_lt : busid.length < 32

/-- The end of a line. -/
def newline : Byte := 0x0a

/-- The line of port `i`, up to its end. -/
def showPort (i : ℕ) (vdev : VhciDevice) : List Byte :=
  (numeral 10 i).leftpad 3 0x30 ++ ascii " " ++ (numeral 10 vdev.status.number).leftpad 3 0x30 ++
    ascii " " ++
    if vdev.status = .used then
      (numeral 10 vdev.speed.toNat).leftpad 3 0x30 ++ ascii " " ++
        (numeral 16 vdev.devid.toNat).leftpad 8 0x30 ++ ascii " " ++
        vdev.socket.leftpad 16 0x20 ++ ascii " " ++ vdev.busid
    else ascii "000 000 000 0000000000000000 0-0"

/-- The lines from port `i` on. -/
def showLines (i : ℕ) : List VhciDevice → List Byte
  | [] => []
  | vdev :: vdevs => showPort i vdev ++ newline :: showLines (i + 1) vdevs

/-- `show_status` -/
def showStatus (vdevs : Fin vhciNports → VhciDevice) : List Byte :=
  ascii "prt sta spd bus dev socket           local_busid" ++ [newline] ++
    showLines 0 (List.ofFn vdevs)

/-! ### `parse_status` -/

/-- What is read from a line. The array for the bus id is as it was if there is no word for it. -/
structure StatusLine where
  port : ℤ
  status : ℤ
  speed : ℤ
  devid : ℤ
  socket : ℤ
  lbusid : Option (List Byte)

/-- `sscanf(c, "%d %d %d %x %lx %s\n", ..)`, where five conversions are enough. -/
def scanLine (c : List Byte) : Option StatusLine := do
  let (port, c) ← scanInt c
  let (status, c) ← scanInt (skipSpace c)
  let (speed, c) ← scanInt (skipSpace c)
  let (devid, c) ← scanHex (skipSpace c)
  let (socket, c) ← scanHex (skipSpace c)
  some ⟨port, status, speed, devid, socket, (scanWord (skipSpace c)).map Prod.fst⟩

/-- `struct usbip_imported_device`, with the bus id of its `udev`. -/
structure ImportedDevice where
  port : BitVec 8
  status : BitVec 32
  devid : BitVec 32
  busnum : BitVec 8
  devnum : BitVec 8
  busid : List Byte

/-- What `memset` leaves. -/
def ImportedDevice.zero : ImportedDevice := ⟨0, 0, 0, 0, 0, List.replicate 32 0⟩

/-- The device of a line. `openDevice` looks up a bus id in sysfs, and returns the name of the
device that it finds. -/
def storeDevice (openDevice : List Byte → Option (List Byte)) (x : StatusLine)
    (idev : ImportedDevice) : Option ImportedDevice :=
  let devid := BitVec.ofInt 32 x.devid
  let status := BitVec.ofInt 32 x.status
  let idev : ImportedDevice :=
    { idev with
      port := BitVec.ofInt 8 x.port
      status := status
      devid := devid
      busnum := (devid.sshiftRight 16).setWidth 8
      devnum := (devid &&& 0xffff).setWidth 8 }
  if status ≠ .ofNat 32 VdevStatus.null.number ∧
      status ≠ .ofNat 32 VdevStatus.notAssigned.number then
    (x.lbusid.bind openDevice).map fun name => { idev with busid := strncpy idev.busid name 32 }
  else some idev

/-- How `parse_status` ends: with 0, with -1, or with `BUG()`. -/
inductive Parsed
  | ok (idevs : ℤ → ImportedDevice)
  | failed
  | bug

/-- The lines of `parse_status`. -/
def parseLines (openDevice : List Byte → Option (List Byte)) (c : List Byte)
    (idevs : ℤ → ImportedDevice) : Parsed :=
  if _ : c = [] then .ok idevs
  else
    match scanLine c with
    | none => .bug
    | some x =>
      match storeDevice openDevice x (idevs x.port) with
      | none => .failed
      | some idev =>
        match strchr newline c with
        | none => .ok (Function.update idevs x.port idev)
        | some n => parseLines openDevice (c.drop (n + 1)) (Function.update idevs x.port idev)
termination_by c.length
decreasing_by
  have := List.length_pos_iff.mpr ‹¬ c = []›
  rw [List.length_drop]
  omega

/-- `parse_status` -/
def parseStatus (openDevice : List Byte → Option (List Byte)) (value : List Byte) : Parsed :=
  match strchr newline value with
  | none => .failed
  | some n => parseLines openDevice (value.drop (n + 1)) fun _ => .zero

/-! ### The round trip -/

/-- The devices of sysfs are those of the ports in use. -/
structure Sysfs (vdevs : Fin vhciNports → VhciDevice) where
  openDevice : List Byte → Option (List Byte)
  opens : ∀ busid, (openDevice busid).isSome ↔
    ∃ i, (vdevs i).status = .used ∧ (vdevs i).busid = busid
  name : ∀ busid name, openDevice busid = some name → name = busid

/-- A port as it is known from the file. -/
structure Recovered (i : ℕ) (vdev : VhciDevice) (idev : ImportedDevice) : Prop where
  port : idev.port.toNat = i
  status : idev.status.toNat = vdev.status.number
  devid : idev.devid = vdev.devid
  busnum : idev.busnum = (vdev.devid >>> 16).setWidth 8
  devnum : idev.devnum = vdev.devid.setWidth 8
  busid : vdev.status = .used → cString idev.busid = vdev.busid

/-- The file is accepted, and all ports are recovered. -/
def RoundTrips (vdevs : Fin vhciNports → VhciDevice) (sysfs : Sysfs vdevs) : Prop :=
  ∃ idevs, parseStatus sysfs.openDevice (showStatus vdevs) = .ok idevs ∧
    ∀ i : Fin vhciNports, Recovered i (vdevs i) (idevs i)

/-- What is read as the bus id of a port that is not in use. -/
def noBusid : List Byte := List.replicate 16 0x30

/-- The line of a port, as it is read. -/
def lineOf (i : ℕ) (vdev : VhciDevice) : StatusLine :=
  if vdev.status = .used then
    ⟨i, vdev.status.number, vdev.speed.toNat, vdev.devid.toNat, value 16 vdev.socket,
      some vdev.busid⟩
  else ⟨i, vdev.status.number, 0, 0, 0, some noBusid⟩

section Lines

variable {openDevice : List Byte → Option (List Byte)} {idevs : ℤ → ImportedDevice}
variable {rest : List Byte} {i : ℕ} {vdev : VhciDevice}

/-- The line of a port that is not in use, with the fields as they are read. -/
theorem ascii_noDevice : ascii "000 000 000 0000000000000000 0-0" =
    (numeral 10 0).leftpad 3 0x30 ++ 0x20 :: ((numeral 16 0).leftpad 3 0x30 ++
      0x20 :: ((numeral 16 0).leftpad 3 0x30 ++ 0x20 :: (noBusid ++ 0x20 :: ascii "0-0"))) := by
  decide

theorem ascii_space : ascii " " = [0x20] := by decide

theorem blank_space (l : List Byte) : Blank (0x20 :: l) := fun _ hc => Option.some.inj hc ▸ rfl

theorem blank_newline (l : List Byte) : Blank (newline :: l) := fun _ hc => Option.some.inj hc ▸ rfl

/-- A decimal number of a line. -/
theorem scanInt_field (w n : ℕ) (hrest : Blank rest) :
    scanInt ((numeral 10 n).leftpad w 0x30 ++ rest) = some ((n : ℤ), rest) := by
  have hscan := scanInt_append (l := []) nofun
    (isDigit_leftpad (by decide) (isDigit_numeral (by decide) (by decide) n) w)
    (by simp [List.leftpad, numeral_ne_nil]) hrest
  rwa [value_leftpad, value_numeral (by decide) (by decide)] at hscan

/-- A hexadecimal number of a line. -/
theorem scanHex_field (w n : ℕ) (hrest : Blank rest) :
    scanHex ((numeral 16 n).leftpad w 0x30 ++ rest) = some ((n : ℤ), rest) := by
  have hscan := scanHex_append (l := []) nofun
    (isDigit_leftpad (by decide) (isDigit_numeral (by decide) (by decide) n) w)
    (by simp [List.leftpad, numeral_ne_nil]) hrest
  rwa [value_leftpad, value_numeral (by decide) (by decide)] at hscan

/-- A line with six fields. -/
theorem scanLine_of_fields {c₀ c₁ c₂ c₃ c₄ c₅ c₆ word : List Byte}
    {port status speed devid socket : ℤ}
    (h₀ : scanInt c₀ = some (port, 0x20 :: c₁)) (h₁ : scanInt c₁ = some (status, 0x20 :: c₂))
    (h₂ : scanInt c₂ = some (speed, 0x20 :: c₃)) (h₃ : scanHex c₃ = some (devid, 0x20 :: c₄))
    (h₄ : scanHex c₄ = some (socket, 0x20 :: c₅)) (h₅ : scanWord c₅ = some (word, c₆)) :
    scanLine c₀ = some ⟨port, status, speed, devid, socket, some word⟩ := by
  have hspace : isSpace 0x20 := rfl
  rw [← scanInt_skipSpace hspace] at h₁ h₂
  rw [← scanHex_skipSpace hspace] at h₃ h₄
  rw [← scanWord_skipSpace hspace] at h₅
  simp only [scanLine, h₀, h₁, h₂, h₃, h₄, h₅, Option.bind_eq_bind, Option.bind_some,
    Option.map_some]

/-- The line is read as it was written, or with the zeros one field further on. -/
theorem scanLine_showPort (i : ℕ) (vdev : VhciDevice) (rest : List Byte) :
    scanLine (showPort i vdev ++ newline :: rest) = some (lineOf i vdev) := by
  rw [showPort, lineOf, ascii_space]
  by_cases hused : vdev.status = .used
  · have hsocket : scanHex (vdev.socket.leftpad 16 0x20 ++
        0x20 :: (vdev.busid ++ newline :: rest)) = some ((value 16 vdev.socket : ℤ),
          0x20 :: (vdev.busid ++ newline :: rest)) := by
      rw [List.leftpad, List.append_assoc]
      exact scanHex_append (fun c hc => (List.mem_replicate.mp hc).2 ▸ rfl) vdev.socket_ok.2
        vdev.socket_ok.1 (blank_space _)
    have hbusid : scanWord (vdev.busid ++ newline :: rest) = some (vdev.busid, newline :: rest) :=
      scanWord_append (l := []) nofun (fun c hc => (vdev.busid_ok.2 c hc).1) vdev.busid_ok.1
        (blank_newline rest)
    rw [if_pos hused, if_pos hused]
    simp only [List.append_assoc, List.cons_append, List.nil_append]
    exact scanLine_of_fields (scanInt_field 3 i (blank_space _)) (scanInt_field 3 _ (blank_space _))
      (scanInt_field 3 _ (blank_space _)) (scanHex_field 8 _ (blank_space _)) hsocket hbusid
  · have hbusid : scanWord (noBusid ++ 0x20 :: (ascii "0-0" ++ newline :: rest)) =
        some (noBusid, 0x20 :: (ascii "0-0" ++ newline :: rest)) :=
      scanWord_append (l := []) (w := noBusid) nofun (by decide) (by decide) (blank_space _)
    rw [if_neg hused, if_neg hused, ascii_noDevice]
    simp only [List.append_assoc, List.nil_append, List.cons_append]
    exact scanLine_of_fields (scanInt_field 3 i (blank_space _)) (scanInt_field 3 _ (blank_space _))
      (scanInt_field 3 0 (blank_space _)) (scanHex_field 3 0 (blank_space _))
      (scanHex_field 3 0 (blank_space _)) hbusid

/-- There is no end of line in a line. -/
theorem newline_not_mem_showPort (i : ℕ) (vdev : VhciDevice) : newline ∉ showPort i vdev := by
  have hfield : ∀ b w n, 2 ≤ b → b ≤ 16 → newline ∉ (numeral b n).leftpad w 0x30 := by
    intro b w n hb hb' hmem
    have hdigit := isDigit_leftpad (by omega) (isDigit_numeral hb hb' n) w _ hmem
    exact absurd (not_isSpace_of_isDigit hb' hdigit).1 (by decide)
  have hsocket : newline ∉ vdev.socket.leftpad 16 0x20 := by
    intro hmem
    rcases List.mem_append.mp hmem with hmem | hmem
    · exact absurd (List.mem_replicate.mp hmem).2 (by decide)
    · exact absurd (not_isSpace_of_isDigit le_rfl (vdev.socket_ok.2 _ hmem)).1 (by decide)
  have hbusid : newline ∉ vdev.busid := fun hmem =>
    absurd (vdev.busid_ok.2 _ hmem).1 (by decide)
  have hspace : newline ∉ ascii " " := by decide
  have hnone : newline ∉ ascii "000 000 000 0000000000000000 0-0" := by decide
  rw [showPort]
  split <;> simp only [List.mem_append, not_or]
  · exact ⟨⟨⟨⟨hfield 10 3 _ (by decide) (by decide), hspace⟩,
      hfield 10 3 _ (by decide) (by decide)⟩, hspace⟩,
      ⟨⟨⟨⟨⟨hfield 10 3 _ (by decide) (by decide), hspace⟩,
        hfield 16 8 _ (by decide) (by decide)⟩, hspace⟩, hsocket⟩, hspace⟩, hbusid⟩
  · exact ⟨⟨⟨⟨hfield 10 3 _ (by decide) (by decide), hspace⟩,
      hfield 10 3 _ (by decide) (by decide)⟩, hspace⟩, hnone⟩

/-- One line of the file. -/
theorem parseLines_showPort (openDevice : List Byte → Option (List Byte)) (i : ℕ)
    (vdev : VhciDevice) (rest : List Byte) (idevs : ℤ → ImportedDevice) :
    parseLines openDevice (showPort i vdev ++ newline :: rest) idevs =
      match storeDevice openDevice (lineOf i vdev) (idevs i) with
      | none => .failed
      | some idev => parseLines openDevice rest (Function.update idevs i idev) := by
  have hport : (lineOf i vdev).port = i := by
    rw [lineOf]
    split <;> rfl
  have hnext : strchr newline (showPort i vdev ++ newline :: rest) =
      some (showPort i vdev).length := by
    rw [strchr_append (newline_not_mem_showPort i vdev), strchr_self, Option.map_some, Nat.zero_add]
  rw [parseLines, dif_neg (by simp), scanLine_showPort]
  dsimp only
  rw [hport, hnext]
  cases storeDevice openDevice (lineOf i vdev) (idevs i) with
  | none => rfl
  | some idev =>
    dsimp only
    rw [List.append_cons, List.drop_left' (by simp)]

end Lines

/-! ### All lines -/

/-- The bus id that is looked up for a port. -/
def lookup (vdev : VhciDevice) : List Byte := if vdev.status = .used then vdev.busid else noBusid

/-- The line of a port is accepted. -/
def Accepted (openDevice : List Byte → Option (List Byte)) (vdev : VhciDevice) : Prop :=
  vdev.status = .used ∨ vdev.status = .error → (openDevice (lookup vdev)).isSome

/-- The device id that is in the line of a port. -/
def shownDevid (vdev : VhciDevice) : BitVec 32 := if vdev.status = .used then vdev.devid else 0

section Store

variable {openDevice : List Byte → Option (List Byte)} {idev : ImportedDevice}
variable {i : ℕ} {vdev : VhciDevice}

theorem lineOf_eq (i : ℕ) (vdev : VhciDevice) : ∃ speed socket, lineOf i vdev =
    ⟨i, vdev.status.number, speed, (shownDevid vdev).toNat, socket, some (lookup vdev)⟩ := by
  rw [lineOf, shownDevid, lookup]
  split
  · exact ⟨_, _, rfl⟩
  · exact ⟨_, _, rfl⟩

/-- What `storeDevice` makes of the line of a port. -/
theorem storeDevice_lineOf (openDevice : List Byte → Option (List Byte)) (i : ℕ)
    (vdev : VhciDevice) (idev : ImportedDevice) :
    storeDevice openDevice (lineOf i vdev) idev =
      if vdev.status = .used ∨ vdev.status = .error then
        (openDevice (lookup vdev)).map fun name =>
          ⟨.ofInt 8 i, .ofNat 32 vdev.status.number, shownDevid vdev,
            ((shownDevid vdev).sshiftRight 16).setWidth 8,
            (shownDevid vdev &&& 0xffff).setWidth 8, strncpy idev.busid name 32⟩
      else some ⟨.ofInt 8 i, .ofNat 32 vdev.status.number, shownDevid vdev,
        ((shownDevid vdev).sshiftRight 16).setWidth 8,
        (shownDevid vdev &&& 0xffff).setWidth 8, idev.busid⟩ := by
  obtain ⟨speed, socket, hline⟩ := lineOf_eq i vdev
  have hdevid : BitVec.ofInt 32 ((shownDevid vdev).toNat : ℤ) = shownDevid vdev := by simp
  rw [hline, storeDevice]
  dsimp only
  rw [hdevid]
  cases vdev.status <;> simp [VdevStatus.number]

/-- A string that is shorter than the array is copied as it is. -/
theorem cString_strncpy_of_lt {src : List Byte} {n : ℕ} (hsrc : ∀ b ∈ src, b ≠ 0)
    (hlt : src.length < n) (dst : List Byte) : cString (strncpy dst src n) = src := by
  have hall : ∀ b ∈ src, decide (b ≠ 0) = true := fun b hb => decide_eq_true (hsrc b hb)
  have hcopy : cString src = src := List.takeWhile_eq_self_iff.mpr hall
  obtain ⟨k, hk⟩ : ∃ k, n - src.length = k + 1 := ⟨n - src.length - 1, by omega⟩
  rw [strncpy, List.take_of_length_le hlt.le, hcopy, hk, List.replicate_succ, List.append_assoc,
    List.cons_append, cString, List.takeWhile_append_of_pos hall,
    List.takeWhile_cons_of_neg (by simp), List.append_nil]

/-- Of a port in use everything is recovered, of another one everything but the device id. -/
theorem recovered_iff {idev' : ImportedDevice} (hi : i < vhciNports)
    (hname : ∀ busid name, openDevice busid = some name → name = busid)
    (h : storeDevice openDevice (lineOf i vdev) idev = some idev') :
    Recovered i vdev idev' ↔ (vdev.status ≠ .used → vdev.devid = 0) := by
  have hshown : shownDevid vdev = vdev.devid ↔ (vdev.status ≠ .used → vdev.devid = 0) := by
    rw [shownDevid]
    split
    next hused => exact iff_of_true rfl fun hne => absurd hused hne
    next hused => exact ⟨fun h _ => h.symm, fun h => (h hused).symm⟩
  have hfields : idev'.port = .ofInt 8 i ∧ idev'.status = .ofNat 32 vdev.status.number ∧
      idev'.devid = shownDevid vdev ∧
      idev'.busnum = ((shownDevid vdev).sshiftRight 16).setWidth 8 ∧
      idev'.devnum = (shownDevid vdev &&& 0xffff).setWidth 8 ∧
      (vdev.status = .used → cString idev'.busid = vdev.busid) := by
    rw [storeDevice_lineOf] at h
    split at h
    next hopen =>
      obtain ⟨name, hfound, rfl⟩ := Option.map_eq_some_iff.mp h
      refine ⟨rfl, rfl, rfl, rfl, rfl, fun hused => ?_⟩
      rw [hname _ _ hfound, lookup, if_pos hused]
      exact cString_strncpy_of_lt (fun b hb => (vdev.busid_ok.2 b hb).2) vdev.busid_lt _
    next hopen =>
      obtain rfl := Option.some.inj h
      exact ⟨rfl, rfl, rfl, rfl, rfl, fun hused => absurd (.inl hused) hopen⟩
  obtain ⟨hport, hstatus, hdevid, hbusnum, hdevnum, hbusid⟩ := hfields
  rw [← hshown]
  refine ⟨fun hr => hdevid.symm.trans hr.devid, fun heq => ⟨?_, ?_, ?_, ?_, ?_, hbusid⟩⟩
  · rw [hport, BitVec.ofInt_natCast, BitVec.toNat_ofNat, Nat.mod_eq_of_lt]
    exact hi.trans (by decide)
  · rw [hstatus]
    cases vdev.status <;> rfl
  · rw [hdevid, heq]
  · rw [hbusnum, heq]
    ext j hj
    rw [BitVec.getElem_setWidth, BitVec.getElem_setWidth, BitVec.getLsbD_sshiftRight,
      BitVec.getLsbD_ushiftRight, if_pos (by omega)]
    simp
    omega
  · have hmask : (0xffff : BitVec 32).setWidth 8 = BitVec.allOnes 8 := rfl
    rw [hdevnum, heq, BitVec.setWidth_and, hmask, BitVec.and_allOnes]

end Store

section All

variable {openDevice : List Byte → Option (List Byte)} {vdevs : List VhciDevice}

theorem isSome_storeDevice_iff (openDevice : List Byte → Option (List Byte)) (i : ℕ)
    (vdev : VhciDevice) (idev : ImportedDevice) :
    (storeDevice openDevice (lineOf i vdev) idev).isSome ↔ Accepted openDevice vdev := by
  rw [storeDevice_lineOf, Accepted]
  split
  next h =>
    rw [Option.isSome_map]
    exact ⟨fun hs _ => hs, fun hs => hs h⟩
  next h => exact iff_of_true rfl fun h' => absurd h' h

/-- A line that is not accepted makes the parse fail. -/
theorem parseLines_eq_failed (h : ∃ vdev ∈ vdevs, ¬ Accepted openDevice vdev) (i : ℕ)
    (idevs : ℤ → ImportedDevice) : parseLines openDevice (showLines i vdevs) idevs = .failed := by
  induction vdevs generalizing i idevs with
  | nil => exact absurd h (by simp)
  | cons vdev vdevs ih =>
    rw [showLines, parseLines_showPort]
    have hsome := isSome_storeDevice_iff openDevice i vdev (idevs i)
    cases hstore : storeDevice openDevice (lineOf i vdev) (idevs i) with
    | none => rfl
    | some idev =>
      rw [hstore] at hsome
      obtain ⟨x, hx, hno⟩ := h
      rcases List.mem_cons.mp hx with rfl | hx
      · exact absurd (hsome.mp rfl) hno
      · exact ih ⟨x, hx, hno⟩ _ _

/-- Otherwise each line is stored at its port. -/
theorem exists_parseLines (h : ∀ vdev ∈ vdevs, Accepted openDevice vdev) (i : ℕ)
    (idevs : ℤ → ImportedDevice) :
    ∃ idevs', parseLines openDevice (showLines i vdevs) idevs = .ok idevs' ∧
      (∀ j (hj : j < vdevs.length), ∃ idev,
        storeDevice openDevice (lineOf (i + j) vdevs[j]) idev = some (idevs' ((i + j : ℕ) : ℤ))) ∧
      ∀ k : ℤ, k < i → idevs' k = idevs k := by
  induction vdevs generalizing i idevs with
  | nil =>
    refine ⟨idevs, ?_, nofun, fun _ _ => rfl⟩
    rw [showLines, parseLines, dif_pos rfl]
  | cons vdev vdevs ih =>
    obtain ⟨idev, hstore⟩ := Option.isSome_iff_exists.mp
      ((isSome_storeDevice_iff openDevice i vdev (idevs i)).mpr (h vdev List.mem_cons_self))
    obtain ⟨idevs', hparse, hstored, hkept⟩ := ih (fun x hx => h x (List.mem_cons_of_mem vdev hx))
      (i + 1) (Function.update idevs i idev)
    refine ⟨idevs', ?_, fun j hj => ?_, fun k hk => ?_⟩
    · rw [showLines, parseLines_showPort, hstore]
      exact hparse
    · cases j with
      | zero =>
        refine ⟨idevs i, ?_⟩
        rw [Nat.add_zero, hkept i (by omega), Function.update_self]
        exact hstore
      | succ j =>
        obtain ⟨old, hold⟩ := hstored j (by simpa using hj)
        refine ⟨old, ?_⟩
        rw [show i + (j + 1) = i + 1 + j by omega]
        exact hold
    · rw [hkept k (by omega), Function.update_of_ne (by omega)]

/-- The header is skipped. -/
theorem parseStatus_showStatus (openDevice : List Byte → Option (List Byte))
    (vdevs : Fin vhciNports → VhciDevice) : parseStatus openDevice (showStatus vdevs) =
      parseLines openDevice (showLines 0 (List.ofFn vdevs)) fun _ => .zero := by
  have hheader : strchr newline (showStatus vdevs) =
      some (ascii "prt sta spd bus dev socket           local_busid").length := by
    rw [showStatus, List.append_assoc, strchr_append (by decide), List.singleton_append,
      strchr_self, Option.map_some, Nat.zero_add]
  rw [parseStatus, hheader]
  dsimp only
  rw [showStatus, List.drop_left' (by simp)]

end All

/-- **When the status file makes the round trip.** It does if and only if no port that is not in use
has a device id, and no port is in the error state, unless a device in use happens to be called
`0000000000000000`. -/
theorem roundTrips_iff (vdevs : Fin vhciNports → VhciDevice) (sysfs : Sysfs vdevs) :
    RoundTrips vdevs sysfs ↔ ∀ i, ((vdevs i).status ≠ .used → (vdevs i).devid = 0) ∧
      ((vdevs i).status = .error →
        ∃ j, (vdevs j).status = .used ∧ (vdevs j).busid = noBusid) := by
  have haccepted : (∀ vdev ∈ List.ofFn vdevs, Accepted sysfs.openDevice vdev) ↔
      ∀ i, (vdevs i).status = .error →
        ∃ j, (vdevs j).status = .used ∧ (vdevs j).busid = noBusid := by
    rw [List.forall_mem_ofFn_iff]
    refine forall_congr' fun i => ?_
    rw [Accepted, sysfs.opens, lookup]
    refine ⟨fun h herror => ?_, fun h hopen => ?_⟩
    · rw [herror] at h
      simpa using h
    · split
      next hused => exact ⟨i, hused, rfl⟩
      next hused => exact h (hopen.resolve_left hused)
  rw [RoundTrips, parseStatus_showStatus, forall_and, ← haccepted]
  by_cases hall : ∀ vdev ∈ List.ofFn vdevs, Accepted sysfs.openDevice vdev
  · obtain ⟨idevs, hok, hstored, -⟩ := exists_parseLines hall 0 fun _ => .zero
    have hrecovered : ∀ i : Fin vhciNports, Recovered i (vdevs i) (idevs i) ↔
        ((vdevs i).status ≠ .used → (vdevs i).devid = 0) := by
      intro i
      obtain ⟨old, hold⟩ := hstored i (by simp)
      rw [List.getElem_ofFn, Nat.zero_add] at hold
      exact recovered_iff i.isLt sysfs.name hold
    rw [and_iff_left hall, hok]
    refine ⟨fun ⟨idevs', heq, hr⟩ i => ?_, fun h => ⟨idevs, rfl, fun i => (hrecovered i).mpr (h i)⟩⟩
    obtain rfl := Parsed.ok.inj heq
    exact (hrecovered i).mp (hr i)
  · refine iff_of_false ?_ fun h => hall h.2
    rintro ⟨idevs, hok, -⟩
    simp only [not_forall, exists_prop] at hall
    rw [parseLines_eq_failed hall] at hok
    cases hok

/-- A port that has no device. -/
private def unusedPort (status : VdevStatus) : VhciDevice where
  status := status
  speed := 0
  devid := 0
  socket := [0x31]
  busid := [0x31]
  socket_ok := by decide
  busid_ok := by decide
  busid_lt := by decide

/-- The first port is in the error state, and nothing is attached to the others. -/
private def portError (i : Fin vhciNports) : VhciDevice :=
  if i.val = 0 then unusedPort .error else unusedPort .null

private def noDevices : Sysfs portError where
  openDevice _ := none
  opens busid := by
    refine iff_of_false Bool.false_ne_true ?_
    rintro ⟨i, hused, -⟩
    revert i
    decide
  name _ _ h := nomatch h

theorem not_roundTrips_error : ¬ RoundTrips portError noDevices := by
  rintro ⟨idevs, hok, -⟩
  have hno : ¬ Accepted noDevices.openDevice (unusedPort .error) := fun h =>
    Bool.false_ne_true (h (.inr rfl))
  rw [parseStatus_showStatus, parseLines_eq_failed ⟨unusedPort .error, ?_, hno⟩] at hok
  · cases hok
  · exact List.mem_ofFn.mpr ⟨⟨0, by decide⟩, rfl⟩

end Usbip.Vhci
