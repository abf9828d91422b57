import Usbip.Client.ReadLoop

/-!
# The bound on the caller's buffer

`device_loop` prepares the buffer of the URB for as many bytes as the reply says; `size`, the
length that was passed with the transfer, is not consulted. For one reply, cut into read callbacks
in any way, the bytes stay within `size` and `*ret` between -1 and `size` exactly under `Fits`
(`staysInBounds_iff`).

The rest of a reply that the loop drops goes to `dev->recv.buf`, never to a caller: `owed` counts
what is still to come of the reply, so that no further header is read within it.
-/

namespace Usbip.Client

open ListWalk Wire

namespace ReadLoop

/-- What a URB that waited in `s` has got in `t` lies within its bounds. -/
def InBounds (s t : ReadLoop) (v : Transfer) : Prop :=
  (∀ off, t.mem v.id off ≠ none → off < s.size v.id) ∧
    -1 ≤ (t.retOf v.id).toInt ∧ (t.retOf v.id).toInt ≤ s.size v.id

/-- The bytes after its header that belong to a reply. -/
def payloadSize (s : ReadLoop) (base : UsbipHeaderBasic) (rpdu : UsbipHeaderRetSubmit) : ℕ :=
  if rpdu.status ≠ 0 then 0
  else
    let direction := match s.deviceFindUrb base.seqnum with
      | none => base.direction
      | some (_, u, _) => u.urb.direction
    if direction = usbipDirIn then rpdu.actualLength.toNat else 0

/-- **The bound for one reply**: whatever part of it has arrived, and in whatever segments. -/
def StaysInBounds (s : ReadLoop) (pdu : UsbipHeader) (payload : List Byte) : Prop :=
  ∀ (chunks : List (List Byte)) (rest : List Byte) (t : ReadLoop),
    chunks.flatten ++ rest = pdu.encode ++ payload →
      readLoop.run s (chunks.map .read) = some t → ∀ v ∈ s.urbList, s.InBounds t v

/-- The reply is not for a URB, or says that it failed, or transfers no more than asked for. -/
def Fits (s : ReadLoop) (base : UsbipHeaderBasic) (rpdu : UsbipHeaderRetSubmit)
    (payload : List Byte) : Prop :=
  s.ret = none → rpdu.status = 0 → ∀ pre u post, s.deviceFindUrb base.seqnum = some (pre, u, post) →
    if u.urb.direction = usbipDirIn then payload.length ≤ s.size u.id
    else -1 ≤ rpdu.actualLength.toInt ∧ rpdu.actualLength.toInt ≤ s.size u.id

/-- What is still to come of the reply. -/
def owed (s : ReadLoop) : ℕ :=
  match s.pc with
  | .drop left => left.toNat - s.buf.length
  | .payload _ actualLength => actualLength.toNat - s.buf.length
  | _ => 0

variable {s t : ReadLoop} {u v : Transfer} {chunk rest payload : List Byte} {pdu : UsbipHeader}
  {rpdu : UsbipHeaderRetSubmit} {pre post : List Transfer}

/-- The same memory, the same bounds. -/
theorem InBounds.congr {t' : ReadLoop} (h : s.InBounds t v) (hmem : t'.mem v.id = t.mem v.id)
    (hretOf : t'.retOf v.id = t.retOf v.id) : s.InBounds t' v := by
  rw [InBounds, hmem, hretOf]
  exact h

theorem Inv.inBounds (h : s.Inv) (hv : v ∈ s.urbList) : s.InBounds s v := by
  obtain ⟨hmem, hretOf⟩ := h.owns.clean v hv
  refine ⟨fun off hoff => absurd (hmem off) hoff, ?_⟩
  have hint : (-1 : BitVec 32).toInt = -1 := by decide
  rw [hretOf, hint]
  omega

/-- After the header: what has arrived is in bounds, and what is still to come of the reply will
be. -/
structure After (s t : ReadLoop) (rest : List Byte) : Prop where
  bounds : ∀ v ∈ s.urbList, s.InBounds t v
  owed : t.pc = .exited ∨ rest.length ≤ t.owed
  payload : ∀ u actualLength, t.pc = .payload u actualLength →
    u ∈ s.urbList ∧ t.buf.length + rest.length ≤ s.size u.id

/-! ### One callback -/

theorem owed_drop {left : BitVec 32} (hpc : t.pc = .drop left) :
    t.owed = left.toNat - t.buf.length := by
  rw [owed, hpc]

theorem owed_payload {actualLength : BitVec 32} (hpc : t.pc = .payload u actualLength) :
    t.owed = actualLength.toNat - t.buf.length := by
  rw [owed, hpc]

theorem owed_header (hpc : t.pc = .header) : t.owed = 0 := by
  rw [owed, hpc]

theorem owed_dropLoop (s : ReadLoop) (left : BitVec 32) : (s.dropLoop left).owed = left.toNat := by
  unfold dropLoop
  by_cases hleft : left = 0
  · rw [if_pos hleft, hleft]
    rfl
  · rw [if_neg hleft]
    rfl

/-- A callback that leaves the memory alone and does not start a payload. -/
theorem After.quiet {t' : ReadLoop} (h : After s t (chunk ++ rest)) (hmem : t'.mem = t.mem)
    (hretOf : t'.retOf = t.retOf) (howed : t'.pc = .exited ∨ rest.length ≤ t'.owed)
    (hpc : ∀ u actualLength, t'.pc ≠ .payload u actualLength) : After s t' rest :=
  ⟨fun v hv => (h.bounds v hv).congr (congrFun hmem v.id) (congrFun hretOf v.id), howed,
    fun u actualLength hu => absurd hu (hpc u actualLength)⟩

theorem dropLoop_frame (t : ReadLoop) (left : BitVec 32) : (t.dropLoop left).mem = t.mem ∧
    (t.dropLoop left).retOf = t.retOf ∧
      ∀ u actualLength, (t.dropLoop left).pc ≠ .payload u actualLength := by
  unfold dropLoop
  split
  · exact ⟨rfl, rfl, fun _ _ hpc => ReadPc.noConfusion hpc⟩
  · exact ⟨rfl, rfl, fun _ _ hpc => ReadPc.noConfusion hpc⟩

/-- A callback in the loop that drops a payload. -/
theorem After.readCb_drop {left : BitVec 32} (h : After s t (chunk ++ rest)) (hinv : t.Inv)
    (hpc : t.pc = .drop left) (hroom : chunk.length ≤ t.room) : After s (t.readCb chunk) rest := by
  obtain ⟨hwant, hlt⟩ := (reading_drop hpc).mp hinv.reading
  have howed : (chunk ++ rest).length ≤ left.toNat - t.buf.length := by
    obtain hexit | howed := h.owed
    · rw [hpc] at hexit
      cases hexit
    · rwa [owed_drop hpc] at howed
  rw [List.length_append] at howed
  have hplace : t.place chunk = { t with buf := t.buf ++ chunk } :=
    place_of_ne_payload (by rw [current, hpc])
  by_cases hpart : chunk.length < t.room
  · rw [readCb_of_lt hpart, hplace]
    refine h.quiet rfl rfl (Or.inr ?_) fun u actualLength hu => ?_
    · rw [@owed_drop { t with buf := t.buf ++ chunk } left hpc, List.length_append]
      omega
    · exact ReadPc.noConfusion (hpc.symm.trans hu)
  · rw [readCb_of_full (by omega), hplace]
    dsimp only
    unfold resume
    by_cases hret : t.ret = none
    · rw [if_neg (not_not.mpr hret)]
      split
      · exact h.quiet rfl rfl (Or.inl rfl) fun _ _ hu => ReadPc.noConfusion hu
      · -- the next part is asked for, with what is left of the count
        dsimp only
        rw [hpc]
        dsimp only
        obtain ⟨hmem, hretOf, hnot⟩ := dropLoop_frame { t with buf := t.buf ++ chunk }
          (left - BitVec.ofNat 32 (t.buf ++ chunk).length)
        refine h.quiet hmem hretOf (Or.inr ?_) hnot
        have hleft := left.isLt
        have hlen : (t.buf ++ chunk).length = t.want := by
          unfold room at hpart hroom
          rw [List.length_append]
          omega
        rw [owed_dropLoop, hlen, BitVec.toNat_sub, BitVec.toNat_ofNat]
        unfold room at hpart hroom
        omega
    · rw [if_pos hret]
      exact h.quiet rfl rfl (Or.inl rfl) fun _ _ hu => ReadPc.noConfusion hu

/-- A callback stores within the bounds. -/
theorem After.place {actualLength : BitVec 32} (h : After s t (chunk ++ rest)) (hinv : t.Inv)
    (hpc : t.pc = .payload u actualLength) : ∀ v ∈ s.urbList, s.InBounds (t.place chunk) v := by
  intro v hv
  obtain ⟨-, hsize⟩ := h.payload u actualLength hpc
  obtain ⟨-, -, -, hmem, -⟩ := (reading_payload hpc).mp hinv.reading
  rw [List.length_append] at hsize
  by_cases hid : v.id = u.id
  · refine ⟨fun off hoff => ?_, (h.bounds v hv).2⟩
    rw [place_mem_payload hpc, hid, storeAt_length hmem] at hoff
    have hlt : off < (t.buf ++ chunk).length := by
      by_contra hge
      exact hoff (List.getElem?_eq_none (by omega))
    rw [List.length_append] at hlt
    rw [hid]
    omega
  · refine (h.bounds v hv).congr ?_ rfl
    rw [place_mem_payload hpc, storeAt_of_ne hid]

/-- A callback for a payload. -/
theorem After.readCb_payload {actualLength : BitVec 32} (h : After s t (chunk ++ rest))
    (hinv : t.Inv) (hpc : t.pc = .payload u actualLength) (hroom : chunk.length ≤ t.room) :
    After s (t.readCb chunk) rest := by
  have hplace := h.place hinv hpc
  obtain ⟨hu, hsize⟩ := h.payload u actualLength hpc
  obtain ⟨hwant, hbuf, -, -, hret⟩ := (reading_payload hpc).mp hinv.reading
  have hsame : (t.place chunk).pc = .payload u actualLength := hpc
  have howed : (chunk ++ rest).length ≤ actualLength.toNat - t.buf.length := by
    obtain hexit | howed := h.owed
    · rw [hpc] at hexit
      cases hexit
    · rwa [owed_payload hpc] at howed
  rw [List.length_append] at howed hsize
  have hle : t.buf.length ≤ t.want := by
    rcases hbuf with hlt | ⟨-, hnil⟩
    · omega
    · rw [hnil]
      exact Nat.zero_le _
  unfold room at hroom
  by_cases hpart : chunk.length < t.room
  · -- the transfer goes on
    rw [readCb_of_lt hpart]
    refine ⟨hplace, Or.inr ?_, fun u' n' hu' => ?_⟩
    · rw [owed_payload hsame]
      change rest.length ≤ actualLength.toNat - (t.buf ++ chunk).length
      rw [List.length_append]
      omega
    · obtain ⟨rfl, rfl⟩ := ReadPc.payload.inj (hsame.symm.trans hu')
      refine ⟨hu, ?_⟩
      change (t.buf ++ chunk).length + rest.length ≤ _
      rw [List.length_append]
      omega
  · unfold room at hpart
    have hfull : chunk.length = t.room := by
      unfold room
      omega
    have hlen : (t.buf ++ chunk).length = actualLength.toNat := by
      rw [List.length_append]
      omega
    by_cases hmsb : (BitVec.ofNat 32 (t.buf ++ chunk).length).msb = true
    · -- a count that is taken for an error
      have habort : t.readCb chunk = (t.place chunk).workAbort := by
        rw [readCb_of_full hfull]
        unfold resume
        have hret' : ¬ (t.place chunk).ret ≠ none := not_not.mpr hret
        rw [if_neg hret']
        exact if_pos hmsb
      rw [habort]
      exact ⟨fun v hv => (hplace v hv).congr rfl rfl, Or.inl rfl,
        fun _ _ hpc' => ReadPc.noConfusion hpc'⟩
    · -- the work of `u` ends with the number of bytes read
      rw [Bool.not_eq_true] at hmsb
      rw [ReadLoop.readCb_payload hpc hret hfull hmsb]
      rw [hlen, BitVec.ofNat_toNat, BitVec.setWidth_eq] at hmsb
      refine ⟨fun v hv => ?_, Or.inr ?_, fun _ _ hpc' => ReadPc.noConfusion hpc'⟩
      · by_cases hid : v.id = u.id
        · refine ⟨(hplace v hv).1, ?_⟩
          have hval : ((((t.place chunk).setRet u actualLength).workDone u).readHeader).retOf v.id =
              actualLength := by
            rw [hid]
            exact Function.update_self _ _ _
          rw [hval, BitVec.toInt_eq_toNat_of_msb hmsb, hid]
          omega
        · exact (hplace v hv).congr rfl (Function.update_of_ne hid _ _)
      · change rest.length ≤ 0
        omega

/-- **One callback** after the header. -/
theorem After.readCb (h : After s t (chunk ++ rest)) (hinv : t.Inv) (hopen : t.state = .opening)
    (hroom : chunk.length ≤ t.room) : After s (t.readCb chunk) rest := by
  cases hpc : t.pc with
  | header =>
    -- nothing is to come
    have hnil : chunk ++ rest = [] := by
      refine List.eq_nil_of_length_eq_zero ?_
      obtain hexit | howed := h.owed
      · rw [hpc] at hexit
        cases hexit
      · rw [owed_header hpc] at howed
        omega
    obtain ⟨rfl, rfl⟩ := List.append_eq_nil_iff.mp hnil
    have hlt : ([] : List Byte).length < t.room := by
      have hlt := ((reading_header hpc).mp hinv.reading).2
      rw [room, List.length_nil]
      omega
    rw [readCb_of_lt hlt, place_nil]
    exact h
  | drop left => exact h.readCb_drop hinv hpc hroom
  | payload u actualLength => exact h.readCb_payload hinv hpc hroom
  | exited => exact absurd hopen ((reading_exited hpc).mp hinv.reading)

/-! ### The header -/

/-- A reply that fits, from its header on. -/
theorem Inv.after_retSubmit (hinv : s.Inv) {base : UsbipHeaderBasic} (hret : s.ret = none)
    (hsize : payload.length ≤ s.payloadSize base rpdu) (hfits : s.Fits base rpdu payload) :
    After s (s.retSubmit base rpdu) payload := by
  have hfits := hfits hret
  unfold payloadSize at hsize
  unfold retSubmit
  cases hfind : s.deviceFindUrb base.seqnum with
  | none =>
    rw [hfind] at hsize
    dsimp only at hsize ⊢
    by_cases hdrop : rpdu.status = 0 ∧ base.direction = usbipDirIn
    · -- the payload is dropped, by the count in the header
      rw [if_neg (not_not.mpr hdrop.1), if_pos hdrop.2] at hsize
      rw [if_pos hdrop]
      obtain ⟨hmem, hretOf, hnot⟩ := dropLoop_frame s rpdu.actualLength
      refine ⟨fun v hv => (hinv.inBounds hv).congr (congrFun hmem _) (congrFun hretOf _),
        Or.inr ?_, fun u n hu => absurd hu (hnot u n)⟩
      rw [owed_dropLoop]
      exact hsize
    · have hzero : payload.length ≤ 0 := by
        by_cases hstatus : rpdu.status = 0
        · rwa [if_neg (not_not.mpr hstatus), if_neg fun hin => hdrop ⟨hstatus, hin⟩] at hsize
        · rwa [if_pos hstatus] at hsize
      rw [if_neg hdrop]
      exact ⟨fun v hv => (hinv.inBounds hv).congr rfl rfl, Or.inr hzero,
        fun _ _ hu => ReadPc.noConfusion hu⟩
  | some r =>
    obtain ⟨pre, u, post⟩ := r
    obtain ⟨hl, -, -⟩ := findSplit_eq_some hfind
    rw [hfind] at hsize
    dsimp only at hsize ⊢
    unfold replied
    by_cases hstatus : rpdu.status = 0
    · have hfits := hfits hstatus pre u post hfind
      rw [if_neg (not_not.mpr hstatus)] at hsize ⊢
      by_cases hin : u.urb.direction = usbipDirIn
      · -- the payload goes into the buffer of `u`
        rw [if_pos hin] at hsize hfits ⊢
        refine ⟨fun v hv => (hinv.inBounds hv).congr rfl rfl, Or.inr hsize, fun u' n hu => ?_⟩
        obtain ⟨rfl, rfl⟩ := ReadPc.payload.inj hu
        refine ⟨by rw [hl]; simp, ?_⟩
        change 0 + payload.length ≤ _
        omega
      · -- `actual_length` of an OUT transfer becomes its result as it is
        rw [if_neg hin] at hsize hfits ⊢
        refine ⟨fun v hv => ?_, Or.inr hsize, fun _ _ hu => ReadPc.noConfusion hu⟩
        by_cases hid : v.id = u.id
        · refine ⟨(hinv.inBounds hv).1, ?_⟩
          change -1 ≤ (Function.update s.retOf u.id rpdu.actualLength v.id).toInt ∧
            (Function.update s.retOf u.id rpdu.actualLength v.id).toInt ≤ _
          rw [hid, Function.update_self]
          exact hfits
        · exact (hinv.inBounds hv).congr rfl (Function.update_of_ne hid _ _)
    · -- an error: nothing follows the header
      rw [if_pos hstatus] at hsize ⊢
      exact ⟨fun v hv => (hinv.inBounds hv).congr rfl rfl, Or.inr hsize,
        fun _ _ hu => ReadPc.noConfusion hu⟩

theorem run_after {chunks : List (List Byte)} {t' : ReadLoop} (hinv : t.Inv)
    (h : After s t (chunks.flatten ++ rest)) (hrun : readLoop.run t (chunks.map .read) = some t') :
    After s t' rest := by
  induction chunks generalizing t with
  | nil =>
    obtain rfl := Option.some.inj hrun
    exact h
  | cons chunk chunks ih =>
    obtain ⟨hopen, hroom, hrun⟩ := run_read hrun
    rw [List.flatten_cons, List.append_assoc] at h
    exact ih (hinv.readCb chunk) (h.readCb hinv hopen hroom) hrun

/-- The header may come in parts as well. -/
theorem run_inBounds {chunks : List (List Byte)} {part : List Byte} (hinv : s.Inv)
    (hpc : s.pc = .header) (hu : pdu.u = .retSubmit rpdu)
    (hsize : payload.length ≤ s.payloadSize pdu.base rpdu) (hfits : s.Fits pdu.base rpdu payload)
    (hpart : part.length < UsbipHeader.size)
    (hbytes : part ++ (chunks.flatten ++ rest) = pdu.encode ++ payload)
    (hrun : readLoop.run { s with buf := part } (chunks.map .read) = some t)
    (hv : v ∈ s.urbList) : s.InBounds t v := by
  have hwant := ((reading_header hpc).mp hinv.reading).1
  -- `part` is what has been read of the header
  induction chunks generalizing part with
  | nil =>
    obtain rfl := Option.some.inj hrun
    exact (hinv.inBounds hv).congr rfl rfl
  | cons chunk chunks ih =>
    obtain ⟨-, hroom, hrun⟩ := run_read hrun
    rw [List.flatten_cons, List.append_assoc] at hbytes
    have hroom' : { s with buf := part }.room = UsbipHeader.size - part.length := by
      rw [room, hwant]
    by_cases hlt : chunk.length < { s with buf := part }.room
    · rw [@readCb_header_of_lt { s with buf := part } chunk hpc hlt] at hrun
      refine @ih (part ++ chunk) ?_ ?_ hrun
      · rw [List.length_append]
        omega
      · rw [List.append_assoc]
        exact hbytes
    · -- this chunk ends the header, and what follows belongs to the reply
      have hlen : (part ++ chunk).length = pdu.encode.length := by
        rw [List.length_append, pdu.length_encode]
        omega
      rw [← List.append_assoc] at hbytes
      obtain ⟨hhead, hrest⟩ := List.append_inj hbytes hlen
      have hinv' : { s with buf := part }.Inv :=
        ⟨⟨hinv.owns.nodup, hinv.owns.fresh, hinv.owns.unused, hinv.owns.clean, hinv.owns.result⟩,
          (@reading_header { s with buf := part } hpc).mpr ⟨hwant, by rw [hwant]; exact hpart⟩⟩
      have hafter : After s ({ s with buf := part }.readCb chunk) (chunks.flatten ++ rest) := by
        rw [hrest]
        by_cases hret : s.ret = none
        · rw [@readCb_header { s with buf := part } chunk pdu rpdu hpc hwant hret hhead hu,
            retSubmit_buf]
          exact hinv.after_retSubmit hret hsize hfits
        · -- an earlier error ends the loop here
          have hplace : { s with buf := part }.place chunk = { s with buf := part ++ chunk } :=
            place_of_ne_payload (by rw [current, hpc])
          have hret' : { s with buf := part ++ chunk }.ret ≠ none := hret
          rw [readCb_of_full (by omega), hplace, resume_of_ret hret']
          exact ⟨fun v hv => (hinv.inBounds hv).congr rfl rfl, Or.inl rfl,
            fun _ _ hu => ReadPc.noConfusion hu⟩
      exact (run_after (hinv'.readCb chunk) hafter hrun).bounds v hv

/-! ### Beyond the bound -/

theorem replied_mem (s : ReadLoop) (u : Transfer) (rpdu : UsbipHeaderRetSubmit) :
    (s.replied u rpdu).mem = s.mem := by
  unfold replied
  split
  · rfl
  · split <;> rfl

theorem retSubmit_mem (s : ReadLoop) (base : UsbipHeaderBasic) (rpdu : UsbipHeaderRetSubmit) :
    (s.retSubmit base rpdu).mem = s.mem := by
  unfold retSubmit
  cases s.deviceFindUrb base.seqnum with
  | none =>
    dsimp only
    split
    · exact (dropLoop_frame s _).1
    · rfl
  | some r => exact replied_mem _ _ _

/-- Only `read_cb` stores. -/
theorem resume_mem (s : ReadLoop) (status : BitVec 32) : (s.resume status).mem = s.mem := by
  unfold resume
  split
  · rfl
  split
  · rfl
  cases s.pc with
  | header =>
    dsimp only
    cases UsbipHeader.decode s.buf with
    | none => rfl
    | some pdu =>
      dsimp only
      cases pdu.u with
      | retSubmit rpdu => exact retSubmit_mem _ _ _
      | cmdSubmit _ => rfl
      | cmdUnlink _ => rfl
      | retUnlink _ => rfl
  | drop left => exact (dropLoop_frame s _).1
  | payload u n => rfl
  | exited => rfl

theorem readCb_mem (s : ReadLoop) (chunk : List Byte) :
    (s.readCb chunk).mem = (s.place chunk).mem := by
  unfold readCb
  split
  · rfl
  · exact resume_mem _ _

/-- The callback that ends the header, from the start of a reply. -/
theorem step_header (hopen : s.state = .opening) (hpc : s.pc = .header)
    (hwant : s.want = UsbipHeader.size) (hbuf : s.buf = []) (hret : s.ret = none)
    (hu : pdu.u = .retSubmit rpdu) :
    readLoop.step s (.read pdu.encode) = some (s.retSubmit pdu.base rpdu) := by
  have hroom : pdu.encode.length ≤ s.room := by
    rw [room, hwant, hbuf, pdu.length_encode]
    exact le_refl _
  have hhead : s.buf ++ pdu.encode = pdu.encode := by rw [hbuf, List.nil_append]
  exact (if_pos ⟨hopen, hroom⟩).trans
    (congrArg some (ReadLoop.readCb_header hpc hwant hret hhead hu))

/-- A payload that is in bounds has no more than `size` bytes. -/
theorem StaysInBounds.length_le (h : s.StaysInBounds pdu payload) (hinv : s.Inv)
    (hopen : s.state = .opening) (hpc : s.pc = .header) (hbuf : s.buf = []) (hret : s.ret = none)
    (hu : pdu.u = .retSubmit rpdu) (hstatus : rpdu.status = 0)
    (hfind : s.deviceFindUrb pdu.base.seqnum = some (pre, u, post))
    (hin : u.urb.direction = usbipDirIn) (hsize : payload.length ≤ rpdu.actualLength.toNat) :
    payload.length ≤ s.size u.id := by
  obtain ⟨hl, -, -⟩ := findSplit_eq_some hfind
  have hmem : u ∈ s.urbList := by rw [hl]; simp
  have hnext : s.retSubmit pdu.base rpdu = { s with
      urbList := pre ++ post
      pc := .payload u rpdu.actualLength
      want := rpdu.actualLength.toNat
      buf := [] } := by
    rw [retSubmit_found hfind]
    rw [replied, if_neg (not_not.mpr hstatus), if_pos hin]
    rfl
  -- the header in one callback and the payload in the next
  have hrun : readLoop.run s ([pdu.encode, payload].map .read) =
      some ((s.retSubmit pdu.base rpdu).readCb payload) := by
    have hfirst := step_header hopen hpc ((reading_header hpc).mp hinv.reading).1 hbuf hret hu
    have hsecond : readLoop.step (s.retSubmit pdu.base rpdu) (.read payload) =
        some ((s.retSubmit pdu.base rpdu).readCb payload) := by
      refine if_pos ?_
      rw [hnext]
      exact ⟨hopen, hsize⟩
    rw [List.map_cons, Machine.run_cons, hfirst, Option.bind_some, List.map_cons,
      Machine.run_cons, hsecond]
    rfl
  have hbytes : [pdu.encode, payload].flatten ++ [] = pdu.encode ++ payload := by simp
  have hbound := (h _ [] _ hbytes hrun u hmem).1
  by_contra hgt
  have hoff := hbound (s.size u.id) ?_
  · omega
  · rw [readCb_mem, hnext, place_mem_payload rfl]
    change storeAt s.mem u.id 0 payload u.id (s.size u.id) ≠ none
    rw [storeAt_zero (hinv.owns.clean u hmem).1, List.getElem?_eq_getElem (by omega)]
    exact Option.some_ne_none _

/-- The value in `*ret` of an OUT transfer is the `actual_length` of the reply. -/
theorem StaysInBounds.actualLength_le (h : s.StaysInBounds pdu payload) (hinv : s.Inv)
    (hopen : s.state = .opening) (hpc : s.pc = .header) (hbuf : s.buf = []) (hret : s.ret = none)
    (hu : pdu.u = .retSubmit rpdu) (hstatus : rpdu.status = 0)
    (hfind : s.deviceFindUrb pdu.base.seqnum = some (pre, u, post))
    (hout : u.urb.direction ≠ usbipDirIn) :
    -1 ≤ rpdu.actualLength.toInt ∧ rpdu.actualLength.toInt ≤ s.size u.id := by
  obtain ⟨hl, -, -⟩ := findSplit_eq_some hfind
  have hmem : u ∈ s.urbList := by rw [hl]; simp
  have hfirst := step_header hopen hpc ((reading_header hpc).mp hinv.reading).1 hbuf hret hu
  have hrun : readLoop.run s ([pdu.encode].map .read) = some (s.retSubmit pdu.base rpdu) := by
    rw [List.map_cons, Machine.run_cons, hfirst]
    rfl
  have hbytes : [pdu.encode].flatten ++ payload = pdu.encode ++ payload := by simp
  have hbound := (h _ payload _ hbytes hrun u hmem).2
  have hval : (s.retSubmit pdu.base rpdu).retOf u.id = rpdu.actualLength := by
    rw [retSubmit_found hfind]
    rw [replied, if_neg (not_not.mpr hstatus), if_neg hout]
    exact Function.update_self _ _ _
  rwa [hval] at hbound

/-- **The buffer bound**: from every state in which the loop waits for a header, a RET_SUBMIT and
any part of its payload stay within the bounds of the URBs that wait, however they are cut, if and
only if the reply fits. -/
theorem staysInBounds_iff (hs : readLoop.Reachable s) (hopen : s.state = .opening)
    (hpc : s.pc = .header) (hbuf : s.buf = []) (hu : pdu.u = .retSubmit rpdu)
    (hsize : payload.length ≤ s.payloadSize pdu.base rpdu) :
    s.StaysInBounds pdu payload ↔ s.Fits pdu.base rpdu payload := by
  have hinv := readLoop_inv hs
  constructor
  · intro h hret hstatus pre u post hfind
    rw [payloadSize, if_neg (not_not.mpr hstatus), hfind] at hsize
    dsimp only at hsize
    by_cases hin : u.urb.direction = usbipDirIn
    · rw [if_pos hin] at hsize ⊢
      exact h.length_le hinv hopen hpc hbuf hret hu hstatus hfind hin hsize
    · rw [if_neg hin]
      exact h.actualLength_le hinv hopen hpc hbuf hret hu hstatus hfind hin
  · intro hfits chunks rest t hbytes hrun v hv
    have hsame : ({ s with buf := [] } : ReadLoop) = s := by rw [← hbuf]
    have hstart : [] ++ (chunks.flatten ++ rest) = pdu.encode ++ payload := hbytes
    rw [← hsame] at hrun
    exact run_inBounds hinv hpc hu hsize hfits (by decide) hstart hrun hv

end ReadLoop

theorem staysInBounds_iff_oneIn :
    oneIn.StaysInBounds (retSubmitHeader 0 0 2) [7, 9] ↔
      oneIn.Fits (retSubmitHeader 0 0 2).base ⟨0, 2, 0, 0, 0⟩ [7, 9] :=
  ReadLoop.staysInBounds_iff oneIn_reachable rfl rfl rfl rfl (by decide)

/-- **A reply of three bytes to a transfer of two** is stored beyond the end of the buffer, and
`*ret` exceeds its size. -/
theorem longReply_out_of_bounds : readLoop.Reachable oneIn ∧
    ¬ oneIn.StaysInBounds (retSubmitHeader 0 0 3) [7, 9, 11] ∧
    (readLoop.run oneIn [.read (retSubmitHeader 0 0 3).encode, .read [7, 9, 11]]).map
      (fun t => (t.mem 0 2, t.retOf 0)) = some (some 11, 3) := by
  refine ⟨oneIn_reachable, fun h => ?_, by decide⟩
  have hle : 3 ≤ 2 := @ReadLoop.StaysInBounds.length_le oneIn ⟨0, ⟨0, usbipDirIn, true⟩⟩ [7, 9, 11]
    (retSubmitHeader 0 0 3) ⟨0, 3, 0, 0, 0⟩ [] [] h (readLoop_inv oneIn_reachable) rfl rfl rfl rfl
    rfl rfl rfl rfl (by decide)
  omega

end Usbip.Client
