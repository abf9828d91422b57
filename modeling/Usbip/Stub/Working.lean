import Usbip.Stub.Settled

/-!
# A healthy device

What the server side keeps to as long as nothing fails: allocations, submissions and writes
succeed, nobody kills a URB, and no CMD_UNLINK for an entry of `priv_tx` is processed between the
two loops of the transmit thread (`Healthy`). Then

* `Heard`: the requests received are those of the history, followed by those that wait to be read;
* `Working`: no event has happened, both threads run, and each entry of `priv_init` belongs to a URB
  that is about to be submitted or in flight;
* `Conversions`: an entry that has been taken over by a CMD_UNLINK carries its number;
* `Freed`: the records whose replies are written are freed before the transmit thread waits.

`ServerInv` is all that such a device keeps, for the requests received so far. More requests may
arrive at any time (`ServerInv.feed`).
-/

namespace Usbip.Stub

open ListWalk Trace

/-- A request that `valid_request` and the command switch let pass. -/
def Request.valid : Request → Prop
  | .invalid => False
  | _ => True

/-- The request behind an event of the receive thread. -/
@[simp] def StubEvent.request : StubEvent → Option Request
  | .cmdSubmit q => some (.cmdSubmit q)
  | .cmdUnlink q t => some (.cmdUnlink q t)
  | _ => none

/-- No failure, and no CMD_UNLINK out of order. -/
def Healthy (s : StubDevice) : Act → Prop
  | .rxPdu alloc => alloc = true ∧ UnlinkInOrder s (.rxPdu alloc)
  | .rxBuild ok | .rxSubmit ok | .txSendSubmit ok | .txSendUnlink ok => ok = true
  | .complete _ status alloc => alloc = true ∧ status ≠ enoent
  | _ => True

instance (s : StubDevice) (a : Act) : Decidable (Healthy s a) := by
  induction a using Act.casesOn <;> dsimp only [Healthy] <;> infer_instance

namespace Healthy

variable {s : StubDevice} {a : Act}

theorem allocated (h : Healthy s a) : Allocated s a := by
  cases a with
  | rxPdu alloc => exact h.1
  | complete id status alloc => exact h.1
  | _ => trivial

theorem inOrder (h : Healthy s a) : UnlinkInOrder s a := by
  cases a with
  | rxPdu alloc => exact h.2
  | _ => trivial

end Healthy

/-! ### The requests received -/

/-- The requests are those read so far, in order, and those that wait. All are valid. -/
structure Heard (requests : List Request) (s : StubDevice) : Prop where
  read : requests = s.log.filterMap StubEvent.request ++ s.input
  valid : ∀ r ∈ requests, r.valid

namespace Heard

variable {requests : List Request} {s s' : StubDevice}

/-- A step that reads nothing. -/
theorem emit (h : Heard requests s) {events : List StubEvent} (hlog : s'.log = s.log ++ events)
    (hin : s'.input = s.input) (hnone : events.filterMap StubEvent.request = []) :
    Heard requests s' :=
  ⟨by rw [hlog, hin, List.filterMap_append, hnone, List.append_nil]; exact h.read, h.valid⟩

/-- A step that reads a request. -/
theorem next (h : Heard requests s) {r : Request} {rest : List Request} {events : List StubEvent}
    (hin : s.input = r :: rest) (hlog : s'.log = s.log ++ events) (hin' : s'.input = rest)
    (hone : events.filterMap StubEvent.request = [r]) : Heard requests s' :=
  ⟨by rw [hlog, hin', List.filterMap_append, hone, h.read, hin]; simp, h.valid⟩

/-- Every step of a healthy device. -/
theorem step (h : Heard requests s) {a : Act} (hok : Healthy s a) (hs : s.step a = some s') :
    Heard requests s' := by
  cases StubDevice.moves_of_step hs with
  | cmdSubmit hrx hin alloc =>
    obtain ⟨rfl, -⟩ := hok
    exact h.next hin rfl rfl rfl
  | cmdUnlinkFound hrx hin hwalk alloc => exact h.next hin rfl rfl rfl
  | cmdUnlinkMissed hrx hin hwalk alloc =>
    obtain ⟨rfl, -⟩ := hok
    exact h.next hin rfl rfl rfl
  | invalid hrx hin alloc =>
    refine absurd (h.valid .invalid ?_) id
    rw [h.read, hin]
    simp
  | unlinked hid hstatus hwalk hunl alloc =>
    obtain ⟨rfl, -⟩ := hok
    exact h.emit (List.append_nil _).symm rfl rfl
  | completed | retSubmit | unsentSubmit | retUnlink | unsentUnlink => exact h.emit rfl rfl rfl
  | _ => exact h.emit (List.append_nil _).symm rfl rfl

/-- A CMD_UNLINK that has been processed is one of the requests. -/
theorem mem_of_cmdUnlink (h : Heard requests s) {q t : BitVec 32}
    (hmem : .cmdUnlink q t ∈ s.log) : .cmdUnlink q t ∈ requests := by
  rw [h.read]
  exact List.mem_append_left _ (List.mem_filterMap.mpr ⟨_, hmem, rfl⟩)

end Heard

/-! ### The threads and the URBs -/

/-- Nothing has failed so far, and the entries of `priv_init` are those of URBs on their way. -/
structure Working (s : StubDevice) : Prop where
  event : s.event = false
  tx : s.tx ≠ .stopped
  rx : s.rx ≠ .stopped
  submitted : ∀ p ∈ s.privInit, p.id ∈ s.rx.pending ++ s.inFlight

namespace Working

variable {s s' : StubDevice}

/-- A step that leaves `priv_init` alone. -/
theorem frame (h : Working s) (hevent : s'.event = s.event) (htx : s'.tx ≠ .stopped)
    (hrx : s'.rx ≠ .stopped) (hinit : s'.privInit = s.privInit)
    (hurb : s.rx.pending ++ s.inFlight ⊆ s'.rx.pending ++ s'.inFlight) : Working s' :=
  ⟨hevent ▸ h.event, htx, hrx, fun p hp => hurb (h.submitted p (hinit ▸ hp))⟩

/-- The URB of an entry completes, and the entry leaves `priv_init`. -/
theorem complete (h : Working s) (hlist : ListInv s) {id : ℕ} {pre post : List StubPriv}
    {p : StubPriv} (hl : s.privInit = pre ++ p :: post) (hpid : p.id = id)
    (hevent : s'.event = s.event) (htx : s'.tx = s.tx) (hrx : s'.rx = s.rx)
    (hfl : s'.inFlight = s.inFlight.erase id) (hinit : s'.privInit = pre ++ post) :
    Working s' := by
  have hnd : (s.privInit.map (·.id)).Nodup := by
    have hall := hlist.linked.nodup_iff.mpr hlist.nodup
    rw [StubDevice.privs, List.append_assoc, List.map_append] at hall
    exact (List.nodup_append'.mp hall).1
  refine ⟨hevent ▸ h.event, htx ▸ h.tx, hrx ▸ h.rx, fun r hr => ?_⟩
  rw [hinit] at hr
  have hne : r.id ≠ id := by
    intro heq
    rw [hl, (List.perm_middle.map _).nodup_iff, List.map_cons] at hnd
    exact (List.nodup_cons.mp hnd).1 (List.mem_map.mpr ⟨r, hr, heq.trans hpid.symm⟩)
  have hold : r ∈ s.privInit := by
    rcases List.mem_append.mp hr with hr | hr <;> simp [hl, hr]
  rw [hrx, hfl]
  rcases List.mem_append.mp (h.submitted r hold) with hmem | hmem
  · exact List.mem_append_left _ hmem
  · exact List.mem_append_right _ ((List.mem_erase_of_ne hne).mpr hmem)

/-- Every step of a healthy device. -/
theorem step (h : Working s) (hlist : ListInv s) {requests : List Request}
    (hheard : Heard requests s) {a : Act} (hok : Healthy s a) (hs : s.step a = some s') :
    Working s' := by
  cases StubDevice.moves_of_step hs with
  | @cmdSubmit q rest hrx hin alloc =>
    obtain ⟨rfl, -⟩ := hok
    refine ⟨h.event, h.tx, by simp [StubDevice.stubPrivAlloc], fun p hp => ?_⟩
    rcases List.mem_append.mp hp with hp | hp
    · have hmem := h.submitted p hp
      rw [hrx] at hmem
      exact List.mem_append_right _ hmem
    · obtain rfl := List.mem_singleton.mp hp
      exact List.mem_append_left _ (List.mem_singleton_self _)
  | @cmdUnlinkFound q t rest pre post p hrx hin hwalk alloc =>
    obtain ⟨hl, -, -⟩ := findSplit_eq_some hwalk
    refine ⟨h.event, h.tx, by simp [StubDevice.markUnlinking], fun r hr => ?_⟩
    have hold : ∃ r' ∈ s.privInit, r'.id = r.id := by
      rw [hl]
      rcases List.mem_append.mp hr with hr | hr
      · exact ⟨r, by simp [hr], rfl⟩
      rcases List.mem_cons.mp hr with rfl | hr
      · exact ⟨p, by simp, rfl⟩
      · exact ⟨r, by simp [hr], rfl⟩
    obtain ⟨r', hr', heq⟩ := hold
    have hmem := h.submitted r' hr'
    rw [heq, hrx] at hmem
    exact hmem
  | cmdUnlinkMissed hrx hin hwalk alloc =>
    obtain ⟨rfl, -⟩ := hok
    exact h.frame rfl h.tx h.rx rfl (List.Subset.refl _)
  | invalid hrx hin alloc =>
    refine absurd (hheard.valid .invalid ?_) id
    rw [hheard.read, hin]
    simp
  | notBuilt | notSubmitted | unsentSubmit | unsentUnlink => exact absurd hok (by simp [Healthy])
  | killed hid alloc => exact absurd rfl hok.2
  | @submitted id hrx =>
    refine h.frame rfl h.tx (by simp) rfl fun i hi => ?_
    rw [hrx] at hi
    simpa [RxPc.pending, or_comm] using hi
  | built hrx | unlinkUrb hrx =>
    refine h.frame rfl h.tx (by simp) rfl fun i hi => ?_
    simpa [hrx, RxPc.pending] using hi
  | rxStop hrx hevent | txStop htx hevent => simp [h.event] at hevent
  | unlinked hid hstatus hwalk hunl alloc =>
    obtain ⟨rfl, -⟩ := hok
    obtain ⟨hl, hp, -⟩ := findSplit_eq_some hwalk
    exact h.complete hlist hl (by simpa using hp) rfl rfl rfl rfl rfl
  | completed hid hstatus hwalk hunl alloc =>
    obtain ⟨hl, hp, -⟩ := findSplit_eq_some hwalk
    exact h.complete hlist hl (by simpa using hp) rfl rfl rfl rfl rfl
  | _ => exact h.frame rfl (by simp) h.rx rfl (List.Subset.refl _)

end Working

/-! ### The entries taken over by a CMD_UNLINK -/

/-- An entry of `priv_init` that is being unlinked carries the number of a CMD_UNLINK that found it
under the number that it names, and there is one for every entry found. -/
structure Conversions (s : StubDevice) : Prop where
  init : ∀ p ∈ s.privInit, p.unlinking = true →
    ∃ t, .cmdUnlink (toU32 p.seqnum) t ∈ s.log ∧ t ∈ s.log.filterMap StubEvent.conversion
  log : ∀ t ∈ s.log.filterMap StubEvent.conversion, ∃ q, .cmdUnlink q t ∈ s.log

namespace Conversions

variable {s s' : StubDevice}

/-- A step that takes no entry over. -/
theorem emit (h : Conversions s) {events : List StubEvent} (hlog : s'.log = s.log ++ events)
    (hnone : events.filterMap StubEvent.conversion = [])
    (hinit : ∀ p ∈ s'.privInit, p ∈ s.privInit ∨ p.unlinking = false) : Conversions s' := by
  have hconv : s'.log.filterMap StubEvent.conversion = s.log.filterMap StubEvent.conversion := by
    rw [hlog, List.filterMap_append, hnone, List.append_nil]
  refine ⟨fun p hp hunl => ?_, fun t ht => ?_⟩
  · obtain ⟨t, hun, ht⟩ := h.init p ((hinit p hp).resolve_right (by simp [hunl])) hunl
    exact ⟨t, hlog ▸ List.mem_append_left _ hun, hconv ▸ ht⟩
  · obtain ⟨q, hun⟩ := h.log t (hconv ▸ ht)
    exact ⟨q, hlog ▸ List.mem_append_left _ hun⟩

/-- An entry takes over the number of a CMD_UNLINK. -/
theorem markUnlinking (h : Conversions s) {q t : BitVec 32} {pre post : List StubPriv}
    {p : StubPriv} (hl : s.privInit = pre ++ p :: post) (hp : p.seqnum = ofU32 t)
    (rest : List Request) :
    Conversions ({ s with input := rest }.markUnlinking q t pre p post) := by
  let log := s.log ++ [StubEvent.cmdUnlink q t, .converted p]
  have hlog : s.log ⊆ log := List.subset_append_left _ _
  have hconv : log.filterMap StubEvent.conversion =
      s.log.filterMap StubEvent.conversion ++ [t] := by
    have hnum : toU32 p.seqnum = t := by rw [hp, toU32_ofU32]
    rw [List.filterMap_append]
    simp only [List.filterMap_cons, StubEvent.conversion, List.filterMap_nil, hnum]
  refine ⟨fun r hr hunl => ?_, fun t' ht' => ?_⟩
  · have hold : r ∈ s.privInit → ∃ t', .cmdUnlink (toU32 r.seqnum) t' ∈ log ∧
        t' ∈ log.filterMap StubEvent.conversion := by
      intro hr
      obtain ⟨t', hun, ht'⟩ := h.init r hr hunl
      exact ⟨t', hlog hun, hconv ▸ List.mem_append_left _ ht'⟩
    rcases List.mem_append.mp hr with hr | hr
    · exact hold (by simp [hl, hr])
    rcases List.mem_cons.mp hr with rfl | hr
    · exact ⟨t, by simp [StubDevice.markUnlinking], by simp [StubDevice.markUnlinking, hp]⟩
    · exact hold (by simp [hl, hr])
  · have ht' : t' ∈ s.log.filterMap StubEvent.conversion ++ [t] := hconv ▸ ht'
    rcases List.mem_append.mp ht' with ht' | ht'
    · obtain ⟨q', hun⟩ := h.log t' ht'
      exact ⟨q', hlog hun⟩
    · obtain rfl := List.mem_singleton.mp ht'
      exact ⟨q, by simp [StubDevice.markUnlinking]⟩

/-- Every step. -/
theorem step (h : Conversions s) {a : Act} (hs : s.step a = some s') : Conversions s' := by
  have hrest : ∀ {pre post : List StubPriv} {p : StubPriv}, s.privInit = pre ++ p :: post →
      ∀ r ∈ pre ++ post, r ∈ s.privInit ∨ r.unlinking = false := by
    intro pre post p hl r hr
    rcases List.mem_append.mp hr with hr | hr <;> simp [hl, hr]
  have henqueue : ∀ (s₁ : StubDevice) q st alloc, Conversions s₁ →
      Conversions (s₁.stubEnqueueRetUnlink q st alloc) := by
    intro s₁ q st alloc h₁
    rw [StubDevice.stubEnqueueRetUnlink]
    split <;> exact h₁.emit (List.append_nil _).symm rfl fun _ hp => Or.inl hp
  cases StubDevice.moves_of_step hs with
  | @cmdSubmit q rest hrx hin alloc =>
    rw [StubDevice.stubPrivAlloc]
    split
    · refine h.emit rfl rfl fun p hp => ?_
      rcases List.mem_append.mp hp with hp | hp
      · exact Or.inl hp
      · obtain rfl := List.mem_singleton.mp hp
        exact Or.inr rfl
    · exact h.emit (List.append_nil _).symm rfl fun _ hp => Or.inl hp
  | cmdUnlinkFound hrx hin hwalk alloc =>
    obtain ⟨hl, hp, -⟩ := findSplit_eq_some hwalk
    exact h.markUnlinking hl (by simpa using hp) _
  | cmdUnlinkMissed hrx hin hwalk alloc =>
    exact henqueue _ _ _ _ (h.emit rfl rfl fun _ hp => Or.inl hp)
  | unlinked hid hstatus hwalk hunl alloc =>
    obtain ⟨hl, -, -⟩ := findSplit_eq_some hwalk
    exact henqueue _ _ _ _ (h.emit (List.append_nil _).symm rfl (hrest hl))
  | completed hid hstatus hwalk hunl alloc =>
    obtain ⟨hl, -, -⟩ := findSplit_eq_some hwalk
    exact h.emit rfl rfl (hrest hl)
  | retSubmit | unsentSubmit | retUnlink | unsentUnlink =>
    exact h.emit rfl rfl fun _ hp => Or.inl hp
  | _ => exact h.emit (List.append_nil _).symm rfl fun _ hp => Or.inl hp

end Conversions

/-! ### The records that are freed -/

/-- The transmit thread has freed the entries of `priv_free`. -/
def TxPc.freed : TxPc → Bool
  | .unlinkLoop | .sendUnlink _ | .freeUnlink | .wait => true
  | _ => false

/-- When the thread waits, both lists of records to be freed are empty. -/
structure Freed (s : StubDevice) : Prop where
  privs : s.tx.freed = true → s.privFree = []
  unlinks : s.tx = .wait → s.unlinkFree = []

namespace Freed

variable {s s' : StubDevice}

theorem frame (h : Freed s) (htx : s'.tx = s.tx) (hpf : s'.privFree = s.privFree)
    (huf : s'.unlinkFree = s.unlinkFree) : Freed s' :=
  ⟨fun ht => hpf ▸ h.privs (htx ▸ ht), fun ht => huf ▸ h.unlinks (htx ▸ ht)⟩

/-- The transmit thread moves on. -/
theorem advance (h : Freed s) (hpf : s'.tx.freed = true → s'.privFree = s.privFree)
    (htx : s'.tx.freed = true → s.tx.freed = true) (hwait : s'.tx ≠ .wait) : Freed s' :=
  ⟨fun ht => (hpf ht).trans (h.privs (htx ht)), fun ht => absurd ht hwait⟩

/-- Every step. -/
theorem step (h : Freed s) {a : Act} (hs : s.step a = some s') : Freed s' := by
  have henqueue : ∀ (s₁ : StubDevice) q st alloc, Freed s₁ →
      Freed (s₁.stubEnqueueRetUnlink q st alloc) := by
    intro s₁ q st alloc h₁
    rw [StubDevice.stubEnqueueRetUnlink]
    split <;> exact h₁.frame rfl rfl rfl
  cases StubDevice.moves_of_step hs with
  | cmdSubmit hrx hin alloc =>
    rw [StubDevice.stubPrivAlloc]
    split <;> exact h.frame rfl rfl rfl
  | cmdUnlinkMissed hrx hin hwalk alloc => exact henqueue _ _ _ _ (h.frame rfl rfl rfl)
  | unlinked hid hstatus hwalk hunl alloc => exact henqueue _ _ _ _ (h.frame rfl rfl rfl)
  | freePrivs htx => exact ⟨fun _ => rfl, fun ht => by simp at ht⟩
  | freeUnlinks htx => exact ⟨fun _ => h.privs (by simp [htx, TxPc.freed]), fun _ => rfl⟩
  | submitsDone htx | submitTaken htx | retSubmit htx | unsentSubmit htx | txStop htx | txWake htx
  | unsentUnlink htx => exact h.advance (by simp [TxPc.freed]) (by simp [TxPc.freed]) (by simp)
  | unlinksDone htx | unlinkTaken htx | retUnlink htx =>
    exact h.advance (fun _ => rfl) (fun _ => by simp [htx, TxPc.freed]) (by simp)
  | _ => exact h.frame rfl rfl rfl

end Freed

/-! ### The server side as a whole -/

/-- Everything that a healthy device keeps, for the requests received so far. -/
structure ServerInv (requests : List Request) (s : StubDevice) : Prop where
  list : ListInv s
  reply : ReplyInv requests s
  order : OrderInv s
  settle : SettleInv s
  heard : Heard requests s
  working : Working s
  conversions : Conversions s
  freed : Freed s

namespace ServerInv

variable {requests : List Request} {s s' : StubDevice}

/-- Every step of a healthy device keeps it. -/
theorem step (h : ServerInv requests s) (hreq : ClientTraffic requests)
    (hord : UnlinkAfterSubmit requests) {a : Act} (hok : Healthy s a) (hs : s.step a = some s') :
    ServerInv requests s' where
  list := h.list.step hs
  reply := h.reply.step hreq hok.allocated hs
  order := h.order.step hok.inOrder hs
  settle := h.settle.step h.reply hreq hord h.order hs
  heard := h.heard.step hok hs
  working := h.working.step h.list h.heard hok hs
  conversions := h.conversions.step hs
  freed := h.freed.step hs

/-- More requests arrive. -/
theorem feed (h : ServerInv requests s) {rs : List Request} (hrs : ∀ r ∈ rs, r.valid) :
    ServerInv (requests ++ rs) { s with input := s.input ++ rs } where
  list := h.list.frame rfl rfl rfl rfl rfl (List.Sublist.refl _)
  reply := by
    obtain ⟨done, hdone, hsub, hun⟩ := h.reply.read
    exact ⟨⟨done, by rw [hdone, List.append_assoc], hsub, hun⟩, h.reply.wide, h.reply.submits,
      h.reply.unlinks, h.reply.unsentSubmit, h.reply.unsentUnlink, h.reply.running⟩
  order := h.order.frame rfl rfl rfl
  settle := h.settle.mono rfl (List.Subset.refl _) (List.Subset.refl _)
  heard := ⟨by rw [h.heard.read, List.append_assoc], fun r hr =>
    (List.mem_append.mp hr).elim (h.heard.valid r) (hrs r)⟩
  working := h.working.frame rfl h.working.tx h.working.rx rfl (List.Subset.refl _)
  conversions := h.conversions.emit (List.append_nil _).symm rfl fun _ hp => Or.inl hp
  freed := h.freed.frame rfl rfl rfl

/-- A device that has just been connected, before the first request. -/
theorem connected : ServerInv [] (connected []) where
  list := .of_reachable (.init : (stubDevice []).Reachable _)
  reply := .of_reachableWhere ⟨by simp, by simp⟩ .init
  order := .of_reachableWhere (.init : (stubDevice []).ReachableWhere UnlinkInOrder _)
  settle := .connected []
  heard := ⟨rfl, by simp⟩
  working := ⟨rfl, by simp [Stub.connected], by simp [Stub.connected], by simp [Stub.connected]⟩
  conversions := ⟨by simp [Stub.connected], by simp [Stub.connected]⟩
  freed := ⟨fun _ => rfl, fun _ => rfl⟩

end ServerInv

/-- What has happened stays in the history. -/
theorem log_of_step {s s' : StubDevice} {a : Act} (hs : s.step a = some s') :
    ∃ l, s'.log = s.log ++ l := by
  have henqueue : ∀ (s₁ : StubDevice) q st alloc,
      (s₁.stubEnqueueRetUnlink q st alloc).log = s₁.log := by
    intro s₁ q st alloc
    rw [StubDevice.stubEnqueueRetUnlink]
    split <;> rfl
  cases StubDevice.moves_of_step hs with
  | cmdSubmit hrx hin alloc =>
    rw [StubDevice.stubPrivAlloc]
    split
    · exact ⟨_, rfl⟩
    · exact ⟨[], (List.append_nil _).symm⟩
  | cmdUnlinkMissed hrx hin hwalk alloc => exact ⟨_, henqueue _ _ _ _⟩
  | unlinked hid hstatus hwalk hunl alloc =>
    exact ⟨[], (henqueue _ _ _ _).trans (List.append_nil _).symm⟩
  | cmdUnlinkFound | completed | retSubmit | unsentSubmit | retUnlink | unsentUnlink =>
    exact ⟨_, rfl⟩
  | _ => exact ⟨[], (List.append_nil _).symm⟩

end Usbip.Stub
