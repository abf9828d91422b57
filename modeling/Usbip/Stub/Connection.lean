import Usbip.Event.Service

/-!
# Attaching a connection to an exported device

`store_sockfd`, `stub_shutdown_connection`, `stub_device_reset` and `stub_device_unusable` of
`stub_dev.c`, with the receive thread's `valid_request` of `stub_rx.c` and the handler thread
of `usbip_event.c`. Any number of `store_sockfd` calls run at the same time; each section that
holds the lock is one step of the machine `stubConnection`, and so is everything a call does
between two sections.

`store_sockfd` tests the status in one section and sets it in another one, so

* a second call may pass the test meanwhile and overwrite the socket of the first;
* the threads it has started may fail and be shut down before the status becomes USED.

It does not look at what `kthread_get_run` returns, either: the status becomes USED also when
`tcp_rx` or `tcp_tx` is an error pointer.

`Serial` excludes the overlaps and the threads that cannot be created. Under it a live socket is
never overwritten and a device in use has its connection (`exclusive_connection`).
-/

namespace Usbip.Stub

open Event

/-- What `tcp_rx` and `tcp_tx` point to when they are not null. -/
inductive Thread
  /-- nothing: `kthread_create` has failed and returned an error pointer -/
  | errPtr
  | running
  /-- about to call `usbip_event_add` -/
  | failed (e : EhEvent)
  /-- the thread function has returned -/
  | returned
  deriving DecidableEq, Repr

/-- Where a call of `store_sockfd` stands that has passed its test of the status. -/
inductive StorePc
  /-- has set `tcp_socket` and dropped the lock -/
  | socket
  /-- has set `tcp_rx` -/
  | rx
  /-- has set `tcp_tx`, the status is still to be set -/
  | tx
  deriving DecidableEq, Repr

/-- The next step of `stub_shutdown_connection`. -/
inductive ShutdownPc
  /-- `kernel_sock_shutdown` -/
  | sock
  /-- stop the receive thread -/
  | rx
  /-- stop the transmit thread -/
  | tx
  /-- close the socket -/
  | close
  /-- free the data of the connection and return -/
  | cleanup
  deriving DecidableEq, Repr

/-- One `struct stub_device` with its contexts. `tcpSocket` names the socket; `downs` counts
the calls of `store_sockfd` with -1 that are about to add their event. -/
structure Connection where
  eh : EventThread
  shut : ShutdownPc
  status : SdevStatus
  tcpSocket : Option ℕ
  tcpRx : Option Thread
  tcpTx : Option Thread
  stores : List StorePc
  downs : ℕ
  deriving DecidableEq, Repr

namespace Connection

/-- The steps. A label names the context and the results of the calls whose code is not in
this repository. -/
inductive Act
  /-- the first section of `store_sockfd`; `sock` is what `sockfd_to_socket` returns -/
  | store (sock : Option ℕ)
  /-- the `i`-th call that passed goes on; `created` says that `kthread_create` succeeds, if it
  is called -/
  | storeNext (i : ℕ) (created : Bool)
  /-- the section of `store_sockfd` with -1 -/
  | down
  /-- that call adds `SDEV_EVENT_DOWN` -/
  | downAdd
  /-- `valid_request` in the receive thread -/
  | rxValid
  /-- a call in the receive thread fails -/
  | rxFail (e : EhEvent)
  | rxAdd
  | rxReturn
  /-- a call in the transmit thread fails -/
  | txFail (e : EhEvent)
  | txAdd
  | txReturn
  /-- the handler thread; `ret` is the result of the calls of `stub_device_reset` -/
  | handler (ret : Bool)
  deriving DecidableEq, Repr

/-- `store_sockfd`, first section. -/
def store (s : Connection) (sock : Option ℕ) : Connection :=
  if s.status ≠ .available then s
  else
    match sock with
    | none => s
    | some socket => { s with tcpSocket := some socket, stores := s.stores ++ [.socket] }

/-- `kthread_get_run` -/
def kthreadGetRun (created : Bool) : Thread := if created then .running else .errPtr

/-- `store_sockfd` after its first section. -/
def storeNext (s : Connection) (i : ℕ) (created : Bool) : Option Connection :=
  match s.stores[i]? with
  | none => none
  | some .socket =>
    some { s with tcpRx := some (kthreadGetRun created), stores := s.stores.set i .rx }
  | some .rx =>
    some { s with tcpTx := some (kthreadGetRun created), stores := s.stores.set i .tx }
  | some .tx => some { s with status := .used, stores := s.stores.eraseIdx i }

/-- `kthread_stop_put` on a pointer that is not null: wait until the thread has returned. The
handler thread does not survive an error pointer. -/
def stopThread : Option Thread → Option (Option Thread)
  | none => some none
  | some .returned => some none
  | some _ => none

/-- One step of `stub_shutdown_connection`, run by the handler thread. -/
def shutdownStep (s : Connection) : Option Connection :=
  match s.shut with
  | .sock => some { s with shut := .rx }
  | .rx => (stopThread s.tcpRx).map fun t => { s with tcpRx := t, shut := .tx }
  | .tx => (stopThread s.tcpTx).map fun t => { s with tcpTx := t, shut := .close }
  | .close => some { s with tcpSocket := none, shut := .cleanup }
  | .cleanup => s.eh.advance.map fun eh => { s with eh := eh, shut := .sock }

/-- The status that `stub_device_reset` leaves; `ret` says that a call of it failed. -/
def resetStatus (ret : Bool) : SdevStatus := if ret then .error else .available

/-- One step of the handler thread. -/
def handler (s : Connection) (ret : Bool) : Option Connection :=
  match s.eh.pc with
  | .runShutdown => s.shutdownStep
  | .runReset => s.eh.advance.map fun eh => { s with eh := eh, status := resetStatus ret }
  | .runUnusable => s.eh.advance.map fun eh => { s with eh := eh, status := .error }
  | _ => s.eh.advance.map fun eh => { s with eh := eh }

/-- A thread's loop ends when an event has happened or it is told to stop. -/
def rxMayReturn (s : Connection) : Bool :=
  s.eh.event.happened || (s.eh.pc = .runShutdown && s.shut = .rx)

def txMayReturn (s : Connection) : Bool :=
  s.eh.event.happened || (s.eh.pc = .runShutdown && s.shut = .tx)

/-- One step. -/
def step (s : Connection) : Act → Option Connection
  | .store sock => some (s.store sock)
  | .storeNext i created => s.storeNext i created
  | .down => if s.status = .used then some { s with downs := s.downs + 1 } else some s
  | .downAdd =>
    if s.downs = 0 then none
    else some { s with eh := s.eh.add EhEvent.down.mask, downs := s.downs - 1 }
  | .rxValid =>
    if s.tcpRx = some .running then
      if s.status = .used then some s else some { s with tcpRx := some (.failed .errorTcp) }
    else none
  | .rxFail e =>
    if s.tcpRx = some .running then some { s with tcpRx := some (.failed e) } else none
  | .rxAdd =>
    match s.tcpRx with
    | some (.failed e) => some { s with eh := s.eh.add e.mask, tcpRx := some .running }
    | _ => none
  | .rxReturn =>
    if s.tcpRx = some .running ∧ s.rxMayReturn then some { s with tcpRx := some .returned }
    else none
  | .txFail e =>
    if s.tcpTx = some .running then some { s with tcpTx := some (.failed e) } else none
  | .txAdd =>
    match s.tcpTx with
    | some (.failed e) => some { s with eh := s.eh.add e.mask, tcpTx := some .running }
    | _ => none
  | .txReturn =>
    if s.tcpTx = some .running ∧ s.txMayReturn then some { s with tcpTx := some .returned }
    else none
  | .handler ret => s.handler ret

end Connection

/-- A device from `stub_device_alloc` on. -/
def stubConnection : Machine Connection Connection.Act where
  init := ⟨EventThread.start, .sock, .available, none, none, none, [], 0⟩
  step := Connection.step

namespace Connection

/-! ### The condition -/

/-- The event that a step adds. -/
def added (s : Connection) : Act → Option EhEvent
  | .downAdd => some .down
  | .rxAdd => match s.tcpRx with | some (.failed e) => some e | _ => none
  | .txAdd => match s.tcpTx with | some (.failed e) => some e | _ => none
  | _ => none

/-- The handler thread has begun to take the connection down and not yet come to the end of
the reset. -/
def TakingDown (s : Connection) : Prop :=
  match s.eh.pc with
  | .runShutdown => s.shut ≠ .sock
  | .clearShutdown | .testReset | .runReset => True
  | _ => False

instance (s : Connection) : Decidable s.TakingDown := by
  unfold TakingDown
  split <;> infer_instance

/-- The handler thread is about to run a part of the shutdown or of the reset. -/
def Operating (s : Connection) : Prop := s.eh.pc = .runShutdown ∨ s.eh.pc = .runReset

instance (s : Connection) : Decidable s.Operating := inferInstanceAs (Decidable (_ ∨ _))

/-- Calls that attach a connection overlap neither each other nor the shutdown and the reset,
both of their threads are created, and events are added while the handler thread is still to test
SHUTDOWN. -/
def Serial (s : Connection) : Act → Prop
  | .store _ => s.status = .available → s.stores = [] ∧ ¬ s.TakingDown
  | .storeNext i created => s.stores[i]? ≠ some .tx → created = true
  | .handler _ => s.Operating → s.stores = []
  | a => ∀ e ∈ s.added a, s.eh.Before e.final

instance (s : Connection) (a : Act) : Decidable (s.Serial a) := by
  cases a <;> unfold Serial <;> infer_instance

/-! ### The sockets and the threads -/

/-- A step does not put one socket in the place of another. -/
def KeepsSocket (s s' : Connection) : Prop :=
  ∀ k, s.tcpSocket = some k → s'.tcpSocket = some k ∨ s'.tcpSocket = none

/-- Neither a call of `store_sockfd` nor the handler thread is in progress. -/
def Settled (s : Connection) : Prop :=
  s.stores = [] ∧ s.downs = 0 ∧ (s.eh.pc = .loopTop ∨ s.eh.pc = .wait)

/-- The pointer is neither null nor an error pointer. -/
def IsThread (t : Option Thread) : Prop := t ≠ none ∧ t ≠ some .errPtr

/-- The device has a socket and both threads. -/
structure Full (s : Connection) : Prop where
  socket : s.tcpSocket ≠ none
  rx : IsThread s.tcpRx
  tx : IsThread s.tcpTx

/-- Nothing of a connection is left. -/
structure Empty (s : Connection) : Prop where
  socket : s.tcpSocket = none
  rx : s.tcpRx = none
  tx : s.tcpTx = none

/-! ### The handler thread of a device in service -/

/-- What the thread of a device that is not removed looks like: it does not return, a run of
the shutdown leads to one of the second operation, and RESET is never set without that. -/
structure EventsOk (t : EventThread) : Prop where
  bye : t.event.bye = false
  stop : t.stop = false
  running : t.pc ≠ .stopped
  reset : t.event.reset = true → t.ShutdownDue .reset ∨ t.FinalDue .reset ∨ t.pc = .clearReset
  shutdown : t.event.shutdown = true → (∃ k, t.ShutdownDue k) ∨ t.pc = .clearShutdown
  due : t.pc = .runShutdown → ∃ k, t.ShutdownDue k

/-- The shutdown of this pass is over and the reset is still to come. -/
def Cleared (t : EventThread) : Prop :=
  t.pc = .clearShutdown ∨ (t.pc = .testReset ∧ t.event.reset = true) ∨ t.pc = .runReset

variable {t t' : EventThread}

theorem event_of_advance (h : t.advance = some t') :
    (t'.event.reset = true → t.event.reset = true ∧ t.pc ≠ .clearReset) ∧
      (t'.event.shutdown = true → t.event.shutdown = true ∧ t.pc ≠ .clearShutdown) ∧
      (t'.pc = .runShutdown → t.event.shutdown = true ∧ t.pc = .testShutdown) := by
  unfold EventThread.advance at h
  cases hp : t.pc <;> rw [hp] at h
  case wait =>
    obtain ⟨-, hs⟩ := Option.ite_none_right_eq_some.mp h
    cases hs
    simp
  all_goals
    cases h
    try simp
  all_goals split <;> simp_all

theorem EventsOk.advance (h : EventsOk t) (ha : t.advance = some t') : EventsOk t' := by
  obtain ⟨hbye, hstop, hpc⟩ := EventThread.advance_quiet ha h.bye h.stop
  obtain ⟨hreset, hshut, hrun⟩ := event_of_advance ha
  have hdue : ∀ k, t.ShutdownDue k → t'.ShutdownDue k ∨ (t.pc = .runShutdown ∧ t'.FinalDue k) := by
    intro k hk
    by_cases hp : t.pc = .runShutdown
    · exact .inr ⟨hp, hk.finalDue ha hp⟩
    · exact .inl (hk.advance ha hp).1
  refine ⟨hbye, hstop, hpc, fun hr => ?_, fun hs => ?_, fun hp => ?_⟩
  · obtain ⟨hr0, hclear⟩ := hreset hr
    rcases h.reset hr0 with hk | hk | hc
    · exact (hdue .reset hk).imp id fun ⟨_, hf⟩ => .inl hf
    · by_cases hp : t.pc = .runReset
      · right
        right
        rw [EventThread.advance, hp] at ha
        cases ha
        rfl
      · exact .inr (.inl (hk.advance ha hp).1)
    · exact absurd hc hclear
  · obtain ⟨hs0, hclear⟩ := hshut hs
    rcases h.shutdown hs0 with ⟨k, hk⟩ | hc
    · rcases hdue k hk with hk' | ⟨hp, -⟩
      · exact .inl ⟨k, hk'⟩
      · right
        rw [EventThread.advance, hp] at ha
        cases ha
        rfl
    · exact absurd hc hclear
  · obtain ⟨hs0, htest⟩ := hrun hp
    rcases h.shutdown hs0 with ⟨k, hk⟩ | hc
    · rcases hdue k hk with hk' | ⟨hp', -⟩
      · exact ⟨k, hk'⟩
      · rw [htest] at hp'
        cases hp'
    · rw [htest] at hc
      cases hc

theorem EventsOk.add (h : EventsOk t) {e : EhEvent} (hb : t.Before e.final) :
    EventsOk (t.add e.mask) := by
  have hnew := EventThread.shutdownDue_add hb
  have hold : ∀ k, t.ShutdownDue k → (t.add e.mask).ShutdownDue k := fun k hk =>
    hk.add fun hbye => by simp [EhEvent.bye_mask] at hbye
  refine ⟨(EventThread.bye_add_mask t e).trans h.bye, h.stop, h.running, fun hr => ?_,
    fun _ => .inl ⟨_, hnew⟩, fun hp => ?_⟩
  · cases hk : e.final with
    | reset => exact .inl (hk ▸ hnew)
    | unusable =>
      -- the event does not carry RESET
      have hr0 : t.event.reset = true := by
        cases e <;> simp_all [EhEvent.final, EhEvent.mask, EventThread.add, Events.or]
      exact (h.reset hr0).imp (hold _) (.imp (·.add) id)
  · obtain ⟨k, hk⟩ := h.due hp
    exact ⟨k, hold k hk⟩

/-- The thread comes to the reset only from the shutdown. -/
theorem cleared_of_advance (h : EventsOk t) (ha : t.advance = some t') (hc : Cleared t') :
    t.pc = .runShutdown ∨ (Cleared t ∧ t.pc ≠ .runReset) := by
  have hno : t.pc = .testShutdown → t.event.shutdown = false → t.event.reset = false := by
    intro hp hs
    cases hr : t.event.reset with
    | false => rfl
    | true =>
      rcases h.reset hr with hk | hk | hk
      · cases hs.symm.trans hk.shutdown
      · have := hk.after
        rw [hp] at this
        exact this.elim
      · cases hp.symm.trans hk
  unfold EventThread.advance at ha
  unfold Cleared at hc ⊢
  cases hp : t.pc <;> rw [hp] at ha
  case wait =>
    obtain ⟨-, hs⟩ := Option.ite_none_right_eq_some.mp ha
    cases hs
    simp at hc
  case testShutdown =>
    cases ha
    cases hs : t.event.shutdown
    · simp [hs, hno hp hs] at hc
    · simp [hs] at hc
  case testReset =>
    cases ha
    cases hr : t.event.reset
    · simp [hr] at hc
    · simp
  case runShutdown => exact .inl rfl
  case clearShutdown => simp
  case stopped => cases ha
  all_goals
    cases ha
    simp at hc
    try (split at hc <;> simp at hc)

/-! ### The invariant -/

/-- How much of the connection `stub_shutdown_connection` has already taken down. -/
def Down (s : Connection) : ShutdownPc → Prop
  | .sock | .rx => True
  | .tx => s.tcpRx = none
  | .close => s.tcpRx = none ∧ s.tcpTx = none
  | .cleanup => s.Empty

/-- What a call of `store_sockfd` has set so far. -/
def Attached (s : Connection) : StorePc → Prop
  | .socket => s.tcpSocket ≠ none
  | .rx => s.tcpSocket ≠ none ∧ IsThread s.tcpRx
  | .tx => s.Full

theorem Attached.congr {s s' : Connection} {p : StorePc} (hsock : s'.tcpSocket = s.tcpSocket)
    (hrx : s'.tcpRx = s.tcpRx) (htx : s'.tcpTx = s.tcpTx) (h : s.Attached p) :
    s'.Attached p := by
  cases p
  · change s'.tcpSocket ≠ none
    rw [hsock]
    exact h
  · exact ⟨hsock ▸ h.1, hrx ▸ h.2⟩
  · exact ⟨hsock ▸ h.socket, hrx ▸ h.rx, htx ▸ h.tx⟩

/-- What serial steps keep. -/
structure Inv (s : Connection) : Prop where
  events : EventsOk s.eh
  shut : s.shut ≠ .sock → s.eh.pc = .runShutdown ∧ s.stores = []
  down : s.Down s.shut
  cleared : Cleared s.eh → s.stores = [] ∧ s.Empty
  one : s.stores = [] ∨ ∃ p, s.stores = [p] ∧ s.Attached p
  available : s.status = .available → s.stores = [] → s.Empty
  used : s.status = .used → s.stores = [] →
    s.Full ∨ s.eh.pc = .runShutdown ∨ ∃ k, s.eh.FinalDue k

variable {s s' : Connection} {a : Act}

theorem inv_init : Inv stubConnection.init := by
  refine ⟨⟨rfl, rfl, by simp [stubConnection, EventThread.start], ?_, ?_, ?_⟩, ?_, trivial, ?_,
    .inl rfl, fun _ _ => ⟨rfl, rfl, rfl⟩, ?_⟩
  all_goals simp [stubConnection, EventThread.start, Events.zero, Cleared]

/-- A thread pointer stays what it is, while the thread may move. -/
def Stays (t t' : Option Thread) : Prop := (t' = none ↔ t = none) ∧ (IsThread t → IsThread t')

theorem Stays.refl (t : Option Thread) : Stays t t := ⟨Iff.rfl, id⟩

theorem stays_of_some {t t' : Thread} (h : t' ≠ .errPtr) : Stays (some t) (some t') :=
  ⟨by simp, fun _ => ⟨by simp, by simpa using h⟩⟩

/-- The part of the state that the threads of a connection change: their own states, and the
event mask while the handler is still to test SHUTDOWN. -/
theorem Inv.touch (h : s.Inv) {eh : EventThread} {rx tx : Option Thread} {downs : ℕ}
    (heh : eh = s.eh ∨ ∃ e : EhEvent, eh = s.eh.add e.mask ∧ s.eh.Before e.final)
    (hrx : Stays s.tcpRx rx) (htx : Stays s.tcpTx tx) :
    Inv { s with eh := eh, tcpRx := rx, tcpTx := tx, downs := downs } := by
  have hpc : eh.pc = s.eh.pc := by
    rcases heh with rfl | ⟨e, rfl, -⟩ <;> rfl
  have hevents : EventsOk eh := by
    rcases heh with rfl | ⟨e, rfl, hb⟩
    · exact h.events
    · exact h.events.add hb
  have hempty : s.Empty → Empty { s with eh := eh, tcpRx := rx, tcpTx := tx, downs := downs } :=
    fun he => ⟨he.socket, hrx.1.mpr he.rx, htx.1.mpr he.tx⟩
  have hfull : s.Full → Full { s with eh := eh, tcpRx := rx, tcpTx := tx, downs := downs } :=
    fun hf => ⟨hf.socket, hrx.2 hf.rx, htx.2 hf.tx⟩
  have hcleared : Cleared eh → Cleared s.eh := by
    rcases heh with rfl | ⟨e, rfl, hb⟩
    · exact id
    · -- no event is heard between the test of SHUTDOWN and the end of the reset
      unfold EventThread.Before at hb
      unfold Cleared
      rw [hpc]
      rintro (hp | ⟨hp, -⟩ | hp) <;> rw [hp] at hb <;> exact hb.elim
  refine ⟨hevents, fun hs => ?_, ?_, fun hc => ?_, ?_, fun hs h0 => hempty (h.available hs h0),
    fun hs h0 => ?_⟩
  · rw [hpc]
    exact h.shut hs
  · have hdown := h.down
    cases hs : s.shut <;> rw [hs] at hdown
    · trivial
    · trivial
    · exact hrx.1.mpr hdown
    · exact ⟨hrx.1.mpr hdown.1, htx.1.mpr hdown.2⟩
    · exact ⟨hdown.socket, hrx.1.mpr hdown.rx, htx.1.mpr hdown.tx⟩
  · exact (h.cleared (hcleared hc)).imp id hempty
  · refine h.one.imp id fun ⟨p, hp, hat⟩ => ⟨p, hp, ?_⟩
    cases p
    · exact hat
    · exact ⟨hat.1, hrx.2 hat.2⟩
    · exact hfull hat
  · refine (h.used hs h0).imp hfull (.imp (hpc.trans ·) fun ⟨k, hk⟩ => ⟨k, ?_⟩)
    rcases heh with rfl | ⟨e, rfl, -⟩
    · exact hk
    · exact hk.add

/-- A call of `store_sockfd` that passes its test starts from an empty device. -/
theorem Inv.store (h : s.Inv) {sock : Option ℕ}
    (hok : s.status = .available → s.stores = [] ∧ ¬ s.TakingDown) : (s.store sock).Inv := by
  unfold Connection.store
  split
  · exact h
  next hav =>
    obtain ⟨hnone, htd⟩ := hok (not_not.mp hav)
    cases sock with
    | none => exact h
    | some socket =>
      have hshut : s.shut = .sock := by
        by_contra hne
        have hpc := (h.shut hne).1
        exact htd (by simpa [TakingDown, hpc] using hne)
      have hncl : ¬ Cleared s.eh := by
        rintro (hp | ⟨hp, -⟩ | hp) <;> exact htd (by simp [TakingDown, hp])
      refine ⟨h.events, fun hs => absurd hshut hs, ?_, fun hc => absurd hc hncl, .inr ?_, ?_, ?_⟩
      · rw [hshut]
        trivial
      · exact ⟨.socket, by simp [hnone], by simp [Attached]⟩
      · intro _ h0
        simp at h0
      · intro _ h0
        simp at h0

theorem isThread_kthreadGetRun : IsThread (some (kthreadGetRun true)) :=
  ⟨by simp, by simp [kthreadGetRun]⟩

/-- A call of `store_sockfd` that goes on is the only one. -/
theorem Inv.storeNext (h : s.Inv) {i : ℕ} {created : Bool}
    (hok : s.stores[i]? ≠ some .tx → created = true) (hs : s.storeNext i created = some s') :
    s'.Inv := by
  unfold Connection.storeNext at hs
  rcases h.one with hnil | ⟨p, hp, hat⟩
  · rw [hnil] at hs
    simp at hs
  have hne : s.stores ≠ [] := by simp [hp]
  have hshut : s.shut = .sock := by
    by_contra h0
    exact hne (h.shut h0).2
  have hncl : ¬ Cleared s.eh := fun hc => hne (h.cleared hc).1
  cases i with
  | succ j =>
    rw [hp] at hs
    simp at hs
  | zero =>
    rw [hp] at hs hok
    cases p
    · obtain rfl : created = true := hok (by simp)
      cases hs
      refine ⟨h.events, fun h0 => absurd hshut h0, by rw [hshut]; trivial,
        fun hc => absurd hc hncl, .inr ⟨.rx, rfl, hat, isThread_kthreadGetRun⟩, ?_, ?_⟩ <;>
      · intro _ h0
        simp at h0
    · obtain rfl : created = true := hok (by simp)
      cases hs
      refine ⟨h.events, fun h0 => absurd hshut h0, by rw [hshut]; trivial,
        fun hc => absurd hc hncl, .inr ⟨.tx, rfl, hat.1, hat.2, isThread_kthreadGetRun⟩, ?_, ?_⟩ <;>
      · intro _ h0
        simp at h0
    · -- the status becomes USED with everything in place
      cases hs
      refine ⟨h.events, fun h0 => absurd hshut h0, by rw [hshut]; trivial,
        fun hc => absurd hc hncl, .inl rfl, fun h0 => by simp at h0, fun _ _ => .inl ?_⟩
      exact ⟨hat.socket, hat.rx, hat.tx⟩

theorem stopThread_eq {t t' : Option Thread} (h : stopThread t = some t') : t' = none := by
  unfold stopThread at h
  split at h <;> cases h <;> rfl

/-- The shutdown takes the connection of a device down that no call is attaching. -/
theorem Inv.shutdownStep (h : s.Inv) (hpc : s.eh.pc = .runShutdown) (hnil : s.stores = [])
    (hs : s.shutdownStep = some s') : s'.Inv := by
  have hncl : ¬ Cleared s.eh := by
    rintro (hp | ⟨hp, -⟩ | hp) <;> cases hpc.symm.trans hp
  have hdown := h.down
  unfold Connection.shutdownStep at hs
  cases hshut : s.shut <;> rw [hshut] at hs hdown
  case sock =>
    cases hs
    refine ⟨h.events, fun _ => ⟨hpc, hnil⟩, trivial, fun hc => absurd hc hncl, .inl hnil,
      fun hav h0 => ?_, fun _ _ => .inr (.inl hpc)⟩
    exact ⟨(h.available hav h0).socket, (h.available hav h0).rx, (h.available hav h0).tx⟩
  case rx =>
    obtain ⟨t, ht, rfl⟩ := Option.map_eq_some_iff.mp hs
    refine ⟨h.events, fun _ => ⟨hpc, hnil⟩, stopThread_eq ht, fun hc => absurd hc hncl,
      .inl hnil, fun hav h0 => ?_, fun _ _ => .inr (.inl hpc)⟩
    exact ⟨(h.available hav h0).socket, stopThread_eq ht, (h.available hav h0).tx⟩
  case tx =>
    obtain ⟨t, ht, rfl⟩ := Option.map_eq_some_iff.mp hs
    refine ⟨h.events, fun _ => ⟨hpc, hnil⟩, ⟨hdown, stopThread_eq ht⟩,
      fun hc => absurd hc hncl, .inl hnil, fun hav h0 => ?_, fun _ _ => .inr (.inl hpc)⟩
    exact ⟨(h.available hav h0).socket, (h.available hav h0).rx, stopThread_eq ht⟩
  case close =>
    cases hs
    exact ⟨h.events, fun _ => ⟨hpc, hnil⟩, ⟨rfl, hdown.1, hdown.2⟩, fun hc => absurd hc hncl,
      .inl hnil, fun _ _ => ⟨rfl, hdown.1, hdown.2⟩, fun _ _ => .inr (.inl hpc)⟩
  case cleanup =>
    obtain ⟨eh, heh, rfl⟩ := Option.map_eq_some_iff.mp hs
    have hempty := hdown
    obtain ⟨k, hk⟩ := h.events.due hpc
    refine ⟨h.events.advance heh, fun h0 => absurd rfl h0, trivial,
      fun _ => ⟨hnil, ⟨hempty.socket, hempty.rx, hempty.tx⟩⟩, .inl hnil,
      fun _ _ => ⟨hempty.socket, hempty.rx, hempty.tx⟩, fun _ _ => .inr (.inr ⟨k, ?_⟩)⟩
    exact hk.finalDue heh hpc

/-- A step of the handler thread that is not part of an operation. -/
theorem Inv.advance (h : s.Inv) {eh : EventThread} (heh : s.eh.advance = some eh)
    (hrun : s.eh.pc ≠ .runShutdown) (hreset : s.eh.pc ≠ .runReset)
    (hunusable : s.eh.pc ≠ .runUnusable) : Inv { s with eh := eh } := by
  have hshut : s.shut = .sock := by
    by_contra h0
    exact hrun (h.shut h0).1
  refine ⟨h.events.advance heh, fun h0 => absurd hshut h0, by rw [hshut]; trivial, fun hc => ?_,
    h.one.imp id fun ⟨p, hp, hat⟩ => ⟨p, hp, Attached.congr (s := s) rfl rfl rfl hat⟩,
    fun hav h0 => ?_, fun hu h0 => ?_⟩
  · rcases cleared_of_advance h.events heh hc with hp | ⟨hcl, -⟩
    · exact absurd hp hrun
    · obtain ⟨hnil, he⟩ := h.cleared hcl
      exact ⟨hnil, he.socket, he.rx, he.tx⟩
  · exact ⟨(h.available hav h0).socket, (h.available hav h0).rx, (h.available hav h0).tx⟩
  · rcases h.used hu h0 with hf | hp | ⟨k, hk⟩
    · exact .inl ⟨hf.socket, hf.rx, hf.tx⟩
    · exact absurd hp hrun
    · refine .inr (.inr ⟨k, (hk.advance heh ?_).1⟩)
      cases k
      · exact hreset
      · exact hunusable

theorem Inv.handler (h : s.Inv) {ret : Bool} (hok : s.Operating → s.stores = [])
    (hs : s.handler ret = some s') : s'.Inv := by
  unfold Connection.handler at hs
  split at hs
  next hpc => exact h.shutdownStep hpc (hok (.inl hpc)) hs
  next hpc =>
    -- the reset makes an empty device available
    obtain ⟨eh, heh, rfl⟩ := Option.map_eq_some_iff.mp hs
    obtain ⟨hnil, he⟩ := h.cleared (.inr (.inr hpc))
    have hshut : s.shut = .sock := by
      by_contra h0
      cases hpc.symm.trans (h.shut h0).1
    have hncl : ¬ Cleared eh := fun hc => by
      rcases cleared_of_advance h.events heh hc with hp | ⟨-, hp⟩
      · cases hpc.symm.trans hp
      · exact hp hpc
    refine ⟨h.events.advance heh, fun h0 => absurd hshut h0, by rw [hshut]; trivial,
      fun hc => absurd hc hncl, .inl hnil, fun _ _ => ⟨he.socket, he.rx, he.tx⟩, fun hu _ => ?_⟩
    cases ret <;> cases hu
  next hpc =>
    obtain ⟨eh, heh, rfl⟩ := Option.map_eq_some_iff.mp hs
    have hshut : s.shut = .sock := by
      by_contra h0
      cases hpc.symm.trans (h.shut h0).1
    have hncl : ¬ Cleared eh := fun hc => by
      rcases cleared_of_advance h.events heh hc with hp | ⟨hp | ⟨hp, -⟩ | hp, -⟩ <;>
        cases hpc.symm.trans hp
    exact ⟨h.events.advance heh, fun h0 => absurd hshut h0, by rw [hshut]; trivial,
      fun hc => absurd hc hncl,
      h.one.imp id fun ⟨p, hp, hat⟩ => ⟨p, hp, Attached.congr (s := s) rfl rfl rfl hat⟩,
      fun hav => (by cases hav), fun hu => (by cases hu)⟩
  next h1 h2 h3 =>
    obtain ⟨eh, heh, rfl⟩ := Option.map_eq_some_iff.mp hs
    exact h.advance heh h1 h2 h3

/-- **Serial steps keep the invariant.** -/
theorem Inv.step (h : s.Inv) (hok : s.Serial a) (hs : s.step a = some s') : s'.Inv := by
  cases a with
  | store sock =>
    cases hs
    exact h.store hok
  | storeNext i created => exact h.storeNext hok hs
  | down =>
    simp only [Connection.step] at hs
    split at hs <;> cases hs
    · exact h.touch (.inl rfl) (.refl _) (.refl _)
    · exact h
  | downAdd =>
    simp only [Connection.step] at hs
    split at hs
    · cases hs
    · cases hs
      exact h.touch (.inr ⟨.down, rfl, hok _ rfl⟩) (.refl _) (.refl _)
  | rxValid =>
    obtain ⟨hrx, hs⟩ := Option.ite_none_right_eq_some.mp hs
    split at hs <;> cases hs
    · exact h
    · exact Inv.touch h (.inl rfl) (hrx ▸ stays_of_some (by simp)) (.refl _)
  | rxFail e =>
    obtain ⟨hrx, hs⟩ := Option.ite_none_right_eq_some.mp hs
    cases hs
    exact h.touch (.inl rfl) (hrx ▸ stays_of_some (by simp)) (.refl _)
  | rxAdd =>
    simp only [Connection.step] at hs
    split at hs
    next e hrx =>
      cases hs
      exact h.touch (.inr ⟨e, rfl, hok e (by simp [added, hrx])⟩)
        (hrx ▸ stays_of_some (by simp)) (.refl _)
    · cases hs
  | rxReturn =>
    obtain ⟨⟨hrx, -⟩, hs⟩ := Option.ite_none_right_eq_some.mp hs
    cases hs
    exact h.touch (.inl rfl) (hrx ▸ stays_of_some (by simp)) (.refl _)
  | txFail e =>
    obtain ⟨htx, hs⟩ := Option.ite_none_right_eq_some.mp hs
    cases hs
    exact h.touch (.inl rfl) (.refl _) (htx ▸ stays_of_some (by simp))
  | txAdd =>
    simp only [Connection.step] at hs
    split at hs
    next e htx =>
      cases hs
      exact h.touch (.inr ⟨e, rfl, hok e (by simp [added, htx])⟩) (.refl _)
        (htx ▸ stays_of_some (by simp))
    · cases hs
  | txReturn =>
    obtain ⟨⟨htx, -⟩, hs⟩ := Option.ite_none_right_eq_some.mp hs
    cases hs
    exact h.touch (.inl rfl) (.refl _) (htx ▸ stays_of_some (by simp))
  | handler ret => exact h.handler hok hs

/-- A serial step overwrites no live socket. -/
theorem Inv.keepsSocket (h : s.Inv) (hok : s.Serial a) (hs : s.step a = some s') :
    s.KeepsSocket s' := by
  intro k hk
  have hsame : s'.tcpSocket = s.tcpSocket → s'.tcpSocket = some k ∨ s'.tcpSocket = none :=
    fun heq => .inl (heq.trans hk)
  cases a with
  | store sock =>
    cases hs
    unfold Connection.store
    split
    · exact .inl hk
    next hav =>
      -- the device is available, so there is no socket to overwrite
      have hav := not_not.mp hav
      cases hk.symm.trans (h.available hav (hok hav).1).socket
  | storeNext i created =>
    simp only [Connection.step, Connection.storeNext] at hs
    split at hs <;> cases hs <;> exact hsame rfl
  | down =>
    simp only [Connection.step] at hs
    split at hs <;> cases hs <;> exact hsame rfl
  | downAdd =>
    simp only [Connection.step] at hs
    split at hs <;> cases hs
    exact hsame rfl
  | rxValid =>
    obtain ⟨-, hs⟩ := Option.ite_none_right_eq_some.mp hs
    split at hs <;> cases hs <;> exact hsame rfl
  | rxAdd =>
    simp only [Connection.step] at hs
    split at hs <;> cases hs
    exact hsame rfl
  | txAdd =>
    simp only [Connection.step] at hs
    split at hs <;> cases hs
    exact hsame rfl
  | handler ret =>
    simp only [Connection.step, Connection.handler] at hs
    split at hs
    · unfold Connection.shutdownStep at hs
      split at hs
      · cases hs
        exact hsame rfl
      · obtain ⟨t, -, rfl⟩ := Option.map_eq_some_iff.mp hs
        exact hsame rfl
      · obtain ⟨t, -, rfl⟩ := Option.map_eq_some_iff.mp hs
        exact hsame rfl
      · cases hs
        exact .inr rfl
      · obtain ⟨eh, -, rfl⟩ := Option.map_eq_some_iff.mp hs
        exact hsame rfl
    all_goals
      obtain ⟨eh, -, rfl⟩ := Option.map_eq_some_iff.mp hs
      exact hsame rfl
  | _ =>
    obtain ⟨-, hs⟩ := Option.ite_none_right_eq_some.mp hs
    cases hs
    exact hsame rfl

theorem inv_of_reachable (h : stubConnection.ReachableWhere Serial s) : s.Inv :=
  h.invariant inv_init fun _ _ _ hs hok hstep => hs.step hok hstep

/-- A settled device that is in use has its connection. -/
theorem Inv.full_of_settled (h : s.Inv) (hset : s.Settled) (hused : s.status = .used) :
    s.Full := by
  obtain ⟨hnil, -, hpc⟩ := hset
  rcases h.used hused hnil with hf | hp | ⟨k, hk⟩
  · exact hf
  · rcases hpc with hpc | hpc <;> cases hpc.symm.trans hp
  · have hafter := hk.after
    rcases hpc with hpc | hpc <;> rw [hpc] at hafter <;> exact hafter.elim

end Connection

open Connection

/-- **One connection at a time.** As long as the calls that attach a connection overlap neither
each other nor the shutdown and the reset, their threads are created, and events are added while
the handler thread is still to test SHUTDOWN, no live socket is overwritten, and a settled device
that is in use has a socket and both threads. -/
theorem exclusive_connection {s : Connection} (h : stubConnection.ReachableWhere Serial s) :
    (∀ a s', s.Serial a → stubConnection.step s a = some s' → s.KeepsSocket s') ∧
      (s.Settled → s.status = .used → s.Full) :=
  ⟨fun _ _ hok hs => (inv_of_reachable h).keepsSocket hok hs,
    (inv_of_reachable h).full_of_settled⟩

/-- A connection is attached, its client leaves, and the next one is attached. -/
def reconnected : List Connection.Act :=
  [.store (some 1), .storeNext 0 true, .storeNext 0 true, .storeNext 0 true, .handler false,
    .rxFail .errorTcp, .rxAdd] ++ [.rxReturn, .txReturn] ++ List.replicate 16 (.handler false) ++
    [.store (some 2), .storeNext 0 true, .storeNext 0 true, .storeNext 0 true]

theorem exclusive_connection_reconnected :
    ∃ s, stubConnection.runWhere Serial stubConnection.init reconnected = some s ∧
      (∀ a s', s.Serial a → stubConnection.step s a = some s' → s.KeepsSocket s') ∧
      (s.Settled → s.status = .used → s.Full) :=
  Machine.exists_runWhere (by decide) fun _ h => exclusive_connection h

/-- The first client leaves while its call of `store_sockfd` has not set the status yet. -/
def failedEarly : List Connection.Act :=
  [.store (some 1), .storeNext 0 true, .rxFail .errorTcp, .rxAdd, .rxReturn] ++
    List.replicate 16 (.handler false) ++ [.storeNext 0 true, .storeNext 0 true]

/-- A client is attached, but there is no memory for its receive thread. -/
def notCreated : List Connection.Act :=
  [.store (some 1), .storeNext 0 false, .storeNext 0 true, .storeNext 0 true]

/-- **Two calls of `store_sockfd` both pass the test, and the second one overwrites the socket
of the first; a call whose connection fails early leaves the device in use without one, and a call
whose thread is not created leaves it in use without the thread.** -/
theorem overlapping_connections :
    (∃ s s', stubConnection.Reachable s ∧ stubConnection.step s (.store (some 2)) = some s' ∧
      ¬ s.KeepsSocket s') ∧
    (∃ s, stubConnection.Reachable s ∧ s.Settled ∧ s.status = .used ∧ s.tcpSocket = none) ∧
    ∃ s, stubConnection.Reachable s ∧ s.Settled ∧ s.status = .used ∧ ¬ IsThread s.tcpRx := by
  refine ⟨?_, ?_, ?_⟩
  · obtain ⟨s, hs, hp⟩ := Machine.exists_reachable_of_any (m := stubConnection)
      [.store (some 1)] (fun s => s.tcpSocket = some 1 ∧ s.status = .available) (by decide)
    simp only [decide_eq_true_eq] at hp
    refine ⟨s, _, hs, rfl, fun hk => ?_⟩
    have := hk 1 hp.1
    simp [Connection.store, hp.2] at this
  · obtain ⟨s, hs, hp⟩ := Machine.exists_reachable_of_any (m := stubConnection) failedEarly
      (fun s => (s.stores = [] ∧ s.downs = 0 ∧ (s.eh.pc = .loopTop ∨ s.eh.pc = .wait)) ∧
        s.status = .used ∧ s.tcpSocket = none) (by decide)
    exact ⟨s, hs, by simpa [Settled] using hp⟩
  · obtain ⟨s, hs, hp⟩ := Machine.exists_reachable_of_any (m := stubConnection) notCreated
      (fun s => (s.stores = [] ∧ s.downs = 0 ∧ (s.eh.pc = .loopTop ∨ s.eh.pc = .wait)) ∧
        s.status = .used ∧ s.tcpRx = some .errPtr) (by decide)
    obtain ⟨hset, hused, hrx⟩ := of_decide_eq_true hp
    exact ⟨s, hs, hset, hused, fun h => h.2 hrx⟩

end Usbip.Stub
