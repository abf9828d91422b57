import Usbip.Event.Handler

/-!
# Every device event is served

An event SHUTDOWN|RESET or SHUTDOWN|UNUSABLE asks for a run of the shutdown operation and then
for one of the reset or unusable operation. The handler thread tests and clears the bits one
after the other, so an event that is added in the middle of a pass joins the bits of the pass:

* added while the thread is still to test SHUTDOWN, it is served by this pass;
* added after the last bit it needs was cleared, it is served by the next pass, unless the
  thread returns first;
* added in between, one of its bits is cleared unserved or its second operation comes first.

`Hears` excludes the third case and the returns. Under it, in every fair behavior, every event
is served in order (`event_served`); a connection that is attached between the reset and the
clearing of its bit loses its event otherwise (`event_lost`).
-/

namespace Usbip.Event

open Machine

/-- The operation an event asks for after the shutdown. -/
inductive Final
  | reset | unusable
  deriving DecidableEq, Repr

theorem EhEvent.bye_mask (e : EhEvent) : e.mask.bye = false := by cases e <;> rfl

/-- The second operation of an event. -/
def EhEvent.final : EhEvent → Final
  | .errorMalloc => .unusable
  | _ => .reset

/-- The bit that asks for an operation. -/
def Events.bit (m : Events) : Final → Bool
  | .reset => m.reset
  | .unusable => m.unusable

/-- Where the thread runs an operation. -/
def Final.pc : Final → EhPc
  | .reset => .runReset
  | .unusable => .runUnusable

namespace EventThread

/-- The thread is going to test SHUTDOWN before the bit of `k`, and to get there. -/
def Before (t : EventThread) (k : Final) : Prop :=
  match t.pc with
  | .loopTop => t.stop = false
  | .wait | .happened | .testShutdown | .runShutdown => True
  | .testUnusable | .runUnusable | .clearUnusable => k = .reset ∧ t.event.bye = false
  | .testBye => t.event.bye = false
  | _ => False

instance (t : EventThread) (k : Final) : Decidable (t.Before k) := by
  dsimp only [Before]
  cases t.pc <;> infer_instance

/-- The thread may add BYE to its mask without leaving an event behind. -/
def ByeInTime (t : EventThread) : Prop :=
  match t.pc with
  | .testUnusable | .runUnusable | .clearUnusable | .testBye => t.event.shutdown = false
  | _ => True

instance (t : EventThread) : Decidable t.ByeInTime := by
  dsimp only [ByeInTime]
  cases t.pc <;> infer_instance

/-- The stop flag may be set without leaving an event behind. -/
def StopInTime (t : EventThread) : Prop := t.pc = .loopTop → t.event.shutdown = false

instance (t : EventThread) : Decidable t.StopInTime := inferInstanceAs (Decidable (_ → _))

end EventThread

namespace Served

variable {σ ρ : Type}

/-- An event is added while the thread is still to test SHUTDOWN, and the removal of the
device does not make the thread return before it has seen the events that are waiting. -/
def Hears (s : Served σ) : Act ρ → Prop
  | .add e => s.eh.Before e.final
  | .remove => s.eh.ByeInTime
  | .stopEh => s.eh.StopInTime
  | _ => True

instance (s : Served σ) : (a : Act ρ) → Decidable (s.Hears a)
  | .add e => inferInstanceAs (Decidable (s.eh.Before e.final))
  | .remove => inferInstanceAs (Decidable s.eh.ByeInTime)
  | .stopEh => inferInstanceAs (Decidable s.eh.StopInTime)
  | .attach => .isTrue trivial
  | .handler _ => .isTrue trivial
  | .stopReturn => .isTrue trivial

end Served

/-! ### Obligations -/

namespace EventThread

variable {t t' : EventThread} {k : Final}

/-- A run of the shutdown operation is due for an event with second operation `k`. -/
structure ShutdownDue (k : Final) (t : EventThread) : Prop where
  before : t.Before k
  shutdown : t.event.shutdown = true
  bit : t.event.bit k = true

/-- The shutdown has run, and the operation `k` is due. -/
structure FinalDue (k : Final) (t : EventThread) : Prop where
  after : match t.pc with
    | .clearShutdown | .testReset | .runReset => True
    | .clearReset | .testUnusable | .runUnusable => k = .unusable
    | _ => False
  bit : t.event.bit k = true

/-- The number of steps that the thread takes at most until it has run the shutdown. -/
def toShutdown : EhPc → ℕ
  | .testUnusable => 8
  | .runUnusable => 7
  | .clearUnusable => 6
  | .testBye => 5
  | .loopTop => 5
  | .wait => 4
  | .happened => 3
  | .testShutdown => 2
  | .runShutdown => 1
  | _ => 0

/-- The number of steps that the thread takes at most from the shutdown to its last
operation. -/
def toFinal : EhPc → ℕ
  | .clearShutdown => 6
  | .testReset => 5
  | .runReset => 4
  | .clearReset => 3
  | .testUnusable => 2
  | .runUnusable => 1
  | _ => 0

@[simp] theorem bit_add (e : Events) :
    (t.add e).event.bit k = (t.event.bit k || e.bit k) := by
  cases k <;> rfl

theorem ShutdownDue.isSome_advance (h : t.ShutdownDue k) : t.advance.isSome = true := by
  obtain ⟨hb, hs, -⟩ := h
  unfold Before at hb
  unfold EventThread.advance
  cases hpc : t.pc <;> simp_all [Events.happened]

/-- Until it runs the shutdown, each step of the thread brings it closer. -/
theorem ShutdownDue.advance (h : t.ShutdownDue k) (ha : t.advance = some t')
    (hpc : t.pc ≠ .runShutdown) :
    t'.ShutdownDue k ∧ toShutdown t'.pc < toShutdown t.pc := by
  obtain ⟨hb, hs, hk⟩ := h
  have hhap : t.event.happened = true := by simp [Events.happened, hs]
  unfold Before at hb
  unfold EventThread.advance at ha
  cases hp : t.pc <;> rw [hp] at hb ha hpc
  case loopTop =>
    cases ha
    exact ⟨⟨by simp [Before, hb], hs, hk⟩, by simp [toShutdown, hb]⟩
  case wait =>
    rw [hhap, Bool.true_or, if_pos rfl] at ha
    cases ha
    exact ⟨⟨trivial, hs, hk⟩, by simp [toShutdown]⟩
  case happened =>
    rw [hhap] at ha
    cases ha
    exact ⟨⟨trivial, hs, hk⟩, by simp [toShutdown]⟩
  case testShutdown =>
    rw [hs] at ha
    cases ha
    exact ⟨⟨trivial, hs, hk⟩, by simp [toShutdown]⟩
  case runShutdown => exact absurd rfl hpc
  case testUnusable =>
    obtain ⟨rfl, hbye⟩ := hb
    cases ha
    by_cases hu : t.event.unusable = true
    · exact ⟨⟨by simp [Before, hu, hbye], hs, hk⟩, by simp [toShutdown, hu]⟩
    · exact ⟨⟨by simp [Before, hu, hbye], hs, hk⟩, by simp [toShutdown, hu]⟩
  case runUnusable =>
    obtain ⟨rfl, hbye⟩ := hb
    cases ha
    exact ⟨⟨by simp [Before, hbye], hs, hk⟩, by simp [toShutdown]⟩
  case clearUnusable =>
    -- clearing UNUSABLE does not touch the bit of an event that asks for a reset
    obtain ⟨rfl, hbye⟩ := hb
    cases ha
    exact ⟨⟨by simp [Before, hbye], hs, hk⟩, by simp [toShutdown]⟩
  case testBye =>
    cases ha
    exact ⟨⟨by simp [Before, hb], hs, hk⟩, by simp [toShutdown, hb]⟩
  all_goals exact hb.elim

/-- The run of the shutdown leaves the second operation due. -/
theorem ShutdownDue.finalDue (h : t.ShutdownDue k) (ha : t.advance = some t')
    (hpc : t.pc = .runShutdown) : t'.FinalDue k := by
  unfold EventThread.advance at ha
  rw [hpc] at ha
  cases ha
  exact ⟨trivial, h.bit⟩

theorem FinalDue.isSome_advance (h : t.FinalDue k) : t.advance.isSome = true := by
  have ha := h.after
  unfold EventThread.advance
  cases hpc : t.pc <;> simp_all

/-- Until it runs its last operation, each step of the thread brings it closer. -/
theorem FinalDue.advance (h : t.FinalDue k) (ha : t.advance = some t') (hpc : t.pc ≠ k.pc) :
    t'.FinalDue k ∧ toFinal t'.pc < toFinal t.pc := by
  obtain ⟨hb, hk⟩ := h
  unfold EventThread.advance at ha
  cases hp : t.pc <;> rw [hp] at hb ha hpc
  case clearShutdown =>
    cases ha
    refine ⟨⟨trivial, ?_⟩, by simp [toFinal]⟩
    cases k <;> exact hk
  case testReset =>
    cases ha
    by_cases hr : t.event.reset = true
    · exact ⟨⟨by simp [hr], hk⟩, by simp [toFinal, hr]⟩
    · cases k
      · exact absurd hk hr
      · exact ⟨⟨by simp [hr], hk⟩, by simp [toFinal, hr]⟩
  case runReset =>
    cases k
    · exact absurd rfl hpc
    · cases ha
      exact ⟨⟨rfl, hk⟩, by simp [toFinal]⟩
  case clearReset =>
    subst hb
    cases ha
    exact ⟨⟨rfl, hk⟩, by simp [toFinal]⟩
  case testUnusable =>
    subst hb
    have hu : t.event.unusable = true := hk
    cases ha
    exact ⟨⟨by simp [hu], hk⟩, by simp [toFinal, hu]⟩
  case runUnusable =>
    subst hb
    exact absurd rfl hpc
  all_goals exact hb.elim

/-! ### Steps of the other threads -/

/-- Adding bits keeps an obligation, unless BYE is added out of time. -/
theorem ShutdownDue.add (h : t.ShutdownDue k) {e : Events}
    (hbye : e.bye = true → t.ByeInTime) : (t.add e).ShutdownDue k := by
  obtain ⟨hb, hs, hk⟩ := h
  refine ⟨?_, by simp [EventThread.add, Events.or, hs], by simp [hk]⟩
  unfold Before at hb
  unfold ByeInTime at hbye
  unfold Before EventThread.add
  cases hp : t.pc <;> simp_all [Events.or]

theorem FinalDue.add (h : t.FinalDue k) {e : Events} : (t.add e).FinalDue k :=
  ⟨h.after, by simp [h.bit]⟩

theorem ShutdownDue.setStop (h : t.ShutdownDue k) (hstop : t.StopInTime) :
    ({ t with stop := true } : EventThread).ShutdownDue k := by
  obtain ⟨hb, hs, hk⟩ := h
  refine ⟨?_, hs, hk⟩
  unfold Before at hb ⊢
  cases hp : t.pc <;> simp_all [StopInTime]

theorem bye_add_mask (t : EventThread) (e : EhEvent) :
    (t.add e.mask).event.bye = t.event.bye := by
  simp [EventThread.add, Events.or, EhEvent.bye_mask]

/-- The thread itself never sets BYE or the stop flag, and returns only on one of them. -/
theorem advance_quiet (ha : t.advance = some t')
    (hbye : t.event.bye = false) (hstop : t.stop = false) :
    t'.event.bye = false ∧ t'.stop = false ∧ t'.pc ≠ .stopped := by
  unfold EventThread.advance at ha
  cases hp : t.pc <;> rw [hp] at ha
  case wait =>
    obtain ⟨-, hs⟩ := Option.ite_none_right_eq_some.mp ha
    cases hs
    exact ⟨hbye, hstop, by simp⟩
  case stopped => cases ha
  all_goals
    cases ha
    refine ⟨hbye, hstop, ?_⟩
    try split
    all_goals simp_all

theorem advance_bye (ha : t.advance = some t') :
    t'.event.bye = t.event.bye ∧ t'.stop = t.stop := by
  unfold EventThread.advance at ha
  cases hp : t.pc <;> rw [hp] at ha
  case wait =>
    obtain ⟨-, hs⟩ := Option.ite_none_right_eq_some.mp ha
    cases hs
    exact ⟨rfl, rfl⟩
  all_goals
    cases ha
    try exact ⟨rfl, rfl⟩

/-- An event that is heard makes a shutdown due. -/
theorem shutdownDue_add {e : EhEvent} (h : t.Before e.final) :
    (t.add e.mask).ShutdownDue e.final := by
  refine ⟨?_, ?_, ?_⟩
  · unfold Before at h ⊢
    rw [bye_add_mask]
    exact h
  · cases e <;> simp [EventThread.add, Events.or, EhEvent.mask]
  · rw [bit_add]
    cases e <;> simp [EhEvent.mask, EhEvent.final, Events.bit]

end EventThread

/-! ### Runs -/

section Runs

variable {σ ρ : Type} {ops : EhOps σ ρ} {side : Side} {dev : σ} {k : Final}
  {s s' : Served σ} {a : Act ρ}

/-- The handler thread runs the operation at `pc` in step `n`. -/
def RunsAt (b : Behavior (machine ops side dev)) (n : ℕ) (pc : EhPc) : Prop :=
  (b.state n).eh.pc = pc ∧ ∃ r, b.label n = some (.handler r)

/-- Each added event is followed by a run of the shutdown operation that starts after the add,
and then by a run of its second operation that starts after that shutdown ended. -/
def EveryEventServed (b : Behavior (machine ops side dev)) : Prop :=
  ∀ n e, b.label n = some (.add e) →
    ∃ i j, n < i ∧ RunsAt b i .runShutdown ∧ i < j ∧ RunsAt b j e.final.pc

theorem enabled_handler [Inhabited ρ] (h : s.eh.advance.isSome = true) :
    (machine ops side dev).Enabled Act.ofHandler s := by
  refine ⟨.handler default, trivial, ?_⟩
  change (s.eh.advance.map _).isSome = true
  rw [Option.isSome_map]
  exact h

theorem advance_of_handler {r : ρ} (h : (machine ops side dev).step s (.handler r) = some s') :
    s.eh.advance = some s'.eh := by
  obtain ⟨eh, heh, rfl⟩ := Option.map_eq_some_iff.mp h
  exact heh

/-- What a step of another thread does to the handler thread. -/
theorem eh_of_not_handler (h : (machine ops side dev).step s a = some s')
    (ha : ¬ a.ofHandler) :
    s'.eh = s.eh ∨ (∃ e, a = .add e ∧ s'.eh = s.eh.add e.mask) ∨
      (a = .remove ∧ s'.eh = s.eh.add side.removed) ∨
      (a = .stopEh ∧ s'.eh = { s.eh with stop := true }) := by
  cases a with
  | add e =>
    cases h
    exact .inr (.inl ⟨e, rfl, rfl⟩)
  | attach =>
    obtain ⟨dev, -, rfl⟩ := Option.map_eq_some_iff.mp h
    exact .inl rfl
  | handler r => exact absurd trivial ha
  | remove =>
    obtain ⟨-, hs⟩ := Option.ite_none_right_eq_some.mp h
    cases hs
    exact .inr (.inr (.inl ⟨rfl, rfl⟩))
  | stopEh =>
    obtain ⟨-, hs⟩ := Option.ite_none_right_eq_some.mp h
    cases hs
    exact .inr (.inr (.inr ⟨rfl, rfl⟩))
  | stopReturn =>
    obtain ⟨-, hs⟩ := Option.ite_none_right_eq_some.mp h
    cases hs
    exact .inl rfl

/-- **One step with a shutdown due**: it stays due and does not move away, except that the
thread runs it. -/
theorem shutdownDue_step (h : s.eh.ShutdownDue k) (hok : s.Hears a)
    (hs : (machine ops side dev).step s a = some s')
    (hrun : ¬ (a.ofHandler ∧ s.eh.pc = .runShutdown)) :
    s'.eh.ShutdownDue k ∧
      EventThread.toShutdown s'.eh.pc ≤ EventThread.toShutdown s.eh.pc ∧
      (a.ofHandler → EventThread.toShutdown s'.eh.pc < EventThread.toShutdown s.eh.pc) := by
  by_cases ha : a.ofHandler
  · cases a with
    | handler r =>
      obtain ⟨hdue, hlt⟩ := h.advance (advance_of_handler hs) fun hpc => hrun ⟨ha, hpc⟩
      exact ⟨hdue, Nat.le_of_lt hlt, fun _ => hlt⟩
    | _ => exact ha.elim
  · rcases eh_of_not_handler hs ha with heh | ⟨e, rfl, heh⟩ | ⟨rfl, heh⟩ | ⟨rfl, heh⟩
    all_goals rw [heh]
    · exact ⟨h, le_refl _, fun hT => absurd hT ha⟩
    · exact ⟨h.add fun hbye => by simp [EhEvent.bye_mask] at hbye, le_refl _,
        fun hT => absurd hT ha⟩
    · exact ⟨h.add fun _ => hok, le_refl _, fun hT => absurd hT ha⟩
    · exact ⟨h.setStop hok, le_refl _, fun hT => absurd hT ha⟩

/-- **One step with a second operation due.** -/
theorem finalDue_step (h : s.eh.FinalDue k) (hs : (machine ops side dev).step s a = some s')
    (hrun : ¬ (a.ofHandler ∧ s.eh.pc = k.pc)) :
    s'.eh.FinalDue k ∧ EventThread.toFinal s'.eh.pc ≤ EventThread.toFinal s.eh.pc ∧
      (a.ofHandler → EventThread.toFinal s'.eh.pc < EventThread.toFinal s.eh.pc) := by
  by_cases ha : a.ofHandler
  · cases a with
    | handler r =>
      obtain ⟨hdue, hlt⟩ := h.advance (advance_of_handler hs) fun hpc => hrun ⟨ha, hpc⟩
      exact ⟨hdue, Nat.le_of_lt hlt, fun _ => hlt⟩
    | _ => exact ha.elim
  · rcases eh_of_not_handler hs ha with heh | ⟨e, rfl, heh⟩ | ⟨rfl, heh⟩ | ⟨rfl, heh⟩
    all_goals rw [heh]
    · exact ⟨h, le_refl _, fun hT => absurd hT ha⟩
    · exact ⟨h.add, le_refl _, fun hT => absurd hT ha⟩
    · exact ⟨h.add, le_refl _, fun hT => absurd hT ha⟩
    · exact ⟨⟨h.after, h.bit⟩, le_refl _, fun hT => absurd hT ha⟩

/-- **Every event that is heard is served.** In every fair behavior of any device in which
events are added while the thread is still to test SHUTDOWN and the removal does not cut a
pass short, each added event is followed by its shutdown and then by its second operation. -/
theorem event_served [Inhabited ρ] (b : Behavior (machine ops side dev))
    (hfair : b.Fair Act.ofHandler) (hears : b.Where Served.Hears) : EveryEventServed b := by
  intro n e hadd
  have hstep := Behavior.next_of_some hadd
  have hdue : (b.state (n + 1)).eh.ShutdownDue e.final := by
    have heh : (b.state (n + 1)).eh = (b.state n).eh.add e.mask := by
      rw [← Option.some.inj hstep]
    rw [heh]
    exact EventThread.shutdownDue_add (hears n _ hadd)
  -- first the shutdown
  obtain ⟨i, a, hi, hl, hT, hduei, hpc⟩ := hfair.leadsTo
    (R := fun s => s.eh.ShutdownDue e.final) (G := fun s => s.eh.pc = .runShutdown)
    (fun s => EventThread.toShutdown s.eh.pc) hears
    (fun s h => enabled_handler h.isSome_advance)
    (fun s a s' h hok hs hrun => shutdownDue_step h hok hs hrun) hdue
  obtain ⟨r, rfl⟩ : ∃ r, a = .handler r := by
    cases a with
    | handler r => exact ⟨r, rfl⟩
    | _ => exact hT.elim
  have hfinal : (b.state (i + 1)).eh.FinalDue e.final :=
    hduei.finalDue (advance_of_handler (Behavior.next_of_some hl)) hpc
  -- then the second operation
  obtain ⟨j, a', hj, hl', hT', -, hpc'⟩ := hfair.leadsTo
    (R := fun s => s.eh.FinalDue e.final) (G := fun s => s.eh.pc = e.final.pc)
    (fun s => EventThread.toFinal s.eh.pc) hears
    (fun s h => enabled_handler h.isSome_advance)
    (fun s a s' h _ hs hrun => finalDue_step h hs hrun) hfinal
  obtain ⟨r', rfl⟩ : ∃ r, a' = .handler r := by
    cases a' with
    | handler r => exact ⟨r, rfl⟩
    | _ => exact hT'.elim
  exact ⟨i, j, by omega, ⟨hpc, r, hl⟩, by omega, ⟨hpc', r', hl'⟩⟩

end Runs

/-! ### A connection that comes too early -/

/-- `enum usbip_status`, the values that a `stub_device` takes. -/
inductive SdevStatus
  | available | used | error
  deriving DecidableEq, Repr

/-- What the operations of a `stub_device` do to its status and its connection. -/
structure StubLink where
  status : SdevStatus
  connected : Bool
  deriving DecidableEq, Repr

/-- `stub_shutdown_connection`, `stub_device_reset` (`ret` is false when the device could be
reset), `stub_device_unusable`, and the attachment of a socket by `store_sockfd`. -/
def stubLinkOps : EhOps StubLink Bool where
  shutdown l _ := { l with connected := false }
  reset l ret := { l with status := if ret then .error else .available }
  unusable l _ := { l with status := .error }
  attach l := if l.status = .available then some ⟨.used, true⟩ else none

/-- A device with a connection. -/
def linked : StubLink := ⟨.used, true⟩

/-- The thread sleeps. -/
def Served.asleep {σ : Type} (s : Served σ) : Bool :=
  s.eh.pc = .wait && !s.eh.event.happened && !s.eh.stop

theorem not_enabled_of_asleep {σ ρ : Type} {ops : EhOps σ ρ} {side : Side} {dev : σ}
    {s : Served σ} (h : s.asleep = true) : ¬ (machine ops side dev).Enabled Act.ofHandler s := by
  simp only [Served.asleep, Bool.and_eq_true, decide_eq_true_eq, Bool.not_eq_true'] at h
  obtain ⟨⟨hpc, hev⟩, hstop⟩ := h
  rintro ⟨a, ha, hstep⟩
  cases a with
  | handler r =>
    obtain ⟨s', hs'⟩ := Option.isSome_iff_exists.mp hstep
    have hadv := advance_of_handler hs'
    rw [EventThread.advance, hpc] at hadv
    simp [hev, hstop] at hadv
  | _ => exact ha.elim

/-- The user ends the connection and the thread serves the event. -/
def servedDown : List (Act Bool) :=
  [.handler false, .add .down] ++ List.replicate 12 (.handler false)

theorem event_served_servedDown :
    ∃ b : Behavior (machine stubLinkOps .stub linked), b.Fair Act.ofHandler ∧
      b.label 1 = some (.add .down) ∧ EveryEventServed b := by
  have hrun : ((machine stubLinkOps .stub linked).runWhere Served.Hears
      (machine stubLinkOps .stub linked).init servedDown).any Served.asleep = true := by decide
  obtain ⟨s, hs, hasleep⟩ := (Option.any_eq_true _ _).mp hrun
  obtain ⟨b, hfair, hears, hlabel⟩ := exists_behavior_where hs (not_enabled_of_asleep hasleep)
  exact ⟨b, hfair, hlabel 1, event_served b hfair hears⟩

/-- The user ends the connection; a new one is attached as soon as the device is reset, and
its first error is raised before the handler thread clears RESET. -/
def earlyConnection : List (Act Bool) :=
  [.handler false, .add .down] ++ List.replicate 7 (.handler false) ++
    [.attach, .add .errorTcp] ++ List.replicate 12 (.handler false)

/-- **The error of a connection that comes too early is never followed by a reset**: the
thread goes back to sleep and leaves the device in use without a connection. -/
theorem event_lost :
    ∃ b : Behavior (machine stubLinkOps .stub linked), b.Fair Act.ofHandler ∧
      ¬ EveryEventServed b ∧
      ∀ n, earlyConnection.length ≤ n →
        (b.state n).asleep = true ∧ (b.state n).dev = ⟨.used, false⟩ := by
  have hrun : ((machine stubLinkOps .stub linked).run (machine stubLinkOps .stub linked).init
      earlyConnection).any (fun s => s.asleep && s.dev = ⟨.used, false⟩) = true := by decide
  obtain ⟨s, hs, hend⟩ := (Option.any_eq_true _ _).mp hrun
  simp only [Bool.and_eq_true, decide_eq_true_eq] at hend
  obtain ⟨b, hfair, hlabel, hstate⟩ := exists_behavior hs (not_enabled_of_asleep hend.1)
  refine ⟨b, hfair, fun hall => ?_, fun n hn => ?_⟩
  · obtain ⟨i, j, hi, -, hj, hpc, r, hl⟩ := hall 10 .errorTcp (hlabel 10)
    rw [hlabel] at hl
    obtain ⟨hlen, -⟩ := List.getElem?_eq_some_iff.mp hl
    -- the only reset of this run starts in step 8
    have honly : ∀ j < earlyConnection.length, 10 < j →
        ((machine stubLinkOps .stub linked).follow earlyConnection j).any
          (fun s => s.eh.pc = .runReset) = false := by decide
    have hno := honly j hlen (by omega)
    rw [hstate j] at hno
    simp [hpc, EhEvent.final, Final.pc] at hno
  · have hlast := hstate n
    rw [follow, List.take_of_length_le hn, hs] at hlast
    rw [← Option.some.inj hlast]
    exact hend

end Usbip.Event
