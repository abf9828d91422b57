import Usbip.Event.Service

/-!
# Removing a device

`shutdown_busid` and `vhci_stop` add a REMOVED event and then stop the handler thread, after
which the device is freed. The thread looks at its stop flag and at the BYE bit in places of
their own, so the shutdown may be left out:

* REMOVED added after the thread has tested SHUTDOWN in the current pass: the thread returns at
  the end of the pass because of BYE;
* the stop flag set while the thread is about to test it: the thread never looks at its mask.

Otherwise the shutdown has run when `usbip_stop_eh` returns (`shutdown_before_stop`), and in
the two cases it never runs.
-/

namespace Usbip.Event

open Machine

variable {σ ρ : Type} {ops : EhOps σ ρ} {side : Side} {dev : σ} {s s' : Served σ} {a : Act ρ}

namespace EventThread

/-- The thread is still to test SHUTDOWN, or about to run the shutdown. -/
def Ahead (t : EventThread) : Prop :=
  match t.pc with
  | .loopTop | .wait | .happened | .testShutdown | .runShutdown => True
  | _ => False

instance (t : EventThread) : Decidable t.Ahead := by
  dsimp only [Ahead]
  generalize t.pc = pc
  induction pc using EhPc.casesOn <;> infer_instance

/-- The thread is going to return without another look at SHUTDOWN. -/
def Leaving (t : EventThread) : Prop :=
  t.event.bye = true ∧ (t.Ahead → t.pc = .loopTop ∧ t.stop = true)

variable {t t' : EventThread}

/-- Behind the test of SHUTDOWN a thread with BYE in its mask goes straight to its end. -/
theorem not_ahead_advance (h : ¬ t.Ahead) (hbye : t.event.bye = true)
    (ha : t.advance = some t') : t'.event.bye = true ∧ ¬ t'.Ahead := by
  unfold EventThread.advance at ha
  unfold Ahead at h
  cases hp : t.pc <;> rw [hp] at ha h
  case testReset =>
    cases ha
    refine ⟨hbye, ?_⟩
    cases t.event.reset <;> simp [Ahead]
  case testUnusable =>
    cases ha
    refine ⟨hbye, ?_⟩
    cases t.event.unusable <;> simp [Ahead]
  case testBye =>
    cases ha
    exact ⟨hbye, by simp [Ahead, hbye]⟩
  case loopTop => exact absurd trivial h
  case wait => exact absurd trivial h
  case happened => exact absurd trivial h
  case testShutdown => exact absurd trivial h
  case runShutdown => exact absurd trivial h
  all_goals
    cases ha
    try exact ⟨hbye, by simp [Ahead]⟩

/-- A thread that is leaving does not run the shutdown and stays on its way out. -/
theorem Leaving.advance (h : t.Leaving) (ha : t.advance = some t') :
    t'.Leaving ∧ t.pc ≠ .runShutdown := by
  obtain ⟨hbye, hahead⟩ := h
  by_cases hA : t.Ahead
  · -- at the head of the loop with the flag set
    obtain ⟨hpc, hstop⟩ := hahead hA
    rw [EventThread.advance, hpc] at ha
    cases ha
    exact ⟨⟨hbye, by simp [Ahead, hstop]⟩, by simp [hpc]⟩
  · obtain ⟨hbye', hA'⟩ := not_ahead_advance hA hbye ha
    refine ⟨⟨hbye', fun h => absurd h hA'⟩, fun hpc => hA ?_⟩
    simp [Ahead, hpc]

/-- A thread that has a shutdown to run and is not told to stop at the wrong place stays ahead
of it until it runs it. -/
theorem Ahead.advance (h : t.Ahead) (hs : t.event.shutdown = true)
    (hstop : t.pc = .loopTop → t.stop = false) (ha : t.advance = some t') :
    t.pc = .runShutdown ∨
      (t'.Ahead ∧ t'.event = t.event ∧ t'.stop = t.stop ∧ t'.pc ≠ .loopTop) := by
  have hhap : t.event.happened = true := by simp [Events.happened, hs]
  unfold EventThread.advance at ha
  unfold Ahead at h
  cases hp : t.pc <;> rw [hp] at ha h hstop
  case loopTop =>
    cases ha
    exact .inr ⟨by simp [Ahead, hstop rfl], rfl, rfl, by simp [hstop rfl]⟩
  case wait =>
    rw [hhap, Bool.true_or, if_pos rfl] at ha
    cases ha
    exact .inr ⟨trivial, rfl, rfl, by simp⟩
  case happened =>
    rw [hhap] at ha
    cases ha
    exact .inr ⟨trivial, rfl, rfl, by simp⟩
  case testShutdown =>
    rw [hs] at ha
    cases ha
    exact .inr ⟨trivial, rfl, rfl, by simp⟩
  case runShutdown => exact .inl rfl
  all_goals exact h.elim

end EventThread

namespace Served

/-- The REMOVED event comes while the thread is still to test SHUTDOWN, and the stop flag not
while the thread is about to test it. -/
def InTime (s : Served σ) : Act ρ → Prop
  | .remove => s.eh.Ahead
  | .stopEh => s.eh.pc ≠ .loopTop
  | _ => True

instance (s : Served σ) : (a : Act ρ) → Decidable (s.InTime a)
  | .remove => inferInstanceAs (Decidable s.eh.Ahead)
  | .stopEh => inferInstanceAs (Decidable (s.eh.pc ≠ .loopTop))
  | .add _ => .isTrue trivial
  | .attach => .isTrue trivial
  | .handler _ => .isTrue trivial
  | .stopReturn => .isTrue trivial

/-- Before the removal nobody asks the thread to return; from then on BYE is set, and a thread
that has run the shutdown is on its way out. -/
structure Removing (s : Served σ) : Prop where
  before : s.remover = .idle → s.eh.event.bye = false ∧ s.eh.stop = false ∧ s.eh.pc ≠ .stopped
  bye : s.remover ≠ .idle → s.eh.event.bye = true
  stop : s.eh.stop = true → s.remover = .stopping ∨ s.remover = .returned
  ran : s.remover ≠ .idle → s.shutdownRan = true → ¬ s.eh.Ahead
  returned : s.remover = .returned → s.eh.pc = .stopped

theorem bye_add_removed (t : EventThread) (side : Side) :
    (t.add side.removed).event.bye = true := by
  cases side <;> simp [EventThread.add, Events.or, Side.removed]

theorem shutdown_add_removed (t : EventThread) (side : Side) :
    (t.add side.removed).event.shutdown = true := by
  cases side <;> simp [EventThread.add, Events.or, Side.removed]

theorem Removing.step (h : s.Removing) (hs : (machine ops side dev).step s a = some s') :
    s'.Removing := by
  cases a with
  | add e =>
    cases hs
    refine ⟨fun hi => ?_, fun hi => ?_, h.stop, h.ran, h.returned⟩
    · obtain ⟨hbye, hrest⟩ := h.before hi
      exact ⟨(EventThread.bye_add_mask _ e).trans hbye, hrest⟩
    · exact (EventThread.bye_add_mask _ e).trans (h.bye hi)
  | attach =>
    obtain ⟨d, -, rfl⟩ := Option.map_eq_some_iff.mp hs
    exact ⟨h.before, h.bye, h.stop, h.ran, h.returned⟩
  | handler r =>
    obtain ⟨eh, heh, rfl⟩ := Option.map_eq_some_iff.mp hs
    obtain ⟨hbye, hstop⟩ := EventThread.advance_bye heh
    refine ⟨fun hi => ?_, fun hi => hbye.trans (h.bye hi), fun hst => h.stop (hstop ▸ hst),
      fun hi hran => ?_, fun hret => ?_⟩
    · obtain ⟨hb, hst, -⟩ := h.before hi
      exact EventThread.advance_quiet heh hb hst
    · simp only [Bool.or_eq_true, decide_eq_true_eq] at hran
      rcases hran with hran | hpc
      · exact (EventThread.not_ahead_advance (h.ran hi hran) (h.bye hi) heh).2
      · rw [EventThread.advance, hpc] at heh
        cases heh
        simp [EventThread.Ahead]
    · rw [EventThread.advance, h.returned hret] at heh
      cases heh
  | remove =>
    obtain ⟨hi, hs⟩ := Option.ite_none_right_eq_some.mp hs
    cases hs
    refine ⟨fun h' => by simp at h', fun _ => bye_add_removed _ _, fun hst => ?_, ?_, ?_⟩
    · have hfalse := (h.before hi).2.1
      cases hfalse.symm.trans hst
    · simp
    · simp
  | stopEh =>
    obtain ⟨hi, hs⟩ := Option.ite_none_right_eq_some.mp hs
    cases hs
    exact ⟨fun h' => by simp at h', fun _ => h.bye (by simp [hi]), fun _ => .inl rfl,
      fun _ hran => h.ran (by simp [hi]) hran, fun h' => by simp at h'⟩
  | stopReturn =>
    obtain ⟨⟨hi, hpc⟩, hs⟩ := Option.ite_none_right_eq_some.mp hs
    cases hs
    exact ⟨fun h' => by simp at h', fun _ => h.bye (by simp [hi]), fun _ => .inr rfl,
      fun _ hran => h.ran (by simp [hi]) hran, fun _ => hpc⟩

theorem removing_of_reachable {ok : Served σ → Act ρ → Prop}
    (h : (machine ops side dev).ReachableWhere ok s) : s.Removing := by
  refine h.invariant ⟨?_, ?_, ?_, ?_, ?_⟩ fun _ _ _ hs _ hstep => hs.step hstep
  · intro _
    exact ⟨rfl, rfl, by simp [machine, EventThread.start]⟩
  all_goals simp [machine, EventThread.start]

/-- What a removal in time keeps: the shutdown has run since, or the thread is going to run it
and is not stopped before. -/
def ShutdownAhead (s : Served σ) : Prop :=
  s.remover ≠ .idle → s.shutdownRan = true ∨
    (s.eh.Ahead ∧ s.eh.event.shutdown = true ∧ (s.eh.pc = .loopTop → s.eh.stop = false))

theorem ShutdownAhead.step (hr : s.Removing) (h : s.ShutdownAhead) (hok : s.InTime a)
    (hs : (machine ops side dev).step s a = some s') : s'.ShutdownAhead := by
  intro hi'
  cases a with
  | add e =>
    cases hs
    refine (h hi').imp id fun ⟨hA, hsh, hstop⟩ => ⟨hA, ?_, hstop⟩
    simp [EventThread.add, Events.or, hsh]
  | attach =>
    obtain ⟨d, -, rfl⟩ := Option.map_eq_some_iff.mp hs
    exact h hi'
  | handler r =>
    obtain ⟨eh, heh, rfl⟩ := Option.map_eq_some_iff.mp hs
    rcases h hi' with hran | ⟨hA, hsh, hstop⟩
    · exact .inl (by simp [hran])
    · rcases hA.advance hsh hstop heh with hpc | ⟨hA', hev, -, hpc'⟩
      · exact .inl (by simp [hpc])
      · exact .inr ⟨hA', hev ▸ hsh, fun hpc => absurd hpc hpc'⟩
  | remove =>
    obtain ⟨hi, hs⟩ := Option.ite_none_right_eq_some.mp hs
    cases hs
    exact .inr ⟨hok, shutdown_add_removed _ _, fun _ => (hr.before hi).2.1⟩
  | stopEh =>
    obtain ⟨hi, hs⟩ := Option.ite_none_right_eq_some.mp hs
    cases hs
    exact (h (by simp [hi])).imp id fun ⟨hA, hsh, _⟩ => ⟨hA, hsh, fun hpc => absurd hpc hok⟩
  | stopReturn =>
    obtain ⟨⟨hi, -⟩, hs⟩ := Option.ite_none_right_eq_some.mp hs
    cases hs
    exact h (by simp [hi])

/-- The shutdown was missed: it has not run since the REMOVED event, and the thread is on its
way out. -/
structure Missed (s : Served σ) : Prop where
  removing : s.remover ≠ .idle
  not_ran : s.shutdownRan = false
  leaving : s.eh.Leaving

theorem Missed.step (h : s.Missed) (hs : (machine ops side dev).step s a = some s') :
    s'.Missed := by
  obtain ⟨hi, hran, hbye, hleave⟩ := h
  cases a with
  | add e =>
    cases hs
    exact ⟨hi, hran, (EventThread.bye_add_mask _ e).trans hbye, hleave⟩
  | attach =>
    obtain ⟨d, -, rfl⟩ := Option.map_eq_some_iff.mp hs
    exact ⟨hi, hran, hbye, hleave⟩
  | handler r =>
    obtain ⟨eh, heh, rfl⟩ := Option.map_eq_some_iff.mp hs
    obtain ⟨hl, hpc⟩ := EventThread.Leaving.advance ⟨hbye, hleave⟩ heh
    exact ⟨hi, by simp [hran, hpc], hl⟩
  | remove =>
    obtain ⟨hidle, -⟩ := Option.ite_none_right_eq_some.mp hs
    exact absurd hidle hi
  | stopEh =>
    obtain ⟨-, hs⟩ := Option.ite_none_right_eq_some.mp hs
    cases hs
    exact ⟨by simp, hran, hbye, fun hA => ⟨(hleave hA).1, rfl⟩⟩
  | stopReturn =>
    obtain ⟨-, hs⟩ := Option.ite_none_right_eq_some.mp hs
    cases hs
    exact ⟨by simp, hran, hbye, hleave⟩

/-- A step out of time makes the thread miss the shutdown. -/
theorem missed_of_not_inTime (h : s.Removing) (hno : ¬ s.InTime a)
    (hs : (machine ops side dev).step s a = some s') : s'.Missed := by
  cases a with
  | remove =>
    obtain ⟨hi, hs⟩ := Option.ite_none_right_eq_some.mp hs
    cases hs
    exact ⟨by simp, rfl, bye_add_removed _ _, fun hA => absurd hA hno⟩
  | stopEh =>
    obtain ⟨hi, hs⟩ := Option.ite_none_right_eq_some.mp hs
    have hpc : s.eh.pc = .loopTop := not_not.mp hno
    have hA : s.eh.Ahead := by simp [EventThread.Ahead, hpc]
    have hran : s.shutdownRan = false := by
      cases hr : s.shutdownRan with
      | false => rfl
      | true => exact absurd hA (h.ran (by simp [hi]) hr)
    cases hs
    exact ⟨by simp, hran, h.bye (by simp [hi]), fun _ => ⟨hpc, rfl⟩⟩
  | _ => exact absurd trivial hno

end Served

open Served

/-- **The removal shuts the connection down** when the REMOVED event comes before the thread
tests SHUTDOWN in its pass and the stop flag is not set while the thread is about to test it;
when either comes at another time, the shutdown does not run before `usbip_stop_eh`
returns. -/
theorem shutdown_before_stop (ops : EhOps σ ρ) (side : Side) (dev : σ) :
    (∀ s, (machine ops side dev).ReachableWhere InTime s → s.remover = .returned →
      s.shutdownRan = true) ∧
    (∀ s a s', (machine ops side dev).Reachable s → (machine ops side dev).step s a = some s' →
      ¬ s.InTime a → ∀ as s'', (machine ops side dev).run s' as = some s'' →
        s''.shutdownRan = false) := by
  constructor
  · intro s hs hret
    have hahead : s.ShutdownAhead :=
      hs.invariant_with (fun s hs => removing_of_reachable hs)
        (fun hi => by simp [machine] at hi) fun s a s' hr h hok hstep => h.step hr hok hstep
    rcases hahead (by simp [hret]) with hran | ⟨hA, -⟩
    · exact hran
    · have hpc := (removing_of_reachable hs).returned hret
      simp [EventThread.Ahead, hpc] at hA
  · intro s a s' hs hstep hno as s'' hrun
    have hmissed := missed_of_not_inTime (removing_of_reachable hs) hno hstep
    exact (run_invariant (fun _ _ _ h hstep => Missed.step h hstep) hmissed hrun).not_ran

/-- A device with a connection is removed while the thread sleeps. -/
def removedAsleep : List (Act Bool) :=
  [.handler false, .remove, .stopEh] ++ List.replicate 10 (.handler false) ++ [.stopReturn]

theorem shutdown_before_stop_removedAsleep :
    ∃ s, (machine stubLinkOps .stub linked).runWhere InTime
        (machine stubLinkOps .stub linked).init removedAsleep = some s ∧
      (s.remover = .returned → s.shutdownRan = true) :=
  exists_runWhere (m := machine stubLinkOps .stub linked) (by decide)
    (shutdown_before_stop stubLinkOps .stub linked).1

/-- The user ends a connection; a new one is attached as soon as the device is reset, and the
device is removed before the handler thread clears RESET. -/
def removedEarly : List (Act Bool) :=
  [.handler false, .add .down] ++ List.replicate 7 (.handler false) ++ [.attach, .remove] ++
    List.replicate 3 (.handler false) ++ [.stopEh, .stopReturn]

/-- **The stop returns with the new connection in use**, and the device is freed. -/
theorem removed_without_shutdown :
    ∃ s, (machine stubLinkOps .stub linked).Reachable s ∧ s.remover = .returned ∧
      s.shutdownRan = false ∧ s.dev = ⟨.used, true⟩ := by
  obtain ⟨s, hs, hp⟩ := exists_reachable_of_any (m := machine stubLinkOps .stub linked)
    removedEarly (fun s => s.remover = .returned ∧ s.shutdownRan = false ∧ s.dev = ⟨.used, true⟩)
    (by decide)
  exact ⟨s, hs, by simpa using hp⟩

end Usbip.Event
