import Usbip.Stub.Filtered
import Mathlib.Tactic.Common

/-!
# Taking a connection down while the filter is attached

`stub_device_cleanup_urbs` kills and frees what is on the three lists of the device. It does not
know the filter's `client_queue` and `request_queue`, and the filter lives on: a URB that it
holds when the connection is taken down survives, and its RET_SUBMIT goes to the next client
(`held_urb_answers_next_client`).

Under `TeardownInOrder` every record is freed when `stub_shutdown_connection` returns
(`connection_taken_down`). Besides the URBs that the filter holds, the condition excludes two
ways in which the filter loses track of a URB: it completes a URB in `ptp_on_rx` and then lets it
be submitted, or two calls of `ptp_consume_` serve the same URB of `client_queue`.
-/

namespace Usbip.Stub.Filtered

/-! ### Who works on a URB -/

/-- A function under way, or the driver with one of its URBs. -/
inductive Owner (n : ℕ)
  | rx
  | ctx (i : Fin n)
  | driver (id : ℕ)
  deriving DecidableEq

/-- The URB that a call of `ptp_consume_` is responsible for, and the list that it is on. -/
def ConsumePc.holds : ConsumePc → Option (ℕ × Place)
  | .loop none _ _ => none
  | .loop (some u) false _ => some (u, .privInit)
  | .loop (some u) true _ => some (u, .clientQueue)
  | .complete u _ => some (u, .privInit)

/-- The URB that the receive thread is responsible for. -/
def RxPc.holds : RxPc → Option (ℕ × Place)
  | .buildUrb id | .onRx id | .preview id _ | .submitUrb id => some (id, .privInit)
  | .consume _ pc => pc.holds
  | .idle | .previewed _ | .unlinkUrb _ | .stopped => none

/-- The URB that a context is responsible for. -/
def CtxPc.holds : CtxPc → Option (ℕ × Place)
  | .idle => none
  | .consume pc => pc.holds
  | .submit id => some (id, .privInit)

theorem ConsumePc.mem_refs {pc : ConsumePc} {id : ℕ} {p : Place} (h : pc.holds = some (id, p)) :
    id ∈ pc.refs := by
  unfold ConsumePc.holds at h
  split at h <;> simp_all [ConsumePc.refs]

/-- A URB that somebody works on is on `priv_init` or on `client_queue`. -/
theorem ConsumePc.place_of_holds {pc : ConsumePc} {id : ℕ} {p : Place}
    (h : pc.holds = some (id, p)) : p = .privInit ∨ p = .clientQueue := by
  unfold ConsumePc.holds at h
  split at h <;> simp_all

/-- A first pass of `ptp_consume_` is about the URB that the thread is in `ptp_on_rx` for. -/
def RxPc.Shape : RxPc → Prop
  | .consume id (.loop priv pending ret) => ret = false → priv = some id ∧ pending = false
  | _ => True

/-- `stub_device_cleanup_urbs` has begun. -/
def ShutPc.late : ShutPc → Bool
  | .cleanup | .kill _ | .done => true
  | .live | .stopping => false

namespace Device

variable {n : ℕ}

/-- The URB that a function under way, or the driver, is responsible for. -/
def holds (s : Device n) : Owner n → Option (ℕ × Place)
  | .rx => s.rx.holds
  | .ctx i => (s.ctx i).holds
  | .driver id => if s.inFlight id then some (id, .privInit) else none

theorem place_of_holds {s : Device n} {o : Owner n} {id : ℕ} {p : Place}
    (h : s.holds o = some (id, p)) : p = .privInit ∨ p = .clientQueue := by
  cases o with
  | rx =>
    simp only [holds, RxPc.holds] at h
    split at h
    case h_5 => exact ConsumePc.place_of_holds h
    all_goals simp_all
  | ctx i =>
    simp only [holds, CtxPc.holds] at h
    split at h
    case h_2 => exact ConsumePc.place_of_holds h
    all_goals simp_all
  | driver k =>
    obtain ⟨-, h⟩ := Option.ite_none_right_eq_some.mp h
    exact Or.inl (Prod.mk.inj (Option.some.inj h)).2.symm

/-- The filter has nothing to do with any URB of the client. -/
def FilterIdle (s : Device n) : Prop :=
  (∀ id < s.nextId, s.place id ≠ some .clientQueue ∧ s.place id ≠ some .requestQueue) ∧
    ∀ i, (s.ctx i).holds = none

instance (s : Device n) : Decidable s.FilterIdle := by
  unfold FilterIdle
  infer_instance

/-- The URB that `ptp_consume_` takes off `client_queue` is not being served already. -/
def NotShared (s : Device n) (priv : Option ℕ) : Prop :=
  priv = none → ∀ u ∈ s.first .clientQueue, ¬ s.Handled u

instance (s : Device n) (priv : Option ℕ) : Decidable (s.NotShared priv) := by
  unfold NotShared
  infer_instance

/-- What a pass of `ptp_consume_` must not do: serve a URB that is being served, or give up in
`ptp_on_rx` for a URB that was completed. -/
def PassInOrder (s : Device n) (copy : Copy) : Prop :=
  match s.rx with
  | .consume id (.loop priv pending _) =>
    s.NotShared priv ∧ (copy = .bypass → priv = some id ∧ pending = false)
  | _ => True

instance (s : Device n) (copy : Copy) : Decidable (s.PassInOrder copy) := by
  unfold PassInOrder
  split <;> infer_instance

/-- The same for `ptp_data_complete`. -/
def CtxPassInOrder (s : Device n) (i : Fin n) : Prop :=
  match s.ctx i with
  | .consume (.loop priv _ _) => s.NotShared priv
  | _ => True

instance (s : Device n) (i : Fin n) : Decidable (s.CtxPassInOrder i) := by
  unfold CtxPassInOrder
  split <;> infer_instance

/-- The filter holds no URB of the client when the cleanup begins; it does not let a URB that it
has completed be submitted; and no URB is served twice at a time. -/
def TeardownInOrder (s : Device n) : Act n → Prop
  | .closeSocket => s.FilterIdle
  | .rxPreviewRest ok => ok = true
  | .rxConsume copy => s.PassInOrder copy
  | .ctxConsume i _ => s.CtxPassInOrder i
  | _ => True

instance (s : Device n) (a : Act n) : Decidable (s.TeardownInOrder a) := by
  induction a using Act.casesOn <;> dsimp only [TeardownInOrder] <;> infer_instance

end Device

open Device

variable {n : ℕ} {s s' : Device n}

theorem handled_of_holds {o : Owner n} {id : ℕ} {p : Place} (h : s.holds o = some (id, p)) :
    s.Handled id := by
  cases o with
  | rx =>
    refine Or.inl ?_
    simp only [holds, RxPc.holds] at h
    split at h
    case h_5 pc hrx =>
      rw [hrx]
      exact List.mem_cons_of_mem _ (ConsumePc.mem_refs h)
    all_goals simp_all [RxPc.refs]
  | ctx i =>
    refine Or.inr (Or.inl ⟨i, ?_⟩)
    simp only [holds, CtxPc.holds] at h
    split at h
    case h_2 pc hctx =>
      rw [hctx]
      exact ConsumePc.mem_refs h
    all_goals simp_all [CtxPc.refs]
  | driver k =>
    obtain ⟨hfl, h⟩ := Option.ite_none_right_eq_some.mp h
    obtain ⟨rfl, -⟩ := Prod.mk.inj (Option.some.inj h)
    exact Or.inr (Or.inr hfl)

@[simp] theorem holds_setRx (pc : RxPc) : (s.setRx pc).holds .rx = pc.holds := rfl

@[simp] theorem holds_setCtx (i : Fin n) (pc : CtxPc) :
    (s.setCtx i pc).holds (.ctx i) = pc.holds := by
  simp [holds, setCtx]

theorem holds_setRx_of_ne {o : Owner n} (pc : RxPc) (ho : o ≠ .rx) :
    (s.setRx pc).holds o = s.holds o := by
  cases o with
  | rx => exact absurd rfl ho
  | _ => rfl

theorem holds_setCtx_of_ne {o : Owner n} {i : Fin n} (pc : CtxPc) (ho : o ≠ .ctx i) :
    (s.setCtx i pc).holds o = s.holds o := by
  cases o with
  | ctx j =>
    have hj : j ≠ i := fun hji => ho (by rw [hji])
    simp [holds, setCtx, Function.update_of_ne hj]
  | _ => rfl

@[simp] theorem holds_link (id : ℕ) (p : Place) : (s.link id p).holds = s.holds := by
  funext o
  cases o <;> rfl

@[simp] theorem holds_changeState (state : Ptp.FilterState) (serving : Bool) :
    (s.changeState state serving).holds = s.holds := by
  funext o
  cases o <;> rfl

theorem setCtx_setCtx (i : Fin n) (pc pc' : CtxPc) :
    (s.setCtx i pc).setCtx i pc' = s.setCtx i pc' := by
  simp [Device.setCtx]

theorem setCtx_link_setCtx (i : Fin n) (pc pc' : CtxPc) (id : ℕ) (p : Place) :
    ((s.setCtx i pc).link id p).setCtx i pc' = (s.link id p).setCtx i pc' := by
  simp [Device.setCtx, Device.link]

theorem place_link_of_ne {id j : ℕ} (p : Place) (hj : j ≠ id) :
    (s.link id p).place j = s.place j := by
  simp [Device.link, Function.update_of_ne hj]

theorem place_link (id : ℕ) (p : Place) : (s.link id p).place id = some p := by
  simp [Device.link]

/-! ### The lists -/

/-- A record exists exactly as long as it is on a list, or being killed. -/
structure Lists (s : Device n) : Prop where
  live_lt : ∀ id, s.live id = true → id < s.nextId
  live_of_place : ∀ id, s.place id ≠ none → s.live id = true
  place_of_live : ∀ id, s.live id = true → s.place id ≠ none ∨ s.shut = .kill id
  ordered : ∀ id, s.place id ≠ none → id ∈ s.order
  killed : ∀ id, s.shut = .kill id → s.place id = none

namespace Lists

/-- A step that leaves the lists alone. -/
theorem frame (h : Lists s) (hid : s'.nextId = s.nextId) (hlive : s'.live = s.live)
    (hplace : s'.place = s.place) (horder : s'.order = s.order) (hshut : s'.shut = s.shut) :
    Lists s' where
  live_lt := by rw [hlive, hid]; exact h.live_lt
  live_of_place := by rw [hlive, hplace]; exact h.live_of_place
  place_of_live := by rw [hlive, hplace, hshut]; exact h.place_of_live
  ordered := by rw [hplace, horder]; exact h.ordered
  killed := by rw [hplace, hshut]; exact h.killed

/-- A record moves to another list. -/
theorem link (h : Lists s) {id : ℕ} (hid : s.place id ≠ none) (p : Place) :
    Lists (s.link id p) := by
  have hplace : ∀ j, (s.link id p).place j ≠ none ↔ s.place j ≠ none := by
    intro j
    by_cases hj : j = id
    · subst hj
      simp [Device.link, hid]
    · simp [Device.link, Function.update_of_ne hj]
  refine ⟨h.live_lt, fun j hj => h.live_of_place j ((hplace j).mp hj), fun j hj => ?_,
    fun j hj => ?_, fun j hj => ?_⟩
  · exact (h.place_of_live j hj).imp_left (hplace j).mpr
  · by_cases hji : j = id
    · exact List.mem_append_right _ (List.mem_singleton.mpr hji)
    · refine List.mem_append_left _ (List.mem_filter.mpr ⟨h.ordered j ((hplace j).mp hj), ?_⟩)
      simpa using hji
  · by_contra hne
    exact (hplace j).mp hne (h.killed j hj)

/-- A record is freed. -/
theorem freed (h : Lists s) (id : ℕ) : Lists (s.stubFreePrivAndUrb id) := by
  have hplace : ∀ j, j ≠ id → (s.stubFreePrivAndUrb id).place j = s.place j := fun j hj => by
    simp [stubFreePrivAndUrb, Function.update_of_ne hj]
  have hlive : ∀ j, j ≠ id → (s.stubFreePrivAndUrb id).live j = s.live j := fun j hj => by
    simp [stubFreePrivAndUrb, Function.update_of_ne hj]
  have hnone : (s.stubFreePrivAndUrb id).place id = none := by simp [stubFreePrivAndUrb]
  have hdead : (s.stubFreePrivAndUrb id).live id = false := by simp [stubFreePrivAndUrb]
  refine ⟨fun j hj => ?_, fun j hj => ?_, fun j hj => ?_, fun j hj => ?_, fun j hj => ?_⟩
  all_goals by_cases hji : j = id
  · rw [hji, hdead] at hj
    cases hj
  · exact h.live_lt j (hlive j hji ▸ hj)
  · exact absurd (hji ▸ hnone) hj
  · rw [hlive j hji]
    exact h.live_of_place j (hplace j hji ▸ hj)
  · rw [hji, hdead] at hj
    cases hj
  · rw [hplace j hji]
    exact h.place_of_live j (hlive j hji ▸ hj)
  · exact absurd (hji ▸ hnone) hj
  · exact h.ordered j (hplace j hji ▸ hj)
  · exact hji ▸ hnone
  · rw [hplace j hji]
    exact h.killed j hj

end Lists

/-! ### The owners -/

/-- A URB that somebody works on is on the list that it should be on, or is being killed while
the driver still has it; and nobody else works on it. -/
structure Owners (s : Device n) : Prop where
  place : ∀ o id p, s.holds o = some (id, p) →
    s.place id = some p ∨ o = .driver id ∧ s.shut = .kill id
  unique : ∀ o o' id p p', s.holds o = some (id, p) → s.holds o' = some (id, p') → o = o'

namespace Owners

/-- A URB may be taken over by `o₁`, or dropped, if nobody else works on it. -/
theorem move (h : Owners s) (id : ℕ) (o₁ : Owner n)
    (hold : ∀ o j p, s'.holds o = some (j, p) →
      s.holds o = some (j, p) ∧ j ≠ id ∨ j = id ∧ o = o₁ ∧ s'.place id = some p)
    (hplace : ∀ j, j ≠ id → s'.place j = s.place j) (hshut : s'.shut = s.shut) : Owners s' := by
  constructor
  · intro o j p hj
    rcases hold o j p hj with ⟨hs, hne⟩ | ⟨rfl, -, hp⟩
    · rw [hplace j hne, hshut]
      exact h.place o j p hs
    · exact Or.inl hp
  · intro o o' j p p' hj hj'
    rcases hold o j p hj with ⟨hs, hne⟩ | ⟨hjid, ho, -⟩ <;>
      rcases hold o' j p' hj' with ⟨hs', hne'⟩ | ⟨hjid', ho', -⟩
    · exact h.unique o o' j p p' hs hs'
    · exact absurd hjid' hne
    · exact absurd hjid hne'
    · exact ho.trans ho'.symm

/-- A step that moves nobody and no URB. -/
theorem frame (h : Owners s) (hholds : s'.holds = s.holds) (hplace : s'.place = s.place)
    (hshut : s'.shut = s.shut) : Owners s' where
  place := by rw [hholds, hplace, hshut]; exact h.place
  unique := by rw [hholds]; exact h.unique

/-- A step in which nobody turns to another URB. -/
theorem sub (h : Owners s)
    (hsub : ∀ o j p, s'.holds o = some (j, p) → s.holds o = some (j, p))
    (hplace : s'.place = s.place) (hshut : s'.shut = s.shut) : Owners s' where
  place o j p hj := by rw [hplace, hshut]; exact h.place o j p (hsub o j p hj)
  unique o o' j p p' hj hj' := h.unique o o' j p p' (hsub o j p hj) (hsub o' j p' hj')

/-- `o₁` turns to a URB that nobody else works on, or to none. -/
theorem turn (h : Owners s) (id : ℕ) (o₁ : Owner n)
    (hfree : ∀ o j p, o ≠ o₁ → s.holds o = some (j, p) → j ≠ id)
    (hsame : ∀ o, o ≠ o₁ → s'.holds o = s.holds o)
    (hturn : ∀ j p, s'.holds o₁ = some (j, p) → j = id ∧ s'.place id = some p)
    (hplace : ∀ j, j ≠ id → s'.place j = s.place j) (hshut : s'.shut = s.shut) : Owners s' := by
  refine h.move id o₁ (fun o j p hj => ?_) hplace hshut
  by_cases ho : o = o₁
  · subst ho
    obtain ⟨hid, hp⟩ := hturn j p hj
    exact Or.inr ⟨hid, rfl, hp⟩
  · rw [hsame o ho] at hj
    exact Or.inl ⟨hj, hfree o j p ho hj⟩

/-- `o₁` hands its URB over to the driver, which refuses it or has it in flight. -/
theorem submit (h : Owners s) {id : ℕ} {o₁ : Owner n} (hid : s.holds o₁ = some (id, .privInit))
    (hne : ∀ k, o₁ ≠ .driver k) (hnone : s'.holds o₁ = none)
    (hsame : ∀ o, o ≠ o₁ → (∀ k, o ≠ .driver k) → s'.holds o = s.holds o)
    (hdriver : ∀ k j p, s'.holds (.driver k) = some (j, p) →
      s.holds (.driver k) = some (j, p) ∨ k = id ∧ j = id ∧ p = .privInit)
    (hplace : s'.place = s.place) (hshut : s'.shut = s.shut) : Owners s' := by
  refine h.move id (.driver id) (fun o j p hj => ?_) (fun j _ => by rw [hplace]) hshut
  have hother : ∀ o j p, o ≠ o₁ → s.holds o = some (j, p) → j ≠ id := by
    rintro o j p ho hj rfl
    exact ho (h.unique o o₁ j p .privInit hj hid)
  by_cases ho : o = o₁
  · rw [ho, hnone] at hj
    cases hj
  cases o with
  | driver k =>
    rcases hdriver k j p hj with hold | ⟨hk, hjid, hp⟩
    · exact Or.inl ⟨hold, hother _ j p ho hold⟩
    · refine Or.inr ⟨hjid, by rw [hk], ?_⟩
      rw [hplace, hp]
      exact (h.place o₁ id .privInit hid).resolve_right fun hkill => hne id hkill.1
  | rx =>
    rw [hsame .rx ho (by simp)] at hj
    exact Or.inl ⟨hj, hother _ j p ho hj⟩
  | ctx i =>
    rw [hsame (.ctx i) ho (by simp)] at hj
    exact Or.inl ⟨hj, hother _ j p ho hj⟩

/-- Nobody else has the URB that `o` has. -/
theorem ne_of_holds (h : Owners s) {o₁ : Owner n} {id : ℕ} {q : Place}
    (ho : s.holds o₁ = some (id, q)) (o : Owner n) (j : ℕ) (p : Place) (hne : o ≠ o₁)
    (hj : s.holds o = some (j, p)) : j ≠ id := by
  rintro rfl
  exact hne (h.unique o o₁ j p q hj ho)

/-- Nobody has a URB that is on one of the other lists, or on none. -/
theorem ne_of_place (h : Owners s) {id : ℕ} (hinit : s.place id ≠ some .privInit)
    (hclient : s.place id ≠ some .clientQueue) (hkill : s.shut ≠ .kill id) (o : Owner n) (j : ℕ)
    (p : Place) (hj : s.holds o = some (j, p)) : j ≠ id := by
  rintro rfl
  rcases h.place o j p hj with hp | ⟨-, hk⟩
  · rcases place_of_holds hj with rfl | rfl
    · exact hinit hp
    · exact hclient hp
  · exact hkill hk

end Owners

/-! ### The accounts -/

/-- All records belong to the present connection, and so do the replies of each connection. -/
structure Accounts (s : Device n) : Prop where
  owner : ∀ id, s.live id = true → s.owner id = s.conn
  sending : ∀ id, s.tx = .sendSubmit id → s.owner id = s.conn ∧ id < s.nextId
  replies : ∀ c id, .retSubmit c id ∈ s.log → s.owner id = c ∧ id < s.nextId

/-- A step that creates no record, writes no reply and lets the transmit thread take none. -/
theorem Accounts.frame (h : Accounts s) (hconn : s'.conn = s.conn) (howner : s'.owner = s.owner)
    (hid : s'.nextId = s.nextId) (hlive : ∀ id, s'.live id = true → s.live id = true)
    (htx : ∀ id, s'.tx = .sendSubmit id → s.tx = .sendSubmit id)
    (hlog : ∀ c id, .retSubmit c id ∈ s'.log → .retSubmit c id ∈ s.log) : Accounts s' where
  owner id hl := by rw [howner, hconn]; exact h.owner id (hlive id hl)
  sending id ht := by rw [howner, hconn, hid]; exact h.sending id (htx id ht)
  replies c id hr := by rw [howner, hid]; exact h.replies c id (hlog c id hr)

/-! ### `stub_complete` -/

section StubComplete

variable {id : ℕ} {status : ℤ} {alloc : Bool}

theorem holds_of_stubComplete (hs : s.stubComplete id status alloc = some s') :
    s'.holds = s.holds := by
  rcases stubComplete_eq_some hs with ⟨-, rfl⟩ | ⟨-, ⟨-, rfl⟩ | ⟨-, rfl⟩⟩
  · rfl
  · unfold stubEnqueueRetUnlink
    split <;> (funext o; cases o <;> rfl)
  · funext o
    cases o <;> rfl

/-- Nothing but the URB's record and the history changes. -/
theorem stubComplete_frame (hs : s.stubComplete id status alloc = some s') :
    s'.shut = s.shut ∧ s'.rx = s.rx ∧ s'.tx = s.tx ∧ s'.conn = s.conn ∧ s'.ctx = s.ctx ∧
      s'.owner = s.owner ∧ s'.nextId = s.nextId ∧ ∀ j, j ≠ id → s'.place j = s.place j := by
  rcases stubComplete_eq_some hs with ⟨-, rfl⟩ | ⟨-, ⟨-, rfl⟩ | ⟨-, rfl⟩⟩
  · exact ⟨rfl, rfl, rfl, rfl, rfl, rfl, rfl, fun _ _ => rfl⟩
  · unfold stubEnqueueRetUnlink
    split <;> exact ⟨rfl, rfl, rfl, rfl, rfl, rfl, rfl, fun j hj => Function.update_of_ne hj _ _⟩
  · exact ⟨rfl, rfl, rfl, rfl, rfl, rfl, rfl, fun j hj => Function.update_of_ne hj _ _⟩

theorem Lists.stubComplete (h : Lists s) (hs : s.stubComplete id status alloc = some s') :
    Lists s' := by
  rcases stubComplete_eq_some hs with ⟨-, rfl⟩ | ⟨⟨-, hplace⟩, ⟨-, rfl⟩ | ⟨-, rfl⟩⟩
  · exact h
  · unfold stubEnqueueRetUnlink
    split
    · exact (h.freed id).frame rfl rfl rfl rfl rfl
    · exact h.freed id
  · exact (h.link hplace .privTx).frame rfl rfl rfl rfl rfl

theorem Accounts.stubComplete (h : Accounts s) (hs : s.stubComplete id status alloc = some s') :
    Accounts s' := by
  rcases stubComplete_eq_some hs with ⟨-, rfl⟩ | ⟨-, ⟨-, rfl⟩ | ⟨-, rfl⟩⟩
  · exact h
  · have hfreed : Accounts (s.stubFreePrivAndUrb id) := by
      refine h.frame rfl rfl rfl (fun j hl => ?_) (fun _ ht => ht) fun _ _ hr => hr
      by_cases hj : j = id
      · subst hj
        simp [stubFreePrivAndUrb] at hl
      · simpa only [stubFreePrivAndUrb, Function.update_of_ne hj] using hl
    unfold stubEnqueueRetUnlink
    split
    · exact hfreed.frame rfl rfl rfl (fun _ hl => hl) (fun _ ht => ht) fun c j hr => by
        simpa [note] using hr
    · exact hfreed
  · exact h.frame rfl rfl rfl (fun _ hl => hl) (fun _ ht => ht) fun c j hr => by
      simpa [note, Device.link] using hr

/-- No list of the filter gains an entry. -/
theorem place_of_stubComplete (hs : s.stubComplete id status alloc = some s') {p : Place}
    (hp : p ≠ .privTx) {j : ℕ} (hj : s'.place j = some p) : s.place j = some p := by
  by_cases hji : j = id
  · subst hji
    rcases stubComplete_eq_some hs with ⟨-, rfl⟩ | ⟨-, ⟨-, rfl⟩ | ⟨-, rfl⟩⟩
    · exact hj
    · unfold stubEnqueueRetUnlink at hj
      split at hj <;> simp [stubFreePrivAndUrb, note] at hj
    · have hj : Place.privTx = p := by simpa [Device.link, note] using hj
      exact absurd hj.symm hp
  · rwa [(stubComplete_frame hs).2.2.2.2.2.2.2 j hji] at hj

end StubComplete

/-! ### The invariant -/

/-- During the cleanup only the driver has URBs left, and the filter holds none. -/
structure Quiet (s : Device n) : Prop where
  rx : s.rx = .stopped
  tx : s.tx = .stopped
  ctx : ∀ i, (s.ctx i).holds = none
  held : ∀ id, s.place id ≠ some .clientQueue ∧ s.place id ≠ some .requestQueue

/-- The invariant of the connections. -/
structure TearInv (s : Device n) : Prop where
  lists : Lists s
  owners : Owners s
  accounts : Accounts s
  shape : s.rx.Shape
  quiet : s.shut.late = true → Quiet s
  emptied : s.shut = .done → ∀ id, s.place id = none

namespace TearInv

/-- While a thread runs, the cleanup has not begun. -/
theorem early (h : TearInv s) (hrun : s.rx ≠ .stopped ∨ s.tx ≠ .stopped) :
    s.shut.late = false := by
  by_contra hlate
  have hq := h.quiet (by simpa using hlate)
  rcases hrun with hrx | htx
  · exact hrx hq.rx
  · exact htx hq.tx

/-- Before the cleanup there is less to show. -/
theorem of_early (hshut : s.shut.late = false) (hlists : Lists s) (howners : Owners s)
    (haccounts : Accounts s) (hshape : s.rx.Shape) : TearInv s where
  lists := hlists
  owners := howners
  accounts := haccounts
  shape := hshape
  quiet hlate := by rw [hshut] at hlate; cases hlate
  emptied hdone := by rw [hdone] at hshut; cases hshut

/-! ### The receive thread -/

/-- The receive thread keeps the URB it has, or drops it. -/
theorem setRx (h : TearInv s) (hrun : s.rx ≠ .stopped ∨ s.tx ≠ .stopped) (pc : RxPc)
    (hpc : ∀ j p, pc.holds = some (j, p) → s.rx.holds = some (j, p)) (hshape : pc.Shape) :
    TearInv (s.setRx pc) := by
  refine of_early (h.early hrun) (h.lists.frame rfl rfl rfl rfl rfl) (h.owners.sub ?_ rfl rfl)
    (h.accounts.frame rfl rfl rfl (fun _ hl => hl) (fun _ ht => ht) fun _ _ hr => hr) hshape
  intro o j p hj
  by_cases ho : o = .rx
  · subst ho
    exact hpc j p hj
  · rwa [holds_setRx_of_ne pc ho] at hj

theorem changeState (h : TearInv s) (state : Ptp.FilterState) (serving : Bool) :
    TearInv (s.changeState state serving) where
  lists := h.lists.frame rfl rfl rfl rfl rfl
  owners := h.owners.frame (holds_changeState state serving) rfl rfl
  accounts := h.accounts.frame rfl rfl rfl (fun _ hl => hl) (fun _ ht => ht) fun _ _ hr => hr
  shape := h.shape
  quiet hlate := ⟨(h.quiet hlate).rx, (h.quiet hlate).tx, (h.quiet hlate).ctx, (h.quiet hlate).held⟩
  emptied := h.emptied

theorem stubPrivAlloc (h : TearInv s) (hrx : s.rx = .idle) (q : BitVec 32) (kind : UrbKind) :
    TearInv (s.stubPrivAlloc q kind) := by
  have hearly := h.early (Or.inl (by simp [hrx]))
  have hplace : ∀ j, j ≠ s.nextId → (s.stubPrivAlloc q kind).place j = s.place j := fun j hj => by
    simp [Device.stubPrivAlloc, Function.update_of_ne hj]
  have hlive : ∀ j, j ≠ s.nextId → (s.stubPrivAlloc q kind).live j = s.live j := fun j hj => by
    simp [Device.stubPrivAlloc, Function.update_of_ne hj]
  have howner : ∀ j, j ≠ s.nextId → (s.stubPrivAlloc q kind).owner j = s.owner j := fun j hj => by
    simp [Device.stubPrivAlloc, Function.update_of_ne hj]
  have hnew : (s.stubPrivAlloc q kind).place s.nextId = some .privInit := by
    simp [Device.stubPrivAlloc]
  have hnewLive : (s.stubPrivAlloc q kind).live s.nextId = true := by simp [Device.stubPrivAlloc]
  have hnewOwner : (s.stubPrivAlloc q kind).owner s.nextId = s.conn := by
    simp [Device.stubPrivAlloc]
  refine of_early hearly ⟨fun j hj => ?_, fun j hj => ?_, fun j hj => ?_, fun j hj => ?_,
    fun j hj => ?_⟩ ?_ ⟨fun j hj => ?_, fun j hj => ?_, fun c j hj => ?_⟩ trivial
  · by_cases hjn : j = s.nextId
    · exact hjn ▸ Nat.lt_succ_self _
    · exact Nat.lt_succ_of_lt (h.lists.live_lt j (hlive j hjn ▸ hj))
  · by_cases hjn : j = s.nextId
    · exact hjn ▸ hnewLive
    · rw [hlive j hjn]
      exact h.lists.live_of_place j (hplace j hjn ▸ hj)
  · by_cases hjn : j = s.nextId
    · exact Or.inl (by rw [hjn, hnew]; simp)
    · rw [hplace j hjn]
      exact h.lists.place_of_live j (hlive j hjn ▸ hj)
  · by_cases hjn : j = s.nextId
    · exact List.mem_append_right _ (List.mem_singleton.mpr hjn)
    · exact List.mem_append_left _ (h.lists.ordered j (hplace j hjn ▸ hj))
  · rw [show s.shut = .kill j from hj] at hearly
    cases hearly
  · -- nobody works on a record that does not exist yet
    refine h.owners.turn s.nextId .rx (fun o j p _ hj => ?_) (fun o ho => ?_) (fun j p hj => ?_)
      hplace rfl
    · rcases h.owners.place o j p hj with hp | ⟨-, hk⟩
      · exact Nat.ne_of_lt (h.lists.live_lt j (h.lists.live_of_place j (by rw [hp]; simp)))
      · rw [hk] at hearly
        cases hearly
    · cases o with
      | rx => exact absurd rfl ho
      | _ => rfl
    · obtain ⟨rfl, rfl⟩ : s.nextId = j ∧ .privInit = p := by
        simpa [holds, Device.stubPrivAlloc, RxPc.holds] using hj
      exact ⟨rfl, hnew⟩
  · by_cases hjn : j = s.nextId
    · exact hjn ▸ hnewOwner
    · rw [howner j hjn]
      exact h.accounts.owner j (hlive j hjn ▸ hj)
  · obtain ⟨ho, hlt⟩ := h.accounts.sending j hj
    rw [howner j (Nat.ne_of_lt hlt)]
    exact ⟨ho, Nat.lt_succ_of_lt hlt⟩
  · obtain ⟨ho, hlt⟩ := h.accounts.replies c j (by simpa [Device.stubPrivAlloc] using hj)
    rw [howner j (Nat.ne_of_lt hlt)]
    exact ⟨ho, Nat.lt_succ_of_lt hlt⟩

/-- The receive thread moves the URB it has to another list, and keeps or drops it. -/
theorem rx_link (h : TearInv s) {id : ℕ} {q : Place} (hid : s.rx.holds = some (id, q)) (p : Place)
    (pc : RxPc) (hpc : ∀ j p', pc.holds = some (j, p') → j = id ∧ p' = p) (hshape : pc.Shape) :
    TearInv ((s.link id p).setRx pc) := by
  have hrun : s.rx ≠ .stopped := fun hrx => by rw [hrx] at hid; cases hid
  have hearly := h.early (Or.inl hrun)
  have hplace : s.place id ≠ none := by
    rcases h.owners.place .rx id q hid with hp | ⟨ho, -⟩
    · rw [hp]
      simp
    · cases ho
  refine of_early hearly ((h.lists.link hplace p).frame rfl rfl rfl rfl rfl) ?_
    (h.accounts.frame rfl rfl rfl (fun _ hl => hl) (fun _ ht => ht) fun _ _ hr => hr) hshape
  refine h.owners.turn id .rx (h.owners.ne_of_holds hid) (fun o ho => ?_) (fun j p' hj => ?_)
    (fun j hj => place_link_of_ne p hj) rfl
  · rw [holds_setRx_of_ne pc ho, holds_link]
  · obtain ⟨rfl, rfl⟩ := hpc j p' hj
    exact ⟨rfl, place_link _ _⟩

/-- The receive thread completes the URB it has. -/
theorem rx_complete (h : TearInv s) {id : ℕ} {q : Place} (hid : s.rx.holds = some (id, q))
    {alloc : Bool} (hs : s.stubComplete id 0 alloc = some s') {pc : RxPc}
    (hpc : pc.holds = none) (hshape : pc.Shape) : TearInv (s'.setRx pc) := by
  have hrun : s.rx ≠ .stopped := fun hrx => by rw [hrx] at hid; cases hid
  obtain ⟨hshut, -, -, -, -, -, -, hplace⟩ := stubComplete_frame hs
  refine of_early ?_ ((h.lists.stubComplete hs).frame rfl rfl rfl rfl rfl) ?_
    ((h.accounts.stubComplete hs).frame rfl rfl rfl (fun _ hl => hl) (fun _ ht => ht)
      fun _ _ hr => hr) hshape
  · rw [show (s'.setRx pc).shut = s'.shut from rfl, hshut]
    exact h.early (Or.inl hrun)
  refine h.owners.turn id .rx (h.owners.ne_of_holds hid) (fun o ho => ?_) (fun j p hj => ?_)
    hplace hshut
  · rw [holds_setRx_of_ne pc ho, holds_of_stubComplete hs]
  · rw [holds_setRx, hpc] at hj
    cases hj

theorem holds_usbSubmitUrb {id k j : ℕ} {ok : Bool} {p : Place}
    (h : (s.usbSubmitUrb id ok).holds (.driver k) = some (j, p)) :
    s.holds (.driver k) = some (j, p) ∨ k = id ∧ j = id ∧ p = .privInit := by
  unfold usbSubmitUrb at h
  split at h
  · by_cases hk : k = id
    · obtain ⟨-, h⟩ := Option.ite_none_right_eq_some.mp h
      obtain ⟨rfl, rfl⟩ := Prod.mk.inj (Option.some.inj h)
      exact Or.inr ⟨hk, hk, rfl⟩
    · simp only [holds, Function.update_of_ne hk] at h
      exact Or.inl h
  · exact Or.inl h

theorem usbSubmitUrb_frame (id : ℕ) (ok : Bool) : (s.usbSubmitUrb id ok).place = s.place ∧
    (s.usbSubmitUrb id ok).shut = s.shut ∧ (s.usbSubmitUrb id ok).nextId = s.nextId ∧
    (s.usbSubmitUrb id ok).live = s.live ∧ (s.usbSubmitUrb id ok).order = s.order ∧
    (s.usbSubmitUrb id ok).conn = s.conn ∧ (s.usbSubmitUrb id ok).owner = s.owner ∧
    (s.usbSubmitUrb id ok).tx = s.tx ∧ (s.usbSubmitUrb id ok).log = s.log ∧
    (s.usbSubmitUrb id ok).ctx = s.ctx ∧ (s.usbSubmitUrb id ok).rx = s.rx := by
  unfold usbSubmitUrb
  split <;> exact ⟨rfl, rfl, rfl, rfl, rfl, rfl, rfl, rfl, rfl, rfl, rfl⟩

/-- The receive thread submits the URB it has. -/
theorem rx_submit (h : TearInv s) {id : ℕ} (hrx : s.rx = .submitUrb id) (ok : Bool) :
    TearInv ((s.usbSubmitUrb id ok).setRx .idle) := by
  obtain ⟨hplace, hshut, hid, hlive, horder, hconn, howner, htx, hlog, hctx, -⟩ :=
    usbSubmitUrb_frame (s := s) id ok
  have hearly := h.early (Or.inl (by simp [hrx]))
  refine of_early (by rw [← hearly]; exact congrArg ShutPc.late hshut)
    (h.lists.frame hid hlive hplace horder hshut) ?_
    (h.accounts.frame hconn howner hid (fun j hl => hlive ▸ hl) (fun j ht => htx ▸ ht)
      fun c j hr => hlog ▸ hr) trivial
  have hholds : s.holds .rx = some (id, .privInit) := by simp [holds, hrx, RxPc.holds]
  refine h.owners.submit hholds (by simp) rfl (fun o ho hd => ?_)
    (fun k j p hj => holds_usbSubmitUrb hj) hplace hshut
  cases o with
  | rx => exact absurd rfl ho
  | ctx i => exact congrArg CtxPc.holds (congrFun hctx i)
  | driver k => exact absurd rfl (hd k)

/-- A pass of `ptp_consume_` has the URB it serves, be it new or not. -/
theorem rx_taken (h : TearInv s) {id u : ℕ} {priv : Option ℕ} {pending ret : Bool} {copy : Copy}
    (hrx : s.rx = .consume id (.loop priv pending ret)) (hok : s.PassInOrder copy)
    (hu : priv.or (s.first .clientQueue) = some u) :
    TearInv (s.setRx (.consume id (.loop (some u) (pending || priv.isNone) true))) := by
  have hrun : s.rx ≠ .stopped := by simp [hrx]
  have hshape : RxPc.Shape (.consume id (.loop (some u) (pending || priv.isNone) true)) :=
    fun hret => by cases hret
  rcases served_cases hu with rfl | ⟨rfl, hplace⟩
  · refine h.setRx (Or.inl hrun) _ (fun j p hj => ?_) hshape
    rw [hrx]
    cases pending <;> exact hj
  · have hfree : ¬ s.Handled u := by
      simp only [PassInOrder, hrx] at hok
      exact hok.1 rfl u hu
    refine of_early (h.early (Or.inl hrun)) (h.lists.frame rfl rfl rfl rfl rfl) ?_
      (h.accounts.frame rfl rfl rfl (fun _ hl => hl) (fun _ ht => ht) fun _ _ hr => hr) hshape
    refine h.owners.turn u .rx (fun o j p _ hj => ?_) (fun o ho => holds_setRx_of_ne _ ho)
      (fun j p hj => ?_) (fun _ _ => rfl) rfl
    · rintro rfl
      exact hfree (handled_of_holds hj)
    · obtain ⟨rfl, rfl⟩ : u = j ∧ .clientQueue = p := by
        simpa [RxPc.holds, ConsumePc.holds] using hj
      exact ⟨rfl, hplace⟩

theorem rxConsume (h : TearInv s) {copy : Copy} (hok : s.PassInOrder copy)
    (hs : s.rxConsume copy = some s') : TearInv s' := by
  unfold Device.rxConsume at hs
  split at hs
  next id priv pending ret hrx =>
    have hrun : s.rx ≠ .stopped := by simp [hrx]
    split at hs
    · cases hs
    split at hs
    next s₁ pc hpass =>
      cases hs
      obtain ⟨u, hu, hcase⟩ := ptpConsume_goOn hpass
      have htaken := h.rx_taken hrx hok hu
      rcases hcase with ⟨rfl, rfl⟩ | ⟨rfl, serving, rfl⟩
      · exact htaken
      · cases hpend : pending || priv.isNone with
        | true =>
          rw [hpend] at htaken
          exact (htaken.rx_link (show _ = some (u, .clientQueue) from rfl) .privInit
            (.consume id (.complete u true))
            (fun j p hj => by simpa [RxPc.holds, ConsumePc.holds, eq_comm] using hj)
            trivial).changeState s.state serving
        | false =>
          rw [hpend] at htaken
          exact (htaken.setRx (Or.inl (by simp [Device.setRx])) (.consume id (.complete u false))
            (fun j p hj => hj) trivial).changeState s.state serving
    next s₁ ret' hpass =>
      cases hs
      rcases ptpConsume_return hpass with
        ⟨rfl, serving, rfl⟩ | ⟨u, hu, ⟨rfl, rfl⟩ | ⟨hcopy, rfl, rfl⟩⟩
      · refine (h.setRx (Or.inl hrun) (if ret' then .idle else .submitUrb id)
          (fun j p hj => ?_) ?_).changeState s.state serving
        · cases ret' with
          | true => cases hj
          | false =>
            -- the first pass: the URB is still the thread's own
            have hshape := h.shape
            rw [hrx] at hshape
            obtain ⟨rfl, rfl⟩ := hshape rfl
            rw [hrx]
            exact hj
        · cases ret' <;> trivial
      · have htaken := h.rx_taken hrx hok hu
        cases hpend : pending || priv.isNone with
        | true =>
          exact htaken.setRx (Or.inl (by simp [Device.setRx])) .idle (fun j p hj => by cases hj)
            trivial
        | false =>
          rw [hpend] at htaken
          exact htaken.rx_link (show _ = some (u, .privInit) from rfl) .clientQueue .idle
            (fun j p hj => by cases hj) trivial
      · simp only [PassInOrder, hrx] at hok
        obtain ⟨rfl, rfl⟩ := hok.2 hcopy
        refine (h.setRx (Or.inl hrun) (.submitUrb id) (fun j p hj => ?_)
          trivial).changeState .bypassed s.frameServing
        rw [hrx]
        exact hj
  · cases hs

/-! ### The other contexts of the filter -/

/-- While a context has a URB, the cleanup has not begun. -/
theorem early_of_ctx (h : TearInv s) {i : Fin n} {x : ℕ × Place}
    (hi : (s.ctx i).holds = some x) : s.shut.late = false := by
  by_contra hlate
  have hnone := (h.quiet (by simpa using hlate)).ctx i
  rw [hnone] at hi
  cases hi

/-- While a URB is on a list of the filter, the cleanup has not begun. -/
theorem early_of_held (h : TearInv s) {id : ℕ}
    (hid : s.place id = some .clientQueue ∨ s.place id = some .requestQueue) :
    s.shut.late = false := by
  by_contra hlate
  have hno := (h.quiet (by simpa using hlate)).held id
  exact hid.elim hno.1 hno.2

/-- A context keeps the URB it has, or drops it. -/
theorem setCtx (h : TearInv s) {i : Fin n} (pc : CtxPc)
    (hpc : ∀ j p, pc.holds = some (j, p) → (s.ctx i).holds = some (j, p)) :
    TearInv (s.setCtx i pc) where
  lists := h.lists.frame rfl rfl rfl rfl rfl
  owners := by
    refine h.owners.sub (fun o j p hj => ?_) rfl rfl
    by_cases ho : o = .ctx i
    · subst ho
      rw [holds_setCtx] at hj
      exact hpc j p hj
    · rwa [holds_setCtx_of_ne pc ho] at hj
  accounts := h.accounts.frame rfl rfl rfl (fun _ hl => hl) (fun _ ht => ht) fun _ _ hr => hr
  shape := h.shape
  quiet hlate := by
    have hq := h.quiet hlate
    refine ⟨hq.rx, hq.tx, fun k => ?_, hq.held⟩
    by_cases hk : k = i
    · subst hk
      have hnone : pc.holds = none := by
        cases hpc' : pc.holds with
        | none => rfl
        | some x => exact (hpc x.1 x.2 hpc').symm.trans (hq.ctx k)
      simpa [Device.setCtx] using hnone
    · simpa only [Device.setCtx, Function.update_of_ne hk] using hq.ctx k
  emptied := h.emptied

/-- A context moves the URB it has to another list, and keeps or drops it. -/
theorem ctx_link (h : TearInv s) {i : Fin n} {id : ℕ} {q : Place}
    (hid : (s.ctx i).holds = some (id, q)) (p : Place) (pc : CtxPc)
    (hpc : ∀ j p', pc.holds = some (j, p') → j = id ∧ p' = p) :
    TearInv ((s.link id p).setCtx i pc) := by
  have hplace : s.place id ≠ none := by
    rcases h.owners.place (.ctx i) id q hid with hp | ⟨ho, -⟩
    · rw [hp]
      simp
    · cases ho
  refine of_early (h.early_of_ctx hid) ((h.lists.link hplace p).frame rfl rfl rfl rfl rfl) ?_
    (h.accounts.frame rfl rfl rfl (fun _ hl => hl) (fun _ ht => ht) fun _ _ hr => hr) h.shape
  refine h.owners.turn id (.ctx i) (h.owners.ne_of_holds (show s.holds (.ctx i) = _ from hid))
    (fun o ho => ?_) (fun j p' hj => ?_) (fun j hj => place_link_of_ne p hj) rfl
  · rw [holds_setCtx_of_ne pc ho, holds_link]
  · rw [holds_setCtx] at hj
    obtain ⟨rfl, rfl⟩ := hpc j p' hj
    exact ⟨rfl, place_link _ _⟩

/-- A context completes the URB it has. -/
theorem ctx_complete (h : TearInv s) {i : Fin n} {id : ℕ} {q : Place}
    (hid : (s.ctx i).holds = some (id, q)) {alloc : Bool}
    (hs : s.stubComplete id 0 alloc = some s') {pc : CtxPc} (hpc : pc.holds = none) :
    TearInv (s'.setCtx i pc) := by
  obtain ⟨hshut, hrx, -, -, -, -, -, hplace⟩ := stubComplete_frame hs
  refine of_early ?_ ((h.lists.stubComplete hs).frame rfl rfl rfl rfl rfl) ?_
    ((h.accounts.stubComplete hs).frame rfl rfl rfl (fun _ hl => hl) (fun _ ht => ht)
      fun _ _ hr => hr) ?_
  · rw [show (s'.setCtx i pc).shut = s'.shut from rfl, hshut]
    exact h.early_of_ctx hid
  · refine h.owners.turn id (.ctx i) (h.owners.ne_of_holds (show s.holds (.ctx i) = _ from hid))
      (fun o ho => ?_) (fun j p hj => ?_) hplace hshut
    · rw [holds_setCtx_of_ne pc ho, holds_of_stubComplete hs]
    · rw [holds_setCtx, hpc] at hj
      cases hj
  · rw [show (s'.setCtx i pc).rx = s'.rx from rfl, hrx]
    exact h.shape

/-- A context submits the URB it has. -/
theorem ctx_submit (h : TearInv s) {i : Fin n} {id : ℕ} (hi : s.ctx i = .submit id) (ok : Bool) :
    TearInv ((s.usbSubmitUrb id ok).setCtx i .idle) := by
  obtain ⟨hplace, hshut, hid, hlive, horder, hconn, howner, htx, hlog, hctx, hrx⟩ :=
    usbSubmitUrb_frame (s := s) id ok
  have hholds : s.holds (.ctx i) = some (id, .privInit) := by simp [holds, hi, CtxPc.holds]
  refine of_early ?_ (h.lists.frame hid hlive hplace horder hshut) ?_
    (h.accounts.frame hconn howner hid (fun j hl => hlive ▸ hl) (fun j ht => htx ▸ ht)
      fun c j hr => hlog ▸ hr) ?_
  · rw [show ((s.usbSubmitUrb id ok).setCtx i .idle).shut = (s.usbSubmitUrb id ok).shut from rfl,
      hshut]
    exact h.early_of_ctx hholds
  · refine h.owners.submit hholds (by simp) (by rw [holds_setCtx]; rfl) (fun o ho hd => ?_)
      (fun k j p hj => holds_usbSubmitUrb hj) hplace hshut
    rw [holds_setCtx_of_ne _ ho]
    cases o with
    | rx => exact congrArg RxPc.holds hrx
    | ctx k => exact congrArg CtxPc.holds (congrFun hctx k)
    | driver k => exact absurd rfl (hd k)
  · rw [show ((s.usbSubmitUrb id ok).setCtx i .idle).rx = (s.usbSubmitUrb id ok).rx from rfl, hrx]
    exact h.shape

/-- A context takes a URB that nobody works on. -/
theorem ctx_take (h : TearInv s) {i : Fin n} {id : ℕ} {p : Place} {pc : CtxPc}
    (hfree : ∀ o j q, o ≠ .ctx i → s.holds o = some (j, q) → j ≠ id)
    (hearly : s.shut.late = false) (hplace : s.place id = some p)
    (hpc : pc.holds = some (id, p)) : TearInv (s.setCtx i pc) := by
  refine of_early hearly (h.lists.frame rfl rfl rfl rfl rfl) ?_
    (h.accounts.frame rfl rfl rfl (fun _ hl => hl) (fun _ ht => ht) fun _ _ hr => hr) h.shape
  refine h.owners.turn id (.ctx i) hfree (fun o ho => holds_setCtx_of_ne pc ho) (fun j q hj => ?_)
    (fun _ _ => rfl) rfl
  rw [holds_setCtx, hpc] at hj
  obtain ⟨rfl, rfl⟩ : id = j ∧ p = q := by simpa using hj
  exact ⟨rfl, hplace⟩

/-- A pass of `ptp_consume_` has the URB it serves, be it new or not. -/
theorem ctx_taken (h : TearInv s) {i : Fin n} {u : ℕ} {priv : Option ℕ} {pending ret : Bool}
    (hi : s.ctx i = .consume (.loop priv pending ret)) (hok : s.CtxPassInOrder i)
    (hu : priv.or (s.first .clientQueue) = some u) :
    TearInv (s.setCtx i (.consume (.loop (some u) (pending || priv.isNone) true))) := by
  rcases served_cases hu with rfl | ⟨rfl, hplace⟩
  · refine h.setCtx _ fun j p hj => ?_
    rw [hi]
    cases pending <;> exact hj
  · have hfree : ¬ s.Handled u := by
      simp only [CtxPassInOrder, hi] at hok
      exact hok rfl u hu
    refine h.ctx_take (fun o j q _ hj => ?_) (h.early_of_held (Or.inl hplace)) hplace ?_
    · rintro rfl
      exact hfree (handled_of_holds hj)
    · simp [CtxPc.holds, ConsumePc.holds]

theorem ctxConsume (h : TearInv s) {i : Fin n} {copy : Copy} (hok : s.CtxPassInOrder i)
    (hs : s.ctxConsume i copy = some s') : TearInv s' := by
  unfold Device.ctxConsume at hs
  split at hs
  next priv pending ret hi =>
    split at hs
    · cases hs
    split at hs
    next s₁ pc hpass =>
      cases hs
      obtain ⟨u, hu, hcase⟩ := ptpConsume_goOn hpass
      have htaken := h.ctx_taken hi hok hu
      rcases hcase with ⟨rfl, rfl⟩ | ⟨rfl, serving, rfl⟩
      · exact htaken
      · cases hpend : pending || priv.isNone with
        | true =>
          rw [hpend] at htaken
          have hheld : ((s.setCtx i (.consume (.loop (some u) true true))).ctx i).holds =
              some (u, .clientQueue) := by
            simp [Device.setCtx, CtxPc.holds, ConsumePc.holds]
          have hlink := (htaken.ctx_link hheld .privInit (.consume (.complete u true))
            (fun j p hj => by simpa [CtxPc.holds, ConsumePc.holds, eq_comm] using hj)).changeState
              s.state serving
          rwa [setCtx_link_setCtx] at hlink
        | false =>
          rw [hpend] at htaken
          have hset := (htaken.setCtx (i := i) (.consume (.complete u false))
            (fun j p hj => by
              simpa [Device.setCtx, CtxPc.holds, ConsumePc.holds] using hj)).changeState
              s.state serving
          rwa [setCtx_setCtx] at hset
    next s₁ ret' hpass =>
      cases hs
      have hidle : ∀ {s : Device n}, TearInv s → TearInv (s.setCtx i .idle) := fun h =>
        h.setCtx .idle fun j p hj => (by cases hj)
      rcases ptpConsume_return hpass with ⟨-, serving, rfl⟩ | ⟨u, hu, ⟨-, rfl⟩ | ⟨-, -, rfl⟩⟩
      · exact hidle (h.changeState s.state serving)
      · have htaken := h.ctx_taken hi hok hu
        cases hpend : pending || priv.isNone with
        | true => exact hidle h
        | false =>
          rw [hpend] at htaken
          have hheld : ((s.setCtx i (.consume (.loop (some u) false true))).ctx i).holds =
              some (u, .privInit) := by
            simp [Device.setCtx, CtxPc.holds, ConsumePc.holds]
          have hlink := htaken.ctx_link hheld .clientQueue .idle (fun j p hj => by cases hj)
          rwa [setCtx_link_setCtx] at hlink
      · exact hidle (h.changeState .bypassed s.frameServing)
  · cases hs

/-- `ptp_produce_` takes a URB off `request_queue` and is about to submit it. -/
theorem ptpProduce (h : TearInv s) {i : Fin n} (hs : s.ptpProduce i = some s') : TearInv s' := by
  obtain ⟨hi, id, state, hplace, rfl⟩ := ptpProduce_eq_some hs
  have hearly := h.early_of_held (Or.inr hplace)
  have hkill : s.shut ≠ .kill id := fun hk => by rw [hk] at hearly; cases hearly
  have hfree := h.owners.ne_of_place (by simp [hplace]) (by simp [hplace]) hkill
  have hlink : TearInv (s.link id .privInit) := by
    refine of_early hearly (h.lists.link (by simp [hplace]) .privInit) ?_
      (h.accounts.frame rfl rfl rfl (fun _ hl => hl) (fun _ ht => ht) fun _ _ hr => hr) h.shape
    refine h.owners.move id .rx (fun o j p hj => Or.inl ?_)
      (fun j hj => place_link_of_ne .privInit hj) rfl
    rw [holds_link] at hj
    exact ⟨hj, hfree o j p hj⟩
  refine (hlink.ctx_take (fun o j q _ hj => ?_) hearly (place_link id .privInit) rfl).changeState
    state s.frameServing
  rw [holds_link] at hj
  exact hfree o j q hj

/-! ### The driver and the transmit thread -/

theorem usbComplete (h : TearInv s) {id : ℕ} {status : ℤ} {alloc : Bool}
    (hs : s.usbComplete id status alloc = some s') : TearInv s' := by
  obtain ⟨hfl, hs⟩ := Option.ite_none_right_eq_some.mp hs
  obtain ⟨s₁, hcomp, rfl⟩ := Option.map_eq_some_iff.mp hs
  obtain ⟨hshut, hrx, htx, -, hctx, -, -, hplace⟩ := stubComplete_frame hcomp
  have hid : s.holds (.driver id) = some (id, .privInit) := by simp [holds, hfl]
  refine ⟨(h.lists.stubComplete hcomp).frame rfl rfl rfl rfl rfl, ?_,
    (h.accounts.stubComplete hcomp).frame rfl rfl rfl (fun _ hl => hl) (fun _ ht => ht)
      fun _ _ hr => hr, ?_, fun hlate => ?_, fun hdone => ?_⟩
  · refine h.owners.turn id (.driver id) (h.owners.ne_of_holds hid) (fun o ho => ?_)
      (fun j p hj => ?_) hplace hshut
    · rw [← holds_of_stubComplete hcomp]
      cases o with
      | driver k =>
        have hk : k ≠ id := fun hk => ho (by rw [hk])
        simp [holds, urbDone, Function.update_of_ne hk]
      | _ => rfl
    · simp [holds, urbDone] at hj
  · rw [show (s₁.urbDone id).rx = s₁.rx from rfl, hrx]
    exact h.shape
  · have hq := h.quiet (by rw [← hshut]; exact hlate)
    refine ⟨hrx.trans hq.rx, htx.trans hq.tx, fun i => ?_, fun j => ⟨fun hj => ?_, fun hj => ?_⟩⟩
    · exact (congrArg CtxPc.holds (congrFun hctx i)).trans (hq.ctx i)
    · exact (hq.held j).1 (place_of_stubComplete hcomp (by simp) hj)
    · exact (hq.held j).2 (place_of_stubComplete hcomp (by simp) hj)
  · -- a URB on no list can only be killed
    have hnone := h.emptied (hshut ▸ hdone)
    rcases stubComplete_eq_some hcomp with ⟨-, rfl⟩ | ⟨⟨-, hne⟩, -⟩
    · exact hnone
    · exact absurd (hnone id) hne

/-- The transmit thread moves on without a record. -/
theorem setTx (h : TearInv s) (hrun : s.tx ≠ .stopped) {pc : TxPc}
    (hpc : ∀ id, pc ≠ .sendSubmit id) : TearInv (s.setTx pc) := by
  refine of_early (h.early (Or.inr hrun)) (h.lists.frame rfl rfl rfl rfl rfl)
    (h.owners.sub (fun o j p hj => ?_) rfl rfl)
    (h.accounts.frame rfl rfl rfl (fun _ hl => hl) (fun id ht => absurd ht (hpc id))
      fun _ _ hr => hr) h.shape
  cases o <;> exact hj

theorem dequeueFromPrivTx (h : TearInv s) (hs : s.dequeueFromPrivTx = some s') : TearInv s' := by
  unfold Device.dequeueFromPrivTx at hs
  split at hs
  · cases hs
  next htx =>
  have htx : s.tx ≠ .stopped := by simp [not_not.mp htx]
  split at hs
  · cases hs
    exact h.setTx htx fun id => (by simp)
  next id hfirst =>
    cases hs
    have hplace := place_of_first hfirst
    have hearly := h.early (Or.inr htx)
    have hkill : s.shut ≠ .kill id := fun hk => by rw [hk] at hearly; cases hearly
    have hfree := h.owners.ne_of_place (by simp [hplace]) (by simp [hplace]) hkill
    have hlive := h.lists.live_of_place id (by simp [hplace])
    refine of_early hearly ((h.lists.link (by simp [hplace]) .privFree).frame rfl rfl rfl rfl rfl)
      ?_ ⟨h.accounts.owner, fun j hj => ?_, h.accounts.replies⟩ h.shape
    · refine h.owners.move id .rx (fun o j p hj => Or.inl ?_)
        (fun j hj => place_link_of_ne .privFree hj) rfl
      have hj : s.holds o = some (j, p) := by cases o <;> exact hj
      exact ⟨hj, hfree o j p hj⟩
    · obtain rfl : id = j := by simpa [Device.setTx] using hj
      exact ⟨h.accounts.owner id hlive, h.lists.live_lt id hlive⟩

theorem sendRetSubmit (h : TearInv s) {ok : Bool} (hs : s.sendRetSubmit ok = some s') :
    TearInv s' := by
  unfold Device.sendRetSubmit at hs
  split at hs
  next id htx =>
    have hrun : s.tx ≠ .stopped := by simp [htx]
    split at hs
    · cases hs
      refine of_early (h.early (Or.inr hrun)) (h.lists.frame rfl rfl rfl rfl rfl)
        (h.owners.sub (fun o j p hj => by cases o <;> exact hj) rfl rfl)
        ⟨h.accounts.owner, fun j hj => (by cases hj), fun c j hj => ?_⟩ h.shape
      rcases List.mem_append.mp hj with hj | hj
      · exact h.accounts.replies c j hj
      · obtain ⟨rfl, rfl⟩ : c = s.conn ∧ j = id := by simpa using hj
        exact h.accounts.sending _ htx
    · cases hs
      exact h.setTx hrun fun id => (by simp)
  · cases hs

theorem freePrivs (h : TearInv s) (hs : s.freePrivs = some s') : TearInv s' := by
  unfold Device.freePrivs at hs
  split at hs
  · cases hs
  next htx =>
  cases hs
  have hearly := h.early (Or.inr (by simp [not_not.mp htx]))
  refine of_early hearly ⟨fun j hj => ?_, fun j hj => ?_, fun j hj => ?_, fun j hj => ?_,
    fun j hj => ?_⟩ ⟨fun o j p hj => ?_, fun o o' j p p' hj hj' => ?_⟩
    (h.accounts.frame rfl rfl rfl (fun j hj => ?_) (fun j hj => by cases hj) fun _ _ hr => hr)
    h.shape
  · simp only at hj
    split at hj
    · cases hj
    · exact h.lists.live_lt j hj
  · simp only at hj ⊢
    split at hj
    · exact absurd rfl hj
    next hne =>
      rw [if_neg hne]
      exact h.lists.live_of_place j hj
  · simp only at hj ⊢
    split at hj
    · cases hj
    next hne =>
      rw [if_neg hne]
      exact h.lists.place_of_live j hj
  · simp only at hj
    split at hj
    · exact absurd rfl hj
    · exact h.lists.ordered j hj
  · rw [show s.shut = .kill j from hj] at hearly
    cases hearly
  · -- a URB that somebody works on is not on `priv_free`
    have hj : s.holds o = some (j, p) := by cases o <;> exact hj
    refine (h.owners.place o j p hj).imp_left fun hp => ?_
    simp only [hp]
    rw [if_neg]
    rcases place_of_holds hj with rfl | rfl <;> simp
  · have hj : s.holds o = some (j, p) := by cases o <;> exact hj
    have hj' : s.holds o' = some (j, p') := by cases o' <;> exact hj'
    exact h.owners.unique o o' j p p' hj hj'
  · simp only at hj
    split at hj
    · cases hj
    · exact hj

/-! ### The teardown -/

theorem closeSocket (h : TearInv s) (hok : s.FilterIdle) (hs : s.closeSocket = some s') :
    TearInv s' := by
  obtain ⟨⟨hshut, hrx, htx⟩, hs⟩ := Option.ite_none_right_eq_some.mp hs
  cases hs
  have hkill : ∀ id, s.shut ≠ .kill id := fun id hk => by simp [hk] at hshut
  refine ⟨⟨h.lists.live_lt, h.lists.live_of_place, fun j hj => ?_, h.lists.ordered,
    fun j hj => (by cases hj)⟩, ⟨fun o j p hj => ?_, fun o o' j p p' hj hj' => ?_⟩,
    h.accounts.frame rfl rfl rfl (fun _ hl => hl) (fun _ ht => ht) fun _ _ hr => hr, h.shape,
    fun _ => ⟨hrx, htx, hok.2, fun id => ?_⟩, fun hdone => (by cases hdone)⟩
  · exact Or.inl ((h.lists.place_of_live j hj).resolve_right (hkill j))
  · have hj : s.holds o = some (j, p) := by cases o <;> exact hj
    exact Or.inl ((h.owners.place o j p hj).resolve_right fun hk => hkill j hk.2)
  · have hj : s.holds o = some (j, p) := by cases o <;> exact hj
    have hj' : s.holds o' = some (j, p') := by cases o' <;> exact hj'
    exact h.owners.unique o o' j p p' hj hj'
  · by_cases hlt : id < s.nextId
    · exact hok.1 id hlt
    · -- no record has this number yet
      have hnone : s.place id = none := by
        by_contra hne
        exact hlt (h.lists.live_lt id (h.lists.live_of_place id hne))
      constructor <;> simp [Device.setShut, hnone]

theorem shutdownConnection (h : TearInv s) (hs : s.shutdownConnection = some s') : TearInv s' := by
  obtain ⟨hshut, hs⟩ := Option.ite_none_right_eq_some.mp hs
  cases hs
  have hkill : ∀ id, s.shut ≠ .kill id := fun id hk => by simp [hk] at hshut
  refine of_early rfl ⟨h.lists.live_lt, h.lists.live_of_place, fun j hj => ?_, h.lists.ordered,
    fun j hj => (by cases hj)⟩ ⟨fun o j p hj => ?_, fun o o' j p p' hj hj' => ?_⟩
    (h.accounts.frame rfl rfl rfl (fun _ hl => hl) (fun _ ht => ht) fun _ _ hr => hr) h.shape
  · exact Or.inl ((h.lists.place_of_live j hj).resolve_right (hkill j))
  · have hj : s.holds o = some (j, p) := by cases o <;> exact hj
    exact Or.inl ((h.owners.place o j p hj).resolve_right fun hk => hkill j hk.2)
  · have hj : s.holds o = some (j, p) := by cases o <;> exact hj
    have hj' : s.holds o' = some (j, p') := by cases o' <;> exact hj'
    exact h.owners.unique o o' j p p' hj hj'

/-- A list without a first entry has no entry. -/
theorem place_ne_of_first (h : Lists s) {p : Place} (hp : s.first p = none) (id : ℕ) :
    s.place id ≠ some p := by
  intro hid
  have hno := List.find?_eq_none.mp hp id (h.ordered id (by simp [hid]))
  simp [hid] at hno

/-- During the cleanup only the driver works on URBs. -/
theorem driver_of_holds (hq : Quiet s) {o : Owner n} {id : ℕ} {p : Place}
    (h : s.holds o = some (id, p)) : o = .driver id ∧ p = .privInit := by
  cases o with
  | rx =>
    rw [show s.holds .rx = s.rx.holds from rfl, hq.rx] at h
    cases h
  | ctx i =>
    rw [show s.holds (.ctx i) = (s.ctx i).holds from rfl, hq.ctx i] at h
    cases h
  | driver k =>
    obtain ⟨-, h⟩ := Option.ite_none_right_eq_some.mp h
    obtain ⟨rfl, rfl⟩ := Prod.mk.inj (Option.some.inj h)
    exact ⟨rfl, rfl⟩

theorem cleanupPop (h : TearInv s) (hs : s.cleanupPop = some s') : TearInv s' := by
  unfold Device.cleanupPop at hs
  split at hs
  · cases hs
  next hshut =>
  have hshut : s.shut = .cleanup := not_not.mp hshut
  have hq := h.quiet (by simp [hshut, ShutPc.late])
  have hkill : ∀ id, s.shut ≠ .kill id := fun id hk => by simp [hk] at hshut
  split at hs
  next id hpop =>
    cases hs
    -- the first entry leaves its list, and its URB is to be killed
    have hplace : ∀ j, j ≠ id → ((s.listDel id).setShut (.kill id)).place j = s.place j :=
      fun j hj => by simp [listDel, setShut, Function.update_of_ne hj]
    have hnone : ((s.listDel id).setShut (.kill id)).place id = none := by
      simp [listDel, setShut]
    refine ⟨⟨h.lists.live_lt, fun j hj => ?_, fun j hj => ?_, fun j hj => ?_, fun j hj => ?_⟩,
      ⟨fun o j p hj => ?_, fun o o' j p p' hj hj' => ?_⟩,
      h.accounts.frame rfl rfl rfl (fun _ hl => hl) (fun _ ht => ht) fun _ _ hr => hr, h.shape,
      fun _ => ⟨hq.rx, hq.tx, hq.ctx, fun j => ?_⟩, fun hdone => (by cases hdone)⟩
    · by_cases hji : j = id
      · exact absurd (hji ▸ hnone) hj
      · exact h.lists.live_of_place j (hplace j hji ▸ hj)
    · by_cases hji : j = id
      · exact Or.inr (by rw [hji]; rfl)
      · rw [hplace j hji]
        exact Or.inl ((h.lists.place_of_live j hj).resolve_right (hkill j))
    · by_cases hji : j = id
      · exact absurd (hji ▸ hnone) hj
      · exact h.lists.ordered j (hplace j hji ▸ hj)
    · obtain rfl : id = j := by simpa [setShut] using hj
      exact hnone
    · have hj : s.holds o = some (j, p) := by cases o <;> exact hj
      obtain ⟨rfl, rfl⟩ := driver_of_holds hq hj
      by_cases hji : j = id
      · exact Or.inr ⟨rfl, by rw [hji]; rfl⟩
      · rw [hplace j hji]
        exact Or.inl ((h.owners.place _ j _ hj).resolve_right fun hk => hkill j hk.2)
    · have hj : s.holds o = some (j, p) := by cases o <;> exact hj
      have hj' : s.holds o' = some (j, p') := by cases o' <;> exact hj'
      exact h.owners.unique o o' j p p' hj hj'
    · by_cases hji : j = id
      · rw [hji, hnone]
        simp
      · rw [hplace j hji]
        exact hq.held j
  next hpop =>
    cases hs
    -- the three lists are empty, and so are the queues of the filter
    have hlists : ∀ id, s.place id = none := by
      intro id
      obtain ⟨hpop, hfree⟩ := Option.or_eq_none_iff.mp hpop
      obtain ⟨hinit, htx⟩ := Option.or_eq_none_iff.mp hpop
      cases hp : s.place id with
      | none => rfl
      | some p =>
        exfalso
        cases p with
        | privInit => exact place_ne_of_first h.lists hinit id hp
        | privTx => exact place_ne_of_first h.lists htx id hp
        | privFree => exact place_ne_of_first h.lists hfree id hp
        | clientQueue => exact (hq.held id).1 hp
        | requestQueue => exact (hq.held id).2 hp
    refine ⟨⟨h.lists.live_lt, h.lists.live_of_place, fun j hj => ?_, h.lists.ordered,
      fun j hj => (by cases hj)⟩, ⟨fun o j p hj => ?_, fun o o' j p p' hj hj' => ?_⟩,
      h.accounts.frame rfl rfl rfl (fun _ hl => hl) (fun _ ht => ht) fun _ _ hr => hr, h.shape,
      fun _ => ⟨hq.rx, hq.tx, hq.ctx, hq.held⟩, fun _ => hlists⟩
    · exact Or.inl ((h.lists.place_of_live j hj).resolve_right (hkill j))
    · have hj : s.holds o = some (j, p) := by cases o <;> exact hj
      exact Or.inl ((h.owners.place o j p hj).resolve_right fun hk => hkill j hk.2)
    · have hj : s.holds o = some (j, p) := by cases o <;> exact hj
      have hj' : s.holds o' = some (j, p') := by cases o' <;> exact hj'
      exact h.owners.unique o o' j p p' hj hj'

theorem killed (h : TearInv s) (hs : s.killed = some s') : TearInv s' := by
  unfold Device.killed at hs
  split at hs
  next id hshut =>
    obtain ⟨hfl, hs⟩ := Option.ite_none_right_eq_some.mp hs
    cases hs
    have hq := h.quiet (by simp [hshut, ShutPc.late])
    have hne : ∀ j, j ≠ id → s.shut ≠ .kill j := fun j hj hk => by
      rw [hshut] at hk
      exact hj (ShutPc.kill.inj hk).symm
    have hlive : ∀ j, j ≠ id → Function.update s.live id false j = s.live j := fun j hj =>
      Function.update_of_ne hj _ _
    refine ⟨⟨fun j hj => ?_, fun j hj => ?_, fun j hj => ?_, h.lists.ordered,
      fun j hj => (by cases hj)⟩, ⟨fun o j p hj => ?_, fun o o' j p p' hj hj' => ?_⟩,
      h.accounts.frame rfl rfl rfl (fun j hj => ?_) (fun _ ht => ht) fun _ _ hr => hr, h.shape,
      fun _ => ⟨hq.rx, hq.tx, hq.ctx, hq.held⟩, fun hdone => (by cases hdone)⟩
    · by_cases hji : j = id
      · simp [hji] at hj
      · exact h.lists.live_lt j (hlive j hji ▸ hj)
    · by_cases hji : j = id
      · exact absurd (hji ▸ h.lists.killed id hshut) hj
      · exact (hlive j hji).trans (h.lists.live_of_place j hj)
    · by_cases hji : j = id
      · simp [hji] at hj
      · exact Or.inl ((h.lists.place_of_live j (hlive j hji ▸ hj)).resolve_right (hne j hji))
    · have hj : s.holds o = some (j, p) := by cases o <;> exact hj
      refine Or.inl ((h.owners.place o j p hj).resolve_right ?_)
      rintro ⟨rfl, hk⟩
      obtain rfl : id = j := by
        rw [hshut] at hk
        exact ShutPc.kill.inj hk
      simp [holds, hfl] at hj
    · have hj : s.holds o = some (j, p) := by cases o <;> exact hj
      have hj' : s.holds o' = some (j, p') := by cases o' <;> exact hj'
      exact h.owners.unique o o' j p p' hj hj'
    · by_cases hji : j = id
      · simp [hji] at hj
      · exact hlive j hji ▸ hj
  · cases hs

/-- Nobody works on a URB when `stub_shutdown_connection` has returned. -/
theorem holds_eq_none (h : TearInv s) (hdone : s.shut = .done) (o : Owner n) :
    s.holds o = none := by
  cases ho : s.holds o with
  | none => rfl
  | some x =>
    rcases h.owners.place o x.1 x.2 ho with hp | ⟨-, hk⟩
    · rw [h.emptied hdone] at hp
      cases hp
    · rw [hdone] at hk
      cases hk

/-- No record is left. -/
theorem live_eq_false (h : TearInv s) (hdone : s.shut = .done) (id : ℕ) : s.live id = false := by
  by_contra hlive
  rcases h.lists.place_of_live id (by simpa using hlive) with hp | hk
  · exact hp (h.emptied hdone id)
  · rw [hdone] at hk
    cases hk

theorem storeSockfd (h : TearInv s) (hs : s.storeSockfd = some s') : TearInv s' := by
  obtain ⟨hdone, hs⟩ := Option.ite_none_right_eq_some.mp hs
  cases hs
  have hnone : ∀ o, s.holds o = none := h.holds_eq_none hdone
  have hdead : ∀ id, s.live id ≠ true := fun id => by simp [h.live_eq_false hdone id]
  have hfree : ∀ o : Owner n, holds
      { s with conn := s.conn + 1, rx := .idle, tx := .submitLoop, shut := .live } o = none := by
    intro o
    cases o with
    | rx => rfl
    | ctx i => exact hnone (.ctx i)
    | driver k => exact hnone (.driver k)
  refine of_early rfl ⟨h.lists.live_lt, h.lists.live_of_place, fun j hj => absurd hj (hdead j),
    h.lists.ordered, fun j hj => (by cases hj)⟩ ⟨fun o j p hj => ?_, fun o o' j p p' hj hj' => ?_⟩
    ⟨fun j hj => absurd hj (hdead j), fun j hj => (by cases hj), h.accounts.replies⟩ trivial
  · rw [hfree o] at hj
    cases hj
  · rw [hfree o] at hj
    cases hj

/-- **Every step that meets the condition keeps the invariant.** -/
theorem step (h : TearInv s) {a : Act n} (hok : s.TeardownInOrder a) (hs : s.step a = some s') :
    TearInv s' := by
  cases a with
  | rxSubmit seqnum kind alloc =>
    simp only [Device.step, stubRecvCmdSubmit] at hs
    split at hs
    · cases hs
    next hrx =>
    split at hs
    · cases hs
      exact h.stubPrivAlloc (not_not.mp hrx) seqnum kind
    · cases hs
      exact h
  | rxBuild ok =>
    simp only [Device.step, stubBuildUrb] at hs
    split at hs
    next id hrx =>
      cases hs
      refine h.setRx (Or.inl (by simp [hrx])) _ (fun j p hj => ?_) (by cases ok <;> trivial)
      rw [hrx]
      cases ok with
      | true => exact hj
      | false => cases hj
    · cases hs
  | rxOnRx parsed =>
    obtain ⟨id, hrx, state, serving, hcase⟩ := ptpOnRx_eq_some hs
    have hrun : s.rx ≠ .stopped ∨ s.tx ≠ .stopped := Or.inl (by simp [hrx])
    have hkeep : ∀ j p, some (id, Place.privInit) = some (j, p) → s.rx.holds = some (j, p) := by
      intro j p hj
      rw [hrx]
      exact hj
    rcases hcase with rfl | ⟨start, rfl⟩ | rfl | rfl
    · exact (h.changeState state serving).setRx hrun _ hkeep trivial
    · exact (h.changeState state serving).setRx hrun _ hkeep trivial
    · exact h.setRx hrun _ hkeep fun _ => ⟨rfl, rfl⟩
    · exact h.rx_link (hkeep id .privInit rfl) .requestQueue _ (fun j p hj => by cases hj) trivial
  | rxPreviewComplete alloc =>
    simp only [Device.step, previewComplete] at hs
    split at hs
    next id start hrx =>
      obtain ⟨s₁, hcomp, rfl⟩ := Option.map_eq_some_iff.mp hs
      refine h.rx_complete (show _ = some (id, .privInit) by rw [hrx]; rfl) hcomp ?_ ?_
      · cases start <;> rfl
      · cases start <;> trivial
    · cases hs
  | rxPreviewRest ok =>
    simp only [Device.step, previewRest] at hs
    split at hs
    next id hrx =>
      obtain rfl : ok = true := hok
      cases hs
      exact h.setRx (Or.inl (by simp [hrx])) _ (fun j p hj => by cases hj) trivial
    · cases hs
  | rxConsume copy => exact h.rxConsume hok hs
  | rxConsumeComplete alloc =>
    simp only [Device.step, Device.rxConsumeComplete] at hs
    split at hs
    next id u pending hrx =>
      obtain ⟨s₁, hcomp, rfl⟩ := Option.map_eq_some_iff.mp hs
      exact h.rx_complete (show _ = some (u, .privInit) by rw [hrx]; rfl) hcomp rfl
        fun hret => by cases hret
    · cases hs
  | rxUrb ok =>
    simp only [Device.step, stubSubmitUrb] at hs
    split at hs
    next id hrx =>
      cases hs
      exact h.rx_submit hrx ok
    · cases hs
  | rxUnlink seqnum target alloc =>
    simp only [Device.step, Device.stubRecvCmdUnlink] at hs
    split at hs
    · cases hs
    next hrx =>
    have hrun : s.rx ≠ .stopped := by simp [not_not.mp hrx]
    split at hs
    next id hid =>
      cases hs
      refine of_early (h.early (Or.inl hrun)) (h.lists.frame rfl rfl rfl rfl rfl)
        (h.owners.sub (fun o j p hj => ?_) rfl rfl)
        (h.accounts.frame rfl rfl rfl (fun _ hl => hl) (fun _ ht => ht) fun _ _ hr => hr) trivial
      cases o with
      | rx => cases hj
      | _ => exact hj
    · cases hs
      unfold stubEnqueueRetUnlink
      split
      · refine of_early (h.early (Or.inl hrun)) (h.lists.frame rfl rfl rfl rfl rfl)
          (h.owners.sub (fun o j p hj => by cases o <;> exact hj) rfl rfl)
          (h.accounts.frame rfl rfl rfl (fun _ hl => hl) (fun _ ht => ht) fun c j hr => ?_) h.shape
        simpa [note] using hr
      · exact h
  | rxUnlinkUrb =>
    simp only [Device.step, Device.usbUnlinkUrb] at hs
    split at hs
    next id hrx =>
      cases hs
      exact h.setRx (Or.inl (by simp [hrx])) _ (fun j p hj => by cases hj) trivial
    · cases hs
  | rxStop =>
    obtain ⟨hrx, hs⟩ := Option.ite_none_right_eq_some.mp hs
    cases hs
    exact h.setRx (Or.inl (by simp [hrx])) _ (fun j p hj => by cases hj) trivial
  | changeState state serving =>
    cases hs
    exact h.changeState state serving
  | produce i => exact h.ptpProduce hs
  | ctxStart i =>
    obtain ⟨-, hs⟩ := Option.ite_none_right_eq_some.mp hs
    cases hs
    exact h.setCtx _ fun j p hj => (by cases hj)
  | ctxConsume i copy => exact h.ctxConsume hok hs
  | ctxConsumeComplete i alloc =>
    simp only [Device.step, Device.ctxConsumeComplete] at hs
    split at hs
    next u pending hi =>
      obtain ⟨s₁, hcomp, rfl⟩ := Option.map_eq_some_iff.mp hs
      exact h.ctx_complete (show _ = some (u, .privInit) by rw [hi]; rfl) hcomp rfl
    · cases hs
  | ctxSubmit i ok =>
    simp only [Device.step, Device.ctxSubmit] at hs
    split at hs
    next id hi =>
      cases hs
      exact h.ctx_submit hi ok
    · cases hs
  | complete id status alloc => exact h.usbComplete hs
  | txDequeue => exact h.dequeueFromPrivTx hs
  | txSend ok => exact h.sendRetSubmit hs
  | txFree => exact h.freePrivs hs
  | txLoop | txStop =>
    obtain ⟨htx, hs⟩ := Option.ite_none_right_eq_some.mp hs
    cases hs
    exact h.setTx (by simp [htx]) fun id => (by simp)
  | shutdown => exact h.shutdownConnection hs
  | closeSocket => exact h.closeSocket hok hs
  | cleanupPop => exact h.cleanupPop hs
  | killed => exact h.killed hs
  | storeSockfd => exact h.storeSockfd hs

end TearInv

theorem tearInv_connected (n : ℕ) : TearInv (connected n) := by
  have hnone : ∀ o : Owner n, (connected n).holds o = none := by
    intro o
    cases o <;> rfl
  refine TearInv.of_early rfl ⟨fun j hj => (by cases hj), fun j hj => absurd rfl hj,
    fun j hj => (by cases hj), fun j hj => absurd rfl hj, fun j hj => (by cases hj)⟩
    ⟨fun o j p hj => ?_, fun o o' j p p' hj hj' => ?_⟩
    ⟨fun j hj => (by cases hj), fun j hj => (by cases hj), fun c j hj => (by cases hj)⟩ trivial
  · rw [hnone o] at hj
    cases hj
  · rw [hnone o] at hj
    cases hj

/-- **When `stub_shutdown_connection` has returned, every record is freed, on no list and not in
flight, and a RET_SUBMIT is only ever written to the connection that its CMD_SUBMIT came from**,
in every run that meets the condition. -/
theorem connection_taken_down {s : Device n}
    (h : (filteredStub n).ReachableWhere TeardownInOrder s) :
    (s.shut = .done → ∀ id, s.live id = false ∧ s.place id = none ∧ s.inFlight id = false) ∧
      ∀ c id, .retSubmit c id ∈ s.log → s.owner id = c := by
  have hinv : TearInv s := h.invariant (tearInv_connected n) fun _ _ _ hs hok hstep =>
    TearInv.step hs hok hstep
  refine ⟨fun hdone id => ⟨hinv.live_eq_false hdone id, hinv.emptied hdone id, ?_⟩,
    fun c id hr => (hinv.accounts.replies c id hr).1⟩
  have hnone := hinv.holds_eq_none hdone (.driver id)
  by_contra hfl
  simp [holds, hfl] at hnone

/-- A read URB is served by the filter, another one is in flight when the client leaves, and the
next client is connected. -/
def tornDown : List (Act 1) :=
  [.rxSubmit 1 .bulkOut true, .rxBuild true, .rxOnRx .preview, .rxPreviewComplete true,
    .rxPreviewRest true, .rxSubmit 2 .bulkIn true, .rxBuild true, .rxOnRx .other, .rxConsume .stop,
    .ctxStart (Fin.last 0), .ctxConsume (Fin.last 0) (.full true),
    .ctxConsumeComplete (Fin.last 0) true, .ctxConsume (Fin.last 0) .stop,
    .rxSubmit 3 .bulkIn true, .rxBuild true, .rxOnRx .other, .rxUrb true, .txDequeue, .txSend true,
    .txDequeue, .txSend true, .txDequeue, .txFree, .shutdown, .rxStop, .txStop, .closeSocket,
    .cleanupPop, .complete 2 (-2) true, .killed, .cleanupPop]

theorem connection_taken_down_tornDown :
    ∃ s, (filteredStub 1).runWhere TeardownInOrder (connected 1) tornDown = some s ∧
      (s.shut = .done → ∀ id, s.live id = false ∧ s.place id = none ∧ s.inFlight id = false) ∧
      ∀ c id, .retSubmit c id ∈ s.log → s.owner id = c :=
  Machine.exists_runWhere (m := filteredStub 1) (by decide) fun _ h => connection_taken_down h

/-- The read URB is still on `client_queue` when the client leaves. -/
def tornDownWhileHeld : List (Act 1) :=
  [.rxSubmit 1 .bulkOut true, .rxBuild true, .rxOnRx .preview, .rxPreviewComplete true,
    .rxPreviewRest true, .txDequeue, .txSend true, .txDequeue, .txFree, .rxSubmit 2 .bulkIn true,
    .rxBuild true, .rxOnRx .other, .rxConsume .stop, .shutdown, .rxStop, .txStop, .closeSocket,
    .cleanupPop]

/-- The next client connects, and the frame that the filter was waiting for arrives. -/
def nextClient : List (Act 1) :=
  [.storeSockfd, .ctxStart (Fin.last 0), .ctxConsume (Fin.last 0) (.full true),
    .ctxConsumeComplete (Fin.last 0) true, .txDequeue, .txSend true]

/-- **A URB that the filter holds outlives its connection, and its RET_SUBMIT is written to the
next client.** -/
theorem held_urb_answers_next_client :
    (∃ s, (filteredStub 1).Reachable s ∧ s.shut = .done ∧ s.live 1 = true ∧
        s.place 1 = some .clientQueue) ∧
      ∃ s, (filteredStub 1).Reachable s ∧ .retSubmit 1 1 ∈ s.log ∧ s.owner 1 = 0 := by
  constructor
  · obtain ⟨s, hs, hp⟩ := Machine.exists_reachable_of_any (m := filteredStub 1) tornDownWhileHeld
      (fun s => s.shut = .done ∧ s.live 1 = true ∧ s.place 1 = some .clientQueue) (by decide)
    exact ⟨s, hs, of_decide_eq_true hp⟩
  · obtain ⟨s, hs, hp⟩ := Machine.exists_reachable_of_any (m := filteredStub 1)
      (tornDownWhileHeld ++ nextClient)
      (fun s => .retSubmit 1 1 ∈ s.log ∧ s.owner 1 = 0) (by decide)
    exact ⟨s, hs, of_decide_eq_true hp⟩

end Usbip.Stub.Filtered
