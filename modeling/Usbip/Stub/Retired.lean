import Usbip.Stub.Filtered
import Usbip.Lib.Trace

/-!
# Unlinking a URB that the filter holds

`stub_recv_cmd_unlink` takes a URB that is not on `priv_init` for completed, and answers the
CMD_UNLINK at once. A URB on `client_queue` or `request_queue` is not on `priv_init` either: the
filter completes it later, and its RET_SUBMIT follows the RET_UNLINK (`held_urb_replied_twice`).

A URB is *open* while some function may yet complete it: it is with the receive thread or with
another context in the filter, in flight, or on a list of the filter. No step opens a URB again
(`UnlinkInv`), so as long as a CMD_UNLINK that finds no record finds no open URB either, no
RET_SUBMIT follows a RET_UNLINK for the same URB (`no_reply_after_unlink`).
-/

namespace Usbip.Stub.Filtered

open Trace

namespace Device

variable {n : ℕ}

/-- The URB may yet be completed. -/
def Open (s : Device n) (id : ℕ) : Prop :=
  s.Handled id ∨ s.place id = some .clientQueue ∨ s.place id = some .requestQueue

instance (s : Device n) (id : ℕ) : Decidable (s.Open id) := by
  unfold Open
  infer_instance

/-- A CMD_UNLINK that finds no record with the number of its target has a target that was
completed, or that is being unlinked. -/
def UnlinkInOrder (s : Device n) : Act n → Prop
  | .rxUnlink _ target _ => s.findInit target = none →
      ∀ id < s.nextId, .cmdSubmit id target ∈ s.log → s.unlinking id = true ∨ ¬ s.Open id
  | _ => True

instance (s : Device n) (a : Act n) : Decidable (s.UnlinkInOrder a) := by
  cases a <;> dsimp only [UnlinkInOrder] <;> infer_instance

/-- When a RET_UNLINK was queued for a CMD_UNLINK that found nothing, none of the URBs with the
number of its target will be answered. -/
def Settled (s : Device n) (pre : List Event) (e : Event) : Prop :=
  ∀ q t, e = .notFound q t → ∀ id, .cmdSubmit id t ∈ pre → s.unlinking id = true ∨ ¬ s.Open id

end Device

/-- No RET_SUBMIT is queued for a URB after the RET_UNLINK for its CMD_UNLINK was. -/
def NotAfterUnlink (pre : List Event) (e : Event) : Prop :=
  ∀ id, e = .complete id → .unlinked id ∉ pre ∧
    ∀ q t before after, pre = before ++ .notFound q t :: after → .cmdSubmit id t ∉ before

open Device

/-- The invariant of the unlinks. -/
structure UnlinkInv {n : ℕ} (s : Device n) : Prop where
  live_lt : ∀ id, s.live id = true → id < s.nextId
  submit_lt : ∀ id q, .cmdSubmit id q ∈ s.log → id < s.nextId
  unlinked : ∀ id, .unlinked id ∈ s.log → id < s.nextId ∧ s.unlinking id = true
  settled : Historical s.Settled s.log
  order : Historical NotAfterUnlink s.log

namespace UnlinkInv

variable {n : ℕ} {s s' : Device n}

/-- A step that opens no URB, forgets no unlink and records nothing. -/
theorem frame (h : UnlinkInv s) (hlog : s'.log = s.log) (hid : s'.nextId = s.nextId)
    (hlive : ∀ id, s'.live id = true → s.live id = true) (hun : s'.unlinking = s.unlinking)
    (hopen : ∀ id, s'.Open id → s.Open id) : UnlinkInv s' := by
  refine ⟨fun id hl => ?_, fun id q hq => ?_, fun id hu => ?_, ?_, ?_⟩
  · rw [hid]
    exact h.live_lt id (hlive id hl)
  · rw [hid]
    exact h.submit_lt id q (hlog ▸ hq)
  · rw [hid, hun]
    exact h.unlinked id (hlog ▸ hu)
  · rw [hlog]
    refine h.settled.imp fun pre e hp q t he id hsub => ?_
    rw [hun]
    exact (hp q t he id hsub).imp_right fun hno ho => hno (hopen id ho)
  · rw [hlog]
    exact h.order

/-- The receive thread turns to URBs that are open already. -/
theorem setRx (h : UnlinkInv s) {pc : RxPc} (hpc : ∀ id ∈ pc.refs, s.Open id) :
    UnlinkInv (s.setRx pc) := by
  refine h.frame rfl rfl (fun _ hl => hl) rfl fun id ho => ?_
  rcases ho with (hrx | hrest) | hheld
  · exact hpc id hrx
  · exact Or.inl (Or.inr hrest)
  · exact Or.inr hheld

/-- A context turns to URBs that are open already. -/
theorem setCtx (h : UnlinkInv s) {i : Fin n} {pc : CtxPc} (hpc : ∀ id ∈ pc.refs, s.Open id) :
    UnlinkInv (s.setCtx i pc) := by
  refine h.frame rfl rfl (fun _ hl => hl) rfl fun id ho => ?_
  rcases ho with (hrx | ⟨j, hj⟩ | hfl) | hheld
  · exact Or.inl (Or.inl hrx)
  · by_cases hij : j = i
    · subst hij
      simp only [Device.setCtx, Function.update_self] at hj
      exact hpc id hj
    · simp only [Device.setCtx, Function.update_of_ne hij] at hj
      exact Or.inl (Or.inr (Or.inl ⟨j, hj⟩))
  · exact Or.inl (Or.inr (Or.inr hfl))
  · exact Or.inr hheld

/-- An open URB may be linked to any list, any URB to those of the device. -/
theorem link (h : UnlinkInv s) {id : ℕ} {p : Place}
    (hid : p = .clientQueue ∨ p = .requestQueue → s.Open id) : UnlinkInv (s.link id p) := by
  refine h.frame rfl rfl (fun _ hl => hl) rfl fun j ho => ?_
  rcases ho with hhandled | hheld
  · exact Or.inl hhandled
  · by_cases hj : j = id
    · subst hj
      simp only [Device.link, Function.update_self, Option.some.injEq] at hheld
      exact hid hheld
    · simp only [Device.link, Function.update_of_ne hj] at hheld
      exact Or.inr hheld

/-- A URB that is open may be submitted. -/
theorem usbSubmitUrb (h : UnlinkInv s) {id : ℕ} {ok : Bool} (hid : s.Open id) :
    UnlinkInv (s.usbSubmitUrb id ok) := by
  unfold Device.usbSubmitUrb
  split
  · refine h.frame rfl rfl (fun _ hl => hl) rfl fun j ho => ?_
    by_cases hj : j = id
    · exact hj ▸ hid
    · rcases ho with (hrx | hctx | hfl) | hheld
      · exact Or.inl (Or.inl hrx)
      · exact Or.inl (Or.inr (Or.inl hctx))
      · simp only [Function.update_of_ne hj] at hfl
        exact Or.inl (Or.inr (Or.inr hfl))
      · exact Or.inr hheld
  · exact h

/-- A step of something else than the URBs. -/
theorem same (h : UnlinkInv s) (hlog : s'.log = s.log) (hid : s'.nextId = s.nextId)
    (hlive : s'.live = s.live) (hun : s'.unlinking = s.unlinking) (hrx : s'.rx = s.rx)
    (hctx : s'.ctx = s.ctx) (hfl : s'.inFlight = s.inFlight) (hplace : s'.place = s.place) :
    UnlinkInv s' := by
  refine h.frame hlog hid (fun id hl => hlive ▸ hl) hun fun id ho => ?_
  simpa only [Open, Handled, hrx, hctx, hfl, hplace] using ho

theorem changeState (h : UnlinkInv s) (state : Ptp.FilterState) (serving : Bool) :
    UnlinkInv (s.changeState state serving) := h.same rfl rfl rfl rfl rfl rfl rfl rfl

theorem setTx (h : UnlinkInv s) (pc : TxPc) : UnlinkInv (s.setTx pc) :=
  h.same rfl rfl rfl rfl rfl rfl rfl rfl

theorem setShut (h : UnlinkInv s) (pc : ShutPc) : UnlinkInv (s.setShut pc) :=
  h.same rfl rfl rfl rfl rfl rfl rfl rfl

/-- A record leaves its list. -/
theorem listDel (h : UnlinkInv s) (id : ℕ) : UnlinkInv (s.listDel id) := by
  refine h.frame rfl rfl (fun _ hl => hl) rfl fun j ho => ?_
  rcases ho with hhandled | hheld
  · exact Or.inl hhandled
  · by_cases hj : j = id
    · subst hj
      simp [Device.listDel] at hheld
    · simp only [Device.listDel, Function.update_of_ne hj] at hheld
      exact Or.inr hheld

theorem urbDone (h : UnlinkInv s) (id : ℕ) : UnlinkInv (s.urbDone id) := by
  refine h.frame rfl rfl (fun _ hl => hl) rfl fun j ho => ?_
  rcases ho with (hrx | hctx | hfl) | hheld
  · exact Or.inl (Or.inl hrx)
  · exact Or.inl (Or.inr (Or.inl hctx))
  · by_cases hj : j = id
    · subst hj
      simp [Device.urbDone] at hfl
    · simp only [Device.urbDone, Function.update_of_ne hj] at hfl
      exact Or.inl (Or.inr (Or.inr hfl))
  · exact Or.inr hheld

/-- A record is freed. -/
theorem freed (h : UnlinkInv s) (id : ℕ) : UnlinkInv (s.stubFreePrivAndUrb id) := by
  have hdel := h.listDel id
  refine hdel.frame rfl rfl (fun j hl => ?_) rfl fun _ ho => ho
  by_cases hj : j = id
  · subst hj
    simp [stubFreePrivAndUrb] at hl
  · simp only [stubFreePrivAndUrb, Function.update_of_ne hj] at hl
    exact hl

/-- A new entry of the history. -/
theorem note (h : UnlinkInv s) {e : Event} (hsub : ∀ id q, e ≠ .cmdSubmit id q)
    (hun : ∀ id, e = .unlinked id → id < s.nextId ∧ s.unlinking id = true)
    (hset : s.Settled s.log e) (horder : NotAfterUnlink s.log e) : UnlinkInv (s.note e) := by
  refine ⟨h.live_lt, fun id q hq => ?_, fun id hu => ?_, ?_, ?_⟩
  · rcases List.mem_append.mp hq with hq | hq
    · exact h.submit_lt id q hq
    · exact absurd (List.mem_singleton.mp hq).symm (hsub id q)
  · rcases List.mem_append.mp hu with hu | hu
    · exact h.unlinked id hu
    · exact hun id (List.mem_singleton.mp hu).symm
  · exact historical_concat.mpr ⟨h.settled, hset⟩
  · exact historical_concat.mpr ⟨h.order, horder⟩

/-- **An open URB that is not being unlinked may be answered.** -/
theorem notAfterUnlink (h : UnlinkInv s) {id : ℕ} (hopen : s.Open id)
    (hun : s.unlinking id = false) : NotAfterUnlink s.log (.complete id) := by
  rintro j hj
  obtain rfl : id = j := by simpa using hj
  refine ⟨fun hmem => ?_, fun q t before after hlog hsub => ?_⟩
  · simp [(h.unlinked id hmem).2] at hun
  · rcases h.settled before _ after hlog q t rfl id hsub with hun' | hno
    · simp [hun'] at hun
    · exact hno hopen

theorem stubComplete (h : UnlinkInv s) {id : ℕ} {status : ℤ} {alloc : Bool} (hid : s.Handled id)
    (hs : s.stubComplete id status alloc = some s') : UnlinkInv s' := by
  rcases stubComplete_eq_some hs with ⟨-, rfl⟩ | ⟨⟨hlive, -⟩, ⟨hun, rfl⟩ | ⟨hun, rfl⟩⟩
  · exact h
  · unfold stubEnqueueRetUnlink
    split
    · refine (h.freed id).note (fun _ _ he => (by cases he)) (fun j hj => ?_)
        (fun _ _ he => (by cases he)) fun _ he => (by cases he)
      obtain rfl : id = j := by simpa using hj
      exact ⟨h.live_lt id hlive, hun⟩
    · exact h.freed id
  · have hlink : UnlinkInv (s.link id .privTx) := h.link fun hp => (by simp at hp)
    exact hlink.note (fun _ _ he => (by cases he)) (fun _ he => (by cases he))
      (fun _ _ he => (by cases he)) (hlink.notAfterUnlink (Or.inl hid) hun)

/-- The functions under way are not moved on by `stub_complete`. -/
theorem handled_of_stubComplete {id j : ℕ} {status : ℤ} {alloc : Bool}
    (hs : s.stubComplete id status alloc = some s') (h : s.Handled j) : s'.Handled j := by
  rcases stubComplete_eq_some hs with ⟨-, rfl⟩ | ⟨-, ⟨-, rfl⟩ | ⟨-, rfl⟩⟩
  · exact h
  · unfold stubEnqueueRetUnlink
    split <;> exact h
  · exact h

/-- The URB that `ptp_consume_` serves is open. -/
theorem open_served {priv : Option ℕ} {u : ℕ} (hpriv : ∀ v ∈ priv.toList, s.Open v)
    (hu : priv.or (s.first .clientQueue) = some u) : s.Open u := by
  rcases served_cases hu with rfl | ⟨-, hplace⟩
  · exact hpriv u (by simp)
  · exact Or.inr (Or.inl hplace)

/-! ### The steps -/

theorem stubPrivAlloc (h : UnlinkInv s) (q : BitVec 32) (kind : UrbKind) :
    UnlinkInv (s.stubPrivAlloc q kind) := by
  -- no record of the history has the number of the new one
  have hopen : ∀ id, id ≠ s.nextId → (s.stubPrivAlloc q kind).Open id → s.Open id := by
    intro id hne ho
    rcases ho with (hrx | hctx | hfl) | hheld
    · exact absurd (List.mem_singleton.mp hrx) hne
    · exact Or.inl (Or.inr (Or.inl hctx))
    · exact Or.inl (Or.inr (Or.inr hfl))
    · simp only [Device.stubPrivAlloc, Function.update_of_ne hne] at hheld
      exact Or.inr hheld
  refine ⟨fun id hl => ?_, fun id q' hq => ?_, fun id hu => ?_, ?_, ?_⟩
  · by_cases hne : id = s.nextId
    · exact hne ▸ Nat.lt_succ_self _
    · simp only [Device.stubPrivAlloc, Function.update_of_ne hne] at hl
      exact Nat.lt_succ_of_lt (h.live_lt id hl)
  · rcases List.mem_append.mp hq with hq | hq
    · exact Nat.lt_succ_of_lt (h.submit_lt id q' hq)
    · obtain ⟨rfl, -⟩ : id = s.nextId ∧ q' = q := by simpa using hq
      exact Nat.lt_succ_self _
  · obtain ⟨hlt, hun⟩ := h.unlinked id (by simpa [Device.stubPrivAlloc] using hu)
    refine ⟨Nat.lt_succ_of_lt hlt, ?_⟩
    simpa only [Device.stubPrivAlloc, Function.update_of_ne (Nat.ne_of_lt hlt)] using hun
  · refine historical_concat.mpr ⟨?_, fun _ _ he => (by cases he)⟩
    intro pre e post hlog q' t he id hsub
    have hlt : id < s.nextId := h.submit_lt id t (by rw [hlog]; exact List.mem_append_left _ hsub)
    have hne : id ≠ s.nextId := Nat.ne_of_lt hlt
    rcases h.settled pre e post hlog q' t he id hsub with hun | hno
    · exact Or.inl (by simpa only [Device.stubPrivAlloc, Function.update_of_ne hne] using hun)
    · exact Or.inr fun ho => hno (hopen id hne ho)
  · exact historical_concat.mpr ⟨h.order, fun _ he => (by cases he)⟩

/-- The one step that needs the condition. -/
theorem stubRecvCmdUnlink (h : UnlinkInv s) {q t : BitVec 32} {alloc : Bool}
    (hok : s.UnlinkInOrder (.rxUnlink q t alloc))
    (hs : s.stubRecvCmdUnlink q t alloc = some s') : UnlinkInv s' := by
  unfold Device.stubRecvCmdUnlink at hs
  split at hs
  · cases hs
  split at hs
  next id hid =>
    cases hs
    have hmono : ∀ j, s.unlinking j = true → (s.markUnlinking q id).unlinking j = true := by
      intro j hj
      by_cases hji : j = id
      · simp [markUnlinking, hji]
      · simpa only [markUnlinking, Function.update_of_ne hji] using hj
    have hopen : ∀ j, (s.markUnlinking q id).Open j → s.Open j := by
      rintro j ((hrx | hrest) | hheld)
      · cases hrx
      · exact Or.inl (Or.inr hrest)
      · exact Or.inr hheld
    refine ⟨h.live_lt, h.submit_lt, fun j hj => ⟨(h.unlinked j hj).1, hmono j (h.unlinked j hj).2⟩,
      h.settled.imp fun pre e hp q' t' he j hsub => ?_, h.order⟩
    exact (hp q' t' he j hsub).imp (hmono j) fun hno ho => hno (hopen j ho)
  next hnone =>
    cases hs
    unfold stubEnqueueRetUnlink
    split
    · refine h.note (fun _ _ he => (by cases he)) (fun _ he => (by cases he))
        (fun q' t' he id hsub => ?_) fun _ he => (by cases he)
      obtain ⟨rfl, rfl⟩ : q = q' ∧ t = t' := by simpa using he
      exact hok hnone id (h.submit_lt id t hsub) hsub
    · exact h

theorem rxConsume (h : UnlinkInv s) {copy : Copy} (hs : s.rxConsume copy = some s') :
    UnlinkInv s' := by
  unfold Device.rxConsume at hs
  split at hs
  next id priv pending ret hrx =>
    have hid : s.Open id := Or.inl (Or.inl (by rw [hrx]; exact List.mem_cons_self))
    have hpriv : ∀ v ∈ priv.toList, s.Open v := fun v hv =>
      Or.inl (Or.inl (by rw [hrx]; exact List.mem_cons_of_mem _ hv))
    split at hs
    · cases hs
    split at hs
    next s₁ pc hpass =>
      cases hs
      obtain ⟨u, hu, hcase⟩ := ptpConsume_goOn hpass
      have hopen : ∀ j ∈ [id, u], s.Open j := by
        simp only [List.mem_cons, List.not_mem_nil, or_false, forall_eq_or_imp, forall_eq]
        exact ⟨hid, open_served hpriv hu⟩
      rcases hcase with ⟨rfl, rfl⟩ | ⟨rfl, serving, rfl⟩
      · exact h.setRx hopen
      · -- the thread turns to the URB before it leaves `client_queue`
        have hset : UnlinkInv (s.setRx (.consume id (.complete u (pending || priv.isNone)))) :=
          h.setRx hopen
        split
        · exact (hset.link fun hp => (by simp at hp)).changeState s.state serving
        · exact hset.changeState s.state serving
    next s₁ ret' hpass =>
      cases hs
      have hpc : ∀ j ∈ (if ret' then RxPc.idle else RxPc.submitUrb id).refs, s.Open j := by
        cases ret' with
        | true => exact fun j hj => (by cases hj)
        | false => exact fun j hj => List.mem_singleton.mp hj ▸ hid
      rcases ptpConsume_return hpass with ⟨-, serving, rfl⟩ | ⟨u, hu, ⟨-, rfl⟩ | ⟨-, -, rfl⟩⟩
      · exact (h.setRx hpc).changeState s.state serving
      · split
        · exact h.setRx hpc
        next hpending =>
          -- the URB stays open on `client_queue`
          have hlink : UnlinkInv (s.link u .clientQueue) := h.link fun _ => open_served hpriv hu
          refine hlink.setRx fun j hj => ?_
          cases ret' with
          | true => cases hj
          | false =>
            obtain rfl := List.mem_singleton.mp hj
            refine Or.inl (Or.inl ?_)
            rw [show (s.link u .clientQueue).rx = s.rx from rfl, hrx]
            exact List.mem_cons_self
      · exact (h.setRx hpc).changeState .bypassed s.frameServing
  · cases hs

theorem ctxConsume (h : UnlinkInv s) {i : Fin n} {copy : Copy}
    (hs : s.ctxConsume i copy = some s') : UnlinkInv s' := by
  unfold Device.ctxConsume at hs
  split at hs
  next priv pending ret hctx =>
    have hpriv : ∀ v ∈ priv.toList, s.Open v := fun v hv =>
      Or.inl (Or.inr (Or.inl ⟨i, by rw [hctx]; exact hv⟩))
    split at hs
    · cases hs
    split at hs
    next s₁ pc hpass =>
      cases hs
      obtain ⟨u, hu, hcase⟩ := ptpConsume_goOn hpass
      have hopen : ∀ j ∈ [u], s.Open j := fun j hj =>
        List.mem_singleton.mp hj ▸ open_served hpriv hu
      rcases hcase with ⟨rfl, rfl⟩ | ⟨rfl, serving, rfl⟩
      · exact h.setCtx hopen
      · have hset : UnlinkInv (s.setCtx i (.consume (.complete u (pending || priv.isNone)))) :=
          h.setCtx hopen
        split
        · exact (hset.link fun hp => (by simp at hp)).changeState s.state serving
        · exact hset.changeState s.state serving
    next s₁ ret' hpass =>
      cases hs
      have hidle : ∀ {s : Device n}, UnlinkInv s → UnlinkInv (s.setCtx i .idle) := fun h =>
        h.setCtx fun j hj => (by cases hj)
      rcases ptpConsume_return hpass with ⟨-, serving, rfl⟩ | ⟨u, hu, ⟨-, rfl⟩ | ⟨-, -, rfl⟩⟩
      · exact hidle (h.changeState s.state serving)
      · split
        · exact hidle h
        · exact hidle (h.link fun _ => open_served hpriv hu)
      · exact hidle (h.changeState .bypassed s.frameServing)
  · cases hs

/-- **Every step that meets the condition keeps the invariant.** -/
theorem step (h : UnlinkInv s) {a : Act n} (hok : s.UnlinkInOrder a) (hs : s.step a = some s') :
    UnlinkInv s' := by
  cases a with
  | rxSubmit seqnum kind alloc =>
    simp only [Device.step, stubRecvCmdSubmit] at hs
    split at hs
    · cases hs
    split at hs
    · cases hs
      exact h.stubPrivAlloc seqnum kind
    · cases hs
      exact h
  | rxBuild ok =>
    simp only [Device.step, stubBuildUrb] at hs
    split at hs
    next id hrx =>
      cases hs
      refine h.setRx fun j hj => Or.inl (Or.inl ?_)
      rw [hrx]
      cases ok with
      | true => exact hj
      | false => cases hj
    · cases hs
  | rxOnRx parsed =>
    obtain ⟨id, hrx, state, serving, hcase⟩ := ptpOnRx_eq_some hs
    have hid : s.Open id := Or.inl (Or.inl (by rw [hrx]; exact List.mem_singleton_self id))
    have hone : ∀ j ∈ [id], s.Open j := fun j hj => List.mem_singleton.mp hj ▸ hid
    rcases hcase with rfl | ⟨start, rfl⟩ | rfl | rfl
    · exact (h.changeState state serving).setRx hone
    · exact (h.changeState state serving).setRx hone
    · refine h.setRx fun j hj => ?_
      have hj : j = id := by simpa [RxPc.refs, ConsumePc.refs] using hj
      exact hj ▸ hid
    · exact (h.link fun _ => hid).setRx fun j hj => (by cases hj)
  | rxPreviewComplete alloc =>
    simp only [Device.step, previewComplete] at hs
    split at hs
    next id start hrx =>
      obtain ⟨s₁, hcomp, rfl⟩ := Option.map_eq_some_iff.mp hs
      have hid : s.Handled id := Or.inl (by rw [hrx]; exact List.mem_singleton_self id)
      refine (h.stubComplete hid hcomp).setRx fun j hj => Or.inl (handled_of_stubComplete hcomp ?_)
      cases start with
      | true => exact List.mem_singleton.mp hj ▸ hid
      | false => cases hj
    · cases hs
  | rxPreviewRest ok =>
    simp only [Device.step, previewRest] at hs
    split at hs
    next id hrx =>
      split at hs
      · cases hs
        exact h.setRx fun j hj => (by cases hj)
      · cases hs
        refine (h.changeState .bypassed s.frameServing).setRx fun j hj => Or.inl (Or.inl ?_)
        rw [show (s.changeState .bypassed s.frameServing).rx = s.rx from rfl, hrx]
        exact hj
    · cases hs
  | rxConsume copy => exact h.rxConsume hs
  | rxConsumeComplete alloc =>
    simp only [Device.step, Device.rxConsumeComplete] at hs
    split at hs
    next id u pending hrx =>
      obtain ⟨s₁, hcomp, rfl⟩ := Option.map_eq_some_iff.mp hs
      have hu : s.Handled u := by
        refine Or.inl ?_
        rw [hrx]
        exact List.mem_cons_of_mem _ (List.mem_singleton_self u)
      refine (h.stubComplete hu hcomp).setRx fun j hj => Or.inl (handled_of_stubComplete hcomp ?_)
      refine Or.inl ?_
      rw [hrx, List.mem_singleton.mp hj]
      exact List.mem_cons_self
    · cases hs
  | rxUrb ok =>
    simp only [Device.step, stubSubmitUrb] at hs
    split at hs
    next id hrx =>
      cases hs
      have hid : s.Open id := Or.inl (Or.inl (by rw [hrx]; exact List.mem_singleton_self id))
      exact (h.usbSubmitUrb hid).setRx fun j hj => (by cases hj)
    · cases hs
  | rxUnlink seqnum target alloc => exact h.stubRecvCmdUnlink hok hs
  | rxUnlinkUrb =>
    simp only [Device.step, Device.usbUnlinkUrb] at hs
    split at hs
    · cases hs
      exact h.setRx fun j hj => (by cases hj)
    · cases hs
  | changeState state serving =>
    cases hs
    exact h.changeState state serving
  | produce i =>
    obtain ⟨-, id, state, hplace, rfl⟩ := ptpProduce_eq_some hs
    -- the context turns to the URB before it leaves `request_queue`
    have hset : UnlinkInv (s.setCtx i (.submit id)) := h.setCtx fun j hj =>
      List.mem_singleton.mp hj ▸ Or.inr (Or.inr hplace)
    exact (hset.link fun hp => (by simp at hp)).changeState state s.frameServing
  | ctxStart i =>
    obtain ⟨-, hs⟩ := Option.ite_none_right_eq_some.mp hs
    cases hs
    exact h.setCtx fun j hj => (by cases hj)
  | ctxConsume i copy => exact h.ctxConsume hs
  | ctxConsumeComplete i alloc =>
    simp only [Device.step, Device.ctxConsumeComplete] at hs
    split at hs
    next u pending hctx =>
      obtain ⟨s₁, hcomp, rfl⟩ := Option.map_eq_some_iff.mp hs
      have hu : s.Handled u := Or.inr (Or.inl ⟨i, by rw [hctx]; exact List.mem_singleton_self u⟩)
      exact (h.stubComplete hu hcomp).setCtx fun j hj => (by cases hj)
    · cases hs
  | ctxSubmit i ok =>
    simp only [Device.step, Device.ctxSubmit] at hs
    split at hs
    next id hctx =>
      cases hs
      have hid : s.Open id :=
        Or.inl (Or.inr (Or.inl ⟨i, by rw [hctx]; exact List.mem_singleton_self id⟩))
      exact (h.usbSubmitUrb hid).setCtx fun j hj => (by cases hj)
    · cases hs
  | complete id status alloc =>
    obtain ⟨hfl, hs⟩ := Option.ite_none_right_eq_some.mp hs
    obtain ⟨s₁, hcomp, rfl⟩ := Option.map_eq_some_iff.mp hs
    exact (h.stubComplete (Or.inr (Or.inr hfl)) hcomp).urbDone id
  | txDequeue =>
    simp only [Device.step, dequeueFromPrivTx] at hs
    split at hs
    · cases hs
    split at hs
    · cases hs
      exact h.setTx _
    · cases hs
      exact (h.link fun hp => (by simp at hp)).setTx _
  | txSend ok =>
    simp only [Device.step, sendRetSubmit] at hs
    split at hs
    next id htx =>
      split at hs
      · cases hs
        exact (h.note (fun _ _ he => (by cases he)) (fun _ he => (by cases he))
          (fun _ _ he => (by cases he)) fun _ he => (by cases he)).setTx _
      · cases hs
        exact h.setTx _
    · cases hs
  | txFree =>
    simp only [Device.step, freePrivs] at hs
    split at hs
    · cases hs
    · cases hs
      refine h.frame rfl rfl (fun id hl => ?_) rfl fun id ho => ?_
      · simp only at hl
        split at hl
        · cases hl
        · exact hl
      · refine ho.imp_right fun hheld => ?_
        simp only at hheld
        split at hheld
        · simp at hheld
        · exact hheld
  | cleanupPop =>
    simp only [Device.step, cleanupPop] at hs
    split at hs
    · cases hs
    split at hs
    · cases hs
      exact (h.listDel _).setShut _
    · cases hs
      exact h.setShut _
  | killed =>
    simp only [Device.step, Device.killed] at hs
    split at hs
    next id hshut =>
      obtain ⟨-, hs⟩ := Option.ite_none_right_eq_some.mp hs
      cases hs
      refine h.frame rfl rfl (fun j hl => ?_) rfl fun _ ho => ho
      by_cases hj : j = id
      · subst hj
        simp at hl
      · simpa only [Function.update_of_ne hj] using hl
    · cases hs
  | storeSockfd =>
    obtain ⟨-, hs⟩ := Option.ite_none_right_eq_some.mp hs
    cases hs
    refine h.frame rfl rfl (fun _ hl => hl) rfl fun id ho => ?_
    rcases ho with (hrx | hrest) | hheld
    · cases hrx
    · exact Or.inl (Or.inr hrest)
    · exact Or.inr hheld
  | rxStop =>
    obtain ⟨-, hs⟩ := Option.ite_none_right_eq_some.mp hs
    cases hs
    exact h.setRx fun j hj => (by cases hj)
  | txLoop | txStop =>
    obtain ⟨-, hs⟩ := Option.ite_none_right_eq_some.mp hs
    cases hs
    exact h.setTx _
  | shutdown | closeSocket =>
    obtain ⟨-, hs⟩ := Option.ite_none_right_eq_some.mp hs
    cases hs
    exact h.setShut _

end UnlinkInv

theorem unlinkInv_connected (n : ℕ) : UnlinkInv (connected n) where
  live_lt _ h := by simp [connected] at h
  submit_lt _ _ h := by simp [connected] at h
  unlinked _ h := by simp [connected] at h
  settled := historical_nil
  order := historical_nil

/-- **No RET_SUBMIT follows a RET_UNLINK for the same URB**, in every run in which a CMD_UNLINK
that finds no record in `priv_init` does not concern a URB that may yet be completed. -/
theorem no_reply_after_unlink {n : ℕ} {s : Device n}
    (h : (filteredStub n).ReachableWhere Device.UnlinkInOrder s) :
    Historical NotAfterUnlink s.log :=
  have hinv : UnlinkInv s := h.invariant (unlinkInv_connected n) fun _ _ _ hs hok hstep =>
    UnlinkInv.step hs hok hstep
  hinv.order

/-- A preview command starts the stream, a read URB waits on `client_queue` for the first frame
and is served, and its CMD_UNLINK comes after its RET_SUBMIT was queued. -/
def unlinkAfterReply : List (Act 1) :=
  [.rxSubmit 1 .bulkOut true, .rxBuild true, .rxOnRx .preview, .rxPreviewComplete true,
    .rxPreviewRest true, .rxSubmit 2 .bulkIn true, .rxBuild true, .rxOnRx .other, .rxConsume .stop,
    .ctxStart 0, .ctxConsume 0 (.full false), .ctxConsumeComplete 0 true, .ctxConsume 0 .stop,
    .rxUnlink 3 2 true]

theorem no_reply_after_unlink_unlinkAfterReply :
    ∃ s, (filteredStub 1).runWhere Device.UnlinkInOrder (connected 1) unlinkAfterReply = some s ∧
      Historical NotAfterUnlink s.log :=
  Machine.exists_runWhere (m := filteredStub 1) (by decide) fun _ h => no_reply_after_unlink h

/-- The CMD_UNLINK comes while the read URB is on `client_queue`. -/
def unlinkWhileHeld : List (Act 1) :=
  [.rxSubmit 1 .bulkOut true, .rxBuild true, .rxOnRx .preview, .rxPreviewComplete true,
    .rxPreviewRest true, .rxSubmit 2 .bulkIn true, .rxBuild true, .rxOnRx .other, .rxConsume .stop,
    .rxUnlink 3 2 true, .ctxStart 0, .ctxConsume 0 (.full false), .ctxConsumeComplete 0 true]

/-- **A URB that is unlinked while the filter holds it gets a RET_UNLINK, and a RET_SUBMIT after
it.** -/
theorem held_urb_replied_twice :
    ∃ s, (filteredStub 1).Reachable s ∧ ¬ Historical NotAfterUnlink s.log := by
  obtain ⟨s, hs, hlog⟩ := Machine.exists_reachable_of_any (m := filteredStub 1) unlinkWhileHeld
    (fun s => s.log = [.cmdSubmit 0 1, .complete 0, .cmdSubmit 1 2, .notFound 3 2, .complete 1])
    (by decide)
  refine ⟨s, hs, fun horder => ?_⟩
  have hlog : s.log = [.cmdSubmit 0 1, .complete 0, .cmdSubmit 1 2, .notFound 3 2] ++
      Event.complete 1 :: [] := of_decide_eq_true hlog
  exact (horder _ _ _ hlog 1 rfl).2 3 2 [.cmdSubmit 0 1, .complete 0, .cmdSubmit 1 2] [] rfl
    (by simp)

end Usbip.Stub.Filtered
