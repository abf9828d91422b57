import Mathlib.Data.List.Perm.Basic
import Mathlib.Data.List.Perm.Subperm
import Usbip.Ptp.Ledger

/-!
# What the client reads

The bytes copied to the client's read URBs, taken in the order in which the URBs arrived, are the
bytes the camera delivered for the frames that were not dropped, as far as they are not in the
buffer. This needs that a pass of `ptp_consume_` copies to the URB whose turn it is, which the
source does not see to: `System.InTurn` says when it does.
-/

namespace Usbip.Ptp

open RecordRing

/-! ### The calls of `ptp_consume_` -/

/-- The call of `ptp_consume_` that is suspended. -/
def Suspended.consumer : Suspended → Option Consumer
  | .again c => some c
  | .completed c => some c
  | .onTx _ => none

/-- A URB that a call of `ptp_consume_` has from its caller is the newest one and waits nowhere
else, and there is one receive thread. -/
structure Readers (arrivals : ℕ) (reads : List ℕ) (consumers : List Consumer) : Prop where
  newest : ∀ c ∈ consumers, ∀ u, c.priv = some u → c.pending = false →
    c.rx = true ∧ u + 1 = arrivals ∧ u ∉ reads
  single : consumers.countP (·.rx) ≤ 1

namespace Readers

variable {arrivals : ℕ} {reads reads' : List ℕ} {cs ds : List Consumer} {c d : Consumer}

theorem subperm (h : Readers arrivals reads cs) (hs : List.Subperm ds cs) :
    Readers arrivals reads ds :=
  ⟨fun c hc => h.newest c (hs.subset hc), (hs.countP_le _).trans h.single⟩

theorem mono (h : Readers arrivals reads cs) (hs : reads' ⊆ reads) : Readers arrivals reads' cs :=
  ⟨fun c hc u hu hp =>
    let ⟨hrx, hnew, hnot⟩ := h.newest c hc u hu hp
    ⟨hrx, hnew, fun hmem => hnot (hs hmem)⟩, h.single⟩

/-- A call that has no URB from its caller. -/
theorem cons_other (h : Readers arrivals reads cs) (hrx : c.rx = false) (hpriv : c.priv = none) :
    Readers arrivals reads (c :: cs) := by
  refine ⟨fun d hd u hu hp => ?_, ?_⟩
  · rcases List.mem_cons.mp hd with rfl | hd
    · rw [hpriv] at hu
      exact absurd hu (by simp)
    · exact h.newest d hd u hu hp
  · rw [List.countP_cons, hrx]
    exact h.single

/-- The call goes on with the same URB from its caller, if it has one. -/
theorem replace (h : Readers arrivals reads (c :: cs)) (hrx : d.rx = c.rx)
    (hpriv : ∀ u, d.priv = some u → d.pending = false → c.priv = some u ∧ c.pending = false) :
    Readers arrivals reads (d :: cs) := by
  refine ⟨fun e he u hu hp => ?_, ?_⟩
  · rcases List.mem_cons.mp he with rfl | he
    · obtain ⟨hu', hp'⟩ := hpriv u hu hp
      rw [hrx]
      exact h.newest c List.mem_cons_self u hu' hp'
    · exact h.newest e (List.mem_cons_of_mem c he) u hu hp
  · rw [List.countP_cons, hrx, ← List.countP_cons]
    exact h.single

/-- Beside a call of the receive thread no other one has a URB from its caller. -/
theorem queue {u : ℕ} (h : Readers arrivals reads (c :: cs)) (hu : c.priv = some u)
    (hp : c.pending = false) : Readers arrivals (reads ++ [u]) cs := by
  have hrx := (h.newest c List.mem_cons_self u hu hp).1
  have hone := h.single
  have hzero : cs.countP (·.rx) = 0 := by simpa [List.countP_cons, hrx] using hone
  have hnone : ∀ d ∈ cs, ¬ d.rx = true := List.countP_eq_zero.mp hzero
  have hle : cs.countP (·.rx) ≤ 1 := hzero.trans_le (Nat.zero_le 1)
  refine ⟨fun d hd v hv hpv => ?_, hle⟩
  exact absurd (h.newest d (List.mem_cons_of_mem c hd) v hv hpv).1 (hnone d hd)

end Readers

namespace System

variable {cfg : Config} {s : System}

/-- The suspended calls of `ptp_consume_`. -/
def others (s : System) : List Consumer := s.suspended.filterMap Suspended.consumer

/-- The calls of `ptp_consume_` under way. -/
def consumers (s : System) : List Consumer := s.holder.toList ++ s.others

theorem others_append (x : Suspended) :
    others { s with suspended := s.suspended ++ [x] } = s.others ++ x.consumer.toList := by
  unfold others
  rw [List.filterMap_append]
  cases hx : x.consumer <;> simp [hx]

theorem consumers_produced (p : Filter.Produced) (c : Consumer) :
    (s.produced p c).consumers.Perm (c :: s.others) := by
  unfold produced
  split
  · have happ := others_append (s := s) (.again c)
    change (others { s with suspended := s.suspended ++ [.again c] }).Perm _
    rw [happ]
    exact List.perm_append_singleton c s.others
  · exact List.Perm.refl _

theorem consumers_eq_cons {c : Consumer} (h : s.holder = some c) :
    s.consumers = c :: s.others := by
  unfold consumers
  rw [h]
  rfl

theorem others_eraseIdx {i : ℕ} {x : Suspended} (hx : s.suspended[i]? = some x) :
    (x.consumer.toList ++ others { s with suspended := s.suspended.eraseIdx i }).Perm
      s.others := by
  obtain ⟨hi, rfl⟩ := List.getElem?_eq_some_iff.mp hx
  have hperm := List.getElem_cons_eraseIdx_perm hi
  have hmap := hperm.filterMap Suspended.consumer
  rw [List.filterMap_cons] at hmap
  refine List.Perm.trans ?_ hmap
  cases Suspended.consumer _ <;> exact List.Perm.refl _

/-! ### The order of the URBs -/

/-- What has been copied to the client's read URBs, in the order in which they arrived. -/
def served (s : System) : List Byte := (List.range s.arrivals).flatMap s.copied

/-- Bytes added to a URB behind which none has any are the next ones. -/
theorem flatMap_range_update {copied : ℕ → List Byte} {n u : ℕ} (data : List Byte) (hu : u < n)
    (hlater : ∀ v, u < v → copied v = []) :
    (List.range n).flatMap (Function.update copied u (copied u ++ data)) =
      (List.range n).flatMap copied ++ data := by
  induction n with
  | zero => exact absurd hu (Nat.not_lt_zero u)
  | succ n ih =>
    rw [List.range_succ, List.flatMap_append, List.flatMap_append, List.flatMap_singleton,
      List.flatMap_singleton]
    rcases Nat.lt_succ_iff_lt_or_eq.mp hu with hlt | rfl
    · rw [ih hlt, Function.update_of_ne hlt.ne', hlater n hlt, List.append_nil, List.append_nil]
    · have hsame : (List.range u).flatMap (Function.update copied u (copied u ++ data)) =
          (List.range u).flatMap copied := by
        refine List.flatMap_congr fun v hv => ?_
        exact Function.update_of_ne (List.mem_range.mp hv).ne _ _
      rw [hsame, Function.update_self, List.append_assoc]

/-- The read URBs that wait are in the order of their arrival, and none that has come later than
one of them has been given any bytes. -/
structure Ordered (s : System) : Prop where
  sorted : s.filter.clientQueue.Pairwise (· < ·)
  lt : ∀ u ∈ s.filter.clientQueue, u < s.arrivals
  behind : ∀ u, s.copied u ≠ [] → ∀ v ∈ s.filter.clientQueue, u ≤ v
  fresh : ∀ u, s.arrivals ≤ u → s.copied u = []
  readers : Readers s.arrivals s.filter.clientQueue s.consumers

/-- The URBs are served in order, and with the next bytes of the frames. -/
structure InOrder (s : System) : Prop extends Ordered s where
  account : s.filter.Accounted s.served s.filter.clientQueue

namespace InOrder

variable (h : s.InOrder)
include h

/-- A step of the filter that leaves the reads alone. -/
theorem of_filter {f : Filter} (hf : f.Accounted s.served s.filter.clientQueue) :
    InOrder { s with filter := f } := by
  have hreads := hf.reads
  refine ⟨⟨?_, ?_, ?_, h.fresh, ?_⟩, ?_⟩
  · rw [hreads]
    exact h.sorted
  · rw [hreads]
    exact h.lt
  · rw [hreads]
    exact h.behind
  · rw [hreads]
    exact h.readers
  · rw [hreads]
    exact hf

/-- Calls of `ptp_consume_` come and go. -/
theorem of_consumers (holder : Option Consumer) (suspended : List Suspended)
    (hc : Readers s.arrivals s.filter.clientQueue
      (consumers { s with holder := holder, suspended := suspended })) :
    InOrder { s with holder := holder, suspended := suspended } :=
  ⟨⟨h.sorted, h.lt, h.behind, h.fresh, hc⟩, h.account⟩

theorem produced {p : Filter.Produced} (hp : p.filter.Accounted s.served s.filter.clientQueue)
    {c : Consumer} (hc : Readers s.arrivals s.filter.clientQueue (c :: s.others)) :
    (s.produced p c).InOrder := by
  have hperm := consumers_produced (s := s) p c
  have hreaders := hc.subperm hperm.subperm
  have hf := h.of_filter hp
  rw [← hp.reads] at hreaders
  unfold System.produced at hreaders ⊢
  split at hreaders
  · rename_i hrel
    rw [if_pos hrel]
    exact hf.of_consumers _ _ hreaders
  · rename_i hrel
    rw [if_neg hrel]
    exact hf.of_consumers _ _ hreaders

/-- A pass has copied to the URB `u`. -/
theorem copy {f : Filter} {data : List Byte} {u : ℕ} (hu : u < s.arrivals)
    (hfirst : ∀ v ∈ s.filter.clientQueue, u ≤ v) (hlast : ∀ v, u < v → s.copied v = [])
    (hf : f.Accounted (s.served ++ data) s.filter.clientQueue) :
    InOrder { s with
      filter := f, copied := Function.update s.copied u (s.copied u ++ data) } := by
  have hreads := hf.reads
  have hserved : System.served { s with
      filter := f, copied := Function.update s.copied u (s.copied u ++ data) } =
      s.served ++ data := flatMap_range_update data hu hlast
  refine ⟨⟨?_, ?_, ?_, fun v hv => ?_, ?_⟩, ?_⟩
  · rw [hreads]
    exact h.sorted
  · rw [hreads]
    exact h.lt
  · intro w hw v hv
    rw [hreads] at hv
    by_cases heq : w = u
    · exact heq ▸ hfirst v hv
    · refine h.behind w ?_ v hv
      change Function.update s.copied u _ w ≠ [] at hw
      rwa [Function.update_of_ne heq] at hw
  · have hne : v ≠ u := (hu.trans_le hv).ne'
    change Function.update s.copied u _ v = []
    rw [Function.update_of_ne hne]
    exact h.fresh v hv
  · rw [hreads]
    exact h.readers
  · rw [hserved, hreads]
    exact hf

/-- A call of `ptp_consume_` ends, and its URB from the caller waits. -/
theorem queueRead {c : Consumer} (hholder : s.holder = none) {u : ℕ} (hu : c.priv = some u)
    (hp : c.pending = false)
    (hc : Readers s.arrivals s.filter.clientQueue (c :: s.others)) :
    InOrder { s with filter := s.filter.queueRead u } := by
  obtain ⟨-, hnew, hnot⟩ := hc.newest c List.mem_cons_self u hu hp
  have hlt : ∀ v ∈ s.filter.clientQueue, v < u := by
    intro v hv
    have hne : v ≠ u := fun heq => hnot (heq ▸ hv)
    have := h.lt v hv
    omega
  have hacc := h.account
  refine ⟨⟨?_, ?_, ?_, h.fresh, ?_⟩, ⟨rfl, hacc.total, hacc.mark, hacc.mark₂, hacc.order,
    hacc.under⟩⟩
  · refine List.pairwise_append.mpr ⟨h.sorted, List.pairwise_singleton _ _, ?_⟩
    intro v hv w hw
    rw [List.mem_singleton.mp hw]
    exact hlt v hv
  · intro v hv
    rcases List.mem_append.mp hv with hv | hv
    · exact h.lt v hv
    · rw [List.mem_singleton.mp hv]
      exact hnew ▸ Nat.lt_succ_self u
  · intro w hw v hv
    rcases List.mem_append.mp hv with hv | hv
    · exact h.behind w hw v hv
    · rw [List.mem_singleton.mp hv]
      by_contra hlt
      have hle : s.arrivals ≤ w := by omega
      exact hw (h.fresh w hle)
  · have hreaders := hc.queue hu hp
    have heq : consumers { s with filter := s.filter.queueRead u } = s.others := by
      unfold consumers
      rw [hholder]
      rfl
    rw [heq]
    exact hreaders

/-- A read URB that waits is taken to be completed. -/
theorem unqueueRead (u : ℕ) : InOrder { s with filter := s.filter.unqueueRead u } := by
  have hacc := h.account
  have hsub : (s.filter.clientQueue.erase u).Sublist s.filter.clientQueue := List.erase_sublist
  exact ⟨⟨h.sorted.sublist hsub, fun v hv => h.lt v (hsub.subset hv),
    fun w hw v hv => h.behind w hw v (hsub.subset hv), h.fresh, h.readers.mono hsub.subset⟩,
    ⟨rfl, hacc.total, hacc.mark, hacc.mark₂, hacc.order, hacc.under⟩⟩

end InOrder

/-! ### Whose turn it is -/

end System

/-- A pass of `ptp_consume_` copies something to a URB that holds `actual` bytes and has room for
`room` more. -/
def Filter.Serves (f : Filter) (actual room : ℕ) : Prop :=
  0 < room ∧
    if f.frameLength = 0 then
      (bulkHeaderSize : ℤ) ≤ f.toEndCount ∧ actual = 0 ∧
        ¬ (f.frameTail ≠ f.frameRxTail2 ∧ f.frameTail = f.frameRxTail ∧ f.state = .drop)
    else 0 < f.toEndCount

instance (f : Filter) (actual room : ℕ) : Decidable (f.Serves actual room) :=
  inferInstanceAs (Decidable (_ ∧ ite _ _ _))

theorem Filter.serves_of_go {f f' : Filter} (hu : u32 f.toEndCount = f.toEndCount)
    {actual room : ℕ} (hgo : f.beginContainer actual = .go f')
    (hcopy : f'.copyLength room ≠ 0) : f.Serves actual room := by
  have hcount := Filter.toEndCount_of_go hgo
  rw [Filter.copyLength_eq (by rw [hcount, hu]), hcount] at hcopy
  unfold Filter.beginContainer at hgo
  unfold Filter.Serves
  by_cases h0 : f.frameLength = 0
  · rw [if_neg (not_not.mpr h0)] at hgo
    rw [if_pos h0]
    split_ifs at hgo with h1 h2 h3 h4
    rw [hu] at h2
    exact ⟨by omega, by omega, not_not.mp h3, h1⟩
  · rw [if_pos h0] at hgo
    rw [if_neg h0]
    obtain rfl : f = f' := by simpa using hgo
    constructor <;> omega

theorem Filter.Sound.serves {f f' : Filter} (h : f.Sound) (hf : f.state.Filtering)
    {actual room : ℕ} (hgo : f.beginContainer actual = .go f')
    (hcopy : f'.copyLength room ≠ 0) : f.Serves actual room :=
  serves_of_go ((h.headIn hf).u32_toEndCount h.size_le) hgo hcopy

namespace System

variable {cfg : Config} {s : System}

/-- The client's URBs are served in turn: a URB that a call of `ptp_consume_` has from its caller
gets bytes only while none waits on `client_queue`, one it has taken from there earlier only while
it is still the first, and a stream starts over with an empty buffer. -/
def InTurn (s : System) : Act → Prop
  | .preview => s.filter.state = .idle → s.filter.frameHead = s.filter.frameTail
  | .pass => ∀ c u, s.holder = some c → c.priv = some u → s.filter.state.Filtering →
      s.filter.Serves (s.copied u).length (s.size u - (s.copied u).length) →
      if c.pending then s.filter.clientQueue.head? = some u else s.filter.clientQueue = []
  | _ => True

instance (s : System) : (a : Act) → Decidable (s.InTurn a)
  | .preview => inferInstanceAs (Decidable (_ → _))
  | .pass => decidable_of_iff
      (∀ c ∈ s.holder, ∀ u ∈ c.priv, s.filter.state.Filtering →
        s.filter.Serves (s.copied u).length (s.size u - (s.copied u).length) →
        if c.pending then s.filter.clientQueue.head? = some u else s.filter.clientQueue = [])
      ⟨fun h c u hc hu => h c hc u hu, fun h c hc u hu => h c u hc hu⟩
  | .readUrb _ | .command | .newSession | .bypass | .timer | .cmdComplete _ _
  | .dataComplete _ _ _ _ | .onTxState | .onTxProduce | .resume _ =>
    inferInstanceAs (Decidable True)

namespace InOrder

/-- The URB whose turn it is has no later one before it. -/
theorem turn (h : s.InOrder) {c : Consumer}
    (hc : Readers s.arrivals s.filter.clientQueue (c :: s.others)) {u : ℕ}
    (hu : c.priv.or s.filter.clientQueue.head? = some u)
    (hturn : c.priv = some u →
      if c.pending then s.filter.clientQueue.head? = some u else s.filter.clientQueue = []) :
    u < s.arrivals ∧ (∀ v ∈ s.filter.clientQueue, u ≤ v) ∧
      ∀ v, u < v → s.copied v = [] := by
  have hhead : s.filter.clientQueue.head? = some u → u < s.arrivals ∧
      (∀ v ∈ s.filter.clientQueue, u ≤ v) ∧ ∀ v, u < v → s.copied v = [] := by
    intro hhead
    obtain ⟨rest, hq⟩ := List.head?_eq_some_iff.mp hhead
    have hmem : u ∈ s.filter.clientQueue := hq ▸ List.mem_cons_self
    refine ⟨h.lt u hmem, fun v hv => ?_, fun v hv => ?_⟩
    · have hsorted := h.sorted
      rw [hq] at hsorted hv
      rcases List.mem_cons.mp hv with rfl | hv
      · exact le_rfl
      · exact ((List.pairwise_cons.mp hsorted).1 v hv).le
    · by_contra hne
      exact absurd (h.behind v hne u hmem) (not_le.mpr hv)
  cases hpriv : c.priv with
  | none =>
    rw [hpriv, Option.none_or] at hu
    exact hhead hu
  | some w =>
    obtain rfl : w = u := by simpa [hpriv] using hu
    have hturn := hturn hpriv
    cases hpend : c.pending with
    | true =>
      rw [if_pos hpend] at hturn
      exact hhead hturn
    | false =>
      rw [if_neg (by simp [hpend])] at hturn
      have hnew := (hc.newest c List.mem_cons_self w hpriv hpend).2.1
      refine ⟨by omega, fun v hv => ?_, fun v hv => h.fresh v (by omega)⟩
      rw [hturn] at hv
      exact absurd hv (List.not_mem_nil)

/-- A call of `ptp_consume_` leaves its loop. -/
theorem leave (h : s.InOrder) {f : Filter} (hf : f.Accounted s.served s.filter.clientQueue)
    {c : Consumer} (hc : Readers s.arrivals s.filter.clientQueue (c :: s.others)) :
    (s.leave f c).InOrder := by
  have hreads := hf.reads
  have hothers : Readers s.arrivals f.clientQueue s.others := by
    rw [hreads]
    exact hc.subperm (List.sublist_cons_self c s.others).subperm
  have hdone : InOrder { s with filter := f, holder := none } :=
    (h.of_filter hf).of_consumers _ _ hothers
  unfold System.leave
  cases hp : c.priv with
  | none => exact hdone
  | some u =>
    cases hpend : c.pending with
    | true => exact hdone
    | false => exact hdone.queueRead rfl hp hpend (hreads.symm ▸ hc)

/-- A pass of `ptp_consume_` copies `n` bytes to the URB `u`. -/
theorem serve (h : s.InOrder) {f : Filter} {n u : ℕ} {c : Consumer} (hs : (f.advance n).Sound)
    (hf : (f.advance n).Accounted (s.served ++ readMem f.frameBuffer f.frameTail n)
      s.filter.clientQueue)
    (hu : u < s.arrivals) (hfirst : ∀ v ∈ s.filter.clientQueue, u ≤ v)
    (hlast : ∀ v, u < v → s.copied v = [])
    (hc : Readers s.arrivals s.filter.clientQueue (c :: s.others)) :
    (s.serve cfg f c u n).InOrder := by
  have hcopy := h.copy hu hfirst hlast hf
  have hreads := hf.reads
  unfold System.serve
  dsimp only
  split
  · -- the URB is complete
    have hreaders : Readers s.arrivals s.filter.clientQueue
        (s.others ++ [{ c with priv := none }]) := by
      refine (hc.replace (d := { c with priv := none }) rfl nofun).subperm ?_
      exact (List.perm_append_singleton _ _).subperm
    have happ := others_append (s := s) (.completed { c with priv := none })
    have hreaders' : Readers s.arrivals (f.advance n).clientQueue (others { s with
        suspended := s.suspended ++ [.completed { c with priv := none }] }) := by
      rw [happ, hreads]
      exact hreaders
    have hdone := hcopy.of_consumers none _ hreaders'
    split
    · exact hdone.unqueueRead u
    · exact hdone
  · refine hcopy.produced (hcopy.account.produce hs) ?_
    change Readers s.arrivals (f.advance n).clientQueue (c :: s.others)
    rw [hreads]
    exact hc

/-- One pass of `ptp_consume_`. -/
theorem pass (h : s.InOrder) (hs : s.filter.Sound) {c : Consumer} (hholder : s.holder = some c)
    (hfits : ∀ u, c.priv.or s.filter.clientQueue.head? = some u → s.filter.state.Filtering →
      s.filter.PassFits (s.size u - (s.copied u).length))
    (hturn : ∀ u, c.priv = some u → s.filter.state.Filtering →
      s.filter.Serves (s.copied u).length (s.size u - (s.copied u).length) →
      if c.pending then s.filter.clientQueue.head? = some u else s.filter.clientQueue = []) :
    (s.pass cfg c).InOrder := by
  have hcs := consumers_eq_cons hholder
  have hreaders : Readers s.arrivals s.filter.clientQueue (c :: s.others) := hcs ▸ h.readers
  have hothers : Readers s.arrivals s.filter.clientQueue s.others :=
    hreaders.subperm (List.sublist_cons_self c s.others).subperm
  have hstop : ∀ f : Filter, f.Accounted s.served s.filter.clientQueue →
      InOrder { s with filter := f, holder := none } := by
    intro f hf
    have hothers' : Readers s.arrivals f.clientQueue s.others := by
      rw [hf.reads]
      exact hothers
    exact (h.of_filter hf).of_consumers none s.suspended hothers'
  unfold System.pass
  split
  · have hacc := h.account
    exact hstop _ ⟨hacc.reads, hacc.total, hacc.mark, hacc.mark₂, hacc.order, hacc.under⟩
  rename_i hst
  rw [not_not] at hst
  split
  · exact hstop _ h.account
  rename_i u hu
  -- the call goes on with `u`
  have hnext : Readers s.arrivals s.filter.clientQueue
      (⟨c.rx, some u, c.pending || c.priv.isNone⟩ :: s.others) := by
    refine hreaders.replace rfl fun v hv hp => ?_
    obtain rfl : u = v := by simpa using hv
    obtain ⟨hpend, hsome⟩ : c.pending = false ∧ c.priv.isNone = false := by simpa using hp
    cases hpriv : c.priv with
    | none => simp [hpriv] at hsome
    | some w =>
      rw [hpriv, Option.some_or] at hu
      exact ⟨hu, hpend⟩
  obtain ⟨hmarks, hend⟩ := hfits u hu hst
  have hsound := hs.beginContainer hst hmarks (s.copied u).length
  have hbegin := h.account.beginContainer (s.copied u).length
  have hserves : ∀ f', s.filter.beginContainer (s.copied u).length = .go f' →
      f'.copyLength (s.size u - (s.copied u).length) ≠ 0 →
      s.filter.Serves (s.copied u).length (s.size u - (s.copied u).length) :=
    fun f' => hs.serves hst
  revert hsound hbegin hserves
  dsimp only
  cases s.filter.beginContainer (s.copied u).length with
  | stop f => exact fun _ hf _ => h.leave hf hnext
  | bypass f => exact fun _ hf _ => hstop _ (hf.changeState (by decide))
  | go f =>
    rintro ⟨hf, hlength, hthere, heq, hlevel⟩ hacc hserves
    dsimp only
    split
    · exact h.leave hacc hnext
    rename_i h0
    have hstate : f.state.Filtering := by
      rw [heq]
      exact hst
    have htail : f.frameTail = s.filter.frameTail := by rw [heq]
    have hsize : f.frameBufferSize = s.filter.frameBufferSize := by rw [heq]
    obtain ⟨-, hcount, hlen⟩ := Filter.copyLength_le (hf.headIn hstate) hf.size_le
      (s.size u - (s.copied u).length)
    have hadvance := hf.advance_copyLength hstate h0 fun hl => by
      rw [hlength, htail, hsize]
      exact hend (by rw [← hlevel, hl, hsize]) hthere
    obtain ⟨hlt, hfirst, hlast⟩ := h.turn hreaders hu fun hpriv =>
      hturn u hpriv hst (hserves f rfl h0)
    exact h.serve hadvance (hacc.advance hf hstate hlen hcount) hlt hfirst hlast hnext

/-- A function that was suspended goes on. -/
theorem resume (h : s.InOrder) (hs : s.filter.Sound) (hholder : s.holder = none) {i : ℕ}
    {x : Suspended} (hx : s.suspended[i]? = some x)
    (hfits : ∀ read, x = .onTx read → s.filter.state = read) :
    ({ s with suspended := s.suspended.eraseIdx i }.resume cfg x).InOrder := by
  have hperm := others_eraseIdx hx
  have hcs : s.consumers = s.others := by
    unfold consumers
    rw [hholder]
    rfl
  have hall := (hcs ▸ h.readers).subperm hperm.subperm
  have hrest := hall.subperm (List.sublist_append_right _ _).subperm
  have herase : InOrder { s with suspended := s.suspended.eraseIdx i } := by
    refine h.of_consumers s.holder _ ?_
    unfold consumers
    rw [hholder]
    exact hrest
  cases x with
  | again c => exact herase.of_consumers (some c) (s.suspended.eraseIdx i) hall
  | completed c => exact herase.produced (h.account.produce hs) hall
  | onTx read =>
    have hread := hfits read rfl
    subst hread
    have hne : s.filter.state.afterResponse ≠ .busy ∨
        s.filter.state.afterResponse = s.filter.state := by
      cases s.filter.state <;> decide
    refine herase.of_filter ?_
    rcases hne with hne | heq
    · exact h.account.changeState hne
    · rw [heq]
      exact h.account.changeState_self

/-- `ptp_on_rx` with a read URB. -/
theorem readUrb (h : s.InOrder) (hs : s.filter.Sound) (hholder : s.holder = none)
    (hfree : s.RxFree) (n : ℕ) : (s.readUrb cfg n).InOrder := by
  have hcs : s.consumers = s.others := by
    unfold consumers
    rw [hholder]
    rfl
  have hrx : ∀ c ∈ s.others, c.rx = false := by
    intro c hc
    obtain ⟨x, hx, hxc⟩ := List.mem_filterMap.mp hc
    have := hfree x hx
    cases x with
    | again d =>
      obtain rfl : d = c := by simpa [Suspended.consumer] using hxc
      exact this
    | completed d =>
      obtain rfl : d = c := by simpa [Suspended.consumer] using hxc
      exact this
    | onTx read => simp [Suspended.consumer] at hxc
  have hzero : s.others.countP (·.rx) = 0 := by
    refine List.countP_eq_zero.mpr fun c hc => ?_
    rw [hrx c hc]
    decide
  -- no call under way has a URB from its caller
  have hnone : ∀ c ∈ s.others, ∀ u, c.priv = some u → c.pending = false → False := by
    intro c hc u hu hp
    have hmem : c ∈ s.consumers := hcs ▸ hc
    have := (h.readers.newest c hmem u hu hp).1
    rw [hrx c hc] at this
    exact absurd this (by decide)
  have hserved : (List.range (s.arrivals + 1)).flatMap s.copied = s.served := by
    rw [List.range_succ, List.flatMap_append, List.flatMap_singleton, h.fresh s.arrivals le_rfl,
      List.append_nil]
    rfl
  have harrived : InOrder { s with
      arrivals := s.arrivals + 1, size := Function.update s.size s.arrivals n } := by
    refine ⟨⟨h.sorted, fun u hu => (h.lt u hu).trans (Nat.lt_succ_self _), h.behind,
      fun u hu => h.fresh u ((Nat.le_succ _).trans hu), ⟨fun c hc u hu hp => ?_, ?_⟩⟩, ?_⟩
    · have hc' : c ∈ s.consumers := hc
      exact (hnone c (hcs ▸ hc') u hu hp).elim
    · exact h.readers.single
    · change Filter.Accounted ((List.range (s.arrivals + 1)).flatMap s.copied) _ _
      rw [hserved]
      exact h.account
  unfold System.readUrb
  dsimp only
  split
  · refine harrived.of_consumers _ _ ⟨fun c hc u hu hp => ?_, ?_⟩
    · have hc' : c ∈ (⟨true, some s.arrivals, false⟩ : Consumer) :: s.others := hc
      rcases List.mem_cons.mp hc' with rfl | hc'
      · obtain rfl : s.arrivals = u := by simpa using hu
        exact ⟨rfl, rfl, fun hmem => absurd (h.lt _ hmem) (lt_irrefl _)⟩
      · exact (hnone c hc' u hu hp).elim
    · change List.countP _ ((⟨true, some s.arrivals, false⟩ : Consumer) :: s.others) ≤ 1
      rw [List.countP_cons, hzero, if_pos rfl]
  · split
    · exact harrived.of_filter (harrived.account.produce_some hs (by decide))
    · exact harrived

end InOrder

/-- **Each step serves the URBs in order.** -/
theorem inOrder_step {s' : System} {a : Act} (h : s.InOrder) (hs : s.filter.Sound)
    (hfits : s.Fits a) (hturn : s.InTurn a) (hstep : s.step cfg a = some s') : s'.InOrder := by
  obtain ⟨c, hholder, rfl, rfl⟩ | ⟨hholder, hmoves⟩ := step_cases hstep
  · exact h.pass hs hholder (fun u => hfits c u hholder) fun u => hturn c u hholder
  cases a with
  | readUrb n =>
    obtain ⟨hfree, -, rfl⟩ := hmoves
    exact h.readUrb hs hholder hfree n
  | preview =>
    obtain ⟨-, rfl⟩ := hmoves
    refine h.of_filter (h.account.preview fun hidle => ?_)
    -- a stream that starts over forgets what is in the buffer
    by_contra hne
    exact hs.apart hne (hturn hidle)
  | command =>
    obtain ⟨-, rfl⟩ := hmoves
    exact h.of_filter h.account.command
  | newSession =>
    obtain ⟨-, rfl⟩ := hmoves
    exact h.of_filter (h.account.changeState (by decide))
  | bypass =>
    obtain rfl := hmoves
    exact h.of_filter (h.account.changeState (by decide))
  | timer =>
    obtain rfl := hmoves
    exact h.of_filter (h.account.timer hs)
  | cmdComplete i ok =>
    obtain ⟨-, rfl⟩ := hmoves
    exact h.of_filter (h.account.cmdComplete i ok)
  | dataComplete i data ok rcOk =>
    obtain ⟨offset, length, ht, hlen, hs'⟩ := hmoves
    have hacc := h.account
    have hwritten : ((s.filter.complete i).written offset data).Accounted s.served
        s.filter.clientQueue :=
      ⟨hacc.reads, hacc.total, hacc.mark, hacc.mark₂, hacc.order, hacc.under⟩
    have hdone :=
      @Filter.Accounted.dataComplete cfg _ _ _ _ hwritten _ (hs.arrived ht hlen) ok rcOk hfits
    revert hdone hs'
    cases Filter.dataComplete cfg _ offset data ok rcOk with
    | inl f =>
      rintro rfl hf
      exact h.of_filter hf
    | inr p =>
      rintro rfl hp
      refine h.produced hp (Readers.cons_other ?_ rfl rfl)
      exact h.readers.subperm (List.sublist_append_right _ _).subperm
  | onTxState =>
    obtain ⟨-, rfl⟩ := hmoves
    refine h.of_consumers s.holder _ ?_
    have hreaders := h.readers
    unfold consumers at hreaders ⊢
    have happ := others_append (s := s) (.onTx s.filter.state)
    rw [show (Suspended.onTx s.filter.state).consumer.toList = [] from rfl,
      List.append_nil] at happ
    rw [← happ] at hreaders
    exact hreaders
  | onTxProduce =>
    obtain rfl := hmoves
    exact h.of_filter (h.account.produce hs)
  | resume i =>
    obtain ⟨x, hx, rfl⟩ := hmoves
    exact h.resume hs hholder hx fun read hread => hfits read (hread ▸ hx)
  | pass => exact hmoves.elim

theorem inOrder_init : (ptpFilter cfg).init.InOrder := by
  refine ⟨⟨List.Pairwise.nil, nofun, fun _ hne => absurd rfl hne, fun _ _ => rfl, nofun,
    Nat.zero_le 1⟩, rfl, rfl, fun _ => ⟨le_rfl, rfl⟩, fun _ => ⟨le_rfl, rfl⟩,
    fun _ => le_rfl, nofun⟩

end System

/-- **In a run whose steps meet `System.Fits` and `System.InTurn` the client reads the frames that
were not dropped, from their first byte on and without a gap**: what is left of them is in the
buffer. -/
theorem served_in_order (cfg : Config) {s : System}
    (h : (ptpFilter cfg).ReachableWhere (fun s a => s.Fits a ∧ s.InTurn a) s) :
    s.served ++ s.filter.kept.map Cell.val = s.filter.frames.flatten := by
  have hsound : ∀ s, (ptpFilter cfg).ReachableWhere (fun s a => s.Fits a ∧ s.InTurn a) s →
      s.filter.Sound := fun s hs =>
    System.sound_of_reachable (hs.mono fun _ _ hok => hok.1)
  have hinv := h.invariant_with (I := fun s => s.filter.Sound) hsound System.inOrder_init
    fun s a s' hs hI hok hstep => System.inOrder_step hI hs hok.1 hok.2 hstep
  exact hinv.account.total

/-- The client has been given the 24 bytes of the data container, in two parts, and the response
waits. -/
theorem served_in_order_served :
    ∃ s, (ptpFilter highSpeed).ReachableWhere (fun s a => s.Fits a ∧ s.InTurn a) s ∧
      (s.served = shortContainer ∧ s.filter.kept.map Cell.val = responseContainer) ∧
      s.served ++ s.filter.kept.map Cell.val = s.filter.frames.flatten := by
  obtain ⟨s, hs, hp⟩ := @Machine.exists_reachableWhere_of_any _ _ (ptpFilter highSpeed)
    (fun s a => s.Fits a ∧ s.InTurn a) _ servedRun (fun s => decide (s.served = shortContainer ∧
      s.filter.kept.map Cell.val = responseContainer)) (by decide +kernel)
  exact ⟨s, hs, of_decide_eq_true hp, served_in_order highSpeed hs⟩

/-- A read URB waits on `client_queue`. A container comes in, and while its completion handler has
released the lock to submit the next receive URB, a second read URB arrives. -/
def overtakingRun : List Act :=
  [.readUrb 512, .preview, .timer, .cmdComplete 0 true, .readUrb 512, .pass,
    .dataComplete 0 shortContainer true true, .readUrb 12, .pass, .resume 1, .pass]

/-- **The second read URB of the stream is given the first bytes of the container, and the first
one the rest.** -/
theorem served_out_of_order : ∃ s, (ptpFilter highSpeed).Reachable s ∧
    s.served ++ s.filter.kept.map Cell.val ≠ s.filter.frames.flatten := by
  obtain ⟨s, hs, hne⟩ := Machine.exists_reachable_of_any (m := ptpFilter highSpeed) overtakingRun
    (fun s => decide (s.served ++ s.filter.kept.map Cell.val ≠ s.filter.frames.flatten))
    (by decide +kernel)
  exact ⟨s, hs, of_decide_eq_true hne⟩

end Usbip.Ptp
