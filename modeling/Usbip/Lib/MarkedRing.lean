import Usbip.Lib.RecordRing

/-!
# A record ring with two marks

A producer that may have to give up what it is writing remembers where it began: the mark `p`
at the start of the latest group of records, and the mark `q` at an earlier start. A negative
mark is unset. `Ring` says that the cells are laid out and divided into records as they should
be, and that what lies before each mark would be such a ring by itself, so that the cells from a
mark on can be discarded at any time (`Ring.discard`) while the consumer goes on at the tail
(`Ring.pop`, `Ring.pop_end`) and the producer at the level (`Ring.extend`).
-/

namespace RecordRing

universe u

variable {β : Type u} {pad : ℤ → ℤ} {hdr : ℕ} {len : List β → ℕ}
variable {T S S' L L' p q : ℤ} {r r' n : ℕ} {cells bs : List (Cell β)}

/-- The mark `p` divides the ring at the start of a record; without a cell at `p` it stands at
the level. -/
structure Mark (pad : ℤ → ℤ) (hdr : ℕ) (len : List β → ℕ) (T S : ℤ) (r : ℕ)
    (cells : List (Cell β)) (L p : ℤ) : Prop where
  layout : Layout pad T S (before p cells) p
  streamed : Streamed hdr len r (before p cells) 0
  level : (∀ x ∈ cells, x.pos ≠ p) → p = L

/-- The cells of a ring from the tail `T` to the level `L`: `r` bytes of the first record are to
be taken, `r'` bytes of the last one are to come. -/
structure Ring (pad : ℤ → ℤ) (hdr : ℕ) (len : List β → ℕ) (T S : ℤ) (r : ℕ)
    (cells : List (Cell β)) (L p q : ℤ) (r' : ℕ) : Prop where
  tail_nonneg : 0 ≤ T
  layout : Layout pad T S cells L
  streamed : Streamed hdr len r cells r'
  mark : 0 ≤ p → Mark pad hdr len T S r cells L p
  mark₂ : 0 ≤ q → Mark pad hdr len T S r cells L q
  order : 0 ≤ q → 0 ≤ p ∧ (before q cells).length ≤ (before p cells).length

/-- An empty ring without marks. -/
theorem Ring.empty (hT : 0 ≤ T) (hS : T ≤ S) (hp : p < 0) (hq : q < 0) :
    Ring pad hdr len T S 0 ([] : List (Cell β)) T p q 0 where
  tail_nonneg := hT
  layout := .empty hS
  streamed := by simp
  mark h := absurd h (by omega)
  mark₂ h := absurd h (by omega)
  order h := absurd h (by omega)

variable (hpad : ∀ x, x ≤ pad x)
include hpad

namespace Mark

/-- A mark with a cell lies inside the buffer. -/
theorem lt_size (h : Mark pad hdr len T S r cells L p) (hT : 0 ≤ T)
    (hlay : Layout pad T S cells L) (hL : L ≠ S) : p < S := by
  by_cases hcell : ∃ x ∈ cells, x.pos = p
  · obtain ⟨x, hx, rfl⟩ := hcell
    exact (hlay.bounds hpad hT hx).2
  · rw [h.level fun x hx hpos => hcell ⟨x, hx, hpos⟩]
    exact lt_of_le_of_ne hlay.level_le hL

omit hpad in
/-- The record under way at the tail ends before the mark. -/
theorem le_length (h : Mark pad hdr len T S r cells L p) (hr : n ≤ r) :
    n ≤ (before p cells).length :=
  hr.trans h.streamed.le_length

omit hpad in
theorem level_drop (h : Mark pad hdr len T S r cells L p) (hr : n ≤ r)
    (hne : ∀ x ∈ cells.drop n, x.pos ≠ p) : p = L := by
  refine h.level fun x hx => ?_
  rw [← List.take_append_drop n cells] at hx
  rcases List.mem_append.mp hx with hx | hx
  · have hpre : cells.take n <+: before p cells :=
      List.prefix_of_prefix_length_le (List.take_prefix n cells) before_isPrefix
        ((List.length_take_le n cells).trans (h.le_length hr))
    exact (mem_before (hpre.subset hx)).2
  · exact hne x hx

theorem pop (h : Mark pad hdr len T S r cells L p) (h0 : 0 < n) (hr : n ≤ r) (hTS : T + n < S) :
    Mark pad hdr len (if n = r then pad (T + n) else T + n) S (r - n) (cells.drop n) L p where
  layout := before_drop (h.le_length hr) ▸
    h.layout.pop hpad h.streamed h0 hr (h.le_length hr) hTS
  streamed := before_drop (h.le_length hr) ▸ h.streamed.drop hr (h.le_length hr)
  level := h.level_drop hr

theorem pop_end (h : Mark pad hdr len T S r cells L p) (h0 : 0 < n) (hr : n ≤ r)
    (hTS : T + n = S) (hp : p ≠ S) (hS : S ≤ S') :
    Mark pad hdr len 0 S' (r - n) (cells.drop n) L p where
  layout := before_drop (h.le_length hr) ▸
    (h.layout.pop_end hpad h.streamed h0 hr (h.le_length hr) hTS hp hS).1
  streamed := before_drop (h.le_length hr) ▸ h.streamed.drop hr (h.le_length hr)
  level := h.level_drop hr

omit hpad in
/-- Cells added at the level. -/
theorem extend (h : Mark pad hdr len T S r cells L p)
    (hhead : (∀ x ∈ cells, x.pos ≠ p) → (∀ x ∈ bs.head?, x.pos = L) ∧ (bs = [] → L' = L)) :
    Mark pad hdr len T S r (cells ++ bs) L' p := by
  by_cases hcell : ∃ x ∈ cells, x.pos = p
  · refine ⟨before_append hcell ▸ h.layout, before_append hcell ▸ h.streamed, fun hne => ?_⟩
    obtain ⟨x, hx, hpos⟩ := hcell
    exact absurd hpos (hne x (List.mem_append_left bs hx))
  · have hne : ∀ x ∈ cells, x.pos ≠ p := fun x hx hpos => hcell ⟨x, hx, hpos⟩
    obtain rfl := h.level hne
    obtain ⟨hpos, hnil⟩ := hhead hne
    have hbefore := before_append_of_head hne hpos
    have hself := before_eq_self hne
    refine ⟨?_, ?_, fun hne' => ?_⟩
    · rw [hbefore, ← hself]
      exact h.layout
    · rw [hbefore, ← hself]
      exact h.streamed
    · cases bs with
      | nil => exact (hnil rfl).symm
      | cons b bs => exact absurd (hpos b rfl) (hne' b (by simp))

/-- The end of the buffer may be moved while neither the cells nor the mark have wrapped. -/
theorem resize (h : Mark pad hdr len T S r cells L p) (hlay : Layout pad T S cells L)
    (hTL : T ≤ L) (hL : L ≤ S') : Mark pad hdr len T S' r cells L p := by
  have hp : T ≤ p ∧ p ≤ L := by
    by_cases hcell : ∃ x ∈ cells, x.pos = p
    · obtain ⟨x, hx, rfl⟩ := hcell
      have := (hlay.free hpad hx).1 hTL
      constructor <;> omega
    · have := h.level fun x hx hpos => hcell ⟨x, hx, hpos⟩
      constructor <;> omega
  exact ⟨h.layout.resize hp.1 (hp.2.trans hL), h.streamed, h.level⟩

end Mark

namespace Ring

omit hpad in
/-- Without a cell at the later mark there is none at the earlier one's place either, unless
that place is inside. -/
theorem no_cell (h : Ring pad hdr len T S r cells L p q r') (hq : 0 ≤ q)
    (hne : ∀ x ∈ cells, x.pos ≠ q) : ∀ x ∈ cells, x.pos ≠ p := by
  have hlen := (h.order hq).2
  rw [before_eq_self hne] at hlen
  have hself : before p cells = cells := before_isPrefix.eq_of_length_le hlen
  intro x hx
  rw [← hself] at hx
  exact (mem_before hx).2

/-! ### The consumer -/

/-- Taking `n` bytes of one record away from the tail. -/
theorem pop (h : Ring pad hdr len T S r cells L p q r') (h0 : 0 < n) (hr : n ≤ r)
    (hn : n ≤ cells.length) (hTS : T + n < S) :
    Ring pad hdr len (if n = r then pad (T + n) else T + n) S (r - n) (cells.drop n) L p q r' where
  tail_nonneg := by
    have hT := h.tail_nonneg
    have := hpad (T + n)
    split <;> omega
  layout := h.layout.pop hpad h.streamed h0 hr hn hTS
  streamed := h.streamed.drop hr hn
  mark hp := (h.mark hp).pop hpad h0 hr hTS
  mark₂ hq := (h.mark₂ hq).pop hpad h0 hr hTS
  order hq := by
    have hp := (h.order hq).1
    have hle := (h.order hq).2
    rw [before_drop ((h.mark hp).le_length hr), before_drop ((h.mark₂ hq).le_length hr),
      List.length_drop, List.length_drop]
    exact ⟨hp, Nat.sub_le_sub_right hle n⟩

/-- Taking `n` bytes of one record away from the tail, up to the end of the buffer. -/
theorem pop_end (h : Ring pad hdr len T S r cells L p q r') (h0 : 0 < n) (hr : n ≤ r)
    (hn : n ≤ cells.length) (hTS : T + n = S) (hL : L ≠ S) (hS : S ≤ S') :
    Ring pad hdr len 0 S' (r - n) (cells.drop n) L p q r' where
  tail_nonneg := le_rfl
  layout := (h.layout.pop_end hpad h.streamed h0 hr hn hTS hL hS).1
  streamed := h.streamed.drop hr hn
  mark hp := (h.mark hp).pop_end hpad h0 hr hTS
    ((h.mark hp).lt_size hpad h.tail_nonneg h.layout hL).ne hS
  mark₂ hq := (h.mark₂ hq).pop_end hpad h0 hr hTS
    ((h.mark₂ hq).lt_size hpad h.tail_nonneg h.layout hL).ne hS
  order hq := by
    have hp := (h.order hq).1
    have hle := (h.order hq).2
    rw [before_drop ((h.mark hp).le_length hr), before_drop ((h.mark₂ hq).le_length hr),
      List.length_drop, List.length_drop]
    exact ⟨hp, Nat.sub_le_sub_right hle n⟩

omit hpad in
/-- The consumer has read the header of the record at the tail, behind which the marks are. -/
theorem «open» {c : Cell β} (h : Ring pad hdr len T S 0 (c :: cells) L p q r')
    (hp : 0 ≤ p → c.pos ≠ p) (hq : 0 ≤ q → c.pos ≠ q) :
    Ring pad hdr len T S c.left (c :: cells) L p q r' := by
  have hmark : ∀ m, c.pos ≠ m → Mark pad hdr len T S 0 (c :: cells) L m →
      Mark pad hdr len T S c.left (c :: cells) L m := by
    intro m hne hm
    have hcons : before m (c :: cells) = c :: before m cells := by simp [before, hne]
    refine ⟨hm.layout, ?_, hm.level⟩
    have hst := hm.streamed
    rw [hcons] at hst ⊢
    exact hst.open
  exact ⟨h.tail_nonneg, h.layout, h.streamed.open, fun h0 => hmark p (hp h0) (h.mark h0),
    fun h0 => hmark q (hq h0) (h.mark₂ h0), h.order⟩

omit hpad in
/-- Giving up the earlier mark. -/
theorem unmark₂ (h : Ring pad hdr len T S r cells L p q r') (hq : L' < 0) :
    Ring pad hdr len T S r cells L p L' r' :=
  ⟨h.tail_nonneg, h.layout, h.streamed, h.mark, fun h0 => absurd h0 (by omega),
    fun h0 => absurd h0 (by omega)⟩

/-- The consumer gives up the later mark on reaching it, the earlier one being elsewhere. -/
theorem unmark (h : Ring pad hdr len T S r cells L T q r') (hq : T ≠ q) (hp : p < 0) :
    Ring pad hdr len T S r cells L p q r' := by
  have hneg : q < 0 := by
    by_contra hq0
    rw [not_lt] at hq0
    have hle := (h.order hq0).2
    have hm := h.mark h.tail_nonneg
    have hm₂ := h.mark₂ hq0
    have hnil : before T cells = [] := by
      by_contra hne
      exact hm.layout.level_ne_tail hpad hne rfl
    rw [hnil, List.length_nil, Nat.le_zero, List.length_eq_zero_iff] at hle
    -- only a ring with nothing below its end could place the two marks differently
    have hlay := hm₂.layout
    rw [hle] at hlay
    cases hlay with
    | linear chain level fits => exact hq level
    | wrapped as bs split upper fills lower level apart fits =>
      obtain ⟨rfl, rfl⟩ : as = [] ∧ bs = [] := by simpa using split.symm
      rcases fills with hTS | ⟨x, hx, -⟩
      · by_cases hcells : cells = []
        · subst hcells
          have h₁ := hm.level (by simp)
          have h₂ := hm₂.level (by simp)
          exact hq (h₁.trans h₂.symm)
        · have hLT := h.layout.level_ne_tail hpad hcells
          refine hLT (hm.level fun x hx => ?_).symm
          have := (h.layout.bounds hpad h.tail_nonneg hx).2
          rw [walkEnd_nil] at hTS
          omega
      · simp at hx
  exact ⟨h.tail_nonneg, h.layout, h.streamed, fun h0 => absurd h0 (by omega),
    fun h0 => absurd h0 (by omega), fun h0 => absurd h0 (by omega)⟩

/-! ### The producer -/

omit hpad in
/-- Cells added at the level. When a mark is still without a cell they begin there. -/
theorem extend (h : Ring pad hdr len T S r cells L p q r') {r'' : ℕ}
    (hlay : Layout pad T S (cells ++ bs) L') (hst : Streamed hdr len r' bs r'')
    (hhead : 0 ≤ p → (∀ x ∈ cells, x.pos ≠ p) →
      (∀ x ∈ bs.head?, x.pos = L) ∧ (bs = [] → L' = L)) :
    Ring pad hdr len T S r (cells ++ bs) L' p q r'' where
  tail_nonneg := h.tail_nonneg
  layout := hlay
  streamed := h.streamed.append hst
  mark hp := (h.mark hp).extend (hhead hp)
  mark₂ hq := (h.mark₂ hq).extend fun hne => hhead (h.order hq).1 (h.no_cell hq hne)
  order hq := by
    obtain ⟨hp, hle⟩ := h.order hq
    refine ⟨hp, ?_⟩
    by_cases hcell : ∃ x ∈ cells, x.pos = q
    · rw [before_append hcell]
      by_cases hcell' : ∃ x ∈ cells, x.pos = p
      · rwa [before_append hcell']
      · have hne : ∀ x ∈ cells, x.pos ≠ p := fun x hx hpos => hcell' ⟨x, hx, hpos⟩
        rw [before_append_of_head hne ((h.mark hp).level hne ▸ (hhead hp hne).1)]
        exact before_isPrefix.length_le
    · have hne : ∀ x ∈ cells, x.pos ≠ q := fun x hx hpos => hcell ⟨x, hx, hpos⟩
      have hne' := h.no_cell hq hne
      have hpq : q = p := ((h.mark₂ hq).level hne).trans ((h.mark hp).level hne').symm
      rw [hpq]

/-- The end of the buffer may be moved while the cells have not wrapped. -/
theorem resize (h : Ring pad hdr len T S r cells L p q r') (hTL : T ≤ L) (hL : L ≤ S') :
    Ring pad hdr len T S' r cells L p q r' where
  tail_nonneg := h.tail_nonneg
  layout := h.layout.resize hTL hL
  streamed := h.streamed
  mark hp := (h.mark hp).resize hpad h.layout hTL hL
  mark₂ hq := (h.mark₂ hq).resize hpad h.layout hTL hL
  order := h.order

/-- The later mark is set to the level between two records; the earlier one may take over its
former place. -/
theorem mark_level (h : Ring pad hdr len T S r cells L p q 0)
    (hq : L' = q ∨ 0 ≤ p ∧ L' = p) : Ring pad hdr len T S r cells L L L' 0 := by
  have hself : before L cells = cells := before_eq_self fun x hx => h.layout.pos_ne hpad hx
  have hL : Mark pad hdr len T S r cells L L :=
    ⟨hself.symm ▸ h.layout, hself.symm ▸ h.streamed, fun _ => rfl⟩
  refine ⟨h.tail_nonneg, h.layout, h.streamed, fun _ => hL, fun hL' => ?_, fun hL' => ?_⟩
  · rcases hq with rfl | ⟨hp, rfl⟩
    · exact h.mark₂ hL'
    · exact h.mark hp
  · exact ⟨h.layout.level_nonneg hpad h.tail_nonneg, hself.symm ▸ before_isPrefix.length_le⟩

omit hpad in
/-- The cells from the later mark on are discarded, and the level goes back to it. -/
theorem discard (h : Ring pad hdr len T S r cells L p q r') (hp : 0 ≤ p) :
    Ring pad hdr len T S r (before p cells) p p q 0 := by
  have hm := h.mark hp
  have hself : before p (before p cells) = before p cells :=
    before_eq_self fun x hx => (mem_before hx).2
  refine ⟨h.tail_nonneg, hm.layout, hm.streamed,
    fun _ => ⟨hself.symm ▸ hm.layout, hself.symm ▸ hm.streamed, fun _ => rfl⟩,
    fun hq => ?_, fun hq => ?_⟩
  · have hm₂ := h.mark₂ hq
    have hbb := before_before (h.order hq).2
    refine ⟨hbb.symm ▸ hm₂.layout, hbb.symm ▸ hm₂.streamed, fun hne => ?_⟩
    -- both marks stand before the first of the discarded cells, or at the old level
    obtain ⟨ds, hds⟩ : before p cells <+: cells := before_isPrefix
    have hq' : before q cells = before p cells := by rw [← hbb, before_eq_self hne]
    cases hds' : ds with
    | nil =>
      rw [hds', List.append_nil] at hds
      have hnp : ∀ x ∈ cells, x.pos ≠ p := fun x hx => (mem_before (hds.symm ▸ hx)).2
      rw [hds] at hne
      exact (hm₂.level hne).trans (hm.level hnp).symm
    | cons d ds =>
      have hd : ∀ m, before m cells = before p cells → d.pos = m := by
        intro m hm
        by_contra hdm
        have hmem : ∀ x ∈ before p cells, x.pos ≠ m := fun x hx => (mem_before (hm ▸ hx)).2
        have htake : before m (before p cells ++ d :: ds) = _ :=
          List.takeWhile_append_of_pos fun x hx => decide_eq_true (hmem x hx)
        rw [← hds', hds, hds'] at htake
        have hlen := congrArg List.length (htake.symm.trans hm)
        simp [hdm] at hlen
      rw [← hd q hq', hd p rfl]
  · exact ⟨hp, by
      rw [before_before (h.order hq).2, hself]
      exact (h.order hq).2⟩

omit hpad in
/-- The earlier mark becomes the later one, to be discarded in turn. -/
theorem step_back (h : Ring pad hdr len T S r cells L p q r') (hL' : L' < 0) :
    Ring pad hdr len T S r cells L q L' r' :=
  ⟨h.tail_nonneg, h.layout, h.streamed, h.mark₂, fun h0 => absurd h0 (by omega),
    fun h0 => absurd h0 (by omega)⟩

end Ring

end RecordRing
