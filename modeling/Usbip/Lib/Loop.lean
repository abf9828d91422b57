import Mathlib.Computability.StateTransition
import Mathlib.Data.Set.Card

/-!
# Loops

A loop of a program is its body as a partial function on the variables: `none` where the loop is
left. `StateTransition.Reaches` gives the values of the variables at the head of a pass, and
`StateTransition.eval` the values at the end, if there is an end.

* `Ends`: the loop is left after finitely many passes. `ends_of_measure` proves it by an invariant
  and a number that decreases, `ends_of_acyclic` by the finitely many values that are left;
  `not_ends_of_closed` refutes it by an invariant under which there is always another pass,
  `not_ends_of_cycle` by a way back;
* `Safe`: the loop is left, and at the head of every pass the variables are as they should be.
  `safe_phase_iff` is for a loop that does at first what a simpler one does;
* `invariant` and `Safe.of_reaches`: what every pass keeps, and what a pass may rely on.
-/

namespace Loop

open StateTransition Relation

universe u

variable {σ : Type u} {body : σ → Option σ} {ok I : σ → Prop} {s t : σ}

/-- What every pass keeps holds at the head of every pass. -/
theorem invariant (hstep : ∀ s t, I s → body s = some t → I t) (hs : I s)
    (h : Reaches body s t) : I t := by
  induction h with
  | refl => exact hs
  | tail _ hpass ih => exact hstep _ _ ih hpass

/-- Nothing comes after the last pass. -/
theorem eq_of_reaches (hend : body s = none) (h : Reaches body s t) : t = s := by
  rcases ReflTransGen.cases_head h with heq | ⟨u, hpass, -⟩
  · exact heq.symm
  · exact absurd (hend.symm.trans hpass) nofun

/-- There is one end. -/
theorem eq_of_ends {u : σ} (ht : Reaches body s t) (htend : body t = none) (hu : Reaches body s u)
    (huend : body u = none) : t = u :=
  Part.mem_unique (mem_eval.mpr ⟨ht, htend⟩) (mem_eval.mpr ⟨hu, huend⟩)

/-- The end comes after the next pass. -/
theorem reaches_of_pass {u : σ} (hpass : body s = some t) (h : Reaches body s u)
    (hend : body u = none) : Reaches body t u := by
  rcases ReflTransGen.cases_head h with rfl | ⟨t', hpass', hrest⟩
  · exact absurd (hend.symm.trans hpass) nofun
  · rwa [Option.some.inj (hpass.symm.trans hpass')]

/-- The loop is left. -/
def Ends (body : σ → Option σ) (s : σ) : Prop := (eval body s).Dom

theorem ends_iff : Ends body s ↔ ∃ t, Reaches body s t ∧ body t = none := by
  rw [Ends, Part.dom_iff_mem]
  exact exists_congr fun t => mem_eval

/-- Whether the loop is left may be asked at any pass. -/
theorem ends_congr (h : Reaches body s t) : Ends body s ↔ Ends body t := by
  rw [Ends, Ends, reaches_eval h]

/-- A number that every pass makes smaller ends the loop. -/
theorem ends_of_measure (μ : σ → ℕ) (hstep : ∀ s t, I s → body s = some t → I t ∧ μ t < μ s)
    (hs : I s) : Ends body s := by
  induction hμ : μ s using Nat.strong_induction_on generalizing s with
  | _ n ih =>
    cases hpass : body s with
    | none => exact ends_iff.mpr ⟨s, .refl, hpass⟩
    | some t =>
      obtain ⟨ht, hlt⟩ := hstep s t hs hpass
      exact (ends_congr (.single hpass)).mpr (ih (μ t) (hμ ▸ hlt) ht rfl)

/-- A loop with always another pass does not end. -/
theorem not_ends_of_closed (hstep : ∀ s, I s → ∃ t, body s = some t ∧ I t) (hs : I s) :
    ¬ Ends body s := by
  rw [ends_iff]
  rintro ⟨t, hreach, hend⟩
  have ht : I t := by
    refine invariant (fun s t hs hpass => ?_) hs hreach
    obtain ⟨t', hpass', ht'⟩ := hstep s hs
    rwa [Option.some.inj (hpass.symm.trans hpass')]
  obtain ⟨u, hpass, -⟩ := hstep t ht
  exact absurd (hend.symm.trans hpass) nofun

/-- A loop over finitely many values that never comes back to one is left. -/
theorem ends_of_acyclic (hfinite : {t | Reaches body s t}.Finite)
    (hacyclic : ∀ t t', Reaches body s t → body t = some t' → ¬ Reaches body t' t) :
    Ends body s := by
  refine ends_of_measure (I := fun t => Reaches body s t) (fun t => {u | Reaches body t u}.ncard)
    (fun t t' ht hpass => ⟨ht.tail hpass, ?_⟩) .refl
  refine Set.ncard_lt_ncard ⟨fun u hu => ReflTransGen.head hpass hu, fun hsub => ?_⟩
    (hfinite.subset fun u hu => ReflTransGen.trans ht hu)
  exact hacyclic t t' ht hpass (hsub ReflTransGen.refl)

/-- A loop that comes back is not left. -/
theorem not_ends_of_cycle (hpass : body s = some t) (hback : Reaches body t s) :
    ¬ Ends body s := by
  refine not_ends_of_closed (I := fun u => Reaches body u s) (fun u hu => ?_) .refl
  rcases ReflTransGen.cases_head hu with rfl | ⟨u', hpass', hrest⟩
  · exact ⟨t, hpass, hback⟩
  · exact ⟨u', hpass', hrest⟩

/-- The loop is left, and every pass begins as it should. -/
def Safe (body : σ → Option σ) (ok : σ → Prop) (s : σ) : Prop :=
  Ends body s ∧ ∀ t, Reaches body s t → ok t

/-- The passes of a safe loop are safe. -/
theorem Safe.of_reaches (h : Safe body ok s) (ht : Reaches body s t) : Safe body ok t :=
  ⟨(ends_congr ht).mp h.1, fun _ hu => h.2 _ (ht.trans hu)⟩

/-- A loop that is left at once is safe. -/
theorem safe_of_none (hend : body s = none) (hok : ok s) : Safe body ok s :=
  ⟨ends_iff.mpr ⟨s, .refl, hend⟩, fun t ht => by rwa [eq_of_reaches hend ht]⟩

/-- A loop is safe if the next pass begins as it should and the rest is safe. -/
theorem safe_head_iff (hpass : body s = some t) : Safe body ok s ↔ ok s ∧ Safe body ok t := by
  refine ⟨fun h => ⟨h.2 s .refl, h.of_reaches (.single hpass)⟩, fun ⟨hs, ht⟩ => ⟨?_, ?_⟩⟩
  · exact (ends_congr (.single hpass)).mpr ht.1
  · intro u hu
    rcases ReflTransGen.cases_head hu with rfl | ⟨t', hpass', hrest⟩
    · exact hs
    · exact ht.2 u (Option.some.inj (hpass'.symm.trans hpass) ▸ hrest)

section Phase

variable {τ : Type*} {phase : τ → Option τ} {R : σ → τ → Prop} {ok' : τ → Prop} {a b : τ}

/-- A loop follows a simpler one as long as that goes on. -/
theorem reaches_of_phase (hstep : ∀ s a b, R s a → phase a = some b → ∃ t, body s = some t ∧ R t b)
    (hs : R s a) (h : Reaches phase a b) : ∃ t, Reaches body s t ∧ R t b := by
  induction h with
  | refl => exact ⟨s, .refl, hs⟩
  | tail _ hpass ih =>
    obtain ⟨t, ht, hR⟩ := ih
    obtain ⟨u, hpass', hu⟩ := hstep _ _ _ hR hpass
    exact ⟨u, ht.tail hpass', hu⟩

/-- Every pass is one of the simpler loop, or comes after that. -/
theorem phase_of_reaches (hstep : ∀ s a b, R s a → phase a = some b → ∃ t, body s = some t ∧ R t b)
    (hs : R s a) (h : Reaches body s t) : (∃ b, Reaches phase a b ∧ R t b) ∨
      ∃ b u, Reaches phase a b ∧ phase b = none ∧ Reaches body s u ∧ R u b ∧ Reaches body u t := by
  induction h with
  | refl => exact .inl ⟨a, .refl, hs⟩
  | @tail t t' hreach hpass ih =>
    rcases ih with ⟨b, hb, hR⟩ | ⟨b, u, hb, hend, hu, hR, hrest⟩
    · cases hnext : phase b with
      | none => exact .inr ⟨b, t, hb, hnext, hreach, hR, .single hpass⟩
      | some c =>
        obtain ⟨u, hpass', hu⟩ := hstep _ _ _ hR hnext
        obtain rfl := Option.some.inj (hpass'.symm.trans hpass)
        exact .inl ⟨c, hb.tail hnext, hu⟩
    · exact .inr ⟨b, u, hb, hend, hu, hR, hrest.tail hpass⟩

/-- A loop that does at first what a simpler one does is safe if that is, and if it is safe from
there on. -/
theorem safe_phase_iff (hstep : ∀ s a b, R s a → phase a = some b → ∃ t, body s = some t ∧ R t b)
    (hok : ∀ s a, R s a → (ok s ↔ ok' a)) (hs : R s a) :
    Safe body ok s ↔ Safe phase ok' a ∧ ∀ b t, Reaches phase a b → phase b = none →
      Reaches body s t → R t b → Safe body ok t := by
  constructor
  · refine fun hsafe => ⟨⟨?_, fun b hb => ?_⟩, fun b t _ _ ht _ => hsafe.of_reaches ht⟩
    · by_contra hphase
      refine not_ends_of_closed (I := fun t => ∃ b, R t b ∧ ¬ Ends phase b) ?_ ⟨a, hs, hphase⟩
        hsafe.1
      rintro t ⟨b, hR, hends⟩
      cases hnext : phase b with
      | none => exact absurd (ends_iff.mpr ⟨b, .refl, hnext⟩) hends
      | some c =>
        obtain ⟨u, hpass, hu⟩ := hstep _ _ _ hR hnext
        exact ⟨u, hpass, c, hu, fun hc => hends ((ends_congr (.single hnext)).mpr hc)⟩
    · obtain ⟨t, ht, hR⟩ := reaches_of_phase hstep hs hb
      exact (hok t b hR).mp (hsafe.2 t ht)
  · rintro ⟨⟨hends, hphase⟩, hrest⟩
    obtain ⟨b, hb, hend⟩ := ends_iff.mp hends
    obtain ⟨t, ht, hR⟩ := reaches_of_phase hstep hs hb
    refine ⟨(ends_congr ht).mpr (hrest b t hb hend ht hR).1, fun u hu => ?_⟩
    rcases phase_of_reaches hstep hs hu with ⟨c, hc, hRu⟩ | ⟨c, v, hc, hcend, hv, hRv, hvu⟩
    · exact (hok u c hRu).mpr (hphase c hc)
    · exact (hrest c v hc hcend hv hRv).2 u hvu

end Phase

end Loop
