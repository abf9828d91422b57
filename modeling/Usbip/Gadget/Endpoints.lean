import Usbip.Gadget.EpConfig

/-!
# Which endpoints are configured

A configuration of the gadget has interface descriptors, each with the descriptors of its endpoints
behind it, in any order and with other descriptors between them. `ep_config` is called for an
interface and an alternate setting, or, with a negative one, for the first alternate setting of
every interface.

What it does to descriptors of less than 128 bytes is `scan`, a function of the list of descriptors
(`exists_walk`). `configures_iff` compares that with what is asked for. For one alternate setting it
is the same, unless the setting is there twice. For all interfaces it is not: the code looks for the
descriptors of the interface in its argument only, and takes the endpoints of whatever comes after
them for theirs.
-/

namespace Usbip.Gadget

open StateTransition Relation

/-! ### Configurations -/

/-- The descriptors are at the positions `ps`, one behind the other from `i` to the end. A
descriptor has a length and a type. -/
def Descriptors (mem : ℤ → Byte) : ℤ → List ℤ → Prop
  | i, [] => i = wTotalLength mem
  | i, p :: ps => p = i ∧ 2 ≤ (mem p).toNat ∧ Descriptors mem (p + (mem p).toNat) ps

/-- The endpoints, each with the last interface before it. -/
def endpoints (mem : ℤ → Byte) : Option ℤ → List ℤ → List (ℤ × Option ℤ)
  | _, [] => []
  | owner, p :: ps =>
    if bDescriptorType mem p = usbDtInterface then endpoints mem (some p) ps
    else if bDescriptorType mem p = usbDtEndpoint then (p, owner) :: endpoints mem owner ps
    else endpoints mem owner ps

/-- The first descriptor of an interface. -/
def IsFirst (mem : ℤ → Byte) (ps : List ℤ) (intf : ℤ) : Prop :=
  ∀ q ∈ ps, bDescriptorType mem q = usbDtInterface →
    bInterfaceNumber mem q = bInterfaceNumber mem intf → intf ≤ q

instance (mem : ℤ → Byte) (ps : List ℤ) (intf : ℤ) : Decidable (IsFirst mem ps intf) :=
  inferInstanceAs (Decidable (∀ q ∈ ps, bDescriptorType mem q = usbDtInterface →
    bInterfaceNumber mem q = bInterfaceNumber mem intf → intf ≤ q))

/-- The endpoints of this interface are to be configured. -/
def Wanted (mem : ℤ → Byte) (interface altsetting : ℤ) (ps : List ℤ) : Option ℤ → Prop
  | none => False
  | some intf => if altsetting < 0 then IsFirst mem ps intf else Asked mem interface altsetting intf

instance (mem : ℤ → Byte) (interface altsetting : ℤ) (ps : List ℤ) :
    DecidablePred (Wanted mem interface altsetting ps)
  | none => inferInstanceAs (Decidable False)
  | some intf => inferInstanceAs (Decidable (if altsetting < 0 then IsFirst mem ps intf
      else Asked mem interface altsetting intf))

/-- The endpoints that are to be configured, each with its interface. -/
def wanted (mem : ℤ → Byte) (interface altsetting : ℤ) (ps : List ℤ) : List (ℤ × Option ℤ) :=
  (endpoints mem none ps).filter fun e => Wanted mem interface altsetting ps e.2

/-- The endpoints of the context after these were configured, one after the other. -/
def record (mem : ℤ → Byte) (eps : ℕ → Ep) (l : List (ℤ × Option ℤ)) : ℕ → Ep :=
  l.foldl (fun eps e => Function.update eps (epIndex mem e.1) ⟨true, e.2, some e.1⟩) eps

/-- The loop ends, and configures these endpoints on the way. -/
def Walk.Configures (mem : ℤ → Byte) (interface altsetting : ℤ) (w : Walk)
    (l : List (ℤ × Option ℤ)) : Prop :=
  ∃ w', Reaches (pass mem interface altsetting) w w' ∧ pass mem interface altsetting w' = none ∧
    w'.configured = w.configured ++ l ∧ w'.eps = record mem w.eps l

/-- The descriptors have less than 128 bytes, up to the interface after the one that was asked
for. -/
def Short (mem : ℤ → Byte) (interface altsetting : ℤ) (ps : List ℤ) : Prop :=
  ∀ p ∈ ps, (mem p).toNat < 128 ∨ 0 ≤ altsetting ∧ ∃ a ∈ ps, ∃ q ∈ ps,
    Asked mem interface altsetting a ∧ bDescriptorType mem q = usbDtInterface ∧ a < q ∧ q ≤ p

/-! ### The walk over the list of descriptors -/

/-- What `ep_config` configures. -/
def scan (mem : ℤ → Byte) (interface altsetting : ℤ) :
    EpState → Option ℤ → List ℤ → List (ℤ × Option ℤ)
  | _, _, [] => []
  | .seek, current, p :: ps =>
    if Asked mem interface altsetting p then scan mem interface altsetting .config (some p) ps
    else scan mem interface altsetting .seek current ps
  | .config, current, p :: ps =>
    if bDescriptorType mem p = usbDtEndpoint then
      (p, current) :: scan mem interface altsetting .config current ps
    else if bDescriptorType mem p ≠ usbDtInterface then
      scan mem interface altsetting .config current ps
    else if 0 ≤ altsetting then []
    else if Asked mem interface altsetting p then
      scan mem interface altsetting .config (some p) ps
    else scan mem interface altsetting .config current ps

section Walk

variable {mem : ℤ → Byte} {interface altsetting : ℤ} {i p : ℤ} {ps : List ℤ} {w : Walk}

theorem Descriptors.le (h : Descriptors mem i ps) : i ≤ wTotalLength mem ∧ ∀ q ∈ ps, i ≤ q := by
  induction ps generalizing i with
  | nil => exact ⟨h.le, nofun⟩
  | cons p ps ih =>
    obtain ⟨rfl, hlen, hrest⟩ := h
    obtain ⟨htotal, hle⟩ := ih hrest
    refine ⟨by omega, fun q hq => ?_⟩
    rcases List.mem_cons.mp hq with rfl | hq
    · exact le_rfl
    · have := hle q hq
      omega

theorem Descriptors.pairwise (h : Descriptors mem i ps) : ps.Pairwise (· < ·) := by
  induction ps generalizing i with
  | nil => exact .nil
  | cons p ps ih =>
    obtain ⟨rfl, hlen, hrest⟩ := h
    refine List.pairwise_cons.mpr ⟨fun q hq => ?_, ih hrest⟩
    have := hrest.le.2 q hq
    omega

/-- A length byte of less than 128 leads to the next descriptor. -/
theorem next_of_lt (h : (mem p).toNat < 128) : next mem p = p + (mem p).toNat := by
  rw [next, BitVec.toInt_eq_toNat_of_lt (by omega)]

theorem configures_of_none (h : pass mem interface altsetting w = none) :
    w.Configures mem interface altsetting [] :=
  ⟨w, .refl, h, (List.append_nil _).symm, rfl⟩

theorem configures_of_pass {w₁ : Walk} {l l' : List (ℤ × Option ℤ)}
    (hpass : pass mem interface altsetting w = some w₁)
    (hconfigured : w₁.configured = w.configured ++ l) (heps : w₁.eps = record mem w.eps l)
    (h : w₁.Configures mem interface altsetting l') :
    w.Configures mem interface altsetting (l ++ l') := by
  obtain ⟨w', hreach, hend, hconfigured', heps'⟩ := h
  refine ⟨w', .head hpass hreach, hend, ?_, ?_⟩
  · rw [hconfigured', hconfigured, List.append_assoc]
  · rw [heps', heps, record, record, record, List.foldl_append]

/-- Behind an interface that was asked for, the walk is the scan of the list. -/
theorem configures_config (hw : w.returned = false) (hstate : w.state = .config)
    (hps : Descriptors mem w.i ps)
    (hshort : ∀ p ∈ ps, (mem p).toNat < 128 ∨
      0 ≤ altsetting ∧ ∃ q ∈ ps, bDescriptorType mem q = usbDtInterface ∧ q ≤ p) :
    w.Configures mem interface altsetting
      (scan mem interface altsetting .config w.current ps) := by
  induction ps generalizing w with
  | nil => exact configures_of_none (pass_of_le (le_of_eq hps.symm))
  | cons p ps ih =>
    have hlater := List.pairwise_cons.mp hps.pairwise
    obtain ⟨rfl, hlen, hrest⟩ := hps
    have htotal : w.i < wTotalLength mem := by
      have := hrest.le.1
      omega
    have hpass := pass_eq_config interface altsetting hw htotal hstate
    -- the next descriptor is found, and what is assumed of the descriptors is true of the others
    have hon : ¬ (bDescriptorType mem w.i = usbDtInterface ∧ 0 ≤ altsetting) →
        Descriptors mem (next mem w.i) ps ∧ ∀ p ∈ ps, (mem p).toNat < 128 ∨
          0 ≤ altsetting ∧ ∃ q ∈ ps, bDescriptorType mem q = usbDtInterface ∧ q ≤ p := by
      intro hlast
      have hlt : (mem w.i).toNat < 128 := by
        rcases hshort w.i List.mem_cons_self with hlt | ⟨halt, q, hq, hintf, hle⟩
        · exact hlt
        · rcases List.mem_cons.mp hq with rfl | hq
          · exact absurd ⟨hintf, halt⟩ hlast
          · exact absurd (hlater.1 q hq) (not_lt.mpr hle)
      refine ⟨by rwa [next_of_lt hlt], fun p hp => ?_⟩
      rcases hshort p (List.mem_cons_of_mem _ hp) with hlt | ⟨halt, q, hq, hintf, hle⟩
      · exact .inl hlt
      · rcases List.mem_cons.mp hq with rfl | hq
        · exact absurd ⟨hintf, halt⟩ hlast
        · exact .inr ⟨halt, q, hq, hintf, hle⟩
    rw [scan]
    by_cases hendpoint : bDescriptorType mem w.i = usbDtEndpoint
    · obtain ⟨hnext, hshort'⟩ := hon fun h => absurd (hendpoint.symm.trans h.1) (by decide)
      rw [if_pos hendpoint] at hpass ⊢
      exact configures_of_pass (l := [_]) hpass rfl rfl (ih hw hstate hnext hshort')
    rw [if_neg hendpoint] at hpass ⊢
    by_cases hintf : bDescriptorType mem w.i = usbDtInterface
    · rw [if_neg (not_not.mpr hintf)] at hpass ⊢
      by_cases halt : 0 ≤ altsetting
      · rw [if_pos halt] at hpass ⊢
        exact configures_of_pass (l := []) hpass (List.append_nil _).symm rfl
          (configures_of_none (pass_of_returned rfl))
      · obtain ⟨hnext, hshort'⟩ := hon fun h => halt h.2
        rw [if_neg halt] at hpass ⊢
        rw [Walk.seek] at hpass
        by_cases hasked : Asked mem interface altsetting w.i
        · rw [if_pos hasked] at hpass ⊢
          exact configures_of_pass (l := []) hpass (List.append_nil _).symm rfl
            (ih hw rfl hnext hshort')
        · rw [if_neg hasked] at hpass ⊢
          exact configures_of_pass (l := []) hpass (List.append_nil _).symm rfl
            (ih hw hstate hnext hshort')
    · obtain ⟨hnext, hshort'⟩ := hon fun h => hintf h.1
      rw [if_pos hintf] at hpass ⊢
      exact configures_of_pass (l := []) hpass (List.append_nil _).symm rfl
        (ih hw hstate hnext hshort')

/-- The walk is the scan of the list. -/
theorem configures_seek (hw : w.returned = false) (hstate : w.state = .seek)
    (hps : Descriptors mem w.i ps) (hshort : Short mem interface altsetting ps) :
    w.Configures mem interface altsetting
      (scan mem interface altsetting .seek w.current ps) := by
  induction ps generalizing w with
  | nil => exact configures_of_none (pass_of_le (le_of_eq hps.symm))
  | cons p ps ih =>
    have hlater := List.pairwise_cons.mp hps.pairwise
    obtain ⟨rfl, hlen, hrest⟩ := hps
    have htotal : w.i < wTotalLength mem := by
      have := hrest.le.1
      omega
    have hlt : (mem w.i).toNat < 128 := by
      rcases hshort w.i List.mem_cons_self with hlt | ⟨-, a, ha, q, hq, -, -, hlt, hle⟩
      · exact hlt
      · rcases List.mem_cons.mp ha with rfl | ha
        · exact absurd hlt (not_lt.mpr hle)
        · exact absurd ((hlater.1 a ha).trans hlt) (not_lt.mpr hle)
    have hnext : Descriptors mem (next mem w.i) ps := by rwa [next_of_lt hlt]
    rw [scan]
    by_cases hasked : Asked mem interface altsetting w.i
    · rw [if_pos hasked]
      have hpass := pass_eq_seek interface altsetting hw htotal hstate
      rw [Walk.seek, if_pos hasked] at hpass
      refine configures_of_pass (l := []) hpass (List.append_nil _).symm rfl
        (configures_config hw rfl hnext fun p hp => ?_)
      rcases hshort p (List.mem_cons_of_mem _ hp) with
        hlt | ⟨halt, a, ha, q, hq, -, hintf, hq', hle⟩
      · exact .inl hlt
      · refine .inr ⟨halt, q, ?_, hintf, hle⟩
        rcases List.mem_cons.mp hq with rfl | hq
        · rcases List.mem_cons.mp ha with rfl | ha
          · exact absurd hq' (lt_irrefl _)
          · exact absurd (hlater.1 a ha) hq'.not_gt
        · exact hq
    · rw [if_neg hasked]
      refine configures_of_pass (l := []) (pass_seek ⟨rfl, hstate, hw⟩ htotal hasked)
        (List.append_nil _).symm rfl (ih hw hstate hnext fun p hp => ?_)
      rcases hshort p (List.mem_cons_of_mem _ hp) with
        hlt | ⟨halt, a, ha, q, hq, ha', hintf, hq', hle⟩
      · exact .inl hlt
      · rcases List.mem_cons.mp ha with rfl | ha
        · exact absurd ha' hasked
        · rcases List.mem_cons.mp hq with rfl | hq
          · exact absurd (hlater.1 a ha) hq'.not_gt
          · exact .inr ⟨halt, a, ha, q, hq, ha', hintf, hq', hle⟩

end Walk

/-! ### What is configured and what is to be configured -/

/-- No descriptor that was asked for comes before this one. -/
def NoneBefore (mem : ℤ → Byte) (interface altsetting : ℤ) (ps : List ℤ) (intf : ℤ) : Prop :=
  ∀ q ∈ ps, Asked mem interface altsetting q → intf ≤ q

/-- For one alternate setting: this is not another descriptor with the numbers of the one that was
asked for. For all interfaces: this is the first descriptor of the interface in the argument, or it
comes before that and is not the first one of another interface. -/
def Unmistaken (mem : ℤ → Byte) (interface altsetting : ℤ) (ps : List ℤ) (intf : ℤ) : Prop :=
  if altsetting < 0 then
    NoneBefore mem interface altsetting ps intf ∧
      (IsFirst mem ps intf → Asked mem interface altsetting intf)
  else Asked mem interface altsetting intf → NoneBefore mem interface altsetting ps intf

section Compare

variable {mem : ℤ → Byte} {interface altsetting : ℤ} {all ps : List ℤ} {p c intf : ℤ}
variable {owner current : Option ℤ} {state : EpState} {e : ℤ × Option ℤ}

theorem mem_of_mem_scan (h : e ∈ scan mem interface altsetting state current ps) : e.1 ∈ ps := by
  fun_induction scan mem interface altsetting state current ps <;> grind

theorem of_mem_endpoints (h : e ∈ endpoints mem owner ps) :
    e.1 ∈ ps ∧ (e.2 = owner ∨ ∃ intf ∈ ps, e.2 = some intf) := by
  fun_induction endpoints mem owner ps <;> grind

/-- What is configured is right if and only if no endpoint has an interface that is mistaken. -/
def Agrees (mem : ℤ → Byte) (interface altsetting : ℤ) (all : List ℤ) (state : EpState)
    (current owner : Option ℤ) (ps : List ℤ) : Prop :=
  scan mem interface altsetting state current ps =
      (endpoints mem owner ps).filter (fun e => Wanted mem interface altsetting all e.2) ↔
    ∀ e ∈ endpoints mem owner ps, ∀ i, e.2 = some i → Unmistaken mem interface altsetting all i

/-- The first descriptor of an interface, when all its alternate settings were asked for. -/
theorem isFirst_iff (halt : altsetting < 0) (h : Asked mem interface altsetting intf) :
    IsFirst mem all intf ↔ NoneBefore mem interface altsetting all intf := by
  obtain ⟨-, hnumber, -⟩ := h
  refine ⟨fun hfirst q hq hasked => hfirst q hq hasked.1 ?_, fun hnone q hq hintf heq => ?_⟩
  · exact BitVec.eq_of_toNat_eq (by have := hasked.2.1; omega)
  · exact hnone q hq ⟨hintf, by rw [heq, hnumber], .inl halt⟩

variable (all) in
/-- An endpoint that is left out. -/
theorem wanted_iff_of_not_asked (h : ¬ Asked mem interface altsetting intf)
    (hnone : NoneBefore mem interface altsetting all intf) :
    Wanted mem interface altsetting all (some intf) ↔
      ¬ Unmistaken mem interface altsetting all intf := by
  rw [Wanted, Unmistaken]
  split
  · exact ⟨fun hfirst hun => h (hun.2 hfirst), fun hun => by
      by_contra hfirst
      exact hun ⟨hnone, fun hf => absurd hf hfirst⟩⟩
  · exact ⟨fun hasked => absurd hasked h, fun hun => absurd (fun _ => hnone) hun⟩

/-- A list does not begin with a descriptor that is not in it. -/
theorem scan_ne_cons {x : Option ℤ} {l : List (ℤ × Option ℤ)} (hs : (p :: ps).Pairwise (· < ·)) :
    scan mem interface altsetting state current ps ≠ (p, x) :: l := by
  intro h
  have hmem : p ∈ ps := mem_of_mem_scan (e := (p, x)) (h ▸ List.mem_cons_self)
  exact lt_irrefl p ((List.pairwise_cons.mp hs).1 p hmem)

theorem endpoints_ne_cons {x : Option ℤ} {l : List (ℤ × Option ℤ)} {P : ℤ × Option ℤ → Bool}
    (hs : (p :: ps).Pairwise (· < ·)) : (p, x) :: l ≠ (endpoints mem owner ps).filter P := by
  intro h
  have hmem := (of_mem_endpoints (List.mem_filter.mp (h ▸ List.mem_cons_self)).1).1
  exact lt_irrefl p ((List.pairwise_cons.mp hs).1 p hmem)

/-- Every interface: behind a descriptor of the interface in the argument. -/
theorem agrees_config_all (halt : altsetting < 0) (hc : Asked mem interface altsetting c)
    (hall : c ∈ all) (hle : c ≤ intf) (hown : Asked mem interface altsetting intf → c = intf)
    (hsub : ∀ q ∈ ps, q ∈ all) (hs : (intf :: ps).Pairwise (· < ·)) :
    Agrees mem interface altsetting all .config (some c) (some intf) ps := by
  induction ps generalizing c intf with
  | nil => exact ⟨fun _ _ h => absurd h List.not_mem_nil, fun _ => rfl⟩
  | cons p ps ih =>
    obtain ⟨hlater, hs'⟩ := List.pairwise_cons.mp hs
    have hsub' := fun q hq => hsub q (List.mem_cons_of_mem p hq)
    rw [Agrees, scan, endpoints]
    by_cases hintf : bDescriptorType mem p = usbDtInterface
    · rw [if_neg (by rw [hintf]; decide), if_neg (not_not.mpr hintf), if_neg (not_le.mpr halt),
        if_pos hintf]
      by_cases hasked : Asked mem interface altsetting p
      · rw [if_pos hasked]
        exact ih hasked (hsub p List.mem_cons_self) le_rfl (fun _ => rfl) hsub' hs'
      · rw [if_neg hasked]
        exact ih hc hall (hle.trans (hlater p List.mem_cons_self).le) (fun h => absurd h hasked)
          hsub' hs'
    rw [if_pos hintf, if_neg hintf]
    have hrest := ih hc hall hle hown hsub' (hs.sublist (by simp))
    by_cases hendpoint : bDescriptorType mem p = usbDtEndpoint
    · rw [if_pos hendpoint, if_pos hendpoint, List.filter_cons, List.forall_mem_cons]
      dsimp only
      by_cases hfirst : IsFirst mem all intf
      · -- the walk has the endpoint, and has it right if this is its interface
        have hwanted : Wanted mem interface altsetting all (some intf) := by
          rwa [Wanted, if_pos halt]
        rw [if_pos (decide_eq_true hwanted), List.cons.injEq, Prod.mk.injEq, Option.some.injEq]
        refine and_congr ⟨fun heq i hi => ?_, fun h => ?_⟩ hrest
        · obtain rfl := Option.some.inj hi
          obtain rfl := heq.2
          rw [Unmistaken, if_pos halt]
          exact ⟨(isFirst_iff halt hc).mp hfirst, fun _ => hc⟩
        · have hun := h intf rfl
          rw [Unmistaken, if_pos halt] at hun
          exact ⟨rfl, hown (hun.2 hfirst)⟩
      · -- the walk has the endpoint, and should not have it
        have hwanted : ¬ Wanted mem interface altsetting all (some intf) := by
          rwa [Wanted, if_pos halt]
        rw [if_neg (by simpa using hwanted)]
        refine ⟨fun heq => absurd heq (endpoints_ne_cons hs'), fun h => ?_⟩
        have hun := h.1 intf rfl
        rw [Unmistaken, if_pos halt] at hun
        obtain rfl := le_antisymm hle (hun.1 c hall hc)
        exact absurd ((isFirst_iff halt hc).mpr hun.1) hfirst
    · rw [if_neg hendpoint, if_neg hendpoint]
      exact hrest

/-- One alternate setting: behind its descriptor. -/
theorem agrees_config_one (halt : 0 ≤ altsetting) (hc : Asked mem interface altsetting c)
    (hall : c ∈ all) (hfirst : NoneBefore mem interface altsetting all c)
    (hs : (c :: ps).Pairwise (· < ·)) :
    Agrees mem interface altsetting all .config (some c) (some c) ps := by
  induction ps with
  | nil => exact ⟨fun _ _ h => absurd h List.not_mem_nil, fun _ => rfl⟩
  | cons p ps ih =>
    obtain ⟨hlater, hs'⟩ := List.pairwise_cons.mp hs
    rw [Agrees, scan, endpoints]
    by_cases hintf : bDescriptorType mem p = usbDtInterface
    · -- the walk returns here
      rw [if_neg (by rw [hintf]; decide), if_neg (not_not.mpr hintf), if_pos halt, if_pos hintf,
        eq_comm, List.filter_eq_nil_iff]
      refine forall₂_congr fun e he => ?_
      obtain ⟨i, hi, hci⟩ : ∃ i, e.2 = some i ∧ c < i := by
        rcases (of_mem_endpoints he).2 with hi | ⟨i, hi, heq⟩
        · exact ⟨p, hi, hlater p List.mem_cons_self⟩
        · exact ⟨i, heq, hlater i (List.mem_cons_of_mem p hi)⟩
      rw [decide_eq_true_iff, hi, Wanted, if_neg (not_lt.mpr halt)]
      refine ⟨fun hno j hj => ?_, fun hun hasked => ?_⟩
      · obtain rfl := Option.some.inj hj
        rw [Unmistaken, if_neg (not_lt.mpr halt)]
        exact fun hasked => absurd hasked hno
      · have hun := hun i rfl
        rw [Unmistaken, if_neg (not_lt.mpr halt)] at hun
        exact absurd (hun hasked c hall hc) (not_le.mpr hci)
    rw [if_pos hintf, if_neg hintf]
    have hrest := ih (hs.sublist (by simp))
    by_cases hendpoint : bDescriptorType mem p = usbDtEndpoint
    · have hwanted : Wanted mem interface altsetting all (some c) := by
        rwa [Wanted, if_neg (not_lt.mpr halt)]
      rw [if_pos hendpoint, if_pos hendpoint, List.filter_cons, List.forall_mem_cons,
        if_pos (decide_eq_true hwanted), List.cons_inj_right]
      refine hrest.trans (and_iff_right fun i hi => ?_).symm
      obtain rfl := Option.some.inj hi
      rw [Unmistaken, if_neg (not_lt.mpr halt)]
      exact fun _ => hfirst
    · rw [if_neg hendpoint, if_neg hendpoint]
      exact hrest

/-- Before the first descriptor that was asked for. -/
theorem agrees_seek (howner : ∀ i, owner = some i → ¬ Asked mem interface altsetting i ∧
      ∀ q ∈ ps, i < q) (hsub : ∀ q ∈ ps, q ∈ all)
    (hall : ∀ q ∈ all, Asked mem interface altsetting q → q ∈ ps) (hs : ps.Pairwise (· < ·)) :
    Agrees mem interface altsetting all .seek current owner ps := by
  induction ps generalizing owner with
  | nil => exact ⟨fun _ _ h => absurd h List.not_mem_nil, fun _ => rfl⟩
  | cons p ps ih =>
    obtain ⟨hlater, hs'⟩ := List.pairwise_cons.mp hs
    have hsub' := fun q hq => hsub q (List.mem_cons_of_mem p hq)
    rw [Agrees, scan, endpoints]
    by_cases hasked : Asked mem interface altsetting p
    · have hmem := hsub p List.mem_cons_self
      rw [if_pos hasked, if_pos hasked.1]
      by_cases halt : altsetting < 0
      · exact agrees_config_all halt hasked hmem le_rfl (fun _ => rfl) hsub' hs
      · refine agrees_config_one (not_lt.mp halt) hasked hmem (fun q hq hq' => ?_) hs
        rcases List.mem_cons.mp (hall q hq hq') with rfl | hq
        · exact le_rfl
        · exact (hlater q hq).le
    have hall' : ∀ q ∈ all, Asked mem interface altsetting q → q ∈ ps := fun q hq hq' =>
      (List.mem_cons.mp (hall q hq hq')).resolve_left fun heq => hasked (heq ▸ hq')
    have howner' : ∀ i, owner = some i → ¬ Asked mem interface altsetting i ∧ ∀ q ∈ ps, i < q :=
      fun i hi => ⟨(howner i hi).1, fun q hq => (howner i hi).2 q (List.mem_cons_of_mem p hq)⟩
    rw [if_neg hasked]
    by_cases hintf : bDescriptorType mem p = usbDtInterface
    · rw [if_pos hintf]
      refine ih (fun i hi => ?_) hsub' hall' hs'
      obtain rfl := Option.some.inj hi
      exact ⟨hasked, hlater⟩
    rw [if_neg hintf]
    have hrest := ih howner' hsub' hall' hs'
    by_cases hendpoint : bDescriptorType mem p = usbDtEndpoint
    · rw [if_pos hendpoint, List.filter_cons, List.forall_mem_cons]
      dsimp only
      cases owner with
      | none =>
        rw [if_neg (by rw [decide_eq_true_iff]; exact id)]
        exact hrest.trans (and_iff_right nofun).symm
      | some intf =>
        obtain ⟨hno, hbefore⟩ := howner' intf rfl
        have hiff := wanted_iff_of_not_asked all hno
          fun q hq hq' => (hbefore q (hall' q hq hq')).le
        by_cases hwanted : Wanted mem interface altsetting all (some intf)
        · rw [if_pos (decide_eq_true hwanted)]
          exact ⟨fun heq => absurd heq (scan_ne_cons hs), fun h =>
            absurd (h.1 intf rfl) (hiff.mp hwanted)⟩
        · rw [if_neg (by simpa using hwanted)]
          refine hrest.trans (and_iff_right fun i hi => ?_).symm
          obtain rfl := Option.some.inj hi
          exact not_not.mp fun hun => hwanted (hiff.mpr hun)
    · rw [if_neg hendpoint]
      exact hrest

end Compare

/-! ### `ep_config` -/

section Configures

variable {mem : ℤ → Byte} {interface altsetting : ℤ} {ps : List ℤ} {eps : ℕ → Ep}

/-- The loop configures the endpoints of one list. -/
theorem eq_of_configures {l l' : List (ℤ × Option ℤ)}
    (h : (Walk.start eps).Configures mem interface altsetting l)
    (h' : (Walk.start eps).Configures mem interface altsetting l') : l = l' := by
  obtain ⟨w, hw, hend, hl, -⟩ := h
  obtain ⟨w', hw', hend', hl', -⟩ := h'
  obtain rfl := Loop.eq_of_ends hw hend hw' hend'
  exact List.append_cancel_left (hl.symm.trans hl')

theorem configures_scan (hps : Descriptors mem configSize ps)
    (hshort : Short mem interface altsetting ps) :
    (Walk.start eps).Configures mem interface altsetting
      (scan mem interface altsetting .seek none ps) :=
  configures_seek rfl rfl hps hshort

/-- Among short descriptors, what is configured is right if no interface is mistaken. -/
theorem configures_wanted_iff (hps : Descriptors mem configSize ps)
    (hshort : Short mem interface altsetting ps) :
    (Walk.start eps).Configures mem interface altsetting (wanted mem interface altsetting ps) ↔
      ∀ e ∈ endpoints mem none ps, ∀ i, e.2 = some i →
        Unmistaken mem interface altsetting ps i := by
  have hagrees : Agrees mem interface altsetting ps .seek none none ps :=
    agrees_seek nofun (fun _ => id) (fun _ hq _ => hq) hps.pairwise
  refine Iff.trans ⟨fun h => ?_, fun heq => ?_⟩ hagrees
  · exact eq_of_configures (configures_scan hps hshort) h
  · rw [wanted, ← heq]
    exact configures_scan hps hshort

/-- An alternate setting that is there once is not mistaken. -/
theorem unmistaken_of_unique (halt : 0 ≤ altsetting)
    (hunique : ∀ a ∈ ps, ∀ b ∈ ps, Asked mem interface altsetting a →
      Asked mem interface altsetting b → a = b) {e : ℤ × Option ℤ} (he : e ∈ endpoints mem none ps)
    {i : ℤ} (hi : e.2 = some i) : Unmistaken mem interface altsetting ps i := by
  rw [Unmistaken, if_neg (not_lt.mpr halt)]
  intro hasked q hq hq'
  rcases (of_mem_endpoints he).2 with hnone | ⟨j, hj, hsome⟩
  · exact absurd (hnone.symm.trans hi) nofun
  · obtain rfl := Option.some.inj (hsome.symm.trans hi)
    exact (hunique j hj q hq hasked hq').le

/-- Among short descriptors, an alternate setting that is there once is configured right. -/
theorem configures_wanted_of_unique (hps : Descriptors mem configSize ps)
    (hshort : Short mem interface altsetting ps) (halt : 0 ≤ altsetting)
    (hunique : ∀ a ∈ ps, ∀ b ∈ ps, Asked mem interface altsetting a →
      Asked mem interface altsetting b → a = b) :
    (Walk.start eps).Configures mem interface altsetting (wanted mem interface altsetting ps) :=
  (configures_wanted_iff hps hshort).mpr fun _ he _ hi => unmistaken_of_unique halt hunique he hi

end Configures

/-- **When `ep_config` configures what it is to configure.** It does for short descriptors if no
endpoint has an interface that is mistaken, and for short descriptors only then. -/
theorem epConfig_configures (mem : ℤ → Byte) (interface altsetting : ℤ) (eps : ℕ → Ep)
    {ps : List ℤ} (hps : Descriptors mem configSize ps) :
    (Short mem interface altsetting ps ∧
        (∀ e ∈ endpoints mem none ps, ∀ i, e.2 = some i →
          Unmistaken mem interface altsetting ps i) →
      (Walk.start eps).Configures mem interface altsetting (wanted mem interface altsetting ps)) ∧
    (Short mem interface altsetting ps →
      (Walk.start eps).Configures mem interface altsetting (wanted mem interface altsetting ps) →
        ∀ e ∈ endpoints mem none ps, ∀ i, e.2 = some i →
          Unmistaken mem interface altsetting ps i) :=
  ⟨fun h => (configures_wanted_iff hps h.1).mpr h.2,
    fun hshort => (configures_wanted_iff hps hshort).mp⟩

/-- A configuration with two interfaces of one endpoint each. -/
private def twoInterfaces (i : ℤ) : Byte :=
  [9, 2, 41, 0, 2, 1, 0, 0x80, 50,
    9, 4, 0, 0, 1, 0xff, 0, 0, 0,
    7, 5, 0x81, 2, 64, 0, 0,
    9, 4, 1, 0, 1, 0xff, 0, 0, 0,
    7, 5, 0x82, 2, 64, 0, 0].getD i.toNat 0

private theorem descriptors_twoInterfaces :
    Descriptors twoInterfaces configSize [9, 18, 25, 34] := by
  refine ⟨rfl, by decide, rfl, by decide, rfl, by decide, rfl, by decide, rfl⟩

private theorem short_twoInterfaces (interface altsetting : ℤ) :
    Short twoInterfaces interface altsetting [9, 18, 25, 34] :=
  fun p hp => .inl (by revert p; decide)

theorem epConfig_configures_second :
    (Walk.start fun _ => ⟨false, none, none⟩).Configures twoInterfaces 1 0 [(34, some 25)] := by
  have hwanted : wanted twoInterfaces 1 0 [9, 18, 25, 34] = [(34, some 25)] := by decide
  rw [← hwanted]
  exact (epConfig_configures twoInterfaces 1 0 _ descriptors_twoInterfaces).1
    ⟨short_twoInterfaces 1 0, fun e he i hi =>
      unmistaken_of_unique le_rfl (by decide) he hi⟩

/-- The endpoint of the second interface is configured as one of the first. -/
theorem not_configures_all :
    Descriptors twoInterfaces configSize [9, 18, 25, 34] ∧
    ¬ (Walk.start fun _ => ⟨false, none, none⟩).Configures twoInterfaces 0 (-1)
      (wanted twoInterfaces 0 (-1) [9, 18, 25, 34]) := by
  refine ⟨descriptors_twoInterfaces, fun h => ?_⟩
  exact absurd (eq_of_configures (configures_scan descriptors_twoInterfaces
    (short_twoInterfaces 0 (-1))) h) (by decide)

end Usbip.Gadget
