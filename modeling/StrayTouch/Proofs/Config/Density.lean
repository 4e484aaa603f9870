import StrayTouch.Proofs.Config.RoundTrip
import StrayTouch.Proofs.Config.Steps

/-!
A configuration at another density. It is made anew from the settings of the old one, which all come
through as they are, so that nothing but the density changes and of several changes the last one
counts.
-/
namespace StrayTouch

/-- The density that a value stands for: the usual one where it is left out, or else the number that
it is read as, which is finite and above zero. -/
inductive Value.IsDensity : Value → Float → Prop
  | standard : IsDensity .null defaultDpi
  | number {v : Value} {dpi : Float} (hv : v.toReal = .ok dpi)
      (hfinite : Scalar.isFinite dpi = true) (hpositive : Scalar.lt Scalar.zero dpi = true) :
      IsDensity v dpi

theorem Value.isDensity_iff {v : Value} {dpi : Float} :
    v.IsDensity dpi ↔ (v = .null ∧ dpi = defaultDpi ∨ v.toReal = .ok dpi) ∧
      Scalar.isFinite dpi = true ∧ Scalar.lt Scalar.zero dpi = true := by
  constructor
  · intro h
    cases h with
    | standard => exact ⟨.inl ⟨rfl, rfl⟩, by decide +kernel⟩
    | number hv hfinite hpositive => exact ⟨.inr hv, hfinite, hpositive⟩
  · rintro ⟨⟨rfl, rfl⟩ | hv, hfinite, hpositive⟩
    · exact .standard
    · exact .number hv hfinite hpositive

/-- The state that steps leave, whether they come out or fail. -/
def Steps.leaves {σ β : Type} (m : Steps σ β) (s : σ) : σ :=
  match m.run s with
  | .ok _ after => after
  | .error _ after => after

namespace Settings

theorem readNumber_eq_ok_iff {setting : String} {standard x : Float} {v : Value} :
    readNumber setting standard (.value v) = .ok x ↔
      v = .null ∧ x = standard ∨ v.toReal = .ok x := by
  by_cases hv : v = .null
  · subst hv
    have hnone (y : Float) : (Value.null).toReal ≠ .ok y := by rintro ⟨⟩
    have hread : readNumber setting standard (.value .null) = .ok standard := rfl
    simp [hread, hnone, eq_comm]
  · have hnull : (Reading.value v : Reading Float).isNull = false := by
      rw [← Bool.not_eq_true]
      exact fun h => hv (Value.isNull_iff.mp h)
    have hreal : (Reading.value v : Reading Float).toReal = v.toReal := rfl
    rw [readNumber, hnull, hreal]
    cases v.toReal (α := Float) with
    | ok y => simp [hv]
    | error f =>
      cases hf : f.blamesRow <;> simp [hv, hf]

end Settings

namespace Config

theorem readTables_built {α : Type} [Scalar α] (tables : List (Name × Evaluator α)) :
    Settings.readTables (tables.map fun t => (t.1, .built t.2)) = .ok tables := by
  rw [Settings.readTables_eq_ok_iff, List.forall₂_map_left_iff, List.forall₂_same]
  exact fun t _ => ⟨rfl, rfl⟩

theorem Sound.scalars_settingsAt_iff {c c' : Config Float} (hc : c.Sound) {v : Value} :
    (c.settingsAt v).Scalars c' ↔ v.IsDensity c'.dpi ∧ c'.rejectThreshold = c.rejectThreshold ∧
      c'.tiePolicy = c.tiePolicy ∧ c'.failurePolicy = c.failurePolicy := by
  have hthreshold : Settings.readNumber "reject_threshold" defaultRejectThreshold
      (.number c.rejectThreshold) = .ok c.rejectThreshold := rfl
  constructor
  · intro h
    refine ⟨?_, ?_, ?_, ?_⟩
    · exact Value.isDensity_iff.mpr
        ⟨Settings.readNumber_eq_ok_iff.mp h.dpi, h.dpi_finite, h.dpi_positive⟩
    · exact Except.ok.inj (h.rejectThreshold.symm.trans hthreshold)
    · exact Except.ok.inj (h.tiePolicy.symm.trans (readPolicy_tieName c.tiePolicy))
    · exact Except.ok.inj (h.failurePolicy.symm.trans (readPolicy_failureName c.failurePolicy))
  · rintro ⟨hdpi, ht, htie, hfailure⟩
    obtain ⟨hread, hfinite, hpositive⟩ := Value.isDensity_iff.mp hdpi
    refine ⟨Settings.readNumber_eq_ok_iff.mpr hread, ?_, ?_, ?_, hfinite, hpositive, ?_⟩
    · rw [ht]
      exact hthreshold
    · rw [htie]
      exact readPolicy_tieName c.tiePolicy
    · rw [hfailure]
      exact readPolicy_failureName c.failurePolicy
    · rw [ht]
      exact hc.threshold_finite

/-- Another density is accepted exactly if the value stands for one, and then nothing else is
changed. -/
theorem withDpi_eq_ok_iff {s : Settings Float} {c c' : Config Float} (hs : s.Sound)
    (h : build s = .ok c) {v : Value} :
    c.withDpi v = .ok c' ↔ ∃ dpi, v.IsDensity dpi ∧ c' = { c with dpi := dpi } := by
  have hsound := sound_of_build defaultEvaluators_sound hs h
  have htables : Settings.readTables (merged (c.tables.map fun t => (t.1, .built t.2))) =
      .ok c.tables := by
    rw [merged_of_build h, readTables_built]
  constructor
  · intro hw
    obtain ⟨hscalars, entries, hsources, ht⟩ := build_eq_ok_iff.mp hw
    obtain ⟨hdpi, hthreshold, htie, hfailure⟩ := hsound.scalars_settingsAt_iff.mp hscalars
    obtain rfl := Except.ok.inj hsources
    have hkept : c'.tables = c.tables := Except.ok.inj (ht.symm.trans htables)
    refine ⟨c'.dpi, hdpi, ?_⟩
    rw [← hthreshold, ← htie, ← hfailure, ← hkept]
  · rintro ⟨dpi, hdpi, rfl⟩
    refine build_eq_ok_iff.mpr ⟨?_, _, rfl, htables⟩
    exact hsound.scalars_settingsAt_iff.mpr ⟨hdpi, rfl, rfl, rfl⟩

theorem Made.withDpi_eq_ok_iff {c c' : Config Float} (hc : c.Made) {v : Value} :
    c.withDpi v = .ok c' ↔ ∃ dpi, v.IsDensity dpi ∧ c' = { c with dpi := dpi } := by
  obtain ⟨s, hs, hb⟩ := hc.exists_build
  exact Config.withDpi_eq_ok_iff hs hb

/-- A density that has been set makes no difference to the next one. -/
theorem Made.withDpi_of_withDpi {c c₁ c' : Config Float} (hc : c.Made) {v w : Value}
    (hw : c.withDpi w = .ok c₁) : c₁.withDpi v = .ok c' ↔ c.withDpi v = .ok c' := by
  have h₁ : c₁.Made := .density hc hw
  rw [h₁.withDpi_eq_ok_iff, hc.withDpi_eq_ok_iff]
  obtain ⟨_, _, rfl⟩ := hc.withDpi_eq_ok_iff.mp hw
  rfl

theorem Made.foldlM_withDpi_eq_ok_iff {c c' : Config Float} (hc : c.Made) {vs : List Value}
    {v : Value} : (vs ++ [v]).foldlM withDpi c = .ok c' ↔
      (∀ w ∈ vs, ∃ dpi, w.IsDensity dpi) ∧ c.withDpi v = .ok c' := by
  -- a configuration at another density is again one that can be had, and the chain goes on from it
  induction vs generalizing c with
  | nil =>
    rw [List.nil_append, List.foldlM_cons, bind_eq_ok_iff]
    constructor
    · rintro ⟨last, hlast, h⟩
      obtain rfl := Except.ok.inj h
      exact ⟨List.forall_mem_nil _, hlast⟩
    · rintro ⟨_, h⟩
      exact ⟨c', h, rfl⟩
  | cons w vs ih =>
    rw [List.cons_append, List.foldlM_cons, bind_eq_ok_iff, List.forall_mem_cons, and_assoc]
    constructor
    · rintro ⟨c₁, hw, h⟩
      obtain ⟨hrest, hv⟩ := (ih (.density hc hw)).mp h
      obtain ⟨dpi, hdpi, _⟩ := hc.withDpi_eq_ok_iff.mp hw
      exact ⟨⟨dpi, hdpi⟩, hrest, (hc.withDpi_of_withDpi hw).mp hv⟩
    · rintro ⟨⟨dpi, hdpi⟩, hrest, hv⟩
      have hw := hc.withDpi_eq_ok_iff.mpr ⟨dpi, hdpi, rfl⟩
      exact ⟨_, hw, (ih (.density hc hw)).mpr ⟨hrest, (hc.withDpi_of_withDpi hw).mpr hv⟩⟩

theorem Sound.isDensity_dpi {c : Config Float} (hc : c.Sound) :
    (Value.float c.dpi).IsDensity c.dpi :=
  .number (Value.toReal_float hc.dpi_finite) hc.dpi_finite hc.dpi_positive

theorem Ends.prefix_leaves {α : Type} {shelf : Shelf α} {m : Steps (Shelf α) (Placed α)}
    {x : Except Fault (Config α)} (h : Ends shelf (m.run shelf) x) : shelf <+: m.leaves shelf := by
  unfold Steps.leaves
  generalize m.run shelf = r at h
  cases h with
  | made hkept _ _ => exact hkept
  | refused hkept => exact hkept

/-- A configuration at another density is to be had exactly if the value stands for one, and it is
the old one but for its density; of several densities set one after another the last one counts, and
with its own density a configuration is given back. The steps by which it is made leave the old one
as it was, whether they come out or fail. -/
theorem withDpi_changes_density_alone {c : Config Float} (hc : c.Made) :
    (∀ (v : Value) (c' : Config Float),
      c.withDpi v = .ok c' ↔ ∃ dpi, v.IsDensity dpi ∧ c' = { c with dpi := dpi }) ∧
    (∀ (vs : List Value) (v : Value) (c' : Config Float),
      (vs ++ [v]).foldlM withDpi c = .ok c' ↔
        (∀ w ∈ vs, ∃ dpi, w.IsDensity dpi) ∧ c.withDpi v = .ok c') ∧
    c.withDpi (.float c.dpi) = .ok c ∧
    ∀ (shelf : Shelf Float) (p : Placed Float) (v : Value), Shelf.start <+: shelf →
      p.Shows shelf c → Ends shelf ((p.withDpi v).run shelf) (c.withDpi v) ∧
        p.Shows ((p.withDpi v).leaves shelf) c := by
  refine ⟨?_, ?_, ?_, ?_⟩
  · exact fun v c' => hc.withDpi_eq_ok_iff
  · exact fun vs v c' => hc.foldlM_withDpi_eq_ok_iff
  · exact hc.withDpi_eq_ok_iff.mpr ⟨c.dpi, hc.sound.isDensity_dpi, rfl⟩
  · intro shelf p v hshelf hp
    have hends := Placed.withDpi_ends hshelf hp v
    exact ⟨hends, hp.mono hends.prefix_leaves⟩

/-- At the usual density, at none, at some after each other and at its own. -/
theorem withDpi_turnedSpeed :
    ∃ c : Config Float, build turnedSpeed = .ok c ∧
      c.withDpi .null = .ok { c with dpi := defaultDpi } ∧
      (∀ c', c.withDpi (.int 0) ≠ .ok c') ∧
      ([.text " 4.2e2 ", .bool true, .null] : List Value).foldlM withDpi c =
        .ok { c with dpi := defaultDpi } ∧
      c.withDpi (.float c.dpi) = .ok c ∧
      ∃ (shelf : Shelf Float) (p : Placed Float), p.Shows shelf c ∧
        p.Shows ((p.withDpi (.int 0)).leaves shelf) c := by
  obtain ⟨c, hc, hmade⟩ := exists_made_turnedSpeed
  obtain ⟨honly, hlast, hown, hkept⟩ := withDpi_changes_density_alone hmade
  obtain ⟨shelf, p, hshelf, hp⟩ := exists_shows_of_build hc
  have hnull : c.withDpi .null = .ok { c with dpi := defaultDpi } :=
    (honly _ _).mpr ⟨_, .standard, rfl⟩
  refine ⟨c, hc, hnull, ?_, ?_, hown, shelf, p, hp, (hkept shelf p (.int 0) hshelf hp).2⟩
  · intro c' h
    obtain ⟨dpi, hdpi, _⟩ := (honly _ _).mp h
    cases hdpi with
    | number hv _ hpositive =>
      have hzero : (Value.int 0).toReal = .ok (0.0 : Float) := eq_ok_of_toOption (by decide +kernel)
      obtain rfl : 0.0 = dpi := Except.ok.inj (hzero.symm.trans hv)
      revert hpositive
      decide +kernel
  · have htext : (Value.text " 4.2e2 ").toReal = .ok (420.0 : Float) :=
      eq_ok_of_toOption (by decide +kernel)
    have hbool : (Value.bool true).toReal = .ok (1.0 : Float) :=
      eq_ok_of_toOption (by decide +kernel)
    refine (hlast [.text " 4.2e2 ", .bool true] .null _).mpr ⟨?_, hnull⟩
    simp only [List.forall_mem_cons, List.not_mem_nil, IsEmpty.forall_iff, implies_true, and_true]
    exact ⟨⟨_, .number htext (by decide +kernel) (by decide +kernel)⟩,
      ⟨_, .number hbool (by decide +kernel) (by decide +kernel)⟩⟩

end Config

end StrayTouch
