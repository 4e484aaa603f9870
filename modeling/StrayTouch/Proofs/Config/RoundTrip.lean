import StrayTouch.Proofs.Config

/-!
A configuration is read back from its document as it was, whatever it has been made from.
-/
namespace StrayTouch

namespace Value

theorem float_of_isFinite {x : Float} (h : Scalar.isFinite x = true) :
    float x = .atom (.float x) := by
  have hn : Binary64.isNaN x = false := by
    have hf : Binary64.isFinite x = true := h
    unfold Binary64.isFinite at hf
    unfold Binary64.isNaN
    cases hx : Binary64.form x <;> simp_all
  rw [float, Atom.ofFloat, hn]
  rfl

theorem toReal_float {x : Float} (h : Scalar.isFinite x = true) : (float x).toReal = .ok x := by
  rw [float_of_isFinite h]
  rfl

end Value

namespace Evaluator

/-- An evaluator that some table and some direction can be read as. -/
def Made (ev : Evaluator Float) : Prop :=
  ∃ table direction, ofTable table direction = .ok ev

theorem Made.sound {ev : Evaluator Float} (h : ev.Made) : ev.Sound := by
  obtain ⟨_, _, h⟩ := h
  exact sound_of_ofTable h

theorem readRow_written {row : Float × Float}
    (hf : Scalar.isFinite row.1 = true ∧ Scalar.isFinite row.2 = true)
    (hi : Scalar.lt row.2 Scalar.zero = false) :
    (Value.list [.float row.1, .float row.2]).readRow = .ok row := by
  have hn : (Value.list [.float row.1, .float row.2]).rowNumbers = .ok row := by
    simp [Value.rowNumbers, Value.items, readPair, Value.toReal_float hf.1,
      Value.toReal_float hf.2]
  exact readRow_eq_ok_iff.mpr ⟨hn, hf.1, hf.2, hi⟩

theorem readTable_written {ev : Evaluator Float} (h : ev.Sound) (feature : Name) :
    Settings.readTable feature (.written (Config.tableDocument ev)) = .ok ev := by
  have hrows : ofRows ev.direction (ev.rows.map fun row => .list [.float row.1, .float row.2]) =
      .ok ev := by
    refine ofRows_eq_ok_iff.mpr ⟨rfl, ?_, h.ordered⟩
    rw [List.forall₂_map_left_iff, List.forall₂_same]
    exact fun row hrow => readRow_written (h.finite row hrow) (h.increments row hrow)
  have hd : readDirection (.text ev.direction.name) = .ok ev.direction := by
    simp [readDirection, Value.text, Direction.ofName?_name]
  have ht : ofTable (.list (ev.rows.map fun row => .list [.float row.1, .float row.2]))
      (.text ev.direction.name) = .ok ev := by
    simp only [ofTable, hd, Value.items, Value.head_list, ok_bind, hrows]
  exact ht

end Evaluator

namespace Config

/-- The configurations that can be had: from settings, from a document, and at another density. A
table that stands ready in the settings or beside the document has been read before. -/
inductive Made : Config Float → Prop
  | settings {s : Settings Float} {c : Config Float}
      (hs : ∀ entries, s.tables = .given entries → ∀ name ev, (name, .built ev) ∈ entries → ev.Made)
      (h : build s = .ok c) : Made c
  | document {built : List (Name × Evaluator Float)} {v : Value} {c : Config Float}
      (hb : ∀ t ∈ built, t.2.Made) (h : ofDocument built v = .ok c) : Made c
  | density {c c' : Config Float} {dpi : Value} (hc : Made c) (h : c.withDpi dpi = .ok c') :
      Made c'

theorem sound_of_tablesOfValue {built : List (Name × Evaluator Float)}
    (hb : ∀ t ∈ built, t.2.Sound) {v : Value} {entries : List (Name × TableSource Float)}
    (h : TableSources.ofValue built v = .given entries) : ∀ t ∈ entries, t.2.Sound := by
  unfold TableSources.ofValue at h
  split at h
  next => cases h
  next sources _ =>
    obtain rfl := TableSources.given.inj h
    refine List.forall_mem_map.mpr fun e _ => ?_
    split
    next hg =>
      obtain ⟨_, _, hm⟩ := Keyed.mem_of_get? hg
      exact hb _ hm
    next => trivial
  next => cases h

theorem sound_of_ofDocument {built : List (Name × Evaluator Float)}
    (hb : ∀ t ∈ built, t.2.Sound) {document : Value} {s : Settings Float}
    (h : Settings.ofDocument built document = .ok s) : s.Sound := by
  obtain ⟨_, _, _, _, _, _, rfl⟩ := Settings.ofDocument_eq_ok h
  exact fun entries ht => sound_of_tablesOfValue hb ht

theorem sound_settingsAt {c : Config Float} (hc : c.Sound) (dpi : Value) :
    (c.settingsAt dpi).Sound := by
  intro entries ht
  obtain rfl := TableSources.given.inj ht
  exact List.forall_mem_map.mpr hc.tables

/-- However a configuration is had, it has been built from settings whose ready tables are
sound. -/
theorem Made.exists_build {c : Config Float} (h : c.Made) :
    ∃ s : Settings Float, s.Sound ∧ build s = .ok c := by
  induction h with
  | @settings s _ hs hc =>
    refine ⟨s, fun entries ht t hm => ?_, hc⟩
    obtain ⟨name, source⟩ := t
    cases source with
    | built ev => exact (hs entries ht name ev hm).sound
    | written v => trivial
  | @document built v c hb hc =>
    obtain ⟨s, hs, hc⟩ := bind_eq_ok_iff.mp hc
    exact ⟨s, sound_of_ofDocument (fun t ht => (hb t ht).sound) hs, hc⟩
  | @density c _ dpi _ hw ih =>
    obtain ⟨s, hs, hc⟩ := ih
    exact ⟨_, sound_settingsAt (sound_of_build defaultEvaluators_sound hs hc) dpi, hw⟩

theorem Made.sound {c : Config Float} (h : c.Made) : c.Sound := by
  obtain ⟨_, hs, hb⟩ := h.exists_build
  exact sound_of_build defaultEvaluators_sound hs hb

/-- The settings that the document of a configuration stands for. -/
def writtenSettings (c : Config Float) : Settings Float where
  dpi := .value (.float c.dpi)
  rejectThreshold := .value (.float c.rejectThreshold)
  tiePolicy := .text c.tiePolicy.name
  failurePolicy := .text c.failurePolicy.name
  tables := .given (c.tables.map fun t => (t.1, .written (tableDocument t.2)))

theorem settings_toDocument (c : Config Float) :
    Settings.ofDocument [] c.toDocument = .ok c.writtenSettings := by
  have ht : TableSources.ofValue [] (.map (c.tables.map fun t => (t.1, tableDocument t.2))) =
      c.writtenSettings.tables := by
    simp only [TableSources.ofValue, Value.head_map, Keyed.get?, List.map_map]
    rfl
  have hs : Settings.ofDocument [] c.toDocument =
      .ok { c.writtenSettings with
        tables := .ofValue [] (.map (c.tables.map fun t => (t.1, tableDocument t.2))) } := rfl
  rw [hs, ht]

theorem readNumber_float {x : Float} (h : Scalar.isFinite x = true) (setting : String)
    (standard : Float) : Settings.readNumber setting standard (.value (.float x)) = .ok x := by
  rw [Value.float_of_isFinite h]
  rfl

theorem readPolicy_tieName (policy : TiePolicy) :
    Settings.readPolicy "tie_policy" Settings.tieChoices .reject (.text policy.name) =
      .ok policy := by
  cases policy <;> rfl

theorem readPolicy_failureName (policy : FailurePolicy) :
    Settings.readPolicy "failure_policy" Settings.failureChoices .floor (.text policy.name) =
      .ok policy := by
  cases policy <;> rfl

theorem Sound.scalars_written {c : Config Float} (h : c.Sound) : c.writtenSettings.Scalars c where
  dpi := readNumber_float h.dpi_finite _ _
  rejectThreshold := readNumber_float h.threshold_finite _ _
  tiePolicy := readPolicy_tieName c.tiePolicy
  failurePolicy := readPolicy_failureName c.failurePolicy
  dpi_finite := h.dpi_finite
  dpi_positive := h.dpi_positive
  threshold_finite := h.threshold_finite

theorem readTables_written {s : Settings Float} {c : Config Float} (hb : build s = .ok c)
    (h : c.Sound) :
    Settings.readTables (merged (c.tables.map fun t => (t.1, .written (tableDocument t.2)))) =
      .ok c.tables := by
  rw [merged_of_build hb fun ev => .written (tableDocument ev), Settings.readTables_eq_ok_iff,
    List.forall₂_map_left_iff, List.forall₂_same]
  exact fun t ht => ⟨rfl, Evaluator.readTable_written (h.tables t ht) t.1⟩

/-- Every configuration that can be had is read back from its own document exactly as it is: with
its density, its threshold and its policies, and with the same tables under the same features in
the same order, so that it writes the same document again and decides every gesture alike. -/
theorem ofDocument_toDocument {c : Config Float} (h : c.Made) :
    ofDocument [] c.toDocument = .ok c := by
  obtain ⟨s, hs, hb⟩ := h.exists_build
  have hsound := sound_of_build defaultEvaluators_sound hs hb
  have htables := readTables_written hb hsound
  have hbuild : build c.writtenSettings = .ok c :=
    build_eq_ok_iff.mpr ⟨hsound.scalars_written, _, rfl, htables⟩
  rw [ofDocument, settings_toDocument, ok_bind, hbuild]

/-- Settings that read the speed from above and have an empty table ready for a feature of their
own. The threshold is the negative zero. -/
def turnedSpeed : Settings Float where
  dpi := .value (.int 320)
  rejectThreshold := .number (-0.0)
  tiePolicy := .text "accept"
  failurePolicy := .null
  tables := .given
    [(.text "speed", .written (.map
        [(.text "thresholds", .list [.list [.int 2, .int 1], .tuple [.float 1.5, .bool true]]),
          (.text "direction", .text "below")])),
      (.text "pressure", .built ⟨[], .above⟩)]

theorem exists_made_turnedSpeed : ∃ c : Config Float, build turnedSpeed = .ok c ∧ c.Made := by
  obtain ⟨c, hc⟩ : ∃ c, build turnedSpeed = .ok c := exists_of_isOk (by decide +kernel)
  refine ⟨c, hc, .settings ?_ hc⟩
  rintro entries ⟨⟩ name ev hm
  obtain ⟨_, rfl⟩ : name = .text "pressure" ∧ ev = ⟨[], .above⟩ := by simpa using hm
  exact ⟨.list [], .text "above", rfl⟩

theorem ofDocument_turnedSpeed :
    ∃ c : Config Float, build turnedSpeed = .ok c ∧ ofDocument [] c.toDocument = .ok c := by
  obtain ⟨c, hc, hmade⟩ := exists_made_turnedSpeed
  exact ⟨c, hc, ofDocument_toDocument hmade⟩

end Config

end StrayTouch
