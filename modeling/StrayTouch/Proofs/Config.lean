import StrayTouch.Config.Document
import StrayTouch.Proofs.Document.Name
import StrayTouch.Proofs.Evaluator
import StrayTouch.Proofs.Keyed

/-!
What a configuration that has been built guarantees: its density and its threshold are finite, all
its tables are sound, and none of the default features has lost its table.
-/
namespace StrayTouch

variable {α : Type} [Scalar α]

/-- A table that stands ready is sound; one that is still to be read need not be. -/
def TableSource.Sound : TableSource α → Prop
  | .built ev => ev.Sound
  | .written _ => True

/-- What the source of a table gives: the evaluator that stands ready, the thresholds of a mapping in
the direction that it names, upwards if it names none, or those of a list or a tuple, upwards. -/
inductive TableSource.Gives : TableSource α → Evaluator α → Prop
  | built (ev : Evaluator α) : Gives (.built ev) ev
  | mapping {v thresholds : Value} {entries : List (Name × Value)} {ev : Evaluator α}
      (hv : v.head = .map entries) (ht : v.field? "thresholds" = some thresholds)
      (h : Evaluator.ofTable thresholds ((v.field? "direction").getD (.text "above")) = .ok ev) :
      Gives (.written v) ev
  | rows {v : Value} {rows : List Value} {ev : Evaluator α}
      (hv : v.head = .list rows ∨ v.head = .tuple rows)
      (h : Evaluator.ofTable v (.text "above") = .ok ev) : Gives (.written v) ev

def Settings.Sound (s : Settings α) : Prop :=
  ∀ entries, s.tables = .given entries → ∀ t ∈ entries, t.2.Sound

/-- Settings of which all are left out. -/
def Settings.unset : Settings α :=
  ⟨.value .null, .value .null, .null, .null, .absent⟩

/-- The numbers and the policies of a configuration are those that some settings stand for, and the
numbers are within their ranges. -/
structure Settings.Scalars (s : Settings α) (c : Config α) : Prop where
  dpi : readNumber "dpi" defaultDpi s.dpi = .ok c.dpi
  rejectThreshold : readNumber "reject_threshold" defaultRejectThreshold s.rejectThreshold =
    .ok c.rejectThreshold
  tiePolicy : readPolicy "tie_policy" tieChoices .reject s.tiePolicy = .ok c.tiePolicy
  failurePolicy : readPolicy "failure_policy" failureChoices .floor s.failurePolicy =
    .ok c.failurePolicy
  dpi_finite : Scalar.isFinite c.dpi = true
  dpi_positive : Scalar.lt Scalar.zero c.dpi = true
  threshold_finite : Scalar.isFinite c.rejectThreshold = true

structure Config.Sound (c : Config α) : Prop where
  dpi_finite : Scalar.isFinite c.dpi = true
  dpi_positive : Scalar.lt Scalar.zero c.dpi = true
  threshold_finite : Scalar.isFinite c.rejectThreshold = true
  tables : ∀ t ∈ c.tables, t.2.Sound

namespace Settings

theorem readTable_eq_ok_iff {feature : Name} {source : TableSource α} {ev : Evaluator α} :
    readTable feature source = .ok ev ↔ source.Gives ev := by
  constructor
  · intro h
    unfold readTable at h
    split at h
    next ready =>
      obtain rfl := Except.ok.inj h
      exact .built ready
    next v =>
      split at h
      next hv =>
        split at h
        next => cases h
        next ht => exact .mapping hv ht h
      next hv => exact .rows (.inl hv) h
      next hv => exact .rows (.inr hv) h
      next => cases h
  · intro h
    cases h with
    | built => rfl
    | mapping hv ht h =>
      simp only [readTable, hv, ht]
      exact h
    | rows hv h =>
      rcases hv with hv | hv
      · simp only [readTable, hv]
        exact h
      · simp only [readTable, hv]
        exact h

theorem gives_unique {source : TableSource α} {ev other : Evaluator α} (h : source.Gives ev)
    (ho : source.Gives other) : ev = other := by
  have hev : readTable (.atom .null) source = .ok ev := readTable_eq_ok_iff.mpr h
  rw [readTable_eq_ok_iff.mpr ho] at hev
  exact (Except.ok.inj hev).symm

theorem sound_of_readTable {feature : Name} {source : TableSource α} {ev : Evaluator α}
    (hs : source.Sound) (h : readTable feature source = .ok ev) : ev.Sound := by
  cases readTable_eq_ok_iff.mp h with
  | built => exact hs
  | mapping _ _ h => exact Evaluator.sound_of_ofTable h
  | rows _ h => exact Evaluator.sound_of_ofTable h

theorem readTables_eq_ok_iff {entries : List (Name × TableSource α)}
    {tables : List (Name × Evaluator α)} :
    readTables entries = .ok tables ↔
      List.Forall₂ (fun e t => t.1 = e.1 ∧ readTable e.1 e.2 = .ok t.2) entries tables := by
  induction entries generalizing tables with
  | nil => simp [readTables, eq_comm]
  | cons e entries ih =>
    obtain ⟨name, source⟩ := e
    simp only [readTables, List.forall₂_cons_left_iff, bind_eq_ok_iff, ih]
    constructor
    · rintro ⟨ev, hev, others, hothers, h⟩
      exact ⟨(name, ev), others, ⟨rfl, hev⟩, hothers, (Except.ok.inj h).symm⟩
    · rintro ⟨⟨_, ev⟩, others, ⟨rfl, hev⟩, hothers, rfl⟩
      exact ⟨ev, hev, others, hothers, rfl⟩

theorem keys_of_readTables {entries : List (Name × TableSource α)}
    {tables : List (Name × Evaluator α)} (h : readTables entries = .ok tables) :
    Keyed.keys tables = Keyed.keys entries := by
  rw [readTables_eq_ok_iff] at h
  induction h with
  | nil => rfl
  | cons he _ ih => exact congrArg₂ List.cons he.1 ih

theorem distinct_of_readTables {entries : List (Name × TableSource α)}
    {tables : List (Name × Evaluator α)} (hd : Keyed.Distinct entries)
    (h : readTables entries = .ok tables) : Keyed.Distinct tables := by
  rw [Keyed.Distinct, Keyed.marks_eq_map_keys] at hd ⊢
  rwa [keys_of_readTables h]

theorem readScalars_eq_ok_iff {s : Settings α} {c : Config α} :
    s.readScalars = .ok c ↔ s.Scalars c ∧ c.tables = [] := by
  constructor
  · intro h
    obtain ⟨dpi, hdpi, h⟩ := bind_eq_ok_iff.mp h
    obtain ⟨threshold, hthreshold, h⟩ := bind_eq_ok_iff.mp h
    split at h
    next => cases h
    next hrange =>
      split at h
      next => cases h
      next hlimit =>
        obtain ⟨tie, htie, h⟩ := bind_eq_ok_iff.mp h
        obtain ⟨failure, hfailure, h⟩ := bind_eq_ok_iff.mp h
        obtain rfl := Except.ok.inj h
        obtain ⟨hfinite, hpositive⟩ : Scalar.isFinite dpi = true ∧
            Scalar.lt Scalar.zero dpi = true := by simpa using hrange
        exact ⟨⟨hdpi, hthreshold, htie, hfailure, hfinite, hpositive, by simpa using hlimit⟩, rfl⟩
  · rintro ⟨h, htables⟩
    simp only [readScalars, h.dpi, h.rejectThreshold, h.tiePolicy, h.failurePolicy, ok_bind,
      h.dpi_finite, h.dpi_positive, h.threshold_finite, Bool.and_self, Bool.not_true,
      Bool.false_eq_true, ↓reduceIte, ← htables]

theorem sound_of_readSources {s : Settings α} {entries : List (Name × TableSource α)}
    (hs : s.Sound) (h : s.readSources = .ok entries) : ∀ t ∈ entries, t.2.Sound := by
  unfold readSources at h
  split at h
  next =>
    cases h
    simp
  next hg =>
    cases h
    exact hs _ hg
  next => cases h

omit [Scalar α] in
/-- The settings of a document are those of its sections. A document that is void has none. -/
theorem ofDocument_eq_ok {built : List (Name × Evaluator α)} {document : Value}
    {s : Settings α} (h : ofDocument built document = .ok s) :
    ∃ root display classifier, (root = if document.isVoid then Value.map [] else document) ∧
      root.section? "display" = .ok display ∧ root.section? "classifier" = .ok classifier ∧
      s = {
        dpi := .value (display.field "dpi")
        rejectThreshold := .value (classifier.field "reject_threshold")
        tiePolicy := classifier.field "tie_policy"
        failurePolicy := classifier.field "failure_policy"
        tables := .ofValue built (root.field "evaluators") } := by
  unfold ofDocument at h
  simp only at h
  split at h
  next =>
    obtain ⟨display, hd, h⟩ := bind_eq_ok_iff.mp h
    obtain ⟨classifier, hc, h⟩ := bind_eq_ok_iff.mp h
    exact ⟨_, display, classifier, rfl, hd, hc, (Except.ok.inj h).symm⟩
  next => cases h

theorem sound_of_readTables {entries : List (Name × TableSource α)}
    {tables : List (Name × Evaluator α)} (hs : ∀ t ∈ entries, t.2.Sound)
    (h : readTables entries = .ok tables) : ∀ t ∈ tables, t.2.Sound := by
  rw [readTables_eq_ok_iff] at h
  induction h with
  | nil => simp
  | cons hr _ ih =>
    obtain ⟨hfirst, hrest⟩ := List.forall_mem_cons.mp hs
    exact List.forall_mem_cons.mpr ⟨sound_of_readTable hfirst hr.2, ih hrest⟩

end Settings

namespace Config

/-- The sources of the tables: those of the settings put over the default ones. -/
def merged (entries : List (Name × TableSource α)) : List (Name × TableSource α) :=
  entries.foldl (fun m e => Keyed.put m e.1 e.2) defaultEvaluators

theorem build_eq_ok_iff {s : Settings α} {c : Config α} :
    build s = .ok c ↔ s.Scalars c ∧
      ∃ entries, s.readSources = .ok entries ∧
        Settings.readTables (merged entries) = .ok c.tables := by
  constructor
  · intro h
    obtain ⟨scalars, hs, h⟩ := bind_eq_ok_iff.mp h
    obtain ⟨entries, he, h⟩ := bind_eq_ok_iff.mp h
    obtain ⟨tables, ht, h⟩ := bind_eq_ok_iff.mp h
    obtain rfl := Except.ok.inj h
    obtain ⟨hscalars, _⟩ := Settings.readScalars_eq_ok_iff.mp hs
    exact ⟨{ hscalars with }, entries, he, ht⟩
  · rintro ⟨h, entries, he, ht⟩
    have hs : s.readScalars = .ok { c with tables := [] } :=
      Settings.readScalars_eq_ok_iff.mpr ⟨{ h with }, rfl⟩
    simp only [build, hs, he, ok_bind, ← merged.eq_def, ht]

/-- What holds of the names and of the sources on both sides holds of those put together. -/
theorem forall_mem_merged {entries : List (Name × TableSource α)} {P : Name → Prop}
    {Q : TableSource α → Prop} (hd : ∀ t ∈ defaultEvaluators (α := α), P t.1 ∧ Q t.2)
    (he : ∀ t ∈ entries, P t.1 ∧ Q t.2) : ∀ t ∈ merged entries, P t.1 ∧ Q t.2 := by
  unfold merged
  generalize (defaultEvaluators : List (Name × TableSource α)) = start at hd
  induction entries generalizing start with
  | nil => exact hd
  | cons e entries ih =>
    obtain ⟨hfirst, hrest⟩ := List.forall_mem_cons.mp he
    refine ih hrest _ fun t ht => ?_
    rcases Keyed.eq_or_mem_of_mem_put ht with ⟨hv, hk⟩ | hm
    · refine ⟨?_, hv ▸ hfirst.2⟩
      rcases hk with hk | hk
      · exact hk ▸ hfirst.1
      · obtain ⟨old, hold, hname⟩ := List.mem_map.mp hk
        exact hname ▸ (hd old hold).1
    · exact hd t hm

theorem sound_merged {entries : List (Name × TableSource α)}
    (hd : ∀ t ∈ defaultEvaluators (α := α), t.2.Sound) (he : ∀ t ∈ entries, t.2.Sound) :
    ∀ t ∈ merged entries, t.2.Sound := by
  have h := forall_mem_merged (P := fun _ => True) (fun t ht => ⟨trivial, hd t ht⟩)
    fun t ht => ⟨trivial, he t ht⟩
  exact fun t ht => (h t ht).2

/-- A configuration that has been built is sound, as long as the default tables are and those that
stood ready. -/
theorem sound_of_build {s : Settings α} {c : Config α}
    (hd : ∀ t ∈ defaultEvaluators (α := α), t.2.Sound) (hs : s.Sound) (h : build s = .ok c) :
    c.Sound := by
  obtain ⟨hscalars, entries, hentries, htables⟩ := build_eq_ok_iff.mp h
  exact ⟨hscalars.dpi_finite, hscalars.dpi_positive, hscalars.threshold_finite,
    Settings.sound_of_readTables
      (sound_merged hd (Settings.sound_of_readSources hs hentries)) htables⟩

theorem defaultEvaluators_sound :
    ∀ t ∈ (defaultEvaluators : List (Name × TableSource Float)), t.2.Sound := by
  have h : ∀ t ∈ defaultTables, (⟨t.2.2.map fun row =>
      (Scalar.ofFloat row.1, Scalar.ofNat row.2), t.2.1⟩ : Evaluator Float).Sound := by
    decide +kernel
  exact List.forall_mem_map.mpr h

theorem keys_prefix_merged (entries : List (Name × TableSource α)) :
    Keyed.keys (defaultEvaluators (α := α)) <+: Keyed.keys (merged entries) :=
  Keyed.keys_prefix_foldl_put _ entries

theorem distinct_defaultEvaluators : Keyed.Distinct (defaultEvaluators (α := α)) := by
  have hnames : (defaultTables.map fun t => Key.text t.1).Nodup := by decide
  rw [Keyed.Distinct, Keyed.marks, defaultEvaluators, List.map_map]
  exact hnames

theorem distinct_merged (entries : List (Name × TableSource α)) :
    Keyed.Distinct (merged entries) :=
  Keyed.distinct_foldl_put entries distinct_defaultEvaluators

/-- The tables of a configuration begin with those of the default features in their order, and no
feature has two. -/
theorem keys_of_build {s : Settings α} {c : Config α} (h : build s = .ok c) :
    Keyed.keys (defaultEvaluators (α := α)) <+: Keyed.keys c.tables ∧ Keyed.Distinct c.tables := by
  obtain ⟨_, entries, _, htables⟩ := build_eq_ok_iff.mp h
  rw [Settings.keys_of_readTables htables]
  exact ⟨keys_prefix_merged entries, Settings.distinct_of_readTables (distinct_merged entries) htables⟩

/-- Tables under the features of a configuration that has been built come out of the merging with the
default tables as they are. -/
theorem merged_of_build {s : Settings α} {c : Config α} (h : build s = .ok c)
    (f : Evaluator α → TableSource α) :
    merged (c.tables.map fun t => (t.1, f t.2)) = c.tables.map fun t => (t.1, f t.2) := by
  obtain ⟨hkeys, hdistinct⟩ := keys_of_build h
  refine Keyed.foldl_put_of_prefix ?_ ((Keyed.distinct_map_snd f).mpr hdistinct)
  rwa [Keyed.keys_map_snd]

omit [Scalar α] in
theorem evaluatorFor_value_eq_ok_iff {c : Config α} {name : Name} {ev : Evaluator α} :
    c.evaluatorFor name.value = .ok ev ↔ Keyed.get? c.tables name = some ev := by
  rw [evaluatorFor, name.toName_value, ok_bind]
  cases Keyed.get? c.tables name <;> simp

/-- Every feature that has a default table has one in a configuration that has been built, whatever
the settings say of it. -/
theorem exists_evaluatorFor_of_build {s : Settings α} {c : Config α} (h : build s = .ok c)
    {name : String} (hn : name ∈ defaultTables.map Prod.fst) :
    ∃ ev, c.evaluatorFor (.text name) = .ok ev := by
  obtain ⟨hkeys, _⟩ := keys_of_build h
  have hd : Name.text name ∈ Keyed.keys (defaultEvaluators (α := α)) := by
    obtain ⟨t, ht, rfl⟩ := List.mem_map.mp hn
    rw [defaultEvaluators, Keyed.keys, List.map_map]
    exact List.mem_map_of_mem (f := fun t => Name.text t.1) ht
  have hm : Key.text name ∈ Keyed.marks c.tables := by
    rw [Keyed.marks_eq_map_keys]
    exact List.mem_map_of_mem (f := Name.key) (hkeys.subset hd)
  cases hg : Keyed.get? c.tables (.text name) with
  | none => exact absurd hm (Keyed.get?_eq_none_iff.mp hg)
  | some ev => exact ⟨ev, evaluatorFor_value_eq_ok_iff.mpr hg⟩

theorem Sound.evaluatorFor {c : Config α} (hc : c.Sound) {feature : Value} {ev : Evaluator α}
    (h : c.evaluatorFor feature = .ok ev) : ev.Sound := by
  obtain ⟨name, _, h⟩ := bind_eq_ok_iff.mp h
  split at h
  next hg =>
    cases h
    obtain ⟨_, _, hm⟩ := Keyed.mem_of_get? hg
    exact hc.tables _ hm
  next => cases h

theorem exists_build_unset : ∃ c : Config Float, build Settings.unset = .ok c :=
  exists_of_isOk (by decide +kernel)

end Config

end StrayTouch
