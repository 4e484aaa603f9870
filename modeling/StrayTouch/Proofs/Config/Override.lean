import StrayTouch.Proofs.Config.Default
import StrayTouch.Proofs.Config.RoundTrip
import StrayTouch.Proofs.Config.Steps
import StrayTouch.Proofs.Engine.Defaults

/-!
Tables that settings give over the default ones. They replace the tables of their own features and no
others, the features keep their order, and the default tables are what they were for every
configuration that is made later.
-/
namespace StrayTouch

variable {α : Type} [Scalar α]

def defaultNames : List Name :=
  defaultTables.map fun t => .text t.1

/-- A default table as a document writes it. -/
def defaultDocument (t : String × Direction × List (Float × Nat)) : Value :=
  .map [(.text "thresholds", .list (t.2.2.map fun row => .list [.float row.1, .int row.2])),
    (.text "direction", .text t.2.1.name)]

theorem gives_defaultDocument {t : String × Direction × List (Float × Nat)}
    (h : t ∈ defaultTables) :
    (TableSource.written (defaultDocument t)).Gives (defaultTable t : Evaluator Float) := by
  have hread : ∀ t ∈ defaultTables, (Settings.readTable (.text t.1)
      (.written (defaultDocument t))).toOption = some (defaultTable t : Evaluator Float) := by
    decide +kernel
  exact Settings.readTable_eq_ok_iff.mp (eq_ok_of_toOption (hread t h))

theorem get?_defaultEvaluators {t : String × Direction × List (Float × Nat)}
    (h : t ∈ defaultTables) :
    Keyed.get? (defaultEvaluators (α := α)) (.text t.1) = some (.built (defaultTable t)) := by
  rw [Keyed.get?_eq_some_iff Config.distinct_defaultEvaluators]
  exact ⟨.text t.1, rfl, List.mem_map_of_mem h⟩

namespace Config

/-- A configuration in which tables are put over the default ones. The default features come first,
in their order, and the others follow in theirs. A feature with a table of its own has the evaluator
that this table gives and no other, and a default feature without one has its default table. -/
structure Overlays (c : Config α) (entries : List (Name × TableSource α)) : Prop where
  names : Keyed.keys c.tables = defaultNames ++
    (Keyed.keys entries).filter fun name => name.key ∉ defaultNames.map Name.key
  given : ∀ e ∈ entries, ∃ ev, c.evaluatorFor e.1.value = .ok ev ∧
    ∀ other, e.2.Gives other ↔ other = ev
  standard : ∀ t ∈ defaultTables, Name.key (.text t.1) ∉ (Keyed.keys entries).map Name.key →
    c.evaluatorFor (.text t.1) = .ok (defaultTable t)

theorem get?_readTables {entries : List (Name × TableSource α)}
    {tables : List (Name × Evaluator α)} (h : Settings.readTables entries = .ok tables)
    (name : Name) :
    Option.Rel TableSource.Gives (Keyed.get? entries name) (Keyed.get? tables name) := by
  refine Keyed.get?_forall₂ ((Settings.readTables_eq_ok_iff.mp h).imp ?_) name
  intro e t ht
  exact ⟨ht.1.symm, Settings.readTable_eq_ok_iff.mp ht.2⟩

theorem exists_evaluatorFor_of_merged {entries : List (Name × TableSource α)} {c : Config α}
    (h : Settings.readTables (merged entries) = .ok c.tables) {name : Name}
    {source : TableSource α} (hs : Keyed.get? (merged entries) name = some source) :
    ∃ ev, c.evaluatorFor name.value = .ok ev ∧ source.Gives ev := by
  have hrel := get?_readTables h name
  rw [hs] at hrel
  generalize hg : Keyed.get? c.tables name = found at hrel
  cases hrel with
  | @some _ ev hgives => exact ⟨ev, evaluatorFor_value_eq_ok_iff.mpr hg, hgives⟩

theorem overlays_of_build {s : Settings α} {c : Config α} {entries : List (Name × TableSource α)}
    (hs : s.tables = .given entries) (hd : Keyed.Distinct entries) (h : build s = .ok c) :
    c.Overlays entries := by
  obtain ⟨_, sources, hsources, htables⟩ := build_eq_ok_iff.mp h
  obtain rfl : entries = sources := by
    rw [Settings.readSources, hs] at hsources
    exact Except.ok.inj hsources
  refine ⟨?_, ?_, ?_⟩
  · have hnames : Keyed.keys (defaultEvaluators (α := α)) = defaultNames := rfl
    rw [Settings.keys_of_readTables htables, merged, Keyed.keys_foldl_put hd, hnames]
    congr 1
    refine List.filter_congr fun name _ => ?_
    rw [Bool.eq_iff_iff, decide_eq_true_iff, Option.isNone_iff_eq_none, Keyed.get?_eq_none_iff,
      Keyed.marks_eq_map_keys, hnames]
  · intro e he
    have hsource : Keyed.get? (merged entries) e.1 = some e.2 := by
      rw [merged, Keyed.get?_foldl_put hd, (Keyed.get?_eq_some_iff hd).mpr ⟨e.1, rfl, he⟩]
      rfl
    obtain ⟨ev, hev, hgives⟩ := exists_evaluatorFor_of_merged htables hsource
    exact ⟨ev, hev, fun other => ⟨fun ho => Settings.gives_unique ho hgives, fun ho => ho ▸ hgives⟩⟩
  · intro t ht hn
    have hsource : Keyed.get? (merged entries) (.text t.1) = some (.built (defaultTable t)) := by
      rw [merged, Keyed.get?_foldl_put hd, Keyed.get?_eq_none_iff.mpr
        (by rwa [Keyed.marks_eq_map_keys]), get?_defaultEvaluators ht]
      rfl
    obtain ⟨ev, hev, hgives⟩ := exists_evaluatorFor_of_merged htables hsource
    cases hgives with
    | built => exact hev

theorem Made.exists_evaluatorFor {c : Config Float} (h : c.Made) (v : Variant) :
    ∃ ev, c.evaluatorFor (.text v.feature) = .ok ev := by
  obtain ⟨_, _, hb⟩ := h.exists_build
  exact exists_evaluatorFor_of_build hb v.feature_mem_defaultTables

/-- A configuration that is made from settings with tables has these over the default ones, which are
what a document would write for them. Of configurations made one after another each is what its
settings give by themselves, and the default tables stand as they did. So each of the default
classifiers finds its table in every configuration that can be had. -/
theorem overrides_stay_local :
    (∀ (s : Settings Float) (c : Config Float) (entries : List (Name × TableSource Float)),
      s.tables = .given entries → Keyed.Distinct entries → build s = .ok c → c.Overlays entries) ∧
    (∀ t ∈ defaultTables,
      (TableSource.written (defaultDocument t)).Gives (defaultTable t : Evaluator Float)) ∧
    (∀ (shelf : Shelf Float) (ss : List (Settings Float)), Shelf.start <+: shelf →
      MadeApart shelf ss (constructAll ss shelf)) ∧
    ∀ c : Config Float, c.Made → ∀ k ∈ Variant.defaults (α := Float),
      ∃ ev, c.evaluatorFor k.feature = .ok ev := by
  refine ⟨?_, ?_, ?_, ?_⟩
  · exact fun s c entries hs hd h => overlays_of_build hs hd h
  · exact fun t ht => gives_defaultDocument ht
  · exact fun shelf ss h => constructAll_madeApart h ss
  · intro c hc
    exact List.forall_mem_map.mpr fun v _ => hc.exists_evaluatorFor v

/-- With a table for the speed and one for a feature of their own, the settings leave all other
default tables in place, and the default ones are there for the settings that come next. -/
theorem overrides_turnedSpeed :
    ∃ c : Config Float, build turnedSpeed = .ok c ∧
      Keyed.keys c.tables = defaultNames ++ [.text "pressure"] ∧
      c.evaluatorFor (.text "pressure") = .ok ⟨[], .above⟩ ∧
      (∀ t ∈ defaultTables, t.1 ≠ "speed" →
        c.evaluatorFor (.text t.1) = .ok (defaultTable t)) ∧
      Shelf.start <+: (constructAll [turnedSpeed, .unset] Shelf.start).2 ∧
      ∃ ev, c.evaluatorFor (.text "speed") = .ok ev := by
  obtain ⟨c, hc, hmade⟩ := exists_made_turnedSpeed
  obtain ⟨hlocal, _, hapart, hfound⟩ := overrides_stay_local
  have hkeys : [Key.text "speed", .text "pressure"].Nodup := by decide
  have hover := hlocal turnedSpeed c _ rfl hkeys hc
  obtain ⟨ev, hev, hgives⟩ := hover.given _ (List.mem_cons_of_mem _ List.mem_cons_self)
  obtain rfl := (hgives _).mp (.built _)
  refine ⟨c, hc, hover.names, hev, ?_, (hapart _ _ List.prefix_rfl).kept, ?_⟩
  · intro t ht hne
    refine hover.standard t ht ?_
    have hown : ∀ t ∈ defaultTables, t.1 ≠ "pressure" := by decide
    simp [Keyed.keys, Name.key, Atom.key, hne, hown t ht]
  · exact hfound c hmade Variant.speed.classifier (List.mem_map_of_mem Variant.speed.mem_all)

end Config

end StrayTouch
