import StrayTouch.Tuning.Log
import StrayTouch.Proofs.Keyed
import StrayTouch.Proofs.Outcome

/-!
What a tuning log makes of reports. A report of scores that are numbers and of failures that have
names is counted and summarised without fail, and where a file takes every line it gains one, unless
a contact cannot be named.
-/
namespace StrayTouch

namespace Value

theorem exists_formatted_float (code : String) (write : Float → String) (x : Float) :
    ∃ s, (float x).formatted code write = .ok s := by
  unfold float Atom.ofFloat
  split <;> exact ⟨_, rfl⟩

theorem dataFault?_float (x : Float) : (float x).dataFault? = none := by
  unfold float Atom.ofFloat
  split <;> rfl

theorem itemsDataFault?_eq_none {items : List Value} (h : ∀ v ∈ items, v.dataFault? = none) :
    itemsDataFault? items = none := by
  induction items with
  | nil => rfl
  | cons v items ih =>
    obtain ⟨hv, hitems⟩ := List.forall_mem_cons.mp h
    rw [itemsDataFault?, hv, ih hitems, Option.or_none]

theorem entriesDataFault?_eq_none {entries : List (Name × Value)}
    (h : ∀ e ∈ entries, e.1.isDataKey = true ∧ e.2.dataFault? = none) :
    entriesDataFault? entries = none := by
  induction entries with
  | nil => rfl
  | cons e entries ih =>
    obtain ⟨⟨hkey, hvalue⟩, hentries⟩ := List.forall_mem_cons.mp h
    rw [entriesDataFault?, if_pos hkey, hvalue, ih hentries, Option.or_none, Option.or_none]

end Value

/-- Scores that are numbers, under keys that a data file can hold. -/
def Figures (scores : List (Name × Value)) : Prop :=
  ∀ e ∈ scores, e.1.isDataKey = true ∧ ∃ x, e.2 = .float x

theorem Figures.dataFault? {scores : List (Name × Value)} (h : Figures scores) :
    (Value.map scores).dataFault? = none := by
  refine Value.entriesDataFault?_eq_none fun e he => ?_
  obtain ⟨hkey, x, hx⟩ := h e he
  exact ⟨hkey, hx ▸ Value.dataFault?_float x⟩

namespace Report

/-- A report whose scores are numbers and whose failed classifiers have texts for names. -/
structure Readable (r : Report) : Prop where
  aggregate : r.aggregate.dataFault? = none
  threshold : r.threshold.dataFault? = none
  scores : Figures r.scores
  strokeScores : ∀ s ∈ r.strokeScores, Figures s.2
  failed : ∀ v ∈ r.failed, ∃ a : Atom, v = .atom a ∧ a.typeName = "str"

/-- Whether all contacts of a report can be shown. -/
def namesContacts (r : Report) : Bool :=
  r.strokeScores.all fun s => s.1.isShowable

variable {r : Report}

theorem Readable.exists_shownScores (h : r.Readable) : ∃ s, r.shownScores = .ok s := by
  obtain ⟨parts, hparts⟩ : ∃ parts, (r.scores.mapM fun e => do
      .ok (e.1.spoken ++ "=" ++ (← e.2.formatted "g" (Decimal.general 6)))) = .ok parts := by
    apply exists_mapM_eq_ok
    intro e he
    obtain ⟨_, x, hx⟩ := h.scores e he
    obtain ⟨s, hs⟩ := Value.exists_formatted_float "g" (Decimal.general 6) x
    exact ⟨_, by rw [hx, hs, ok_bind]⟩
  exact ⟨_, by rw [shownScores, hparts, ok_bind]⟩

theorem Readable.exists_failedList (h : r.Readable) : ∃ s, r.failedList = .ok s := by
  unfold failedList
  refine (exists_mapM_eq_ok ?_).elim fun names hnames => ⟨_, by rw [hnames, ok_bind]⟩
  intro e he
  obtain ⟨a, ha, ht⟩ := h.failed e.1 (List.fst_mem_of_mem_zipIdx he)
  rw [ha]
  cases a with
  | text s => exact ⟨s, rfl⟩
  | points ns => exact ⟨_, rfl⟩
  | _ => simp [Atom.typeName] at ht

theorem isDataKey_contactName (id : Name) : (contactName id).isDataKey = true := by
  unfold contactName
  split <;> rfl

theorem dataFault?_of_typeName {a : Atom} (h : a.typeName = "str") :
    (Value.atom a).dataFault? = none := by
  cases a with
  | text s => rfl
  | points ns => rfl
  | _ => simp [Atom.typeName] at h

theorem Readable.strokeFault? (h : r.Readable) :
    (Value.map (r.spokenStrokes.map fun s => (s.1, .map s.2))).dataFault? = none := by
  refine Value.entriesDataFault?_eq_none (List.forall_mem_map.mpr fun s hs => ?_)
  have hkey := Keyed.key_mem_of_mem_ofEntries hs
  have hscores := Keyed.value_mem_of_mem_ofEntries hs
  rw [Keyed.keys, List.map_map] at hkey
  rw [List.map_map] at hscores
  obtain ⟨named, _, hnamed⟩ := List.mem_map.mp hkey
  obtain ⟨stroke, hstroke, hrow⟩ := List.mem_map.mp hscores
  exact ⟨hnamed ▸ isDataKey_contactName named.1,
    Figures.dataFault? (hrow ▸ h.strokeScores stroke hstroke)⟩

theorem Readable.dataFault? (h : r.Readable) : r.toValue.dataFault? = none := by
  have hfailed : (Value.list r.failed).dataFault? = none := by
    refine Value.itemsDataFault?_eq_none fun v hv => ?_
    obtain ⟨a, rfl, ha⟩ := h.failed v hv
    exact dataFault?_of_typeName ha
  refine Value.entriesDataFault?_eq_none ?_
  simp only [List.forall_mem_cons, List.not_mem_nil, false_implies, implies_true, and_true]
  exact ⟨⟨rfl, rfl⟩, ⟨rfl, h.aggregate⟩, ⟨rfl, h.threshold⟩, ⟨rfl, h.scores.dataFault?⟩,
    ⟨rfl, h.strokeFault?⟩, ⟨rfl, hfailed⟩⟩

theorem document_eq_ok_iff {d : Value} :
    r.document = .ok d ↔ r.namesContacts = true ∧ d = r.toValue := by
  have hnames : (r.strokeScores.findSome? fun s => s.1.obstacle? Value.depthLimit) = none ↔
      r.namesContacts = true := by
    simp [namesContacts, Name.isShowable]
  rw [document, ← hnames]
  cases r.strokeScores.findSome? fun s => s.1.obstacle? Value.depthLimit with
  | none => simpa using eq_comm
  | some o => simp

theorem Readable.line_of_namesContacts (h : r.Readable) (hn : r.namesContacts = true) :
    r.line = .ok r.toValue.data := by
  rw [line, document_eq_ok_iff.mpr ⟨hn, rfl⟩, ok_bind, h.dataFault?]

theorem exists_line_eq_error (hn : r.namesContacts = false) : ∃ f, r.line = .error f := by
  cases hd : r.document with
  | ok d =>
    rw [(document_eq_ok_iff.mp hd).1] at hn
    cases hn
  | error f => exact ⟨f, by rw [line, hd, error_bind]⟩

end Report

namespace TuningLog

/-- A log that has counted so many reports, with a file of these lines that takes every further
one. -/
structure Holds (t : TuningLog) (count : Nat) (lines : List String) : Prop where
  count_eq : t.count = count
  lines_eq : t.lines = lines
  takes : ∃ f, t.file = some f ∧ ∀ n, f.fault? n = none

variable {t : TuningLog} {r : Report} {count : Nat} {lines : List String}

theorem Holds.writeLine (h : t.Holds count lines) (hr : r.Readable) :
    (t.writeLine r).2.1.Holds count
      (lines ++ if r.namesContacts then [r.toValue.data] else []) := by
  obtain ⟨f, hf, hw⟩ := h.takes
  have hlines : f.lines = lines := by rw [← h.lines_eq, TuningLog.lines, hf]
  simp only [TuningLog.writeLine, hf]
  cases hc : r.namesContacts with
  | false =>
    obtain ⟨fault, hfault⟩ := Report.exists_line_eq_error hc
    simpa [hfault] using h
  | true =>
    simp only [hr.line_of_namesContacts hc, ↓reduceIte, LineFile.write, hw 0]
    exact ⟨h.count_eq, congrArg (· ++ _) hlines, _, rfl, fun n => hw (n + 1)⟩

theorem log_of_readable (t : TuningLog) (hr : r.Readable) :
    (t.log r).2.1 = (TuningLog.writeLine ⟨t.count + 1, t.file, t.kept⟩ r).2.1 := by
  obtain ⟨scores, hscores⟩ := hr.exists_shownScores
  obtain ⟨names, hnames⟩ := hr.exists_failedList
  simp only [TuningLog.log, hscores, hnames]

/-- Every report is counted, and it becomes a line if its contacts can be named. -/
theorem Holds.log (h : t.Holds count lines) (hr : r.Readable) :
    (t.log r).2.1.Holds (count + 1)
      (lines ++ if r.namesContacts then [r.toValue.data] else []) := by
  rw [log_of_readable t hr]
  refine Holds.writeLine ?_ hr
  exact ⟨congrArg (· + 1) h.count_eq, h.lines_eq, h.takes⟩

end TuningLog

end StrayTouch
