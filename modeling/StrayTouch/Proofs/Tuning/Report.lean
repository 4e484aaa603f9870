import StrayTouch.Proofs.Engine.Contact
import StrayTouch.Proofs.Tuning.Log

/-!
What the report of a verdict keeps. A verdict tells its strokes apart by their contacts, a report by
the names of the contacts. Where no two contacts are called the same, the report holds the scores of
every stroke, and the totals are the sums of these; of contacts that are called the same it keeps
the scores of the last one, while its totals count them all.
-/
namespace StrayTouch

namespace Report

theorem field?_scores (r : Report) : r.toValue.field? "scores" = some (.map r.scores) :=
  rfl

theorem field?_strokeScores (r : Report) : r.toValue.field? "stroke_scores" =
    some (.map (r.spokenStrokes.map fun s => (s.1, .map s.2))) :=
  rfl

end Report

namespace Verdict

/-- Scores as a report writes them. -/
def figures (scores : List (Name × Float)) : List (Name × Value) :=
  scores.map fun e => (e.1, .float e.2)

/-- The strokes of a verdict one after the other, each under the name of its contact. -/
def rows (v : Verdict Float) : List (Name × List (Name × Value)) :=
  v.strokeScores.map fun s => (Report.contactName s.1, figures s.2)

theorem get?_figures (scores : List (Name × Float)) (tag : Name) :
    Keyed.get? (figures scores) tag = (Keyed.get? scores tag).map Value.float :=
  Keyed.get?_map_snd scores Value.float tag

variable {v : Verdict Float} {ids : List Name} {tag : Name} {xs : List Float}

theorem spokenStrokes_report (v : Verdict Float) :
    v.report.spokenStrokes = Keyed.ofEntries v.rows := by
  rw [Report.spokenStrokes, report, List.map_map]
  rfl

theorem keys_rows (h : v.strokeScores.map Prod.fst = ids) :
    Keyed.keys v.rows = ids.map Report.contactName := by
  rw [rows, Keyed.keys, ← h, List.map_map, List.map_map]
  rfl

theorem distinct_rows_iff (h : v.strokeScores.map Prod.fst = ids) :
    Keyed.Distinct v.rows ↔ ((ids.map Report.contactName).map Name.key).Nodup := by
  rw [Keyed.Distinct, Keyed.marks_eq_map_keys, keys_rows h]

theorem length_rows (h : v.strokeScores.map Prod.fst = ids) : v.rows.length = ids.length := by
  rw [rows, List.length_map, ← h, List.length_map]

theorem namesContacts_report (h : v.strokeScores.map Prod.fst = ids) :
    v.report.namesContacts = true ↔ ∀ id ∈ ids, id.isShowable = true := by
  simp [Report.namesContacts, report, ← h]

theorem column_rows (h : v.strokeScores.map (fun s => Keyed.get? s.2 tag) = xs.map some) :
    v.rows.map (fun s => Keyed.get? s.2 tag) = xs.map fun x => some (.float x) := by
  have hcolumn := congrArg (List.map (Option.map Value.float)) h
  rw [List.map_map, List.map_map] at hcolumn
  rw [rows, List.map_map]
  exact (List.map_congr_left fun s _ => get?_figures s.2 tag).trans hcolumn

end Verdict

namespace Engine

open Gesture

/-- The document of a verdict has one entry for each name of a contact, with the scores of the last
stroke of this name. So it has as many entries as the gesture has strokes exactly if no two of the
contacts are called the same, and then each entry holds the scores of its stroke, and each total is
the sum, in the order of the strokes, of what the entries say under its tag. -/
theorem document_keeps_strokes (e : Engine Float) (dpi : Float) (ts : List Touch)
    {v : Verdict Float}
    (hv : (e.step ((Gesture.empty dpi).follow ts).2 .evaluate).1 = .verdict v) :
    let g := ((Gesture.empty dpi).follow ts).2
    let names := g.contactIds.map Report.contactName
    v.strokeScores.map Prod.fst = g.contactIds ∧
    ((∃ d, v.report.document = .ok d) ↔ ∀ id ∈ g.contactIds, id.isShowable = true) ∧
    ∀ d, v.report.document = .ok d → ∃ entries,
      d.field? "scores" = some (.map (Verdict.figures v.scores)) ∧
      d.field? "stroke_scores" = some (.map (entries.map fun s => (s.1, .map s.2))) ∧
      Keyed.keys entries = names.eraseDupsBy Name.sameKey ∧
      (∀ name, Keyed.get? entries name = Keyed.get? v.rows.reverse name) ∧
      (entries.length = g.strokeCount ↔ (names.map Name.key).Nodup) ∧
      ((names.map Name.key).Nodup → entries = v.rows ∧
        ∀ tag ∈ Keyed.keys v.scores, ∃ xs : List Float,
          entries.map (fun s => Keyed.get? s.2 tag) = xs.map (fun x => some (.float x)) ∧
          Keyed.get? (Verdict.figures v.scores) tag = some (.float (Scalar.sum xs))) := by
  intro g names
  have hr : g.Represents dpi (Touch.log Float ((Gesture.empty dpi).taken ts)) :=
    (represents_empty dpi).follow_taken ts
  obtain ⟨panel, _, hkeys, haccount⟩ := exists_account_of_verdict hr hv
  have hids := keys_strokeScores hr hv
  have hspoken := v.spokenStrokes_report
  have hcount : v.rows.length = g.strokeCount := by
    rw [Verdict.length_rows hids, contactIds, Keyed.keys, List.length_map, strokeCount]
  refine ⟨hids, ?_, fun d hd => ⟨v.report.spokenStrokes, ?_⟩⟩
  · rw [← Verdict.namesContacts_report hids]
    simp [Report.document_eq_ok_iff]
  · obtain ⟨_, rfl⟩ := Report.document_eq_ok_iff.mp hd
    refine ⟨v.report.field?_scores, v.report.field?_strokeScores, ?_, fun name => ?_, ?_,
      fun hn => ?_⟩
    · rw [hspoken, Keyed.keys_ofEntries, Verdict.keys_rows hids]
    · rw [hspoken, Keyed.get?_ofEntries]
    · rw [hspoken, ← hcount, Keyed.length_ofEntries_eq_iff, Verdict.distinct_rows_iff hids]
    · have hkept : v.report.spokenStrokes = v.rows := by
        rw [hspoken, Keyed.ofEntries_eq_self ((Verdict.distinct_rows_iff hids).mpr hn)]
      refine ⟨hkept, fun tag htag => ?_⟩
      obtain ⟨xs, hcolumn, htotal⟩ := haccount.exists_column hkeys htag
      refine ⟨xs, ?_, ?_⟩
      · rw [hkept, Verdict.column_rows hcolumn]
      · rw [Verdict.get?_figures, htotal, Option.map_some]

theorem document_keeps_inTurns :
    ∃ v d, (contactCounter.step ((Gesture.empty 160.0).follow inTurns).2 .evaluate).1 = .verdict v ∧
      v.report.document = .ok d ∧
      d.field? "stroke_scores" = some (.map (v.rows.map fun s => (s.1, .map s.2))) ∧
      v.rows.length = 2 ∧ (Keyed.keys v.scores).map Name.spoken = ["PTR"] ∧
      ∀ tag ∈ Keyed.keys v.scores, ∃ xs : List Float,
        v.rows.map (fun s => Keyed.get? s.2 tag) = xs.map (fun x => some (.float x)) ∧
        Keyed.get? (Verdict.figures v.scores) tag = some (.float (Scalar.sum xs)) := by
  have htags : (contactCounter.step ((Gesture.empty 160.0).follow inTurns).2
      .evaluate).1.verdict?.map (fun v => (Keyed.keys v.scores).map Name.spoken) =
        some ["PTR"] := by decide +kernel
  obtain ⟨v, hv, hscores⟩ := Option.map_eq_some_iff.mp htags
  have hreply := Reply.eq_verdict_of_verdict? hv
  obtain ⟨_, hdocument, hkept⟩ := contactCounter.document_keeps_strokes 160.0 inTurns hreply
  obtain ⟨d, hd⟩ := hdocument.mpr (by decide +kernel)
  obtain ⟨entries, _, hfield, _, _, hlength, hall⟩ := hkept d hd
  have hdistinct : ((((Gesture.empty (160.0 : Float)).follow inTurns).2.contactIds.map
      Report.contactName).map Name.key).Nodup := by decide +kernel
  obtain ⟨rfl, hcolumns⟩ := hall hdistinct
  have hcount : ((Gesture.empty (160.0 : Float)).follow inTurns).2.strokeCount = 2 := by
    decide +kernel
  exact ⟨v, d, hreply, hd, hfield, (hlength.mpr hdistinct).trans hcount, hscores, hcolumns⟩

/-- Two contacts, a number and a text, that are called the same. -/
def namesakes : List Touch :=
  [.point (.int 1) ⟨.atom (.float 1.5), .atom (.float 0.5), .int 0, .null⟩,
    .point (.text "1") ⟨.atom (.float 2.5), .atom (.float 0.5), .int 0, .null⟩]

theorem document_of_namesakes :
    let g := ((Gesture.empty 160.0).follow namesakes).2
    let report := (contactCounter.step g .evaluate).1.verdict?.map Verdict.report
    let spoken := fun row : List (Name × Value) => row.map fun e => (e.1.spoken, e.2.spoken)
    g.strokeCount = 2 ∧
    report.map (fun r => spoken r.scores) = some [("PTR", "2.0")] ∧
    report.map (fun r => r.strokeScores.map fun s => spoken s.2) =
      some [[("PTR", "2.0")], [("PTR", "0.0")]] ∧
    report.map (fun r => r.spokenStrokes.map fun s => (s.1.spoken, spoken s.2)) =
      some [("1", [("PTR", "0.0")])] := by
  decide +kernel

end Engine

end StrayTouch
