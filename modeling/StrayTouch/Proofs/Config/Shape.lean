import StrayTouch.Proofs.Config.Default

/-!
Documents and sections of the wrong shape. What is neither null nor a mapping is refused where it
stands for the tables; where it stands for the whole document or for one of the other sections it is
refused only if it is not void, and passed over if it is.
-/
namespace StrayTouch

namespace Value

/-- A value that is neither null nor a mapping. -/
def isMisshapen (v : Value) : Bool :=
  match v.head with
  | .atom .null | .map _ => false
  | _ => true

/-- A mapping without what stands under a name. -/
def without (v : Value) (name : String) : Value :=
  match v.head with
  | .map entries => .map (entries.filter fun e => !e.1.sameKey (.text name))
  | other => other

variable {v : Value} {name other : String} {entries : List (Name × Value)}

theorem exists_map_of_isMisshapen_field (h : (v.field name).isMisshapen = true) :
    ∃ entries, v.head = .map entries := by
  cases hv : v.head with
  | map entries => exact ⟨entries, rfl⟩
  | _ => simp [field, field?, hv, isMisshapen, null] at h

theorem field?_of_isVoid (h : v.isVoid = true) (name : String) : v.field? name = none := by
  cases v with
  | map entries =>
    obtain rfl : entries = [] := List.isEmpty_iff.mp h
    rfl
  | knot label v =>
    cases v with
    | map entries =>
      obtain rfl : entries = [] := List.isEmpty_iff.mp h
      rfl
    | knot other v =>
      simp only [field?, head, fill]
      cases other == label <;> rfl
    | again other =>
      simp only [field?, head, fill]
      cases other == label <;> rfl
    | _ => rfl
  | _ => rfl

theorem head_without (h : v.head = .map entries) (name : String) :
    (v.without name).head = .map (entries.filter fun e => !e.1.sameKey (.text name)) := by
  rw [without, h]
  rfl

theorem field_without_self (h : v.head = .map entries) : (v.without name).field name = null := by
  have hnone : (entries.filter fun e => !e.1.sameKey (.text name)).find?
      (fun e => e.1.sameKey (.text name)) = none := by
    rw [List.find?_eq_none]
    intro e he
    simpa using (List.mem_filter.mp he).2
  rw [field, field?, head_without h]
  simp only [hnone, Option.map_none, Option.getD_none]

theorem field_without_of_ne (h : v.head = .map entries) (hne : other ≠ name) :
    (v.without name).field other = v.field other := by
  have hsame : (entries.filter fun e => !e.1.sameKey (.text name)).find?
      (fun e => e.1.sameKey (.text other)) =
        entries.find? fun e => e.1.sameKey (.text other) := by
    rw [List.find?_filter]
    congr 1
    funext e
    by_cases ho : e.1.sameKey (.text other) = true
    · have hn : e.1.sameKey (.text name) = false := by
        rw [Name.sameKey_eq_false_iff, Name.sameKey_iff.mp ho]
        exact fun hk => hne (Key.text_injective hk)
      simp [hn]
    · simp [ho]
  rw [field, field, field?, field?, head_without h, h]
  simp only [hsame]

theorem section?_congr {w : Value} (h : v.field name = w.field name) :
    v.section? name = w.section? name := by
  rw [section?, section?, h]

theorem section?_of_isVoid (h : (v.field name).isVoid = true) :
    v.section? name = .ok (.map []) :=
  if_pos h

theorem section?_of_isMisshapen (h : (v.field name).isMisshapen = true)
    (hv : (v.field name).isVoid = false) :
    v.section? name = .error (.sectionShape name (v.field name).head.shortTypeName) := by
  unfold section?
  simp only [hv, Bool.false_eq_true, ↓reduceIte]
  unfold isMisshapen at h
  split
  next hm => simp [hm] at h
  next => rfl

theorem section?_eq_error {f : Fault} (h : v.section? name = .error f) :
    f = .sectionShape name (v.field name).head.shortTypeName := by
  unfold section? at h
  simp only at h
  split at h
  next => cases h
  next =>
    split at h
    next => cases h
    next => exact (Except.error.inj h).symm

end Value

variable {α : Type} [Scalar α] {document : Value} {entries : List (Name × Value)}

omit [Scalar α] in
theorem TableSources.ofValue_of_isMisshapen (built : List (Name × Evaluator α)) {v : Value}
    (h : v.isMisshapen = true) : ofValue built v = .malformed v.head.shortTypeName := by
  unfold Value.isMisshapen at h
  unfold ofValue
  split
  next hn => simp [hn] at h
  next hm => simp [hm] at h
  next => rfl

namespace Settings

omit [Scalar α] in
/-- The settings of a mapping are those of its sections, one after another. -/
theorem ofDocument_of_map (built : List (Name × Evaluator α)) (h : document.head = .map entries) :
    ofDocument built document = (do
      let display ← document.section? "display"
      let classifier ← document.section? "classifier"
      .ok {
        dpi := .value (display.field "dpi")
        rejectThreshold := .value (classifier.field "reject_threshold")
        tiePolicy := classifier.field "tie_policy"
        failurePolicy := classifier.field "failure_policy"
        tables := .ofValue built (document.field "evaluators") }) := by
  unfold ofDocument
  by_cases hv : document.isVoid = true
  · have hfield (name : String) : (Value.map []).field name = document.field name := by
      rw [Value.field, Value.field, Value.field?_of_isVoid hv]
      rfl
    simp only [hv, ↓reduceIte, Value.head_map, Value.section?_congr (hfield _), hfield]
  · simp only [hv, Bool.false_eq_true, ↓reduceIte, h]

end Settings

namespace Config

/-- Tables of the wrong shape are refused after everything else has been read. -/
theorem build_malformed {s : Settings α} {typeName : String}
    (h : s.tables = .malformed typeName) :
    build s = build { s with tables := .absent } >>= fun _ => .error (.tablesShape typeName) := by
  have hstandard : Settings.readTables (defaultEvaluators (α := α)) = .ok unset.tables := rfl
  have hscalars : { s with tables := .absent }.readScalars = s.readScalars := rfl
  unfold build
  rw [hscalars]
  cases s.readScalars with
  | error f => rfl
  | ok scalars =>
    simp only [Settings.readSources, h, ok_bind, error_bind, List.foldl_nil, hstandard]

variable {name : String}

theorem ofDocument_of_root (built : List (Name × Evaluator α)) (h : document.isMisshapen = true) :
    ofDocument built document =
      if document.isVoid then ofDocument built .null
      else .error (.rootShape document.head.shortTypeName) := by
  cases hv : document.isVoid with
  | true =>
    rw [if_pos rfl, ofDocument, ofDocument, Settings.ofDocument, Settings.ofDocument]
    simp only [hv, ↓reduceIte, Value.null, Value.isVoid]
  | false =>
    rw [if_neg Bool.false_ne_true, ofDocument, Settings.ofDocument]
    simp only [hv, Bool.false_eq_true, ↓reduceIte]
    unfold Value.isMisshapen at h
    split
    next hm => simp [hm] at h
    next => rfl

/-- A section that is void is passed over. -/
theorem ofDocument_of_void (built : List (Name × Evaluator α)) (h : document.head = .map entries)
    (hname : name ≠ "evaluators") (hv : (document.field name).isVoid = true) :
    ofDocument built document = ofDocument built (document.without name) := by
  have hsection (other : String) :
      (document.without name).section? other = document.section? other := by
    by_cases hother : other = name
    · subst hother
      rw [Value.section?_of_isVoid hv, Value.section?_of_isVoid]
      rw [Value.field_without_self h]
      rfl
    · exact Value.section?_congr (Value.field_without_of_ne h hother)
  rw [ofDocument, ofDocument, Settings.ofDocument_of_map built h,
    Settings.ofDocument_of_map built (Value.head_without h name), hsection, hsection,
    Value.field_without_of_ne h hname.symm]

/-- A section that is not void has to be a mapping. -/
theorem ofDocument_of_section (built : List (Name × Evaluator α))
    (hname : name ∈ ["display", "classifier"]) (h : (document.field name).isMisshapen = true)
    (hv : (document.field name).isVoid = false) :
    ∃ name ∈ ["display", "classifier"], ofDocument built document =
      .error (.sectionShape name (document.field name).head.shortTypeName) := by
  obtain ⟨entries, hmap⟩ := Value.exists_map_of_isMisshapen_field h
  have hrefused := Value.section?_of_isMisshapen h hv
  rw [ofDocument, Settings.ofDocument_of_map built hmap]
  cases hd : document.section? "display" with
  | error f =>
    refine ⟨"display", by simp, ?_⟩
    rw [Value.section?_eq_error hd]
    rfl
  | ok display =>
    obtain rfl | rfl : name = "display" ∨ name = "classifier" := by simpa using hname
    · rw [hrefused] at hd
      cases hd
    · refine ⟨"classifier", by simp, ?_⟩
      rw [hrefused]
      rfl

theorem ofDocument_of_tables (built : List (Name × Evaluator α))
    (h : (document.field "evaluators").isMisshapen = true) :
    ofDocument built document = ofDocument built (document.without "evaluators") >>= fun _ =>
      .error (.tablesShape (document.field "evaluators").head.shortTypeName) := by
  obtain ⟨entries, hmap⟩ := Value.exists_map_of_isMisshapen_field h
  have hsection {other : String} (hne : other ≠ "evaluators") :
      (document.without "evaluators").section? other = document.section? other :=
    Value.section?_congr (Value.field_without_of_ne hmap hne)
  rw [ofDocument, ofDocument, Settings.ofDocument_of_map built hmap,
    Settings.ofDocument_of_map built (Value.head_without hmap "evaluators"),
    hsection (by decide), hsection (by decide), Value.field_without_self hmap]
  cases document.section? "display" with
  | error f => rfl
  | ok display =>
    cases document.section? "classifier" with
    | error f => rfl
    | ok classifier => exact build_malformed (TableSources.ofValue_of_isMisshapen built h)

/-- Which documents and sections of the wrong shape are refused. In place of the whole document, the
display or the classifier, a value that is neither null nor a mapping counts as nothing if it is
void, and is refused otherwise; in place of the tables it is always refused, be it void or not, as
soon as the rest of the settings has been read. -/
theorem ofDocument_of_isMisshapen (built : List (Name × Evaluator α)) (document : Value) :
    (document.isMisshapen = true → ofDocument built document =
      if document.isVoid then ofDocument built .null
      else .error (.rootShape document.head.shortTypeName)) ∧
    (∀ name ∈ ["display", "classifier"], (document.field name).isMisshapen = true →
      ((document.field name).isVoid = true →
        ofDocument built document = ofDocument built (document.without name)) ∧
      ((document.field name).isVoid = false → ∃ name ∈ ["display", "classifier"],
        ofDocument built document =
          .error (.sectionShape name (document.field name).head.shortTypeName))) ∧
    ((document.field "evaluators").isMisshapen = true → ofDocument built document =
      ofDocument built (document.without "evaluators") >>= fun _ =>
        .error (.tablesShape (document.field "evaluators").head.shortTypeName)) := by
  refine ⟨ofDocument_of_root built, fun name hname h => ⟨fun hv => ?_, ?_⟩,
    ofDocument_of_tables built⟩
  · obtain ⟨entries, hmap⟩ := Value.exists_map_of_isMisshapen_field h
    have hne : name ≠ "evaluators" := by
      rintro rfl
      simp at hname
    exact ofDocument_of_void built hmap hne hv
  · exact ofDocument_of_section built hname h

/-- Values that are void without being null or a mapping. -/
def voidValues : List Value :=
  [.list [], .tuple [], .text "", .int 0, .atom (.float 0.0), .atom (.bool false)]

/-- In place of the tables each of them is refused. -/
theorem ofDocument_void_tables :
    (voidValues.map fun v => ofDocument (α := Float) [] (.map [(.text "evaluators", v)])) =
      voidValues.map fun v => .error (.tablesShape v.head.shortTypeName) := by
  refine List.map_congr_left fun v hv => ?_
  obtain ⟨_, _, htables⟩ :=
    ofDocument_of_isMisshapen (α := Float) [] (.map [(.text "evaluators", v)])
  have hall : ∀ v ∈ voidValues, v.isMisshapen = true := by decide +kernel
  obtain ⟨c, hc⟩ := exists_of_isOk (x := ofDocument (α := Float) [] (.map []))
    (by decide +kernel)
  have hwithout : (Value.map [(.text "evaluators", v)]).without "evaluators" = .map [] := rfl
  rw [htables (hall v hv), hwithout, hc]
  rfl

/-- None of them is refused as a document, as the display or as the classifier. -/
theorem ofDocument_voidValues :
    voidValues.all Value.isMisshapen = true ∧
    (voidValues.all fun v => (ofDocument (α := Float) [] v).isOk) = true ∧
    (voidValues.all fun v =>
      (ofDocument (α := Float) [] (.map [(.text "display", v)])).isOk) = true ∧
    (voidValues.all fun v =>
      (ofDocument (α := Float) [] (.map [(.text "classifier", v)])).isOk) = true := by
  decide +kernel

end Config

end StrayTouch
