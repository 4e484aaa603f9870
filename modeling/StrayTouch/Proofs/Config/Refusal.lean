import StrayTouch.Proofs.Config
import StrayTouch.Proofs.Document
import StrayTouch.Proofs.Number.Nearest

/-!
What configurations are refused for. The reasons are of one kind, with three exceptions: a whole
number beyond the range, thresholds that nothing can go through, and a reason that cannot be worded
because it has to show a value that cannot be shown.
-/
namespace StrayTouch

variable {α : Type} [Scalar α] {given : Value → Prop} {f : Fault}

/-- A value is one of those given, unless it can be shown anyway. -/
def Value.ShowsWithin (given : Value → Prop) (v : Value) : Prop :=
  (v.obstacle? depthLimit).isSome = true → given v

theorem Value.showsWithin_text (given : Value → Prop) (s : String) :
    (text s).ShowsWithin given := by
  intro h
  simp [text, depthLimit, obstacle?, Atom.isShowable] at h

theorem Value.showsWithin_of_isNull {v : Value} (h : v.isNull = false → given v) :
    v.ShowsWithin given := by
  intro ho
  refine h ?_
  cases hn : v.isNull with
  | false => rfl
  | true =>
    obtain rfl := isNull_iff.mp hn
    cases ho

/-- The refusals of settings that hold no other values than those given. -/
inductive Refusal (α : Type) [Scalar α] (given : Value → Prop) : Fault → Prop
  | own {f : Fault} (hk : f.ownKind = .configuration)
      (hs : ∀ v ∈ f.shownValues, v.ShowsWithin given) : Refusal α given f
  | beyond {n : Int} (hn : given (.int n)) (h : (Scalar.ofInt? n : Option α) = none) :
      Refusal α given .wholeTooLarge
  | unscanned {spec table : Value} {f : Fault} (hs : given spec)
      (ht : spec.field? "thresholds" = some table) (h : table.items = .error f) :
      Refusal α given f

theorem readPair_eq_error {vs : List Value} (h : readPair (α := α) vs = .error f) :
    f.blamesRow = true ∨
      f = .wholeTooLarge ∧ ∃ n, .int n ∈ vs ∧ (Scalar.ofInt? n : Option α) = none := by
  have hread : ∀ v ∈ vs, v.toReal (α := α) = .error f → f.blamesRow = true ∨
      f = .wholeTooLarge ∧ ∃ n, .int n ∈ vs ∧ (Scalar.ofInt? n : Option α) = none := by
    intro v hv hf
    refine (Value.toReal_eq_error hf).imp_right (And.imp_right ?_)
    rintro ⟨n, rfl, hn⟩
    exact ⟨n, hv, hn⟩
  unfold readPair at h
  split at h
  next => exact .inl (Except.error.inj h ▸ rfl)
  next v =>
    rcases bind_eq_error_iff.mp h with hv | ⟨_, _, hf⟩
    · exact hread v (by simp) hv
    · exact .inl (Except.error.inj hf ▸ rfl)
  next v w =>
    rcases bind_eq_error_iff.mp h with hv | ⟨_, _, hf⟩
    · exact hread v (by simp) hv
    rcases bind_eq_error_iff.mp hf with hw | ⟨_, _, hf⟩
    · exact hread w (by simp) hw
    · cases hf
  next v w u rest =>
    rcases bind_eq_error_iff.mp h with hv | ⟨_, _, hf⟩
    · exact hread v (by simp) hv
    rcases bind_eq_error_iff.mp hf with hw | ⟨_, _, hf⟩
    · exact hread w (by simp) hw
    rcases bind_eq_error_iff.mp hf with hu | ⟨_, _, hf⟩
    · exact hread u (by simp) hu
    · exact .inl (Except.error.inj hf ▸ rfl)

namespace Value

variable {row : Value}

/-- A row is refused with the row itself on show. -/
theorem refusal_of_row (hg : ∀ w, row.Reaches w → given w) (hk : f.ownKind = .configuration)
    (hs : f.shownValues = [row]) : Refusal α given f := by
  refine .own hk fun v hv _ => ?_
  rw [hs, List.mem_singleton] at hv
  exact hg v (hv ▸ .refl row)

theorem rowNumbers_refusal (hg : ∀ w, row.Reaches w → given w)
    (h : row.rowNumbers (α := α) = .error f) : Refusal α given f := by
  unfold rowNumbers at h
  cases hr : row.items >>= readPair (α := α) with
  | ok numbers => simp [hr] at h
  | error g =>
    rw [hr] at h
    obtain rfl := Except.error.inj h
    split
    next => exact refusal_of_row hg rfl rfl
    next hb =>
      rcases bind_eq_error_iff.mp hr with hi | ⟨vs, hi, hp⟩
      · exact absurd (items_eq_error hi ▸ rfl) hb
      · obtain ⟨rfl, n, hn, hbig⟩ := (readPair_eq_error hp).resolve_left hb
        exact .beyond (hg _ (reaches_item hi hn)) hbig

theorem readRow_refusal (hg : ∀ w, row.Reaches w → given w)
    (h : row.readRow (α := α) = .error f) : Refusal α given f := by
  rcases bind_eq_error_iff.mp h with hn | ⟨numbers, _, hf⟩
  · exact rowNumbers_refusal hg hn
  · dsimp only at hf
    split at hf
    next =>
      obtain rfl := Except.error.inj hf
      exact refusal_of_row hg rfl rfl
    next =>
      split at hf
      next =>
        obtain rfl := Except.error.inj hf
        exact refusal_of_row hg rfl rfl
      next => cases hf

end Value

namespace Evaluator

theorem ofRows_refusal {direction : Direction} {rows : List Value}
    (hg : ∀ row ∈ rows, ∀ w, row.Reaches w → given w)
    (h : ofRows (α := α) direction rows = .error f) : Refusal α given f := by
  rcases bind_eq_error_iff.mp h with hr | ⟨read, _, hf⟩
  · obtain ⟨row, hrow, hf⟩ := exists_of_mapM_eq_error hr
    exact Value.readRow_refusal (hg row hrow) hf
  · split at hf
    next =>
      obtain rfl := Except.error.inj hf
      exact .own rfl (by simp [Fault.shownValues])
    next => cases hf

theorem readDirection_eq_error {direction : Value} (h : readDirection direction = .error f) :
    f = .badDirection direction := by
  unfold readDirection at h
  split at h
  next =>
    split at h
    next => cases h
    next => exact (Except.error.inj h).symm
  next => exact (Except.error.inj h).symm

theorem ofTable_refusal {table direction : Value} (hd : direction.ShowsWithin given)
    (hg : ∀ w, table.Reaches w → given w) (h : ofTable (α := α) table direction = .error f) :
    table.items = .error f ∨ Refusal α given f := by
  rcases bind_eq_error_iff.mp h with hf | ⟨d, _, hf⟩
  · obtain rfl := readDirection_eq_error hf
    exact .inr (.own rfl (List.forall_mem_singleton.mpr hd))
  rcases bind_eq_error_iff.mp hf with hi | ⟨rows, hi, hr⟩
  · exact .inl hi
  · refine .inr (ofRows_refusal (fun row hrow w hw => ?_) hr)
    exact hg w (.item hi hrow hw)

end Evaluator

/-- Whether a table that is still to be read holds no other values than those given. -/
def TableSource.Within (given : Value → Prop) : TableSource α → Prop
  | .built _ => True
  | .written v => ∀ w, v.Reaches w → given w

/-- The numbers and policies of settings are among the values given, apart from policies that can
be shown anyway. -/
structure Settings.ScalarsWithin (s : Settings α) (given : Value → Prop) : Prop where
  dpi : ∀ v, s.dpi = .value v → v.isNull = false → given v
  rejectThreshold : ∀ v, s.rejectThreshold = .value v → v.isNull = false → given v
  tiePolicy : s.tiePolicy.ShowsWithin given
  failurePolicy : s.failurePolicy.ShowsWithin given

structure Settings.Within (s : Settings α) (given : Value → Prop) : Prop
    extends s.ScalarsWithin given where
  tables : ∀ entries, s.tables = .given entries →
    ∀ e ∈ entries, e.1.value.ShowsWithin given ∧ e.2.Within given

namespace Settings

theorem readNumber_refusal {setting : String} {standard : Float} {r : Reading α}
    (hr : ∀ v, r = .value v → v.isNull = false → given v)
    (h : readNumber setting standard r = .error f) : Refusal α given f := by
  unfold readNumber at h
  split at h
  next => cases h
  next hnull =>
    cases hx : r.toReal with
    | ok x => simp [hx] at h
    | error g =>
      cases r with
      | number x => cases hx
      | value v =>
        have hv := hr v rfl (Bool.eq_false_iff.mpr hnull)
        simp only [hx] at h
        split at h
        next =>
          obtain rfl := Except.error.inj h
          exact .own rfl (List.forall_mem_singleton.mpr fun _ => hv)
        next hb =>
          obtain rfl := Except.error.inj h
          obtain ⟨rfl, n, rfl, hbig⟩ := (Value.toReal_eq_error hx).resolve_left hb
          exact .beyond hv hbig

theorem readPolicy_refusal {π : Type} {setting : String} {choices : List (String × π)}
    {standard : π} {v : Value} (hv : v.ShowsWithin given)
    (h : readPolicy setting choices standard v = .error f) : Refusal α given f := by
  have hbad : Refusal α given (.badPolicy setting (choices.map Prod.fst) v) :=
    .own rfl (List.forall_mem_singleton.mpr hv)
  unfold readPolicy at h
  split at h
  next => cases h
  next =>
    split at h
    next =>
      split at h
      next => cases h
      next => exact Except.error.inj h ▸ hbad
    next => exact Except.error.inj h ▸ hbad

theorem readScalars_refusal {s : Settings α} (hs : s.ScalarsWithin given)
    (h : s.readScalars = .error f) : Refusal α given f := by
  rcases bind_eq_error_iff.mp h with hd | ⟨dpi, _, h⟩
  · exact readNumber_refusal hs.dpi hd
  rcases bind_eq_error_iff.mp h with ht | ⟨threshold, _, h⟩
  · exact readNumber_refusal hs.rejectThreshold ht
  split at h
  next =>
    obtain rfl := Except.error.inj h
    exact .own rfl (by simp [Fault.shownValues])
  split at h
  next =>
    obtain rfl := Except.error.inj h
    exact .own rfl (by simp [Fault.shownValues])
  rcases bind_eq_error_iff.mp h with hp | ⟨_, _, h⟩
  · exact readPolicy_refusal hs.tiePolicy hp
  rcases bind_eq_error_iff.mp h with hp | ⟨_, _, h⟩
  · exact readPolicy_refusal hs.failurePolicy hp
  · cases h

theorem refusal_of_list {v : Value} {items : List Value} (hs : ∀ w, v.Reaches w → given w)
    (hi : v.items = .ok items)
    (h : Evaluator.ofTable (α := α) v (.text Direction.above.name) = .error f) :
    Refusal α given f := by
  rcases Evaluator.ofTable_refusal (Value.showsWithin_text given _) hs h with hf | hr
  · rw [hi] at hf
    cases hf
  · exact hr

theorem readTable_refusal {feature : Name} {source : TableSource α}
    (hn : feature.value.ShowsWithin given) (hs : source.Within given)
    (h : readTable feature source = .error f) : Refusal α given f := by
  cases source with
  | built ev => cases h
  | written v =>
    have hname : ∀ v ∈ [feature.value], v.ShowsWithin given :=
      List.forall_mem_singleton.mpr hn
    simp only [readTable] at h
    split at h
    next entries he =>
      split at h
      next =>
        obtain rfl := Except.error.inj h
        exact .own rfl hname
      next table ht =>
        have htable := fun w hw => hs w ((Value.reaches_field? ht).trans hw)
        have hdirection : ((v.field? "direction").getD
            (.text Direction.above.name)).ShowsWithin given := by
          cases hd : v.field? "direction" with
          | none => exact Value.showsWithin_text given _
          | some d => exact fun _ => hs d (Value.reaches_field? hd)
        rcases Evaluator.ofTable_refusal hdirection htable h with hi | hr
        · exact .unscanned (hs v (.refl v)) ht hi
        · exact hr
    next hv => exact refusal_of_list hs (Value.items_of_list hv) h
    next hv => exact refusal_of_list hs (Value.items_of_tuple hv) h
    next =>
      obtain rfl := Except.error.inj h
      exact .own rfl hname

theorem exists_of_readTables_eq_error {entries : List (Name × TableSource α)}
    (h : readTables entries = .error f) : ∃ e ∈ entries, readTable e.1 e.2 = .error f := by
  induction entries with
  | nil => cases h
  | cons e entries ih =>
    rcases bind_eq_error_iff.mp h with hf | ⟨_, _, hf⟩
    · exact ⟨e, List.mem_cons_self, hf⟩
    rcases bind_eq_error_iff.mp hf with ho | ⟨_, _, hf⟩
    · obtain ⟨other, hm, ho⟩ := ih ho
      exact ⟨other, List.mem_cons_of_mem _ hm, ho⟩
    · cases hf

end Settings

namespace Config

/-- All the ways in which settings are refused. -/
theorem build_eq_error {s : Settings α} (h : build s = .error f) :
    s.readScalars = .error f ∨ (∃ typeName, f = .tablesShape typeName) ∨
      ∃ entries, s.readSources = .ok entries ∧
        ∃ e ∈ merged entries, Settings.readTable e.1 e.2 = .error f := by
  rcases bind_eq_error_iff.mp h with hf | ⟨_, _, hf⟩
  · exact .inl hf
  rcases bind_eq_error_iff.mp hf with he | ⟨entries, he, hf⟩
  · refine .inr (.inl ?_)
    unfold Settings.readSources at he
    split at he
    next => cases he
    next => cases he
    next typeName _ => exact ⟨typeName, (Except.error.inj he).symm⟩
  rcases bind_eq_error_iff.mp hf with ht | ⟨_, _, hf⟩
  · exact .inr (.inr ⟨entries, he, Settings.exists_of_readTables_eq_error ht⟩)
  · cases hf

theorem build_refusal {s : Settings α} (hs : s.Within given) (h : build s = .error f) :
    Refusal α given f := by
  rcases build_eq_error h with hf | ⟨typeName, rfl⟩ | ⟨entries, hentries, e, he, hf⟩
  · exact Settings.readScalars_refusal hs.toScalarsWithin hf
  · exact .own rfl (by simp [Fault.shownValues])
  · have hwithin : ∀ t ∈ entries, t.1.value.ShowsWithin given ∧ t.2.Within given := by
      unfold Settings.readSources at hentries
      split at hentries
      next =>
        cases hentries
        simp
      next ht =>
        cases hentries
        exact hs.tables _ ht
      next => cases hentries
    have hdefault : ∀ t ∈ defaultEvaluators (α := α),
        t.1.value.ShowsWithin given ∧ t.2.Within given :=
      List.forall_mem_map.mpr fun d _ => ⟨Value.showsWithin_text given d.1, trivial⟩
    obtain ⟨hname, hsource⟩ := forall_mem_merged (P := fun name =>
      name.value.ShowsWithin given) (Q := fun t => t.Within given) hdefault hwithin e he
    exact Settings.readTable_refusal hname hsource hf

/-- At another density only the density can be refused: the rest has been read before. -/
theorem withDpi_refusal {c : Config α} {dpi : Value} (hd : dpi.isNull = false → given dpi)
    (h : c.withDpi dpi = .error f) : Refusal α given f := by
  rcases build_eq_error h with hf | ⟨typeName, rfl⟩ | ⟨entries, hentries, e, he, hf⟩
  · refine Settings.readScalars_refusal ⟨fun v hv hn => ?_, fun v hv => ?_, ?_, ?_⟩ hf
    · obtain rfl := Reading.value.inj hv
      exact hd hn
    · cases hv
    · exact Value.showsWithin_text given _
    · exact Value.showsWithin_text given _
  · exact .own rfl (by simp [Fault.shownValues])
  · have hready : ∀ t ∈ merged entries, True ∧ ∃ ev, t.2 = .built ev := by
      obtain rfl := Except.ok.inj hentries
      exact forall_mem_merged (P := fun _ => True) (Q := fun t => ∃ ev, t = .built ev)
        (List.forall_mem_map.mpr fun _ _ => ⟨trivial, _, rfl⟩)
        (List.forall_mem_map.mpr fun _ _ => ⟨trivial, _, rfl⟩)
    obtain ⟨_, ev, hev⟩ := hready e he
    rw [hev] at hf
    cases hf

theorem reaches_of_section? {root v document : Value} {name : String}
    (hr : ∀ w field, root.field field = w → w.isNull = false → document.Reaches w)
    (h : root.section? name = .ok v) {w : Value} {field : String} (hw : v.field field = w)
    (hn : w.isNull = false) : document.Reaches w := by
  unfold Value.section? at h
  simp only at h
  split at h
  next =>
    obtain rfl := Except.ok.inj h
    subst hw
    cases hn
  next =>
    split at h
    next hmap =>
      obtain rfl := Except.ok.inj h
      refine (hr _ name rfl ?_).trans (Value.reaches_of_field hw hn)
      cases hs : root.field name with
      | atom a => simp [hs] at hmap
      | _ => rfl
    next => cases h

omit [Scalar α] in
theorem reaches_of_tables {built : List (Name × Evaluator α)} {v : Value}
    {entries : List (Name × TableSource α)} (hv : v.isNull = false → ∀ w, v.Reaches w → given w)
    (h : TableSources.ofValue built v = .given entries) :
    ∀ e ∈ entries, e.1.value.ShowsWithin given ∧ e.2.Within given := by
  unfold TableSources.ofValue at h
  split at h
  next => cases h
  next sources hmap =>
    have hnull : v.isNull = false := by
      cases v with
      | atom a => cases hmap
      | _ => rfl
    obtain rfl := TableSources.given.inj h
    refine List.forall_mem_map.mpr fun e he => ?_
    split
    next => exact ⟨fun _ => hv hnull _ (Value.reaches_key hmap he), trivial⟩
    next =>
      exact ⟨fun _ => hv hnull _ (Value.reaches_key hmap he),
        fun w hw => hv hnull w (.entry hmap he hw)⟩
  next => cases h

omit [Scalar α] in
/-- The settings of a document hold what the document holds. -/
theorem within_of_ofDocument {built : List (Name × Evaluator α)} {document : Value}
    {s : Settings α} (h : Settings.ofDocument built document = .ok s) :
    s.Within document.Reaches := by
  obtain ⟨root, display, classifier, hroot, hd, hc, rfl⟩ := Settings.ofDocument_eq_ok h
  have hfield : ∀ w field, root.field field = w → w.isNull = false → document.Reaches w := by
    intro w field hw hn
    rw [hroot] at hw
    split at hw
    next =>
      subst hw
      cases hn
    next => exact Value.reaches_of_field hw hn
  exact {
    dpi := fun v hv hn => reaches_of_section? hfield hd (Reading.value.inj hv) hn
    rejectThreshold := fun v hv hn => reaches_of_section? hfield hc (Reading.value.inj hv) hn
    tiePolicy := Value.showsWithin_of_isNull fun hn => reaches_of_section? hfield hc rfl hn
    failurePolicy := Value.showsWithin_of_isNull fun hn => reaches_of_section? hfield hc rfl hn
    tables := fun entries ht =>
      reaches_of_tables (fun hn w hw => (hfield _ _ rfl hn).trans hw) ht }

theorem section?_refusal {v : Value} {name : String} (h : v.section? name = .error f) :
    Refusal α given f := by
  unfold Value.section? at h
  simp only at h
  split at h
  next => cases h
  next =>
    split at h
    next => cases h
    next =>
      obtain rfl := Except.error.inj h
      exact .own rfl (by simp [Fault.shownValues])

theorem settings_refusal {built : List (Name × Evaluator α)} {document : Value}
    (h : Settings.ofDocument built document = .error f) : Refusal α given f := by
  unfold Settings.ofDocument at h
  simp only at h
  split at h
  next =>
    rcases bind_eq_error_iff.mp h with hd | ⟨_, _, hf⟩
    · exact section?_refusal hd
    rcases bind_eq_error_iff.mp hf with hc | ⟨_, _, hf⟩
    · exact section?_refusal hc
    · cases hf
  next =>
    obtain rfl := Except.error.inj h
    exact .own rfl (by simp [Fault.shownValues])

/-- A document gives a configuration or is refused for something that it holds. -/
theorem ofDocument_refusal {built : List (Name × Evaluator α)} {document : Value}
    (h : ofDocument built document = .error f) : Refusal α document.Reaches f := by
  rcases bind_eq_error_iff.mp h with hs | ⟨s, hs, hf⟩
  · exact settings_refusal hs
  · exact build_refusal (within_of_ofDocument hs) hf

/-- A document gives a configuration or is refused as one that gives none, unless it holds a whole
number beyond the range, thresholds that nothing can go through, or a value that cannot be shown in
the reason. -/
theorem ofDocument_refusal_kinds (built : List (Name × Evaluator Float)) (document : Value) :
    (∃ c, ofDocument built document = .ok c) ∨
    ∃ f, ofDocument built document = .error f ∧
      (f.kind = .configuration ∨
        (f.kind = .overflow ∧
          ∃ n, document.Reaches (.int n) ∧ Binary64.overflowBound ≤ n.natAbs) ∨
        (f.kind = .type ∧ ∃ spec table, document.Reaches spec ∧
          spec.field? "thresholds" = some table ∧ table.items = .error f) ∨
        ∃ v o, document.Reaches v ∧ v.obstacle? Value.depthLimit = some o ∧
          f.kind = (Fault.ofObstacle o).ownKind) := by
  cases h : ofDocument built document with
  | ok c => exact .inl ⟨c, rfl⟩
  | error f =>
    refine .inr ⟨f, rfl, ?_⟩
    cases ofDocument_refusal h with
    | own hk hs =>
      rcases f.kind_cases with hf | ⟨v, hv, o, ho, hf⟩
      · exact .inl (hf.trans hk)
      · exact .inr (.inr (.inr ⟨v, o, hs v hv (by rw [ho]; rfl), ho, hf⟩))
    | @beyond n hn hbig =>
      have hlarge := (Binary64.nearest?_eq_none_iff one_pos).mp hbig
      exact .inr (.inl ⟨rfl, n, hn, by simpa using hlarge⟩)
    | unscanned hs ht hi =>
      exact .inr (.inr (.inl ⟨Value.items_eq_error hi ▸ rfl, _, _, hs, ht, hi⟩))

/-- A density beyond the range. -/
def endlessDensity : Value :=
  .map [(.text "display", .map [(.text "dpi", .int (10 ^ 400))])]

/-- A table that is a single number. -/
def loneThreshold : Value :=
  .map [(.text "evaluators", .map [(.text "speed", .map [(.text "thresholds", .int 5)])])]

/-- Both are refused, and neither as a document that gives no configuration. -/
theorem ofDocument_endlessDensity :
    (∃ f, ofDocument (α := Float) [] endlessDensity = .error f ∧ f.kind = .overflow) ∧
      ∃ f, ofDocument (α := Float) [] loneThreshold = .error f ∧ f.kind = .type :=
  ⟨exists_of_kind? (by decide +kernel), exists_of_kind? (by decide +kernel)⟩

end Config

end StrayTouch
