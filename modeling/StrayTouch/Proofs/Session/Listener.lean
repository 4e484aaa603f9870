import StrayTouch.Proofs.Engine.Range
import StrayTouch.Proofs.Session.Independence
import StrayTouch.Proofs.Tuning.Log

/-!
What hears of verdicts never reaches them. Whatever listens and however it fails, a session answers
alike and leaves the same gestures; and a tuning log that can write counts every verdict that is
delivered and writes down each whose contacts can be named.
-/
namespace StrayTouch

variable {α : Type}

namespace Response

def verdict? : Response α → Option (Verdict α)
  | reply r => r.verdict?
  | _ => none

end Response

variable [Scalar α]

namespace Verdict

variable {c : Config α} {tags : List Name} {judged : List (Name × List (Judgement α))}

theorem mem_tags_of_mem_scores {e : Name × α} (h : e ∈ (ofJudgements c tags judged).scores) :
    e.1 ∈ tags := by
  rw [ofJudgements, Tally.foldl_addStroke, ofTally, Tally.totals_eq_map] at h
  obtain ⟨x, hx, rfl⟩ := List.mem_map.mp h
  obtain ⟨tag, htag, rfl⟩ := List.mem_map.mp hx
  exact htag

theorem exists_judgement_of_mem_strokeScores {s : Name × List (Name × α)} {e : Name × α}
    (h : s ∈ (ofJudgements c tags judged).strokeScores) (he : e ∈ s.2) :
    ∃ x ∈ judged, ∃ j ∈ x.2, j.tag = e.1 := by
  rw [ofJudgements, Tally.foldl_addStroke] at h
  have hrow := Keyed.value_mem_of_mem_ofEntries h
  rw [List.map_map] at hrow
  obtain ⟨x, hx, hs⟩ := List.mem_map.mp hrow
  obtain ⟨j, hj, rfl⟩ := List.mem_map.mp (hs ▸ he)
  exact ⟨x, hx, j, hj, rfl⟩

theorem exists_failure_of_mem_failed {tag : Name}
    (h : tag ∈ (ofJudgements c tags judged).failed) : ∃ s ∈ judged, ∃ j ∈ s.2, j.tag = tag := by
  rw [ofJudgements, Tally.foldl_addStroke] at h
  have hm := Tally.failures_eq_eraseDupsBy _ ▸ h
  obtain ⟨j, hj, rfl⟩ := List.mem_map.mp (Name.eraseDupsBy_subset _ hm)
  obtain ⟨s, hs, hj⟩ := List.mem_flatMap.mp (List.mem_filter.mp hj).1
  exact ⟨s, hs, j, hj, rfl⟩

end Verdict

namespace Engine

/-- A name is the tag of a classifier of the engine. -/
def IsTag (e : Engine α) (tag : Name) : Prop :=
  ∃ k ∈ e.classifiers, k.tag = tag.value

/-- A verdict speaks of classifiers of the engine only. -/
theorem tags_of_verdict {e : Engine α} {g : Gesture α} {c : Call} {v : Verdict α}
    (h : (e.step g c).1 = .verdict v) :
    (∀ x ∈ v.scores, e.IsTag x.1) ∧ (∀ s ∈ v.strokeScores, ∀ x ∈ s.2, e.IsTag x.1) ∧
      ∀ tag ∈ v.failed, e.IsTag tag := by
  have he := e.step_effect g c
  rw [h] at he
  generalize (e.step g c).2 = after at he
  cases he with
  | evaluate hc hv =>
    obtain ⟨panel, hp, _, _, rfl, _⟩ := evaluate_eq_ok_iff.mp hv
    have hmember : ∀ m ∈ panel, e.IsTag m.tag := by
      intro m hm
      obtain ⟨k, hk, hseat⟩ := exists_of_forall₂ (Member.panel_eq_ok_iff.mp hp).1 hm
      exact ⟨k, hk, hseat.tag⟩
    have hjudged : ∀ s ∈ e.judgements panel (g.freezeAll.withPhase .evaluating),
        ∀ j ∈ s.2, e.IsTag j.tag := by
      intro s hs j hj
      obtain ⟨x, _, rfl⟩ := List.mem_map.mp hs
      obtain ⟨m, hm, rfl⟩ := List.mem_map.mp hj
      exact hmember m hm
    refine ⟨fun x hx => ?_, fun s hs x hx => ?_, fun tag ht => ?_⟩
    · obtain ⟨m, hm, htag⟩ := List.mem_map.mp (Verdict.mem_tags_of_mem_scores hx)
      exact htag ▸ hmember m hm
    · obtain ⟨y, hy, j, hj, htag⟩ := Verdict.exists_judgement_of_mem_strokeScores hs hx
      exact htag ▸ hjudged y hy j hj
    · obtain ⟨y, hy, j, hj, htag⟩ := Verdict.exists_failure_of_mem_failed ht
      exact htag ▸ hjudged y hy j hj

omit [Scalar α] in
theorem IsTag.exists_text {e : Engine α} {tag : Name} (h : e.IsTag tag)
    (htags : ∀ k ∈ e.classifiers, k.tag.typeName = "str") :
    ∃ a : Atom, tag = .atom a ∧ a.typeName = "str" := by
  obtain ⟨k, hk, htag⟩ := h
  have hname := htags k hk
  rw [htag] at hname
  cases tag with
  | atom a => exact ⟨a, rfl, hname⟩
  | tuple items => simp [Name.value, Value.typeName] at hname

omit [Scalar α] in
theorem IsTag.isDataKey {e : Engine α} {tag : Name} (h : e.IsTag tag)
    (htags : ∀ k ∈ e.classifiers, k.tag.typeName = "str") : tag.isDataKey = true := by
  obtain ⟨a, rfl, ha⟩ := h.exists_text htags
  cases a with
  | text s => rfl
  | points ns => rfl
  | _ => simp [Atom.typeName] at ha

theorem readable_report {e : Engine α} {g : Gesture α} {c : Call} {v : Verdict α}
    (htags : ∀ k ∈ e.classifiers, k.tag.typeName = "str") (h : (e.step g c).1 = .verdict v) :
    v.report.Readable := by
  obtain ⟨hscores, hstrokes, hfailed⟩ := tags_of_verdict h
  constructor
  case aggregate =>
    rw [Verdict.report]
    split
    · rfl
    · exact Value.dataFault?_float _
  case threshold => exact Value.dataFault?_float _
  case scores =>
    exact List.forall_mem_map.mpr fun x hx => ⟨(hscores x hx).isDataKey htags, _, rfl⟩
  case strokeScores =>
    refine List.forall_mem_map.mpr fun s hs => List.forall_mem_map.mpr fun x hx => ?_
    exact ⟨(hstrokes s hs x hx).isDataKey htags, _, rfl⟩
  case failed =>
    refine List.forall_mem_map.mpr fun tag htag => ?_
    obtain ⟨a, rfl, ha⟩ := (hfailed tag htag).exists_text htags
    exact ⟨a, rfl, ha⟩

end Engine

namespace Session

/-- Sessions that differ in their listeners at most. -/
structure Alike (s t : Session α) : Prop where
  engine : s.engine = t.engine
  handles : s.handles = t.handles

variable {s t : Session α}

/-- A command is answered without regard to the listener, and does the same to all else. -/
theorem Alike.step (h : s.Alike t) (c : Command) :
    (s.step c).1 = (t.step c).1 ∧ (s.step c).2.1.Alike (t.step c).2.1 := by
  obtain ⟨e, gs, l⟩ := s
  obtain ⟨e', gs', other⟩ := t
  obtain ⟨rfl, rfl⟩ := h
  cases c with
  | begin => exact ⟨rfl, rfl, rfl⟩
  | call n c =>
    cases hn : gs[n]? with
    | none =>
      rw [step_call_of_none hn, step_call_of_none hn]
      exact ⟨rfl, rfl, rfl⟩
    | some g =>
      rw [step_call hn, step_call hn]
      exact ⟨rfl, rfl, rfl⟩

theorem Alike.run (h : s.Alike t) (cs : List Command) :
    (s.run cs).1 = (t.run cs).1 ∧ (s.run cs).2.1.Alike (t.run cs).2.1 := by
  induction cs generalizing s t with
  | nil => exact ⟨rfl, h⟩
  | cons c cs ih =>
    obtain ⟨hresponse, hafter⟩ := h.step c
    obtain ⟨hresponses, hlast⟩ := ih hafter
    exact ⟨congrArg₂ List.cons hresponse hresponses, hlast⟩

/-- The lines that a verdict becomes. -/
def linesOf (v : Verdict α) : List String :=
  if v.report.namesContacts then [v.report.toValue.data] else []

/-- A tuning log that can write, in a session of classifiers with texts for tags. -/
structure Writes (s : Session α) (count : Nat) (lines : List String) : Prop where
  tags : ∀ k ∈ s.engine.classifiers, k.tag.typeName = "str"
  log : ∃ t, s.listener = .log t ∧ t.Holds count lines

variable {count : Nat} {lines : List String}

theorem Writes.step (h : s.Writes count lines) (c : Command) :
    (s.step c).2.1.Writes (count + (s.step c).1.verdict?.toList.length)
      (lines ++ (s.step c).1.verdict?.toList.flatMap linesOf) := by
  obtain ⟨t, hl, ht⟩ := h.log
  have htags : ∀ k ∈ (s.step c).2.1.engine.classifiers, k.tag.typeName = "str" := by
    rw [step_engine]
    exact h.tags
  have hsilent (hv : (s.step c).1.verdict? = none) (hs : (s.step c).2.1.listener = s.listener) :
      (s.step c).2.1.Writes (count + (s.step c).1.verdict?.toList.length)
        (lines ++ (s.step c).1.verdict?.toList.flatMap linesOf) := by
    rw [hv]
    exact ⟨htags, t, hs.trans hl, by simpa using ht⟩
  cases c with
  | begin => exact hsilent rfl rfl
  | call n c =>
    cases hn : s.handles[n]? with
    | none =>
      rw [step_call_of_none hn] at hsilent ⊢
      exact hsilent rfl rfl
    | some g =>
      rw [step_call hn] at hsilent htags ⊢
      cases hr : (s.engine.step g c).1 with
      | done =>
        rw [hr] at hsilent
        exact hsilent rfl rfl
      | refused f =>
        rw [hr] at hsilent
        exact hsilent rfl rfl
      | verdict v =>
        have hlog := ht.log (Engine.readable_report h.tags hr)
        refine ⟨htags, (t.log v.report).2.1, ?_, ?_⟩
        · rw [inform_fst_verdict, hl]
          rfl
        · simpa [Response.verdict?, Reply.verdict?, linesOf] using hlog

theorem Writes.run (h : s.Writes count lines) (cs : List Command) :
    (s.run cs).2.1.Writes (count + ((s.run cs).1.filterMap Response.verdict?).length)
      (lines ++ ((s.run cs).1.filterMap Response.verdict?).flatMap linesOf) := by
  induction cs generalizing s count lines with
  | nil => simpa [Session.run] using h
  | cons c cs ih =>
    have hlast := ih (h.step c)
    have hverdicts : (s.run (c :: cs)).1.filterMap Response.verdict? =
        (s.step c).1.verdict?.toList ++
          ((s.step c).2.1.run cs).1.filterMap Response.verdict? := by
      rw [Session.run, List.filterMap_cons]
      cases (s.step c).1.verdict? <;> rfl
    rw [hverdicts, List.length_append, List.flatMap_append, ← Nat.add_assoc, ← List.append_assoc]
    exact hlast

theorem flatMap_linesOf (vs : List (Verdict α)) :
    vs.flatMap linesOf =
      (vs.filter fun v => v.report.namesContacts).map fun v => v.report.toValue.data := by
  induction vs with
  | nil => rfl
  | cons v vs ih =>
    rw [List.flatMap_cons, ih, linesOf, List.filter_cons]
    split <;> rfl

/-- All that is written down is written down of every verdict exactly if all contacts can be
named. -/
theorem flatMap_linesOf_eq_iff (vs : List (Verdict α)) :
    vs.flatMap linesOf = vs.map (fun v => v.report.toValue.data) ↔
      ∀ v ∈ vs, v.report.namesContacts = true := by
  rw [flatMap_linesOf]
  constructor
  · intro h
    have hlength := congrArg List.length h
    rw [List.length_map, List.length_map] at hlength
    exact List.length_filter_eq_length_iff.mp hlength
  · intro h
    rw [List.filter_eq_self.mpr h]

/-- Two listeners, whatever they do with the verdicts that they hear of, leave all responses of a
session and all its gestures the same. A tuning log whose file takes every line, in a session of
classifiers with texts for tags, counts the verdicts that are delivered and writes down, in their
order, those of contacts that can be named, each as the line of its report. -/
theorem listener_never_decides (e : Engine α) (cs : List Command) :
    (∀ l other : Listener,
      ((start e l).run cs).1 = ((start e other).run cs).1 ∧
      ((start e l).run cs).2.1.handles = ((start e other).run cs).2.1.handles) ∧
    ∀ (t : TuningLog) (f : LineFile), t.file = some f → (∀ n, f.fault? n = none) →
      (∀ k ∈ e.classifiers, k.tag.typeName = "str") →
      let verdicts := ((start e (.log t)).run cs).1.filterMap Response.verdict?
      ∃ after, ((start e (.log t)).run cs).2.1.listener = .log after ∧
        after.count = t.count + verdicts.length ∧
        after.lines = f.lines ++ (verdicts.filter fun v => v.report.namesContacts).map
          (fun v => v.report.toValue.data) ∧
        (after.lines = f.lines ++ verdicts.map (fun v => v.report.toValue.data) ↔
          ∀ v ∈ verdicts, v.report.namesContacts = true) := by
  constructor
  · intro l other
    have halike : (start e l).Alike (start e other) := ⟨rfl, rfl⟩
    obtain ⟨hresponses, hlast⟩ := halike.run cs
    exact ⟨hresponses, hlast.handles⟩
  · intro t f hf hw htags verdicts
    have hlines : t.lines = f.lines := by rw [TuningLog.lines, hf]
    have hstart : (start e (.log t)).Writes t.count f.lines :=
      ⟨htags, t, rfl, rfl, hlines, f, hf, hw⟩
    obtain ⟨_, after, hl, hafter⟩ := hstart.run cs
    refine ⟨after, hl, hafter.count_eq, ?_, ?_⟩
    · rw [hafter.lines_eq, flatMap_linesOf]
    · rw [hafter.lines_eq, List.append_cancel_left_eq, flatMap_linesOf_eq_iff]

/-- A contact that is pressed, and the verdict on it. -/
def pressOnce (id : Int) : List Command :=
  [.begin,
    .call 0 (.point (.int id) ⟨.atom (.float 1.5), .atom (.float 0.5), .int 0, .null⟩),
    .call 0 .evaluate]

theorem writes_pressOnce :
    ∃ v after, ((start Engine.contactCounter (.log (.appending ["first"]))).run
        (pressOnce 7)).2.1.listener = .log after ∧
      ((start Engine.contactCounter (.log (.appending ["first"]))).run
        (pressOnce 7)).1.filterMap Response.verdict? = [v] ∧
      after.count = 1 ∧ after.lines = ["first", v.report.toValue.data] := by
  obtain ⟨after, hl, hcount, _, hlines⟩ :=
    (listener_never_decides Engine.contactCounter (pressOnce 7)).2 (.appending ["first"])
      (.opened ["first"]) rfl (fun _ => rfl) (by decide)
  have hall : (((start Engine.contactCounter (.log (.appending ["first"]))).run
      (pressOnce 7)).1.filterMap Response.verdict?).map (fun v => v.report.namesContacts) =
        [true] := by decide +kernel
  obtain ⟨v, hverdicts, hv⟩ := List.map_eq_singleton_iff.mp hall
  rw [hverdicts] at hcount hlines
  exact ⟨v, after, hl, hverdicts, hcount, hlines.mpr (List.forall_mem_singleton.mpr hv)⟩

/-- The verdict on a contact with too many digits to be shown is delivered and counted, but no line
of it is written, although the file takes every line. -/
theorem unwritten_pressOnce :
    (∀ k ∈ Engine.contactCounter.classifiers, k.tag.typeName = "str") ∧
    (∀ n, (LineFile.opened []).fault? n = none) ∧
    ∃ v after, ((start Engine.contactCounter (.log (.appending []))).run
        (pressOnce Atom.shownBound)).2.1.listener = .log after ∧
      ((start Engine.contactCounter (.log (.appending []))).run
        (pressOnce Atom.shownBound)).1.filterMap Response.verdict? = [v] ∧
      after.count = 1 ∧ after.lines = [] := by
  have htags : ∀ k ∈ Engine.contactCounter.classifiers, k.tag.typeName = "str" := by decide
  have hstart : (start Engine.contactCounter (.log (.appending []))).Writes 0 [] :=
    ⟨htags, .appending [], rfl, rfl, rfl, .opened [], rfl, fun _ => rfl⟩
  obtain ⟨_, after, hl, hafter⟩ := hstart.run (pressOnce Atom.shownBound)
  have hall : (((start Engine.contactCounter (.log (.appending []))).run
      (pressOnce Atom.shownBound)).1.filterMap Response.verdict?).map
        (fun v => v.report.namesContacts) = [false] := by decide +kernel
  obtain ⟨v, hverdicts, hv⟩ := List.map_eq_singleton_iff.mp hall
  rw [hverdicts] at hafter
  have hlines : after.lines = linesOf v := by simpa using hafter.lines_eq
  rw [linesOf, hv] at hlines
  exact ⟨htags, fun _ => rfl, v, after, hl, hverdicts, hafter.count_eq, hlines⟩

end Session

end StrayTouch
