import StrayTouch.Config.Steps
import StrayTouch.Proofs.Config
import StrayTouch.Proofs.Gesture.Steps

/-!
What the steps of making a configuration come to: the configuration that `Config.build` gives, or its
fault, and a shelf on which all that stood there stands as it did. All writing is done in mappings
that have been laid for it.
-/
namespace StrayTouch

variable {α : Type}

namespace Shelf

variable {shelf after : Shelf α} {m : List (Name × TableSource α)}

theorem entries_run (n : Nat) (shelf : Shelf α) :
    (entries n).run shelf = .ok (shelf.getD n []) shelf := rfl

theorem lay_run (m : List (Name × TableSource α)) (shelf : Shelf α) :
    (lay m).run shelf = .ok shelf.length (shelf ++ [m]) := rfl

theorem copy_run (n : Nat) (shelf : Shelf α) :
    (copy n).run shelf = .ok shelf.length (shelf ++ [shelf.getD n []]) := rfl

theorem getD_of_prefix (h : shelf <+: after) {n : Nat} (hn : shelf[n]? = some m) :
    after.getD n [] = m := by
  obtain ⟨more, rfl⟩ := h
  have hlt : n < shelf.length := (List.getElem?_eq_some_iff.mp hn).1
  rw [List.getD_eq_getElem?_getD, List.getElem?_append_left hlt, hn]
  rfl

theorem getD_length (shelf : Shelf α) (m : List (Name × TableSource α)) :
    (shelf ++ [m]).getD shelf.length [] = m := by
  simp

/-- Writing in the mapping laid last leaves those before it as they are. -/
theorem write_run (shelf : Shelf α) (m : List (Name × TableSource α)) (name : Name)
    (source : TableSource α) :
    (write shelf.length name source).run (shelf ++ [m]) =
      .ok () (shelf ++ [Keyed.put m name source]) := by
  have hmodify : (shelf ++ [m]).modify shelf.length (fun m => Keyed.put m name source) =
      shelf ++ [Keyed.put m name source] := by
    induction shelf with
    | nil => rfl
    | cons first rest ih => exact congrArg (List.cons first) ih
  rw [← hmodify]
  rfl

theorem forM_write_run (shelf : Shelf α) (m es : List (Name × TableSource α)) :
    (forM es fun e => write shelf.length e.1 e.2).run (shelf ++ [m]) =
      .ok () (shelf ++ [es.foldl (fun m e => Keyed.put m e.1 e.2) m]) := by
  induction es generalizing m with
  | nil => rfl
  | cons e es ih =>
    rw [List.forM_cons, EStateM.run_bind, write_run]
    exact ih _

variable [Scalar α]

theorem read_run_of_ok {name : Name} {source : TableSource α} {ev : Evaluator α}
    (h : Settings.readTable name source = .ok ev) (shelf : Shelf α)
    (m : List (Name × TableSource α)) :
    (read shelf.length name source).run (shelf ++ [m]) =
      .ok () (shelf ++ [Keyed.put m name (.built ev)]) := by
  rw [read, EStateM.run_bind, h, Steps.run_of_ok]
  exact write_run shelf m name (.built ev)

theorem forM_read_run_of_ok {es : List (Name × TableSource α)} {tables : List (Name × Evaluator α)}
    (h : Settings.readTables es = .ok tables) (shelf : Shelf α) (m : List (Name × TableSource α)) :
    (forM es fun e => read shelf.length e.1 e.2).run (shelf ++ [m]) =
      .ok () (shelf ++
        [(tables.map fun t => (t.1, .built t.2)).foldl (fun m e => Keyed.put m e.1 e.2) m]) := by
  rw [Settings.readTables_eq_ok_iff] at h
  induction h generalizing m with
  | nil => rfl
  | @cons e t es tables ht _ ih =>
    rw [List.forM_cons, EStateM.run_bind, read_run_of_ok ht.2, List.map_cons, List.foldl_cons, ht.1]
    exact ih _

/-- Where a table cannot be read, those before it have been written. -/
theorem forM_read_run_of_error {es : List (Name × TableSource α)} {f : Fault}
    (h : Settings.readTables es = .error f) (shelf : Shelf α) (m : List (Name × TableSource α)) :
    ∃ partly, (forM es fun e => read shelf.length e.1 e.2).run (shelf ++ [m]) =
      .error f (shelf ++ [partly]) := by
  induction es generalizing m with
  | nil => cases h
  | cons e es ih =>
    obtain ⟨name, source⟩ := e
    rw [List.forM_cons, EStateM.run_bind]
    rcases bind_eq_error_iff.mp h with hf | ⟨ev, hev, hf⟩
    · exact ⟨m, by rw [read, EStateM.run_bind, hf, Steps.run_of_error]⟩
    · rw [read_run_of_ok hev]
      rcases bind_eq_error_iff.mp hf with hrest | ⟨_, _, hdone⟩
      · exact ih hrest _
      · cases hdone

end Shelf

namespace Config

/-- A configuration in its place is the one given: it has its numbers and its policies, and its tables
stand in the mapping under its number. -/
structure Placed.Shows (shelf : Shelf α) (p : Placed α) (c : Config α) : Prop where
  dpi : p.dpi = c.dpi
  rejectThreshold : p.rejectThreshold = c.rejectThreshold
  tiePolicy : p.tiePolicy = c.tiePolicy
  failurePolicy : p.failurePolicy = c.failurePolicy
  tables : shelf[p.place]? = some (c.tables.map fun t => (t.1, .built t.2))

/-- How steps end that make a configuration: with the one given, whose tables stand in a mapping that
was not there before, or with the fault given. In both cases all mappings are there that were there,
as they were. -/
inductive Ends (shelf : Shelf α) :
    EStateM.Result Fault (Shelf α) (Placed α) → Except Fault (Config α) → Prop
  | made {p : Placed α} {c : Config α} {after : Shelf α} (hkept : shelf <+: after)
      (hown : shelf.length ≤ p.place) (hshows : p.Shows after c) : Ends shelf (.ok p after) (.ok c)
  | refused {f : Fault} {after : Shelf α} (hkept : shelf <+: after) :
      Ends shelf (.error f after) (.error f)

/-- The numbers of the mappings in which the configurations that were made have their tables. -/
def places (results : List (Except Fault (Placed α))) : List Nat :=
  results.filterMap fun r => r.toOption.map Placed.place

theorem Placed.Shows.mono {shelf after : Shelf α} {p : Placed α} {c : Config α}
    (hs : p.Shows shelf c) (h : shelf <+: after) : p.Shows after c := by
  refine ⟨hs.dpi, hs.rejectThreshold, hs.tiePolicy, hs.failurePolicy, ?_⟩
  obtain ⟨more, rfl⟩ := h
  have hlt := (List.getElem?_eq_some_iff.mp hs.tables).1
  rw [List.getElem?_append_left hlt, hs.tables]

theorem Ends.of_kept {shelf start : Shelf α} {r : EStateM.Result Fault (Shelf α) (Placed α)}
    {x : Except Fault (Config α)} (h : start <+: shelf) (hr : Ends shelf r x) :
    Ends start r x := by
  cases hr with
  | made hkept hown hshows => exact .made (h.trans hkept) (Nat.le_trans h.length_le hown) hshows
  | refused hkept => exact .refused (h.trans hkept)

variable [Scalar α]

theorem construct_ends {shelf : Shelf α} (h : Shelf.start <+: shelf) (s : Settings α) :
    Ends shelf ((construct s).run shelf) (build s) := by
  have hstandard : shelf.getD Shelf.standard [] = defaultEvaluators :=
    Shelf.getD_of_prefix h rfl
  unfold construct build
  simp only [EStateM.run_bind]
  cases s.readScalars with
  | error f => exact .refused List.prefix_rfl
  | ok scalars =>
  cases s.readSources with
  | error f => exact .refused List.prefix_rfl
  | ok sources =>
  have hmerged : shelf <+: shelf ++ [merged sources] := List.prefix_append _ _
  simp only [Steps.run_of_ok, ok_bind, Shelf.copy_run, Shelf.forM_write_run, Shelf.entries_run,
    Shelf.getD_length, Shelf.lay_run, hstandard, ← merged.eq_def]
  cases ht : Settings.readTables (merged sources) with
  | error f =>
    obtain ⟨partly, hrun⟩ := Shelf.forM_read_run_of_error ht (shelf ++ [merged sources]) []
    rw [hrun]
    exact .refused (hmerged.trans (List.prefix_append _ _))
  | ok tables =>
    rw [Shelf.forM_read_run_of_ok ht]
    refine .made (hmerged.trans (List.prefix_append _ _)) hmerged.length_le ⟨rfl, rfl, rfl, rfl, ?_⟩
    have hdistinct := Settings.distinct_of_readTables (distinct_merged sources) ht
    rw [← Keyed.ofEntries, Keyed.ofEntries_eq_self ((Keyed.distinct_map_snd _).mpr hdistinct)]
    exact List.getElem?_concat_length

theorem exists_shows_of_build {s : Settings α} {c : Config α} (h : build s = .ok c) :
    ∃ (shelf : Shelf α) (p : Placed α), Shelf.start <+: shelf ∧ p.Shows shelf c := by
  have hends := construct_ends List.prefix_rfl s
  rw [h] at hends
  generalize (construct s).run Shelf.start = r at hends
  cases hends with
  | made hkept _ hshows => exact ⟨_, _, hkept, hshows⟩

theorem Placed.withDpi_ends {shelf : Shelf α} (h : Shelf.start <+: shelf) {p : Placed α}
    {c : Config α} (hp : p.Shows shelf c) (dpi : Value) :
    Ends shelf ((p.withDpi dpi).run shelf) (c.withDpi dpi) := by
  have hcopy : shelf <+: shelf ++ [c.tables.map fun t => (t.1, TableSource.built t.2)] :=
    List.prefix_append _ _
  have hown : shelf.getD p.place [] = c.tables.map fun t => (t.1, TableSource.built t.2) :=
    Shelf.getD_of_prefix List.prefix_rfl hp.tables
  have hends := (construct_ends (h.trans hcopy) (c.settingsAt dpi)).of_kept hcopy
  unfold withDpi
  simp only [EStateM.run_bind, Shelf.copy_run, Shelf.entries_run, hown, Shelf.getD_length,
    hp.rejectThreshold, hp.tiePolicy, hp.failurePolicy]
  exact hends

/-- Configurations made one after another, none of which is seen in another: the mappings that were
there stand as they did, each configuration and each fault is what its settings give by themselves,
and each configuration has a mapping of its own, which was not there before. -/
structure MadeApart (shelf : Shelf α) (ss : List (Settings α))
    (made : List (Except Fault (Placed α)) × Shelf α) : Prop where
  kept : shelf <+: made.2
  alone : List.Forall₂ (fun s r => Concur (fun p c => p.Shows made.2 c) r (build s)) ss made.1
  own : (places made.1).Nodup
  fresh : ∀ n ∈ places made.1, shelf.length ≤ n

theorem constructAll_madeApart {shelf : Shelf α} (h : Shelf.start <+: shelf)
    (ss : List (Settings α)) : MadeApart shelf ss (constructAll ss shelf) := by
  induction ss generalizing shelf with
  | nil => exact ⟨List.prefix_rfl, .nil, List.nodup_nil, List.forall_mem_nil _⟩
  | cons s ss ih =>
    have hends := construct_ends h s
    unfold constructAll
    generalize (construct s).run shelf = r at hends ⊢
    generalize hx : build s = x at hends
    cases hends with
    | @made p c after hkept hown hshows =>
      have hrest := ih (h.trans hkept)
      -- what is made later has its tables after all that was there, so it shares no mapping
      have hlater : ∀ n ∈ places (constructAll ss after).1, p.place < n := fun n hn =>
        Nat.lt_of_lt_of_le (List.getElem?_eq_some_iff.mp hshows.tables).1 (hrest.fresh n hn)
      refine ⟨hkept.trans hrest.kept, .cons ?_ hrest.alone, ?_, ?_⟩
      · rw [hx]
        exact .ok (hshows.mono hrest.kept)
      · exact List.nodup_cons.mpr ⟨fun hm => Nat.lt_irrefl _ (hlater _ hm), hrest.own⟩
      · exact List.forall_mem_cons.mpr ⟨hown, fun n hn =>
          Nat.le_trans hown (Nat.le_of_lt (hlater n hn))⟩
    | @refused f after hkept =>
      have hrest := ih (h.trans hkept)
      refine ⟨hkept.trans hrest.kept, .cons ?_ hrest.alone, hrest.own, ?_⟩
      · rw [hx]
        exact .error f
      · exact fun n hn => Nat.le_trans hkept.length_le (hrest.fresh n hn)

end Config

end StrayTouch
