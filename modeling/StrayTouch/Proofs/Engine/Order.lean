import StrayTouch.Proofs.Classifier.Alike
import StrayTouch.Proofs.Engine.Contact
import StrayTouch.Proofs.Number.Whole

/-!
The order of the contacts and of the classifiers. A classifier of the library scores a stroke by
itself, except for the count of contacts, which scores the first one; so another order moves the
score of that classifier to another contact and leaves all else as it is.
-/
namespace StrayTouch

variable {α : Type}

/-- A stroke under the key of its contact. -/
def Seen.keyed (s : Name × Seen α) : Key × Stroke α :=
  (s.1.key, s.2.stroke)

/-- The same strokes under the same contacts, in any two orders. -/
structure Seen.Reordered (seen others : List (Name × Seen α)) : Prop where
  perm : (seen.map keyed).Perm (others.map keyed)
  nodup : (seen.map fun s => s.1.key).Nodup
  pressed : ∀ s ∈ seen, 1 ≤ s.2.stroke.count
  place : ∀ (i : Nat) (s t : Name × Seen α), seen[i]? = some s → others[i]? = some t →
    s.2.SamePlace t.2

namespace Seen.Reordered

variable {seen others : List (Name × Seen α)}

theorem exists_other (h : Reordered seen others) {s : Name × Seen α} (hs : s ∈ seen) :
    ∃ t ∈ others, t.1.key = s.1.key ∧ t.2.stroke = s.2.stroke := by
  obtain ⟨t, ht, he⟩ := List.mem_map.mp (h.perm.mem_iff.mp (List.mem_map_of_mem hs))
  exact ⟨t, ht, Prod.mk.inj he⟩

theorem length_eq (h : Reordered seen others) : seen.length = others.length := by
  simpa using h.perm.length_eq

theorem symm (h : Reordered seen others) : Reordered others seen where
  perm := h.perm.symm
  nodup := by
    have hkeys := h.perm.map Prod.fst
    rw [List.map_map, List.map_map] at hkeys
    exact hkeys.nodup h.nodup
  pressed := by
    intro t ht
    obtain ⟨s, hs, he⟩ := List.mem_map.mp (h.perm.mem_iff.mpr (List.mem_map_of_mem ht))
    have hstroke : s.2.stroke = t.2.stroke := (Prod.mk.inj he).2
    exact hstroke ▸ h.pressed s hs
  place := by
    intro i t s ht hs
    obtain ⟨hplace, hlength⟩ := h.place i s t hs ht
    exact ⟨hplace.symm, hlength.symm⟩

end Seen.Reordered

variable [Scalar α]

namespace Member

variable {m : Member α} {v : Variant} {seen others : List (Name × Seen α)}

/-- Whatever counts for a variant is the sum of the first increments of its table. -/
theorem counted_eq_sum_of_prefix (policy : FailurePolicy) (hm : m.classifier = v.classifier)
    (x : Seen α) : ∃ part, part <+: m.evaluator.rows.map Prod.snd ∧
      m.counted policy x = Scalar.sum part := by
  have hnone : ∃ part, part <+: m.evaluator.rows.map Prod.snd ∧
      m.evaluator.floor = Scalar.sum part := ⟨[], List.nil_prefix, rfl⟩
  unfold counted outcome
  rw [hm, Variant.answer_eq]
  split_ifs with hshort
  · exact hnone
  · cases v.read x with
    | error f =>
      cases policy with
      | floor => exact hnone
      | ceiling => exact ⟨_, List.prefix_refl _, rfl⟩
    | ok y? =>
      cases y? with
      | none => exact hnone
      | some y => exact ⟨_, (List.takeWhile_prefix _).map Prod.snd, rfl⟩

/-- A variant judges a stroke by itself, wherever it is seen, unless it counts the contacts. -/
theorem outcome_eq_of_stroke (hm : m.classifier = v.classifier) (hv : v ≠ .pointerCount)
    {x y : Seen α} (h : x.stroke = y.stroke) : m.outcome x = m.outcome y :=
  outcome_congr hm (congrArg Stroke.count h)
    (Variant.read_congr (.of_eq h) fun hcount => absurd hcount hv)

theorem outcome_pointerCount_congr (hm : m.classifier = Variant.pointerCount.classifier)
    {x y : Seen α} (hx : 1 ≤ x.stroke.count) (hy : 1 ≤ y.stroke.count) (h : x.SamePlace y) :
    m.outcome x = m.outcome y := by
  have hxlong : ¬ x.stroke.count < Variant.pointerCount.minPoints := Nat.not_lt.mpr hx
  have hylong : ¬ y.stroke.count < Variant.pointerCount.minPoints := Nat.not_lt.mpr hy
  rw [outcome, outcome, hm, Variant.answer_eq, Variant.answer_eq, if_neg hxlong, if_neg hylong,
    Variant.read_pointerCount_congr h]

theorem counted_perm (policy : FailurePolicy) (hm : m.classifier = v.classifier)
    (h : Seen.Reordered seen others) :
    (others.map fun s => m.counted policy s.2).Perm (seen.map fun s => m.counted policy s.2) := by
  by_cases hv : v = .pointerCount
  · -- The scores of the contact counter do not move at all, only the contacts that have them.
    subst hv
    refine List.Perm.of_eq (List.ext_getElem (by simp [h.length_eq]) fun i ho hs => ?_)
    rw [List.length_map] at ho hs
    rw [List.getElem_map, List.getElem_map]
    exact counted_of_outcome policy (outcome_pointerCount_congr hm
      (h.symm.pressed _ (List.getElem_mem ho)) (h.pressed _ (List.getElem_mem hs))
      (h.symm.place i _ _ (List.getElem?_eq_getElem ho) (List.getElem?_eq_getElem hs)))
  · have hscore (xs : List (Name × Seen α)) : xs.map (fun s => m.counted policy s.2) =
        (xs.map Seen.keyed).map fun k => m.counted policy ⟨k.2, 0, []⟩ := by
      rw [List.map_map]
      exact List.map_congr_left fun s _ =>
        counted_of_outcome policy (outcome_eq_of_stroke hm hv rfl)
    rw [hscore, hscore]
    exact (h.perm.map _).symm

theorem fails_pointerCount (hm : m.classifier = Variant.pointerCount.classifier) (x : Seen α) :
    m.fails x = false := by
  unfold fails outcome
  rw [hm, Variant.answer_eq]
  split_ifs <;> rfl

end Member

namespace Verdict

/-- Verdicts that differ only in the contact which has the score for the count of contacts, and in
the order in which their parts are listed. -/
structure Reordered (v w : Verdict α) : Prop where
  scores : ∀ tag, Keyed.get? v.scores tag = Keyed.get? w.scores tag
  aggregate : v.aggregate = w.aggregate
  decision : v.decision = w.decision
  failed : v.failed.Perm w.failed
  entries : ∀ id tag, tag.key ≠ .text Variant.pointerCount.tag → v.score? id tag = w.score? id tag

namespace AccountsFor

variable {v w : Verdict α} {c : Config α} {table : Variant → Evaluator α} {vs us : List Variant}
  {seen others : List (Name × Seen α)}

theorem score?_of_reordered (hv : v.AccountsFor c (vs.map (Variant.seat table)) seen)
    (hw : w.AccountsFor c (us.map (Variant.seat table)) others) (h : Seen.Reordered seen others)
    (hp : vs.Perm us) (hd : vs.Nodup) {id tag : Name} {x : α}
    (htag : tag.key ≠ .text Variant.pointerCount.tag) (hx : v.score? id tag = some x) :
    w.score? id tag = some x := by
  rw [hv.score?_eq_some_iff h.nodup (Variant.nodup_seats table hd)] at hx
  rw [hw.score?_eq_some_iff h.symm.nodup (Variant.nodup_seats table (hp.nodup hd))]
  obtain ⟨s, hs, hid, _, hm, hk, rfl⟩ := hx
  obtain ⟨k, hkv, rfl⟩ := List.mem_map.mp hm
  obtain ⟨t, ht, hkey, hstroke⟩ := h.exists_other hs
  have hne : k ≠ .pointerCount := by
    rintro rfl
    exact htag hk.symm
  exact ⟨t, ht, hkey.trans hid, _, List.mem_map_of_mem (hp.mem_iff.mp hkv), hk,
    Member.counted_of_outcome _ (Member.outcome_eq_of_stroke rfl hne hstroke)⟩

theorem mem_failed_iff (hv : v.AccountsFor c (vs.map (Variant.seat table)) seen) (hd : vs.Nodup)
    {tag : Name} : tag ∈ v.failed ↔ ∃ k ∈ vs, .text k.tag = tag ∧
      ∃ s ∈ seen, (k.seat table).fails s.2 = true := by
  have hkeys := Variant.nodup_seats table hd
  have hmem (k : Variant) (hk : k ∈ vs) :
      .text k.tag ∈ v.failed ↔ ∃ s ∈ seen, (k.seat table).fails s.2 = true := by
    rw [hv.failed]
    refine (Member.mem_failedTags_iff hkeys
      (List.mem_map_of_mem (f := Variant.seat table) hk)).trans ?_
    simp only [List.mem_map, exists_exists_and_eq_and]
  constructor
  · intro htag
    have hsub := hv.failed ▸ htag
    obtain ⟨_, _, hmember⟩ := List.mem_flatMap.mp (Name.eraseDupsBy_subset _ hsub)
    obtain ⟨_, hfilter, rfl⟩ := List.mem_map.mp hmember
    obtain ⟨k, hk, rfl⟩ := List.mem_map.mp (List.mem_filter.mp hfilter).1
    exact ⟨k, hk, rfl, (hmem k hk).mp htag⟩
  · rintro ⟨k, hk, rfl, hfails⟩
    exact (hmem k hk).mpr hfails

theorem mem_failed_of_reordered (hv : v.AccountsFor c (vs.map (Variant.seat table)) seen)
    (hw : w.AccountsFor c (us.map (Variant.seat table)) others) (h : Seen.Reordered seen others)
    (hp : vs.Perm us) (hd : vs.Nodup) {tag : Name} (htag : tag ∈ v.failed) : tag ∈ w.failed := by
  rw [hw.mem_failed_iff (hp.nodup hd)]
  obtain ⟨k, hk, hkey, s, hs, hfails⟩ := (hv.mem_failed_iff hd).mp htag
  obtain ⟨t, ht, _, hstroke⟩ := h.exists_other hs
  have hne : k ≠ .pointerCount := by
    rintro rfl
    rw [Member.fails_pointerCount rfl] at hfails
    cases hfails
  refine ⟨k, hp.mem_iff.mp hk, hkey, t, ht, ?_⟩
  rw [Member.fails_of_outcome (Member.outcome_eq_of_stroke rfl hne hstroke)]
  exact hfails

theorem scores_seats (hv : v.AccountsFor c (vs.map (Variant.seat table)) seen) :
    v.scores = vs.map fun k : Variant =>
      (.text k.tag, (k.seat table).total c.failurePolicy seen) := by
  rw [hv.scores_eq, List.map_map]
  rfl

theorem perm_failed (hv : v.AccountsFor c (vs.map (Variant.seat table)) seen)
    (hw : w.AccountsFor c (us.map (Variant.seat table)) others) (h : Seen.Reordered seen others)
    (hp : vs.Perm us) (hd : vs.Nodup) : v.failed.Perm w.failed := by
  have hnodup {x : Verdict α} {panel : List (Member α)} {xs : List (Name × Seen α)}
      (hx : x.AccountsFor c panel xs) : x.failed.Nodup := by
    rw [hx.failed]
    exact (Name.nodup_eraseDupsBy _).of_map _
  rw [List.perm_ext_iff_of_nodup (hnodup hv) (hnodup hw)]
  intro tag
  exact ⟨hv.mem_failed_of_reordered hw h hp hd,
    hw.mem_failed_of_reordered hv h.symm hp.symm (hp.nodup hd)⟩

/-- Verdicts on the same strokes by the same variants, both in any order, differ in nothing else as
soon as they agree on the totals. -/
theorem reordered_of_totals (hv : v.AccountsFor c (vs.map (Variant.seat table)) seen)
    (hw : w.AccountsFor c (us.map (Variant.seat table)) others) (h : Seen.Reordered seen others)
    (hp : vs.Perm us) (hd : vs.Nodup)
    (htotals : ∀ k : Variant, (k.seat table).total c.failurePolicy seen =
      (k.seat table).total c.failurePolicy others)
    (haggregate : v.aggregate = w.aggregate) : v.Reordered w := by
  refine ⟨?_, haggregate, ?_, hv.perm_failed hw h hp hd, ?_⟩
  · have hscores : v.scores.Perm w.scores := by
      simp only [hv.scores_seats, hw.scores_seats, htotals]
      exact hp.map _
    have hdistinct : Keyed.Distinct v.scores :=
      hv.scores_eq ▸ Member.distinct_entries (Variant.nodup_seats table hd) _
    exact Keyed.get?_perm hdistinct hscores
  · have hiff : v.decision = .reject ↔ w.decision = .reject := by
      rw [hv.decision_iff, hw.decision_iff, haggregate]
    cases hdv : v.decision <;> cases hdw : w.decision <;> simp_all
  · intro id tag htag
    refine Option.ext fun x => ?_
    exact ⟨hv.score?_of_reordered hw h hp hd htag,
      hw.score?_of_reordered hv h.symm hp.symm (hp.nodup hd) htag⟩

end AccountsFor

end Verdict

section Exactly

variable {M : Type} [AddCommMonoid M] {value : M → α} {Fits : M → Prop}
  {table : Variant → Evaluator α} {increments : Variant → List M}

/-- Where the increments stand for elements of a monoid, so does all that counts for a variant, and
it is a part of the increments of its table. -/
theorem Variant.exists_exact (hexact : Scalar.Exactly value Fits)
    (hincrements : ∀ k, (table k).rows.map Prod.snd = (increments k).map value)
    (hfits : ∀ k, Fits (increments k).sum) (policy : FailurePolicy) :
    ∃ counted rest : Variant → Seen α → M, ∀ k x,
      (seat table k).counted policy x = value (counted k x) ∧
        counted k x + rest k x = (increments k).sum := by
  have hall (k : Variant) (x : Seen α) : ∃ a b, (seat table k).counted policy x = value a ∧
      a + b = (increments k).sum := by
    obtain ⟨part, ⟨others, hpart⟩, hcounted⟩ :=
      Member.counted_eq_sum_of_prefix (m := seat table k) policy rfl x
    have hrows : (increments k).map value = part ++ others :=
      (hincrements k).symm.trans hpart.symm
    obtain ⟨as, bs, hsplit, rfl, _⟩ := List.map_eq_append_iff.mp hrows
    have hsum : as.sum + bs.sum = (increments k).sum := by rw [hsplit, List.sum_append]
    have hpart : Fits as.sum := hexact.fits_left (hsum ▸ hfits k)
    exact ⟨as.sum, bs.sum, hcounted.trans (hexact.sum_map hpart), hsum⟩
  choose counted rest h using hall
  exact ⟨counted, rest, h⟩

theorem Variant.fits_totals (hexact : Scalar.Exactly value Fits) {β : Type} (seen : List β)
    {counted rest : Variant → β → M} (h : ∀ k x, counted k x + rest k x = (increments k).sum)
    (hfits : Fits (seen.length • (all.map fun k => (increments k).sum).sum)) :
    Fits (all.map fun k => (seen.map (counted k)).sum).sum := by
  have hcolumn (k : Variant) : (seen.map (counted k)).sum + (seen.map (rest k)).sum =
      seen.length • (increments k).sum := by
    rw [← List.sum_map_add]
    simp [h]
  apply hexact.fits_left (b := (all.map fun k => (seen.map (rest k)).sum).sum)
  rw [← List.sum_map_add, List.map_congr_left fun k _ => hcolumn k]
  rw [List.smul_sum, List.map_map] at hfits
  exact hfits

/-- What counts for a variant over all strokes stands for the same element in either order. -/
theorem Variant.exists_totals (hexact : Scalar.Exactly value Fits)
    {seen others : List (Name × Seen α)}
    (hincrements : ∀ k, (table k).rows.map Prod.snd = (increments k).map value)
    (hfits : Fits (seen.length • (all.map fun k => (increments k).sum).sum))
    (hone : ∀ k, Fits (increments k).sum) (policy : FailurePolicy)
    (h : Seen.Reordered seen others) :
    ∃ totals : Variant → M, Fits (all.map totals).sum ∧ ∀ k,
      (seat table k).total policy seen = value (totals k) ∧
        (seat table k).total policy others = value (totals k) := by
  obtain ⟨counted, rest, hcounted⟩ := exists_exact hexact hincrements hone policy
  have htotals : Fits (all.map fun k => (seen.map fun s => counted k s.2).sum).sum :=
    fits_totals hexact seen (fun k s => (hcounted k s.2).2) hfits
  refine ⟨_, htotals, fun k => ?_⟩
  have hcolumn : Fits (seen.map fun s => counted k s.2).sum :=
    hexact.fits_of_mem htotals (List.mem_map_of_mem k.mem_all)
  have hnumbers : (seen.map fun s => (seat table k).counted policy s.2) =
      (seen.map fun s => counted k s.2).map value := by
    rw [List.map_map]
    exact List.map_congr_left fun s _ => (hcounted k s.2).1
  have hvalue : (seat table k).total policy seen = value (seen.map fun s => counted k s.2).sum :=
    (congrArg Scalar.sum hnumbers).trans (hexact.sum_map hcolumn)
  exact ⟨hvalue, (hexact.sum_perm hcolumn hnumbers (Member.counted_perm policy rfl h)).trans hvalue⟩

/-- Verdicts on the same strokes by the same variants, both in any order, have the same totals, as
long as the increments of all strokes together can be added up exactly. -/
theorem Verdict.AccountsFor.reordered {v w : Verdict α} {c : Config α} {us : List Variant}
    {seen others : List (Name × Seen α)} (hexact : Scalar.Exactly value Fits)
    (hincrements : ∀ k, (table k).rows.map Prod.snd = (increments k).map value)
    (hfits : Fits (seen.length • (Variant.all.map fun k => (increments k).sum).sum))
    (hone : ∀ k, Fits (increments k).sum)
    (hv : v.AccountsFor c (Variant.all.map (Variant.seat table)) seen)
    (hw : w.AccountsFor c (us.map (Variant.seat table)) others) (h : Seen.Reordered seen others)
    (hp : Variant.all.Perm us) : v.Reordered w := by
  obtain ⟨totals, htotals, hvalue⟩ :=
    Variant.exists_totals hexact hincrements hfits hone c.failurePolicy h
  refine hv.reordered_of_totals hw h hp Variant.nodup_all
    (fun k => (hvalue k).1.trans (hvalue k).2.symm) ?_
  have hbefore : v.scores.map Prod.snd = (Variant.all.map totals).map value := by
    rw [hv.scores_seats, List.map_map, List.map_map]
    exact List.map_congr_left fun k _ => (hvalue k).1
  have hafter : w.scores.map Prod.snd = (us.map totals).map value := by
    rw [hw.scores_seats, List.map_map, List.map_map]
    exact List.map_congr_left fun k _ => (hvalue k).2
  rw [hv.aggregate, hw.aggregate]
  refine (hexact.sum_perm htotals hbefore ?_).symm
  rw [hbefore, hafter]
  exact (hp.symm.map totals).map value

end Exactly

namespace Gesture

variable {g other : Gesture α} {dpi : α} {log entries : List (Entry α)}

omit [Scalar α] in
theorem strokes_of_seen {place : Nat} {s : Name × Seen α} (h : g.seen[place]? = some s) :
    s.2.strokes = g.strokes := by
  simp only [seen, List.getElem?_map, Option.map_eq_some_iff] at h
  obtain ⟨_, _, rfl⟩ := h
  rfl

namespace Represents

theorem map_keyed_seen (h : g.Represents dpi log) (p : Phase) :
    (g.freezeAll.withPhase p).seen.map Seen.keyed =
      (Log.contacts log).map fun id => (id.key, Engine.frozenStroke dpi log id) := by
  have hstroke (strokes : List (Stroke α)) :
      (Stroke.seenIn strokes).map Seen.stroke = strokes := by
    rw [Stroke.seenIn, List.map_map]
    exact List.zipIdx_map_fst 0 strokes
  rw [h.seen_freezeAll]
  show ((Log.contacts log).zip _).map (Prod.map Name.key Seen.stroke) = _
  rw [← List.zip_map, hstroke, List.zip_map']

theorem points?_eq (h : g.Represents dpi log) (id : Name) :
    (g.stroke? id).map Stroke.points =
      if Log.pointsOf log id = [] then none else some (Log.pointsOf log id) := by
  rw [h.stroke?_eq]
  by_cases hp : Log.pointsOf log id = []
  · rw [if_pos hp, if_neg fun hany => (Log.any_contacts_iff log id).mp hany hp]
    rfl
  · rw [if_neg hp, if_pos ((Log.any_contacts_iff log id).mpr hp)]
    rfl

theorem points_congr (h : g.Represents dpi log) (ho : other.Represents dpi entries)
    (hsame : ∀ id, (g.stroke? id).map Stroke.points = (other.stroke? id).map Stroke.points)
    (id : Name) : Log.pointsOf log id = Log.pointsOf entries id := by
  have hid := hsame id
  rw [h.points?_eq, ho.points?_eq] at hid
  split_ifs at hid with hg ht
  · rw [hg, ht]
  · exact Option.some.inj hid

omit [Scalar α] in
private theorem mem_of_points (h : ∀ id, Log.pointsOf log id = Log.pointsOf entries id)
    {k : Key × Stroke α}
    (hk : k ∈ (Log.contacts log).map fun id => (id.key, Engine.frozenStroke dpi log id)) :
    k ∈ (Log.contacts entries).map fun id => (id.key, Engine.frozenStroke dpi entries id) := by
  obtain ⟨id, hid, rfl⟩ := List.mem_map.mp hk
  have hany : (Log.contacts entries).any id.sameKey = true := by
    rw [Log.any_contacts_iff, ← h, ← Log.any_contacts_iff]
    exact List.any_eq_true.mpr ⟨id, hid, Name.sameKey_refl id⟩
  obtain ⟨spelled, hmem, hsame⟩ := List.any_eq_true.mp hany
  have hkey := Name.sameKey_iff.mp hsame
  refine List.mem_map.mpr ⟨spelled, hmem, Prod.ext hkey.symm ?_⟩
  rw [Engine.frozenStroke, Engine.frozenStroke, h, Log.pointsOf_congr hkey]

/-- Gestures whose contacts have the same points show the same strokes. -/
theorem reordered_seen (h : g.Represents dpi log) (ho : other.Represents dpi entries)
    (hsame : ∀ id, (g.stroke? id).map Stroke.points = (other.stroke? id).map Stroke.points)
    (p : Phase) :
    Seen.Reordered (g.freezeAll.withPhase p).seen (other.freezeAll.withPhase p).seen := by
  have hpoints := h.points_congr ho hsame
  have hnodup (log : List (Entry α)) : ((Log.contacts log).map fun id =>
      (id.key, Engine.frozenStroke dpi log id)).Nodup := by
    refine List.Nodup.of_map Prod.fst ?_
    rw [List.map_map]
    exact Log.nodup_contacts log
  have hperm : ((g.freezeAll.withPhase p).seen.map Seen.keyed).Perm
      ((other.freezeAll.withPhase p).seen.map Seen.keyed) := by
    rw [h.map_keyed_seen, ho.map_keyed_seen,
      List.perm_ext_iff_of_nodup (hnodup log) (hnodup entries)]
    exact fun k => ⟨mem_of_points hpoints, mem_of_points fun id => (hpoints id).symm⟩
  refine ⟨hperm, ?_, ?_, ?_⟩
  · have hkeys := congrArg (List.map Prod.fst) (h.map_keyed_seen p)
    rw [List.map_map, List.map_map] at hkeys
    exact hkeys ▸ Log.nodup_contacts log
  · intro s hs
    have hstroke : s.2.stroke ∈ g.strokes.map Stroke.freeze := by
      rw [← g.map_stroke_seen_freezeAll p]
      exact List.mem_map_of_mem hs
    obtain ⟨t, ht, he⟩ := List.mem_map.mp hstroke
    rw [← he]
    exact List.length_pos_of_ne_nil (h.sound t ht).freeze.points_ne_nil
  · intro i s t hs ht
    have hlength : (g.freezeAll.withPhase p).strokes.length =
        (other.freezeAll.withPhase p).strokes.length := by
      rw [← map_stroke_seen, ← map_stroke_seen, List.length_map, List.length_map]
      simpa using hperm.length_eq
    refine ⟨(Engine.place_of_seen hs).trans (Engine.place_of_seen ht).symm, ?_⟩
    rw [strokes_of_seen hs, strokes_of_seen ht]
    exact hlength

end Represents

end Gesture

namespace Engine

/-- The order of contacts and of classifiers does not matter. Whatever has been touched, and
whatever else is touched that leaves every contact with the same points: with the classifiers of
the library in any order, as long as all increments can be added up exactly, both evaluations
deliver verdicts with the same totals, the same aggregate, the same decision and the same failures,
and the scores of every contact are the same except for the count of contacts. -/
theorem order_irrelevant {M : Type} [AddCommMonoid M] {value : M → α} {Fits : M → Prop}
    (hexact : Scalar.Exactly value Fits) {settings : Settings α} {c : Config α}
    (hbuild : Config.build settings = .ok c) {increments : Variant → List M}
    (hincrements : ∀ (k : Variant) ev, c.evaluatorFor (.text k.feature) = .ok ev →
      ev.rows.map Prod.snd = (increments k).map value)
    (dpi : α) (ts us : List Touch) (hs : ((Gesture.empty dpi).follow ts).2.strokeCount ≠ 0)
    (hsame : ∀ id, (((Gesture.empty dpi).follow ts).2.stroke? id).map Stroke.points =
      (((Gesture.empty dpi).follow us).2.stroke? id).map Stroke.points)
    (hfits : Fits (((Gesture.empty dpi).follow ts).2.strokeCount •
      (Variant.all.map fun k => (increments k).sum).sum))
    {ks : List Variant} (hks : ks.Perm Variant.all) :
    let e : Engine α := ⟨c, ks.map Variant.classifier⟩
    ∃ v w, ((standard c).step ((Gesture.empty dpi).follow ts).2 .evaluate).1 = .verdict v ∧
      (e.step ((Gesture.empty dpi).follow us).2 .evaluate).1 = .verdict w ∧ v.Reordered w := by
  intro e
  obtain ⟨log, _, hr⟩ := (Gesture.represents_empty dpi).follow ts
  obtain ⟨entries, _, ho⟩ := (Gesture.represents_empty dpi).follow us
  obtain ⟨table, htable⟩ := Variant.exists_tables hbuild
  have hreordered := hr.reordered_seen ho hsame .evaluating
  have hcount (g : Gesture α) :
      (g.freezeAll.withPhase .evaluating).seen.length = g.strokeCount := by
    simp [Gesture.seen, Gesture.freezeAll, Gesture.withPhase, Gesture.strokeCount]
  have hmore : ((Gesture.empty dpi).follow us).2.strokeCount ≠ 0 := by
    rw [← hcount, ← hreordered.length_eq, hcount]
    exact hs
  have hone (k : Variant) : Fits (increments k).sum := by
    obtain ⟨n, hn⟩ := Nat.exists_eq_succ_of_ne_zero hs
    rw [hn, succ_nsmul'] at hfits
    exact hexact.fits_of_mem (hexact.fits_left hfits) (List.mem_map_of_mem k.mem_all)
  have hp : Member.panel c Variant.defaults = .ok (Variant.all.map (Variant.seat table)) :=
    Variant.panel_eq_seats htable Variant.nodup_all
  have hq : Member.panel c (ks.map Variant.classifier) = .ok (ks.map (Variant.seat table)) :=
    Variant.panel_eq_seats htable (hks.symm.nodup Variant.nodup_all)
  have hv := (standard c).accountsFor_of_represents hr (Member.panel_eq_ok_iff.mp hp).2
  have hw := e.accountsFor_of_represents ho (Member.panel_eq_ok_iff.mp hq).2
  rw [← hcount] at hfits
  exact ⟨_, _, congrArg Prod.fst (step_evaluate_of_panel (e := standard c) hp hr.capturing hs),
    congrArg Prod.fst (step_evaluate_of_panel (e := e) hq ho.capturing hmore),
    hv.reordered hexact (fun k => hincrements k _ (htable k)) hfits hone hw hreordered hks.symm⟩

/-- The increments of the default tables, as the whole numbers that they are. -/
def defaultIncrements (k : Variant) : List ℕ :=
  ((defaultTables.find? fun t => t.1 == k.feature).map fun t => t.2.2.map Prod.snd).getD []

theorem increments_unset {c : Config Float} (hc : Config.build Settings.unset = .ok c)
    (k : Variant) (ev : Evaluator Float) (h : c.evaluatorFor (.text k.feature) = .ok ev) :
    ev.rows.map Prod.snd = (defaultIncrements k).map Scalar.ofNat := by
  have hall : (match Config.build (Settings.unset (α := Float)) >>= fun c =>
      c.evaluatorFor (.text k.feature) with
    | .ok ev => decide (ev.rows.map Prod.snd = (defaultIncrements k).map Scalar.ofNat)
    | .error _ => false) = true := by cases k <;> decide +kernel
  rw [hc, ok_bind, h] at hall
  exact of_decide_eq_true hall

/-- The same two contacts, the second of which touches first. -/
def secondFirst : List Touch :=
  [.point (.int 2) ⟨.atom (.float 2.5), .atom (.float 0.5), .int 1, .null⟩,
    .point (.int 1) ⟨.atom (.float 1.5), .atom (.float 0.5), .int 0, .null⟩,
    .point (.int 1) ⟨.atom (.float 3.5), .atom (.float 0.5), .int 2, .null⟩]

theorem pointsOf_secondFirst (id : Name) : Gesture.Log.pointsOf (Touch.log Float inTurns) id =
    Gesture.Log.pointsOf (Touch.log Float secondFirst) id := by
  have hlog : Touch.log Float secondFirst = [.point (.int 2) ⟨2.5, 0.5, 1, none⟩,
      .point (.int 1) ⟨1.5, 0.5, 0, none⟩, .point (.int 1) ⟨3.5, 0.5, 2, none⟩] := rfl
  have ho : Touch.log Float oneByOne = [.point (.int 1) ⟨1.5, 0.5, 0, none⟩,
      .point (.int 1) ⟨3.5, 0.5, 2, none⟩, .point (.int 2) ⟨2.5, 0.5, 1, none⟩] := rfl
  rw [pointsOf_inTurns, hlog, ho]
  by_cases h : (Name.int 1).sameKey id = true
  · have hn : (Name.int 2).sameKey id = false := by
      rw [Name.sameKey_eq_false_iff, ← Name.sameKey_iff.mp h]
      decide
    simp [Gesture.Log.pointsOf, Gesture.Entry.pointFor?, h, hn]
  · simp [Gesture.Log.pointsOf, List.filterMap_cons, Gesture.Entry.pointFor?, h]

theorem reordered_secondFirst :
    ∃ c v w, Config.build Settings.unset = .ok c ∧
      ((standard c).step ((Gesture.empty (160.0 : Float)).follow inTurns).2
        .evaluate).1 = .verdict v ∧
      ((⟨c, Variant.all.reverse.map Variant.classifier⟩ : Engine Float).step
        ((Gesture.empty 160.0).follow secondFirst).2 .evaluate).1 = .verdict w ∧
      v.Reordered w := by
  obtain ⟨c, hc⟩ := Config.exists_build_unset
  have hall (ts : List Touch) (h : ((Gesture.empty (160.0 : Float)).follow ts).1.all
      Option.isNone = true) : ∀ f? ∈ ((Gesture.empty (160.0 : Float)).follow ts).1, f? = none :=
    fun f? hf => Option.isNone_iff_eq_none.mp (List.all_eq_true.mp h f? hf)
  have hr := (Gesture.represents_empty (160.0 : Float)).follow_log
    (hall inTurns (by decide +kernel))
  have ho := (Gesture.represents_empty (160.0 : Float)).follow_log
    (hall secondFirst (by decide +kernel))
  rw [List.nil_append] at hr ho
  obtain ⟨v, w, hv, hw, hvw⟩ := order_irrelevant Binary64.exactly_ofNat hc (increments_unset hc)
    160.0 inTurns secondFirst (by decide +kernel)
    (fun id => by rw [hr.points?_eq, ho.points?_eq, pointsOf_secondFirst])
    (by decide +kernel) (List.reverse_perm Variant.all)
  exact ⟨c, v, w, hc, hv, hw, hvw⟩

end Engine

end StrayTouch
