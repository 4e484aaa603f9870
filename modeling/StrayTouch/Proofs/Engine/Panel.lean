import StrayTouch.Proofs.Document.Name
import StrayTouch.Proofs.Keyed
import StrayTouch.Verdict

/-!
When a panel can be seated. Its members are the classifiers in their order, each with its tag and
the table of its feature.
-/
namespace StrayTouch

variable {α : Type}

namespace Member

/-- A member of a panel is a classifier with its tag, which is a key, and the table of its
feature. -/
structure Seats (c : Config α) (k : Classifier α) (m : Member α) : Prop where
  classifier : m.classifier = k
  tag : k.tag = m.tag.value
  evaluator : c.evaluatorFor k.feature = .ok m.evaluator

theorem areDistinct_iff (tags : List Name) :
    areDistinct tags = true ↔ (tags.map Name.key).Nodup := by
  induction tags with
  | nil => simp [areDistinct]
  | cons a rest ih =>
    have h : rest.any a.sameKey = true ↔ a.key ∈ rest.map Name.key := by
      simp only [List.any_eq_true, List.mem_map, Name.sameKey_iff]
      exact exists_congr fun b => and_congr_right fun _ => eq_comm
    rw [areDistinct, Bool.and_eq_true, ih, List.map_cons, List.nodup_cons, ← h]
    simp

private theorem seat_all {c : Config α} {classifiers : List (Classifier α)} {tags : List Name}
    {tables : List (Evaluator α)}
    (hg : List.Forall₂ (fun k t => k.tag.toName = .ok t) classifiers tags)
    (ht : List.Forall₂ (fun k ev => c.evaluatorFor k.feature = .ok ev) classifiers tables) :
    let seats := List.zipWith (fun k (t, ev) => Member.mk k t ev) classifiers (tags.zip tables)
    seats.map Member.tag = tags ∧ List.Forall₂ (Seats c) classifiers seats := by
  induction hg generalizing tables with
  | nil => exact ⟨rfl, .nil⟩
  | cons hk _ ih =>
    cases ht with
    | cons he ht =>
      obtain ⟨htags, hseats⟩ := ih ht
      exact ⟨congrArg (List.cons _) htags, .cons ⟨rfl, Value.toName_eq_ok_iff.mp hk, he⟩ hseats⟩

private theorem seat_again {c : Config α} {classifiers : List (Classifier α)}
    {p : List (Member α)} (h : List.Forall₂ (Seats c) classifiers p) :
    List.zipWith (fun k (t, ev) => Member.mk k t ev) classifiers
      ((p.map Member.tag).zip (p.map Member.evaluator)) = p := by
  induction h with
  | nil => rfl
  | cons hm _ ih =>
    rw [List.map_cons, List.map_cons, List.zip_cons_cons, List.zipWith_cons_cons, ih,
      ← hm.classifier]

theorem map_tag_key (p : List (Member α)) :
    (p.map fun m => m.tag.key) = (p.map tag).map Name.key := by
  rw [List.map_map]
  rfl

/-- When a panel can be seated: every classifier has a table and a tag that is a key, and no two
tags are the same. -/
theorem panel_eq_ok_iff {c : Config α} {classifiers : List (Classifier α)}
    {p : List (Member α)} :
    panel c classifiers = .ok p ↔
      List.Forall₂ (Seats c) classifiers p ∧ (p.map fun m => m.tag.key).Nodup := by
  rw [map_tag_key, ← areDistinct_iff]
  unfold panel
  constructor
  · intro h
    obtain ⟨tables, ht, h⟩ := bind_eq_ok_iff.mp h
    obtain ⟨tags, hg, h⟩ := bind_eq_ok_iff.mp h
    obtain ⟨htags, hseats⟩ := seat_all (mapM_eq_ok_iff.mp hg) (mapM_eq_ok_iff.mp ht)
    split at h
    next hd =>
      cases h
      exact ⟨hseats, htags.symm ▸ hd⟩
    next => cases h
  · rintro ⟨hs, hd⟩
    have ht : classifiers.mapM (fun k => c.evaluatorFor k.feature) =
        .ok (p.map Member.evaluator) :=
      mapM_eq_ok_iff.mpr (List.forall₂_map_right_iff.mpr (hs.imp fun _ _ h => h.evaluator))
    have hg : classifiers.mapM (fun k => k.tag.toName) = .ok (p.map Member.tag) :=
      mapM_eq_ok_iff.mpr (List.forall₂_map_right_iff.mpr
        (hs.imp fun _ _ h => Value.toName_eq_ok_iff.mpr h.tag))
    simp only [ht, hg, ok_bind, if_pos hd, seat_again hs]

theorem exists_seats {c : Config α} {classifiers : List (Classifier α)} {tags : List Name}
    (ht : ∀ k ∈ classifiers, ∃ ev, c.evaluatorFor k.feature = .ok ev)
    (hg : classifiers.map Classifier.tag = tags.map Name.value) :
    ∃ p, List.Forall₂ (Seats c) classifiers p ∧ p.map Member.tag = tags := by
  induction classifiers generalizing tags with
  | nil => exact ⟨[], .nil, (List.map_eq_nil_iff.mp hg.symm).symm⟩
  | cons k classifiers ih =>
    cases tags with
    | nil => cases hg
    | cons tag tags =>
      obtain ⟨hk, hrest⟩ := List.cons.inj hg
      obtain ⟨ev, hev⟩ := ht k List.mem_cons_self
      obtain ⟨p, hp, htags⟩ := ih (fun k hk => ht k (List.mem_cons_of_mem _ hk)) hrest
      exact ⟨⟨k, tag, ev⟩ :: p, .cons ⟨rfl, hk, hev⟩ hp, congrArg (List.cons tag) htags⟩

end Member

end StrayTouch
