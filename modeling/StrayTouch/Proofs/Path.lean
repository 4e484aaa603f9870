import StrayTouch.Gesture.Stroke

/-!
Paths by their moves. What a stroke reports of the way it took is read off the moves from each of
its points to the next, and off the one from its last point to its first.
-/
namespace StrayTouch

variable {α : Type} [Scalar α]

namespace Path

theorem length_segments (ps : List (α × α)) : (segments ps).length = ps.length - 1 := by
  fun_induction segments ps with
  | case1 => rfl
  | case2 => rfl
  | case3 p q rest ih => simpa using ih

/-- A path that goes on keeps the segments that it has. -/
theorem segments_prefix_append (ps qs : List (α × α)) : segments ps <+: segments (ps ++ qs) := by
  fun_induction segments ps with
  | case1 => exact List.nil_prefix
  | case2 => exact List.nil_prefix
  | case3 p q rest ih => exact (List.prefix_cons_inj _).mpr ih

theorem length_unwrapFrom (previous shift : α) (raws : List α) :
    (unwrapFrom previous shift raws).length = raws.length := by
  fun_induction unwrapFrom previous shift raws with
  | case1 => rfl
  | case2 previous shift a rest total ih => exact congrArg (· + 1) ih

theorem length_unwrap (raws : List α) : (unwrap raws).length = raws.length := by
  cases raws with
  | nil => rfl
  | cons a rest => exact congrArg (· + 1) (length_unwrapFrom a Scalar.zero rest)

/-- There is a direction for each segment at most. -/
theorem length_headings_le (ps : List (α × α)) : (headings ps).length ≤ ps.length - 1 := by
  rw [headings, length_unwrap, rawHeadings, List.length_map, ← length_segments]
  exact List.length_filter_le _ _

/-- From the last position to the first, where there are two. -/
def span? : List (α × α) → Option (α × α)
  | first :: next :: rest =>
    let last := (next :: rest).getLast?.getD next
    some (first.1 - last.1, first.2 - last.2)
  | _ => none

theorem span?_eq {ps : List (α × α)} {p q : α × α} (hlong : 2 ≤ ps.length)
    (hhead : ps.head? = some p) (hlast : ps.getLast? = some q) :
    span? ps = some (p.1 - q.1, p.2 - q.2) := by
  match ps, hlong with
  | first :: next :: rest, _ =>
    obtain rfl := Option.some.inj hhead
    rw [List.getLast?_cons_cons] at hlast
    rw [span?, hlast]
    rfl

/-- The moves of the second path are those of the first, each changed in the same way. -/
structure Moved (change : α × α → α × α) (ps qs : List (α × α)) : Prop where
  segments : segments qs = (segments ps).map change
  span : span? qs = (span? ps).map change

theorem moved_map {β : Type} {a b : β → α × α} {change : α × α → α × α} {xs : List β}
    (h : ∀ x ∈ xs, ∀ y ∈ xs, ((b y).1 - (b x).1, (b y).2 - (b x).2) =
      change ((a y).1 - (a x).1, (a y).2 - (a x).2)) :
    Moved change (xs.map a) (xs.map b) := by
  constructor
  · fun_induction List.map a xs with
    | case1 => rfl
    | case2 x rest ih =>
      cases rest with
      | nil => rfl
      | cons y rest =>
        have hrest := ih fun u hu v hv =>
          h u (List.mem_cons_of_mem _ hu) v (List.mem_cons_of_mem _ hv)
        have hmove := h x List.mem_cons_self y (List.mem_cons_of_mem _ List.mem_cons_self)
        simp only [List.map_cons, Path.segments, List.cons.injEq] at hrest ⊢
        exact ⟨hmove, hrest⟩
  · match xs, h with
    | [], _ => rfl
    | [x], _ => rfl
    | x :: y :: rest, h =>
      have hmove := h ((y :: rest).getLast (List.cons_ne_nil y rest))
        (List.mem_cons_of_mem _ (List.getLast_mem _)) x List.mem_cons_self
      have hlast (g : β → α × α) : (g y :: rest.map g).getLast?.getD (g y) =
          g ((y :: rest).getLast (List.cons_ne_nil y rest)) := by
        rw [← List.map_cons, List.getLast?_map,
          List.getLast?_eq_some_getLast (List.cons_ne_nil y rest)]
        rfl
      simp only [span?, List.map_cons, hlast, Option.map_some, hmove]

end Path

namespace Stroke

theorem endPointLength_eq_span (s : Stroke α) :
    s.endPointLength = (Path.span? s.positions).elim Scalar.zero fun m => Path.reach m / s.dpi := by
  unfold endPointLength
  split
  next first next rest h => rw [h]; rfl
  next h =>
    have hnone : Path.span? s.positions = none := by
      match hs : s.positions with
      | [] => rfl
      | [p] => rfl
      | p :: q :: rest => exact absurd hs (h p q rest)
    rw [hnone]
    rfl

omit [Scalar α] in
theorem durationNanos_map {dpi density : α} {ps : List (Point α)} {frozen other : Bool}
    {f : Point α → Point α} (h : ∀ p ∈ ps, ∀ q ∈ ps, (f q).time - (f p).time = q.time - p.time) :
    (⟨density, ps.map f, other⟩ : Stroke α).durationNanos =
      (⟨dpi, ps, frozen⟩ : Stroke α).durationNanos := by
  cases ps with
  | nil => rfl
  | cons p ps =>
    have hlast := List.getLast?_eq_some_getLast (List.cons_ne_nil p ps)
    have hmap : ((p :: ps).map f).getLast? =
        some (f ((p :: ps).getLast (List.cons_ne_nil p ps))) := by
      rw [List.getLast?_map, hlast]
      rfl
    simp only [durationNanos, hlast, hmap, List.head?_map, List.head?_cons, Option.map_some]
    exact h p List.mem_cons_self _ (List.getLast_mem _)

end Stroke

end StrayTouch
