import StrayTouch.Document.Convert
import Mathlib.Data.List.Forall2

/-!
Computations that may fail: when they come out, and what they give then.
-/
namespace StrayTouch

variable {β γ : Type}

@[simp] theorem ok_bind (x : β) (next : β → Except Fault γ) :
    (Except.ok x >>= next) = next x := rfl

@[simp] theorem error_bind (f : Fault) (next : β → Except Fault γ) :
    (Except.error f >>= next) = .error f := rfl

theorem exists_of_isOk {x : Except Fault β} (h : x.isOk = true) : ∃ y, x = .ok y := by
  cases x with
  | ok y => exact ⟨y, rfl⟩
  | error f => cases h

theorem eq_ok_of_toOption {x : Except Fault β} {y : β} (h : x.toOption = some y) : x = .ok y := by
  cases x with
  | ok z => exact congrArg Except.ok (Option.some.inj h)
  | error f => cases h

/-- The kind of the fault with which a computation ends. -/
def kind? : Except Fault β → Option Fault.Kind
  | .ok _ => none
  | .error f => some f.kind

theorem exists_of_kind? {x : Except Fault β} {k : Fault.Kind} (h : kind? x = some k) :
    ∃ f, x = .error f ∧ f.kind = k := by
  cases x with
  | ok y => cases h
  | error f => exact ⟨f, rfl, Option.some.inj h⟩

theorem bind_eq_ok_iff {x : Except Fault β} {next : β → Except Fault γ} {z : γ} :
    (x >>= next) = .ok z ↔ ∃ y, x = .ok y ∧ next y = .ok z := by
  cases x <;> simp

theorem bind_eq_error_iff {x : Except Fault β} {next : β → Except Fault γ} {f : Fault} :
    (x >>= next) = .error f ↔ x = .error f ∨ ∃ y, x = .ok y ∧ next y = .error f := by
  cases x <;> simp

theorem exists_of_mapM_eq_error {next : β → Except Fault γ} {xs : List β} {f : Fault}
    (h : xs.mapM next = .error f) : ∃ x ∈ xs, next x = .error f := by
  induction xs with
  | nil => cases h
  | cons x xs ih =>
    rw [List.mapM_cons, bind_eq_error_iff] at h
    rcases h with hx | ⟨_, _, hrest⟩
    · exact ⟨x, List.mem_cons_self, hx⟩
    · rcases bind_eq_error_iff.mp hrest with hxs | ⟨_, _, hdone⟩
      · obtain ⟨y, hy, hf⟩ := ih hxs
        exact ⟨y, List.mem_cons_of_mem _ hy, hf⟩
      · cases hdone

theorem exists_mapM_eq_ok {next : β → Except Fault γ} {xs : List β}
    (h : ∀ x ∈ xs, ∃ y, next x = .ok y) : ∃ ys, xs.mapM next = .ok ys := by
  cases hm : xs.mapM next with
  | ok ys => exact ⟨ys, rfl⟩
  | error f =>
    obtain ⟨x, hx, hf⟩ := exists_of_mapM_eq_error hm
    obtain ⟨y, hy⟩ := h x hx
    rw [hf] at hy
    cases hy

theorem mapM_eq_ok_iff {f : β → Except Fault γ} {xs : List β} {ys : List γ} :
    xs.mapM f = .ok ys ↔ List.Forall₂ (fun x y => f x = .ok y) xs ys := by
  induction xs generalizing ys with
  | nil =>
    rw [List.mapM_nil, List.forall₂_nil_left_iff]
    exact ⟨fun h => (Except.ok.inj h).symm, fun h => h ▸ rfl⟩
  | cons x xs ih =>
    simp only [List.mapM_cons, List.forall₂_cons_left_iff, bind_eq_ok_iff, ih]
    constructor
    · rintro ⟨y, hy, rest, hrest, h⟩
      exact ⟨y, rest, hy, hrest, (Except.ok.inj h).symm⟩
    · rintro ⟨y, rest, hy, hrest, rfl⟩
      exact ⟨y, hy, rest, hrest, rfl⟩

theorem mapM_congr_forall₂ {δ : Type} {f : β → Except Fault δ} {g : γ → Except Fault δ}
    {xs : List β} {ys : List γ} (h : List.Forall₂ (fun x y => f x = g y) xs ys) :
    xs.mapM f = ys.mapM g := by
  induction h with
  | nil => rfl
  | cons hxy _ ih => rw [List.mapM_cons, List.mapM_cons, hxy, ih]

theorem exists_of_forall₂ {R : β → γ → Prop} {xs : List β} {ys : List γ}
    (h : List.Forall₂ R xs ys) {y : γ} (hy : y ∈ ys) : ∃ x ∈ xs, R x y := by
  induction h with
  | nil => cases hy
  | cons hr _ ih =>
    rcases List.mem_cons.mp hy with rfl | hy
    · exact ⟨_, List.mem_cons_self, hr⟩
    · obtain ⟨x, hm, hx⟩ := ih hy
      exact ⟨x, List.mem_cons_of_mem _ hm, hx⟩

/-- Two computations that both come out, with results that are so related, or that both end with the
same fault. -/
inductive Concur (R : β → γ → Prop) : Except Fault β → Except Fault γ → Prop
  | ok {x : β} {y : γ} (h : R x y) : Concur R (.ok x) (.ok y)
  | error (f : Fault) : Concur R (.error f) (.error f)

namespace Concur

variable {δ ε : Type} {R : β → γ → Prop} {S : δ → ε → Prop}

theorem bind {x : Except Fault β} {y : Except Fault γ} {f : β → Except Fault δ}
    {g : γ → Except Fault ε} (h : Concur R x y) (hnext : ∀ a b, R a b → Concur S (f a) (g b)) :
    Concur S (x >>= f) (y >>= g) := by
  cases h with
  | ok h => exact hnext _ _ h
  | error e => exact .error e

theorem refl {x : Except Fault β} : Concur Eq x x := by
  cases x with
  | ok y => exact .ok rfl
  | error f => exact .error f

theorem map {x : Except Fault β} {y : Except Fault γ} {f : β → δ} {g : γ → ε}
    (h : Concur R x y) (hfg : ∀ a b, R a b → S (f a) (g b)) : Concur S (x.map f) (y.map g) := by
  cases h with
  | ok h => exact .ok (hfg _ _ h)
  | error e => exact .error e

theorem mapM {f : δ → Except Fault β} {g : δ → Except Fault γ} {xs : List δ}
    (h : ∀ x ∈ xs, Concur R (f x) (g x)) : Concur (List.Forall₂ R) (xs.mapM f) (xs.mapM g) := by
  induction xs with
  | nil => exact .ok .nil
  | cons x xs ih =>
    obtain ⟨hx, hxs⟩ := List.forall_mem_cons.mp h
    rw [List.mapM_cons, List.mapM_cons]
    apply hx.bind
    intro a b hab
    apply (ih hxs).bind
    intro as bs habs
    exact .ok (.cons hab habs)

end Concur

end StrayTouch
