import StrayTouch.Proofs.Gesture.Steps

/-!
Steps on two states side by side. They agree when, from states that stand for each other, they end
alike, with results that stand for each other or with the same fault, and again in such states.
-/
namespace StrayTouch.Steps

variable {σ τ β γ δ ε : Type}

/-- Two ends: both with a result, or both with the same fault. -/
inductive Match (R : σ → τ → Prop) (V : β → γ → Prop) :
    EStateM.Result Fault σ β → EStateM.Result Fault τ γ → Prop
  | ok {x : β} {y : γ} {s : σ} {t : τ} (hv : V x y) (h : R s t) : Match R V (.ok x s) (.ok y t)
  | error (f : Fault) {s : σ} {t : τ} (h : R s t) : Match R V (.error f s) (.error f t)

def Agree (R : σ → τ → Prop) (V : β → γ → Prop) (m : Steps σ β) (n : Steps τ γ) : Prop :=
  ∀ s t, R s t → Match R V (m.run s) (n.run t)

variable {R : σ → τ → Prop} {V : β → γ → Prop} {W : δ → ε → Prop}

theorem Match.bind {S : σ → τ → Prop} {s : σ} {t : τ} {m : Steps σ β} {n : Steps τ γ}
    {f : β → Steps σ δ} {g : γ → Steps τ ε} (h : Match R V (m.run s) (n.run t))
    (hRS : ∀ s t, R s t → S s t)
    (hnext : ∀ x y, V x y → ∀ s t, R s t → Match S W ((f x).run s) ((g y).run t)) :
    Match S W ((m >>= f).run s) ((n >>= g).run t) := by
  rw [EStateM.run_bind, EStateM.run_bind]
  cases hm : m.run s <;> cases hn : n.run t <;> rw [hm, hn] at h <;> cases h
  case ok.ok.ok x s y t hv h => exact hnext x y hv s t h
  case error.error.error f s t h => exact .error f (hRS s t h)

theorem Agree.bind {m : Steps σ β} {n : Steps τ γ} {f : β → Steps σ δ} {g : γ → Steps τ ε}
    (h : Agree R V m n) (hnext : ∀ x y, V x y → Agree R W (f x) (g y)) :
    Agree R W (m >>= f) (n >>= g) :=
  fun s t hst => (h s t hst).bind (fun _ _ h => h) hnext

theorem Agree.pure {x : β} {y : γ} (h : V x y) :
    Agree R V (Pure.pure x : Steps σ β) (Pure.pure y) :=
  fun _ _ hst => .ok h hst

theorem Agree.of (r : Except Fault β) : Agree R Eq (Steps.of r) (Steps.of r) := by
  intro s t h
  cases r with
  | ok x => exact .ok rfl h
  | error f => exact .error f h

theorem Agree.throw (f : Fault) : Agree R V (throw f : Steps σ β) (throw f : Steps τ γ) :=
  fun _ _ h => .error f h

theorem Agree.attempt {m : Steps σ β} {n : Steps τ β} (h : Agree R Eq m n) :
    Agree R Eq (Steps.attempt m) (Steps.attempt n) := by
  intro s t hst
  have hends := h s t hst
  unfold Steps.attempt
  simp only [EStateM.run] at hends ⊢
  generalize m s = end₁ at hends ⊢
  generalize n t = end₂ at hends ⊢
  cases hends with
  | ok hv h => exact .ok (congrArg some hv) h
  | error f h => exact .ok rfl h

theorem Agree.foldlM {step : β → δ → Steps σ β} {other : β → ε → Steps τ β} {xs : List δ}
    {ys : List ε} (h : List.Forall₂ (fun x y => ∀ acc, Agree R Eq (step acc x) (other acc y)) xs ys)
    (acc : β) : Agree R Eq (xs.foldlM step acc) (ys.foldlM other acc) := by
  induction h generalizing acc with
  | nil => exact .pure rfl
  | cons hxy _ ih =>
    rw [List.foldlM_cons, List.foldlM_cons]
    exact (hxy acc).bind fun _ _ he => he ▸ ih _

theorem Agree.entry (entries : List (Name × β)) (key : Name) :
    Agree R Eq (Steps.entry entries key) (Steps.entry entries key) := by
  unfold Steps.entry
  cases Keyed.get? entries key with
  | some v => exact .pure rfl
  | none => exact .throw _

end StrayTouch.Steps
