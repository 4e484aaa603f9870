import StrayTouch.Document.Value

/-!
Mappings as lists of entries in the order in which their keys first came. A key is looked up by
`Name.sameKey`; writing to a key that is there keeps its place and its first spelling.
-/
namespace StrayTouch.Keyed

variable {β : Type}

def get? : List (Name × β) → Name → Option β
  | [], _ => none
  | (k, v) :: rest, key => if k.sameKey key then some v else get? rest key

def put : List (Name × β) → Name → β → List (Name × β)
  | [], key, value => [(key, value)]
  | (k, v) :: rest, key, value =>
    if k.sameKey key then (k, value) :: rest else (k, v) :: put rest key value

/-- The mapping that a list of entries leaves, later entries winning. -/
def ofEntries (entries : List (Name × β)) : List (Name × β) :=
  entries.foldl (fun m e => put m e.1 e.2) []

def keys (m : List (Name × β)) : List Name :=
  m.map Prod.fst

theorem get?_put_self (m : List (Name × β)) (key : Name) (value : β) :
    get? (put m key value) key = some value := by
  induction m with
  | nil => simp [put, get?, Name.sameKey_refl]
  | cons e rest ih =>
    obtain ⟨k, v⟩ := e
    by_cases same : k.sameKey key = true
    · simp [put, get?, same]
    · simp [put, get?, same, ih]

theorem get?_put_of_ne (m : List (Name × β)) {key other : Name} (value : β)
    (differ : key.sameKey other = false) : get? (put m key value) other = get? m other := by
  induction m with
  | nil => simp [put, get?, differ]
  | cons e rest ih =>
    obtain ⟨k, v⟩ := e
    by_cases same : k.sameKey key = true
    · have apart : k.sameKey other = false := by
        rw [← Bool.not_eq_true]
        intro h
        rw [Name.sameKey_comm] at same
        simp [Name.sameKey_trans same h] at differ
      simp [put, get?, same, apart]
    · simp [put, get?, same, ih]

theorem keys_put (m : List (Name × β)) (key : Name) (value : β) :
    keys (put m key value) =
      if (get? m key).isSome then keys m else keys m ++ [key] := by
  induction m with
  | nil => simp [put, get?, keys]
  | cons e rest ih =>
    obtain ⟨k, v⟩ := e
    by_cases same : k.sameKey key = true
    · simp [put, get?, keys, same]
    · have step : keys ((k, v) :: put rest key value) = k :: keys (put rest key value) := rfl
      simp only [put, get?, same, Bool.false_eq_true, ↓reduceIte, step, ih]
      split <;> simp [keys]

end StrayTouch.Keyed
