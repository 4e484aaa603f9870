import StrayTouch.Proofs.Outcome

/-!
Names as values. A value is a name exactly if it is the value of one, and of one only: a scalar, or
a tuple whose items are names in turn.
-/
namespace StrayTouch

namespace Name

@[simp] theorem value_atom (a : Atom) : (atom a).value = .atom a := rfl

theorem values_eq_map (ns : List Name) : values ns = ns.map value := by
  induction ns with
  | nil => rfl
  | cons n ns ih => rw [values, ih, List.map_cons]

mutual

theorem toName_value : ∀ n : Name, n.value.toName = .ok n
  | .atom _ => rfl
  | .tuple items => by rw [value, Value.toName, toNames_values items, ok_bind]

theorem toNames_values : ∀ ns : List Name, Value.toNames (values ns) = .ok ns
  | [] => rfl
  | n :: ns => by rw [values, Value.toNames, toName_value n, toNames_values ns, ok_bind, ok_bind]

end

theorem value_injective {n m : Name} (h : n.value = m.value) : n = m :=
  Except.ok.inj ((toName_value n).symm.trans (h ▸ toName_value m))

end Name

namespace Value

mutual

theorem eq_value_of_toName : ∀ {v : Value} {n : Name}, v.toName = .ok n → v = n.value
  | .atom a, n, h => by
    obtain rfl : Name.atom a = n := Except.ok.inj h
    rfl
  | .tuple items, n, h => by
    obtain ⟨ns, hns, hn⟩ := bind_eq_ok_iff.mp h
    obtain rfl : Name.tuple ns = n := Except.ok.inj hn
    rw [Name.value, ← eq_values_of_toNames hns]
  | .knot label v, n, h => by
    obtain ⟨_, _, hn⟩ := bind_eq_ok_iff.mp h
    cases hn

theorem eq_values_of_toNames : ∀ {vs : List Value} {ns : List Name}, toNames vs = .ok ns →
    vs = Name.values ns
  | [], ns, h => by
    obtain rfl : [] = ns := Except.ok.inj h
    rfl
  | v :: vs, ns, h => by
    obtain ⟨n, hn, h⟩ := bind_eq_ok_iff.mp h
    obtain ⟨others, hothers, h⟩ := bind_eq_ok_iff.mp h
    obtain rfl : n :: others = ns := Except.ok.inj h
    rw [Name.values, ← eq_value_of_toName hn, ← eq_values_of_toNames hothers]

end

theorem toName_eq_ok_iff {v : Value} {n : Name} : v.toName = .ok n ↔ v = n.value :=
  ⟨eq_value_of_toName, fun h => h ▸ n.toName_value⟩

end Value

end StrayTouch
