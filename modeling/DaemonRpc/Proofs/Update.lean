/-!
# Lists with one entry changed

What several parties do in turn changes one entry of a list at a time.  The lemmas here say what
is found in such a list.
-/

namespace DaemonRpc

variable {α : Type} {xs : List α}

/-- What holds of every entry and of the new one holds of every entry afterwards. -/
theorem forall_mem_set {P : α → Prop} (h : ∀ x ∈ xs, P x) {i : Nat} {x' : α} (hx' : P x') :
    ∀ x ∈ xs.set i x', P x := by
  intro x hx
  rcases List.mem_or_eq_of_mem_set hx with hmem | rfl
  · exact h x hmem
  · exact hx'

/-- An entry is the new one, or one of another place. -/
theorem getElem?_set_cases {i j : Nat} {x' y : α} (h : (xs.set i x')[j]? = some y) :
    (j = i ∧ y = x') ∨ (j ≠ i ∧ xs[j]? = some y) := by
  by_cases hji : j = i
  · subst hji
    rw [List.getElem?_set_self'] at h
    obtain ⟨_, -, hy⟩ := Option.map_eq_some_iff.1 h
    exact Or.inl ⟨rfl, hy.symm⟩
  · rw [List.getElem?_set_ne (Ne.symm hji)] at h
    exact Or.inr ⟨hji, h⟩

end DaemonRpc
