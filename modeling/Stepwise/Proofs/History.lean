namespace Stepwise

/-- An event of a history that has grown is the new one, or it has been in the history before. -/
theorem append_cons_eq_snoc {α : Type} {history before after : List α} {x new : α}
    (h : before ++ x :: after = history ++ [new]) :
    (before = history ∧ x = new ∧ after = []) ∨
      ∃ rest, after = rest ++ [new] ∧ before ++ x :: rest = history := by
  rcases List.eq_nil_or_concat after with rfl | ⟨rest, last, rfl⟩
  · obtain ⟨hb, hx⟩ := List.append_inj' h rfl
    exact .inl ⟨hb, List.head_eq_of_cons_eq hx, rfl⟩
  · rw [List.concat_eq_append, ← List.cons_append, ← List.append_assoc] at h
    obtain ⟨hb, hx⟩ := List.append_inj' h rfl
    obtain rfl := List.head_eq_of_cons_eq hx
    exact .inr ⟨rest, List.concat_eq_append, hb⟩

end Stepwise
