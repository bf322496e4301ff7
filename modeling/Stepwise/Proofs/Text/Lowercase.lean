import Mathlib
import Stepwise.Text.Ascii
import Stepwise.Text.Lowercase

namespace Stepwise.Text

def capitals : List Char :=
  (List.range 26).map fun i => Char.ofNat (0x41 + i)

theorem toLower_eq_self_or (c : Char) : c.toLower = c ∨ c ∈ capitals := by
  by_cases h : 65 ≤ c.toNat ∧ c.toNat ≤ 90
  · refine .inr (List.mem_map.mpr ⟨c.toNat - 65, List.mem_range.mpr (by omega), ?_⟩)
    rw [Nat.add_sub_cancel' h.1, Char.ofNat_toNat]
  · refine .inl ?_
    rw [Char.toLower, dif_neg]
    intro hcapital
    exact h ⟨hcapital.1, hcapital.2⟩

/-- What does not tell a capital from its small letter does not depend on the case at all. -/
theorem apply_toLower {α : Type} [DecidableEq α] {f : Char → α}
    (h : capitals.all fun c => f c.toLower = f c) (c : Char) : f c.toLower = f c := by
  rcases toLower_eq_self_or c with hc | hc
  · rw [hc]
  · exact of_decide_eq_true (List.all_eq_true.mp h c hc)

theorem isCased_toLower (c : Char) : isCased c.toLower = isCased c :=
  apply_toLower (by decide +kernel) c

theorem isCaseIgnorable_toLower (c : Char) : isCaseIgnorable c.toLower = isCaseIgnorable c :=
  apply_toLower (by decide +kernel) c

theorem lowerChar_toLower (c : Char) : lowerChar c.toLower = lowerChar c :=
  apply_toLower (by decide +kernel) c

theorem toLower_beq_sigma (c : Char) : (c.toLower == 'Σ') = (c == 'Σ') :=
  apply_toLower (f := (· == 'Σ')) (by decide +kernel) c

theorem meetsLetter_map_toLower (cs : List Char) :
    meetsLetter (cs.map Char.toLower) = meetsLetter cs := by
  have hignorable : isCaseIgnorable ∘ Char.toLower = isCaseIgnorable := funext isCaseIgnorable_toLower
  rw [meetsLetter, meetsLetter, List.dropWhile_map, hignorable]
  cases cs.dropWhile isCaseIgnorable with
  | nil => rfl
  | cons c rest => exact isCased_toLower c

/-- Neither the letters nor what stands around a sigma depends on the case of the ASCII letters. -/
theorem lowerAfter_map_toLower (before cs : List Char) :
    lowerAfter (before.map Char.toLower) (cs.map Char.toLower) = lowerAfter before cs := by
  induction cs generalizing before with
  | nil => rfl
  | cons c rest ih =>
    have hrest := ih (c :: before)
    rw [List.map_cons] at hrest
    simp only [List.map_cons, lowerAfter, hrest, toLower_beq_sigma, lowerChar_toLower,
      meetsLetter_map_toLower]

theorem lower_foldCase (s : String) : lower (foldCase s) = lower s := by
  rw [lower, foldCase, String.toList_map]
  exact congrArg String.ofList (lowerAfter_map_toLower [] s.toList)

theorem lower_eq_of_foldCase_eq {s t : String} (h : foldCase s = foldCase t) :
    lower s = lower t := by
  rw [← lower_foldCase s, h, lower_foldCase]

theorem lowerAfter_of_ascii {cs : List Char} (h : ∀ c ∈ cs, c.toNat < 0x80) (before : List Char) :
    lowerAfter before cs = cs.map Char.toLower := by
  induction cs generalizing before with
  | nil => rfl
  | cons c rest ih =>
    have hc : c.toNat < 0x80 := h c List.mem_cons_self
    have hsigma : (c == 'Σ') = false := by
      rw [beq_eq_false_iff_ne]
      intro he
      rw [he] at hc
      exact absurd hc (by decide)
    have hrest := ih (fun d hd => h d (List.mem_cons_of_mem c hd)) (c :: before)
    simp [lowerAfter, hsigma, lowerChar, hc, hrest]

theorem lower_of_ascii {s : String} (h : ∀ c ∈ s.toList, c.toNat < 0x80) : lower s = foldCase s := by
  rw [lower, lowerAfter_of_ascii h, foldCase, ← String.toList_map, String.ofList_toList]

end Stepwise.Text
