namespace Stepwise.Text

/-- The text with every ASCII capital made small; all other characters stay. -/
def foldCase (s : String) : String :=
  s.map Char.toLower

/-- Two texts are one name when they differ at most in the case of ASCII letters. -/
def sameName (s t : String) : Bool :=
  foldCase s == foldCase t

theorem sameName_iff {s t : String} : sameName s t = true ↔ foldCase s = foldCase t := by
  simp [sameName]

@[simp] theorem sameName_self (s : String) : sameName s s = true := by
  simp [sameName]

end Stepwise.Text
