import Stepwise.Text.Blank
import Stepwise.Text.Integer

namespace Stepwise.Text

variable {n : Int} {i : Int64}

theorem toInt64?_toInt (i : Int64) : toInt64? i.toInt = some i := by
  have hlo : -signedBound ≤ i.toInt := i.le_toInt
  have hhi : i.toInt < signedBound := i.toInt_lt
  rw [toInt64?, if_pos ⟨hlo, hhi⟩, Int64.ofInt_toInt]

/-- The word next to a number is that number. -/
theorem toInt64?_eq_some_iff : toInt64? n = some i ↔ i.toInt = n := by
  constructor
  · intro h
    obtain ⟨⟨hlo, hhi⟩, hi⟩ := Option.ite_none_right_eq_some.mp h
    rw [← Option.some.inj hi]
    exact Int64.toInt_ofInt_of_le hlo hhi
  · intro h
    rw [← h]
    exact toInt64?_toInt i

theorem isDigit_of_mem_toDigits {n : Nat} : ∀ c ∈ Nat.toDigits 10 n, c.isDigit := by
  intro c hc
  exact Nat.isDigit_of_mem_toDigits (by decide) (by decide) hc

theorem ofDigits?_toDigits (n : Nat) : ofDigits? (Nat.toDigits 10 n) = some n := by
  have hall : (Nat.toDigits 10 n).all Char.isDigit = true :=
    List.all_eq_true.mpr isDigit_of_mem_toDigits
  rw [ofDigits?, if_pos ⟨Nat.toDigits_ne_nil, hall⟩, Nat.ofDigitChars_ten_toDigits]

theorem ofSigned?_of_isDigit {c : Char} (h : c.isDigit) (cs : List Char) :
    ofSigned? (c :: cs) = (ofDigits? (c :: cs)).map Int.ofNat := by
  unfold ofSigned?
  split
  · next heq =>
    cases heq
    exact absurd h (by decide)
  · next heq =>
    cases heq
    exact absurd h (by decide)
  · rfl

theorem ofSigned?_toDigits (n : Nat) : ofSigned? (Nat.toDigits 10 n) = some (n : Int) := by
  have hall : ∀ c ∈ Nat.toDigits 10 n, c.isDigit := isDigit_of_mem_toDigits
  have hdigits := ofDigits?_toDigits n
  cases hc : Nat.toDigits 10 n with
  | nil => exact absurd hc Nat.toDigits_ne_nil
  | cons c cs =>
    rw [hc] at hall hdigits
    rw [ofSigned?_of_isDigit (hall c List.mem_cons_self), hdigits]
    rfl

/-- A negative number has a sign before its digits. -/
theorem toList_toString (n : Int) :
    (toString n).toList =
      if 0 ≤ n then Nat.toDigits 10 n.toNat else '-' :: Nat.toDigits 10 (-n).toNat := by
  rw [Int.toString_eq_repr, Int.repr_eq_if]
  split
  · exact Nat.toList_repr
  · rw [String.toList_append, Nat.toList_repr]
    rfl

theorem ofSigned?_toString (n : Int) : ofSigned? (toString n).toList = some n := by
  rw [toList_toString]
  split
  · next h =>
    rw [ofSigned?_toDigits, Int.toNat_of_nonneg h]
  · next h =>
    have hneg : -((-n).toNat : Int) = n := by omega
    rw [ofSigned?, ofDigits?_toDigits]
    exact congrArg some hneg

theorem readInt64?_toString (i : Int64) : readInt64? (toString i.toInt).toList = some i := by
  rw [readInt64?, ofSigned?_toString, Option.bind_some, toInt64?_toInt]

theorem not_isBlank_of_isDigit {c : Char} (h : c.isDigit) : ¬ isBlank c := by
  have hr : 48 ≤ c.toNat ∧ c.toNat ≤ 57 := by
    simpa [Char.isDigit, UInt32.le_iff_toNat_le] using h
  simp [isBlank, covers, blanks]
  omega

theorem not_isBlank_of_mem_toString {c : Char} (h : c ∈ (toString n).toList) : ¬ isBlank c := by
  rw [toList_toString] at h
  split at h
  · exact not_isBlank_of_isDigit (isDigit_of_mem_toDigits c h)
  · cases h with
    | head => decide
    | tail _ h => exact not_isBlank_of_isDigit (isDigit_of_mem_toDigits c h)

theorem trimBlanks_of_not_isBlank {cs : List Char} (h : ∀ c ∈ cs, ¬ isBlank c) :
    trimBlanks cs = cs := by
  have hid {ds : List Char} (hd : ∀ c ∈ ds, ¬ isBlank c) : ds.dropWhile isBlank = ds := by
    cases ds with
    | nil => rfl
    | cons c ds => rw [List.dropWhile_cons_of_neg (hd c (by simp))]
  rw [trimBlanks, hid h, hid (by simpa using h), List.reverse_reverse]

theorem trimBlanks_toString (n : Int) : trimBlanks (toString n).toList = (toString n).toList := by
  apply trimBlanks_of_not_isBlank
  intro c hc
  exact not_isBlank_of_mem_toString hc

end Stepwise.Text
