import Mathlib.Data.List.TakeWhile
import Stepwise.Proofs.Text.Integer
import Stepwise.Proofs.Toml.Quoting
import Stepwise.Proofs.Toml.Reading

namespace Stepwise.Toml
open Reader Text

variable {c : Char} {cs ds rest : List Char} {n : Nat}

theorem readValue_of_readSimple {x : Node × List Char} (h : readSimple cs = some x) :
    readValue cs = some x := by
  rw [readValue, depthBound, valueWithin, orElse_apply, h, Option.some_or]

theorem readValue_text (cs rest : List Char) :
    readValue (writeText cs ++ '\n' :: rest) = some (.text (String.ofList cs), '\n' :: rest) := by
  have hquote : ∀ q, ('\n' :: rest).head? ≠ some (QuoteStyle.quote q) := by
    intro q
    cases q <;> simp [QuoteStyle.quote]
  have hread := readText_writeText hquote cs
  refine readValue_of_readSimple ?_
  simp only [readSimple, orElse_apply, bind_apply, hread, Option.bind_some, pure_apply,
    Option.some_or]

theorem ne_of_isDigit {c d : Char} (hc : c.isDigit) (hd : ¬ d.isDigit) : c ≠ d := by
  intro h
  exact hd (h ▸ hc)

theorem ungroup?_of_isDigit (h : ∀ d ∈ c :: ds, d.isDigit) :
    ungroup? Char.isDigit (c :: ds) = some (c :: ds) := by
  induction ds generalizing c with
  | nil => exact if_pos (h c List.mem_cons_self)
  | cons d ds ih =>
    obtain ⟨hc, hds⟩ := List.forall_mem_cons.mp h
    have hd : d ≠ '_' := ne_of_isDigit (hds d List.mem_cons_self) (by decide)
    simp [ungroup?, hc, hd, ih hds]

theorem hexValue?_of_isDigit (h : c.isDigit) :
    (hexValue? c).filter (· < 10) = some (c.toNat - '0'.toNat) := by
  simp only [Char.isDigit, Bool.and_eq_true, decide_eq_true_eq] at h
  have hlt : c.toNat - '0'.toNat < 10 := by
    have hle : c.toNat ≤ '9'.toNat := h.2
    have h9 : '9'.toNat = 57 := rfl
    have h0 : '0'.toNat = 48 := rfl
    omega
  rw [hexValue?, if_pos ⟨h.1, h.2⟩, Option.filter_some, if_pos (by simpa using hlt)]

theorem ofBase?_of_isDigit (h : ∀ d ∈ ds, d.isDigit) :
    ofBase? 10 ds = some (Nat.ofDigitChars 10 ds 0) := by
  have hfold (m : Nat) :
      ds.foldl (fun n c => do return 10 * (← n) + (← (hexValue? c).filter (· < 10))) (some m) =
        some (Nat.ofDigitChars 10 ds m) := by
    induction ds generalizing m with
    | nil => rfl
    | cons d ds ih =>
      obtain ⟨hd, hds⟩ := List.forall_mem_cons.mp h
      simp only [List.foldl_cons, hexValue?_of_isDigit hd, Nat.ofDigitChars_cons]
      exact ih hds _
  exact hfold 0

theorem toDigits_head (h : 0 < n) : (Nat.toDigits 10 n).head? ≠ some '0' := by
  induction n using Nat.strongRecOn with
  | ind n ih =>
    by_cases hn : n < 10
    · simp only [Nat.toDigits_of_lt_base hn, List.head?_cons, ne_eq, Option.some.injEq,
        Nat.digitChar_eq_zero]
      omega
    · have hhead := ih (n / 10) (by omega) (by omega)
      have hsome : (Nat.toDigits 10 (n / 10)).head?.isSome := by simp
      rwa [Nat.toDigits_of_base_le (by decide) (by omega), List.head?_append,
        Option.or_of_isSome hsome]

theorem decimalDigits?_toDigits (n : Nat) :
    decimalDigits? (Nat.toDigits 10 n) = some (Nat.toDigits 10 n) := by
  have hall : ∀ d ∈ Nat.toDigits 10 n, d.isDigit := isDigit_of_mem_toDigits
  have hread : ungroup? Char.isDigit (Nat.toDigits 10 n) = some (Nat.toDigits 10 n) := by
    match hds : Nat.toDigits 10 n with
    | [] => exact absurd hds Nat.toDigits_ne_nil
    | c :: ds => exact ungroup?_of_isDigit (hds ▸ hall)
  rcases Nat.eq_zero_or_pos n with rfl | hn
  · exact hread
  · unfold decimalDigits?
    split
    · next heq =>
      exact absurd (by rw [heq]; rfl) (toDigits_head hn)
    · exact hread

/-- A digit is in front, so there is no sign. -/
theorem splitSign_of_isDigit (h : ∀ d ∈ ds, d.isDigit) : splitSign ds = (false, ds) := by
  unfold splitSign
  split
  · exact absurd (h '-' List.mem_cons_self) (by decide)
  · exact absurd (h '+' List.mem_cons_self) (by decide)
  · rfl

theorem based?_of_isDigit (h : ∀ d ∈ ds, d.isDigit) : based? ds = none := by
  unfold based?
  split
  · exact absurd (h 'x' (by simp)) (by decide)
  · exact absurd (h 'o' (by simp)) (by decide)
  · exact absurd (h 'b' (by simp)) (by decide)
  · rfl

theorem isTime_of_isDigit (h : ∀ d ∈ ds, d.isDigit) : isTime ds = false := by
  unfold isTime
  split
  · exact absurd (h ':' (by simp)) (by decide)
  · rfl

theorem isDate_of_isDigit (h : ∀ d ∈ ds, d.isDigit) : isDate ds = false := by
  unfold isDate
  split
  · exact absurd (h '-' (by simp)) (by decide)
  · rfl

theorem isMoment_of_isDigit (h : ∀ d ∈ ds, d.isDigit) : isMoment ds = false := by
  have htake : isDate (ds.take 10) = false :=
    isDate_of_isDigit fun d hd => h d (List.mem_of_mem_take hd)
  simp [isMoment, isTime_of_isDigit h, htake]

/-- There is neither a point nor an exponent. -/
theorem isFraction_of_isDigit (h : ∀ d ∈ ds, d.isDigit) : isFraction ds = false := by
  have hplain : ∀ d ∈ ds, (d.isDigit || d == '_') = true := fun d hd => by rw [h d hd]; rfl
  have htake := List.takeWhile_eq_self_iff.mpr hplain
  have hdrop := List.dropWhile_eq_nil_iff.mpr hplain
  simp [isFraction, splitSign_of_isDigit h, htake, hdrop]

theorem ne_of_not_isDigit (word : List Char) (h : ∀ d ∈ ds, d.isDigit) (hc : ¬ c.isDigit)
    (hword : c ∈ word) : ds ≠ word := by
  intro he
  subst he
  exact hc (h c hword)

theorem isSpecial_of_isDigit (h : ∀ d ∈ ds, d.isDigit) : isSpecial ds = false := by
  have hinf := ne_of_not_isDigit (c := 'n') "inf".toList h (by decide) (by simp)
  have hnan := ne_of_not_isDigit (c := 'n') "nan".toList h (by decide) (by simp)
  simp only [isSpecial, splitSign_of_isDigit h, Bool.or_eq_false_iff, beq_eq_false_iff_ne]
  exact ⟨hinf, hnan⟩

/-- Digits alone are no other kind of value. -/
theorem scalar?_of_isDigit (h : ∀ d ∈ ds, d.isDigit) :
    scalar? ds = (integer? ds).map .integer := by
  have htrue := ne_of_not_isDigit (c := 'e') "true".toList h (by decide) (by simp)
  have hfalse := ne_of_not_isDigit (c := 'e') "false".toList h (by decide) (by simp)
  simp only [scalar?, htrue, hfalse, isMoment_of_isDigit h, isFraction_of_isDigit h,
    isSpecial_of_isDigit h, if_false, Bool.false_eq_true, Bool.or_self]

theorem scalar?_toDigits (hn : (n : Int) < signedBound) :
    scalar? (Nat.toDigits 10 n) = some (.integer n) := by
  have hall : ∀ d ∈ Nat.toDigits 10 n, d.isDigit := isDigit_of_mem_toDigits
  have hdecimal : decimal? (Nat.toDigits 10 n) = some (n : Int) := by
    simp [decimal?, splitSign_of_isDigit hall, decimalDigits?_toDigits, ofBase?_of_isDigit hall,
      Nat.ofDigitChars_ten_toDigits]
  have hbounds : -signedBound ≤ (n : Int) ∧ (n : Int) < signedBound := by
    refine ⟨?_, hn⟩
    simp only [signedBound]
    omega
  simp [scalar?_of_isDigit hall, integer?, based?_of_isDigit hall, hdecimal, hbounds]

theorem readText_of_isDigit (hc : c.isDigit) (cs : List Char) : readText (c :: cs) = none := by
  have hquote : c ≠ '\x22' := ne_of_isDigit hc (by decide)
  have hapostrophe : c ≠ '\x27' := ne_of_isDigit hc (by decide)
  simp [readText, readLine, hquote, hapostrophe]

theorem readScalar_of_isDigit (h : ∀ d ∈ ds, d.isDigit) :
    readScalar (ds ++ '\n' :: rest) = (scalar? ds).map fun node => (node, '\n' :: rest) := by
  have hplain : ∀ d ∈ ds, isScalarCharacter d := by
    intro d hd
    simp [isScalarCharacter, Char.isAlphanum, h d hd]
  have htake : (ds ++ '\n' :: rest).takeWhile isScalarCharacter = ds := by
    rw [List.takeWhile_append_of_pos hplain, List.takeWhile_cons_of_neg (by decide),
      List.append_nil]
  have hdrop : (ds ++ '\n' :: rest).dropWhile isScalarCharacter = '\n' :: rest := by
    rw [List.dropWhile_append_of_pos hplain, List.dropWhile_cons_of_neg (by decide)]
  simp only [readScalar, htake, hdrop, isDate_of_isDigit h]
  cases scalar? ds <;> rfl

theorem readValue_number (hn : (n : Int) < signedBound) :
    readValue (Nat.toDigits 10 n ++ '\n' :: rest) = some (.integer n, '\n' :: rest) := by
  have hall : ∀ d ∈ Nat.toDigits 10 n, d.isDigit := isDigit_of_mem_toDigits
  have htext : readText (Nat.toDigits 10 n ++ '\n' :: rest) = none := by
    match hds : Nat.toDigits 10 n with
    | [] => exact absurd hds Nat.toDigits_ne_nil
    | c :: ds => exact readText_of_isDigit (hall c (hds ▸ List.mem_cons_self)) _
  refine readValue_of_readSimple ?_
  simp only [readSimple, orElse_apply, bind_apply, htext, Option.bind_none, Option.none_or,
    readScalar_of_isDigit hall, scalar?_toDigits hn, Option.map_some]

end Stepwise.Toml
