import Stepwise.Expression.Parser
import Stepwise.Proofs.Expression.Spelling
import Mathlib.Data.List.DropRight

namespace Stepwise
open Text

/-- A kind of characters that no blank is of. -/
def ApartFromBlanks (p : Char → Bool) : Prop :=
  ∀ c, isBlank c → p c = false

/-- The code points of the blanks, one by one. -/
def blankCodes : List Nat :=
  blanks.flatMap fun i => List.range' i.first (i.last + 1 - i.first)

theorem apart_of_codes {p : Char → Bool} (h : ∀ n ∈ blankCodes, p (Char.ofNat n) = false) :
    ApartFromBlanks p := by
  intro c hc
  obtain ⟨i, hi, hb⟩ := List.any_eq_true.mp hc
  simp only [Bool.and_eq_true, decide_eq_true_eq] at hb
  have hm : c.toNat ∈ blankCodes :=
    List.mem_flatMap.mpr ⟨i, hi, List.mem_range'_1.mpr ⟨hb.1, by omega⟩⟩
  rw [← Char.ofNat_toNat c]
  exact h _ hm

theorem apart_isDigit : ApartFromBlanks Char.isDigit :=
  apart_of_codes (by decide +kernel)

theorem apart_isAlpha : ApartFromBlanks Char.isAlpha :=
  apart_of_codes (by decide +kernel)

theorem apart_isQuote : ApartFromBlanks Lexeme.isQuote :=
  apart_of_codes (by decide +kernel)

theorem apart_isForeign : ApartFromBlanks Lexeme.isForeign :=
  apart_of_codes (by decide +kernel)

theorem apart_isVariableCharacter : ApartFromBlanks Lexeme.isVariableCharacter :=
  apart_of_codes (by decide +kernel)

theorem apart_isTypeCharacter : ApartFromBlanks Lexeme.isTypeCharacter :=
  apart_of_codes (by decide +kernel)

section behind

variable {p : Char → Bool} {c : Char} {cs bs : List Char}

theorem takeWhile_append_blanks (hp : ApartFromBlanks p) (hb : ∀ b ∈ bs, isBlank b) :
    (cs ++ bs).takeWhile p = cs.takeWhile p := by
  induction cs with
  | nil =>
    cases bs with
    | nil => rfl
    | cons b bs => exact List.takeWhile_cons_of_neg (by simp [hp b (hb b List.mem_cons_self)])
  | cons c cs ih => simp only [List.cons_append, List.takeWhile_cons, ih]

theorem dropWhile_append_blanks (hp : ApartFromBlanks p) (hb : ∀ b ∈ bs, isBlank b) :
    (cs ++ bs).dropWhile p = cs.dropWhile p ++ bs := by
  induction cs with
  | nil =>
    cases bs with
    | nil => rfl
    | cons b bs => exact List.dropWhile_cons_of_neg (by simp [hp b (hb b List.mem_cons_self)])
  | cons c cs ih =>
    simp only [List.cons_append, List.dropWhile_cons, ih]
    split <;> rfl

namespace Lexeme

/-- What is read from the front of a text, with characters behind the rest of it. -/
def Read.behind (bs : List Char) (r : Read) : Read :=
  r.map fun (l, rest) => (l, rest ++ bs)

theorem number_append_blanks (hb : ∀ b ∈ bs, isBlank b) :
    number c (cs ++ bs) = (number c cs).behind bs := by
  simp only [number, takeWhile_append_blanks apart_isDigit hb,
    dropWhile_append_blanks apart_isDigit hb]
  split <;> rfl

theorem quoted_append_blanks (hc : isQuote c) (hb : ∀ b ∈ bs, isBlank b) :
    quoted c (cs ++ bs) = (quoted c cs).behind bs := by
  by_cases h : c ∈ cs
  · obtain ⟨body, rest, rfl, hbody⟩ := List.eq_append_cons_of_mem h
    rw [List.append_assoc, List.cons_append, quoted_append hbody, quoted_append hbody]
    rfl
  · have hbs : c ∉ bs := by
      intro hm
      rw [apart_isQuote c (hb c hm)] at hc
      cases hc
    have happend : c ∉ cs ++ bs := List.not_mem_append h hbs
    rw [quoted_of_not_mem h, quoted_of_not_mem happend]
    rfl

theorem variableName_append_blanks (hb : ∀ b ∈ bs, isBlank b) :
    variableName (cs ++ bs) = (variableName cs).behind bs := by
  simp only [variableName, takeWhile_append_blanks apart_isVariableCharacter hb,
    dropWhile_append_blanks apart_isVariableCharacter hb]
  split <;> rfl

theorem typeName_append_blanks (hb : ∀ b ∈ bs, isBlank b) :
    typeName (cs ++ bs) = (typeName cs).behind bs := by
  simp only [typeName, takeWhile_append_blanks apart_isTypeCharacter hb,
    dropWhile_append_blanks apart_isTypeCharacter hb]
  cases cs.dropWhile isTypeCharacter with
  | nil =>
    cases bs with
    | nil => rfl
    | cons b bs =>
      have hne : b ≠ ']' := by
        rintro rfl
        exact absurd (hb _ List.mem_cons_self) (by decide)
      simp [hne]
      rfl
  | cons d rest =>
    by_cases hd : d = ']'
    · subst hd
      simp only [List.cons_append]
      split <;> rfl
    · simp [hd]
      rfl

theorem wordOperator_append_blanks (hb : ∀ b ∈ bs, isBlank b) :
    wordOperator (cs ++ bs) = (wordOperator cs).behind bs := by
  simp only [wordOperator, takeWhile_append_blanks apart_isAlpha hb,
    dropWhile_append_blanks apart_isAlpha hb]
  split <;> rfl

theorem symbol_append_blanks (hb : ∀ b ∈ bs, isBlank b) :
    symbol c (cs ++ bs) = (symbol c cs).behind bs := by
  simp only [symbol, takeWhile_append_blanks apart_isForeign hb]
  split <;> rfl

theorem head?_append_blanks (hb : ∀ b ∈ bs, isBlank b) :
    (cs ++ bs).head?.any Char.isAlpha = cs.head?.any Char.isAlpha := by
  cases cs with
  | nil =>
    cases bs with
    | nil => rfl
    | cons b bs => exact apart_isAlpha b (hb b List.mem_cons_self)
  | cons c cs => rfl

/-- Blanks behind a text are behind what is left of it once a lexeme is read. -/
theorem read_append_blanks (hb : ∀ b ∈ bs, isBlank b) :
    read c (cs ++ bs) = (read c cs).behind bs := by
  simp only [read, head?_append_blanks hb]
  split
  · exact number_append_blanks hb
  · split
    · next hq => exact quoted_append_blanks hq hb
    · split
      · exact variableName_append_blanks hb
      · split
        · exact typeName_append_blanks hb
        · split
          · exact wordOperator_append_blanks hb
          · exact symbol_append_blanks hb

end Lexeme

theorem tokenize_of_error {e : ParseError} (hb : ¬ isBlank c) (h : Lexeme.read c cs = .error e) :
    tokenize (c :: cs) = .error e := by
  rw [tokenize, if_neg hb]
  split
  · next heq =>
    cases h.symm.trans heq
    rfl
  · next heq => cases h.symm.trans heq

theorem tokenize_blanks (hb : ∀ b ∈ bs, isBlank b) : tokenize bs = .ok [] := by
  induction bs with
  | nil => rw [tokenize]
  | cons b bs ih =>
    obtain ⟨hh, ht⟩ := List.forall_mem_cons.mp hb
    rw [tokenize_of_blank hh, ih ht]

/-- Blanks behind a text are not read as anything. -/
theorem tokenize_append_blanks (hb : ∀ b ∈ bs, isBlank b) :
    tokenize (cs ++ bs) = tokenize cs := by
  fun_induction tokenize cs with
  | case1 => exact tokenize_blanks hb
  | case2 c cs hc ih => rw [List.cons_append, tokenize_of_blank hc, ih]
  | case3 c cs hc e hr =>
    have hread : Lexeme.read c (cs ++ bs) = .error e := by
      rw [Lexeme.read_append_blanks hb, hr]
      rfl
    rw [List.cons_append, tokenize_of_error hc hread]
  | case4 c cs hc l rest hr ih =>
    have hread : Lexeme.read c (cs ++ bs) = .ok (l, rest ++ bs) := by
      rw [Lexeme.read_append_blanks hb, hr]
      rfl
    rw [List.cons_append, tokenize_of_read hc hread, ih]

end behind

/-- A text is its trimmed text with blanks around it. -/
theorem exists_around (cs : List Char) :
    ∃ front back, (∀ b ∈ front, isBlank b) ∧ (∀ b ∈ back, isBlank b) ∧
      cs = front ++ trimBlanks cs ++ back := by
  refine ⟨cs.takeWhile isBlank, ((cs.dropWhile isBlank).reverse.takeWhile isBlank).reverse,
    takeWhile_forall, ?_, ?_⟩
  · intro b hb
    exact takeWhile_forall b (List.mem_reverse.mp hb)
  · rw [List.append_assoc, trimBlanks, ← List.reverse_append, List.takeWhile_append_dropWhile,
      List.reverse_reverse, List.takeWhile_append_dropWhile]

theorem dropWhile_trimBlanks (cs : List Char) : (trimBlanks cs).dropWhile isBlank = trimBlanks cs := by
  have hprefix : trimBlanks cs <+: cs.dropWhile isBlank := List.rdropWhile_prefix isBlank _
  cases ht : trimBlanks cs with
  | nil => rfl
  | cons c rest =>
    rw [ht] at hprefix
    obtain ⟨more, hm⟩ := hprefix
    have hc := List.head?_dropWhile_not isBlank cs
    rw [← hm] at hc
    exact List.dropWhile_cons_of_neg (by simpa using hc)

/-- A trimmed text has nothing more to trim. -/
theorem trimBlanks_trimBlanks (cs : List Char) : trimBlanks (trimBlanks cs) = trimBlanks cs := by
  have h := dropWhile_trimBlanks cs
  rw [trimBlanks, h]
  exact List.rdropWhile_idempotent isBlank _

theorem tokenize_blanks_append {cs front : List Char} (hf : ∀ b ∈ front, isBlank b) :
    tokenize (front ++ cs) = tokenize cs := by
  induction front with
  | nil => rfl
  | cons b front ih =>
    obtain ⟨hh, ht⟩ := List.forall_mem_cons.mp hf
    rw [List.cons_append, tokenize_of_blank hh, ih ht]

theorem tokenize_trimBlanks (cs : List Char) : tokenize (trimBlanks cs) = tokenize cs := by
  obtain ⟨front, back, hf, hb, he⟩ := exists_around cs
  rw [he, tokenize_append_blanks hb, tokenize_blanks_append hf, ← he]

/-- A text and the trimmed text are the same expression, or none for the same reason. -/
theorem Expr.parse_trim (text : String) : Expr.parse (trim text) = Expr.parse text := by
  rw [Expr.parse, trim, String.toList_ofList, tokenize_trimBlanks, Expr.parse]

end Stepwise
