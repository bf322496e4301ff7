import Stepwise.Proofs.Expression.Trimming
import Stepwise.Value.Error

namespace Stepwise
open Text

variable {cs rest : List Char} {l : Lexeme} {ls : List Lexeme}

/-- The texts in their order make up the characters, with nothing but blanks before, between and
after them. -/
inductive MakesUp : List (List Char) → List Char → Prop
  | nil : MakesUp [] []
  | blank {b : Char} {texts : List (List Char)} {cs : List Char} (hb : isBlank b)
    (h : MakesUp texts cs) : MakesUp texts (b :: cs)
  | text {texts : List (List Char)} {cs : List Char} (text : List Char) (h : MakesUp texts cs) :
    MakesUp (text :: texts) (text ++ cs)

theorem Cuts.makesUp (h : Cuts cs ls) : MakesUp (ls.map (·.text)) cs := by
  induction h with
  | nil => exact .nil
  | blank hb _ ih => exact .blank hb ih
  | lexeme _ _ ih => exact .text _ ih

/-- A kind that no blank is of ends before a blank. -/
theorem ApartFromBlanks.breaks {p : Char → Bool} (hp : ApartFromBlanks p)
    (hrest : ∀ c ∈ rest.head?, isBlank c) : Breaks p rest := by
  match rest with
  | [] => rfl
  | c :: rest => exact hp c (hrest c rfl)

/-- What a lexeme is does not depend on what it ends before, and any lexeme ends before a blank. -/
theorem Lexeme.EndsBefore.blank {more : List Char} (h : l.EndsBefore rest)
    (hmore : ∀ c ∈ more.head?, isBlank c) : l.EndsBefore more := by
  cases h with
  | number hne hall hn => exact .number hne hall hn (apart_isDigit.breaks hmore)
  | quoted hq hbody => exact .quoted hq hbody
  | variableName hne hall =>
    exact .variableName hne hall (apart_isVariableCharacter.breaks hmore)
  | typeName hne hall => exact .typeName hne hall
  | word hne hall ht => exact .word hne hall ht (apart_isAlpha.breaks hmore)
  | symbol ht => exact .symbol ht fun _ => apart_isAlpha.breaks hmore

/-- The texts of the lexemes with a blank between any two of them. -/
def Lexeme.joined (ls : List Lexeme) : List Char :=
  [' '].intercalate (ls.map (·.text))

theorem Cuts.joined (h : Cuts cs ls) : Cuts (Lexeme.joined ls) ls := by
  induction h with
  | nil => exact .nil
  | blank _ _ ih => exact ih
  | @lexeme l rest ls hl _ ih =>
    cases ls with
    | nil =>
      have hend : l.EndsBefore [] := hl.blank (by simp)
      simpa [Lexeme.joined] using Cuts.lexeme hend .nil
    | cons next ls =>
      have hend : l.EndsBefore (' ' :: Lexeme.joined (next :: ls)) := hl.blank (by simp; decide)
      have hcut := Cuts.lexeme hend (.blank (by decide) ih)
      simpa [Lexeme.joined] using hcut

/-- A text is either read as the lexemes into which it can be cut, and then they lose nothing of
it and are read again from their texts joined by blanks, or there is no way to cut it and a parse
error says so. -/
theorem tokenize_loses_nothing (source : List Char) :
    (∃ ls, tokenize source = .ok ls ∧ Cuts source ls ∧ MakesUp (ls.map (·.text)) source ∧
        tokenize (Lexeme.joined ls) = .ok ls) ∨
      ∃ e report, tokenize source = .error e ∧ (∀ ls, ¬ Cuts source ls) ∧
        (ScriptError.parse e).report? = some report ∧ report.kind = .parse := by
  cases h : tokenize source with
  | ok ls =>
    have hcuts : Cuts source ls := cuts_of_tokenize h
    exact .inl ⟨ls, rfl, hcuts, hcuts.makesUp, tokenize_eq_ok_iff_cuts.mpr hcuts.joined⟩
  | error e =>
    refine .inr ⟨e, _, rfl, fun ls hcuts => ?_, rfl, rfl⟩
    cases h.symm.trans (tokenize_eq_ok_iff_cuts.mpr hcuts)

end Stepwise
