import Stepwise.Breakpoint.Hint
import Stepwise.Proofs.Expression.Trimming

namespace Stepwise
open Text

/-- A character that neither starts a literal nor is part of an operator of another language. -/
def IsPlain (c : Char) : Prop :=
  Lexeme.isQuote c = false ∧ Lexeme.isForeign c = false

instance : DecidablePred IsPlain :=
  fun _ => inferInstanceAs (Decidable (_ ∧ _))

/-- The characters that are not plain, one by one. -/
def marks : List Char :=
  ['\x27', '\x22', '=', '!', '<', '>', '&', '|']

/-- A kind of characters that has none of the marks has plain characters only. -/
theorem plain_of_kind {p : Char → Bool} (hp : marks.any p = false) {c : Char} (h : p c = true) :
    IsPlain c := by
  have hc : c ∉ marks := fun hm => List.any_eq_false.mp hp c hm h
  simp only [marks, List.mem_cons, not_or, List.not_mem_nil, not_false_eq_true, and_true] at hc
  simp [IsPlain, Lexeme.isQuote, Lexeme.isForeign, hc]

theorem plain_of_isBlank {c : Char} (h : isBlank c) : IsPlain c :=
  ⟨apart_isQuote c h, apart_isForeign c h⟩

section searching

variable {c : Char} {cs rest : List Char} {l : Lexeme}

theorem foreignOperator?_of_plain (h : IsPlain c) : foreignOperator? (c :: cs) = none := by
  have hc := h.2
  simp only [Lexeme.isForeign, List.contains_eq_mem, decide_eq_false_iff_not] at hc
  have hne : '=' ≠ c ∧ '!' ≠ c ∧ '<' ≠ c ∧ '>' ≠ c := by
    refine ⟨?_, ?_, ?_, ?_⟩ <;> rintro rfl <;> exact hc (by decide)
  simp [foreignOperator?, foreignOperators, hne]

theorem findForeign_of_plain (h : IsPlain c) :
    findForeign none (c :: cs) = findForeign none cs := by
  have hq : ¬ (c = '\x27' ∨ c = '\x22') := by simpa [Lexeme.isQuote] using h.1
  rw [findForeign, if_neg hq, foreignOperator?_of_plain h]

/-- The search passes over plain characters. -/
theorem findForeign_append (h : ∀ c ∈ cs, IsPlain c) :
    findForeign none (cs ++ rest) = findForeign none rest := by
  induction cs with
  | nil => rfl
  | cons c cs ih =>
    obtain ⟨hc, hcs⟩ := List.forall_mem_cons.mp h
    rw [List.cons_append, findForeign_of_plain hc, ih hcs]

/-- Within a literal the search passes over everything up to the quote that ends it. -/
theorem findForeign_within {q : Char} (h : q ∉ cs) :
    findForeign (some q) (cs ++ q :: rest) = findForeign none rest := by
  induction cs with
  | nil => rw [List.nil_append, findForeign, if_pos rfl]
  | cons c cs ih =>
    rw [List.mem_cons, not_or] at h
    rw [List.cons_append, findForeign, if_neg (Ne.symm h.1), ih h.2]

theorem findForeign_of_quote (hq : Lexeme.isQuote c) :
    findForeign none (c :: cs) = findForeign (some c) cs := by
  rw [findForeign, if_pos (by simpa [Lexeme.isQuote] using hq)]

/-- After a lexeme the search goes on where the reading goes on. -/
theorem findForeign_of_endsBefore (h : l.EndsBefore rest) :
    findForeign none (l.text ++ rest) = findForeign none rest := by
  have hplain {p : Char → Bool} (hp : marks.any p = false) {ds : List Char} (hall : ∀ d ∈ ds, p d) :
      ∀ d ∈ ds, IsPlain d :=
    fun d hd => plain_of_kind hp (hall d hd)
  cases h with
  | number _ hall => exact findForeign_append (hplain (by decide) hall)
  | quoted hq hbody =>
    rw [List.append_assoc, List.cons_append, findForeign_of_quote hq]
    exact findForeign_within hbody
  | variableName _ hall =>
    exact findForeign_append
      (List.forall_mem_cons.mpr ⟨by decide, hplain (by decide +kernel) hall⟩)
  | typeName _ hall =>
    have hname := hplain (by decide +kernel) hall
    refine findForeign_append (List.forall_mem_cons.mpr ⟨by decide, ?_⟩)
    exact List.forall_mem_append.mpr ⟨hname, List.forall_mem_singleton.mpr (by decide)⟩
  | word _ hall =>
    exact findForeign_append (List.forall_mem_cons.mpr ⟨by decide, hplain (by decide) hall⟩)
  | symbol ht =>
    have hall : ∀ x ∈ Lexeme.symbols, IsPlain x.1 := by
      simp [Lexeme.symbols, IsPlain, Lexeme.isQuote, Lexeme.isForeign]
    exact findForeign_of_plain (hall _ ht)

end searching

theorem findForeign_of_tokenize {cs : List Char} {ls : List Lexeme} (h : tokenize cs = .ok ls) :
    findForeign none cs = none := by
  have hcuts : Cuts cs ls := cuts_of_tokenize h
  clear h
  induction hcuts with
  | nil => rfl
  | blank hb _ ih => rw [findForeign_of_plain (plain_of_isBlank hb), ih]
  | lexeme hl _ ih => rw [findForeign_of_endsBefore hl, ih]

/-- There is no advice on an expression. -/
theorem operatorHint_of_parse {text : String} {e : Expr} (h : Expr.parse text = .ok e) :
    operatorHint text = none := by
  cases hl : tokenize text.toList with
  | error => simp [Expr.parse, hl, Except.bind] at h
  | ok ls => rw [operatorHint, findForeign_of_tokenize hl, Option.map_none]

end Stepwise
