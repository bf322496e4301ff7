import Mathlib.Data.List.TakeWhile
import Stepwise.Expression.Token
import Stepwise.Proofs.Text.Integer

namespace Stepwise
open Text

variable {c : Char} {cs rest : List Char} {l : Lexeme}

theorem takeWhile_forall {p : Char → Bool} {cs : List Char} : ∀ c ∈ cs.takeWhile p, p c :=
  List.all_eq_true.mp List.all_takeWhile

/-- The characters do not go on with one of the kind. -/
def Breaks (p : Char → Bool) (rest : List Char) : Prop :=
  rest.head?.any p = false

theorem breaks_dropWhile (p : Char → Bool) (cs : List Char) : Breaks p (cs.dropWhile p) := by
  have h := List.head?_dropWhile_not p cs
  unfold Breaks
  cases hc : (cs.dropWhile p).head? with
  | none => rfl
  | some d => simpa [hc] using h

/-- Characters of a kind are told apart from what follows them. -/
theorem Breaks.takeWhile {p : Char → Bool} (hb : Breaks p rest) (h : ∀ c ∈ cs, p c) :
    (cs ++ rest).takeWhile p = cs ∧ (cs ++ rest).dropWhile p = rest := by
  rw [List.takeWhile_append_of_pos h, List.dropWhile_append_of_pos h]
  match rest with
  | [] => simp
  | c :: rest =>
    have hc : p c = false := hb
    simp [hc]

/-- The word that a text of digits denotes is the one with their value. -/
theorem readInt64?_eq_some_iff {digits : List Char} {n : Int64} (hne : digits ≠ [])
    (hall : ∀ d ∈ digits, d.isDigit) :
    readInt64? digits = some n ↔ n.toInt = Nat.ofDigitChars 10 digits 0 := by
  match digits with
  | [] => exact absurd rfl hne
  | c :: cs =>
    have hd : ofDigits? (c :: cs) = some (Nat.ofDigitChars 10 (c :: cs) 0) :=
      if_pos ⟨hne, List.all_eq_true.mpr hall⟩
    rw [readInt64?, ofSigned?_of_isDigit (hall c List.mem_cons_self), hd, Option.map_some,
      Option.bind_some]
    exact toInt64?_eq_some_iff

theorem mem_of_lookup {α : Type} [BEq α] [LawfulBEq α] {table : List (α × Token)} {a : α}
    {t : Token} (h : table.lookup a = some t) : (a, t) ∈ table := by
  obtain ⟨front, back, rfl, _⟩ := List.lookup_eq_some_iff.mp h
  simp

namespace Lexeme

/-- The lexeme is one of its class, and it ends before these characters. -/
inductive EndsBefore (rest : List Char) : Lexeme → Prop
  | number {n : Int64} {digits : List Char} (hne : digits ≠ []) (hall : ∀ d ∈ digits, d.isDigit)
    (hn : n.toInt = Nat.ofDigitChars 10 digits 0) (hb : Breaks Char.isDigit rest) :
    EndsBefore rest ⟨.int n, digits⟩
  | quoted {q : Char} {body : List Char} (hq : isQuote q) (hbody : q ∉ body) :
    EndsBefore rest ⟨.str (String.ofList body), q :: body ++ [q]⟩
  | variableName {name : List Char} (hne : name ≠ []) (hall : ∀ c ∈ name, isVariableCharacter c)
    (hb : Breaks isVariableCharacter rest) :
    EndsBefore rest ⟨.var (String.ofList ('$' :: name)), '$' :: name⟩
  | typeName {name : List Char} (hne : name ≠ []) (hall : ∀ c ∈ name, isTypeCharacter c) :
    EndsBefore rest ⟨.type (String.ofList name), '[' :: name ++ [']']⟩
  | word {t : Token} {letters : List Char} (hne : letters ≠ []) (hall : ∀ c ∈ letters, c.isAlpha)
    (ht : (foldCase (String.ofList ('-' :: letters)), t) ∈ wordOperators)
    (hb : Breaks Char.isAlpha rest) : EndsBefore rest ⟨t, '-' :: letters⟩
  | symbol {c : Char} {t : Token} (ht : (c, t) ∈ symbols)
    (hb : c = '-' → Breaks Char.isAlpha rest) : EndsBefore rest ⟨t, [c]⟩

theorem bne_of_not_mem (h : c ∉ cs) : ∀ d ∈ cs, (d != c) = true := by
  rintro d hd
  rw [bne_iff_ne]
  rintro rfl
  exact h hd

/-- A literal that is not closed is none. -/
theorem quoted_of_not_mem (h : c ∉ cs) : quoted c cs = .error (.unterminated c) := by
  simp only [quoted, List.dropWhile_eq_nil_iff.mpr (bne_of_not_mem h)]

theorem quoted_append (h : c ∉ cs) :
    quoted c (cs ++ c :: rest) = .ok (⟨.str (String.ofList cs), c :: cs ++ [c]⟩, rest) := by
  simp only [quoted, List.takeWhile_append_of_pos (bne_of_not_mem h),
    List.dropWhile_append_of_pos (bne_of_not_mem h)]
  simp

theorem cut_of_number (hc : c.isDigit) (h : number c cs = .ok (l, rest)) :
    l.EndsBefore rest ∧ l.text ++ rest = c :: cs := by
  have hne : c :: cs.takeWhile Char.isDigit ≠ [] := List.cons_ne_nil _ _
  have hall : ∀ d ∈ c :: cs.takeWhile Char.isDigit, d.isDigit :=
    List.forall_mem_cons.mpr ⟨hc, takeWhile_forall⟩
  simp only [number] at h
  split at h
  · next n hn =>
    cases h
    have hvalue := (readInt64?_eq_some_iff hne hall).mp hn
    exact ⟨.number hne hall hvalue (breaks_dropWhile _ cs), by simp⟩
  · cases h

theorem cut_of_quoted (hc : isQuote c) (h : quoted c cs = .ok (l, rest)) :
    l.EndsBefore rest ∧ l.text ++ rest = c :: cs := by
  by_cases hm : c ∈ cs
  · obtain ⟨body, tail, rfl, hbody⟩ := List.eq_append_cons_of_mem hm
    rw [quoted_append hbody] at h
    cases h
    exact ⟨.quoted hc hbody, by simp⟩
  · rw [quoted_of_not_mem hm] at h
    cases h

theorem cut_of_variableName (h : variableName cs = .ok (l, rest)) :
    l.EndsBefore rest ∧ l.text ++ rest = '$' :: cs := by
  simp only [variableName] at h
  split at h
  · cases h
  · next hne =>
    cases h
    exact ⟨.variableName hne takeWhile_forall (breaks_dropWhile _ cs), by simp⟩

theorem cut_of_typeName (h : typeName cs = .ok (l, rest)) :
    l.EndsBefore rest ∧ l.text ++ rest = '[' :: cs := by
  simp only [typeName] at h
  split at h
  · next tail htail =>
    split at h
    · cases h
    · next hne =>
      cases h
      have hcs : cs = cs.takeWhile isTypeCharacter ++ ']' :: rest := by
        rw [← htail, List.takeWhile_append_dropWhile]
      refine ⟨.typeName hne takeWhile_forall, ?_⟩
      conv => rhs; rw [hcs]
      simp
  · cases h

theorem cut_of_wordOperator (hc : cs.head?.any Char.isAlpha) (h : wordOperator cs = .ok (l, rest)) :
    l.EndsBefore rest ∧ l.text ++ rest = '-' :: cs := by
  have hne : cs.takeWhile Char.isAlpha ≠ [] := by
    match cs with
    | d :: ds =>
      have hd : d.isAlpha = true := hc
      simp [hd]
  simp only [wordOperator] at h
  split at h
  · next ht =>
    cases h
    exact ⟨.word hne takeWhile_forall (mem_of_lookup ht) (breaks_dropWhile _ cs), by simp⟩
  · cases h

theorem cut_of_symbol (hc : ¬ (c = '-' ∧ cs.head?.any Char.isAlpha))
    (h : symbol c cs = .ok (l, rest)) : l.EndsBefore rest ∧ l.text ++ rest = c :: cs := by
  simp only [symbol] at h
  split at h
  · next ht =>
    cases h
    refine ⟨.symbol (mem_of_lookup ht) fun hdash => ?_, rfl⟩
    exact Bool.eq_false_iff.mpr fun ha => hc ⟨hdash, ha⟩
  · cases h

theorem cut_of_read (h : read c cs = .ok (l, rest)) :
    l.EndsBefore rest ∧ l.text ++ rest = c :: cs := by
  unfold read at h
  split at h
  · next hc => exact cut_of_number hc h
  · split at h
    · next hc => exact cut_of_quoted hc h
    · split at h
      · next hc =>
        subst hc
        exact cut_of_variableName h
      · split at h
        · next hc =>
          subst hc
          exact cut_of_typeName h
        · split at h
          · next hc =>
            obtain ⟨rfl, ha⟩ := hc
            exact cut_of_wordOperator ha h
          · next hc => exact cut_of_symbol hc h

end Lexeme

section reading

theorem read_number {n : Int64} (hall : ∀ d ∈ c :: cs, d.isDigit)
    (hn : readInt64? (c :: cs) = some n) (hb : Breaks Char.isDigit rest) :
    Lexeme.read c (cs ++ rest) = .ok (⟨.int n, c :: cs⟩, rest) := by
  obtain ⟨hc, hcs⟩ := List.forall_mem_cons.mp hall
  obtain ⟨ht, hr⟩ := hb.takeWhile hcs
  simp only [Lexeme.read, if_pos hc, Lexeme.number, ht, hr, hn]

theorem read_quoted (hq : Lexeme.isQuote c) (h : c ∉ cs) :
    Lexeme.read c (cs ++ c :: rest) = .ok (⟨.str (String.ofList cs), c :: cs ++ [c]⟩, rest) := by
  have hdigit : c.isDigit = false := by
    simp only [Lexeme.isQuote, Bool.or_eq_true, beq_iff_eq] at hq
    rcases hq with rfl | rfl <;> decide
  simp only [Lexeme.read, hdigit, hq, if_true]
  exact Lexeme.quoted_append h

theorem read_variableName (hne : cs ≠ []) (h : ∀ c ∈ cs, Lexeme.isVariableCharacter c)
    (hb : Breaks Lexeme.isVariableCharacter rest) :
    Lexeme.read '$' (cs ++ rest) = .ok (⟨.var (String.ofList ('$' :: cs)), '$' :: cs⟩, rest) := by
  obtain ⟨ht, hr⟩ := hb.takeWhile h
  have hread : Lexeme.read '$' (cs ++ rest) = Lexeme.variableName (cs ++ rest) := rfl
  rw [hread]
  simp only [Lexeme.variableName, ht, hr]

theorem read_typeName (hne : cs ≠ []) (h : ∀ c ∈ cs, Lexeme.isTypeCharacter c) :
    Lexeme.read '[' (cs ++ ']' :: rest) =
      .ok (⟨.type (String.ofList cs), '[' :: cs ++ [']']⟩, rest) := by
  have hc : Lexeme.isTypeCharacter ']' = false := by decide +kernel
  have hread : Lexeme.read '[' (cs ++ ']' :: rest) = Lexeme.typeName (cs ++ ']' :: rest) := rfl
  rw [hread]
  simp [Lexeme.typeName, List.takeWhile_append_of_pos h, List.dropWhile_append_of_pos h, hc, hne]

theorem read_word {t : Token} (h : ∀ d ∈ c :: cs, d.isAlpha)
    (hw : Lexeme.wordOperators.lookup (foldCase (String.ofList ('-' :: c :: cs))) = some t)
    (hb : Breaks Char.isAlpha rest) :
    Lexeme.read '-' (c :: cs ++ rest) = .ok (⟨t, '-' :: c :: cs⟩, rest) := by
  obtain ⟨ht, hr⟩ := hb.takeWhile h
  have hc : c.isAlpha = true := h c List.mem_cons_self
  have hread : Lexeme.read '-' (c :: cs ++ rest) = Lexeme.wordOperator (c :: cs ++ rest) := by
    simp [Lexeme.read, Lexeme.isQuote, hc]
  rw [hread]
  simp only [Lexeme.wordOperator, ht, hr, hw]

/-- A dash is a sign unless a letter follows it. -/
theorem read_symbol {t : Token} (h : Lexeme.symbols.lookup c = some t)
    (hb : c = '-' → Breaks Char.isAlpha rest) : Lexeme.read c rest = .ok (⟨t, [c]⟩, rest) := by
  have hall : ∀ x ∈ Lexeme.symbols,
      x.1.isDigit = false ∧ Lexeme.isQuote x.1 = false ∧ x.1 ≠ '$' ∧ x.1 ≠ '[' := by
    decide
  obtain ⟨h₁, h₂, h₃, h₄⟩ := hall _ (mem_of_lookup h)
  have hw : ¬ (c = '-' ∧ rest.head?.any Char.isAlpha) := by
    rintro ⟨hc, ha⟩
    exact absurd ((hb hc).symm.trans ha) (by decide)
  simp only [Lexeme.read, h₁, h₂, h₃, h₄, hw, if_false, Bool.false_eq_true, Lexeme.symbol, h]

end reading

namespace Lexeme

theorem read_of_endsBefore (h : l.EndsBefore rest) (he : l.text ++ rest = c :: cs) :
    read c cs = .ok (l, rest) := by
  cases h with
  | @number n digits hne hall hn hb =>
    match digits with
    | d :: ds =>
      cases he
      exact read_number hall ((readInt64?_eq_some_iff hne hall).mpr hn) hb
  | quoted hq hbody =>
    simp only [List.cons_append, List.append_assoc, List.nil_append, List.cons.injEq] at he
    obtain ⟨rfl, rfl⟩ := he
    exact read_quoted hq hbody
  | variableName hne hall hb =>
    cases he
    exact read_variableName hne hall hb
  | typeName hne hall =>
    simp only [List.cons_append, List.append_assoc, List.nil_append, List.cons.injEq] at he
    obtain ⟨rfl, rfl⟩ := he
    exact read_typeName hne hall
  | @word t letters hne hall ht hb =>
    have hlookup : ∀ x ∈ wordOperators, wordOperators.lookup x.1 = some x.2 := by decide
    match letters with
    | d :: ds =>
      cases he
      exact read_word hall (hlookup _ ht) hb
  | symbol ht hb =>
    have hlookup : ∀ x ∈ symbols, symbols.lookup x.1 = some x.2 := by decide
    cases he
    exact read_symbol (hlookup _ ht) hb

/-- A lexeme is read just when it is one of its class and ends where the rest begins. -/
theorem read_eq_ok_iff :
    read c cs = .ok (l, rest) ↔ l.EndsBefore rest ∧ l.text ++ rest = c :: cs :=
  ⟨cut_of_read, fun ⟨h, he⟩ => read_of_endsBefore h he⟩

/-- No lexeme starts with a blank. -/
theorem EndsBefore.not_isBlank (h : l.EndsBefore rest) (he : l.text ++ rest = c :: cs) :
    ¬ isBlank c := by
  cases h with
  | @number n digits hne hall =>
    match digits with
    | d :: ds =>
      cases he
      exact not_isBlank_of_isDigit (hall c List.mem_cons_self)
  | quoted hq =>
    cases he
    simp only [isQuote, Bool.or_eq_true, beq_iff_eq] at hq
    rcases hq with rfl | rfl <;> decide
  | variableName | typeName | word =>
    cases he
    decide
  | symbol ht =>
    have hall : ∀ x ∈ symbols, ¬ isBlank x.1 := by decide
    cases he
    exact hall _ ht

end Lexeme

theorem tokenize_of_blank {c : Char} (h : isBlank c) (cs : List Char) :
    tokenize (c :: cs) = tokenize cs := by
  rw [tokenize, if_pos h]

theorem tokenize_of_read {c : Char} {cs rest : List Char} {l : Lexeme} (hb : ¬ isBlank c)
    (h : Lexeme.read c cs = .ok (l, rest)) :
    tokenize (c :: cs) = (tokenize rest).map (l :: ·) := by
  rw [tokenize, if_neg hb]
  split
  · next heq => cases h.symm.trans heq
  · next heq =>
    cases h.symm.trans heq
    rfl

/-- The text is cut into the lexemes: blanks are passed over, and each lexeme ends where the text
after it begins. -/
inductive Cuts : List Char → List Lexeme → Prop
  | nil : Cuts [] []
  | blank {b : Char} {cs : List Char} {ls : List Lexeme} (hb : isBlank b) (h : Cuts cs ls) :
    Cuts (b :: cs) ls
  | lexeme {l : Lexeme} {rest : List Char} {ls : List Lexeme} (hl : l.EndsBefore rest)
    (h : Cuts rest ls) : Cuts (l.text ++ rest) (l :: ls)

theorem cuts_of_tokenize {ls : List Lexeme} (h : tokenize cs = .ok ls) : Cuts cs ls := by
  fun_induction tokenize cs generalizing ls with
  | case1 =>
    cases h
    exact .nil
  | case2 c cs hc ih => exact .blank hc (ih h)
  | case3 => cases h
  | case4 c cs hc l rest hr ih =>
    obtain ⟨hl, he⟩ := Lexeme.cut_of_read hr
    cases hrest : tokenize rest with
    | error => simp [hrest, Except.map] at h
    | ok ls' =>
      rw [hrest] at h
      cases h
      rw [← he]
      exact .lexeme hl (ih hrest)

theorem Lexeme.EndsBefore.tokenize (h : l.EndsBefore rest) :
    tokenize (l.text ++ rest) = (tokenize rest).map (l :: ·) := by
  cases he : l.text ++ rest with
  | nil => cases h <;> simp_all
  | cons c cs => exact tokenize_of_read (h.not_isBlank he) (read_of_endsBefore h he)

/-- A text is read as the lexemes into which it is cut. -/
theorem tokenize_eq_ok_iff_cuts {ls : List Lexeme} : tokenize cs = .ok ls ↔ Cuts cs ls := by
  refine ⟨cuts_of_tokenize, fun h => ?_⟩
  induction h with
  | nil => rw [tokenize]
  | blank hb _ ih => rw [tokenize_of_blank hb, ih]
  | lexeme hl _ ih =>
    rw [hl.tokenize, ih]
    rfl

end Stepwise
