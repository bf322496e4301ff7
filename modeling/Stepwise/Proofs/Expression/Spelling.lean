import Stepwise.Proofs.Expression.Cutting

namespace Stepwise
open Text

inductive Quote where
  | single | double

namespace Quote

def character : Quote → Char
  | .single => '\x27'
  | .double => '\x22'

def other : Quote → Quote
  | .single => .double
  | .double => .single

/-- The quote to put around a text: the preferred one unless the text has it. -/
def around (preferred : Quote) (s : String) : Char :=
  if preferred.character ∈ s.toList then preferred.other.character else preferred.character

end Quote

/-- A text without one of the quotes. -/
def IsQuotable (s : String) : Prop :=
  ∃ q : Quote, q.character ∉ s.toList

def IsVariableName (name : String) : Prop :=
  ∃ cs, name.toList = '$' :: cs ∧ cs ≠ [] ∧ ∀ c ∈ cs, Lexeme.isVariableCharacter c

def IsTypeName (name : String) : Prop :=
  name.toList ≠ [] ∧ ∀ c ∈ name.toList, Lexeme.isTypeCharacter c

def BinaryOp.spelling : BinaryOp → List Char
  | .add => ['+'] | .sub => ['-'] | .mul => ['*'] | .div => ['/'] | .mod => ['%']
  | .eq => ['-', 'e', 'q'] | .ne => ['-', 'n', 'e']
  | .gt => ['-', 'g', 't'] | .ge => ['-', 'g', 'e']
  | .lt => ['-', 'l', 't'] | .le => ['-', 'l', 'e']
  | .and => ['-', 'a', 'n', 'd'] | .or => ['-', 'o', 'r']

namespace Token

/-- There is a text for the token. -/
def Spellable : Token → Prop
  | .int n => 0 ≤ n
  | .str s => IsQuotable s
  | .var name => IsVariableName name
  | .type name => IsTypeName name
  | _ => True

def spell (preferred : Quote) : Token → List Char
  | .int n => Nat.toDigits 10 n.toInt.toNat
  | .str s => preferred.around s :: s.toList ++ [preferred.around s]
  | .var name => name.toList
  | .type name => '[' :: name.toList ++ [']']
  | .op o => o.spelling
  | .not => ['-', 'n', 'o', 't']
  | .openParen => ['(']
  | .closeParen => [')']

end Token

theorem exists_quote {c : Char} (h : Lexeme.isQuote c) : ∃ q : Quote, q.character = c := by
  simp only [Lexeme.isQuote, Bool.or_eq_true, beq_iff_eq] at h
  rcases h with rfl | rfl
  · exact ⟨.single, rfl⟩
  · exact ⟨.double, rfl⟩

theorem Lexeme.EndsBefore.spellable {rest : List Char} {l : Lexeme} (h : l.EndsBefore rest) :
    l.token.Spellable := by
  cases h with
  | number _ _ hn =>
    rw [Token.Spellable, Int64.le_iff_toInt_le, hn]
    exact Int.natCast_nonneg _
  | quoted hq hbody =>
    obtain ⟨q, rfl⟩ := exists_quote hq
    exact ⟨q, by rwa [String.toList_ofList]⟩
  | variableName hne hall => exact ⟨_, String.toList_ofList, hne, hall⟩
  | typeName hne hall => exact ⟨by rwa [String.toList_ofList], by rwa [String.toList_ofList]⟩
  | word _ _ ht =>
    have hall : ∀ x ∈ wordOperators, x.2.Spellable := by simp [wordOperators, Token.Spellable]
    exact hall _ ht
  | symbol ht =>
    have hall : ∀ x ∈ symbols, x.2.Spellable := by simp [symbols, Token.Spellable]
    exact hall _ ht

/-- The tokens of a text can all be spelled. -/
theorem spellable_of_tokenize {cs : List Char} {ls : List Lexeme} (h : tokenize cs = .ok ls) :
    ∀ l ∈ ls, l.token.Spellable := by
  have hcuts : Cuts cs ls := cuts_of_tokenize h
  clear h
  induction hcuts with
  | nil => exact List.forall_mem_nil _
  | blank _ _ ih => exact ih
  | lexeme hl _ ih => exact List.forall_mem_cons.mpr ⟨hl.spellable, ih⟩

/-- The characters end, or go on with what ends every token. -/
def Delimited (rest : List Char) : Prop :=
  ∀ c ∈ rest.head?, c = ' ' ∨ c = ')'

/-- The text is read as these tokens, whatever delimited text follows it. -/
def Spells (cs : List Char) (ts : List Token) : Prop :=
  ∀ rest, Delimited rest → ∃ ls : List Lexeme, ls.map (·.token) = ts ∧
    tokenize (cs ++ rest) = (tokenize rest).map (ls ++ ·)

section spelled
variable {cs rest : List Char}

theorem delimited_nil : Delimited [] := by
  simp [Delimited]

theorem delimited_blank (rest : List Char) : Delimited (' ' :: rest) := by
  simp [Delimited]

theorem delimited_closeParen (rest : List Char) : Delimited (')' :: rest) := by
  simp [Delimited]

/-- A kind without delimiters ends before them. -/
theorem Delimited.breaks {p : Char → Bool} (hd : Delimited rest)
    (hp : p ' ' = false ∧ p ')' = false) : Breaks p rest := by
  match rest with
  | [] => rfl
  | c :: rest =>
    rcases hd c rfl with rfl | rfl
    · exact hp.1
    · exact hp.2

/-- A text that starts with a lexeme is read as that lexeme and the tokens of the rest. -/
theorem spells_of_read {c : Char} {t : Token} (hb : ¬ isBlank c)
    (h : ∀ rest, Delimited rest → ∃ text, Lexeme.read c (cs ++ rest) = .ok (⟨t, text⟩, rest)) :
    Spells (c :: cs) [t] := by
  intro rest hd
  obtain ⟨text, hr⟩ := h rest hd
  exact ⟨[⟨t, text⟩], rfl, tokenize_of_read hb hr⟩

theorem readInt64?_toDigits {n : Int64} (h : 0 ≤ n) :
    readInt64? (Nat.toDigits 10 n.toInt.toNat) = some n := by
  have hn : 0 ≤ n.toInt := Int64.le_iff_toInt_le.mp h
  rw [readInt64?, ofSigned?_toDigits, Int.toNat_of_nonneg hn, Option.bind_some, toInt64?_toInt]

theorem spells_number {n : Int64} (h : 0 ≤ n) :
    Spells (Nat.toDigits 10 n.toInt.toNat) [.int n] := by
  have hall : ∀ d ∈ Nat.toDigits 10 n.toInt.toNat, d.isDigit := isDigit_of_mem_toDigits
  have hread := readInt64?_toDigits h
  match hc : Nat.toDigits 10 n.toInt.toNat with
  | [] => exact absurd hc Nat.toDigits_ne_nil
  | c :: cs =>
    rw [hc] at hall hread
    refine spells_of_read (not_isBlank_of_isDigit (hall c List.mem_cons_self)) fun rest hd => ?_
    exact ⟨_, read_number hall hread (hd.breaks (by decide))⟩

theorem spells_quoted (preferred : Quote) {s : String} (h : IsQuotable s) :
    Spells ((Token.str s).spell preferred) [.str s] := by
  obtain ⟨q, hq, hne⟩ : ∃ q : Quote, preferred.around s = q.character ∧ q.character ∉ s.toList := by
    unfold Quote.around
    split
    · next hm =>
      obtain ⟨q, hq⟩ := h
      refine ⟨preferred.other, rfl, ?_⟩
      cases preferred <;> cases q <;> first | exact hq | exact absurd hm hq
    · next hm => exact ⟨preferred, rfl, hm⟩
  have hb : ¬ isBlank q.character := by cases q <;> decide
  have hquote : Lexeme.isQuote q.character := by cases q <;> decide
  rw [Token.spell, hq]
  refine spells_of_read hb fun rest hd => ⟨q.character :: s.toList ++ [q.character], ?_⟩
  simpa using read_quoted hquote hne

theorem spells_variableName {name : String} (h : IsVariableName name) :
    Spells name.toList [.var name] := by
  obtain ⟨cs, he, hne, hcs⟩ := h
  obtain rfl : name = String.ofList ('$' :: cs) := by rw [← he, String.ofList_toList]
  rw [String.toList_ofList]
  exact spells_of_read (by decide) fun rest hd =>
    ⟨_, read_variableName hne hcs (hd.breaks (by decide +kernel))⟩

theorem spells_typeName {name : String} (h : IsTypeName name) :
    Spells ('[' :: name.toList ++ [']']) [.type name] := by
  refine spells_of_read (by decide) fun rest hd => ⟨'[' :: name.toList ++ [']'], ?_⟩
  simpa using read_typeName h.1 h.2

theorem spells_word {c : Char} {t : Token} (h : (c :: cs).all Char.isAlpha)
    (hw : Lexeme.wordOperators.lookup (foldCase (String.ofList ('-' :: c :: cs))) = some t) :
    Spells ('-' :: c :: cs) [t] :=
  spells_of_read (by decide) fun _ hd =>
    ⟨_, read_word (List.all_eq_true.mp h) hw (hd.breaks (by decide))⟩

theorem spells_symbol {c : Char} {t : Token} (h : Lexeme.symbols.lookup c = some t) :
    Spells [c] [t] := by
  have hall : ∀ x ∈ Lexeme.symbols, ¬ isBlank x.1 := by decide
  exact spells_of_read (hall _ (mem_of_lookup h)) fun rest hd =>
    ⟨_, read_symbol h fun _ => hd.breaks (by decide)⟩

theorem spells_operator (op : BinaryOp) : Spells op.spelling [.op op] := by
  cases op
  case add | sub | mul | div | mod => exact spells_symbol (by decide)
  all_goals exact spells_word (by decide) (by decide +kernel)

/-- A token is read back from how it is spelled. -/
theorem spells_token (preferred : Quote) {t : Token} (h : t.Spellable) :
    Spells (t.spell preferred) [t] := by
  match t with
  | .int n => exact spells_number h
  | .str s => exact spells_quoted preferred h
  | .var name => exact spells_variableName h
  | .type name => exact spells_typeName h
  | .op op => exact spells_operator op
  | .not => exact spells_word (by decide) (by decide +kernel)
  | .openParen | .closeParen => exact spells_symbol (by decide)

theorem Spells.append_blank {cs' : List Char} {ts ts' : List Token} (h : Spells cs ts)
    (h' : Spells cs' ts') : Spells (cs ++ ' ' :: cs') (ts ++ ts') := by
  intro rest hd
  obtain ⟨ls', hts', hr'⟩ := h' rest hd
  obtain ⟨ls, hts, hr⟩ := h (' ' :: (cs' ++ rest)) (delimited_blank _)
  refine ⟨ls ++ ls', by simp [hts, hts'], ?_⟩
  rw [List.append_assoc, List.cons_append, hr, tokenize_of_blank (by decide), hr']
  cases tokenize rest <;> simp [Except.map]

theorem Spells.parenthesized {ts : List Token} (h : Spells cs ts) :
    Spells ('(' :: cs ++ [')']) (.openParen :: ts ++ [.closeParen]) := by
  intro rest hd
  obtain ⟨last, hlast, hr'⟩ := spells_symbol (c := ')') (t := .closeParen) rfl rest hd
  obtain ⟨ls, hts, hr⟩ := h (')' :: rest) (delimited_closeParen rest)
  refine ⟨⟨.openParen, ['(']⟩ :: ls ++ last, by simp [hts, hlast], ?_⟩
  have ho : Lexeme.read '(' (cs ++ ')' :: rest) = .ok (⟨.openParen, ['(']⟩, cs ++ ')' :: rest) :=
    read_symbol rfl fun hc => absurd hc (by decide)
  rw [List.append_assoc, List.cons_append, List.singleton_append, tokenize_of_read (by decide) ho,
    hr]
  rw [List.singleton_append] at hr'
  rw [hr']
  cases tokenize rest <;> simp [Except.map]

end spelled

end Stepwise
