import Stepwise.Proofs.Breakpoint.Advising

namespace Stepwise

variable {quote : Option Char} {q c : Char} {cs ds front rest : List Char} {op other own : String}

/-- A text that ends outside of literals: characters other than quotes, and whole literals. -/
inductive EndsOutside : List Char → Prop
  | nil : EndsOutside []
  | plain {c : Char} {cs : List Char} (hc : Lexeme.isQuote c = false) (h : EndsOutside cs) :
    EndsOutside (c :: cs)
  | literal {q : Char} {body cs : List Char} (hq : Lexeme.isQuote q) (hb : q ∉ body)
    (h : EndsOutside cs) : EndsOutside (q :: body ++ q :: cs)

/-- The same of a text that starts in a literal with the quote, if there is one. -/
def EndsOutsideFrom : Option Char → List Char → Prop
  | none, cs => EndsOutside cs
  | some q, cs => ∃ body rest, cs = body ++ q :: rest ∧ q ∉ body ∧ EndsOutside rest

/-- The quote of the literal that is open after a character. -/
def quoteAfter : Option Char → Char → Option Char
  | some q, c => if c = q then none else some q
  | none, c => if Lexeme.isQuote c then some c else none

theorem endsOutsideFrom_nil_iff : EndsOutsideFrom quote [] ↔ quote = none := by
  cases quote with
  | none => exact iff_of_true .nil rfl
  | some q =>
    refine iff_of_false ?_ (by simp)
    rintro ⟨body, rest, h, _⟩
    simp at h

theorem endsOutside_cons_iff_of_plain (hc : Lexeme.isQuote c = false) :
    EndsOutside (c :: cs) ↔ EndsOutside cs := by
  refine ⟨fun h => ?_, .plain hc⟩
  cases h with
  | plain _ h => exact h
  | literal hq => exact absurd (hc.symm.trans hq) (by decide)

theorem endsOutside_cons_iff_of_quote (hc : Lexeme.isQuote c = true) :
    EndsOutside (c :: cs) ↔ EndsOutsideFrom (some c) cs := by
  constructor
  · intro h
    cases h with
    | plain hn => exact absurd (hn.symm.trans hc) (by decide)
    | literal _ hb h => exact ⟨_, _, rfl, hb, h⟩
  · rintro ⟨body, rest, rfl, hb, h⟩
    exact .literal hc hb h

theorem endsOutsideFrom_same_iff : EndsOutsideFrom (some q) (q :: cs) ↔ EndsOutside cs := by
  constructor
  · rintro ⟨body, rest, he, hb, h⟩
    cases body with
    | nil =>
      cases he
      exact h
    | cons d body =>
      cases he
      exact absurd List.mem_cons_self hb
  · intro h
    exact ⟨[], cs, rfl, List.not_mem_nil, h⟩

theorem endsOutsideFrom_cons_iff_of_ne (hc : c ≠ q) :
    EndsOutsideFrom (some q) (c :: cs) ↔ EndsOutsideFrom (some q) cs := by
  constructor
  · rintro ⟨body, rest, he, hb, h⟩
    cases body with
    | nil =>
      cases he
      exact absurd rfl hc
    | cons d body =>
      cases he
      exact ⟨body, rest, rfl, fun hm => hb (List.mem_cons_of_mem _ hm), h⟩
  · rintro ⟨body, rest, rfl, hb, h⟩
    exact ⟨c :: body, rest, rfl, by simp [Ne.symm hc, hb], h⟩

/-- One character further the text starts where the character has led. -/
theorem endsOutsideFrom_cons_iff :
    EndsOutsideFrom quote (c :: cs) ↔ EndsOutsideFrom (quoteAfter quote c) cs := by
  cases quote with
  | none =>
    cases hc : Lexeme.isQuote c with
    | false =>
      simp only [quoteAfter, hc]
      exact endsOutside_cons_iff_of_plain hc
    | true =>
      simp only [quoteAfter, hc]
      exact endsOutside_cons_iff_of_quote hc
  | some q =>
    by_cases hc : c = q
    · subst hc
      simp only [quoteAfter, if_true]
      exact endsOutsideFrom_same_iff
    · simp only [quoteAfter, if_neg hc]
      exact endsOutsideFrom_cons_iff_of_ne hc

/-- An operator of another language begins the text. -/
def OperatorBegins (op : String) (cs : List Char) : Prop :=
  op ∈ ["==", "!=", ">=", "<=", ">", "<"] ∧ op.toList <+: cs

/-- No longer operator begins the text. -/
structure OperatorLeads (op : String) (cs : List Char) : Prop where
  begins : OperatorBegins op cs
  longest : ∀ other, OperatorBegins other cs → other.length ≤ op.length

theorem operatorBegins_iff :
    OperatorBegins op cs ↔
      ∃ own, (op, own) ∈ foreignOperators ∧ op.toList.isPrefixOf cs = true := by
  simp only [OperatorBegins, List.isPrefixOf_iff_prefix]
  have hk : op ∈ foreignOperators.map (·.1) ↔ ∃ own, (op, own) ∈ foreignOperators := by simp
  rw [exists_and_right, ← hk]
  rfl

theorem foreignOperator?_eq_none_iff :
    foreignOperator? cs = none ↔ ∀ op, ¬ OperatorBegins op cs := by
  rw [foreignOperator?, List.find?_eq_none]
  constructor
  · intro h op hb
    obtain ⟨own, hm, hp⟩ := operatorBegins_iff.mp hb
    exact h _ hm hp
  · rintro h ⟨op, own⟩ hm hp
    exact h op (operatorBegins_iff.mpr ⟨own, hm, hp⟩)

/-- Of two operators that lead the same text the one is the other. -/
theorem OperatorLeads.unique (h : OperatorLeads op cs) (h' : OperatorLeads other cs) :
    op = other := by
  have hl : op.toList.length = other.toList.length := by
    rw [String.length_toList, String.length_toList]
    exact Nat.le_antisymm (h'.longest op h.begins) (h.longest other h'.begins)
  have hp : op.toList <+: other.toList :=
    List.prefix_of_prefix_length_le h.begins.2 h'.begins.2 (Nat.le_of_eq hl)
  exact String.toList_inj.mp (hp.eq_of_length hl)

theorem operatorLeads_of_found (h : foreignOperator? cs = some (op, own)) :
    OperatorLeads op cs ∧ (op, own) ∈ foreignOperators := by
  have hm : (op, own) ∈ foreignOperators := List.mem_of_find?_eq_some h
  obtain ⟨hp, before, after, he, hbefore⟩ := List.find?_eq_some_iff_append.mp h
  have hsorted : foreignOperators.Pairwise fun a b => b.1.length ≤ a.1.length := by decide
  refine ⟨⟨operatorBegins_iff.mpr ⟨own, hm, hp⟩, fun other hb => ?_⟩, hm⟩
  obtain ⟨own', hm', hp'⟩ := operatorBegins_iff.mp hb
  rw [he] at hm' hsorted
  rcases List.mem_append.mp hm' with hm' | hm'
  · simpa [hp'] using hbefore _ hm'
  · rcases List.mem_cons.mp hm' with heq | hm'
    · cases heq
      exact Nat.le_refl _
    · exact (List.pairwise_cons.mp (List.pairwise_append.mp hsorted).2.1).1 _ hm'

theorem foreignOperator?_eq_some_iff :
    foreignOperator? cs = some (op, own) ↔ OperatorLeads op cs ∧ (op, own) ∈ foreignOperators := by
  refine ⟨operatorLeads_of_found, fun ⟨h, hm⟩ => ?_⟩
  cases hf : foreignOperator? cs with
  | none => exact absurd h.begins (foreignOperator?_eq_none_iff.mp hf op)
  | some found =>
    obtain ⟨h', hm'⟩ := operatorLeads_of_found hf
    have hkeys : ∀ a ∈ foreignOperators, ∀ b ∈ foreignOperators, a.1 = b.1 → a = b := by decide
    exact congrArg some (hkeys _ hm' _ hm (h'.unique h))

/-- An operator is found at once if one begins outside of literals, and else after the character. -/
theorem findForeign_cons (quote : Option Char) (c : Char) (cs : List Char) :
    findForeign quote (c :: cs) =
      (if quote = none then foreignOperator? (c :: cs) else none).or
        (findForeign (quoteAfter quote c) cs) := by
  cases quote with
  | some q => simp [findForeign, quoteAfter]
  | none =>
    by_cases hc : c = '\x27' ∨ c = '\x22'
    · have hq : Lexeme.isQuote c = true := by simpa [Lexeme.isQuote] using hc
      have hnone : foreignOperator? (c :: cs) = none := by
        rcases hc with rfl | rfl <;> simp [foreignOperator?, foreignOperators]
      simp [findForeign, quoteAfter, hc, hq, hnone]
    · have hq : Lexeme.isQuote c = false := by simpa [Lexeme.isQuote] using hc
      simp only [findForeign, if_neg hc, quoteAfter, hq]
      cases foreignOperator? (c :: cs) <;> simp

/-- The leftmost position outside of literals at which an operator begins.  With a quote, the text
starts in a literal that has it. -/
structure FirstOperator (quote : Option Char) (cs front rest : List Char) : Prop where
  split : cs = front ++ rest
  outside : EndsOutsideFrom quote front
  begins : ∃ op, OperatorBegins op rest
  leftmost : ∀ front' rest', cs = front' ++ rest' → EndsOutsideFrom quote front' →
    (∃ op, OperatorBegins op rest') → front.length ≤ front'.length

theorem FirstOperator.unique {front' rest' : List Char} (h : FirstOperator quote cs front rest)
    (h' : FirstOperator quote cs front' rest') : front = front' ∧ rest = rest' := by
  have hl : front.length = front'.length :=
    Nat.le_antisymm (h.leftmost _ _ h'.split h'.outside h'.begins)
      (h'.leftmost _ _ h.split h.outside h.begins)
  exact List.append_inj (h.split.symm.trans h'.split) hl

theorem not_begins_of_not_found (h : findForeign quote cs = none) (hcs : cs = front ++ rest)
    (ho : EndsOutsideFrom quote front) : ∀ op, ¬ OperatorBegins op rest := by
  induction cs generalizing quote front with
  | nil =>
    obtain ⟨-, rfl⟩ := List.append_eq_nil_iff.mp hcs.symm
    exact foreignOperator?_eq_none_iff.mp rfl
  | cons c cs ih =>
    rw [findForeign_cons, Option.or_eq_none_iff] at h
    cases front with
    | nil =>
      obtain rfl := endsOutsideFrom_nil_iff.mp ho
      rw [List.nil_append] at hcs
      rw [← hcs]
      exact foreignOperator?_eq_none_iff.mp h.1
    | cons d front =>
      obtain ⟨rfl, htail⟩ := List.cons.inj hcs
      exact ih h.2 htail (endsOutsideFrom_cons_iff.mp ho)

theorem exists_firstOperator (h : findForeign quote cs = some (op, own)) :
    ∃ front rest, FirstOperator quote cs front rest ∧ OperatorLeads op rest ∧
      (op, own) ∈ foreignOperators := by
  induction cs generalizing quote with
  | nil => cases quote <;> cases h
  | cons c cs ih =>
    rw [findForeign_cons, Option.or_eq_some_iff] at h
    rcases h with hhere | ⟨hhere, hlater⟩
    · obtain ⟨rfl, hhere⟩ := Option.ite_none_right_eq_some.mp hhere
      obtain ⟨hleads, hm⟩ := foreignOperator?_eq_some_iff.mp hhere
      have hfirst : FirstOperator none (c :: cs) [] (c :: cs) :=
        ⟨rfl, .nil, ⟨op, hleads.begins⟩, fun _ _ _ _ _ => Nat.zero_le _⟩
      exact ⟨[], c :: cs, hfirst, hleads, hm⟩
    · obtain ⟨front, rest, ⟨hcs, ho, hb, hleft⟩, hleads⟩ := ih hlater
      refine ⟨c :: front, rest, ⟨congrArg (c :: ·) hcs, endsOutsideFrom_cons_iff.mpr ho, hb, ?_⟩,
        hleads⟩
      intro front' rest' hcs' ho' hb'
      cases front' with
      | nil =>
        -- outside of literals the operator would have been found here
        obtain rfl := endsOutsideFrom_nil_iff.mp ho'
        rw [List.nil_append] at hcs'
        obtain ⟨op', hb'⟩ := hb'
        rw [← hcs'] at hb'
        exact absurd hb' (foreignOperator?_eq_none_iff.mp hhere op')
      | cons d front' =>
        obtain ⟨rfl, htail⟩ := List.cons.inj hcs'
        exact Nat.succ_le_succ (hleft front' rest' htail (endsOutsideFrom_cons_iff.mp ho') hb')

theorem findForeign_eq_some_iff :
    findForeign quote cs = some (op, own) ↔
      ∃ front rest, FirstOperator quote cs front rest ∧ OperatorLeads op rest ∧
        (op, own) ∈ foreignOperators := by
  refine ⟨exists_firstOperator, fun ⟨front, rest, hfirst, hleads, hm⟩ => ?_⟩
  cases hf : findForeign quote cs with
  | none =>
    exact absurd hleads.begins (not_begins_of_not_found hf hfirst.split hfirst.outside op)
  | some found =>
    obtain ⟨front', rest', hfirst', h'⟩ := exists_firstOperator hf
    obtain ⟨rfl, rfl⟩ := hfirst.unique hfirst'
    exact (foreignOperator?_eq_some_iff.mpr h').symm.trans
      (foreignOperator?_eq_some_iff.mpr ⟨hleads, hm⟩)

theorem findForeign_eq_none_iff :
    findForeign quote cs = none ↔
      ∀ front rest, cs = front ++ rest → EndsOutsideFrom quote front →
        ∀ op, ¬ OperatorBegins op rest := by
  refine ⟨fun h front rest hcs ho => not_begins_of_not_found h hcs ho, fun h => ?_⟩
  cases hf : findForeign quote cs with
  | none => rfl
  | some found =>
    obtain ⟨front, rest, hfirst, hleads, _⟩ := exists_firstOperator hf
    exact absurd hleads.begins (h front rest hfirst.split hfirst.outside _)

/-- The texts differ in nothing but what is in their literals, which has none of the quotes that
would end them. -/
inductive DifferWithin : List Char → List Char → Prop
  | nil : DifferWithin [] []
  | plain {c : Char} {cs ds : List Char} (hc : Lexeme.isQuote c = false)
    (h : DifferWithin cs ds) : DifferWithin (c :: cs) (c :: ds)
  | literal {q : Char} {body other cs ds : List Char} (hq : Lexeme.isQuote q) (hb : q ∉ body)
    (ho : q ∉ other) (h : DifferWithin cs ds) :
    DifferWithin (q :: body ++ q :: cs) (q :: other ++ q :: ds)
  | unclosed {q : Char} {body other : List Char} (hq : Lexeme.isQuote q) (hb : q ∉ body)
    (ho : q ∉ other) : DifferWithin (q :: body) (q :: other)

theorem DifferWithin.head?_eq (h : DifferWithin cs ds) : cs.head? = ds.head? := by
  cases h <;> rfl

/-- An operator has at most two characters. -/
theorem foreignOperator?_congr (h : cs.head? = ds.head?) :
    foreignOperator? (c :: cs) = foreignOperator? (c :: ds) := by
  match cs, ds, h with
  | [], [], _ => rfl
  | d :: cs, _ :: ds, h =>
    obtain rfl := Option.some.inj h
    rfl

theorem findForeign_of_unclosed (h : q ∉ cs) : findForeign (some q) cs = none := by
  induction cs with
  | nil => rfl
  | cons c cs ih =>
    rw [List.mem_cons, not_or] at h
    rw [findForeign, if_neg (Ne.symm h.1), ih h.2]

theorem DifferWithin.findForeign_eq (h : DifferWithin cs ds) :
    findForeign none ds = findForeign none cs := by
  induction h with
  | nil => rfl
  | plain hc h ih =>
    rw [findForeign_cons, findForeign_cons, foreignOperator?_congr h.head?_eq]
    simp only [quoteAfter, hc, Bool.false_eq_true, if_false, ih]
  | literal hq hb ho _ ih =>
    rw [List.cons_append, List.cons_append, findForeign_of_quote hq, findForeign_of_quote hq,
      findForeign_within hb, findForeign_within ho, ih]
  | unclosed hq hb ho =>
    rw [findForeign_of_quote hq, findForeign_of_quote hq, findForeign_of_unclosed hb,
      findForeign_of_unclosed ho]

/-- Advice is given for the leftmost position outside of literals at which an operator begins, and
names the longest operator there; there is none exactly if there is no such position.  What is in
the literals makes no difference. -/
theorem hint_names_first_operator (condition : String) :
    (∀ hint, operatorHint condition = some hint ↔
      ∃ front rest op own, FirstOperator none condition.toList front rest ∧
        OperatorLeads op rest ∧ (op, own) ∈ foreignOperators ∧
        hint = "Use '" ++ own ++ "' instead of '" ++ op ++ "'.") ∧
      (operatorHint condition = none ↔
        ∀ front rest, condition.toList = front ++ rest → EndsOutside front →
          ∀ op, ¬ OperatorBegins op rest) ∧
      ∀ other : String, DifferWithin condition.toList other.toList →
        operatorHint other = operatorHint condition := by
  refine ⟨fun hint => ?_, ?_, fun other h => ?_⟩
  · rw [operatorHint, Option.map_eq_some_iff]
    constructor
    · rintro ⟨⟨op, own⟩, hf, rfl⟩
      obtain ⟨front, rest, hfirst, hleads, hm⟩ := findForeign_eq_some_iff.mp hf
      exact ⟨front, rest, op, own, hfirst, hleads, hm, rfl⟩
    · rintro ⟨front, rest, op, own, hfirst, hleads, hm, rfl⟩
      exact ⟨(op, own), findForeign_eq_some_iff.mpr ⟨front, rest, hfirst, hleads, hm⟩, rfl⟩
  · rw [operatorHint, Option.map_eq_none_iff]
    exact findForeign_eq_none_iff
  · rw [operatorHint, h.findForeign_eq, operatorHint]

/-- A quote of the other kind does not end a literal, and the operator in it is passed over. -/
theorem hint_passes_literal :
    DifferWithin "'\x22 < ' >= 2".toList "'==' >= 2".toList ∧
      operatorHint "'\x22 < ' >= 2" = some "Use '-ge' instead of '>='." ∧
      operatorHint "'==' >= 2" = some "Use '-ge' instead of '>='." := by
  have hd : DifferWithin "'\x22 < ' >= 2".toList "'==' >= 2".toList := by
    have hrest : DifferWithin [' ', '>', '=', ' ', '2'] [' ', '>', '=', ' ', '2'] :=
      .plain (by decide) <| .plain (by decide) <| .plain (by decide) <| .plain (by decide) <|
        .plain (by decide) .nil
    have hbody : '\x27' ∉ ['\x22', ' ', '<', ' '] := by decide
    have hother : '\x27' ∉ ['=', '='] := by decide
    exact .literal rfl hbody hother hrest
  have h : operatorHint "'\x22 < ' >= 2" = some "Use '-ge' instead of '>='." := by decide
  exact ⟨hd, h, ((hint_names_first_operator _).2.2 _ hd).trans h⟩

end Stepwise
