import Stepwise.Proofs.Expression.Grammar
import Stepwise.Proofs.Expression.Spelling

namespace Stepwise

namespace Expr

/-- There is a text for the expression. -/
def Writable : Expr → Prop
  | .int n => 0 ≤ n
  | .str s => IsQuotable s
  | .var name => IsVariableName name
  | .negate e | .not e => e.Writable
  | .cast type e => IsTypeName type ∧ e.Writable
  | .binary _ left right => left.Writable ∧ right.Writable

/-- The tokens of the expression, each operation in parentheses. -/
def tokens : Expr → List Token
  | .int n => [.int n]
  | .str s => [.str s]
  | .var name => [.var name]
  | .negate e => .openParen :: (.op .sub :: e.tokens) ++ [.closeParen]
  | .not e => .openParen :: (.not :: e.tokens) ++ [.closeParen]
  | .cast type e => .openParen :: (.type type :: e.tokens) ++ [.closeParen]
  | .binary op left right =>
    .openParen :: (left.tokens ++ .op op :: right.tokens) ++ [.closeParen]

/-- The characters of the expression, a blank on either side of an operator and after a prefix. -/
def characters (preferred : Quote) : Expr → List Char
  | .int n => (Token.int n).spell preferred
  | .str s => (Token.str s).spell preferred
  | .var name => (Token.var name).spell preferred
  | .negate e =>
    '(' :: ((Token.op .sub).spell preferred ++ ' ' :: e.characters preferred) ++ [')']
  | .not e => '(' :: (Token.not.spell preferred ++ ' ' :: e.characters preferred) ++ [')']
  | .cast type e =>
    '(' :: ((Token.type type).spell preferred ++ ' ' :: e.characters preferred) ++ [')']
  | .binary op left right =>
    '(' :: (left.characters preferred ++ ' ' ::
      ((Token.op op).spell preferred ++ ' ' :: right.characters preferred)) ++ [')']

def print (preferred : Quote) (e : Expr) : String :=
  String.ofList (e.characters preferred)

end Expr

section derived
variable {ts us : List Token} {e left right : Expr}

theorem Derives.loosen {level tighter : Level} {ops : List BinaryOp}
    (hj : level.joined = some (ops, tighter)) (h : Derives tighter ts e) : Derives level ts e := by
  simpa using Derives.joined [] hj h (by simp) (by simp)

theorem Derives.of_unary (h : Derives .unary ts e) (level : Level) : Derives level ts e := by
  have hm : Derives .multiplicative ts e := h.loosen rfl
  have ha : Derives .additive ts e := hm.loosen rfl
  have hc : Derives .comparison ts e := ha.loosen rfl
  cases level with
  | logical => exact hc.loosen rfl
  | comparison => exact hc
  | additive => exact ha
  | multiplicative => exact hm
  | unary => exact h

theorem Derives.logical {level : Level} (h : Derives level ts e) : Derives .logical ts e := by
  have of_comparison (h : Derives .comparison ts e) : Derives .logical ts e := h.loosen rfl
  have of_additive (h : Derives .additive ts e) : Derives .logical ts e :=
    of_comparison (h.loosen rfl)
  cases level with
  | logical => exact h
  | comparison => exact of_comparison h
  | additive => exact of_additive h
  | multiplicative => exact of_additive (h.loosen rfl)
  | unary => exact h.of_unary .logical

/-- Every operator joins the operands of some level. -/
theorem exists_level (op : BinaryOp) :
    ∃ level tighter ops, Level.joined level = some (ops, tighter) ∧ op ∈ ops := by
  cases op
  case and | or => exact ⟨.logical, _, _, rfl, by decide⟩
  case add | sub => exact ⟨.additive, _, _, rfl, by decide⟩
  case mul | div | mod => exact ⟨.multiplicative, _, _, rfl, by decide⟩
  all_goals exact ⟨.comparison, _, _, rfl, by decide⟩

theorem Derives.binary (op : BinaryOp) (hl : Derives .unary ts left)
    (hr : Derives .unary us right) :
    Derives .logical (ts ++ .op op :: us) (.binary op left right) := by
  obtain ⟨level, tighter, ops, hj, hop⟩ := exists_level op
  have h := Derives.joined [⟨op, us, right⟩] hj (hl.of_unary tighter) (by simpa using hop)
    (by simpa using hr.of_unary tighter)
  simpa using h.logical

theorem derives_tokens (e : Expr) : Derives .unary e.tokens e := by
  induction e with
  | int n => exact .int n
  | str s => exact .str s
  | var name => exact .var name
  | negate e ih => exact .parenthesized ih.negate.logical
  | not e ih => exact .parenthesized ih.not.logical
  | cast type e ih => exact .parenthesized (ih.cast type).logical
  | binary op left right ihl ihr => exact .parenthesized (.binary op ihl ihr)

end derived

theorem writable_join {first : Expr} {joints : List Joint} (h : first.Writable)
    (hs : ∀ j ∈ joints, j.operand.Writable) : (Joint.join first joints).Writable := by
  induction joints generalizing first with
  | nil => exact h
  | cons j joints ih =>
    obtain ⟨hj, hs⟩ := List.forall_mem_cons.mp hs
    exact ih ⟨h, hj⟩ hs

theorem mem_spell {joints : List Joint} {j : Joint} (h : j ∈ joints) {t : Token}
    (ht : t ∈ j.tokens) : t ∈ Joint.spell joints :=
  List.mem_flatMap.mpr ⟨j, h, List.mem_cons_of_mem _ ht⟩

theorem writable_of_derives {level : Level} {ts : List Token} {e : Expr} (h : Derives level ts e)
    (hs : ∀ t ∈ ts, t.Spellable) : e.Writable := by
  induction h with
  | joined joints _ _ _ _ ih ihs =>
    rw [List.forall_mem_append] at hs
    exact writable_join (ih hs.1) fun j hj => ihs j hj fun t ht => hs.2 t (mem_spell hj ht)
  | negate _ ih | not _ ih => exact ih (List.forall_mem_cons.mp hs).2
  | cast _ _ ih =>
    obtain ⟨ht, hs⟩ := List.forall_mem_cons.mp hs
    exact ⟨ht, ih hs⟩
  | int | str | var => exact hs _ List.mem_cons_self
  | parenthesized _ ih => exact ih fun t ht => hs t (by simp [ht])

theorem writable_of_parse {source : String} {e : Expr} (h : Expr.parse source = .ok e) :
    e.Writable := by
  unfold Expr.parse at h
  cases hls : tokenize source.toList with
  | error => simp [hls, Except.bind] at h
  | ok ls =>
    rw [hls] at h
    refine writable_of_derives (Expr.ofLexemes_eq_ok_iff_derives.mp h) fun t ht => ?_
    obtain ⟨l, hl, rfl⟩ := List.mem_map.mp ht
    exact spellable_of_tokenize hls l hl

theorem spells_characters (preferred : Quote) {e : Expr} (h : e.Writable) :
    Spells (e.characters preferred) e.tokens := by
  have prefixed {t : Token} {e : Expr} (ht : t.Spellable)
      (he : Spells (e.characters preferred) e.tokens) :=
    ((spells_token preferred ht).append_blank he).parenthesized
  induction e with
  | int n => exact spells_token preferred (t := .int n) h
  | str s => exact spells_token preferred (t := .str s) h
  | var name => exact spells_token preferred (t := .var name) h
  | negate e ih => exact prefixed trivial (ih h)
  | not e ih => exact prefixed trivial (ih h)
  | cast type e ih => exact prefixed (t := .type type) h.1 (ih h.2)
  | binary op left right ihl ihr =>
    have hop := spells_token preferred (t := .op op) trivial
    exact ((ihl h.1).append_blank (hop.append_blank (ihr h.2))).parenthesized

/-- A text that is read as the tokens of an expression is parsed as that expression. -/
theorem Expr.parse_of_spells {cs : List Char} {ts : List Token} {level : Level} {e : Expr}
    (hs : Spells cs ts) (hd : Derives level ts e) : Expr.parse (String.ofList cs) = .ok e := by
  obtain ⟨ls, hts, hr⟩ := hs [] delimited_nil
  have ht : tokenize cs = .ok ls := by
    simpa [tokenize, Except.map] using hr
  rw [Expr.parse, String.toList_ofList, ht]
  exact Expr.ofLexemes_eq_ok_iff_derives.mpr (hts ▸ hd.logical)

theorem parse_print_of_writable (preferred : Quote) {e : Expr} (h : e.Writable) :
    Expr.parse (e.print preferred) = .ok e :=
  Expr.parse_of_spells (spells_characters preferred h) (derives_tokens e)

/-- The writable expressions are those the parser gives, and it gives each for the text that it is
written as, whichever quotes are preferred. -/
theorem parse_print (preferred : Quote) (e : Expr) :
    ((∃ source, Expr.parse source = .ok e) ↔ e.Writable) ∧
    (Expr.parse (e.print preferred) = .ok e ↔ e.Writable) :=
  ⟨⟨fun ⟨_, h⟩ => writable_of_parse h, fun h => ⟨_, parse_print_of_writable preferred h⟩⟩,
    writable_of_parse, parse_print_of_writable preferred⟩

example : Expr.print .single (.binary .sub (.int 1) (.negate (.str "a'b"))) =
    "(1 - (- \x22a'b\x22))" := by
  rfl

end Stepwise
