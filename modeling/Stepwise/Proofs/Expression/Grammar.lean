import Stepwise.Expression.Parser
import Stepwise.Value.Error

namespace Stepwise

/-- The levels of the grammar, the loosest first. -/
inductive Level where
  | logical | comparison | additive | multiplicative | unary

/-- The operators that join the operands of a level, and the level of those operands. -/
def Level.joined : Level → Option (List BinaryOp × Level)
  | .logical => some ([.and, .or], .comparison)
  | .comparison => some ([.eq, .ne, .gt, .ge, .lt, .le], .additive)
  | .additive => some ([.add, .sub], .multiplicative)
  | .multiplicative => some ([.mul, .div, .mod], .unary)
  | .unary => none

/-- An operator and the operand after it, the operand with its tokens. -/
structure Joint where
  op : BinaryOp
  tokens : List Token
  operand : Expr

namespace Joint

def spell (joints : List Joint) : List Token :=
  joints.flatMap fun j => .op j.op :: j.tokens

/-- The operands joined from the left. -/
def join (first : Expr) (joints : List Joint) : Expr :=
  joints.foldl (fun left j => .binary j.op left j.operand) first

@[simp] theorem spell_nil : spell [] = [] := rfl

@[simp] theorem spell_cons (j : Joint) (js : List Joint) :
    spell (j :: js) = .op j.op :: (j.tokens ++ spell js) := rfl

@[simp] theorem join_nil (first : Expr) : join first [] = first := rfl

@[simp] theorem join_cons (first : Expr) (j : Joint) (js : List Joint) :
    join first (j :: js) = join (.binary j.op first j.operand) js := rfl

end Joint

/-- The tokens make up an expression of the level, and it is this one. -/
inductive Derives : Level → List Token → Expr → Prop
  | joined {level tighter : Level} {ops : List BinaryOp} {ts : List Token} {first : Expr}
      (joints : List Joint) :
      level.joined = some (ops, tighter) → Derives tighter ts first →
      (∀ j ∈ joints, j.op ∈ ops) → (∀ j ∈ joints, Derives tighter j.tokens j.operand) →
      Derives level (ts ++ Joint.spell joints) (Joint.join first joints)
  | negate {ts : List Token} {e : Expr} :
      Derives .unary ts e → Derives .unary (.op .sub :: ts) (.negate e)
  | not {ts : List Token} {e : Expr} :
      Derives .unary ts e → Derives .unary (.not :: ts) (.not e)
  | cast {ts : List Token} {e : Expr} (type : String) :
      Derives .unary ts e → Derives .unary (.type type :: ts) (.cast type e)
  | int (n : Int64) : Derives .unary [.int n] (.int n)
  | str (s : String) : Derives .unary [.str s] (.str s)
  | var (name : String) : Derives .unary [.var name] (.var name)
  | parenthesized {ts : List Token} {e : Expr} :
      Derives .logical ts e → Derives .unary (.openParen :: ts ++ [.closeParen]) e

namespace Level

/-- The tiers of operators that an expression of the level may have outside parentheses. -/
def tiers : Level → List (List BinaryOp)
  | .logical => BinaryOp.tiers
  | .comparison => BinaryOp.tiers.drop 1
  | .additive => BinaryOp.tiers.drop 2
  | .multiplicative => BinaryOp.tiers.drop 3
  | .unary => []

theorem tiers_of_joined {level tighter : Level} {ops : List BinaryOp}
    (h : level.joined = some (ops, tighter)) : level.tiers = ops :: tighter.tiers := by
  cases level <;> cases h <;> rfl

theorem joined_of_tiers {level : Level} {ops : List BinaryOp} {tail : List (List BinaryOp)}
    (h : level.tiers = ops :: tail) :
    ∃ tighter, level.joined = some (ops, tighter) ∧ tighter.tiers = tail := by
  cases level <;> cases h <;> exact ⟨_, rfl, rfl⟩

theorem eq_unary_of_tiers {level : Level} (h : level.tiers = []) : level = .unary := by
  cases level <;> first | rfl | cases h

/-- No operator belongs to two levels. -/
theorem not_mem_tighter {level tighter : Level} {ops : List BinaryOp} {op : BinaryOp}
    (h : level.joined = some (ops, tighter)) (hop : op ∈ ops) : op ∉ tighter.tiers.flatten := by
  cases level <;> cases h <;> revert op <;> decide

end Level

namespace Expr

/-- The parser reads the expression from the front of the lexemes and leaves the rest. -/
def Reads (tiers : List (List BinaryOp)) (ls : List Lexeme) (e : Expr) (rest : List Lexeme) :
    Prop :=
  ∃ h, parseTier tiers ls = .ok (e, ⟨rest, h⟩)

/-- The parser makes the expression of the left operand and of what follows it. -/
def Chains (ops : List BinaryOp) (tighter : List (List BinaryOp)) (left : Expr)
    (ls : List Lexeme) (e : Expr) (rest : List Lexeme) : Prop :=
  ∃ h, parseChain ops tighter left ls = .ok (e, ⟨rest, h⟩)

/-- The parser reads the operand from the front of the lexemes and leaves the rest. -/
def ReadsOperand (ls : List Lexeme) (e : Expr) (rest : List Lexeme) : Prop :=
  ∃ h, parseUnary ls = .ok (e, ⟨rest, h⟩)

section reading
variable {ops : List BinaryOp} {tighter tiers : List (List BinaryOp)} {left e : Expr}
  {l : Lexeme} {ls rest : List Lexeme}

theorem Reads.length_lt (h : Reads tiers ls e rest) : rest.length < ls.length := h.1

theorem ReadsOperand.length_lt (h : ReadsOperand ls e rest) : rest.length < ls.length := h.1

theorem needOperand_of_lt (h : rest.length < ls.length) : needOperand l ls = .ok () :=
  if_neg (List.ne_nil_of_length_pos (Nat.zero_lt_of_lt h))

theorem reads_nil_iff : Reads [] ls e rest ↔ ReadsOperand ls e rest := by
  simp only [Reads, ReadsOperand, parseTier]

theorem reads_cons_iff : Reads (ops :: tighter) ls e rest ↔
    ∃ left mid, Reads tighter ls left mid ∧ Chains ops tighter left mid e rest := by
  constructor
  · rintro ⟨h, heq⟩
    rw [parseTier] at heq
    split at heq
    · cases heq
    · next left mid hl =>
      split at heq
      · cases heq
      · next hc =>
        cases heq
        exact ⟨left, mid.1, ⟨mid.2, hl⟩, _, hc⟩
  · rintro ⟨left, mid, ⟨h, hl⟩, h', hc⟩
    refine ⟨Nat.lt_of_le_of_lt h' h, ?_⟩
    rw [parseTier, hl]
    simp only [hc]

theorem chains_nil_iff : Chains ops tighter left [] e rest ↔ e = left ∧ rest = [] := by
  rw [Chains, parseChain]
  constructor
  · rintro ⟨_, h⟩
    cases h
    exact ⟨rfl, rfl⟩
  · rintro ⟨rfl, rfl⟩
    exact ⟨Nat.le_refl _, rfl⟩

theorem chains_of_none (h : operator? ops l = none) :
    Chains ops tighter left (l :: ls) e rest ↔ e = left ∧ rest = l :: ls := by
  rw [Chains, parseChain]
  constructor
  · rintro ⟨_, heq⟩
    rw [h] at heq
    cases heq
    exact ⟨rfl, rfl⟩
  · rintro ⟨rfl, rfl⟩
    exact ⟨Nat.le_refl _, by rw [h]⟩

theorem chains_of_some {op : BinaryOp} (h : operator? ops l = some op) :
    Chains ops tighter left (l :: ls) e rest ↔
      ∃ right mid, Reads tighter ls right mid ∧
        Chains ops tighter (.binary op left right) mid e rest := by
  constructor
  · rintro ⟨_, heq⟩
    rw [parseChain] at heq
    simp only [h] at heq
    split at heq
    · cases heq
    · split at heq
      · cases heq
      · next right mid hr =>
        split at heq
        · cases heq
        · next hc =>
          cases heq
          exact ⟨right, mid.1, ⟨mid.2, hr⟩, _, hc⟩
  · rintro ⟨right, mid, ⟨hlt, hr⟩, hle, hc⟩
    refine ⟨Nat.le_succ_of_le (Nat.le_of_lt (Nat.lt_of_le_of_lt hle hlt)), ?_⟩
    rw [parseChain]
    simp only [h, needOperand_of_lt hlt, hr, hc]

theorem not_readsOperand_nil : ¬ ReadsOperand [] e rest :=
  fun h => absurd h.length_lt (Nat.not_lt_zero _)

theorem readsOperand_of_atom {a : Expr} (h : l.token.atom? = some a) :
    ReadsOperand (l :: ls) e rest ↔ e = a ∧ rest = ls := by
  rw [ReadsOperand, parseUnary]
  simp only [h]
  constructor
  · rintro ⟨_, heq⟩
    cases heq
    exact ⟨rfl, rfl⟩
  · rintro ⟨rfl, rfl⟩
    exact ⟨Nat.lt_succ_self _, rfl⟩

theorem readsOperand_of_wrapper {wrap : Expr → Expr} (ha : l.token.atom? = none)
    (h : l.token.wrapper? = some wrap) :
    ReadsOperand (l :: ls) e rest ↔ ∃ operand, ReadsOperand ls operand rest ∧ e = wrap operand := by
  constructor
  · rintro ⟨_, heq⟩
    rw [parseUnary] at heq
    simp only [ha, h] at heq
    split at heq
    · cases heq
    · split at heq
      · cases heq
      · next operand after ho =>
        cases heq
        exact ⟨operand, ⟨after.2, ho⟩, rfl⟩
  · rintro ⟨operand, ⟨hlt, ho⟩, rfl⟩
    refine ⟨Nat.lt_succ_of_lt hlt, ?_⟩
    rw [parseUnary]
    simp only [ha, h, needOperand_of_lt hlt, ho]

theorem readsOperand_of_openParen (h : l.token = .openParen) :
    ReadsOperand (l :: ls) e rest ↔
      ∃ closing : Lexeme, closing.token = .closeParen ∧
        Reads BinaryOp.tiers ls e (closing :: rest) := by
  have ha : l.token.atom? = none := by rw [h]; rfl
  have hw : l.token.wrapper? = none := by rw [h]; rfl
  constructor
  · rintro ⟨_, heq⟩
    rw [parseUnary] at heq
    simp only [ha, hw, if_pos h] at heq
    split at heq
    · cases heq
    · next closing after hlt ht =>
      split at heq
      · next hc =>
        cases heq
        exact ⟨closing, hc, hlt, ht⟩
      · cases heq
    · cases heq
  · rintro ⟨closing, hc, hlt, ht⟩
    refine ⟨Nat.lt_succ_of_lt (Nat.lt_of_succ_lt hlt), ?_⟩
    rw [parseUnary]
    simp only [ha, hw, if_pos h, ht, if_pos hc]

theorem not_readsOperand (ha : l.token.atom? = none) (hw : l.token.wrapper? = none)
    (hp : l.token ≠ .openParen) : ¬ ReadsOperand (l :: ls) e rest := by
  rintro ⟨_, heq⟩
  rw [parseUnary] at heq
  simp only [ha, hw, if_neg hp, reduceCtorEq] at heq

end reading

/-- The lexemes start with an expression of the level and go on with the rest. -/
def Consumes (level : Level) (ls : List Lexeme) (e : Expr) (rest : List Lexeme) : Prop :=
  ∃ used, ls = used ++ rest ∧ Derives level (used.map (·.token)) e

section soundness
variable {n : Nat}

theorem consumes_of_readsOperand
    (ih : ∀ ls e rest, ls.length < n → ∀ level : Level, Reads level.tiers ls e rest →
      Consumes level ls e rest) {ls rest : List Lexeme} {e : Expr} (hn : ls.length ≤ n)
    (h : ReadsOperand ls e rest) : Consumes .unary ls e rest := by
  match ls with
  | [] => exact absurd h not_readsOperand_nil
  | l :: ls =>
    obtain ⟨token, text⟩ := l
    have behind {wrap : Expr → Expr} (ha : token.atom? = none) (hw : token.wrapper? = some wrap) :
        ∃ operand, Consumes .unary ls operand rest ∧ e = wrap operand := by
      obtain ⟨operand, ho, rfl⟩ := (readsOperand_of_wrapper ha hw).mp h
      exact ⟨operand, ih ls operand rest hn .unary (reads_nil_iff.mpr ho), rfl⟩
    match token with
    | .int n =>
      obtain ⟨rfl, rfl⟩ := (readsOperand_of_atom rfl).mp h
      exact ⟨[_], rfl, .int n⟩
    | .str s =>
      obtain ⟨rfl, rfl⟩ := (readsOperand_of_atom rfl).mp h
      exact ⟨[_], rfl, .str s⟩
    | .var name =>
      obtain ⟨rfl, rfl⟩ := (readsOperand_of_atom rfl).mp h
      exact ⟨[_], rfl, .var name⟩
    | .op .sub =>
      obtain ⟨_, ⟨used, rfl, hd⟩, rfl⟩ := behind rfl rfl
      exact ⟨_ :: used, rfl, .negate hd⟩
    | .not =>
      obtain ⟨_, ⟨used, rfl, hd⟩, rfl⟩ := behind rfl rfl
      exact ⟨_ :: used, rfl, .not hd⟩
    | .type type =>
      obtain ⟨_, ⟨used, rfl, hd⟩, rfl⟩ := behind rfl rfl
      exact ⟨_ :: used, rfl, .cast type hd⟩
    | .openParen =>
      obtain ⟨⟨closing, text'⟩, rfl, ht⟩ := (readsOperand_of_openParen rfl).mp h
      obtain ⟨used, rfl, hd⟩ := ih ls e _ hn .logical ht
      refine ⟨⟨.openParen, text⟩ :: used ++ [⟨.closeParen, text'⟩], by simp, ?_⟩
      simpa using Derives.parenthesized hd
    | .closeParen => exact absurd h (not_readsOperand rfl rfl (by simp))
    | .op .add | .op .mul | .op .div | .op .mod | .op .eq | .op .ne | .op .gt | .op .ge | .op .lt
    | .op .le | .op .and | .op .or => exact absurd h (not_readsOperand rfl rfl (by simp))

theorem token_of_operator? {ops : List BinaryOp} {l : Lexeme} {op : BinaryOp}
    (h : operator? ops l = some op) : l.token = .op op ∧ op ∈ ops := by
  unfold operator? at h
  split at h
  · next op' ht =>
    obtain ⟨hm, he⟩ := Option.ite_none_right_eq_some.mp h
    cases he
    exact ⟨ht, hm⟩
  · cases h

theorem operator?_of_token {ops : List BinaryOp} {l : Lexeme} {op : BinaryOp}
    (ht : l.token = .op op) (hm : op ∈ ops) : operator? ops l = some op := by
  simp only [operator?, ht, if_pos hm]

/-- A chain consumes joints of its level, each of which was read from fewer lexemes. -/
theorem joints_of_chains {level : Level} {ops : List BinaryOp}
    (ih : ∀ ls e rest, ls.length < n → Reads level.tiers ls e rest → Consumes level ls e rest)
    {ls rest : List Lexeme} {left e : Expr} (hn : ls.length ≤ n)
    (h : Chains ops level.tiers left ls e rest) :
    ∃ used joints, ls = used ++ rest ∧ used.map (·.token) = Joint.spell joints ∧
      e = Joint.join left joints ∧ (∀ j ∈ joints, j.op ∈ ops) ∧
      ∀ j ∈ joints, Derives level j.tokens j.operand := by
  induction hk : ls.length using Nat.strongRecOn generalizing ls left with
  | ind k hrec =>
    subst hk
    match ls with
    | [] =>
      obtain ⟨rfl, rfl⟩ := chains_nil_iff.mp h
      exact ⟨[], [], rfl, rfl, rfl, by simp, by simp⟩
    | l :: ls =>
      cases hop : operator? ops l with
      | none =>
        obtain ⟨rfl, rfl⟩ := (chains_of_none hop).mp h
        exact ⟨[], [], rfl, rfl, rfl, by simp, by simp⟩
      | some op =>
        obtain ⟨ht, hm⟩ := token_of_operator? hop
        obtain ⟨right, mid, hr, hc⟩ := (chains_of_some hop).mp h
        have hlt := Nat.lt_succ_of_lt hr.length_lt
        obtain ⟨used, joints, rfl, hs, rfl, hops, hds⟩ :=
          hrec mid.length hlt (Nat.le_trans (Nat.le_of_lt hlt) hn) hc rfl
        obtain ⟨operand, rfl, hd⟩ := ih ls right _ hn hr
        refine ⟨l :: operand ++ used, ⟨op, operand.map (·.token), right⟩ :: joints, by simp, ?_,
          rfl, List.forall_mem_cons.mpr ⟨hm, hops⟩, List.forall_mem_cons.mpr ⟨hd, hds⟩⟩
        simp [ht, hs]

theorem consumes_of_tier
    (ih : ∀ ls e rest, ls.length < n → ∀ level : Level, Reads level.tiers ls e rest →
      Consumes level ls e rest) {tiers : List (List BinaryOp)} {level : Level}
    (hl : level.tiers = tiers) {ls rest : List Lexeme} {e : Expr} (hn : ls.length ≤ n)
    (h : Reads tiers ls e rest) : Consumes level ls e rest := by
  induction tiers generalizing level e rest with
  | nil =>
    cases Level.eq_unary_of_tiers hl
    exact consumes_of_readsOperand ih hn (reads_nil_iff.mp h)
  | cons ops tail hrec =>
    obtain ⟨tighter, hj, rfl⟩ := Level.joined_of_tiers hl
    obtain ⟨left, mid, hr, hc⟩ := reads_cons_iff.mp h
    obtain ⟨front, rfl, hd⟩ := hrec rfl hr
    have hmid : mid.length ≤ n :=
      Nat.le_trans (Nat.le_of_lt hr.length_lt) hn
    obtain ⟨used, joints, rfl, hs, rfl, hops, hds⟩ :=
      joints_of_chains (fun ls e rest hlt => ih ls e rest hlt tighter) hmid hc
    refine ⟨front ++ used, by simp, ?_⟩
    rw [List.map_append, hs]
    exact .joined joints hj hd hops hds

/-- What the parser reads for a level is an expression of the level. -/
theorem consumes_of_reads {level : Level} {ls rest : List Lexeme} {e : Expr}
    (h : Reads level.tiers ls e rest) : Consumes level ls e rest := by
  induction hn : ls.length using Nat.strongRecOn generalizing level ls e rest with
  | ind n ih =>
    exact consumes_of_tier (fun ls e rest hlt level h => ih _ hlt h rfl) rfl (Nat.le_of_eq hn) h

end soundness

/-- The lexemes do not start with an operator of the tiers. -/
def Bounded (tiers : List (List BinaryOp)) (rest : List Lexeme) : Prop :=
  ∀ l ∈ rest.head?, ∀ op, l.token = .op op → op ∉ tiers.flatten

section completeness

theorem bounded_nil {tiers : List (List BinaryOp)} : Bounded tiers [] := by
  simp [Bounded]

theorem bounded_cons_of_closeParen {tiers : List (List BinaryOp)} {l : Lexeme}
    {rest : List Lexeme} (h : l.token = .closeParen) : Bounded tiers (l :: rest) := by
  simp [Bounded, h]

theorem Bounded.tail {ops : List BinaryOp} {tiers : List (List BinaryOp)} {rest : List Lexeme}
    (h : Bounded (ops :: tiers) rest) : Bounded tiers rest :=
  fun l hl op ht hm => h l hl op ht (List.mem_append_right ops hm)

theorem Bounded.chains {ops : List BinaryOp} {tighter : List (List BinaryOp)}
    {rest : List Lexeme} (h : Bounded (ops :: tighter) rest) (left : Expr) :
    Chains ops tighter left rest left rest := by
  match rest with
  | [] => exact chains_nil_iff.mpr ⟨rfl, rfl⟩
  | l :: rest =>
    refine (chains_of_none (Option.eq_none_iff_forall_ne_some.mpr fun op hop => ?_)).mpr
      ⟨rfl, rfl⟩
    obtain ⟨ht, hm⟩ := token_of_operator? hop
    exact h l rfl op ht (List.mem_append_left _ hm)

/-- The lexemes of some joints, and what follows them, do not start with a tighter operator. -/
theorem bounded_joints {level tighter : Level} {ops : List BinaryOp}
    (hj : level.joined = some (ops, tighter)) {joints : List Joint}
    (hops : ∀ j ∈ joints, j.op ∈ ops) {ls rest : List Lexeme}
    (hs : ls.map (·.token) = Joint.spell joints) (h : Bounded level.tiers rest) :
    Bounded tighter.tiers (ls ++ rest) := by
  match joints, ls with
  | [], ls =>
    rw [Joint.spell_nil, List.map_eq_nil_iff] at hs
    subst hs
    exact (Level.tiers_of_joined hj ▸ h).tail
  | j :: joints, [] => simp at hs
  | j :: joints, l :: ls =>
    rw [List.map_cons, Joint.spell_cons, List.cons.injEq] at hs
    intro l' hl op ht
    cases hl
    cases hs.1.symm.trans ht
    exact Level.not_mem_tighter hj (hops j List.mem_cons_self)

theorem chains_joints {level tighter : Level} {ops : List BinaryOp}
    (hj : level.joined = some (ops, tighter)) {joints : List Joint}
    (hops : ∀ j ∈ joints, j.op ∈ ops)
    (hds : ∀ j ∈ joints, ∀ ls rest, ls.map (·.token) = j.tokens → Bounded tighter.tiers rest →
      Reads tighter.tiers (ls ++ rest) j.operand rest)
    {ls rest : List Lexeme} (hs : ls.map (·.token) = Joint.spell joints)
    (h : Bounded level.tiers rest) (left : Expr) :
    Chains ops tighter.tiers left (ls ++ rest) (Joint.join left joints) rest := by
  induction joints generalizing ls left with
  | nil =>
    rw [Joint.spell_nil, List.map_eq_nil_iff] at hs
    subst hs
    exact (Level.tiers_of_joined hj ▸ h).chains left
  | cons j joints ih =>
    obtain ⟨hop, hops⟩ := List.forall_mem_cons.mp hops
    obtain ⟨hd, hds⟩ := List.forall_mem_cons.mp hds
    rw [Joint.spell_cons] at hs
    obtain ⟨l, tail, rfl, ht, hs⟩ := List.map_eq_cons_iff.mp hs
    obtain ⟨operand, after, rfl, ho, hs⟩ := List.map_eq_append_iff.mp hs
    rw [List.cons_append, List.append_assoc]
    refine (chains_of_some (operator?_of_token ht hop)).mpr ⟨j.operand, after ++ rest, ?_, ?_⟩
    · exact hd operand _ ho (bounded_joints hj hops hs h)
    · exact ih hops hds hs _

/-- An expression of a level is read as such, as far as it goes. -/
theorem reads_of_derives {level : Level} {ts : List Token} {e : Expr} (h : Derives level ts e)
    {ls rest : List Lexeme} (hts : ls.map (·.token) = ts) (hb : Bounded level.tiers rest) :
    Reads level.tiers (ls ++ rest) e rest := by
  induction h generalizing ls rest with
  | joined joints hj _ hops _ ih ihs =>
    obtain ⟨front, after, rfl, hf, hs⟩ := List.map_eq_append_iff.mp hts
    rw [Level.tiers_of_joined hj, List.append_assoc, reads_cons_iff]
    exact ⟨_, after ++ rest, ih hf (bounded_joints hj hops hs hb),
      chains_joints hj hops (fun j hm ls rest => ihs j hm) hs hb _⟩
  | negate _ ih | not _ ih | cast _ _ ih =>
    obtain ⟨l, tail, rfl, ht, hs⟩ := List.map_eq_cons_iff.mp hts
    refine reads_nil_iff.mpr ((readsOperand_of_wrapper (by rw [ht]; rfl) (by rw [ht]; rfl)).mpr ?_)
    exact ⟨_, reads_nil_iff.mp (ih hs hb), rfl⟩
  | int | str | var =>
    obtain ⟨l, rfl, ht⟩ := List.map_eq_singleton_iff.mp hts
    exact reads_nil_iff.mpr ((readsOperand_of_atom (by rw [ht]; rfl)).mpr ⟨rfl, rfl⟩)
  | parenthesized _ ih =>
    obtain ⟨l, tail, rfl, ht, hs⟩ := List.map_eq_cons_iff.mp hts
    obtain ⟨inner, last, rfl, hi, hl⟩ := List.map_eq_append_iff.mp hs
    obtain ⟨closing, rfl, hc⟩ := List.map_eq_singleton_iff.mp hl
    refine reads_nil_iff.mpr ((readsOperand_of_openParen ht).mpr ⟨closing, hc, ?_⟩)
    have hb : Bounded Level.logical.tiers (closing :: rest) := bounded_cons_of_closeParen hc
    have hr := ih hi hb
    rwa [List.append_cons] at hr

end completeness

theorem ofLexemes_eq_ok_iff_reads {ls : List Lexeme} {e : Expr} :
    ofLexemes ls = .ok e ↔ Reads BinaryOp.tiers ls e [] := by
  unfold ofLexemes
  constructor
  · intro h
    split at h
    · cases h
    · next hlt ht =>
      cases h
      exact ⟨hlt, ht⟩
    · cases h
  · rintro ⟨_, ht⟩
    simp only [ht]

theorem ofLexemes_eq_ok_iff_derives {ls : List Lexeme} {e : Expr} :
    ofLexemes ls = .ok e ↔ Derives .logical (ls.map (·.token)) e := by
  rw [ofLexemes_eq_ok_iff_reads]
  constructor
  · intro h
    have hc : Consumes .logical ls e [] := consumes_of_reads h
    obtain ⟨used, rfl, hd⟩ := hc
    rwa [List.append_nil]
  · intro h
    have hr := reads_of_derives h rfl bounded_nil
    rwa [List.append_nil] at hr

end Expr

/-- Of a text that falls into lexemes the parser accepts the expressions of the grammar, and
nothing else. -/
theorem parse_eq_ok_iff_derives (source : String) :
    match tokenize source.toList with
    | .error error => Expr.parse source = .error error
    | .ok ls =>
      (∀ e, Expr.parse source = .ok e ↔ Derives .logical (ls.map (·.token)) e) ∧
      ((∃ e, Derives .logical (ls.map (·.token)) e) ∨
        ∃ error, Expr.parse source = .error error ∧
          (ScriptError.parse error).report? = some ⟨.parse, error.message⟩) := by
  unfold Expr.parse
  cases tokenize source.toList with
  | error => rfl
  | ok ls =>
    refine ⟨fun e => Expr.ofLexemes_eq_ok_iff_derives, ?_⟩
    cases h : Expr.ofLexemes ls with
    | ok e => exact .inl ⟨e, Expr.ofLexemes_eq_ok_iff_derives.mp h⟩
    | error error => exact .inr ⟨error, h, rfl⟩

end Stepwise
