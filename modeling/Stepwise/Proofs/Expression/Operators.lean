import Mathlib
import Stepwise.Proofs.Text.Integer
import Stepwise.Proofs.Text.Lowercase
import Stepwise.Script.State

namespace Stepwise
open Text

/-- Both operands are evaluated, but for those of the logical operators. -/
theorem Expr.evaluate_binary {env : Environment} {left right : Expr} {op : BinaryOp} {v w : Value}
    (ho : op ≠ .and ∧ op ≠ .or)
    (hl : left.evaluate env = .ok v) (hr : right.evaluate env = .ok w) :
    (binary op left right).evaluate env = v.apply op w := by
  rw [evaluate, hl]
  simp only [Bind.bind, Except.bind, hr]
  split
  · exact absurd rfl ho.1
  · exact absurd rfl ho.2
  · rfl

/-- Dividing `l` by `r` gives the quotient `q` and leaves `m`.  The quotient is cut off toward zero:
what is left has the sign of `l`. -/
structure Divides (l r q m : Int) : Prop where
  whole : q * r + m = l
  less : m.natAbs < r.natAbs
  nonneg : 0 ≤ l → 0 ≤ m
  nonpos : l ≤ 0 → m ≤ 0

/-- There is one quotient and one remainder, unless the divisor is zero. -/
theorem divides_iff {l r q m : Int} :
    Divides l r q m ↔ r ≠ 0 ∧ l.tdiv r = q ∧ l.tmod r = m := by
  constructor
  · intro h
    have hr : r ≠ 0 := by
      have hless := h.less
      omega
    have hwhole : m + r * q = l := by
      rw [Int.add_comm, Int.mul_comm]
      exact h.whole
    refine ⟨hr, ?_⟩
    have hless := h.less
    rcases Int.le_total 0 l with hl | hl
    · have hm := h.nonneg hl
      exact (Int.tdiv_tmod_unique hl hr).mpr ⟨hwhole, hm, by omega⟩
    · have hm := h.nonpos hl
      exact (Int.tdiv_tmod_unique' hl hr).mpr ⟨hwhole, by omega, hm⟩
  · intro ⟨hr, hq, hm⟩
    have hpos (hl : 0 ≤ l) := (Int.tdiv_tmod_unique hl hr).mp ⟨hq, hm⟩
    have hneg (hl : l ≤ 0) := (Int.tdiv_tmod_unique' hl hr).mp ⟨hq, hm⟩
    refine ⟨?_, ?_, fun hl => (hpos hl).2.1, fun hl => (hneg hl).2.2⟩
    · rw [← hq, ← hm, Int.mul_comm]
      exact Int.mul_tdiv_add_tmod l r
    · rcases Int.le_total 0 l with hl | hl
      · have := hpos hl
        omega
      · have := hneg hl
        omega

namespace BinaryOp

/-- The operations that compute a number from numbers. -/
def arithmetical : List BinaryOp :=
  [.add, .sub, .mul, .div, .mod]

/-- What an operation makes of two numbers, if numbers had no bounds. -/
inductive Yields : BinaryOp → Int → Int → Int → Prop where
  | add (l r : Int) : Yields .add l r (l + r)
  | sub (l r : Int) : Yields .sub l r (l - r)
  | mul (l r : Int) : Yields .mul l r (l * r)
  | div {l r q m : Int} (h : Divides l r q m) : Yields .div l r q
  | mod {l r q m : Int} (h : Divides l r q m) : Yields .mod l r m

theorem yields_iff {op : BinaryOp} {l r n : Int} :
    op.Yields l r n ↔ Value.exactly op l r = some n := by
  constructor
  · intro h
    cases h with
    | add | sub | mul => rfl
    | div h | mod h =>
      obtain ⟨hr, rfl, rfl⟩ := divides_iff.mp h
      simp [Value.exactly, hr]
  · intro h
    cases op <;> simp only [Value.exactly, Option.ite_none_left_eq_some, Option.some.injEq,
      reduceCtorEq] at h
    case add => exact h ▸ .add l r
    case sub => exact h ▸ .sub l r
    case mul => exact h ▸ .mul l r
    case div => exact .div (divides_iff.mpr ⟨h.1, h.2, rfl⟩)
    case mod => exact .mod (divides_iff.mpr ⟨h.1, rfl, h.2⟩)

theorem Yields.unique {op : BinaryOp} {l r m n : Int} (hm : op.Yields l r m)
    (hn : op.Yields l r n) : m = n := by
  rw [yields_iff] at hm hn
  exact Option.some.inj (hm.symm.trans hn)

variable {op : BinaryOp} {l r : Int64} {n : Int}

def DividesByZero (op : BinaryOp) (r : Int64) : Prop :=
  (op = .div ∨ op = .mod) ∧ r = 0

/-- The remainder of the least word by -1 is zero, and is refused together with the quotient. -/
def Forgoes (op : BinaryOp) (l r : Int64) : Prop :=
  op = .mod ∧ l = Int64.minValue ∧ r = -1

theorem exactly_eq_none_iff (ho : op ∈ arithmetical) :
    Value.exactly op l.toInt r.toInt = none ↔ op.DividesByZero r := by
  have hr : r.toInt = 0 ↔ r = 0 := Int64.toInt_inj (y := 0)
  simp only [arithmetical, List.mem_cons, List.not_mem_nil, or_false] at ho
  rcases ho with rfl | rfl | rfl | rfl | rfl <;> simp [Value.exactly, DividesByZero, hr]

theorem Yields.not_dividesByZero (h : op.Yields l.toInt r.toInt n) : ¬ op.DividesByZero r := by
  intro ⟨ho, hr⟩
  rw [yields_iff, hr] at h
  rcases ho with rfl | rfl <;> simp [Value.exactly] at h

/-- The exact result comes out if it fits in a word. -/
theorem arithmetic_cases (ho : op ∈ arithmetical) (l r : Int64) :
    (op.DividesByZero r ∧
      Value.arithmetic op (.int l) (.int r) = .error .divisionByZero) ∨
    (∃ n, op.Yields l.toInt r.toInt n ∧ (op.Forgoes l r ∨ toInt64? n = none) ∧
      Value.arithmetic op (.int l) (.int r) = .error .overflow) ∨
    (∃ n : Int64, op.Yields l.toInt r.toInt n.toInt ∧ ¬ op.Forgoes l r ∧
      Value.arithmetic op (.int l) (.int r) = .ok (.int n)) := by
  simp only [Value.arithmetic, Value.toInt, Bind.bind, Except.bind]
  cases hx : Value.exactly op l.toInt r.toInt with
  | none => exact .inl ⟨(exactly_eq_none_iff ho).mp hx, rfl⟩
  | some n =>
    have hy : op.Yields l.toInt r.toInt n := yields_iff.mpr hx
    by_cases hf : op = .mod ∧ l = Int64.minValue ∧ r = -1
    · exact .inr (.inl ⟨n, hy, .inl hf, if_pos hf⟩)
    · simp only [if_neg hf]
      cases hn : toInt64? n with
      | none => exact .inr (.inl ⟨n, hy, .inr hn, rfl⟩)
      | some i =>
        rw [← toInt64?_eq_some_iff.mp hn] at hy
        exact .inr (.inr ⟨i, hy, hf, rfl⟩)

theorem arithmetic_eq_ok_iff (ho : op ∈ arithmetical) {i : Int64} :
    Value.arithmetic op (.int l) (.int r) = .ok (.int i) ↔
      op.Yields l.toInt r.toInt i.toInt ∧ ¬ op.Forgoes l r := by
  rcases arithmetic_cases ho l r with ⟨hzero, he⟩ | ⟨m, hm, hout, he⟩ | ⟨j, hj, hkept, he⟩
  · rw [he]
    refine iff_of_false nofun ?_
    intro ⟨hi, _⟩
    exact hi.not_dividesByZero hzero
  · rw [he]
    refine iff_of_false nofun ?_
    intro ⟨hi, hkept⟩
    rcases hout with hf | hnone
    · exact hkept hf
    · rw [hm.unique hi, toInt64?_toInt] at hnone
      cases hnone
  · rw [he]
    simp only [Except.ok.injEq, Value.int.injEq]
    constructor
    · intro h
      exact h ▸ ⟨hj, hkept⟩
    · intro ⟨hi, _⟩
      exact Int64.toInt_inj.mp (hj.unique hi)

theorem arithmetic_eq_divisionByZero_iff (ho : op ∈ arithmetical) :
    Value.arithmetic op (.int l) (.int r) = .error .divisionByZero ↔ op.DividesByZero r := by
  rcases arithmetic_cases ho l r with ⟨hzero, he⟩ | ⟨_, hm, _, he⟩ | ⟨_, hj, _, he⟩
  · exact iff_of_true he hzero
  · simp [he, hm.not_dividesByZero]
  · simp [he, hj.not_dividesByZero]

/-- There is no third error. -/
theorem arithmetic_eq_overflow_iff (ho : op ∈ arithmetical) :
    Value.arithmetic op (.int l) (.int r) = .error .overflow ↔
      ¬ op.DividesByZero r ∧ ∀ i : Int64, op.Yields l.toInt r.toInt i.toInt → op.Forgoes l r := by
  have hok (i : Int64) := arithmetic_eq_ok_iff (l := l) (r := r) (i := i) ho
  rcases arithmetic_cases ho l r with ⟨hzero, he⟩ | ⟨_, hm, _, he⟩ | ⟨j, hj, hkept, he⟩
  · simp [he, hzero]
  · refine iff_of_true he ⟨hm.not_dividesByZero, ?_⟩
    intro i hi
    refine Classical.byContradiction fun hkept => ?_
    cases he.symm.trans ((hok i).mpr ⟨hi, hkept⟩)
  · simp only [he, reduceCtorEq, false_iff]
    intro ⟨_, hall⟩
    exact hkept (hall j hj)

end BinaryOp

namespace Expr

variable {env : Environment} {left right : Expr} {l r : Int64} {op : BinaryOp}

theorem evaluate_arithmetic (ho : op ∈ BinaryOp.arithmetical)
    (hl : left.evaluate env = .ok (.int l)) (hr : right.evaluate env = .ok (.int r)) :
    (binary op left right).evaluate env = Value.arithmetic op (.int l) (.int r) := by
  have hlogical : op ≠ .and ∧ op ≠ .or := by
    constructor <;> (intro h; rw [h] at ho; exact absurd ho (by decide))
  rw [evaluate_binary hlogical hl hr]
  simp only [BinaryOp.arithmetical, List.mem_cons, List.not_mem_nil, or_false] at ho
  rcases ho with rfl | rfl | rfl | rfl | rfl <;> rfl

/-- An operation on two words gives the exact result if there is one and it is a word, a division by
zero its own error, and everything else is refused as an overflow: no result is ever wrapped. -/
theorem evaluate_exact_or_refused (ho : op ∈ BinaryOp.arithmetical)
    (hl : left.evaluate env = .ok (.int l)) (hr : right.evaluate env = .ok (.int r)) :
    let result := (binary op left right).evaluate env
    (∀ n : Int64, result = .ok (.int n) ↔
      op.Yields l.toInt r.toInt n.toInt ∧ ¬ op.Forgoes l r) ∧
    (result = .error .divisionByZero ↔ op.DividesByZero r) ∧
    (result = .error .overflow ↔
      ¬ op.DividesByZero r ∧
        ∀ n : Int64, op.Yields l.toInt r.toInt n.toInt → op.Forgoes l r) := by
  intro result
  have hresult : result = Value.arithmetic op (.int l) (.int r) := evaluate_arithmetic ho hl hr
  rw [hresult]
  exact ⟨fun n => BinaryOp.arithmetic_eq_ok_iff ho, BinaryOp.arithmetic_eq_divisionByZero_iff ho,
    BinaryOp.arithmetic_eq_overflow_iff ho⟩

/-- The quotient of -7 and 2 is cut off toward zero. -/
theorem evaluate_exact_or_refused_below_zero :
    let env := ({} : Script.State).environment .global
    BinaryOp.div ∈ BinaryOp.arithmetical ∧
      (negate (int 7)).evaluate env = .ok (.int (-7)) ∧ (int 2).evaluate env = .ok (.int 2) ∧
      BinaryOp.div.Yields (-7) 2 (-3) ∧
      (binary .div (negate (int 7)) (int 2)).evaluate env = .ok (.int (-3)) := by
  intro env
  have ho : BinaryOp.div ∈ BinaryOp.arithmetical := by decide
  have hl : (negate (int 7)).evaluate env = .ok (.int (-7)) := rfl
  have hr : (int 2).evaluate env = .ok (.int 2) := rfl
  have hy : BinaryOp.div.Yields (-7) 2 (-3) :=
    .div (m := -1) ⟨by decide, by decide, by decide, by decide⟩
  have hkept : ¬ BinaryOp.div.Forgoes (-7) 2 := fun h => nomatch h.1
  obtain ⟨hexact, -⟩ := evaluate_exact_or_refused ho hl hr
  exact ⟨ho, hl, hr, hy, (hexact (-3)).mpr ⟨hy, hkept⟩⟩

/-- Nothing is left when the least word is divided by -1, but the remainder is refused. -/
theorem remainder_forgone :
    BinaryOp.mod.Yields Int64.minValue.toInt (-1) 0 ∧
      ({} : Script.State).evaluate .global "(-9223372036854775807 - 1)" =
        .ok (.int Int64.minValue) ∧
      ({} : Script.State).evaluate .global "(-9223372036854775807 - 1) % -1" =
        .error .overflow := by
  refine ⟨.mod (q := 2 ^ 63) ⟨by decide, by decide, by decide, by decide⟩, ?_, ?_⟩
  · cbv
  · cbv

end Expr

namespace BinaryOp

def comparisons : List BinaryOp :=
  [.eq, .ne, .lt, .gt, .le, .ge]

/-- The comparisons that tell two texts apart. -/
def orderings : List BinaryOp :=
  [.lt, .eq, .gt]

/-- Texts are equal if they differ at most in the case of ASCII letters, and are ordered by their
small letters in any script. -/
def holdsOfTexts (op : BinaryOp) (a b : String) : Bool :=
  match op with
  | .eq => sameName a b
  | .ne => !sameName a b
  | .lt => (compare (lower a) (lower b)).isLT
  | .gt => (compare (lower a) (lower b)).isGT
  | .le => (compare (lower a) (lower b)).isLE
  | .ge => (compare (lower a) (lower b)).isGE
  | _ => false

variable {op p q : BinaryOp} {a b : String}

theorem holdsOfTexts_eq_iff : eq.holdsOfTexts a b ↔ foldCase a = foldCase b :=
  sameName_iff

theorem compare_lower_eq_iff : compare (lower a) (lower b) = .eq ↔ lower a = lower b :=
  Std.compare_eq_iff_eq

theorem holdsOfTexts_both_iff :
    ge.holdsOfTexts a b ∧ le.holdsOfTexts a b ↔ lower a = lower b := by
  rw [← compare_lower_eq_iff]
  unfold holdsOfTexts
  cases compare (lower a) (lower b) <;> simp

theorem holdsOfTexts_not :
    (ne.holdsOfTexts a b ↔ ¬ eq.holdsOfTexts a b) ∧ (ge.holdsOfTexts a b ↔ ¬ lt.holdsOfTexts a b) ∧
      (le.holdsOfTexts a b ↔ ¬ gt.holdsOfTexts a b) := by
  unfold holdsOfTexts
  refine ⟨by simp, ?_⟩
  cases compare (lower a) (lower b) <;> simp

/-- Texts that are equal in their ASCII letters are equal in their small letters, so that neither is
before the other. -/
theorem not_holdsOfTexts_of_eq (h : eq.holdsOfTexts a b) :
    ¬ lt.holdsOfTexts a b ∧ ¬ gt.holdsOfTexts a b := by
  have hlower : lower a = lower b := lower_eq_of_foldCase_eq (holdsOfTexts_eq_iff.mp h)
  unfold holdsOfTexts
  simp [compare_lower_eq_iff.mpr hlower]

theorem holdsOfTexts_unique (hp : p ∈ orderings) (hq : q ∈ orderings)
    (h : p.holdsOfTexts a b) (h' : q.holdsOfTexts a b) : p = q := by
  have hboth : ¬ (lt.holdsOfTexts a b ∧ gt.holdsOfTexts a b) := by
    unfold holdsOfTexts
    cases compare (lower a) (lower b) <;> simp
  simp only [orderings, List.mem_cons, List.not_mem_nil, or_false] at hp hq
  rcases hp with rfl | rfl | rfl <;> rcases hq with rfl | rfl | rfl
  case inl.inl | inr.inl.inr.inl | inr.inr.inr.inr => rfl
  case inl.inr.inl => exact absurd h (not_holdsOfTexts_of_eq h').1
  case inl.inr.inr => exact absurd ⟨h, h'⟩ hboth
  case inr.inl.inl => exact absurd h' (not_holdsOfTexts_of_eq h).1
  case inr.inl.inr.inr => exact absurd h' (not_holdsOfTexts_of_eq h).2
  case inr.inr.inl => exact absurd ⟨h', h⟩ hboth
  case inr.inr.inr.inl => exact absurd h (not_holdsOfTexts_of_eq h').2

theorem exists_holdsOfTexts_iff :
    (∃ op ∈ orderings, op.holdsOfTexts a b) ↔ (lower a = lower b → foldCase a = foldCase b) := by
  have hcases : (∃ op ∈ orderings, op.holdsOfTexts a b) ↔
      lt.holdsOfTexts a b ∨ eq.holdsOfTexts a b ∨ gt.holdsOfTexts a b := by
    simp [orderings]
  rw [hcases, holdsOfTexts_eq_iff, ← compare_lower_eq_iff]
  unfold holdsOfTexts
  cases compare (lower a) (lower b) <;> simp

end BinaryOp

namespace Expr

variable {env : Environment} {left right : Expr} {a b : String} {op : BinaryOp}

theorem evaluate_texts (ho : op ∈ BinaryOp.comparisons)
    (hl : left.evaluate env = .ok (.str a)) (hr : right.evaluate env = .ok (.str b)) :
    (binary op left right).evaluate env = .ok (.bool (op.holdsOfTexts a b)) := by
  have hlogical : op ≠ .and ∧ op ≠ .or := by
    constructor <;> (intro h; rw [h] at ho; exact absurd ho (by decide))
  rw [evaluate_binary hlogical hl hr]
  simp only [BinaryOp.comparisons, List.mem_cons, List.not_mem_nil, or_false] at ho
  rcases ho with rfl | rfl | rfl | rfl | rfl | rfl <;>
    simp only [Value.apply, Value.order, Value.equals, Value.text, Except.map,
      BinaryOp.holdsOfTexts]

/-- At most one of `-lt`, `-eq` and `-gt` holds between two texts, and one does unless they have the
same small letters and still differ in more than the case of ASCII letters.  Texts of ASCII
characters do not. -/
theorem texts_told_apart (hl : left.evaluate env = .ok (.str a))
    (hr : right.evaluate env = .ok (.str b)) :
    let holds (op : BinaryOp) := (binary op left right).evaluate env = .ok (.bool true)
    let fails (op : BinaryOp) := (binary op left right).evaluate env = .ok (.bool false)
    (∀ op ∈ BinaryOp.comparisons, holds op ∨ fails op) ∧
    (holds .ne ↔ ¬ holds .eq) ∧ (holds .ge ↔ ¬ holds .lt) ∧ (holds .le ↔ ¬ holds .gt) ∧
    (holds .eq ↔ foldCase a = foldCase b) ∧
    (holds .ge ∧ holds .le ↔ lower a = lower b) ∧
    (∀ p ∈ BinaryOp.orderings, ∀ q ∈ BinaryOp.orderings, holds p → holds q → p = q) ∧
    ((∃ p ∈ BinaryOp.orderings, holds p) ↔ (lower a = lower b → foldCase a = foldCase b)) ∧
    ((∀ c ∈ a.toList ++ b.toList, c.toNat < 0x80) → ∃ p ∈ BinaryOp.orderings, holds p) := by
  intro holds fails
  have htold {op : BinaryOp} (ho : op ∈ BinaryOp.comparisons) :
      holds op ↔ op.holdsOfTexts a b := by
    simp only [holds, evaluate_texts ho hl hr, Except.ok.injEq, Value.bool.injEq]
  have horderings {op : BinaryOp} (ho : op ∈ BinaryOp.orderings) : op ∈ BinaryOp.comparisons := by
    revert op
    decide
  have hexists : (∃ p ∈ BinaryOp.orderings, holds p) ↔
      (lower a = lower b → foldCase a = foldCase b) := by
    rw [← BinaryOp.exists_holdsOfTexts_iff]
    constructor
    · intro ⟨p, hp, h⟩
      exact ⟨p, hp, (htold (horderings hp)).mp h⟩
    · intro ⟨p, hp, h⟩
      exact ⟨p, hp, (htold (horderings hp)).mpr h⟩
  have hnot := BinaryOp.holdsOfTexts_not (a := a) (b := b)
  rw [← htold (by decide), ← htold (by decide), ← htold (by decide), ← htold (by decide),
    ← htold (by decide), ← htold (by decide)] at hnot
  refine ⟨?_, hnot.1, hnot.2.1, hnot.2.2, ?_, ?_, ?_, hexists, ?_⟩
  · intro op ho
    simp only [holds, fails, evaluate_texts ho hl hr, Except.ok.injEq, Value.bool.injEq]
    exact Bool.eq_false_or_eq_true _
  · rw [htold (by decide), BinaryOp.holdsOfTexts_eq_iff]
  · rw [htold (by decide), htold (by decide), BinaryOp.holdsOfTexts_both_iff]
  · intro p hp q hq h h'
    rw [htold (horderings hp)] at h
    rw [htold (horderings hq)] at h'
    exact BinaryOp.holdsOfTexts_unique hp hq h h'
  · intro hascii
    rw [hexists]
    intro h
    rwa [lower_of_ascii fun c hc => hascii c (List.mem_append_left _ hc),
      lower_of_ascii fun c hc => hascii c (List.mem_append_right _ hc)] at h

/-- Two spellings of one word in ASCII letters. -/
theorem texts_told_apart_in_ascii :
    let env := ({} : Script.State).environment .global
    let holds (op : BinaryOp) :=
      (binary op (str "Hello") (str "hELLO")).evaluate env = .ok (.bool true)
    (str "Hello").evaluate env = .ok (.str "Hello") ∧
      (str "hELLO").evaluate env = .ok (.str "hELLO") ∧
      holds .eq ∧ ¬ holds .lt ∧ ¬ holds .gt ∧ holds .ge ∧ holds .le := by
  intro env holds
  have hl : (str "Hello").evaluate env = .ok (.str "Hello") := rfl
  have hr : (str "hELLO").evaluate env = .ok (.str "hELLO") := rfl
  obtain ⟨-, -, hge, hle, heq, -, hunique, -⟩ := texts_told_apart hl hr
  have h : holds .eq := heq.mpr (by cbv)
  have hlt : ¬ holds .lt := by
    intro h'
    cases hunique _ (by decide) _ (by decide) h' h
  have hgt : ¬ holds .gt := by
    intro h'
    cases hunique _ (by decide) _ (by decide) h' h
  exact ⟨hl, hr, h, hlt, hgt, hge.mpr hlt, hle.mpr hgt⟩

/-- An accented letter is neither before nor after its capital, and not equal to it either. -/
theorem accented_not_told_apart :
    let env := ({} : Script.State).environment .global
    let result (op : BinaryOp) := (binary op (str "É") (str "é")).evaluate env
    result .lt = .ok (.bool false) ∧ result .eq = .ok (.bool false) ∧
      result .gt = .ok (.bool false) ∧
      result .ge = .ok (.bool true) ∧ result .le = .ok (.bool true) := by
  intro env result
  have hl : (str "É").evaluate env = .ok (.str "É") := rfl
  have hr : (str "é").evaluate env = .ok (.str "é") := rfl
  have hresult {op : BinaryOp} (ho : op ∈ BinaryOp.comparisons) :
      result op = .ok (.bool (op.holdsOfTexts "É" "é")) :=
    evaluate_texts ho hl hr
  rw [hresult (by decide), hresult (by decide), hresult (by decide), hresult (by decide),
    hresult (by decide)]
  refine ⟨?_, ?_, ?_, ?_, ?_⟩ <;> cbv

end Expr
end Stepwise
