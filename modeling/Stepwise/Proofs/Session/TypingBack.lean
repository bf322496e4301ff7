import Stepwise.Proofs.Script.ReadingBack
import Stepwise.Proofs.Session.Converting

namespace Stepwise
open Text

theorem not_isAlpha_of_isDigit {c : Char} (h : c.isDigit) : c.isAlpha = false := by
  simp [Char.isDigit, Char.isAlpha, Char.isUpper, Char.isLower, UInt32.le_iff_toNat_le] at *
  omega

/-- A sign may stand right before the digits of a number. -/
theorem spells_negative {n : Int64} (h : 0 ≤ n) :
    Spells ('-' :: Nat.toDigits 10 n.toInt.toNat) [.op .sub, .int n] := by
  intro rest hd
  obtain ⟨ls, hts, hr⟩ := spells_number h rest hd
  have hdash : Breaks Char.isAlpha (Nat.toDigits 10 n.toInt.toNat ++ rest) := by
    cases hc : Nat.toDigits 10 n.toInt.toNat with
    | nil => exact absurd hc Nat.toDigits_ne_nil
    | cons c cs =>
      have hdigit : c.isDigit := isDigit_of_mem_toDigits c (hc ▸ List.mem_cons_self)
      exact not_isAlpha_of_isDigit hdigit
  refine ⟨⟨.op .sub, ['-']⟩ :: ls, by simp [hts], ?_⟩
  rw [List.cons_append, tokenize_of_read (by decide) (read_symbol rfl fun _ => hdash), hr]
  cases tokenize rest <;> rfl

namespace Value

/-- The values that are shown as an expression would spell them.  The least integer is not among
them: its digits are a number that is too large. -/
def Plain : Value → Prop
  | .null | .bool _ => True
  | .int n => n ≠ Int64.minValue
  | .str s => Quote.double.character ∉ s.toList
  | _ => False

instance : DecidablePred Plain
  | .null | .bool _ => .isTrue trivial
  | .int n => inferInstanceAs (Decidable (n ≠ Int64.minValue))
  | .str s => inferInstanceAs (Decidable (Quote.double.character ∉ s.toList))
  | .nullString | .enum _ _ | .array _ | .hashtable _ | .object _ _ | .foreign _ _ _ => .isFalse id

/-- The expression that is shown for a plain value. -/
def spelled : Value → Expr
  | .bool b => .var (if b then "$true" else "$false")
  | .int n => if 0 ≤ n then .int n else .negate (.int (-n))
  | .str s => .str s
  | _ => .var "$null"

variable {v : Value}

theorem toInt_neg_of_ne_minValue {n : Int64} (h : n ≠ Int64.minValue) :
    (-n).toInt = -n.toInt := by
  have hne : n.toInt ≠ -2 ^ 63 := fun he =>
    h (Int64.toInt_inj.mp (he.trans Int64.toInt_minValue.symm))
  have hlo := n.le_toInt
  have hhi := n.toInt_lt
  rw [Int64.toInt_neg]
  apply Int.bmod_eq_of_le <;> omega

/-- The sign of a number stands before its digits. -/
theorem parse_number {n : Int64} (h : n ≠ Int64.minValue) :
    Expr.parse (toString n.toInt) = .ok (Value.int n).spelled := by
  have hsign {i : Int64} : 0 ≤ i ↔ 0 ≤ i.toInt := Int64.le_iff_toInt_le
  rw [← String.ofList_toList (s := toString n.toInt), toList_toString, spelled]
  by_cases hn : 0 ≤ n
  · rw [if_pos (hsign.mp hn), if_pos hn]
    exact Expr.parse_of_spells (spells_number hn) (.int n)
  · have hneg := toInt_neg_of_ne_minValue h
    have hpos : 0 ≤ -n := by
      rw [hsign] at hn ⊢
      omega
    rw [if_neg (hsign.not.mp hn), if_neg hn, ← hneg]
    exact Expr.parse_of_spells (spells_negative hpos) (.negate (.int (-n)))

theorem parse_string {s : String} (h : Quote.double.character ∉ s.toList) :
    Expr.parse ("\"" ++ s ++ "\"") = .ok (.str s) := by
  have hp := parse_print_of_writable .double (e := .str s) ⟨.double, h⟩
  have ht : Expr.print .double (.str s) = "\"" ++ s ++ "\"" := by
    rw [Expr.print, Expr.characters, Token.spell, Quote.around, if_neg h]
    exact String.ext (by simp [Quote.character])
  rwa [ht] at hp

theorem isVariableName_of_letters {word : String} {c : Char} {cs : List Char}
    (hw : word.toList = '$' :: c :: cs) (h : (c :: cs).all Char.isAlphanum) :
    IsVariableName word := by
  refine ⟨_, hw, List.cons_ne_nil c cs, fun d hd => ?_⟩
  simp [Lexeme.isVariableCharacter, isWordCharacter, List.all_eq_true.mp h d hd]

theorem parse_shown (h : v.Plain) : Expr.parse (v.shown {}) = .ok v.spelled := by
  cases v with
  | null => exact Expr.parse_variableName (isVariableName_of_letters rfl (by decide))
  | bool b => cases b <;> exact Expr.parse_variableName (isVariableName_of_letters rfl (by decide))
  | int n => exact parse_number h
  | str s => exact parse_string h
  | _ => exact h.elim

theorem evaluate_spelled (h : v.Plain) (env : Environment) : v.spelled.evaluate env = .ok v := by
  have word {name : String} {w : Value} (hw : Expr.constant? name = some w) :
      (Expr.var name).evaluate env = .ok w := by
    simp [Expr.evaluate, hw]
  cases v with
  | null => exact word (by cbv)
  | bool b => cases b <;> exact word (by cbv)
  | int n =>
    rw [spelled]
    split
    · rfl
    · exact congrArg (Except.ok ∘ Value.int) (Int64.neg_neg (a := n))
  | str s => rfl
  | _ => exact h.elim

/-- Nothing has to be kept to tell of a plain value. -/
theorem describe_of_plain (h : v.Plain) (arena : Arena) : (v.describe arena).2 = arena := by
  cases v <;> first | exact h.elim | rw [describe]

end Value

namespace Script
open EngineM

variable {e : State} {scope : Scope} {vars : Variables} {name : String} {old : Variable} {v : Value}

theorem Variables.put_found (h : vars.find? name = some old) :
    vars.put name old.value old.declaredType = vars := by
  obtain ⟨k, -, hk, hput⟩ := Variables.exists_first h
  obtain ⟨hlt, rfl⟩ := List.getElem?_eq_some_iff.mp hk
  exact (hput _).trans (List.set_getElem_self hlt)

namespace State

theorem withScope_scope (h : e.scope scope = .ok vars) : e.withScope scope vars = e := by
  obtain ⟨-, rfl⟩ := scope_eq_ok_iff.mp h
  cases scope with
  | locals index =>
    cases hf : e.frames[index]? with
    | none => simp [withScope, hf]
    | some f =>
      cases hl : f.locals with
      | none => simp [withScope, storage, held, hf, hl]
      | some locals =>
        have hheld : e.held (e.storage (.locals index)) = locals := by
          simp [storage, held, hf, hl]
        obtain ⟨hlt, rfl⟩ := List.getElem?_eq_some_iff.mp hf
        rw [withScope_locals hf hl, hheld, ← hl]
        exact congrArg (fun frames => { e with frames }) (List.set_getElem_self hlt)
  | script index | global => rfl

theorem describe_of_plain (h : v.Plain) (e : State) : (e.describe v).2 = e :=
  congrArg e.keeping (v.describe_of_plain h e.arena)

theorem tells_of_plain (h : v.Plain) (e : State) : (e.describe v).1.Tells e.arena v := by
  have ht := e.describe_tells v
  rwa [describe_of_plain h] at ht

theorem evaluate_shown (h : v.Plain) (e : State) (scope : Scope) :
    e.evaluate scope (v.shown {}) = .ok v := by
  rw [evaluate, Value.parse_shown h]
  exact Value.evaluate_spelled h _

/-- Giving a variable without a type the value that it has changes nothing. -/
theorem store_found (hv : e.scope scope = .ok vars) (ho : vars.find? name = some old)
    (hd : old.declaredType = none) : e.store scope name old.value none = .ok e := by
  have hc : old.value.convert e.enums old.declaredType = .ok old.value := by
    rw [hd]
    rfl
  rw [store_eq hv ho, hc, Except.map, Variables.put_found ho, withScope_scope hv]

end State

theorem evaluate_returns_shown (h : v.Plain) (e : State) (scope : Scope) :
    Returns (context.evaluate scope (v.shown {})) e (.ok (e.describe v).1) e := by
  refine answer_ok ?_
  rw [State.evaluate_shown h, Except.map]
  exact congrArg Except.ok (Prod.ext rfl (State.describe_of_plain h e))

theorem assign_returns_found (hv : e.scope scope = .ok vars) (ho : vars.find? name = some old)
    (hd : old.declaredType = none) {d : Description} (ht : d.Tells e.arena old.value) :
    Returns (context.assign scope name d) e (.ok ()) e := by
  refine answer_ok ?_
  simp [ht.resolve, State.store_found hv ho hd, Bind.bind, Except.bind]

theorem lookupVariable_returns_plain (h : old.value.Plain) (hv : e.scope scope = .ok vars)
    (ho : vars.find? name = some old) :
    ∃ told, Returns (context.lookupVariable scope name) e (.ok (some told)) e ∧
      told.Tells e.arena old := by
  have hu : (e.describeVariable old).2 = e := State.describe_of_plain h e
  have hr := lookupVariable_describes hv ho
  have ht := e.describeVariable_tells old
  rw [hu] at hr ht
  exact ⟨_, hr, ht⟩

end Script

namespace SessionM

open Script

variable {s : Session} {e : State} {scope : Scope} {vars : Variables} {name : String}
  {old : Script.Variable}

/-- A variable without a type that is set to what is shown for its value keeps that value, and the
answer is what was shown. -/
theorem setVariable_shown {handle : Handle} {c : Container} {filter : ScopeFilter}
    (hs : s.runState = .stopped) (hl : s.around.literals = {}) (hc : s.resolve handle = .ok c)
    (hk : c.kind = .scope scope filter) (hv : e.scope scope = .ok vars)
    (ho : vars.find? name = some old) (hd : old.declaredType = none) (h : old.value.Plain) :
    (setVariable context handle name (old.value.shown {})).Ends s e fun r t u =>
      r = .ok (old.value.shown {}) ∧ t = s.forgetful ∧ u = e := by
  obtain ⟨told, hlookup, ht⟩ := lookupVariable_returns_plain h hv ho
  have hassign : (toAssign context handle name (old.value.shown {})).Ends s e fun r t u =>
      r = .ok ⟨scope, none, (e.describe old.value).1⟩ ∧ t = s ∧ u = e := by
    unfold toAssign
    refine Ends.read_bind (a := ()) (by rw [Session.ensureStopped, hs]) (Ends.read_bind hc ?_)
    rw [hk]
    refine existing_bind hlookup (Ends.ask_bind (evaluate_returns_shown h e scope) _ ?_)
    -- Without a declared type there is no conversion between evaluating and assigning.
    rw [ht.declaredType, hd]
    exact Ends.pure ⟨rfl, rfl, rfl⟩
  refine hassign.bind ?_ fun _ _ _ h => by cases h.1
  rintro _ _ _ ⟨⟨⟩, rfl, rfl⟩
  refine Ends.ask_bind (assign_returns_found hv ho hd (State.tells_of_plain h _)) _ ?_
  refine existing_bind hlookup (Ends.modify_bind (Ends.get_bind (Ends.pure ⟨?_, rfl, rfl⟩)))
  rw [Description.display, ht.value.text]
  exact congrArg (fun literals => Except.ok (old.value.shown literals)) hl

end SessionM

namespace Script
open EngineM

/-- What is shown for null, a truth value, an integer but the least one, or a text without double
quotes is an expression for that value in every scope, whether or not the scope exists.  So setting
an untyped variable to what is shown for it changes neither the variable nor anything else of the
engine, and answers with the same text. -/
theorem shown_given_back {v : Value} (h : v.Plain) (e : State) :
    let text := ((e.describe v).1.display {}).text
    (∀ scope, e.evaluate scope text = .ok v ∧
      Returns (context.evaluate scope text) e (.ok (e.describe v).1) e) ∧
    ∀ (s : Session) (handle : Handle) (c : Container) (scope : Scope) (filter : ScopeFilter)
      (vars : Variables) (name : String) (old : Variable),
      s.runState = .stopped → s.around.literals = {} → s.resolve handle = .ok c →
      c.kind = .scope scope filter → e.scope scope = .ok vars → vars.find? name = some old →
      old.declaredType = none → old.value = v →
      (SessionM.setVariable context handle name text).Ends s e fun r t u =>
        r = .ok text ∧ t = s.forgetful ∧ u = e := by
  intro text
  have ht : text = v.shown {} := (e.describe_tells v).text {}
  rw [ht]
  refine ⟨fun scope => ⟨State.evaluate_shown h e scope, evaluate_returns_shown h e scope⟩, ?_⟩
  rintro s handle c scope filter vars name old hs hl hc hk hv ho hd rfl
  exact SessionM.setVariable_shown hs hl hc hk hv ho hd h

/-- A negative number, shown with its sign and read as the negation of a number. -/
theorem shown_given_back_of_negative :
    let v : Value := .int (-7)
    let e : State := { globals := [{ name := "$n", value := v }] }
    let halt : Halt := ⟨none, 1, 1, [], false⟩
    let s := Session.hold { around := { home := .at ⟨"/"⟩ } } halt [⟨"<ScriptBlock>", none, 1, 1⟩]
    v.Plain ∧ ((e.describe v).1.display {}).text = "-7" ∧
      e.evaluate (.locals 3) "-7" = .ok v ∧
      (SessionM.setVariable context (.of 2 4) "$n" "-7").Ends s e fun r t u =>
        r = .ok "-7" ∧ t = s.forgetful ∧ u = e := by
  intro v e halt s
  have hp : v.Plain := by decide
  have ht : ((e.describe v).1.display {}).text = "-7" := by cbv
  have hg := shown_given_back hp e
  rw [ht] at hg
  obtain ⟨heval, hset⟩ := hg
  refine ⟨hp, ht, (heval (.locals 3)).1, ?_⟩
  have hc : s.resolve (.of 2 4) = .ok (.ofScope "Global" .global .all) := by cbv
  exact hset s (.of 2 4) _ .global .all e.globals "$n" _ rfl rfl hc rfl rfl (by cbv) rfl rfl

end Script
end Stepwise
