import Stepwise.Proofs.Session.Assigning
import Stepwise.Proofs.Session.Setting
import Stepwise.Proofs.Value.Converting

namespace Stepwise
open EngineM Script Text

namespace Value

variable {enums : Enumerations} {type : String} {v : Value} {e : ScriptError}

theorem toInt_eq_error (h : v.toInt = .error e) : ∃ text, e = .notAnInteger text := by
  cases v with
  | null | bool | int => cases h
  | str s =>
    rw [toInt] at h
    split at h
    · cases h
    · exact ⟨s, (Except.error.inj h).symm⟩
  | _ => exact ⟨_, (Except.error.inj h).symm⟩

/-- A conversion that fails is reported as one. -/
theorem kind_of_coerce {report : EngineError} (h : v.coerce enums type = .error e)
    (hr : e.report? = some report) : report.kind = .conversion := by
  unfold coerce at h
  split at h
  · cases hn : v.toInt with
    | ok n =>
      rw [hn] at h
      cases h
    | error x =>
      rw [hn] at h
      cases h
      obtain ⟨text, rfl⟩ := toInt_eq_error hn
      cases hr
      rfl
  · cases h
  · cases h
  · split at h
    · cases h
    · split at h
      · cases h
      · cases h
        cases hr
        rfl

theorem convert_reported (enums : Enumerations) (type : Option String) (v : Value) :
    Reported (v.convert enums type) := by
  cases type with
  | none => exact .ok v
  | some type => exact v.coerce_reported enums type

end Value

namespace Script

variable {e : State} {scope : Scope} {vars : Variables} {name : String} {old : Variable}
  {d : Description} {v w : Value}

namespace State

/-- The state with other values kept for references. -/
def keeping (e : State) (arena : Arena) : State :=
  { e with arena }

/-- Variables are stored the same way, whatever values have been kept. -/
theorem withScope_keeping (e : State) (arena : Arena) (scope : Scope) (vars : Variables) :
    (e.keeping arena).withScope scope vars = (e.withScope scope vars).keeping arena := by
  cases scope with
  | locals index =>
    simp only [withScope, keeping]
    split
    · split <;> rfl
    · rfl
  | script index | global => rfl

end State

theorem coerce_describes {type : String} (hd : d.Tells e.arena v)
    (hw : v.coerce e.enums type = .ok w) :
    Returns (context.coerce d type) e (.ok (w.describe e.arena).1)
      (e.keeping (w.describe e.arena).2) := by
  refine answer_ok ?_
  simp [hd.resolve, hw, Bind.bind, Except.bind]
  rfl

end Script

namespace SessionM

variable {s : Session} {e : State} {scope : Scope} {vars : Variables} {name : String}
  {old : Script.Variable} {d : Description} {v w : Value}

/-- What follows the look-up of a variable goes on with what the engine tells of it. -/
theorem existing_bind {β : Type} {f : EngineVariable → SessionM State β} {u : State}
    {told : EngineVariable} {Q : Except SessionError β → Session → State → Prop}
    (hr : EngineM.Returns (context.lookupVariable scope name) e (.ok (some told)) u)
    (hf : (f told).Ends s u Q) : (existing context scope name >>= f).Ends s e Q := by
  have hread : (existing context scope name).Ends s e fun r t w => r = .ok told ∧ t = s ∧ w = u :=
    Ends.ask_bind hr _ (.pure ⟨rfl, rfl, rfl⟩)
  refine hread.bind ?_ ?_
  · rintro _ _ _ ⟨⟨⟩, rfl, rfl⟩
    exact hf
  · rintro _ _ _ ⟨⟨⟩, _⟩

/-- A value that can be converted is assigned, and the answer is the text of what the variable has
then. -/
theorem carryOut_ok (hs : e.scope scope = .ok vars) (ho : vars.find? name = some old)
    (hd : d.Tells e.arena v) (hw : v.convert e.enums old.declaredType = .ok w) (s : Session) :
    (carryOut context name ⟨scope, old.declaredType, d⟩).Ends s e fun r t u =>
      r = .ok (w.shown s.around.literals) ∧ t = s.forgetful ∧
        ∃ arena, u =
          (e.withScope scope (vars.put name w old.declaredType)).keeping arena := by
  have hstore := State.store_eq hs ho v
  rw [hw] at hstore
  rcases assign_returns hs name hd with ⟨u, hu, hr⟩ | ⟨x, _, hx, _, _⟩
  · cases hstore.symm.trans hu
    have hscope := State.scope_withScope hs (vars.put name w old.declaredType)
    have hfound := lookupVariable_describes hscope (Variables.find?_put ho w)
    refine Ends.ask_bind hr _ (existing_bind hfound (Ends.modify_bind (Ends.get_bind ?_)))
    exact Ends.pure ⟨congrArg Except.ok (w.displayText_describe _ _), rfl, _, rfl⟩
  · cases hstore.symm.trans hx

theorem carryOut_error {x : ScriptError} {report : EngineError} (hs : e.scope scope = .ok vars)
    (ho : vars.find? name = some old) (hd : d.Tells e.arena v)
    (hx : v.convert e.enums old.declaredType = .error x) (hr : x.report? = some report)
    (s : Session) :
    (carryOut context name ⟨scope, old.declaredType, d⟩).Ends s e fun r t u =>
      r = .error (assignError name old.declaredType report) ∧ t = s ∧ u = e := by
  have hstore := State.store_eq hs ho v
  rw [hx] at hstore
  rcases assign_returns hs name hd with ⟨u, hu, _⟩ | ⟨y, other, hy, hother, hreturns⟩
  · cases hstore.symm.trans hu
  · cases hstore.symm.trans hy
    cases hr.symm.trans hother
    exact Ends.ask_error hreturns _ ⟨rfl, rfl, rfl⟩

/-- The session goes on with the converted value, or refuses what the engine would refuse. -/
theorem convert_bind {α : Type} {f : Description → SessionM State α}
    {P : Except SessionError α → Session → State → Prop} {type : Option String}
    (hd : d.Tells e.arena v)
    (ok : ∀ w d' arena, v.convert e.enums type = .ok w → d'.Tells arena w →
      (f d').Ends s (e.keeping arena) P)
    (error : ∀ x report, v.convert e.enums type = .error x → x.report? = some report →
      P (.error (assignError name type report)) s e) :
    (convert context name d type >>= f).Ends s e P := by
  cases type with
  | none => exact ok v d e.arena rfl hd
  | some type =>
    cases hw : v.coerce e.enums type with
    | ok w => exact Ends.ask_bind (coerce_describes hd hw) _ (ok w _ _ hw (w.describe_tells e.arena))
    | error x =>
      rcases coerce_returns hd type with ⟨_, _, _, hok, _⟩ | ⟨y, report, hy, hreport, hr⟩
      · cases hw.symm.trans hok
      · cases hw.symm.trans hy
        refine Ends.ask_error hr _ ?_
        have hkind : report.kind = .conversion := Value.kind_of_coerce hw hreport
        have hresult := error x report hw hreport
        rw [assignError, hkind] at hresult
        exact hresult

/-- Converted by the session before it is assigned, as in `setVariable`, a value is assigned with
the same answer, and session and engine are the same after it, but for the values that the engine
has kept. -/
theorem carryOut_converted (hs : e.scope scope = .ok vars) (ho : vars.find? name = some old)
    (hd : d.Tells e.arena v) (s : Session) :
    (carryOut context name ⟨scope, old.declaredType, d⟩).Ends s e fun r t u =>
      (convert context name d old.declaredType >>= fun d =>
        carryOut context name ⟨scope, old.declaredType, d⟩).Ends s e fun r' t' u' =>
          r' = r ∧ t' = t ∧ ∃ arena, u' = u.keeping arena := by
  cases hv : v.convert e.enums old.declaredType with
  | ok w =>
    refine (carryOut_ok hs ho hd hv s).mono ?_
    rintro _ _ _ ⟨rfl, rfl, arena, rfl⟩
    refine convert_bind hd ?_ ?_
    · intro w' d' kept hw' hd'
      obtain rfl : w = w' := Except.ok.inj (hv.symm.trans hw')
      -- The engine leaves alone what the session has converted.
      have hagain : w.convert e.enums old.declaredType = .ok w := Value.convert_idem hv
      have hs' : (e.keeping kept).scope scope = .ok vars := hs
      refine (carryOut_ok hs' ho hd' hagain s).mono ?_
      rintro _ _ _ ⟨rfl, rfl, arena', rfl⟩
      refine ⟨rfl, rfl, arena', ?_⟩
      rw [State.withScope_keeping]
      rfl
    · intro x report hx
      cases hv.symm.trans hx
  | error x =>
    obtain ⟨report, hreport⟩ := Option.isSome_iff_exists.mp (v.convert_reported _ _ x hv)
    refine (carryOut_error hs ho hd hv hreport s).mono ?_
    rintro _ _ _ ⟨rfl, rfl, rfl⟩
    refine convert_bind hd ?_ ?_
    · intro w d' kept hw
      cases hv.symm.trans hw
    · intro y other hy hother
      cases hv.symm.trans hy
      cases hreport.symm.trans hother
      exact ⟨rfl, rfl, _, rfl⟩

end SessionM

namespace Script.State

/-- Converting a second time changes nothing: neither the value, nor what setting a variable answers
and leaves behind.  Whole numbers survive the way to a text and back, and so do the members of an
enumeration that are told apart in any case, unless a primitive type has the name of the
enumeration; a number stands for the member at its position. -/
theorem conversion_stable (e : State) :
    (∀ (type : String) (v w : Value), v.coerce e.enums type = .ok w →
      w.coerce e.enums type = .ok w) ∧
    (∀ scope vars name old d v s, e.scope scope = .ok vars → vars.find? name = some old →
      d.Tells e.arena v →
      (SessionM.carryOut context name ⟨scope, old.declaredType, d⟩).Ends s e fun r t u =>
        (SessionM.convert context name d old.declaredType >>= fun d =>
          SessionM.carryOut context name ⟨scope, old.declaredType, d⟩).Ends s e fun r' t' u' =>
            r' = r ∧ t' = t ∧ ∃ arena, u' = u.keeping arena) ∧
    (∀ text, Value.Primitive.ofName? text = some .string →
      (∀ type, Value.Primitive.ofName? type = some .int → ∀ n : Int64,
        ((Value.int n).coerce e.enums text >>= (·.coerce e.enums type)) = .ok (.int n)) ∧
      ∀ type members, Value.Primitive.ofName? type = none →
        e.enums.members? type = some members → Enumerations.Distinct members →
        ∀ name ∈ members, ((Value.enum type name).coerce e.enums text >>=
          (·.coerce e.enums type)) = .ok (.enum type name)) ∧
    ∀ type members, Value.Primitive.ofName? type = none → e.enums.members? type = some members →
      ∀ n : Int64,
        (∀ (i : Nat) (hi : i < members.length), n.toInt = i →
          (Value.int n).coerce e.enums type = .ok (.enum type members[i])) ∧
        (n.toInt < 0 ∨ members.length ≤ n.toInt → (Value.int n).coerce e.enums type =
          .error (.notAMember (toString n.toInt) type members)) := by
  refine ⟨fun _ _ _ => Value.coerce_idem, ?_, ?_, ?_⟩
  · intro scope vars name old d v s hs ho hd
    exact SessionM.carryOut_converted hs ho hd s
  · intro text ht
    refine ⟨fun type hi n => Value.int_there_and_back hi ht n, ?_⟩
    intro type members hn hm hd name hname
    exact Value.member_there_and_back hn hm hd ht hname
  · intro type members hn hm n
    exact Value.coerce_position hn hm n

/-- A variable for one of two colors. -/
theorem conversion_stable_of_colors :
    let colors : Enumerations := [("Color", ["Red", "Green"])]
    let old : Variable :=
      { name := "$c", value := .enum "Color" "Green", declaredType := some "Color" }
    let e : State := { enums := colors, globals := [old] }
    let s : Session := { around := { home := .at ⟨"/"⟩ } }
    let red := Value.enum "Color" "Red"
    let set := SessionM.carryOut context "$c" ⟨.global, some "Color", .string "red"⟩
    (Value.str "red").coerce colors "Color" = .ok red ∧ red.coerce colors "Color" = .ok red ∧
      (set.Ends s e fun r _ _ =>
        (SessionM.convert context "$c" (.string "red") (some "Color") >>= fun d =>
          SessionM.carryOut context "$c" ⟨.global, some "Color", d⟩).Ends s e
            fun r' _ _ => r' = r) ∧
      ((Value.int (-7)).coerce colors "String" >>= (·.coerce colors "Int32")) = .ok (.int (-7)) ∧
      (red.coerce colors "String" >>= (·.coerce colors "Color")) = .ok red ∧
      (Value.int 0).coerce colors "Color" = .ok red ∧
      (Value.int 2).coerce colors "Color" =
        .error (.notAMember "2" "Color" ["Red", "Green"]) := by
  intro colors old e s red set
  have hn : Value.Primitive.ofName? "Color" = none := by cbv
  have ht : Value.Primitive.ofName? "String" = some .string := by cbv
  have hi : Value.Primitive.ofName? "Int32" = some .int := by cbv
  have hm : colors.members? "Color" = some ["Red", "Green"] := by decide
  have hsame : sameName "Red" "red" = true := by cbv
  have hfound : Value.member? "Color" ["Red", "Green"] (.str "red") = some "Red" :=
    List.find?_cons_of_pos (p := (sameName · "red")) hsame
  have hred : (Value.str "red").coerce colors "Color" = .ok red := by
    rw [Value.coerce_enumeration hn hm, hfound]
  have hother : sameName "Red" "Green" = false := by cbv
  have hd : Enumerations.Distinct ["Red", "Green"] := List.pairwise_pair.mpr (by simp [hother])
  have hs : e.scope .global = .ok [old] := rfl
  have ho : Variables.find? [old] "$c" = some old := by cbv
  obtain ⟨hidem, hset, htext, hposition⟩ := conversion_stable e
  obtain ⟨hint, hmember⟩ := htext "String" ht
  have hposition := hposition "Color" _ hn hm
  refine ⟨hred, hidem _ _ _ hred, ?_, hint "Int32" hi (-7),
    hmember "Color" _ hn hm hd "Red" (by decide), (hposition 0).1 0 (by decide) (by decide),
    (hposition 2).2 (by decide)⟩
  refine (hset .global [old] "$c" old (.string "red") (.str "red") s hs ho ?_).mono ?_
  · exact Value.describe_tells [] (.str "red")
  · intro r t u htwice
    exact htwice.mono fun r' _ _ h => h.1

/-- An enumeration with the name of a primitive type is not consulted. -/
theorem member_of_int_lost :
    let enums : Enumerations := [("int", ["A", "B"])]
    enums.members? "int" = some ["A", "B"] ∧ Enumerations.Distinct ["A", "B"] ∧
      (Value.enum "int" "A").coerce enums "string" = .ok (.str "A") ∧
      (Value.str "A").coerce enums "int" = .error (.notAnInteger "A") := by
  have hother : sameName "A" "B" = false := by cbv
  exact ⟨by decide, List.pairwise_pair.mpr (by simp [hother]), by cbv, by cbv⟩

end Script.State
end Stepwise
