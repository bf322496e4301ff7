import Mathlib
import Stepwise.Proofs.Expression.Printing
import Stepwise.Proofs.Script.Places

namespace Stepwise
open Text

theorem Expr.parse_variableName {name : String} (h : IsVariableName name) :
    Expr.parse name = .ok (.var name) := by
  have hp := parse_print_of_writable .double (e := .var name) h
  rwa [Expr.print, Expr.characters, Token.spell, String.ofList_toList] at hp

theorem Text.length_eq_of_sameName {name other : String} (h : sameName name other) :
    name.toList.length = other.toList.length := by
  have hf := congrArg (fun s => s.toList.length) (sameName_iff.mp h)
  simpa [foldCase] using hf

namespace Script

section
variable {name : String}

theorem splitQualifier_of_not_mem (h : ':' ∉ name.toList) : splitQualifier name = (none, name) := by
  have hd : (name.toList.dropWhile (· == '$')).dropWhile (· != ':') = [] := by
    refine List.dropWhile_eq_nil_iff.mpr fun c hc => ?_
    have hm := (List.dropWhile_suffix _).mem hc
    simpa using fun he : c = ':' => h (he ▸ hm)
  simp [splitQualifier, hd]

/-- What is left of a qualified name is no spelling of the name. -/
theorem splitQualifier_of_mem (hn : IsVariableName name) (h : ':' ∈ name.toList) :
    ∃ qualifier bare, splitQualifier name = (some qualifier, bare) ∧
      sameName name bare = false := by
  obtain ⟨cs, hcs, _, hv⟩ := hn
  have hd : name.toList.dropWhile (· == '$') = cs := by
    rw [hcs, List.dropWhile_cons_of_pos rfl]
    refine List.dropWhile_eq_self_iff.mpr fun hlt => ?_
    have hc := hv _ (List.getElem_mem hlt)
    intro he
    rw [beq_iff_eq.mp he] at hc
    exact absurd hc (by decide +kernel)
  have hm : ':' ∈ cs := by simpa [hcs] using h
  have hlen := Lexeme.length_dropWhile_le (· != ':') cs
  cases hr : cs.dropWhile (· != ':') with
  | nil =>
    have hall := List.dropWhile_eq_nil_iff.mp hr _ hm
    simp at hall
  | cons c rest =>
    refine ⟨String.ofList (cs.takeWhile (· != ':')), String.ofList ('$' :: rest), ?_, ?_⟩
    · simp [splitQualifier, hd, hr]
    · refine Bool.eq_false_iff.mpr fun hs => ?_
      have hl := length_eq_of_sameName hs
      rw [hr] at hlen
      simp [hcs] at hl hlen
      omega

end

theorem Variables.find?_put_of_not_sameName {name other : String}
    (h : sameName name other = false) (vars : Variables) (value : Value)
    (declaredType : Option String) :
    (vars.put name value declaredType).find? other = vars.find? other := by
  have hne {v : Variable} (hv : sameName v.name name) : sameName v.name other = false := by
    refine Bool.eq_false_iff.mpr fun ho => Bool.eq_false_iff.mp h ?_
    exact sameName_iff.mpr ((sameName_iff.mp hv).symm.trans (sameName_iff.mp ho))
  induction vars with
  | nil => simp [put, find?, h]
  | cons v rest ih =>
    cases hv : sameName v.name name with
    | true => simp [put, find?, hv, hne hv]
    | false =>
      simp only [put, find?, hv, Bool.false_eq_true, if_false, List.find?_cons] at ih ⊢
      rw [ih]

namespace State

variable {s t : State} {scope : Scope} {vars : Variables} {name : String}

/-- Where an expression in a scope looks a name up, the innermost place first. -/
def sought (s : State) (scope : Scope) (qualifier : Option String) : List Storage :=
  if qualifier.any (sameName · "global") then [.globals]
  else if qualifier.any (sameName · "script") then [.script, .globals]
  else
    match scope with
    | .global => [.globals]
    | .script _ => [.script, .globals]
    | .locals _ => [s.storage scope, .script, .globals]

theorem lookupChain_eq (h : s.scope scope = .ok vars) (qualifier : Option String) :
    s.lookupChain scope qualifier = .ok ((s.sought scope qualifier).map s.held) := by
  have hu : s.lookupChain scope none = .ok ((s.sought scope none).map s.held) := by
    cases scope with
    | locals index =>
      have hv := (scope_eq_ok_iff.mp h).2
      simp [lookupChain, h, hv, sought, held]
    | script index | global => rfl
  cases qualifier with
  | none => exact hu
  | some q =>
    by_cases hg : sameName q "global"
    · simp [lookupChain, sought, hg, held]
    · by_cases hs : sameName q "script"
      · simp [lookupChain, sought, hg, hs, held]
      · have hsame : s.sought scope (some q) = s.sought scope none := by
          simp [sought, hg, hs]
        rw [hsame, ← hu]
        simp [lookupChain, hg, hs]

/-- The innermost place is that of the scope itself. -/
theorem exists_sought (s : State) (scope : Scope) :
    ∃ rest, s.sought scope none = s.storage scope :: rest := by
  cases scope <;> exact ⟨_, rfl⟩

theorem sought_congr (h : t.storage = s.storage) : t.sought = s.sought := by
  funext scope qualifier
  simp only [sought, h]

theorem lookup_eq (h : s.scope scope = .ok vars) {qualifier : Option String} {bare : String}
    (hn : splitQualifier name = (qualifier, bare)) :
    s.lookup scope name = .ok (((s.sought scope qualifier).findSome?
      fun p => (s.held p).find? bare).map (·.value)) := by
  simp only [lookup, hn, lookupChain_eq h, Bind.bind, Except.bind, List.findSome?_map]
  rfl

theorem evaluate_variableName (hn : IsVariableName name) (hc : Expr.constant? name = none)
    (s : State) (scope : Scope) :
    s.evaluate scope name = (s.lookup scope name).map (·.getD .null) := by
  simp [evaluate, Expr.parse_variableName hn, Expr.evaluate, hc, environment]

/-- A write under a name that is not the sought one changes nothing for the sought one, wherever it
is looked up. -/
theorem find?_held_withScope (hs : s.scope scope = .ok vars) {bare : String}
    (hb : sameName name bare = false) (w : Value) (type : Option String) (p : Storage) :
    ((s.withScope scope (vars.put name w type)).held p).find? bare = (s.held p).find? bare := by
  obtain ⟨hin, rfl⟩ := scope_eq_ok_iff.mp hs
  rw [held_withScope hin]
  split
  · next hp => rw [hp, Variables.find?_put_of_not_sameName hb]
  · rfl

/-- A value that is stored under a name is the value of the name in that scope, as a variable of
its type holds it, unless the name has a scope qualifier: then the variable keeps the whole name,
an expression looks for one without the qualifier, and what it sees is what it saw before. -/
theorem stored_read_back {value : Value} {declared : Option String} (hn : IsVariableName name)
    (hc : Expr.constant? name = none) (h : s.store scope name value declared = .ok t) :
    ∃ vars type w new v, s.scope scope = .ok vars ∧
      type = declared.or ((vars.find? name).bind (·.declaredType)) ∧
      value.convert s.enums type = .ok w ∧
      t.scope scope = .ok new ∧ new.find? name = some v ∧ v.value = w ∧
      t.evaluate scope name = if ':' ∈ name.toList then s.evaluate scope name else .ok w := by
  obtain ⟨vars, type, w, hs, htype, hw, rfl⟩ := exists_of_store h
  obtain ⟨v, hv, hvw⟩ := vars.exists_find?_put name w type
  have hnew := scope_withScope hs (vars.put name w type)
  have hsought := sought_congr (storage_withScope s scope (vars.put name w type))
  refine ⟨vars, type, w, _, v, hs, htype, hw, hnew, hv, hvw, ?_⟩
  rw [evaluate_variableName hn hc, evaluate_variableName hn hc]
  split
  · next hq =>
    obtain ⟨qualifier, bare, hsplit, hbare⟩ := splitQualifier_of_mem hn hq
    rw [lookup_eq hnew hsplit, lookup_eq hs hsplit, hsought]
    simp only [find?_held_withScope hs hbare]
  · next hq =>
    obtain ⟨rest, hrest⟩ := exists_sought s scope
    have hplace := (scope_eq_ok_iff.mp hnew).2
    rw [storage_withScope] at hplace
    rw [lookup_eq hnew (splitQualifier_of_not_mem hq), hsought, hrest]
    simp [← hplace, hv, hvw, Except.map]

/-- A text is stored for a number of the script, in other letters, and read back as a number from
the outermost frame, where the local variables are those of the script. -/
theorem stored_text_read_back :
    ∃ s t : State, IsVariableName "$N" ∧ Expr.constant? "$N" = none ∧
      s.scriptVariables = [{ name := "$n", value := .int 1, declaredType := some "int" }] ∧
      s.store (.locals 0) "$N" (.str "5") none = .ok t ∧
      t.evaluate (.locals 0) "$N" = .ok (.int 5) := by
  let number (n : Int64) : Variables :=
    [{ name := "$n", value := .int n, declaredType := some "int" }]
  let s : State :=
    { scriptVariables := number 1, frames := [⟨"<ScriptBlock>", none, 1, none⟩] }
  have hn : IsVariableName "$N" := ⟨['N'], rfl, by decide, List.all_eq_true.mp (by decide +kernel)⟩
  have hc : Expr.constant? "$N" = none := by cbv
  have hstore : s.store (.locals 0) "$N" (.str "5") none =
      .ok { s with scriptVariables := number 5 } := by cbv
  have hconvert : (Value.str "5").convert s.enums
      (none.or ((s.scriptVariables.find? "$N").bind (·.declaredType))) = .ok (.int 5) := by cbv
  obtain ⟨vars, type, w, new, v, hvars, rfl, hw, -, -, -, hread⟩ := stored_read_back hn hc hstore
  obtain rfl : s.scriptVariables = vars := Except.ok.inj hvars
  obtain rfl : Value.int 5 = w := Except.ok.inj (hconvert.symm.trans hw)
  exact ⟨s, _, hn, hc, rfl, hstore, hread⟩

/-- A number that is stored under a qualified name is not the value of the name. -/
theorem qualified_not_read_back :
    IsVariableName "$global:x" ∧ Expr.constant? "$global:x" = none ∧
    ∃ t : State, ({} : State).store .global "$global:x" (.int 5) none = .ok t ∧
      t.globals = [{ name := "$global:x", value := .int 5 }] ∧
      t.evaluate .global "$global:x" = .ok .null := by
  have hn : IsVariableName "$global:x" :=
    ⟨['g', 'l', 'o', 'b', 'a', 'l', ':', 'x'], rfl, by decide,
      List.all_eq_true.mp (by decide +kernel)⟩
  have hc : Expr.constant? "$global:x" = none := by cbv
  refine ⟨hn, hc, _, rfl, rfl, ?_⟩
  rw [evaluate_variableName hn hc]
  cbv

end State
end Script
end Stepwise
