import Stepwise.Proofs.Breakpoint.Registration
import Stepwise.Proofs.Script.Observing
import Stepwise.Proofs.Script.Reporting
import Stepwise.Proofs.Value.Described

namespace Stepwise

/-- What is told about a variable is so. -/
structure EngineVariable.Tells (told : EngineVariable) (arena : Arena) (v : Script.Variable) :
    Prop where
  name : told.name = v.name
  value : told.value.Tells arena v.value
  declaredType : told.declaredType = v.declaredType
  automatic : told.automatic = v.automatic

theorem EngineVariable.Tells.of_prefix {told : EngineVariable} {arena more : Arena}
    {v : Script.Variable} (h : told.Tells arena v) (hp : arena <+: more) : told.Tells more v :=
  { h with value := h.value.of_prefix hp }

structure EngineChild.Tells (told : EngineChild) (arena : Arena) (child : ChildKey × Value) :
    Prop where
  key : told.key = child.1
  value : told.value.Tells arena child.2

theorem EngineChild.Tells.of_prefix {told : EngineChild} {arena more : Arena}
    {child : ChildKey × Value} (h : told.Tells arena child) (hp : arena <+: more) :
    told.Tells more child :=
  { h with value := h.value.of_prefix hp }

namespace Script
open EngineM

variable {s t : State} {scope : Scope} {vars : Variables} {α : Type}

namespace State

/-- The script does not see a difference, and what was kept is still kept. -/
structure Extends (s t : State) : Prop where
  alike : s.Alike t
  arena : s.arena <+: t.arena

theorem Extends.refl (s : State) : s.Extends s :=
  ⟨.refl s, List.prefix_rfl⟩

theorem Extends.trans {u : State} (h : s.Extends t) (h' : t.Extends u) : s.Extends u :=
  ⟨h.alike.trans h'.alike, h.arena.trans h'.arena⟩

theorem describe_extends (s : State) (v : Value) : s.Extends (s.describe v).2 :=
  ⟨s.describe_alike v, v.prefix_describe s.arena⟩

theorem extends_told : Told Extends where
  refl := .refl
  trans h h' := h.trans h'
  describe := describe_extends

/-- More values have been told of, and nothing else has changed. -/
def ToldMore (s t : State) : Prop :=
  ∃ more, t = { s with arena := s.arena ++ more }

theorem ToldMore.refl (s : State) : s.ToldMore s :=
  ⟨[], by simp⟩

theorem ToldMore.of_eq (h : t = s) : s.ToldMore t :=
  h ▸ .refl t

theorem ToldMore.trans {u : State} (h : s.ToldMore t) (h' : t.ToldMore u) : s.ToldMore u := by
  obtain ⟨more, rfl⟩ := h
  obtain ⟨others, rfl⟩ := h'
  exact ⟨more ++ others, by simp⟩

theorem toldMore_describe (s : State) (v : Value) : s.ToldMore (s.describe v).2 := by
  obtain ⟨more, h⟩ := Value.prefix_describe s.arena v
  exact ⟨more, by rw [h]; rfl⟩

theorem toldMore_told : Told ToldMore where
  refl := .refl
  trans h h' := h.trans h'
  describe := toldMore_describe

theorem describe_tells (s : State) (v : Value) : (s.describe v).1.Tells (s.describe v).2.arena v :=
  v.describe_tells s.arena

theorem describeVariable_tells (s : State) (v : Variable) :
    (s.describeVariable v).1.Tells (s.describeVariable v).2.arena v :=
  ⟨rfl, s.describe_tells v.value, rfl, rfl⟩

theorem describeVariables_extends (s : State) (vars : Variables) :
    s.Extends (s.describeVariables vars).2 :=
  extends_told.describeVariables s vars

theorem describeVariables_tells (s : State) (vars : Variables) :
    List.Forall₂ (fun told v => told.Tells (s.describeVariables vars).2.arena v)
      (s.describeVariables vars).1 vars := by
  induction vars generalizing s with
  | nil => exact .nil
  | cons v rest ih =>
    have hv := s.describeVariable_tells v
    have hr := (describeVariables_extends (s.describeVariable v).2 rest).arena
    exact .cons (hv.of_prefix hr) (ih _)

theorem describeChildren_extends (s : State) (children : List (ChildKey × Value)) :
    s.Extends (s.describeChildren children).2 :=
  extends_told.describeChildren s children

theorem describeChildren_tells (s : State) (children : List (ChildKey × Value)) :
    List.Forall₂ (fun told child => told.Tells (s.describeChildren children).2.arena child)
      (s.describeChildren children).1 children := by
  induction children generalizing s with
  | nil => exact .nil
  | cons child rest ih =>
    have hc : EngineChild.Tells ⟨child.1, (s.describe child.2).1⟩ (s.describe child.2).2.arena
        child :=
      ⟨rfl, s.describe_tells child.2⟩
    have hr := (describeChildren_extends (s.describe child.2).2 rest).arena
    exact .cons (hc.of_prefix hr) (ih _)

end State

/-- An operation whose errors are reported answers, or reports and changes nothing. -/
theorem answer_cases {β : Type} {f : State → Except ScriptError (α × State)}
    {x : Except ScriptError β} {g : β → α × State} (hf : f s = x.map g) (h : Reported x) :
    (∃ b, x = .ok b ∧ Returns (answer f) s (.ok (g b).1) (g b).2) ∨
      ∃ e report, x = .error e ∧ e.report? = some report ∧
        Returns (answer f) s (.error report) s := by
  cases x with
  | ok b => exact .inl ⟨b, rfl, answer_ok hf⟩
  | error e =>
    obtain ⟨report, hr⟩ := Option.isSome_iff_exists.mp (h e rfl)
    exact .inr ⟨e, report, rfl, hr, answer_error hf hr⟩

theorem listVariables_returns (h : s.scope scope = .ok vars) :
    ∃ told t, Returns (context.listVariables scope) s (.ok told) t ∧ s.Extends t ∧
      List.Forall₂ (fun told v => told.Tells t.arena v) told vars := by
  refine ⟨_, _, answer_ok ?_, s.describeVariables_extends vars, s.describeVariables_tells vars⟩
  rw [h]
  rfl

theorem lookupVariable_describes {name : String} {v : Variable} (h : s.scope scope = .ok vars)
    (hv : vars.find? name = some v) :
    Returns (context.lookupVariable scope name) s (.ok (some (s.describeVariable v).1))
      (s.describeVariable v).2 := by
  refine answer_ok ?_
  simp [h, hv, Bind.bind, Except.bind]

theorem lookupVariable_returns (h : s.scope scope = .ok vars) (name : String) :
    (vars.find? name = none ∧ Returns (context.lookupVariable scope name) s (.ok none) s) ∨
      ∃ v told t, vars.find? name = some v ∧
        Returns (context.lookupVariable scope name) s (.ok (some told)) t ∧ s.Extends t ∧
        told.Tells t.arena v := by
  cases hv : vars.find? name with
  | none =>
    refine .inl ⟨rfl, answer_ok ?_⟩
    simp [h, hv, Bind.bind, Except.bind]
  | some v =>
    exact .inr ⟨v, _, _, rfl, lookupVariable_describes h hv, s.describe_extends v.value,
      s.describeVariable_tells v⟩

theorem children_returns {r : Reference} {v : Value} (h : s.arena.get r = .ok v) :
    ∃ told t, Returns (context.children r) s (.ok told) t ∧ s.Extends t ∧
      List.Forall₂ (fun told child => told.Tells t.arena child) told v.children := by
  refine ⟨_, _, answer_ok ?_, s.describeChildren_extends _, s.describeChildren_tells _⟩
  rw [h]
  rfl

theorem evaluate_returns (h : s.scope scope = .ok vars) (source : String) :
    (∃ v d t, s.evaluate scope source = .ok v ∧
        Returns (context.evaluate scope source) s (.ok d) t ∧ s.Extends t ∧ d.Tells t.arena v) ∨
      ∃ e report, s.evaluate scope source = .error e ∧ e.report? = some report ∧
        Returns (context.evaluate scope source) s (.error report) s := by
  rcases answer_cases (f := fun s => (s.evaluate scope source).map s.describe) rfl
    (State.evaluate_reported (.of_ok h) source) with ⟨v, hv, hr⟩ | hr
  · exact .inl ⟨v, _, _, hv, hr, s.describe_extends v, s.describe_tells v⟩
  · exact .inr hr

theorem coerce_returns {d : Description} {v : Value} (h : d.Tells s.arena v) (type : String) :
    (∃ w d' t, v.coerce s.enums type = .ok w ∧
        Returns (context.coerce d type) s (.ok d') t ∧ s.Extends t ∧ d'.Tells t.arena w) ∨
      ∃ e report, v.coerce s.enums type = .error e ∧ e.report? = some report ∧
        Returns (context.coerce d type) s (.error report) s := by
  rcases answer_cases (f := fun s => do
      let value ← d.resolve s.arena
      let converted ← value.coerce s.enums type
      .ok (s.describe converted)) (by rw [h.resolve]; rfl) (v.coerce_reported s.enums type) with
    ⟨w, hw, hr⟩ | hr
  · exact .inl ⟨w, _, _, hw, hr, s.describe_extends w, s.describe_tells w⟩
  · exact .inr hr

theorem assign_returns (h : s.scope scope = .ok vars) (name : String) {d : Description} {v : Value}
    (hd : d.Tells s.arena v) :
    (∃ t, s.store scope name v none = .ok t ∧
        Returns (context.assign scope name d) s (.ok ()) t) ∨
      ∃ e report, s.store scope name v none = .error e ∧ e.report? = some report ∧
        Returns (context.assign scope name d) s (.error report) s :=
  answer_cases (f := fun s => do
      let value ← d.resolve s.arena
      let s ← s.store scope name value none
      .ok ((), s)) (g := ((), ·)) (by rw [hd.resolve]; rfl)
    (State.store_reported (.of_ok h) name v none)

/-- The operation answers from every state, and only extends it. -/
def Steady (m : EngineM State α) : Prop :=
  ∀ s, ∃ a t, Returns m s a t ∧ s.Extends t

namespace Steady

variable {β : Type}

theorem pure (a : α) : Steady (pure a) :=
  fun s => ⟨a, s, .pure a s, .refl s⟩

theorem bind {m : EngineM State α} {f : α → EngineM State β} (hm : Steady m)
    (hf : ∀ a, Steady (f a)) : Steady (m >>= f) := by
  intro s
  obtain ⟨a, t, hr, ht⟩ := hm s
  obtain ⟨b, u, hr', hu⟩ := hf a t
  exact ⟨b, u, hr.bind hr', ht.trans hu⟩

theorem addBreakpoint (location : Location) (condition : Option String) (hitCount : Option Nat) :
    Steady (answer (·.addBreakpoint location condition hitCount)) := by
  intro s
  rcases addBreakpoint_cases s location condition hitCount with ⟨e, _, he⟩ | ⟨c, _, hb⟩
  · exact ⟨_, s, answer_error he rfl, .refl s⟩
  · exact ⟨_, _, answer_ok hb, rfl, List.prefix_rfl⟩

theorem clearBreakpoints (scope : BreakpointScope) : Steady (context.clearBreakpoints scope) :=
  fun _ => ⟨(), _, rfl, rfl, List.prefix_rfl⟩

theorem runAll {attempts : List (Attempt State)} (h : ∀ a ∈ attempts, ∀ n, Steady (a.register n))
    (registered : Registered) (refused : List Stepwise.Breakpoint) :
    Steady (Attempt.runAll attempts registered refused) := by
  induction attempts generalizing registered refused with
  | nil => exact .pure _
  | cons a rest ih =>
    have hr := ih fun b hb => h b (List.mem_cons_of_mem a hb)
    have ha : Steady a.run := by
      unfold Attempt.run
      split
      · exact .pure _
      · refine (h a List.mem_cons_self _).bind fun answer => ?_
        cases answer <;> exact .pure _
    refine ha.bind fun outcome => ?_
    cases outcome with
    | ok entry => exact hr _ _
    | error b => exact hr _ _

theorem confirm {attempts : List (Attempt State)} (h : ∀ a ∈ attempts, ∀ n, Steady (a.register n))
    (scope : BreakpointScope) (r : Registry) : Steady (r.confirm context scope attempts) :=
  (runAll h [] []).bind fun _ =>
    bind (m := context.breakpoints scope) (fun s => ⟨_, s, observe_returns _, .refl s⟩) fun _ =>
      .pure _

theorem setLine (home : Home) (path : Path) (requests : List LineRequest) (r : Registry) :
    Steady (r.setLine context home path requests) := by
  refine (clearBreakpoints _).bind fun _ => (confirm ?_ _ _).bind fun _ => .pure _
  intro a ha n
  obtain ⟨request, _, rfl⟩ := List.mem_map.mp ha
  exact addBreakpoint _ _ n

theorem setCommands (requests : List CommandRequest) (r : Registry) :
    Steady (r.setCommands context requests) := by
  refine (clearBreakpoints _).bind fun _ => (confirm ?_ _ _).bind fun _ => .pure _
  intro a ha n
  obtain ⟨request, _, rfl⟩ := List.mem_map.mp ha
  exact addBreakpoint _ _ n

theorem clearFiles (files : List (Path × List Stepwise.Breakpoint)) :
    Steady (Registry.clearFiles context files) := by
  induction files with
  | nil => exact .pure ()
  | cons f rest ih => exact (clearBreakpoints _).bind fun _ => ih

theorem removeAll (r : Registry) : Steady (r.removeAll context) :=
  (clearFiles r.files).bind fun _ => (clearBreakpoints _).bind fun _ => .pure _

end Steady
end Script
end Stepwise
