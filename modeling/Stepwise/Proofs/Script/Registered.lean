import Stepwise.Proofs.Script.Stepping

namespace Stepwise

def Signal.halt? {ρ : Type} : Signal ρ → Option Halt
  | .halted halt _ => some halt
  | _ => none

namespace Script

namespace State

/-- The breakpoints and the number of the last one. -/
def registered (s : State) : List Breakpoint × EngineId :=
  (s.breakpoints, s.lastId)

@[simp] theorem registered_noteLine (s : State) (line : Nat) :
    (s.noteLine line).registered = s.registered := by
  unfold noteLine
  split <;> rfl

theorem registered_withScope (s : State) (scope : Scope) (vars : Variables) :
    (s.withScope scope vars).registered = s.registered := by
  obtain ⟨_, _, _, h⟩ := s.withScope_eq scope vars
  rw [h]
  rfl

theorem registered_store {s t : State} {scope : Scope} {name : String} {value : Value}
    {declared : Option String} (h : s.store scope name value declared = .ok t) :
    t.registered = s.registered := by
  obtain ⟨_, _, _, _, _, _, rfl⟩ := exists_of_store h
  exact registered_withScope s scope _

theorem registered_carryOut {s t : State} {script : Loaded} {i j : Interrupts} {p : Point}
    {tasks : List Task} (h : s.carryOut script i p = .on t j tasks) :
    t.registered = s.registered := by
  unfold carryOut at h
  generalize p.effect = effect at h
  cases effect with
  | assign name expression declared =>
    obtain ⟨hx, rfl⟩ := ofExcept_eq_on h
    obtain ⟨v, _, hx⟩ := Except.bind_eq_ok_iff.mp hx
    exact registered_store hx
  | set name value =>
    obtain ⟨hx, rfl⟩ := ofExcept_eq_on h
    exact registered_store hx
  | pass =>
    cases h
    rfl
  | command name =>
    dsimp only at h
    split at h
    · cases h
      rfl
    · split at h
      · cases h
      · cases h
        rfl
  | call function arguments =>
    dsimp only at h
    split at h
    · cases h
    · obtain ⟨hx, rfl⟩ := ofExcept_eq_on h
      obtain ⟨locals, _, hx⟩ := Except.bind_eq_ok_iff.mp hx
      cases hx
      rfl

end State

/-- A step of a script that neither halts nor touches a breakpoint. -/
structure Quiet (s : State) (r : Signal Run × State × Interrupts) : Prop where
  halt? : r.1.halt? = none
  registered : r.2.1.registered = s.registered

section

variable {s t : State} {i : Interrupts}

theorem Quiet.of_registered {r : Signal Run × State × Interrupts} (hq : Quiet t r)
    (h : t.registered = s.registered) : Quiet s r :=
  ⟨hq.halt?, hq.registered.trans h⟩

theorem conclude_quiet (s : State) (outcome : Outcome) : Quiet s (conclude s outcome) :=
  ⟨rfl, rfl⟩

theorem proceed_quiet (s : State) (i : Interrupts) (script : Loaded) (stepping : Stepping)
    (tasks : List Task) : Quiet s (proceed s i script stepping tasks) := by
  unfold proceed
  split <;> exact ⟨rfl, rfl⟩

theorem execute_quiet (s : State) (i : Interrupts) (script : Loaded) (stepping : Stepping)
    (p : Point) : Quiet s (execute s i script stepping p) := by
  unfold execute
  split
  · next hc => exact (proceed_quiet _ _ script stepping _).of_registered (State.registered_carryOut hc)
  · exact conclude_quiet s _
  · exact ⟨rfl, rfl⟩

/-- Whether a run is about to look at the breakpoints. -/
def Run.looks (run : Run) (i : Interrupts) : Bool :=
  match run with
  | .checking _ _ _ => !i.abortRequested
  | _ => false

theorem Run.exists_of_looks {run : Run} (h : run.looks i = true) :
    ∃ script stepping p, run = .checking script stepping p ∧ i.abortRequested = false := by
  cases run with
  | checking script stepping p => exact ⟨script, stepping, p, rfl, by simpa [looks] using h⟩
  | _ => cases h

theorem next_quiet (catalog : Catalog) {run : Run} (s : State) (h : run.looks i = false) :
    Quiet s (next catalog run s i) := by
  cases run with
  | launching source =>
    simp only [next]
    split
    · exact ⟨rfl, rfl⟩
    · exact (proceed_quiet _ i _ .off _).of_registered rfl
  | running script stepping tasks => exact proceed_quiet s i script stepping tasks
  | checking script stepping p =>
    have ha : i.abortRequested = true := by simpa [Run.looks] using h
    rw [next, check_eq, if_pos ha]
    exact conclude_quiet s .aborted
  | resumed script p depth action =>
    have hq : Quiet s (execute { s with arena := [] } i script (.after depth action) p) :=
      (execute_quiet _ i script _ p).of_registered rfl
    cases action with
    | abort => exact (conclude_quiet { s with arena := [] } .aborted).of_registered rfl
    | «continue» | stepOver | stepIn | stepOut => exact hq

/-- The breakpoints that fire at a statement that is next, and the state in which they have been
counted. -/
def State.looked (s : State) (script : Loaded) (p : Point) : List EngineId × State :=
  (s.noteLine p.line).reach script.path p.line p.command?

/-- What becomes of a breakpoint at a statement that is next, and whether it fires there. -/
def State.reached (s : State) (script : Loaded) (p : Point) (b : Breakpoint) : Breakpoint × Bool :=
  b.reach (s.noteLine p.line) script.path p.line p.command?

/-- A breakpoint only counts. -/
theorem State.reached_fst (s : State) (script : Loaded) (p : Point) (b : Breakpoint) :
    ∃ hits, (s.reached script p b).1 = { b with hits } := by
  unfold reached Breakpoint.reach
  split
  · exact ⟨_, rfl⟩
  · exact ⟨b.hits, rfl⟩

/-- The breakpoints that fire, in the order of their registration. -/
theorem State.looked_fst (s : State) (script : Loaded) (p : Point) :
    (s.looked script p).1 = (s.breakpoints.filter fun b => (s.reached script p b).2).map (·.id) := by
  have hid (b : Breakpoint) : (s.reached script p b).1.id = b.id := by
    obtain ⟨hits, h⟩ := s.reached_fst script p b
    rw [h]
  have hb : (s.noteLine p.line).breakpoints = s.breakpoints :=
    (Prod.mk.inj (s.registered_noteLine p.line)).1
  rw [looked, reach, hb, List.filter_map, List.map_map]
  exact List.map_congr_left fun b _ => hid b

theorem State.registered_looked (s : State) (script : Loaded) (p : Point) :
    (s.looked script p).2.registered =
      (s.breakpoints.map fun b => (s.reached script p b).1, s.lastId) := by
  obtain ⟨hb, hl⟩ := Prod.mk.inj (s.registered_noteLine p.line)
  rw [looked, reach, registered, hb, hl, List.map_map]
  rfl

theorem State.isAt_of_reached {s : State} {script : Loaded} {p : Point} {b : Breakpoint}
    (h : (s.reached script p b).2 = true) : b.isAt script.path p.line p.command? = true := by
  unfold reached Breakpoint.reach at h
  split at h
  · next hb => exact (Bool.and_eq_true_iff.mp hb).1
  · cases h

/-- The numbers stay, and so does their order. -/
theorem State.ids_looked {script : Loaded} {p : Point}
    (h : t.registered = (s.looked script p).2.registered) :
    t.breakpoints.map (·.id) = s.breakpoints.map (·.id) ∧ t.lastId = s.lastId := by
  rw [s.registered_looked script p] at h
  obtain ⟨hb, hl⟩ := Prod.mk.inj h
  refine ⟨?_, hl⟩
  rw [hb, List.map_map]
  refine List.map_congr_left fun b _ => ?_
  obtain ⟨hits, hf⟩ := s.reached_fst script p b
  simp [hf]

/-- Every number was given out before. -/
def State.Numbered (s : State) : Prop :=
  ∀ b ∈ s.breakpoints, b.id ≤ s.lastId

theorem State.Numbered.same (h : s.Numbered) (ht : t.registered = s.registered) : t.Numbered := by
  obtain ⟨hb, hl⟩ := Prod.mk.inj ht
  unfold Numbered
  rw [hb, hl]
  exact h

theorem State.Numbered.looked (h : s.Numbered) {script : Loaded} {p : Point}
    (ht : t.registered = (s.looked script p).2.registered) : t.Numbered := by
  obtain ⟨hids, hlast⟩ := ids_looked ht
  intro b hm
  have hid : b.id ∈ s.breakpoints.map (·.id) := hids ▸ List.mem_map_of_mem hm
  obtain ⟨c, hc, he⟩ := List.mem_map.mp hid
  rw [hlast, ← he]
  exact h c hc

/-- There is a reason to halt: a breakpoint fires, a step ends or a break was requested. -/
def State.halts (s : State) (script : Loaded) (stepping : Stepping) (p : Point) (i : Interrupts) :
    Bool :=
  !(s.looked script p).1.isEmpty || stepping.endsAt s.frames.length || i.breakRequested

/-- A run that looks at the breakpoints counts them, and halts with those that fire if there is any
reason to. -/
theorem next_checking (catalog : Catalog) (s : State) (script : Loaded) (stepping : Stepping)
    (p : Point) (ha : i.abortRequested = false) :
    (next catalog (.checking script stepping p) s i).1.halt? =
        (if s.halts script stepping p i then
          some ⟨script.path, p.line, 1, (s.looked script p).1, script.remote⟩ else none) ∧
      (next catalog (.checking script stepping p) s i).2.1.registered =
        (s.looked script p).2.registered := by
  rw [next, check_eq, if_neg (by simp [ha])]
  unfold State.halts State.looked
  split
  · exact ⟨rfl, rfl⟩
  · obtain ⟨hh, hr⟩ := execute_quiet ((s.noteLine p.line).reach script.path p.line p.command?).2 i
      script stepping p
    exact ⟨hh, hr⟩

end

/-- The operation leaves the breakpoints alone, even if it takes the thread down. -/
def LeavesRegistered {α : Type} (m : EngineM State α) : Prop :=
  ∀ s : State, (m.run s).2.registered = s.registered

namespace LeavesRegistered

variable {α : Type}

theorem answer {f : State → Except ScriptError (α × State)}
    (h : ∀ s r, f s = .ok r → r.2.registered = s.registered) : LeavesRegistered (answer f) := by
  intro s
  simp only [Script.answer, OptionT.run, OptionT.mk]
  cases hf : f s with
  | ok r => exact h s r hf
  | error e =>
    dsimp only
    cases e.report? <;> rfl

end LeavesRegistered

namespace State

theorem registered_describeVariables (s : State) (vars : Variables) :
    (s.describeVariables vars).2.registered = s.registered := by
  induction vars generalizing s with
  | nil => rfl
  | cons v rest ih => exact ih _

theorem registered_describeChildren (s : State) (children : List (ChildKey × Value)) :
    (s.describeChildren children).2.registered = s.registered := by
  induction children generalizing s with
  | nil => rfl
  | cons child rest ih => exact ih _

end State

namespace LeavesRegistered

theorem listVariables (scope : Scope) : LeavesRegistered (context.listVariables scope) := by
  refine .answer fun s r h => ?_
  cases hv : s.scope scope with
  | error e =>
    rw [hv] at h
    cases h
  | ok vars =>
    rw [hv] at h
    cases h
    exact s.registered_describeVariables vars

theorem lookupVariable (scope : Scope) (name : String) :
    LeavesRegistered (context.lookupVariable scope name) := by
  refine .answer fun s r h => ?_
  obtain ⟨vars, _, h⟩ := Except.bind_eq_ok_iff.mp h
  dsimp only at h
  split at h <;> cases h <;> rfl

theorem children (reference : Reference) : LeavesRegistered (context.children reference) := by
  refine .answer fun s r h => ?_
  obtain ⟨value, _, h⟩ := Except.bind_eq_ok_iff.mp h
  cases h
  exact s.registered_describeChildren value.children

theorem evaluate (scope : Scope) (expression : String) :
    LeavesRegistered (context.evaluate scope expression) := by
  refine .answer fun s r h => ?_
  cases hv : s.evaluate scope expression with
  | error e =>
    rw [hv] at h
    cases h
  | ok value =>
    rw [hv] at h
    cases h
    rfl

theorem coerce (value : Description) (type : String) :
    LeavesRegistered (context.coerce value type) := by
  refine .answer fun s r h => ?_
  obtain ⟨v, _, h⟩ := Except.bind_eq_ok_iff.mp h
  obtain ⟨converted, _, h⟩ := Except.bind_eq_ok_iff.mp h
  cases h
  rfl

theorem assign (scope : Scope) (name : String) (value : Description) :
    LeavesRegistered (context.assign scope name value) := by
  refine .answer fun s r h => ?_
  obtain ⟨v, _, h⟩ := Except.bind_eq_ok_iff.mp h
  obtain ⟨t, hstore, h⟩ := Except.bind_eq_ok_iff.mp h
  cases h
  exact State.registered_store hstore

theorem breakpoints (scope : BreakpointScope) :
    LeavesRegistered (context.breakpoints scope) :=
  fun _ => rfl

theorem callStack : LeavesRegistered context.callStack :=
  fun _ => rfl

end LeavesRegistered

end Script
end Stepwise
