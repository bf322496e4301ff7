import Stepwise.Proofs.History
import Stepwise.Proofs.Script.Registered

namespace Stepwise.Script
open Text

/-- A statement at which the breakpoints were looked at: the state before, and the halt if there was
a reason for one. -/
structure Check where
  script : Loaded
  point : Point
  state : State
  halt? : Option Halt

/-- The check that a step of a run makes.  A run that is aborted makes none. -/
def checked? (catalog : Catalog) (run : Run) (s : State) (i : Interrupts) : Option Check :=
  match run with
  | .checking script _ point =>
    if i.abortRequested then none else some ⟨script, point, s, (next catalog run s i).1.halt?⟩
  | _ => none

inductive Event where
  | check (c : Check)
  | cleared (scope : BreakpointScope)

/-- What an engine goes through from one state to another: steps of whatever runs there are, with
whatever is requested meanwhile, and operations of its context. -/
inductive Life (catalog : Catalog) (s : State) : List Event → State → Prop
  | rest : Life catalog s [] s
  | step {log : List Event} {t : State} (run : Run) (i : Interrupts) (h : Life catalog s log t) :
    Life catalog s (log ++ ((checked? catalog run t i).map .check).toList) (next catalog run t i).2.1
  | add {log : List Event} {t u : State} {location : Location} {condition : Option String}
    {hitCount : Option Nat} {id : EngineId} (h : Life catalog s log t)
    (ha : t.addBreakpoint location condition hitCount = .ok (id, u)) : Life catalog s log u
  | clear {log : List Event} {t : State} (scope : BreakpointScope) (h : Life catalog s log t) :
    Life catalog s (log ++ [.cleared scope]) (t.clearBreakpoints scope)
  | other {log : List Event} {t : State} {α : Type} {m : EngineM State α}
    (h : Life catalog s log t) (hm : LeavesRegistered m) : Life catalog s log (m.run t).2

namespace Check

/-- The statement is on the line in the script, or is the command. -/
def isAt (c : Check) : Location → Bool
  | .line path line _ => (c.script.path.any fun p => path.same p) && line == c.point.line
  | .command name =>
    match c.point.effect with
    | .command spelled => sameName spelled name
    | _ => false

/-- The condition, if there is one, evaluates in the innermost frame to something that counts as
true. -/
def passes (c : Check) (condition : Option String) : Bool :=
  condition.all fun text =>
    match c.state.evaluate (.locals 0) text with
    | .ok v => v.truthy
    | .error _ => false

/-- The breakpoint is among those that the halt is told with. -/
def reports (c : Check) (id : EngineId) : Bool :=
  c.halt?.any fun halt => halt.breakpoints.contains id

end Check

namespace Event

/-- An arrival at the location with the condition true. -/
def counts (location : Location) (condition : Option String) : Event → Bool
  | .check c => c.isAt location && c.passes condition
  | .cleared _ => false

def clears (location : Location) : Event → Bool
  | .check _ => false
  | .cleared scope => location.isIn scope

end Event

variable {catalog : Catalog} {s t u : State} {log before after : List Event} {c : Check}

/-- An event with the life before it. -/
theorem Life.split (h : Life catalog s (before ++ .check c :: after) t) :
    ∃ run u i, Life catalog s before u ∧ checked? catalog run u i = some c := by
  generalize hl : before ++ .check c :: after = log at h
  induction h generalizing after with
  | rest => simp at hl
  | step run i h ih =>
    cases hc : checked? catalog run _ i with
    | none =>
      rw [hc] at hl
      exact ih (by simpa using hl)
    | some d =>
      rw [hc] at hl
      rcases append_cons_eq_snoc hl with ⟨rfl, hd, -⟩ | ⟨rest, -, hr⟩
      · cases hd
        exact ⟨run, _, i, h, hc⟩
      · exact ih hr
  | add _ _ ih | other _ _ ih => exact ih hl
  | clear scope _ ih =>
    rcases append_cons_eq_snoc hl with ⟨_, hd, _⟩ | ⟨rest, -, hr⟩
    · cases hd
    · exact ih hr

/-- The breakpoint that is registered: under a new number, with nothing counted. -/
theorem addBreakpoint_ok {location : Location} {condition : Option String}
    {hitCount : Option Nat} {id : EngineId}
    (h : s.addBreakpoint location condition hitCount = .ok (id, t)) :
    ∃ parsed, (parsed : Option (String × Expr)).map Prod.fst = condition ∧
      (∀ text e, parsed = some (text, e) → Expr.parse text = .ok e) ∧ id = s.lastId + 1 ∧
      t.registered = (s.breakpoints ++ [⟨id, location, parsed, hitCount, 0⟩], id) := by
  cases condition with
  | none =>
    cases h
    exact ⟨none, rfl, nofun, rfl, rfl⟩
  | some text =>
    cases hp : Expr.parse text with
    | error e =>
      simp only [State.addBreakpoint, hp] at h
      cases h
    | ok e =>
      simp only [State.addBreakpoint, hp] at h
      cases h
      refine ⟨some (text, e), rfl, ?_, rfl, rfl⟩
      intro text' e' he
      cases he
      exact hp

/-- Noting the line of a frame changes nothing that expressions see. -/
theorem State.environment_noteLine (s : State) (line : Nat) (scope : Scope) :
    (s.noteLine line).environment scope = s.environment scope := by
  have hs : (s.noteLine line).scope = s.scope := by
    funext scope
    unfold State.noteLine
    split
    · rfl
    · next f rest hf =>
      have hr (index : Nat) :
          State.reaches { s with frames := { f with line } :: rest } index = s.reaches index := by
        simp [State.reaches, hf]
      cases scope with
      | locals index =>
        cases index
        · simp [State.scope, State.frame, hr, hf]
          rfl
        · simp [State.scope, State.frame, hr, hf]
      | script index => simp [State.scope, hr]
      | global => rfl
  have hg : (s.noteLine line).globals = s.globals := (s.noteLine_keeps line).2.1
  have hv : (s.noteLine line).scriptVariables = s.scriptVariables := (s.noteLine_keeps line).2.2
  have he : (s.noteLine line).enums = s.enums := by
    unfold State.noteLine
    split <;> rfl
  unfold State.environment State.lookup State.lookupChain
  rw [hs, hg, hv, he]

/-- The condition is an expression, with the text it was read from. -/
def Breakpoint.IsParsed (b : Breakpoint) : Prop :=
  ∀ text e, b.condition = some (text, e) → Expr.parse text = .ok e

/-- An arrival is counted if it counts, and reported if the count is the right one. -/
theorem Check.reach_eq (c : Check) {b : Breakpoint} (hb : b.IsParsed) :
    b.reach (c.state.noteLine c.point.line) c.script.path c.point.line c.point.command? =
      if Event.counts b.location (b.condition.map Prod.fst) (.check c) then
        ({ b with hits := b.hits + 1 }, b.hitCount.all (· == b.hits + 1))
      else (b, false) := by
  have hat : b.isAt c.script.path c.point.line c.point.command? = c.isAt b.location := by
    unfold Breakpoint.isAt Check.isAt Point.command?
    cases b.location with
    | line path line column => rfl
    | command name => cases c.point.effect <;> rfl
  have hholds : b.holds (c.state.noteLine c.point.line) = c.passes (b.condition.map Prod.fst) := by
    unfold Breakpoint.holds Check.passes
    rw [State.environment_noteLine]
    cases hc : b.condition with
    | none => rfl
    | some condition =>
      obtain ⟨text, e⟩ := condition
      have he : c.state.evaluate (.locals 0) text = e.evaluate (c.state.environment (.locals 0)) := by
        simp [State.evaluate, hb text e hc]
      cases hv : e.evaluate (c.state.environment (.locals 0)) <;> simp [he, hv]
  unfold Breakpoint.reach
  rw [hat, hholds]
  rfl

theorem looks_of_checked? {run : Run} {i : Interrupts} (h : checked? catalog run s i = none) :
    run.looks i = false := by
  cases run with
  | checking script stepping p =>
    simp only [checked?] at h
    split at h
    · next ha => simp [Run.looks, ha]
    · cases h
  | _ => rfl

/-- A check counts the breakpoints, and reports those that fire. -/
theorem checked?_some {run : Run} {i : Interrupts} (h : checked? catalog run s i = some c) :
    c.state = s ∧
      (next catalog run s i).2.1.registered = (s.looked c.script c.point).2.registered ∧
      ∀ id, c.reports id = true ↔ id ∈ (s.looked c.script c.point).1 := by
  unfold checked? at h
  split at h
  · next script stepping p =>
    split at h
    · cases h
    · next ha =>
      cases h
      obtain ⟨hh, hr⟩ := next_checking catalog s script stepping p (Bool.eq_false_iff.mpr ha)
      refine ⟨rfl, hr, ?_⟩
      intro id
      simp only [Check.reports, hh]
      split
      · simp
      · next hn =>
        have he : (s.looked script p).1 = [] := by
          simp only [State.halts, Bool.not_eq_true, Bool.or_eq_false_iff] at hn
          simpa using hn.1.1
        simp [he]
  · cases h

theorem Life.numbered (h : Life catalog s log t) (hs : s.Numbered) : t.Numbered := by
  induction h with
  | rest => exact hs
  | @step log t run i h ih =>
    cases hc : checked? catalog run t i with
    | none => exact ih.same (next_quiet catalog t (looks_of_checked? hc)).registered
    | some c => exact ih.looked (checked?_some hc).2.1
  | add _ ha ih =>
    obtain ⟨parsed, _, _, rfl, hr⟩ := addBreakpoint_ok ha
    obtain ⟨hb, hl⟩ := Prod.mk.inj hr
    intro b hm
    rw [hb] at hm
    rw [hl]
    rcases List.mem_append.mp hm with hm | hm
    · exact Nat.le_succ_of_le (ih b hm)
    · rw [List.mem_singleton.mp hm]
  | clear scope _ ih => exact fun b hm => ih b (List.mem_filter.mp hm).1
  | other _ hm ih => exact ih.same (hm _)

/-- The breakpoint is the only one of its number, and it is registered if it is `present`. -/
structure State.Tracks (s : State) (b : Breakpoint) (present : Prop) : Prop where
  issued : b.id ≤ s.lastId
  mem : present → b ∈ s.breakpoints
  only : ∀ a ∈ s.breakpoints, a.id = b.id → present ∧ a = b

namespace State.Tracks

variable {b : Breakpoint} {present : Prop}

theorem same (h : s.Tracks b present) (hr : t.registered = s.registered) : t.Tracks b present := by
  obtain ⟨hb, hl⟩ := Prod.mk.inj hr
  obtain ⟨hi, hm, ho⟩ := h
  rw [← hl] at hi
  rw [← hb] at hm ho
  exact ⟨hi, hm, ho⟩

theorem add (h : s.Tracks b present) {location : Location} {condition : Option String}
    {hitCount : Option Nat} {id : EngineId}
    (ha : s.addBreakpoint location condition hitCount = .ok (id, t)) : t.Tracks b present := by
  obtain ⟨parsed, _, _, rfl, hr⟩ := addBreakpoint_ok ha
  obtain ⟨hb, hl⟩ := Prod.mk.inj hr
  refine ⟨hl ▸ Nat.le_succ_of_le h.issued, ?_, ?_⟩
  · intro hp
    rw [hb]
    exact List.mem_append_left _ (h.mem hp)
  · intro a hm hid
    rw [hb] at hm
    rcases List.mem_append.mp hm with hm | hm
    · exact h.only a hm hid
    · have hi : b.id ≤ s.lastId := h.issued
      have hid : s.lastId + 1 = b.id := by rw [← hid, List.mem_singleton.mp hm]
      rw [← hid] at hi
      exact absurd hi (Nat.not_succ_le_self _)

theorem clear (h : s.Tracks b present) (scope : BreakpointScope) :
    (s.clearBreakpoints scope).Tracks b (present ∧ b.location.isIn scope = false) := by
  refine ⟨h.issued, ?_, ?_⟩
  · rintro ⟨hp, hs⟩
    exact List.mem_filter.mpr ⟨h.mem hp, by simp [hs]⟩
  · intro a hm hid
    obtain ⟨hm, hs⟩ := List.mem_filter.mp hm
    obtain ⟨hp, rfl⟩ := h.only a hm hid
    exact ⟨⟨hp, by simpa using hs⟩, rfl⟩

/-- A check counts an arrival that counts, and reports it if the count is the right one. -/
theorem check (h : s.Tracks b present) (hb : b.IsParsed) {run : Run} {i : Interrupts}
    (hc : checked? catalog run s i = some c) :
    let counts := Event.counts b.location (b.condition.map Prod.fst) (.check c)
    (next catalog run s i).2.1.Tracks { b with hits := b.hits + if counts then 1 else 0 } present ∧
      (c.reports b.id = true ↔
        present ∧ counts = true ∧ b.hitCount.all (· == b.hits + 1) = true) := by
  intro counts
  obtain ⟨rfl, hr, hreports⟩ := checked?_some hc
  obtain ⟨hbs, hl⟩ := Prod.mk.inj (hr.trans (c.state.registered_looked c.script c.point))
  have hreached : c.state.reached c.script c.point b = if counts then
      ({ b with hits := b.hits + 1 }, b.hitCount.all (· == b.hits + 1)) else (b, false) :=
    c.reach_eq hb
  have hcounted : (c.state.reached c.script c.point b).1 =
      { b with hits := b.hits + if counts then 1 else 0 } := by
    rw [hreached]
    split <;> rfl
  have hfires : (c.state.reached c.script c.point b).2 = true ↔
      counts = true ∧ b.hitCount.all (· == b.hits + 1) = true := by
    rw [hreached]
    split
    · next hcount => simp [hcount]
    · next hcount => simp [hcount]
  refine ⟨⟨?_, ?_, ?_⟩, ?_⟩
  · rw [hl]
    exact h.issued
  · intro hp
    rw [hbs, ← hcounted]
    exact List.mem_map_of_mem (h.mem hp)
  · intro x hx hid
    rw [hbs] at hx
    obtain ⟨a, ha, rfl⟩ := List.mem_map.mp hx
    obtain ⟨hits, hfst⟩ := c.state.reached_fst c.script c.point a
    have hab : a.id = b.id := by simpa [hfst] using hid
    obtain ⟨hp, rfl⟩ := h.only a ha hab
    exact ⟨hp, hcounted⟩
  · rw [hreports, c.state.looked_fst, ← hfires]
    constructor
    · intro hm
      obtain ⟨a, hm, hid⟩ := List.mem_map.mp hm
      obtain ⟨ha, hf⟩ := List.mem_filter.mp hm
      obtain ⟨hp, rfl⟩ := h.only a ha hid
      exact ⟨hp, hf⟩
    · rintro ⟨hp, hf⟩
      exact List.mem_map.mpr ⟨b, List.mem_filter.mpr ⟨h.mem hp, hf⟩, rfl⟩

end State.Tracks

/-- What has been counted of a breakpoint in its life, and whether it has been cleared. -/
theorem Life.tracks (h : Life catalog s log t) {b : Breakpoint} (hb : b.IsParsed)
    (hs : s.Tracks { b with hits := 0 } True) :
    t.Tracks
      { b with hits := log.countP (Event.counts b.location (b.condition.map Prod.fst)) }
      (∀ e ∈ log, e.clears b.location = false) := by
  induction h with
  | rest => exact ⟨hs.issued, fun _ => hs.mem trivial, fun a ha hid => ⟨by simp, (hs.only a ha hid).2⟩⟩
  | @step log t run i h ih =>
    cases hc : checked? catalog run t i with
    | none =>
      have ht := ih.same (next_quiet catalog t (looks_of_checked? hc)).registered
      simpa using ht
    | some c =>
      have ht := (ih.check hb hc).1
      simp only [Option.map_some, Option.toList_some, List.countP_append, List.countP_singleton,
        List.forall_mem_append, List.forall_mem_singleton, Event.clears, and_true]
      exact ht
  | add _ ha ih => exact ih.add ha
  | clear scope _ ih =>
    have ht := ih.clear scope
    simp only [List.countP_append, List.countP_singleton, List.forall_mem_append,
      List.forall_mem_singleton, Event.clears, Event.counts]
    exact ht
  | other _ hm ih => exact ih.same (hm _)

/-- A breakpoint is reported at the arrivals that count, as long as it has not been cleared; with a
hit count, at that arrival and at no other. -/
theorem Life.reported_iff {s₀ : State} {earlier : List Event} {location : Location}
    {condition : Option String} {hitCount : Option Nat} {id : EngineId} (h₀ : s₀.breakpoints = [])
    (hs : Life catalog s₀ earlier s)
    (ha : s.addBreakpoint location condition hitCount = .ok (id, t))
    (h : Life catalog t (before ++ .check c :: after) u) :
    c.reports id = true ↔
      (∀ e ∈ before, e.clears location = false) ∧
        (Event.check c).counts location condition = true ∧
        hitCount.all (· == before.countP (Event.counts location condition) + 1) = true := by
  have hn : s.Numbered := hs.numbered fun b hb => by simp [h₀] at hb
  obtain ⟨parsed, rfl, hparsed, rfl, hr⟩ := addBreakpoint_ok ha
  obtain ⟨hb, hl⟩ := Prod.mk.inj hr
  let b : Breakpoint := ⟨s.lastId + 1, location, parsed, hitCount, 0⟩
  have ht : t.Tracks { b with hits := 0 } True := by
    refine ⟨Nat.le_of_eq hl.symm, fun _ => ?_, ?_⟩
    · rw [hb]
      exact List.mem_append_right _ (List.mem_singleton_self _)
    · intro a hm hid
      rw [hb] at hm
      rcases List.mem_append.mp hm with hm | hm
      · have hle : a.id ≤ s.lastId := hn a hm
        rw [hid] at hle
        exact absurd hle (Nat.not_succ_le_self _)
      · exact ⟨trivial, List.mem_singleton.mp hm⟩
  have hp : b.IsParsed := hparsed
  obtain ⟨run, v, i, hv, hc⟩ := h.split
  exact ((hv.tracks hp ht).check hp hc).2

/-- The operation is part of the life of an engine; at most it clears breakpoints. -/
def Lives {α : Type} (m : EngineM State α) : Prop :=
  ∀ (catalog : Catalog) (s : State) (log : List Event) (t : State), Life catalog s log t →
    ∃ cleared, Life catalog s (log ++ cleared) (m.run t).2 ∧
      ∀ e ∈ cleared, ∃ scope, e = .cleared scope

namespace Lives

variable {α β : Type}

theorem of_leavesRegistered {m : EngineM State α} (hm : LeavesRegistered m) : Lives m :=
  fun _ _ _ _ h => ⟨[], by simpa using h.other hm, List.forall_mem_nil _⟩

theorem bind {m : EngineM State α} {f : α → EngineM State β} (hm : Lives m)
    (hf : ∀ a, Lives (f a)) : Lives (m >>= f) := by
  intro catalog s log t h
  obtain ⟨cleared, hl, hc⟩ := hm catalog s log t h
  rw [EngineM.run_bind]
  rcases hr : m.run t with ⟨_ | a, v⟩
  · rw [hr] at hl
    exact ⟨cleared, hl, hc⟩
  · rw [hr] at hl
    obtain ⟨more, hl', hc'⟩ := hf a catalog s (log ++ cleared) v hl
    rw [List.append_assoc] at hl'
    exact ⟨cleared ++ more, hl', List.forall_mem_append.mpr ⟨hc, hc'⟩⟩

theorem add (location : Location) (condition : Option String) (hitCount : Option Nat) :
    Lives (answer (·.addBreakpoint location condition hitCount)) := by
  intro catalog s log t h
  refine ⟨[], ?_, List.forall_mem_nil _⟩
  rw [List.append_nil]
  simp only [answer, OptionT.run, OptionT.mk]
  cases ha : t.addBreakpoint location condition hitCount with
  | ok r => exact h.add ha
  | error e =>
    dsimp only
    cases e.report? <;> exact h

theorem clear (scope : BreakpointScope) : Lives (context.clearBreakpoints scope) :=
  fun _ _ _ _ h => ⟨[.cleared scope], h.clear scope, fun _ he => ⟨scope, List.mem_singleton.mp he⟩⟩

end Lives

theorem Observing.lives {α : Type} {m : EngineM State α} (hm : Observing m) : Lives m := by
  induction hm with
  | pure a => exact .of_leavesRegistered fun _ => rfl
  | bind _ _ ihm ihf => exact ihm.bind ihf
  | setLineBreakpoint path line column condition hitCount => exact .add _ condition hitCount
  | setCommandBreakpoint name condition hitCount => exact .add _ condition hitCount
  | clearBreakpoints scope => exact .clear scope
  | breakpoints scope => exact .of_leavesRegistered (.breakpoints scope)
  | callStack => exact .of_leavesRegistered .callStack
  | listVariables scope => exact .of_leavesRegistered (.listVariables scope)
  | lookupVariable scope name => exact .of_leavesRegistered (.lookupVariable scope name)
  | children reference => exact .of_leavesRegistered (.children reference)
  | evaluate scope expression => exact .of_leavesRegistered (.evaluate scope expression)
  | coerce value type => exact .of_leavesRegistered (.coerce value type)

/-- Whatever is done with the context is part of the life of the engine. -/
theorem Working.lives {α : Type} {m : EngineM State α} (hm : Working m) : Lives m := by
  induction hm with
  | observing hm => exact hm.lives
  | assign scope name value => exact .of_leavesRegistered (.assign scope name value)
  | bind _ _ ihm ihf => exact ihm.bind ihf

/-- A run that is left to itself: every halt is answered by going on. -/
def Run.continued (catalog : Catalog) : Nat → Run → State → List Event × State
  | 0, _, s => ([], s)
  | n + 1, run, s =>
    let event := ((checked? catalog run s {}).map .check).toList
    let (signal, t, _) := next catalog run s {}
    match signal with
    | .safePoint run | .paused _ run | .blocked run =>
      let (events, u) := continued catalog n run t
      (event ++ events, u)
    | .halted _ run =>
      let (events, u) := continued catalog n (run .continue) t
      (event ++ events, u)
    | .finished _ | .crashed => (event, t)

theorem Life.continued (h : Life catalog s log t) (n : Nat) (run : Run) :
    Life catalog s (log ++ (run.continued catalog n t).1) (run.continued catalog n t).2 := by
  induction n generalizing log t run with
  | zero => simpa [Run.continued] using h
  | succ n ih =>
    have hs := h.step run {}
    rw [Run.continued]
    rcases hn : next catalog run t {} with ⟨signal, u, i⟩
    rw [hn] at hs
    dsimp only
    cases signal with
    | safePoint r | paused _ r | blocked r | halted _ r =>
      dsimp only
      rw [← List.append_assoc]
      exact ih hs _
    | finished | crashed => exact hs

/-- A command that is carried out three times, with a breakpoint that has the hit count 2. -/
theorem Life.reported_iff_at_second :
    ∃ (catalog : Catalog) (t u : State) (id : EngineId) (before : List Event) (c : Check)
      (after : List Event),
      (State.initial [] []).addBreakpoint (.command "tick") none (some 2) = .ok (id, t) ∧
      Life catalog t (before ++ .check c :: after) u ∧ c.reports id = true ∧
      before.countP (Event.counts (.command "tick") none) + 1 = 2 := by
  let ticks : Program := { body := [.count 1 "$i" 1 3 [.command 2 "Tick"]] }
  let catalog : Catalog := { inlines := [("ticks", ticks)] }
  obtain ⟨t, ha⟩ : ∃ t, (State.initial [] []).addBreakpoint (.command "tick") none (some 2) =
      .ok (1, t) := ⟨_, rfl⟩
  have hlog : (((Run.launching (.inline "ticks")).continued catalog 12 t).1.any fun
      | .check c => c.reports 1
      | .cleared _ => false) = true := by
    cases ha
    cbv
  obtain ⟨e, he, hc⟩ := List.any_eq_true.mp hlog
  cases e with
  | cleared scope => cases hc
  | check c =>
    obtain ⟨before, after, hl⟩ := List.append_of_mem he
    have h := (Life.rest : Life catalog t [] t).continued 12 (.launching (.inline "ticks"))
    rw [List.nil_append, hl] at h
    have hi := Life.reported_iff rfl (.rest : Life catalog _ [] _) ha h
    obtain ⟨-, -, hn⟩ := hi.mp hc
    refine ⟨catalog, t, _, 1, before, c, after, ha, h, hc, ?_⟩
    simpa using hn.symm

end Stepwise.Script
