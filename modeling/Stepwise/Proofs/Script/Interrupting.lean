import Stepwise.Proofs.Engine.Strides
import Stepwise.Proofs.Script.Concluding
import Stepwise.Proofs.Script.Registered

namespace Stepwise
open Script Engine

namespace Script

variable {catalog : Catalog} {s t : State} {i j : Interrupts} {run : Run} {p : Point}

/-- The statement that a run may carry out in its next step. -/
def Run.statement? : Run → Option Point
  | .checking _ _ p | .resumed _ p _ _ => some p
  | _ => none

/-- The statement requests a break. -/
def Point.Waits (p : Point) : Prop :=
  ∃ name, p.effect = .command name ∧ Text.sameName name waitCommand = true

theorem Carried.interrupts_ofExcept {tasks rest : List Task} {x : Except ScriptError State}
    (h : Carried.ofExcept i tasks x = .on t j rest) : j = i := by
  cases x with
  | ok s =>
    cases h
    rfl
  | error e =>
    simp only [Carried.ofExcept] at h
    split at h <;> cases h

/-- A statement makes no other request than a break, and takes none back. -/
theorem State.interrupts_carryOut {script : Loaded} {tasks : List Task}
    (h : s.carryOut script i p = .on t j tasks) :
    j = i ∨ j = { i with breakRequested := true } ∧ p.Waits := by
  unfold carryOut at h
  unfold Point.Waits
  generalize p.effect = effect at h ⊢
  cases effect with
  | assign | set => exact .inl (Carried.interrupts_ofExcept h)
  | pass =>
    cases h
    exact .inl rfl
  | command name =>
    dsimp only at h
    split at h
    · next hw =>
      cases h
      exact .inr ⟨rfl, name, rfl, hw⟩
    · split at h
      · cases h
      · cases h
        exact .inl rfl
  | call function arguments =>
    dsimp only at h
    split at h
    · cases h
    · exact .inl (Carried.interrupts_ofExcept h)

theorem break_of_proceed {script : Loaded} {stepping : Stepping} {tasks : List Task}
    (h : (proceed s i script stepping tasks).2.2.breakRequested = true) :
    i.breakRequested = true := by
  unfold proceed at h
  split at h
  · exact h
  · exact h
  · cases h

theorem break_of_execute {script : Loaded} {stepping : Stepping}
    (h : (execute s i script stepping p).2.2.breakRequested = true) :
    i.breakRequested = true ∨ p.Waits := by
  unfold execute at h
  split at h
  · next hc =>
    rcases State.interrupts_carryOut hc with rfl | ⟨_, hw⟩
    · exact .inl (break_of_proceed h)
    · exact .inr hw
  · cases h
  · exact .inl h

/-- A break that is requested after a step was so before it, or the statement requests it. -/
theorem break_of_next (h : (next catalog run s i).2.2.breakRequested = true) :
    i.breakRequested = true ∨ ∃ p, run.statement? = some p ∧ p.Waits := by
  cases run with
  | launching source =>
    simp only [next] at h
    split at h
    · exact .inl h
    · exact .inl (break_of_proceed h)
  | running script stepping tasks => exact .inl (break_of_proceed h)
  | checking script stepping p =>
    rw [next, check_eq] at h
    split at h
    · cases h
    · split at h
      · cases h
      · exact (break_of_execute h).imp_right fun hw => ⟨p, rfl, hw⟩
  | resumed script p depth action =>
    cases action with
    | abort => cases h
    | «continue» | stepOver | stepIn | stepOut =>
      exact (break_of_execute h).imp_right fun hw => ⟨p, rfl, hw⟩

theorem State.halts_iff {script : Loaded} {stepping : Stepping} :
    s.halts script stepping p i = true ↔ (s.looked script p).1 ≠ [] ∨
      stepping.endsAt s.frames.length = true ∨ i.breakRequested = true := by
  rw [halts, Bool.or_eq_true, Bool.or_eq_true, or_assoc]
  simp

/-- A break that is requested alone halts a run that has passed a safe point. -/
theorem check_of_break (s : State) (script : Loaded) (stepping : Stepping) (p : Point) :
    check s { breakRequested := true } script stepping p =
      (.halted ⟨script.path, p.line, 1, (s.looked script p).1, script.remote⟩
        (.resumed script p s.frames.length), { (s.looked script p).2 with arena := [] }, {}) := by
  rw [check_eq, if_neg (by simp), if_pos (by simp)]
  rfl

end Script

section

variable {catalog : Catalog} {η : Type} {handler : Handler (scriptEngine catalog) η}
  {p q : Progress (scriptEngine catalog) η} {x : Stride (scriptEngine catalog) η}
  {i j : Interrupts} {l heard : List Interrupts} {script : Loaded} {stepping : Stepping}
  {point : Point}

/-- What is requested when the script has done its part of the step. -/
def Progress.pending (p : Progress (scriptEngine catalog) η) : Interrupts :=
  ((scriptEngine catalog).next p.run p.state p.interrupts).2.2

/-- Where a run is after a step tells what its handler was called for. -/
inductive Progress.Steps (p q : Progress (scriptEngine catalog) η) : Prop
  | safePoint (demanded : p.demand? = some .safePoint) {script : Loaded} {stepping : Stepping}
    {point : Point} (run : q.run = Run.checking script stepping point)
  | halted {halt : Halt} (demanded : p.demand? = some (.halt halt)) {script : Loaded}
    {point : Point} {depth : Nat} {action : Resume}
    (run : q.run = Run.resumed script point depth action)
  | paused (undemanded : p.demand? = none) {script : Loaded} {stepping : Stepping}
    {tasks : List Task} (run : q.run = Run.running script stepping tasks)

theorem steps_of_advance (h : advance handler p = .underway q) : p.Steps q := by
  rcases hn : (scriptEngine catalog).next p.run p.state p.interrupts with ⟨signal, t, j⟩
  rw [advance, hn] at h
  by_cases hf : Run.Found catalog p.run
  · have hs : Settles (signal, t, j) := hn ▸ next_settles hf p.state p.interrupts
    cases hs with
    | safePoint script stepping point =>
      dsimp only at h
      split at h
      · cases h
        exact .safePoint (by rw [Progress.demand?, hn]) rfl
      · cases h
    | paused milliseconds script stepping tasks =>
      cases h
      exact .paused (by rw [Progress.demand?, hn]) rfl
    | halted halt script point depth =>
      dsimp only at h
      split at h
      · cases h
        exact .halted (by rw [Progress.demand?, hn]) rfl
      · cases h
    | finished | crashed => cases h
  · simp only [Run.Found, not_forall, not_not] at hf
    obtain ⟨source, message, hrun, hm⟩ := hf
    have hl : (scriptEngine catalog).next p.run p.state p.interrupts =
        (.finished (.failed message), p.state, p.interrupts) := by
      rw [hrun]
      simp only [scriptEngine, Script.next, hm]
    cases hn.symm.trans hl
    cases h

theorem halt_of_demand {halt : Halt} (h : p.demand? = some (.halt halt)) :
    ∃ script stepping point, p.run = Run.checking script stepping point ∧
      (halt.breakpoints ≠ [] ∨ stepping.endsAt (State.frames p.state).length = true ∨
        p.interrupts.breakRequested = true) := by
  have hn : (next catalog p.run p.state p.interrupts).1.halt? = some halt := by
    unfold Progress.demand? at h
    split at h
    · cases h
    · next hn =>
      cases h
      rw [show next catalog p.run p.state p.interrupts = _ from hn]
      rfl
    · cases h
  cases hl : Run.looks p.run p.interrupts with
  | false => cases (next_quiet catalog p.state hl).halt?.symm.trans hn
  | true =>
    obtain ⟨script, stepping, point, hrun, ha⟩ := Run.exists_of_looks hl
    rw [show p.run = Run.checking script stepping point from hrun,
      (next_checking catalog p.state script stepping point ha).1] at hn
    obtain ⟨hh, he⟩ := Option.ite_none_right_eq_some.mp hn
    cases he
    exact ⟨script, stepping, point, hrun, State.halts_iff.mp hh⟩

namespace Engine.Stride

/-- In the step a break is requested, by the statement that it carries out or by the handler. -/
inductive Raises (x : Stride (scriptEngine catalog) η) : Prop
  | statement {point : Point} (carried : Run.statement? x.found.run = some point)
    (waits : point.Waits) (requested : x.found.pending.breakRequested = true)
  | handler {q : Progress (scriptEngine catalog) η}
    (unrequested : x.found.pending.breakRequested = false) (left : x.left = .underway q)
    (requested : q.interrupts.breakRequested = true)

/-- The step that the run was told to take ends at the safe point that it has passed. -/
def StepEnds (x : Stride (scriptEngine catalog) η) : Prop :=
  ∃ script stepping point, x.found.run = Run.checking script stepping point ∧
    stepping.endsAt (State.frames x.found.state).length = true

theorem raises_of_break (hx : x.left = .underway q)
    (hb : x.found.interrupts.breakRequested = false) (hq : q.interrupts.breakRequested = true) :
    x.Raises := by
  cases hn : x.found.pending.breakRequested with
  | false => exact .handler hn hx hq
  | true =>
    rcases break_of_next hn with hi | ⟨point, hp, hw⟩
    · rw [hb] at hi
      cases hi
    · exact .statement hp hw hn

end Engine.Stride

/-- A request to break that is pending was made since there was none. -/
theorem exists_raise (h : driveHearing handler p l = .underway q)
    (hp : p.interrupts.breakRequested = false) (hq : q.interrupts.breakRequested = true) :
    ∃ x ∈ strides handler p l, x.heard.breakRequested = true ∨ x.Raises := by
  induction l generalizing p with
  | nil =>
    cases h
    rw [hp] at hq
    cases hq
  | cons i l ih =>
    obtain ⟨r, hr, h⟩ := driveHearing_cons_iff.mp h
    rw [strides_cons hr]
    have hf : (p.hear i).interrupts.breakRequested = i.breakRequested := by
      rw [Progress.hear, hp, Bool.or_false]
    cases hi : i.breakRequested with
    | true => exact ⟨_, List.mem_cons_self, .inl hi⟩
    | false =>
      cases hb : r.interrupts.breakRequested with
      | true => exact ⟨_, List.mem_cons_self, .inr (Stride.raises_of_break rfl (hf.trans hi) hb)⟩
      | false =>
        obtain ⟨x, hx, hraise⟩ := ih h hb
        exact ⟨x, List.mem_cons_of_mem _ hx, hraise⟩

namespace Engine.Stride

/-- The run halts at the safe point that it has passed, and goes on as its handler answers, if that
does not take the thread down; the handler does not find the request any more. -/
def Halts (handler : Handler (scriptEngine catalog) η) (q : Progress (scriptEngine catalog) η)
    (x : Stride (scriptEngine catalog) η) : Prop :=
  ∃ script stepping point, q.run = Run.checking script stepping point ∧
    let halt : Halt :=
      ⟨script.path, point.line, 1, (State.looked q.state script point).1, script.remote⟩
    x.found.demand? = some (.halt halt) ∧
    x.left =
      match handler.halt halt q.memory
        { (State.looked q.state script point).2 with arena := [] } {} with
      | some (action, memory, state, interrupts) =>
        .underway ⟨Run.resumed script point (State.frames q.state).length action, memory, state,
          interrupts⟩
      | none => .crashed q.memory

/-- The halts after the step are at other safe points, and each has a reason of its own: a
breakpoint fires, a step ends, or another break was requested. -/
def OnlyHalt (x : Stride (scriptEngine catalog) η)
    (rest : List (Stride (scriptEngine catalog) η)) : Prop :=
  ∀ before y after halt, rest = before ++ y :: after → y.found.demand? = some (.halt halt) →
    (∃ z, before.getLast? = some z ∧ z.found.demand? = some .safePoint) ∧
      (halt.breakpoints ≠ [] ∨ y.StepEnds ∨ y.heard.breakRequested = true ∨ x.Raises ∨
        ∃ z ∈ before, z.heard.breakRequested = true ∨ z.Raises)

end Engine.Stride

theorem onlyHalt_strides (hx : x.left = .underway q) {depth : Nat} {action : Resume}
    (hrun : q.run = Run.resumed script point depth action)
    (hn : x.found.pending.breakRequested = false) (l : List Interrupts) :
    x.OnlyHalt (strides handler q l) := by
  intro before y after halt hsplit hdemand
  obtain ⟨l, r, m, rfl, rfl, hl, hy, _⟩ := split_strides hsplit
  obtain ⟨script', stepping', point', hrun', hreason⟩ := halt_of_demand hdemand
  have hat : r.run = Run.checking script' stepping' point' := by
    rw [hy] at hrun'
    exact hrun'
  refine ⟨?_, ?_⟩
  · -- The step before has left the run at a safe point, so it is not the one that halted.
    rcases last_of_driveHearing hl with ⟨_, rfl⟩ | ⟨z, hz, hadvance⟩
    · cases hrun.symm.trans hat
    · refine ⟨z, hz, ?_⟩
      cases steps_of_advance hadvance with
      | safePoint demanded => exact demanded
      | halted _ run => cases run.symm.trans hat
      | paused _ run => cases run.symm.trans hat
  · rcases hreason with hb | hs | hi
    · exact .inl hb
    · exact .inr (.inl ⟨script', stepping', point', hrun', hs⟩)
    · rw [hy, Progress.hear, Bool.or_eq_true] at hi
      rcases hi with hi | hi
      · exact .inr (.inr (.inl hi))
      · cases hb : q.interrupts.breakRequested with
        | true => exact .inr (.inr (.inr (.inl (.handler hn hx hb))))
        | false => exact .inr (.inr (.inr (.inr (exists_raise hl hb hi))))

/-- A run that is to be aborted ends without another call of its handler. -/
theorem ends_of_abort (handler : Handler (scriptEngine catalog) η)
    (hrun : q.run = Run.checking script stepping point)
    (ha : (q.hear i).interrupts.abortRequested = true) (l : List Interrupts) :
    demands handler q (i :: l) = [] ∧ driveHearing handler q (i :: l) =
      .finished .aborted q.memory { (q.state : State) with frames := [], arena := [] } {} := by
  have hn : (scriptEngine catalog).next (q.hear i).run (q.hear i).state (q.hear i).interrupts =
      conclude q.state .aborted := by
    rw [show (q.hear i).run = Run.checking script stepping point from hrun]
    exact (check_eq q.state _ script stepping point).trans (if_pos ha)
  have hadvance : advance handler (q.hear i) =
      .finished .aborted q.memory { (q.state : State) with frames := [], arena := [] } {} := by
    rw [advance, hn]
    rfl
  refine ⟨?_, ?_⟩
  · have hd : (q.hear i).demand? = none := by
      rw [Progress.demand?, hn]
      rfl
    simp [demands, strides, hadvance, hd]
  · rw [driveHearing, hadvance]

/-- A run for which a break is requested halts where it is. -/
theorem halts_of_break (handler : Handler (scriptEngine catalog) η)
    (hrun : q.run = Run.checking script stepping point)
    (hb : (q.hear i).interrupts = { breakRequested := true }) (l : List Interrupts) :
    ∃ x rest, strides handler q (i :: l) = x :: rest ∧ x.Halts handler q ∧ x.OnlyHalt rest := by
  let halt : Halt := ⟨script.path, point.line, 1, (State.looked q.state script point).1,
    script.remote⟩
  have hn : (scriptEngine catalog).next (q.hear i).run (q.hear i).state (q.hear i).interrupts =
      (.halted halt (Run.resumed script point (State.frames q.state).length),
        { (State.looked q.state script point).2 with arena := [] }, {}) := by
    rw [show (q.hear i).run = Run.checking script stepping point from hrun, hb]
    exact check_of_break q.state script stepping point
  have hd : (q.hear i).demand? = some (.halt halt) := by
    rw [Progress.demand?, hn]
  have hadvance : advance handler (q.hear i) =
      match handler.halt halt q.memory
        { (State.looked q.state script point).2 with arena := [] } {} with
      | some (action, memory, state, interrupts) =>
        .underway ⟨Run.resumed script point (State.frames q.state).length action, memory, state,
          interrupts⟩
      | none => .crashed q.memory := by
    rw [advance, hn, show (q.hear i).memory = q.memory from rfl]
    dsimp only
    cases handler.halt halt q.memory
      { (State.looked q.state script point).2 with arena := [] } {} <;> rfl
  refine ⟨⟨i, q.hear i, advance handler (q.hear i)⟩, _, strides.eq_2 ..,
    ⟨script, stepping, point, hrun, hd, hadvance⟩, ?_⟩
  split at hadvance
  · next action memory state interrupts _ =>
    rw [hadvance]
    refine onlyHalt_strides rfl rfl ?_ l
    rw [Progress.pending, hn]
  · rw [hadvance]
    exact fun before y after _ hsplit => absurd hsplit (by simp)

end

/-- Whatever a script does, and whatever its handler and others do: a request to abort that is made
at a safe point ends the run there, with a break or without one, and a break alone halts it there,
once. -/
theorem Handler.safePoint_requests {catalog : Catalog} {η : Type}
    (handler : Handler (scriptEngine catalog) η) (source : Source) (memory : η) (s : State)
    (i : Interrupts) {heard : List Interrupts} {q : Progress (scriptEngine catalog) η}
    {x : Stride (scriptEngine catalog) η}
    (hq : driveHearing handler ⟨Run.launching source, memory, s, i⟩ heard = .underway q)
    (hx : (strides handler ⟨Run.launching source, memory, s, i⟩ heard).getLast? = some x)
    (hd : x.found.demand? = some .safePoint) (j : Interrupts) (later : List Interrupts) :
    ((q.hear j).interrupts.abortRequested = true →
      demands handler ⟨Run.launching source, memory, s, i⟩ (heard ++ j :: later) =
        demands handler ⟨Run.launching source, memory, s, i⟩ heard ∧
      driveHearing handler ⟨Run.launching source, memory, s, i⟩ (heard ++ j :: later) =
        .finished .aborted q.memory { (q.state : State) with frames := [], arena := [] } {}) ∧
    ((q.hear j).interrupts = { breakRequested := true } → ∃ y rest,
      strides handler ⟨Run.launching source, memory, s, i⟩ (heard ++ j :: later) =
        strides handler ⟨Run.launching source, memory, s, i⟩ heard ++ y :: rest ∧
      y.Halts handler q ∧ y.OnlyHalt rest) := by
  obtain ⟨script, stepping, point, hrun⟩ :
      ∃ script stepping point, q.run = Run.checking script stepping point := by
    rcases last_of_driveHearing hq with ⟨rfl, _⟩ | ⟨z, hz, hadvance⟩
    · cases hx
    · obtain rfl := Option.some.inj (hz.symm.trans hx)
      cases steps_of_advance hadvance with
      | safePoint _ run => exact ⟨_, _, _, run⟩
      | halted demanded => cases demanded.symm.trans hd
      | paused undemanded => cases undemanded.symm.trans hd
  refine ⟨fun ha => ?_, fun hb => ?_⟩
  · obtain ⟨hcalls, hend⟩ := ends_of_abort handler hrun ha later
    refine ⟨?_, (driveHearing_append hq _).trans hend⟩
    rw [demands, strides_append hq, List.filterMap_append, ← demands, ← demands, hcalls,
      List.append_nil]
  · obtain ⟨y, rest, hy, hhalts, hother⟩ := halts_of_break handler hrun hb later
    exact ⟨y, rest, by rw [strides_append hq, hy], hhalts, hother⟩

/-- In a count in a function that a loop calls: an abort wins over a break that is requested there
too, and a break alone halts the run. -/
theorem Handler.safePoint_requests_in_function :
    let nest : Program :=
      { body := [.loop 1 [.call 2 "f" []]]
        functions := [("f", [.count 3 "$i" 1 2 [.command 4 "Get-Date"]])] }
    let c : Catalog := { inlines := [("nest", nest)] }
    let start : Progress (scriptEngine c) Nat :=
      ⟨Run.launching (.inline "nest"), 0, .initial [] [], {}⟩
    let passed : List Interrupts := List.replicate 4 {}
    ∃ q, driveHearing (haltCounter c) start passed = .underway q ∧
      (State.frames q.state).length = 2 ∧
      demands (haltCounter c) start (passed ++ [⟨true, true⟩]) = List.replicate 4 .safePoint ∧
      driveHearing (haltCounter c) start (passed ++ [⟨true, true⟩]) =
        .finished .aborted q.memory { (q.state : State) with frames := [], arena := [] } {} ∧
      ∃ y rest, strides (haltCounter c) start (passed ++ ⟨true, false⟩ :: passed) =
          strides (haltCounter c) start passed ++ y :: rest ∧
        y.Halts (haltCounter c) q ∧ y.OnlyHalt rest := by
  intro nest c start passed
  have hq : (driveHearing (haltCounter c) start passed).progress?.map
      (fun q => ((State.frames q.state).length, q.interrupts)) = some (2, {}) := by cbv
  have hx : (strides (haltCounter c) start passed).getLast?.any
      (·.found.demand? == some .safePoint) = true := by cbv
  have hd : demands (haltCounter c) start passed = List.replicate 4 .safePoint := by cbv
  obtain ⟨q, hdrive, hq⟩ := Option.map_eq_some_iff.mp hq
  have hdrive := Drive.progress?_eq_some_iff.mp hdrive
  have hframes : (State.frames q.state).length = 2 := congrArg Prod.fst hq
  have hi : q.interrupts = {} := congrArg Prod.snd hq
  obtain ⟨x, hx, hsafe⟩ := (Option.any_eq_true _ _).mp hx
  have obeys := Handler.safePoint_requests (haltCounter c) (.inline "nest") 0 (.initial [] []) {}
    hdrive hx (beq_iff_eq.mp hsafe)
  obtain ⟨hcalls, hend⟩ := (obeys ⟨true, true⟩ []).1 rfl
  refine ⟨q, hdrive, hframes, hcalls.trans hd, hend, ?_⟩
  exact (obeys ⟨true, false⟩ passed).2 (by simp [Progress.hear, hi])

end Stepwise
