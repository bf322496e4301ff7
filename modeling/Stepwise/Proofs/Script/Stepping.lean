import Mathlib
import Stepwise.Proofs.Script.Undisturbed
import Stepwise.Proofs.Script.Working

namespace Stepwise
open Script

namespace Script

/-- What is gone on with when each of the functions that are being carried out returns, the
innermost first. -/
def returns : List Task → List (List Task)
  | [] => []
  | .leave :: rest => rest :: returns rest
  | _ :: rest => returns rest

/-- The activations are among these, with a frame for each of them and one for the script. -/
structure Nested (bound : List (List Task)) (tasks : List Task) (frames : List Frame) : Prop where
  suffix : returns tasks <:+ bound
  length : frames.length = (returns tasks).length + 1

/-- The activations while a function is carried out that the statement calls. -/
def Point.inside (p : Point) : List (List Task) :=
  p.tasks :: returns p.tasks

/-- The activations among which a run goes on after the statement. -/
def Point.onward (p : Point) : List (List Task) :=
  match p.effect with
  | .call _ _ => p.inside
  | _ => returns p.tasks

theorem Point.onward_suffix_inside (p : Point) : p.onward <:+ p.inside := by
  unfold onward
  split
  · exact List.suffix_rfl
  · exact List.suffix_cons _ _

/-- The next statement, with the activations that have not returned on the way to it. -/
inductive Arrives (bound : List (List Task)) : Arrival × List Frame → Prop
  | at {frames : List Frame} (p : Point) (nested : Nested bound p.tasks frames) :
    Arrives bound (.at p, frames)
  | resting {frames : List Frame} (tasks : List Task) (nested : Nested bound tasks frames) :
    Arrives bound (.resting tasks, frames)
  | done (frames : List Frame) : Arrives bound (.done, frames)

/-- Where a run gets to by going on. -/
inductive Goes (stepping : Stepping) (bound : List (List Task)) :
    Signal Run × State × Interrupts → Prop
  | safePoint {s : State} (script : Loaded) (p : Point) (i : Interrupts)
    (nested : Nested bound p.tasks s.frames) :
    Goes stepping bound (.safePoint (.checking script stepping p), s, i)
  | paused {s : State} (milliseconds : Nat) (script : Loaded) (tasks : List Task) (i : Interrupts)
    (nested : Nested bound tasks s.frames) :
    Goes stepping bound (.paused milliseconds (.running script stepping tasks), s, i)
  | finished (outcome : Outcome) (s : State) (i : Interrupts) :
    Goes stepping bound (.finished outcome, s, i)
  | crashed (s : State) (i : Interrupts) : Goes stepping bound (.crashed, s, i)

section

variable {bound : List (List Task)} {tasks : List Task} {frames : List Frame} {s t : State}
  {i j : Interrupts}

/-- On the way to the next statement functions return, and none is called. -/
theorem arrive_arrives (h : Nested bound tasks frames) : Arrives bound (arrive tasks frames) := by
  induction tasks, frames using arrive.induct with
  | case1 frames =>
    rw [arrive]
    exact .done frames
  | case2 rest frames ih =>
    rw [arrive]
    refine ih ⟨(List.suffix_cons rest (returns rest)).trans h.suffix, ?_⟩
    have hl := h.length
    rw [returns, List.length_cons] at hl
    rw [List.length_tail, hl]
    rfl
  | case3 line body rest frames =>
    rw [arrive]
    exact .resting _ ⟨h.suffix, h.length⟩
  | case4 line name next last body rest frames hle =>
    rw [arrive, if_pos hle]
    exact .at _ ⟨h.suffix, h.length⟩
  | case5 line name next last body rest frames hle ih =>
    rw [arrive, if_neg hle]
    exact ih ⟨h.suffix, h.length⟩
  | case6 rest frames ih =>
    rw [arrive]
    exact ih ⟨h.suffix, h.length⟩
  | case11 others rest frames line name first last body hle =>
    rw [arrive, if_pos hle]
    exact .at _ ⟨h.suffix, h.length⟩
  | case12 others rest frames line name first last body hle ih =>
    rw [arrive, if_neg hle]
    exact ih ⟨h.suffix, h.length⟩
  | case7 | case8 | case9 | case10 | case13 | case14 =>
    rw [arrive]
    exact .at _ ⟨h.suffix, h.length⟩

theorem proceed_goes (h : Nested bound tasks s.frames) (i : Interrupts) (script : Loaded)
    (stepping : Stepping) : Goes stepping bound (proceed s i script stepping tasks) := by
  unfold proceed
  have ha := arrive_arrives h
  generalize arrive tasks s.frames = arrival at ha ⊢
  cases ha with
  | «at» p nested => exact .safePoint script p i nested
  | resting tasks nested => exact .paused 1 script tasks i nested
  | done frames => exact .finished _ _ _

theorem ofExcept_eq_on {x : Except ScriptError State} {left : List Task}
    (h : Carried.ofExcept i left x = .on t j tasks) : x = .ok t ∧ tasks = left := by
  unfold Carried.ofExcept at h
  split at h
  · cases h
    exact ⟨rfl, rfl⟩
  · split at h <;> cases h

/-- A statement calls a function if it is a call. -/
theorem carryOut_nested {script : Loaded} {p : Point}
    (h : s.frames.length = (returns p.tasks).length + 1)
    (hc : s.carryOut script i p = .on t j tasks) : Nested p.onward tasks t.frames := by
  have goesOn : t.frames.length = s.frames.length → Nested (returns p.tasks) p.tasks t.frames :=
    fun ht => ⟨List.suffix_rfl, ht.trans h⟩
  unfold State.carryOut at hc
  unfold Point.onward
  generalize p.effect = effect at hc ⊢
  cases effect with
  | assign name expression declared =>
    obtain ⟨hx, rfl⟩ := ofExcept_eq_on hc
    obtain ⟨v, _, hx⟩ := Except.bind_eq_ok_iff.mp hx
    exact goesOn (State.length_frames_store hx)
  | set name value =>
    obtain ⟨hx, rfl⟩ := ofExcept_eq_on hc
    exact goesOn (State.length_frames_store hx)
  | pass =>
    cases hc
    exact goesOn rfl
  | command name =>
    dsimp only at hc
    split at hc
    · cases hc
      exact goesOn rfl
    · split at hc
      · cases hc
      · cases hc
        exact goesOn rfl
  | call function arguments =>
    dsimp only at hc
    split at hc
    · cases hc
    · obtain ⟨hx, rfl⟩ := ofExcept_eq_on hc
      obtain ⟨locals, _, hx⟩ := Except.bind_eq_ok_iff.mp hx
      cases hx
      exact ⟨List.suffix_rfl, congrArg (· + 1) h⟩

theorem execute_goes {p : Point} (h : s.frames.length = (returns p.tasks).length + 1)
    (i : Interrupts) (script : Loaded) (stepping : Stepping) :
    Goes stepping p.onward (execute s i script stepping p) := by
  unfold execute
  cases hc : s.carryOut script i p with
  | on t j tasks => exact proceed_goes (carryOut_nested h hc) j script stepping
  | failed message => exact .finished _ _ _
  | crashed => exact .crashed s i

theorem length_frames_reach (s : State) (path : Option Path) (line : Nat)
    (command : Option String) :
    ((s.noteLine line).reach path line command).2.frames.length = s.frames.length :=
  (s.noteLine_keeps line).1

/-- After a safe point a run is aborted, halts for one of three reasons, or goes on. -/
theorem check_eq (s : State) (i : Interrupts) (script : Loaded) (stepping : Stepping) (p : Point) :
    let reached := (s.noteLine p.line).reach script.path p.line p.command?
    let halt : Halt := ⟨script.path, p.line, 1, reached.1, script.remote⟩
    check s i script stepping p =
      if i.abortRequested then conclude s .aborted
      else if !reached.1.isEmpty || stepping.endsAt s.frames.length || i.breakRequested then
        (.halted halt (.resumed script p s.frames.length), { reached.2 with arena := [] },
          { i with breakRequested := false })
      else execute reached.2 i script stepping p := by
  have hl := length_frames_reach s script.path p.line p.command?
  unfold check
  dsimp only
  rw [hl]
  split
  · rfl
  · generalize ((s.noteLine p.line).reach script.path p.line p.command?).1.isEmpty = none
    cases none <;> cases stepping.endsAt s.frames.length <;> cases i.breakRequested <;> rfl

end
end Script

/-- A safe point that a run has passed: the statement after it, the number of frames, the
breakpoints that fire, and what is requested. -/
structure Visit where
  point : Point
  depth : Nat
  hits : List EngineId
  interrupts : Interrupts
  /-- How the run is told to go on if it halts; the answer to a halt may fail to come, since the
  handler's own work can take the engine's thread down. -/
  answer : Option (Option Resume)
deriving Repr

variable {catalog : Catalog} {η : Type}

namespace Visit

/-- What is gone on with when each of the activations returns, the innermost first. -/
def stack (v : Visit) : List (List Task) :=
  returns v.point.tasks

/-- It is among the activations, with a frame for each of them and one for the script. -/
structure Fits (v : Visit) (bound : List (List Task)) : Prop where
  suffix : v.stack <:+ bound
  depth : v.depth = v.stack.length + 1

/-- There is a reason to halt. -/
def ends (v : Visit) (stepping : Stepping) : Bool :=
  !v.hits.isEmpty || stepping.endsAt v.depth || v.interrupts.breakRequested

end Visit

namespace Progress

open Engine

/-- Breaks or aborts are requested by others. -/
def hear {E : Engine} (p : Progress E η) (i : Interrupts) : Progress E η :=
  { p with interrupts :=
    { breakRequested := i.breakRequested || p.interrupts.breakRequested
      abortRequested := i.abortRequested || p.interrupts.abortRequested } }

/-- How the handler answers the halt of the next step, if that is one. -/
def answer? {E : Engine} (handler : Handler E η) (p : Progress E η) : Option (Option Resume) :=
  match E.next p.run p.state p.interrupts with
  | (.halted halt _, s, i) => some ((handler.halt halt p.memory s i).map (·.1))
  | _ => none

/-- The safe point that the run has passed, if a statement is next. -/
def visit? (handler : Handler (scriptEngine catalog) η) (p : Progress (scriptEngine catalog) η) :
    Option Visit :=
  match (p.run : Run) with
  | .checking script _ point =>
    let s : State := p.state
    some
      { point
        depth := s.frames.length
        hits := ((s.noteLine point.line).reach script.path point.line point.command?).1
        interrupts := p.interrupts
        answer := p.answer? handler }
  | _ => none

/-- The safe points of a run in as many steps as there are requests, one before each step. -/
def visits (handler : Handler (scriptEngine catalog) η) (p : Progress (scriptEngine catalog) η) :
    List Interrupts → List Visit
  | [] => []
  | i :: heard =>
    ((p.hear i).visit? handler).toList ++
      match advance handler (p.hear i) with
      | .underway q => visits handler q heard
      | _ => []

/-- A run that is stepped through: its step, and the activations among which it goes on. -/
inductive Paces : Progress (scriptEngine catalog) η → Stepping → List (List Task) → Prop
  | launching (source : Source) (memory : η) (s : State) (i : Interrupts)
    (bound : List (List Task)) : Paces ⟨Run.launching source, memory, s, i⟩ .off bound
  | running {bound : List (List Task)} {tasks : List Task} {s : State} (script : Loaded)
    (stepping : Stepping) (memory : η) (i : Interrupts) (nested : Nested bound tasks s.frames) :
    Paces ⟨Run.running script stepping tasks, memory, s, i⟩ stepping bound
  | checking {bound : List (List Task)} {p : Point} {s : State} (script : Loaded)
    (stepping : Stepping) (memory : η) (i : Interrupts) (nested : Nested bound p.tasks s.frames) :
    Paces ⟨Run.checking script stepping p, memory, s, i⟩ stepping bound
  | resumed {p : Point} {s : State} (script : Loaded) (depth : Nat) (action : Resume) (memory : η)
    (i : Interrupts) (length : s.frames.length = (returns p.tasks).length + 1) :
    Paces ⟨Run.resumed script p depth action, memory, s, i⟩ (.after depth action) p.onward

variable {handler : Handler (scriptEngine catalog) η} {p q : Progress (scriptEngine catalog) η}
  {stepping : Stepping} {bound : List (List Task)} {v : Visit} {i : Interrupts}

theorem Paces.hear (hp : p.Paces stepping bound) (i : Interrupts) :
    (p.hear i).Paces stepping bound := by
  cases hp with
  | launching source memory s j => exact .launching ..
  | running script stepping memory j nested => exact .running _ _ _ _ nested
  | checking script stepping memory j nested => exact .checking _ _ _ _ nested
  | resumed script depth action memory j length => exact .resumed _ _ _ _ _ length

theorem paces_of_goes (h : handler.Works)
    (hg : Goes stepping bound ((scriptEngine catalog).next p.run p.state p.interrupts)) :
    p.answer? handler = none ∧ ∀ q, advance handler p = .underway q → q.Paces stepping bound := by
  unfold answer? advance
  generalize (scriptEngine catalog).next p.run p.state p.interrupts = signal at hg ⊢
  cases hg with
  | @safePoint s script point i nested =>
    refine ⟨rfl, fun q hq => ?_⟩
    cases ha : handler.safePoint p.memory s i with
    | none =>
      simp only [ha] at hq
      cases hq
    | some answer =>
      simp only [ha] at hq
      cases hq
      exact .checking _ _ _ _ ⟨nested.suffix, (h.safePoint_frames ha).trans nested.length⟩
  | paused milliseconds script tasks i nested =>
    refine ⟨rfl, fun q hq => ?_⟩
    cases hq
    exact .running _ _ _ _ nested
  | finished | crashed =>
    refine ⟨rfl, fun q hq => ?_⟩
    cases hq

/-- Between two safe points a run keeps its step. -/
theorem Paces.between (h : handler.Works) (hp : p.Paces stepping bound)
    (hv : p.visit? handler = none) :
    p.answer? handler = none ∧ ∀ q, advance handler p = .underway q → q.Paces stepping bound := by
  apply paces_of_goes h
  cases hp with
  | launching source memory s j =>
    change Goes .off bound (Script.next catalog (.launching source) s j)
    unfold Script.next
    dsimp only
    split
    · exact .finished _ _ _
    · next script arguments _ =>
      have hn : Nested bound [.block script.program.body] (s.enter script arguments).frames :=
        ⟨List.nil_suffix, rfl⟩
      exact proceed_goes hn ..
  | running script stepping memory j nested => exact proceed_goes nested ..
  | checking => cases hv
  | @resumed point s script depth action memory j length =>
    cases action with
    | abort => exact .finished _ _ _
    | _ => exact execute_goes (s := { s with arena := [] }) length ..

/-- A run that is to be aborted passes no more safe points. -/
theorem visits_of_abort {script : Loaded} {point : Point} {depth : Nat} {memory : η} {s : State}
    (heard : List Interrupts) :
    visits handler ⟨Run.resumed script point depth .abort, memory, s, i⟩ heard = [] := by
  cases heard <;> rfl

/-- How the statement after a safe point is dealt with. -/
inductive Treats (handler : Handler (scriptEngine catalog) η) (stepping : Stepping)
    (p : Progress (scriptEngine catalog) η) (v : Visit) : Prop
  | aborted (requested : v.interrupts.abortRequested = true) (unanswered : v.answer = none)
    (ended : ∀ q, advance handler p ≠ .underway q)
  | passed (unrequested : v.interrupts.abortRequested = false) (calm : v.ends stepping = false)
    (unanswered : v.answer = none)
    (on : ∀ q, advance handler p = .underway q → q.Paces stepping v.point.onward)
  | felled (unrequested : v.interrupts.abortRequested = false) (ends : v.ends stepping = true)
    (answered : v.answer = some none) (ended : ∀ q, advance handler p ≠ .underway q)
  | halted (action : Resume) (unrequested : v.interrupts.abortRequested = false)
    (ends : v.ends stepping = true) (answered : v.answer = some (some action))
    (on : ∀ q, advance handler p = .underway q → q.Paces (.after v.depth action) v.point.onward)
    (ended : action = .abort → ∀ q, advance handler p = .underway q →
      ∀ heard, q.visits handler heard = [])

theorem Paces.visit (h : handler.Works) (hp : p.Paces stepping bound)
    (hv : p.visit? handler = some v) : v.Fits bound ∧ Treats handler stepping p v := by
  cases hp with
  | launching | running | resumed => cases hv
  | @checking _ point s script _ memory i nested =>
    cases hv
    refine ⟨⟨nested.suffix, nested.length⟩, ?_⟩
    have hn : (scriptEngine catalog).next (Run.checking script stepping point) s i = _ :=
      check_eq s i script stepping point
    have hl := length_frames_reach s script.path point.line point.command?
    generalize (s.noteLine point.line).reach script.path point.line point.command? = reached
      at hn hl ⊢
    cases ha : i.abortRequested with
    | true =>
      rw [ha, if_pos rfl] at hn
      refine .aborted ha ?_ fun q => ?_
      · unfold answer?
        rw [hn]
        rfl
      · unfold advance
        rw [hn]
        nofun
    | false =>
      rw [if_neg (by simp [ha])] at hn
      split at hn
      · next hends =>
        let halt : Halt := ⟨script.path, point.line, 1, reached.1, script.remote⟩
        cases hr : handler.halt halt memory { reached.2 with arena := [] }
            { i with breakRequested := false } with
        | none =>
          refine .felled ha hends ?_ fun q hq => ?_
          · unfold answer?
            simp only [hn, halt, hr] at hr ⊢
            rfl
          · unfold advance at hq
            simp only [hn, halt, hr] at hr hq
            cases hq
        | some answer =>
          have hon {q : Progress (scriptEngine catalog) η}
              (hq : advance handler ⟨Run.checking script stepping point, memory, s, i⟩ =
                .underway q) :
              q = ⟨Run.resumed script point s.frames.length answer.1, answer.2.1, answer.2.2.1,
                answer.2.2.2⟩ := by
            unfold advance at hq
            simp only [hn, halt, hr] at hr hq
            cases hq
            rfl
          refine .halted answer.1 ha hends ?_ ?_ ?_
          · unfold answer?
            simp only [hn, halt, hr] at hr ⊢
            rfl
          · intro q hq
            rw [hon hq]
            exact .resumed _ _ _ _ _ ((h.halt_frames hr).trans (hl.trans nested.length))
          · intro hend q hq
            rw [hon hq, hend]
            exact visits_of_abort
      · next hends =>
        have hg : Goes stepping point.onward
            ((scriptEngine catalog).next (Run.checking script stepping point) s i) := by
          rw [hn]
          exact execute_goes (hl.trans nested.length) ..
        have hp := paces_of_goes (p := ⟨Run.checking script stepping point, memory, s, i⟩) h hg
        exact .passed ha (Bool.eq_false_iff.mpr hends) hp.1 hp.2

end Progress

/-- The safe points of a run that is stepped through. -/
inductive Paced : Stepping → List (List Task) → List Visit → Prop
  | nil (stepping : Stepping) (bound : List (List Task)) : Paced stepping bound []
  | aborted {stepping : Stepping} {bound : List (List Task)} {v : Visit} (fits : v.Fits bound)
    (requested : v.interrupts.abortRequested = true) (unanswered : v.answer = none) :
    Paced stepping bound [v]
  | passed {stepping : Stepping} {bound : List (List Task)} {v : Visit} {later : List Visit}
    (fits : v.Fits bound) (unrequested : v.interrupts.abortRequested = false)
    (calm : v.ends stepping = false) (unanswered : v.answer = none)
    (rest : Paced stepping v.point.onward later) : Paced stepping bound (v :: later)
  | felled {stepping : Stepping} {bound : List (List Task)} {v : Visit} (fits : v.Fits bound)
    (unrequested : v.interrupts.abortRequested = false) (ends : v.ends stepping = true)
    (answered : v.answer = some none) : Paced stepping bound [v]
  | halted {stepping : Stepping} {bound : List (List Task)} {v : Visit} {later : List Visit}
    {action : Resume} (fits : v.Fits bound) (unrequested : v.interrupts.abortRequested = false)
    (ends : v.ends stepping = true) (answered : v.answer = some (some action))
    (ended : action = .abort → later = [])
    (rest : Paced (.after v.depth action) v.point.onward later) : Paced stepping bound (v :: later)

/-- Every run is paced. -/
theorem Progress.Paces.visits {handler : Handler (scriptEngine catalog) η} (h : handler.Works)
    {p : Progress (scriptEngine catalog) η} {stepping : Stepping} {bound : List (List Task)}
    (hp : p.Paces stepping bound) (heard : List Interrupts) :
    Paced stepping bound (p.visits handler heard) := by
  induction heard generalizing p stepping bound with
  | nil => exact .nil stepping bound
  | cons i heard ih =>
    rw [Progress.visits]
    have hp := hp.hear i
    generalize p.hear i = p at hp ⊢
    cases hv : p.visit? handler with
    | none =>
      obtain ⟨_, hon⟩ := hp.between h hv
      rw [Option.toList_none, List.nil_append]
      split
      · next q hq => exact ih (hon q hq)
      · exact .nil stepping bound
    | some v =>
      obtain ⟨hfits, ht⟩ := hp.visit h hv
      rw [Option.toList_some, List.singleton_append]
      cases ht with
      | aborted requested unanswered ended =>
        split
        · next q hq => exact absurd hq (ended q)
        · exact .aborted hfits requested unanswered
      | passed unrequested calm unanswered on =>
        refine .passed hfits unrequested calm unanswered ?_
        split
        · next q hq => exact ih (on q hq)
        · exact .nil stepping v.point.onward
      | felled unrequested ends answered ended =>
        split
        · next q hq => exact absurd hq (ended q)
        · exact .felled hfits unrequested ends answered
      | halted action unrequested ends answered on ended =>
        refine .halted hfits unrequested ends answered ?_ ?_
        · intro ha
          split
          · next q hq => exact ended ha q hq heard
          · rfl
        · split
          · next q hq => exact ih (on q hq)
          · exact .nil _ v.point.onward

namespace Paced

variable {stepping : Stepping} {bound base whole : List (List Task)} {v u : Visit}
  {rest before since calm later : List Visit} {action : Resume}

theorem fits (h : Paced stepping bound (v :: rest)) : v.Fits bound := by
  cases h with
  | aborted fits => exact fits
  | passed fits => exact fits
  | felled fits => exact fits
  | halted fits => exact fits

/-- The rest is paced, and without a reason to halt at the same step. -/
theorem tail (h : Paced stepping bound (v :: rest)) :
    ∃ next, Paced next v.point.onward rest ∧ (v.ends stepping = false → next = stepping) := by
  cases h with
  | aborted fits requested unanswered => exact ⟨stepping, .nil _ _, fun _ => rfl⟩
  | passed fits unrequested calm unanswered rest => exact ⟨stepping, rest, fun _ => rfl⟩
  | felled fits unrequested ends answered => exact ⟨stepping, .nil _ _, fun _ => rfl⟩
  | halted fits unrequested ends answered ended rest =>
    refine ⟨_, rest, fun hc => ?_⟩
    rw [hc] at ends
    cases ends

theorem exists_suffix (h : Paced stepping bound (before ++ rest)) :
    ∃ next reached, Paced next reached rest := by
  induction before generalizing stepping bound with
  | nil => exact ⟨stepping, bound, h⟩
  | cons w before ih =>
    obtain ⟨next, ht, _⟩ := h.tail
    exact ih ht

/-- After a halt a run is paced by the answer alone. -/
theorem after (h : Paced stepping bound (before ++ v :: rest))
    (ha : v.answer = some (some action)) :
    (action = .abort → rest = []) ∧ Paced (.after v.depth action) v.point.onward rest := by
  obtain ⟨next, reached, h⟩ := h.exists_suffix
  cases h with
  | aborted fits requested unanswered =>
    rw [ha] at unanswered
    cases unanswered
  | passed fits unrequested calm unanswered rest =>
    rw [ha] at unanswered
    cases unanswered
  | felled fits unrequested ends answered =>
    rw [ha] at answered
    cases answered
  | halted fits unrequested ends answered ended rest =>
    obtain rfl := Option.some.inj (Option.some.inj (ha.symm.trans answered))
    exact ⟨ended, rest⟩

/-- A safe point at which an abort is requested is the last one. -/
theorem last (h : Paced stepping bound (before ++ v :: rest))
    (hv : v.interrupts.abortRequested = true) : rest = [] := by
  obtain ⟨next, reached, h⟩ := h.exists_suffix
  cases h with
  | aborted => rfl
  | passed fits unrequested => simp [hv] at unrequested
  | felled => rfl
  | halted fits unrequested => simp [hv] at unrequested

/-- The first safe point with a reason to halt is the first one at which the run halts. -/
theorem answer_isSome_iff (h : Paced stepping bound (calm ++ u :: later))
    (hc : ∀ w ∈ calm, w.ends stepping = false) :
    u.answer.isSome = true ↔ u.ends stepping = true ∧ u.interrupts.abortRequested = false := by
  induction calm generalizing bound with
  | nil =>
    cases h with
    | aborted fits requested unanswered => simp [requested, unanswered]
    | passed fits unrequested calm unanswered rest => simp [calm, unanswered]
    | felled fits unrequested ends answered => simp [unrequested, ends, answered]
    | halted fits unrequested ends answered ended rest => simp [unrequested, ends, answered]
  | cons w calm ih =>
    obtain ⟨next, ht, hn⟩ := h.tail
    obtain rfl := hn (hc w List.mem_cons_self)
    exact ih ht fun x hx => hc x (List.mem_cons_of_mem w hx)

/-- The number of frames tells whether activations have returned meanwhile. -/
theorem suffix_iff (h : Paced stepping bound (since ++ later)) (hb : base <:+ whole)
    (hw : bound <:+ whole) :
    (∀ w ∈ since, base <:+ w.stack) ↔ ∀ w ∈ since, base.length < w.depth := by
  induction since generalizing stepping bound whole with
  | nil => simp
  | cons w since ih =>
    have hf := h.fits
    have hd := hf.depth
    obtain ⟨next, ht, _⟩ := h.tail
    rw [List.forall_mem_cons, List.forall_mem_cons]
    have tails : base <:+ w.stack →
        ((∀ x ∈ since, base <:+ x.stack) ↔ ∀ x ∈ since, base.length < x.depth) := fun hs =>
      ih ht (hs.trans (List.suffix_cons _ _)) w.point.onward_suffix_inside
    constructor
    · rintro ⟨hs, hrest⟩
      have hle := hs.length_le
      exact ⟨by omega, (tails hs).mp hrest⟩
    · rintro ⟨hlt, hrest⟩
      have hs := List.suffix_of_suffix_length_le hb (hf.suffix.trans hw) (by omega)
      exact ⟨hs, (tails hs).mpr hrest⟩

end Paced

/-- The step that was asked for at a halt ends here. -/
def Visit.StepEnds (v : Visit) (action : Resume) (u : Visit) : Prop :=
  match action with
  | .stepIn => True
  | .stepOver => u.depth ≤ v.depth
  | .stepOut => u.depth < v.depth
  | .continue | .abort => False

/-- There is a reason to halt here, after a halt that was answered so. -/
def Visit.Due (v : Visit) (action : Resume) (u : Visit) : Prop :=
  u.hits ≠ [] ∨ u.interrupts.breakRequested = true ∨ v.StepEnds action u

/-- What a function does that the statement of `v` calls, and whatever that calls. -/
def Visit.Calls (v u : Visit) : Prop :=
  v.point.inside <:+ u.stack

/-- The activation of `v` has not returned. -/
def Visit.Holds (v u : Visit) : Prop :=
  v.stack <:+ u.stack

/-- How a run goes on from a halt that is answered with an action. -/
structure GoesOn (v : Visit) (action : Resume) (rest : List Visit) : Prop where
  /-- The first safe point that is due is the first halt. -/
  halts : ∀ calm u later, rest = calm ++ u :: later → (∀ w ∈ calm, ¬ v.Due action w) →
    (u.answer.isSome = true ↔ v.Due action u ∧ u.interrupts.abortRequested = false)
  /-- If none is due there is no other halt. -/
  quiet : (∀ u ∈ rest, ¬ v.Due action u) → ∀ u ∈ rest, u.answer = none
  aborted : action = .abort → rest = []
  last : ∀ before u later, rest = before ++ u :: later → u.interrupts.abortRequested = true →
    later = []
  /-- As long as the statement's call lasts there are more frames, and only so long. -/
  calls : ∀ since later, rest = since ++ later →
    ((∀ w ∈ since, v.Calls w) ↔ ∀ w ∈ since, v.depth < w.depth)
  /-- There are more frames only if the statement is a call. -/
  called : ∀ u later, rest = u :: later → v.depth < u.depth →
    ∃ function arguments, v.point.effect = .call function arguments
  /-- As long as the activation lasts there are as many frames or more, and only so long. -/
  holds : ∀ since later, rest = since ++ later →
    ((∀ w ∈ since, v.Holds w) ↔ ∀ w ∈ since, v.depth ≤ w.depth)
  /-- Stepping over a statement does not end in what it calls. -/
  overCalls : action = .stepOver → ∀ since u later, rest = since ++ u :: later →
    (∀ w ∈ since ++ [u], v.Calls w) → ¬ v.StepEnds action u
  /-- Stepping out does not end in the same activation. -/
  outOfActivation : action = .stepOut → ∀ since u later, rest = since ++ u :: later →
    (∀ w ∈ since ++ [u], v.Holds w) → ¬ v.StepEnds action u

theorem Visit.ends_iff_due (v u : Visit) (action : Resume) :
    u.ends (.after v.depth action) = true ↔ v.Due action u := by
  have hs : (Stepping.after v.depth action).endsAt u.depth = true ↔ v.StepEnds action u := by
    cases action <;> simp [Stepping.after, Stepping.endsAt, StepEnds]
  have hh : (!u.hits.isEmpty) = true ↔ u.hits ≠ [] := by simp
  rw [ends, Due, Bool.or_eq_true, Bool.or_eq_true, hs, hh, or_assoc,
    or_comm (a := v.StepEnds action u)]

theorem Paced.goes_on {v : Visit} {action : Resume} {rest : List Visit}
    (h : Paced (.after v.depth action) v.point.onward rest) (hv : v.depth = v.stack.length + 1)
    (ha : action = .abort → rest = []) : GoesOn v action rest := by
  have halts : ∀ calm u later, rest = calm ++ u :: later → (∀ w ∈ calm, ¬ v.Due action w) →
      (u.answer.isSome = true ↔ v.Due action u ∧ u.interrupts.abortRequested = false) := by
    rintro calm u later rfl hc
    rw [← v.ends_iff_due]
    refine h.answer_isSome_iff fun w hw => Bool.eq_false_iff.mpr fun he => ?_
    exact hc w hw ((v.ends_iff_due w action).mp he)
  have calls : ∀ since later, rest = since ++ later →
      ((∀ w ∈ since, v.Calls w) ↔ ∀ w ∈ since, v.depth < w.depth) := by
    rintro since later rfl
    rw [hv]
    exact h.suffix_iff List.suffix_rfl v.point.onward_suffix_inside
  have holds : ∀ since later, rest = since ++ later →
      ((∀ w ∈ since, v.Holds w) ↔ ∀ w ∈ since, v.depth ≤ w.depth) := by
    rintro since later rfl
    rw [hv]
    exact h.suffix_iff (List.suffix_cons _ _) v.point.onward_suffix_inside
  refine ⟨halts, ?_, ha, ?_, calls, ?_, holds, ?_, ?_⟩
  · intro hc u hu
    obtain ⟨calm, later, hr⟩ := List.append_of_mem hu
    have hi := halts calm u later hr fun w hw => hc w (by simp [hr, hw])
    rw [← Option.not_isSome_iff_eq_none, hi]
    exact fun hd => hc u hu hd.1
  · rintro before u later rfl hu
    exact h.last hu
  · rintro u later rfl hlt
    obtain ⟨hs, hd⟩ := h.fits
    have hle := hs.length_le
    unfold Point.onward at hle
    split at hle
    · next function arguments he => exact ⟨function, arguments, he⟩
    · have hv : v.depth = (returns v.point.tasks).length + 1 := hv
      omega
  · rintro rfl since u later hr hc hle
    rw [← List.singleton_append, ← List.append_assoc] at hr
    have hlt := (calls _ _ hr).mp hc u (by simp)
    exact Nat.not_le.mpr hlt hle
  · rintro rfl since u later hr hc hlt
    rw [← List.singleton_append, ← List.append_assoc] at hr
    have hle := (holds _ _ hr).mp hc u (by simp)
    exact Nat.not_le.mpr hlt hle

/-- In every run, whatever its handler does and whoever requests breaks meanwhile: after a halt the
next one is at the first safe point that is due, and being due by the number of frames is being due
by the calls of the script. -/
theorem Handler.Works.halts_where_due {handler : Handler (scriptEngine catalog) η}
    (h : handler.Works) (source : Source) (memory : η) (s : State) (i : Interrupts)
    (heard : List Interrupts) {before rest : List Visit} {v : Visit} {action : Resume}
    (hv : Progress.visits handler ⟨Run.launching source, memory, s, i⟩ heard = before ++ v :: rest)
    (ha : v.answer = some (some action)) : GoesOn v action rest := by
  have hp : Paced .off [] (before ++ v :: rest) := by
    rw [← hv]
    exact (Progress.Paces.launching source memory s i []).visits h heard
  obtain ⟨next, reached, hr⟩ := hp.exists_suffix
  obtain ⟨hend, hrest⟩ := hp.after ha
  exact hrest.goes_on hr.fits.depth hend

/-- Steps over every statement. -/
def Handler.striding (E : Engine) : Handler E Unit where
  safePoint _ s i := some ((), s, i)
  halt _ _ s i := some (.stepOver, (), s, i)

theorem Handler.striding_works (catalog : Catalog) : (striding (scriptEngine catalog)).Works where
  safePoint _ _ _ := ⟨pure (), .observing (.pure ()), rfl⟩
  halt _ _ _ _ := ⟨pure (), .observing (.pure ()), rfl⟩

/-- A step over a function that calls another one ends behind both. -/
theorem Handler.striding_halts :
    let nest : Program :=
      { body := [.command 1 waitCommand, .call 2 "f" [], .command 3 "Get-Date"]
        functions := [("f", [.call 10 "g" []]), ("g", [.command 20 "Get-Date"])] }
    let c : Catalog := { inlines := [("nest", nest)] }
    ∃ w v rest, (striding (scriptEngine c)).Works ∧
      Progress.visits (striding (scriptEngine c))
        ⟨Run.launching (.inline "nest"), (), .initial [] [], {}⟩ (List.replicate 7 {}) =
          [w] ++ v :: rest ∧
      v.answer = some (some .stepOver) ∧
      rest.map (fun u => (u.point.line, u.depth, u.answer)) =
        [(10, 2, none), (20, 3, none), (3, 1, some (some .stepOver))] ∧
      GoesOn v .stepOver rest := by
  intro nest c
  have hv : (Progress.visits (striding (scriptEngine c))
      ⟨Run.launching (.inline "nest"), (), .initial [] [], {}⟩ (List.replicate 7 {})).map
      (fun u => (u.point.line, u.depth, u.answer)) =
      [(1, 1, none), (2, 1, some (some .stepOver)), (10, 2, none), (20, 3, none),
        (3, 1, some (some .stepOver))] := by cbv
  obtain ⟨w, _, he, _, hv⟩ := List.map_eq_cons_iff.mp hv
  obtain ⟨v, rest, rfl, ha, hr⟩ := List.map_eq_cons_iff.mp hv
  have ha : v.answer = some (some .stepOver) := (Prod.mk.inj (Prod.mk.inj ha).2).2
  have hw := striding_works c
  have he : _ = [w] ++ v :: rest := he
  exact ⟨w, v, rest, hw, he, ha, hr, hw.halts_where_due _ _ _ _ _ he ha⟩

end Stepwise
