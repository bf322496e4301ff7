import Mathlib
import Stepwise.Proofs.Script.Observing
import Stepwise.Proofs.Script.Undisturbed
import Stepwise.Script.Samples

namespace Stepwise
open Script

variable {catalog : Catalog} {η : Type}

/-- Works through the context and assigns nothing, at safe points and at halts; it has no answer if
its work takes the engine's thread down.  It may go on from a halt as it likes, change breakpoints,
and request breaks or to abort. -/
structure Handler.Reads (handler : Handler (scriptEngine catalog) η) : Prop where
  safePoint (memory : η) (s : State) (i : Interrupts) :
    ∃ work : EngineM State Unit, Observing work ∧
      (handler.safePoint memory s i).map (·.2.1) = work.left? s
  halt (halt : Halt) (memory : η) (s : State) (i : Interrupts) :
    ∃ work : EngineM State Unit, Observing work ∧
      (handler.halt halt memory s i).map (·.2.2.1) = work.left? s

theorem Script.Observing.alike_of_left? {work : EngineM State Unit} (h : Observing work)
    {s t : State} (ht : work.left? s = some t) : s.Alike t := by
  obtain ⟨_, _, rfl⟩ := Option.map_eq_some_iff.mp ht
  exact h.leavesAlike s

namespace Handler.Reads

variable {handler : Handler (scriptEngine catalog) η} {memory : η} {s : State} {i : Interrupts}

theorem safePoint_alike (h : handler.Reads) {answer : η × State × Interrupts}
    (ha : handler.safePoint memory s i = some answer) : s.Alike answer.2.1 := by
  obtain ⟨work, hw, he⟩ := h.safePoint memory s i
  rw [ha] at he
  exact hw.alike_of_left? he.symm

theorem halt_alike (h : handler.Reads) {halt : Halt} {answer : Resume × η × State × Interrupts}
    (ha : handler.halt halt memory s i = some answer) : s.Alike answer.2.2.1 := by
  obtain ⟨work, hw, he⟩ := h.halt halt memory s i
  rw [ha] at he
  exact hw.alike_of_left? he.symm

end Handler.Reads

/-- Observes at safe points and at halts, assigns nothing and never aborts.  It may step, change
breakpoints and request breaks as it likes. -/
structure Handler.Observes (handler : Handler (scriptEngine catalog) η) : Prop
    extends handler.Reads where
  safePoint_abort {memory : η} {s : State} {i : Interrupts} {answer : η × State × Interrupts} :
    handler.safePoint memory s i = some answer → answer.2.2.abortRequested = i.abortRequested
  halt_abort {halt : Halt} {memory : η} {s : State} {i : Interrupts}
    {answer : Resume × η × State × Interrupts} :
    handler.halt halt memory s i = some answer → answer.2.2.2.abortRequested = i.abortRequested
  goesOn {halt : Halt} {memory : η} {s : State} {i : Interrupts}
    {answer : Resume × η × State × Interrupts} :
    handler.halt halt memory s i = some answer → answer.1 ≠ .abort

/-- Does some work at every safe point, and some at every halt, before it goes on in one way. -/
def Handler.routine (catalog : Catalog) (atSafePoint atHalt : EngineM State Unit)
    (request : Interrupts → Interrupts) (action : Resume) : Handler (scriptEngine catalog) Unit where
  safePoint _ s i := (atSafePoint.left? s).map fun s => ((), s, request i)
  halt _ _ s i := (atHalt.left? s).map fun s => (action, (), s, i)

theorem Handler.routine_observes {atSafePoint atHalt : EngineM State Unit}
    (hs : Observing atSafePoint) (hh : Observing atHalt) {request : Interrupts → Interrupts}
    (hr : ∀ i, (request i).abortRequested = i.abortRequested) {action : Resume}
    (ha : action ≠ .abort) :
    (Handler.routine catalog atSafePoint atHalt request action).Observes where
  safePoint _ s _ := ⟨atSafePoint, hs, (Option.map_map ..).trans Option.map_id'⟩
  halt _ _ s _ := ⟨atHalt, hh, (Option.map_map ..).trans Option.map_id'⟩
  safePoint_abort h := by
    obtain ⟨_, _, rfl⟩ := Option.map_eq_some_iff.mp h
    exact hr _
  halt_abort h := by
    obtain ⟨_, _, rfl⟩ := Option.map_eq_some_iff.mp h
    rfl
  goesOn h := by
    obtain ⟨_, _, rfl⟩ := Option.map_eq_some_iff.mp h
    exact ha

/-- Does nothing, and goes on if the run halts. -/
def Handler.idle (E : Engine) : Handler E Unit where
  safePoint _ s i := some ((), s, i)
  halt _ _ s i := some (.continue, (), s, i)

theorem Handler.idle_observes : (Handler.idle (scriptEngine catalog)).Observes :=
  routine_observes (.pure ()) (.pure ()) (fun _ => rfl) (nofun : Resume.continue ≠ .abort)

/-- Sets a breakpoint and asks for a break at every safe point, lists the global variables at every
halt, and steps. -/
def Handler.prying (catalog : Catalog) : Handler (scriptEngine catalog) Unit :=
  .routine catalog
    (do
      let _ ← context.setLineBreakpoint ⟨"/a.ps1"⟩ 2 none none none
      pure ())
    (do
      let _ ← context.listVariables .global
      pure ())
    (fun i => { i with breakRequested := true }) .stepIn

theorem Handler.prying_observes (catalog : Catalog) : (Handler.prying catalog).Observes := by
  apply routine_observes
  · exact .bind (.setLineBreakpoint ..) fun _ => .pure ()
  · exact .bind (.listVariables _) fun _ => .pure ()
  · exact fun _ => rfl
  · exact nofun

namespace Progress

/-- The safe point that a run has just passed. -/
def passage? (p : Progress (scriptEngine catalog) η) : Option Passage :=
  match (p.run : Run) with
  | .checking _ _ point => some (State.passage p.state point)
  | _ => none

/-- The run if perhaps a break is requested now. -/
def interrupted {E : Engine} (p : Progress E η) (requested : Bool) : Progress E η :=
  { p with interrupts.breakRequested := requested || p.interrupts.breakRequested }

/-- The handler has no answer to the next signal: its own work takes the engine's thread down. -/
def Fells {E : Engine} (handler : Handler E η) (p : Progress E η) : Prop :=
  match E.next p.run p.state p.interrupts with
  | (.safePoint _, state, interrupts) => handler.safePoint p.memory state interrupts = none
  | (.halted halt _, state, interrupts) => handler.halt halt p.memory state interrupts = none
  | _ => False

end Progress

namespace Drive

def passage? : Drive (scriptEngine catalog) η → Option Passage
  | .underway p => p.passage?
  | _ => none

def view : Drive (scriptEngine catalog) η → View
  | .underway p => .underway p.state.globals p.state.scriptVariables
  | .finished outcome _ s _ => .ended (.finished outcome s.globals s.scriptVariables)
  | .crashed _ => .ended .crashed

end Drive

open Engine in
/-- A run in as many steps as given or up to its end.  A break is requested before each step that
`breaks` names. -/
def Progress.journey (handler : Handler (scriptEngine catalog) η) (breaks : Nat → Bool)
    (p : Progress (scriptEngine catalog) η) : Nat → Journey (Drive (scriptEngine catalog) η)
  | 0 => ⟨[], .underway p⟩
  | n + 1 =>
    let j := journey handler breaks p n
    match j.reached with
    | .underway p =>
      let d := advance handler (p.interrupted (breaks n))
      ⟨j.passed ++ d.passage?.toList, d⟩
    | _ => j

/-- The handler's own work takes the engine's thread down right after so many steps. -/
def Progress.FelledAfter (handler : Handler (scriptEngine catalog) η) (breaks : Nat → Bool)
    (p : Progress (scriptEngine catalog) η) (n : Nat) : Prop :=
  ∃ q, (p.journey handler breaks n).reached = .underway q ∧
    (q.interrupted (breaks n)).Fells handler

/-- A drive may as well take its last step last. -/
theorem Engine.drive_succ {E : Engine} (handler : Handler E η) (n : Nat) (p : Progress E η) :
    drive handler (n + 1) p =
      match drive handler n p with
      | .underway q => advance handler q
      | ended => ended := by
  induction n generalizing p with
  | zero =>
    simp only [drive]
    cases advance handler p <;> rfl
  | succ n ih =>
    rw [drive, drive]
    cases advance handler p with
    | underway q => exact ih q
    | finished outcome memory s i => rfl
    | crashed memory => rfl

/-- Without requests a run gets where its handler drives it. -/
theorem Progress.journey_reached (handler : Handler (scriptEngine catalog) η)
    (p : Progress (scriptEngine catalog) η) (n : Nat) :
    (p.journey handler (fun _ => false) n).reached = Engine.drive handler n p := by
  induction n with
  | zero => rfl
  | succ n ih =>
    rw [journey, Engine.drive_succ, ← ih]
    cases hd : (p.journey handler (fun _ => false) n).reached with
    | underway q => rfl
    | finished outcome memory s i => simp only [hd]
    | crashed memory => simp only [hd]

/-- What is seen of a run in a number of steps. -/
def Progress.account (handler : Handler (scriptEngine catalog) η) (breaks : Nat → Bool)
    (p : Progress (scriptEngine catalog) η) (n : Nat) : Account :=
  let j := p.journey handler breaks n
  ⟨j.passed, j.reached.view⟩

/-- Where a run stands in its script.  A halt is no place of its own. -/
inductive Progress.Stands : Progress (scriptEngine catalog) η → Stance → State → Prop
  | launching {s t : State} {i : Interrupts} (source : Source) (memory : η) (h : s.Alike t)
    (hi : i.abortRequested = false) :
    Stands ⟨Run.launching source, memory, t, i⟩ (.launching source) s
  | running {s t : State} {i : Interrupts} (script : Loaded) (stepping : Stepping)
    (tasks : List Task) (memory : η) (h : s.Alike t) (hi : i.abortRequested = false) :
    Stands ⟨Run.running script stepping tasks, memory, t, i⟩ (.between script tasks) s
  | checking {s t : State} {i : Interrupts} (script : Loaded) (stepping : Stepping) (p : Point)
    (memory : η) (h : s.Alike (t.noteLine p.line)) (hi : i.abortRequested = false) :
    Stands ⟨Run.checking script stepping p, memory, t, i⟩ (.before script p) s
  | resumed {s t : State} {i : Interrupts} {action : Resume} (script : Loaded) (p : Point)
    (depth : Nat) (ha : action ≠ .abort) (memory : η) (h : s.Alike t)
    (hi : i.abortRequested = false) :
    Stands ⟨Run.resumed script p depth action, memory, t, i⟩ (.before script p) s

/-- A run is where its script is, or has ended in the same way. -/
inductive Drive.Follows : Drive (scriptEngine catalog) η → Turn → Prop
  | underway {p : Progress (scriptEngine catalog) η} {stance : Stance} {s : State}
    (h : p.Stands stance s) : Follows (.underway p) (.on stance s)
  | finished (outcome : Outcome) (memory : η) (s : State) (i : Interrupts) :
    Follows (.finished outcome memory s i) (s.finished outcome)
  | crashed (memory : η) : Follows (.crashed memory) (.ended .crashed)

theorem Progress.Stands.variables {p : Progress (scriptEngine catalog) η} {stance : Stance}
    {s : State} (hp : p.Stands stance s) :
    State.globals p.state = s.globals ∧ State.scriptVariables p.state = s.scriptVariables := by
  cases hp with
  | launching source memory h hi => exact ⟨h.globals, h.scriptVariables⟩
  | running script stepping tasks memory h hi => exact ⟨h.globals, h.scriptVariables⟩
  | @checking s t i script stepping point memory h hi =>
    obtain ⟨-, hg, hv⟩ := t.noteLine_keeps point.line
    exact ⟨hg.symm.trans h.globals, hv.symm.trans h.scriptVariables⟩
  | resumed script point depth ha memory h hi => exact ⟨h.globals, h.scriptVariables⟩

theorem Drive.Follows.view {d : Drive (scriptEngine catalog) η} {turn : Turn}
    (h : d.Follows turn) : d.view = turn.view := by
  cases h with
  | underway h =>
    obtain ⟨hg, hv⟩ := h.variables
    rw [Drive.view, Turn.view, ← hg, ← hv]
  | finished outcome memory s i => rfl
  | crashed memory => rfl

namespace Progress

open Engine

variable {handler : Handler (scriptEngine catalog) η} {p : Progress (scriptEngine catalog) η}
  {stance : Stance} {s t : State} {turn : Turn}

/-- A step in which the run does what its script does. -/
def Moves (d : Drive (scriptEngine catalog) η) (turn : Turn) : Prop :=
  d.Follows turn ∧ d.passage? = turn.passage?

theorem Stands.interrupted (hp : p.Stands stance s) (requested : Bool) :
    (p.interrupted requested).Stands stance s := by
  cases hp with
  | launching source memory h hi => exact .launching source memory h hi
  | running script stepping tasks memory h hi => exact .running script stepping tasks memory h hi
  | checking script stepping point memory h hi => exact .checking script stepping point memory h hi
  | resumed script point depth ha memory h hi => exact .resumed script point depth ha memory h hi

theorem advance_of_fells {E : Engine} {handler : Handler E η} {p : Progress E η}
    (h : p.Fells handler) : advance handler p = .crashed p.memory := by
  unfold Fells at h
  unfold advance
  split at h
  · next hsignal =>
    rw [hsignal]
    simp only [h]
  · next hsignal =>
    rw [hsignal]
    simp only [h]
  · exact h.elim

theorem moves_of_yields (h : handler.Observes) (hf : ¬ p.Fells handler)
    (hy : Yields ((scriptEngine catalog).next p.run p.state p.interrupts) turn) :
    Moves (advance handler p) turn := by
  unfold advance
  unfold Fells at hf
  generalize (scriptEngine catalog).next p.run p.state p.interrupts = signal at hy hf ⊢
  cases hy with
  | @safePoint s t i script stepping point ha hi =>
    obtain ⟨answer, hanswer⟩ := Option.ne_none_iff_exists'.mp hf
    have hs : t.Alike answer.2.1 := h.safePoint_alike hanswer
    have hu := ha.trans (hs.noteLine point.line)
    simp only [hanswer]
    refine ⟨.underway (.checking script stepping point _ hu ?_), ?_⟩
    · rw [h.safePoint_abort hanswer, hi]
    · have hq := hu.passage
      simp only [Drive.passage?, Progress.passage?, Turn.passage?, hq]
  | paused milliseconds script stepping tasks ha hi =>
    exact ⟨.underway (.running script stepping tasks p.memory ha hi), rfl⟩
  | finished outcome t i => exact ⟨.finished outcome p.memory t i, rfl⟩
  | crashed t i => exact ⟨.crashed p.memory, rfl⟩

theorem halts_of_halted {halt : Halt} {script : Loaded} {point : Point} {depth : Nat}
    {i : Interrupts} (h : handler.Observes) (hf : ¬ p.Fells handler)
    (he : (scriptEngine catalog).next p.run p.state p.interrupts =
      (.halted halt (.resumed script point depth), t, i))
    (ha : s.Alike t) (hi : i.abortRequested = false) :
    ∃ q, advance handler p = .underway q ∧ q.passage? = none ∧
      q.Stands (.before script point) s := by
  unfold Fells at hf
  rw [he] at hf
  obtain ⟨answer, hanswer⟩ := Option.ne_none_iff_exists'.mp hf
  refine ⟨⟨Run.resumed script point depth answer.1, answer.2.1, answer.2.2.1, answer.2.2.2⟩,
    ?_, rfl, ?_⟩
  · unfold advance
    rw [he]
    simp only [hanswer]
  · have hs : t.Alike answer.2.2.1 := h.halt_alike hanswer
    have hb : answer.2.2.2.abortRequested = false := (h.halt_abort hanswer).trans hi
    exact .resumed script point depth (h.goesOn hanswer) answer.2.1 (ha.trans hs) hb

/-- After a halt, and wherever no safe point has just been passed, a run moves on. -/
theorem Stands.moves (h : handler.Observes) (hf : ¬ p.Fells handler) (hp : p.Stands stance s)
    (hn : p.passage? = none) : Moves (advance handler p) (stance.turn catalog s) := by
  apply moves_of_yields h hf
  cases hp with
  | launching source memory ha hi => exact launch_yields catalog ha hi source
  | running script stepping tasks memory ha hi =>
    exact proceed_yields ha hi script stepping tasks
  | checking script stepping point memory ha hi => cases hn
  | resumed script point depth hne memory ha hi =>
    exact resume_yields catalog ha hi script point depth hne

/-- After a safe point a run moves on or halts where it is. -/
theorem Stands.moves_or_halts (h : handler.Observes) (hf : ¬ p.Fells handler)
    (hp : p.Stands stance s) :
    Moves (advance handler p) (stance.turn catalog s) ∨
      ∃ q, advance handler p = .underway q ∧ q.passage? = none ∧ q.Stands stance s := by
  by_cases hn : p.passage? = none
  · exact .inl (hp.moves h hf hn)
  cases hp with
  | launching | running | resumed => exact absurd rfl hn
  | @checking s t i script stepping point memory ha hi =>
    obtain ⟨u, hu, he | ⟨halt, depth, he⟩⟩ := check_cases hi script stepping point
    · left
      apply moves_of_yields h hf
      change Yields (check t i script stepping point) _
      rw [he]
      exact execute_yields catalog (ha.trans hu) hi script stepping point
    · exact .inr (halts_of_halted h hf he (ha.trans hu) hi)

theorem journey_succ {n : Nat} {breaks : Nat → Bool} {q : Progress (scriptEngine catalog) η}
    (hq : (p.journey handler breaks n).reached = .underway q) :
    p.journey handler breaks (n + 1) =
      ⟨(p.journey handler breaks n).passed ++
          (advance handler (q.interrupted (breaks n))).passage?.toList,
        advance handler (q.interrupted (breaks n))⟩ := by
  rw [journey]
  simp only [hq]

theorem journey_succ_of_ended {n : Nat} {breaks : Nat → Bool} {e : Conclusion}
    (he : (p.journey handler breaks n).reached.view = .ended e) :
    p.journey handler breaks (n + 1) = p.journey handler breaks n := by
  rw [journey]
  cases hd : (p.journey handler breaks n).reached with
  | underway q => simp [hd, Drive.view] at he
  | finished outcome memory s i => rfl
  | crashed memory => rfl

/-- A run and its script have passed the same safe points and are at the same place. -/
structure Tracks (j : Journey (Drive (scriptEngine catalog) η)) (k : Journey Turn) : Prop where
  passed : j.passed = k.passed
  follows : j.reached.Follows k.reached

section

variable {breaks : Nat → Bool} {q r : Progress (scriptEngine catalog) η} {u : Stance} {n k : Nat}

theorem Tracks.move (ht : Tracks (p.journey handler breaks n) (stance.journey catalog s k))
    (hq : (p.journey handler breaks n).reached = .underway q)
    (hu : (stance.journey catalog s k).reached = .on u t)
    (hm : Moves (advance handler (q.interrupted (breaks n))) (u.turn catalog t)) :
    Tracks (p.journey handler breaks (n + 1)) (stance.journey catalog s (k + 1)) := by
  rw [journey_succ hq, Stance.journey_succ hu]
  refine ⟨?_, hm.1⟩
  rw [ht.passed, hm.2]

theorem Tracks.halt (ht : Tracks (p.journey handler breaks n) (stance.journey catalog s k))
    (hq : (p.journey handler breaks n).reached = .underway q)
    (hu : (stance.journey catalog s k).reached = .on u t)
    (hr : advance handler (q.interrupted (breaks n)) = .underway r) (hn : r.passage? = none)
    (hs : r.Stands u t) :
    Tracks (p.journey handler breaks (n + 1)) (stance.journey catalog s k) := by
  rw [journey_succ hq, hr]
  refine ⟨?_, ?_⟩
  · simp only [Drive.passage?, hn, Option.toList_none, List.append_nil]
    exact ht.passed
  · rw [hu]
    exact .underway hs

theorem Stands.tracks_start (hp : p.Stands stance s) :
    Tracks (p.journey handler breaks 0) (stance.journey catalog s 0) :=
  ⟨rfl, .underway hp⟩

/-- However far a run has got that its handler has not ended, its script gets there. -/
theorem Stands.tracks_script (h : handler.Observes) (hp : p.Stands stance s)
    (breaks : Nat → Bool) (n : Nat) (hf : ∀ m < n, ¬ p.FelledAfter handler breaks m) :
    ∃ k, Tracks (p.journey handler breaks n) (stance.journey catalog s k) := by
  induction n with
  | zero => exact ⟨0, hp.tracks_start⟩
  | succ n ih =>
    obtain ⟨k, hk⟩ := ih fun m hm => hf m (Nat.lt_succ_of_lt hm)
    have hfollows := hk.follows
    generalize hd : (p.journey handler breaks n).reached = d at hfollows
    generalize hu : (stance.journey catalog s k).reached = turn at hfollows
    cases hfollows with
    | @underway q u t hq =>
      have hunfelled := fun hfells => hf n (Nat.lt_succ_self n) ⟨q, hd, hfells⟩
      rcases (hq.interrupted (breaks n)).moves_or_halts h hunfelled with hm | ⟨r, hr, hn, hs⟩
      · exact ⟨k + 1, hk.move hd hu hm⟩
      · exact ⟨k, hk.halt hd hu hr hn hs⟩
    | finished outcome memory t i =>
      rw [journey_succ_of_ended (congrArg Drive.view hd)]
      exact ⟨k, hk⟩
    | crashed memory =>
      rw [journey_succ_of_ended (congrArg Drive.view hd)]
      exact ⟨k, hk⟩

/-- However far a script has got, a run of it that its handler does not end gets there: it halts at
most once before a statement. -/
theorem Stands.tracked_by_run (h : handler.Observes) (hp : p.Stands stance s)
    (breaks : Nat → Bool) (hf : ∀ n, ¬ p.FelledAfter handler breaks n) (k : Nat) :
    ∃ n, Tracks (p.journey handler breaks n) (stance.journey catalog s k) := by
  induction k with
  | zero => exact ⟨0, hp.tracks_start⟩
  | succ k ih =>
    obtain ⟨n, hn⟩ := ih
    have hfollows := hn.follows
    generalize hd : (p.journey handler breaks n).reached = d at hfollows
    generalize hu : (stance.journey catalog s k).reached = turn at hfollows
    cases hfollows with
    | @underway q u t hq =>
      have hunfelled := fun hfells => hf n ⟨q, hd, hfells⟩
      rcases (hq.interrupted (breaks n)).moves_or_halts h hunfelled with hm | ⟨r, hr, hnone, hs⟩
      · exact ⟨n + 1, hn.move hd hu hm⟩
      · -- The halt does not count for the script; the step after it does.
        have hj : (p.journey handler breaks (n + 1)).reached = .underway r := by
          rw [journey_succ hd, hr]
        have hm := (hs.interrupted (breaks (n + 1))).moves h
          (fun hfells => hf (n + 1) ⟨r, hj, hfells⟩) hnone
        exact ⟨n + 2, (hn.halt hd hu hr hnone hs).move hj hu hm⟩
    | finished outcome memory t i =>
      rw [Stance.journey_succ_of_ended hu]
      exact ⟨n, hn⟩
    | crashed memory =>
      rw [Stance.journey_succ_of_ended hu]
      exact ⟨n, hn⟩

theorem Tracks.account (ht : Tracks (p.journey handler breaks n) (stance.journey catalog s k)) :
    p.account handler breaks n = stance.account catalog s k := by
  unfold Progress.account Stance.account
  dsimp only
  rw [ht.passed, ht.follows.view]

/-- What is seen of a run that its handler does not end is what is seen of its script. -/
theorem Stands.accounts (h : handler.Observes) (hp : p.Stands stance s) (breaks : Nat → Bool)
    (hf : ∀ n, ¬ p.FelledAfter handler breaks n) (a : Account) :
    (∃ n, p.account handler breaks n = a) ↔ ∃ k, stance.account catalog s k = a := by
  constructor
  · rintro ⟨n, rfl⟩
    obtain ⟨k, hk⟩ := hp.tracks_script h breaks n fun m _ => hf m
    exact ⟨k, hk.account.symm⟩
  · rintro ⟨k, rfl⟩
    obtain ⟨n, hn⟩ := hp.tracked_by_run h breaks hf k
    exact ⟨n, hn.account⟩

/-- What is seen of a run that has ended does not change any more. -/
theorem account_of_ended {e : Conclusion} (he : (p.account handler breaks n).view = .ended e)
    (hk : n ≤ k) : p.account handler breaks k = p.account handler breaks n := by
  induction hk with
  | refl => rfl
  | step _ ih =>
    rw [← ih] at he ⊢
    rw [account, journey_succ_of_ended he, account]

/-- Once its handler has taken the thread down, a run has passed what it had passed before, and
there is nothing more of it. -/
theorem account_of_felledAfter (hf : p.FelledAfter handler breaks n) (hk : n < k) :
    p.account handler breaks k = ⟨(p.account handler breaks n).passed, .ended .crashed⟩ := by
  obtain ⟨q, hq, hfells⟩ := hf
  have hnext : p.account handler breaks (n + 1) =
      ⟨(p.account handler breaks n).passed, .ended .crashed⟩ := by
    rw [account, journey_succ hq, advance_of_fells hfells]
    simp [account, Drive.passage?, Drive.view]
  rw [account_of_ended (congrArg Account.view hnext) hk, hnext]

end
end Progress

/-- A handler that answers whatever the state is. -/
structure Handler.Answers {E : Engine} (handler : Handler E η) : Prop where
  safePoint (memory : η) (s : E.State) (i : Interrupts) : handler.safePoint memory s i ≠ none
  halt (halt : Halt) (memory : η) (s : E.State) (i : Interrupts) :
    handler.halt halt memory s i ≠ none

theorem Handler.Answers.not_fells {E : Engine} {handler : Handler E η} (h : handler.Answers)
    (p : Progress E η) : ¬ p.Fells handler := by
  unfold Progress.Fells
  split
  · exact h.safePoint _ _ _
  · exact h.halt _ _ _ _
  · exact id

theorem Handler.Answers.not_felledAfter {handler : Handler (scriptEngine catalog) η}
    (h : handler.Answers) (breaks : Nat → Bool) (p : Progress (scriptEngine catalog) η) (n : Nat) :
    ¬ p.FelledAfter handler breaks n :=
  fun ⟨_, _, hfells⟩ => h.not_fells _ hfells

theorem Handler.idle_answers (E : Engine) : (Handler.idle E).Answers :=
  ⟨fun _ _ _ => nofun, fun _ _ _ _ => nofun⟩

/-- Debugging does not disturb a script unless the handler's own work takes the engine's thread
down.  However far the debugged run has got by then, the run without breakpoints, requests and a
handler that does anything gets there: it has passed the same safe points, has the same variables
and ends in the same way, if it ends.  The other way round, the debugged run gets as far as the
other one or to a step in which its handler takes the thread down; with that step the run is
over. -/
theorem Handler.Observes.transparent {handler : Handler (scriptEngine catalog) η}
    (h : handler.Observes) (memory : η) (breaks : Nat → Bool) (source : Source) (s : State)
    (i : Interrupts) (hi : i.abortRequested = false) :
    let start : Progress (scriptEngine catalog) η := ⟨Run.launching source, memory, s, i⟩
    let debugged := start.account handler breaks
    let plain := Progress.account (.idle (scriptEngine catalog)) (fun _ => false)
      ⟨Run.launching source, (), { s with breakpoints := [] }, {}⟩
    (∀ n, (∀ k < n, ¬ start.FelledAfter handler breaks k) → ∃ m, plain m = debugged n) ∧
      (∀ m, (∃ n, debugged n = plain m) ∨ ∃ n, start.FelledAfter handler breaks n) ∧
      ∀ n, start.FelledAfter handler breaks n → ∀ k > n,
        debugged k = ⟨(debugged n).passed, .ended .crashed⟩ := by
  intro start debugged plain
  have hstands : start.Stands (.launching source) s := .launching source memory (.refl s) hi
  have hp : ∀ a, (∃ n, plain n = a) ↔ ∃ k, (Stance.launching source).account catalog s k = a :=
    (Progress.Stands.launching source () (.dressed s [] s.lastId s.arena) rfl).accounts
      Handler.idle_observes _ ((idle_answers _).not_felledAfter _ _)
  refine ⟨fun n hf => ?_, fun m => ?_, fun n hf k hk => Progress.account_of_felledAfter hf hk⟩
  · obtain ⟨k, hk⟩ := hstands.tracks_script h breaks n hf
    exact (hp _).mpr ⟨k, hk.account.symm⟩
  · by_cases hf : ∃ n, start.FelledAfter handler breaks n
    · exact .inr hf
    · exact .inl ((hstands.accounts h breaks (not_exists.mp hf) _).mpr ((hp _).mp ⟨m, rfl⟩))

theorem Handler.prying_answers (catalog : Catalog) : (Handler.prying catalog).Answers :=
  ⟨fun _ _ _ => nofun, fun _ _ _ _ => nofun⟩

/-- A script that counts, stepped through under a handler that pries. -/
theorem Handler.prying_transparent :
    let c : Catalog := { files := [(⟨"/a.ps1"⟩, .counting 2, false)] }
    let source : Source := .file ⟨"/a.ps1"⟩ []
    let debugged := Progress.account (.prying c) (· == 3)
      ⟨Run.launching source, (), .initial [] [], {}⟩
    let plain := Progress.account (.idle (scriptEngine c)) (fun _ => false)
      ⟨Run.launching source, (), { State.initial [] [] with breakpoints := [] }, {}⟩
    (Handler.prying c).Observes ∧ ({} : Interrupts).abortRequested = false ∧
      (∀ n, ∃ m, plain m = debugged n) ∧ ∀ m, ∃ n, debugged n = plain m := by
  intro c source debugged plain
  obtain ⟨hforth, hback, -⟩ := (prying_observes c).transparent () (· == 3) source
    (.initial [] []) {} rfl
  have hf := (prying_answers c).not_felledAfter (· == 3)
  refine ⟨prying_observes c, rfl, fun n => hforth n fun k _ => hf _ k, fun m => ?_⟩
  exact (hback m).resolve_right fun ⟨n, hn⟩ => hf _ n hn

/-- Asks at every halt for the variables of a frame that no run can have. -/
def Handler.overreaching (catalog : Catalog) : Handler (scriptEngine catalog) Unit :=
  .routine catalog (pure ())
    (do
      let _ ← context.listVariables (.locals 18446744073709551615)
      pure ())
    id .continue

/-- A question is enough to end a script that waits for a debugger. -/
theorem Handler.overreaching_disturbs :
    let program : Program := { body := [.command 1 "Wait-Debugger", .command 2 "Get-Date"] }
    let c : Catalog := { inlines := [("dates", program)] }
    let source : Source := .inline "dates"
    let debugged := Progress.account (.overreaching c) (fun _ => false)
      ⟨Run.launching source, (), {}, {}⟩
    let plain := Progress.account (.idle (scriptEngine c)) (fun _ => false)
      ⟨Run.launching source, (), {}, {}⟩
    (Handler.overreaching c).Observes ∧ ({} : Interrupts).abortRequested = false ∧
      plain 5 = ⟨[⟨1, some "Wait-Debugger", 1⟩, ⟨2, some "Get-Date", 1⟩],
        .ended (.finished .completed [] [])⟩ ∧
      (∀ n, debugged n ≠ plain 5) ∧
      ∀ n > 2, debugged n = ⟨[⟨1, some "Wait-Debugger", 1⟩, ⟨2, some "Get-Date", 1⟩],
        .ended .crashed⟩ := by
  intro program c source debugged plain
  have hobserves : (Handler.overreaching c).Observes := by
    apply routine_observes
    · exact .pure ()
    · exact .bind (.listVariables _) fun _ => .pure ()
    · exact fun _ => rfl
    · exact nofun
  have hplain : plain 5 = ⟨[⟨1, some "Wait-Debugger", 1⟩, ⟨2, some "Get-Date", 1⟩],
      .ended (.finished .completed [] [])⟩ := by
    dsimp only [plain, c, source, program]
    cbv
  have hcrash : debugged 3 = ⟨[⟨1, some "Wait-Debugger", 1⟩, ⟨2, some "Get-Date", 1⟩],
      .ended .crashed⟩ := by
    dsimp only [debugged, c, source, program]
    cbv
  have hstays {n : Nat} (hn : n > 2) : debugged n = debugged 3 :=
    Progress.account_of_ended (congrArg Account.view hcrash) hn
  refine ⟨hobserves, rfl, hplain, fun n hn => ?_, fun n hn => (hstays hn).trans hcrash⟩
  -- If it ended as the other run does, that would be the end of it after any number of steps.
  rw [hplain] at hn
  have hlater : debugged (n + 3) = debugged n :=
    Progress.account_of_ended (congrArg Account.view hn) (Nat.le_add_right n 3)
  rw [hstays (by omega), hcrash, hn] at hlater
  cases hlater

end Stepwise
