import Stepwise.Proofs.Script.Performing
import Stepwise.Proofs.Script.Transparency
import Stepwise.Proofs.Script.Working

namespace Stepwise
namespace Script
open Engine Doing

/-- All of an activation but its line and its variables. -/
def Frame.identity (f : Frame) : String × Option Path × Bool :=
  (f.functionName, f.path, f.locals.isSome)

namespace State

/-- The innermost frame has no locals of its own. -/
def AtTop (s : State) : Prop :=
  s.frames.head?.map (·.locals.isSome) = some false

/-- Only the outermost frame has no locals of its own. -/
def Layered (s : State) : Prop :=
  ∃ inner outer, s.frames = inner ++ [outer] ∧ outer.locals = none ∧ ∀ f ∈ inner, f.locals.isSome

/-- There are the same activations, and of all variables only the local ones of the innermost have
changed. -/
structure Confined (s t : State) : Prop where
  frames : t.frames.map Frame.identity = s.frames.map Frame.identity
  below : t.frames.tail = s.frames.tail
  scriptVariables : ¬ s.AtTop → t.scriptVariables = s.scriptVariables
  globals : t.globals = s.globals

/-- The same, but for activations of functions that are still on top. -/
def Overlaid (s t : State) : Prop :=
  ∃ inner kept, t.frames = inner ++ kept ∧ (∀ f ∈ inner, f.locals.isSome) ∧
    s.Confined { t with frames := kept }

/-- What a statement may have done to the state when it has come to its end, is given up or is
still underway.  After a crash no frame is removed. -/
def Kept {η : Type} (s : State) : Option Exit × Moment η → Prop
  | (some .underway, t) | (some .crashed, t) => s.Overlaid t.state
  | (_, t) => s.Confined t.state

variable {s t u : State}

/-- At the top level there is one frame. -/
theorem Layered.atTop_iff (h : s.Layered) : s.AtTop ↔ s.frames.length = 1 := by
  obtain ⟨inner, outer, hf, ho, hi⟩ := h
  unfold AtTop
  rw [hf]
  cases inner with
  | nil => simp [ho]
  | cons f rest => simp [hi f (List.mem_cons_self ..)]

namespace Confined

theorem refl (s : State) : s.Confined s := ⟨rfl, rfl, fun _ => rfl, rfl⟩

theorem atTop_iff (h : s.Confined t) : t.AtTop ↔ s.AtTop := by
  have he := congrArg (fun l => l.head?.map fun i => i.2.2) h.frames
  simp only [List.head?_map, Option.map_map] at he
  exact Eq.congr_left he

theorem trans (h : s.Confined t) (h' : t.Confined u) : s.Confined u where
  frames := h'.frames.trans h.frames
  below := h'.below.trans h.below
  scriptVariables hs :=
    (h'.scriptVariables (mt h.atTop_iff.mp hs)).trans (h.scriptVariables hs)
  globals := h'.globals.trans h.globals

theorem overlaid (h : s.Confined t) : s.Overlaid t :=
  ⟨[], t.frames, rfl, nofun, h⟩

end Confined

theorem Alike.confined (h : s.Alike t) : s.Confined t where
  frames := by rw [h.frames]
  below := by rw [h.frames]
  scriptVariables _ := h.scriptVariables
  globals := h.globals

theorem Confined.overlay (h : s.Confined t) : t.Overlaid u → s.Overlaid u
  | ⟨inner, kept, hf, hi, hk⟩ => ⟨inner, kept, hf, hi, h.trans hk⟩

theorem confined_noteLine (s : State) (line : Nat) : s.Confined (s.noteLine line) := by
  unfold noteLine
  split
  · exact .refl s
  · next f rest hf => exact ⟨by rw [hf]; rfl, by rw [hf]; rfl, fun _ => rfl, rfl⟩

theorem confined_withScope (s : State) (vars : Variables) :
    s.Confined (s.withScope (.locals 0) vars) := by
  cases hf : s.frames with
  | nil =>
    have hs : s.withScope (.locals 0) vars = s := by simp [withScope, hf]
    rw [hs]
    exact .refl s
  | cons f rest =>
    cases hl : f.locals with
    | none =>
      have hs : s.withScope (.locals 0) vars = { s with scriptVariables := vars } := by
        simp [withScope, hf, hl]
      rw [hs]
      exact ⟨rfl, rfl, fun hn => absurd (by simp [AtTop, hf, hl]) hn, rfl⟩
    | some locals =>
      have hs : s.withScope (.locals 0) vars =
          { s with frames := { f with locals := some vars } :: rest } := by
        simp [withScope, hf, hl]
      rw [hs]
      exact ⟨by simp [hf, Frame.identity, hl], by rw [hf]; rfl, fun _ => rfl, rfl⟩

theorem confined_store {name : String} {value : Value} {declared : Option String}
    (h : s.store (.locals 0) name value declared = .ok t) : s.Confined t := by
  obtain ⟨_, _, _, _, _, _, rfl⟩ := exists_of_store h
  exact confined_withScope s _

/-- When the frame of a call is removed, nothing is left of it. -/
theorem Confined.pop {f : Frame} (hf : f.locals.isSome)
    (h : Confined { s with frames := f :: s.frames } t) :
    s.Confined { t with frames := t.frames.tail } where
  frames := congrArg (List.map Frame.identity) h.below
  below := congrArg List.tail h.below
  scriptVariables _ := h.scriptVariables (by simp [AtTop, hf])
  globals := h.globals

theorem Overlaid.of_pushed {f : Frame} (hf : f.locals.isSome)
    (h : Overlaid { s with frames := f :: s.frames } t) : s.Overlaid t := by
  obtain ⟨inner, kept, ht, hi, hk⟩ := h
  have hpop := hk.pop hf
  cases kept with
  | nil => cases hk.frames
  | cons g below =>
    have hid : g.identity = f.identity := (List.cons.inj hk.frames).1
    have hg : g.locals.isSome = f.locals.isSome := congrArg (·.2.2) hid
    refine ⟨inner ++ [g], below, by rw [ht, List.append_assoc]; rfl, ?_, hpop⟩
    intro k hm
    rcases List.mem_append.mp hm with hm | hm
    · exact hi k hm
    · rw [List.mem_singleton.mp hm, hg, hf]

end State

namespace State.Kept

variable {η : Type} {s t : State} {done : Option Exit × Moment η}

theorem after (h : s.Confined t) (hk : t.Kept done) : s.Kept done := by
  rcases done with ⟨_ | _ | _ | _ | _, u⟩
  case none | failed | aborted => exact h.trans hk
  case crashed | underway => exact h.overlay hk

theorem overlaid (h : s.Kept done) : s.Overlaid done.2.state := by
  rcases done with ⟨_ | _ | _ | _ | _, u⟩
  case none | failed | aborted => exact h.overlaid
  case crashed | underway => exact h

end State.Kept

/-- At whatever moment it is done, of all variables only the local ones of the innermost frame
change. -/
def Doing.Isolates {η : Type} (d : Doing η) : Prop :=
  ∀ m : Moment η, m.state.Kept (d m)

variable {catalog : Catalog} {η : Type}

namespace Doing

variable {d e : Doing η}

theorem skip_isolates : (skip : Doing η).Isolates :=
  fun m => State.Confined.refl m.state

theorem Isolates.andThen (hd : d.Isolates) (he : e.Isolates) : (d.andThen e).Isolates := by
  intro m
  unfold Doing.andThen
  have hk := hd m
  generalize d m = done at hk ⊢
  rcases done with ⟨_ | exit, t⟩
  · exact (he t).after hk
  · exact hk

theorem Isolates.block {d : Statement → Doing η} (h : ∀ statement, (d statement).Isolates)
    (statements : List Statement) : (Doing.block d statements).Isolates := by
  induction statements with
  | nil => exact skip_isolates
  | cons statement rest ih => exact (h statement).andThen ih

theorem Isolates.rounds {start : Int → Doing η} (hs : ∀ value, (start value).Isolates)
    (hd : d.Isolates) (n : Nat) (value : Int) : (Doing.rounds start d n value).Isolates := by
  induction n generalizing value with
  | zero => exact skip_isolates
  | succ n ih => exact (hs value).andThen (hd.andThen (ih (value + 1)))

theorem await_isolates : (await : Doing η).Isolates := by
  rintro ⟨memory, state, interrupts, stepping, _ | ⟨i, heard⟩⟩
  · exact (State.Confined.refl state).overlaid
  · exact .refl state

theorem andThen_assoc (d e f : Doing η) : (d.andThen e).andThen f = d.andThen (e.andThen f) := by
  funext m
  unfold Doing.andThen
  generalize d m = done
  rcases done with ⟨_ | exit, t⟩ <;> rfl

/-- What is done in the frame of a call changes nothing outside. -/
theorem Isolates.inFrame (hd : d.Isolates) {f : Frame} (hf : f.locals.isSome) {s : State}
    {m : Moment η} (hm : m.state = { s with frames := f :: s.frames }) :
    s.Kept (Doing.inFrame d m) := by
  have hk := hd m
  rw [hm] at hk
  unfold Doing.inFrame
  generalize d m = done at hk ⊢
  rcases done with ⟨_ | _ | _ | _ | _, t⟩
  case none | failed | aborted => exact hk.pop hf
  case crashed | underway => exact hk.of_pushed hf

end Doing

section

variable {handler : Handler (scriptEngine catalog) η} (h : handler.Reads) (script : Loaded)
include h

theorem visit_isolates : (visit handler).Isolates := by
  intro m
  unfold visit
  split
  · next ha => exact (await_isolates _).after (h.safePoint_alike ha).confined
  · exact (State.Confined.refl m.state).overlaid

theorem hold_isolates (halt : Halt) (depth : Nat) : (hold handler halt depth).Isolates := by
  intro m
  unfold hold
  split
  · next action memory state interrupts ha =>
    have hs : m.state.Alike { m.state with arena := [] } := State.Alike.clear rfl
    have hstate : m.state.Alike state := hs.trans (h.halt_alike ha)
    refine State.Kept.after hstate.confined (await_isolates.andThen (fun t => ?_) _)
    have ht : t.state.Alike { t.state with arena := [] } := State.Alike.clear rfl
    dsimp only
    split <;> exact ht.confined
  · exact (State.Confined.refl m.state).overlaid

theorem checkpoint_isolates (p : Point) : (checkpoint handler script p).Isolates := by
  refine (visit_isolates h).andThen fun m => ?_
  have hl : m.state.Confined
      ((m.state.noteLine p.line).reach script.path p.line p.command?).2 :=
    (m.state.confined_noteLine p.line).trans (State.reach_alike _ _ _ _).confined
  dsimp only
  split
  · exact .refl m.state
  · split
    · exact hl
    · exact (hold_isolates h _ _ _).after hl

end

/-- Carrying a statement out that is no call changes local variables at most. -/
theorem carryOut_confined {s t : State} {script : Loaded} {i j : Interrupts} {line : Nat}
    {effect : Effect} {tasks : List Task}
    (hn : ∀ function arguments, effect ≠ .call function arguments)
    (h : s.carryOut script i ⟨line, effect, []⟩ = .on t j tasks) : s.Confined t := by
  cases effect with
  | assign name expression declared =>
    obtain ⟨v, _, hx⟩ := Except.bind_eq_ok_iff.mp (ofExcept_eq_on h).1
    exact State.confined_store hx
  | set name value => exact State.confined_store (ofExcept_eq_on h).1
  | pass =>
    cases h
    exact .refl s
  | command name =>
    simp only [State.carryOut] at h
    split at h
    · cases h
      exact .refl s
    · split at h
      · cases h
      · cases h
        exact .refl s
  | call function arguments => exact absurd rfl (hn function arguments)

theorem carried_isolates (script : Loaded) {line : Nat} {effect : Effect}
    (hn : ∀ function arguments, effect ≠ .call function arguments) :
    (carried script ⟨line, effect, []⟩ : Doing η).Isolates := by
  intro m
  unfold carried
  split
  · next hc => exact carryOut_confined hn hc
  · exact State.Confined.refl m.state
  · exact (State.Confined.refl m.state).overlaid

/-- A call leaves nothing of its frame. -/
theorem call_isolates (script : Loaded) (line : Nat) (function : String)
    (arguments : List (String × String)) {d : List Statement → Doing η}
    (hd : ∀ body, (d body).Isolates) :
    ((carried script ⟨line, .call function arguments, []⟩).andThen
      (match script.program.function? function with
      | some body => inFrame (d body)
      | none => skip)).Isolates := by
  intro m
  unfold Doing.andThen carried
  simp only [State.carryOut]
  cases script.program.function? function with
  | none => exact State.Confined.refl m.state
  | some body =>
    dsimp only
    cases m.state.arguments arguments with
    | error e =>
      dsimp only [Bind.bind, Except.bind, Carried.ofExcept]
      cases e.report? with
      | some report => exact State.Confined.refl m.state
      | none => exact (State.Confined.refl m.state).overlaid
    | ok bound => exact (hd body).inFrame rfl rfl

theorem act_isolates {handler : Handler (scriptEngine catalog) η} (h : handler.Reads)
    (script : Loaded) (line : Nat) (effect : Effect)
    (hn : ∀ function arguments, effect ≠ .call function arguments) :
    (act handler script line effect).Isolates :=
  (checkpoint_isolates h script _).andThen (carried_isolates script hn)

theorem perform_isolates {handler : Handler (scriptEngine catalog) η} (h : handler.Reads)
    (script : Loaded) (limit : Nat) (statement : Statement) :
    (perform handler script limit statement).Isolates := by
  induction limit generalizing statement with
  | zero => exact fun m => (State.Confined.refl m.state).overlaid
  | succ limit ih =>
    cases statement with
    | assign line name expression =>
      exact act_isolates h script line (.assign name expression none) nofun
    | declare line name type expression =>
      exact act_isolates h script line (.assign name expression (some type)) nofun
    | set line name value => exact act_isolates h script line (.set name value) nofun
    | command line name => exact act_isolates h script line (.command name) nofun
    | count line name first last body =>
      exact .rounds (fun value => act_isolates h script line (.set name _) nofun) (.block ih body)
        (last + 1 - first).toNat first
    | loop line body =>
      have hagain := await_isolates.andThen (ih (.loop line body))
      exact (act_isolates h script line .pass nofun).andThen
        ((Isolates.block ih body).andThen hagain)
    | call line function arguments =>
      rw [perform, act, andThen_assoc]
      exact (checkpoint_isolates h script _).andThen
        (call_isolates script line function arguments (Isolates.block ih))

/-- What a run may have done to the variables of the state that it began in. -/
def Drive.Spares (s : State) : Drive (scriptEngine catalog) η → Prop
  | .underway p => State.globals p.state = s.globals ∧ State.Layered p.state
  | .finished _ _ t _ => State.globals t = s.globals
  | .crashed _ => True

theorem State.Overlaid.layered {s t : State} {script : Loaded} {arguments : List String}
    (h : (s.enter script arguments).Overlaid t) : t.Layered := by
  obtain ⟨inner, kept, hf, hi, hk⟩ := h
  cases kept with
  | nil => cases hk.frames
  | cons outer rest =>
    obtain ⟨hid, hrest⟩ := List.cons.inj hk.frames
    have hl : outer.locals.isSome = false := congrArg (·.2.2) hid
    have ho : outer.locals = none := by
      rw [← Option.not_isSome_iff_eq_none, hl]
      exact Bool.false_ne_true
    obtain rfl := List.map_eq_nil_iff.mp hrest
    exact ⟨inner, outer, hf, ho, hi⟩

theorem State.Overlaid.globals {s t : State} (h : s.Overlaid t) : t.globals = s.globals := by
  obtain ⟨_, _, _, _, hk⟩ := h
  exact hk.globals

/-- A run never changes the globals, and at the top level it has one frame. -/
theorem launch_spares {handler : Handler (scriptEngine catalog) η} (h : handler.Reads)
    (source : Source) (memory : η) (s : State) (i j : Interrupts) (heard : List Interrupts) :
    Drive.Spares s (driveHearing handler ⟨Run.launching source, memory, s, i⟩ (j :: heard)) := by
  cases hf : catalog.find source with
  | error message =>
    rw [driveHearing_cons]
    dsimp only [scriptEngine, next]
    rw [hf]
    exact rfl
  | ok found =>
    obtain ⟨script, arguments⟩ := found
    have hlead := launch_leads hf handler memory s i j heard
    have hk := Isolates.block (perform_isolates h script (heard.length + 1)) script.program.body
      (.launched script arguments memory s (i.hear j) heard)
    have ho := hk.overlaid
    generalize block _ _ _ = done at hlead hk ho
    generalize driveHearing handler _ _ = run at hlead ⊢
    rcases done with ⟨_ | exit, t⟩
    · rw [hlead.2]
      exact ho.globals
    · cases hlead with
      | failed | aborted => exact ho.globals
      | crashed => trivial
      | underway run => exact ⟨ho.globals, ho.layered⟩

end Script

open Script Engine

/-- Scopes are isolated.  Let a statement be performed at any moment, with any number of steps to
come: the run gets where the statement leads.  At its end, and also when it fails or is aborted,
there are the frames that it has found, and of all variables only the local ones of the innermost
have changed; as long as it is underway they are there below others.  A run leaves the globals as
they were. -/
theorem Handler.Reads.isolated {catalog : Catalog} {η : Type}
    {handler : Handler (scriptEngine catalog) η} (h : handler.Reads) :
    (∀ (script : Loaded) (statement : Statement) (m : Moment η),
      let done := perform handler script (m.heard.length + 1) statement m
      (∀ others rest,
        Leads (m.heard.length + 1) (m.goOn handler script (.block (statement :: others) :: rest))
          (fun t => t.goOn handler script (.block others :: rest)) done) ∧
      m.state.Kept done) ∧
    ∀ (source : Source) (memory : η) (s : State) (i j : Interrupts) (heard : List Interrupts),
      Drive.Spares s
        (driveHearing handler ⟨Run.launching source, memory, s, i⟩ (j :: heard)) := by
  refine ⟨fun script statement m => ⟨fun others rest => ?_, ?_⟩, launch_spares h⟩
  · exact perform_performs handler script _ statement others rest m (Nat.lt_succ_self _)
  · exact perform_isolates h script _ statement m

/-- The call of a function that sets a variable of its own, with the name of one of the script's,
and then fails. -/
theorem Handler.idle_isolated :
    let script : Loaded :=
      { program :=
          { body := [.call 3 "f" []]
            functions := [("f", [.set 5 "$x" (.int 2), .call 6 "g" []])] }
        path := none
        remote := false }
    let top : Frame := { functionName := "<ScriptBlock>", path := none, line := 0, locals := none }
    let s : State := { scriptVariables := [{ name := "$x", value := .int 1 }], frames := [top] }
    let m : Moment Unit := ⟨(), s, {}, .off, [{}, {}, {}]⟩
    let handler := Handler.idle (scriptEngine {})
    let done := perform handler script (m.heard.length + 1) (.call 3 "f" []) m
    handler.Reads ∧ done.1 = some (.failed (unknownTerm "g")) ∧
      done.2.state = { s with frames := [{ top with line := 3 }] } ∧
      (∀ others rest,
        Leads (m.heard.length + 1)
          (m.goOn handler script (.block (.call 3 "f" [] :: others) :: rest))
          (fun t => t.goOn handler script (.block others :: rest)) done) ∧
      m.state.Kept done :=
  ⟨idle_observes.toReads, by cbv, by cbv, idle_observes.toReads.isolated.1 _ (.call 3 "f" []) _⟩

end Stepwise
