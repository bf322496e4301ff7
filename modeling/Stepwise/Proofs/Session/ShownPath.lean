import Stepwise.Proofs.Session.Aborting
import Stepwise.Proofs.Session.Latest
import Stepwise.Proofs.Session.Naming

namespace Stepwise

/-- The engine knows the script under the path, as it is taken when breakpoints are set on it. -/
def Script.Loaded.isKnownAs (script : Loaded) (home : Home) (shown : Path) : Bool :=
  script.path.any fun path => (home.expandHome shown).same path

/-- A path that is shown as it is, and that does not start at the home directory. -/
theorem Script.Loaded.isKnownAs_clientPath {script : Loaded} {path : Path} {w : Workspace}
    (hp : script.path = some path) (ha : path.isAbsolute = true)
    (hw : script.remote = false ∨ w.localCopy? path = none) (home : Home) :
    script.isKnownAs home (w.clientPath script.path script.remote).1 = true := by
  have hshown : (w.clientPath script.path script.remote).1 = path := by
    rw [hp]
    rcases hw with hr | hc
    · rw [hr]
      rfl
    · cases hr : script.remote with
      | false => rfl
      | true => simp [Workspace.clientPath, hc]
  rw [isKnownAs, hshown, home.expandHome_of_isAbsolute ha, hp]
  exact Path.same_self path

theorem Script.State.reached_snd {stored : Script.Breakpoint} (hc : stored.condition = none)
    (hn : stored.hitCount = none) (s : State) (script : Loaded) (p : Point) :
    (s.reached script p stored).2 = stored.isAt script.path p.line p.command? := by
  have hholds : stored.holds (s.noteLine p.line) = true := by
    unfold Breakpoint.holds
    rw [hc]
  unfold reached Breakpoint.reach
  rw [hholds, Bool.and_true]
  split
  · next hat => simp [hn, hat]
  · next hat => exact (Bool.eq_false_iff.mpr hat).symm

/-- A breakpoint of a file without conditions fires on its line of the file, and only there. -/
theorem Registry.StandsFor.reached_snd {r : Registry} {b : Breakpoint} {stored : Script.Breakpoint}
    (h : r.StandsFor b stored) {path : Path} (hb : b.StandsIn (.file path))
    (hc : b.condition = none) (hh : b.hitCondition = none) {script : Script.Loaded}
    {p : Script.Point} (hl : b.line = some p.line) (s : Script.State) :
    (s.reached script p stored).2 = script.path.any path.same := by
  obtain ⟨-, hm⟩ := h
  have hcond : stored.condition = none := Option.map_eq_none_iff.mp (hm.condition.symm.trans hc)
  have hcount : stored.hitCount = none := by
    have hn := hm.hitCount
    rw [hh] at hn
    exact (Except.ok.inj hn).symm
  rw [s.reached_snd hcond hcount]
  have hplace := hm.place
  obtain ⟨location, hat, hin⟩ := hb
  cases location with
  | command name => cases hin
  | line own line column =>
    obtain ⟨hsource, -⟩ := hat
    unfold Script.Breakpoint.isAt
    cases hstored : stored.location with
    | command name =>
      rw [hstored] at hplace
      cases hplace.1.symm.trans hsource
    | line placed line column =>
      rw [hstored] at hplace
      cases hplace.1.symm.trans hsource
      cases hplace.2.1.symm.trans hl
      have hsame : own.same = path.same := funext (Path.same_congr hin)
      simp [hsame]

theorem Registry.Synced.exists_stored_of_verified {r : Registry} {s : Script.State}
    (h : r.Synced s) {b : Breakpoint} (hb : b ∈ r.breakpoints) (hv : b.verified = true) :
    ∃ stored ∈ s.breakpoints, r.StandsFor b stored := by
  have hm : b ∈ r.verified := List.mem_filter.mpr ⟨List.mem_append.mpr (mem_breakpoints.mp hb), hv⟩
  obtain ⟨⟨id, c⟩, he, rfl⟩ := List.mem_map.mp (h.reached.symm.subset hm)
  obtain ⟨stored, hs, hmirrors⟩ := h.matched.exists_stored he
  obtain rfl : id = stored.id := hmirrors.id
  exact ⟨stored, hs, he, hmirrors⟩

/-- A breakpoint that fires is a reason to halt. -/
theorem Script.State.halts_of_reached {s : State} {script : Loaded} {stepping : Stepping}
    {p : Point} {i : Interrupts} {stored : Breakpoint} (hm : stored ∈ s.breakpoints)
    (hf : (s.reached script p stored).2 = true) : s.halts script stepping p i = true := by
  have hlooked : stored.id ∈ (s.looked script p).1 := by
    rw [s.looked_fst script p]
    exact List.mem_map_of_mem (List.mem_filter.mpr ⟨hm, hf⟩)
  have hne : (s.looked script p).1.isEmpty = false :=
    List.isEmpty_eq_false_iff.mpr (List.ne_nil_of_mem hlooked)
  simp [halts, hne]

/-- The path on which the call sets breakpoints. -/
def BreakpointCall.path? : BreakpointCall → Option Path
  | .setLine path _ => some path
  | _ => none

theorem BreakpointCall.exists_of_path? {call : BreakpointCall} {q : Path}
    (h : call.path? = some q) : ∃ requests, call = .setLine q requests := by
  cases call with
  | setLine path requests =>
    cases h
    exact ⟨requests, rfl⟩
  | _ => cases h

/-- The halt with which the thread has come. -/
def Worker.halt? {ρ : Type} : Worker ρ → Option Halt
  | .halting halt _ _ => some halt
  | _ => none

namespace Leg

variable {E : Engine} {home : Home} {q : Path} {legs : List (Leg E)} {b : Breakpoint}

/-- The breakpoint was returned when breakpoints were set on the path, and no call that was answered
later replaces it. -/
def SetOn (home : Home) (q : Path) (legs : List (Leg E)) (b : Breakpoint) : Prop :=
  ∃ earlier y later requests list, legs = earlier ++ y :: later ∧
    y.returned? = some (.setLine q requests, list) ∧ b ∈ list ∧
    ∀ z ∈ later, ∀ call list, z.returned? = some (call, list) → call.replaces home b = false

/-- The breakpoint was set on the path after a stop had shown it. -/
def SetAfterStop (home : Home) (q : Path) (legs : List (Leg E)) (b : Breakpoint) : Prop :=
  ∃ before z rest event, legs = before ++ z :: rest ∧ z.stop? = some event ∧
    event.scriptPath = q ∧ SetOn home q rest b

theorem SetOn.after (h : SetOn home q legs b) (before : List (Leg E)) (z : Leg E) :
    SetOn home q (before ++ z :: legs) b := by
  obtain ⟨earlier, y, later, requests, list, rfl, hy, hb, hlater⟩ := h
  exact ⟨before ++ z :: earlier, y, later, requests, list, by simp, hy, hb, hlater⟩

theorem SetOn.lastReturned (h : SetOn home q legs b) : LastReturned home legs b := by
  obtain ⟨earlier, y, later, requests, list, hl, hy, hb, hlater⟩ := h
  exact ⟨earlier, y, later, _, list, hl, hy, hb, hlater⟩

end Leg

namespace System

/-- The thread has come with a halt that is shown on the line of the path and names the breakpoint;
unless the session is about to end, the next step of the thread tells of it. -/
structure HaltsOn {E : Engine} (s : System E) (q : Path) (line : Nat) (b : Breakpoint)
    (halt : Halt) : Prop where
  halting : ∃ k execution, s.worker = .halting halt k execution
  path : (s.session.stoppedEvent halt).scriptPath = q
  line : (s.session.stoppedEvent halt).line = line
  named : b ∈ (s.session.stoppedEvent halt).breakpoints
  told : s.session.runState = .running ∨ s.session.runState = .stopped →
    ∃ t, s.step .work = some t ∧ t.session.runState = .stopped ∧
      Leg.stop? ⟨s, .work, t⟩ = some (s.session.stoppedEvent halt)

/-- A script that is shown under the path comes, without a request to abort, to the line of a
breakpoint without conditions; it was returned as verified when breakpoints were set on the path. -/
structure ComesTo {catalog : Script.Catalog} (around : Surroundings)
    (past : List (Leg (scriptEngine catalog))) (x : Leg (scriptEngine catalog)) (q : Path)
    (b : Breakpoint) (script : Script.Loaded) (p : Script.Point) : Prop where
  set : Leg.SetOn around.home q past b
  verified : b.verified = true
  unconditional : b.condition = none ∧ b.hitCondition = none
  looks : ∃ stepping, x.before.Looks x.action script stepping p
  line : b.line = some p.line
  shown : (around.workspace.clientPath script.path script.remote).1 = q

variable {catalog : Script.Catalog} {s t : System (scriptEngine catalog)}
  {legs past since : List (Leg (scriptEngine catalog))} {x : Leg (scriptEngine catalog)}
  {around : Surroundings} {engine : Script.State} {interrupts : Interrupts} {q : Path}
  {b : Breakpoint} {script : Script.Loaded} {stepping : Script.Stepping} {p : Script.Point}

/-- What is set on a path is of the file that the session takes it for. -/
theorem Course.standsIn_of_setOn (hb : engine.breakpoints = [])
    (h : (opened around engine interrupts : System (scriptEngine catalog)).Course legs t)
    (hs : Leg.SetOn around.home q legs b) : b.StandsIn (.file (around.home.expandHome q)) := by
  obtain ⟨earlier, y, later, requests, list, rfl, hy, hm, -⟩ := hs
  obtain ⟨hearlier, hstep, -⟩ := h.split
  have hbefore := hearlier.standing hb
  have hafter := (hearlier.step _ hstep).standing hb
  have hperform := performs_of_returned hbefore.synced hstep hy
  rw [hbefore.surroundings] at hperform
  have hlist := hbefore.synced.list_perform hperform (.file (around.home.expandHome q))
  have hconcerns : (BreakpointCall.setLine q requests).concerns around.home
      (.file (around.home.expandHome q)) = true := Path.same_self _
  rw [if_pos hconcerns] at hlist
  have hin : y.after.session.registry.inFile (around.home.expandHome q) = list := hlist
  obtain ⟨f, hf, hsame⟩ := Registry.exists_of_inFile (hin ▸ List.ne_nil_of_mem hm)
  have hown := Registry.inFile_of_mem hafter.synced.separate hf hsame
  exact (hafter.synced.files f hf b (hown ▸ hin ▸ hm)).spelled hsame

/-- Without a step of the thread it stays where it is, and so do the breakpoints. -/
theorem Course.idle (h : s.Course legs t) (hl : ∀ y ∈ legs, y.action ≠ .work) :
    t.worker = s.worker ∧ t.session.settings = s.session.settings := by
  induction h with
  | rest => exact ⟨rfl, rfl⟩
  | step a _ hs ih =>
    rw [List.forall_mem_append, List.forall_mem_singleton] at hl
    obtain ⟨hw, hset⟩ := ih hl.1
    exact ⟨(Prod.mk.inj (thread_step hl.2 hs)).2.trans hw, (settings_step hl.2 hs).trans hset⟩

theorem Looks.session {a : Action} (hl : s.Looks a script stepping p) (h : s.step a = some t) :
    t.session = s.session := by
  obtain ⟨execution, closing, hw⟩ := hl.running
  obtain rfl := hl.action
  obtain ⟨⟨u, ms⟩, hwork, rfl⟩ := Option.map_eq_some_iff.mp h
  simp only [work, hw] at hwork
  exact session_run hwork

/-- A thread that finds a reason to halt comes with the halt. -/
theorem Looks.halting (hs : s.ClosesAborted) {a : Action} (hl : s.Looks a script stepping p)
    (h : s.step a = some t) (hh : s.engine.halts script stepping p s.interrupts = true) :
    ∃ k execution, t.worker = .halting (Session.haltAt s.engine script p) k execution := by
  obtain ⟨execution, hw⟩ := hl.exists_running hs
  obtain rfl := hl.action
  obtain ⟨⟨u, ms⟩, hwork, rfl⟩ := Option.map_eq_some_iff.mp h
  simp only [work, hw] at hwork
  unfold System.run at hwork
  have hn := (Script.next_checking catalog s.engine script stepping p hl.unaborted).1
  rw [if_pos hh] at hn
  rcases hnext : (scriptEngine catalog).next (.checking script stepping p) s.engine s.interrupts
    with ⟨signal, engine, interrupts⟩
  rw [show Script.next catalog (.checking script stepping p) s.engine s.interrupts = _ from hnext]
    at hn
  rw [hnext] at hwork
  cases signal with
  | halted halt k =>
    cases hn
    cases hwork
    exact ⟨k, execution, rfl⟩
  | _ => cases hn

/-- Unless the session is about to end, the thread tells of the halt with which it has come. -/
theorem step_halting (hr : Reaches (opened around engine interrupts) s) {halt : Halt}
    {k : Resume → (scriptEngine catalog).Run} {execution : Nat}
    (hw : s.worker = .halting halt k execution)
    (hs : s.session.runState = .running ∨ s.session.runState = .stopped) :
    ∃ t, s.step .work = some t ∧ t.session.runState = .stopped ∧
      Leg.stop? ⟨s, .work, t⟩ = some (s.session.stoppedEvent halt) := by
  have htold := tellHalt_of_live hs halt k execution
  refine ⟨s.tellHalt halt k execution, by simp [step, work, hw], by rw [htold]; rfl, ?_⟩
  have hq : (s.tellHalt halt k execution).session.queuedStops =
      s.session.queuedStops ++ [s.session.stoppedEvent halt] := by
    rw [htold]
    exact Session.queuedStops_hold (stopsTold_reaches hr).kept halt _
  simp [Leg.stop?, hq]

/-- The script and the statement for which the thread is about to look at the breakpoints. -/
def looking? (s : System (scriptEngine catalog)) : Option (Script.Loaded × Script.Point) :=
  match s.worker with
  | .running (.checking script _ p) _ _ =>
    if s.interrupts.abortRequested then none else some (script, p)
  | _ => none

theorem looks_of_looking? (h : s.looking? = some (script, p)) :
    ∃ stepping, s.Looks .work script stepping p := by
  unfold looking? at h
  split at h
  · next hw =>
    split at h
    · cases h
    · next hi =>
      cases h
      exact ⟨_, rfl, ⟨_, _, hw⟩, Bool.eq_false_iff.mpr hi⟩
  · cases h

/-- Some steps lead to a stop that shows the path and to the answer to a call that sets a breakpoint
on it; others lead from there to its line, without an answer to another call.  `known` tells whether
the engine knows the script under the path, and whether the thread halts. -/
def leadsTo (s : System (scriptEngine catalog)) (earlier later : List Action) (q : Path)
    (line : Nat) (known : Bool) : Bool :=
  (s.travel earlier).any fun (legs, s) =>
    (legs.any fun z => z.stop?.any fun event => event.scriptPath == q) &&
    (((s.returned? .work).any fun (call, list) => call.path? == some q &&
      list.any fun b => b.verified && (b.line == some line &&
        (b.condition == none && b.hitCondition == none))) &&
    ((s.step .work).any fun s => (s.travel later).any fun (legs, s) =>
      (legs.all fun z => z.returned?.isNone) &&
      ((s.looking?.any fun (script, p) => p.line == line &&
        ((s.session.around.workspace.clientPath script.path script.remote).1 == q &&
          script.isKnownAs s.session.around.home q == known)) &&
      ((s.step .work).any fun s => s.worker.halt?.isSome == known))))

theorem exists_comesTo (hb : engine.breakpoints = []) {earlier later : List Action} {line : Nat}
    {known : Bool} (h : (opened around engine interrupts : System (scriptEngine catalog)).leadsTo
      earlier later q line known = true) :
    ∃ (past : List (Leg (scriptEngine catalog))) (x : Leg (scriptEngine catalog))
      (s : System (scriptEngine catalog)) (b : Breakpoint) (script : Script.Loaded)
      (p : Script.Point),
      (opened around engine interrupts).Course (past ++ [x]) s ∧
      Leg.SetAfterStop around.home q past b ∧ ComesTo around past x q b script p ∧
      p.line = line ∧ script.isKnownAs around.home q = known ∧ s.worker.halt?.isSome = known := by
  obtain ⟨legs, s, hlegs, hp⟩ := Course.exists_of_travel h
  obtain ⟨hstop, hp⟩ := Bool.and_eq_true_iff.mp hp
  obtain ⟨hreturned, hp⟩ := Bool.and_eq_true_iff.mp hp
  obtain ⟨t, hst, hp⟩ := (Option.any_eq_true _ _).mp hp
  obtain ⟨more, u, hmore, hp⟩ := Course.exists_of_travel hp
  obtain ⟨hnone, hp⟩ := Bool.and_eq_true_iff.mp hp
  obtain ⟨hlooking, hp⟩ := Bool.and_eq_true_iff.mp hp
  obtain ⟨v, huv, hhalts⟩ := (Option.any_eq_true _ _).mp hp
  obtain ⟨z, hz, hshows⟩ := List.any_eq_true.mp hstop
  obtain ⟨event, hevent, hpath⟩ := (Option.any_eq_true _ _).mp hshows
  obtain ⟨before, rest, rfl⟩ := List.append_of_mem hz
  obtain ⟨⟨call, list⟩, hanswer, hreturns⟩ := (Option.any_eq_true _ _).mp hreturned
  obtain ⟨hcall, hlist⟩ := Bool.and_eq_true_iff.mp hreturns
  obtain ⟨requests, rfl⟩ := BreakpointCall.exists_of_path? (beq_iff_eq.mp hcall)
  obtain ⟨b, hm, hbp⟩ := List.any_eq_true.mp hlist
  obtain ⟨hv, hbp⟩ := Bool.and_eq_true_iff.mp hbp
  obtain ⟨hl, hbp⟩ := Bool.and_eq_true_iff.mp hbp
  obtain ⟨hc, hh⟩ := Bool.and_eq_true_iff.mp hbp
  obtain ⟨⟨script, p⟩, hscript, hat⟩ := (Option.any_eq_true _ _).mp hlooking
  obtain ⟨hline, hat⟩ := Bool.and_eq_true_iff.mp hat
  obtain ⟨hshown, hknown⟩ := Bool.and_eq_true_iff.mp hat
  have hline : p.line = line := beq_iff_eq.mp hline
  have hcourse := hlegs.append (.cons hst hmore)
  have haround := (hcourse.standing hb).surroundings
  rw [haround] at hshown hknown
  have hset : Leg.SetOn around.home q (rest ++ ⟨s, .work, t⟩ :: more) b := by
    refine ⟨rest, ⟨s, .work, t⟩, more, requests, list, rfl, hanswer, hm, ?_⟩
    intro y hy call list hr
    have hn := Option.isNone_iff_eq_none.mp (List.all_eq_true.mp hnone y hy)
    cases hn.symm.trans hr
  have hpast : (before ++ z :: rest) ++ ⟨s, .work, t⟩ :: more =
      before ++ z :: (rest ++ ⟨s, .work, t⟩ :: more) := by simp
  rw [hpast] at hcourse
  refine ⟨before ++ z :: (rest ++ ⟨s, .work, t⟩ :: more), ⟨u, .work, v⟩, v, b, script, p,
    hcourse.step .work huv, ⟨before, z, _, event, rfl, hevent, beq_iff_eq.mp hpath, hset⟩, ?_,
    hline, beq_iff_eq.mp hknown, beq_iff_eq.mp hhalts⟩
  exact ⟨hset.after before z, hv, ⟨beq_iff_eq.mp hc, beq_iff_eq.mp hh⟩, looks_of_looking? hscript,
    (beq_iff_eq.mp hl).trans (congrArg some hline.symm), beq_iff_eq.mp hshown⟩

/-- A script of two statements on another machine. -/
def distant : Script.Catalog :=
  { files := [(⟨"/r"⟩, { body := [.command 1 "One", .command 2 "Two"] }, true)] }

/-- To the halt before the first statement, and to a breakpoint on the other one. -/
def setting (q : Path) : List Action :=
  breaking (.file ⟨"/r"⟩ []) ++ [.begin (.request (.setLineBreakpoints q [{ line := 2 }])) false,
    .advance 1, .advance 1, .advance 1, .work]

/-- From one statement to the next one. -/
def goingOn : List Action :=
  [.begin .continue false, .advance 2, .work, .work, .work]

/-- Whatever clients and the engine do, and in whatever order: a verified breakpoint without
conditions on a line of the path under which a script is shown stops the script whenever it comes to
the line, if the engine knows the script under that path, and otherwise no halt there names it.
Scripts with absolute paths and without local copies are known under the paths that are shown. -/
theorem Course.halts_on_known_path (hb : engine.breakpoints = [])
    (h : (opened around engine interrupts : System (scriptEngine catalog)).Course
      (past ++ x :: since) s)
    (hx : ComesTo around past x q b script p) (hsince : ∀ y ∈ since, y.action ≠ .work) :
    (script.isKnownAs around.home q = true ↔ ∃ halt, s.HaltsOn q p.line b halt) ∧
      (∀ path, script.path = some path → path.isAbsolute = true →
        script.remote = false ∨ around.workspace.localCopy? path = none →
        script.isKnownAs around.home q = true) := by
  obtain ⟨set, verified, ⟨unconditional, uncounted⟩, ⟨stepping, looks⟩, line, shown⟩ := hx
  refine ⟨?_, fun path hp ha hw => shown ▸ Script.Loaded.isKnownAs_clientPath hp ha hw _⟩
  obtain ⟨hpast, hstep, honward⟩ := h.split
  have hstanding := hpast.standing hb
  obtain ⟨hworker, hsettings⟩ := honward.idle hsince
  rw [looks.session hstep] at hsettings
  obtain ⟨haround, hregistry⟩ := Prod.mk.inj hsettings
  have hsynced : s.session.registry.Synced x.before.engine := hregistry ▸ hstanding.synced
  have hset : b ∈ s.session.registry.breakpoints :=
    hregistry ▸ (hstanding.set b).mpr set.lastReturned
  have hin := hpast.standsIn_of_setOn hb set
  -- All that stands for the breakpoint fires if the engine knows the path.
  have fires {stored : Script.Breakpoint} (hs : s.session.registry.StandsFor b stored) :
      (x.before.engine.reached script p stored).2 = script.isKnownAs around.home q :=
    hs.reached_snd hin unconditional uncounted line x.before.engine
  constructor
  · intro known
    obtain ⟨stored, hm, hstands⟩ := hsynced.exists_stored_of_verified hset verified
    have hfires := (fires hstands).trans known
    have hh : x.before.engine.halts script stepping p x.before.interrupts = true :=
      Script.State.halts_of_reached hm hfires
    have hclosed := closesAborted_reaches (hpast.reaches (.refl _))
    obtain ⟨k, execution, hw⟩ := looks.halting hclosed hstep hh
    have hw := hworker.trans hw
    have hpath : (s.session.around.workspace.clientPath script.path script.remote).1 = q := by
      rw [haround, hstanding.surroundings]
      exact shown
    have hnames := Session.names_haltAt hsynced hstanding.ordered hh
    have hnamed := (hnames.mem_iff b).mpr ⟨hset, stored, hm, hstands, hfires⟩
    exact ⟨Session.haltAt x.before.engine script p, ⟨k, execution, hw⟩, hpath, rfl, hnamed,
      step_halting (h.reaches (.refl _)) hw⟩
  · rintro ⟨halt, hx⟩
    obtain ⟨k, execution, hw⟩ := hx.halting
    rw [looks.action] at hstep
    have hcame := hworker.symm.trans hw
    obtain ⟨script', stepping', p', hl, hh, rfl, -⟩ := looks_of_halting hstep hcame
    obtain ⟨rfl, rfl⟩ : script' = script ∧ p' = p := by
      obtain ⟨_, _, hw⟩ := looks.running
      obtain ⟨_, _, hw'⟩ := hl.running
      cases hw.symm.trans hw'
      exact ⟨rfl, rfl⟩
    have hnames := Session.names_haltAt hsynced hstanding.ordered hh
    obtain ⟨-, stored, -, hstands, hfires⟩ := (hnames.mem_iff b).mp hx.named
    exact (fires hstands).symm.trans hfires

/-- A script of another machine without a local copy. -/
theorem Course.halts_on_known_path_distant :
    ∃ (past : List (Leg (scriptEngine distant))) (x : Leg (scriptEngine distant))
      (s : System (scriptEngine distant)) (b : Breakpoint) (script : Script.Loaded)
      (p : Script.Point),
      (opened { workspace := [(⟨"/other"⟩, ⟨"/s"⟩)], home := .at ⟨"/h"⟩ } (Script.State.initial [] [])
        { breakRequested := true }).Course (past ++ [x]) s ∧
      ComesTo { workspace := [(⟨"/other"⟩, ⟨"/s"⟩)], home := .at ⟨"/h"⟩ } past x ⟨"/r"⟩ b script p ∧
      script.isKnownAs (.at ⟨"/h"⟩) ⟨"/r"⟩ = true ∧ ∃ halt, s.HaltsOn ⟨"/r"⟩ 2 b halt := by
  have hl : (opened { workspace := [(⟨"/other"⟩, ⟨"/s"⟩)], home := .at ⟨"/h"⟩ }
      (Script.State.initial [] []) { breakRequested := true } :
      System (scriptEngine distant)).leadsTo (setting ⟨"/r"⟩) goingOn ⟨"/r"⟩ 2 true = true := by cbv
  have hb : (Script.State.initial [] []).breakpoints = [] := rfl
  obtain ⟨past, x, s, b, script, p, hc, -, hx, hline, hknown, -⟩ := exists_comesTo hb hl
  have hhalts := (hc.halts_on_known_path hb hx (List.forall_mem_nil _)).1.mp hknown
  exact ⟨past, x, s, b, script, p, hc, hx, hknown, hline ▸ hhalts⟩

/-- The path of a local copy is shown and taken for breakpoints, which are returned as verified; the
script comes to the line, and no halt there names the breakpoint. -/
theorem local_copy_passed_over :
    ∃ (past : List (Leg (scriptEngine distant))) (x : Leg (scriptEngine distant))
      (s : System (scriptEngine distant)) (b : Breakpoint) (script : Script.Loaded)
      (p : Script.Point),
      (opened { workspace := [(⟨"/r"⟩, ⟨"/s"⟩)], home := .at ⟨"/h"⟩ } (Script.State.initial [] [])
        { breakRequested := true }).Course (past ++ [x]) s ∧
      Leg.SetAfterStop (.at ⟨"/h"⟩) ⟨"/s"⟩ past b ∧
      ComesTo { workspace := [(⟨"/r"⟩, ⟨"/s"⟩)], home := .at ⟨"/h"⟩ } past x ⟨"/s"⟩ b script p ∧
      ¬ ∃ halt, s.HaltsOn ⟨"/s"⟩ p.line b halt := by
  have hl : (opened { workspace := [(⟨"/r"⟩, ⟨"/s"⟩)], home := .at ⟨"/h"⟩ }
      (Script.State.initial [] []) { breakRequested := true } :
      System (scriptEngine distant)).leadsTo (setting ⟨"/s"⟩) goingOn ⟨"/s"⟩ 2 false = true := by
    cbv
  have hb : (Script.State.initial [] []).breakpoints = [] := rfl
  obtain ⟨past, x, s, b, script, p, hc, hset, hx, -, -, hn⟩ := exists_comesTo hb hl
  refine ⟨past, x, s, b, script, p, hc, hset, hx, ?_⟩
  rintro ⟨halt, hh⟩
  obtain ⟨k, execution, hw⟩ := hh.halting
  rw [hw] at hn
  cases hn

end System
end Stepwise
