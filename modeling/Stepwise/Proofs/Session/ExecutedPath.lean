import Stepwise.Proofs.Path.Spelling
import Stepwise.Proofs.Session.ShownPath
import Stepwise.Proofs.Session.Sources

namespace Stepwise

theorem Script.Catalog.path_of_find {catalog : Catalog} {q : Path} {arguments rest : List String}
    {script : Loaded} (h : catalog.find (.file q arguments) = .ok (script, rest)) :
    script.path = some q := by
  simp only [Catalog.find] at h
  split at h <;> cases h
  rfl

/-- The path of the file that the command executes, and the number of the execution. -/
def Command.file? : Command → Option (Path × Nat)
  | .execute (.file path _) execution => some (path, execution)
  | _ => none

theorem Command.exists_of_file? {c : Command} {q : Path} {execution : Nat}
    (h : c.file? = some (q, execution)) :
    ∃ arguments, c = .execute (.file q arguments) execution := by
  unfold file? at h
  split at h <;> cases h
  exact ⟨_, rfl⟩

namespace System

variable {catalog : Script.Catalog} {s t : System (scriptEngine catalog)}
  {past since : List (Leg (scriptEngine catalog))} {x : Leg (scriptEngine catalog)}
  {around : Surroundings} {engine : Script.State} {interrupts : Interrupts} {q : Path}
  {b : Breakpoint} {script : Script.Loaded} {stepping : Script.Stepping} {p : Script.Point}

/-- The thread is busy with an execution of the file under the path. -/
def Executes (past : List (Leg (scriptEngine catalog))) (s : System (scriptEngine catalog))
    (q : Path) : Prop :=
  ∃ z ∈ past, ∃ arguments execution, z.sent? = some (.execute (.file q arguments) execution) ∧
    s.worker.execution? = some execution

/-- An execution of the file under the path comes, without a request to abort, to the line of a
breakpoint without conditions; it was returned as verified when breakpoints were set on the path. -/
structure RunsInto (around : Surroundings) (past : List (Leg (scriptEngine catalog)))
    (x : Leg (scriptEngine catalog)) (q : Path) (b : Breakpoint) (script : Script.Loaded)
    (p : Script.Point) : Prop where
  set : Leg.SetOn around.home q past b
  verified : b.verified = true
  unconditional : b.condition = none ∧ b.hitCondition = none
  executes : x.before.Executes past q
  looks : ∃ stepping, x.before.Looks x.action script stepping p
  line : b.line = some p.line

/-- What runs in an execution of the file under the path is known to the engine under the path. -/
theorem Course.path_of_executes (h : (opened around engine interrupts).Course past s)
    (he : s.Executes past q) {a : Action} (hl : s.Looks a script stepping p) :
    script.path = some q := by
  obtain ⟨z, hz, arguments, execution, hsent, hbusy⟩ := he
  obtain ⟨busy, closing, hw⟩ := hl.running
  have hrun := h.runs_source
  rw [hw] at hrun hbusy
  cases hbusy
  obtain ⟨source, hs, rest, hfind⟩ := hrun
  cases h.source_unique hs (List.mem_filterMap.mpr ⟨z, hz, hsent⟩)
  exact Script.Catalog.path_of_find hfind

/-- The thread comes from its look at the breakpoints with a halt that names the client's breakpoint
if and only if a breakpoint of the engine fires for which it stands. -/
theorem Course.haltsOn_iff_fires (hb : engine.breakpoints = [])
    (h : (opened around engine interrupts).Course (past ++ x :: since) s)
    (hl : x.before.Looks x.action script stepping p)
    (hset : b ∈ x.before.session.registry.breakpoints) (hsince : ∀ y ∈ since, y.action ≠ .work) :
    (∃ halt, s.HaltsOn (around.workspace.clientPath script.path script.remote).1 p.line b halt) ↔
      ∃ stored ∈ x.before.engine.breakpoints, x.before.session.registry.StandsFor b stored ∧
        (x.before.engine.reached script p stored).2 = true := by
  obtain ⟨hpast, hstep, honward⟩ := h.split
  have hstanding := hpast.standing hb
  obtain ⟨hworker, hsettings⟩ := honward.idle hsince
  rw [hl.session hstep] at hsettings
  obtain ⟨haround, hregistry⟩ := Prod.mk.inj hsettings
  have hsynced : s.session.registry.Synced x.before.engine := hregistry ▸ hstanding.synced
  have hset : b ∈ s.session.registry.breakpoints := hregistry ▸ hset
  rw [← hregistry]
  constructor
  · rintro ⟨halt, hx⟩
    obtain ⟨k, execution, hw⟩ := hx.halting
    rw [hl.action] at hstep
    obtain ⟨script', stepping', p', hl', hh, rfl, -⟩ :=
      looks_of_halting hstep (hworker.symm.trans hw)
    obtain ⟨rfl, rfl⟩ : script' = script ∧ p' = p := by
      obtain ⟨_, _, hw⟩ := hl.running
      obtain ⟨_, _, hw'⟩ := hl'.running
      cases hw.symm.trans hw'
      exact ⟨rfl, rfl⟩
    have hnames := Session.names_haltAt hsynced hstanding.ordered hh
    exact ((hnames.mem_iff b).mp hx.named).2
  · rintro ⟨stored, hm, hstands, hfires⟩
    have hh : x.before.engine.halts script stepping p x.before.interrupts = true :=
      Script.State.halts_of_reached hm hfires
    obtain ⟨k, execution, hw⟩ := hl.halting (closesAborted_reaches (hpast.reaches (.refl _))) hstep hh
    have hw := hworker.trans hw
    have hnames := Session.names_haltAt hsynced hstanding.ordered hh
    have hshown : s.session.around = around := haround.trans hstanding.surroundings
    exact ⟨Session.haltAt x.before.engine script p, ⟨k, execution, hw⟩, hshown ▸ rfl, rfl,
      (hnames.mem_iff b).mpr ⟨hset, stored, hm, hstands, hfires⟩,
      step_halting (h.reaches (.refl _)) hw⟩

/-- Some steps lead to the answer to a call that sets a breakpoint on the path, others lead from
there into an execution of the file under the path and to the line, without an answer to another
call. `halts` tells whether the thread halts. -/
def leadsInto (s : System (scriptEngine catalog)) (earlier later : List Action) (q : Path)
    (line : Nat) (halts : Bool) : Bool :=
  (s.travel earlier).any fun x =>
    ((x.2.returned? .work).any fun answer => answer.1.path? == some q &&
      answer.2.any fun b => b.verified && (b.line == some line &&
        (b.condition == none && b.hitCondition == none))) &&
    ((x.2.step .work).any fun t => (t.travel later).any fun y =>
      (y.1.all fun z => z.returned?.isNone) &&
      ((y.1.any fun z => (z.sent?.bind Command.file?).any fun e =>
        e.1 == q && y.2.worker.execution? == some e.2) &&
      ((y.2.looking?.any fun z => z.2.line == line) &&
      ((y.2.step .work).any fun u => u.worker.halt?.isSome == halts))))

theorem exists_runsInto {earlier later : List Action} {line : Nat} {halts : Bool}
    (h : (opened around engine interrupts : System (scriptEngine catalog)).leadsInto
      earlier later q line halts = true) :
    ∃ (past : List (Leg (scriptEngine catalog))) (x : Leg (scriptEngine catalog))
      (s : System (scriptEngine catalog)) (b : Breakpoint) (script : Script.Loaded)
      (p : Script.Point),
      (opened around engine interrupts).Course (past ++ [x]) s ∧
      RunsInto around past x q b script p ∧ p.line = line ∧ s.worker.halt?.isSome = halts := by
  obtain ⟨legs, s, hlegs, hp⟩ := Course.exists_of_travel h
  obtain ⟨hreturned, hp⟩ := Bool.and_eq_true_iff.mp hp
  obtain ⟨t, hst, hp⟩ := (Option.any_eq_true _ _).mp hp
  obtain ⟨more, u, hmore, hp⟩ := Course.exists_of_travel hp
  obtain ⟨hnone, hp⟩ := Bool.and_eq_true_iff.mp hp
  obtain ⟨hsent, hp⟩ := Bool.and_eq_true_iff.mp hp
  obtain ⟨hlooking, hp⟩ := Bool.and_eq_true_iff.mp hp
  obtain ⟨v, huv, hhalts⟩ := (Option.any_eq_true _ _).mp hp
  obtain ⟨⟨call, list⟩, hanswer, hreturns⟩ := (Option.any_eq_true _ _).mp hreturned
  obtain ⟨hcall, hlist⟩ := Bool.and_eq_true_iff.mp hreturns
  obtain ⟨requests, rfl⟩ := BreakpointCall.exists_of_path? (beq_iff_eq.mp hcall)
  obtain ⟨b, hm, hbp⟩ := List.any_eq_true.mp hlist
  obtain ⟨hv, hbp⟩ := Bool.and_eq_true_iff.mp hbp
  obtain ⟨hl, hbp⟩ := Bool.and_eq_true_iff.mp hbp
  obtain ⟨hc, hh⟩ := Bool.and_eq_true_iff.mp hbp
  obtain ⟨z, hz, hbegun⟩ := List.any_eq_true.mp hsent
  obtain ⟨⟨path, execution⟩, hfile, hnumber⟩ := (Option.any_eq_true _ _).mp hbegun
  obtain ⟨hpath, hbusy⟩ := Bool.and_eq_true_iff.mp hnumber
  obtain ⟨c, hcommand, hfile⟩ := Option.bind_eq_some_iff.mp hfile
  obtain ⟨arguments, rfl⟩ := Command.exists_of_file? hfile
  obtain rfl : path = q := beq_iff_eq.mp hpath
  obtain ⟨⟨script, p⟩, hscript, hline⟩ := (Option.any_eq_true _ _).mp hlooking
  have hline : p.line = line := beq_iff_eq.mp hline
  have hset : Leg.SetOn around.home path (legs ++ ⟨s, .work, t⟩ :: more) b := by
    refine ⟨legs, ⟨s, .work, t⟩, more, requests, list, rfl, hanswer, hm, ?_⟩
    intro y hy call list hr
    cases (Option.isNone_iff_eq_none.mp (List.all_eq_true.mp hnone y hy)).symm.trans hr
  have hexecutes : u.Executes (legs ++ ⟨s, .work, t⟩ :: more) path :=
    ⟨z, by simp [hz], arguments, execution, hcommand, beq_iff_eq.mp hbusy⟩
  refine ⟨legs ++ ⟨s, .work, t⟩ :: more, ⟨u, .work, v⟩, v, b, script, p,
    (hlegs.append (.cons hst hmore)).step .work huv, ?_, hline, beq_iff_eq.mp hhalts⟩
  exact ⟨hset, hv, ⟨beq_iff_eq.mp hc, beq_iff_eq.mp hh⟩, hexecutes, looks_of_looking? hscript,
    (beq_iff_eq.mp hl).trans (congrArg some hline.symm)⟩

/-- A script of two statements in a file. -/
def filed (q : Path) : Script.Catalog :=
  { files := [(q, { body := [.command 1 "One", .command 2 "Two"] }, false)] }

/-- To the moment at which a breakpoint on the first statement is set. -/
def settingFirst (q : Path) : List Action :=
  [.begin (.request (.setLineBreakpoints q [{ line := 1 }])) false, .advance 0, .advance 0,
    .advance 0, .work]

/-- From there to the first statement of the file. -/
def executing (q : Path) : List Action :=
  [.begin (.execute (.file q [])) false, .advance 1, .work, .work, .work]

/-- Whatever clients and the engine do, and in whatever order: a verified breakpoint without
conditions on a line of a path stops every execution of the file under the same path that comes to
the line, if the path taken for breakpoints is still the one that is executed, and otherwise no halt
there names it.  With a home directory that is known, it is unless the path starts there. -/
theorem Course.halts_on_executed_path (hb : engine.breakpoints = [])
    (h : (opened around engine interrupts).Course (past ++ x :: since) s)
    (hx : RunsInto around past x q b script p) (hsince : ∀ y ∈ since, y.action ≠ .work) :
    ((around.home.expandHome q).same q = true ↔ ∃ halt,
      s.HaltsOn (around.workspace.clientPath (some q) script.remote).1 p.line b halt) ∧
    ∀ folder, around.home = .at folder → folder.IsHome →
      ((around.home.expandHome q).same q = true ↔ ¬ q.StartsAtHome) := by
  obtain ⟨set, verified, ⟨unconditional, uncounted⟩, executes, ⟨stepping, looks⟩, line⟩ := hx
  refine ⟨?_, fun folder hf hhome => hf ▸ hhome.same_expandHome_iff q⟩
  obtain ⟨hpast, -, -⟩ := h.split
  have hstanding := hpast.standing hb
  have hset := (hstanding.set b).mpr set.lastReturned
  have hin := hpast.standsIn_of_setOn hb set
  have hpath := hpast.path_of_executes executes looks
  -- All that stands for the breakpoint fires if the two paths are one.
  have fires {stored : Script.Breakpoint} (hs : x.before.session.registry.StandsFor b stored) :
      (x.before.engine.reached script p stored).2 = (around.home.expandHome q).same q := by
    rw [hs.reached_snd hin unconditional uncounted line x.before.engine, hpath]
    rfl
  rw [← hpath, h.haltsOn_iff_fires hb looks hset hsince]
  constructor
  · intro hsame
    obtain ⟨stored, hm, hstands⟩ := hstanding.synced.exists_stored_of_verified hset verified
    exact ⟨stored, hm, hstands, (fires hstands).trans hsame⟩
  · rintro ⟨stored, -, hstands, hfires⟩
    exact (fires hstands).symm.trans hfires

theorem Course.halts_on_executed_path_filed :
    ∃ (past : List (Leg (scriptEngine (filed ⟨"/a"⟩)))) (x : Leg (scriptEngine (filed ⟨"/a"⟩)))
      (s : System (scriptEngine (filed ⟨"/a"⟩))) (b : Breakpoint) (script : Script.Loaded)
      (p : Script.Point),
      (opened { home := .at ⟨"/h"⟩ } (Script.State.initial [] []) {}).Course (past ++ [x]) s ∧
      RunsInto { home := .at ⟨"/h"⟩ } past x ⟨"/a"⟩ b script p ∧ ∃ halt, s.HaltsOn
        (Workspace.clientPath [] (some ⟨"/a"⟩) script.remote).1 1 b halt := by
  have hl : (opened { home := .at ⟨"/h"⟩ } (Script.State.initial [] []) {} :
      System (scriptEngine (filed ⟨"/a"⟩))).leadsInto (settingFirst ⟨"/a"⟩) (executing ⟨"/a"⟩)
      ⟨"/a"⟩ 1 true = true := by cbv
  have hb : (Script.State.initial [] []).breakpoints = [] := rfl
  obtain ⟨past, x, s, b, script, p, hc, hx, hline, -⟩ := exists_runsInto hl
  have hhalts := (hc.halts_on_executed_path hb hx (List.forall_mem_nil _)).1.mp (by decide)
  exact ⟨past, x, s, b, script, p, hc, hx, hline ▸ hhalts⟩

/-- A file that the engine knows under a path that starts at the home directory is executed under
the path; a breakpoint on it is returned as verified, and the thread passes by its line. -/
theorem expanded_path_passed_over :
    ∃ (past : List (Leg (scriptEngine (filed ⟨"~/a"⟩)))) (x : Leg (scriptEngine (filed ⟨"~/a"⟩)))
      (s : System (scriptEngine (filed ⟨"~/a"⟩))) (b : Breakpoint) (script : Script.Loaded)
      (p : Script.Point),
      (opened { home := .at ⟨"/h"⟩ } (Script.State.initial [] []) {}).Course (past ++ [x]) s ∧
      RunsInto { home := .at ⟨"/h"⟩ } past x ⟨"~/a"⟩ b script p ∧ s.worker.halt? = none := by
  have hl : (opened { home := .at ⟨"/h"⟩ } (Script.State.initial [] []) {} :
      System (scriptEngine (filed ⟨"~/a"⟩))).leadsInto (settingFirst ⟨"~/a"⟩) (executing ⟨"~/a"⟩)
      ⟨"~/a"⟩ 1 false = true := by cbv
  obtain ⟨past, x, s, b, script, p, hc, hx, -, hn⟩ := exists_runsInto hl
  exact ⟨past, x, s, b, script, p, hc, hx,
    Option.isNone_iff_eq_none.mp (Option.isSome_eq_false_iff.mp hn)⟩

end System
end Stepwise
