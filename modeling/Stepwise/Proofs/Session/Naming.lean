import Stepwise.Proofs.Session.Chronicle
import Stepwise.Proofs.Session.Conversation
import Stepwise.Proofs.Session.Standing

namespace Stepwise

variable {ρ : Type} {E : Engine}

/-- The stop that the step tells of. -/
def Leg.stop? (x : Leg E) : Option StoppedEvent :=
  x.after.session.queuedStops[x.before.session.queuedStops.length]?

namespace Move

variable {s t : Shared ρ}

/-- A thread that comes with a halt did so before, or it was running. -/
theorem halting (m : Move s t) {halt : Halt} {k : Resume → ρ} {execution : Nat}
    (ht : t.worker = .halting halt k execution) :
    t.worker = s.worker ∨ ∃ run, s.worker = .running run execution false := by
  cases m with
  | leaveStop => exact .inl (Shared.worker_send _ _)
  | leave =>
    left
    unfold Shared.terminate
    split
    · exact Shared.worker_send _ _
    · rfl
  | run r execution closing running ran =>
    cases ran with
    | halted =>
      cases ht
      exact .inr ⟨r, running⟩
    | _ => cases ht
  | pick | serve | crash | launch | resume | stop | stopRun | goOn | halt | refuseHalt | complete
    | completeLast | exit => cases ht
  | _ => exact .inl rfl

end Move

namespace System

section

variable {s t : System E} {legs : List (Leg E)} {around : Surroundings} {engine : E.State}
  {interrupts : Interrupts} {halt : Halt} {k : Resume → E.Run} {execution : Nat}

theorem stop?_cases (hr : Reaches (opened around engine interrupts) s) {a : Action}
    (h : s.step a = some t) :
    (Leg.stop? ⟨s, a, t⟩ = none ∧ t.session.queuedStops = s.session.queuedStops) ∨
      ∃ halt run execution, s.worker = .halting halt run execution ∧
        Leg.stop? ⟨s, a, t⟩ = some (s.session.stoppedEvent halt) ∧
        t.session.queuedStops = s.session.queuedStops ++ [s.session.stoppedEvent halt] := by
  rcases (step_move (departing_reaches hr) h).queuedStops (stopsTold_reaches hr).kept with
    hq | ⟨halt, run, execution, hw, -, -, hq⟩
  · have hq : t.session.queuedStops = s.session.queuedStops := hq
    exact .inl ⟨by simp [Leg.stop?, hq], hq⟩
  · have hq : t.session.queuedStops = s.session.queuedStops ++ [s.session.stoppedEvent halt] := hq
    exact .inr ⟨halt, run, execution, hw, by simp [Leg.stop?, hq], hq⟩

/-- The stops that were queued are those that the steps told of. -/
theorem Course.queuedStops (h : (opened around engine interrupts : System E).Course legs t) :
    t.session.queuedStops = legs.filterMap Leg.stop? := by
  induction h with
  | rest => rfl
  | step a h hs ih =>
    rw [List.filterMap_append, ← ih]
    rcases stop?_cases (h.reaches (.refl _)) hs with ⟨hn, hq⟩ | ⟨_, _, _, _, hx, hq⟩
    · simp [hn, hq]
    · simp [hx, hq]

theorem halting_work (h : s.step .work = some t) (ht : t.worker = .halting halt k execution) :
    ∃ run, s.worker = .running run execution false ∧
      (E.next run s.engine s.interrupts).1 = .halted halt k ∧ t.session = s.session := by
  obtain ⟨⟨u, ms⟩, hwork, rfl⟩ := Option.map_eq_some_iff.mp h
  rcases (work_move hwork).halting ht with hw | ⟨run, hw⟩
  · -- A thread that came with a halt has told of it.
    have hw : s.worker = .halting halt k execution := hw.symm.trans ht
    simp only [work, hw, Option.some.injEq, Prod.mk.injEq] at hwork
    rw [← hwork.1] at ht
    unfold tellHalt at ht
    split at ht
    · rw [worker_crash] at ht
      cases ht
    · dsimp only at ht
      split at ht <;> cases ht
  · have hw : s.worker = .running run execution false := hw
    refine ⟨run, hw, ?_⟩
    simp only [work, hw] at hwork
    refine ⟨?_, session_run hwork⟩
    unfold System.run at hwork
    rcases hn : E.next run s.engine s.interrupts with ⟨signal, engine, interrupts⟩
    rw [hn] at hwork
    cases signal with
    | halted h' k' =>
      cases hwork
      cases ht
      rfl
    | blocked => cases hwork
    | crashed =>
      cases hwork
      rw [worker_crash] at ht
      cases ht
    | safePoint | paused | finished =>
      cases hwork
      cases ht

end
end System

namespace Registry

variable {r : Registry} {s : Script.State} {b : Breakpoint} {stored : Script.Breakpoint}

/-- The breakpoint of the client stands for the one that the engine has stored. -/
def StandsFor (r : Registry) (b : Breakpoint) (stored : Script.Breakpoint) : Prop :=
  (stored.id, b) ∈ r.byEngineId ∧ Mirrors (stored.id, b) stored

theorem Synced.exists_standsFor (h : r.Synced s) (hs : stored ∈ s.breakpoints) :
    ∃ b, r.byEngineId.lookup stored.id = some b ∧ r.StandsFor b stored := by
  obtain ⟨⟨id, b⟩, he, hm⟩ := h.matched.exists_entry hs
  obtain rfl : id = stored.id := hm.id
  have hl : (r.byEngineId.lookup stored.id).isSome = true :=
    List.lookup_isSome_iff.mpr ⟨_, he, by simp⟩
  obtain ⟨c, hc⟩ := Option.isSome_iff_exists.mp hl
  obtain ⟨_, _, heq, _⟩ := List.lookup_eq_some_iff.mp hc
  have hmem : (stored.id, c) ∈ r.byEngineId := by simp [heq]
  cases List.inj_on_of_nodup_map h.nodup_keys he hmem rfl
  exact ⟨b, hc, he, hm⟩

theorem Synced.standsFor_unique (h : r.Synced s) {c : Breakpoint} (hb : r.StandsFor b stored)
    (hc : r.StandsFor c stored) : b = c :=
  congrArg Prod.snd (List.inj_on_of_nodup_map h.nodup_keys hb.1 hc.1 rfl)

/-- Of the engine's breakpoints none is passed over. -/
theorem Synced.resolveHits (h : r.Synced s) {l : List Script.Breakpoint}
    (hl : ∀ stored ∈ l, stored ∈ s.breakpoints) :
    List.Forall₂ r.StandsFor (r.resolveHits (l.map (·.id))) l := by
  induction l with
  | nil => exact .nil
  | cons stored rest ih =>
    obtain ⟨hs, hr⟩ := List.forall_mem_cons.mp hl
    obtain ⟨b, hb, hstands⟩ := h.exists_standsFor hs
    have he : r.resolveHits ((stored :: rest).map (·.id)) = b :: r.resolveHits (rest.map (·.id)) :=
      List.filterMap_cons_some hb
    rw [he]
    exact .cons hstands (ih hr)

/-- Breakpoints that stand for others are set. -/
theorem Synced.mem_of_standsFor (h : r.Synced s) (hb : r.StandsFor b stored) :
    b ∈ r.breakpoints := by
  have hv : b ∈ r.verified := h.reached.subset (List.mem_map_of_mem hb.1)
  exact mem_breakpoints.mpr (List.mem_append.mp (List.mem_filter.mp hv).1)

end Registry

/-- The path of the script as the engine knows it. -/
def StoppedEvent.enginePath (event : StoppedEvent) : Path :=
  event.remoteScriptPath.getD event.scriptPath

/-- The breakpoint is where the script stopped: on the line of the script, or on the command that is
about to run. -/
def Breakpoint.IsMetAt (b : Breakpoint) (script : Script.Loaded) (p : Script.Point)
    (event : StoppedEvent) : Prop :=
  (∃ path, b.source = some path ∧ b.line = some event.line ∧ b.name = none ∧
    script.path = some event.enginePath ∧ path.same event.enginePath = true) ∨
  (∃ name spelled, b.name = some name ∧ b.source = none ∧ p.effect = .command spelled ∧
    Text.sameName spelled name = true)

/-- The stop names the breakpoints that fired when the thread looked at them. -/
structure Registry.Names (r : Registry) (s : Script.State) (i : Interrupts)
    (script : Script.Loaded) (stepping : Script.Stepping) (p : Script.Point)
    (event : StoppedEvent) : Prop where
  agrees : r.Agrees s
  ordered : s.Ordered
  fired : List.Forall₂ r.StandsFor event.breakpoints
    (s.breakpoints.filter fun stored => (s.reached script p stored).2)
  mem_iff : ∀ b, b ∈ event.breakpoints ↔ b ∈ r.breakpoints ∧
    ∃ stored ∈ s.breakpoints, r.StandsFor b stored ∧ (s.reached script p stored).2 = true
  met : ∀ b ∈ event.breakpoints, b.IsMetAt script p event
  /-- A stop without breakpoints is a step or a break. -/
  eq_nil_iff : event.breakpoints = [] ↔
    (∀ stored ∈ s.breakpoints, (s.reached script p stored).2 = false) ∧
      (stepping.endsAt s.frames.length = true ∨ i.breakRequested = true)

namespace Session

variable {s : Session} {e : Script.State} {script : Script.Loaded} {stepping : Script.Stepping}
  {p : Script.Point} {i : Interrupts}

/-- The halt that a script comes with. -/
def haltAt (e : Script.State) (script : Script.Loaded) (p : Script.Point) : Halt :=
  ⟨script.path, p.line, 1, (e.looked script p).1, script.remote⟩

theorem enginePath_stoppedEvent {halt : Halt} {path : Path} (h : halt.scriptPath = some path) :
    (s.stoppedEvent halt).enginePath = path := by
  unfold StoppedEvent.enginePath stoppedEvent Workspace.clientPath
  rw [h]
  cases halt.remote <;> rfl

theorem isMetAt_of_fires {b : Breakpoint} {stored : Script.Breakpoint}
    (hb : Mirrors (stored.id, b) stored) (hf : (e.reached script p stored).2 = true) :
    b.IsMetAt script p (s.stoppedEvent (haltAt e script p)) := by
  have hat := Script.State.isAt_of_reached hf
  have hplace := hb.place
  unfold Script.Breakpoint.isAt at hat
  cases hl : stored.location with
  | line path line column =>
    rw [hl] at hat hplace
    obtain ⟨hsource, hline, -, hname⟩ := hplace
    obtain ⟨hp, hn⟩ := Bool.and_eq_true_iff.mp hat
    obtain ⟨q, hq, hs⟩ := (Option.any_eq_true _ _).mp hp
    have hpath : (s.stoppedEvent (haltAt e script p)).enginePath = q := enginePath_stoppedEvent hq
    refine .inl ⟨path, hsource, ?_, hname, ?_, ?_⟩
    · rw [hline, beq_iff_eq.mp hn]
      rfl
    · rw [hpath, hq]
    · rw [hpath]
      exact hs
  | command name =>
    rw [hl] at hat hplace
    obtain ⟨hsource, -, -, hname⟩ := hplace
    obtain ⟨spelled, hc, hs⟩ := (Option.any_eq_true _ _).mp hat
    refine .inr ⟨name, spelled, hname, hsource, ?_, hs⟩
    unfold Script.Point.command? at hc
    split at hc
    · next he =>
      cases hc
      exact he
    · cases hc

/-- A halt that a script comes with names what fired. -/
theorem names_haltAt (h : s.registry.Synced e) (ho : e.Ordered)
    (hh : e.halts script stepping p i = true) :
    s.registry.Names e i script stepping p (s.stoppedEvent (haltAt e script p)) := by
  let fired := e.breakpoints.filter fun stored => (e.reached script p stored).2
  have hfired : List.Forall₂ s.registry.StandsFor
      (s.stoppedEvent (haltAt e script p)).breakpoints fired := by
    have hl : ∀ stored ∈ fired, stored ∈ e.breakpoints := fun _ hm => (List.mem_filter.mp hm).1
    have hr := h.resolveHits hl
    rw [← e.looked_fst script p] at hr
    exact hr
  have stands {b : Breakpoint} (hb : b ∈ (s.stoppedEvent (haltAt e script p)).breakpoints) :
      ∃ stored ∈ e.breakpoints, s.registry.StandsFor b stored ∧
        (e.reached script p stored).2 = true := by
    obtain ⟨n, hn, rfl⟩ := List.mem_iff_getElem.mp hb
    have hn' : n < fired.length := hfired.length_eq ▸ hn
    obtain ⟨hm, hf⟩ := List.mem_filter.mp (List.getElem_mem hn')
    exact ⟨fired[n], hm, hfired.get hn hn', hf⟩
  refine ⟨h.agrees, ho, hfired, fun b => ⟨fun hb => ?_, ?_⟩, fun b hb => ?_, ?_⟩
  · obtain ⟨stored, hm, hs, hf⟩ := stands hb
    exact ⟨h.mem_of_standsFor hs, stored, hm, hs, hf⟩
  · rintro ⟨-, stored, hm, hs, hf⟩
    obtain ⟨n, hn, rfl⟩ := List.mem_iff_getElem.mp (List.mem_filter.mpr ⟨hm, hf⟩ : stored ∈ fired)
    have hn' : n < (s.stoppedEvent (haltAt e script p)).breakpoints.length :=
      hfired.length_eq ▸ hn
    rw [h.standsFor_unique hs (hfired.get hn' hn)]
    exact List.getElem_mem hn'
  · obtain ⟨stored, _, hs, hf⟩ := stands hb
    exact isMetAt_of_fires hs.2 hf
  · have hnil : (s.stoppedEvent (haltAt e script p)).breakpoints = [] ↔ fired = [] := by
      rw [← List.length_eq_zero_iff, hfired.length_eq, List.length_eq_zero_iff]
    have hnone : fired = [] ↔
        ∀ stored ∈ e.breakpoints, (e.reached script p stored).2 = false := by
      simp [fired]
    rw [hnil, hnone]
    refine ⟨fun hn => ⟨hn, ?_⟩, And.left⟩
    have hl : (e.looked script p).1 = [] := by
      rw [e.looked_fst script p, List.map_eq_nil_iff]
      exact hnone.mpr hn
    simpa [Script.State.halts, hl] using hh

end Session

namespace System

variable {catalog : Script.Catalog} {s t : System (scriptEngine catalog)}
  {legs before after : List (Leg (scriptEngine catalog))} {around : Surroundings}
  {engine : Script.State} {interrupts : Interrupts}

/-- The step after which the thread comes with a halt: it looked at the breakpoints and found a
reason to halt. -/
theorem looks_of_halting (h : s.step .work = some t) {halt : Halt}
    {k : Resume → (scriptEngine catalog).Run} {execution : Nat}
    (ht : t.worker = .halting halt k execution) :
    ∃ script stepping p, s.Looks .work script stepping p ∧
      s.engine.halts script stepping p s.interrupts = true ∧
      halt = Session.haltAt s.engine script p ∧ t.session = s.session := by
  obtain ⟨run, hw, hn, hs⟩ := halting_work h ht
  have hn : (Script.next catalog run s.engine s.interrupts).1.halt? = some halt := by
    rw [show (Script.next catalog run s.engine s.interrupts).1 = .halted halt k from hn]
    rfl
  cases hl : Script.Run.looks run s.interrupts with
  | false => cases (Script.next_quiet catalog s.engine hl).halt?.symm.trans hn
  | true =>
    obtain ⟨script, stepping, p, rfl, hi⟩ := Script.Run.exists_of_looks hl
    rw [(Script.next_checking catalog s.engine script stepping p hi).1] at hn
    obtain ⟨hh, he⟩ := Option.ite_none_right_eq_some.mp hn
    exact ⟨script, stepping, p, ⟨rfl, ⟨execution, false, hw⟩, hi⟩, hh, (Option.some.inj he).symm, hs⟩

/-- A thread that comes with a halt has looked at the breakpoints in its last step. -/
theorem Course.looked (h : (opened around engine interrupts : System (scriptEngine catalog)).Course
      legs t) {halt : Halt} {k : Resume → (scriptEngine catalog).Run} {execution : Nat}
    (ht : t.worker = .halting halt k execution) :
    ∃ before x between script stepping p, legs = before ++ x :: between ∧
      (∀ y ∈ between, y.action ≠ .work) ∧ x.before.Looks x.action script stepping p ∧
      x.before.engine.halts script stepping p x.before.interrupts = true ∧
      halt = Session.haltAt x.before.engine script p ∧
      t.session.settings = x.before.session.settings := by
  induction h with
  | rest => cases ht
  | @step legs t u a h hs ih =>
    by_cases ha : a = .work
    · subst ha
      obtain ⟨script, stepping, p, hl, hh, he, hsession⟩ := looks_of_halting hs ht
      exact ⟨legs, ⟨t, .work, u⟩, [], script, stepping, p, rfl, List.forall_mem_nil _, hl, hh, he,
        congrArg Session.settings hsession⟩
    · have hw : u.worker = t.worker := (Prod.mk.inj (thread_step ha hs)).2
      obtain ⟨before, x, between, script, stepping, p, rfl, hb, hl, hh, he, hset⟩ :=
        ih (hw ▸ ht)
      refine ⟨before, x, between ++ [⟨t, a, u⟩], script, stepping, p, by simp, ?_, hl, hh, he,
        (settings_step ha hs).trans hset⟩
      exact List.forall_mem_append.mpr ⟨hb, List.forall_mem_singleton.mpr ha⟩

end System

namespace System

variable {catalog : Script.Catalog} {t : System (scriptEngine catalog)}
  {legs : List (Leg (scriptEngine catalog))} {around : Surroundings} {engine : Script.State}
  {interrupts : Interrupts}

end System
end Stepwise
