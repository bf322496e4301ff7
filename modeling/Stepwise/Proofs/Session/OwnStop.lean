import Stepwise.Proofs.Session.Handing
import Stepwise.Proofs.Session.Refusing

namespace Stepwise

variable {E : Engine}

/-- The handle of the container that the request reads or writes. -/
def Request.handle? : Request → Option Handle
  | .expand h => some h
  | .setVariable h _ _ => some h
  | _ => none

namespace Session

variable {s : Session} {h : Handle} {r : Request}

/-- The request fails, and nothing is asked of any engine. -/
def Refuses (s : Session) (r : Request) : Prop :=
  ∃ x : SessionError, ∀ (σ : Type) (cx : Context σ) (home : Home),
    (r.serve cx home).run.run s = pure (.error x, s)

theorem Past.resolve (hp : s.Past h) (hs : s.runState = .stopped) :
    ∃ x, s.resolve h = .error x := by
  have hne : h.generation ≠ s.handles.generation := Nat.ne_of_lt (hp.lt hs)
  cases hr : s.resolve h with
  | error x => exact ⟨x, rfl⟩
  | ok c =>
    obtain ⟨i, hi, _⟩ := HandleTable.resolve_eq_ok_iff.mp (Except.mapError_eq_ok_iff.mp hr)
    exact absurd (HandleTable.check_eq_ok_iff.mp hi).2.1 hne

/-- Without a stop, or in a later one, the handle is of no use. -/
theorem Past.refuses (hp : s.Past h) (hr : r.handle? = some h) : s.Refuses r := by
  by_cases hs : s.runState = .stopped
  · have he : s.ensureStopped = .ok () := ensureStopped_eq_ok_iff.mpr hs
    obtain ⟨x, hx⟩ := hp.resolve hs
    refine ⟨x, fun σ cx home => ?_⟩
    cases r with
    | expand =>
      cases hr
      rw [Request.serve]
      refine SessionM.run_map_error ?_ _
      exact (SessionM.run_read_ok he _).trans (SessionM.run_read_error hx _)
    | setVariable =>
      cases hr
      rw [Request.serve]
      refine SessionM.run_map_error (SessionM.run_bind_error ?_ _) _
      exact (SessionM.run_read_ok he _).trans (SessionM.run_read_error hx _)
    | _ => cases hr
  · obtain ⟨x, hx⟩ := exists_of_unstopped hs
    refine ⟨x, fun σ cx home => Request.serve_unstopped ?_ hx⟩
    cases r with
    | expand | setVariable => rfl
    | _ => cases hr

/-- Nor is anything remembered for it. -/
theorem Past.precheck (hp : s.Past h) (hr : r.handle? = some h) (answer : Answer) :
    r.precheck s ≠ .ok (some answer) := by
  intro hx
  cases r with
  | expand k =>
    cases hr
    obtain ⟨_, hl, _⟩ := Except.map_eq_ok_iff.mp hx
    obtain ⟨_, he, hl⟩ := Except.bind_eq_ok_iff.mp hl
    obtain ⟨c, hc, _⟩ := Except.bind_eq_ok_iff.mp hl
    obtain ⟨x, hx⟩ := hp.resolve (ensureStopped_eq_ok_iff.mp he)
    cases hx.symm.trans hc
  | setVariable =>
    obtain ⟨_, _, he⟩ := Except.map_eq_ok_iff.mp hx
    cases he
  | _ => cases hr

end Session

namespace SessionM

variable {σ α β : Type} {g : Session → Except SessionError α} {s t : Session} {e u : σ} {b : β}

theorem returns_read {f : α → SessionM σ β}
    (h : ((read g >>= f).run.run s).Returns e (.ok b, t) u) :
    ∃ a, g s = .ok a ∧ ((f a).run.run s).Returns e (.ok b, t) u := by
  cases hg : g s with
  | error x =>
    rw [run_read_error hg] at h
    cases h
  | ok a =>
    rw [run_read_ok hg] at h
    exact ⟨a, rfl, h⟩

end SessionM

/-- No answer has been found for the call, and none will be found by its caller alone. -/
def Phase.isUnanswered : Phase → Bool
  | .entered | .admitted | .ready => true
  | .awaiting (some (.given (.ok _))) => false
  | .awaiting _ => true
  | .returned (.error _) => true
  | .leaving | .joining | .returned (.ok _) => false

/-- How many steps a caller may have to take to be done with a request. -/
def Phase.stepsLeft : Phase → Nat
  | .entered => 4
  | .admitted => 3
  | .ready => 2
  | .awaiting _ => 1
  | .leaving | .joining | .returned _ => 0

namespace System

/-- The call asks for this and has no answer. -/
def Unanswered (s : System E) (call : Nat) (r : Request) : Prop :=
  ∃ c, s.calls[call]? = some c ∧ c.operation = .request r ∧ c.phase.isUnanswered = true

section

variable {s t : System E} {a : Action} {call : Nat} {r : Request} {h : Handle}

/-- A request that is refused leaves everything but its caller's reply. -/
theorem serve_of_refuses (hr : s.session.Refuses r) (post : Post E.Run) (call : Nat) :
    (∃ x, s.served r = .given (.error x)) ∧ (s.serve post call r).session = s.session ∧
      (s.serve post call r).engine = s.engine := by
  cases hp : s.poisoned with
  | true => simp [served, serve, hp, System.reply]
  | false =>
    obtain ⟨x, hx⟩ := hr
    have hrun : ((r.serve E.context s.session.around.home).run.run s.session).run s.engine =
        (some (.error x, s.session), s.engine) := by
      rw [hx]
      rfl
    obtain ⟨hserved, hserve⟩ := serve_of_run hp hrun post call
    exact ⟨⟨x, hserved⟩, hserve ▸ rfl, hserve ▸ rfl⟩

theorem Unanswered.step (hu : s.Unanswered call r) (hp : s.session.Past h)
    (hr : r.handle? = some h) (ho : s.Owned) (hs : s.step a = some t) : t.Unanswered call r := by
  obtain ⟨c, hc, hop, hphase⟩ := hu
  rcases calls_step hs with ⟨operation, cancelled, rfl⟩ | hchanged
  · obtain ⟨hlt, _⟩ := List.getElem?_eq_some_iff.mp hc
    exact ⟨c, (List.getElem?_append_left hlt).trans hc, hop, hphase⟩
  obtain ⟨d, hd, hdop, hb⟩ := hchanged.exists_after hc
  refine ⟨d, hd, hdop.trans hop, ?_⟩
  generalize d.phase = p at hb
  cases hb with
  | stays => exact hphase
  | @looked q result _ asks looked =>
    obtain rfl : r = q := Operation.request.inj (hop.symm.trans asks)
    unfold looked? at looked
    split at looked
    · cases looked
      rfl
    · split at looked
      · cases looked
        rfl
      · next answer? hx =>
        obtain ⟨answer, rfl, _⟩ := Option.map_eq_some_iff.mp looked
        exact absurd hx (hp.precheck hr answer)
  | atOnce _ direct => exact absurd hop (direct r)
  | @served post q _ _ serving =>
    obtain ⟨c', hc', hasks⟩ := ho.serving post call q serving
    cases hc.symm.trans hc'
    obtain rfl : r = q := Operation.request.inj (hop.symm.trans hasks)
    obtain ⟨⟨x, hx⟩, _⟩ := serve_of_refuses (hp.refuses hr) post call
    rw [hx]
    rfl
  | @received result given =>
    rw [given] at hphase
    cases result with
    | error x => rfl
    | ok answer => cases hphase
  | leaving _ leaves =>
    rw [hop] at leaves
    rcases leaves with hl | hl <;> cases hl
  | joining leaving =>
    rw [leaving] at hphase
    cases hphase
  | left leaving =>
    rcases leaving with hl | hl <;> rw [hl] at hphase <;> cases hphase
  | admitted | ready | queued | dropped | failed | gaveUp => rfl

theorem Unanswered.course {around : Surroundings} {engine : E.State} {interrupts : Interrupts}
    {legs : List (Leg E)} (hs : Reaches (opened around engine interrupts) s)
    (hc : s.Course legs t) (hb : t.session.queuedStops.length ≤ Session.stopBound)
    (hu : s.Unanswered call r) (hp : s.session.Past h) (hr : r.handle? = some h) :
    t.Unanswered call r := by
  induction hc with
  | rest => exact hu
  | step a hc hstep ih =>
    have hr' := hc.reaches hs
    have hb' := (turn_of_step hr' hstep).length_le.trans hb
    exact (ih hb').step (hc.past hs hb' hp) hr (owned_reaches hr') hstep

end

section

variable {s t : System E} {call : Nat} {c : Call} {r : Request} {h : Handle}

theorem call_setPhase (hc : s.calls[call]? = some c) (phase : Phase) :
    (s.setPhase call phase).calls[call]? = some { c with phase } := by
  simp [setPhase, hc]

/-- The caller need not wait for anybody. -/
theorem exists_step_on (hc : s.calls[call]? = some c) (ho : c.operation = .request r)
    (hu : c.phase.isUnanswered = true) (hn : ∀ result, c.phase ≠ .returned result) :
    ∃ a t d, (a = .advance call ∨ a = .giveUp call) ∧ s.step a = some t ∧
      t.calls[call]? = some d ∧ d.phase.stepsLeft < c.phase.stepsLeft := by
  cases hp : c.phase with
  | entered =>
    refine ⟨.advance call, s.enter call (.request r), ?_⟩
    have hstep : s.step (.advance call) = some (s.enter call (.request r)) := by
      simp [step, advance, hc, hp, ho]
    suffices h : ∃ d, (s.enter call (.request r)).calls[call]? = some d ∧ d.phase.stepsLeft < 4 by
      obtain ⟨d, hd, hlt⟩ := h
      exact ⟨d, .inl rfl, hstep, hd, hlt⟩
    simp only [enter]
    split
    · exact ⟨_, call_setPhase hc _, by simp [Phase.stepsLeft]⟩
    · split <;> exact ⟨_, call_setPhase hc _, by simp [Phase.stepsLeft]⟩
  | admitted =>
    refine ⟨.advance call, s.recheck call, ?_⟩
    have hstep : s.step (.advance call) = some (s.recheck call) := by
      simp [step, advance, hc, hp]
    suffices h : ∃ d, (s.recheck call).calls[call]? = some d ∧ d.phase.stepsLeft < 3 by
      obtain ⟨d, hd, hlt⟩ := h
      exact ⟨d, .inl rfl, hstep, hd, hlt⟩
    unfold recheck
    split
    · exact ⟨_, call_setPhase hc _, by simp [Phase.stepsLeft]⟩
    · split <;> exact ⟨_, call_setPhase hc _, by simp [Phase.stepsLeft]⟩
  | ready =>
    have hs := calls_send s (.serve call r)
    cases hq : s.send (.serve call r) with
    | none =>
      exact ⟨.advance call, s.setPhase call (.returned (.error .engineTerminated)), _, .inl rfl,
        by simp [step, advance, hc, hp, ho, hq], call_setPhase hc _, by simp [Phase.stepsLeft]⟩
    | some u =>
      rw [hq] at hs
      exact ⟨.advance call, u.setPhase call (.awaiting none), _, .inl rfl,
        by simp [step, advance, hc, hp, ho, hq], call_setPhase (hs ▸ hc) _,
        by simp [Phase.stepsLeft]⟩
  | awaiting reply =>
    cases hx : c.cancelled with
    | true =>
      exact ⟨.giveUp call, s.setPhase call (.returned (.error .cancelled)), _, .inr rfl,
        by simp [step, giveUp, hc, hp, hx], call_setPhase hc _, by simp [Phase.stepsLeft]⟩
    | false =>
      exact ⟨.giveUp call, _, _, .inr rfl, by simp [step, giveUp, hc, hp, hx]; rfl,
        call_setPhase (c := { c with abandoned := true }) (by simp [hc]) _,
        by simp [Phase.stepsLeft]⟩
  | returned result => exact absurd hp (hn result)
  | leaving | joining =>
    rw [hp] at hu
    cases hu

/-- A call without an answer fails after a few steps of its caller, if nothing that these steps do
answers it. -/
theorem ends_of_kept {P : System E → Prop} (unanswered : ∀ s, P s → s.Unanswered call r)
    (keeps : ∀ s a t, P s → (a = .advance call ∨ a = .giveUp call) → s.step a = some t → P t)
    (h : P s) :
    ∃ actions t c x, (∀ a ∈ actions, a = .advance call ∨ a = .giveUp call) ∧
      s.follow actions = some t ∧ t.calls[call]? = some c ∧ c.phase = .returned (.error x) := by
  obtain ⟨c, hc, ho, hphase⟩ := unanswered s h
  induction hn : c.phase.stepsLeft using Nat.strong_induction_on generalizing s c with
  | _ n ih =>
    by_cases hret : ∃ result, c.phase = .returned result
    · obtain ⟨result, hx⟩ := hret
      cases result with
      | error x => exact ⟨[], s, c, x, List.forall_mem_nil _, rfl, hc, hx⟩
      | ok answer =>
        rw [hx] at hphase
        cases hphase
    · obtain ⟨a, t, d, ha, hs, hd, hlt⟩ :=
        exists_step_on hc ho hphase fun result hx => hret ⟨result, hx⟩
      have ht : P t := keeps s a t h ha hs
      obtain ⟨d', hd', ho', hphase'⟩ := unanswered t ht
      cases hd.symm.trans hd'
      obtain ⟨rest, v, c', x, hall, hf, hv⟩ := ih _ (hn ▸ hlt) ht d hd ho' hphase' rfl
      refine ⟨a :: rest, v, c', x, List.forall_mem_cons.mpr ⟨ha, hall⟩, ?_, hv⟩
      simpa [follow, hs] using hf

/-- The call fails, whenever that is, and its request reads and writes no variable on the way. -/
structure Fails (legs : List (Leg E)) (t : System E) (call : Nat) (r : Request) : Prop where
  /-- Served or not, it leaves the session and the engine alone. -/
  untouched : ∀ x ∈ legs, x.before.StepOf call r x.action →
    x.after.session = x.before.session ∧ x.after.engine = x.before.engine
  refused : ∀ x ∈ legs, ∀ post, x.before.worker = .serving post call r →
    x.before.session.Refuses r
  error : ∀ c result, t.calls[call]? = some c → c.phase = .returned result →
    ∃ x, result = .error x
  /-- Its caller need not wait for anybody. -/
  ends : ∃ actions u c x, (∀ a ∈ actions, a = .advance call ∨ a = .giveUp call) ∧
    t.follow actions = some u ∧ u.calls[call]? = some c ∧ c.phase = .returned (.error x)

end

section

variable {s t u : System E} {a : Action} {call : Nat} {r : Request} {h : Handle}
  {around : Surroundings} {engine : E.State} {interrupts : Interrupts}
  {legs before after : List (Leg E)}

theorem StepOf.untouched_of_refuses (hof : s.StepOf call r a) (hr : s.session.Refuses r)
    (hs : s.step a = some t) : t.session = s.session ∧ t.engine = s.engine := by
  cases hof with
  | advance called asks =>
    exact ⟨session_advance called asks hs, (Prod.mk.inj (thread_step (by simp) hs)).1⟩
  | giveUp => exact ⟨session_giveUp hs, (Prod.mk.inj (thread_step (by simp) hs)).1⟩
  | take taking queued =>
    simp only [step, work, taking, queued, Option.map_some, Option.some.injEq] at hs
    subst hs
    exact ⟨session_take _ _ _, engine_take _ _ _⟩
  | serve serving =>
    obtain rfl : s.serve _ call r = t := by simpa [step, work, serving] using hs
    exact (serve_of_refuses hr _ call).2

theorem Unanswered.ends (hr : Reaches (opened around engine interrupts) s)
    (hu : s.Unanswered call r) (hp : s.session.Past h) (hh : r.handle? = some h) :
    ∃ actions t c x, (∀ a ∈ actions, a = .advance call ∨ a = .giveUp call) ∧
      s.follow actions = some t ∧ t.calls[call]? = some c ∧ c.phase = .returned (.error x) := by
  refine ends_of_kept (P := fun s => Reaches (opened around engine interrupts) s ∧
    s.session.Past h ∧ s.Unanswered call r) (fun _ hs => hs.2.2) ?_ ⟨hr, hp, hu⟩
  rintro s a t ⟨hr, hp, hu⟩ ha hs
  have hsame : t.session = s.session := by
    obtain ⟨c, hc, ho, _⟩ := hu
    rcases ha with rfl | rfl
    · exact session_advance hc ho hs
    · exact session_giveUp hs
  exact ⟨hr.step a hs, hsame ▸ hp, hu.step hp hh (owned_reaches hr) hs⟩

/-- The stop is left before the request is answered, and its handle is not of a later stop. -/
structure Overtaken (s : System E) (call : Nat) (r : Request) : Prop where
  unanswered : s.Unanswered call r
  left : s.session.runState ≠ .stopped
  handle : ∃ h, r.handle? = some h ∧ h.generation ≤ s.session.handles.generation

/-- Which every handle is that clients have got. -/
theorem Course.generation_le_of_returned
    (hc : (opened around engine interrupts : System E).Course legs t)
    (hr : h ∈ t.returnedHandles) : h.generation ≤ t.session.handles.generation := by
  obtain ⟨x, hx, hi⟩ := hc.exists_issues_of_returned hr
  obtain ⟨earlier, since, rfl⟩ := List.append_of_mem hx
  obtain ⟨he, hstep, ha⟩ := hc.split
  have hrx := (he.reaches (.refl _)).step _ hstep
  rw [(stocked_reaches hrx).handles.numbered.generation_of_mem hi.1]
  exact ha.generation_le hrx

theorem Overtaken.fails (hr : Reaches (opened around engine interrupts) s)
    (ho : s.Overtaken call r) (hc : s.Course legs t)
    (hb : t.session.queuedStops.length ≤ Session.stopBound) : Fails legs t call r := by
  obtain ⟨hu, hleft, h, hh, hle⟩ := ho
  have hp : s.session.Past h := ⟨hle, fun hs => absurd hs hleft⟩
  -- Between two steps the handle is past as well.
  have hall : ∀ x ∈ legs, x.before.session.Refuses r ∧ x.before.step x.action = some x.after := by
    intro x hx
    obtain ⟨earlier, since, rfl⟩ := List.append_of_mem hx
    obtain ⟨he, hstep, ha⟩ := hc.split
    have hrx := he.reaches hr
    have hbx := (turn_of_step hrx hstep).length_le.trans (ha.length_le (hrx.step _ hstep))
    exact ⟨(he.past hr (hbx.trans hb) hp).refuses hh, hstep⟩
  have ht := hu.course hr hc hb hp hh
  refine ⟨?_, fun x hx _ _ => (hall x hx).1, ?_, ht.ends (hc.reaches hr) (hc.past hr hb hp) hh⟩
  · intro x hx hof
    exact hof.untouched_of_refuses (hall x hx).1 (hall x hx).2
  · intro c result hcall hphase
    obtain ⟨d, hd, _, hunanswered⟩ := ht
    cases hcall.symm.trans hd
    rw [hphase] at hunanswered
    cases result with
    | error x => exact ⟨x, rfl⟩
    | ok answer => cases hunanswered

end

/-- The handle with which the thread comes to an assignment in its next step. -/
def assigns? (s : System E) : Option Handle :=
  match s.worker with
  | .serving _ _ (.setVariable h name expression) =>
    if s.poisoned then none
    else
      match ((SessionM.toAssign E.context h name expression).run.run s.session).run s.engine with
      | (some (.ok _, _), _) => some h
      | _ => none
  | _ => none

/-- The handle with which the thread comes to a list of variables in its next step. -/
def lists? (s : System E) : Option Handle :=
  match s.worker with
  | .serving _ _ (.expand h) =>
    match s.served (.expand h) with
    | .given (.ok _) => some h
    | _ => none
  | _ => none

section

variable {s t : System E} {h : Handle} {around : Surroundings} {engine : E.State}
  {interrupts : Interrupts} {legs : List (Leg E)}

theorem found_of_assigns (ha : s.assigns? = some h) :
    (∃ post call r, s.worker = .serving post call r) ∧ s.session.runState = .stopped ∧
      ∃ c, s.session.resolve h = .ok c := by
  unfold assigns? at ha
  split at ha
  · next post call k name expression hw =>
    split at ha
    · cases ha
    · split at ha
      · next a session u hrun =>
        cases ha
        obtain ⟨_, hs, hrun⟩ := SessionM.returns_read hrun
        obtain ⟨c, hr, _⟩ := SessionM.returns_read hrun
        exact ⟨⟨post, call, _, hw⟩, Session.ensureStopped_eq_ok_iff.mp hs, c, hr⟩
      · cases ha
  · cases ha

theorem found_of_lists (hl : s.lists? = some h) :
    (∃ post call r, s.worker = .serving post call r) ∧ s.session.runState = .stopped ∧
      ∃ c, s.session.resolve h = .ok c := by
  unfold lists? at hl
  split at hl
  · next post call k hw =>
    split at hl
    · next answer hserved =>
      cases hl
      obtain ⟨_, session, u, hrun, _⟩ := served_ok hserved post call
      rw [Request.serve, map_eq_pure_bind] at hrun
      rcases SessionM.returns_bind hrun with ⟨_, hx, _⟩ | ⟨_, _, _, hrun, hend⟩
      · cases hx
      · cases hend
        obtain ⟨_, hs, hrun⟩ := SessionM.returns_read hrun
        obtain ⟨c, hr, _⟩ := SessionM.returns_read hrun
        exact ⟨⟨post, call, _, hw⟩, Session.ensureStopped_eq_ok_iff.mp hs, c, hr⟩
    · cases hl
  · cases hl

/-- A handle that is found in a stop and that clients get at any time was issued in the stop. -/
theorem Course.issued_in_stop_of_resolve {before after : List (Leg E)}
    (hc : (opened around engine interrupts : System E).Course before s) (hs : s.Course after t)
    (hb : t.session.queuedStops.length ≤ Session.stopBound)
    (hst : s.session.runState = .stopped) {c : Container} (hr : s.session.resolve h = .ok c)
    (hm : h ∈ t.returnedHandles) : IssuedInStop before h := by
  obtain ⟨x, hx, hi⟩ := (hc.append hs).exists_issues_of_returned hm
  obtain ⟨earlier, since, hlegs⟩ := List.append_of_mem hx
  obtain ⟨he, hstep, _⟩ := (hlegs ▸ hc.append hs).split
  have hrx := (he.reaches (.refl _)).step _ hstep
  obtain ⟨i, hi', _⟩ := HandleTable.resolve_eq_ok_iff.mp (Except.mapError_eq_ok_iff.mp hr)
  have hknown := (stocked_reaches hrx).handles.numbered.mem_of_check hi.1 hi'
  have hle := hs.length_le (hc.reaches (.refl _))
  exact hc.issued_in_stop (hle.trans hb) hst hknown

/-- Whatever clients and the engine do, what is set and what is listed is of the stop in which the
session is, and a request that a resume has overtaken fails and touches no variable. -/
theorem Course.lands_in_own_stop
    (h : (opened around engine interrupts : System E).Course legs t)
    (bound : t.session.queuedStops.length ≤ Session.stopBound) :
    (∀ before x after k, legs = before ++ x :: after → x.action = .work →
      x.before.assigns? = some k ∨ x.before.lists? = some k →
      x.before.worker.isHalted = true ∧ x.before.session.runState = .stopped ∧
        (k ∈ t.returnedHandles → IssuedInStop before k)) ∧
    (∀ k, legs.Pairwise fun x y => x.Issues k → ¬ y.Issues k) ∧
    ∀ u after call r, Reaches (opened around engine interrupts) u → u.Course after t →
      u.Overtaken call r → Fails after t call r := by
  refine ⟨?_, fun k => h.issues_once bound k, ?_⟩
  · intro before x after k hlegs haction huse
    obtain ⟨hb, hstep, ha⟩ := (hlegs ▸ h).split
    have hr := hb.reaches (.refl _)
    obtain ⟨⟨post, call, r, hw⟩, hs, c, hc⟩ := huse.elim found_of_assigns found_of_lists
    have hhalted : x.before.worker.isHalted = true := by
      rcases (attended_reaches hr).stopped hs with hh | hx
      · exact hh
      · cases hw.symm.trans hx
    exact ⟨hhalted, hs, hb.issued_in_stop_of_resolve (.cons hstep ha) bound hs hc⟩
  · intro u after call r hu ha hover
    exact hover.fails hu ha bound

end

/-- A client looks at the frames of a halt and sets a global variable; then it asks for the local
ones while another client resumes. -/
theorem lands_in_own_stop_inspected :
    ∃ (before between after : List (Leg (scriptEngine { inlines := [("count", .counting 1)] })))
      (x : Leg (scriptEngine { inlines := [("count", .counting 1)] }))
      (u t : System (scriptEngine { inlines := [("count", .counting 1)] })),
      (opened { home := .at ⟨"/"⟩ } Script.State.nested { breakRequested := true }).Course
        (before ++ x :: (between ++ after)) t ∧
      t.session.queuedStops.length ≤ Session.stopBound ∧
      x.before.assigns? = some (.of 2 4) ∧ Handle.of 2 4 ∈ t.returnedHandles ∧
      IssuedInStop before (.of 2 4) ∧
      u.Course after t ∧ u.Overtaken 3 (.expand (.of 2 2)) ∧
      Fails after t 3 (.expand (.of 2 2)) := by
  have hf : ((opened { home := .at ⟨"/"⟩ } Script.State.nested { breakRequested := true } :
      System (scriptEngine { inlines := [("count", .counting 1)] })).travel
      (breaking (.inline "count") ++ [.begin .stackFrames false, .advance 1,
        .begin (.request (.setVariable (.of 2 4) "$v" "1")) false, .advance 2, .advance 2,
        .advance 2, .work])).any (fun (_, s) => s.assigns? == some (.of 2 4) &&
      (s.step .work).any fun s =>
      (s.travel [.begin (.request (.expand (.of 2 2))) false, .advance 3, .begin .continue false,
        .advance 4]).any fun (_, u) => u.session.runState != .stopped &&
        (u.session.handles.generation == 2 &&
        (u.calls[3]?.any fun (c : Call) => c.operation == .request (.expand (.of 2 2)) &&
          c.phase.isUnanswered) &&
      (u.travel [.advance 3, .advance 3, .work, .work, .work, .work]).any fun (_, t) =>
        t.session.queuedStops.length == 1 && t.returnedHandles.contains (.of 2 4))) = true := by
    cbv
  obtain ⟨before, s, hbefore, hp⟩ := Course.exists_of_travel hf
  obtain ⟨hassigns, hp⟩ := Bool.and_eq_true_iff.mp hp
  obtain ⟨s', hstep, hp⟩ := (Option.any_eq_true _ _).mp hp
  obtain ⟨between, u, hbetween, hp⟩ := Course.exists_of_travel hp
  obtain ⟨hleft, hp⟩ := Bool.and_eq_true_iff.mp hp
  obtain ⟨hasked, hp⟩ := Bool.and_eq_true_iff.mp hp
  obtain ⟨hg, hcall⟩ := Bool.and_eq_true_iff.mp hasked
  obtain ⟨after, t, hafter, hp⟩ := Course.exists_of_travel hp
  obtain ⟨hstops, hmem⟩ := Bool.and_eq_true_iff.mp hp
  obtain ⟨c, hc, hasks⟩ := (Option.any_eq_true _ _).mp hcall
  obtain ⟨hasks, hphase⟩ := Bool.and_eq_true_iff.mp hasks
  have hover : u.Overtaken 3 (.expand (.of 2 2)) := by
    refine ⟨⟨c, hc, beq_iff_eq.mp hasks, hphase⟩, bne_iff_ne.mp hleft, _, rfl, ?_⟩
    rw [beq_iff_eq.mp hg]
    decide
  have hbound : t.session.queuedStops.length ≤ Session.stopBound := by
    rw [beq_iff_eq.mp hstops]
    decide
  have hmem := List.contains_iff_mem.mp hmem
  have hassigns := beq_iff_eq.mp hassigns
  have hon := hbetween.append hafter
  have hcourse := hbefore.append (.cons hstep hon)
  obtain ⟨hown, _, hfails⟩ := Course.lands_in_own_stop hcourse hbound
  have hu := (hbefore.append (.cons hstep hbetween)).reaches (.refl _)
  exact ⟨before, between, after, ⟨s, .work, s'⟩, u, t, hcourse, hbound, hassigns, hmem,
    (hown before ⟨s, .work, s'⟩ _ _ rfl rfl (.inl hassigns)).2.2 hmem, hafter, hover,
    hfails u after 3 _ hu hafter hover⟩

end System
end Stepwise
