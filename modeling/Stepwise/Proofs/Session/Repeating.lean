import Stepwise.Proofs.Handle.Remembering
import Stepwise.Proofs.Session.Abandoning
import Stepwise.Proofs.Session.Depicting

namespace Stepwise
open EngineM

namespace SessionM

variable {σ α β : Type} {cx : Context σ} {s t : Session} {e u : σ}

/-- However the work ends, handles have only been added. -/
def Grows (m : SessionM σ α) : Prop :=
  ∀ ⦃s e r t u⦄, (m.run.run s).Returns e (r, t) u → s.handles.Grows t.handles

namespace Grows

theorem of_consults {m : SessionM σ α} (hm : Consults (fun _ _ => True) m) : Grows m := by
  intro s e r t u h
  rw [(hm h).1]
  exact .refl _

theorem pure (a : α) : Grows (pure a : SessionM σ α) := by
  intro s e r t u h
  cases h
  exact .refl _

theorem throw (x : SessionError) : Grows (throw x : SessionM σ α) := by
  intro s e r t u h
  cases h
  exact .refl _

theorem get : Grows (get : SessionM σ Session) := by
  intro s e r t u h
  cases h
  exact .refl _

theorem bind {m : SessionM σ α} {f : α → SessionM σ β} (hm : Grows m) (hf : ∀ a, Grows (f a)) :
    Grows (m >>= f) := by
  intro s e r t u h
  rcases returns_bind h with ⟨x, _, hx⟩ | ⟨a, s', e', ha, h'⟩
  · exact hm hx
  · exact (hm ha).trans (hf a h')

theorem map {m : SessionM σ α} (f : α → β) (hm : Grows m) : Grows (f <$> m) := by
  rw [map_eq_pure_bind]
  exact hm.bind fun a => pure (f a)

theorem allocate (c : Container) : Grows (allocate c : SessionM σ Handle) := by
  intro s e r t u h
  have hg := s.handles.allocate_grows c
  rcases returns_bind h with ⟨x, _, hx⟩ | ⟨now, s', e', hget, h'⟩
  · cases hx
  cases hget
  dsimp only at h'
  cases ha : (s.handles.allocate c).1 with
  | none =>
    rw [ha] at h'
    exact throw _ h'
  | some k =>
    rw [ha] at h'
    cases h'
    exact hg

theorem makeVariable (name : String) (value : Description) (type : Option String) (scope : Scope) :
    Grows (makeVariable name value type scope : SessionM σ Variable) := by
  refine get.bind fun now => ?_
  dsimp only
  split
  · exact ((allocate _).map some).bind fun _ => pure _
  · exact (pure none).bind fun _ => pure _

theorem makeVariables (scope : Scope) (l : List (String × Description × Option String)) :
    Grows (makeVariables scope l : SessionM σ (List Variable)) := by
  induction l with
  | nil => exact pure []
  | cons entry rest ih =>
    obtain ⟨name, value, type⟩ := entry
    exact (makeVariable name value type scope).bind fun v => ih.bind fun others => pure _

theorem read (g : Session → Except SessionError α) : Grows (read g : SessionM σ α) := by
  refine get.bind fun now => ?_
  cases g now with
  | ok a => exact pure a
  | error x => exact throw x

theorem entries (cx : Context σ) (kind : ContainerKind) : Grows (entries cx kind) := by
  cases kind with
  | scope scope filter => exact (of_consults (.ask (fun _ => trivial) _)).bind fun _ => pure _
  | value reference => exact (of_consults (.ask (fun _ => trivial) _)).bind fun _ => pure _

theorem evaluate (cx : Context σ) (expression : String) (frame : Nat) :
    Grows (evaluate cx expression frame) := by
  unfold SessionM.evaluate
  have told : Grows (do
      let value ← ask (cx.evaluate (.locals frame) expression) told
      let v ← SessionM.makeVariable expression value none (.locals frame)
      return { value := v.value, typeName := v.typeName, isExpandable := v.isExpandable,
               handle := v.handle : Evaluated }) :=
    (of_consults (.ask (fun _ => trivial) _)).bind fun value =>
      (makeVariable expression value none _).bind fun v => pure _
  refine (read _).bind fun _ => get.bind fun now => ?_
  dsimp only
  split
  · exact (throw _).bind fun _ => told
  · exact told

end Grows

/-- Reading ends with an error at once, or the work goes on with what was read. -/
theorem read_ends {g : Session → Except SessionError α} {f : α → SessionM σ β}
    {r : Except SessionError β} (h : ((read g >>= f).run.run s).Returns e (r, t) u) :
    (∃ x, r = .error x ∧ t = s) ∨ ∃ a, g s = .ok a ∧ ((f a).run.run s).Returns e (r, t) u := by
  cases hg : g s with
  | error x =>
    rw [run_read_error hg] at h
    cases h
    exact .inl ⟨x, rfl, rfl⟩
  | ok a =>
    rw [run_read_ok hg] at h
    exact .inr ⟨a, rfl, h⟩

/-- Whether the children are remembered or listed now, they are remembered from then on, and nothing
else is forgotten. -/
theorem expand_recalls {h : Handle} {r : Except SessionError (List Variable)}
    (hr : ((expand cx h).run.run s).Returns e (r, t) u) :
    s.handles.Recalls t.handles ∧ ∀ xs, r = .ok xs → t.handles.Remembers h xs := by
  rcases read_ends hr with ⟨x, rfl, rfl⟩ | ⟨_, _, hr⟩
  · exact ⟨.refl _, nofun⟩
  rcases read_ends hr with ⟨x, rfl, rfl⟩ | ⟨c, hc, hr⟩
  · exact ⟨.refl _, nofun⟩
  have hc : s.handles.resolve h = .ok c := Except.mapError_eq_ok_iff.mp hc
  cases hn : c.children with
  | some xs =>
    rw [hn] at hr
    cases hr
    refine ⟨.refl _, ?_⟩
    rintro ys ⟨⟩
    exact ⟨c, hc, hn⟩
  | none =>
    rw [hn] at hr
    rcases returns_bind hr with ⟨x, rfl, hx⟩ | ⟨listed, s₁, e₁, hlisted, hr⟩
    · exact ⟨(Grows.entries cx c.kind hx).recalls, nofun⟩
    have h₁ := Grows.entries cx c.kind hlisted
    rcases returns_bind hr with ⟨x, rfl, hx⟩ | ⟨xs, s₂, e₂, hmade, hr⟩
    · exact ⟨(h₁.trans (Grows.makeVariables _ _ hx)).recalls, nofun⟩
    have h₂ := h₁.trans (Grows.makeVariables _ _ hmade)
    rcases read_ends hr with ⟨x, rfl, rfl⟩ | ⟨handles, hset, hr⟩
    · exact ⟨h₂.recalls, nofun⟩
    cases hr
    obtain ⟨hx, hrecalls⟩ :=
      HandleTable.setChildren_recalls (h₂ h c hc) hn (Except.mapError_eq_ok_iff.mp hset)
    refine ⟨h₂.recalls.trans hrecalls, ?_⟩
    rintro ys ⟨⟩
    exact hx

theorem returns_map {m : SessionM σ α} {f : α → β} {r : Except SessionError β}
    (h : ((f <$> m).run.run s).Returns e (r, t) u) :
    ∃ r', (m.run.run s).Returns e (r', t) u ∧ r = r'.map f := by
  rw [map_eq_pure_bind] at h
  rcases returns_bind h with ⟨x, rfl, hx⟩ | ⟨a, s', e', ha, h⟩
  · exact ⟨_, hx, rfl⟩
  · cases h
    exact ⟨_, ha, rfl⟩

end SessionM

namespace Request

variable {σ : Type} {cx : Context σ} {home : Home} {s t : Session} {e u : σ} {result : Result}
  {r : Request}

theorem serve_expand {h : Handle}
    (hr : (((Request.expand h).serve cx home).run.run s).Returns e (result, t) u) :
    s.handles.Recalls t.handles ∧
      ∀ xs, result = .ok (.children xs) → t.handles.Remembers h xs := by
  rw [serve] at hr
  obtain ⟨list, hr, he⟩ := SessionM.returns_map hr
  obtain ⟨hrecalls, hx⟩ := SessionM.expand_recalls hr
  refine ⟨hrecalls, fun xs hxs => ?_⟩
  obtain ⟨ys, hlist, hys⟩ := Except.map_eq_ok_iff.mp (he.symm.trans hxs)
  exact hx xs (Answer.children.inj hys ▸ hlist)

/-- What is answered without asking the thread is remembered. -/
theorem remembers_of_precheck {h : Handle} {xs : List Variable}
    (hx : (Request.expand h).precheck s = .ok (some (.children xs))) :
    s.handles.Remembers h xs := by
  obtain ⟨list?, hl, he⟩ := Except.map_eq_ok_iff.mp hx
  obtain ⟨list, rfl, hlist⟩ := Option.map_eq_some_iff.mp he
  obtain ⟨_, _, hl⟩ := Except.bind_eq_ok_iff.mp hl
  obtain ⟨c, hc, hl⟩ := Except.bind_eq_ok_iff.mp hl
  exact ⟨c, Except.mapError_eq_ok_iff.mp hc, Answer.children.inj hlist ▸ Except.ok.inj hl⟩

/-- Only an assignment has anything forgotten. -/
theorem serve_recalls (hr : ((r.serve cx home).run.run s).Returns e (result, t) u)
    (hn : ∀ h name expression answer, r = .setVariable h name expression → result ≠ .ok answer) :
    s.handles.Recalls t.handles := by
  cases r with
  | expand h => exact (serve_expand hr).1
  | evaluate expression frame =>
    rw [serve] at hr
    obtain ⟨_, hr, _⟩ := SessionM.returns_map hr
    exact (SessionM.Grows.evaluate cx expression frame hr).recalls
  | setVariable h name expression =>
    rw [serve] at hr
    obtain ⟨r', hr, he⟩ := SessionM.returns_map hr
    cases SessionM.setVariable_ends hr with
    | refused | unassigned | lost => exact .refl _
    | set => exact absurd he (hn h name expression _ rfl)
  | setLineBreakpoints | setCommandBreakpoints | removeAllBreakpoints =>
    rw [handles_of_call (by rfl) hr]
    exact .refl _

end Request

variable {E : Engine}

/-- In a stop handles only change when a request is served. -/
theorem Move.handles {s t : Shared E.Run} (m : Move s t) (hk : s.session.stops.IsKept)
    (hq : t.session.queuedStops = s.session.queuedStops) (ht : t.session.runState = .stopped) :
    t.session.handles = s.session.handles ∨
      ∃ post call r, s.worker = .serving post call r ∧ t.worker = .taking post := by
  have passed {s t : Session} (h : s.Passes t) (ht : t.runState = .stopped) :
      t.handles = s.handles := (h.halt ht).2.2.2
  cases m with
  | serve post call r serving => exact .inr ⟨post, call, r, serving, rfl⟩
  | receive _ received => exact .inl (passed (.receive received) ht)
  | leaveStop next action stopped onward =>
    rw [Shared.session_send] at ht
    rcases onward with rfl | rfl <;> cases ht
  | execute | askAbort => cases ht
  | leave => simp [Shared.terminate] at ht
  | halt h _ _ stack =>
    have hone := (Session.queuedStops_hold hk h stack).symm.trans hq
    simp at hone
  | complete outcome | completeLast outcome => exact .inl (passed (.complete _ outcome) ht)
  | exit crashed => exact .inl (passed (.exit _ crashed) ht)
  | _ => exact .inl rfl

/-- A variable is set in the step. -/
def Leg.Sets (x : Leg E) : Prop :=
  ∃ h name expression answer,
    x.before.answered? x.action = some (.setVariable h name expression, .given (.ok answer))

namespace System

variable {s t : System E} {a : Action} {h : Handle} {xs ys : List Variable}
  {around : Surroundings} {engine : E.State} {interrupts : Interrupts} {legs : List (Leg E)}

/-- As long as nobody sets a variable, all that was listed in the stop is remembered. -/
theorem recalls_step (hr : Reaches (opened around engine interrupts) s) (hs : s.step a = some t)
    (hin : Leg.InStop ⟨s, a, t⟩) (hn : ¬ Leg.Sets ⟨s, a, t⟩) :
    s.session.handles.Recalls t.session.handles := by
  have hq : t.session.queuedStops = s.session.queuedStops := by
    rcases stop?_cases hr hs with ⟨_, hq⟩ | ⟨_, _, _, _, hx, _⟩
    · exact hq
    · cases hx.symm.trans hin.silent
  rcases (step_move (departing_reaches hr) hs).handles (stopsTold_reaches hr).kept hq hin.after with
    he | ⟨post, call, r, hw, ht⟩
  · have he : t.session.handles = s.session.handles := he
    rw [he]
    exact .refl _
  have hw : s.worker = .serving post call r := hw
  have ht : t.worker = .taking post := ht
  obtain rfl : a = .work := by
    by_contra ha
    rw [(Prod.mk.inj (thread_step ha hs)).2, hw] at ht
    cases ht
  obtain rfl : s.serve post call r = t := by simpa [step, work, hw] using hs
  cases hp : s.poisoned with
  | true =>
    unfold serve
    rw [if_pos hp]
    exact .refl _
  | false =>
    rcases hrun : ((r.serve E.context s.session.around.home).run.run s.session).run s.engine
      with ⟨_ | ⟨result, session⟩, u⟩
    · unfold serve
      rw [if_neg (by simp [hp]), hrun]
      dsimp only
      rw [session_crash]
      exact .refl _
    · obtain ⟨hserved, hserve⟩ := serve_of_run hp hrun post call
      rw [hserve]
      refine Request.serve_recalls hrun ?_
      rintro k name expression answer rfl rfl
      exact hn ⟨k, name, expression, answer, by simp [answered?, hw, hserved]⟩

/-- What is listed in a step is remembered after it. -/
theorem remembers_of_lists (hs : s.step a = some t)
    (hl : s.answered? a = some (.expand h, .given (.ok (.children xs)))) :
    t.session.handles.Remembers h xs := by
  rcases answered_cases hl hs with
    ⟨call, c, result, rfl, hc, ho, hlooked, hreply, rfl⟩ | ⟨post, call, rfl, hw, hreply, rfl⟩
  · cases hreply
    unfold looked? at hlooked
    split at hlooked
    · cases hlooked
    · split at hlooked
      · cases hlooked
      · next answer hx =>
        obtain ⟨answer', rfl, he⟩ := Option.map_eq_some_iff.mp hlooked
        cases he
        exact Request.remembers_of_precheck hx
  · obtain ⟨_, session, u, hrun, he⟩ := served_ok hreply.symm post call
    rw [he]
    exact (Request.serve_expand hrun).2 xs rfl

/-- Whatever was listed in a stop is remembered, as long as nobody sets a variable. -/
theorem Course.remembers (hr : Reaches (opened around engine interrupts) s) (hc : s.Course legs t)
    (hin : ∀ x ∈ legs, x.InStop) (hset : ∀ x ∈ legs, ¬ x.Sets) {x : Leg E} (hx : x ∈ legs)
    (hl : x.before.answered? x.action = some (.expand h, .given (.ok (.children xs)))) :
    t.session.handles.Remembers h xs := by
  induction hc with
  | rest => cases hx
  | step a hc hs ih =>
    obtain ⟨hin, hlast⟩ := List.forall_mem_append.mp hin
    obtain ⟨hset, hnone⟩ := List.forall_mem_append.mp hset
    rcases List.mem_append.mp hx with hx | hx
    · exact recalls_step (hc.reaches hr) hs (hlast _ List.mem_cons_self)
        (hnone _ List.mem_cons_self) h xs (ih hin hset hx)
    · obtain rfl := List.mem_singleton.mp hx
      exact remembers_of_lists hs hl

/-- The answer that has been found for a call, unless it failed. -/
def found? (s : System E) (call : Nat) : Option Answer :=
  s.calls[call]?.bind (·.phase.found?)

end System

/-- All that the caller can get is this answer, or an error. -/
def Phase.yields (answer : Answer) : Phase → Prop
  | .awaiting (some (.given (.ok found))) => found = answer
  | .returned (.ok found) => found = answer
  | .awaiting (some .dropped) => True
  | .returned (.error _) => True
  | _ => False

theorem Phase.yields_of_found? {p : Phase} {answer : Answer} (h : p.found? = some answer) :
    p.yields answer := by
  unfold found? at h
  split at h
  · cases h
    rfl
  · cases h
    rfl
  · cases h

theorem Phase.yields.eq {p : Phase} {answer found : Answer} (h : p.yields answer)
    (hf : p.found? = some found) : found = answer := by
  unfold found? at hf
  split at hf
  · cases hf
    exact h
  · cases hf
    exact h
  · cases hf

namespace System

variable {s t u : System E} {a : Action} {call : Nat} {answer : Answer} {r : Request}
  {around : Surroundings} {engine : E.State} {interrupts : Interrupts} {legs : List (Leg E)}

/-- The call has an answer or has lost it, and it gets no other. -/
def Concluded (s : System E) (call : Nat) (answer : Answer) : Prop :=
  ∃ c, s.calls[call]? = some c ∧ c.phase.yields answer ∧
    (s.Barred call ∨ ∃ result, c.phase = .returned result)

/-- A call is served once, so who has been given a result waits for no other. -/
theorem Course.concluded (h : (opened around engine interrupts : System E).Course legs s)
    (hf : s.found? call = some answer) : s.Concluded call answer := by
  obtain ⟨c, hc, hf⟩ := Option.bind_eq_some_iff.mp hf
  refine ⟨c, hc, Phase.yields_of_found? hf, ?_⟩
  generalize hp : c.phase = p at hf
  unfold Phase.found? at hf
  split at hf
  · left
    obtain ⟨x, hx, hproduces⟩ := h.exists_produces hc hp
    have hm : x ∈ legs.filter (·.serves call) := List.mem_filter.mpr ⟨hx, hproduces.serves⟩
    have hpos := List.length_pos_of_mem hm
    have hle := h.credit_le (.refl _) call
    have hopened : (opened around engine interrupts : System E).credit call = 1 := rfl
    have hz : s.credit call = 0 := by omega
    refine ⟨?_, .inr (.inr hz)⟩
    intro hj
    have hpicked : call ∈ s.hands := by simp [hands, hj]
    have hcount := List.count_pos_iff.mpr hpicked
    unfold credit at hz
    omega
  · exact .inr ⟨_, rfl⟩
  · cases hf

theorem Concluded.step (h : s.Concluded call answer)
    (hr : Reaches (opened around engine interrupts) s) (hs : s.step a = some t) :
    t.Concluded call answer := by
  obtain ⟨c, hc, hy, hb⟩ := h
  rcases calls_step hs with ⟨operation, cancelled, rfl⟩ | hchanged
  · obtain ⟨hlt, _⟩ := List.getElem?_eq_some_iff.mp hc
    exact ⟨c, (List.getElem?_append_left hlt).trans hc, hy, hb.imp_left fun hb => hb.step hr hs⟩
  obtain ⟨d, hd, _, hbrings⟩ := hchanged.exists_after hc
  refine ⟨d, hd, ?_⟩
  generalize d.phase = q at hbrings
  cases hbrings with
  | stays => exact ⟨hy, hb.imp_left fun hb => hb.step hr hs⟩
  | @received result given =>
    rw [given] at hy
    cases result with
    | ok found => exact ⟨hy, .inr ⟨_, rfl⟩⟩
    | error x => cases hy
  | served waiting serving =>
    rcases hb with hb | ⟨_, hreturned⟩
    · exact absurd (congrArg Worker.job? serving) hb.idle
    · cases hreturned.symm.trans waiting
  | dropped waiting =>
    rcases hb with hb | ⟨_, hreturned⟩
    · exact ⟨trivial, .inl (hb.step hr hs)⟩
    · cases hreturned.symm.trans waiting
  | failed | gaveUp => exact ⟨trivial, .inr ⟨_, rfl⟩⟩
  | admitted he | looked he | atOnce he | ready he | queued he | leaving he | joining he =>
    rw [he] at hy
    cases hy
  | left he =>
    rcases he with he | he <;>
    · rw [he] at hy
      cases hy

/-- Nobody gets an answer other than the one that was found. -/
theorem found?_eq (hr : Reaches (opened around engine interrupts) s) (hu : Reaches s u)
    {found : Answer} (hs : s.found? call = some answer) (hf : u.found? call = some found) :
    found = answer := by
  obtain ⟨legs, hc⟩ := Course.of_reaches hr
  have hconcluded : Reaches (opened around engine interrupts) u ∧ u.Concluded call answer := by
    clear hf
    induction hu with
    | refl => exact ⟨hr, hc.concluded hs⟩
    | step a _ hstep ih => exact ⟨ih.1.step a hstep, ih.2.step ih.1 hstep⟩
  obtain ⟨_, c, hcall, hy, _⟩ := hconcluded
  obtain ⟨d, hd, hf⟩ := Option.bind_eq_some_iff.mp hf
  cases hcall.symm.trans hd
  exact hy.eq hf

/-- A listing is found for a call in a step that answers its request. -/
theorem answered_of_found (hr : Reaches (opened around engine interrupts) s)
    (hs : s.step a = some t) (hasks : t.Asks call r) (hn : s.found? call = none)
    (hfound : t.found? call = some answer) (hlisting : answer ≠ .done) :
    s.answered? a = some (r, .given (.ok answer)) := by
  obtain ⟨d, hd, hf⟩ := Option.bind_eq_some_iff.mp hfound
  obtain ⟨d', hd', ho⟩ := hasks
  cases hd.symm.trans hd'
  have pending {c : Call} (hc : s.calls[call]? = some c) : c.phase.found? = none := by
    rw [found?, hc] at hn
    exact hn
  rcases calls_step hs with ⟨operation, cancelled, rfl⟩ | hchanged
  · rcases Nat.lt_or_ge call s.calls.length with hlt | hge
    · cases (pending ((List.getElem?_append_left hlt).symm.trans hd)).symm.trans hf
    · simp only [begin, List.getElem?_append_right hge, List.getElem?_singleton] at hd
      split at hd <;> cases hd
      cases hf
  obtain ⟨c, hc, hoc, hb⟩ := hchanged.calls call d hd
  have hpending := pending hc
  have hasks : c.operation = .request r := hoc.symm.trans ho
  generalize d.phase = q at hb hf
  cases hb with
  | stays => cases hpending.symm.trans hf
  | @looked r' result entered asks looked =>
    cases asks.symm.trans hasks
    obtain ⟨operation, cancelled, abandoned, phase⟩ := c
    subst asks entered
    cases result with
    | error x => cases hf
    | ok found =>
      cases hf
      simp [answered?, hc, looked]
  | atOnce _ direct => exact absurd hasks (direct r)
  | @served post r' reply waiting serving =>
    obtain ⟨c', hc', ho'⟩ := (owned_reaches hr).serving post call r' serving
    cases hc.symm.trans hc'
    cases hasks.symm.trans ho'
    have hserved : s.served r = .given (.ok answer) := by
      rcases hx : s.served r with ⟨x⟩ | _
      · rw [hx] at hf
        cases x <;> cases hf
        rfl
      · rw [hx] at hf
        cases hf
    simp [answered?, serving, hserved]
  | @received result given =>
    rw [given] at hpending
    cases result with
    | error x => cases hf
    | ok found => cases hpending
  | left => exact absurd (Option.some.inj hf).symm hlisting
  | _ => cases hf

/-- What a call has been made for does not change. -/
theorem Asks.before (h : t.Asks call r) (hs : s.step a = some t) {c : Call}
    (hc : s.calls[call]? = some c) : s.Asks call r := by
  obtain ⟨d, hd, ho⟩ := h
  rcases calls_step hs with ⟨operation, cancelled, rfl⟩ | hchanged
  · obtain ⟨hlt, _⟩ := List.getElem?_eq_some_iff.mp hc
    exact ⟨d, (List.getElem?_append_left hlt).symm.trans hd, ho⟩
  · obtain ⟨d', hd', hoc, _⟩ := hchanged.exists_after hc
    cases hd.symm.trans hd'
    exact ⟨c, hc, hoc.symm.trans ho⟩

/-- An answer that is found on the way was given in one of the steps. -/
theorem Course.exists_answered (hr : Reaches (opened around engine interrupts) s)
    (hc : s.Course legs t) (hasks : t.Asks call r) (hn : s.found? call = none)
    (hf : t.found? call = some answer) (hlisting : answer ≠ .done) :
    ∃ x ∈ legs, x.before.answered? x.action = some (r, .given (.ok answer)) := by
  induction hc with
  | rest => cases hn.symm.trans hf
  | @step legs t u a hc hs ih =>
    have hrt := hc.reaches hr
    cases ht : t.found? call with
    | none =>
      exact ⟨_, List.mem_concat_self, answered_of_found hrt hs hasks ht hf hlisting⟩
    | some found =>
      obtain rfl := found?_eq hrt (Reaches.step a (.refl t) hs) ht hf
      obtain ⟨c, hcall, _⟩ := Option.bind_eq_some_iff.mp ht
      obtain ⟨x, hx, hanswered⟩ := ih (hasks.before hs hcall) ht
      exact ⟨x, List.mem_append_left _ hx, hanswered⟩

/-- The caller has got this listing of the handle by the third state, and the answer was found
between the first two. -/
structure Listing (s t u : System E) (call : Nat) (h : Handle) (list : List Variable) : Prop where
  asks : t.Asks call (.expand h)
  pending : s.found? call = none
  found : t.found? call ≠ none
  returned : ∃ c, u.calls[call]? = some c ∧ c.phase = .returned (.ok (.children list))

theorem Listing.answered {h : Handle} {list : List Variable} (hl : Listing s t u call h list)
    (hr : Reaches (opened around engine interrupts) s) (hc : s.Course legs t) (hu : Reaches t u) :
    ∃ x ∈ legs, x.before.answered? x.action = some (.expand h, .given (.ok (.children list))) := by
  obtain ⟨c, hcall, hreturned⟩ := hl.returned
  obtain ⟨answer, hf⟩ := Option.ne_none_iff_exists'.mp hl.found
  have hgot : u.found? call = some (.children list) := by
    rw [found?, hcall, Option.bind_some, hreturned]
    rfl
  obtain rfl := found?_eq (hc.reaches hr) hu hf hgot
  exact hc.exists_answered hr hl.asks hl.pending hf nofun

/-- Reads are repeatable: unless a variable is set in between, all clients that list the children of
a handle in a stop get the same list, with the same handles in it, whoever listed them first. -/
theorem Course.listings_agree (hr : Reaches (opened around engine interrupts) s)
    (hc : s.Course legs t) (hin : ∀ x ∈ legs, x.InStop) (hset : ∀ x ∈ legs, ¬ x.Sets)
    (hu : Reaches t u) {first second : Nat} {h : Handle} {xs ys : List Variable}
    (hx : Listing s t u first h xs) (hy : Listing s t u second h ys) : xs = ys := by
  obtain ⟨x, hmx, hlx⟩ := hx.answered hr hc hu
  obtain ⟨y, hmy, hly⟩ := hy.answered hr hc hu
  have hkx := hc.remembers hr hin hset hmx hlx
  have hky := hc.remembers hr hin hset hmy hly
  exact hkx.unique hky

/-- Two clients have both found nothing remembered for a handle when the first of them is served; a
third one evaluates in between, and their listings come with the same handle. -/
theorem Course.listings_agree_at_once :
    ∃ (legs : List (Leg (scriptEngine { inlines := [("count", .counting 1)] })))
      (s t u : System (scriptEngine { inlines := [("count", .counting 1)] }))
      (xs ys : List Variable),
      Reaches (opened { home := .at ⟨"/"⟩ } Script.State.nested { breakRequested := true }) s ∧
      s.Course legs t ∧ (∀ x ∈ legs, x.InStop ∧ ¬ x.Sets) ∧ Reaches t u ∧
      u.session.runState = .running ∧
      Listing s t u 1 (.of 2 4) xs ∧ Listing s t u 2 (.of 2 4) ys ∧
      xs.map (·.handle.isSome) = [true] ∧ xs = ys := by
  have hf : ((opened { home := .at ⟨"/"⟩ } Script.State.nested { breakRequested := true } :
      System (scriptEngine { inlines := [("count", .counting 1)] })).follow
      (breaking (.inline "count"))).any (fun s => (s.travel
        [.begin (.request (.expand (.of 2 4))) false, .begin (.request (.expand (.of 2 4))) false,
          .advance 1, .advance 2, .advance 1, .advance 2, .advance 1,
          .begin (.request (.evaluate "1" 0)) false, .advance 3, .advance 3, .advance 3, .advance 2,
          .work, .work, .work, .work, .work, .work]).any fun way =>
      (way.2.session.runState == .stopped &&
        way.2.session.queuedStops.length == s.session.queuedStops.length) &&
      (way.1.all (fun x => (x.before.answered? x.action).all fun answered =>
        answered.1 == .expand (.of 2 4) || answered.1 == .evaluate "1" 0) &&
      (way.2.follow [.begin .continue false, .advance 4, .advance 1, .advance 2]).any fun u =>
        u.session.runState == .running && [1, 2].all fun call => s.found? call == none &&
          ((way.2.found? call).isSome &&
          (way.2.calls[call]?.any (fun (c : Call) =>
            c.operation == .request (.expand (.of 2 4))) &&
          u.calls[call]?.any fun (c : Call) => c.phase.returned? == some (.children
            [⟨"$v", "[Object[]: 2]", some "Object[]", true, some (.of 2 5)⟩]))))) = true := by cbv
  obtain ⟨s, hr, hp⟩ := exists_reaches hf
  obtain ⟨legs, t, hc, hp⟩ := Course.exists_of_travel hp
  obtain ⟨hstop, hp⟩ := Bool.and_eq_true_iff.mp hp
  obtain ⟨hset, hp⟩ := Bool.and_eq_true_iff.mp hp
  obtain ⟨u, hu, hp⟩ := exists_reaches hp
  obtain ⟨hrunning, hp⟩ := Bool.and_eq_true_iff.mp hp
  obtain ⟨hstopped, hqueued⟩ := Bool.and_eq_true_iff.mp hstop
  obtain ⟨-, -, hin⟩ := hc.within hr (beq_iff_eq.mp hqueued) (beq_iff_eq.mp hstopped)
  have hset : ∀ x ∈ legs, ¬ x.Sets := by
    rintro x hx ⟨h, name, expression, answer, hanswered⟩
    have hcheck := List.all_eq_true.mp hset x hx
    rw [hanswered] at hcheck
    cases hcheck
  have listing {call : Nat} (hm : call ∈ [1, 2]) : Listing s t u call (.of 2 4)
      [⟨"$v", "[Object[]: 2]", some "Object[]", true, some (.of 2 5)⟩] := by
    have hcall := List.all_eq_true.mp hp call hm
    simp only [Bool.and_eq_true, beq_iff_eq, Option.any_eq_true] at hcall
    obtain ⟨hpending, hfound, ⟨c, hasks, hop⟩, d, hd, hreturned⟩ := hcall
    have hfound : t.found? call ≠ none := by
      rw [← Option.isSome_iff_ne_none]
      exact hfound
    exact ⟨⟨c, hasks, hop⟩, hpending, hfound, d, hd, Phase.eq_of_returned? hreturned⟩
  have hx := listing (by decide : 1 ∈ [1, 2])
  have hy := listing (by decide : 2 ∈ [1, 2])
  exact ⟨legs, s, t, u, _, _, hr, hc, fun x hx => ⟨hin x hx, hset x hx⟩, hu,
    beq_iff_eq.mp hrunning, hx, hy, rfl, hc.listings_agree hr hin hset hu hx hy⟩

end System
end Stepwise
