import Stepwise.Proofs.Session.Answers

namespace Stepwise

namespace Script

variable {s t u : State}

namespace State.Extends

theorem at?_eq (h : s.Extends t) : t.at? = s.at? := by
  rw [h.alike]
  rfl

theorem storage_eq (h : s.Extends t) : t.storage = s.storage := by
  rw [h.alike]
  rfl

theorem held_eq (h : s.Extends t) : t.held = s.held := by
  rw [h.alike]
  rfl

theorem enums_eq (h : s.Extends t) : t.enums = s.enums := by
  rw [h.alike]
  rfl

end State.Extends

variable {scope : Scope} {name expression : String} {p : Place} {old : Variable} {w : Value}

theorem Assigned.after_reading (h : Assigned t u scope name expression p old w)
    (hr : s.Extends t) : Assigned s u scope name expression p old w where
  storage := by rw [h.storage, hr.storage_eq]
  first := by rw [← hr.held_eq, h.first]
  before := by rw [← hr.at?_eq, h.before]
  value := by
    rw [← hr.alike.evaluate, ← hr.enums_eq]
    exact h.value
  after := h.after
  others q hq := by rw [h.others q hq, hr.at?_eq]
  scopes := by rw [h.scopes, hr.storage_eq]

theorem Assigned.then_reading (h : Assigned s t scope name expression p old w)
    (hr : t.Extends u) : Assigned s u scope name expression p old w :=
  { h with
    after := by rw [hr.at?_eq, h.after]
    others := fun q hq => by rw [hr.at?_eq, h.others q hq]
    scopes := by rw [hr.storage_eq, h.scopes] }

end Script

open Script (State Assigned)

variable {s t : Session} {e u : State}

/-- With the same depth of frames and no value lost, everything can still be listed. -/
theorem Container.exists_listed {c : Container} {literals : Literals} {table : HandleTable}
    (hc : c.Remembers literals table e) (arena : e.arena <+: u.arena)
    (depth : u.frames.length = e.frames.length) : ∃ l, u.listed c.kind = .ok l := by
  obtain ⟨l, hl, _⟩ := hc
  cases hk : c.kind with
  | scope scope filter =>
    rw [hk] at hl
    obtain ⟨vars, hv, _⟩ := State.listed_scope_eq_ok hl
    have hin := (State.scope_eq_ok_iff.mp hv).1
    rw [← depth] at hin
    rw [State.listed, State.scope_eq_ok_iff.mpr ⟨hin, rfl⟩]
    exact ⟨_, rfl⟩
  | value reference =>
    rw [hk] at hl
    obtain ⟨v, hv, _⟩ := State.listed_value_eq_ok hl
    exact ⟨_, State.listed_value (Arena.get_of_prefix arena hv)⟩

/-- The children that were listed before are forgotten. -/
theorem Session.Orderly.forget (ho : s.Orderly e) (arena : e.arena <+: u.arena)
    (depth : u.frames.length = e.frames.length) :
    s.Keeps e { s with handles := s.handles.invalidateChildren } u := by
  have hx := s.handles.invalidateChildren_extends
  refine ⟨rfl, hx, arena, ho.numbered.invalidateChildren, ?_,
    fun i f hf => (ho.frames i f hf).mono hx, ?_⟩
  · intro c hc
    obtain ⟨d, hd, rfl⟩ := Array.mem_map.mp hc
    obtain ⟨l, hl⟩ := Container.exists_listed (ho.remembers d hd) arena depth
    exact ⟨l, hl, nofun⟩
  · rw [depth]
    exact ho.depth.imp_right fun ⟨hn, hf⟩ => ⟨hn, hx.full hf⟩

namespace SessionM

theorem existing_ends {scope : Scope} {vars : Script.Variables} (hv : e.scope scope = .ok vars)
    (name : String) :
    (existing Script.context scope name).Ends s e fun r t u => t = s ∧ e.Extends u ∧
      (∀ told, r = .ok told → ∃ v, vars.find? name = some v ∧ told.Tells u.arena v) ∧
      (∀ x, r = .error x → vars.find? name = none) := by
  rcases Script.lookupVariable_returns hv name with ⟨hn, hr⟩ | ⟨v, told, u, ho, hr, hx, ht⟩
  · exact Ends.ask_bind hr _ (.throw ⟨rfl, .refl e, nofun, fun _ _ => hn⟩)
  · refine Ends.ask_bind hr _ (.pure ⟨rfl, hx, ?_, nofun⟩)
    rintro _ ⟨⟩
    exact ⟨v, ho, ht⟩

theorem convert_ends {d : Description} {v : Value} (hd : d.Tells e.arena v) (name : String)
    (type : Option String) :
    (convert Script.context name d type).Ends s e fun r t u => t = s ∧ e.Extends u ∧
      ∀ d', r = .ok d' → ∃ w, v.convert e.enums type = .ok w ∧ d'.Tells u.arena w := by
  cases type with
  | none =>
    refine .pure ⟨rfl, .refl e, ?_⟩
    rintro _ ⟨⟩
    exact ⟨v, rfl, hd⟩
  | some type =>
    have ask : (ask (Script.context.coerce d type) fun e => .coercion name type e.message :
        SessionM State Description) = (ask (Script.context.coerce d type)
          fun e => .coercion name type e.message) >>= Pure.pure := (bind_pure _).symm
    rw [convert, ask]
    rcases Script.coerce_returns hd type with ⟨w, d', u, hw, hr, hx, ht⟩ | ⟨_, _, _, _, hr⟩
    · refine Ends.ask_bind hr _ (.pure ⟨rfl, hx, ?_⟩)
      rintro _ ⟨⟩
      exact ⟨w, hw, ht⟩
    · exact Ends.ask_error hr _ ⟨rfl, .refl e, nofun⟩

/-- What is assigned is looked up at once. -/
theorem assign_bind {β : Type} {Q : Except SessionError β → Session → State → Prop}
    {scope : Scope} {vars : Script.Variables} {name expression : String} {old : Script.Variable}
    {v w : Value} {d : Description} (hv : e.scope scope = .ok vars)
    (hold : vars.find? name = some old) (hval : e.evaluate scope expression = .ok v)
    (hw : v.convert e.enums old.declaredType = .ok w) (hd : d.Tells e.arena w)
    (onError : EngineError → SessionError) {f : EngineVariable → SessionM State β}
    (ok : ∀ told u p, Assigned e u scope name expression p old w →
      told.Tells u.arena { old with value := w } → e.arena <+: u.arena →
      u.frames.length = e.frames.length → Ends (f told) s u Q)
    (error : ∀ x, Q (.error x) s e) :
    Ends (ask (Script.context.assign scope name d) onError >>= fun _ =>
      existing Script.context scope name >>= f) s e Q := by
  rcases Script.assign_returns hv name hd with ⟨e₁, hstore, hr⟩ | ⟨_, _, _, _, hr⟩
  · obtain ⟨⟨p, hp⟩, ⟨new, hnew, hfind⟩, harena, hdepth⟩ :=
      State.store_assigned hv hold hval hw hstore
    refine Ends.ask_bind hr _ ((existing_ends hnew name).bind ?_ ?_)
    · rintro told _ u ⟨rfl, hx, htold, _⟩
      obtain ⟨found, hfound, ht⟩ := htold told rfl
      obtain rfl := Option.some.inj (hfind.symm.trans hfound)
      refine ok told u p (hp.then_reading hx) ht (harena ▸ hx.arena) ?_
      rw [hx.alike.frames, hdepth]
    · rintro x _ _ ⟨_, _, _, hnone⟩
      cases hfind.symm.trans (hnone x rfl)
  · exact Ends.ask_error hr _ (error _)

/-- Up to the assignment the engine is only asked, and what is assigned is the value of the
expression, converted to the type of the variable. -/
theorem toAssign_ends (ho : s.Orderly e) (hs : s.runState = .stopped) (h : Handle)
    (name expression : String) :
    (toAssign Script.context h name expression).Ends s e fun r t u => t = s ∧ e.Extends u ∧
      ∀ a, r = .ok a → ∃ filter vars old v w, s.handles.Opens h (.scope a.scope filter) ∧
        e.scope a.scope = .ok vars ∧ vars.find? name = some old ∧
        e.evaluate a.scope expression = .ok v ∧ v.convert e.enums old.declaredType = .ok w ∧
        a.value.Tells u.arena w := by
  unfold toAssign
  refine Ends.read_bind (a := ()) (by simp [Session.ensureStopped, hs]) ?_
  cases hc : s.handles.resolve h with
  | error x =>
    exact Ends.read_error (x := .ofHandle x) (by simp [Session.resolve, hc, Except.mapError])
      ⟨rfl, .refl e, fun _ h => by cases h⟩
  | ok c =>
    refine Ends.read_bind (a := c) (by simp [Session.resolve, hc, Except.mapError]) ?_
    cases hk : c.kind with
    | value reference => exact Ends.throw ⟨rfl, .refl e, fun _ h => by cases h⟩
    | scope scope filter =>
      have hopen : s.handles.Opens h (.scope scope filter) := ⟨c, hc, hk⟩
      obtain ⟨vars, hv⟩ := ho.scope_of_opens hopen
      refine (existing_ends hv name).bind ?_ fun x t u hx => ⟨hx.1, hx.2.1, fun _ h => by cases h⟩
      rintro told _ e₁ ⟨rfl, hx₁, hold, _⟩
      obtain ⟨old, hfind, htold⟩ := hold told rfl
      rcases Script.evaluate_returns (hx₁.scope_eq ▸ hv) expression with
        ⟨v, d, e₂, hval, hr, hx₂, hd⟩ | ⟨_, _, _, _, hr⟩
      · refine Ends.ask_bind hr _ ?_
        have hx₂ := hx₁.trans hx₂
        refine (convert_ends hd name told.declaredType).bind ?_
          fun x t u hx => ⟨hx.1, hx₂.trans hx.2.1, fun _ h => by cases h⟩
        rintro d' _ e₃ ⟨rfl, hx₃, hconv⟩
        obtain ⟨w, hw, hd'⟩ := hconv d' rfl
        rw [htold.declaredType, hx₂.enums_eq] at hw
        rw [hx₁.alike.evaluate] at hval
        refine .pure ⟨rfl, hx₂.trans hx₃, ?_⟩
        rintro _ ⟨⟩
        exact ⟨filter, vars, old, v, w, hopen, hv, hfind, hval, hw, hd'⟩
      · exact Ends.ask_error hr _ ⟨rfl, hx₁, fun _ h => by cases h⟩

theorem setVariable_answers (ho : s.Orderly e) (hs : s.runState = .stopped) (h : Handle)
    (name expression : String) :
    (setVariable Script.context h name expression).Ends s e fun r t u =>
      s.Answers e (.setVariable h name expression) (r.map .text) t u := by
  -- A failure leaves all that is listed.
  have failed : ∀ {u : State} (x : SessionError), e.Extends u →
      s.Answers e (.setVariable h name expression) (.error x) s u :=
    fun _ hx => .notSet (ho.answered hx)
  refine (toAssign_ends ho hs h name expression).bind ?_ fun x t u hx => hx.1 ▸ failed x hx.2.1
  rintro a _ u ⟨rfl, hx, ha⟩
  obtain ⟨filter, vars, old, v, w, hopen, hv, hfind, hval, hw, hd⟩ := ha a rfl
  refine assign_bind (hx.scope_eq ▸ hv) hfind (hx.alike.evaluate ▸ hval) (hx.enums_eq ▸ hw) hd _ ?_
    fun x => failed x hx
  intro told t p hp ht harena hdepth
  refine Ends.modify_bind (.get_bind (.pure ?_))
  dsimp only [Except.map, Description.display]
  rw [ht.value.text]
  refine .set hopen (hp.after_reading hx) (ho.forget (hx.arena.trans harena) ?_)
  rw [hdepth, hx.alike.frames]

theorem onRegistry_reads {α : Type} (ho : s.Orderly e)
    {f : Registry → EngineM State (α × Registry)} (hf : Script.Steady (f s.registry)) :
    (onRegistry f).Ends s e fun _ t u => s.Reads e t u := by
  obtain ⟨⟨a, registry⟩, u, hr, hx⟩ := hf e
  refine Ends.get_bind (.lift_bind hr (.set_bind (.pure ?_)))
  exact ho.extend rfl ho.numbered (.refl _) hx fun _ hc => .inl hc

end SessionM

/-- Every request of a halt is answered, and the engine's thread stays up. -/
theorem Request.serve_answers (ho : s.Orderly e) (hs : s.runState = .stopped) (r : Request)
    (home : Home) :
    SessionM.Ends (r.serve Script.context home) s e fun result t u => s.Answers e r result t u := by
  cases r with
  | setLineBreakpoints path requests =>
    rw [serve]
    exact (SessionM.onRegistry_reads ho (.setLine home path requests s.registry)).map
      (fun _ _ _ h => .breakpoints rfl h) fun _ _ _ h => .breakpoints rfl h
  | setCommandBreakpoints requests =>
    rw [serve]
    exact (SessionM.onRegistry_reads ho (.setCommands requests s.registry)).map
      (fun _ _ _ h => .breakpoints rfl h) fun _ _ _ h => .breakpoints rfl h
  | removeAllBreakpoints =>
    rw [serve]
    refine (SessionM.onRegistry_reads ho ?_).mono fun _ _ _ h => .breakpoints rfl h
    rw [map_eq_pure_bind]
    exact (Script.Steady.removeAll s.registry).bind fun _ => .pure _
  | expand h =>
    rw [serve]
    exact (SessionM.expand_answers ho hs h).map (fun _ _ _ h => h) fun _ _ _ h => h
  | setVariable h name expression =>
    rw [serve]
    exact (SessionM.setVariable_answers ho hs h name expression).map (fun _ _ _ h => h)
      fun _ _ _ h => h
  | evaluate expression frame =>
    rw [serve]
    exact (SessionM.evaluate_answers ho hs expression frame).map (fun _ _ _ h => h)
      fun _ _ _ h => h

end Stepwise
