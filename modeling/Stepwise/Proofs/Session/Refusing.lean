import Stepwise.Proofs.Script.Working
import Stepwise.Proofs.Session.Setting
import Stepwise.Proofs.Session.Staying

namespace Stepwise
open EngineM

namespace Script

variable {α : Type} {s t u : State}

theorem answer_returns {f : State → Except ScriptError (α × State)}
    {r : Except EngineError α} (h : (answer f).Returns s r u) :
    (∃ a, r = .ok a ∧ f s = .ok (a, u)) ∨ ∃ report, r = .error report ∧ u = s := by
  simp only [Returns, answer, OptionT.run, OptionT.mk] at h
  split at h
  · next a v hf =>
    cases h
    exact .inl ⟨a, rfl, hf⟩
  · split at h
    · next report _ =>
      cases h
      exact .inr ⟨report, rfl, rfl⟩
    · cases h

theorem asking_toldMore : SessionM.Asking context State.ToldMore where
  refl := .refl
  trans := .trans
  lookupVariable scope name e u answer h := by
    rcases answer_returns h with ⟨found, _, hf⟩ | ⟨_, _, rfl⟩
    · obtain ⟨vars, _, hf⟩ := Except.bind_eq_ok_iff.mp hf
      split at hf <;> cases hf
      · exact .refl _
      · exact e.toldMore_describe _
    · exact .refl _
  evaluate scope expression e u answer h := by
    rcases answer_returns h with ⟨_, _, hf⟩ | ⟨_, _, rfl⟩
    · cases hv : e.evaluate scope expression with
      | error x =>
        rw [hv] at hf
        cases hf
      | ok v =>
        rw [hv] at hf
        cases hf
        exact e.toldMore_describe v
    · exact .refl _
  coerce value type e u answer h := by
    rcases answer_returns h with ⟨_, _, hf⟩ | ⟨_, _, rfl⟩
    · obtain ⟨v, _, hf⟩ := Except.bind_eq_ok_iff.mp hf
      obtain ⟨w, _, hf⟩ := Except.bind_eq_ok_iff.mp hf
      cases hf
      exact e.toldMore_describe _
    · exact .refl _

/-- A variable that was assigned is in its scope. -/
theorem exists_of_assign {scope : Scope} {name : String} {value : Description}
    (h : (context.assign scope name value).Returns s (.ok ()) t) :
    ∃ vars v, t.scope scope = .ok vars ∧ vars.find? name = some v := by
  rcases answer_returns h with ⟨_, _, hf⟩ | ⟨_, hr, _⟩
  · obtain ⟨v, _, hf⟩ := Except.bind_eq_ok_iff.mp hf
    obtain ⟨t, hstore, hf⟩ := Except.bind_eq_ok_iff.mp hf
    cases hf
    obtain ⟨vars, hv, hstore⟩ := Except.bind_eq_ok_iff.mp hstore
    dsimp only at hstore
    split at hstore <;>
    · obtain ⟨w, _, hstore⟩ := Except.bind_eq_ok_iff.mp hstore
      cases hstore
      obtain ⟨found, hfound, _⟩ := vars.exists_find?_put name w _
      exact ⟨_, found, State.scope_withScope hv _, hfound⟩
  · cases hr

end Script

open Script (State)

theorem SessionM.returns_of_map_error {σ α β : Type} {m : SessionM σ α} {f : α → β} {s t : Session}
    {e u : σ} {x : SessionError} (h : ((f <$> m).run.run s).Returns e (.error x, t) u) :
    (m.run.run s).Returns e (.error x, t) u := by
  rw [map_eq_pure_bind] at h
  rcases returns_bind h with ⟨_, ⟨⟩, hx⟩ | ⟨_, _, _, _, h⟩
  · exact hx
  · cases h

/-- A call that does not set its variable changes nothing; the engine has told of more values at
most. -/
theorem SessionM.setVariable_error {s t : Session} {e u : State} {h : Handle}
    {name expression : String} {x : SessionError}
    (hr : ((setVariable Script.context h name expression).run.run s).Returns e (.error x, t) u) :
    t = s ∧ e.ToldMore u := by
  cases setVariable_ends hr with
  | refused refusal =>
    exact Consults.toAssign Script.asking_toldMore h name expression refusal
  | unassigned reached refusal =>
    refine ⟨rfl, ?_⟩
    rcases Script.answer_returns refusal with ⟨_, hx, _⟩ | ⟨_, _, rfl⟩
    · cases hx
    · exact (Consults.toAssign Script.asking_toldMore h name expression reached).2
  | lost assigned lookup =>
    -- What has been assigned is found.
    obtain ⟨_, _, hassign⟩ := assigned?_eq_some_iff.mp assigned
    obtain ⟨vars, v, hv, hfind⟩ := Script.exists_of_assign hassign
    obtain ⟨r, t', u', hr, _, _, _, hnone⟩ := existing_ends hv name
    obtain ⟨hx, rfl⟩ := EngineM.Returns.unique lookup hr
    cases hfind.symm.trans (hnone _ (congrArg Prod.fst hx).symm)

namespace System

section

variable {E : Engine} {s t : System E} {call : Nat} {r : Request}

/-- The steps in which a request is dealt with: those of its caller, and those in which the thread
takes it and serves it. -/
inductive StepOf (s : System E) (call : Nat) (r : Request) : Action → Prop
  | advance {c : Call} (called : s.calls[call]? = some c) (asks : c.operation = .request r) :
    StepOf s call r (.advance call)
  | giveUp : StepOf s call r (.giveUp call)
  | take {post : Post E.Run} {rest : List Command} (taking : s.worker = .taking post)
    (queued : s.commands = .serve call r :: rest) : StepOf s call r .work
  | serve {post : Post E.Run} (serving : s.worker = .serving post call r) : StepOf s call r .work

theorem session_send (s : System E) (c : Command) :
    ((s.send c).getD s).session = s.session := by
  unfold send
  split <;> rfl

/-- Whoever makes a request leaves the session alone. -/
theorem session_advance {c : Call} (hc : s.calls[call]? = some c) (ho : c.operation = .request r)
    (h : s.step (.advance call) = some t) : t.session = s.session := by
  simp only [step, advance, hc, ho] at h
  split at h
  · cases h
    unfold enter
    dsimp only
    split
    · rfl
    · split <;> rfl
  · cases h
    unfold recheck
    split
    · rfl
    · split <;> rfl
  · split at h
    · next u hu =>
      cases h
      have hsent := session_send s (.serve call r)
      rw [hu] at hsent
      exact hsent
    · cases h
      rfl
  · cases h
  · cases h
    rfl
  · cases h
    rfl
  · split at h
    · cases h
      rfl
    · cases h
      exact session_send { s with joined := true } .shutdown
  · split at h
    · cases h
      rfl
    · cases h
  · cases h

theorem session_giveUp (h : s.step (.giveUp call) = some t) : t.session = s.session := by
  simp only [step, giveUp] at h
  split at h
  · cases h
  · split at h
    · split at h <;> cases h <;> rfl
    · cases h

end

variable {catalog : Script.Catalog}

theorem StepOf.changes_nothing {s t : System (scriptEngine catalog)} {call : Nat} {a : Action}
    {handle : Handle} {name expression : String}
    (h : s.StepOf call (.setVariable handle name expression) a) (hs : s.step a = some t)
    (failed : ∀ reply, s.answered? a = some (.setVariable handle name expression, reply) →
      ∃ x, reply = .given (.error x)) :
    t.session = s.session ∧ State.ToldMore s.engine t.engine := by
  cases h with
  | advance called asks =>
    exact ⟨session_advance called asks hs,
      State.ToldMore.of_eq (Prod.mk.inj (thread_step (by simp) hs)).1⟩
  | giveUp =>
    exact ⟨session_giveUp hs, State.ToldMore.of_eq (Prod.mk.inj (thread_step (by simp) hs)).1⟩
  | take taking queued =>
    simp only [step, work, taking, queued, Option.map_some, Option.some.injEq] at hs
    obtain rfl := hs
    exact ⟨session_take _ _ _, State.ToldMore.of_eq (engine_take _ _ _)⟩
  | serve serving =>
    obtain rfl : s.serve _ call _ = t := by simpa [step, work, serving] using hs
    obtain ⟨x, hx⟩ := failed (s.served (.setVariable handle name expression))
      (by simp [answered?, serving])
    unfold System.served at hx
    unfold System.serve
    split
    · exact ⟨rfl, State.ToldMore.refl _⟩
    · next hp =>
      rw [if_neg hp] at hx
      split at hx
      · next result session engine hrun =>
        cases hx
        rw [hrun]
        exact SessionM.setVariable_error (SessionM.returns_of_map_error hrun)
      · cases hx

/-- A variable is not set, wherever that fails: the work leaves the session as it was, and the
engine too but for values that it has told of at the end of its arena.  The same holds of each step
in which the call is dealt with. -/
theorem failed_set_changes_nothing (catalog : Script.Catalog) (handle : Handle)
    (name expression : String) :
    (∀ (s t : Session) (e u : State) (x : SessionError),
      ((SessionM.setVariable Script.context handle name expression).run.run s).Returns e
        (.error x, t) u → t = s ∧ e.ToldMore u) ∧
    ∀ (s t : System (scriptEngine catalog)) (call : Nat) (a : Action),
      s.StepOf call (.setVariable handle name expression) a → s.step a = some t →
      (∀ reply, s.answered? a = some (.setVariable handle name expression, reply) →
        ∃ x, reply = .given (.error x)) →
      t.session = s.session ∧ State.ToldMore s.engine t.engine :=
  ⟨fun _ _ _ _ _ hr => SessionM.setVariable_error hr,
    fun _ _ _ _ h hs failed => h.changes_nothing hs failed⟩

/-- Whether the thread is about to serve the request and will refuse it. -/
def refuses {E : Engine} (s : System E) (call : Nat) (r : Request) : Bool :=
  match s.worker, s.served r with
  | .serving _ c q, .given (.error _) => c == call && q == r
  | _, _ => false

theorem exists_of_refuses {E : Engine} {s : System E} {call : Nat} {r : Request}
    (h : s.refuses call r = true) :
    ∃ post x, s.worker = .serving post call r ∧ s.served r = .given (.error x) := by
  unfold refuses at h
  split at h
  · next post c q x hw hx =>
    obtain ⟨hc, hq⟩ := Bool.and_eq_true_iff.mp h
    rw [beq_iff_eq.mp hc, beq_iff_eq.mp hq] at hw
    exact ⟨post, x, hw, hx⟩
  · cases h

/-- An expression has no value: the variable was told of, and that is all. -/
theorem division_changes_nothing :
    ∃ (s t : System (scriptEngine { inlines := [("count", .counting 1)] })) (u : State),
      Reaches (opened { home := .at ⟨"/"⟩ } State.nested { breakRequested := true }) s ∧
      s.session.runState = .stopped ∧
      ((SessionM.setVariable Script.context (.of 2 4) "$v" "1 / 0").run.run s.session).Returns
        s.engine (.error (.evaluation "Attempted to divide by zero."), s.session) u ∧
      (s.StepOf 1 (.setVariable (.of 2 4) "$v" "1 / 0") .work ∧ s.step .work = some t) ∧
      t.session = s.session ∧ State.ToldMore s.engine t.engine ∧
      t.engine.arena.length = s.engine.arena.length + 1 := by
  have hf : ((opened { home := .at ⟨"/"⟩ } State.nested { breakRequested := true } :
      System (scriptEngine { inlines := [("count", .counting 1)] })).follow
      (breaking (.inline "count") ++ [.begin (.request (.setVariable (.of 2 4) "$v" "1 / 0")) false,
        .advance 1, .advance 1, .advance 1, .work])).any
      (fun s => s.session.runState == .stopped &&
        ((SessionM.setVariable Script.context (.of 2 4) "$v" "1 / 0").failsWith s.session s.engine
            (.evaluation "Attempted to divide by zero.") &&
        (s.refuses 1 (.setVariable (.of 2 4) "$v" "1 / 0") &&
        (s.step .work).any fun t =>
          t.engine.arena.length == s.engine.arena.length + 1))) = true := by cbv
  obtain ⟨s, hr, hp⟩ := exists_reaches hf
  obtain ⟨hs, hp⟩ := Bool.and_eq_true_iff.mp hp
  obtain ⟨hset, hp⟩ := Bool.and_eq_true_iff.mp hp
  obtain ⟨hrefuses, ht⟩ := Bool.and_eq_true_iff.mp hp
  obtain ⟨t, hstep, ht⟩ := (Option.any_eq_true _ _).mp ht
  obtain ⟨u, hrun⟩ := SessionM.exists_of_failsWith hset
  obtain ⟨post, x, hworker, hserved⟩ := exists_of_refuses hrefuses
  have hof := StepOf.serve hworker
  have hsame := (failed_set_changes_nothing { inlines := [("count", .counting 1)] }
    (.of 2 4) "$v" "1 / 0").2 s t 1 .work hof hstep fun reply hans => by
      simp only [answered?, hworker, Option.some.injEq, Prod.mk.injEq] at hans
      exact ⟨x, hans.2.symm.trans hserved⟩
  exact ⟨s, t, u, hr, beq_iff_eq.mp hs, hrun, ⟨hof, hstep⟩, hsame.1, hsame.2, beq_iff_eq.mp ht⟩

end System
end Stepwise
