import Stepwise.Proofs.Session.Freshness
import Stepwise.Proofs.Session.Replacing
import Stepwise.Rehearsal

namespace Stepwise
open EngineM

namespace SessionM

variable {σ α β : Type} {cx : Context σ} {s t : Session} {e u v : σ}

theorem returns_bind {m : SessionM σ α} {f : α → SessionM σ β} {r : Except SessionError β}
    (h : ((m >>= f).run.run s).Returns e (r, t) u) :
    (∃ x, r = .error x ∧ (m.run.run s).Returns e (.error x, t) u) ∨
      ∃ a s' e', (m.run.run s).Returns e (.ok a, s') e' ∧ ((f a).run.run s').Returns e' (r, t) u := by
  unfold Returns at h
  rw [run_bind] at h
  rcases hm : (m.run.run s).run e with ⟨_ | ⟨x | a, s'⟩, e'⟩
  · rw [hm] at h
    cases h
  · rw [hm] at h
    cases h
    exact .inl ⟨x, rfl, hm⟩
  · rw [hm] at h
    exact .inr ⟨a, s', e', hm, h⟩

theorem returns_ask {m : EngineM σ (Except EngineError α)} {onError : EngineError → SessionError}
    {r : Except SessionError α} (h : ((ask m onError).run.run s).Returns e (r, t) u) :
    t = s ∧ ∃ answer, m.Returns e answer u ∧ r = answer.mapError onError := by
  rcases returns_bind h with ⟨x, rfl, hm⟩ | ⟨answer, s', e', hm, h⟩
  all_goals
    unfold Returns at hm
    rw [run_lift] at hm
    rcases hr : m.run e with ⟨_ | a, e₁⟩ <;> rw [hr] at hm <;> cases hm
  cases answer <;> cases h <;> exact ⟨rfl, _, hr, rfl⟩

/-- Looking up, evaluating and converting take the engine only where the relation allows. -/
structure Asking (cx : Context σ) (R : σ → σ → Prop) : Prop where
  refl (e : σ) : R e e
  trans {e u v : σ} : R e u → R u v → R e v
  lookupVariable (scope : Scope) (name : String) {e u : σ}
    {answer : Except EngineError (Option EngineVariable)} :
    (cx.lookupVariable scope name).Returns e answer u → R e u
  evaluate (scope : Scope) (expression : String) {e u : σ}
    {answer : Except EngineError Description} :
    (cx.evaluate scope expression).Returns e answer u → R e u
  coerce (value : Description) (type : String) {e u : σ}
    {answer : Except EngineError Description} : (cx.coerce value type).Returns e answer u → R e u

theorem Asking.anything (cx : Context σ) : Asking cx fun _ _ => True :=
  ⟨fun _ => trivial, fun _ _ => trivial, fun _ _ _ _ _ _ => trivial, fun _ _ _ _ _ _ => trivial,
    fun _ _ _ _ _ _ => trivial⟩

/-- The work leaves the session alone and takes the engine only where the relation allows. -/
def Consults (R : σ → σ → Prop) (m : SessionM σ α) : Prop :=
  ∀ ⦃s e r t u⦄, (m.run.run s).Returns e (r, t) u → t = s ∧ R e u

namespace Consults

variable {R : σ → σ → Prop}

theorem pure (hR : Asking cx R) (a : α) : Consults R (pure a : SessionM σ α) := by
  intro s e r t u h
  cases h
  exact ⟨rfl, hR.refl e⟩

theorem throw (hR : Asking cx R) (x : SessionError) : Consults R (throw x : SessionM σ α) := by
  intro s e r t u h
  cases h
  exact ⟨rfl, hR.refl e⟩

theorem bind (hR : Asking cx R) {m : SessionM σ α} {f : α → SessionM σ β} (hm : Consults R m)
    (hf : ∀ a, Consults R (f a)) : Consults R (m >>= f) := by
  intro s e r t u h
  rcases returns_bind h with ⟨x, -, hx⟩ | ⟨a, s', e', ha, h'⟩
  · exact hm hx
  · obtain ⟨rfl, he⟩ := hm ha
    obtain ⟨rfl, hu⟩ := hf a h'
    exact ⟨rfl, hR.trans he hu⟩

theorem read (hR : Asking cx R) (g : Session → Except SessionError α) :
    Consults R (SessionM.read g) := by
  intro s e r t u h
  rcases returns_bind h with ⟨x, -, hx⟩ | ⟨a, s', e', ha, h'⟩
  · cases hx
  · cases ha
    cases hg : g s with
    | ok a =>
      rw [hg] at h'
      exact pure hR a h'
    | error x =>
      rw [hg] at h'
      exact throw hR x h'

theorem ask {m : EngineM σ (Except EngineError α)}
    (hm : ∀ {e answer u}, m.Returns e answer u → R e u) (onError : EngineError → SessionError) :
    Consults R (SessionM.ask m onError) := by
  intro s e r t u h
  obtain ⟨ht, answer, h, _⟩ := returns_ask h
  exact ⟨ht, hm h⟩

theorem existing (hR : Asking cx R) (scope : Scope) (name : String) :
    Consults R (SessionM.existing cx scope name) := by
  refine bind hR (ask (hR.lookupVariable scope name) _) fun v => ?_
  cases v with
  | none => exact throw hR _
  | some v => exact pure hR v

end Consults

/-- Up to the assignment the engine is only asked. -/
theorem Consults.toAssign {R : σ → σ → Prop} (hR : Asking cx R) (h : Handle)
    (name expression : String) : Consults R (toAssign cx h name expression) := by
  refine bind hR (read hR _) fun _ => bind hR (read hR _) fun c => ?_
  cases c.kind with
  | value reference => exact throw hR _
  | scope scope filter =>
    refine bind hR (existing hR scope name) fun old => ?_
    refine bind hR (ask (hR.evaluate scope expression) _) fun value => ?_
    refine bind hR ?_ fun value => pure hR _
    cases old.declaredType with
    | none => exact pure hR value
    | some type => exact ask (hR.coerce value type) _

theorem existing_session {scope : Scope} {name : String} {r : Except SessionError EngineVariable}
    (hr : ((existing cx scope name).run.run s).Returns e (r, t) u) : t = s :=
  (Consults.existing (.anything cx) scope name hr).1

theorem toAssign_session {h : Handle} {name expression : String}
    {r : Except SessionError Assignment}
    (hr : ((toAssign cx h name expression).run.run s).Returns e (r, t) u) : t = s :=
  (Consults.toAssign (.anything cx) h name expression hr).1

/-- The assignment that a call comes to, and the engine after it, if it is carried out. -/
def assigned? (cx : Context σ) (h : Handle) (name expression : String) (s : Session) (e : σ) :
    Option (Assignment × σ) :=
  match ((toAssign cx h name expression).run.run s).run e with
  | (some (.ok a, _), u) =>
    match (cx.assign a.scope name a.value).run u with
    | (some (.ok _), v) => some (a, v)
    | _ => none
  | _ => none

/-- How a call that sets a variable ends. -/
inductive SetEnd (cx : Context σ) (h : Handle) (name expression : String) (s : Session) (e : σ) :
    Except SessionError String → Session → σ → Prop
  /-- It does not come to the assignment. -/
  | refused {x : SessionError} {u : σ}
    (refusal : ((toAssign cx h name expression).run.run s).Returns e (.error x, s) u) :
    SetEnd cx h name expression s e (.error x) s u
  /-- The engine does not assign. -/
  | unassigned {a : Assignment} {report : EngineError} {w u : σ}
    (reached : ((toAssign cx h name expression).run.run s).Returns e (.ok a, s) w)
    (refusal : (cx.assign a.scope name a.value).Returns w (.error report) u) :
    SetEnd cx h name expression s e (.error (assignError name a.declaredType report)) s u
  /-- The engine has assigned and does not find the variable. -/
  | lost {a : Assignment} {v u : σ} {x : SessionError}
    (assigned : assigned? cx h name expression s e = some (a, v))
    (lookup : ((existing cx a.scope name).run.run s).Returns v (.error x, s) u) :
    SetEnd cx h name expression s e (.error x) s u
  | set {a : Assignment} {v u : σ} {updated : EngineVariable}
    (assigned : assigned? cx h name expression s e = some (a, v))
    (lookup : ((existing cx a.scope name).run.run s).Returns v (.ok updated, s) u) :
    SetEnd cx h name expression s e (.ok (updated.value.display s.around.literals).text)
      s.forgetful u

section

variable {h : Handle} {name expression : String} {a : Assignment} {r : Except SessionError String}

theorem assigned?_eq_some_iff : assigned? cx h name expression s e = some (a, v) ↔
    ∃ w, ((toAssign cx h name expression).run.run s).Returns e (.ok a, s) w ∧
      (cx.assign a.scope name a.value).Returns w (.ok ()) v := by
  constructor
  · intro ha
    unfold assigned? at ha
    split at ha
    · next a' t w hw =>
      obtain rfl := toAssign_session hw
      split at ha
      · next v' hv =>
        cases ha
        exact ⟨w, hw, hv⟩
      · cases ha
    · cases ha
  · rintro ⟨w, hw, hv⟩
    unfold Returns at hw hv
    rw [assigned?, hw]
    dsimp only
    rw [hv]

theorem setVariable_ends (hr : ((setVariable cx h name expression).run.run s).Returns e (r, t) u) :
    SetEnd cx h name expression s e r t u := by
  unfold setVariable at hr
  rcases returns_bind hr with ⟨x, rfl, hx⟩ | ⟨a, s₁, w, ha, hcarry⟩
  · obtain rfl := toAssign_session hx
    exact .refused hx
  obtain rfl := toAssign_session ha
  rcases returns_bind hcarry with ⟨x, rfl, hx⟩ | ⟨_, s₂, v, hassign, hfind⟩
  · obtain ⟨rfl, answer, hrefused, he⟩ := returns_ask hx
    cases answer with
    | ok => cases he
    | error report =>
      cases he
      exact .unassigned ha hrefused
  obtain ⟨rfl, answer, hassign, he⟩ := returns_ask hassign
  cases answer with
  | error report => cases he
  | ok =>
    have hassigned := assigned?_eq_some_iff.mpr ⟨w, ha, hassign⟩
    rcases returns_bind hfind with ⟨x, rfl, hx⟩ | ⟨updated, s₃, u', hx, hend⟩
    · obtain rfl := existing_session hx
      exact .lost hassigned hx
    · obtain rfl := existing_session hx
      cases hend
      exact .set hassigned hx

/-- After an assignment the children that were listed before it are forgotten if the call succeeds.
If the engine does not find the variable any more the call fails, and they are all remembered. -/
theorem setVariable_forgets (ha : assigned? cx h name expression s e = some (a, v))
    (hr : ((setVariable cx h name expression).run.run s).Returns e (r, t) u) :
    (∃ text, r = .ok text ∧ t = s.forgetful ∧ ∀ c ∈ t.handles.containers, c.children = none) ∨
      ∃ x, r = .error x ∧ t = s ∧
        ((existing cx a.scope name).run.run s).Returns v (.error x, s) u := by
  obtain ⟨w, hreached, hassign⟩ := assigned?_eq_some_iff.mp ha
  cases setVariable_ends hr with
  | refused refusal => cases (hreached.unique refusal).1
  | unassigned reached refusal =>
    obtain ⟨⟨⟩, rfl⟩ := hreached.unique reached
    cases (hassign.unique refusal).1
  | lost assigned lookup =>
    cases ha.symm.trans assigned
    exact .inr ⟨_, rfl, rfl, lookup⟩
  | set assigned lookup =>
    refine .inl ⟨_, rfl, rfl, fun c hc => ?_⟩
    obtain ⟨d, _, rfl⟩ := Array.mem_map.mp hc
    rfl

end

section

variable {σ α : Type} {m : SessionM σ α} {s : Session} {e : σ}

/-- Whether a computation comes to this result. -/
def yields [BEq α] (m : SessionM σ α) (s : Session) (e : σ) (a : α) : Bool :=
  match (m.run.run s).run e with
  | (some (.ok b, _), _) => b == a
  | _ => false

theorem exists_of_yields [BEq α] [LawfulBEq α] {a : α} (h : m.yields s e a = true) :
    ∃ t u, (m.run.run s).Returns e (.ok a, t) u := by
  unfold yields at h
  split at h
  · next b t u hrun =>
    rw [beq_iff_eq.mp h] at hrun
    exact ⟨t, u, hrun⟩
  · cases h

/-- Whether a computation fails with this error and leaves the session as it was. -/
def failsWith (m : SessionM σ α) (s : Session) (e : σ) (x : SessionError) : Bool :=
  match (m.run.run s).run e with
  | (some (.error y, t), _) => y == x && t == s
  | _ => false

theorem exists_of_failsWith {x : SessionError} (h : m.failsWith s e x = true) :
    ∃ u, (m.run.run s).Returns e (.error x, s) u := by
  unfold failsWith at h
  split at h
  · next y t u hrun =>
    obtain ⟨hy, ht⟩ := Bool.and_eq_true_iff.mp h
    rw [beq_iff_eq.mp hy, beq_iff_eq.mp ht] at hrun
    exact ⟨u, hrun⟩
  · cases h

end
end SessionM

namespace System
open SessionM

/-- A number is set: its value from before the assignment is not remembered any more. -/
theorem set_forgotten :
    ∃ (s : System (scriptEngine { inlines := [("count", .counting 1)] })) (a : Assignment)
      (v u : Script.State) (t : Session),
      Reaches (opened { home := .at ⟨"/"⟩ } Script.State.typed { breakRequested := true }) s ∧
      s.session.runState = .stopped ∧
      (∃ c ∈ s.session.handles.containers,
        c.children = some [⟨"$n", "4", some "int", false, none⟩]) ∧
      assigned? Script.context (.of 2 4) "$n" "5" s.session s.engine = some (a, v) ∧
      ((setVariable Script.context (.of 2 4) "$n" "5").run.run s.session).Returns s.engine
        (.ok "5", t) u ∧
      ∀ c ∈ t.handles.containers, c.children = none := by
  have hf : ((opened { home := .at ⟨"/"⟩ } Script.State.typed { breakRequested := true } :
      System (scriptEngine { inlines := [("count", .counting 1)] })).follow
      (breaking (.inline "count") ++ asking 1 (.expand (.of 2 4)))).any
      (fun s => s.session.runState == .stopped &&
        ((assigned? Script.context (.of 2 4) "$n" "5" s.session s.engine).isSome &&
        ((setVariable Script.context (.of 2 4) "$n" "5").yields s.session s.engine "5" &&
        s.session.handles.containers.toList.any fun c =>
          c.children == some [⟨"$n", "4", some "int", false, none⟩]))) = true := by cbv
  obtain ⟨s, hr, hp⟩ := exists_reaches hf
  obtain ⟨hs, hp⟩ := Bool.and_eq_true_iff.mp hp
  obtain ⟨ha, hp⟩ := Bool.and_eq_true_iff.mp hp
  obtain ⟨hset, hc⟩ := Bool.and_eq_true_iff.mp hp
  obtain ⟨⟨a, v⟩, ha⟩ := Option.isSome_iff_exists.mp ha
  obtain ⟨c, hc, hx⟩ := List.any_eq_true.mp hc
  obtain ⟨t, u, hrun⟩ := exists_of_yields hset
  rcases setVariable_forgets ha hrun with ⟨_, _, _, hnone⟩ | ⟨_, hx, _⟩
  · exact ⟨s, a, v, u, t, hr, beq_iff_eq.mp hs, ⟨c, Array.mem_toList_iff.mp hc, beq_iff_eq.mp hx⟩,
      ha, hrun, hnone⟩
  · cases hx

/-- The engine assigns and does not find the variable any more: the call fails, and the value from
before the assignment stays remembered. -/
theorem lost_set_remembered :
    let plan : Rehearsal.Plan :=
      { catalog := { inlines := [("count", .counting 1)] }, faults := { forgetful := true } }
    let cx := (rehearsalEngine plan).context
    ∃ (s : System (rehearsalEngine plan)) (a : Assignment) (v u : Rehearsal.State),
      Reaches (opened { home := .at ⟨"/"⟩ } ({ script := .typed } : Rehearsal.State)
        { breakRequested := true }) s ∧
      s.session.runState = .stopped ∧
      assigned? cx (.of 2 4) "$n" "5" s.session s.engine = some (a, v) ∧
      v.script.globals.map (·.value.text) = ["5"] ∧
      ((setVariable cx (.of 2 4) "$n" "5").run.run s.session).Returns s.engine
        (.error (.variableNotFound "$n"), s.session) u ∧
      ∃ c ∈ s.session.handles.containers, c.children = some [⟨"$n", "4", some "int", false, none⟩] := by
  intro plan cx
  have hf : ((opened { home := .at ⟨"/"⟩ } ({ script := .typed } : Rehearsal.State)
      { breakRequested := true } : System (rehearsalEngine plan)).follow
      (breaking (.inline "count") ++ asking 1 (.expand (.of 2 4)))).any
      (fun s => s.session.runState == .stopped &&
        ((assigned? cx (.of 2 4) "$n" "5" s.session s.engine).any
          (fun p => p.2.script.globals.map (·.value.text) == ["5"]) &&
        ((setVariable cx (.of 2 4) "$n" "5").failsWith s.session s.engine (.variableNotFound "$n") &&
        s.session.handles.containers.toList.any fun c =>
          c.children == some [⟨"$n", "4", some "int", false, none⟩]))) = true := by cbv
  obtain ⟨s, hr, hp⟩ := exists_reaches hf
  obtain ⟨hs, hp⟩ := Bool.and_eq_true_iff.mp hp
  obtain ⟨ha, hp⟩ := Bool.and_eq_true_iff.mp hp
  obtain ⟨hset, hc⟩ := Bool.and_eq_true_iff.mp hp
  obtain ⟨⟨a, v⟩, ha, hv⟩ := (Option.any_eq_true _ _).mp ha
  obtain ⟨c, hc, hx⟩ := List.any_eq_true.mp hc
  obtain ⟨u, hrun⟩ := exists_of_failsWith hset
  exact ⟨s, a, v, u, hr, beq_iff_eq.mp hs, ha, beq_iff_eq.mp hv, hrun, c,
    Array.mem_toList_iff.mp hc, beq_iff_eq.mp hx⟩

end System
end Stepwise
