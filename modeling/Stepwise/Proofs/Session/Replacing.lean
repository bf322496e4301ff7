import Stepwise.Proofs.Session.Rebuilding

namespace Stepwise

namespace Script.State

variable {s : State} {scope : Scope} {filter : ScopeFilter}

/-- A state with a variable for numbers. -/
def typed : State :=
  { globals := [{ name := "$n", value := .int 4, declaredType := some "int" }] }

/-- The places of the variables that are listed for a scope, in their order. -/
def places (s : State) (scope : Scope) (filter : ScopeFilter) : List Place :=
  ((s.held (s.storage scope)).zipIdx.filter fun (v, _) => filter == .all || !v.automatic).map
    fun (_, position) => ⟨s.storage scope, position⟩

/-- What is listed for a scope is listed at its places. -/
theorem forall₂_places {α : Type} {R : Entry → α → Prop} {l : List Entry} {ys : List α}
    (h : s.listed (.scope scope filter) = .ok l) (hl : List.Forall₂ R l ys) :
    List.Forall₂ (fun p y => ∃ v, s.at? p = some v ∧ R v.entry y) (s.places scope filter) ys := by
  obtain ⟨_, hv, rfl⟩ := listed_scope_eq_ok h
  obtain ⟨_, rfl⟩ := scope_eq_ok_iff.mp hv
  rw [← List.zipIdx_map_fst 0 (s.held _), List.filter_map, List.map_map,
    List.forall₂_map_left_iff] at hl
  rw [places, List.forall₂_map_left_iff]
  refine ((List.forall₂_and_left _ _).mpr ⟨fun x hx => ?_, hl⟩).imp
    fun x _ ⟨hx, hy⟩ => ⟨x.1, hx, hy⟩
  exact List.mem_zipIdx_iff_getElem?.mp (List.mem_of_mem_filter hx)

end Script.State

/-- The new text of a variable that is set. -/
def Exchange.text? {E : Engine} (x : Exchange E) : Option String :=
  match x.reply with
  | .given (.ok (.text text)) => some text
  | _ => none

theorem Exchange.text?_eq_some_iff {E : Engine} {x : Exchange E} {text : String} :
    x.text? = some text ↔ x.reply = .given (.ok (.text text)) := by
  unfold text?
  split
  · next other hr => simp [hr]
  · next hr =>
    constructor
    · nofun
    · exact fun h => absurd h (hr text)

namespace System

open Script (Place Assigned)

variable {catalog : Script.Catalog} {s t : System (scriptEngine catalog)}
  {xs before after : List (Exchange (scriptEngine catalog))} {x : Exchange (scriptEngine catalog)}
  {around : Surroundings} {engine : Script.State} {interrupts : Interrupts}
  {handle : Handle} {scope : Scope} {filter : ScopeFilter}

/-- Until another variable is set, whoever lists the place is shown this text under this name. -/
def ShownAt (xs : List (Exchange (scriptEngine catalog))) (p : Place) (name text : String) : Prop :=
  ∀ calm x rest, xs = calm ++ x :: rest → (∀ y ∈ calm, y.text? = none) →
    ∀ handle scope filter,
    x.before.session.handles.Opens handle (.scope scope filter) → x.request = .expand handle →
      (∃ ys, x.reply = .given (.ok (.children ys)) ∧
        List.Forall₂ (fun q y => q = p → y.name = name ∧ y.value = text)
          (x.before.engine.places scope filter) ys) ∨
      (x.reply = .given (.error .handleSpaceExhausted) ∧ x.after.session.handles.Full)

namespace Conversation

/-- As long as no variable is set, the engine answers as it did. -/
theorem engine_extends (hr : Reaches (opened around engine interrupts) s)
    (h : s.Conversation xs t) (calm : ∀ x ∈ xs, x.text? = none) : s.engine.Extends t.engine := by
  induction h with
  | quiet => exact .refl s.engine
  | @step xs t u a h hs hu ih =>
    have hr' := h.reaches hr
    refine (ih fun x hx => calm x (List.mem_append_left _ hx)).trans ?_
    cases haltStep (inOrder_reaches hr') (.of_reaches hr') h.stopped.2 hs with
    | @answer r result answered answers _ =>
      have hx : ⟨t, u, r, .given result⟩ ∈ xs ++ (t.exchange? u a).toList := by
        simp [exchange?, answered]
      have hn : ∀ text, result ≠ .ok (.text text) := by
        rintro text rfl
        cases calm _ hx
      exact (answers.reads hn).engine
    | quiet _ _ engine _ =>
      rw [engine]
      exact .refl t.engine

/-- A scope is listed at its places. -/
theorem lists_places (hr : Reaches (opened around engine interrupts) s)
    (h : s.Conversation (before ++ x :: after) t)
    (ho : x.before.session.handles.Opens handle (.scope scope filter))
    (hq : x.request = .expand handle) :
    (∃ ys, x.reply = .given (.ok (.children ys)) ∧
      List.Forall₂ (fun p y => ∃ v, x.before.engine.at? p = some v ∧ x.Tells v.entry y)
        (x.before.engine.places scope filter) ys) ∨
    (x.reply = .given (.error .handleSpaceExhausted) ∧ x.after.session.handles.Full) := by
  have hb := h.split.1
  obtain ⟨l, hl⟩ := ((inOrder_reaches (hb.reaches hr)).orderly hb.stopped.2).opened ho
  exact (h.lists hr ho hl hq).imp_left
    fun ⟨ys, hy, hs⟩ => ⟨ys, hy, Script.State.forall₂_places hl hs⟩

/-- A variable that has been set is shown with its new value. -/
theorem shownAt (hr : Reaches (opened around engine interrupts) s) (h : s.Conversation xs t)
    {p : Place} {v : Script.Variable} (hv : s.engine.at? p = some v) :
    ShownAt xs p v.name (v.value.shown s.session.around.literals) := by
  intro calm x rest hxs hcalm handle scope filter ho hq
  subst hxs
  have hb := h.split.1
  have hx := hb.engine_extends hr hcalm
  have haround := ((hb.remains hr).trans (h.answers hr).2.1).around
  refine (h.lists_places hr ho hq).imp_left fun ⟨ys, hy, hs⟩ => ⟨ys, hy, hs.imp ?_⟩
  rintro _ y ⟨u, hu, hy⟩ rfl
  rw [hx.at?_eq, hv] at hu
  obtain rfl := Option.some.inj hu
  exact ⟨hy.name, haround ▸ hy.value⟩

/-- Setting a variable gives the first one of the name in the scope the value of the expression,
converted to its type, and changes nothing else; the text that is answered is what is listed of the
variable from then on. -/
theorem set_replaces (hr : Reaches (opened around engine interrupts) s)
    (h : s.Conversation (before ++ x :: after) t) {name expression text : String}
    (hq : x.request = .setVariable handle name expression)
    (hp : x.reply = .given (.ok (.text text))) :
    ∃ scope filter p old w, x.before.session.handles.Opens handle (.scope scope filter) ∧
      x.before.engine.scope scope = .ok (x.before.engine.held p.storage) ∧
      x.after.engine.scope scope = .ok (x.after.engine.held p.storage) ∧
      Assigned x.before.engine x.after.engine scope name expression p old w ∧
      text = w.shown x.before.session.around.literals ∧ ShownAt after p old.name text := by
  obtain ⟨hb, ⟨a, hs, hans⟩, ha⟩ := h.split
  obtain ⟨hra, hrem, result, hreply, hanswers⟩ := h.answers hr
  obtain rfl : .ok (.text text) = result := Reply.given.inj (hp.symm.trans hreply)
  rw [hq] at hanswers
  obtain ⟨scope, filter, p, old, w, ho, hset, rfl⟩ := hanswers.of_text
  have hbefore := (inOrder_reaches (hb.reaches hr)).orderly hb.stopped.2
  have hafter := (inOrder_reaches hra).orderly ha.stopped.1
  obtain ⟨vars, hv⟩ := hbefore.scope_of_opens ho
  obtain ⟨vars', hv'⟩ := hafter.scope_of_opens (hrem.handles.opens ho)
  refine ⟨scope, filter, p, old, w, ho, ?_, ?_, hset, rfl, ?_⟩
  · rw [hset.storage, hv, (Script.State.scope_eq_ok_iff.mp hv).2]
  · rw [hset.storage, ← hset.scopes, hv', (Script.State.scope_eq_ok_iff.mp hv').2]
  · rw [← hrem.around]
    exact ha.shownAt hra hset.after

/-- A variable for numbers is set to a text, and listed after that. -/
theorem set_replaces_converted :
    ∃ (s t : System (scriptEngine { inlines := [("count", .counting 1)] }))
      (x y : Exchange (scriptEngine { inlines := [("count", .counting 1)] })),
      Reaches (opened { home := .at ⟨"/"⟩ } Script.State.typed { breakRequested := true }) s ∧
      s.Conversation [x, y] t ∧ x.request = .setVariable (.of 2 4) "$n" "'5'" ∧
      x.reply = .given (.ok (.text "5")) ∧ y.request = .expand (.of 2 4) ∧
      ∃ scope filter p old w, x.before.session.handles.Opens (.of 2 4) (.scope scope filter) ∧
        x.before.engine.scope scope = .ok (x.before.engine.held p.storage) ∧
        x.after.engine.scope scope = .ok (x.after.engine.held p.storage) ∧
        Assigned x.before.engine x.after.engine scope "$n" "'5'" p old w ∧
        "5" = w.shown x.before.session.around.literals ∧ ShownAt [y] p old.name "5" := by
  have hf : (((opened { home := .at ⟨"/"⟩ } Script.State.typed { breakRequested := true } :
      System (scriptEngine { inlines := [("count", .counting 1)] })).follow
      (breaking (.inline "count"))).bind fun s =>
        s.converse (asking 1 (.setVariable (.of 2 4) "$n" "'5'") ++
          asking 2 (.expand (.of 2 4)))).any
      (fun told => told.1.map (fun x => (x.request, x.text?)) ==
        [(.setVariable (.of 2 4) "$n" "'5'", some "5"), (.expand (.of 2 4), none)]) = true := by cbv
  obtain ⟨s, xs, t, hr, h, hp⟩ := exists_conversation hf
  obtain ⟨x, _, rfl, hx, hp⟩ := List.map_eq_cons_iff.mp (beq_iff_eq.mp hp)
  obtain ⟨y, _, rfl, hy, hp⟩ := List.map_eq_cons_iff.mp hp
  obtain rfl := List.map_eq_nil_iff.mp hp
  obtain ⟨hq, ht⟩ := Prod.mk.inj hx
  have ht := Exchange.text?_eq_some_iff.mp ht
  have hxy : s.Conversation ([] ++ x :: [y]) t := h
  exact ⟨s, t, x, y, hr, h, hq, ht, (Prod.mk.inj hy).1, set_replaces hr hxy hq ht⟩

end Conversation
end System
end Stepwise
