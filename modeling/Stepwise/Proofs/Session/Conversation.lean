import Stepwise.Proofs.Session.Staying

namespace Stepwise

/-- A request and the reply to it, with the system before and after the step that answers. -/
structure Exchange (E : Engine) where
  before : System E
  after : System E
  request : Request
  reply : Reply

namespace System

section

variable {E : Engine} {s t : System E} {xs before after : List (Exchange E)} {x : Exchange E}

def exchange? (s t : System E) (a : Action) : Option (Exchange E) :=
  (s.answered? a).map fun (request, reply) => ⟨s, t, request, reply⟩

/-- Steps of anyone while the session stays stopped, with the exchanges in their order. -/
inductive Conversation (s : System E) : List (Exchange E) → System E → Prop
  | quiet (h : s.session.runState = .stopped) : Conversation s [] s
  | step {xs : List (Exchange E)} {t u : System E} (a : Action) (h : Conversation s xs t)
    (hs : t.step a = some u) (hu : u.session.runState = .stopped) :
    Conversation s (xs ++ (t.exchange? u a).toList) u

namespace Conversation

theorem stopped (h : s.Conversation xs t) :
    s.session.runState = .stopped ∧ t.session.runState = .stopped := by
  induction h with
  | quiet hs => exact ⟨hs, hs⟩
  | step a _ _ hu ih => exact ⟨ih.1, hu⟩

theorem reaches {r : System E} (hr : Reaches r s) (h : s.Conversation xs t) : Reaches r t := by
  induction h with
  | quiet => exact hr
  | step a _ hs _ ih => exact ih.step a hs

/-- An exchange with what was said before it and what is said after it. -/
theorem split (h : s.Conversation (before ++ x :: after) t) :
    s.Conversation before x.before ∧
      (∃ a, x.before.step a = some x.after ∧
        x.before.answered? a = some (x.request, x.reply)) ∧
      x.after.Conversation after t := by
  generalize hxs : before ++ x :: after = xs at h
  induction h generalizing after with
  | quiet => simp at hxs
  | @step xs t u a h hs hu ih =>
    cases hans : t.answered? a with
    | none =>
      have he : t.exchange? u a = none := by simp [exchange?, hans]
      rw [he, Option.toList_none, List.append_nil] at hxs
      obtain ⟨hb, hx, ha⟩ := ih hxs
      exact ⟨hb, hx, by simpa [he] using ha.step a hs hu⟩
    | some answer =>
      have he : t.exchange? u a = some ⟨t, u, answer.1, answer.2⟩ := by simp [exchange?, hans]
      rw [he, Option.toList_some] at hxs
      rcases List.eq_nil_or_concat after with rfl | ⟨rest, last, rfl⟩
      · -- It is the exchange of the last step.
        obtain ⟨rfl, hx⟩ := List.append_inj' hxs rfl
        obtain rfl := List.head_eq_of_cons_eq hx
        exact ⟨h, ⟨a, hs, hans⟩, .quiet hu⟩
      · rw [List.concat_eq_append] at hxs ⊢
        rw [← List.cons_append, ← List.append_assoc] at hxs
        obtain ⟨hb, hl⟩ := List.append_inj' hxs rfl
        obtain ⟨hb, hx, ha⟩ := ih hb
        exact ⟨hb, hx, by simpa [he, List.head_eq_of_cons_eq hl] using ha.step a hs hu⟩

theorem cons (hs : s.session.runState = .stopped) {a : Action} {u : System E}
    (ha : s.step a = some u) (h : u.Conversation xs t) :
    s.Conversation ((s.exchange? u a).toList ++ xs) t := by
  induction h with
  | quiet hu => simpa using (quiet hs).step a ha hu
  | step b _ hb hw ih =>
    rw [← List.append_assoc]
    exact ih.step b hb hw

end Conversation

/-- The exchanges of a list of steps, if each of them can be taken within the halt. -/
def converse (s : System E) : List Action → Option (List (Exchange E) × System E)
  | [] => if s.session.runState = .stopped then some ([], s) else none
  | a :: rest =>
    if s.session.runState = .stopped then
      (s.step a).bind fun t =>
        (t.converse rest).map fun (xs, u) => ((s.exchange? t a).toList ++ xs, u)
    else none

theorem Conversation.of_converse {actions : List Action} (h : s.converse actions = some (xs, t)) :
    s.Conversation xs t := by
  induction actions generalizing s xs with
  | nil =>
    obtain ⟨hs, he⟩ := Option.ite_none_right_eq_some.mp h
    cases he
    exact .quiet hs
  | cons a rest ih =>
    obtain ⟨hs, he⟩ := Option.ite_none_right_eq_some.mp h
    obtain ⟨u, hu, he⟩ := Option.bind_eq_some_iff.mp he
    obtain ⟨⟨ys, v⟩, hv, he⟩ := Option.map_eq_some_iff.mp he
    cases he
    exact .cons hs hu (ih hv)

/-- The steps of a client that has the engine's thread answer a request. -/
def asking (call : Nat) (r : Request) : List Action :=
  [.begin (.request r) false, .advance call, .advance call, .advance call, .work, .work]

/-- The steps into the halt before the first statement of a script, if a break is requested. -/
def breaking (source : Source) : List Action :=
  [.begin (.execute source) false, .advance 0, .work, .work, .work, .work, .work]

/-- A halt that some steps lead to, and a conversation that others lead to there. -/
theorem exists_conversation {r : System E} {actions steps : List Action}
    {p : List (Exchange E) × System E → Bool}
    (h : ((r.follow actions).bind fun s => s.converse steps).any p = true) :
    ∃ s xs t, Reaches r s ∧ s.Conversation xs t ∧ p (xs, t) = true := by
  cases hc : (r.follow actions).bind fun s => s.converse steps with
  | none =>
    rw [hc] at h
    cases h
  | some told =>
    rw [hc] at h
    obtain ⟨s, hs, ht⟩ := Option.bind_eq_some_iff.mp hc
    exact ⟨s, told.1, told.2, (Reaches.refl r).follow hs, .of_converse ht, h⟩

end

/-- What is shown of a halt is not taken back until the halt is left. -/
structure Remains {catalog : Script.Catalog} (s t : System (scriptEngine catalog)) : Prop where
  around : t.session.around = s.session.around
  frames : t.session.frames = s.session.frames
  handles : s.session.handles.Extends t.session.handles
  arena : s.engine.arena <+: t.engine.arena

namespace Remains

variable {catalog : Script.Catalog} {s t u : System (scriptEngine catalog)}

theorem refl (s : System (scriptEngine catalog)) : s.Remains s :=
  ⟨rfl, rfl, .refl _, List.prefix_rfl⟩

theorem trans (h : s.Remains t) (h' : t.Remains u) : s.Remains u :=
  ⟨h'.around.trans h.around, h'.frames.trans h.frames, h.handles.trans h'.handles,
    h.arena.trans h'.arena⟩

theorem of_haltStep {a : Action} (ht : t.session.runState = .stopped) (h : HaltStep s t a) :
    s.Remains t := by
  cases h with
  | answer _ answers _ =>
    have hk := answers.keeps
    exact ⟨hk.same.around, hk.same.frames, hk.handles, hk.arena⟩
  | quiet _ passes engine _ =>
    obtain ⟨_, ha, hf, hh⟩ := passes.halt ht
    exact ⟨ha, hf, hh ▸ .refl _, engine ▸ List.prefix_rfl⟩

end Remains

section

variable {catalog : Script.Catalog} {s t : System (scriptEngine catalog)}
  {xs before after : List (Exchange (scriptEngine catalog))} {x : Exchange (scriptEngine catalog)}
  {around : Surroundings} {engine : Script.State} {interrupts : Interrupts}

/-- The halt between two of its states. -/
theorem Conversation.remains (hr : Reaches (opened around engine interrupts) s)
    (h : s.Conversation xs t) : s.Remains t := by
  induction h with
  | quiet => exact .refl s
  | step a h hs hu ih =>
    have hr' := h.reaches hr
    have hstep := haltStep (inOrder_reaches hr') (.of_reaches hr') h.stopped.2 hs
    exact ih.trans (.of_haltStep hu hstep)

/-- In a halt every exchange gives an answer, and a true one. -/
theorem Conversation.answers (hr : Reaches (opened around engine interrupts) s)
    (h : s.Conversation (before ++ x :: after) t) :
    Reaches (opened around engine interrupts) x.after ∧ x.before.Remains x.after ∧
      ∃ result, x.reply = .given result ∧
        x.before.session.Answers x.before.engine x.request result x.after.session
          x.after.engine := by
  obtain ⟨hb, ⟨a, hs, hans⟩, ha⟩ := h.split
  have hrb := hb.reaches hr
  have hstep := haltStep (inOrder_reaches hrb) (.of_reaches hrb) hb.stopped.2 hs
  refine ⟨hrb.step a hs, .of_haltStep ha.stopped.1 hstep, ?_⟩
  cases hstep with
  | answer hans' answers _ =>
    obtain ⟨hq, hp⟩ := Prod.mk.inj (Option.some.inj (hans.symm.trans hans'))
    exact ⟨_, hp, hq ▸ answers⟩
  | quiet hnone =>
    rw [hans] at hnone
    cases hnone

end
end System
end Stepwise
