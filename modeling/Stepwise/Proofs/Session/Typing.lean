import Stepwise.Proofs.Script.Typing
import Stepwise.Proofs.Session.Snapshot
import Stepwise.Proofs.Session.Turns

namespace Stepwise

open Script (State Assigned Place)

variable {enums : Enumerations}

/-- What is assigned is of the type that is declared with the variable. -/
theorem Script.Assigned.wellTyped {e u : State} {scope : Scope} {name expression : String}
    {p : Place} {old : Script.Variable} {w : Value} (h : Assigned e u scope name expression p old w)
    (he : e.WellTyped enums) (hu : u.enums = e.enums) : u.WellTyped enums := by
  obtain ⟨hknown, hvars⟩ := State.wellTyped_iff.mp he
  obtain ⟨v, hv, hw⟩ := h.value
  obtain ⟨hproper, hof⟩ := v.convert_isOf (he.evaluate _ _ v hv) old.declaredType w (hknown ▸ hw)
  refine State.wellTyped_iff.mpr ⟨hu.trans hknown, fun storage x hx => ?_⟩
  obtain ⟨k, hk⟩ := List.mem_iff_getElem?.mp hx
  have hat : u.at? ⟨storage, k⟩ = some x := hk
  by_cases hp : (⟨storage, k⟩ : Place) = p
  · rw [hp, h.after] at hat
    cases hat
    exact ⟨hproper, hof⟩
  · rw [h.others _ hp] at hat
    exact hvars storage x (List.mem_of_getElem? hat)

/-- In a halt clients can only assign what a variable may hold. -/
theorem Session.Answers.wellTyped {s t : Session} {e u : State} {r : Request} {result : Result}
    (h : s.Answers e r result t u) (he : e.WellTyped enums) (hu : u.enums = e.enums) :
    u.WellTyped enums := by
  cases h with
  | set opens assigned keeps => exact assigned.wellTyped he hu
  | breakpoints | listed | notListed | notFound | evaluated | noFrame | noValue | notShown
  | notSet =>
    exact he.alike (Session.Reads.engine (by assumption)).alike

namespace System

variable {catalog : Script.Catalog} {s t : System (scriptEngine catalog)} {around : Surroundings}
  {engine : State} {interrupts : Interrupts} {a : Action}

/-- Outside a halt clients only get to breakpoints. -/
theorem serve_alike (hs : s.session.runState ≠ .stopped) (post : Post (scriptEngine catalog).Run)
    (call : Nat) (r : Request) : s.engine.Alike (s.serve post call r).engine := by
  cases hp : s.poisoned with
  | true =>
    unfold serve
    rw [if_pos hp]
    exact .refl _
  | false =>
    cases hc : r.call? with
    | some request =>
      obtain ⟨_, u, hperform, hu⟩ :=
        Script.Steady.perform s.session.around.home s.session.registry request s.engine
      obtain ⟨_, _, _, hrun, _, _, _, _, rfl⟩ := r.serve_call hc hperform
      rw [(serve_of_run hp hrun post call).2]
      exact hu.alike
    | none =>
      obtain ⟨x, hx⟩ := Session.exists_of_unstopped hs
      have hrun : ((r.serve (scriptEngine catalog).context s.session.around.home).run.run
          s.session).run s.engine = (some (.error x, s.session), s.engine) := by
        rw [Request.serve_unstopped hc hx]
        rfl
      rw [(serve_of_run hp hrun post call).2]
      exact .refl _

theorem serve_wellTyped (hr : Reaches (opened around engine interrupts) s)
    {post : Post (scriptEngine catalog).Run} {call : Nat} {r : Request}
    (hw : s.worker = .serving post call r) (h : s.engine.WellTyped enums) :
    (s.serve post call r).engine.WellTyped enums := by
  by_cases hs : s.session.runState = .stopped
  · cases serve_haltStep (inOrder_reaches hr) (.of_reaches hr) hs hw with
    | answer _ answers _ => exact answers.wellTyped h (serve_fixed State.enums_fixed s post call r)
    | quiet _ _ engine _ =>
      rw [engine]
      exact h
  · exact h.alike (serve_alike hs post call r)

/-- What becomes of the engine in a step: nothing, unless the thread serves a request or runs. -/
inductive EngineStep (s t : System (scriptEngine catalog)) : Prop
  | rests (engine : t.engine = s.engine)
  | serves {post : Post (scriptEngine catalog).Run} {call : Nat} {r : Request}
    (serving : s.worker = .serving post call r) (served : t = s.serve post call r)
  | runs {run : (scriptEngine catalog).Run} {execution : Nat} {closing : Bool}
    (running : s.worker = .running run execution closing)
    (engine : t.engine = ((scriptEngine catalog).next run s.engine s.interrupts).2.1)

theorem engineStep (h : s.step a = some t) : EngineStep s t := by
  by_cases ha : a = .work
  · subst ha
    obtain ⟨⟨u, ms⟩, hwork, rfl⟩ := Option.map_eq_some_iff.mp h
    unfold work at hwork
    cases hw : s.worker with
    | taking post =>
      rw [hw] at hwork
      dsimp only at hwork
      split at hwork
      · cases hwork
        exact .rests (engine_take _ _ _)
      · split at hwork <;> cases hwork
        exact .rests rfl
    | serving post call r =>
      rw [hw] at hwork
      cases hwork
      exact .serves hw rfl
    | running run execution closing =>
      rw [hw] at hwork
      exact .runs hw (engine_run hwork)
    | halting halt k execution =>
      rw [hw] at hwork
      cases hwork
      exact .rests (tellHalt_settings s halt k execution).2
    | completing outcome execution closing =>
      rw [hw] at hwork
      cases hwork
      cases closing with
      | false => exact .rests rfl
      | true => exact .rests (engine_close _ false)
    | exiting crashed =>
      rw [hw] at hwork
      cases hwork
      exact .rests rfl
    | exited =>
      rw [hw] at hwork
      cases hwork
  · exact .rests (Prod.mk.inj (thread_step ha h)).1

/-- The variables hold what they may, and so will they after what the thread is about to do. -/
structure WellTyped (enums : Enumerations) (s : System (scriptEngine catalog)) : Prop where
  engine : s.engine.WellTyped enums
  run : s.worker.Keeps fun _ run => Script.Run.Proper enums run

theorem WellTyped.step (hcatalog : catalog.Proper enums)
    (hr : Reaches (opened around engine interrupts) s) (h : s.WellTyped enums)
    (hs : s.step a = some t) : t.WellTyped enums := by
  refine ⟨?_, keeps_step (fun execution run hrun => ?_) (fun _ _ _ => trivial) h.run hs⟩
  · cases engineStep hs with
    | rests engine =>
      rw [engine]
      exact h.engine
    | serves serving served =>
      rw [served]
      exact serve_wellTyped hr serving h.engine
    | runs running engine =>
      have hrun := h.run
      rw [running] at hrun
      rw [engine]
      exact (Script.next_types hcatalog h.engine hrun s.interrupts).state
  · exact (Script.next_types hcatalog h.engine hrun s.interrupts).run

theorem wellTyped_reaches (hcatalog : catalog.Proper enums) (hengine : engine.WellTyped enums)
    (h : Reaches (opened around engine interrupts) s) : s.WellTyped enums := by
  induction h with
  | refl => exact ⟨hengine, trivial⟩
  | step a hr hs ih => exact ih.step hcatalog hr hs

/-- Whatever scripts and clients do: in every state that a session gets into, before, in and after
its runs and halts, each variable holds a value of the type that is declared with it.  To begin with
the engine's variables do, and its scripts set variables to no more than members of the enumerations
that the engine knows. -/
theorem declared_types_respected (hcatalog : catalog.Proper engine.enums)
    (hengine : engine.WellTyped engine.enums) (h : Reaches (opened around engine interrupts) s) :
    s.engine.WellTyped engine.enums :=
  (wellTyped_reaches hcatalog hengine h).engine

/-- A client sets a number to a text; the script counts with a text, and gives the same variable
another type twice. -/
theorem declared_types_respected_when_changed :
    let engine : State := { Script.State.typed with enums := [("Level", ["Low", "High"])] }
    let catalog : Script.Catalog := { inlines := [("levels",
      { body := [.set 1 "$i" (.enum "Level" "Low"), .declare 2 "$i" "string" "7",
          .count 3 "$i" 1 1 [], .declare 4 "$i" "Level" "'high'"] })] }
    catalog.Proper engine.enums ∧ engine.WellTyped engine.enums ∧
      ∃ s, Reaches (opened { home := .at ⟨"/"⟩ } engine { breakRequested := true } :
          System (scriptEngine catalog)) s ∧
        (s.engine.globals ++ s.engine.scriptVariables).map
          (fun v => (v.name, v.declaredType, v.value.text)) =
            [("$n", some "int", "5"), ("$i", some "Level", "High")] ∧
        s.engine.WellTyped engine.enums := by
  intro engine catalog
  have hlevels : engine.enums.members? "Level" = some ["Low", "High"] := rfl
  have hcatalog : catalog.Proper engine.enums := by
    refine ⟨List.forall_mem_nil _, List.forall_mem_singleton.mpr ⟨?_, List.forall_mem_nil _⟩⟩
    refine List.forall_mem_cons.mpr ⟨?_, List.forall_mem_cons.mpr ⟨nofun, ?_⟩⟩
    · rintro _ ⟨⟩ members hm
      cases hlevels.symm.trans hm
      exact List.mem_cons_self
    · refine List.forall_mem_cons.mpr ⟨?_, List.forall_mem_singleton.mpr nofun⟩
      rintro _ (_ | ⟨⟨⟩, _⟩)
  have hengine : engine.WellTyped engine.enums := by
    refine ⟨rfl, List.forall_mem_singleton.mpr ⟨trivial, ?_⟩, List.forall_mem_nil _,
      List.forall_mem_nil _⟩
    rintro _ ⟨⟩
    exact Value.Primitive.Holds.isOf (p := .int) ⟨4, rfl⟩ (by cbv)
  have hf : ((opened { home := .at ⟨"/"⟩ } engine { breakRequested := true } :
      System (scriptEngine catalog)).follow
      (breaking (.inline "levels") ++ asking 1 (.setVariable (.of 2 4) "$n" "'5'") ++
        [.begin .continue false, .advance 2, .work, .work, .work, .work, .work, .work, .work,
          .work])).any
      (fun s => (s.engine.globals ++ s.engine.scriptVariables).map
        (fun (v : Script.Variable) => (v.name, v.declaredType, v.value.text)) ==
          [("$n", some "int", "5"), ("$i", some "Level", "High")]) = true := by cbv
  obtain ⟨s, hr, hp⟩ := exists_reaches hf
  exact ⟨hcatalog, hengine, s, hr, beq_iff_eq.mp hp,
    declared_types_respected hcatalog hengine hr⟩

/-- A variable that is declared with the name of a primitive type holds no member of an enumeration
with this name. -/
theorem declared_int_not_member :
    let engine : State := { enums := [("int", ["A"])] }
    let catalog : Script.Catalog := { inlines := [("count",
      { body := [.declare 1 "$i" "int" "0"] })] }
    catalog.Proper engine.enums ∧ engine.WellTyped engine.enums ∧
      engine.enums.members? "int" = some ["A"] ∧
      ∃ s, Reaches (opened { home := .at ⟨"/"⟩ } engine { } : System (scriptEngine catalog)) s ∧
        ∃ v ∈ s.engine.scriptVariables,
          v.declaredType = some "int" ∧ ∀ name, v.value ≠ .enum "int" name := by
  intro engine catalog
  have hcatalog : catalog.Proper engine.enums :=
    ⟨List.forall_mem_nil _, List.forall_mem_singleton.mpr
      ⟨List.forall_mem_singleton.mpr nofun, List.forall_mem_nil _⟩⟩
  have hengine : engine.WellTyped engine.enums :=
    ⟨rfl, List.forall_mem_nil _, List.forall_mem_nil _, List.forall_mem_nil _⟩
  have hf : ((opened { home := .at ⟨"/"⟩ } engine {} : System (scriptEngine catalog)).follow
      [.begin (.execute (.inline "count")) false, .advance 0, .work, .work, .work, .work,
        .work]).any
      (fun s => s.engine.scriptVariables.any fun (v : Script.Variable) =>
        v.declaredType == some "int" && v.value matches .int _) = true := by cbv
  obtain ⟨s, hr, hp⟩ := exists_reaches hf
  obtain ⟨v, hv, hp⟩ := List.any_eq_true.mp hp
  obtain ⟨htype, hvalue⟩ := Bool.and_eq_true_iff.mp hp
  refine ⟨hcatalog, hengine, rfl, s, hr, v, hv, beq_iff_eq.mp htype, fun name he => ?_⟩
  rw [he] at hvalue
  cases hvalue

end System
end Stepwise
