import Stepwise.Proofs.Script.Registered
import Stepwise.Proofs.Session.Sources

namespace Stepwise.Script

variable {catalog : Catalog} {script : Loaded} {tasks : List Task} {frames : List Frame}
  {s t : State} {i j : Interrupts} {stepping : Stepping} {p : Point} {run : Run}

/-- The scripts of the frames while the functions are carried out that the tasks return from. -/
def activations (script : Loaded) (tasks : List Task) : List (Option Path) :=
  List.replicate ((returns tasks).length + 1) script.path

/-- The engine has the frames of the run. -/
def Run.Activated (s : State) : Run → Prop
  | .launching _ => True
  | .running script _ tasks => s.paths = activations script tasks
  | .checking script _ p | .resumed script p _ _ => s.paths = activations script p.tasks

theorem paths_eq_activations_iff : s.paths = activations script tasks ↔
    s.frames.length = (returns tasks).length + 1 ∧ ∀ f ∈ s.frames, f.path = script.path := by
  rw [State.paths, activations, List.eq_replicate_iff, List.length_map, List.forall_mem_map]

/-- On the way to the next statement frames are only left. -/
theorem arrive_suffix (tasks : List Task) (frames : List Frame) :
    (arrive tasks frames).2 <:+ frames := by
  fun_induction arrive tasks frames with
  | case2 rest frames ih => exact ih.trans (List.tail_suffix frames)
  | case5 rest frames line name next last body hle ih => exact ih
  | case6 rest frames ih => exact ih
  | case12 rest frames others line name first last body hle ih => exact ih
  | _ => exact List.suffix_rfl

theorem activated_proceed (h : s.paths = activations script tasks) (i : Interrupts)
    (stepping : Stepping) :
    (proceed s i script stepping tasks).1.Keeps
      (Run.Activated (proceed s i script stepping tasks).2.1) := by
  obtain ⟨hl, hp⟩ := paths_eq_activations_iff.mp h
  have hn : Nested (returns tasks) tasks s.frames := ⟨List.suffix_rfl, hl⟩
  have ha := arrive_arrives hn
  have hs := arrive_suffix tasks s.frames
  unfold proceed
  generalize arrive tasks s.frames = arrival at ha hs ⊢
  cases ha with
  | «at» p nested =>
    exact paths_eq_activations_iff.mpr ⟨nested.length, fun f hf => hp f (hs.subset hf)⟩
  | resting tasks nested =>
    exact paths_eq_activations_iff.mpr ⟨nested.length, fun f hf => hp f (hs.subset hf)⟩
  | done frames => trivial

/-- A call adds a frame of the same script. -/
theorem path_of_carryOut (hc : s.carryOut script i p = .on t j tasks)
    (h : ∀ f ∈ s.frames, f.path = script.path) : ∀ f ∈ t.frames, f.path = script.path := by
  have kept (ht : t.paths = s.paths) : ∀ f ∈ t.frames, f.path = script.path := by
    intro f hf
    have hm : f.path ∈ s.paths := ht ▸ List.mem_map_of_mem hf
    obtain ⟨g, hg, he⟩ := List.mem_map.mp hm
    exact he ▸ h g hg
  unfold State.carryOut at hc
  generalize p.effect = effect at hc
  cases effect with
  | assign name expression declared =>
    obtain ⟨hx, rfl⟩ := ofExcept_eq_on hc
    obtain ⟨v, _, hx⟩ := Except.bind_eq_ok_iff.mp hx
    exact kept (State.paths_store hx)
  | set name value =>
    obtain ⟨hx, rfl⟩ := ofExcept_eq_on hc
    exact kept (State.paths_store hx)
  | pass =>
    cases hc
    exact h
  | command name =>
    dsimp only at hc
    split at hc
    · cases hc
      exact h
    · split at hc
      · cases hc
      · cases hc
        exact h
  | call function arguments =>
    dsimp only at hc
    split at hc
    · cases hc
    · obtain ⟨hx, rfl⟩ := ofExcept_eq_on hc
      obtain ⟨locals, _, hx⟩ := Except.bind_eq_ok_iff.mp hx
      cases hx
      exact List.forall_mem_cons.mpr ⟨rfl, h⟩

theorem activated_execute (h : s.paths = activations script p.tasks) (i : Interrupts)
    (stepping : Stepping) :
    (execute s i script stepping p).1.Keeps
      (Run.Activated (execute s i script stepping p).2.1) := by
  obtain ⟨hl, hp⟩ := paths_eq_activations_iff.mp h
  unfold execute
  cases hc : s.carryOut script i p with
  | on t j tasks =>
    have ht : t.paths = activations script tasks :=
      paths_eq_activations_iff.mpr ⟨(carryOut_nested hl hc).length, path_of_carryOut hc hp⟩
    exact activated_proceed ht j stepping
  | failed message => trivial
  | crashed => trivial

theorem paths_noteLine (s : State) (line : Nat) : (s.noteLine line).paths = s.paths := by
  unfold State.noteLine State.paths
  split
  · rfl
  · next f rest hf => simp [hf]

theorem paths_looked (s : State) (script : Loaded) (p : Point) :
    (s.looked script p).2.paths = s.paths :=
  paths_noteLine s p.line

theorem activated_next (h : run.Activated s) (i : Interrupts) :
    (next catalog run s i).1.Keeps (Run.Activated (next catalog run s i).2.1) := by
  cases run with
  | launching source =>
    simp only [next]
    split
    · trivial
    · exact activated_proceed (s := s.enter _ _) rfl i .off
  | running script stepping tasks => exact activated_proceed h i stepping
  | checking script stepping p =>
    have hl : (s.looked script p).2.paths = activations script p.tasks :=
      (paths_looked s script p).trans h
    rw [next, check_eq]
    split
    · trivial
    · split
      · exact fun _ => hl
      · exact activated_execute hl i stepping
  | resumed script p depth action =>
    cases action with
    | abort => trivial
    | _ => exact activated_execute (s := { s with arena := [] }) h i _

/-- A run that halts has frames, and the innermost one is where it halts. -/
theorem top_of_halted (h : run.Activated s) {halt : Halt} {k : Resume → Run}
    (hn : next catalog run s i = (.halted halt k, t, j)) :
    ∃ f rest, t.frames = f :: rest ∧ f.line = halt.line ∧ f.path = halt.scriptPath := by
  cases hl : run.looks i with
  | false =>
    have hq := (next_quiet catalog s hl).halt?
    rw [hn] at hq
    cases hq
  | true =>
    obtain ⟨script, stepping, p, rfl, ha⟩ := Run.exists_of_looks hl
    obtain ⟨hlength, hp⟩ := paths_eq_activations_iff.mp h
    match hf : s.frames with
    | [] =>
      rw [hf] at hlength
      cases hlength
    | f :: rest =>
      rw [next, check_eq, if_neg (by simp [ha])] at hn
      split at hn
      · cases hn
        refine ⟨{ f with line := p.line }, rest, ?_, rfl, hp f (hf ▸ List.mem_cons_self)⟩
        simp [State.reach, State.noteLine, hf]
      · have hq := (execute_quiet (s.looked script p).2 i script stepping p).halt?
        rw [show execute (s.looked script p).2 i script stepping p = _ from hn] at hq
        cases hq

end Stepwise.Script
