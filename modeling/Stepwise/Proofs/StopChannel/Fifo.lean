import Stepwise.Proofs.StopChannel.Steps

namespace Stepwise
namespace StopChannel

variable {c d e : StopChannel} {a : Action} {told : Told} {i : Nat} {w : Wait}
variable {x : Told × StopChannel} {actions : List Action}

/-- A step that was taken. -/
structure Turn where
  before : StopChannel
  action : Action
  told : Told
  after : StopChannel

/-- One step after another; there is no run if one of them cannot be taken. -/
def run (c : StopChannel) : List Action → Option (List Turn × StopChannel)
  | [] => some ([], c)
  | a :: rest =>
    match c.step a with
    | none => none
    | some (told, d) =>
      match d.run rest with
      | none => none
      | some (turns, e) => some (⟨c, a, told, d⟩ :: turns, e)

/-- The stops that were put into the queue, in order. -/
def accepted (turns : List Turn) : List StoppedEvent :=
  turns.flatMap fun x => x.told.accepted

/-- The stops that were taken out of the queue over all receiving ends, in order. -/
def taken (turns : List Turn) : List StoppedEvent :=
  turns.flatMap fun x => x.told.taken

variable {turns : List Turn}

theorem run_cons (a : Action) (actions : List Action) :
    c.run (a :: actions) = some (turns, e) ↔
      ∃ told d later, c.step a = some (told, d) ∧ d.run actions = some (later, e) ∧
        ⟨c, a, told, d⟩ :: later = turns := by
  simp only [run]
  constructor
  · intro h
    split at h
    · cases h
    · next told d hstep =>
      split at h <;> cases h
      next later hlater => exact ⟨told, d, later, hstep, hlater, rfl⟩
  · rintro ⟨told, d, later, hstep, hlater, rfl⟩
    simp [hstep, hlater]

theorem Progress.right (h : c.Progress i w x) (hw : c.waits[i]? = some w) (hc : c.Timely) :
    (x.1 = .nothing ∧ x.2.queue = c.queue) ∨
    ∃ w answer, c.waits[i]? = some w ∧ x.1 = .waited i answer ∧ Waited c w answer x.2.queue := by
  cases h with
  | look | late | poll | again => exact .inl ⟨rfl, rfl⟩
  | giveUp looking cancelled => exact .inr ⟨w, _, hw, rfl, waited_true cancelled⟩
  | ready limit polling ready =>
    refine .inr ⟨w, _, hw, rfl, waited_false fun empty left => ?_⟩
    simp [StopQueue.ready, empty, left] at ready
  | last trying => exact .inr ⟨w, _, hw, rfl, waited_false fun _ _ => hc i w hw trying⟩

/-- The steps of the wait itself, and time. -/
def Action.IsOwn (i : Nat) : Action → Prop
  | .advance wait => wait = i
  | .expire wait => wait = i
  | .elapse _ => True
  | _ => False

/-- Not cancelled, or about to see that it is. -/
def IsClear (w : Wait) : Prop :=
  w.stage = .looking ∨ w.cancelled = false

theorem waits_finish (hw : c.waits[i]? = some w) (cancelled : Bool) :
    ∃ v, (c.finish i cancelled).2.waits[i]? = some v ∧ v.stage.isEnded = true :=
  ⟨_, waits_setStage (c := { c with queue := _ }) hw _, rfl⟩

theorem Progress.alone (h : c.Progress i w x) (hw : c.waits[i]? = some w) (clear : IsClear w) :
    (x.1 = .nothing ∧ x.2.queue = c.queue ∧
      ∃ v, x.2.waits[i]? = some v ∧ v.cancelled = w.cancelled ∧ IsClear v) ∨
    ((∃ answer, x.1 = .waited i answer ∧ (answer, x.2.queue) = c.queue.take w.cancelled) ∧
      ∃ v, x.2.waits[i]? = some v ∧ v.stage.isEnded = true) := by
  have uncancelled : w.stage ≠ .looking → w.cancelled = false := clear.resolve_left
  cases h with
  | look looking free => exact .inl ⟨rfl, rfl, _, waits_setStage hw _, rfl, .inr free⟩
  | giveUp looking cancelled => exact .inr ⟨⟨_, rfl, by rw [cancelled]; rfl⟩, waits_finish hw _⟩
  | late measuring | poll limit measuring =>
    exact .inl ⟨rfl, rfl, _, waits_setStage hw _, rfl, .inr (uncancelled (by simp [measuring]))⟩
  | again limit polling => exact .inl ⟨rfl, rfl, _, waits_setStage hw _, rfl, .inl rfl⟩
  | ready limit polling =>
    exact .inr ⟨⟨_, rfl, by rw [uncancelled (by simp [polling])]; rfl⟩, waits_finish hw _⟩
  | last trying =>
    exact .inr ⟨⟨_, rfl, by rw [uncancelled (by simp [trying])]; rfl⟩, waits_finish hw _⟩

/-- Left alone, the wait can come to its end. -/
def Ends (c : StopChannel) (i : Nat) : Prop :=
  ∃ actions turns d, c.run actions = some (turns, d) ∧ (∀ a ∈ actions, a.IsOwn i) ∧
    ∃ x ∈ turns, ∃ answer, x.told = .waited i answer

theorem Ends.of_step (h : c.step a = some (told, d)) (own : a.IsOwn i) (hd : d.Ends i) :
    c.Ends i := by
  obtain ⟨actions, turns, e, hrun, hown, x, hx, answer, ht⟩ := hd
  refine ⟨a :: actions, _, e, (run_cons a actions).mpr ⟨told, d, turns, h, hrun, rfl⟩, ?_, x,
    List.mem_cons_of_mem _ hx, answer, ht⟩
  intro b hb
  rcases List.mem_cons.mp hb with rfl | hb
  · exact own
  · exact hown b hb

theorem ends_of_finish (cancelled : Bool) (h : c.advance i = some (c.finish i cancelled)) :
    c.Ends i :=
  ⟨[.advance i], _, _, (run_cons _ _).mpr ⟨_, _, [], h, rfl, rfl⟩, by simp [Action.IsOwn], _,
    List.mem_singleton_self _, _, rfl⟩

theorem ends_trying (hw : c.waits[i]? = some w) (trying : w.stage = .trying) : c.Ends i :=
  ends_of_finish false (by simp [advance, hw, trying])

theorem ends_measuring (hw : c.waits[i]? = some w) (measuring : w.stage = .measuring)
    (due : w.deadline ≤ c.now) : c.Ends i := by
  have hstep : c.step (.advance i) = some (c.goOn i .trying) := by
    simp [step, advance, hw, measuring, due]
  exact .of_step hstep rfl (ends_trying (waits_setStage hw _) rfl)

theorem ends_looking (hw : c.waits[i]? = some w) (looking : w.stage = .looking)
    (due : w.deadline ≤ c.now) : c.Ends i := by
  cases cancelled : w.cancelled with
  | true => exact ends_of_finish true (by simp [advance, hw, looking, cancelled])
  | false =>
    have hstep : c.step (.advance i) = some (c.goOn i .measuring) := by
      simp [step, advance, hw, looking, cancelled]
    exact .of_step hstep rfl (ends_measuring (waits_setStage hw _) rfl due)

theorem ends_polling (hw : c.waits[i]? = some w) {limit : Nat} (polling : w.stage = .polling limit)
    (past : limit ≤ c.now) (due : w.deadline ≤ c.now) : c.Ends i := by
  have hstep : c.step (.expire i) = some (c.goOn i .looking) := by
    simp [step, expire, hw, polling, past]
  exact .of_step hstep rfl (ends_looking (waits_setStage hw _) rfl due)

/-- From any stage: once enough time has passed, the wait needs at most four steps. -/
theorem ends (hw : c.waits[i]? = some w) (on : w.stage.isEnded = false) : c.Ends i := by
  cases hs : w.stage with
  | looking =>
    exact .of_step (a := .elapse w.deadline) rfl trivial
      (ends_looking hw hs (Nat.le_add_left _ _))
  | measuring =>
    exact .of_step (a := .elapse w.deadline) rfl trivial
      (ends_measuring hw hs (Nat.le_add_left _ _))
  | polling limit =>
    refine .of_step (a := .elapse (limit + w.deadline)) rfl trivial (ends_polling hw hs ?_ ?_) <;>
      simp only <;> omega
  | trying => exact ends_trying hw hs
  | ended => simp [hs, Wait.Stage.isEnded] at on

end StopChannel
end Stepwise
