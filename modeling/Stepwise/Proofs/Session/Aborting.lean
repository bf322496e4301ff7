import Stepwise.Proofs.Script.Interrupting
import Stepwise.Proofs.Session.Standing

namespace Stepwise

namespace Script

/-- A statement neither makes a request to abort nor takes it back. -/
theorem State.abortRequested_carryOut {s t : State} {script : Loaded} {i j : Interrupts} {p : Point}
    {tasks : List Task} (h : s.carryOut script i p = .on t j tasks) :
    j.abortRequested = i.abortRequested := by
  rcases interrupts_carryOut h with rfl | ⟨rfl, _⟩ <;> rfl

/-- Unless the run has ended, a request to abort is still pending after the step. -/
def StaysAborted (r : Signal Run × State × Interrupts) : Prop :=
  (∃ outcome, r.1 = .finished outcome) ∨ r.2.2.abortRequested = true

variable {i : Interrupts}

theorem proceed_staysAborted (hi : i.abortRequested = true) (s : State) (script : Loaded)
    (stepping : Stepping) (tasks : List Task) :
    StaysAborted (proceed s i script stepping tasks) := by
  unfold proceed
  split
  · exact .inr hi
  · exact .inr hi
  · exact .inl ⟨_, rfl⟩

theorem execute_staysAborted (hi : i.abortRequested = true) (s : State) (script : Loaded)
    (stepping : Stepping) (p : Point) : StaysAborted (execute s i script stepping p) := by
  unfold execute
  split
  · next hc =>
    exact proceed_staysAborted ((State.abortRequested_carryOut hc).trans hi) _ script stepping _
  · exact .inl ⟨_, rfl⟩
  · exact .inr hi

theorem next_staysAborted (catalog : Catalog) (run : Run) (s : State)
    (hi : i.abortRequested = true) : StaysAborted (next catalog run s i) := by
  cases run with
  | launching source =>
    simp only [next]
    split
    · exact .inl ⟨_, rfl⟩
    · exact proceed_staysAborted hi _ _ _ _
  | running script stepping tasks => exact proceed_staysAborted hi s script stepping tasks
  | checking script stepping p =>
    simp only [next, check, if_pos hi]
    exact .inl ⟨_, rfl⟩
  | resumed script p depth action =>
    have hgoes := execute_staysAborted hi { s with arena := [] } script (.after depth action) p
    cases action with
    | abort => exact .inl ⟨_, rfl⟩
    | «continue» | stepOver | stepIn | stepOut => exact hgoes

end Script

namespace System

variable {E : Engine} {s t : System E}

theorem Edit.raised (h : Edit s t) : s.interrupts.Raised t.interrupts := by
  cases h with
  | interrupt raised => exact raised
  | send c =>
    unfold System.send
    split <;> exact .refl _
  | _ => exact .refl _

/-- Clients take no request back. -/
theorem raised_step {a : Action} (ha : a ≠ .work) (h : s.step a = some t) :
    s.interrupts.Raised t.interrupts := by
  by_cases hr : ∃ reception, a = .receive reception
  · obtain ⟨reception, rfl⟩ := hr
    obtain ⟨session, _, rfl⟩ := Option.map_eq_some_iff.mp h
    exact .refl _
  · have he := edits_step ha (fun reception hr' => hr ⟨reception, hr'⟩) h
    clear h
    induction he with
    | refl => exact .refl _
    | tail _ h ih => exact ⟨h.raised.breaks ∘ ih.breaks, h.raised.aborts ∘ ih.aborts⟩

/-- A run that is to end as soon as it can is asked to abort. -/
def ClosesAborted (s : System E) : Prop :=
  ∀ run execution, s.worker = .running run execution true → s.interrupts.abortRequested = true

theorem closesAborted_of_ne (h : ∀ run execution, t.worker ≠ .running run execution true) :
    t.ClosesAborted :=
  fun run execution hw => absurd hw (h run execution)

theorem closesAborted_take (s : System E) {post : Post E.Run} (hw : s.worker = .taking post)
    (c : Command) : (s.take post c).ClosesAborted := by
  cases c with
  | serve call request =>
    simp only [take]
    split <;> exact closesAborted_of_ne (by simp [reply, hw])
  | execute source execution =>
    cases post <;> exact closesAborted_of_ne (by simp [take, setExecution, hw])
  | resume action => cases post <;> exact closesAborted_of_ne (by simp [take, hw])
  | shutdown =>
    cases post with
    | idle => exact closesAborted_of_ne (by simp [take, close])
    | safePoint | halted => exact fun _ _ _ => rfl

theorem closesAborted_serve (s : System E) (post : Post E.Run) (call : Nat) (r : Request) :
    (s.serve post call r).ClosesAborted := by
  unfold serve
  split
  · exact closesAborted_of_ne (by simp [reply])
  · split
    · exact closesAborted_of_ne (by simp [worker_crash])
    · exact closesAborted_of_ne (by simp [reply])

theorem closesAborted_tellHalt (s : System E) (halt : Halt) (k : Resume → E.Run)
    (execution : Nat) : (s.tellHalt halt k execution).ClosesAborted := by
  unfold tellHalt
  split
  · exact closesAborted_of_ne (by simp [worker_crash])
  · exact closesAborted_of_ne (by intros; split <;> simp)

theorem closesAborted_tellEnd (s : System E) (outcome : Outcome) (execution : Nat)
    (closing : Bool) : (s.tellEnd outcome execution closing).ClosesAborted := by
  cases closing <;> exact closesAborted_of_ne (by simp [tellEnd, close])

section

variable {catalog : Script.Catalog} {s t : System (scriptEngine catalog)}

theorem ClosesAborted.run (hs : s.ClosesAborted) {r : (scriptEngine catalog).Run} {execution : Nat}
    {closing : Bool} {ms : Nat} (hw : s.worker = .running r execution closing)
    (h : s.run r execution closing = some (t, ms)) : t.ClosesAborted := by
  have hstays (hc : closing = true) :
      Script.StaysAborted (Script.next catalog r s.engine s.interrupts) :=
    Script.next_staysAborted catalog r s.engine (hs r execution (hc ▸ hw))
  unfold System.run at h
  rcases hn : (scriptEngine catalog).next r s.engine s.interrupts with ⟨signal, engine, interrupts⟩
  rw [show Script.next catalog r s.engine s.interrupts = _ from hn] at hstays
  rw [hn] at h
  cases signal with
  | blocked => cases h
  | crashed =>
    cases h
    exact closesAborted_of_ne (by simp [worker_crash])
  | finished outcome =>
    cases h
    exact closesAborted_of_ne (by simp)
  | safePoint | halted | paused =>
    cases closing with
    | false =>
      cases h
      exact closesAborted_of_ne (by simp)
    | true =>
      cases h
      obtain ⟨outcome, he⟩ | ha := hstays rfl
      · cases he
      · exact fun _ _ _ => ha

theorem ClosesAborted.step (hs : s.ClosesAborted) {a : Action} (h : s.step a = some t) :
    t.ClosesAborted := by
  by_cases ha : a = .work
  · subst ha
    obtain ⟨⟨u, ms⟩, hwork, rfl⟩ := Option.map_eq_some_iff.mp h
    unfold work at hwork
    split at hwork
    · next post hw =>
      split at hwork
      · next rest _ =>
        cases hwork
        exact closesAborted_take { s with commands := rest } hw _
      · split at hwork
        · cases hwork
          exact closesAborted_of_ne (by simp)
        · cases hwork
    · cases hwork
      exact closesAborted_serve s _ _ _
    · next hw => exact hs.run hw hwork
    · cases hwork
      exact closesAborted_tellHalt s _ _ _
    · cases hwork
      exact closesAborted_tellEnd s _ _ _
    · cases hwork
      exact closesAborted_of_ne (by simp)
    · cases hwork
  · have hw : t.worker = s.worker := (Prod.mk.inj (thread_step ha h)).2
    exact fun run execution hc => (raised_step ha h).aborts (hs run execution (hw ▸ hc))

theorem closesAborted_reaches {around : Surroundings} {engine : Script.State}
    {interrupts : Interrupts} (h : Reaches (opened around engine interrupts) s) :
    s.ClosesAborted := by
  induction h with
  | refl => exact closesAborted_of_ne (by simp [opened])
  | step a _ hs ih => exact ih.step hs

/-- A thread that looks at breakpoints was not told to end. -/
theorem Looks.exists_running (hs : s.ClosesAborted) {a : Action} {script : Script.Loaded}
    {stepping : Script.Stepping} {p : Script.Point} (hl : s.Looks a script stepping p) :
    ∃ execution, s.worker = .running (.checking script stepping p) execution false := by
  obtain ⟨execution, closing, hw⟩ := hl.running
  cases closing with
  | false => exact ⟨execution, hw⟩
  | true => cases hl.unaborted.symm.trans (hs _ execution hw)

end
end System
end Stepwise
