import Stepwise.Proofs.Session.Delivery

namespace Stepwise

variable {ρ : Type} {E : Engine}

/-- Whatever the handler does at the signal, the run goes on with the property. -/
def Signal.Keeps (P : ρ → Prop) : Signal ρ → Prop
  | .safePoint run | .paused _ run | .blocked run => P run
  | .halted _ run => ∀ action, P (run action)
  | .finished _ | .crashed => True

def Post.Keeps (P : Nat → ρ → Prop) : Post ρ → Prop
  | .idle => True
  | .safePoint run execution => P execution run
  | .halted run execution => ∀ action, P execution (run action)

/-- The thread goes on with no other runs of executions than those with the property. -/
def Worker.Keeps (P : Nat → ρ → Prop) : Worker ρ → Prop
  | .taking post => post.Keeps P
  | .serving post _ _ => post.Keeps P
  | .running run execution _ => P execution run
  | .halting _ run execution => ∀ action, P execution (run action)
  | .completing _ _ _ | .exiting _ | .exited => True

section

variable {P Q : Nat → ρ → Prop}

theorem Signal.Keeps.imp {P Q : ρ → Prop} {signal : Signal ρ} (h : signal.Keeps P)
    (hq : ∀ run, P run → Q run) : signal.Keeps Q := by
  cases signal with
  | safePoint run | paused _ run | blocked run => exact hq run h
  | halted halt run => exact fun action => hq _ (h action)
  | finished | crashed => trivial

theorem Post.Keeps.imp {post : Post ρ} (h : post.Keeps P)
    (hq : ∀ execution run, P execution run → Q execution run) : post.Keeps Q := by
  cases post with
  | idle => trivial
  | safePoint run execution => exact hq _ _ h
  | halted run execution => exact fun action => hq _ _ (h action)

theorem Worker.Keeps.imp {w : Worker ρ} (h : w.Keeps P)
    (hq : ∀ execution run, P execution run → Q execution run) : w.Keeps Q := by
  cases w with
  | taking post => exact Post.Keeps.imp h hq
  | serving post call request => exact Post.Keeps.imp h hq
  | running run execution closing => exact hq _ _ h
  | halting halt run execution => exact fun action => hq _ _ (h action)
  | completing | exiting | exited => trivial

end

namespace System

variable {s t : System E} {P : Nat → E.Run → Prop}

theorem keeps_take {post : Post E.Run} {c : Command} (hw : s.worker = .taking post)
    (hp : post.Keeps P) (hc : ∀ source execution, c = .execute source execution →
      P execution (E.launch source)) :
    (s.take post c).worker.Keeps P := by
  have hs : s.worker.Keeps P := by
    rw [hw]
    exact hp
  cases c with
  | serve call request =>
    simp only [take]
    split
    · exact hs
    · exact hp
  | execute source execution =>
    cases post with
    | idle => exact hc source execution rfl
    | safePoint | halted => exact hs
  | resume action =>
    cases post with
    | halted run execution => exact hp action
    | idle | safePoint => exact hs
  | shutdown =>
    cases post with
    | idle => trivial
    | safePoint run execution => exact hp
    | halted run execution => exact hp .abort

theorem keeps_serve {post : Post E.Run} (call : Nat) (request : Request) (hp : post.Keeps P) :
    (s.serve post call request).worker.Keeps P := by
  unfold serve
  split
  · exact hp
  · split
    · rw [worker_crash]
      trivial
    · exact hp

theorem keeps_run {r : E.Run} {execution : Nat} {closing : Bool} {ms : Nat}
    (hr : (E.next r s.engine s.interrupts).1.Keeps (P execution))
    (h : s.run r execution closing = some (t, ms)) : t.worker.Keeps P := by
  unfold run at h
  rcases hn : E.next r s.engine s.interrupts with ⟨signal, engine, interrupts⟩
  rw [hn] at h hr
  cases signal with
  | safePoint run => cases closing <;> cases h <;> exact hr
  | halted halt run =>
    cases closing <;> cases h
    · exact hr
    · exact hr .abort
  | paused ms run =>
    cases h
    exact hr
  | blocked run => cases h
  | finished outcome =>
    cases h
    trivial
  | crashed =>
    cases h
    rw [worker_crash]
    trivial

theorem keeps_tellHalt (halt : Halt) {k : Resume → E.Run} {execution : Nat}
    (hk : ∀ action, P execution (k action)) : (s.tellHalt halt k execution).worker.Keeps P := by
  unfold tellHalt
  split
  · rw [worker_crash]
    trivial
  · dsimp only
    split
    · exact hk
    · exact hk .abort

/-- What the engine keeps along a run, the thread keeps with all its executions. -/
theorem keeps_step
    (hP : ∀ execution r, P execution r → (E.next r s.engine s.interrupts).1.Keeps (P execution))
    (hc : ∀ source execution, .execute source execution ∈ s.commands → P execution (E.launch source))
    (hs : s.worker.Keeps P) {a : Action} (h : s.step a = some t) : t.worker.Keeps P := by
  by_cases ha : a = .work
  · subst ha
    obtain ⟨⟨u, ms⟩, hwork, rfl⟩ := Option.map_eq_some_iff.mp h
    unfold work at hwork
    cases hw : s.worker with
    | taking post =>
      rw [hw] at hs hwork
      dsimp only at hwork
      split at hwork
      · next c rest hq =>
        cases hwork
        refine keeps_take rfl hs fun source execution he => hc source execution ?_
        rw [hq, he]
        exact List.mem_cons_self
      · split at hwork <;> cases hwork
        exact hs
    | serving post call request =>
      rw [hw] at hs hwork
      cases hwork
      exact keeps_serve _ _ hs
    | running run execution closing =>
      rw [hw] at hs hwork
      exact keeps_run (hP _ _ hs) hwork
    | halting halt run execution =>
      rw [hw] at hs hwork
      cases hwork
      exact keeps_tellHalt _ hs
    | completing outcome execution closing =>
      rw [hw] at hwork
      cases hwork
      cases closing <;> trivial
    | exiting crashed =>
      rw [hw] at hwork
      cases hwork
      trivial
    | exited =>
      rw [hw] at hwork
      cases hwork
  · have hw : t.worker = s.worker := congrArg Prod.snd (thread_step ha h)
    rwa [hw]

end System

theorem Shared.length_lose (executions : List Execution) (lost : List Nat) :
    (Shared.lose executions lost).length = executions.length := by
  induction lost generalizing executions with
  | nil => rfl
  | cons execution lost ih => rw [Shared.lose, List.foldl_cons, ← Shared.lose, ih, List.length_set]

namespace Move

variable {s t : Shared ρ}

/-- Executions are only added. -/
theorem executions_length (m : Move s t) : s.executions.length ≤ t.executions.length := by
  cases m with
  | leaveStop => rw [Shared.executions_send]
  | execute =>
    rw [List.length_append]
    exact Nat.le_add_right _ _
  | leave =>
    unfold Shared.terminate
    split
    · rw [Shared.executions_send]
    · exact Nat.le_refl _
  | crash | stop | completeLast => simp [Shared.close, Shared.length_lose]
  | refuse | complete => simp
  | _ => exact Nat.le_refl _

/-- The execution that comes to the queue has the next number. -/
theorem number (m : Move s t) {source : Source} {execution : Nat}
    (hc : t.commands = s.commands ++ [.execute source execution]) :
    execution = s.executions.length ∧ s.executions.length < t.executions.length := by
  have hlength := congrArg List.length hc
  cases m with
  | execute =>
    cases List.append_cancel_left hc
    simp
  | leaveStop =>
    rw [Shared.commands_send] at hc
    split at hc <;> simp at hc
  | leave =>
    unfold Shared.terminate at hc
    split at hc
    · dsimp only at hc
      rw [Shared.commands_send] at hc
      split at hc <;> simp at hc
    · simp at hc
  | ask | shutDown => simp at hc
  | pass _ _ _ _ _ queued | pick _ _ _ _ _ queued | launch _ _ _ _ _ queued
    | refuse _ _ _ _ _ _ _ queued | resume _ _ _ _ _ queued | drop _ _ _ _ _ queued
    | stopRun _ _ _ _ _ _ queued =>
    simp only [queued, List.length_append, List.length_cons] at hlength
    omega
  | _ => simp [Shared.close] at hlength

end Move

namespace System

open Leg

variable {s t : System E} {legs : List (Leg E)} {around : Surroundings} {engine : E.State}
  {interrupts : Interrupts} {source source' : Source} {execution : Nat}

/-- What is in the queue was sent. -/
theorem Course.mem_sent (h : (opened around engine interrupts : System E).Course legs t)
    {c : Command} (hc : c ∈ t.commands) : c ∈ sent legs := by
  have ha : t.alive = true := by
    by_contra ha
    have he : t.commands = [] :=
      (closed_reaches (h.reaches (.refl _))).emptied (Bool.eq_false_iff.mpr ha)
    rw [he] at hc
    cases hc
  rw [h.fifo.2 ha]
  exact List.mem_append_right _ hc

/-- The execution that a step sends gets the next number; the thread sends none. -/
theorem number_step (hr : Reaches (opened around engine interrupts) s) {a : Action}
    (h : s.step a = some t) (hs : Leg.sent? ⟨s, a, t⟩ = some (.execute source execution)) :
    execution = s.executions.length ∧ s.executions.length < t.executions.length := by
  have ha : a ≠ .work := by
    rintro rfl
    rw [sent?_work (closed_reaches (hr.step .work h)) h] at hs
    cases hs
  have hd := departing_reaches hr
  obtain ⟨c?, hsends⟩ := client_sends hd ha h
  rw [sent?_client hsends] at hs
  subst hs
  exact (step_move hd h).number hsends.commands

theorem Course.lt_executions (h : (opened around engine interrupts : System E).Course legs t)
    (hs : .execute source execution ∈ sent legs) : execution < t.executions.length := by
  induction h with
  | rest => cases hs
  | @step legs t u a h hstep ih =>
    have hr := h.reaches (.refl _)
    rw [sent_snoc, List.mem_append, Option.mem_toList] at hs
    rcases hs with hs | hs
    · exact (ih hs).trans_le (step_move (departing_reaches hr) hstep).executions_length
    · obtain ⟨rfl, hlt⟩ := number_step hr hstep hs
      exact hlt

/-- A number is given to one execution only. -/
theorem Course.source_unique (h : (opened around engine interrupts : System E).Course legs t)
    (hs : .execute source execution ∈ sent legs) (hs' : .execute source' execution ∈ sent legs) :
    source = source' := by
  induction h with
  | rest => cases hs
  | @step legs t u a h hstep ih =>
    have hr := h.reaches (.refl _)
    rw [sent_snoc, List.mem_append, Option.mem_toList] at hs hs'
    rcases hs with hs | hs <;> rcases hs' with hs' | hs'
    · exact ih hs hs'
    · obtain ⟨rfl, -⟩ := number_step hr hstep hs'
      exact absurd (h.lt_executions hs) (lt_irrefl _)
    · obtain ⟨rfl, -⟩ := number_step hr hstep hs
      exact absurd (h.lt_executions hs') (lt_irrefl _)
    · cases hs.symm.trans hs'
      rfl

end System

namespace Script

variable {catalog : Catalog} {source : Source}

/-- The run is one of the source: it is about to start, or it runs the script that the catalog has
under the source. -/
def Run.IsOf (catalog : Catalog) (source : Source) : Run → Prop
  | .launching own => own = source
  | .running script _ _ | .checking script _ _ | .resumed script _ _ _ =>
    ∃ arguments, catalog.find source = .ok (script, arguments)

variable {script : Loaded}

theorem keeps_proceed {P : Run → Prop} (s : State) (i : Interrupts) (stepping : Stepping)
    (tasks : List Task) (hr : ∀ tasks, P (.running script stepping tasks))
    (hc : ∀ p, P (.checking script stepping p)) :
    (proceed s i script stepping tasks).1.Keeps P := by
  unfold proceed
  split
  · exact hc _
  · exact hr _
  · trivial

theorem keeps_execute {P : Run → Prop} (s : State) (i : Interrupts) (stepping : Stepping)
    (p : Point) (hr : ∀ tasks, P (.running script stepping tasks))
    (hc : ∀ p, P (.checking script stepping p)) :
    (execute s i script stepping p).1.Keeps P := by
  unfold execute
  split
  · exact keeps_proceed _ _ _ _ hr hc
  · trivial
  · trivial

theorem keeps_next {run : Run} (h : run.IsOf catalog source) (s : State) (i : Interrupts) :
    (next catalog run s i).1.Keeps (Run.IsOf catalog source) := by
  cases run with
  | launching own =>
    cases h
    simp only [next]
    split
    · trivial
    · next script arguments hfind =>
      exact keeps_proceed _ _ _ _ (fun _ => ⟨arguments, hfind⟩) fun _ => ⟨arguments, hfind⟩
  | running script stepping tasks =>
    exact keeps_proceed _ _ _ _ (fun _ => h) fun _ => h
  | checking script stepping p =>
    simp only [next, check]
    split
    · trivial
    · split
      · exact keeps_execute _ _ _ _ (fun _ => h) fun _ => h
      · exact fun _ => h
  | resumed script p depth action =>
    cases action with
    | abort => trivial
    | _ => exact keeps_execute _ _ _ _ (fun _ => h) fun _ => h

end Script

namespace System

variable {catalog : Script.Catalog} {t : System (scriptEngine catalog)}
  {legs : List (Leg (scriptEngine catalog))} {around : Surroundings} {engine : Script.State}
  {interrupts : Interrupts}

open Leg

/-- A thread that is busy with an execution runs the script of the source for which the execution
was accepted. -/
theorem Course.runs_source (h : (opened around engine interrupts).Course legs t) :
    t.worker.Keeps fun execution (run : Script.Run) => ∃ source,
      .execute source execution ∈ sent legs ∧ run.IsOf catalog source := by
  induction h with
  | rest => trivial
  | @step legs t u a h hstep ih =>
    have hkept := keeps_step (fun execution run ⟨source, hs, hrun⟩ =>
      (Script.keeps_next hrun _ _).imp fun run hrun => ⟨source, hs, hrun⟩)
      (fun source execution hq => ⟨source, h.mem_sent hq, rfl⟩) ih hstep
    refine hkept.imp fun execution run ⟨source, hs, hrun⟩ => ⟨source, ?_, hrun⟩
    rw [sent_snoc]
    exact List.mem_append_left _ hs

end System
end Stepwise
