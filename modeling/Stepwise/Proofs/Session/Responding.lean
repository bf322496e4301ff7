import Stepwise.Proofs.Session.Conversation
import Stepwise.Proofs.Session.Leaving

namespace Stepwise.System

section

variable {E : Engine} {s t : System E} {r : Request}

/-- Nobody gives up waiting because someone is replied to. -/
@[simp] theorem isAbandoned_reply (s : System E) (call other : Nat) (reply : Reply) :
    (s.reply other reply).isAbandoned call = s.isAbandoned call := by
  simp only [isAbandoned, System.reply, List.getElem?_modify]
  cases s.calls[call]? with
  | none => rfl
  | some c =>
    by_cases h : other = call
    · simp only [h, if_true, Option.map_eq_map, Option.map_some, Option.any_some]
      split <;> rfl
    · simp [h]

/-- A client has begun to ask, and is in this phase. -/
def asked (s : System E) (r : Request) (phase : Phase) : System E :=
  { s with calls := s.calls ++ [{ operation := .request r, phase }] }

theorem setPhase_asked (s : System E) (r : Request) (phase next : Phase) :
    (s.asked r phase).setPhase s.calls.length next = s.asked r next := by
  simp [asked, setPhase, List.modify_eq_take_drop]

theorem advance_asked (s : System E) (r : Request) :
    (s.asked r .entered).step (.advance s.calls.length) =
        some ((s.asked r .entered).enter s.calls.length (.request r)) ∧
      (s.asked r .admitted).step (.advance s.calls.length) =
        some ((s.asked r .admitted).recheck s.calls.length) := by
  simp [step, advance, asked]

theorem answered?_asked (s : System E) (r : Request) :
    (s.asked r .entered).answered? (.advance s.calls.length) =
      ((s.asked r .entered).looked? r).map fun result => (r, .given result) := by
  simp [answered?, asked]

/-- A request that is not answered at the first look is admitted. -/
theorem enter_of_looked? {call : Nat} (h : s.looked? r = none) :
    s.enter call (.request r) = s.setPhase call .admitted := by
  unfold looked? at h
  split at h
  · cases h
  · next hp =>
    split at h
    · cases h
    · next answer hr =>
      obtain rfl := Option.map_eq_none_iff.mp h
      simp [enter, hp, hr]

/-- The request can be answered without the session leaving the halt. -/
def Responds (s : System E) (r : Request) : Prop :=
  ∃ xs x t, s.Conversation (xs ++ [x]) t ∧ x.request = r

namespace Responds

variable {a : Action}

theorem of_answer (hs : s.session.runState = .stopped) (ha : s.step a = some t)
    (ht : t.session.runState = .stopped) {reply : Reply} (hr : s.answered? a = some (r, reply)) :
    s.Responds r := by
  refine ⟨[], ⟨s, t, r, reply⟩, t, ?_, rfl⟩
  have h := (Conversation.quiet hs).step a ha ht
  rwa [exchange?, hr] at h

theorem of_step (hs : s.session.runState = .stopped) (ha : s.step a = some t)
    (h : t.Responds r) : s.Responds r := by
  obtain ⟨xs, x, u, hc, hx⟩ := h
  refine ⟨(s.exchange? t a).toList ++ xs, x, u, ?_, hx⟩
  rw [List.append_assoc]
  exact .cons hs ha hc

end Responds
end

variable {catalog : Script.Catalog} {s : System (scriptEngine catalog)}
  {around : Surroundings} {engine : Script.State} {interrupts : Interrupts}
  {post : Post (scriptEngine catalog).Run} {call : Nat} {r : Request}

/-- Serving a request leaves the thread in the halt, with the same commands and callers. -/
theorem serve_halted (hr : Reaches (opened around engine interrupts) s)
    (hs : s.session.runState = .stopped) (post : Post (scriptEngine catalog).Run) (call : Nat)
    (r : Request) :
    (s.serve post call r).session.runState = .stopped ∧
      (s.serve post call r).worker = .taking post ∧
      (s.serve post call r).commands = s.commands ∧
      ∀ other, (s.serve post call r).isAbandoned other = s.isAbandoned other := by
  have ho := inOrder_reaches hr
  obtain ⟨result, session, engine, hrun, hans⟩ :=
    r.serve_answers (ho.orderly hs) hs s.session.around.home
  have hp := (Sound.of_reaches hr).unpoisoned (ho.halted hs)
  rw [(serve_of_run hp hrun post call).2]
  refine ⟨hans.keeps.same.runState.trans hs, rfl, rfl, fun other => ?_⟩
  rw [isAbandoned_reply]
  rfl

theorem responds_of_serving (hr : Reaches (opened around engine interrupts) s)
    (hs : s.session.runState = .stopped) (hw : s.worker = .serving post call r) :
    s.Responds r := by
  have hans : s.answered? .work = some (r, s.served r) := by simp [answered?, hw]
  exact .of_answer hs (work_of_serving hw) (serve_halted hr hs post call r).1 hans

/-- A request that its caller still waits for is picked up. -/
theorem work_of_waiting {rest : List Command} (hw : s.worker = .taking post)
    (hc : s.commands = .serve call r :: rest) (hn : s.isAbandoned call = false) :
    s.step .work = some { s with commands := rest, worker := .serving post call r } := by
  have hn : ({ s with commands := rest } : System _).isAbandoned call = false := hn
  rw [work_of_taking hw hc]
  exact congrArg some (if_neg (Bool.eq_false_iff.mp hn))

/-- A request that its caller does not wait for is passed over. -/
theorem work_of_abandoned {rest : List Command} (hw : s.worker = .taking post)
    (hc : s.commands = .serve call r :: rest) (hn : s.isAbandoned call = true) :
    s.step .work = some (({ s with commands := rest } : System _).reply call .dropped) := by
  have hn : ({ s with commands := rest } : System _).isAbandoned call = true := hn
  rw [work_of_taking hw hc]
  exact congrArg some (if_pos hn)

/-- A request in the queue comes up when those before it are done. -/
theorem responds_of_taking {run : Resume → (scriptEngine catalog).Run} {execution : Nat}
    {before after : List Command} (hr : Reaches (opened around engine interrupts) s)
    (hs : s.session.runState = .stopped) (hw : s.worker = .taking (.halted run execution))
    (hc : s.commands = before ++ .serve call r :: after) (hn : s.isAbandoned call = false) :
    s.Responds r := by
  -- None of the commands before it leaves the halt.
  induction before generalizing s with
  | nil =>
    have hst := work_of_waiting hw hc hn
    exact .of_step hs hst (responds_of_serving (hr.step .work hst) hs rfl)
  | cons c rest ih =>
    have hl : c.leavesHalt = false :=
      (Sound.of_reaches hr).attended.not_leaving hs (show c ∈ s.commands by simp [hc])
    cases c with
    | resume | shutdown => cases hl
    | execute source other =>
      have hst := work_of_taking hw hc
      exact .of_step hs hst (ih (hr.step .work hst) hs hw rfl hn)
    | serve other request =>
      cases ha : s.isAbandoned other with
      | true =>
        have hst := work_of_abandoned hw hc ha
        have hn' := (isAbandoned_reply _ call other .dropped).trans hn
        exact .of_step hs hst (ih (hr.step .work hst) hs hw rfl hn')
      | false =>
        have hst := work_of_waiting hw hc ha
        have hrt := hr.step .work hst
        have hst' := work_of_serving (s := { s with
          commands := rest ++ .serve call r :: after
          worker := .serving (.halted run execution) other request }) rfl
        obtain ⟨hs', hw', hc', hn'⟩ := serve_halted hrt hs (.halted run execution) other request
        refine .of_step hs hst (.of_step hs hst' ?_)
        exact ih (hrt.step .work hst') hs' hw' hc' ((hn' call).trans hn)

/-- Whatever the thread is doing in a halt, it comes to the request. -/
theorem responds_of_queued {before after : List Command}
    (hr : Reaches (opened around engine interrupts) s) (hs : s.session.runState = .stopped)
    (hc : s.commands = before ++ .serve call r :: after) (hn : s.isAbandoned call = false) :
    s.Responds r := by
  have hh := (inOrder_reaches hr).halted hs
  cases hw : s.worker with
  | taking post =>
    cases post with
    | halted run execution => exact responds_of_taking hr hs hw hc hn
    | idle | safePoint => simp [hw, Worker.isHalted, Post.isHalted] at hh
  | serving post other request =>
    cases post with
    | halted run execution =>
      obtain ⟨hs', hw', hc', hn'⟩ := serve_halted hr hs (.halted run execution) other request
      have hst := work_of_serving hw
      exact .of_step hs hst (responds_of_taking (hr.step .work hst) hs' hw' (hc'.trans hc)
        ((hn' call).trans hn))
    | idle | safePoint => simp [hw, Worker.isHalted, Post.isHalted] at hh
  | running | halting | completing | exiting | exited => simp [hw, Worker.isHalted] at hh

theorem responds_of_ready (hr : Reaches (opened around engine interrupts) (s.asked r .ready))
    (hs : s.session.runState = .stopped) (ha : s.alive = true) : (s.asked r .ready).Responds r := by
  let sent : System (scriptEngine catalog) :=
    { s with commands := s.commands ++ [.serve s.calls.length r] }
  have hst : (s.asked r .ready).step (.advance s.calls.length) =
      some (sent.asked r (.awaiting none)) := by
    rw [← sent.setPhase_asked r .ready]
    simp [step, advance, asked, send, ha, sent]
  refine .of_step hs hst (responds_of_queued (hr.step _ hst) hs rfl ?_)
  simp [isAbandoned, asked, sent]

/-- In a halt every request is answered: by what the session remembers, or by the thread. -/
theorem responds (hr : Reaches (opened around engine interrupts) s)
    (hs : s.session.runState = .stopped) (r : Request) : s.Responds r := by
  have hsound := Sound.of_reaches hr
  have hh := (inOrder_reaches hr).halted hs
  have hp := hsound.unpoisoned hh
  have ha : s.alive = true := hsound.closed.working (Worker.isEnding_of_isHalted hh)
  have hlive : s.session.ensureLive = .ok () := by simp [Session.ensureLive, hs]
  have hbegin : s.step (.begin (.request r) false) = some (s.asked r .entered) := rfl
  obtain ⟨hentered, hadmitted⟩ := s.advance_asked r
  have hans := s.answered?_asked r
  refine .of_step hs hbegin ?_
  cases hl : (s.asked r .entered).looked? r with
  | some result =>
    rw [hl, Option.map_some] at hans
    refine .of_answer hs hentered ?_ hans
    rcases answered_cases hans hentered with ⟨_, _, _, _, _, _, _, _, ht⟩ | ⟨_, _, hw, _⟩
    · rw [ht]
      exact hs
    · cases hw
  | none =>
    rw [enter_of_looked? hl, setPhase_asked] at hentered
    have hrecheck : (s.asked r .admitted).recheck s.calls.length = s.asked r .ready := by
      rw [← s.setPhase_asked r .admitted .ready]
      simp [recheck, asked, hp, hlive]
    rw [hrecheck] at hadmitted
    have hr' := ((hr.step _ hbegin).step _ hentered).step _ hadmitted
    exact .of_step hs hentered (.of_step hs hadmitted (responds_of_ready hr' hs ha))

end Stepwise.System
