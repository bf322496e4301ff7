import Mathlib
import Stepwise.Proofs.Session.Course
import Stepwise.Proofs.Session.Editing
import Stepwise.Proofs.Session.Passing
import Stepwise.Script.Engine
import Stepwise.Script.Samples

namespace Stepwise

variable {ρ : Type} {E : Engine}

/-- The post at which the thread takes commands, or serves a request. -/
def Worker.post? : Worker ρ → Option (Post ρ)
  | .taking post => some post
  | .serving post _ _ => some post
  | _ => none

theorem Worker.halted_of_isHalted {w : Worker ρ} (h : w.isHalted = true) :
    ∃ run execution, w.post? = some (.halted run execution) := by
  have post : ∀ {p : Post ρ}, p.isHalted = true → ∃ run execution, p = .halted run execution := by
    intro p hp
    cases p with
    | halted run execution => exact ⟨run, execution, rfl⟩
    | _ => cases hp
  cases w with
  | taking p | serving p =>
    obtain ⟨run, execution, rfl⟩ := post h
    exact ⟨run, execution, rfl⟩
  | _ => cases h

/-- A thread that sits in a halt before and after a move sits in the same one. -/
theorem Move.post?_eq {s t : Shared ρ} (m : Move s t) (hs : s.worker.isHalted = true)
    (ht : t.worker.isHalted = true) : t.worker.post? = s.worker.post? := by
  cases m with
  | leaveStop => rw [Shared.worker_send]
  | leave =>
    unfold Shared.terminate
    split
    · rw [Shared.worker_send]
    · rfl
  | pick post call request rest taking => rw [taking]; rfl
  | serve post call request serving => rw [serving]; rfl
  | halt halt run execution stack halting =>
    rw [halting] at hs
    cases hs
  | run _ _ _ _ ran =>
    rw [ran.isHalted] at ht
    cases ht
  | crash | launch | resume | stop | stopRun | goOn | refuseHalt | complete | completeLast | exit =>
    cases ht
  | _ => rfl

namespace Leg

/-- The command that the step puts into the queue. -/
def sent? (x : Leg E) : Option Command :=
  x.after.commands[x.before.commands.length]?

end Leg

namespace System

/-- The command that the thread takes next. -/
def next? (s : System E) : Option Command :=
  match s.worker with
  | .taking _ => s.commands.head?
  | _ => none

end System

/-- The command that the thread receives in the step. -/
def Leg.received? (x : Leg E) : Option Command :=
  if x.action = .work then x.before.next? else none

namespace System

variable {s t : System E}

theorem Edit.commands (h : Edit s t) : s.commands <+: t.commands := by
  cases h with
  | send c =>
    unfold System.send
    split
    · exact List.prefix_append _ _
    · exact List.prefix_rfl
  | _ => exact List.prefix_rfl

theorem Edits.commands (h : Edits s t) : s.commands <+: t.commands := by
  induction h with
  | refl => exact List.prefix_rfl
  | tail _ h ih => exact ih.trans h.commands

theorem commands_step {a : Action} (ha : a ≠ .work) (h : s.step a = some t) :
    s.commands <+: t.commands := by
  by_cases hr : ∃ reception, a = .receive reception
  · obtain ⟨reception, rfl⟩ := hr
    obtain ⟨session, _, rfl⟩ := Option.map_eq_some_iff.mp h
    exact List.prefix_rfl
  · exact (edits_step ha (fun reception hr' => hr ⟨reception, hr'⟩) h).commands

end System

/-- What a client's step does to the queue: at most one command is added, and none to resume unless
the session was stopped. -/
structure Shared.Sends (s t : Shared ρ) (c? : Option Command) : Prop where
  commands : t.commands = s.commands ++ c?.toList
  alive : t.alive = s.alive
  worker : t.worker = s.worker
  taken : c?.isSome = true → s.alive = true
  licensed : ∀ action, c? = some (.resume action) → s.session.runState = .stopped

namespace Shared.Sends

variable {s t : Shared ρ}

theorem nothing (hc : t.commands = s.commands) (ha : t.alive = s.alive)
    (hw : t.worker = s.worker) : s.Sends t none :=
  ⟨by simpa using hc, ha, hw, nofun, nofun⟩

theorem resume (stopped : s.session.runState = .stopped) (session : Session) (action : Resume) :
    ∃ c?, s.Sends (Shared.send { s with session } (.resume action)) c? := by
  unfold Shared.send
  split
  · next ha => exact ⟨some _, rfl, rfl, rfl, fun _ => ha, fun _ _ => stopped⟩
  · exact ⟨none, .nothing rfl rfl rfl⟩

end Shared.Sends

/-- A move that leaves the thread where it is and takes nothing out of the queue is a client's. -/
theorem Move.sends {s t : Shared ρ} (m : Move s t) (hw : t.worker = s.worker)
    (hc : s.commands <+: t.commands) : ∃ c?, s.Sends t c? := by
  cases m with
  | stay | receive | askAbort | run => exact ⟨none, .nothing rfl rfl hw⟩
  | leaveStop next action stopped => exact Shared.Sends.resume stopped _ action
  | leave =>
    split
    · next stopped =>
      rw [Shared.terminate_send]
      exact Shared.Sends.resume stopped _ .abort
    · exact ⟨none, .nothing rfl rfl rfl⟩
  | execute source live free alive => exact ⟨some _, rfl, rfl, rfl, fun _ => alive, nofun⟩
  | ask call request alive => exact ⟨some _, rfl, rfl, rfl, fun _ => alive, nofun⟩
  | shutDown alive left => exact ⟨some _, rfl, rfl, rfl, fun _ => alive, nofun⟩
  | pass _ _ _ rest _ queued | refuse _ _ _ _ rest _ _ queued | drop _ _ rest _ _ queued =>
    -- A client does not take anything out of the queue.
    have hl : s.commands.length ≤ rest.length := hc.length_le
    rw [queued, List.length_cons] at hl
    omega
  | crash _ working =>
    rw [← hw] at working
    cases working
  | pick _ _ _ _ working | serve _ _ _ working | launch _ _ _ _ working | resume _ _ _ _ working
  | stop _ working | stopRun _ _ _ _ working | goOn _ _ working | halt _ _ _ _ working
  | refuseHalt _ _ _ working | complete _ _ working | completeLast _ _ working
  | exit _ working =>
    rw [working] at hw
    cases hw

namespace System

variable {s t : System E}

theorem client_sends (hd : s.Departing) {a : Action} (ha : a ≠ .work) (h : s.step a = some t) :
    ∃ c?, s.shared.Sends t.shared c? :=
  (step_move hd h).sends (congrArg Prod.snd (thread_step ha h)) (commands_step ha h)

theorem commands_take (s : System E) (post : Post E.Run) (c : Command) :
    (s.take post c).alive = false ∨ (s.take post c).commands = s.commands := by
  cases c with
  | serve call request =>
    right
    simp only [take]
    split <;> rfl
  | execute source execution => cases post <;> exact .inr rfl
  | resume action => cases post <;> exact .inr rfl
  | shutdown =>
    cases post with
    | idle => exact .inl rfl
    | _ => exact .inr rfl

theorem commands_serve (s : System E) (post : Post E.Run) (call : Nat) (request : Request) :
    (s.serve post call request).alive = false ∨
      (s.serve post call request).commands = s.commands := by
  unfold serve
  split
  · exact .inr rfl
  · split
    · exact .inl rfl
    · exact .inr rfl

theorem commands_run {r : E.Run} {execution : Nat} {closing : Bool} {ms : Nat}
    (h : s.run r execution closing = some (t, ms)) :
    t.alive = false ∨ t.commands = s.commands := by
  unfold run at h
  rcases hn : E.next r s.engine s.interrupts with ⟨signal, engine, interrupts⟩
  rw [hn] at h
  cases signal with
  | safePoint r' => cases closing <;> cases h <;> exact .inr rfl
  | halted halt k => cases closing <;> cases h <;> exact .inr rfl
  | blocked r' => cases h
  | crashed =>
    cases h
    exact .inl rfl
  | paused | finished =>
    cases h
    exact .inr rfl

theorem commands_tellHalt (s : System E) (h : Halt) (k : Resume → E.Run) (execution : Nat) :
    (s.tellHalt h k execution).alive = false ∨
      (s.tellHalt h k execution).commands = s.commands := by
  unfold tellHalt
  split
  · exact .inl rfl
  · exact .inr rfl

theorem commands_tellEnd (s : System E) (outcome : Outcome) (execution : Nat) (closing : Bool) :
    (s.tellEnd outcome execution closing).alive = false ∨
      (s.tellEnd outcome execution closing).commands = s.commands := by
  cases closing with
  | false => exact .inr rfl
  | true => exact .inl rfl

/-- The thread takes the oldest command, or none, unless it closes the queue. -/
theorem commands_work (h : s.step .work = some t) :
    t.alive = false ∨ s.commands = s.next?.toList ++ t.commands := by
  have hnone (hn : s.next? = none) (hk : t.alive = false ∨ t.commands = s.commands) :
      t.alive = false ∨ s.commands = s.next?.toList ++ t.commands := by
    rw [hn]
    exact hk.imp_right Eq.symm
  simp only [step, Option.map_eq_some_iff] at h
  obtain ⟨⟨u, ms⟩, h, rfl⟩ := h
  unfold work at h
  split at h
  · next post hw =>
    split at h
    · next c rest hc =>
      cases h
      have hn : s.next? = some c := by simp [next?, hw, hc]
      rcases commands_take { s with commands := rest } post c with ha | ht
      · exact .inl ha
      · right
        rw [ht, hn, hc]
        rfl
    · next hc =>
      have hn : s.next? = none := by simp [next?, hw, hc]
      split at h
      · cases h
        exact hnone hn (.inr rfl)
      · cases h
  · next hw =>
    cases h
    exact hnone (by simp [next?, hw]) (commands_serve s _ _ _)
  · next hw => exact hnone (by simp [next?, hw]) (commands_run h)
  · next hw =>
    cases h
    exact hnone (by simp [next?, hw]) (commands_tellHalt s _ _ _)
  · next hw =>
    cases h
    exact hnone (by simp [next?, hw]) (commands_tellEnd s _ _ _)
  · next hw =>
    cases h
    exact hnone (by simp [next?, hw]) (.inr rfl)
  · cases h

end System

/-- What was put into the queue, the oldest first. -/
def Leg.sent (legs : List (Leg E)) : List Command :=
  legs.filterMap Leg.sent?

/-- What the thread took out of the queue, the oldest first. -/
def Leg.received (legs : List (Leg E)) : List Command :=
  legs.filterMap Leg.received?

namespace Leg

variable (legs : List (Leg E)) (x : Leg E)

theorem sent_snoc : sent (legs ++ [x]) = sent legs ++ x.sent?.toList := by
  unfold sent
  rw [List.filterMap_append]
  cases hx : x.sent? <;> simp [hx]

theorem received_snoc : received (legs ++ [x]) = received legs ++ x.received?.toList := by
  unfold received
  rw [List.filterMap_append]
  cases hx : x.received? <;> simp [hx]

end Leg

namespace System

variable {s t : System E} {legs before after : List (Leg E)} {leg : Leg E} {a : Action}
  {around : Surroundings} {engine : E.State} {interrupts : Interrupts}

open Leg

theorem sent?_client {c? : Option Command} (h : s.shared.Sends t.shared c?) :
    Leg.sent? ⟨s, a, t⟩ = c? := by
  have hc : t.commands = s.commands ++ c?.toList := h.commands
  unfold Leg.sent?
  dsimp only
  rw [hc]
  cases c? <;> simp

theorem received?_client (ha : a ≠ .work) : Leg.received? ⟨s, a, t⟩ = none := by
  rw [Leg.received?, if_neg ha]

theorem received?_work : Leg.received? ⟨s, .work, t⟩ = s.next? := by
  rw [Leg.received?, if_pos rfl]

/-- The thread puts nothing into the queue. -/
theorem sent?_work (hc : t.shared.Closed) (h : s.step .work = some t) :
    Leg.sent? ⟨s, .work, t⟩ = none := by
  have hl : t.commands.length ≤ s.commands.length := by
    rcases commands_work h with ha | ht
    · have he : t.commands = [] := hc.emptied ha
      simp [he]
    · rw [ht, List.length_append]
      omega
  exact List.getElem?_eq_none hl

/-- What the thread has received is what was sent first, and what was sent after that is still in
the queue unless the queue is closed. -/
theorem Course.fifo (h : (opened around engine interrupts : System E).Course legs t) :
    received legs <+: sent legs ∧ (t.alive = true → sent legs = received legs ++ t.commands) := by
  induction h with
  | rest => exact ⟨List.prefix_rfl, fun _ => rfl⟩
  | @step legs t u a h hs ih =>
    have hr : Reaches (opened around engine interrupts) t := h.reaches (.refl _)
    obtain ⟨hp, he⟩ := ih
    rw [sent_snoc, received_snoc]
    by_cases ha : a = .work
    · subst ha
      rw [sent?_work (closed_reaches (hr.step .work hs)) hs, received?_work, Option.toList_none,
        List.append_nil]
      have hc : t.shared.Closed := closed_reaches hr
      constructor
      · cases hl : t.alive with
        | true =>
          rw [he hl]
          refine (List.prefix_append_right_inj _).mpr ?_
          unfold next?
          split
          · cases t.commands <;> simp
          · simp
        | false =>
          have hn : t.commands = [] := hc.emptied hl
          have hx : t.next? = none := by
            unfold next?
            split <;> simp [hn]
          simpa [hx] using hp
      · intro hu
        rcases commands_work hs with hf | ht
        · rw [hu] at hf
          cases hf
        · have hl : t.alive = true := (step_move (departing_reaches hr) hs).alive hu
          rw [he hl, List.append_assoc, ← ht]
    · obtain ⟨c?, hc⟩ := client_sends (departing_reaches hr) ha hs
      rw [sent?_client hc, received?_client ha, Option.toList_none, List.append_nil]
      refine ⟨hp.trans (List.prefix_append _ _), ?_⟩
      intro hu
      have hl : t.alive = true := hc.alive.symm.trans hu
      have hq : u.commands = t.commands ++ c?.toList := hc.commands
      rw [he hl, hq, List.append_assoc]

/-- The `i`th command in the queue resumes the halt in which it was sent: the session was stopped
then, and the thread has not left its post since. -/
def Awaits (legs : List (Leg E)) (t : System E) (i : Nat) (action : Resume) : Prop :=
  ∃ earlier sender between, legs = earlier ++ sender :: between ∧
    sender.sent? = some (.resume action) ∧ sender.before.session.runState = .stopped ∧
    (sent earlier).length = (received legs).length + i ∧
    ∀ x ∈ sender :: between, x.before.worker.post? = t.worker.post?

theorem Awaits.step {u : System E} {i : Nat} {action : Resume}
    (h : Awaits legs t ((Leg.received? ⟨t, a, u⟩).toList.length + i) action)
    (hw : t.worker.post? = u.worker.post?) : Awaits (legs ++ [⟨t, a, u⟩]) u i action := by
  obtain ⟨earlier, sender, between, rfl, hs, hr, hp, hb⟩ := h
  refine ⟨earlier, sender, between ++ [⟨t, a, u⟩], by simp, hs, hr, ?_, ?_⟩
  · rw [received_snoc, List.length_append, hp]
    omega
  · intro x hx
    rw [← List.cons_append, List.mem_append, List.mem_singleton] at hx
    rcases hx with hx | rfl
    · exact (hb x hx).trans hw
    · exact hw

/-- A command to resume that is in the queue belongs to the halt that the thread sits in. -/
theorem Course.awaits (h : (opened around engine interrupts : System E).Course legs t) {i : Nat}
    {action : Resume} (hi : t.commands[i]? = some (.resume action)) : Awaits legs t i action := by
  induction h generalizing i with
  | rest => cases hi
  | @step legs t u a h hs ih =>
    have hr : Reaches (opened around engine interrupts) t := h.reaches (.refl _)
    have hru : Reaches (opened around engine interrupts) u := hr.step a hs
    have hm : .resume action ∈ u.commands := List.mem_of_getElem? hi
    by_cases ha : a = .work
    · subst ha
      have hq : t.commands = t.next?.toList ++ u.commands := by
        refine (commands_work hs).resolve_left ?_
        intro hf
        have he : u.commands = [] := (closed_reaches hru).emptied hf
        rw [he] at hm
        cases hm
      have hi' : t.commands[t.next?.toList.length + i]? = some (.resume action) := by
        rw [hq, List.getElem?_append_right (by omega)]
        simpa using hi
      have hht : t.worker.isHalted = true :=
        ((attended_reaches hr).resumed _ (List.mem_of_getElem? hi') rfl).1
      have hhu : u.worker.isHalted = true := ((attended_reaches hru).resumed _ hm rfl).1
      have hw : u.worker.post? = t.worker.post? :=
        (step_move (departing_reaches hr) hs).post?_eq hht hhu
      refine Awaits.step ?_ hw.symm
      rw [received?_work]
      exact ih hi'
    · obtain ⟨c?, hc⟩ := client_sends (departing_reaches hr) ha hs
      have hq : u.commands = t.commands ++ c?.toList := hc.commands
      have hw : u.worker = t.worker := hc.worker
      by_cases hl : i < t.commands.length
      · refine Awaits.step ?_ (congrArg Worker.post? hw.symm)
        rw [received?_client ha]
        rw [hq, List.getElem?_append_left hl] at hi
        simpa using ih hi
      · -- It has just been sent.
        rw [hq, List.getElem?_append_right (by omega)] at hi
        cases c? with
        | none => simp at hi
        | some c =>
          obtain ⟨hlast, hx⟩ := List.getElem?_eq_some_iff.mp hi
          have hil : i = t.commands.length := by
            rw [Option.toList_some, List.length_singleton] at hlast
            omega
          have hx : c = .resume action := by simpa [hil] using hx
          subst hx
          refine ⟨legs, ⟨t, a, u⟩, [], rfl, sent?_client hc, hc.licensed action rfl, ?_, ?_⟩
          · rw [h.fifo.2 (hc.taken rfl), received_snoc, received?_client ha, hil]
            simp
          · intro x hx
            rw [List.mem_singleton.mp hx, hw]

end System

/-- Of the commands in a queue at most one resumes. -/
theorem Shared.Attended.countP_isResume {s : Shared ρ} (h : s.Attended) :
    s.commands.countP Command.isResume ≤ 1 := by
  have ho := h.order
  generalize s.commands = cs at ho
  induction cs with
  | nil => simp
  | cons c rest ih =>
    obtain ⟨hc, hr⟩ := List.pairwise_cons.mp ho
    rw [List.countP_cons]
    split
    · next hi =>
      have hz : rest.countP Command.isResume = 0 := by
        rw [List.countP_eq_zero]
        intro d hd
        rw [hc d hd (Command.leavesHalt_of_isResume hi)]
        exact Bool.false_ne_true
      omega
    · exact ih hr

namespace Leg

/-- The step resumes the halt in which the command was sent: a client sent it while the session was
stopped there, it stood in the queue behind what was received before, and the thread has not left
the halt since. -/
def ResumesWhereSent (past : List (Leg E)) (leg : Leg E) (action : Resume) : Prop :=
  ∃ run execution earlier sender between,
    past = earlier ++ sender :: between ∧
    sender.sent? = some (.resume action) ∧ sender.before.session.runState = .stopped ∧
    (sent earlier).length = (received past).length ∧
    (∀ x ∈ sender :: between, x.before.worker.post? = some (.halted run execution)) ∧
    leg.before.worker = .taking (.halted run execution) ∧
    leg.after.worker = .running (run action) execution false

/-- The step takes the idle thread into the script. -/
def Launches (leg : Leg E) (source : Source) (execution : Nat) : Prop :=
  leg.before.worker = .taking .idle ∧
    leg.after.worker = .running (E.launch source) execution false ∧
    leg.after.executions = leg.before.executions

end Leg

namespace System

variable {s t : System E} {legs before after : List (Leg E)} {leg : Leg E} {a : Action}
  {around : Surroundings} {engine : E.State} {interrupts : Interrupts}

open Leg

/-- What the thread does with the command that it takes. -/
theorem take_of_received {c : Command} (hs : leg.before.step leg.action = some leg.after)
    (hc : leg.received? = some c) :
    ∃ post rest, leg.action = .work ∧ leg.before.worker = .taking post ∧
      leg.before.commands = c :: rest ∧
      leg.after = ({ leg.before with commands := rest } : System E).take post c := by
  unfold Leg.received? at hc
  obtain ⟨ha, hn⟩ := Option.ite_none_right_eq_some.mp hc
  unfold next? at hn
  split at hn
  · next post hw =>
    obtain ⟨rest, hq⟩ := List.head?_eq_some_iff.mp hn
    refine ⟨post, rest, ha, hw, hq, ?_⟩
    rw [ha] at hs
    simpa [step, work, hw, hq] using hs.symm
  · cases hn

/-- Whatever clients and the engine do, and in whatever order: commands are received in the order
in which they were sent, a command to resume only in the halt in which it was sent, and a command to
execute only by an idle thread; no two commands to resume are ever in the queue. -/
theorem Course.received_where_due
    (h : (opened around engine interrupts : System E).Course legs t) :
    received legs <+: sent legs ∧ t.commands.countP Command.isResume ≤ 1 ∧
      ∀ before leg after, legs = before ++ leg :: after →
        (∀ action, leg.received? = some (.resume action) →
          leg.ResumesWhereSent before action) ∧
        ∀ source execution, leg.received? = some (.execute source execution) →
          leg.Launches source execution := by
  refine ⟨h.fifo.1, (attended_reaches (h.reaches (.refl _))).countP_isResume, ?_⟩
  rintro before leg after rfl
  obtain ⟨hb, hs, -⟩ := h.split
  have hr : Reaches (opened around engine interrupts) leg.before := hb.reaches (.refl _)
  constructor
  · intro action hc
    obtain ⟨post, rest, -, hw, hq, ht⟩ := take_of_received hs hc
    have hm : .resume action ∈ leg.before.commands := hq ▸ List.mem_cons_self
    have hh : leg.before.worker.isHalted = true := ((attended_reaches hr).resumed _ hm rfl).1
    obtain ⟨run, execution, hp⟩ := Worker.halted_of_isHalted hh
    have hfirst : leg.before.commands[0]? = some (.resume action) := by
      rw [hq]
      rfl
    obtain ⟨earlier, sender, between, he, hsent, hstop, hl, hx⟩ := hb.awaits hfirst
    obtain rfl : post = .halted run execution := by simpa [hw, Worker.post?] using hp
    refine ⟨run, execution, earlier, sender, between, he, hsent, hstop, hl, ?_, hw, ?_⟩
    · intro x hm
      exact (hx x hm).trans hp
    · rw [ht]
      rfl
  · intro source execution hc
    obtain ⟨post, rest, -, hw, hq, ht⟩ := take_of_received hs hc
    cases hp : post.execution? with
    | none =>
      cases post with
      | idle =>
        refine ⟨hw, ?_, ?_⟩
        · rw [ht]
          rfl
        · rw [ht]
          rfl
      | _ => cases hp
    | some busy =>
      -- A busy thread never finds another execution in its queue.
      have hx : leg.before.worker.execution? = some busy := by rw [hw]; exact hp
      have hn := ((oneInFlight_reaches hr).alone hx).2.1
      have hq' : leg.before.shared.commands = .execute source execution :: rest := hq
      simp [hq', Command.execution?] at hn

/-- A script is broken into and continued. -/
theorem Course.received_where_due_at_break :
    ∃ (before : List (Leg (scriptEngine { inlines := [("count", .counting 1)] }))) (leg : Leg _)
      (after : List (Leg _)) (t : System _),
      (opened { home := .at ⟨"/"⟩ } (Script.State.initial [] []) { breakRequested := true }).Course
        (before ++ leg :: after) t ∧
      leg.received? = some (.resume .continue) ∧ leg.ResumesWhereSent before .continue ∧
      t.commands.countP Command.isResume ≤ 1 := by
  have ht : ((opened { home := .at ⟨"/"⟩ } (Script.State.initial [] []) { breakRequested := true } :
      System (scriptEngine { inlines := [("count", .counting 1)] })).travel
      [.begin (.execute (.inline "count")) false, .advance 0, .work, .work, .work, .work, .work,
        .begin .continue false, .advance 1, .work, .work]).any
      (fun way => way.1.any fun leg => leg.received? == some (.resume .continue)) = true := by cbv
  obtain ⟨legs, t, hc, hp⟩ := Course.exists_of_travel ht
  obtain ⟨leg, hm, hx⟩ := List.any_eq_true.mp hp
  obtain ⟨before, after, rfl⟩ := List.append_of_mem hm
  have hx : leg.received? = some (.resume .continue) := beq_iff_eq.mp hx
  obtain ⟨-, hone, hall⟩ := hc.received_where_due
  exact ⟨before, leg, after, t, hc, hx, (hall before leg after rfl).1 _ hx, hone⟩

end System
end Stepwise
