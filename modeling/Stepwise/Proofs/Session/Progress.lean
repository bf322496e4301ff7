import Stepwise.Proofs.Session.Aftermath
import Stepwise.Proofs.Session.Delivery
import Stepwise.Proofs.Session.Staying

namespace Stepwise

variable {E : Engine}

/-- The request that the thread is to serve, and the call that waits for it. -/
def Command.request? : Command → Option (Nat × Request)
  | .serve call r => some (call, r)
  | _ => none

/-- What the thread serves it has been serving, or it has picked it from the queue. -/
theorem Move.serving {ρ : Type} {s t : Shared ρ} (m : Move s t) {post : Post ρ} {call : Nat}
    {r : Request} (ht : t.worker = .serving post call r) :
    s.worker = t.worker ∨ .serve call r ∈ s.commands := by
  cases m with
  | pick _ _ _ _ _ queued =>
    cases ht
    exact .inr (queued ▸ List.mem_cons_self)
  | leaveStop =>
    left
    rw [Shared.worker_send]
  | leave =>
    left
    simp only [Shared.terminate]
    split
    · rw [Shared.worker_send]
    · rfl
  | run _ _ _ _ ran => cases ran <;> cases ht
  | serve | crash | launch | resume | stop | stopRun | goOn | halt | refuseHalt | complete
    | completeLast | exit => cases ht
  | _ => exact .inl rfl

/-- The calls are changed one by one, each of them as the relation allows. -/
structure Changed (R : Nat → Call → Call → Prop) (before after : List Call) : Prop where
  length : after.length = before.length
  calls : ∀ i d, after[i]? = some d → ∃ c, before[i]? = some c ∧ R i c d

namespace Changed

variable {R R' : Nat → Call → Call → Prop} {calls before after : List Call}

theorem refl (hR : ∀ i c, R i c c) (calls : List Call) : Changed R calls calls :=
  ⟨rfl, fun i c hc => ⟨c, hc, hR i c⟩⟩

theorem trans (hR : ∀ i c d e, R i c d → R i d e → R i c e) (h : Changed R before calls)
    (h' : Changed R calls after) : Changed R before after := by
  refine ⟨h'.length.trans h.length, ?_⟩
  intro i e he
  obtain ⟨d, hd, hde⟩ := h'.calls i e he
  obtain ⟨c, hc, hcd⟩ := h.calls i d hd
  exact ⟨c, hc, hR i c d e hcd hde⟩

theorem mono (h : Changed R before after) (hR : ∀ i c d, R i c d → R' i c d) :
    Changed R' before after := by
  refine ⟨h.length, ?_⟩
  intro i d hd
  obtain ⟨c, hc, hcd⟩ := h.calls i d hd
  exact ⟨c, hc, hR i c d hcd⟩

theorem modify (hR : ∀ i c, R i c c) {call : Nat} {f : Call → Call}
    (hf : ∀ c, calls[call]? = some c → R call c (f c)) :
    Changed R calls (calls.modify call f) := by
  refine ⟨List.length_modify .., ?_⟩
  intro i d hd
  rw [List.getElem?_modify] at hd
  obtain ⟨c, hc, rfl⟩ := Option.map_eq_some_iff.mp hd
  refine ⟨c, hc, ?_⟩
  split
  · next he =>
    subst he
    exact hf c hc
  · exact hR i c

/-- No call is lost. -/
theorem exists_after (h : Changed R before after) {i : Nat} {c : Call} (hc : before[i]? = some c) :
    ∃ d, after[i]? = some d ∧ R i c d := by
  obtain ⟨hi, _⟩ := List.getElem?_eq_some_iff.mp hc
  obtain ⟨c', hc', hR⟩ := h.calls i _ (List.getElem?_eq_getElem (h.length ▸ hi))
  cases hc.symm.trans hc'
  exact ⟨_, List.getElem?_eq_getElem (h.length ▸ hi), hR⟩

end Changed

namespace System

/-- The phase that a step brings a call to. -/
inductive Brings (s : System E) (call : Nat) (c : Call) : Action → Phase → Prop
  | stays (a : Action) : Brings s call c a c.phase
  | admitted {r : Request} (entered : c.phase = .entered) (asks : c.operation = .request r) :
    Brings s call c (.advance call) .admitted
  | looked {r : Request} {result : Result} (entered : c.phase = .entered)
    (asks : c.operation = .request r) (looked : s.looked? r = some result) :
    Brings s call c (.advance call) (.returned result)
  | atOnce (entered : c.phase = .entered) (direct : ∀ r, c.operation ≠ .request r) :
    Brings s call c (.advance call) (.returned (s.atOnce c.operation).1)
  | ready (admitted : c.phase = .admitted) : Brings s call c (.advance call) .ready
  | queued {r : Request} (ready : c.phase = .ready) (asks : c.operation = .request r) :
    Brings s call c (.advance call) (.awaiting none)
  | served {post : Post E.Run} {r : Request} {reply : Option Reply}
    (waiting : c.phase = .awaiting reply) (serving : s.worker = .serving post call r) :
    Brings s call c .work (.awaiting (some (s.served r)))
  | dropped {reply : Option Reply} (waiting : c.phase = .awaiting reply) :
    Brings s call c .work (.awaiting (some .dropped))
  | received {result : Result} (given : c.phase = .awaiting (some (.given result))) :
    Brings s call c (.advance call) (.returned result)
  | leaving (entered : c.phase = .entered)
    (leaves : c.operation = .disconnect ∨ c.operation = .drop) :
    Brings s call c (.advance call) .leaving
  | joining (leaving : c.phase = .leaving) : Brings s call c (.advance call) .joining
  | left (leaving : c.phase = .leaving ∨ c.phase = .joining) :
    Brings s call c (.advance call) (.returned (.ok .done))
  | failed (x : SessionError) (pending : ∀ result, c.phase ≠ .returned result) :
    Brings s call c (.advance call) (.returned (.error x))
  | gaveUp (x : SessionError) {reply : Option Reply} (waiting : c.phase = .awaiting reply) :
    Brings s call c (.giveUp call) (.returned (.error x))

/-- The step brings the call on, and what it has been made for stays. -/
def Leads (s : System E) (a : Action) (call : Nat) (c d : Call) : Prop :=
  d.operation = c.operation ∧ s.Brings call c a d.phase

variable {s t : System E} {a : Action}

theorem Leads.refl (s : System E) (a : Action) (call : Nat) (c : Call) : s.Leads a call c c :=
  ⟨rfl, .stays a⟩

theorem changed_of_eq (h : t.calls = s.calls) : Changed (s.Leads a) s.calls t.calls :=
  h ▸ .refl (Leads.refl s a) _

/-- A call comes to a phase, whatever else the step does. -/
theorem changed_setPhase (h : t.calls = s.calls) {call : Nat} {c : Call}
    (hc : s.calls[call]? = some c) {phase : Phase} (hp : s.Brings call c a phase) :
    Changed (s.Leads a) s.calls (t.setPhase call phase).calls := by
  simp only [setPhase, h]
  refine .modify (Leads.refl s a) fun d hd => ?_
  cases hc.symm.trans hd
  exact ⟨rfl, hp⟩

/-- Who waits may be told that the request was passed over. -/
def Dropped (_ : Nat) (c d : Call) : Prop :=
  d.operation = c.operation ∧
    (d.phase = c.phase ∨ ∃ reply, c.phase = .awaiting reply ∧ d.phase = .awaiting (some .dropped))

theorem Dropped.refl (call : Nat) (c : Call) : Dropped call c c :=
  ⟨rfl, .inl rfl⟩

theorem Dropped.trans (call : Nat) (c d e : Call) (h : Dropped call c d) (h' : Dropped call d e) :
    Dropped call c e := by
  obtain ⟨ho, hp⟩ := h
  obtain ⟨ho', hp'⟩ := h'
  refine ⟨ho'.trans ho, ?_⟩
  rcases hp' with he | ⟨reply, hd, he⟩
  · rw [he]
    exact hp
  · right
    rcases hp with hp | ⟨reply', hc, _⟩
    · exact ⟨reply, hp ▸ hd, he⟩
    · exact ⟨reply', hc, he⟩

theorem Dropped.leads {call : Nat} {c d : Call} (h : Dropped call c d) :
    s.Leads .work call c d := by
  refine ⟨h.1, ?_⟩
  rcases h.2 with hp | ⟨reply, hc, hp⟩
  · exact hp ▸ .stays .work
  · exact hp ▸ .dropped hc

theorem reply_dropped (s : System E) (call : Nat) :
    Changed Dropped s.calls (s.reply call .dropped).calls := by
  refine .modify Dropped.refl fun c _ => ?_
  split
  · next reply hp => exact ⟨rfl, .inr ⟨reply, hp, rfl⟩⟩
  · exact Dropped.refl call c

theorem discard_dropped (s : System E) (cs : List Command) :
    Changed Dropped s.calls (s.discard cs).calls := by
  induction cs generalizing s with
  | nil => exact .refl Dropped.refl _
  | cons c rest ih =>
    cases c with
    | serve call r => exact (reply_dropped s call).trans Dropped.trans (ih _)
    | execute source execution => exact ih (s.setExecution execution .lost)
    | resume | shutdown => exact ih s

theorem close_dropped (s : System E) (crashed : Bool) :
    Changed Dropped s.calls (s.close crashed).calls :=
  discard_dropped s s.commands

theorem crash_dropped (s : System E) (execution : Option Nat) (poisoned : Bool) :
    Changed Dropped s.calls (s.crash execution poisoned).calls := by
  unfold crash
  cases execution with
  | none => exact close_dropped { s with poisoned := s.poisoned || poisoned } true
  | some e =>
    exact close_dropped { s.setExecution e .lost with poisoned := s.poisoned || poisoned } true

theorem take_dropped (s : System E) (post : Post E.Run) (c : Command) :
    Changed Dropped s.calls (s.take post c).calls := by
  cases c with
  | serve call r =>
    simp only [take]
    split
    · exact reply_dropped s call
    · exact .refl Dropped.refl _
  | execute | resume => cases post <;> exact .refl Dropped.refl _
  | shutdown =>
    cases post with
    | idle => exact close_dropped s false
    | safePoint | halted => exact .refl Dropped.refl _

theorem run_dropped {r : E.Run} {execution : Nat} {closing : Bool} {ms : Nat}
    (h : s.run r execution closing = some (t, ms)) : Changed Dropped s.calls t.calls := by
  unfold run at h
  rcases hn : E.next r s.engine s.interrupts with ⟨signal, engine, interrupts⟩
  rw [hn] at h
  cases signal with
  | safePoint | halted => cases closing <;> cases h <;> exact .refl Dropped.refl _
  | blocked => cases h
  | crashed =>
    cases h
    exact crash_dropped { s with engine, interrupts } (some execution) false
  | paused | finished =>
    cases h
    exact .refl Dropped.refl _

theorem tellHalt_dropped (s : System E) (h : Halt) (k : Resume → E.Run) (execution : Nat) :
    Changed Dropped s.calls (s.tellHalt h k execution).calls := by
  unfold tellHalt
  rcases (s.session.halt E.context h).run s.engine with ⟨_ | ⟨accepted, session⟩, engine⟩
  · exact crash_dropped { s with engine } (some execution) true
  · exact .refl Dropped.refl _

theorem tellEnd_dropped (s : System E) (outcome : Outcome) (execution : Nat) (closing : Bool) :
    Changed Dropped s.calls (s.tellEnd outcome execution closing).calls := by
  cases closing with
  | false => exact .refl Dropped.refl _
  | true =>
    let told : System E := { s with session := s.session.complete outcome }
    exact close_dropped (told.setExecution execution (.ended outcome)) false

theorem reply_leads {u : System E} (hu : u.calls = s.calls) {post : Post E.Run} {call : Nat}
    {r : Request} (hw : s.worker = .serving post call r) {reply : Reply} (hr : s.served r = reply) :
    Changed (s.Leads .work) s.calls (u.reply call reply).calls := by
  simp only [System.reply, hu]
  refine .modify (Leads.refl s .work) fun c _ => ?_
  split
  · next waiting => exact ⟨rfl, hr ▸ .served waiting hw⟩
  · exact .refl s .work call c

theorem serve_leads_calls {post : Post E.Run} {call : Nat} {r : Request}
    (hw : s.worker = .serving post call r) :
    Changed (s.Leads .work) s.calls (s.serve post call r).calls := by
  cases hp : s.poisoned with
  | true =>
    unfold serve
    rw [if_pos hp]
    exact reply_leads rfl hw (by simp [System.served, hp])
  | false =>
    rcases hr : ((r.serve E.context s.session.around.home).run.run s.session).run s.engine
      with ⟨_ | ⟨result, session⟩, engine⟩
    · unfold serve
      rw [if_neg (by simp [hp]), hr]
      have hd := (reply_dropped { s with engine } call).trans Dropped.trans
        (crash_dropped _ post.execution? true)
      exact hd.mono fun _ _ _ => Dropped.leads
    · obtain ⟨hserved, hserve⟩ := serve_of_run hp hr post call
      rw [hserve]
      exact reply_leads rfl hw hserved

theorem work_leads {ms : Nat} (h : s.work = some (t, ms)) :
    Changed (s.Leads .work) s.calls t.calls := by
  have dropped : ∀ {u : System E}, Changed Dropped s.calls u.calls →
      Changed (s.Leads .work) s.calls u.calls := fun hd => hd.mono fun _ _ _ => Dropped.leads
  unfold work at h
  split at h
  · next post _ =>
    split at h
    · next rest _ =>
      cases h
      exact dropped (take_dropped { s with commands := rest } post _)
    · split at h
      · cases h
        exact changed_of_eq rfl
      · cases h
  · next hw =>
    cases h
    exact serve_leads_calls hw
  · exact dropped (run_dropped h)
  · cases h
    exact dropped (tellHalt_dropped s _ _ _)
  · cases h
    exact dropped (tellEnd_dropped s _ _ _)
  · cases h
    exact changed_of_eq rfl
  · cases h

theorem enter_leads {call : Nat} {c : Call} (hc : s.calls[call]? = some c)
    (hp : c.phase = .entered) :
    Changed (s.Leads (.advance call)) s.calls (s.enter call c.operation).calls := by
  have failed : ∀ x, s.Brings call c (.advance call) (.returned (.error x)) :=
    fun x => .failed x (by simp [hp])
  unfold enter
  split
  · next ho =>
    refine changed_setPhase ?_ hc (.leaving hp (.inr ho))
    split
    · rfl
    · exact calls_leave s
  · split
    · exact changed_setPhase rfl hc (failed _)
    · next hpoison =>
      split
      · next r ho =>
        split
        · exact changed_setPhase rfl hc (failed _)
        · next hx => exact changed_setPhase rfl hc (.looked hp ho (by simp [looked?, hpoison, hx]))
        · exact changed_setPhase rfl hc (.admitted hp ho)
      · next ho => exact changed_setPhase (calls_leave s) hc (.leaving hp (.inl ho))
      · next hn _ => exact changed_setPhase (calls_atOnce s _) hc (.atOnce hp hn)

theorem recheck_leads {call : Nat} {c : Call} (hc : s.calls[call]? = some c)
    (hp : c.phase = .admitted) :
    Changed (s.Leads (.advance call)) s.calls (s.recheck call).calls := by
  have failed : ∀ x, s.Brings call c (.advance call) (.returned (.error x)) :=
    fun x => .failed x (by simp [hp])
  unfold recheck
  split
  · exact changed_setPhase rfl hc (failed _)
  · split
    · exact changed_setPhase rfl hc (failed _)
    · exact changed_setPhase rfl hc (.ready hp)

theorem advance_leads {call : Nat} (h : s.advance call = some t) :
    Changed (s.Leads (.advance call)) s.calls t.calls := by
  unfold advance at h
  split at h
  · cases h
  next c hc =>
  split at h
  · next hp =>
    cases h
    exact enter_leads hc hp
  · next hp =>
    cases h
    exact recheck_leads hc hp
  · next hp =>
    split at h
    · next r ho =>
      have hs := calls_send s (.serve call r)
      cases hq : s.send (.serve call r) with
      | none =>
        rw [hq] at h
        cases h
        exact changed_setPhase rfl hc (.failed _ (by simp [hp]))
      | some u =>
        rw [hq] at h hs
        cases h
        exact changed_setPhase hs hc (.queued hp ho)
    · cases h
  · cases h
  · next hp =>
    cases h
    exact changed_setPhase rfl hc (.received hp)
  · next hp =>
    cases h
    exact changed_setPhase rfl hc (.failed _ (by simp [hp]))
  · next hp =>
    split at h
    · cases h
      exact changed_setPhase rfl hc (.left (.inl hp))
    · cases h
      have hsent := calls_send { s with joined := true } .shutdown
      exact changed_setPhase (s := s) hsent hc (.joining hp)
  · next hp =>
    split at h
    · cases h
      exact changed_setPhase rfl hc (.left (.inr hp))
    · cases h
  · cases h

theorem giveUp_leads {call : Nat} (h : s.giveUp call = some t) :
    Changed (s.Leads (.giveUp call)) s.calls t.calls := by
  unfold giveUp at h
  split at h
  · cases h
  next c hc =>
  split at h
  · next reply hp =>
    split at h
    · cases h
      exact changed_setPhase rfl hc (.gaveUp _ hp)
    · cases h
      simp only [setPhase, List.modify_modify_eq]
      refine .modify (Leads.refl s _) fun d hd => ?_
      cases hc.symm.trans hd
      exact ⟨rfl, .gaveUp _ hp⟩
  · cases h

/-- What a step does to the calls: one is begun, or each is brought on. -/
theorem calls_step (h : s.step a = some t) :
    (∃ operation cancelled, t = s.begin operation cancelled) ∨
      Changed (s.Leads a) s.calls t.calls := by
  cases a with
  | begin operation cancelled =>
    cases h
    exact .inl ⟨operation, cancelled, rfl⟩
  | cancel call =>
    cases h
    exact .inr (.modify (Leads.refl s _) fun c _ => ⟨rfl, .stays _⟩)
  | advance call => exact .inr (advance_leads h)
  | giveUp call => exact .inr (giveUp_leads h)
  | receive reception =>
    obtain ⟨session, _, rfl⟩ := Option.map_eq_some_iff.mp h
    exact .inr (changed_of_eq rfl)
  | work =>
    obtain ⟨⟨u, ms⟩, hw, rfl⟩ := Option.map_eq_some_iff.mp h
    exact .inr (work_leads hw)

/-- The requests in the queue, the oldest first. -/
def requested (s : System E) : List (Nat × Request) :=
  s.commands.filterMap Command.request?

/-- The call was made for the request. -/
def Asks (s : System E) (call : Nat) (r : Request) : Prop :=
  ∃ c, s.calls[call]? = some c ∧ c.operation = .request r

theorem Asks.step {call : Nat} {r : Request} (h : s.Asks call r) (hs : s.step a = some t) :
    t.Asks call r := by
  obtain ⟨c, hc, ho⟩ := h
  rcases calls_step hs with ⟨operation, cancelled, rfl⟩ | hchanged
  · obtain ⟨hlt, _⟩ := List.getElem?_eq_some_iff.mp hc
    exact ⟨c, (List.getElem?_append_left hlt).trans hc, ho⟩
  · obtain ⟨d, hd, hop, _⟩ := hchanged.exists_after hc
    exact ⟨d, hd, hop.trans ho⟩

theorem requested_send (s : System E) {c : Command} (hc : c.request? = none) :
    ((s.send c).getD s).requested = s.requested := by
  unfold send
  split <;> simp [requested, hc]

theorem requested_sent {u : System E} {c : Command} (hc : c.request? = none) (sent lost : Result)
    (h : u.requested = s.requested) :
    (match u.send c with
      | some u => (sent, u)
      | none => (lost, u)).2.requested = s.requested := by
  rw [← h, ← requested_send u hc]
  cases u.send c <;> rfl

theorem requested_resume (s : System E) (control : Control) (action : Resume) :
    (s.resume control action).2.requested = s.requested := by
  unfold resume
  split
  · rfl
  · split
    · exact requested_sent rfl _ _ rfl
    · rfl

theorem requested_execute (s : System E) (source : Source) :
    (s.execute source).2.requested = s.requested := by
  unfold execute
  split
  · rfl
  · split
    · rfl
    · by_cases ha : s.alive = true
      · simp [send, ha, requested, Command.request?]
      · simp [send, ha]

theorem requested_requestAbort (s : System E) : s.requestAbort.2.requested = s.requested := by
  unfold requestAbort
  split
  · rfl
  · split
    · exact requested_sent rfl _ _ rfl
    · split <;> rfl

theorem requested_requestBreak (s : System E) : s.requestBreak.2.requested = s.requested := by
  unfold requestBreak
  split
  · rfl
  · split <;> rfl

theorem requested_atOnce (s : System E) (operation : Operation) :
    (s.atOnce operation).2.requested = s.requested := by
  cases operation with
  | execute source => exact requested_execute s source
  | «continue» => exact requested_resume s .continue .continue
  | stepOver => exact requested_resume s .stepOver .stepOver
  | stepIn => exact requested_resume s .stepIn .stepIn
  | stepOut => exact requested_resume s .stepOut .stepOut
  | «break» => exact requested_requestBreak s
  | abort => exact requested_requestAbort s
  | _ => rfl

theorem requested_leave (s : System E) : s.leave.requested = s.requested := by
  unfold leave
  split
  · exact requested_send s rfl
  · split <;> rfl

theorem requested_enter (s : System E) (call : Nat) (operation : Operation) :
    (s.enter call operation).requested = s.requested := by
  unfold enter
  split
  · split
    · rfl
    · exact requested_leave s
  · split
    · rfl
    · split
      · split <;> rfl
      · exact requested_leave s
      · exact requested_atOnce s _

/-- Who is ready queues its own request and waits, and nobody else queues any. -/
theorem requested_advance {call : Nat} (h : s.advance call = some t) :
    t.requested = s.requested ∨
      ∃ c r, s.calls[call]? = some c ∧ c.phase = .ready ∧ c.operation = .request r ∧
        t.calls[call]? = some { c with phase := .awaiting none } ∧
        t.requested = s.requested ++ [(call, r)] := by
  unfold advance at h
  split at h
  · cases h
  next c hc =>
  split at h
  · cases h
    exact .inl (requested_enter s call c.operation)
  · cases h
    left
    unfold recheck
    split
    · rfl
    · split <;> rfl
  · next hp =>
    split at h
    · next r ho =>
      by_cases ha : s.alive = true
      · simp only [send, if_pos ha, Option.some.injEq] at h
        subst h
        exact .inr ⟨c, r, hc, hp, ho, by simp [setPhase, hc],
          by simp [requested, setPhase, Command.request?]⟩
      · simp only [send, if_neg ha, Option.some.injEq] at h
        subst h
        exact .inl rfl
    · cases h
  · cases h
  · cases h
    exact .inl rfl
  · cases h
    exact .inl rfl
  · split at h
    · cases h
      exact .inl rfl
    · cases h
      exact .inl (requested_send { s with joined := true } rfl)
  · split at h
    · cases h
      exact .inl rfl
    · cases h
  · cases h

/-- The requests in the hands of the thread are those that their callers have made. -/
structure Owned (s : System E) : Prop where
  queued : ∀ call r, (call, r) ∈ s.requested → s.Asks call r
  serving : ∀ post call r, s.worker = .serving post call r → s.Asks call r

theorem requested_step (hc : t.shared.Closed) (hs : s.step a = some t) {call : Nat} {r : Request}
    (hm : (call, r) ∈ t.requested) : (call, r) ∈ s.requested ∨ s.Asks call r := by
  cases a with
  | begin | cancel =>
    cases hs
    exact .inl hm
  | advance i =>
    rcases requested_advance hs with he | ⟨c, q, hcall, _, ho, _, he⟩
    · exact .inl (he ▸ hm)
    · rcases List.mem_append.mp (he ▸ hm) with hm | hm
      · exact .inl hm
      · cases List.mem_singleton.mp hm
        exact .inr ⟨c, hcall, ho⟩
  | giveUp i =>
    left
    simp only [step, giveUp] at hs
    split at hs
    · cases hs
    · split at hs
      · split at hs <;> cases hs <;> exact hm
      · cases hs
  | receive reception =>
    obtain ⟨session, _, rfl⟩ := Option.map_eq_some_iff.mp hs
    exact .inl hm
  | work =>
    left
    rcases commands_work hs with ha | hq
    · have he : t.requested = [] := congrArg (List.filterMap Command.request?) (hc.emptied ha)
      rw [he] at hm
      cases hm
    · unfold requested
      rw [hq, List.filterMap_append]
      exact List.mem_append_right _ hm

theorem Owned.step (h : s.Owned) (hd : s.Departing) (hc : t.shared.Closed)
    (hs : s.step a = some t) : t.Owned := by
  constructor
  · intro call r hm
    rcases requested_step hc hs hm with hm | hasks
    · exact (h.queued call r hm).step hs
    · exact hasks.step hs
  · intro post call r hw
    rcases (step_move hd hs).serving hw with hsame | hm
    · exact (h.serving post call r (hsame.trans hw)).step hs
    · exact (h.queued call r (List.mem_filterMap.mpr ⟨_, hm, rfl⟩)).step hs

theorem owned_reaches {around : Surroundings} {engine : E.State} {interrupts : Interrupts}
    (h : Reaches (opened around engine interrupts) s) : s.Owned := by
  induction h with
  | refl => exact ⟨nofun, nofun⟩
  | step a hr hs ih =>
    exact ih.step (departing_reaches hr) (closed_reaches (hr.step a hs)) hs

end System
end Stepwise
