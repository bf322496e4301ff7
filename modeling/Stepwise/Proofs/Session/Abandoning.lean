import Stepwise.Proofs.Session.Jobs
import Stepwise.Proofs.Session.OwnStop

namespace Stepwise

variable {E : Engine}

namespace System

variable {s t u : System E} {a : Action} {call i : Nat}

theorem setPhase_congr (h : t.calls = s.calls) (call : Nat) (phase : Phase) :
    (t.setPhase call phase).calls = (s.setPhase call phase).calls := by
  rw [setPhase, setPhase, h]

theorem calls_enter (s : System E) (call : Nat) (operation : Operation) :
    ∃ phase, (s.enter call operation).calls = (s.setPhase call phase).calls := by
  unfold enter
  split
  · refine ⟨.leaving, setPhase_congr ?_ call _⟩
    split
    · rfl
    · exact calls_leave s
  · split
    · exact ⟨_, rfl⟩
    · split
      · split <;> exact ⟨_, rfl⟩
      · exact ⟨_, setPhase_congr (calls_leave s) call _⟩
      · exact ⟨_, setPhase_congr (calls_atOnce s _) call _⟩

/-- A client's step brings its own call to another phase and leaves the other calls. -/
theorem calls_advance (h : s.advance call = some t) :
    ∃ phase, t.calls = (s.setPhase call phase).calls := by
  unfold advance at h
  split at h
  · cases h
  · split at h
    · cases h
      exact calls_enter s call _
    · cases h
      unfold recheck
      split
      · exact ⟨_, rfl⟩
      · split <;> exact ⟨_, rfl⟩
    · split at h
      · next r _ =>
        have hs := calls_send s (.serve call r)
        cases hq : s.send (.serve call r) with
        | none =>
          rw [hq] at h
          cases h
          exact ⟨_, rfl⟩
        | some v =>
          rw [hq] at h hs
          cases h
          exact ⟨_, setPhase_congr hs call _⟩
      · cases h
    · cases h
    · cases h
      exact ⟨_, rfl⟩
    · cases h
      exact ⟨_, rfl⟩
    · split at h
      · cases h
        exact ⟨_, rfl⟩
      · cases h
        exact ⟨_, setPhase_congr (calls_send { s with joined := true } .shutdown) call _⟩
    · split at h
      · cases h
        exact ⟨_, rfl⟩
      · cases h
    · cases h

theorem calls_run {r : E.Run} {execution : Nat} {closing : Bool} {ms : Nat}
    (h : s.run r execution closing = some (t, ms)) : t.alive = false ∨ t.calls = s.calls := by
  unfold run at h
  rcases hn : E.next r s.engine s.interrupts with ⟨signal, engine, interrupts⟩
  rw [hn] at h
  cases signal with
  | safePoint | halted => cases closing <;> cases h <;> exact .inr rfl
  | blocked => cases h
  | crashed =>
    cases h
    exact .inl rfl
  | paused | finished =>
    cases h
    exact .inr rfl

/-- A working thread only tells the caller of the request that it has served, or of one that it
passes over because it was abandoned. -/
theorem calls_work (h : s.step .work = some t) :
    t.alive = false ∨ t.calls = s.calls ∨
      ∃ call r, (s.worker.job? = some call ∨ s.isAbandoned call = true) ∧
        t.calls = (s.reply call r).calls := by
  obtain ⟨⟨u, ms⟩, hu, rfl⟩ := Option.map_eq_some_iff.mp h
  unfold work at hu
  split at hu
  · next post hw =>
    split at hu
    · next c rest hc =>
      cases hu
      cases c with
      | serve call r =>
        simp only [take]
        split
        · next ha => exact .inr (.inr ⟨call, _, .inr ha, rfl⟩)
        · exact .inr (.inl rfl)
      | execute | resume => cases post <;> exact .inr (.inl rfl)
      | shutdown =>
        cases post with
        | idle => exact .inl rfl
        | _ => exact .inr (.inl rfl)
    · split at hu
      · cases hu
        exact .inr (.inl rfl)
      · cases hu
  · next post call r hw =>
    cases hu
    unfold serve
    split
    · exact .inr (.inr ⟨call, _, .inl (by rw [hw]; rfl), rfl⟩)
    · split
      · exact .inl rfl
      · exact .inr (.inr ⟨call, _, .inl (by rw [hw]; rfl), rfl⟩)
  · exact (calls_run hu).imp_right .inl
  · cases hu
    unfold tellHalt
    split
    · exact .inl rfl
    · exact .inr (.inl rfl)
  · next closing _ =>
    cases hu
    cases closing with
    | false => exact .inr (.inl rfl)
    | true => exact .inl rfl
  · cases hu
    exact .inr (.inl rfl)
  · cases hu

theorem isAbandoned_congr (h : t.calls = s.calls) (call : Nat) :
    t.isAbandoned call = s.isAbandoned call := by
  rw [isAbandoned, isAbandoned, h]

theorem isAbandoned_modify {f : Call → Call}
    (hf : ∀ c : Call, (c.cancelled || c.abandoned) = true →
      ((f c).cancelled || (f c).abandoned) = true) (ha : s.isAbandoned call = true) :
    isAbandoned { s with calls := s.calls.modify i f } call = true := by
  unfold isAbandoned at ha ⊢
  obtain ⟨c, hc, hx⟩ := (Option.any_eq_true _ _).mp ha
  simp only [List.getElem?_modify, hc]
  by_cases hi : i = call
  · simpa [hi] using hf c hx
  · simpa [hi] using hx

theorem isAbandoned_setPhase (phase : Phase) (ha : s.isAbandoned call = true) :
    (s.setPhase i phase).isAbandoned call = true :=
  isAbandoned_modify (fun _ hx => hx) ha

/-- As long as the thread takes commands nobody takes a request up again. -/
theorem isAbandoned_step (h : s.step a = some t) (ha : s.isAbandoned call = true) :
    t.alive = false ∨ t.isAbandoned call = true := by
  cases a with
  | begin operation cancelled =>
    cases h
    right
    unfold isAbandoned at ha ⊢
    obtain ⟨c, hc, hx⟩ := (Option.any_eq_true _ _).mp ha
    obtain ⟨hlt, _⟩ := List.getElem?_eq_some_iff.mp hc
    rw [begin, List.getElem?_append_left hlt, hc]
    exact hx
  | cancel i =>
    cases h
    exact .inr (isAbandoned_modify (fun _ _ => rfl) ha)
  | advance i =>
    obtain ⟨phase, hp⟩ := calls_advance h
    exact .inr ((isAbandoned_congr hp call).trans (isAbandoned_setPhase phase ha))
  | giveUp i =>
    right
    simp only [step, giveUp] at h
    split at h
    · cases h
    · split at h
      · split at h
        · cases h
          exact isAbandoned_setPhase _ ha
        · cases h
          exact isAbandoned_setPhase _ (isAbandoned_modify (fun _ _ => Bool.or_true _) ha)
      · cases h
  | receive reception =>
    obtain ⟨session, _, rfl⟩ := Option.map_eq_some_iff.mp h
    exact .inr ha
  | work =>
    rcases calls_work h with hd | he | ⟨i, r, _, he⟩
    · exact .inl hd
    · exact .inr ((isAbandoned_congr he call).trans ha)
    · exact .inr ((isAbandoned_congr he call).trans ((isAbandoned_reply s call i r).trans ha))

/-- Who gives up has cancelled, or abandons the request. -/
theorem isAbandoned_giveUp (h : s.step (.giveUp call) = some t) : t.isAbandoned call = true := by
  simp only [step, giveUp] at h
  split at h
  · cases h
  next c hc =>
  split at h
  · split at h
    · next hx =>
      cases h
      exact isAbandoned_setPhase _ (by simp [isAbandoned, hc, hx])
    · cases h
      exact isAbandoned_setPhase _ (by simp [isAbandoned, hc])
  · cases h

/-- Whose request is in the queue waits for it, or has given it up. -/
def Waits (s : System E) : Prop :=
  ∀ call ∈ s.requested.map Prod.fst,
    (∃ c, s.calls[call]? = some c ∧ c.phase = .awaiting none) ∨ s.isAbandoned call = true

theorem requested_eq_nil (hc : s.shared.Closed) (ha : s.alive = false) : s.requested = [] :=
  congrArg (List.filterMap Command.request?) (hc.emptied ha)

/-- A client's step leaves who waits in the queue waiting, or it gives the request up. -/
theorem waits_client (ha : a ≠ .work) (h : s.step a = some t) {c : Call}
    (hc : s.calls[call]? = some c) (hp : c.phase = .awaiting none) :
    (∃ d, t.calls[call]? = some d ∧ d.phase = .awaiting none) ∨ t.isAbandoned call = true := by
  rcases calls_step h with ⟨operation, cancelled, rfl⟩ | hchanged
  · obtain ⟨hlt, _⟩ := List.getElem?_eq_some_iff.mp hc
    exact .inl ⟨c, (List.getElem?_append_left hlt).trans hc, hp⟩
  obtain ⟨d, hd, _, hb⟩ := hchanged.exists_after hc
  generalize hq : d.phase = q at hb
  cases hb with
  | stays => exact .inl ⟨d, hd, hq.trans hp⟩
  | gaveUp => exact .inr (isAbandoned_giveUp h)
  | served | dropped => exact absurd rfl ha
  | failed => simp [step, advance, hc, hp] at h
  | admitted he | looked he | atOnce he | ready he | queued he | received he | leaving he
    | joining he => cases hp.symm.trans he
  | left he => rcases he with he | he <;> cases hp.symm.trans he

/-- A request that is picked is not in the queue any more. -/
theorem not_mem_requested (hone : s.credit call ≤ 1) (hj : s.worker.job? = some call) :
    call ∉ s.requested.map Prod.fst := by
  intro hm
  have hcount : (s.hands).count call ≤ s.credit call := Nat.le_add_left _ _
  have hpos := List.count_pos_iff.mpr hm
  rw [hands, hj, List.count_append] at hcount
  simp only [Option.toList_some, List.count_singleton_self] at hcount
  omega

theorem Waits.step (h : s.Waits) (hone : ∀ call, s.credit call ≤ 1) (hc : t.shared.Closed)
    (hs : s.step a = some t) : t.Waits := by
  intro call hm
  have halive : t.alive ≠ false := by
    intro hd
    rw [requested_eq_nil hc hd] at hm
    cases hm
  have kept : s.isAbandoned call = true → t.isAbandoned call = true :=
    fun ha => (isAbandoned_step hs ha).resolve_left halive
  by_cases ha : a = .work
  · subst ha
    have hold := ((requested_work hc hs).map Prod.fst).subset hm
    rcases h call hold with ⟨c, hcall, hp⟩ | hab
    · rcases calls_work hs with hd | he | ⟨i, r, hi, he⟩
      · exact absurd hd halive
      · exact .inl ⟨c, he ▸ hcall, hp⟩
      · by_cases hic : i = call
        · subst hic
          rcases hi with hj | hab
          · exact absurd hold (not_mem_requested (hone i) hj)
          · exact .inr (kept hab)
        · refine .inl ⟨c, ?_, hp⟩
          simpa [he, System.reply, hic] using hcall
    · exact .inr (kept hab)
  · have waits (hold : call ∈ s.requested.map Prod.fst) :
        (∃ d, t.calls[call]? = some d ∧ d.phase = .awaiting none) ∨ t.isAbandoned call = true := by
      rcases h call hold with ⟨c, hcall, hp⟩ | hab
      · exact waits_client ha hs hcall hp
      · exact .inr (kept hab)
    have hands := hands_client ha hs
    simp only [System.hands, worker_client ha hs, List.append_assoc, List.append_cancel_left_eq]
      at hands
    rcases hands with he | ⟨i, c, _, hcall, hp, he⟩
    · exact waits (he ▸ hm)
    · rcases List.mem_append.mp (he ▸ hm) with hold | hi
      · exact waits hold
      · obtain rfl := List.mem_singleton.mp hi
        exact .inl ⟨c, hcall, hp⟩

theorem waits_reaches {around : Surroundings} {engine : E.State} {interrupts : Interrupts}
    (h : Reaches (opened around engine interrupts) s) : s.Waits := by
  induction h with
  | refl => exact nofun
  | step a hr hs ih =>
    exact ih.step (fun call => credit_le_one hr call) (closed_reaches (hr.step a hs)) hs

/-- The thread has not picked the call's request and will not: it takes no more commands, or the
request is abandoned, or it is not there and will not come. -/
structure Barred (s : System E) (call : Nat) : Prop where
  idle : s.worker.job? ≠ some call
  reason : s.alive = false ∨ s.isAbandoned call = true ∨ s.credit call = 0

section

variable {around : Surroundings} {engine : E.State} {interrupts : Interrupts}
  {legs : List (Leg E)}

theorem Barred.step (h : s.Barred call) (hr : Reaches (opened around engine interrupts) s)
    (hs : s.step a = some t) : t.Barred call := by
  have hct := closed_reaches (hr.step a hs)
  constructor
  · intro hj
    by_cases ha : a = .work
    · subst ha
      obtain ⟨post, r, _, hq, hab⟩ := picks_of_job? hs hj
      rcases h.reason with hd | hx | hz
      · cases ((closed_reaches hr).emptied hd).symm.trans hq
      · cases hx.symm.trans hab
      · have hm : call ∈ s.hands := by simp [hands, requested, hq, Command.request?]
        have hpos := List.count_pos_iff.mpr hm
        unfold credit at hz
        omega
    · exact h.idle ((congrArg Worker.job? (worker_client ha hs)).symm.trans hj)
  · rcases h.reason with hd | hx | hz
    · left
      have hm := (step_move (departing_reaches hr) hs).alive
      exact Bool.eq_false_iff.mpr fun ht => Bool.eq_false_iff.mp hd (hm ht)
    · exact (isAbandoned_step hs hx).imp_right .inl
    · have hle := credit_step hct hs call
      exact .inr (.inr (by omega))

/-- A request that is barred is not served, whatever happens. -/
theorem Barred.course (h : s.Barred call) (hr : Reaches (opened around engine interrupts) s)
    (hc : s.Course legs t) : t.Barred call ∧ ∀ x ∈ legs, x.serves call = false := by
  induction hc with
  | rest => exact ⟨h, List.forall_mem_nil _⟩
  | @step legs t u a hc hs ih =>
    obtain ⟨hb, hall⟩ := ih
    refine ⟨hb.step (hc.reaches hr) hs, List.forall_mem_append.mpr ⟨hall, ?_⟩⟩
    exact List.forall_mem_singleton.mpr (Leg.not_serves (x := ⟨t, a, u⟩) hb.idle)

end

end System

/-- The thread picks the request of the call in this step: it starts with the job. -/
def Leg.starts (x : Leg E) (call : Nat) : Bool :=
  x.action == .work && x.after.worker.job? == some call

/-- The thread serves the request of the call in this step, with this result. -/
def Leg.Produces (x : Leg E) (call : Nat) (result : Result) : Prop :=
  x.action = .work ∧ ∃ post r, x.before.worker = .serving post call r ∧
    x.before.served r = .given result

/-- The call returns in this step with the result of its request. -/
def Leg.HandsBack (x : Leg E) (call : Nat) (result : Result) : Prop :=
  x.action = .advance call ∧
    ∃ c, x.before.calls[call]? = some c ∧ c.phase = .awaiting (some (.given result))

/-- A request has come to the queue and has no result, or it has failed. -/
def Phase.isFailing : Phase → Bool
  | .ready | .awaiting none | .awaiting (some .dropped) | .returned (.error _) => true
  | _ => false

theorem Leg.Produces.serves {x : Leg E} {call : Nat} {result : Result}
    (h : x.Produces call result) : x.serves call = true := by
  obtain ⟨ha, post, r, hw, _⟩ := h
  simp [Leg.serves, ha, hw, Worker.job?]

/-- The thread has answered that it is done. -/
def Phase.isDone : Phase → Bool
  | .awaiting (some (.given (.ok .done))) => true
  | _ => false

theorem Phase.eq_of_isDone {phase : Phase} (h : phase.isDone = true) :
    phase = .awaiting (some (.given (.ok .done))) := by
  unfold isDone at h
  split at h
  · rfl
  · cases h

/-- The thread has not answered yet. -/
def Phase.isOpen : Phase → Bool
  | .awaiting none => true
  | _ => false

theorem Phase.eq_of_isOpen {phase : Phase} (h : phase.isOpen = true) : phase = .awaiting none := by
  unfold isOpen at h
  split at h
  · rfl
  · cases h

namespace System

variable {s t : System E} {a : Action} {call : Nat} {r : Request} {around : Surroundings}
  {engine : E.State} {interrupts : Interrupts} {legs : List (Leg E)}

namespace Course

theorem exists_starts (h : (opened around engine interrupts : System E).Course legs s)
    (hj : s.worker.job? = some call) : ∃ x ∈ legs, x.starts call = true := by
  induction h with
  | rest => cases hj
  | @step legs t u a h hs ih =>
    by_cases ha : a = .work
    · exact ⟨⟨t, a, u⟩, by simp, by simp [Leg.starts, ha, hj]⟩
    · obtain ⟨x, hx, hstart⟩ := ih ((congrArg Worker.job? (worker_client ha hs)).symm.trans hj)
      exact ⟨x, List.mem_append_left _ hx, hstart⟩

theorem not_picked (h : (opened around engine interrupts : System E).Course legs s)
    (hn : ∀ x ∈ legs, x.starts call = false) : s.worker.job? ≠ some call := by
  intro hj
  obtain ⟨x, hx, hstart⟩ := h.exists_starts hj
  cases (hn x hx).symm.trans hstart

/-- What a caller gets, the thread has come to in serving its request. -/
theorem exists_produces (h : (opened around engine interrupts : System E).Course legs s) {c : Call}
    {result : Result} (hc : s.calls[call]? = some c)
    (hp : c.phase = .awaiting (some (.given result))) : ∃ x ∈ legs, x.Produces call result := by
  induction h generalizing c with
  | rest => cases hc
  | @step legs t u a h hs ih =>
    have earlier {d : Call} (hd : t.calls[call]? = some d)
        (hdp : d.phase = .awaiting (some (.given result))) :
        ∃ x ∈ legs ++ [⟨t, a, u⟩], x.Produces call result := by
      obtain ⟨x, hx, hserves⟩ := ih hd hdp
      exact ⟨x, List.mem_append_left _ hx, hserves⟩
    rcases calls_step hs with ⟨operation, cancelled, rfl⟩ | hchanged
    · rw [begin, List.getElem?_append] at hc
      split at hc
      · exact earlier hc hp
      · have hnew := List.mem_of_getElem? hc
        obtain rfl := List.mem_singleton.mp hnew
        cases hp
    · obtain ⟨d, hd, _, hb⟩ := hchanged.calls call c hc
      rw [hp] at hb
      generalize hq : Phase.awaiting (some (.given result)) = q at hb
      cases hb with
      | stays => exact earlier hd hq.symm
      | @served post r _ _ serving =>
        refine ⟨⟨t, .work, u⟩, by simp, rfl, post, r, serving, ?_⟩
        exact (Option.some.inj (Phase.awaiting.inj hq)).symm
      | _ => cases hq

theorem not_serves_of_not_starts
    (h : (opened around engine interrupts : System E).Course legs s)
    (hn : ∀ x ∈ legs, x.starts call = false) : ∀ x ∈ legs, x.serves call = false := by
  intro x hx
  obtain ⟨before, after, rfl⟩ := List.append_of_mem hx
  obtain ⟨hb, _, _⟩ := h.split
  exact Leg.not_serves (hb.not_picked fun y hy => hn y (List.mem_append_left _ hy))

end Course

/-- The call has come to the queue with its request and has no result, or it has failed. -/
def Failing (s : System E) (call : Nat) (r : Request) : Prop :=
  ∃ c, s.calls[call]? = some c ∧ c.operation = .request r ∧ c.phase.isFailing = true

theorem Failing.unanswered (h : s.Failing call r) : s.Unanswered call r := by
  obtain ⟨c, hc, ho, hp⟩ := h
  refine ⟨c, hc, ho, ?_⟩
  generalize c.phase = p at hp
  unfold Phase.isFailing at hp
  split at hp
  · rfl
  · rfl
  · rfl
  · rfl
  · cases hp

/-- Without being served the call can only fail. -/
theorem Failing.step (h : s.Failing call r) (hj : s.worker.job? ≠ some call)
    (hs : s.step a = some t) : t.Failing call r := by
  obtain ⟨c, hc, ho, hp⟩ := h
  rcases calls_step hs with ⟨operation, cancelled, rfl⟩ | hchanged
  · obtain ⟨hlt, _⟩ := List.getElem?_eq_some_iff.mp hc
    exact ⟨c, (List.getElem?_append_left hlt).trans hc, ho, hp⟩
  obtain ⟨d, hd, hop, hb⟩ := hchanged.exists_after hc
  refine ⟨d, hd, hop.trans ho, ?_⟩
  generalize d.phase = q at hb
  cases hb with
  | stays => exact hp
  | queued | dropped | failed | gaveUp => rfl
  | served _ serving =>
    rw [serving] at hj
    exact absurd rfl hj
  | admitted he | looked he | atOnce he | ready he | received he | leaving he | joining he =>
    rw [he] at hp
    cases hp
  | left he => rcases he with he | he <;> rw [he] at hp <;> cases hp

theorem Failing.error (h : s.Failing call r) {c : Call} {result : Result}
    (hc : s.calls[call]? = some c) (hp : c.phase = .returned result) :
    ∃ x, result = .error x := by
  obtain ⟨d, hd, _, hphase⟩ := h
  cases hc.symm.trans hd
  rw [hp] at hphase
  cases result with
  | error x => exact ⟨x, rfl⟩
  | ok answer => cases hphase

/-- Its caller comes to the error without waiting for anybody. -/
theorem Failing.ends (h : s.Failing call r) (hj : s.worker.job? ≠ some call) :
    ∃ actions t c x, (∀ a ∈ actions, a = .advance call ∨ a = .giveUp call) ∧
      s.follow actions = some t ∧ t.calls[call]? = some c ∧ c.phase = .returned (.error x) := by
  refine ends_of_kept (P := fun s => s.Failing call r ∧ s.worker.job? ≠ some call)
    (fun _ hs => hs.1.unanswered) ?_ ⟨h, hj⟩
  rintro s a t ⟨hf, hidle⟩ ha hs
  have hclient : a ≠ .work := by rcases ha with rfl | rfl <;> exact nofun
  exact ⟨hf.step hidle hs, worker_client hclient hs ▸ hidle⟩

theorem Failing.course (h : s.Failing call r) (hb : s.Barred call)
    (hr : Reaches (opened around engine interrupts) s) (hc : s.Course legs t) :
    t.Failing call r := by
  induction hc with
  | rest => exact h
  | step a hc hs ih => exact ih.step (hb.course hr hc).1.idle hs

/-- Nothing comes of the request: it is not served, and all that its caller can get is an error, for
which it need not wait. -/
structure Void (legs : List (Leg E)) (t : System E) (call : Nat) : Prop where
  unserved : ∀ x ∈ legs, x.serves call = false
  error : ∀ c result, t.calls[call]? = some c → c.phase = .returned result →
    ∃ x, result = .error x
  ends : ∃ actions u c x, (∀ a ∈ actions, a = .advance call ∨ a = .giveUp call) ∧
    t.follow actions = some u ∧ u.calls[call]? = some c ∧ c.phase = .returned (.error x)

section

variable {past after : List (Leg E)}

theorem barred_of_returned (h : (opened around engine interrupts : System E).Course past s)
    (hn : ∀ x ∈ past, x.starts call = false) {c : Call} {result : Result}
    (hc : s.calls[call]? = some c) (hp : c.phase = .returned result) : s.Barred call := by
  refine ⟨h.not_picked hn, .inr ?_⟩
  by_cases hm : call ∈ s.requested.map Prod.fst
  · left
    rcases waits_reaches (h.reaches (.refl _)) call hm with ⟨d, hd, hw⟩ | hab
    · cases hc.symm.trans hd
      cases hp.symm.trans hw
    · exact hab
  · right
    have hu : s.unsent call = false := by simp [unsent, hc, hp, Phase.isUnsent]
    have hj : s.worker.job?.toList.count call = 0 := by
      have hidle := h.not_picked hn
      rw [List.count_eq_zero, Option.mem_toList]
      exact hidle
    rw [credit, hu, hands, List.count_append, hj, List.count_eq_zero.mpr hm]
    rfl

theorem void_of_cancelled (h : (opened around engine interrupts : System E).Course past s)
    (h' : s.Course after t) (hn : ∀ x ∈ past, x.starts call = false) {c : Call}
    (hc : s.calls[call]? = some c) (ho : c.operation = .request r) (hx : c.cancelled = true)
    (hp : c.phase = .ready ∨ ∃ reply, c.phase = .awaiting reply) :
    Void (past ++ after) t call := by
  have hr : Reaches (opened around engine interrupts) s := h.reaches (.refl _)
  have hb : s.Barred call := ⟨h.not_picked hn, .inr (.inl (by simp [isAbandoned, hc, hx]))⟩
  have hf : s.Failing call r := by
    refine ⟨c, hc, ho, ?_⟩
    rcases hp with hp | ⟨_ | result | _, hp⟩
    · rw [hp]
      rfl
    · rw [hp]
      rfl
    · -- A result would have come from the thread.
      obtain ⟨x, hm, hproduces⟩ := h.exists_produces hc hp
      cases (h.not_serves_of_not_starts hn x hm).symm.trans hproduces.serves
    · rw [hp]
      rfl
  obtain ⟨ht, hall⟩ := hb.course hr h'
  have hft := hf.course hb hr h'
  exact ⟨List.forall_mem_append.mpr ⟨h.not_serves_of_not_starts hn, hall⟩, fun _ _ => hft.error,
    hft.ends ht.idle⟩

/-- Whatever clients and the thread do, the job of a call is run at most once.  It is not run after
the call has returned if it had not been started then, and not if the call was cancelled before it
was started, when the call ends with an error.  A result that the call returns comes from the one
run of its job. -/
theorem Course.job_runs_once (h : (opened around engine interrupts : System E).Course past s)
    (h' : s.Course after t) (call : Nat) :
    ((past ++ after).filter (·.serves call)).length ≤ 1 ∧
    (∀ c result, s.calls[call]? = some c → c.phase = .returned result →
      (∀ x ∈ past, x.starts call = false) → ∀ x ∈ after, x.serves call = false) ∧
    (∀ before x later result, past ++ after = before ++ x :: later → x.HandsBack call result →
      ∃ y ∈ before, y.Produces call result ∧ (past ++ after).filter (·.serves call) = [y]) ∧
    (∀ c r, s.calls[call]? = some c → c.operation = .request r → c.cancelled = true →
      (c.phase = .ready ∨ ∃ reply, c.phase = .awaiting reply) →
      (∀ x ∈ past, x.starts call = false) → Void (past ++ after) t call) := by
  have hr : Reaches (opened around engine interrupts) s := h.reaches (.refl _)
  have honce : ((past ++ after).filter (·.serves call)).length ≤ 1 := by
    have hle := (h.append h').credit_le (.refl (opened around engine interrupts)) call
    have hopened : (opened around engine interrupts : System E).credit call = 1 := rfl
    omega
  refine ⟨honce, ?_, ?_, fun c r hc ho hx hp hn => void_of_cancelled h h' hn hc ho hx hp⟩
  · intro c result hc hp hn
    exact ((barred_of_returned h hn hc hp).course hr h').2
  · rintro before x later result hlegs ⟨_, c, hc, hp⟩
    obtain ⟨hb, _, _⟩ := (hlegs ▸ h.append h').split
    obtain ⟨y, hy, hproduces⟩ := hb.exists_produces hc hp
    have hm : y ∈ (past ++ after).filter (·.serves call) :=
      List.mem_filter.mpr ⟨hlegs ▸ List.mem_append_left _ hy, hproduces.serves⟩
    obtain ⟨z, hz⟩ := List.length_eq_one_iff.mp (Nat.le_antisymm honce (List.length_pos_of_mem hm))
    refine ⟨y, hy, hproduces, ?_⟩
    rw [hz] at hm ⊢
    rw [List.mem_singleton.mp hm]

end

/-- What the thread has done for the first of three calls is handed back; the second has given up,
and the third is cancelled before the thread comes to either of them. -/
theorem Course.job_runs_once_of_three :
    ∃ (before between after : List (Leg (scriptEngine {}))) (x y : Leg (scriptEngine {}))
      (s t : System (scriptEngine {})),
      (opened { home := .at ⟨"/"⟩ } ({} : Script.State) {}).Course (before ++ x :: between) s ∧
      s.Course after t ∧ y.Produces 0 (.ok .done) ∧
      (before ++ x :: between ++ after).filter (·.serves 0) = [y] ∧
      (∀ z ∈ after, z.serves 1 = false) ∧ Void (before ++ x :: between ++ after) t 2 := by
  have hf : ((opened { home := .at ⟨"/"⟩ } ({} : Script.State) {} : System (scriptEngine {})).travel
      (asking 0 .removeAllBreakpoints)).any (fun x =>
        (x.1.all fun z => !z.starts 1 && !z.starts 2) &&
        ((x.2.calls[0]?.any fun (c : Call) => c.phase.isDone) &&
        (x.2.step (.advance 0)).any fun v =>
          (!Leg.starts ⟨x.2, .advance 0, v⟩ 1 && !Leg.starts ⟨x.2, .advance 0, v⟩ 2) &&
          (v.travel ((asking 1 .removeAllBreakpoints).take 4 ++ .giveUp 1 ::
            ((asking 2 .removeAllBreakpoints).take 4 ++ [.cancel 2]))).any fun y =>
            (y.1.all fun z => !z.starts 1 && !z.starts 2) &&
            ((y.2.calls[1]?.any fun (c : Call) => c.answer?.isSome) &&
            ((y.2.calls[2]?.any fun (c : Call) =>
              c.cancelled && (c.operation == .request .removeAllBreakpoints && c.phase.isOpen)) &&
            (y.2.travel [.work, .work, .advance 2]).any fun _ => true)))) = true := by
    cbv
  obtain ⟨before, u, hbefore, hp⟩ := Course.exists_of_travel hf
  obtain ⟨hn₁, hp⟩ := Bool.and_eq_true_iff.mp hp
  obtain ⟨hgiven, hp⟩ := Bool.and_eq_true_iff.mp hp
  obtain ⟨v, hstep, hp⟩ := (Option.any_eq_true _ _).mp hp
  obtain ⟨hn₂, hp⟩ := Bool.and_eq_true_iff.mp hp
  obtain ⟨between, s, hbetween, hp⟩ := Course.exists_of_travel hp
  obtain ⟨hn₃, hp⟩ := Bool.and_eq_true_iff.mp hp
  obtain ⟨hreturned, hp⟩ := Bool.and_eq_true_iff.mp hp
  obtain ⟨hcancelled, hp⟩ := Bool.and_eq_true_iff.mp hp
  obtain ⟨after, t, hafter, _⟩ := Course.exists_of_travel hp
  have hcourse := hbefore.append (.cons hstep hbetween)
  have hn : ∀ x ∈ before ++ ⟨u, .advance 0, v⟩ :: between,
      x.starts 1 = false ∧ x.starts 2 = false := by
    simp only [List.all_eq_true, Bool.and_eq_true, Bool.not_eq_true'] at hn₁ hn₂ hn₃
    exact List.forall_mem_append.mpr ⟨hn₁, List.forall_mem_cons.mpr ⟨hn₂, hn₃⟩⟩
  obtain ⟨c₀, hc₀, hp₀⟩ := (Option.any_eq_true _ _).mp hgiven
  obtain ⟨c₁, hc₁, hp₁⟩ := (Option.any_eq_true _ _).mp hreturned
  obtain ⟨c₂, hc₂, hp₂⟩ := (Option.any_eq_true _ _).mp hcancelled
  obtain ⟨hx₂, hp₂⟩ := Bool.and_eq_true_iff.mp hp₂
  obtain ⟨ho₂, hp₂⟩ := Bool.and_eq_true_iff.mp hp₂
  obtain ⟨result, hphase₁⟩ : ∃ result, c₁.phase = .returned result := by
    unfold Call.answer? at hp₁
    split at hp₁
    · exact ⟨_, by assumption⟩
    · cases hp₁
  obtain ⟨_, _, hhands, _⟩ := Course.job_runs_once hcourse hafter 0
  obtain ⟨y, _, hproduces, honly⟩ := hhands before ⟨u, .advance 0, v⟩ (between ++ after) (.ok .done)
    (by simp) ⟨rfl, c₀, hc₀, Phase.eq_of_isDone hp₀⟩
  obtain ⟨_, hgivenUp, _, _⟩ := Course.job_runs_once hcourse hafter 1
  obtain ⟨_, _, _, hvoid⟩ := Course.job_runs_once hcourse hafter 2
  exact ⟨before, between, after, ⟨u, .advance 0, v⟩, y, s, t, hcourse, hafter, hproduces, honly,
    hgivenUp c₁ result hc₁ hphase₁ fun x hx => (hn x hx).1,
    hvoid c₂ _ hc₂ (beq_iff_eq.mp ho₂) hx₂ (.inr ⟨_, Phase.eq_of_isOpen hp₂⟩)
      fun x hx => (hn x hx).2⟩

end System
end Stepwise
