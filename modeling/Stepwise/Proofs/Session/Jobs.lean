import Stepwise.Proofs.Session.Progress

namespace Stepwise

variable {E : Engine} {ρ : Type}

/-- The call whose request the thread has picked. -/
def Worker.job? : Worker ρ → Option Nat
  | .serving _ call _ => some call
  | _ => none

/-- A request has yet to be queued, if it ever is. -/
def Phase.isUnsent : Phase → Bool
  | .entered | .admitted | .ready => true
  | _ => false

namespace System

/-- The calls whose requests are in the hands of the thread: the one that it has picked and those in
the queue. -/
def hands (s : System E) : List Nat :=
  s.worker.job?.toList ++ s.requested.map Prod.fst

/-- The call has not queued a request; it may not even have begun. -/
def unsent (s : System E) (call : Nat) : Bool :=
  s.calls[call]?.all (·.phase.isUnsent)

/-- How often the thread can still come to serve a request of the call. -/
def credit (s : System E) (call : Nat) : Nat :=
  (s.unsent call).toNat + s.hands.count call

variable {s t : System E} {a : Action} {call : Nat}

theorem job?_serve (s : System E) (post : Post E.Run) (call : Nat) (r : Request) :
    (s.serve post call r).worker.job? = none := by
  unfold serve
  split
  · rfl
  · split <;> rfl

theorem job?_run {r : E.Run} {execution : Nat} {closing : Bool} {ms : Nat}
    (h : s.run r execution closing = some (t, ms)) : t.worker.job? = none := by
  unfold run at h
  rcases hn : E.next r s.engine s.interrupts with ⟨signal, engine, interrupts⟩
  rw [hn] at h
  cases signal with
  | safePoint | halted => cases closing <;> cases h <;> rfl
  | blocked => cases h
  | crashed | paused | finished =>
    cases h
    rfl

theorem job?_tellHalt (s : System E) (h : Halt) (k : Resume → E.Run) (execution : Nat) :
    (s.tellHalt h k execution).worker.job? = none := by
  unfold tellHalt
  rcases (s.session.halt E.context h).run s.engine with ⟨_ | ⟨_ | _, session⟩, engine⟩ <;> rfl

theorem job?_tellEnd (s : System E) (outcome : Outcome) (execution : Nat) (closing : Bool) :
    (s.tellEnd outcome execution closing).worker.job? = none := by
  cases closing <;> rfl

theorem pick_of_take {post : Post E.Run} {c : Command} (hw : s.worker.job? = none)
    (h : (s.take post c).worker.job? = some call) :
    ∃ r, c = .serve call r ∧ s.isAbandoned call = false ∧
      s.take post c = { s with worker := .serving post call r } := by
  cases c with
  | serve i r =>
    by_cases ha : s.isAbandoned i = true
    · rw [take, if_pos ha] at h
      cases hw.symm.trans h
    · rw [take, if_neg ha] at h ⊢
      cases h
      exact ⟨r, rfl, Bool.eq_false_iff.mpr ha, rfl⟩
  | execute | resume =>
    cases post <;> first | cases h | cases hw.symm.trans h
  | shutdown => cases post <;> cases h

/-- The thread comes to a request by picking it from the front of the queue, and none that its
caller has given up. -/
theorem picks_of_job? (h : s.step .work = some t) (ht : t.worker.job? = some call) :
    ∃ post r, s.worker = .taking post ∧ s.commands = .serve call r :: t.commands ∧
      s.isAbandoned call = false := by
  obtain ⟨⟨u, ms⟩, hu, rfl⟩ := Option.map_eq_some_iff.mp h
  unfold work at hu
  split at hu
  · next post hw =>
    split at hu
    · next c rest hc =>
      cases hu
      have hj : s.worker.job? = none := by rw [hw]; rfl
      obtain ⟨r, rfl, ha, he⟩ := pick_of_take (s := { s with commands := rest }) hj ht
      refine ⟨post, r, hw, ?_, ha⟩
      rw [he]
      exact hc
    · split at hu
      · cases hu
        cases ht
      · cases hu
  · cases hu
    cases (job?_serve s _ _ _).symm.trans ht
  · cases (job?_run hu).symm.trans ht
  · cases hu
    cases (job?_tellHalt s _ _ _).symm.trans ht
  · cases hu
    cases (job?_tellEnd s _ _ _).symm.trans ht
  · cases hu
    cases ht
  · cases hu

theorem requested_work (hc : t.shared.Closed) (h : s.step .work = some t) :
    t.requested.Sublist s.requested := by
  rcases commands_work h with ha | hq
  · have he : t.requested = [] := congrArg (List.filterMap Command.request?) (hc.emptied ha)
    rw [he]
    exact List.nil_sublist _
  · unfold requested
    rw [hq, List.filterMap_append]
    exact List.sublist_append_right _ _

/-- What the thread serves goes out of its hands, and nothing comes into them. -/
theorem hands_work (hc : t.shared.Closed) (h : s.step .work = some t) :
    (s.worker.job?.toList ++ t.hands).Sublist s.hands := by
  have hq := (requested_work hc h).map Prod.fst
  cases ht : t.worker.job? with
  | none =>
    rw [hands, ht]
    exact List.Sublist.append_left hq _
  | some call =>
    obtain ⟨post, r, hw, hs, _⟩ := picks_of_job? h ht
    have hreq : s.requested = (call, r) :: t.requested := by
      simp [requested, hs, Command.request?]
    have hj : s.worker.job? = none := by rw [hw]; rfl
    rw [hands, hands, ht, hj, hreq]
    exact .refl _

theorem worker_client (ha : a ≠ .work) (h : s.step a = some t) : t.worker = s.worker :=
  congrArg Prod.snd (thread_step ha h)

/-- A request comes into the thread's hands when its caller queues it. -/
theorem hands_client (ha : a ≠ .work) (h : s.step a = some t) :
    t.hands = s.hands ∨
      ∃ call c, s.unsent call = true ∧ t.calls[call]? = some c ∧ c.phase = .awaiting none ∧
        t.hands = s.hands ++ [call] := by
  have hw := worker_client ha h
  have same : t.requested = s.requested → t.hands = s.hands := by
    intro hr
    rw [hands, hands, hw, hr]
  cases a with
  | begin | cancel =>
    cases h
    exact .inl rfl
  | advance call =>
    rcases requested_advance h with hr | ⟨c, r, hcall, hready, _, hd, hr⟩
    · exact .inl (same hr)
    · refine .inr ⟨call, _, by simp [unsent, hcall, hready, Phase.isUnsent], hd, rfl, ?_⟩
      rw [hands, hands, hw, hr, List.map_append, List.append_assoc]
      rfl
  | giveUp call =>
    left
    simp only [step, giveUp] at h
    split at h
    · cases h
    · split at h
      · split at h <;> cases h <;> rfl
      · cases h
  | receive reception =>
    obtain ⟨session, _, rfl⟩ := Option.map_eq_some_iff.mp h
    exact .inl rfl
  | work => exact absurd rfl ha

/-- Nobody takes back a request. -/
theorem unsent_step (h : s.step a = some t) (ht : t.unsent call = true) : s.unsent call = true := by
  unfold unsent at ht ⊢
  rcases calls_step h with ⟨operation, cancelled, rfl⟩ | hchanged
  · cases hc : s.calls[call]? with
    | none => rfl
    | some c =>
      obtain ⟨hlt, _⟩ := List.getElem?_eq_some_iff.mp hc
      rw [begin, List.getElem?_append_left hlt, hc] at ht
      exact ht
  · cases hc : s.calls[call]? with
    | none => rfl
    | some c =>
      obtain ⟨d, hd, _, hb⟩ := hchanged.exists_after hc
      rw [hd, Option.all_some] at ht
      rw [Option.all_some]
      generalize d.phase = p at hb ht
      cases hb with
      | stays => exact ht
      | admitted he => rw [he]; rfl
      | ready he => rw [he]; rfl
      | _ => cases ht

end System

/-- The thread serves the request of the call in this step: its work is done, once. -/
def Leg.serves (x : Leg E) (call : Nat) : Bool :=
  x.action == .work && x.before.worker.job? == some call

theorem Leg.not_serves {x : Leg E} {call : Nat} (h : x.before.worker.job? ≠ some call) :
    x.serves call = false := by
  simp [serves, h]

namespace System

variable {s t : System E} {a : Action} {legs : List (Leg E)} {around : Surroundings}
  {engine : E.State} {interrupts : Interrupts}

theorem toNat_unsent_le (h : s.step a = some t) (call : Nat) :
    (t.unsent call).toNat ≤ (s.unsent call).toNat := by
  cases ht : t.unsent call with
  | false => exact Nat.zero_le _
  | true => rw [unsent_step h ht]

/-- No step gives a call more credit, and serving its request costs one. -/
theorem credit_step (hc : t.shared.Closed) (h : s.step a = some t) (call : Nat) :
    (Leg.serves ⟨s, a, t⟩ call).toNat + t.credit call ≤ s.credit call := by
  have hu := toNat_unsent_le h call
  unfold credit
  by_cases ha : a = .work
  · subst ha
    have hcount := (hands_work hc h).count_le call
    have hserves : (Leg.serves ⟨s, .work, t⟩ call).toNat = s.worker.job?.toList.count call := by
      cases hj : s.worker.job? with
      | none => simp [Leg.serves, hj]
      | some i => by_cases hi : i = call <;> simp [Leg.serves, hj, hi]
    rw [List.count_append] at hcount
    omega
  · have hserves : (Leg.serves ⟨s, a, t⟩ call).toNat = 0 := by simp [Leg.serves, ha]
    rcases hands_client ha h with he | ⟨i, c, hs, hc, hp, he⟩
    · rw [hserves, he]
      omega
    · have ht : t.unsent i = false := by simp [unsent, hc, hp, Phase.isUnsent]
      rw [hserves, he, List.count_append]
      by_cases hi : i = call
      · subst hi
        simp [hs, ht, Nat.add_comm]
      · have hzero : [i].count call = 0 := by simp [hi]
        omega

/-- What a call has spent and what it has left is what it had. -/
theorem Course.credit_le (hr : Reaches (opened around engine interrupts) s) (h : s.Course legs t)
    (call : Nat) : (legs.filter (·.serves call)).length + t.credit call ≤ s.credit call := by
  induction h with
  | rest => simp
  | @step legs t u a h hs ih =>
    have hstep := credit_step (closed_reaches ((h.reaches hr).step a hs)) hs call
    have hsnoc : ((legs ++ [(⟨t, a, u⟩ : Leg E)]).filter (·.serves call)).length =
        (legs.filter (·.serves call)).length + (Leg.serves ⟨t, a, u⟩ call).toNat := by
      cases hx : Leg.serves ⟨t, a, u⟩ call <;> simp [List.filter_append, hx]
    omega

theorem credit_le_one (h : Reaches (opened around engine interrupts) s) (call : Nat) :
    s.credit call ≤ 1 := by
  obtain ⟨legs, hc⟩ := Course.of_reaches h
  exact (Nat.le_add_left _ _).trans (hc.credit_le (.refl _) call)

end System
end Stepwise
