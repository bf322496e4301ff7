import Stepwise.Proofs.Session.Generations
import Stepwise.Proofs.Session.Progress

namespace Stepwise

variable {E : Engine}

/-- The answer that has been found for the call, unless it failed. -/
def Phase.found? : Phase → Option Answer
  | .awaiting (some (.given (.ok answer))) => some answer
  | .returned (.ok answer) => some answer
  | _ => none

/-- The answer that the caller has got. -/
def Phase.returned? : Phase → Option Answer
  | .returned (.ok answer) => some answer
  | _ => none

theorem Phase.eq_of_returned? {p : Phase} {answer : Answer} (h : p.returned? = some answer) :
    p = .returned (.ok answer) := by
  unfold returned? at h
  split at h <;> cases h
  rfl

theorem Phase.found?_of_returned? {p : Phase} {answer : Answer} (h : p.returned? = some answer) :
    p.found? = some answer := by
  rw [eq_of_returned? h]
  rfl

namespace Session.Stocked

variable {s : Session} {answer : Answer}

theorem handles_stackFrames (hs : s.Stocked) (h : s.stackFrames.map Answer.frames = .ok answer) :
    answer.handles ⊆ s.handles.handles := by
  obtain ⟨list, hl, rfl⟩ := Except.map_eq_ok_iff.mp h
  obtain ⟨_, _, hl⟩ := Except.bind_eq_ok_iff.mp hl
  cases hl
  intro k hk
  obtain ⟨f, hf, hk⟩ := List.mem_flatMap.mp hk
  exact hs.frames f hf hk

theorem handles_scopes (hs : s.Stocked) {frame : Nat}
    (h : (s.scopes frame).map Answer.scopes = .ok answer) : answer.handles ⊆ s.handles.handles := by
  obtain ⟨list, hl, rfl⟩ := Except.map_eq_ok_iff.mp h
  obtain ⟨_, _, hl⟩ := Except.bind_eq_ok_iff.mp hl
  split at hl
  · cases hl
  · next f hf =>
    cases hl
    exact hs.frames f (List.mem_of_getElem? hf)

/-- What is remembered of a listing. -/
theorem handles_precheck (hs : s.Stocked) {r : Request} (h : r.precheck s = .ok (some answer)) :
    answer.handles ⊆ s.handles.handles := by
  cases r with
  | expand k =>
    obtain ⟨list?, hl, he⟩ := Except.map_eq_ok_iff.mp h
    obtain ⟨list, rfl, rfl⟩ := Option.map_eq_some_iff.mp he
    obtain ⟨_, _, hl⟩ := Except.bind_eq_ok_iff.mp hl
    obtain ⟨c, hc, hl⟩ := Except.bind_eq_ok_iff.mp hl
    have hm := HandleTable.mem_of_resolve (Except.mapError_eq_ok_iff.mp hc)
    exact hs.handles.remembered c hm list (Except.ok.inj hl)
  | setVariable | evaluate =>
    obtain ⟨_, _, he⟩ := Except.map_eq_ok_iff.mp h
    cases he
  | _ => cases h

end Session.Stocked

namespace System

variable {s t : System E} {a : Action} {answer : Answer}

/-- What is done at once gives handles only to show the frames of the halt. -/
theorem handles_atOnce (hs : s.session.Stocked) {operation : Operation}
    (h : (s.atOnce operation).1 = .ok answer) : answer.handles ⊆ s.session.handles.handles := by
  have resumed {control : Control} {action : Resume}
      (h : (s.resume control action).1 = .ok answer) : answer = .done := by
    unfold resume at h
    split at h
    · cases h
    · split at h
      · dsimp only at h
        split at h <;> cases h
        rfl
      · cases h
  cases operation with
  | stackFrames => exact hs.handles_stackFrames h
  | scopes frame => exact hs.handles_scopes h
  | breakpoints | request | disconnect | drop =>
    cases h
    exact List.nil_subset _
  | execute source =>
    simp only [atOnce, execute] at h
    split at h
    · cases h
    · split at h
      · cases h
      · split at h <;> cases h
        exact List.nil_subset _
  | «continue» | stepOver | stepIn | stepOut =>
    rw [resumed h]
    exact List.nil_subset _
  | «break» =>
    simp only [atOnce, requestBreak] at h
    split at h
    · cases h
    · split at h <;> cases h
      exact List.nil_subset _
  | abort =>
    simp only [atOnce, requestAbort] at h
    split at h
    · cases h
    · split at h
      · split at h <;> cases h
        exact List.nil_subset _
      · split at h <;> cases h
        exact List.nil_subset _

theorem handles_looked (hs : s.session.Stocked) {r : Request}
    (h : s.looked? r = some (.ok answer)) :
    answer.handles ⊆ s.session.handles.handles := by
  unfold looked? at h
  split at h
  · cases h
  · split at h
    · cases h
    · next list? hx =>
      obtain ⟨answer', rfl, he⟩ := Option.map_eq_some_iff.mp h
      cases he
      exact hs.handles_precheck hx

/-- An answer of the thread is that of the request as it is served. -/
theorem served_ok {r : Request} (h : s.served r = .given (.ok answer)) (post : Post E.Run)
    (call : Nat) :
    s.poisoned = false ∧ ∃ session u,
      ((r.serve E.context s.session.around.home).run.run s.session).Returns s.engine
        (.ok answer, session) u ∧ (s.serve post call r).session = session := by
  cases hp : s.poisoned with
  | true => simp [served, hp] at h
  | false =>
    rcases hr : ((r.serve E.context s.session.around.home).run.run s.session).run s.engine
      with ⟨_ | ⟨result, session⟩, u⟩
    · simp [served, hp, hr] at h
    · obtain ⟨hserved, hserve⟩ := serve_of_run hp hr post call
      cases hserved.symm.trans h
      exact ⟨rfl, session, u, hr, hserve ▸ rfl⟩

/-- The handles of a new answer are known to the session at the time. -/
theorem found_step (hs : s.session.Stocked) (h : s.step a = some t) {i : Nat} {d : Call}
    (hd : t.calls[i]? = some d) (hf : d.phase.found? = some answer) :
    (∃ c, s.calls[i]? = some c ∧ c.phase.found? = some answer) ∨
      answer.handles ⊆ s.session.handles.handles ∨ answer.handles ⊆ t.session.handles.handles := by
  rcases calls_step h with ⟨operation, cancelled, rfl⟩ | hchanged
  · -- The call that is begun has no answer.
    left
    rcases Nat.lt_or_ge i s.calls.length with hlt | hge
    · exact ⟨d, (List.getElem?_append_left hlt).symm.trans hd, hf⟩
    · simp only [begin, List.getElem?_append_right hge, List.getElem?_singleton] at hd
      split at hd <;> cases hd
      cases hf
  obtain ⟨c, hc, _, hb⟩ := hchanged.calls i d hd
  generalize d.phase = p at hf hb
  cases hb with
  | stays => exact .inl ⟨c, hc, hf⟩
  | @looked _ result _ _ looked =>
    cases result with
    | error x => cases hf
    | ok answer' =>
      cases hf
      exact .inr (.inl (handles_looked hs looked))
  | atOnce =>
    right; left
    rcases hx : (s.atOnce c.operation).1 with x | answer'
    · rw [hx] at hf
      cases hf
    · rw [hx] at hf
      cases hf
      exact handles_atOnce hs hx
  | @served post r _ _ serving =>
    right; right
    rcases hx : s.served r with result | _
    · rw [hx] at hf
      cases result with
      | error x => cases hf
      | ok answer' =>
        cases hf
        obtain ⟨_, session, u, hr, hsession⟩ := served_ok hx post i
        obtain rfl : s.serve post i r = t := by simpa [step, work, serving] using h
        rw [hsession]
        exact (r.serve_adds E.context s.session.around.home hs.handles hr).2.2 _ rfl
    · rw [hx] at hf
      cases hf
  | @received result given =>
    cases result with
    | error x => cases hf
    | ok answer' =>
      cases hf
      exact .inl ⟨c, hc, by rw [given]; rfl⟩
  | left =>
    cases hf
    exact .inr (.inl (List.nil_subset _))
  | _ => cases hf

/-- The handles that clients have got in answers. -/
def returnedHandles (s : System E) : List Handle :=
  s.calls.flatMap fun c => (c.phase.returned?.map Answer.handles).getD []

section

variable {around : Surroundings} {engine : E.State} {interrupts : Interrupts} {legs : List (Leg E)}
  {h : Handle}

/-- Every handle in an answer was issued. -/
theorem Course.exists_issues_of_found
    (hc : (opened around engine interrupts : System E).Course legs t) {i : Nat} {d : Call}
    (hd : t.calls[i]? = some d) (hf : d.phase.found? = some answer) (hm : h ∈ answer.handles) :
    ∃ x ∈ legs, x.Issues h := by
  induction hc generalizing d with
  | rest => cases hd
  | @step legs s t a hc hs ih =>
    have hst := stocked_reaches (hc.reaches (.refl _))
    rcases found_step hst hs hd hf with ⟨c, hcall, hc'⟩ | hknown | hknown
    · obtain ⟨x, hx, hi⟩ := ih hcall hc'
      exact ⟨x, List.mem_append_left _ hx, hi⟩
    · obtain ⟨x, hx, hi⟩ := hc.exists_issues (hknown hm)
      exact ⟨x, List.mem_append_left _ hx, hi⟩
    · exact (hc.step a hs).exists_issues (hknown hm)

theorem Course.exists_issues_of_returned
    (hc : (opened around engine interrupts : System E).Course legs t)
    (hr : h ∈ t.returnedHandles) : ∃ x ∈ legs, x.Issues h := by
  obtain ⟨c, hm, hh⟩ := List.mem_flatMap.mp hr
  obtain ⟨i, hi⟩ := List.mem_iff_getElem?.mp hm
  cases hp : c.phase.returned? with
  | none =>
    rw [hp] at hh
    cases hh
  | some answer =>
    rw [hp] at hh
    exact hc.exists_issues_of_found hi (Phase.found?_of_returned? hp) hh

end
end System
end Stepwise
