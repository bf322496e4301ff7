import Stepwise.Proofs.Session.Turns

namespace Stepwise

variable {E : Engine}

namespace Session

/-- How many stops a session may have for each of them to begin a generation of its own. -/
def stopBound : Nat := Handle.generationBound - 2

/-- As long as a session lives it is in the generation of its last stop, if it has had one. -/
def Dated (s : Session) : Prop :=
  s.runState = .terminated ∨ s.handles.generation = 1 + s.queuedStops.length

/-- The handle is of no stop that the session is in. -/
structure Past (s : Session) (h : Handle) : Prop where
  le : h.generation ≤ s.handles.generation
  lt : s.runState = .stopped → h.generation < s.handles.generation

namespace Turn

variable {s t : Session} {h : Handle}

theorem length_le (m : s.Turn t) : s.queuedStops.length ≤ t.queuedStops.length := by
  cases m with
  | halts event queued => simp [queued]
  | stays queued | grows queued | ends queued => exact queued ▸ Nat.le_refl _

theorem generation_le (m : s.Turn t) (hs : s.Stocked) :
    s.handles.generation ≤ t.handles.generation := by
  have hlt := hs.handles.numbered.generation_lt
  have hreset : s.handles.generation ≤ s.handles.reset.generation := by
    simp only [HandleTable.reset]
    omega
  cases m with
  | stays _ handles => rw [handles]
  | grows _ _ _ handles => exact handles.generation.ge
  | halts _ _ _ generation => exact generation ▸ hreset
  | ends _ _ handles => exact handles ▸ hreset

/-- A turn to a stop that does not begin it is within the stop. -/
theorem within (m : s.Turn t) (hq : t.queuedStops.length = s.queuedStops.length)
    (ht : t.runState = .stopped) : s.runState = .stopped ∧ s.handles.Extends t.handles := by
  cases m with
  | stays _ handles halted => exact ⟨halted ht, handles ▸ .refl _⟩
  | grows _ before _ handles => exact ⟨before, handles⟩
  | halts event queued => simp [queued] at hq
  | ends _ ended =>
    rw [ht] at ended
    cases ended

/-- Handles are only issued in a stop. -/
theorem stopped_of_issues (m : s.Turn t) (hm : h ∈ t.handles.handles)
    (hn : h ∉ s.handles.handles) : t.runState = .stopped := by
  cases m with
  | stays _ handles =>
    rw [handles] at hm
    exact absurd hm hn
  | grows _ _ after | halts _ _ after => exact after
  | ends _ _ handles =>
    rw [handles, HandleTable.handles_reset] at hm
    cases hm

theorem dated (m : s.Turn t) (hs : s.Dated)
    (hl : s.runState = .terminated → t.runState = .terminated)
    (hb : t.queuedStops.length ≤ stopBound) : t.Dated := by
  rcases hs with hs | hs
  · exact .inl (hl hs)
  · cases m with
    | stays queued handles => exact .inr (by rw [handles, hs, queued])
    | grows queued _ _ handles => exact .inr (by rw [handles.generation, hs, queued])
    | halts event queued _ generation =>
      right
      rw [queued, List.length_append, List.length_singleton] at hb ⊢
      rw [generation]
      simp only [HandleTable.reset, stopBound, Handle.generationBound] at hb ⊢
      omega
    | ends _ ended => exact .inl ended

/-- What is past stays past. -/
theorem past (m : s.Turn t) (hs : s.Stocked) (hd : s.Dated) (ht : t.Dated)
    (hl : s.runState = .terminated → t.runState = .terminated) (hp : s.Past h) : t.Past h := by
  refine ⟨hp.le.trans (m.generation_le hs), ?_⟩
  intro hst
  cases m with
  | stays _ handles halted => exact handles ▸ hp.lt (halted hst)
  | grows _ before _ handles => exact handles.generation ▸ hp.lt before
  | halts event queued =>
    have hne : t.runState ≠ .terminated := by simp [hst]
    have hgt := ht.resolve_left hne
    have hgs := hd.resolve_left fun hx => hne (hl hx)
    rw [hgt, queued, List.length_append, List.length_singleton]
    have hle := hp.le
    omega
  | ends _ ended =>
    rw [hst] at ended
    cases ended

end Turn
end Session

/-- The handle is issued in the step. -/
def Leg.Issues (x : Leg E) (h : Handle) : Prop :=
  h ∈ x.after.session.handles.handles ∧ h ∉ x.before.session.handles.handles

/-- The step is taken within a stop. -/
structure Leg.InStop (x : Leg E) : Prop where
  before : x.before.session.runState = .stopped
  after : x.after.session.runState = .stopped
  silent : x.stop? = none

/-- The handle was issued in the stop in which the session is after the steps. -/
def IssuedInStop (legs : List (Leg E)) (h : Handle) : Prop :=
  ∃ earlier x since, legs = earlier ++ x :: since ∧ x.Issues h ∧
    x.after.session.runState = .stopped ∧ ∀ y ∈ since, y.InStop

namespace System

variable {s t u : System E} {around : Surroundings} {engine : E.State} {interrupts : Interrupts}
  {legs before after : List (Leg E)} {x : Leg E} {h : Handle}

theorem stocked_reaches (hr : Reaches (opened around engine interrupts) s) : s.session.Stocked := by
  induction hr with
  | refl => exact ⟨.first, nofun⟩
  | step a hr h ih => exact (step_turn hr ih h).1

theorem turn_of_step (hr : Reaches (opened around engine interrupts) s) {a : Action}
    (h : s.step a = some t) : s.session.Turn t.session :=
  (step_turn hr (stocked_reaches hr) h).2

theorem terminated_of_step (hr : Reaches (opened around engine interrupts) s) {a : Action}
    (h : s.step a = some t) (hs : s.session.runState = .terminated) :
    t.session.runState = .terminated :=
  (step_move (departing_reaches hr) h).terminated hs

namespace Course

variable (hr : Reaches (opened around engine interrupts) s)
include hr

theorem length_le (hc : s.Course legs t) :
    s.session.queuedStops.length ≤ t.session.queuedStops.length := by
  induction hc with
  | rest => exact Nat.le_refl _
  | step a hc h ih => exact ih.trans (turn_of_step (hc.reaches hr) h).length_le

theorem generation_le (hc : s.Course legs t) :
    s.session.handles.generation ≤ t.session.handles.generation := by
  induction hc with
  | rest => exact Nat.le_refl _
  | step a hc h ih =>
    have hr' := hc.reaches hr
    exact ih.trans ((turn_of_step hr' h).generation_le (stocked_reaches hr'))

theorem terminated (hc : s.Course legs t) (hs : s.session.runState = .terminated) :
    t.session.runState = .terminated := by
  induction hc with
  | rest => exact hs
  | step a hc h ih => exact terminated_of_step (hc.reaches hr) h ih

/-- Nobody is told of a stop on the way to it: the session was stopped all the time. -/
theorem within (hc : s.Course legs t)
    (hq : t.session.queuedStops.length = s.session.queuedStops.length)
    (ht : t.session.runState = .stopped) :
    s.session.runState = .stopped ∧ s.session.handles.Extends t.session.handles ∧
      ∀ x ∈ legs, x.InStop := by
  induction hc with
  | rest => exact ⟨ht, .refl _, List.forall_mem_nil _⟩
  | @step legs t u a hc h ih =>
    have m := turn_of_step (hc.reaches hr) h
    have hle := hc.length_le hr
    have hle' := m.length_le
    obtain ⟨hst, hx⟩ := m.within (by omega) ht
    obtain ⟨hs, hx', hall⟩ := ih (by omega) hst
    have hsilent : Leg.stop? ⟨t, a, u⟩ = none := by
      rw [Leg.stop?, List.getElem?_eq_none_iff]
      dsimp only
      omega
    exact ⟨hs, hx'.trans hx,
      List.forall_mem_append.mpr ⟨hall, List.forall_mem_singleton.mpr ⟨hst, ht, hsilent⟩⟩⟩

end Course

theorem dated_reaches (hr : Reaches (opened around engine interrupts) s)
    (hb : s.session.queuedStops.length ≤ Session.stopBound) : s.session.Dated := by
  induction hr with
  | refl => exact .inr rfl
  | step a hr h ih =>
    have m := turn_of_step hr h
    exact m.dated (ih (m.length_le.trans hb)) (terminated_of_step hr h) hb

namespace Course

/-- What is known to the table was issued. -/
theorem exists_issues (hc : (opened around engine interrupts : System E).Course legs t)
    (hm : h ∈ t.session.handles.handles) : ∃ x ∈ legs, x.Issues h := by
  induction hc with
  | rest => cases hm
  | @step legs t u a hc hs ih =>
    by_cases ht : h ∈ t.session.handles.handles
    · obtain ⟨x, hx, hi⟩ := ih ht
      exact ⟨x, List.mem_append_left _ hx, hi⟩
    · exact ⟨⟨t, a, u⟩, List.mem_concat_self, hm, ht⟩

theorem past (hr : Reaches (opened around engine interrupts) s) (hc : s.Course legs t)
    (hb : t.session.queuedStops.length ≤ Session.stopBound) (hp : s.session.Past h) :
    t.session.Past h := by
  induction hc with
  | rest => exact hp
  | step a hc hs ih =>
    have hr' := hc.reaches hr
    have m := turn_of_step hr' hs
    have hb' := m.length_le.trans hb
    exact m.past (stocked_reaches hr') (dated_reaches hr' hb') (dated_reaches (hr'.step a hs) hb)
      (terminated_of_step hr' hs) (ih hb')

/-- Two states of one generation, the later one of them in a stop, are in the same stop. -/
theorem same_stop (hr : Reaches (opened around engine interrupts) s) (hc : s.Course legs t)
    (hb : t.session.queuedStops.length ≤ Session.stopBound)
    (hg : t.session.handles.generation = s.session.handles.generation)
    (ht : t.session.runState = .stopped) :
    s.session.runState = .stopped ∧ s.session.handles.Extends t.session.handles ∧
      ∀ x ∈ legs, x.InStop := by
  have hle := hc.length_le hr
  have hdt := dated_reaches (hc.reaches hr) hb
  have hds := dated_reaches hr (hle.trans hb)
  have hne : t.session.runState ≠ .terminated := by simp [ht]
  have hgt := hdt.resolve_left hne
  have hgs := hds.resolve_left fun hx => hne (hc.terminated hr hx)
  exact hc.within hr (by omega) ht

/-- What is known to the table in a stop was issued in it. -/
theorem issued_in_stop (hc : (opened around engine interrupts : System E).Course legs t)
    (hb : t.session.queuedStops.length ≤ Session.stopBound)
    (hs : t.session.runState = .stopped) (hm : h ∈ t.session.handles.handles) :
    IssuedInStop legs h := by
  obtain ⟨x, hx, hi⟩ := hc.exists_issues hm
  obtain ⟨earlier, since, rfl⟩ := List.append_of_mem hx
  obtain ⟨he, hstep, ha⟩ := hc.split
  have hrx := (he.reaches (.refl _)).step _ hstep
  have hgx := (stocked_reaches hrx).handles.numbered.generation_of_mem hi.1
  have hgt := (stocked_reaches (hc.reaches (.refl _))).handles.numbered.generation_of_mem hm
  obtain ⟨hst, _, hall⟩ := ha.same_stop hrx hb (hgt.symm.trans hgx) hs
  exact ⟨earlier, x, since, rfl, hi, hst, hall⟩

/-- No handle is issued twice. -/
theorem issues_once (hc : (opened around engine interrupts : System E).Course legs t)
    (hb : t.session.queuedStops.length ≤ Session.stopBound) (h : Handle) :
    legs.Pairwise fun x y => x.Issues h → ¬ y.Issues h := by
  induction hc with
  | rest => exact .nil
  | @step legs t u a hc hs ih =>
    have hrt := hc.reaches (.refl _)
    have m := turn_of_step hrt hs
    refine List.pairwise_append.mpr ⟨ih (m.length_le.trans hb), List.pairwise_singleton _ _, ?_⟩
    intro x hx y hy hi hi'
    obtain rfl := List.mem_singleton.mp hy
    obtain ⟨earlier, since, rfl⟩ := List.append_of_mem hx
    obtain ⟨he, hstep, ha⟩ := hc.split
    have hrx := (he.reaches (.refl _)).step _ hstep
    have hau := ha.step a hs
    -- Both issue in the generation of the handle, so the second one is in the stop of the first.
    have hgx := (stocked_reaches hrx).handles.numbered.generation_of_mem hi.1
    have hgu := (stocked_reaches (hrt.step a hs)).handles.numbered.generation_of_mem hi'.1
    have hxt := ha.generation_le hrx
    have htu := m.generation_le (stocked_reaches hrt)
    obtain ⟨-, -, hall⟩ := hau.same_stop hrx hb (by omega) (m.stopped_of_issues hi'.1 hi'.2)
    have hst := (hall _ List.mem_concat_self).before
    obtain ⟨-, hext, -⟩ := ha.same_stop hrx (m.length_le.trans hb) (by omega) hst
    exact hi'.2 (hext.mem_handles hi.1)

end Course
end System
end Stepwise
