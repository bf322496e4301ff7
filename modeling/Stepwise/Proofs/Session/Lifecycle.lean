import Stepwise.Session.Basic
import Mathlib.Data.List.Chain

namespace Stepwise

def SessionEvent.stop? : SessionEvent → Option StoppedEvent
  | .stopped stop => some stop
  | _ => none

def SessionEvent.outcome? : SessionEvent → Option Outcome
  | .executionCompleted outcome => some outcome
  | _ => none

/-- What may come after what: a halt is left or the session ends, and nothing but a halt is left. -/
def SessionEvent.Precedes (a b : SessionEvent) : Prop :=
  (a.isStopped = true → b = .running ∨ b = .terminated) ∧ (b = .running → a.isStopped = true)

/-- One execution: the halts that were entered and left, and its outcome. -/
structure Round where
  halts : List StoppedEvent
  outcome : Outcome

/-- The events of a halt that was left again. -/
def visit (stop : StoppedEvent) : List SessionEvent :=
  [.stopped stop, .running]

def Round.events (r : Round) : List SessionEvent :=
  r.halts.flatMap visit ++ [.executionCompleted r.outcome]

/-- Nothing, or the end of the session, after which one execution at most completes. -/
def Ending (log : List SessionEvent) : Prop :=
  log = [] ∨ log = [.terminated] ∨ ∃ outcome, log = [.terminated, .executionCompleted outcome]

/-- The life of a session as its events tell it: up to its end it is the beginning of a sequence of
rounds. -/
structure Lifecycle (log : List SessionEvent) : Prop where
  shape : ∃ before after, log = before ++ after ∧
    (∃ rounds : List Round, before <+: rounds.flatMap Round.events) ∧ Ending after
  chain : log.IsChain SessionEvent.Precedes
  first : log.head? ≠ some .running
  once : log.count .terminated ≤ 1

/-- A log of a session that has not ended, and whether the engine is halted at its end. -/
inductive Unfolding : Bool → List SessionEvent → Prop
  | nil : Unfolding false []
  | stopped {log : List SessionEvent} (stop : StoppedEvent) :
    Unfolding false log → Unfolding true (log ++ [.stopped stop])
  | running {log : List SessionEvent} : Unfolding true log → Unfolding false (log ++ [.running])
  | completed {log : List SessionEvent} (outcome : Outcome) :
    Unfolding false log → Unfolding false (log ++ [.executionCompleted outcome])

namespace Unfolding

variable {halted : Bool} {log : List SessionEvent}

/-- Complete rounds, and then the halts of one that is not complete. -/
theorem rounds (h : Unfolding halted log) :
    ∃ (rounds : List Round) (halts : List StoppedEvent) (last : Option StoppedEvent),
      last.isSome = halted ∧
      log = rounds.flatMap Round.events ++ halts.flatMap visit ++ last.toList.map .stopped := by
  induction h with
  | nil => exact ⟨[], [], none, rfl, rfl⟩
  | stopped stop _ ih =>
    obtain ⟨rounds, halts, last, hl, rfl⟩ := ih
    obtain rfl := Option.isSome_eq_false_iff.mp hl |> Option.isNone_iff_eq_none.mp
    exact ⟨rounds, halts, some stop, rfl, by simp⟩
  | running _ ih =>
    obtain ⟨rounds, halts, last, hl, rfl⟩ := ih
    obtain ⟨stop, rfl⟩ := Option.isSome_iff_exists.mp hl
    exact ⟨rounds, halts ++ [stop], none, rfl, by simp [visit]⟩
  | completed outcome _ ih =>
    obtain ⟨rounds, halts, last, hl, rfl⟩ := ih
    obtain rfl := Option.isSome_eq_false_iff.mp hl |> Option.isNone_iff_eq_none.mp
    exact ⟨rounds ++ [⟨halts, outcome⟩], [], none, rfl, by simp [Round.events]⟩

/-- The round that is not complete could still be completed. -/
theorem isPrefix (h : Unfolding halted log) :
    ∃ rounds : List Round, log <+: rounds.flatMap Round.events := by
  obtain ⟨rounds, halts, last, _, rfl⟩ := h.rounds
  refine ⟨rounds ++ [⟨halts ++ last.toList, .completed⟩], ?_⟩
  cases last with
  | none => exact ⟨[.executionCompleted .completed], by simp [Round.events]⟩
  | some stop => exact ⟨[.running, .executionCompleted .completed], by simp [Round.events, visit]⟩

/-- The log ends in a halt exactly if the engine is halted. -/
theorem getLast? (h : Unfolding halted log) {last : SessionEvent} (hl : last ∈ log.getLast?) :
    last.isStopped = halted := by
  cases h <;> simp at hl <;> subst hl <;> rfl

theorem not_terminated (h : Unfolding halted log) : SessionEvent.terminated ∉ log := by
  induction h with
  | nil => simp
  | stopped | running | completed => simp_all

theorem ne_nil (h : Unfolding true log) : log ≠ [] := by
  cases h
  simp

theorem first_append {before after : List SessionEvent} (hb : before.head? ≠ some .running)
    (ha : after.head? ≠ some .running) : (before ++ after).head? ≠ some .running := by
  rw [List.head?_append]
  cases h : before.head? with
  | none => exact ha
  | some e =>
    rw [h] at hb
    exact hb

theorem first (h : Unfolding halted log) : log.head? ≠ some .running := by
  induction h with
  | nil => simp
  | stopped stop _ ih => exact first_append ih (by simp)
  | running hu ih =>
    rw [List.head?_append_of_ne_nil _ hu.ne_nil]
    exact ih
  | completed outcome _ ih => exact first_append ih (by simp)

/-- More may follow if its first event may follow the last one. -/
theorem chain_append {after : List SessionEvent} (h : Unfolding halted log)
    (hc : log.IsChain SessionEvent.Precedes) (ha : after.IsChain SessionEvent.Precedes)
    (hf : ∀ e ∈ after.head?,
      (halted = true → e = .running ∨ e = .terminated) ∧ (e = .running → halted = true)) :
    (log ++ after).IsChain SessionEvent.Precedes := by
  refine List.isChain_append.mpr ⟨hc, ha, ?_⟩
  intro last hl e he
  unfold SessionEvent.Precedes
  rw [h.getLast? hl]
  exact hf e he

theorem chain (h : Unfolding halted log) : log.IsChain SessionEvent.Precedes := by
  induction h with
  | nil => exact .nil
  | stopped stop hu ih => exact hu.chain_append ih (.singleton _) (by simp)
  | running hu ih => exact hu.chain_append ih (.singleton _) (by simp)
  | completed outcome hu ih => exact hu.chain_append ih (.singleton _) (by simp)

theorem lifecycle {after : List SessionEvent} (h : Unfolding halted log) (ha : Ending after) :
    Lifecycle (log ++ after) where
  shape := ⟨log, after, rfl, h.isPrefix, ha⟩
  chain := by
    rcases ha with rfl | rfl | ⟨outcome, rfl⟩
    · exact h.chain_append h.chain .nil (by simp)
    · exact h.chain_append h.chain (.singleton _) (by simp)
    · refine h.chain_append h.chain ?_ (by simp)
      simp [SessionEvent.Precedes, SessionEvent.isStopped]
  first := by
    rcases ha with rfl | rfl | ⟨outcome, rfl⟩ <;> exact first_append h.first (by simp)
  once := by
    rw [List.count_append, List.count_eq_zero_of_not_mem h.not_terminated]
    rcases ha with rfl | rfl | ⟨outcome, rfl⟩ <;> simp

end Unfolding
end Stepwise
