namespace Stepwise

/-- A queue that remembers everything that was ever put into it.  What the cursor has passed was
taken, what is behind it is pending. -/
structure Queue (α : Type) where
  log : List α := []
  taken : Nat := 0
deriving Repr, DecidableEq

namespace Queue

variable {α : Type}

/-- The entries that can still be taken, the oldest first. -/
def pending (q : Queue α) : List α :=
  q.log.drop q.taken

def push (q : Queue α) (a : α) : Queue α :=
  { q with log := q.log ++ [a] }

/-- The oldest pending entry and the queue without it. -/
def pop? (q : Queue α) : Option (α × Queue α) :=
  match q.log[q.taken]? with
  | some a => some (a, { q with taken := q.taken + 1 })
  | none => none

def discard (q : Queue α) : Queue α :=
  { q with taken := q.log.length }

@[simp] theorem log_push (q : Queue α) (a : α) : (q.push a).log = q.log ++ [a] := rfl

theorem pending_push (q : Queue α) (a : α) (h : q.taken ≤ q.log.length) :
    (q.push a).pending = q.pending ++ [a] := by
  simp [pending, push, List.drop_append_of_le_length h]

theorem pending_eq_cons_of_pop? {q r : Queue α} {a : α} (h : q.pop? = some (a, r)) :
    q.pending = a :: r.pending := by
  unfold pop? at h
  split at h
  · next b hb =>
    simp only [Option.some.injEq, Prod.mk.injEq] at h
    obtain ⟨rfl, rfl⟩ := h
    obtain ⟨hlt, hget⟩ := List.getElem?_eq_some_iff.1 hb
    simp only [pending]
    rw [← hget]
    exact List.drop_eq_getElem_cons hlt
  · simp at h

theorem pop?_eq_none_iff {q : Queue α} : q.pop? = none ↔ q.pending = [] := by
  unfold pop? pending
  split
  · next a ha =>
    obtain ⟨hlt, _⟩ := List.getElem?_eq_some_iff.1 ha
    simp only [reduceCtorEq, false_iff]
    intro h
    rw [List.drop_eq_nil_iff] at h
    omega
  · next h =>
    simp only [true_iff]
    exact List.drop_eq_nil_iff.2 (List.getElem?_eq_none_iff.1 h)

end Queue
end Stepwise
