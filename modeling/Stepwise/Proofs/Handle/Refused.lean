import Stepwise.Proofs.Handle.Ledger

namespace Stepwise
namespace HandleTable

variable {t : HandleTable} {h : Handle}

theorem check_cases (t : HandleTable) (h : Handle) :
    (h.number.toInt ≤ 0 ∧ t.check h = .error (.unknown h)) ∨
    (0 < h.number.toInt ∧ h.generation ≠ t.generation ∧ t.check h = .error (.stale h)) ∨
    (0 < h.number.toInt ∧ h.generation = t.generation ∧
      (t.check h = .error (.unknown h) ∨ ∃ i, t.check h = .ok i)) := by
  unfold check
  split
  · next hn => exact .inl ⟨hn, rfl⟩
  · next hp =>
    have hp : 0 < h.number.toInt := by omega
    split
    · next hg => exact .inr (.inl ⟨hp, hg, rfl⟩)
    · next hg =>
      refine .inr (.inr ⟨hp, Decidable.not_not.mp hg, ?_⟩)
      split
      · exact .inl rfl
      · exact .inr ⟨_, rfl⟩

theorem resolve_eq_error_iff {e : HandleError} :
    t.resolve h = .error e ↔ t.check h = .error e := by
  constructor
  · intro he
    cases hc : t.check h with
    | error d =>
      rw [resolve_eq_error hc] at he
      cases he
      rfl
    | ok i =>
      obtain ⟨c, hf⟩ := resolve_isOk_iff.mpr ⟨i, hc⟩
      rw [hf] at he
      cases he
  · exact resolve_eq_error

theorem resolve_cases (t : HandleTable) (h : Handle) :
    t.resolve h = .error (.stale h) ∨ t.resolve h = .error (.unknown h) ∨
      ∃ c, t.resolve h = .ok c := by
  rw [resolve_eq_error_iff, resolve_eq_error_iff, resolve_isOk_iff]
  rcases t.check_cases h with ⟨_, hc⟩ | ⟨_, _, hc⟩ | ⟨_, _, hc⟩
  · exact .inr (.inl hc)
  · exact .inl hc
  · exact .inr hc

theorem resolve_eq_stale_iff :
    t.resolve h = .error (.stale h) ↔ 0 < h.number.toInt ∧ h.generation ≠ t.generation := by
  rw [resolve_eq_error_iff]
  rcases t.check_cases h with ⟨hn, hc⟩ | ⟨hp, hg, hc⟩ | ⟨_, hg, hc | ⟨i, hc⟩⟩
  · simp [hc, Int.not_lt.mpr hn]
  · simp [hc, hp, hg]
  · simp [hc, hg]
  · simp [hc, hg]

theorem resolve_eq_unknown_iff :
    t.resolve h = .error (.unknown h) ↔
      h.number.toInt ≤ 0 ∨ (h.generation = t.generation ∧ ¬ ∃ i, t.check h = .ok i) := by
  rw [resolve_eq_error_iff]
  rcases t.check_cases h with ⟨hn, hc⟩ | ⟨hp, hg, hc⟩ | ⟨hp, hg, hc | ⟨i, hc⟩⟩
  · simp [hc, hn]
  · simp [hc, hg, Int.not_le.mpr hp]
  · simp [hc, hg]
  · simp [hc, Int.not_le.mpr hp]

namespace Ledger

/-- The generation after a sequence of uses: each reset begins one, until the last has begun. -/
def begun (uses : List Use) : Nat :=
  min (1 + uses.count .reset) (Handle.generationBound - 1)

theorem Current.generation_foldl {l : Ledger} (hl : l.Current) (uses : List Use) :
    (uses.foldl Ledger.use l).table.generation =
      min (l.table.generation + uses.count .reset) (Handle.generationBound - 1) := by
  induction uses generalizing l with
  | nil =>
    have hlt := hl.numbered.generation_lt
    simp only [List.foldl_nil, List.count_nil]
    omega
  | cons u rest ih =>
    rw [List.foldl_cons, ih (hl.use u)]
    by_cases hu : u = .reset
    · rw [hu, List.count_cons_self]
      simp only [Ledger.use, HandleTable.reset]
      omega
    · have hsame := ((Expired.use_cases l u).resolve_left hu).2
      rw [hsame, List.count_cons_of_ne hu]

theorem generation_after (uses : List Use) : (after uses).table.generation = begun uses :=
  Current.first.generation_foldl uses

theorem expired_after {uses : List Use} (hr : uses.count .reset ≤ Handle.generationBound - 2) :
    (after uses).Expired := by
  refine Expired.first.foldl Current.first ?_
  unfold Handle.generationBound at *
  change 1 + _ < _
  omega

/-- An issued handle is of a generation that has begun. -/
theorem Expired.generation_of_mem {l : Ledger} (he : l.Expired) (hl : l.Current)
    (hm : h ∈ l.issued) : 0 < h.generation ∧ h.generation ≤ l.table.generation := by
  have hb := hl.numbered.generation_lt
  rcases List.mem_append.mp hm with hx | hc
  · obtain ⟨generation, i, hpos, hlt, hi, rfl⟩ := he.earlier h hx
    rw [Handle.generation_of (Nat.lt_trans hlt hb) hi]
    exact ⟨hpos, Nat.le_of_lt hlt⟩
  · obtain ⟨i, hi, rfl⟩ := hl.mem_handles_iff.mp hc
    rw [Handle.generation_of hb (hl.index_lt hi)]
    exact ⟨hl.numbered.begun, Nat.le_refl _⟩

/-- Of the numbers of the generation, those are unknown that have the last bits of no current
handle. -/
theorem Current.resolve_eq_unknown_iff {l : Ledger} (hl : l.Current) (h : Handle) :
    l.table.resolve h = .error (.unknown h) ↔
      h.number.toInt ≤ 0 ∨ (h.generation = l.table.generation ∧
        ∀ k ∈ l.current.map (·.1), h.number.toInt % Handle.numberBound ≠ k.number.toInt) := by
  simp only [HandleTable.resolve_eq_unknown_iff, hl.check_isOk_iff, not_and, not_exists]
  constructor
  · intro hu
    rcases hu with hn | ⟨hg, hnone⟩
    · exact .inl hn
    · rcases Int.lt_or_le 0 h.number.toInt with hp | hn
      · exact .inr ⟨hg, hnone hp⟩
      · exact .inl hn
  · intro hu
    rcases hu with hn | ⟨hg, hnone⟩
    · exact .inl hn
    · exact .inr ⟨hg, fun _ => hnone⟩

theorem Current.resolve_isOk {l : Ledger} (hl : l.Current) (hc : h ∈ l.current.map (·.1)) :
    ∃ c, l.table.resolve h = .ok c := by
  obtain ⟨⟨_, c⟩, hm, rfl⟩ := List.mem_map.mp hc
  obtain ⟨children, hf⟩ := hl.resolve hm
  exact ⟨_, hf⟩

/-- An issued handle is stale or finds its container. -/
theorem Expired.issued_cases {l : Ledger} (he : l.Expired) (hl : l.Current) (hm : h ∈ l.issued) :
    (h ∈ l.expired ∧ l.table.resolve h = .error (.stale h)) ∨
      (h ∉ l.expired ∧ ∃ c, l.table.resolve h = .ok c) := by
  rcases List.mem_append.mp hm with hx | hc
  · exact .inl ⟨hx, resolve_eq_error (he.check hl hx)⟩
  · exact .inr ⟨fun hx => he.disjoint hl hx hc, hl.resolve_isOk hc⟩

/-- Positive numbers of another generation are stale whether they were issued or not.  Of the
generation itself, those are unknown that have the last bits of no current handle.  Until the
generations are used up, an unknown number was never issued, and an issued one is stale exactly if
it was issued before the last reset. -/
theorem refused_by_generation (uses : List Use) (h : Handle) :
    let l := after uses
    let stale := l.table.resolve h = .error (.stale h)
    let unknown := l.table.resolve h = .error (.unknown h)
    (stale ∨ unknown ∨ ∃ c, l.table.resolve h = .ok c) ∧
    (stale ↔ 0 < h.number.toInt ∧ h.generation ≠ begun uses) ∧
    (unknown ↔ h.number.toInt ≤ 0 ∨ (h.generation = begun uses ∧
      ∀ k ∈ l.current.map (·.1), h.number.toInt % Handle.numberBound ≠ k.number.toInt)) ∧
    (uses.count .reset ≤ Handle.generationBound - 2 →
      (unknown → h ∉ l.issued) ∧
      (h ∈ l.issued →
        0 < h.generation ∧ h.generation ≤ begun uses ∧ (stale ↔ h ∈ l.expired))) := by
  intro l stale unknown
  have hl : l.Current := current_after uses
  refine ⟨l.table.resolve_cases h, ?_, ?_, ?_⟩
  · rw [← generation_after]
    exact resolve_eq_stale_iff
  · rw [← generation_after]
    exact hl.resolve_eq_unknown_iff h
  · intro hr
    have he : l.Expired := expired_after hr
    constructor
    · intro hu hm
      rcases he.issued_cases hl hm with ⟨_, hs⟩ | ⟨_, c, hf⟩
      · cases hu.symm.trans hs
      · cases hu.symm.trans hf
    · intro hm
      have hgen := he.generation_of_mem hl hm
      rw [generation_after] at hgen
      refine ⟨hgen.1, hgen.2, ?_⟩
      rcases he.issued_cases hl hm with ⟨hx, hs⟩ | ⟨hx, c, hf⟩
      · exact iff_of_true hs hx
      · refine iff_of_false (fun hs => ?_) hx
        cases hs.symm.trans hf

/-- The only handle of the first generation, in the second. -/
theorem refused_by_generation_across_reset :
    let uses : List Use := [.allocate (.ofScope "Global" .global .all), .reset]
    let l := after uses
    uses.count .reset ≤ Handle.generationBound - 2 ∧ l.issued = [.of 1 1] ∧
      l.table.resolve (.of 1 1) = .error (.stale (.of 1 1)) ∧
      l.table.resolve (.of 2 1) = .error (.unknown (.of 2 1)) := by
  intro uses l
  have hr : uses.count .reset ≤ Handle.generationBound - 2 := by decide
  obtain ⟨-, -, -, hissued⟩ := refused_by_generation uses (.of 1 1)
  obtain ⟨-, -, hunknown, -⟩ := refused_by_generation uses (.of 2 1)
  refine ⟨hr, by decide, ?_, hunknown.mpr (.inr ⟨by decide, ?_⟩)⟩
  · exact ((hissued hr).2 (by decide)).2.2.mpr (by decide)
  · exact nofun

/-- Numbers that were never issued are stale: one whose generation ended before it reached the
index, one whose generation has not begun, and one of generation 0. -/
theorem never_issued_stale :
    let l := after [.allocate (.ofScope "Global" .global .all), .reset]
    ∀ h ∈ [Handle.of 1 2, .of 5 1, .of 0 7],
      h ∉ l.issued ∧ l.table.resolve h = .error (.stale h) := by
  decide

end Ledger
end HandleTable
end Stepwise
