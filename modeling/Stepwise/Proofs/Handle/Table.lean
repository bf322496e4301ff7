import Stepwise.Handle

namespace Stepwise

namespace Handle

variable {generation index : Nat}

/-- Handles are numbers of 52 bits: what is above these does not count. -/
def numberBound : Nat := generationBound * indexBound

theorem toInt_of (hg : generation < generationBound) (hi : index < indexBound) :
    (Handle.of generation index).number.toInt = generation * indexBound + index := by
  unfold generationBound indexBound at *
  have hn : generation * 0x100000 + index < 2 ^ 63 := by omega
  exact Int64.toInt_ofNat_of_lt hn

theorem generation_of (hg : generation < generationBound) (hi : index < indexBound) :
    (Handle.of generation index).generation = generation := by
  rw [Handle.generation, toInt_of hg hi]
  unfold generationBound indexBound at *
  omega

theorem index_of (hg : generation < generationBound) (hi : index < indexBound) :
    (Handle.of generation index).index = index := by
  rw [Handle.index, toInt_of hg hi]
  unfold generationBound indexBound at *
  omega

theorem pos_of (hg : generation < generationBound) (hi : index < indexBound) (h : 0 < index) :
    0 < (Handle.of generation index).number.toInt := by
  rw [toInt_of hg hi, indexBound]
  omega

theorem eq_of_toInt_eq {h k : Handle} (he : h.number.toInt = k.number.toInt) : h = k := by
  cases h
  cases k
  exact congrArg Handle.mk (Int64.toInt_inj.mp he)

/-- The parts of a number that a table looks at are its last 52 bits. -/
theorem parts_eq_iff (h : Handle) (hg : generation < generationBound) (hi : index < indexBound) :
    h.generation = generation ∧ h.index = index ↔
      h.number.toInt % numberBound = (Handle.of generation index).number.toInt := by
  rw [toInt_of hg hi, Handle.generation, Handle.index]
  unfold numberBound generationBound indexBound at *
  omega

end Handle

namespace HandleTable

variable {t u : HandleTable} {h : Handle} {c : Container} {i : Nat}

/-- The bounds within which the handles of a table are told apart. -/
structure Numbered (t : HandleTable) : Prop where
  begun : 0 < t.generation
  generation_lt : t.generation < Handle.generationBound
  size_lt : t.containers.size < Handle.indexBound

theorem Numbered.first : Numbered {} :=
  ⟨by decide, by decide, by decide⟩

theorem Numbered.reset (ht : t.Numbered) : t.reset.Numbered := by
  obtain ⟨hb, hg, _⟩ := ht
  unfold Handle.generationBound at hg
  refine ⟨?_, ?_, (by decide : 0 < Handle.indexBound)⟩ <;>
    simp only [HandleTable.reset, Handle.generationBound] <;> omega

theorem check_eq_ok_iff : t.check h = .ok i ↔
    0 < h.number.toInt ∧ h.generation = t.generation ∧ h.index = i + 1 ∧ i < t.containers.size := by
  unfold check
  split
  · simp
    omega
  · split
    · simp
      omega
    · split
      · simp
        omega
      · simp
        omega

theorem resolve_eq_ok_iff :
    t.resolve h = .ok c ↔ ∃ i, t.check h = .ok i ∧ t.containers[i]? = some c := by
  unfold resolve
  cases hc : t.check h with
  | error e => simp [bind, Except.bind]
  | ok i =>
    have hi : i < t.containers.size := (check_eq_ok_iff.mp hc).2.2.2
    simp [bind, Except.bind, hi]

/-- Writes the children of the container that a handle stands for; nothing else of a container is
ever written. -/
def write (t : HandleTable) (h : Handle) (children : Option (List Variable)) :
    Except HandleError HandleTable := do
  let i ← t.check h
  .ok { t with containers := t.containers.modify i fun c => { c with children } }

theorem setChildren_eq_write (t : HandleTable) (h : Handle) (children : List Variable) :
    t.setChildren h children = t.write h (some children) := rfl

theorem resolve_eq_error {e : HandleError} (hc : t.check h = .error e) :
    t.resolve h = .error e := by
  simp [resolve, hc, bind, Except.bind]

theorem write_eq_error {e : HandleError} (hc : t.check h = .error e)
    (children : Option (List Variable)) : t.write h children = .error e := by
  simp [write, hc, bind, Except.bind]

theorem resolve_isOk_iff :
    (∃ c, t.resolve h = .ok c) ↔ ∃ i, t.check h = .ok i := by
  constructor
  · rintro ⟨c, hc⟩
    obtain ⟨i, hi, _⟩ := resolve_eq_ok_iff.mp hc
    exact ⟨i, hi⟩
  · rintro ⟨i, hi⟩
    have hlt := (check_eq_ok_iff.mp hi).2.2.2
    exact ⟨_, resolve_eq_ok_iff.mpr ⟨i, hi, Array.getElem?_eq_getElem hlt⟩⟩

theorem write_isOk_iff {children : Option (List Variable)} :
    (∃ u, t.write h children = .ok u) ↔ ∃ i, t.check h = .ok i := by
  unfold write
  cases t.check h <;> simp [bind, Except.bind]

/-- The handle of a position in the generation of the table. -/
theorem check_of (ht : t.Numbered) (hi : i < t.containers.size) :
    t.check (.of t.generation (i + 1)) = .ok i := by
  have hb : i + 1 < Handle.indexBound := by
    have hs := ht.size_lt
    omega
  exact check_eq_ok_iff.mpr ⟨Handle.pos_of ht.generation_lt hb (Nat.succ_pos i),
    Handle.generation_of ht.generation_lt hb, Handle.index_of ht.generation_lt hb, hi⟩

theorem resolve_of (ht : t.Numbered) (hc : t.containers[i]? = some c) :
    t.resolve (.of t.generation (i + 1)) = .ok c := by
  obtain ⟨hi, _⟩ := Array.getElem?_eq_some_iff.mp hc
  exact resolve_eq_ok_iff.mpr ⟨i, check_of ht hi, hc⟩

/-- The handle of another generation. -/
theorem check_of_other {generation : Nat} (hn : generation ≠ t.generation)
    (hg : generation < Handle.generationBound) (hi : i + 1 < Handle.indexBound) :
    t.check (.of generation (i + 1)) = .error (.stale (.of generation (i + 1))) := by
  have hp := Handle.pos_of hg hi (Nat.succ_pos i)
  have hh := Handle.generation_of hg hi
  rw [check, if_neg (by omega), if_pos (by rw [hh]; exact hn)]

theorem allocate_cases (t : HandleTable) (c : Container) :
    (t.containers.size + 1 < Handle.indexBound ∧
      t.allocate c = (some (.of t.generation (t.containers.size + 1)),
        { t with containers := t.containers.push c })) ∨
    (Handle.indexBound ≤ t.containers.size + 1 ∧ t.allocate c = (none, t)) := by
  unfold allocate
  dsimp only
  split
  · next h => exact .inl ⟨h, rfl⟩
  · next h => exact .inr ⟨by omega, rfl⟩

end HandleTable
end Stepwise
