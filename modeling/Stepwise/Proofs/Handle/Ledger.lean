import Mathlib.Data.List.Nodup
import Stepwise.Proofs.Handle.Table

namespace Stepwise

namespace HandleTable

/-- What can be done with a table. -/
inductive Use where
  | allocate (c : Container)
  | resolve (h : Handle)
  | write (h : Handle) (children : Option (List Variable))
  | invalidateChildren
  | reset
deriving Repr, DecidableEq

/-- The table with the handles it has issued since the last reset, each with the container it was
issued for, and those issued before. -/
structure Ledger where
  table : HandleTable := {}
  current : List (Handle × Container) := []
  expired : List Handle := []

namespace Ledger

/-- All handles that were ever issued. -/
def issued (l : Ledger) : List Handle :=
  l.expired ++ l.current.map (·.1)

def use (l : Ledger) : Use → Ledger
  | .allocate c =>
    match l.table.allocate c with
    | (some h, table) => { l with table, current := l.current ++ [(h, c)] }
    | (none, table) => { l with table }
  | .resolve _ => l
  | .write h children =>
    match l.table.write h children with
    | .ok table => { l with table }
    | .error _ => l
  | .invalidateChildren => { l with table := l.table.invalidateChildren }
  | .reset => { table := l.table.reset, current := [], expired := l.issued }

def after (uses : List Use) : Ledger :=
  uses.foldl use {}

/-- The table holds what the current handles were issued for, in their order. -/
structure Current (l : Ledger) : Prop where
  numbered : l.table.Numbered
  size : l.table.containers.size = l.current.length
  kept : ∀ (i : Nat) (h : Handle) (c : Container), l.current[i]? = some (h, c) →
    h = .of l.table.generation (i + 1) ∧
      ∃ children, l.table.containers[i]? = some { c with children }

namespace Current

variable {l : Ledger}

theorem first : Current {} :=
  ⟨.first, rfl, nofun⟩

theorem allocate (hl : l.Current) (c : Container) : (l.use (.allocate c)).Current := by
  rcases l.table.allocate_cases c with ⟨hs, ha⟩ | ⟨_, ha⟩
  · simp only [use, ha]
    refine ⟨⟨hl.numbered.begun, hl.numbered.generation_lt, by simpa using hs⟩,
      by simp [hl.size], ?_⟩
    intro i h d hi
    rw [Array.getElem?_push]
    rcases Nat.lt_trichotomy i l.current.length with hlt | rfl | hgt
    · rw [List.getElem?_append_left hlt] at hi
      rw [if_neg (by rw [hl.size]; omega)]
      exact hl.kept i h d hi
    · rw [List.getElem?_concat_length] at hi
      cases hi
      rw [if_pos hl.size.symm, hl.size]
      exact ⟨rfl, c.children, rfl⟩
    · rw [List.getElem?_eq_none (by simp; omega)] at hi
      cases hi
  · simp only [use, ha]
    exact hl

/-- The children of containers come and go. -/
theorem modify (hl : l.Current) {containers : Array Container}
    (hs : containers.size = l.table.containers.size)
    (hc : ∀ (i : Nat) (c : Container), l.table.containers[i]? = some c →
      ∃ children, containers[i]? = some { c with children }) :
    Current { l with table := { l.table with containers } } := by
  refine ⟨⟨hl.numbered.begun, hl.numbered.generation_lt, ?_⟩, hs.trans hl.size, ?_⟩
  · rw [hs]
    exact hl.numbered.size_lt
  · intro i h c hi
    obtain ⟨hh, children, hk⟩ := hl.kept i h c hi
    exact ⟨hh, hc i { c with children } hk⟩

theorem write (hl : l.Current) (h : Handle) (children : Option (List Variable)) :
    (l.use (.write h children)).Current := by
  simp only [use, HandleTable.write]
  cases l.table.check h with
  | error e => exact hl
  | ok i =>
    refine hl.modify (by simp) ?_
    intro j c hc
    rw [Array.getElem?_modify, hc]
    split
    · exact ⟨children, rfl⟩
    · exact ⟨c.children, rfl⟩

theorem invalidateChildren (hl : l.Current) : (l.use .invalidateChildren).Current := by
  refine hl.modify (by simp) ?_
  intro i c hc
  exact ⟨none, by simp [hc]⟩

theorem use (hl : l.Current) (u : Use) : (l.use u).Current := by
  cases u with
  | allocate c => exact hl.allocate c
  | resolve h => exact hl
  | write h children => exact hl.write h children
  | invalidateChildren => exact hl.invalidateChildren
  | reset => exact ⟨hl.numbered.reset, rfl, nofun⟩

theorem foldl (hl : l.Current) (uses : List Use) : (uses.foldl Ledger.use l).Current := by
  induction uses generalizing l with
  | nil => exact hl
  | cons u rest ih => exact ih (hl.use u)

theorem resolve (hl : l.Current) {h : Handle} {c : Container} (hm : (h, c) ∈ l.current) :
    ∃ children, l.table.resolve h = .ok { c with children } := by
  obtain ⟨i, hi⟩ := List.mem_iff_getElem?.mp hm
  obtain ⟨rfl, children, hc⟩ := hl.kept i h c hi
  exact ⟨children, resolve_of hl.numbered hc⟩

/-- The current handles are numbered from 1. -/
theorem handles (hl : l.Current) :
    l.current.map (·.1) =
      (List.range l.current.length).map fun i => .of l.table.generation (i + 1) := by
  apply List.ext_getElem?
  intro i
  rw [List.getElem?_map, List.getElem?_map]
  by_cases hi : i < l.current.length
  · have hc := (hl.kept i _ _ (List.getElem?_eq_getElem hi)).1
    simpa [hi] using hc
  · simp [hi]

theorem mem_handles_iff (hl : l.Current) {h : Handle} :
    h ∈ l.current.map (·.1) ↔
      ∃ i < l.table.containers.size, h = .of l.table.generation (i + 1) := by
  rw [hl.handles, hl.size]
  simp [eq_comm]

theorem index_lt (hl : l.Current) {i : Nat} (hi : i < l.table.containers.size) :
    i + 1 < Handle.indexBound := by
  have hs := hl.numbered.size_lt
  omega

theorem nodup (hl : l.Current) : (l.current.map (·.1)).Nodup := by
  rw [hl.handles]
  refine List.nodup_range.map_on ?_
  intro i hi j hj he
  rw [List.mem_range, ← hl.size] at hi hj
  have hn := congrArg Handle.index he
  rw [Handle.index_of hl.numbered.generation_lt (hl.index_lt hi),
    Handle.index_of hl.numbered.generation_lt (hl.index_lt hj)] at hn
  exact Nat.succ.inj hn

/-- A number finds a container exactly if its last 52 bits are those of a current handle. -/
theorem check_isOk_iff (hl : l.Current) (h : Handle) :
    (∃ i, l.table.check h = .ok i) ↔
      0 < h.number.toInt ∧
        ∃ k ∈ l.current.map (·.1), h.number.toInt % Handle.numberBound = k.number.toInt := by
  constructor
  · rintro ⟨i, hc⟩
    obtain ⟨hp, hg, hn, hi⟩ := check_eq_ok_iff.mp hc
    exact ⟨hp, _, hl.mem_handles_iff.mpr ⟨i, hi, rfl⟩,
      (h.parts_eq_iff hl.numbered.generation_lt (hl.index_lt hi)).mp ⟨hg, hn⟩⟩
  · rintro ⟨hp, k, hk, he⟩
    obtain ⟨i, hi, rfl⟩ := hl.mem_handles_iff.mp hk
    obtain ⟨hg, hn⟩ := (h.parts_eq_iff hl.numbered.generation_lt (hl.index_lt hi)).mpr he
    exact ⟨i, check_eq_ok_iff.mpr ⟨hp, hg, hn, hi⟩⟩

end Current

/-- Handles that were issued before the last reset are of earlier generations. -/
structure Expired (l : Ledger) : Prop where
  earlier : ∀ h ∈ l.expired, ∃ generation i, 0 < generation ∧ generation < l.table.generation ∧
    i + 1 < Handle.indexBound ∧ h = .of generation (i + 1)
  nodup : l.expired.Nodup

namespace Expired

variable {l : Ledger}

theorem first : Expired {} :=
  ⟨nofun, .nil⟩

theorem disjoint (he : l.Expired) (hl : l.Current) {h : Handle} (hx : h ∈ l.expired) :
    h ∉ l.current.map (·.1) := by
  intro hm
  obtain ⟨generation, i, _, hlt, hi, rfl⟩ := he.earlier h hx
  obtain ⟨j, hj, hh⟩ := hl.mem_handles_iff.mp hm
  have hg := congrArg Handle.generation hh
  have hb := hl.numbered.generation_lt
  rw [Handle.generation_of (Nat.lt_trans hlt hb) hi, Handle.generation_of hb (hl.index_lt hj)] at hg
  omega

theorem nodup_issued (he : l.Expired) (hl : l.Current) : l.issued.Nodup :=
  he.nodup.append hl.nodup fun _ hx => he.disjoint hl hx

/-- A reset begins a generation, unless the last one has begun. -/
theorem reset (he : l.Expired) (hl : l.Current)
    (hg : l.table.generation + 1 < Handle.generationBound) : (l.use .reset).Expired := by
  have hn : l.table.reset.generation = l.table.generation + 1 := by
    simp only [HandleTable.reset]
    omega
  refine ⟨?_, he.nodup_issued hl⟩
  intro h hm
  simp only [use] at hm ⊢
  rw [hn]
  rcases List.mem_append.mp hm with hx | hc
  · obtain ⟨generation, i, hp, hlt, hi, rfl⟩ := he.earlier h hx
    exact ⟨generation, i, hp, by omega, hi, rfl⟩
  · obtain ⟨i, hi, rfl⟩ := hl.mem_handles_iff.mp hc
    exact ⟨l.table.generation, i, hl.numbered.begun, by omega, hl.index_lt hi, rfl⟩

/-- All other uses stay in the generation. -/
theorem use_cases (l : Ledger) (u : Use) :
    u = .reset ∨ ((l.use u).expired = l.expired ∧
      (l.use u).table.generation = l.table.generation) := by
  cases u with
  | allocate c =>
    rcases l.table.allocate_cases c with ⟨_, ha⟩ | ⟨_, ha⟩ <;> simp [use, ha]
  | write h children =>
    simp only [use, HandleTable.write]
    cases l.table.check h <;> simp [bind, Except.bind]
  | resolve h => exact .inr ⟨rfl, rfl⟩
  | invalidateChildren => exact .inr ⟨rfl, rfl⟩
  | reset => exact .inl rfl

theorem foldl (he : l.Expired) (hl : l.Current) {uses : List Use}
    (hr : l.table.generation + uses.count .reset < Handle.generationBound) :
    (uses.foldl Ledger.use l).Expired := by
  induction uses generalizing l with
  | nil => exact he
  | cons u rest ih =>
    rcases use_cases l u with rfl | ⟨hx, hg⟩
    · rw [List.count_cons_self] at hr
      refine ih (he.reset hl (by omega)) (hl.use _) ?_
      simp only [use, HandleTable.reset]
      omega
    · have hu : (l.use u).Expired := ⟨by rw [hx, hg]; exact he.earlier, hx ▸ he.nodup⟩
      refine ih hu (hl.use u) ?_
      have hc : rest.count .reset ≤ (u :: rest).count .reset :=
        List.Sublist.count_le _ (List.sublist_cons_self u rest)
      omega

theorem check (he : l.Expired) (hl : l.Current) {h : Handle} (hx : h ∈ l.expired) :
    l.table.check h = .error (.stale h) := by
  obtain ⟨generation, i, _, hlt, hi, rfl⟩ := he.earlier h hx
  exact check_of_other (Nat.ne_of_lt hlt) (Nat.lt_trans hlt hl.numbered.generation_lt) hi

end Expired

theorem current_after (uses : List Use) : (after uses).Current :=
  Current.first.foldl uses

/-- Until the generations are used up, no handle is issued twice, a current one finds the container
it was issued for, and one that was issued before the last reset is stale. -/
theorem issued_told_apart (uses : List Use)
    (hr : uses.count .reset ≤ Handle.generationBound - 2) :
    let l := after uses
    (∀ h ∈ l.issued, 0 < h.number.toInt) ∧ l.issued.Nodup ∧
    (∀ h c, (h, c) ∈ l.current →
      (∃ children, l.table.resolve h = .ok { c with children }) ∧
      ∀ children, ∃ t, l.table.write h children = .ok t) ∧
    (∀ h ∈ l.expired, l.table.resolve h = .error (.stale h) ∧
      ∀ children, l.table.write h children = .error (.stale h)) ∧
    ∀ c, (l.table.allocate c).1 = none → (l.table.allocate c).2 = l.table := by
  intro l
  have hl : l.Current := current_after uses
  have he : l.Expired := by
    refine Expired.first.foldl Current.first ?_
    unfold Handle.generationBound at *
    change 1 + _ < _
    omega
  refine ⟨?_, he.nodup_issued hl, ?_, ?_, ?_⟩
  · intro h hm
    rcases List.mem_append.mp hm with hx | hc
    · obtain ⟨generation, i, _, hlt, hi, rfl⟩ := he.earlier h hx
      exact Handle.pos_of (Nat.lt_trans hlt hl.numbered.generation_lt) hi (Nat.succ_pos i)
    · obtain ⟨i, hi, rfl⟩ := hl.mem_handles_iff.mp hc
      exact Handle.pos_of hl.numbered.generation_lt (hl.index_lt hi) (Nat.succ_pos i)
  · intro h c hm
    obtain ⟨children, hk⟩ := hl.resolve hm
    exact ⟨⟨children, hk⟩, fun _ => write_isOk_iff.mpr (resolve_isOk_iff.mp ⟨_, hk⟩)⟩
  · intro h hx
    have hs := he.check hl hx
    exact ⟨resolve_eq_error hs, write_eq_error hs⟩
  · intro c hn
    rcases l.table.allocate_cases c with ⟨_, ha⟩ | ⟨_, ha⟩ <;> rw [ha] at hn ⊢
    cases hn

/-- A handle of a scope, one of a value in the next generation, and its children. -/
theorem issued_told_apart_across_reset :
    let uses : List Use :=
      [.allocate (.ofScope "Global" .global .all), .reset, .allocate (.ofValue "$x" ⟨7⟩ .global),
        .write (.of 2 1) (some []), .resolve (.of 1 1), .invalidateChildren]
    let l := after uses
    uses.count .reset ≤ Handle.generationBound - 2 ∧
    l.expired = [.of 1 1] ∧ l.current.map (·.1) = [.of 2 1] ∧ l.issued.Nodup ∧
      l.table.resolve (.of 1 1) = .error (.stale (.of 1 1)) ∧
      ∃ children, l.table.resolve (.of 2 1) =
        .ok { Container.ofValue "$x" ⟨7⟩ .global with children } := by
  intro uses l
  have hr : uses.count .reset ≤ Handle.generationBound - 2 := by decide
  obtain ⟨_, hn, hc, hx, _⟩ := issued_told_apart uses hr
  refine ⟨hr, by decide, by decide, hn, (hx _ (by decide)).1, (hc _ _ (by decide)).1⟩

/-- Numbers of up to 52 bits find a container only if they were issued since the last reset; of
other numbers only the last 52 bits count. -/
theorem found_iff_last_bits_issued (uses : List Use) (h : Handle)
    (children : Option (List Variable)) :
    let l := after uses
    let found := ∃ c, l.table.resolve h = .ok c
    (found ↔ 0 < h.number.toInt ∧
      ∃ k ∈ l.current.map (·.1), h.number.toInt % Handle.numberBound = k.number.toInt) ∧
    (found ↔ ∃ t, l.table.write h children = .ok t) ∧
    (h.number.toInt < Handle.numberBound → (found ↔ h ∈ l.current.map (·.1))) := by
  intro l found
  have hl : l.Current := current_after uses
  have hf : found ↔ 0 < h.number.toInt ∧
      ∃ k ∈ l.current.map (·.1), h.number.toInt % Handle.numberBound = k.number.toInt :=
    resolve_isOk_iff.trans (hl.check_isOk_iff h)
  refine ⟨hf, resolve_isOk_iff.trans write_isOk_iff.symm, ?_⟩
  intro hb
  constructor
  · intro hc
    obtain ⟨hp, k, hk, he⟩ := hf.mp hc
    rw [Int.emod_eq_of_lt (Int.le_of_lt hp) hb] at he
    exact Handle.eq_of_toInt_eq he ▸ hk
  · intro hm
    obtain ⟨⟨_, c⟩, hk, rfl⟩ := List.mem_map.mp hm
    obtain ⟨children, hc⟩ := hl.resolve hk
    exact ⟨_, hc⟩

/-- A number above 52 bits finds a container that it was not issued for. -/
theorem forged_number_found :
    let l := after [.allocate (.ofScope "Global" .global .all)]
    let forged : Handle := ⟨0x10000000100001⟩
    forged ∉ l.issued ∧ l.table.resolve forged = .ok (.ofScope "Global" .global .all) := by
  decide

end Ledger
end HandleTable
end Stepwise
