import Stepwise.Proofs.Handle.Growth

namespace Stepwise

/-- The handles that come with a list of variables. -/
def Variable.handles (list : List Variable) : List Handle :=
  list.filterMap (·.handle)

namespace HandleTable

variable {t u : HandleTable} {h : Handle} {c : Container}

/-- The handles issued since the last reset, in their order. -/
def handles (t : HandleTable) : List Handle :=
  (List.range t.containers.size).map fun i => .of t.generation (i + 1)

theorem mem_handles_iff : h ∈ t.handles ↔
    ∃ i, i < t.containers.size ∧ h = .of t.generation (i + 1) := by
  simp [handles, eq_comm]

theorem handles_reset (t : HandleTable) : t.reset.handles = [] := rfl

theorem Extends.mem_handles (he : t.Extends u) (hm : h ∈ t.handles) : h ∈ u.handles := by
  obtain ⟨i, hi, rfl⟩ := mem_handles_iff.mp hm
  rw [← he.generation]
  exact mem_handles_iff.mpr ⟨i, Nat.lt_of_lt_of_le hi he.size_le, rfl⟩

namespace Numbered

theorem index_lt (ht : t.Numbered) {i : Nat} (hi : i < t.containers.size) :
    i + 1 < Handle.indexBound := by
  have hs := ht.size_lt
  omega

theorem generation_of_mem (ht : t.Numbered) (hm : h ∈ t.handles) :
    h.generation = t.generation := by
  obtain ⟨i, hi, rfl⟩ := mem_handles_iff.mp hm
  exact Handle.generation_of ht.generation_lt (ht.index_lt hi)

/-- An issued handle that another table knows was issued by that one as well. -/
theorem mem_of_check (ht : t.Numbered) (hm : h ∈ t.handles) {i : Nat} (hc : u.check h = .ok i) :
    h ∈ u.handles := by
  obtain ⟨j, hj, rfl⟩ := mem_handles_iff.mp hm
  obtain ⟨_, hg, hn, hi⟩ := check_eq_ok_iff.mp hc
  rw [Handle.generation_of ht.generation_lt (ht.index_lt hj)] at hg
  rw [Handle.index_of ht.generation_lt (ht.index_lt hj)] at hn
  obtain rfl : j = i := by omega
  rw [hg]
  exact mem_handles_iff.mpr ⟨j, hi, rfl⟩

end Numbered

/-- What containers remember refers to handles of the same table. -/
structure Stocked (t : HandleTable) : Prop where
  numbered : t.Numbered
  remembered : ∀ c ∈ t.containers, ∀ children, c.children = some children →
    Variable.handles children ⊆ t.handles

namespace Stocked

theorem first : Stocked {} :=
  ⟨.first, by simp⟩

theorem reset (ht : t.Stocked) : t.reset.Stocked :=
  ⟨ht.numbered.reset, by simp [HandleTable.reset]⟩

theorem invalidateChildren (ht : t.Stocked) : t.invalidateChildren.Stocked := by
  refine ⟨ht.numbered.invalidateChildren, ?_⟩
  intro c hc children hr
  obtain ⟨d, _, rfl⟩ := Array.mem_map.mp hc
  cases hr

theorem allocate (ht : t.Stocked) (hn : c.children = none) :
    (t.allocate c).2.Stocked ∧ t.Extends (t.allocate c).2 ∧
      ∀ h, (t.allocate c).1 = some h → h ∈ (t.allocate c).2.handles := by
  rcases t.allocate_cases c with ⟨hlt, ha⟩ | ⟨_, ha⟩
  · obtain ⟨_, hs, hnum, hx, _⟩ | ⟨hf, _⟩ := allocate_spec ht.numbered c
    · rw [ha]
      refine ⟨⟨hnum, ?_⟩, hx, ?_⟩
      · intro d hd children hr h hh
        rcases Array.mem_push.mp hd with hd | rfl
        · exact hx.mem_handles (ht.remembered d hd children hr hh)
        · rw [hn] at hr
          cases hr
      · intro h hh
        cases hh
        exact mem_handles_iff.mpr ⟨t.containers.size, by simp, rfl⟩
    · exact absurd hlt (Nat.not_lt.mpr hf)
  · rw [ha]
    exact ⟨ht, .refl t, nofun⟩

theorem setChildren (ht : t.Stocked) {children : List Variable}
    (hc : Variable.handles children ⊆ t.handles) (hu : t.setChildren h children = .ok u) :
    u.Stocked ∧ t.Extends u := by
  rw [setChildren_eq_write] at hu
  obtain ⟨c, hr⟩ := resolve_isOk_iff.mpr (write_isOk_iff.mp ⟨u, hu⟩)
  obtain ⟨v, hv, hn, hx, hm⟩ := setChildren_spec ht.numbered hr children
  cases hu.symm.trans hv
  refine ⟨⟨hn, ?_⟩, hx⟩
  intro d hd list hl h hh
  rcases hm d hd with hd | rfl
  · exact hx.mem_handles (ht.remembered d hd list hl hh)
  · cases hl
    exact hx.mem_handles (hc hh)

end Stocked
end HandleTable
end Stepwise
