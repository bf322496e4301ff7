import Stepwise.Proofs.Handle.Table

namespace Stepwise.HandleTable

variable {t u : HandleTable} {h : Handle} {c : Container} {kind : ContainerKind}

/-- What is done to a table until the next reset. -/
structure Extends (t u : HandleTable) : Prop where
  generation : u.generation = t.generation
  containers : ∀ (i : Nat) (c : Container), t.containers[i]? = some c →
    ∃ children, u.containers[i]? = some { c with children }

/-- The handle stands for something that is listed in this way. -/
def Opens (t : HandleTable) (h : Handle) (kind : ContainerKind) : Prop :=
  ∃ c, t.resolve h = .ok c ∧ c.kind = kind

/-- No more handles can be issued. -/
def Full (t : HandleTable) : Prop :=
  Handle.indexBound ≤ t.containers.size + 1

theorem mem_of_resolve (hr : t.resolve h = .ok c) : c ∈ t.containers := by
  obtain ⟨i, _, hc⟩ := resolve_eq_ok_iff.mp hr
  exact Array.mem_of_getElem? hc

namespace Extends

theorem refl (t : HandleTable) : t.Extends t :=
  ⟨rfl, fun _ c hc => ⟨c.children, hc⟩⟩

theorem trans {v : HandleTable} (h : t.Extends u) (h' : u.Extends v) : t.Extends v := by
  refine ⟨h'.generation.trans h.generation, fun i c hc => ?_⟩
  obtain ⟨children, hu⟩ := h.containers i c hc
  exact h'.containers i { c with children } hu

theorem size_le (h : t.Extends u) : t.containers.size ≤ u.containers.size := by
  rcases Nat.lt_or_ge u.containers.size t.containers.size with hlt | hle
  · obtain ⟨_, hu⟩ := h.containers _ _ (Array.getElem?_eq_getElem hlt)
    obtain ⟨hlt', _⟩ := Array.getElem?_eq_some_iff.mp hu
    exact absurd hlt' (Nat.lt_irrefl _)
  · exact hle

theorem full (h : t.Extends u) (ht : t.Full) : u.Full :=
  Nat.le_trans ht (Nat.succ_le_succ h.size_le)

theorem check {i : Nat} (he : t.Extends u) (hc : t.check h = .ok i) : u.check h = .ok i := by
  obtain ⟨hp, hg, hn, hi⟩ := check_eq_ok_iff.mp hc
  exact check_eq_ok_iff.mpr ⟨hp, hg.trans he.generation.symm, hn, Nat.lt_of_lt_of_le hi he.size_le⟩

theorem resolve (he : t.Extends u) (hr : t.resolve h = .ok c) :
    ∃ children, u.resolve h = .ok { c with children } := by
  obtain ⟨i, hi, hc⟩ := resolve_eq_ok_iff.mp hr
  obtain ⟨children, hu⟩ := he.containers i c hc
  exact ⟨children, resolve_eq_ok_iff.mpr ⟨i, he.check hi, hu⟩⟩

theorem opens (he : t.Extends u) (ho : t.Opens h kind) : u.Opens h kind := by
  obtain ⟨c, hr, hk⟩ := ho
  obtain ⟨_, hu⟩ := he.resolve hr
  exact ⟨_, hu, hk⟩

end Extends

/-- A handle that is issued opens what it was issued for. -/
theorem allocate_spec (ht : t.Numbered) (c : Container) :
    (∃ h, t.allocate c = (some h, { t with containers := t.containers.push c }) ∧
      Numbered { t with containers := t.containers.push c } ∧
      t.Extends { t with containers := t.containers.push c } ∧
      Opens { t with containers := t.containers.push c } h c.kind) ∨
    (t.Full ∧ t.allocate c = (none, t)) := by
  rcases t.allocate_cases c with ⟨hlt, ha⟩ | ha
  · have hn : Numbered { t with containers := t.containers.push c } :=
      ⟨ht.begun, ht.generation_lt, by simpa using hlt⟩
    refine .inl ⟨_, ha, hn, ⟨rfl, fun i d hd => ⟨d.children, ?_⟩⟩, c, ?_, rfl⟩
    · obtain ⟨hi, _⟩ := Array.getElem?_eq_some_iff.mp hd
      rw [Array.getElem?_push, if_neg (Nat.ne_of_lt hi)]
      exact hd
    · exact resolve_of hn (by simp)
  · exact .inr ha

/-- Children can be noted for every handle that finds a container. -/
theorem setChildren_spec (ht : t.Numbered) (hr : t.resolve h = .ok c) (children : List Variable) :
    ∃ u, t.setChildren h children = .ok u ∧ u.Numbered ∧ t.Extends u ∧
      ∀ d ∈ u.containers, d ∈ t.containers ∨ d = { c with children := some children } := by
  obtain ⟨i, hi, hc⟩ := resolve_eq_ok_iff.mp hr
  have hu : t.setChildren h children = .ok { t with
      containers := t.containers.modify i fun c => { c with children := some children } } := by
    rw [setChildren_eq_write, write, hi]
    rfl
  refine ⟨_, hu, ⟨ht.begun, ht.generation_lt, by simpa using ht.size_lt⟩, ⟨rfl, ?_⟩, ?_⟩
  · intro j d hd
    rw [Array.getElem?_modify, hd]
    split
    · exact ⟨some children, rfl⟩
    · exact ⟨d.children, rfl⟩
  · intro d hd
    obtain ⟨j, hj⟩ := Array.mem_iff_getElem?.mp hd
    rw [Array.getElem?_modify] at hj
    split at hj
    · next hij =>
      subst hij
      rw [hc] at hj
      exact .inr (Option.some.inj hj).symm
    · exact .inl (Array.mem_of_getElem? hj)

theorem invalidateChildren_extends (t : HandleTable) : t.Extends t.invalidateChildren :=
  ⟨rfl, fun i c hc => ⟨none, by simp [invalidateChildren, hc]⟩⟩

theorem Numbered.invalidateChildren (ht : t.Numbered) : t.invalidateChildren.Numbered :=
  ⟨ht.begun, ht.generation_lt, by simpa [HandleTable.invalidateChildren] using ht.size_lt⟩

end Stepwise.HandleTable
