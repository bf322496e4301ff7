import Stepwise.Proofs.Handle.Growth

namespace Stepwise.HandleTable

variable {t u v : HandleTable} {h : Handle} {c : Container} {xs ys : List Variable}

/-- These are the children that were listed for the handle. -/
def Remembers (t : HandleTable) (h : Handle) (children : List Variable) : Prop :=
  ∃ c, t.resolve h = .ok c ∧ c.children = some children

/-- Every handle finds what it found. -/
def Grows (t u : HandleTable) : Prop :=
  ∀ h c, t.resolve h = .ok c → u.resolve h = .ok c

/-- No listing is taken back. -/
def Recalls (t u : HandleTable) : Prop :=
  ∀ h xs, t.Remembers h xs → u.Remembers h xs

theorem Remembers.unique (hx : t.Remembers h xs) (hy : t.Remembers h ys) : xs = ys := by
  obtain ⟨c, hc, hx⟩ := hx
  obtain ⟨d, hd, hy⟩ := hy
  cases hc.symm.trans hd
  exact Option.some.inj (hx.symm.trans hy)

theorem Grows.refl (t : HandleTable) : t.Grows t := fun _ _ hc => hc

theorem Grows.trans (h : t.Grows u) (h' : u.Grows v) : t.Grows v :=
  fun k c hc => h' k c (h k c hc)

theorem Grows.recalls (h : t.Grows u) : t.Recalls u := by
  rintro k xs ⟨c, hc, hx⟩
  exact ⟨c, h k c hc, hx⟩

theorem Recalls.refl (t : HandleTable) : t.Recalls t := fun _ _ hx => hx

theorem Recalls.trans (h : t.Recalls u) (h' : u.Recalls v) : t.Recalls v :=
  fun k xs hx => h' k xs (h k xs hx)

theorem allocate_grows (t : HandleTable) (c : Container) : t.Grows (t.allocate c).2 := by
  rcases t.allocate_cases c with ⟨_, ha⟩ | ⟨_, ha⟩
  · rw [ha]
    intro k d hd
    obtain ⟨i, hi, hd⟩ := resolve_eq_ok_iff.mp hd
    obtain ⟨hp, hg, hn, hlt⟩ := check_eq_ok_iff.mp hi
    refine resolve_eq_ok_iff.mpr ⟨i, check_eq_ok_iff.mpr ⟨hp, hg, hn, ?_⟩, ?_⟩
    · simp only [Array.size_push]
      omega
    · rw [Array.getElem?_push, if_neg (Nat.ne_of_lt hlt)]
      exact hd
  · rw [ha]
    exact .refl t

/-- Only what the handle finds is written, and its children only. -/
theorem resolve_setChildren (hu : t.setChildren h xs = .ok u) {k : Handle}
    (hc : t.resolve k = .ok c) :
    u.resolve k = .ok (if k.index = h.index then { c with children := some xs } else c) := by
  obtain ⟨i, hi, hu⟩ : ∃ i, t.check h = .ok i ∧ { t with
      containers := t.containers.modify i fun c => { c with children := some xs } } = u := by
    unfold setChildren at hu
    cases hi : t.check h with
    | error x =>
      rw [hi] at hu
      cases hu
    | ok i =>
      rw [hi] at hu
      exact ⟨i, rfl, Except.ok.inj hu⟩
  subst hu
  obtain ⟨j, hj, hc⟩ := resolve_eq_ok_iff.mp hc
  obtain ⟨hp, hg, hn, hlt⟩ := check_eq_ok_iff.mp hj
  have hni : h.index = i + 1 := (check_eq_ok_iff.mp hi).2.2.1
  refine resolve_eq_ok_iff.mpr ⟨j, check_eq_ok_iff.mpr ⟨hp, hg, hn, by simpa using hlt⟩, ?_⟩
  rw [Array.getElem?_modify, hc]
  by_cases hij : i = j
  · rw [if_pos hij, if_pos (by omega)]
    rfl
  · rw [if_neg hij, if_neg (by omega)]

/-- What is noted for a handle is remembered, and everything else if there was nothing before. -/
theorem setChildren_recalls (hr : t.resolve h = .ok c) (hn : c.children = none)
    (hu : t.setChildren h xs = .ok u) : u.Remembers h xs ∧ t.Recalls u := by
  constructor
  · refine ⟨_, resolve_setChildren hu hr, ?_⟩
    rw [if_pos rfl]
  · rintro k ys ⟨d, hd, hy⟩
    refine ⟨_, resolve_setChildren hu hd, ?_⟩
    split
    · next hindex =>
      -- Both handles are of this generation, so they are the same container.
      obtain ⟨i, hi, hc⟩ := resolve_eq_ok_iff.mp hr
      obtain ⟨j, hj, hd⟩ := resolve_eq_ok_iff.mp hd
      obtain ⟨_, _, hni, _⟩ := check_eq_ok_iff.mp hi
      obtain ⟨_, _, hnj, _⟩ := check_eq_ok_iff.mp hj
      obtain rfl : i = j := by omega
      cases hc.symm.trans hd
      cases hn.symm.trans hy
    · exact hy

end Stepwise.HandleTable
