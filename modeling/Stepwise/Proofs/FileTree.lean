import Stepwise.FileTree

namespace Stepwise.FileTree

variable {t t' : FileTree} {k l : FileLocation} {e : FileEntry} {p : Path} {content : ByteArray}
  {access : Access} {cs : List Path.Component}

theorem get?_put_self (h : l ≠ []) : (t.put l e).get? l = some e := by
  rw [get?, if_neg h, put, List.lookup_cons_self]

theorem get?_put_of_ne (h : k ≠ l) : (t.put l e).get? k = t.get? k := by
  have hlookup (entries : List (FileLocation × FileEntry)) :
      (entries.filter (·.1 != l)).lookup k = entries.lookup k := by
    induction entries with
    | nil => rfl
    | cons x entries ih =>
      by_cases hx : x.1 = l
      · have hk : (k == x.1) = false := beq_eq_false_iff_ne.mpr (hx ▸ h)
        rw [List.filter_cons_of_neg (by simp [hx]), ih, List.lookup_cons, hk]
      · rw [List.filter_cons_of_pos (by simp [hx]), List.lookup_cons, List.lookup_cons, ih]
  have hkl : (k == l) = false := beq_eq_false_iff_ne.mpr h
  simp only [get?, put, List.lookup_cons, hkl, hlookup]

/-- A name leads on through a directory, or it is the last one and leads to what is there. -/
theorem follow_name_iff {n : List Char} {found : Option FileEntry} :
    t.follow k (.name n :: cs) = some (l, found) ↔
      isName n ∧
        (t.get? (k ++ [n]) = some .directory ∧ t.follow (k ++ [n]) cs = some (l, found) ∨
          t.get? (k ++ [n]) ≠ some .directory ∧
            cs = [] ∧ k ++ [n] = l ∧ t.get? (k ++ [n]) = found) := by
  simp only [follow]
  split
  · next hn =>
    split
    · next hdir => simp [hn, hdir]
    · next hnot =>
      have hne : t.get? (k ++ [n]) ≠ some .directory := hnot
      simp [hn, hne]
  · next hn => simp [hn]

/-- Whatever a way leads to, directories apart, is what is at the end of it. -/
theorem get?_of_follow {found : Option FileEntry} (h : t.follow k cs = some (l, found))
    (hfound : found ≠ some .directory) : l ≠ [] ∧ t.get? l = found := by
  induction cs generalizing k with
  | nil =>
    cases h
    exact absurd rfl hfound
  | cons c cs ih =>
    cases c with
    | root => exact ih h
    | here => exact ih h
    | up => exact ih h
    | name n =>
      obtain ⟨_, ⟨_, htail⟩ | ⟨_, _, rfl, hget⟩⟩ := follow_name_iff.mp h
      · exact ih htail
      · exact ⟨by simp, hget⟩

theorem follow_put {found : Option FileEntry} (h : t.follow k cs = some (l, found))
    (hfound : found ≠ some .directory) :
    (t.put l (.file content access)).follow k cs = some (l, some (.file content access)) := by
  obtain ⟨hl, hget⟩ := get?_of_follow h hfound
  induction cs generalizing k with
  | nil =>
    cases h
    exact absurd rfl hfound
  | cons c cs ih =>
    cases c with
    | root => exact ih h
    | here => exact ih h
    | up => exact ih h
    | name n =>
      obtain ⟨hn, ⟨hdir, htail⟩ | ⟨_, hcs, rfl, _⟩⟩ := follow_name_iff.mp h
      · -- The way goes on, so the file is somewhere else.
        have hne : k ++ [n] ≠ l := by
          intro he
          rw [he, hget] at hdir
          exact hfound hdir
        exact follow_name_iff.mpr ⟨hn, .inl ⟨by rw [get?_put_of_ne hne, hdir], ih htail⟩⟩
      · have hfile := get?_put_self (t := t) (e := .file content access) hl
        exact follow_name_iff.mpr ⟨hn, .inr ⟨by simp [hfile], hcs, rfl, hfile⟩⟩

theorem find?_of_follow {found : Option FileEntry} (hp : isFilePath p = true)
    (h : t.follow [] p.components = some (l, found)) : t.find? p = found := by
  obtain ⟨hpath, hdir⟩ := Bool.and_eq_true_iff.mp hp
  rw [find?, if_pos hpath, h]
  cases found with
  | none => simp
  | some e => cases e <;> simp_all

/-- What has been written is in the file, which may be a new one; a file is used as before.  Of what
is no file the tree keeps nothing. -/
theorem find?_write? (h : t.write? p content = some t') :
    (t.find? p = none ∧ t'.find? p = some (.file content t.fresh)) ∨
      (∃ old access, t.find? p = some (.file old access) ∧
        t'.find? p = some (.file content access)) ∨
      ∃ accepts, t.find? p = some (.special accepts) ∧ t' = t := by
  unfold write? at h
  split at h
  · next hp =>
    split at h
    · cases h
    · next l old access hf =>
      obtain ⟨-, ht⟩ := Option.ite_none_right_eq_some.mp h
      cases ht
      exact .inr (.inl ⟨old, access, find?_of_follow hp hf,
        find?_of_follow hp (follow_put hf nofun)⟩)
    · next l accepts hf =>
      obtain ⟨-, ht⟩ := Option.ite_none_right_eq_some.mp h
      cases ht
      exact .inr (.inr ⟨accepts, find?_of_follow hp hf, rfl⟩)
    · next l hf =>
      cases h
      exact .inl ⟨find?_of_follow hp hf, find?_of_follow hp (follow_put hf nofun)⟩
    · cases h
  · cases h

/-- A file at the path holds what has just been written. -/
theorem content_of_write? (h : t.write? p content = some t') {found : ByteArray}
    (he : t'.find? p = some (.file found access)) : found = content := by
  rcases find?_write? h with ⟨-, hnew⟩ | ⟨_, _, -, hnew⟩ | ⟨_, hs, rfl⟩
  · cases hnew.symm.trans he
    rfl
  · cases hnew.symm.trans he
    rfl
  · cases hs.symm.trans he

/-- Everything in the first tree is in the second one as it was. -/
def Keeps (t t' : FileTree) : Prop :=
  ∀ l e, t.get? l = some e → t'.get? l = some e

theorem Keeps.refl (t : FileTree) : t.Keeps t :=
  fun _ _ h => h

theorem Keeps.trans {t'' : FileTree} (h : t.Keeps t') (h' : t'.Keeps t'') : t.Keeps t'' :=
  fun l e hl => h' l e (h l e hl)

theorem keeps_put (h : t.get? l = none) : t.Keeps (t.put l e) := by
  intro k e' hk
  have hne : k ≠ l := by
    intro he
    rw [he, h] at hk
    cases hk
  rw [get?_put_of_ne hne, hk]

theorem keeps_makeWay (cs : List Path.Component) : t.Keeps (t.makeWay l cs).2 := by
  induction cs generalizing t l with
  | nil => exact .refl t
  | cons c cs ih =>
    cases c with
    | root => exact ih
    | here => exact ih
    | up => exact ih
    | name n =>
      simp only [makeWay]
      split
      · split
        · exact ih
        · exact .refl t
        · next hnone => exact (keeps_put hnone).trans ih
      · exact .refl t

theorem keeps_makeDirectories (p : Path) : t.Keeps (t.makeDirectories p).2 := by
  unfold makeDirectories
  split
  · exact .refl t
  · split
    · exact keeps_makeWay _
    · exact keeps_makeWay _

theorem Keeps.follow (h : t.Keeps t') (hfollow : t.follow k cs = some (l, some e)) :
    t'.follow k cs = some (l, some e) := by
  induction cs generalizing k with
  | nil => exact hfollow
  | cons c cs ih =>
    cases c with
    | root => exact ih hfollow
    | here => exact ih hfollow
    | up => exact ih hfollow
    | name n =>
      obtain ⟨hn, ⟨hdir, htail⟩ | ⟨hnot, hcs, rfl, hget⟩⟩ := follow_name_iff.mp hfollow
      · exact follow_name_iff.mpr ⟨hn, .inl ⟨h _ _ hdir, ih htail⟩⟩
      · have hget' := h _ _ hget
        rw [hget] at hnot
        exact follow_name_iff.mpr ⟨hn, .inr ⟨hget' ▸ hnot, hcs, rfl, hget'⟩⟩

theorem Keeps.find? (h : t.Keeps t') (he : t.find? p = some e) : t'.find? p = some e := by
  unfold FileTree.find? at he ⊢
  split at he
  · next hp =>
    rw [if_pos hp]
    split at he
    · next hf =>
      rw [h.follow hf]
      exact he
    · next l found hnot hf =>
      obtain ⟨hd, rfl⟩ := Option.ite_none_left_eq_some.mp he
      rw [h.follow hf]
      cases e with
      | directory => exact absurd rfl hnot
      | _ => simp [hd]
    · cases he
  · cases he

/-- There are only directories and files that can be read, also those that one makes. -/
structure Ordinary (t : FileTree) : Prop where
  entries {l : FileLocation} {e : FileEntry} : t.get? l = some e →
    e = .directory ∨ ∃ content access, e = .file content access ∧ access.readable = true
  fresh : t.fresh.readable = true

theorem Ordinary.put_directory (h : t.Ordinary) : (t.put l .directory).Ordinary where
  entries {k e} hk := by
    by_cases he : k = l
    · by_cases hl : l = []
      · rw [he, get?, if_pos hl] at hk
        cases hk
        exact .inl rfl
      · rw [he, get?_put_self hl] at hk
        cases hk
        exact .inl rfl
    · exact h.entries (get?_put_of_ne he ▸ hk)
  fresh := h.fresh

theorem Ordinary.makeWay (h : t.Ordinary) (cs : List Path.Component) :
    (t.makeWay l cs).2.Ordinary := by
  induction cs generalizing t l with
  | nil => exact h
  | cons c cs ih =>
    cases c with
    | root | here | up => exact ih h
    | name n =>
      simp only [FileTree.makeWay]
      split
      · split
        · exact ih h
        · exact h
        · exact ih h.put_directory
      · exact h

theorem Ordinary.makeDirectories (h : t.Ordinary) (p : Path) :
    (t.makeDirectories p).2.Ordinary := by
  unfold FileTree.makeDirectories
  split
  · exact h
  · split
    · exact h.makeWay _
    · exact h.makeWay _

/-- What a path stands for is a directory or a file that can be read. -/
theorem Ordinary.find? (h : t.Ordinary) (he : t.find? p = some e) :
    e = .directory ∨ ∃ content access, e = .file content access ∧ access.readable = true := by
  unfold FileTree.find? at he
  split at he
  · split at he
    · cases he
      exact .inl rfl
    · next l found hnot hf =>
      obtain ⟨-, rfl⟩ := Option.ite_none_left_eq_some.mp he
      exact h.entries (get?_of_follow hf hnot).2
    · cases he
  · cases he

end Stepwise.FileTree
