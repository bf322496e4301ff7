import Stepwise.Breakpoint.Registry

namespace Stepwise

theorem Path.same_comm (p q : Path) : p.same q = q.same p :=
  Bool.eq_iff_iff.mpr (by rw [same_iff, same_iff, eq_comm])

/-- Spellings of one file are spellings of the same other files. -/
theorem Path.same_congr {p q : Path} (h : p.same q = true) (other : Path) :
    p.same other = q.same other := by
  rw [Path.same, Path.same, same_iff.mp h]

namespace Registry

variable {files : List (Path × List Breakpoint)} {path : Path}

/-- No file has two lists, however it is spelled. -/
def Separate (files : List (Path × List Breakpoint)) : Prop :=
  files.Pairwise fun f g => f.1.same g.1 = false

theorem filter_of_not_same (h : ∀ f ∈ files, f.1.same path = false) :
    (files.filter fun f => !f.1.same path) = files := by
  refine List.filter_eq_self.mpr ?_
  intro f hf
  rw [h f hf]
  rfl

/-- Behind the list of a file there is no other list of it. -/
theorem Separate.tail {f : Path × List Breakpoint} (h : Separate (f :: files))
    (hf : f.1.same path = true) : ∀ g ∈ files, g.1.same path = false := by
  intro g hg
  have hn := (List.pairwise_cons.mp h).1 g hg
  rw [Path.same_congr hf, Path.same_comm] at hn
  exact hn

theorem mem_putFile (h : Separate files) {l : List Breakpoint} {f : Path × List Breakpoint}
    (hf : f ∈ putFile path l files) :
    (f ∈ files ∧ f.1.same path = false) ∨ (f.1.same path = true ∧ f.2 = l) := by
  induction files with
  | nil =>
    rw [List.mem_singleton.mp hf]
    exact .inr ⟨Path.same_self path, rfl⟩
  | cons g rest ih =>
    obtain ⟨p, old⟩ := g
    rw [putFile] at hf
    split at hf
    · next hp =>
      rcases List.mem_cons.mp hf with rfl | hf
      · exact .inr ⟨hp, rfl⟩
      · exact .inl ⟨List.mem_cons_of_mem _ hf, h.tail hp f hf⟩
    · next hp =>
      rcases List.mem_cons.mp hf with rfl | hf
      · exact .inl ⟨List.mem_cons_self, Bool.eq_false_iff.mpr hp⟩
      · rcases ih (List.pairwise_cons.mp h).2 hf with ⟨hm, hs⟩ | hr
        · exact .inl ⟨List.mem_cons_of_mem _ hm, hs⟩
        · exact .inr hr

theorem Separate.putFile (h : Separate files) (path : Path) (l : List Breakpoint) :
    Separate (putFile path l files) := by
  induction files with
  | nil => exact List.pairwise_singleton _ _
  | cons g rest ih =>
    obtain ⟨p, old⟩ := g
    obtain ⟨hg, hr⟩ := List.pairwise_cons.mp h
    rw [Registry.putFile]
    split
    · exact List.pairwise_cons.mpr ⟨hg, hr⟩
    · next hp =>
      refine List.pairwise_cons.mpr ⟨?_, ih hr⟩
      intro f hf
      rcases mem_putFile hr hf with ⟨hm, _⟩ | ⟨hs, _⟩
      · exact hg f hm
      · rw [Path.same_comm, Path.same_congr hs, Path.same_comm]
        exact Bool.eq_false_iff.mpr hp

/-- The new list of a file stands for its old one. -/
theorem flatMap_putFile_perm (h : Separate files) (path : Path) (l : List Breakpoint) :
    ((Registry.putFile path l files).flatMap Prod.snd).Perm
      ((files.filter fun f => !f.1.same path).flatMap Prod.snd ++ l) := by
  induction files with
  | nil => simp [Registry.putFile]
  | cons g rest ih =>
    obtain ⟨p, old⟩ := g
    rw [Registry.putFile]
    split
    · next hp =>
      rw [List.filter_cons_of_neg (by simp [hp]), filter_of_not_same (h.tail hp)]
      exact List.perm_append_comm
    · next hp =>
      rw [List.filter_cons_of_pos (by simp [hp])]
      simp only [List.flatMap_cons, List.append_assoc]
      exact (ih (List.pairwise_cons.mp h).2).append_left old

/-- The lists of all files but one, with other breakpoints, and a new list for that one. -/
theorem flatMap_putFile_append_perm (h : Separate files) (path : Path)
    (l commands : List Breakpoint) :
    (((files.filter fun f => !f.1.same path).flatMap Prod.snd ++ commands) ++ l).Perm
      ((Registry.putFile path l files).flatMap Prod.snd ++ commands) := by
  refine List.Perm.trans ?_ ((flatMap_putFile_perm h path l).append_right commands).symm
  rw [List.append_assoc, List.append_assoc]
  exact List.perm_append_comm.append_left _

/-- After a list was put for a file, it is found under every spelling of the file, and other files
keep their lists. -/
theorem find?_putFile (path : Path) (l : List Breakpoint) (files : List (Path × List Breakpoint))
    (other : Path) : ((putFile path l files).find? fun (p, _) => p.same other).map (·.2) =
      if path.same other then some l else (files.find? fun (p, _) => p.same other).map (·.2) := by
  induction files with
  | nil => cases hs : path.same other <;> simp [Registry.putFile, hs]
  | cons f rest ih =>
    obtain ⟨p, old⟩ := f
    rw [Registry.putFile]
    split
    · next hp =>
      simp only [List.find?_cons, Path.same_congr hp]
      cases path.same other <;> rfl
    · next hp =>
      simp only [List.find?_cons]
      cases hs : p.same other with
      | true =>
        have hn : path.same other = false := by
          rw [Path.same_comm, ← Path.same_congr hs]
          exact Bool.eq_false_iff.mpr hp
        rw [hn]
        rfl
      | false => exact ih

/-- The list of a file is found under every spelling of the file. -/
theorem find?_of_mem (h : Separate files) {f : Path × List Breakpoint} (hf : f ∈ files)
    (hs : f.1.same path = true) : files.find? (fun (p, _) => p.same path) = some f := by
  induction files with
  | nil => cases hf
  | cons g rest ih =>
    obtain ⟨hg, hr⟩ := List.pairwise_cons.mp h
    rcases List.mem_cons.mp hf with rfl | hf
    · exact List.find?_cons_of_pos hs
    · have hn : g.1.same path = false := by
        rw [Path.same_comm, ← Path.same_congr hs, Path.same_comm]
        exact hg f hf
      rw [List.find?_cons_of_neg (by simp [hn])]
      exact ih hr hf

end Registry
end Stepwise
