import Stepwise.Proofs.Script.Places
import Stepwise.Proofs.Session.Listing

namespace Stepwise

open Script (State)

namespace HandleTable

variable {t : HandleTable} {depth : Nat}

theorem allocate_of_full (h : t.Full) (c : Container) : t.allocate c = (none, t) := by
  rcases t.allocate_cases c with ⟨hlt, _⟩ | ⟨_, ha⟩
  · exact absurd hlt (Nat.not_lt.mpr h)
  · exact ha

/-- The table of a halt before anything is listed: all handles are for scopes that exist. -/
structure Scoped (t : HandleTable) (depth : Nat) : Prop where
  numbered : t.Numbered
  scopes : ∀ c ∈ t.containers, c.children = none ∧
    ∃ scope filter, c.kind = .scope scope filter ∧ scope.Within depth

theorem Scoped.allocate (ht : t.Scoped depth) (scope : Scope) (hs : scope.Within depth)
    (name : String) (filter : ScopeFilter) :
    (∃ h u, t.allocate (.ofScope name scope filter) = (some h, u) ∧ u.Scoped depth ∧
      t.Extends u ∧ u.containers.size = t.containers.size + 1 ∧ u.Opens h (.scope scope filter)) ∨
    t.Full := by
  rcases allocate_spec ht.numbered (.ofScope name scope filter) with ⟨h, ha, hn, hx, ho⟩ | ⟨hf, _⟩
  · refine .inl ⟨h, _, ha, ⟨hn, fun c hc => ?_⟩, hx, by simp, ho⟩
    rcases Array.mem_push.mp hc with hc | rfl
    · exact ht.scopes c hc
    · exact ⟨rfl, scope, filter, rfl, hs⟩
  · exact .inr hf

end HandleTable

namespace Session

variable {t : HandleTable} {depth index : Nat}

theorem allocateScopes_spec (ht : t.Scoped depth) (hd : index < depth) :
    (∃ scopes u, allocateScopes t index = (some scopes, u) ∧ u.Scoped depth ∧ t.Extends u ∧
      u.containers.size = t.containers.size + 4 ∧ scopes.Open u index) ∨
    ∃ u, allocateScopes t index = (none, u) ∧ u.Scoped depth ∧ u.Full := by
  have failed : ∀ {u : HandleTable}, u.Full → ∀ c, u.allocate c = (none, u) :=
    HandleTable.allocate_of_full
  unfold allocateScopes
  obtain ⟨hlocals, hscript⟩ := Scope.within_of_lt hd
  rcases ht.allocate (.locals index) hlocals "Auto" .auto with
    ⟨auto, t₁, h₁, ht₁, hx₁, hn₁, ho₁⟩ | hf
  rcases ht₁.allocate (.locals index) hlocals "Local" .all with
    ⟨locals, t₂, h₂, ht₂, hx₂, hn₂, ho₂⟩ | hf
  rcases ht₂.allocate (.script index) hscript "Script" .all with
    ⟨script, t₃, h₃, ht₃, hx₃, hn₃, ho₃⟩ | hf
  rcases ht₃.allocate .global trivial "Global" .all with
    ⟨global, t₄, h₄, ht₄, hx₄, hn₄, ho₄⟩ | hf
  · simp only [h₁, h₂, h₃, h₄]
    have hx₃₄ := hx₃.trans hx₄
    have hx₂₄ := hx₂.trans hx₃₄
    exact .inl ⟨_, _, rfl, ht₄, hx₁.trans hx₂₄, by omega, hx₂₄.opens ho₁, hx₃₄.opens ho₂,
      hx₄.opens ho₃, ho₄⟩
  · simp only [h₁, h₂, h₃, failed hf]
    exact .inr ⟨_, rfl, ht₃, hf⟩
  · simp only [h₁, h₂, failed hf]
    exact .inr ⟨_, rfl, ht₂, hf⟩
  · simp only [h₁, failed hf]
    exact .inr ⟨_, rfl, ht₁, hf⟩
  · simp only [failed hf]
    exact .inr ⟨_, rfl, ht, hf⟩

/-- The frames shown so far, with four handles for each. -/
structure Built (t : HandleTable) (depth : Nat) (shown : List StackFrame) : Prop
    extends t.Scoped depth where
  frames : ∀ (i : Nat) (f : StackFrame), shown[i]? = some f → f.scopes.Open t i
  size : 4 * shown.length ≤ t.containers.size

theorem Built.first (ht : t.Numbered) (depth : Nat) : Built t.reset depth [] :=
  ⟨⟨ht.reset, by simp [HandleTable.reset]⟩, nofun, Nat.zero_le _⟩

/-- All frames are shown, or none. -/
theorem buildFrames_spec (w : Workspace) (remote : Bool) (stack : List EngineFrame)
    (made : List StackFrame) (hb : Built t depth made.reverse)
    (hd : made.length + stack.length = depth) :
    let r := buildFrames w remote stack made.length t made
    Built r.2 depth r.1 ∧ (r.1.length = depth ∨ (r.1 = [] ∧ r.2.Full)) := by
  induction stack generalizing t made with
  | nil => exact ⟨hb, .inl (by simpa [buildFrames] using hd)⟩
  | cons f rest ih =>
    have hs := hb.size
    rw [List.length_reverse] at hs
    rw [List.length_cons] at hd
    have hi : made.length < depth := by omega
    rcases allocateScopes_spec hb.toScoped hi with
      ⟨scopes, u, ha, hu, hx, hsize, ho⟩ | ⟨u, ha, hu, hf⟩
    · rw [buildFrames, ha]
      refine ih (_ :: made) ⟨hu, ?_, ?_⟩ (by rw [List.length_cons]; omega)
      · intro i g hg
        rw [List.reverse_cons] at hg
        rcases Nat.lt_trichotomy i made.reverse.length with hlt | rfl | hgt
        · rw [List.getElem?_append_left hlt] at hg
          exact (hb.frames i g hg).mono hx
        · rw [List.getElem?_concat_length] at hg
          cases hg
          rw [List.length_reverse]
          exact ho
        · rw [List.getElem?_eq_none (by rw [List.length_append]; exact hgt)] at hg
          cases hg
      · rw [List.length_reverse, List.length_cons]
        omega
    · rw [buildFrames, ha]
      exact ⟨⟨hu, nofun, Nat.zero_le _⟩, .inr ⟨rfl, hf⟩⟩

/-- With its engine, a session that has entered a halt is in order. -/
theorem hold_orderly {s : Session} (ht : s.handles.Numbered) (h : Halt) (e : State) :
    (s.hold h (e.frames.map Script.Frame.listed)).Orderly e := by
  obtain ⟨hb, hl⟩ := buildFrames_spec s.around.workspace h.remote
    (e.frames.map Script.Frame.listed) [] (Built.first ht e.frames.length) (by simp)
  refine ⟨hb.numbered, ?_, hb.frames, hl⟩
  intro c hc
  obtain ⟨hn, scope, filter, hk, hin⟩ := hb.scopes c hc
  rw [Container.Remembers, hk, State.listed, State.scope_eq_ok_iff.mpr ⟨hin, rfl⟩]
  refine ⟨_, rfl, fun children hc => ?_⟩
  rw [hn] at hc
  cases hc

end Session
end Stepwise
