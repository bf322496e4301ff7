import Stepwise.Proofs.Breakpoint.Agreement
import Stepwise.Proofs.Path.Spelling

namespace Stepwise
open EngineM

/-- Two scopes of one file, however it is spelled, or both of the commands. -/
def BreakpointScope.same : BreakpointScope → BreakpointScope → Bool
  | .file p, .file q => p.same q
  | .commands, .commands => true
  | _, _ => false

namespace BreakpointCall

/-- The scope whose breakpoints the call sets. -/
def scope? (home : Home) : BreakpointCall → Option BreakpointScope
  | .setLine path _ => some (.file (home.expandHome path))
  | .setCommands _ => some .commands
  | .removeAll => none

/-- The breakpoints that the call asks for, in order. -/
def asked (home : Home) : BreakpointCall → List Breakpoint
  | .setLine path requests =>
    Attempt.asked (requests.map (.ofLine Script.context (home.expandHome path)))
  | .setCommands requests => Attempt.asked (requests.map (.ofCommand Script.context))
  | .removeAll => []

end BreakpointCall

theorem length_accepted_add_refused (asked : List Breakpoint) :
    (accepted asked).length + (refused asked).length = asked.length := by
  induction asked with
  | nil => rfl
  | cons b rest ih =>
    cases hb : b.refusal? with
    | none =>
      rw [accepted_cons_of_none hb, refused_cons_of_none hb, List.length_cons, List.length_cons, ← ih]
      exact Nat.add_right_comm _ _ _
    | some c =>
      rw [accepted_cons_of_some hb, refused_cons_of_some hb, List.length_cons, List.length_cons, ← ih]
      rfl

theorem length_confirmed (last : BreakpointId) (asked : List Breakpoint) :
    (confirmed last (inPlace (accepted asked)) ++ refused asked).length = asked.length := by
  rw [List.length_append, confirmed, List.length_mapIdx, (inPlace_perm _).length_eq,
    length_accepted_add_refused]

namespace Registry

/-- The breakpoints of a scope as they were last returned. -/
def list (r : Registry) : BreakpointScope → List Breakpoint
  | .file path => r.inFile path
  | .commands => r.commands

/-- What setting the breakpoints of a scope returns and leaves. -/
structure Sets (scope : BreakpointScope) (asked : List Breakpoint) (r : Registry) (s : Script.State)
    (list : List Breakpoint) (next : Registry) (t : Script.State) : Prop where
  /-- What was accepted comes first, by line and by column, and then what was refused. -/
  returned : list = confirmed r.lastId (inPlace (accepted asked)) ++ refused asked
  length_eq : list.length = asked.length
  /-- In its scope the engine holds what was accepted, not counted yet and under new numbers. -/
  stored : List.Forall₂ Breakpoint.StoredAs (accepted asked)
    (t.breakpoints.filter fun b => b.location.isIn scope)
  ids : (t.breakpoints.filter fun b => b.location.isIn scope).map (·.id) =
    List.range' (s.lastId + 1) (accepted asked).length
  /-- In other scopes it holds what it held, with the counts. -/
  others : (t.breakpoints.filter fun b => !b.location.isIn scope) =
    s.breakpoints.filter fun b => !b.location.isIn scope
  unchanged : t = { s with lastId := t.lastId, breakpoints := t.breakpoints }
  listed : ∀ other, next.list other = if scope.same other then list else r.list other
  entries : (next.byEngineId.filter fun entry => !entry.2.isIn scope) =
    r.byEngineId.filter fun entry => !entry.2.isIn scope

section

variable {r next : Registry} {s : Script.State} {scope : BreakpointScope} {asked : List Breakpoint}
  {entries : Registered} {stored : List Script.Breakpoint}

theorem sets_of_filled (h : Filled scope asked r.lastId s.lastId entries stored)
    (hnext : next.byEngineId = (r.without scope).byEngineId ++ entries)
    (hlisted : ∀ other, next.list other =
      if scope.same other then entries.map Prod.snd ++ refused asked else r.list other) :
    Sets scope asked r s (entries.map Prod.snd ++ refused asked) next
      ((s.clearBreakpoints scope).grown stored) := by
  have hin : (((s.clearBreakpoints scope).grown stored).breakpoints.filter
      fun b => b.location.isIn scope) = stored := by
    rw [Script.State.grown, Script.State.clearBreakpoints, List.filter_append, List.filter_filter,
      List.filter_eq_self.mpr h.batch.inScope, List.filter_eq_nil_iff.mpr, List.nil_append]
    simp
  refine ⟨?_, ?_, ?_, ?_, ?_, rfl, hlisted, ?_⟩
  · rw [h.confirmed]
  · rw [h.confirmed]
    exact length_confirmed _ _
  · rw [hin]
    exact h.storedAs
  · rw [hin, h.batch.ids, h.storedAs.length_eq]
  · have hnone : (stored.filter fun b => !b.location.isIn scope) = [] :=
      List.filter_eq_nil_iff.mpr fun b hb => by simp [h.batch.inScope b hb]
    rw [Script.State.grown, Script.State.clearBreakpoints, List.filter_append, hnone,
      List.append_nil, List.filter_filter]
    simp
  · have hentries : (entries.filter fun entry => !entry.2.isIn scope) = [] := by
      refine List.filter_eq_nil_iff.mpr ?_
      intro entry he
      obtain ⟨b, hb, hm⟩ := h.batch.matched.exists_stored he
      simp [hm.place.isIn_eq, h.batch.inScope b hb]
    rw [hnext, List.filter_append, hentries, List.append_nil, without, List.filter_filter]
    simp

end

theorem inFile_putFile (r : Registry) (path other : Path) (l : List Breakpoint) :
    inFile { r with files := putFile path l r.files } other =
      if path.same other then l else r.inFile other := by
  unfold inFile
  rw [find?_putFile]
  split <;> rfl

variable {r : Registry} {s : Script.State}

/-- Every call that sets breakpoints returns, sets them in its scope and touches nothing else. -/
theorem Synced.sets (h : r.Synced s) {home : Home} {call : BreakpointCall} {scope : BreakpointScope}
    (hc : call.scope? home = some scope) :
    ∃ list next t, Returns (call.perform Script.context home r) s (list, next) t ∧
      Sets scope (call.asked home) r s list next t := by
  cases call with
  | setLine path requests =>
    cases hc
    obtain ⟨entries, stored, hf, hr⟩ := h.setLine_returns rfl requests
    refine ⟨_, _, _, hr, sets_of_filled hf rfl fun other => ?_⟩
    cases other with
    | file p => exact inFile_putFile _ _ p _
    | commands => rfl
  | setCommands requests =>
    cases hc
    obtain ⟨entries, stored, hf, hr⟩ := h.setCommands_returns requests
    refine ⟨_, _, _, hr, sets_of_filled hf rfl fun other => ?_⟩
    cases other <;> rfl
  | removeAll => cases hc

theorem inFile_of_mem (h : Separate r.files) {f : Path × List Breakpoint} (hf : f ∈ r.files)
    {path : Path} (hs : f.1.same path = true) : r.inFile path = f.2 := by
  rw [inFile, find?_of_mem h hf hs]
  rfl

theorem exists_of_inFile {path : Path} (h : r.inFile path ≠ []) :
    ∃ f ∈ r.files, f.1.same path = true := by
  unfold inFile at h
  generalize hf : List.find? _ r.files = found at h
  cases found with
  | none => exact absurd rfl h
  | some f => exact ⟨f, List.mem_of_find?_eq_some hf, by simpa using List.find?_some hf⟩

/-- All breakpoints: the lists of different files, a file that precedes another one first, and then
the list of the commands. -/
theorem breakpoints_eq_lists (h : Separate r.files) :
    ∃ files : List Path, files.Pairwise (fun p q => q.precedes p = false) ∧
      (∀ path, r.list (.file path) ≠ [] → ∃ p ∈ files, p.same path = true) ∧
      r.breakpoints = files.flatMap (fun p => r.list (.file p)) ++ r.list .commands := by
  have hperm := List.mergeSort_perm r.files fun f g => f.1.precedes g.1
  have hprecedes := @List.pairwise_mergeSort (Path × List Breakpoint) (fun f g => f.1.precedes g.1)
    (fun _ _ _ => Path.precedes_trans) (fun _ _ => Path.precedes_total _ _) r.files
  rw [breakpoints]
  generalize r.files.mergeSort (fun f g => f.1.precedes g.1) = sorted at *
  have hseparate : Separate sorted := by
    refine (hperm.pairwise_iff ?_).mpr h
    intro f g hs
    exact (Path.same_comm _ _).trans hs
  refine ⟨sorted.map Prod.fst, ?_, ?_, ?_⟩
  · refine List.pairwise_map.mpr ((hprecedes.and hseparate).imp ?_)
    rintro f g ⟨hfg, hs⟩
    -- Two files that precede each other would be one.
    refine Bool.eq_false_iff.mpr fun hgf => ?_
    cases hs.symm.trans (Path.same_of_precedes hfg hgf)
  · intro path hp
    obtain ⟨f, hf, hs⟩ := exists_of_inFile hp
    exact ⟨f.1, List.mem_map_of_mem (hperm.symm.subset hf), hs⟩
  · have hlists : ∀ f ∈ sorted, r.list (.file f.1) = f.2 :=
      fun f hf => inFile_of_mem h (hperm.subset hf) (Path.same_self f.1)
    rw [List.flatMap_map]
    exact congrArg (· ++ r.commands) (List.flatMap_congr fun f hf => (hlists f hf).symm)

end Registry
end Stepwise
