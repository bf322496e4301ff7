import Stepwise.Proofs.Breakpoint.Agreement
import Stepwise.Proofs.Script.Registered

namespace Stepwise
open EngineM

namespace Script.State

variable {s t : State}

/-- Every breakpoint has a greater number than those registered before it. -/
def Ordered (s : State) : Prop :=
  (s.breakpoints.map (·.id)).Pairwise (· < ·)

theorem Ordered.same (h : s.Ordered) (ht : t.registered = s.registered) : t.Ordered := by
  unfold Ordered
  rw [(Prod.mk.inj ht).1]
  exact h

theorem Ordered.filter (h : s.Ordered) {p : Script.Breakpoint → Bool}
    (ht : t.breakpoints = s.breakpoints.filter p) : t.Ordered := by
  unfold Ordered
  rw [ht]
  exact h.sublist (List.filter_sublist.map _)

theorem Ordered.grown (h : s.Ordered) (hs : ∀ b ∈ s.breakpoints, b.id ≤ s.lastId)
    {new : List Script.Breakpoint} (hn : new.map (·.id) = List.range' (s.lastId + 1) new.length) :
    (s.grown new).Ordered := by
  unfold Ordered State.grown
  rw [List.map_append, hn]
  refine List.pairwise_append.mpr ⟨h, List.pairwise_lt_range', ?_⟩
  intro old ho next hm
  obtain ⟨b, hb, rfl⟩ := List.mem_map.mp ho
  exact Nat.lt_of_le_of_lt (hs b hb) (List.mem_range'_1.mp hm).1

end Script.State

namespace BreakpointCall

/-- Whether the call replaces the breakpoint, by another or by none. -/
def replaces (home : Home) (call : BreakpointCall) (b : Breakpoint) : Bool :=
  match call with
  | .setLine path _ => b.isIn (.file (home.expandHome path))
  | .setCommands _ => b.isIn .commands
  | .removeAll => true

end BreakpointCall

namespace Registry

variable {r next : Registry} {s t : Script.State} {b : Breakpoint} {list : List Breakpoint}

theorem mem_breakpoints :
    b ∈ r.breakpoints ↔ b ∈ r.files.flatMap (·.2) ∨ b ∈ r.commands := by
  unfold breakpoints
  rw [List.mem_append, (((List.mergeSort_perm _ _).flatMap_right _)).mem_iff]

/-- What a call leaves: registry and engine in step, the breakpoints it returned with those that it
does not replace, and the engine's order. -/
structure Replaced (home : Home) (call : BreakpointCall) (r : Registry) (s : Script.State)
    (list : List Breakpoint) (next : Registry) (t : Script.State) : Prop where
  synced : next.Synced t
  breakpoints : ∀ b, b ∈ next.breakpoints ↔
    b ∈ list ∨ (b ∈ r.breakpoints ∧ call.replaces home b = false)
  ordered : s.Ordered → t.Ordered

namespace Synced

theorem isIn_commands_of_mem_files (h : r.Synced s) (hb : b ∈ r.files.flatMap (·.2)) :
    b.isIn .commands = false := by
  obtain ⟨f, hf, hbf⟩ := List.mem_flatMap.mp hb
  exact (h.files f hf b hbf).isIn_commands

/-- The breakpoints of the files after one of them has been given another list. -/
theorem mem_flatMap_putFile (h : r.Synced s) (path : Path) (list : List Breakpoint) :
    b ∈ (putFile path list r.files).flatMap (·.2) ↔
      b ∈ list ∨ (b ∈ r.files.flatMap (·.2) ∧ b.isIn (.file path) = false) := by
  rw [(flatMap_putFile_perm h.separate path list).mem_iff, ← filter_files h.files, List.mem_append,
    List.mem_filter, Bool.not_eq_true', or_comm]

theorem ordered_replaced (h : r.Synced s) {scope : BreakpointScope} {entries : Registered}
    {stored : List Script.Breakpoint} (hb : Batch scope s.lastId entries stored) (ho : s.Ordered) :
    ((s.clearBreakpoints scope).grown stored).Ordered := by
  have hc : (s.clearBreakpoints scope).Ordered := ho.filter rfl
  exact hc.grown (fun b hm => h.stored b (List.mem_filter.mp hm).1) hb.ids

theorem setLine_replaced (h : r.Synced s) (home : Home) (path : Path) (requests : List LineRequest)
    (hr : Returns (r.setLine Script.context home path requests) s (list, next) t) :
    Replaced home (.setLine path requests) r s list next t := by
  obtain ⟨list', next', t', hr', hsynced, -⟩ := h.setLine home path requests
  obtain ⟨⟨⟩, rfl⟩ := hr.unique hr'
  generalize hp : home.expandHome path = file at *
  obtain ⟨entries, stored, hfilled, hret⟩ := h.setLine_returns hp requests
  obtain ⟨he, rfl⟩ := hr.unique hret
  cases he
  refine ⟨hsynced, fun b => ?_, h.ordered_replaced hfilled.batch⟩
  rw [mem_breakpoints, mem_breakpoints, h.mem_flatMap_putFile, BreakpointCall.replaces, hp]
  have hc : b ∈ r.commands → b.isIn (.file file) = false :=
    fun hm => (h.commands b hm).isIn_file_of_commands file
  tauto

theorem setCommands_replaced (h : r.Synced s) (home : Home) (requests : List CommandRequest)
    (hr : Returns (r.setCommands Script.context requests) s (list, next) t) :
    Replaced home (.setCommands requests) r s list next t := by
  obtain ⟨list', next', t', hr', hsynced, -⟩ := h.setCommands requests
  obtain ⟨⟨⟩, rfl⟩ := hr.unique hr'
  obtain ⟨entries, stored, hfilled, hret⟩ := h.setCommands_returns requests
  obtain ⟨he, rfl⟩ := hr.unique hret
  cases he
  refine ⟨hsynced, fun b => ?_, h.ordered_replaced hfilled.batch⟩
  rw [mem_breakpoints, mem_breakpoints, BreakpointCall.replaces]
  have hf : b ∈ r.files.flatMap (·.2) → b.isIn .commands = false := h.isIn_commands_of_mem_files
  have hc : b ∈ r.commands → b.isIn .commands = true := fun hm => (h.commands b hm).isIn
  grind

theorem removeAll_replaced (h : r.Synced s) (home : Home) :
    ∃ t, Returns (r.removeAll Script.context) s { lastId := r.lastId } t ∧
      Replaced home .removeAll r s [] { lastId := r.lastId } t := by
  obtain ⟨t, hr, hsynced⟩ := h.removeAll
  refine ⟨t, hr, hsynced, fun b => ?_, fun _ => ?_⟩
  · simp [mem_breakpoints, BreakpointCall.replaces]
  · have hn : t.breakpoints.map (·.id) = [] := hsynced.matched.keys.nil_eq.symm
    rw [Script.State.Ordered, hn]
    exact .nil

/-- Every call returns. -/
theorem perform_replaced (h : r.Synced s) (home : Home) (call : BreakpointCall) :
    ∃ list next t, Returns (call.perform Script.context home r) s (list, next) t ∧
      Replaced home call r s list next t := by
  cases call with
  | setLine path requests =>
    obtain ⟨list, next, t, hr, -⟩ := h.setLine home path requests
    exact ⟨list, next, t, hr, h.setLine_replaced home path requests hr⟩
  | setCommands requests =>
    obtain ⟨list, next, t, hr, -⟩ := h.setCommands requests
    exact ⟨list, next, t, hr, h.setCommands_replaced home requests hr⟩
  | removeAll =>
    obtain ⟨t, hr, hreplaced⟩ := h.removeAll_replaced home
    exact ⟨[], _, t, hr.bind (.pure _ _), hreplaced⟩

end Synced
end Registry
end Stepwise
