import Stepwise.Proofs.Breakpoint.Files
import Stepwise.Proofs.Breakpoint.Filling

namespace Stepwise
open EngineM

namespace Registry

/-- The breakpoints of a file, however it is spelled. -/
def inFile (r : Registry) (path : Path) : List Breakpoint :=
  ((r.files.find? fun (p, _) => p.same path).map (·.2)).getD []

/-- The list of the client's breakpoints in which a breakpoint has its place. -/
def siblings (r : Registry) (b : Breakpoint) : List Breakpoint :=
  match b.source with
  | some path => r.inFile path
  | none => r.commands

/-- The breakpoints of all files and commands that are in force. -/
def verified (r : Registry) : List Breakpoint :=
  (r.files.flatMap (·.2) ++ r.commands).filter (·.verified)

/-- The entries are those of the engine's breakpoints; each tells what the engine stores and is one
of the client's breakpoints in its place, and no verified breakpoint of the client is left out. -/
structure Agrees (r : Registry) (s : Script.State) : Prop where
  keys : (r.byEngineId.map Prod.fst).Perm (s.breakpoints.map (·.id))
  distinct : (s.breakpoints.map (·.id)).Nodup
  mirrored : ∀ entry ∈ r.byEngineId, ∃ b ∈ s.breakpoints, Mirrors entry b
  listed : ∀ entry ∈ r.byEngineId, entry.2 ∈ r.siblings entry.2
  reached : ∀ b ∈ r.verified, ∃! id, (id, b) ∈ r.byEngineId
  numbered : (r.verified.map (·.id)).Nodup ∧ ∀ b ∈ r.verified, b.id.isSome = true

end Registry

/-- The breakpoint has its place in the scope, accepted or not. -/
def Breakpoint.StandsIn (b : Breakpoint) (scope : BreakpointScope) : Prop :=
  ∃ location, b.IsAt location ∧ location.isIn scope = true

namespace Breakpoint.StandsIn

variable {b : Breakpoint} {path : Path}

theorem isIn {scope : BreakpointScope} (h : b.StandsIn scope) : b.isIn scope = true := by
  obtain ⟨location, hb, hl⟩ := h
  rw [hb.isIn_eq]
  exact hl

/-- A breakpoint of a file is one of every spelling of the file and of no other one. -/
theorem isIn_file (h : b.StandsIn (.file path)) (other : Path) :
    b.isIn (.file other) = path.same other := by
  obtain ⟨location, hb, hl⟩ := h
  rw [hb.isIn_eq]
  cases location with
  | line p line column =>
    have hc : p.components = path.components := Path.same_iff.mp hl
    simp [Location.isIn, Path.same, hc]
  | command name => cases hl

theorem spelled (h : b.StandsIn (.file path)) {other : Path} (hs : path.same other = true) :
    b.StandsIn (.file other) := by
  obtain ⟨location, hb, hl⟩ := h
  cases location with
  | line p line column => exact ⟨_, hb, (Path.same_congr hl other).trans hs⟩
  | command name => cases hl

theorem isIn_commands (h : b.StandsIn (.file path)) : b.isIn .commands = false := by
  obtain ⟨location, hb, hl⟩ := h
  rw [hb.isIn_eq]
  cases location with
  | line p line column => rfl
  | command name => cases hl

theorem isIn_file_of_commands (h : b.StandsIn .commands) (path : Path) :
    b.isIn (.file path) = false := by
  obtain ⟨location, hb, hl⟩ := h
  rw [hb.isIn_eq]
  cases location with
  | line p line column => cases hl
  | command name => rfl

end Breakpoint.StandsIn

namespace Registry

/-- Entries and the engine's breakpoints correspond one to one, entries and the verified breakpoints
of the client do, and the next numbers on both sides are new. -/
structure Synced (r : Registry) (s : Script.State) : Prop where
  matched : Matched r.byEngineId s.breakpoints
  distinct : (s.breakpoints.map (·.id)).Nodup
  stored : ∀ b ∈ s.breakpoints, b.id ≤ s.lastId
  reached : (r.byEngineId.map Prod.snd).Perm r.verified
  numbered : (r.byEngineId.map (·.2.id)).Nodup
  issued : ∀ entry ∈ r.byEngineId, ∃ n, entry.2.id = some n ∧ n ≤ r.lastId
  separate : Separate r.files
  files : ∀ f ∈ r.files, ∀ b ∈ f.2, b.StandsIn (.file f.1)
  commands : ∀ b ∈ r.commands, b.StandsIn .commands

namespace Synced

variable {r : Registry} {s : Script.State}

/-- Where a verified breakpoint of the client is found. -/
theorem place (h : r.Synced s) {b : Breakpoint} (hb : b ∈ r.verified) :
    (∃ f ∈ r.files, b ∈ f.2 ∧ b.StandsIn (.file f.1)) ∨ (b ∈ r.commands ∧ b.StandsIn .commands) := by
  rcases List.mem_append.mp (List.mem_filter.mp hb).1 with hf | hc
  · obtain ⟨f, hf, hb⟩ := List.mem_flatMap.mp hf
    exact .inl ⟨f, hf, hb, h.files f hf b hb⟩
  · exact .inr ⟨hc, h.commands b hc⟩

theorem mem_siblings (h : r.Synced s) {b : Breakpoint} (hb : b ∈ r.verified) :
    b ∈ r.siblings b := by
  rcases h.place hb with ⟨f, hf, hbf, location, hl, hs⟩ | ⟨hc, location, hl, hs⟩
  · cases location with
    | line path line column =>
      have hfind := find?_of_mem h.separate hf ((Path.same_comm _ _).trans hs)
      simpa [siblings, hl.1, inFile, hfind] using hbf
    | command name => cases hs
  · cases location with
    | line path line column => cases hs
    | command name => simpa [siblings, hl.1] using hc

theorem agrees (h : r.Synced s) : r.Agrees s where
  keys := h.matched.keys
  distinct := h.distinct
  mirrored := fun _ he => h.matched.exists_stored he
  listed := fun _ he => h.mem_siblings (h.reached.subset (List.mem_map_of_mem he))
  reached := by
    intro b hb
    obtain ⟨⟨id, c⟩, he, rfl⟩ := List.mem_map.mp (h.reached.symm.subset hb)
    refine ⟨id, he, ?_⟩
    intro other ho
    have heq := List.inj_on_of_nodup_map h.numbered ho he rfl
    exact congrArg Prod.fst heq
  numbered := by
    constructor
    · refine (h.reached.map (·.id)).nodup_iff.mp ?_
      rw [List.map_map]
      exact h.numbered
    · intro b hb
      obtain ⟨entry, he, rfl⟩ := List.mem_map.mp (h.reached.symm.subset hb)
      obtain ⟨n, hn, _⟩ := h.issued entry he
      rw [hn]
      rfl

/-- Without breakpoints there is nothing to agree on. -/
theorem empty (last : BreakpointId) (hs : s.breakpoints = []) : Synced { lastId := last } s where
  matched := hs ▸ .nil
  distinct := by simp [hs]
  stored := by simp [hs]
  reached := .nil
  numbered := .nil
  issued := by
    intro entry he
    cases he
  separate := .nil
  files := by
    intro f hf
    cases hf
  commands := by
    intro b hb
    cases hb

theorem nodup_keys (h : r.Synced s) : (r.byEngineId.map Prod.fst).Nodup :=
  h.matched.keys.nodup_iff.mpr h.distinct

theorem key_le (h : r.Synced s) {id : EngineId} (hid : id ∈ r.byEngineId.map Prod.fst) :
    id ≤ s.lastId := by
  obtain ⟨b, hb, rfl⟩ := List.mem_map.mp (h.matched.keys.subset hid)
  exact h.stored b hb

end Synced

/-- The registry without its entries of a scope. -/
def without (r : Registry) (scope : BreakpointScope) : Registry :=
  { r with byEngineId := r.byEngineId.filter fun entry => !entry.2.isIn scope }

namespace Synced

variable {r : Registry} {s : Script.State} {scope : BreakpointScope} {entries : Registered}
  {stored : List Script.Breakpoint}

theorem mem_of_mem_without {entry : EngineId × Breakpoint}
    (he : entry ∈ (r.without scope).byEngineId) : entry ∈ r.byEngineId :=
  (List.mem_filter.mp he).1

theorem matched_without (h : r.Synced s) (scope : BreakpointScope) :
    Matched (r.without scope).byEngineId (s.clearBreakpoints scope).breakpoints := by
  refine h.matched.filter ?_
  intro entry b hm
  rw [hm.place.isIn_eq]

/-- The numbers that confirmed breakpoints get are the next ones. -/
theorem next_id {last : BreakpointId}
    (hn : entries.map (·.2.id) = (List.range' (last + 1) entries.length).map some)
    {entry : EngineId × Breakpoint} (he : entry ∈ entries) :
    ∃ n, entry.2.id = some n ∧ last < n ∧ n ≤ last + entries.length := by
  have hm : entry.2.id ∈ entries.map (·.2.id) := List.mem_map_of_mem he
  rw [hn] at hm
  obtain ⟨n, hr, hs⟩ := List.mem_map.mp hm
  obtain ⟨hl, hu⟩ := List.mem_range'_1.mp hr
  rw [Nat.add_right_comm] at hu
  exact ⟨n, hs.symm, hl, Nat.le_of_lt_succ hu⟩

theorem distinct_replaced (h : r.Synced s) (hb : Batch scope s.lastId entries stored) :
    (((s.clearBreakpoints scope).grown stored).breakpoints.map (·.id)).Nodup := by
  rw [Script.State.grown, List.map_append, hb.ids]
  refine List.nodup_append.mpr ⟨?_, List.nodup_range', ?_⟩
  · exact h.distinct.sublist (List.filter_sublist.map _)
  · intro old ho new hm he
    obtain ⟨b, hmem, rfl⟩ := List.mem_map.mp ho
    have hle : b.id ≤ s.lastId := h.stored b (List.mem_filter.mp hmem).1
    have hlt : s.lastId < new := (List.mem_range'_1.mp hm).1
    exact absurd (he ▸ hle) (Nat.not_le_of_lt hlt)

theorem stored_replaced (h : r.Synced s) (hb : Batch scope s.lastId entries stored) :
    ∀ b ∈ ((s.clearBreakpoints scope).grown stored).breakpoints,
      b.id ≤ ((s.clearBreakpoints scope).grown stored).lastId := by
  intro b hm
  rcases List.mem_append.mp hm with hm | hm
  · exact Nat.le_add_right_of_le (h.stored b (List.mem_filter.mp hm).1)
  · have hid : b.id ∈ stored.map (·.id) := List.mem_map_of_mem hm
    rw [hb.ids] at hid
    have hu := (List.mem_range'_1.mp hid).2
    rw [Nat.add_right_comm] at hu
    exact Nat.le_of_lt_succ hu

theorem numbered_replaced (h : r.Synced s)
    (hn : entries.map (·.2.id) = (List.range' (r.lastId + 1) entries.length).map some) :
    (((r.without scope).byEngineId ++ entries).map (·.2.id)).Nodup := by
  rw [List.map_append]
  refine List.nodup_append.mpr ⟨h.numbered.sublist (List.filter_sublist.map _), ?_, ?_⟩
  · rw [hn]
    exact List.Nodup.map (fun _ _ => Option.some.inj) List.nodup_range'
  · intro old ho new hm he
    obtain ⟨entry, hentry, rfl⟩ := List.mem_map.mp ho
    obtain ⟨other, hother, rfl⟩ := List.mem_map.mp hm
    obtain ⟨n, hid, hle⟩ := h.issued entry (mem_of_mem_without hentry)
    obtain ⟨m, hid', hlt, _⟩ := next_id hn hother
    rw [hid, hid', Option.some.injEq] at he
    exact absurd (he ▸ hle) (Nat.not_le_of_lt hlt)

theorem issued_replaced (h : r.Synced s)
    (hn : entries.map (·.2.id) = (List.range' (r.lastId + 1) entries.length).map some) :
    ∀ entry ∈ (r.without scope).byEngineId ++ entries,
      ∃ n, entry.2.id = some n ∧ n ≤ r.lastId + entries.length := by
  intro entry he
  rcases List.mem_append.mp he with he | he
  · obtain ⟨n, hid, hle⟩ := h.issued entry (mem_of_mem_without he)
    exact ⟨n, hid, Nat.le_add_right_of_le hle⟩
  · obtain ⟨n, hid, _, hle⟩ := next_id hn he
    exact ⟨n, hid, hle⟩

/-- What was kept and what was confirmed is in step again, once the client's lists say the same. -/
theorem replaced (h : r.Synced s) (hb : Batch scope s.lastId entries stored)
    (hn : entries.map (·.2.id) = (List.range' (r.lastId + 1) entries.length).map some)
    {files : List (Path × List Breakpoint)} {commands : List Breakpoint}
    (hr : (r.verified.filter (!·.isIn scope) ++ entries.map Prod.snd).Perm
      ((files.flatMap (·.2) ++ commands).filter (·.verified)))
    (separate : Separate files) (hf : ∀ f ∈ files, ∀ b ∈ f.2, b.StandsIn (.file f.1))
    (hc : ∀ b ∈ commands, b.StandsIn .commands) :
    Synced { lastId := r.lastId + entries.length
             byEngineId := (r.without scope).byEngineId ++ entries, files, commands }
      ((s.clearBreakpoints scope).grown stored) where
  matched := (h.matched_without scope).append hb.matched
  distinct := h.distinct_replaced hb
  stored := h.stored_replaced hb
  reached := by
    refine List.Perm.trans ?_ hr
    rw [List.map_append]
    refine List.Perm.append_right _ ?_
    have hm : (r.without scope).byEngineId.map Prod.snd =
        (r.byEngineId.map Prod.snd).filter (!·.isIn scope) := by
      rw [List.filter_map]
      rfl
    rw [hm]
    exact h.reached.filter _
  numbered := h.numbered_replaced hn
  issued := h.issued_replaced hn
  separate := separate
  files := hf
  commands := hc

theorem not_isIn_cleared (s : Script.State) (scope : BreakpointScope) :
    ∀ b ∈ (s.clearBreakpoints scope).breakpoints, b.location.isIn scope = false := by
  intro b hb
  simpa using (List.mem_filter.mp hb).2

/-- Confirming attempts after their scope was cleared. -/
theorem confirm_cleared (h : r.Synced s) {attempts : List (Attempt Script.State)}
    (ha : ∀ a ∈ attempts, ∃ location, a.Asks location ∧ location.isIn scope = true) :
    ∃ entries stored, Filled scope (Attempt.asked attempts) r.lastId s.lastId entries stored ∧
      Returns ((r.without scope).confirm Script.context scope attempts) (s.clearBreakpoints scope)
        (entries.map Prod.snd ++ refused (Attempt.asked attempts),
          { r with
            lastId := r.lastId + entries.length
            byEngineId := (r.without scope).byEngineId ++ entries })
        ((s.clearBreakpoints scope).grown stored) := by
  have hn : ((r.without scope).byEngineId.map Prod.fst).Nodup :=
    h.nodup_keys.sublist (List.filter_sublist.map _)
  have hk : ∀ id ∈ (r.without scope).byEngineId.map Prod.fst, id ≤ s.lastId := by
    intro id hid
    exact h.key_le ((List.filter_sublist.map _).subset hid)
  exact confirm_returns ha (not_isIn_cleared s scope) hn hk

/-- What setting the breakpoints of a file returns and leaves. -/
theorem setLine_returns (h : r.Synced s) {home : Home} {path file : Path}
    (hp : home.expandHome path = file) (requests : List LineRequest) :
    ∃ entries stored,
      Filled (.file file) (Attempt.asked (requests.map (.ofLine Script.context file))) r.lastId
        s.lastId entries stored ∧
      Returns (r.setLine Script.context home path requests) s
        (entries.map Prod.snd ++
            refused (Attempt.asked (requests.map (.ofLine Script.context file))),
          { r with
            lastId := r.lastId + entries.length
            byEngineId := (r.without (.file file)).byEngineId ++ entries
            files := putFile file (entries.map Prod.snd ++
              refused (Attempt.asked (requests.map (.ofLine Script.context file)))) r.files })
        ((s.clearBreakpoints (.file file)).grown stored) := by
  obtain ⟨entries, stored, hf, hret⟩ := h.confirm_cleared (Attempt.ofLine_asks file requests)
  refine ⟨entries, stored, hf, ?_⟩
  rw [Registry.setLine, hp]
  exact Returns.bind rfl (hret.bind (.pure _ _))

/-- What setting the breakpoints on commands returns and leaves. -/
theorem setCommands_returns (h : r.Synced s) (requests : List CommandRequest) :
    ∃ entries stored,
      Filled .commands (Attempt.asked (requests.map (.ofCommand Script.context))) r.lastId s.lastId
        entries stored ∧
      Returns (r.setCommands Script.context requests) s
        (entries.map Prod.snd ++
            refused (Attempt.asked (requests.map (.ofCommand Script.context))),
          { r with
            lastId := r.lastId + entries.length
            byEngineId := (r.without .commands).byEngineId ++ entries
            commands := entries.map Prod.snd ++
              refused (Attempt.asked (requests.map (.ofCommand Script.context))) })
        ((s.clearBreakpoints .commands).grown stored) := by
  obtain ⟨entries, stored, hf, hret⟩ := h.confirm_cleared (Attempt.ofCommand_asks requests)
  have hw : (r.without .commands) =
      { r with byEngineId := r.byEngineId.filter fun entry => entry.2.name.isNone } := by
    simp [without, Breakpoint.isIn]
  refine ⟨entries, stored, hf, ?_⟩
  rw [hw] at hret ⊢
  exact Returns.bind rfl (hret.bind (.pure _ _))

/-- What comes back from a call: the confirmed breakpoints, all verified, and the refused ones. -/
theorem filter_confirmed (hb : Batch scope s.lastId entries stored) {refusals : List Breakpoint}
    (hf : ∀ b ∈ refusals, b.Refused scope) :
    (entries.map Prod.snd ++ refusals).filter (·.verified) = entries.map Prod.snd := by
  rw [List.filter_append, List.filter_eq_self.mpr, List.filter_eq_nil_iff.mpr, List.append_nil]
  · intro b hm
    simp [(hf b hm).verified]
  · intro b hm
    obtain ⟨entry, he, rfl⟩ := List.mem_map.mp hm
    obtain ⟨c, _, hmirrors⟩ := hb.matched.exists_stored he
    exact hmirrors.verified

theorem standsIn_confirmed (hb : Batch scope s.lastId entries stored) {refusals : List Breakpoint}
    (hf : ∀ b ∈ refusals, b.Refused scope) :
    ∀ b ∈ entries.map Prod.snd ++ refusals, b.StandsIn scope := by
  intro b hm
  rcases List.mem_append.mp hm with hm | hm
  · obtain ⟨entry, he, rfl⟩ := List.mem_map.mp hm
    obtain ⟨c, hc, hmirrors⟩ := hb.matched.exists_stored he
    exact ⟨c.location, hmirrors.place, hb.inScope c hc⟩
  · exact (hf b hm).place

theorem ids_confirmed {last : BreakpointId}
    (hn : entries.map (·.2.id) = (List.range' (last + 1) entries.length).map some)
    {refusals : List Breakpoint} (hf : ∀ b ∈ refusals, b.Refused scope) :
    (entries.map Prod.snd ++ refusals).filterMap (·.id) =
      List.range' (last + 1) entries.length := by
  have hr : refusals.filterMap (·.id) = [] :=
    List.filterMap_eq_nil_iff.mpr fun b hb => (hf b hb).id
  have he : entries.filterMap (·.2.id) = (entries.map (·.2.id)).filterMap id := by
    rw [List.filterMap_map]
    rfl
  rw [List.filterMap_append, hr, List.append_nil, List.filterMap_map]
  refine he.trans ?_
  rw [hn, List.filterMap_map]
  exact List.filterMap_some

/-- The breakpoints that are not on commands are those of the files. -/
theorem verified_outside_commands (h : r.Synced s) :
    r.verified.filter (!·.isIn .commands) = (r.files.flatMap (·.2)).filter (·.verified) := by
  have hf : (r.files.flatMap (·.2)).filter (!·.isIn .commands) = r.files.flatMap (·.2) := by
    refine List.filter_eq_self.mpr ?_
    intro b hb
    obtain ⟨f, hf, hbf⟩ := List.mem_flatMap.mp hb
    simp [(h.files f hf b hbf).isIn_commands]
  have hc : r.commands.filter (!·.isIn .commands) = [] := by
    refine List.filter_eq_nil_iff.mpr ?_
    intro b hb
    simp [(h.commands b hb).isIn]
  rw [verified, List.filter_comm, List.filter_append, hf, hc, List.append_nil]

/-- A file keeps all its breakpoints or loses them all. -/
theorem filter_files {files : List (Path × List Breakpoint)}
    (hf : ∀ f ∈ files, ∀ b ∈ f.2, b.StandsIn (.file f.1)) (path : Path) :
    (files.flatMap Prod.snd).filter (!·.isIn (.file path)) =
      (files.filter fun f => !f.1.same path).flatMap Prod.snd := by
  induction files with
  | nil => rfl
  | cons f rest ih =>
    have hr := ih fun g hg => hf g (List.mem_cons_of_mem f hg)
    have hb : ∀ b ∈ f.2, b.isIn (.file path) = f.1.same path :=
      fun b hb => (hf f List.mem_cons_self b hb).isIn_file path
    rw [List.flatMap_cons, List.filter_append, hr]
    cases hs : f.1.same path with
    | true =>
      rw [List.filter_cons_of_neg (by simp [hs]), List.filter_eq_nil_iff.mpr, List.nil_append]
      intro b hm
      simp [hb b hm, hs]
    | false =>
      rw [List.filter_cons_of_pos (by simp [hs]), List.flatMap_cons, List.filter_eq_self.mpr]
      intro b hm
      simp [hb b hm, hs]

/-- The breakpoints that are not in a file are those of the other files and on commands. -/
theorem verified_outside_file (h : r.Synced s) (path : Path) :
    r.verified.filter (!·.isIn (.file path)) =
      ((r.files.filter fun f => !f.1.same path).flatMap (·.2) ++ r.commands).filter
        (·.verified) := by
  have hc : r.commands.filter (!·.isIn (.file path)) = r.commands := by
    refine List.filter_eq_self.mpr ?_
    intro b hb
    simp [(h.commands b hb).isIn_file_of_commands]
  rw [verified, List.filter_comm, List.filter_append, filter_files h.files, hc]

end Synced

/-- The call leaves registry and engine in step, and what it returns has the next numbers. -/
def KeepsStep (r : Registry) (s : Script.State)
    (m : EngineM Script.State (List Breakpoint × Registry)) : Prop :=
  ∃ returned next t, Returns m s (returned, next) t ∧ next.Synced t ∧
    ∃ n, next.lastId = r.lastId + n ∧ returned.filterMap (·.id) = List.range' (r.lastId + 1) n

namespace Synced

variable {r : Registry} {s : Script.State}

theorem setCommands (h : r.Synced s) (requests : List CommandRequest) :
    KeepsStep r s (r.setCommands Script.context requests) := by
  obtain ⟨entries, stored, hfilled, hret⟩ := h.setCommands_returns requests
  have hf := Attempt.refused_of_asks (Attempt.ofCommand_asks requests)
  refine ⟨_, _, _, hret, ?_, entries.length, rfl, ids_confirmed hfilled.ids hf⟩
  refine h.replaced hfilled.batch hfilled.ids ?_ h.separate h.files
    (standsIn_confirmed hfilled.batch hf)
  rw [h.verified_outside_commands, List.filter_append, filter_confirmed hfilled.batch hf]

theorem setLine (h : r.Synced s) (home : Home) (path : Path) (requests : List LineRequest) :
    KeepsStep r s (r.setLine Script.context home path requests) := by
  generalize hp : home.expandHome path = file
  obtain ⟨entries, stored, hfilled, hret⟩ := h.setLine_returns hp requests
  have hf := Attempt.refused_of_asks (Attempt.ofLine_asks file requests)
  refine ⟨_, _, _, hret, ?_, entries.length, rfl, ids_confirmed hfilled.ids hf⟩
  refine h.replaced hfilled.batch hfilled.ids ?_ (h.separate.putFile file _) ?_ h.commands
  · have hperm := (flatMap_putFile_append_perm h.separate file
      (entries.map Prod.snd ++ refused (Attempt.asked (requests.map (.ofLine Script.context file))))
      r.commands).filter (·.verified)
    rw [List.filter_append, filter_confirmed hfilled.batch hf] at hperm
    rw [h.verified_outside_file]
    exact hperm
  · intro f hm b hbf
    rcases mem_putFile h.separate hm with ⟨hm, _⟩ | ⟨hs, hl⟩
    · exact h.files f hm b hbf
    · rw [hl] at hbf
      exact (standsIn_confirmed hfilled.batch hf b hbf).spelled ((Path.same_comm _ _).trans hs)

theorem clearFiles_returns (files : List (Path × List Breakpoint)) (s : Script.State) :
    Returns (clearFiles Script.context files) s () { s with
      breakpoints := s.breakpoints.filter fun b =>
        files.all fun f => !b.location.isIn (.file f.1) } := by
  induction files generalizing s with
  | nil =>
    simp only [List.all_nil, List.filter_true]
    exact .pure () s
  | cons f rest ih =>
    have hr := ih (s.clearBreakpoints (.file f.1))
    have hf : (s.clearBreakpoints (.file f.1)).breakpoints.filter
        (fun b => rest.all fun g => !b.location.isIn (.file g.1)) =
        s.breakpoints.filter fun b => (f :: rest).all fun g => !b.location.isIn (.file g.1) := by
      simp [Script.State.clearBreakpoints, List.filter_filter, Bool.and_comm]
    rw [hf] at hr
    exact Returns.bind rfl hr

/-- In whatever order the files are cleared, the engine is left the same. -/
theorem clearFiles_of_perm {files others : List (Path × List Breakpoint)}
    (h : files.Perm others) {t : Script.State}
    (hr : Returns (clearFiles Script.context files) s () t) :
    Returns (clearFiles Script.context others) s () t := by
  obtain ⟨-, rfl⟩ := hr.unique (clearFiles_returns files s)
  have hall : ∀ b : Script.Breakpoint,
      (files.all fun f => !b.location.isIn (.file f.1)) =
        others.all fun f => !b.location.isIn (.file f.1) := fun _ => h.all_eq
  simp only [hall]
  exact clearFiles_returns others s

/-- Every breakpoint of the engine is in a file of the registry or on a command. -/
theorem isIn_known (h : r.Synced s) {b : Script.Breakpoint} (hb : b ∈ s.breakpoints) :
    (∃ f ∈ r.files, b.location.isIn (.file f.1) = true) ∨ b.location.isIn .commands = true := by
  obtain ⟨entry, he, hm⟩ := h.matched.exists_entry hb
  have hv : entry.2 ∈ r.verified := h.reached.subset (List.mem_map_of_mem he)
  rcases h.place hv with ⟨f, hf, _, hs⟩ | ⟨_, hs⟩
  · exact .inl ⟨f, hf, (hm.place.isIn_eq _).symm.trans hs.isIn⟩
  · exact .inr ((hm.place.isIn_eq _).symm.trans hs.isIn)

theorem removeAll (h : r.Synced s) :
    ∃ t, Returns (r.removeAll Script.context) s { lastId := r.lastId } t ∧
      Synced { lastId := r.lastId } t := by
  refine ⟨_, (clearFiles_returns r.files s).bind (Returns.bind rfl (.pure _ _)), .empty _ ?_⟩
  rw [Script.State.clearBreakpoints, List.filter_eq_nil_iff]
  intro b hb
  obtain ⟨hm, hk⟩ := List.mem_filter.mp hb
  rcases h.isIn_known hm with ⟨f, hf, hs⟩ | hs
  · have hn := List.all_eq_true.mp hk f hf
    simp [hs] at hn
  · simp [hs]

end Synced
end Registry

/-- The calls by which a client changes its breakpoints. -/
inductive BreakpointCall where
  | setLine (path : Path) (requests : List LineRequest)
  | setCommands (requests : List CommandRequest)
  | removeAll

namespace BreakpointCall

variable {σ : Type}

/-- What a call returns, and the registry after it. -/
def perform (cx : Context σ) (home : Home) (r : Registry) :
    BreakpointCall → EngineM σ (List Breakpoint × Registry)
  | .setLine path requests => r.setLine cx home path requests
  | .setCommands requests => r.setCommands cx requests
  | .removeAll => do
    let r ← r.removeAll cx
    return ([], r)

/-- Everything that the calls return, in order, and the registry after all of them. -/
def performAll (cx : Context σ) (home : Home) :
    List BreakpointCall → Registry → EngineM σ (List Breakpoint × Registry)
  | [], r => return ([], r)
  | call :: rest, r => do
    let (returned, r) ← call.perform cx home r
    let (others, r) ← performAll cx home rest r
    return (returned ++ others, r)

theorem perform_keepsStep {r : Registry} {s : Script.State} (h : r.Synced s) (home : Home)
    (call : BreakpointCall) : r.KeepsStep s (call.perform Script.context home r) := by
  cases call with
  | setLine path requests => exact h.setLine home path requests
  | setCommands requests => exact h.setCommands requests
  | removeAll =>
    obtain ⟨t, hret, ht⟩ := h.removeAll
    exact ⟨[], _, t, hret.bind (.pure _ _), ht, 0, rfl, rfl⟩

/-- The numbers of a client are given in order, whatever the calls. -/
theorem performAll_keepsStep {r : Registry} {s : Script.State} (h : r.Synced s) (home : Home)
    (calls : List BreakpointCall) :
    r.KeepsStep s (performAll Script.context home calls r) := by
  induction calls generalizing r s with
  | nil => exact ⟨[], r, s, .pure _ _, h, 0, rfl, rfl⟩
  | cons call rest ih =>
    obtain ⟨returned, next, t, hret, ht, n, hlast, hids⟩ := perform_keepsStep h home call
    obtain ⟨others, last, u, hret', hu, m, hlast', hids'⟩ := ih ht
    refine ⟨returned ++ others, last, u, hret.bind (hret'.bind (.pure _ _)), hu, n + m, ?_, ?_⟩
    · rw [hlast', hlast, Nat.add_assoc]
    · rw [List.filterMap_append, hids, hids', hlast, Nat.add_right_comm]
      exact List.range'_append_1

/-- From an engine without breakpoints and a new registry, every sequence of calls returns, the two
stores agree after it, and no two of the breakpoints that were returned have the same number. -/
theorem performAll_agrees (home : Home) (s : Script.State) (calls : List BreakpointCall) :
    ∃ returned r t,
      Returns (performAll Script.context home calls {}) { s with breakpoints := [] }
        (returned, r) t ∧
      r.Agrees t ∧ (returned.filterMap (·.id)).Nodup := by
  have h : Registry.Synced {} { s with breakpoints := [] } := .empty 0 rfl
  obtain ⟨returned, r, t, hret, ht, n, _, hids⟩ := performAll_keepsStep h home calls
  refine ⟨returned, r, t, hret, ht.agrees, ?_⟩
  rw [hids]
  exact List.nodup_range'

end BreakpointCall
end Stepwise
