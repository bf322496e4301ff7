import Stepwise.Proofs.Breakpoint.Registration

namespace Stepwise
open EngineM

/-- Whether a breakpoint comes before another one: by its line, then by its column, and then by its
number among those that were asked for. -/
def Breakpoint.comesBefore : Breakpoint × Nat → Breakpoint × Nat → Bool
  | (a, i), (b, j) =>
    a.line.getD 0 < b.line.getD 0 || (a.line.getD 0 == b.line.getD 0 &&
      (a.column.getD 0 < b.column.getD 0 || (a.column.getD 0 == b.column.getD 0 && i ≤ j)))

/-- Breakpoints by line, then by column, and then in the order in which they were asked for. -/
def inPlace (l : List Breakpoint) : List Breakpoint :=
  (l.zipIdx.mergeSort Breakpoint.comesBefore).map Prod.fst

/-- Breakpoints in place are sorted: of two that were asked for, one comes first. -/
theorem pairwise_comesBefore (l : List Breakpoint) :
    (l.zipIdx.mergeSort Breakpoint.comesBefore).Pairwise
      fun p q => Breakpoint.comesBefore p q = true := by
  refine List.pairwise_mergeSort ?_ ?_ _
  · intro p q r hpq hqr
    simp only [Breakpoint.comesBefore, Bool.or_eq_true, Bool.and_eq_true, decide_eq_true_eq,
      beq_iff_eq] at hpq hqr ⊢
    omega
  · intro p q
    simp only [Breakpoint.comesBefore, Bool.or_eq_true, Bool.and_eq_true, decide_eq_true_eq,
      beq_iff_eq]
    omega

theorem inPlace_perm (l : List Breakpoint) : (inPlace l).Perm l := by
  have h := (List.mergeSort_perm l.zipIdx Breakpoint.comesBefore).map Prod.fst
  rwa [List.zipIdx_map_fst] at h

theorem Breakpoint.IsAt.position_eq {b : Breakpoint} {stored : Script.Breakpoint}
    (h : b.IsAt stored.location) : stored.position = (b.line.getD 0, b.column.getD 0) := by
  unfold Script.Breakpoint.position
  cases hl : stored.location with
  | line path line column =>
    rw [hl] at h
    rw [h.2.1, h.2.2.1]
    rfl
  | command name =>
    rw [hl] at h
    rw [h.2.1, h.2.2.1]
    rfl

/-- Stored breakpoints in the order in which the engine lists them. -/
def inOrder (pairs : List (Breakpoint × Script.Breakpoint)) :
    List (Breakpoint × Script.Breakpoint) :=
  pairs.mergeSort fun p q => p.2.precedes q.2

theorem map_snd_inOrder (pairs : List (Breakpoint × Script.Breakpoint)) :
    (inOrder pairs).map Prod.snd = (pairs.map Prod.snd).mergeSort Script.Breakpoint.precedes :=
  List.map_mergeSort fun _ _ _ _ => rfl

namespace Stores

variable {scope : BreakpointScope} {last : EngineId}
  {pairs : List (Breakpoint × Script.Breakpoint)}

theorem id_eq (h : Stores scope last pairs) {p : (Breakpoint × Script.Breakpoint) × Nat}
    (hp : p ∈ pairs.zipIdx) : p.1.2.id = last + 1 + p.2 := by
  have hget := List.mem_zipIdx_iff_getElem?.mp hp
  have hlt : p.2 < pairs.length := (List.getElem?_eq_some_iff.mp hget).1
  have hid : (pairs.map (·.2.id))[p.2]? = some p.1.2.id := by rw [List.getElem?_map, hget]; rfl
  rw [h.ids, List.getElem?_range' hlt, Nat.one_mul] at hid
  exact (Option.some.inj hid).symm

/-- The engine compares stored breakpoints as what was asked for compares. -/
theorem precedes_eq (h : Stores scope last pairs) {p q : (Breakpoint × Script.Breakpoint) × Nat}
    (hp : p ∈ pairs.zipIdx) (hq : q ∈ pairs.zipIdx) :
    p.1.2.precedes q.1.2 = Breakpoint.comesBefore (p.1.1, p.2) (q.1.1, q.2) := by
  have hpos (x : (Breakpoint × Script.Breakpoint) × Nat) (hx : x ∈ pairs.zipIdx) :
      x.1.2.position = (x.1.1.line.getD 0, x.1.1.column.getD 0) :=
    (h.each x.1 (List.fst_mem_of_mem_zipIdx hx)).place.position_eq
  simp only [Script.Breakpoint.precedes, hpos p hp, hpos q hq, h.id_eq hp, h.id_eq hq,
    Breakpoint.comesBefore, Nat.add_le_add_iff_left]

/-- What is listed in the engine's order was asked for in this order. -/
theorem map_fst_inOrder (h : Stores scope last pairs) :
    (inOrder pairs).map Prod.fst = inPlace (pairs.map Prod.fst) := by
  -- Both are one sorted list of pairs with their numbers, less what the other one does not need.
  have hnumbers : (pairs.zipIdx.mergeSort fun p q => p.1.2.precedes q.1.2).map Prod.fst =
      inOrder pairs := by
    have hs := List.map_mergeSort (f := Prod.fst) (l := pairs.zipIdx)
      (r := fun p q => p.1.2.precedes q.1.2) (s := fun p q => p.2.precedes q.2)
      (fun _ _ _ _ => rfl)
    rwa [List.zipIdx_map_fst] at hs
  have hstored : (pairs.zipIdx.mergeSort fun p q => p.1.2.precedes q.1.2).map
      (Prod.map Prod.fst id) = (pairs.map Prod.fst).zipIdx.mergeSort Breakpoint.comesBefore := by
    rw [List.zipIdx_map]
    exact List.map_mergeSort fun p hp q hq => h.precedes_eq hp hq
  rw [← hnumbers, inPlace, ← hstored, List.map_map, List.map_map]
  rfl

end Stores

/-- Newly stored breakpoints of a scope and their entries. -/
structure Batch (scope : BreakpointScope) (last : EngineId) (entries : Registered)
    (stored : List Script.Breakpoint) : Prop where
  matched : Matched entries stored
  ids : stored.map (·.id) = List.range' (last + 1) stored.length
  inScope : ∀ b ∈ stored, b.location.isIn scope = true

theorem Batch.lt_key {scope : BreakpointScope} {last : EngineId} {entries : Registered}
    {stored : List Script.Breakpoint} (h : Batch scope last entries stored) {id : EngineId}
    (hid : id ∈ entries.map Prod.fst) : last < id := by
  have hm := h.matched.keys.subset hid
  rw [h.ids] at hm
  exact (List.mem_range'_1.mp hm).1

/-- The breakpoints as they are confirmed, with the next numbers. -/
def confirmed (last : BreakpointId) (l : List Breakpoint) : List Breakpoint :=
  l.mapIdx fun i b => { b.inForce with id := some (last + 1 + i) }

theorem map_snd_numbered (last : BreakpointId) (pairs : List (Breakpoint × Script.Breakpoint)) :
    (numbered last (entered pairs)).map Prod.snd = confirmed last (pairs.map Prod.fst) := by
  induction pairs generalizing last with
  | nil => rfl
  | cons p rest ih =>
    have hr := ih (last + 1)
    simp only [confirmed, Nat.add_right_comm (last + 1) 1] at hr
    simp only [entered, List.map_cons, numbered, confirmed, List.mapIdx_cons] at hr ⊢
    rw [hr]
    simp [Nat.add_assoc, Nat.add_comm 1]

/-- What is entered and stored when breakpoints of a scope are asked for. -/
structure Filled (scope : BreakpointScope) (asked : List Breakpoint) (lastEntry : BreakpointId)
    (last : EngineId) (entries : Registered) (stored : List Script.Breakpoint) : Prop where
  batch : Batch scope last entries stored
  ids : entries.map (·.2.id) = (List.range' (lastEntry + 1) entries.length).map some
  storedAs : List.Forall₂ Breakpoint.StoredAs (accepted asked) stored
  confirmed : entries.map Prod.snd = confirmed lastEntry (inPlace (accepted asked))

section

variable {scope : BreakpointScope} {last : EngineId}
  {pairs : List (Breakpoint × Script.Breakpoint)}

theorem Stores.batch (h : Stores scope last pairs) :
    Batch scope last (entered pairs) (pairs.map Prod.snd) where
  matched := by
    refine ⟨_, ?_, .refl _⟩
    rw [entered, List.forall₂_map_left_iff, List.forall₂_map_right_iff, List.forall₂_same]
    exact fun p hp => (h.each p hp).mirrors
  ids := by
    rw [List.map_map, List.length_map]
    exact h.ids
  inScope := by
    intro b hb
    obtain ⟨p, hp, rfl⟩ := List.mem_map.mp hb
    exact h.inScope p hp

/-- The engine lists what was stored as it was asked for, so every entry is found. -/
theorem Stores.found_eq (h : Stores scope last pairs) :
    found (entered pairs)
      (((pairs.map Prod.snd).mergeSort Script.Breakpoint.precedes).map Script.Breakpoint.listed) =
      entered (inOrder pairs) := by
  refine Stepwise.found_eq h.nodup_keys ((List.mergeSort_perm pairs _).map _) ?_
  rw [← map_snd_inOrder, List.map_map, entered, List.forall₂_map_left_iff,
    List.forall₂_map_right_iff, List.forall₂_same]
  intro p hp
  have hb := (h.each p ((List.mergeSort_perm pairs _).subset hp)).place.inForce
  exact ⟨rfl, hb.placed_eq⟩

/-- The engine lists everything that was stored. -/
theorem Stores.unlisted_eq_nil (h : Stores scope last pairs) :
    unlisted (entered pairs)
      (((pairs.map Prod.snd).mergeSort Script.Breakpoint.precedes).map Script.Breakpoint.listed) =
      [] := by
  refine Stepwise.unlisted_eq_nil ?_
  rw [List.map_map]
  refine (h.batch.matched.keys.trans ?_).subset
  exact ((List.mergeSort_perm _ _).map _).symm

theorem Stores.filled {asked : List Breakpoint} (h : Stores scope last pairs)
    (hp : pairs.map Prod.fst = accepted asked) (lastEntry : BreakpointId) :
    Filled scope asked lastEntry last (numbered lastEntry (entered (inOrder pairs)))
      (pairs.map Prod.snd) where
  batch := { h.batch with
    matched := (h.batch.matched.perm ((List.mergeSort_perm pairs _).map _)).numbered lastEntry }
  ids := by rw [ids_numbered, length_numbered]
  storedAs := by
    rw [← hp, List.forall₂_map_left_iff, List.forall₂_map_right_iff, List.forall₂_same]
    exact h.each
  confirmed := by rw [map_snd_numbered, h.map_fst_inOrder, hp]

end

theorem Script.listing_eq {s : Script.State} {scope : BreakpointScope}
    {stored : List Script.Breakpoint}
    (hs : ∀ b ∈ s.breakpoints, b.location.isIn scope = false)
    (hn : ∀ b ∈ stored, b.location.isIn scope = true) :
    (s.grown stored).listBreakpoints scope =
      (stored.mergeSort Script.Breakpoint.precedes).map Script.Breakpoint.listed := by
  have hf : (s.grown stored).breakpoints.filter (fun b => b.location.isIn scope) = stored := by
    rw [State.grown, List.filter_append, List.filter_eq_nil_iff.mpr (by simpa using hs),
      List.filter_eq_self.mpr hn, List.nil_append]
  rw [State.listBreakpoints, hf]

/-- Confirming attempts of a scope that the engine has nothing of: what it accepts is entered and
stored, and nothing else changes. -/
theorem Registry.confirm_returns {scope : BreakpointScope} {attempts : List (Attempt Script.State)}
    (ha : ∀ a ∈ attempts, ∃ location, a.Asks location ∧ location.isIn scope = true)
    {s : Script.State} (hs : ∀ b ∈ s.breakpoints, b.location.isIn scope = false)
    {r : Registry} (hn : (r.byEngineId.map Prod.fst).Nodup)
    (hk : ∀ id ∈ r.byEngineId.map Prod.fst, id ≤ s.lastId) :
    ∃ entries stored, Filled scope (Attempt.asked attempts) r.lastId s.lastId entries stored ∧
      Returns (r.confirm Script.context scope attempts) s
        (entries.map Prod.snd ++ refused (Attempt.asked attempts),
          { r with
            lastId := r.lastId + entries.length
            byEngineId := r.byEngineId ++ entries })
        (s.grown stored) := by
  obtain ⟨pairs, hp, hstores, hall⟩ := Attempt.runAll_returns attempts ha s [] [] nofun
  rw [List.nil_append, List.nil_append] at hall
  have hfilled := hstores.filled hp r.lastId
  have hlisting := Script.listing_eq hs hfilled.batch.inScope
  have hkeys : ((entered (inOrder pairs)).map Prod.fst).Perm ((entered pairs).map Prod.fst) :=
    ((List.mergeSort_perm pairs _).map _).map _
  have hfresh : (r.byEngineId.map Prod.fst ++ (entered (inOrder pairs)).map Prod.fst).Nodup := by
    refine List.nodup_append.mpr ⟨hn, hkeys.nodup_iff.mpr hstores.nodup_keys, ?_⟩
    intro old ho new hm he
    have hlt : s.lastId < new := hstores.batch.lt_key (hkeys.subset hm)
    exact absurd (he ▸ hk old ho) (Nat.not_le_of_lt hlt)
  refine ⟨_, _, hfilled, hall.bind ((Script.observe_returns _).bind ?_)⟩
  simp only [hlisting, confirmListed_eq, hstores.found_eq, confirmRest_eq r _ hfresh,
    hstores.unlisted_eq_nil, confirmRest, List.append_nil, length_numbered]
  exact .pure _ _

/-- What is confirmed in a scope that the engine has nothing of, whatever the registry holds. -/
theorem Registry.confirm_lists {scope : BreakpointScope} {attempts : List (Attempt Script.State)}
    (ha : ∀ a ∈ attempts, ∃ location, a.Asks location ∧ location.isIn scope = true)
    {s : Script.State} (hs : ∀ b ∈ s.breakpoints, b.location.isIn scope = false) (r : Registry) :
    ∃ next t, Returns (r.confirm Script.context scope attempts) s
      (Stepwise.confirmed r.lastId (inPlace (accepted (Attempt.asked attempts))) ++
        refused (Attempt.asked attempts), next) t := by
  obtain ⟨pairs, hp, hstores, hall⟩ := Attempt.runAll_returns attempts ha s [] [] nofun
  rw [List.nil_append, List.nil_append] at hall
  have hlisting := Script.listing_eq hs hstores.batch.inScope
  refine ⟨(r.confirmRest (entered (inOrder pairs))).2, s.grown (pairs.map Prod.snd),
    hall.bind ((Script.observe_returns _).bind ?_)⟩
  simp only [hlisting, confirmListed_eq, hstores.found_eq, fst_confirmRest, map_snd_numbered,
    hstores.map_fst_inOrder, hp, hstores.unlisted_eq_nil, confirmRest, List.append_nil]
  exact .pure _ _

end Stepwise
