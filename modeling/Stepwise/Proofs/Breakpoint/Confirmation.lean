import Stepwise.Breakpoint.Registry
import Mathlib.Data.List.Perm.Basic

namespace Stepwise

section Entries

variable {α β : Type} [BEq α] [LawfulBEq α] {key : α} {value : β} {l : List (α × β)}

theorem putEntry_of_not_mem (h : key ∉ l.map Prod.fst) :
    putEntry key value l = l ++ [(key, value)] := by
  induction l with
  | nil => rfl
  | cons entry rest ih =>
    obtain ⟨k, v⟩ := entry
    rw [List.map_cons, List.mem_cons, not_or] at h
    rw [putEntry, if_neg (by simpa using Ne.symm h.1), ih h.2]
    rfl

theorem lookup_putEntry_self (key : α) (value : β) (l : List (α × β)) :
    (putEntry key value l).lookup key = some value := by
  induction l with
  | nil => simp [putEntry]
  | cons entry rest ih =>
    obtain ⟨k, v⟩ := entry
    by_cases hk : k = key
    · simp [putEntry, hk]
    · have hne : (key == k) = false := beq_false_of_ne (Ne.symm hk)
      simp [putEntry, hk, List.lookup_cons, hne, ih]

theorem lookup_putEntry_of_ne {key other : α} (h : other ≠ key) (value : β) (l : List (α × β)) :
    (putEntry key value l).lookup other = l.lookup other := by
  have hne : (other == key) = false := beq_false_of_ne h
  induction l with
  | nil => simp [putEntry, List.lookup_cons, hne]
  | cons entry rest ih =>
    obtain ⟨k, v⟩ := entry
    by_cases hk : k = key
    · simp [putEntry, hk, List.lookup_cons, hne]
    · simp [putEntry, hk, List.lookup_cons, ih]

theorem lookup_of_mem (hn : (l.map Prod.fst).Nodup) (h : (key, value) ∈ l) :
    l.lookup key = some value := by
  obtain ⟨before, after, rfl⟩ := List.append_of_mem h
  refine List.lookup_eq_some_iff.mpr ⟨before, after, rfl, ?_⟩
  intro e he
  rw [List.map_append, List.map_cons] at hn
  have hne := (List.nodup_append.mp hn).2.2 e.1 (List.mem_map_of_mem he) key List.mem_cons_self
  simpa [bne_iff_ne] using Ne.symm hne

theorem not_mem_of_lookup_none (h : l.lookup key = none) : key ∉ l.map Prod.fst := by
  intro hm
  obtain ⟨e, he, rfl⟩ := List.mem_map.mp hm
  simpa using List.lookup_eq_none_iff.mp h e he

/-- With distinct keys an entry that is found can be taken out by its key. -/
theorem perm_cons_of_lookup (hn : (l.map Prod.fst).Nodup) (h : l.lookup key = some value) :
    l.Perm ((key, value) :: l.filter (·.1 != key)) := by
  obtain ⟨before, after, rfl, hb⟩ := List.lookup_eq_some_iff.mp h
  have hb : before.filter (·.1 != key) = before := by
    refine List.filter_eq_self.mpr ?_
    intro e he
    simpa [bne_comm] using hb e he
  have ha : after.filter (·.1 != key) = after := by
    refine List.filter_eq_self.mpr ?_
    intro e he
    rw [List.map_append, List.map_cons] at hn
    have hk := (List.nodup_cons.mp (List.nodup_append.mp hn).2.1).1
    have hne : e.1 ≠ key := fun hek => hk (List.mem_map.mpr ⟨e, he, hek⟩)
    simpa using hne
  simp only [List.filter_append, List.filter_cons, bne_self_eq_false, Bool.false_eq_true,
    ↓reduceIte, hb, ha]
  exact List.perm_middle

end Entries

/-- Registered breakpoints with the numbers after the last one that was given. -/
def numbered (last : BreakpointId) : Registered → Registered
  | [] => []
  | (id, b) :: rest => (id, { b with id := some (last + 1) }) :: numbered (last + 1) rest

/-- The registered breakpoints that the engine lists, in its order and as it placed them. -/
def found (registered : Registered) : List EngineBreakpoint → Registered
  | [] => []
  | listed :: rest =>
    match registered.lookup listed.id with
    | none => found registered rest
    | some b =>
      (listed.id, Registry.placed b listed.location) ::
        found (registered.filter (·.1 != listed.id)) rest

/-- The registered breakpoints that the engine does not list. -/
def unlisted (registered : Registered) (listing : List EngineBreakpoint) : Registered :=
  registered.filter fun (id, _) => listing.all (·.id != id)

section

variable {registered : Registered} {listed : EngineBreakpoint}

theorem unlisted_cons_of_none (h : registered.lookup listed.id = none)
    (rest : List EngineBreakpoint) :
    unlisted registered (listed :: rest) = unlisted registered rest := by
  refine List.filter_congr ?_
  intro e he
  have hne : listed.id != e.1 := List.lookup_eq_none_iff.mp h e he
  simp [hne]

theorem unlisted_filter (registered : Registered) (listed : EngineBreakpoint)
    (rest : List EngineBreakpoint) :
    unlisted (registered.filter (·.1 != listed.id)) rest = unlisted registered (listed :: rest) := by
  simp only [unlisted, List.filter_filter, List.all_cons]
  refine List.filter_congr ?_
  intro e _
  simp [bne_comm, Bool.and_comm]

end

@[simp] theorem length_numbered (last : BreakpointId) (l : Registered) :
    (numbered last l).length = l.length := by
  induction l generalizing last with
  | nil => rfl
  | cons entry rest ih => simp [numbered, ih]

@[simp] theorem keys_numbered (last : BreakpointId) (l : Registered) :
    (numbered last l).map Prod.fst = l.map Prod.fst := by
  induction l generalizing last with
  | nil => rfl
  | cons entry rest ih => simp [numbered, ih]

theorem numbered_append (last : BreakpointId) (l others : Registered) :
    numbered last (l ++ others) = numbered last l ++ numbered (last + l.length) others := by
  induction l generalizing last with
  | nil => rfl
  | cons entry rest ih => simp [numbered, ih, Nat.add_right_comm, Nat.add_assoc]

theorem ids_numbered (last : BreakpointId) (l : Registered) :
    (numbered last l).map (·.2.id) = (List.range' (last + 1) l.length).map some := by
  induction l generalizing last with
  | nil => rfl
  | cons entry rest ih => simp [numbered, ih, List.range'_succ]

namespace Registry

/-- New keys are entered behind those that are there, each with its number. -/
theorem confirmRest_eq (r : Registry) (l : Registered)
    (hn : (r.byEngineId.map Prod.fst ++ l.map Prod.fst).Nodup) :
    r.confirmRest l = ((numbered r.lastId l).map Prod.snd,
      { r with
        lastId := r.lastId + l.length
        byEngineId := r.byEngineId ++ numbered r.lastId l }) := by
  induction l generalizing r with
  | nil => simp [confirmRest, numbered]
  | cons entry rest ih =>
    obtain ⟨id, b⟩ := entry
    have hk : id ∉ r.byEngineId.map Prod.fst := by
      intro hm
      exact (List.nodup_append.mp hn).2.2 id hm id List.mem_cons_self rfl
    simp only [confirmRest, confirmOne, putEntry_of_not_mem hk]
    rw [ih _ (by simpa using hn)]
    simp [numbered, Nat.add_right_comm, Nat.add_assoc]

/-- What is confirmed does not depend on the keys that are there. -/
theorem fst_confirmRest (r : Registry) (l : Registered) :
    (r.confirmRest l).1 = (numbered r.lastId l).map Prod.snd := by
  induction l generalizing r with
  | nil => rfl
  | cons entry rest ih =>
    obtain ⟨id, b⟩ := entry
    simp [confirmRest, confirmOne, numbered, ih]

theorem confirmRest_append (r : Registry) (l others : Registered) :
    r.confirmRest (l ++ others) =
      ((r.confirmRest l).1 ++ ((r.confirmRest l).2.confirmRest others).1,
        ((r.confirmRest l).2.confirmRest others).2) := by
  induction l generalizing r with
  | nil => rfl
  | cons entry rest ih => simp [confirmRest, ih]

@[simp] theorem lastId_confirmRest (r : Registry) (l : Registered) :
    (r.confirmRest l).2.lastId = r.lastId + l.length := by
  induction l generalizing r with
  | nil => rfl
  | cons entry rest ih => simp [confirmRest, confirmOne, ih, Nat.add_right_comm, Nat.add_assoc]

theorem lookup_confirmRest_of_not_mem {id : EngineId} {l : Registered}
    (h : id ∉ l.map Prod.fst) (r : Registry) :
    (r.confirmRest l).2.byEngineId.lookup id = r.byEngineId.lookup id := by
  induction l generalizing r with
  | nil => rfl
  | cons entry rest ih =>
    rw [List.map_cons, List.mem_cons, not_or] at h
    rw [confirmRest, ih h.2, confirmOne, lookup_putEntry_of_ne h.1]

/-- What is confirmed is found by the engine's number, whatever was found there before. -/
theorem lookup_confirmRest {l : Registered} (hn : (l.map Prod.fst).Nodup) (r : Registry) :
    ∀ entry ∈ numbered r.lastId l, (r.confirmRest l).2.byEngineId.lookup entry.1 = some entry.2 := by
  induction l generalizing r with
  | nil => simp [numbered]
  | cons entry rest ih =>
    obtain ⟨id, b⟩ := entry
    obtain ⟨hid, hn⟩ := List.nodup_cons.mp hn
    rw [numbered, List.forall_mem_cons]
    constructor
    · rw [confirmRest, lookup_confirmRest_of_not_mem hid, confirmOne, lookup_putEntry_self]
    · exact ih hn (r.confirmOne id b).2

/-- Confirming what is listed is confirming what is found in the list. -/
theorem confirmListed_eq (r : Registry) (registered : Registered)
    (listing : List EngineBreakpoint) :
    r.confirmListed registered listing =
      ((r.confirmRest (found registered listing)).1, unlisted registered listing,
        (r.confirmRest (found registered listing)).2) := by
  induction listing generalizing r registered with
  | nil => simp [confirmListed, found, unlisted, confirmRest]
  | cons listed rest ih =>
    cases h : registered.lookup listed.id with
    | none => simp only [confirmListed, found, h, ih, unlisted_cons_of_none h]
    | some b => simp only [confirmListed, found, h, ih, unlisted_filter, confirmRest]

end Registry

/-- An engine that lists all that was registered, and where it was asked for, has it confirmed in
the order of its list. -/
theorem found_eq {registered order : Registered} {listing : List EngineBreakpoint}
    (hn : (registered.map Prod.fst).Nodup) (hp : order.Perm registered)
    (hl : List.Forall₂ (fun listed entry =>
      entry.1 = listed.id ∧ Registry.placed entry.2 listed.location = entry.2) listing order) :
    found registered listing = order := by
  induction hl generalizing registered with
  | nil => rfl
  | @cons listed entry rest others he _ ih =>
    obtain ⟨id, b⟩ := entry
    obtain ⟨rfl, hb⟩ := he
    have hlookup := lookup_of_mem hn (hp.subset List.mem_cons_self)
    have htaken := perm_cons_of_lookup hn hlookup
    simp only [found, hlookup, hb]
    rw [ih (hn.sublist (List.filter_sublist.map Prod.fst)) (hp.trans htaken).cons_inv]

theorem unlisted_eq_nil {registered : Registered} {listing : List EngineBreakpoint}
    (hs : registered.map Prod.fst ⊆ listing.map (·.id)) : unlisted registered listing = [] := by
  refine List.filter_eq_nil_iff.mpr ?_
  intro e he
  obtain ⟨listed, hl, hid⟩ := List.mem_map.mp (hs (List.mem_map_of_mem he))
  rw [Bool.not_eq_true, List.all_eq_false]
  exact ⟨listed, hl, by simp [hid]⟩

end Stepwise
