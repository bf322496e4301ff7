import Stepwise.Breakpoint.Registry
import Stepwise.Script.Engine
import Stepwise.Proofs.Engine.Returns
import Stepwise.Proofs.Breakpoint.Confirmation
import Mathlib.Data.List.Nodup

namespace Stepwise
open EngineM

/-- The place that the client knows a breakpoint by. -/
def Breakpoint.IsAt (b : Breakpoint) : Location → Prop
  | .line path line column =>
    b.source = some path ∧ b.line = some line ∧ b.column = column ∧ b.name = none
  | .command name => b.source = none ∧ b.line = none ∧ b.column = none ∧ b.name = some name

/-- An entry of the registry tells what the engine stores. -/
structure Mirrors (entry : EngineId × Breakpoint) (stored : Script.Breakpoint) : Prop where
  id : entry.1 = stored.id
  verified : entry.2.verified = true
  place : entry.2.IsAt stored.location
  condition : entry.2.condition = stored.condition.map Prod.fst
  hitCount : entry.2.hitCondition.mapM hitCount? = .ok stored.hitCount

namespace Breakpoint

variable {b : Breakpoint} {location : Location}

def isIn (b : Breakpoint) : BreakpointScope → Bool
  | .file file => b.source.any (·.same file)
  | .commands => b.name.isSome

theorem IsAt.isIn_eq (h : b.IsAt location) (scope : BreakpointScope) :
    b.isIn scope = location.isIn scope := by
  cases location <;> cases scope <;> simp [isIn, Location.isIn, h.1, h.2.2.2]

theorem IsAt.withId (h : b.IsAt location) (id : Option BreakpointId) :
    IsAt { b with id } location := by
  cases location <;> exact h

theorem IsAt.placed_eq (h : b.IsAt location) : Registry.placed b location = b := by
  cases location with
  | line path line column =>
    obtain ⟨_, hl, hc, _⟩ := h
    rw [Registry.placed, ← hl, ← hc]
  | command name => rfl

theorem hitCount_of_validate {n : Option Nat} (h : b.validate = .ok n) :
    b.hitCondition.mapM hitCount? = .ok n := by
  unfold validate at h
  split at h
  · cases h
  · cases hc : b.hitCondition with
    | none =>
      rw [hc] at h
      exact h
    | some text =>
      rw [hc] at h
      exact h

end Breakpoint

/-- Entries and stored breakpoints correspond one to one. -/
def Matched (entries : Registered) (stored : List Script.Breakpoint) : Prop :=
  ∃ order, List.Forall₂ Mirrors entries order ∧ order.Perm stored

namespace Matched

variable {entries others : Registered} {stored more : List Script.Breakpoint}

theorem nil : Matched [] [] :=
  ⟨[], .nil, .nil⟩

theorem append (h : Matched entries stored) (h' : Matched others more) :
    Matched (entries ++ others) (stored ++ more) := by
  obtain ⟨order, hm, hp⟩ := h
  obtain ⟨order', hm', hp'⟩ := h'
  exact ⟨order ++ order', List.rel_append hm hm', hp.append hp'⟩

theorem perm (h : Matched entries stored) (hp : others.Perm entries) : Matched others stored := by
  obtain ⟨order, hm, ho⟩ := h
  obtain ⟨order', hm', ho'⟩ := List.perm_comp_forall₂ hp hm
  exact ⟨order', hm', ho'.trans ho⟩

theorem filter {p : EngineId × Breakpoint → Bool} {q : Script.Breakpoint → Bool}
    (h : Matched entries stored) (hpq : ∀ {entry b}, Mirrors entry b → p entry = q b) :
    Matched (entries.filter p) (stored.filter q) := by
  obtain ⟨order, hm, hp⟩ := h
  refine ⟨order.filter q, List.rel_filter ?_ hm, hp.filter q⟩
  intro entry b he
  exact Bool.eq_iff_iff.mp (hpq he)

theorem keys (h : Matched entries stored) :
    (entries.map Prod.fst).Perm (stored.map (·.id)) := by
  obtain ⟨order, hm, hp⟩ := h
  have hk : entries.map Prod.fst = order.map (·.id) := by
    clear hp
    induction hm with
    | nil => rfl
    | cons he _ ih => rw [List.map_cons, List.map_cons, he.id, ih]
  rw [hk]
  exact hp.map _

theorem exists_stored (h : Matched entries stored) {entry : EngineId × Breakpoint}
    (he : entry ∈ entries) : ∃ b ∈ stored, Mirrors entry b := by
  obtain ⟨order, hm, hp⟩ := h
  obtain ⟨i, hi, rfl⟩ := List.mem_iff_getElem.mp he
  have ho : i < order.length := hm.length_eq ▸ hi
  exact ⟨order[i], hp.subset (List.getElem_mem ho), hm.get hi ho⟩

theorem exists_entry (h : Matched entries stored) {b : Script.Breakpoint} (hb : b ∈ stored) :
    ∃ entry ∈ entries, Mirrors entry b := by
  obtain ⟨order, hm, hp⟩ := h
  obtain ⟨i, ho, rfl⟩ := List.mem_iff_getElem.mp (hp.symm.subset hb)
  have hi : i < entries.length := hm.length_eq ▸ ho
  exact ⟨entries[i], List.getElem_mem hi, hm.get hi ho⟩

/-- Entries keep their counterparts when they get their numbers. -/
theorem numbered (h : Matched entries stored) (last : BreakpointId) :
    Matched (numbered last entries) stored := by
  obtain ⟨order, hm, hp⟩ := h
  refine ⟨order, ?_, hp⟩
  clear hp
  induction hm generalizing last with
  | nil => exact .nil
  | cons he _ ih => exact .cons ⟨he.id, he.verified, he.place.withId _, he.condition, he.hitCount⟩ (ih _)

end Matched

namespace Script

variable {s t : State} {α : Type} {a : α}

theorem answer_ok {f : State → Except ScriptError (α × State)} (h : f s = .ok (a, t)) :
    Returns (answer f) s (.ok a) t := by
  simp [Returns, answer, OptionT.run, OptionT.mk, h]

theorem answer_error {f : State → Except ScriptError (α × State)} {e : ScriptError}
    {report : EngineError} (h : f s = .error e) (hr : e.report? = some report) :
    Returns (answer f) s (.error report) s := by
  simp [Returns, answer, OptionT.run, OptionT.mk, h, hr]

theorem observe_returns (f : State → α) : Returns (observe f) s (f s) s := rfl

/-- The state with further breakpoints behind the others. -/
def State.grown (s : State) (new : List Breakpoint) : State :=
  { s with lastId := s.lastId + new.length, breakpoints := s.breakpoints ++ new }

/-- The condition as it is stored, with the expression that it stands for. -/
def readCondition : Option String → Except ParseError (Option (String × Expr))
  | none => .ok none
  | some text => (Expr.parse text).map fun e => some (text, e)

theorem readCondition_text {condition : Option String} {c : Option (String × Expr)}
    (h : readCondition condition = .ok c) : c.map Prod.fst = condition := by
  cases condition with
  | none =>
    cases h
    rfl
  | some text =>
    cases hp : Expr.parse text with
    | error e =>
      rw [readCondition, hp] at h
      cases h
    | ok e =>
      rw [readCondition, hp] at h
      cases h
      rfl

theorem addBreakpoint_cases (s : State) (location : Location) (condition : Option String)
    (hitCount : Option Nat) :
    (∃ e, readCondition condition = .error e ∧
      s.addBreakpoint location condition hitCount = .error (.parse e)) ∨
    (∃ c, readCondition condition = .ok c ∧
      s.addBreakpoint location condition hitCount =
        .ok (s.lastId + 1, s.grown [⟨s.lastId + 1, location, c, hitCount, 0⟩])) := by
  cases condition with
  | none => exact .inr ⟨none, rfl, rfl⟩
  | some text =>
    cases hp : Expr.parse text with
    | error e =>
      left
      refine ⟨e, by rw [readCondition, hp]; rfl, ?_⟩
      simp [State.addBreakpoint, hp]
      rfl
    | ok e =>
      right
      refine ⟨some (text, e), by rw [readCondition, hp]; rfl, ?_⟩
      simp [State.addBreakpoint, hp]
      rfl

theorem State.grown_grown (s : State) (new more : List Breakpoint) :
    (s.grown new).grown more = s.grown (new ++ more) := by
  simp [State.grown, Nat.add_assoc]

@[simp] theorem State.grown_nil (s : State) : s.grown [] = s := by
  simp [State.grown]

end Script

namespace Breakpoint

/-- What a breakpoint is stored with besides its place, or the message with which it is refused. -/
def terms (b : Breakpoint) : Except String (Option Nat × Option (String × Expr)) :=
  match b.validate with
  | .error message => .error message
  | .ok hitCount =>
    match Script.readCondition b.condition with
    | .error e => .error e.message
    | .ok condition => .ok (hitCount, condition)

/-- The breakpoint with the message with which it is refused. -/
def refusal? (b : Breakpoint) : Option Breakpoint :=
  match b.terms with
  | .ok _ => none
  | .error message => some { b with message := some message }

/-- The engine stores the breakpoint as it was asked for and has not counted it yet. -/
structure StoredAs (b : Breakpoint) (stored : Script.Breakpoint) : Prop where
  place : b.IsAt stored.location
  terms : b.terms = .ok (stored.hitCount, stored.condition)
  hits : stored.hits = 0

variable {b : Breakpoint} {location : Location} {stored : Script.Breakpoint}

theorem StoredAs.refusal?_eq_none (h : b.StoredAs stored) : b.refusal? = none := by
  rw [refusal?, h.terms]

theorem of_terms {n : Option Nat} {c : Option (String × Expr)} (h : b.terms = .ok (n, c)) :
    b.validate = .ok n ∧ Script.readCondition b.condition = .ok c := by
  unfold terms at h
  split at h
  · cases h
  · next hv =>
    split at h
    · cases h
    · next hc =>
      cases h
      exact ⟨hv, hc⟩

/-- The breakpoint once it is accepted. -/
def inForce (b : Breakpoint) : Breakpoint :=
  { b with verified := true }

theorem IsAt.inForce (h : b.IsAt location) : b.inForce.IsAt location := by
  cases location <;> exact h

theorem StoredAs.mirrors (h : b.StoredAs stored) : Mirrors (stored.id, b.inForce) stored := by
  obtain ⟨hv, hc⟩ := of_terms h.terms
  exact ⟨rfl, rfl, h.place.inForce, (Script.readCondition_text hc).symm, hitCount_of_validate hv⟩

end Breakpoint

/-- The breakpoints that are accepted, in the order in which they were asked for. -/
def accepted (asked : List Breakpoint) : List Breakpoint :=
  asked.filter (·.refusal?.isNone)

/-- The breakpoints that are refused, in the order in which they were asked for. -/
def refused (asked : List Breakpoint) : List Breakpoint :=
  asked.filterMap (·.refusal?)

section

variable {b c : Breakpoint} {l : List Breakpoint}

theorem accepted_cons_of_some (h : b.refusal? = some c) : accepted (b :: l) = accepted l :=
  List.filter_cons_of_neg (by simp [h])

theorem accepted_cons_of_none (h : b.refusal? = none) : accepted (b :: l) = b :: accepted l :=
  List.filter_cons_of_pos (by simp [h])

theorem refused_cons_of_some (h : b.refusal? = some c) : refused (b :: l) = c :: refused l :=
  List.filterMap_cons_some h

theorem refused_cons_of_none (h : b.refusal? = none) : refused (b :: l) = refused l :=
  List.filterMap_cons_none h

end

/-- An attempt to have a breakpoint stored at a location. -/
structure Attempt.Asks (a : Attempt Script.State) (location : Location) : Prop where
  register : a.register = fun hitCount =>
    Script.answer (·.addBreakpoint location a.breakpoint.condition hitCount)
  place : a.breakpoint.IsAt location
  id : a.breakpoint.id = none
  verified : a.breakpoint.verified = false

/-- A breakpoint that was refused. -/
structure Breakpoint.Refused (b : Breakpoint) (scope : BreakpointScope) : Prop where
  id : b.id = none
  verified : b.verified = false
  place : ∃ location, b.IsAt location ∧ location.isIn scope = true

/-- Breakpoints of a scope, each with how the engine stores it under the next of its numbers. -/
structure Stores (scope : BreakpointScope) (last : EngineId)
    (pairs : List (Breakpoint × Script.Breakpoint)) : Prop where
  each : ∀ p ∈ pairs, p.1.StoredAs p.2
  inScope : ∀ p ∈ pairs, p.2.location.isIn scope = true
  ids : pairs.map (·.2.id) = List.range' (last + 1) pairs.length

/-- The entries of the breakpoints that are stored. -/
def entered (pairs : List (Breakpoint × Script.Breakpoint)) : Registered :=
  pairs.map fun (b, stored) => (stored.id, b.inForce)

namespace Stores

variable {scope : BreakpointScope} {last : EngineId}
  {pairs : List (Breakpoint × Script.Breakpoint)}

theorem nil (scope : BreakpointScope) (last : EngineId) : Stores scope last [] :=
  ⟨List.forall_mem_nil _, List.forall_mem_nil _, rfl⟩

theorem cons {b : Breakpoint} {stored : Script.Breakpoint} (hb : b.StoredAs stored)
    (hi : stored.id = last + 1) (hs : stored.location.isIn scope = true)
    (h : Stores scope (last + 1) pairs) : Stores scope last ((b, stored) :: pairs) := by
  refine ⟨List.forall_mem_cons.mpr ⟨hb, h.each⟩, List.forall_mem_cons.mpr ⟨hs, h.inScope⟩, ?_⟩
  rw [List.map_cons, hi, h.ids, List.length_cons, List.range'_succ]

theorem nodup_keys (h : Stores scope last pairs) : ((entered pairs).map Prod.fst).Nodup := by
  rw [entered, List.map_map]
  exact h.ids ▸ List.nodup_range'

end Stores

namespace Attempt

variable {s : Script.State} {a : Attempt Script.State} {location : Location}
  {scope : BreakpointScope} {attempts : List (Attempt Script.State)}

/-- The breakpoints that attempts ask for. -/
def asked (attempts : List (Attempt Script.State)) : List Breakpoint :=
  attempts.map (·.breakpoint)

/-- One attempt: a refusal, or a stored breakpoint and its entry. -/
theorem run_cases (ha : a.Asks location) (s : Script.State) :
    (∃ b, a.breakpoint.refusal? = some b ∧ Returns a.run s (.error b) s) ∨
    (∃ stored, a.breakpoint.StoredAs stored ∧ stored.id = s.lastId + 1 ∧
      stored.location = location ∧
      Returns a.run s (.ok (stored.id, a.breakpoint.inForce)) (s.grown [stored])) := by
  cases hv : a.breakpoint.validate with
  | error message =>
    left
    refine ⟨{ a.breakpoint with message := some message }, ?_, ?_⟩
    · simp only [Breakpoint.refusal?, Breakpoint.terms, hv]
    · rw [run, hv]
      rfl
  | ok hitCount =>
    rcases Script.addBreakpoint_cases s location a.breakpoint.condition hitCount with
      ⟨e, hc, he⟩ | ⟨c, hc, hb⟩
    · left
      refine ⟨{ a.breakpoint with message := some e.message }, ?_, ?_⟩
      · simp only [Breakpoint.refusal?, Breakpoint.terms, hv, hc]
      · rw [run, hv, ha.register]
        exact (Script.answer_error he rfl).bind (.pure _ _)
    · right
      refine ⟨⟨s.lastId + 1, location, c, hitCount, 0⟩, ⟨ha.place, ?_, rfl⟩, rfl, rfl, ?_⟩
      · simp only [Breakpoint.terms, hv, hc]
      · rw [run, hv, ha.register]
        exact (Script.answer_ok hb).bind (.pure _ _)

/-- What is refused keeps its place. -/
theorem refused_of_asks (ha : ∀ a ∈ attempts, ∃ location, a.Asks location ∧ location.isIn scope = true) :
    ∀ b ∈ refused (asked attempts), b.Refused scope := by
  intro b hb
  obtain ⟨_, hm, hr⟩ := List.mem_filterMap.mp hb
  obtain ⟨a, hmem, rfl⟩ := List.mem_map.mp hm
  obtain ⟨location, hasks, hs⟩ := ha a hmem
  unfold Breakpoint.refusal? at hr
  split at hr
  · cases hr
  · cases hr
    refine ⟨hasks.id, hasks.verified, location, ?_, hs⟩
    have hp := hasks.place
    cases location <;> exact hp

theorem next_fresh {registered : Registered} {last : EngineId}
    (hk : ∀ id ∈ registered.map Prod.fst, id ≤ last) : last + 1 ∉ registered.map Prod.fst :=
  fun hm => Nat.not_succ_le_self _ (hk _ hm)

theorem key_le_next {registered : Registered} {last : EngineId}
    (hk : ∀ id ∈ registered.map Prod.fst, id ≤ last) (b : Breakpoint) :
    ∀ id ∈ (putEntry (last + 1) b registered).map Prod.fst, id ≤ last + 1 := by
  intro id hi
  rw [putEntry_of_not_mem (next_fresh hk), List.map_append, List.mem_append] at hi
  rcases hi with hi | hi
  · exact Nat.le_succ_of_le (hk id hi)
  · exact Nat.le_of_eq (List.mem_singleton.mp hi)

/-- All attempts: what is refused is left out, and the rest is stored in order. -/
theorem runAll_returns (attempts : List (Attempt Script.State))
    (ha : ∀ a ∈ attempts, ∃ location, a.Asks location ∧ location.isIn scope = true)
    (s : Script.State) (registered : Registered) (others : List Breakpoint)
    (hk : ∀ id ∈ registered.map Prod.fst, id ≤ s.lastId) :
    ∃ pairs, pairs.map Prod.fst = accepted (asked attempts) ∧ Stores scope s.lastId pairs ∧
      Returns (runAll attempts registered others) s
        (registered ++ entered pairs, others ++ refused (asked attempts))
        (s.grown (pairs.map Prod.snd)) := by
  induction attempts generalizing s registered others with
  | nil =>
    refine ⟨[], rfl, .nil scope s.lastId, ?_⟩
    simp only [entered, asked, refused, List.map_nil, List.filterMap_nil, List.append_nil,
      Script.State.grown_nil]
    exact .pure _ s
  | cons a rest ih =>
    have hr : ∀ a ∈ rest, ∃ location, a.Asks location ∧ location.isIn scope = true :=
      fun b hb => ha b (List.mem_cons_of_mem _ hb)
    obtain ⟨location, hasks, hscope⟩ := ha a List.mem_cons_self
    rcases run_cases hasks s with ⟨b, href, hrun⟩ | ⟨stored, hb, hid, hloc, hrun⟩
    · obtain ⟨pairs, hp, hs, hall⟩ := ih hr s registered (others ++ [b]) hk
      refine ⟨pairs, ?_, hs, ?_⟩
      · rw [hp]
        exact (accepted_cons_of_some href).symm
      · rw [asked, List.map_cons, refused_cons_of_some href, List.append_cons, runAll]
        exact hrun.bind hall
    · -- The engine's numbers only grow, so an accepted breakpoint replaces no entry.
      have href := hb.refusal?_eq_none
      obtain ⟨pairs, hp, hs, hall⟩ := ih hr (s.grown [stored])
        (putEntry (s.lastId + 1) a.breakpoint.inForce registered) others (key_le_next hk _)
      refine ⟨(a.breakpoint, stored) :: pairs, ?_, hs.cons hb hid (hloc ▸ hscope), ?_⟩
      · rw [List.map_cons, hp]
        exact (accepted_cons_of_none href).symm
      · have hput : putEntry (s.lastId + 1) a.breakpoint.inForce registered =
            registered ++ [(stored.id, a.breakpoint.inForce)] := by
          rw [hid]
          exact putEntry_of_not_mem (next_fresh hk)
        rw [hput, Script.State.grown_grown, List.append_assoc, ← hput] at hall
        rw [asked, List.map_cons, refused_cons_of_none href, runAll]
        refine hrun.bind ?_
        rw [hid]
        exact hall

theorem ofLine_asks (path : Path) (requests : List LineRequest) :
    ∀ a ∈ requests.map (ofLine Script.context path),
      ∃ location, a.Asks location ∧ location.isIn (.file path) = true := by
  intro a hm
  obtain ⟨r, _, rfl⟩ := List.mem_map.mp hm
  exact ⟨.line path r.line r.column, ⟨rfl, ⟨rfl, rfl, rfl, rfl⟩, rfl, rfl⟩, Path.same_self path⟩

theorem ofCommand_asks (requests : List CommandRequest) :
    ∀ a ∈ requests.map (ofCommand Script.context),
      ∃ location, a.Asks location ∧ location.isIn .commands = true := by
  intro a hm
  obtain ⟨r, _, rfl⟩ := List.mem_map.mp hm
  exact ⟨.command r.name, ⟨rfl, ⟨rfl, rfl, rfl, rfl⟩, rfl, rfl⟩, rfl⟩

end Attempt

end Stepwise
