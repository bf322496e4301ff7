import Mathlib
import Stepwise.Proofs.Breakpoint.Scoped

namespace Stepwise
open EngineM

namespace Attempt

/-- What a request comes to: it is refused with a reason or accepted under a number of the
engine. -/
abbrev Outcome := Except Breakpoint (EngineId × Breakpoint)

/-- An attempt in a state of the engine, what it comes to and the state it leaves. -/
inductive Meets {σ : Type} (a : Attempt σ) (s : σ) : Outcome → σ → Prop
  | invalid {message : String} (h : a.breakpoint.validate = .error message) :
    Meets a s (.error { a.breakpoint with message := some message }) s
  | refused {hitCount : Option Nat} {e : EngineError} {t : σ}
    (h : a.breakpoint.validate = .ok hitCount)
    (answer : (a.register hitCount).Returns s (.error e) t) :
    Meets a s (.error { a.breakpoint with message := some e.message }) t
  | accepted {hitCount : Option Nat} {id : EngineId} {t : σ}
    (h : a.breakpoint.validate = .ok hitCount)
    (answer : (a.register hitCount).Returns s (.ok id) t) :
    Meets a s (.ok (id, { a.breakpoint with verified := true })) t

/-- Attempts one after the other, with what each of them comes to. -/
inductive AllMeet {σ : Type} : List (Attempt σ) → σ → List Outcome → σ → Prop
  | nil (s : σ) : AllMeet [] s [] s
  | cons {a : Attempt σ} {rest : List (Attempt σ)} {s t u : σ} {o : Outcome} {os : List Outcome}
    (head : a.Meets s o t) (tail : AllMeet rest t os u) : AllMeet (a :: rest) s (o :: os) u

/-- What was accepted, in the order of the requests. -/
def admitted (outcomes : List Outcome) : Registered :=
  outcomes.filterMap Except.toOption

/-- What was refused, in the order of the requests. -/
def rejected (outcomes : List Outcome) : List Breakpoint :=
  outcomes.filterMap fun
    | .error b => some b
    | .ok _ => none

@[simp] theorem admitted_error (b : Breakpoint) (os : List Outcome) :
    admitted (.error b :: os) = admitted os := rfl

@[simp] theorem admitted_ok (entry : EngineId × Breakpoint) (os : List Outcome) :
    admitted (.ok entry :: os) = entry :: admitted os := rfl

@[simp] theorem rejected_error (b : Breakpoint) (os : List Outcome) :
    rejected (.error b :: os) = b :: rejected os := rfl

@[simp] theorem rejected_ok (entry : EngineId × Breakpoint) (os : List Outcome) :
    rejected (.ok entry :: os) = rejected os := rfl

/-- Every request is accepted or refused. -/
theorem length_admitted_add_rejected (os : List Outcome) :
    (admitted os).length + (rejected os).length = os.length := by
  induction os with
  | nil => rfl
  | cons o os ih => cases o <;> simp <;> omega

/-- The registered breakpoints with others entered under their numbers. -/
def enter (registered accepted : Registered) : Registered :=
  accepted.foldl (fun l entry => putEntry entry.1 entry.2 l) registered

/-- Breakpoints with numbers of their own are entered one behind the other. -/
theorem enter_of_nodup {registered accepted : Registered}
    (h : ((registered ++ accepted).map Prod.fst).Nodup) :
    enter registered accepted = registered ++ accepted := by
  induction accepted generalizing registered with
  | nil => simp [enter]
  | cons entry rest ih =>
    obtain ⟨id, b⟩ := entry
    have hid : id ∉ registered.map Prod.fst := by
      intro hm
      rw [List.map_append] at h
      exact (List.nodup_append.mp h).2.2 id hm id List.mem_cons_self rfl
    have hrest : enter (registered ++ [(id, b)]) rest = registered ++ [(id, b)] ++ rest :=
      ih (by simpa using h)
    rw [enter, List.foldl_cons, putEntry_of_not_mem hid]
    simpa [enter] using hrest

section

variable {σ : Type} {a : Attempt σ} {attempts : List (Attempt σ)} {s t : σ} {outcome : Outcome}
  {outcomes : List Outcome}

theorem run_returns_iff : a.run.Returns s outcome t ↔ a.Meets s outcome t := by
  cases hv : a.breakpoint.validate with
  | error message =>
    rw [run, hv]
    constructor
    · intro h
      obtain ⟨rfl, rfl⟩ := h.unique (.pure _ _)
      exact .invalid hv
    · intro h
      cases h with
      | invalid h' =>
        cases hv.symm.trans h'
        exact .pure _ _
      | refused h' | accepted h' => cases hv.symm.trans h'
  | ok hitCount =>
    rw [run, hv]
    constructor
    · intro h
      obtain ⟨answer, u, hr, hf⟩ := h.of_bind
      cases answer with
      | error e =>
        obtain ⟨rfl, rfl⟩ := hf.unique (.pure _ _)
        exact .refused hv hr
      | ok id =>
        obtain ⟨rfl, rfl⟩ := hf.unique (.pure _ _)
        exact .accepted hv hr
    · intro h
      cases h with
      | invalid h' => cases hv.symm.trans h'
      | refused h' hr | accepted h' hr =>
        cases hv.symm.trans h'
        exact hr.bind (.pure _ _)

/-- All attempts together register what was accepted and give what was refused. -/
theorem runAll_returns_iff {registered : Registered} {refused : List Breakpoint}
    {x : Registered × List Breakpoint} :
    (runAll attempts registered refused).Returns s x t ↔ ∃ outcomes,
      AllMeet attempts s outcomes t ∧
      x = (enter registered (admitted outcomes), refused ++ rejected outcomes) := by
  induction attempts generalizing s registered refused with
  | nil =>
    constructor
    · intro h
      obtain ⟨rfl, rfl⟩ := h.unique (.pure _ _)
      exact ⟨[], .nil _, by simp [enter, admitted, rejected]⟩
    · rintro ⟨_, ⟨⟩, rfl⟩
      simp only [enter, admitted, rejected, List.filterMap_nil, List.foldl_nil, List.append_nil]
      exact .pure _ _
  | cons a rest ih =>
    rw [runAll]
    constructor
    · intro h
      obtain ⟨outcome, u, hr, hf⟩ := h.of_bind
      have hm := run_returns_iff.mp hr
      cases outcome with
      | error b =>
        obtain ⟨os, hos, rfl⟩ := ih.mp hf
        exact ⟨_, .cons hm hos, by simp⟩
      | ok entry =>
        obtain ⟨os, hos, rfl⟩ := ih.mp hf
        exact ⟨_, .cons hm hos, by simp [enter]⟩
    · rintro ⟨_, _ | @⟨_, _, _, u, _, o, os, hm, hos⟩, rfl⟩
      refine (run_returns_iff.mpr hm).bind ?_
      cases o with
      | error b => exact ih.mpr ⟨os, hos, by simp⟩
      | ok entry => exact ih.mpr ⟨os, hos, by simp [enter]⟩

theorem allMeet_of_mapM (h : (attempts.mapM run).Returns s outcomes t) :
    AllMeet attempts s outcomes t := by
  induction attempts generalizing s outcomes with
  | nil =>
    obtain ⟨rfl, rfl⟩ := h.unique (.pure _ _)
    exact .nil _
  | cons a rest ih =>
    rw [List.mapM_cons] at h
    obtain ⟨o, u, hrun, hf⟩ := h.of_bind
    obtain ⟨os, v, hrest, hf⟩ := hf.of_bind
    obtain ⟨rfl, rfl⟩ := hf.unique (.pure _ _)
    exact .cons (run_returns_iff.mp hrun) (ih hrest)

/-- One outcome for each attempt. -/
theorem AllMeet.length_eq (h : AllMeet attempts s outcomes t) :
    outcomes.length = attempts.length := by
  induction h with
  | nil => rfl
  | cons _ _ ih => simp [ih]

/-- What is refused has no number of the client, as long as no request has one. -/
theorem AllMeet.rejected_id (h : AllMeet attempts s outcomes t)
    (ha : ∀ a ∈ attempts, a.breakpoint.id = none) : ∀ b ∈ rejected outcomes, b.id = none := by
  induction h with
  | nil => simp [rejected]
  | cons head tail ih =>
    obtain ⟨hid, ha⟩ := List.forall_mem_cons.mp ha
    cases head with
    | invalid h | refused h =>
      rw [rejected_error, List.forall_mem_cons]
      exact ⟨hid, ih ha⟩
    | accepted h => exact ih ha

end

end Attempt

section Listing

variable {registered : Registered} {listing : List EngineBreakpoint}

/-- A registered breakpoint in the place where the engine lists it first, if it does. -/
def asListed (listing : List EngineBreakpoint) (entry : EngineId × Breakpoint) :
    EngineId × Breakpoint :=
  match listing.find? (·.id == entry.1) with
  | some listed => (entry.1, Registry.placed entry.2 listed.location)
  | none => entry

/-- The engine's numbers stay as they are. -/
theorem map_fst_asListed (listing : List EngineBreakpoint) :
    Prod.fst ∘ asListed listing = Prod.fst := by
  funext entry
  simp only [Function.comp_apply, asListed]
  split <;> rfl

theorem asListed_cons_of_ne {listed : EngineBreakpoint} {entry : EngineId × Breakpoint}
    (h : entry.1 ≠ listed.id) (rest : List EngineBreakpoint) :
    asListed (listed :: rest) entry = asListed rest entry := by
  have hne : (listed.id == entry.1) = false := beq_false_of_ne (Ne.symm h)
  simp [asListed, hne]

/-- The engine's numbers of what it lists are taken in its order, each once. -/
theorem keys_found (registered : Registered) (listing : List EngineBreakpoint) :
    (found registered listing).map Prod.fst =
      ((listing.map (·.id)).filter (· ∈ registered.map Prod.fst)).eraseDups := by
  induction listing generalizing registered with
  | nil => rfl
  | cons listed rest ih =>
    cases h : registered.lookup listed.id with
    | none =>
      have hm := not_mem_of_lookup_none h
      simp only [found, h, ih, List.map_cons, List.filter_cons, hm, decide_false,
        Bool.false_eq_true, if_false]
    | some b =>
      have hm : listed.id ∈ registered.map Prod.fst := by
        obtain ⟨before, after, rfl, _⟩ := List.lookup_eq_some_iff.mp h
        simp
      simp only [found, h, ih, List.map_cons, List.filter_cons, hm, decide_true, if_true,
        List.eraseDups_cons, List.filter_filter]
      congr 2
      refine List.filter_congr fun id _ => ?_
      have hkeys : (registered.filter (·.1 != listed.id)).map Prod.fst =
          (registered.map Prod.fst).filter (· != listed.id) := by
        rw [List.filter_map]
        rfl
      rw [Bool.eq_iff_iff, decide_eq_true_iff, hkeys, List.mem_filter, Bool.and_eq_true,
        decide_eq_true_iff]
      exact and_comm

/-- What is listed and what is not are together what was registered, each where the engine lists
it. -/
theorem found_append_unlisted_perm (hn : (registered.map Prod.fst).Nodup)
    (listing : List EngineBreakpoint) :
    (found registered listing ++ unlisted registered listing).Perm
      (registered.map (asListed listing)) := by
  induction listing generalizing registered with
  | nil =>
    have hid : asListed [] = id := rfl
    simp [found, unlisted, hid]
  | cons listed rest ih =>
    have hrest {entries : Registered} (h : ∀ e ∈ entries, e.1 ≠ listed.id) :
        entries.map (asListed (listed :: rest)) = entries.map (asListed rest) :=
      List.map_congr_left fun e he => asListed_cons_of_ne (h e he) rest
    cases h : registered.lookup listed.id with
    | none =>
      have hne : ∀ e ∈ registered, e.1 ≠ listed.id := fun e he hid =>
        not_mem_of_lookup_none h (hid ▸ List.mem_map_of_mem he)
      simp only [found, h, unlisted_cons_of_none h, hrest hne]
      exact ih hn
    | some b =>
      have hne : ∀ e ∈ registered.filter (·.1 != listed.id), e.1 ≠ listed.id := by
        intro e he
        simpa using (List.mem_filter.mp he).2
      have hfirst : asListed (listed :: rest) (listed.id, b) =
          (listed.id, Registry.placed b listed.location) := by
        simp [asListed]
      have htaken := (perm_cons_of_lookup hn h).map (asListed (listed :: rest))
      rw [List.map_cons, hfirst, hrest hne] at htaken
      simp only [found, h, List.cons_append, ← unlisted_filter]
      exact ((ih (hn.sublist (List.filter_sublist.map Prod.fst))).cons _).trans htaken.symm

theorem unlisted_not_mem {entry : EngineId × Breakpoint} (h : entry ∈ unlisted registered listing) :
    entry.1 ∉ listing.map (·.id) := by
  have ha := (List.mem_filter.mp h).2
  intro hm
  obtain ⟨listed, hl, hid⟩ := List.mem_map.mp hm
  have hne := List.all_eq_true.mp ha listed hl
  simp [hid] at hne

end Listing

namespace Registry

/-- Whatever the engine answers decides what is confirmed: what it accepted, in the order of its
list and then the others. -/
theorem confirm_returns_iff {σ : Type} {cx : Context σ} {scope : BreakpointScope}
    {attempts : List (Attempt σ)} {r : Registry} {s t : σ} {x : List Breakpoint × Registry} :
    (r.confirm cx scope attempts).Returns s x t ↔ ∃ outcomes u listing,
      Attempt.AllMeet attempts s outcomes u ∧ (cx.breakpoints scope).Returns u listing t ∧
      let order := found (Attempt.enter [] (Attempt.admitted outcomes)) listing ++
        unlisted (Attempt.enter [] (Attempt.admitted outcomes)) listing
      x = ((numbered r.lastId order).map Prod.snd ++ Attempt.rejected outcomes,
        (r.confirmRest order).2) := by
  constructor
  · intro h
    obtain ⟨_, u, hrun, hf⟩ := h.of_bind
    obtain ⟨outcomes, hmeet, rfl⟩ := Attempt.runAll_returns_iff.mp hrun
    obtain ⟨listing, v, hlist, hf⟩ := hf.of_bind
    simp only [confirmListed_eq] at hf
    obtain ⟨rfl, rfl⟩ := hf.unique (.pure _ _)
    refine ⟨outcomes, u, listing, hmeet, hlist, ?_⟩
    dsimp only
    rw [← fst_confirmRest, confirmRest_append]
    rfl
  · rintro ⟨outcomes, u, listing, hmeet, hlist, rfl⟩
    rw [confirm]
    refine (Attempt.runAll_returns_iff.mpr ⟨outcomes, hmeet, rfl⟩).bind (hlist.bind ?_)
    simp only [confirmListed_eq]
    rw [← fst_confirmRest, confirmRest_append]
    exact .pure _ _

end Registry

/-- The numbers that are given are those after the last one. -/
theorem id_of_numbered {last : BreakpointId} {l : Registered} {entry : EngineId × Breakpoint}
    (h : entry ∈ numbered last l) : ∃ n, entry.2.id = some n ∧ last < n ∧ n ≤ last + l.length := by
  have hn := ids_numbered last l
  rw [← length_numbered last l] at hn ⊢
  exact Registry.Synced.next_id hn h

namespace BreakpointCall

variable {σ : Type} {cx : Context σ} {home : Home} {call : BreakpointCall}
  {scope : BreakpointScope} {r next : Registry} {returned : List Breakpoint} {s u t : σ}

/-- How the engine is asked for the breakpoints of a call, one attempt for each request. -/
def attempts (cx : Context σ) (home : Home) : BreakpointCall → List (Attempt σ)
  | .setLine path requests => requests.map (.ofLine cx (home.expandHome path))
  | .setCommands requests => requests.map (.ofCommand cx)
  | .removeAll => []

theorem id_of_mem_attempts : ∀ a ∈ call.attempts cx home, a.breakpoint.id = none := by
  intro a ha
  cases call with
  | setLine path requests | setCommands requests =>
    obtain ⟨_, _, rfl⟩ := List.mem_map.mp ha
    rfl
  | removeAll => cases ha

/-- A call clears its scope, in the engine and among the entries, confirms what is asked for, and
keeps the answer as the list of the scope. -/
theorem perform_eq (hscope : call.scope? home = some scope) (cx : Context σ) (r : Registry) :
    ∃ keep : List Breakpoint → Registry → Registry,
      (∀ l m, (keep l m).lastId = m.lastId ∧ (keep l m).byEngineId = m.byEngineId) ∧
      call.perform cx home r = (do
        cx.clearBreakpoints scope
        let (l, m) ← (r.without scope).confirm cx scope (call.attempts cx home)
        return (l, keep l m)) := by
  cases call with
  | setLine path requests =>
    cases hscope
    exact ⟨fun l m => { m with files := Registry.putFile (home.expandHome path) l m.files },
      fun _ _ => ⟨rfl, rfl⟩, rfl⟩
  | setCommands requests =>
    cases hscope
    refine ⟨fun l m => { m with commands := l }, fun _ _ => ⟨rfl, rfl⟩, ?_⟩
    have hw : r.without .commands =
        { r with byEngineId := r.byEngineId.filter fun entry => entry.2.name.isNone } := by
      simp [Registry.without, Breakpoint.isIn]
    rw [hw]
    rfl
  | removeAll => cases hscope

theorem perform_of_confirm {m : Registry} (hscope : call.scope? home = some scope)
    (hclear : (cx.clearBreakpoints scope).Returns s () u)
    (h : ((r.without scope).confirm cx scope (call.attempts cx home)).Returns u (returned, m) t) :
    ∃ next, (call.perform cx home r).Returns s (returned, next) t ∧
      next.byEngineId = m.byEngineId := by
  obtain ⟨keep, hkeep, heq⟩ := perform_eq hscope cx r
  refine ⟨keep returned m, ?_, (hkeep _ _).2⟩
  rw [heq]
  exact hclear.bind (h.bind (.pure _ _))

/-- Numbers are given after the last one, whatever the engine answers. -/
theorem perform_issues (h : (call.perform cx home r).Returns s (returned, next) t) :
    r.lastId ≤ next.lastId ∧ ∀ b ∈ returned, ∀ n, b.id = some n → n ≤ next.lastId := by
  cases hscope : call.scope? home with
  | none =>
    cases call with
    | setLine path requests | setCommands requests => cases hscope
    | removeAll =>
      obtain ⟨m, u, hrun, hf⟩ := h.of_bind
      obtain ⟨heq, rfl⟩ := hf.unique (.pure _ _)
      obtain ⟨rfl, rfl⟩ := Prod.mk.inj heq
      obtain ⟨_, _, _, hrun⟩ := hrun.of_bind
      obtain ⟨_, _, _, hrun⟩ := hrun.of_bind
      obtain ⟨rfl, rfl⟩ := hrun.unique (.pure _ _)
      exact ⟨Nat.le_refl _, by simp⟩
  | some scope =>
    obtain ⟨keep, hkeep, heq⟩ := perform_eq hscope cx r
    rw [heq] at h
    obtain ⟨_, u, _, hf⟩ := h.of_bind
    obtain ⟨⟨l, m⟩, v, hconfirm, hf⟩ := hf.of_bind
    obtain ⟨heq, rfl⟩ := hf.unique (.pure _ _)
    obtain ⟨rfl, rfl⟩ := Prod.mk.inj heq
    obtain ⟨outcomes, w, listing, hmeet, _, heq⟩ := Registry.confirm_returns_iff.mp hconfirm
    obtain ⟨rfl, rfl⟩ := Prod.mk.inj heq
    rw [(hkeep _ _).1, Registry.lastId_confirmRest]
    refine ⟨Nat.le_add_right _ _, fun b hb n hn => ?_⟩
    rcases List.mem_append.mp hb with hb | hb
    · obtain ⟨entry, he, rfl⟩ := List.mem_map.mp hb
      obtain ⟨k, hk, _, hle⟩ := id_of_numbered he
      cases hn.symm.trans hk
      exact hle
    · cases hn.symm.trans (hmeet.rejected_id id_of_mem_attempts b hb)

end BreakpointCall

namespace Registry

/-- A registry with everything that was returned since it was new.  Between two calls the engine
does what it likes, and it need not be the same one. -/
inductive History (σ : Type) (home : Home) : List Breakpoint → Registry → Prop
  | new : History σ home [] {}
  | call {cx : Context σ} {s t : σ} {earlier returned : List Breakpoint} {r next : Registry}
    (h : History σ home earlier r) (c : BreakpointCall)
    (answer : (c.perform cx home r).Returns s (returned, next) t) :
    History σ home (earlier ++ returned) next

theorem History.issued {σ : Type} {home : Home} {earlier : List Breakpoint} {r : Registry}
    (h : History σ home earlier r) : ∀ b ∈ earlier, ∀ n, b.id = some n → n ≤ r.lastId := by
  induction h with
  | new => simp
  | call _ c answer ih =>
    obtain ⟨hle, hnew⟩ := BreakpointCall.perform_issues answer
    intro b hb n hn
    rcases List.mem_append.mp hb with hb | hb
    · exact Nat.le_trans (ih b hb n hn) hle
    · exact hnew b hb n hn

/-- What a call returns and leaves, by what its requests came to and what the engine then lists:
the breakpoints that are shown in the list, those that are hidden, and those that were refused. -/
structure Confirmed (last : BreakpointId) (outcomes : List Attempt.Outcome)
    (listing : List EngineBreakpoint) (shown hidden : Registered) (returned : List Breakpoint)
    (next : Registry) : Prop where
  returned_eq : returned = (shown ++ hidden).map Prod.snd ++ Attempt.rejected outcomes
  length_eq : returned.length = outcomes.length
  /-- Numbers apart they are what was accepted, each in the place where the engine lists it
  first. -/
  once : ∃ order : Registered,
    order.Perm ((Attempt.admitted outcomes).map (asListed listing)) ∧
      shown ++ hidden = numbered last order
  inOrder : shown.map Prod.fst =
    ((listing.map (·.id)).filter (· ∈ (Attempt.admitted outcomes).map Prod.fst)).eraseDups
  unlisted : ∀ entry ∈ hidden, entry.1 ∉ listing.map (·.id)
  ids : (shown ++ hidden).map (·.2.id) =
    (List.range' (last + 1) (Attempt.admitted outcomes).length).map some
  unnumbered : ∀ b ∈ Attempt.rejected outcomes, b.id = none
  found : ∀ entry ∈ shown ++ hidden, next.byEngineId.lookup entry.1 = some entry.2

/-- Confirming what was accepted under numbers of its own, and what is not listed in any order. -/
theorem confirmed_of_distinct {outcomes : List Attempt.Outcome}
    (hdistinct : ((Attempt.admitted outcomes).map Prod.fst).Nodup)
    (hunnumbered : ∀ b ∈ Attempt.rejected outcomes, b.id = none)
    (listing : List EngineBreakpoint) {left : Registered}
    (hleft : left.Perm (unlisted (Attempt.admitted outcomes) listing)) {r next : Registry}
    (hnext : next.byEngineId =
      (r.confirmRest (found (Attempt.admitted outcomes) listing ++ left)).2.byEngineId) :
    Confirmed r.lastId outcomes listing
      (numbered r.lastId (found (Attempt.admitted outcomes) listing))
      (numbered (r.lastId + (found (Attempt.admitted outcomes) listing).length) left)
      ((numbered r.lastId (found (Attempt.admitted outcomes) listing ++ left)).map Prod.snd ++
        Attempt.rejected outcomes)
      next := by
  have hperm := (hleft.append_left _).trans (found_append_unlisted_perm hdistinct listing)
  have hlength := hperm.length_eq
  have hkeys : ((found (Attempt.admitted outcomes) listing ++ left).map Prod.fst).Nodup := by
    refine (hperm.map Prod.fst).nodup_iff.mpr ?_
    rwa [List.map_map, map_fst_asListed]
  rw [List.length_map] at hlength
  refine ⟨by rw [numbered_append], ?_, ⟨_, hperm, (numbered_append _ _ _).symm⟩, ?_, ?_, ?_,
    hunnumbered, ?_⟩
  · rw [List.length_append, List.length_map, length_numbered, hlength,
      Attempt.length_admitted_add_rejected]
  · rw [keys_numbered, keys_found]
  · intro entry he
    have hk : entry.1 ∈ left.map Prod.fst := keys_numbered _ _ ▸ List.mem_map_of_mem he
    obtain ⟨e, he, hid⟩ := List.mem_map.mp hk
    exact hid ▸ unlisted_not_mem (hleft.mem_iff.mp he)
  · rw [← numbered_append, ids_numbered, hlength]
  · rw [← numbered_append, hnext]
    exact lookup_confirmRest hkeys r

end Registry

/-- An engine that keeps what it is asked to clear, and lists the same whatever it is asked for. -/
def Script.wayward : Context Script.State :=
  let place (id line : Nat) : EngineBreakpoint := ⟨id, .line ⟨"/a"⟩ line none, none, none⟩
  { context with
    clearBreakpoints := fun _ => pure ()
    breakpoints := fun _ => pure [place 9 1, place 4 30, place 4 31, place 2 10] }

namespace BreakpointCall

variable {σ : Type} {cx : Context σ} {home : Home} {call : BreakpointCall}
  {scope : BreakpointScope} {r : Registry} {earlier : List Breakpoint} {s s₁ s₂ t : σ}
  {outcomes : List Attempt.Outcome} {listing : List EngineBreakpoint}

/-- As long as the engine answers and gives different numbers to what it accepts in the call, a call
that sets breakpoints returns one for each request: first what was accepted, in the order of the
engine's list and then what it does not list, under numbers of the client that are larger than all
earlier ones and increase; then what was refused, without a number.  By the numbers of the engine
all that was accepted is found. -/
theorem one_for_each_request (hr : Registry.History σ home earlier r)
    (hscope : call.scope? home = some scope) (hclear : (cx.clearBreakpoints scope).Returns s () s₁)
    (hmeet : Attempt.AllMeet (call.attempts cx home) s₁ outcomes s₂)
    (hdistinct : ((Attempt.admitted outcomes).map Prod.fst).Nodup)
    (hlisting : (cx.breakpoints scope).Returns s₂ listing t) :
    ∃ shown hidden returned next,
      (call.perform cx home r).Returns s (returned, next) t ∧
      Registry.Confirmed r.lastId outcomes listing shown hidden returned next ∧
      outcomes.length = (call.attempts cx home).length ∧
      ∀ old ∈ earlier, ∀ entry ∈ shown ++ hidden, ∀ n m,
        old.id = some n → entry.2.id = some m → n < m := by
  have hconfirm := (Registry.confirm_returns_iff (r := r.without scope)).mpr
    ⟨outcomes, s₂, listing, hmeet, hlisting, rfl⟩
  rw [Attempt.enter_of_nodup hdistinct, List.nil_append] at hconfirm
  have hunnumbered := hmeet.rejected_id id_of_mem_attempts
  obtain ⟨next, hret, hnext⟩ := perform_of_confirm hscope hclear hconfirm
  have hall := Registry.confirmed_of_distinct (r := r.without scope) hdistinct hunnumbered listing
    (.refl _) hnext
  refine ⟨_, _, _, next, hret, hall, hmeet.length_eq, ?_⟩
  intro old ho entry he n m hn hm
  rw [← numbered_append] at he
  obtain ⟨k, hk, hlt, _⟩ := id_of_numbered he
  cases hm.symm.trans hk
  exact Nat.lt_of_le_of_lt (hr.issued old ho n hn) hlt

/-- Of four requests one is refused; of the others the engine lists the last one twice, the first
one in another place, and one that nobody asked for. -/
theorem one_for_each_request_wayward :
    let call : BreakpointCall :=
      .setLine ⟨"/a"⟩ [{ line := 1 }, { line := 2, condition := some "$x > 1" }, { line := 3 },
        { line := 4 }]
    ∃ earlier returned r next s u t outcomes listing shown hidden,
      Registry.History Script.State (.at ⟨"/"⟩) earlier r ∧ earlier.map (·.id) = [some 1] ∧
      Attempt.AllMeet (call.attempts Script.wayward (.at ⟨"/"⟩)) s outcomes u ∧
      ((Attempt.admitted outcomes).map Prod.fst).Nodup ∧
      (call.perform Script.wayward (.at ⟨"/"⟩) r).Returns s (returned, next) t ∧
      Registry.Confirmed r.lastId outcomes listing shown hidden returned next ∧
      returned.map (fun b => (b.id, b.line)) =
        [(some 2, some 30), (some 3, some 10), (some 4, some 3), (none, some 2)] := by
  intro call
  have hf : (perform Script.context (.at ⟨"/"⟩) {} (.setCommands [{ name := "Get-Date" }])).answers {}
      (fun x s => x.1.map (·.id) == [some 1] &&
        (((call.attempts Script.wayward (.at ⟨"/"⟩)).mapM Attempt.run).answers s (fun outcomes _ =>
          decide ((Attempt.admitted outcomes).map Prod.fst).Nodup) &&
        (call.perform Script.wayward (.at ⟨"/"⟩) x.2).answers s (fun y _ =>
          y.1.map (fun b => (b.id, b.line)) ==
            [(some 2, some 30), (some 3, some 10), (some 4, some 3), (none, some 2)]))) = true := by
    cbv
  obtain ⟨⟨earlier, r⟩, s, hfirst, hp⟩ := exists_of_answers hf
  obtain ⟨hids, hp⟩ := Bool.and_eq_true_iff.mp hp
  obtain ⟨hmeet, hp⟩ := Bool.and_eq_true_iff.mp hp
  obtain ⟨outcomes, u, hmeet, hdistinct⟩ := exists_of_answers hmeet
  obtain ⟨⟨returned, next⟩, t, hret, hplaces⟩ := exists_of_answers hp
  have hr : Registry.History Script.State (.at ⟨"/"⟩) ([] ++ earlier) r := .call .new _ hfirst
  have hclear (scope : BreakpointScope) :
      (Script.wayward.clearBreakpoints scope).Returns s () s := rfl
  have hlisting (scope : BreakpointScope) :
      (Script.wayward.breakpoints scope).Returns u _ u := rfl
  obtain ⟨shown, hidden, returned', next', hret', hconfirmed, _⟩ :=
    one_for_each_request hr rfl (hclear _) (Attempt.allMeet_of_mapM hmeet)
      (of_decide_eq_true hdistinct) (hlisting _)
  obtain ⟨hsame, -⟩ := hret.unique hret'
  obtain ⟨rfl, rfl⟩ := Prod.mk.inj hsame
  exact ⟨earlier, returned, r, next, s, u, t, outcomes, _, shown, hidden, hr, beq_iff_eq.mp hids,
    Attempt.allMeet_of_mapM hmeet, of_decide_eq_true hdistinct, hret, hconfirmed,
    beq_iff_eq.mp hplaces⟩

end BreakpointCall
end Stepwise
