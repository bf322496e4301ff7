import Stepwise.Proofs.Script.Places
import Stepwise.Proofs.Session.Listing

namespace Stepwise

open Script (State Entry Place Assigned)

/-- The value of an expression as it would be listed under a name. -/
def Evaluated.variable (r : Evaluated) (name : String) : Variable :=
  { name, value := r.value, typeName := r.typeName, isExpandable := r.isExpandable,
    handle := r.handle }

/-- The requests that concern breakpoints only. -/
def Request.onBreakpoints : Request → Bool
  | .setLineBreakpoints _ _ | .setCommandBreakpoints _ | .removeAllBreakpoints => true
  | _ => false

namespace Session

/-- The answers to a request, with the session and the engine as they are then. -/
inductive Answers (s : Session) (e : State) : Request → Result → Session → State → Prop
  | breakpoints {r : Request} {result : Result} {t : Session} {u : State}
    (concerned : r.onBreakpoints = true) (reads : s.Reads e t u) : Answers s e r result t u
  /-- Every entry of the container is shown, in order. -/
  | listed {h : Handle} {c : Container} {l : List Entry} {xs : List Variable} {t : Session}
    {u : State} (found : s.handles.resolve h = .ok c) (entries : e.listed c.kind = .ok l)
    (shown : List.Forall₂ (Shows s.around.literals t.handles u.arena) l xs)
    (reads : s.Reads e t u) : Answers s e (.expand h) (.ok (.children xs)) t u
  | notListed {h : Handle} {c : Container} {t : Session} {u : State}
    (found : s.handles.resolve h = .ok c) (full : t.handles.Full) (reads : s.Reads e t u) :
    Answers s e (.expand h) (.error .handleSpaceExhausted) t u
  | notFound {h : Handle} {x : HandleError} (none : s.handles.resolve h = .error x)
    (reads : s.Reads e s e) : Answers s e (.expand h) (.error (.ofHandle x)) s e
  | evaluated {expression : String} {frame : Nat} {v : Value} {r : Evaluated} {t : Session}
    {u : State} (value : e.evaluate (.locals frame) expression = .ok v)
    (shown : Shows s.around.literals t.handles u.arena ⟨expression, v, none⟩
      (r.variable expression)) (reads : s.Reads e t u) :
    Answers s e (.evaluate expression frame) (.ok (.evaluated r)) t u
  | noFrame {expression : String} {frame : Nat} (depth : s.frames.length ≤ frame)
    (reads : s.Reads e s e) :
    Answers s e (.evaluate expression frame) (.error (.unknownFrame frame)) s e
  | noValue {expression : String} {frame : Nat} {x : ScriptError} {report : EngineError}
    (failed : e.evaluate (.locals frame) expression = .error x) (told : x.report? = some report)
    (reads : s.Reads e s e) :
    Answers s e (.evaluate expression frame) (.error (.evaluation report.message)) s e
  | notShown {expression : String} {frame : Nat} {t : Session} {u : State}
    (full : t.handles.Full) (reads : s.Reads e t u) :
    Answers s e (.evaluate expression frame) (.error .handleSpaceExhausted) t u
  | set {h : Handle} {name expression : String} {scope : Scope} {filter : ScopeFilter} {p : Place}
    {old : Script.Variable} {w : Value} {t : Session} {u : State}
    (opens : s.handles.Opens h (.scope scope filter))
    (assigned : Assigned e u scope name expression p old w) (keeps : s.Keeps e t u) :
    Answers s e (.setVariable h name expression) (.ok (.text (w.shown s.around.literals))) t u
  | notSet {h : Handle} {name expression : String} {x : SessionError} {t : Session} {u : State}
    (reads : s.Reads e t u) : Answers s e (.setVariable h name expression) (.error x) t u

variable {s t : Session} {e u : State} {r : Request} {result : Result}

theorem Answers.keeps (h : s.Answers e r result t u) : s.Keeps e t u := by
  cases h with
  | set opens assigned keeps => exact keeps
  | breakpoints | listed | notListed | notFound | evaluated | noFrame | noValue | notShown
  | notSet =>
    exact Reads.toKeeps (by assumption)

/-- Only a variable that is set changes what is to be seen. -/
theorem Answers.reads (h : s.Answers e r result t u) (hr : ∀ text, result ≠ .ok (.text text)) :
    s.Reads e t u := by
  cases h with
  | set => exact absurd rfl (hr _)
  | breakpoints | listed | notListed | notFound | evaluated | noFrame | noValue | notShown
  | notSet =>
    assumption

section

variable {h : Handle} {kind : ContainerKind} {l : List Entry} {ys : List Variable}

/-- What can be listed is listed, or all handles are used up. -/
theorem Answers.of_opens (ha : s.Answers e (.expand h) result t u) (ho : s.handles.Opens h kind)
    (hl : e.listed kind = .ok l) :
    (∃ ys, result = .ok (.children ys) ∧
      List.Forall₂ (Shows s.around.literals t.handles u.arena) l ys) ∨
    (result = .error .handleSpaceExhausted ∧ t.handles.Full) := by
  obtain ⟨d, hd, rfl⟩ := ho
  cases ha with
  | breakpoints concerned => cases concerned
  | @listed _ c l' ys _ _ found entries shown =>
    obtain rfl : c = d := Except.ok.inj (found.symm.trans hd)
    obtain rfl : l' = l := Except.ok.inj (entries.symm.trans hl)
    exact .inl ⟨ys, rfl, shown⟩
  | notListed found full => exact .inr ⟨rfl, full⟩
  | notFound none => cases none.symm.trans hd

theorem Answers.of_children (ha : s.Answers e (.expand h) (.ok (.children ys)) t u) :
    ∃ kind l, s.handles.Opens h kind ∧ e.listed kind = .ok l ∧
      List.Forall₂ (Shows s.around.literals t.handles u.arena) l ys := by
  cases ha with
  | breakpoints concerned => cases concerned
  | listed found entries shown => exact ⟨_, _, ⟨_, found, rfl⟩, entries, shown⟩

theorem Answers.of_evaluated {expression : String} {frame : Nat} {r : Evaluated}
    (ha : s.Answers e (.evaluate expression frame) (.ok (.evaluated r)) t u) :
    ∃ v, e.evaluate (.locals frame) expression = .ok v ∧
      Shows s.around.literals t.handles u.arena ⟨expression, v, none⟩ (r.variable expression) := by
  cases ha with
  | breakpoints concerned => cases concerned
  | evaluated value shown => exact ⟨_, value, shown⟩

theorem Answers.of_text {name expression text : String}
    (ha : s.Answers e (.setVariable h name expression) (.ok (.text text)) t u) :
    ∃ scope filter p old w, s.handles.Opens h (.scope scope filter) ∧
      Assigned e u scope name expression p old w ∧ text = w.shown s.around.literals := by
  cases ha with
  | breakpoints concerned => cases concerned
  | set opens assigned => exact ⟨_, _, _, _, _, opens, assigned, rfl⟩

end

/-- What clients answer themselves, from what the session remembers. -/
theorem precheck_answers (ho : s.Orderly e) (hs : s.runState = .stopped) (r : Request) :
    (∀ a, r.precheck s = .ok (some a) → s.Answers e r (.ok a) s e) ∧
      (∀ x, r.precheck s = .error x → s.Answers e r (.error x) s e) := by
  have he : s.ensureStopped = .ok () := by simp [ensureStopped, hs]
  cases r with
  | expand h =>
    cases hr : s.handles.resolve h with
    | error x =>
      have hp : (Request.expand h).precheck s = .error (.ofHandle x) := by
        simp [Request.precheck, cachedVariables, he, Session.resolve, hr, Except.mapError, bind,
          Except.bind, Except.map]
      rw [hp]
      constructor
      · intro a ha
        cases ha
      · intro x hx
        cases hx
        exact .notFound hr (.refl ho)
    | ok c =>
      have hp : (Request.expand h).precheck s = .ok (c.children.map .children) := by
        simp [Request.precheck, cachedVariables, he, Session.resolve, hr, Except.mapError, bind,
          Except.bind, Except.map]
      obtain ⟨l, hl, hm⟩ := ho.remembers c (HandleTable.mem_of_resolve hr)
      rw [hp]
      constructor
      · intro a ha
        obtain ⟨xs, hc, rfl⟩ := Option.map_eq_some_iff.mp (Except.ok.inj ha)
        exact .listed hr hl (hm xs hc) (.refl ho)
      · intro x hx
        cases hx
  | setVariable | evaluate => simp [Request.precheck, he, Except.map]
  | setLineBreakpoints | setCommandBreakpoints | removeAllBreakpoints => simp [Request.precheck]

end Session

namespace SessionM

variable {s : Session} {e : State}

theorem expand_answers (ho : s.Orderly e) (hs : s.runState = .stopped) (h : Handle) :
    (expand Script.context h).Ends s e fun r t u =>
      s.Answers e (.expand h) (r.map .children) t u := by
  cases hr : s.handles.resolve h with
  | error x =>
    refine Ends.read_bind (a := ()) (by simp [Session.ensureStopped, hs]) ?_
    refine Ends.read_error (x := .ofHandle x) (by simp [Session.resolve, hr, Except.mapError]) ?_
    exact .notFound hr (.refl ho)
  | ok c =>
    obtain ⟨l, hl, _⟩ := ho.remembers c (HandleTable.mem_of_resolve hr)
    refine (expand_reads ho hs hr hl).mono fun r t u h => ?_
    cases r with
    | ok xs => exact .listed hr hl h.2 h.1
    | error x =>
      obtain ⟨hreads, rfl, hfull⟩ := h
      exact .notListed hr hfull hreads

theorem evaluate_answers (ho : s.Orderly e) (hs : s.runState = .stopped) (expression : String)
    (frame : Nat) :
    (evaluate Script.context expression frame).Ends s e fun r t u =>
      s.Answers e (.evaluate expression frame) (r.map .evaluated) t u := by
  refine Ends.read_bind (a := ()) (by simp [Session.ensureStopped, hs]) (.get_bind ?_)
  dsimp only
  split
  · next hf => exact Ends.throw_bind (.noFrame hf (.refl ho))
  · next hf =>
    have hi : s.frames[frame]? = some s.frames[frame] := List.getElem?_eq_getElem (by omega)
    obtain ⟨vars, hv⟩ := ho.scope_of_opens (ho.frames frame _ hi).locals
    rcases Script.evaluate_returns hv expression with
      ⟨v, d, u, he, hr, hx, hd⟩ | ⟨err, report, he, hp, hr⟩
    · have ha := ho.answered hx
      refine Ends.ask_bind hr _ ?_
      refine Ends.bind (makeVariable_reads ha.orderly hd expression none (.locals frame)) ?_ ?_
      · rintro x t _ ⟨hm, rfl, hshow⟩
        exact Ends.pure (.evaluated he { hshow with name := rfl } (ha.trans hm))
      · rintro x t _ ⟨hm, rfl, hfull⟩
        exact .notShown hfull (ha.trans hm)
    · exact Ends.ask_error hr _ (.noValue he hp (.refl ho))

end SessionM
end Stepwise
