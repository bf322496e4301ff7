import Stepwise.Proofs.Session.Conversation
import Stepwise.Proofs.Session.Rebuilding

namespace Stepwise

open Script (Entry State)

/-- What is shown of a variable besides its handle. -/
structure Face where
  name : String
  value : String
  typeName : Option String
  isExpandable : Bool
deriving Repr, DecidableEq

def Variable.face (x : Variable) : Face :=
  ⟨x.name, x.value, x.typeName, x.isExpandable⟩

/-- What is to be shown for something that the engine tells with its declared type. -/
def Description.face (literals : Literals) (name : String) (d : Description)
    (declaredType : Option String) : Face :=
  ⟨name, (d.display literals).text, declaredType.or d.typeName?, (d.display literals).expandable⟩

def Script.Entry.face (literals : Literals) (entry : Entry) : Face :=
  ⟨entry.name, entry.value.shown literals, entry.declaredType.or entry.value.typeName?,
    !entry.value.children.isEmpty⟩

/-- How many of the variables have a handle. -/
def handlesOf (faces : List Face) : Nat :=
  faces.countP (·.isExpandable)

variable {s t : Session} {e u : State} {literals : Literals} {arena : Arena} {table : HandleTable}
  {h : Handle} {c : Container} {entry : Entry} {l : List Entry} {xs : List Variable}

theorem Shows.face {x : Variable} (hx : Shows literals table arena entry x) :
    x.face = entry.face literals := by
  rw [Variable.face, Entry.face, hx.name, hx.value, hx.typeName, hx.isExpandable, hx.expands]

theorem faces_of_shows (h : List.Forall₂ (Shows literals table arena) l xs) :
    xs.map Variable.face = l.map (Entry.face literals) := by
  induction h with
  | nil => rfl
  | cons hx _ ih => rw [List.map_cons, List.map_cons, hx.face, ih]

namespace SessionM

variable {told : List (String × Description × Option String)}

theorem EntryTold.face {told : String × Description × Option String}
    (h : EntryTold arena told entry) (literals : Literals) :
    told.2.1.face literals told.1 told.2.2 = entry.face literals := by
  rw [Description.face, Entry.face, h.name, h.declaredType, h.value.typeName, Description.display,
    h.value.text, h.value.expandable]

theorem faces_of_told (h : List.Forall₂ (EntryTold arena) told l) (literals : Literals) :
    (told.map fun x => x.2.1.face literals x.1 x.2.2) = l.map (Entry.face literals) := by
  induction h with
  | nil => rfl
  | cons hx _ ih => rw [List.map_cons, List.map_cons, hx.face, ih]

theorem Ends.and {α : Type} {m : SessionM State α}
    {P Q : Except SessionError α → Session → State → Prop} (hp : m.Ends s e P)
    (hq : m.Ends s e Q) : m.Ends s e fun r t u => P r t u ∧ Q r t u := by
  obtain ⟨r, t, u, hr, hp⟩ := hp
  obtain ⟨r', t', u', hr', hq⟩ := hq
  cases hr.symm.trans hr'
  exact ⟨r, t, u, hr, hp, hq⟩

/-- So many handles have been issued, or fewer if the work has failed. -/
def Takes {α : Type} (s : Session) (n : Nat) : Except SessionError α → Session → State → Prop
  | .ok _, t, _ => t.handles.containers.size = s.handles.containers.size + n
  | .error _, t, _ => t.handles.containers.size < s.handles.containers.size + n

theorem allocate_takes (c : Container) :
    (allocate c : SessionM State Handle).Ends s e (Takes s 1) := by
  refine .get_bind ?_
  rcases s.handles.allocate_cases c with ⟨_, ha⟩ | ⟨_, ha⟩
  · rw [ha]
    exact .set_bind (.pure (by simp [Takes]))
  · rw [ha]
    exact .throw (Nat.lt_succ_self _)

theorem makeVariable_takes (literals : Literals) {told : String × Description × Option String}
    (ht : EntryTold arena told entry) (scope : Scope) :
    (makeVariable told.1 told.2.1 told.2.2 scope).Ends s e
      (Takes s (handlesOf [entry.face literals])) := by
  have hd := ht.value
  refine Ends.get_bind ?_
  dsimp only
  split
  · next r hx hr =>
    have hn : handlesOf [entry.face literals] = 1 := by
      rw [Description.display, hd.expandable] at hx
      simpa [handlesOf, Entry.face] using hx
    rw [hn]
    refine ((allocate_takes (.ofValue told.1 r scope)).map (Q := Takes s 1) (f := some)
      (fun _ _ _ h => h) fun _ _ _ h => h).bind ?_ fun _ _ _ h => h
    exact fun _ _ _ h => .pure h
  · next hno =>
    have hn : handlesOf [entry.face literals] = 0 := by
      by_contra hc
      have he : told.2.1.expandable = true := by
        rw [hd.expandable]
        simpa [handlesOf, Entry.face] using hc
      obtain ⟨r, hr⟩ := Option.isSome_iff_exists.mp (hd.refers he)
      exact hno r he hr
    rw [hn]
    exact .pure rfl

theorem makeVariables_takes (literals : Literals) (scope : Scope)
    (ht : List.Forall₂ (EntryTold arena) told l) :
    (makeVariables scope told).Ends s e (Takes s (handlesOf (l.map (Entry.face literals)))) := by
  induction ht generalizing s e with
  | nil => exact .pure rfl
  | @cons told entry rest l h _ ih =>
    have hn : handlesOf ((entry :: l).map (Entry.face literals)) =
        handlesOf [entry.face literals] + handlesOf (l.map (Entry.face literals)) := by
      simp [handlesOf, List.countP_cons, Nat.add_comm]
    rw [hn]
    refine (makeVariable_takes literals h scope).bind ?_ ?_
    · intro x t u hx
      refine (ih (s := t) (e := u)).bind ?_ ?_
      · intro xs w v hxs
        refine .pure ?_
        simp only [Takes] at hx hxs ⊢
        omega
      · intro x w v hxs
        simp only [Takes] at hx hxs ⊢
        omega
    · intro x t u hx
      simp only [Takes] at hx ⊢
      omega

theorem expand_takes (literals : Literals) (ho : s.Orderly e) (hs : s.runState = .stopped)
    (hr : s.handles.resolve h = .ok c) (hn : c.children = none) (hl : e.listed c.kind = .ok l) :
    (expand Script.context h).Ends s e (Takes s (handlesOf (l.map (Entry.face literals)))) := by
  refine .read_bind (a := ()) (by simp [Session.ensureStopped, hs]) ?_
  refine .read_bind (a := c) (by simp [Session.resolve, hr, Except.mapError]) ?_
  rw [hn]
  refine (entries_tells hl).bind ?_ ?_
  · rintro _ _ u ⟨told, ⟨⟩, rfl, he, ht⟩
    refine ((makeVariables_reads (ho.answered he).orderly c.parentScope ht).and
      (makeVariables_takes literals c.parentScope ht)).bind ?_ fun _ _ _ h => h.2
    rintro xs t v ⟨⟨hrm, _⟩, hsize⟩
    obtain ⟨before, hrt⟩ := hrm.handles.resolve hr
    obtain ⟨i, hi, _⟩ := HandleTable.resolve_eq_ok_iff.mp hrt
    refine .read_bind (a := ⟨t.handles.generation, t.handles.containers.modify i
      fun c => { c with children := some xs }⟩) ?_ (.modify_bind (.pure ?_))
    · rw [HandleTable.setChildren, hi]
      rfl
    · simpa [Takes] using hsize
  · rintro _ _ _ ⟨_, ⟨⟩, _⟩

end SessionM

/-- What is remembered for a handle is what the engine would tell of it now. -/
structure Fresh (s : Session) (e : State) (h : Handle) (xs : List Variable) : Prop where
  /-- Clients are answered without the engine. -/
  remembered : (Request.expand h).precheck s = .ok (some (.children xs))
  /-- The engine tells the same. -/
  told : ∃ c, s.handles.resolve h = .ok c ∧
    (SessionM.entries Script.context c.kind).Ends s e fun r t _ => t = s ∧ ∃ told, r = .ok told ∧
      (told.map fun x => x.2.1.face s.around.literals x.1 x.2.2) = xs.map Variable.face
  forgotten : (Request.expand h).precheck s.forgetful = .ok none
  /-- Listed anew, it is the same, if there are enough handles left. -/
  listed : (SessionM.expand Script.context h).Ends s.forgetful e fun r _ _ =>
    if s.handles.containers.size + handlesOf (xs.map Variable.face) < Handle.indexBound then
      ∃ ys, r = .ok ys ∧ ys.map Variable.face = xs.map Variable.face
    else r = .error .handleSpaceExhausted

theorem HandleTable.resolve_invalidateChildren (hr : table.resolve h = .ok c) :
    table.invalidateChildren.resolve h = .ok { c with children := none } := by
  obtain ⟨i, hi, hc⟩ := resolve_eq_ok_iff.mp hr
  refine resolve_eq_ok_iff.mpr ⟨i, table.invalidateChildren_extends.check hi, ?_⟩
  simp [invalidateChildren, hc]

theorem Session.cachedVariables_eq (hs : s.runState = .stopped) (hr : s.handles.resolve h = .ok c) :
    s.cachedVariables h = .ok c.children := by
  simp [cachedVariables, ensureStopped, hs, resolve, hr, Except.mapError, bind, Except.bind]

namespace Session.Orderly

theorem listed_anew (ho : s.Orderly e) (hs : s.runState = .stopped)
    (hr : s.handles.resolve h = .ok c) (hl : e.listed c.kind = .ok l) :
    (SessionM.expand Script.context h).Ends s.forgetful e fun r _ _ =>
      if s.handles.containers.size + handlesOf (l.map (Entry.face s.around.literals)) <
          Handle.indexBound then
        ∃ ys, r = .ok ys ∧ ys.map Variable.face = l.map (Entry.face s.around.literals)
      else r = .error .handleSpaceExhausted := by
  have hf : s.forgetful.Orderly e := (ho.forget List.prefix_rfl rfl).orderly
  have hr := HandleTable.resolve_invalidateChildren hr
  have hsize : s.forgetful.handles.containers.size = s.handles.containers.size := by
    simp [forgetful, HandleTable.invalidateChildren]
  refine ((SessionM.expand_reads hf hs hr hl).and
    (SessionM.expand_takes s.around.literals hf hs hr rfl hl)).mono ?_
  rintro (x | ys) t u ⟨⟨hreads, hy⟩, hn⟩
  · obtain ⟨rfl, hfull⟩ := hy
    rw [SessionM.Takes, hsize] at hn
    rw [HandleTable.Full] at hfull
    rw [if_neg (by omega)]
  · have hlt := hreads.orderly.numbered.size_lt
    rw [SessionM.Takes, hsize] at hn
    rw [if_pos (by omega)]
    exact ⟨ys, rfl, faces_of_shows hy⟩

/-- What a session remembers is fresh as long as it is in order. -/
theorem fresh (ho : s.Orderly e) (hs : s.runState = .stopped)
    (hr : s.handles.resolve h = .ok c) (hx : c.children = some xs) : Fresh s e h xs := by
  obtain ⟨l, hl, hm⟩ := ho.remembers c (HandleTable.mem_of_resolve hr)
  have hfaces := faces_of_shows (hm xs hx)
  refine ⟨?_, ⟨c, hr, ?_⟩, ?_, ?_⟩
  · rw [Request.precheck, cachedVariables_eq hs hr, hx]
    rfl
  · refine (SessionM.entries_tells hl).mono ?_
    rintro _ _ _ ⟨told, rfl, rfl, _, ht⟩
    exact ⟨rfl, told, rfl, (SessionM.faces_of_told ht _).trans hfaces.symm⟩
  · rw [Request.precheck, cachedVariables_eq (s := s.forgetful) hs
      (HandleTable.resolve_invalidateChildren hr)]
    rfl
  · rw [hfaces]
    exact ho.listed_anew hs hr hl

end Session.Orderly

namespace System

variable {catalog : Script.Catalog} {s : System (scriptEngine catalog)} {around : Surroundings}
  {engine : Script.State} {interrupts : Interrupts}

/-- In every state of a halt, whatever is remembered of a container is found by a handle, and is
what the engine would tell of it now. -/
theorem remembered_fresh (hr : Reaches (opened around engine interrupts) s)
    (hs : s.session.runState = .stopped) :
    ∀ c ∈ s.session.handles.containers, ∀ xs, c.children = some xs →
      (∃ h, s.session.handles.resolve h = .ok c) ∧
        ∀ h, s.session.handles.resolve h = .ok c → Fresh s.session s.engine h xs := by
  intro c hc xs hx
  have ho := (inOrder_reaches hr).orderly hs
  obtain ⟨i, hi⟩ := Array.mem_iff_getElem?.mp hc
  exact ⟨⟨_, HandleTable.resolve_of ho.numbered hi⟩, fun h hh => ho.fresh hs hh hx⟩

/-- What is remembered after a variable was set is what it was set to. -/
theorem remembered_fresh_after_set :
    ∃ (s : System (scriptEngine { inlines := [("count", .counting 1)] })) (c : Container)
      (h : Handle) (xs : List Variable),
      Reaches (opened { home := .at ⟨"/"⟩ } Script.State.nested { breakRequested := true }) s ∧
      s.session.runState = .stopped ∧ c ∈ s.session.handles.containers ∧ c.children = some xs ∧
      xs = [⟨"$v", "5", some "int", false, none⟩] ∧ s.session.handles.resolve h = .ok c ∧
      Fresh s.session s.engine h xs := by
  have hf : ((opened { home := .at ⟨"/"⟩ } Script.State.nested { breakRequested := true } :
      System (scriptEngine { inlines := [("count", .counting 1)] })).follow
      (breaking (.inline "count") ++ asking 1 (.expand (.of 2 4)) ++
        asking 2 (.setVariable (.of 2 4) "$v" "5") ++ asking 3 (.expand (.of 2 4)))).any
      (fun s => s.session.runState == .stopped &&
        s.session.handles.containers.toList.any fun c =>
          c.children == some [⟨"$v", "5", some "int", false, none⟩]) = true := by cbv
  obtain ⟨s, hr, hp⟩ := exists_reaches hf
  obtain ⟨hs, hc⟩ := Bool.and_eq_true_iff.mp hp
  obtain ⟨c, hc, hx⟩ := List.any_eq_true.mp hc
  have hs := beq_iff_eq.mp hs
  have hc := Array.mem_toList_iff.mp hc
  obtain ⟨⟨h, hh⟩, hfresh⟩ := remembered_fresh hr hs c hc _ (beq_iff_eq.mp hx)
  exact ⟨s, c, h, _, hr, hs, hc, beq_iff_eq.mp hx, rfl, hh, hfresh h hh⟩

end System
end Stepwise
