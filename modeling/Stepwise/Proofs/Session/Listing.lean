import Mathlib.Data.List.Forall2
import Stepwise.Proofs.Handle.Growth
import Stepwise.Proofs.Script.Telling
import Stepwise.Proofs.Session.Outcomes

namespace Stepwise

namespace Script

/-- A variable or a child as it is to be listed. -/
structure Entry where
  name : String
  value : Value
  declaredType : Option String

def Variable.entry (v : Variable) : Entry :=
  ⟨v.name, v.value, v.declaredType⟩

def entriesOf (v : Value) : List Entry :=
  v.children.map fun (key, child) => ⟨key.name, child, none⟩

/-- What is to be listed for a container. -/
def State.listed (s : State) : ContainerKind → Except ScriptError (List Entry)
  | .scope scope filter =>
    (s.scope scope).map fun vars =>
      (vars.filter fun v => filter == .all || !v.automatic).map Variable.entry
  | .value reference =>
    (s.arena.get reference).map entriesOf

namespace State

variable {s t : State} {kind : ContainerKind} {scope : Scope} {filter : ScopeFilter}
  {reference : Reference} {l : List Entry}

theorem listed_scope_eq_ok (h : s.listed (.scope scope filter) = .ok l) :
    ∃ vars, s.scope scope = .ok vars ∧
      l = (vars.filter fun v => filter == .all || !v.automatic).map Variable.entry := by
  simp only [listed] at h
  cases hv : s.scope scope with
  | error e =>
    rw [hv] at h
    cases h
  | ok vars =>
    rw [hv] at h
    exact ⟨vars, rfl, (Except.ok.inj h).symm⟩

theorem listed_value_eq_ok (h : s.listed (.value reference) = .ok l) :
    ∃ v, s.arena.get reference = .ok v ∧ l = entriesOf v := by
  simp only [listed] at h
  cases hv : s.arena.get reference with
  | error e =>
    rw [hv] at h
    cases h
  | ok v =>
    rw [hv] at h
    exact ⟨v, rfl, (Except.ok.inj h).symm⟩

theorem listed_value {v : Value} (h : s.arena.get reference = .ok v) :
    s.listed (.value reference) = .ok (entriesOf v) := by
  rw [listed, h]
  rfl

theorem Extends.scope_eq (h : s.Extends t) : t.scope = s.scope := by
  rw [h.alike]
  rfl

theorem Extends.listed (h : s.Extends t) (hl : s.listed kind = .ok l) : t.listed kind = .ok l := by
  cases kind with
  | scope scope filter =>
    unfold State.listed at hl ⊢
    rw [h.scope_eq]
    exact hl
  | value reference =>
    obtain ⟨v, hv, rfl⟩ := listed_value_eq_ok hl
    exact listed_value (Arena.get_of_prefix h.arena hv)

end State
end Script

open Script (Entry State)

/-- The handle was given out with the value, and is good for its children. -/
def HandleTable.StandsFor (t : HandleTable) (arena : Arena) (h : Handle) (v : Value) : Prop :=
  ∃ reference, t.Opens h (.value reference) ∧ arena.get reference = .ok v

/-- A variable is shown as it is, with a handle exactly if it has children. -/
structure Shows (literals : Literals) (t : HandleTable) (arena : Arena) (entry : Entry)
    (x : Variable) : Prop where
  name : x.name = entry.name
  value : x.value = entry.value.shown literals
  typeName : x.typeName = entry.declaredType.or entry.value.typeName?
  isExpandable : x.isExpandable = x.handle.isSome
  expands : x.handle.isSome = !entry.value.children.isEmpty
  stands : ∀ h, x.handle = some h → t.StandsFor arena h entry.value

/-- The container can be listed, and remembers nothing else than what would be listed. -/
def Container.Remembers (c : Container) (literals : Literals) (t : HandleTable) (e : State) :
    Prop :=
  ∃ l, e.listed c.kind = .ok l ∧
    ∀ children, c.children = some children → List.Forall₂ (Shows literals t e.arena) l children

/-- The handles of a frame open its scopes. -/
structure FrameScopes.Open (scopes : FrameScopes) (t : HandleTable) (frame : Nat) : Prop where
  auto : t.Opens scopes.auto (.scope (.locals frame) .auto)
  locals : t.Opens scopes.locals (.scope (.locals frame) .all)
  script : t.Opens scopes.script (.scope (.script frame) .all)
  global : t.Opens scopes.global (.scope .global .all)

/-- A session in a halt and the engine that it belongs to. -/
structure Session.Orderly (s : Session) (e : State) : Prop where
  numbered : s.handles.Numbered
  remembers : ∀ c ∈ s.handles.containers, c.Remembers s.around.literals s.handles e
  frames : ∀ (i : Nat) (f : StackFrame), s.frames[i]? = some f → f.scopes.Open s.handles i
  depth : s.frames.length = e.frames.length ∨ (s.frames = [] ∧ s.handles.Full)

/-- What requests of a halt leave as it was: nothing that was shown before is taken back. -/
structure Session.Keeps (s : Session) (e : State) (t : Session) (u : State) : Prop where
  same : s.SameHalt t
  handles : s.handles.Extends t.handles
  arena : e.arena <+: u.arena
  orderly : t.Orderly u

/-- What requests leave as it was that assign nothing. -/
structure Session.Reads (s : Session) (e : State) (t : Session) (u : State) : Prop
    extends s.Keeps e t u where
  engine : e.Extends u

section

variable {s t w : Session} {e u x : State} {literals : Literals} {arena more : Arena}
  {table grown : HandleTable} {h : Handle} {v : Value} {entry : Entry} {shown : Variable}

theorem HandleTable.StandsFor.mono (hs : table.StandsFor arena h v) (ht : table.Extends grown)
    (ha : arena <+: more) : grown.StandsFor more h v := by
  obtain ⟨reference, ho, hv⟩ := hs
  exact ⟨reference, ht.opens ho, Arena.get_of_prefix ha hv⟩

theorem Shows.mono (hs : Shows literals table arena entry shown) (ht : table.Extends grown)
    (ha : arena <+: more) : Shows literals grown more entry shown :=
  { hs with stands := fun h hh => (hs.stands h hh).mono ht ha }

theorem Container.Remembers.mono {c : Container} (hc : c.Remembers literals table e)
    (ht : table.Extends grown) (he : e.Extends u) : c.Remembers literals grown u := by
  obtain ⟨l, hl, hm⟩ := hc
  exact ⟨l, he.listed hl, fun children hs => (hm children hs).imp fun _ _ h => h.mono ht he.arena⟩

theorem FrameScopes.Open.mono {scopes : FrameScopes} {frame : Nat}
    (hs : scopes.Open table frame) (ht : table.Extends grown) : scopes.Open grown frame :=
  ⟨ht.opens hs.auto, ht.opens hs.locals, ht.opens hs.script, ht.opens hs.global⟩

namespace Session

theorem SameHalt.around (h : s.SameHalt t) : t.around = s.around := by
  rw [h]

theorem SameHalt.frames (h : s.SameHalt t) : t.frames = s.frames := by
  rw [h]

namespace Orderly

theorem opened {kind : ContainerKind} (ho : s.Orderly e) (hk : s.handles.Opens h kind) :
    ∃ l, e.listed kind = .ok l := by
  obtain ⟨c, hr, rfl⟩ := hk
  obtain ⟨l, hl, _⟩ := ho.remembers c (HandleTable.mem_of_resolve hr)
  exact ⟨l, hl⟩

theorem scope_of_opens {scope : Scope} {filter : ScopeFilter} (ho : s.Orderly e)
    (hk : s.handles.Opens h (.scope scope filter)) : ∃ vars, e.scope scope = .ok vars := by
  obtain ⟨l, hl⟩ := ho.opened hk
  obtain ⟨vars, hv, _⟩ := State.listed_scope_eq_ok hl
  exact ⟨vars, hv⟩

/-- Old containers keep what they remember; new ones are to be listed as well. -/
theorem extend (ho : s.Orderly e) (same : s.SameHalt t) (numbered : t.handles.Numbered)
    (ht : s.handles.Extends t.handles) (he : e.Extends u)
    (hc : ∀ c ∈ t.handles.containers, c ∈ s.handles.containers ∨
      c.Remembers s.around.literals t.handles u) : s.Reads e t u := by
  refine ⟨⟨same, ht, he.arena, numbered, ?_, ?_, ?_⟩, he⟩
  · intro c hm
    rw [same.around]
    rcases hc c hm with hs | hn
    · exact (ho.remembers c hs).mono ht he
    · exact hn
  · intro i f hf
    rw [same.frames] at hf
    exact (ho.frames i f hf).mono ht
  · rw [same.frames, he.alike.frames]
    exact ho.depth.imp_right fun ⟨hn, hfull⟩ => ⟨hn, ht.full hfull⟩

/-- The engine has answered. -/
theorem answered (ho : s.Orderly e) (he : e.Extends u) : s.Reads e s u :=
  ho.extend (SameHalt.refl s) ho.numbered (.refl _) he fun _ hc => .inl hc

end Orderly

theorem Keeps.trans (h : s.Keeps e t u) (h' : t.Keeps u w x) : s.Keeps e w x :=
  ⟨h.same.trans h'.same, h.handles.trans h'.handles, h.arena.trans h'.arena, h'.orderly⟩

theorem Reads.refl (ho : s.Orderly e) : s.Reads e s e :=
  ho.answered (.refl e)

theorem Reads.trans (h : s.Reads e t u) (h' : t.Reads u w x) : s.Reads e w x :=
  ⟨h.toKeeps.trans h'.toKeeps, h.engine.trans h'.engine⟩

end Session
end

namespace SessionM

variable {s t : Session} {e u : State} {α β : Type}

/-- There is a result, or all handles of the halt are used up. -/
def Yields (P : α → Session → State → Prop) : Except SessionError α → Session → State → Prop
  | .ok a, t, u => P a t u
  | .error x, t, _ => x = .handleSpaceExhausted ∧ t.handles.Full

/-- The work assigns nothing, and has a result unless the handles are used up. -/
def Reads (m : SessionM State α) (s : Session) (e : State) (P : α → Session → State → Prop) :
    Prop :=
  m.Ends s e fun r t u => s.Reads e t u ∧ Yields P r t u

namespace Reads

variable {P : α → Session → State → Prop} {Q : β → Session → State → Prop}

theorem pure {a : α} (ho : s.Orderly e) (h : P a s e) : Reads (pure a) s e P :=
  Ends.pure ⟨.refl ho, h⟩

theorem bind {m : SessionM State α} {f : α → SessionM State β} (hm : Reads m s e P)
    (hf : ∀ a t u, s.Reads e t u → P a t u → Reads (f a) t u Q) : Reads (m >>= f) s e Q := by
  refine Ends.bind hm (fun a t u ⟨hr, hp⟩ => ?_) fun x t u h => h
  exact (hf a t u hr hp).mono fun r w x h => ⟨hr.trans h.1, h.2⟩

theorem map {m : SessionM State α} {f : α → β} (hm : Reads m s e P)
    (hf : ∀ a t u, P a t u → Q (f a) t u) : Reads (f <$> m) s e Q :=
  Ends.map hm (fun a t u h => ⟨h.1, hf a t u h.2⟩) fun _ _ _ h => h

theorem get_bind {f : Session → SessionM State β} (h : Reads (f s) s e Q) :
    Reads (get >>= f) s e Q :=
  Ends.get_bind h

theorem read_bind {g : Session → Except SessionError α} {a : α} (hg : g s = .ok a)
    {f : α → SessionM State β} (h : Reads (f a) s e Q) : Reads (read g >>= f) s e Q :=
  Ends.read_bind hg h

end Reads

theorem allocate_reads (ho : s.Orderly e) {c : Container} (hn : c.children = none)
    (hl : ∃ l, e.listed c.kind = .ok l) :
    Reads (allocate c) s e fun h t u => u = e ∧ t.handles.Opens h c.kind := by
  obtain ⟨l, hl⟩ := hl
  refine .get_bind ?_
  rcases HandleTable.allocate_spec ho.numbered c with ⟨h, ha, hnum, hx, hk⟩ | ⟨hf, ha⟩
  · rw [ha]
    refine .set_bind (.pure ⟨?_, rfl, hk⟩)
    refine ho.extend rfl hnum hx (.refl e) fun d hd => ?_
    rcases Array.mem_push.mp hd with hd | rfl
    · exact .inl hd
    · refine .inr ⟨l, hl, fun children hc => ?_⟩
      rw [hn] at hc
      cases hc
  · rw [ha]
    exact .throw ⟨.refl ho, rfl, hf⟩

theorem makeVariable_reads (ho : s.Orderly e) {d : Description} {v : Value}
    (hd : d.Tells e.arena v) (name : String) (type : Option String) (scope : Scope) :
    Reads (makeVariable name d type scope) s e fun x t u =>
      u = e ∧ Shows s.around.literals t.handles u.arena ⟨name, v, type⟩ x := by
  refine Reads.get_bind ?_
  dsimp only
  split
  · next hx hr =>
    have hv := hd.reference _ hr
    have hc : v.children.isEmpty = false := by
      rw [Description.display, hd.expandable] at hx
      simpa using hx
    refine ((allocate_reads ho rfl ⟨_, State.listed_value hv⟩).map
      (Q := fun o t u => u = e ∧ ∃ h, o = some h ∧ t.handles.StandsFor u.arena h v) ?_).bind ?_
    · rintro h t u ⟨rfl, hk⟩
      exact ⟨rfl, h, rfl, _, hk, hv⟩
    · rintro _ t u hr ⟨rfl, h, rfl, hs⟩
      refine .pure hr.orderly ⟨rfl, rfl, hd.text _, congrArg (type.or ·) hd.typeName, rfl,
        by simp [hc], ?_⟩
      rintro _ ⟨⟩
      exact hs
  · next hn =>
    have hc : v.children.isEmpty = true := by
      by_contra hc
      have he : d.expandable = true := by simpa [hd.expandable] using hc
      obtain ⟨r, hr⟩ := Option.isSome_iff_exists.mp (hd.refers he)
      exact hn r he hr
    refine Reads.pure ho ⟨rfl, rfl, hd.text _, congrArg (type.or ·) hd.typeName, rfl,
      by simp [hc], nofun⟩

/-- What is told for an entry. -/
structure EntryTold (arena : Arena) (told : String × Description × Option String) (entry : Entry) :
    Prop where
  name : told.1 = entry.name
  value : told.2.1.Tells arena entry.value
  declaredType : told.2.2 = entry.declaredType

theorem makeVariables_reads (ho : s.Orderly e) (scope : Scope)
    {told : List (String × Description × Option String)} {l : List Entry}
    (ht : List.Forall₂ (EntryTold e.arena) told l) :
    Reads (makeVariables scope told) s e fun xs t u =>
      u = e ∧ List.Forall₂ (Shows s.around.literals t.handles u.arena) l xs := by
  induction ht generalizing s with
  | nil => exact .pure ho ⟨rfl, .nil⟩
  | @cons told entry rest l h _ ih =>
    obtain ⟨name, d, type⟩ := told
    obtain ⟨entryName, v, declaredType⟩ := entry
    obtain ⟨rfl, hd, rfl⟩ := h
    refine (makeVariable_reads ho hd name type scope).bind ?_
    rintro x t u hr ⟨rfl, hx⟩
    refine (ih hr.orderly).bind ?_
    rintro xs w _ hr' ⟨rfl, hxs⟩
    rw [hr.same.around] at hxs
    exact .pure hr'.orderly ⟨rfl, .cons (hx.mono hr'.handles hr'.arena) hxs⟩

/-- What the engine tells of a container that can be listed. -/
theorem entries_tells {kind : ContainerKind} {l : List Entry} (hl : e.listed kind = .ok l) :
    (entries Script.context kind).Ends s e fun r t u =>
      ∃ told, r = .ok told ∧ t = s ∧ e.Extends u ∧ List.Forall₂ (EntryTold u.arena) told l := by
  cases kind with
  | scope scope filter =>
    obtain ⟨vars, hv, rfl⟩ := State.listed_scope_eq_ok hl
    obtain ⟨told, u, hr, he, ht⟩ := Script.listVariables_returns hv
    refine .ask_bind hr _ (.pure ⟨_, rfl, rfl, he, ?_⟩)
    refine List.forall₂_map_left_iff.mpr (List.forall₂_map_right_iff.mpr ?_)
    have hf := List.rel_filter (p := fun v : EngineVariable => filter == .all || !v.automatic)
      (q := fun v : Script.Variable => filter == .all || !v.automatic)
      (fun told v h => by simp only [h.automatic]) ht
    exact hf.imp fun told v h => ⟨h.name, h.value, h.declaredType⟩
  | value reference =>
    obtain ⟨v, hv, rfl⟩ := State.listed_value_eq_ok hl
    obtain ⟨told, u, hr, he, ht⟩ := Script.children_returns hv
    refine .ask_bind hr _ (.pure ⟨_, rfl, rfl, he, ?_⟩)
    refine List.forall₂_map_left_iff.mpr (List.forall₂_map_right_iff.mpr ?_)
    exact ht.imp fun told child h => ⟨congrArg ChildKey.name h.key, h.value, rfl⟩

theorem entries_reads (ho : s.Orderly e) {kind : ContainerKind} {l : List Entry}
    (hl : e.listed kind = .ok l) :
    Reads (entries Script.context kind) s e fun told t u =>
      t = s ∧ List.Forall₂ (EntryTold u.arena) told l := by
  refine (entries_tells hl).mono ?_
  rintro _ _ u ⟨told, rfl, rfl, he, ht⟩
  exact ⟨ho.answered he, rfl, ht⟩

/-- A handle that is listed for the first time shows what there is, and later what was shown
then. -/
theorem expand_reads (ho : s.Orderly e) (hs : s.runState = .stopped) {h : Handle} {c : Container}
    (hr : s.handles.resolve h = .ok c) {l : List Entry} (hl : e.listed c.kind = .ok l) :
    Reads (expand Script.context h) s e fun xs t u =>
      List.Forall₂ (Shows s.around.literals t.handles u.arena) l xs := by
  have hrem := ho.remembers c (HandleTable.mem_of_resolve hr)
  refine Reads.read_bind (a := ()) (by simp [Session.ensureStopped, hs]) ?_
  refine Reads.read_bind (a := c) (by simp [Session.resolve, hr, Except.mapError]) ?_
  cases hc : c.children with
  | some children =>
    obtain ⟨l', hl', hm⟩ := hrem
    obtain rfl : l' = l := Except.ok.inj (hl'.symm.trans hl)
    exact .pure ho (hm children hc)
  | none =>
    refine (entries_reads ho hl).bind ?_
    rintro told _ u hre ⟨rfl, ht⟩
    refine (makeVariables_reads hre.orderly c.parentScope ht).bind ?_
    rintro xs t _ hrm ⟨rfl, hxs⟩
    obtain ⟨before, hrt⟩ := hrm.handles.resolve hr
    obtain ⟨handles, hset, hnum, hx, hmem⟩ :=
      HandleTable.setChildren_spec hrm.orderly.numbered hrt xs
    refine .read_bind (a := handles) (by simp [hset, Except.mapError]) ?_
    refine .modify_bind (.pure ⟨?_, ?_⟩)
    · refine hrm.orderly.extend rfl hnum hx (.refl _) fun d hd => ?_
      rcases hmem d hd with hd | rfl
      · exact .inl hd
      · refine .inr ⟨l, hre.engine.listed hl, ?_⟩
        rintro _ ⟨⟩
        rw [hrm.same.around]
        exact hxs.imp fun _ _ h => h.mono hx List.prefix_rfl
    · exact hxs.imp fun _ _ h => h.mono hx List.prefix_rfl

end SessionM
end Stepwise
