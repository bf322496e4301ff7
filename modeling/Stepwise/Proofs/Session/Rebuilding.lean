import Mathlib
import Stepwise.Proofs.Session.Drawing
import Stepwise.Proofs.Session.Responding
import Stepwise.Script.Samples

namespace Stepwise

open Script (Entry)

/-- A state with values in a value. -/
def Script.State.nested : Script.State :=
  { globals := [{ name := "$v", value := .array [.int 1, .hashtable [("a", .int 2)]] }] }

/-- What is to be listed for the handles of a frame. -/
def FrameScopes.contents (scopes : FrameScopes) (frame : Nat) : List (Handle × ContainerKind) :=
  [(scopes.auto, .scope (.locals frame) .auto), (scopes.locals, .scope (.locals frame) .all),
    (scopes.script, .scope (.script frame) .all), (scopes.global, .scope .global .all)]

theorem FrameScopes.Open.opens {scopes : FrameScopes} {table : HandleTable} {frame : Nat}
    (ho : scopes.Open table frame) {h : Handle} {kind : ContainerKind}
    (hm : (h, kind) ∈ scopes.contents frame) : table.Opens h kind := by
  simp only [contents, List.mem_cons, Prod.mk.injEq, List.not_mem_nil, or_false] at hm
  rcases hm with ⟨rfl, rfl⟩ | ⟨rfl, rfl⟩ | ⟨rfl, rfl⟩ | ⟨rfl, rfl⟩
  · exact ho.auto
  · exact ho.locals
  · exact ho.script
  · exact ho.global

theorem HandleTable.Opens.unique {table : HandleTable} {h : Handle} {kind other : ContainerKind}
    (ho : table.Opens h kind) (ho' : table.Opens h other) : kind = other := by
  obtain ⟨c, hc, rfl⟩ := ho
  obtain ⟨d, hd, rfl⟩ := ho'
  rw [Except.ok.inj (hc.symm.trans hd)]

namespace Exchange

section

variable {E : Engine}

/-- The handle that is listed and the variables that are shown for it. -/
def listing? (x : Exchange E) : Option (Handle × List Variable) :=
  match x.request, x.reply with
  | .expand h, .given (.ok (.children l)) => some (h, l)
  | _, _ => none

/-- The variables that a reply shows; the value of an expression is one. -/
def shown (x : Exchange E) : List Variable :=
  match x.request, x.reply with
  | .expand _, .given (.ok (.children l)) => l
  | .evaluate expression _, .given (.ok (.evaluated r)) => [r.variable expression]
  | _, _ => []

theorem listing?_eq_some {x : Exchange E} {h : Handle} {l : List Variable}
    (hx : x.listing? = some (h, l)) :
    x.request = .expand h ∧ x.reply = .given (.ok (.children l)) := by
  unfold listing? at hx
  split at hx
  · next hq hp =>
    cases hx
    exact ⟨hq, hp⟩
  · cases hx

end

variable {catalog : Script.Catalog}

/-- The variable is shown as it is after the exchange. -/
def Tells (x : Exchange (scriptEngine catalog)) (entry : Entry) (y : Variable) : Prop :=
  Shows x.after.session.around.literals x.after.session.handles x.after.engine.arena entry y

/-- All entries are shown in order, or all handles of the halt are used up. -/
def Lists (x : Exchange (scriptEngine catalog)) (l : List Entry) : Prop :=
  (∃ ys, x.reply = .given (.ok (.children ys)) ∧ List.Forall₂ x.Tells l ys) ∨
    (x.reply = .given (.error .handleSpaceExhausted) ∧ x.after.session.handles.Full)

end Exchange

namespace System

/-- All that is listed in some exchanges. -/
def listings {E : Engine} (xs : List (Exchange E)) : List (Handle × List Variable) :=
  xs.filterMap Exchange.listing?

variable {catalog : Script.Catalog} {s t : System (scriptEngine catalog)}
  {xs before after : List (Exchange (scriptEngine catalog))} {x y : Exchange (scriptEngine catalog)}
  {around : Surroundings} {engine : Script.State} {interrupts : Interrupts}

/-- What the exchanges of a halt tell of it. -/
structure Rebuilds (xs : List (Exchange (scriptEngine catalog)))
    (t : System (scriptEngine catalog)) : Prop where
  /-- Whatever is asked for next can be answered within the halt. -/
  responds : ∀ r, t.Responds r
  /-- The frames are there, unless there were not enough handles for their scopes. -/
  frames : t.session.frames.length = t.engine.frames.length ∨
    (t.session.frames = [] ∧ t.session.handles.Full)
  /-- Listing a scope of a frame shows the variables that it has then. -/
  scopes : ∀ x ∈ xs, ∀ (i : Nat) (f : StackFrame), t.session.frames[i]? = some f →
    ∀ h kind, (h, kind) ∈ f.scopes.contents i → x.request = .expand h →
      ∃ l, x.before.engine.listed kind = .ok l ∧ x.Lists l
  /-- The value of an expression is shown as it is. -/
  expressions : ∀ x ∈ xs, ∀ expression frame r, x.request = .evaluate expression frame →
    x.reply = .given (.ok (.evaluated r)) →
      ∃ v, x.before.engine.evaluate (.locals frame) expression = .ok v ∧
        x.Tells ⟨expression, v, none⟩ (r.variable expression)
  /-- Whatever is shown is something as it is. -/
  entries : ∀ x ∈ xs, ∀ z ∈ x.shown, ∃ entry, x.Tells entry z
  /-- The handle that is shown with a value lists the children of that value ever after. -/
  values : ∀ before x after, xs = before ++ x :: after → ∀ y ∈ before, ∀ z ∈ y.shown,
    ∀ entry, y.Tells entry z → ∀ h, z.handle = some h → x.request = .expand h →
      x.Lists (Script.entriesOf entry.value)
  /-- The tree drawn of a value is that of the value, and it can be drawn once all is listed. -/
  trees : ∀ x ∈ xs, ∀ z ∈ x.shown, ∀ entry, x.Tells entry z →
    (∀ o, Drawn (listings xs) z o → o = entry.value.outline t.session.around.literals) ∧
      (Explored (listings xs) z →
        Drawn (listings xs) z (entry.value.outline t.session.around.literals))
  /-- A collection has as many children as it says. -/
  collections : ∀ x ∈ xs, ∀ z ∈ x.shown, ∀ entry, x.Tells entry z →
    ∀ kind count, entry.value.collection? = some (kind, count) →
      z.value = "[" ++ kind ++ ": " ++ toString count ++ "]" ∧
        ∀ h l, z.handle = some h → (h, l) ∈ listings xs → l.length = count

namespace Conversation

/-- The halt from an exchange to the end. -/
theorem remains_after (hr : Reaches (opened around engine interrupts) s)
    (h : s.Conversation (before ++ x :: after) t) : x.after.Remains t :=
  h.split.2.2.remains (h.answers hr).1

/-- A handle that opens something lists it. -/
theorem lists (hr : Reaches (opened around engine interrupts) s)
    (h : s.Conversation (before ++ x :: after) t) {handle : Handle} {kind : ContainerKind}
    (ho : x.before.session.handles.Opens handle kind) {l : List Entry}
    (hl : x.before.engine.listed kind = .ok l) (hx : x.request = .expand handle) : x.Lists l := by
  obtain ⟨_, hrem, result, hreply, hans⟩ := h.answers hr
  rw [hx] at hans
  unfold Exchange.Lists Exchange.Tells
  rw [hreply, hrem.around]
  exact (hans.of_opens ho hl).imp (fun ⟨ys, hy, hs⟩ => ⟨ys, hy ▸ rfl, hs⟩)
    fun ⟨he, hf⟩ => ⟨he ▸ rfl, hf⟩

/-- Whatever is shown for a handle is what there was to be listed. -/
theorem exists_listed (hr : Reaches (opened around engine interrupts) s)
    (h : s.Conversation (before ++ x :: after) t) {handle : Handle} {ys : List Variable}
    (hx : x.listing? = some (handle, ys)) :
    ∃ kind l, x.before.session.handles.Opens handle kind ∧ x.before.engine.listed kind = .ok l ∧
      List.Forall₂ x.Tells l ys := by
  obtain ⟨hq, hp⟩ := Exchange.listing?_eq_some hx
  obtain ⟨_, hrem, result, hreply, hans⟩ := h.answers hr
  obtain rfl : .ok (.children ys) = result := Reply.given.inj (hp.symm.trans hreply)
  rw [hq] at hans
  unfold Exchange.Tells
  rw [hrem.around]
  exact hans.of_children

theorem expression_told (hr : Reaches (opened around engine interrupts) s)
    (h : s.Conversation (before ++ x :: after) t) {expression : String} {frame : Nat}
    {r : Evaluated} (hq : x.request = .evaluate expression frame)
    (hp : x.reply = .given (.ok (.evaluated r))) :
    ∃ v, x.before.engine.evaluate (.locals frame) expression = .ok v ∧
      x.Tells ⟨expression, v, none⟩ (r.variable expression) := by
  obtain ⟨_, hrem, result, hreply, hans⟩ := h.answers hr
  obtain rfl : .ok (.evaluated r) = result := Reply.given.inj (hp.symm.trans hreply)
  rw [hq] at hans
  unfold Exchange.Tells
  rw [hrem.around]
  exact hans.of_evaluated

theorem heardTruly (hr : Reaches (opened around engine interrupts) s) (h : s.Conversation xs t) :
    HeardTruly t.session.around.literals t.session.handles t.engine.arena (listings xs) := by
  intro handle ys hm v hv
  obtain ⟨x, hx, hl⟩ := List.mem_filterMap.mp hm
  obtain ⟨before, after, rfl⟩ := List.append_of_mem hx
  obtain ⟨kind, l, ho, hlisted, hshown⟩ := h.exists_listed hr hl
  have hrem := h.remains_after hr
  have hall := (h.answers hr).2.1.trans hrem
  -- The handle opens the same value as when it was listed, since the arena only grows.
  obtain ⟨reference, ho', hv⟩ := hv
  obtain rfl := (hall.handles.opens ho).unique ho'
  obtain ⟨w, hw, rfl⟩ := Script.State.listed_value_eq_ok hlisted
  obtain rfl : w = v := Except.ok.inj ((Arena.get_of_prefix hall.arena hw).symm.trans hv)
  rw [hrem.around]
  exact hshown.imp fun _ _ h => h.mono hrem.handles hrem.arena

theorem tells_later (hr : Reaches (opened around engine interrupts) s) (h : s.Conversation xs t)
    (hx : x ∈ xs) {entry : Entry} {z : Variable} (hz : x.Tells entry z) :
    Shows t.session.around.literals t.session.handles t.engine.arena entry z := by
  obtain ⟨before, after, rfl⟩ := List.append_of_mem hx
  have hrem := h.remains_after hr
  rw [hrem.around]
  exact Shows.mono hz hrem.handles hrem.arena

/-- Whatever is shown is something as it is. -/
theorem exists_entry (hr : Reaches (opened around engine interrupts) s) (h : s.Conversation xs t)
    (hx : x ∈ xs) {z : Variable} (hz : z ∈ x.shown) : ∃ entry, x.Tells entry z := by
  obtain ⟨before, after, rfl⟩ := List.append_of_mem hx
  unfold Exchange.shown at hz
  split at hz
  · next handle ys hq hp =>
    obtain ⟨_, l, _, _, hs⟩ := h.exists_listed hr (x := x) (by rw [Exchange.listing?, hq, hp])
    obtain ⟨i, rfl⟩ := List.mem_iff_get.mp hz
    have hi : i < l.length := by rw [hs.length_eq]; exact i.isLt
    exact ⟨_, hs.get hi i.isLt⟩
  · next expression frame r hq hp =>
    obtain ⟨v, _, hs⟩ := h.expression_told hr hq hp
    obtain rfl := List.mem_singleton.mp hz
    exact ⟨_, hs⟩
  · cases hz

/-- A scope of a frame is listed as it is at that time. -/
theorem scope_lists (hr : Reaches (opened around engine interrupts) s) (h : s.Conversation xs t)
    (hx : x ∈ xs) {i : Nat} {f : StackFrame} (hf : t.session.frames[i]? = some f)
    {handle : Handle} {kind : ContainerKind} (hm : (handle, kind) ∈ f.scopes.contents i)
    (hq : x.request = .expand handle) :
    ∃ l, x.before.engine.listed kind = .ok l ∧ x.Lists l := by
  obtain ⟨before, after, rfl⟩ := List.append_of_mem hx
  have hb := h.split.1
  have ho := (inOrder_reaches (hb.reaches hr)).orderly hb.stopped.2
  have hframes := ((h.answers hr).2.1.trans (h.remains_after hr)).frames
  have hopen := (ho.frames i f (hframes ▸ hf)).opens hm
  obtain ⟨l, hl⟩ := ho.opened hopen
  exact ⟨l, hl, h.lists hr hopen hl hq⟩

/-- The handle of a value lists its children, whatever else was asked for or set since. -/
theorem value_lists (hr : Reaches (opened around engine interrupts) s)
    (h : s.Conversation (before ++ x :: after) t) (hy : y ∈ before) {entry : Entry} {z : Variable}
    (hz : y.Tells entry z) {handle : Handle} (hh : z.handle = some handle)
    (hq : x.request = .expand handle) : x.Lists (Script.entriesOf entry.value) := by
  obtain ⟨reference, hopen, hv⟩ := (h.split.1.tells_later hr hy hz).stands handle hh
  exact h.lists hr hopen (Script.State.listed_value hv) hq

/-- Whatever clients do in a halt, in whatever order: all that they list is what the engine has, and
the handles of values stay good for these values. -/
theorem rebuilds (hr : Reaches (opened around engine interrupts) s) (h : s.Conversation xs t) :
    Rebuilds xs t where
  responds := System.responds (h.reaches hr) h.stopped.2
  frames := ((inOrder_reaches (h.reaches hr)).orderly h.stopped.2).depth
  scopes _ hx _ _ hf _ _ hm hq := h.scope_lists hr hx hf hm hq
  expressions x hx expression frame r hq hp := by
    obtain ⟨before, after, rfl⟩ := List.append_of_mem hx
    exact h.expression_told hr hq hp
  entries _ hx _ hz := h.exists_entry hr hx hz
  values before x after hxs y hy z _ entry hz handle hh hq := by
    subst hxs
    exact h.value_lists hr hy hz hh hq
  trees x hx z _ entry hz :=
    ⟨fun _ hd => (h.heardTruly hr).drawn_eq (h.tells_later hr hx hz) hd,
      (h.heardTruly hr).exists_drawn (h.tells_later hr hx hz)⟩
  collections x hx z _ entry hz kind count hk := by
    have hz := h.tells_later hr hx hz
    obtain ⟨hv, hc⟩ := Value.shown_of_collection? hk t.session.around.literals
    refine ⟨hz.value.trans hv, fun handle l hh hl => ?_⟩
    have hl := h.heardTruly hr handle l hl entry.value (hz.stands handle hh)
    rw [← hl.length_eq, Script.entriesOf, List.length_map, hc]

/-- A value is listed to its leaves, although another one takes its place meanwhile. -/
theorem rebuilds_nested :
    ∃ (s t : System (scriptEngine { inlines := [("count", .counting 1)] }))
      (xs : List (Exchange (scriptEngine { inlines := [("count", .counting 1)] }))),
      Reaches (opened { home := .at ⟨"/"⟩ } Script.State.nested { breakRequested := true }) s ∧
      s.Conversation xs t ∧ Rebuilds xs t ∧
      Drawn (listings xs) ⟨"$v", "[Object[]: 2]", some "Object[]", true, some (.of 2 5)⟩
        (.node "[Object[]: 2]" [("[0]", .node "1" []),
          ("[1]", .node "[Hashtable: 1]" [("a", .node "2" [])])]) := by
  have hf : (((opened { home := .at ⟨"/"⟩ } Script.State.nested { breakRequested := true } :
      System (scriptEngine { inlines := [("count", .counting 1)] })).follow
      (breaking (.inline "count"))).bind fun s =>
        s.converse (asking 1 (.expand (.of 2 4)) ++ asking 2 (.expand (.of 2 5)) ++
          asking 3 (.setVariable (.of 2 4) "$v" "5") ++ asking 4 (.expand (.of 2 6)))).any
      (fun told => listings told.1 ==
        [(.of 2 4, [⟨"$v", "[Object[]: 2]", some "Object[]", true, some (.of 2 5)⟩]),
          (.of 2 5, [⟨"[0]", "1", some "int", false, none⟩,
            ⟨"[1]", "[Hashtable: 1]", some "Hashtable", true, some (.of 2 6)⟩]),
          (.of 2 6, [⟨"a", "2", some "int", false, none⟩])]) = true := by cbv
  obtain ⟨s, xs, t, hr, h, hp⟩ := exists_conversation hf
  refine ⟨s, t, xs, hr, h, h.rebuilds hr, ?_⟩
  rw [beq_iff_eq.mp hp]
  have leaf : ∀ {name text type} {heard : List (Handle × List Variable)},
      Drawn heard ⟨name, text, type, false, none⟩ (.node text []) := .leaf rfl
  exact .node rfl (.tail _ (.head _))
    (.cons leaf (.cons (.node rfl (.tail _ (.tail _ (.head _))) (.cons leaf .nil) rfl) .nil)) rfl

end Conversation
end System
end Stepwise
