import Stepwise.Proofs.Session.Listing
import Stepwise.Proofs.Value.Outline

namespace Stepwise

theorem Value.sizeOf_child_lt {v c : Value} {k : ChildKey} (h : (k, c) ∈ v.children) :
    sizeOf c < sizeOf v := by
  have named : ∀ {n : String} {l : List (String × Value)}, (n, c) ∈ l → sizeOf c < sizeOf l := by
    intro n l hm
    have hlt := List.sizeOf_lt_of_mem hm
    rw [Prod.mk.sizeOf_spec] at hlt
    omega
  cases v with
  | array items =>
    obtain ⟨⟨w, i⟩, hw, he⟩ := List.mem_map.mp h
    cases he
    have hlt : sizeOf c < sizeOf items := List.sizeOf_lt_of_mem (List.fst_mem_of_mem_zipIdx hw)
    rw [Value.array.sizeOf_spec]
    omega
  | hashtable entries | object type entries | «foreign» type display entries =>
    obtain ⟨⟨n, w⟩, hw, he⟩ := List.mem_map.mp h
    cases he
    have hlt := named hw
    simp only [Value.hashtable.sizeOf_spec, Value.object.sizeOf_spec, Value.foreign.sizeOf_spec]
    omega
  | _ => cases h

/-- A variable with what listings tell of it: its text, and the trees of its children by name. -/
inductive Drawn (heard : List (Handle × List Variable)) : Variable → Outline → Prop
  | leaf {x : Variable} (none : x.handle = none) : Drawn heard x (.node x.value [])
  | node {x : Variable} {h : Handle} {l : List Variable} {trees : List Outline}
    {children : List (String × Outline)} (handle : x.handle = some h) (listed : (h, l) ∈ heard)
    (drawn : List.Forall₂ (Drawn heard) l trees)
    (named : children = (l.map Variable.name).zip trees) : Drawn heard x (.node x.value children)

/-- The handles that are found by listing a variable and whatever it leads to. -/
inductive Below (heard : List (Handle × List Variable)) (x : Variable) : Handle → Prop
  | own {h : Handle} (handle : x.handle = some h) : Below heard x h
  | child {h k : Handle} {l : List Variable} {y : Variable} (above : Below heard x h)
    (listed : (h, l) ∈ heard) (member : y ∈ l) (handle : y.handle = some k) : Below heard x k

/-- Every handle found has been listed. -/
def Explored (heard : List (Handle × List Variable)) (x : Variable) : Prop :=
  ∀ h, Below heard x h → ∃ l, (h, l) ∈ heard

/-- A handle is listed as the value that it stands for. -/
def HeardTruly (literals : Literals) (table : HandleTable) (arena : Arena)
    (heard : List (Handle × List Variable)) : Prop :=
  ∀ h l, (h, l) ∈ heard → ∀ v, table.StandsFor arena h v →
    List.Forall₂ (Shows literals table arena) (Script.entriesOf v) l

variable {literals : Literals} {table : HandleTable} {arena : Arena}
  {heard : List (Handle × List Variable)}

theorem Below.of_child {h k : Handle} {l : List Variable} {x y : Variable}
    (handle : x.handle = some h) (listed : (h, l) ∈ heard) (member : y ∈ l)
    (hk : Below heard y k) : Below heard x k := by
  induction hk with
  | own hy => exact .child (.own handle) listed member hy
  | child _ listed' member' handle' ih => exact .child ih listed' member' handle'

namespace HeardTruly

variable {children : List (ChildKey × Value)} {l : List Variable} {trees : List Outline}

/-- The trees of children that are shown in order are in order. -/
theorem children_drawn
    (shown : List.Forall₂ (Shows literals table arena)
      (children.map fun (key, child) => ⟨key.name, child, none⟩) l)
    (drawn : List.Forall₂ (Drawn heard) l trees)
    (ih : ∀ k c, (k, c) ∈ children → ∀ y o, Shows literals table arena ⟨k.name, c, none⟩ y →
      Drawn heard y o → o = c.outline literals) :
    (l.map Variable.name).zip trees = children.map fun (k, c) => (k.name, c.outline literals) := by
  induction children generalizing l trees with
  | nil =>
    cases shown
    rfl
  | cons child rest hr =>
    obtain ⟨k, c⟩ := child
    cases shown with
    | cons hy hys =>
      cases drawn with
      | cons ho hos =>
        have ht := ih k c List.mem_cons_self _ _ hy ho
        have hn := hr hys hos fun k c hm => ih k c (List.mem_cons_of_mem _ hm)
        rw [List.map_cons, List.zip_cons_cons, hn, hy.name, ht, List.map_cons]

/-- Whatever is drawn is the outline of the value. -/
theorem drawn_eq (ht : HeardTruly literals table arena heard) {x : Variable} {name : String}
    {v : Value} {type : Option String} {o : Outline}
    (hx : Shows literals table arena ⟨name, v, type⟩ x) (hd : Drawn heard x o) :
    o = v.outline literals := by
  rw [Value.outline_eq]
  cases hd with
  | leaf hn =>
    have hc : v.children = [] := by simpa [hn] using hx.expands
    rw [hc, hx.value]
    rfl
  | node handle listed drawn named =>
    have hl := ht _ _ listed v (hx.stands _ handle)
    -- The children are smaller values, so their trees are known.
    have hc := children_drawn hl drawn fun k c hm y o hy ho => drawn_eq ht hy ho
    rw [hx.value, named, hc]
termination_by sizeOf v
decreasing_by exact Value.sizeOf_child_lt hm

/-- The trees of children that are shown in order can be drawn in order. -/
theorem exists_children_drawn
    (shown : List.Forall₂ (Shows literals table arena)
      (children.map fun (key, child) => ⟨key.name, child, none⟩) l)
    (ih : ∀ k c, (k, c) ∈ children → ∀ y ∈ l, Shows literals table arena ⟨k.name, c, none⟩ y →
      Drawn heard y (c.outline literals)) :
    ∃ trees, List.Forall₂ (Drawn heard) l trees ∧ (l.map Variable.name).zip trees =
      children.map fun (k, c) => (k.name, c.outline literals) := by
  induction children generalizing l with
  | nil =>
    cases shown
    exact ⟨[], .nil, rfl⟩
  | cons child rest hr =>
    obtain ⟨k, c⟩ := child
    cases shown with
    | cons hy hys =>
      have ho := ih k c List.mem_cons_self _ List.mem_cons_self hy
      obtain ⟨trees, hos, hn⟩ := hr hys fun k c hm y hm' =>
        ih k c (List.mem_cons_of_mem _ hm) y (List.mem_cons_of_mem _ hm')
      refine ⟨_ :: trees, .cons ho hos, ?_⟩
      rw [List.map_cons, List.zip_cons_cons, hn, hy.name, List.map_cons]

/-- When every handle found has been listed, the outline of the value can be drawn. -/
theorem exists_drawn (ht : HeardTruly literals table arena heard) {x : Variable} {name : String}
    {v : Value} {type : Option String} (hx : Shows literals table arena ⟨name, v, type⟩ x)
    (he : Explored heard x) : Drawn heard x (v.outline literals) := by
  rw [Value.outline_eq, ← hx.value]
  cases hh : x.handle with
  | none =>
    have hc : v.children = [] := by simpa [hh] using hx.expands
    rw [hc]
    exact .leaf hh
  | some h =>
    obtain ⟨l, hl⟩ := he h (.own hh)
    obtain ⟨trees, hd, hn⟩ := exists_children_drawn (ht h l hl v (hx.stands h hh))
      fun k c hm y hm' hy => exists_drawn ht hy fun h' hb => he h' (.of_child hh hl hm' hb)
    exact .node hh hl hd hn.symm
termination_by sizeOf v
decreasing_by exact Value.sizeOf_child_lt hm

end HeardTruly
end Stepwise
