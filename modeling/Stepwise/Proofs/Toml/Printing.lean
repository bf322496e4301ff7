import Stepwise.Proofs.Toml.Values

namespace Stepwise.Toml
open Reader Text

variable {cs rest left : List Char} {ss : List (Option Statement)} {key name : String}

namespace Setting

variable {s : Setting}

def node : Setting → Node
  | .text s => .text s
  | .number n => .integer n

/-- Numbers are read up to a bound. -/
def Fits : Setting → Prop
  | .text _ => True
  | .number n => (n : Int) < signedBound

theorem data_of_ofData? {d : Data} (h : ofData? d = some s) : s.data = d ∧ s.Fits := by
  cases d with
  | text t =>
    cases h
    exact ⟨rfl, trivial⟩
  | integer n =>
    simp only [ofData?] at h
    split at h
    · next hrange =>
      cases h
      have hn : (n.toNat : Int) = n := Int.toNat_of_nonneg hrange.1
      exact ⟨congrArg Data.integer hn, lt_of_eq_of_lt hn hrange.2⟩
    · cases h
  | _ => cases h

theorem readValue_print (hs : s.Fits) (rest : List Char) :
    readValue (s.print ++ '\n' :: rest) = some (s.node, '\n' :: rest) := by
  cases s with
  | text t =>
    have hvalue := readValue_text t.toList rest
    rwa [String.ofList_toList] at hvalue
  | number n => exact readValue_number hs

theorem print_head (s : Setting) : ∀ c ∈ s.print.head?, ¬ isBlank c := by
  intro c hc hb
  cases s with
  | text t =>
    rw [print, writeText_head?, Option.mem_some_iff] at hc
    subst hc
    revert hb
    cases QuoteStyle.choose t.toList <;> decide
  | number n =>
    have hdigit : c.isDigit := Text.isDigit_of_mem_toDigits c (List.mem_of_mem_head? hc)
    simp only [isBlank, Bool.or_eq_true, beq_iff_eq] at hb
    rcases hb with rfl | rfl <;> exact absurd hdigit (by decide)

end Setting

namespace Group

variable {s : Setting} {g : Group} {gs : List Group}

def statements (g : Group) : List Statement :=
  .table [] g.name :: g.settings.map fun s => .pair ⟨[], s.1, s.2.node⟩

/-- The group can be read again after it has been printed. -/
structure Reads (g : Group) : Prop where
  name : IsBareKey g.name.toList
  distinct : (g.settings.map Prod.fst).Nodup
  settings : ∀ s ∈ g.settings, IsBareKey s.1.toList ∧ s.2.Fits

theorem header_cons (hname : IsBareKey name.toList)
    (h : many Statement.line rest = some (ss, left)) :
    many Statement.line (header name ++ rest) = some (some (.table [] name) :: ss, left) := by
  have hline := Statement.line_header hname rest
  rw [String.ofList_toList] at hline
  exact many_append hline (by simp [header]) h

theorem line_cons (hkey : IsBareKey key.toList) (hs : s.Fits)
    (h : many Statement.line rest = some (ss, left)) :
    many Statement.line (line key s.print ++ rest) =
      some (some (.pair ⟨[], key, s.node⟩) :: ss, left) := by
  have hline := Statement.line_pair hkey s.print_head (s.readValue_print hs rest)
  rw [String.ofList_toList] at hline
  exact many_append hline (by simp [line]) h

theorem many_print (hg : g.Reads) (h : many Statement.line rest = some (ss, left)) :
    many Statement.line (g.print ++ rest) = some (g.statements.map some ++ ss, left) := by
  have hsettings : many Statement.line
      ((g.settings.flatMap fun s => line s.1 s.2.print) ++ rest) =
        some ((g.settings.map fun s => some (.pair ⟨[], s.1, s.2.node⟩)) ++ ss, left) := by
    have hall := hg.settings
    generalize g.settings = settings at hall ⊢
    induction settings with
    | nil => exact h
    | cons x settings ih =>
      obtain ⟨⟨hkey, hfits⟩, hall⟩ := List.forall_mem_cons.mp hall
      have hline := line_cons hkey hfits (ih hall)
      rwa [← List.append_assoc] at hline
  have hgroup := header_cons hg.name hsettings
  rw [← List.append_assoc] at hgroup
  simpa [print, statements, Function.comp_def] using hgroup

theorem many_printAll (h : ∀ g ∈ gs, g.Reads) :
    ∃ lines, many Statement.line (printAll gs) = some (lines, []) ∧
      lines.filterMap id = gs.flatMap statements := by
  induction gs with
  | nil => exact ⟨[none], Statement.many_line_nil, rfl⟩
  | cons g gs ih =>
    obtain ⟨hg, hgs⟩ := List.forall_mem_cons.mp h
    cases gs with
    | nil =>
      have hgroup := many_print hg Statement.many_line_nil
      rw [List.append_nil] at hgroup
      exact ⟨_, hgroup, by simp [List.filterMap_map]⟩
    | cons g' gs =>
      obtain ⟨lines, hlines, hstatements⟩ := ih hgs
      have hempty : many Statement.line (['\n'] ++ printAll (g' :: gs)) =
          some (none :: lines, []) :=
        many_append Statement.line_empty (by simp) hlines
      refine ⟨_, many_print hg hempty, ?_⟩
      rw [List.flatMap_cons, ← hstatements]
      simp [List.filterMap_map]

theorem statements?_printAll (h : ∀ g ∈ gs, g.Reads) :
    statements? (printAll gs) = some (gs.flatMap statements) := by
  obtain ⟨lines, hlines, hstatements⟩ := many_printAll h
  have hhead : (printAll gs).head? ≠ some '\uFEFF' := by
    cases gs with
    | nil => simp [printAll]
    | cons g gs => cases gs <;> simp [printAll, print, header]
  rw [statements?_of_many hhead hlines, hstatements]

end Group

namespace Entries

variable {entries : Entries} {v w : Node}

theorem lookup_eq_none (h : name ∉ entries.map Prod.fst) : entries.lookup name = none :=
  List.lookup_eq_none_iff.mpr fun _ he => bne_iff_ne.mpr fun hn => h (hn ▸ List.mem_map_of_mem he)

theorem lookup_append_new (h : name ∉ entries.map Prod.fst) :
    (entries ++ [(name, v)]).lookup name = some v := by
  rw [List.lookup_append, lookup_eq_none h]
  simp

theorem put_new (h : name ∉ entries.map Prod.fst) :
    put name v entries = entries ++ [(name, v)] := by
  induction entries with
  | nil => rfl
  | cons e entries ih =>
    rw [List.map_cons, List.mem_cons, not_or] at h
    rw [put, if_neg fun he => h.1 he.symm, ih h.2, List.cons_append]

theorem put_append_new (h : name ∉ entries.map Prod.fst) :
    put name v (entries ++ [(name, w)]) = entries ++ [(name, v)] := by
  induction entries with
  | nil => simp [put]
  | cons e entries ih =>
    rw [List.map_cons, List.mem_cons, not_or] at h
    rw [List.cons_append, put, if_neg fun he => h.1 he.symm, ih h.2, List.cons_append]

end Entries

namespace Document

variable {d : Document} {entries inner : Entries} {settings : List (String × Setting)}
  {g : Group} {gs : List Group}

theorem addAll_append (xs ys : List Statement) (d : Document) :
    addAll (xs ++ ys) d = addAll xs d >>= addAll ys := by
  induction xs generalizing d with
  | nil => rfl
  | cons s xs ih =>
    simp only [List.cons_append, addAll, bind_assoc]
    exact bind_congr ih

theorem add_table (h : name ∉ d.entries.map Prod.fst) :
    d.add (.table [] name) = some ⟨d.entries ++ [(name, .table .header [])], [name]⟩ := by
  simp [add, Entries.openTable, Entries.alter, Entries.lookup_eq_none h, Entries.put_new h]

/-- A setting goes to the end of the table that was opened last. -/
theorem add_pair (hname : name ∉ entries.map Prod.fst) (hkey : key ∉ inner.map Prod.fst)
    (v : Node) :
    add ⟨entries ++ [(name, .table .header inner)], [name]⟩ (.pair ⟨[], key, v⟩) =
      some ⟨entries ++ [(name, .table .header (inner ++ [(key, v)]))], [name]⟩ := by
  have hlookup : (entries ++ [(name, Node.table .header inner)]).lookup name =
      some (.table .header inner) := Entries.lookup_append_new hname
  simp [add, Entries.insert, Entries.alter, hlookup, Entries.Walk.passes,
    Entries.lookup_eq_none hkey, Entries.put_new hkey, Entries.put_append_new hname]

theorem addAll_settings (inner : Entries) (hname : name ∉ entries.map Prod.fst)
    (hkeys : (inner.map Prod.fst ++ settings.map Prod.fst).Nodup) :
    addAll (settings.map fun s => Statement.pair ⟨[], s.1, s.2.node⟩)
        ⟨entries ++ [(name, .table .header inner)], [name]⟩ =
      some ⟨entries ++
        [(name, Node.table .header (inner ++ settings.map fun s => (s.1, s.2.node)))], [name]⟩ := by
  induction settings generalizing inner with
  | nil => simp [addAll]
  | cons x settings ih =>
    have hkey : x.1 ∉ inner.map Prod.fst := fun hm =>
      (List.nodup_append.mp hkeys).2.2 _ hm _ List.mem_cons_self rfl
    rw [List.map_cons, List.append_cons] at hkeys
    have hrest := ih (inner ++ [(x.1, x.2.node)]) (by simpa using hkeys)
    rw [List.map_cons, addAll, add_pair hname hkey]
    simpa using hrest

theorem addAll_group (hname : g.name ∉ d.entries.map Prod.fst)
    (hkeys : (g.settings.map Prod.fst).Nodup) :
    addAll g.statements d = some ⟨d.entries ++
      [(g.name, .table .header (g.settings.map fun s => (s.1, s.2.node)))], [g.name]⟩ := by
  rw [Group.statements, addAll, add_table hname]
  simpa using addAll_settings [] hname hkeys

theorem addAll_groups (hgs : ∀ g ∈ gs, (g.settings.map Prod.fst).Nodup)
    (hnames : (d.entries.map Prod.fst ++ gs.map Group.name).Nodup) :
    ∃ current, addAll (gs.flatMap Group.statements) d =
      some ⟨d.entries ++ gs.map fun g =>
        (g.name, .table .header (g.settings.map fun s => (s.1, s.2.node))), current⟩ := by
  induction gs generalizing d with
  | nil => exact ⟨d.current, by simp [addAll]⟩
  | cons g gs ih =>
    obtain ⟨hg, hgs⟩ := List.forall_mem_cons.mp hgs
    have hname : g.name ∉ d.entries.map Prod.fst := fun hm =>
      (List.nodup_append.mp hnames).2.2 _ hm _ List.mem_cons_self rfl
    rw [List.map_cons, List.append_cons] at hnames
    rw [List.flatMap_cons, addAll_append, addAll_group hname hg]
    obtain ⟨current, hrest⟩ := ih (d := ⟨d.entries ++ [(g.name, .table .header
      (g.settings.map fun s => (s.1, s.2.node)))], [g.name]⟩) hgs (by simpa using hnames)
    exact ⟨current, by simpa using hrest⟩

end Document

namespace Group

variable {g : Group} {gs : List Group} {t : Table}

def entry (g : Group) : String × Data :=
  (g.name, .table (g.settings.map fun s => (s.1, s.2.data)))

theorem map_of_mapM {α β : Type} {f : α → Option β} {g : β → α} {P : β → Prop}
    (hf : ∀ a b, f a = some b → g b = a ∧ P b) {xs : List α} {ys : List β}
    (h : xs.mapM f = some ys) : ys.map g = xs ∧ ∀ y ∈ ys, P y := by
  induction xs generalizing ys with
  | nil =>
    cases h
    exact ⟨rfl, nofun⟩
  | cons x xs ih =>
    rw [List.mapM_cons] at h
    obtain ⟨y, hy, h⟩ := Option.bind_eq_some_iff.mp h
    obtain ⟨zs, hzs, h⟩ := Option.bind_eq_some_iff.mp h
    cases h
    obtain ⟨hg, hp⟩ := hf x y hy
    obtain ⟨hmap, hall⟩ := ih hzs
    exact ⟨by rw [List.map_cons, hg, hmap], List.forall_mem_cons.mpr ⟨hp, hall⟩⟩

theorem entry_of_ofPair? {e : String × Data} (h : ofPair? e = some g) :
    g.entry = e ∧ ∀ s ∈ g.settings, s.2.Fits := by
  obtain ⟨name, d⟩ := e
  cases d with
  | table entries =>
    obtain ⟨settings, hsettings, hg⟩ := Option.bind_eq_some_iff.mp h
    cases hg
    have hentry : ∀ (e : String × Data) (s : String × Setting),
        (Setting.ofData? e.2).map (e.1, ·) = some s → (s.1, s.2.data) = e ∧ s.2.Fits := by
      intro e s hs
      obtain ⟨s, hd, rfl⟩ := Option.map_eq_some_iff.mp hs
      obtain ⟨hd, hfits⟩ := Setting.data_of_ofData? hd
      exact ⟨by rw [hd], hfits⟩
    obtain ⟨hmap, hall⟩ := map_of_mapM (g := fun s => (s.1, s.2.data)) (P := fun s => s.2.Fits)
      hentry hsettings
    exact ⟨by rw [entry, hmap], hall⟩
  | _ => cases h

theorem data_node (gs : List Group) :
    Entries.data (gs.map fun g =>
      (g.name, .table .header (g.settings.map fun s => (s.1, s.2.node)))) = gs.map entry := by
  have settings (l : List (String × Setting)) :
      Entries.data (l.map fun s => (s.1, s.2.node)) = l.map fun s => (s.1, s.2.data) := by
    induction l with
    | nil => rfl
    | cons s l ih =>
      rw [List.map_cons, Entries.data, ih, List.map_cons]
      cases s.2 <;> rfl
  induction gs with
  | nil => rfl
  | cons g gs ih => rw [List.map_cons, Entries.data, Node.data, settings, ih, List.map_cons, entry]

end Group

/-- What the plain library prints it reads as the same table. -/
theorem Library.plain_reads {t : Table} {text : String} (h : plain.print? t = some text) :
    plain.read? text = some t := by
  obtain ⟨gs, hgs, h⟩ := Option.bind_eq_some_iff.mp h
  obtain ⟨⟨hnames, hall⟩, htext⟩ := Option.ite_none_right_eq_some.mp h
  cases htext
  obtain ⟨hentries, hfits⟩ := Group.map_of_mapM (fun _ _ => Group.entry_of_ofPair?) hgs
  have hreads : ∀ g ∈ gs, g.Reads := fun g hg =>
    ⟨(hall g hg).1, (hall g hg).2.1, fun s hs => ⟨(hall g hg).2.2 s hs, hfits g hg s hs⟩⟩
  obtain ⟨current, hdocument⟩ := Document.addAll_groups (d := {})
    (fun g hg => (hreads g hg).distinct) (by simpa using hnames)
  have hparse : parse? (String.ofList (Group.printAll gs)) = some (gs.map fun g =>
      (g.name, .table .header (g.settings.map fun s => (s.1, s.2.node)))) := by
    simp [parse?, Group.statements?_printAll hreads, hdocument]
  change (parse? _).map Entries.data = some t
  rw [hparse, Option.map_some, Group.data_node, hentries]

/-- The plain library follows the standard that it reads by itself. -/
theorem Library.plain_follows :
    plain.Follows fun text t => plain.read? text = some t where
  prints _ := plain_reads
  reads {t _} _ h := ⟨t, h, .refl _⟩

end Stepwise.Toml
