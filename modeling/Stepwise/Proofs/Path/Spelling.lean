import Mathlib.Data.List.Basic
import Stepwise.Path

namespace Stepwise.Path

variable {cs : List Char} {s : List Char} {l : List (List Char)}

theorem exists_segments_cons {c : Char} (hc : c ≠ '/') (cs : List Char) :
    ∃ s ss, segments cs = s :: ss ∧ segments (c :: cs) = (c :: s) :: ss := by
  cases hs : segments cs with
  | nil =>
    unfold segments at hs
    split at hs
    · cases hs
    · cases hs
    · split at hs <;> cases hs
  | cons s ss =>
    refine ⟨s, ss, rfl, ?_⟩
    rw [segments.eq_3 c cs hc, hs]

/-- A separator separates. -/
theorem segments_append (a b : List Char) : segments (a ++ '/' :: b) = segments a ++ segments b := by
  induction a with
  | nil => rfl
  | cons c rest ih =>
    by_cases hc : c = '/'
    · subst hc
      simp only [List.cons_append, segments, ih]
    · obtain ⟨s, ss, hs, hcs⟩ := exists_segments_cons hc rest
      obtain ⟨s', ss', hs', hcs'⟩ := exists_segments_cons hc (rest ++ '/' :: b)
      rw [ih, hs, List.cons_append] at hs'
      obtain ⟨rfl, rfl⟩ := List.cons.inj hs'
      rw [List.cons_append, hcs, hcs', List.cons_append]

theorem segments_of_not_mem (h : '/' ∉ s) : segments s = [s] := by
  induction s with
  | nil => rfl
  | cons c rest ih =>
    rw [List.mem_cons, not_or] at h
    obtain ⟨s, ss, hs, hcs⟩ := exists_segments_cons (Ne.symm h.1) rest
    rw [ih h.2] at hs
    obtain ⟨rfl, rfl⟩ := List.cons.inj hs
    exact hcs

theorem not_mem_of_mem_segments (h : s ∈ segments cs) : '/' ∉ s := by
  induction cs generalizing s with
  | nil =>
    rw [List.mem_singleton.mp h]
    exact List.not_mem_nil
  | cons c rest ih =>
    by_cases hc : c = '/'
    · subst hc
      rcases List.mem_cons.mp h with rfl | h
      · exact List.not_mem_nil
      · exact ih h
    · obtain ⟨t, ts, ht, hct⟩ := exists_segments_cons hc rest
      rw [ht] at ih
      rw [hct] at h
      rcases List.mem_cons.mp h with rfl | h
      · rw [List.mem_cons, not_or]
        exact ⟨Ne.symm hc, ih List.mem_cons_self⟩
      · exact ih (List.mem_cons_of_mem t h)

/-- Joined pieces are told apart again. -/
theorem segments_joinSegments (hl : l ≠ []) (h : ∀ s ∈ l, '/' ∉ s) :
    segments (joinSegments l) = l := by
  induction l with
  | nil => exact absurd rfl hl
  | cons s rest ih =>
    have hs := segments_of_not_mem (h s List.mem_cons_self)
    cases rest with
    | nil => exact hs
    | cons t ts =>
      rw [joinSegments, segments_append, hs, ih (List.cons_ne_nil _ _)]
      · rfl
      · exact fun u hu => h u (List.mem_cons_of_mem s hu)
      · exact List.cons_ne_nil _ _

/-- The components that pieces stand for. -/
def named (l : List (List Char)) : List Component :=
  (l.filter (!isFiller ·)).map .ofSegment

theorem named_append (l l' : List (List Char)) : named (l ++ l') = named l ++ named l' := by
  rw [named, List.filter_append, List.map_append]
  rfl

theorem named_dropWhile (l : List (List Char)) : named (l.dropWhile isFiller) = named l := by
  induction l with
  | nil => rfl
  | cons s rest ih =>
    cases hs : isFiller s with
    | true => rw [List.dropWhile_cons_of_pos hs, ih, named, named, List.filter_cons_of_neg (by simp [hs])]
    | false => rw [List.dropWhile_cons_of_neg (by simp [hs])]

theorem named_reverse (l : List (List Char)) : named l.reverse = (named l).reverse := by
  rw [named, List.filter_reverse, List.map_reverse]
  rfl

theorem named_trimEnd (l : List (List Char)) : named (trimEnd l) = named l := by
  rw [trimEnd, named_reverse, named_dropWhile, named_reverse, List.reverse_reverse]

/-- What the front of a path stands for besides its name: the root, or `.`. -/
def lead (l : List (List Char)) : List Component :=
  if l.head? = some [] ∧ l.length ≠ 1 then [.root]
  else if l.head? = some ['.'] then [.here]
  else []

theorem exists_segments (cs : List Char) : ∃ s ss, segments cs = s :: ss := by
  cases hs : segments cs with
  | nil =>
    have hj := segments_append cs []
    rw [hs] at hj
    cases cs with
    | nil => cases hs
    | cons c rest =>
      by_cases hc : c = '/'
      · subst hc
        cases hs
      · obtain ⟨t, ts, -, ht⟩ := exists_segments_cons hc rest
        cases hs.symm.trans ht
  | cons s ss => exact ⟨s, ss, rfl⟩

theorem components_eq (p : Path) :
    p.components = lead (segments p.text.toList) ++ named (segments p.text.toList) := by
  unfold components spelling
  generalize p.text.toList = cs
  unfold Spelling.ofChars
  split
  · next rest =>
    obtain ⟨s, ss, hs⟩ := exists_segments rest
    simp [segments, Spelling.components, lead, named, hs, isFiller]
  · next hroot =>
    split
    · next rest hs => simp [Spelling.components, lead, named, hs, isFiller]
    · next hhere =>
      have hlead : lead (segments cs) = [] := by
        rw [lead, if_neg, if_neg]
        · intro hh
          obtain ⟨ss, hs⟩ := List.head?_eq_some_iff.mp hh
          exact hhere ss hs
        · rintro ⟨hh, hl⟩
          cases cs with
          | nil => exact hl rfl
          | cons c rest =>
            have hc : c ≠ '/' := fun hc => hroot rest (hc ▸ rfl)
            obtain ⟨t, ts, -, ht⟩ := exists_segments_cons hc rest
            rw [ht] at hh
            cases hh
      rw [hlead]
      rfl

theorem isAbsolute_iff {p : Path} : p.isAbsolute = true ↔ ∃ cs, p.text.toList = '/' :: cs := by
  rw [isAbsolute, spelling]
  constructor
  · intro h
    unfold Spelling.ofChars at h
    split at h
    · next cs hcs => exact ⟨cs, hcs⟩
    · split at h <;> cases h
  · rintro ⟨cs, h⟩
    rw [h]
    rfl

/-- What follows a path that is not empty does not count for its front. -/
theorem lead_append (hl : l ≠ [[]]) (hn : l ≠ []) (l' : List (List Char)) :
    lead (l ++ l') = lead l := by
  cases l with
  | nil => exact absurd rfl hn
  | cons s ss =>
    cases ss with
    | nil =>
      have hs : s ≠ [] := fun hs => hl (hs ▸ rfl)
      simp [lead, hs]
    | cons t ts => simp [lead]

theorem segments_ne {cs : List Char} (h : cs ≠ []) : segments cs ≠ [[]] := by
  cases cs with
  | nil => exact absurd rfl h
  | cons c rest =>
    by_cases hc : c = '/'
    · subst hc
      obtain ⟨s, ss, hs⟩ := exists_segments rest
      rw [segments, hs]
      simp
    · obtain ⟨t, ts, -, ht⟩ := exists_segments_cons hc rest
      rw [ht]
      simp

/-- A text behind a path and a separator adds its components. -/
theorem components_below {base : Path} (h : base.text ≠ "") {text : String}
    (ht : text.toList = base.text.toList ++ '/' :: cs) :
    components ⟨text⟩ = base.components ++ named (segments cs) := by
  have hb : base.text.toList ≠ [] := fun hn => h (String.toList_eq_nil_iff.mp hn)
  obtain ⟨s, ss, hs⟩ := exists_segments base.text.toList
  have hn : segments base.text.toList ≠ [] := hs ▸ List.cons_ne_nil s ss
  rw [components_eq, components_eq base, ht, segments_append, named_append,
    lead_append (segments_ne hb) hn, List.append_assoc]

/-- The path seen from a directory adds its components to those of the directory. -/
theorem components_join {base p : Path} (hb : base.text ≠ "") (hp : p.isAbsolute = false) :
    (base.join p).components = base.components ++ named (segments p.text.toList) := by
  unfold join
  rw [if_neg (by simp [hp])]
  split
  · next hend =>
    -- The directory is spelled with a separator at its end.
    have hlast := hend.resolve_left hb
    obtain ⟨front, hf⟩ := List.getLast?_eq_some_iff.mp hlast
    obtain ⟨t, ts, ht⟩ := exists_segments p.text.toList
    obtain ⟨s, ss, hs⟩ := exists_segments front
    have hj : (base.text ++ p.text).toList = front ++ '/' :: p.text.toList := by simp [hf]
    rw [components_eq, components_eq base, hj, hf, segments_append, segments_append, named_append,
      named_append, List.append_assoc]
    have hlead : lead (segments front ++ segments p.text.toList) =
        lead (segments front ++ segments []) := by
      rw [hs, ht]
      simp [lead, segments]
    have hnil : named (segments []) = [] := rfl
    rw [hlead, hnil, List.append_nil]
  · exact components_below hb (by simp)

theorem expandHome_of_head {p : Path} (home : Path)
    (h : (segments p.text.toList).head? ≠ some ['~']) : home.expandHome p = p := by
  unfold expandHome
  split
  · next rest hs =>
    unfold spelling Spelling.ofChars at hs
    split at hs
    · cases hs
    · split at hs
      · cases hs
      · have hsegments := (Spelling.mk.inj hs).2.2
        exact absurd (by rw [hsegments]; rfl) h
  · rfl

theorem named_segments_joinSegments (h : ∀ s ∈ l, '/' ∉ s) :
    named (segments (joinSegments l)) = named l := by
  cases l with
  | nil => rfl
  | cons s rest => rw [segments_joinSegments (List.cons_ne_nil s rest) h]

theorem prefix_trimEnd (l : List (List Char)) : trimEnd l <+: l := by
  have h := List.reverse_prefix.mpr (List.dropWhile_suffix isFiller (l := l.reverse))
  rwa [List.reverse_reverse] at h

/-- Pieces that do not start with a filler are not joined to an absolute path. -/
theorem isAbsolute_joinSegments (h : ∀ s ∈ l, '/' ∉ s) (hh : ∀ s, l.head? = some s → s ≠ []) :
    (⟨String.ofList (joinSegments l)⟩ : Path).isAbsolute = false := by
  rw [Bool.eq_false_iff, ne_eq, isAbsolute_iff]
  rintro ⟨cs, hcs⟩
  rw [String.toList_ofList] at hcs
  cases l with
  | nil => cases hcs
  | cons s rest =>
    cases s with
    | nil => exact hh [] rfl rfl
    | cons c t =>
      have hc : c = '/' := by
        cases rest <;>
        · cases hcs
          rfl
      exact h _ List.mem_cons_self (hc ▸ List.mem_cons_self)

/-- What follows a leading `~` is added to the components of the home directory. -/
theorem components_expandHome_of_segments {home p : Path} (h : home.text ≠ "")
    {body : List (List Char)} (hp : segments p.text.toList = ['~'] :: body) :
    (home.expandHome p).components = home.components ++ named body := by
  have hs : p.spelling = ⟨false, false, ['~'] :: body⟩ := by
    unfold spelling Spelling.ofChars
    split
    · next cs hcs =>
      rw [hcs] at hp
      cases hp
    · rw [hp]
      rfl
  have hpieces : ∀ s ∈ trimEnd (body.dropWhile isFiller), '/' ∉ s := by
    intro s hm
    have hd := (List.dropWhile_suffix isFiller).subset ((prefix_trimEnd _).subset hm)
    exact not_mem_of_mem_segments (hp ▸ List.mem_cons_of_mem _ hd)
  have hhead : ∀ s, (trimEnd (body.dropWhile isFiller)).head? = some s → s ≠ [] := by
    rintro _ hh rfl
    obtain ⟨t, ht⟩ := List.head?_eq_some_iff.mp hh
    obtain ⟨u, hu⟩ := prefix_trimEnd (body.dropWhile isFiller)
    have hn := List.head?_dropWhile_not isFiller body
    rw [← hu, ht] at hn
    cases hn
  have he : home.expandHome p =
      home.join ⟨.ofList (joinSegments (trimEnd (body.dropWhile isFiller)))⟩ := by
    simp only [expandHome, hs]
  rw [he, components_join h (isAbsolute_joinSegments hpieces hhead), String.toList_ofList,
    named_segments_joinSegments hpieces, named_trimEnd, named_dropWhile]

theorem components_expandHome {home : Path} (h : home.text ≠ "") (rest : String) :
    (home.expandHome ⟨"~/" ++ rest⟩).components =
      home.components ++ named (segments rest.toList) :=
  components_expandHome_of_segments h (by rw [String.toList_append]; rfl)

/-- A directory that a leading `~` can stand for: its name is not empty and does not start with `~`
itself. -/
structure IsHome (home : Path) : Prop where
  named : home.text ≠ ""
  expanded : (segments home.text.toList).head? ≠ some ['~']

theorem IsHome.of_isAbsolute {home : Path} (h : home.isAbsolute = true) : home.IsHome := by
  obtain ⟨cs, hcs⟩ := isAbsolute_iff.mp h
  refine ⟨fun hn => ?_, ?_⟩
  · simp [hn] at hcs
  · rw [hcs]
    simp [segments]

/-- A file below the home directory is one file, spelled with `~` or with the directory, with one
separator or with two. -/
theorem IsHome.same_below {home : Path} (h : home.IsHome) (rest : String) :
    (home.expandHome ⟨"~/" ++ rest⟩).same (home.expandHome ⟨home.text ++ "/" ++ rest⟩) = true ∧
      (home.expandHome ⟨"~/" ++ rest⟩).same (home.expandHome ⟨home.text ++ "//" ++ rest⟩) =
        true := by
  have below (text : String) (cs : List Char) (ht : text.toList = home.text.toList ++ '/' :: cs)
      (hn : Path.named (segments cs) = Path.named (segments rest.toList)) :
      (home.expandHome ⟨"~/" ++ rest⟩).same (home.expandHome ⟨text⟩) = true := by
    have hhead : (segments text.toList).head? ≠ some ['~'] := by
      obtain ⟨s, ss, hs⟩ := exists_segments home.text.toList
      have he := h.expanded
      rw [hs] at he
      rw [ht, segments_append, hs]
      exact he
    rw [same_iff, components_expandHome h.named, expandHome_of_head (p := ⟨text⟩) home hhead,
      components_below h.named ht, hn]
  exact ⟨below _ rest.toList (by simp) rfl, below _ ('/' :: rest.toList) (by simp) rfl⟩

/-- The path starts at the home directory. -/
def StartsAtHome (p : Path) : Prop :=
  (segments p.text.toList).head? = some ['~']

/-- The first component of a path is spelled by its first piece. -/
theorem head?_components {p : Path} (hp : p.text ≠ "") {s : List Char}
    (hs : (segments p.text.toList).head? = some s) :
    p.components.head? = some
      (if s = [] then .root else if s = ['.'] then .here else .ofSegment s) := by
  have hne := segments_ne fun hn => hp (String.toList_eq_nil_iff.mp hn)
  obtain ⟨ss, hss⟩ := List.head?_eq_some_iff.mp hs
  rw [hss] at hne
  rw [components_eq, hss, lead]
  by_cases hroot : s = []
  · subst hroot
    have hl : ss ≠ [] := fun hn => hne (hn ▸ rfl)
    simp [hl]
  · by_cases hhere : s = ['.']
    · subst hhere
      simp
    · have hf : isFiller s = false := by simp [isFiller, hroot, hhere]
      simp [hroot, hhere, named, hf]

/-- A path names the same file whether a leading `~` is expanded or not only if there is none. -/
theorem IsHome.same_expandHome_iff {home : Path} (h : home.IsHome) (p : Path) :
    (home.expandHome p).same p = true ↔ ¬ p.StartsAtHome := by
  constructor
  · intro hsame hp
    obtain ⟨body, hbody⟩ := List.head?_eq_some_iff.mp hp
    rw [same_iff, components_expandHome_of_segments h.named hbody] at hsame
    obtain ⟨s, ss, hs⟩ := exists_segments home.text.toList
    have hhome := head?_components h.named (by rw [hs]; rfl)
    have hne : s ≠ ['~'] := by
      rintro rfl
      exact h.expanded (by rw [hs]; rfl)
    have hhead := congrArg List.head? hsame
    have hp : p.text ≠ "" := by
      intro hn
      simp [hn, segments] at hbody
    rw [List.head?_append, hhome, head?_components hp (by rw [hbody]; rfl)] at hhead
    simp only [Option.some_or, Option.some.injEq, Component.ofSegment] at hhead
    grind
  · intro hp
    rw [expandHome_of_head home hp]
    exact same_self p

section

variable {p q r : Path}

theorem Component.key_injective : Function.Injective Component.key := by
  intro c d h
  cases c with
  | name cs =>
    cases d with
    | name ds =>
      have hinj : Function.Injective Char.toNat := fun a b hab => Char.toNat_inj.mp hab
      rw [hinj.list_map (List.cons.inj h).2]
    | root | here | up => simp [key] at h
  | root | here | up => cases d <;> first | rfl | cases h

theorem precedes_trans (h : p.precedes q = true) (h' : q.precedes r = true) :
    p.precedes r = true :=
  Std.TransCmp.isLE_trans h h'

theorem precedes_total (p q : Path) : (p.precedes q || q.precedes p) = true := by
  have hswap : compare (q.components.map Component.key) (p.components.map Component.key) =
      (compare (p.components.map Component.key) (q.components.map Component.key)).swap :=
    Std.OrientedCmp.eq_swap
  rw [precedes, precedes, hswap]
  cases compare (p.components.map Component.key) (q.components.map Component.key) <;> rfl

/-- Paths that precede each other differ in their spelling only. -/
theorem same_of_precedes (h : p.precedes q = true) (h' : q.precedes p = true) :
    p.same q = true := by
  have heq := Std.OrientedCmp.isLE_antisymm h h'
  exact same_iff.mpr (Component.key_injective.list_map (Std.LawfulEqCmp.eq_of_compare heq))

end

end Stepwise.Path

/-- Wherever the home directory is, a path from the root stays as it is. -/
theorem Stepwise.Home.expandHome_of_isAbsolute (home : Home) {p : Path}
    (h : p.isAbsolute = true) : home.expandHome p = p := by
  cases home with
  | «at» directory =>
    obtain ⟨cs, hcs⟩ := Path.isAbsolute_iff.mp h
    refine Path.expandHome_of_head directory ?_
    rw [hcs]
    simp [Path.segments]
  | unknown => rfl
