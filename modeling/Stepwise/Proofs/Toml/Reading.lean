import Stepwise.Toml.Plain

namespace Stepwise.Toml
open Reader

namespace Reader

variable {α β : Type} {r : Reader α} {a : α} {cs rest left text : List Char} {p : Char → Bool}

@[simp]
theorem bind_apply (r : Reader α) (f : α → Reader β) (cs : List Char) :
    (r >>= f) cs = (r cs).bind fun x => f x.1 x.2 :=
  rfl

@[simp]
theorem pure_apply (a : α) (cs : List Char) : (pure a : Reader α) cs = some (a, cs) :=
  rfl

@[simp]
theorem map_apply (f : α → β) (r : Reader α) (cs : List Char) :
    (f <$> r) cs = (r cs).map fun x => (f x.1, x.2) := by
  change (r cs).bind (fun x => some (f x.1, x.2)) = _
  cases r cs <;> rfl

@[simp]
theorem orElse_apply (r s : Reader α) (cs : List Char) : (r <|> s) cs = (r cs).or (s cs) := by
  change (r cs <|> s cs) = _
  cases r cs <;> rfl

@[simp]
theorem failure_apply (cs : List Char) : (failure : Reader α) cs = none :=
  rfl

@[simp]
theorem lift_apply (o : Option α) (cs : List Char) :
    (liftM o : Reader α) cs = o.map fun a => (a, cs) := by
  cases o <;> rfl

theorem attempt_of_some (h : r cs = some (a, rest)) : attempt r cs = some (some a, rest) := by
  simp only [attempt, h]

theorem attempt_of_none (h : r cs = none) : attempt r cs = some (none, cs) := by
  simp only [attempt, h]

theorem many_of_none (h : r cs = none) : many r cs = some ([], cs) := by
  rw [many, h]

theorem many_append {as : List α} (h : r (text ++ rest) = some (a, rest)) (ht : text ≠ [])
    (hrest : many r rest = some (as, left)) : many r (text ++ rest) = some (a :: as, left) := by
  have hlt : rest.length < (text ++ rest).length := by
    simpa using List.length_pos_iff.mpr ht
  rw [many, h]
  simp only [hlt, if_true, hrest, Option.map_some]

theorem span_append (ht : ∀ c ∈ text, p c) (hrest : ∀ c ∈ rest.head?, ¬ p c) :
    span p (text ++ rest) = some (text, rest) := by
  have htake : rest.takeWhile p = [] := by
    cases rest with
    | nil => rfl
    | cons c cs => exact List.takeWhile_cons_of_neg (hrest c rfl)
  have hdrop : rest.dropWhile p = rest := by
    cases rest with
    | nil => rfl
    | cons c cs => exact List.dropWhile_cons_of_neg (hrest c rfl)
  rw [span, List.takeWhile_append_of_pos ht, List.dropWhile_append_of_pos ht, htake, hdrop,
    List.append_nil]

end Reader

variable {c : Char} {key cs rest text gap : List Char} {value : Node}

theorem blanks_append (ht : ∀ c ∈ text, isBlank c) (hrest : ∀ c ∈ rest.head?, ¬ isBlank c) :
    blanks (text ++ rest) = some ((), rest) := by
  simp only [blanks, bind_apply, span_append ht hrest, Option.bind_some, pure_apply]

theorem blanks_of_head (h : ∀ c ∈ cs.head?, ¬ isBlank c) : blanks cs = some ((), cs) := by
  have hnil : ∀ c ∈ ([] : List Char), isBlank c := List.forall_mem_nil _
  exact blanks_append hnil h

theorem lineEnd_newline : lineEnd ('\n' :: rest) = some ((), rest) := by
  have hcomment : comment ('\n' :: rest) = none := rfl
  have hblanks : blanks ('\n' :: rest) = some ((), '\n' :: rest) := rfl
  simp only [lineEnd, bind_apply, hblanks, Option.bind_some, attempt_of_none hcomment,
    orElse_apply]
  rfl

theorem IsBareKey.head {key : List Char} (h : IsBareKey key) (cs : List Char) :
    ∀ c ∈ (key ++ cs).head?, isBareCharacter c := by
  obtain ⟨hne, hall⟩ := h
  match key with
  | [] => exact absurd rfl hne
  | d :: key =>
    intro c hc
    cases hc
    exact hall d List.mem_cons_self

theorem IsBareKey.exactly_eq_none (h : IsBareKey key) (hc : ¬ isBareCharacter c)
    (more cs : List Char) : exactly (c :: more) (key ++ cs) = none := by
  have hhead := h.head cs
  match hkey : key ++ cs with
  | [] => rfl
  | d :: tail =>
    have hne : c ≠ d := by
      intro he
      subst he
      exact hc (hhead c (by rw [hkey]; rfl))
    exact if_neg hne

theorem not_isBlank_of_isBareCharacter (h : isBareCharacter c) : ¬ isBlank c := by
  intro hb
  simp only [isBlank, Bool.or_eq_true, beq_iff_eq] at hb
  rcases hb with rfl | rfl <;> exact absurd h (by decide)

theorem readLine_of_head (h : ∀ c ∈ cs.head?, isBareCharacter c) : readLine cs = none := by
  unfold readLine
  split
  · exact absurd (h _ rfl) (by decide)
  · exact absurd (h _ rfl) (by decide)
  · rfl

theorem bareKey_append (hkey : IsBareKey key) (hrest : ∀ c ∈ rest.head?, ¬ isBareCharacter c) :
    bareKey (key ++ rest) = some (key, rest) := by
  simp only [bareKey, bind_apply, span_append hkey.2 hrest, Option.bind_some, hkey.1, if_false,
    pure_apply]

/-- A bare key with blanks behind it, in front of what is no part of keys. -/
theorem keyParts_append (gap : List Char) (hkey : IsBareKey key) (hgap : ∀ c ∈ gap, isBlank c)
    (hc : ¬ isBlank c ∧ ¬ isBareCharacter c ∧ c ≠ '.') :
    keyParts (key ++ (gap ++ c :: rest)) = some ([String.ofList key], c :: rest) := by
  have hhead := hkey.head (gap ++ c :: rest)
  have hfirst : blanks (key ++ (gap ++ c :: rest)) = some ((), key ++ (gap ++ c :: rest)) :=
    blanks_of_head fun d hd => not_isBlank_of_isBareCharacter (hhead d hd)
  have hbare : bareKey (key ++ (gap ++ c :: rest)) = some (key, gap ++ c :: rest) := by
    refine bareKey_append hkey fun d hd hb => ?_
    match gap with
    | [] =>
      cases hd
      exact hc.2.1 hb
    | e :: gap =>
      cases hd
      exact not_isBlank_of_isBareCharacter hb (hgap d List.mem_cons_self)
  have hlast : blanks (gap ++ c :: rest) = some ((), c :: rest) := by
    refine blanks_append hgap fun d hd => ?_
    cases hd
    exact hc.1
  have hdot : exactly ['.'] (c :: rest) = none := if_neg hc.2.2.symm
  simp only [keyParts, separated, bind_apply, hfirst, Option.bind_some, orElse_apply,
    readLine_of_head hhead, Option.none_or, hbare, hlast, pure_apply]
  rw [many_of_none]
  · rfl
  · simp only [bind_apply, hdot, Option.bind_none]

namespace Statement

theorem line_of_read {cs : List Char} {s : Statement} (hb : ∀ c ∈ cs.head?, ¬ isBlank c)
    (h : read cs = some (s, '\n' :: rest)) : line cs = some (some s, rest) := by
  simp only [line, bind_apply, blanks_of_head hb, Option.bind_some, attempt_of_some h,
    lineEnd_newline, pure_apply]

theorem header_eq_none {opening : List Char} (h : exactly opening cs = none)
    (closing : List Char) :
    header opening closing cs = none := by
  simp only [header, bind_apply, h, Option.bind_none]

theorem line_header (hkey : IsBareKey key) (rest : List Char) :
    line ('[' :: key ++ [']', '\n'] ++ rest) =
      some (some (.table [] (String.ofList key)), rest) := by
  have hdouble : exactly ['[', '['] ('[' :: (key ++ ']' :: '\n' :: rest)) = none :=
    hkey.exactly_eq_none (by decide) [] _
  have hsingle : exactly ['['] ('[' :: (key ++ ']' :: '\n' :: rest)) =
      some ((), key ++ ']' :: '\n' :: rest) := rfl
  have hparts : keyParts (key ++ ']' :: '\n' :: rest) =
      some ([String.ofList key], ']' :: '\n' :: rest) :=
    keyParts_append [] hkey (by simp) (by decide)
  have hclose : exactly [']'] (']' :: '\n' :: rest) = some ((), '\n' :: rest) := rfl
  have hread : read ('[' :: (key ++ ']' :: '\n' :: rest)) =
      some (.table [] (String.ofList key), '\n' :: rest) := by
    simp [read, header, hdouble, hsingle, hparts, hclose, splitLast]
  simpa using line_of_read (by simp [isBlank]) hread

/-- A key, an equals sign with a blank on either side, and the value to the end of the line. -/
theorem line_pair (hkey : IsBareKey key) (htext : ∀ c ∈ text.head?, ¬ isBlank c)
    (hvalue : readValue (text ++ '\n' :: rest) = some (value, '\n' :: rest)) :
    line (key ++ [' ', '=', ' '] ++ text ++ ['\n'] ++ rest) =
      some (some (.pair ⟨[], String.ofList key, value⟩), rest) := by
  have hhead := hkey.head (' ' :: '=' :: ' ' :: (text ++ '\n' :: rest))
  have hbracket {more closing : List Char} :=
    header_eq_none
      (hkey.exactly_eq_none (c := '[') (by decide) more
        (' ' :: '=' :: ' ' :: (text ++ '\n' :: rest))) closing
  have hparts : keyParts (key ++ ' ' :: '=' :: ' ' :: (text ++ '\n' :: rest)) =
      some ([String.ofList key], '=' :: ' ' :: (text ++ '\n' :: rest)) :=
    keyParts_append [' '] hkey (by simp [isBlank]) (by decide)
  have hequals : exactly ['='] ('=' :: ' ' :: (text ++ '\n' :: rest)) =
      some ((), ' ' :: (text ++ '\n' :: rest)) := rfl
  have hblank : blanks (' ' :: (text ++ '\n' :: rest)) = some ((), text ++ '\n' :: rest) := by
    have hgap : ∀ c ∈ [' '], isBlank c := by simp [isBlank]
    refine blanks_append hgap fun c hc => ?_
    match text with
    | [] =>
      cases hc
      decide
    | d :: text => exact htext c hc
  have hread : read (key ++ ' ' :: '=' :: ' ' :: (text ++ '\n' :: rest)) =
      some (.pair ⟨[], String.ofList key, value⟩, '\n' :: rest) := by
    simp [read, hbracket, Toml.pair, hparts, hequals, hblank, hvalue, splitLast]
  have hb : ∀ c ∈ (key ++ ' ' :: '=' :: ' ' :: (text ++ '\n' :: rest)).head?, ¬ isBlank c :=
    fun c hc => not_isBlank_of_isBareCharacter (hhead c hc)
  simpa using line_of_read hb hread

/-- A line end, or the end of the text, is not the start of a statement. -/
theorem read_eq_none (h : cs = [] ∨ ∃ rest, cs = '\n' :: rest) : read cs = none := by
  have hopen {more closing : List Char} : header ('[' :: more) closing cs = none :=
    header_eq_none (by rcases h with rfl | ⟨rest, rfl⟩ <;> rfl) closing
  have hb : blanks cs = some ((), cs) := by rcases h with rfl | ⟨rest, rfl⟩ <;> rfl
  have hline : readLine cs = none := by rcases h with rfl | ⟨rest, rfl⟩ <;> rfl
  have hbare : bareKey cs = none := by rcases h with rfl | ⟨rest, rfl⟩ <;> rfl
  have hparts : keyParts cs = none := by
    simp only [keyParts, separated, bind_apply, hb, Option.bind_some, orElse_apply, hline, hbare,
      Option.or_none, Option.bind_none]
  simp [read, hopen, Toml.pair, hparts]

theorem line_empty : line ('\n' :: rest) = some (none, rest) := by
  have hb : blanks ('\n' :: rest) = some ((), '\n' :: rest) := rfl
  have hread : read ('\n' :: rest) = none := read_eq_none (.inr ⟨rest, rfl⟩)
  simp only [line, bind_apply, hb, Option.bind_some, attempt_of_none hread, lineEnd_newline,
    pure_apply]

/-- At the end of the text there is one more line, an empty one. -/
theorem many_line_nil : many line [] = some ([none], []) := by
  have hb : blanks [] = some ((), []) := rfl
  have hread : read [] = none := read_eq_none (.inl rfl)
  have hend : lineEnd [] = some ((), []) := rfl
  have hline : line [] = some (none, []) := by
    simp only [line, bind_apply, hb, Option.bind_some, attempt_of_none hread, hend, pure_apply]
  rw [many, hline]
  rfl

end Statement

theorem statements?_of_many {lines : List (Option Statement)} (hcs : cs.head? ≠ some '\uFEFF')
    (h : many Statement.line cs = some (lines, [])) :
    statements? cs = some (lines.filterMap id) := by
  match cs with
  | [] => simp [statements?, h]
  | c :: cs =>
    have hc : c ≠ '\uFEFF' := by simpa using hcs
    simp [statements?, hc, h]

end Stepwise.Toml
