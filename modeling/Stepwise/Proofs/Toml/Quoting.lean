import Stepwise.Toml.Quoted

namespace Stepwise.Toml
open Text

variable {c d q : Char} {cs rest : List Char}

/-- Characters that stand for one character between quotation marks. -/
inductive Stands (c : Char) : List Char → Prop
  | plain (hc : isPrintable c) (hquote : c ≠ '\x22') (hslash : c ≠ '\\') : Stands c [c]
  /-- What stands behind the backslash does not end the line. -/
  | escape {d : Char} {tail : List Char} (hd : ¬ isBlank d ∧ d ≠ '\n' ∧ d ≠ '\r')
      (hread : ∀ rest, readEscape (d :: tail ++ rest) = some (c, rest)) :
      Stands c ('\\' :: d :: tail)

theorem isPrintable_ne (h : isPrintable c) : c ≠ '\n' ∧ c ≠ '\r' := by
  constructor <;> intro hc <;> subst hc <;> exact absurd h (by decide)

theorem toNat_lt_of_not_isPrintable (h : ¬ isPrintable c) : c.toNat < 128 := by
  simp only [isPrintable, Bool.or_eq_true, Bool.and_eq_true, bne_iff_ne, decide_eq_true_eq,
    not_or, not_and, Decidable.not_not] at h
  by_cases hc : ' ' ≤ c
  · rw [h.2 hc]
    decide
  · have hlt : c.toNat < ' '.toNat := Nat.lt_of_not_le hc
    exact Nat.lt_trans hlt (by decide)

theorem ofBase?_hexDigits :
    ∀ n < 128, ofBase? 16 ['0', '0', hexDigit (n / 16), hexDigit (n % 16)] = some n := by
  decide +kernel

theorem readEscape_hexDigits (h : c.toNat < 128) :
    readEscape (['u', '0', '0', hexDigit (c.toNat / 16), hexDigit (c.toNat % 16)] ++ rest) =
      some (c, rest) := by
  have hvalid : c.toNat.isValidChar := .inl (by omega)
  simp [readEscape, escapedScalar, ofBase?_hexDigits c.toNat h, hvalid]

theorem readEscape_letter :
    ∀ e ∈ escapes, (¬ isBlank e.1 ∧ e.1 ≠ '\n' ∧ e.1 ≠ '\r') ∧
      ∀ rest, readEscape (e.1 :: rest) = some (e.2, rest) := by
  simp [escapes, readEscape]
  decide

theorem stands_escapeCharacter (c : Char) : Stands c (escapeCharacter c) := by
  unfold escapeCharacter
  split
  · next letter d heq =>
    have hd : d = c := by simpa using List.find?_some heq
    subst hd
    obtain ⟨hl, hread⟩ := readEscape_letter _ (List.mem_of_find?_eq_some heq)
    exact .escape hl hread
  · next hnone =>
    have hne : ∀ e ∈ escapes, e.2 ≠ c := by simpa using hnone
    split
    · next hc =>
      exact .plain hc (hne ('\x22', '\x22') (by decide)).symm (hne ('\\', '\\') (by decide)).symm
    · next hc =>
      exact .escape (by decide) fun rest => readEscape_hexDigits (toNat_lt_of_not_isPrintable hc)

theorem readBasic_stands {e : List Char} (h : Stands c e) :
    readBasic (e ++ rest) = .cons c (readBasic rest) := by
  cases h with
  | plain hc hquote hslash => simp [readBasic, hc]
  | escape _ hread => rw [List.cons_append, readBasic, hread]

theorem foldedLine?_eq_none (hd : ¬ isBlank d ∧ d ≠ '\n' ∧ d ≠ '\r') :
    foldedLine? (d :: cs) = none := by
  rw [foldedLine?, List.dropWhile_cons_of_neg hd.1]
  simp [newline, hd.2]

theorem readBasicLines_stands {e : List Char} (h : Stands c e) :
    readBasicLines (e ++ rest) = .cons c (readBasicLines rest) := by
  cases h with
  | plain hc hquote hslash =>
    have hreturn := (isPrintable_ne hc).2
    simp [readBasicLines, hc, hreturn]
  | escape hd hread =>
    rw [List.cons_append, List.cons_append, readBasicLines, foldedLine?_eq_none hd]
    rw [← List.cons_append, hread]

theorem readBasicLines_lineEnd :
    readBasicLines ('\n' :: rest) = .cons '\n' (readBasicLines rest) := by
  simp [readBasicLines]

theorem readLiteral_plain (hc : isPrintable c) (hquote : c ≠ '\x27') :
    readLiteral (c :: rest) = .cons c (readLiteral rest) := by
  simp [readLiteral, hc]

theorem readLiteralLines_plain (hc : c = '\n' ∨ isPrintable c) (hquote : c ≠ '\x27') :
    readLiteralLines (c :: rest) = .cons c (readLiteralLines rest) := by
  have hreturn : c ≠ '\r' := by
    intro h
    subst h
    exact absurd hc (by decide)
  simp [readLiteralLines, hc, hreturn]

theorem closing?_eq_none (h : c ≠ q) : closing? q (c :: cs) = none := by
  cases cs with
  | nil => rfl
  | cons d cs => simp [closing?, h]

theorem closing?_eq_none_of_second (h : d ≠ q) : closing? q (c :: d :: cs) = none := by
  simp [closing?, h]

theorem takeWhile_take (h : rest.head? ≠ some q) (n : Nat) :
    (rest.take n).takeWhile (· == q) = [] := by
  cases rest with
  | nil => simp
  | cons c cs => cases n <;> simp_all

theorem closing?_close (h : rest.head? ≠ some q) :
    closing? q (q :: q :: rest) = some ([], rest) := by
  simp [closing?, takeWhile_take h]

theorem closing?_one (h : rest.head? ≠ some q) :
    closing? q (q :: q :: q :: rest) = some ([q], rest) := by
  simp [closing?, takeWhile_take h]

theorem closing?_two :
    closing? q (q :: q :: q :: q :: rest) = some ([q, q], rest) := by
  simp [closing?]

theorem readBasic_write (cs rest : List Char) :
    readBasic (cs.flatMap escapeCharacter ++ '\x22' :: rest) = some (cs, rest) := by
  induction cs with
  | nil => simp [readBasic]
  | cons c cs ih =>
    rw [List.flatMap_cons, List.append_assoc, readBasic_stands (stands_escapeCharacter c), ih]
    rfl

theorem readLiteral_write (h : ∀ c ∈ cs, isPrintable c ∧ c ≠ '\x27') :
    readLiteral (cs ++ '\x27' :: rest) = some (cs, rest) := by
  induction cs with
  | nil => simp [readLiteral]
  | cons c cs ih =>
    obtain ⟨hc, hcs⟩ := List.forall_mem_cons.mp h
    rw [List.cons_append, readLiteral_plain hc.1 hc.2, ih hcs]
    rfl

theorem Stands.exists_cons {e : List Char} (h : Stands c e) :
    ∃ d tail, e = d :: tail ∧ d ≠ '\x22' ∧ d ≠ '\n' ∧ d ≠ '\r' := by
  cases h with
  | plain hc hquote => exact ⟨c, [], rfl, hquote, isPrintable_ne hc⟩
  | @escape d tail => exact ⟨'\\', d :: tail, rfl, by decide⟩

theorem escapeLines_stands {quotes : Nat} (hquote : c ≠ '\x22') (hend : c ≠ '\n') :
    escapeLines quotes (c :: cs) = escapeCharacter c ++ escapeLines 0 cs := by
  simp [escapeLines, hquote, hend]

theorem escapeLines_starts (h : c ≠ '\n') (cs : List Char) :
    ∃ d tail, escapeLines 0 (c :: cs) = d :: tail ∧ d ≠ '\n' ∧ d ≠ '\r' := by
  by_cases hquote : c = '\x22'
  · exact ⟨'\x22', escapeLines 1 cs, by simp [escapeLines, hquote], by decide⟩
  · obtain ⟨d, tail, he, _, hd⟩ := (stands_escapeCharacter c).exists_cons
    exact ⟨d, tail ++ escapeLines 0 cs, by rw [escapeLines_stands hquote h, he]; rfl, hd⟩

/-- The text after two quotation marks never goes on with a third. -/
theorem escapeLines_exists_cons {quotes : Nat} (h : c = '\x22' → 2 ≤ quotes) (cs : List Char) :
    ∃ d tail, escapeLines quotes (c :: cs) = d :: tail ∧ d ≠ '\x22' := by
  by_cases hquote : c = '\x22'
  · have hn : ¬ quotes < 2 := Nat.not_lt.mpr (h hquote)
    exact ⟨'\\', c :: escapeLines 0 cs, by simp [escapeLines, hquote, hn], by decide⟩
  · by_cases hend : c = '\n'
    · exact ⟨'\n', escapeLines 0 cs, by simp [escapeLines, hend], by decide⟩
    · obtain ⟨d, tail, he, hd, _⟩ := (stands_escapeCharacter c).exists_cons
      exact ⟨d, tail ++ escapeLines 0 cs, by rw [escapeLines_stands hquote hend, he]; rfl, hd⟩

/-- Behind a quotation mark of the text the text goes on, or it ends with the closing ones. -/
theorem closing?_escapeLines (hr : rest.head? ≠ some '\x22') (cs : List Char) (quotes : Nat) :
    closing? '\x22' (escapeLines (quotes + 1) cs ++ '\x22' :: '\x22' :: '\x22' :: rest) = none ∨
    closing? '\x22' (escapeLines (quotes + 1) cs ++ '\x22' :: '\x22' :: '\x22' :: rest) =
      some ('\x22' :: cs, rest) := by
  match cs with
  | [] => exact .inr (closing?_one hr)
  | c :: cs =>
    by_cases hc : c = '\x22' → 2 ≤ quotes + 1
    · obtain ⟨d, tail, he, hd⟩ := escapeLines_exists_cons hc cs
      rw [he]
      exact .inl (closing?_eq_none hd)
    · obtain ⟨rfl, hn⟩ := Classical.not_imp.mp hc
      obtain rfl : quotes = 0 := by omega
      have hfirst : escapeLines 1 ('\x22' :: cs) = '\x22' :: escapeLines 2 cs := rfl
      rw [hfirst]
      match cs with
      | [] => exact .inr closing?_two
      | c :: cs =>
        obtain ⟨d, tail, he, hd⟩ :=
          escapeLines_exists_cons (c := c) (fun _ => Nat.le_refl 2) cs
        rw [he]
        exact .inl (closing?_eq_none_of_second hd)

theorem readBasicLines_write (hr : rest.head? ≠ some '\x22') (cs : List Char) (quotes : Nat) :
    readBasicLines (escapeLines quotes cs ++ '\x22' :: '\x22' :: '\x22' :: rest) =
      some (cs, rest) := by
  induction cs generalizing quotes with
  | nil => simp [escapeLines, readBasicLines, closing?_close hr]
  | cons c cs ih =>
    by_cases hquote : c = '\x22'
    · subst hquote
      by_cases hn : quotes < 2
      · have he : escapeLines quotes ('\x22' :: cs) = '\x22' :: escapeLines (quotes + 1) cs := by
          simp [escapeLines, hn]
        rw [he, List.cons_append, readBasicLines]
        rcases closing?_escapeLines hr cs quotes with hc | hc
        · rw [hc, ih]
          rfl
        · rw [hc]
      · have he : escapeLines quotes ('\x22' :: cs) = ['\\', '\x22'] ++ escapeLines 0 cs := by
          simp [escapeLines, hn]
        have hs : Stands '\x22' ['\\', '\x22'] := stands_escapeCharacter '\x22'
        rw [he, List.append_assoc, readBasicLines_stands hs, ih]
        rfl
    · by_cases hend : c = '\n'
      · subst hend
        have he : escapeLines quotes ('\n' :: cs) = '\n' :: escapeLines 0 cs := by
          simp [escapeLines]
        rw [he, List.cons_append, readBasicLines_lineEnd, ih]
        rfl
      · rw [escapeLines_stands hquote hend, List.append_assoc,
          readBasicLines_stands (stands_escapeCharacter c), ih]
        rfl

theorem closing?_append (hr : rest.head? ≠ some q) (ht : hasTriple q (q :: cs) = false) :
    closing? q (cs ++ q :: q :: q :: rest) = none ∨
    closing? q (cs ++ q :: q :: q :: rest) = some (q :: cs, rest) := by
  match cs with
  | [] => exact .inr (closing?_one hr)
  | d :: cs =>
    by_cases hd : d = q
    · subst hd
      match cs with
      | [] => exact .inr closing?_two
      | e :: cs =>
        have he : e ≠ d := by
          intro he
          simp [hasTriple, he] at ht
        exact .inl (closing?_eq_none_of_second he)
    · exact .inl (closing?_eq_none hd)

theorem readLiteralLines_write (hr : rest.head? ≠ some '\x27')
    (h : ∀ c ∈ cs, c = '\n' ∨ isPrintable c) (ht : hasTriple '\x27' cs = false) :
    readLiteralLines (cs ++ '\x27' :: '\x27' :: '\x27' :: rest) = some (cs, rest) := by
  induction cs with
  | nil => simp [readLiteralLines, closing?_close hr]
  | cons c cs ih =>
    obtain ⟨hc, hcs⟩ := List.forall_mem_cons.mp h
    have hrest := ih hcs (Bool.or_eq_false_iff.mp ht).2
    by_cases hquote : c = '\x27'
    · subst hquote
      rw [List.cons_append, readLiteralLines]
      rcases closing?_append hr ht with hclose | hclose
      · rw [hclose, hrest]
        rfl
      · rw [hclose]
    · rw [List.cons_append, readLiteralLines_plain hc hquote, hrest]
      rfl

theorem skipNewline_eq_self (h : c ≠ '\n' ∧ c ≠ '\r') : skipNewline (c :: cs) = c :: cs := by
  simp [skipNewline, newline, h]

/-- The body of a text begins right behind its opening, whether or not that ends in a line end. -/
theorem skipNewline_opening {body : List Char}
    (h : '\n' ∉ cs → ∃ d tail, body = d :: tail ∧ d ≠ '\n' ∧ d ≠ '\r') :
    skipNewline ((if cs.contains '\n' then ['\n'] else []) ++ body) = body := by
  by_cases hc : '\n' ∈ cs
  · simp [hc, skipNewline, newline]
  · obtain ⟨d, tail, rfl, hd⟩ := h hc
    simp [hc, skipNewline_eq_self hd]

namespace QuoteStyle

/-- The character that the style's quotes are made of. -/
def quote : QuoteStyle → Char
  | .basic | .basicLines => '\x22'
  | .literal | .literalLines => '\x27'

/-- The style can spell the text; with escapes it can spell every text. -/
def Holds (style : QuoteStyle) (cs : List Char) : Prop :=
  style.suits cs ∨ style = .basic ∨ style = .basicLines

theorem holds_choose (cs : List Char) : (choose cs).Holds cs := by
  unfold choose
  split
  · next style h =>
    have hs : style.suits cs := List.find?_some (p := (suits · cs)) h
    exact .inl hs
  · split
    · exact .inr (.inr rfl)
    · exact .inr (.inl rfl)

theorem Holds.of_literal (h : Holds .literal cs) :
    ∀ c ∈ cs, isPrintable c ∧ c ≠ '\x27' := by
  intro c hc
  have hs : suits .literal cs := by simpa [Holds] using h
  simp only [suits, Bool.and_eq_true, Bool.not_eq_true', List.any_eq_false, needsEscape,
    Bool.or_eq_true, beq_iff_eq, bne_iff_ne, not_or] at hs
  obtain ⟨hescape, hplain⟩ := hs
  have hp := hescape c hc
  have hn := hplain c hc
  simp_all

theorem Holds.of_literalLines (h : Holds .literalLines cs) :
    (∀ c ∈ cs, c = '\n' ∨ isPrintable c) ∧ hasTriple '\x27' cs = false := by
  have hs : suits .literalLines cs := by simpa [Holds] using h
  simp only [suits, Bool.and_eq_true, Bool.not_eq_true', List.any_eq_false, needsEscape,
    bne_iff_ne] at hs
  refine ⟨fun c hc => ?_, hs.2⟩
  have hp := hs.1 c hc
  by_cases hend : c = '\n'
  · exact .inl hend
  · simp_all

end QuoteStyle

theorem readText_basic (h : ∀ tail, cs ≠ '\x22' :: '\x22' :: tail) :
    readText ('\x22' :: cs) = readBasic cs := by
  simp [readText, readLine, h]

theorem readText_literal (h : ∀ tail, cs ≠ '\x27' :: '\x27' :: tail) :
    readText ('\x27' :: cs) = readLiteral cs := by
  simp [readText, readLine, h]

/-- In front of anything but one more of its quotes, a text is read back as it was written. -/
theorem readText_write {style : QuoteStyle} (hs : style.Holds cs)
    (hr : rest.head? ≠ some style.quote) :
    readText (style.write cs ++ rest) = some (cs, rest) := by
  cases style with
  | basic =>
    have hread := readBasic_write cs rest
    have hshape :
        ∀ tail, cs.flatMap escapeCharacter ++ '\x22' :: rest ≠ '\x22' :: '\x22' :: tail := by
      intro tail he
      cases cs with
      | nil => simp_all [QuoteStyle.quote]
      | cons c cs =>
        obtain ⟨d, tail', hd, hne, _⟩ := (stands_escapeCharacter c).exists_cons
        simp [hd, hne] at he
    simpa [QuoteStyle.write, QuoteStyle.opening, QuoteStyle.body, QuoteStyle.quotes,
      readText_basic hshape] using hread
  | literal =>
    have hplain := hs.of_literal
    have hshape : ∀ tail, cs ++ '\x27' :: rest ≠ '\x27' :: '\x27' :: tail := by
      intro tail he
      cases cs with
      | nil => simp_all [QuoteStyle.quote]
      | cons c cs => simp_all
    simpa [QuoteStyle.write, QuoteStyle.opening, QuoteStyle.body, QuoteStyle.quotes,
      readText_literal hshape] using readLiteral_write hplain
  | basicLines =>
    have hbody : '\n' ∉ cs →
        ∃ d tail, escapeLines 0 cs ++ '\x22' :: '\x22' :: '\x22' :: rest = d :: tail ∧
          d ≠ '\n' ∧ d ≠ '\r' := by
      intro hn
      cases cs with
      | nil => exact ⟨'\x22', _, rfl, by decide⟩
      | cons c cs =>
        have hc : c ≠ '\n' := fun h => hn (h ▸ List.mem_cons_self)
        obtain ⟨d, tail, he, hd⟩ := escapeLines_starts hc cs
        exact ⟨d, _, by rw [he]; rfl, hd⟩
    have hread := readBasicLines_write hr cs 0
    rw [← skipNewline_opening hbody] at hread
    simpa [QuoteStyle.write, QuoteStyle.opening, QuoteStyle.body, QuoteStyle.quotes, readText]
      using hread
  | literalLines =>
    obtain ⟨hplain, ht⟩ := hs.of_literalLines
    have hbody : '\n' ∉ cs →
        ∃ d tail, cs ++ '\x27' :: '\x27' :: '\x27' :: rest = d :: tail ∧
          d ≠ '\n' ∧ d ≠ '\r' := by
      intro hn
      cases cs with
      | nil => exact ⟨'\x27', _, rfl, by decide⟩
      | cons c cs =>
        have hc : c ≠ '\n' := fun h => hn (h ▸ List.mem_cons_self)
        exact ⟨c, _, rfl, isPrintable_ne ((hplain c List.mem_cons_self).resolve_left hc)⟩
    have hread := readLiteralLines_write hr hplain ht
    rw [← skipNewline_opening hbody] at hread
    simpa [QuoteStyle.write, QuoteStyle.opening, QuoteStyle.body, QuoteStyle.quotes, readText]
      using hread

theorem writeText_head? (cs : List Char) :
    (writeText cs).head? = some (QuoteStyle.choose cs).quote := by
  rw [writeText]
  cases QuoteStyle.choose cs <;> rfl

/-- A text that is written and read in front of anything but a quote stays the same. -/
theorem readText_writeText (hr : ∀ q, rest.head? ≠ some (QuoteStyle.quote q)) (cs : List Char) :
    readText (writeText cs ++ rest) = some (cs, rest) :=
  readText_write (QuoteStyle.holds_choose cs) (hr _)

end Stepwise.Toml
