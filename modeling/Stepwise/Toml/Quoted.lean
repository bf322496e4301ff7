import Stepwise.Text.Hexadecimal
import Stepwise.Toml.Reader

namespace Stepwise.Toml
open Reader Text

inductive QuoteStyle where
  /-- Between quotation marks, with escapes. -/
  | basic
  /-- Between apostrophes, as it stands. -/
  | literal
  /-- Between triple quotation marks, with escapes and line ends. -/
  | basicLines
  /-- Between triple apostrophes, as it stands, with line ends. -/
  | literalLines
deriving Repr, DecidableEq

/-- The letters of escapes and the characters that they stand for. -/
def escapes : List (Char × Char) :=
  [('b', '\x08'), ('t', '\t'), ('n', '\n'), ('f', '\x0c'), ('r', '\r'), ('\x22', '\x22'),
   ('\\', '\\')]

/-- The character that escaped digits name. -/
def escapedScalar (count : Nat) (cs : List Char) : Option (Char × List Char) :=
  if count ≤ cs.length then
    match ofBase? 16 (cs.take count) with
    | some n => if n.isValidChar then some (Char.ofNat n, cs.drop count) else none
    | none => none
  else none

/-- The character of an escape, behind its backslash. -/
def readEscape : List Char → Option (Char × List Char)
  | 'u' :: cs => escapedScalar 4 cs
  | 'U' :: cs => escapedScalar 8 cs
  | c :: cs => (escapes.lookup c).map fun d => (d, cs)
  | [] => none

theorem length_escapedScalar_le {count : Nat} {cs rest : List Char} {c : Char}
    (h : escapedScalar count cs = some (c, rest)) : rest.length ≤ cs.length := by
  unfold escapedScalar at h
  split at h
  · split at h
    · split at h
      · simp only [Option.some.injEq, Prod.mk.injEq] at h
        rw [← h.2, List.length_drop]
        omega
      · simp at h
    · simp at h
  · simp at h

theorem length_readEscape_lt {cs rest : List Char} {c : Char}
    (h : readEscape cs = some (c, rest)) : rest.length < cs.length := by
  unfold readEscape at h
  split at h
  · exact Nat.lt_succ_of_le (length_escapedScalar_le h)
  · exact Nat.lt_succ_of_le (length_escapedScalar_le h)
  · simp only [Option.map_eq_some_iff, Prod.mk.injEq] at h
    obtain ⟨_, _, _, rfl⟩ := h
    exact Nat.lt_succ_self _
  · simp at h

/-- The text of a quotation and the characters after its end. -/
abbrev Quotation := Option (List Char × List Char)

/-- The quotation with one more character in front. -/
def Quotation.cons (c : Char) (q : Quotation) : Quotation :=
  q.map fun (text, rest) => (c :: text, rest)

/-- The text up to the closing quotation mark. -/
def readBasic (cs : List Char) : Quotation :=
  match cs with
  | [] => none
  | '\x22' :: rest => some ([], rest)
  | '\\' :: rest =>
    match _h : readEscape rest with
    | some (c, after) => .cons c (readBasic after)
    | none => none
  | c :: rest => if isPrintable c then .cons c (readBasic rest) else none
termination_by cs.length
decreasing_by
  · exact Nat.lt_succ_of_lt (length_readEscape_lt _h)
  · exact Nat.lt_succ_self _

/-- The text up to the closing apostrophe. -/
def readLiteral : List Char → Quotation
  | [] => none
  | '\x27' :: rest => some ([], rest)
  | c :: rest => if isPrintable c then .cons c (readLiteral rest) else none

/-- The end of a text between triple quotes, behind the first quote.  Up to two more quotes in
front of the closing ones belong to the text. -/
def closing? (quote : Char) : List Char → Quotation
  | a :: b :: rest =>
    if a = quote ∧ b = quote then
      let inner := (rest.take 2).takeWhile (· == quote)
      some (inner, rest.drop inner.length)
    else none
  | _ => none

/-- The text without the blanks and line ends in front of it. -/
def skipLines : List Char → List Char
  | [] => []
  | '\r' :: '\n' :: cs => skipLines cs
  | c :: cs => if c = '\n' ∨ isBlank c then skipLines cs else c :: cs

/-- What follows a backslash at the end of a line: it leaves out the line's end and all blanks and
line ends after it. -/
def foldedLine? (cs : List Char) : Option (List Char) :=
  (newline (cs.dropWhile isBlank)).map fun (_, rest) => skipLines rest

theorem length_skipLines_le (cs : List Char) : (skipLines cs).length ≤ cs.length := by
  fun_induction skipLines cs with
  | case1 => exact Nat.le_refl _
  | case2 cs ih => exact Nat.le_succ_of_le (Nat.le_succ_of_le ih)
  | case3 c cs _ _ ih => exact Nat.le_succ_of_le ih
  | case4 => exact Nat.le_refl _

theorem length_foldedLine?_le {cs rest : List Char} (h : foldedLine? cs = some rest) :
    rest.length ≤ cs.length := by
  obtain ⟨⟨_, left⟩, hn, rfl⟩ := Option.map_eq_some_iff.1 h
  calc (skipLines left).length
    _ ≤ left.length := length_skipLines_le left
    _ ≤ (cs.dropWhile isBlank).length := Nat.le_of_lt (length_newline_lt hn)
    _ ≤ cs.length := (List.dropWhile_suffix isBlank).length_le

/-- The text up to the closing quotation marks; a line ends in a line feed. -/
def readBasicLines (cs : List Char) : Quotation :=
  match cs with
  | [] => none
  | '\x22' :: rest =>
    match closing? '\x22' rest with
    | some quotation => some quotation
    | none => .cons '\x22' (readBasicLines rest)
  | '\\' :: rest =>
    match _h : foldedLine? rest with
    | some after => readBasicLines after
    | none =>
      match _h : readEscape rest with
      | some (c, after) => .cons c (readBasicLines after)
      | none => none
  | '\r' :: '\n' :: rest => .cons '\n' (readBasicLines rest)
  | c :: rest =>
    if c = '\n' ∨ isPrintable c then .cons c (readBasicLines rest) else none
termination_by cs.length
decreasing_by
  · exact Nat.lt_succ_self _
  · exact Nat.lt_succ_of_le (length_foldedLine?_le _h)
  · exact Nat.lt_succ_of_lt (length_readEscape_lt _h)
  · exact Nat.lt_succ_of_lt (Nat.lt_succ_self _)
  · exact Nat.lt_succ_self _

/-- The text up to the closing apostrophes; a line ends in a line feed. -/
def readLiteralLines : List Char → Quotation
  | [] => none
  | '\x27' :: rest =>
    match closing? '\x27' rest with
    | some quotation => some quotation
    | none => .cons '\x27' (readLiteralLines rest)
  | '\r' :: '\n' :: rest => .cons '\n' (readLiteralLines rest)
  | c :: rest =>
    if c = '\n' ∨ isPrintable c then .cons c (readLiteralLines rest) else none

/-- A line end right behind opening triple quotes does not count. -/
def skipNewline (cs : List Char) : List Char :=
  match newline cs with
  | some (_, rest) => rest
  | none => cs

def readLine : Reader (List Char)
  | '\x22' :: cs => readBasic cs
  | '\x27' :: cs => readLiteral cs
  | _ => none

def readText : Reader (List Char)
  | '\x22' :: '\x22' :: '\x22' :: cs => readBasicLines (skipNewline cs)
  | '\x27' :: '\x27' :: '\x27' :: cs => readLiteralLines (skipNewline cs)
  | cs => readLine cs

/-- Characters that only an escape can stand for. -/
def needsEscape (c : Char) : Bool :=
  !isPrintable c && c != '\n'

/-- Whether a character stands three times in a row somewhere. -/
def hasTriple (c : Char) : List Char → Bool
  | [] => false
  | d :: cs => [c, c, c].isPrefixOf (d :: cs) || hasTriple c cs

/-- Whether the style holds a text without any escape, a tab's apart. -/
def QuoteStyle.suits (style : QuoteStyle) (cs : List Char) : Bool :=
  !cs.any needsEscape &&
    match style with
    | .basic => !cs.any fun c => c == '\\' || c == '\x22' || c == '\n'
    | .literal => !cs.any fun c => c == '\x27' || c == '\n'
    | .basicLines => !cs.contains '\\' && !hasTriple '\x22' cs
    | .literalLines => !hasTriple '\x27' cs

/-- The style in which a text is written. -/
def QuoteStyle.choose (cs : List Char) : QuoteStyle :=
  match [.basic, .literal, .basicLines, .literalLines].find? (suits · cs) with
  | some style => style
  | none => if cs.contains '\n' then .basicLines else .basic

/-- A character with an escape if it needs one or has a short one. -/
def escapeCharacter (c : Char) : List Char :=
  match escapes.find? (·.2 == c) with
  | some (letter, _) => ['\\', letter]
  | none =>
    if isPrintable c then [c]
    else ['\\', 'u', '0', '0', hexDigit (c.toNat / 16), hexDigit (c.toNat % 16)]

/-- The text between triple quotation marks: of three quotation marks in a row the third is
escaped.  `quotes` counts those just written. -/
def escapeLines (quotes : Nat) : List Char → List Char
  | [] => []
  | c :: cs =>
    if c = '\x22' then
      if quotes < 2 then c :: escapeLines (quotes + 1) cs else '\\' :: c :: escapeLines 0 cs
    else if c = '\n' then c :: escapeLines 0 cs
    else escapeCharacter c ++ escapeLines 0 cs

def QuoteStyle.quotes : QuoteStyle → List Char
  | .basic => ['\x22']
  | .literal => ['\x27']
  | .basicLines => ['\x22', '\x22', '\x22']
  | .literalLines => ['\x27', '\x27', '\x27']

def QuoteStyle.body (style : QuoteStyle) (cs : List Char) : List Char :=
  match style with
  | .basic => cs.flatMap escapeCharacter
  | .basicLines => escapeLines 0 cs
  | .literal | .literalLines => cs

/-- Text of several lines starts on a line of its own. -/
def QuoteStyle.opening (style : QuoteStyle) (cs : List Char) : List Char :=
  match style with
  | .basic | .literal => style.quotes
  | .basicLines | .literalLines => style.quotes ++ if cs.contains '\n' then ['\n'] else []

def QuoteStyle.write (style : QuoteStyle) (cs : List Char) : List Char :=
  style.opening cs ++ style.body cs ++ style.quotes

def writeText (cs : List Char) : List Char :=
  (QuoteStyle.choose cs).write cs

end Stepwise.Toml
