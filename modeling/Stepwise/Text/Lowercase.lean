import Stepwise.Text.CaseTables

namespace Stepwise.Text

def isCased (c : Char) : Bool :=
  c.isAlpha || covers nonAsciiCased c

/-- Characters that do not separate the letters of a word: accents, apostrophes and the like. -/
def isCaseIgnorable (c : Char) : Bool :=
  c == '\x27' || c == '.' || c == ':' || c == '^' || c == '\x60' || covers nonAsciiCaseIgnorable c

/-- The small letter of a character above the ASCII range, if it has one. -/
def smallLetter? (c : Char) : Option Char :=
  (caseRuns.find? fun r => r.first ≤ c.toNat && c.toNat ≤ r.last &&
    (c.toNat - r.first) % r.step == 0).map fun r => Char.ofNat ((c.toNat : Int) + r.offset).toNat

def lowerChar (c : Char) : List Char :=
  if c.toNat < 0x80 then [c.toLower]
  else if c == 'İ' then ['i', '\u0307']
  else [(smallLetter? c).getD c]

/-- Passing over the characters that do not separate letters, the next one is a letter with case. -/
def meetsLetter (cs : List Char) : Bool :=
  match cs.dropWhile isCaseIgnorable with
  | [] => false
  | c :: _ => isCased c

/-- The small form of the rest of a text, given the characters before it, nearest first. -/
def lowerAfter (before : List Char) : List Char → List Char
  | [] => []
  | c :: rest =>
    (if c == 'Σ' then
      [if meetsLetter before && !meetsLetter rest then 'ς' else 'σ']
    else lowerChar c) ++ lowerAfter (c :: before) rest

def lower (s : String) : String :=
  String.ofList (lowerAfter [] s.toList)

end Stepwise.Text
