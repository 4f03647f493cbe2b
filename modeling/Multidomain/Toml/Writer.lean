import Multidomain.Text.Numeral

/-!
# Writing TOML

The written form of texts and of lists of texts. A text stands as it is wherever some quotes allow
it: between one double quote or one single quote on either side if it has neither line breaks nor
that quote, and between three of them otherwise. Only a text that no quotes can hold as it is has
escapes for its quotes and backslashes. A text of several lines starts on a line of its own. A list
of two or more texts has a line for each.
-/

namespace Multidomain.Toml

/-- Whether a character may only be written by an escape. -/
def isControl (c : Char) : Bool := c.toNat < 0x20 || c.toNat = 0x7F

/-- The greatest number of times that a character stands in a row, where `best` is the greatest
number so far and `run` the number just before. -/
def longestRun (mark : Char) (best run : Nat) : List Char → Nat
  | [] => best
  | c :: rest =>
    if c = mark then longestRun mark (max best (run + 1)) (run + 1) rest
    else longestRun mark best 0 rest

/-- The quotes around a text: double ones, between which escapes are read, or single ones, between
which every character stands for itself; three of them may hold line breaks. -/
inductive Quoting where
  | double | single | tripleDouble | tripleSingle
  deriving DecidableEq, Repr

namespace Quoting

/-- The quotes at either end. -/
def mark : Quoting → String
  | double => "\""
  | single => "\x27"
  | tripleDouble => "\"\"\""
  | tripleSingle => "\x27\x27\x27"

/-- Whether three quotes stand at either end. -/
def isTriple : Quoting → Bool
  | double | single => false
  | tripleDouble | tripleSingle => true

/-- Whether every character stands for itself. -/
def isLiteral : Quoting → Bool
  | double | tripleDouble => false
  | single | tripleSingle => true

/-- The quotes that a text is given: the first in the order double, single, three double and three
single ones that can hold it as it is. A text that none can hold has double ones, three of them if
it has line breaks. -/
def ofText (cs : List Char) : Quoting :=
  let lines := cs.contains '\n'
  let coded := cs.any fun c => isControl c && c != '\t' && c != '\n'
  let escaped := cs.contains '\\'
  let doubles := longestRun '"' 0 0 cs
  let singles := longestRun '\x27' 0 0 cs
  if coded then if lines then tripleDouble else double
  else if !escaped && doubles = 0 && !lines then double
  else if singles = 0 && !lines then single
  else if !escaped && doubles ≤ 2 then tripleDouble
  else if singles ≤ 2 then tripleSingle
  else if lines then tripleDouble else double

end Quoting

/-- One character other than a quote between double quotes; `lines` says whether a line break may
stand as it is. -/
def escape (lines : Bool) (c : Char) : List Char :=
  match c with
  | '\\' => ['\\', '\\']
  | '\x08' => ['\\', 'b']
  | '\t' => ['\\', 't']
  | '\n' => if lines then ['\n'] else ['\\', 'n']
  | '\x0c' => ['\\', 'f']
  | '\r' => ['\\', 'r']
  | c =>
    if isControl c then
      ['\\', 'u', '0', '0', Text.hexDigit (c.toNat / 16), Text.hexDigit (c.toNat % 16)]
    else [c]

/-- A text between double quotes, three of them if `triple`. Three of them allow up to two quotes in
a row as they are; `run` is how many stand just before. -/
def escapeAll (triple : Bool) (run : Nat) : List Char → List Char
  | [] => []
  | c :: rest =>
    if c = '"' then
      if triple && run < 2 then '"' :: escapeAll triple (run + 1) rest
      else '\\' :: '"' :: escapeAll triple 0 rest
    else escape triple c ++ escapeAll triple 0 rest

def quote (s : String) : String :=
  let cs := s.toList
  let quoting := Quoting.ofText cs
  let inner := if quoting.isLiteral then cs else escapeAll quoting.isTriple 0 cs
  let lines := if quoting.isTriple && cs.contains '\n' then '\n' :: inner else inner
  quoting.mark ++ String.ofList lines ++ quoting.mark

def quoteList : List String → String
  | [] => "[]"
  | [s] => "[" ++ quote s ++ "]"
  | ss => "[\n" ++ String.join (ss.map fun s => "    " ++ quote s ++ ",\n") ++ "]"

end Multidomain.Toml
