import Multidomain.Text.Numeral
import Multidomain.Toml.Basic
import Multidomain.Toml.Scalar

/-!
# Reading TOML

A reader of TOML 1.0 documents. `Toml.parse?` answers `none` for a text that does not follow the
grammar and for one that defines a key or a table twice.
-/

namespace Multidomain.Toml

private def isTomlBlank (c : Char) : Bool := c = ' ' || c = '\t'

/-- Whether a character may stand in comments and in literal texts. -/
def isPlain (c : Char) : Bool := c = '\t' || (0x20 ≤ c.toNat && c.toNat ≠ 0x7F)

def skipSpaces (cs : List Char) : List Char := cs.dropWhile isTomlBlank

def lineBreak? : List Char → Option (List Char)
  | '\n' :: rest => some rest
  | '\r' :: '\n' :: rest => some rest
  | _ => none

def skipComment : List Char → List Char
  | '#' :: rest => rest.dropWhile isPlain
  | cs => cs

def endLine? (cs : List Char) : Option (List Char) :=
  match skipComment (skipSpaces cs) with
  | [] => some []
  | cs => lineBreak? cs

def skipFiller : Nat → List Char → List Char
  | 0, cs => cs
  | fuel + 1, cs =>
    let cs := skipComment (skipSpaces cs)
    match lineBreak? cs with
    | some rest => skipFiller fuel rest
    | none => cs

def skipLines : Nat → List Char → List Char
  | 0, cs => cs
  | fuel + 1, cs =>
    let cs := skipSpaces cs
    match lineBreak? cs with
    | some rest => skipLines fuel rest
    | none => cs

/-- The scalar value that hexadecimal digits denote. -/
def scalar? (digits : List Char) : Option Char := do
  let n ← Text.readDigits 16 0 digits
  if n < 0xD800 ∨ (0xDFFF < n ∧ n < 0x110000) then some (Char.ofNat n) else none

/-- The character that stands after a backslash, and what follows it. -/
def escaped? : List Char → Option (Char × List Char)
  | 'b' :: rest => some ('\x08', rest)
  | 't' :: rest => some ('\t', rest)
  | 'n' :: rest => some ('\n', rest)
  | 'f' :: rest => some ('\x0c', rest)
  | 'r' :: rest => some ('\r', rest)
  | '"' :: rest => some ('"', rest)
  | '\\' :: rest => some ('\\', rest)
  | 'u' :: rest =>
    if (rest.take 4).length = 4 then (scalar? (rest.take 4)).map fun c => (c, rest.drop 4) else none
  | 'U' :: rest =>
    if (rest.take 8).length = 8 then (scalar? (rest.take 8)).map fun c => (c, rest.drop 8) else none
  | _ => none

/-- The rest of a quoted text on one line. -/
def quoted? : Nat → List Char → Option (List Char × List Char)
  | 0, _ => none
  | _, [] => none
  | fuel + 1, c :: rest =>
    if c = '"' then some ([], rest)
    else if c = '\\' then do
      let (e, rest) ← escaped? rest
      let (more, rest) ← quoted? fuel rest
      return (e :: more, rest)
    else if isPlain c then (quoted? fuel rest).map fun (more, rest) => (c :: more, rest)
    else none

/-- The rest of a literal text on one line. -/
def literal? : List Char → Option (List Char × List Char)
  | [] => none
  | c :: rest =>
    if c = '\x27' then some ([], rest)
    else if isPlain c then (literal? rest).map fun (more, rest) => (c :: more, rest)
    else none

/-- The rest of a text over several lines that ends at three of `mark`; one or two more of them
before the end belong to the text. Escapes count where `escapes` is set. -/
def multiline? (mark : Char) (escapes : Bool) : Nat → List Char → Option (List Char × List Char)
  | 0, _ => none
  | _, [] => none
  | fuel + 1, c :: rest =>
    if c = mark then
      let run := ((c :: rest).takeWhile (· = mark)).length
      if 3 ≤ run then
        let taken := min run 5
        some (List.replicate (taken - 3) mark, (c :: rest).drop taken)
      else (multiline? mark escapes fuel rest).map fun (more, rest) => (c :: more, rest)
    else match lineBreak? (c :: rest) with
      | some after =>
        (multiline? mark escapes fuel after).map fun (more, rest) => ('\n' :: more, rest)
      | none =>
        if escapes ∧ c = '\\' then
          match lineBreak? (skipSpaces rest) with
          | some after =>
            multiline? mark escapes fuel (skipLines (after.length + 1) after)
          | none => do
            let (e, rest) ← escaped? rest
            let (more, rest) ← multiline? mark escapes fuel rest
            return (e :: more, rest)
        else if isPlain c then
          (multiline? mark escapes fuel rest).map fun (more, rest) => (c :: more, rest)
        else none

private def dropFirstBreak (cs : List Char) : List Char := (lineBreak? cs).getD cs

/-- The text at the start, in any of the four forms. -/
def text? : List Char → Option (String × List Char)
  | '"' :: '"' :: '"' :: rest =>
    (multiline? '"' true (rest.length + 1) (dropFirstBreak rest)).map fun (t, rest) =>
      (String.ofList t, rest)
  | '"' :: rest => (quoted? (rest.length + 1) rest).map fun (t, rest) => (String.ofList t, rest)
  | '\x27' :: '\x27' :: '\x27' :: rest =>
    (multiline? '\x27' false (rest.length + 1) (dropFirstBreak rest)).map fun (t, rest) =>
      (String.ofList t, rest)
  | '\x27' :: rest => (literal? rest).map fun (t, rest) => (String.ofList t, rest)
  | _ => none

private def isBareKey (c : Char) : Bool := c.isAlphanum || c = '_' || c = '-'

def keyPart? : List Char → Option (String × List Char)
  | '"' :: rest => (quoted? (rest.length + 1) rest).map fun (t, rest) => (String.ofList t, rest)
  | '\x27' :: rest => (literal? rest).map fun (t, rest) => (String.ofList t, rest)
  | cs =>
    let part := cs.takeWhile isBareKey
    if part.isEmpty then none else some (String.ofList part, cs.dropWhile isBareKey)

/-- How deep arrays and inline tables may nest, and how many parts a key may have. -/
def deepest : Nat := 79

/-- A key of at least one and at most `room` parts, dots between them. -/
def keyParts? : Nat → List Char → Option (List String × List Char)
  | 0, _ => none
  | room + 1, cs => do
    let (part, rest) ← keyPart? (skipSpaces cs)
    match skipSpaces rest with
    | '.' :: rest => (keyParts? room rest).map fun (more, rest) => (part :: more, rest)
    | rest => return ([part], rest)

def key? (cs : List Char) : Option (List String × List Char) := keyParts? deepest cs

private def isScalarChar (c : Char) : Bool :=
  c.isAlphanum || c = '+' || c = '-' || c = '.' || c = '_' || c = ':'

/-- The number, truth value, date or time at the start. A date and a time may also have a space
between them. -/
def scalarValue? (cs : List Char) : Option (Toml × List Char) :=
  let token := cs.takeWhile isScalarChar
  let rest := cs.dropWhile isScalarChar
  let written := String.ofList token
  let spacedTime? : Option (List Char) :=
    if TomlScalar.isDate token then
      match rest with
      | ' ' :: more =>
        if TomlScalar.isOffsetTime (more.takeWhile isScalarChar) then some more else none
      | _ => none
    else none
  match spacedTime? with
  | some more =>
    let time := more.takeWhile isScalarChar
    some (.moment (written ++ " " ++ String.ofList time), more.dropWhile isScalarChar)
  | none =>
    if written = "true" then some (.bool true, rest)
    else if written = "false" then some (.bool false, rest)
    else if TomlScalar.isMoment token then some (.moment written, rest)
    else match TomlScalar.integer? token with
      | some i => some (.integer i, rest)
      | none => if TomlScalar.isFloat token then some (.float written, rest) else none

mutual

/-- The value at the start. `room` is the number of levels that may still be opened. -/
def value? (room : Nat) : Nat → List Char → Option (Toml × List Char)
  | 0, _ => none
  | fuel + 1, cs =>
    match cs with
    | '"' :: _ => (text? cs).map fun (t, rest) => (.text t, rest)
    | '\x27' :: _ => (text? cs).map fun (t, rest) => (.text t, rest)
    | '[' :: rest =>
      if room = 0 then none
      else (items? (room - 1) fuel rest).map fun (items, rest) => (.array items, rest)
    | '\x7b' :: rest =>
      if room = 0 then none
      else match skipSpaces rest with
        | '\x7d' :: rest => some (.table .inlined [], rest)
        | rest => (fields? (room - 1) fuel rest (.table .header [])).bind fun (t, rest) =>
          match t with
          | .table _ fields => some (.table .inlined fields, rest)
          | _ => none
    | cs => scalarValue? cs

/-- The items of an array up to its closing bracket; the last may be followed by a comma. -/
def items? (room : Nat) : Nat → List Char → Option (List Toml × List Char)
  | 0, _ => none
  | fuel + 1, cs =>
    match skipFiller (cs.length + 1) cs with
    | ']' :: rest => some ([], rest)
    | cs => do
      let (item, rest) ← value? room fuel cs
      match skipFiller (rest.length + 1) rest with
      | ',' :: rest => (items? room fuel rest).map fun (more, rest) => (item :: more, rest)
      | ']' :: rest => return ([item], rest)
      | _ => none

/-- The fields of an inline table up to its closing brace, added to those before. -/
def fields? (room : Nat) : Nat → List Char → Toml → Option (Toml × List Char)
  | 0, _, _ => none
  | fuel + 1, cs, t => do
    let (keys, rest) ← key? cs
    match rest with
    | '=' :: rest =>
      let (value, rest) ← value? room fuel (skipSpaces rest)
      let t ← assign keys value t
      match skipSpaces rest with
      | ',' :: rest => fields? room fuel rest t
      | '\x7d' :: rest => return (t, rest)
      | _ => none
    | _ => none

end

/-- Read the lines of a document. `path` leads to the table that keys are counted from. -/
def lines? : Nat → List Char → Toml → List String → Option Toml
  | 0, _, _, _ => none
  | fuel + 1, cs, root, path =>
    match skipFiller (cs.length + 1) cs with
    | [] => some root
    | '[' :: '[' :: rest => do
      let (keys, rest) ← key? rest
      match rest with
      | ']' :: ']' :: rest =>
        let root ← openElement keys root
        lines? fuel (← endLine? rest) root keys
      | _ => none
    | '[' :: rest => do
      let (keys, rest) ← key? rest
      match rest with
      | ']' :: rest =>
        let root ← openTable keys root
        lines? fuel (← endLine? rest) root keys
      | _ => none
    | cs => do
      let (keys, rest) ← key? cs
      match rest with
      | '=' :: rest =>
        let (value, rest) ← value? deepest (2 * cs.length + 2) (skipSpaces rest)
        let root ← descend false (assign keys value) path root
        lines? fuel (← endLine? rest) root path
      | _ => none

/-- The document that a text holds; a byte order mark before it is passed over. -/
def parse? (s : String) : Option Toml :=
  let cs := match s.toList with
    | '\uFEFF' :: rest => rest
    | cs => cs
  lines? (cs.length + 1) cs (.table .header []) []

end Multidomain.Toml
