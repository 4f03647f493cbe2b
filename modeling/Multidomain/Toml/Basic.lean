/-!
# TOML values

The tree that a TOML text denotes. A table remembers how it came about, because that decides what
may still be added to it: a table opened by a header is complete, one that a longer header or a
dotted key passed through may yet be opened or extended, and an inline table is closed for good.
`descend` follows a path of keys from a table and edits what is there, making the tables that are
missing on the way.
-/

namespace Multidomain

/-- How a table came about. -/
inductive TableOrigin where
  /-- It was opened by a header, or is the root. -/
  | header
  /-- A longer header passed through it. -/
  | passage
  /-- A dotted key passed through it. -/
  | dotted
  /-- It was written in braces. -/
  | inlined
  deriving DecidableEq, Repr, Inhabited

inductive Toml where
  | text (value : String)
  | integer (value : Int)
  /-- A floating-point number, as written. -/
  | float (written : String)
  | bool (value : Bool)
  /-- A date or a time, as written. -/
  | moment (written : String)
  | array (items : List Toml)
  | table (origin : TableOrigin) (fields : List (String × Toml))
  /-- The tables opened by double-bracket headers of one name. -/
  | tables (elements : List Toml)
  deriving Repr, Inhabited

namespace Toml

/-- The fields with the value of `key` replaced. -/
def replaceField (key : String) (value : Toml) : List (String × Toml) → List (String × Toml)
  | [] => []
  | (k, v) :: rest => if k = key then (k, value) :: rest else (k, v) :: replaceField key value rest

/-- Edit what a path of keys leads to from a table. `byDots` says whether the path comes from a
dotted key rather than from a header. -/
def descend (byDots : Bool) (edit : Toml → Option Toml) : List String → Toml → Option Toml
  | [], t => edit t
  | key :: path, table origin fields =>
    match fields.lookup key with
    | none => do
      let made ← descend byDots edit path (table (if byDots then .dotted else .passage) [])
      return table origin (fields ++ [(key, made)])
    | some (tables elements) => do
      let last ← elements.getLast?
      let edited ← descend byDots edit path last
      return table origin (replaceField key (tables (elements.dropLast ++ [edited])) fields)
    | some (table inner below) =>
      if inner = .inlined ∨ (byDots ∧ inner = .header) then none
      else do
        let edited ← descend byDots edit path (table inner below)
        return table origin (replaceField key edited fields)
    | some _ => none
  | _ :: _, _ => none

/-- Add a field whose key is not there yet. `throughDots` says whether a dotted key led to this
table; only tables made by dotted keys take such fields, and only others take plain ones. -/
def addField (throughDots : Bool) (key : String) (value : Toml) : Toml → Option Toml
  | table origin fields =>
    if decide (origin = .dotted) ≠ throughDots ∨ (fields.lookup key).isSome then none
    else some (table origin (fields ++ [(key, value)]))
  | _ => none

/-- Set the value of a possibly dotted key, counted from a table. -/
def assign (keys : List String) (value : Toml) (t : Toml) : Option Toml := do
  let key ← keys.getLast?
  descend true (addField (!keys.dropLast.isEmpty) key value) keys.dropLast t

/-- Open the table of a header. -/
def openTable (path : List String) (root : Toml) : Option Toml := do
  let key ← path.getLast?
  let edit : Toml → Option Toml
    | table origin fields =>
      match fields.lookup key with
      | none => some (table origin (fields ++ [(key, table .header [])]))
      | some (table .passage below) =>
        some (table origin (replaceField key (table .header below) fields))
      | some _ => none
    | _ => none
  descend false edit path.dropLast root

/-- Open one more table of a double-bracket header. -/
def openElement (path : List String) (root : Toml) : Option Toml := do
  let key ← path.getLast?
  let edit : Toml → Option Toml
    | table origin fields =>
      match fields.lookup key with
      | none => some (table origin (fields ++ [(key, tables [table .header []])]))
      | some (tables elements) =>
        some (table origin (replaceField key (tables (elements ++ [table .header []])) fields))
      | some _ => none
    | _ => none
  descend false edit path.dropLast root

end Toml

end Multidomain
