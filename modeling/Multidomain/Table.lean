import Multidomain.Roster

/-!
# Tables

A table is a roster of key and value pairs: a finite map that remembers in which order its keys were
first set. `get?_set` and `get?_erase` say all there is to know about what is read after a write.
-/

namespace Multidomain

/-- A finite map, its keys in the order in which they were first set. -/
abbrev Table (κ ν : Type) := Roster (Prod.fst : κ × ν → κ)

namespace Table

variable {κ ν : Type} [DecidableEq κ]

def get? (t : Table κ ν) (k : κ) : Option ν := (t.find? k).map Prod.snd

def set (t : Table κ ν) (k : κ) (v : ν) : Table κ ν := t.put (k, v)

/-- The table that holds the pairs of a list, a later pair winning over an earlier one. -/
def ofList (pairs : List (κ × ν)) : Table κ ν := Roster.empty.putAll pairs

theorem get?_empty (k : κ) : get? (Roster.empty : Table κ ν) k = none := rfl

theorem get?_set (t : Table κ ν) (k : κ) (v : ν) (l : κ) :
    get? (t.set k v) l = if k = l then some v else get? t l := by
  simp only [get?, set, Roster.find?_put]
  split <;> rfl

@[simp] theorem get?_set_self (t : Table κ ν) (k : κ) (v : ν) : get? (t.set k v) k = some v := by
  simp [get?_set]

theorem get?_erase (t : Table κ ν) (k l : κ) :
    get? (t.erase k) l = if l = k then none else get? t l := by
  simp only [get?, Roster.find?_erase]
  split <;> rfl

end Table

end Multidomain
