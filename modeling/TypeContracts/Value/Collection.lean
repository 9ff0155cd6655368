import TypeContracts.Value.Equality

/-!
Collections without repetitions: the constructors of sets and dicts. Of several equal elements the
first stays; a repeated key keeps its first place and spelling and takes the last value.
-/

namespace TypeContracts

namespace Value

/-- Adds `v` at the end unless an equal value is there already. -/
def addDistinct (items : List Value) (v : Value) : List Value :=
  if v.isIn items then items else items ++ [v]

/-- The values without those equal to an earlier one. -/
def distinct (vs : List Value) : List Value := vs.foldl addDistinct []

/-- The set of the given values. -/
def setOf (vs : List Value) : Value := .set (distinct vs)

/-- Gives the first entry whose key equals `key` the new value, or adds an entry at the end. -/
def putEntry (key value : Value) : List (Value × Value) → List (Value × Value)
  | [] => [(key, value)]
  | (k, v) :: rest => if k.equal key then (k, value) :: rest else (k, v) :: putEntry key value rest

/-- The dict of the given entries. -/
def dictOf (entries : List (Value × Value)) : Value :=
  .dict (entries.foldl (fun es e => putEntry e.1 e.2 es) [])

end Value

end TypeContracts
