import TypeContracts.Spec.Equality
import TypeContracts.Spec.Signature
import TypeContracts.Value.Collection

/-!
Constructors of specs that keep a normal form: unions are flat and hold distinct members, option sets
hold distinct values, and callable specs hold no variadic parameter.
-/

namespace TypeContracts

namespace TypeSpec

mutual

/-- The members of a spec read as a union: those of nested unions in order, or the spec alone. -/
def flatten : TypeSpec → List TypeSpec
  | .union members => flattenAll members
  | s => [s]

def flattenAll : List TypeSpec → List TypeSpec
  | [] => []
  | s :: ss => s.flatten ++ flattenAll ss

end

/-- Adds `s` at the end unless an equal spec is there already. -/
def addDistinct (members : List TypeSpec) (s : TypeSpec) : List TypeSpec :=
  if s.isIn members then members else members ++ [s]

/-- The specs without those equal to an earlier one. -/
def distinct (specs : List TypeSpec) : List TypeSpec := specs.foldl addDistinct []

/-- The union of distinct members; a single member stands for itself. -/
def ofMembers : List TypeSpec → TypeSpec
  | [s] => s
  | members => .union members

/-- The union of the given specs. There must be at least one. -/
def unionOf (specs : List TypeSpec) : Except InvalidSpec TypeSpec :=
  match distinct (flattenAll specs) with
  | [] => .error .emptyUnion
  | members => .ok (ofMembers members)

/-- The union of two specs. -/
def or (s t : TypeSpec) : TypeSpec := ofMembers (distinct (s.flatten ++ t.flatten))

/-- The members of a union; other specs have none. -/
def members? : TypeSpec → Option (List TypeSpec)
  | .union members => some members
  | _ => none

/-- The spec of callables that can stand in for `signature`. -/
def callableOf (key : Nat) (signature : Signature) : Except InvalidSpec TypeSpec := do
  signature.requireFixedArity
  return .callable key signature

/-- The spec of the values equal to one of `vs`. -/
def oneOf (key : Nat) (vs : List Value) : TypeSpec := .options key (Value.distinct vs)

end TypeSpec

end TypeContracts
