import TypeContracts.Spec.Basic
import TypeContracts.Spec.Invalid
import TypeContracts.Value.Render

/-!
Spec literals: nested descriptions such as "a list of integers" or "a mapping from texts to pairs".
A list, set or mapping literal holds exactly one element or entry, and every leaf is a spec or a class.
Value containers that hold classes are read the same way.
-/

namespace TypeContracts

/-- A nested description of a spec. -/
inductive SpecLiteral where
  | spec (s : TypeSpec)
  /-- A class, or a container of classes. -/
  | value (v : Value)
  | list (items : List SpecLiteral)
  | set (items : List SpecLiteral)
  | tuple (items : List SpecLiteral)
  | mapping (entries : List (SpecLiteral × SpecLiteral))

mutual

/-- The spec that a value describes. The number of elements is checked before the elements, and a key
before its value. -/
def Value.toSpec : Value → Except InvalidSpec TypeSpec
  | .cls c => .ok (.plain c)
  | .list [v] => do return .list (← v.toSpec)
  | .list vs => .error (.malformedLiteral .list vs.length)
  | .set [v] => do return .set (← v.toSpec)
  | .set vs => .error (.malformedLiteral .set vs.length)
  | .tuple vs => do return .tuple (← Value.toSpecs vs)
  | .dict [(k, v)] => do
      let key ← k.toSpec
      let value ← v.toSpec
      return .mapping key value
  | .dict es => .error (.malformedLiteral .mapping es.length)
  | v => .error (.notAType v.inspect)

def Value.toSpecs : List Value → Except InvalidSpec (List TypeSpec)
  | [] => .ok []
  | v :: vs => do
      let s ← v.toSpec
      let ss ← Value.toSpecs vs
      return s :: ss

end

mutual

/-- The spec that a literal describes, with the same order of checks as for values. -/
def SpecLiteral.toSpec : SpecLiteral → Except InvalidSpec TypeSpec
  | .spec s => .ok s
  | .value v => v.toSpec
  | .list [x] => do return .list (← x.toSpec)
  | .list xs => .error (.malformedLiteral .list xs.length)
  | .set [x] => do return .set (← x.toSpec)
  | .set xs => .error (.malformedLiteral .set xs.length)
  | .tuple xs => do return .tuple (← SpecLiteral.toSpecs xs)
  | .mapping [(k, v)] => do
      let key ← k.toSpec
      let value ← v.toSpec
      return .mapping key value
  | .mapping es => .error (.malformedLiteral .mapping es.length)

def SpecLiteral.toSpecs : List SpecLiteral → Except InvalidSpec (List TypeSpec)
  | [] => .ok []
  | x :: xs => do
      let s ← x.toSpec
      let ss ← SpecLiteral.toSpecs xs
      return s :: ss

end

end TypeContracts
