/-!
What makes a spec, a signature or an interface malformed, and the wording of each fault.
-/

namespace TypeContracts

/-- The literals that hold exactly one element, or one entry. -/
inductive LiteralShape where
  | list
  | set
  | mapping
  deriving DecidableEq

def LiteralShape.name : LiteralShape → String
  | .list => "list"
  | .set => "set"
  | .mapping => "mapping"

/-- A fault found while a spec, a signature or an interface is built. -/
inductive InvalidSpec where
  | emptyUnion
  /-- A leaf of a literal is a value that is no class, here in its written form. -/
  | notAType (found : String)
  /-- A literal holds another number of elements than one. -/
  | malformedLiteral (shape : LiteralShape) (got : Nat)
  | variadicSignature (param : String)
  | duplicateParameter (name : String)
  | nonDefaultAfterDefault (name : String)
  | misplacedVariadic (name : String)
  | duplicateMember (name : String)
  /-- A callable without a signature, where its annotations are needed. -/
  | opaqueSignature (function : String)
  deriving DecidableEq

def InvalidSpec.message : InvalidSpec → String
  | .emptyUnion => "union requires at least one member"
  | .notAType found => "expected a type or spec, found value " ++ found
  | .malformedLiteral shape got =>
      shape.name ++ " spec literal needs exactly 1 element(s), got " ++ toString got
  | .variadicSignature param =>
      "variadic parameter '" ++ param ++ "' is not supported in typedefs"
  | .duplicateParameter name => "duplicate parameter '" ++ name ++ "'"
  | .nonDefaultAfterDefault name =>
      "parameter '" ++ name ++ "' without a default follows a parameter with a default"
  | .misplacedVariadic name => "misplaced variadic parameter '" ++ name ++ "'"
  | .duplicateMember name => "interface member '" ++ name ++ "' declared twice"
  | .opaqueSignature function => "function '" ++ function ++ "' has no inspectable signature"

end TypeContracts
