import TypeContracts.Number.Decimal
import TypeContracts.Text.Quoted
import TypeContracts.Value.Basic

/-!
Written form of values. `Value.render` is the plain form, in which a text stands for itself;
`Value.inspect` is the form inside containers, where a text is quoted.
-/

namespace TypeContracts

namespace Value

/-- Floats are positional from 0.0001 up to sixteen digits before the point. -/
def floatStyle : NumberStyle := ⟨-4, 15⟩

/-- The names of the two truth values. -/
def boolName (b : Bool) : String := if b then "true" else "false"

mutual

/-- The form of a value inside a container. -/
def inspect : Value → String
  | .null => "None"
  | .bool b => boolName b
  | .int i => toString i.toInt
  | .float x => x.render floatStyle
  | .str s => quoted s
  | .list items => "[" ++ ", ".intercalate (inspectAll items) ++ "]"
  | .tuple items =>
      "(" ++ ", ".intercalate (inspectAll items) ++ (if items.length = 1 then ",)" else ")")
  | .set items => "\x7b" ++ ", ".intercalate (inspectAll items) ++ "\x7d"
  | .dict entries => "\x7b" ++ ", ".intercalate (inspectEntries entries) ++ "\x7d"
  | .object o => "<" ++ o.cls.name ++ " object>"
  | .function f => "<function " ++ f.name ++ ">"
  | .cls c => "<class " ++ c.name ++ ">"

def inspectAll : List Value → List String
  | [] => []
  | v :: vs => v.inspect :: inspectAll vs

def inspectEntries : List (Value × Value) → List String
  | [] => []
  | (k, v) :: es => (k.inspect ++ ": " ++ v.inspect) :: inspectEntries es

end

/-- The plain form of a value. -/
def render : Value → String
  | .str s => s
  | v => v.inspect

end Value

end TypeContracts
