/-!
Classes with single inheritance. A class is told apart by its key, never by its name, and carries its
superclass, so that every inheritance chain is finite and ends in the root class `object`. What a
class declares is kept apart from it: the world has its `ClassMembers` in `World.classes`.
-/

namespace TypeContracts

/-- A class: the root, or a class with a key, a name and a superclass. -/
inductive Class where
  | object
  | sub (key : Nat) (name : String) (super : Class)
  deriving DecidableEq, Inhabited

namespace Class

def name : Class → String
  | .object => "object"
  | .sub _ name _ => name

/-- The superclass; only the root has none. -/
def super? : Class → Option Class
  | .object => none
  | .sub _ _ super => some super

/-- The inheritance chain, from the class up to the root. -/
def hierarchy : Class → List Class
  | .object => [.object]
  | .sub key name super => .sub key name super :: super.hierarchy

/-- Whether a class is another one or inherits from it. -/
def isSubclassOf (c d : Class) : Bool :=
  c == d || match c with
    | .object => false
    | .sub _ _ super => super.isSubclassOf d

/-! ## The classes of built-in values -/

def noneType : Class := .sub 1 "NoneType" .object
def int : Class := .sub 2 "int" .object
/-- Truth values count as integers. -/
def bool : Class := .sub 3 "bool" int
def float : Class := .sub 4 "float" .object
def str : Class := .sub 5 "str" .object
def list : Class := .sub 6 "list" .object
def tuple : Class := .sub 7 "tuple" .object
def set : Class := .sub 8 "set" .object
def dict : Class := .sub 9 "dict" .object
def function : Class := .sub 10 "function" .object
/-- The class of classes. -/
def type : Class := .sub 11 "type" .object

/-- Every built-in class. -/
def builtins : List Class :=
  [object, noneType, int, bool, float, str, list, tuple, set, dict, function, type]

/-- The first key that no built-in class uses. -/
def firstFreeKey : Nat := 12

/-- The built-in class of a name. -/
def builtin? (name : String) : Option Class := builtins.find? (·.name == name)

end Class

end TypeContracts
