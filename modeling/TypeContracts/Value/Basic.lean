import TypeContracts.Class
import TypeContracts.Number.Binary64

/-!
Values: what a check looks at. Numbers, texts and containers are held by content. Objects, callables
and classes are held by reference: `ObjectRef`, `Callable` and `Class` say which one is meant, and the
`World` says what it currently is.
-/

namespace TypeContracts

/-- An object: its identity and the class it was made from, which never changes. -/
structure ObjectRef where
  key : Nat
  cls : Class
  deriving DecidableEq

/-- A method: the class that declares it and the name it is declared under. -/
structure MethodRef where
  owner : Class
  name : String
  deriving DecidableEq

mutual

/-- A runtime value. -/
inductive Value where
  /-- The absence of a value. -/
  | null
  | bool (b : Bool)
  | int (i : Int64)
  | float (x : Binary64)
  | str (s : String)
  | list (items : List Value)
  | tuple (items : List Value)
  /-- Distinct elements when made by `Value.setOf`. -/
  | set (items : List Value)
  /-- Entries with distinct keys when made by `Value.dictOf`. -/
  | dict (entries : List (Value × Value))
  | object (o : ObjectRef)
  | function (f : Callable)
  | cls (c : Class)

/-- A callable value. Every time a method is read from a value or a class a new callable arises;
`fetch` tells these apart, and 0 stands for a callable that a check reads and drops again. -/
inductive Callable where
  | declared (key : Nat) (name : String)
  /-- A method with its receiver already in place. -/
  | bound (fetch : Nat) (method : MethodRef) (receiver : Value)
  /-- A method as a plain function that takes the receiver first. -/
  | unbound (fetch : Nat) (method : MethodRef)

end

instance : Inhabited Value := ⟨.null⟩

/-- The name a callable was declared under. -/
def Callable.name : Callable → String
  | .declared _ name => name
  | .bound _ method _ | .unbound _ method => method.name

namespace Value

/-- The class of a value: for objects the class they were made from, for classes `type`. -/
def classOf : Value → Class
  | .null => .noneType
  | .bool _ => .bool
  | .int _ => .int
  | .float _ => .float
  | .str _ => .str
  | .list _ => .list
  | .tuple _ => .tuple
  | .set _ => .set
  | .dict _ => .dict
  | .object o => o.cls
  | .function _ => .function
  | .cls _ => .type

def isNull : Value → Bool
  | .null => true
  | _ => false

/-- The callable inside a function value. -/
def callable? : Value → Option Callable
  | .function f => some f
  | _ => none

end Value

end TypeContracts
