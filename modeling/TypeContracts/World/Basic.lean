import TypeContracts.Spec.Signature
import TypeContracts.Table
import TypeContracts.World.Function

/-!
The world: what classes declare, what functions are, and which attributes each object has now. Classes
and functions are added and never change; only the attributes of objects are written and removed.
-/

namespace TypeContracts

/-- What a class itself declares. -/
structure ClassMembers where
  attributes : List (String × Value)
  methods : List (String × Method)

structure World where
  classes : List (Class × ClassMembers)
  functions : List (Nat × Function)
  objects : List (Nat × List (String × Value))
  /-- The next key for a class, function, object, spec or fetched method. -/
  nextKey : Nat

/-- A member found on a class without an instance. -/
inductive StaticMember where
  | attribute (v : Value)
  /-- A method and the class that declares it. -/
  | method (owner : Class) (m : Method)

/-- What can be learned about a value as something to call. -/
inductive Calling where
  | notCallable
  /-- It can be called, but its signature cannot be inspected. -/
  | unsigned
  | signed (signature : Signature)

namespace World

/-! ## Classes -/

/-- The methods of the built-in containers. They have no signature. -/
def containerMembers : ClassMembers :=
  ⟨[], [("len", ⟨"len", none, .length⟩), ("contains", ⟨"contains", none, .contains⟩)]⟩

/-- The world in which nothing but the built-in classes is declared. -/
def initial : World where
  classes := [Class.str, Class.list, Class.tuple, Class.set, Class.dict].map (·, containerMembers)
  functions := []
  objects := []
  nextKey := Class.firstFreeKey

variable (w : World)

def members (c : Class) : ClassMembers := (w.classes.lookup c).getD ⟨[], []⟩

def ownAttribute? (c : Class) (name : String) : Option Value := (w.members c).attributes.lookup name

def ownMethod? (c : Class) (name : String) : Option Method := (w.members c).methods.lookup name

/-- The methods declared on the class itself, by ascending name. -/
def ownMethods (c : Class) : List (String × Method) := Table.sortByName (w.members c).methods

/-- The class attribute of a name, on the nearest class of the hierarchy that declares it. -/
def classAttribute? (c : Class) (name : String) : Option Value :=
  c.hierarchy.findSome? fun d => w.ownAttribute? d name

/-- The method of a name with its declaring class, the nearest of the hierarchy. -/
def method? (c : Class) (name : String) : Option (Class × Method) :=
  c.hierarchy.findSome? fun d => (w.ownMethod? d name).map (d, ·)

/-- A member of the class: attributes come before methods, wherever they are declared. -/
def static? (c : Class) (name : String) : Option StaticMember :=
  match w.classAttribute? c name with
  | some v => some (.attribute v)
  | none => (w.method? c name).map fun (owner, m) => .method owner m

/-- Adds what a class declares to the methods of the classes below it, which override. -/
def inheritFrom (seen : List (String × Method)) (d : Class) : List (String × Method) :=
  (w.ownMethods d).foldl (fun table m => Table.putIfNew m.1 m.2 table) seen

/-- Every method an instance responds to, by ascending name; the nearest declaration of a name
counts. -/
def instanceMethods (c : Class) : List (String × Method) :=
  Table.sortByName (c.hierarchy.foldl w.inheritFrom [])

/-- Declares a class. Of several attributes or methods of one name the last counts. -/
def declareClass (name : String) (super : Class) (attributes : List (String × Value))
    (methods : List Method) : Class × World :=
  let c := .sub w.nextKey name super
  (c, { w with
    classes := (c, ⟨Table.ofList attributes, Table.ofList (methods.map fun m => (m.name, m))⟩)
      :: w.classes
    nextKey := w.nextKey + 1 })

/-! ## Objects -/

/-- The attributes of an object itself. -/
def attributesOf (o : ObjectRef) : List (String × Value) := (w.objects.lookup o.key).getD []

def instanceAttribute? (o : ObjectRef) (name : String) : Option Value :=
  (w.attributesOf o).lookup name

/-- The names of an object's own attributes, ascending. -/
def attributeNames (o : ObjectRef) : List String :=
  (Table.sortByName (w.attributesOf o)).map (·.1)

def setAttributes (o : ObjectRef) (attributes : List (String × Value)) : World :=
  { w with objects := Table.put o.key attributes w.objects }

def setAttribute (o : ObjectRef) (name : String) (v : Value) : World :=
  w.setAttributes o (Table.put name v (w.attributesOf o))

def removeAttribute (o : ObjectRef) (name : String) : World :=
  w.setAttributes o (Table.erase name (w.attributesOf o))

/-- A new instance of a class, without attributes. -/
def newObject (c : Class) : ObjectRef × World :=
  (⟨w.nextKey, c⟩, { w with nextKey := w.nextKey + 1 })

/-! ## Functions -/

/-- The function of a method with its receiver in place. -/
def boundFunction (fetch : Nat) (owner : Class) (m : Method) (receiver : Value) : Function :=
  ⟨.bound fetch ⟨owner, m.name⟩ receiver, m.signature, .bound m.body receiver⟩

/-- The function of a method that takes the receiver first. -/
def unboundFunction (fetch : Nat) (owner : Class) (m : Method) : Function :=
  ⟨.unbound fetch ⟨owner, m.name⟩, m.signature.map Signature.withReceiver, .unbound m.name m.body⟩

/-- What a callable is. -/
def function (c : Callable) : Function :=
  match c with
  | .declared key _ => (w.functions.lookup key).getD (.unknown c)
  | .bound fetch ⟨owner, name⟩ receiver =>
      match w.ownMethod? owner name with
      | some m => boundFunction fetch owner m receiver
      | none => .unknown c
  | .unbound fetch ⟨owner, name⟩ =>
      match w.ownMethod? owner name with
      | some m => unboundFunction fetch owner m
      | none => .unknown c

/-- Declares a function under a fresh identity. -/
def declareFunction (name : String) (signature : Option Signature) (action : Action) :
    Function × World :=
  let f := ⟨.declared w.nextKey name, signature, action⟩
  (f, { w with functions := (w.nextKey, f) :: w.functions, nextKey := w.nextKey + 1 })

/-- What can be learned about a value as something to call. Classes cannot be called. -/
def calling (v : Value) : Calling :=
  match v.callable? with
  | none => .notCallable
  | some c =>
      match (w.function c).signature with
      | none => .unsigned
      | some signature => .signed signature

/-! ## Attribute access -/

/-- Reads an attribute of a value: for objects first their own attributes, then class attributes, then
methods with the value as receiver. On a class its own members are read, and methods come without a
receiver. A method read is a new callable, told apart by `fetch`. -/
def getAttribute? (fetch : Nat) (v : Value) (name : String) : Option Value :=
  match v with
  | .cls c =>
      (w.static? c name).map fun
        | .attribute a => a
        | .method owner m => .function (unboundFunction fetch owner m).callable
  | .object o =>
      match w.instanceAttribute? o name with
      | some a => some a
      | none => ofClass
  | _ => ofClass
where
  /-- Class attributes and methods of the value's class. -/
  ofClass : Option Value :=
    match w.classAttribute? v.classOf name with
    | some a => some a
    | none =>
        (w.method? v.classOf name).map fun (owner, m) =>
          .function (boundFunction fetch owner m v).callable

end World

end TypeContracts
