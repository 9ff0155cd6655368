import TypeContracts.Spec.Render
import TypeContracts.World.Basic

/-!
Debugging form of classes, objects, functions and methods. It shows what the world knows about them.
-/

namespace TypeContracts

def Function.inspect (f : Function) : String :=
  partialRecord "Function"
    [("name", quoted f.name), ("signature", inspectOption Signature.inspect f.signature)]

def Method.inspect (m : Method) : String :=
  partialRecord "Method"
    [("name", quoted m.name), ("signature", inspectOption Signature.inspect m.signature)]

namespace World

variable (w : World)

def inspectClass (c : Class) : String :=
  record "Class"
    [("name", quoted c.name), ("super_class", inspectOption (fun d => quoted d.name) c.super?),
      ("methods", toString (w.members c).methods.length)]

def inspectObject (o : ObjectRef) : String :=
  record "Object"
    [("class", quoted o.cls.name), ("attributes", inspectList quoted (w.attributeNames o))]

/-- The debugging form of a value: of what it refers to, if it refers to something. -/
def inspect : Value → String
  | .cls c => w.inspectClass c
  | .object o => w.inspectObject o
  | .function f => (w.function f).inspect
  | v => v.inspect

end World

end TypeContracts
