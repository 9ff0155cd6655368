import TypeContracts.Spec.Basic

/-!
Functions: what a callable is known to be. A `Function` pairs an optional signature with an action. An
action is either code of the host, named by a key, or built from other actions: a method with or
without its receiver, a checked wrapper, or a choice among overloads.
-/

namespace TypeContracts

/-- What an enforced function checks. -/
structure EnforceConfig where
  /-- Check annotated arguments before the body runs. -/
  checkArguments : Bool
  /-- Check the result against its annotation. -/
  checkReturn : Bool
  /-- Let the absent value through every annotation. -/
  nonePasses : Bool
  deriving DecidableEq

/-- The code of a method: one of the two methods of built-in containers, or code of the host. -/
inductive MethodBody where
  | length
  | contains
  | host (routine : Nat)
  deriving DecidableEq

/-- A method as its class declares it. The signature never lists the receiver. -/
structure Method where
  name : String
  signature : Option Signature
  body : MethodBody

mutual

/-- What happens when a function runs on bound arguments. -/
inductive Action where
  | host (routine : Nat)
  | bound (body : MethodBody) (receiver : Value)
  /-- A method that takes its receiver as the first argument. -/
  | unbound (name : String) (body : MethodBody)
  /-- `inner`, with its arguments checked before and its result after. -/
  | checked (config : EnforceConfig) (name : String) (signature : Signature) (inner : Action)
  | dispatch (set : OverloadSet)

/-- A callable with its signature and action; without a signature it cannot be inspected. -/
structure Function where
  callable : Callable
  signature : Option Signature
  action : Action

/-- A function in an overload set, with the signature it is chosen by. -/
structure Overload where
  function : Function
  signature : Signature

/-- Functions of one name, chosen among by their arguments, in order of registration. -/
structure OverloadSet where
  name : String
  overloads : List Overload

end

namespace Function

def name (f : Function) : String := f.callable.name

/-- What a callable is taken for when nothing is known about it: it refuses every call. -/
def unknown (c : Callable) : Function := ⟨c, none, .dispatch ⟨c.name, []⟩⟩

end Function

end TypeContracts
