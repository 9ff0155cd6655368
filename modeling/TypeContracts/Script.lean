import TypeContracts.Call.Run
import TypeContracts.Session

/-!
Scripts: predicates and routines described by data, and the host that carries them out in a session.
Every test and every routine leaves an event when it starts, so that the session shows what was
evaluated and in which order.
-/

namespace TypeContracts

/-- What a predicate of a script tests. -/
inductive Test where
  | always
  | never
  /-- Integers divisible by two. -/
  | even
  /-- Integers above the bound. -/
  | above (bound : Int)
  /-- Texts of fewer bytes than the bound. -/
  | shorter (bound : Int)
  | equals (v : Value)
  | has (name : String)
  /-- Values that satisfy the spec. -/
  | satisfies (spec : TypeSpec)
  | panic

/-- What a routine of a script does with its bound arguments. -/
inductive Body where
  | nothing
  | first
  | args
  | count
  /-- The receiver, for methods, and the arguments. -/
  | receiver
  | const (v : Value)
  | nth (index : Nat)
  | fail (reason : String)
  /-- Sets an attribute of an object to the first argument. -/
  | setAttribute (o : ObjectRef) (name : String)
  /-- Reads an attribute of the receiver or, in a function, of the first argument. -/
  | getAttribute (name : String)
  /-- Calls another callable with the same arguments. -/
  | call (callee : Callable)
  /-- Calls the first argument with the others. -/
  | apply
  /-- The given text and the arguments' plain forms. -/
  | display (text : String)
  | panic (text : String)

structure Routine where
  name : String
  body : Body

/-- The tests and routines of a script by their keys. -/
structure Script where
  tests : List (Nat × Test)
  routines : List (Nat × Routine)

namespace Script

/-- How deep routines may call each other. -/
def maxDepth : Nat := 100000

def depthMessage : String := "call depth exceeded"

/-- Evaluates a test. `inner` answers for the specs inside it. -/
def evaluate (inner : Host Exec) (t : Test) (v : Value) : Exec Bool :=
  match t with
  | .always => return true
  | .never => return false
  | .even =>
      match v with
      | .int i => return i.toInt % 2 == 0
      | _ => return false
  | .above bound =>
      match v with
      | .int i => return bound < i.toInt
      | _ => return false
  | .shorter bound =>
      match v with
      | .str s => return (s.utf8ByteSize : Int) < bound
      | _ => return false
  | .equals w => return v.equal w
  | .has name => return ((← Exec.world).getAttribute? 0 v name).isSome
  | .satisfies spec => inner.satisfies v spec
  | .panic => Exec.panic "predicate failed"

/-- Calls a callable with positional arguments. -/
def callWith (inner : Host Exec) (callee : Callable) (args : List Value) : Exec Value := do
  ((← Exec.world).function callee).call inner (.ofPositional args)

/-- Carries out a routine. `inner` answers for the calls inside it. -/
def perform (inner : Host Exec) (r : Routine) (receiver : Option Value) (args : List Value) :
    Exec Value :=
  match r.body with
  | .nothing => return .null
  | .first => return args.headD .null
  | .args => return .tuple args
  | .count => return .int (Int64.ofNat args.length)
  | .receiver => return .tuple (receiver.toList ++ args)
  | .const v => return v
  | .nth index => return args[index]?.getD .null
  | .fail reason => Exec.fail (.callFailed r.name reason)
  | .setAttribute o name =>
      Exec.updateWorld fun w => (.null, w.setAttribute o name (args.headD .null))
  | .getAttribute name =>
      match receiver <|> args.head? with
      | none => return .null
      | some v => return (← Exec.getAttribute? v name).getD .null
  | .call callee => callWith inner callee args
  | .apply =>
      match args with
      | .function f :: rest => callWith inner f rest
      | args => Exec.fail (.notCallable (args.headD .null).classOf.name)
  | .display text => return .str (text ++ ",".intercalate (args.map Value.render))
  | .panic text => Exec.panic text

variable (script : Script)

/-- The host of a script, whose routines may call each other to the given depth. -/
def hostTo : Nat → Host Exec
  | 0 => {
      world := Exec.world
      test := fun _ _ => Exec.panic depthMessage
      run := fun _ _ _ => Exec.panic depthMessage
      declare := Exec.declare
      log := Exec.log
      fail := Exec.fail }
  | depth + 1 => {
      world := Exec.world
      test := fun p v => do
        Exec.event ("test " ++ p.name)
        match script.tests.lookup p.key with
        | some t => evaluate (hostTo depth) t v
        | none => return false
      run := fun key receiver args => do
        match script.routines.lookup key with
        | some r =>
            Exec.event ("call " ++ r.name)
            perform (hostTo depth) r receiver args
        | none => return .null
      declare := Exec.declare
      log := Exec.log
      fail := Exec.fail }

/-- The host of a script. -/
def host : Host Exec := script.hostTo maxDepth

end Script

end TypeContracts
