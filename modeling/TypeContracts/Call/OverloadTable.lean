import TypeContracts.Call.Run
import TypeContracts.Session
import TypeContracts.Table

/-!
Overload tables: how the functions of an overload set are kept. A table files functions under their number
of parameters, where they stand in order of registration. Registration changes a table in place, so what
it did before it failed stays done. The choice among the functions looks at one number only; it is that of
the overload set with the same functions.
-/

namespace TypeContracts

/-- Functions of one name, filed under numbers of parameters. -/
structure OverloadTable where
  name : String
  byArity : List (Nat × List Function)

namespace Function

/-- The function with its signature, if it can be inspected. -/
def asOverload? (f : Function) : Option Overload := f.signature.map (⟨f, ·⟩)

/-- The signature of a function; it is an error if there is none. -/
def inspected {m : Type → Type} [Monad m] (h : Host m) (f : Function) : m Signature :=
  match f.signature with
  | some signature => return signature
  | none => h.fail (.invalidSpec (.opaqueSignature f.name))

end Function

/-- Computations that change a table in a session, under a logger that they cannot change. A fault leaves
the table and the session as they are at that moment. -/
abbrev Registering := ReaderT Logger (EStateM Fault (OverloadTable × Session))

namespace Registering

/-- A computation in the session; the table stays as it is. -/
def inSession {α : Type} (x : Exec α) : Registering α := fun l (t, s) =>
  match (x.run l).run s with
  | .ok a s' => .ok a (t, s')
  | .error fault s' => .error fault (t, s')

def table : Registering OverloadTable := return (← get).1

def updateTable (change : OverloadTable → OverloadTable) : Registering Unit :=
  modify fun (t, s) => (change t, s)

end Registering

namespace OverloadTable

open OverloadSet (logTarget applicable ambiguous atLeastAsSpecific)
open Registering (inSession updateTable)

/-- The table of a name without functions. -/
def empty (name : String) : OverloadTable := ⟨name, []⟩

variable (t : OverloadTable)

/-- The number of functions, under all numbers of parameters. -/
def size : Nat := (t.byArity.flatMap (·.2)).length

/-- The functions that are filed under a number of parameters. -/
def functions (arity : Nat) : List Function := (t.byArity.lookup arity).getD []

/-- Makes room for functions with a number of parameters, if there is none yet. -/
def makeRoom (arity : Nat) : OverloadTable := { t with byArity := Table.putIfNew arity [] t.byArity }

/-- Files a function after the others under a number of parameters. -/
def file (arity : Nat) (f : Function) : OverloadTable :=
  { t with byArity := Table.put arity (t.functions arity ++ [f]) t.byArity }

/-- The overload set with the functions of the table. -/
def set : OverloadSet := ⟨t.name, t.byArity.flatMap fun e => e.2.filterMap Function.asOverload?⟩

/-- Goes on if a function with the signature is not ambiguous with another one of the name. -/
def requireUnambiguous {m : Type → Type} [Monad m] (h : Host m) (name : String) (signature : Signature)
    (other : Function) : m Unit := do
  let otherSignature ← other.inspected h
  if ← ambiguous h signature otherSignature then
    h.log .warn logTarget fun _ =>
      name ++ signature.render ++ " is ambiguous with " ++ name ++ otherSignature.render
    h.fail (.ambiguousFunction name)

/-- Registers a function. Room for it is made before it is compared with the functions that are there. -/
def add (h : Host Exec) (f : Function) : Registering Unit := do
  let signature ← inSession (f.inspected h)
  inSession (h.lift (signature.requireFixedArity.mapError .invalidSpec))
  let arity := signature.params.length
  updateTable (·.makeRoom arity)
  let t ← Registering.table
  inSession ((t.functions arity).forM (requireUnambiguous h t.name signature))
  updateTable (·.file arity f)

variable {m : Type → Type} [Monad m] (h : Host m)

/-- The first of the candidates that is at least as specific as all of them. -/
def mostSpecific? (candidates : List Overload) : m (Option Overload) :=
  candidates.findM? fun o => candidates.allM fun p => atLeastAsSpecific h o.signature p.signature

/-- The function that the arguments choose. -/
def resolve (args : List Value) : m Function := do
  let candidates ← ((t.functions args.length).filterMap Function.asOverload?).filterM fun o =>
    applicable h o.signature args
  match ← mostSpecific? h candidates with
  | some o =>
      h.log .trace logTarget fun _ =>
        t.name ++ " dispatches to " ++ o.function.name ++ o.signature.render
      return o.function
  | none => h.fail (.functionNotFound t.name (args.map (·.classOf.name)))

/-- Calls the function that the arguments choose. -/
def call (args : List Value) : m Value := do
  (← t.resolve h args).call h (.ofPositional args)

/-- A single function that chooses among a copy of the table when it is called. -/
def toFunction : m Function := h.declare t.name none (.dispatch t.set)

end OverloadTable

end TypeContracts
