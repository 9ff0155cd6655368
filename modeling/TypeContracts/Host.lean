import TypeContracts.Conformance
import TypeContracts.Error
import TypeContracts.Log
import TypeContracts.World.Basic

/-!
The host: everything that calls need from their surroundings. The host holds the world, knows what
predicates test and what its routines do, prints log records and raises errors. All that happens
during a call happens in the host's monad, in the order in which it is asked for.
-/

namespace TypeContracts

structure Host (m : Type → Type) where
  /-- The world as it is now. -/
  world : m World
  test : Predicate → Value → m Bool
  /-- Runs a routine on bound arguments; a method's routine also gets the receiver. -/
  run : (routine : Nat) → (receiver : Option Value) → List Value → m Value
  /-- Makes a new function known. -/
  declare : (name : String) → Option Signature → Action → m Function
  /-- Logs a record; the message is made only if the record is printed. -/
  log : Level → (target : String) → (Unit → String) → m Unit
  fail : {α : Type} → Error → m α

namespace Host

variable {m : Type → Type} [Monad m] (h : Host m)

/-- What conformance checks ask of the host; mismatches are explained at the finest level. -/
def probe : Probe m := ⟨h.test, h.log .trace "conform::check::matcher"⟩

/-- Whether a value satisfies a spec, in the world as it is now. -/
def satisfies (v : Value) (s : TypeSpec) : m Bool := do
  Conformance.satisfies (← h.world) h.probe v s

/-- Whether one spec describes no more than another, in the world as it is now. -/
def isSubtype (candidate target : TypeSpec) : m Bool := do
  Conformance.isSubtype (← h.world) h.probe candidate target

/-- Whether a callable with one signature can stand in for one with another. -/
def signatureConforms (candidate expected : Signature) : m Bool := do
  Conformance.signatureConforms (← h.world) h.probe candidate expected

/-- Goes on with a result, or raises its error. -/
def lift {α : Type} : Except Error α → m α
  | .ok a => pure a
  | .error e => h.fail e

end Host

end TypeContracts
