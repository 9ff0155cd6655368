import TypeContracts.Host

/-!
Sessions: one way to hold a world while calls run. A session keeps the world and a record of what was
seen of the calls: events, and the lines that the logger printed. A fault ends a call early and leaves
the session as it is at that moment.
-/

namespace TypeContracts

/-- What can be seen of a call from outside. -/
inductive Note where
  /-- A routine started or a predicate was evaluated. -/
  | event (text : String)
  /-- The logger printed a line. -/
  | line (text : String)
  deriving DecidableEq

structure Session where
  world : World
  notes : Array Note

/-- Why a call ended early: an error of the library, or a routine or predicate that gave up. -/
inductive Fault where
  | error (e : Error)
  | panic (text : String)
  deriving DecidableEq

/-- Computations in a session, under a logger that they cannot change. -/
abbrev Exec := ReaderT Logger (EStateM Fault Session)

namespace Session

/-- A session in which nothing is declared yet. -/
def initial : Session := ⟨.initial, #[]⟩

end Session

namespace Exec

def note (n : Note) : Exec Unit :=
  modify fun s => { s with notes := s.notes.push n }

def event (text : String) : Exec Unit := note (.event text)

/-- Prints a record if the logger lets it through. -/
def log (level : Level) (target : String) (message : Unit → String) : Exec Unit := do
  let logger ← read
  if logger.enabled level then note (.line (logger.line level target (message ())))

def world : Exec World := return (← get).world

/-- Replaces the world by what `change` makes of it. -/
def updateWorld {α : Type} (change : World → α × World) : Exec α := do
  let s ← get
  let (a, w) := change s.world
  set { s with world := w }
  return a

def declare (name : String) (signature : Option Signature) (action : Action) : Exec Function :=
  updateWorld fun w => w.declareFunction name signature action

def fail {α : Type} (e : Error) : Exec α := throw (.error e)

def panic {α : Type} (text : String) : Exec α := throw (.panic text)

/-- A fresh key. -/
def freshKey : Exec Nat :=
  updateWorld fun w => (w.nextKey, { w with nextKey := w.nextKey + 1 })

/-- Reads an attribute of a value to keep it: a method read becomes a callable of its own. -/
def getAttribute? (v : Value) (name : String) : Exec (Option Value) := do
  let fetch ← freshKey
  return (← world).getAttribute? fetch v name

end Exec

end TypeContracts
