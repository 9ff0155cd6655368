import TypeContracts.Value.Identity

/-!
Type specifications: descriptions of sets of acceptable values, with the signatures and interfaces they
are built from. Specs are trees. A predicate, an interface, a callable spec and an option set also
carry the key they were made with, because each of them is equal to itself whatever it holds.
-/

namespace TypeContracts

/-- A named test over values. What it tests is known to the host alone; two predicates are equal only
if they are the same one. -/
structure Predicate where
  key : Nat
  name : String
  deriving DecidableEq

/-- How a parameter receives arguments. -/
inductive ParamKind where
  /-- One argument, by position or by name. -/
  | positional
  /-- All surplus positional arguments, as a tuple. -/
  | varPositional
  /-- All surplus keyword arguments, as a dict. -/
  | varKeyword
  deriving DecidableEq

mutual

/-- A type specification. -/
inductive TypeSpec where
  /-- Every value. -/
  | any
  /-- Instances of the class or of a subclass. -/
  | plain (cls : Class)
  | predicate (p : Predicate)
  /-- What both specs accept. -/
  | both (left right : TypeSpec)
  /-- What some member accepts. -/
  | union (members : List TypeSpec)
  /-- Values with every member of the interface. -/
  | interface (i : Interface)
  /-- Callables that can stand in for the signature. -/
  | callable (key : Nat) (signature : Signature)
  /-- Lists whose every element the spec accepts. -/
  | list (element : TypeSpec)
  | set (element : TypeSpec)
  /-- Tuples with one spec per position. -/
  | tuple (elements : List TypeSpec)
  | mapping (key value : TypeSpec)
  /-- The absent value, and what the inner spec accepts. -/
  | optional (inner : TypeSpec)
  /-- Instances of exactly the class. -/
  | only (cls : Class)
  /-- Values equal to one of those listed. -/
  | options (key : Nat) (values : List Value)

/-- A parameter of a signature. Its type, if it is annotated with one, is for a variadic parameter that
of each collected element. -/
structure Param where
  name : String
  kind : ParamKind
  type : Option TypeSpec
  default : Option Value

/-- A callable's parameters in order and the spec of what it returns. -/
structure Signature where
  params : List Param
  returns : Option TypeSpec

/-- A named set of required members, in order of declaration, on top of those of a base. -/
structure Interface where
  key : Nat
  name : String
  base : Option Interface
  members : List (String × Member)

/-- A required member of an interface. -/
inductive Member where
  | attribute (spec : TypeSpec)
  | method (signature : Signature)

end

instance : Inhabited TypeSpec := ⟨.any⟩
instance : Inhabited Signature := ⟨⟨[], none⟩⟩

/-! ## Size -/

mutual

/-- The number of nodes of a spec, those of inherited interface members included. -/
def TypeSpec.size : TypeSpec → Nat
  | .any => 1
  | .plain _ => 1
  | .predicate _ => 1
  | .both left right => 1 + left.size + right.size
  | .union members => 1 + TypeSpec.sizeAll members
  | .interface i => 1 + i.size
  | .callable _ signature => 1 + signature.size
  | .list element => 1 + element.size
  | .set element => 1 + element.size
  | .tuple elements => 1 + TypeSpec.sizeAll elements
  | .mapping key value => 1 + key.size + value.size
  | .optional inner => 1 + inner.size
  | .only _ => 1
  | .options _ _ => 1

def TypeSpec.sizeAll : List TypeSpec → Nat
  | [] => 0
  | s :: ss => s.size + TypeSpec.sizeAll ss

def TypeSpec.sizeOption : Option TypeSpec → Nat
  | none => 0
  | some s => 1 + s.size

def Param.size : Param → Nat
  | ⟨_, _, type, _⟩ => 1 + TypeSpec.sizeOption type

def Param.sizeAll : List Param → Nat
  | [] => 0
  | p :: ps => p.size + Param.sizeAll ps

def Signature.size : Signature → Nat
  | ⟨params, returns⟩ => 1 + Param.sizeAll params + TypeSpec.sizeOption returns

def Interface.size : Interface → Nat
  | ⟨_, _, base, members⟩ => 1 + Interface.sizeOption base + Member.sizeAll members

def Interface.sizeOption : Option Interface → Nat
  | none => 0
  | some i => i.size

def Member.size : Member → Nat
  | .attribute spec => 1 + spec.size
  | .method signature => 1 + signature.size

def Member.sizeAll : List (String × Member) → Nat
  | [] => 0
  | (_, m) :: ms => m.size + Member.sizeAll ms

end

theorem Param.size_eq (p : Param) : p.size = 1 + TypeSpec.sizeOption p.type := by
  cases p; rfl

theorem Signature.size_eq (s : Signature) :
    s.size = 1 + Param.sizeAll s.params + TypeSpec.sizeOption s.returns := by
  cases s; rfl

theorem TypeSpec.size_pos (s : TypeSpec) : 0 < s.size := by
  cases s <;> simp only [TypeSpec.size] <;> omega

theorem TypeSpec.size_le_of_mem {s : TypeSpec} {ss : List TypeSpec} (h : s ∈ ss) :
    s.size ≤ TypeSpec.sizeAll ss := by
  induction ss with
  | nil => cases h
  | cons t ts ih =>
    rw [TypeSpec.sizeAll]
    rcases List.mem_cons.1 h with rfl | h
    · omega
    · have := ih h; omega

theorem Param.size_le_of_mem {p : Param} {ps : List Param} (h : p ∈ ps) :
    p.size ≤ Param.sizeAll ps := by
  induction ps with
  | nil => cases h
  | cons q qs ih =>
    rw [Param.sizeAll]
    rcases List.mem_cons.1 h with rfl | h
    · omega
    · have := ih h; omega

theorem Member.size_le_of_mem {m : String × Member} {ms : List (String × Member)} (h : m ∈ ms) :
    m.2.size ≤ Member.sizeAll ms := by
  induction ms with
  | nil => cases h
  | cons n ns ih =>
    rw [Member.sizeAll]
    rcases List.mem_cons.1 h with rfl | h
    · omega
    · have := ih h; omega

end TypeContracts
