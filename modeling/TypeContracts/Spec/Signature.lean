import TypeContracts.Spec.Basic
import TypeContracts.Spec.Invalid

/-!
Signatures: parameters in order, and the rule that decides which parameter lists are signatures.
Required parameters come first, then those with defaults, then at most one that collects surplus
positional arguments and at most one that collects surplus keyword arguments.
-/

namespace TypeContracts

namespace Param

def hasDefault (p : Param) : Bool := p.default.isSome

def isVariadic (p : Param) : Bool := p.kind != .positional

/-- Whether a call may leave the parameter out because it has a default. -/
def isOptional (p : Param) : Bool := p.kind == .positional && p.hasDefault

/-- The parameter with a default value; a variadic parameter ignores it. -/
def withDefault (p : Param) (v : Value) : Param :=
  if p.kind = .positional then { p with default := some v } else p

end Param

namespace Signature

def param? (s : Signature) (name : String) : Option Param := s.params.find? (·.name == name)

/-- The parameters that take one argument each. -/
def fixed (s : Signature) : List Param := s.params.filter (!·.isVariadic)

def arity (s : Signature) : Nat := s.fixed.length

def isVariadic (s : Signature) : Bool := s.params.any (·.isVariadic)

/-- Whether some parameter collects arguments in the given way. -/
def collects (s : Signature) (kind : ParamKind) : Bool := s.params.any (·.kind == kind)

/-- Fails at the first variadic parameter. -/
def requireFixedArity (s : Signature) : Except InvalidSpec Unit :=
  match s.params.find? (·.isVariadic) with
  | some p => .error (.variadicSignature p.name)
  | none => .ok ()

/-- The signature with an unannotated parameter `self` in front. -/
def withReceiver (s : Signature) : Signature :=
  ⟨⟨"self", .positional, none, none⟩ :: s.params, s.returns⟩

/-! ## Building -/

/-- Whether `p` may not stand after the parameters `before`, by its kind. -/
def misplacedAfter (before : List Param) (p : Param) : Bool :=
  match p.kind with
  | .positional | .varPositional => before.any (·.isVariadic)
  | .varKeyword => before.any (·.kind == .varKeyword)

/-- The fault of `p` as the next parameter after `before`, if it has one. -/
def fault? (before : List Param) (p : Param) : Option InvalidSpec :=
  if before.any (·.name == p.name) then some (.duplicateParameter p.name)
  else if misplacedAfter before p then some (.misplacedVariadic p.name)
  else if p.kind = .positional ∧ !p.hasDefault ∧ before.any (·.isOptional) then
    some (.nonDefaultAfterDefault p.name)
  else none

/-- The first fault of the parameters that follow `before`. -/
def firstFault? (before : List Param) : List Param → Option InvalidSpec
  | [] => none
  | p :: rest =>
      match fault? before p with
      | some invalid => some invalid
      | none => firstFault? (before ++ [p]) rest

/-- The signature of the given parameters, or the fault of the first parameter that is out of order. -/
def build (params : List Param) (returns : Option TypeSpec) : Except InvalidSpec Signature :=
  match firstFault? [] params with
  | some invalid => .error invalid
  | none => .ok ⟨params, returns⟩

end Signature

end TypeContracts
