import TypeContracts.Spec.Equality
import TypeContracts.Spec.Interface
import TypeContracts.Spec.Render
import TypeContracts.World.Basic

/-!
Conformance: whether a value satisfies a spec (`satisfies`), and whether one spec describes no more than
another (`isSubtype`), judged from the specs alone. Both always answer. What they cannot decide
themselves, the outcome of a predicate, they ask of a `Probe`, to which they also explain each
structural mismatch; the monad is that of the probe, so the order of its calls is part of the answer.

Both go by recursion on the spec tested against, inherited interface members included, and then on
the candidate. The value plays no part, so objects may refer to each other in circles.
-/

namespace TypeContracts

/-- What a check may ask and tell: the outcome of a predicate on a value, and why something failed. -/
structure Probe (m : Type → Type) where
  test : Predicate → Value → m Bool
  explain : (Unit → String) → m Unit

namespace TypeSpec

/-- Specs that every value satisfies whatever its class. -/
def isTop : TypeSpec → Bool
  | .any => true
  | .plain c => c == .object
  | _ => false

/-- Specs of the absent value alone. -/
def isNoneType : TypeSpec → Bool
  | .plain c | .only c => c == .noneType
  | _ => false

/-- How an annotation is named in an explanation. -/
def describe (missing : String) : Option TypeSpec → String
  | none => missing
  | some s => s.render

end TypeSpec

namespace Conformance

variable {m : Type → Type} [Monad m]

/-- A negative answer with its explanation. -/
def refuse (p : Probe m) (message : Unit → String) : m Bool := do
  p.explain message
  return false

variable (w : World) (p : Probe m)

mutual

/-- Whether the value satisfies the spec. -/
def satisfies (v : Value) : TypeSpec → m Bool
  | .any => return true
  | .plain c => return v.classOf.isSubclassOf c
  | .predicate q => p.test q v
  | .both left right => do if ← satisfies v left then satisfies v right else return false
  | .union members => members.attach.anyM fun s => satisfies v s.1
  | .interface i => implements v i
  | .callable _ signature => callableConforms v signature
  | .list element =>
      match v with
      | .list items => items.allM fun x => satisfies x element
      | _ => return false
  | .set element =>
      match v with
      | .set items => items.allM fun x => satisfies x element
      | _ => return false
  | .tuple elements =>
      match v with
      | .tuple items =>
          if items.length = elements.length then
            (items.zip elements.attach).allM fun x => satisfies x.1 x.2.1
          else return false
      | _ => return false
  | .mapping key value =>
      match v with
      | .dict entries => entries.allM fun e => do
          if ← satisfies e.1 key then satisfies e.2 value else return false
      | _ => return false
  | .optional inner => if v.isNull then return true else satisfies v inner
  | .only c => return v.classOf == c
  | .options _ values => return v.isIn values
termination_by s => (s.size, 0, 0)
decreasing_by
  all_goals simp only [Prod.lex_def, TypeSpec.size, Nat.lt_irrefl, false_or, true_and]
  all_goals first
    | omega
    | (have h := TypeSpec.size_le_of_mem s.2; omega)
    | (have h := TypeSpec.size_le_of_mem x.2.2; omega)

/-- Whether the value is a callable that can stand in for the signature. One that cannot be inspected
is given the benefit of the doubt. -/
def callableConforms (v : Value) (expected : Signature) : m Bool :=
  match w.calling v with
  | .notCallable => refuse p fun _ => v.classOf.name ++ " is not callable"
  | .unsigned => return true
  | .signed signature => signatureConforms signature expected
termination_by (expected.size, 0, 1)
decreasing_by simp [Prod.lex_def]

/-- Whether an attribute read from a value is what a member asks for. -/
def memberConforms (found : Value) : Member → m Bool
  | .attribute spec => satisfies found spec
  | .method signature => callableConforms found signature
termination_by member => (member.size, 0, 0)
decreasing_by
  all_goals simp only [Prod.lex_def, Member.size]
  all_goals omega

/-- Whether the value has every member of the interface, each of them conforming. -/
def implements (v : Value) (i : Interface) : m Bool :=
  i.allMembers.attach.allM fun ⟨(name, member), _⟩ =>
    match w.getAttribute? 0 v name with
    | none =>
        refuse p fun _ =>
          v.classOf.name ++ " lacks member '" ++ name ++ "' required by " ++ i.name
    | some found => do
        if ← memberConforms found member then return true
        else refuse p fun _ =>
          "member '" ++ name ++ "' of " ++ v.classOf.name ++ " does not conform to " ++ i.name
termination_by (i.size, 0, 0)
decreasing_by
  rename_i h
  exact .left _ _ (Interface.size_lt_of_mem h)

/-- Whether the candidate describes no more than the target. Equal specs and the specs that accept
everything are settled first; then the candidate is taken apart, after it the target. -/
def isSubtype (candidate target : TypeSpec) : m Bool :=
  if candidate.equal target || target.isTop then return true
  else match candidate with
    | .union members => members.attach.allM fun s => isSubtype s.1 target
    | .optional inner => do
        if ← isSubtype (.plain .noneType) target then isSubtype inner target else return false
    | .options _ values => values.allM fun v => satisfies v target
    | .both left right => do
        if ← isSubtype left target then return true else isSubtype right target
    | whole => isSubtypeOfParts whole target
termination_by (target.size, candidate.size, 2)
decreasing_by
  all_goals simp only [Prod.lex_def, TypeSpec.size, Nat.lt_irrefl, false_or, true_and]
  all_goals first
    | omega
    | (have h := TypeSpec.size_le_of_mem s.2; omega)
    | (have h := TypeSpec.size_pos ‹TypeSpec›; omega)

/-- `isSubtype` for a candidate that is not taken apart itself. -/
def isSubtypeOfParts (candidate target : TypeSpec) : m Bool :=
  match target with
  | .union members => members.attach.anyM fun s => isSubtype candidate s.1
  | .optional inner =>
      if candidate.isNoneType then return true else isSubtype candidate inner
  | whole => isSubtypeByShape candidate whole
termination_by (target.size, candidate.size, 1)
decreasing_by
  all_goals simp only [Prod.lex_def, TypeSpec.size, Nat.lt_irrefl, false_or, true_and]
  all_goals first
    | omega
    | (have h := TypeSpec.size_le_of_mem s.2; omega)

/-- `isSubtype` for two specs neither of which is taken apart: their shapes have to agree. -/
def isSubtypeByShape (candidate target : TypeSpec) : m Bool :=
  match candidate, target with
  | .plain c, .plain d | .only c, .plain d => return c.isSubclassOf d
  | .plain c, .only d | .only c, .only d => return c == d
  | .plain c, .interface i | .only c, .interface i => classImplements c i
  | .interface narrow, .interface wide => interfaceConforms narrow wide
  | .callable _ narrow, .callable _ wide => signatureConforms narrow wide
  | .list narrow, .list wide | .set narrow, .set wide => isSubtype narrow wide
  | .tuple narrow, .tuple wide =>
      if narrow.length = wide.length then
        (narrow.zip wide.attach).allM fun s => isSubtype s.1 s.2.1
      else return false
  | .mapping k v, .mapping l x => do
      if ← isSubtype k l then isSubtype v x else return false
  | _, _ => return false
termination_by (target.size, candidate.size, 0)
decreasing_by
  all_goals simp only [Prod.lex_def, TypeSpec.size, Nat.lt_irrefl]
  all_goals first
    | omega
    | (have h := TypeSpec.size_le_of_mem s.2.2; omega)

/-- Whether a callable with the candidate signature can stand in for one with the expected signature:
parameters agree by position and name, and those left over have defaults. -/
def signatureConforms (candidate expected : Signature) : m Bool := do
  if candidate.isVariadic then
    refuse p fun _ => "signature " ++ candidate.render ++ " is variadic"
  else if candidate.params.length < expected.params.length then
    refuse p fun _ =>
      "signature " ++ candidate.render ++ " takes fewer parameters than " ++ expected.render
  else match (candidate.params.drop expected.params.length).find? (!·.hasDefault) with
    | some extra =>
        refuse p fun _ =>
          "signature " ++ candidate.render ++ " requires extra parameter '" ++ extra.name ++ "'"
    | none =>
        if ← (candidate.params.zip expected.params.attach).allM fun q => paramConforms q.1 q.2.1 then
          if ← annotationConforms candidate.returns expected.returns then return true
          else refuse p fun _ =>
            "return of " ++ candidate.render ++ " does not conform to " ++ expected.render
        else return false
termination_by (expected.size, 0, 0)
decreasing_by
  · have := Param.size_le_of_mem q.2.2
    exact .left _ _ (by rw [expected.size_eq]; omega)
  · exact .left _ _ (by rw [expected.size_eq]; omega)

/-- Whether two parameters agree in name and the annotation of the first conforms to the second's. -/
def paramConforms (candidate expected : Param) : m Bool := do
  if candidate.name != expected.name then
    refuse p fun _ =>
      "parameter '" ++ candidate.name ++ "' found where '" ++ expected.name ++ "' was expected"
  else if ← annotationConforms candidate.type expected.type then return true
  else refuse p fun _ =>
    "parameter '" ++ candidate.name ++ "' is "
      ++ TypeSpec.describe "unannotated" candidate.type ++ " but "
      ++ TypeSpec.describe "anything" expected.type ++ " is required"
termination_by (expected.size, 0, 0)
decreasing_by
  exact .left _ _ (by rw [expected.size_eq]; omega)

/-- Whether an annotation conforms to an expected one: nothing expected accepts everything, and no
annotation meets no expectation. -/
def annotationConforms (candidate expected : Option TypeSpec) : m Bool :=
  match candidate, expected with
  | _, none => return true
  | none, some _ => return false
  | some c, some e => isSubtype c e
termination_by (TypeSpec.sizeOption expected, 0, 0)
decreasing_by
  exact .left _ _ (by rw [TypeSpec.sizeOption]; omega)

/-- Whether the class has a method, or a callable attribute, of the name that can stand in for the
signature. -/
def classProvides (c : Class) (name : String) (expected : Signature) : m Bool :=
  match w.static? c name with
  | none => return false
  | some (.attribute v) => callableConforms v expected
  | some (.method _ method) =>
      match method.signature with
      | none => return true
      | some signature => signatureConforms signature expected
termination_by (expected.size, 0, 2)
decreasing_by all_goals simp [Prod.lex_def]

/-- Whether instances of the class have every method of the interface. Attributes belong to the
instances and are not looked at. -/
def classImplements (c : Class) (i : Interface) : m Bool :=
  i.allMembers.attach.allM fun ⟨(name, member), _⟩ =>
    match member with
    | .attribute _ => return true
    | .method expected => do
        if ← classProvides c name expected then return true
        else refuse p fun _ =>
          "class " ++ c.name ++ " does not provide method '" ++ name ++ "' of " ++ i.name
termination_by (i.size, 0, 0)
decreasing_by
  rename_i h
  have := Interface.size_lt_of_mem h
  simp only [Member.size] at this
  exact .left _ _ (by omega)

/-- Whether the narrow interface is derived from the wide one, or has each of its members in a
compatible form. -/
def interfaceConforms (narrow wide : Interface) : m Bool :=
  if narrow.derivesFrom wide then return true
  else wide.allMembers.attach.allM fun ⟨(name, wanted), _⟩ =>
    match narrow.member? name, wanted with
    | some (.attribute given), .attribute want => isSubtype given want
    | some (.method given), .method want => signatureConforms given want
    | _, _ =>
        refuse p fun _ =>
          narrow.name ++ " has no compatible member '" ++ name ++ "' of " ++ wide.name
termination_by (wide.size, 0, 0)
decreasing_by
  all_goals
    rename_i h
    have := Interface.size_lt_of_mem h
    simp only [Member.size] at this
    exact .left _ _ (by omega)

end

end Conformance

end TypeContracts
