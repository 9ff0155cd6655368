import TypeContracts.Host

/-!
Overload sets: functions of one name among which the arguments of a call choose. Applicable are those
with as many parameters as arguments whose annotations accept them; chosen is the one that is at least
as specific as every applicable one, position by position. Registration refuses a function that would
compete with another.
-/

namespace TypeContracts

namespace Signature

/-- The annotations of the parameters in order. -/
def annotations (s : Signature) : List (Option TypeSpec) := s.params.map (·.type)

end Signature

namespace OverloadSet

/-- The target of the log records about overload sets. -/
def logTarget : String := "conform::overload"

/-- The set of a name without functions. -/
def empty (name : String) : OverloadSet := ⟨name, []⟩

def size (set : OverloadSet) : Nat := set.overloads.length

variable {m : Type → Type} [Monad m] (h : Host m)

/-- Whether one annotation is strictly narrower than another. No annotation is the widest. -/
def narrower (narrow wide : Option TypeSpec) : m Bool :=
  if TypeSpec.equalOption narrow wide then return false
  else match narrow, wide with
    | _, none => return true
    | none, some _ => return false
    | some n, some w => h.isSubtype n w

/-- Whether at each position one signature is equal to or narrower than another. -/
def atLeastAsSpecific (narrow wide : Signature) : m Bool :=
  (narrow.annotations.zip wide.annotations).allM fun (n, w) =>
    if TypeSpec.equalOption n w then return true else narrower h n w

/-- How two signatures stand to each other, position by position. -/
structure Standing where
  identical : Bool
  firstNarrower : Bool
  secondNarrower : Bool

/-- The standing after one more position. -/
def compareAt (s : Standing) (a b : Option TypeSpec) : m Standing :=
  if TypeSpec.equalOption a b then return s
  else do
    let first ← narrower h a b
    let second ← narrower h b a
    return ⟨false, s.firstNarrower || first, s.secondNarrower || second⟩

/-- Whether two signatures compete: their annotations are the same, or each is narrower somewhere. -/
def ambiguous (first second : Signature) : m Bool := do
  let s ← (first.annotations.zip second.annotations).foldlM (fun s (a, b) => compareAt h s a b)
    ⟨true, false, false⟩
  return s.identical || (s.firstNarrower && s.secondNarrower)

/-- Whether the annotations of a signature accept the arguments. -/
def applicable (signature : Signature) (args : List Value) : m Bool :=
  (signature.annotations.zip args).allM fun (type, v) =>
    match type with
    | none => return true
    | some spec => h.satisfies v spec

variable (set : OverloadSet)

/-- The overloads with the given number of parameters, in order of registration. -/
def ofArity (arity : Nat) : List { o // o ∈ set.overloads } :=
  set.overloads.attach.filter fun o => o.1.signature.params.length == arity

/-- Registers a function at the end of the set. -/
def add (f : Function) : m OverloadSet :=
  match f.signature with
  | none => h.fail (.invalidSpec (.opaqueSignature f.name))
  | some signature => do
      h.lift (signature.requireFixedArity.mapError .invalidSpec)
      match ← (set.ofArity signature.params.length).findM? fun o =>
          ambiguous h signature o.1.signature with
      | some other =>
          h.log .warn logTarget fun _ =>
            set.name ++ signature.render ++ " is ambiguous with " ++ set.name
              ++ other.1.signature.render
          h.fail (.ambiguousFunction set.name)
      | none => return { set with overloads := set.overloads ++ [⟨f, signature⟩] }

/-- The first of the candidates that is at least as specific as all of them. -/
def mostSpecific? (candidates : List { o // o ∈ set.overloads }) :
    m (Option { o // o ∈ set.overloads }) :=
  candidates.findM? fun o => candidates.allM fun p => atLeastAsSpecific h o.1.signature p.1.signature

/-- The overload that the arguments choose. -/
def resolve (args : List Value) : m { o // o ∈ set.overloads } := do
  let candidates ← (set.ofArity args.length).filterM fun o => applicable h o.1.signature args
  match ← set.mostSpecific? h candidates with
  | some o =>
      h.log .trace logTarget fun _ =>
        set.name ++ " dispatches to " ++ o.1.function.name ++ o.1.signature.render
      return o
  | none => h.fail (.functionNotFound set.name (args.map (·.classOf.name)))

/-- A single function that chooses among a copy of the set when it is called. -/
def toFunction : m Function := h.declare set.name none (.dispatch set)

end OverloadSet

end TypeContracts
