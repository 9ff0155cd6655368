import TypeContracts.Error
import TypeContracts.Spec.Signature
import TypeContracts.World.Function

/-!
Binding: how the arguments of a call reach the parameters of a signature. Positional arguments fill the
fixed parameters from the left, keyword arguments those they name, and what is left over goes to the
collecting parameters. Binding yields one value per parameter, in order of declaration.
-/

namespace TypeContracts

/-- The arguments of a call, keywords in call order. -/
structure Args where
  positional : List Value
  keywords : List (String × Value)

namespace Args

def ofPositional (vs : List Value) : Args := ⟨vs, []⟩

def size (a : Args) : Nat := a.positional.length + a.keywords.length

end Args

namespace Signature

/-- What has been assigned while keywords are read: one slot per fixed parameter, and the keywords that
no fixed parameter takes. -/
structure Assignment where
  slots : List (Option Value)
  surplus : List (String × Value)

/-- The first `n` positional arguments in their slots; the slots that they do not reach are empty. -/
def positionalSlots (n : Nat) (positional : List Value) : List (Option Value) :=
  (positional.take n).map some ++ List.replicate (n - positional.length) none

/-- Assigns one keyword argument. A slot, or a surplus keyword, is assigned once only. -/
def assignKeyword (s : Signature) (a : Assignment) (keyword : String × Value) :
    Except Error Assignment :=
  let (name, v) := keyword
  match s.fixed.findIdx? (·.name == name) with
  | some i =>
      match a.slots[i]? with
      | some (some _) => .error (.duplicateArgument name)
      | _ => .ok { a with slots := a.slots.set i (some v) }
  | none =>
      if !s.collects .varKeyword then .error (.unexpectedArgument name)
      else if a.surplus.any (·.1 == name) then .error (.duplicateArgument name)
      else .ok { a with surplus := a.surplus ++ [keyword] }

/-- The dict of surplus keywords. -/
def keywordDict (surplus : List (String × Value)) : Value :=
  .dict (surplus.map fun e => (.str e.1, e.2))

/-- One value per parameter: an empty slot takes the default, and collecting parameters take what is
left over. -/
def collectValues (rest : List Value) (surplus : List (String × Value)) :
    List Param → List (Option Value) → Except Error (List Value)
  | [], _ => .ok []
  | p :: ps, slots =>
      match p.kind with
      | .varPositional => do return .tuple rest :: (← collectValues rest surplus ps slots)
      | .varKeyword => do return keywordDict surplus :: (← collectValues rest surplus ps slots)
      | .positional =>
          match slots.head?.join <|> p.default with
          | some v => do return v :: (← collectValues rest surplus ps slots.tail)
          | none => .error (.missingArgument p.name)

/-- The values of the parameters for the given arguments. Surplus positional arguments are refused
first, then the first keyword that cannot be assigned, then the first parameter left empty. -/
def bind (s : Signature) (args : Args) : Except Error (List Value) :=
  let n := s.arity
  if n < args.positional.length ∧ !s.collects .varPositional then
    .error (.argumentCountMismatch n args.positional.length)
  else do
    let a ← args.keywords.foldlM s.assignKeyword ⟨positionalSlots n args.positional, []⟩
    collectValues (args.positional.drop n) a.surplus s.params a.slots

end Signature

/-- The arguments as the function's action takes them. A function without a signature takes positional
arguments as they are and refuses keywords. -/
def Function.bind (f : Function) (args : Args) : Except Error (List Value) :=
  match f.signature with
  | some s => s.bind args
  | none =>
      match args.keywords with
      | [] => .ok args.positional
      | (name, _) :: _ => .error (.unexpectedArgument name)

end TypeContracts
