import TypeContracts.Spec.Identity
import TypeContracts.Spec.Invalid
import TypeContracts.Spec.Render

/-!
Errors: what can go wrong when specs are built and functions are called, and the wording of each.
Checks themselves never fail.
-/

namespace TypeContracts

inductive Error where
  | invalidSpec (fault : InvalidSpec)
  /-- An enforced argument, or the result, does not satisfy its annotation. -/
  | typeMismatch (target : String) (expected : TypeSpec) (found : String)
  /-- More positional arguments than the signature takes. -/
  | argumentCountMismatch (expected got : Nat)
  | missingArgument (name : String)
  | unexpectedArgument (name : String)
  | duplicateArgument (name : String)
  | notCallable (cls : String)
  /-- An overload set already holds a function that competes with the new one. -/
  | ambiguousFunction (name : String)
  /-- No overload, or no single most specific one, accepts arguments of these classes. -/
  | functionNotFound (name : String) (arguments : List String)
  | callFailed (function reason : String)
  | invalidConfig (value : String)
  deriving DecidableEq

def Error.message : Error → String
  | .invalidSpec fault => "Invalid spec: " ++ fault.message
  | .typeMismatch target expected found =>
      "Incorrect type for \"" ++ target ++ "\": expected " ++ expected.render ++ ", got " ++ found
  | .argumentCountMismatch expected got =>
      "Argument count mismatch: expected at most " ++ toString expected ++ ", got " ++ toString got
  | .missingArgument name => "Missing argument for parameter '" ++ name ++ "'"
  | .unexpectedArgument name => "Unexpected keyword argument '" ++ name ++ "'"
  | .duplicateArgument name => "Multiple values for argument '" ++ name ++ "'"
  | .notCallable cls => "Value of class '" ++ cls ++ "' is not callable"
  | .ambiguousFunction name => "Function '" ++ name ++ "' is ambiguous with an existing overload"
  | .functionNotFound name arguments =>
      "No overload of '" ++ name ++ "' accepts (" ++ ", ".intercalate arguments ++ ")"
  | .callFailed function reason => "Call to '" ++ function ++ "' failed: " ++ reason
  | .invalidConfig value => "Invalid configuration value '" ++ value ++ "'"

end TypeContracts
