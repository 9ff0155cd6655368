import TypeContracts.Host
import TypeContracts.Text.Blank

/-!
Enforcement: which checks an enforced function makes, how they are selected, and how a function is
wrapped. Only annotated parameters and results are checked. The annotation of a collecting parameter
is that of each value it has collected.
-/

namespace TypeContracts

namespace EnforceConfig

/-- Every check, and the absent value passes none. -/
def standard : EnforceConfig := ⟨true, true, false⟩

/-- The selection that a text names, blanks around it and letter case apart. -/
def parse (s : String) : Except Error EnforceConfig :=
  match settingName s with
  | "all" => .ok ⟨true, true, false⟩
  | "arguments" => .ok ⟨true, false, false⟩
  | "args" => .ok ⟨true, false, false⟩
  | "return" => .ok ⟨false, true, false⟩
  | "off" => .ok ⟨false, false, false⟩
  | "none" => .ok ⟨false, false, false⟩
  | _ => .error (.invalidConfig s)

def withNonePasses (c : EnforceConfig) (nonePasses : Bool) : EnforceConfig :=
  { c with nonePasses := nonePasses }

end EnforceConfig

namespace Enforcement

/-- The target of the log records about enforcement. -/
def logTarget : String := "conform::enforce"

/-- What is checked of one bound value: the elements of a collecting parameter, or the value itself. -/
def itemsOf (kind : ParamKind) (v : Value) : List Value :=
  match kind, v with
  | .varPositional, .tuple items => items
  | .varKeyword, .dict entries => entries.map (·.2)
  | _, v => [v]

/-- What is checked before a call, in order: the parameter's name and annotation with each item. -/
def checklist (params : List Param) (bound : List Value) : List (String × TypeSpec × Value) :=
  (params.zip bound).flatMap fun (p, v) =>
    match p.type with
    | none => []
    | some spec => (itemsOf p.kind v).map fun item => (p.name, spec, item)

variable {m : Type → Type} [Monad m] (h : Host m)

/-- The configuration that the value of a variable selects; every check if it is unset or unreadable. -/
def configOfVariable : Option String → m EnforceConfig
  | none => pure .standard
  | some raw =>
      match EnforceConfig.parse raw with
      | .ok config => pure config
      | .error e => do
          h.log .warn logTarget fun _ => e.message ++ "; enforcing all checks"
          return .standard

/-- Raises a mismatch unless the value satisfies the spec or may be absent. -/
def checkValue (config : EnforceConfig) (function target : String) (spec : TypeSpec) (v : Value) :
    m Unit := do
  if config.nonePasses && v.isNull then return ()
  else if ← h.satisfies v spec then return ()
  else
    h.log .debug logTarget fun _ =>
      function ++ ": \"" ++ target ++ "\" expected " ++ spec.render ++ ", got " ++ v.classOf.name
    h.fail (.typeMismatch target spec v.classOf.name)

/-- Runs `body` on the bound arguments, with the checks that the configuration asks for around it. -/
def checked (config : EnforceConfig) (function : String) (signature : Signature)
    (body : List Value → m Value) (bound : List Value) : m Value := do
  if config.checkArguments then
    (checklist signature.params bound).forM fun (name, spec, v) =>
      checkValue h config function name spec v
  let result ← body bound
  if config.checkReturn then
    if let some spec := signature.returns then
      checkValue h config function "return value" spec result
  return result

/-- A checked version of a function, with its name and signature. -/
def wrap (config : EnforceConfig) (f : Function) : m Function :=
  match f.signature with
  | none => h.fail (.invalidSpec (.opaqueSignature f.name))
  | some signature => do
      h.log .debug logTarget fun _ => "enforcing " ++ f.name ++ signature.render
      h.declare f.name signature (.checked config f.name signature f.action)

end Enforcement

end TypeContracts
