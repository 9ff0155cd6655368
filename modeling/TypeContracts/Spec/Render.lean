import TypeContracts.Spec.Basic
import TypeContracts.Value.Render

/-!
Written form of specs, as error messages and log lines show it, and the debugging form of signatures
and interfaces.
-/

namespace TypeContracts

/-- The mark in front of a parameter's name. -/
def ParamKind.mark : ParamKind → String
  | .positional => ""
  | .varPositional => "*"
  | .varKeyword => "**"

/-- A default value as it follows a parameter. -/
def renderDefault : Option Value → String
  | none => ""
  | some v => " = " ++ v.inspect

mutual

def TypeSpec.render : TypeSpec → String
  | .any => "any"
  | .plain c => c.name
  | .predicate p => p.name
  | .both left right => left.render ++ " & " ++ right.render
  | .union members => "union[" ++ ", ".intercalate (TypeSpec.renderAll members) ++ "]"
  | .interface i => i.name
  | .callable _ signature => "typedef" ++ signature.render
  | .list element => "[" ++ element.render ++ "]"
  | .set element => "\x7b" ++ element.render ++ "\x7d"
  | .tuple elements =>
      "(" ++ ", ".intercalate (TypeSpec.renderAll elements)
        ++ (if elements.length = 1 then ",)" else ")")
  | .mapping key value => "\x7b" ++ key.render ++ ": " ++ value.render ++ "\x7d"
  | .optional inner => "optional[" ++ inner.render ++ "]"
  | .only c => "only[" ++ c.name ++ "]"
  | .options _ values => "options[" ++ ", ".intercalate (values.map Value.inspect) ++ "]"

def TypeSpec.renderAll : List TypeSpec → List String
  | [] => []
  | s :: ss => s.render :: TypeSpec.renderAll ss

def TypeSpec.renderAfter (mark : String) : Option TypeSpec → String
  | none => ""
  | some s => mark ++ s.render

def Param.render : Param → String
  | ⟨name, kind, type, default⟩ =>
      kind.mark ++ name ++ TypeSpec.renderAfter ": " type ++ renderDefault default

def Param.renderAll : List Param → List String
  | [] => []
  | p :: ps => p.render :: Param.renderAll ps

def Signature.render : Signature → String
  | ⟨params, returns⟩ =>
      "(" ++ ", ".intercalate (Param.renderAll params) ++ ")" ++ TypeSpec.renderAfter " -> " returns

end

/-! ## Debugging form -/

/-- A record with named fields: `Name { field: text, other: text }`. -/
def record (name : String) (fields : List (String × String)) : String :=
  name ++ " \x7b " ++ ", ".intercalate (fields.map fun f => f.1 ++ ": " ++ f.2) ++ " \x7d"

/-- A record of which not every field is shown. -/
def partialRecord (name : String) (fields : List (String × String)) : String :=
  name ++ " \x7b " ++ ", ".intercalate (fields.map fun f => f.1 ++ ": " ++ f.2) ++ ", .. \x7d"

def inspectOption {α : Type} (inspect : α → String) : Option α → String
  | none => "None"
  | some a => "Some(" ++ inspect a ++ ")"

def inspectList {α : Type} (inspect : α → String) (items : List α) : String :=
  "[" ++ ", ".intercalate (items.map inspect) ++ "]"

def ParamKind.inspect : ParamKind → String
  | .positional => "Positional"
  | .varPositional => "VarPositional"
  | .varKeyword => "VarKeyword"

def TypeSpec.inspect (s : TypeSpec) : String := "TypeSpec(" ++ s.render ++ ")"

def Predicate.inspect (p : Predicate) : String := "Predicate(" ++ p.name ++ ")"

def Param.inspect (p : Param) : String :=
  record "Param"
    [("name", quoted p.name), ("kind", p.kind.inspect),
      ("annotation", inspectOption TypeSpec.inspect p.type),
      ("default", inspectOption Value.inspect p.default)]

def Signature.inspect (s : Signature) : String :=
  record "Signature"
    [("params", inspectList Param.inspect s.params),
      ("returns", inspectOption TypeSpec.inspect s.returns)]

def Member.inspect : Member → String
  | .attribute spec => "Attribute(" ++ spec.inspect ++ ")"
  | .method signature => "Method(" ++ signature.inspect ++ ")"

def Interface.inspect (i : Interface) : String :=
  record "Interface"
    [("name", quoted i.name), ("base", inspectOption (fun b => quoted b.name) i.base),
      ("members", inspectList (fun m => "(" ++ quoted m.1 ++ ", " ++ m.2.inspect ++ ")") i.members)]

end TypeContracts
