import TypeContracts.World.Basic

/-!
Classes under construction. A class is given a superclass, attributes and methods call by call, and is
declared with what it has then. Until it is given a superclass it inherits from the root.
-/

namespace TypeContracts

namespace Class

/-- A call on a class under construction. -/
inductive Declaration where
  /-- Sets the superclass; the last one counts. -/
  | super (c : Class)
  | attribute (name : String) (v : Value)
  | method (m : Method)

/-- What a class under construction has been given so far. -/
structure Draft where
  super : Class
  attributes : List (String × Value)
  methods : List Method

namespace Draft

def empty : Draft := ⟨.object, [], []⟩

/-- Takes one call into account. -/
def declare (d : Draft) : Declaration → Draft
  | .super c => { d with super := c }
  | .attribute name v => { d with attributes := d.attributes ++ [(name, v)] }
  | .method m => { d with methods := d.methods ++ [m] }

end Draft

end Class

/-- Declares a class as the given calls leave it. -/
def World.buildClass (w : World) (name : String) (declarations : List Class.Declaration) :
    Class × World :=
  let draft := declarations.foldl Class.Draft.declare .empty
  w.declareClass name draft.super draft.attributes draft.methods

end TypeContracts
