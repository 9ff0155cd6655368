import Mathlib.Logic.Relation
import TypeContracts.Spec.Basic

/-!
What a spec is made of. A spec directly contains specs, signatures and interfaces, these contain others
in turn, and a property holds everywhere in a spec if it holds of each of these parts. Conditions on
whole specs, such as which forms they are made of or what their interfaces declare, are conditions on
parts that hold everywhere.
-/

namespace TypeContracts

/-- A part of a spec. -/
inductive Part where
  | spec (s : TypeSpec)
  | signature (s : Signature)
  | interface (i : Interface)

namespace Part

/-- `Step x y`: `x` directly contains `y`. An interface contains its base. -/
inductive Step : Part → Part → Prop where
  | left (l r : TypeSpec) : Step (.spec (.both l r)) (.spec l)
  | right (l r : TypeSpec) : Step (.spec (.both l r)) (.spec r)
  | alternative {s : TypeSpec} {ss : List TypeSpec} (h : s ∈ ss) : Step (.spec (.union ss)) (.spec s)
  | interface (i : Interface) : Step (.spec (.interface i)) (.interface i)
  | signature (key : Nat) (s : Signature) : Step (.spec (.callable key s)) (.signature s)
  | listElement (s : TypeSpec) : Step (.spec (.list s)) (.spec s)
  | setElement (s : TypeSpec) : Step (.spec (.set s)) (.spec s)
  | position {s : TypeSpec} {ss : List TypeSpec} (h : s ∈ ss) : Step (.spec (.tuple ss)) (.spec s)
  | key (k v : TypeSpec) : Step (.spec (.mapping k v)) (.spec k)
  | value (k v : TypeSpec) : Step (.spec (.mapping k v)) (.spec v)
  | inner (s : TypeSpec) : Step (.spec (.optional s)) (.spec s)
  | parameter {s : Signature} {p : Param} {t : TypeSpec} (hp : p ∈ s.params) (ht : p.type = some t) :
      Step (.signature s) (.spec t)
  | returns {s : Signature} {t : TypeSpec} (ht : s.returns = some t) : Step (.signature s) (.spec t)
  | base {i b : Interface} (hb : i.base = some b) : Step (.interface i) (.interface b)
  | attributeSpec {i : Interface} {name : String} {t : TypeSpec}
      (h : (name, .attribute t) ∈ i.members) : Step (.interface i) (.spec t)
  | methodSignature {i : Interface} {name : String} {s : Signature}
      (h : (name, .method s) ∈ i.members) : Step (.interface i) (.signature s)

/-- `P` holds of the part itself and of everything inside it. -/
def Everywhere (P : Part → Prop) (x : Part) : Prop := ∀ y, Relation.ReflTransGen Step x y → P y

namespace Everywhere

variable {P Q : Part → Prop} {x y : Part}

theorem self (h : Everywhere P x) : P x := h x .refl

theorem step (h : Everywhere P x) (hxy : Step x y) : Everywhere P y := fun z hyz => h z (.head hxy hyz)

theorem intro (hx : P x) (h : ∀ y, Step x y → Everywhere P y) : Everywhere P x := by
  intro z hxz
  rcases Relation.ReflTransGen.cases_head hxz with rfl | ⟨y, hxy, hyz⟩
  · exact hx
  · exact h y hxy z hyz

theorem imp (h : ∀ y, P y → Q y) (hp : Everywhere P x) : Everywhere Q x := fun y hy => h y (hp y hy)

end Everywhere

end Part

/-- `P` holds of every part of the spec, the spec itself included. -/
abbrev TypeSpec.Everywhere (P : Part → Prop) (s : TypeSpec) : Prop := Part.Everywhere P (.spec s)

/-- `P` holds of every part of the signature. -/
abbrev Signature.Everywhere (P : Part → Prop) (s : Signature) : Prop := Part.Everywhere P (.signature s)

/-! ## Form by form -/

section forms

variable {P : Part → Prop}

namespace TypeSpec

theorem everywhere_plain {c : Class} (h : P (.spec (.plain c))) : (plain c).Everywhere P :=
  .intro h nofun

theorem everywhere_only {c : Class} (h : P (.spec (.only c))) : (only c).Everywhere P :=
  .intro h nofun

theorem everywhere_predicate {q : Predicate} (h : P (.spec (.predicate q))) :
    (predicate q).Everywhere P :=
  .intro h nofun

theorem everywhere_options {key : Nat} {vs : List Value} (h : P (.spec (.options key vs))) :
    (options key vs).Everywhere P :=
  .intro h nofun

theorem everywhere_both {l r : TypeSpec} (h : P (.spec (.both l r))) (hl : l.Everywhere P)
    (hr : r.Everywhere P) : (both l r).Everywhere P :=
  .intro h fun
    | _, .left _ _ => hl
    | _, .right _ _ => hr

theorem everywhere_union {ss : List TypeSpec} (h : P (.spec (.union ss)))
    (hs : ∀ s ∈ ss, s.Everywhere P) : (union ss).Everywhere P :=
  .intro h fun | _, .alternative mem => hs _ mem

theorem everywhere_optional {s : TypeSpec} (h : P (.spec (.optional s))) (hs : s.Everywhere P) :
    (optional s).Everywhere P :=
  .intro h fun | _, .inner _ => hs

theorem everywhere_list {s : TypeSpec} (h : P (.spec (.list s))) (hs : s.Everywhere P) :
    (list s).Everywhere P :=
  .intro h fun | _, .listElement _ => hs

theorem everywhere_set {s : TypeSpec} (h : P (.spec (.set s))) (hs : s.Everywhere P) :
    (set s).Everywhere P :=
  .intro h fun | _, .setElement _ => hs

theorem everywhere_tuple {ss : List TypeSpec} (h : P (.spec (.tuple ss)))
    (hs : ∀ s ∈ ss, s.Everywhere P) : (tuple ss).Everywhere P :=
  .intro h fun | _, .position mem => hs _ mem

theorem everywhere_mapping {k v : TypeSpec} (h : P (.spec (.mapping k v))) (hk : k.Everywhere P)
    (hv : v.Everywhere P) : (mapping k v).Everywhere P :=
  .intro h fun
    | _, .key _ _ => hk
    | _, .value _ _ => hv

theorem everywhere_interface {i : Interface} (h : P (.spec (.interface i)))
    (hi : Part.Everywhere P (.interface i)) : (interface i).Everywhere P :=
  .intro h fun | _, .interface _ => hi

theorem everywhere_callable {key : Nat} {s : Signature} (h : P (.spec (.callable key s)))
    (hs : s.Everywhere P) : (callable key s).Everywhere P :=
  .intro h fun | _, .signature _ _ => hs

end TypeSpec

theorem Signature.everywhere {s : Signature} (h : P (.signature s))
    (params : ∀ q t, q ∈ s.params → q.type = some t → t.Everywhere P)
    (returns : ∀ t, s.returns = some t → t.Everywhere P) : s.Everywhere P :=
  .intro h fun
    | _, .parameter hq ht => params _ _ hq ht
    | _, .returns ht => returns _ ht

theorem Interface.everywhere {i : Interface} (h : P (.interface i))
    (base : ∀ b ∈ i.base, Part.Everywhere P (.interface b))
    (attributes : ∀ name t, (name, .attribute t) ∈ i.members → t.Everywhere P)
    (methods : ∀ name s, (name, .method s) ∈ i.members → s.Everywhere P) :
    Part.Everywhere P (.interface i) :=
  .intro h fun
    | _, .base hb => base _ hb
    | _, .attributeSpec mem => attributes _ _ mem
    | _, .methodSignature mem => methods _ _ mem

end forms

/-- A spec directly inside another one is smaller. -/
theorem TypeSpec.size_lt_of_step {s t : TypeSpec} (h : Part.Step (.spec s) (.spec t)) :
    t.size < s.size := by
  cases h with
  | alternative h | position h =>
    have := TypeSpec.size_le_of_mem h
    simp only [TypeSpec.size]
    omega
  | _ =>
    simp only [TypeSpec.size]
    omega

/-! ## Forms -/

/-- The forms of specs. -/
inductive Form where
  | any
  | plain
  | predicate
  | both
  | union
  | interface
  | callable
  | list
  | set
  | tuple
  | mapping
  | optional
  | only
  | options
  deriving DecidableEq

/-- The forms that look at a value and at what its containers hold, derived instances included. -/
def structuralForms : List Form :=
  [.any, .plain, .predicate, .both, .union, .optional, .list, .set, .tuple, .mapping]

def TypeSpec.form : TypeSpec → Form
  | .any => .any
  | .plain _ => .plain
  | .predicate _ => .predicate
  | .both _ _ => .both
  | .union _ => .union
  | .interface _ => .interface
  | .callable _ _ => .callable
  | .list _ => .list
  | .set _ => .set
  | .tuple _ => .tuple
  | .mapping _ _ => .mapping
  | .optional _ => .optional
  | .only _ => .only
  | .options _ _ => .options

/-- Whether a part may occur in specs of the given forms. Signatures occur in callable specs and in
interfaces. -/
def Part.HasForm (forms : List Form) : Part → Prop
  | .spec s => s.form ∈ forms
  | .signature _ => .callable ∈ forms ∨ .interface ∈ forms
  | .interface _ => .interface ∈ forms

instance (forms : List Form) : DecidablePred (Part.HasForm forms)
  | .spec s => inferInstanceAs (Decidable (s.form ∈ forms))
  | .signature _ => inferInstanceAs (Decidable (.callable ∈ forms ∨ .interface ∈ forms))
  | .interface _ => inferInstanceAs (Decidable (.interface ∈ forms))

/-- The spec is built from the given forms only, to any depth. -/
def TypeSpec.MadeOf (forms : List Form) (s : TypeSpec) : Prop := s.Everywhere (Part.HasForm forms)

end TypeContracts
