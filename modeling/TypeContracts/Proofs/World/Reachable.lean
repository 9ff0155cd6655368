import Mathlib.Logic.Relation
import TypeContracts.Proofs.World.Signatures

/-!
Worlds as programs make them: from the initial one by declaring classes and functions, making objects,
and writing and removing their attributes. In these a class files each method under the method's own
name, so a method that was read from a value is found again by the callable it was read as.
Main statements: `World.Reachable.methodsNamed`, `World.MethodsNamed.calling_boundFunction`.
-/

namespace TypeContracts

namespace World

/-- One operation on a world. -/
inductive Step : World → World → Prop where
  | declareClass (w : World) (name : String) (super : Class) (attributes : List (String × Value))
      (methods : List Method) : Step w (w.declareClass name super attributes methods).2
  | newObject (w : World) (c : Class) : Step w (w.newObject c).2
  | setAttribute (w : World) (o : ObjectRef) (name : String) (v : Value) :
      Step w (w.setAttribute o name v)
  | removeAttribute (w : World) (o : ObjectRef) (name : String) : Step w (w.removeAttribute o name)
  | declareFunction (w : World) (name : String) (signature : Option Signature) (action : Action) :
      Step w (w.declareFunction name signature action).2
  /-- A key is given to a spec or to a method that was read. -/
  | useKey (w : World) : Step w { w with nextKey := w.nextKey + 1 }

/-- The worlds that operations make of the initial one. -/
def Reachable (w : World) : Prop := Relation.ReflTransGen Step .initial w

/-- Every class files its methods under their own names. -/
def MethodsNamed (w : World) : Prop := ∀ c ∈ w.classes, ∀ m ∈ c.2.methods, m.1 = m.2.name

theorem methodsNamed_initial : World.initial.MethodsNamed := by
  intro c hc m hm
  obtain ⟨_, -, rfl⟩ := List.mem_map.1 hc
  simp only [containerMembers, List.mem_cons, List.not_mem_nil, or_false] at hm
  rcases hm with rfl | rfl <;> rfl

theorem MethodsNamed.step {w w' : World} (h : w.MethodsNamed) (step : Step w w') :
    w'.MethodsNamed := by
  cases step with
  | declareClass name super attributes methods =>
    refine List.forall_mem_cons.2 ⟨fun m hm => ?_, h⟩
    obtain ⟨n, -, rfl⟩ := List.mem_map.1 (Table.mem_of_mem_ofList hm)
    rfl
  -- the other operations declare no class
  | newObject | setAttribute | removeAttribute | declareFunction | useKey => exact h

theorem Reachable.methodsNamed {w : World} (h : w.Reachable) : w.MethodsNamed := by
  induction h with
  | refl => exact methodsNamed_initial
  | tail _ step ih => exact ih.step step

/-! ## Members read from values -/

/-- What a member found on the class of a value is read as from the value. -/
def readAs (fetch : Nat) (v : Value) : StaticMember → Value
  | .attribute a => a
  | .method owner m => .function (boundFunction fetch owner m v).callable

variable {w : World} {name : String}

/-- An instance without an attribute of its own reads the member of its class. -/
theorem getAttribute?_eq_static? {v : Value} (inst : ∀ c, v ≠ .cls c)
    (unshadowed : ∀ o, v = .object o → w.instanceAttribute? o name = none) (fetch : Nat) :
    w.getAttribute? fetch v name = (w.static? v.classOf name).map (readAs fetch v) := by
  have ofClass : getAttribute?.ofClass w fetch v name =
      (w.static? v.classOf name).map (readAs fetch v) := by
    unfold getAttribute?.ofClass static?
    cases w.classAttribute? v.classOf name with
    | some a => rfl
    | none => cases w.method? v.classOf name <;> rfl
  cases v with
  | cls c => exact absurd rfl (inst c)
  | object o =>
    simp only [getAttribute?, unshadowed o rfl]
    exact ofClass
  | _ => exact ofClass

/-- The callable that a method is read as is known by the signature of the method. -/
theorem MethodsNamed.calling_boundFunction (named : w.MethodsNamed) {c owner : Class} {m : Method}
    (found : w.method? c name = some (owner, m)) (fetch : Nat) (receiver : Value) :
    w.calling (.function (boundFunction fetch owner m receiver).callable) =
      m.signature.elim .unsigned .signed := by
  have own := ownMethod?_of_method? found
  obtain ⟨_, hc, hm⟩ := mem_of_ownMethod? own
  have again : w.ownMethod? owner m.name = some m := named _ hc _ hm ▸ own
  simp only [calling, Value.callable?, boundFunction, function, again]
  cases m.signature <;> rfl

end World

end TypeContracts
