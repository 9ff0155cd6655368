import TypeContracts.Proofs.Call.Simulation

/-!
What the operations of the library have in common. Each is made of what its host does, put one after the
other, so a property that sequencing preserves and that holds of everything the host does holds of each
operation. Main statement: `Host.Closed.operation`.
-/

namespace TypeContracts

/-- One operation of the library, and the type of its answer. -/
inductive Operation : Type → Type where
  | satisfies (v : Value) (s : TypeSpec) : Operation Bool
  | isSubtype (candidate target : TypeSpec) : Operation Bool
  | signatureConforms (candidate expected : Signature) : Operation Bool
  | configOfVariable (raw : Option String) : Operation EnforceConfig
  | wrap (config : EnforceConfig) (f : Function) : Operation Function
  | call (f : Function) (args : Args) : Operation Value
  | add (set : OverloadSet) (f : Function) : Operation OverloadSet
  | resolve (set : OverloadSet) (args : List Value) : Operation { o // o ∈ set.overloads }
  | callSet (set : OverloadSet) (args : List Value) : Operation Value
  | toFunction (set : OverloadSet) : Operation Function

variable {m : Type → Type} [Monad m]

def Operation.perform (h : Host m) {α : Type} : Operation α → m α
  | .satisfies v s => h.satisfies v s
  | .isSubtype candidate target => h.isSubtype candidate target
  | .signatureConforms candidate expected => h.signatureConforms candidate expected
  | .configOfVariable raw => Enforcement.configOfVariable h raw
  | .wrap config f => Enforcement.wrap h config f
  | .call f args => f.call h args
  | .add set f => set.add h f
  | .resolve set args => set.resolve h args
  | .callSet set args => set.call h args
  | .toFunction set => set.toFunction h

namespace Host

/-- A property of computations that sequencing preserves and that everything a host does has. -/
structure Closed (h : Host m) where
  Holds : {α : Type} → m α → Prop
  pure : ∀ {α : Type} (a : α), Holds (pure a)
  bind : ∀ {α β : Type} {x : m α} {f : α → m β}, Holds x → (∀ a, Holds (f a)) → Holds (x >>= f)
  world : Holds h.world
  test : ∀ r v, Holds (h.test r v)
  run : ∀ routine receiver args, Holds (h.run routine receiver args)
  declare : ∀ name signature action, Holds (h.declare name signature action)
  log : ∀ level target message, Holds (h.log level target message)
  fail : ∀ {α : Type} (e : Error), Holds (h.fail e : m α)

namespace Closed

variable {h : Host m} (C : h.Closed)

/-- A property of computations relates each that has it to all computations of the other host. -/
def simulation : h.Simulation (still .initial ⟨fun _ _ => false, fun _ => ()⟩) where
  Rel x _ := C.Holds x
  pure := C.pure
  bind := C.bind
  world := C.world
  test := C.test
  log := C.log
  fail := C.fail

theorem forM {α : Type} {xs : List α} {f : α → m PUnit} (hf : ∀ x, C.Holds (f x)) :
    C.Holds (xs.forM f) := by
  induction xs with
  | nil => exact C.pure _
  | cons x xs ih => exact C.bind (hf x) fun _ => ih

/-! ## Checks -/

/-- Checks go on with the answers of their probe, which are those of the host. -/
def checks (w : World) : Probe.Simulation w h.probe w (⟨fun _ _ => false, fun _ => ()⟩ : Probe Id) where
  Rel x _ := C.Holds x
  pure := C.pure
  bind := C.bind
  explain := C.log _ _

theorem agrees (w : World) (x : Part) : (C.checks w).Agrees x :=
  Probe.Simulation.agrees_of_test C.test x

theorem satisfies (v : Value) (s : TypeSpec) : C.Holds (h.satisfies v s) := C.simulation.satisfies v s

theorem isSubtype (candidate target : TypeSpec) : C.Holds (h.isSubtype candidate target) :=
  C.simulation.isSubtype candidate target

theorem signatureConforms (candidate expected : Signature) :
    C.Holds (h.signatureConforms candidate expected) :=
  C.bind C.world fun w => (C.checks w).signatureConforms candidate fun x _ => C.agrees w x

theorem lift {α : Type} (x : Except Error α) : C.Holds (h.lift x) := C.simulation.lift x

/-! ## Enforcement -/

theorem configOfVariable (raw : Option String) : C.Holds (Enforcement.configOfVariable h raw) := by
  unfold Enforcement.configOfVariable
  split
  · exact C.pure _
  · split
    · exact C.pure _
    · exact C.bind (C.log _ _ _) fun _ => C.pure _

theorem checkValue (config : EnforceConfig) (function target : String) (spec : TypeSpec) (v : Value) :
    C.Holds (Enforcement.checkValue h config function target spec v) := by
  rw [Enforcement.checkValue]
  split
  · exact C.pure _
  · apply C.bind (C.satisfies v spec)
    intro fits
    split
    · exact C.pure _
    · exact C.bind (C.log _ _ _) fun _ => C.fail _

theorem checked (config : EnforceConfig) (function : String) (signature : Signature)
    {body : List Value → m Value} (hbody : ∀ bound, C.Holds (body bound)) (bound : List Value) :
    C.Holds (Enforcement.checked h config function signature body bound) := by
  have result : ∀ r, C.Holds (Enforcement.checkResult h config function signature r) := by
    intro r
    rw [Enforcement.checkResult]
    cases Enforcement.demanded? config signature with
    | none => exact C.pure _
    | some spec => exact C.bind (C.checkValue _ _ _ _ _) fun _ => C.pure _
  rw [Enforcement.checked_eq]
  split
  · exact C.bind (C.forM fun _ => C.checkValue _ _ _ _ _) fun _ => C.bind (hbody bound) result
  · exact C.bind (hbody bound) result

theorem wrap (config : EnforceConfig) (f : Function) : C.Holds (Enforcement.wrap h config f) := by
  rw [Enforcement.wrap]
  split
  · exact C.fail _
  · exact C.bind (C.log _ _ _) fun _ => C.declare _ _ _

/-! ## Overload sets -/

theorem add (set : OverloadSet) (f : Function) : C.Holds (set.add h f) := C.simulation.add set f

theorem resolve (set : OverloadSet) (args : List Value) : C.Holds (set.resolve h args) :=
  C.simulation.resolve set args

/-! ## Calls -/

theorem runBody (body : MethodBody) (receiver : Value) (args : List Value) :
    C.Holds (body.run h receiver args) := by
  cases body with
  | host routine => exact C.run _ _ _
  | length =>
    rw [MethodBody.run]
    split
    · exact C.fail _
    · split
      · exact C.pure _
      · exact C.fail _
  | contains =>
    rcases args with _ | ⟨item, _ | ⟨_, _⟩⟩
    · exact C.fail _
    · exact C.pure _
    · exact C.fail _

theorem runAction (action : Action) (args : List Value) : C.Holds (action.run h args) := by
  rw [Action.run.eq_def]
  match action with
  | .host routine => exact C.run _ _ _
  | .bound body receiver => exact C.runBody _ _ _
  | .unbound name body =>
    cases args with
    | nil => exact C.fail _
    | cons receiver rest => exact C.runBody _ _ _
  | .checked config name signature inner =>
    exact C.checked _ _ _ (fun bound => runAction inner bound) args
  | .dispatch set =>
    apply C.bind (C.resolve set args)
    intro o
    apply C.bind (C.lift _)
    intro bound
    exact runAction o.1.function.action bound
termination_by sizeOf action
decreasing_by
  · simp only [Action.checked.sizeOf_spec]
    omega
  · have := OverloadSet.sizeOf_action_lt o.2
    simp only [Action.dispatch.sizeOf_spec]
    omega

theorem call (f : Function) (args : Args) : C.Holds (f.call h args) :=
  C.bind (C.lift _) fun _ => C.runAction _ _

/-- What holds of everything a host does holds of every operation under the host. -/
theorem operation {α : Type} (op : Operation α) : C.Holds (op.perform h) := by
  cases op with
  | satisfies v s => exact C.satisfies v s
  | isSubtype candidate target => exact C.isSubtype candidate target
  | signatureConforms candidate expected => exact C.signatureConforms candidate expected
  | configOfVariable raw => exact C.configOfVariable raw
  | wrap config f => exact C.wrap config f
  | call f args => exact C.call f args
  | add set f => exact C.add set f
  | resolve set args => exact C.resolve set args
  | callSet set args => exact C.runAction _ _
  | toFunction set => exact C.declare _ _ _

end Closed

end Host

end TypeContracts
