import TypeContracts.Call.Binding
import TypeContracts.Call.Enforcement
import TypeContracts.Call.Overload

/-!
Running functions: what an action does with bound arguments. An action only ever runs actions that it
is built from, so every run reaches the host's routines or an answer.
-/

namespace TypeContracts

/-- The number of elements of a value, or of characters of a text. -/
def Value.length? : Value → Option Nat
  | .str s => some s.length
  | .list items | .tuple items | .set items => some items.length
  | .dict entries => some entries.length
  | _ => none

/-- Whether a container has the item: a text as a part, a dict as a key, others as an element. -/
def Value.contains (container item : Value) : Bool :=
  match container, item with
  | .str s, .str t => s.contains t
  | .list items, _ | .tuple items, _ | .set items, _ => item.isIn items
  | .dict entries, _ => item.isIn (entries.map (·.1))
  | _, _ => false

variable {m : Type → Type} [Monad m] (h : Host m)

/-- Runs the code of a method. -/
def MethodBody.run (body : MethodBody) (receiver : Value) (args : List Value) : m Value :=
  match body with
  | .host routine => h.run routine (some receiver) args
  | .length =>
      if !args.isEmpty then h.fail (.argumentCountMismatch 0 args.length)
      else match receiver.length? with
        | some n => return .int (Int64.ofNat n)
        | none => h.fail (.callFailed "len" (receiver.classOf.name ++ " has no length"))
  | .contains =>
      match args with
      | [item] => return .bool (receiver.contains item)
      | _ => h.fail (.argumentCountMismatch 1 args.length)

theorem OverloadSet.sizeOf_action_lt {set : OverloadSet} {o : Overload} (h : o ∈ set.overloads) :
    sizeOf o.function.action < sizeOf set := by
  have := List.sizeOf_lt_of_mem h
  obtain ⟨name, overloads⟩ := set
  obtain ⟨⟨callable, signature, action⟩, chosenBy⟩ := o
  simp only [OverloadSet.mk.sizeOf_spec, Overload.mk.sizeOf_spec, Function.mk.sizeOf_spec] at this ⊢
  omega

/-- Runs an action on bound arguments. -/
def Action.run (action : Action) (args : List Value) : m Value :=
  match action with
  | .host routine => h.run routine none args
  | .bound body receiver => body.run h receiver args
  | .unbound name body =>
      match args with
      | receiver :: rest => body.run h receiver rest
      | [] => h.fail (.missingArgument (name ++ ".self"))
  | .checked config name signature inner =>
      Enforcement.checked h config name signature (fun bound => inner.run bound) args
  | .dispatch set => do
      let o ← set.resolve h args
      let bound ← h.lift (o.1.function.bind (.ofPositional args))
      o.1.function.action.run bound
termination_by sizeOf action
decreasing_by
  · simp only [Action.checked.sizeOf_spec]
    omega
  · have := OverloadSet.sizeOf_action_lt o.2
    simp only [Action.dispatch.sizeOf_spec]
    omega

/-- Binds the arguments and runs the function. -/
def Function.call (f : Function) (args : Args) : m Value := do
  let bound ← h.lift (f.bind args)
  f.action.run h bound

/-- Calls the overload that the arguments choose. -/
def OverloadSet.call (set : OverloadSet) (args : List Value) : m Value :=
  (Action.dispatch set).run h args

end TypeContracts
