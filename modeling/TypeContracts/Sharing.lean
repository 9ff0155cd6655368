/-!
Comparison of data that share parts. Data built up by reference, such as interfaces whose members name
other interfaces, can have few parts in memory and still stand for very large trees. A comparison that
looks first whether its two data are one object in memory does not enter what they have in common.
-/

namespace TypeContracts

/-- The answer `r` on two data, given at once if they are one object in memory and by `walk` if not.
It is sound because equal data have the answer `true`. -/
@[inline] def unlessShared {α : Type} (a b : α) {r : Bool} (refl : a = b → r = true)
    (walk : Unit → { x : Bool // x = r }) : { x : Bool // x = r } :=
  ⟨withPtrEq a b (fun _ => (walk ()).1) fun h => (walk ()).2.trans (refl h), (walk ()).2⟩

end TypeContracts
