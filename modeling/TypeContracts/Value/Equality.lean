import TypeContracts.Value.Identity

/-!
Equality of values. Integers and floats compare as numbers, a truth value is no number, sets and dicts
compare without regard to order, and objects, callables and classes are equal when they are the same
one. A float that is no number equals nothing, so this equality is not reflexive; sets and dicts with
repeated elements, which only the raw constructors can make, also break its symmetry.
-/

namespace TypeContracts

namespace Value

theorem sizeOf_entry_lt {e : Value × Value} {es : List (Value × Value)} (h : e ∈ es) :
    sizeOf e.1 + sizeOf e.2 < sizeOf es := by
  have := List.sizeOf_lt_of_mem h
  obtain ⟨k, v⟩ := e
  simp only [Prod.mk.sizeOf_spec] at this
  show sizeOf k + sizeOf v < sizeOf es
  omega

mutual

/-- Whether `a` equals `b`. Two sets are equal when they have equally many elements and each element of
the first has an equal in the second; dicts likewise with their entries. -/
def equal : Value → Value → Bool
  | .null, .null => true
  | .bool a, .bool b => a == b
  | .int a, .int b => a == b
  | .float a, .float b => a.equal b
  | .int a, .float b => b.equalsInt a
  | .float a, .int b => a.equalsInt b
  | .str a, .str b => a == b
  | .list xs, .list ys => equalItems xs ys
  | .tuple xs, .tuple ys => equalItems xs ys
  | .set xs, .set ys =>
      xs.length == ys.length && xs.attach.all fun x => ys.attach.any fun y => y.1.equal x.1
  | .dict xs, .dict ys =>
      xs.length == ys.length && xs.attach.all fun x => ys.attach.any fun y =>
        x.1.1.equal y.1.1 && x.1.2.equal y.1.2
  | .object a, .object b => a == b
  | .function a, .function b => a == b
  | .cls a, .cls b => a == b
  | _, _ => false
termination_by a b => sizeOf a + sizeOf b
decreasing_by
  · simp; omega
  · simp; omega
  · have hx := List.sizeOf_lt_of_mem x.2
    have hy := List.sizeOf_lt_of_mem y.2
    simp; omega
  · have hx := sizeOf_entry_lt x.2
    have hy := sizeOf_entry_lt y.2
    simp; omega
  · have hx := sizeOf_entry_lt x.2
    have hy := sizeOf_entry_lt y.2
    simp; omega

/-- Whether two lists are equally long and equal position by position. -/
def equalItems : List Value → List Value → Bool
  | [], [] => true
  | x :: xs, y :: ys => x.equal y && equalItems xs ys
  | _, _ => false
termination_by xs ys => sizeOf xs + sizeOf ys

end

/-- Whether some value of the list equals `v`. The stored value stands on the left. -/
def isIn (v : Value) (items : List Value) : Bool := items.any fun x => x.equal v

/-! ## Equations -/

theorem equal_set (xs ys : List Value) :
    (Value.set xs).equal (.set ys) = (xs.length == ys.length && xs.all fun x => x.isIn ys) := by
  simp [equal, isIn]

theorem equal_dict (xs ys : List (Value × Value)) :
    (Value.dict xs).equal (.dict ys) =
      (xs.length == ys.length &&
        xs.all fun x => ys.any fun y => x.1.equal y.1 && x.2.equal y.2) := by
  rw [equal, Bool.eq_iff_iff]
  simp only [Bool.and_eq_true, List.all_eq_true, List.any_eq_true, List.mem_attach, forall_const,
    Subtype.forall, Subtype.exists, true_and, exists_prop]

end Value

end TypeContracts
