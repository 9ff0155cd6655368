import TypeContracts.Sharing
import TypeContracts.Value.Basic

/-!
Sameness of values: decidable equality of `Value` and `Callable` as data. Two values are the same when
nothing at all tells them apart; the looser equality of the value model is `Value.equal`.
Main statement: `Value.same_iff`.

A callable can hold its receiver, and with it other callables, so values share parts.
`Value.sameShared` gives the answer of `Value.same` without entering what two values have in common.
-/

namespace TypeContracts

mutual

/-- Whether two values are the same datum. -/
def Value.same : Value → Value → Bool
  | .null, .null => true
  | .bool a, .bool b => a == b
  | .int a, .int b => a == b
  | .float a, .float b => a == b
  | .str a, .str b => a == b
  | .list xs, .list ys => sameItems xs ys
  | .tuple xs, .tuple ys => sameItems xs ys
  | .set xs, .set ys => sameItems xs ys
  | .dict xs, .dict ys => sameEntries xs ys
  | .object a, .object b => a == b
  | .function a, .function b => a.same b
  | .cls a, .cls b => a == b
  | _, _ => false

/-- `Value.same` along two lists. -/
def sameItems : List Value → List Value → Bool
  | [], [] => true
  | x :: xs, y :: ys => x.same y && sameItems xs ys
  | _, _ => false

/-- `Value.same` along two lists of entries. -/
def sameEntries : List (Value × Value) → List (Value × Value) → Bool
  | [], [] => true
  | (k, v) :: xs, (l, w) :: ys => k.same l && v.same w && sameEntries xs ys
  | _, _ => false

/-- Whether two callables are the same one. -/
def Callable.same : Callable → Callable → Bool
  | .declared a m, .declared b n => a == b && m == n
  | .bound a m v, .bound b n w => a == b && m == n && v.same w
  | .unbound a m, .unbound b n => a == b && m == n
  | _, _ => false

end

mutual

theorem Value.same_iff : ∀ a b : Value, a.same b = true ↔ a = b := by
  intro a b
  cases a <;> cases b <;> simp only [Value.same, beq_iff_eq, Bool.false_eq_true, reduceCtorEq,
    Value.bool.injEq, Value.int.injEq, Value.float.injEq, Value.str.injEq, Value.list.injEq,
    Value.tuple.injEq, Value.set.injEq, Value.dict.injEq, Value.object.injEq,
    Value.function.injEq, Value.cls.injEq]
  all_goals first
    | exact sameItems_iff _ _
    | exact sameEntries_iff _ _
    | exact Callable.same_iff _ _

theorem sameItems_iff : ∀ xs ys : List Value, sameItems xs ys = true ↔ xs = ys
  | [], [] => by simp [sameItems]
  | [], _ :: _ => by simp [sameItems]
  | _ :: _, [] => by simp [sameItems]
  | x :: xs, y :: ys => by simp [sameItems, Value.same_iff x y, sameItems_iff xs ys]

theorem sameEntries_iff :
    ∀ xs ys : List (Value × Value), sameEntries xs ys = true ↔ xs = ys
  | [], [] => by simp [sameEntries]
  | [], _ :: _ => by simp [sameEntries]
  | _ :: _, [] => by simp [sameEntries]
  | (k, v) :: xs, (l, w) :: ys => by
      simp [sameEntries, Value.same_iff k l, Value.same_iff v w, sameEntries_iff xs ys]

theorem Callable.same_iff : ∀ a b : Callable, a.same b = true ↔ a = b := by
  intro a b
  cases a <;> cases b <;> simp only [Callable.same, Bool.and_eq_true, beq_iff_eq,
    Bool.false_eq_true, reduceCtorEq, Callable.declared.injEq, Callable.bound.injEq,
    Callable.unbound.injEq]
  rename_i a m v b n w
  simp [Value.same_iff v w, and_assoc]

end

mutual

/-- The answer of `Value.same`, without entering parts that both values share. -/
def Value.sameShared (a b : Value) : { r : Bool // r = a.same b } :=
  unlessShared a b (Value.same_iff a b).2 fun _ =>
    match a, b with
    | .list xs, .list ys =>
        ⟨(sameItemsShared xs ys).1, by rw [(sameItemsShared xs ys).2, Value.same]⟩
    | .tuple xs, .tuple ys =>
        ⟨(sameItemsShared xs ys).1, by rw [(sameItemsShared xs ys).2, Value.same]⟩
    | .set xs, .set ys =>
        ⟨(sameItemsShared xs ys).1, by rw [(sameItemsShared xs ys).2, Value.same]⟩
    | .dict xs, .dict ys =>
        ⟨(sameEntriesShared xs ys).1, by rw [(sameEntriesShared xs ys).2, Value.same]⟩
    | .function f, .function g => ⟨(f.sameShared g).1, by rw [(f.sameShared g).2, Value.same]⟩
    | a, b => ⟨a.same b, rfl⟩
termination_by sizeOf a
decreasing_by
  all_goals
    simp only [Value.list.sizeOf_spec, Value.tuple.sizeOf_spec, Value.set.sizeOf_spec,
      Value.dict.sizeOf_spec, Value.function.sizeOf_spec]
    omega

def sameItemsShared : (xs ys : List Value) → { r : Bool // r = sameItems xs ys }
  | x :: xs, y :: ys =>
      ⟨(x.sameShared y).1 && (sameItemsShared xs ys).1, by
        rw [(x.sameShared y).2, (sameItemsShared xs ys).2, sameItems]⟩
  | xs, ys => ⟨sameItems xs ys, rfl⟩
termination_by xs => sizeOf xs
decreasing_by
  all_goals
    simp only [List.cons.sizeOf_spec]
    omega

def sameEntriesShared : (xs ys : List (Value × Value)) → { r : Bool // r = sameEntries xs ys }
  | (k, v) :: xs, (l, w) :: ys =>
      ⟨(k.sameShared l).1 && (v.sameShared w).1 && (sameEntriesShared xs ys).1, by
        rw [(k.sameShared l).2, (v.sameShared w).2, (sameEntriesShared xs ys).2, sameEntries]⟩
  | xs, ys => ⟨sameEntries xs ys, rfl⟩
termination_by xs => sizeOf xs
decreasing_by
  all_goals
    simp only [List.cons.sizeOf_spec, Prod.mk.sizeOf_spec]
    omega

/-- The answer of `Callable.same`, without entering parts that both callables share. -/
def Callable.sameShared (f g : Callable) : { r : Bool // r = f.same g } :=
  unlessShared f g (Callable.same_iff f g).2 fun _ =>
    match f, g with
    | .bound a m v, .bound b n w =>
        ⟨a == b && m == n && (v.sameShared w).1, by rw [(v.sameShared w).2, Callable.same]⟩
    | f, g => ⟨f.same g, rfl⟩
termination_by sizeOf f
decreasing_by
  all_goals
    simp only [Callable.bound.sizeOf_spec]
    omega

end

instance : DecidableEq Value := fun a b =>
  decidable_of_iff ((a.sameShared b).1 = true) (by rw [(a.sameShared b).2, Value.same_iff])

instance : DecidableEq Callable := fun f g =>
  decidable_of_iff ((f.sameShared g).1 = true) (by rw [(f.sameShared g).2, Callable.same_iff])

end TypeContracts
