import Mathlib.Data.List.Chain
import Mathlib.Data.List.Nodup
import TypeContracts.Value.Basic

/-!
Inheritance as a partial order on classes with the root on top, the list of a class's superclasses, and
which values are instances of `NoneType`.
-/

namespace TypeContracts

namespace Class

theorem isSubclassOf_sub {key : Nat} {name : String} {super d : Class} :
    (Class.sub key name super).isSubclassOf d ↔ .sub key name super = d ∨ super.isSubclassOf d := by
  rw [isSubclassOf, Bool.or_eq_true, beq_iff_eq]

/-- Only the root is above the root. -/
theorem object_isSubclassOf {d : Class} : Class.object.isSubclassOf d ↔ d = .object := by
  rw [isSubclassOf, Bool.or_false, beq_iff_eq]
  exact eq_comm

@[simp] theorem isSubclassOf_refl (c : Class) : c.isSubclassOf c := by
  cases c with
  | object => rfl
  | sub key name super => exact isSubclassOf_sub.2 (.inl rfl)

@[simp] theorem isSubclassOf_object (c : Class) : c.isSubclassOf .object := by
  induction c with
  | object => rfl
  | sub key name super ih => exact isSubclassOf_sub.2 (.inr ih)

theorem isSubclassOf_trans {c d e : Class} (hcd : c.isSubclassOf d) (hde : d.isSubclassOf e) :
    c.isSubclassOf e := by
  induction c with
  | object => exact object_isSubclassOf.1 hcd ▸ hde
  | sub key name super ih =>
    rcases isSubclassOf_sub.1 hcd with rfl | hcd
    · exact hde
    · exact isSubclassOf_sub.2 (.inr (ih hcd))

/-- The classes above a class form a chain. -/
theorem isSubclassOf_or_isSubclassOf {c d e : Class} (hd : c.isSubclassOf d) (he : c.isSubclassOf e) :
    d.isSubclassOf e ∨ e.isSubclassOf d := by
  induction c with
  | object =>
    obtain rfl := object_isSubclassOf.1 hd
    exact .inr (isSubclassOf_object e)
  | sub key name super ih =>
    rcases isSubclassOf_sub.1 hd with rfl | hd'
    · exact .inl he
    rcases isSubclassOf_sub.1 he with rfl | he'
    · exact .inr hd
    · exact ih hd' he'

/-! ## The list of superclasses -/

theorem hierarchy_sub (key : Nat) (name : String) (super : Class) :
    (Class.sub key name super).hierarchy = .sub key name super :: super.hierarchy := by
  rw [hierarchy]

/-- Walking up a hierarchy meets the classes that it lists. -/
theorem mem_hierarchy_iff {c d : Class} : d ∈ c.hierarchy ↔ c.isSubclassOf d := by
  induction c with
  | object => rw [hierarchy, List.mem_singleton, object_isSubclassOf]
  | sub key name super ih =>
    rw [hierarchy_sub, List.mem_cons, ih, isSubclassOf_sub, eq_comm]

/-- No class above another one has a longer hierarchy. -/
theorem length_hierarchy_le {c d : Class} (h : c.isSubclassOf d) :
    d.hierarchy.length ≤ c.hierarchy.length := by
  induction c with
  | object => rw [object_isSubclassOf.1 h]
  | sub key name super ih =>
    rcases isSubclassOf_sub.1 h with rfl | above
    · exact Nat.le_refl _
    · have := ih above
      rw [hierarchy_sub, List.length_cons]
      omega

/-- A class is not above its superclass. -/
theorem not_isSubclassOf_sub {key : Nat} {name : String} {super : Class} :
    ¬ super.isSubclassOf (.sub key name super) := by
  intro h
  have longer := length_hierarchy_le h
  rw [hierarchy_sub, List.length_cons] at longer
  omega

theorem isSubclassOf_antisymm {c d : Class} (hcd : c.isSubclassOf d) (hdc : d.isSubclassOf c) :
    c = d := by
  cases c with
  | object => exact (object_isSubclassOf.1 hcd).symm
  | sub key name super =>
    rcases isSubclassOf_sub.1 hcd with same | above
    · exact same
    · exact absurd (isSubclassOf_trans above hdc) not_isSubclassOf_sub

theorem nodup_hierarchy (c : Class) : c.hierarchy.Nodup := by
  induction c with
  | object => exact List.nodup_singleton _
  | sub key name super ih =>
    rw [hierarchy_sub, List.nodup_cons]
    exact ⟨fun again => not_isSubclassOf_sub (mem_hierarchy_iff.1 again), ih⟩

theorem head?_hierarchy (c : Class) : c.hierarchy.head? = some c := by
  cases c <;> rfl

theorem getLast?_hierarchy (c : Class) : c.hierarchy.getLast? = some .object := by
  induction c with
  | object => rfl
  | sub key name super ih => rw [hierarchy_sub, List.getLast?_cons, ih, Option.getD_some]

/-- In a hierarchy each class is followed by its superclass. -/
theorem isChain_hierarchy (c : Class) :
    c.hierarchy.IsChain fun d e => d.super? = some e := by
  induction c with
  | object => exact List.isChain_singleton _
  | sub key name super ih =>
    rw [hierarchy_sub, List.isChain_cons]
    refine ⟨fun e he => ?_, ih⟩
    rw [head?_hierarchy] at he
    exact he

end Class

/-- Besides the absent value only an object can be a direct instance of `NoneType`. -/
theorem Value.classOf_eq_noneType {v : Value} (h : v.classOf = .noneType) :
    v = .null ∨ ∃ o, v = .object o ∧ o.cls = .noneType := by
  cases v with
  | null => exact .inl rfl
  | object o => exact .inr ⟨o, rfl, h⟩
  | _ => simp [classOf, Class.noneType, Class.bool, Class.int, Class.float, Class.str, Class.list,
      Class.tuple, Class.set, Class.dict, Class.function, Class.type] at h

end TypeContracts
