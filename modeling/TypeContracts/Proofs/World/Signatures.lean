import Mathlib.Algebra.Order.BigOperators.Group.List
import TypeContracts.Proofs.Spec.Interface
import TypeContracts.World.Basic

/-!
Where the signatures of callables come from: each is that of a declared function or method, the latter
with or without its receiver. Main statements: `World.declares_of_function` and, for their sizes,
`World.size_le_width_of_calling`.
-/

namespace TypeContracts

namespace World

/-- The signature is that of a function of the world, or of a method of one of its classes. -/
def Declares (w : World) (s : Signature) : Prop :=
  (∃ f ∈ w.functions, f.2.signature = some s) ∨
    ∃ c ∈ w.classes, ∃ m ∈ c.2.methods, m.2.signature = some s

/-- No interface in the signatures of the world redeclares a member that it inherits. -/
def NoRedeclaration (w : World) : Prop := ∀ s, w.Declares s → s.Everywhere Part.NoRedeclaration

/-- In the initial world nothing but the methods of containers is declared, and these have no
signature. -/
theorem noRedeclaration_initial : World.initial.NoRedeclaration := by
  rintro s (⟨f, hf, -⟩ | ⟨c, hc, m, hm, hs⟩)
  · cases hf
  · obtain ⟨_, -, rfl⟩ := List.mem_map.1 hc
    simp only [World.containerMembers, List.mem_cons, List.not_mem_nil, or_false] at hm
    rcases hm with rfl | rfl <;> cases hs

variable {w : World}

/-- A method that a class is found to have is one that it declares. -/
theorem mem_of_ownMethod? {c : Class} {name : String} {m : Method}
    (found : w.ownMethod? c name = some m) :
    ∃ members, (c, members) ∈ w.classes ∧ (name, m) ∈ members.methods := by
  obtain ⟨_, _, split, -⟩ := List.lookup_eq_some_iff.1 found
  rcases hc : w.classes.lookup c with _ | members
  · simp [World.members, hc] at split
  · obtain ⟨_, _, splitC, -⟩ := List.lookup_eq_some_iff.1 hc
    rw [World.members, hc, Option.getD_some] at split
    exact ⟨members, by rw [splitC]; simp, by rw [split]; simp⟩

theorem declares_of_ownMethod? {c : Class} {name : String} {m : Method} {s : Signature}
    (found : w.ownMethod? c name = some m) (hs : m.signature = some s) : w.Declares s := by
  obtain ⟨members, hc, hm⟩ := mem_of_ownMethod? found
  exact .inr ⟨(c, members), hc, (name, m), hm, hs⟩

/-- A method found as a member of a class is the nearest one that is declared. -/
theorem method?_of_static? {c owner : Class} {name : String} {m : Method}
    (found : w.static? c name = some (.method owner m)) : w.method? c name = some (owner, m) := by
  rw [static?] at found
  split at found
  · cases found
  · obtain ⟨_, hm, same⟩ := Option.map_eq_some_iff.1 found
    cases same
    exact hm

theorem ownMethod?_of_method? {c owner : Class} {name : String} {m : Method}
    (found : w.method? c name = some (owner, m)) : w.ownMethod? owner name = some m := by
  obtain ⟨_, -, found⟩ := List.exists_of_findSome?_eq_some found
  obtain ⟨_, own, same⟩ := Option.map_eq_some_iff.1 found
  cases same
  exact own

theorem declares_of_static? {c owner : Class} {name : String} {m : Method} {s : Signature}
    (found : w.static? c name = some (.method owner m)) (hs : m.signature = some s) :
    w.Declares s :=
  declares_of_ownMethod? (ownMethod?_of_method? (method?_of_static? found)) hs

/-- The signature of a callable is one that the world declares, with or without the receiver. -/
theorem declares_of_function {c : Callable} {s : Signature} (h : (w.function c).signature = some s) :
    w.Declares s ∨ ∃ m, w.Declares m ∧ s = m.withReceiver := by
  cases c with
  | declared key name =>
    rw [function] at h
    rcases hf : w.functions.lookup key with _ | f
    · simp [hf, Function.unknown] at h
    · obtain ⟨_, _, split, -⟩ := List.lookup_eq_some_iff.1 hf
      rw [hf, Option.getD_some] at h
      exact .inl (.inl ⟨(key, f), by rw [split]; simp, h⟩)
  | bound fetch method receiver =>
    obtain ⟨owner, name⟩ := method
    rw [function] at h
    rcases hm : w.ownMethod? owner name with _ | m
    · simp [hm, Function.unknown] at h
    · rw [hm] at h
      exact .inl (declares_of_ownMethod? hm h)
  | unbound fetch method =>
    obtain ⟨owner, name⟩ := method
    rw [function] at h
    rcases hm : w.ownMethod? owner name with _ | m
    · simp [hm, Function.unknown] at h
    · rw [hm] at h
      obtain ⟨s', hs, same⟩ := Option.map_eq_some_iff.1 h
      exact .inr ⟨s', declares_of_ownMethod? hm hs, same.symm⟩

/-- What can be learned about a value to call is a signature of the world, with or without the
receiver. -/
theorem declares_of_calling {v : Value} {s : Signature} (h : w.calling v = .signed s) :
    w.Declares s ∨ ∃ m, w.Declares m ∧ s = m.withReceiver := by
  rw [calling] at h
  rcases hc : v.callable? with _ | c
  · simp [hc] at h
  rw [hc] at h
  rcases hf : (w.function c).signature with _ | s'
  · simp [hf] at h
  simp only [hf, Calling.signed.injEq] at h
  exact h ▸ declares_of_function hf

theorem noRedeclaration_of_calling (world : w.NoRedeclaration) {v : Value} {s : Signature}
    (h : w.calling v = .signed s) : s.Everywhere Part.NoRedeclaration := by
  rcases declares_of_calling h with declared | ⟨m, declared, rfl⟩
  · exact world _ declared
  · refine Signature.everywhere trivial (fun q t hq ht => ?_) fun t ht =>
      (world m declared).step (.returns ht)
    rcases List.mem_cons.1 hq with rfl | hq
    · cases ht
    · exact (world m declared).step (.parameter hq ht)

/-! ## Sizes -/

/-- The signatures that functions and methods are declared with. -/
def signatures (w : World) : List Signature :=
  w.functions.filterMap (·.2.signature) ++
    w.classes.flatMap fun c => c.2.methods.filterMap (·.2.signature)

/-- A size that no signature of a callable exceeds. -/
def width (w : World) : Nat := (w.signatures.map fun s => s.size + 1).sum

theorem mem_signatures_of_declares {s : Signature} (h : w.Declares s) : s ∈ w.signatures := by
  rw [signatures, List.mem_append]
  rcases h with ⟨f, hf, hs⟩ | ⟨c, hc, m, hm, hs⟩
  · exact .inl (List.mem_filterMap.2 ⟨f, hf, hs⟩)
  · exact .inr (List.mem_flatMap.2 ⟨c, hc, List.mem_filterMap.2 ⟨m, hm, hs⟩⟩)

theorem size_lt_width {s : Signature} (h : w.Declares s) : s.size < w.width := by
  have listed := List.mem_map_of_mem (f := fun s : Signature => s.size + 1)
    (mem_signatures_of_declares h)
  have := List.single_le_sum (fun n _ => Nat.zero_le n) _ listed
  rw [width]
  omega

theorem size_withReceiver (s : Signature) : s.withReceiver.size = s.size + 1 := by
  rw [Signature.withReceiver, Signature.size_eq, Signature.size_eq s, Param.sizeAll, Param.size_eq]
  dsimp only [TypeSpec.sizeOption]
  omega

theorem size_le_width_of_calling {v : Value} {s : Signature} (h : w.calling v = .signed s) :
    s.size ≤ w.width := by
  rcases declares_of_calling h with declared | ⟨m, declared, rfl⟩
  · exact Nat.le_of_lt (size_lt_width declared)
  · rw [size_withReceiver]
    exact size_lt_width declared

end World

end TypeContracts
