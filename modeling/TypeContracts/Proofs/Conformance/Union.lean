import TypeContracts.Proofs.Conformance.Interchange
import TypeContracts.Proofs.Conformance.Simulation
import TypeContracts.Proofs.Spec.Union

/-!
What unions accept. A union accepts a value if one of the specs it was made from does: it keeps an equal
of each of their members, and equal specs accept the same values. Specs without predicates, interfaces and
callables accept the same values in every world, so their unions do so in every world too. Main statements:
`satisfies_unionOf`, `unionOf_join`, `satisfies_or_of_bare`.
-/

namespace TypeContracts

namespace Conformance

open TypeSpec (unionOf Regrouped)

variable {w : World} {p : Probe Id}

/-- A spec accepts what some of its members does when it is read as a union. -/
theorem satisfies_iff_flatten {v : Value} {s : TypeSpec} :
    (satisfies w p v s).run ↔ ∃ t ∈ s.flatten, (satisfies w p v t).run := by
  obtain ⟨ss, rfl⟩ | ⟨-, single⟩ := s.flatten_cases
  · rw [satisfies_union, List.any_eq_true]
    constructor
    · rintro ⟨s, hs, hv⟩
      have := List.sizeOf_lt_of_mem hs
      obtain ⟨t, ht, hv⟩ := satisfies_iff_flatten.1 hv
      exact ⟨t, TypeSpec.mem_flattenAll.2 ⟨s, hs, ht⟩, hv⟩
    · rintro ⟨t, ht, hv⟩
      obtain ⟨s, hs, ht⟩ := TypeSpec.mem_flattenAll.1 ht
      have := List.sizeOf_lt_of_mem hs
      exact ⟨s, hs, satisfies_iff_flatten.2 ⟨t, ht, hv⟩⟩
  · rw [single]
    simp
termination_by sizeOf s
decreasing_by all_goals (subst_vars; simp; omega)

section world

variable (world : w.NoRedeclaration)

include world

/-- A dropped member accepts nothing that the member kept in its place does not accept. -/
theorem satisfies_of_kept {ss : List TypeSpec} (hs : ∀ s ∈ ss, s.Everywhere Part.Tame) {v : Value}
    {t : TypeSpec} (ht : t ∈ ss) (hv : (satisfies w p v t).run) :
    ∃ k ∈ TypeSpec.distinct ss, (satisfies w p v k).run := by
  obtain ⟨k, hk, hkt⟩ := exists_mem_distinctBy t.equal_refl ht
  have tame := hs k (mem_of_mem_distinctBy hk)
  have htk := TypeSpec.equal_swap tame (hs t ht) hkt
  exact ⟨k, hk, (carriesBelow world _ (hs t ht) tame (Nat.lt_succ_self _) htk).value v hv⟩

/-- A union accepts exactly what some of the specs it was made from accepts. -/
theorem satisfies_unionOf {ms : List TypeSpec} (hm : ∀ m ∈ ms, WellMade m) {u : TypeSpec}
    (made : unionOf ms = .ok u) (v : Value) :
    (satisfies w p v u).run ↔ ∃ m ∈ ms, (satisfies w p v m).run := by
  rw [satisfies_iff_flatten, TypeSpec.flatten_unionOf made]
  constructor
  · rintro ⟨t, ht, hv⟩
    obtain ⟨m, hm, ht⟩ := TypeSpec.mem_flattenAll.1 (mem_of_mem_distinctBy ht)
    exact ⟨m, hm, satisfies_iff_flatten.2 ⟨t, ht, hv⟩⟩
  · rintro ⟨m, mem, hv⟩
    obtain ⟨t, ht, hv⟩ := satisfies_iff_flatten.1 hv
    have tame : ∀ t ∈ TypeSpec.flattenAll ms, t.Everywhere Part.Tame := fun t =>
      TypeSpec.everywhere_flattenAll fun m mem => (hm m mem).tame
    exact satisfies_of_kept world tame (TypeSpec.mem_flattenAll.2 ⟨m, mem, ht⟩) hv

end world

/-! ## Bare specs -/

/-- The forms that ask nothing of the world and of predicates. -/
def bareForms : List Form :=
  [.any, .plain, .both, .union, .list, .set, .tuple, .mapping, .optional, .only, .options]

/-- A spec of these forms accepts the same values in every world and with every probe. -/
theorem satisfies_of_bare {s : TypeSpec} (bare : s.MadeOf bareForms) (w w' : World) (p q : Probe Id)
    (v : Value) : satisfies w p v s = satisfies w' q v s := by
  refine (Probe.Simulation.ofPure w p w' q).satisfies v fun x hx => ?_
  -- no part of the spec is one that has to agree
  match x, bare x hx with
  | .spec .any, _ | .spec (.plain _), _ | .spec (.both _ _), _ | .spec (.union _), _
  | .spec (.list _), _ | .spec (.set _), _ | .spec (.tuple _), _ | .spec (.mapping _ _), _
  | .spec (.optional _), _ | .spec (.only _), _ | .spec (.options _ _), _ => trivial

/-- The union of two bare specs accepts what one of them does, whatever the interfaces of the world
redeclare. -/
theorem satisfies_or_of_bare {s t : TypeSpec} (hs : WellMade s) (ht : WellMade t)
    (bareS : s.MadeOf bareForms) (bareT : t.MadeOf bareForms) (v : Value) :
    (satisfies w p v (s.or t)).run ↔ (satisfies w p v s).run ∨ (satisfies w p v t).run := by
  have members : ∀ m ∈ [s, t], WellMade m := by simp [hs, ht]
  have made : unionOf [s, t] = .ok (s.or t) := by
    rw [TypeSpec.or_eq]
    exact TypeSpec.unionOf_eq (fun m hm => (members m hm).built.normal) (List.cons_ne_nil _ _)
  have bare : (s.or t).MadeOf bareForms :=
    TypeSpec.everywhere_or (fun _ => show Form.union ∈ bareForms by decide) bareS bareT
  rw [satisfies_of_bare bare w .initial p p, satisfies_of_bare bareS w .initial p p,
    satisfies_of_bare bareT w .initial p p, satisfies_unionOf World.noRedeclaration_initial members made]
  simp

/-- Union is a join. Specs, one at least, have a union, which stays the same up to equality however
they are reordered, repeated and nested; that of two specs is made by `or` too; that of specs equal to
the first is the first. It accepts a value if and only if one of them does. -/
theorem unionOf_join (world : w.NoRedeclaration) (p : Probe Id) {ms : List TypeSpec}
    (nonempty : ms ≠ []) (hm : ∀ m ∈ ms, WellMade m) :
    ∃ u, unionOf ms = .ok u ∧
      (∀ ms', Regrouped ms ms' → ∃ u', unionOf ms' = .ok u' ∧ u.equal u') ∧
      (∀ a b, ms = [a, b] → (a.or b).equal u) ∧
      (∀ m rest, ms = m :: rest → (∀ n ∈ rest, m.equal n) → u = m) ∧
      ∀ v, (satisfies w p v u).run ↔ ∃ m ∈ ms, (satisfies w p v m).run := by
  have normal : ∀ m ∈ ms, m.Normal := fun m mem => (hm m mem).built.normal
  have made := TypeSpec.unionOf_eq normal nonempty
  refine ⟨_, made, ?_, ?_, ?_, satisfies_unionOf world hm made⟩
  · intro ms' regrouped
    have same := regrouped.sameMembers hm nonempty
    have made' := TypeSpec.unionOf_eq (fun m mem => (same.wellMade m mem).built.normal) same.nonempty
    refine ⟨_, made', ?_⟩
    exact TypeSpec.unionOf_equal (fun m mem => (hm m mem).tame)
      (fun m mem => (same.wellMade m mem).tame) made made' same.there same.back
  · rintro a b rfl
    rw [TypeSpec.or_eq]
    exact TypeSpec.equal_refl _
  · rintro m rest rfl alike
    obtain ⟨first, others⟩ := List.forall_mem_cons.1 hm
    have alone := TypeSpec.unionOf_of_equal first.tame (fun n hn => (others n hn).tame) alike
    exact Except.ok.inj (made.symm.trans alone)

/-- A class twice and an option, in two orders. -/
theorem int_or_option_join :
    let p : Probe Id := ⟨fun _ _ => false, fun _ => ()⟩
    let option : TypeSpec := .oneOf 1 [.str "a"]
    ∃ u u', unionOf [.plain .int, option, .plain .int] = .ok u ∧
      unionOf [option, .plain .int, .plain .int] = .ok u' ∧ u.equal u' ∧
      (satisfies .initial p (.str "a") u).run ∧ ¬ (satisfies .initial p .null u).run := by
  intro p option
  have options : WellMade option :=
    wellMade_oneOf 1 fun v hv => List.mem_singleton.1 hv ▸ .str "a"
  have wellMade : ∀ m ∈ [TypeSpec.plain .int, option, .plain .int], WellMade m := by
    simp [wellMade_plain, options]
  have swapped : Regrouped [.plain .int, option, .plain .int] [option, .plain .int, .plain .int] :=
    .reordered (.swap _ _ _)
  obtain ⟨u, made, same, -, -, accepts⟩ :=
    unionOf_join World.noRedeclaration_initial p (List.cons_ne_nil _ _) wellMade
  obtain ⟨u', made', equal⟩ := same _ swapped
  refine ⟨u, u', made, made', equal, (accepts _).2 ⟨option, by simp, ?_⟩, fun h => ?_⟩
  · exact (satisfies_options _ p _ 1 _).trans (by decide +kernel)
  · obtain ⟨m, hm, hv⟩ := (accepts _).1 h
    simp only [List.mem_cons, List.not_mem_nil, or_false] at hm
    rcases hm with rfl | rfl | rfl
    · cases (satisfies_plain _ p _ _).symm.trans hv
    · have := (satisfies_options _ p _ 1 _).symm.trans hv
      revert this
      decide +kernel
    · cases (satisfies_plain _ p _ _).symm.trans hv

end Conformance

end TypeContracts
