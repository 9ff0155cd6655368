import TypeContracts.Proofs.Class
import TypeContracts.Proofs.Conformance.Rules
import TypeContracts.Proofs.Spec.Equality

/-!
Nominal specs: those that look at nothing but the class of a value. On these the two checks agree, a
value satisfying a spec exactly when its class is below it, except that an object made directly from
`NoneType` is not the absent value that its class stands for.
Main statement: `satisfies_agrees_with_class`.
-/

namespace TypeContracts.Conformance

/-- The forms that look at nothing but the class of a value. -/
def nominalForms : List Form := [.any, .plain, .only, .union, .optional]

variable {w : World} {p : Probe Id}

/-- The class of a value that satisfies a nominal spec is below the spec. -/
theorem class_isSubtype_of_satisfies {s : TypeSpec} (hs : s.MadeOf nominalForms) {v : Value}
    (h : (satisfies w p v s).run) : (isSubtype w p (.plain v.classOf) s).run := by
  have form := hs.self
  rw [isSubtype_iff]
  cases s with
  | any => exact .inr (.inl rfl)
  | plain c =>
    rw [satisfies_plain] at h
    exact .inr (.inr (.plain h))
  | only c =>
    rw [satisfies_only, beq_iff_eq] at h
    exact .inr (.inr (h ▸ .plainOnly _))
  | union ss =>
    rw [satisfies_union, List.any_eq_true] at h
    obtain ⟨s, mem, h⟩ := h
    have := List.sizeOf_lt_of_mem mem
    have := class_isSubtype_of_satisfies (hs.step (.alternative mem)) h
    exact .inr (.inr (.toMember rfl mem this))
  | optional s =>
    rw [satisfies_optional, Bool.or_eq_true] at h
    rcases h with null | h
    · cases v with
      | null => exact .inr (.inr (.toNone rfl))
      | _ => cases null
    · have := class_isSubtype_of_satisfies (hs.step (.inner s)) h
      exact .inr (.inr (.toInner rfl this))
  | _ => simp [Part.HasForm, TypeSpec.form, nominalForms] at form
termination_by sizeOf s
decreasing_by all_goals (subst_vars; simp <;> omega)

/-- A value satisfies the nominal specs above its class, unless it is an object made directly from
`NoneType`. -/
theorem satisfies_of_class_isSubtype {s : TypeSpec} (hs : s.MadeOf nominalForms) {v : Value}
    (regular : ∀ o, v = .object o → o.cls ≠ .noneType)
    (h : (isSubtype w p (.plain v.classOf) s).run) : (satisfies w p v s).run := by
  rw [isSubtype_iff] at h
  rcases h with same | top | rule
  · cases TypeSpec.equal_iff.1 same with
    | plain => simp
  · cases s with
    | any => simp
    | plain c =>
      have : c = .object := beq_iff_eq.1 top
      simp [this]
    | _ => cases top
  · cases rule with
    | plain h => simpa using h
    | plainOnly => simp
    | toMember _ mem h =>
      have := List.sizeOf_lt_of_mem mem
      rw [satisfies_union, List.any_eq_true]
      exact ⟨_, mem, satisfies_of_class_isSubtype (hs.step (.alternative mem)) regular h⟩
    | toNone none =>
      -- the class is `NoneType`, and no object stands behind it
      rcases Value.classOf_eq_noneType (beq_iff_eq.1 none) with rfl | ⟨o, rfl, ho⟩
      · simp [Value.isNull]
      · exact absurd ho (regular o rfl)
    | toInner _ h =>
      rw [satisfies_optional, Bool.or_eq_true]
      exact .inr (satisfies_of_class_isSubtype (hs.step (.inner _)) regular h)
    | plainInterface =>
      have form := hs.self
      simp [Part.HasForm, TypeSpec.form, nominalForms] at form
termination_by sizeOf s
decreasing_by all_goals (subst_vars; simp <;> omega)

/-- On nominal specs a value that satisfies a spec has its class below the spec, and conversely unless
the value is an object made directly from `NoneType`. -/
theorem satisfies_agrees_with_class (w : World) (p : Probe Id) {s : TypeSpec}
    (hs : s.MadeOf nominalForms) (v : Value) :
    ((satisfies w p v s).run → (isSubtype w p (.plain v.classOf) s).run) ∧
      ((∀ o, v = .object o → o.cls ≠ .noneType) →
        (isSubtype w p (.plain v.classOf) s).run → (satisfies w p v s).run) :=
  ⟨class_isSubtype_of_satisfies hs, satisfies_of_class_isSubtype hs⟩

/-- A truth value satisfies "an integer, exactly a float, or nothing", and its class is below that. -/
theorem bool_agrees_with_class :
    let s := TypeSpec.optional (.union [.only .float, .plain .int])
    let p : Probe Id := ⟨fun _ _ => false, fun _ => ()⟩
    s.MadeOf nominalForms ∧ (satisfies .initial p (.bool true) s).run ∧
      (isSubtype .initial p (.plain .bool) s).run := by
  intro s p
  have made : s.MadeOf nominalForms := by
    subst s
    have members : ∀ t ∈ [TypeSpec.only .float, .plain .int], t.MadeOf nominalForms :=
      List.forall_mem_cons.2 ⟨TypeSpec.everywhere_only (by decide),
        List.forall_mem_singleton.2 (TypeSpec.everywhere_plain (by decide))⟩
    exact TypeSpec.everywhere_optional (by decide) (TypeSpec.everywhere_union (by decide) members)
  have satisfied : (satisfies .initial p (.bool true) s).run := by
    simp only [s, satisfies_optional, satisfies_union, List.any_cons, satisfies_only, satisfies_plain]
    decide
  exact ⟨made, satisfied, (satisfies_agrees_with_class .initial p made (.bool true)).1 satisfied⟩

end TypeContracts.Conformance
