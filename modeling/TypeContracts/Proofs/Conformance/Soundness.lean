import TypeContracts.Proofs.Conformance.Rules
import TypeContracts.Proofs.Value.Contents

/-!
Soundness of the check on specs. On structural specs, those that look at a value and at what its
containers hold, a value that satisfies a spec satisfies every spec above it. The values must not
contain objects of a class derived from `NoneType`: these are instances of `NoneType` and still not
absent. Main statement: `isSubtype_sound`.
-/

namespace TypeContracts

namespace Value

/-- No object in the value is of a class derived from `NoneType`. -/
def NoNoneObjects (v : Value) : Prop :=
  ∀ o, Contains v (.object o) → o.cls.isSubclassOf .noneType = false

/-- Without such objects only the absent value is an instance of `NoneType`. -/
theorem isNull_of_classOf {v : Value} (hv : v.NoNoneObjects)
    (h : v.classOf.isSubclassOf .noneType) : v.isNull := by
  cases v with
  | null => rfl
  | object o => exact absurd h (by simp [classOf, hv o (.self _)])
  | _ => cases h

theorem NoNoneObjects.step {v x : Value} (hv : v.NoNoneObjects)
    (h : ∀ y, Contains x y → Contains v y) : x.NoNoneObjects := fun o ho => hv o (h _ ho)

end Value

namespace Conformance

variable {w : World} {p : Probe Id}

/-- A spec in normal form, made of the given forms. -/
structure Structural (forms : List Form) (s : TypeSpec) : Prop where
  normal : s.Normal
  made : s.MadeOf forms

namespace Structural

variable {forms : List Form} {s t : TypeSpec}

theorem step (h : Structural forms s) (hst : Part.Step (.spec s) (.spec t)) : Structural forms t :=
  ⟨h.normal.step hst, h.made.step hst⟩

/-- Without option sets, callable specs and interfaces no values are stored. -/
theorem tame (h : Structural forms s)
    (valueless : .options ∉ forms ∧ .callable ∉ forms ∧ .interface ∉ forms) :
    s.Everywhere Part.Tame := by
  intro x hx
  refine ⟨h.normal x hx, ?_⟩
  have form := h.made x hx
  cases x with
  | spec s =>
    cases s with
    | options => exact absurd form valueless.1
    | _ => trivial
  | signature s => exact absurd form (not_or.2 valueless.2)
  | interface i => trivial

theorem noneType : Structural (.only :: structuralForms) (.plain .noneType) :=
  ⟨TypeSpec.normal_plain _, TypeSpec.everywhere_plain (by decide)⟩

end Structural

/-- Of the values without objects derived from `NoneType` only the absent one satisfies `NoneType`. -/
theorem isNull_of_isNoneType {s : TypeSpec} (hs : s.isNoneType) {v : Value} (hv : v.NoNoneObjects)
    (h : (satisfies w p v s).run) : v.isNull := by
  cases s with
  | plain c =>
    rw [satisfies_plain, beq_iff_eq.1 hs] at h
    exact Value.isNull_of_classOf hv h
  | only c =>
    rw [satisfies_only, beq_iff_eq.1 hs, beq_iff_eq] at h
    exact Value.isNull_of_classOf hv (h ▸ Class.isSubclassOf_refl _)
  | _ => cases hs

/-! ## Soundness

The candidate and the target shrink together, or one of them alone; the value becomes one of its
elements where both are containers. -/

mutual

theorem satisfies_of_rule {a b : TypeSpec} (ha : Structural (.only :: structuralForms) a)
    (hb : Structural structuralForms b) {v : Value} (hv : v.NoNoneObjects) (rule : Rule w p a b)
    (h : (satisfies w p v a).run) : (satisfies w p v b).run := by
  have formA := ha.made.self
  have formB := hb.made.self
  cases rule with
  | union all =>
    rw [satisfies_union, List.any_eq_true] at h
    obtain ⟨s, hs, h⟩ := h
    have := TypeSpec.size_le_of_mem hs
    exact satisfies_of_isSubtype (ha.step (.alternative hs)) hb hv (all s hs) h
  | @optional s _ none some =>
    rw [satisfies_optional, Bool.or_eq_true] at h
    rcases h with null | h
    · -- the absent value is an instance of `NoneType`, which is below `b`
      have absent : (satisfies w p v (.plain .noneType)).run := by
        cases v with
        | null => simp [Value.classOf]
        | _ => cases null
      have := s.size_pos
      exact satisfies_of_isSubtype .noneType hb hv none absent
    · exact satisfies_of_isSubtype (ha.step (.inner _)) hb hv some h
  | left sub =>
    rw [satisfies_both, Bool.and_eq_true] at h
    exact satisfies_of_isSubtype (ha.step (.left _ _)) hb hv sub h.1
  | right sub =>
    rw [satisfies_both, Bool.and_eq_true] at h
    exact satisfies_of_isSubtype (ha.step (.right _ _)) hb hv sub h.2
  | toMember _ ht sub =>
    rw [satisfies_union, List.any_eq_true]
    have := TypeSpec.size_le_of_mem ht
    exact ⟨_, ht, satisfies_of_isSubtype ha (hb.step (.alternative ht)) hv sub h⟩
  | toNone none => simp [isNull_of_isNoneType none hv h]
  | toInner _ sub =>
    rw [satisfies_optional, Bool.or_eq_true]
    exact .inr (satisfies_of_isSubtype ha (hb.step (.inner _)) hv sub h)
  | plain hcd =>
    rw [satisfies_plain] at h ⊢
    exact Class.isSubclassOf_trans h hcd
  | onlyPlain hcd =>
    rw [satisfies_only, beq_iff_eq] at h
    rw [satisfies_plain, h]
    exact hcd
  | list sub =>
    rw [satisfies_list_iff] at h ⊢
    obtain ⟨items, rfl, h⟩ := h
    refine ⟨items, rfl, fun x hx => ?_⟩
    exact satisfies_of_isSubtype (ha.step (.listElement _)) (hb.step (.listElement _))
      (hv.step fun _ => .listItem hx) sub (h x hx)
  | set sub =>
    rw [satisfies_set_iff] at h ⊢
    obtain ⟨items, rfl, h⟩ := h
    refine ⟨items, rfl, fun x hx => ?_⟩
    exact satisfies_of_isSubtype (ha.step (.setElement _)) (hb.step (.setElement _))
      (hv.step fun _ => .setItem hx) sub (h x hx)
  | tuple subs =>
    rw [satisfies_tuple_iff] at h ⊢
    obtain ⟨items, rfl, h⟩ := h
    refine ⟨items, rfl, forall₂_trans (fun x hx s hs t ht hxs hst => ?_) h subs⟩
    have := TypeSpec.size_le_of_mem hs
    have := TypeSpec.size_le_of_mem ht
    exact satisfies_of_isSubtype (ha.step (.position hs)) (hb.step (.position ht))
      (hv.step fun _ => .tupleItem hx) hst hxs
  | mapping hk hx =>
    rw [satisfies_mapping_iff] at h ⊢
    obtain ⟨entries, rfl, h⟩ := h
    refine ⟨entries, rfl, fun e he => ⟨?_, ?_⟩⟩
    · exact satisfies_of_isSubtype (ha.step (.key _ _)) (hb.step (.key _ _))
        (hv.step fun _ => .key he) hk (h e he).1
    · exact satisfies_of_isSubtype (ha.step (.value _ _)) (hb.step (.value _ _))
        (hv.step fun _ => .entry he) hx (h e he).2
  -- the target asks for no exact class, and neither side is an interface or a callable
  | plainOnly | only => simp [Part.HasForm, TypeSpec.form, structuralForms] at formB
  | _ => simp [Part.HasForm, TypeSpec.form, structuralForms] at formA formB
termination_by (a.size + b.size, 0)
decreasing_by all_goals (subst_vars; simp only [Prod.lex_def, TypeSpec.size]; omega)

theorem satisfies_of_alone {a b : TypeSpec} (ha : Structural (.only :: structuralForms) a)
    (hb : Structural structuralForms b) {v : Value} (hv : v.NoNoneObjects) (alone : Alone a b)
    (h : (satisfies w p v a).run) : (satisfies w p v b).run := by
  have formB := hb.made.self
  cases alone with
  | predicate q => exact h
  | both l r =>
    rw [satisfies_both, Bool.and_eq_true] at h ⊢
    exact ⟨satisfies_of_isSubtype (ha.step (.left _ _)) (hb.step (.left _ _)) hv
        (isSubtype_of_equal l) h.1,
      satisfies_of_isSubtype (ha.step (.right _ _)) (hb.step (.right _ _)) hv
        (isSubtype_of_equal r) h.2⟩
  | union partners =>
    rw [satisfies_union, List.any_eq_true] at h ⊢
    obtain ⟨s, hs, h⟩ := h
    obtain ⟨t, ht, hts⟩ := partners.2 s hs
    have := TypeSpec.size_le_of_mem hs
    have := TypeSpec.size_le_of_mem ht
    have hs := ha.step (.alternative hs)
    have ht' := hb.step (.alternative ht)
    -- members are compared against the order of the unions
    have hst := TypeSpec.equal_swap (ht'.tame (by decide)) (hs.tame (by decide)) hts
    exact ⟨t, ht, satisfies_of_isSubtype hs ht' hv (isSubtype_of_equal hst) h⟩
  | optional same =>
    rw [satisfies_optional, Bool.or_eq_true] at h ⊢
    exact h.imp id fun h =>
      satisfies_of_isSubtype (ha.step (.inner _)) (hb.step (.inner _)) hv
        (isSubtype_of_equal same) h
  | _ => simp [Part.HasForm, TypeSpec.form, structuralForms] at formB
termination_by (a.size + b.size, 0)
decreasing_by all_goals (subst_vars; simp only [Prod.lex_def, TypeSpec.size]; omega)

/-- What satisfies a spec satisfies the specs above it. -/
theorem satisfies_of_isSubtype {a b : TypeSpec} (ha : Structural (.only :: structuralForms) a)
    (hb : Structural structuralForms b) {v : Value} (hv : v.NoNoneObjects)
    (hab : (isSubtype w p a b).run) (h : (satisfies w p v a).run) : (satisfies w p v b).run := by
  rcases isSubtype_cases ha.normal hab with top | rule | alone
  · exact satisfies_of_isTop top v
  · exact satisfies_of_rule ha hb hv rule h
  · exact satisfies_of_alone ha hb hv alone h
termination_by (a.size + b.size, 1)

end

/-- The check on specs is sound for structural specs, where the candidate may also ask for exact
classes: a value that satisfies a spec satisfies the specs above it. -/
theorem isSubtype_sound (w : World) (p : Probe Id) {a b : TypeSpec} (ha : a.Built) (hb : b.Built)
    (formsA : a.MadeOf (.only :: structuralForms)) (formsB : b.MadeOf structuralForms) {v : Value}
    (hv : v.NoNoneObjects) (hab : (isSubtype w p a b).run) (h : (satisfies w p v a).run) :
    (satisfies w p v b).run :=
  satisfies_of_isSubtype ⟨ha.normal, formsA⟩ ⟨hb.normal, formsB⟩ hv hab h

/-- Lists of truth values and absent values are lists of optional integers. -/
theorem list_of_optional_sound :
    let member := TypeSpec.union [.only .bool, .plain .noneType]
    let p : Probe Id := ⟨fun _ _ => false, fun _ => ()⟩
    (isSubtype .initial p (.list member) (.list (.optional (.plain .int)))).run ∧
      (satisfies .initial p (.list [.bool true, .null]) (.list (.optional (.plain .int)))).run := by
  intro member p
  have made : TypeSpec.unionOf [.only .bool, .plain .noneType] = .ok member := by
    simp [TypeSpec.unionOf, TypeSpec.flattenAll, TypeSpec.flatten, TypeSpec.distinct,
      TypeSpec.addDistinct, TypeSpec.isIn, TypeSpec.equal, TypeSpec.ofMembers, member]
  have built : member.Built :=
    .union (List.forall_mem_cons.2 ⟨.only _, List.forall_mem_singleton.2 (.plain _)⟩) made
  have formsA : (TypeSpec.list member).MadeOf (.only :: structuralForms) := by
    have forms : ∀ s ∈ [TypeSpec.only .bool, .plain .noneType],
        s.MadeOf (.only :: structuralForms) :=
      List.forall_mem_cons.2 ⟨TypeSpec.everywhere_only (by decide),
        List.forall_mem_singleton.2 (TypeSpec.everywhere_plain (by decide))⟩
    subst member
    exact TypeSpec.everywhere_list (by decide) (TypeSpec.everywhere_union (by decide) forms)
  have formsB : (TypeSpec.list (.optional (.plain .int))).MadeOf structuralForms :=
    TypeSpec.everywhere_list (by decide)
      (TypeSpec.everywhere_optional (by decide) (TypeSpec.everywhere_plain (by decide)))
  have below : (isSubtype .initial p member (.optional (.plain .int))).run := by
    have bool : (isSubtype .initial p (.only .bool) (.optional (.plain .int))).run :=
      isSubtype_of_rule (.toInner rfl (isSubtype_of_rule (.onlyPlain (by decide))))
    exact isSubtype_of_rule (.union (List.forall_mem_cons.2
      ⟨bool, List.forall_mem_singleton.2 (isSubtype_of_rule (.toNone rfl))⟩))
  have regular : Value.NoNoneObjects (.list [.bool true, .null]) := by
    intro o ho
    cases ho with
    | listItem hv ho =>
      simp only [List.mem_cons, List.not_mem_nil, or_false] at hv
      rcases hv with rfl | rfl <;> cases ho
  have satisfied : (satisfies .initial p (.list [.bool true, .null]) (.list member)).run := by
    simp [satisfies_list_iff, member, Value.classOf]
  exact ⟨isSubtype_of_rule (.list below),
    isSubtype_sound .initial p (.list built) (.list (.optional (.plain _))) formsA formsB regular
      (isSubtype_of_rule (.list below)) satisfied⟩

end Conformance

end TypeContracts
