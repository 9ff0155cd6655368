import TypeContracts.Proofs.Conformance.Rules
import TypeContracts.Proofs.Spec.Union
import TypeContracts.Proofs.Value.Contents

/-!
Unions and optionals as upper bounds. A candidate is taken apart before the target is, so what has to
be found again in a union or an optional are the alternatives of the candidate. All of them are found,
except for conjunctions: as a candidate a conjunction goes by its sides, and neither side need be
below a union that has the conjunction itself as a member. Main statements: `isSubtype_of_alternative`,
`isSubtype_upperBound`.
-/

namespace TypeContracts

/-- No value stored in an option set or a signature contains a float that is no number. -/
def Part.NaNFree : Part → Prop
  | .spec (.options _ vs) => ∀ v ∈ vs, v.NaNFree
  | .signature s => ∀ q ∈ s.params, ∀ v ∈ q.default, v.NaNFree
  | _ => True

namespace TypeSpec

/-- `Alternative s t`: `t` is `s` itself, or an alternative of a member of a union or of what an
optional allows besides the absent value. -/
inductive Alternative : TypeSpec → TypeSpec → Prop where
  | self (s : TypeSpec) : Alternative s s
  | member {ss : List TypeSpec} {s t : TypeSpec} (hs : s ∈ ss) (h : Alternative s t) :
      Alternative (.union ss) t
  | inner {s t : TypeSpec} (h : Alternative s t) : Alternative (.optional s) t

theorem Alternative.trans {s t u : TypeSpec} (hst : Alternative s t) (htu : Alternative t u) :
    Alternative s u := by
  induction hst with
  | self => exact htu
  | member hs _ ih => exact .member hs (ih htu)
  | inner _ ih => exact .inner (ih htu)

/-- The members of a spec read as a union are alternatives of it. -/
theorem Alternative.of_mem_flatten {s t : TypeSpec} (ht : t ∈ s.flatten) : Alternative s t := by
  obtain ⟨ss, rfl⟩ | ⟨-, single⟩ := s.flatten_cases
  · obtain ⟨u, hu, ht⟩ := mem_flattenAll.1 ht
    have := List.sizeOf_lt_of_mem hu
    exact .member hu (.of_mem_flatten ht)
  · rw [single] at ht
    exact List.mem_singleton.1 ht ▸ .self s
termination_by sizeOf s
decreasing_by subst_vars; simp; omega

/-- The spec itself, or one equal to it where equality is symmetric. -/
def Counterpart (s t : TypeSpec) : Prop :=
  s = t ∨ s.Everywhere Part.Tame ∧ t.Everywhere Part.Tame ∧ s.equal t

end TypeSpec

namespace Conformance

open TypeSpec (Alternative Counterpart)

variable {w : World} {p : Probe Id}

/-! ## Targets -/

theorem satisfies_of_alternative {v : Value} {s t : TypeSpec} (h : Alternative s t)
    (hv : (satisfies w p v t).run) : (satisfies w p v s).run := by
  induction h with
  | self => exact hv
  | member hs _ ih =>
    rw [satisfies_union, List.any_eq_true]
    exact ⟨_, hs, ih hv⟩
  | inner _ ih => rw [satisfies_optional, ih hv, Bool.or_true]

/-- What is below an alternative of the target is below the target, if it is not taken apart. -/
theorem isSubtype_of_whole {c s t : TypeSpec} (whole : c.isWhole) (h : Alternative s t)
    (below : (isSubtype w p c t).run) : (isSubtype w p c s).run := by
  induction h with
  | self => exact below
  | member hs _ ih => exact isSubtype_of_rule (.toMember whole hs (ih below))
  | inner _ ih => exact isSubtype_of_rule (.toInner whole (ih below))

/-- The absent value is allowed if an alternative is optional. -/
theorem noneType_of_alternative {s t : TypeSpec} (h : Alternative s (.optional t)) :
    (isSubtype w p (.plain .noneType) s).run :=
  isSubtype_of_whole rfl h (isSubtype_of_rule (.toNone rfl))

/-! ## Candidates -/

/-- Every conjunction among the alternatives of `s` equals the target or has a side below it. -/
def ConjunctionsBelow (w : World) (p : Probe Id) (s target : TypeSpec) : Prop :=
  ∀ l r, Alternative s (.both l r) →
    (TypeSpec.both l r).equal target ∨ (isSubtype w p l target).run ∨ (isSubtype w p r target).run

theorem ConjunctionsBelow.of_alternative {s t target : TypeSpec} (h : ConjunctionsBelow w p s target)
    (ht : Alternative s t) : ConjunctionsBelow w p t target :=
  fun l r hlr => h l r (ht.trans hlr)

/-- A spec is below each target that has it, or a counterpart of it, among its alternatives. -/
theorem isSubtype_of_alternative {s t target : TypeSpec} (ht : Alternative target t)
    (same : Counterpart s t) (numbers : s.Everywhere Part.NaNFree)
    (conjunctions : ConjunctionsBelow w p s target) : (isSubtype w p s target).run := by
  have equal : s.equal t := by
    rcases same with rfl | ⟨-, -, same⟩
    · exact s.equal_refl
    · exact same
  cases s with
  | union ss =>
    cases TypeSpec.equal_iff.1 equal with
    | @union _ ts partners =>
      refine isSubtype_of_rule (.union fun a ha => ?_)
      have := List.sizeOf_lt_of_mem ha
      have found : ∃ b ∈ ts, Counterpart a b := by
        rcases same with same | ⟨hs, ht, -⟩
        · cases same
          exact ⟨a, ha, .inl rfl⟩
        · obtain ⟨b, hb, hba⟩ := partners.2 a ha
          have tameA := hs.step (.alternative ha)
          have tameB := ht.step (.alternative hb)
          exact ⟨b, hb, .inr ⟨tameA, tameB, TypeSpec.equal_swap tameB tameA hba⟩⟩
      obtain ⟨b, hb, same⟩ := found
      exact isSubtype_of_alternative (ht.trans (.member hb (.self b))) same
        (numbers.step (.alternative ha)) (conjunctions.of_alternative (.member ha (.self a)))
  | optional a =>
    cases TypeSpec.equal_iff.1 equal with
    | @optional _ b equalInner =>
      refine isSubtype_of_rule (.optional (noneType_of_alternative ht) ?_)
      have same : Counterpart a b := by
        rcases same with same | ⟨hs, ht, -⟩
        · cases same
          exact .inl rfl
        · exact .inr ⟨hs.step (.inner _), ht.step (.inner _), equalInner⟩
      exact isSubtype_of_alternative (ht.trans (.inner (.self b))) same (numbers.step (.inner _))
        (conjunctions.of_alternative (.inner (.self a)))
  | options key vs =>
    cases TypeSpec.equal_iff.1 equal with
    | @options _ key' _ ws alike =>
      refine isSubtype_of_rule (.options fun v hv => satisfies_of_alternative ht ?_)
      have stored : v.isIn ws := by
        rcases alike with ⟨-, rfl⟩ | partners
        · exact List.any_eq_true.2 ⟨v, hv, Value.equal_refl (numbers.self v hv)⟩
        · exact List.any_eq_true.2 (partners.2 v hv)
      exact (satisfies_options w p v key' ws).trans stored
  | both l r =>
    rcases conjunctions l r (.self _) with equal | below
    · exact isSubtype_of_equal equal
    · exact isSubtype_of_rule (rule_both_iff.2 below)
  -- a whole candidate is looked up in the target
  | _ => exact isSubtype_of_whole rfl ht (isSubtype_of_equal equal)
termination_by sizeOf s
decreasing_by all_goals (subst_vars; simp <;> omega)

/-- A normal spec is below whatever its members are below. -/
theorem isSubtype_of_flatten {s target : TypeSpec} (normal : s.Normal)
    (h : ∀ t ∈ s.flatten, (isSubtype w p t target).run) : (isSubtype w p s target).run := by
  obtain ⟨ss, rfl⟩ | ⟨-, single⟩ := s.flatten_cases
  · rw [normal.flatten_union] at h
    exact isSubtype_of_rule (.union h)
  · rw [single] at h
    exact h s (List.mem_singleton_self s)

/-! ## Unions of two specs -/

/-- The first spec is below the union: all its members are kept. -/
theorem isSubtype_or_left {a b : TypeSpec} (normal : a.Normal) (numbers : a.Everywhere Part.NaNFree)
    (conjunctions : ConjunctionsBelow w p a (a.or b)) : (isSubtype w p a (a.or b)).run := by
  refine isSubtype_of_flatten normal fun t ht => ?_
  have kept : t ∈ (a.or b).flatten := by
    rw [TypeSpec.flatten_or]
    exact mem_distinctBy_append normal.distinct_flatten ht
  exact isSubtype_of_alternative (.of_mem_flatten kept) (.inl rfl)
    (TypeSpec.everywhere_flatten numbers ht) (conjunctions.of_alternative (.of_mem_flatten ht))

/-- The second spec is below the union: a member that was dropped has an equal there. -/
theorem isSubtype_or_right {a b : TypeSpec} (ha : a.Everywhere Part.Tame)
    (hb : b.Everywhere Part.Tame) (numbers : b.Everywhere Part.NaNFree)
    (conjunctions : ConjunctionsBelow w p b (a.or b)) : (isSubtype w p b (a.or b)).run := by
  refine isSubtype_of_flatten (hb.imp fun _ => (·.normal)) fun t ht => ?_
  have mem : t ∈ a.flatten ++ b.flatten := List.mem_append_right _ ht
  obtain ⟨k, hk, hkt⟩ := exists_mem_distinctBy t.equal_refl mem
  have tameT := TypeSpec.everywhere_flatten hb ht
  have tameK : k.Everywhere Part.Tame :=
    (List.mem_append.1 (mem_of_mem_distinctBy hk)).elim (TypeSpec.everywhere_flatten ha)
      (TypeSpec.everywhere_flatten hb)
  have kept : k ∈ (a.or b).flatten := TypeSpec.flatten_or a b ▸ hk
  exact isSubtype_of_alternative (.of_mem_flatten kept)
    (.inr ⟨tameT, tameK, TypeSpec.equal_swap tameK tameT hkt⟩)
    (TypeSpec.everywhere_flatten numbers ht) (conjunctions.of_alternative (.of_mem_flatten ht))

/-- Unions and optionals are upper bounds. Specs without floats that are no numbers are below the
optional and, the second if stored values were made by the constructors, below the union, provided that
the conjunctions among their alternatives are. -/
theorem isSubtype_upperBound (w : World) (p : Probe Id) {a b : TypeSpec} (ha : a.Built) (hb : b.Built)
    (numbersA : a.Everywhere Part.NaNFree) (numbersB : b.Everywhere Part.NaNFree) :
    (ConjunctionsBelow w p a (a.or b) → (isSubtype w p a (a.or b)).run) ∧
      (a.Everywhere Part.ValuesBuilt → b.Everywhere Part.ValuesBuilt →
        ConjunctionsBelow w p b (a.or b) → (isSubtype w p b (a.or b)).run) ∧
      (ConjunctionsBelow w p a (.optional a) → (isSubtype w p a (.optional a)).run) := by
  refine ⟨isSubtype_or_left ha.normal numbersA, fun va vb => ?_, ?_⟩
  · exact isSubtype_or_right (WellMade.tame ⟨ha, va⟩) (WellMade.tame ⟨hb, vb⟩) numbersB
  · exact isSubtype_of_alternative (.inner (.self a)) (.inl rfl) numbersA

/-- An optional class, joined with a conjunction of a subclass of this class. -/
theorem optional_int_upperBound :
    let p : Probe Id := ⟨fun _ _ => false, fun _ => ()⟩
    let a : TypeSpec := .optional (.plain .int)
    let b : TypeSpec := .both (.plain .bool) (.predicate ⟨1, "set"⟩)
    (isSubtype .initial p a (a.or b)).run ∧ (isSubtype .initial p b (a.or b)).run ∧
      (isSubtype .initial p a (.optional a)).run := by
  intro p a b
  have numbersA : (TypeSpec.optional (.plain .int)).Everywhere Part.NaNFree :=
    TypeSpec.everywhere_optional trivial (TypeSpec.everywhere_plain trivial)
  have numbersB : (TypeSpec.both (.plain .bool) (.predicate ⟨1, "set"⟩)).Everywhere Part.NaNFree :=
    TypeSpec.everywhere_both trivial (TypeSpec.everywhere_plain trivial)
      (TypeSpec.everywhere_predicate trivial)
  have valuesA : (TypeSpec.optional (.plain .int)).Everywhere Part.ValuesBuilt :=
    TypeSpec.everywhere_optional trivial (TypeSpec.everywhere_plain trivial)
  have valuesB : (TypeSpec.both (.plain .bool) (.predicate ⟨1, "set"⟩)).Everywhere Part.ValuesBuilt :=
    TypeSpec.everywhere_both trivial (TypeSpec.everywhere_plain trivial)
      (TypeSpec.everywhere_predicate trivial)
  obtain ⟨left, right, optional⟩ := isSubtype_upperBound .initial p (.optional (.plain _))
    (.both (.plain _) (.predicate _)) numbersA numbersB
  have unconjoined : ∀ t, ConjunctionsBelow .initial p (.optional (.plain .int)) t := by
    rintro t l r (_ | _ | ⟨⟨_⟩⟩)
  have joined : a.or b = .union [a, b] := by decide +kernel
  refine ⟨left (unconjoined _), right valuesA valuesB ?_, optional (unconjoined _)⟩
  rintro l r ⟨_⟩
  refine .inr (.inl ?_)
  rw [joined]
  refine isSubtype_of_whole rfl (.member List.mem_cons_self (.inner (.self _))) ?_
  exact isSubtype_of_rule (.plain (by decide))

/-- What a conjunction or a set with a repeated element is not below: the union or the optional it was
put into. -/
theorem not_isSubtype_upperBound :
    let p : Probe Id := ⟨fun _ _ => false, fun _ => ()⟩
    let positive : TypeSpec := .both (.plain .int) (.predicate ⟨1, "positive"⟩)
    let pair : TypeSpec := .oneOf 1 [.setOf [.int 1, .int 2]]
    let repeated : TypeSpec := .oneOf 2 [.set [.int 1, .int 1]]
    (positive.Built ∧ positive.Everywhere Part.NaNFree ∧
      (isSubtype .initial p positive (positive.or (.plain .str))).run = false ∧
      (isSubtype .initial p positive (.optional positive)).run = false) ∧
    (pair.Built ∧ pair.Everywhere Part.NaNFree ∧ repeated.Built ∧ repeated.Everywhere Part.NaNFree ∧
      (isSubtype .initial p repeated (pair.or repeated)).run = false) := by
  intro p positive pair repeated
  have numbers : (TypeSpec.both (.plain .int) (.predicate ⟨1, "positive"⟩)).Everywhere Part.NaNFree :=
    TypeSpec.everywhere_both trivial (TypeSpec.everywhere_plain trivial)
      (TypeSpec.everywhere_predicate trivial)
  have sets : ∀ (key : Nat) (i j : Int64),
      (TypeSpec.oneOf key [.set [.int i, .int j]]).Everywhere Part.NaNFree := by
    refine fun key i j => TypeSpec.everywhere_options fun v hv => ?_
    rw [List.mem_singleton.1 (mem_of_mem_distinctBy hv)]
    refine .set fun x hx => ?_
    simp only [List.mem_cons, List.not_mem_nil, or_false] at hx
    rcases hx with rfl | rfl <;> intro _ h <;> cases h
  have set : Value.setOf [.int 1, .int 2] = .set [.int 1, .int 2] := by decide +kernel
  have numbersPair : (TypeSpec.oneOf 1 [.setOf [.int 1, .int 2]]).Everywhere Part.NaNFree :=
    set ▸ sets 1 1 2
  have joined : positive.or (.plain .str) = .union [positive, .plain .str] := by decide +kernel
  have kept : pair.or repeated = .options 1 [.set [.int 1, .int 2]] := by decide +kernel
  refine ⟨⟨.both (.plain _) (.predicate _), numbers, ?_, ?_⟩,
    .options _ _, numbersPair, .options _ _, sets 2 1 1, ?_⟩
  · rw [joined]
    simp +decide [isSubtype, isSubtypeOfParts, isSubtypeByShape, TypeSpec.equal, TypeSpec.isTop,
      positive]
  · simp +decide [isSubtype, isSubtypeOfParts, isSubtypeByShape, TypeSpec.equal, TypeSpec.isTop,
      positive]
  · rw [kept]
    have single : repeated = .options 2 [.set [.int 1, .int 1]] := by decide +kernel
    simp +decide [isSubtype, TypeSpec.equal, TypeSpec.isTop, Value.isIn, Value.equal, single]

end Conformance

end TypeContracts
