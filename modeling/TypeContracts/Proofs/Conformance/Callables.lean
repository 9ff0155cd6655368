import TypeContracts.Conformance
import TypeContracts.Proofs.Spec.Built

/-!
Callables and callable specs. A callable is checked against a signature by its own signature, and a
callable spec by the one it holds; only the latter check looks first whether the two are equal. This
changes nothing, because equal signatures conform anyway, and without a predicate being asked or anything
being explained. Everything here holds for every probe in every monad.
Main statement: `Conformance.callable_checks_agree`.
-/

namespace TypeContracts

theorem zip_eq_map_zip_attach {α β : Type} (xs : List α) (ys : List β) :
    xs.zip ys = (xs.zip ys.attach).map (Prod.map id Subtype.val) := by
  rw [← List.zip_map_right, List.attach_map_subtype_val]

theorem allM_map {m : Type → Type} [Monad m] {α β : Type} (f : β → m Bool) (g : α → β) (xs : List α) :
    (xs.map g).allM f = xs.allM fun x => f (g x) := by
  induction xs with
  | nil => rfl
  | cons x xs ih => rw [List.map_cons, List.allM, List.allM, ih]

namespace Conformance

variable {m : Type → Type} [Monad m] (w : World) (p : Probe m)

/-- A function with a signature is checked by it. -/
theorem satisfies_callable_of_signature (k : Nat) {f : Callable} {s t : Signature}
    (signature : (w.function f).signature = some s) :
    satisfies w p (.function f) (.callable k t) = signatureConforms w p s t := by
  have calling : w.calling (.function f) = .signed s := by
    simp only [World.calling, Value.callable?, signature]
  rw [satisfies, callableConforms, calling]

/-! ## Equal specs -/

/-- Equal specs are below each other at once. -/
theorem isSubtype_eq_pure_of_equal {s t : TypeSpec} (h : s.equal t) :
    isSubtype w p s t = pure true := by
  unfold isSubtype
  rw [h, Bool.true_or, if_pos rfl]

theorem annotationConforms_eq_pure_of_equal {s t : Option TypeSpec}
    (h : Option.Rel (fun s t => s.equal t) s t) : annotationConforms w p s t = pure true := by
  cases h with
  | none => rw [annotationConforms]
  | some same =>
    rw [annotationConforms]
    exact isSubtype_eq_pure_of_equal w p same

variable [LawfulMonad m]

theorem allM_of_forall_pure {α : Type} {f : α → m Bool} {xs : List α}
    (h : ∀ x ∈ xs, f x = pure true) : xs.allM f = pure true := by
  induction xs with
  | nil => rfl
  | cons x xs ih =>
    rw [List.allM, h x List.mem_cons_self, pure_bind]
    exact ih fun y hy => h y (List.mem_cons_of_mem _ hy)

/-- A check of two lists side by side answers yes at once if it does so pair by pair. -/
theorem allM_zip_attach_of_forall₂ {α β : Type} {R : α → β → Prop} {f : α → β → m Bool}
    (hf : ∀ x y, R x y → f x y = pure true) {xs : List α} {ys : List β} (h : List.Forall₂ R xs ys) :
    ((xs.zip ys.attach).allM fun q => f q.1 q.2.1) = pure true := by
  refine allM_of_forall_pure fun q hq => hf _ _ (List.forall₂_zip h ?_)
  rw [zip_eq_map_zip_attach]
  exact List.mem_map_of_mem hq

/-- Two parameters of one name with equal annotations, whatever their defaults. -/
def SameDemand (q r : Param) : Prop :=
  q.name = r.name ∧ Option.Rel (fun s t => s.equal t) q.type r.type

theorem paramConforms_eq_pure_of_sameDemand {q r : Param} (h : SameDemand q r) :
    paramConforms w p q r = pure true := by
  obtain ⟨name, type⟩ := h
  rw [paramConforms, name, bne_self_eq_false, if_neg Bool.false_ne_true,
    annotationConforms_eq_pure_of_equal w p type, pure_bind, if_pos rfl]

/-- Annotations equal themselves, even where a signature does not because of a default. -/
theorem sameDemands_of_equal {s t : Signature} (h : s = t ∨ s.equal t) :
    List.Forall₂ SameDemand s.params t.params ∧
      Option.Rel (fun a b => a.equal b) s.returns t.returns := by
  have self : ∀ a : Option TypeSpec, Option.Rel (fun a b => a.equal b) a a := by
    intro a
    cases a with
    | none => exact .none
    | some a => exact .some a.equal_refl
  rcases h with rfl | h
  · exact ⟨List.forall₂_same.2 fun q _ => ⟨rfl, self q.type⟩, self s.returns⟩
  · obtain ⟨params, returns⟩ := Signature.equal_iff.1 h
    refine ⟨params.imp fun q r same => ?_, returns⟩
    obtain ⟨name, -, type, -⟩ := Param.equal_iff.1 same
    exact ⟨name, type⟩

/-- Signatures that make the same demands conform at once. -/
theorem signatureConforms_eq_pure {s t : Signature} (fixed : s.isVariadic = false)
    (params : List.Forall₂ SameDemand s.params t.params)
    (returns : Option.Rel (fun a b => a.equal b) s.returns t.returns) :
    signatureConforms w p s t = pure true := by
  have len := params.length_eq
  -- the lists of parameters are equally long, so none is left over
  have rest : s.params.drop t.params.length = [] := List.drop_eq_nil_of_le len.le
  have all := allM_zip_attach_of_forall₂
    (fun q r => paramConforms_eq_pure_of_sameDemand w p (q := q) (r := r)) params
  rw [signatureConforms, fixed, if_neg Bool.false_ne_true, if_neg len.ge.not_gt, rest, List.find?_nil]
  dsimp only
  rw [all, pure_bind, if_pos rfl, annotationConforms_eq_pure_of_equal w p returns, pure_bind, if_pos rfl]

/-- A signature meets itself and those equal to it at once, unless it is variadic. -/
theorem signatureConforms_eq_pure_of_equal {s t : Signature} (h : s = t ∨ s.equal t)
    (fixed : s.isVariadic = false) : signatureConforms w p s t = pure true := by
  obtain ⟨params, returns⟩ := sameDemands_of_equal h
  exact signatureConforms_eq_pure w p fixed params returns

/-- Equality of annotations goes both ways, so equal signatures make the same demands in both. -/
theorem sameDemands_swap {s t : Signature} (made : ∀ a ∈ s.specs ++ t.specs, WellMade a)
    (h : s.equal t) :
    List.Forall₂ SameDemand t.params s.params ∧
      Option.Rel (fun a b => a.equal b) t.returns s.returns := by
  obtain ⟨params, returns⟩ := sameDemands_of_equal (.inr h)
  have swap : ∀ a ∈ s.specs, ∀ b ∈ t.specs, a.equal b → b.equal a := fun a ha b hb =>
    TypeSpec.equal_swap (made a (List.mem_append_left _ ha)).tame (made b (List.mem_append_right _ hb)).tame
  constructor
  · refine forall₂_symm (fun q hq r hr demand => ⟨demand.1.symm, ?_⟩) params
    refine optionRel_symm (fun a ha b hb => swap a ?_ b ?_) demand.2
    · exact Signature.mem_specs_of_parameter hq ha
    · exact Signature.mem_specs_of_parameter hr hb
  · refine optionRel_symm (fun a ha b hb => swap a ?_ b ?_) returns
    · exact Signature.mem_specs_of_returns ha
    · exact Signature.mem_specs_of_returns hb

/-! ## Callables -/

/-- Two callable specs compare as their signatures do: their equality is a shortcut. -/
theorem isSubtype_callable (j k : Nat) {s t : Signature} (fixed : s.isVariadic = false) :
    isSubtype w p (.callable j s) (.callable k t) = signatureConforms w p s t := by
  by_cases same : (TypeSpec.callable j s).equal (.callable k t)
  · rw [isSubtype_eq_pure_of_equal w p same]
    cases TypeSpec.equal_iff.1 same with
    | callable h => rw [signatureConforms_eq_pure_of_equal w p (h.imp And.right id) fixed]
  · rw [isSubtype, if_neg (by simp [same, TypeSpec.isTop]), isSubtypeOfParts, isSubtypeByShape]
    all_goals simp

/-- For signatures without variadic parameters there are callable specs, and the check of a function that
has the first signature is the check of its callable spec: the two ask the same predicates in the same
order, explain the same and give the same answer. If the signatures are equal, each conforms to the other;
that the second conforms to the first takes annotations made by the constructors. -/
theorem callable_checks_agree (j k : Nat) {s e : Signature} (fixed : s.isVariadic = false)
    (fixed' : e.isVariadic = false) :
    (∃ narrow wide, TypeSpec.callableOf j s = .ok narrow ∧ TypeSpec.callableOf k e = .ok wide ∧
      ∀ f, (w.function f).signature = some s →
        satisfies w p (.function f) wide = isSubtype w p narrow wide) ∧
      (s.equal e → signatureConforms w p s e = pure true ∧
        ((∀ t ∈ s.specs ++ e.specs, WellMade t) → signatureConforms w p e s = pure true)) := by
  constructor
  · refine ⟨.callable j s, .callable k e, ?_, ?_, fun f signature => ?_⟩
    · rw [TypeSpec.callableOf, Signature.requireFixedArity_of_fixed fixed]
      rfl
    · rw [TypeSpec.callableOf, Signature.requireFixedArity_of_fixed fixed']
      rfl
    · rw [satisfies_callable_of_signature w p k signature, isSubtype_callable w p j k fixed]
  · intro same
    refine ⟨signatureConforms_eq_pure_of_equal w p (.inr same) fixed, fun made => ?_⟩
    obtain ⟨params, returns⟩ := sameDemands_swap made same
    exact signatureConforms_eq_pure w p fixed' params returns

/-- Two signatures that list the members of a union in different orders, under a probe that gives up as
soon as it is asked or told anything. -/
theorem union_callables_agree :
    let s : Signature := ⟨[⟨"x", .positional, some (.union [.plain .int, .plain .str]), none⟩], none⟩
    let e : Signature := ⟨[⟨"x", .positional, some (.union [.plain .str, .plain .int]), none⟩], none⟩
    let declared := World.initial.declareFunction "f" (some s) (.host 0)
    let p : Probe Option := ⟨fun _ _ => none, fun _ => none⟩
    s.equal e ∧ signatureConforms declared.2 p s e = some true ∧
      signatureConforms declared.2 p e s = some true ∧
      satisfies declared.2 p (.function declared.1.callable) (.callable 1 e) =
        isSubtype declared.2 p (.callable 0 s) (.callable 1 e) := by
  intro s e declared p
  have made : ∀ c d : Class, c ≠ d → WellMade (.union [.plain c, .plain d]) := by
    intro c d apart
    have made : TypeSpec.unionOf [.plain c, .plain d] = .ok (.union [.plain c, .plain d]) := by
      simp [TypeSpec.unionOf, TypeSpec.flattenAll, TypeSpec.flatten, TypeSpec.distinct,
        TypeSpec.addDistinct, TypeSpec.isIn, TypeSpec.equal, TypeSpec.ofMembers, apart]
    have plain : ∀ t ∈ [TypeSpec.plain c, .plain d], WellMade t := by simp [wellMade_plain]
    exact ⟨.union (fun t ht => (plain t ht).built) made,
      TypeSpec.everywhere_union trivial fun t ht => (plain t ht).values⟩
  have equal : s.equal e := by decide +kernel
  obtain ⟨⟨narrow, wide, hs, he, agree⟩, conform⟩ :=
    callable_checks_agree declared.2 p 0 1 (s := s) (e := e) rfl rfl
  cases hs
  cases he
  obtain ⟨there, back⟩ := conform equal
  refine ⟨equal, there, back fun t ht => ?_, agree _ rfl⟩
  have annotations : s.specs ++ e.specs =
      [.union [.plain .int, .plain .str], .union [.plain .str, .plain .int]] := rfl
  rw [annotations, List.mem_pair] at ht
  rcases ht with rfl | rfl
  · exact made _ _ (by decide)
  · exact made _ _ (by decide)

end Conformance

end TypeContracts
