import TypeContracts.Proofs.Conformance.Rules

/-!
Transitivity of the check on specs, for structural specs and callable specs without default values, over
classes not derived from `NoneType`. Which spec is taken apart depends on all three of them, so the
induction is on the sum of their sizes: `TransitiveBelow` is its hypothesis, and there is one lemma for
each way in which the first two specs are related. Main statement: `isSubtype_trans`.
-/

namespace TypeContracts

/-- What transitivity asks of a part besides its form: no parameter has a default value, and no class
inherits from `NoneType`. -/
def Part.Composable : Part → Prop
  | .spec (.plain c) => c.isSubclassOf .noneType → c = .noneType
  | .signature s => ∀ q ∈ s.params, q.hasDefault = false
  | _ => True

/-- A part in normal form, of a form for which the check is transitive. -/
structure Part.Regular (x : Part) : Prop where
  normal : x.Normal
  made : x.HasForm (.callable :: structuralForms)
  composable : x.Composable

namespace Part.Regular

theorem not_interface {i : Interface} : ¬ Regular (.spec (.interface i)) := fun h => by
  simpa [HasForm, TypeSpec.form, structuralForms] using h.made

theorem not_only {c : Class} : ¬ Regular (.spec (.only c)) := fun h => by
  simpa [HasForm, TypeSpec.form, structuralForms] using h.made

theorem not_options {key : Nat} {vs : List Value} : ¬ Regular (.spec (.options key vs)) := fun h => by
  simpa [HasForm, TypeSpec.form, structuralForms] using h.made

end Part.Regular

/-- Without option sets and default values no values are stored. -/
theorem Part.Regular.tame {x : Part} (h : x.Regular) : x.Tame := by
  refine ⟨h.normal, ?_⟩
  cases x with
  | spec s =>
    cases s with
    | options => exact absurd h not_options
    | _ => trivial
  | signature s =>
    intro q hq v hv
    have := h.composable q hq
    simp [Param.hasDefault, Option.mem_def.1 hv] at this
  | interface i => trivial

/-- Equality of regular specs is symmetric. -/
theorem TypeSpec.equal_swap_of_regular {s t : TypeSpec} (hs : s.Everywhere Part.Regular)
    (ht : t.Everywhere Part.Regular) (h : s.equal t) : t.equal s :=
  TypeSpec.equal_swap (hs.imp fun _ => (·.tame)) (ht.imp fun _ => (·.tame)) h

namespace Conformance

variable {w : World} {p : Probe Id}

/-- Transitivity for specs of total size below `n`. -/
def TransitiveBelow (w : World) (p : Probe Id) (n : Nat) : Prop :=
  ∀ {a b c : TypeSpec}, a.Everywhere Part.Regular → b.Everywhere Part.Regular →
    c.Everywhere Part.Regular → a.size + b.size + c.size < n →
    (isSubtype w p a b).run → (isSubtype w p b c).run → (isSubtype w p a c).run

/-! ## Signatures -/

/-- Without default values the parameters of two conforming signatures correspond. -/
theorem signatureConforms_iff_of_noDefaults {s t : Signature}
    (required : ∀ q ∈ s.params, q.hasDefault = false) :
    (signatureConforms w p s t).run ↔ s.isVariadic = false ∧
      List.Forall₂ (fun q r => (paramConforms w p q r).run) s.params t.params ∧
      (annotationConforms w p s.returns t.returns).run := by
  rw [signatureConforms_iff]
  constructor
  · rintro ⟨fixed, long, extra, params, returns⟩
    -- a surplus parameter would have to have a default value
    have short : s.params.length ≤ t.params.length := by
      by_contra longer
      obtain ⟨q, hq⟩ := List.exists_mem_of_length_pos (l := s.params.drop t.params.length)
        (by rw [List.length_drop]; omega)
      have := extra q hq
      rw [required q (List.mem_of_mem_drop hq)] at this
      cases this
    exact ⟨fixed, List.forall₂_iff_zip.2 ⟨by omega, fun hqr => params _ hqr⟩, returns⟩
  · rintro ⟨fixed, params, returns⟩
    refine ⟨fixed, params.length_eq.ge, ?_, fun qr hqr => List.forall₂_zip params hqr, returns⟩
    simp [← params.length_eq]

theorem annotationConforms_trans {n : Nat} (ih : TransitiveBelow w p n) {s t u : Option TypeSpec}
    (h : ∀ a ∈ s, ∀ b ∈ t, ∀ c ∈ u, a.Everywhere Part.Regular ∧ b.Everywhere Part.Regular ∧
      c.Everywhere Part.Regular ∧ a.size + b.size + c.size < n)
    (hst : (annotationConforms w p s t).run) (htu : (annotationConforms w p t u).run) :
    (annotationConforms w p s u).run := by
  rw [annotationConforms_iff] at hst htu ⊢
  intro c hc
  obtain ⟨b, hb, hbc⟩ := htu c hc
  obtain ⟨a, ha, hab⟩ := hst b hb
  obtain ⟨ra, rb, rc, size⟩ := h a ha b hb c hc
  exact ⟨a, ha, ih ra rb rc size hab hbc⟩

theorem signatureConforms_trans {s t u : Signature} {n : Nat} (ih : TransitiveBelow w p n)
    (hs : s.Everywhere Part.Regular) (ht : t.Everywhere Part.Regular)
    (hu : u.Everywhere Part.Regular) (size : s.size + t.size + u.size ≤ n)
    (hst : (signatureConforms w p s t).run) (htu : (signatureConforms w p t u).run) :
    (signatureConforms w p s u).run := by
  rw [signatureConforms_iff_of_noDefaults hs.self.composable] at hst ⊢
  rw [signatureConforms_iff_of_noDefaults ht.self.composable] at htu
  obtain ⟨fixed, params, returns⟩ := hst
  obtain ⟨-, params', returns'⟩ := htu
  refine ⟨fixed, forall₂_trans (fun q hq r hr x hx hqr hrx => ?_) params params', ?_⟩
  · rw [paramConforms_iff] at hqr hrx ⊢
    refine ⟨hqr.1.trans hrx.1, annotationConforms_trans ih (fun a ha b hb c hc => ?_) hqr.2 hrx.2⟩
    have := Signature.size_parameter_lt hq ha
    have := Signature.size_parameter_lt hr hb
    have := Signature.size_parameter_lt hx hc
    exact ⟨hs.step (.parameter hq ha), ht.step (.parameter hr hb), hu.step (.parameter hx hc),
      by omega⟩
  · refine annotationConforms_trans ih (fun a ha b hb c hc => ?_) returns returns'
    have := Signature.size_returns_lt ha
    have := Signature.size_returns_lt hb
    have := Signature.size_returns_lt hc
    exact ⟨hs.step (.returns ha), ht.step (.returns hb), hu.step (.returns hc), by omega⟩

/-! ## One lemma for each way to be below -/

section step

variable {a b c : TypeSpec} (ha : a.Everywhere Part.Regular) (hb : b.Everywhere Part.Regular)
  (hc : c.Everywhere Part.Regular) (ih : TransitiveBelow w p (a.size + b.size + c.size))

include ha hb hc ih

/-- A candidate that is taken apart: its parts are below `b` and so below `c`. -/
theorem trans_of_parts (parts : a.isWhole = false) (hab : Rule w p a b)
    (hbc : (isSubtype w p b c).run) : Rule w p a c := by
  cases a with
  | union ss =>
    refine .union fun s hs => ?_
    have := TypeSpec.size_le_of_mem hs
    exact ih (ha.step (.alternative hs)) hb hc (by simp only [TypeSpec.size]; omega)
      (rule_union_iff.1 hab s hs) hbc
  | optional s =>
    obtain ⟨none, some⟩ := rule_optional_iff.1 hab
    have := s.size_pos
    have noneType : (TypeSpec.plain .noneType).Everywhere Part.Regular :=
      TypeSpec.everywhere_plain ⟨trivial, by decide, fun _ => rfl⟩
    exact .optional (ih noneType hb hc (by simp only [TypeSpec.size]; omega) none hbc)
      (ih (ha.step (.inner _)) hb hc (by simp only [TypeSpec.size]; omega) some hbc)
  | both l r =>
    rcases rule_both_iff.1 hab with hab | hab
    · exact .left (ih (ha.step (.left _ _)) hb hc (by simp only [TypeSpec.size]; omega) hab hbc)
    · exact .right (ih (ha.step (.right _ _)) hb hc (by simp only [TypeSpec.size]; omega) hab hbc)
  | options => exact absurd ha.self Part.Regular.not_options
  | _ => cases parts

/-- A candidate that equals `b` without a rule: what is below `c` in `b` has its like in `a`. -/
theorem trans_of_alone (hab : Alone a b) (hbc : Rule w p b c) : Rule w p a c := by
  cases hab with
  | predicate q => exact hbc
  | both l r =>
    rcases rule_both_iff.1 hbc with hbc | hbc
    · exact .left (ih (ha.step (.left _ _)) (hb.step (.left _ _)) hc
        (by simp only [TypeSpec.size]; omega) (isSubtype_of_equal l) hbc)
    · exact .right (ih (ha.step (.right _ _)) (hb.step (.right _ _)) hc
        (by simp only [TypeSpec.size]; omega) (isSubtype_of_equal r) hbc)
  | union partners =>
    refine .union fun s hs => ?_
    -- the member of `b` that `s` equals is below `c`
    obtain ⟨t, ht, hts⟩ := partners.2 s hs
    have := TypeSpec.size_le_of_mem hs
    have := TypeSpec.size_le_of_mem ht
    have hst := TypeSpec.equal_swap_of_regular (hb.step (.alternative ht))
      (ha.step (.alternative hs)) hts
    exact ih (ha.step (.alternative hs)) (hb.step (.alternative ht)) hc
      (by simp only [TypeSpec.size]; omega) (isSubtype_of_equal hst) (rule_union_iff.1 hbc t ht)
  | optional same =>
    obtain ⟨none, some⟩ := rule_optional_iff.1 hbc
    exact .optional none (ih (ha.step (.inner _)) (hb.step (.inner _)) hc
      (by simp only [TypeSpec.size]; omega) (isSubtype_of_equal same) some)
  | interface => exact absurd ha.self Part.Regular.not_interface
  | options => exact absurd ha.self Part.Regular.not_options

/-- A whole candidate that is below a part of `b`: that part is below `c` or has its like there. -/
theorem trans_through_part (whole : a.isWhole) (parts : b.isWhole = false) (hab : Rule w p a b)
    (hbc : Rule w p b c ∨ Alone b c) : (isSubtype w p a c).run := by
  cases hab with
  | toMember _ ht hab =>
    have := TypeSpec.size_le_of_mem ht
    rcases hbc with hbc | alone
    · exact ih ha (hb.step (.alternative ht)) hc (by simp only [TypeSpec.size]; omega) hab
        (rule_union_iff.1 hbc _ ht)
    · cases alone with
      | union partners =>
        obtain ⟨u, hu, hut⟩ := partners.2 _ ht
        have := TypeSpec.size_le_of_mem hu
        have htu := TypeSpec.equal_swap_of_regular (hc.step (.alternative hu))
          (hb.step (.alternative ht)) hut
        exact isSubtype_of_rule (.toMember whole hu (ih ha (hb.step (.alternative ht))
          (hc.step (.alternative hu)) (by simp only [TypeSpec.size]; omega) hab
          (isSubtype_of_equal htu)))
  | toNone none =>
    rcases hbc with hbc | alone
    · -- `a` is `NoneType`, and an optional spec below `c` has `NoneType` below `c`
      cases a with
      | plain d => exact beq_iff_eq.1 none ▸ (rule_optional_iff.1 hbc).1
      | only => exact absurd ha.self Part.Regular.not_only
      | _ => cases none
    · cases alone with
      | optional => exact isSubtype_of_rule (.toNone none)
  | toInner _ hab =>
    rcases hbc with hbc | alone
    · exact ih ha (hb.step (.inner _)) hc (by simp only [TypeSpec.size]; omega) hab
        (rule_optional_iff.1 hbc).2
    · cases alone with
      | optional same =>
        exact isSubtype_of_rule (.toInner whole (ih ha (hb.step (.inner _)) (hc.step (.inner _))
          (by simp only [TypeSpec.size]; omega) hab (isSubtype_of_equal same)))
  | _ => first | cases parts | cases whole

/-- A `b` that accepts everything is below `c` only through a part of `c`, or `c` accepts everything. -/
theorem trans_of_isTop (whole : a.isWhole) (top : b.isTop) (hbc : Rule w p b c) :
    (isSubtype w p a c).run := by
  have hab : (isSubtype w p a b).run := isSubtype_of_isTop top
  cases hbc with
  | toMember _ hu hbc =>
    have := TypeSpec.size_le_of_mem hu
    exact isSubtype_of_rule (.toMember whole hu (ih ha hb (hc.step (.alternative hu))
      (by simp only [TypeSpec.size]; omega) hab hbc))
  | toInner _ hbc =>
    exact isSubtype_of_rule (.toInner whole (ih ha hb (hc.step (.inner _))
      (by simp only [TypeSpec.size]; omega) hab hbc))
  | toNone none =>
    cases b with
    | plain d =>
      cases beq_iff_eq.1 none
      cases top
    | only => cases top
    | _ => cases none
  | plain hde =>
    rw [beq_iff_eq.1 top, Class.object_isSubclassOf] at hde
    exact isSubtype_of_isTop (beq_iff_eq.2 hde)
  | plainOnly => exact absurd hc.self Part.Regular.not_only
  | plainInterface => exact absurd hc.self Part.Regular.not_interface
  | _ => cases top

/-- A whole candidate of the shape of `b`, which is below a part of `c` or has its shape too. -/
theorem trans_of_shape (whole : a.isWhole) (wholeB : b.isWhole) (hab : Rule w p a b)
    (hbc : Rule w p b c) : Rule w p a c := by
  have below : (isSubtype w p a b).run := isSubtype_of_rule hab
  cases hbc with
  | union | optional | options | left | right => cases wholeB
  | toMember _ hu hbc =>
    have := TypeSpec.size_le_of_mem hu
    exact .toMember whole hu (ih ha hb (hc.step (.alternative hu))
      (by simp only [TypeSpec.size]; omega) below hbc)
  | toInner _ hbc =>
    exact .toInner whole (ih ha hb (hc.step (.inner _)) (by simp only [TypeSpec.size]; omega) below
      hbc)
  | toNone none =>
    cases b with
    | plain d =>
      cases beq_iff_eq.1 none
      cases hab with
      -- no class inherits from `NoneType`, so `a` is `NoneType` itself
      | plain hcd => exact ha.self.composable hcd ▸ .toNone rfl
      | onlyPlain => exact absurd ha.self Part.Regular.not_only
      | _ => cases whole
    | only => exact absurd hb.self Part.Regular.not_only
    | _ => cases none
  | plain hde =>
    cases hab with
    | plain hcd => exact .plain (Class.isSubclassOf_trans hcd hde)
    | onlyPlain => exact absurd ha.self Part.Regular.not_only
    | _ => cases whole
  | callable hbc =>
    cases hab with
    | callable hab =>
      refine .callable (signatureConforms_trans ih (ha.step (.signature _ _))
        (hb.step (.signature _ _)) (hc.step (.signature _ _)) ?_ hab hbc)
      simp only [TypeSpec.size]
      omega
    | _ => cases whole
  | list hbc =>
    cases hab with
    | list hab =>
      exact .list (ih (ha.step (.listElement _)) (hb.step (.listElement _))
        (hc.step (.listElement _)) (by simp only [TypeSpec.size]; omega) hab hbc)
    | _ => cases whole
  | set hbc =>
    cases hab with
    | set hab =>
      exact .set (ih (ha.step (.setElement _)) (hb.step (.setElement _))
        (hc.step (.setElement _)) (by simp only [TypeSpec.size]; omega) hab hbc)
    | _ => cases whole
  | tuple hbc =>
    cases hab with
    | tuple hab =>
      refine .tuple (forall₂_trans (fun s hs t ht u hu hst htu => ?_) hab hbc)
      have := TypeSpec.size_le_of_mem hs
      have := TypeSpec.size_le_of_mem ht
      have := TypeSpec.size_le_of_mem hu
      exact ih (ha.step (.position hs)) (hb.step (.position ht)) (hc.step (.position hu))
        (by simp only [TypeSpec.size]; omega) hst htu
    | _ => cases whole
  | mapping hk hv =>
    cases hab with
    | mapping hk' hv' =>
      exact .mapping
        (ih (ha.step (.key _ _)) (hb.step (.key _ _)) (hc.step (.key _ _))
          (by simp only [TypeSpec.size]; omega) hk' hk)
        (ih (ha.step (.value _ _)) (hb.step (.value _ _)) (hc.step (.value _ _))
          (by simp only [TypeSpec.size]; omega) hv' hv)
    | _ => cases whole
  | plainOnly | only => exact absurd hc.self Part.Regular.not_only
  | onlyPlain => exact absurd hb.self Part.Regular.not_only
  | plainInterface | onlyInterface | interface => exact absurd hc.self Part.Regular.not_interface

/-- The induction step: which lemma applies is decided by how `a` is below `b` and by which of the two
is taken apart. -/
theorem trans_step (hab : (isSubtype w p a b).run) (hbc : (isSubtype w p b c).run) :
    (isSubtype w p a c).run := by
  rcases isSubtype_cases (hb.imp fun _ => (·.normal)) hbc with topC | hbc'
  · exact isSubtype_of_isTop topC
  rcases isSubtype_cases (ha.imp fun _ => (·.normal)) hab with top | rule | alone
  -- `b` accepts everything
  · by_cases whole : a.isWhole
    · rcases hbc' with rule' | alone'
      · exact trans_of_isTop ha hb hc ih whole top rule'
      · cases alone' <;> cases top
    · rw [Bool.not_eq_true] at whole
      exact isSubtype_of_rule (trans_of_parts ha hb hc ih whole (rule_of_isTop whole top) hbc)
  -- `a` is below `b` by a rule
  · by_cases whole : a.isWhole
    · by_cases wholeB : b.isWhole
      · rcases hbc' with rule' | alone'
        · exact isSubtype_of_rule (trans_of_shape ha hb hc ih whole wholeB rule rule')
        · cases alone' with
          | predicate => exact hab
          | interface => exact absurd hb.self Part.Regular.not_interface
          | _ => cases wholeB
      · rw [Bool.not_eq_true] at wholeB
        exact trans_through_part ha hb hc ih whole wholeB rule hbc'
    · rw [Bool.not_eq_true] at whole
      exact isSubtype_of_rule (trans_of_parts ha hb hc ih whole rule hbc)
  -- `a` equals `b`
  · rcases hbc' with rule' | alone'
    · exact isSubtype_of_rule (trans_of_alone ha hb hc ih alone rule')
    · exact isSubtype_of_equal (TypeSpec.equal_trans alone.equal alone'.equal)

end step

theorem transitiveBelow (w : World) (p : Probe Id) (n : Nat) : TransitiveBelow w p n := by
  induction n with
  | zero => exact fun _ _ _ size => absurd size (by omega)
  | succ n ih =>
    intro a b c ha hb hc size hab hbc
    exact trans_step ha hb hc (fun ha hb hc less => ih ha hb hc (by omega)) hab hbc

/-- The specs on which the check is transitive: structural specs and callable specs, without default
values for parameters, over classes none of which is a proper descendant of `NoneType`. -/
structure Chainable (s : TypeSpec) : Prop where
  built : s.Built
  made : s.MadeOf (.callable :: structuralForms)
  composable : s.Everywhere Part.Composable

namespace Chainable

theorem regular {s : TypeSpec} (h : Chainable s) : s.Everywhere Part.Regular :=
  fun x hx => ⟨h.built.normal x hx, h.made x hx, h.composable x hx⟩

theorem plain {c : Class} (h : c.isSubclassOf .noneType → c = .noneType) : Chainable (.plain c) :=
  ⟨.plain c, TypeSpec.everywhere_plain (by simp [Part.HasForm, TypeSpec.form, structuralForms]),
    TypeSpec.everywhere_plain h⟩

theorem optional {s : TypeSpec} (h : Chainable s) : Chainable (.optional s) :=
  ⟨.optional h.built,
    TypeSpec.everywhere_optional (by simp [Part.HasForm, TypeSpec.form, structuralForms]) h.made,
    TypeSpec.everywhere_optional trivial h.composable⟩

theorem callable (key : Nat) {s : Signature} (fixed : s.requireFixedArity = .ok ())
    (required : ∀ q ∈ s.params, q.hasDefault = false) (h : ∀ t ∈ s.specs, Chainable t) :
    Chainable (.callable key s) := by
  have params : ∀ q t, q ∈ s.params → q.type = some t → Chainable t := fun q t hq ht =>
    h t (Signature.mem_specs_of_parameter hq ht)
  have returns : ∀ t, s.returns = some t → Chainable t := fun t ht =>
    h t (Signature.mem_specs_of_returns ht)
  have made : TypeSpec.callableOf key s = .ok (.callable key s) := by
    rw [TypeSpec.callableOf, fixed]
    rfl
  refine ⟨.callable (fun t ht => (h t ht).built) made, ?_, ?_⟩
  · refine TypeSpec.everywhere_callable (by simp [Part.HasForm, TypeSpec.form]) ?_
    exact Signature.everywhere (.inl List.mem_cons_self)
      (fun q t hq ht => (params q t hq ht).made) fun t ht => (returns t ht).made
  · refine TypeSpec.everywhere_callable trivial ?_
    exact Signature.everywhere required
      (fun q t hq ht => (params q t hq ht).composable) fun t ht => (returns t ht).composable

end Chainable

/-- The check on specs is transitive. -/
theorem isSubtype_trans (w : World) (p : Probe Id) {a b c : TypeSpec} (ha : Chainable a)
    (hb : Chainable b) (hc : Chainable c) (hab : (isSubtype w p a b).run)
    (hbc : (isSubtype w p b c).run) : (isSubtype w p a c).run :=
  transitiveBelow w p _ ha.regular hb.regular hc.regular (Nat.lt_succ_self _) hab hbc

/-- Functions of a text that return a truth value, an integer, or possibly an integer. -/
theorem callables_trans :
    let text : Param := ⟨"text", .positional, some (.plain .str), none⟩
    let f (t : TypeSpec) := TypeSpec.callable 0 ⟨[text], some t⟩
    let p : Probe Id := ⟨fun _ _ => false, fun _ => ()⟩
    (isSubtype .initial p (f (.plain .bool)) (f (.plain .int))).run ∧
      (isSubtype .initial p (f (.plain .int)) (f (.optional (.plain .int)))).run ∧
      (isSubtype .initial p (f (.plain .bool)) (f (.optional (.plain .int)))).run := by
  intro text f p
  have required : ∀ q ∈ [text], q.hasDefault = false := by simp [text, Param.hasDefault]
  have chainable : ∀ t, Chainable t → Chainable (f t) := by
    intro t ht
    refine .callable 0 rfl required ?_
    simpa [Signature.specs, text] using ⟨.plain (by decide), ht⟩
  have below : ∀ s t, (isSubtype .initial p s t).run → (isSubtype .initial p (f s) (f t)).run := by
    intro s t hst
    have params : (paramConforms .initial p text text).run :=
      (paramConforms_iff .initial p).2
        ⟨rfl, annotationConforms_of_equal (.some (TypeSpec.equal_refl _))⟩
    have returns : (annotationConforms .initial p (some s) (some t)).run := by
      simpa [annotationConforms_iff] using hst
    exact isSubtype_of_rule (.callable
      ((signatureConforms_iff_of_noDefaults required).2 ⟨rfl, .cons params .nil, returns⟩))
  have boolInt := below (.plain .bool) (.plain .int) (isSubtype_of_rule (.plain (by decide)))
  have intOptional := below (.plain .int) (.optional (.plain .int))
    (isSubtype_of_rule (.toInner rfl (isSubtype_of_equal (TypeSpec.equal_refl _))))
  have plain : ∀ c, c.isSubclassOf .noneType = false → Chainable (f (.plain c)) := fun c hc =>
    chainable _ (.plain fun h => by simp [hc] at h)
  have optional : Chainable (f (.optional (.plain .int))) :=
    chainable _ (.optional (.plain (by decide)))
  refine ⟨boolInt, intOptional, ?_⟩
  exact isSubtype_trans .initial p (plain .bool (by decide)) (plain .int (by decide)) optional
    boolInt intOptional

end Conformance

end TypeContracts
