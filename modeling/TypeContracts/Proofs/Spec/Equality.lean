import TypeContracts.Proofs.Spec.Parts
import TypeContracts.Proofs.Value.Equality
import TypeContracts.Spec.Equality

/-!
Spec equality as a partial equivalence. It is reflexive and transitive on all specs, and symmetric on
those whose unions and option sets hold no repetitions and whose stored values were made by the
constructors of values. `TypeSpec.Alike` says case by case when two specs are equal.
Main statements: `TypeSpec.equal_refl`, `TypeSpec.equal_trans`, `TypeSpec.equal_symm`.
-/

namespace TypeContracts

/-! ## The cases of equality -/

theorem Value.equalOption_iff {v w : Option Value} :
    Value.equalOption v w ↔ Option.Rel (fun v w => v.equal w) v w := by
  cases v <;> cases w <;> simp [Value.equalOption]

theorem TypeSpec.equalOption_iff {s t : Option TypeSpec} :
    TypeSpec.equalOption s t ↔ Option.Rel (fun s t => s.equal t) s t := by
  cases s <;> cases t <;> simp [TypeSpec.equalOption]

theorem Interface.equalOption_iff {i j : Option Interface} :
    Interface.equalOption i j ↔ Option.Rel (fun i j => i.equal j) i j := by
  cases i <;> cases j <;> simp [Interface.equalOption]

theorem TypeSpec.equalAll_iff {ss ts : List TypeSpec} :
    TypeSpec.equalAll ss ts ↔ List.Forall₂ (fun s t => s.equal t) ss ts := by
  induction ss generalizing ts with
  | nil => cases ts <;> simp [TypeSpec.equalAll]
  | cons s ss ih => cases ts <;> simp [TypeSpec.equalAll, ih]

theorem Param.equalAll_iff {ps qs : List Param} :
    Param.equalAll ps qs ↔ List.Forall₂ (fun p q => p.equal q) ps qs := by
  induction ps generalizing qs with
  | nil => cases qs <;> simp [Param.equalAll]
  | cons p ps ih => cases qs <;> simp [Param.equalAll, ih]

theorem Member.equalAll_iff {ms ns : List (String × Member)} :
    Member.equalAll ms ns ↔ List.Forall₂ (fun m n => m.1 = n.1 ∧ m.2.equal n.2) ms ns := by
  induction ms generalizing ns with
  | nil => cases ns <;> simp [Member.equalAll]
  | cons m ms ih =>
    obtain ⟨name, m⟩ := m
    rcases ns with _ | ⟨⟨name', n⟩, ns⟩ <;> simp [Member.equalAll, ih]

/-- Equal parameters agree in name and kind. -/
theorem Param.equal_iff {p q : Param} :
    p.equal q ↔ p.name = q.name ∧ p.kind = q.kind ∧
      Option.Rel (fun s t => s.equal t) p.type q.type ∧
      Option.Rel (fun v w => v.equal w) p.default q.default := by
  obtain ⟨m, j, a, v⟩ := p
  obtain ⟨n, k, b, w⟩ := q
  simp only [Param.equal, Bool.and_eq_true, beq_iff_eq, TypeSpec.equalOption_iff,
    Value.equalOption_iff, and_assoc]

theorem Signature.equal_iff {s t : Signature} :
    s.equal t ↔ List.Forall₂ (fun p q => p.equal q) s.params t.params ∧
      Option.Rel (fun a b => a.equal b) s.returns t.returns := by
  obtain ⟨ps, a⟩ := s
  obtain ⟨qs, b⟩ := t
  simp only [Signature.equal, Bool.and_eq_true, Param.equalAll_iff, TypeSpec.equalOption_iff]

/-- Equal interfaces are the same one, or agree in name, base and declared members. -/
theorem Interface.equal_iff {i j : Interface} :
    i.equal j ↔ i = j ∨ i.name = j.name ∧ Option.Rel (fun a b => a.equal b) i.base j.base ∧
      List.Forall₂ (fun m n => m.1 = n.1 ∧ m.2.equal n.2) i.members j.members := by
  obtain ⟨k, m, a, ms⟩ := i
  obtain ⟨l, n, b, ns⟩ := j
  rw [Interface.equal]
  simp only [Bool.or_eq_true, Bool.and_eq_true, beq_iff_eq, Interface.equalOption_iff,
    Member.equalAll_iff, and_assoc]

/-- When two members are equal. -/
inductive Member.Alike : Member → Member → Prop where
  | specs {s t : TypeSpec} (h : s.equal t) : Alike (.attribute s) (.attribute t)
  | signatures {s t : Signature} (h : s.equal t) : Alike (.method s) (.method t)

theorem Member.equal_iff {m n : Member} : m.equal n ↔ Member.Alike m n := by
  constructor
  · intro h
    cases m <;> cases n <;> simp only [Member.equal, Bool.false_eq_true] at h
    · exact .specs h
    · exact .signatures h
  · rintro (h | h) <;> simpa only [Member.equal] using h

/-- When the first spec equals the second: one case for each form. -/
inductive TypeSpec.Alike : TypeSpec → TypeSpec → Prop where
  | any : Alike .any .any
  | plain (c : Class) : Alike (.plain c) (.plain c)
  | predicate (q : Predicate) : Alike (.predicate q) (.predicate q)
  | both {a b c d : TypeSpec} (l : a.equal c) (r : b.equal d) : Alike (.both a b) (.both c d)
  | union {as bs : List TypeSpec} (h : Partnered (fun a b => b.equal a) as bs) :
      Alike (.union as) (.union bs)
  | interface {i j : Interface} (h : i.equal j) : Alike (.interface i) (.interface j)
  | callable {a b : Nat} {s t : Signature} (h : a = b ∧ s = t ∨ s.equal t) :
      Alike (.callable a s) (.callable b t)
  | list {s t : TypeSpec} (h : s.equal t) : Alike (.list s) (.list t)
  | set {s t : TypeSpec} (h : s.equal t) : Alike (.set s) (.set t)
  | tuple {ss ts : List TypeSpec} (h : List.Forall₂ (fun s t => s.equal t) ss ts) :
      Alike (.tuple ss) (.tuple ts)
  | mapping {k l v x : TypeSpec} (hk : k.equal l) (hv : v.equal x) :
      Alike (.mapping k v) (.mapping l x)
  | optional {s t : TypeSpec} (h : s.equal t) : Alike (.optional s) (.optional t)
  | only (c : Class) : Alike (.only c) (.only c)
  | options {a b : Nat} {vs ws : List Value}
      (h : a = b ∧ vs = ws ∨ Partnered (fun v w => w.equal v) vs ws) :
      Alike (.options a vs) (.options b ws)

theorem TypeSpec.equal_union_iff {as bs : List TypeSpec} :
    (TypeSpec.union as).equal (.union bs) ↔ Partnered (fun a b => b.equal a) as bs := by
  simp [TypeSpec.equal_union, TypeSpec.isIn, Partnered]

theorem TypeSpec.equal_iff {s t : TypeSpec} : s.equal t ↔ Alike s t := by
  constructor
  · intro h
    unfold TypeSpec.equal at h
    split at h
    · exact .any
    · exact beq_iff_eq.1 h ▸ .plain _
    · exact beq_iff_eq.1 h ▸ .predicate _
    · exact .both (Bool.and_eq_true_iff.1 h).1 (Bool.and_eq_true_iff.1 h).2
    · exact .union (equal_union_iff.1 (by rw [equal]; exact h))
    · exact .interface h
    · exact .callable (by simpa using h)
    · exact .list h
    · exact .set h
    · exact .tuple (equalAll_iff.1 h)
    · exact .mapping (Bool.and_eq_true_iff.1 h).1 (Bool.and_eq_true_iff.1 h).2
    · exact .optional h
    · exact beq_iff_eq.1 h ▸ .only _
    · exact .options (by simpa [Partnered, Value.isIn] using h)
    · cases h
  · rintro (_ | _ | _ | ⟨l, r⟩ | h | h | h | h | h | h | ⟨hk, hv⟩ | h | _ | h)
    case union => exact equal_union_iff.2 h
    case tuple => rw [equal]; exact equalAll_iff.2 h
    case options => rw [equal]; simpa [Partnered, Value.isIn] using h
    all_goals simp [equal, *]

/-! ## Parts are smaller -/

theorem Param.sizeOf_type_lt {p : Param} {t : TypeSpec} (h : t ∈ p.type) : sizeOf t < sizeOf p := by
  obtain ⟨_, _, a, _⟩ := p
  cases h
  simp
  omega

theorem Signature.sizeOf_param_lt {s : Signature} {p : Param} (h : p ∈ s.params) :
    sizeOf p < sizeOf s := by
  obtain ⟨ps, _⟩ := s
  have := List.sizeOf_lt_of_mem h
  simp at this ⊢
  omega

theorem Signature.sizeOf_returns_lt {s : Signature} {t : TypeSpec} (h : t ∈ s.returns) :
    sizeOf t < sizeOf s := by
  obtain ⟨_, a⟩ := s
  cases h
  simp
  omega

theorem Interface.sizeOf_base_lt {i b : Interface} (h : b ∈ i.base) : sizeOf b < sizeOf i := by
  obtain ⟨_, _, a, _⟩ := i
  cases h
  simp
  omega

theorem Interface.sizeOf_member_lt {i : Interface} {m : String × Member} (h : m ∈ i.members) :
    sizeOf m.2 < sizeOf i := by
  obtain ⟨_, _, _, ms⟩ := i
  have := List.sizeOf_lt_of_mem h
  obtain ⟨_, m⟩ := m
  simp at this ⊢
  omega

theorem Interface.sizeOf_attribute_lt {i : Interface} {name : String} {t : TypeSpec}
    (h : (name, .attribute t) ∈ i.members) : sizeOf t < sizeOf i := by
  have := Interface.sizeOf_member_lt h
  simp at this
  omega

theorem Interface.sizeOf_method_lt {i : Interface} {name : String} {s : Signature}
    (h : (name, .method s) ∈ i.members) : sizeOf s < sizeOf i := by
  have := Interface.sizeOf_member_lt h
  simp at this
  omega

theorem Signature.size_parameter_lt {s : Signature} {q : Param} {t : TypeSpec} (hq : q ∈ s.params)
    (ht : q.type = some t) : t.size < s.size := by
  have := Param.size_le_of_mem hq
  rw [Param.size_eq, ht, TypeSpec.sizeOption] at this
  rw [s.size_eq]
  omega

theorem Signature.size_returns_lt {s : Signature} {t : TypeSpec} (ht : s.returns = some t) :
    t.size < s.size := by
  rw [s.size_eq, ht, TypeSpec.sizeOption]
  omega

/-! ## Reflexivity -/

/-- Every spec equals itself. Values need not, so a callable spec, an interface and an option set are
equal to themselves by identity. -/
theorem TypeSpec.equal_refl (s : TypeSpec) : s.equal s := by
  refine equal_iff.2 ?_
  cases s with
  | any => exact .any
  | plain c => exact .plain c
  | predicate q => exact .predicate q
  | both l r => exact .both l.equal_refl r.equal_refl
  | union ss =>
    refine .union ⟨rfl, fun s hs => ⟨s, hs, ?_⟩⟩
    have := List.sizeOf_lt_of_mem hs
    exact s.equal_refl
  | interface i => exact .interface (Interface.equal_iff.2 (.inl rfl))
  | callable key s => exact .callable (.inl ⟨rfl, rfl⟩)
  | list s => exact .list s.equal_refl
  | set s => exact .set s.equal_refl
  | tuple ss =>
    refine .tuple (List.forall₂_same.2 fun s hs => ?_)
    have := List.sizeOf_lt_of_mem hs
    exact s.equal_refl
  | mapping k v => exact .mapping k.equal_refl v.equal_refl
  | optional s => exact .optional s.equal_refl
  | only c => exact .only c
  | options key vs => exact .options (.inl ⟨rfl, rfl⟩)
termination_by sizeOf s
decreasing_by all_goals (subst_vars; simp <;> omega)

/-! ## Transitivity -/

mutual

/-- Equality of specs is transitive. As with values, unions and option sets are compared against the
order of their operands, so the sum of the sizes decreases. -/
theorem TypeSpec.equal_trans {s t u : TypeSpec} (hst : s.equal t) (htu : t.equal u) :
    s.equal u := by
  cases TypeSpec.equal_iff.1 hst with
  | any | plain | predicate | only => exact htu
  | both l r =>
    cases TypeSpec.equal_iff.1 htu with
    | both l' r' =>
      exact TypeSpec.equal_iff.2 (.both (TypeSpec.equal_trans l l') (TypeSpec.equal_trans r r'))
  | union has =>
    cases TypeSpec.equal_iff.1 htu with
    | union hbs =>
      refine TypeSpec.equal_iff.2 (.union (Partnered.trans (fun a ha b hb c hc hba hcb => ?_) has hbs))
      have := List.sizeOf_lt_of_mem ha
      have := List.sizeOf_lt_of_mem hb
      have := List.sizeOf_lt_of_mem hc
      exact TypeSpec.equal_trans hcb hba
  | interface hij =>
    cases TypeSpec.equal_iff.1 htu with
    | interface hjk => exact TypeSpec.equal_iff.2 (.interface (Interface.equal_trans hij hjk))
  | callable h =>
    cases TypeSpec.equal_iff.1 htu with
    | callable h' =>
      -- one shared signature is equal to itself, whatever stands in it
      rcases h with ⟨rfl, rfl⟩ | h
      · exact htu
      · rcases h' with ⟨rfl, rfl⟩ | h'
        · exact hst
        · exact TypeSpec.equal_iff.2 (.callable (.inr (Signature.equal_trans h h')))
  | list h =>
    cases TypeSpec.equal_iff.1 htu with
    | list h' => exact TypeSpec.equal_iff.2 (.list (TypeSpec.equal_trans h h'))
  | set h =>
    cases TypeSpec.equal_iff.1 htu with
    | set h' => exact TypeSpec.equal_iff.2 (.set (TypeSpec.equal_trans h h'))
  | tuple has =>
    cases TypeSpec.equal_iff.1 htu with
    | tuple hbs =>
      refine TypeSpec.equal_iff.2 (.tuple (forall₂_trans (fun a ha b hb c hc hab hbc => ?_) has hbs))
      have := List.sizeOf_lt_of_mem ha
      have := List.sizeOf_lt_of_mem hb
      have := List.sizeOf_lt_of_mem hc
      exact TypeSpec.equal_trans hab hbc
  | mapping hk hv =>
    cases TypeSpec.equal_iff.1 htu with
    | mapping hk' hv' =>
      exact TypeSpec.equal_iff.2 (.mapping (TypeSpec.equal_trans hk hk') (TypeSpec.equal_trans hv hv'))
  | optional h =>
    cases TypeSpec.equal_iff.1 htu with
    | optional h' => exact TypeSpec.equal_iff.2 (.optional (TypeSpec.equal_trans h h'))
  | options hvs =>
    cases TypeSpec.equal_iff.1 htu with
    | options hws =>
      rcases hvs with ⟨rfl, rfl⟩ | hvs
      · exact htu
      · rcases hws with ⟨rfl, rfl⟩ | hws
        · exact hst
        · refine TypeSpec.equal_iff.2 (.options (.inr (hvs.trans (fun v _ w _ x _ h h' => ?_) hws)))
          exact Value.equal_trans h' h
termination_by sizeOf s + sizeOf t + sizeOf u
decreasing_by all_goals (subst_vars; simp; omega)

theorem Param.equal_trans {p q r : Param} (hpq : p.equal q) (hqr : q.equal r) : p.equal r := by
  obtain ⟨name, kind, type, default⟩ := Param.equal_iff.1 hpq
  obtain ⟨name', kind', type', default'⟩ := Param.equal_iff.1 hqr
  refine Param.equal_iff.2 ⟨name.trans name', kind.trans kind', ?_, ?_⟩
  · refine optionRel_trans (fun s hs t ht u hu hst htu => ?_) type type'
    have := Param.sizeOf_type_lt hs
    have := Param.sizeOf_type_lt ht
    have := Param.sizeOf_type_lt hu
    exact TypeSpec.equal_trans hst htu
  · refine optionRel_trans (fun v _ w _ x _ hvw hwx => ?_) default default'
    exact Value.equal_trans hvw hwx
termination_by sizeOf p + sizeOf q + sizeOf r

theorem Signature.equal_trans {s t u : Signature} (hst : s.equal t) (htu : t.equal u) :
    s.equal u := by
  obtain ⟨params, returns⟩ := Signature.equal_iff.1 hst
  obtain ⟨params', returns'⟩ := Signature.equal_iff.1 htu
  refine Signature.equal_iff.2 ⟨?_, ?_⟩
  · refine forall₂_trans (fun p hp q hq r hr hpq hqr => ?_) params params'
    have := Signature.sizeOf_param_lt hp
    have := Signature.sizeOf_param_lt hq
    have := Signature.sizeOf_param_lt hr
    exact Param.equal_trans hpq hqr
  · refine optionRel_trans (fun a ha b hb c hc hab hbc => ?_) returns returns'
    have := Signature.sizeOf_returns_lt ha
    have := Signature.sizeOf_returns_lt hb
    have := Signature.sizeOf_returns_lt hc
    exact TypeSpec.equal_trans hab hbc
termination_by sizeOf s + sizeOf t + sizeOf u

theorem Interface.equal_trans {i j k : Interface} (hij : i.equal j) (hjk : j.equal k) :
    i.equal k := by
  rcases Interface.equal_iff.1 hij with same | ⟨name, base, members⟩
  · exact same ▸ hjk
  rcases Interface.equal_iff.1 hjk with same | ⟨name', base', members'⟩
  · exact same ▸ hij
  refine Interface.equal_iff.2 (.inr ⟨name.trans name', ?_, ?_⟩)
  · refine optionRel_trans (fun a ha b hb c hc hab hbc => ?_) base base'
    have := Interface.sizeOf_base_lt ha
    have := Interface.sizeOf_base_lt hb
    have := Interface.sizeOf_base_lt hc
    exact Interface.equal_trans hab hbc
  · refine forall₂_trans (fun m hm n hn o ho hmn hno => ⟨hmn.1.trans hno.1, ?_⟩) members members'
    have := Interface.sizeOf_member_lt hm
    have := Interface.sizeOf_member_lt hn
    have := Interface.sizeOf_member_lt ho
    exact Member.equal_trans hmn.2 hno.2
termination_by sizeOf i + sizeOf j + sizeOf k

theorem Member.equal_trans {m n o : Member} (hmn : m.equal n) (hno : n.equal o) : m.equal o := by
  cases Member.equal_iff.1 hmn with
  | specs hst =>
    cases Member.equal_iff.1 hno with
    | specs htu => exact Member.equal_iff.2 (.specs (TypeSpec.equal_trans hst htu))
  | signatures hst =>
    cases Member.equal_iff.1 hno with
    | signatures htu => exact Member.equal_iff.2 (.signatures (Signature.equal_trans hst htu))
termination_by sizeOf m + sizeOf n + sizeOf o
decreasing_by all_goals (subst_vars; simp; omega)

end

/-! ## Symmetry -/

/-- What makes comparison two-sided: no repetitions in unions and option sets, and stored values made by
their constructors. -/
def Part.Comparable : Part → Prop
  | .spec (.union ss) => Distinct TypeSpec.equal ss
  | .spec (.options _ vs) => Distinct Value.equal vs ∧ ∀ v ∈ vs, v.Built
  | .signature s => ∀ p ∈ s.params, ∀ v ∈ p.default, v.Built
  | _ => True

mutual

/-- Equality of comparable specs is symmetric. -/
theorem TypeSpec.equal_symm {s t : TypeSpec} (hs : s.Everywhere Part.Comparable)
    (ht : t.Everywhere Part.Comparable) (h : s.equal t) : t.equal s := by
  cases TypeSpec.equal_iff.1 h with
  | any | plain | predicate | only => exact h
  | both l r =>
    exact TypeSpec.equal_iff.2 (.both
      (TypeSpec.equal_symm (hs.step (.left _ _)) (ht.step (.left _ _)) l)
      (TypeSpec.equal_symm (hs.step (.right _ _)) (ht.step (.right _ _)) r))
  | @union as bs has =>
    -- two members of `as` with a common equal in `bs` would be equal, but `as` holds no repetitions
    have swap : ∀ a ∈ as, ∀ b ∈ bs, b.equal a → a.equal b := fun a ha b hb hba => by
      have := List.sizeOf_lt_of_mem ha
      have := List.sizeOf_lt_of_mem hb
      exact TypeSpec.equal_symm (ht.step (.alternative hb)) (hs.step (.alternative ha)) hba
    refine TypeSpec.equal_iff.2 (.union (has.symm hs.self ?_ swap))
    exact fun a ha a' ha' b hb hba hba' => TypeSpec.equal_trans (swap a ha b hb hba) hba'
  | interface hij =>
    exact TypeSpec.equal_iff.2 (.interface
      (Interface.equal_symm (hs.step (.interface _)) (ht.step (.interface _)) hij))
  | callable hst =>
    rcases hst with ⟨rfl, rfl⟩ | hst
    · exact h
    · exact TypeSpec.equal_iff.2 (.callable (.inr
        (Signature.equal_symm (hs.step (.signature _ _)) (ht.step (.signature _ _)) hst)))
  | list hst =>
    exact TypeSpec.equal_iff.2 (.list
      (TypeSpec.equal_symm (hs.step (.listElement _)) (ht.step (.listElement _)) hst))
  | set hst =>
    exact TypeSpec.equal_iff.2 (.set
      (TypeSpec.equal_symm (hs.step (.setElement _)) (ht.step (.setElement _)) hst))
  | tuple has =>
    refine TypeSpec.equal_iff.2 (.tuple (forall₂_symm (fun a ha b hb hab => ?_) has))
    have := List.sizeOf_lt_of_mem ha
    have := List.sizeOf_lt_of_mem hb
    exact TypeSpec.equal_symm (hs.step (.position ha)) (ht.step (.position hb)) hab
  | mapping hk hv =>
    exact TypeSpec.equal_iff.2 (.mapping
      (TypeSpec.equal_symm (hs.step (.key _ _)) (ht.step (.key _ _)) hk)
      (TypeSpec.equal_symm (hs.step (.value _ _)) (ht.step (.value _ _)) hv))
  | optional hst =>
    exact TypeSpec.equal_iff.2 (.optional
      (TypeSpec.equal_symm (hs.step (.inner _)) (ht.step (.inner _)) hst))
  | @options _ _ vs ws hvs =>
    rcases hvs with ⟨rfl, rfl⟩ | hvs
    · exact h
    · obtain ⟨distinct, built⟩ := hs.self
      have swap : ∀ v ∈ vs, ∀ w ∈ ws, w.equal v → v.equal w := fun v hv w hw hwv =>
        Value.equal_symm (ht.self.2 w hw) (built v hv) hwv
      refine TypeSpec.equal_iff.2 (.options (.inr (hvs.symm distinct ?_ swap)))
      exact fun v hv v' hv' w hw hwv hwv' => Value.equal_trans (swap v hv w hw hwv) hwv'
termination_by sizeOf s + sizeOf t
decreasing_by all_goals (subst_vars; simp; omega)

theorem Signature.equal_symm {s t : Signature} (hs : s.Everywhere Part.Comparable)
    (ht : t.Everywhere Part.Comparable) (h : s.equal t) : t.equal s := by
  obtain ⟨params, returns⟩ := Signature.equal_iff.1 h
  refine Signature.equal_iff.2 ⟨forall₂_symm (fun p hp q hq hpq => ?_) params, ?_⟩
  · obtain ⟨name, kind, type, default⟩ := Param.equal_iff.1 hpq
    refine Param.equal_iff.2 ⟨name.symm, kind.symm, ?_, ?_⟩
    · refine optionRel_symm (fun a ha b hb hab => ?_) type
      have := Signature.sizeOf_param_lt hp
      have := Signature.sizeOf_param_lt hq
      have := Param.sizeOf_type_lt ha
      have := Param.sizeOf_type_lt hb
      exact TypeSpec.equal_symm (hs.step (.parameter hp ha)) (ht.step (.parameter hq hb)) hab
    · refine optionRel_symm (fun v hv w hw hvw => ?_) default
      exact Value.equal_symm (hs.self p hp v hv) (ht.self q hq w hw) hvw
  · refine optionRel_symm (fun a ha b hb hab => ?_) returns
    have := Signature.sizeOf_returns_lt ha
    have := Signature.sizeOf_returns_lt hb
    exact TypeSpec.equal_symm (hs.step (.returns ha)) (ht.step (.returns hb)) hab
termination_by sizeOf s + sizeOf t

theorem Interface.equal_symm {i j : Interface} (hi : Part.Everywhere Part.Comparable (.interface i))
    (hj : Part.Everywhere Part.Comparable (.interface j)) (h : i.equal j) : j.equal i := by
  rcases Interface.equal_iff.1 h with same | ⟨name, base, members⟩
  · exact Interface.equal_iff.2 (.inl same.symm)
  refine Interface.equal_iff.2 (.inr ⟨name.symm, ?_, ?_⟩)
  · refine optionRel_symm (fun a ha b hb hab => ?_) base
    have := Interface.sizeOf_base_lt ha
    have := Interface.sizeOf_base_lt hb
    exact Interface.equal_symm (hi.step (.base ha)) (hj.step (.base hb)) hab
  · refine forall₂_symm (fun m hm n hn hmn => ⟨hmn.1.symm, ?_⟩) members
    obtain ⟨name, m⟩ := m
    obtain ⟨name', n⟩ := n
    cases Member.equal_iff.1 hmn.2 with
    | specs hst =>
      have := Interface.sizeOf_attribute_lt hm
      have := Interface.sizeOf_attribute_lt hn
      exact Member.equal_iff.2 (.specs
        (TypeSpec.equal_symm (hi.step (.attributeSpec hm)) (hj.step (.attributeSpec hn)) hst))
    | signatures hst =>
      have := Interface.sizeOf_method_lt hm
      have := Interface.sizeOf_method_lt hn
      exact Member.equal_iff.2 (.signatures
        (Signature.equal_symm (hi.step (.methodSignature hm)) (hj.step (.methodSignature hn)) hst))
termination_by sizeOf i + sizeOf j

end

end TypeContracts
