import TypeContracts.Proofs.Spec.Declaration
import TypeContracts.Proofs.Spec.Union
import TypeContracts.Proofs.Value.Contents

/-!
Specs made twice. Every construction gives its interfaces, callable specs and option sets keys of their
own, so what is made twice is not the same datum; it is equal all the same, unless it holds a float
that is no number. Main statements: `TypeSpec.Twins.matching`, `TypeSpec.equal_partialEquivalence`.
-/

namespace TypeContracts

open Conformance (WellMade)

/-! ## The same arguments twice -/

section similar

variable (R : TypeSpec → TypeSpec → Prop)

/-- Two parameters that differ in their annotations at most, and these are related. A default value
contains no float that is no number. -/
structure Param.Similar (p q : Param) : Prop where
  name : p.name = q.name
  kind : p.kind = q.kind
  type : Option.Rel R p.type q.type
  default : p.default = q.default
  numbers : ∀ v ∈ p.default, v.NaNFree

structure Signature.Similar (a b : Signature) : Prop where
  params : List.Forall₂ (Param.Similar R) a.params b.params
  returns : Option.Rel R a.returns b.returns

/-- Two well-formed literals of the same shape with related specs at their leaves. -/
inductive SpecLiteral.Similar : SpecLiteral → SpecLiteral → Prop where
  | spec {s t : TypeSpec} (h : R s t) : Similar (.spec s) (.spec t)
  | value (v : Value) : Similar (.value v) (.value v)
  | list {x y : SpecLiteral} (h : Similar x y) : Similar (.list [x]) (.list [y])
  | set {x y : SpecLiteral} (h : Similar x y) : Similar (.set [x]) (.set [y])
  | tuple {xs ys : List SpecLiteral} (h : List.Forall₂ Similar xs ys) : Similar (.tuple xs) (.tuple ys)
  | mapping {k l v x : SpecLiteral} (hk : Similar k l) (hv : Similar v x) :
      Similar (.mapping [(k, v)]) (.mapping [(l, x)])

/-- Two declarations of one member, or of related bases. -/
inductive Interface.Declaration.Similar : Declaration → Declaration → Prop where
  | base {i j : Interface} (h : R (.interface i) (.interface j)) : Similar (.base i) (.base j)
  | attribute (name : String) {l l' : SpecLiteral} (h : l.Similar R l') :
      Similar (.attribute name l) (.attribute name l')
  | method (name : String) {a b : Signature} (h : a.Similar R b) :
      Similar (.method name a) (.method name b)

end similar

/-- Two specs made by the same calls of the constructors, on the same classes, predicates, names and
values, these without floats that are no numbers. Each of the two has keys of its own. -/
inductive TypeSpec.Twins : TypeSpec → TypeSpec → Prop where
  /-- A class or a predicate, or any other spec that both are made from. -/
  | shared (s : TypeSpec) : Twins s s
  | both {s s' t t' : TypeSpec} (hs : Twins s s') (ht : Twins t t') : Twins (.both s t) (.both s' t')
  | or {s s' t t' : TypeSpec} (hs : Twins s s') (ht : Twins t t') : Twins (s.or t) (s'.or t')
  | union {R : TypeSpec → TypeSpec → Prop} {ss ss' : List TypeSpec} {t t' : TypeSpec}
      (twins : ∀ s s', R s s' → Twins s s') (h : List.Forall₂ R ss ss')
      (made : unionOf ss = .ok t) (made' : unionOf ss' = .ok t') : Twins t t'
  | interface {R : TypeSpec → TypeSpec → Prop} {key key' : Nat} {name : String}
      {ds ds' : List Interface.Declaration} {i i' : Interface}
      (twins : ∀ s s', R s s' → Twins s s')
      (h : List.Forall₂ (Interface.Declaration.Similar R) ds ds')
      (made : Interface.build key name ds = .ok i) (made' : Interface.build key' name ds' = .ok i') :
      Twins (.interface i) (.interface i')
  | callable {R : TypeSpec → TypeSpec → Prop} {key key' : Nat} {a a' : Signature} {t t' : TypeSpec}
      (twins : ∀ s s', R s s' → Twins s s') (h : a.Similar R a')
      (made : callableOf key a = .ok t) (made' : callableOf key' a' = .ok t') : Twins t t'
  | list {s s' : TypeSpec} (h : Twins s s') : Twins (.list s) (.list s')
  | set {s s' : TypeSpec} (h : Twins s s') : Twins (.set s) (.set s')
  | tuple {R : TypeSpec → TypeSpec → Prop} {ss ss' : List TypeSpec}
      (twins : ∀ s s', R s s' → Twins s s') (h : List.Forall₂ R ss ss') :
      Twins (.tuple ss) (.tuple ss')
  | mapping {k k' v v' : TypeSpec} (hk : Twins k k') (hv : Twins v v') :
      Twins (.mapping k v) (.mapping k' v')
  | optional {s s' : TypeSpec} (h : Twins s s') : Twins (.optional s) (.optional s')
  | options (key key' : Nat) {vs : List Value} (h : ∀ v ∈ vs, v.NaNFree) :
      Twins (oneOf key vs) (oneOf key' vs)
  | literal {R : TypeSpec → TypeSpec → Prop} {l l' : SpecLiteral} {t t' : TypeSpec}
      (twins : ∀ s s', R s s' → Twins s s') (h : l.Similar R l') (made : l.toSpec = .ok t)
      (made' : l'.toSpec = .ok t') : Twins t t'

/-! ## What matches -/

/-- The two specs equal each other and, read as unions, have members that do so one by one. -/
structure TypeSpec.Matching (s t : TypeSpec) : Prop where
  equal : Mutual TypeSpec.equal s t
  members : List.Forall₂ (Mutual TypeSpec.equal) s.flatten t.flatten

namespace TypeSpec

theorem Matching.of_equal {s t : TypeSpec} (flat : s.form ≠ .union) (h : Mutual TypeSpec.equal s t) :
    Matching s t := by
  have flat' : t.form ≠ .union := form_eq_of_equal h.1 ▸ flat
  refine ⟨h, ?_⟩
  rw [flatten_eq_singleton flat, flatten_eq_singleton flat']
  exact .cons h .nil

theorem Matching.refl (s : TypeSpec) : Matching s s :=
  ⟨⟨s.equal_refl, s.equal_refl⟩, List.forall₂_same.2 fun t _ => ⟨t.equal_refl, t.equal_refl⟩⟩

/-! ## Unions -/

theorem equal_ofMembers_of_forall₂ {as bs : List TypeSpec}
    (h : List.Forall₂ (Mutual TypeSpec.equal) as bs) : (ofMembers as).equal (ofMembers bs) := by
  have partners : Partnered (fun a b => b.equal a) as bs := by
    refine ⟨h.length_eq, fun a ha => ?_⟩
    obtain ⟨b, hb, same⟩ := exists_mem_of_forall₂ h ha
    exact ⟨b, hb, same.2⟩
  match h with
  | .nil => exact equal_union_iff.2 partners
  | .cons same .nil => exact same.1
  | .cons _ (.cons _ _) => exact equal_union_iff.2 partners

/-- Unions of members that match are matching. -/
theorem matching_ofMembers {as bs : List TypeSpec} (ha : ∀ a ∈ as, a.form ≠ .union)
    (hb : ∀ b ∈ bs, b.form ≠ .union) (h : List.Forall₂ (Mutual TypeSpec.equal) as bs) :
    Matching (ofMembers as) (ofMembers bs) := by
  refine ⟨⟨equal_ofMembers_of_forall₂ h, equal_ofMembers_of_forall₂ ?_⟩, ?_⟩
  · exact forall₂_symm (fun _ _ _ _ same => same.symm) h
  · rwa [flatten_ofMembers ha, flatten_ofMembers hb]

theorem forall₂_flattenAll {ss ts : List TypeSpec} (h : List.Forall₂ Matching ss ts) :
    List.Forall₂ (Mutual TypeSpec.equal) (flattenAll ss) (flattenAll ts) := by
  induction h with
  | nil => exact .nil
  | cons first _ ih => exact List.rel_append first.members ih

/-- The union of lists that match. -/
theorem matching_distinct {ss ts : List TypeSpec} (h : List.Forall₂ Matching ss ts) :
    Matching (ofMembers (distinct (flattenAll ss))) (ofMembers (distinct (flattenAll ts))) := by
  refine matching_ofMembers (fun _ => form_of_mem_distinct) (fun _ => form_of_mem_distinct) ?_
  exact forall₂_distinctBy (fun _ _ _ _ h h' => h.agree h' equal_trans) (forall₂_flattenAll h)

theorem Matching.union {ss ts : List TypeSpec} {s t : TypeSpec} (h : List.Forall₂ Matching ss ts)
    (made : unionOf ss = .ok s) (made' : unionOf ts = .ok t) : Matching s t := by
  rw [eq_of_unionOf made, eq_of_unionOf made']
  exact matching_distinct h

theorem Matching.or {s s' t t' : TypeSpec} (hs : Matching s s') (ht : Matching t t') :
    Matching (s.or t) (s'.or t') := by
  rw [or_eq, or_eq]
  exact matching_distinct (.cons hs (.cons ht .nil))

/-! ## Containers, options and literals -/

theorem Matching.list {s t : TypeSpec} (h : Matching s t) : Matching (.list s) (.list t) :=
  .of_equal nofun ⟨equal_iff.2 (.list h.equal.1), equal_iff.2 (.list h.equal.2)⟩

theorem Matching.set {s t : TypeSpec} (h : Matching s t) : Matching (.set s) (.set t) :=
  .of_equal nofun ⟨equal_iff.2 (.set h.equal.1), equal_iff.2 (.set h.equal.2)⟩

theorem Matching.tuple {ss ts : List TypeSpec} (h : List.Forall₂ Matching ss ts) :
    Matching (.tuple ss) (.tuple ts) := by
  have both := Mutual.forall₂ (fun _ _ => Matching.equal) h
  exact .of_equal nofun ⟨equal_iff.2 (.tuple both.1), equal_iff.2 (.tuple both.2)⟩

theorem Matching.mapping {k l v x : TypeSpec} (hk : Matching k l) (hv : Matching v x) :
    Matching (.mapping k v) (.mapping l x) :=
  .of_equal nofun
    ⟨equal_iff.2 (.mapping hk.equal.1 hv.equal.1), equal_iff.2 (.mapping hk.equal.2 hv.equal.2)⟩

/-- An option set is equal to another one with the same values, as these equal themselves. -/
theorem equal_options {key key' : Nat} {vs : List Value} (h : ∀ v ∈ vs, v.NaNFree) :
    (TypeSpec.options key vs).equal (.options key' vs) :=
  equal_iff.2 (.options (.inr ⟨rfl, fun v hv => ⟨v, hv, Value.equal_refl (h v hv)⟩⟩))

end TypeSpec

section similar

variable {R : TypeSpec → TypeSpec → Prop}

mutual

/-- Literals of the same shape describe matching specs if those at their leaves match. -/
theorem SpecLiteral.Similar.matching {l l' : SpecLiteral} {t t' : TypeSpec}
    (hR : ∀ s t, R s t → s.Matching t) (h : l.Similar R l') (made : l.toSpec = .ok t)
    (made' : l'.toSpec = .ok t') : t.Matching t' := by
  cases h with
  | spec h =>
    cases made
    cases made'
    exact hR _ _ h
  | value v =>
    cases made.symm.trans made'
    exact .refl t
  | list h =>
    obtain ⟨s, hs, made⟩ := exists_ok_of_bind made
    obtain ⟨s', hs', made'⟩ := exists_ok_of_bind made'
    cases made
    cases made'
    exact (SpecLiteral.Similar.matching hR h hs hs').list
  | set h =>
    obtain ⟨s, hs, made⟩ := exists_ok_of_bind made
    obtain ⟨s', hs', made'⟩ := exists_ok_of_bind made'
    cases made
    cases made'
    exact (SpecLiteral.Similar.matching hR h hs hs').set
  | tuple h =>
    obtain ⟨ss, hss, made⟩ := exists_ok_of_bind made
    obtain ⟨ss', hss', made'⟩ := exists_ok_of_bind made'
    cases made
    cases made'
    exact .tuple (SpecLiteral.Similar.forall₂ hR h hss hss')
  | mapping hk hv =>
    obtain ⟨k, mk, made⟩ := exists_ok_of_bind made
    obtain ⟨v, mv, made⟩ := exists_ok_of_bind made
    obtain ⟨k', mk', made'⟩ := exists_ok_of_bind made'
    obtain ⟨v', mv', made'⟩ := exists_ok_of_bind made'
    cases made
    cases made'
    have key := SpecLiteral.Similar.matching hR hk mk mk'
    have value := SpecLiteral.Similar.matching hR hv mv mv'
    exact key.mapping value
termination_by sizeOf l
decreasing_by all_goals (subst_vars; simp <;> omega)

theorem SpecLiteral.Similar.forall₂ {ls ls' : List SpecLiteral} {ts ts' : List TypeSpec}
    (hR : ∀ s t, R s t → s.Matching t) (h : List.Forall₂ (SpecLiteral.Similar R) ls ls')
    (made : SpecLiteral.toSpecs ls = .ok ts) (made' : SpecLiteral.toSpecs ls' = .ok ts') :
    List.Forall₂ TypeSpec.Matching ts ts' := by
  cases h with
  | nil =>
    cases made
    cases made'
    exact .nil
  | cons h rest =>
    obtain ⟨s, hs, made⟩ := exists_ok_of_bind made
    obtain ⟨ss, hss, made⟩ := exists_ok_of_bind made
    obtain ⟨s', hs', made'⟩ := exists_ok_of_bind made'
    obtain ⟨ss', hss', made'⟩ := exists_ok_of_bind made'
    cases made
    cases made'
    have first := SpecLiteral.Similar.matching hR h hs hs'
    exact .cons first (SpecLiteral.Similar.forall₂ hR rest hss hss')
termination_by sizeOf ls
decreasing_by all_goals (subst_vars; simp <;> omega)

end

/-! ## Signatures -/

variable (hR : ∀ s t, R s t → s.Matching t)

include hR

theorem Param.Similar.equal {p q : Param} (h : p.Similar R q) : Mutual Param.equal p q := by
  obtain ⟨name, kind, type, default, numbers⟩ := h
  have type := Mutual.option (fun s t h => (hR s t h).equal) type
  have self : Option.Rel (fun v w => v.equal w) p.default p.default := by
    cases hd : p.default with
    | none => exact .none
    | some v => exact .some (Value.equal_refl (numbers v hd))
  exact ⟨Param.equal_iff.2 ⟨name, kind, type.1, default ▸ self⟩,
    Param.equal_iff.2 ⟨name.symm, kind.symm, type.2, default ▸ self⟩⟩

theorem Signature.Similar.equal {a b : Signature} (h : a.Similar R b) : Mutual Signature.equal a b := by
  have params := Mutual.forall₂ (fun _ _ hp => hp.equal hR) h.params
  have returns := Mutual.option (fun s t h => (hR s t h).equal) h.returns
  exact ⟨Signature.equal_iff.2 ⟨params.1, returns.1⟩, Signature.equal_iff.2 ⟨params.2, returns.2⟩⟩

end similar

/-! ## Interfaces -/

namespace Interface

namespace Draft

/-- Two drafts whose bases and members so far equal each other. -/
structure Matching (d d' : Draft) : Prop where
  base : Option.Rel (Mutual Interface.equal) d.base d'.base
  members : List.Forall₂ (fun m n => m.1 = n.1 ∧ Mutual Member.equal m.2 n.2) d.members d'.members

variable {d d' : Draft}

/-- What a faultless declaration does to a draft without a fault. -/
theorem declare_cases {x : Declaration} (h : (d.declare x).fault = none) :
    d.fault = none ∧ match x with
      | .base i => d.declare x = { d with base := some i }
      | .attribute name l => ∃ t, l.toSpec = .ok t ∧
          d.declare x = { d with members := d.members ++ [(name, .attribute t)] }
      | .method name s => d.declare x = { d with members := d.members ++ [(name, .method s)] } := by
  match x, h with
  | .base i, h => exact ⟨h, rfl⟩
  | .attribute name l, h =>
    rw [declare] at h ⊢
    split at h
    · rename_i t made
      have added := add_of_fault h
      rw [added] at h
      exact ⟨h, t, made, added⟩
    · exact absurd h (d.fault_fail _)
  | .method name s, h =>
    rw [declare] at h ⊢
    split at h
    · have added := add_of_fault h
      rw [added] at h
      exact ⟨h, added⟩
    · exact absurd h (d.fault_fail _)

theorem fault_of_foldl {xs : List Declaration} (h : (xs.foldl declare d).fault = none) :
    d.fault = none := by
  induction xs generalizing d with
  | nil => exact h
  | cons x rest ih => exact (declare_cases (ih h)).1

section similar

variable {R : TypeSpec → TypeSpec → Prop} (hR : ∀ s t, R s t → s.Matching t)

include hR

theorem Matching.declare {x x' : Declaration} (h : d.Matching d') (similar : x.Similar R x')
    (ok : (d.declare x).fault = none) (ok' : (d'.declare x').fault = none) :
    (d.declare x).Matching (d'.declare x') := by
  have adds : ∀ (name : String) {m n : Member}, Mutual Member.equal m n →
      List.Forall₂ (fun m n => m.1 = n.1 ∧ Mutual Member.equal m.2 n.2)
        (d.members ++ [(name, m)]) (d'.members ++ [(name, n)]) := fun name m n same =>
    List.rel_append h.members (.cons ⟨rfl, same⟩ .nil)
  have done := (declare_cases ok).2
  have done' := (declare_cases ok').2
  match similar with
  | .base hij =>
    have same := (hR _ _ hij).equal
    cases TypeSpec.equal_iff.1 same.1 with
    | interface there =>
      cases TypeSpec.equal_iff.1 same.2 with
      | interface back => exact ⟨.some ⟨there, back⟩, h.members⟩
  | .attribute name hl =>
    obtain ⟨t, made, done⟩ := done
    obtain ⟨t', made', done'⟩ := done'
    rw [done, done']
    have same := (hl.matching hR made made').equal
    exact ⟨h.base, adds name ⟨Member.equal_iff.2 (.specs same.1), Member.equal_iff.2 (.specs same.2)⟩⟩
  | .method name hs =>
    dsimp only at done done'
    rw [done, done']
    have same := hs.equal hR
    exact ⟨h.base,
      adds name ⟨Member.equal_iff.2 (.signatures same.1), Member.equal_iff.2 (.signatures same.2)⟩⟩

theorem Matching.foldl {xs ys : List Declaration} (h : d.Matching d')
    (similar : List.Forall₂ (Declaration.Similar R) xs ys)
    (ok : (xs.foldl Draft.declare d).fault = none) (ok' : (ys.foldl Draft.declare d').fault = none) :
    (xs.foldl Draft.declare d).Matching (ys.foldl Draft.declare d') := by
  induction similar generalizing d d' with
  | nil => exact h
  | cons hx _ ih =>
    exact ih (h.declare hR hx (fault_of_foldl ok) (fault_of_foldl ok')) ok ok'

end similar

end Draft

/-- Similar declarations make interfaces that equal each other. -/
theorem equal_build {R : TypeSpec → TypeSpec → Prop} (hR : ∀ s t, R s t → s.Matching t)
    {key key' : Nat} {name : String} {xs ys : List Declaration} {i j : Interface}
    (similar : List.Forall₂ (Declaration.Similar R) xs ys) (made : build key name xs = .ok i)
    (made' : build key' name ys = .ok j) : Mutual Interface.equal i j := by
  rw [build] at made made'
  split at made
  · cases made
  split at made'
  · cases made'
  rename_i ok _ ok'
  cases made
  cases made'
  have empty : Draft.empty.Matching .empty := ⟨.none, .nil⟩
  have h := empty.foldl hR similar ok ok'
  have base := Mutual.option (fun _ _ => id) h.base
  refine ⟨Interface.equal_iff.2 (.inr ⟨rfl, base.1, ?_⟩),
    Interface.equal_iff.2 (.inr ⟨rfl, base.2, ?_⟩)⟩
  · exact h.members.imp fun _ _ same => ⟨same.1, same.2.1⟩
  · exact forall₂_symm (fun _ _ _ _ same => ⟨same.1.symm, same.2.2⟩) h.members

end Interface

/-! ## Specs made twice -/

namespace TypeSpec

theorem Twins.matching {s t : TypeSpec} (h : Twins s t) : Matching s t := by
  induction h with
  | shared s => exact .refl s
  | both _ _ hs ht =>
    exact .of_equal nofun
      ⟨equal_iff.2 (.both hs.equal.1 ht.equal.1), equal_iff.2 (.both hs.equal.2 ht.equal.2)⟩
  | or _ _ hs ht => exact hs.or ht
  | union _ h made made' hR => exact .union (h.imp hR) made made'
  | interface _ h made made' hR =>
    have same := Interface.equal_build hR h made made'
    exact .of_equal nofun ⟨equal_iff.2 (.interface same.1), equal_iff.2 (.interface same.2)⟩
  | callable _ h made made' hR =>
    obtain ⟨_, -, made⟩ := exists_ok_of_bind made
    obtain ⟨_, -, made'⟩ := exists_ok_of_bind made'
    cases made
    cases made'
    have same := h.equal hR
    exact .of_equal nofun
      ⟨equal_iff.2 (.callable (.inr same.1)), equal_iff.2 (.callable (.inr same.2))⟩
  | list _ hs => exact hs.list
  | set _ hs => exact hs.set
  | tuple _ h hR => exact .tuple (h.imp hR)
  | mapping _ _ hk hv => exact hk.mapping hv
  | optional _ hs =>
    exact .of_equal nofun ⟨equal_iff.2 (.optional hs.equal.1), equal_iff.2 (.optional hs.equal.2)⟩
  | options key key' h =>
    have kept : ∀ v ∈ Value.distinct _, v.NaNFree := fun v hv => h v (mem_of_mem_distinctBy hv)
    exact .of_equal nofun ⟨equal_options kept, equal_options kept⟩
  | literal _ h made made' hR => exact h.matching hR made made'

/-- Equality of specs is a partial equivalence: on specs made by the constructors from values made by
the constructors it is symmetric and transitive. Every spec equals itself, and what is made twice of
the same classes, predicates and values is equal, unless a value contains a float that is no number. -/
theorem equal_partialEquivalence {s t u : TypeSpec} (hs : WellMade s) (ht : WellMade t) :
    (s.equal t → t.equal s) ∧ (s.equal t → t.equal u → s.equal u) ∧ s.equal s ∧
      (Twins s t → s.equal t) :=
  ⟨equal_swap hs.tame ht.tame, equal_trans, s.equal_refl, fun twins => twins.matching.equal.1⟩

/-- The same options, made twice and each time joined with a class. -/
theorem options_or_class_equal :
    let made (key : Nat) : TypeSpec := (oneOf key [.int 1, .str "a"]).or (.plain .float)
    WellMade (made 1) ∧ WellMade (made 2) ∧ Twins (made 1) (made 2) ∧
      (made 1).equal (made 2) ∧ (made 2).equal (made 1) := by
  intro made
  have wellMade : ∀ key, WellMade (made key) := fun key => by
    refine wellMade_or (Conformance.wellMade_oneOf key fun v hv => ?_) (Conformance.wellMade_plain _)
    simp only [List.mem_cons, List.not_mem_nil, or_false] at hv
    rcases hv with rfl | rfl
    · exact .int 1
    · exact .str "a"
  have numbers : ∀ v ∈ [Value.int 1, .str "a"], v.NaNFree := fun v hv => by
    simp only [List.mem_cons, List.not_mem_nil, or_false] at hv
    rcases hv with rfl | rfl <;> exact nofun
  have twins : Twins (made 1) (made 2) := .or (.options 1 2 numbers) (.shared _)
  obtain ⟨swap, -, -, equal⟩ := equal_partialEquivalence (u := made 1) (wellMade 1) (wellMade 2)
  exact ⟨wellMade 1, wellMade 2, twins, equal twins, swap (equal twins)⟩

end TypeSpec

end TypeContracts
