import Mathlib.Data.List.Nodup
import TypeContracts.Proofs.Spec.Equality
import TypeContracts.Spec.Interface

/-!
Specs as their constructors make them. `TypeSpec.Built` closes the specs under every public constructor,
literals and interfaces included; `Part.Normal` is the normal form that all of these keep.
With values made by their constructors, equality of specs in normal form is symmetric.
Main statements: `TypeSpec.Built.normal`, `TypeSpec.Built.representation`, `TypeSpec.equal_swap`.
-/

namespace TypeContracts

/-! ## What constructors are given -/

/-- The specs that a signature refers to. -/
def Signature.specs (s : Signature) : List TypeSpec :=
  s.params.filterMap (·.type) ++ s.returns.toList

theorem Signature.mem_specs_of_parameter {s : Signature} {q : Param} {t : TypeSpec} (hq : q ∈ s.params)
    (ht : q.type = some t) : t ∈ s.specs :=
  List.mem_append_left _ (List.mem_filterMap.2 ⟨q, hq, ht⟩)

theorem Signature.mem_specs_of_returns {s : Signature} {t : TypeSpec} (ht : s.returns = some t) :
    t ∈ s.specs :=
  List.mem_append_right _ (Option.mem_toList.2 ht)

mutual

/-- The specs at the leaves of a literal. -/
def SpecLiteral.leaves : SpecLiteral → List TypeSpec
  | .spec s => [s]
  | .value _ => []
  | .list xs | .set xs | .tuple xs => SpecLiteral.leavesAll xs
  | .mapping es => SpecLiteral.leavesEntries es

def SpecLiteral.leavesAll : List SpecLiteral → List TypeSpec
  | [] => []
  | x :: xs => x.leaves ++ SpecLiteral.leavesAll xs

def SpecLiteral.leavesEntries : List (SpecLiteral × SpecLiteral) → List TypeSpec
  | [] => []
  | (k, v) :: es => k.leaves ++ v.leaves ++ SpecLiteral.leavesEntries es

end

/-- The specs that a declaration refers to. A base is given as an interface spec. -/
def Interface.Declaration.specs : Interface.Declaration → List TypeSpec
  | .base i => [.interface i]
  | .attribute _ literal => literal.leaves
  | .method _ signature => signature.specs

/-- The specs that can be made with the constructors, from any classes, predicates, values, names and
keys. A signature may be any list of parameters here, in order or not. -/
inductive TypeSpec.Built : TypeSpec → Prop where
  | any : Built .any
  | plain (c : Class) : Built (.plain c)
  | predicate (q : Predicate) : Built (.predicate q)
  | both {s t : TypeSpec} (hs : Built s) (ht : Built t) : Built (.both s t)
  | or {s t : TypeSpec} (hs : Built s) (ht : Built t) : Built (s.or t)
  | union {ss : List TypeSpec} {t : TypeSpec} (h : ∀ s ∈ ss, Built s) (made : unionOf ss = .ok t) :
      Built t
  | interface {key : Nat} {name : String} {declarations : List Interface.Declaration} {i : Interface}
      (h : ∀ d ∈ declarations, ∀ s ∈ d.specs, Built s)
      (made : Interface.build key name declarations = .ok i) : Built (.interface i)
  | callable {key : Nat} {signature : Signature} {t : TypeSpec}
      (h : ∀ s ∈ signature.specs, Built s) (made : callableOf key signature = .ok t) : Built t
  | list {s : TypeSpec} (h : Built s) : Built (.list s)
  | set {s : TypeSpec} (h : Built s) : Built (.set s)
  | tuple {ss : List TypeSpec} (h : ∀ s ∈ ss, Built s) : Built (.tuple ss)
  | mapping {k v : TypeSpec} (hk : Built k) (hv : Built v) : Built (.mapping k v)
  | optional {s : TypeSpec} (h : Built s) : Built (.optional s)
  | only (c : Class) : Built (.only c)
  | options (key : Nat) (vs : List Value) : Built (oneOf key vs)
  | literal {l : SpecLiteral} {t : TypeSpec} (h : ∀ s ∈ l.leaves, Built s) (made : l.toSpec = .ok t) :
      Built t

/-! ## The normal form -/

/-- The normal form of a part: a union is flat and has at least two members, no two of them equal, an
option set holds no repetitions, a callable spec and the methods of an interface are not variadic, and
an interface declares a name once. -/
def Part.Normal : Part → Prop
  | .spec (.union ss) =>
      2 ≤ ss.length ∧ (∀ s ∈ ss, s.form ≠ .union) ∧ Distinct TypeSpec.equal ss
  | .spec (.options _ vs) => Distinct Value.equal vs
  | .spec (.callable _ s) => s.isVariadic = false
  | .interface i =>
      (i.members.map (·.1)).Nodup ∧
        ∀ name s, (name, .method s) ∈ i.members → s.isVariadic = false
  | _ => True

/-- The spec and all its parts are in normal form. -/
abbrev TypeSpec.Normal (s : TypeSpec) : Prop := s.Everywhere Part.Normal

namespace TypeSpec

/-! ## Unions -/

theorem flatten_eq_singleton {s : TypeSpec} (h : s.form ≠ .union) : s.flatten = [s] := by
  cases s <;> first | rfl | exact absurd rfl h

/-- A spec is a union, or the only member of itself. -/
theorem flatten_cases (s : TypeSpec) :
    (∃ ss, s = .union ss) ∨ s.form ≠ .union ∧ s.flatten = [s] := by
  by_cases form : s.form = .union
  · cases s <;> cases form
    exact .inl ⟨_, rfl⟩
  · exact .inr ⟨form, flatten_eq_singleton form⟩

theorem flattenAll_eq_self {ss : List TypeSpec} (h : ∀ s ∈ ss, s.form ≠ .union) :
    flattenAll ss = ss := by
  induction ss with
  | nil => rfl
  | cons s ss ih =>
    rw [flattenAll, flatten_eq_singleton (h s List.mem_cons_self),
      ih fun t ht => h t (List.mem_cons_of_mem _ ht)]
    rfl

theorem mem_flattenAll {ss : List TypeSpec} {t : TypeSpec} :
    t ∈ flattenAll ss ↔ ∃ s ∈ ss, t ∈ s.flatten := by
  induction ss with
  | nil => simp [flattenAll]
  | cons s ss ih => simp [flattenAll, ih]

theorem Normal.flatten_union {ss : List TypeSpec} (h : (union ss).Normal) :
    (union ss).flatten = ss :=
  flattenAll_eq_self h.self.2.1

/-- Read as a union, a normal spec has members, and these are normal and no unions. -/
theorem Normal.flatten {s : TypeSpec} (h : s.Normal) :
    s.flatten ≠ [] ∧ ∀ t ∈ s.flatten, t.Normal ∧ t.form ≠ .union := by
  obtain ⟨ss, rfl⟩ | ⟨form, single⟩ := s.flatten_cases
  · obtain ⟨len, flat, -⟩ := h.self
    rw [h.flatten_union]
    refine ⟨fun e => ?_, fun t ht => ⟨h.step (.alternative ht), flat t ht⟩⟩
    simp [e] at len
  · rw [single]
    refine ⟨by simp, fun t ht => ?_⟩
    rw [List.mem_singleton.1 ht]
    exact ⟨h, form⟩

/-- A union of distinct normal members is normal. -/
theorem normal_ofMembers {ss : List TypeSpec} (nonempty : ss ≠ []) (distinct : Distinct equal ss)
    (h : ∀ s ∈ ss, s.Normal ∧ s.form ≠ .union) : (ofMembers ss).Normal := by
  match ss, nonempty with
  | [s], _ => exact (h s List.mem_cons_self).1
  | s :: t :: rest, _ =>
    refine .intro ⟨by simp, fun u hu => (h u hu).2, distinct⟩ ?_
    rintro _ ⟨_⟩
    rename_i u hu
    exact (h u hu).1

theorem normal_or {s t : TypeSpec} (hs : s.Normal) (ht : t.Normal) : (s.or t).Normal := by
  refine normal_ofMembers ?_ (distinct_distinctBy _) fun u hu => ?_
  · exact distinctBy_ne_nil (by simp [hs.flatten.1])
  · rcases List.mem_append.1 (mem_of_mem_distinctBy hu) with h | h
    · exact hs.flatten.2 u h
    · exact ht.flatten.2 u h

theorem normal_unionOf {ss : List TypeSpec} {t : TypeSpec} (h : ∀ s ∈ ss, s.Normal)
    (made : unionOf ss = .ok t) : t.Normal := by
  rw [unionOf] at made
  split at made
  · cases made
  · rename_i nonempty
    cases made
    refine normal_ofMembers nonempty (distinct_distinctBy _) fun u hu => ?_
    obtain ⟨s, hs, hu⟩ := mem_flattenAll.1 (mem_of_mem_distinctBy hu)
    exact (h s hs).flatten.2 u hu

end TypeSpec

/-! ## Literals -/

/-- A chain of fallible steps that succeeds has succeeded at its first step. -/
theorem exists_ok_of_bind {ε α β : Type} {x : Except ε α} {f : α → Except ε β} {b : β}
    (h : (x >>= f) = .ok b) : ∃ a, x = .ok a ∧ f a = .ok b := by
  cases x with
  | error e => cases h
  | ok a => exact ⟨a, rfl, h⟩

theorem TypeSpec.normal_plain (c : Class) : (TypeSpec.plain c).Normal := everywhere_plain trivial

theorem TypeSpec.Normal.list {s : TypeSpec} (h : s.Normal) : (TypeSpec.list s).Normal :=
  everywhere_list trivial h

theorem TypeSpec.Normal.set {s : TypeSpec} (h : s.Normal) : (TypeSpec.set s).Normal :=
  .intro trivial fun | _, .setElement _ => h

theorem TypeSpec.normal_tuple {ss : List TypeSpec} (h : ∀ s ∈ ss, s.Normal) :
    (TypeSpec.tuple ss).Normal :=
  .intro trivial fun | _, .position hs => h _ hs

theorem TypeSpec.Normal.mapping {k v : TypeSpec} (hk : k.Normal) (hv : v.Normal) :
    (TypeSpec.mapping k v).Normal :=
  .intro trivial fun
    | _, .key _ _ => hk
    | _, .value _ _ => hv

mutual

/-- A value reads as a normal spec: its leaves are classes. -/
theorem Value.normal_toSpec {v : Value} {t : TypeSpec} (made : v.toSpec = .ok t) : t.Normal := by
  unfold Value.toSpec at made
  split at made
  · cases made
    exact TypeSpec.normal_plain _
  · obtain ⟨s, hs, made⟩ := exists_ok_of_bind made
    cases made
    exact (Value.normal_toSpec hs).list
  · cases made
  · obtain ⟨s, hs, made⟩ := exists_ok_of_bind made
    cases made
    exact (Value.normal_toSpec hs).set
  · cases made
  · obtain ⟨ss, hss, made⟩ := exists_ok_of_bind made
    cases made
    exact TypeSpec.normal_tuple (Value.normal_toSpecs hss)
  · obtain ⟨k, hk, made⟩ := exists_ok_of_bind made
    obtain ⟨v, hv, made⟩ := exists_ok_of_bind made
    cases made
    exact (Value.normal_toSpec hk).mapping (Value.normal_toSpec hv)
  · cases made
  · cases made
termination_by sizeOf v
decreasing_by all_goals (subst_vars; simp <;> omega)

theorem Value.normal_toSpecs {vs : List Value} {ts : List TypeSpec}
    (made : Value.toSpecs vs = .ok ts) : ∀ t ∈ ts, t.Normal := by
  unfold Value.toSpecs at made
  split at made
  · cases made
    exact nofun
  · obtain ⟨s, hs, made⟩ := exists_ok_of_bind made
    obtain ⟨ss, hss, made⟩ := exists_ok_of_bind made
    cases made
    exact List.forall_mem_cons.2 ⟨Value.normal_toSpec hs, Value.normal_toSpecs hss⟩
termination_by sizeOf vs
decreasing_by all_goals (subst_vars; simp <;> omega)

end

mutual

/-- A literal with normal leaves reads as a normal spec. -/
theorem SpecLiteral.normal_toSpec {l : SpecLiteral} {t : TypeSpec} (h : ∀ s ∈ l.leaves, s.Normal)
    (made : l.toSpec = .ok t) : t.Normal := by
  unfold SpecLiteral.toSpec at made
  split at made
  · cases made
    exact h _ List.mem_cons_self
  · exact Value.normal_toSpec made
  · obtain ⟨s, hs, made⟩ := exists_ok_of_bind made
    cases made
    exact (SpecLiteral.normal_toSpec (by simpa [leaves, leavesAll] using h) hs).list
  · cases made
  · obtain ⟨s, hs, made⟩ := exists_ok_of_bind made
    cases made
    exact (SpecLiteral.normal_toSpec (by simpa [leaves, leavesAll] using h) hs).set
  · cases made
  · obtain ⟨ss, hss, made⟩ := exists_ok_of_bind made
    cases made
    exact TypeSpec.normal_tuple (SpecLiteral.normal_toSpecs h hss)
  · obtain ⟨k, hk, made⟩ := exists_ok_of_bind made
    obtain ⟨v, hv, made⟩ := exists_ok_of_bind made
    cases made
    simp only [leaves, leavesEntries, List.append_nil, List.mem_append] at h
    exact (SpecLiteral.normal_toSpec (fun s hs => h s (.inl hs)) hk).mapping
      (SpecLiteral.normal_toSpec (fun s hs => h s (.inr hs)) hv)
  · cases made
termination_by sizeOf l
decreasing_by all_goals (subst_vars; simp <;> omega)

theorem SpecLiteral.normal_toSpecs {ls : List SpecLiteral} {ts : List TypeSpec}
    (h : ∀ s ∈ SpecLiteral.leavesAll ls, s.Normal) (made : SpecLiteral.toSpecs ls = .ok ts) :
    ∀ t ∈ ts, t.Normal := by
  unfold SpecLiteral.toSpecs at made
  split at made
  · cases made
    exact nofun
  · obtain ⟨s, hs, made⟩ := exists_ok_of_bind made
    obtain ⟨ss, hss, made⟩ := exists_ok_of_bind made
    cases made
    simp only [leavesAll, List.mem_append] at h
    exact List.forall_mem_cons.2 ⟨SpecLiteral.normal_toSpec (fun s hs => h s (.inl hs)) hs,
      SpecLiteral.normal_toSpecs (fun s hs => h s (.inr hs)) hss⟩
termination_by sizeOf ls
decreasing_by all_goals (subst_vars; simp <;> omega)

end

/-! ## Interfaces -/

theorem Signature.normal {s : Signature} (h : ∀ t ∈ s.specs, t.Normal) :
    s.Everywhere Part.Normal :=
  Signature.everywhere trivial (fun _ t hq ht => h t (mem_specs_of_parameter hq ht)) fun t ht =>
    h t (mem_specs_of_returns ht)

theorem Signature.fixed_of_requireFixedArity {s : Signature} (h : s.requireFixedArity = .ok ()) :
    s.isVariadic = false := by
  rw [requireFixedArity] at h
  split at h
  · cases h
  · rename_i none
    simpa [isVariadic] using none

theorem Signature.requireFixedArity_of_fixed {s : Signature} (h : s.isVariadic = false) :
    s.requireFixedArity = .ok () := by
  have none : s.params.find? (·.isVariadic) = none :=
    List.find?_eq_none.2 fun q hq => by simpa using List.any_eq_false.1 h q hq
  rw [requireFixedArity, none]

namespace Interface

/-- What a draft has gathered so far is in normal form. -/
structure Draft.Normal (d : Draft) : Prop where
  base : ∀ b ∈ d.base, Part.Everywhere Part.Normal (.interface b)
  names : (d.members.map (·.1)).Nodup
  attributes : ∀ name t, (name, .attribute t) ∈ d.members → t.Normal
  methods : ∀ name s, (name, .method s) ∈ d.members →
    s.isVariadic = false ∧ s.Everywhere Part.Normal

namespace Draft

variable {d : Draft}

theorem Normal.fail (h : d.Normal) (invalid : InvalidSpec) : (d.fail invalid).Normal :=
  ⟨h.base, h.names, h.attributes, h.methods⟩

/-- A member is added under a name that is new. -/
theorem nodup_add (h : (d.members.map (·.1)).Nodup) (name : String) (m : Member) :
    ((d.add name m).members.map (·.1)).Nodup := by
  rw [Draft.add]
  split
  · exact h
  · rename_i fresh
    have fresh : name ∉ d.members.map (·.1) := by simpa using fresh
    rw [List.map_append]
    exact List.concat_eq_append ▸ h.concat fresh

/-- A draft keeps its normal form when a member in normal form is added. -/
theorem Normal.add (h : d.Normal) (name : String) {m : Member}
    (ha : ∀ t, m = .attribute t → t.Normal)
    (hm : ∀ s, m = .method s → s.isVariadic = false ∧ s.Everywhere Part.Normal) :
    (d.add name m).Normal := by
  have names := nodup_add h.names name m
  rw [Draft.add] at names ⊢
  split
  · exact h.fail _
  · rename_i fresh
    rw [if_neg fresh] at names
    refine ⟨h.base, names, fun n t ht => ?_, fun n s hs => ?_⟩
    · rcases List.mem_append.1 ht with ht | ht
      · exact h.attributes n t ht
      · exact ha t (Prod.ext_iff.1 (List.mem_singleton.1 ht)).2.symm
    · rcases List.mem_append.1 hs with hs | hs
      · exact h.methods n s hs
      · exact hm s (Prod.ext_iff.1 (List.mem_singleton.1 hs)).2.symm

/-- One declaration of normal specs keeps the normal form. -/
theorem Normal.declare (h : d.Normal) {declaration : Declaration}
    (hs : ∀ s ∈ declaration.specs, s.Normal) : (d.declare declaration).Normal := by
  match declaration, hs with
  | .base i, hs =>
    refine ⟨fun b hb => ?_, h.names, h.attributes, h.methods⟩
    cases hb
    exact (hs _ List.mem_cons_self).step (.interface i)
  | .attribute name literal, hs =>
    rw [Draft.declare]
    split
    · rename_i t made
      refine h.add name (fun u hu => ?_) nofun
      cases hu
      exact SpecLiteral.normal_toSpec hs made
    · exact h.fail _
  | .method name signature, hs =>
    rw [Draft.declare]
    split
    · rename_i fixed
      refine h.add name nofun fun u hu => ?_
      cases hu
      exact ⟨Signature.fixed_of_requireFixedArity fixed, Signature.normal hs⟩
    · exact h.fail _

theorem normal_foldl {declarations : List Declaration}
    (hs : ∀ d ∈ declarations, ∀ s ∈ d.specs, s.Normal) (h : d.Normal) :
    (declarations.foldl declare d).Normal := by
  induction declarations generalizing d with
  | nil => exact h
  | cons declaration rest ih =>
    exact ih (fun d hd => hs d (List.mem_cons_of_mem _ hd)) (h.declare (hs _ List.mem_cons_self))

end Draft

/-- An interface declared over normal specs is in normal form. -/
theorem normal_build {key : Nat} {name : String} {declarations : List Declaration} {i : Interface}
    (hs : ∀ d ∈ declarations, ∀ s ∈ d.specs, s.Normal)
    (made : build key name declarations = .ok i) : Part.Everywhere Part.Normal (.interface i) := by
  have h := Draft.normal_foldl hs (d := .empty) ⟨nofun, List.nodup_nil, nofun, nofun⟩
  rw [build] at made
  split at made
  · cases made
  · cases made
    exact everywhere ⟨h.names, fun n s hs => (h.methods n s hs).1⟩ h.base h.attributes
      fun n s hs => (h.methods n s hs).2

end Interface

/-! ## Every constructor keeps the normal form -/

theorem TypeSpec.Built.normal {s : TypeSpec} (h : s.Built) : s.Normal := by
  induction h with
  | any | plain | predicate | only => exact .intro trivial nofun
  | both _ _ hs ht => exact everywhere_both trivial hs ht
  | or _ _ hs ht => exact normal_or hs ht
  | union _ made hss => exact normal_unionOf hss made
  | interface _ made hds => exact everywhere_interface trivial (Interface.normal_build hds made)
  | callable _ made hss =>
    obtain ⟨_, fixed, made⟩ := exists_ok_of_bind made
    cases made
    exact everywhere_callable (Signature.fixed_of_requireFixedArity fixed) (Signature.normal hss)
  | list _ hs => exact hs.list
  | set _ hs => exact hs.set
  | tuple _ hss => exact normal_tuple hss
  | mapping _ _ hk hv => exact hk.mapping hv
  | optional _ hs => exact everywhere_optional trivial hs
  | options key vs => exact everywhere_options (distinct_distinctBy _)
  | literal _ made hls => exact SpecLiteral.normal_toSpec hls made

/-- Whatever constructors a spec is made by, every union in it is flat and has at least two members,
none of them equal to a later one; no option set has an option equal to a later one; callable specs and
the methods of interfaces take no variadic parameters; and no interface declares a name twice. The
bases of interfaces are included. -/
theorem TypeSpec.Built.representation {s : TypeSpec} (h : s.Built) {x : Part}
    (hx : Relation.ReflTransGen Part.Step (.spec s) x) :
    (∀ ss, x = .spec (.union ss) →
      2 ≤ ss.length ∧ (∀ t ∈ ss, ∀ ts, t ≠ .union ts) ∧ ss.Pairwise fun t u => t.equal u = false) ∧
    (∀ key vs, x = .spec (.options key vs) → vs.Pairwise fun v u => v.equal u = false) ∧
    (∀ key signature, x = .spec (.callable key signature) → signature.isVariadic = false) ∧
    ∀ i, x = .interface i → (i.members.map (·.1)).Nodup ∧
      ∀ name signature, (name, .method signature) ∈ i.members → signature.isVariadic = false := by
  have normal : x.Normal := h.normal x hx
  refine ⟨?_, ?_, ?_, ?_⟩
  · rintro ss rfl
    obtain ⟨len, flat, apart⟩ := normal
    refine ⟨len, ?_, apart⟩
    rintro _ ht ts rfl
    exact flat _ ht rfl
  · rintro key vs rfl
    exact normal
  · rintro key signature rfl
    exact normal
  · rintro i rfl
    exact normal

/-- A union with a repeated member, which is dropped, as the result of a callable spec. -/
theorem TypeSpec.union_in_callable_representation :
    let u : TypeSpec := .union [.plain .int, .plain .str]
    let s : TypeSpec := .callable 1 ⟨[], some u⟩
    unionOf [.plain .int, .plain .str, .plain .int] = .ok u ∧ s.Built ∧
      Relation.ReflTransGen Part.Step (.spec s) (.spec u) ∧
      [TypeSpec.plain .int, .plain .str].Pairwise fun t u => t.equal u = false := by
  intro u s
  have made : unionOf [.plain .int, .plain .str, .plain .int] = .ok u := by decide +kernel
  have union : u.Built := .union (by simp [Built.plain]) made
  have built : s.Built := by
    refine .callable (fun t ht => ?_) (rfl : callableOf 1 ⟨[], some u⟩ = .ok s)
    exact List.mem_singleton.1 ht ▸ union
  have inside : Relation.ReflTransGen Part.Step (.spec s) (.spec u) :=
    .tail (.single (.signature 1 ⟨[], some u⟩)) (.returns rfl)
  exact ⟨made, built, inside, ((built.representation inside).1 _ rfl).2.2⟩

/-! ## Stored values -/

/-- Stored sets and dicts were made by their constructors. -/
def Part.ValuesBuilt : Part → Prop
  | .spec (.options _ vs) => ∀ v ∈ vs, v.Built
  | .signature s => ∀ q ∈ s.params, ∀ v ∈ q.default, v.Built
  | _ => True

/-- A part in normal form with well-made values. -/
structure Part.Tame (x : Part) : Prop where
  normal : x.Normal
  values : x.ValuesBuilt

theorem Part.Tame.comparable {x : Part} (h : x.Tame) : x.Comparable := by
  cases x with
  | spec s =>
    cases s with
    | union ss => exact h.normal.2.2
    | options key vs => exact ⟨h.normal, h.values⟩
    | _ => trivial
  | signature s => exact h.values
  | interface i => trivial

/-- Equality of tame specs is symmetric. -/
theorem TypeSpec.equal_swap {s t : TypeSpec} (hs : s.Everywhere Part.Tame) (ht : t.Everywhere Part.Tame)
    (h : s.equal t) : t.equal s :=
  TypeSpec.equal_symm (hs.imp fun _ => (·.comparable)) (ht.imp fun _ => (·.comparable)) h

namespace Conformance

/-- A spec made by the constructors from values made by the constructors. -/
structure WellMade (s : TypeSpec) : Prop where
  built : s.Built
  values : s.Everywhere Part.ValuesBuilt

theorem WellMade.tame {s : TypeSpec} (h : WellMade s) : s.Everywhere Part.Tame :=
  fun x hx => ⟨h.built.normal x hx, h.values x hx⟩

theorem wellMade_plain (c : Class) : WellMade (.plain c) :=
  ⟨.plain c, TypeSpec.everywhere_plain trivial⟩

theorem wellMade_both {s t : TypeSpec} (hs : WellMade s) (ht : WellMade t) : WellMade (.both s t) :=
  ⟨.both hs.built ht.built, TypeSpec.everywhere_both trivial hs.values ht.values⟩

theorem wellMade_oneOf (key : Nat) {vs : List Value} (h : ∀ v ∈ vs, v.Built) :
    WellMade (.oneOf key vs) :=
  ⟨.options key vs, TypeSpec.everywhere_options fun v hv => h v (mem_of_mem_distinctBy hv)⟩

end Conformance

end TypeContracts
