import TypeContracts.Proofs.Class
import TypeContracts.Proofs.Conformance.Callables

/-!
The checks as rules, for predicates that are functions of the value: the probe answers in the identity
monad. Each check has one equation or equivalence here, from which everything else about it is derived.
`Rule` lists the ways in which a spec is below another one apart from equality and specs that accept
everything. Main statement: `isSubtype_iff`.
-/

namespace TypeContracts

theorem run_allM {α : Type} (f : α → Id Bool) (xs : List α) :
    (xs.allM f).run = xs.all fun x => (f x).run := by
  induction xs with
  | nil => rfl
  | cons x xs ih =>
    rw [List.all_cons, ← ih]
    cases h : (f x).run <;> simp [List.allM, h]

theorem run_anyM {α : Type} (f : α → Id Bool) (xs : List α) :
    (xs.anyM f).run = xs.any fun x => (f x).run := by
  induction xs with
  | nil => rfl
  | cons x xs ih =>
    rw [List.any_cons, ← ih]
    cases h : (f x).run <;> simp [List.anyM, h]

/-- One check and then another is their conjunction. -/
theorem run_andThen (x y : Id Bool) :
    Id.run (do if ← x then y else return false) = (x.run && y.run) := by
  cases h : x.run <;> simp [h]

theorem run_orElse (x y : Id Bool) :
    Id.run (do if ← x then return true else y) = (x.run || y.run) := by
  cases h : x.run <;> simp [h]

/-- A check of two lists side by side. -/
theorem run_zip_attach {α β : Type} (f : α → β → Id Bool) (xs : List α) (ys : List β) :
    ((xs.zip ys.attach).allM fun x => f x.1 x.2.1).run =
      (xs.zip ys).all fun x => (f x.1 x.2).run := by
  rw [run_allM, zip_eq_map_zip_attach xs ys, List.all_map]
  rfl

theorem all_zip_iff {α β : Type} {f : α → β → Bool} {xs : List α} {ys : List β}
    (len : xs.length = ys.length) :
    (xs.zip ys).all (fun x => f x.1 x.2) ↔ List.Forall₂ (fun x y => f x y) xs ys := by
  simp [List.forall₂_iff_zip, len]

/-- Specs that are not taken apart when they are candidates. -/
def TypeSpec.isWhole : TypeSpec → Bool
  | .union _ | .optional _ | .options _ _ | .both _ _ => false
  | _ => true

namespace Conformance

variable (w : World) (p : Probe Id)

/-! ## Values -/

section satisfies

variable (v : Value)

@[simp] theorem satisfies_any : (satisfies w p v .any).run = true := by
  rw [satisfies]; rfl

@[simp] theorem satisfies_plain (c : Class) :
    (satisfies w p v (.plain c)).run = v.classOf.isSubclassOf c := by
  rw [satisfies]; rfl

@[simp] theorem satisfies_both (l r : TypeSpec) :
    (satisfies w p v (.both l r)).run =
      ((satisfies w p v l).run && (satisfies w p v r).run) := by
  rw [satisfies, run_andThen]

@[simp] theorem satisfies_union (ss : List TypeSpec) :
    (satisfies w p v (.union ss)).run = ss.any fun s => (satisfies w p v s).run := by
  rw [satisfies, run_anyM, Bool.eq_iff_iff]
  simp

@[simp] theorem satisfies_optional (s : TypeSpec) :
    (satisfies w p v (.optional s)).run = (v.isNull || (satisfies w p v s).run) := by
  rw [satisfies]
  cases v.isNull <;> rfl

@[simp] theorem satisfies_only (c : Class) :
    (satisfies w p v (.only c)).run = (v.classOf == c) := by
  rw [satisfies]; rfl

@[simp] theorem satisfies_options (key : Nat) (vs : List Value) :
    (satisfies w p v (.options key vs)).run = v.isIn vs := by
  rw [satisfies]; rfl

theorem satisfies_list_iff {s : TypeSpec} :
    (satisfies w p v (.list s)).run ↔
      ∃ items, v = .list items ∧ ∀ x ∈ items, (satisfies w p x s).run := by
  cases v with
  | list items => rw [satisfies, run_allM]; simp
  | _ => rw [satisfies]; simp; intro _ h; cases h

theorem satisfies_set_iff {s : TypeSpec} :
    (satisfies w p v (.set s)).run ↔
      ∃ items, v = .set items ∧ ∀ x ∈ items, (satisfies w p x s).run := by
  cases v with
  | set items => rw [satisfies, run_allM]; simp
  | _ => rw [satisfies]; simp; intro _ h; cases h

theorem satisfies_tuple_iff {ss : List TypeSpec} :
    (satisfies w p v (.tuple ss)).run ↔
      ∃ items, v = .tuple items ∧ List.Forall₂ (fun x s => (satisfies w p x s).run) items ss := by
  cases v with
  | tuple items =>
    rw [satisfies]
    split
    · rename_i len
      rw [run_zip_attach fun x s => satisfies w p x s,
        all_zip_iff (f := fun x s => (satisfies w p x s).run) len]
      simp
    · rename_i len
      simpa using fun h => len h.length_eq
  | _ => rw [satisfies]; simp; intro _ h; cases h

theorem satisfies_mapping_iff {k s : TypeSpec} :
    (satisfies w p v (.mapping k s)).run ↔
      ∃ entries, v = .dict entries ∧
        ∀ e ∈ entries, (satisfies w p e.1 k).run ∧ (satisfies w p e.2 s).run := by
  cases v with
  | dict entries =>
    rw [satisfies, run_allM]
    simp only [run_andThen]
    simp
  | _ => rw [satisfies]; simp; intro _ h; cases h

/-- A callable that can be inspected has to conform; one that cannot is accepted. -/
theorem callableConforms_iff {expected : Signature} :
    (callableConforms w p v expected).run ↔
      w.calling v = .unsigned ∨
        ∃ s, w.calling v = .signed s ∧ (signatureConforms w p s expected).run := by
  rw [callableConforms]
  split <;> rename_i h <;> simp [h, refuse]

theorem memberConforms_attribute (s : TypeSpec) :
    memberConforms w p v (.attribute s) = satisfies w p v s := by
  rw [memberConforms]

theorem memberConforms_method (s : Signature) :
    memberConforms w p v (.method s) = callableConforms w p v s := by
  rw [memberConforms]

theorem satisfies_callable (key : Nat) (s : Signature) :
    satisfies w p v (.callable key s) = callableConforms w p v s := by
  rw [satisfies]

/-- A value has every member of an interface, each conforming. -/
theorem satisfies_interface_iff {i : Interface} :
    (satisfies w p v (.interface i)).run ↔
      ∀ m ∈ i.allMembers, ∃ found, w.getAttribute? 0 v m.1 = some found ∧
        (memberConforms w p found m.2).run := by
  rw [satisfies, implements, run_allM, List.all_eq_true]
  constructor
  · intro h m hm
    have := h ⟨m, hm⟩ (List.mem_attach _ _)
    dsimp only at this
    split at this
    · cases this
    · rename_i found e
      refine ⟨found, e, ?_⟩
      cases c : (memberConforms w p found m.2).run
      · simp [c, refuse] at this
      · rfl
  · rintro h ⟨m, hm⟩ -
    obtain ⟨found, e, c⟩ := h m hm
    dsimp only
    rw [e]
    simp [c]

end satisfies

/-! ## Signatures and members -/

theorem run_orRefuse (x : Id Bool) (message : Unit → String) :
    Id.run (do if ← x then return true else refuse p message) = x.run := by
  cases h : x.run <;> simp [h, refuse]

/-- An expected annotation is met by one below it; without one everything is accepted. -/
theorem annotationConforms_iff {candidate expected : Option TypeSpec} :
    (annotationConforms w p candidate expected).run ↔
      ∀ t ∈ expected, ∃ s ∈ candidate, (isSubtype w p s t).run := by
  cases candidate <;> cases expected <;> rw [annotationConforms] <;> simp

theorem paramConforms_iff {candidate expected : Param} :
    (paramConforms w p candidate expected).run ↔
      candidate.name = expected.name ∧
        (annotationConforms w p candidate.type expected.type).run := by
  rw [paramConforms]
  by_cases name : candidate.name = expected.name
  · simp only [name, bne_self_eq_false, Bool.false_eq_true, if_false, run_orRefuse, true_and]
  · simp [name, refuse]

/-- A signature meets another one if it has no variadic parameters, no required ones besides, and
parameters and result conform position by position. -/
theorem signatureConforms_iff {candidate expected : Signature} :
    (signatureConforms w p candidate expected).run ↔
      candidate.isVariadic = false ∧ expected.params.length ≤ candidate.params.length ∧
        (∀ q ∈ candidate.params.drop expected.params.length, q.hasDefault) ∧
        (∀ q ∈ candidate.params.zip expected.params, (paramConforms w p q.1 q.2).run) ∧
        (annotationConforms w p candidate.returns expected.returns).run := by
  rw [signatureConforms]
  by_cases variadic : candidate.isVariadic
  · simp [variadic, refuse]
  by_cases short : candidate.params.length < expected.params.length
  · have := Nat.not_le.2 short
    simp [variadic, short, this, refuse]
  rcases required : (candidate.params.drop expected.params.length).find? (!·.hasDefault) with
    _ | extra
  · have optional : ∀ q ∈ candidate.params.drop expected.params.length, q.hasDefault := by
      simpa using required
    have params := run_zip_attach (paramConforms w p) candidate.params expected.params
    simp only [variadic, short, required, Bool.false_eq_true, if_false, run_andThen, run_orRefuse,
      params, Bool.and_eq_true, List.all_eq_true]
    exact ⟨fun h => ⟨trivial, Nat.not_lt.1 short, optional, h⟩, fun h => h.2.2.2⟩
  · have hx := List.mem_of_find?_eq_some required
    have := List.find?_some required
    have : ¬ ∀ q ∈ candidate.params.drop expected.params.length, q.hasDefault := fun h => by
      simp [h extra hx] at this
    simp [variadic, short, required, this, refuse]

/-- A class provides a method through a class attribute or a method of its own or inherited; a method
without a signature will do. -/
theorem classProvides_iff {c : Class} {name : String} {expected : Signature} :
    (classProvides w p c name expected).run ↔
      (∃ v, w.static? c name = some (.attribute v) ∧ (callableConforms w p v expected).run) ∨
        ∃ owner m, w.static? c name = some (.method owner m) ∧
          ∀ s ∈ m.signature, (signatureConforms w p s expected).run := by
  rw [classProvides]
  split
  · simp [*]
  · simp [*]
  · split <;> simp [*]

theorem classImplements_iff {c : Class} {i : Interface} :
    (classImplements w p c i).run ↔
      ∀ name expected, (name, .method expected) ∈ i.allMembers →
        (classProvides w p c name expected).run := by
  rw [classImplements, run_allM, List.all_eq_true]
  constructor
  · intro h name expected hm
    have := h ⟨_, hm⟩ (List.mem_attach _ _)
    cases provides : (classProvides w p c name expected).run
    · simp [provides, refuse] at this
    · rfl
  · rintro h ⟨⟨name, member⟩, hm⟩ -
    match member, hm with
    | .attribute _, _ => rfl
    | .method expected, hm => simp [h name expected hm]

/-- Whether a member of an interface is below a member of another one: of the same sort, and below. -/
def MemberMeets : Member → Member → Prop
  | .attribute given, .attribute wanted => (isSubtype w p given wanted).run
  | .method given, .method wanted => (signatureConforms w p given wanted).run
  | _, _ => False

theorem interfaceConforms_iff {narrow wide : Interface} :
    (interfaceConforms w p narrow wide).run ↔
      narrow.derivesFrom wide ∨ ∀ m ∈ wide.allMembers,
        ∃ given, narrow.member? m.1 = some given ∧ MemberMeets w p given m.2 := by
  rw [interfaceConforms]
  by_cases derives : narrow.derivesFrom wide
  · simp [derives]
  simp only [derives, Bool.false_eq_true, if_false, false_or]
  rw [run_allM, List.all_eq_true]
  constructor
  · rintro h ⟨name, wanted⟩ hm
    have := h ⟨_, hm⟩ (List.mem_attach _ _)
    dsimp only at this
    split at this
    · rename_i given _ found
      exact ⟨_, found, this⟩
    · rename_i given _ found
      exact ⟨_, found, this⟩
    · simp [refuse] at this
  · rintro h ⟨⟨name, wanted⟩, hm⟩ -
    obtain ⟨given, found, meets⟩ := h _ hm
    dsimp only
    cases given <;> cases wanted <;> first | exact meets.elim | (simp only [found]; exact meets)

/-! ## Specs -/

/-- The ways in which the first spec is below the second, besides equality and specs that accept
everything. The second is taken apart only for a candidate that is whole. -/
inductive Rule : TypeSpec → TypeSpec → Prop where
  | union {ss : List TypeSpec} {t : TypeSpec} (h : ∀ s ∈ ss, (isSubtype w p s t).run) :
      Rule (.union ss) t
  | optional {s t : TypeSpec} (none : (isSubtype w p (.plain .noneType) t).run)
      (some : (isSubtype w p s t).run) : Rule (.optional s) t
  | options {key : Nat} {vs : List Value} {t : TypeSpec} (h : ∀ v ∈ vs, (satisfies w p v t).run) :
      Rule (.options key vs) t
  | left {l r t : TypeSpec} (h : (isSubtype w p l t).run) : Rule (.both l r) t
  | right {l r t : TypeSpec} (h : (isSubtype w p r t).run) : Rule (.both l r) t
  | toMember {s t : TypeSpec} {ts : List TypeSpec} (whole : s.isWhole) (ht : t ∈ ts)
      (h : (isSubtype w p s t).run) : Rule s (.union ts)
  | toNone {s t : TypeSpec} (h : s.isNoneType) : Rule s (.optional t)
  | toInner {s t : TypeSpec} (whole : s.isWhole) (h : (isSubtype w p s t).run) : Rule s (.optional t)
  | plain {c d : Class} (h : c.isSubclassOf d) : Rule (.plain c) (.plain d)
  | onlyPlain {c d : Class} (h : c.isSubclassOf d) : Rule (.only c) (.plain d)
  | plainOnly (c : Class) : Rule (.plain c) (.only c)
  | only (c : Class) : Rule (.only c) (.only c)
  | plainInterface {c : Class} {i : Interface} (h : (classImplements w p c i).run) :
      Rule (.plain c) (.interface i)
  | onlyInterface {c : Class} {i : Interface} (h : (classImplements w p c i).run) :
      Rule (.only c) (.interface i)
  | interface {i j : Interface} (h : (interfaceConforms w p i j).run) :
      Rule (.interface i) (.interface j)
  | callable {a b : Nat} {s t : Signature} (h : (signatureConforms w p s t).run) :
      Rule (.callable a s) (.callable b t)
  | list {s t : TypeSpec} (h : (isSubtype w p s t).run) : Rule (.list s) (.list t)
  | set {s t : TypeSpec} (h : (isSubtype w p s t).run) : Rule (.set s) (.set t)
  | tuple {ss ts : List TypeSpec} (h : List.Forall₂ (fun s t => (isSubtype w p s t).run) ss ts) :
      Rule (.tuple ss) (.tuple ts)
  | mapping {k l v x : TypeSpec} (hk : (isSubtype w p k l).run) (hv : (isSubtype w p v x).run) :
      Rule (.mapping k v) (.mapping l x)

section Rule

variable {w p}

theorem rule_union_iff {ss : List TypeSpec} {t : TypeSpec} :
    Rule w p (.union ss) t ↔ ∀ s ∈ ss, (isSubtype w p s t).run := by
  refine ⟨fun h => ?_, .union⟩
  cases h with
  | union h => exact h
  | toMember whole | toNone whole | toInner whole => cases whole

theorem rule_optional_iff {s t : TypeSpec} :
    Rule w p (.optional s) t ↔ (isSubtype w p (.plain .noneType) t).run ∧ (isSubtype w p s t).run := by
  refine ⟨fun h => ?_, fun h => .optional h.1 h.2⟩
  cases h with
  | optional none some => exact ⟨none, some⟩
  | toMember whole | toNone whole | toInner whole => cases whole

theorem rule_options_iff {key : Nat} {vs : List Value} {t : TypeSpec} :
    Rule w p (.options key vs) t ↔ ∀ v ∈ vs, (satisfies w p v t).run := by
  refine ⟨fun h => ?_, .options⟩
  cases h with
  | options h => exact h
  | toMember whole | toNone whole | toInner whole => cases whole

theorem rule_both_iff {l r t : TypeSpec} :
    Rule w p (.both l r) t ↔ (isSubtype w p l t).run ∨ (isSubtype w p r t).run := by
  refine ⟨fun h => ?_, fun h => h.elim .left .right⟩
  cases h with
  | left h => exact .inl h
  | right h => exact .inr h
  | toMember whole | toNone whole | toInner whole => cases whole

end Rule

theorem isSubtypeByShape_iff {s t : TypeSpec} (whole : s.isWhole) (hu : t.form ≠ .union)
    (ho : t.form ≠ .optional) : (isSubtypeByShape w p s t).run ↔ Rule w p s t := by
  constructor
  · intro h
    unfold isSubtypeByShape at h
    split at h
    · exact .plain h
    · exact .onlyPlain h
    · exact beq_iff_eq.1 h ▸ .plainOnly _
    · exact beq_iff_eq.1 h ▸ .only _
    · exact .plainInterface h
    · exact .onlyInterface h
    · exact .interface h
    · exact .callable h
    · exact .list h
    · exact .set h
    · split at h
      · rename_i narrow wide len
        rw [run_zip_attach (isSubtype w p)] at h
        exact .tuple ((all_zip_iff (f := fun s t => (isSubtype w p s t).run) len).1 h)
      · cases h
    · rw [run_andThen, Bool.and_eq_true] at h
      exact .mapping h.1 h.2
    · cases h
  · intro h
    cases h with
    | union | optional | options | left | right => cases whole
    | toMember => exact absurd rfl hu
    | toNone | toInner => exact absurd rfl ho
    | tuple h =>
      rw [isSubtypeByShape, if_pos h.length_eq, run_zip_attach (isSubtype w p)]
      exact (all_zip_iff (f := fun s t => (isSubtype w p s t).run) h.length_eq).2 h
    | mapping hk hv => rw [isSubtypeByShape, run_andThen, hk, hv]; rfl
    | plainOnly | only => rw [isSubtypeByShape]; exact beq_self_eq_true _
    | _ h => rw [isSubtypeByShape]; exact h

theorem isSubtypeOfParts_iff {s t : TypeSpec} (whole : s.isWhole) :
    (isSubtypeOfParts w p s t).run ↔ Rule w p s t := by
  cases t with
  | union ts =>
    rw [isSubtypeOfParts, run_anyM, List.any_eq_true]
    constructor
    · rintro ⟨t, -, h⟩
      exact .toMember whole t.2 h
    · intro h
      cases h with
      | union | optional | options | left | right => cases whole
      | toMember _ ht h => exact ⟨⟨_, ht⟩, List.mem_attach _ _, h⟩
  | optional t =>
    rw [isSubtypeOfParts]
    constructor
    · intro h
      split at h
      · rename_i none
        exact .toNone none
      · exact .toInner whole h
    · intro h
      cases h with
      | union | optional | options | left | right => cases whole
      | toNone h => rw [if_pos h]; rfl
      | toInner _ h =>
        split
        · rfl
        · exact h
  | _ =>
    rw [isSubtypeOfParts]
    · exact isSubtypeByShape_iff w p whole (by intro h; cases h) (by intro h; cases h)
    all_goals intro _ h; cases h

theorem isSubtype_iff {s t : TypeSpec} :
    (isSubtype w p s t).run ↔ s.equal t ∨ t.isTop ∨ Rule w p s t := by
  unfold isSubtype
  split
  · rename_i settled
    rw [Bool.or_eq_true] at settled
    rcases settled with h | h <;> simp [h]
  · rename_i unsettled
    simp only [Bool.or_eq_true] at unsettled
    rw [← or_assoc, or_iff_right unsettled]
    cases s with
    | union ss => rw [run_allM, rule_union_iff]; simp
    | optional s => rw [run_andThen, rule_optional_iff, Bool.and_eq_true]
    | options key vs => rw [run_allM, rule_options_iff]; simp
    | both l r => rw [run_orElse, rule_both_iff, Bool.or_eq_true]
    -- a whole candidate: the target is taken apart next
    | _ => exact isSubtypeOfParts_iff w p rfl

/-! ## Equality and the rules -/

variable {w p}

theorem isSubtype_of_equal {s t : TypeSpec} (h : s.equal t) : (isSubtype w p s t).run :=
  (isSubtype_iff w p).2 (.inl h)

theorem isSubtype_of_rule {s t : TypeSpec} (h : Rule w p s t) : (isSubtype w p s t).run :=
  (isSubtype_iff w p).2 (.inr (.inr h))

theorem isSubtype_of_isTop {s t : TypeSpec} (h : t.isTop) : (isSubtype w p s t).run :=
  (isSubtype_iff w p).2 (.inr (.inl h))

theorem satisfies_of_isTop {t : TypeSpec} (h : t.isTop) (v : Value) : (satisfies w p v t).run := by
  cases t with
  | any => simp
  | plain c => simp [beq_iff_eq.1 h]
  | _ => cases h

/-- Among classes a spec is below those of its superclasses. -/
theorem plain_isSubtype_plain_iff {c d : Class} :
    (isSubtype w p (.plain c) (.plain d)).run ↔ c.isSubclassOf d := by
  constructor
  · intro h
    rcases (isSubtype_iff w p).1 h with same | top | rule
    · cases TypeSpec.equal_iff.1 same with
      | plain => exact c.isSubclassOf_refl
    · obtain rfl : d = .object := beq_iff_eq.1 top
      exact c.isSubclassOf_object
    · cases rule with
      | plain h => exact h
  · intro h
    exact isSubtype_of_rule (.plain h)

theorem annotationConforms_of_equal {s t : Option TypeSpec}
    (h : Option.Rel (fun s t => s.equal t) s t) : (annotationConforms w p s t).run := by
  rw [annotationConforms_eq_pure_of_equal w p h]
  rfl

/-- A signature meets itself and those equal to it, unless it is variadic. -/
theorem signatureConforms_of_equal {s t : Signature} (h : s = t ∨ s.equal t)
    (fixed : s.isVariadic = false) : (signatureConforms w p s t).run := by
  rw [signatureConforms_eq_pure_of_equal w p h fixed]
  rfl

/-- Equal specs for which there is no rule: they are below each other by equality alone. -/
inductive Alone : TypeSpec → TypeSpec → Prop where
  | predicate (q : Predicate) : Alone (.predicate q) (.predicate q)
  | both {a b c d : TypeSpec} (l : a.equal c) (r : b.equal d) : Alone (.both a b) (.both c d)
  | union {as bs : List TypeSpec} (h : Partnered (fun a b => b.equal a) as bs) :
      Alone (.union as) (.union bs)
  | optional {s t : TypeSpec} (h : s.equal t) : Alone (.optional s) (.optional t)
  | interface {i j : Interface} (h : i.equal j) : Alone (.interface i) (.interface j)
  | options {a b : Nat} {vs ws : List Value}
      (h : a = b ∧ vs = ws ∨ Partnered (fun v w => w.equal v) vs ws) :
      Alone (.options a vs) (.options b ws)

theorem Alone.equal {s t : TypeSpec} (h : Alone s t) : s.equal t := by
  refine TypeSpec.equal_iff.2 ?_
  cases h with
  | predicate q => exact .predicate q
  | both l r => exact .both l r
  | union h => exact .union h
  | optional h => exact .optional h
  | interface h => exact .interface h
  | options h => exact .options h

/-- A candidate that is taken apart is below a spec that accepts everything because its parts are. -/
theorem rule_of_isTop {s t : TypeSpec} (parts : s.isWhole = false) (top : t.isTop) : Rule w p s t := by
  cases s with
  | union ss => exact .union fun _ _ => isSubtype_of_isTop top
  | optional s => exact .optional (isSubtype_of_isTop top) (isSubtype_of_isTop top)
  | options key vs => exact .options fun v _ => satisfies_of_isTop top v
  | both l r => exact .left (isSubtype_of_isTop top)
  | _ => cases parts

/-- Equality of specs of one shape is a case of the rule for this shape. -/
theorem isSubtype_cases {s t : TypeSpec} (normal : s.Normal) (h : (isSubtype w p s t).run) :
    t.isTop ∨ Rule w p s t ∨ Alone s t := by
  rcases (isSubtype_iff w p).1 h with equal | top | rule
  · cases TypeSpec.equal_iff.1 equal with
    | any => exact .inl rfl
    | plain c => exact .inr (.inl (.plain c.isSubclassOf_refl))
    | only c => exact .inr (.inl (.only c))
    | callable same =>
      refine .inr (.inl (.callable (signatureConforms_of_equal ?_ normal.self)))
      exact same.imp And.right id
    | list same => exact .inr (.inl (.list (isSubtype_of_equal same)))
    | set same => exact .inr (.inl (.set (isSubtype_of_equal same)))
    | tuple same => exact .inr (.inl (.tuple (same.imp fun _ _ => isSubtype_of_equal)))
    | mapping hk hv =>
      exact .inr (.inl (.mapping (isSubtype_of_equal hk) (isSubtype_of_equal hv)))
    | predicate q => exact .inr (.inr (.predicate q))
    | both l r => exact .inr (.inr (.both l r))
    | union same => exact .inr (.inr (.union same))
    | optional same => exact .inr (.inr (.optional same))
    | interface same => exact .inr (.inr (.interface same))
    | options same => exact .inr (.inr (.options same))
  · exact .inl top
  · exact .inr (.inl rule)

end Conformance

end TypeContracts
