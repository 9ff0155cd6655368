import TypeContracts.Spec.Basic

/-!
Sameness of specs: decidable equality of `TypeSpec`, `Signature`, `Interface` and their parts as data,
keys included. It is the shortcut in front of the structural comparison `TypeSpec.equal`.
Main statement: `TypeSpec.same_iff`.

Specs are built from named specs, interfaces and signatures, so they share parts.
`TypeSpec.sameShared` gives the answer of `TypeSpec.same` without entering what two specs have in
common.
-/

namespace TypeContracts

mutual

/-- Whether two specs are the same datum. Keys are compared first, since they differ most often. -/
def TypeSpec.same : TypeSpec → TypeSpec → Bool
  | .any, .any => true
  | .plain a, .plain b => a == b
  | .predicate a, .predicate b => a == b
  | .both a b, .both c d => a.same c && b.same d
  | .union as, .union bs => TypeSpec.sameAll as bs
  | .interface a, .interface b => a.same b
  | .callable a s, .callable b t => a == b && s.same t
  | .list a, .list b => a.same b
  | .set a, .set b => a.same b
  | .tuple as, .tuple bs => TypeSpec.sameAll as bs
  | .mapping a b, .mapping c d => a.same c && b.same d
  | .optional a, .optional b => a.same b
  | .only a, .only b => a == b
  | .options a vs, .options b ws => a == b && vs == ws
  | _, _ => false

def TypeSpec.sameAll : List TypeSpec → List TypeSpec → Bool
  | [], [] => true
  | a :: as, b :: bs => a.same b && TypeSpec.sameAll as bs
  | _, _ => false

def TypeSpec.sameOption : Option TypeSpec → Option TypeSpec → Bool
  | none, none => true
  | some a, some b => a.same b
  | _, _ => false

def Param.same : Param → Param → Bool
  | ⟨m, j, a, v⟩, ⟨n, k, b, w⟩ => m == n && j == k && TypeSpec.sameOption a b && v == w

def Param.sameAll : List Param → List Param → Bool
  | [], [] => true
  | p :: ps, q :: qs => p.same q && Param.sameAll ps qs
  | _, _ => false

def Signature.same : Signature → Signature → Bool
  | ⟨ps, a⟩, ⟨qs, b⟩ => Param.sameAll ps qs && TypeSpec.sameOption a b

def Interface.same : Interface → Interface → Bool
  | ⟨i, m, a, ms⟩, ⟨j, n, b, ns⟩ =>
      i == j && m == n && Interface.sameOption a b && Member.sameAll ms ns

def Interface.sameOption : Option Interface → Option Interface → Bool
  | none, none => true
  | some i, some j => i.same j
  | _, _ => false

def Member.same : Member → Member → Bool
  | .attribute a, .attribute b => a.same b
  | .method s, .method t => s.same t
  | _, _ => false

def Member.sameAll : List (String × Member) → List (String × Member) → Bool
  | [], [] => true
  | (m, a) :: ms, (n, b) :: ns => m == n && a.same b && Member.sameAll ms ns
  | _, _ => false

end

mutual

theorem TypeSpec.same_iff (s t : TypeSpec) : s.same t = true ↔ s = t := by
  cases s <;> cases t <;>
    simp only [TypeSpec.same, Bool.and_eq_true, beq_iff_eq, Bool.false_eq_true, reduceCtorEq,
      TypeSpec.plain.injEq, TypeSpec.predicate.injEq, TypeSpec.both.injEq, TypeSpec.union.injEq,
      TypeSpec.interface.injEq, TypeSpec.callable.injEq, TypeSpec.list.injEq, TypeSpec.set.injEq,
      TypeSpec.tuple.injEq, TypeSpec.mapping.injEq, TypeSpec.optional.injEq, TypeSpec.only.injEq,
      TypeSpec.options.injEq]
  case both.both a b c d => rw [TypeSpec.same_iff a c, TypeSpec.same_iff b d]
  case union.union => exact TypeSpec.sameAll_iff _ _
  case interface.interface => exact Interface.same_iff _ _
  case callable.callable k s l t => rw [Signature.same_iff s t]
  case list.list => exact TypeSpec.same_iff _ _
  case set.set => exact TypeSpec.same_iff _ _
  case tuple.tuple => exact TypeSpec.sameAll_iff _ _
  case mapping.mapping a b c d => rw [TypeSpec.same_iff a c, TypeSpec.same_iff b d]
  case optional.optional => exact TypeSpec.same_iff _ _

theorem TypeSpec.sameAll_iff : ∀ ss ts : List TypeSpec, TypeSpec.sameAll ss ts = true ↔ ss = ts
  | [], [] => by simp [TypeSpec.sameAll]
  | [], _ :: _ => by simp [TypeSpec.sameAll]
  | _ :: _, [] => by simp [TypeSpec.sameAll]
  | s :: ss, t :: ts => by simp [TypeSpec.sameAll, TypeSpec.same_iff s t, TypeSpec.sameAll_iff ss ts]

theorem TypeSpec.sameOption_iff :
    ∀ a b : Option TypeSpec, TypeSpec.sameOption a b = true ↔ a = b
  | none, none => by simp [TypeSpec.sameOption]
  | none, some _ => by simp [TypeSpec.sameOption]
  | some _, none => by simp [TypeSpec.sameOption]
  | some s, some t => by simp [TypeSpec.sameOption, TypeSpec.same_iff s t]

theorem Param.same_iff : ∀ p q : Param, p.same q = true ↔ p = q
  | ⟨m, j, a, v⟩, ⟨n, k, b, w⟩ => by
      simp [Param.same, TypeSpec.sameOption_iff a b, and_assoc]

theorem Param.sameAll_iff : ∀ ps qs : List Param, Param.sameAll ps qs = true ↔ ps = qs
  | [], [] => by simp [Param.sameAll]
  | [], _ :: _ => by simp [Param.sameAll]
  | _ :: _, [] => by simp [Param.sameAll]
  | p :: ps, q :: qs => by simp [Param.sameAll, Param.same_iff p q, Param.sameAll_iff ps qs]

theorem Signature.same_iff : ∀ s t : Signature, s.same t = true ↔ s = t
  | ⟨ps, a⟩, ⟨qs, b⟩ => by
      simp [Signature.same, Param.sameAll_iff ps qs, TypeSpec.sameOption_iff a b]

theorem Interface.same_iff : ∀ i j : Interface, i.same j = true ↔ i = j
  | ⟨i, m, a, ms⟩, ⟨j, n, b, ns⟩ => by
      simp [Interface.same, Interface.sameOption_iff a b, Member.sameAll_iff ms ns, and_assoc]

theorem Interface.sameOption_iff :
    ∀ a b : Option Interface, Interface.sameOption a b = true ↔ a = b
  | none, none => by simp [Interface.sameOption]
  | none, some _ => by simp [Interface.sameOption]
  | some _, none => by simp [Interface.sameOption]
  | some i, some j => by simp [Interface.sameOption, Interface.same_iff i j]

theorem Member.same_iff : ∀ m n : Member, m.same n = true ↔ m = n
  | .attribute a, .attribute b => by simp [Member.same, TypeSpec.same_iff a b]
  | .attribute _, .method _ => by simp [Member.same]
  | .method _, .attribute _ => by simp [Member.same]
  | .method s, .method t => by simp [Member.same, Signature.same_iff s t]

theorem Member.sameAll_iff :
    ∀ ms ns : List (String × Member), Member.sameAll ms ns = true ↔ ms = ns
  | [], [] => by simp [Member.sameAll]
  | [], _ :: _ => by simp [Member.sameAll]
  | _ :: _, [] => by simp [Member.sameAll]
  | (m, a) :: ms, (n, b) :: ns => by
      simp [Member.sameAll, Member.same_iff a b, Member.sameAll_iff ms ns]

end

mutual

/-- The answer of `TypeSpec.same`, without entering parts that both specs share. -/
def TypeSpec.sameShared (s t : TypeSpec) : { r : Bool // r = s.same t } :=
  unlessShared s t (TypeSpec.same_iff s t).2 fun _ =>
    match s, t with
    | .both a b, .both c d =>
        ⟨(a.sameShared c).1 && (b.sameShared d).1, by
          rw [(a.sameShared c).2, (b.sameShared d).2, TypeSpec.same]⟩
    | .union as, .union bs =>
        ⟨(TypeSpec.sameAllShared as bs).1, by rw [(TypeSpec.sameAllShared as bs).2, TypeSpec.same]⟩
    | .interface i, .interface j => ⟨(i.sameShared j).1, by rw [(i.sameShared j).2, TypeSpec.same]⟩
    | .callable a s, .callable b t =>
        ⟨a == b && (s.sameShared t).1, by rw [(s.sameShared t).2, TypeSpec.same]⟩
    | .list a, .list b => ⟨(a.sameShared b).1, by rw [(a.sameShared b).2, TypeSpec.same]⟩
    | .set a, .set b => ⟨(a.sameShared b).1, by rw [(a.sameShared b).2, TypeSpec.same]⟩
    | .tuple as, .tuple bs =>
        ⟨(TypeSpec.sameAllShared as bs).1, by rw [(TypeSpec.sameAllShared as bs).2, TypeSpec.same]⟩
    | .mapping a b, .mapping c d =>
        ⟨(a.sameShared c).1 && (b.sameShared d).1, by
          rw [(a.sameShared c).2, (b.sameShared d).2, TypeSpec.same]⟩
    | .optional a, .optional b => ⟨(a.sameShared b).1, by rw [(a.sameShared b).2, TypeSpec.same]⟩
    | s, t => ⟨s.same t, rfl⟩
termination_by sizeOf s
decreasing_by
  all_goals
    simp only [TypeSpec.both.sizeOf_spec, TypeSpec.union.sizeOf_spec,
      TypeSpec.interface.sizeOf_spec, TypeSpec.callable.sizeOf_spec, TypeSpec.list.sizeOf_spec,
      TypeSpec.set.sizeOf_spec, TypeSpec.tuple.sizeOf_spec, TypeSpec.mapping.sizeOf_spec,
      TypeSpec.optional.sizeOf_spec]
    omega

def TypeSpec.sameAllShared : (ss ts : List TypeSpec) → { r : Bool // r = TypeSpec.sameAll ss ts }
  | s :: ss, t :: ts =>
      ⟨(s.sameShared t).1 && (TypeSpec.sameAllShared ss ts).1, by
        rw [(s.sameShared t).2, (TypeSpec.sameAllShared ss ts).2, TypeSpec.sameAll]⟩
  | ss, ts => ⟨TypeSpec.sameAll ss ts, rfl⟩
termination_by ss => sizeOf ss
decreasing_by
  all_goals
    simp only [List.cons.sizeOf_spec]
    omega

def TypeSpec.sameOptionShared :
    (a b : Option TypeSpec) → { r : Bool // r = TypeSpec.sameOption a b }
  | some s, some t => ⟨(s.sameShared t).1, by rw [(s.sameShared t).2, TypeSpec.sameOption]⟩
  | a, b => ⟨TypeSpec.sameOption a b, rfl⟩
termination_by a => sizeOf a
decreasing_by
  all_goals
    simp only [Option.some.sizeOf_spec]
    omega

def Param.sameShared : (p q : Param) → { r : Bool // r = p.same q }
  | ⟨m, j, a, v⟩, ⟨n, k, b, w⟩ =>
      ⟨m == n && j == k && (TypeSpec.sameOptionShared a b).1 && v == w, by
        rw [(TypeSpec.sameOptionShared a b).2, Param.same]⟩
termination_by p => sizeOf p
decreasing_by
  all_goals
    simp only [Param.mk.sizeOf_spec]
    omega

def Param.sameAllShared : (ps qs : List Param) → { r : Bool // r = Param.sameAll ps qs }
  | p :: ps, q :: qs =>
      ⟨(p.sameShared q).1 && (Param.sameAllShared ps qs).1, by
        rw [(p.sameShared q).2, (Param.sameAllShared ps qs).2, Param.sameAll]⟩
  | ps, qs => ⟨Param.sameAll ps qs, rfl⟩
termination_by ps => sizeOf ps
decreasing_by
  all_goals
    simp only [List.cons.sizeOf_spec]
    omega

/-- The answer of `Signature.same`, without entering parts that both signatures share. -/
def Signature.sameShared (s t : Signature) : { r : Bool // r = s.same t } :=
  unlessShared s t (Signature.same_iff s t).2 fun _ =>
    match s, t with
    | ⟨ps, a⟩, ⟨qs, b⟩ =>
        ⟨(Param.sameAllShared ps qs).1 && (TypeSpec.sameOptionShared a b).1, by
          rw [(Param.sameAllShared ps qs).2, (TypeSpec.sameOptionShared a b).2, Signature.same]⟩
termination_by sizeOf s
decreasing_by
  all_goals
    simp only [Signature.mk.sizeOf_spec]
    omega

/-- The answer of `Interface.same`, without entering parts that both interfaces share. -/
def Interface.sameShared (i j : Interface) : { r : Bool // r = i.same j } :=
  unlessShared i j (Interface.same_iff i j).2 fun _ =>
    match i, j with
    | ⟨i, m, a, ms⟩, ⟨j, n, b, ns⟩ =>
        ⟨i == j && m == n && (Interface.sameOptionShared a b).1
            && (Member.sameAllShared ms ns).1, by
          rw [(Interface.sameOptionShared a b).2, (Member.sameAllShared ms ns).2, Interface.same]⟩
termination_by sizeOf i
decreasing_by
  all_goals
    simp only [Interface.mk.sizeOf_spec]
    omega

def Interface.sameOptionShared :
    (a b : Option Interface) → { r : Bool // r = Interface.sameOption a b }
  | some i, some j => ⟨(i.sameShared j).1, by rw [(i.sameShared j).2, Interface.sameOption]⟩
  | a, b => ⟨Interface.sameOption a b, rfl⟩
termination_by a => sizeOf a
decreasing_by
  all_goals
    simp only [Option.some.sizeOf_spec]
    omega

def Member.sameShared : (m n : Member) → { r : Bool // r = m.same n }
  | .attribute a, .attribute b => ⟨(a.sameShared b).1, by rw [(a.sameShared b).2, Member.same]⟩
  | .method s, .method t => ⟨(s.sameShared t).1, by rw [(s.sameShared t).2, Member.same]⟩
  | m, n => ⟨m.same n, rfl⟩
termination_by m => sizeOf m
decreasing_by
  all_goals
    simp only [Member.attribute.sizeOf_spec, Member.method.sizeOf_spec]
    omega

def Member.sameAllShared :
    (ms ns : List (String × Member)) → { r : Bool // r = Member.sameAll ms ns }
  | (m, a) :: ms, (n, b) :: ns =>
      ⟨m == n && (a.sameShared b).1 && (Member.sameAllShared ms ns).1, by
        rw [(a.sameShared b).2, (Member.sameAllShared ms ns).2, Member.sameAll]⟩
  | ms, ns => ⟨Member.sameAll ms ns, rfl⟩
termination_by ms => sizeOf ms
decreasing_by
  all_goals
    simp only [List.cons.sizeOf_spec, Prod.mk.sizeOf_spec]
    omega

end

instance : DecidableEq TypeSpec := fun s t =>
  decidable_of_iff ((s.sameShared t).1 = true) (by rw [(s.sameShared t).2, TypeSpec.same_iff])

instance : DecidableEq Param := fun p q =>
  decidable_of_iff ((p.sameShared q).1 = true) (by rw [(p.sameShared q).2, Param.same_iff])

instance : DecidableEq Signature := fun s t =>
  decidable_of_iff ((s.sameShared t).1 = true) (by rw [(s.sameShared t).2, Signature.same_iff])

instance : DecidableEq Interface := fun i j =>
  decidable_of_iff ((i.sameShared j).1 = true) (by rw [(i.sameShared j).2, Interface.same_iff])

instance : DecidableEq Member := fun m n =>
  decidable_of_iff ((m.sameShared n).1 = true) (by rw [(m.sameShared n).2, Member.same_iff])

end TypeContracts
