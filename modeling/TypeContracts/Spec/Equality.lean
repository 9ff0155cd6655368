import TypeContracts.Spec.Identity
import TypeContracts.Value.Equality

/-!
Equality of specs. Specs are compared by shape, unions and option sets without regard to order,
classes and predicates by identity. A callable spec, an interface or an option set is also equal to
itself when it holds a value that equals nothing, such as a float that is no number.
-/

namespace TypeContracts

/-- Equality of optional values, as for the defaults of two parameters. -/
def Value.equalOption : Option Value → Option Value → Bool
  | none, none => true
  | some v, some w => v.equal w
  | _, _ => false

mutual

/-- Whether `s` equals `t`. Two unions are equal when they have equally many members and each member of
the first has an equal in the second, and likewise for option sets. -/
def TypeSpec.equal : TypeSpec → TypeSpec → Bool
  | .any, .any => true
  | .plain a, .plain b => a == b
  | .predicate a, .predicate b => a == b
  | .both a b, .both c d => a.equal c && b.equal d
  | .union as, .union bs =>
      as.length == bs.length && as.attach.all fun a => bs.attach.any fun b => b.1.equal a.1
  | .interface a, .interface b => a.equal b
  | .callable a s, .callable b t => (a == b && s == t) || s.equal t
  | .list a, .list b => a.equal b
  | .set a, .set b => a.equal b
  | .tuple as, .tuple bs => TypeSpec.equalAll as bs
  | .mapping a b, .mapping c d => a.equal c && b.equal d
  | .optional a, .optional b => a.equal b
  | .only a, .only b => a == b
  | .options a vs, .options b ws =>
      (a == b && vs == ws) || (vs.length == ws.length && vs.all fun v => v.isIn ws)
  | _, _ => false
termination_by s t => sizeOf s + sizeOf t
decreasing_by
  all_goals first
    | (simp; omega)
    | (have ha := List.sizeOf_lt_of_mem a.2
       have hb := List.sizeOf_lt_of_mem b.2
       simp; omega)

/-- Equality position by position. -/
def TypeSpec.equalAll : List TypeSpec → List TypeSpec → Bool
  | [], [] => true
  | a :: as, b :: bs => a.equal b && TypeSpec.equalAll as bs
  | _, _ => false
termination_by as bs => sizeOf as + sizeOf bs

def TypeSpec.equalOption : Option TypeSpec → Option TypeSpec → Bool
  | none, none => true
  | some a, some b => a.equal b
  | _, _ => false
termination_by a b => sizeOf a + sizeOf b

/-- Whether two parameters agree in name and kind and have equal annotations and defaults. -/
def Param.equal : Param → Param → Bool
  | ⟨m, j, a, v⟩, ⟨n, k, b, w⟩ =>
      m == n && j == k && TypeSpec.equalOption a b && Value.equalOption v w
termination_by p q => sizeOf p + sizeOf q

def Param.equalAll : List Param → List Param → Bool
  | [], [] => true
  | p :: ps, q :: qs => p.equal q && Param.equalAll ps qs
  | _, _ => false
termination_by ps qs => sizeOf ps + sizeOf qs

def Signature.equal : Signature → Signature → Bool
  | ⟨ps, a⟩, ⟨qs, b⟩ => Param.equalAll ps qs && TypeSpec.equalOption a b
termination_by s t => sizeOf s + sizeOf t

/-- Whether two interfaces are the same one, or agree in name, base and declared members. -/
def Interface.equal (i j : Interface) : Bool :=
  i == j || match i, j with
    | ⟨_, m, a, ms⟩, ⟨_, n, b, ns⟩ =>
        m == n && Interface.equalOption a b && Member.equalAll ms ns
termination_by sizeOf i + sizeOf j

def Interface.equalOption : Option Interface → Option Interface → Bool
  | none, none => true
  | some i, some j => i.equal j
  | _, _ => false
termination_by a b => sizeOf a + sizeOf b

def Member.equal : Member → Member → Bool
  | .attribute a, .attribute b => a.equal b
  | .method s, .method t => s.equal t
  | _, _ => false
termination_by m n => sizeOf m + sizeOf n

def Member.equalAll : List (String × Member) → List (String × Member) → Bool
  | [], [] => true
  | (m, a) :: ms, (n, b) :: ns => m == n && a.equal b && Member.equalAll ms ns
  | _, _ => false
termination_by ms ns => sizeOf ms + sizeOf ns

end

/-- Whether some spec of the list equals `s`. The listed spec stands on the left. -/
def TypeSpec.isIn (s : TypeSpec) (specs : List TypeSpec) : Bool := specs.any fun t => t.equal s

theorem TypeSpec.equal_union (as bs : List TypeSpec) :
    (TypeSpec.union as).equal (.union bs) =
      (as.length == bs.length && as.all fun a => a.isIn bs) := by
  simp [TypeSpec.equal, TypeSpec.isIn]

end TypeContracts
