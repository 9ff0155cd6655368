import TypeContracts.Spec.Identity
import TypeContracts.Spec.Literal
import TypeContracts.Spec.Signature
import TypeContracts.Table

/-!
Interfaces: which members one has, its own and inherited, and how one is built. A member declared again
overrides the inherited one and keeps its place. `Interface.allMembers` lists what
`Interface.member?` finds; building reports the first faulty declaration.
-/

namespace TypeContracts

namespace Interface

/-- The chain of bases, from the interface itself up to the one without a base. -/
def chain : Interface → List Interface
  | i@⟨_, _, none, _⟩ => [i]
  | i@⟨_, _, some base, _⟩ => i :: base.chain

/-- The member of a name, declared on the interface or on the nearest base that declares it. -/
def member? (i : Interface) (name : String) : Option Member :=
  i.chain.findSome? fun j => j.members.lookup name

/-- The members `more` on top of `members`. -/
def putMembers (members more : List (String × Member)) : List (String × Member) :=
  more.foldl (fun ms m => Table.put m.1 m.2 ms) members

/-- All members: inherited ones first, each overridden member in the place of the inherited one. -/
def allMembers (i : Interface) : List (String × Member) :=
  i.chain.foldr (fun j members => putMembers members j.members) []

/-- Whether an interface is another one or has it among its bases. -/
def derivesFrom (i j : Interface) : Bool := i.chain.any (· == j)

/-! ## Where members come from, and their sizes -/

theorem mem_putMembers {more members : List (String × Member)} {m : String × Member}
    (h : m ∈ putMembers members more) : m ∈ more ∨ m ∈ members := by
  induction more generalizing members with
  | nil => exact .inr h
  | cons n rest ih =>
    rcases ih h with h | h
    · exact .inl (List.mem_cons_of_mem _ h)
    · rcases Table.mem_put h with rfl | h
      · exact .inl List.mem_cons_self
      · exact .inr h

/-- Every member is declared by some interface of the chain. -/
theorem exists_declared {i : Interface} {m : String × Member} (h : m ∈ i.allMembers) :
    ∃ j ∈ i.chain, m ∈ j.members := by
  rw [allMembers] at h
  generalize i.chain = chain at h ⊢
  induction chain with
  | nil => cases h
  | cons k rest ih =>
    rcases mem_putMembers h with h | h
    · exact ⟨k, List.mem_cons_self, h⟩
    · obtain ⟨j, hj, declared⟩ := ih h
      exact ⟨j, List.mem_cons_of_mem _ hj, declared⟩

theorem size_le_of_mem_chain : ∀ {i j : Interface}, j ∈ i.chain → j.size ≤ i.size
  | ⟨_, _, none, _⟩, j, h => by
      rw [chain, List.mem_singleton] at h
      exact h ▸ Nat.le_refl _
  | ⟨_, _, some base, _⟩, j, h => by
      rw [chain] at h
      rcases List.mem_cons.1 h with rfl | h
      · exact Nat.le_refl _
      · have := size_le_of_mem_chain h
        simp only [Interface.size, Interface.sizeOption]
        omega

/-- Every member, inherited ones included, is smaller than the interface. -/
theorem size_lt_of_mem {i : Interface} {m : String × Member} (h : m ∈ i.allMembers) :
    m.2.size < i.size := by
  obtain ⟨j, hj, declared⟩ := exists_declared h
  have h₁ := Member.size_le_of_mem declared
  have h₂ := size_le_of_mem_chain hj
  obtain ⟨_, _, _, members⟩ := j
  simp only [Interface.size] at h₂
  simp only at h₁
  omega

/-! ## Building -/

/-- A step in the declaration of an interface. -/
inductive Declaration where
  /-- Sets the base; the last one counts. -/
  | base (i : Interface)
  | attribute (name : String) (literal : SpecLiteral)
  | method (name : String) (signature : Signature)

/-- An interface under declaration, with the first fault met so far. -/
structure Draft where
  base : Option Interface
  members : List (String × Member)
  fault : Option InvalidSpec

namespace Draft

def empty : Draft := ⟨none, [], none⟩

/-- Records a fault unless an earlier one is recorded already. -/
def fail (d : Draft) (invalid : InvalidSpec) : Draft :=
  { d with fault := d.fault <|> some invalid }

/-- Adds a member under a name that is still free. -/
def add (d : Draft) (name : String) (member : Member) : Draft :=
  if d.members.any (·.1 == name) then d.fail (.duplicateMember name)
  else { d with members := d.members ++ [(name, member)] }

/-- Takes one declaration into account. A faulty one adds no member. -/
def declare (d : Draft) : Declaration → Draft
  | .base i => { d with base := some i }
  | .attribute name literal =>
      match literal.toSpec with
      | .ok spec => d.add name (.attribute spec)
      | .error invalid => d.fail invalid
  | .method name signature =>
      match signature.requireFixedArity with
      | .ok () => d.add name (.method signature)
      | .error invalid => d.fail invalid

end Draft

/-- The interface with the given declarations, or the fault of the first faulty one. -/
def build (key : Nat) (name : String) (declarations : List Declaration) :
    Except InvalidSpec Interface :=
  let draft := declarations.foldl Draft.declare .empty
  match draft.fault with
  | some invalid => .error invalid
  | none => .ok ⟨key, name, draft.base, draft.members⟩

end Interface

end TypeContracts
