import TypeContracts.Proofs.Spec.Interface

/-!
The members of an interface that is declared, on a base that is declared itself. A name is declared once
on each interface of the chain. So the lookup, which goes from the interface to its bases and stops at
the first hit, and the list of all members, which goes from the last base to the interface and writes
over what it has, come to the same members; and a name comes where the chain declares it first.
Main statement: `Interface.Declarable.members_agree`.
-/

namespace TypeContracts.Interface

variable {i j b : Interface} {name : String}

/-- The interfaces that can be declared, on bases that can be declared as well. -/
inductive Declarable : Interface → Prop where
  | build {key : Nat} {name : String} {declarations : List Declaration} {i : Interface}
      (bases : ∀ b, .base b ∈ declarations → Declarable b)
      (made : build key name declarations = .ok i) : Declarable i

/-! ## Declarations -/

/-- A draft has a base that can be declared, if any, and a name once. -/
structure Draft.Fit (d : Draft) : Prop where
  base : ∀ b ∈ d.base, b.Declarable
  names : (d.members.map (·.1)).Nodup

namespace Draft

variable {d : Draft}

theorem Fit.add (h : d.Fit) (name : String) (m : Member) : (d.add name m).Fit := by
  refine ⟨?_, nodup_add h.names name m⟩
  rw [Draft.add]
  split <;> exact h.base

theorem Fit.declare (h : d.Fit) {declaration : Declaration}
    (base : ∀ b, declaration = .base b → b.Declarable) : (d.declare declaration).Fit := by
  match declaration, base with
  | .base b, base => exact ⟨fun _ hb => base _ (congrArg _ (Option.mem_some_iff.1 hb)), h.names⟩
  | .attribute name literal, _ =>
    rw [Draft.declare]
    split
    · exact h.add ..
    · exact ⟨h.base, h.names⟩
  | .method name signature, _ =>
    rw [Draft.declare]
    split
    · exact h.add ..
    · exact ⟨h.base, h.names⟩

theorem fit_foldl {declarations : List Declaration} (h : d.Fit)
    (bases : ∀ b, .base b ∈ declarations → b.Declarable) : (declarations.foldl declare d).Fit := by
  induction declarations generalizing d with
  | nil => exact h
  | cons declaration rest ih =>
    refine ih (h.declare fun b first => bases b ?_) fun b hb => bases b (List.mem_cons_of_mem _ hb)
    exact first ▸ List.mem_cons_self

end Draft

namespace Declarable

/-- An interface that can be declared is what a fit draft holds. -/
theorem exists_draft (h : i.Declarable) :
    ∃ d : Draft, d.Fit ∧ d.base = i.base ∧ d.members = i.members := by
  cases h with
  | build bases made =>
    refine ⟨_, Draft.fit_foldl (d := .empty) ⟨nofun, List.nodup_nil⟩ bases, ?_⟩
    rw [Interface.build] at made
    split at made <;> cases made
    exact ⟨rfl, rfl⟩

theorem names (h : i.Declarable) : (i.members.map (·.1)).Nodup := by
  obtain ⟨d, fit, -, members⟩ := h.exists_draft
  exact members ▸ fit.names

theorem base (h : i.Declarable) (hb : i.base = some b) : b.Declarable := by
  obtain ⟨d, fit, base, -⟩ := h.exists_draft
  exact fit.base b (base.trans hb)

theorem names_chain (h : i.Declarable) (hj : j ∈ i.chain) : (j.members.map (·.1)).Nodup :=
  (of_mem_chain base h hj).names

end Declarable

/-! ## Lookup -/

/-- The member of a name is the one that the nearest interface of the chain declares under it. -/
theorem member?_eq_some_iff (h : ∀ k ∈ i.chain, (k.members.map (·.1)).Nodup) {m : Member} :
    i.member? name = some m ↔ ∃ nearer j farther, i.chain = nearer ++ j :: farther ∧
      (∀ k ∈ nearer, name ∉ k.members.map (·.1)) ∧ (name, m) ∈ j.members := by
  simp only [member?, List.findSome?_eq_some_iff, Table.lookup_eq_none_iff]
  constructor
  · rintro ⟨nearer, j, farther, split, found, undeclared⟩
    have names := h j (split ▸ List.mem_append_right _ List.mem_cons_self)
    exact ⟨nearer, j, farther, split, undeclared, (Table.mem_iff_lookup names).2 found⟩
  · rintro ⟨nearer, j, farther, split, undeclared, declared⟩
    have names := h j (split ▸ List.mem_append_right _ List.mem_cons_self)
    exact ⟨nearer, j, farther, split, (Table.mem_iff_lookup names).1 declared, undeclared⟩

/-! ## Order -/

/-- Members written to a table of members add their names where these are new. -/
theorem keys_putMembers {more members : List (String × Member)} {names : List String}
    (h : members.map (·.1) = names.eraseDups) :
    (putMembers members more).map (·.1) = (names ++ more.map (·.1)).eraseDups := by
  induction more generalizing members names with
  | nil => rw [List.map_nil, List.append_nil, ← h]; rfl
  | cons m rest ih =>
    have written : (Table.put m.1 m.2 members).map (·.1) = (names ++ [m.1]).eraseDups := by
      rw [Table.keys_put, h, List.eraseDups_append]
      by_cases old : m.1 ∈ names <;> simp [List.removeAll, List.eraseDups_cons, old]
    rw [List.map_cons, List.append_cons]
    exact ih written

/-- The names of all members come in the order in which the chain declares them first, read from the last
base down to the interface. -/
theorem keys_allMembers (i : Interface) :
    i.allMembers.map (·.1) = (i.chain.reverse.flatMap fun j => j.members.map (·.1)).eraseDups := by
  rw [allMembers]
  induction i.chain with
  | nil => rfl
  | cons j rest ih =>
    rw [List.foldr_cons, keys_putMembers ih, List.reverse_cons, List.flatMap_append,
      List.flatMap_singleton]

/-- For an interface that can be declared, on whatever chain of bases, the list of all members has each
name once, has the members that the lookup finds, and has the names in the order in which they are
declared first, the last base coming first. The lookup finds what the nearest interface of the chain
declares. -/
theorem Declarable.members_agree (h : i.Declarable) :
    (i.allMembers.map (·.1)).Nodup ∧
      (∀ name m, (name, m) ∈ i.allMembers ↔ i.member? name = some m) ∧
      (∀ name m, i.member? name = some m ↔ ∃ nearer j farther, i.chain = nearer ++ j :: farther ∧
        (∀ k ∈ nearer, name ∉ k.members.map (·.1)) ∧ (name, m) ∈ j.members) ∧
      i.allMembers.map (·.1) =
        (i.chain.reverse.flatMap fun j => j.members.map (·.1)).eraseDups := by
  have names : ∀ k ∈ i.chain, (k.members.map (·.1)).Nodup := fun _ hk => h.names_chain hk
  refine ⟨i.nodup_allMembers, ?_, ?_, i.keys_allMembers⟩
  · intro name m
    exact mem_allMembers_iff names
  · intro name m
    exact member?_eq_some_iff names

/-- An interface that declares a new name and an inherited one: the inherited name stays first, and its
member is the new one. -/
theorem aged_members_agree :
    let named : Interface := ⟨0, "Named", none, [("name", .attribute (.plain .str))]⟩
    let aged : Interface := ⟨1, "Aged", some named,
      [("age", .attribute (.plain .int)), ("name", .attribute (.plain .object))]⟩
    aged.Declarable ∧ aged.allMembers.map (·.1) = ["name", "age"] ∧
      ("name", .attribute (.plain .object)) ∈ aged.allMembers := by
  intro named aged
  have named_made : build 0 "Named" [.attribute "name" (.spec (.plain .str))] = .ok named := rfl
  have aged_made : build 1 "Aged" [.base named, .attribute "age" (.spec (.plain .int)),
      .attribute "name" (.spec (.plain .object))] = .ok aged := rfl
  have base : named.Declarable := .build (fun b hb => by simp at hb) named_made
  have declarable : aged.Declarable := by
    refine .build (fun b hb => ?_) aged_made
    simp only [List.mem_cons, Declaration.base.injEq, reduceCtorEq, List.not_mem_nil, or_false] at hb
    exact hb ▸ base
  obtain ⟨-, found, nearest, order⟩ := declarable.members_agree
  refine ⟨declarable, order.trans ?_, (found _ _).2 ((nearest _ _).2 ?_)⟩
  · decide
  · exact ⟨[], aged, [named], rfl, nofun, List.mem_cons_of_mem _ List.mem_cons_self⟩

end TypeContracts.Interface
