import TypeContracts.Proofs.Spec.Built
import TypeContracts.Proofs.Table

/-!
What an interface asks for. The list of all members and the lookup of one agree, equal interfaces ask
for equal members in the same order, and without redeclarations an interface asks for everything that
those it derives from ask for. Main statements: `Interface.mem_allMembers_iff`,
`Interface.sameMembers_allMembers`, `Interface.member?_of_mem_chain`,
`Interface.member?_or_redeclares`.
-/

namespace TypeContracts

/-- An interface declares no member that it inherits. -/
def Part.NoRedeclaration : Part → Prop
  | .interface i => ∀ b ∈ i.base, ∀ m ∈ i.members, b.member? m.1 = none
  | _ => True

/-- Members that are the same or equal. A method with a default value that is no number does not equal
itself. -/
def Member.Same (m n : Member) : Prop := m = n ∨ m.equal n

/-- The same or equal members under the same names, in the same order. -/
def Interface.SameMembers : List (String × Member) → List (String × Member) → Prop :=
  List.Forall₂ fun m n => m.1 = n.1 ∧ m.2.Same n.2

/-- What a member consists of. -/
def Member.part : Member → Part
  | .attribute s => .spec s
  | .method s => .signature s

/-- What is the same as a method is a method with the same or an equal signature. -/
theorem Member.Same.exists_method {m : Member} {t : Signature} (h : m.Same (.method t)) :
    ∃ s, m = .method s ∧ (s = t ∨ s.equal t) := by
  rcases h with rfl | h
  · exact ⟨t, rfl, .inl rfl⟩
  · cases Member.equal_iff.1 h with
    | signatures same => exact ⟨_, rfl, .inr same⟩

namespace Interface

variable {i j : Interface} {name : String}

theorem chain_of_none (h : i.base = none) : i.chain = [i] := by
  obtain ⟨_, _, _, _⟩ := i
  cases h
  rfl

theorem chain_of_some {b : Interface} (h : i.base = some b) : i.chain = i :: b.chain := by
  obtain ⟨_, _, _, _⟩ := i
  cases h
  rfl

/-- What passes from an interface to its base holds on the whole chain. -/
theorem of_mem_chain {P : Interface → Prop} (passes : ∀ {i b}, P i → i.base = some b → P b)
    {i : Interface} (h : P i) (hj : j ∈ i.chain) : P j := by
  rcases hb : i.base with _ | b
  · rw [chain_of_none hb, List.mem_singleton] at hj
    exact hj ▸ h
  · rw [chain_of_some hb, List.mem_cons] at hj
    rcases hj with rfl | hj
    · exact h
    · have := sizeOf_base_lt hb
      exact of_mem_chain passes (passes h hb) hj
termination_by sizeOf i

/-- An own member comes before an inherited one. -/
theorem member?_of_some {b : Interface} (h : i.base = some b) :
    i.member? name = (i.members.lookup name).or (b.member? name) := by
  rw [member?, chain_of_some h, List.findSome?_cons, member?]
  cases i.members.lookup name <;> rfl

/-! ## Parts -/

section parts

variable {P : Part → Prop}

theorem everywhere_chain (h : Part.Everywhere P (.interface i)) (hj : j ∈ i.chain) :
    Part.Everywhere P (.interface j) :=
  of_mem_chain (P := fun i => Part.Everywhere P (.interface i)) (fun h hb => h.step (.base hb)) h hj

theorem everywhere_members (h : Part.Everywhere P (.interface i)) {m : String × Member}
    (hm : m ∈ i.members) : Part.Everywhere P m.2.part := by
  match m, hm with
  | (_, .attribute _), hm => exact h.step (.attributeSpec hm)
  | (_, .method _), hm => exact h.step (.methodSignature hm)

theorem everywhere_allMembers (h : Part.Everywhere P (.interface i)) {m : String × Member}
    (hm : m ∈ i.allMembers) : Part.Everywhere P m.2.part := by
  obtain ⟨k, hk, declared⟩ := exists_declared hm
  exact everywhere_members (everywhere_chain h hk) declared

theorem everywhere_member? (h : Part.Everywhere P (.interface i)) {m : Member}
    (hm : i.member? name = some m) : Part.Everywhere P m.part := by
  obtain ⟨k, hk, found⟩ := List.exists_of_findSome?_eq_some hm
  obtain ⟨before, after, split, -⟩ := List.lookup_eq_some_iff.1 found
  have mem : (name, m) ∈ k.members := by rw [split]; simp
  exact everywhere_members (everywhere_chain h hk) mem

/-- No method that a normal interface asks for is variadic. -/
theorem isVariadic_of_mem_allMembers (h : Part.Everywhere Part.Normal (.interface i)) {s : Signature}
    (hs : (name, .method s) ∈ i.allMembers) : s.isVariadic = false := by
  obtain ⟨k, hk, declared⟩ := exists_declared hs
  exact (everywhere_chain h hk).self.2 name s declared

end parts

/-! ## Lookup -/

theorem lookup_putMembers {more members : List (String × Member)} (h : (more.map (·.1)).Nodup) :
    (putMembers members more).lookup name = (more.lookup name).or (members.lookup name) := by
  induction more generalizing members with
  | nil => rfl
  | cons m rest ih =>
    obtain ⟨fresh, rest_nodup⟩ := List.nodup_cons.1 h
    have step : putMembers members (m :: rest) = putMembers (Table.put m.1 m.2 members) rest := rfl
    rw [step, ih rest_nodup, Table.lookup_put, List.lookup_cons]
    by_cases same : name = m.1
    · simp [same, Table.lookup_eq_none_iff.2 fresh]
    · have other : (name == m.1) = false := beq_eq_false_iff_ne.2 same
      simp [other]

theorem nodup_putMembers {more members : List (String × Member)} (h : (members.map (·.1)).Nodup) :
    ((putMembers members more).map (·.1)).Nodup := by
  induction more generalizing members with
  | nil => exact h
  | cons m rest ih => exact ih (Table.nodup_put h)

/-- All members have different names. -/
theorem nodup_allMembers (i : Interface) : (i.allMembers.map (·.1)).Nodup := by
  rw [allMembers]
  induction i.chain with
  | nil => exact List.nodup_nil
  | cons k rest ih => exact nodup_putMembers ih

/-- The list of all members agrees with the lookup of one. -/
theorem mem_allMembers_iff (h : ∀ k ∈ i.chain, (k.members.map (·.1)).Nodup) {m : Member} :
    (name, m) ∈ i.allMembers ↔ i.member? name = some m := by
  -- a name is written last by the nearest interface of the chain that declares it
  have lookup : ∀ chain : List Interface, (∀ k ∈ chain, (k.members.map (·.1)).Nodup) →
      (chain.foldr (fun j members => putMembers members j.members) []).lookup name =
        chain.findSome? fun j => j.members.lookup name := by
    intro chain h
    induction chain with
    | nil => rfl
    | cons k rest ih =>
      rw [List.foldr_cons, lookup_putMembers (h k List.mem_cons_self),
        ih fun l hl => h l (List.mem_cons_of_mem _ hl), List.findSome?_cons]
      cases k.members.lookup name <;> rfl
  rw [Table.mem_iff_lookup i.nodup_allMembers, allMembers, lookup _ h, member?]

/-- What an interface asks for, those derived from it ask for too, unless a member is redeclared on the
way. -/
theorem member?_of_mem_chain {i : Interface} (own : Part.Everywhere Part.NoRedeclaration (.interface i))
    (hj : j ∈ i.chain) {m : Member} (hm : j.member? name = some m) : i.member? name = some m := by
  rcases hb : i.base with _ | b
  · rw [chain_of_none hb, List.mem_singleton] at hj
    exact hj ▸ hm
  · rw [chain_of_some hb, List.mem_cons] at hj
    rcases hj with rfl | hj
    · exact hm
    · have := sizeOf_base_lt hb
      have inherited := member?_of_mem_chain (own.step (.base hb)) hj hm
      have undeclared : i.members.lookup name = none := by
        refine Table.lookup_eq_none_iff.2 fun declared => ?_
        obtain ⟨e, he, rfl⟩ := List.mem_map.1 declared
        simp [own.self b hb e he] at inherited
      rw [member?_of_some hb, undeclared, inherited]
      rfl
termination_by sizeOf i

/-! ## Redeclarations -/

/-- The member of the name is declared again on the way from the base `j` down to the interface. -/
def Redeclares (i j : Interface) (name : String) : Prop :=
  ∃ below, i.chain = below ++ j.chain ∧ ∃ k ∈ below, (k.members.lookup name).isSome

/-- The chain of a base is the end of the chain of the interface. -/
theorem exists_chain_eq_append {i : Interface} (hj : j ∈ i.chain) :
    ∃ below, i.chain = below ++ j.chain := by
  rcases hb : i.base with _ | b
  · rw [chain_of_none hb, List.mem_singleton] at hj
    exact ⟨[], hj ▸ rfl⟩
  · rw [chain_of_some hb, List.mem_cons] at hj
    rcases hj with rfl | hj
    · exact ⟨[], rfl⟩
    · have := sizeOf_base_lt hb
      obtain ⟨below, split⟩ := exists_chain_eq_append hj
      exact ⟨i :: below, by rw [chain_of_some hb, split, List.cons_append]⟩
termination_by sizeOf i

/-- What a base asks for, an interface asks for as well: the same, unless it is declared again. -/
theorem member?_or_redeclares (hj : j ∈ i.chain) {m : Member} (hm : j.member? name = some m) :
    ∃ given, i.member? name = some given ∧ (given = m ∨ i.Redeclares j name) := by
  obtain ⟨below, split⟩ := exists_chain_eq_append hj
  have nearest : i.member? name =
      (below.findSome? fun k => k.members.lookup name).or (j.member? name) := by
    rw [member?, split, List.findSome?_append, member?]
  rcases again : below.findSome? (fun k => k.members.lookup name) with _ | given
  · exact ⟨m, by rw [nearest, again, hm]; rfl, .inl rfl⟩
  · obtain ⟨k, hk, declared⟩ := List.exists_of_findSome?_eq_some again
    refine ⟨given, by rw [nearest, again]; rfl, .inr ⟨below, split, k, hk, ?_⟩⟩
    rw [declared]
    rfl

/-! ## Equal interfaces -/

theorem SameMembers.refl (ms : List (String × Member)) : SameMembers ms ms :=
  List.forall₂_same.2 fun _ _ => ⟨rfl, .inl rfl⟩

theorem SameMembers.exists_of_mem {ms ns : List (String × Member)} (h : SameMembers ms ns)
    {n : String × Member} (hn : n ∈ ns) : ∃ m ∈ ms, m.1 = n.1 ∧ m.2.Same n.2 :=
  exists_mem_of_forall₂ (List.Forall₂.flip h) hn

theorem SameMembers.putMembers {ms ns more more' : List (String × Member)} (h : SameMembers ms ns)
    (hmore : SameMembers more more') :
    SameMembers (Interface.putMembers ms more) (Interface.putMembers ns more') := by
  induction hmore generalizing ms ns with
  | nil => exact h
  | @cons m n _ _ hmn _ ih =>
    have written : SameMembers (Table.put m.1 m.2 ms) (Table.put n.1 n.2 ns) :=
      hmn.1 ▸ Table.forall₂_put hmn.2 h
    exact ih written

/-- The members of equal interfaces correspond along the chains of bases. -/
theorem forall₂_chain {i j : Interface} (h : i.equal j) :
    List.Forall₂ (fun k l => SameMembers k.members l.members) i.chain j.chain := by
  rcases Interface.equal_iff.1 h with rfl | ⟨-, base, members⟩
  · exact List.forall₂_same.2 fun k _ => .refl k.members
  have own : SameMembers i.members j.members := members.imp fun _ _ hmn => ⟨hmn.1, .inr hmn.2⟩
  rcases hb : i.base with _ | b <;> rcases hc : j.base with _ | c <;> rw [hb, hc] at base
  · rw [chain_of_none hb, chain_of_none hc]
    exact .cons own .nil
  · cases base
  · cases base
  · rw [chain_of_some hb, chain_of_some hc]
    have := sizeOf_base_lt hb
    cases base with
    | some hbc => exact .cons own (forall₂_chain hbc)
termination_by sizeOf i

/-- Equal interfaces ask for the same or equal members under the same names in the same order. -/
theorem sameMembers_allMembers (h : i.equal j) : SameMembers i.allMembers j.allMembers := by
  rw [allMembers, allMembers]
  have chains := forall₂_chain h
  generalize i.chain = c, j.chain = d at chains
  induction chains with
  | nil => exact .nil
  | cons members _ ih => exact ih.putMembers members

end Interface

end TypeContracts
