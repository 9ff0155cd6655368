import TypeContracts.Proofs.Conformance.Rules
import TypeContracts.Proofs.Spec.Interface
import TypeContracts.Proofs.World.Signatures

/-!
Equal specs are interchangeable as targets. Both checks give the same answer for two equal specs, in
worlds where no interface redeclares a member: an interface that is derived from a target then has all
the members of the target, and so of its equals. Equality of well-made specs is symmetric, so one
direction is enough: `Carries` says that what holds of one target holds of another.
Main statement: `interchangeable_of_equal`.
-/

namespace TypeContracts

namespace Conformance

variable {w : World} {p : Probe Id}

/-- What is below the first spec, value or spec, is below the second. -/
structure Carries (w : World) (p : Probe Id) (s t : TypeSpec) : Prop where
  value : ∀ v, (satisfies w p v s).run → (satisfies w p v t).run
  candidate : ∀ c : TypeSpec, c.Everywhere Part.NoRedeclaration →
    (isSubtype w p c s).run → (isSubtype w p c t).run

/-- Equal specs of total size below `n` carry over. -/
def CarriesBelow (w : World) (p : Probe Id) (n : Nat) : Prop :=
  ∀ {s t : TypeSpec}, s.Everywhere Part.Tame → t.Everywhere Part.Tame → s.size + t.size < n →
    s.equal t → Carries w p s t

/-- A member meets itself and its equals, unless it is a variadic method. -/
theorem memberMeets_of_same {a b : Member} (h : a.Same b)
    (fixed : ∀ s, a = .method s → s.isVariadic = false) : MemberMeets w p a b := by
  rcases h with rfl | h
  · match a, fixed with
    | .attribute s, _ => exact isSubtype_of_equal s.equal_refl
    | .method s, fixed => exact signatureConforms_of_equal (.inl rfl) (fixed s rfl)
  · cases Member.equal_iff.1 h with
    | specs same => exact isSubtype_of_equal same
    | signatures same => exact signatureConforms_of_equal (.inr same) (fixed _ rfl)

/-- Direct parts of two specs are smaller than the specs. -/
theorem CarriesBelow.step {s t a b : TypeSpec} (ih : CarriesBelow w p (s.size + t.size))
    (hs : s.Everywhere Part.Tame) (ht : t.Everywhere Part.Tame) (x : Part.Step (.spec s) (.spec a))
    (y : Part.Step (.spec t) (.spec b)) (h : a.equal b) : Carries w p a b := by
  have := TypeSpec.size_lt_of_step x
  have := TypeSpec.size_lt_of_step y
  exact ih (hs.step x) (ht.step y) (by omega) h

section below

variable {n : Nat} (ih : CarriesBelow w p n)

include ih

/-! ## Signatures -/

theorem annotationConforms_carries {c s t : Option TypeSpec}
    (hc : ∀ a ∈ c, a.Everywhere Part.NoRedeclaration)
    (tame : ∀ a ∈ s, ∀ b ∈ t, a.Everywhere Part.Tame ∧ b.Everywhere Part.Tame ∧ a.size + b.size < n)
    (h : Option.Rel (fun a b => a.equal b) s t) (conforms : (annotationConforms w p c s).run) :
    (annotationConforms w p c t).run := by
  rw [annotationConforms_iff] at conforms ⊢
  rintro b hb
  cases h with
  | none => cases hb
  | @some a _ same =>
    cases hb
    obtain ⟨d, hd, below⟩ := conforms a rfl
    obtain ⟨ta, tb, size⟩ := tame a rfl b rfl
    exact ⟨d, hd, (ih ta tb size same).candidate d (hc d hd) below⟩

theorem signatureConforms_carries {c s t : Signature} (hc : c.Everywhere Part.NoRedeclaration)
    (hs : s.Everywhere Part.Tame) (ht : t.Everywhere Part.Tame) (size : s.size + t.size ≤ n)
    (h : s = t ∨ s.equal t) (conforms : (signatureConforms w p c s).run) :
    (signatureConforms w p c t).run := by
  rcases h with rfl | h
  · exact conforms
  obtain ⟨params, returns⟩ := Signature.equal_iff.1 h
  rw [signatureConforms_iff] at conforms ⊢
  obtain ⟨fixed, long, extra, conform, conformsReturns⟩ := conforms
  rw [← params.length_eq]
  refine ⟨fixed, long, extra, ?_, ?_⟩
  · rintro ⟨q, r⟩ hqr
    -- `r'` is the parameter of `s` in the place of `r`
    obtain ⟨r', hqr', same⟩ := exists_mem_zip params hqr
    obtain ⟨name, -, type, -⟩ := Param.equal_iff.1 same
    have hq := (List.of_mem_zip hqr).1
    have hr := (List.of_mem_zip hqr).2
    have hr' := (List.of_mem_zip hqr').2
    have := (paramConforms_iff w p).1 (conform _ hqr')
    refine (paramConforms_iff w p).2 ⟨this.1.trans name, ?_⟩
    refine annotationConforms_carries ih (fun a ha => hc.step (.parameter hq ha))
      (fun a ha b hb => ⟨hs.step (.parameter hr' ha), ht.step (.parameter hr hb), ?_⟩) type this.2
    have := Signature.size_parameter_lt hr' ha
    have := Signature.size_parameter_lt hr hb
    omega
  · refine annotationConforms_carries ih (fun a ha => hc.step (.returns ha))
      (fun a ha b hb => ⟨hs.step (.returns ha), ht.step (.returns hb), ?_⟩) returns conformsReturns
    have := Signature.size_returns_lt ha
    have := Signature.size_returns_lt hb
    omega

theorem callableConforms_carries (world : w.NoRedeclaration) {s t : Signature}
    (hs : s.Everywhere Part.Tame) (ht : t.Everywhere Part.Tame) (size : s.size + t.size ≤ n)
    (h : s = t ∨ s.equal t) {v : Value} (conforms : (callableConforms w p v s).run) :
    (callableConforms w p v t).run := by
  rw [callableConforms_iff] at conforms ⊢
  refine conforms.imp id fun ⟨c, signed, conforms⟩ => ⟨c, signed, ?_⟩
  exact signatureConforms_carries ih (World.noRedeclaration_of_calling world signed) hs ht size h
    conforms

theorem classProvides_carries (world : w.NoRedeclaration) {s t : Signature}
    (hs : s.Everywhere Part.Tame) (ht : t.Everywhere Part.Tame) (size : s.size + t.size ≤ n)
    (h : s = t ∨ s.equal t) {c : Class} {name : String} (provides : (classProvides w p c name s).run) :
    (classProvides w p c name t).run := by
  rw [classProvides_iff] at provides ⊢
  rcases provides with ⟨v, found, conforms⟩ | ⟨owner, m, found, conforms⟩
  · exact .inl ⟨v, found, callableConforms_carries ih world hs ht size h conforms⟩
  · refine .inr ⟨owner, m, found, fun d hd => ?_⟩
    exact signatureConforms_carries ih (world d (World.declares_of_static? found hd)) hs ht size h
      (conforms d hd)

/-! ## Interfaces -/

theorem memberConforms_carries (world : w.NoRedeclaration) {a b : Member}
    (ha : Part.Everywhere Part.Tame a.part) (hb : Part.Everywhere Part.Tame b.part)
    (size : a.size + b.size ≤ n) (h : a.Same b) {v : Value} (conforms : (memberConforms w p v a).run) :
    (memberConforms w p v b).run := by
  rcases h with rfl | h
  · exact conforms
  cases Member.equal_iff.1 h with
  | specs same =>
    simp only [Member.size] at size
    rw [memberConforms_attribute] at conforms ⊢
    exact (ih ha hb (by omega) same).value v conforms
  | signatures same =>
    simp only [Member.size] at size
    rw [memberConforms_method] at conforms ⊢
    exact callableConforms_carries ih world ha hb (by omega) (.inr same) conforms

/-- A member of an interface below one member is below its equals. -/
theorem memberMeets_carries {c a b : Member} (hc : Part.Everywhere Part.NoRedeclaration c.part)
    (ha : Part.Everywhere Part.Tame a.part) (hb : Part.Everywhere Part.Tame b.part)
    (size : a.size + b.size ≤ n) (h : a.Same b) (meets : MemberMeets w p c a) :
    MemberMeets w p c b := by
  rcases h with rfl | h
  · exact meets
  cases Member.equal_iff.1 h with
  | specs same =>
    simp only [Member.size] at size
    match c, hc, meets with
    | .attribute given, hc, meets => exact (ih ha hb (by omega) same).candidate given hc meets
    | .method _, _, meets => exact meets.elim
  | signatures same =>
    simp only [Member.size] at size
    match c, hc, meets with
    | .attribute _, _, meets => exact meets.elim
    | .method _, hc, meets => exact signatureConforms_carries ih hc ha hb (by omega) (.inr same) meets

section interfaces

variable {i j : Interface} (hi : Part.Everywhere Part.Tame (.interface i))
  (hj : Part.Everywhere Part.Tame (.interface j)) (size : i.size + j.size ≤ n) (h : i.equal j)

include hi hj size h

theorem satisfies_interface_carries (world : w.NoRedeclaration) {v : Value}
    (hv : (satisfies w p v (.interface i)).run) : (satisfies w p v (.interface j)).run := by
  rw [satisfies_interface_iff] at hv ⊢
  intro b hb
  obtain ⟨a, ha, name, same⟩ := (Interface.sameMembers_allMembers h).exists_of_mem hb
  obtain ⟨found, read, conforms⟩ := hv a ha
  have := Interface.size_lt_of_mem ha
  have := Interface.size_lt_of_mem hb
  exact ⟨found, name ▸ read, memberConforms_carries ih world (Interface.everywhere_allMembers hi ha)
    (Interface.everywhere_allMembers hj hb) (by omega) same conforms⟩

theorem classImplements_carries (world : w.NoRedeclaration) {c : Class}
    (hc : (classImplements w p c i).run) : (classImplements w p c j).run := by
  rw [classImplements_iff] at hc ⊢
  intro name expected hb
  obtain ⟨⟨name', a⟩, ha, rfl, same⟩ := (Interface.sameMembers_allMembers h).exists_of_mem hb
  obtain ⟨s, rfl, alike⟩ := same.exists_method
  have sizeA := Interface.size_lt_of_mem ha
  have sizeB := Interface.size_lt_of_mem hb
  simp only [Member.size] at sizeA sizeB
  exact classProvides_carries ih world (Interface.everywhere_allMembers hi ha)
    (Interface.everywhere_allMembers hj hb) (by omega) alike (hc name' s ha)

/-- An interface derived from `i` has the members of `i`, so it is below `j` member by member. -/
theorem interfaceConforms_carries {k : Interface}
    (hk : Part.Everywhere Part.NoRedeclaration (.interface k))
    (conforms : (interfaceConforms w p k i).run) : (interfaceConforms w p k j).run := by
  rw [interfaceConforms_iff] at conforms ⊢
  refine .inr fun b hb => ?_
  obtain ⟨⟨name, a⟩, ha, rfl, same⟩ := (Interface.sameMembers_allMembers h).exists_of_mem hb
  rcases conforms with derives | meets
  · -- the member of `i` is inherited by `k` as it is, since nothing on the way declares it again
    have mem : i ∈ k.chain := by simpa [Interface.derivesFrom] using derives
    have names : ∀ l ∈ i.chain, (l.members.map (·.1)).Nodup := fun l hl =>
      (Interface.everywhere_chain hi hl).self.normal.1
    have declared : i.member? b.1 = some a := (Interface.mem_allMembers_iff names).1 ha
    refine ⟨a, Interface.member?_of_mem_chain hk mem declared, memberMeets_of_same same ?_⟩
    rintro s rfl
    exact Interface.isVariadic_of_mem_allMembers (hi.imp fun _ => (·.normal)) ha
  · obtain ⟨given, found, meets⟩ := meets _ ha
    have := Interface.size_lt_of_mem ha
    have := Interface.size_lt_of_mem hb
    exact ⟨given, found, memberMeets_carries ih (Interface.everywhere_member? hk found)
      (Interface.everywhere_allMembers hi ha) (Interface.everywhere_allMembers hj hb) (by omega) same
      meets⟩

end interfaces

end below

/-! ## Specs -/

theorem isTop_of_equal {s t : TypeSpec} (h : s.equal t) (top : s.isTop) : t.isTop := by
  cases TypeSpec.equal_iff.1 h with
  | any | plain => exact top
  | _ => cases top

section step

variable (world : w.NoRedeclaration) {s t : TypeSpec} (hs : s.Everywhere Part.Tame)
  (ht : t.Everywhere Part.Tame) (h : s.equal t) (ih : CarriesBelow w p (s.size + t.size))

include world hs ht h ih

theorem satisfies_carries {v : Value} (hv : (satisfies w p v s).run) : (satisfies w p v t).run := by
  cases TypeSpec.equal_iff.1 h with
  | any | plain | predicate | only => exact hv
  | both l r =>
    rw [satisfies_both, Bool.and_eq_true] at hv ⊢
    exact ⟨(ih.step hs ht (.left _ _) (.left _ _) l).value v hv.1,
      (ih.step hs ht (.right _ _) (.right _ _) r).value v hv.2⟩
  | union partners =>
    rw [satisfies_union, List.any_eq_true] at hv ⊢
    obtain ⟨a, ha, hv⟩ := hv
    obtain ⟨b, hb, hba⟩ := partners.2 a ha
    have hab := TypeSpec.equal_swap (ht.step (.alternative hb)) (hs.step (.alternative ha)) hba
    exact ⟨b, hb, (ih.step hs ht (.alternative ha) (.alternative hb) hab).value v hv⟩
  | interface same =>
    exact satisfies_interface_carries ih (hs.step (.interface _)) (ht.step (.interface _))
      (by simp only [TypeSpec.size]; omega) same world hv
  | callable same =>
    rw [satisfies_callable] at hv ⊢
    exact callableConforms_carries ih world (hs.step (.signature _ _)) (ht.step (.signature _ _))
      (by simp only [TypeSpec.size]; omega) (same.imp And.right id) hv
  | list same =>
    rw [satisfies_list_iff] at hv ⊢
    obtain ⟨items, rfl, hv⟩ := hv
    refine ⟨items, rfl, fun x hx => ?_⟩
    exact (ih.step hs ht (.listElement _) (.listElement _) same).value x (hv x hx)
  | set same =>
    rw [satisfies_set_iff] at hv ⊢
    obtain ⟨items, rfl, hv⟩ := hv
    refine ⟨items, rfl, fun x hx => ?_⟩
    exact (ih.step hs ht (.setElement _) (.setElement _) same).value x (hv x hx)
  | tuple same =>
    rw [satisfies_tuple_iff] at hv ⊢
    obtain ⟨items, rfl, hv⟩ := hv
    refine ⟨items, rfl, forall₂_trans (fun x _ a ha b hb hxa hab => ?_) hv same⟩
    exact (ih.step hs ht (.position ha) (.position hb) hab).value x hxa
  | mapping hk hx =>
    rw [satisfies_mapping_iff] at hv ⊢
    obtain ⟨entries, rfl, hv⟩ := hv
    refine ⟨entries, rfl, fun e he => ⟨?_, ?_⟩⟩
    · exact (ih.step hs ht (.key _ _) (.key _ _) hk).value e.1 (hv e he).1
    · exact (ih.step hs ht (.value _ _) (.value _ _) hx).value e.2 (hv e he).2
  | optional same =>
    rw [satisfies_optional, Bool.or_eq_true] at hv ⊢
    exact hv.imp id ((ih.step hs ht (.inner _) (.inner _) same).value v)
  | options same =>
    rcases same with ⟨rfl, rfl⟩ | partners
    · exact hv
    · -- the value equals an option of `s`, and this one has an equal in `t`
      rw [satisfies_options, Value.isIn, List.any_eq_true] at hv ⊢
      obtain ⟨x, hx, hxv⟩ := hv
      obtain ⟨y, hy, hyx⟩ := partners.2 x hx
      exact ⟨y, hy, Value.equal_trans hyx hxv⟩

/-- The rules for whole candidates, one for each shape of `s`. -/
theorem rule_carries {c : TypeSpec} (hc : c.Everywhere Part.NoRedeclaration) (whole : c.isWhole)
    (rule : Rule w p c s) : Rule w p c t := by
  -- where `s` and `t` are classes they are the same spec, and the rule stays as it is
  have kept := rule
  cases rule with
  | union | optional | options | left | right => cases whole
  | toMember whole ha below =>
    cases TypeSpec.equal_iff.1 h with
    | union partners =>
      obtain ⟨b, hb, hba⟩ := partners.2 _ ha
      have hab := TypeSpec.equal_swap (ht.step (.alternative hb)) (hs.step (.alternative ha)) hba
      have carries := ih.step hs ht (.alternative ha) (.alternative hb) hab
      exact .toMember whole hb (carries.candidate c hc below)
  | toNone none =>
    cases TypeSpec.equal_iff.1 h with
    | optional => exact .toNone none
  | toInner whole below =>
    cases TypeSpec.equal_iff.1 h with
    | optional same =>
      have carries := ih.step hs ht (.inner _) (.inner _) same
      exact .toInner whole (carries.candidate c hc below)
  | plain | onlyPlain | plainOnly | only =>
    cases TypeSpec.equal_iff.1 h
    exact kept
  | plainInterface implements =>
    cases TypeSpec.equal_iff.1 h with
    | interface same =>
      exact .plainInterface (classImplements_carries ih (hs.step (.interface _))
        (ht.step (.interface _)) (by simp only [TypeSpec.size]; omega) same world implements)
  | onlyInterface implements =>
    cases TypeSpec.equal_iff.1 h with
    | interface same =>
      exact .onlyInterface (classImplements_carries ih (hs.step (.interface _))
        (ht.step (.interface _)) (by simp only [TypeSpec.size]; omega) same world implements)
  | interface conforms =>
    cases TypeSpec.equal_iff.1 h with
    | interface same =>
      exact .interface (interfaceConforms_carries ih (hs.step (.interface _)) (ht.step (.interface _))
        (by simp only [TypeSpec.size]; omega) same (hc.step (.interface _)) conforms)
  | callable conforms =>
    cases TypeSpec.equal_iff.1 h with
    | callable same =>
      exact .callable (signatureConforms_carries ih (hc.step (.signature _ _))
        (hs.step (.signature _ _)) (ht.step (.signature _ _)) (by simp only [TypeSpec.size]; omega)
        (same.imp And.right id) conforms)
  | list below =>
    cases TypeSpec.equal_iff.1 h with
    | list same =>
      have carries := ih.step hs ht (.listElement _) (.listElement _) same
      exact .list (carries.candidate _ (hc.step (.listElement _)) below)
  | set below =>
    cases TypeSpec.equal_iff.1 h with
    | set same =>
      have carries := ih.step hs ht (.setElement _) (.setElement _) same
      exact .set (carries.candidate _ (hc.step (.setElement _)) below)
  | tuple below =>
    cases TypeSpec.equal_iff.1 h with
    | tuple same =>
      refine .tuple (forall₂_trans (fun d hd a ha b hb hda hab => ?_) below same)
      have carries := ih.step hs ht (.position ha) (.position hb) hab
      exact carries.candidate d (hc.step (.position hd)) hda
  | mapping hk hx =>
    cases TypeSpec.equal_iff.1 h with
    | mapping sameK sameV =>
      have key := ih.step hs ht (.key _ _) (.key _ _) sameK
      have value := ih.step hs ht (.value _ _) (.value _ _) sameV
      exact .mapping (key.candidate _ (hc.step (.key _ _)) hk)
        (value.candidate _ (hc.step (.value _ _)) hx)

/-- What is below `s` is below `t`. The candidate is taken apart first, so this is an induction on
it. -/
theorem isSubtype_carries {c : TypeSpec} (hc : c.Everywhere Part.NoRedeclaration)
    (hcs : (isSubtype w p c s).run) : (isSubtype w p c t).run := by
  rcases (isSubtype_iff w p).1 hcs with same | top | rule
  · exact isSubtype_of_equal (TypeSpec.equal_trans same h)
  · exact isSubtype_of_isTop (isTop_of_equal h top)
  refine isSubtype_of_rule ?_
  cases c with
  | union ds =>
    refine .union fun d hd => ?_
    have := TypeSpec.size_le_of_mem hd
    exact isSubtype_carries (hc.step (.alternative hd)) (rule_union_iff.1 rule d hd)
  | optional d =>
    obtain ⟨none, some⟩ := rule_optional_iff.1 rule
    have := d.size_pos
    exact .optional (isSubtype_carries (TypeSpec.everywhere_plain trivial) none)
      (isSubtype_carries (hc.step (.inner _)) some)
  | options key vs =>
    exact .options fun v hv => satisfies_carries world hs ht h ih (rule_options_iff.1 rule v hv)
  | both l r =>
    rcases rule_both_iff.1 rule with below | below
    · exact .left (isSubtype_carries (hc.step (.left _ _)) below)
    · exact .right (isSubtype_carries (hc.step (.right _ _)) below)
  | _ => exact rule_carries world hs ht h ih hc rfl rule
termination_by c.size
decreasing_by all_goals (subst_vars; simp only [TypeSpec.size]; omega)

end step

theorem carriesBelow (world : w.NoRedeclaration) (n : Nat) : CarriesBelow w p n := by
  induction n with
  | zero => exact fun _ _ size => absurd size (by omega)
  | succ n ih =>
    intro s t hs ht size h
    have below : CarriesBelow w p (s.size + t.size) := fun hs ht less => ih hs ht (by omega)
    exact ⟨fun _ => satisfies_carries world hs ht h below,
      fun _ => isSubtype_carries world hs ht h below⟩

/-- Equal specs are interchangeable as targets: the same values satisfy them, and the same specs are
below them. -/
theorem interchangeable_of_equal {w : World} (world : w.NoRedeclaration) (p : Probe Id)
    {s t : TypeSpec} (hs : WellMade s) (ht : WellMade t) (h : s.equal t) :
    (∀ v, (satisfies w p v s).run = (satisfies w p v t).run) ∧
      ∀ c : TypeSpec, c.Everywhere Part.NoRedeclaration →
        (isSubtype w p c s).run = (isSubtype w p c t).run := by
  have there := carriesBelow world (p := p) _ hs.tame ht.tame (Nat.lt_succ_self _) h
  have back := carriesBelow world (p := p) _ ht.tame hs.tame (Nat.lt_succ_self _)
    (TypeSpec.equal_swap hs.tame ht.tame h)
  exact ⟨fun v => Bool.eq_iff_iff.2 ⟨there.value v, back.value v⟩,
    fun c hc => Bool.eq_iff_iff.2 ⟨there.candidate c hc, back.candidate c hc⟩⟩

/-- An interface derived from one of two equal interfaces is below the other one too. -/
theorem derived_interface_interchangeable :
    let named (key : Nat) : Interface := ⟨key, "Named", none, [("name", .attribute (.plain .str))]⟩
    let aged : Interface := ⟨3, "Aged", some (named 1), [("age", .attribute (.plain .int))]⟩
    let p : Probe Id := ⟨fun _ _ => false, fun _ => ()⟩
    (TypeSpec.interface (named 1)).equal (.interface (named 2)) ∧
      (isSubtype .initial p (.interface aged) (.interface (named 1))).run ∧
      (isSubtype .initial p (.interface aged) (.interface (named 2))).run := by
  intro named aged p
  have everywhere : ∀ (P : Part → Prop) (key : Nat), P (.interface (named key)) →
      P (.spec (.plain .str)) → Part.Everywhere P (.interface (named key)) := by
    intro P key hi hs
    refine Interface.everywhere hi (fun b hb => ?_) (fun name t mem => ?_) fun name s mem => ?_
    · cases hb
    · cases List.mem_singleton.1 mem
      exact TypeSpec.everywhere_plain hs
    · cases List.mem_singleton.1 mem
  have made : ∀ key, WellMade (.interface (named key)) := by
    intro key
    have build : Interface.build key "Named" [.attribute "name" (.value (.cls .str))] =
        .ok (named key) := rfl
    refine ⟨.interface (by simp [Interface.Declaration.specs, SpecLiteral.leaves]) build, ?_⟩
    exact TypeSpec.everywhere_interface trivial (everywhere _ key trivial trivial)
  have same : (TypeSpec.interface (named 1)).equal (.interface (named 2)) := by
    refine TypeSpec.equal_iff.2 (.interface (Interface.equal_iff.2 (.inr ⟨rfl, .none, ?_⟩)))
    exact .cons ⟨rfl, Member.equal_iff.2 (.specs (TypeSpec.equal_refl _))⟩ .nil
  have derived : (isSubtype .initial p (.interface aged) (.interface (named 1))).run := by
    refine isSubtype_of_rule (.interface ((interfaceConforms_iff _ _).2 (.inl ?_)))
    simp [Interface.derivesFrom, Interface.chain, aged, named]
  have own : (TypeSpec.interface aged).Everywhere Part.NoRedeclaration := by
    have declared : Part.NoRedeclaration (.interface aged) := by
      intro b hb m hm
      cases hb
      cases List.mem_singleton.1 hm
      rfl
    refine TypeSpec.everywhere_interface trivial (Interface.everywhere declared
      (fun b hb => ?_) (fun name t mem => ?_) fun name s mem => ?_)
    · cases hb
      exact everywhere _ 1 (fun b hb => by cases hb) trivial
    · cases List.mem_singleton.1 mem
      exact TypeSpec.everywhere_plain trivial
    · cases List.mem_singleton.1 mem
  refine ⟨same, derived, ?_⟩
  rw [← (interchangeable_of_equal World.noRedeclaration_initial p (made 1) (made 2) same).2 _ own]
  exact derived

end Conformance

end TypeContracts
