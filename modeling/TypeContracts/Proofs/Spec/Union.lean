import TypeContracts.Proofs.Spec.Built

/-!
What a union is made of. Read as a union, the union of some specs has the members of these, less those
equal to an earlier one. So it depends, up to equality, only on which members there are, and not on how
they are ordered, repeated or nested. Main statements: `TypeSpec.unionOf_equal`,
`TypeSpec.Regrouped.sameMembers`.
-/

namespace TypeContracts

open Conformance (WellMade)

namespace TypeSpec

/-! ## Members as parts -/

/-- The members of a spec read as a union are no unions. -/
theorem form_of_mem_flatten {s t : TypeSpec} (h : t ∈ s.flatten) : t.form ≠ .union := by
  obtain ⟨ss, rfl⟩ | ⟨form, single⟩ := s.flatten_cases
  · obtain ⟨u, hu, ht⟩ := mem_flattenAll.1 h
    have := List.sizeOf_lt_of_mem hu
    exact form_of_mem_flatten ht
  · rw [single] at h
    exact List.mem_singleton.1 h ▸ form
termination_by sizeOf s
decreasing_by subst_vars; simp; omega

section parts

variable {P : Part → Prop}

/-- The members of a spec read as a union are parts of it. -/
theorem everywhere_flatten {s t : TypeSpec} (h : s.Everywhere P) (ht : t ∈ s.flatten) :
    t.Everywhere P := by
  cases s with
  | union ss =>
    obtain ⟨s, hs, ht⟩ := mem_flattenAll.1 ht
    have := List.sizeOf_lt_of_mem hs
    exact everywhere_flatten (h.step (.alternative hs)) ht
  | _ => rw [List.mem_singleton.1 ht]; exact h
termination_by sizeOf s
decreasing_by subst_vars; simp; omega

theorem everywhere_flattenAll {ss : List TypeSpec} (h : ∀ s ∈ ss, s.Everywhere P) {t : TypeSpec}
    (ht : t ∈ flattenAll ss) : t.Everywhere P := by
  obtain ⟨s, hs, ht⟩ := mem_flattenAll.1 ht
  exact everywhere_flatten (h s hs) ht

theorem everywhere_ofMembers (top : ∀ ss, P (.spec (.union ss))) {ss : List TypeSpec}
    (h : ∀ s ∈ ss, s.Everywhere P) : (ofMembers ss).Everywhere P := by
  match ss with
  | [] => exact everywhere_union (top []) h
  | [s] => exact h s List.mem_cons_self
  | s :: t :: rest => exact everywhere_union (top _) h

end parts

/-! ## The union of a list -/

theorem flattenAll_append (ss ts : List TypeSpec) :
    flattenAll (ss ++ ts) = flattenAll ss ++ flattenAll ts := by
  induction ss with
  | nil => rfl
  | cons s ss ih => rw [List.cons_append, flattenAll, ih, flattenAll, List.append_assoc]

theorem flatten_ofMembers {ss : List TypeSpec} (flat : ∀ s ∈ ss, s.form ≠ .union) :
    (ofMembers ss).flatten = ss := by
  match ss with
  | [] => rfl
  | [s] => exact flatten_eq_singleton (flat s List.mem_cons_self)
  | s :: t :: rest => exact flattenAll_eq_self flat

theorem ofMembers_of_two_le {ss : List TypeSpec} (len : 2 ≤ ss.length) : ofMembers ss = union ss := by
  match ss with
  | [] | [_] => simp at len
  | s :: t :: rest => rfl

theorem eq_of_unionOf {ss : List TypeSpec} {u : TypeSpec} (made : unionOf ss = .ok u) :
    u = ofMembers (distinct (flattenAll ss)) := by
  rw [unionOf] at made
  split at made
  · cases made
  · exact (Except.ok.inj made).symm

theorem or_eq (s t : TypeSpec) : s.or t = ofMembers (distinct (flattenAll [s, t])) := by
  simp [TypeSpec.or, flattenAll]

theorem everywhere_or {P : Part → Prop} (top : ∀ ss, P (.spec (.union ss))) {s t : TypeSpec}
    (hs : s.Everywhere P) (ht : t.Everywhere P) : (s.or t).Everywhere P := by
  rw [or_eq]
  refine everywhere_ofMembers top fun m hm => ?_
  exact everywhere_flattenAll (by simp [hs, ht]) (mem_of_mem_distinctBy hm)

/-- The members that are kept are no unions. -/
theorem form_of_mem_distinct {ss : List TypeSpec} {t : TypeSpec}
    (h : t ∈ distinct (flattenAll ss)) : t.form ≠ .union := by
  obtain ⟨s, -, ht⟩ := mem_flattenAll.1 (mem_of_mem_distinctBy h)
  exact form_of_mem_flatten ht

/-- Read as a union, a union has the members that were kept. -/
theorem flatten_unionOf {ss : List TypeSpec} {u : TypeSpec} (made : unionOf ss = .ok u) :
    u.flatten = distinct (flattenAll ss) := by
  rw [eq_of_unionOf made]
  exact flatten_ofMembers fun _ => form_of_mem_distinct

theorem flatten_or (s t : TypeSpec) : (s.or t).flatten = distinct (s.flatten ++ t.flatten) := by
  rw [or_eq, flatten_ofMembers fun _ => form_of_mem_distinct]
  simp [flattenAll]

/-- Normal specs, one at least, have a union. -/
theorem unionOf_eq {ss : List TypeSpec} (h : ∀ s ∈ ss, s.Normal) (nonempty : ss ≠ []) :
    unionOf ss = .ok (ofMembers (distinct (flattenAll ss))) := by
  obtain ⟨s, hs⟩ := List.exists_mem_of_ne_nil ss nonempty
  obtain ⟨t, ht⟩ := List.exists_mem_of_ne_nil _ (h s hs).flatten.1
  have members : distinct (flattenAll ss) ≠ [] :=
    distinctBy_ne_nil (List.ne_nil_of_mem (mem_flattenAll.2 ⟨s, hs, ht⟩))
  rw [unionOf]
  split
  · exact absurd ‹_› members
  · rfl

/-- The members of a normal spec are all kept. -/
theorem Normal.distinct_flatten {s : TypeSpec} (h : s.Normal) : Distinct TypeSpec.equal s.flatten := by
  obtain ⟨ss, rfl⟩ | ⟨-, single⟩ := s.flatten_cases
  · rw [h.flatten_union]
    exact h.self.2.2
  · rw [single]
    exact List.pairwise_singleton _ _

/-- A normal spec is the union of its members. -/
theorem Normal.ofMembers_flatten {s : TypeSpec} (h : s.Normal) : ofMembers s.flatten = s := by
  obtain ⟨ss, rfl⟩ | ⟨-, single⟩ := s.flatten_cases
  · rw [h.flatten_union]
    exact ofMembers_of_two_le h.self.1
  · rw [single]
    rfl

theorem form_eq_of_equal {s t : TypeSpec} (h : s.equal t) : s.form = t.form := by
  cases equal_iff.1 h <;> rfl

/-- Read as unions, specs that equal each other have the same members up to equality. -/
theorem covered_flatten {s t : TypeSpec} (hs : s.Normal) (ht : t.Normal) (h : s.equal t)
    (h' : t.equal s) : Covered TypeSpec.equal s.flatten t.flatten := by
  obtain ⟨ss, rfl⟩ | ⟨form, single⟩ := s.flatten_cases
  · cases equal_iff.1 h with
    | union partners =>
      rw [hs.flatten_union, ht.flatten_union]
      exact partners.2
  · rw [single, flatten_eq_singleton (form_eq_of_equal h ▸ form)]
    intro a ha
    exact ⟨t, List.mem_singleton_self t, List.mem_singleton.1 ha ▸ h'⟩

/-- Where all specs equal the first, their union is the first. -/
theorem unionOf_of_equal {s : TypeSpec} {rest : List TypeSpec} (hs : s.Everywhere Part.Tame)
    (hrest : ∀ t ∈ rest, t.Everywhere Part.Tame) (h : ∀ t ∈ rest, s.equal t) :
    unionOf (s :: rest) = .ok s := by
  have normal : ∀ {t : TypeSpec}, t.Everywhere Part.Tame → t.Normal :=
    fun ht => ht.imp fun _ => (·.normal)
  have found : Covered TypeSpec.equal (flattenAll rest) s.flatten := by
    intro a ha
    obtain ⟨t, ht, ha⟩ := mem_flattenAll.1 ha
    have swapped := equal_swap hs (hrest t ht) (h t ht)
    exact covered_flatten (normal (hrest t ht)) (normal hs) swapped (h t ht) a ha
  have kept : distinct (flattenAll (s :: rest)) = s.flatten :=
    distinctBy_append_of_covered (normal hs).distinct_flatten found
  rw [unionOf_eq ?_ (List.cons_ne_nil _ _), kept, (normal hs).ofMembers_flatten]
  exact List.forall_mem_cons.2 ⟨normal hs, fun t ht => normal (hrest t ht)⟩

/-! ## Unions with the same members -/

/-- Lists of equal members make equal unions. -/
theorem equal_ofMembers {as bs : List TypeSpec} (ha : ∀ a ∈ as, a.Everywhere Part.Tame)
    (hb : ∀ b ∈ bs, b.Everywhere Part.Tame) (partners : Partnered (fun a b => b.equal a) as bs) :
    (ofMembers as).equal (ofMembers bs) := by
  have len := partners.1
  match as, bs with
  | [a], [b] =>
    obtain ⟨c, hc, hca⟩ := partners.2 a List.mem_cons_self
    cases List.mem_singleton.1 hc
    exact equal_swap (hb b List.mem_cons_self) (ha a List.mem_cons_self) hca
  | [], [] | _ :: _ :: _, _ :: _ :: _ => exact equal_union_iff.2 partners
  | [], _ :: _ | _ :: _ :: _, [] | [_], [] | [_], _ :: _ :: _ | _ :: _ :: _, [_] => simp at len

/-- Unions are equal if each member of one has an equal among those of the other. -/
theorem unionOf_equal {ss ts : List TypeSpec} {u v : TypeSpec} (hs : ∀ s ∈ ss, s.Everywhere Part.Tame)
    (ht : ∀ t ∈ ts, t.Everywhere Part.Tame) (hu : unionOf ss = .ok u) (hv : unionOf ts = .ok v)
    (there : Covered TypeSpec.equal (flattenAll ss) (flattenAll ts))
    (back : Covered TypeSpec.equal (flattenAll ts) (flattenAll ss)) : u.equal v := by
  have tame : ∀ x ∈ flattenAll ss ++ flattenAll ts, x.Everywhere Part.Tame := fun x hx =>
    (List.mem_append.1 hx).elim (everywhere_flattenAll hs) (everywhere_flattenAll ht)
  rw [eq_of_unionOf hu, eq_of_unionOf hv]
  refine equal_ofMembers (fun x hx => everywhere_flattenAll hs (mem_of_mem_distinctBy hx))
    (fun x hx => everywhere_flattenAll ht (mem_of_mem_distinctBy hx)) ?_
  exact partnered_distinctBy (fun x _ => x.equal_refl)
    (fun x hx y hy => equal_swap (tame x hx) (tame y hy)) equal_trans there back

/-- The specs of the second list are those of the first in another order, some of them repeated, some
of them gathered in nested unions. -/
inductive Regrouped : List TypeSpec → List TypeSpec → Prop where
  | reordered {ss ts : List TypeSpec} (h : ss.Perm ts) : Regrouped ss ts
  | repeated {ss : List TypeSpec} {s : TypeSpec} (h : s ∈ ss) : Regrouped ss (s :: ss)
  | nested {before group after : List TypeSpec} {u : TypeSpec} (made : unionOf group = .ok u) :
      Regrouped (before ++ group ++ after) (before ++ u :: after)
  | trans {ss ts us : List TypeSpec} (h : Regrouped ss ts) (h' : Regrouped ts us) : Regrouped ss us

/-- The second list is well-made and has, up to equality, the members of the first. -/
structure SameMembers (ss ts : List TypeSpec) : Prop where
  wellMade : ∀ t ∈ ts, WellMade t
  nonempty : ts ≠ []
  there : Covered TypeSpec.equal (flattenAll ss) (flattenAll ts)
  back : Covered TypeSpec.equal (flattenAll ts) (flattenAll ss)

theorem values_ofMembers {ss : List TypeSpec} (h : ∀ s ∈ ss, WellMade s) :
    (ofMembers (distinct (flattenAll ss))).Everywhere Part.ValuesBuilt :=
  everywhere_ofMembers (fun _ => trivial) fun _ ht =>
    everywhere_flattenAll (fun s hs => (h s hs).values) (mem_of_mem_distinctBy ht)

theorem wellMade_unionOf {ss : List TypeSpec} {u : TypeSpec} (h : ∀ s ∈ ss, WellMade s)
    (made : unionOf ss = .ok u) : WellMade u :=
  ⟨.union (fun s hs => (h s hs).built) made, eq_of_unionOf made ▸ values_ofMembers h⟩

theorem wellMade_or {s t : TypeSpec} (hs : WellMade s) (ht : WellMade t) : WellMade (s.or t) :=
  ⟨.or hs.built ht.built, or_eq s t ▸ values_ofMembers (by simpa using ⟨hs, ht⟩)⟩

theorem SameMembers.of_mem_iff {ss ts : List TypeSpec} (h : ∀ s ∈ ss, WellMade s) (nonempty : ss ≠ [])
    (same : ∀ s, s ∈ ss ↔ s ∈ ts) : SameMembers ss ts := by
  obtain ⟨s, hs⟩ := List.exists_mem_of_ne_nil ss nonempty
  have members : ∀ t, t ∈ flattenAll ss ↔ t ∈ flattenAll ts := by simp [mem_flattenAll, same]
  refine ⟨fun t ht => h t ((same t).2 ht), List.ne_nil_of_mem ((same s).1 hs), ?_, ?_⟩
  · exact .of_subset (fun t _ => t.equal_refl) fun t => (members t).1
  · exact .of_subset (fun t _ => t.equal_refl) fun t => (members t).2

/-- Members gathered in a union are still there, up to equality. -/
theorem SameMembers.of_nested {before group after : List TypeSpec} {u : TypeSpec}
    (h : ∀ s ∈ before ++ group ++ after, WellMade s) (made : unionOf group = .ok u) :
    SameMembers (before ++ group ++ after) (before ++ u :: after) := by
  simp only [List.mem_append, or_imp, forall_and] at h
  obtain ⟨⟨hb, hg⟩, ha⟩ := h
  have self : ∀ {ts : List TypeSpec}, ∀ t ∈ ts, t.equal t := fun t _ => t.equal_refl
  have members : u.flatten = distinct (flattenAll group) := flatten_unionOf made
  have there : Covered TypeSpec.equal (flattenAll group) u.flatten :=
    members ▸ covered_distinctBy self
  have back : Covered TypeSpec.equal u.flatten (flattenAll group) :=
    members ▸ .of_subset self fun t => mem_of_mem_distinctBy
  refine ⟨fun t ht => ?_, by simp, ?_, ?_⟩
  · rcases List.mem_append.1 ht with ht | ht
    · exact hb t ht
    · rcases List.mem_cons.1 ht with rfl | ht
      · exact wellMade_unionOf hg made
      · exact ha t ht
  all_goals
    rw [flattenAll_append, flattenAll_append, flattenAll_append, flattenAll, List.append_assoc]
  · exact .append (.of_subset self (List.Subset.refl _))
      (.append there (.of_subset self (List.Subset.refl _)))
  · exact .append (.of_subset self (List.Subset.refl _))
      (.append back (.of_subset self (List.Subset.refl _)))

/-- However specs are reordered, repeated and nested, their members stay the same. -/
theorem Regrouped.sameMembers {ss ts : List TypeSpec} (regrouped : Regrouped ss ts)
    (h : ∀ s ∈ ss, WellMade s) (nonempty : ss ≠ []) : SameMembers ss ts := by
  induction regrouped with
  | reordered perm => exact .of_mem_iff h nonempty fun s => perm.mem_iff
  | repeated mem =>
    refine .of_mem_iff h nonempty fun s => ?_
    rw [List.mem_cons]
    exact ⟨.inr, fun hs => hs.elim (· ▸ mem) id⟩
  | nested made => exact .of_nested h made
  | trans _ _ ih ih' =>
    have first := ih h nonempty
    have second := ih' first.wellMade first.nonempty
    exact ⟨second.wellMade, second.nonempty, first.there.trans second.there equal_trans,
      second.back.trans first.back equal_trans⟩

end TypeSpec

end TypeContracts
