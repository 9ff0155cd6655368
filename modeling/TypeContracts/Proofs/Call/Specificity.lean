import Mathlib.Data.List.Zip
import TypeContracts.Call.Overload
import TypeContracts.Proofs.Conformance.Rules
import TypeContracts.Proofs.Host

/-!
Specificity of signatures, by position: each annotation of one conforms to that of the other. Two
signatures that are as specific as each other compete. Under a host that keeps the world, what an
overload set asks of its members comes down to these relations.
Main statements: `OverloadSet.competes_of_asSpecific`, `OverloadSet.ambiguous_still`,
`OverloadSet.resolve_still`.
-/

namespace TypeContracts

open Conformance (annotationConforms annotationConforms_of_equal)

theorem TypeSpec.equalOption_symm {a b : Option TypeSpec} (ha : ∀ t ∈ a, Conformance.WellMade t)
    (hb : ∀ t ∈ b, Conformance.WellMade t) (h : TypeSpec.equalOption a b) :
    TypeSpec.equalOption b a := by
  rw [TypeSpec.equalOption_iff] at h ⊢
  exact optionRel_symm (fun s hs t ht => TypeSpec.equal_swap (ha s hs).tame (hb t ht).tame) h

namespace Signature

/-- The annotations of the parameters were made by the constructors. -/
def WellMade (s : Signature) : Prop := ∀ a ∈ s.annotations, ∀ t ∈ a, Conformance.WellMade t

/-- Equality of annotations that were made by the constructors does not depend on the side. -/
theorem WellMade.equalOption_comm {s t : Signature} (hs : s.WellMade) (ht : t.WellMade) :
    ∀ q ∈ s.annotations.zip t.annotations,
      TypeSpec.equalOption q.1 q.2 = TypeSpec.equalOption q.2 q.1 := by
  intro q hq
  obtain ⟨ha, hb⟩ := List.of_mem_zip hq
  refine Bool.eq_iff_iff.2 ⟨?_, ?_⟩
  · exact TypeSpec.equalOption_symm (hs _ ha) (ht _ hb)
  · exact TypeSpec.equalOption_symm (ht _ hb) (hs _ ha)

end Signature

namespace OverloadSet

open Host (still)

variable (w : World) (p : Probe Id)

/-! ## Specificity -/

/-- Whether two annotations equal each other. -/
def same (a b : Option TypeSpec) : Bool := TypeSpec.equalOption a b && TypeSpec.equalOption b a

theorem same_comm (a b : Option TypeSpec) : same a b = same b a := Bool.and_comm _ _

/-- Whether an annotation is below another one and not the same. -/
def strictlyBelow (a b : Option TypeSpec) : Bool := !same a b && (annotationConforms w p a b).run

/-- Whether at each position the annotation of one signature conforms to the other's. -/
def asSpecific (s t : Signature) : Bool :=
  (s.annotations.zip t.annotations).all fun q => (annotationConforms w p q.1 q.2).run

/-- Whether two signatures have the same annotations, or each is below the other one somewhere. -/
def competes (s t : Signature) : Bool :=
  let pairs := s.annotations.zip t.annotations
  pairs.all (fun q => same q.1 q.2) ||
    (pairs.any (fun q => strictlyBelow w p q.1 q.2) && pairs.any fun q => strictlyBelow w p q.2 q.1)

/-- Whether the annotations of a signature accept the arguments. -/
def accepts (s : Signature) (args : List Value) : Bool :=
  (s.annotations.zip args).all fun q => q.1.all fun t => (Conformance.satisfies w p q.2 t).run

theorem mem_annotations_swap {s t : Signature} {a b : Option TypeSpec} :
    (b, a) ∈ t.annotations.zip s.annotations ↔ (a, b) ∈ s.annotations.zip t.annotations := by
  rw [← List.zip_swap s.annotations, List.mem_map]
  constructor
  · rintro ⟨⟨a, b⟩, hq, ⟨⟩⟩
    exact hq
  · intro hq
    exact ⟨(a, b), hq, rfl⟩

theorem competes_iff {s t : Signature} :
    competes w p s t ↔
      (∀ q ∈ s.annotations.zip t.annotations, same q.1 q.2) ∨
        (∃ q ∈ s.annotations.zip t.annotations, strictlyBelow w p q.1 q.2) ∧
          ∃ q ∈ s.annotations.zip t.annotations, strictlyBelow w p q.2 q.1 := by
  simp only [competes, Bool.or_eq_true, Bool.and_eq_true, List.all_eq_true, List.any_eq_true]

theorem competes_of_swap {s t : Signature} (h : competes w p s t) : competes w p t s := by
  rw [competes_iff] at h ⊢
  rcases h with identical | ⟨⟨⟨a, b⟩, hq, first⟩, ⟨⟨c, d⟩, hr, second⟩⟩
  · refine .inl fun ⟨b, a⟩ hq => ?_
    rw [same_comm]
    exact identical (a, b) (mem_annotations_swap.1 hq)
  · refine .inr ⟨⟨(d, c), ?_, second⟩, ⟨(b, a), ?_, first⟩⟩
    · exact mem_annotations_swap.2 hr
    · exact mem_annotations_swap.2 hq

theorem competes_comm (s t : Signature) : competes w p s t = competes w p t s :=
  Bool.eq_iff_iff.2 ⟨competes_of_swap w p, competes_of_swap w p⟩

/-- Signatures that are as specific as each other compete. -/
theorem competes_of_asSpecific {s t : Signature} (hst : asSpecific w p s t) (hts : asSpecific w p t s) :
    competes w p s t := by
  rw [asSpecific, List.all_eq_true] at hst hts
  rw [competes_iff]
  by_cases identical : ∀ q ∈ s.annotations.zip t.annotations, same q.1 q.2
  · exact .inl identical
  -- where they differ, each annotation is strictly below the other
  simp only [not_forall, Bool.not_eq_true] at identical
  obtain ⟨⟨a, b⟩, hq, different⟩ := identical
  refine .inr ⟨⟨(a, b), hq, ?_⟩, ⟨(a, b), hq, ?_⟩⟩
  · rw [strictlyBelow, different, hst _ hq]
    rfl
  · rw [strictlyBelow, same_comm, different, hts _ (mem_annotations_swap.2 hq)]
    rfl

theorem asSpecific_refl (s : Signature) : asSpecific w p s s := by
  have self : ∀ a, (annotationConforms w p a a).run := by
    intro a
    cases a with
    | none => exact annotationConforms_of_equal .none
    | some t => exact annotationConforms_of_equal (.some t.equal_refl)
  simp [asSpecific, List.zip_eq_zipWith, List.zipWith_self, self]

/-! ## Under a still host -/

theorem narrower_still (a b : Option TypeSpec) :
    narrower (still w p) a b =
      .ok (!TypeSpec.equalOption a b && (annotationConforms w p a b).run) := by
  unfold narrower
  split
  · rename_i equal
    rw [equal]
    rfl
  · rename_i different
    rw [Bool.not_eq_true] at different
    rw [different, annotationConforms.eq_def]
    cases b with
    | none => rfl
    | some t =>
      cases a with
      | none => rfl
      | some s => exact Host.isSubtype_still w p s t

theorem atLeastAsSpecific_still (s t : Signature) :
    atLeastAsSpecific (still w p) s t = .ok (asSpecific w p s t) := by
  refine allM_of_ok fun (a, b) => ?_
  show (if TypeSpec.equalOption a b then _ else _) = _
  split
  · rename_i equal
    rw [annotationConforms_of_equal (TypeSpec.equalOption_iff.1 equal)]
    rfl
  · rename_i different
    rw [narrower_still, (Bool.not_eq_true _).mp different]
    rfl

theorem applicable_still (s : Signature) (args : List Value) :
    applicable (still w p) s args = .ok (accepts w p s args) := by
  refine allM_of_ok fun (a, v) => ?_
  cases a with
  | none => rfl
  | some t => exact Host.satisfies_still w p v t

/-- One more position, for annotations whose equality does not depend on the side. -/
theorem compareAt_still {a b : Option TypeSpec}
    (symm : TypeSpec.equalOption a b = TypeSpec.equalOption b a) (st : Standing) :
    compareAt (still w p) st a b =
      .ok ⟨st.identical && same a b, st.firstNarrower || strictlyBelow w p a b,
        st.secondNarrower || strictlyBelow w p b a⟩ := by
  unfold compareAt
  rw [narrower_still, narrower_still, strictlyBelow, strictlyBelow, same, same, ← symm, Bool.and_self]
  cases TypeSpec.equalOption a b <;> simp [bind, Except.bind, pure, Except.pure]

theorem foldlM_compareAt_still {pairs : List (Option TypeSpec × Option TypeSpec)}
    (symm : ∀ q ∈ pairs, TypeSpec.equalOption q.1 q.2 = TypeSpec.equalOption q.2 q.1) (st : Standing) :
    pairs.foldlM (fun s (a, b) => compareAt (still w p) s a b) st =
      .ok ⟨st.identical && pairs.all (fun q => same q.1 q.2),
        st.firstNarrower || pairs.any (fun q => strictlyBelow w p q.1 q.2),
        st.secondNarrower || pairs.any (fun q => strictlyBelow w p q.2 q.1)⟩ := by
  induction pairs generalizing st with
  | nil => simp [pure, Except.pure]
  | cons q pairs ih =>
    obtain ⟨first, rest⟩ := List.forall_mem_cons.1 symm
    rw [List.foldlM_cons]
    dsimp only
    rw [compareAt_still w p first]
    refine (ih rest _).trans ?_
    simp only [List.all_cons, List.any_cons, Bool.and_assoc, Bool.or_assoc]

/-- Ambiguity is competition, for signatures whose annotations are equal on both sides or on none. -/
theorem ambiguous_still {s t : Signature}
    (symm : ∀ q ∈ s.annotations.zip t.annotations,
      TypeSpec.equalOption q.1 q.2 = TypeSpec.equalOption q.2 q.1) :
    ambiguous (still w p) s t = .ok (competes w p s t) := by
  unfold ambiguous
  rw [foldlM_compareAt_still w p symm]
  simp [competes, bind, Except.bind, pure, Except.pure]

/-! ## The other way round

Two signatures are compared at each position both ways, so the comparison comes out with a result whichever
comes first, or it does for neither. -/

section swap

variable {ε : Type} {k : Host (Except ε)}

/-- How the second signature stands to the first. -/
def Standing.swap (st : Standing) : Standing := ⟨st.identical, st.secondNarrower, st.firstNarrower⟩

theorem compareAt_swap {a b : Option TypeSpec}
    (symm : TypeSpec.equalOption a b = TypeSpec.equalOption b a) {st st' : Standing}
    (h : compareAt k st a b = .ok st') : compareAt k st.swap b a = .ok st'.swap := by
  unfold compareAt at h ⊢
  rw [← symm]
  split at h
  · rename_i equal
    cases h
    rw [if_pos equal]
    rfl
  · rename_i different
    -- both directions came out with a result, so they do in the other order too
    obtain ⟨first, hfirst, h⟩ := exists_ok_of_bind h
    obtain ⟨second, hsecond, h⟩ := exists_ok_of_bind h
    cases h
    rw [if_neg different, hfirst, hsecond]
    rfl

theorem foldlM_compareAt_swap {pairs : List (Option TypeSpec × Option TypeSpec)}
    (symm : ∀ q ∈ pairs, TypeSpec.equalOption q.1 q.2 = TypeSpec.equalOption q.2 q.1)
    {st st' : Standing} (h : pairs.foldlM (fun s (a, b) => compareAt k s a b) st = .ok st') :
    (pairs.map Prod.swap).foldlM (fun s (a, b) => compareAt k s a b) st.swap = .ok st'.swap := by
  induction pairs generalizing st with
  | nil =>
    cases h
    rfl
  | cons q pairs ih =>
    obtain ⟨first, rest⟩ := List.forall_mem_cons.1 symm
    rw [List.foldlM_cons] at h
    obtain ⟨st₁, step, h⟩ := exists_ok_of_bind h
    have step' := compareAt_swap first step
    rw [List.map_cons, List.foldlM_cons]
    dsimp only [Prod.swap]
    rw [step']
    exact ih rest h

/-- Ambiguity does not depend on which signature comes first. -/
theorem ambiguous_swap {s t : Signature}
    (symm : ∀ q ∈ s.annotations.zip t.annotations,
      TypeSpec.equalOption q.1 q.2 = TypeSpec.equalOption q.2 q.1) {b : Bool}
    (h : ambiguous k s t = .ok b) : ambiguous k t s = .ok b := by
  obtain ⟨st, compared, h⟩ := exists_ok_of_bind h
  cases h
  have swapped := foldlM_compareAt_swap symm compared
  rw [List.zip_swap] at swapped
  show (t.annotations.zip s.annotations).foldlM _ (Standing.swap ⟨true, false, false⟩) >>= _ = _
  rw [swapped]
  show Except.ok (st.identical || (st.secondNarrower && st.firstNarrower)) = _
  rw [Bool.and_comm]

end swap

/-! ## Choice -/

/-- The overloads with as many parameters as there are arguments whose annotations accept them. -/
def candidates (set : OverloadSet) (args : List Value) : List Overload :=
  set.overloads.filter fun o =>
    o.signature.params.length == args.length && accepts w p o.signature args

/-- Whether an overload is as specific as each one of a list. -/
def leads (os : List Overload) (o : Overload) : Bool :=
  os.all fun other => asSpecific w p o.signature other.signature

/-- The members of a set that are found by their number of parameters and then tested. -/
theorem filter_ofArity (set : OverloadSet) (n : Nat) (f : Overload → Bool) :
    ((set.ofArity n).filter fun o => f o.1).map (·.1) =
      set.overloads.filter fun o => o.signature.params.length == n && f o := by
  conv_rhs => rw [← List.attach_map_subtype_val set.overloads, List.filter_map]
  unfold ofArity
  rw [List.filter_filter]
  congr 2
  funext o
  exact Bool.and_comm _ _

/-- The first of the candidates that leads them. It is the overload that `resolve` finds. -/
def choice? (set : OverloadSet) (args : List Value) : Option Overload :=
  (set.candidates w p args).find? (leads w p (set.candidates w p args))

theorem resolve_still (set : OverloadSet) (args : List Value) :
    (set.resolve (still w p) args).map Subtype.val =
      match set.choice? w p args with
      | some o => .ok o
      | none => .error (.functionNotFound set.name (args.map (·.classOf.name))) := by
  let found := (set.ofArity args.length).filter fun o => accepts w p o.1.signature args
  have candidates : set.candidates w p args = found.map (·.1) := (filter_ofArity _ _ _).symm
  have applicable : (set.ofArity args.length).filterM
      (fun o => applicable (still w p) o.1.signature args) = .ok found :=
    filterM_of_ok fun o => applicable_still w p o.1.signature args
  have mostSpecific : set.mostSpecific? (still w p) found =
      .ok (found.find? fun o => leads w p (set.candidates w p args) o.1) := by
    refine findM?_of_ok fun o _ => ?_
    rw [candidates, leads, List.all_map]
    exact allM_of_ok fun q => atLeastAsSpecific_still w p o.1.signature q.1.signature
  have choice : set.choice? w p args =
      (found.find? fun o => leads w p (set.candidates w p args) o.1).map (·.1) := by
    rw [choice?]
    conv_lhs => rw [candidates, List.find?_map, ← candidates]
    rfl
  unfold resolve
  rw [applicable, choice]
  show (set.mostSpecific? (still w p) found >>= _).map _ = _
  rw [mostSpecific]
  show (Except.ok _ >>= _).map _ = _
  cases found.find? fun o => leads w p (set.candidates w p args) o.1 with
  | none => rfl
  | some o => rfl

variable {w p}

theorem resolve_of_choice?_eq_some {set : OverloadSet} {args : List Value} {o : Overload}
    (h : set.choice? w p args = some o) :
    (set.resolve (still w p) args).map (·.1.function) = .ok o.function := by
  have resolved := resolve_still w p set args
  rw [h] at resolved
  obtain ⟨found, chosen, rfl⟩ := exists_ok_of_map resolved
  rw [chosen]
  rfl

theorem resolve_of_choice?_eq_none {set : OverloadSet} {args : List Value}
    (h : set.choice? w p args = none) :
    set.resolve (still w p) args =
      .error (.functionNotFound set.name (args.map (·.classOf.name))) := by
  have resolved := resolve_still w p set args
  rw [h] at resolved
  exact eq_error_of_map resolved

end OverloadSet

end TypeContracts
