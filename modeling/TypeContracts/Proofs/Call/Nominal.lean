import Mathlib.Data.List.Pairwise
import TypeContracts.Proofs.Call.Overload

/-!
Overload sets over classes: each parameter is annotated with a class or not at all. The classes above
the class of an argument form a chain, so of the members that accept the arguments of a call any two can
be compared at each position. As they do not compete, one of the two is as specific as the other, and
then one of them all is as specific as each: a call never fails because several members accept it.
Main statements: `OverloadSet.asSpecific_or_asSpecific`, `OverloadSet.resolve_nominal`.
-/

namespace TypeContracts

open Conformance (annotationConforms annotationConforms_iff)

/-- A list in which any two elements can be compared has a least element. -/
theorem exists_least {α : Type} {r : α → α → Prop} {xs : List α} (nonempty : xs ≠ [])
    (total : ∀ x ∈ xs, ∀ y ∈ xs, r x y ∨ r y x)
    (trans : ∀ x ∈ xs, ∀ y ∈ xs, ∀ z ∈ xs, r x y → r y z → r x z) :
    ∃ x ∈ xs, ∀ y ∈ xs, r x y := by
  induction xs with
  | nil => exact absurd rfl nonempty
  | cons x xs ih =>
    have own : r x x := (total x List.mem_cons_self x List.mem_cons_self).elim id id
    by_cases rest : xs = []
    · subst rest
      exact ⟨x, List.mem_cons_self, List.forall_mem_singleton.2 own⟩
    obtain ⟨least, mem, below⟩ := ih rest
      (fun y hy z hz => total y (.tail _ hy) z (.tail _ hz))
      (fun y hy z hz u hu => trans y (.tail _ hy) z (.tail _ hz) u (.tail _ hu))
    rcases total x List.mem_cons_self least (.tail _ mem) with h | h
    · refine ⟨x, List.mem_cons_self, List.forall_mem_cons.2 ⟨own, fun y hy => ?_⟩⟩
      exact trans x List.mem_cons_self least (.tail _ mem) y (.tail _ hy) h (below y hy)
    · exact ⟨least, .tail _ mem, List.forall_mem_cons.2 ⟨h, below⟩⟩

/-! ## Annotations by classes -/

/-- An annotation is a class or missing. -/
def NominalAnnotation (a : Option TypeSpec) : Prop := ∀ t ∈ a, ∃ c, t = .plain c

/-- A value is an instance of the class that an annotation names, if it names one. -/
inductive Admits : Option TypeSpec → Value → Prop where
  | anything (v : Value) : Admits none v
  | ofClass {c : Class} {v : Value} (h : v.classOf.isSubclassOf c) : Admits (some (.plain c)) v

/-- An annotation is equal to another one or narrower. A missing one is the widest. -/
inductive Within : Option TypeSpec → Option TypeSpec → Prop where
  | anything (a : Option TypeSpec) : Within a none
  | subclass {c d : Class} (h : c.isSubclassOf d) : Within (some (.plain c)) (some (.plain d))

theorem Within.refl {a : Option TypeSpec} (h : NominalAnnotation a) : Within a a := by
  cases a with
  | none => exact .anything none
  | some t =>
    obtain ⟨c, rfl⟩ := h t rfl
    exact .subclass c.isSubclassOf_refl

theorem Within.trans {a b c : Option TypeSpec} (hab : Within a b) (hbc : Within b c) :
    Within a c := by
  cases hbc with
  | anything => exact .anything a
  | subclass hbc =>
    cases hab with
    | subclass hab => exact .subclass (Class.isSubclassOf_trans hab hbc)

/-- Annotations that admit the same value can be compared. -/
theorem Admits.within_or_within {a b : Option TypeSpec} {v : Value} (ha : Admits a v)
    (hb : Admits b v) : Within a b ∨ Within b a := by
  cases ha with
  | anything => exact .inr (.anything b)
  | ofClass ha =>
    cases hb with
    | anything => exact .inl (.anything _)
    | ofClass hb => exact (Class.isSubclassOf_or_isSubclassOf ha hb).imp .subclass .subclass

namespace Signature

/-- Each parameter is annotated with a class or not at all. -/
def Nominal (s : Signature) : Prop := ∀ a ∈ s.annotations, NominalAnnotation a

theorem Nominal.wellMade {s : Signature} (h : s.Nominal) : s.WellMade := by
  intro a ha t ht
  obtain ⟨c, rfl⟩ := h a ha t ht
  exact Conformance.wellMade_plain c

end Signature

namespace OverloadSet

open Host (still)

variable (w : World) (p : Probe Id)

/-! ## Comparison at each position -/

section comparable

variable {w p} {s t : Signature}

/-- A signature is as specific as one that it can be compared with and that is nowhere below it. -/
theorem asSpecific_of_not_strictlyBelow
    (comparable : ∀ q ∈ s.annotations.zip t.annotations,
      (annotationConforms w p q.1 q.2).run ∨ (annotationConforms w p q.2 q.1).run)
    (above : ∀ q ∈ s.annotations.zip t.annotations, strictlyBelow w p q.2 q.1 = false) :
    asSpecific w p s t := by
  rw [asSpecific, List.all_eq_true]
  intro q hq
  rcases comparable q hq with h | h
  · exact h
  -- the other annotation is below this one, so it is the same
  have identical : same q.2 q.1 := by simpa [strictlyBelow, h] using above q hq
  rw [same_comm, same, Bool.and_eq_true] at identical
  exact Conformance.annotationConforms_of_equal (TypeSpec.equalOption_iff.1 identical.1)

/-- If the annotations can be compared at each position, then of two signatures that do not compete one
is as specific as the other. -/
theorem asSpecific_or_asSpecific (apart : competes w p s t = false)
    (comparable : ∀ q ∈ s.annotations.zip t.annotations,
      (annotationConforms w p q.1 q.2).run ∨ (annotationConforms w p q.2 q.1).run) :
    asSpecific w p s t ∨ asSpecific w p t s := by
  have uncrossed : ¬ competes w p s t := by simp [apart]
  rw [competes_iff, not_or, not_and] at uncrossed
  by_cases below : ∃ q ∈ s.annotations.zip t.annotations, strictlyBelow w p q.1 q.2
  · left
    apply asSpecific_of_not_strictlyBelow comparable
    simpa using uncrossed.2 below
  · right
    apply asSpecific_of_not_strictlyBelow
    · intro q hq
      exact (comparable q.swap (mem_annotations_swap.1 hq)).symm
    · intro q hq
      simp only [not_exists, not_and, Bool.not_eq_true] at below
      exact below q.swap (mem_annotations_swap.1 hq)

end comparable

/-- Between classes an annotation conforms exactly to those that it is within. -/
theorem annotationConforms_iff_within {a b : Option TypeSpec} (ha : NominalAnnotation a)
    (hb : NominalAnnotation b) : (annotationConforms w p a b).run ↔ Within a b := by
  rw [annotationConforms_iff]
  cases b with
  | none => exact ⟨fun _ => .anything a, fun _ _ h => by cases h⟩
  | some t =>
    obtain ⟨d, rfl⟩ := hb t rfl
    constructor
    · intro h
      obtain ⟨s, hs, below⟩ := h _ rfl
      cases hs
      obtain ⟨c, rfl⟩ := ha s rfl
      exact .subclass (Conformance.plain_isSubtype_plain_iff.1 below)
    · rintro (_ | below) _ ⟨⟩
      exact ⟨_, rfl, Conformance.plain_isSubtype_plain_iff.2 below⟩

/-- Competition among classes is the same in every world. -/
theorem competes_of_nominal {s t : Signature} (hs : s.Nominal) (ht : t.Nominal) (w w' : World)
    (p p' : Probe Id) : competes w p s t = competes w' p' s t := by
  have settled : ∀ {a b : Option TypeSpec}, NominalAnnotation a → NominalAnnotation b →
      strictlyBelow w p a b = strictlyBelow w' p' a b := by
    intro a b ha hb
    have conforms : (annotationConforms w p a b).run = (annotationConforms w' p' a b).run := by
      rw [Bool.eq_iff_iff, annotationConforms_iff_within _ _ ha hb, annotationConforms_iff_within _ _ ha hb]
    rw [strictlyBelow, strictlyBelow, conforms]
  have nominal : ∀ q ∈ s.annotations.zip t.annotations, NominalAnnotation q.1 ∧ NominalAnnotation q.2 := by
    intro q hq
    obtain ⟨h, h'⟩ := List.of_mem_zip hq
    exact ⟨hs q.1 h, ht q.2 h'⟩
  rw [Bool.eq_iff_iff, competes_iff, competes_iff]
  apply or_congr Iff.rfl
  apply and_congr
  · apply exists_congr
    intro q
    apply and_congr_right
    intro hq
    rw [settled (nominal q hq).1 (nominal q hq).2]
  · apply exists_congr
    intro q
    apply and_congr_right
    intro hq
    rw [settled (nominal q hq).2 (nominal q hq).1]

/-! ## Registration -/

/-- The sets that the registration of nominal functions makes, one after another, each in the world of
its time. -/
inductive Registered (name : String) : List Function → OverloadSet → Prop where
  | empty : Registered name [] (empty name)
  | add {fs : List Function} {set set' : OverloadSet} {f : Function} (w : World) (p : Probe Id)
      (before : Registered name fs set) (nominal : ∀ s ∈ f.signature, s.Nominal)
      (added : set.add (still w p) f = .ok set') : Registered name (fs ++ [f]) set'

/-- What registration keeps: the members are the functions in order, with their own signatures, and they
do not compete in any world. -/
structure KeptApart (name : String) (fs : List Function) (set : OverloadSet) : Prop where
  name : set.name = name
  functions : set.overloads.map (·.function) = fs
  signature : ∀ o ∈ set.overloads, o.function.signature = some o.signature
  nominal : ∀ o ∈ set.overloads, o.signature.Nominal
  apart : ∀ w p, set.overloads.Pairwise (Apart w p)

/-- One more function. -/
theorem KeptApart.add {w : World} {p : Probe Id} {name : String} {fs : List Function}
    {set set' : OverloadSet} {f : Function} (h : KeptApart name fs set)
    (nominal : ∀ s ∈ f.signature, s.Nominal) (added : set.add (still w p) f = .ok set') :
    KeptApart name (fs ++ [f]) set' := by
  obtain ⟨o, accepted, apart, rfl⟩ :=
    (add_still_iff (fun s hs => (nominal s hs).wellMade) fun o ho => (h.nominal o ho).wellMade).1 added
  obtain ⟨rfl, signature, -⟩ := of_overload?_eq_some accepted
  have own : o.signature.Nominal := nominal _ signature
  constructor
  case name => exact h.name
  case functions => simp [h.functions]
  case signature =>
    rw [List.forall_mem_append, List.forall_mem_singleton]
    exact ⟨h.signature, signature⟩
  case nominal =>
    rw [List.forall_mem_append, List.forall_mem_singleton]
    exact ⟨h.nominal, own⟩
  case apart =>
    intro w' p'
    rw [List.pairwise_append]
    refine ⟨h.apart w' p', List.pairwise_singleton _ _, ?_⟩
    rintro other hother q hq len
    cases List.mem_singleton.1 hq
    rw [competes_of_nominal (h.nominal other hother) own w' w p' p]
    exact (apart other hother).symm len

theorem KeptApart.apart_of_ne {w : World} {p : Probe Id} {name : String} {fs : List Function}
    {set : OverloadSet} (h : KeptApart name fs set) {o other : Overload} (ho : o ∈ set.overloads)
    (hother : other ∈ set.overloads) (different : o ≠ other) : Apart w p o other := by
  have : Std.Symm (Apart w p) := ⟨fun _ _ => Apart.symm⟩
  exact (h.apart w p).forall ho hother different

theorem Registered.keptApart {name : String} {fs : List Function} {set : OverloadSet}
    (h : Registered name fs set) : KeptApart name fs set := by
  induction h with
  | empty => exact ⟨rfl, rfl, nofun, nofun, fun _ _ => .nil⟩
  | add w p before nominal added ih => exact ih.add nominal added

/-! ## Choice -/

section choice

variable {w p} {name : String} {fs : List Function} {set : OverloadSet} {args : List Value}
  {o other : Overload}

theorem accepts_iff_admits {s : Signature} (nominal : s.Nominal)
    (len : s.annotations.length = args.length) :
    accepts w p s args ↔ List.Forall₂ Admits s.annotations args := by
  have admits : ∀ a ∈ s.annotations, ∀ v ∈ args,
      (a.all fun t => (Conformance.satisfies w p v t).run) ↔ Admits a v := by
    intro a ha v _
    cases a with
    | none => exact ⟨fun _ => .anything v, fun _ => rfl⟩
    | some t =>
      obtain ⟨c, rfl⟩ := nominal _ ha t rfl
      rw [Option.all_some, Conformance.satisfies_plain]
      exact ⟨.ofClass, fun h => by cases h; assumption⟩
  rw [accepts, all_zip_iff (f := fun a v => a.all fun t => (Conformance.satisfies w p v t).run) len]
  constructor
  · exact forall₂_imp_of_mem fun a ha v hv => (admits a ha v hv).1
  · exact forall₂_imp_of_mem fun a ha v hv => (admits a ha v hv).2

theorem asSpecific_iff_within {s t : Signature} (hs : s.Nominal) (ht : t.Nominal)
    (len : s.annotations.length = t.annotations.length) :
    asSpecific w p s t ↔ List.Forall₂ Within s.annotations t.annotations := by
  rw [asSpecific, all_zip_iff (f := fun a b => (annotationConforms w p a b).run) len]
  constructor
  · exact forall₂_imp_of_mem fun a ha b hb => (annotationConforms_iff_within w p (hs a ha) (ht b hb)).1
  · exact forall₂_imp_of_mem fun a ha b hb => (annotationConforms_iff_within w p (hs a ha) (ht b hb)).2

namespace KeptApart

variable (h : KeptApart name fs set)

include h

/-- The candidates for a call are the members whose annotations admit the arguments one by one. -/
theorem mem_candidates_iff :
    o ∈ set.candidates w p args ↔
      o ∈ set.overloads ∧ List.Forall₂ Admits o.signature.annotations args := by
  rw [candidates, List.mem_filter, Bool.and_eq_true, beq_iff_eq]
  apply and_congr_right
  intro ho
  have len : o.signature.annotations.length = o.signature.params.length := List.length_map _
  constructor
  · rintro ⟨count, accepted⟩
    exact (accepts_iff_admits (h.nominal o ho) (len.trans count)).1 accepted
  · intro admitted
    have count := admitted.length_eq
    exact ⟨len.symm.trans count, (accepts_iff_admits (h.nominal o ho) count).2 admitted⟩

/-- Among candidates it is the same to be as specific as another one and to be within it. -/
theorem asSpecific_iff (ho : o ∈ set.candidates w p args) (hother : other ∈ set.candidates w p args) :
    asSpecific w p o.signature other.signature ↔
      List.Forall₂ Within o.signature.annotations other.signature.annotations := by
  obtain ⟨mem, admitted⟩ := h.mem_candidates_iff.1 ho
  obtain ⟨mem', admitted'⟩ := h.mem_candidates_iff.1 hother
  exact asSpecific_iff_within (h.nominal o mem) (h.nominal other mem')
    (admitted.length_eq.trans admitted'.length_eq.symm)

/-- Of two candidates one is as specific as the other. -/
theorem asSpecific_total (ho : o ∈ set.candidates w p args)
    (hother : other ∈ set.candidates w p args) :
    asSpecific w p o.signature other.signature ∨ asSpecific w p other.signature o.signature := by
  obtain ⟨mem, admitted⟩ := h.mem_candidates_iff.1 ho
  obtain ⟨mem', admitted'⟩ := h.mem_candidates_iff.1 hother
  by_cases same : o = other
  · subst same
    left
    rw [h.asSpecific_iff ho ho]
    exact List.forall₂_same.2 fun a ha => Within.refl (h.nominal o mem a ha)
  have comparable : List.Forall₂ (fun a b => Within a b ∨ Within b a) o.signature.annotations
      other.signature.annotations :=
    forall₂_trans (fun a _ v _ b _ ha hb => ha.within_or_within hb) admitted admitted'.flip
  apply asSpecific_or_asSpecific
  · apply h.apart_of_ne mem mem' same
    simpa [Signature.annotations] using comparable.length_eq
  · intro q hq
    obtain ⟨hs, ht⟩ := List.of_mem_zip hq
    have ha := h.nominal o mem q.1 hs
    have hb := h.nominal other mem' q.2 ht
    rw [annotationConforms_iff_within w p ha hb, annotationConforms_iff_within w p hb ha]
    exact List.forall₂_zip comparable hq

/-- One of the candidates, if there are any, is as specific as each of them. -/
theorem exists_leads (nonempty : set.candidates w p args ≠ []) :
    ∃ o ∈ set.candidates w p args, leads w p (set.candidates w p args) o := by
  simp only [leads, List.all_eq_true]
  apply exists_least nonempty
  · intro o ho other hother
    exact h.asSpecific_total ho hother
  · intro o ho other hother third hthird first second
    rw [h.asSpecific_iff ho hother] at first
    rw [h.asSpecific_iff hother hthird] at second
    rw [h.asSpecific_iff ho hthird]
    exact forall₂_trans (fun _ _ _ _ _ _ hab hbc => hab.trans hbc) first second

/-- No two candidates are both as specific as each one. -/
theorem eq_of_leads (ho : o ∈ set.candidates w p args) (hother : other ∈ set.candidates w p args)
    (first : leads w p (set.candidates w p args) o)
    (second : leads w p (set.candidates w p args) other) : o = other := by
  by_contra different
  rw [leads, List.all_eq_true] at first second
  obtain ⟨mem, admitted⟩ := h.mem_candidates_iff.1 ho
  obtain ⟨mem', admitted'⟩ := h.mem_candidates_iff.1 hother
  have len : o.signature.params.length = other.signature.params.length := by
    simpa [Signature.annotations] using admitted.length_eq.trans admitted'.length_eq.symm
  have apart := h.apart_of_ne (w := w) (p := p) mem mem' different len
  rw [competes_of_asSpecific w p (first other hother) (second o ho)] at apart
  cases apart

/-- The overload that is chosen is the one that is as specific as each candidate. -/
theorem choice?_eq_some_iff :
    set.choice? w p args = some o ↔
      o ∈ set.candidates w p args ∧ leads w p (set.candidates w p args) o := by
  constructor
  · intro chosen
    exact ⟨List.mem_of_find?_eq_some chosen, List.find?_some chosen⟩
  · rintro ⟨ho, leading⟩
    rcases chosen : set.choice? w p args with _ | other
    · exact absurd leading (List.find?_eq_none.1 chosen o ho)
    · have hother := List.mem_of_find?_eq_some chosen
      rw [h.eq_of_leads ho hother leading (List.find?_some chosen)]

end KeptApart

end choice

end OverloadSet

/-! ## Calls -/

namespace Function

/-- A function takes the arguments: there is one for each parameter, which its annotation admits. -/
def Takes (f : Function) (args : List Value) : Prop :=
  ∃ s, f.signature = some s ∧ List.Forall₂ Admits s.annotations args

/-- At each position the annotation of one function is equal to that of another one or narrower. -/
def Within (f g : Function) : Prop :=
  ∃ s t, f.signature = some s ∧ g.signature = some t ∧
    List.Forall₂ TypeContracts.Within s.annotations t.annotations

/-- A function takes the arguments and is within each one of `fs` that takes them. -/
def LeadsAmong (fs : List Function) (args : List Value) (f : Function) : Prop :=
  f ∈ fs ∧ f.Takes args ∧ ∀ g ∈ fs, g.Takes args → f.Within g

end Function

namespace OverloadSet

open Host (still)

variable {w : World} {p : Probe Id} {name : String} {fs : List Function} {set : OverloadSet}
  {args : List Value}

theorem KeptApart.mem_and_takes_iff (h : KeptApart name fs set) {f : Function} :
    f ∈ fs ∧ f.Takes args ↔ ∃ o ∈ set.candidates w p args, o.function = f := by
  simp only [h.mem_candidates_iff, ← h.functions, List.mem_map]
  constructor
  · rintro ⟨⟨o, ho, rfl⟩, s, signature, admitted⟩
    cases (h.signature o ho).symm.trans signature
    exact ⟨o, ⟨ho, admitted⟩, rfl⟩
  · rintro ⟨o, ⟨ho, admitted⟩, rfl⟩
    exact ⟨⟨o, ho, rfl⟩, o.signature, h.signature o ho, admitted⟩

theorem KeptApart.leadsAmong_iff (h : KeptApart name fs set) {f : Function} :
    f.LeadsAmong fs args ↔ ∃ o, set.choice? w p args = some o ∧ o.function = f := by
  have within : ∀ o ∈ set.candidates w p args, ∀ other ∈ set.candidates w p args,
      o.function.Within other.function ↔ asSpecific w p o.signature other.signature := by
    intro o ho other hother
    rw [h.asSpecific_iff ho hother]
    have signature := h.signature o (h.mem_candidates_iff.1 ho).1
    have signature' := h.signature other (h.mem_candidates_iff.1 hother).1
    constructor
    · rintro ⟨s, t, hs, ht, within⟩
      cases signature.symm.trans hs
      cases signature'.symm.trans ht
      exact within
    · intro within
      exact ⟨_, _, signature, signature', within⟩
  simp only [h.choice?_eq_some_iff, leads, List.all_eq_true]
  constructor
  · rintro ⟨mem, takes, leading⟩
    obtain ⟨o, ho, rfl⟩ := (h.mem_and_takes_iff (w := w) (p := p)).1 ⟨mem, takes⟩
    refine ⟨o, ⟨ho, fun other hother => ?_⟩, rfl⟩
    obtain ⟨mem', takes'⟩ := (h.mem_and_takes_iff (w := w) (p := p)).2 ⟨other, hother, rfl⟩
    exact (within o ho other hother).1 (leading other.function mem' takes')
  · rintro ⟨o, ⟨ho, leading⟩, rfl⟩
    obtain ⟨mem, takes⟩ := (h.mem_and_takes_iff (w := w) (p := p)).2 ⟨o, ho, rfl⟩
    refine ⟨mem, takes, fun g hg takesG => ?_⟩
    obtain ⟨other, hother, rfl⟩ := (h.mem_and_takes_iff (w := w) (p := p)).1 ⟨hg, takesG⟩
    exact (within o ho other hother).2 (leading other hother)

/-- Some function takes the arguments exactly if an overload is chosen for them. -/
theorem KeptApart.exists_takes_iff (h : KeptApart name fs set) :
    (∃ f ∈ fs, f.Takes args) ↔ ∃ o, set.choice? w p args = some o := by
  constructor
  · rintro ⟨f, mem, takes⟩
    obtain ⟨o, ho, -⟩ := (h.mem_and_takes_iff (w := w) (p := p)).1 ⟨mem, takes⟩
    obtain ⟨first, hfirst, leading⟩ := h.exists_leads (List.ne_nil_of_mem ho)
    exact ⟨first, h.choice?_eq_some_iff.2 ⟨hfirst, leading⟩⟩
  · rintro ⟨o, chosen⟩
    obtain ⟨ho, -⟩ := h.choice?_eq_some_iff.1 chosen
    obtain ⟨mem, takes⟩ := h.mem_and_takes_iff.2 ⟨o, ho, rfl⟩
    exact ⟨o.function, mem, takes⟩

/-- Among nominal functions a call finds an overload if and only if some function takes the arguments.
The function that it finds is the only one that takes them and is at each position equal to or narrower
than every other one that does. -/
theorem resolve_nominal (registered : Registered name fs set) (w : World) (p : Probe Id)
    (args : List Value) :
    ((∃ o, set.resolve (still w p) args = .ok o) ↔ ∃ f ∈ fs, f.Takes args) ∧
      (∀ f : Function, (set.resolve (still w p) args).map (·.1.function) = .ok f →
        f.LeadsAmong fs args ∧ ∀ g : Function, g.LeadsAmong fs args → g = f) ∧
      ((¬ ∃ f ∈ fs, f.Takes args) → set.resolve (still w p) args =
        .error (.functionNotFound name (args.map (·.classOf.name)))) := by
  have h := registered.keptApart
  rw [h.exists_takes_iff (w := w) (p := p)]
  rcases choice : set.choice? w p args with _ | o
  · have missing := resolve_of_choice?_eq_none choice
    rw [h.name] at missing
    simp [missing, Except.map]
  · have chosen := resolve_of_choice?_eq_some choice
    obtain ⟨found, resolved, -⟩ := exists_ok_of_map chosen
    refine ⟨by simp [resolved], fun f result => ?_, by simp⟩
    obtain rfl : o.function = f := Except.ok.inj (chosen.symm.trans result)
    refine ⟨h.leadsAmong_iff.2 ⟨o, choice, rfl⟩, fun g leading => ?_⟩
    obtain ⟨other, choice', rfl⟩ := h.leadsAmong_iff.1 leading
    cases choice.symm.trans choice'
    rfl

/-- Three functions take a truth value and a text. The one for truth values and texts is chosen, which is
within the one for integers, which is within the one for anything. -/
theorem pair_resolve_nominal :
    let p : Probe Id := ⟨fun _ _ => false, fun _ => ()⟩
    let pair (key : Nat) (first second : Option TypeSpec) : Overload :=
      let s := ⟨[⟨"x", .positional, first, none⟩, ⟨"y", .positional, second, none⟩], none⟩
      ⟨⟨.declared key "pair", some s, .host key⟩, s⟩
    let anything := pair 1 none none
    let number := pair 2 (some (.plain .int)) none
    let truth := pair 3 (some (.plain .bool)) (some (.plain .str))
    let args := [.bool true, .str "a"]
    ∃ set, Registered "pair" [anything.function, number.function, truth.function] set ∧
      anything.function.Takes args ∧ number.function.Takes args ∧ truth.function.Takes args ∧
      (set.resolve (still .initial p) args).map (·.1.function) = .ok truth.function := by
  intro p pair anything number truth args
  have takes {key : Nat} {first second : Option TypeSpec} (h : Admits first (.bool true))
      (h' : Admits second (.str "a")) : (pair key first second).function.Takes args :=
    ⟨_, rfl, .cons h (.cons h' .nil)⟩
  have takesAnything : anything.function.Takes args := takes (.anything _) (.anything _)
  have takesNumber : number.function.Takes args := takes (.ofClass rfl) (.anything _)
  have takesTruth : truth.function.Takes args := takes (.ofClass rfl) (.ofClass rfl)
  have nominal {key : Nat} {first second : Option TypeSpec} (h : NominalAnnotation first)
      (h' : NominalAnnotation second) :
      ∀ s ∈ (pair key first second).function.signature, s.Nominal := by
    rintro s ⟨⟩
    exact List.forall_mem_cons.2 ⟨h, List.forall_mem_singleton.2 h'⟩
  have missing : NominalAnnotation none := nofun
  have byClass (c : Class) : NominalAnnotation (some (.plain c)) := by
    rintro t ⟨⟩
    exact ⟨c, rfl⟩
  have one : (empty "pair").add (still .initial p) anything.function = .ok ⟨"pair", [anything]⟩ := rfl
  have two : OverloadSet.add (still .initial p) ⟨"pair", [anything]⟩ number.function =
      .ok ⟨"pair", [anything, number]⟩ := by cbv
  have three : OverloadSet.add (still .initial p) ⟨"pair", [anything, number]⟩ truth.function =
      .ok ⟨"pair", [anything, number, truth]⟩ := by cbv
  have registered : Registered "pair" [anything.function, number.function, truth.function]
      ⟨"pair", [anything, number, truth]⟩ :=
    .add .initial p (.add .initial p (.add .initial p .empty (nominal missing missing) one)
      (nominal (byClass _) missing) two) (nominal (byClass _) (byClass _)) three
  obtain ⟨succeeds, chosen, -⟩ := resolve_nominal registered .initial p args
  obtain ⟨o, resolved⟩ := succeeds.2 ⟨_, by simp, takesTruth⟩
  refine ⟨_, registered, takesAnything, takesNumber, takesTruth, ?_⟩
  have result := congrArg (Except.map (·.1.function)) resolved
  rw [result, (chosen _ result).2 truth.function]
  · rfl
  refine ⟨by simp, takesTruth, ?_⟩
  have within {key : Nat} {first second : Option TypeSpec}
      (h : TypeContracts.Within (some (.plain .bool)) first)
      (h' : TypeContracts.Within (some (.plain .str)) second) :
      truth.function.Within (pair key first second).function :=
    ⟨_, _, rfl, rfl, .cons h (.cons h' .nil)⟩
  rintro g hg -
  simp only [List.mem_cons, List.not_mem_nil, or_false] at hg
  rcases hg with rfl | rfl | rfl
  · exact within (.anything _) (.anything _)
  · exact within (.subclass rfl) (.anything _)
  · exact within (.subclass rfl) (.subclass rfl)

end OverloadSet

end TypeContracts
