import TypeContracts.Proofs.Call.Specificity
import TypeContracts.Proofs.Conformance.Writes
import TypeContracts.Proofs.World.Signatures

/-!
Signatures in two worlds. Whether one annotation conforms to another one can change with the attributes of
objects, which option sets can hold. Between two worlds signatures are settled if no annotation has come to
conform to another one; signatures that did not compete then do not compete now. They are settled where the
attributes that their interfaces declare are not written, and where their option sets hold no object.
Main statements: `OverloadSet.Settled.competes`, `OverloadSet.Settled.of_ignored`,
`OverloadSet.Settled.of_objectFree`.
-/

namespace TypeContracts

open Conformance (annotationConforms)

/-! ## Values without objects -/

/-- Neither is the value an object nor does it hold one. -/
def Value.ObjectFree (v : Value) : Prop := ∀ o, ¬ v.Contains (.object o)

theorem Value.ObjectFree.function (c : Callable) : (Value.function c).ObjectFree := by
  intro o h
  cases h

namespace World

variable {w w' : World}

/-- No class attribute holds an object, and no option set in the signature of a function or a method. -/
structure ObjectFree (w : World) : Prop where
  classAttribute : ∀ {c name x}, w.classAttribute? c name = some x → x.ObjectFree
  declared : ∀ {s}, w.Declares s → s.Everywhere (Part.Within Value.ObjectFree)

namespace ObjectFree

variable (free : w.ObjectFree)

include free

theorem static {c : Class} {name : String} {x : Value} (found : w.static? c name = some (.attribute x)) :
    x.ObjectFree := by
  rw [static?] at found
  split at found
  · rename_i inherited
    cases found
    exact free.classAttribute inherited
  · obtain ⟨_, -, same⟩ := Option.map_eq_some_iff.1 found
    cases same

theorem calling {v : Value} {s : Signature} (learned : w.calling v = .signed s) :
    s.Everywhere (Part.Within Value.ObjectFree) := by
  rcases declares_of_calling learned with declared | ⟨s, declared, rfl⟩
  · exact free.declared declared
  · refine Signature.everywhere trivial (fun q t hq ht => ?_) fun t ht =>
      (free.declared declared).step (.returns ht)
    rcases List.mem_cons.1 hq with rfl | hq
    · cases ht
    · exact (free.declared declared).step (.parameter hq ht)

/-- What is no object reads no object: a class attribute, or a method. -/
theorem getAttribute? {v : Value} (hv : v.ObjectFree) {name : String} {x : Value}
    (found : w.getAttribute? 0 v name = some x) : x.ObjectFree := by
  have ofClass : ∀ v, World.getAttribute?.ofClass w 0 v name = some x → x.ObjectFree := by
    intro v found
    rw [getAttribute?.ofClass] at found
    split at found
    · rename_i inherited
      cases found
      exact free.classAttribute inherited
    · obtain ⟨_, -, rfl⟩ := Option.map_eq_some_iff.1 found
      exact .function _
  cases v with
  | object o => exact absurd (.self _) (hv o)
  | cls c =>
    obtain ⟨member, read, rfl⟩ := Option.map_eq_some_iff.1 found
    match member, read with
    | .attribute x, read => exact free.static read
    | .method owner m, _ => exact .function _
  | _ => exact ofClass _ found

/-- The scope of the values without objects. -/
def scope : w.Scope where
  Has := Value.ObjectFree
  contents hv hx o ho := hv o (hx.trans ho)
  read hv := free.getAttribute? hv
  calling _ := free.calling
  static := free.static
  method found hs := free.declared (declares_of_static? found hs)

end ObjectFree

end World

namespace OverloadSet

variable {p : World → Probe Id} {signatures : List Signature} {w w' : World}

/-- No annotation of the signatures conforms to another one in the second world to which it did not conform
in the first. -/
def Settled (p : World → Probe Id) (signatures : List Signature) (w w' : World) : Prop :=
  ∀ s ∈ signatures, ∀ t ∈ signatures, ∀ a ∈ s.annotations, ∀ b ∈ t.annotations,
    (annotationConforms w' (p w') a b).run → (annotationConforms w (p w) a b).run

namespace Settled

theorem refl (p : World → Probe Id) (signatures : List Signature) (w : World) :
    Settled p signatures w w :=
  fun _ _ _ _ _ _ _ _ h => h

/-- Settled signatures that compete have always done so. -/
theorem competes (h : Settled p signatures w w') {s t : Signature} (hs : s ∈ signatures)
    (ht : t ∈ signatures) (competing : competes w' (p w') s t) :
    OverloadSet.competes w (p w) s t := by
  have strictlyBelow_of : ∀ s ∈ signatures, ∀ t ∈ signatures, ∀ a ∈ s.annotations, ∀ b ∈ t.annotations,
      strictlyBelow w' (p w') a b → strictlyBelow w (p w) a b := by
    intro s hs t ht a ha b hb below
    rw [strictlyBelow, Bool.and_eq_true] at below ⊢
    exact ⟨below.1, h s hs t ht a ha b hb below.2⟩
  rw [competes_iff] at competing ⊢
  rcases competing with identical | ⟨⟨q, hq, first⟩, ⟨r, hr, second⟩⟩
  · exact .inl identical
  · obtain ⟨hqs, hqt⟩ := List.of_mem_zip hq
    obtain ⟨hrs, hrt⟩ := List.of_mem_zip hr
    exact .inr ⟨⟨q, hq, strictlyBelow_of s hs t ht _ hqs _ hqt first⟩,
      ⟨r, hr, strictlyBelow_of t ht s hs _ hrt _ hrs second⟩⟩

/-! ## When signatures are settled -/

/-- If annotations come out alike in the two worlds, none has come to conform. -/
theorem of_agrees {V : w.Scope} (within : ∀ s ∈ signatures, s.Everywhere (Part.Within V.Has))
    (agrees : ∀ s ∈ signatures,
      s.Everywhere ((Probe.Simulation.ofPure w (p w) w' (p w')).AgreesWithin V)) :
    Settled p signatures w w' := by
  intro s hs t ht a ha b hb conforms
  obtain ⟨q, hq, rfl⟩ := List.mem_map.1 ha
  obtain ⟨r, hr, rfl⟩ := List.mem_map.1 hb
  have alike := (Probe.Simulation.ofPure w (p w) w' (p w')).annotationConforms_within
    (fun u hu => (within s hs).step (.parameter hq hu))
    fun u hu => (agrees t ht).step (.parameter hr hu)
  exact (congrArg Id.run alike).symm ▸ conforms

/-- Signatures are settled as long as the attributes that their interfaces declare read alike; in
particular as long as no attribute is written. -/
theorem of_ignored {writes : List AttributeWrite}
    (tests : ∀ r v, (p w).test r v = (p (w.write writes)).test r v)
    (ignored : ∀ s ∈ signatures, ∀ a ∈ writes, s.Everywhere (Part.Ignores a.name)) :
    Settled p signatures w (w.write writes) := by
  refine of_agrees (V := .everything w) (fun s _ => Part.everywhere_within_everything _)
    fun s hs x hx => ?_
  refine Probe.Simulation.agreesWithin_of_sameCode _ (World.sameCode_write writes)
    (fun r _ v _ => tests r v) ?_
  rintro i rfl m declared v -
  refine (World.getAttribute?_write (fun a ha same => ?_) 0 v).symm
  exact ignored s hs a ha _ hx (same ▸ List.mem_map_of_mem declared)

/-- Signatures are settled, whatever is written to objects, if the option sets that checks come to hold no
object. -/
theorem of_objectFree (free : w.ObjectFree) (code : w.SameCode w')
    (tests : ∀ r (v : Value), v.ObjectFree → (p w).test r v = (p w').test r v)
    (within : ∀ s ∈ signatures, s.Everywhere (Part.Within Value.ObjectFree)) :
    Settled p signatures w w' := by
  refine of_agrees (V := free.scope) within fun s _ x _ => ?_
  refine Probe.Simulation.agreesWithin_of_sameCode _ code (fun r _ v hv => tests r v hv) ?_
  intro _ _ m _ v hv
  refine code.getAttribute? (fun o same => ?_) 0
  exact absurd (same ▸ Value.Contains.self v) (hv o)

end Settled

end OverloadSet

/-! ## When they are not

An option set is narrowed by another spec. What is left of it conforms to all of it, and the whole conforms
to what is left where all options satisfy the other spec. If the other spec asks for an attribute, one write
can lead there. -/

namespace Conformance

section options

variable {w : World} {p : Probe Id}

theorem isSubtype_both_right (s t : TypeSpec) : (isSubtype w p (.both s t) t).run :=
  isSubtype_of_rule (.right (isSubtype_of_equal t.equal_refl))

theorem options_isSubtype_both_iff {key : Nat} {vs : List Value} (listed : ∀ v ∈ vs, v.isIn vs)
    {s : TypeSpec} :
    (isSubtype w p (.options key vs) (.both s (.options key vs))).run ↔
      ∀ v ∈ vs, (satisfies w p v s).run := by
  rw [isSubtype_iff]
  constructor
  · rintro (same | top | rule)
    · cases TypeSpec.equal_iff.1 same
    · cases top
    · intro v hv
      have both := rule_options_iff.1 rule v hv
      rw [satisfies_both, Bool.and_eq_true] at both
      exact both.1
  · intro all
    refine .inr (.inr (.options fun v hv => ?_))
    rw [satisfies_both, Bool.and_eq_true, satisfies_options]
    exact ⟨all v hv, listed v hv⟩

/-- An option set conforms to a class if all options are its instances. -/
theorem options_isSubtype_plain_iff {key : Nat} {vs : List Value} {c : Class} :
    (isSubtype w p (.options key vs) (.plain c)).run ↔ ∀ v ∈ vs, v.classOf.isSubclassOf c := by
  rw [isSubtype_iff]
  constructor
  · rintro (same | top | rule)
    · cases TypeSpec.equal_iff.1 same
    · intro v _
      obtain rfl : c = .object := beq_iff_eq.1 top
      exact v.classOf.isSubclassOf_object
    · intro v hv
      have inside := rule_options_iff.1 rule v hv
      rwa [satisfies_plain] at inside
  · intro all
    refine .inr (.inr (.options fun v hv => ?_))
    rw [satisfies_plain]
    exact all v hv

/-- A candidate that is asked as a whole conforms to no option set. -/
theorem not_isSubtype_options {s : TypeSpec} (whole : s.isWhole) {key : Nat} {vs : List Value} :
    ¬ (isSubtype w p s (.options key vs)).run := by
  rw [isSubtype_iff]
  rintro (same | top | rule)
  · cases TypeSpec.equal_iff.1 same
    cases whole
  · cases top
  · cases rule <;> cases whole

theorem wellMade_attribute (key : Nat) (name asked : String) :
    WellMade (.interface ⟨key, name, none, [(asked, .attribute .any)]⟩) := by
  have build : Interface.build key name [.attribute asked (.spec .any)] =
      .ok ⟨key, name, none, [(asked, .attribute .any)]⟩ := rfl
  refine ⟨.interface (by simp [Interface.Declaration.specs, SpecLiteral.leaves, TypeSpec.Built.any]) build,
    TypeSpec.everywhere_interface trivial (Interface.everywhere trivial nofun ?_ ?_)⟩
  · rintro _ _ (_ | ⟨_, ⟨⟩⟩)
    exact Part.Everywhere.intro trivial nofun
  · rintro _ _ (_ | ⟨_, ⟨⟩⟩)

/-- An interface with one attribute of any kind asks that it can be read. -/
theorem satisfies_attribute_iff {key : Nat} {name asked : String} {v : Value} :
    (satisfies w p v (.interface ⟨key, name, none, [(asked, .attribute .any)]⟩)).run ↔
      (w.getAttribute? 0 v asked).isSome := by
  rw [satisfies_interface_iff, Option.isSome_iff_exists]
  constructor
  · intro all
    obtain ⟨found, read, -⟩ := all (asked, .attribute .any) (List.mem_singleton.2 rfl)
    exact ⟨found, read⟩
  · rintro ⟨found, read⟩ m hm
    obtain rfl : m = (asked, .attribute .any) := List.mem_singleton.1 hm
    exact ⟨found, read, by rw [memberConforms_attribute, satisfies_any]⟩

end options

/-- Two specs of which the first one does not conform to the second one until an object is given an attribute:
an option set with the object, and what is left of it for those that have the attribute. -/
theorem exists_unsettled (p : World → Probe Id) :
    ∃ (object : ObjectRef) (wide narrow : TypeSpec), WellMade wide ∧ WellMade narrow ∧
      (∀ w, ¬ (isSubtype w (p w) (.plain .object) wide).run ∧
        ¬ (isSubtype w (p w) (.plain .object) narrow).run) ∧
      ¬ (isSubtype .initial (p .initial) wide narrow).run ∧
      let w := World.initial.write [.set object "x" (.int 1)]
      ((isSubtype w (p w) wide narrow).run ∧ (isSubtype w (p w) narrow wide).run) ∧
        (satisfies w (p w) (.object object) wide).run ∧ (satisfies w (p w) (.object object) narrow).run := by
  let object : ObjectRef := ⟨20, .object⟩
  let having : TypeSpec := .interface ⟨2, "HasX", none, [("x", .attribute .any)]⟩
  let wide : TypeSpec := .oneOf 1 [.object object]
  have made : WellMade wide := wellMade_oneOf 1 (List.forall_mem_singleton.2 (.object object))
  have listed : ∀ v ∈ Value.distinct [.object object], v.isIn (Value.distinct [.object object]) := by
    decide +kernel
  have member : .object object ∈ Value.distinct [.object object] := List.mem_singleton.2 rfl
  have accepted : ∀ w, (satisfies w (p w) (.object object) wide).run := by
    intro w
    show (satisfies w (p w) _ (.options 1 _)).run
    rw [satisfies_options]
    exact listed _ member
  let w : World := World.initial.write [.set object "x" (.int 1)]
  -- in `initial` the object has no attribute, in `w` it has the one that `having` asks for
  have has : (satisfies w (p w) (.object object) having).run := satisfies_attribute_iff.2 rfl
  refine ⟨object, wide, .both having wide, made, wellMade_both (wellMade_attribute 2 "HasX" "x") made,
    fun w => ⟨not_isSubtype_options rfl, fun below => ?_⟩, fun below => ?_, ⟨?_, isSubtype_both_right _ _⟩,
    accepted w, ?_⟩
  · rcases (isSubtype_iff ..).1 below with same | top | rule
    · cases TypeSpec.equal_iff.1 same
    · cases top
    · cases rule
  · have satisfied := (options_isSubtype_both_iff listed).1 below _ member
    exact Bool.false_ne_true (satisfies_attribute_iff.1 satisfied)
  · exact (options_isSubtype_both_iff listed).2 (List.forall_mem_singleton.2 has)
  · rw [satisfies_both, has, accepted w]
    rfl

end Conformance

/-- A signature with positional parameters without defaults: their names and their annotations. -/
def Signature.positional (ps : List (String × TypeSpec)) : Signature :=
  ⟨ps.map fun (name, t) => ⟨name, .positional, some t, none⟩, none⟩

theorem Signature.annotations_positional (ps : List (String × TypeSpec)) :
    (positional ps).annotations = ps.map fun q => some q.2 := by
  simp [annotations, positional]

theorem Signature.wellMade_positional {ps : List (String × TypeSpec)}
    (h : ∀ q ∈ ps, Conformance.WellMade q.2) : (positional ps).WellMade := by
  intro a ha t ht
  rw [annotations_positional] at ha
  obtain ⟨q, hq, rfl⟩ := List.mem_map.1 ha
  cases ht
  exact h q hq

namespace OverloadSet

section positional

variable {w : World} {p : Probe Id} {ps qs : List (String × TypeSpec)}

theorem asSpecific_positional_iff :
    asSpecific w p (.positional ps) (.positional qs) ↔
      ∀ q ∈ ps.zip qs, (Conformance.isSubtype w p q.1.2 q.2.2).run := by
  simp only [asSpecific, Signature.annotations_positional, List.zip_map, List.all_map, List.all_eq_true,
    Function.comp_apply, Prod.map, annotationConforms]

theorem accepts_positional_iff {args : List Value} :
    accepts w p (.positional ps) args ↔ ∀ q ∈ ps.zip args, (Conformance.satisfies w p q.2 q.1.2).run := by
  simp only [accepts, Signature.annotations_positional, List.zip_map_left, List.all_map, List.all_eq_true,
    Function.comp_apply, Prod.map, Option.all_some, id]

/-- Signatures do not compete if no annotation of the first one is strictly below that of the second one, and
the first two are not the same. -/
theorem not_competes_positional {s t : String × TypeSpec} (first : ¬ (Conformance.isSubtype w p s.2 t.2).run)
    (rest : ∀ q ∈ ps.zip qs,
      same (some q.1.2) (some q.2.2) ∨ ¬ (Conformance.isSubtype w p q.1.2 q.2.2).run) :
    competes w p (.positional (s :: ps)) (.positional (t :: qs)) = false := by
  -- annotations that are the same conform to each other, so the first two are not
  have different : same (some s.2) (some t.2) = false := by
    refine Bool.eq_false_iff.2 fun same => first (Conformance.isSubtype_of_equal ?_)
    simpa [TypeSpec.equalOption] using (Bool.and_eq_true_iff.1 same).1
  have pairs : (Signature.positional (s :: ps)).annotations.zip
      (Signature.positional (t :: qs)).annotations =
        (some s.2, some t.2) :: (ps.zip qs).map fun q => (some q.1.2, some q.2.2) := by
    simp only [Signature.annotations_positional, List.map_cons, List.zip_cons_cons, List.zip_map]
    rfl
  rw [Bool.eq_false_iff, ne_eq, competes_iff, pairs]
  rintro (identical | ⟨⟨q, hq, below⟩, -⟩)
  · rw [identical _ List.mem_cons_self] at different
    cases different
  · obtain ⟨differs, conforms⟩ := Bool.and_eq_true_iff.1 below
    rcases List.mem_cons.1 hq with rfl | hq
    · rw [annotationConforms] at conforms
      exact first conforms
    · obtain ⟨r, hr, rfl⟩ := List.mem_map.1 hq
      rw [annotationConforms] at conforms
      rcases rest r hr with same | unrelated
      · rw [same] at differs
        cases differs
      · exact unrelated conforms

end positional

end OverloadSet

end TypeContracts
