import TypeContracts.Conformance
import TypeContracts.Proofs.Spec.Interface
import TypeContracts.Proofs.Value.Contents
import TypeContracts.Proofs.World.Writes

/-!
Checks in other surroundings. A check asks its probe and goes on with the answer, and of the world it
reads the attributes and callables that the interfaces and signatures of the target ask for. So if the
predicates of the target answer alike and what it asks for reads alike, then two checks come out alike,
each in its own world and in its own monad. They need to do so only for the values that the checks can
come to, those of a scope.
Main statements: `Probe.Simulation.satisfies_within`, `Probe.Simulation.isSubtype_within`, and for the scope
of all values `Probe.Simulation.satisfies`, `Probe.Simulation.isSubtype`.
-/

namespace TypeContracts

/-! ## Scopes -/

/-- An option set lists values of the given kind only. -/
def Part.Within (V : Value → Prop) : Part → Prop
  | .spec (.options _ vs) => ∀ v ∈ vs, V v
  | _ => True

/-- Values of a kind that checks do not leave: they contain only such values, only such values are read
from them and from classes, and the option sets in the signatures that are found on the way list only
such values. -/
structure World.Scope (w : World) where
  Has : Value → Prop
  contents : ∀ {v x}, Has v → v.Contains x → Has x
  read : ∀ {v name x}, Has v → w.getAttribute? 0 v name = some x → Has x
  calling : ∀ {v s}, Has v → w.calling v = .signed s → s.Everywhere (Part.Within Has)
  static : ∀ {c name x}, w.static? c name = some (.attribute x) → Has x
  method : ∀ {c name owner m s}, w.static? c name = some (.method owner m) → m.signature = some s →
    s.Everywhere (Part.Within Has)

theorem Part.within_everything (x : Part) : x.Within fun _ => True := by
  unfold Within
  split
  · exact fun _ _ => trivial
  · trivial

theorem Part.everywhere_within_everything (x : Part) : x.Everywhere (Part.Within fun _ => True) :=
  fun y _ => y.within_everything

/-- The scope of all values. -/
def World.Scope.everything (w : World) : w.Scope where
  Has _ := True
  contents _ _ := trivial
  read _ _ := trivial
  calling _ _ := Part.everywhere_within_everything _
  static _ := trivial
  method _ _ := Part.everywhere_within_everything _

namespace Probe

variable {m n : Type → Type} [Monad m] [Monad n]

/-- A relation between the computations of two monads that sequencing preserves, between a probe in one
world and a probe in another one. -/
structure Simulation (w : World) (p : Probe m) (w' : World) (q : Probe n) where
  Rel : {α : Type} → m α → n α → Prop
  pure : ∀ {α : Type} (a : α), Rel (pure a) (pure a)
  bind : ∀ {α β : Type} {x : m α} {y : n α} {f : α → m β} {g : α → n β},
    Rel x y → (∀ a, Rel (f a) (g a)) → Rel (x >>= f) (y >>= g)
  explain : ∀ message, Rel (p.explain message) (q.explain message)

namespace Simulation

variable {w w' : World} {p : Probe m} {q : Probe n} (R : Simulation w p w' q)

/-- What a part of a target asks for comes out alike, for values of a scope: the answers of a predicate,
the attributes that an interface declares and the class members of these names, and what can be learned
about a callable. -/
def AgreesWithin (V : w.Scope) : Part → Prop
  | .spec (.predicate r) => ∀ v, V.Has v → R.Rel (p.test r v) (q.test r v)
  | .interface i => ∀ m ∈ i.members,
      (∀ v, V.Has v → w.getAttribute? 0 v m.1 = w'.getAttribute? 0 v m.1) ∧
        ∀ c, w.static? c m.1 = w'.static? c m.1
  | .signature _ => ∀ v, V.Has v → w.calling v = w'.calling v
  | _ => True

/-- What a part of a target asks for comes out alike, for all values. -/
def Agrees : Part → Prop := R.AgreesWithin (.everything w)

/-- Where classes and functions are the same, predicates have to answer alike, and the attributes that
interfaces declare have to read alike. -/
theorem agreesWithin_of_sameCode {V : w.Scope} (code : w.SameCode w') {x : Part}
    (test : ∀ r, x = .spec (.predicate r) → ∀ v, V.Has v → R.Rel (p.test r v) (q.test r v))
    (read : ∀ i, x = .interface i → ∀ m ∈ i.members, ∀ v, V.Has v →
      w.getAttribute? 0 v m.1 = w'.getAttribute? 0 v m.1) : R.AgreesWithin V x := by
  match x with
  | .spec (.predicate r) => exact test r rfl
  | .interface i => exact fun m hm => ⟨read i rfl m hm, fun c => code.static? c m.1⟩
  | .signature _ => exact fun v _ => code.calling v
  | .spec .any | .spec (.plain _) | .spec (.both _ _) | .spec (.union _) | .spec (.interface _)
  | .spec (.callable _ _) | .spec (.list _) | .spec (.set _) | .spec (.tuple _) | .spec (.mapping _ _)
  | .spec (.optional _) | .spec (.only _) | .spec (.options _ _) => trivial

/-- In one world every part comes out alike if the predicates do. -/
theorem agrees_of_test {R : Simulation w p w q} (test : ∀ r v, R.Rel (p.test r v) (q.test r v))
    (x : Part) : R.Agrees x :=
  R.agreesWithin_of_sameCode (.refl w) (fun r _ v _ => test r v) fun _ _ _ _ _ _ => rfl

/-- The same answers, from two probes that only answer. -/
def ofPure (w : World) (p : Probe Id) (w' : World) (q : Probe Id) : Simulation w p w' q where
  Rel x y := x = y
  pure _ := rfl
  bind := by
    rintro α β x _ f g rfl h
    exact h x
  explain _ := rfl

theorem ite {α : Type} {c : Prop} [Decidable c] {x x' : m α} {y y' : n α} (pos : c → R.Rel x y)
    (neg : ¬ c → R.Rel x' y') : R.Rel (if c then x else x') (if c then y else y') := by
  split
  · exact pos ‹_›
  · exact neg ‹_›

section lists

variable {α : Type} {f : α → m Bool} {g : α → n Bool} {xs : List α}

theorem allM (h : ∀ x ∈ xs, R.Rel (f x) (g x)) : R.Rel (xs.allM f) (xs.allM g) := by
  induction xs with
  | nil => exact R.pure _
  | cons x xs ih =>
    obtain ⟨first, rest⟩ := List.forall_mem_cons.1 h
    refine R.bind first fun b => ?_
    cases b with
    | true => exact ih rest
    | false => exact R.pure _

theorem anyM (h : ∀ x ∈ xs, R.Rel (f x) (g x)) : R.Rel (xs.anyM f) (xs.anyM g) := by
  induction xs with
  | nil => exact R.pure _
  | cons x xs ih =>
    obtain ⟨first, rest⟩ := List.forall_mem_cons.1 h
    refine R.bind first fun b => ?_
    cases b with
    | true => exact R.pure _
    | false => exact ih rest

end lists

/-- One check and then another. -/
theorem andThen {x x' : m Bool} {y y' : n Bool} (h : R.Rel x y) (h' : R.Rel x' y') :
    R.Rel (do if ← x then x' else return false) (do if ← y then y' else return false) :=
  R.bind h fun _ => R.ite (fun _ => h') fun _ => R.pure _

/-- One check or else another. -/
theorem orElse {x x' : m Bool} {y y' : n Bool} (h : R.Rel x y) (h' : R.Rel x' y') :
    R.Rel (do if ← x then return true else x') (do if ← y then return true else y') :=
  R.bind h fun _ => R.ite (fun _ => R.pure _) fun _ => h'

theorem refuse (message : Unit → String) :
    R.Rel (Conformance.refuse p message) (Conformance.refuse q message) :=
  R.bind (R.explain message) fun _ => R.pure _

/-! ## Checks

By recursion on what is tested against and then on the candidate, as the checks themselves go. -/

section scope

variable {V : w.Scope}

mutual

theorem satisfies_within {v : Value} (hv : V.Has v) {s : TypeSpec} (hs : s.Everywhere (R.AgreesWithin V)) :
    R.Rel (Conformance.satisfies w p v s) (Conformance.satisfies w' q v s) := by
  rw [Conformance.satisfies.eq_def w p, Conformance.satisfies.eq_def w' q]
  match s, hs with
  | .any, _ => exact R.pure _
  | .plain c, _ => exact R.pure _
  | .predicate r, hs => exact hs.self v hv
  | .both left right, hs =>
    exact R.andThen (satisfies_within hv (hs.step (.left _ _)))
      (satisfies_within hv (hs.step (.right _ _)))
  | .union members, hs =>
    exact R.anyM fun s _ => satisfies_within hv (hs.step (.alternative s.2))
  | .interface i, hs => exact implements_within hv (hs.step (.interface i))
  | .callable key signature, hs => exact callableConforms_within hv (hs.step (.signature key signature))
  | .list element, hs =>
    cases v with
    | list items =>
      exact R.allM fun x hx =>
        satisfies_within (V.contents hv (.listItem hx (.self x))) (hs.step (.listElement element))
    | _ => exact R.pure _
  | .set element, hs =>
    cases v with
    | set items =>
      exact R.allM fun x hx =>
        satisfies_within (V.contents hv (.setItem hx (.self x))) (hs.step (.setElement element))
    | _ => exact R.pure _
  | .tuple elements, hs =>
    cases v with
    | tuple items =>
      refine R.ite (fun _ => R.allM fun x hx => ?_) fun _ => R.pure _
      have item : V.Has x.1 := V.contents hv (.tupleItem (List.of_mem_zip hx).1 (.self x.1))
      exact satisfies_within item (hs.step (.position x.2.2))
    | _ => exact R.pure _
  | .mapping key value, hs =>
    cases v with
    | dict entries =>
      refine R.allM fun e he => R.andThen ?_ ?_
      · exact satisfies_within (V.contents hv (.key he (.self e.1))) (hs.step (.key _ _))
      · exact satisfies_within (V.contents hv (.entry he (.self e.2))) (hs.step (.value _ _))
    | _ => exact R.pure _
  | .optional inner, hs =>
    exact R.ite (fun _ => R.pure _) fun _ => satisfies_within hv (hs.step (.inner inner))
  | .only c, _ => exact R.pure _
  | .options key values, _ => exact R.pure _
termination_by (s.size, 0, 0)
decreasing_by
  all_goals simp only [Prod.lex_def, TypeSpec.size, Nat.lt_irrefl, false_or, true_and]
  all_goals first
    | omega
    | (have h := TypeSpec.size_le_of_mem s.2; omega)
    | (have h := TypeSpec.size_le_of_mem x.2.2; omega)

theorem callableConforms_within {v : Value} (hv : V.Has v) {expected : Signature}
    (he : expected.Everywhere (R.AgreesWithin V)) :
    R.Rel (Conformance.callableConforms w p v expected)
      (Conformance.callableConforms w' q v expected) := by
  rw [Conformance.callableConforms, Conformance.callableConforms, ← he.self v hv]
  cases learned : w.calling v with
  | notCallable => exact R.refuse _
  | unsigned => exact R.pure _
  | signed signature => exact signatureConforms_within (V.calling hv learned) he
termination_by (expected.size, 0, 1)
decreasing_by simp [Prod.lex_def]

theorem memberConforms_within {found : Value} (hv : V.Has found) {member : Member}
    (hm : Part.Everywhere (R.AgreesWithin V) member.part) :
    R.Rel (Conformance.memberConforms w p found member)
      (Conformance.memberConforms w' q found member) := by
  rw [Conformance.memberConforms.eq_def w p, Conformance.memberConforms.eq_def w' q]
  match member, hm with
  | .attribute spec, hm => exact satisfies_within hv hm
  | .method signature, hm => exact callableConforms_within hv hm
termination_by (member.size, 0, 0)
decreasing_by
  all_goals simp only [Prod.lex_def, Member.size]
  all_goals omega

theorem implements_within {v : Value} (hv : V.Has v) {i : Interface}
    (hi : Part.Everywhere (R.AgreesWithin V) (.interface i)) :
    R.Rel (Conformance.implements w p v i) (Conformance.implements w' q v i) := by
  rw [Conformance.implements, Conformance.implements]
  refine R.allM fun ⟨(name, member), h⟩ _ => ?_
  obtain ⟨j, hj, declared⟩ := Interface.exists_declared h
  have read : w.getAttribute? 0 v name = w'.getAttribute? 0 v name :=
    ((Interface.everywhere_chain hi hj).self _ declared).1 v hv
  dsimp only
  rw [← read]
  cases found? : w.getAttribute? 0 v name with
  | none => exact R.refuse _
  | some found =>
    have hm := Interface.everywhere_allMembers hi h
    exact R.orElse (memberConforms_within (V.read hv found?) hm) (R.refuse _)
termination_by (i.size, 0, 0)
decreasing_by exact .left _ _ (Interface.size_lt_of_mem h)

theorem isSubtype_within {candidate : TypeSpec} (hc : candidate.Everywhere (Part.Within V.Has))
    {target : TypeSpec} (ht : target.Everywhere (R.AgreesWithin V)) :
    R.Rel (Conformance.isSubtype w p candidate target)
      (Conformance.isSubtype w' q candidate target) := by
  rw [Conformance.isSubtype.eq_def w p, Conformance.isSubtype.eq_def w' q]
  refine R.ite (fun _ => R.pure _) fun _ => ?_
  match candidate, hc with
  | .union members, hc => exact R.allM fun s _ => isSubtype_within (hc.step (.alternative s.2)) ht
  | .optional inner, hc =>
    have := inner.size_pos
    have absent : (TypeSpec.plain .noneType).Everywhere (Part.Within V.Has) :=
      TypeSpec.everywhere_plain trivial
    exact R.andThen (isSubtype_within absent ht) (isSubtype_within (hc.step (.inner inner)) ht)
  | .options key values, hc => exact R.allM fun v hv => satisfies_within (hc.self v hv) ht
  | .both left right, hc =>
    exact R.orElse (isSubtype_within (hc.step (.left _ _)) ht)
      (isSubtype_within (hc.step (.right _ _)) ht)
  | .any, hc | .plain _, hc | .predicate _, hc | .interface _, hc | .callable _ _, hc | .list _, hc
  | .set _, hc | .tuple _, hc | .mapping _ _, hc | .only _, hc => exact isSubtypeOfParts_within hc ht
termination_by (target.size, candidate.size, 2)
decreasing_by
  all_goals simp only [Prod.lex_def, TypeSpec.size, Nat.lt_irrefl, false_or, true_and]
  all_goals first
    | omega
    | (have h := TypeSpec.size_le_of_mem s.2; omega)

theorem isSubtypeOfParts_within {candidate : TypeSpec} (hc : candidate.Everywhere (Part.Within V.Has))
    {target : TypeSpec} (ht : target.Everywhere (R.AgreesWithin V)) :
    R.Rel (Conformance.isSubtypeOfParts w p candidate target)
      (Conformance.isSubtypeOfParts w' q candidate target) := by
  rw [Conformance.isSubtypeOfParts.eq_def w p, Conformance.isSubtypeOfParts.eq_def w' q]
  match target, ht with
  | .union members, ht =>
    exact R.anyM fun s _ => isSubtype_within hc (ht.step (.alternative s.2))
  | .optional inner, ht =>
    exact R.ite (fun _ => R.pure _) fun _ => isSubtype_within hc (ht.step (.inner inner))
  | .any, ht | .plain _, ht | .predicate _, ht | .both _ _, ht | .interface _, ht | .callable _ _, ht
  | .list _, ht | .set _, ht | .tuple _, ht | .mapping _ _, ht | .only _, ht | .options _ _, ht =>
    exact isSubtypeByShape_within hc ht
termination_by (target.size, candidate.size, 1)
decreasing_by
  all_goals simp only [Prod.lex_def, TypeSpec.size, Nat.lt_irrefl, false_or, true_and]
  all_goals first
    | omega
    | (have h := TypeSpec.size_le_of_mem s.2; omega)

theorem isSubtypeByShape_within {candidate : TypeSpec} (hc : candidate.Everywhere (Part.Within V.Has))
    {target : TypeSpec} (ht : target.Everywhere (R.AgreesWithin V)) :
    R.Rel (Conformance.isSubtypeByShape w p candidate target)
      (Conformance.isSubtypeByShape w' q candidate target) := by
  rw [Conformance.isSubtypeByShape.eq_def w p, Conformance.isSubtypeByShape.eq_def w' q]
  match target, ht with
  | .plain d, _ => cases candidate <;> exact R.pure _
  | .only d, _ => cases candidate <;> exact R.pure _
  | .interface wide, ht =>
    have hw := ht.step (.interface wide)
    cases candidate with
    | plain c => exact classImplements_within c hw
    | only c => exact classImplements_within c hw
    | interface narrow => exact interfaceConforms_within (hc.step (.interface narrow)) hw
    | _ => exact R.pure _
  | .callable key wide, ht =>
    cases candidate with
    | callable key' narrow =>
      exact signatureConforms_within (hc.step (.signature key' narrow)) (ht.step (.signature key wide))
    | _ => exact R.pure _
  | .list wide, ht =>
    cases candidate with
    | list narrow =>
      exact isSubtype_within (hc.step (.listElement narrow)) (ht.step (.listElement wide))
    | _ => exact R.pure _
  | .set wide, ht =>
    cases candidate with
    | set narrow => exact isSubtype_within (hc.step (.setElement narrow)) (ht.step (.setElement wide))
    | _ => exact R.pure _
  | .tuple wide, ht =>
    cases candidate with
    | tuple narrow =>
      refine R.ite (fun _ => R.allM fun s hs => ?_) fun _ => R.pure _
      exact isSubtype_within (hc.step (.position (List.of_mem_zip hs).1)) (ht.step (.position s.2.2))
    | _ => exact R.pure _
  | .mapping l x, ht =>
    cases candidate with
    | mapping k v =>
      exact R.andThen (isSubtype_within (hc.step (.key _ _)) (ht.step (.key _ _)))
        (isSubtype_within (hc.step (.value _ _)) (ht.step (.value _ _)))
    | _ => exact R.pure _
  | .any, _ | .predicate _, _ | .both _ _, _ | .union _, _ | .optional _, _ | .options _ _, _ =>
    cases candidate <;> exact R.pure _
termination_by (target.size, candidate.size, 0)
decreasing_by
  all_goals simp only [Prod.lex_def, TypeSpec.size, Nat.lt_irrefl]
  all_goals first
    | omega
    | (have h := TypeSpec.size_le_of_mem s.2.2; omega)

theorem signatureConforms_within {candidate : Signature} (hc : candidate.Everywhere (Part.Within V.Has))
    {expected : Signature} (he : expected.Everywhere (R.AgreesWithin V)) :
    R.Rel (Conformance.signatureConforms w p candidate expected)
      (Conformance.signatureConforms w' q candidate expected) := by
  rw [Conformance.signatureConforms, Conformance.signatureConforms]
  refine R.ite (fun _ => R.refuse _) fun _ => R.ite (fun _ => R.refuse _) fun _ => ?_
  cases (candidate.params.drop expected.params.length).find? (!·.hasDefault) with
  | some extra => exact R.refuse _
  | none =>
    refine R.andThen (R.allM fun r hr => ?_) ?_
    · exact paramConforms_within (fun t hq => hc.step (.parameter (List.of_mem_zip hr).1 hq))
        fun t hq => he.step (.parameter r.2.2 hq)
    · refine R.orElse ?_ (R.refuse _)
      exact annotationConforms_within (fun t hr => hc.step (.returns hr))
        fun t hr => he.step (.returns hr)
termination_by (expected.size, 0, 0)
decreasing_by
  · have := Param.size_le_of_mem r.2.2
    exact .left _ _ (by rw [expected.size_eq]; omega)
  · exact .left _ _ (by rw [expected.size_eq]; omega)

theorem paramConforms_within {candidate : Param}
    (hc : ∀ t ∈ candidate.type, t.Everywhere (Part.Within V.Has)) {expected : Param}
    (he : ∀ t ∈ expected.type, t.Everywhere (R.AgreesWithin V)) :
    R.Rel (Conformance.paramConforms w p candidate expected)
      (Conformance.paramConforms w' q candidate expected) := by
  rw [Conformance.paramConforms, Conformance.paramConforms]
  refine R.ite (fun _ => R.refuse _) fun _ => ?_
  exact R.orElse (annotationConforms_within hc he) (R.refuse _)
termination_by (expected.size, 0, 0)
decreasing_by exact .left _ _ (by rw [expected.size_eq]; omega)

theorem annotationConforms_within {candidate : Option TypeSpec}
    (hc : ∀ t ∈ candidate, t.Everywhere (Part.Within V.Has)) {expected : Option TypeSpec}
    (he : ∀ t ∈ expected, t.Everywhere (R.AgreesWithin V)) :
    R.Rel (Conformance.annotationConforms w p candidate expected)
      (Conformance.annotationConforms w' q candidate expected) := by
  rw [Conformance.annotationConforms.eq_def w p, Conformance.annotationConforms.eq_def w' q]
  match candidate, expected, hc, he with
  | _, none, _, _ => exact R.pure _
  | none, some _, _, _ => exact R.pure _
  | some c, some e, hc, he => exact isSubtype_within (hc c rfl) (he e rfl)
termination_by (TypeSpec.sizeOption expected, 0, 0)
decreasing_by exact .left _ _ (by rw [TypeSpec.sizeOption]; omega)

theorem classProvides_within (c : Class) {name : String}
    (same : w.static? c name = w'.static? c name) {expected : Signature}
    (he : expected.Everywhere (R.AgreesWithin V)) :
    R.Rel (Conformance.classProvides w p c name expected)
      (Conformance.classProvides w' q c name expected) := by
  rw [Conformance.classProvides, Conformance.classProvides, ← same]
  match found : w.static? c name with
  | none => exact R.pure _
  | some (.attribute v) => exact callableConforms_within (V.static found) he
  | some (.method _ method) =>
    dsimp only
    cases signed : method.signature with
    | none => exact R.pure _
    | some signature => exact signatureConforms_within (V.method found signed) he
termination_by (expected.size, 0, 2)
decreasing_by all_goals simp [Prod.lex_def]

theorem classImplements_within (c : Class) {i : Interface}
    (hi : Part.Everywhere (R.AgreesWithin V) (.interface i)) :
    R.Rel (Conformance.classImplements w p c i) (Conformance.classImplements w' q c i) := by
  rw [Conformance.classImplements, Conformance.classImplements]
  refine R.allM fun ⟨(name, member), h⟩ _ => ?_
  obtain ⟨j, hj, declared⟩ := Interface.exists_declared h
  have same := ((Interface.everywhere_chain hi hj).self _ declared).2 c
  match member, h with
  | .attribute _, _ => exact R.pure _
  | .method expected, h =>
    exact R.orElse (classProvides_within c same (Interface.everywhere_allMembers hi h)) (R.refuse _)
termination_by (i.size, 0, 0)
decreasing_by
  have := Interface.size_lt_of_mem h
  simp only [Member.size] at this
  exact .left _ _ (by omega)

theorem interfaceConforms_within {narrow : Interface}
    (hn : Part.Everywhere (Part.Within V.Has) (.interface narrow)) {wide : Interface}
    (hw : Part.Everywhere (R.AgreesWithin V) (.interface wide)) :
    R.Rel (Conformance.interfaceConforms w p narrow wide)
      (Conformance.interfaceConforms w' q narrow wide) := by
  rw [Conformance.interfaceConforms, Conformance.interfaceConforms]
  refine R.ite (fun _ => R.pure _) fun _ => R.allM fun ⟨(name, wanted), h⟩ _ => ?_
  have hm := Interface.everywhere_allMembers hw h
  dsimp only
  rcases found : narrow.member? name with _ | given
  · exact R.refuse _
  have hg := Interface.everywhere_member? hn found
  match given, wanted, h, hg, hm with
  | .attribute given, .attribute want, h, hg, hm => exact isSubtype_within hg hm
  | .method given, .method want, h, hg, hm => exact signatureConforms_within hg hm
  | .attribute given, .method want, h, hg, hm => exact R.refuse _
  | .method given, .attribute want, h, hg, hm => exact R.refuse _
termination_by (wide.size, 0, 0)
decreasing_by
  all_goals
    have := Interface.size_lt_of_mem h
    simp only [Member.size] at this
    exact .left _ _ (by omega)

end

end scope

/-! ## For all values -/

theorem satisfies (v : Value) {s : TypeSpec} (hs : s.Everywhere R.Agrees) :
    R.Rel (Conformance.satisfies w p v s) (Conformance.satisfies w' q v s) :=
  R.satisfies_within trivial hs

theorem isSubtype (candidate : TypeSpec) {target : TypeSpec} (ht : target.Everywhere R.Agrees) :
    R.Rel (Conformance.isSubtype w p candidate target)
      (Conformance.isSubtype w' q candidate target) :=
  R.isSubtype_within (Part.everywhere_within_everything _) ht

theorem signatureConforms (candidate : Signature) {expected : Signature}
    (he : expected.Everywhere R.Agrees) :
    R.Rel (Conformance.signatureConforms w p candidate expected)
      (Conformance.signatureConforms w' q candidate expected) :=
  R.signatureConforms_within (Part.everywhere_within_everything _) he

end Simulation

end Probe

end TypeContracts
