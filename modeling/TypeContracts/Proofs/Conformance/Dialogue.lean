import TypeContracts.Proofs.Conformance.Callables
import TypeContracts.Proofs.Conformance.Simulation
import TypeContracts.Proofs.World.Signatures

/-!
Checks with their nested checks left open. A check is a query; to answer it, one goes through a `Dialogue`
that tests predicates, explains mismatches and asks further queries, and goes on with what is answered.
Main statement: `Probe.Simulation.check`, from which everything about the dialogues is derived. Where the
queries of a dialogue are answered as the checks answer them, the dialogue comes out as the check does. Of
these queries it says as well how large they are.
-/

namespace TypeContracts

/-- A question of conformance: whether a value satisfies a spec, or whether one spec describes no more than
another. -/
inductive Query where
  | satisfies (v : Value) (s : TypeSpec)
  | isSubtype (candidate target : TypeSpec)

namespace Query

/-- The spec that is tested against. -/
def target : Query → TypeSpec
  | .satisfies _ s => s
  | .isSubtype _ target => target

/-- The size of the candidate spec; a value has none. -/
def width : Query → Nat
  | .satisfies _ _ => 0
  | .isSubtype candidate _ => candidate.size

/-- A query may lead to another one: its target is smaller, and its candidate no larger than the given one
and the signatures of callables, or its target is as large and its candidate smaller. -/
def Descends (w : World) (q q' : Query) : Prop :=
  (q'.target.size < q.target.size ∧ q'.width ≤ max w.width q.width) ∨
    (q'.target.size = q.target.size ∧ q'.width < q.width)

/-- The answer, as conformance checks give it. -/
def check {m : Type → Type} [Monad m] (w : World) (p : Probe m) : Query → m Bool
  | .satisfies v s => Conformance.satisfies w p v s
  | .isSubtype candidate target => Conformance.isSubtype w p candidate target

end Query

/-- A computation that asks queries, tests predicates and explains mismatches, one after another; what it
does next depends on the answers. -/
inductive Dialogue (α : Type) where
  | done (a : α)
  | ask (q : Query) (next : Bool → Dialogue α)
  | test (r : Predicate) (v : Value) (next : Bool → Dialogue α)
  | explain (message : Unit → String) (next : Dialogue α)

namespace Dialogue

variable {α β : Type}

def bind : Dialogue α → (α → Dialogue β) → Dialogue β
  | .done a, f => f a
  | .ask q next, f => .ask q fun b => (next b).bind f
  | .test r v next, f => .test r v fun b => (next b).bind f
  | .explain message next, f => .explain message (next.bind f)

instance : Monad Dialogue where
  pure := .done
  bind := bind

/-- The query is asked, if what is asked and tested before has suitable answers. -/
inductive Asks : Dialogue α → Query → Prop where
  | now (q : Query) (next : Bool → Dialogue α) : Asks (.ask q next) q
  | afterQuery {q q' : Query} {next : Bool → Dialogue α} {b : Bool} (h : Asks (next b) q') :
      Asks (.ask q next) q'
  | afterTest {r : Predicate} {v : Value} {next : Bool → Dialogue α} {b : Bool} {q' : Query}
      (h : Asks (next b) q') : Asks (.test r v next) q'
  | afterExplanation {message : Unit → String} {next : Dialogue α} {q' : Query} (h : Asks next q') :
      Asks (.explain message next) q'

/-- The dialogue carried out: a probe tests and explains, and `answer` answers the queries. -/
def run {m : Type → Type} [Monad m] (p : Probe m) (answer : Query → m Bool) : Dialogue α → m α
  | .done a => pure a
  | .ask q next => do (next (← answer q)).run p answer
  | .test r v next => do (next (← p.test r v)).run p answer
  | .explain message next => do
      p.explain message
      next.run p answer

/-- The probe whose tests and explanations are part of the dialogue. -/
def probe : Probe Dialogue := ⟨fun r v => .test r v .done, fun message => .explain message (.done ())⟩

def query (q : Query) : Dialogue Bool := .ask q .done

open Conformance (refuse)

/-! ## Dialogues of the checks -/

def annotationConforms (candidate expected : Option TypeSpec) : Dialogue Bool :=
  match candidate, expected with
  | _, none => return true
  | none, some _ => return false
  | some c, some e => query (.isSubtype c e)

def paramConforms (candidate expected : Param) : Dialogue Bool := do
  if candidate.name != expected.name then
    refuse probe fun _ =>
      "parameter '" ++ candidate.name ++ "' found where '" ++ expected.name ++ "' was expected"
  else if ← annotationConforms candidate.type expected.type then return true
  else refuse probe fun _ =>
    "parameter '" ++ candidate.name ++ "' is "
      ++ TypeSpec.describe "unannotated" candidate.type ++ " but "
      ++ TypeSpec.describe "anything" expected.type ++ " is required"

def signatureConforms (candidate expected : Signature) : Dialogue Bool := do
  if candidate.isVariadic then
    refuse probe fun _ => "signature " ++ candidate.render ++ " is variadic"
  else if candidate.params.length < expected.params.length then
    refuse probe fun _ =>
      "signature " ++ candidate.render ++ " takes fewer parameters than " ++ expected.render
  else match (candidate.params.drop expected.params.length).find? (!·.hasDefault) with
    | some extra =>
        refuse probe fun _ =>
          "signature " ++ candidate.render ++ " requires extra parameter '" ++ extra.name ++ "'"
    | none =>
        if ← (candidate.params.zip expected.params).allM fun q => paramConforms q.1 q.2 then
          if ← annotationConforms candidate.returns expected.returns then return true
          else refuse probe fun _ =>
            "return of " ++ candidate.render ++ " does not conform to " ++ expected.render
        else return false

variable (w : World)

def callableConforms (v : Value) (expected : Signature) : Dialogue Bool :=
  match w.calling v with
  | .notCallable => refuse probe fun _ => v.classOf.name ++ " is not callable"
  | .unsigned => return true
  | .signed signature => signatureConforms signature expected

def memberConforms (found : Value) : Member → Dialogue Bool
  | .attribute spec => query (.satisfies found spec)
  | .method signature => callableConforms w found signature

def implements (v : Value) (i : Interface) : Dialogue Bool :=
  i.allMembers.allM fun (name, member) =>
    match w.getAttribute? 0 v name with
    | none =>
        refuse probe fun _ =>
          v.classOf.name ++ " lacks member '" ++ name ++ "' required by " ++ i.name
    | some found => do
        if ← memberConforms w found member then return true
        else refuse probe fun _ =>
          "member '" ++ name ++ "' of " ++ v.classOf.name ++ " does not conform to " ++ i.name

def classProvides (c : Class) (name : String) (expected : Signature) : Dialogue Bool :=
  match w.static? c name with
  | none => return false
  | some (.attribute v) => callableConforms w v expected
  | some (.method _ method) =>
      match method.signature with
      | none => return true
      | some signature => signatureConforms signature expected

def classImplements (c : Class) (i : Interface) : Dialogue Bool :=
  i.allMembers.allM fun (name, member) =>
    match member with
    | .attribute _ => return true
    | .method expected => do
        if ← classProvides w c name expected then return true
        else refuse probe fun _ =>
          "class " ++ c.name ++ " does not provide method '" ++ name ++ "' of " ++ i.name

def interfaceConforms (narrow wide : Interface) : Dialogue Bool :=
  if narrow.derivesFrom wide then return true
  else wide.allMembers.allM fun (name, wanted) =>
    match narrow.member? name, wanted with
    | some (.attribute given), .attribute want => query (.isSubtype given want)
    | some (.method given), .method want => signatureConforms given want
    | _, _ =>
        refuse probe fun _ =>
          narrow.name ++ " has no compatible member '" ++ name ++ "' of " ++ wide.name

def satisfies (v : Value) : TypeSpec → Dialogue Bool
  | .any => return true
  | .plain c => return v.classOf.isSubclassOf c
  | .predicate q => probe.test q v
  | .both left right => do
      if ← query (.satisfies v left) then query (.satisfies v right) else return false
  | .union members => members.anyM fun s => query (.satisfies v s)
  | .interface i => implements w v i
  | .callable _ signature => callableConforms w v signature
  | .list element =>
      match v with
      | .list items => items.allM fun x => query (.satisfies x element)
      | _ => return false
  | .set element =>
      match v with
      | .set items => items.allM fun x => query (.satisfies x element)
      | _ => return false
  | .tuple elements =>
      match v with
      | .tuple items =>
          if items.length = elements.length then
            (items.zip elements).allM fun x => query (.satisfies x.1 x.2)
          else return false
      | _ => return false
  | .mapping key value =>
      match v with
      | .dict entries => entries.allM fun e => do
          if ← query (.satisfies e.1 key) then query (.satisfies e.2 value) else return false
      | _ => return false
  | .optional inner => if v.isNull then return true else query (.satisfies v inner)
  | .only c => return v.classOf == c
  | .options _ values => return v.isIn values

def isSubtypeByShape (candidate target : TypeSpec) : Dialogue Bool :=
  match candidate, target with
  | .plain c, .plain d | .only c, .plain d => return c.isSubclassOf d
  | .plain c, .only d | .only c, .only d => return c == d
  | .plain c, .interface i | .only c, .interface i => classImplements w c i
  | .interface narrow, .interface wide => interfaceConforms narrow wide
  | .callable _ narrow, .callable _ wide => signatureConforms narrow wide
  | .list narrow, .list wide | .set narrow, .set wide => query (.isSubtype narrow wide)
  | .tuple narrow, .tuple wide =>
      if narrow.length = wide.length then
        (narrow.zip wide).allM fun s => query (.isSubtype s.1 s.2)
      else return false
  | .mapping k v, .mapping l x => do
      if ← query (.isSubtype k l) then query (.isSubtype v x) else return false
  | _, _ => return false

def isSubtypeOfParts (candidate target : TypeSpec) : Dialogue Bool :=
  match target with
  | .union members => members.anyM fun s => query (.isSubtype candidate s)
  | .optional inner =>
      if candidate.isNoneType then return true else query (.isSubtype candidate inner)
  | whole => isSubtypeByShape w candidate whole

def isSubtype (candidate target : TypeSpec) : Dialogue Bool :=
  if candidate.equal target || target.isTop then return true
  else match candidate with
    | .union members => members.allM fun s => query (.isSubtype s target)
    | .optional inner => do
        if ← query (.isSubtype (.plain .noneType) target) then query (.isSubtype inner target)
        else return false
    | .options _ values => values.allM fun v => query (.satisfies v target)
    | .both left right => do
        if ← query (.isSubtype left target) then return true else query (.isSubtype right target)
    | whole => isSubtypeOfParts w whole target

end Dialogue

/-- The dialogue that leads to the answer. -/
def Query.dialogue (w : World) : Query → Dialogue Bool
  | .satisfies v s => Dialogue.satisfies w v s
  | .isSubtype candidate target => Dialogue.isSubtype w candidate target

/-! ## Sizes -/

/-- A member of an interface, inherited or not, is smaller than the interface. -/
theorem Interface.size_lt_of_member? {i : Interface} {name : String} {m : Member}
    (h : i.member? name = some m) : m.size < i.size := by
  obtain ⟨j, hj, found⟩ := List.exists_of_findSome?_eq_some h
  obtain ⟨before, after, split, -⟩ := List.lookup_eq_some_iff.1 found
  have declared : (name, m) ∈ j.members := by rw [split]; simp
  have inside := Member.size_le_of_mem declared
  have above := size_le_of_mem_chain hj
  obtain ⟨_, _, _, members⟩ := j
  simp only [Interface.size] at above
  simp only at inside
  omega

/-! ## Dialogues and checks -/

section lists

variable {m : Type → Type} [Monad m] {α β : Type}

theorem anyM_map (f : β → m Bool) (g : α → β) (xs : List α) :
    (xs.map g).anyM f = xs.anyM fun x => f (g x) := by
  induction xs with
  | nil => rfl
  | cons x xs ih => rw [List.map_cons, List.anyM, List.anyM, ih]

theorem allM_zip_attach (f : α → β → m Bool) (xs : List α) (ys : List β) :
    ((xs.zip ys.attach).allM fun x => f x.1 x.2.1) = (xs.zip ys).allM fun x => f x.1 x.2 := by
  rw [zip_eq_map_zip_attach xs ys, allM_map]
  rfl

end lists

namespace Probe.Simulation

variable {m : Type → Type} [Monad m] {w : World} {p : Probe m} (R : Simulation w Dialogue.probe w p)

section lists

variable {α : Type} {f : α → Dialogue Bool} {xs : List α} {g : { x // x ∈ xs } → m Bool}

theorem allM_attach (h : ∀ x (hx : x ∈ xs), R.Rel (f x) (g ⟨x, hx⟩)) :
    R.Rel (xs.allM f) (xs.attach.allM g) := by
  have attached : xs.allM f = xs.attach.allM fun x => f x.1 := by
    rw [← allM_map f Subtype.val, List.attach_map_subtype_val]
  rw [attached]
  exact R.allM fun x _ => h x.1 x.2

theorem anyM_attach (h : ∀ x (hx : x ∈ xs), R.Rel (f x) (g ⟨x, hx⟩)) :
    R.Rel (xs.anyM f) (xs.attach.anyM g) := by
  have attached : xs.anyM f = xs.attach.anyM fun x => f x.1 := by
    rw [← anyM_map f Subtype.val, List.attach_map_subtype_val]
  rw [attached]
  exact R.anyM fun x _ => h x.1 x.2

end lists

/-- Queries with a candidate of at most one size and a target of less than the other come out as the
checks do. -/
def Answers (width size : Nat) : Prop :=
  ∀ q : Query, q.width ≤ width → q.target.size < size → R.Rel (.query q) (q.check w p)

section signatures

variable {R} {width size : Nat} (nested : R.Answers width size)

include nested

theorem annotationConforms_dialogue {candidate expected : Option TypeSpec}
    (hc : TypeSpec.sizeOption candidate ≤ width) (he : TypeSpec.sizeOption expected ≤ size) :
    R.Rel (Dialogue.annotationConforms candidate expected)
      (Conformance.annotationConforms w p candidate expected) := by
  rw [Conformance.annotationConforms.eq_def]
  match candidate, expected with
  | _, none => exact R.pure _
  | none, some _ => exact R.pure _
  | some c, some e =>
    rw [TypeSpec.sizeOption] at hc he
    exact nested (.isSubtype c e) (by rw [Query.width]; omega) (by rw [Query.target]; omega)

theorem paramConforms_dialogue {candidate expected : Param} (hc : candidate.size ≤ width)
    (he : expected.size ≤ size) :
    R.Rel (Dialogue.paramConforms candidate expected)
      (Conformance.paramConforms w p candidate expected) := by
  rw [Dialogue.paramConforms, Conformance.paramConforms]
  rw [Param.size_eq] at hc he
  refine R.ite (fun _ => R.refuse _) fun _ => ?_
  exact R.orElse (annotationConforms_dialogue nested (by omega) (by omega)) (R.refuse _)

theorem signatureConforms_dialogue {candidate expected : Signature} (hc : candidate.size ≤ width)
    (he : expected.size ≤ size) :
    R.Rel (Dialogue.signatureConforms candidate expected)
      (Conformance.signatureConforms w p candidate expected) := by
  rw [Dialogue.signatureConforms, Conformance.signatureConforms, allM_zip_attach]
  rw [Signature.size_eq] at hc he
  refine R.ite (fun _ => R.refuse _) fun _ => R.ite (fun _ => R.refuse _) fun _ => ?_
  cases (candidate.params.drop expected.params.length).find? (!·.hasDefault) with
  | some extra => exact R.refuse _
  | none =>
    refine R.andThen (R.allM fun q hq => ?_) ?_
    · obtain ⟨given, wanted⟩ := List.of_mem_zip hq
      have := Param.size_le_of_mem given
      have := Param.size_le_of_mem wanted
      exact paramConforms_dialogue nested (by omega) (by omega)
    · exact R.orElse (annotationConforms_dialogue nested (by omega) (by omega)) (R.refuse _)

theorem callableConforms_dialogue (hw : w.width ≤ width) (v : Value) {expected : Signature}
    (he : expected.size ≤ size) :
    R.Rel (Dialogue.callableConforms w v expected)
      (Conformance.callableConforms w p v expected) := by
  rw [Dialogue.callableConforms, Conformance.callableConforms]
  cases calling : w.calling v with
  | notCallable => exact R.refuse _
  | unsigned => exact R.pure _
  | signed signature =>
    have := World.size_le_width_of_calling calling
    exact signatureConforms_dialogue nested (by omega) he

theorem memberConforms_dialogue (hw : w.width ≤ width) (found : Value) {member : Member}
    (hm : member.size ≤ size) :
    R.Rel (Dialogue.memberConforms w found member)
      (Conformance.memberConforms w p found member) := by
  rw [Conformance.memberConforms.eq_def]
  match member with
  | .attribute spec =>
    rw [Member.size] at hm
    exact nested (.satisfies found spec) (Nat.zero_le _) (by rw [Query.target]; omega)
  | .method signature =>
    rw [Member.size] at hm
    exact callableConforms_dialogue nested hw found (by omega)

theorem implements_dialogue (hw : w.width ≤ width) (v : Value) {i : Interface} (hi : i.size ≤ size) :
    R.Rel (Dialogue.implements w v i) (Conformance.implements w p v i) := by
  rw [Dialogue.implements, Conformance.implements]
  refine R.allM_attach fun ⟨name, member⟩ hm => ?_
  have smaller : member.size < i.size := Interface.size_lt_of_mem hm
  dsimp only
  cases w.getAttribute? 0 v name with
  | none => exact R.refuse _
  | some found =>
    exact R.orElse (memberConforms_dialogue nested hw found (by omega)) (R.refuse _)

theorem classProvides_dialogue (hw : w.width ≤ width) (c : Class) (name : String)
    {expected : Signature} (he : expected.size ≤ size) :
    R.Rel (Dialogue.classProvides w c name expected)
      (Conformance.classProvides w p c name expected) := by
  rw [Dialogue.classProvides, Conformance.classProvides]
  rcases found : w.static? c name with _ | v | ⟨owner, method⟩
  · exact R.pure _
  · exact callableConforms_dialogue nested hw v he
  · dsimp only
    cases declared : method.signature with
    | none => exact R.pure _
    | some signature =>
      have := World.size_lt_width (World.declares_of_static? found declared)
      exact signatureConforms_dialogue nested (by omega) he

theorem classImplements_dialogue (hw : w.width ≤ width) (c : Class) {i : Interface}
    (hi : i.size ≤ size) :
    R.Rel (Dialogue.classImplements w c i) (Conformance.classImplements w p c i) := by
  rw [Dialogue.classImplements, Conformance.classImplements]
  refine R.allM_attach fun ⟨name, member⟩ hm => ?_
  have smaller := Interface.size_lt_of_mem hm
  match member with
  | .attribute _ => exact R.pure _
  | .method expected =>
    simp only [Member.size] at smaller
    exact R.orElse (classProvides_dialogue nested hw c name (by omega)) (R.refuse _)

theorem interfaceConforms_dialogue {narrow wide : Interface} (hn : narrow.size ≤ width)
    (hi : wide.size ≤ size) :
    R.Rel (Dialogue.interfaceConforms narrow wide)
      (Conformance.interfaceConforms w p narrow wide) := by
  rw [Dialogue.interfaceConforms, Conformance.interfaceConforms]
  refine R.ite (fun _ => R.pure _) fun _ => R.allM_attach fun ⟨name, wanted⟩ hm => ?_
  have smaller := Interface.size_lt_of_mem hm
  dsimp only
  rcases found : narrow.member? name with _ | given
  · exact R.refuse _
  have inside := Interface.size_lt_of_member? found
  match given, wanted with
  | .attribute given, .attribute want =>
    simp only [Member.size] at smaller inside
    exact nested (.isSubtype given want) (by rw [Query.width]; omega) (by rw [Query.target]; omega)
  | .method given, .method want =>
    simp only [Member.size] at smaller inside
    exact signatureConforms_dialogue nested (by omega) (by omega)
  | .attribute _, .method _ => exact R.refuse _
  | .method _, .attribute _ => exact R.refuse _

end signatures

section specs

variable {R}

/-- The dialogue about a value asks queries about smaller targets; their candidates come from the
signatures of callables. -/
theorem satisfies_dialogue (test : ∀ r v, R.Rel (Dialogue.probe.test r v) (p.test r v)) (v : Value)
    {s : TypeSpec} (nested : R.Answers w.width s.size) :
    R.Rel (Dialogue.satisfies w v s) (Conformance.satisfies w p v s) := by
  have ask : ∀ x (t : TypeSpec), t.size < s.size →
      R.Rel (.query (.satisfies x t)) (Conformance.satisfies w p x t) :=
    fun x t smaller => nested (.satisfies x t) (Nat.zero_le _) smaller
  rw [Conformance.satisfies.eq_def]
  match s, nested, ask with
  | .any, _, _ => exact R.pure _
  | .plain c, _, _ => exact R.pure _
  | .predicate r, _, _ => exact test r v
  | .both left right, _, ask =>
    simp only [TypeSpec.size] at ask
    exact R.andThen (ask v left (by omega)) (ask v right (by omega))
  | .union members, _, ask =>
    refine R.anyM_attach fun s hs => ask v s ?_
    have := TypeSpec.size_le_of_mem hs
    rw [TypeSpec.size]
    omega
  | .interface i, nested, _ =>
    exact implements_dialogue nested (Nat.le_refl _) v (by rw [TypeSpec.size]; omega)
  | .callable key signature, nested, _ =>
    exact callableConforms_dialogue nested (Nat.le_refl _) v (by rw [TypeSpec.size]; omega)
  | .list element, _, ask =>
    cases v with
    | list items => exact R.allM fun x _ => ask x element (by rw [TypeSpec.size]; omega)
    | _ => exact R.pure _
  | .set element, _, ask =>
    cases v with
    | set items => exact R.allM fun x _ => ask x element (by rw [TypeSpec.size]; omega)
    | _ => exact R.pure _
  | .tuple elements, _, ask =>
    cases v with
    | tuple items =>
      dsimp only
      rw [allM_zip_attach]
      refine R.ite (fun _ => R.allM fun x hx => ask x.1 x.2 ?_) fun _ => R.pure _
      have := TypeSpec.size_le_of_mem (List.of_mem_zip hx).2
      rw [TypeSpec.size]
      omega
    | _ => exact R.pure _
  | .mapping key value, _, ask =>
    simp only [TypeSpec.size] at ask
    cases v with
    | dict entries =>
      exact R.allM fun e _ => R.andThen (ask e.1 key (by omega)) (ask e.2 value (by omega))
    | _ => exact R.pure _
  | .optional inner, _, ask =>
    exact R.ite (fun _ => R.pure _) fun _ => ask v inner (by rw [TypeSpec.size]; omega)
  | .only c, _, _ => exact R.pure _
  | .options key values, _, _ => exact R.pure _

theorem isSubtypeByShape_dialogue {candidate target : TypeSpec}
    (nested : R.Answers (max w.width candidate.size) target.size) :
    R.Rel (Dialogue.isSubtypeByShape w candidate target)
      (Conformance.isSubtypeByShape w p candidate target) := by
  have ask : ∀ c t : TypeSpec, c.size ≤ candidate.size → t.size < target.size →
      R.Rel (.query (.isSubtype c t)) (Conformance.isSubtype w p c t) :=
    fun c t narrower smaller =>
      nested (.isSubtype c t) (Nat.le_trans narrower (Nat.le_max_right _ _)) smaller
  have code : w.width ≤ max w.width candidate.size := Nat.le_max_left _ _
  rw [Conformance.isSubtypeByShape.eq_def]
  match target, nested, ask with
  | .plain d, _, _ => cases candidate <;> exact R.pure _
  | .only d, _, _ => cases candidate <;> exact R.pure _
  | .interface wide, nested, _ =>
    have hw : wide.size ≤ (TypeSpec.interface wide).size := by rw [TypeSpec.size]; omega
    cases candidate with
    | plain c => exact classImplements_dialogue nested code c hw
    | only c => exact classImplements_dialogue nested code c hw
    | interface narrow =>
      refine interfaceConforms_dialogue nested ?_ hw
      rw [TypeSpec.size]
      omega
    | _ => exact R.pure _
  | .callable key wide, nested, _ =>
    cases candidate with
    | callable _ narrow =>
      refine signatureConforms_dialogue nested ?_ ?_ <;> simp only [TypeSpec.size] <;> omega
    | _ => exact R.pure _
  | .list wide, _, ask =>
    cases candidate with
    | list narrow =>
      exact ask narrow wide (by simp only [TypeSpec.size]; omega) (by rw [TypeSpec.size]; omega)
    | _ => exact R.pure _
  | .set wide, _, ask =>
    cases candidate with
    | set narrow =>
      exact ask narrow wide (by simp only [TypeSpec.size]; omega) (by rw [TypeSpec.size]; omega)
    | _ => exact R.pure _
  | .tuple wide, _, ask =>
    cases candidate with
    | tuple narrow =>
      dsimp only
      rw [allM_zip_attach]
      refine R.ite (fun _ => R.allM fun s hs => ask s.1 s.2 ?_ ?_) fun _ => R.pure _
      · have := TypeSpec.size_le_of_mem (List.of_mem_zip hs).1
        rw [TypeSpec.size]
        omega
      · have := TypeSpec.size_le_of_mem (List.of_mem_zip hs).2
        rw [TypeSpec.size]
        omega
    | _ => exact R.pure _
  | .mapping l x, _, ask =>
    cases candidate with
    | mapping k v =>
      simp only [TypeSpec.size] at ask
      exact R.andThen (ask k l (by omega) (by omega)) (ask v x (by omega) (by omega))
    | _ => exact R.pure _
  | .any, _, _ | .predicate _, _, _ | .both _ _, _, _ | .union _, _, _ | .optional _, _, _
  | .options _ _, _, _ => cases candidate <;> exact R.pure _

theorem isSubtypeOfParts_dialogue {candidate target : TypeSpec}
    (nested : R.Answers (max w.width candidate.size) target.size) :
    R.Rel (Dialogue.isSubtypeOfParts w candidate target)
      (Conformance.isSubtypeOfParts w p candidate target) := by
  have ask : ∀ t : TypeSpec, t.size < target.size →
      R.Rel (.query (.isSubtype candidate t)) (Conformance.isSubtype w p candidate t) :=
    fun t smaller => nested (.isSubtype candidate t) (Nat.le_max_right _ _) smaller
  rw [Conformance.isSubtypeOfParts.eq_def]
  match target, nested, ask with
  | .union members, _, ask =>
    refine R.anyM_attach fun t ht => ask t ?_
    have := TypeSpec.size_le_of_mem ht
    rw [TypeSpec.size]
    omega
  | .optional inner, _, ask =>
    exact R.ite (fun _ => R.pure _) fun _ => ask inner (by rw [TypeSpec.size]; omega)
  | .any, nested, _ | .plain _, nested, _ | .predicate _, nested, _ | .both _ _, nested, _
  | .interface _, nested, _ | .callable _ _, nested, _ | .list _, nested, _ | .set _, nested, _
  | .tuple _, nested, _ | .mapping _ _, nested, _ | .only _, nested, _ | .options _ _, nested, _ =>
    exact isSubtypeByShape_dialogue nested

/-- The dialogue about two specs asks queries about smaller targets, or about the same target and a
smaller candidate. -/
theorem isSubtype_dialogue {candidate target : TypeSpec}
    (nested : R.Answers (max w.width candidate.size) target.size)
    (parts : ∀ q : Query, q.width < candidate.size → q.target = target →
      R.Rel (.query q) (q.check w p)) :
    R.Rel (Dialogue.isSubtype w candidate target)
      (Conformance.isSubtype w p candidate target) := by
  have ask : ∀ c : TypeSpec, c.size < candidate.size →
      R.Rel (.query (.isSubtype c target)) (Conformance.isSubtype w p c target) :=
    fun c smaller => parts (.isSubtype c target) smaller rfl
  rw [Dialogue.isSubtype.eq_def, Conformance.isSubtype.eq_def]
  refine R.ite (fun _ => R.pure _) fun _ => ?_
  cases candidate with
  | union members =>
    refine R.allM_attach fun s hs => ask s ?_
    have := TypeSpec.size_le_of_mem hs
    rw [TypeSpec.size]
    omega
  | optional inner =>
    have := inner.size_pos
    simp only [TypeSpec.size] at ask
    exact R.andThen (ask (.plain .noneType) (by rw [TypeSpec.size]; omega)) (ask inner (by omega))
  | options key values =>
    refine R.allM fun v _ => parts (.satisfies v target) ?_ rfl
    rw [TypeSpec.size, Query.width]
    omega
  | both left right =>
    simp only [TypeSpec.size] at ask
    exact R.orElse (ask left (by omega)) (ask right (by omega))
  | _ => exact isSubtypeOfParts_dialogue nested

end specs

variable {R}

/-- A dialogue comes out as the check does if the queries that it descends to do. -/
theorem check (test : ∀ r v, R.Rel (Dialogue.probe.test r v) (p.test r v)) {q : Query}
    (nested : ∀ q', q.Descends w q' → R.Rel (.query q') (q'.check w p)) :
    R.Rel (q.dialogue w) (q.check w p) := by
  cases q with
  | satisfies v s =>
    exact satisfies_dialogue test v fun q' narrow smaller =>
      nested q' (.inl ⟨smaller, Nat.le_trans narrow (Nat.le_max_left _ _)⟩)
  | isSubtype candidate target =>
    refine isSubtype_dialogue (fun q' narrow smaller => nested q' (.inl ⟨smaller, narrow⟩)) ?_
    intro q' narrower same
    exact nested q' (.inr ⟨congrArg TypeSpec.size same, narrower⟩)

end Probe.Simulation

end TypeContracts
