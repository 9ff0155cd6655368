import Mathlib.Data.List.Forall2
import Mathlib.Data.List.Induction
import TypeContracts.Spec.Interface

/-!
Declaring an interface. A draft takes declarations one after the other and keeps the first fault it
meets, while later declarations go on changing it. A faulty declaration adds no member, so after a fault
the draft knows fewer names than were declared. That makes no difference, because up to the first fault
it knows all of them: `Draft.Gathers` says what a draft holds after a list of declarations.
Main statement: `Interface.build_decides_declarations`.
-/

namespace TypeContracts.Interface

/-! ## Declarations on their own -/

namespace Declaration

/-- The name of the member that is declared. -/
def name? : Declaration → Option String
  | .base _ => none
  | .attribute name _ | .method name _ => some name

/-- The interface that is made the base. -/
def base? : Declaration → Option Interface
  | .base i => some i
  | .attribute _ _ | .method _ _ => none

/-- What is wrong with a declaration by itself: a literal that describes no spec, or a variadic method. -/
def ownFault? : Declaration → Option InvalidSpec
  | .base _ => none
  | .attribute _ literal =>
      match literal.toSpec with
      | .ok _ => none
      | .error invalid => some invalid
  | .method _ signature =>
      (signature.params.find? (·.isVariadic)).map fun p => .variadicSignature p.name

/-- What is wrong with a declaration after the ones before it: it is faulty by itself, or its name is
declared already. -/
def fault? (before : List Declaration) (x : Declaration) : Option InvalidSpec :=
  x.ownFault?.or <| x.name?.bind fun name =>
    if name ∈ before.filterMap name? then some (.duplicateMember name) else none

/-- The member, with its name, that a declaration asks for. -/
inductive Declares : Declaration → String × Member → Prop where
  | attribute {name : String} {literal : SpecLiteral} {s : TypeSpec} (made : literal.toSpec = .ok s) :
      Declares (.attribute name literal) (name, .attribute s)
  | method (name : String) (signature : Signature) :
      Declares (.method name signature) (name, .method signature)

/-- No declaration has a fault after the ones before it. -/
def Faultless (declarations : List Declaration) : Prop :=
  ∀ before x after, declarations = before ++ x :: after → x.fault? before = none

/-- The fault of the earliest declaration that has one after the ones before it. -/
def FirstFault (declarations : List Declaration) (invalid : InvalidSpec) : Prop :=
  ∃ before x after, declarations = before ++ x :: after ∧ Faultless before ∧
    x.fault? before = some invalid

variable {declarations : List Declaration} {x : Declaration} {invalid : InvalidSpec}

/-- A declaration is faultless by itself if it is an attribute whose literal describes a spec, a method
that is not variadic, or a base. -/
theorem ownFault?_eq_none_iff :
    x.ownFault? = none ↔
      (∀ name literal, x = .attribute name literal → ∃ s, literal.toSpec = .ok s) ∧
        ∀ name signature, x = .method name signature → signature.isVariadic = false := by
  match x with
  | .base i => exact ⟨fun _ => ⟨nofun, nofun⟩, fun _ => rfl⟩
  | .attribute name literal =>
    rw [ownFault?]
    cases made : literal.toSpec <;> simp [made]
  | .method name signature => simp [ownFault?, Signature.isVariadic]

theorem fault?_eq_none_iff :
    x.fault? declarations = none ↔
      x.ownFault? = none ∧ ∀ name, x.name? = some name → name ∉ declarations.filterMap name? := by
  rw [fault?, Option.or_eq_none_iff]
  refine and_congr_right fun _ => ?_
  cases x.name? <;> simp

/-- A list of declarations split at one of them, if one more is added at the end: the place is in the
list, or it is the end. -/
theorem concat_eq_split_iff {before after : List Declaration} {y : Declaration} :
    declarations ++ [x] = before ++ y :: after ↔
      (∃ after', declarations = before ++ y :: after' ∧ after = after' ++ [x]) ∨
        before = declarations ∧ y = x ∧ after = [] := by
  constructor
  · intro split
    rcases List.eq_nil_or_concat after with rfl | ⟨after', z, rfl⟩
    · obtain ⟨rfl, same⟩ := List.append_inj' split rfl
      cases same
      exact .inr ⟨rfl, rfl, rfl⟩
    · rw [List.concat_eq_append, ← List.cons_append, ← List.append_assoc] at split
      obtain ⟨rfl, same⟩ := List.append_inj' split rfl
      cases same
      exact .inl ⟨after', rfl, List.concat_eq_append⟩
  · rintro (⟨after', rfl, rfl⟩ | ⟨rfl, rfl, rfl⟩) <;> simp

theorem faultless_nil : Faultless [] := by
  intro before x after split
  simp at split

theorem faultless_concat_iff :
    Faultless (declarations ++ [x]) ↔ Faultless declarations ∧ x.fault? declarations = none := by
  constructor
  · intro h
    refine ⟨fun before y after split => ?_, h declarations x [] rfl⟩
    exact h before y (after ++ [x]) (by rw [split]; simp)
  · rintro ⟨h, last⟩ before y after split
    rcases concat_eq_split_iff.1 split with ⟨after', split, -⟩ | ⟨rfl, rfl, -⟩
    · exact h before y after' split
    · exact last

theorem not_firstFault_nil : ¬ FirstFault [] invalid := by
  rintro ⟨before, x, after, split, -⟩
  simp at split

theorem firstFault_concat_iff :
    FirstFault (declarations ++ [x]) invalid ↔
      FirstFault declarations invalid ∨
        Faultless declarations ∧ x.fault? declarations = some invalid := by
  constructor
  · rintro ⟨before, y, after, split, faultless, faulty⟩
    rcases concat_eq_split_iff.1 split with ⟨after', split, -⟩ | ⟨rfl, rfl, -⟩
    · exact .inl ⟨before, y, after', split, faultless, faulty⟩
    · exact .inr ⟨faultless, faulty⟩
  · rintro (⟨before, y, after, split, faultless, faulty⟩ | ⟨faultless, faulty⟩)
    · exact ⟨before, y, after ++ [x], by rw [split]; simp, faultless, faulty⟩
    · exact ⟨declarations, x, [], rfl, faultless, faulty⟩

/-- Declarations are without fault if none is faulty by itself and no two share a name. -/
theorem faultless_iff :
    Faultless declarations ↔
      (∀ x ∈ declarations, x.ownFault? = none) ∧ (declarations.filterMap name?).Nodup := by
  induction declarations using List.reverseRecOn with
  | nil => simp [faultless_nil]
  | append_singleton rest x ih =>
    rw [faultless_concat_iff, fault?_eq_none_iff, ih, List.filterMap_append, List.nodup_append]
    have alone : ([x].filterMap name?) = x.name?.toList := by cases h : x.name? <;> simp [h]
    rw [alone]
    cases x.name? <;> grind

end Declaration

/-! ## Drafts -/

namespace Draft

open Declaration

/-- What a draft holds after the given declarations: the last base, the first fault, and, as long as there
is no fault, every member in the order of declaration. -/
structure Gathers (d : Draft) (declarations : List Declaration) : Prop where
  base : d.base = (declarations.filterMap base?).getLast?
  fault : ∀ invalid, d.fault = some invalid ↔ FirstFault declarations invalid
  faultless : d.fault = none ↔ Faultless declarations
  members : d.fault = none → List.Forall₂ Declares (declarations.filter (·.name?.isSome)) d.members

variable {d : Draft} {declarations : List Declaration} {x : Declaration} {invalid : InvalidSpec}

theorem fault_fail_eq (d : Draft) (invalid : InvalidSpec) :
    (d.fail invalid).fault = d.fault.or (some invalid) := by
  cases h : d.fault <;> simp [fail, h]

theorem fault_fail (d : Draft) (invalid : InvalidSpec) : (d.fail invalid).fault ≠ none := by
  rw [fault_fail_eq]
  cases d.fault <;> simp

theorem add_of_fault {name : String} {m : Member} (h : (d.add name m).fault = none) :
    d.add name m = { d with members := d.members ++ [(name, m)] } := by
  rw [add] at h ⊢
  split
  · rename_i taken
    rw [if_pos taken] at h
    exact absurd h (d.fault_fail _)
  · rfl

/-- What a declaration does to a draft: it sets the base, records a fault of its own, or adds the member
that it declares. -/
theorem declare_ways (d : Draft) (x : Declaration) :
    (∃ i, x = .base i ∧ d.declare x = { d with base := some i }) ∨
      x.base? = none ∧
        ((∃ invalid, x.ownFault? = some invalid ∧ d.declare x = d.fail invalid) ∨
          ∃ name m, x.ownFault? = none ∧ x.name? = some name ∧ x.Declares (name, m) ∧
            d.declare x = d.add name m) := by
  match x with
  | .base i => exact .inl ⟨i, rfl, rfl⟩
  | .attribute name literal =>
    refine .inr ⟨rfl, ?_⟩
    rw [ownFault?, declare]
    cases made : literal.toSpec with
    | error invalid => exact .inl ⟨invalid, rfl, rfl⟩
    | ok s => exact .inr ⟨name, .attribute s, rfl, rfl, .attribute made, rfl⟩
  | .method name signature =>
    refine .inr ⟨rfl, ?_⟩
    rw [ownFault?, declare, Signature.requireFixedArity]
    cases signature.params.find? (·.isVariadic) with
    | some p => exact .inl ⟨.variadicSignature p.name, rfl, rfl⟩
    | none => exact .inr ⟨name, .method signature, rfl, rfl, .method name signature, rfl⟩

/-- A base is replaced by a later one, whether or not there are faults. -/
theorem base_declare (d : Draft) (x : Declaration) : (d.declare x).base = x.base?.or d.base := by
  rcases d.declare_ways x with ⟨i, rfl, done⟩ | ⟨none, ⟨invalid, -, done⟩ | ⟨name, m, -, -, -, done⟩⟩
  · rw [done]
    rfl
  · rw [done, none]
    rfl
  · rw [done, none, add]
    split <;> rfl

/-- The first fault stays, whatever is declared after it. -/
theorem fault_declare_of_some (h : d.fault = some invalid) (x : Declaration) :
    (d.declare x).fault = some invalid := by
  rcases d.declare_ways x with ⟨i, -, done⟩ | ⟨-, ⟨e, -, done⟩ | ⟨name, m, -, -, -, done⟩⟩
  · rw [done]
    exact h
  · rw [done, fault_fail_eq, h]
    rfl
  · rw [done, add]
    split
    · rw [fault_fail_eq, h]
      rfl
    · exact h

/-- A draft without a fault that knows the names declared before finds the fault of a declaration. -/
theorem fault_declare_of_none (h : d.fault = none)
    (names : d.members.map (·.1) = declarations.filterMap name?) (x : Declaration) :
    (d.declare x).fault = x.fault? declarations := by
  have taken : ∀ name, d.members.any (·.1 == name) ↔ name ∈ declarations.filterMap name? := by
    intro name
    rw [← names]
    simp
  rcases d.declare_ways x with ⟨i, rfl, done⟩ | ⟨-, ⟨e, own, done⟩ | ⟨name, m, own, named, -, done⟩⟩
  · rw [done]
    exact h
  · rw [done, fault_fail_eq, h, fault?, own]
    rfl
  · rw [done, add, fault?, own, named, Option.bind_some]
    by_cases old : name ∈ declarations.filterMap name?
    · rw [if_pos ((taken name).2 old), if_pos old, fault_fail_eq, h]
    · rw [if_neg (mt (taken name).1 old), if_neg old]
      exact h

/-- A declaration without a fault adds the member that it declares, if it declares one. -/
theorem members_declare_of_none (h : (d.declare x).fault = none) :
    ∃ added, (d.declare x).members = d.members ++ added ∧
      List.Forall₂ Declares ([x].filter (·.name?.isSome)) added := by
  rcases d.declare_ways x with ⟨i, rfl, done⟩ | ⟨-, ⟨e, -, done⟩ | ⟨name, m, -, named, declares, done⟩⟩
  · exact ⟨[], by simp [done], .nil⟩
  · rw [done] at h
    exact absurd h (d.fault_fail e)
  · rw [done] at h ⊢
    exact ⟨[(name, m)], by rw [add_of_fault h], by simp [named, declares]⟩

theorem names_of_declares {xs : List Declaration} {ms : List (String × Member)}
    (h : List.Forall₂ Declares (xs.filter (·.name?.isSome)) ms) :
    ms.map (·.1) = xs.filterMap name? := by
  induction xs generalizing ms with
  | nil => cases h; rfl
  | cons x xs ih =>
    match x, h with
    | .base i, h => exact ih h
    | .attribute name literal, .cons (.attribute made) rest => simp [name?, ih rest]
    | .method name signature, .cons (.method _ _) rest => simp [name?, ih rest]

/-- One declaration more. Before it there is a fault, which stays, or there is none, and then the draft
knows all names declared so far. -/
theorem Gathers.declare (h : d.Gathers declarations) (x : Declaration) :
    (d.declare x).Gathers (declarations ++ [x]) := by
  have base : (d.declare x).base = ((declarations ++ [x]).filterMap base?).getLast? := by
    rw [base_declare, h.base, List.filterMap_append, List.getLast?_append]
    cases set : x.base? <;> simp [set]
  cases before : d.fault with
  | some e =>
    have faulty : ¬ Faultless declarations := by
      rw [← h.faultless, before]
      nofun
    have kept := fault_declare_of_some before x
    refine ⟨base, fun invalid => ?_, ?_, fun none => ?_⟩
    · rw [kept, firstFault_concat_iff, ← h.fault, before]
      simp [faulty]
    · rw [kept, faultless_concat_iff]
      simp [faulty]
    · rw [kept] at none
      cases none
  | none =>
    have faultless := h.faultless.1 before
    have found := fault_declare_of_none before (names_of_declares (h.members before)) x
    refine ⟨base, fun invalid => ?_, ?_, fun none => ?_⟩
    · rw [found, firstFault_concat_iff, ← h.fault, before]
      simp [faultless]
    · rw [found, faultless_concat_iff]
      simp [faultless]
    · obtain ⟨added, members, declares⟩ := members_declare_of_none none
      rw [members, List.filter_append]
      exact List.rel_append (h.members before) declares

theorem gathers_foldl (declarations : List Declaration) :
    (declarations.foldl Draft.declare .empty).Gathers declarations := by
  induction declarations using List.reverseRecOn with
  | nil =>
    refine ⟨rfl, fun invalid => ?_, ?_, fun _ => .nil⟩
    · exact ⟨nofun, fun first => absurd first not_firstFault_nil⟩
    · exact ⟨fun _ => faultless_nil, fun _ => rfl⟩
  | append_singleton declarations x ih =>
    rw [List.foldl_append]
    exact ih.declare x

end Draft

/-! ## Interfaces -/

/-- Building succeeds just when every attribute's literal describes a spec, no method is variadic and no
two declarations share a name. The interface then has the last base that was given, and the members in the
order in which they were declared. Otherwise building fails for the earliest declaration that is faulty
after the ones before it, whatever comes after. -/
theorem build_decides_declarations (key : Nat) (name : String) (declarations : List Declaration) :
    ((∃ i, build key name declarations = .ok i) ↔
      (∀ member literal, .attribute member literal ∈ declarations → ∃ s, literal.toSpec = .ok s) ∧
        (∀ member signature, .method member signature ∈ declarations → signature.isVariadic = false) ∧
          (declarations.filterMap Declaration.name?).Nodup) ∧
      (∀ i, build key name declarations = .ok i → i.name = name ∧
        i.base = (declarations.filterMap Declaration.base?).getLast? ∧
          List.Forall₂ Declaration.Declares (declarations.filter (·.name?.isSome)) i.members) ∧
        ∀ invalid, build key name declarations = .error invalid ↔
          Declaration.FirstFault declarations invalid := by
  have gathers := Draft.gathers_foldl declarations
  have conditions : Declaration.Faultless declarations ↔
      (∀ member literal, .attribute member literal ∈ declarations → ∃ s, literal.toSpec = .ok s) ∧
        (∀ member signature, .method member signature ∈ declarations → signature.isVariadic = false) ∧
          (declarations.filterMap Declaration.name?).Nodup := by
    rw [Declaration.faultless_iff, ← and_assoc]
    simp only [Declaration.ownFault?_eq_none_iff]
    refine and_congr_left fun _ => ⟨fun h => ⟨?_, ?_⟩, fun h x hx => ⟨?_, ?_⟩⟩
    · exact fun member literal declared => (h _ declared).1 member literal rfl
    · exact fun member signature declared => (h _ declared).2 member signature rfl
    · exact fun member literal same => h.1 member literal (same ▸ hx)
    · exact fun member signature same => h.2 member signature (same ▸ hx)
  rw [← conditions, ← gathers.faultless, build]
  simp only [← gathers.fault]
  generalize declarations.foldl Draft.declare .empty = draft at gathers ⊢
  cases fault : draft.fault with
  | some invalid => simp
  | none =>
    refine ⟨by simp, ?_, by simp⟩
    rintro i made
    cases made
    exact ⟨rfl, gathers.base, gathers.members fault⟩

/-- An interface with two bases, of which the second counts; and the same one declared further, with a
literal that holds nothing under a name that is taken, and a name declared twice. -/
theorem worker_build_decides :
    let named : Interface := ⟨0, "Named", none, [("name", .attribute (.plain .str))]⟩
    let paid : Interface := ⟨1, "Paid", some named, []⟩
    let worker : List Declaration :=
      [.base named, .attribute "tasks" (.list [.value (.cls .str)]), .base paid,
        .method "work" ⟨[], some (.plain .int)⟩]
    (∃ i, build 2 "Worker" worker = .ok i ∧ i.base = some paid ∧
      i.members.map (·.1) = ["tasks", "work"]) ∧
      ∀ after, build 2 "Worker" (worker ++ .attribute "work" (.list []) :: .base named :: after) =
        .error (.malformedLiteral .list 0) := by
  intro named paid worker
  have faultless : Declaration.Faultless worker := by
    refine Declaration.faultless_iff.2 ⟨fun x hx => ?_, by decide⟩
    simp only [worker, List.mem_cons, List.not_mem_nil, or_false] at hx
    rcases hx with rfl | rfl | rfl | rfl <;> rfl
  obtain ⟨accepted, kept, -⟩ := build_decides_declarations 2 "Worker" worker
  obtain ⟨i, made⟩ : ∃ i, build 2 "Worker" worker = .ok i := by
    refine accepted.2 ⟨fun member literal declared => ?_, fun member signature declared => ?_, by decide⟩
    · simp only [worker, List.mem_cons, reduceCtorEq, Declaration.attribute.injEq, List.not_mem_nil,
        or_false, false_or] at declared
      rw [declared.2]
      exact ⟨_, rfl⟩
    · simp only [worker, List.mem_cons, reduceCtorEq, Declaration.method.injEq, List.not_mem_nil,
        or_false, false_or] at declared
      rw [declared.2]
      rfl
  obtain ⟨-, base, members⟩ := kept i made
  refine ⟨⟨i, made, base, ?_⟩, fun after => ?_⟩
  · exact Draft.names_of_declares members
  · obtain ⟨-, -, refused⟩ := build_decides_declarations 2 "Worker"
      (worker ++ .attribute "work" (.list []) :: .base named :: after)
    exact (refused _).2 ⟨worker, _, _, rfl, faultless, rfl⟩

end TypeContracts.Interface
