import Mathlib.Data.List.Forall2
import Mathlib.Logic.Relation
import TypeContracts.Spec.Literal

/-!
The grammar of spec literals. A literal is a tree whose nodes are literals and values, read alike: a
class reads as its spec, and a container of values as the literal that holds them. A node can have a
fault of its own, whatever its parts are. A literal describes a spec if no node has one, and otherwise
it is refused for the first that has, counted from the top and from left to right.
Main statement: `SpecLiteral.toSpec_follows_grammar`.
-/

namespace TypeContracts

/-- The literal that a class or a container of values reads as. -/
def Value.literal? : Value → Option SpecLiteral
  | .cls c => some (.spec (.plain c))
  | .list vs => some (.list (vs.map .value))
  | .set vs => some (.set (vs.map .value))
  | .tuple vs => some (.tuple (vs.map .value))
  | .dict es => some (.mapping (es.map fun e => (.value e.1, .value e.2)))
  | _ => none

namespace SpecLiteral

variable {l l' x : SpecLiteral} {v : Value} {s t : TypeSpec} {e : InvalidSpec}

/-! ## Nodes -/

/-- The literal with its top open: a value is replaced by what it reads as. -/
def opened : SpecLiteral → SpecLiteral
  | .value v => v.literal?.getD (.value v)
  | l => l

/-- The parts of a literal from left to right, a key before its value. -/
def children (l : SpecLiteral) : List SpecLiteral :=
  match l.opened with
  | .spec _ | .value _ => []
  | .list xs | .set xs | .tuple xs => xs
  | .mapping es => es.flatMap fun e => [e.1, e.2]

theorem sizeOf_value_lt {vs : List Value} (h : x ∈ vs.map value) : sizeOf x < 2 + sizeOf vs := by
  obtain ⟨v, hv, rfl⟩ := List.mem_map.1 h
  have := List.sizeOf_lt_of_mem hv
  rw [value.sizeOf_spec]
  omega

theorem sizeOf_lt_of_mem_children (h : x ∈ l.children) : sizeOf x < sizeOf l := by
  cases l with
  | spec s => cases h
  | list xs | set xs | tuple xs =>
    have : sizeOf x < sizeOf xs := List.sizeOf_lt_of_mem h
    simp only [list.sizeOf_spec, set.sizeOf_spec, tuple.sizeOf_spec]
    omega
  | mapping es =>
    obtain ⟨⟨k, y⟩, he, hx⟩ := List.mem_flatMap.1 h
    have := List.sizeOf_lt_of_mem he
    simp only [List.mem_cons, List.not_mem_nil, or_false] at hx
    simp only [Prod.mk.sizeOf_spec, mapping.sizeOf_spec] at this ⊢
    rcases hx with rfl | rfl <;> omega
  | value v =>
    cases v with
    | list vs | set vs | tuple vs => simpa [← Nat.add_assoc] using sizeOf_value_lt h
    | dict es =>
      obtain ⟨e, he, hx⟩ := List.mem_flatMap.1 h
      obtain ⟨⟨k, y⟩, hky, rfl⟩ := List.mem_map.1 he
      have := List.sizeOf_lt_of_mem hky
      simp only [List.mem_cons, List.not_mem_nil, or_false] at hx
      simp only [Prod.mk.sizeOf_spec] at this
      rcases hx with rfl | rfl <;> simp <;> omega
    | _ => cases h

/-- The nodes of a literal: itself, and then those of its parts from left to right. -/
def nodes (l : SpecLiteral) : List SpecLiteral :=
  l :: l.children.attach.flatMap fun x => x.1.nodes
termination_by sizeOf l
decreasing_by exact sizeOf_lt_of_mem_children x.2

theorem nodes_eq (l : SpecLiteral) : l.nodes = l :: l.children.flatMap nodes := by
  rw [nodes, List.flatMap_subtype fun _ _ => rfl, List.unattach_attach]

/-- The fault of holding `n` elements where one is needed. -/
def misfit? (shape : LiteralShape) (n : Nat) : Option InvalidSpec :=
  if n = 1 then none else some (.malformedLiteral shape n)

/-- The fault of a node itself. A list, set or mapping, of literals or of values, holds one element or
entry, and a leaf is a spec or a class. -/
def fault? (l : SpecLiteral) : Option InvalidSpec :=
  match l.opened with
  | .spec _ | .tuple _ => none
  | .value v => some (.notAType v.inspect)
  | .list xs => misfit? .list xs.length
  | .set xs => misfit? .set xs.length
  | .mapping es => misfit? .mapping es.length

/-- The spec has the shape of the literal: containers for containers, and at the leaves the same specs,
and the specs of the classes. -/
inductive Denotes : SpecLiteral → TypeSpec → Prop where
  | spec (s : TypeSpec) : Denotes (.spec s) s
  | value {v : Value} {l : SpecLiteral} {s : TypeSpec} (reads : v.literal? = some l) (h : Denotes l s) :
      Denotes (.value v) s
  | list {x : SpecLiteral} {s : TypeSpec} (h : Denotes x s) : Denotes (.list [x]) (.list s)
  | set {x : SpecLiteral} {s : TypeSpec} (h : Denotes x s) : Denotes (.set [x]) (.set s)
  | tuple {xs : List SpecLiteral} {ss : List TypeSpec} (h : List.Forall₂ Denotes xs ss) :
      Denotes (.tuple xs) (.tuple ss)
  | mapping {k x : SpecLiteral} {s t : TypeSpec} (hk : Denotes k s) (hx : Denotes x t) :
      Denotes (.mapping [(k, x)]) (.mapping s t)

/-- In one place of the literal, a value is replaced by what it reads as. -/
inductive Replaced : SpecLiteral → SpecLiteral → Prop where
  | value {v : Value} {l : SpecLiteral} (reads : v.literal? = some l) : Replaced (.value v) l
  | list {x y : SpecLiteral} (before after : List SpecLiteral) (h : Replaced x y) :
      Replaced (.list (before ++ x :: after)) (.list (before ++ y :: after))
  | set {x y : SpecLiteral} (before after : List SpecLiteral) (h : Replaced x y) :
      Replaced (.set (before ++ x :: after)) (.set (before ++ y :: after))
  | tuple {x y : SpecLiteral} (before after : List SpecLiteral) (h : Replaced x y) :
      Replaced (.tuple (before ++ x :: after)) (.tuple (before ++ y :: after))
  | key {k k' : SpecLiteral} (x : SpecLiteral) (before after : List (SpecLiteral × SpecLiteral))
      (h : Replaced k k') :
      Replaced (.mapping (before ++ (k, x) :: after)) (.mapping (before ++ (k', x) :: after))
  | entry {x x' : SpecLiteral} (k : SpecLiteral) (before after : List (SpecLiteral × SpecLiteral))
      (h : Replaced x x') :
      Replaced (.mapping (before ++ (k, x) :: after)) (.mapping (before ++ (k, x') :: after))

/-! ## Reading a node -/

/-- The only spec of a list of attempts, if there is one attempt. -/
def sole (shape : LiteralShape) : List (Except InvalidSpec TypeSpec) → Except InvalidSpec TypeSpec
  | [made] => made
  | all => .error (.malformedLiteral shape all.length)

def entrySpec (e : SpecLiteral × SpecLiteral) : Except InvalidSpec TypeSpec := do
  let key ← e.1.toSpec
  let value ← e.2.toSpec
  return .mapping key value

theorem toSpec_list (xs : List SpecLiteral) :
    (list xs).toSpec = sole .list (xs.map fun x => .list <$> x.toSpec) := by
  match xs with
  | [] => rfl
  | [x] => simp [toSpec, sole]
  | x :: y :: xs => simp [toSpec, sole]

theorem toSpec_set (xs : List SpecLiteral) :
    (set xs).toSpec = sole .set (xs.map fun x => .set <$> x.toSpec) := by
  match xs with
  | [] => rfl
  | [x] => simp [toSpec, sole]
  | x :: y :: xs => simp [toSpec, sole]

theorem toSpec_mapping (es : List (SpecLiteral × SpecLiteral)) :
    (mapping es).toSpec = sole .mapping (es.map entrySpec) := by
  match es with
  | [] => rfl
  | [e] => rfl
  | e :: f :: es => simp [toSpec, sole]

theorem toSpecs_eq_mapM (xs : List SpecLiteral) : toSpecs xs = xs.mapM toSpec := by
  induction xs with
  | nil => rfl
  | cons x xs ih => rw [toSpecs, ih, List.mapM_cons]

theorem toSpec_tuple (xs : List SpecLiteral) : (tuple xs).toSpec = .tuple <$> xs.mapM toSpec := by
  rw [toSpec, toSpecs_eq_mapM]
  rfl

theorem toSpecs_values (vs : List Value) : toSpecs (vs.map .value) = Value.toSpecs vs := by
  induction vs with
  | nil => rfl
  | cons v vs ih => rw [List.map_cons, toSpecs, ih, toSpec, Value.toSpecs]

/-- A value describes what the literal describes that it reads as. -/
theorem toSpec_value (reads : v.literal? = some l) : (value v).toSpec = l.toSpec := by
  rw [toSpec]
  cases v with
  | cls c => cases reads; rfl
  | list vs =>
    cases reads
    match vs with
    | [] | [v] => rfl
    | v :: w :: vs => simp [toSpec, Value.toSpec]
  | set vs =>
    cases reads
    match vs with
    | [] | [v] => rfl
    | v :: w :: vs => simp [toSpec, Value.toSpec]
  | tuple vs =>
    cases reads
    rw [Value.toSpec, toSpec, toSpecs_values]
  | dict es =>
    cases reads
    match es with
    | [] | [e] => rfl
    | e :: f :: es => simp [toSpec, Value.toSpec]
  | _ => cases reads

theorem toSpec_opened (l : SpecLiteral) : l.opened.toSpec = l.toSpec := by
  cases l with
  | value v =>
    rw [opened]
    cases reads : v.literal? with
    | none => rfl
    | some l => exact (toSpec_value reads).symm
  | _ => rfl

/-- A value at an open top is no class and no container. -/
theorem literal?_of_opened_eq_value (h : l.opened = .value v) : v.literal? = none := by
  cases l with
  | value w =>
    rw [opened] at h
    cases reads : w.literal? with
    | none =>
      rw [reads] at h
      cases h
      exact reads
    | some l =>
      rw [reads] at h
      cases w <;> cases reads <;> cases h
  | _ => cases h

theorem toSpec_value_of_none (leaf : v.literal? = none) :
    (value v).toSpec = .error (.notAType v.inspect) := by
  cases v <;> first | rfl | cases leaf

/-! ## Faults -/

/-- The error of an attempt that fails. -/
def error? {α : Type} : Except InvalidSpec α → Option InvalidSpec
  | .ok _ => none
  | .error e => some e

theorem error?_eq_some_iff {α : Type} {attempt : Except InvalidSpec α} :
    error? attempt = some e ↔ attempt = .error e := by
  cases attempt <;> simp [error?]

theorem error?_eq_none_iff {α : Type} {attempt : Except InvalidSpec α} :
    error? attempt = none ↔ ∃ a, attempt = .ok a := by
  cases attempt <;> simp [error?]

theorem error?_map {α β : Type} (f : α → β) (attempt : Except InvalidSpec α) :
    error? (f <$> attempt) = error? attempt := by
  cases attempt <;> rfl

theorem error?_sole (shape : LiteralShape) (attempts : List (Except InvalidSpec TypeSpec)) :
    error? (sole shape attempts) = (misfit? shape attempts.length).or (attempts.findSome? error?) := by
  match attempts with
  | [] => rfl
  | [attempt] => cases attempt <;> rfl
  | a :: b :: rest => simp [sole, error?, misfit?]

theorem error?_sole_map (make : TypeSpec → TypeSpec) (shape : LiteralShape) (xs : List SpecLiteral) :
    error? (sole shape (xs.map fun x => make <$> x.toSpec)) =
      (misfit? shape xs.length).or (xs.findSome? fun x => error? x.toSpec) := by
  rw [error?_sole, List.length_map, List.findSome?_map]
  simp only [Function.comp_def, error?_map]

theorem error?_entrySpec (e : SpecLiteral × SpecLiteral) :
    error? (entrySpec e) = [e.1, e.2].findSome? fun x => error? x.toSpec := by
  rw [entrySpec, List.findSome?_cons, List.findSome?_cons]
  cases e.1.toSpec with
  | error e => rfl
  | ok key => cases e.2.toSpec <;> rfl

theorem error?_mapM (xs : List SpecLiteral) :
    error? (xs.mapM toSpec) = xs.findSome? fun x => error? x.toSpec := by
  induction xs with
  | nil => rfl
  | cons x xs ih =>
    rw [List.mapM_cons, List.findSome?_cons, ← ih]
    cases x.toSpec with
    | error e => rfl
    | ok s => cases xs.mapM toSpec <;> rfl

theorem findSome?_flatMap {α β γ : Type} (f : α → List β) (g : β → Option γ) (xs : List α) :
    (xs.flatMap f).findSome? g = xs.findSome? fun x => (f x).findSome? g := by
  induction xs with
  | nil => rfl
  | cons x xs ih =>
    rw [List.flatMap_cons, List.findSome?_append, ih, List.findSome?_cons]
    cases (f x).findSome? g <;> rfl

theorem findSome?_congr {α β : Type} {f g : α → Option β} {xs : List α}
    (h : ∀ x ∈ xs, f x = g x) : xs.findSome? f = xs.findSome? g := by
  induction xs with
  | nil => rfl
  | cons x xs ih =>
    obtain ⟨first, rest⟩ := List.forall_mem_cons.1 h
    rw [List.findSome?_cons, List.findSome?_cons, first, ih rest]

/-- A literal is refused for its own fault, or else for the first of its parts that is refused. -/
theorem error?_toSpec (l : SpecLiteral) :
    error? l.toSpec = l.fault?.or (l.children.findSome? fun x => error? x.toSpec) := by
  rw [fault?, children]
  cases h : l.opened with
  | spec s => rw [← toSpec_opened, h]; rfl
  | value v => rw [← toSpec_opened, h, toSpec_value_of_none (literal?_of_opened_eq_value h)]; rfl
  | list xs => rw [← toSpec_opened, h, toSpec_list, error?_sole_map]
  | set xs => rw [← toSpec_opened, h, toSpec_set, error?_sole_map]
  | tuple xs => rw [← toSpec_opened, h, toSpec_tuple, error?_map, error?_mapM]; rfl
  | mapping es =>
    rw [← toSpec_opened, h, toSpec_mapping, error?_sole, List.length_map, List.findSome?_map,
      findSome?_flatMap]
    simp only [Function.comp_def, error?_entrySpec]

/-- A literal is refused for the first of its nodes that has a fault. The induction is on the parts, which
are smaller than the literal even where a value is opened. -/
theorem error?_eq_findSome?_nodes (l : SpecLiteral) :
    error? l.toSpec = l.nodes.findSome? fault? := by
  have parts : ∀ x ∈ l.children, error? x.toSpec = x.nodes.findSome? fault? := fun x hx =>
    have := sizeOf_lt_of_mem_children hx
    error?_eq_findSome?_nodes x
  rw [error?_toSpec, nodes_eq, List.findSome?_cons, findSome?_flatMap, findSome?_congr parts]
  cases l.fault? <;> rfl
termination_by sizeOf l

/-! ## Specs -/

theorem sole_eq_ok_iff {shape : LiteralShape} {attempts : List (Except InvalidSpec TypeSpec)} :
    sole shape attempts = .ok t ↔ attempts = [.ok t] := by
  match attempts with
  | [] => simp [sole]
  | [attempt] => simp [sole]
  | a :: b :: rest => simp [sole]

theorem sole_map_eq_ok_iff {make : TypeSpec → TypeSpec} {shape : LiteralShape}
    {xs : List SpecLiteral} :
    sole shape (xs.map fun x => make <$> x.toSpec) = .ok t ↔
      ∃ x s, xs = [x] ∧ x.toSpec = .ok s ∧ make s = t := by
  rw [sole_eq_ok_iff, List.map_eq_singleton_iff]
  constructor
  · rintro ⟨x, rfl, made⟩
    cases part : x.toSpec with
    | error e => simp [part] at made
    | ok s => exact ⟨x, s, rfl, part, by simpa [part] using made⟩
  · rintro ⟨x, s, rfl, part, rfl⟩
    exact ⟨x, rfl, by rw [part]; rfl⟩

theorem entrySpec_eq_ok_iff {e : SpecLiteral × SpecLiteral} :
    entrySpec e = .ok t ↔
      ∃ key value, e.1.toSpec = .ok key ∧ e.2.toSpec = .ok value ∧ .mapping key value = t := by
  rw [entrySpec]
  cases e.1.toSpec with
  | error e => simp [bind, Except.bind]
  | ok key => cases e.2.toSpec <;> simp [bind, Except.bind, pure, Except.pure]

theorem mapM_eq_ok_iff {R : SpecLiteral → TypeSpec → Prop} {xs : List SpecLiteral}
    {ss : List TypeSpec} (parts : ∀ x ∈ xs, ∀ s, x.toSpec = .ok s ↔ R x s) :
    xs.mapM toSpec = .ok ss ↔ List.Forall₂ R xs ss := by
  induction xs generalizing ss with
  | nil => cases ss <;> simp [pure, Except.pure]
  | cons x xs ih =>
    obtain ⟨first, parts⟩ := List.forall_mem_cons.1 parts
    rw [List.mapM_cons]
    cases made : x.toSpec with
    | error e => cases ss <;> simp [bind, Except.bind, ← first, made]
    | ok s =>
      cases rest : xs.mapM toSpec with
      | error e => cases ss <;> simp [bind, Except.bind, ← ih parts, rest]
      | ok rs =>
        cases ss <;> simp [bind, Except.bind, pure, Except.pure, ← first, made, ← ih parts, rest]

theorem denotes_opened : l.opened.Denotes t ↔ l.Denotes t := by
  cases l with
  | value v =>
    rw [opened]
    cases reads : v.literal? with
    | none => exact .rfl
    | some l =>
      refine ⟨.value reads, fun h => ?_⟩
      cases h with
      | value reads' h =>
        cases reads.symm.trans reads'
        exact h
  | _ => exact .rfl

/-- A literal describes the specs of its shape, and there is at most one. -/
theorem toSpec_eq_ok_iff {l : SpecLiteral} {t : TypeSpec} : l.toSpec = .ok t ↔ l.Denotes t := by
  have parts : ∀ x ∈ l.children, ∀ s, x.toSpec = .ok s ↔ x.Denotes s := fun x hx s =>
    have := sizeOf_lt_of_mem_children hx
    toSpec_eq_ok_iff
  rw [children] at parts
  -- a value has the parts of what it reads as, so the cases are those of the open literal
  rw [← denotes_opened, ← toSpec_opened]
  cases h : l.opened with
  | spec s =>
    rw [toSpec, Except.ok.injEq]
    exact ⟨fun same => same ▸ .spec s, fun | .spec _ => rfl⟩
  | value v =>
    have leaf := literal?_of_opened_eq_value h
    rw [toSpec_value_of_none leaf]
    refine ⟨nofun, fun | .value reads _ => ?_⟩
    cases leaf.symm.trans reads
  | list xs =>
    rw [h] at parts
    rw [toSpec_list, sole_map_eq_ok_iff]
    constructor
    · rintro ⟨x, s, rfl, part, rfl⟩
      exact .list ((parts x List.mem_cons_self s).1 part)
    · intro
      | .list part => exact ⟨_, _, rfl, (parts _ List.mem_cons_self _).2 part, rfl⟩
  | set xs =>
    rw [h] at parts
    rw [toSpec_set, sole_map_eq_ok_iff]
    constructor
    · rintro ⟨x, s, rfl, part, rfl⟩
      exact .set ((parts x List.mem_cons_self s).1 part)
    · intro
      | .set part => exact ⟨_, _, rfl, (parts _ List.mem_cons_self _).2 part, rfl⟩
  | tuple xs =>
    rw [h] at parts
    rw [toSpec_tuple]
    constructor
    · intro made
      cases all : xs.mapM toSpec with
      | error e => simp [all] at made
      | ok ss =>
        rw [all] at made
        cases made
        exact .tuple ((mapM_eq_ok_iff parts).1 all)
    · intro
      | .tuple all =>
        rw [(mapM_eq_ok_iff parts).2 all]
        rfl
  | mapping es =>
    rw [h] at parts
    rw [toSpec_mapping, sole_eq_ok_iff, List.map_eq_singleton_iff]
    constructor
    · rintro ⟨⟨k, x⟩, rfl, made⟩
      obtain ⟨key, value, hk, hx, rfl⟩ := entrySpec_eq_ok_iff.1 made
      exact .mapping ((parts k (by simp) _).1 hk) ((parts x (by simp) _).1 hx)
    · intro
      | .mapping hk hx =>
        exact ⟨_, rfl, entrySpec_eq_ok_iff.2
          ⟨_, _, (parts _ (by simp) _).2 hk, (parts _ (by simp) _).2 hx, rfl⟩⟩
termination_by sizeOf l

/-! ## Replacement -/

theorem Replaced.toSpec_eq (h : Replaced l l') : l'.toSpec = l.toSpec := by
  induction h with
  | value reads => exact (toSpec_value reads).symm
  | list before after _ ih => simp only [toSpec_list, List.map_append, List.map_cons, ih]
  | set before after _ ih => simp only [toSpec_set, List.map_append, List.map_cons, ih]
  | tuple before after _ ih => simp only [toSpec_tuple, List.mapM_append, List.mapM_cons, ih]
  | key x before after _ ih =>
    simp only [toSpec_mapping, List.map_append, List.map_cons, entrySpec, ih]
  | entry k before after _ ih =>
    simp only [toSpec_mapping, List.map_append, List.map_cons, entrySpec, ih]

/-- A literal describes a spec just when no node of it has a fault: each list, set and mapping, of
literals or of values, holds one element, and each leaf is a spec or a class. The spec then has the shape
of the literal. Otherwise the literal is refused for the first faulty node, counted from the top and from
left to right. It makes no difference if containers of values are replaced by literals, in any places. -/
theorem toSpec_follows_grammar (l : SpecLiteral) :
    ((∃ t, l.toSpec = .ok t) ↔ ∀ x ∈ l.nodes, x.fault? = none) ∧
      (∀ t, l.toSpec = .ok t ↔ l.Denotes t) ∧
      (∀ e, l.toSpec = .error e ↔ ∃ before x after, l.nodes = before ++ x :: after ∧
        (∀ y ∈ before, y.fault? = none) ∧ x.fault? = some e) ∧
      ∀ l', Relation.ReflTransGen Replaced l l' → l'.toSpec = l.toSpec := by
  refine ⟨?_, fun t => toSpec_eq_ok_iff, fun e => ?_, fun l' replaced => ?_⟩
  · rw [← error?_eq_none_iff, error?_eq_findSome?_nodes, List.findSome?_eq_none_iff]
  · rw [← error?_eq_some_iff, error?_eq_findSome?_nodes, List.findSome?_eq_some_iff]
    simp only [and_comm]
  · induction replaced with
    | refl => rfl
    | tail _ step ih => rw [step.toSpec_eq, ih]

/-- A mapping literal that holds values, read with and without these opened, and one with two faults, in
the key and in the value. -/
theorem mapping_follows_grammar :
    let l : SpecLiteral :=
      .mapping [(.value (.cls .str), .value (.tuple [.list [.cls .int], .cls .bool]))]
    let l' : SpecLiteral :=
      .mapping [(.value (.cls .str), .tuple [.list [.value (.cls .int)], .value (.cls .bool)])]
    let faulty : SpecLiteral := .mapping [(.list [], .value (.int 1))]
    Relation.ReflTransGen Replaced l l' ∧
      l.toSpec = .ok (.mapping (.plain .str) (.tuple [.list (.plain .int), .plain .bool])) ∧
      l'.toSpec = l.toSpec ∧ faulty.toSpec = .error (.malformedLiteral .list 0) := by
  intro l l' faulty
  have replaced : Relation.ReflTransGen Replaced l l' :=
    .tail (.single (.entry _ [] [] (.value rfl))) (.entry _ [] [] (.tuple [] _ (.value rfl)))
  have pair : Denotes (.tuple [.value (.list [.cls .int]), .value (.cls .bool)])
      (.tuple [.list (.plain .int), .plain .bool]) :=
    .tuple (.cons (.value rfl (.list (.value rfl (.spec _)))) (.cons (.value rfl (.spec _)) .nil))
  obtain ⟨-, shape, -, replacing⟩ := l.toSpec_follows_grammar
  obtain ⟨-, -, first, -⟩ := faulty.toSpec_follows_grammar
  refine ⟨replaced, ?_, replacing l' replaced,
    (first _).2 ⟨[faulty], .list [], [.value (.int 1)], ?_⟩⟩
  · exact (shape _).2 (.mapping (.value rfl (.spec _)) (.value rfl pair))
  · refine ⟨by simp [faulty, nodes_eq, children, opened, Value.literal?], fun y hy => ?_, rfl⟩
    rw [List.mem_singleton.1 hy]
    rfl

end SpecLiteral

end TypeContracts
