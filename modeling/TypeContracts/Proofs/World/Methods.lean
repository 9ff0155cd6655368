import Mathlib.Logic.Function.Basic
import TypeContracts.Proofs.Table
import TypeContracts.Proofs.World.Reachable

/-!
The methods that a class responds to, listed and looked up one by one. A `World.History` keeps what each
class was declared with, the methods that a later one of the same name replaces included. Main statement:
`World.History.instanceMethods_eq_method?`. Both ways find, for each name, the last declaration on the
nearest class that declares it.
-/

namespace TypeContracts

namespace World

/-! ## What classes were declared with -/

/-- The worlds that operations make of the initial one, with the methods that each class was declared with,
in the order of the declarations. -/
inductive History : (Class → List Method) → World → Prop where
  | initial : History (fun c => (World.initial.members c).methods.map (·.2)) .initial
  | declareClass {declared : Class → List Method} {w : World} (h : History declared w) (name : String)
      (super : Class) (attributes : List (String × Value)) (methods : List Method) :
      History (Function.update declared (w.declareClass name super attributes methods).1 methods)
        (w.declareClass name super attributes methods).2
  | other {declared : Class → List Method} {w w' : World} (h : History declared w) (step : Step w w')
      (classes : w'.classes = w.classes) : History declared w'

variable {declared : Class → List Method} {w : World}

theorem History.reachable (h : History declared w) : w.Reachable := by
  induction h with
  | initial => exact .refl
  | declareClass _ name super attributes methods ih =>
    exact ih.tail (.declareClass _ name super attributes methods)
  | other _ step _ ih => exact ih.tail step

theorem Reachable.exists_history (h : w.Reachable) : ∃ declared, History declared w := by
  induction h with
  | refl => exact ⟨_, .initial⟩
  | tail _ step ih =>
    obtain ⟨declared, history⟩ := ih
    cases step with
    | declareClass name super attributes methods =>
      exact ⟨_, history.declareClass name super attributes methods⟩
    | newObject c => exact ⟨_, history.other (.newObject _ c) rfl⟩
    | setAttribute o name v => exact ⟨_, history.other (.setAttribute _ o name v) rfl⟩
    | removeAttribute o name => exact ⟨_, history.other (.removeAttribute _ o name) rfl⟩
    | declareFunction name signature action =>
      exact ⟨_, history.other (.declareFunction _ name signature action) rfl⟩
    | useKey => exact ⟨_, history.other (.useKey _) rfl⟩

/-- The method is the last one of the name among those declared. -/
def LastNamed (name : String) (m : Method) (methods : List Method) : Prop :=
  m.name = name ∧ ∃ earlier later, methods = earlier ++ m :: later ∧ ∀ k ∈ later, k.name ≠ name

/-- The method is the last one of the name that is declared on `owner`, and no class below `owner` in the
hierarchy declares one. -/
def DeclaredNearest (declared : Class → List Method) (c : Class) (name : String) (owner : Class)
    (m : Method) : Prop :=
  ∃ nearer farther, c.hierarchy = nearer ++ owner :: farther ∧
    (∀ d ∈ nearer, ∀ k ∈ declared d, k.name ≠ name) ∧ LastNamed name m (declared owner)

/-- The built-in containers file their methods under the methods' names, and no other built-in class has
any. -/
theorem initial_methods_eq (c : Class) :
    (World.initial.members c).methods =
      Table.ofList (((World.initial.members c).methods.map (·.2)).map fun m => (m.name, m)) := by
  rw [members]
  rcases found : World.initial.classes.lookup c with _ | own
  · rfl
  · obtain ⟨_, _, split, -⟩ := List.lookup_eq_some_iff.1 found
    have mem : (c, own) ∈ World.initial.classes := by rw [split]; simp
    obtain ⟨_, -, same⟩ := List.mem_map.1 mem
    cases same
    rfl

/-- A class keeps the methods that it was declared with in a table. -/
theorem History.methods_eq (h : History declared w) (c : Class) :
    (w.members c).methods = Table.ofList ((declared c).map fun m => (m.name, m)) := by
  induction h with
  | initial => exact initial_methods_eq c
  | @declareClass declared w _ name super attributes methods ih =>
    by_cases new : c = .sub w.nextKey name super
    · subst new
      simp [members, World.declareClass]
    · have other : (c == .sub w.nextKey name super) = false := beq_eq_false_iff_ne.2 new
      have old : (w.declareClass name super attributes methods).2.members c = w.members c := by
        simp only [members, World.declareClass, List.lookup_cons, other]
      rw [old, ih, World.declareClass, Function.update_of_ne new]
  | other _ _ classes ih => rw [members, classes]; exact ih

/-- Methods that are filed under their names are found by name. -/
theorem lookup_filed (methods : List Method) (name : String) :
    (methods.map fun m => (m.name, m)).lookup name = methods.find? fun m => name == m.name := by
  induction methods with
  | nil => rfl
  | cons m rest ih =>
    rw [List.map_cons, List.lookup_cons, List.find?_cons, ih]

theorem History.ownMethod?_eq (h : History declared w) (c : Class) (name : String) :
    w.ownMethod? c name = (declared c).reverse.find? fun m => name == m.name := by
  rw [ownMethod?, h.methods_eq, Table.lookup_ofList, ← List.map_reverse, lookup_filed]

theorem History.ownMethod?_eq_none_iff (h : History declared w) {c : Class} {name : String} :
    w.ownMethod? c name = none ↔ ∀ m ∈ declared c, m.name ≠ name := by
  rw [h.ownMethod?_eq, List.find?_eq_none]
  simp only [List.mem_reverse, beq_iff_eq, ne_comm]

theorem History.ownMethod?_eq_some_iff (h : History declared w) {c : Class} {name : String}
    {m : Method} : w.ownMethod? c name = some m ↔ LastNamed name m (declared c) := by
  have other : ∀ k : Method, (!(name == k.name)) = true ↔ k.name ≠ name := fun k => by
    rw [Bool.not_eq_true', beq_eq_false_iff_ne, ne_comm]
  rw [h.ownMethod?_eq, List.find?_eq_some_iff_append, beq_iff_eq, LastNamed, eq_comm]
  simp only [other]
  refine and_congr_right fun _ => ⟨?_, ?_⟩
  · rintro ⟨later, earlier, split, others⟩
    refine ⟨earlier.reverse, later.reverse, ?_, fun k hk => others k (List.mem_reverse.1 hk)⟩
    rw [← List.reverse_reverse (declared c), split, List.reverse_append, List.reverse_cons,
      List.append_assoc, List.singleton_append]
  · rintro ⟨earlier, later, split, others⟩
    refine ⟨later.reverse, earlier.reverse, ?_, fun k hk => others k (List.mem_reverse.1 hk)⟩
    rw [split, List.reverse_append, List.reverse_cons, List.append_assoc, List.singleton_append]

/-- A method is looked up where it is declared nearest. -/
theorem History.method?_eq_some_iff (h : History declared w) {c owner : Class} {name : String}
    {m : Method} : w.method? c name = some (owner, m) ↔ DeclaredNearest declared c name owner m := by
  rw [method?, List.findSome?_eq_some_iff, DeclaredNearest]
  simp only [Option.map_eq_some_iff, Option.map_eq_none_iff, h.ownMethod?_eq_none_iff]
  constructor
  · rintro ⟨nearer, d, farther, split, ⟨_, own, same⟩, undeclared⟩
    cases same
    exact ⟨nearer, farther, split, undeclared, h.ownMethod?_eq_some_iff.1 own⟩
  · rintro ⟨nearer, farther, split, undeclared, last⟩
    exact ⟨nearer, owner, farther, split, ⟨m, h.ownMethod?_eq_some_iff.2 last, rfl⟩, undeclared⟩

/-! ## The list of methods -/

theorem History.lookup_ownMethods (h : History declared w) (c : Class) (name : String) :
    (w.ownMethods c).lookup name = w.ownMethod? c name := by
  rw [ownMethods, ownMethod?]
  refine Table.lookup_sortByName ?_ name
  rw [h.methods_eq]
  exact Table.nodup_ofList _

/-- What a class declares is added where no class before it declares the name. -/
theorem History.lookup_inheritFrom (h : History declared w) (seen : List (String × Method)) (d : Class)
    (name : String) :
    (w.inheritFrom seen d).lookup name = (seen.lookup name).or (w.ownMethod? d name) := by
  rw [inheritFrom, Table.lookup_foldl_putIfNew, h.lookup_ownMethods]

/-- Along a hierarchy the first class to declare a name decides. -/
theorem History.lookup_foldl_inheritFrom (h : History declared w) (hierarchy : List Class)
    (seen : List (String × Method)) (name : String) :
    (hierarchy.foldl w.inheritFrom seen).lookup name =
      (seen.lookup name).or (hierarchy.findSome? fun d => w.ownMethod? d name) := by
  induction hierarchy generalizing seen with
  | nil => exact Option.or_none.symm
  | cons d rest ih =>
    rw [List.foldl_cons, ih, h.lookup_inheritFrom, Option.or_assoc, List.findSome?_cons]
    cases w.ownMethod? d name <;> rfl

theorem nodup_foldl_inheritFrom {hierarchy : List Class} {seen : List (String × Method)}
    (h : (seen.map (·.1)).Nodup) : ((hierarchy.foldl w.inheritFrom seen).map (·.1)).Nodup := by
  induction hierarchy generalizing seen with
  | nil => exact h
  | cons d rest ih => exact ih (Table.nodup_foldl_putIfNew h)

theorem nodup_gathered (c : Class) : ((c.hierarchy.foldl w.inheritFrom []).map (·.1)).Nodup :=
  nodup_foldl_inheritFrom List.nodup_nil

/-- A name is listed with the method that it is looked up as. -/
theorem History.mem_instanceMethods_iff (h : History declared w) {c : Class} {name : String}
    {m : Method} :
    (name, m) ∈ w.instanceMethods c ↔ ∃ owner, w.method? c name = some (owner, m) := by
  have gathered : (c.hierarchy.foldl w.inheritFrom []).lookup name =
      c.hierarchy.findSome? fun d => w.ownMethod? d name := by
    rw [h.lookup_foldl_inheritFrom, List.lookup_nil, Option.none_or]
  have forget : (w.method? c name).map (·.2) = c.hierarchy.findSome? fun d => w.ownMethod? d name := by
    rw [method?, List.map_findSome?]
    congr 1
    funext d
    cases own : w.ownMethod? d name <;> simp [own]
  have perm : (w.instanceMethods c).Perm (c.hierarchy.foldl w.inheritFrom []) := List.mergeSort_perm _ _
  rw [perm.mem_iff, Table.mem_iff_lookup (nodup_gathered c), gathered, ← forget, Option.map_eq_some_iff]
  simp

/-- The methods of a class are listed by ascending name, each name once. A name is listed if it is found by
lookup, with the method that is found: the last one of the name on the nearest class that declares it. -/
theorem History.instanceMethods_eq_method? (h : History declared w) (c : Class) :
    (w.instanceMethods c).Pairwise (fun e f => e.1 < f.1) ∧
      (∀ e ∈ w.instanceMethods c, e.2.name = e.1) ∧
      (∀ name, (∃ m, (name, m) ∈ w.instanceMethods c) ↔ (w.method? c name).isSome) ∧
      (∀ name m, (name, m) ∈ w.instanceMethods c ↔ ∃ owner, w.method? c name = some (owner, m)) ∧
      ∀ name owner m,
        w.method? c name = some (owner, m) ↔ DeclaredNearest declared c name owner m := by
  refine ⟨Table.pairwise_sortByName (nodup_gathered c), ?_, fun name => ?_,
    fun name m => h.mem_instanceMethods_iff, fun name owner m => h.method?_eq_some_iff⟩
  · rintro ⟨name, m⟩ mem
    obtain ⟨owner, found⟩ := h.mem_instanceMethods_iff.1 mem
    obtain ⟨_, _, _, _, last⟩ := h.method?_eq_some_iff.1 found
    exact last.1
  · simp only [h.mem_instanceMethods_iff, Option.isSome_iff_exists, Prod.exists]
    exact exists_comm

/-- A class that declares one method twice, and a class below it that overrides the method and inherits
another. -/
theorem History.loud_methods :
    let method (name : String) (routine : Nat) : Method := ⟨name, none, .host routine⟩
    let greeter := World.initial.declareClass "Greeter" .object []
      [method "greet" 1, method "leave" 2, method "greet" 3]
    let loud := greeter.2.declareClass "Loud" greeter.1 [] [method "greet" 4]
    ("greet", method "greet" 3) ∈ loud.2.instanceMethods greeter.1 ∧
      ("greet", method "greet" 4) ∈ loud.2.instanceMethods loud.1 ∧
        ("leave", method "leave" 2) ∈ loud.2.instanceMethods loud.1 := by
  intro method greeter loud
  have history : History _ loud.2 :=
    (History.initial.declareClass "Greeter" .object [] _).declareClass "Loud" greeter.1 [] _
  have listed := fun c => (history.instanceMethods_eq_method? c).2.2.2.1
  exact ⟨(listed _ _ _).2 ⟨_, rfl⟩, (listed _ _ _).2 ⟨_, rfl⟩, (listed _ _ _).2 ⟨_, rfl⟩⟩

end World

end TypeContracts
