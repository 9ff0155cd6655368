import TypeContracts.Proofs.Class
import TypeContracts.Proofs.World.Reachable
import TypeContracts.World.Construction

/-!
Collections of classes as programs make them: the built-in ones, and those built one after another on top
of classes that are there already. No two of them share a key, and what is above a class is there as well.
Main statement: `World.Constructed.rootedChains`. The classes of a collection are ordered by inheritance,
those above one class in a row that ends in the root.
-/

namespace TypeContracts

namespace Class

/-- What a class is told apart by; the root is the one without a key. -/
def key? : Class → Option Nat
  | .object => none
  | .sub key _ _ => some key

/-- A class under construction inherits from the root or from a class it was given. -/
theorem super_foldl_declare {cs : List Class} {declarations : List Declaration} {d : Draft}
    (start : d.super ∈ cs) (given : ∀ c, .super c ∈ declarations → c ∈ cs) :
    (declarations.foldl Draft.declare d).super ∈ cs := by
  induction declarations generalizing d with
  | nil => exact start
  | cons call rest ih =>
    have next : (d.declare call).super ∈ cs := by
      match call with
      | .super c => exact given c List.mem_cons_self
      | .attribute name v => exact start
      | .method m => exact start
    exact ih next fun c hc => given c (List.mem_cons_of_mem _ hc)

/-- A collection of classes in order by inheritance. -/
structure RootedChains (cs : List Class) : Prop where
  /-- Keys tell the classes apart. -/
  eq_of_key : ∀ c ∈ cs, ∀ d ∈ cs, c.key? = d.key? → c = d
  refl : ∀ c ∈ cs, c.isSubclassOf c
  trans : ∀ c ∈ cs, ∀ d ∈ cs, ∀ e ∈ cs, c.isSubclassOf d → d.isSubclassOf e → c.isSubclassOf e
  antisymm : ∀ c ∈ cs, ∀ d ∈ cs, c.isSubclassOf d → d.isSubclassOf c → c = d
  root : .object ∈ cs ∧ ∀ c ∈ cs, c.isSubclassOf .object
  comparable : ∀ c ∈ cs, ∀ d ∈ cs, ∀ e ∈ cs, c.isSubclassOf d → c.isSubclassOf e →
    d.isSubclassOf e ∨ e.isSubclassOf d
  /-- A hierarchy lists what is above its class, nothing twice. -/
  mem_hierarchy : ∀ c ∈ cs, ∀ d, d ∈ c.hierarchy ↔ d ∈ cs ∧ c.isSubclassOf d
  nodup_hierarchy : ∀ c ∈ cs, c.hierarchy.Nodup
  /-- It leads from the class by superclasses to the root. -/
  isChain_hierarchy : ∀ c ∈ cs, c.hierarchy.head? = some c ∧
    c.hierarchy.IsChain (fun d e => d.super? = some e) ∧ c.hierarchy.getLast? = some .object

end Class

namespace World

/-- The collections of classes that constructions make of the built-in ones, each with the world in which
it is declared. A class is built on any class that is there already; other operations may come in
between. -/
inductive Constructed : List Class → World → Prop where
  | builtins : Constructed Class.builtins .initial
  | build {cs : List Class} {w : World} (h : Constructed cs w) (name : String)
      (declarations : List Class.Declaration) (given : ∀ c, .super c ∈ declarations → c ∈ cs) :
      Constructed ((w.buildClass name declarations).1 :: cs) (w.buildClass name declarations).2
  | other {cs : List Class} {w w' : World} (h : Constructed cs w) (step : Step w w')
      (classes : w'.classes = w.classes) : Constructed cs w'

/-- The classes are closed under superclasses, and each has a key of its own that is no longer free. -/
structure Closed (cs : List Class) (nextKey : Nat) : Prop where
  root : .object ∈ cs
  super_mem : ∀ c ∈ cs, ∀ d, c.super? = some d → d ∈ cs
  key_lt : ∀ c ∈ cs, ∀ k, c.key? = some k → k < nextKey
  eq_of_key : ∀ c ∈ cs, ∀ d ∈ cs, c.key? = d.key? → c = d

theorem Closed.mono {cs : List Class} {n n' : Nat} (h : Closed cs n) (le : n ≤ n') : Closed cs n' :=
  ⟨h.root, h.super_mem, fun c hc k hk => Nat.lt_of_lt_of_le (h.key_lt c hc k hk) le, h.eq_of_key⟩

theorem closed_builtins : Closed Class.builtins Class.firstFreeKey where
  root := by decide
  super_mem := by
    have above : ∀ c ∈ Class.builtins, c.super?.all (· ∈ Class.builtins) := by decide
    intro c hc d hd
    have := above c hc
    rw [hd] at this
    simpa using this
  key_lt := by
    have below : ∀ c ∈ Class.builtins, c.key?.all (· < Class.firstFreeKey) := by decide
    intro c hc k hk
    have := below c hc
    rw [hk] at this
    simpa using this
  eq_of_key := by decide

/-- A new class takes the free key. -/
theorem Closed.build {cs : List Class} {n : Nat} (h : Closed cs n) (name : String) {super : Class}
    (hs : super ∈ cs) : Closed (.sub n name super :: cs) (n + 1) where
  root := List.mem_cons_of_mem _ h.root
  super_mem := by
    intro c hc d hd
    rcases List.mem_cons.1 hc with rfl | hc
    · obtain rfl : super = d := Option.some.inj hd
      exact List.mem_cons_of_mem _ hs
    · exact List.mem_cons_of_mem _ (h.super_mem c hc d hd)
  key_lt := by
    intro c hc k hk
    rcases List.mem_cons.1 hc with rfl | hc
    · obtain rfl : n = k := Option.some.inj hk
      omega
    · have := h.key_lt c hc k hk
      omega
  eq_of_key := by
    have fresh : ∀ c ∈ cs, c.key? ≠ some n := fun c hc taken => by
      have := h.key_lt c hc n taken
      omega
    intro c hc d hd same
    rcases List.mem_cons.1 hc with rfl | hc <;> rcases List.mem_cons.1 hd with rfl | hd
    · rfl
    · exact absurd same.symm (fresh d hd)
    · exact absurd same (fresh c hc)
    · exact h.eq_of_key c hc d hd same

/-- Keys are never given back. -/
theorem Step.nextKey_le {w w' : World} (step : Step w w') : w.nextKey ≤ w'.nextKey := by
  cases step with
  | setAttribute | removeAttribute => exact Nat.le_refl _
  | declareClass | newObject | declareFunction | useKey => exact Nat.le_succ _

theorem Constructed.closed {cs : List Class} {w : World} (h : Constructed cs w) :
    Closed cs w.nextKey := by
  induction h with
  | builtins => exact closed_builtins
  | build _ name declarations given ih =>
    exact ih.build name (Class.super_foldl_declare ih.root given)
  | other _ step _ ih => exact ih.mono step.nextKey_le

/-- All that is above a class of the collection belongs to the collection. -/
theorem Closed.mem_of_isSubclassOf {cs : List Class} {n : Nat} (h : Closed cs n) {c d : Class}
    (hc : c ∈ cs) (hd : c.isSubclassOf d) : d ∈ cs := by
  induction c with
  | object => exact Class.object_isSubclassOf.1 hd ▸ h.root
  | sub key name super ih =>
    rcases Class.isSubclassOf_sub.1 hd with rfl | above
    · exact hc
    · exact ih (h.super_mem _ hc super rfl) above

/-- Constructed classes are ordered by inheritance with the root on top, those above one class in a row:
its hierarchy, which lists each once, followed by its superclass. -/
theorem Constructed.rootedChains {cs : List Class} {w : World} (h : Constructed cs w) :
    Class.RootedChains cs where
  eq_of_key := h.closed.eq_of_key
  refl c _ := c.isSubclassOf_refl
  trans _ _ _ _ _ _ := Class.isSubclassOf_trans
  antisymm _ _ _ _ := Class.isSubclassOf_antisymm
  root := ⟨h.closed.root, fun c _ => c.isSubclassOf_object⟩
  comparable _ _ _ _ _ _ := Class.isSubclassOf_or_isSubclassOf
  mem_hierarchy c hc d := by
    rw [Class.mem_hierarchy_iff]
    exact ⟨fun above => ⟨h.closed.mem_of_isSubclassOf hc above, above⟩, And.right⟩
  nodup_hierarchy c _ := c.nodup_hierarchy
  isChain_hierarchy c _ := ⟨c.head?_hierarchy, c.isChain_hierarchy, c.getLast?_hierarchy⟩

/-- A class built on a built-in one, and one that is moved from the root to below it. -/
theorem Constructed.counter_rootedChains :
    let flag := World.initial.buildClass "Flag" [.super .bool]
    let counter := flag.2.buildClass "Counter" [.super .object, .super flag.1]
    Constructed (counter.1 :: flag.1 :: Class.builtins) counter.2 ∧
      counter.1.hierarchy = [counter.1, flag.1, .bool, .int, .object] ∧
      Class.RootedChains (counter.1 :: flag.1 :: Class.builtins) := by
  intro flag counter
  have constructed : Constructed (counter.1 :: flag.1 :: Class.builtins) counter.2 := by
    refine .build (.build .builtins "Flag" _ ?_) "Counter" _ ?_
    · intro c hc
      obtain rfl : c = .bool := by simpa using hc
      decide
    · intro c hc
      obtain rfl | rfl : c = .object ∨ c = flag.1 := by simpa using hc
      · exact List.mem_cons_of_mem _ (by decide)
      · exact List.mem_cons_self
  exact ⟨constructed, rfl, constructed.rootedChains⟩

end World

end TypeContracts
