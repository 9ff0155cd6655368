import TypeContracts.Proofs.Value.Equality

/-!
What values contain. A value that contains no float standing for no number is equal to itself; sets and
dicts need not have been made by their constructors for that. A value was built with these constructors
if each set and each dict it contains is one that they make, and such a value is equal to itself only
without such floats. Main statements: `Value.equal_refl`, `Value.built_iff`, `Value.equal_isPartialEquiv`.
-/

namespace TypeContracts

namespace Value

/-- `Contains v x`: the value `x` is `v` itself or is held, at any depth, by a container. -/
inductive Contains : Value → Value → Prop where
  | self (v : Value) : Contains v v
  | listItem {vs : List Value} {v x : Value} (h : v ∈ vs) (hx : Contains v x) : Contains (.list vs) x
  | tupleItem {vs : List Value} {v x : Value} (h : v ∈ vs) (hx : Contains v x) : Contains (.tuple vs) x
  | setItem {vs : List Value} {v x : Value} (h : v ∈ vs) (hx : Contains v x) : Contains (.set vs) x
  | key {es : List (Value × Value)} {e : Value × Value} {x : Value} (h : e ∈ es)
      (hx : Contains e.1 x) : Contains (.dict es) x
  | entry {es : List (Value × Value)} {e : Value × Value} {x : Value} (h : e ∈ es)
      (hx : Contains e.2 x) : Contains (.dict es) x

theorem Contains.trans {x y z : Value} (hxy : Contains x y) (hyz : Contains y z) : Contains x z := by
  induction hxy with
  | self => exact hyz
  | listItem h _ ih => exact .listItem h (ih hyz)
  | tupleItem h _ ih => exact .tupleItem h (ih hyz)
  | setItem h _ ih => exact .setItem h (ih hyz)
  | key h _ ih => exact .key h (ih hyz)
  | entry h _ ih => exact .entry h (ih hyz)

/-- No float in the value stands for no number. -/
def NaNFree (v : Value) : Prop := ∀ x, Contains v (.float x) → x.isNaN = false

namespace NaNFree

theorem listItem {vs : List Value} (h : (Value.list vs).NaNFree) {v : Value} (hv : v ∈ vs) :
    v.NaNFree := fun x hx => h x (.listItem hv hx)

theorem tupleItem {vs : List Value} (h : (Value.tuple vs).NaNFree) {v : Value} (hv : v ∈ vs) :
    v.NaNFree := fun x hx => h x (.tupleItem hv hx)

theorem setItem {vs : List Value} (h : (Value.set vs).NaNFree) {v : Value} (hv : v ∈ vs) :
    v.NaNFree := fun x hx => h x (.setItem hv hx)

theorem dictEntry {es : List (Value × Value)} (h : (Value.dict es).NaNFree) {e : Value × Value}
    (he : e ∈ es) : e.1.NaNFree ∧ e.2.NaNFree :=
  ⟨fun x hx => h x (.key he hx), fun x hx => h x (.entry he hx)⟩

theorem set {vs : List Value} (h : ∀ v ∈ vs, v.NaNFree) : (Value.set vs).NaNFree
  | x, .setItem hv hx => h _ hv x hx

end NaNFree

/-- A value without such floats is equal to itself. -/
theorem equal_refl {v : Value} (h : v.NaNFree) : v.equal v := by
  refine equal_iff.2 ?_
  cases v with
  | null => exact .null
  | bool b => exact .bool b
  | int i => exact .int i
  | float x => exact .float (by simp [Binary64.equal, h x (.self _)])
  | str s => exact .str s
  | list vs =>
    refine .list (List.forall₂_same.2 fun v hv => ?_)
    have := List.sizeOf_lt_of_mem hv
    exact equal_refl (h.listItem hv)
  | tuple vs =>
    refine .tuple (List.forall₂_same.2 fun v hv => ?_)
    have := List.sizeOf_lt_of_mem hv
    exact equal_refl (h.tupleItem hv)
  | set vs =>
    refine .set ⟨rfl, fun v hv => ⟨v, hv, ?_⟩⟩
    have := List.sizeOf_lt_of_mem hv
    exact equal_refl (h.setItem hv)
  | dict es =>
    refine .dict ⟨rfl, fun e he => ⟨e, he, ?_⟩⟩
    have := sizeOf_entry_lt he
    exact ⟨equal_refl (h.dictEntry he).1, equal_refl (h.dictEntry he).2⟩
  | object o => exact .object o
  | function f => exact .function f
  | cls c => exact .cls c
termination_by sizeOf v
decreasing_by all_goals (subst_vars; simp; omega)

/-! ## Contents of built values -/

/-- A set or a dict is one that its constructor makes. -/
def Collected : Value → Prop
  | .set xs => ∃ vs, Value.set xs = setOf vs
  | .dict es => ∃ entries, Value.dict es = dictOf entries
  | _ => True

theorem putEntry_of_fresh {key value : Value} {es : List (Value × Value)}
    (fresh : ∀ e ∈ es, e.1.equal key = false) : putEntry key value es = es ++ [(key, value)] := by
  induction es with
  | nil => rfl
  | cons e rest ih =>
    obtain ⟨first, others⟩ := List.forall_mem_cons.1 fresh
    rw [putEntry, first, if_neg Bool.false_ne_true, ih others, List.cons_append]

/-- The constructor of dicts changes nothing where no key is repeated. -/
theorem dictOf_of_distinct {es : List (Value × Value)}
    (distinct : Distinct (fun e f => e.1.equal f.1) es) : dictOf es = .dict es := by
  suffices ∀ kept, Distinct (fun e f => e.1.equal f.1) (kept ++ es) →
      es.foldl (fun kept e => putEntry e.1 e.2 kept) kept = kept ++ es from
    congrArg Value.dict (this [] distinct)
  clear distinct
  induction es with
  | nil => intro kept _; simp
  | cons e rest ih =>
    intro kept distinct
    have fresh : ∀ f ∈ kept, f.1.equal e.1 = false := fun f hf =>
      (List.pairwise_append.1 distinct).2.2 f hf e List.mem_cons_self
    rw [List.foldl_cons, putEntry_of_fresh fresh, ih _ (by simpa using distinct)]
    simp

theorem setOf_of_distinct {xs : List Value} (distinct : Distinct equal xs) : setOf xs = .set xs :=
  congrArg Value.set (distinctBy_eq_self distinct)

theorem collected_set_iff {xs : List Value} : (Value.set xs).Collected ↔ Distinct equal xs := by
  constructor
  · rintro ⟨vs, made⟩
    exact Value.set.inj made ▸ distinct_distinctBy vs
  · intro distinct
    exact ⟨xs, (setOf_of_distinct distinct).symm⟩

theorem collected_dict_iff {es : List (Value × Value)} :
    (Value.dict es).Collected ↔ Distinct (fun e f => e.1.equal f.1) es := by
  constructor
  · rintro ⟨entries, made⟩
    exact Value.dict.inj made ▸ distinct_gather entries
  · intro distinct
    exact ⟨es, (dictOf_of_distinct distinct).symm⟩

/-- What a built value contains was built. -/
theorem Built.of_contains {v x : Value} (hv : v.Built) (h : Contains v x) : x.Built := by
  induction h with
  | self => exact hv
  | listItem h _ ih | tupleItem h _ ih => exact ih (hv.contents _ h)
  | setItem h _ ih => exact ih (hv.contents.1 _ h)
  | key h _ ih => exact ih (hv.contents.1 _ h).1
  | entry h _ ih => exact ih (hv.contents.1 _ h).2

theorem Built.collected {v : Value} (h : v.Built) : v.Collected := by
  cases h with
  | set => exact ⟨_, rfl⟩
  | dict => exact ⟨_, rfl⟩
  | _ => trivial

/-- A value was built with the constructors of sets and dicts exactly if all sets and dicts in it are
made by them. -/
theorem built_iff {v : Value} : v.Built ↔ ∀ x, Contains v x → x.Collected := by
  refine ⟨fun h x hx => (h.of_contains hx).collected, fun h => ?_⟩
  cases v with
  | null => exact .null
  | bool b => exact .bool b
  | int i => exact .int i
  | float x => exact .float x
  | str s => exact .str s
  | list vs =>
    refine .list fun v hv => ?_
    have := List.sizeOf_lt_of_mem hv
    exact built_iff.2 fun x hx => h x (.listItem hv hx)
  | tuple vs =>
    refine .tuple fun v hv => ?_
    have := List.sizeOf_lt_of_mem hv
    exact built_iff.2 fun x hx => h x (.tupleItem hv hx)
  | set vs =>
    have built : ∀ v ∈ vs, v.Built := fun v hv => by
      have := List.sizeOf_lt_of_mem hv
      exact built_iff.2 fun x hx => h x (.setItem hv hx)
    exact setOf_of_distinct (collected_set_iff.1 (h _ (.self _))) ▸ .set built
  | dict es =>
    have built : ∀ e ∈ es, e.1.Built ∧ e.2.Built := fun e he => by
      have := sizeOf_entry_lt he
      exact ⟨built_iff.2 fun x hx => h x (.key he hx), built_iff.2 fun x hx => h x (.entry he hx)⟩
    exact dictOf_of_distinct (collected_dict_iff.1 (h _ (.self _))) ▸
      .dict (fun e he => (built e he).1) fun e he => (built e he).2
  | object o => exact .object o
  | function f => exact .function f
  | cls c => exact .cls c
termination_by sizeOf v
decreasing_by all_goals (subst_vars; simp; omega)

/-- No set in the value repeats an element, and no dict in it repeats a key. -/
def DuplicateFree (v : Value) : Prop :=
  (∀ xs, Contains v (.set xs) → Distinct equal xs) ∧
    ∀ es, Contains v (.dict es) → Distinct (fun e f => e.1.equal f.1) es

/-- The values without repetitions are those that were built. -/
theorem duplicateFree_iff {v : Value} : v.DuplicateFree ↔ v.Built := by
  rw [built_iff]
  constructor
  · rintro ⟨sets, dicts⟩ x hx
    cases x with
    | set xs => exact collected_set_iff.2 (sets xs hx)
    | dict es => exact collected_dict_iff.2 (dicts es hx)
    | _ => trivial
  · intro collected
    exact ⟨fun xs hx => collected_set_iff.1 (collected _ hx),
      fun es hx => collected_dict_iff.1 (collected _ hx)⟩

/-- A built value that equals a built value contains no float standing for no number. -/
theorem nanFree_of_equal {a b : Value} (ha : a.Built) (hb : b.Built) (h : a.equal b) : a.NaNFree := by
  intro x hx
  cases hx with
  | self =>
    cases equal_iff.1 h with
    | float same =>
      simp only [Binary64.equal, Bool.and_eq_true, Bool.not_eq_true'] at same
      exact same.1.1
    | floatInt whole =>
      exact Binary64.isNaN_of_finite (Binary64.finite_of_whole? (Binary64.equalsInt_iff.1 whole))
  | listItem hv hx =>
    cases equal_iff.1 h with
    | list items =>
      obtain ⟨w, hw, hvw⟩ := exists_mem_of_forall₂ items hv
      have := List.sizeOf_lt_of_mem hv
      have := List.sizeOf_lt_of_mem hw
      exact nanFree_of_equal (ha.contents _ hv) (hb.contents _ hw) hvw x hx
  | tupleItem hv hx =>
    cases equal_iff.1 h with
    | tuple items =>
      obtain ⟨w, hw, hvw⟩ := exists_mem_of_forall₂ items hv
      have := List.sizeOf_lt_of_mem hv
      have := List.sizeOf_lt_of_mem hw
      exact nanFree_of_equal (ha.contents _ hv) (hb.contents _ hw) hvw x hx
  | setItem hv hx =>
    cases equal_iff.1 h with
    | set partners =>
      -- partners are equal in the order of the operands turned around
      obtain ⟨w, hw, hwv⟩ := partners.2 _ hv
      have := List.sizeOf_lt_of_mem hv
      have := List.sizeOf_lt_of_mem hw
      have builtV := ha.contents.1 _ hv
      have builtW := hb.contents.1 _ hw
      exact nanFree_of_equal builtV builtW (equal_symm builtW builtV hwv) x hx
  | key he hx =>
    cases equal_iff.1 h with
    | dict partners =>
      obtain ⟨f, hf, hef⟩ := partners.2 _ he
      have := sizeOf_entry_lt he
      have := sizeOf_entry_lt hf
      exact nanFree_of_equal (ha.contents.1 _ he).1 (hb.contents.1 _ hf).1 hef.1 x hx
  | entry he hx =>
    cases equal_iff.1 h with
    | dict partners =>
      obtain ⟨f, hf, hef⟩ := partners.2 _ he
      have := sizeOf_entry_lt he
      have := sizeOf_entry_lt hf
      exact nanFree_of_equal (ha.contents.1 _ he).2 (hb.contents.1 _ hf).2 hef.2 x hx
termination_by sizeOf a + sizeOf b
decreasing_by all_goals (subst_vars; simp; omega)

/-! ## Equality -/

/-- Equality is a partial equivalence: transitive on all values, symmetric on those whose sets and dicts
all came out of their constructors, and reflexive on values without floats that stand for no number. Of
the values built with the constructors it is reflexive on no other. -/
theorem equal_isPartialEquiv :
    (∀ a b c : Value, a.equal b → b.equal c → a.equal c) ∧
      (∀ a b : Value, (∀ x, Contains a x → x.Collected) → (∀ x, Contains b x → x.Collected) →
        a.equal b → b.equal a) ∧
      (∀ v : Value, v.NaNFree → v.equal v) ∧
      ∀ v : Value, (∀ x, Contains v x → x.Collected) → v.equal v → v.NaNFree := by
  refine ⟨fun a b c => equal_trans, fun a b ha hb => ?_, fun v => equal_refl, fun v hv => ?_⟩
  · exact equal_symm (built_iff.2 ha) (built_iff.2 hb)
  · exact nanFree_of_equal (built_iff.2 hv) (built_iff.2 hv)

/-- A set of an integer and a list equals one that holds the same as floats in the other order, both ways
round, and each equals itself. -/
theorem mixed_sets_isPartialEquiv :
    let one : Binary64 := ⟨0x3ff0000000000000⟩
    let two : Binary64 := ⟨0x4000000000000000⟩
    let a := setOf [.int 1, .list [.int 2]]
    let b := setOf [.list [.float two], .float one]
    (∀ x, Contains a x → x.Collected) ∧ (∀ x, Contains b x → x.Collected) ∧ a.NaNFree ∧
      a.equal b ∧ b.equal a ∧ a.equal a := by
  intro one two a b
  have builtA : a.Built := .set (List.forall_mem_cons.2
    ⟨.int 1, List.forall_mem_singleton.2 (.list (List.forall_mem_singleton.2 (.int 2)))⟩)
  have builtB : b.Built := .set (List.forall_mem_cons.2
    ⟨.list (List.forall_mem_singleton.2 (.float two)), List.forall_mem_singleton.2 (.float one)⟩)
  have collectedA : ∀ x, Contains a x → x.Collected := fun x hx => (builtA.of_contains hx).collected
  have collectedB : ∀ x, Contains b x → x.Collected := fun x hx => (builtB.of_contains hx).collected
  have there : a.equal b := by decide +kernel
  have free : a.NaNFree := nanFree_of_equal builtA builtB there
  obtain ⟨-, symm, refl, -⟩ := equal_isPartialEquiv
  exact ⟨collectedA, collectedB, free, there, symm a b collectedA collectedB there, refl a free⟩

end Value

end TypeContracts
