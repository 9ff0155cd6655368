import TypeContracts.Proofs.Comparison
import TypeContracts.Proofs.Number.Binary64

/-!
Value equality as a partial equivalence. It is transitive on all values, and symmetric on those whose
sets and dicts were made by their constructors (`Value.Built`); it is not reflexive, since a float may
stand for no number. `Value.Alike` says case by case when two values are equal.
Main statements: `Value.equal_trans`, `Value.equal_symm`.
-/

namespace TypeContracts

namespace Value

/-! ## The cases of equality -/

/-- When the first value equals the second: one case for each pair of kinds that can be equal. -/
inductive Alike : Value → Value → Prop where
  | null : Alike .null .null
  | bool (b : Bool) : Alike (.bool b) (.bool b)
  | int (i : Int64) : Alike (.int i) (.int i)
  | float {x y : Binary64} (h : x.equal y) : Alike (.float x) (.float y)
  | intFloat {i : Int64} {x : Binary64} (h : x.equalsInt i) : Alike (.int i) (.float x)
  | floatInt {x : Binary64} {i : Int64} (h : x.equalsInt i) : Alike (.float x) (.int i)
  | str (s : String) : Alike (.str s) (.str s)
  | list {xs ys : List Value} (h : List.Forall₂ (fun x y => x.equal y) xs ys) :
      Alike (.list xs) (.list ys)
  | tuple {xs ys : List Value} (h : List.Forall₂ (fun x y => x.equal y) xs ys) :
      Alike (.tuple xs) (.tuple ys)
  | set {xs ys : List Value} (h : Partnered (fun x y => y.equal x) xs ys) :
      Alike (.set xs) (.set ys)
  | dict {xs ys : List (Value × Value)}
      (h : Partnered (fun x y => x.1.equal y.1 ∧ x.2.equal y.2) xs ys) : Alike (.dict xs) (.dict ys)
  | object (o : ObjectRef) : Alike (.object o) (.object o)
  | function (f : Callable) : Alike (.function f) (.function f)
  | cls (c : Class) : Alike (.cls c) (.cls c)

theorem equalItems_iff {xs ys : List Value} :
    equalItems xs ys ↔ List.Forall₂ (fun x y => x.equal y) xs ys := by
  induction xs generalizing ys with
  | nil => cases ys <;> simp [equalItems]
  | cons x xs ih => cases ys <;> simp [equalItems, ih]

theorem equal_set_iff {xs ys : List Value} :
    (Value.set xs).equal (.set ys) ↔ Partnered (fun x y => y.equal x) xs ys := by
  simp [equal_set, isIn, Partnered]

theorem equal_dict_iff {xs ys : List (Value × Value)} :
    (Value.dict xs).equal (.dict ys) ↔
      Partnered (fun x y => x.1.equal y.1 ∧ x.2.equal y.2) xs ys := by
  simp [equal_dict, Partnered]

theorem equal_iff {a b : Value} : a.equal b ↔ Alike a b := by
  constructor
  · intro h
    cases a <;> cases b <;> simp only [equal, beq_iff_eq, Bool.false_eq_true] at h
    case null.null => exact .null
    case bool.bool => exact h ▸ .bool _
    case int.int => exact h ▸ .int _
    case float.float => exact .float h
    case int.float => exact .intFloat h
    case float.int => exact .floatInt h
    case str.str => exact h ▸ .str _
    case list.list => exact .list (equalItems_iff.1 h)
    case tuple.tuple => exact .tuple (equalItems_iff.1 h)
    case set.set xs ys => exact .set (equal_set_iff.1 (by simpa only [equal] using h))
    case dict.dict xs ys => exact .dict (equal_dict_iff.1 (by simpa only [equal] using h))
    case object.object => exact h ▸ .object _
    case function.function => exact h ▸ .function _
    case cls.cls => exact h ▸ .cls _
  · rintro (_ | _ | _ | h | h | h | _ | h | h | h | h | _ | _ | _)
    case list => rw [equal]; exact equalItems_iff.2 h
    case tuple => rw [equal]; exact equalItems_iff.2 h
    case set => exact equal_set_iff.2 h
    case dict => exact equal_dict_iff.2 h
    all_goals simp [equal]
    all_goals exact h

/-! ## Transitivity -/

/-- Equality is transitive. The sum of the sizes decreases; which of the three values shrinks with
which differs, because sets are compared against the order of their operands. -/
theorem equal_trans {a b c : Value} (hab : a.equal b) (hbc : b.equal c) : a.equal c := by
  cases equal_iff.1 hab with
  | null | bool | int | str | object | function | cls => exact hbc
  | float hxy =>
    cases equal_iff.1 hbc with
    | float hyz => exact equal_iff.2 (.float (Binary64.equal_trans hxy hyz))
    | floatInt hyi =>
      rw [Binary64.equalsInt_iff, ← Binary64.whole?_congr hxy] at hyi
      exact equal_iff.2 (.floatInt (Binary64.equalsInt_iff.2 hyi))
  | intFloat hxi =>
    rw [Binary64.equalsInt_iff] at hxi
    cases equal_iff.1 hbc with
    | float hxy =>
      rw [Binary64.whole?_congr hxy] at hxi
      exact equal_iff.2 (.intFloat (Binary64.equalsInt_iff.2 hxi))
    | floatInt hxj =>
      rw [Binary64.equalsInt_iff, hxi, Option.some.injEq, Int64.toInt_inj] at hxj
      exact equal_iff.2 (hxj ▸ .int _)
  | floatInt hxi =>
    cases equal_iff.1 hbc with
    | int => exact hab
    | intFloat hyi =>
      -- both floats stand for the integer between them
      rw [Binary64.equalsInt_iff] at hxi hyi
      exact equal_iff.2 (.float (Binary64.equal_of_whole? hxi hyi))
  | list hxs =>
    cases equal_iff.1 hbc with
    | list hys =>
      refine equal_iff.2 (.list (forall₂_trans (fun x hx y hy z hz hxy hyz => ?_) hxs hys))
      have := List.sizeOf_lt_of_mem hx
      have := List.sizeOf_lt_of_mem hy
      have := List.sizeOf_lt_of_mem hz
      exact equal_trans hxy hyz
  | tuple hxs =>
    cases equal_iff.1 hbc with
    | tuple hys =>
      refine equal_iff.2 (.tuple (forall₂_trans (fun x hx y hy z hz hxy hyz => ?_) hxs hys))
      have := List.sizeOf_lt_of_mem hx
      have := List.sizeOf_lt_of_mem hy
      have := List.sizeOf_lt_of_mem hz
      exact equal_trans hxy hyz
  | set hxs =>
    cases equal_iff.1 hbc with
    | set hys =>
      refine equal_iff.2 (.set (Partnered.trans (fun x hx y hy z hz hyx hzy => ?_) hxs hys))
      have := List.sizeOf_lt_of_mem hx
      have := List.sizeOf_lt_of_mem hy
      have := List.sizeOf_lt_of_mem hz
      exact equal_trans hzy hyx
  | dict hxs =>
    cases equal_iff.1 hbc with
    | dict hys =>
      refine equal_iff.2 (.dict (Partnered.trans (fun x hx y hy z hz hxy hyz => ?_) hxs hys))
      have := sizeOf_entry_lt hx
      have := sizeOf_entry_lt hy
      have := sizeOf_entry_lt hz
      exact ⟨equal_trans hxy.1 hyz.1, equal_trans hxy.2 hyz.2⟩
termination_by sizeOf a + sizeOf b + sizeOf c
decreasing_by all_goals (subst_vars; simp; omega)

/-! ## Values made by the constructors -/

/-- Values in which every set and every dict, at any depth, was made by its constructor. -/
inductive Built : Value → Prop where
  | null : Built .null
  | bool (b : Bool) : Built (.bool b)
  | int (i : Int64) : Built (.int i)
  | float (x : Binary64) : Built (.float x)
  | str (s : String) : Built (.str s)
  | list {vs : List Value} (h : ∀ v ∈ vs, Built v) : Built (.list vs)
  | tuple {vs : List Value} (h : ∀ v ∈ vs, Built v) : Built (.tuple vs)
  | set {vs : List Value} (h : ∀ v ∈ vs, Built v) : Built (setOf vs)
  | dict {es : List (Value × Value)} (hk : ∀ e ∈ es, Built e.1) (hv : ∀ e ∈ es, Built e.2) :
      Built (dictOf es)
  | object (o : ObjectRef) : Built (.object o)
  | function (f : Callable) : Built (.function f)
  | cls (c : Class) : Built (.cls c)

/-- Every entry of a written dict has its key and its value from an older entry or from the new one. -/
theorem mem_putEntry {key value : Value} {es : List (Value × Value)} {e : Value × Value}
    (h : e ∈ putEntry key value es) :
    (e.1 = key ∨ ∃ f ∈ es, e.1 = f.1) ∧ (e.2 = value ∨ ∃ f ∈ es, e.2 = f.2) := by
  induction es with
  | nil => rw [List.mem_singleton.1 h]; exact ⟨.inl rfl, .inl rfl⟩
  | cons f rest ih =>
    obtain ⟨k, v⟩ := f
    rw [putEntry] at h
    split at h
    · rcases List.mem_cons.1 h with rfl | h
      · exact ⟨.inr ⟨_, List.mem_cons_self, rfl⟩, .inl rfl⟩
      · exact ⟨.inr ⟨_, List.mem_cons_of_mem _ h, rfl⟩, .inr ⟨_, List.mem_cons_of_mem _ h, rfl⟩⟩
    · rcases List.mem_cons.1 h with rfl | h
      · exact ⟨.inr ⟨_, List.mem_cons_self, rfl⟩, .inr ⟨_, List.mem_cons_self, rfl⟩⟩
      · have later : ∀ {P : Value × Value → Prop}, (∃ f ∈ rest, P f) → ∃ f ∈ (k, v) :: rest, P f :=
          fun ⟨f, hf, hP⟩ => ⟨f, List.mem_cons_of_mem _ hf, hP⟩
        exact (ih h).imp (Or.imp id later) (Or.imp id later)

theorem mem_foldl_putEntry {P Q : Value → Prop} {es kept : List (Value × Value)}
    (hes : ∀ e ∈ es, P e.1 ∧ Q e.2) (hkept : ∀ e ∈ kept, P e.1 ∧ Q e.2) :
    ∀ e ∈ es.foldl (fun kept e => putEntry e.1 e.2 kept) kept, P e.1 ∧ Q e.2 := by
  induction es generalizing kept with
  | nil => exact hkept
  | cons f rest ih =>
    refine ih (fun e he => hes e (List.mem_cons_of_mem _ he)) fun e he => ?_
    have hf := hes f List.mem_cons_self
    obtain ⟨key | ⟨k, hk, key⟩, value | ⟨v, hv, value⟩⟩ := mem_putEntry he <;> rw [key, value]
    · exact hf
    · exact ⟨hf.1, (hkept v hv).2⟩
    · exact ⟨(hkept k hk).1, hf.2⟩
    · exact ⟨(hkept k hk).1, (hkept v hv).2⟩

theorem keys_putEntry (key value : Value) (es : List (Value × Value)) :
    (putEntry key value es).map (·.1) = addDistinct (es.map (·.1)) key := by
  induction es with
  | nil => rfl
  | cons f rest ih =>
    obtain ⟨k, v⟩ := f
    cases same : k.equal key
    · simp only [putEntry, same, addDistinct, isIn] at ih ⊢
      simp only [Bool.false_eq_true, if_false, List.map_cons, ih, List.any_cons, same,
        Bool.false_or]
      split <;> rename_i found <;> simp [found]
    · simp [putEntry, same, addDistinct, isIn]

/-- The keys of a dict are those of its entries without repetitions. -/
theorem keys_foldl_putEntry (es kept : List (Value × Value)) :
    (es.foldl (fun kept e => putEntry e.1 e.2 kept) kept).map (·.1) =
      (es.map (·.1)).foldl addDistinct (kept.map (·.1)) := by
  induction es generalizing kept with
  | nil => rfl
  | cons e rest ih => rw [List.foldl_cons, ih, keys_putEntry, List.map_cons, List.foldl_cons]

/-- The entries that stay when the given ones are put into an empty dict, one after another. -/
def gather (es : List (Value × Value)) : List (Value × Value) :=
  es.foldl (fun kept e => putEntry e.1 e.2 kept) []

theorem dictOf_eq (es : List (Value × Value)) : dictOf es = .dict (gather es) := rfl

theorem keys_gather (es : List (Value × Value)) :
    (gather es).map (·.1) = distinctBy equal (es.map (·.1)) := keys_foldl_putEntry es []

/-- No key of a dict is repeated. -/
theorem distinct_gather (es : List (Value × Value)) :
    Distinct (fun e f => e.1.equal f.1) (gather es) := by
  rw [Distinct, ← List.pairwise_map (f := Prod.fst) (R := fun k l => equal k l = false), keys_gather]
  exact distinct_distinctBy _

/-- What is known of the contents of a built value. -/
theorem Built.contents {v : Value} (h : Built v) :
    match v with
    | .list xs | .tuple xs => ∀ x ∈ xs, Built x
    | .set xs => (∀ x ∈ xs, Built x) ∧ Distinct equal xs
    | .dict es => (∀ e ∈ es, Built e.1 ∧ Built e.2) ∧ Distinct (fun e f => e.1.equal f.1) es
    | _ => True := by
  cases h with
  | list h => exact h
  | tuple h => exact h
  | set h => exact ⟨fun x hx => h x (mem_of_mem_distinctBy hx), distinct_distinctBy _⟩
  | dict hk hv =>
    exact ⟨mem_foldl_putEntry (fun e he => ⟨hk e he, hv e he⟩) nofun, distinct_gather _⟩
  | _ => trivial

/-! ## Symmetry -/

/-- Equality of built values is symmetric. -/
theorem equal_symm {a b : Value} (ha : a.Built) (hb : b.Built) (h : a.equal b) : b.equal a := by
  cases equal_iff.1 h with
  | null | bool | int | str | object | function | cls => exact h
  | float hxy => exact equal_iff.2 (.float (Binary64.equal_symm hxy))
  | intFloat hxi => exact equal_iff.2 (.floatInt hxi)
  | floatInt hxi => exact equal_iff.2 (.intFloat hxi)
  | list hxs =>
    refine equal_iff.2 (.list (forall₂_symm (fun x hx y hy hxy => ?_) hxs))
    have := List.sizeOf_lt_of_mem hx
    have := List.sizeOf_lt_of_mem hy
    exact equal_symm (ha.contents x hx) (hb.contents y hy) hxy
  | tuple hxs =>
    refine equal_iff.2 (.tuple (forall₂_symm (fun x hx y hy hxy => ?_) hxs))
    have := List.sizeOf_lt_of_mem hx
    have := List.sizeOf_lt_of_mem hy
    exact equal_symm (ha.contents x hx) (hb.contents y hy) hxy
  | @set xs ys hxs =>
    obtain ⟨hx, distinct⟩ := ha.contents
    have hy := hb.contents.1
    -- two elements of `xs` with a common equal in `ys` would be equal, but `xs` holds no repetitions
    have swap : ∀ x ∈ xs, ∀ y ∈ ys, y.equal x → x.equal y := fun x mx y my hyx => by
      have := List.sizeOf_lt_of_mem mx
      have := List.sizeOf_lt_of_mem my
      exact equal_symm (hy y my) (hx x mx) hyx
    refine equal_iff.2 (.set (hxs.symm distinct (fun x mx x' mx' y my hyx hyx' => ?_) swap))
    exact equal_trans (swap x mx y my hyx) hyx'
  | @dict xs ys hxs =>
    obtain ⟨hx, distinct⟩ := ha.contents
    have hy := hb.contents.1
    have swap : ∀ x ∈ xs, ∀ y ∈ ys, x.1.equal y.1 ∧ x.2.equal y.2 →
        y.1.equal x.1 ∧ y.2.equal x.2 := fun x mx y my hxy => by
      have := sizeOf_entry_lt mx
      have := sizeOf_entry_lt my
      exact ⟨equal_symm (hx x mx).1 (hy y my).1 hxy.1, equal_symm (hx x mx).2 (hy y my).2 hxy.2⟩
    refine equal_iff.2 (.dict (hxs.symm distinct (fun x mx x' mx' y my hxy hxy' => ?_) swap))
    exact equal_trans hxy.1 (swap x' mx' y my hxy').1
termination_by sizeOf a + sizeOf b
decreasing_by all_goals (subst_vars; simp; omega)

end Value

end TypeContracts
