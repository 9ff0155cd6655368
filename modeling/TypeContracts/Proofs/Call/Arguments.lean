import Mathlib.Data.List.Induction
import TypeContracts.Proofs.Call.Binding
import TypeContracts.Proofs.Table

/-!
What a call comes to when it binds to a signature. The arguments are taken in one order: surplus positional
arguments are refused first, then the first keyword argument that cannot be taken, and then the first
parameter without a value is missing; otherwise each parameter has the value that its declaration gives it.
This is stated by the relation `Signature.Outcome` without slots or loops, and binding answers as it says.
Main statement: `Signature.bind_eq_iff_outcome`.
-/

namespace TypeContracts

namespace Signature

variable {s : Signature} {args : Args} {positional : List Value} {before : List (String × Value)}
  {name : String} {v : Value} {e : Error}

/-! ## Keyword arguments -/

/-- Why a keyword argument is refused after the positional arguments and the keywords `before` it. -/
inductive Refusal (s : Signature) (positional : List Value) (before : List (String × Value))
    (name : String) : Error → Prop where
  | filled {i : Nat} {q : Param} : s.fixed[i]? = some q → q.name = name →
      i < positional.length ∨ name ∈ before.map (·.1) →
      Refusal s positional before name (.duplicateArgument name)
  | repeated : (∀ q ∈ s.fixed, q.name ≠ name) → s.collects .varKeyword → name ∈ before.map (·.1) →
      Refusal s positional before name (.duplicateArgument name)
  | unknown : (∀ q ∈ s.fixed, q.name ≠ name) → s.collects .varKeyword = false →
      Refusal s positional before name (.unexpectedArgument name)

/-- None of the keyword arguments is refused. -/
inductive Accepted (s : Signature) (positional : List Value) : List (String × Value) → Prop where
  | nil : Accepted s positional []
  | snoc {before : List (String × Value)} {name : String} {v : Value} : Accepted s positional before →
      (∀ e, ¬ Refusal s positional before name e) → Accepted s positional (before ++ [(name, v)])

/-- All keyword arguments are accepted, or there is a first one that is refused. -/
theorem accepted_or_refusal (s : Signature) (positional : List Value) (keywords : List (String × Value)) :
    Accepted s positional keywords ∨
      ∃ before name v after e, keywords = before ++ (name, v) :: after ∧
        Accepted s positional before ∧ Refusal s positional before name e := by
  induction keywords using List.reverseRecOn with
  | nil => exact .inl .nil
  | append_singleton keywords keyword ih =>
    obtain ⟨name, v⟩ := keyword
    rcases ih with accepted | ⟨before, name', v', after, e, rfl, accepted, refused⟩
    · by_cases fine : ∀ e, ¬ Refusal s positional keywords name e
      · exact .inl (accepted.snoc fine)
      · obtain ⟨e, refused⟩ : ∃ e, Refusal s positional keywords name e := by simpa using fine
        exact .inr ⟨keywords, name, v, [], e, rfl, accepted, refused⟩
    · right
      exact ⟨before, name', v', after ++ [(name, v)], e, by simp, accepted, refused⟩

/-- Keyword arguments that are accepted differ in name. -/
theorem Accepted.nodup (accepted : Accepted s positional before) : (before.map (·.1)).Nodup := by
  induction accepted with
  | nil => exact List.nodup_nil
  | @snoc before name v _ fine ih =>
    rw [List.map_append, List.perm_append_comm.nodup_iff]
    refine List.nodup_cons.2 ⟨?_, ih⟩
    intro given
    -- a name that comes again is refused, whatever it names
    by_cases known : ∃ q ∈ s.fixed, q.name = name
    · obtain ⟨q, hq, named⟩ := known
      obtain ⟨i, hi⟩ := List.mem_iff_getElem?.1 hq
      exact fine _ (.filled hi named (.inr given))
    · have unknown : ∀ q ∈ s.fixed, q.name ≠ name := fun q hq named => known ⟨q, hq, named⟩
      cases collects : s.collects .varKeyword with
      | true => exact fine _ (.repeated unknown collects given)
      | false => exact fine _ (.unknown unknown collects)

/-! ## Values -/

/-- The argument for the fixed parameter in place `i`: the positional one in that place, or else the
keyword argument of its name. -/
def argument? (args : Args) (i : Nat) (q : Param) : Option Value :=
  args.positional[i]? <|> args.keywords.lookup q.name

/-- The keyword arguments that name no fixed parameter, in call order. -/
def surplus (s : Signature) (keywords : List (String × Value)) : List (String × Value) :=
  keywords.filter fun k => !s.fixed.any (·.name == k.1)

/-- The value of the parameter in place `i`. -/
def value? (s : Signature) (args : Args) (i : Nat) (q : Param) : Option Value :=
  match q.kind with
  | .positional => argument? args i q <|> q.default
  | .varPositional => some (.tuple (args.positional.drop s.arity))
  | .varKeyword => some (.dict ((s.surplus args.keywords).map fun k => (.str k.1, k.2)))

/-- One value for each parameter, in order of declaration. -/
structure Valued (s : Signature) (args : Args) (vs : List Value) : Prop where
  length : vs.length = s.params.length
  value : ∀ (i : Nat) (q : Param), s.params[i]? = some q → s.value? args i q = vs[i]?

/-- What a call comes to when it binds to a signature. -/
inductive Outcome (s : Signature) (args : Args) : Except Error (List Value) → Prop where
  | tooMany : s.arity < args.positional.length → s.collects .varPositional = false →
      Outcome s args (.error (.argumentCountMismatch s.arity args.positional.length))
  | refused {before : List (String × Value)} {name : String} {v : Value}
      {after : List (String × Value)} {e : Error} :
      (args.positional.length ≤ s.arity ∨ s.collects .varPositional) →
      args.keywords = before ++ (name, v) :: after → Accepted s args.positional before →
      Refusal s args.positional before name e → Outcome s args (.error e)
  | missing {i : Nat} {q : Param} :
      (args.positional.length ≤ s.arity ∨ s.collects .varPositional) →
      Accepted s args.positional args.keywords →
      s.params[i]? = some q → s.value? args i q = none →
      (∀ j < i, ∀ r, s.params[j]? = some r → (s.value? args j r).isSome) →
      Outcome s args (.error (.missingArgument q.name))
  | bound {vs : List Value} :
      (args.positional.length ≤ s.arity ∨ s.collects .varPositional) →
      Accepted s args.positional args.keywords → Valued s args vs → Outcome s args (.ok vs)

theorem Valued.ne_none {vs : List Value} (valued : Valued s args vs) {i : Nat} {q : Param}
    (hq : s.params[i]? = some q) : s.value? args i q ≠ none := by
  rw [valued.value i q hq, Ne, List.getElem?_eq_none_iff, valued.length]
  exact Nat.not_le.2 (List.getElem?_eq_some_iff.1 hq).1

theorem Valued.unique {vs ws : List Value} (hv : Valued s args vs) (hw : Valued s args ws) :
    vs = ws := by
  apply List.ext_getElem?
  intro i
  cases hq : s.params[i]? with
  | none =>
    have beyond := List.getElem?_eq_none_iff.1 hq
    rw [List.getElem?_eq_none (hv.length ▸ beyond), List.getElem?_eq_none (hw.length ▸ beyond)]
  | some q => rw [← hv.value i q hq, ← hw.value i q hq]

/-! ## Assignment -/

/-- What has been assigned after the positional arguments and the keyword arguments `before`. -/
def assigned (s : Signature) (positional : List Value) (before : List (String × Value)) : Assignment :=
  ⟨s.fixed.mapIdx (argument? ⟨positional, before⟩), s.surplus before⟩

theorem getElem?_slots_assigned (i : Nat) :
    (assigned s positional before).slots[i]? =
      s.fixed[i]?.map (argument? ⟨positional, before⟩ i) :=
  List.getElem?_mapIdx

/-- Before the keywords are read the slots hold the positional arguments. -/
theorem assigned_nil : assigned s positional [] = ⟨positionalSlots s.arity positional, []⟩ := by
  unfold assigned arity
  congr 1
  apply List.ext_getElem?
  intro i
  rw [List.getElem?_mapIdx, getElem?_positionalSlots]
  by_cases inside : i < s.fixed.length
  · rw [List.getElem?_eq_getElem inside, Option.map_some, if_pos inside]
    simp [argument?]
  · rw [List.getElem?_eq_none (Nat.not_lt.1 inside), Option.map_none, if_neg inside]

/-- A parameter has no argument if the positional ones do not reach it and no keyword has its name. -/
theorem argument?_eq_none_iff {i : Nat} {q : Param} :
    argument? ⟨positional, before⟩ i q = none ↔
      positional.length ≤ i ∧ q.name ∉ before.map (·.1) := by
  simp only [argument?, Option.orElse_eq_none, List.getElem?_eq_none_iff, Table.lookup_eq_none_iff]

theorem argument?_snoc_of_ne {i : Nat} {q : Param} (other : q.name ≠ name) :
    argument? ⟨positional, before ++ [(name, v)]⟩ i q = argument? ⟨positional, before⟩ i q := by
  simp [argument?, List.lookup_append, List.lookup_cons, beq_eq_false_iff_ne.2 other]

/-- A keyword argument is the argument of the parameter of its name, if that had none. -/
theorem argument?_snoc_self {i : Nat} {q : Param}
    (empty : argument? ⟨positional, before⟩ i q = none) :
    argument? ⟨positional, before ++ [(q.name, v)]⟩ i q = some v := by
  obtain ⟨beyond, fresh⟩ := argument?_eq_none_iff.1 empty
  simp [argument?, List.lookup_append, List.getElem?_eq_none beyond,
    Table.lookup_eq_none_iff.2 fresh]

theorem findIdx?_eq_none (unknown : ∀ q ∈ s.fixed, q.name ≠ name) :
    s.fixed.findIdx? (·.name == name) = none :=
  List.findIdx?_eq_none_iff.2 fun q hq => beq_eq_false_iff_ne.2 (unknown q hq)

/-- A name that no fixed parameter has is among the surplus keywords as soon as it was given. -/
theorem any_surplus_iff (unknown : ∀ q ∈ s.fixed, q.name ≠ name) :
    (s.surplus before).any (·.1 == name) ↔ name ∈ before.map (·.1) := by
  have notFixed : s.fixed.any (·.name == name) = false :=
    List.any_eq_false.2 fun q hq => by simpa using unknown q hq
  rw [List.any_eq_true, List.mem_map]
  constructor
  · rintro ⟨k, hk, same⟩
    exact ⟨k, List.mem_of_mem_filter hk, beq_iff_eq.1 same⟩
  · rintro ⟨k, hk, rfl⟩
    refine ⟨k, List.mem_filter.2 ⟨hk, ?_⟩, beq_self_eq_true _⟩
    rw [notFixed]
    rfl

section distinct

variable (distinct : s.fixed.Pairwise (·.name ≠ ·.name))

include distinct

/-- A name is found in the place of its parameter. -/
theorem findIdx?_of_distinct {i : Nat} {q : Param} (hq : s.fixed[i]? = some q) :
    s.fixed.findIdx? (·.name == q.name) = some i := by
  obtain ⟨inside, rfl⟩ := List.getElem?_eq_some_iff.1 hq
  refine List.findIdx?_eq_some_iff_getElem.2 ⟨inside, beq_self_eq_true _, ?_⟩
  intro j hj same
  exact List.pairwise_iff_getElem.1 distinct j i _ inside hj (beq_iff_eq.1 same)

theorem place_unique {i j : Nat} {q r : Param} (hq : s.fixed[i]? = some q) (hr : s.fixed[j]? = some r)
    (named : q.name = r.name) : i = j := by
  have found := findIdx?_of_distinct distinct hq
  rw [named, findIdx?_of_distinct distinct hr] at found
  exact (Option.some.inj found).symm

/-- A keyword argument that is to be refused is refused, for the reason given. -/
theorem assignKeyword_of_refusal (refused : Refusal s positional before name e) (v : Value) :
    s.assignKeyword (assigned s positional before) (name, v) = .error e := by
  cases refused with
  | @filled i q hq named reached =>
    subst named
    -- the slot is full: a positional argument reached it, or an earlier keyword
    have slot : argument? ⟨positional, before⟩ i q ≠ none := by
      intro empty
      obtain ⟨beyond, fresh⟩ := argument?_eq_none_iff.1 empty
      rcases reached with inside | given
      · exact Nat.not_lt.2 beyond inside
      · exact fresh given
    obtain ⟨w, value⟩ := Option.ne_none_iff_exists'.1 slot
    simp only [assignKeyword, findIdx?_of_distinct distinct hq]
    rw [getElem?_slots_assigned, hq, Option.map_some, value]
  | repeated unknown collects given =>
    have taken : (s.surplus before).any (·.1 == name) := (any_surplus_iff unknown).2 given
    simp [assignKeyword, findIdx?_eq_none unknown, collects, assigned, taken]
  | unknown unknown collects =>
    simp [assignKeyword, findIdx?_eq_none unknown, collects]

/-- A keyword argument fills the slot of its own parameter and no other. -/
theorem slots_snoc_of_known {i : Nat} {q : Param} (hq : s.fixed[i]? = some q)
    (empty : argument? ⟨positional, before⟩ i q = none) (v : Value) :
    (assigned s positional (before ++ [(q.name, v)])).slots =
      (assigned s positional before).slots.set i (some v) := by
  apply List.ext_getElem?
  intro j
  rw [List.getElem?_set, getElem?_slots_assigned, getElem?_slots_assigned]
  by_cases same : i = j
  · subst same
    have inside : i < (assigned s positional before).slots.length := by
      rw [assigned, List.length_mapIdx]
      exact (List.getElem?_eq_some_iff.1 hq).1
    rw [if_pos rfl, if_pos inside, hq, Option.map_some, argument?_snoc_self empty]
  · rw [if_neg same]
    cases hr : s.fixed[j]? with
    | none => rfl
    | some r =>
      have other : r.name ≠ q.name := fun named => same (place_unique distinct hq hr named.symm)
      rw [Option.map_some, Option.map_some, argument?_snoc_of_ne other]

omit distinct in
/-- A keyword argument that names no fixed parameter fills no slot. -/
theorem slots_snoc_of_unknown (unknown : ∀ q ∈ s.fixed, q.name ≠ name) (v : Value) :
    (assigned s positional (before ++ [(name, v)])).slots = (assigned s positional before).slots := by
  apply List.ext_getElem?
  intro j
  rw [getElem?_slots_assigned, getElem?_slots_assigned]
  cases hr : s.fixed[j]? with
  | none => rfl
  | some r =>
    have other : r.name ≠ name := unknown r (List.mem_of_getElem? hr)
    rw [Option.map_some, Option.map_some, argument?_snoc_of_ne other]

/-- A keyword argument that nothing speaks against is assigned: to its parameter, or to the surplus. -/
theorem assignKeyword_of_not_refusal (fine : ∀ e, ¬ Refusal s positional before name e) (v : Value) :
    s.assignKeyword (assigned s positional before) (name, v) =
      .ok (assigned s positional (before ++ [(name, v)])) := by
  by_cases known : ∃ q ∈ s.fixed, q.name = name
  · obtain ⟨q, hq, named⟩ := known
    obtain ⟨i, hi⟩ := List.mem_iff_getElem?.1 hq
    subst named
    have empty : argument? ⟨positional, before⟩ i q = none := by
      refine argument?_eq_none_iff.2 ⟨?_, fun given => fine _ (.filled hi rfl (.inr given))⟩
      exact Nat.not_lt.1 fun inside => fine _ (.filled hi rfl (.inl inside))
    have isFixed : s.fixed.any (·.name == q.name) :=
      List.any_eq_true.2 ⟨q, hq, beq_self_eq_true _⟩
    have surplus : s.surplus (before ++ [(q.name, v)]) = s.surplus before := by
      simp [Signature.surplus, isFixed]
    have after : assigned s positional (before ++ [(q.name, v)]) =
        ⟨(assigned s positional before).slots.set i (some v), s.surplus before⟩ := by
      rw [← slots_snoc_of_known distinct hi empty, ← surplus]
      rfl
    simp only [assignKeyword, findIdx?_of_distinct distinct hi]
    rw [getElem?_slots_assigned, hi, Option.map_some, empty, after]
    rfl
  · have unknown : ∀ q ∈ s.fixed, q.name ≠ name := fun q hq named => known ⟨q, hq, named⟩
    have collects : s.collects .varKeyword := by
      by_contra refuses
      exact fine _ (.unknown unknown (Bool.eq_false_iff.2 refuses))
    have free : ¬ (assigned s positional before).surplus.any (·.1 == name) := by
      intro taken
      exact fine _ (.repeated unknown collects ((any_surplus_iff unknown).1 taken))
    have notFixed : s.fixed.any (·.name == name) = false :=
      List.any_eq_false.2 fun q hq => by simpa using unknown q hq
    have surplus : s.surplus (before ++ [(name, v)]) = s.surplus before ++ [(name, v)] := by
      simp [Signature.surplus, notFixed]
    have after : assigned s positional (before ++ [(name, v)]) =
        ⟨(assigned s positional before).slots, s.surplus before ++ [(name, v)]⟩ := by
      rw [← slots_snoc_of_unknown unknown v, ← surplus]
      rfl
    simp only [assignKeyword, findIdx?_eq_none unknown, collects]
    rw [after, if_neg (by decide), if_neg free]
    rfl

/-- Keyword arguments that are accepted are all assigned. -/
theorem Accepted.foldlM (accepted : Accepted s positional before) :
    before.foldlM s.assignKeyword (assigned s positional []) = .ok (assigned s positional before) := by
  induction accepted with
  | nil => rfl
  | snoc _ fine ih =>
    rw [List.foldlM_append, ih]
    show [_].foldlM s.assignKeyword (assigned s positional _) = _
    rw [List.foldlM_cons, assignKeyword_of_not_refusal distinct fine]
    rfl

/-- The first keyword argument that is refused ends the reading of the keywords. -/
theorem Refusal.foldlM (refused : Refusal s positional before name e)
    (accepted : Accepted s positional before) (v : Value) (after : List (String × Value)) :
    (before ++ (name, v) :: after).foldlM s.assignKeyword (assigned s positional []) = .error e := by
  rw [List.foldlM_append, accepted.foldlM distinct]
  show ((name, v) :: after).foldlM s.assignKeyword (assigned s positional before) = _
  rw [List.foldlM_cons, assignKeyword_of_refusal distinct refused v]
  rfl

end distinct

/-! ## Binding -/

section ordered

variable (ordered : s.params.Pairwise Precedes)

include ordered

theorem pairwise_fixed : s.fixed.Pairwise (·.name ≠ ·.name) :=
  (ordered.imp (·.names)).filter _

theorem params_eq_append : s.params = s.fixed ++ s.params.filter (·.isVariadic) :=
  eq_fixed_append ordered

/-- The fixed parameters are the first ones. -/
theorem getElem?_params_of_lt {i : Nat} (inside : i < s.arity) : s.params[i]? = s.fixed[i]? := by
  rw [params_eq_append ordered]
  exact List.getElem?_append_left inside

theorem isVariadic_iff_arity_le {i : Nat} {q : Param} (hq : s.params[i]? = some q) :
    q.isVariadic ↔ s.arity ≤ i := by
  by_cases inside : i < s.arity
  · have inFixed : q ∈ s.fixed :=
      List.mem_of_getElem? ((getElem?_params_of_lt ordered inside).symm.trans hq)
    have fixed : q.isVariadic = false := by simpa using List.of_mem_filter inFixed
    simp [fixed, inside]
  · have beyond : s.arity ≤ i := Nat.not_lt.1 inside
    rw [params_eq_append ordered, List.getElem?_append_right beyond] at hq
    exact iff_of_true (List.of_mem_filter (List.mem_of_getElem? hq)) beyond

/-- The values that binding collects are those that the parameters declare. -/
theorem valueOf?_assigned {i : Nat} {q : Param} (hq : s.params[i]? = some q) :
    valueOf? (args.positional.drop s.arity) (s.surplus args.keywords) q
      (assigned s args.positional args.keywords).slots[i]?.join = s.value? args i q := by
  cases kind : q.kind with
  | positional =>
    have inside : i < s.arity := by
      by_contra beyond
      have variadic := (isVariadic_iff_arity_le ordered hq).2 (Nat.not_lt.1 beyond)
      simp [Param.isVariadic, kind] at variadic
    have param : s.fixed[i]? = some q := (getElem?_params_of_lt ordered inside).symm.trans hq
    simp only [valueOf?, value?, kind]
    rw [getElem?_slots_assigned, param, Option.map_some, Option.join_some]
  | varPositional | varKeyword =>
    simp only [valueOf?, value?, kind, keywordDict]

omit ordered in
/-- If the positional arguments fit, the keyword arguments are read next. -/
theorem bind_of_fits (fits : args.positional.length ≤ s.arity ∨ s.collects .varPositional) :
    s.bind args = (do
      let a ← args.keywords.foldlM s.assignKeyword (assigned s args.positional [])
      collectValues (args.positional.drop s.arity) a.surplus s.params a.slots) := by
  have noneTooMany : ¬ (s.arity < args.positional.length ∧ !s.collects .varPositional) := by
    rintro ⟨more, none⟩
    rcases fits with fits | collects
    · exact Nat.not_lt.2 fits more
    · simp [collects] at none
  rw [bind, if_neg noneTooMany, assigned_nil]

/-- Once the keywords are read, each parameter is given its value. -/
theorem bind_of_accepted (fits : args.positional.length ≤ s.arity ∨ s.collects .varPositional)
    (accepted : Accepted s args.positional args.keywords) :
    s.bind args = collectValues (args.positional.drop s.arity) (s.surplus args.keywords) s.params
      (assigned s args.positional args.keywords).slots := by
  have reading := accepted.foldlM (pairwise_fixed ordered)
  rw [bind_of_fits fits, reading]
  rfl

/-- Binding gives every parameter its value, or misses the first one without a value. -/
theorem bind_cases_of_accepted (fits : args.positional.length ≤ s.arity ∨ s.collects .varPositional)
    (accepted : Accepted s args.positional args.keywords) :
    (∃ vs, s.bind args = .ok vs ∧ Valued s args vs) ∨
    ∃ (i : Nat) (q : Param), s.params[i]? = some q ∧ s.value? args i q = none ∧
      (∀ j < i, ∀ r, s.params[j]? = some r → (s.value? args j r).isSome) ∧
      s.bind args = .error (.missingArgument q.name) := by
  have collecting : ∀ (i : Nat) q, s.params[i]? = some q → q.isVariadic →
      (assigned s args.positional args.keywords).slots.length ≤ i := by
    intro i q hq variadic
    rw [assigned, List.length_mapIdx]
    exact (isVariadic_iff_arity_le ordered hq).1 variadic
  rw [bind_of_accepted ordered fits accepted]
  rcases @collectValues_cases (args.positional.drop s.arity) (s.surplus args.keywords) _ _ collecting with
    ⟨vs, collected, len, values⟩ | ⟨i, q, hq, empty, filled, missing⟩
  · left
    refine ⟨vs, collected, len, ?_⟩
    intro i q hq
    rw [← values i q hq, valueOf?_assigned ordered hq]
  · right
    refine ⟨i, q, hq, (valueOf?_assigned ordered hq).symm.trans empty, ?_, missing⟩
    intro j hj r hr
    rw [← valueOf?_assigned ordered hr]
    exact filled j hj r hr

/-- Every call comes to something. -/
theorem exists_outcome (args : Args) : ∃ r, Outcome s args r := by
  by_cases fits : args.positional.length ≤ s.arity ∨ s.collects .varPositional
  · rcases accepted_or_refusal s args.positional args.keywords with
      accepted | ⟨before, name, v, after, e, split, accepted, refused⟩
    · rcases bind_cases_of_accepted ordered fits accepted with
        ⟨vs, -, valued⟩ | ⟨i, q, hq, empty, filled, -⟩
      · exact ⟨_, .bound fits accepted valued⟩
      · exact ⟨_, .missing fits accepted hq empty filled⟩
    · exact ⟨_, .refused fits split accepted refused⟩
  · rw [not_or] at fits
    exact ⟨_, .tooMany (Nat.not_le.1 fits.1) (Bool.eq_false_iff.2 fits.2)⟩

/-- Binding answers what the call comes to. -/
theorem Outcome.bind_eq {r : Except Error (List Value)} (outcome : Outcome s args r) :
    s.bind args = r := by
  cases outcome with
  | tooMany more none =>
    rw [bind, if_pos ⟨more, by rw [none]; rfl⟩]
  | refused fits split accepted refused =>
    rw [bind_of_fits fits, split, refused.foldlM (pairwise_fixed ordered) accepted]
    rfl
  | @missing i q fits accepted hq empty filled =>
    rcases bind_cases_of_accepted ordered fits accepted with
      ⟨vs, -, valued⟩ | ⟨j, r, hr, empty', filled', missing⟩
    · exact absurd empty (valued.ne_none hq)
    · -- there is only one first parameter without a value
      have notBefore : ¬ j < i := by
        intro before
        simpa [empty'] using filled j before r hr
      have notAfter : ¬ i < j := by
        intro before
        simpa [empty] using filled' i before q hq
      obtain rfl : i = j := by omega
      cases hq.symm.trans hr
      exact missing
  | bound fits accepted valued =>
    rcases bind_cases_of_accepted ordered fits accepted with
      ⟨vs, bound, valued'⟩ | ⟨i, q, hq, empty, -⟩
    · rw [bound, valued'.unique valued]
    · exact absurd empty (valued.ne_none hq)

end ordered

/-! ## Delivery -/

/-- The collecting parameter of the given kind has the value `w`. -/
def Takes (s : Signature) (vs : List Value) (kind : ParamKind) (w : Value) : Prop :=
  ∃ (j : Nat) (q : Param), s.params[j]? = some q ∧ q.kind = kind ∧ vs[j]? = some w

/-- Every argument of the call has its one place among the values of the parameters: a positional one by
its number, a keyword argument by its name, which no other has. -/
structure Delivered (s : Signature) (args : Args) (vs : List Value) : Prop where
  inPlace : ∀ (i : Nat) v, args.positional[i]? = some v → i < s.arity → vs[i]? = some v
  inTuple : ∀ (i : Nat) v, args.positional[i]? = some v → s.arity ≤ i →
    ∃ ws, Takes s vs .varPositional (.tuple ws) ∧ ws[i - s.arity]? = some v
  byName : ∀ name v, (name, v) ∈ args.keywords →
    (∃ (i : Nat) (q : Param), s.fixed[i]? = some q ∧ q.name = name ∧ args.positional.length ≤ i ∧
      vs[i]? = some v) ∨
    (∀ q ∈ s.fixed, q.name ≠ name) ∧ ∃ es, Takes s vs .varKeyword (.dict es) ∧ (.str name, v) ∈ es
  namesDiffer : (args.keywords.map (·.1)).Nodup

theorem kind_of_mem_fixed {q : Param} (hq : q ∈ s.fixed) : q.kind = .positional := by
  simpa [Param.isVariadic] using List.of_mem_filter hq

/-- A keyword argument that is accepted is none that the refusals speak of. -/
theorem Accepted.not_refusal (accepted : Accepted s positional before)
    (given : (name, v) ∈ before) : ∃ earlier, ∀ e, ¬ Refusal s positional earlier name e := by
  induction accepted with
  | nil => cases given
  | @snoc before' _ _ _ fine ih =>
    rcases List.mem_append.1 given with given | given
    · exact ih given
    · cases List.mem_singleton.1 given
      exact ⟨before', fine⟩

theorem lookup_of_nodup (nodup : (before.map (·.1)).Nodup) (given : (name, v) ∈ before) :
    before.lookup name = some v := by
  induction before with
  | nil => cases given
  | cons k rest ih =>
    obtain ⟨fresh, nodup⟩ := List.nodup_cons.1 nodup
    rcases List.mem_cons.1 given with rfl | given
    · exact List.lookup_cons_self
    · have other : name ≠ k.1 := by
        rintro rfl
        exact fresh (List.mem_map.2 ⟨_, given, rfl⟩)
      rw [List.lookup_cons, beq_eq_false_iff_ne.2 other]
      exact ih nodup given

theorem takes_of_collects {vs : List Value} (valued : Valued s args vs) {kind : ParamKind} {w : Value}
    (collects : s.collects kind)
    (value : ∀ (i : Nat) (q : Param), q.kind = kind → s.value? args i q = some w) :
    Takes s vs kind w := by
  obtain ⟨q, hq, same⟩ := List.any_eq_true.1 collects
  obtain ⟨j, hj⟩ := List.mem_iff_getElem?.1 hq
  have kind := beq_iff_eq.1 same
  exact ⟨j, q, hj, kind, (valued.value j q hj).symm.trans (value j q kind)⟩

/-- If a call binds, each of its arguments is delivered. -/
theorem delivered_of_valued (ordered : s.params.Pairwise Precedes) {vs : List Value}
    (fits : args.positional.length ≤ s.arity ∨ s.collects .varPositional)
    (accepted : Accepted s args.positional args.keywords) (valued : Valued s args vs) :
    Delivered s args vs := by
  have fixedValue : ∀ (i : Nat) (q : Param) v, s.fixed[i]? = some q → argument? args i q = some v →
      vs[i]? = some v := by
    intro i q v hq argument
    have param := (getElem?_params_of_lt ordered (List.getElem?_eq_some_iff.1 hq).1).trans hq
    have kind := kind_of_mem_fixed (List.mem_of_getElem? hq)
    rw [← valued.value i q param, value?, kind]
    simp [argument]
  constructor
  case inPlace =>
    intro i v hv inside
    refine fixedValue i s.fixed[i] v (List.getElem?_eq_getElem inside) ?_
    rw [argument?, hv]
    rfl
  case inTuple =>
    intro i v hv beyond
    have collects : s.collects .varPositional := by
      have := (List.getElem?_eq_some_iff.1 hv).1
      exact fits.resolve_left (by omega)
    refine ⟨_, takes_of_collects valued collects fun j q kind => by rw [value?, kind], ?_⟩
    rw [List.getElem?_drop, Nat.add_sub_cancel' beyond, hv]
  case byName =>
    intro name v given
    obtain ⟨earlier, fine⟩ := accepted.not_refusal given
    -- to the parameter of the name, or to the surplus if there is none
    by_cases known : ∃ q ∈ s.fixed, q.name = name
    · left
      obtain ⟨q, hq, rfl⟩ := known
      obtain ⟨i, hi⟩ := List.mem_iff_getElem?.1 hq
      have beyond : args.positional.length ≤ i :=
        Nat.not_lt.1 fun inside => fine _ (.filled hi rfl (.inl inside))
      refine ⟨i, q, hi, rfl, beyond, fixedValue i q v hi ?_⟩
      rw [argument?, List.getElem?_eq_none beyond, lookup_of_nodup accepted.nodup given]
      rfl
    · right
      have unknown : ∀ q ∈ s.fixed, q.name ≠ name := fun q hq named => known ⟨q, hq, named⟩
      have collects : s.collects .varKeyword := by
        by_contra refuses
        exact fine _ (.unknown unknown (Bool.eq_false_iff.2 refuses))
      refine ⟨unknown, _, takes_of_collects valued collects fun j q kind => by rw [value?, kind], ?_⟩
      have left : (name, v) ∈ s.surplus args.keywords :=
        List.mem_filter.2 ⟨given, by simpa using unknown⟩
      exact List.mem_map_of_mem left
  case namesDiffer => exact accepted.nodup

/-- Binding to a signature answers what the call comes to, and if it binds then every argument is
delivered to one parameter. -/
theorem bind_eq_iff_outcome {params : List Param} {returns : Option TypeSpec}
    (built : build params returns = .ok s) (args : Args) :
    (∀ r, s.bind args = r ↔ Outcome s args r) ∧
      ∀ vs, s.bind args = .ok vs → Delivered s args vs := by
  have ordered := pairwise_of_build built
  have answers : ∀ r, s.bind args = r ↔ Outcome s args r := by
    intro r
    constructor
    · intro h
      obtain ⟨r', outcome⟩ := exists_outcome ordered args
      rwa [← h, outcome.bind_eq ordered]
    · exact fun outcome => outcome.bind_eq ordered
  refine ⟨answers, ?_⟩
  intro vs h
  cases (answers _).1 h with
  | bound fits accepted valued => exact delivered_of_valued ordered fits accepted valued

/-- One argument in its place, one in the tuple and one in the dict. -/
theorem collecting_bind_eq_iff_outcome :
    let s : Signature := ⟨[⟨"path", .positional, none, none⟩, ⟨"parts", .varPositional, none, none⟩,
      ⟨"flags", .varKeyword, none, none⟩], none⟩
    let args : Args := ⟨[.str "src", .int 1], [("deep", .bool true)]⟩
    let vs : List Value := [.str "src", .tuple [.int 1], .dict [(.str "deep", .bool true)]]
    build s.params none = .ok s ∧ Outcome s args (.ok vs) ∧ Delivered s args vs := by
  intro s args vs
  have built : build s.params none = .ok s := rfl
  exact ⟨built, ((bind_eq_iff_outcome built args).1 _).1 rfl, (bind_eq_iff_outcome built args).2 _ rfl⟩

end Signature

end TypeContracts
