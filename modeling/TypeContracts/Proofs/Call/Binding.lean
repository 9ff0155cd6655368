import Mathlib.Data.List.Forall2
import TypeContracts.Call.Binding
import TypeContracts.Proofs.Spec.Built
import TypeContracts.Proofs.Spec.Signature

/-!
The steps of binding. Keywords fill the slots of the parameters that they name, so two signatures without
collecting parameters that begin with the same names are filled alike; a parameter whose slot stays empty
takes its default value, and the first one without a default value is missing.
Main statements: `Signature.foldlM_assignKeyword`, `Signature.collectValues_cases`,
`Signature.exists_bind_ofPositional_iff`.
-/

namespace TypeContracts

namespace Signature

/-! ## Signatures without collecting parameters -/

section fixed

variable {s : Signature} (fixed : s.isVariadic = false)

include fixed

theorem kind_of_fixed {q : Param} (hq : q ∈ s.params) : q.kind = .positional := by
  have := List.any_eq_false.1 fixed q hq
  simpa [Param.isVariadic] using this

theorem fixed_eq_params : s.fixed = s.params := by
  refine List.filter_eq_self.2 fun q hq => ?_
  simp [Param.isVariadic, kind_of_fixed fixed hq]

theorem collects_varPositional : s.collects .varPositional = false := by
  refine List.any_eq_false.2 fun q hq => ?_
  simp [kind_of_fixed fixed hq]

theorem collects_varKeyword : s.collects .varKeyword = false := by
  refine List.any_eq_false.2 fun q hq => ?_
  simp [kind_of_fixed fixed hq]

/-- Binding takes no more positional arguments than there are parameters, then the keywords, and then
gives each parameter its value. -/
theorem bind_of_fixed (args : Args) :
    s.bind args =
      if s.params.length < args.positional.length then
        .error (.argumentCountMismatch s.params.length args.positional.length)
      else (do
        let a ← args.keywords.foldlM s.assignKeyword
          ⟨positionalSlots s.params.length args.positional, []⟩
        collectValues (args.positional.drop s.params.length) a.surplus s.params a.slots) := by
  simp only [bind, arity, fixed_eq_params fixed, collects_varPositional fixed, Bool.not_false,
    and_true]

end fixed

/-! ## Filling slots -/

/-- A slot holds the argument in its place, if there is one. -/
theorem getElem?_positionalSlots (n : Nat) (vs : List Value) (i : Nat) :
    (positionalSlots n vs)[i]? = if i < n then some vs[i]? else none := by
  unfold positionalSlots
  grind

theorem length_positionalSlots {n : Nat} {vs : List Value} (h : vs.length ≤ n) :
    (positionalSlots n vs).length = n := by
  simp only [positionalSlots, List.length_append, List.length_map, List.length_take,
    List.length_replicate]
  omega

/-- Slots that the arguments do not reach stay empty. -/
theorem positionalSlots_add {n : Nat} {vs : List Value} (h : vs.length ≤ n) (more : Nat) :
    positionalSlots (n + more) vs = positionalSlots n vs ++ List.replicate more none := by
  have empty : n + more - vs.length = (n - vs.length) + more := by omega
  rw [positionalSlots, positionalSlots, List.take_of_length_le h,
    List.take_of_length_le (by omega), empty, List.replicate_add, List.append_assoc]

section names

variable {candidate expected : Signature} (fixedC : candidate.isVariadic = false)
  (fixedE : expected.isVariadic = false) {more : List String}
  (names : candidate.params.map (·.name) = expected.params.map (·.name) ++ more)

include names

/-- A name is found in the same place. -/
theorem findIdx?_of_names {name : String} {i : Nat}
    (h : expected.params.findIdx? (·.name == name) = some i) :
    candidate.params.findIdx? (·.name == name) = some i := by
  have byName : ∀ ps : List Param,
      ps.findIdx? (·.name == name) = (ps.map (·.name)).findIdx? (· == name) := fun ps => by
    rw [List.findIdx?_map]
    rfl
  rw [byName] at h ⊢
  rw [names, List.findIdx?_append, h]
  rfl

include fixedC fixedE

/-- A keyword that one signature takes goes to the same slot of another one that begins with the same
names. -/
theorem assignKeyword_of_names {a b : Assignment} {keyword : String × Value}
    (len : a.slots.length = expected.params.length) (h : expected.assignKeyword a keyword = .ok b)
    (rest : List (Option Value)) :
    candidate.assignKeyword ⟨a.slots ++ rest, a.surplus⟩ keyword = .ok ⟨b.slots ++ rest, b.surplus⟩ ∧
      b.slots.length = expected.params.length := by
  obtain ⟨name, v⟩ := keyword
  simp only [assignKeyword, fixed_eq_params fixedE] at h
  split at h
  · rename_i i found
    have inside : i < a.slots.length := len ▸ (List.findIdx?_eq_some_iff_getElem.1 found).1
    split at h
    · cases h
    · rename_i free
      cases h
      simp only [assignKeyword, fixed_eq_params fixedC, findIdx?_of_names names found]
      rw [List.getElem?_append_left inside, List.set_append_left _ _ inside]
      refine ⟨?_, by rw [List.length_set, len]⟩
      split
      · rename_i taken
        exact absurd taken (free _)
      · rfl
  · rw [collects_varKeyword fixedE] at h
    cases h

/-- Keywords that one signature takes are taken by another one that begins with the same names, and fill
the same slots. -/
theorem foldlM_assignKeyword {keywords : List (String × Value)} {a b : Assignment}
    (len : a.slots.length = expected.params.length)
    (h : keywords.foldlM expected.assignKeyword a = .ok b) (rest : List (Option Value)) :
    keywords.foldlM candidate.assignKeyword ⟨a.slots ++ rest, a.surplus⟩ =
      .ok ⟨b.slots ++ rest, b.surplus⟩ ∧ b.slots.length = expected.params.length := by
  induction keywords generalizing a with
  | nil =>
    cases h
    exact ⟨rfl, len⟩
  | cons keyword keywords ih =>
    rw [List.foldlM_cons] at h
    obtain ⟨a', step, h⟩ := exists_ok_of_bind h
    obtain ⟨step', len'⟩ := assignKeyword_of_names fixedC fixedE names len step rest
    rw [List.foldlM_cons, step']
    exact ih len' h

end names

/-! ## Values of parameters -/

section collectValues

variable (rest : List Value) (surplus : List (String × Value))

/-- The value of a parameter, unless neither an argument nor a default value is there for it. -/
def valueOf? (q : Param) (slot : Option Value) : Option Value :=
  match q.kind with
  | .positional => slot <|> q.default
  | .varPositional => some (.tuple rest)
  | .varKeyword => some (keywordDict surplus)

variable {rest surplus} {q : Param} {ps : List Param} {slots : List (Option Value)}

/-- The first parameter gets its value or is missing, and the others follow. -/
theorem collectValues_cons (collecting : q.isVariadic → slots = []) :
    collectValues rest surplus (q :: ps) slots =
      match valueOf? rest surplus q slots.head?.join with
      | some v => (v :: ·) <$> collectValues rest surplus ps slots.tail
      | none => .error (.missingArgument q.name) := by
  rw [collectValues]
  cases kind : q.kind with
  | positional =>
    simp only [valueOf?, kind]
    cases slots.head?.join <|> q.default with
    | none => rfl
    | some v => exact bind_pure_comp _ _
  | varPositional | varKeyword =>
    have none : slots = [] := collecting (by simp [Param.isVariadic, kind])
    simp only [valueOf?, kind, none, List.tail_nil]
    exact bind_pure_comp _ _

/-- Where all slots are filled the values are what is in them. -/
theorem collectValues_map_some {vs : List Value} (positional : ∀ q ∈ ps, q.kind = .positional)
    (len : ps.length = vs.length) : collectValues rest surplus ps (vs.map some) = .ok vs := by
  induction ps generalizing vs with
  | nil =>
    cases List.length_eq_zero_iff.1 len.symm
    rw [collectValues]
  | cons q ps ih =>
    obtain ⟨kind, positional⟩ := List.forall_mem_cons.1 positional
    obtain ⟨v, vs, rfl⟩ := List.exists_cons_of_length_eq_add_one len.symm
    have value : valueOf? rest surplus q (some v) = some v := by simp [valueOf?, kind]
    rw [collectValues_cons (by simp [Param.isVariadic, kind]), List.map_cons, List.head?_cons,
      Option.join_some, value, List.tail_cons, ih positional (Nat.succ.inj len)]
    rfl

/-- Each parameter gets its value, or the first one without a value is missing. -/
theorem collectValues_cases
    (collecting : ∀ (i : Nat) q, ps[i]? = some q → q.isVariadic → slots.length ≤ i) :
    (∃ vs, collectValues rest surplus ps slots = .ok vs ∧ vs.length = ps.length ∧
      ∀ (i : Nat) q, ps[i]? = some q → valueOf? rest surplus q slots[i]?.join = vs[i]?) ∨
    ∃ (i : Nat) (q : Param), ps[i]? = some q ∧ valueOf? rest surplus q slots[i]?.join = none ∧
      (∀ j < i, ∀ r, ps[j]? = some r → (valueOf? rest surplus r slots[j]?.join).isSome) ∧
      collectValues rest surplus ps slots = .error (.missingArgument q.name) := by
  induction ps generalizing slots with
  | nil => exact .inl ⟨[], by rw [collectValues], rfl, nofun⟩
  | cons q ps ih =>
    have own : q.isVariadic → slots = [] := by
      intro variadic
      exact List.length_eq_zero_iff.1 (Nat.le_zero.1 (collecting 0 q rfl variadic))
    have others : ∀ (i : Nat) r, ps[i]? = some r → r.isVariadic → slots.tail.length ≤ i := by
      intro i r hr variadic
      rw [List.length_tail]
      exact Nat.sub_le_of_le_add (collecting (i + 1) r hr variadic)
    -- the later parameters see the slots one place further on
    have tail : ∀ i : Nat, slots.tail[i]?.join = slots[i + 1]?.join := fun i => by rw [List.getElem?_tail]
    rw [collectValues_cons own, List.head?_eq_getElem?]
    cases value : valueOf? rest surplus q slots[0]?.join with
    | none =>
      right
      exact ⟨0, q, rfl, value, fun j hj => absurd hj (Nat.not_lt_zero j), rfl⟩
    | some v =>
      rcases ih others with ⟨vs, collected, len, values⟩ | ⟨i, r, hr, unfilled, filled, missing⟩
      · left
        refine ⟨v :: vs, by rw [collected]; rfl, congrArg (· + 1) len, ?_⟩
        intro i r hr
        cases i with
        | zero =>
          cases hr
          exact value
        | succ i => rw [← tail, values i r hr, List.getElem?_cons_succ]
      · right
        refine ⟨i + 1, r, hr, by rw [← tail, unfilled], ?_, by rw [missing]; rfl⟩
        intro j hj r' hr'
        cases j with
        | zero =>
          cases hr'
          rw [value]
          rfl
        | succ j =>
          rw [← tail]
          exact filled j (Nat.lt_of_succ_lt_succ hj) r' hr'

/-- Neither an argument nor a default value is there for a parameter. -/
def Unfilled (q : Param × Option Value) : Prop := q.2 = none ∧ q.1.hasDefault = false

theorem unfilled_iff {slot : Option Value} (positional : q.kind = .positional) :
    Unfilled (q, slot) ↔ valueOf? rest surplus q slot = none := by
  cases slot <;> simp [Unfilled, valueOf?, positional, Param.hasDefault]

/-- Each fixed parameter gets a value, or one that nothing fills is missing. -/
theorem collectValues_fixed_cases (positional : ∀ q ∈ ps, q.kind = .positional)
    (len : slots.length = ps.length) :
    ((∃ vs, collectValues rest surplus ps slots = .ok vs) ∧ ∀ q ∈ ps.zip slots, ¬ Unfilled q) ∨
      ∃ q ∈ ps.zip slots, Unfilled q ∧
        collectValues rest surplus ps slots = .error (.missingArgument q.1.name) := by
  have noneCollects : ∀ (i : Nat) q, ps[i]? = some q → q.isVariadic → slots.length ≤ i := by
    intro i q hq variadic
    simp [Param.isVariadic, positional q (List.mem_of_getElem? hq)] at variadic
  rcases collectValues_cases noneCollects with
    ⟨vs, collected, sameLen, values⟩ | ⟨i, q, hq, empty, -, missing⟩
  · left
    refine ⟨⟨vs, collected⟩, ?_⟩
    rintro ⟨q, slot⟩ inZip unfilled
    obtain ⟨i, hi⟩ := List.mem_iff_getElem?.1 inZip
    obtain ⟨param, filled⟩ := List.getElem?_zip_eq_some.1 hi
    have value := values i q param
    rw [filled, Option.join_some, (unfilled_iff (positional q (List.mem_of_getElem? param))).1 unfilled]
      at value
    have inside := (List.getElem?_eq_some_iff.1 param).1
    exact absurd (List.getElem?_eq_none_iff.1 value.symm) (by omega)
  · right
    have inside : i < slots.length := len ▸ (List.getElem?_eq_some_iff.1 hq).1
    have slot : slots[i]? = some slots[i] := List.getElem?_eq_getElem inside
    rw [slot, Option.join_some] at empty
    exact ⟨(q, slots[i]), List.mem_of_getElem? (List.getElem?_zip_eq_some.2 ⟨hq, slot⟩),
      (unfilled_iff (positional q (List.mem_of_getElem? hq))).2 empty, missing⟩

theorem exists_collectValues_iff (positional : ∀ q ∈ ps, q.kind = .positional)
    (len : slots.length = ps.length) :
    (∃ vs, collectValues rest surplus ps slots = .ok vs) ↔ ∀ q ∈ ps.zip slots, ¬ Unfilled q := by
  rcases collectValues_fixed_cases positional len with ⟨collected, filled⟩ | ⟨q, hq, unfilled, missing⟩
  · exact iff_of_true collected filled
  · refine iff_of_false ?_ fun filled => filled q hq unfilled
    rintro ⟨vs, collected⟩
    cases missing.symm.trans collected

end collectValues

/-- Positional arguments alone bind if the parameters that they do not reach have default values. -/
theorem exists_bind_ofPositional_iff {s : Signature} (fixed : s.isVariadic = false) {vs : List Value}
    (reach : vs.length ≤ s.params.length) :
    (∃ bound, s.bind (.ofPositional vs) = .ok bound) ↔
      ∀ q ∈ s.params.drop vs.length, q.hasDefault := by
  rw [bind_of_fixed fixed, Args.ofPositional, if_neg (Nat.not_lt.2 reach)]
  show (∃ bound, collectValues _ _ s.params (positionalSlots s.params.length vs) = .ok bound) ↔ _
  rw [exists_collectValues_iff (fun q => kind_of_fixed fixed) (length_positionalSlots reach)]
  constructor
  · intro filled q hq
    obtain ⟨i, hi⟩ := List.mem_iff_getElem?.1 hq
    rw [List.getElem?_drop] at hi
    have inside := (List.getElem?_eq_some_iff.1 hi).1
    have slot : (positionalSlots s.params.length vs)[vs.length + i]? = some none := by
      rw [getElem?_positionalSlots, if_pos inside, List.getElem?_eq_none (Nat.le_add_right _ _)]
    by_contra required
    refine filled (q, none) (List.mem_of_getElem? (List.getElem?_zip_eq_some.2 ⟨hi, slot⟩)) ?_
    exact ⟨rfl, by simpa using required⟩
  · rintro defaults ⟨q, slot⟩ hq ⟨empty, required⟩
    obtain ⟨i, hi⟩ := List.mem_iff_getElem?.1 hq
    obtain ⟨param, filled⟩ := List.getElem?_zip_eq_some.1 hi
    rw [getElem?_positionalSlots, if_pos (List.getElem?_eq_some_iff.1 param).1] at filled
    have beyond : vs.length ≤ i := List.getElem?_eq_none_iff.1 ((Option.some.inj filled).trans empty)
    have := defaults q (List.mem_of_getElem? (i := i - vs.length)
      (by rw [List.getElem?_drop, Nat.add_sub_cancel' beyond, param]))
    rw [required] at this
    cases this

/-- As many positional arguments as there are parameters reach them as they are. -/
theorem bind_ofPositional_of_length {s : Signature} (fixed : s.isVariadic = false) {vs : List Value}
    (len : s.params.length = vs.length) : s.bind (.ofPositional vs) = .ok vs := by
  have slots : positionalSlots s.params.length vs = vs.map some := by
    rw [positionalSlots, List.take_of_length_le len.ge, len, Nat.sub_self, List.replicate_zero,
      List.append_nil]
  rw [bind_of_fixed fixed, Args.ofPositional, if_neg (Nat.not_lt.2 len.ge), slots]
  exact collectValues_map_some (fun q => kind_of_fixed fixed) len

end Signature

end TypeContracts
