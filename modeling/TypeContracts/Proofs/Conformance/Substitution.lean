import TypeContracts.Proofs.Call.Binding
import TypeContracts.Proofs.Conformance.Rules

/-!
Calling what conforms. A call that binds to the expected signature binds to a conforming one as well:
positional and keyword arguments fill the same parameters, and the ones left over have default values.
The check does not compare default values, though, so a parameter that only the expected signature
gives one may be missing. Main statement: `bind_substitutable_iff`.
-/

namespace TypeContracts

namespace Conformance

open Signature (positionalSlots Unfilled)

variable {w : World} {p : Probe Id} {candidate expected : Signature}

section conforms

variable (conforms : (signatureConforms w p candidate expected).run)

include conforms

/-- The parameters of a conforming signature that have counterparts in the expected one. -/
theorem zip_take_of_conforms :
    (candidate.params.take expected.params.length).zip expected.params =
      candidate.params.zip expected.params := by
  obtain ⟨-, long, -⟩ := (signatureConforms_iff w p).1 conforms
  conv_rhs => rw [List.zip_eq_zip_take_min, min_eq_right long, List.take_length]

/-- The names of a conforming signature begin with those of the expected one. -/
theorem names_of_conforms :
    candidate.params.map (·.name) =
      expected.params.map (·.name) ++
        (candidate.params.drop expected.params.length).map (·.name) := by
  obtain ⟨-, long, -, params, -⟩ := (signatureConforms_iff w p).1 conforms
  have aligned : List.Forall₂ (fun c e => c.name = e.name)
      (candidate.params.take expected.params.length) expected.params := by
    rw [List.forall₂_iff_zip]
    refine ⟨List.length_take_of_le long, fun {c e} h => ?_⟩
    rw [zip_take_of_conforms conforms] at h
    exact ((paramConforms_iff w p).1 (params _ h)).1
  have same : (candidate.params.take expected.params.length).map (·.name) =
      expected.params.map (·.name) := by
    rw [← List.forall₂_eq_eq_eq, List.forall₂_map_left_iff, List.forall₂_map_right_iff]
    exact aligned
  rw [← same, ← List.map_append, List.take_append_drop]

/-- A parameter of the candidate that nothing fills has a counterpart which its default value fills. -/
theorem default_of_unfilled {slots : List (Option Value)} (len : slots.length = expected.params.length)
    (filled : ∀ q ∈ expected.params.zip slots, ¬ Unfilled q) {q : Param × Option Value}
    (hq : q ∈ candidate.params.zip
      (slots ++ List.replicate (candidate.params.length - expected.params.length) none))
    (unfilled : Unfilled q) :
    ∃ e, (q.1, e) ∈ candidate.params.zip expected.params ∧ e.hasDefault := by
  obtain ⟨-, long, extra, -⟩ := (signatureConforms_iff w p).1 conforms
  obtain ⟨c, slot⟩ := q
  rw [← List.take_append_drop expected.params.length candidate.params,
    List.zip_append (by rw [List.length_take_of_le long, len])] at hq
  rcases List.mem_append.1 hq with hq | hq
  · have aligned : List.Forall₂ (fun e slot => (e, slot) ∈ expected.params.zip slots)
        expected.params slots := List.forall₂_iff_zip.2 ⟨len.symm, fun {_ _} h => h⟩
    obtain ⟨e, he, hslot⟩ := exists_mem_zip aligned hq
    rw [zip_take_of_conforms conforms] at he
    refine ⟨e, he, ?_⟩
    by_contra required
    exact filled _ hslot ⟨unfilled.1, by simpa using required⟩
  · -- the parameters left over have default values
    have := extra c (List.of_mem_zip hq).1
    rw [unfilled.2] at this
    cases this

/-- A call that binds to the expected signature binds to the candidate too, or misses an argument for
a parameter that only the expected signature gives a default value. -/
theorem bind_or_missing (fixed : expected.isVariadic = false) {args : Args} {bound : List Value}
    (h : expected.bind args = .ok bound) :
    (∃ vs, candidate.bind args = .ok vs) ∨
      ∃ q ∈ candidate.params.zip expected.params, q.1.hasDefault = false ∧ q.2.hasDefault ∧
        candidate.bind args = .error (.missingArgument q.1.name) := by
  obtain ⟨fixedC, long, -⟩ := (signatureConforms_iff w p).1 conforms
  rw [Signature.bind_of_fixed fixed] at h
  split at h
  · cases h
  rename_i enough
  have reach : args.positional.length ≤ expected.params.length := Nat.not_lt.1 enough
  obtain ⟨a, assigned, collected⟩ := exists_ok_of_bind h
  -- the same slots are filled for the candidate, and those of the parameters left over stay empty
  obtain ⟨assignedC, len⟩ := Signature.foldlM_assignKeyword fixedC fixed (names_of_conforms conforms)
    (Signature.length_positionalSlots reach) assigned
    (List.replicate (candidate.params.length - expected.params.length) none)
  have slots : positionalSlots candidate.params.length args.positional =
      positionalSlots expected.params.length args.positional ++
        List.replicate (candidate.params.length - expected.params.length) none := by
    rw [← Signature.positionalSlots_add reach, Nat.add_sub_cancel' long]
  have filled : ∀ q ∈ expected.params.zip a.slots, ¬ Unfilled q :=
    (Signature.exists_collectValues_iff (fun q => Signature.kind_of_fixed fixed) len).1
      ⟨bound, collected⟩
  have lenC : (a.slots ++
      List.replicate (candidate.params.length - expected.params.length) none).length =
      candidate.params.length := by
    rw [List.length_append, List.length_replicate, len, Nat.add_sub_cancel' long]
  rw [Signature.bind_of_fixed fixedC, if_neg (Nat.not_lt.2 (reach.trans long)), slots, assignedC]
  show (∃ vs, Signature.collectValues _ _ _ _ = .ok vs) ∨ _
  rcases Signature.collectValues_fixed_cases (fun q => Signature.kind_of_fixed fixedC) lenC with
    ⟨collected, -⟩ | ⟨q, hq, unfilled, missing⟩
  · exact .inl collected
  · obtain ⟨e, he, default⟩ := default_of_unfilled conforms len filled hq unfilled
    exact .inr ⟨(q.1, e), he, unfilled.2, default, missing⟩

/-- A parameter that only the expected signature gives a default value is missing in the call that
passes an argument for each parameter before it and for no other. -/
theorem not_bind_of_default (fixed : expected.isVariadic = false)
    (defaults : expected.params.Pairwise Signature.DefaultsLast) {q : Param × Param}
    (hq : q ∈ candidate.params.zip expected.params) (required : q.1.hasDefault = false)
    (default : q.2.hasDefault) :
    ∃ args, (∃ vs, expected.bind args = .ok vs) ∧ ¬ ∃ vs, candidate.bind args = .ok vs := by
  obtain ⟨fixedC, -⟩ := (signatureConforms_iff w p).1 conforms
  obtain ⟨i, hi⟩ := List.mem_iff_getElem?.1 hq
  obtain ⟨hc, he⟩ := List.getElem?_zip_eq_some.1 hi
  obtain ⟨insideC, getC⟩ := List.getElem?_eq_some_iff.1 hc
  obtain ⟨insideE, getE⟩ := List.getElem?_eq_some_iff.1 he
  have len : (List.replicate i Value.null).length = i := List.length_replicate
  refine ⟨.ofPositional (List.replicate i .null), ?_, ?_⟩
  · rw [Signature.exists_bind_ofPositional_iff fixed (by omega), len,
      List.drop_eq_getElem_cons insideE, getE, List.forall_mem_cons]
    refine ⟨default, fun later hlater => ?_⟩
    -- in the expected signature every parameter after this one has a default value too
    have ordered : (expected.params.drop i).Pairwise Signature.DefaultsLast :=
      defaults.sublist (List.drop_sublist i _)
    rw [List.drop_eq_getElem_cons insideE, getE] at ordered
    refine (List.pairwise_cons.1 ordered).1 later hlater ?_ ?_
    · exact Signature.kind_of_fixed fixed (List.mem_of_mem_drop hlater)
    · have kind := Signature.kind_of_fixed fixed (List.mem_of_getElem? he)
      rw [Param.isOptional, kind, default]
      rfl
  · rw [Signature.exists_bind_ofPositional_iff fixedC (by omega), len,
      List.drop_eq_getElem_cons insideC, getC, List.forall_mem_cons]
    rintro ⟨own, -⟩
    rw [required] at own
    cases own

end conforms

/-- A call that binds to the expected signature binds to a conforming one, or misses an argument for a
parameter that only the expected signature gives a default value. So every such call binds if and only
if the conforming signature has default values wherever the expected one does. -/
theorem bind_substitutable_iff (w : World) (p : Probe Id) {candidate expected : Signature}
    {params : List Param} {returns : Option TypeSpec}
    (built : Signature.build params returns = .ok expected) (fixed : expected.isVariadic = false)
    (conforms : (signatureConforms w p candidate expected).run) :
    (∀ args bound, expected.bind args = .ok bound → (∃ vs, candidate.bind args = .ok vs) ∨
      ∃ q ∈ candidate.params.zip expected.params, q.1.hasDefault = false ∧ q.2.hasDefault ∧
        candidate.bind args = .error (.missingArgument q.1.name)) ∧
    ((∀ args, (∃ bound, expected.bind args = .ok bound) → ∃ vs, candidate.bind args = .ok vs) ↔
      ∀ q ∈ candidate.params.zip expected.params, q.2.hasDefault → q.1.hasDefault) := by
  refine ⟨fun args bound h => bind_or_missing conforms fixed h, ?_, ?_⟩
  · intro substitutable q hq default
    by_contra required
    obtain ⟨args, binds, fails⟩ := not_bind_of_default conforms fixed
      ((Signature.pairwise_of_build built).imp (·.defaultsLast)) hq (by simpa using required) default
    exact fails (substitutable args binds)
  · rintro defaults args ⟨bound, h⟩
    rcases bind_or_missing conforms fixed h with binds | ⟨q, hq, required, default, -⟩
    · exact binds
    · have := defaults q hq default
      rw [required] at this
      cases this

/-- A signature with another default value and one more parameter takes the calls of the expected one,
here with both arguments given by keyword or the second one left out. -/
theorem scaled_length_bind_substitutable :
    let p : Probe Id := ⟨fun _ _ => false, fun _ => ()⟩
    let length : Param := ⟨"length", .positional, none, none⟩
    let expected : Signature := ⟨[length, ⟨"unit", .positional, none, some (.str "m")⟩], none⟩
    let candidate : Signature :=
      ⟨[length, ⟨"unit", .positional, none, some (.str "cm")⟩,
        ⟨"scale", .positional, none, some (.int 1)⟩], none⟩
    Signature.build expected.params expected.returns = .ok expected ∧
      expected.isVariadic = false ∧ (signatureConforms .initial p candidate expected).run ∧
      (∃ vs, candidate.bind ⟨[], [("unit", .str "km"), ("length", .int 3)]⟩ = .ok vs) ∧
      ∃ vs, candidate.bind ⟨[.int 3], []⟩ = .ok vs := by
  intro p length expected candidate
  have built : Signature.build expected.params expected.returns = .ok expected := rfl
  have conforms : (signatureConforms .initial p candidate expected).run := by
    simp [signatureConforms_iff, paramConforms_iff, annotationConforms_iff, candidate, expected,
      length, Signature.isVariadic, Param.isVariadic, Param.hasDefault]
  have defaults : ∀ q ∈ candidate.params.zip expected.params, q.2.hasDefault → q.1.hasDefault := by
    simp [candidate, expected, Param.hasDefault]
  have substitutable := (bind_substitutable_iff .initial p built rfl conforms).2.2 defaults
  refine ⟨built, rfl, conforms, substitutable _ ⟨_, rfl⟩, substitutable _ ⟨_, rfl⟩⟩

/-- A parameter without a default value stands in for one with a default value, and a call that leaves
it out does not bind. -/
theorem not_bind_substitutable :
    let p : Probe Id := ⟨fun _ _ => false, fun _ => ()⟩
    let candidate : Signature := ⟨[⟨"a", .positional, none, none⟩], none⟩
    let expected : Signature := ⟨[⟨"a", .positional, none, some (.int 0)⟩], none⟩
    Signature.build candidate.params candidate.returns = .ok candidate ∧
      Signature.build expected.params expected.returns = .ok expected ∧
      expected.isVariadic = false ∧ (signatureConforms .initial p candidate expected).run ∧
      expected.bind (.ofPositional []) = .ok [.int 0] ∧
      candidate.bind (.ofPositional []) = .error (.missingArgument "a") := by
  intro p candidate expected
  refine ⟨rfl, rfl, rfl, ?_, rfl, rfl⟩
  simp [signatureConforms_iff, paramConforms_iff, annotationConforms_iff, candidate, expected,
    Signature.isVariadic, Param.isVariadic]

end Conformance

end TypeContracts
