import Mathlib.Data.List.Pairwise
import TypeContracts.Spec.Signature

/-!
Which parameter lists are signatures. The builder reads the list once and looks at each parameter against
those before it; what it accepts is a grammar: required parameters, then those with defaults, then at most
one for surplus positional arguments and at most one for surplus keywords, all under different names. Being
of that form is a matter of pairs, so the first parameter with a fault is the one that the parameters before
it, which are of that form, cannot be continued with.
Main statements: `Signature.pairwise_of_build`, `Signature.eq_fixed_append`,
`Signature.inOrder_iff_pairwise`, `Signature.build_decides_grammar`.
-/

namespace TypeContracts

namespace Signature

/-! ## The order of parameters -/

/-- No required parameter comes after one that may be left out. -/
def DefaultsLast (p q : Param) : Prop := q.kind = .positional → p.isOptional → q.hasDefault

/-- How the kind of a parameter stands to that of a later one: only a parameter for surplus keywords comes
after a collecting one, and no two of these are for keywords. -/
structure Placed (p q : Param) : Prop where
  fixedFirst : q.kind ≠ .varKeyword → p.isVariadic = false
  keywordsLast : q.kind = .varKeyword → p.kind ≠ .varKeyword

/-- How a parameter stands to a later one: they differ in name, only a parameter for surplus keywords
comes after a collecting one, no two of these are for keywords, and defaults come last. -/
structure Precedes (p q : Param) : Prop where
  names : p.name ≠ q.name
  fixedFirst : q.kind ≠ .varKeyword → p.isVariadic = false
  keywordsLast : q.kind = .varKeyword → p.kind ≠ .varKeyword
  defaultsLast : DefaultsLast p q

theorem precedes_iff {p q : Param} :
    Precedes p q ↔ p.name ≠ q.name ∧ Placed p q ∧ DefaultsLast p q := by
  constructor
  · rintro ⟨names, fixedFirst, keywordsLast, defaultsLast⟩
    exact ⟨names, ⟨fixedFirst, keywordsLast⟩, defaultsLast⟩
  · rintro ⟨names, ⟨fixedFirst, keywordsLast⟩, defaultsLast⟩
    exact ⟨names, fixedFirst, keywordsLast, defaultsLast⟩

section fault

variable {before : List Param} {q : Param}

theorem repeated_iff : before.any (·.name == q.name) = true ↔ q.name ∈ before.map (·.name) := by
  simp

theorem misplacedAfter_eq_false_iff : misplacedAfter before q = false ↔ ∀ p ∈ before, Placed p q := by
  cases kind : q.kind with
  | varKeyword =>
    simp only [misplacedAfter, kind, List.any_eq_false, beq_iff_eq]
    refine forall₂_congr fun p hp => ?_
    exact ⟨fun other => ⟨fun h => absurd kind h, fun _ => other⟩, fun placed => placed.keywordsLast kind⟩
  | positional | varPositional =>
    simp only [misplacedAfter, kind, List.any_eq_false, Bool.not_eq_true]
    refine forall₂_congr fun p hp => ?_
    exact ⟨fun fixed => ⟨fun _ => fixed, fun h => by simp [kind] at h⟩,
      fun placed => placed.fixedFirst (by simp [kind])⟩

/-- A required parameter after one that may be left out. -/
theorem defaultless_iff :
    (q.kind = .positional ∧ !q.hasDefault ∧ before.any (·.isOptional)) ↔
      ¬ ∀ p ∈ before, DefaultsLast p q := by
  simp only [DefaultsLast, List.any_eq_true, Bool.not_eq_true', not_forall, Bool.not_eq_true]
  grind

/-- A parameter without a fault stands as it should to all parameters before it. -/
theorem fault?_eq_none_iff : fault? before q = none ↔ ∀ p ∈ before, Precedes p q := by
  simp only [precedes_iff, forall_and, fault?]
  split
  case isTrue repeated =>
    refine iff_of_false nofun fun ⟨names, _⟩ => ?_
    obtain ⟨p, hp, same⟩ := List.mem_map.1 (repeated_iff.1 repeated)
    exact names p hp same
  case isFalse fresh =>
    have names : ∀ p ∈ before, p.name ≠ q.name := fun p hp same =>
      fresh (repeated_iff.2 (List.mem_map.2 ⟨p, hp, same⟩))
    split
    case isTrue misplaced =>
      refine iff_of_false nofun fun ⟨_, placed, _⟩ => ?_
      rw [misplacedAfter_eq_false_iff.2 placed] at misplaced
      cases misplaced
    case isFalse placed =>
      have placed := misplacedAfter_eq_false_iff.1 (Bool.eq_false_iff.2 placed)
      split
      case isTrue defaultless =>
        exact iff_of_false nofun fun ⟨_, _, last⟩ => defaultless_iff.1 defaultless last
      case isFalse ordered =>
        exact iff_of_true rfl ⟨names, placed, not_not.1 (mt defaultless_iff.2 ordered)⟩

end fault

/-- While parameters are read, each is looked at against all of those before it. -/
theorem firstFault?_eq_none_iff {before ps : List Param} :
    firstFault? before ps = none ↔ (∀ p ∈ before, ∀ q ∈ ps, Precedes p q) ∧ ps.Pairwise Precedes := by
  induction ps generalizing before with
  | nil => exact iff_of_true rfl ⟨fun _ _ _ hq => absurd hq List.not_mem_nil, .nil⟩
  | cons q rest ih =>
    have reads : firstFault? before (q :: rest) = none ↔
        fault? before q = none ∧ firstFault? (before ++ [q]) rest = none := by
      rw [firstFault?]
      cases fault? before q <;> simp
    rw [reads, fault?_eq_none_iff, ih, List.pairwise_cons]
    simp only [List.mem_append, List.mem_singleton, List.forall_mem_cons, or_imp, forall_and,
      forall_eq, and_assoc]

/-- The first parameter with a fault follows parameters that have none. -/
theorem firstFault?_eq_some_iff {before ps : List Param} {invalid : InvalidSpec} :
    firstFault? before ps = some invalid ↔ ∃ read p rest, ps = read ++ p :: rest ∧
      firstFault? before read = none ∧ fault? (before ++ read) p = some invalid := by
  induction ps generalizing before with
  | nil => exact iff_of_false nofun fun ⟨read, p, rest, split, _⟩ => by simp at split
  | cons q ps ih =>
    rw [firstFault?]
    cases own : fault? before q with
    | some invalid' =>
      constructor
      · intro same
        exact ⟨[], q, ps, rfl, rfl, by rw [List.append_nil, own]; exact same⟩
      · rintro ⟨read, p, rest, split, faultless, faulty⟩
        cases read with
        | nil =>
          cases split
          rwa [List.append_nil, own] at faulty
        | cons r read =>
          cases split
          rw [firstFault?, own] at faultless
          cases faultless
    | none =>
      refine ih.trans ⟨?_, ?_⟩
      · rintro ⟨read, p, rest, rfl, faultless, faulty⟩
        refine ⟨q :: read, p, rest, rfl, by rw [firstFault?, own]; exact faultless, ?_⟩
        rwa [List.append_assoc] at faulty
      · rintro ⟨read, p, rest, split, faultless, faulty⟩
        cases read with
        | nil =>
          cases split
          rw [List.append_nil, own] at faulty
          cases faulty
        | cons r read =>
          cases split
          rw [firstFault?, own] at faultless
          exact ⟨read, p, rest, rfl, faultless, by rwa [List.append_assoc]⟩

/-- In a signature each parameter stands as it should to every later one. -/
theorem pairwise_of_build {params : List Param} {returns : Option TypeSpec} {s : Signature}
    (h : build params returns = .ok s) : s.params.Pairwise Precedes := by
  unfold build at h
  split at h
  · cases h
  · rename_i faultless
    cases h
    exact (firstFault?_eq_none_iff.1 faultless).2

/-- Parameters in order are the fixed ones and then the collecting ones. -/
theorem eq_fixed_append {ps : List Param} (ordered : ps.Pairwise Precedes) :
    ps = ps.filter (!·.isVariadic) ++ ps.filter (·.isVariadic) := by
  induction ps with
  | nil => rfl
  | cons p ps ih =>
    obtain ⟨first, rest⟩ := List.pairwise_cons.1 ordered
    by_cases collecting : p.isVariadic
    · -- only a parameter for surplus keywords can follow
      have variadic : ∀ q ∈ ps, q.isVariadic := by
        intro q hq
        by_contra fixed
        have kind : q.kind ≠ .varKeyword := by
          intro kind
          simp [Param.isVariadic, kind] at fixed
        rw [(first q hq).fixedFirst kind] at collecting
        cases collecting
      have none : ps.filter (!·.isVariadic) = [] := by simpa using variadic
      have all : ps.filter (·.isVariadic) = ps := List.filter_eq_self.2 variadic
      simp [collecting, none, all]
    · simpa [collecting] using ih rest

/-! ## The grammar -/

/-- Parameters without default, then ones with default, then at most one for surplus positional arguments,
then at most one for surplus keywords. -/
def InOrder (ps : List Param) : Prop :=
  ∃ (required optional : List Param) (args kwargs : Option Param),
    ps = required ++ optional ++ args.toList ++ kwargs.toList ∧
      (∀ p ∈ required, p.kind = .positional ∧ p.hasDefault = false) ∧
      (∀ p ∈ optional, p.kind = .positional ∧ p.hasDefault = true) ∧
      (∀ p ∈ args, p.kind = .varPositional) ∧ ∀ p ∈ kwargs, p.kind = .varKeyword

/-- The form of a signature: names that differ, and parameters in order. -/
structure Grammatical (ps : List Param) : Prop where
  names : (ps.map (·.name)).Nodup
  order : InOrder ps

/-- What is wrong with `p` where the parameters `before` are of the form of a signature and `p` cannot come
next: its name was there before, or else no parameter of its kind can come next, or else one can but `p`
lacks a default. -/
inductive Objection (before : List Param) (p : Param) : InvalidSpec → Prop
  | repeated (name : p.name ∈ before.map (·.name)) : Objection before p (.duplicateParameter p.name)
  | misplaced (name : p.name ∉ before.map (·.name))
      (kind : ∀ q : Param, q.kind = p.kind → ¬ InOrder (before ++ [q])) :
      Objection before p (.misplacedVariadic p.name)
  | defaultless (name : p.name ∉ before.map (·.name))
      (kind : ∃ q : Param, q.kind = p.kind ∧ InOrder (before ++ [q]))
      (order : ¬ InOrder (before ++ [p])) : Objection before p (.nonDefaultAfterDefault p.name)

/-- How the kinds and the defaults of two parameters in order stand to each other. -/
def Follows (p q : Param) : Prop := Placed p q ∧ DefaultsLast p q

section Follows

variable {p q : Param}

/-- Anything can come after a parameter without default. -/
theorem follows_of_required (kind : p.kind = .positional) (required : p.hasDefault = false) :
    Follows p q := by
  refine ⟨⟨fun _ => by simp [Param.isVariadic, kind], fun _ => by simp [kind]⟩, fun _ optional => ?_⟩
  rw [Param.isOptional, required, Bool.and_false] at optional
  cases optional

/-- After a parameter with default comes no parameter without. -/
theorem follows_of_optional (kind : p.kind = .positional) (default : q.kind = .positional → q.hasDefault) :
    Follows p q :=
  ⟨⟨fun _ => by simp [Param.isVariadic, kind], fun _ => by simp [kind]⟩, fun kind _ => default kind⟩

theorem follows_of_varPositional (kind : p.kind = .varPositional) (last : q.kind = .varKeyword) :
    Follows p q :=
  ⟨⟨fun other => absurd last other, fun _ => by simp [kind]⟩, fun other => by simp [last] at other⟩

theorem hasDefault_of_follows (follows : Follows p q) (kind : p.kind = .positional)
    (default : p.hasDefault = true) (positional : q.kind = .positional) : q.hasDefault = true :=
  follows.2 positional (by simp [Param.isOptional, kind, default])

theorem varKeyword_of_follows (follows : Follows p q) (kind : p.kind = .varPositional) :
    q.kind = .varKeyword := by
  by_contra other
  have fixed := follows.1.fixedFirst other
  simp [Param.isVariadic, kind] at fixed

theorem not_follows_varKeyword (kind : p.kind = .varKeyword) : ¬ Follows p q := by
  intro follows
  by_cases last : q.kind = .varKeyword
  · exact follows.1.keywordsLast last kind
  · have fixed := follows.1.fixedFirst last
    simp [Param.isVariadic, kind] at fixed

end Follows

theorem pairwise_of_inOrder {ps : List Param} (order : InOrder ps) : ps.Pairwise Follows := by
  obtain ⟨required, optional, args, kwargs, rfl, hrequired, hoptional, hargs, hkwargs⟩ := order
  simp only [List.pairwise_append, List.mem_append, Option.mem_toList]
  refine ⟨⟨⟨?required, ?optional, ?toOptional⟩, Option.pairwise_toList, ?toArgs⟩,
    Option.pairwise_toList, ?toKwargs⟩
  case required =>
    exact List.pairwise_of_forall_mem_list fun p hp _ _ =>
      follows_of_required (hrequired p hp).1 (hrequired p hp).2
  case optional =>
    exact List.pairwise_of_forall_mem_list fun p hp q hq =>
      follows_of_optional (hoptional p hp).1 fun _ => (hoptional q hq).2
  case toOptional =>
    exact fun p hp _ _ => follows_of_required (hrequired p hp).1 (hrequired p hp).2
  case toArgs =>
    rintro p (hp | hp) q hq
    · exact follows_of_required (hrequired p hp).1 (hrequired p hp).2
    · exact follows_of_optional (hoptional p hp).1 fun kind => by simp [hargs q hq] at kind
  case toKwargs =>
    rintro p ((hp | hp) | hp) q hq
    · exact follows_of_required (hrequired p hp).1 (hrequired p hp).2
    · exact follows_of_optional (hoptional p hp).1 fun kind => by simp [hkwargs q hq] at kind
    · exact follows_of_varPositional (hargs p hp) (hkwargs q hq)

/-- A parameter that stands as it should to those in order after it begins the stretch of its kind. -/
theorem inOrder_cons {p : Param} {ps : List Param} (first : ∀ q ∈ ps, Follows p q) (order : InOrder ps) :
    InOrder (p :: ps) := by
  obtain ⟨required, optional, args, kwargs, rfl, hrequired, hoptional, hargs, hkwargs⟩ := order
  simp only [List.mem_append, Option.mem_toList] at first
  cases kind : p.kind with
  | positional =>
    cases default : p.hasDefault with
    | false =>
      exact ⟨p :: required, optional, args, kwargs, rfl,
        List.forall_mem_cons.2 ⟨⟨kind, default⟩, hrequired⟩, hoptional, hargs, hkwargs⟩
    | true =>
      have none : required = [] := List.eq_nil_iff_forall_not_mem.2 fun q hq => by
        have := hasDefault_of_follows (first q (.inl (.inl (.inl hq)))) kind default (hrequired q hq).1
        rw [(hrequired q hq).2] at this
        cases this
      subst none
      exact ⟨[], p :: optional, args, kwargs, rfl, nofun,
        List.forall_mem_cons.2 ⟨⟨kind, default⟩, hoptional⟩, hargs, hkwargs⟩
  | varPositional =>
    -- only a variadic for keywords may stand behind it
    have keyword := fun q hq => varKeyword_of_follows (first q hq) kind
    have noRequired : ∀ q, q ∉ required := fun q hq => by
      have := keyword q (.inl (.inl (.inl hq)))
      rw [(hrequired q hq).1] at this
      cases this
    have noOptional : ∀ q, q ∉ optional := fun q hq => by
      have := keyword q (.inl (.inl (.inr hq)))
      rw [(hoptional q hq).1] at this
      cases this
    have noArgs : ∀ q, q ∉ args := fun q hq => by
      have := keyword q (.inl (.inr hq))
      rw [hargs q hq] at this
      cases this
    rw [List.eq_nil_iff_forall_not_mem.2 noRequired, List.eq_nil_iff_forall_not_mem.2 noOptional,
      Option.eq_none_iff_forall_not_mem.2 noArgs]
    exact ⟨[], [], some p, kwargs, rfl, nofun, nofun, fun q hq => by cases hq; exact kind, hkwargs⟩
  | varKeyword =>
    have alone : ∀ q, ¬ (((q ∈ required ∨ q ∈ optional) ∨ q ∈ args) ∨ q ∈ kwargs) := fun q hq =>
      not_follows_varKeyword kind (first q hq)
    simp only [not_or, forall_and] at alone
    obtain ⟨⟨⟨noRequired, noOptional⟩, noArgs⟩, noKwargs⟩ := alone
    rw [List.eq_nil_iff_forall_not_mem.2 noRequired, List.eq_nil_iff_forall_not_mem.2 noOptional,
      Option.eq_none_iff_forall_not_mem.2 noArgs, Option.eq_none_iff_forall_not_mem.2 noKwargs]
    exact ⟨[], [], none, some p, rfl, nofun, nofun, nofun, fun q hq => by cases hq; exact kind⟩

/-- Parameters are in order if each stands as it should to every later one. -/
theorem inOrder_iff_pairwise {ps : List Param} : InOrder ps ↔ ps.Pairwise Follows := by
  refine ⟨pairwise_of_inOrder, fun pairwise => ?_⟩
  induction ps with
  | nil => exact ⟨[], [], none, none, rfl, nofun, nofun, nofun, nofun⟩
  | cons p ps ih =>
    obtain ⟨first, rest⟩ := List.pairwise_cons.1 pairwise
    exact inOrder_cons first (ih rest)

theorem grammatical_iff_pairwise {ps : List Param} : Grammatical ps ↔ ps.Pairwise Precedes := by
  have split : ps.Pairwise Precedes ↔ (ps.map (·.name)).Nodup ∧ ps.Pairwise Follows := by
    rw [List.Nodup, List.pairwise_map, ← List.pairwise_and_iff]
    exact List.Pairwise.iff fun _ _ => precedes_iff
  rw [split, ← inOrder_iff_pairwise]
  exact ⟨fun ⟨names, order⟩ => ⟨names, order⟩, fun ⟨names, order⟩ => ⟨names, order⟩⟩

theorem grammatical_iff_faultless {ps : List Param} : Grammatical ps ↔ firstFault? [] ps = none := by
  rw [grammatical_iff_pairwise, firstFault?_eq_none_iff]
  exact ⟨fun pairwise => ⟨nofun, pairwise⟩, fun ⟨_, pairwise⟩ => pairwise⟩

section next

variable {before : List Param} {p : Param} (grammatical : Grammatical before)

include grammatical

theorem inOrder_concat_iff {q : Param} : InOrder (before ++ [q]) ↔ ∀ r ∈ before, Follows r q := by
  rw [inOrder_iff_pairwise, List.pairwise_append]
  have := inOrder_iff_pairwise.1 grammatical.order
  simp [this]

theorem grammatical_concat_iff : Grammatical (before ++ [p]) ↔ fault? before p = none := by
  rw [grammatical_iff_pairwise, List.pairwise_append, fault?_eq_none_iff]
  have := grammatical_iff_pairwise.1 grammatical
  simp [this]

/-- A parameter is misplaced if its kind is: none of that kind could come next, with a default or without. -/
theorem misplacedAfter_iff :
    misplacedAfter before p = true ↔ ∀ q : Param, q.kind = p.kind → ¬ InOrder (before ++ [q]) := by
  constructor
  · intro misplaced q kind order
    have placed : ∀ r ∈ before, Placed r q := fun r hr => ((inOrder_concat_iff grammatical).1 order r hr).1
    rw [misplacedAfter, ← kind, ← misplacedAfter, misplacedAfter_eq_false_iff.2 placed] at misplaced
    cases misplaced
  · intro never
    by_contra placed
    have placed := misplacedAfter_eq_false_iff.1 (Bool.eq_false_iff.2 placed)
    -- with a default it could come next
    refine never { p with default := some .null } rfl ((inOrder_concat_iff grammatical).2 fun r hr => ?_)
    exact ⟨⟨(placed r hr).fixedFirst, (placed r hr).keywordsLast⟩, fun _ _ => rfl⟩

/-- The fault of a parameter is what is wrong with it as the next one. -/
theorem fault?_eq_some_iff {invalid : InvalidSpec} :
    fault? before p = some invalid ↔ Objection before p invalid := by
  constructor
  · -- a later check is reached only where the earlier ones have no objection
    intro faulty
    unfold fault? at faulty
    split at faulty
    case isTrue repeated =>
      cases faulty
      exact .repeated (repeated_iff.1 repeated)
    rename_i fresh
    have name := mt repeated_iff.2 fresh
    split at faulty
    case isTrue misplaced =>
      cases faulty
      exact .misplaced name ((misplacedAfter_iff grammatical).1 misplaced)
    rename_i placed
    split at faulty
    case isFalse => cases faulty
    case isTrue defaultless =>
      cases faulty
      refine .defaultless name ?_ fun order => ?_
      · have := mt (misplacedAfter_iff grammatical).2 placed
        simpa using this
      · exact defaultless_iff.1 defaultless fun r hr =>
          ((inOrder_concat_iff grammatical).1 order r hr).2
  · intro objection
    rw [fault?]
    cases objection with
    | repeated name => rw [if_pos (repeated_iff.2 name)]
    | misplaced name kind =>
      rw [if_neg (mt repeated_iff.1 name), if_pos ((misplacedAfter_iff grammatical).2 kind)]
    | defaultless name kind order =>
      have placed : ¬ misplacedAfter before p = true := by
        obtain ⟨q, same, fits⟩ := kind
        exact fun misplaced => (misplacedAfter_iff grammatical).1 misplaced q same fits
      have last : ¬ ∀ r ∈ before, DefaultsLast r p := fun last =>
        order ((inOrder_concat_iff grammatical).2 fun r hr =>
          ⟨misplacedAfter_eq_false_iff.1 (Bool.eq_false_iff.2 placed) r hr, last r hr⟩)
      rw [if_neg (mt repeated_iff.1 name), if_neg placed, if_pos (defaultless_iff.2 last)]

end next

/-- Building a signature parses its grammar. Parameters of the form of a signature become one as they are;
any others are refused for the first of them that those before it cannot be continued with. -/
theorem build_decides_grammar (params : List Param) (returns : Option TypeSpec) :
    (∀ s, build params returns = .ok s ↔ s = ⟨params, returns⟩ ∧ Grammatical params) ∧
      ∀ invalid, build params returns = .error invalid ↔
        ∃ before p after, params = before ++ p :: after ∧ Grammatical before ∧
          ¬ Grammatical (before ++ [p]) ∧ Objection before p invalid := by
  constructor
  · intro s
    rw [grammatical_iff_faultless, build]
    cases firstFault? [] params <;> grind
  · intro invalid
    have refused : build params returns = .error invalid ↔ firstFault? [] params = some invalid := by
      rw [build]
      cases firstFault? [] params <;> grind
    rw [refused, firstFault?_eq_some_iff]
    refine exists_congr fun before => exists_congr fun p => exists_congr fun after =>
      and_congr_right fun _ => ?_
    rw [← grammatical_iff_faultless]
    refine and_congr_right fun grammatical => ?_
    rw [List.nil_append, grammatical_concat_iff grammatical, ← fault?_eq_some_iff grammatical]
    refine (and_iff_right_of_imp fun faulty => ?_).symm
    rw [faulty]
    nofun

end Signature

end TypeContracts
