import TypeContracts.Proofs.Call.Settled

/-!
Registration of overloads. A set asks each member with as many parameters whether it is ambiguous with a new
function, and refuses the function for the first that is. So members that were registered in one world do
not compete there: of those that accept the arguments of a call at most one is as specific as all of them,
and it is found in whatever order they stand. This stays so as long as their signatures are settled.
Main statements: `OverloadSet.add_cases`, `OverloadSet.foldlM_add_still_iff`, `OverloadSet.register_perm`.
-/

namespace TypeContracts

/-- The host prints no record, and raises every error in its own way. -/
structure Host.Raises {ε : Type} (k : Host (Except ε)) (raise : Error → ε) : Prop where
  log : ∀ level target message, k.log level target message = .ok ()
  fail : ∀ {α : Type} (e : Error), (k.fail e : Except ε α) = .error (raise e)

theorem Host.raises_still (w : World) (p : Probe Id) : (still w p).Raises id :=
  ⟨fun _ _ _ => rfl, fun _ => rfl⟩

namespace OverloadSet

open Host (still)
open Conformance (annotationConforms)

/-! ## One registration -/

/-- A function as a member of an overload set, if it can be inspected and takes a fixed number of
arguments. -/
def overload? (f : Function) : Option Overload :=
  match f.signature with
  | some s => if s.isVariadic then none else some ⟨f, s⟩
  | none => none

theorem of_overload?_eq_some {f : Function} {o : Overload} (h : overload? f = some o) :
    o.function = f ∧ f.signature = some o.signature ∧ o.signature.isVariadic = false := by
  unfold overload? at h
  split at h
  · rename_i signature
    split at h
    · cases h
    · rename_i fixed
      cases h
      exact ⟨rfl, signature, (Bool.not_eq_true _).mp fixed⟩
  · cases h

/-- The signatures of the members with the given number of parameters. -/
def signatures (set : OverloadSet) (arity : Nat) : List Signature :=
  (set.ofArity arity).map (·.1.signature)

theorem mem_signatures_iff {set : OverloadSet} {n : Nat} {s : Signature} :
    s ∈ set.signatures n ↔ ∃ o ∈ set.overloads, o.signature.params.length = n ∧ o.signature = s := by
  simp [signatures, ofArity, and_assoc]

section add

variable {ε : Type}

/-- Why a function is refused where functions of the name with the given signatures are registered, by
number of parameters: for an error, or because it cannot be compared with one of them. -/
inductive Refusal (k : Host (Except ε)) (raise : Error → ε) (name : String)
    (registered : Nat → List Signature) (f : Function) : ε → Prop where
  | unsigned : f.signature = none →
      Refusal k raise name registered f (raise (.invalidSpec (.opaqueSignature f.name)))
  | variadic {s : Signature} {q : Param} : f.signature = some s →
      s.params.find? (·.isVariadic) = some q →
      Refusal k raise name registered f (raise (.invalidSpec (.variadicSignature q.name)))
  | ambiguous {s other : Signature} : f.signature = some s → s.isVariadic = false →
      other ∈ registered s.params.length → ambiguous k s other = .ok true →
      Refusal k raise name registered f (raise (.ambiguousFunction name))
  | gaveUp {s other : Signature} {e : ε} : f.signature = some s → s.isVariadic = false →
      other ∈ registered s.params.length → ambiguous k s other = .error e →
      Refusal k raise name registered f e

/-- The one overload was compared with the other, if they have as many parameters, and they are not
ambiguous. -/
def Clear (k : Host (Except ε)) (o other : Overload) : Prop :=
  o.signature.params.length = other.signature.params.length →
    ambiguous k o.signature other.signature = .ok false

variable {k : Host (Except ε)} {raise : Error → ε}

theorem Clear.symm {o other : Overload} (made : o.signature.WellMade) (made' : other.signature.WellMade)
    (clear : Clear k o other) : Clear k other o := by
  intro len
  exact ambiguous_swap (made.equalOption_comm made') (clear len.symm)

/-- A function that takes a fixed number of arguments is registered unless the search for an ambiguous
member finds one. -/
theorem add_eq (raises : k.Raises raise) {set : OverloadSet} {f : Function} {s : Signature}
    (signature : f.signature = some s) (fixed : s.isVariadic = false) :
    set.add k f =
      ((set.ofArity s.params.length).findM? fun other => ambiguous k s other.1.signature) >>= fun
      | some _ => .error (raise (.ambiguousFunction set.name))
      | none => .ok ⟨set.name, set.overloads ++ [⟨f, s⟩]⟩ := by
  unfold add
  rw [signature]
  dsimp only
  rw [Signature.requireFixedArity_of_fixed fixed]
  show (((set.ofArity s.params.length).findM? fun other =>
    ambiguous k s other.1.signature) >>= _) = _
  refine congrArg _ (funext fun other => ?_)
  cases other with
  | none => rfl
  | some other =>
    dsimp only
    rw [raises.log]
    exact raises.fail _

/-- A function is registered at the end of the set, clear of the other members, or it is refused. -/
theorem add_cases (raises : k.Raises raise) (set : OverloadSet) (f : Function) :
    (∃ o, overload? f = some o ∧ (∀ other ∈ set.overloads, Clear k o other) ∧
      set.add k f = .ok ⟨set.name, set.overloads ++ [o]⟩) ∨
    ∃ e, Refusal k raise set.name set.signatures f e ∧ set.add k f = .error e := by
  cases signature : f.signature with
  | none =>
    right
    refine ⟨_, .unsigned signature, ?_⟩
    rw [add, signature]
    exact raises.fail _
  | some s =>
    cases variadic : s.params.find? (·.isVariadic) with
    | some q =>
      right
      refine ⟨_, .variadic signature variadic, ?_⟩
      rw [add, signature]
      simp only [Signature.requireFixedArity, variadic, Except.mapError, Host.lift, raises.fail]
      rfl
    | none =>
      have fixed : s.isVariadic = false := by simpa [Signature.isVariadic] using variadic
      rw [add_eq raises signature fixed]
      -- the search ends at the first member that is ambiguous or cannot be compared
      rcases findM?_cases (fun other => ambiguous k s other.1.signature)
          (set.ofArity s.params.length) with
        ⟨searched, clear⟩ | ⟨other, hother, competing, searched⟩ | ⟨other, hother, e, failed, searched⟩
      · left
        refine ⟨⟨f, s⟩, by simp [overload?, signature, fixed], ?_, by rw [searched]; rfl⟩
        intro other hother len
        exact clear ⟨other, hother⟩ (by simpa [ofArity] using len.symm)
      · right
        exact ⟨_, .ambiguous signature fixed (List.mem_map.2 ⟨other, hother, rfl⟩) competing,
          by rw [searched]; rfl⟩
      · right
        exact ⟨_, .gaveUp signature fixed (List.mem_map.2 ⟨other, hother, rfl⟩) failed,
          by rw [searched]; rfl⟩

/-- A function that can be a member and is clear of the others is not refused. -/
theorem not_clear_of_refusal {set : OverloadSet} {f : Function} {e : ε}
    (refusal : Refusal k raise set.name set.signatures f e) {o : Overload}
    (accepted : overload? f = some o) :
    ¬ ∀ other ∈ set.overloads, Clear k o other := by
  obtain ⟨rfl, signed, fixed⟩ := of_overload?_eq_some accepted
  intro clear
  have compared : ∀ other ∈ set.signatures o.signature.params.length,
      ambiguous k o.signature other = .ok false := by
    intro other hother
    obtain ⟨member, hmember, arity, rfl⟩ := mem_signatures_iff.1 hother
    exact clear member hmember arity.symm
  cases refusal with
  | unsigned unsigned =>
    rw [signed] at unsigned
    cases unsigned
  | variadic signature variadic =>
    cases signed.symm.trans signature
    have none : ∀ q ∈ o.signature.params, q.isVariadic = false := by
      simpa [Signature.isVariadic] using fixed
    have found := List.find?_some variadic
    rw [none _ (List.mem_of_find?_eq_some variadic)] at found
    cases found
  | ambiguous signature _ hother competing =>
    cases signed.symm.trans signature
    rw [compared _ hother] at competing
    cases competing
  | gaveUp signature _ hother failed =>
    cases signed.symm.trans signature
    rw [compared _ hother] at failed
    cases failed

/-- Registration succeeds for a function that takes a fixed number of arguments and is clear of all members,
and for no other one. -/
theorem add_iff (raises : k.Raises raise) {set a : OverloadSet} {f : Function} :
    set.add k f = .ok a ↔
      ∃ o, overload? f = some o ∧ (∀ other ∈ set.overloads, Clear k o other) ∧
        a = ⟨set.name, set.overloads ++ [o]⟩ := by
  rcases add_cases raises set f with ⟨o, accepted, clear, added⟩ | ⟨e, refusal, refused⟩
  · rw [added]
    constructor
    · rintro ⟨⟩
      exact ⟨o, accepted, clear, rfl⟩
    · rintro ⟨o', accepted', -, rfl⟩
      cases accepted.symm.trans accepted'
      rfl
  · rw [refused]
    constructor
    · rintro ⟨⟩
    · rintro ⟨o, accepted, clear, -⟩
      exact absurd clear (not_clear_of_refusal refusal accepted)

end add

/-! ## Under a still host -/

variable {w : World} {p : Probe Id}

/-- Two overloads do not compete for arguments. -/
def Apart (w : World) (p : Probe Id) (o other : Overload) : Prop :=
  o.signature.params.length = other.signature.params.length →
    competes w p o.signature other.signature = false

theorem Apart.symm {o other : Overload} (h : Apart w p o other) : Apart w p other o := by
  intro len
  rw [competes_comm]
  exact h len.symm

/-- What does not compete is clear of each other. -/
theorem clear_still_iff {o other : Overload} (made : o.signature.WellMade)
    (made' : other.signature.WellMade) : Clear (still w p) o other ↔ Apart w p o other := by
  rw [Clear, Apart, ambiguous_still w p (made.equalOption_comm made'), Except.ok.injEq]

/-- Registration succeeds for a function that takes a fixed number of arguments and competes with no
member. -/
theorem add_still_iff {set a : OverloadSet} {f : Function}
    (made : ∀ s ∈ f.signature, s.WellMade) (madeSet : ∀ o ∈ set.overloads, o.signature.WellMade) :
    set.add (still w p) f = .ok a ↔
      ∃ o, overload? f = some o ∧ (∀ other ∈ set.overloads, Apart w p o other) ∧
        a = ⟨set.name, set.overloads ++ [o]⟩ := by
  rw [add_iff (Host.raises_still w p)]
  refine exists_congr fun o => and_congr_right fun accepted => and_congr_left fun _ => ?_
  have madeO : o.signature.WellMade := made _ (of_overload?_eq_some accepted).2.1
  exact forall₂_congr fun other hother => clear_still_iff madeO (madeSet other hother)

/-! ## Registrations -/

/-- Registers functions one after another, beginning with the empty set. -/
def register {m : Type → Type} [Monad m] (h : Host m) (name : String) (fs : List Function) :
    m OverloadSet :=
  fs.foldlM (fun set f => set.add h f) (empty name)

/-- Registering more functions keeps the members apart, and succeeds if they can be kept apart. -/
theorem foldlM_add_still_iff {fs : List Function} {set a : OverloadSet}
    (made : ∀ f ∈ fs, ∀ s ∈ f.signature, s.WellMade)
    (madeSet : ∀ o ∈ set.overloads, o.signature.WellMade)
    (apart : set.overloads.Pairwise (Apart w p)) :
    fs.foldlM (fun set f => set.add (still w p) f) set = .ok a ↔
      (∀ f ∈ fs, (overload? f).isSome) ∧
        (set.overloads ++ fs.filterMap overload?).Pairwise (Apart w p) ∧
        a = ⟨set.name, set.overloads ++ fs.filterMap overload?⟩ := by
  induction fs generalizing set with
  | nil =>
    obtain ⟨name, os⟩ := set
    simp only [List.foldlM_nil, List.filterMap_nil, List.append_nil, List.not_mem_nil, false_implies,
      implies_true, true_and, apart]
    exact ⟨fun h => by cases h; rfl, fun h => by rw [h]; rfl⟩
  | cons f fs ih =>
    obtain ⟨madeF, madeFs⟩ := List.forall_mem_cons.1 made
    rw [List.foldlM_cons, List.forall_mem_cons]
    -- if the first function does not join, then neither side holds
    by_cases free : ∃ o, overload? f = some o ∧ ∀ other ∈ set.overloads, Apart w p o other
    · obtain ⟨o, accepted, free⟩ := free
      have added := (add_still_iff madeF madeSet).2 ⟨o, accepted, free, rfl⟩
      have madeAll : ∀ other ∈ set.overloads ++ [o], other.signature.WellMade := by
        rw [List.forall_mem_append, List.forall_mem_singleton]
        exact ⟨madeSet, madeF _ (of_overload?_eq_some accepted).2.1⟩
      have apartAll : (set.overloads ++ [o]).Pairwise (Apart w p) := by
        rw [List.pairwise_append]
        refine ⟨apart, List.pairwise_singleton _ _, fun other hother q hq => ?_⟩
        cases List.mem_singleton.1 hq
        exact (free other hother).symm
      rw [added]
      refine (ih madeFs madeAll apartAll).trans ?_
      simp [accepted]
    · constructor
      · intro h
        obtain ⟨set', added, -⟩ := exists_ok_of_bind h
        obtain ⟨o, accepted, free', -⟩ := (add_still_iff madeF madeSet).1 added
        exact absurd ⟨o, accepted, free'⟩ free
      · rintro ⟨⟨accepted, -⟩, pairwise, -⟩
        obtain ⟨o, accepted⟩ := Option.isSome_iff_exists.1 accepted
        rw [List.filterMap_cons_some accepted] at pairwise
        refine absurd ⟨o, accepted, fun other hother => ?_⟩ free
        exact ((List.pairwise_append.1 pairwise).2.2 other hother o List.mem_cons_self).symm

/-- Registering functions from the empty set on succeeds if all of them can be members and none of them
compete. -/
theorem register_still_iff {name : String} {fs : List Function} {a : OverloadSet}
    (made : ∀ f ∈ fs, ∀ s ∈ f.signature, s.WellMade) :
    register (still w p) name fs = .ok a ↔
      (∀ f ∈ fs, (overload? f).isSome) ∧ (fs.filterMap overload?).Pairwise (Apart w p) ∧
        a = ⟨name, fs.filterMap overload?⟩ :=
  foldlM_add_still_iff made (fun _ ho => absurd ho List.not_mem_nil) .nil

/-! ## Order of registration -/

/-- An overload accepts the arguments. -/
def Suits (h : Host (Except Error)) (args : List Value) (o : Overload) : Prop :=
  o.signature.params.length = args.length ∧ applicable h o.signature args = .ok true

/-- An overload accepts the arguments and is at least as specific as each member that does. -/
def Leads (h : Host (Except Error)) (set : OverloadSet) (args : List Value) (o : Overload) : Prop :=
  Suits h args o ∧ ∀ other ∈ set.overloads, Suits h args other →
    atLeastAsSpecific h o.signature other.signature = .ok true

/-- At most one member leads those that accept the arguments. -/
def OneLeads (h : Host (Except Error)) (set : OverloadSet) (args : List Value) : Prop :=
  ∀ o ∈ set.overloads, ∀ other ∈ set.overloads, Leads h set args o → Leads h set args other → o = other

section leads

variable {set : OverloadSet} {args : List Value}

theorem suits_iff {o : Overload} :
    Suits (still w p) args o ↔
      o.signature.params.length = args.length ∧ accepts w p o.signature args := by
  rw [Suits, applicable_still, Except.ok.injEq]

theorem mem_candidates_iff {o : Overload} :
    o ∈ set.candidates w p args ↔ o ∈ set.overloads ∧ Suits (still w p) args o := by
  rw [candidates, List.mem_filter, suits_iff, Bool.and_eq_true, beq_iff_eq]

theorem leads_iff {o : Overload} (ho : o ∈ set.candidates w p args) :
    leads w p (set.candidates w p args) o ↔ Leads (still w p) set args o := by
  simp only [leads, List.all_eq_true, mem_candidates_iff, Leads, (mem_candidates_iff.1 ho).2, true_and,
    atLeastAsSpecific_still, Except.ok.injEq, and_imp]

/-- The member that is chosen leads. -/
theorem leads_of_choice? {o : Overload} (choice : set.choice? w p args = some o) :
    o ∈ set.overloads ∧ Leads (still w p) set args o := by
  have candidate := List.mem_of_find?_eq_some choice
  exact ⟨(mem_candidates_iff.1 candidate).1, (leads_iff candidate).1 (List.find?_some choice)⟩

/-- If a member leads, then one is chosen. -/
theorem exists_choice? {o : Overload} (ho : o ∈ set.overloads) (hleads : Leads (still w p) set args o) :
    ∃ o, set.choice? w p args = some o := by
  have candidate := mem_candidates_iff.2 ⟨ho, hleads.1⟩
  exact Option.isSome_iff_exists.1
    (List.find?_isSome.2 ⟨o, candidate, (leads_iff candidate).2 hleads⟩)

/-- The first member that leads is chosen. -/
theorem choice?_of_leads {name : String} {before after : List Overload} {o : Overload}
    (none : ∀ x ∈ before, ¬ Leads (still w p) ⟨name, before ++ o :: after⟩ args x)
    (hleads : Leads (still w p) ⟨name, before ++ o :: after⟩ args o) :
    choice? w p ⟨name, before ++ o :: after⟩ args = some o := by
  have candidate : o ∈ candidates w p ⟨name, before ++ o :: after⟩ args :=
    mem_candidates_iff.2 ⟨List.mem_append_right _ List.mem_cons_self, hleads.1⟩
  -- candidates stand in the order of the members
  have split : candidates w p ⟨name, before ++ o :: after⟩ args =
      candidates w p ⟨name, before⟩ args ++ o :: candidates w p ⟨name, after⟩ args := by
    unfold candidates
    rw [List.filter_append, List.filter_cons_of_pos (by simpa using suits_iff.1 hleads.1)]
  refine List.find?_eq_some_iff_append.2 ⟨(leads_iff candidate).2 hleads, _, _, split, fun x hx => ?_⟩
  have member := (mem_candidates_iff.1 hx).1
  have other : x ∈ candidates w p ⟨name, before ++ o :: after⟩ args :=
    split ▸ List.mem_append_left _ hx
  rw [Bool.not_eq_true', Bool.eq_false_iff]
  exact fun leading => none x member ((leads_iff other).1 leading)

/-- The first of two members is chosen if it accepts the arguments and is as specific as the second. -/
theorem choice?_pair {name : String} {o o' : Overload} (suits : Suits (still w p) args o)
    (specific : asSpecific w p o.signature o'.signature) : choice? w p ⟨name, [o, o']⟩ args = some o := by
  refine @choice?_of_leads w p args name [] _ o nofun ⟨suits, fun other hother _ => ?_⟩
  rw [atLeastAsSpecific_still, Except.ok.injEq]
  rcases List.mem_pair.1 hother with rfl | rfl
  · exact asSpecific_refl ..
  · exact specific

/-- Overloads that do not compete are not as specific as each other. -/
theorem Apart.not_asSpecific {o other : Overload} (apart : Apart w p o other)
    (len : o.signature.params.length = other.signature.params.length) :
    ¬ (asSpecific w p o.signature other.signature ∧ asSpecific w p other.signature o.signature) := by
  rintro ⟨first, second⟩
  have competing := competes_of_asSpecific w p first second
  rw [apart len] at competing
  cases competing

/-- Overloads that did not compete do not compete as long as their signatures are settled. -/
theorem Apart.of_settled {p : World → Probe Id} {w' : World} {signatures : List Signature}
    {o other : Overload} (apart : Apart w (p w) o other) (settled : Settled p signatures w w')
    (ho : o.signature ∈ signatures) (hother : other.signature ∈ signatures) :
    Apart w' (p w') o other := by
  intro len
  rw [Bool.eq_false_iff]
  intro competing
  have before := settled.competes ho hother competing
  rw [apart len] at before
  cases before

/-- Of members that are kept apart, at most one leads those that accept the arguments. -/
theorem oneLeads_of_apart (apart : set.overloads.Pairwise (Apart w p)) (args : List Value) :
    OneLeads (still w p) set args := by
  intro o ho other hother hleads hleads'
  have symm : Std.Symm (Apart w p) := ⟨fun _ _ => Apart.symm⟩
  -- two that lead are as specific as each other, and so they compete
  by_contra different
  have first := hleads.2 other hother hleads'.1
  have second := hleads'.2 o ho hleads.1
  rw [atLeastAsSpecific_still, Except.ok.injEq] at first second
  have len := hleads.1.1.trans hleads'.1.1.symm
  exact (apart.forall ho hother different).not_asSpecific len ⟨first, second⟩

end leads

section perm

variable {set set' : OverloadSet} (perm : set.overloads.Perm set'.overloads) {args : List Value}

include perm

/-- Sets with the same members have the same leading ones. -/
theorem leads_perm {o : Overload} : Leads (still w p) set args o ↔ Leads (still w p) set' args o := by
  simp only [Leads, perm.mem_iff]

/-- Where at most one member leads, sets with the same members choose it, or nothing if there is none. -/
theorem choice?_of_perm (unique : OneLeads (still w p) set args) :
    (set.choice? w p args = none ∧ set'.choice? w p args = none) ∨
      ∃ o ∈ set.overloads, Leads (still w p) set args o ∧
        set.choice? w p args = some o ∧ set'.choice? w p args = some o := by
  cases choice : set.choice? w p args with
  | none =>
    left
    refine ⟨rfl, Option.eq_none_iff_forall_ne_some.2 fun o' choice' => ?_⟩
    obtain ⟨member, hleads⟩ := leads_of_choice? choice'
    obtain ⟨o, found⟩ := exists_choice? (perm.mem_iff.2 member) ((leads_perm perm).2 hleads)
    rw [choice] at found
    cases found
  | some o =>
    right
    -- the other set chooses a member as well, which leads here too
    obtain ⟨member, hleads⟩ := leads_of_choice? choice
    obtain ⟨o', found⟩ := exists_choice? (perm.mem_iff.1 member) ((leads_perm perm).1 hleads)
    obtain ⟨member', hleads'⟩ := leads_of_choice? found
    cases unique o member o' (perm.mem_iff.2 member') hleads ((leads_perm perm).2 hleads')
    exact ⟨o, member, hleads, rfl, found⟩

end perm

theorem functions_filterMap {member? : Function → Option Overload}
    (own : ∀ {f o}, member? f = some o → o.function = f) {fs : List Function}
    (accepted : ∀ f ∈ fs, (member? f).isSome) : (fs.filterMap member?).map (·.function) = fs := by
  induction fs with
  | nil => rfl
  | cons f fs ih =>
    obtain ⟨first, rest⟩ := List.forall_mem_cons.1 accepted
    obtain ⟨o, first⟩ := Option.isSome_iff_exists.1 first
    rw [List.filterMap_cons_some first, List.map_cons, ih rest, own first]

/-- Registering functions in one world succeeds in each order or in none, and the sets that it makes have
the functions as members. In a later world, where at most one member leads those that accept the arguments
of a call, both sets choose it, or nothing if there is none. At most one leads as long as the signatures
are settled. -/
theorem register_perm (p : World → Probe Id) (w : World) (name : String) {fs gs : List Function}
    (perm : fs.Perm gs) (made : ∀ f ∈ fs, ∀ s ∈ f.signature, s.WellMade) :
    ((∃ a, register (still w (p w)) name fs = .ok a) ↔ ∃ b, register (still w (p w)) name gs = .ok b) ∧
    ∀ a b, register (still w (p w)) name fs = .ok a → register (still w (p w)) name gs = .ok b →
      a.overloads.map (·.function) = fs ∧ b.overloads.map (·.function) = gs ∧
      ∀ w' args,
        (OneLeads (still w' (p w')) a args →
          (a.resolve (still w' (p w')) args =
                .error (.functionNotFound name (args.map (·.classOf.name))) ∧
              b.resolve (still w' (p w')) args =
                .error (.functionNotFound name (args.map (·.classOf.name)))) ∨
            ∃ o ∈ a.overloads, Leads (still w' (p w')) a args o ∧
              (a.resolve (still w' (p w')) args).map (·.1) = .ok o ∧
              (b.resolve (still w' (p w')) args).map (·.1) = .ok o) ∧
        (Settled p (fs.filterMap (·.signature)) w w' → OneLeads (still w' (p w')) a args) := by
  have madeG : ∀ f ∈ gs, ∀ s ∈ f.signature, s.WellMade := fun f hf => made f (perm.mem_iff.2 hf)
  have members : (fs.filterMap overload?).Perm (gs.filterMap overload?) := perm.filterMap _
  constructor
  · simp only [register_still_iff made, register_still_iff madeG, exists_and_left, exists_eq, and_true]
    refine and_congr (forall_congr' fun f => ?_) (members.pairwise_iff Apart.symm)
    rw [perm.mem_iff]
  · intro a b ha hb
    obtain ⟨accepted, apart, rfl⟩ := (register_still_iff made).1 ha
    obtain ⟨accepted', -, rfl⟩ := (register_still_iff madeG).1 hb
    have own : ∀ {f o}, overload? f = some o → o.function = f := fun h => (of_overload?_eq_some h).1
    refine ⟨functions_filterMap own accepted, functions_filterMap own accepted', fun w' args => ⟨?_, ?_⟩⟩
    · intro unique
      rcases @choice?_of_perm w' (p w') ⟨name, _⟩ ⟨name, _⟩ members args unique with
        ⟨none, none'⟩ | ⟨o, member, hleads, choice, choice'⟩
      · exact .inl ⟨resolve_of_choice?_eq_none none, resolve_of_choice?_eq_none none'⟩
      · refine .inr ⟨o, member, hleads, ?_, ?_⟩
        · rw [resolve_still, choice]
        · rw [resolve_still, choice']
    · intro settled
      have inside : ∀ o ∈ fs.filterMap overload?, o.signature ∈ fs.filterMap (·.signature) := by
        intro o ho
        obtain ⟨f, hf, accepted⟩ := List.mem_filterMap.1 ho
        exact List.mem_filterMap.2 ⟨f, hf, (of_overload?_eq_some accepted).2.1⟩
      exact oneLeads_of_apart (apart.imp_of_mem fun ho hother apart =>
        apart.of_settled settled (inside _ ho) (inside _ hother)) args

/-- Of a function for anything and one for integers the latter is chosen for an integer, whichever comes
first. -/
theorem show_register_perm :
    let p : Probe Id := ⟨fun _ _ => false, fun _ => ()⟩
    let integer : Signature := ⟨[⟨"x", .positional, some (.plain .int), none⟩], none⟩
    let showAny : Function :=
      ⟨.declared 1 "show", some ⟨[⟨"x", .positional, none, none⟩], none⟩, .host 1⟩
    let showInt : Function := ⟨.declared 2 "show", some integer, .host 2⟩
    ∃ a b, register (still .initial p) "show" [showAny, showInt] = .ok a ∧
      register (still .initial p) "show" [showInt, showAny] = .ok b ∧
      (a.resolve (still .initial p) [.int 1]).map (·.1) = .ok ⟨showInt, integer⟩ ∧
      (b.resolve (still .initial p) [.int 1]).map (·.1) = .ok ⟨showInt, integer⟩ := by
  intro p integer showAny showInt
  have made : ∀ f ∈ [showAny, showInt], ∀ s ∈ f.signature, s.WellMade := by
    simp [showAny, showInt, integer, Signature.WellMade, Signature.annotations,
      Conformance.wellMade_plain]
  have apart : ([showAny, showInt].filterMap overload?).Pairwise (Apart .initial p) := by
    simp [showAny, showInt, integer, overload?, Signature.isVariadic, Param.isVariadic, Apart, competes,
      same, strictlyBelow, Signature.annotations, TypeSpec.equalOption, annotationConforms]
  have registered : register (still .initial p) "show" [showAny, showInt] =
      .ok ⟨"show", [showAny, showInt].filterMap overload?⟩ :=
    (register_still_iff made).2 ⟨by decide, apart, rfl⟩
  have choice : choice? .initial p ⟨"show", [showAny, showInt].filterMap overload?⟩ [.int 1] =
      some ⟨showInt, integer⟩ := by
    have reflexive : (Conformance.isSubtype .initial p (.plain .int) (.plain .int)).run :=
      Conformance.isSubtype_of_equal (TypeSpec.equal_refl _)
    simp [showAny, showInt, integer, overload?, Signature.isVariadic, Param.isVariadic, choice?,
      candidates, leads, accepts, asSpecific, Signature.annotations, annotationConforms, Value.classOf,
      reflexive]
  obtain ⟨possible, sameChoice⟩ :=
    register_perm (fun _ => p) .initial "show" (.swap showInt showAny []) made
  obtain ⟨b, hb⟩ := possible.1 ⟨_, registered⟩
  obtain ⟨-, -, later⟩ := sameChoice _ b registered hb
  obtain ⟨same, unique⟩ := later .initial [.int 1]
  have chosen := resolve_still .initial p ⟨"show", [showAny, showInt].filterMap overload?⟩ [.int 1]
  rw [choice] at chosen
  rcases same (unique (.refl _ _ _)) with ⟨none, -⟩ | ⟨o, -, -, found, found'⟩
  · rw [none] at chosen
    cases chosen
  · cases found.symm.trans chosen
    exact ⟨_, b, registered, hb, found, found'⟩

/-! ## Order after a write -/

/-- Two functions are registered in order if they can be members and do not compete. -/
theorem register_pair (name : String) {o o' : Overload} (accepted : overload? o.function = some o)
    (accepted' : overload? o'.function = some o') (made : o.signature.WellMade)
    (made' : o'.signature.WellMade) (apart : Apart w p o o') :
    register (still w p) name [o.function, o'.function] = .ok ⟨name, [o, o']⟩ := by
  have signed := (of_overload?_eq_some accepted).2.1
  have signed' := (of_overload?_eq_some accepted').2.1
  refine (register_still_iff ?_).2 ?_
  · simp [signed, signed', made, made']
  · simpa [accepted, accepted'] using apart

/-- An overload for an object and one for the same object if it has an attribute. They do not compete
before the object has it. Afterwards they do, each is as specific as the other, and the one that came first
is chosen. -/
theorem exists_rivals (p : World → Probe Id) :
    ∃ (object : ObjectRef) (o o' : Overload), o ≠ o' ∧
      (overload? o.function = some o ∧ overload? o'.function = some o') ∧
      (o.signature.WellMade ∧ o'.signature.WellMade) ∧
      o.signature.params.length = o'.signature.params.length ∧ Apart .initial (p .initial) o o' ∧
      let w := World.initial.write [.set object "x" (.int 1)]
      competes w (p w) o.signature o'.signature ∧
      ∀ name, choice? w (p w) ⟨name, [o, o']⟩ [.object object] = some o ∧
        choice? w (p w) ⟨name, [o', o]⟩ [.object object] = some o' := by
  obtain ⟨object, wide, narrow, made, made', -, before, ⟨below, above⟩, whole, part⟩ :=
    Conformance.exists_unsettled p
  let w : World := World.initial.write [.set object "x" (.int 1)]
  let signature : Signature := .positional [("v", wide)]
  let signature' : Signature := .positional [("v", narrow)]
  let o : Overload := ⟨⟨.declared 21 "show", some signature, .host 1⟩, signature⟩
  let o' : Overload := ⟨⟨.declared 22 "show", some signature', .host 2⟩, signature'⟩
  have specific : asSpecific w (p w) o.signature o'.signature :=
    asSpecific_positional_iff.2 (List.forall_mem_singleton.2 below)
  have specific' : asSpecific w (p w) o'.signature o.signature :=
    asSpecific_positional_iff.2 (List.forall_mem_singleton.2 above)
  have suits : Suits (still w (p w)) [.object object] o :=
    suits_iff.2 ⟨rfl, accepts_positional_iff.2 (List.forall_mem_singleton.2 whole)⟩
  have suits' : Suits (still w (p w)) [.object object] o' :=
    suits_iff.2 ⟨rfl, accepts_positional_iff.2 (List.forall_mem_singleton.2 part)⟩
  refine ⟨object, o, o', ?_, ⟨rfl, rfl⟩,
    ⟨Signature.wellMade_positional (List.forall_mem_singleton.2 made),
      Signature.wellMade_positional (List.forall_mem_singleton.2 made')⟩,
    rfl, fun _ => not_competes_positional before nofun, competes_of_asSpecific _ _ specific specific',
    fun _ => ⟨choice?_pair suits specific, choice?_pair suits' specific'⟩⟩
  intro same
  cases congrArg (·.function.callable) same

/-- Functions that do not compete when they are registered can do so after a write, and then the order of
their registration counts. -/
theorem not_register_perm :
    ¬ ∀ (w : World) (writes : List AttributeWrite) (p : World → Probe Id) (name : String)
        (fs gs : List Function) (a b : OverloadSet) (args : List Value),
      fs.Perm gs → (∀ f ∈ fs, ∀ s ∈ f.signature, s.WellMade) →
      register (still w (p w)) name fs = .ok a → register (still w (p w)) name gs = .ok b →
      (a.resolve (still (w.write writes) (p (w.write writes))) args).map (·.1) =
        (b.resolve (still (w.write writes) (p (w.write writes))) args).map (·.1) := by
  intro independent
  let p : World → Probe Id := fun _ => ⟨fun _ _ => false, fun _ => ()⟩
  obtain ⟨object, o, o', different, ⟨accepted, accepted'⟩, ⟨madeO, madeO'⟩, -, apart, -, chosen⟩ :=
    exists_rivals p
  have registered := register_pair "show" accepted accepted' madeO madeO' apart
  have registered' := register_pair "show" accepted' accepted madeO' madeO apart.symm
  have made : ∀ f ∈ [o.function, o'.function], ∀ s ∈ f.signature, s.WellMade := by
    simp [(of_overload?_eq_some accepted).2.1, (of_overload?_eq_some accepted').2.1, madeO, madeO']
  have same := independent .initial [.set object "x" (.int 1)] p "show" _ _ _ _ [.object object]
    (.swap _ _ []) made registered registered'
  rw [resolve_still, resolve_still, (chosen "show").1, (chosen "show").2] at same
  exact different (Except.ok.inj same)

end OverloadSet

end TypeContracts
