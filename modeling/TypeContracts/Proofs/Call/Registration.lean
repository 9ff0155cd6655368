import TypeContracts.Proofs.Call.OverloadTable

/-!
Histories of registrations in a table, refused ones included, each in a session of its own. Whatever is
offered in whatever order and whatever happens to the world meanwhile, the table holds the functions that
were accepted, each under its number of parameters; a refused one leaves the number of functions and all
choices as they were. Two functions under one number were not ambiguous when the second one came. A write
to an attribute can make them so later.
Main statements: `OverloadTable.Files.offerAll`, `OverloadTable.Files.orderly`,
`OverloadTable.offerAll_kept`.
-/

namespace TypeContracts

namespace OverloadSet

open Host (steady completed)

/-! ## Reasons to refuse -/

section steady

variable {tests : World → Predicate → Value → Except String Bool} {w : World}

/-- A function is refused with one of three errors, or because a predicate gives up. -/
theorem Refusal.fault_cases {name : String} {registered : Nat → List Signature} {f : Function}
    {fault : Fault} (refusal : Refusal (steady tests w) .error name registered f fault)
    (made : ∀ s ∈ f.signature, s.WellMade) (madeSet : ∀ n, ∀ s ∈ registered n, s.WellMade) :
    fault = .error (.invalidSpec (.opaqueSignature f.name)) ∨
      (∃ q, fault = .error (.invalidSpec (.variadicSignature q))) ∨
      fault = .error (.ambiguousFunction name) ∨ ∃ text, fault = .panic text := by
  cases refusal with
  | unsigned => exact .inl rfl
  | variadic => exact .inr (.inl ⟨_, rfl⟩)
  | ambiguous => exact .inr (.inr (.inl rfl))
  | gaveUp signed _ hother failed =>
    refine .inr (.inr (.inr ?_))
    rcases ambiguous_steady (made _ signed) (madeSet _ _ hother) with ⟨text, gaveUp⟩ | answered
    · rw [failed] at gaveUp
      exact ⟨text, Except.error.inj gaveUp⟩
    · rw [failed] at answered
      cases answered

end steady

end OverloadSet

namespace OverloadTable

open Host (still steady completed)
open OverloadSet (Grown Step Refusal Clear Settled accepted ambiguous)

/-! ## Histories -/

/-- A function that is offered to a table in a session. -/
structure Attempt where
  function : Function
  logger : Logger
  session : Session

/-- The fault if the function is refused, and the table that there is afterwards. -/
def offer (h : Host Exec) (t : OverloadTable) (a : Attempt) : Option Fault × OverloadTable :=
  match ((add h a.function).run a.logger).run (t, a.session) with
  | .ok _ (t', _) => (none, t')
  | .error fault (t', _) => (some fault, t')

/-- Functions offered one after another: the worlds, the functions, and the faults of those that were
refused, and the table that there is afterwards. -/
def offerAll (h : Host Exec) (t : OverloadTable) :
    List Attempt → List (World × Function × Option Fault) × OverloadTable
  | [] => ([], t)
  | a :: attempts =>
    let (outcome, t') := t.offer h a
    let (steps, last) := t'.offerAll h attempts
    ((a.session.world, a.function, outcome) :: steps, last)

/-- The table holds the given functions. Each takes a fixed number of arguments and stands under this
number, after those that were given before it. -/
structure Orderly (t : OverloadTable) (fs : List Function) : Prop where
  keys : (t.byArity.map (·.1)).Nodup
  signed : ∀ e ∈ t.byArity, ∀ f ∈ e.2,
    ∃ s, f.signature = some s ∧ s.isVariadic = false ∧ s.params.length = e.1
  functions : ∀ n, t.functions n = fs.filter fun f => f.signature.any fun s => s.params.length == n
  size : t.size = fs.length

namespace Files

variable {h : Host Exec} {t : OverloadTable} {set : OverloadSet}

theorem offer (session : h.InSession) (files : Files t set) (a : Attempt) :
    ∃ set' s', Step h a.logger a.function (set, a.session) (t.offer h a).1 (set', s') ∧
      Files (t.offer h a).2 set' := by
  have comes := files.add session a.function a.logger a.session
  unfold OverloadTable.offer
  cases run : ((set.add h a.function).run a.logger).run a.session with
  | ok set' s' =>
    rw [run] at comes
    obtain ⟨t', run', files'⟩ := comes
    rw [run']
    exact ⟨set', s', .added run, files'⟩
  | error fault s' =>
    rw [run] at comes
    obtain ⟨t', run', files'⟩ := comes
    rw [run']
    exact ⟨set, s', .refused run, files'⟩

/-- With pure predicates a function that the set accepts in the world of the session is accepted. -/
theorem offer_of_add {p : World → Probe Id} (judges : h.Judges p) (files : Files t set) {a : Attempt}
    {set' : OverloadSet}
    (added : set.add (still a.session.world (p a.session.world)) a.function = .ok set') :
    Files (t.offer h a).2 set' := by
  obtain ⟨s', -, run⟩ := (judges.callSimulation _).add set a.function a.logger a.session rfl
  rw [added] at run
  have comes := files.add judges.toInSession a.function a.logger a.session
  rw [run] at comes
  obtain ⟨t', run', files'⟩ := comes
  unfold OverloadTable.offer
  rw [run']
  exact files'

/-- The table files the members of the set that the same functions lead to. -/
theorem offerAll (session : h.InSession) {name : String} {steps : List (World × Function × Option Fault)}
    (files : Files t set) (grown : Grown h name steps set) (attempts : List Attempt) :
    ∃ set', Grown h name (steps ++ (t.offerAll h attempts).1) set' ∧
      Files (t.offerAll h attempts).2 set' := by
  induction attempts generalizing t set steps with
  | nil => exact ⟨set, (List.append_nil steps).symm ▸ grown, files⟩
  | cons a attempts ih =>
    obtain ⟨set', s', step, files'⟩ := files.offer session a
    obtain ⟨last, grown', filesLast⟩ := ih files' (.snoc grown step)
    rw [List.append_assoc] at grown'
    exact ⟨last, grown', filesLast⟩

theorem functions_eq_filter (files : Files t set) (n : Nat) :
    t.functions n = (set.overloads.filter fun o => o.signature.params.length == n).map (·.function) := by
  rw [files.functions, ← ofArity_val, List.map_map]
  rfl

theorem signatures (files : Files t set) (n : Nat) :
    (t.functions n).filterMap (·.signature) = set.signatures n := by
  rw [files.functions, List.filterMap_map, OverloadSet.signatures]
  exact List.filterMap_eq_map_iff_forall_eq_some.2 fun o _ => files.filed.signature o.1 o.2

theorem orderly (files : Files t set) : Orderly t (set.overloads.map (·.function)) where
  keys := files.keys
  signed _ he _ hf := files.signed he hf
  functions n := by
    rw [files.functions_eq_filter, List.filter_map]
    refine congrArg _ (List.filter_congr fun o ho => ?_)
    show _ = o.function.signature.any fun s => s.params.length == n
    rw [files.filed.signature o ho]
    rfl
  size := by rw [files.size, List.length_map]; rfl

end Files

theorem functions_offerAll (h : Host Exec) (t : OverloadTable) (attempts : List Attempt) :
    (t.offerAll h attempts).1.map (·.2.1) = attempts.map (·.function) := by
  induction attempts generalizing t with
  | nil => rfl
  | cons a attempts ih => exact congrArg (a.function :: ·) (ih _)

theorem eq_of_offer {h : Host Exec} (session : h.InSession) {t t' : OverloadTable} {a : Attempt}
    {fault : Fault} (refused : t.offer h a = (some fault, t')) : t' = t := by
  unfold offer at refused
  split at refused
  · cases refused
  · rename_i run
    cases refused
    exact eq_of_run_add session run

/-! ## What registration keeps -/

section kept

variable {tests : World → Predicate → Value → Except String Bool} {h : Host Exec}

/-- In this order, signatures come out as not ambiguous in a world, and do not come out as ambiguous in any
world as long as they are settled. -/
def Unambiguous (tests : World → Predicate → Value → Except String Bool) (h : Host Exec) (w : World)
    (s s' : Signature) : Prop :=
  ∀ l (now : Session), (now.world = w → (ambiguous h s s').answer l now = .ok false) ∧
    (Settled (completed tests) [s, s'] w now.world → (ambiguous h s s').answer l now ≠ .ok true)

/-- Overloads that are clear of each other in a world are not ambiguous in the order of the comparison. -/
theorem unambiguous_of_clear (decides : Host.Decides tests h) {w : World} {o other : Overload}
    (len : o.signature.params.length = other.signature.params.length)
    (made : o.signature.WellMade) (made' : other.signature.WellMade)
    (clear : Clear (steady tests w) o other) : Unambiguous tests h w o.signature other.signature := by
  intro l now
  rw [decides.answer_ambiguous]
  constructor
  · rintro rfl
    exact clear len
  · intro settled
    have apart := (clear.apart made made').of_settled settled List.mem_cons_self
      (List.mem_cons_of_mem _ List.mem_cons_self)
    exact apart.not_ambiguous len made made'

section files

variable (decides : Host.Decides tests h) {t : OverloadTable} {set : OverloadSet} (files : Files t set)

include decides files

/-- Of two functions under one number the later one was asked about the earlier one when it was added. -/
theorem Files.pairwise_unambiguous {name : String} {steps : List (World × Function × Option Fault)}
    (grown : Grown h name steps set) (made : ∀ step ∈ steps, ∀ s ∈ step.2.1.signature, s.WellMade)
    (n : Nat) :
    (t.functions n).Pairwise fun f g => ∃ w, (w, g, none) ∈ steps ∧
      ∀ s ∈ f.signature, ∀ s' ∈ g.signature, Unambiguous tests h w s s' ∧ Unambiguous tests h w s' s := by
  obtain ⟨madeSet, clear⟩ := grown.clear decides made
  rw [files.functions_eq_filter, List.pairwise_map]
  refine (clear.sublist List.filter_sublist).imp_of_mem fun {o other} ho hother compared => ?_
  obtain ⟨w, step, clear⟩ := compared
  obtain ⟨ho, arity⟩ := List.mem_filter.1 ho
  obtain ⟨hother, arity'⟩ := List.mem_filter.1 hother
  have len := (beq_iff_eq.1 arity).trans (beq_iff_eq.1 arity').symm
  have made := madeSet o ho
  have made' := madeSet other hother
  refine ⟨w, step, fun s hs s' hs' => ?_⟩
  cases (files.filed.signature o ho).symm.trans hs
  cases (files.filed.signature other hother).symm.trans hs'
  -- the comparison was made in one order, and comes out alike in the other one
  exact ⟨unambiguous_of_clear decides len made made' (clear.symm made' made),
    unambiguous_of_clear decides len.symm made' made clear⟩

/-- A function is refused for a reason, which lies in what is filed. -/
theorem Files.refusal_of_offer {a : Attempt} {fault : Fault} {t' : OverloadTable}
    (refused : t.offer h a = (some fault, t')) :
    Refusal (steady tests a.session.world) .error set.name
      (fun n => (t.functions n).filterMap (·.signature)) a.function fault := by
  obtain ⟨set', s', step, -⟩ := files.offer decides.toInSession a
  rw [refused] at step
  obtain ⟨-, -, refusal⟩ := step.outcome decides
  have registered : (fun n => (t.functions n).filterMap (·.signature)) = set.signatures :=
    funext files.signatures
  exact registered ▸ refusal

end files

/-- Whatever functions are offered to a table, it holds those that were accepted, in order, and a further
function that is refused leaves it as it is. With pure predicates each two functions under one number are
not ambiguous in the world in which the later one was added, and a function is refused for a reason. -/
theorem offerAll_kept (session : h.InSession) (name : String) (attempts : List Attempt)
    {steps : List (World × Function × Option Fault)} {t : OverloadTable}
    (offered : (empty name).offerAll h attempts = (steps, t)) :
    Orderly t (accepted steps) ∧
    (∀ a fault t', t.offer h a = (some fault, t') → t' = t) ∧
    ∀ tests, Host.Decides tests h → (∀ a ∈ attempts, ∀ s ∈ a.function.signature, s.WellMade) →
      (∀ n, (t.functions n).Pairwise fun f g => ∃ w, (w, g, none) ∈ steps ∧
        ∀ s ∈ f.signature, ∀ s' ∈ g.signature,
          Unambiguous tests h w s s' ∧ Unambiguous tests h w s' s) ∧
      ∀ a fault t', (∀ s ∈ a.function.signature, s.WellMade) → t.offer h a = (some fault, t') →
        Refusal (steady tests a.session.world) .error name
          (fun n => (t.functions n).filterMap (·.signature)) a.function fault ∧
        (fault = .error (.invalidSpec (.opaqueSignature a.function.name)) ∨
          (∃ q, fault = .error (.invalidSpec (.variadicSignature q))) ∨
          fault = .error (.ambiguousFunction name) ∨ ∃ text, fault = .panic text) := by
  -- the table files the members of the set that grows by the same steps
  obtain ⟨set, grown, files⟩ := (files_empty name).offerAll session .nil attempts
  have functions := functions_offerAll h (empty name) attempts
  rw [offered] at grown files functions
  rw [List.nil_append] at grown
  obtain ⟨named, -, members⟩ := grown.filed session
  refine ⟨members ▸ files.orderly, fun a fault t' => eq_of_offer session, fun tests decides made => ?_⟩
  have madeSteps : ∀ step ∈ steps, ∀ s ∈ step.2.1.signature, s.WellMade := by
    intro step hstep
    have hf : step.2.1 ∈ attempts.map (·.function) := functions ▸ List.mem_map_of_mem hstep
    obtain ⟨a, ha, same⟩ := List.mem_map.1 hf
    exact same ▸ made a ha
  refine ⟨files.pairwise_unambiguous decides grown madeSteps, fun a fault t' madeA refused => ?_⟩
  have refusal := files.refusal_of_offer decides refused
  rw [named] at refusal
  refine ⟨refusal, refusal.fault_cases madeA fun n s hs => ?_⟩
  rw [files.signatures] at hs
  obtain ⟨o, ho, -, rfl⟩ := OverloadSet.mem_signatures_iff.1 hs
  exact (grown.clear decides madeSteps).1 o ho

/-- A function for anything is registered. It is refused when it comes again, and so is one that cannot be
inspected; the table keeps its one function. -/
theorem show_offerAll_kept :
    let h : Host Exec := ⟨Exec.world, fun _ _ => Exec.panic "unanswered", fun _ _ _ => return .null,
      Exec.declare, Exec.log, Exec.fail⟩
    let l : Logger := ⟨some .warn, false⟩
    let one : Function := ⟨.declared 20 "show", some ⟨[⟨"x", .positional, none, none⟩], none⟩, .host 0⟩
    let hidden : Function := ⟨.declared 21 "show", none, .host 1⟩
    let twice : List (World × Function × Option Fault) :=
      [(.initial, one, none), (.initial, one, some (.error (.ambiguousFunction "show")))]
    h.InSession ∧ ∃ t, (empty "show").offerAll h [⟨one, l, .initial⟩, ⟨one, l, .initial⟩] = (twice, t) ∧
      Orderly t [one] ∧
      t.offer h ⟨hidden, l, .initial⟩ = (some (.error (.invalidSpec (.opaqueSignature "show"))), t) ∧
      Refusal (steady (fun _ _ _ => .error "unanswered") .initial) .error "show"
        (fun n => (t.functions n).filterMap (·.signature)) hidden
        (.error (.invalidSpec (.opaqueSignature "show"))) := by
  intro h l one hidden twice
  let tests : World → Predicate → Value → Except String Bool := fun _ _ _ => .error "unanswered"
  have decides : Host.Decides tests h := ⟨⟨rfl, rfl, rfl, fun _ => rfl⟩, fun _ _ _ _ => ⟨_, rfl⟩⟩
  let t : OverloadTable := ⟨"show", [(1, [one])]⟩
  have first : (empty "show").offer h ⟨one, l, .initial⟩ = (none, t) := rfl
  let signature : Signature := ⟨[⟨"x", .positional, none, none⟩], none⟩
  have made : signature.WellMade := by simp [signature, Signature.WellMade, Signature.annotations]
  have second : t.offer h ⟨one, l, .initial⟩ = (some (.error (.ambiguousFunction "show")), t) := by
    have identical : ambiguous h signature signature = pure true := by
      simp [ambiguous, OverloadSet.compareAt, signature, Signature.annotations, TypeSpec.equalOption]
    have compared : (t.functions 1).forM (requireUnambiguous h "show" signature) =
        settle h "show" signature (some signature) := by
      refine (@forM_requireUnambiguous h signature decides.toInSession "show" Overload id
        [⟨one, signature⟩] (List.forall_mem_singleton.2 rfl)).trans ?_
      simp [List.findM?, identical]
    have run : ((add h one).run l).run (t, .initial) = _ :=
      run_add_of_fixed decides.toInSession (show one.signature = some signature from rfl) rfl
    rw [show signature.params.length = 1 from rfl, show t.name = "show" from rfl, compared] at run
    rw [offer, run]
    rfl
  have offered : (empty "show").offerAll h [⟨one, l, .initial⟩, ⟨one, l, .initial⟩] = (twice, t) := by
    simp only [offerAll, first, second]
    rfl
  obtain ⟨orderly, -, judged⟩ := offerAll_kept decides.toInSession "show" _ offered
  have third : t.offer h ⟨hidden, l, .initial⟩ =
      (some (.error (.invalidSpec (.opaqueSignature "show"))), t) := rfl
  obtain ⟨-, refused⟩ := judged tests decides (by simpa [one] using made)
  exact ⟨decides.toInSession, t, offered, orderly, third, (refused _ _ _ (fun _ hs => by cases hs) third).1⟩

end kept

/-- Two functions under one number are ambiguous after a write to an attribute. -/
theorem not_offerAll_kept :
    ¬ ∀ (h : Host Exec) (p : World → Probe Id) (name : String) (attempts : List Attempt) (l : Logger)
        (s : Session), h.Judges p → (∀ a ∈ attempts, ∀ s ∈ a.function.signature, s.WellMade) →
      ∀ n, (((empty name).offerAll h attempts).2.functions n).Pairwise fun f g =>
        ∀ s₁ ∈ f.signature, ∀ s₂ ∈ g.signature, (ambiguous h s₁ s₂).answer l s ≠ .ok true := by
  intro unambiguous
  let p : World → Probe Id := fun _ => ⟨fun _ _ => false, fun _ => ()⟩
  let h : Host Exec := ⟨Exec.world, fun _ _ => return false, fun _ _ _ => return .null,
    Exec.declare, Exec.log, Exec.fail⟩
  let l : Logger := ⟨none, false⟩
  have judges : h.Judges p := ⟨⟨rfl, rfl, rfl, fun _ => rfl⟩, fun _ _ _ _ => ⟨_, rfl⟩⟩
  obtain ⟨object, o, o', -, ⟨accepted, accepted'⟩, ⟨madeO, madeO'⟩, len, apart, competing, -⟩ :=
    OverloadSet.exists_rivals p
  have signed := (OverloadSet.of_overload?_eq_some accepted).2.1
  have signed' := (OverloadSet.of_overload?_eq_some accepted').2.1
  have first : (OverloadSet.empty "show").add (still .initial (p .initial)) o.function =
      .ok ⟨"show", [o]⟩ :=
    (OverloadSet.add_still_iff (by simpa [signed] using madeO) (by simp [OverloadSet.empty])).2
      ⟨o, accepted, by simp [OverloadSet.empty], rfl⟩
  have second : OverloadSet.add (still .initial (p .initial)) ⟨"show", [o]⟩ o'.function =
      .ok ⟨"show", [o, o']⟩ :=
    (OverloadSet.add_still_iff (by simpa [signed'] using madeO') (by simpa using madeO)).2
      ⟨o', accepted', by simpa using apart.symm, rfl⟩
  -- before the write the table accepts both
  have one := (files_empty "show").offer_of_add judges (a := ⟨o.function, l, .initial⟩) first
  have files := one.offer_of_add judges (a := ⟨o'.function, l, .initial⟩) second
  have made : ∀ a ∈ [Attempt.mk o.function l .initial, ⟨o'.function, l, .initial⟩],
      ∀ s ∈ a.function.signature, s.WellMade := by
    simp [signed, signed', madeO, madeO']
  let w : World := World.initial.write [.set object "x" (.int 1)]
  have apart' := unambiguous h p "show" _ l ⟨w, #[]⟩ judges made o.signature.params.length
  have both : (((empty "show").offerAll h [⟨o.function, l, .initial⟩, ⟨o'.function, l, .initial⟩]).2.functions
      o.signature.params.length) = [o.function, o'.function] := by
    refine (files.functions_eq_filter _).trans ?_
    simp [len]
  rw [both] at apart'
  have different := List.rel_of_pairwise_cons apart' List.mem_cons_self _ signed _ signed'
  obtain ⟨s', -, run⟩ :=
    (judges.callSimulation w).ambiguous o.signature o'.signature l ⟨w, #[]⟩ rfl
  rw [OverloadSet.ambiguous_still _ _ (madeO.equalOption_comm madeO'), competing] at run
  exact different (Exec.answer_of_ended run)

end OverloadTable

end TypeContracts
