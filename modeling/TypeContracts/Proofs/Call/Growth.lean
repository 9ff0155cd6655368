import TypeContracts.Proofs.Call.Overload
import TypeContracts.Proofs.Call.Simulation

/-!
How overload sets grow. Functions are offered to a set one after another, each in a session of its own, and
between them anything may happen to the world; a refused function leaves the set as it was. A new member can
lead the members that accept the arguments of a call, or keep the one from leading them that did so before.
Where at most one old member leads, it can never make another old one do so.
Main statements: `OverloadSet.Step.outcome`, `OverloadSet.Grown.clear`, `OverloadSet.choice?_append`,
`OverloadSet.add_never_redirects`.
-/

namespace TypeContracts

theorem Host.raises_steady (tests : World → Predicate → Value → Except String Bool) (w : World) :
    (steady tests w).Raises .error :=
  ⟨fun _ _ _ => rfl, fun _ => rfl⟩

namespace OverloadSet

open Host (still steady completed)
open Conformance

/-! ## Growth -/

/-- One registration in a session, with the fault if the function is refused. Then the set stays the one
that there was. -/
inductive Step (h : Host Exec) (l : Logger) (f : Function) :
    OverloadSet × Session → Option Fault → OverloadSet × Session → Prop where
  | added {set set' : OverloadSet} {s s' : Session} :
      ((set.add h f).run l).run s = .ok set' s' → Step h l f (set, s) none (set', s')
  | refused {set : OverloadSet} {s s' : Session} {fault : Fault} :
      ((set.add h f).run l).run s = .error fault s' → Step h l f (set, s) (some fault) (set, s')

/-- Functions offered to the set of a name one after another, each in a session of its own: the worlds, the
functions, and the faults of those that were refused. -/
inductive Grown (h : Host Exec) (name : String) :
    List (World × Function × Option Fault) → OverloadSet → Prop where
  | nil : Grown h name [] (.empty name)
  | snoc {steps : List (World × Function × Option Fault)} {set set' : OverloadSet} {l : Logger}
      {s s' : Session} {f : Function} {outcome : Option Fault} : Grown h name steps set →
      Step h l f (set, s) outcome (set', s') →
      Grown h name (steps ++ [(s.world, f, outcome)]) set'

/-! ### Under any host in a session -/

/-- The members can be inspected and take a fixed number of arguments. -/
structure Filed (set : OverloadSet) : Prop where
  signature : ∀ o ∈ set.overloads, o.function.signature = some o.signature
  fixed : ∀ o ∈ set.overloads, o.signature.isVariadic = false

theorem Filed.append {set : OverloadSet} (filed : set.Filed) {f : Function} {o : Overload}
    (accepted : overload? f = some o) : Filed ⟨set.name, set.overloads ++ [o]⟩ := by
  obtain ⟨rfl, signature, fixed⟩ := of_overload?_eq_some accepted
  constructor
  case signature =>
    exact List.forall_mem_append.2 ⟨filed.signature, List.forall_mem_singleton.2 signature⟩
  case fixed => exact List.forall_mem_append.2 ⟨filed.fixed, List.forall_mem_singleton.2 fixed⟩

/-- Only a function that can be inspected and takes a fixed number of arguments is registered. -/
theorem of_run_add {h : Host Exec} (session : h.InSession) {l : Logger} {set set' : OverloadSet}
    {s s' : Session} {f : Function} (added : ((set.add h f).run l).run s = .ok set' s') :
    ∃ o, overload? f = some o ∧ set' = ⟨set.name, set.overloads ++ [o]⟩ := by
  unfold add at added
  cases signature : f.signature with
  | none =>
    rw [signature] at added
    dsimp only at added
    rw [session.fail, Exec.run_fail] at added
    cases added
  | some sig =>
    rw [signature] at added
    obtain ⟨⟨⟩, s₁, lifted, added⟩ := Exec.exists_of_run_bind added
    rw [session.run_lift] at lifted
    cases required : sig.requireFixedArity with
    | error e =>
      rw [required] at lifted
      cases lifted
    | ok =>
      have fixed := Signature.fixed_of_requireFixedArity required
      obtain ⟨other, s₂, -, added⟩ := Exec.exists_of_run_bind added
      cases other with
      | none =>
        cases added
        exact ⟨⟨f, sig⟩, by simp [overload?, signature, fixed], rfl⟩
      | some other =>
        obtain ⟨_, s₃, -, added⟩ := Exec.exists_of_run_bind added
        rw [session.fail, Exec.run_fail] at added
        cases added

/-- The functions that were not refused, in order of registration. -/
def accepted (steps : List (World × Function × Option Fault)) : List Function :=
  steps.filterMap fun (_, f, outcome) => if outcome.isNone then some f else none

theorem accepted_append (steps : List (World × Function × Option Fault)) (w : World) (f : Function)
    (outcome : Option Fault) :
    accepted (steps ++ [(w, f, outcome)]) = accepted steps ++ if outcome.isNone then [f] else [] := by
  rw [accepted, List.filterMap_append]
  cases outcome <;> rfl

/-- Whatever predicates do, a set keeps its name, its members are the functions that were not refused, and
they can be inspected and take a fixed number of arguments. -/
theorem Grown.filed {h : Host Exec} (session : h.InSession) {name : String}
    {steps : List (World × Function × Option Fault)} {set : OverloadSet} (grown : Grown h name steps set) :
    set.name = name ∧ set.Filed ∧ set.overloads.map (·.function) = accepted steps := by
  induction grown with
  | nil => exact ⟨rfl, ⟨nofun, nofun⟩, rfl⟩
  | snoc _ step ih =>
    obtain ⟨same, filed, members⟩ := ih
    rw [accepted_append, ← members]
    cases step with
    | added added =>
      obtain ⟨o, accepted, rfl⟩ := of_run_add session added
      obtain ⟨rfl, -⟩ := of_overload?_eq_some accepted
      exact ⟨same, filed.append accepted, List.map_append⟩
    | refused => exact ⟨same, filed, (List.append_nil _).symm⟩

/-! ### With pure predicates -/

section steady

variable {tests : World → Predicate → Value → Except String Bool} {w : World} {o other : Overload}

/-- A predicate gives up in a comparison, or the comparison comes out as under a still host. -/
theorem ambiguous_steady {s t : Signature} (hs : s.WellMade) (ht : t.WellMade) :
    (∃ text, ambiguous (steady tests w) s t = .error (.panic text)) ∨
      ambiguous (steady tests w) s t = .ok (competes w (completed tests w) s t) := by
  have compared := (Host.steadySimulation tests w).ambiguous s t
  rw [ambiguous_still _ _ (hs.equalOption_comm ht)] at compared
  exact compared

/-- Overloads that are clear of each other do not compete. -/
theorem Clear.apart (clear : Clear (steady tests w) o other) (made : o.signature.WellMade)
    (made' : other.signature.WellMade) : Apart w (completed tests w) o other := by
  intro len
  rcases ambiguous_steady made made' with ⟨text, gaveUp⟩ | answered
  · rw [clear len] at gaveUp
    cases gaveUp
  · rw [clear len] at answered
    exact (Except.ok.inj answered).symm

/-- Overloads that do not compete are not ambiguous, unless a predicate gives up. -/
theorem Apart.not_ambiguous (apart : Apart w (completed tests w) o other)
    (len : o.signature.params.length = other.signature.params.length) (made : o.signature.WellMade)
    (made' : other.signature.WellMade) :
    ambiguous (steady tests w) o.signature other.signature ≠ .ok true := by
  intro competing
  rcases ambiguous_steady made made' with ⟨text, gaveUp⟩ | answered
  · rw [competing] at gaveUp
    cases gaveUp
  · rw [competing, apart len] at answered
    cases answered

end steady

section decides

variable {tests : World → Predicate → Value → Except String Bool} {h : Host Exec}
  (decides : Host.Decides tests h)

include decides

/-- What one registration comes to: the world stays as it is, and a member joins others that it is clear
of, or there is a reason to refuse it. -/
theorem Step.outcome {l : Logger} {set set' : OverloadSet} {s s' : Session} {f : Function}
    {outcome : Option Fault} (step : Step h l f (set, s) outcome (set', s')) :
    s'.world = s.world ∧
      match outcome with
      | none => ∃ o, overload? f = some o ∧
          (∀ other ∈ set.overloads, Clear (steady tests s.world) o other) ∧
          set' = ⟨set.name, set.overloads ++ [o]⟩
      | some fault => set' = set ∧
          Refusal (steady tests s.world) .error set.name set.signatures f fault := by
  obtain ⟨s₁, world, run⟩ := decides.add l s set f
  rcases add_cases (Host.raises_steady tests s.world) set f with
    ⟨o, accepted, clear, added⟩ | ⟨fault, refusal, refused⟩
  · rw [added] at run
    cases step with
    | added run' =>
      cases run.symm.trans run'
      exact ⟨world, o, accepted, clear, rfl⟩
    | refused run' => cases run.symm.trans run'
  · rw [refused] at run
    cases step with
    | added run' => cases run.symm.trans run'
    | refused run' =>
      cases run.symm.trans run'
      exact ⟨world, rfl, refusal⟩

/-- Each two members of a set were compared when the second one was added, and were clear of each other in
the world of that time. -/
theorem Grown.clear {name : String} {steps : List (World × Function × Option Fault)} {set : OverloadSet}
    (grown : Grown h name steps set) (made : ∀ step ∈ steps, ∀ t ∈ step.2.1.signature, t.WellMade) :
    (∀ o ∈ set.overloads, o.signature.WellMade) ∧
      set.overloads.Pairwise fun o other =>
        ∃ w, (w, other.function, none) ∈ steps ∧ Clear (steady tests w) other o := by
  induction grown with
  | nil => exact ⟨nofun, .nil⟩
  | @snoc steps set set' l s s' f outcome _ step ih =>
    rw [List.forall_mem_append, List.forall_mem_singleton] at made
    obtain ⟨madeSet, clear⟩ := ih made.1
    -- comparisons that were made stay made, also if this function is refused
    have before : set.overloads.Pairwise fun o other =>
        ∃ w, (w, other.function, none) ∈ steps ++ [(s.world, f, outcome)] ∧
          Clear (steady tests w) other o :=
      clear.imp fun ⟨w, hw, clear⟩ => ⟨w, List.mem_append_left _ hw, clear⟩
    obtain ⟨-, comes⟩ := step.outcome decides
    cases outcome with
    | some fault =>
      obtain ⟨rfl, -⟩ := comes
      exact ⟨madeSet, before⟩
    | none =>
      obtain ⟨o, accepted, free, rfl⟩ := comes
      obtain ⟨rfl, signed, -⟩ := of_overload?_eq_some accepted
      refine ⟨List.forall_mem_append.2 ⟨madeSet, List.forall_mem_singleton.2 (made.2 _ signed)⟩, ?_⟩
      refine List.pairwise_append.2 ⟨before, List.pairwise_singleton _ _, fun other hother q hq => ?_⟩
      cases List.mem_singleton.1 hq
      exact ⟨_, List.mem_append_right _ List.mem_cons_self, free other hother⟩

end decides

/-! ## Choice -/

/-- The function that arguments choose in a session, or the fault that ends the choice. -/
def chosen (h : Host Exec) (set : OverloadSet) (args : List Value) (l : Logger) (s : Session) :
    Except Fault Function :=
  ((set.resolve h args).answer l s).map (·.1.function)

section judges

variable {h : Host Exec} {p : World → Probe Id} (judges : h.Judges p)

include judges

/-- In a session with pure predicates the function is chosen in the world of the session. -/
theorem chosen_eq {l : Logger} {t : Session} {set : OverloadSet} {args : List Value} :
    set.chosen h args l t =
      match set.choice? t.world (p t.world) args with
      | some o => .ok o.function
      | none => .error (.error (.functionNotFound set.name (args.map (·.classOf.name)))) := by
  obtain ⟨s', -, run⟩ := (judges.callSimulation t.world).resolve set args l t rfl
  rw [chosen, Exec.answer_of_ended run]
  cases choice : set.choice? t.world (p t.world) args with
  | some o =>
    obtain ⟨found, resolved, function⟩ := exists_ok_of_map (resolve_of_choice?_eq_some choice)
    rw [resolved]
    exact congrArg Except.ok function
  | none =>
    rw [resolve_of_choice?_eq_none choice]
    rfl

theorem answer_applicable {l : Logger} {t : Session} {signature : Signature} {args : List Value} :
    (applicable h signature args).answer l t = .ok (accepts t.world (p t.world) signature args) := by
  obtain ⟨s', -, run⟩ := (judges.callSimulation t.world).applicable signature args l t rfl
  rw [Exec.answer_of_ended run, applicable_still]
  rfl

end judges

section choice

variable {w : World} {p : Probe Id} {set : OverloadSet} {args : List Value} {o : Overload}

/-- A new member is a candidate after the old ones, if it accepts the arguments. -/
theorem candidates_append :
    candidates w p ⟨set.name, set.overloads ++ [o]⟩ args = set.candidates w p args ++
      if o.signature.params.length == args.length && accepts w p o.signature args then [o] else [] := by
  unfold candidates
  rw [List.filter_append, List.filter_singleton, Bool.cond_eq_ite]

/-- A new member that does not accept the arguments changes nothing. -/
theorem choice?_append_of_unsuited (unsuited : ¬ (o.signature.params.length = args.length ∧
      accepts w p o.signature args)) :
    choice? w p ⟨set.name, set.overloads ++ [o]⟩ args = set.choice? w p args := by
  have same : candidates w p ⟨set.name, set.overloads ++ [o]⟩ args = set.candidates w p args := by
    rw [candidates_append, if_neg (by simpa using unsuited), List.append_nil]
  unfold choice?
  rw [same]

/-- Where at most one old member leads, an old one that is chosen beside a new one was chosen before. -/
theorem choice?_append (unique : OneLeads (still w p) set args) :
    choice? w p ⟨set.name, set.overloads ++ [o]⟩ args = some o ∨
      choice? w p ⟨set.name, set.overloads ++ [o]⟩ args = none ∨
      ∃ x, set.choice? w p args = some x ∧
        choice? w p ⟨set.name, set.overloads ++ [o]⟩ args = some x := by
  cases choice : choice? w p ⟨set.name, set.overloads ++ [o]⟩ args with
  | none => exact .inr (.inl rfl)
  | some x =>
    have leading := List.find?_some choice
    have candidate := List.mem_of_find?_eq_some choice
    rw [candidates_append, List.mem_append] at candidate
    rcases candidate with old | new
    · -- what leads the old members and the new one leads the old ones
      right
      right
      rw [candidates_append, leads, List.all_append, Bool.and_eq_true] at leading
      have member := (mem_candidates_iff.1 old).1
      have hleads := (leads_iff old).1 leading.1
      obtain ⟨y, before⟩ := exists_choice? member hleads
      obtain ⟨member', hleads'⟩ := leads_of_choice? before
      cases unique x member y member' hleads hleads'
      exact ⟨x, before, rfl⟩
    · left
      split at new
      · rw [List.mem_singleton.1 new]
      · cases new

end choice

/-! ## Additions -/

section additions

variable {h : Host Exec} {p : World → Probe Id} (judges : h.Judges p) {name : String}
  {steps : List (World × Function × Option Fault)} {set : OverloadSet} (grown : Grown h name steps set)
  (made : ∀ step ∈ steps, ∀ t ∈ step.2.1.signature, t.WellMade)

include judges grown made

/-- At most one member leads as long as the signatures are settled since they were added. -/
theorem Grown.oneLeads {w : World}
    (settled : ∀ step ∈ steps, step.2.2 = none → Settled p (set.overloads.map (·.signature)) step.1 w)
    (args : List Value) :
    OneLeads (still w (p w)) set args := by
  obtain ⟨madeSet, clear⟩ := grown.clear judges.decides made
  refine oneLeads_of_apart (clear.imp_of_mem fun {o other} ho hother ⟨v, hv, clear⟩ => ?_) args
  have before : Apart v (p v) other o := clear.apart (madeSet other hother) (madeSet o ho)
  exact (before.of_settled (settled _ hv rfl) (List.mem_map_of_mem hother) (List.mem_map_of_mem ho)).symm

/-- What a function that is added does to a call. If it has another number of parameters or does not accept
the arguments, the call goes where it went before. If at most one old member leads, the call goes to the
new function, or to none, or where it went before. At most one old member leads as long as the signatures
are settled since they were added. -/
theorem add_never_redirects {g : Function} {set' : OverloadSet} {l l₁ l₂ : Logger} {s s' t t' : Session}
    (added : Step h l g (set, s) none (set', s')) (here : t'.world = t.world) (args : List Value) :
    (∀ signature ∈ g.signature, signature.params.length ≠ args.length ∨
        (applicable h signature args).answer l₂ t' = .ok false →
      set'.chosen h args l₂ t' = set.chosen h args l₁ t) ∧
    (OneLeads (still t.world (p t.world)) set args →
      set'.chosen h args l₂ t' = .ok g ∨
        set'.chosen h args l₂ t' = .error (.error (.functionNotFound name (args.map (·.classOf.name)))) ∨
        ∃ f, set.chosen h args l₁ t = .ok f ∧ set'.chosen h args l₂ t' = .ok f) ∧
    ((∀ step ∈ steps, step.2.2 = none → Settled p (set.overloads.map (·.signature)) step.1 t.world) →
      OneLeads (still t.world (p t.world)) set args) := by
  obtain ⟨same, -⟩ := grown.filed judges.toInSession
  cases added with
  | added added =>
    obtain ⟨o, accepted, rfl⟩ := of_run_add judges.toInSession added
    obtain ⟨rfl, signed, -⟩ := of_overload?_eq_some accepted
    rw [chosen_eq judges, chosen_eq judges, here]
    refine ⟨?_, ?_, fun settled => grown.oneLeads judges made settled args⟩
    · intro signature hsignature unsuited
      cases signed.symm.trans hsignature
      rw [answer_applicable judges, here] at unsuited
      rw [choice?_append_of_unsuited (o := o)]
      rintro ⟨arity, accepted⟩
      rcases unsuited with other | refused
      · exact other arity
      · rw [accepted] at refused
        cases refused
    · intro unique
      rcases choice?_append (o := o) unique with new | none | ⟨x, before, after⟩
      · left
        rw [new]
      · right
        left
        rw [none, ← same]
      · right
        right
        exact ⟨x.function, by rw [before], by rw [after]⟩

end additions

/-- A function for integers joins one for anything. A text goes to the latter before and after; no two
members lead there. -/
theorem show_add_never_redirects :
    let h : Host Exec := ⟨Exec.world, fun _ _ => return false, fun _ _ _ => return .null,
      Exec.declare, Exec.log, Exec.fail⟩
    let l : Logger := ⟨some .warn, false⟩
    let showAny : Function :=
      ⟨.declared 20 "show", some ⟨[⟨"x", .positional, none, none⟩], none⟩, .host 0⟩
    let showInt : Function :=
      ⟨.declared 21 "show", some ⟨[⟨"x", .positional, some (.plain .int), none⟩], none⟩, .host 1⟩
    h.Judges (fun _ => ⟨fun _ _ => false, fun _ => ()⟩) ∧ ∃ set set' s s',
      Grown h "show" [(.initial, showAny, none)] set ∧ Step h l showInt (set, s) none (set', s') ∧
      set.chosen h [.str "text"] l s = .ok showAny ∧
      set'.chosen h [.str "text"] l s' = .ok showAny ∧
      OneLeads (still .initial ⟨fun _ _ => false, fun _ => ()⟩) set [.str "text"] := by
  intro h l showAny showInt
  let p : World → Probe Id := fun _ => ⟨fun _ _ => false, fun _ => ()⟩
  have judges : h.Judges p := ⟨⟨rfl, rfl, rfl, fun _ => rfl⟩, fun _ _ _ _ => ⟨_, rfl⟩⟩
  let anything : Signature := ⟨[⟨"x", .positional, none, none⟩], none⟩
  let integer : Signature := ⟨[⟨"x", .positional, some (.plain .int), none⟩], none⟩
  let set : OverloadSet := ⟨"show", [⟨showAny, anything⟩]⟩
  have madeAny : anything.WellMade := by
    simp [anything, Signature.WellMade, Signature.annotations]
  have madeInt : integer.WellMade := by
    simp [integer, Signature.WellMade, Signature.annotations, Conformance.wellMade_plain]
  obtain ⟨s, hs, first⟩ := (judges.callSimulation .initial).add (.empty "show") showAny l .initial rfl
  have grown : Grown h "show" [(.initial, showAny, none)] set := .snoc .nil (.added first)
  obtain ⟨s', hs', second⟩ := (judges.callSimulation .initial).add set showInt l s hs
  have apart : Apart .initial (p .initial) ⟨showInt, integer⟩ ⟨showAny, anything⟩ := by
    simp [anything, integer, Apart, competes, same, strictlyBelow, Signature.annotations,
      TypeSpec.equalOption, annotationConforms]
  have registered : set.add (still .initial (p .initial)) showInt =
      .ok ⟨"show", set.overloads ++ [⟨showInt, integer⟩]⟩ :=
    (add_still_iff (by simpa [showInt] using madeInt) (by simpa [set] using madeAny)).2
      ⟨⟨showInt, integer⟩, rfl, by simpa [set] using apart, rfl⟩
  rw [registered] at second
  have step : Step h l showInt (set, s) none (⟨"show", set.overloads ++ [⟨showInt, integer⟩]⟩, s') :=
    .added second
  have before : set.chosen h [.str "text"] l s = .ok showAny := by
    rw [chosen_eq judges]
    simp [set, anything, choice?, candidates, leads, accepts, asSpecific, Signature.annotations,
      annotationConforms]
  have unsuited : (applicable h integer [.str "text"]).answer l s' = .ok false := by
    have foreign : Class.str.isSubclassOf .int = false := by decide
    rw [answer_applicable judges]
    simp [accepts, integer, Signature.annotations, Conformance.satisfies, Value.classOf, foreign]
  obtain ⟨kept, -, settled⟩ :=
    @add_never_redirects h p judges "show" _ set grown (by simpa [showAny] using madeAny) showInt _ l l l
      s s' s s' step (hs'.trans hs.symm) [.str "text"]
  have unique := settled fun step hstep _ => by
    cases List.mem_singleton.1 hstep
    rw [hs]
    exact .refl _ _ _
  rw [hs] at unique
  have after := (kept integer rfl (.inr unsuited)).trans before
  exact ⟨judges, set, _, s, s', grown, step, before, after, unique⟩

/-! ## Additions after a write -/

theorem forall_mem_pair {α : Type} {P : α → Prop} {a b : α} (ha : P a) (hb : P b) : ∀ x ∈ [a, b], P x :=
  List.forall_mem_cons.2 ⟨ha, List.forall_mem_singleton.2 hb⟩

/-- Of two overloads that are as specific as each other the first one is chosen. When a third one joins them
that only the second one is as specific as, the second one is chosen. -/
theorem choice?_redirected {w : World} {p : Probe Id} {name : String} {o o' added : Overload}
    {args : List Value} (suits : Suits (still w p) args o) (suits' : Suits (still w p) args o')
    (joins : Suits (still w p) args added) (below : asSpecific w p o.signature o'.signature)
    (above : asSpecific w p o'.signature o.signature) (only : asSpecific w p o'.signature added.signature)
    (unrelated : ¬ asSpecific w p o.signature added.signature) :
    choice? w p ⟨name, [o, o']⟩ args = some o ∧ choice? w p ⟨name, [o, o', added]⟩ args = some o' := by
  refine ⟨choice?_pair suits below, @choice?_of_leads w p args name [o] [added] o' ?_ ⟨suits', ?_⟩⟩
  · intro q hq leads
    cases List.mem_singleton.1 hq
    have conforms := leads.2 added (by simp) joins
    rw [atLeastAsSpecific_still, Except.ok.injEq] at conforms
    exact unrelated conforms
  · intro q hq _
    rw [atLeastAsSpecific_still, Except.ok.injEq]
    rcases hq with _ | ⟨_, _ | ⟨_, _ | ⟨_, ⟨⟩⟩⟩⟩
    exacts [above, asSpecific_refl .., only]

/-- Two functions lead after a write, and the first of them is chosen. A third one is added that only the
second is as specific as; then the second is chosen. -/
theorem not_add_never_redirects :
    ¬ ∀ (w : World) (writes : List AttributeWrite) (p : World → Probe Id) (name : String)
        (fs : List Function) (g : Function) (a a' : OverloadSet) (args : List Value),
      (∀ f ∈ g :: fs, ∀ s ∈ f.signature, s.WellMade) → register (still w (p w)) name fs = .ok a →
      let k := still (w.write writes) (p (w.write writes))
      a.add k g = .ok a' →
      (a'.resolve k args).map (·.1.function) = .ok g ∨
        a'.resolve k args = .error (.functionNotFound name (args.map (·.classOf.name))) ∨
        (a'.resolve k args).map (·.1.function) = (a.resolve k args).map (·.1.function) := by
  intro kept
  let p : World → Probe Id := fun _ => ⟨fun _ _ => false, fun _ => ()⟩
  obtain ⟨object, wide, narrow, made, made', unrelated, before, ⟨below, above⟩, whole, part⟩ :=
    exists_unsettled p
  -- the two sets of one number are equal specs, but only the second one conforms to `int`
  let ones : TypeSpec := .oneOf 3 [.float ⟨0x3ff0000000000000⟩]
  let ones' : TypeSpec := .oneOf 4 [.int 1]
  have equal : same (some ones) (some ones') := by decide +kernel
  have foreign : ∀ w, ¬ (isSubtype w (p w) (.plain .int) ones).run ∧
      ¬ (isSubtype w (p w) (.plain .int) ones').run :=
    fun w => ⟨not_isSubtype_options rfl, not_isSubtype_options rfl⟩
  let signature : Signature := .positional [("v", wide), ("n", ones)]
  let signature' : Signature := .positional [("v", narrow), ("n", ones')]
  let classes : Signature := .positional [("v", .plain .object), ("n", .plain .int)]
  let o : Overload := ⟨⟨.declared 21 "show", some signature, .host 1⟩, signature⟩
  let o' : Overload := ⟨⟨.declared 22 "show", some signature', .host 2⟩, signature'⟩
  let g : Overload := ⟨⟨.declared 23 "show", some classes, .host 3⟩, classes⟩
  have madeO : o.signature.WellMade := Signature.wellMade_positional
    (forall_mem_pair made (wellMade_oneOf 3 (List.forall_mem_singleton.2 (.float _))))
  have madeO' : o'.signature.WellMade := Signature.wellMade_positional
    (forall_mem_pair made' (wellMade_oneOf 4 (List.forall_mem_singleton.2 (.int 1))))
  have madeG : g.signature.WellMade := Signature.wellMade_positional
    (forall_mem_pair (wellMade_plain .object) (wellMade_plain .int))
  have madeAll : ∀ f ∈ [g.function, o.function, o'.function], ∀ s ∈ f.signature, s.WellMade := by
    rintro _ (_ | ⟨_, _ | ⟨_, _ | ⟨_, ⟨⟩⟩⟩⟩) s ⟨⟩
    exacts [madeG, madeO, madeO']
  have registered := @register_pair .initial (p .initial) "show" o o' rfl rfl madeO madeO'
    fun _ => not_competes_positional before (List.forall_mem_singleton.2 (.inl equal))
  let w : World := World.initial.write [.set object "x" (.int 1)]
  have apart : ∀ other ∈ [o, o'], Apart w (p w) g other :=
    forall_mem_pair
      (fun _ => not_competes_positional (unrelated w).1 (List.forall_mem_singleton.2 (.inr (foreign w).1)))
      fun _ => not_competes_positional (unrelated w).2 (List.forall_mem_singleton.2 (.inr (foreign w).2))
  have added : add (still w (p w)) ⟨"show", [o, o']⟩ g.function = .ok ⟨"show", [o, o', g]⟩ :=
    (add_still_iff (madeAll _ List.mem_cons_self)
      (forall_mem_pair (P := fun x : Overload => x.signature.WellMade) madeO madeO')).2 ⟨g, rfl, apart, rfl⟩
  have suits : ∀ {s t}, (satisfies w (p w) (.object object) s).run → (satisfies w (p w) (.int 1) t).run →
      accepts w (p w) (.positional [("v", s), ("n", t)]) [.object object, .int 1] :=
    fun hs ht => accepts_positional_iff.2 (forall_mem_pair hs ht)
  have specific : ∀ {s t s' t'}, (isSubtype w (p w) s s').run → (isSubtype w (p w) t t').run →
      asSpecific w (p w) (.positional [("v", s), ("n", t)]) (.positional [("v", s'), ("n", t')]) :=
    fun hs ht => asSpecific_positional_iff.2 (forall_mem_pair hs ht)
  have one : (satisfies w (p w) (.int 1) ones).run ∧ (satisfies w (p w) (.int 1) ones').run := by
    show (satisfies w (p w) _ (.options 3 _)).run ∧ (satisfies w (p w) _ (.options 4 _)).run
    rw [satisfies_options, satisfies_options]
    decide +kernel
  have integer : (satisfies w (p w) (.int 1) (.plain .int)).run := by
    rw [satisfies_plain]
    decide
  -- of the two only the second is as specific as the signature of classes
  have number : ¬ asSpecific w (p w) signature classes := by
    intro conforms
    have second := asSpecific_positional_iff.1 conforms _ (.tail _ (.head _))
    exact Bool.false_ne_true (options_isSubtype_plain_iff.1 second _ (.head _))
  obtain ⟨before, after⟩ := @choice?_redirected w (p w) "show" o o' g [.object object, .int 1]
    (suits_iff.2 ⟨rfl, suits whole one.1⟩) (suits_iff.2 ⟨rfl, suits part one.2⟩)
    (suits_iff.2 ⟨rfl, suits (satisfies_of_isTop rfl _) integer⟩)
    (specific below (isSubtype_of_equal (by decide +kernel)))
    (specific above (isSubtype_of_equal (by decide +kernel)))
    (specific (isSubtype_of_isTop rfl) (options_isSubtype_plain_iff.2 (by decide +kernel))) number
  have resolved := resolve_of_choice?_eq_some before
  have resolved' := resolve_of_choice?_eq_some after
  rcases kept .initial [.set object "x" (.int 1)] p "show" _ _ _ _ [.object object, .int 1] madeAll registered
    added with new | none | same
  · cases congrArg (·.toOption.map Function.callable) (resolved'.symm.trans new)
  · rw [none] at resolved'
    cases resolved'
  · cases congrArg (·.toOption.map Function.callable) (resolved'.symm.trans (same.trans resolved))

end OverloadSet

end TypeContracts
