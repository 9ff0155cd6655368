import TypeContracts.Call.Run
import TypeContracts.Proofs.Conformance.Simulation
import TypeContracts.Proofs.Session

/-!
What a call of an enforced function comes to, if predicates are pure and always answer. The arguments are
bound, the checklist is gone through up to the first item that does not fit, the body runs, and its
result is checked in the world that the body leaves behind. Main statement: `Enforcement.wrap_outcome`.
-/

namespace TypeContracts

namespace Host

/-- What a check does to a session: a predicate is asked and answers, or a record is logged. -/
inductive Inquiry (h : Host Exec) (l : Logger) : Session → Session → Prop where
  | test {r : Predicate} {v : Value} {answer : Bool} {s s' : Session}
      (asked : ((h.test r v).run l).run s = .ok answer s') : Inquiry h l s s'
  | log {level : Level} {target : String} {message : Unit → String} {s s' : Session}
      (logged : ((h.log level target message).run l).run s = .ok () s') : Inquiry h l s s'

/-- Any number of inquiries, one after the other. -/
def Inquiries (h : Host Exec) (l : Logger) : Session → Session → Prop :=
  Relation.ReflTransGen (h.Inquiry l)

/-- The host works in a session, and its predicates are pure and total: in every world they answer as
`p` says, and they leave the world as it is. -/
structure Judges (h : Host Exec) (p : World → Probe Id) : Prop extends h.InSession where
  test : ∀ r v (l : Logger) (s : Session),
    ∃ notes, ((h.test r v).run l).run s = .ok ((p s.world).test r v).run ⟨s.world, notes⟩

namespace Judges

variable {h : Host Exec} {p : World → Probe Id} {l : Logger} {s s' : Session}

theorem world_of_inquiry (judges : h.Judges p) (step : h.Inquiry l s s') : s'.world = s.world := by
  cases step with
  | @test r v answer _ _ asked =>
    obtain ⟨notes, answered⟩ := judges.test r v l s
    rw [asked] at answered
    cases answered
    rfl
  | @log level target message _ _ logged =>
    obtain ⟨_, same, printed⟩ := judges.exists_logged l s level target message
    rw [logged] at printed
    cases printed
    exact same

theorem world_of_inquiries (judges : h.Judges p) (steps : h.Inquiries l s s') :
    s'.world = s.world := by
  induction steps with
  | refl => rfl
  | tail _ step ih => exact (judges.world_of_inquiry step).trans ih

/-- In a session a check inquires and comes out as the pure one does in the world of the session. -/
def simulation (judges : h.Judges p) (w : World) : Probe.Simulation w h.probe w (p w) where
  Rel x y := ∀ l s, s.world = w → ∃ s', h.Inquiries l s s' ∧ (x.run l).run s = .ok y.run s'
  pure a l s _ := ⟨s, .refl, rfl⟩
  bind := by
    intro α β x y f g hx hf l s here
    obtain ⟨s₁, first, run⟩ := hx l s here
    obtain ⟨s₂, second, rest⟩ := hf y.run l s₁ ((judges.world_of_inquiries first).trans here)
    exact ⟨s₂, first.trans second, (Exec.run_bind_of_ok run).trans rest⟩
  explain message l s _ := by
    obtain ⟨s', -, logged⟩ := judges.exists_logged l s .trace "conform::check::matcher" message
    exact ⟨s', .single (.log logged), logged⟩

theorem satisfies (judges : h.Judges p) (v : Value) (spec : TypeSpec) (l : Logger) (s : Session) :
    ∃ s', h.Inquiries l s s' ∧
      ((h.satisfies v spec).run l).run s =
        .ok (Conformance.satisfies s.world (p s.world) v spec).run s' := by
  have test : ∀ r v, (judges.simulation s.world).Rel (h.test r v) ((p s.world).test r v) := by
    intro r v l t here
    obtain ⟨notes, answered⟩ := judges.test r v l t
    rw [here] at answered
    exact ⟨_, .single (.test answered), answered⟩
  have agrees : spec.Everywhere (judges.simulation s.world).Agrees := fun x _ =>
    Probe.Simulation.agrees_of_test test x
  obtain ⟨s', steps, run⟩ := (judges.simulation s.world).satisfies v agrees l s rfl
  refine ⟨s', steps, ?_⟩
  rw [Host.satisfies, judges.world, Exec.run_world_bind, run]

end Judges

end Host

namespace Enforcement

/-- Whether a value gets past an annotation: it is absent and that may be, or it satisfies it. -/
def passes (config : EnforceConfig) (w : World) (p : Probe Id) (spec : TypeSpec) (v : Value) : Bool :=
  config.nonePasses && v.isNull || (Conformance.satisfies w p v spec).run

/-- The first item on the checklist that does not pass, if arguments are checked. -/
def refused? (config : EnforceConfig) (w : World) (p : Probe Id) (signature : Signature)
    (bound : List Value) : Option (String × TypeSpec × Value) :=
  if config.checkArguments then
    (checklist signature.params bound).find? fun (_, spec, v) => !passes config w p spec v
  else none

/-- What the result has to satisfy, if results are checked. -/
def demanded? (config : EnforceConfig) (signature : Signature) : Option TypeSpec :=
  if config.checkReturn then signature.returns else none

/-- What a call of an enforced function comes to: the function `f` of the given signature, called in the
session `s`. -/
inductive Outcome (h : Host Exec) (p : World → Probe Id) (config : EnforceConfig) (f : Function)
    (signature : Signature) (args : Args) (l : Logger) (s : Session) :
    EStateM.Result Fault Session Value → Prop where
  /-- The arguments cannot be bound, and nothing else happens. -/
  | unbound {e : Error} (binding : signature.bind args = .error e) :
      Outcome h p config f signature args l s (.error (.error e) s)
  /-- An item on the checklist does not pass; all that happened are inquiries. -/
  | refused {bound : List Value} {name : String} {spec : TypeSpec} {v : Value} {s' : Session}
      (binding : signature.bind args = .ok bound)
      (first : refused? config s.world (p s.world) signature bound = some (name, spec, v))
      (checks : h.Inquiries l s s') :
      Outcome h p config f signature args l s
        (.error (.error (.typeMismatch name spec v.classOf.name)) s')
  /-- The body fails, and its result is not checked. -/
  | failed {bound : List Value} {fault : Fault} {s₁ s₂ : Session}
      (binding : signature.bind args = .ok bound)
      (passed : refused? config s.world (p s.world) signature bound = none)
      (checks : h.Inquiries l s s₁) (body : ((f.action.run h bound).run l).run s₁ = .error fault s₂) :
      Outcome h p config f signature args l s (.error fault s₂)
  /-- The body returns something that does not pass. -/
  | mismatched {bound : List Value} {r : Value} {spec : TypeSpec} {s₁ s₂ s₃ : Session}
      (binding : signature.bind args = .ok bound)
      (passed : refused? config s.world (p s.world) signature bound = none)
      (checks : h.Inquiries l s s₁) (body : ((f.action.run h bound).run l).run s₁ = .ok r s₂)
      (demanded : demanded? config signature = some spec)
      (unfit : passes config s₂.world (p s₂.world) spec r = false) (check : h.Inquiries l s₂ s₃) :
      Outcome h p config f signature args l s
        (.error (.error (.typeMismatch "return value" spec r.classOf.name)) s₃)
  /-- The body returns what it may. -/
  | returned {bound : List Value} {r : Value} {s₁ s₂ s₃ : Session}
      (binding : signature.bind args = .ok bound)
      (passed : refused? config s.world (p s.world) signature bound = none)
      (checks : h.Inquiries l s s₁) (body : ((f.action.run h bound).run l).run s₁ = .ok r s₂)
      (fits : ∀ spec ∈ demanded? config signature, passes config s₂.world (p s₂.world) spec r)
      (check : h.Inquiries l s₂ s₃) :
      Outcome h p config f signature args l s (.ok r s₃)

/-- The check of a result, with the result that it lets through. -/
def checkResult {m : Type → Type} [Monad m] (h : Host m) (config : EnforceConfig) (function : String)
    (signature : Signature) (r : Value) : m Value :=
  match demanded? config signature with
  | some spec => do
      checkValue h config function "return value" spec r
      return r
  | none => return r

/-- The checks before the body and the check after it. -/
theorem checked_eq {m : Type → Type} [Monad m] (h : Host m) (config : EnforceConfig)
    (function : String) (signature : Signature) (body : List Value → m Value) (bound : List Value) :
    checked h config function signature body bound =
      if config.checkArguments then do
        (checklist signature.params bound).forM fun (name, spec, v) =>
          checkValue h config function name spec v
        body bound >>= checkResult h config function signature
      else body bound >>= checkResult h config function signature := by
  have result : checkResult h config function signature = fun r =>
      if config.checkReturn then
        match signature.returns with
        | some spec => do
            checkValue h config function "return value" spec r
            return r
        | none => return r
      else return r := by
    funext r
    rw [checkResult, demanded?]
    cases config.checkReturn <;> rfl
  rw [result, checked]
  cases signature.returns <;> rfl

section checks

variable {h : Host Exec} {p : World → Probe Id} (judges : h.Judges p) (config : EnforceConfig)
  (function : String) (l : Logger)

include judges

theorem checkValue_outcome (target : String) (spec : TypeSpec) (v : Value) (s : Session) :
    ∃ s', h.Inquiries l s s' ∧ ((checkValue h config function target spec v).run l).run s =
      if passes config s.world (p s.world) spec v then .ok () s'
      else .error (.error (.typeMismatch target spec v.classOf.name)) s' := by
  rw [checkValue, passes]
  by_cases absent : (config.nonePasses && v.isNull) = true
  · refine ⟨s, .refl, ?_⟩
    rw [if_pos absent, absent, Bool.true_or, if_pos rfl, Exec.run_pure]
  rw [if_neg absent, Bool.eq_false_iff.2 absent, Bool.false_or]
  obtain ⟨s₁, asked, answered⟩ := judges.satisfies v spec l s
  by_cases fits : (Conformance.satisfies s.world (p s.world) v spec).run = true
  · refine ⟨s₁, asked, ?_⟩
    rw [Exec.run_bind_of_ok answered, if_pos fits, if_pos fits, Exec.run_pure]
  · obtain ⟨s₂, -, logged⟩ := judges.exists_logged l s₁ .debug logTarget _
    refine ⟨s₂, asked.tail (.log logged), ?_⟩
    rw [Exec.run_bind_of_ok answered, if_neg fits, if_neg fits, Exec.run_bind_of_ok logged,
      judges.fail, Exec.run_fail]

/-- Going through a checklist ends with the first item that does not pass. -/
theorem checklist_outcome (items : List (String × TypeSpec × Value)) (s : Session) :
    ∃ s', h.Inquiries l s s' ∧
      ((items.forM fun (name, spec, v) => checkValue h config function name spec v).run l).run s =
        match items.find? fun x => !passes config s.world (p s.world) x.2.1 x.2.2 with
        | none => .ok () s'
        | some (name, spec, v) => .error (.error (.typeMismatch name spec v.classOf.name)) s' := by
  induction items generalizing s with
  | nil => exact ⟨s, .refl, rfl⟩
  | cons x rest ih =>
    obtain ⟨name, spec, v⟩ := x
    obtain ⟨s₁, asked, first⟩ := checkValue_outcome judges config function l name spec v s
    by_cases fits : passes config s.world (p s.world) spec v = true
    · rw [if_pos fits] at first
      obtain ⟨s₂, others, outcome⟩ := ih s₁
      rw [judges.world_of_inquiries asked] at outcome
      refine ⟨s₂, asked.trans others, ?_⟩
      rw [List.find?_cons_of_neg (by simp [fits])]
      exact (Exec.run_bind_of_ok first).trans outcome
    · rw [if_neg fits] at first
      refine ⟨s₁, asked, ?_⟩
      rw [List.find?_cons_of_pos (by simp [fits])]
      exact Exec.run_bind_of_error first

variable (signature : Signature)

/-- What is done once the arguments are checked is done only if none of them was refused. -/
theorem arguments_outcome (bound : List Value) (body : Exec Value) (s : Session) :
    ∃ s', h.Inquiries l s s' ∧
      ((if config.checkArguments then do
          (checklist signature.params bound).forM fun (name, spec, v) =>
            checkValue h config function name spec v
          body
        else body).run l).run s =
        match refused? config s.world (p s.world) signature bound with
        | none => (body.run l).run s'
        | some (name, spec, v) => .error (.error (.typeMismatch name spec v.classOf.name)) s' := by
  rw [refused?]
  by_cases checks : config.checkArguments = true
  · rw [if_pos checks, if_pos checks]
    obtain ⟨s', asked, outcome⟩ :=
      checklist_outcome judges config function l (checklist signature.params bound) s
    refine ⟨s', asked, ?_⟩
    generalize (checklist signature.params bound).find? _ = refused at outcome ⊢
    cases refused with
    | none => exact Exec.run_bind_of_ok outcome
    | some x => exact Exec.run_bind_of_error outcome
  · rw [if_neg checks, if_neg checks]
    exact ⟨s, .refl, rfl⟩

/-- A result that passes is returned. -/
theorem result_outcome (r : Value) (s : Session) :
    ∃ s', h.Inquiries l s s' ∧
      ((checkResult h config function signature r).run l).run s =
        match demanded? config signature with
        | none => .ok r s'
        | some spec =>
            if passes config s.world (p s.world) spec r then .ok r s'
            else .error (.error (.typeMismatch "return value" spec r.classOf.name)) s' := by
  rw [checkResult]
  cases demanded? config signature with
  | none => exact ⟨s, .refl, rfl⟩
  | some spec =>
    obtain ⟨s', asked, outcome⟩ :=
      checkValue_outcome judges config function l "return value" spec r s
    refine ⟨s', asked, ?_⟩
    by_cases fits : passes config s.world (p s.world) spec r = true
    · rw [if_pos fits] at outcome
      exact (Exec.run_bind_of_ok outcome).trans (if_pos fits).symm
    · rw [if_neg fits] at outcome
      exact (Exec.run_bind_of_error outcome).trans (if_neg fits).symm

variable {signature} {f : Function}

/-- Running the checked form of a function on bound arguments. -/
theorem checked_outcome {args : Args} {bound : List Value} {s : Session}
    (binding : signature.bind args = .ok bound) :
    Outcome h p config f signature args l s
      (((checked h config f.name signature (fun bound => f.action.run h bound) bound).run l).run
        s) := by
  obtain ⟨s₁, checks, run⟩ := arguments_outcome judges config f.name l signature bound
    (f.action.run h bound >>= checkResult h config f.name signature) s
  rw [checked_eq, run]
  cases first : refused? config s.world (p s.world) signature bound with
  | some x => exact .refused binding first checks
  | none =>
    show Outcome h p config f signature args l s
      (((f.action.run h bound >>= checkResult h config f.name signature).run l).run s₁)
    cases body : ((f.action.run h bound).run l).run s₁ with
    | error fault s₂ =>
      rw [Exec.run_bind_of_error body]
      exact .failed binding first checks body
    | ok r s₂ =>
      obtain ⟨s₃, check, outcome⟩ :=
        result_outcome judges config f.name l signature r s₂
      rw [Exec.run_bind_of_ok body, outcome]
      cases demanded : demanded? config signature with
      | none => exact .returned binding first checks body (by simp [demanded]) check
      | some spec =>
        dsimp only
        by_cases fits : passes config s₂.world (p s₂.world) spec r = true
        · rw [if_pos fits]
          exact .returned binding first checks body (by simpa [demanded] using fits) check
        · rw [if_neg fits]
          exact .mismatched binding first checks body demanded (Bool.eq_false_iff.2 fits) check

/-- Calling a function: its arguments are bound, and then its action runs on them. -/
theorem call_outcome_of_action {g : Function} (signed : g.signature = some signature) {args : Args}
    {s : Session}
    (outcome : ∀ bound, signature.bind args = .ok bound →
      Outcome h p config f signature args l s (((g.action.run h bound).run l).run s)) :
    Outcome h p config f signature args l s (((g.call h args).run l).run s) := by
  have bind : g.bind args = signature.bind args := by rw [Function.bind, signed]
  cases binding : signature.bind args with
  | error e =>
    rw [judges.run_call_of_error l s (bind.trans binding)]
    exact .unbound binding
  | ok bound =>
    rw [judges.run_call_of_ok l s (bind.trans binding)]
    exact outcome bound binding

/-- Calling the checked form of a function. -/
theorem call_outcome {g : Function} (signed : g.signature = some signature)
    (action : g.action = .checked config f.name signature f.action) (args : Args) (l : Logger)
    (s : Session) :
    Outcome h p config f signature args l s (((g.call h args).run l).run s) := by
  refine call_outcome_of_action judges config l signed fun bound binding => ?_
  rw [action, Action.run]
  exact checked_outcome judges config l binding

/-- A function with a signature can always be wrapped, and every call of what it is wrapped in has the
outcome of an enforced call. -/
theorem wrap_outcome (signed : f.signature = some signature) (s : Session) :
    ∃ g s', ((wrap h config f).run l).run s = .ok g s' ∧
      ∀ args l t, Outcome h p config f signature args l t (((g.call h args).run l).run t) := by
  obtain ⟨s₁, -, logged⟩ := judges.exists_logged l s .debug logTarget
    fun _ => "enforcing " ++ f.name ++ signature.render
  have wrapped : ((wrap h config f).run l).run s =
      ((Exec.declare f.name signature (.checked config f.name signature f.action)).run l).run s₁ := by
    rw [wrap, signed, ← judges.declare]
    exact Exec.run_bind_of_ok logged
  rw [wrapped, Exec.run_declare]
  exact ⟨_, _, rfl, call_outcome judges config rfl rfl⟩

end checks

/-- A function of an integer and any number of values that have to be given. Called with an integer and
an absent value it raises a mismatch of the collecting parameter, and the world stays as it is. -/
theorem collecting_wrap_outcome :
    let h : Host Exec :=
      ⟨Exec.world, fun _ v => do Exec.event "test"; return !v.isNull,
        fun _ _ args => return args.headD .null, Exec.declare, Exec.log, Exec.fail⟩
    let p : World → Probe Id := fun _ => ⟨fun _ v => !v.isNull, fun _ => ()⟩
    let given : TypeSpec := .predicate ⟨12, "given"⟩
    let signature : Signature :=
      ⟨[⟨"n", .positional, some (.plain .int), none⟩, ⟨"rest", .varPositional, some given, none⟩],
        some (.plain .int)⟩
    let f : Function := ⟨.declared 13 "first", some signature, .host 0⟩
    h.Judges p ∧ ∃ g s', ((wrap h .standard f).run ⟨none, false⟩).run .initial = .ok g s' ∧
      ∀ l t, ∃ t', t'.world = t.world ∧
        ((g.call h (.ofPositional [.int 1, .null])).run l).run t =
          .error (.error (.typeMismatch "rest" given "NoneType")) t' := by
  intro h p given signature f
  have judges : h.Judges p := ⟨⟨rfl, rfl, rfl, fun _ => rfl⟩, fun _ _ _ _ => ⟨_, rfl⟩⟩
  obtain ⟨g, s', wrapped, calls⟩ :=
    wrap_outcome judges .standard ⟨none, false⟩ (f := f) rfl .initial
  refine ⟨judges, g, s', wrapped, fun l t => ?_⟩
  have bound : signature.bind (.ofPositional [.int 1, .null]) = .ok [.int 1, .tuple [.null]] := rfl
  have absent : refused? .standard t.world (p t.world) signature [.int 1, .tuple [.null]] =
      some ("rest", given, .null) := by
    have integer : passes .standard t.world (p t.world) (.plain .int) (.int 1) = true := by
      rw [passes, Conformance.satisfies]
      rfl
    have missing : passes .standard t.world (p t.world) given .null = false := by
      rw [passes, Conformance.satisfies]
      rfl
    have items : checklist signature.params [.int 1, .tuple [.null]] =
        [("n", .plain .int, .int 1), ("rest", given, .null)] := rfl
    rw [refused?, if_pos (show EnforceConfig.standard.checkArguments = true from rfl), items,
      List.find?_cons_of_neg (by simp [integer]), List.find?_cons_of_pos (by simp [missing])]
  have outcome := calls (.ofPositional [.int 1, .null]) l t
  generalize ((g.call h (.ofPositional [.int 1, .null])).run l).run t = result at outcome ⊢
  cases outcome with
  | unbound binding => cases bound.symm.trans binding
  | refused binding first checks =>
    cases bound.symm.trans binding
    cases absent.symm.trans first
    exact ⟨_, judges.world_of_inquiries checks, rfl⟩
  | failed binding passed | mismatched binding passed | returned binding passed =>
    cases bound.symm.trans binding
    cases absent.symm.trans passed

end Enforcement

end TypeContracts
