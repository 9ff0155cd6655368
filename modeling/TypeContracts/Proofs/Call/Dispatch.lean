import TypeContracts.Proofs.Call.Binding
import TypeContracts.Proofs.Call.Growth

/-!
What a call of an overload set comes to. Choosing asks predicates and logs, and nothing else; then the body
of the chosen member runs on the arguments as they are, because a member takes a fixed number of arguments
and is chosen only for as many; or there is no such member, and no body runs. A function made of a set is
called in the same way.
Main statements: `OverloadSet.resolve_ends`, `OverloadSet.call_runs_one_body`.
-/

namespace TypeContracts

/-! ## Computations that inquire -/

namespace Host

/-- How a computation ends that does nothing but inquire: with a result, with the error `e`, or because a
predicate gives up. -/
inductive Ends (h : Host Exec) (e : Error) (l : Logger) (s : Session) {α : Type} :
    EStateM.Result Fault Session α → Prop where
  | answered {a : α} {s' : Session} (checks : h.Inquiries l s s') : Ends h e l s (.ok a s')
  | failed {s' : Session} (checks : h.Inquiries l s s') : Ends h e l s (.error (.error e) s')
  | gaveUp {r : Predicate} {v : Value} {fault : Fault} {s₁ s' : Session} (checks : h.Inquiries l s s₁)
      (asked : ((h.test r v).run l).run s₁ = .error fault s') : Ends h e l s (.error fault s')

/-- Inquiries may come before. -/
theorem Ends.after {h : Host Exec} {e : Error} {l : Logger} {s s₁ : Session} {α : Type}
    {result : EStateM.Result Fault Session α} (ends : h.Ends e l s₁ result)
    (before : h.Inquiries l s s₁) : h.Ends e l s result := by
  cases ends with
  | answered checks => exact .answered (before.trans checks)
  | failed checks => exact .failed (before.trans checks)
  | gaveUp checks asked => exact .gaveUp (before.trans checks) asked

/-- The host, but with one error for all errors. -/
def raising (h : Host Exec) (e : Error) : Host Exec := { h with fail := fun _ => h.fail e }

/-- What is made of tests, records and one error does nothing but inquire. -/
def inquiring {h : Host Exec} (session : h.InSession) (e : Error) :
    (h.raising e).Simulation (still .initial ⟨fun _ _ => false, fun _ => ()⟩) where
  Rel x _ := ∀ l s, h.Ends e l s ((x.run l).run s)
  pure _ _ _ := .answered .refl
  bind := by
    intro α β x _ f _ hx hf l s
    have first := hx l s
    cases run : (x.run l).run s with
    | ok a s₁ =>
      rw [run] at first
      rw [Exec.run_bind_of_ok run]
      cases first with
      | answered checks => exact (hf a l s₁).after checks
    | error fault s₁ =>
      rw [run] at first
      rw [Exec.run_bind_of_error run]
      cases first with
      | failed checks => exact .failed checks
      | gaveUp checks asked => exact .gaveUp checks asked
  world l s := by
    show h.Ends e l s ((h.world.run l).run s)
    rw [session.world]
    exact .answered .refl
  test r v l s := by
    show h.Ends e l s (((h.test r v).run l).run s)
    cases asked : ((h.test r v).run l).run s with
    | ok answer s' => exact .answered (.single (.test asked))
    | error fault s' => exact .gaveUp .refl asked
  log level target message l s := by
    obtain ⟨s', -, logged⟩ := session.exists_logged l s level target message
    show h.Ends e l s (((h.log level target message).run l).run s)
    rw [logged]
    exact .answered (.single (.log logged))
  fail _ l s := by
    show h.Ends e l s (((h.fail e).run l).run s)
    rw [session.fail]
    exact .failed .refl

end Host

namespace OverloadSet

variable {h : Host Exec} {l : Logger} {s s' : Session} {set : OverloadSet} {args : List Value}

/-- Choosing does nothing but inquire, and ends with a member, without one, or because a predicate gives
up. -/
theorem resolve_ends (session : h.InSession) (set : OverloadSet) (args : List Value) (l : Logger)
    (s : Session) :
    h.Ends (.functionNotFound set.name (args.map (·.classOf.name))) l s
      (((set.resolve h args).run l).run s) := by
  have same : set.resolve (h.raising (.functionNotFound set.name (args.map (·.classOf.name)))) args =
      set.resolve h args := rfl
  rw [← same]
  exact (Host.inquiring session _).resolve set args l s

/-- A member is chosen for as many arguments as it has parameters. -/
theorem length_of_run_resolve (session : h.InSession) {o : { o // o ∈ set.overloads }}
    (chosen : ((set.resolve h args).run l).run s = .ok o s') :
    o.1.signature.params.length = args.length := by
  obtain ⟨candidates, s₁, applicable, chosen⟩ := Exec.exists_of_run_bind chosen
  obtain ⟨best, s₂, searched, chosen⟩ := Exec.exists_of_run_bind chosen
  cases best with
  | none =>
    dsimp only at chosen
    rw [session.fail, Exec.run_fail] at chosen
    cases chosen
  | some best =>
    obtain ⟨_, s₃, -, chosen⟩ := Exec.exists_of_run_bind chosen
    cases chosen
    have inside := Exec.mem_of_run_filterM applicable o (Exec.mem_of_run_findM? searched)
    simpa [ofArity] using inside

/-! ## Calls -/

/-- What a call of a set comes to. -/
inductive Outcome (h : Host Exec) (set : OverloadSet) (args : List Value) (l : Logger) (s : Session) :
    EStateM.Result Fault Session Value → Prop where
  /-- No function is found; all that happened are inquiries. -/
  | notFound {s' : Session}
      (resolved : ((set.resolve h args).run l).run s =
        .error (.error (.functionNotFound set.name (args.map (·.classOf.name)))) s')
      (checks : h.Inquiries l s s') :
      Outcome h set args l s (.error (.error (.functionNotFound set.name (args.map (·.classOf.name)))) s')
  /-- A predicate gives up before a function is found. -/
  | gaveUp {r : Predicate} {v : Value} {fault : Fault} {s₁ s' : Session}
      (resolved : ((set.resolve h args).run l).run s = .error fault s') (checks : h.Inquiries l s s₁)
      (asked : ((h.test r v).run l).run s₁ = .error fault s') : Outcome h set args l s (.error fault s')
  /-- A function is found, the arguments reach it as they are, and the call is one run of its body. -/
  | dispatched {o : { o // o ∈ set.overloads }} {s₁ : Session}
      (resolved : ((set.resolve h args).run l).run s = .ok o s₁) (checks : h.Inquiries l s s₁)
      (binding : o.1.function.bind (.ofPositional args) = .ok args) :
      Outcome h set args l s (((o.1.function.action.run h args).run l).run s₁)

theorem bind_of_filed (filed : set.Filed) {o : Overload} (member : o ∈ set.overloads)
    (len : o.signature.params.length = args.length) :
    o.function.bind (.ofPositional args) = .ok args := by
  rw [Function.bind, filed.signature o member]
  exact Signature.bind_ofPositional_of_length (filed.fixed o member) len

theorem call_outcome_of_filed (session : h.InSession) (filed : set.Filed) (args : List Value) (l : Logger)
    (s : Session) : Outcome h set args l s (((set.call h args).run l).run s) := by
  have ends := resolve_ends session set args l s
  rw [call, Action.run]
  cases resolved : ((set.resolve h args).run l).run s with
  | error fault s' =>
    rw [resolved] at ends
    rw [Exec.run_bind_of_error resolved]
    cases ends with
    | failed checks => exact .notFound resolved checks
    | gaveUp checks asked => exact .gaveUp resolved checks asked
  | ok o s₁ =>
    rw [resolved] at ends
    rw [Exec.run_bind_of_ok resolved]
    cases ends with
    | answered checks =>
      have binding := bind_of_filed filed o.2 (length_of_run_resolve session resolved)
      have lifted := session.run_lift l s₁ (o.1.function.bind (.ofPositional args))
      rw [binding] at lifted
      rw [binding, Exec.run_bind_of_ok lifted]
      exact .dispatched resolved checks binding

/-- A function made of a set refuses the first keyword argument, and nothing else happens. -/
theorem run_call_of_keyword (session : h.InSession) {f : Function} (unsigned : f.signature = none)
    (positional : List Value) (keyword : String) (v : Value) (keywords : List (String × Value))
    (l : Logger) (s : Session) :
    ((f.call h ⟨positional, (keyword, v) :: keywords⟩).run l).run s =
      .error (.error (.unexpectedArgument keyword)) s := by
  exact session.run_call_of_error l s (by rw [Function.bind, unsigned])

/-- A call of a set that registrations lead to runs one body on the arguments as they are, or none. The
function made of the set is called with positional arguments in the same way, and refuses keywords. -/
theorem call_runs_one_body (session : h.InSession) {name : String}
    {steps : List (World × Function × Option Fault)} (grown : Grown h name steps set) :
    (∀ args l s, Outcome h set args l s (((set.call h args).run l).run s)) ∧
    ∀ l s, ∃ f s', ((set.toFunction h).run l).run s = .ok f s' ∧
      (∀ args, f.call h (.ofPositional args) = set.call h args) ∧
      ∀ positional keyword v keywords l t,
        ((f.call h ⟨positional, (keyword, v) :: keywords⟩).run l).run t =
          .error (.error (.unexpectedArgument keyword)) t := by
  obtain ⟨-, filed, -⟩ := grown.filed session
  refine ⟨call_outcome_of_filed session filed, fun l s => ?_⟩
  rw [toFunction, session.declare, Exec.run_declare]
  exact ⟨_, _, rfl, fun args => rfl, run_call_of_keyword session rfl⟩

/-- A function of anything, or of nothing, that returns what it is given. -/
theorem echo_call_runs_one_body :
    let h : Host Exec := ⟨Exec.world, fun _ _ => return false, fun _ _ args => return args.headD .null,
      Exec.declare, Exec.log, Exec.fail⟩
    let echo : Function :=
      ⟨.declared 20 "echo", some ⟨[⟨"x", .positional, none, some .null⟩], none⟩, .host 0⟩
    h.InSession ∧ ∃ set, Grown h "echo" [(.initial, echo, none)] set ∧
      (∀ l s, ∃ s', ((set.call h [.int 1]).run l).run s = .ok (.int 1) s') ∧
      ∀ l s, ∃ f s', ((set.toFunction h).run l).run s = .ok f s' ∧
        ∀ t, ((f.call h ⟨[], [("x", .int 1)]⟩).run l).run t =
          .error (.error (.unexpectedArgument "x")) t := by
  intro h echo
  let p : World → Probe Id := fun _ => ⟨fun _ _ => false, fun _ => ()⟩
  let signature : Signature := ⟨[⟨"x", .positional, none, some .null⟩], none⟩
  let set : OverloadSet := ⟨"echo", [⟨echo, signature⟩]⟩
  have judges : h.Judges p := ⟨⟨rfl, rfl, rfl, fun _ => rfl⟩, fun _ _ _ _ => ⟨_, rfl⟩⟩
  obtain ⟨s, -, first⟩ :=
    (judges.callSimulation .initial).add (.empty "echo") echo ⟨none, false⟩ .initial rfl
  have grown : Grown h "echo" [(.initial, echo, none)] set := .snoc .nil (.added first)
  obtain ⟨calls, functions⟩ := call_runs_one_body judges.toInSession grown
  refine ⟨judges.toInSession, set, grown, fun l s => ?_, fun l s => ?_⟩
  · have found : set.chosen h [.int 1] l s = .ok echo := by
      rw [chosen_eq judges]
      simp [set, signature, choice?, candidates, leads, accepts, asSpecific, Signature.annotations,
        Conformance.annotationConforms]
    have outcome := calls [.int 1] l s
    generalize ((set.call h [.int 1]).run l).run s = result at outcome ⊢
    cases outcome with
    | notFound resolved | gaveUp resolved =>
      rw [chosen, Exec.answer, resolved] at found
      cases found
    | @dispatched o s₁ resolved =>
      obtain ⟨o, member⟩ := o
      cases List.mem_singleton.1 member
      refine ⟨s₁, ?_⟩
      rw [Action.run]
      rfl
  · obtain ⟨f, s', made, -, refused⟩ := functions l s
    exact ⟨f, s', made, refused [] "x" (.int 1) [] l⟩

end OverloadSet

end TypeContracts
