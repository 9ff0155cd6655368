import TypeContracts.Proofs.Logging

/-!
Functions wrapped more than once, and functions wrapped with fewer checks. An outer layer checks what the
layer below it checks as well, before the body in the same world, and after the body in the world that
the body has left; so it finds nothing new, and any number of layers comes to what one comes to. A
configuration that checks less lets through whatever a stricter one lets through.
Main statement: `Enforcement.wrap_composes_and_relaxes`.
-/

namespace TypeContracts

/-! ## Computations that do not look at the notes -/

namespace Exec

variable {α β : Type} {x : Exec α} {f : α → Exec β}

/-- Runs that end in the same way and in the same world; what was noted on the way may differ. -/
inductive Alike : EStateM.Result Fault Session α → EStateM.Result Fault Session α → Prop where
  | ok {a : α} {s t : Session} (world : s.world = t.world) : Alike (.ok a s) (.ok a t)
  | error {e : Fault} {s t : Session} (world : s.world = t.world) : Alike (.error e s) (.error e t)

namespace Alike

variable {r r' r'' : EStateM.Result Fault Session α}

theorem symm (h : Alike r r') : Alike r' r := by
  cases h with
  | ok world => exact .ok world.symm
  | error world => exact .error world.symm

theorem trans (h : Alike r r') (h' : Alike r' r'') : Alike r r'' := by
  cases h with
  | ok world =>
    cases h' with
    | ok world' => exact .ok (world.trans world')
  | error world =>
    cases h' with
    | error world' => exact .error (world.trans world')

end Alike

/-- What comes of the computation depends on the world and the logger, and not on what was noted before. -/
def IgnoresNotes (x : Exec α) : Prop :=
  ∀ l s t, s.world = t.world → Alike ((x.run l).run s) ((x.run l).run t)

theorem IgnoresNotes.bind (hx : IgnoresNotes x) (hf : ∀ a, IgnoresNotes (f a)) :
    IgnoresNotes (x >>= f) := by
  intro l s t same
  have first := hx l s t same
  generalize one : (x.run l).run s = r, other : (x.run l).run t = r' at first
  cases first with
  | ok same₁ =>
    rw [run_bind_of_ok one, run_bind_of_ok other]
    exact hf _ l _ _ same₁
  | error same₁ =>
    rw [run_bind_of_error one, run_bind_of_error other]
    exact .error same₁

/-- A computation that goes the same way after every note does not look at the notes. -/
theorem Transparent.ignoresNotes (hx : Transparent x) : IgnoresNotes x := by
  rintro l ⟨w, notes⟩ ⟨w', notes'⟩ same
  obtain rfl : w = w' := same
  obtain ⟨a, runs⟩ := hx w
  rw [runs l notes, runs l notes', Account.shown, Account.shown, Account.ended, Account.ended]
  cases a.result with
  | ok r => exact .ok rfl
  | error e => exact .error rfl

end Exec

namespace Host.Judges

variable {h : Host Exec} {p : World → Probe Id}

/-- Under a host that judges, and whose routines do not look at the notes, nothing looks at the notes. -/
def ignoresNotes (judges : h.Judges p)
    (routines : ∀ routine receiver args, Exec.IgnoresNotes (h.run routine receiver args)) : h.Closed where
  Holds := Exec.IgnoresNotes
  pure a := (Exec.silent_pure a).transparent.ignoresNotes
  bind := Exec.IgnoresNotes.bind
  world := judges.world ▸ Exec.silent_world.transparent.ignoresNotes
  test r v l s t same := by
    obtain ⟨notes, one⟩ := judges.test r v l s
    obtain ⟨notes', other⟩ := judges.test r v l t
    rw [one, other, same]
    exact .ok rfl
  run := routines
  declare name signature action := by
    rw [judges.declare]
    exact (Exec.silent_updateWorld _).transparent.ignoresNotes
  log level target message := by
    rw [judges.log]
    exact (Exec.transparent_log level target message).ignoresNotes
  fail e := by
    rw [judges.fail]
    exact (Exec.silent_fail e).transparent.ignoresNotes

end Host.Judges

/-- The configuration makes no check that the other one does not make, and the absent value passes under
it wherever it passes under the other one. -/
structure EnforceConfig.Relaxes (lax strict : EnforceConfig) : Prop where
  checkArguments : lax.checkArguments → strict.checkArguments
  checkReturn : lax.checkReturn → strict.checkReturn
  nonePasses : strict.nonePasses → lax.nonePasses

namespace Enforcement

open Exec (Alike IgnoresNotes)

variable {h : Host Exec} {p : World → Probe Id} {config lax strict : EnforceConfig} {f g : Function}
  {signature : Signature} {args : Args} {l : Logger} {s : Session}

/-! ## Layers -/

/-- `g` is what becomes of `f` when it is wrapped `n` times with one configuration, each time in any
session. -/
inductive Layers (h : Host Exec) (config : EnforceConfig) (f : Function) :
    Nat → Function → Prop where
  | none : Layers h config f 0 f
  | wrap {n : Nat} {g g' : Function} {l : Logger} {s s' : Session} (inner : Layers h config f n g)
      (wrapped : ((wrap h config g).run l).run s = .ok g' s') : Layers h config f (n + 1) g'

/-- The function looks like `f` and has, on bound arguments, the outcome of an enforced call of `f`. -/
structure Enforces (h : Host Exec) (p : World → Probe Id) (config : EnforceConfig) (f : Function)
    (signature : Signature) (g : Function) : Prop where
  name : g.name = f.name
  signed : g.signature = some signature
  outcome : ∀ {args bound}, signature.bind args = .ok bound → ∀ l s,
    Outcome h p config f signature args l s (((g.action.run h bound).run l).run s)

/-- A result that fits is let through. -/
theorem run_checkResult_of_fits (judges : h.Judges p) (function : String) (l : Logger) {r : Value}
    (fits : ∀ spec ∈ demanded? config signature, passes config s.world (p s.world) spec r) :
    ∃ s', h.Inquiries l s s' ∧
      ((checkResult h config function signature r).run l).run s = .ok r s' := by
  obtain ⟨s', check, outcome⟩ := result_outcome judges config function l signature r s
  refine ⟨s', check, outcome.trans ?_⟩
  cases demanded : demanded? config signature with
  | none => rfl
  | some spec => exact if_pos (fits spec demanded)

/-- Checking once more what already has the outcome of an enforced call finds nothing new. -/
theorem Outcome.checked (judges : h.Judges p) {bound : List Value} {body : List Value → Exec Value}
    (binding : signature.bind args = .ok bound)
    (inner : ∀ s, Outcome h p config f signature args l s (((body bound).run l).run s)) (s : Session) :
    Outcome h p config f signature args l s
      (((checked h config f.name signature body bound).run l).run s) := by
  obtain ⟨s₁, checks, run⟩ := arguments_outcome judges config f.name l signature bound
    (body bound >>= checkResult h config f.name signature) s
  rw [checked_eq, run]
  have still : s₁.world = s.world := judges.world_of_inquiries checks
  cases first : refused? config s.world (p s.world) signature bound with
  | some x => exact .refused binding first checks
  | none =>
    -- what this layer has let through, the layer below lets through: the world is the same
    have outcome := inner s₁
    show Outcome h p config f signature args l s
      (((body bound >>= checkResult h config f.name signature).run l).run s₁)
    generalize below : ((body bound).run l).run s₁ = result at outcome
    cases outcome with
    | unbound binding' => cases binding.symm.trans binding'
    | refused binding' first' =>
      cases binding.symm.trans binding'
      rw [still, first] at first'
      cases first'
    | failed binding' _ checks' body' =>
      cases binding.symm.trans binding'
      rw [Exec.run_bind_of_error below]
      exact .failed binding first (checks.trans checks') body'
    | mismatched binding' _ checks' body' demanded unfit check =>
      cases binding.symm.trans binding'
      rw [Exec.run_bind_of_error below]
      exact .mismatched binding first (checks.trans checks') body' demanded unfit check
    | @returned _ r s₂ s₃ s₄ binding' _ checks' body' fits check =>
      cases binding.symm.trans binding'
      obtain ⟨s₅, check', passed⟩ := run_checkResult_of_fits judges f.name l
        (judges.world_of_inquiries check ▸ fits)
      rw [Exec.run_bind_of_ok below, passed]
      exact .returned binding first (checks.trans checks') body' fits (check.trans check')

/-- Wrapping makes a function of the same name and signature whose action is the checked one. -/
theorem exists_run_wrap (session : h.InSession) (signed : f.signature = some signature)
    (config : EnforceConfig) (l : Logger) (s : Session) :
    ∃ key s', ((wrap h config f).run l).run s =
      .ok ⟨.declared key f.name, some signature, .checked config f.name signature f.action⟩ s' := by
  obtain ⟨s₁, -, logged⟩ := session.exists_logged l s .debug logTarget
    fun _ => "enforcing " ++ f.name ++ signature.render
  rw [wrap, signed]
  simp only
  rw [Exec.run_bind_of_ok logged, session.declare, Exec.run_declare]
  exact ⟨_, _, rfl⟩

/-- One layer or more come to an enforced call. -/
theorem Layers.enforces (judges : h.Judges p) (signed : f.signature = some signature) {n : Nat}
    (layers : Layers h config f (n + 1) g) : Enforces h p config f signature g := by
  induction n generalizing g with
  | zero =>
    cases layers with
    | @wrap _ _ _ l s _ inner wrapped =>
      cases inner
      obtain ⟨_, _, made⟩ := exists_run_wrap judges.toInSession signed config l s
      cases made.symm.trans wrapped
      refine ⟨rfl, rfl, fun binding l s => ?_⟩
      rw [Action.run]
      exact checked_outcome judges config l binding
  | succ n ih =>
    cases layers with
    | @wrap _ g _ l s _ inner wrapped =>
      have below := ih inner
      obtain ⟨_, _, made⟩ := exists_run_wrap judges.toInSession below.signed config l s
      cases made.symm.trans wrapped
      refine ⟨below.name, rfl, fun binding l s => ?_⟩
      rw [Action.run, below.name]
      exact Outcome.checked judges binding (below.outcome binding l) s

/-- Wrapped or not, the function has the signature of `f`. -/
theorem Layers.signed (judges : h.Judges p) (signed : f.signature = some signature) {n : Nat}
    (layers : Layers h config f n g) : g.signature = some signature := by
  cases n with
  | zero =>
    cases layers
    exact signed
  | succ n => exact (layers.enforces judges signed).signed

/-- A function that is wrapped once or more is called as an enforced function is. -/
theorem Layers.call_outcome (judges : h.Judges p) (signed : f.signature = some signature) {n : Nat}
    (layers : Layers h config f (n + 1) g) (args : Args) (l : Logger) (s : Session) :
    Outcome h p config f signature args l s (((g.call h args).run l).run s) :=
  have enforces := layers.enforces judges signed
  call_outcome_of_action judges config l enforces.signed fun _ binding => enforces.outcome binding l s

/-! ## Verdicts -/

/-- What becomes of the end of a body when its result is looked at, the notes of that apart. -/
def judged (p : World → Probe Id) (config : EnforceConfig) (signature : Signature) :
    EStateM.Result Fault Session Value → EStateM.Result Fault Session Value
  | .error fault s => .error fault s
  | .ok r s =>
      match (demanded? config signature).filter fun spec => !passes config s.world (p s.world) spec r with
      | some spec => .error (.error (.typeMismatch "return value" spec r.classOf.name)) s
      | none => .ok r s

/-- What an enforced call comes to, the notes of its checks apart. -/
def verdict (h : Host Exec) (p : World → Probe Id) (config : EnforceConfig) (f : Function)
    (signature : Signature) (args : Args) (l : Logger) (s : Session) :
    EStateM.Result Fault Session Value :=
  match signature.bind args with
  | .error e => .error (.error e) s
  | .ok bound =>
      match refused? config s.world (p s.world) signature bound with
      | some (name, spec, v) => .error (.error (.typeMismatch name spec v.classOf.name)) s
      | none => judged p config signature (((f.action.run h bound).run l).run s)

theorem judged_of_unfit {r : Value} {spec : TypeSpec} (demanded : demanded? config signature = some spec)
    (unfit : passes config s.world (p s.world) spec r = false) :
    judged p config signature (.ok r s) =
      .error (.error (.typeMismatch "return value" spec r.classOf.name)) s := by
  rw [judged, demanded, Option.filter_some_pos (by simp [unfit])]

theorem judged_eq_ok_iff {r : Value} {s' : Session} {result : EStateM.Result Fault Session Value} :
    judged p config signature result = .ok r s' ↔
      result = .ok r s' ∧
        ∀ spec ∈ demanded? config signature, passes config s'.world (p s'.world) spec r := by
  cases result with
  | error fault s => simp [judged]
  | ok v s =>
    have none : (demanded? config signature).filter
        (fun spec => !passes config s.world (p s.world) spec v) = none ↔
          ∀ spec ∈ demanded? config signature, passes config s.world (p s.world) spec v := by
      simp [Option.filter_eq_none_iff]
    rw [judged]
    split
    · rename_i spec unfit
      refine iff_of_false nofun ?_
      rintro ⟨same, fits⟩
      cases same
      cases unfit.symm.trans (none.2 fits)
    · rename_i fit
      constructor
      · intro same
        cases same
        exact ⟨rfl, none.1 fit⟩
      · rintro ⟨same, -⟩
        exact same

theorem alike_judged {result result' : EStateM.Result Fault Session Value}
    (same : Alike result result') :
    Alike (judged p config signature result) (judged p config signature result') := by
  cases same with
  | error world => exact .error world
  | ok world =>
    rw [judged, judged, world]
    split
    · exact .error world
    · exact .ok world

/-- The values that the body runs on: those that are bound, if none of them is refused. -/
def ran? (p : World → Probe Id) (config : EnforceConfig) (signature : Signature) (args : Args)
    (w : World) : Option (List Value) :=
  match signature.bind args with
  | .error _ => none
  | .ok bound => if (refused? config w (p w) signature bound).isNone then some bound else none

/-- A call in which the body runs once on the given values, or not at all if there are none. What happens
before and after it are inquiries. -/
inductive Encloses (h : Host Exec) (f : Function) (l : Logger) (s : Session) :
    Option (List Value) → EStateM.Result Fault Session Value → Prop where
  | idle {fault : Fault} {s' : Session} (checks : h.Inquiries l s s') :
      Encloses h f l s none (.error fault s')
  | failed {bound : List Value} {fault : Fault} {s₁ s₂ : Session} (checks : h.Inquiries l s s₁)
      (body : ((f.action.run h bound).run l).run s₁ = .error fault s₂) :
      Encloses h f l s (some bound) (.error fault s₂)
  | refused {bound : List Value} {r : Value} {fault : Fault} {s₁ s₂ s₃ : Session}
      (checks : h.Inquiries l s s₁) (body : ((f.action.run h bound).run l).run s₁ = .ok r s₂)
      (check : h.Inquiries l s₂ s₃) : Encloses h f l s (some bound) (.error fault s₃)
  | returned {bound : List Value} {r : Value} {s₁ s₂ s₃ : Session} (checks : h.Inquiries l s s₁)
      (body : ((f.action.run h bound).run l).run s₁ = .ok r s₂) (check : h.Inquiries l s₂ s₃) :
      Encloses h f l s (some bound) (.ok r s₃)

namespace Outcome

variable {result : EStateM.Result Fault Session Value}

theorem encloses (outcome : Outcome h p config f signature args l s result) :
    Encloses h f l s (ran? p config signature args s.world) result := by
  rw [ran?]
  cases outcome with
  | unbound binding =>
    rw [binding]
    exact .idle .refl
  | refused binding first checks =>
    simp only [binding, first]
    exact .idle checks
  | failed binding passed checks body =>
    simp only [binding, passed]
    exact .failed checks body
  | mismatched binding passed checks body demanded unfit check =>
    simp only [binding, passed]
    exact .refused checks body check
  | returned binding passed checks body fits check =>
    simp only [binding, passed]
    exact .returned checks body check

variable (judges : h.Judges p)
  (routines : ∀ routine receiver args, IgnoresNotes (h.run routine receiver args))

include judges routines

theorem alike_verdict (outcome : Outcome h p config f signature args l s result) :
    Alike result (verdict h p config f signature args l s) := by
  -- the body runs in the same world, whatever the checks before it have left in the notes
  have same : ∀ bound s₁, h.Inquiries l s s₁ →
      Alike (judged p config signature (((f.action.run h bound).run l).run s₁))
        (judged p config signature (((f.action.run h bound).run l).run s)) := fun bound s₁ checks =>
    alike_judged ((judges.ignoresNotes routines).runAction f.action bound l s₁ s
      (judges.world_of_inquiries checks))
  rw [verdict]
  cases outcome with
  | unbound binding =>
    rw [binding]
    exact .error rfl
  | refused binding first checks =>
    simp only [binding, first]
    exact .error (judges.world_of_inquiries checks)
  | @failed bound _ s₁ _ binding passed checks body =>
    simp only [binding, passed]
    have after := same bound s₁ checks
    rwa [body] at after
  | @mismatched bound r spec s₁ s₂ s₃ binding passed checks body demanded unfit check =>
    simp only [binding, passed]
    have after := same bound s₁ checks
    rw [body, judged_of_unfit demanded unfit] at after
    exact .trans (.error (judges.world_of_inquiries check)) after
  | @returned bound r s₁ s₂ s₃ binding passed checks body fits check =>
    simp only [binding, passed]
    have after := same bound s₁ checks
    rw [body, judged_eq_ok_iff.2 ⟨rfl, fits⟩] at after
    exact .trans (.ok (judges.world_of_inquiries check)) after

end Outcome

/-! ## Fewer checks -/

section relaxes

variable (relaxes : lax.Relaxes strict)

include relaxes

theorem passes_of_relaxes {w : World} {q : Probe Id} {spec : TypeSpec} {v : Value}
    (h : passes strict w q spec v) : passes lax w q spec v := by
  rw [passes, Bool.or_eq_true, Bool.and_eq_true] at h ⊢
  exact h.imp_left (And.imp_left relaxes.nonePasses)

theorem refused?_of_relaxes {w : World} {q : Probe Id} {bound : List Value}
    (h : refused? strict w q signature bound = none) : refused? lax w q signature bound = none := by
  rw [refused?] at h ⊢
  by_cases checks : lax.checkArguments
  · rw [if_pos (relaxes.checkArguments checks), List.find?_eq_none] at h
    rw [if_pos checks, List.find?_eq_none]
    intro x hx
    have := h x hx
    simp only [Bool.not_eq_true', Bool.not_eq_false] at this ⊢
    exact passes_of_relaxes relaxes this
  · rw [if_neg checks]

theorem demanded?_of_relaxes {spec : TypeSpec} (h : spec ∈ demanded? lax signature) :
    spec ∈ demanded? strict signature := by
  rw [demanded?] at h ⊢
  by_cases checks : lax.checkReturn
  · rw [if_pos checks] at h
    rwa [if_pos (relaxes.checkReturn checks)]
  · rw [if_neg checks] at h
    cases h

/-- What is returned under a configuration is returned under one that checks less. -/
theorem verdict_of_relaxes {r : Value} {s' : Session}
    (returned : verdict h p strict f signature args l s = .ok r s') :
    verdict h p lax f signature args l s = .ok r s' := by
  rw [verdict] at returned ⊢
  cases binding : signature.bind args with
  | error e =>
    rw [binding] at returned
    cases returned
  | ok bound =>
    rw [binding] at returned
    cases first : refused? strict s.world (p s.world) signature bound with
    | some x =>
      simp only [first] at returned
      cases returned
    | none =>
      simp only [first, refused?_of_relaxes relaxes first] at returned ⊢
      obtain ⟨body, fits⟩ := judged_eq_ok_iff.1 returned
      refine judged_eq_ok_iff.2 ⟨body, fun spec demanded => ?_⟩
      exact passes_of_relaxes relaxes (fits spec (demanded?_of_relaxes relaxes demanded))

end relaxes

/-! ## Calls -/

/-- A function can be wrapped over and over. When it is called, wrapped once or many times with one
configuration, it comes to the same result or error in the same world, and its body runs once on the same
values, or not at all. What it returns when it is wrapped with one configuration, it returns, in the same
world, with one that checks less. -/
theorem wrap_composes_and_relaxes (judges : h.Judges p)
    (routines : ∀ routine receiver args, IgnoresNotes (h.run routine receiver args))
    (signed : f.signature = some signature) :
    (∀ config n g l s, Layers h config f n g →
      ∃ g' s', ((wrap h config g).run l).run s = .ok g' s') ∧
    (∀ config n once g, Layers h config f 1 once → Layers h config f (n + 1) g → ∀ args l s,
      Alike (((g.call h args).run l).run s) (((once.call h args).run l).run s) ∧
        Encloses h f l s (ran? p config signature args s.world) (((g.call h args).run l).run s) ∧
        Encloses h f l s (ran? p config signature args s.world) (((once.call h args).run l).run s)) ∧
    ∀ strict lax n k g g', lax.Relaxes strict → Layers h strict f (n + 1) g →
      Layers h lax f (k + 1) g' → ∀ args l s r s',
        ((g.call h args).run l).run s = .ok r s' →
          ∃ s'', s''.world = s'.world ∧ ((g'.call h args).run l).run s = .ok r s'' := by
  have outcome : ∀ {config n g}, Layers h config f (n + 1) g → ∀ args l s,
      Outcome h p config f signature args l s (((g.call h args).run l).run s) := fun layers =>
    layers.call_outcome judges signed
  refine ⟨?_, ?_, ?_⟩
  · intro config n g l s layers
    obtain ⟨_, s', made⟩ :=
      exists_run_wrap judges.toInSession (layers.signed judges signed) config l s
    exact ⟨_, s', made⟩
  · intro config n once g first layers args l s
    have one := outcome first args l s
    have many := outcome layers args l s
    exact ⟨(many.alike_verdict judges routines).trans (one.alike_verdict judges routines).symm,
      many.encloses, one.encloses⟩
  · intro strict lax n k g g' relaxes layers layers' args l s r s' returned
    have under := (outcome layers args l s).alike_verdict judges routines
    have under' := (outcome layers' args l s).alike_verdict judges routines
    rw [returned] at under
    generalize same : verdict h p strict f signature args l s = result at under
    cases under with
    | ok world =>
      rw [verdict_of_relaxes relaxes same] at under'
      generalize ((g'.call h args).run l).run s = result' at under'
      cases under' with
      | ok world' => exact ⟨_, world'.trans world.symm, rfl⟩

/-- A function that writes its argument into an object and returns it, wrapped twice with all checks and once
without those of arguments. -/
theorem stamping_wrap_composes_and_relaxes :
    let o : ObjectRef := ⟨20, .object⟩
    let stamp (v : Value) : Exec Value := Exec.updateWorld fun w => (v, w.setAttribute o "seen" v)
    let h : Host Exec := ⟨Exec.world, fun _ v => do Exec.event "test"; return !v.isNull,
      fun _ _ args => stamp (args.headD .null), Exec.declare, Exec.log, Exec.fail⟩
    let p : World → Probe Id := fun _ => ⟨fun _ v => !v.isNull, fun _ => ()⟩
    let signature : Signature :=
      ⟨[⟨"v", .positional, some (.predicate ⟨12, "given"⟩), none⟩], some (.plain .int)⟩
    let f : Function := ⟨.declared 13 "stamp", some signature, .host 0⟩
    let lax : EnforceConfig := ⟨false, true, false⟩
    h.Judges p ∧ (∀ routine receiver args, IgnoresNotes (h.run routine receiver args)) ∧
      lax.Relaxes .standard ∧
      ∃ twice relaxed, Layers h .standard f 2 twice ∧ Layers h lax f 1 relaxed ∧
        ∀ l s, ∃ s' s'',
          s'.world = s.world.setAttribute o "seen" (.int 1) ∧ s''.world = s'.world ∧
          ((twice.call h (.ofPositional [.int 1])).run l).run s = .ok (.int 1) s' ∧
          ((relaxed.call h (.ofPositional [.int 1])).run l).run s = .ok (.int 1) s'' := by
  intro o stamp h p signature f lax
  have judges : h.Judges p := ⟨⟨rfl, rfl, rfl, fun _ => rfl⟩, fun _ _ _ _ => ⟨_, rfl⟩⟩
  have routines : ∀ routine receiver args, IgnoresNotes (h.run routine receiver args) := by
    intro _ _ args
    have silent : Exec.Silent (stamp (args.headD .null)) := Exec.silent_updateWorld _
    exact silent.transparent.ignoresNotes
  have relaxes : lax.Relaxes .standard := ⟨nofun, fun _ => rfl, nofun⟩
  obtain ⟨wraps, composes, relaxed⟩ := wrap_composes_and_relaxes (f := f) judges routines rfl
  obtain ⟨once, _, wrapped⟩ := wraps .standard 0 f ⟨none, false⟩ .initial .none
  have one : Layers h .standard f 1 once := .wrap .none wrapped
  obtain ⟨twice, _, wrapped⟩ := wraps .standard 1 once ⟨none, false⟩ .initial one
  have two : Layers h .standard f 2 twice := .wrap one wrapped
  obtain ⟨g, _, wrapped⟩ := wraps lax 0 f ⟨none, false⟩ .initial .none
  have less : Layers h lax f 1 g := .wrap .none wrapped
  refine ⟨judges, routines, relaxes, twice, g, two, less, fun l s => ?_⟩
  have integer : verdict h p .standard f signature (.ofPositional [.int 1]) l s =
      .ok (.int 1) { s with world := s.world.setAttribute o "seen" (.int 1) } := by
    have bound : signature.bind (.ofPositional [.int 1]) = .ok [.int 1] := rfl
    have given :
        passes .standard s.world (p s.world) (.predicate ⟨12, "given"⟩) (.int 1) = true := by
      rw [passes, Conformance.satisfies]
      rfl
    have none : refused? .standard s.world (p s.world) signature [.int 1] = none := by
      rw [refused?, if_pos (show EnforceConfig.standard.checkArguments = true from rfl),
        List.find?_eq_none]
      intro x hx
      cases List.mem_singleton.1 hx
      simp [given]
    rw [verdict, bound]
    simp only [none]
    refine judged_eq_ok_iff.2 ⟨by rw [Action.run]; rfl, fun spec demanded => ?_⟩
    cases demanded
    rw [passes, Conformance.satisfies]
    rfl
  have returned :=
    (one.call_outcome judges rfl (.ofPositional [.int 1]) l s).alike_verdict judges routines
  have same := (composes .standard 1 once twice one two (.ofPositional [.int 1]) l s).1.trans returned
  rw [integer] at same
  generalize run : ((twice.call h (.ofPositional [.int 1])).run l).run s = result at same
  cases same with
  | @ok _ s' _ world =>
    obtain ⟨s'', world', run'⟩ := relaxed .standard lax 1 0 twice g relaxes two less _ l s _ _ run
    exact ⟨s', s'', world, world', rfl, run'⟩

end Enforcement

end TypeContracts
