import TypeContracts.Proofs.Call.Enforcement
import TypeContracts.Proofs.Host

/-!
Overload sets under two hosts. What an overload set does is made of what its host does, so under two hosts
that do alike, each in its own monad, registration and choice come out alike. In a session whose predicates
are pure, whether they always answer or sometimes give up, they come out as under a host that holds the
world.
Main statements: `Host.Simulation.add`, `Host.Simulation.resolve`, `Host.Decides.simulation`.
-/

namespace TypeContracts

namespace Host

variable {m n : Type → Type} [Monad m] [Monad n]

/-- A relation between the computations of two monads that sequencing preserves, and that relates what two
hosts do when they are asked for the same. -/
structure Simulation (h : Host m) (k : Host n) where
  Rel : {α : Type} → m α → n α → Prop
  pure : ∀ {α : Type} (a : α), Rel (pure a) (pure a)
  bind : ∀ {α β : Type} {x : m α} {y : n α} {f : α → m β} {g : α → n β},
    Rel x y → (∀ a, Rel (f a) (g a)) → Rel (x >>= f) (y >>= g)
  world : Rel h.world k.world
  test : ∀ r v, Rel (h.test r v) (k.test r v)
  log : ∀ level target message, Rel (h.log level target message) (k.log level target message)
  fail : ∀ {α : Type} (e : Error), Rel (h.fail e : m α) (k.fail e)

namespace Simulation

variable {h : Host m} {k : Host n} (R : h.Simulation k)

/-! ## Checks -/

/-- The probes of the hosts are alike, in any world. -/
def checks (w : World) : Probe.Simulation w h.probe w k.probe where
  Rel := R.Rel
  pure := R.pure
  bind := R.bind
  explain := R.log _ _

theorem agrees (w : World) (x : Part) : (R.checks w).Agrees x :=
  Probe.Simulation.agrees_of_test R.test x

theorem satisfies (v : Value) (s : TypeSpec) : R.Rel (h.satisfies v s) (k.satisfies v s) :=
  R.bind R.world fun w => (R.checks w).satisfies v fun x _ => R.agrees w x

theorem isSubtype (candidate target : TypeSpec) :
    R.Rel (h.isSubtype candidate target) (k.isSubtype candidate target) :=
  R.bind R.world fun w => (R.checks w).isSubtype candidate fun x _ => R.agrees w x

theorem lift {α : Type} (x : Except Error α) : R.Rel (h.lift x) (k.lift x) := by
  cases x with
  | error e => exact R.fail e
  | ok a => exact R.pure a

/-! ## Lists -/

section lists

variable {α β : Type} {xs : List α}

theorem allM {f : α → m Bool} {g : α → n Bool} (hf : ∀ x, R.Rel (f x) (g x)) :
    R.Rel (xs.allM f) (xs.allM g) :=
  (R.checks .initial).allM fun x _ => hf x

theorem findM? {f : α → m Bool} {g : α → n Bool} (hf : ∀ x, R.Rel (f x) (g x)) :
    R.Rel (xs.findM? f) (xs.findM? g) := by
  induction xs with
  | nil => exact R.pure _
  | cons x xs ih =>
    apply R.bind (hf x)
    intro b
    cases b with
    | true => exact R.pure _
    | false => exact ih

theorem filterM {f : α → m Bool} {g : α → n Bool} (hf : ∀ x, R.Rel (f x) (g x)) :
    R.Rel (xs.filterM f) (xs.filterM g) := by
  have aux : ∀ acc, R.Rel (List.filterAuxM f xs acc) (List.filterAuxM g xs acc) := by
    induction xs with
    | nil => exact fun _ => R.pure _
    | cons x xs ih => exact fun _ => R.bind (hf x) fun _ => ih _
  exact R.bind (aux []) fun _ => R.pure _

theorem foldlM {f : β → α → m β} {g : β → α → n β} (hf : ∀ b x, R.Rel (f b x) (g b x)) (b : β) :
    R.Rel (xs.foldlM f b) (xs.foldlM g b) := by
  induction xs generalizing b with
  | nil => exact R.pure _
  | cons x xs ih => exact R.bind (hf b x) ih

end lists

/-! ## Overload sets -/

theorem narrower (narrow wide : Option TypeSpec) :
    R.Rel (OverloadSet.narrower h narrow wide) (OverloadSet.narrower k narrow wide) := by
  unfold OverloadSet.narrower
  apply (R.checks .initial).ite
  · exact fun _ => R.pure _
  · intro _
    cases wide with
    | none => exact R.pure _
    | some w =>
      cases narrow with
      | none => exact R.pure _
      | some s => exact R.isSubtype s w

theorem atLeastAsSpecific (narrow wide : Signature) :
    R.Rel (OverloadSet.atLeastAsSpecific h narrow wide)
      (OverloadSet.atLeastAsSpecific k narrow wide) := by
  apply R.allM
  rintro ⟨a, b⟩
  exact (R.checks .initial).ite (fun _ => R.pure _) fun _ => R.narrower a b

theorem ambiguous (first second : Signature) :
    R.Rel (OverloadSet.ambiguous h first second) (OverloadSet.ambiguous k first second) := by
  have position : ∀ (s : OverloadSet.Standing) (x : Option TypeSpec × Option TypeSpec),
      R.Rel (OverloadSet.compareAt h s x.1 x.2) (OverloadSet.compareAt k s x.1 x.2) := by
    intro s x
    unfold OverloadSet.compareAt
    apply (R.checks .initial).ite
    · exact fun _ => R.pure _
    · exact fun _ => R.bind (R.narrower _ _) fun _ => R.bind (R.narrower _ _) fun _ => R.pure _
  exact R.bind (R.foldlM position _) fun _ => R.pure _

theorem applicable (signature : Signature) (args : List Value) :
    R.Rel (OverloadSet.applicable h signature args) (OverloadSet.applicable k signature args) := by
  apply R.allM
  rintro ⟨type, v⟩
  cases type with
  | none => exact R.pure _
  | some spec => exact R.satisfies v spec

theorem add (set : OverloadSet) (f : Function) : R.Rel (set.add h f) (set.add k f) := by
  unfold OverloadSet.add
  cases f.signature with
  | none => exact R.fail _
  | some signature =>
    apply R.bind (R.lift _)
    intro _
    apply R.bind (R.findM? fun _ => R.ambiguous _ _)
    intro other
    cases other with
    | some o => exact R.bind (R.log _ _ _) fun _ => R.fail _
    | none => exact R.pure _

theorem resolve (set : OverloadSet) (args : List Value) :
    R.Rel (set.resolve h args) (set.resolve k args) := by
  apply R.bind (R.filterM fun _ => R.applicable _ _)
  intro candidates
  apply R.bind (R.findM? fun _ => R.allM fun _ => R.atLeastAsSpecific _ _)
  intro chosen
  cases chosen with
  | some o => exact R.bind (R.log _ _ _) fun _ => R.pure _
  | none => exact R.fail _

end Simulation

end Host

/-! ## Sessions -/

namespace Exec

/-- A result in a session, or a fault that ended the computation there. -/
def ended {α : Type} (s : Session) : Except Fault α → EStateM.Result Fault Session α
  | .ok a => .ok a s
  | .error e => .error e s

/-- What a computation in a session comes to, apart from the session that it leaves. -/
def answer {α : Type} (x : Exec α) (l : Logger) (s : Session) : Except Fault α :=
  match (x.run l).run s with
  | .ok a _ => .ok a
  | .error e _ => .error e

theorem answer_of_ended {α : Type} {x : Exec α} {y : Except Fault α} {l : Logger} {s s' : Session}
    (h : (x.run l).run s = ended s' y) : x.answer l s = y := by
  unfold answer
  rw [h]
  cases y <;> rfl

end Exec

namespace Host

section steady

variable (tests : World → Predicate → Value → Except String Bool)

/-- The host that holds a world, and whose predicates answer there as `tests` says, or give up with a text.
It raises errors as faults. It prints nothing, and its routines do nothing. -/
def steady (w : World) : Host (Except Fault) where
  world := .ok w
  test := fun r v => (tests w r v).mapError .panic
  run := fun _ _ _ => .ok .null
  declare := fun name signature action => .ok (w.declareFunction name signature action).1
  log := fun _ _ _ => .ok ()
  fail := fun e => .error (.error e)

/-- The probe that answers where a predicate gives up, too. -/
def completed (w : World) : Probe Id := ⟨fun r v => (tests w r v).toOption.getD false, fun _ => ()⟩

/-- Under the steady host a predicate gives up, or all comes out as under a still one. -/
def steadySimulation (w : World) : (steady tests w).Simulation (still w (completed tests w)) where
  Rel x y := (∃ text, x = .error (.panic text)) ∨ x = y.mapError .error
  pure _ := .inr rfl
  bind := by
    intro α β x y f g hx hf
    rcases hx with ⟨text, rfl⟩ | rfl
    · -- nothing follows a predicate that gave up
      exact .inl ⟨text, rfl⟩
    · cases y with
      | error e => exact .inr rfl
      | ok a => exact hf a
  world := .inr rfl
  test r v := by
    show (∃ text, (tests w r v).mapError Fault.panic = .error (.panic text)) ∨
      (tests w r v).mapError Fault.panic = .ok ((tests w r v).toOption.getD false)
    cases tests w r v with
    | error text => exact .inl ⟨text, rfl⟩
    | ok b => exact .inr rfl
  log _ _ _ := .inr rfl
  fail _ := .inr rfl

/-- The host works in a session, and its predicates are pure: in every world they answer as `tests` says,
or give up, and they leave the world as it is. -/
structure Decides (h : Host Exec) : Prop extends h.InSession where
  test : ∀ r v (l : Logger) (s : Session), ∃ notes,
    ((h.test r v).run l).run s = Exec.ended ⟨s.world, notes⟩ ((tests s.world r v).mapError .panic)

end steady

namespace Decides

variable {tests : World → Predicate → Value → Except String Bool} {h : Host Exec}
  (decides : Decides tests h)

/-- In a session, what is asked of the host comes out as under the steady host that holds its world. -/
def simulation (w : World) : h.Simulation (steady tests w) where
  Rel x y := ∀ l s, s.world = w → ∃ s', s'.world = w ∧ (x.run l).run s = Exec.ended s' y
  pure a l s here := ⟨s, here, rfl⟩
  bind := by
    intro α β x y f g hx hf l s here
    obtain ⟨s₁, still, run⟩ := hx l s here
    cases y with
    | error e => exact ⟨s₁, still, Exec.run_bind_of_error run⟩
    | ok a =>
      obtain ⟨s₂, still, rest⟩ := hf a l s₁ still
      exact ⟨s₂, still, (Exec.run_bind_of_ok run).trans rest⟩
  world l s here := by
    rw [decides.world, ← here]
    exact ⟨s, rfl, rfl⟩
  test r v l s here := by
    obtain ⟨notes, answered⟩ := decides.test r v l s
    rw [here] at answered
    exact ⟨_, rfl, answered⟩
  log level target message l s here := by
    obtain ⟨s', still, logged⟩ := decides.exists_logged l s level target message
    exact ⟨s', still.trans here, logged⟩
  fail e l s here := by
    rw [decides.fail]
    exact ⟨s, here, rfl⟩

variable (l : Logger) (s : Session)

include decides

theorem add (set : OverloadSet) (f : Function) :
    ∃ s', s'.world = s.world ∧
      ((set.add h f).run l).run s = Exec.ended s' (set.add (steady tests s.world) f) :=
  (decides.simulation s.world).add set f l s rfl

theorem answer_ambiguous (first second : Signature) :
    (OverloadSet.ambiguous h first second).answer l s =
      OverloadSet.ambiguous (steady tests s.world) first second := by
  obtain ⟨s', -, run⟩ := (decides.simulation s.world).ambiguous first second l s rfl
  exact Exec.answer_of_ended run

end Decides

namespace Judges

variable {h : Host Exec} {p : World → Probe Id}

/-- Predicates that always answer never give up. -/
theorem decides (judges : h.Judges p) : Decides (fun w r v => .ok ((p w).test r v).run) h :=
  ⟨judges.toInSession, judges.test⟩

/-- In a session whose predicates always answer, what is asked of the host comes out as under the still host
that holds its world. -/
def callSimulation (judges : h.Judges p) (w : World) : h.Simulation (still w (p w)) where
  Rel x y := (judges.decides.simulation w).Rel x (y.mapError .error)
  pure a := (judges.decides.simulation w).pure a
  bind := by
    intro α β x y f g hx hf
    cases y with
    | error e => exact (judges.decides.simulation w).bind hx hf
    | ok a => exact (judges.decides.simulation w).bind hx hf
  world := (judges.decides.simulation w).world
  test := (judges.decides.simulation w).test
  log := (judges.decides.simulation w).log
  fail e := (judges.decides.simulation w).fail e

end Judges

end Host

end TypeContracts
