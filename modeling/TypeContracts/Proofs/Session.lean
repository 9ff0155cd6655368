import TypeContracts.Call.Run
import TypeContracts.Session

/-!
How computations in a session run, what searches in a session can find, and the hosts that hold a session's
world, log with its logger and raise errors as its faults. Such hosts differ in their tests and routines only.
-/

namespace TypeContracts

namespace Exec

variable {α β : Type} {x : Exec α} {f : α → Exec β} {l : Logger} {s s' : Session}

theorem run_pure (a : α) (l : Logger) (s : Session) : ((pure a : Exec α).run l).run s = .ok a s := rfl

theorem run_fail (e : Error) (l : Logger) (s : Session) :
    ((fail e : Exec α).run l).run s = .error (.error e) s := rfl

theorem fail_bind (e : Error) (f : α → Exec β) : fail e >>= f = fail e := rfl

theorem map_fail (g : α → β) (e : Error) : g <$> (fail e : Exec α) = fail e := rfl

theorem run_declare (name : String) (signature : Option Signature) (action : Action) (l : Logger)
    (s : Session) :
    ((declare name signature action).run l).run s =
      .ok (s.world.declareFunction name signature action).1
        { s with world := (s.world.declareFunction name signature action).2 } := rfl

section state

-- the two rules hold for a state of any kind
variable {σ : Type} {x : ReaderT Logger (EStateM Fault σ) α} {f : α → ReaderT Logger (EStateM Fault σ) β}
  {s s' : σ}

theorem run_bind_of_ok {a : α} (h : (x.run l).run s = .ok a s') :
    ((x >>= f).run l).run s = ((f a).run l).run s' := by
  show EStateM.bind (x.run l) (fun a => (f a).run l) s = ((f a).run l).run s'
  rw [EStateM.bind, show x.run l s = .ok a s' from h]
  rfl

theorem run_bind_of_error {e : Fault} (h : (x.run l).run s = .error e s') :
    ((x >>= f).run l).run s = .error e s' := by
  show EStateM.bind (x.run l) (fun a => (f a).run l) s = .error e s'
  rw [EStateM.bind, show x.run l s = .error e s' from h]

end state

/-- A sequence that comes out with a result has come out with one at each step. -/
theorem exists_of_run_bind {b : β} (h : ((x >>= f).run l).run s = .ok b s') :
    ∃ a s₁, (x.run l).run s = .ok a s₁ ∧ ((f a).run l).run s₁ = .ok b s' := by
  cases first : (x.run l).run s with
  | error e s₁ =>
    rw [run_bind_of_error first] at h
    cases h
  | ok a s₁ =>
    rw [run_bind_of_ok first] at h
    exact ⟨a, s₁, rfl, h⟩

theorem run_world_bind {f : World → Exec β} :
    ((world >>= f).run l).run s = ((f s.world).run l).run s := run_bind_of_ok rfl

/-- A record is printed if the logger lets it through; nothing else comes of it. -/
theorem run_log (level : Level) (target : String) (message : Unit → String) :
    ((log level target message).run l).run s = .ok ()
      (if l.enabled level then
        { s with notes := s.notes.push (.line (l.line level target (message ()))) }
      else s) := by
  have asked : ((log level target message).run l).run s =
      ((if l.enabled level then note (.line (l.line level target (message ())))
        else pure () : Exec Unit).run l).run s := run_bind_of_ok rfl
  rw [asked]
  by_cases enabled : l.enabled level
  · rw [if_pos enabled, if_pos enabled]
    rfl
  · rw [if_neg enabled, if_neg enabled]
    rfl

/-! ## Searches -/

section searches

variable {f : α → Exec Bool} {xs : List α}

theorem mem_of_run_findM? {x : α} (found : ((xs.findM? f).run l).run s = .ok (some x) s') : x ∈ xs := by
  induction xs generalizing s with
  | nil => cases found
  | cons y xs ih =>
    rw [List.findM?] at found
    obtain ⟨b, s₁, -, found⟩ := exists_of_run_bind found
    cases b with
    | true =>
      cases found
      exact List.mem_cons_self
    | false => exact List.mem_cons_of_mem _ (ih found)

theorem mem_of_run_filterAuxM {before ys : List α}
    (kept : ((List.filterAuxM f xs before).run l).run s = .ok ys s') : ∀ y ∈ ys, y ∈ xs ∨ y ∈ before := by
  induction xs generalizing before s with
  | nil =>
    cases kept
    exact fun y hy => .inr hy
  | cons x xs ih =>
    rw [List.filterAuxM] at kept
    obtain ⟨b, s₁, -, kept⟩ := exists_of_run_bind kept
    intro y hy
    rcases ih kept y hy with rest | first
    · exact .inl (List.mem_cons_of_mem _ rest)
    · cases b with
      | false => exact .inr first
      | true =>
        rcases List.mem_cons.1 first with rfl | first
        · exact .inl List.mem_cons_self
        · exact .inr first

theorem mem_of_run_filterM {ys : List α} (kept : ((xs.filterM f).run l).run s = .ok ys s') :
    ∀ y ∈ ys, y ∈ xs := by
  obtain ⟨zs, s₁, searched, reversed⟩ := exists_of_run_bind kept
  cases reversed
  intro y hy
  rcases mem_of_run_filterAuxM searched y (List.mem_reverse.1 hy) with inside | none
  · exact inside
  · cases none

end searches

end Exec

/-- The host works in a session: only its tests and routines are its own. -/
structure Host.InSession (h : Host Exec) : Prop where
  world : h.world = Exec.world
  declare : h.declare = Exec.declare
  log : h.log = Exec.log
  fail : ∀ {α : Type} (e : Error), (h.fail e : Exec α) = Exec.fail e

namespace Host.InSession

variable {h : Host Exec} (session : h.InSession) (l : Logger) (s : Session)

include session

/-- Logging always goes on, in the same world. -/
theorem exists_logged (level : Level) (target : String) (message : Unit → String) :
    ∃ s', s'.world = s.world ∧ ((h.log level target message).run l).run s = .ok () s' := by
  rw [session.log]
  refine ⟨_, ?_, Exec.run_log ..⟩
  split <;> rfl

theorem run_lift {α : Type} (x : Except Error α) :
    ((h.lift x).run l).run s = match x with
      | .ok a => .ok a s
      | .error e => .error (.error e) s := by
  cases x with
  | error e => rw [Host.lift, session.fail, Exec.run_fail]
  | ok a => rfl

section call

variable {f : Function} {args : Args}

/-- A call whose arguments bind is a run of the action. -/
theorem run_call_of_ok {bound : List Value} (binding : f.bind args = .ok bound) :
    ((f.call h args).run l).run s = ((f.action.run h bound).run l).run s := by
  have lifted := session.run_lift l s (f.bind args)
  rw [binding] at lifted
  rw [Function.call, binding, Exec.run_bind_of_ok lifted]

/-- A call whose arguments do not bind raises the error, and nothing else happens. -/
theorem run_call_of_error {e : Error} (binding : f.bind args = .error e) :
    ((f.call h args).run l).run s = .error (.error e) s := by
  have lifted := session.run_lift l s (f.bind args)
  rw [binding] at lifted
  rw [Function.call, binding, Exec.run_bind_of_error lifted]

end call

end Host.InSession

end TypeContracts
