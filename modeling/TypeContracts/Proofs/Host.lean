import TypeContracts.Host
import TypeContracts.Proofs.Conformance.Simulation

/-!
A host under which nothing moves: the world stays as it is, and each predicate is a function of the
value. What is asked of such a host can only come out with a result or an error, and checks always come
out with a result. Main statements: `Host.satisfies_still`, `Host.isSubtype_still`.
-/

namespace TypeContracts

/-! ## Computations that may fail -/

section map

variable {ε α β : Type} {x : Except ε α} {f : α → β}

theorem exists_ok_of_map {b : β} (h : x.map f = .ok b) : ∃ a, x = .ok a ∧ f a = b := by
  cases x with
  | error e => cases h
  | ok a => exact ⟨a, rfl, Except.ok.inj h⟩

theorem eq_error_of_map {e : ε} (h : x.map f = .error e) : x = .error e := by
  cases x with
  | error e => exact congrArg Except.error (Except.error.inj h)
  | ok a => cases h

end map

section lists

variable {ε α : Type} {f : α → Except ε Bool} {g : α → Bool} {xs : List α}

theorem allM_of_ok (h : ∀ x, f x = .ok (g x)) : xs.allM f = .ok (xs.all g) := by
  obtain rfl : f = fun x => pure (g x) := funext h
  exact List.allM_pure

theorem findM?_of_ok (h : ∀ x ∈ xs, f x = .ok (g x)) : xs.findM? f = .ok (xs.find? g) := by
  induction xs with
  | nil => rfl
  | cons x xs ih =>
    obtain ⟨first, rest⟩ := List.forall_mem_cons.1 h
    rw [List.findM?, List.find?, first]
    cases g x with
    | true => rfl
    | false => exact ih rest

/-- A search ends without an element, with the first one that passes, or with a failure. -/
theorem findM?_cases (f : α → Except ε Bool) (xs : List α) :
    (xs.findM? f = .ok none ∧ ∀ x ∈ xs, f x = .ok false) ∨
      (∃ x ∈ xs, f x = .ok true ∧ xs.findM? f = .ok (some x)) ∨
      ∃ x ∈ xs, ∃ e, f x = .error e ∧ xs.findM? f = .error e := by
  induction xs with
  | nil => exact .inl ⟨rfl, nofun⟩
  | cons x xs ih =>
    rw [List.findM?]
    cases first : f x with
    | error e => exact .inr (.inr ⟨x, List.mem_cons_self, e, first, rfl⟩)
    | ok b =>
      cases b with
      | true => exact .inr (.inl ⟨x, List.mem_cons_self, first, rfl⟩)
      | false =>
        rcases ih with ⟨none, fail⟩ | ⟨y, hy, passes, found⟩ | ⟨y, hy, e, fails, failed⟩
        · exact .inl ⟨none, List.forall_mem_cons.2 ⟨first, fail⟩⟩
        · exact .inr (.inl ⟨y, List.mem_cons_of_mem _ hy, passes, found⟩)
        · exact .inr (.inr ⟨y, List.mem_cons_of_mem _ hy, e, fails, failed⟩)

theorem filterM_of_ok (h : ∀ x, f x = .ok (g x)) : xs.filterM f = .ok (xs.filter g) := by
  have aux : ∀ acc : List α, List.filterAuxM f xs acc = .ok ((xs.filter g).reverse ++ acc) := by
    induction xs with
    | nil => intro acc; rfl
    | cons x xs ih =>
      intro acc
      rw [List.filterAuxM, h, List.filter_cons]
      refine (ih _).trans ?_
      cases g x <;> simp
  rw [List.filterM, aux]
  exact congrArg Except.ok (by simp)

end lists

/-! ## The host -/

namespace Host

/-- The host that holds a world, answers as a probe does and raises errors. It prints nothing, and its
routines do nothing. -/
def still (w : World) (p : Probe Id) : Host (Except Error) where
  world := .ok w
  test := fun r v => .ok (p.test r v).run
  run := fun _ _ _ => .ok .null
  declare := fun name signature action => .ok (w.declareFunction name signature action).1
  log := fun _ _ _ => .ok ()
  fail := .error

variable (w : World) (p : Probe Id)

/-- Checks come out as they do with the probe. -/
def stillSimulation : Probe.Simulation w (still w p).probe w p where
  Rel x y := x = .ok y.run
  pure _ := rfl
  bind := by
    rintro α β _ y f g rfl h
    exact h y.run
  explain _ := rfl

theorem stillSimulation_agrees (x : Part) : (stillSimulation w p).Agrees x :=
  Probe.Simulation.agrees_of_test (fun _ _ => rfl) x

theorem satisfies_still (v : Value) (s : TypeSpec) :
    (still w p).satisfies v s = .ok (Conformance.satisfies w p v s).run :=
  (stillSimulation w p).satisfies v fun x _ => stillSimulation_agrees w p x

theorem isSubtype_still (s t : TypeSpec) :
    (still w p).isSubtype s t = .ok (Conformance.isSubtype w p s t).run :=
  (stillSimulation w p).isSubtype s fun x _ => stillSimulation_agrees w p x

end Host

end TypeContracts
