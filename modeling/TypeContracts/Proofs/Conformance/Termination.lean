import TypeContracts.Proofs.Conformance.Dialogue

/-!
How checks come to an end. A check goes through its dialogue, and each query of the dialogue is a check
again. Queries get smaller, first in what is tested against and then in the candidate, whatever the values,
the callables and the attributes of objects are. So there is a depth that checks never reach, and with
predicates that answer they answer. Main statement: `Query.evaluation_terminates`.
-/

namespace TypeContracts

/-! ## Dialogues -/

namespace Dialogue

variable {α β : Type} {x : Dialogue α} {f : α → Dialogue β} {q : Query}

theorem asks_query_iff {q' : Query} : (query q).Asks q' ↔ q' = q := by
  constructor
  · intro h
    cases h with
    | now => rfl
    | afterQuery h => cases h
  · rintro rfl
    exact .now _ _

theorem not_asks_pure {a : α} : ¬ Asks (pure a : Dialogue α) q := nofun

/-- What a sequence asks, its first part asks or its second part. -/
theorem asks_of_bind (h : Asks (x >>= f) q) : x.Asks q ∨ ∃ a, (f a).Asks q := by
  change Asks (x.bind f) q at h
  induction x with
  | done a => exact .inr ⟨a, h⟩
  | ask r next ih =>
    cases h with
    | now => exact .inl (.now _ _)
    | afterQuery h => exact (ih _ h).imp .afterQuery id
  | test r v next ih =>
    cases h with
    | afterTest h => exact (ih _ h).imp .afterTest id
  | explain message next ih =>
    cases h with
    | afterExplanation h => exact (ih h).imp .afterExplanation id

section run

variable {m : Type → Type} [Monad m] {p : Probe m} {answer answer' : Query → m Bool}

/-- Only the answers to the queries that are asked count. -/
theorem run_congr (h : ∀ q, x.Asks q → answer q = answer' q) : x.run p answer = x.run p answer' := by
  induction x with
  | done a => rfl
  | ask q next ih =>
    rw [run, run, h q (.now q next)]
    exact congrArg _ (funext fun b => ih b fun q asked => h q (.afterQuery asked))
  | test r v next ih =>
    rw [run, run]
    exact congrArg _ (funext fun b => ih b fun q asked => h q (.afterTest asked))
  | explain message next ih =>
    rw [run, run, ih fun q asked => h q (.afterExplanation asked)]

variable [LawfulMonad m]

theorem run_query (p : Probe m) (answer : Query → m Bool) (q : Query) :
    (query q).run p answer = answer q := by
  rw [query, run]
  exact bind_pure (answer q)

theorem run_bind (p : Probe m) (answer : Query → m Bool) (x : Dialogue α) (f : α → Dialogue β) :
    (x >>= f).run p answer = x.run p answer >>= fun a => (f a).run p answer := by
  change (x.bind f).run p answer = _
  induction x with
  | done a =>
    rw [Dialogue.bind, run, pure_bind]
  | ask q next ih =>
    rw [Dialogue.bind, run, run, bind_assoc]
    exact congrArg _ (funext ih)
  | test r v next ih =>
    rw [Dialogue.bind, run, run, bind_assoc]
    exact congrArg _ (funext ih)
  | explain message next ih =>
    rw [Dialogue.bind, run, run, bind_assoc, ih]

end run

end Dialogue

namespace Query

variable (w : World) (q : Query)

/-! ## Rounds -/

section rounds

variable {m : Type → Type} [Monad m]

/-- Checks are what their dialogues lead to when the queries are checks again. -/
theorem check_eq_run [LawfulMonad m] (p : Probe m) :
    q.check w p = (q.dialogue w).run p (check w p) := by
  let R : Probe.Simulation w Dialogue.probe w p := {
    Rel := fun x y => x.run p (check w p) = y
    pure := fun _ => rfl
    bind := by
      rintro α β x _ f g rfl h
      rw [Dialogue.run_bind]
      exact congrArg _ (funext h)
    explain := fun message => bind_pure (p.explain message) }
  have agrees : R.Rel (q.dialogue w) (q.check w p) :=
    Probe.Simulation.check (R := R) (fun r v => bind_pure (p.test r v))
      fun q' _ => Dialogue.run_query p _ q'
  exact agrees.symm

/-- Evaluation by dialogues that breaks off at a depth of nested queries and gives what `cut` gives
there. -/
def evaluate (p : Probe m) (cut : Query → m Bool) : Nat → Query → m Bool
  | 0, q => cut q
  | depth + 1, q => (q.dialogue w).run p (evaluate p cut depth)

end rounds

variable {w q}

/-- Whatever is answered, a check leads to queries that it descends to. -/
theorem descends_of_asks {q' : Query} (h : (q.dialogue w).Asks q') : q.Descends w q' := by
  let p : Probe Id := ⟨fun _ _ => false, fun _ => ()⟩
  let R : Probe.Simulation w Dialogue.probe w p := {
    Rel := fun x _ => ∀ q', x.Asks q' → q.Descends w q'
    pure := fun _ _ h => absurd h Dialogue.not_asks_pure
    bind := fun hx hf q' h => (Dialogue.asks_of_bind h).elim (hx q') fun ⟨a, h⟩ => hf a q' h
    explain := fun message q' h => by
      cases h with
      | afterExplanation h => cases h }
  have within : R.Rel (q.dialogue w) (q.check w p) := by
    refine Probe.Simulation.check (R := R) (fun r v q' h => ?_) fun q' descends r h => ?_
    · cases h with
      | afterTest h => cases h
    · rw [Dialogue.asks_query_iff.1 h]
      exact descends
  exact within q' h

/-! ## Sizes -/

/-- The size of what is tested against and then that of the candidate, none for a value. -/
def measure (q : Query) : Nat × Nat := (q.target.size, q.width)

/-- Smaller in what is tested against or, if that is of one size, in the candidate. -/
def Smaller (q' q : Query) : Prop := Prod.Lex (· < ·) (· < ·) q'.measure q.measure

theorem Descends.smaller {q' : Query} (h : q.Descends w q') : q'.Smaller q := by
  rcases h with ⟨smaller, -⟩ | ⟨same, narrower⟩
  · exact .left _ _ smaller
  · rw [Smaller, measure, measure, same]
    exact .right _ narrower

/-- How deep queries may be nested below a query when no candidate is larger than the bound. -/
def depthUpTo (bound : Nat) (q : Query) : Nat := q.target.size * (bound + 1) + q.width

theorem Descends.width_le {bound : Nat} {q' : Query} (h : q.Descends w q') (hw : w.width ≤ bound)
    (hq : q.width ≤ bound) : q'.width ≤ bound := by
  rcases h with ⟨-, narrow⟩ | ⟨-, narrower⟩
  · exact Nat.le_trans narrow (Nat.max_le.2 ⟨hw, hq⟩)
  · omega

theorem Descends.depthUpTo_lt {bound : Nat} {q' : Query} (h : q.Descends w q')
    (narrow : q'.width ≤ bound) : depthUpTo bound q' < depthUpTo bound q := by
  rw [depthUpTo, depthUpTo]
  rcases h with ⟨smaller, -⟩ | ⟨same, narrower⟩
  · -- a smaller target leaves room for any candidate up to the bound
    have room : (q'.target.size + 1) * (bound + 1) ≤ q.target.size * (bound + 1) :=
      Nat.mul_le_mul_right _ smaller
    rw [Nat.add_mul] at room
    omega
  · rw [same]
    omega

/-! ## Evaluation -/

/-- A depth of nesting that a query does not reach. -/
def depth (w : World) (q : Query) : Nat := depthUpTo (max w.width q.width) q + 1

theorem evaluate_of_depthUpTo_lt {m : Type → Type} [Monad m] [LawfulMonad m] (p : Probe m)
    (cut : Query → m Bool) {bound : Nat} (hw : w.width ≤ bound) {n : Nat} {q : Query}
    (hq : q.width ≤ bound) (deep : depthUpTo bound q < n) :
    evaluate w p cut n q = q.check w p := by
  induction n generalizing q with
  | zero => omega
  | succ n ih =>
    have nested : ∀ q', (q.dialogue w).Asks q' → evaluate w p cut n q' = q'.check w p := by
      intro q' asked
      have descends := descends_of_asks asked
      have narrow := descends.width_le hw hq
      have := descends.depthUpTo_lt narrow
      exact ih narrow (by omega)
    calc evaluate w p cut (n + 1) q
      _ = (q.dialogue w).run p (evaluate w p cut n) := rfl
      _ = (q.dialogue w).run p (check w p) := Dialogue.run_congr nested
      _ = q.check w p := (check_eq_run w q p).symm

/-- Checks answer if the predicates do. -/
theorem check_isSome {p : Probe Option} (test : ∀ r v, (p.test r v).isSome)
    (explain : ∀ message, (p.explain message).isSome) : (q.check w p).isSome := by
  let R : Probe.Simulation w p w (⟨fun _ _ => false, fun _ => ()⟩ : Probe Id) := {
    Rel := fun x _ => x.isSome
    pure := fun _ => rfl
    bind := fun {_ _ x _ f _} hx hf => by
      obtain ⟨a, rfl⟩ := Option.isSome_iff_exists.1 hx
      exact hf a
    explain := explain }
  have agrees : ∀ x, R.Agrees x := Probe.Simulation.agrees_of_test test
  cases q with
  | satisfies v s => exact R.satisfies v fun x _ => agrees x
  | isSubtype candidate target => exact R.isSubtype candidate fun x _ => agrees x

variable (w q)

/-- Whatever is answered, the queries that a check leads to are smaller. So evaluation never gets to a depth
that depends on the query and the signatures of the world alone, and it gives what the check gives, in any
monad; where predicates need not answer, it answers if they do. -/
theorem evaluation_terminates :
    (∀ q', (q.dialogue w).Asks q' → q'.Smaller q) ∧
      (∀ {m : Type → Type} [Monad m] [LawfulMonad m] (p : Probe m),
        q.check w p = (q.dialogue w).run p (check w p)) ∧
      (∀ {m : Type → Type} [Monad m] [LawfulMonad m] (p : Probe m) (cut : Query → m Bool) (n : Nat),
        evaluate w p cut (q.depth w + n) q = q.check w p) ∧
      ∀ p : Probe Option, (∀ r v, (p.test r v).isSome) → (∀ message, (p.explain message).isSome) →
        (evaluate w p (fun _ => none) (q.depth w) q).isSome := by
  have deep : ∀ {m : Type → Type} [Monad m] [LawfulMonad m] (p : Probe m) (cut : Query → m Bool)
      (n : Nat), evaluate w p cut (q.depth w + n) q = q.check w p := by
    intro m _ _ p cut n
    refine evaluate_of_depthUpTo_lt p cut (Nat.le_max_left _ _) (Nat.le_max_right _ _) ?_
    rw [depth]
    omega
  refine ⟨fun q' asked => (descends_of_asks asked).smaller, fun p => check_eq_run w q p,
    fun p cut n => deep p cut n, fun p test explain => ?_⟩
  have whole := deep p (fun _ => none) 0
  rw [Nat.add_zero] at whole
  rw [whole]
  exact check_isSome test explain

/-- A node is the next one of itself. Of a chain it asks whether it is a node again, and there it ends. -/
theorem cyclic_node_evaluation :
    let p : Probe Option := ⟨fun _ _ => some false, fun _ => some ()⟩
    let linked : Interface := ⟨1, "Linked", none, [("next", .attribute .any)]⟩
    let chained : Interface := ⟨2, "Chained", some linked, [("next", .attribute (.interface linked))]⟩
    let made := World.initial.newObject .object
    let node := Value.object made.1
    let w := made.2.setAttribute made.1 "next" node
    let q := Query.satisfies node (.interface chained)
    let q' := Query.satisfies node (.interface linked)
    w.getAttribute? 0 node "next" = some node ∧ (q.dialogue w).Asks q' ∧ q'.Smaller q ∧
      (∀ r v, (p.test r v).isSome) ∧ (∀ message, (p.explain message).isSome) ∧
      (evaluate w p (fun _ => none) (q.depth w) q).isSome ∧
      evaluate w p (fun _ => none) (q.depth w + 1) q = (q.dialogue w).run p (check w p) := by
  intro p linked chained made node w q q'
  have test : ∀ r v, (p.test r v).isSome := fun _ _ => rfl
  have explain : ∀ message, (p.explain message).isSome := fun _ => rfl
  have asked : (q.dialogue w).Asks q' := .now _ _
  obtain ⟨smaller, rounds, deep, ends⟩ := evaluation_terminates w q
  exact ⟨rfl, asked, smaller q' asked, test, explain, ends p test explain,
    (deep p (fun _ => none) 1).trans (rounds p)⟩

end Query

end TypeContracts
