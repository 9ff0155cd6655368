import TypeContracts.Call.Run
import TypeContracts.Proofs.Session

/-!
Methods with their receiver in place, and methods that take it as the first argument. In front of the
other parameters `self` moves each of them one place to the right, and the receiver in front of the
other arguments moves each of these; so everything else is bound as without it.
Main statements: `Signature.bind_withReceiver`, `Method.unbound_agrees_with_bound`.
-/

namespace TypeContracts

/-- An error as it reads where the receiver counts among the arguments. -/
def Error.countReceiver : Error → Error
  | .argumentCountMismatch expected got => .argumentCountMismatch (expected + 1) (got + 1)
  | e => e

/-- A computation whose error says nothing about the number of arguments. -/
def CountFree {α : Type} (x : Except Error α) : Prop := x.mapError .countReceiver = x

theorem CountFree.bind {α β : Type} {x : Except Error α} {f : α → Except Error β}
    (hx : CountFree x) (hf : ∀ a, CountFree (f a)) : CountFree (x >>= f) := by
  cases x with
  | error e => exact congrArg Except.error (Except.error.inj hx)
  | ok a => exact hf a

theorem CountFree.map {α β : Type} {x : Except Error α} (hx : CountFree x) (f : α → β) :
    CountFree (x.map f) := by
  cases x with
  | error e => exact congrArg Except.error (Except.error.inj hx)
  | ok a => rfl

namespace Signature

variable (s : Signature) (r : Value)

/-! ## One parameter more -/

theorem fixed_withReceiver :
    s.withReceiver.fixed = ⟨"self", .positional, none, none⟩ :: s.fixed := rfl

theorem arity_withReceiver : s.withReceiver.arity = s.arity + 1 := rfl

theorem collects_withReceiver {kind : ParamKind} (collecting : kind ≠ .positional) :
    s.withReceiver.collects kind = s.collects kind := by
  rw [collects, withReceiver, List.any_cons, beq_eq_false_iff_ne.2 collecting.symm, Bool.false_or,
    collects]

theorem positionalSlots_cons (n : Nat) (positional : List Value) :
    positionalSlots (n + 1) (r :: positional) = some r :: positionalSlots n positional := by
  rw [positionalSlots, List.take_succ_cons, List.length_cons, Nat.add_sub_add_right]
  rfl

/-- What has been assigned, with the receiver in front. -/
def Assignment.withReceiver (a : Assignment) : Assignment := ⟨some r :: a.slots, a.surplus⟩

/-- A keyword that does not name the receiver goes where it goes without one. -/
theorem assignKeyword_withReceiver (a : Assignment) {keyword : String × Value}
    (other : keyword.1 ≠ "self") :
    s.withReceiver.assignKeyword (a.withReceiver r) keyword =
      (s.assignKeyword a keyword).map (·.withReceiver r) := by
  obtain ⟨name, v⟩ := keyword
  have shifted : s.withReceiver.fixed.findIdx? (·.name == name) =
      (s.fixed.findIdx? (·.name == name)).map (· + 1) := by
    rw [fixed_withReceiver, List.findIdx?_cons, beq_eq_false_iff_ne.2 other.symm]
    rfl
  have collecting : ParamKind.varKeyword ≠ .positional := nofun
  simp only [assignKeyword, shifted, collects_withReceiver s collecting]
  cases s.fixed.findIdx? (·.name == name) with
  | none =>
    have surplus : (a.withReceiver r).surplus = a.surplus := rfl
    simp only [Option.map_none, surplus]
    split
    · rfl
    · split <;> rfl
  | some i =>
    simp only [Option.map_some, Assignment.withReceiver, List.getElem?_cons_succ, List.set_cons_succ]
    split <;> rfl

theorem foldlM_assignKeyword_withReceiver {keywords : List (String × Value)}
    (others : ∀ k ∈ keywords, k.1 ≠ "self") (a : Assignment) :
    keywords.foldlM s.withReceiver.assignKeyword (a.withReceiver r) =
      (keywords.foldlM s.assignKeyword a).map (·.withReceiver r) := by
  induction keywords generalizing a with
  | nil => rfl
  | cons keyword keywords ih =>
    obtain ⟨other, others⟩ := List.forall_mem_cons.1 others
    rw [List.foldlM_cons, List.foldlM_cons, assignKeyword_withReceiver s r a other]
    cases s.assignKeyword a keyword with
    | error e => rfl
    | ok b => exact ih others b

/-- The receiver is the value of the first parameter. -/
theorem collectValues_withReceiver (rest : List Value) (surplus : List (String × Value))
    (slots : List (Option Value)) :
    collectValues rest surplus s.withReceiver.params (some r :: slots) =
      (collectValues rest surplus s.params slots).map (r :: ·) := by
  rw [withReceiver, collectValues]
  rfl

/-! ## Errors -/

theorem countFree_assignKeyword (a : Assignment) (keyword : String × Value) :
    CountFree (s.assignKeyword a keyword) := by
  rw [assignKeyword]
  split
  · split <;> rfl
  · split
    · rfl
    · split <;> rfl

theorem countFree_foldlM (keywords : List (String × Value)) (a : Assignment) :
    CountFree (keywords.foldlM s.assignKeyword a) := by
  induction keywords generalizing a with
  | nil => rfl
  | cons keyword keywords ih => exact (countFree_assignKeyword s a keyword).bind ih

theorem countFree_collectValues (rest : List Value) (surplus : List (String × Value))
    (ps : List Param) (slots : List (Option Value)) : CountFree (collectValues rest surplus ps slots) := by
  induction ps generalizing slots with
  | nil => rfl
  | cons q ps ih =>
    rw [collectValues]
    split
    · exact (ih _).bind fun _ => rfl
    · exact (ih _).bind fun _ => rfl
    · split
      · exact (ih _).bind fun _ => rfl
      · rfl

/-! ## Binding -/

/-- With the receiver in front of the parameters and of the arguments, binding comes to what it comes to
without, the receiver being the first value; in errors it counts. -/
theorem bind_withReceiver (positional : List Value) {keywords : List (String × Value)}
    (others : ∀ k ∈ keywords, k.1 ≠ "self") :
    s.withReceiver.bind ⟨r :: positional, keywords⟩ =
      ((s.bind ⟨positional, keywords⟩).map (r :: ·)).mapError .countReceiver := by
  have collecting : ParamKind.varPositional ≠ .positional := nofun
  rw [bind, bind, arity_withReceiver, collects_withReceiver s collecting]
  by_cases tooMany : s.arity < positional.length ∧ !s.collects .varPositional
  · rw [if_pos ⟨Nat.succ_lt_succ tooMany.1, tooMany.2⟩, if_pos tooMany]
    rfl
  · have alsoNot : ¬ (s.arity + 1 < (r :: positional).length ∧ !s.collects .varPositional) :=
      fun more => tooMany ⟨Nat.lt_of_succ_lt_succ more.1, more.2⟩
    rw [if_neg alsoNot, if_neg tooMany, positionalSlots_cons]
    have free : CountFree (do
        let a ← keywords.foldlM s.assignKeyword ⟨positionalSlots s.arity positional, []⟩
        collectValues (positional.drop s.arity) a.surplus s.params a.slots) :=
      (countFree_foldlM s _ _).bind fun _ => countFree_collectValues _ _ _ _
    rw [(free.map _ : _ = _)]
    have reading :=
      foldlM_assignKeyword_withReceiver s r others ⟨positionalSlots s.arity positional, []⟩
    rw [Assignment.withReceiver] at reading
    rw [reading]
    cases keywords.foldlM s.assignKeyword ⟨positionalSlots s.arity positional, []⟩ with
    | error e => rfl
    | ok a => exact collectValues_withReceiver s r _ a.surplus a.slots

end Signature

namespace Method

variable {h : Host Exec} (m : Method) (owner : Class) (fetch fetch' : Nat) (r : Value)
  (positional : List Value) {keywords : List (String × Value)}

/-- The arguments of a method are bound alike with its receiver in place and in front of them. A method
without a signature takes them as they are. -/
theorem bind_unboundFunction (others : ∀ k ∈ keywords, k.1 ≠ "self") :
    (World.unboundFunction fetch' owner m).bind ⟨r :: positional, keywords⟩ =
      (((World.boundFunction fetch owner m r).bind ⟨positional, keywords⟩).map (r :: ·)).mapError
        .countReceiver := by
  rw [Function.bind, Function.bind, World.unboundFunction, World.boundFunction]
  cases m.signature with
  | some s => exact s.bind_withReceiver r positional others
  | none => cases keywords <;> rfl

/-- A method comes to the same whether its receiver is in place or the first argument. If the arguments
bind, its body runs on the receiver and the same values; if not, both forms raise the same error and do
nothing else, except that the receiver counts in the numbers that one of the errors names. The signature
may be any list of parameters. -/
theorem unbound_agrees_with_bound (session : h.InSession) (others : ∀ k ∈ keywords, k.1 ≠ "self") :
    let bound := World.boundFunction fetch owner m r
    let unbound := World.unboundFunction fetch' owner m
    unbound.bind ⟨r :: positional, keywords⟩ =
        ((bound.bind ⟨positional, keywords⟩).map (r :: ·)).mapError .countReceiver ∧
      (∀ vs, bound.bind ⟨positional, keywords⟩ = .ok vs → ∀ l s,
        ((bound.call h ⟨positional, keywords⟩).run l).run s = ((m.body.run h r vs).run l).run s ∧
        ((unbound.call h ⟨r :: positional, keywords⟩).run l).run s =
          ((m.body.run h r vs).run l).run s) ∧
      ∀ e, bound.bind ⟨positional, keywords⟩ = .error e → ∀ l s,
        ((bound.call h ⟨positional, keywords⟩).run l).run s = .error (.error e) s ∧
        ((unbound.call h ⟨r :: positional, keywords⟩).run l).run s =
          .error (.error e.countReceiver) s := by
  intro bound unbound
  have bind := m.bind_unboundFunction owner fetch fetch' r positional others
  refine ⟨bind, fun vs binding l s => ?_, fun e binding l s => ?_⟩
  · have binding' : unbound.bind ⟨r :: positional, keywords⟩ = .ok (r :: vs) := by
      rw [bind, binding]
      rfl
    rw [session.run_call_of_ok l s binding, session.run_call_of_ok l s binding']
    have placed : bound.action.run h vs = m.body.run h r vs := by
      show (Action.bound m.body r).run h vs = _
      rw [Action.run]
    have given : unbound.action.run h (r :: vs) = m.body.run h r vs := by
      show (Action.unbound m.name m.body).run h (r :: vs) = _
      rw [Action.run]
    exact ⟨by rw [placed], by rw [given]⟩
  · have binding' : unbound.bind ⟨r :: positional, keywords⟩ = .error e.countReceiver := by
      rw [bind, binding]
      rfl
    exact ⟨session.run_call_of_error l s binding, session.run_call_of_error l s binding'⟩

/-- A method that collects arguments and keywords, and hands on what it gets: called in both forms, it
gets the receiver and the same three values. -/
theorem collecting_unbound_agrees_with_bound :
    let h : Host Exec := ⟨Exec.world, fun _ _ => return true,
      fun _ receiver args => return .tuple (receiver.toList ++ args), Exec.declare, Exec.log,
      Exec.fail⟩
    let signature : Signature := ⟨[⟨"head", .positional, none, none⟩,
      ⟨"rest", .varPositional, none, none⟩, ⟨"opts", .varKeyword, none, none⟩], none⟩
    let join : Method := ⟨"join", some signature, .host 0⟩
    let keywords : List (String × Value) := [("deep", .bool true)]
    let got : Value := .tuple [.str "r", .int 1, .tuple [.int 2], .dict [(.str "deep", .bool true)]]
    h.InSession ∧ (∀ k ∈ keywords, k.1 ≠ "self") ∧ ∀ l s,
      (((World.boundFunction 0 .object join (.str "r")).call h
        ⟨[.int 1, .int 2], keywords⟩).run l).run s = .ok got s ∧
      (((World.unboundFunction 0 .object join).call h
        ⟨[.str "r", .int 1, .int 2], keywords⟩).run l).run s = .ok got s := by
  intro h signature join keywords got
  have session : h.InSession := ⟨rfl, rfl, rfl, fun _ => rfl⟩
  have others : ∀ k ∈ keywords, k.1 ≠ "self" := by decide
  obtain ⟨-, runs, -⟩ :=
    unbound_agrees_with_bound join .object 0 0 (.str "r") [.int 1, .int 2] session others
  exact ⟨session, others, runs [.int 1, .tuple [.int 2], .dict [(.str "deep", .bool true)]] rfl⟩

end Method

end TypeContracts
