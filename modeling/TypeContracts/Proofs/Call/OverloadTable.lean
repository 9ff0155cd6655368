import TypeContracts.Call.OverloadTable
import TypeContracts.Proofs.Call.Growth
import TypeContracts.Proofs.Table

/-!
Overload tables and the overload sets that they hold. A table files the members of a set if it has the
members with each number of parameters under this number, in their order. In a session registration then
comes out as in the set, and whether it succeeds or fails the table files the members that there are
afterwards. Choices and calls are those of the set.
Main statements: `OverloadTable.Files.add`, `OverloadTable.Files.resolve`, `OverloadTable.Files.copy`.
-/

namespace TypeContracts

/-! ## Lists -/

section lists

variable {m : Type → Type} [Monad m] [LawfulMonad m] {α β : Type} {g : α → β} {f : β → m Bool}
  {xs : List α}

theorem findM?_map : (xs.map g).findM? f = Option.map g <$> xs.findM? fun x => f (g x) := by
  induction xs with
  | nil => simp [List.findM?]
  | cons x xs ih =>
    rw [List.map_cons, List.findM?, List.findM?, ih, map_bind]
    refine congrArg _ (funext fun b => ?_)
    cases b <;> simp

theorem filterM_map : (xs.map g).filterM f = List.map g <$> xs.filterM fun x => f (g x) := by
  -- the loop collects what it keeps, so what is collected is mapped as well
  have aux : ∀ acc, List.filterAuxM f (xs.map g) (acc.map g) =
      List.map g <$> List.filterAuxM (fun x => f (g x)) xs acc := by
    induction xs with
    | nil => simp [List.filterAuxM]
    | cons x xs ih =>
      intro acc
      rw [List.map_cons, List.filterAuxM, List.filterAuxM, map_bind]
      refine congrArg _ (funext fun b => ?_)
      cases b with
      | true => exact ih (x :: acc)
      | false => exact ih acc
  have start : List.filterAuxM f (xs.map g) [] = _ := aux []
  rw [List.filterM, List.filterM, start, map_bind, bind_map_left]
  refine congrArg _ (funext fun ys => ?_)
  rw [map_pure, List.map_reverse]

end lists

/-! ## Computations that change a table -/

namespace Registering

variable {α : Type} {x : Exec α} {l : Logger} {t : OverloadTable} {s s' : Session}

theorem run_inSession_of_ok {a : α} (h : (x.run l).run s = .ok a s') :
    ((inSession x).run l).run (t, s) = .ok a (t, s') := by
  show inSession x l (t, s) = _
  unfold inSession
  dsimp only
  rw [h]

theorem run_inSession_of_error {e : Fault} (h : (x.run l).run s = .error e s') :
    ((inSession x).run l).run (t, s) = .error e (t, s') := by
  show inSession x l (t, s) = _
  unfold inSession
  dsimp only
  rw [h]

theorem run_updateTable_bind {change : OverloadTable → OverloadTable} {g : Unit → Registering α} :
    ((updateTable change >>= g).run l).run (t, s) = ((g ()).run l).run (change t, s) :=
  Exec.run_bind_of_ok rfl

theorem run_table_bind {g : OverloadTable → Registering α} :
    ((table >>= g).run l).run (t, s) = ((g t).run l).run (t, s) :=
  Exec.run_bind_of_ok rfl

end Registering

namespace OverloadTable

open OverloadSet (ofArity overload? ambiguous)

/-! ## Rooms -/

section rooms

variable {t : OverloadTable} {n : Nat} {f : Function}

/-- Room without functions is like no room. -/
theorem functions_makeRoom (k : Nat) : (t.makeRoom n).functions k = t.functions k := by
  have read := Table.lookup_foldl_putIfNew [(n, ([] : List Function))] t.byArity k
  rw [List.foldl_cons, List.foldl_nil] at read
  rw [functions, makeRoom, read, functions]
  cases t.byArity.lookup k with
  | some fs => rfl
  | none =>
    rw [Option.none_or, List.lookup_cons]
    cases k == n <;> rfl

/-- Where functions are filed there is room already. -/
theorem makeRoom_of_functions (filed : t.functions n ≠ []) : t.makeRoom n = t := by
  rw [makeRoom, Table.putIfNew, if_pos]
  rw [functions] at filed
  cases read : t.byArity.lookup n with
  | some fs => rfl
  | none =>
    rw [read] at filed
    exact absurd rfl filed

theorem size_makeRoom : (t.makeRoom n).size = t.size := by
  rw [size, makeRoom, Table.putIfNew]
  split
  · rfl
  · simp [size]

theorem functions_file (k : Nat) :
    (t.file n f).functions k = if k = n then t.functions k ++ [f] else t.functions k := by
  rw [functions, file, Table.lookup_put]
  by_cases same : k = n
  · rw [if_pos (beq_iff_eq.2 same), if_pos same, same]
    rfl
  · rw [if_neg fun eq => same (beq_iff_eq.1 eq), if_neg same]
    rfl

theorem size_file : (t.file n f).size = t.size + 1 := by
  obtain ⟨name, rooms⟩ := t
  show ((Table.put n ((rooms.lookup n).getD [] ++ [f]) rooms).flatMap (·.2)).length =
    (rooms.flatMap (·.2)).length + 1
  induction rooms with
  | nil => rfl
  | cons e rooms ih =>
    obtain ⟨k, fs⟩ := e
    rw [Table.put, List.lookup_cons]
    by_cases same : n == k
    · rw [if_pos same, same]
      simp only [List.flatMap_cons, List.length_append, Option.getD_some, List.length_singleton]
      omega
    · rw [if_neg same, (Bool.not_eq_true _).mp same]
      simp only [List.flatMap_cons, List.length_append, ih]
      omega

end rooms

/-! ## Tables and sets -/

/-- The table has the members of the set with each number of parameters under this number, in their order.
-/
structure Files (t : OverloadTable) (set : OverloadSet) : Prop where
  name : t.name = set.name
  functions : ∀ n, t.functions n = (set.ofArity n).map (·.1.function)
  keys : (t.byArity.map (·.1)).Nodup
  size : t.size = set.size
  filed : set.Filed

theorem ofArity_val (set : OverloadSet) (n : Nat) :
    (set.ofArity n).map (·.1) = set.overloads.filter fun o => o.signature.params.length == n := by
  have tested := OverloadSet.filter_ofArity set n fun _ => true
  rw [List.filter_true] at tested
  simpa using tested

theorem files_empty (name : String) : Files (.empty name) (.empty name) :=
  ⟨rfl, fun _ => rfl, List.nodup_nil, rfl, ⟨nofun, nofun⟩⟩

namespace Files

variable {t : OverloadTable} {set : OverloadSet} (files : Files t set)

include files

theorem makeRoom (n : Nat) : Files (t.makeRoom n) set where
  name := files.name
  functions k := (functions_makeRoom k).trans (files.functions k)
  keys := Table.nodup_putIfNew files.keys
  size := size_makeRoom.trans files.size
  filed := files.filed

/-- A new member is filed under its number of parameters. -/
theorem file {f : Function} {o : Overload} (accepted : overload? f = some o) :
    Files (t.file o.signature.params.length f) ⟨set.name, set.overloads ++ [o]⟩ where
  name := files.name
  functions k := by
    obtain ⟨rfl, -⟩ := OverloadSet.of_overload?_eq_some accepted
    have members : ∀ s : OverloadSet, (s.ofArity k).map (·.1.function) =
        (s.overloads.filter fun o => o.signature.params.length == k).map (·.function) := by
      intro s
      rw [← ofArity_val, List.map_map]
      rfl
    rw [functions_file, files.functions, members, members, List.filter_append, List.map_append,
      List.filter_singleton]
    by_cases same : k = o.signature.params.length
    · rw [if_pos same, beq_iff_eq.2 same.symm]
      rfl
    · rw [if_neg same, beq_eq_false_iff_ne.2 (Ne.symm same)]
      exact (List.append_nil _).symm
  keys := Table.nodup_put files.keys
  size := by rw [size_file, files.size, OverloadSet.size, OverloadSet.size, List.length_append]; rfl
  filed := files.filed.append accepted

end Files

/-! ## Registration -/

section add

open Exec (run_bind_of_ok run_bind_of_error)
open Registering

variable {h : Host Exec} {t : OverloadTable} {f : Function} {signature : Signature} {l : Logger}
  {s s' : Session}

theorem run_add_of_unsigned (session : h.InSession) (unsigned : f.signature = none) :
    ((add h f).run l).run (t, s) = .error (.error (.invalidSpec (.opaqueSignature f.name))) (t, s) := by
  refine run_bind_of_error (run_inSession_of_error ?_)
  rw [Function.inspected, unsigned]
  dsimp only
  rw [session.fail, Exec.run_fail]

/-- A function with a variadic parameter is refused before room is made for it. -/
theorem run_add_of_variadic (session : h.InSession) (signed : f.signature = some signature)
    {e : InvalidSpec} (variadic : signature.requireFixedArity = .error e) :
    ((add h f).run l).run (t, s) = .error (.error (.invalidSpec e)) (t, s) := by
  have inspected : ((f.inspected h).run l).run s = .ok signature s := by
    rw [Function.inspected, signed, Exec.run_pure]
  refine (run_bind_of_ok (run_inSession_of_ok inspected)).trans ?_
  refine run_bind_of_error (run_inSession_of_error ?_)
  rw [session.run_lift, variadic]
  rfl

/-- Otherwise room is made, and the function is compared with those that are filed there. -/
theorem run_add_of_fixed (session : h.InSession) (signed : f.signature = some signature)
    (fixed : signature.requireFixedArity = .ok ()) :
    ((add h f).run l).run (t, s) =
      match (((t.functions signature.params.length).forM
          (requireUnambiguous h t.name signature)).run l).run s with
      | .ok _ s' => .ok () ((t.makeRoom signature.params.length).file signature.params.length f, s')
      | .error fault s' => .error fault (t.makeRoom signature.params.length, s') := by
  have inspected : ((f.inspected h).run l).run s = .ok signature s := by
    rw [Function.inspected, signed, Exec.run_pure]
  refine (run_bind_of_ok (run_inSession_of_ok inspected)).trans ?_
  have required : ((h.lift (signature.requireFixedArity.mapError .invalidSpec)).run l).run s = .ok () s := by
    rw [session.run_lift, fixed]
    rfl
  refine (run_bind_of_ok (run_inSession_of_ok required)).trans ?_
  refine run_updateTable_bind.trans (run_table_bind.trans ?_)
  rw [functions_makeRoom]
  cases compared : (((t.functions signature.params.length).forM
      (requireUnambiguous h t.name signature)).run l).run s with
  | error fault s' => exact run_bind_of_error (run_inSession_of_error compared)
  | ok _ s' => exact run_bind_of_ok (run_inSession_of_ok compared)

/-- A refused function leaves the table as it was: it is compared only with functions that are filed, and
where there are some, there is room already. -/
theorem eq_of_run_add (session : h.InSession) {t' : OverloadTable} {fault : Fault}
    (refused : ((add h f).run l).run (t, s) = .error fault (t', s')) : t' = t := by
  cases signed : f.signature with
  | none =>
    rw [run_add_of_unsigned session signed] at refused
    cases refused
    rfl
  | some signature =>
    cases required : signature.requireFixedArity with
    | error e =>
      rw [run_add_of_variadic session signed required] at refused
      cases refused
      rfl
    | ok =>
      rw [run_add_of_fixed session signed required] at refused
      by_cases filed : t.functions signature.params.length = []
      · -- there is nothing to compare it with
        rw [filed] at refused
        cases refused
      · rw [makeRoom_of_functions filed] at refused
        split at refused
        · cases refused
        · cases refused
          rfl

/-- What is done with the outcome of the search for a function that another one is ambiguous with. -/
def settle (h : Host Exec) (name : String) (signature : Signature) : Option Signature → Exec Unit
  | some other => do
      h.log .warn OverloadSet.logTarget fun _ =>
        name ++ signature.render ++ " is ambiguous with " ++ name ++ other.render
      h.fail (.ambiguousFunction name)
  | none => return ()

/-- To compare a function with others one by one is to search for one that it is ambiguous with. -/
theorem forM_requireUnambiguous (session : h.InSession) (name : String) {α : Type} {member : α → Overload}
    {xs : List α} (signed : ∀ x ∈ xs, (member x).function.signature = some (member x).signature) :
    (xs.map fun x => (member x).function).forM (requireUnambiguous h name signature) =
      (xs.findM? fun x => ambiguous h signature (member x).signature) >>= fun other =>
        settle h name signature (other.map fun x => (member x).signature) := by
  induction xs with
  | nil => rfl
  | cons x xs ih =>
    obtain ⟨first, rest⟩ := List.forall_mem_cons.1 signed
    rw [List.map_cons, List.findM?, bind_assoc]
    show (requireUnambiguous h name signature (member x).function >>= fun _ => List.forM _ _) = _
    rw [ih rest, requireUnambiguous, Function.inspected, first]
    simp only [pure_bind, bind_assoc]
    refine congrArg _ (funext fun b => ?_)
    cases b with
    | true =>
      simp only [if_true, session.fail, bind_assoc, Exec.fail_bind, pure_bind, settle, Option.map_some]
    | false => simp

end add

namespace Files

variable {h : Host Exec} {t : OverloadTable} {set : OverloadSet}

/-- Registration comes out as in the set, in the same session. Afterwards the table files the members of
the set, be the function registered or refused. -/
theorem add (files : Files t set) (session : h.InSession) (f : Function) (l : Logger) (s : Session) :
    match ((set.add h f).run l).run s with
    | .ok set' s' => ∃ t', ((OverloadTable.add h f).run l).run (t, s) = .ok () (t', s') ∧ Files t' set'
    | .error fault s' =>
        ∃ t', ((OverloadTable.add h f).run l).run (t, s) = .error fault (t', s') ∧ Files t' set := by
  unfold OverloadSet.add
  cases signed : f.signature with
  | none =>
    dsimp only
    rw [session.fail, Exec.run_fail]
    exact ⟨t, run_add_of_unsigned session signed, files⟩
  | some signature =>
    dsimp only
    cases required : signature.requireFixedArity with
    | error e =>
      have refused := session.run_lift l s (Except.mapError Error.invalidSpec (.error e : Except _ Unit))
      rw [Exec.run_bind_of_error refused]
      exact ⟨t, run_add_of_variadic session signed required, files⟩
    | ok =>
      have lifted := session.run_lift l s (Except.mapError Error.invalidSpec (.ok () : Except _ Unit))
      rw [Exec.run_bind_of_ok lifted]
      have accepted : overload? f = some ⟨f, signature⟩ := by
        simp [overload?, signed, Signature.fixed_of_requireFixedArity required]
      have members : ∀ o ∈ set.ofArity signature.params.length,
          o.1.function.signature = some o.1.signature := fun o _ => files.filed.signature o.1 o.2
      have run := run_add_of_fixed (t := t) (l := l) (s := s) session signed required
      rw [files.functions, files.name, forM_requireUnambiguous session set.name members] at run
      -- table and set now ask the same functions in the same order
      cases searched : (((set.ofArity signature.params.length).findM? fun o =>
          ambiguous h signature o.1.signature).run l).run s with
      | error fault s' =>
        rw [Exec.run_bind_of_error searched] at run ⊢
        exact ⟨_, run, files.makeRoom _⟩
      | ok found s₁ =>
        rw [Exec.run_bind_of_ok searched] at run ⊢
        cases found with
        | none => exact ⟨_, run, (files.makeRoom _).file accepted⟩
        | some other =>
          obtain ⟨s', -, logged⟩ := session.exists_logged l s₁ .warn OverloadSet.logTarget fun _ =>
            set.name ++ signature.render ++ " is ambiguous with " ++ set.name ++ other.1.signature.render
          rw [Option.map_some, settle, Exec.run_bind_of_ok logged, session.fail, Exec.run_fail] at run
          dsimp only
          rw [Exec.run_bind_of_ok logged, session.fail, Exec.run_fail]
          exact ⟨_, run, files.makeRoom _⟩

/-! ## Choice -/

/-- The table makes the choices of the set. -/
theorem resolve (files : Files t set) (session : h.InSession) (args : List Value) :
    t.resolve h args = (·.1.function) <$> set.resolve h args := by
  have members : (t.functions args.length).filterMap Function.asOverload? =
      (set.ofArity args.length).map (·.1) := by
    rw [files.functions, List.filterMap_map]
    refine List.filterMap_eq_map_iff_forall_eq_some.2 ?_
    rintro ⟨⟨f, signature⟩, member⟩ _
    show f.signature.map (Overload.mk f) = some ⟨f, signature⟩
    rw [files.filed.signature _ member]
    rfl
  have specific : ∀ candidates : List { o // o ∈ set.overloads },
      mostSpecific? h (candidates.map (·.1)) = Option.map (·.1) <$> set.mostSpecific? h candidates := by
    intro candidates
    rw [mostSpecific?, findM?_map, OverloadSet.mostSpecific?]
    simp only [allM_map]
  rw [OverloadTable.resolve, members, filterM_map, bind_map_left, OverloadSet.resolve, map_bind]
  refine congrArg _ (funext fun candidates => ?_)
  rw [specific, bind_map_left, map_bind, files.name]
  refine congrArg _ (funext fun chosen => ?_)
  cases chosen with
  | some o => simp
  | none => simp [session.fail, Exec.map_fail]

/-- The table calls what the set calls. -/
theorem call (files : Files t set) (session : h.InSession) (args : List Value) :
    t.call h args = set.call h args := by
  rw [OverloadTable.call, files.resolve session, bind_map_left, OverloadSet.call, Action.run]
  rfl

/-! ## Copies -/

/-- What is filed can be inspected and takes a fixed number of arguments, under which it is filed. -/
theorem signed (files : Files t set) {e : Nat × List Function} (he : e ∈ t.byArity) {f : Function}
    (hf : f ∈ e.2) : ∃ s, f.signature = some s ∧ s.isVariadic = false ∧ s.params.length = e.1 := by
  have room : t.functions e.1 = e.2 := by
    rw [OverloadTable.functions, (Table.mem_iff_lookup files.keys).1 he]
    rfl
  rw [← room, files.functions] at hf
  obtain ⟨o, ho, rfl⟩ := List.mem_map.1 hf
  have len : o.1.signature.params.length = e.1 := by simpa [ofArity] using ho
  exact ⟨o.1.signature, files.filed.signature o.1 o.2, files.filed.fixed o.1 o.2, len⟩

end Files

theorem of_asOverload?_eq_some {f : Function} {o : Overload} (h : f.asOverload? = some o) :
    o.function = f ∧ f.signature = some o.signature := by
  obtain ⟨s, signed, rfl⟩ := Option.map_eq_some_iff.1 h
  exact ⟨rfl, signed⟩

theorem functions_asOverload? {fs : List Function} (signed : ∀ f ∈ fs, ∃ s, f.signature = some s) :
    (fs.filterMap Function.asOverload?).map (·.function) = fs := by
  refine OverloadSet.functions_filterMap (fun h => (of_asOverload?_eq_some h).1) fun f hf => ?_
  obtain ⟨s, signed⟩ := signed f hf
  rw [Function.asOverload?, signed]
  rfl

/-- Of functions that are filed under their numbers of parameters, those with one number are found under
it. -/
theorem filter_rooms {rooms : List (Nat × List Function)} (keys : (rooms.map (·.1)).Nodup)
    (signed : ∀ e ∈ rooms, ∀ f ∈ e.2, ∃ s, f.signature = some s ∧ s.params.length = e.1) (n : Nat) :
    ((rooms.flatMap fun e => e.2.filterMap Function.asOverload?).filter fun o =>
        o.signature.params.length == n).map (·.function) = (rooms.lookup n).getD [] := by
  induction rooms with
  | nil => rfl
  | cons e rooms ih =>
    obtain ⟨fresh, keys⟩ := List.nodup_cons.1 keys
    obtain ⟨first, rest⟩ := List.forall_mem_cons.1 signed
    have len : ∀ o ∈ e.2.filterMap Function.asOverload?, o.signature.params.length = e.1 := by
      intro o ho
      obtain ⟨f, hf, found⟩ := List.mem_filterMap.1 ho
      obtain ⟨s, signed, arity⟩ := first f hf
      cases signed.symm.trans (of_asOverload?_eq_some found).2
      exact arity
    rw [List.flatMap_cons, List.filter_append, List.map_append, ih keys rest, List.lookup_cons]
    by_cases same : n = e.1
    · -- no later room has this number
      subst same
      rw [List.filter_eq_self.2 fun o ho => beq_iff_eq.2 (len o ho), beq_self_eq_true,
        Table.lookup_eq_none_iff.2 fresh,
        functions_asOverload? fun f hf => (first f hf).imp fun _ h => h.1]
      exact List.append_nil _
    · rw [List.filter_eq_nil_iff.2 fun o ho => fun eq => same ((beq_iff_eq.1 eq).symm.trans (len o ho)),
        beq_eq_false_iff_ne.2 same]
      rfl

/-- A table files the members of the set that is a copy of it. -/
theorem Files.copy {t : OverloadTable} {set : OverloadSet} (files : Files t set) : Files t t.set where
  name := rfl
  functions n := by
    have found := filter_rooms files.keys
      (fun e he f hf => (files.signed he hf).imp fun _ h => ⟨h.1, h.2.2⟩) n
    have members := congrArg (List.map Overload.function) (ofArity_val t.set n)
    rw [List.map_map] at members
    exact (members.trans found).symm
  keys := files.keys
  size := by
    have members : t.set.overloads.map (·.function) = t.byArity.flatMap (·.2) := by
      rw [OverloadTable.set, List.map_flatMap]
      exact List.flatMap_congr fun e he =>
        functions_asOverload? fun f hf => (files.signed he hf).imp fun _ h => h.1
    rw [OverloadTable.size, ← members, List.length_map]
    rfl
  filed := by
    have made : ∀ o ∈ t.set.overloads, ∃ e ∈ t.byArity, ∃ f ∈ e.2, f.asOverload? = some o := by
      intro o ho
      obtain ⟨e, he, ho⟩ := List.mem_flatMap.1 ho
      exact ⟨e, he, List.mem_filterMap.1 ho⟩
    constructor
    case signature =>
      intro o ho
      obtain ⟨e, he, f, hf, found⟩ := made o ho
      obtain ⟨rfl, signed⟩ := of_asOverload?_eq_some found
      exact signed
    case fixed =>
      intro o ho
      obtain ⟨e, he, f, hf, found⟩ := made o ho
      obtain ⟨s, signed, fixed, -⟩ := files.signed he hf
      cases signed.symm.trans (of_asOverload?_eq_some found).2
      exact fixed

/-- A function made of the table calls what the table calls. -/
theorem Files.call_copy {h : Host Exec} {t : OverloadTable} {set : OverloadSet} (files : Files t set)
    (session : h.InSession) (args : List Value) : t.set.call h args = t.call h args :=
  (files.copy.call session args).symm

end OverloadTable

end TypeContracts
