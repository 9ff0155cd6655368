import Mathlib.Data.List.Forall2
import Mathlib.Data.List.Induction
import Mathlib.Data.List.Nodup
import TypeContracts.Table

/-!
Tables hold a key once. Writing keeps it so, and then an entry of a table is what its key reads as. Of
several entries with one key, writing keeps the last and adding only new keys the first; sorting by name
changes nothing but the order.
-/

namespace TypeContracts.Table

variable {κ α : Type} [BEq κ] [LawfulBEq κ]

/-- A written key stays in its place, or comes last if it is new. -/
theorem keys_put {key : κ} {value : α} {table : List (κ × α)} :
    (put key value table).map (·.1) =
      if key ∈ table.map (·.1) then table.map (·.1) else table.map (·.1) ++ [key] := by
  induction table with
  | nil => rfl
  | cons e rest ih =>
    obtain ⟨k, v⟩ := e
    rw [put]
    by_cases same : key = k
    · simp [same]
    · rw [if_neg fun eq => same (beq_iff_eq.1 eq), List.map_cons, ih, List.map_cons]
      by_cases old : key ∈ rest.map (·.1)
      · rw [if_pos old, if_pos (List.mem_cons_of_mem _ old)]
      · rw [if_neg old, if_neg (List.not_mem_cons_of_ne_of_not_mem same old), List.cons_append]

theorem nodup_put {key : κ} {value : α} {table : List (κ × α)} (h : (table.map (·.1)).Nodup) :
    ((put key value table).map (·.1)).Nodup := by
  rw [keys_put]
  split
  · exact h
  · rename_i fresh
    exact List.concat_eq_append ▸ h.concat fresh

/-- What has no entry reads as nothing. -/
theorem lookup_eq_none_iff {table : List (κ × α)} {key : κ} :
    table.lookup key = none ↔ key ∉ table.map (·.1) := by
  rw [List.lookup_eq_none_iff, List.mem_map]
  constructor
  · rintro others ⟨e, he, rfl⟩
    exact bne_iff_ne.1 (others e he) rfl
  · intro fresh e he
    exact bne_iff_ne.2 fun same => fresh ⟨e, he, same.symm⟩

/-- A table holds nothing but the entries that it was made of. -/
theorem mem_of_mem_ofList {entries : List (κ × α)} {e : κ × α} (h : e ∈ ofList entries) :
    e ∈ entries := by
  suffices ∀ table : List (κ × α),
      e ∈ entries.foldl (fun table e => put e.1 e.2 table) table → e ∈ table ∨ e ∈ entries from
    (this [] h).resolve_left List.not_mem_nil
  clear h
  induction entries with
  | nil => exact fun _ h => .inl h
  | cons f rest ih =>
    intro table h
    rcases ih _ h with h | h
    · rcases mem_put h with rfl | h
      · exact .inr List.mem_cons_self
      · exact .inl h
    · exact .inr (List.mem_cons_of_mem _ h)

/-- The entries of a table are what its keys read as. -/
theorem mem_iff_lookup {table : List (κ × α)} (h : (table.map (·.1)).Nodup) {key : κ} {value : α} :
    (key, value) ∈ table ↔ table.lookup key = some value := by
  induction table with
  | nil => simp
  | cons e rest ih =>
    obtain ⟨k, v⟩ := e
    obtain ⟨fresh, rest_nodup⟩ := List.nodup_cons.1 h
    rw [List.mem_cons, List.lookup_cons, ih rest_nodup]
    by_cases same : key = k
    · subst same
      simp [lookup_eq_none_iff.2 fresh, eq_comm]
    · have other : (key == k) = false := beq_eq_false_iff_ne.2 same
      simp [same, other]

/-! ## First and last entries -/

/-- A table that is made of entries reads a key as the last of its entries. -/
theorem lookup_ofList (entries : List (κ × α)) (k : κ) :
    (ofList entries).lookup k = entries.reverse.lookup k := by
  induction entries using List.reverseRecOn with
  | nil => rfl
  | append_singleton entries e ih =>
    obtain ⟨key, value⟩ := e
    have step : ofList (entries ++ [(key, value)]) = put key value (ofList entries) := by
      rw [ofList, List.foldl_append]
      rfl
    rw [step, lookup_put, ih, List.reverse_append, List.reverse_singleton, List.singleton_append,
      List.lookup_cons]
    cases k == key <;> rfl

theorem nodup_ofList (entries : List (κ × α)) : ((ofList entries).map (·.1)).Nodup := by
  induction entries using List.reverseRecOn with
  | nil => exact List.nodup_nil
  | append_singleton entries e ih =>
    rw [ofList, List.foldl_append]
    exact nodup_put ih

/-- Adding new keys only, a table reads a key as before, and one that it did not hold as the first of the
added entries. -/
theorem lookup_foldl_putIfNew (entries table : List (κ × α)) (k : κ) :
    (entries.foldl (fun table e => putIfNew e.1 e.2 table) table).lookup k =
      (table.lookup k).or (entries.lookup k) := by
  induction entries generalizing table with
  | nil => exact Option.or_none.symm
  | cons e rest ih =>
    obtain ⟨key, value⟩ := e
    have single : (putIfNew key value table).lookup k =
        (table.lookup k).or ([(key, value)].lookup k) := by
      rw [putIfNew]
      split
      · rename_i held
        by_cases same : k = key
        · rw [same, Option.or_of_isSome held]
        · have other : (k == key) = false := beq_eq_false_iff_ne.2 same
          rw [List.lookup_cons, other, List.lookup_nil, Option.or_none]
      · exact List.lookup_append
    rw [List.foldl_cons, ih, single, Option.or_assoc, ← List.lookup_append]
    rfl

theorem nodup_putIfNew {key : κ} {value : α} {table : List (κ × α)} (h : (table.map (·.1)).Nodup) :
    ((putIfNew key value table).map (·.1)).Nodup := by
  rw [putIfNew]
  split
  · exact h
  · rename_i new
    have fresh : key ∉ table.map (·.1) := lookup_eq_none_iff.1 (Option.not_isSome_iff_eq_none.1 new)
    rw [List.map_append]
    exact List.concat_eq_append ▸ h.concat fresh

theorem nodup_foldl_putIfNew {entries table : List (κ × α)} (h : (table.map (·.1)).Nodup) :
    ((entries.foldl (fun table e => putIfNew e.1 e.2 table) table).map (·.1)).Nodup := by
  induction entries generalizing table with
  | nil => exact h
  | cons e rest ih => exact ih (nodup_putIfNew h)

/-! ## Sorting -/

/-- Sorting leaves every name as it reads. -/
theorem lookup_sortByName {table : List (String × α)} (h : (table.map (·.1)).Nodup) (name : String) :
    (sortByName table).lookup name = table.lookup name := by
  have perm : (sortByName table).Perm table := List.mergeSort_perm _ _
  have sorted : ((sortByName table).map (·.1)).Nodup := (perm.map _).nodup_iff.2 h
  refine Option.ext fun value => ?_
  rw [← mem_iff_lookup sorted, ← mem_iff_lookup h, perm.mem_iff]

/-- The names of a sorted table ascend. -/
theorem pairwise_sortByName {table : List (String × α)} (h : (table.map (·.1)).Nodup) :
    (sortByName table).Pairwise fun e f => e.1 < f.1 := by
  have perm : (sortByName table).Perm table := List.mergeSort_perm _ _
  have distinct : (sortByName table).Pairwise fun e f => e.1 ≠ f.1 :=
    List.pairwise_map.1 ((perm.map _).nodup_iff.2 h)
  have ascending : (sortByName table).Pairwise fun e f => decide (e.1 ≤ f.1) = true := by
    refine List.pairwise_mergeSort (fun e f g hef hfg => ?_) (fun e f => ?_) table
    · exact decide_eq_true (String.le_trans (of_decide_eq_true hef) (of_decide_eq_true hfg))
    · simpa only [Bool.or_eq_true, decide_eq_true_eq] using String.le_total e.1 f.1
  refine ascending.imp₂ (fun e f le ne => ?_) distinct
  exact String.not_le.1 fun ge => ne (String.le_antisymm (of_decide_eq_true le) ge)

omit [LawfulBEq κ] in
/-- Writing related values under one key keeps two tables related entry by entry. -/
theorem forall₂_put {β : Type} {R : α → β → Prop} {key : κ} {v : α} {w : β} {xs : List (κ × α)}
    {ys : List (κ × β)} (hvw : R v w) (h : List.Forall₂ (fun x y => x.1 = y.1 ∧ R x.2 y.2) xs ys) :
    List.Forall₂ (fun x y => x.1 = y.1 ∧ R x.2 y.2) (put key v xs) (put key w ys) := by
  induction h with
  | nil => exact .cons ⟨rfl, hvw⟩ .nil
  | @cons x y xs ys hxy rest ih =>
    rw [put, put, ← hxy.1]
    split
    · exact .cons ⟨rfl, hvw⟩ rest
    · exact .cons ⟨rfl, hxy.2⟩ ih

end TypeContracts.Table
