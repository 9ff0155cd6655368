/-!
Tables: association lists with one entry per key, in order of first insertion. Reading is
`List.lookup`; `Table.put` replaces in place or appends, `Table.putIfNew` only appends, and `Table.erase`
drops an entry.
-/

namespace TypeContracts

namespace Table

variable {κ α : Type} [BEq κ]

/-- Gives an existing key the new value in its place, or adds the key at the end. -/
def put (key : κ) (value : α) : List (κ × α) → List (κ × α)
  | [] => [(key, value)]
  | (k, v) :: rest => if key == k then (k, value) :: rest else (k, v) :: put key value rest

/-- Adds a key at the end. A key that the table holds keeps its value. -/
def putIfNew (key : κ) (value : α) (table : List (κ × α)) : List (κ × α) :=
  if (table.lookup key).isSome then table else table ++ [(key, value)]

/-- The table of the given entries; of several with one key the last counts. -/
def ofList (entries : List (κ × α)) : List (κ × α) :=
  entries.foldl (fun table e => put e.1 e.2 table) []

/-- The table without the given key. -/
def erase (key : κ) (table : List (κ × α)) : List (κ × α) := table.filter fun e => !(key == e.1)

/-- The names of a table in ascending order. -/
def sortByName (table : List (String × α)) : List (String × α) :=
  table.mergeSort fun a b => a.1 ≤ b.1

/-- After a write the key reads as the new value, and every other key as before. -/
theorem lookup_put [LawfulBEq κ] (key k : κ) (value : α) (table : List (κ × α)) :
    (put key value table).lookup k = if k == key then some value else table.lookup k := by
  induction table with
  | nil => grind [put]
  | cons e rest ih => grind [put]

/-- After an erasure the key is gone, and every other key reads as before. -/
theorem lookup_erase [LawfulBEq κ] (key k : κ) (table : List (κ × α)) :
    (erase key table).lookup k = if k == key then none else table.lookup k := by
  induction table with
  | nil => simp [erase]
  | cons e rest ih =>
    unfold erase at ih ⊢
    grind

/-- A written table holds the new entry and entries it held before. -/
theorem mem_put [LawfulBEq κ] {key : κ} {value : α} {table : List (κ × α)} {e : κ × α}
    (h : e ∈ put key value table) : e = (key, value) ∨ e ∈ table := by
  induction table with
  | nil => exact .inl (List.mem_singleton.1 h)
  | cons f rest ih =>
    obtain ⟨k, v⟩ := f
    rw [put] at h
    split at h
    · rename_i same
      rcases List.mem_cons.1 h with rfl | h
      · exact .inl (by rw [beq_iff_eq.1 same])
      · exact .inr (List.mem_cons_of_mem _ h)
    · rcases List.mem_cons.1 h with rfl | h
      · exact .inr List.mem_cons_self
      · exact (ih h).imp id (List.mem_cons_of_mem _)

end Table

end TypeContracts
