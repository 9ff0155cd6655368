import TypeContracts.Proofs.Conformance.Rules
import TypeContracts.Proofs.Value.Contents

/-!
What sets, option sets and dicts keep of what they are made from. Of several equal elements the first one
stays, so nothing is stored twice, and what equals one of the given elements equals a stored one. Sets made
from lists with the same elements up to equality are equal. A dict has one entry for each key, where the key
comes first and as it is written there, with the value that the key is given last.
Main statements: `Value.setOf_equal_iff`, `Value.gathered_gather`, `Value.deduplication_lossless`.
-/

namespace TypeContracts

namespace Value

/-- A value on which equality is an equivalence: no float in it stands for no number, and no set or dict
in it has repetitions. -/
def Regular (v : Value) : Prop := v.NaNFree ∧ v.DuplicateFree

theorem Regular.symm {a b : Value} (ha : a.Regular) (hb : b.Regular) (h : a.equal b) : b.equal a :=
  equal_symm (duplicateFree_iff.1 ha.2) (duplicateFree_iff.1 hb.2) h

theorem Built.regular {v : Value} (built : v.Built) (self : v.equal v) : v.Regular :=
  ⟨nanFree_of_equal built built self, duplicateFree_iff.2 built⟩

/-! ## Sets -/

/-- A value equals a stored element as it equals one of those that were given. -/
theorem exists_mem_distinct_iff {vs : List Value} {v : Value} :
    (∃ x ∈ distinct vs, x.equal v) ↔ ∃ x ∈ vs, x.equal v := by
  constructor
  · rintro ⟨x, hx, same⟩
    exact ⟨x, mem_of_mem_distinctBy hx, same⟩
  · rintro ⟨x, hx, same⟩
    exact exists_mem_distinctBy_of_same hx same equal_trans

/-- What one of two equal sets was made from has equals in what the other one was made from. -/
theorem covered_of_setOf_equal {vs ws : List Value} (free : ∀ v ∈ vs, v.NaNFree)
    (h : (setOf vs).equal (setOf ws)) : Covered equal vs ws := by
  intro v hv
  obtain ⟨x, hx, hxv⟩ := exists_mem_distinctBy (equal_refl (free v hv)) hv
  obtain ⟨y, hy, hyx⟩ := (equal_set_iff.1 h).2 x hx
  exact ⟨y, mem_of_mem_distinctBy hy, equal_trans hyx hxv⟩

theorem setOf_equal_iff {vs ws : List Value} (hvs : ∀ v ∈ vs, v.Regular)
    (hws : ∀ w ∈ ws, w.Regular) :
    (setOf vs).equal (setOf ws) ↔ Covered equal vs ws ∧ Covered equal ws vs := by
  constructor
  · intro h
    have builtV : (setOf vs).Built := .set fun v hv => duplicateFree_iff.1 (hvs v hv).2
    have builtW : (setOf ws).Built := .set fun w hw => duplicateFree_iff.1 (hws w hw).2
    constructor
    · exact covered_of_setOf_equal (fun v hv => (hvs v hv).1) h
    · exact covered_of_setOf_equal (fun w hw => (hws w hw).1) (equal_symm builtV builtW h)
  · rintro ⟨there, back⟩
    have regular : ∀ v ∈ vs ++ ws, v.Regular := List.forall_mem_append.2 ⟨hvs, hws⟩
    exact equal_set_iff.2 (partnered_distinctBy (fun v hv => equal_refl (regular v hv).1)
      (fun v hv w hw => (regular v hv).symm (regular w hw)) equal_trans there back)

/-! ## Dicts -/

/-- How the entries that a dict keeps stand to those that it was made from. -/
structure Gathered (es kept : List (Value × Value)) : Prop where
  /-- No key equals that of another entry. -/
  apart : kept.Pairwise fun f g => f.1.equal g.1 = false ∧ g.1.equal f.1 = false
  /-- There is one entry for each given key. -/
  once : ∀ e ∈ es, ∃! f, f ∈ kept ∧ f.1.equal e.1
  /-- It has the key of the first given entry with an equal key. -/
  key : ∀ f ∈ kept, (es.find? fun e => f.1.equal e.1).map (·.1) = some f.1
  /-- It has the value of the last one. -/
  value : ∀ f ∈ kept, (es.reverse.find? fun e => f.1.equal e.1).map (·.2) = some f.2
  /-- It stands where the first one comes among the others. -/
  order : kept.Pairwise fun f g =>
    (es.findIdx fun e => f.1.equal e.1) < es.findIdx fun e => g.1.equal e.1

/-- The keys of a dict are among those given. -/
theorem key_of_mem_gather {es : List (Value × Value)} {f : Value × Value} (hf : f ∈ gather es) :
    ∃ e ∈ es, e.1 = f.1 := by
  have inside : f.1 ∈ (gather es).map (·.1) := List.mem_map_of_mem hf
  rw [keys_gather] at inside
  exact List.mem_map.1 (mem_of_mem_distinctBy inside)

/-- After a key is written, an entry has the new value if its key equals the written one, and it is an old
entry if not. -/
theorem mem_putEntry_of_distinct {key value : Value} {es : List (Value × Value)}
    (self : key.equal key) (symm : ∀ e ∈ es, e.1.equal key → key.equal e.1)
    (distinct : Distinct (fun e f => e.1.equal f.1) es) {f : Value × Value}
    (hf : f ∈ putEntry key value es) :
    f.1.equal key = true ∧ f.2 = value ∨ f.1.equal key = false ∧ f ∈ es := by
  induction es with
  | nil =>
    cases List.mem_singleton.1 hf
    exact .inl ⟨self, rfl⟩
  | cons e rest ih =>
    obtain ⟨k, v⟩ := e
    obtain ⟨first, distinct⟩ := List.pairwise_cons.1 distinct
    have symm' := (List.forall_mem_cons.1 symm).2
    rw [putEntry] at hf
    split at hf
    · rename_i found
      rcases List.mem_cons.1 hf with rfl | hf
      · exact .inl ⟨found, rfl⟩
      · -- a second key that equals the written one would equal the first such key
        refine .inr ⟨Bool.eq_false_iff.2 fun same => ?_, List.mem_cons_of_mem _ hf⟩
        have repeated := equal_trans found (symm' f hf same)
        exact Bool.false_ne_true ((first f hf).symm.trans repeated)
    · rename_i other
      rcases List.mem_cons.1 hf with rfl | hf
      · exact .inr ⟨(Bool.not_eq_true _).mp other, List.mem_cons_self⟩
      · exact (ih symm' distinct hf).imp id (And.imp id (List.mem_cons_of_mem _))

section regular

variable {es : List (Value × Value)} (regular : ∀ e ∈ es, e.1.Regular)

include regular

theorem regular_of_mem_gather : ∀ f ∈ gather es, f.1.Regular := by
  intro f hf
  obtain ⟨e, he, same⟩ := key_of_mem_gather hf
  exact same ▸ regular e he

/-- The value of a kept entry is the last one that was given for its key. -/
theorem value_gather :
    ∀ f ∈ gather es, (es.reverse.find? fun e => f.1.equal e.1).map (·.2) = some f.2 := by
  induction es using List.reverseRecOn with
  | nil => exact nofun
  | append_singleton es e ih =>
    rw [List.forall_mem_append, List.forall_mem_singleton] at regular
    have symm : ∀ g ∈ gather es, g.1.equal e.1 → e.1.equal g.1 := fun g hg =>
      (regular_of_mem_gather regular.1 g hg).symm regular.2
    intro f hf
    rw [gather, List.foldl_append] at hf
    rw [List.reverse_concat, List.find?_cons]
    rcases mem_putEntry_of_distinct (equal_refl regular.2.1) symm (distinct_gather es) hf with
      ⟨same, value⟩ | ⟨other, old⟩
    · rw [same, value]
      rfl
    · rw [other]
      exact ih regular.1 f old

theorem gathered_gather : Gathered es (gather es) := by
  have distinct := distinct_gather es
  have kept := regular_of_mem_gather regular
  have keys : ∀ k ∈ es.map (·.1), k.Regular := List.forall_mem_map.2 regular
  obtain ⟨first, ordered⟩ := first_distinctBy (fun k hk => equal_refl (keys k hk).1)
    (fun k hk l hl => (keys k hk).symm (keys l hl)) equal_trans
  rw [← keys_gather] at first ordered
  constructor
  case apart =>
    refine distinct.imp_of_mem fun {f g} hf hg ne => ⟨ne, Bool.eq_false_iff.2 fun same => ?_⟩
    exact Bool.false_ne_true (ne.symm.trans ((kept g hg).symm (kept f hf) same))
  case once =>
    intro e he
    have inside : e.1 ∈ es.map (·.1) := List.mem_map_of_mem he
    obtain ⟨k, hk, hke⟩ := exists_mem_distinctBy (equal_refl (regular e he).1) inside
    rw [← keys_gather, List.mem_map] at hk
    obtain ⟨f, hf, rfl⟩ := hk
    refine ⟨f, ⟨hf, hke⟩, fun g ⟨hg, hge⟩ => ?_⟩
    have hef := (kept f hf).symm (regular e he) hke
    have heg := (kept g hg).symm (regular e he) hge
    exact Mutual.eq_of_distinct distinct hg hf ⟨equal_trans hge hef, equal_trans hke heg⟩
  case key =>
    intro f hf
    have found := first f.1 (List.mem_map_of_mem hf)
    rwa [List.find?_map] at found
  case value => exact value_gather regular
  case order =>
    simp only [List.pairwise_map, List.findIdx_map] at ordered
    exact ordered

end regular

/-! ## All three -/

/-- Option sets and sets store what they are given without repetitions, and a value equals a stored element
exactly if it equals one that was given; an option set accepts such values. For values on which equality
is an equivalence, sets are equal exactly if each element of one was given for the other up to equality, and
a dict has one entry for each given key, in place of the first one and with the last value. -/
theorem deduplication_lossless :
    (∀ key vs, ∃ kept, TypeSpec.oneOf key vs = .options key kept ∧ setOf vs = .set kept ∧ kept ⊆ vs ∧
      Distinct equal kept ∧ (∀ v, (∃ x ∈ kept, x.equal v) ↔ ∃ x ∈ vs, x.equal v) ∧
      ∀ {m : Type → Type} [Monad m] (w : World) (p : Probe m) v, ∃ accepted : Bool,
        Conformance.satisfies w p v (.oneOf key vs) = pure accepted ∧
          (accepted ↔ ∃ x ∈ vs, x.equal v)) ∧
    (∀ vs ws, (∀ v ∈ vs ++ ws, v.NaNFree ∧ v.DuplicateFree) →
      ((setOf vs).equal (setOf ws) ↔
        (∀ v ∈ vs, ∃ w ∈ ws, w.equal v) ∧ ∀ w ∈ ws, ∃ v ∈ vs, v.equal w)) ∧
    ∀ es, (∀ e ∈ es, e.1.NaNFree ∧ e.1.DuplicateFree) →
      ∃ kept, dictOf es = .dict kept ∧ Gathered es kept := by
  refine ⟨fun key vs => ?_, fun vs ws regular => ?_, fun es regular => ?_⟩
  · refine ⟨distinct vs, rfl, rfl, fun x => mem_of_mem_distinctBy, distinct_distinctBy vs,
      fun v => exists_mem_distinct_iff, ?_⟩
    intro m _ w p v
    refine ⟨v.isIn (distinct vs), ?_, ?_⟩
    · rw [TypeSpec.oneOf, Conformance.satisfies]
    · rw [isIn, List.any_eq_true, exists_mem_distinct_iff]
  · obtain ⟨hvs, hws⟩ := List.forall_mem_append.1 regular
    exact setOf_equal_iff hvs hws
  · exact ⟨gather es, dictOf_eq es, gathered_gather regular⟩

/-- Sets of numbers and sets in different order and spelling, and a dict in which a key comes again as a
float. -/
theorem numbers_deduplication_lossless :
    let one : Binary64 := ⟨0x3ff0000000000000⟩
    let two : Binary64 := ⟨0x4000000000000000⟩
    let vs : List Value := [.int 1, .float one, setOf [.int 1, .int 2]]
    let ws : List Value := [setOf [.float two, .int 1], .float one]
    let es : List (Value × Value) := [(.int 1, .str "a"), (.str "k", .null), (.float one, .str "b")]
    let kept : List (Value × Value) := [(.int 1, .str "b"), (.str "k", .null)]
    (∀ v ∈ vs ++ ws, v.NaNFree ∧ v.DuplicateFree) ∧ (setOf vs).equal (setOf ws) ∧
      (∀ e ∈ es, e.1.NaNFree ∧ e.1.DuplicateFree) ∧ dictOf es = .dict kept ∧ Gathered es kept := by
  intro one two vs ws es kept
  have builtInts : ∀ v ∈ [Value.int 1, .int 2], v.Built :=
    List.forall_mem_cons.2 ⟨.int 1, List.forall_mem_singleton.2 (.int 2)⟩
  have builtMixed : ∀ v ∈ [Value.float two, .int 1], v.Built :=
    List.forall_mem_cons.2 ⟨.float two, List.forall_mem_singleton.2 (.int 1)⟩
  have built : ∀ v ∈ vs ++ ws, v.Built := by
    simp only [vs, ws, List.cons_append, List.nil_append, List.forall_mem_cons]
    exact ⟨.int 1, .float one, .set builtInts, .set builtMixed, .float one, nofun⟩
  have builtKeys : ∀ e ∈ es, e.1.Built := by
    simp only [es, List.forall_mem_cons]
    exact ⟨.int 1, .str "k", .float one, nofun⟩
  have self : ∀ v ∈ vs ++ ws, v.equal v := by decide +kernel
  have selfKeys : ∀ e ∈ es, e.1.equal e.1 := by decide +kernel
  have regular : ∀ v ∈ vs ++ ws, v.Regular := fun v hv => (built v hv).regular (self v hv)
  have regularKeys : ∀ e ∈ es, e.1.Regular := fun e he => (builtKeys e he).regular (selfKeys e he)
  obtain ⟨-, sets, dicts⟩ := deduplication_lossless
  have covered : (∀ v ∈ vs, ∃ w ∈ ws, w.equal v) ∧ ∀ w ∈ ws, ∃ v ∈ vs, v.equal w := by
    decide +kernel
  have same : dictOf es = .dict kept := by decide +kernel
  obtain ⟨kept', made, gathered⟩ := dicts es regularKeys
  cases Value.dict.inj (made.symm.trans same)
  exact ⟨regular, (sets vs ws regular).2 covered, regularKeys, same, gathered⟩

end Value

end TypeContracts
