import TypeContracts.Proofs.Conformance.Union
import TypeContracts.Proofs.Value.Contents

/-!
Option sets as candidates. Whether an option set is below a target is judged by the values that it
stores, but it also accepts the values equal to these, and equal values may be of different kinds. A value
that takes after a stored one, kind by kind, satisfies each target that the stored one satisfies, unless a
predicate tells the two apart. No other value does so, for each stored value has a portrait, a spec that
accepts only the values that take after it.
Main statements: `satisfies_of_takesAfter`, `exists_portrait`, `oneOf_sound_iff`.
-/

namespace TypeContracts

namespace Value

/-- A value takes after another one that equals it if they are of one kind, and so are the values that
they hold: each element of a list or a set takes after some element of the other one, each element of a
tuple after the one in its place. A method read from a value takes after the one read from the other. -/
inductive TakesAfter : Value → Value → Prop where
  | self (v : Value) : TakesAfter v v
  | float {x y : Binary64} (same : (Value.float y).equal (.float x)) : TakesAfter (.float x) (.float y)
  | list {xs ys : List Value} (same : (Value.list ys).equal (.list xs)) (source : Value → Value)
      (stored : ∀ x ∈ xs, source x ∈ ys) (items : ∀ x ∈ xs, TakesAfter x (source x)) :
      TakesAfter (.list xs) (.list ys)
  | set {xs ys : List Value} (same : (Value.set ys).equal (.set xs)) (source : Value → Value)
      (stored : ∀ x ∈ xs, source x ∈ ys) (items : ∀ x ∈ xs, TakesAfter x (source x)) :
      TakesAfter (.set xs) (.set ys)
  | tuple {xs ys : List Value} (same : (Value.tuple ys).equal (.tuple xs))
      (items : List.Forall₂ TakesAfter xs ys) : TakesAfter (.tuple xs) (.tuple ys)
  | dict {es fs : List (Value × Value)} (same : (Value.dict fs).equal (.dict es))
      (source source' : Value × Value → Value × Value)
      (stored : ∀ e ∈ es, source e ∈ fs) (keys : ∀ e ∈ es, TakesAfter e.1 (source e).1)
      (stored' : ∀ e ∈ es, source' e ∈ fs) (values : ∀ e ∈ es, TakesAfter e.2 (source' e).2) :
      TakesAfter (.dict es) (.dict fs)
  | method {v x : Value} (m : MethodRef) (receiver : TakesAfter v x) :
      TakesAfter (.function (.bound 0 m v)) (.function (.bound 0 m x))

namespace TakesAfter

section containers

variable {xs ys : List Value} {es fs : List (Value × Value)}

theorem list_of_forall (same : (Value.list ys).equal (.list xs))
    (items : ∀ x ∈ xs, ∃ y ∈ ys, x.TakesAfter y) : (Value.list xs).TakesAfter (.list ys) := by
  choose! source items using items
  exact .list same source (fun x hx => (items x hx).1) fun x hx => (items x hx).2

theorem set_of_forall (same : (Value.set ys).equal (.set xs))
    (items : ∀ x ∈ xs, ∃ y ∈ ys, x.TakesAfter y) : (Value.set xs).TakesAfter (.set ys) := by
  choose! source items using items
  exact .set same source (fun x hx => (items x hx).1) fun x hx => (items x hx).2

theorem dict_of_forall (same : (Value.dict fs).equal (.dict es))
    (keys : ∀ e ∈ es, ∃ f ∈ fs, e.1.TakesAfter f.1)
    (values : ∀ e ∈ es, ∃ f ∈ fs, e.2.TakesAfter f.2) :
    (Value.dict es).TakesAfter (.dict fs) := by
  choose! source keys using keys
  choose! source' values using values
  exact .dict same source source' (fun e he => (keys e he).1) (fun e he => (keys e he).2)
    (fun e he => (values e he).1) fun e he => (values e he).2

end containers

variable {v x : Value}

theorem classOf (h : v.TakesAfter x) : v.classOf = x.classOf := by
  cases h <;> rfl

theorem isNull (h : v.TakesAfter x) : v.isNull = x.isNull := by
  cases h <;> rfl

/-- What equals a value equals those that take after it. A method that a check has just read equals
nothing that was there before. -/
theorem equal (h : v.TakesAfter x) {y : Value} (same : y.equal x)
    (stored : ∀ m r, y ≠ .function (.bound 0 m r)) : y.equal v := by
  cases h with
  | self => exact same
  | float sameX | list sameX | set sameX | tuple sameX | dict sameX => exact equal_trans same sameX
  | method m =>
    cases equal_iff.1 same with
    | function => exact absurd rfl (stored m _)

/-- What can be learned about a callable does not depend on its receiver. -/
theorem calling (h : v.TakesAfter x) (w : World) : w.calling v = w.calling x := by
  cases h with
  | self => rfl
  | float | list | set | tuple | dict => rfl
  | method m =>
    simp only [World.calling, Value.callable?, World.function]
    cases w.ownMethod? m.owner m.name <;> rfl

/-- An attribute read from a value takes after the one read from the other. -/
theorem getAttribute? (h : v.TakesAfter x) {w : World} {name : String} {found : Value}
    (read : w.getAttribute? 0 x name = some found) :
    ∃ found', w.getAttribute? 0 v name = some found' ∧ found'.TakesAfter found := by
  -- what is no object has no attributes of its own, and reads them from its class
  have ofClass : ∀ {v x : Value}, v.TakesAfter x →
      World.getAttribute?.ofClass w 0 x name = some found →
      ∃ found', World.getAttribute?.ofClass w 0 v name = some found' ∧ found'.TakesAfter found := by
    intro v x h read
    simp only [World.getAttribute?.ofClass, h.classOf] at read ⊢
    cases inherited : w.classAttribute? x.classOf name with
    | some a =>
      rw [inherited] at read
      exact ⟨found, read, .self found⟩
    | none =>
      rw [inherited] at read
      obtain ⟨⟨owner, m⟩, declared, rfl⟩ := Option.map_eq_some_iff.1 read
      exact ⟨_, by rw [declared]; rfl, .method _ h⟩
  have takesAfter := h
  cases h with
  | self => exact ⟨found, read, .self found⟩
  | float | list | set | tuple | dict | method => exact ofClass takesAfter read

end TakesAfter

end Value

/-- The part does not tell apart a value from one that takes after it: if it is a predicate it accepts the
one with the other, and if it is an option set it lists no method that a check has only just read. -/
def Part.Blind (p : Probe Id) : Part → Prop
  | .spec (.predicate q) => ∀ v x : Value, v.TakesAfter x → (p.test q x).run → (p.test q v).run
  | .spec (.options _ ws) => ∀ m r, .function (.bound 0 m r) ∉ ws
  | _ => True

namespace Conformance

variable {w : World} {p : Probe Id}

/-! ## Values that take after others -/

/-- A value that takes after an attribute conforms to the same member, if specs of attributes carry over. -/
theorem memberConforms_of_takesAfter {v x : Value} (h : v.TakesAfter x) {member : Member}
    (carries : ∀ s, member = .attribute s → (satisfies w p x s).run → (satisfies w p v s).run)
    (hx : (memberConforms w p x member).run) : (memberConforms w p v member).run := by
  match member with
  | .attribute s =>
    rw [memberConforms_attribute] at hx ⊢
    exact carries s rfl hx
  | .method s =>
    rw [memberConforms_method, callableConforms_iff, h.calling]
    rwa [memberConforms_method, callableConforms_iff] at hx

/-- A value satisfies what the value that it takes after satisfies. The recursion is on the spec. -/
theorem satisfies_of_takesAfter {t : TypeSpec} (blind : t.Everywhere (Part.Blind p)) {v x : Value}
    (h : v.TakesAfter x) (hx : (satisfies w p x t).run) : (satisfies w p v t).run := by
  cases t with
  | any => exact satisfies_any w p v
  | plain c => simpa [h.classOf] using hx
  | only c => simpa [h.classOf] using hx
  | predicate q =>
    rw [satisfies] at hx ⊢
    exact blind.self v x h hx
  | both l r =>
    rw [satisfies_both, Bool.and_eq_true] at hx ⊢
    exact ⟨satisfies_of_takesAfter (blind.step (.left l r)) h hx.1,
      satisfies_of_takesAfter (blind.step (.right l r)) h hx.2⟩
  | union ss =>
    rw [satisfies_union, List.any_eq_true] at hx ⊢
    obtain ⟨s, hs, hx⟩ := hx
    have := TypeSpec.size_le_of_mem hs
    exact ⟨s, hs, satisfies_of_takesAfter (blind.step (.alternative hs)) h hx⟩
  | interface i =>
    rw [satisfies_interface_iff] at hx ⊢
    intro m hm
    -- what is read from `v` takes after what is read from `x`
    obtain ⟨found, read, conforms⟩ := hx m hm
    obtain ⟨found', read', takesAfter⟩ := h.getAttribute? read
    refine ⟨found', read', ?_⟩
    have inside := Interface.everywhere_allMembers (blind.step (.interface i)) hm
    refine memberConforms_of_takesAfter takesAfter ?_ conforms
    intro s same
    have smaller := Interface.size_lt_of_mem hm
    rw [same] at inside smaller
    have : 1 + s.size < i.size := smaller
    exact satisfies_of_takesAfter inside takesAfter
  | callable key s =>
    rw [satisfies_callable, callableConforms_iff, h.calling]
    rwa [satisfies_callable, callableConforms_iff] at hx
  | list s =>
    rw [satisfies_list_iff] at hx ⊢
    obtain ⟨ys, rfl, hx⟩ := hx
    cases h with
    | self => exact ⟨ys, rfl, hx⟩
    | @list xs _ _ source stored items =>
      refine ⟨xs, rfl, fun x mem => ?_⟩
      exact satisfies_of_takesAfter (blind.step (.listElement s)) (items x mem) (hx _ (stored x mem))
  | set s =>
    rw [satisfies_set_iff] at hx ⊢
    obtain ⟨ys, rfl, hx⟩ := hx
    cases h with
    | self => exact ⟨ys, rfl, hx⟩
    | @set xs _ _ source stored items =>
      refine ⟨xs, rfl, fun x mem => ?_⟩
      exact satisfies_of_takesAfter (blind.step (.setElement s)) (items x mem) (hx _ (stored x mem))
  | tuple ss =>
    rw [satisfies_tuple_iff] at hx ⊢
    obtain ⟨ys, rfl, hx⟩ := hx
    cases h with
    | self => exact ⟨ys, rfl, hx⟩
    | @tuple xs _ _ items =>
      refine ⟨xs, rfl, forall₂_trans (fun x _ y _ s hs takesAfter hy => ?_) items hx⟩
      have := TypeSpec.size_le_of_mem hs
      exact satisfies_of_takesAfter (blind.step (.position hs)) takesAfter hy
  | mapping k s =>
    rw [satisfies_mapping_iff] at hx ⊢
    obtain ⟨fs, rfl, hx⟩ := hx
    cases h with
    | self => exact ⟨fs, rfl, hx⟩
    | @dict es _ _ source source' stored keys stored' values =>
      refine ⟨es, rfl, fun e mem => ⟨?_, ?_⟩⟩
      · exact satisfies_of_takesAfter (blind.step (.key k s)) (keys e mem) (hx _ (stored e mem)).1
      · exact satisfies_of_takesAfter (blind.step (.value k s)) (values e mem) (hx _ (stored' e mem)).2
  | optional s =>
    rw [satisfies_optional, Bool.or_eq_true] at hx ⊢
    rw [h.isNull]
    exact hx.imp_right (satisfies_of_takesAfter (blind.step (.inner s)) h)
  | options key ws =>
    rw [satisfies_options, Value.isIn, List.any_eq_true] at hx ⊢
    obtain ⟨y, hy, same⟩ := hx
    refine ⟨y, hy, h.equal same fun m r method => blind.self m r ?_⟩
    exact method ▸ hy
termination_by t.size
decreasing_by all_goals (subst_vars; simp only [TypeSpec.size]; omega)

/-! ## Portraits -/

/-- No part of the value is a method that a check has only just read. -/
def Stored (x : Value) : Prop := ∀ m r, ¬ Value.Contains x (.function (.bound 0 m r))

theorem Stored.of_contains {x y : Value} (h : Stored x) (hy : Value.Contains x y) : Stored y :=
  fun m r hr => h m r (hy.trans hr)

/-- The spec accepts the given values, and only values that take after one of them. It was made by the
constructors, and asks no predicate and nothing of the world. -/
structure Depicts (w : World) (p : Probe Id) (xs : List Value) (t : TypeSpec) : Prop where
  wellMade : WellMade t
  bare : t.MadeOf bareForms
  blind : (∀ x ∈ xs, Stored x) → t.Everywhere (Part.Blind p)
  accepts : ∀ x ∈ xs, (satisfies w p x t).run
  only : ∀ v, (satisfies w p v t).run → ∃ x ∈ xs, v.TakesAfter x

/-- A value that can be depicted: made by the constructors and equal to itself. -/
structure Presentable (x : Value) : Prop where
  built : x.Built
  nanFree : x.NaNFree

namespace Presentable

variable {x : Value} (h : Presentable x)

include h

theorem of_contains {y : Value} (hy : Value.Contains x y) : Presentable y where
  built := h.built.of_contains hy
  nanFree := fun z hz => h.nanFree z (hy.trans hz)

omit h in
theorem int (i : Int64) : Presentable (.int i) := ⟨.int i, nofun⟩

theorem equal_self : x.equal x := Value.equal_refl h.nanFree

end Presentable

section portraits

/-- A spec of the shape of a value becomes its portrait when equality with the value is asked for too. -/
theorem depicts_of_shape {x : Value} (h : Presentable x) {shape : TypeSpec} (wellMade : WellMade shape)
    (bare : shape.MadeOf bareForms) (blind : Stored x → shape.Everywhere (Part.Blind p))
    (accepts : (satisfies w p x shape).run)
    (only : ∀ v, x.equal v → (satisfies w p v shape).run → v.TakesAfter x) :
    Depicts w p [x] (.both shape (.oneOf 0 [x])) := by
  have equals : ∀ v, (satisfies w p v (.oneOf 0 [x])).run = x.equal v := by
    intro v
    rw [TypeSpec.oneOf, satisfies_options]
    show (x.equal v || false) = x.equal v
    rw [Bool.or_false]
  constructor
  case wellMade => exact wellMade_both wellMade (wellMade_oneOf 0 (by simpa using h.built))
  case bare =>
    exact TypeSpec.everywhere_both (show Form.both ∈ bareForms by decide) bare
      (TypeSpec.everywhere_options (show Form.options ∈ bareForms by decide))
  case blind =>
    intro stored
    have stored : Stored x := stored x (List.mem_singleton.2 rfl)
    refine TypeSpec.everywhere_both trivial (blind stored) (TypeSpec.everywhere_options ?_)
    intro m r method
    have same : x = .function (.bound 0 m r) := (List.mem_singleton.1 method).symm
    exact stored m r (same ▸ .self x)
  case accepts =>
    intro y hy
    rw [List.mem_singleton.1 hy, satisfies_both, accepts, equals, h.equal_self]
    rfl
  case only =>
    intro v hv
    rw [satisfies_both, equals, Bool.and_eq_true] at hv
    exact ⟨x, List.mem_singleton.2 rfl, only v hv.2 hv.1⟩

/-- Values that can be depicted one by one can be depicted together. -/
theorem exists_depicts {xs : List Value} (h : ∀ x ∈ xs, ∃ t, Depicts w p [x] t) :
    ∃ t, Depicts w p xs t := by
  induction xs with
  | nil =>
    have bare : (TypeSpec.oneOf 0 []).MadeOf bareForms :=
      TypeSpec.everywhere_options (show Form.options ∈ bareForms by decide)
    refine ⟨.oneOf 0 [], wellMade_oneOf 0 nofun, bare, fun _ => ?_, nofun, ?_⟩
    · exact TypeSpec.everywhere_options nofun
    · intro v hv
      rw [TypeSpec.oneOf, satisfies_options] at hv
      cases hv
  | cons x xs ih =>
    obtain ⟨s, hs⟩ := h x List.mem_cons_self
    obtain ⟨t, ht⟩ := ih fun y hy => h y (List.mem_cons_of_mem _ hy)
    -- bare specs join losslessly: their union accepts what one of them accepts
    have union := satisfies_or_of_bare (w := w) (p := p) hs.wellMade ht.wellMade hs.bare ht.bare
    have bare : (s.or t).MadeOf bareForms :=
      TypeSpec.everywhere_or (fun _ => show Form.union ∈ bareForms by decide) hs.bare ht.bare
    refine ⟨s.or t, TypeSpec.wellMade_or hs.wellMade ht.wellMade, bare, ?_, ?_, ?_⟩
    · intro stored
      obtain ⟨first, rest⟩ := List.forall_mem_cons.1 stored
      exact TypeSpec.everywhere_or (fun _ => trivial) (hs.blind (List.forall_mem_singleton.2 first))
        (ht.blind rest)
    · intro y hy
      rw [union]
      rcases List.mem_cons.1 hy with rfl | hy
      · exact .inl (hs.accepts y (List.mem_singleton.2 rfl))
      · exact .inr (ht.accepts y hy)
    · intro v hv
      rcases (union v).1 hv with hv | hv
      · obtain ⟨y, hy, takesAfter⟩ := hs.only v hv
        exact ⟨x, List.mem_cons_self, List.mem_singleton.1 hy ▸ takesAfter⟩
      · obtain ⟨y, hy, takesAfter⟩ := ht.only v hv
        exact ⟨y, List.mem_cons_of_mem _ hy, takesAfter⟩

/-- The class of a value without parts is the shape of its portrait. -/
theorem exists_portrait_of_leaf {x : Value} (h : Presentable x)
    (leaf : ∀ v, x.equal v → v.classOf = x.classOf → v.TakesAfter x) : ∃ t, Depicts w p [x] t := by
  have wellMade : WellMade (.only x.classOf) := ⟨.only _, TypeSpec.everywhere_only trivial⟩
  have bare : (TypeSpec.only x.classOf).MadeOf bareForms :=
    TypeSpec.everywhere_only (show Form.only ∈ bareForms by decide)
  have blind : Stored x → (TypeSpec.only x.classOf).Everywhere (Part.Blind p) :=
    fun _ => TypeSpec.everywhere_only trivial
  refine ⟨_, depicts_of_shape h wellMade bare blind (by simp) ?_⟩
  intro v same hv
  exact leaf v same (by simpa using hv)

/-- A list of values with portraits has one. -/
theorem exists_portrait_of_list {ys : List Value} (h : Presentable (.list ys))
    (parts : ∀ y ∈ ys, ∃ t, Depicts w p [y] t) : ∃ t, Depicts w p [.list ys] t := by
  obtain ⟨t, ht⟩ := exists_depicts parts
  have wellMade : WellMade (.list t) :=
    ⟨.list ht.wellMade.built, TypeSpec.everywhere_list trivial ht.wellMade.values⟩
  have bare : (TypeSpec.list t).MadeOf bareForms :=
    TypeSpec.everywhere_list (show Form.list ∈ bareForms by decide) ht.bare
  have blind : Stored (.list ys) → (TypeSpec.list t).Everywhere (Part.Blind p) := fun stored =>
    TypeSpec.everywhere_list trivial
      (ht.blind fun y hy => stored.of_contains (.listItem hy (.self y)))
  have accepts := (satisfies_list_iff w p (.list ys)).2 ⟨ys, rfl, ht.accepts⟩
  refine ⟨_, depicts_of_shape h wellMade bare blind accepts ?_⟩
  intro v same hv
  obtain ⟨xs, rfl, items⟩ := (satisfies_list_iff w p v).1 hv
  exact .list_of_forall same fun x hx => ht.only x (items x hx)

theorem exists_portrait_of_set {ys : List Value} (h : Presentable (.set ys))
    (parts : ∀ y ∈ ys, ∃ t, Depicts w p [y] t) : ∃ t, Depicts w p [.set ys] t := by
  obtain ⟨t, ht⟩ := exists_depicts parts
  have wellMade : WellMade (.set t) :=
    ⟨.set ht.wellMade.built, TypeSpec.everywhere_set trivial ht.wellMade.values⟩
  have bare : (TypeSpec.set t).MadeOf bareForms :=
    TypeSpec.everywhere_set (show Form.set ∈ bareForms by decide) ht.bare
  have blind : Stored (.set ys) → (TypeSpec.set t).Everywhere (Part.Blind p) := fun stored =>
    TypeSpec.everywhere_set trivial
      (ht.blind fun y hy => stored.of_contains (.setItem hy (.self y)))
  have accepts := (satisfies_set_iff w p (.set ys)).2 ⟨ys, rfl, ht.accepts⟩
  refine ⟨_, depicts_of_shape h wellMade bare blind accepts ?_⟩
  intro v same hv
  obtain ⟨xs, rfl, items⟩ := (satisfies_set_iff w p v).1 hv
  exact .set_of_forall same fun x hx => ht.only x (items x hx)

/-- The portrait of a tuple asks for the portraits in order, so they are not joined. -/
theorem exists_portrait_of_tuple {ys : List Value} (h : Presentable (.tuple ys))
    (parts : ∀ y ∈ ys, ∃ t, Depicts w p [y] t) : ∃ t, Depicts w p [.tuple ys] t := by
  choose! portrait parts using parts
  have wellMade : WellMade (.tuple (ys.map portrait)) := by
    refine ⟨.tuple (List.forall_mem_map.2 fun y hy => (parts y hy).wellMade.built), ?_⟩
    exact TypeSpec.everywhere_tuple trivial
      (List.forall_mem_map.2 fun y hy => (parts y hy).wellMade.values)
  have bare : (TypeSpec.tuple (ys.map portrait)).MadeOf bareForms :=
    TypeSpec.everywhere_tuple (show Form.tuple ∈ bareForms by decide)
      (List.forall_mem_map.2 fun y hy => (parts y hy).bare)
  have blind : Stored (.tuple ys) → (TypeSpec.tuple (ys.map portrait)).Everywhere (Part.Blind p) := by
    intro stored
    refine TypeSpec.everywhere_tuple trivial (List.forall_mem_map.2 fun y hy => ?_)
    exact (parts y hy).blind
      (List.forall_mem_singleton.2 (stored.of_contains (.tupleItem hy (.self y))))
  have accepts : (satisfies w p (.tuple ys) (.tuple (ys.map portrait))).run := by
    refine (satisfies_tuple_iff w p _).2 ⟨ys, rfl, List.forall₂_map_right_iff.2 ?_⟩
    exact List.forall₂_same.2 fun y hy => (parts y hy).accepts y (List.mem_singleton.2 rfl)
  refine ⟨_, depicts_of_shape h wellMade bare blind accepts ?_⟩
  intro v same hv
  obtain ⟨xs, rfl, items⟩ := (satisfies_tuple_iff w p v).1 hv
  refine .tuple same (forall₂_imp_of_mem ?_ (List.forall₂_map_right_iff.1 items))
  intro x _ y hy hx
  obtain ⟨z, hz, takesAfter⟩ := (parts y hy).only x hx
  exact List.mem_singleton.1 hz ▸ takesAfter

/-- The keys and the values of a dict are depicted apart from each other. -/
theorem exists_portrait_of_dict {fs : List (Value × Value)} (h : Presentable (.dict fs))
    (keys : ∀ f ∈ fs, ∃ t, Depicts w p [f.1] t) (values : ∀ f ∈ fs, ∃ t, Depicts w p [f.2] t) :
    ∃ t, Depicts w p [.dict fs] t := by
  obtain ⟨s, hs⟩ := exists_depicts (List.forall_mem_map.2 keys)
  obtain ⟨t, ht⟩ := exists_depicts (List.forall_mem_map.2 values)
  have wellMade : WellMade (.mapping s t) := ⟨.mapping hs.wellMade.built ht.wellMade.built,
    TypeSpec.everywhere_mapping trivial hs.wellMade.values ht.wellMade.values⟩
  have bare : (TypeSpec.mapping s t).MadeOf bareForms :=
    TypeSpec.everywhere_mapping (show Form.mapping ∈ bareForms by decide) hs.bare ht.bare
  have blind : Stored (.dict fs) → (TypeSpec.mapping s t).Everywhere (Part.Blind p) := by
    intro stored
    refine TypeSpec.everywhere_mapping trivial (hs.blind ?_) (ht.blind ?_)
    · exact List.forall_mem_map.2 fun f hf => stored.of_contains (.key hf (.self f.1))
    · exact List.forall_mem_map.2 fun f hf => stored.of_contains (.entry hf (.self f.2))
  have accepts : (satisfies w p (.dict fs) (.mapping s t)).run := by
    refine (satisfies_mapping_iff w p _).2 ⟨fs, rfl, fun f hf => ⟨?_, ?_⟩⟩
    · exact hs.accepts _ (List.mem_map_of_mem hf)
    · exact ht.accepts _ (List.mem_map_of_mem hf)
  refine ⟨_, depicts_of_shape h wellMade bare blind accepts ?_⟩
  intro v same hv
  obtain ⟨es, rfl, entries⟩ := (satisfies_mapping_iff w p v).1 hv
  refine .dict_of_forall same (fun e he => ?_) fun e he => ?_
  · obtain ⟨k, hk, takesAfter⟩ := hs.only e.1 (entries e he).1
    obtain ⟨f, hf, rfl⟩ := List.mem_map.1 hk
    exact ⟨f, hf, takesAfter⟩
  · obtain ⟨k, hk, takesAfter⟩ := ht.only e.2 (entries e he).2
    obtain ⟨f, hf, rfl⟩ := List.mem_map.1 hk
    exact ⟨f, hf, takesAfter⟩

/-- Each value that can be depicted has a portrait. The recursion is on the value. -/
theorem exists_portrait {x : Value} (h : Presentable x) : ∃ t, Depicts w p [x] t := by
  cases x with
  | list ys =>
    refine exists_portrait_of_list h fun y hy => ?_
    have := List.sizeOf_lt_of_mem hy
    exact exists_portrait (h.of_contains (.listItem hy (.self y)))
  | set ys =>
    refine exists_portrait_of_set h fun y hy => ?_
    have := List.sizeOf_lt_of_mem hy
    exact exists_portrait (h.of_contains (.setItem hy (.self y)))
  | tuple ys =>
    refine exists_portrait_of_tuple h fun y hy => ?_
    have := List.sizeOf_lt_of_mem hy
    exact exists_portrait (h.of_contains (.tupleItem hy (.self y)))
  | dict fs =>
    refine exists_portrait_of_dict h (fun f hf => ?_) fun f hf => ?_
    · have := Value.sizeOf_entry_lt hf
      exact exists_portrait (h.of_contains (.key hf (.self f.1)))
    · have := Value.sizeOf_entry_lt hf
      exact exists_portrait (h.of_contains (.entry hf (.self f.2)))
  | int i =>
    refine exists_portrait_of_leaf h fun v same kind => ?_
    cases Value.equal_iff.1 same with
    | int => exact .self _
    | intFloat =>
      -- an equal float is of another class, which the portrait tells apart
      have kind : Class.float = Class.int := kind
      exact absurd kind (by decide)
  | float y =>
    refine exists_portrait_of_leaf h fun v same kind => ?_
    cases Value.equal_iff.1 same with
    | float => exact .float same
    | floatInt =>
      have kind : Class.int = Class.float := kind
      exact absurd kind (by decide)
  | null | bool | str | object | function | cls =>
    refine exists_portrait_of_leaf h fun v same _ => ?_
    cases Value.equal_iff.1 same
    exact .self _
termination_by sizeOf x
decreasing_by all_goals (subst_vars; simp; omega)

end portraits

/-! ## Option sets -/

/-- An option set accepts a value exactly if one of the values that it stores equals it. -/
theorem satisfies_oneOf_iff {key : Nat} {vs : List Value} {v : Value} :
    (satisfies w p v (.oneOf key vs)).run ↔ ∃ x ∈ Value.distinct vs, x.equal v := by
  rw [TypeSpec.oneOf, satisfies_options, Value.isIn, List.any_eq_true]

/-- If an option set is below a target, then a value that it accepts satisfies the target with any stored
value from which that carries over. -/
theorem satisfies_of_isSubtype_oneOf {key : Nat} {vs : List Value} {v x : Value} {t : TypeSpec}
    (below : (isSubtype w p (.oneOf key vs) t).run) (accepted : (satisfies w p v (.oneOf key vs)).run)
    (hx : x ∈ Value.distinct vs) (carries : (satisfies w p x t).run → (satisfies w p v t).run) :
    (satisfies w p v t).run := by
  rcases (isSubtype_iff w p).1 below with same | top | rule
  · obtain ⟨y, hy, equal⟩ := satisfies_oneOf_iff.1 accepted
    cases TypeSpec.equal_iff.1 same with
    | options h =>
      rw [satisfies_options, Value.isIn, List.any_eq_true]
      rcases h with ⟨-, rfl⟩ | partners
      · exact ⟨y, hy, equal⟩
      · obtain ⟨z, hz, equal'⟩ := partners.2 y hy
        exact ⟨z, hz, Value.equal_trans equal' equal⟩
  · exact satisfies_of_isTop top v
  · exact carries (rule_options_iff.1 rule x hx)

/-- Option sets as candidates. A value that an option set accepts satisfies each target that the option set
is below, if it is a stored value, or takes after one that the target does not tell apart from it. If it
takes after none of them, and they can be depicted, there is a target made by the constructors, without
predicates, interfaces and callables, that the option set is below and that the value does not satisfy. -/
theorem oneOf_sound_iff (w : World) (p : Probe Id) (key : Nat) {vs : List Value} {v : Value}
    (accepted : (satisfies w p v (.oneOf key vs)).run) :
    (∀ t : TypeSpec, (isSubtype w p (.oneOf key vs) t).run →
      (v ∈ Value.distinct vs ∨
        t.Everywhere (Part.Blind p) ∧ ∃ x ∈ Value.distinct vs, v.TakesAfter x) →
      (satisfies w p v t).run) ∧
    ((∀ x ∈ Value.distinct vs, Presentable x) → (∀ x ∈ Value.distinct vs, ¬ v.TakesAfter x) →
      ∃ t, WellMade t ∧ t.MadeOf bareForms ∧
        ((∀ x ∈ Value.distinct vs, Stored x) → t.Everywhere (Part.Blind p)) ∧
        (isSubtype w p (.oneOf key vs) t).run ∧ ¬ (satisfies w p v t).run) := by
  constructor
  · intro t below alike
    rcases alike with hv | ⟨blind, x, hx, takesAfter⟩
    · exact satisfies_of_isSubtype_oneOf below accepted hv id
    · exact satisfies_of_isSubtype_oneOf below accepted hx (satisfies_of_takesAfter blind takesAfter)
  · intro presentable unlike
    have portraits : ∀ x ∈ Value.distinct vs, ∃ t, Depicts w p [x] t :=
      fun x hx => exists_portrait (presentable x hx)
    -- the target is the portrait of all stored values together
    obtain ⟨t, ht⟩ := exists_depicts portraits
    refine ⟨t, ht.wellMade, ht.bare, ht.blind, isSubtype_of_rule (.options ht.accepts), ?_⟩
    intro hv
    obtain ⟨x, hx, takesAfter⟩ := ht.only v hv
    exact unlike x hx takesAfter

/-- A list of an integer and a float takes after one that holds them in the other order; a float does not
take after an integer. -/
theorem swapped_list_oneOf_sound_iff :
    let one : Value := .float ⟨0x3ff0000000000000⟩
    let p : Probe Id := ⟨fun _ v => v.classOf == .list, fun _ => ()⟩
    let stored : Value := .list [.int 1, one]
    let v : Value := .list [one, .int 1]
    let t : TypeSpec :=
      .both (.predicate ⟨0, "is_list"⟩) (.list (.union [.plain .int, .plain .float]))
    ((satisfies .initial p v (.oneOf 1 [stored])).run ∧ v.TakesAfter stored ∧
      (satisfies .initial p v t).run) ∧
    (satisfies .initial p one (.oneOf 1 [.int 1])).run ∧
      ∃ t, WellMade t ∧ (isSubtype .initial p (.oneOf 1 [.int 1]) t).run ∧
        ¬ (satisfies .initial p one t).run := by
  intro one p stored v t
  have acceptedList : (satisfies .initial p v (.oneOf 1 [stored])).run :=
    (satisfies_options _ p v 1 _).trans (by decide +kernel)
  have accepted : (satisfies .initial p one (.oneOf 1 [.int 1])).run :=
    (satisfies_options _ p one 1 _).trans (by decide +kernel)
  have same : stored.equal v := by decide +kernel
  have takesAfter : v.TakesAfter stored := by
    refine .list_of_forall same ?_
    simp only [List.mem_cons, List.not_mem_nil, or_false, forall_eq_or_imp, forall_eq]
    exact ⟨⟨one, .inr rfl, .self _⟩, ⟨.int 1, .inl rfl, .self _⟩⟩
  have keeps : Value.distinct [stored] = [stored] := rfl
  have below : (isSubtype .initial p (.oneOf 1 [stored]) t).run := by
    refine isSubtype_of_rule (.options ?_)
    rw [keeps, List.forall_mem_singleton, satisfies_both, Bool.and_eq_true]
    refine ⟨by rw [satisfies]; rfl, (satisfies_list_iff _ p _).2 ⟨_, rfl, ?_⟩⟩
    simp only [List.forall_mem_cons, satisfies_union]
    simp [one, Value.classOf, Class.isSubclassOf_refl]
  have blind : t.Everywhere (Part.Blind p) := by
    refine TypeSpec.everywhere_both trivial (TypeSpec.everywhere_predicate ?_)
      (TypeSpec.everywhere_list trivial (TypeSpec.everywhere_union trivial ?_))
    · intro v x takesAfter hx
      show (v.classOf == .list) = true
      rw [takesAfter.classOf]
      exact hx
    · exact List.forall_mem_cons.2 ⟨TypeSpec.everywhere_plain trivial,
        List.forall_mem_singleton.2 (TypeSpec.everywhere_plain trivial)⟩
  have unlike : ¬ Value.TakesAfter (.float ⟨0x3ff0000000000000⟩) (.int 1) := by
    intro h
    cases h
  refine ⟨⟨acceptedList, takesAfter, ?_⟩, accepted, ?_⟩
  · exact (oneOf_sound_iff .initial p 1 acceptedList).1 t below
      (.inr ⟨blind, stored, List.mem_singleton.2 rfl, takesAfter⟩)
  · obtain ⟨t, wellMade, -, -, below, refused⟩ := (oneOf_sound_iff .initial p 1 accepted).2
      (List.forall_mem_singleton.2 (.int 1)) (List.forall_mem_singleton.2 unlike)
    exact ⟨t, wellMade, below, refused⟩

/-- The option set of an integer is below the class of integers, but it also accepts an equal float. -/
theorem not_oneOf_sound :
    ¬ ∀ (w : World) (p : Probe Id) (key : Nat) (vs : List Value) (t : TypeSpec) (v : Value),
      (isSubtype w p (.oneOf key vs) t).run → (satisfies w p v (.oneOf key vs)).run →
      (satisfies w p v t).run := by
  intro sound
  let p : Probe Id := ⟨fun _ _ => false, fun _ => ()⟩
  have below : (isSubtype .initial p (.oneOf 1 [.int 1]) (.plain .int)).run := by
    refine isSubtype_of_rule (.options (List.forall_mem_singleton.2 ?_))
    exact (satisfies_plain _ p _ _).trans (by decide +kernel)
  have accepted : (satisfies .initial p (.float ⟨0x3ff0000000000000⟩) (.oneOf 1 [.int 1])).run :=
    (satisfies_options _ p _ 1 _).trans (by decide +kernel)
  have := (satisfies_plain _ p _ _).symm.trans (sound _ p 1 _ _ _ below accepted)
  revert this
  decide +kernel

end Conformance

end TypeContracts
