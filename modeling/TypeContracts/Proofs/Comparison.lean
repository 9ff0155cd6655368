import Mathlib.Data.List.Basic
import Mathlib.Data.List.Forall2
import Mathlib.Data.List.Induction
import Mathlib.Data.List.Pairwise
import TypeContracts.Spec.Union

/-!
Comparisons of lists and of optional elements, lifted from a comparison of elements that need not be
an equivalence. Sets, option sets and unions are made by one loop that drops what equals an earlier
element; `distinctBy` is that loop. A one-sided comparison of two lists of the same length is two-sided
if the first has no repetitions, which is what makes the equality of sets and unions symmetric; and two
lists with the same elements up to an equality stay so when the loop has run over them.
Main statements: `Partnered.symm`, `partnered_distinctBy`.
-/

namespace TypeContracts

variable {α β : Type}

/-- No element equals a later one. -/
def Distinct (same : α → α → Bool) (xs : List α) : Prop := xs.Pairwise fun x y => same x y = false

/-- The elements without those equal to an earlier one. -/
def distinctBy (same : α → α → Bool) (xs : List α) : List α :=
  xs.foldl (fun kept x => if kept.any (same · x) then kept else kept ++ [x]) []

theorem Value.distinct_eq (vs : List Value) : Value.distinct vs = distinctBy Value.equal vs := rfl

theorem TypeSpec.distinct_eq (ss : List TypeSpec) :
    TypeSpec.distinct ss = distinctBy TypeSpec.equal ss := rfl

section loop

variable {same : α → α → Bool}

theorem Distinct.append_singleton {kept : List α} {x : α} (h : Distinct same kept)
    (fresh : kept.any (same · x) = false) : Distinct same (kept ++ [x]) := by
  rw [Distinct, List.pairwise_append]
  refine ⟨h, List.pairwise_singleton _ _, fun y hy z hz => ?_⟩
  rw [List.mem_singleton.1 hz]
  simpa using List.any_eq_false.1 fresh y hy

/-- What the loop keeps of further elements `xs` on top of `kept`. -/
theorem distinct_foldl (xs : List α) {kept : List α} (h : Distinct same kept) :
    Distinct same
      (xs.foldl (fun kept x => if kept.any (same · x) then kept else kept ++ [x]) kept) := by
  induction xs generalizing kept with
  | nil => exact h
  | cons x xs ih =>
    rw [List.foldl_cons]
    split
    · exact ih h
    · rename_i fresh
      exact ih (h.append_singleton (by simpa using fresh))

theorem mem_foldl {xs kept : List α} {y : α}
    (h : y ∈ xs.foldl (fun kept x => if kept.any (same · x) then kept else kept ++ [x]) kept) :
    y ∈ kept ∨ y ∈ xs := by
  induction xs generalizing kept with
  | nil => exact .inl h
  | cons x xs ih =>
    rw [List.foldl_cons] at h
    rcases ih h with hk | hx
    · split at hk
      · exact .inl hk
      · rcases List.mem_append.1 hk with hk | hk
        · exact .inl hk
        · exact .inr (by rw [List.mem_singleton.1 hk]; exact List.mem_cons_self)
    · exact .inr (List.mem_cons_of_mem _ hx)

theorem mem_foldl_of_mem {xs kept : List α} {y : α} (h : y ∈ kept) :
    y ∈ xs.foldl (fun kept x => if kept.any (same · x) then kept else kept ++ [x]) kept := by
  induction xs generalizing kept with
  | nil => exact h
  | cons x xs ih =>
    rw [List.foldl_cons]
    split
    · exact ih h
    · exact ih (List.mem_append_left _ h)

/-- Of each element the loop keeps that element itself or one that equals it. -/
theorem mem_or_exists_mem_foldl {xs kept : List α} {x : α} (hx : x ∈ xs) :
    x ∈ xs.foldl (fun kept x => if kept.any (same · x) then kept else kept ++ [x]) kept ∨
      ∃ y ∈ xs.foldl (fun kept x => if kept.any (same · x) then kept else kept ++ [x]) kept,
        same y x := by
  induction xs generalizing kept with
  | nil => cases hx
  | cons z xs ih =>
    rw [List.foldl_cons]
    rcases List.mem_cons.1 hx with rfl | hx
    · split
      · rename_i found
        obtain ⟨y, hy, hyx⟩ := List.any_eq_true.1 found
        exact .inr ⟨y, mem_foldl_of_mem hy, hyx⟩
      · exact .inl (mem_foldl_of_mem (by simp))
    · exact ih hx

/-- The loop drops nothing where nothing is repeated. -/
theorem foldl_eq_append {xs kept : List α} (h : Distinct same (kept ++ xs)) :
    xs.foldl (fun kept x => if kept.any (same · x) then kept else kept ++ [x]) kept =
      kept ++ xs := by
  induction xs generalizing kept with
  | nil => rw [List.foldl_nil, List.append_nil]
  | cons x xs ih =>
    obtain ⟨-, -, apart⟩ := List.pairwise_append.1 h
    have fresh : kept.any (same · x) = false := by
      simpa using fun y hy => apart y hy x List.mem_cons_self
    rw [List.foldl_cons, fresh, if_neg Bool.false_ne_true,
      ih (by rwa [List.append_assoc, List.singleton_append]), List.append_assoc,
      List.singleton_append]

/-- The loop drops everything that is kept already. -/
theorem foldl_eq_of_found {xs kept : List α} (h : ∀ x ∈ xs, kept.any (same · x)) :
    xs.foldl (fun kept x => if kept.any (same · x) then kept else kept ++ [x]) kept = kept := by
  induction xs with
  | nil => rfl
  | cons x xs ih =>
    rw [List.foldl_cons, if_pos (h x List.mem_cons_self)]
    exact ih fun y hy => h y (List.mem_cons_of_mem _ hy)

theorem distinct_distinctBy (xs : List α) : Distinct same (distinctBy same xs) :=
  distinct_foldl xs List.Pairwise.nil

/-- What an element of the list equals, one that the loop keeps equals too. -/
theorem exists_mem_distinctBy_of_same {xs : List α} {x z : α} (hx : x ∈ xs) (hxz : same x z)
    (trans : ∀ {x y z : α}, same x y → same y z → same x z) :
    ∃ y ∈ distinctBy same xs, same y z := by
  rcases mem_or_exists_mem_foldl hx with kept | ⟨y, hy, hyx⟩
  · exact ⟨x, kept, hxz⟩
  · exact ⟨y, hy, trans hyx hxz⟩

/-- The loop keeps an equal of every element that equals itself. -/
theorem exists_mem_distinctBy {xs : List α} {x : α} (self : same x x) (hx : x ∈ xs) :
    ∃ y ∈ distinctBy same xs, same y x := by
  rcases mem_or_exists_mem_foldl hx with kept | covered
  · exact ⟨x, kept, self⟩
  · exact covered

theorem distinctBy_eq_self {xs : List α} (h : Distinct same xs) : distinctBy same xs = xs := by
  rw [← List.nil_append xs] at h
  exact foldl_eq_append h

/-- Elements without repetitions in front are all kept, and the loop goes on from there. -/
theorem distinctBy_append {xs : List α} (h : Distinct same xs) (ys : List α) :
    distinctBy same (xs ++ ys) =
      ys.foldl (fun kept x => if kept.any (same · x) then kept else kept ++ [x]) xs := by
  have front : xs.foldl (fun kept x => if kept.any (same · x) then kept else kept ++ [x]) [] = xs :=
    distinctBy_eq_self h
  rw [distinctBy, List.foldl_append, front]

theorem mem_distinctBy_append {xs ys : List α} (h : Distinct same xs) {x : α} (hx : x ∈ xs) :
    x ∈ distinctBy same (xs ++ ys) :=
  distinctBy_append h ys ▸ mem_foldl_of_mem hx

theorem mem_of_mem_distinctBy {xs : List α} {x : α} (h : x ∈ distinctBy same xs) : x ∈ xs := by
  rcases mem_foldl h with h | h
  · cases h
  · exact h

theorem distinctBy_ne_nil {xs : List α} (h : xs ≠ []) : distinctBy same xs ≠ [] := by
  obtain ⟨x, xs, rfl⟩ := List.exists_cons_of_ne_nil h
  have first : x ∈ distinctBy same (x :: xs) := by
    rw [distinctBy, List.foldl_cons]
    exact mem_foldl_of_mem (by simp)
  exact List.ne_nil_of_mem first

/-! ### Order

Where the comparison is an equivalence on the elements, each class of equal elements is represented by the
first of them, and the representatives keep their order. -/

theorem distinctBy_concat (xs : List α) (x : α) :
    distinctBy same (xs ++ [x]) =
      if (distinctBy same xs).any (same · x) then distinctBy same xs
      else distinctBy same xs ++ [x] := by
  rw [distinctBy, List.foldl_append]
  rfl

/-- An element that is kept in addition equals none of those before it. -/
theorem same_eq_false_of_fresh {xs : List α} {x : α}
    (fresh : (distinctBy same xs).any (same · x) = false) (symm : ∀ y ∈ xs, same x y → same y x)
    (trans : ∀ {x y z : α}, same x y → same y z → same x z) : ∀ y ∈ xs, same x y = false := by
  intro y hy
  by_contra h
  have hyx := symm y hy ((Bool.not_eq_false _).mp h)
  obtain ⟨z, hz, hzx⟩ := exists_mem_distinctBy_of_same hy hyx trans
  exact List.any_eq_false.1 fresh z hz hzx

theorem first_distinctBy {xs : List α} (self : ∀ x ∈ xs, same x x)
    (symm : ∀ x ∈ xs, ∀ y ∈ xs, same x y → same y x)
    (trans : ∀ {x y z : α}, same x y → same y z → same x z) :
    (∀ y ∈ distinctBy same xs, xs.find? (same y) = some y) ∧
      (distinctBy same xs).Pairwise fun y z => xs.findIdx (same y) < xs.findIdx (same z) := by
  induction xs using List.reverseRecOn with
  | nil => exact ⟨nofun, .nil⟩
  | append_singleton xs x ih =>
    rw [List.forall_mem_append, List.forall_mem_singleton] at self
    have before : ∀ y ∈ xs, y ∈ xs ++ [x] := fun y hy => List.mem_append_left _ hy
    have last : x ∈ xs ++ [x] := List.mem_append_right _ (List.mem_singleton.2 rfl)
    obtain ⟨found, ordered⟩ := ih self.1 fun y hy z hz => symm y (before y hy) z (before z hz)
    have inside : ∀ y ∈ distinctBy same xs, xs.findIdx (same y) < xs.length := fun y hy =>
      List.findIdx_lt_length.2 ⟨y, mem_of_mem_distinctBy hy, self.1 y (mem_of_mem_distinctBy hy)⟩
    -- what was found in `xs` is found there still
    have found' : ∀ y ∈ distinctBy same xs, (xs ++ [x]).find? (same y) = some y := by
      intro y hy
      rw [List.find?_append, found y hy]
      rfl
    have ordered' : (distinctBy same xs).Pairwise fun y z =>
        (xs ++ [x]).findIdx (same y) < (xs ++ [x]).findIdx (same z) := by
      refine ordered.imp_of_mem fun {y z} hy hz lt => ?_
      rwa [List.findIdx_append, List.findIdx_append, if_pos (inside y hy), if_pos (inside z hz)]
    rw [distinctBy_concat]
    split
    · exact ⟨found', ordered'⟩
    · rename_i fresh
      have others := same_eq_false_of_fresh ((Bool.not_eq_true _).mp fresh)
        (fun y hy => symm x last y (before y hy)) trans
      constructor
      · rw [List.forall_mem_append, List.forall_mem_singleton]
        refine ⟨found', ?_⟩
        rw [List.find?_append, List.find?_eq_none.2 (by simpa using others)]
        simp [self.2]
      · rw [List.pairwise_append]
        refine ⟨ordered', List.pairwise_singleton _ _, fun y hy z hz => ?_⟩
        cases List.mem_singleton.1 hz
        rw [List.findIdx_append, List.findIdx_append, if_pos (inside y hy),
          List.findIdx_eq_length.2 others, if_neg (Nat.lt_irrefl _)]
        exact Nat.lt_of_lt_of_le (inside y hy) (Nat.le_add_left _ _)

end loop

/-! ## Comparison without regard to order -/

/-- The lists are equally long, and every element of the first has a partner in the second. -/
def Partnered (R : α → β → Prop) (xs : List α) (ys : List β) : Prop :=
  xs.length = ys.length ∧ ∀ x ∈ xs, ∃ y ∈ ys, R x y

/-- Without an element that none of the others needs, a list still holds all their partners. -/
theorem exists_partner_apart {R : α → β → Prop} {xs : List α} {y : β} {before after : List β}
    (h : ∀ x ∈ xs, ∃ z ∈ before ++ y :: after, R x z) (unneeded : ∀ x ∈ xs, ¬ R x y) :
    ∀ x ∈ xs, ∃ z ∈ before ++ after, R x z := by
  intro x hx
  obtain ⟨z, hz, hxz⟩ := h x hx
  have ne : z ≠ y := fun e => unneeded x hx (e ▸ hxz)
  exact ⟨z, by simpa [ne] using hz, hxz⟩

/-- If no two elements of the first list share a partner, it is no longer than the second. -/
theorem length_le_of_partners {R : α → β → Prop} {xs : List α} {ys : List β}
    (h : ∀ x ∈ xs, ∃ y ∈ ys, R x y)
    (apart : xs.Pairwise fun x x' => ∀ y ∈ ys, R x y → ¬ R x' y) : xs.length ≤ ys.length := by
  induction xs generalizing ys with
  | nil => exact Nat.zero_le _
  | cons x xs ih =>
    obtain ⟨y, hy, hxy⟩ := h x List.mem_cons_self
    obtain ⟨before, after, rfl⟩ := List.append_of_mem hy
    obtain ⟨apart_x, apart_xs⟩ := List.pairwise_cons.1 apart
    -- `y` is the partner of `x`, so the others do without it
    have rest := exists_partner_apart (fun x' hx' => h x' (List.mem_cons_of_mem _ hx'))
      fun x' hx' => apart_x x' hx' y hy hxy
    have fewer := ((List.sublist_cons_self y after).append_left before).subset
    have := ih rest (apart_xs.imp fun hp z hz => hp z (fewer hz))
    simp only [List.length_append, List.length_cons] at this ⊢
    omega

/-- If no two elements of the first list share a partner, the elements of the second have partners
too. -/
theorem Partnered.exists_partner {R : α → β → Prop} {xs : List α} {ys : List β}
    (h : Partnered R xs ys) (apart : xs.Pairwise fun x x' => ∀ y ∈ ys, R x y → ¬ R x' y) :
    ∀ y ∈ ys, ∃ x ∈ xs, R x y := by
  intro y hy
  by_contra none
  obtain ⟨before, after, rfl⟩ := List.append_of_mem hy
  have rest := exists_partner_apart h.2 fun x hx hxy => none ⟨x, hx, hxy⟩
  have fewer := ((List.sublist_cons_self y after).append_left before).subset
  have shorter := length_le_of_partners rest (apart.imp fun hp z hz => hp z (fewer hz))
  have := h.1
  simp only [List.length_append, List.length_cons] at shorter this
  omega

theorem Partnered.trans {γ : Type} {R : α → β → Prop} {S : β → γ → Prop} {T : α → γ → Prop}
    {xs : List α} {ys : List β} {zs : List γ}
    (trans : ∀ x ∈ xs, ∀ y ∈ ys, ∀ z ∈ zs, R x y → S y z → T x z)
    (hxy : Partnered R xs ys) (hyz : Partnered S ys zs) : Partnered T xs zs := by
  refine ⟨hxy.1.trans hyz.1, fun x hx => ?_⟩
  obtain ⟨y, hy, hr⟩ := hxy.2 x hx
  obtain ⟨z, hz, hs⟩ := hyz.2 y hy
  exact ⟨z, hz, trans x hx y hy z hz hr hs⟩

/-- Partners are mutual if the first list has no repetitions and elements with a common partner
count as the same. -/
theorem Partnered.symm {same : α → α → Bool} {R : α → β → Prop} {S : β → α → Prop} {xs : List α}
    {ys : List β} (distinct : Distinct same xs)
    (join : ∀ x ∈ xs, ∀ x' ∈ xs, ∀ y ∈ ys, R x y → R x' y → same x x')
    (swap : ∀ x ∈ xs, ∀ y ∈ ys, R x y → S y x) (h : Partnered R xs ys) : Partnered S ys xs := by
  have apart : xs.Pairwise fun x x' => ∀ y ∈ ys, R x y → ¬ R x' y := by
    refine distinct.imp_of_mem fun {x x'} hx hx' ne y hy hxy hxy' => ?_
    have := join x hx x' hx' y hy hxy hxy'
    simp [ne] at this
  refine ⟨h.1.symm, fun y hy => ?_⟩
  obtain ⟨x, hx, hxy⟩ := h.exists_partner apart y hy
  exact ⟨x, hx, swap x hx y hy hxy⟩

/-! ## Lists with the same elements up to an equality -/

/-- Every element of the first list has an equal in the second. -/
def Covered (same : α → α → Bool) (xs ys : List α) : Prop := ∀ x ∈ xs, ∃ y ∈ ys, same y x

section covered

variable {same : α → α → Bool} {xs ys zs : List α}

theorem Covered.of_subset (self : ∀ x ∈ xs, same x x) (h : xs ⊆ ys) : Covered same xs ys :=
  fun x hx => ⟨x, h hx, self x hx⟩

theorem Covered.trans (hxy : Covered same xs ys) (hyz : Covered same ys zs)
    (trans : ∀ {x y z : α}, same x y → same y z → same x z) : Covered same xs zs := by
  intro x hx
  obtain ⟨y, hy, hyx⟩ := hxy x hx
  obtain ⟨z, hz, hzy⟩ := hyz y hy
  exact ⟨z, hz, trans hzy hyx⟩

theorem Covered.append {xs' ys' : List α} (h : Covered same xs ys) (h' : Covered same xs' ys') :
    Covered same (xs ++ xs') (ys ++ ys') := by
  intro x hx
  rcases List.mem_append.1 hx with hx | hx
  · obtain ⟨y, hy, hyx⟩ := h x hx
    exact ⟨y, List.mem_append_left _ hy, hyx⟩
  · obtain ⟨y, hy, hyx⟩ := h' x hx
    exact ⟨y, List.mem_append_right _ hy, hyx⟩

/-- After elements without repetitions, the loop keeps nothing that has an equal among them. -/
theorem distinctBy_append_of_covered (h : Distinct same xs) (hys : Covered same ys xs) :
    distinctBy same (xs ++ ys) = xs := by
  rw [distinctBy_append h]
  exact foldl_eq_of_found fun y hy => List.any_eq_true.2 (hys y hy)

/-- What the loop drops has an equal among what it keeps. -/
theorem covered_distinctBy (self : ∀ x ∈ xs, same x x) : Covered same xs (distinctBy same xs) :=
  fun x hx => exists_mem_distinctBy (self x hx) hx

/-- Two lists with the same elements up to an equality are still so, and have become equally long,
once repetitions are dropped. -/
theorem partnered_distinctBy (self : ∀ x ∈ xs ++ ys, same x x)
    (symm : ∀ x ∈ xs ++ ys, ∀ y ∈ xs ++ ys, same x y → same y x)
    (trans : ∀ {x y z : α}, same x y → same y z → same x z)
    (hxy : Covered same xs ys) (hyx : Covered same ys xs) :
    Partnered (fun x y => same y x) (distinctBy same xs) (distinctBy same ys) := by
  have mem : ∀ {z zs}, z ∈ distinctBy same zs → zs ⊆ xs ++ ys → z ∈ xs ++ ys := fun hz sub =>
    sub (mem_of_mem_distinctBy hz)
  -- two kept elements with a common equal would be equal to each other
  have shorter : ∀ {us vs : List α}, us ⊆ xs ++ ys → vs ⊆ xs ++ ys →
      Covered same (distinctBy same us) (distinctBy same vs) →
      (distinctBy same us).length ≤ (distinctBy same vs).length := by
    intro us vs hus hvs covered
    refine length_le_of_partners covered ((distinct_distinctBy us).imp_of_mem ?_)
    intro u u' hu hu' apart v hv hvu hvu'
    have := trans (symm v (mem hv hvs) u (mem hu hus) hvu) hvu'
    simp [apart] at this
  have left : xs ⊆ xs ++ ys := List.subset_append_left _ _
  have right : ys ⊆ xs ++ ys := List.subset_append_right _ _
  have kept : ∀ {us vs : List α}, vs ⊆ xs ++ ys → Covered same us vs →
      Covered same (distinctBy same us) (distinctBy same vs) := by
    intro us vs hvs covered u hu
    have dropped : Covered same vs (distinctBy same vs) :=
      covered_distinctBy fun v hv => self v (hvs hv)
    exact covered.trans dropped trans u (mem_of_mem_distinctBy hu)
  exact ⟨Nat.le_antisymm (shorter left right (kept right hxy)) (shorter right left (kept left hyx)),
    kept right hxy⟩

end covered

/-! ## Comparison position by position -/

/-- What holds of each pair of elements side by side holds position by position. -/
theorem forall₂_imp_of_mem {R S : α → β → Prop} {xs : List α} {ys : List β}
    (imp : ∀ x ∈ xs, ∀ y ∈ ys, R x y → S x y) (h : List.Forall₂ R xs ys) :
    List.Forall₂ S xs ys := by
  induction h with
  | nil => exact .nil
  | cons hxy _ ih =>
    refine .cons (imp _ List.mem_cons_self _ List.mem_cons_self hxy) (ih ?_)
    exact fun x hx y hy => imp x (List.mem_cons_of_mem _ hx) y (List.mem_cons_of_mem _ hy)

/-- An element has one in its place in a list that corresponds. -/
theorem exists_mem_of_forall₂ {R : α → β → Prop} {xs : List α} {ys : List β}
    (h : List.Forall₂ R xs ys) {x : α} (hx : x ∈ xs) : ∃ y ∈ ys, R x y := by
  induction h with
  | nil => cases hx
  | @cons x' y _ _ hxy _ ih =>
    rcases List.mem_cons.1 hx with rfl | hx
    · exact ⟨y, List.mem_cons_self, hxy⟩
    · obtain ⟨y', hy', hr⟩ := ih hx
      exact ⟨y', List.mem_cons_of_mem _ hy', hr⟩

/-- Comparison position by position is symmetric where that of the elements is. -/
theorem forall₂_symm {R : α → β → Prop} {S : β → α → Prop} {xs : List α} {ys : List β}
    (symm : ∀ x ∈ xs, ∀ y ∈ ys, R x y → S y x) (h : List.Forall₂ R xs ys) :
    List.Forall₂ S ys xs :=
  (forall₂_imp_of_mem (S := fun x y => S y x) symm h).flip

/-- Comparison position by position is transitive where that of the elements is. -/
theorem forall₂_trans {γ : Type} {R : α → β → Prop} {S : β → γ → Prop} {T : α → γ → Prop}
    {xs : List α} {ys : List β} {zs : List γ}
    (trans : ∀ x ∈ xs, ∀ y ∈ ys, ∀ z ∈ zs, R x y → S y z → T x z)
    (hxy : List.Forall₂ R xs ys) (hyz : List.Forall₂ S ys zs) : List.Forall₂ T xs zs := by
  induction hxy generalizing zs with
  | nil => cases hyz; exact .nil
  | cons hr _ ih =>
    cases hyz with
    | cons hs hyz =>
      refine .cons (trans _ List.mem_cons_self _ List.mem_cons_self _ List.mem_cons_self hr hs)
        (ih ?_ hyz)
      exact fun x hx y hy z hz => trans x (List.mem_cons_of_mem _ hx) y (List.mem_cons_of_mem _ hy)
        z (List.mem_cons_of_mem _ hz)

/-- Dropping repetitions from lists that correspond, with comparisons that agree, gives lists that
correspond. -/
theorem forall₂_foldl {same : α → α → Bool} {same' : β → β → Bool} {R : α → β → Prop}
    (agree : ∀ x x' y y', R x y → R x' y' → same x x' = same' y y') {xs kept : List α}
    {ys kept' : List β} (h : List.Forall₂ R xs ys) (hk : List.Forall₂ R kept kept') :
    List.Forall₂ R
      (xs.foldl (fun kept x => if kept.any (same · x) then kept else kept ++ [x]) kept)
      (ys.foldl (fun kept y => if kept.any (same' · y) then kept else kept ++ [y]) kept') := by
  induction h generalizing kept kept' with
  | nil => exact hk
  | @cons x y xs ys hxy _ ih =>
    have found : kept.any (same · x) = kept'.any (same' · y) := by
      clear ih
      induction hk with
      | nil => rfl
      | cons hz _ ihk => rw [List.any_cons, List.any_cons, agree _ _ _ _ hz hxy, ihk]
    rw [List.foldl_cons, List.foldl_cons, found]
    split
    · exact ih hk
    · exact ih (List.rel_append hk (.cons hxy .nil))

theorem forall₂_distinctBy {same : α → α → Bool} {same' : β → β → Bool} {R : α → β → Prop}
    (agree : ∀ x x' y y', R x y → R x' y' → same x x' = same' y y') {xs : List α}
    {ys : List β} (h : List.Forall₂ R xs ys) :
    List.Forall₂ R (distinctBy same xs) (distinctBy same' ys) :=
  forall₂_foldl agree h .nil

/-- A pair of elements side by side has one before it where the second list is replaced by a related
one. -/
theorem exists_mem_zip {γ : Type} {R : β → γ → Prop} {xs : List α} {ys : List β} {zs : List γ}
    (h : List.Forall₂ R ys zs) {x : α} {z : γ} (hxz : (x, z) ∈ xs.zip zs) :
    ∃ y, (x, y) ∈ xs.zip ys ∧ R y z := by
  induction h generalizing xs with
  | nil => simp at hxz
  | @cons y z' ys zs hyz _ ih =>
    cases xs with
    | nil => simp at hxz
    | cons x' xs =>
      rw [List.zip_cons_cons, List.mem_cons] at hxz
      rcases hxz with same | hxz
      · cases same
        exact ⟨y, List.mem_cons_self, hyz⟩
      · obtain ⟨y', hy', hr⟩ := ih hxz
        exact ⟨y', List.mem_cons_of_mem _ hy', hr⟩

/-- Comparison of optional elements is symmetric where that of the elements is. -/
theorem optionRel_symm {R : α → β → Prop} {S : β → α → Prop} {a : Option α} {b : Option β}
    (symm : ∀ x ∈ a, ∀ y ∈ b, R x y → S y x) (h : Option.Rel R a b) : Option.Rel S b a := by
  cases h with
  | none => exact .none
  | some hxy => exact .some (symm _ rfl _ rfl hxy)

/-- Comparison of optional elements is transitive where that of the elements is. -/
theorem optionRel_trans {γ : Type} {R : α → β → Prop} {S : β → γ → Prop} {T : α → γ → Prop}
    {a : Option α} {b : Option β} {c : Option γ}
    (trans : ∀ x ∈ a, ∀ y ∈ b, ∀ z ∈ c, R x y → S y z → T x z)
    (hab : Option.Rel R a b) (hbc : Option.Rel S b c) : Option.Rel T a c := by
  cases hab with
  | none => cases hbc; exact .none
  | some hxy =>
    cases hbc with
    | some hyz => exact .some (trans _ rfl _ rfl _ rfl hxy hyz)

/-! ## Equal both ways -/

/-- Each of the two equals the other. -/
def Mutual (same : α → α → Bool) (x y : α) : Prop := same x y ∧ same y x

namespace Mutual

variable {same : α → α → Bool}

/-- Comparisons of elements that equal each other agree. -/
theorem agree {x x' y y' : α} (h : Mutual same x y) (h' : Mutual same x' y')
    (trans : ∀ {x y z : α}, same x y → same y z → same x z) : same x x' = same y y' :=
  Bool.eq_iff_iff.2 ⟨fun e => trans (trans h.2 e) h'.1, fun e => trans (trans h.1 e) h'.2⟩

section lift

variable {R : α → α → Prop} (hR : ∀ x y, R x y → Mutual same x y)

include hR

theorem forall₂ {xs ys : List α} (h : List.Forall₂ R xs ys) :
    List.Forall₂ (fun x y => same x y) xs ys ∧ List.Forall₂ (fun x y => same x y) ys xs :=
  ⟨h.imp fun x y hxy => (hR x y hxy).1, forall₂_symm (fun x _ y _ hxy => (hR x y hxy).2) h⟩

theorem option {a b : Option α} (h : Option.Rel R a b) :
    Option.Rel (fun x y => same x y) a b ∧ Option.Rel (fun x y => same x y) b a := by
  cases h with
  | none => exact ⟨.none, .none⟩
  | some h => exact ⟨.some (hR _ _ h).1, .some (hR _ _ h).2⟩

end lift

/-- Of elements without repetitions no two equal each other. -/
theorem eq_of_distinct {xs : List α} (distinct : Distinct same xs) {x y : α} (hx : x ∈ xs)
    (hy : y ∈ xs) (h : Mutual same x y) : x = y := by
  have apart : xs.Pairwise fun x y => ¬ Mutual same x y := by
    refine distinct.imp fun {x y} ne h => ?_
    exact Bool.false_ne_true (ne.symm.trans h.1)
  have : Std.Symm fun x y : α => ¬ Mutual same x y := ⟨fun _ _ ne h => ne ⟨h.2, h.1⟩⟩
  by_contra ne
  exact apart.forall hx hy ne h

end Mutual

end TypeContracts
