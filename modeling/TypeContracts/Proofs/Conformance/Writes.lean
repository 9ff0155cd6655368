import TypeContracts.Proofs.Conformance.Rules
import TypeContracts.Proofs.Conformance.Simulation

/-!
Checks before and after writes to attributes. Without predicates a check reads no attribute but those that
the interfaces of its target declare, so writes to other attributes change no answer and nothing that
is explained on the way. Main statement: `Conformance.checks_write`.
-/

namespace TypeContracts

namespace Part

/-- The part is no predicate. -/
def Structural : Part → Prop
  | .spec (.predicate _) => False
  | _ => True

/-- The part is no interface that declares a member of the name. -/
def Ignores (name : String) : Part → Prop
  | .interface i => name ∉ i.members.map (·.1)
  | _ => True

end Part

namespace Conformance

variable {m : Type → Type} [Monad m] {w : World} {p q : Probe m} {writes : List AttributeWrite}

/-- The same computation, from the world before the writes and from the world after them. -/
def writesSimulation (writes : List AttributeWrite) (explain : p.explain = q.explain) :
    Probe.Simulation w p (w.write writes) q where
  Rel x y := x = y
  pure _ := rfl
  bind := by
    rintro α β x _ f g rfl h
    exact congrArg (x >>= ·) (funext h)
  explain _ := by rw [explain]

theorem agrees_of_ignores {explain : p.explain = q.explain} {x : Part} (structural : x.Structural)
    (ignores : ∀ a ∈ writes, x.Ignores a.name) :
    (writesSimulation (w := w) writes explain).Agrees x := by
  refine Probe.Simulation.agreesWithin_of_sameCode _ (World.sameCode_write writes) ?_ ?_
  · rintro r rfl
    exact absurd structural id
  · rintro i rfl m declared v -
    have untouched : ∀ a ∈ writes, a.name ≠ m.1 := by
      rintro a ha same
      exact ignores a ha (same ▸ List.mem_map_of_mem declared)
    exact (World.getAttribute?_write untouched 0 v).symm

theorem everywhere_agrees {explain : p.explain = q.explain} {x : Part}
    (structural : x.Everywhere Part.Structural)
    (ignores : ∀ a ∈ writes, x.Everywhere (Part.Ignores a.name)) :
    x.Everywhere (writesSimulation (w := w) writes explain).Agrees := fun y hy =>
  agrees_of_ignores (structural y hy) fun a ha => ignores a ha y hy

/-- Attributes that no interface in `s` or `t` declares can be written and removed at will: in every
monad, and even if predicates answer differently afterwards, a check against `s` or `t` is the same
computation before and after. -/
theorem checks_write {s t : TypeSpec}
    (structural : s.Everywhere Part.Structural ∧ t.Everywhere Part.Structural)
    (ignored : ∀ a ∈ writes, s.Everywhere (Part.Ignores a.name) ∧ t.Everywhere (Part.Ignores a.name))
    (explain : p.explain = q.explain) (v : Value) (c : TypeSpec) :
    satisfies w p v s = satisfies (w.write writes) q v s ∧
      isSubtype w p c t = isSubtype (w.write writes) q c t := by
  let R := writesSimulation (w := w) writes explain
  have hs : s.Everywhere R.Agrees :=
    everywhere_agrees structural.1 fun a ha => (ignored a ha).1
  have ht : t.Everywhere R.Agrees :=
    everywhere_agrees structural.2 fun a ha => (ignored a ha).2
  exact ⟨R.satisfies v hs, R.isSubtype c ht⟩

/-- A herd of one horse with a speed satisfies a list of runners, also after the horse was named. -/
theorem named_horse_checks :
    let p : Probe Id := ⟨fun _ _ => false, fun _ => ()⟩
    let q : Probe Id := ⟨fun _ _ => true, fun _ => ()⟩
    let running : Interface := ⟨1, "Runner", none, [("speed", .attribute (.plain .int))]⟩
    let runner : TypeSpec := .interface running
    let horse : ObjectRef := ⟨12, .object⟩
    let herd := Value.list [.object horse]
    let w := World.initial.setAttribute horse "speed" (.int 40)
    let writes := [.remove horse "color", .set horse "name" (.str "Ann")]
    runner.Everywhere Part.Structural ∧
      (∀ a ∈ writes, runner.Everywhere (Part.Ignores a.name)) ∧
      (satisfies w p herd (.list runner)).run = true ∧
      satisfies w p herd (.list runner) = satisfies (w.write writes) q herd (.list runner) ∧
      isSubtype w p (.options 2 [.object horse]) runner =
        isSubtype (w.write writes) q (.options 2 [.object horse]) runner := by
  intro p q running runner horse herd w writes
  have parts : ∀ P : Part → Prop, P (.spec runner) → P (.interface running) →
      P (.spec (.plain .int)) → runner.Everywhere P := by
    intro P whole interface member
    apply TypeSpec.everywhere_interface whole
    apply Interface.everywhere interface nofun
    · rintro _ _ (_ | ⟨_, ⟨⟩⟩)
      exact TypeSpec.everywhere_plain member
    · rintro _ _ (_ | ⟨_, ⟨⟩⟩)
  have structural : runner.Everywhere Part.Structural := parts _ trivial trivial trivial
  have ignored : ∀ a ∈ writes, runner.Everywhere (Part.Ignores a.name) := by
    intro a ha
    have other : a.name ∉ ["speed"] := by
      simp only [writes, List.mem_cons, List.not_mem_nil, or_false] at ha
      rcases ha with rfl | rfl <;> decide
    exact parts _ trivial other trivial
  have structuralList : (TypeSpec.list runner).Everywhere Part.Structural :=
    TypeSpec.everywhere_list (P := Part.Structural) trivial structural
  have ignoredList : ∀ a ∈ writes, (TypeSpec.list runner).Everywhere (Part.Ignores a.name) :=
    fun a ha => TypeSpec.everywhere_list (P := Part.Ignores a.name) trivial (ignored a ha)
  have runs : (satisfies w p herd (.list runner)).run = true := by
    refine (satisfies_list_iff w p herd).2 ⟨_, rfl, fun x hx => ?_⟩
    obtain rfl := List.mem_singleton.1 hx
    refine (satisfies_interface_iff w p (.object horse)).2 fun member hm => ?_
    obtain rfl : member = ("speed", .attribute (.plain .int)) := List.mem_singleton.1 hm
    refine ⟨.int 40, rfl, ?_⟩
    rw [memberConforms_attribute, satisfies_plain]
    rfl
  refine ⟨structural, ignored, runs, ?_⟩
  exact checks_write (p := p) (q := q) ⟨structuralList, structural⟩
    (fun a ha => ⟨ignoredList a ha, ignored a ha⟩) rfl herd (.options 2 [.object horse])

end Conformance

end TypeContracts
