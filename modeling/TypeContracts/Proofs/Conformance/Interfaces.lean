import TypeContracts.Proofs.Conformance.Interchange
import TypeContracts.Proofs.World.Reachable

/-!
Interfaces as targets. An interface is below another one if it derives from it or if each member meets
the one that is asked for; deriving is enough by itself, so a member that is declared again on the way
need not meet the one that it overrides. A value is below an interface if its class is and if it has
the attributes that are asked for: a method read from a value conforms if the class provides it.
Main statements: `compatible_or_redeclared`, `satisfies_interface_iff_class`.
-/

namespace TypeContracts

namespace Conformance

variable {w : World} {p : Probe Id}

/-! ## Interfaces below interfaces -/

/-- For each member that `wide` asks for, `narrow` has one of that name, of the same sort and below
it. -/
def Compatible (w : World) (p : Probe Id) (narrow wide : Interface) : Prop :=
  ∀ m ∈ wide.allMembers, ∃ given, narrow.member? m.1 = some given ∧ MemberMeets w p given m.2

section narrow

variable {narrow wide : Interface} (hn : Part.Everywhere Part.Normal (.interface narrow))
  (hw : Part.Everywhere Part.Normal (.interface wide))

include hn in
/-- The members of an interface meet those of an equal one. -/
theorem compatible_of_equal (h : narrow.equal wide) : Compatible w p narrow wide := by
  rintro ⟨name, wanted⟩ hm
  obtain ⟨⟨name', given⟩, hg, rfl, same⟩ := (Interface.sameMembers_allMembers h).exists_of_mem hm
  have names : ∀ k ∈ narrow.chain, (k.members.map (·.1)).Nodup := fun k hk =>
    (Interface.everywhere_chain hn hk).self.1
  refine ⟨given, (Interface.mem_allMembers_iff names).1 hg, memberMeets_of_same same ?_⟩
  rintro s rfl
  exact Interface.isVariadic_of_mem_allMembers hn hg

include hw in
/-- What derives from an interface has its members, and meets those that it does not declare again. -/
theorem compatible_or_redeclared_of_derivesFrom (h : narrow.derivesFrom wide)
    {m : String × Member} (hm : m ∈ wide.allMembers) :
    ∃ given, narrow.member? m.1 = some given ∧
      (MemberMeets w p given m.2 ∨ narrow.Redeclares wide m.1) := by
  have names : ∀ k ∈ wide.chain, (k.members.map (·.1)).Nodup := fun k hk =>
    (Interface.everywhere_chain hw hk).self.1
  have mem : wide ∈ narrow.chain := by simpa [Interface.derivesFrom] using h
  obtain ⟨given, found, same⟩ :=
    Interface.member?_or_redeclares mem ((Interface.mem_allMembers_iff names).1 hm)
  refine ⟨given, found, same.imp_left ?_⟩
  rintro rfl
  refine memberMeets_of_same (.inl rfl) fun s hs => ?_
  have asked : (m.1, .method s) ∈ wide.allMembers := hs ▸ hm
  exact Interface.isVariadic_of_mem_allMembers hw asked

include hn in
/-- There are two ways for an interface to be below another one. -/
theorem isSubtype_interface_iff :
    (isSubtype w p (.interface narrow) (.interface wide)).run ↔
      narrow.derivesFrom wide ∨ Compatible w p narrow wide := by
  constructor
  · intro h
    rcases (isSubtype_iff w p).1 h with same | top | rule
    · cases TypeSpec.equal_iff.1 same with
      | interface same => exact .inr (compatible_of_equal hn same)
    · cases top
    · cases rule with
      | interface h => exact (interfaceConforms_iff w p).1 h
  · intro h
    exact isSubtype_of_rule (.interface ((interfaceConforms_iff w p).2 h))

end narrow

/-- An interface is below another one if it derives from it, whatever it declares again, or if its
members meet those of the other one. If it is below, it has each member that the other one asks for,
and the member meets what is asked for unless it is declared again between the two. -/
theorem compatible_or_redeclared (w : World) (p : Probe Id) {narrow wide : Interface}
    (hn : (TypeSpec.interface narrow).Built) (hw : (TypeSpec.interface wide).Built) :
    ((isSubtype w p (.interface narrow) (.interface wide)).run ↔
      narrow.derivesFrom wide ∨ Compatible w p narrow wide) ∧
    ((isSubtype w p (.interface narrow) (.interface wide)).run →
      ∀ m ∈ wide.allMembers, ∃ given, narrow.member? m.1 = some given ∧
        (MemberMeets w p given m.2 ∨ narrow.Redeclares wide m.1)) := by
  have normal := hn.normal.step (.interface narrow)
  refine ⟨isSubtype_interface_iff normal, fun h m hm => ?_⟩
  rcases (isSubtype_interface_iff normal).1 h with derives | compatible
  · exact compatible_or_redeclared_of_derivesFrom (hw.normal.step (.interface wide)) derives hm
  · obtain ⟨given, found, meets⟩ := compatible m hm
    exact ⟨given, found, .inl meets⟩

/-- A person has a name as it is asked for, exactly a text, without deriving from what asks for it. -/
theorem person_compatible_or_redeclared :
    let p : Probe Id := ⟨fun _ _ => false, fun _ => ()⟩
    let named : Interface := ⟨1, "Named", none, [("name", .attribute (.plain .str))]⟩
    let person : Interface :=
      ⟨2, "Person", none, [("age", .attribute (.plain .int)), ("name", .attribute (.only .str))]⟩
    (TypeSpec.interface person).Built ∧ (TypeSpec.interface named).Built ∧
      (isSubtype .initial p (.interface person) (.interface named)).run ∧
      ∃ given, person.member? "name" = some given ∧
        (MemberMeets .initial p given (.attribute (.plain .str)) ∨ person.Redeclares named "name") := by
  intro p named person
  have builtNamed : (TypeSpec.interface named).Built := by
    have build : Interface.build 1 "Named" [.attribute "name" (.value (.cls .str))] = .ok named := rfl
    exact .interface (by simp [Interface.Declaration.specs, SpecLiteral.leaves]) build
  have builtPerson : (TypeSpec.interface person).Built := by
    have build : Interface.build 2 "Person"
        [.attribute "age" (.value (.cls .int)), .attribute "name" (.spec (.only .str))] =
          .ok person := rfl
    refine .interface ?_ build
    simp [Interface.Declaration.specs, SpecLiteral.leaves, TypeSpec.Built.only]
  obtain ⟨below, members⟩ := compatible_or_redeclared .initial p builtPerson builtNamed
  have subtype : (isSubtype .initial p (.interface person) (.interface named)).run := by
    refine below.2 (.inr fun m hm => ?_)
    cases List.mem_singleton.1 hm
    exact ⟨.attribute (.only .str), rfl, isSubtype_of_rule (.onlyPlain (by decide))⟩
  exact ⟨builtPerson, builtNamed, subtype, members subtype ("name", .attribute (.plain .str))
    (List.mem_singleton.2 rfl)⟩

/-- An interface that derives from another one and allows more for a member is below it all the
same. -/
theorem not_compatible_of_redeclaration :
    let p : Probe Id := ⟨fun _ _ => false, fun _ => ()⟩
    let named : Interface := ⟨1, "Named", none, [("name", .attribute (.plain .str))]⟩
    let aged : Interface :=
      ⟨2, "Aged", some named,
        [("age", .attribute (.plain .int)), ("name", .attribute (.plain .object))]⟩
    (TypeSpec.interface aged).Built ∧ (TypeSpec.interface named).Built ∧
      (isSubtype .initial p (.interface aged) (.interface named)).run ∧
      ¬ Compatible .initial p aged named := by
  intro p named aged
  have builtNamed : (TypeSpec.interface named).Built := by
    have build : Interface.build 1 "Named" [.attribute "name" (.value (.cls .str))] = .ok named := rfl
    exact .interface (by simp [Interface.Declaration.specs, SpecLiteral.leaves]) build
  have builtAged : (TypeSpec.interface aged).Built := by
    have build : Interface.build 2 "Aged"
        [.base named, .attribute "age" (.value (.cls .int)),
          .attribute "name" (.value (.cls .object))] = .ok aged := rfl
    refine .interface ?_ build
    simp [Interface.Declaration.specs, SpecLiteral.leaves, builtNamed]
  have derives : aged.derivesFrom named := by
    simp [Interface.derivesFrom, Interface.chain, aged, named]
  refine ⟨builtAged, builtNamed, ?_, fun compatible => ?_⟩
  · exact isSubtype_of_rule (.interface ((interfaceConforms_iff _ _).2 (.inl derives)))
  · obtain ⟨given, found, meets⟩ := compatible ("name", .attribute (.plain .str))
      (List.mem_singleton.2 rfl)
    cases (rfl : aged.member? "name" = some (.attribute (.plain .object))).symm.trans found
    rcases (isSubtype_iff _ _).1 meets with same | top | rule
    · cases TypeSpec.equal_iff.1 same
    · cases top
    · cases rule with
      | plain h => cases h

/-! ## Values below interfaces -/

theorem plain_isSubtype_interface_iff {c : Class} {i : Interface} :
    (isSubtype w p (.plain c) (.interface i)).run ↔ (classImplements w p c i).run := by
  constructor
  · intro h
    rcases (isSubtype_iff w p).1 h with same | top | rule
    · cases TypeSpec.equal_iff.1 same
    · cases top
    · cases rule with
      | plainInterface h => exact h
  · intro h
    exact isSubtype_of_rule (.plainInterface h)

/-- A method read from an instance conforms if and only if its class provides the method. -/
theorem callableConforms_iff_classProvides (named : w.MethodsNamed) {v : Value}
    (inst : ∀ c, v ≠ .cls c) {name : String}
    (unshadowed : ∀ o, v = .object o → w.instanceAttribute? o name = none) {expected : Signature} :
    (∃ found, w.getAttribute? 0 v name = some found ∧ (callableConforms w p found expected).run) ↔
      (classProvides w p v.classOf name expected).run := by
  rw [World.getAttribute?_eq_static? inst unshadowed, classProvides_iff]
  rcases found : w.static? v.classOf name with _ | a | ⟨owner, m⟩
  · simp
  · simp [World.readAs]
  · have calling := named.calling_boundFunction (World.method?_of_static? found) 0 v
    simp only [Option.map_some, Option.some.injEq, exists_eq_left', World.readAs, callableConforms_iff,
      calling]
    rcases signature : m.signature with _ | s <;> simp [signature]

/-- An instance satisfies an interface if and only if its class is below the interface and it has each
attribute that the interface asks for with a value that satisfies the spec. An attribute of its own in
the place of a method would be looked at instead of the method. -/
theorem satisfies_interface_iff_class {w : World} (reachable : w.Reachable) (p : Probe Id)
    {i : Interface} {v : Value} (inst : ∀ c, v ≠ .cls c)
    (unshadowed : ∀ o, v = .object o → ∀ name s, (name, .method s) ∈ i.allMembers →
      w.instanceAttribute? o name = none) :
    (satisfies w p v (.interface i)).run ↔
      (isSubtype w p (.plain v.classOf) (.interface i)).run ∧
        ∀ name s, (name, .attribute s) ∈ i.allMembers →
          ∃ x, w.getAttribute? 0 v name = some x ∧ (satisfies w p x s).run := by
  have provides : ∀ name s, (name, .method s) ∈ i.allMembers →
      ((∃ x, w.getAttribute? 0 v name = some x ∧ (callableConforms w p x s).run) ↔
        (classProvides w p v.classOf name s).run) := fun name s hm =>
    callableConforms_iff_classProvides reachable.methodsNamed inst
      fun o ho => unshadowed o ho name s hm
  rw [satisfies_interface_iff, plain_isSubtype_interface_iff, classImplements_iff]
  constructor
  · intro h
    refine ⟨fun name s hm => (provides name s hm).1 ?_, fun name s hm => ?_⟩
    · obtain ⟨x, found, conforms⟩ := h _ hm
      exact ⟨x, found, memberConforms_method w p x s ▸ conforms⟩
    · obtain ⟨x, found, conforms⟩ := h _ hm
      exact ⟨x, found, memberConforms_attribute w p x s ▸ conforms⟩
  · rintro ⟨methods, attributes⟩ ⟨name, member⟩ hm
    match member, hm with
    | .attribute s, hm =>
      obtain ⟨x, found, satisfied⟩ := attributes name s hm
      exact ⟨x, found, (memberConforms_attribute w p x s).symm ▸ satisfied⟩
    | .method s, hm =>
      obtain ⟨x, found, conforms⟩ := (provides name s hm).2 (methods name s hm)
      exact ⟨x, found, (memberConforms_method w p x s).symm ▸ conforms⟩

/-- A horse runs by a method of its class and has a speed of its own. -/
theorem horse_satisfies_runner :
    let p : Probe Id := ⟨fun _ _ => false, fun _ => ()⟩
    let distance : Signature := ⟨[⟨"distance", .positional, none, none⟩], none⟩
    let runner : Interface :=
      ⟨1, "Runner", none, [("speed", .attribute (.plain .int)), ("run", .method distance)]⟩
    let horse : Class := .sub 12 "Horse" .object
    let declared := World.initial.declareClass "Horse" .object [] [⟨"run", some distance, .host 0⟩]
    let made := declared.2.newObject horse
    let w := made.2.setAttribute made.1 "speed" (.int 40)
    w.Reachable ∧ (isSubtype w p (.plain horse) (.interface runner)).run ∧
      (satisfies w p (.object made.1) (.interface runner)).run := by
  intro p distance runner horse declared made w
  have reachable : w.Reachable :=
    .tail (.tail (.single (.declareClass _ _ _ _ _)) (.newObject _ _)) (.setAttribute _ _ _ _)
  have attributes : ∀ name s, (name, .attribute s) ∈ runner.allMembers →
      name = "speed" ∧ s = .plain .int := by
    intro name s hm
    change (name, Member.attribute s) ∈ runner.members at hm
    simpa [runner] using hm
  have methods : ∀ name s, (name, .method s) ∈ runner.allMembers →
      name = "run" ∧ s = distance := by
    intro name s hm
    change (name, Member.method s) ∈ runner.members at hm
    simpa [runner] using hm
  have below : (isSubtype w p (.plain horse) (.interface runner)).run := by
    refine plain_isSubtype_interface_iff.2 ((classImplements_iff w p).2 fun name s hm => ?_)
    obtain ⟨rfl, rfl⟩ := methods name s hm
    refine (classProvides_iff w p).2 (.inr ⟨horse, ⟨"run", some distance, .host 0⟩, rfl, ?_⟩)
    rintro s ⟨⟩
    exact signatureConforms_of_equal (.inl rfl) rfl
  have unshadowed : ∀ o, Value.object made.1 = .object o → ∀ name s,
      (name, .method s) ∈ runner.allMembers → w.instanceAttribute? o name = none := by
    rintro _ ⟨⟩ name s hm
    obtain ⟨rfl, -⟩ := methods name s hm
    rfl
  refine ⟨reachable, below, ?_⟩
  refine (satisfies_interface_iff_class reachable p (fun _ h => by cases h) unshadowed).2
    ⟨below, fun name s hm => ?_⟩
  obtain ⟨rfl, rfl⟩ := attributes name s hm
  exact ⟨.int 40, rfl, by simp [Value.classOf]⟩

end Conformance

end TypeContracts
