import TypeContracts.World.Basic

/-!
Writes to attributes of objects. They leave classes and functions as they are, and an attribute of
another name reads as before, from whatever value it is read. Main statements:
`World.sameCode_write`, `World.getAttribute?_write`.
-/

namespace TypeContracts

/-- A write to an attribute of an object, or the removal of one. -/
inductive AttributeWrite where
  | set (o : ObjectRef) (name : String) (v : Value)
  | remove (o : ObjectRef) (name : String)

namespace AttributeWrite

def name : AttributeWrite → String
  | .set _ name _ => name
  | .remove _ name => name

def apply (w : World) : AttributeWrite → World
  | .set o name v => w.setAttribute o name v
  | .remove o name => w.removeAttribute o name

end AttributeWrite

namespace World

/-- The world after writes, in their order. -/
def write (w : World) (writes : List AttributeWrite) : World := writes.foldl AttributeWrite.apply w

/-- Two worlds with the same classes and functions. -/
structure SameCode (w w' : World) : Prop where
  classes : w.classes = w'.classes
  functions : w.functions = w'.functions

namespace SameCode

variable {w w' : World}

theorem refl (w : World) : w.SameCode w := ⟨rfl, rfl⟩

theorem trans {w'' : World} (h : w.SameCode w') (h' : w'.SameCode w'') : w.SameCode w'' :=
  ⟨h.classes.trans h'.classes, h.functions.trans h'.functions⟩

theorem static? (h : w.SameCode w') (c : Class) (name : String) :
    w.static? c name = w'.static? c name := by
  cases w; cases w'; cases h.classes; rfl

theorem calling (h : w.SameCode w') (v : Value) : w.calling v = w'.calling v := by
  cases w; cases w'; cases h.classes; cases h.functions; rfl

/-- What a value reads from its class, or an object from itself, decides what it reads. -/
theorem getAttribute? (h : w.SameCode w') {name : String} {v : Value}
    (own : ∀ o, v = .object o → w.instanceAttribute? o name = w'.instanceAttribute? o name)
    (fetch : Nat) : w.getAttribute? fetch v name = w'.getAttribute? fetch v name := by
  have ofClass : getAttribute?.ofClass w fetch v name = getAttribute?.ofClass w' fetch v name := by
    cases w; cases w'; cases h.classes; rfl
  cases v with
  | cls c => rw [World.getAttribute?, World.getAttribute?, h.static?]
  | object o => rw [World.getAttribute?, World.getAttribute?, own o rfl, ofClass]
  | _ => exact ofClass

end SameCode

variable {w : World}

/-- New attributes of one object among which a name reads as before leave the name as it is on all. -/
theorem instanceAttribute?_setAttributes {q : ObjectRef} {attributes : List (String × Value)}
    {name : String} (h : attributes.lookup name = w.instanceAttribute? q name) (o : ObjectRef) :
    (w.setAttributes q attributes).instanceAttribute? o name = w.instanceAttribute? o name := by
  rw [instanceAttribute?, attributesOf, setAttributes, Table.lookup_put]
  by_cases same : o.key = q.key
  · rw [if_pos (by simpa using same), Option.getD_some, h, instanceAttribute?, instanceAttribute?,
      attributesOf, attributesOf, same]
  · rw [if_neg (by simpa using same), instanceAttribute?, attributesOf]

/-! ## One write -/

theorem sameCode_apply (a : AttributeWrite) : w.SameCode (a.apply w) := by
  cases a <;> exact ⟨rfl, rfl⟩

theorem instanceAttribute?_apply {a : AttributeWrite} {name : String} (h : a.name ≠ name)
    (o : ObjectRef) : (a.apply w).instanceAttribute? o name = w.instanceAttribute? o name := by
  cases a with
  | set q written v =>
    have other : (name == written) = false := beq_eq_false_iff_ne.2 h.symm
    apply instanceAttribute?_setAttributes
    rw [Table.lookup_put, other]
    rfl
  | remove q written =>
    have other : (name == written) = false := beq_eq_false_iff_ne.2 h.symm
    apply instanceAttribute?_setAttributes
    rw [Table.lookup_erase, other]
    rfl

/-! ## A sequence of writes -/

theorem sameCode_write (writes : List AttributeWrite) : w.SameCode (w.write writes) := by
  induction writes generalizing w with
  | nil => exact .refl w
  | cons a rest ih => exact (sameCode_apply a).trans ih

theorem instanceAttribute?_write {writes : List AttributeWrite} {name : String}
    (h : ∀ a ∈ writes, a.name ≠ name) (o : ObjectRef) :
    (w.write writes).instanceAttribute? o name = w.instanceAttribute? o name := by
  induction writes generalizing w with
  | nil => rfl
  | cons a rest ih =>
    obtain ⟨other, others⟩ := List.forall_mem_cons.1 h
    calc (w.write (a :: rest)).instanceAttribute? o name
      _ = (a.apply w).instanceAttribute? o name := ih others
      _ = w.instanceAttribute? o name := instanceAttribute?_apply other o

/-- An attribute of a name that is not written reads as before, from every value. -/
theorem getAttribute?_write {writes : List AttributeWrite} {name : String}
    (h : ∀ a ∈ writes, a.name ≠ name) (fetch : Nat) (v : Value) :
    (w.write writes).getAttribute? fetch v name = w.getAttribute? fetch v name :=
  ((sameCode_write writes).getAttribute? (fun o _ => (instanceAttribute?_write h o).symm) fetch).symm

end World

end TypeContracts
