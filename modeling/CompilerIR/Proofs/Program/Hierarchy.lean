import CompilerIR.Proofs.Program.Calls
import Mathlib.Logic.Relation
import Mathlib.Order.WellFounded

/-!
The hierarchy of classes and the elements of array types. Main statement: if every call refers to
what the table has already, each class leads to the root through its superclasses, and each array
type to a type that is not one.
-/

namespace CompilerIR

namespace TypeCall

def target : TypeCall → TypeId
  | .declareClass _ superclass => superclass
  | .arrayType element => element

theorem entry_injective : Function.Injective entry := by
  intro first second same
  cases first <;> cases second <;> cases same <;> rfl

end TypeCall

namespace Program

def IsClass (program : Program) (type : TypeId) : Prop :=
  ∃ name superclass, program.type? type = some (.classType name superclass)

def Superclass (program : Program) (type superclass : TypeId) : Prop :=
  ∃ name, program.type? type = some (.classType name (some superclass))

def Element (program : Program) (type element : TypeId) : Prop :=
  program.type? type = some (.arrayType element)

def Admits (program : Program) : TypeCall → Prop
  | .declareClass _ superclass => program.IsClass superclass
  | .arrayType element => ∃ definition, program.type? element = some definition

def AdmitsAll (program : Program) : List TypeCall → Prop
  | [] => True
  | call :: rest => program.Admits call ∧ (program.perform call).2.AdmitsAll rest

/-- What an entry refers to stands in front of it. -/
def Grounded (program : Program) : Prop :=
  ∀ type (call : TypeCall), program.type? type = some call.entry →
    program.Admits call ∧ call.target.index < type.index

section Step

variable {program after : Program} {call : TypeCall}

theorem Admits.later (grown : program.types.toList <+: after.types.toList)
    (admitted : program.Admits call) : after.Admits call := by
  cases call with
  | declareClass name superclass =>
      obtain ⟨other, upper, found⟩ := admitted
      exact ⟨other, upper, type?_of_grown grown found⟩
  | arrayType element =>
      obtain ⟨definition, found⟩ := admitted
      exact ⟨definition, type?_of_grown grown found⟩

theorem Admits.exists_target (admitted : program.Admits call) :
    ∃ definition, program.type? call.target = some definition := by
  cases call with
  | declareClass name superclass =>
      obtain ⟨other, upper, found⟩ := admitted
      exact ⟨_, found⟩
  | arrayType element => exact admitted

theorem Grounded.perform (grounded : program.Grounded) (admitted : program.Admits call) :
    (program.perform call).2.Grounded := by
  have grown := program.perform_grows call
  cases made : program.made? call with
  | some type =>
      rw [perform_of_made made]
      exact grounded
  | none =>
      -- The new entry refers to one in front of it, and the others keep what they refer to.
      intro type other found
      rw [type?_of_pushed (perform_of_new made).2] at found
      split at found
      · rename_i last
        obtain rfl : call = other := TypeCall.entry_injective (Option.some.inj found)
        refine ⟨admitted.later grown, ?_⟩
        obtain ⟨definition, known⟩ := admitted.exists_target
        rw [last]
        exact index_lt_typeCount known
      · obtain ⟨known, lower⟩ := grounded type other found
        exact ⟨known.later grown, lower⟩

theorem Grounded.performAll {calls : List TypeCall} (grounded : program.Grounded)
    (admitted : program.AdmitsAll calls) : (program.performAll calls).Grounded := by
  induction calls generalizing program with
  | nil => exact grounded
  | cons call rest inductionHypothesis =>
      exact inductionHypothesis (grounded.perform admitted.1) admitted.2

end Step

theorem grounded_of_create {interner shared : Interner} {program : Program}
    (made : create interner = .ok (program, shared)) : program.Grounded := by
  obtain ⟨names, _answered, fixed⟩ := hasFixed_of_create made
  intro type call found
  obtain ⟨_primitive, name, clash⟩ | ⟨_root, clash⟩ | ⟨behind, other, asked, same⟩ :=
    fixed.type?_eq_some found
  · cases call <;> cases clash
  · cases call <;> cases clash
  · obtain rfl := TypeCall.entry_injective same
    obtain ⟨name, rfl⟩ : ∃ name, call = .declareClass name .root := by
      obtain rfl | rfl := by simpa [fixedCalls] using asked
      · exact ⟨.stringClass, rfl⟩
      · exact ⟨.classClass, rfl⟩
    exact ⟨⟨.rootClass, none, fixed.type?_root⟩, behind⟩

/-- The type that a class or an array type is one step above. -/
def Refers (program : Program) (type next : TypeId) : Prop :=
  program.Superclass type next ∨ program.Element type next

section Chains

variable {program : Program} (grounded : program.Grounded)

include grounded

theorem Grounded.superclass {type superclass : TypeId}
    (step : program.Superclass type superclass) :
    superclass.index < type.index ∧ program.IsClass superclass := by
  obtain ⟨name, found⟩ := step
  exact (grounded type (.declareClass name superclass) found).symm

theorem Grounded.element {type element : TypeId} (step : program.Element type element) :
    element.index < type.index ∧ ∃ definition, program.type? element = some definition :=
  (grounded type (.arrayType element) step).symm

theorem Grounded.refers_lt {type next : TypeId} (step : program.Refers type next) :
    next.index < type.index := by
  obtain upper | element := step
  · exact (grounded.superclass upper).1
  · exact (grounded.element element).1

theorem Grounded.transGen_lt {type last : TypeId}
    (path : Relation.TransGen program.Refers type last) : last.index < type.index := by
  induction path with
  | single step => exact grounded.refers_lt step
  | tail _earlier step inductionHypothesis =>
      exact Nat.lt_trans (grounded.refers_lt step) inductionHypothesis

end Chains

/-- Steps that go down come to an end, and what every step keeps holds there. -/
theorem exists_last {Step : TypeId → TypeId → Prop} {Kept : TypeId → Prop}
    (down : ∀ {type next}, Step type next → next.index < type.index ∧ Kept next)
    {type : TypeId} (kept : Kept type) :
    ∃ last, Relation.ReflTransGen Step type last ∧ Kept last ∧ ∀ next, ¬Step last next := by
  -- The lowest of the types that the steps lead to has no step left.
  obtain ⟨last, ⟨path, keptLast⟩, least⟩ := (measure TypeId.index).wf.has_min
    {last | Relation.ReflTransGen Step type last ∧ Kept last} ⟨type, .refl, kept⟩
  refine ⟨last, path, keptLast, ?_⟩
  intro next step
  obtain ⟨lower, keptNext⟩ := down step
  exact least next ⟨path.tail step, keptNext⟩ lower

/-- Classes lead to the root and array types to other types, always downwards. -/
structure LeadsToRoot (program : Program) : Prop where
  superclass_lt : ∀ type superclass, program.Superclass type superclass →
    superclass.index < type.index ∧ program.IsClass superclass
  superclasses : ∀ type, program.IsClass type →
    Relation.ReflTransGen program.Superclass type .root
  root : ∀ type, (∃ name, program.type? type = some (.classType name none)) ↔ type = .root
  element_lt : ∀ type element, program.Element type element → element.index < type.index
  elements : ∀ type element, program.Element type element →
    ∃ last definition, Relation.ReflTransGen program.Element element last ∧
      program.type? last = some definition ∧ ∀ inner, definition ≠ .arrayType inner
  finite : WellFounded fun next type => program.Refers type next
  acyclic : ∀ type, ¬Relation.TransGen program.Refers type type

theorem classes_lead_to_root {interner shared : Interner} {program : Program}
    (made : create interner = .ok (program, shared)) {calls : List TypeCall}
    (admitted : program.AdmitsAll calls) : (program.performAll calls).LeadsToRoot := by
  have grounded := (grounded_of_create made).performAll admitted
  obtain ⟨names, _answered, fixedFirst⟩ := hasFixed_of_create made
  obtain ⟨added, fixed⟩ := fixedFirst.performAll calls
  refine ⟨?_, ?_, ?_, ?_, ?_, ?_, ?_⟩
  · exact fun type superclass => grounded.superclass
  · intro type isClass
    obtain ⟨last, path, ⟨name, superclass, found⟩, ends⟩ := exists_last grounded.superclass isClass
    cases superclass with
    | none =>
        obtain rfl := fixed.superclass_eq_none_iff.mp ⟨name, found⟩
        exact path
    | some superclass => exact absurd ⟨name, found⟩ (ends superclass)
  · exact fun type => fixed.superclass_eq_none_iff
  · exact fun type element step => (grounded.element step).1
  · intro type element step
    obtain ⟨last, path, ⟨definition, found⟩, ends⟩ :=
      exists_last grounded.element (grounded.element step).2
    refine ⟨last, definition, path, found, ?_⟩
    rintro inner rfl
    exact ends inner found
  · exact Subrelation.wf grounded.refers_lt (measure TypeId.index).wf
  · exact fun type path => Nat.lt_irrefl _ (grounded.transGen_lt path)

def tower : List TypeCall :=
  [.declareClass ⟨14⟩ .root, .arrayType ⟨13⟩, .arrayType ⟨14⟩, .declareClass ⟨14⟩ ⟨13⟩,
    .arrayType ⟨13⟩, .arrayType ⟨16⟩]

theorem tower_leads_to_root :
    ∃ shared, create .seeded = .ok (fixedOnly, shared) ∧ fixedOnly.AdmitsAll tower ∧
      Relation.ReflTransGen (fixedOnly.performAll tower).Superclass ⟨16⟩ .root ∧
      ∃ last definition,
        Relation.ReflTransGen (fixedOnly.performAll tower).Element ⟨14⟩ last ∧
        (fixedOnly.performAll tower).type? last = some definition ∧
        ∀ inner, definition ≠ .arrayType inner := by
  obtain ⟨shared, made⟩ := create_seeded
  have admitted : fixedOnly.AdmitsAll tower :=
    ⟨⟨_, _, rfl⟩, ⟨_, rfl⟩, ⟨_, rfl⟩, ⟨_, _, rfl⟩, ⟨_, rfl⟩, ⟨_, rfl⟩, trivial⟩
  have leads := classes_lead_to_root made admitted
  refine ⟨shared, made, admitted, leads.superclasses ⟨16⟩ ⟨⟨14⟩, some ⟨13⟩, rfl⟩, ?_⟩
  exact leads.elements ⟨15⟩ ⟨14⟩ rfl

end Program

end CompilerIR
