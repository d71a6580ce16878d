import CompilerIR.Proofs.Program.Calls

/-!
The fixed types of a program that is being put together. Main statement: whatever is interned
before and after, and whatever is declared, the fixed handles find the types they stand for.
-/

namespace CompilerIR

namespace Interner

/-- The interner after a call. One that is refused leaves it as it is. -/
def attempt (interner : Interner) (string : String) : Interner :=
  match interner.intern string with
  | .ok (_, after) => after
  | .error _ => interner

def attemptAll (interner : Interner) (calls : List String) : Interner :=
  calls.foldl attempt interner

theorem Holds.attempt {interner : Interner} {texts : List String} (holds : interner.Holds texts)
    (string : String) : ∃ later, (interner.attempt string).Holds later ∧ texts <+: later := by
  cases answered : interner.intern string with
  | ok answer =>
      refine ⟨addNew texts string, ?_, prefix_addNew texts string⟩
      rw [Interner.attempt, answered]
      exact (holds.intern_of_ok answered).2
  | error full =>
      refine ⟨texts, ?_, List.prefix_rfl⟩
      rw [Interner.attempt, answered]
      exact holds

theorem Holds.attemptAll {interner : Interner} {texts : List String} (holds : interner.Holds texts)
    (calls : List String) : ∃ later, (interner.attemptAll calls).Holds later ∧ texts <+: later := by
  induction calls generalizing interner texts with
  | nil => exact ⟨texts, holds, List.prefix_rfl⟩
  | cons string rest inductionHypothesis =>
      obtain ⟨middle, holdsMiddle, grown⟩ := holds.attempt string
      obtain ⟨later, holdsLater, grownMore⟩ := inductionHypothesis holdsMiddle
      exact ⟨later, holdsLater, grown.trans grownMore⟩

end Interner

structure Compilation where
  program : Program
  interner : Interner

inductive CompilationCall
  | type (call : TypeCall)
  | declareLocal (declaration : VariableDecl)
  | declareParam (declaration : VariableDecl)
  | declareField (declaration : FieldDecl)
  | declareMethod (declaration : MethodDecl)
  | intern (string : String)

namespace Compilation

def perform (state : Compilation) : CompilationCall → Compilation
  | .type call => { state with program := (state.program.perform call).2 }
  | .declareLocal declaration =>
      { state with program := (state.program.declareLocal declaration).2 }
  | .declareParam declaration =>
      { state with program := (state.program.declareParam declaration).2 }
  | .declareField declaration =>
      { state with program := (state.program.declareField declaration).2 }
  | .declareMethod declaration =>
      { state with program := (state.program.declareMethod declaration).2 }
  | .intern string => { state with interner := state.interner.attempt string }

def performAll (state : Compilation) (calls : List CompilationCall) : Compilation :=
  calls.foldl perform state

/-- The fixed types stand in front, the primitive ones under `names`, and their names are those of
the texts they are written with. -/
structure Names (state : Compilation) (names : List Name) : Prop where
  program : ∃ added, state.program.HasFixed names added
  interner : ∃ texts, state.interner.Holds texts
  primitives : List.Forall₂ (fun text name => state.interner.lookup? name = some text)
    Program.primitiveNames names
  seeds : ∀ name text, Interner.seeded.lookup? name = some text →
    state.interner.lookup? name = some text

theorem names_of_create {earlier : List String} {program : Program} {shared : Interner}
    (made : Program.create (Interner.seeded.attemptAll earlier) = .ok (program, shared)) :
    ∃ names, Names ⟨program, shared⟩ names := by
  obtain ⟨names, answered, fixed⟩ := Program.hasFixed_of_create made
  obtain ⟨texts, holds, grown⟩ := Interner.holds_seeded.attemptAll earlier
  obtain ⟨holdsShared, found⟩ := holds.internEach_of_ok answered
  have grownShared := grown.trans (Interner.prefix_foldl_addNew texts Program.primitiveNames)
  exact ⟨names, ⟨[], fixed⟩, ⟨_, holdsShared⟩, found,
    fun name text seed => Interner.holds_seeded.lookup?_later holdsShared grownShared seed⟩

section Step

variable {state : Compilation} {names : List Name} (named : state.Names names)

include named

/-- No call takes a name away, and only requests for types have a part in the type table. -/
theorem Names.perform (call : CompilationCall) : (state.perform call).Names names := by
  obtain ⟨⟨added, fixed⟩, ⟨texts, holds⟩, primitives, seeds⟩ := named
  cases call with
  | type call =>
      obtain ⟨more, fixedAfter⟩ := fixed.perform call
      exact ⟨⟨added ++ more, fixedAfter⟩, ⟨texts, holds⟩, primitives, seeds⟩
  | intern string =>
      obtain ⟨later, holdsAfter, grown⟩ := holds.attempt string
      refine ⟨⟨added, fixed⟩, ⟨later, holdsAfter⟩, ?_, ?_⟩
      · exact primitives.imp fun text name found => holds.lookup?_later holdsAfter grown found
      · exact fun name text seed => holds.lookup?_later holdsAfter grown (seeds name text seed)
  | declareLocal | declareParam | declareField | declareMethod =>
      exact ⟨⟨added, fixed.count, fixed.types⟩, ⟨texts, holds⟩, primitives, seeds⟩

theorem Names.performAll (calls : List CompilationCall) :
    (state.performAll calls).Names names := by
  induction calls generalizing state with
  | nil => exact named
  | cons call rest inductionHypothesis => exact inductionHypothesis (named.perform call)

end Step

def primitiveTypes : List TypeId :=
  [.void, .boolean, .byte, .char, .short, .int, .long, .float, .double, .null]

def HasClass (state : Compilation) (type : TypeId) (text : String) (superclass : Option TypeId) :
    Prop :=
  ∃ name, state.program.type? type = some (.classType name superclass) ∧
    state.interner.lookup? name = some text

/-- The fixed handles find the types they stand for, and tell primitive types from others. -/
structure FixedTypesAgree (state : Compilation) : Prop where
  isPrimitive : ∀ type definition, state.program.type? type = some definition →
    (type.isPrimitive = true ↔ ∃ name, definition = .primitive name)
  primitives : List.Forall₂
    (fun type text => ∃ name, state.program.type? type = some (.primitive name) ∧
      state.interner.lookup? name = some text)
    primitiveTypes Program.primitiveNames
  root : state.HasClass .root "java.lang.Object" none
  string : state.HasClass .string "java.lang.String" (some .root)
  classClass : state.HasClass .classClass "java.lang.Class" (some .root)
  superclass : ∀ type,
    (∃ name, state.program.type? type = some (.classType name none)) ↔ type = .root

theorem Names.exists_primitive {state : Compilation} {names : List Name}
    (named : state.Names names) : List.Forall₂
      (fun type text => ∃ name, state.program.type? type = some (.primitive name) ∧
        state.interner.lookup? name = some text)
      primitiveTypes Program.primitiveNames := by
  obtain ⟨added, fixed⟩ := named.program
  have numbered : primitiveTypes = (List.range 10).map .ofIndex := by decide
  refine List.forall₂_iff_get.mpr ⟨rfl, ?_⟩
  intro position inside insideTexts
  have insideNames : position < names.length := fixed.count.symm ▸ inside
  have index : (primitiveTypes.get ⟨position, inside⟩).index = position := by
    have bound : position < UInt32.size := Nat.lt_trans inside (by decide)
    simp only [numbered, List.get_eq_getElem, List.getElem_map, List.getElem_range,
      TypeId.index_ofIndex bound]
  refine ⟨names[position], ?_, named.primitives.get insideTexts insideNames⟩
  rw [fixed.type?_of_isPrimitive (TypeId.isPrimitive_iff.mpr (index.symm ▸ inside)), index,
    List.getElem?_eq_getElem insideNames, Option.map_some]

theorem fixed_types_agree {earlier : List String} {program : Program} {shared : Interner}
    (made : Program.create (Interner.seeded.attemptAll earlier) = .ok (program, shared))
    (calls : List CompilationCall) :
    (performAll ⟨program, shared⟩ calls).FixedTypesAgree := by
  obtain ⟨names, first⟩ := names_of_create made
  have named := first.performAll calls
  obtain ⟨added, fixed⟩ := named.program
  refine ⟨?_, named.exists_primitive, ?_, ?_, ?_, ?_⟩
  · exact fun type definition => fixed.isPrimitive_iff
  · exact ⟨.rootClass, fixed.type?_root, named.seeds _ _ (by decide)⟩
  · exact ⟨.stringClass, fixed.type?_string, named.seeds _ _ (by decide)⟩
  · exact ⟨.classClass, fixed.type?_classClass, named.seeds _ _ (by decide)⟩
  · exact fun type => fixed.superclass_eq_none_iff

def namesAhead : List String := ["null", "Foo", "int"]

def programBehindNames : Program :=
  { Program.fixedOnly with
    types := #[.primitive ⟨7⟩, .primitive ⟨8⟩, .primitive ⟨9⟩, .primitive ⟨10⟩, .primitive ⟨11⟩,
      .primitive ⟨6⟩, .primitive ⟨12⟩, .primitive ⟨13⟩, .primitive ⟨14⟩, .primitive ⟨4⟩,
      .classType .rootClass none, .classType .stringClass (some .root),
      .classType .classClass (some .root)] }

def declarations : List CompilationCall :=
  [.intern "Bar", .type (.declareClass ⟨5⟩ .root), .type (.arrayType .int),
    .declareLocal ⟨⟨4⟩, ⟨14⟩, ⟨0, 3⟩⟩, .intern "void"]

theorem programBehindNames_fixed_types :
    ∃ shared, Program.create (Interner.seeded.attemptAll namesAhead) =
        .ok (programBehindNames, shared) ∧
      (performAll ⟨programBehindNames, shared⟩ declarations).FixedTypesAgree := by
  obtain ⟨shared, made⟩ : ∃ shared, Program.create (Interner.seeded.attemptAll namesAhead) =
    .ok (programBehindNames, shared) := ⟨_, rfl⟩
  exact ⟨shared, made, fixed_types_agree made declarations⟩

end Compilation

end CompilerIR
