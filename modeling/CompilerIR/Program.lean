import CompilerIR.Node.Text
import CompilerIR.Interner
import CompilerIR.Span
import CompilerIR.TypeId

/-!
The types and declarations of a program.
-/

namespace CompilerIR

inductive TypeEntry
  /-- A value type, the type without values, or the type of the null literal. -/
  | primitive (name : Name)
  /-- A class or interface. Only the root of the hierarchy has no superclass. -/
  | classType (name : Name) (superclass : Option TypeId)
  | arrayType (element : TypeId)
deriving DecidableEq

structure VariableDecl where
  name : Name
  type : TypeId
  span : Span
deriving DecidableEq

structure FieldDecl where
  name : Name
  type : TypeId
  enclosingType : TypeId
  isStatic : Bool
deriving DecidableEq

structure MethodDecl where
  name : Name
  returnType : TypeId
  enclosingType : TypeId
  isStatic : Bool
deriving DecidableEq

def VariableDecl.text (label : String) (declaration : VariableDecl) : String :=
  Text.record label [("name", declaration.name.text), ("ty", declaration.type.text),
    ("span", declaration.span.text)]

def FieldDecl.text (declaration : FieldDecl) : String :=
  Text.record "FieldDecl" [("name", declaration.name.text), ("ty", declaration.type.text),
    ("enclosing_type", declaration.enclosingType.text),
    ("is_static", Text.boolean declaration.isStatic)]

def MethodDecl.text (declaration : MethodDecl) : String :=
  Text.record "MethodDecl" [("name", declaration.name.text),
    ("return_type", declaration.returnType.text),
    ("enclosing_type", declaration.enclosingType.text),
    ("is_static", Text.boolean declaration.isStatic)]

structure Program where
  types : Array TypeEntry
  /-- The array types made so far, each behind its element. The newest is in front. -/
  arrayTypes : List (TypeId × TypeId)
  locals : Array VariableDecl
  params : Array VariableDecl
  fields : Array FieldDecl
  methods : Array MethodDecl

namespace Program

def primitiveNames : List String :=
  ["void", "boolean", "byte", "char", "short", "int", "long", "float", "double", "null"]

def internEach (interner : Interner) : List String → Except InternerFull (List Name × Interner)
  | [] => .ok ([], interner)
  | string :: strings => do
      let (name, interner) ← interner.intern string
      let (names, interner) ← internEach interner strings
      return (name :: names, interner)

/-- The classes with fixed handles, which follow the primitive types. -/
def fixedClasses : List TypeEntry :=
  [.classType .rootClass none, .classType .stringClass (some .root),
    .classType .classClass (some .root)]

/-- A program with the fixed types only. The interner comes back with their names in
it. -/
def create (interner : Interner) : Except InternerFull (Program × Interner) := do
  let (names, interner) ← internEach interner primitiveNames
  let types := names.map .primitive ++ fixedClasses
  return (⟨types.toArray, [], #[], #[], #[], #[]⟩, interner)

def pushType (program : Program) (definition : TypeEntry) : TypeId × Program :=
  (.ofIndex program.types.size, { program with types := program.types.push definition })

/-- A repeated name makes another class. -/
def declareClass (program : Program) (name : Name) (superclass : TypeId) : TypeId × Program :=
  program.pushType (.classType name (some superclass))

/-- There is at most one array type for an element; it is made on first use. -/
def arrayType (program : Program) (element : TypeId) : TypeId × Program :=
  match program.arrayTypes.lookup element with
  | some type => (type, program)
  | none =>
      let (type, program) := program.pushType (.arrayType element)
      (type, { program with arrayTypes := (element, type) :: program.arrayTypes })

def type? (program : Program) (type : TypeId) : Option TypeEntry := program.types[type.index]?

def typeCount (program : Program) : Nat := program.types.size

def declareLocal (program : Program) (declaration : VariableDecl) : LocalId × Program :=
  (.ofIndex program.locals.size, { program with locals := program.locals.push declaration })

def declareParam (program : Program) (declaration : VariableDecl) : ParamId × Program :=
  (.ofIndex program.params.size, { program with params := program.params.push declaration })

def declareField (program : Program) (declaration : FieldDecl) : FieldId × Program :=
  (.ofIndex program.fields.size, { program with fields := program.fields.push declaration })

def declareMethod (program : Program) (declaration : MethodDecl) : MethodId × Program :=
  (.ofIndex program.methods.size, { program with methods := program.methods.push declaration })

def local? (program : Program) (id : LocalId) : Option VariableDecl := program.locals[id.index]?

def param? (program : Program) (id : ParamId) : Option VariableDecl := program.params[id.index]?

def field? (program : Program) (id : FieldId) : Option FieldDecl := program.fields[id.index]?

def method? (program : Program) (id : MethodId) : Option MethodDecl := program.methods[id.index]?

end Program

end CompilerIR
