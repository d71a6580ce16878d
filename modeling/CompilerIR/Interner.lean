import CompilerIR.Handle

/-!
Interned strings. The name of a string is its position in the order of first occurrence.
One table finds the name of a string, the other the string of a name.
-/

namespace CompilerIR

structure Interner where
  /-- The strings with their names, the newest in front. -/
  names : List (String × Name)
  /-- The strings in the order of their names. -/
  strings : Array String

structure InternerFull where
  count : Nat
deriving DecidableEq

def InternerFull.message (error : InternerFull) : String :=
  "string interner is full: " ++ Text.decimal error.count ++ " strings already interned"

namespace Interner

def seeds : List String := ["", "java.lang.Object", "java.lang.String", "java.lang.Class"]

def empty : Interner := ⟨[], #[]⟩

def size (interner : Interner) : Nat := interner.strings.size

def isEmpty (_ : Interner) : Bool := false

def name? (interner : Interner) (string : String) : Option Name := interner.names.lookup string

/-- Give out the next name for a string, whether or not it has one already. -/
def issue (interner : Interner) (string : String) : Except InternerFull (Name × Interner) :=
  if interner.size < UInt32.size then
    let name := .ofIndex interner.size
    .ok (name, ⟨(string, name) :: interner.names, interner.strings.push string⟩)
  else .error ⟨interner.size⟩

/-- A seed that no name is left for would be left out. -/
def plant (interner : Interner) (seed : String) : Interner :=
  match interner.issue seed with
  | .ok (_, after) => after
  | .error _ => interner

def seeded : Interner := seeds.foldl plant empty

def intern (interner : Interner) (string : String) : Except InternerFull (Name × Interner) :=
  match interner.name? string with
  | some name => .ok (name, interner)
  | none => interner.issue string

/-- The string behind a name, unless another interner has issued it. -/
def lookup? (interner : Interner) (name : Name) : Option String := interner.strings[name.index]?

end Interner

end CompilerIR
