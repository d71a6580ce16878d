import CompilerIR.Json.Basic

/-!
Handles into the type table, of which the first thirteen are fixed.
-/

namespace CompilerIR

structure TypeId where
  raw : UInt32
deriving DecidableEq

namespace TypeId

def void : TypeId := ⟨0⟩

def boolean : TypeId := ⟨1⟩

def byte : TypeId := ⟨2⟩

def char : TypeId := ⟨3⟩

def short : TypeId := ⟨4⟩

def int : TypeId := ⟨5⟩

def long : TypeId := ⟨6⟩

def float : TypeId := ⟨7⟩

def double : TypeId := ⟨8⟩

def null : TypeId := ⟨9⟩

def root : TypeId := ⟨10⟩

def string : TypeId := ⟨11⟩

def classClass : TypeId := ⟨12⟩

def fixedNames : List String :=
  ["VOID", "BOOLEAN", "BYTE", "CHAR", "SHORT", "INT", "LONG", "FLOAT", "DOUBLE", "NULL",
    "OBJECT", "STRING", "CLASS"]

def ofIndex (index : Nat) : TypeId := ⟨.ofNat index⟩

def index (type : TypeId) : Nat := type.raw.toNat

def isPrimitive (type : TypeId) : Bool := type.raw ≤ null.raw

def text (type : TypeId) : String :=
  match fixedNames[type.index]? with
  | some name => "TypeId::" ++ name
  | none => "TypeId(" ++ Text.decimal type.index ++ ")"

def toJson (type : TypeId) : Json := .ofNat type.index

def ofJson? (json : Json) : Option TypeId := json.uint32?.map .mk

theorem index_ofIndex {index : Nat} (bound : index < UInt32.size) :
    (ofIndex index).index = index :=
  UInt32.toNat_ofNat_of_lt' bound

theorem ofIndex_index (type : TypeId) : ofIndex type.index = type := by
  simp only [ofIndex, index, UInt32.ofNat_toNat]

theorem index_injective : Function.Injective index := by
  intro first second same
  rw [← ofIndex_index first, same, ofIndex_index]

end TypeId

end CompilerIR
