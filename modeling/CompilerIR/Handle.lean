import CompilerIR.Json.Basic

/-!
Handles into the tables of a program. Expression nodes hold handles and never own a
declaration.
-/

namespace CompilerIR

inductive Table
  | names
  | locals
  | params
  | fields
  | methods
deriving DecidableEq

def Table.handleLabel : Table → String
  | .names => "Name"
  | .locals => "LocalId"
  | .params => "ParamId"
  | .fields => "FieldId"
  | .methods => "MethodId"

structure Handle (table : Table) where
  raw : UInt32
deriving DecidableEq

abbrev Name := Handle .names
abbrev LocalId := Handle .locals
abbrev ParamId := Handle .params
abbrev FieldId := Handle .fields
abbrev MethodId := Handle .methods

namespace Handle

variable {table : Table}

def ofIndex (index : Nat) : Handle table := ⟨.ofNat index⟩

def index (handle : Handle table) : Nat := handle.raw.toNat

def text (handle : Handle table) : String :=
  table.handleLabel ++ "(" ++ Text.decimal handle.index ++ ")"

def toJson (handle : Handle table) : Json := .ofNat handle.index

def ofJson? (json : Json) : Option (Handle table) := json.uint32?.map .mk

theorem index_ofIndex {index : Nat} (bound : index < UInt32.size) :
    (ofIndex index : Handle table).index = index :=
  UInt32.toNat_ofNat_of_lt' bound

theorem ofIndex_index (handle : Handle table) : ofIndex handle.index = handle := by
  simp only [ofIndex, index, UInt32.ofNat_toNat]

theorem index_injective : Function.Injective (index : Handle table → Nat) := by
  intro first second same
  rw [← ofIndex_index first, same, ofIndex_index]

end Handle

namespace Name

/-! Strings that every interner holds from the start, behind the empty one. -/

def rootClass : Name := ⟨1⟩

def stringClass : Name := ⟨2⟩

def classClass : Name := ⟨3⟩

end Name

end CompilerIR
