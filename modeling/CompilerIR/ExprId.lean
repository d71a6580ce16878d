import CompilerIR.Json.Basic

/-!
Identities of expression nodes.
-/

namespace CompilerIR

/-- The position of a node in its arena. The greatest one is set aside and stands for no
expression, such as the missing receiver of a static call. -/
structure ExprId where
  raw : UInt32
deriving DecidableEq

namespace ExprId

def invalid : ExprId := ⟨0xffffffff⟩

instance : Inhabited ExprId := ⟨invalid⟩

def ofIndex (index : Nat) : ExprId := ⟨.ofNat index⟩

def index (id : ExprId) : Nat := id.raw.toNat

def isValid (id : ExprId) : Bool := id ≠ invalid

def text (id : ExprId) : String :=
  if id.isValid then "ExprId(" ++ Text.decimal id.index ++ ")" else "ExprId::INVALID"

def toJson (id : ExprId) : Json := .ofNat id.index

def ofJson? (json : Json) : Option ExprId := json.uint32?.map .mk

theorem index_lt (id : ExprId) : id.index < UInt32.size := id.raw.toNat_lt

theorem index_ofIndex {index : Nat} (bound : index < UInt32.size) :
    (ofIndex index).index = index :=
  UInt32.toNat_ofNat_of_lt' bound

theorem ofIndex_index (id : ExprId) : ofIndex id.index = id := by
  simp only [ofIndex, index, UInt32.ofNat_toNat]

theorem index_injective : Function.Injective index := by
  intro first second same
  rw [← ofIndex_index first, same, ofIndex_index]

theorem isValid_of_lt {id : ExprId} (bound : id.index < UInt32.size - 1) : id.isValid = true := by
  unfold isValid
  rw [decide_eq_true_eq]
  intro same
  subst same
  exact absurd bound (by decide)

theorem eq_invalid_of_not_isValid {id : ExprId} (empty : ¬id.isValid = true) : id = invalid := by
  simpa [isValid] using empty

theorem isValid_of_index_lt {first second : ExprId} (precedes : first.index < second.index) :
    first.isValid = true := by
  have bound := second.index_lt
  exact isValid_of_lt (by omega)

end ExprId

end CompilerIR
