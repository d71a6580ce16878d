/-!
Annotations as class files hold them. The parameters of an annotation keep the order in
which the file lists them.
-/

namespace CompilerIR

/-- A value that stands by itself. Floating-point numbers are kept by their bits. -/
inductive Scalar
  | bool (value : Bool)
  | byte (value : Int8)
  /-- A UTF-16 code unit. -/
  | char (unit : UInt16)
  | short (value : Int16)
  | int (value : Int32)
  | long (value : Int64)
  | float (bits : UInt32)
  | double (bits : UInt64)
  | string (value : String)
  /-- A class, by its type descriptor. -/
  | classRef (desc : String)
deriving DecidableEq

structure EnumMember where
  desc : String
  name : String
deriving DecidableEq

mutual

/-- An annotation with the type descriptor `desc`. Every name stands at most once among
its parameters, and a visible annotation is kept for reflection at run time. -/
structure AnnotationEntry where
  desc : String
  visible : Bool
  params : List (String × ElementValue)

inductive ElementValue
  | scalar (value : Scalar)
  | enum (member : EnumMember)
  | nested (entry : AnnotationEntry)
  | array (items : List ElementValue)

end

/-- Named values in the order in which their names were first given. -/
abbrev Parameters := List (String × ElementValue)

namespace Parameters

def get? (name : String) : Parameters → Option ElementValue
  | [] => none
  | (key, value) :: rest => if key = name then some value else get? name rest

/-- A value for a known name takes the place of the old one; a new name goes to the
end. -/
def insert (name : String) (value : ElementValue) : Parameters → Parameters
  | [] => [(name, value)]
  | (key, old) :: rest =>
      if key = name then (name, value) :: rest else (key, old) :: insert name value rest

theorem get?_insert (name key : String) (value : ElementValue) (params : Parameters) :
    get? key (params.insert name value) = if name = key then some value else get? key params := by
  induction params with
  | nil => rfl
  | cons first rest inductionHypothesis =>
      obtain ⟨held, old⟩ := first
      simp only [insert]
      split
      · rename_i same
        subst same
        simp only [get?]
        split <;> rfl
      · rename_i other
        simp only [get?, inductionHypothesis]
        split
        · rename_i sought
          subst sought
          rw [if_neg (Ne.symm other)]
        · rfl

/-- A new name goes to the end, and a known one keeps its place. -/
theorem names_insert (name : String) (value : ElementValue) (params : Parameters) :
    (params.insert name value).map Prod.fst =
      if name ∈ params.map Prod.fst then params.map Prod.fst
      else params.map Prod.fst ++ [name] := by
  induction params with
  | nil => rfl
  | cons first rest inductionHypothesis =>
      obtain ⟨held, old⟩ := first
      simp only [insert]
      split
      · rename_i same
        subst same
        simp
      · rename_i other
        simp only [List.map_cons, inductionHypothesis, List.mem_cons, Ne.symm other, false_or]
        split <;> rfl

def ofList (pairs : List (String × ElementValue)) : Parameters :=
  pairs.foldl (fun params (name, value) => params.insert name value) []

end Parameters

namespace AnnotationEntry

def new (desc : String) (visible : Bool) : AnnotationEntry := ⟨desc, visible, []⟩

def get? (entry : AnnotationEntry) (name : String) : Option ElementValue :=
  Parameters.get? name entry.params

def add (entry : AnnotationEntry) (name : String) (value : ElementValue) :
    Option ElementValue × AnnotationEntry :=
  (entry.get? name,
    { entry with params := Parameters.insert name value entry.params })

end AnnotationEntry

namespace ElementValue

def scalar? : ElementValue → Option Scalar
  | .scalar value => some value
  | _ => none

def enum? : ElementValue → Option EnumMember
  | .enum member => some member
  | _ => none

def nested? : ElementValue → Option AnnotationEntry
  | .nested entry => some entry
  | _ => none

def array? : ElementValue → Option (List ElementValue)
  | .array items => some items
  | _ => none

end ElementValue

end CompilerIR
