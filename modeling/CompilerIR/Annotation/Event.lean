import CompilerIR.Annotation.Basic

/-!
Scripts of events, through which annotations are read and handed on. An annotation or an
array inside another one is opened with a script of its own.
-/

namespace CompilerIR

inductive AnnotationEvent
  | visit (name : Option String) (value : Scalar)
  | visitEnum (name : Option String) (member : EnumMember)
  | openNested (name : Option String) (desc : String) (script : List AnnotationEvent)
  | openArray (name : Option String) (script : List AnnotationEvent)
  /-- No further event counts. -/
  | finish

namespace AnnotationEvent

inductive Opening
  | nested (desc : String)
  | array

def Opening.around (opening : Opening) (name : Option String) (script : List AnnotationEvent) :
    AnnotationEvent :=
  match opening with
  | .nested desc => .openNested name desc script
  | .array => .openArray name script

end AnnotationEvent

/-! ### Replay -/

mutual

def ElementValue.event (name : Option String) : ElementValue → AnnotationEvent
  | .scalar value => .visit name value
  | .enum member => .visitEnum name member
  | .nested entry => .openNested name entry.desc entry.script
  | .array items => .openArray name (ElementValue.itemEvents items)

/-- The parameters in their order, and the end. Whether the annotation is visible is not
told. -/
def AnnotationEntry.script : AnnotationEntry → List AnnotationEvent
  | ⟨_, _, params⟩ => ElementValue.paramEvents params

def ElementValue.itemEvents : List ElementValue → List AnnotationEvent
  | [] => [.finish]
  | item :: items => item.event none :: ElementValue.itemEvents items

def ElementValue.paramEvents : List (String × ElementValue) → List AnnotationEvent
  | [] => [.finish]
  | (name, value) :: rest => value.event (some name) :: ElementValue.paramEvents rest

end

end CompilerIR
