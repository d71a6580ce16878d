import CompilerIR.Annotation.Event

/-!
Visitors, to which annotations are told one call after the other. What they make of a call is
their own affair.
-/

namespace CompilerIR

/-- How visitors take their calls. They are told apart by a `Visitor`, and all that they can
reach or change is in the `State`. -/
structure AnnotationVisitor (State Visitor : Type) where
  visit (visitor : Visitor) (name : Option String) (value : Scalar) (state : State) : State
  visitEnum (visitor : Visitor) (name : Option String) (member : EnumMember) (state : State) : State
  /-- Gives the visitor that the events of the nested annotation go to. -/
  openNested (visitor : Visitor) (name : Option String) (desc : String) (state : State) :
    Visitor × State
  /-- Gives the visitor that the elements of the array go to. -/
  openArray (visitor : Visitor) (name : Option String) (state : State) : Visitor × State
  finish (visitor : Visitor) (state : State) : State

section Walk

variable {State Visitor : Type} (visitors : AnnotationVisitor State Visitor)

mutual

/-- Tell a visitor the value. A child that has been opened for it is told everything inside, and
is then finished. -/
def ElementValue.walk (visitor : Visitor) (name : Option String) (state : State) :
    ElementValue → State
  | .scalar value => visitors.visit visitor name value state
  | .enum member => visitors.visitEnum visitor name member state
  | .nested entry =>
      let (child, opened) := visitors.openNested visitor name entry.desc state
      entry.walk child opened
  | .array items =>
      let (child, opened) := visitors.openArray visitor name state
      visitors.finish child (ElementValue.walkItems child opened items)

def AnnotationEntry.walk (visitor : Visitor) (state : State) : AnnotationEntry → State
  | ⟨_, _, params⟩ => visitors.finish visitor (ElementValue.walkParams visitor state params)

def ElementValue.walkItems (visitor : Visitor) (state : State) : List ElementValue → State
  | [] => state
  | item :: items => ElementValue.walkItems visitor (item.walk visitor none state) items

def ElementValue.walkParams (visitor : Visitor) (state : State) :
    List (String × ElementValue) → State
  | [] => state
  | (name, value) :: rest =>
      ElementValue.walkParams visitor (value.walk visitor (some name) state) rest

end

end Walk

/-! ### Scripts -/

section Drive

variable {State Visitor : Type} (visitors : AnnotationVisitor State Visitor)

mutual

/-- Call a visitor as a script has it, and the children it opens with their own scripts. -/
def AnnotationEvent.drive (visitor : Visitor) (state : State) : AnnotationEvent → State
  | .visit name value => visitors.visit visitor name value state
  | .visitEnum name member => visitors.visitEnum visitor name member state
  | .openNested name desc script =>
      let (child, opened) := visitors.openNested visitor name desc state
      AnnotationEvent.driveAll child opened script
  | .openArray name script =>
      let (child, opened) := visitors.openArray visitor name state
      AnnotationEvent.driveAll child opened script
  | .finish => visitors.finish visitor state

def AnnotationEvent.driveAll (visitor : Visitor) (state : State) :
    List AnnotationEvent → State
  | [] => state
  | event :: events => AnnotationEvent.driveAll visitor (event.drive visitor state) events

end

end Drive

end CompilerIR
