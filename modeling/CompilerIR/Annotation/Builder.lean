import CompilerIR.Annotation.Event

/-!
Builders, which make annotations and arrays from scripts of events. Whatever comes after
the end of a builder is passed over, and what is opened then is never looked at.
-/

namespace CompilerIR

/-- Builds one annotation. One that hands its result over keeps nothing once it has
ended. -/
structure EntryBuilder where
  /-- What has been built so far. -/
  building : Option AnnotationEntry
  handsOver : Bool
  finished : Bool
  /-- What it has handed over. -/
  delivered : List AnnotationEntry

namespace EntryBuilder

def keeping (desc : String) (visible : Bool) : EntryBuilder :=
  ⟨some (.new desc visible), false, false, []⟩

def handingOver (desc : String) (visible : Bool) : EntryBuilder :=
  ⟨some (.new desc visible), true, false, []⟩

/-- An event without a name stores its value under the empty one. -/
def store (builder : EntryBuilder) (name : Option String) (value : ElementValue) : EntryBuilder :=
  if builder.finished then builder
  else
    { builder with
      building := builder.building.map fun entry =>
        (entry.add (name.getD "") value).2 }

def finish (builder : EntryBuilder) : EntryBuilder :=
  if builder.finished then builder
  else if builder.handsOver then
    { builder with
      building := none
      finished := true
      delivered := builder.delivered ++ builder.building.toList }
  else { builder with finished := true }

end EntryBuilder

structure ArrayBuilder where
  items : List ElementValue
  finished : Bool
  delivered : List (List ElementValue)

namespace ArrayBuilder

def new : ArrayBuilder := ⟨[], false, []⟩

def store (builder : ArrayBuilder) (value : ElementValue) : ArrayBuilder :=
  if builder.finished then builder
  else { builder with items := builder.items ++ [value] }

def finish (builder : ArrayBuilder) : ArrayBuilder :=
  if builder.finished then builder
  else ⟨[], true, builder.delivered ++ [builder.items]⟩

end ArrayBuilder

/-- Class files record visibility for the outermost annotations only; those inside others
count as visible. -/
def nestedVisibility : Bool := true

mutual

def EntryBuilder.feed (builder : EntryBuilder) : AnnotationEvent → EntryBuilder
  | .visit name value => builder.store name (.scalar value)
  | .visitEnum name member => builder.store name (.enum member)
  | .openNested name desc script =>
      if builder.finished then builder
      else
        let child := (EntryBuilder.handingOver desc nestedVisibility).feedAll script
        child.delivered.foldl (fun builder entry => builder.store name (.nested entry)) builder
  | .openArray name script =>
      if builder.finished then builder
      else
        let child := ArrayBuilder.new.feedAll script
        child.delivered.foldl (fun builder items => builder.store name (.array items)) builder
  | .finish => builder.finish

def EntryBuilder.feedAll (builder : EntryBuilder) : List AnnotationEvent → EntryBuilder
  | [] => builder
  | event :: events => (builder.feed event).feedAll events

/-- The elements of an array are told apart by their order alone, so names are passed
over. -/
def ArrayBuilder.feed (builder : ArrayBuilder) : AnnotationEvent → ArrayBuilder
  | .visit _ value => builder.store (.scalar value)
  | .visitEnum _ member => builder.store (.enum member)
  | .openNested _ desc script =>
      if builder.finished then builder
      else
        let child := (EntryBuilder.handingOver desc nestedVisibility).feedAll script
        child.delivered.foldl (fun builder entry => builder.store (.nested entry)) builder
  | .openArray _ script =>
      if builder.finished then builder
      else
        let child := ArrayBuilder.new.feedAll script
        child.delivered.foldl (fun builder items => builder.store (.array items)) builder
  | .finish => builder.finish

def ArrayBuilder.feedAll (builder : ArrayBuilder) : List AnnotationEvent → ArrayBuilder
  | [] => builder
  | event :: events => (builder.feed event).feedAll events

end

end CompilerIR
