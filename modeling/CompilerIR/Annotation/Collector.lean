import CompilerIR.Annotation.Builder

/-!
Collectors, which hand what they have collected to a continuation. It is given away when it is
called, and works on the place that the collector has borrowed for it, such as the parameters of
the annotation around.
-/

namespace CompilerIR

structure EntryCollector (Place : Type) where
  /-- Missing once it is handed over. -/
  collected : Option AnnotationEntry
  sink : Option (AnnotationEntry → Place → Place)
  finished : Bool
  borrowed : Place

/-- Collects the elements of one array. It has ended when its continuation is gone. -/
structure ArrayCollector (Place : Type) where
  values : List ElementValue
  sink : Option (List ElementValue → Place → Place)
  borrowed : Place

namespace EntryCollector

variable {Place : Type}

def new (desc : String) (visible : Bool) (borrowed : Place) : EntryCollector Place :=
  ⟨some (.new desc visible), none, false, borrowed⟩

def withSink (desc : String) (visible : Bool) (sink : AnnotationEntry → Place → Place)
    (borrowed : Place) : EntryCollector Place :=
  ⟨some (.new desc visible), some sink, false, borrowed⟩

/-- Let `use` change the parameters, unless the collector has ended. -/
def lend (collector : EntryCollector Place) (use : Parameters → Parameters) :
    EntryCollector Place :=
  if collector.finished then collector
  else
    { collector with
      collected := collector.collected.map fun entry =>
        { entry with params := use entry.params } }

def store (collector : EntryCollector Place) (name : Option String) (value : ElementValue) :
    EntryCollector Place :=
  collector.lend fun params => params.insert (name.getD "") value

def finish (collector : EntryCollector Place) : EntryCollector Place :=
  if collector.finished then collector
  else
    let ended := { collector with finished := true, sink := none }
    match collector.sink, collector.collected with
    | some sink, some entry =>
        { ended with collected := none, borrowed := sink entry collector.borrowed }
    | _, _ => ended

end EntryCollector

namespace ArrayCollector

variable {Place : Type}

def new (sink : List ElementValue → Place → Place) (borrowed : Place) : ArrayCollector Place :=
  ⟨[], some sink, borrowed⟩

def lend (collector : ArrayCollector Place) (use : List ElementValue → List ElementValue) :
    ArrayCollector Place :=
  if collector.sink.isNone then collector
  else { collector with values := use collector.values }

def store (collector : ArrayCollector Place) (value : ElementValue) : ArrayCollector Place :=
  collector.lend fun values => values ++ [value]

def finish (collector : ArrayCollector Place) : ArrayCollector Place :=
  match collector.sink with
  | none => collector
  | some sink => ⟨[], none, sink collector.values collector.borrowed⟩

end ArrayCollector

/-! ### What is opened inside

A collector that is opened in another one borrows what that one has collected so far, and adds its
own result to it. -/

def EntryCollector.inEntry (name : Option String) (desc : String) (params : Parameters) :
    EntryCollector Parameters :=
  .withSink desc nestedVisibility
    (fun entry params => params.insert (name.getD "") (.nested entry)) params

def ArrayCollector.inEntry (name : Option String) (params : Parameters) :
    ArrayCollector Parameters :=
  .new (fun items params => params.insert (name.getD "") (.array items)) params

def EntryCollector.inArray (desc : String) (values : List ElementValue) :
    EntryCollector (List ElementValue) :=
  .withSink desc nestedVisibility (fun entry values => values ++ [.nested entry]) values

def ArrayCollector.inArray (values : List ElementValue) : ArrayCollector (List ElementValue) :=
  .new (fun items values => values ++ [.array items]) values

mutual

def EntryCollector.accept {Place : Type} (collector : EntryCollector Place) :
    AnnotationEvent → EntryCollector Place
  | .visit name value => collector.store name (.scalar value)
  | .visitEnum name member => collector.store name (.enum member)
  | .openNested name desc script =>
      collector.lend fun params =>
        ((EntryCollector.inEntry name desc params).acceptAll script).borrowed
  | .openArray name script =>
      collector.lend fun params => ((ArrayCollector.inEntry name params).acceptAll script).borrowed
  | .finish => collector.finish

def EntryCollector.acceptAll {Place : Type} (collector : EntryCollector Place) :
    List AnnotationEvent → EntryCollector Place
  | [] => collector
  | event :: events => (collector.accept event).acceptAll events

def ArrayCollector.accept {Place : Type} (collector : ArrayCollector Place) :
    AnnotationEvent → ArrayCollector Place
  | .visit _ value => collector.store (.scalar value)
  | .visitEnum _ member => collector.store (.enum member)
  | .openNested _ desc script =>
      collector.lend fun values =>
        ((EntryCollector.inArray desc values).acceptAll script).borrowed
  | .openArray _ script =>
      collector.lend fun values => ((ArrayCollector.inArray values).acceptAll script).borrowed
  | .finish => collector.finish

def ArrayCollector.acceptAll {Place : Type} (collector : ArrayCollector Place) :
    List AnnotationEvent → ArrayCollector Place
  | [] => collector
  | event :: events => (collector.accept event).acceptAll events

end

def collectInto (list : List AnnotationEntry) (desc : String) (visible : Bool)
    (script : List AnnotationEvent) : List AnnotationEntry :=
  let collector := EntryCollector.withSink desc visible (fun entry list => list ++ [entry]) list
  (collector.acceptAll script).borrowed

end CompilerIR
