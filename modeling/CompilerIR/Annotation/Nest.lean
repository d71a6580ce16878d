import CompilerIR.Annotation.Collector
import CompilerIR.Annotation.Visitor

/-!
Collectors as visitors. What is opened in a collector borrows from it until the collector is called
again, so those that are open at a time make a nest, each inside the one before. A call finds its
collector by the number of others around it.
-/

namespace CompilerIR

/-- Whom a collector has borrowed its place from. -/
inductive Lender
  | outside
  | entry
  | array

abbrev Lender.Place (Outside : Type) : Lender → Type
  | .outside => Outside
  | .entry => Parameters
  | .array => List ElementValue

/-- A collector and what has been opened in it. Nobody listens where nothing has been opened, or
where that was too late. -/
inductive CollectorNest (Outside : Type) : Lender → Type
  | nobody {lender : Lender} : CollectorNest Outside lender
  | entry {lender : Lender} (collector : EntryCollector (lender.Place Outside))
      (inner : CollectorNest Outside .entry) : CollectorNest Outside lender
  | array {lender : Lender} (collector : ArrayCollector (lender.Place Outside))
      (inner : CollectorNest Outside .array) : CollectorNest Outside lender

def EntryCollector.nest {Outside : Type} (collector : EntryCollector Outside) :
    CollectorNest Outside .outside :=
  .entry collector .nobody

def ArrayCollector.nest {Outside : Type} (collector : ArrayCollector Outside) :
    CollectorNest Outside .outside :=
  .array collector .nobody

def EntryCollector.lent? {Place : Type} (collector : EntryCollector Place) : Option Parameters :=
  if collector.finished then none else collector.collected.map (·.params)

def ArrayCollector.lent? {Place : Type} (collector : ArrayCollector Place) :
    Option (List ElementValue) :=
  if collector.sink.isNone then none else some collector.values

def EntryCollector.takeBack {Place : Type} (collector : EntryCollector Place) :
    Option Parameters → EntryCollector Place
  | none => collector
  | some params => collector.lend fun _ => params

def ArrayCollector.takeBack {Place : Type} (collector : ArrayCollector Place) :
    Option (List ElementValue) → ArrayCollector Place
  | none => collector
  | some values => collector.lend fun _ => values

namespace CollectorNest

variable {Outside : Type} {lender : Lender}

def returned? : CollectorNest Outside lender → Option (lender.Place Outside)
  | .nobody => none
  | .entry collector _ => some collector.borrowed
  | .array collector _ => some collector.borrowed

/-- The outermost collector takes back what it has lent, and is alone again. -/
def settle : CollectorNest Outside lender → CollectorNest Outside lender
  | .nobody => .nobody
  | .entry collector inner => .entry (collector.takeBack inner.returned?) .nobody
  | .array collector inner => .array (collector.takeBack inner.returned?) .nobody

def focus (change : ∀ lender, CollectorNest Outside lender → CollectorNest Outside lender) :
    Nat → {lender : Lender} → CollectorNest Outside lender → CollectorNest Outside lender
  | 0, lender, nest => change lender nest
  | _ + 1, _, .nobody => .nobody
  | depth + 1, _, .entry collector inner => .entry collector (inner.focus change depth)
  | depth + 1, _, .array collector inner => .array collector (inner.focus change depth)

/-- A call ends all borrows from the collector it is made on. -/
def call (change : ∀ lender, CollectorNest Outside lender → CollectorNest Outside lender)
    (depth : Nat) (nest : CollectorNest Outside lender) : CollectorNest Outside lender :=
  nest.focus (fun lender inner => change lender inner.settle) depth

def store (name : Option String) (value : ElementValue) (lender : Lender) :
    CollectorNest Outside lender → CollectorNest Outside lender
  | .nobody => .nobody
  | .entry collector inner => .entry (collector.store name value) inner
  | .array collector inner => .array (collector.store value) inner

def openNested (name : Option String) (desc : String) (lender : Lender) :
    CollectorNest Outside lender → CollectorNest Outside lender
  | .nobody => .nobody
  | .entry collector _ =>
      .entry collector (collector.lent?.elim .nobody fun params =>
        .entry (.inEntry name desc params) .nobody)
  | .array collector _ =>
      .array collector (collector.lent?.elim .nobody fun values =>
        .entry (.inArray desc values) .nobody)

def openArray (name : Option String) (lender : Lender) :
    CollectorNest Outside lender → CollectorNest Outside lender
  | .nobody => .nobody
  | .entry collector _ =>
      .entry collector (collector.lent?.elim .nobody fun params =>
        .array (.inEntry name params) .nobody)
  | .array collector _ =>
      .array collector (collector.lent?.elim .nobody fun values => .array (.inArray values) .nobody)

def finish (lender : Lender) : CollectorNest Outside lender → CollectorNest Outside lender
  | .nobody => .nobody
  | .entry collector inner => .entry collector.finish inner
  | .array collector inner => .array collector.finish inner

end CollectorNest

open CollectorNest (call)

/-- What is opened in the visitor `depth` is the visitor `depth + 1`. -/
def collecting {Outside : Type} : AnnotationVisitor (CollectorNest Outside .outside) Nat where
  visit depth name value nest := nest.call (CollectorNest.store name (.scalar value)) depth
  visitEnum depth name member nest := nest.call (CollectorNest.store name (.enum member)) depth
  openNested depth name desc nest := (depth + 1, nest.call (CollectorNest.openNested name desc) depth)
  openArray depth name nest := (depth + 1, nest.call (CollectorNest.openArray name) depth)
  finish depth nest := nest.call CollectorNest.finish depth

end CompilerIR
