import CompilerIR.Proofs.Annotation.Meaning
import CompilerIR.Proofs.Annotation.Nest

/-!
Collectors and what scripts mean. Main statement: a collector, told a script at once or call by call,
makes of it what the builders make of it, which is what the script means.
-/

namespace CompilerIR

open AnnotationEvent (driveAll ends given understood)

/-! ### What is opened -/

namespace AnnotationEvent

def Opening.value (opening : Opening) (script : List AnnotationEvent) : ElementValue :=
  match opening with
  | .nested desc => .nested ⟨desc, true, Parameters.settled (given script)⟩
  | .array => .array ((given script).map Prod.snd)

variable (opening : Opening) (name : Option String) (script : List AnnotationEvent)

theorem value?_around : (opening.around name script).value? =
    if ends script then some (opening.value script) else none := by
  cases opening <;> rfl

theorem isFinish_around : (opening.around name script).isFinish = false := by
  cases opening <;> rfl

theorem name_around : (opening.around name script).name = name.getD "" := by
  cases opening <;> rfl

end AnnotationEvent

open AnnotationEvent (Opening value?_around isFinish_around name_around)

section Opened

variable (opening : Opening) (name : Option String) (script : List AnnotationEvent)

theorem EntryBuilder.feed_around (builder : EntryBuilder) :
    builder.feed (opening.around name script) =
      if ends script then builder.store name (opening.value script) else builder := by
  rw [(understood _).byEntry, receive, isFinish_around, if_neg Bool.false_ne_true,
    value?_around, name_around]
  split <;> rfl

theorem ArrayBuilder.feed_around (builder : ArrayBuilder) :
    builder.feed (opening.around name script) =
      if ends script then builder.store (opening.value script) else builder := by
  rw [(understood _).byArray, receive, isFinish_around, if_neg Bool.false_ne_true, value?_around]
  split <;> rfl

end Opened

/-! ### Collectors in place of builders -/

def EntryBuilder.withSink {Place : Type} (builder : EntryBuilder)
    (sink : AnnotationEntry → Place → Place) (borrowed : Place) : EntryCollector Place where
  collected := builder.building
  sink := if builder.finished || !builder.handsOver then none else some sink
  finished := builder.finished
  borrowed := builder.delivered.foldl (fun place entry => sink entry place) borrowed

def ArrayBuilder.withSink {Place : Type} (builder : ArrayBuilder)
    (sink : List ElementValue → Place → Place) (borrowed : Place) : ArrayCollector Place where
  values := builder.items
  sink := if builder.finished then none else some sink
  borrowed := builder.delivered.foldl (fun place items => sink items place) borrowed

namespace EntryBuilder

variable {Place : Type} (builder : EntryBuilder) (sink : AnnotationEntry → Place → Place)
  (borrowed : Place)

theorem borrowed_withSink : (builder.withSink sink borrowed).borrowed =
    builder.delivered.foldl (fun place entry => sink entry place) borrowed := rfl

theorem store_withSink (name : Option String) (value : ElementValue) :
    (builder.withSink sink borrowed).store name value =
      (builder.store name value).withSink sink borrowed := by
  obtain ⟨building, handsOver, finished, delivered⟩ := builder
  cases finished with
  | true => rfl
  | false => cases building <;> rfl

theorem finish_withSink :
    (builder.withSink sink borrowed).finish = builder.finish.withSink sink borrowed := by
  obtain ⟨building, handsOver, finished, delivered⟩ := builder
  cases finished with
  | true => rfl
  | false =>
      cases handsOver with
      | false => rfl
      | true =>
          cases building with
          | none => simp [withSink, finish, EntryCollector.finish]
          | some entry => simp [withSink, finish, EntryCollector.finish]

end EntryBuilder

namespace ArrayBuilder

variable {Place : Type} (builder : ArrayBuilder) (sink : List ElementValue → Place → Place)
  (borrowed : Place)

theorem borrowed_withSink : (builder.withSink sink borrowed).borrowed =
    builder.delivered.foldl (fun place items => sink items place) borrowed := rfl

theorem store_withSink (value : ElementValue) :
    (builder.withSink sink borrowed).store value =
      (builder.store value).withSink sink borrowed := by
  obtain ⟨items, finished, delivered⟩ := builder
  cases finished <;> rfl

theorem finish_withSink :
    (builder.withSink sink borrowed).finish = builder.finish.withSink sink borrowed := by
  obtain ⟨items, finished, delivered⟩ := builder
  cases finished with
  | true => rfl
  | false => simp [withSink, finish, ArrayCollector.finish]

end ArrayBuilder

theorem EntryCollector.lend_unchanged {Place : Type} (collector : EntryCollector Place) :
    (collector.lend fun params => params) = collector := by
  obtain ⟨collected, sink, finished, borrowed⟩ := collector
  cases finished with
  | true => rfl
  | false =>
      cases collected with
      | none => rfl
      | some entry => cases entry; rfl

theorem ArrayCollector.lend_unchanged {Place : Type} (collector : ArrayCollector Place) :
    (collector.lend fun values => values) = collector := by
  obtain ⟨values, sink, borrowed⟩ := collector
  cases sink <;> rfl

/-- Collectors do with an event what builders do. -/
structure AnnotationEvent.Followed (event : AnnotationEvent) : Prop where
  byEntry : ∀ {Place : Type} (builder : EntryBuilder) (sink : AnnotationEntry → Place → Place)
    (borrowed : Place),
    (builder.withSink sink borrowed).accept event = (builder.feed event).withSink sink borrowed
  byArray : ∀ {Place : Type} (builder : ArrayBuilder) (sink : List ElementValue → Place → Place)
    (borrowed : Place),
    (builder.withSink sink borrowed).accept event = (builder.feed event).withSink sink borrowed

section Scripts

variable {script : List AnnotationEvent} (followed : ∀ event ∈ script, event.Followed)

include followed

theorem EntryBuilder.acceptAll_withSink {Place : Type} (builder : EntryBuilder)
    (sink : AnnotationEntry → Place → Place) (borrowed : Place) :
    (builder.withSink sink borrowed).acceptAll script =
      (builder.feedAll script).withSink sink borrowed := by
  induction script generalizing builder with
  | nil => rfl
  | cons event events inductionHypothesis =>
      rw [EntryCollector.acceptAll, (followed event List.mem_cons_self).byEntry, feedAll]
      exact inductionHypothesis (fun other member =>
        followed other (List.mem_cons_of_mem event member)) (builder.feed event)

theorem ArrayBuilder.acceptAll_withSink {Place : Type} (builder : ArrayBuilder)
    (sink : List ElementValue → Place → Place) (borrowed : Place) :
    (builder.withSink sink borrowed).acceptAll script =
      (builder.feedAll script).withSink sink borrowed := by
  induction script generalizing builder with
  | nil => rfl
  | cons event events inductionHypothesis =>
      rw [ArrayCollector.acceptAll, (followed event List.mem_cons_self).byArray, feedAll]
      exact inductionHypothesis (fun other member =>
        followed other (List.mem_cons_of_mem event member)) (builder.feed event)

theorem EntryCollector.acceptAll_sink {Place : Type} (desc : String) (visible : Bool)
    (sink : AnnotationEntry → Place → Place) (borrowed : Place) :
    (EntryCollector.withSink desc visible sink borrowed).acceptAll script =
      ((EntryBuilder.handingOver desc visible).feedAll script).withSink sink borrowed :=
  EntryBuilder.acceptAll_withSink followed (.handingOver desc visible) sink borrowed

theorem ArrayCollector.acceptAll_sink {Place : Type} (sink : List ElementValue → Place → Place)
    (borrowed : Place) :
    (ArrayCollector.new sink borrowed).acceptAll script =
      (ArrayBuilder.new.feedAll script).withSink sink borrowed :=
  ArrayBuilder.acceptAll_withSink followed .new sink borrowed

theorem EntryCollector.borrowed_acceptAll {Place : Type} (desc : String) (visible : Bool)
    (sink : AnnotationEntry → Place → Place) (borrowed : Place) :
    ((EntryCollector.withSink desc visible sink borrowed).acceptAll script).borrowed =
      if ends script then sink ⟨desc, visible, Parameters.settled (given script)⟩ borrowed
      else borrowed := by
  rw [EntryCollector.acceptAll_sink followed, EntryBuilder.borrowed_withSink,
    EntryBuilder.delivered_feedAll fun event _member => event.understood]
  split <;> rfl

theorem ArrayCollector.borrowed_acceptAll {Place : Type}
    (sink : List ElementValue → Place → Place) (borrowed : Place) :
    ((ArrayCollector.new sink borrowed).acceptAll script).borrowed =
      if ends script then sink ((given script).map Prod.snd) borrowed else borrowed := by
  rw [ArrayCollector.acceptAll_sink followed, ArrayBuilder.borrowed_withSink,
    ArrayBuilder.delivered_feedAll fun event _member => event.understood]
  split <;> rfl

theorem EntryCollector.isNone_sink_acceptAll {Place : Type} (desc : String) (visible : Bool)
    (sink : AnnotationEntry → Place → Place) (borrowed : Place) :
    ((EntryCollector.withSink desc visible sink borrowed).acceptAll script).sink.isNone =
      ends script := by
  rw [EntryCollector.acceptAll_sink followed, EntryBuilder.handingOver, AnnotationEntry.new,
    EntryBuilder.feedAll_eq fun event _member => event.understood]
  cases ends script <;> rfl

theorem ArrayCollector.isNone_sink_acceptAll {Place : Type}
    (sink : List ElementValue → Place → Place) (borrowed : Place) :
    ((ArrayCollector.new sink borrowed).acceptAll script).sink.isNone = ends script := by
  rw [ArrayCollector.acceptAll_sink followed, ArrayBuilder.new,
    ArrayBuilder.feedAll_eq fun event _member => event.understood]
  cases ends script <;> rfl

theorem EntryCollector.accept_around {Place : Type} (collector : EntryCollector Place)
    (opening : Opening) (name : Option String) :
    collector.accept (opening.around name script) =
      if ends script then collector.store name (opening.value script) else collector := by
  have lent : collector.accept (opening.around name script) = collector.lend fun params =>
      if ends script then params.insert (name.getD "") (opening.value script) else params := by
    cases opening with
    | nested desc =>
        rw [Opening.around, accept]
        exact congrArg collector.lend (funext fun params => borrowed_acceptAll followed ..)
    | array =>
        rw [Opening.around, accept]
        exact congrArg collector.lend
          (funext fun params => ArrayCollector.borrowed_acceptAll followed ..)
  rw [lent]
  split
  · rfl
  · exact collector.lend_unchanged

theorem ArrayCollector.accept_around {Place : Type} (collector : ArrayCollector Place)
    (opening : Opening) (name : Option String) :
    collector.accept (opening.around name script) =
      if ends script then collector.store (opening.value script) else collector := by
  have lent : collector.accept (opening.around name script) = collector.lend fun values =>
      if ends script then values ++ [opening.value script] else values := by
    cases opening with
    | nested desc =>
        rw [Opening.around, accept]
        exact congrArg collector.lend
          (funext fun values => EntryCollector.borrowed_acceptAll followed ..)
    | array =>
        rw [Opening.around, accept]
        exact congrArg collector.lend (funext fun values => borrowed_acceptAll followed ..)
  rw [lent]
  split
  · rfl
  · exact collector.lend_unchanged

theorem AnnotationEvent.followed_around (opening : Opening) (name : Option String) :
    (opening.around name script).Followed := by
  constructor
  · intro Place builder sink borrowed
    rw [EntryCollector.accept_around followed, EntryBuilder.feed_around]
    split
    · exact builder.store_withSink sink borrowed name _
    · rfl
  · intro Place builder sink borrowed
    rw [ArrayCollector.accept_around followed, ArrayBuilder.feed_around]
    split
    · exact builder.store_withSink sink borrowed _
    · rfl

end Scripts

theorem AnnotationEvent.followed (event : AnnotationEvent) : event.Followed := by
  induction event using inductionOn with
  | visit name value =>
      exact ⟨fun builder sink borrowed => builder.store_withSink sink borrowed name (.scalar value),
        fun builder sink borrowed => builder.store_withSink sink borrowed (.scalar value)⟩
  | visitEnum name member =>
      exact ⟨fun builder sink borrowed => builder.store_withSink sink borrowed name (.enum member),
        fun builder sink borrowed => builder.store_withSink sink borrowed (.enum member)⟩
  | openNested name desc script inside => exact followed_around inside (.nested desc) name
  | openArray name script inside => exact followed_around inside .array name
  | finish =>
      exact ⟨fun builder sink borrowed => builder.finish_withSink sink borrowed,
        fun builder sink borrowed => builder.finish_withSink sink borrowed⟩

/-! ### Whole scripts -/

theorem EntryCollector.acceptAll_new {Place : Type} (desc : String) (visible : Bool)
    (borrowed : Place) (script : List AnnotationEvent) :
    (EntryCollector.new desc visible borrowed).acceptAll script =
      ⟨some ⟨desc, visible, Parameters.settled (given script)⟩, none, ends script, borrowed⟩ := by
  have followed (event : AnnotationEvent) (_member : event ∈ script) := event.followed
  have told := EntryBuilder.acceptAll_withSink followed (.keeping desc visible)
    (fun _entry place => place) borrowed
  rw [EntryBuilder.keeping_feedAll] at told
  cases ended : ends script <;> rw [ended] at told <;> exact told

theorem builders_follow_meaning (script : List AnnotationEvent) :
    (∀ desc visible,
      ((EntryBuilder.keeping desc visible).feedAll script).building =
        some ⟨desc, visible, Parameters.settled (given script)⟩ ∧
      ((EntryBuilder.keeping desc visible).feedAll script).finished = ends script ∧
      ((EntryBuilder.handingOver desc visible).feedAll script).delivered =
        (if ends script then [⟨desc, visible, Parameters.settled (given script)⟩] else []) ∧
      ∀ (Place : Type) (borrowed : Place),
        let keeping := EntryCollector.new desc visible borrowed
        keeping.acceptAll script =
          ⟨some ⟨desc, visible, Parameters.settled (given script)⟩, none, ends script, borrowed⟩ ∧
        (driveAll collecting 0 keeping.nest script).settle = (keeping.acceptAll script).nest ∧
        ∀ sink : AnnotationEntry → Place → Place,
          let handingOver := EntryCollector.withSink desc visible sink borrowed
          (handingOver.acceptAll script).borrowed =
            (if ends script then sink ⟨desc, visible, Parameters.settled (given script)⟩ borrowed
            else borrowed) ∧
          (driveAll collecting 0 handingOver.nest script).settle =
            (handingOver.acceptAll script).nest) ∧
    (ArrayBuilder.new.feedAll script).delivered =
      (if ends script then [(given script).map Prod.snd] else []) ∧
    ∀ (Place : Type) (sink : List ElementValue → Place → Place) (borrowed : Place),
      let collector := ArrayCollector.new sink borrowed
      (collector.acceptAll script).borrowed =
        (if ends script then sink ((given script).map Prod.snd) borrowed else borrowed) ∧
      (driveAll collecting 0 collector.nest script).settle = (collector.acceptAll script).nest := by
  have understood (event : AnnotationEvent) (_member : event ∈ script) := event.understood
  have followed (event : AnnotationEvent) (_member : event ∈ script) := event.followed
  refine ⟨fun desc visible => ?_, ArrayBuilder.delivered_feedAll understood,
    fun Place sink borrowed => ⟨ArrayCollector.borrowed_acceptAll followed sink borrowed,
      ArrayCollector.settle_driveAll _ script⟩⟩
  rw [EntryBuilder.keeping_feedAll, EntryBuilder.delivered_feedAll understood]
  refine ⟨rfl, rfl, rfl, fun Place borrowed => ?_⟩
  exact ⟨EntryCollector.acceptAll_new desc visible borrowed script,
    EntryCollector.settle_driveAll _ script,
    fun sink => ⟨EntryCollector.borrowed_acceptAll followed desc visible sink borrowed,
      EntryCollector.settle_driveAll _ script⟩⟩

/-- The array is never finished, the name `a` keeps its place, and `c` comes too late. -/
example :
    Parameters.settled (given
      [.visit (some "a") (.int 1), .openArray (some "b") [.visit none (.int 2)],
        .openNested none "D" [.finish, .finish], .visit (some "a") (.int 3), .finish,
        .visit (some "c") (.int 4)]) =
      [("a", .scalar (.int 3)), ("", .nested ⟨"D", true, []⟩)] := rfl

end CompilerIR
