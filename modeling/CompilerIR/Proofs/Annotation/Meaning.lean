import CompilerIR.Annotation.Builder
import CompilerIR.Proofs.Annotation.Parameters

/-!
What a script of events means. Main statements: builders make of an event, and of a script however
its events are strung together, what it means.
-/

namespace CompilerIR

namespace AnnotationEvent

/-- Induction over an event and all events inside it. -/
@[elab_as_elim]
theorem inductionOn {motive : AnnotationEvent → Prop}
    (visit : ∀ name value, motive (.visit name value))
    (visitEnum : ∀ name member, motive (.visitEnum name member))
    (openNested : ∀ name desc script, (∀ event ∈ script, motive event) →
      motive (.openNested name desc script))
    (openArray : ∀ name script, (∀ event ∈ script, motive event) →
      motive (.openArray name script))
    (finish : motive .finish) (event : AnnotationEvent) : motive event := by
  cases event with
  | visit name value => exact visit name value
  | visitEnum name member => exact visitEnum name member
  | openNested name desc script =>
      exact openNested name desc script fun event member =>
        inductionOn visit visitEnum openNested openArray finish event
  | openArray name script =>
      exact openArray name script fun event member =>
        inductionOn visit visitEnum openNested openArray finish event
  | finish => exact finish
termination_by sizeOf event
decreasing_by
  · have smaller := List.sizeOf_lt_of_mem member
    simp only [AnnotationEvent.openNested.sizeOf_spec]
    omega
  · have smaller := List.sizeOf_lt_of_mem member
    simp only [AnnotationEvent.openArray.sizeOf_spec]
    omega

def name : AnnotationEvent → String
  | .visit name _ | .visitEnum name _ | .openNested name _ _ | .openArray name _ => name.getD ""
  | .finish => ""

def isFinish : AnnotationEvent → Bool
  | .finish => true
  | _ => false

def ends (script : List AnnotationEvent) : Bool := script.any isFinish

mutual

/-- The value of an event. What is opened has one only if it is also finished; annotations
inside others are visible. -/
def value? : AnnotationEvent → Option ElementValue
  | .visit _ value => some (.scalar value)
  | .visitEnum _ member => some (.enum member)
  | .openNested _ desc script =>
      if ends script then some (.nested ⟨desc, true, Parameters.settled (given script)⟩) else none
  | .openArray _ script => if ends script then some (.array ((given script).map Prod.snd)) else none
  | .finish => none

/-- The values in the order of their events, with their names. Only events before the first
end count. -/
def given : List AnnotationEvent → List (String × ElementValue)
  | [] => []
  | event :: events =>
      if event.isFinish then []
      else (event.value?.map fun value => (event.name, value)).toList ++ given events

end

section Cons

variable {event : AnnotationEvent} {events : List AnnotationEvent}

theorem given_of_isFinish (last : event.isFinish = true) : given (event :: events) = [] := by
  rw [given, if_pos last]

theorem given_of_not_isFinish (notYet : ¬event.isFinish = true) :
    given (event :: events) =
      (event.value?.map fun value => (event.name, value)).toList ++ given events := by
  rw [given, if_neg notYet]

theorem ends_of_isFinish (last : event.isFinish = true) : ends (event :: events) = true := by
  rw [ends, List.any_cons, last, Bool.true_or]

theorem ends_of_not_isFinish (notYet : ¬event.isFinish = true) :
    ends (event :: events) = ends events := by
  rw [ends, List.any_cons, Bool.eq_false_iff.mpr notYet, Bool.false_or]
  rfl

end Cons

end AnnotationEvent

open AnnotationEvent (ends given given_of_isFinish given_of_not_isFinish ends_of_isFinish
  ends_of_not_isFinish)

/-! ### One event -/

def EntryBuilder.receive (builder : EntryBuilder) (event : AnnotationEvent) : EntryBuilder :=
  if event.isFinish then builder.finish
  else event.value?.elim builder (builder.store (some event.name))

def ArrayBuilder.receive (builder : ArrayBuilder) (event : AnnotationEvent) : ArrayBuilder :=
  if event.isFinish then builder.finish else event.value?.elim builder builder.store

structure AnnotationEvent.Understood (event : AnnotationEvent) : Prop where
  byEntry : ∀ builder : EntryBuilder, builder.feed event = builder.receive event
  byArray : ∀ builder : ArrayBuilder, builder.feed event = builder.receive event

namespace EntryBuilder

theorem finished_finish (builder : EntryBuilder) : builder.finish.finished = true := by
  unfold finish
  split
  · assumption
  · split <;> rfl

theorem feed_of_finished {builder : EntryBuilder} (finished : builder.finished = true)
    (event : AnnotationEvent) : builder.feed event = builder := by
  cases event <;> simp [feed, store, finish, finished]

theorem receive_of_finished {builder : EntryBuilder} (finished : builder.finished = true)
    (event : AnnotationEvent) : builder.receive event = builder := by
  unfold receive
  cases event.value? <;> simp [store, finish, finished]

theorem feedAll_of_finished {builder : EntryBuilder} (finished : builder.finished = true)
    (script : List AnnotationEvent) : builder.feedAll script = builder := by
  induction script with
  | nil => rfl
  | cons event events inductionHypothesis =>
      rw [feedAll, feed_of_finished finished, inductionHypothesis]

end EntryBuilder

namespace ArrayBuilder

theorem finished_finish (builder : ArrayBuilder) : builder.finish.finished = true := by
  unfold finish
  split
  · assumption
  · rfl

theorem feed_of_finished {builder : ArrayBuilder} (finished : builder.finished = true)
    (event : AnnotationEvent) : builder.feed event = builder := by
  cases event <;> simp [feed, store, finish, finished]

theorem receive_of_finished {builder : ArrayBuilder} (finished : builder.finished = true)
    (event : AnnotationEvent) : builder.receive event = builder := by
  unfold receive
  cases event.value? <;> simp [store, finish, finished]

theorem feedAll_of_finished {builder : ArrayBuilder} (finished : builder.finished = true)
    (script : List AnnotationEvent) : builder.feedAll script = builder := by
  induction script with
  | nil => rfl
  | cons event events inductionHypothesis =>
      rw [feedAll, feed_of_finished finished, inductionHypothesis]

end ArrayBuilder

theorem AnnotationEvent.understood_of_open {event : AnnotationEvent}
    (byEntry : ∀ builder : EntryBuilder, ¬builder.finished = true →
      builder.feed event = builder.receive event)
    (byArray : ∀ builder : ArrayBuilder, ¬builder.finished = true →
      builder.feed event = builder.receive event) : event.Understood := by
  constructor
  · intro builder
    by_cases finished : builder.finished = true
    · rw [builder.feed_of_finished finished, builder.receive_of_finished finished]
    · exact byEntry builder finished
  · intro builder
    by_cases finished : builder.finished = true
    · rw [builder.feed_of_finished finished, builder.receive_of_finished finished]
    · exact byArray builder finished

/-! ### Scripts of understood events -/

section Scripts

variable {script : List AnnotationEvent} (understood : ∀ event ∈ script, event.Understood)

include understood

theorem EntryBuilder.feedAll_eq (desc : String) (visible handsOver : Bool) (params : Parameters) :
    (EntryBuilder.mk (some ⟨desc, visible, params⟩) handsOver false []).feedAll script =
      let collected := (given script).foldl
        (fun params (name, value) => Parameters.insert name value params) params
      let built := EntryBuilder.mk (some ⟨desc, visible, collected⟩) handsOver false []
      if ends script then built.finish else built := by
  induction script generalizing params with
  | nil => rfl
  | cons event events inductionHypothesis =>
      have later := inductionHypothesis fun other member =>
        understood other (List.mem_cons_of_mem event member)
      rw [feedAll, (understood event List.mem_cons_self).byEntry, receive]
      by_cases last : event.isFinish = true
      · rw [if_pos last, feedAll_of_finished (finished_finish _), given_of_isFinish last,
          ends_of_isFinish last]
        rfl
      · rw [if_neg last, given_of_not_isFinish last, ends_of_not_isFinish last]
        cases event.value? with
        | none => exact later params
        | some value => exact later (params.insert event.name value)

theorem ArrayBuilder.feedAll_eq (items : List ElementValue) :
    (ArrayBuilder.mk items false []).feedAll script =
      let built := ArrayBuilder.mk (items ++ (given script).map Prod.snd) false []
      if ends script then built.finish else built := by
  induction script generalizing items with
  | nil =>
      rw [given, List.map_nil, List.append_nil]
      rfl
  | cons event events inductionHypothesis =>
      have later := inductionHypothesis fun other member =>
        understood other (List.mem_cons_of_mem event member)
      rw [feedAll, (understood event List.mem_cons_self).byArray, receive]
      by_cases last : event.isFinish = true
      · rw [if_pos last, feedAll_of_finished (finished_finish _), given_of_isFinish last,
          ends_of_isFinish last, List.map_nil, List.append_nil]
        rfl
      · rw [if_neg last, given_of_not_isFinish last, ends_of_not_isFinish last]
        cases event.value? with
        | none => exact later items
        | some value =>
            have stored := later (items ++ [value])
            rw [List.append_assoc] at stored
            exact stored

theorem EntryBuilder.delivered_feedAll (desc : String) (visible : Bool) :
    ((EntryBuilder.handingOver desc visible).feedAll script).delivered =
      if ends script then [⟨desc, visible, Parameters.settled (given script)⟩] else [] := by
  rw [handingOver, AnnotationEntry.new, feedAll_eq understood, ← Parameters.ofList_eq_settled]
  split <;> rfl

theorem ArrayBuilder.delivered_feedAll :
    (ArrayBuilder.new.feedAll script).delivered =
      if ends script then [(given script).map Prod.snd] else [] := by
  rw [new, feedAll_eq understood, List.nil_append]
  split <;> rfl

theorem AnnotationEvent.understood_openNested (name : Option String) (desc : String) :
    (AnnotationEvent.openNested name desc script).Understood := by
  apply understood_of_open
  · intro builder unfinished
    rw [EntryBuilder.feed, if_neg unfinished, EntryBuilder.receive, value?]
    dsimp only
    rw [EntryBuilder.delivered_feedAll understood]
    split <;> rfl
  · intro builder unfinished
    rw [ArrayBuilder.feed, if_neg unfinished, ArrayBuilder.receive, value?]
    dsimp only
    rw [EntryBuilder.delivered_feedAll understood]
    split <;> rfl

theorem AnnotationEvent.understood_openArray (name : Option String) :
    (AnnotationEvent.openArray name script).Understood := by
  apply understood_of_open
  · intro builder unfinished
    rw [EntryBuilder.feed, if_neg unfinished, EntryBuilder.receive, value?]
    dsimp only
    rw [ArrayBuilder.delivered_feedAll understood]
    split <;> rfl
  · intro builder unfinished
    rw [ArrayBuilder.feed, if_neg unfinished, ArrayBuilder.receive, value?]
    dsimp only
    rw [ArrayBuilder.delivered_feedAll understood]
    split <;> rfl

end Scripts

theorem AnnotationEvent.understood (event : AnnotationEvent) : event.Understood := by
  induction event using inductionOn with
  | visit name value => exact ⟨fun builder => rfl, fun builder => rfl⟩
  | visitEnum name member => exact ⟨fun builder => rfl, fun builder => rfl⟩
  | openNested name desc script inside => exact understood_openNested inside name desc
  | openArray name script inside => exact understood_openArray inside name
  | finish => exact ⟨fun builder => rfl, fun builder => rfl⟩

/-! ### Whole scripts -/

theorem EntryBuilder.keeping_feedAll (desc : String) (visible : Bool)
    (script : List AnnotationEvent) :
    (EntryBuilder.keeping desc visible).feedAll script =
      ⟨some ⟨desc, visible, Parameters.settled (given script)⟩, false, ends script, []⟩ := by
  rw [keeping, AnnotationEntry.new, feedAll_eq fun event _member => event.understood,
    ← Parameters.ofList_eq_settled]
  cases ends script <;> rfl

end CompilerIR
