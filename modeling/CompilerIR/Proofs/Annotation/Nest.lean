import CompilerIR.Annotation.Nest

/-!
Visitors that are driven by scripts. Main statements: to tell an annotation to a visitor is to drive
it by the script of the annotation, and a collector that is driven, call by call, by any script
becomes what it makes of that script.
-/

namespace CompilerIR

open AnnotationEvent (drive driveAll)

/-! ### Walks -/

section Visitors

variable {State Visitor : Type} (visitors : AnnotationVisitor State Visitor)

mutual

/-- To tell a value is to call a visitor with its event. -/
theorem ElementValue.walk_eq_drive (visitor : Visitor) (name : Option String) (state : State) :
    (value : ElementValue) →
    value.walk visitors visitor name state = (value.event name).drive visitors visitor state
  | .scalar _ | .enum _ => rfl
  | .nested entry => entry.walk_eq_driveAll _ _
  | .array items => ElementValue.walkItems_eq_driveAll _ _ items

/-- To tell an annotation is to call a visitor as its script has it. -/
theorem AnnotationEntry.walk_eq_driveAll (visitor : Visitor) (state : State) :
    (entry : AnnotationEntry) →
    entry.walk visitors visitor state = driveAll visitors visitor state entry.script
  | ⟨_, _, params⟩ => ElementValue.walkParams_eq_driveAll visitor state params

theorem ElementValue.walkItems_eq_driveAll (visitor : Visitor) (state : State) :
    (items : List ElementValue) →
    visitors.finish visitor (ElementValue.walkItems visitors visitor state items) =
      driveAll visitors visitor state (ElementValue.itemEvents items)
  | [] => rfl
  | item :: items => by
      rw [ElementValue.walkItems, ElementValue.itemEvents, driveAll,
        ElementValue.walkItems_eq_driveAll, item.walk_eq_drive]

theorem ElementValue.walkParams_eq_driveAll (visitor : Visitor) (state : State) :
    (params : List (String × ElementValue)) →
    visitors.finish visitor (ElementValue.walkParams visitors visitor state params) =
      driveAll visitors visitor state (ElementValue.paramEvents params)
  | [] => rfl
  | (name, value) :: rest => by
      rw [ElementValue.walkParams, ElementValue.paramEvents, driveAll,
        ElementValue.walkParams_eq_driveAll, value.walk_eq_drive]

end

end Visitors

/-! ### What a collector lends -/

namespace EntryCollector

variable {Place : Type} (collector : EntryCollector Place)

theorem borrowed_takeBack (returned : Option Parameters) :
    (collector.takeBack returned).borrowed = collector.borrowed := by
  cases returned with
  | none => rfl
  | some params =>
      rw [takeBack, lend]
      split <;> rfl

/-- What is lent is taken back as `use` has changed it. -/
theorem lend_eq_takeBack (use : Parameters → Parameters) :
    collector.lend use = collector.takeBack (collector.lent?.map use) := by
  obtain ⟨collected, sink, finished, borrowed⟩ := collector
  cases finished with
  | true => rfl
  | false => cases collected <;> rfl

end EntryCollector

namespace ArrayCollector

variable {Place : Type} (collector : ArrayCollector Place)

theorem borrowed_takeBack (returned : Option (List ElementValue)) :
    (collector.takeBack returned).borrowed = collector.borrowed := by
  cases returned with
  | none => rfl
  | some values =>
      rw [takeBack, lend]
      split <;> rfl

theorem lend_eq_takeBack (use : List ElementValue → List ElementValue) :
    collector.lend use = collector.takeBack (collector.lent?.map use) := by
  obtain ⟨values, sink, borrowed⟩ := collector
  cases sink <;> rfl

end ArrayCollector

/-! ### Nests -/

namespace CollectorNest

variable {Outside : Type} {lender : Lender}

section Focus

variable (first second : ∀ lender, CollectorNest Outside lender → CollectorNest Outside lender)

theorem focus_focus (depth : Nat) (nest : CollectorNest Outside lender) :
    (nest.focus first depth).focus second depth =
      nest.focus (fun lender inner => second lender (first lender inner)) depth := by
  induction depth generalizing lender with
  | zero => rfl
  | succ depth inductionHypothesis =>
      cases nest with
      | nobody => rfl
      | entry collector inner => exact congrArg (entry collector) (inductionHypothesis inner)
      | array collector inner => exact congrArg (array collector) (inductionHypothesis inner)

/-- One level further in, seen from the collector at `depth`. -/
theorem focus_succ (depth : Nat) (nest : CollectorNest Outside lender) :
    nest.focus first (depth + 1) = nest.focus (fun _ inner => inner.focus first 1) depth := by
  induction depth generalizing lender with
  | zero => rfl
  | succ depth inductionHypothesis =>
      cases nest with
      | nobody => rfl
      | entry collector inner => exact congrArg (entry collector) (inductionHypothesis inner)
      | array collector inner => exact congrArg (array collector) (inductionHypothesis inner)

end Focus

theorem returned?_settle (nest : CollectorNest Outside lender) :
    nest.settle.returned? = nest.returned? := by
  cases nest with
  | nobody => rfl
  | entry collector inner => exact congrArg some (collector.borrowed_takeBack inner.returned?)
  | array collector inner => exact congrArg some (collector.borrowed_takeBack inner.returned?)

/-- What is inside may be settled before. -/
theorem settle_focus_settle (nest : CollectorNest Outside lender) :
    (nest.focus (fun _ => settle) 1).settle = nest.settle := by
  cases nest with
  | nobody => rfl
  | entry collector inner =>
      change (entry collector inner.settle).settle = _
      rw [settle, returned?_settle]
      rfl
  | array collector inner =>
      change (array collector inner.settle).settle = _
      rw [settle, returned?_settle]
      rfl

theorem focus_settle_succ (depth : Nat) (nest : CollectorNest Outside lender) :
    (nest.focus (fun _ => settle) (depth + 1)).focus (fun _ => settle) depth =
      nest.focus (fun _ => settle) depth := by
  rw [focus_succ, focus_focus]
  exact congrArg (nest.focus · depth) (funext fun _lender => funext settle_focus_settle)

/-- Of a call it matters only what is left when everything lent has been taken back. -/
theorem focus_settle_call {change other : ∀ lender, CollectorNest Outside lender →
      CollectorNest Outside lender}
    (same : ∀ lender (nest : CollectorNest Outside lender),
      (change lender nest.settle).settle = other lender nest.settle)
    (depth : Nat) (nest : CollectorNest Outside lender) :
    (nest.call change depth).focus (fun _ => settle) depth = nest.call other depth := by
  rw [call, focus_focus]
  exact congrArg (nest.focus · depth) (funext fun lender => funext (same lender))

def accept (event : AnnotationEvent) : CollectorNest Outside lender → CollectorNest Outside lender
  | .nobody => .nobody
  | .entry collector inner => .entry (collector.accept event) inner
  | .array collector inner => .array (collector.accept event) inner

def acceptAll (script : List AnnotationEvent) :
    CollectorNest Outside lender → CollectorNest Outside lender
  | .nobody => .nobody
  | .entry collector inner => .entry (collector.acceptAll script) inner
  | .array collector inner => .array (collector.acceptAll script) inner

section Opened

variable (name : Option String) (script : List AnnotationEvent)
  (nest : CollectorNest Outside lender)

/-- What is opened, told its script and settled is what was to be made of it at once. -/
theorem settle_openNested (desc : String) :
    ((nest.settle.openNested name desc lender).focus (fun _ inner => inner.settle.acceptAll script)
      1).settle = nest.settle.accept (.openNested name desc script) := by
  cases nest with
  | nobody => rfl
  | entry collector inner =>
      rw [settle]
      generalize collector.takeBack inner.returned? = alone
      rw [accept, EntryCollector.accept, alone.lend_eq_takeBack, openNested]
      cases alone.lent? <;> rfl
  | array collector inner =>
      rw [settle]
      generalize collector.takeBack inner.returned? = alone
      rw [accept, ArrayCollector.accept, alone.lend_eq_takeBack, openNested]
      cases alone.lent? <;> rfl

theorem settle_openArray :
    ((nest.settle.openArray name lender).focus (fun _ inner => inner.settle.acceptAll script)
      1).settle = nest.settle.accept (.openArray name script) := by
  cases nest with
  | nobody => rfl
  | entry collector inner =>
      rw [settle]
      generalize collector.takeBack inner.returned? = alone
      rw [accept, EntryCollector.accept, alone.lend_eq_takeBack, openArray]
      cases alone.lent? <;> rfl
  | array collector inner =>
      rw [settle]
      generalize collector.takeBack inner.returned? = alone
      rw [accept, ArrayCollector.accept, alone.lend_eq_takeBack, openArray]
      cases alone.lent? <;> rfl

end Opened

end CollectorNest

/-! ### Scripts -/

section Drive

variable {Outside : Type}

open CollectorNest (call focus_focus focus_succ focus_settle_call focus_settle_succ settle_openNested
  settle_openArray)

-- Structural recursion over events and scripts. What is opened is driven one level further in, and
-- only what it gives back is seen once the collector around it is settled.
mutual

theorem AnnotationEvent.drive_collecting (depth : Nat) (nest : CollectorNest Outside .outside) :
    (event : AnnotationEvent) →
    (event.drive collecting depth nest).focus (fun _ => .settle) depth =
      nest.call (fun _ => .accept event) depth
  | .visit name value => focus_settle_call (fun lender nest => by cases nest <;> rfl) depth nest
  | .visitEnum name member => focus_settle_call (fun lender nest => by cases nest <;> rfl) depth nest
  | .openNested name desc script => by
      have told := AnnotationEvent.driveAll_collecting (depth + 1)
        (nest.call (CollectorNest.openNested name desc) depth) script
      rw [drive, ← focus_settle_succ]
      dsimp only [collecting] at told ⊢
      rw [told, call, focus_succ, call, focus_focus, focus_focus]
      exact congrArg (nest.focus · depth) (funext fun lender => funext fun inner =>
        settle_openNested name script inner desc)
  | .openArray name script => by
      have told := AnnotationEvent.driveAll_collecting (depth + 1)
        (nest.call (CollectorNest.openArray name) depth) script
      rw [drive, ← focus_settle_succ]
      dsimp only [collecting] at told ⊢
      rw [told, call, focus_succ, call, focus_focus, focus_focus]
      exact congrArg (nest.focus · depth) (funext fun lender => funext fun inner =>
        settle_openArray name script inner)
  | .finish => focus_settle_call (fun lender nest => by cases nest <;> rfl) depth nest

theorem AnnotationEvent.driveAll_collecting (depth : Nat)
    (nest : CollectorNest Outside .outside) : (script : List AnnotationEvent) →
    (driveAll collecting depth nest script).focus (fun _ => .settle) depth =
      nest.call (fun _ => .acceptAll script) depth
  | [] => congrArg (nest.focus · depth) (funext fun lender => funext fun inner => by
      cases inner <;> rfl)
  | event :: events => by
      have first := AnnotationEvent.drive_collecting depth nest event
      have rest := AnnotationEvent.driveAll_collecting depth (event.drive collecting depth nest) events
      rw [driveAll, rest, call, ← focus_focus (fun _ => .settle), first, call, focus_focus]
      exact congrArg (nest.focus · depth) (funext fun lender => funext fun inner => by
        cases inner <;> rfl)

end

end Drive

/-! ### Collectors by themselves -/

namespace EntryCollector

variable {Place : Type} (collector : EntryCollector Place)

theorem settle_driveAll (script : List AnnotationEvent) :
    (driveAll collecting 0 collector.nest script).settle = (collector.acceptAll script).nest :=
  AnnotationEvent.driveAll_collecting 0 collector.nest script

theorem settle_walk (entry : AnnotationEntry) :
    (entry.walk collecting 0 collector.nest).settle = (collector.acceptAll entry.script).nest := by
  rw [entry.walk_eq_driveAll, settle_driveAll]

theorem settle_walk_value (value : ElementValue) (name : Option String) :
    (value.walk collecting 0 name collector.nest).settle =
      (collector.accept (value.event name)).nest := by
  rw [value.walk_eq_drive]
  exact AnnotationEvent.drive_collecting 0 collector.nest (value.event name)

end EntryCollector

namespace ArrayCollector

variable {Place : Type} (collector : ArrayCollector Place)

theorem settle_driveAll (script : List AnnotationEvent) :
    (driveAll collecting 0 collector.nest script).settle = (collector.acceptAll script).nest :=
  AnnotationEvent.driveAll_collecting 0 collector.nest script

theorem settle_walk_value (value : ElementValue) (name : Option String) :
    (value.walk collecting 0 name collector.nest).settle =
      (collector.accept (value.event name)).nest := by
  rw [value.walk_eq_drive]
  exact AnnotationEvent.drive_collecting 0 collector.nest (value.event name)

end ArrayCollector

end CompilerIR
