import CompilerIR.Proofs.Annotation.Collection

/-!
What collectors hand over. Main statement: a continuation is called once if its collector is
ended, with what came before the first end, and never otherwise.
-/

namespace CompilerIR

open AnnotationEvent (Opening ends given)

/-! ### Whole scripts -/

def AnnotationEvent.beforeEnd (script : List AnnotationEvent) : List AnnotationEvent :=
  script.takeWhile fun event => !event.isFinish

open AnnotationEvent (beforeEnd given_of_isFinish given_of_not_isFinish)

theorem AnnotationEvent.given_beforeEnd (script : List AnnotationEvent) :
    given (beforeEnd script) = given script := by
  induction script with
  | nil => rfl
  | cons event events inductionHypothesis =>
      rw [beforeEnd] at inductionHypothesis ⊢
      by_cases last : event.isFinish = true
      · rw [List.takeWhile_cons_of_neg (by rw [last]; exact Bool.false_ne_true),
          given_of_isFinish last]
        rfl
      · rw [List.takeWhile_cons_of_pos (by rw [Bool.eq_false_iff.mpr last]; rfl),
          given_of_not_isFinish last, given_of_not_isFinish last, inductionHypothesis]

theorem AnnotationEvent.ends_beforeEnd (script : List AnnotationEvent) :
    ends (beforeEnd script) = false := by
  rw [ends, List.any_eq_false]
  intro event member last
  have kept := (List.all_eq_true.mp (List.all_takeWhile)) event member
  rw [last] at kept
  cases kept

theorem EntryBuilder.building_beforeEnd (desc : String) (visible : Bool)
    (script : List AnnotationEvent) :
    ((EntryBuilder.keeping desc visible).feedAll (beforeEnd script)).building =
      some ⟨desc, visible, Parameters.settled (given script)⟩ := by
  rw [keeping_feedAll, AnnotationEvent.given_beforeEnd]

theorem ArrayBuilder.items_beforeEnd (script : List AnnotationEvent) :
    (ArrayBuilder.new.feedAll (beforeEnd script)).items = (given script).map Prod.snd := by
  rw [new, feedAll_eq fun event _member => event.understood, AnnotationEvent.ends_beforeEnd,
    AnnotationEvent.given_beforeEnd, List.nil_append]
  rfl

theorem EntryCollector.collected_beforeEnd {Place : Type} (desc : String) (visible : Bool)
    (borrowed : Place) (script : List AnnotationEvent) :
    ((EntryCollector.new desc visible borrowed).acceptAll (beforeEnd script)).collected =
      some ⟨desc, visible, Parameters.settled (given script)⟩ := by
  rw [acceptAll_new, AnnotationEvent.given_beforeEnd]

theorem ArrayCollector.values_beforeEnd {Place : Type} (sink : List ElementValue → Place → Place)
    (borrowed : Place) (script : List AnnotationEvent) :
    ((ArrayCollector.new sink borrowed).acceptAll (beforeEnd script)).values =
      (given script).map Prod.snd := by
  rw [acceptAll_sink fun event _member => event.followed, ← ArrayBuilder.items_beforeEnd]
  rfl

theorem collectInto_eq (list : List AnnotationEntry) (desc : String) (visible : Bool)
    (script : List AnnotationEvent) :
    collectInto list desc visible script =
      list ++ ((EntryBuilder.handingOver desc visible).feedAll script).delivered := by
  rw [collectInto, EntryCollector.borrowed_acceptAll fun event _member => event.followed,
    EntryBuilder.delivered_feedAll fun event _member => event.understood]
  split
  · rfl
  · exact (List.append_nil list).symm

/-! ### Parents -/

theorem Parameters.length_insert_le (name : String) (value : ElementValue) (params : Parameters) :
    (params.insert name value).length ≤ params.length + 1 := by
  have names := congrArg List.length (names_insert name value params)
  rw [List.length_map] at names
  rw [names]
  split
  · rw [List.length_map]
    exact Nat.le_succ _
  · rw [List.length_append, List.length_map]
    exact Nat.le_refl _

theorem AnnotationEntry.length_params_add_le (entry : AnnotationEntry) (name : String)
    (value : ElementValue) : (entry.add name value).2.params.length ≤ entry.params.length + 1 :=
  Parameters.length_insert_le name value entry.params

def EntryBuilder.entryCount (builder : EntryBuilder) : Nat :=
  (builder.building.map (·.params.length)).getD 0

def EntryCollector.entryCount {Place : Type} (collector : EntryCollector Place) : Nat :=
  (collector.collected.map (·.params.length)).getD 0

theorem EntryBuilder.entryCount_store_le (builder : EntryBuilder) (name : Option String)
    (value : ElementValue) : (builder.store name value).entryCount ≤ builder.entryCount + 1 := by
  obtain ⟨building, handsOver, finished, delivered⟩ := builder
  cases finished with
  | true => exact Nat.le_succ _
  | false =>
      cases building with
      | none => exact Nat.le_succ _
      | some entry => exact entry.length_params_add_le _ value

theorem EntryCollector.entryCount_store_le {Place : Type} (collector : EntryCollector Place)
    (name : Option String) (value : ElementValue) :
    (collector.store name value).entryCount ≤ collector.entryCount + 1 := by
  obtain ⟨collected, sink, finished, borrowed⟩ := collector
  cases finished with
  | true => exact Nat.le_succ _
  | false =>
      cases collected with
      | none => exact Nat.le_succ _
      | some entry => exact entry.length_params_add_le _ value

theorem ArrayBuilder.length_items_store_le (builder : ArrayBuilder) (value : ElementValue) :
    (builder.store value).items.length ≤ builder.items.length + 1 := by
  rw [store]
  split
  · exact Nat.le_succ _
  · rw [List.length_append]
    exact Nat.le_refl _

theorem ArrayCollector.length_values_store_le {Place : Type} (collector : ArrayCollector Place)
    (value : ElementValue) : (collector.store value).values.length ≤ collector.values.length + 1 := by
  rw [store, lend]
  split
  · exact Nat.le_succ _
  · rw [List.length_append]
    exact Nat.le_refl _

/-- Whatever is done when the child has ended, and only then, adds one entry at most. -/
theorem le_succ_of_eq_ite {Parent : Type} (count : Parent → Nat) {ended : Bool}
    {before stored after : Parent} (outcome : after = if ended then stored else before)
    (atMostOne : count stored ≤ count before + 1) : count after ≤ count before + 1 := by
  rw [outcome]
  split
  · exact atMostOne
  · exact Nat.le_succ _

/-! ### One list -/

/-- What one collector adds to a list, by its descriptor, its visibility and its events. -/
def collected? : String × Bool × List AnnotationEvent → Option AnnotationEntry
  | (desc, visible, script) =>
      if ends script then
        ((EntryBuilder.keeping desc visible).feedAll (beforeEnd script)).building
      else none

theorem collectInto_eq_append_collected? (list : List AnnotationEntry)
    (run : String × Bool × List AnnotationEvent) :
    collectInto list run.1 run.2.1 run.2.2 = list ++ (collected? run).toList := by
  obtain ⟨desc, visible, script⟩ := run
  rw [collectInto_eq, collected?, EntryBuilder.building_beforeEnd,
    EntryBuilder.delivered_feedAll fun event _member => event.understood]
  split <;> rfl

theorem foldl_collectInto (runs : List (String × Bool × List AnnotationEvent))
    (list : List AnnotationEntry) :
    runs.foldl (fun list run => collectInto list run.1 run.2.1 run.2.2) list =
      list ++ runs.filterMap collected? := by
  induction runs generalizing list with
  | nil => exact (List.append_nil list).symm
  | cons run rest inductionHypothesis =>
      rw [List.foldl_cons, inductionHypothesis, collectInto_eq_append_collected?,
        List.append_assoc, List.filterMap_cons]
      cases collected? run <;> rfl

theorem sinks_are_called_once_at_end :
    (∀ desc visible script, ∃ built,
      ((EntryBuilder.keeping desc visible).feedAll (beforeEnd script)).building = some built ∧
      built.desc = desc ∧ built.visible = visible ∧
      ((EntryBuilder.handingOver desc visible).feedAll script).delivered =
        (if ends script then [built] else []) ∧
      ∀ (Place : Type) (sink : AnnotationEntry → Place → Place) (borrowed : Place),
        let collector := (EntryCollector.withSink desc visible sink borrowed).acceptAll script
        ((EntryCollector.new desc visible borrowed).acceptAll (beforeEnd script)).collected =
            some built ∧
          collector.sink.isNone = ends script ∧
          collector.borrowed = if ends script then sink built borrowed else borrowed) ∧
    (∀ script, ∃ items, (ArrayBuilder.new.feedAll (beforeEnd script)).items = items ∧
      (ArrayBuilder.new.feedAll script).delivered = (if ends script then [items] else []) ∧
      ∀ (Place : Type) (sink : List ElementValue → Place → Place) (borrowed : Place),
        let collector := (ArrayCollector.new sink borrowed).acceptAll script
        ((ArrayCollector.new sink borrowed).acceptAll (beforeEnd script)).values = items ∧
          collector.sink.isNone = ends script ∧
          collector.borrowed = if ends script then sink items borrowed else borrowed) ∧
    (∀ (runs : List (String × Bool × List AnnotationEvent)) (list : List AnnotationEntry),
      runs.foldl (fun list run => collectInto list run.1 run.2.1 run.2.2) list =
        list ++ runs.filterMap collected?) ∧
    ∀ (opening : Opening) (name : Option String) (child : List AnnotationEvent), ∃ value,
      (∀ parent : EntryBuilder,
        parent.feed (opening.around name child) =
          (if ends child then parent.store name value else parent) ∧
        (parent.feed (opening.around name child)).entryCount ≤ parent.entryCount + 1) ∧
      (∀ parent : ArrayBuilder,
        parent.feed (opening.around name child) =
          (if ends child then parent.store value else parent) ∧
        (parent.feed (opening.around name child)).items.length ≤ parent.items.length + 1) ∧
      (∀ (Place : Type) (parent : EntryCollector Place),
        parent.accept (opening.around name child) =
          (if ends child then parent.store name value else parent) ∧
        (parent.accept (opening.around name child)).entryCount ≤ parent.entryCount + 1) ∧
      ∀ (Place : Type) (parent : ArrayCollector Place),
        parent.accept (opening.around name child) =
          (if ends child then parent.store value else parent) ∧
        (parent.accept (opening.around name child)).values.length ≤ parent.values.length + 1 := by
  have understood (script : List AnnotationEvent) : ∀ event ∈ script, event.Understood :=
    fun event _member => event.understood
  have followed (script : List AnnotationEvent) : ∀ event ∈ script, event.Followed :=
    fun event _member => event.followed
  refine ⟨?_, ?_, foldl_collectInto, ?_⟩
  · intro desc visible script
    exact ⟨_, EntryBuilder.building_beforeEnd desc visible script, rfl, rfl,
      EntryBuilder.delivered_feedAll (understood script) desc visible,
      fun Place sink borrowed =>
        ⟨EntryCollector.collected_beforeEnd desc visible borrowed script,
          EntryCollector.isNone_sink_acceptAll (followed script) desc visible sink borrowed,
          EntryCollector.borrowed_acceptAll (followed script) desc visible sink borrowed⟩⟩
  · intro script
    exact ⟨_, ArrayBuilder.items_beforeEnd script,
      ArrayBuilder.delivered_feedAll (understood script),
      fun Place sink borrowed =>
        ⟨ArrayCollector.values_beforeEnd sink borrowed script,
          ArrayCollector.isNone_sink_acceptAll (followed script) sink borrowed,
          ArrayCollector.borrowed_acceptAll (followed script) sink borrowed⟩⟩
  · intro opening name child
    refine ⟨opening.value child, fun parent => ?_, fun parent => ?_, fun Place parent => ?_,
      fun Place parent => ?_⟩
    · have outcome := parent.feed_around opening name child
      exact ⟨outcome, le_succ_of_eq_ite _ outcome (parent.entryCount_store_le name _)⟩
    · have outcome := parent.feed_around opening name child
      exact ⟨outcome, le_succ_of_eq_ite (·.items.length) outcome (parent.length_items_store_le _)⟩
    · have outcome := parent.accept_around (followed child) opening name
      exact ⟨outcome, le_succ_of_eq_ite _ outcome (parent.entryCount_store_le name _)⟩
    · have outcome := parent.accept_around (followed child) opening name
      exact ⟨outcome, le_succ_of_eq_ite (·.values.length) outcome (parent.length_values_store_le _)⟩

/-- The first one is ended twice, the second one never. -/
example :
    [("A", true, [.finish, .visit none (.int 1), .finish]), ("B", true, [.visit none (.int 2)]),
        ("C", false, [.visit (some "c") (.int 3), .finish])].foldl
      (fun list run => collectInto list run.1 run.2.1 run.2.2) [] =
      [⟨"A", true, []⟩, ⟨"C", false, [("c", .scalar (.int 3))]⟩] := rfl

end CompilerIR
