import CompilerIR.Proofs.Annotation.Addition
import CompilerIR.Proofs.Annotation.Delivery
import CompilerIR.Proofs.Annotation.Replay

/-!
Values told to a collector that holds others already. Main statement: whatever a collector has
been told before, a value told to it is stored as if it were added directly, with all inside it
visible; so of two annotations told one after the other, the second one has precedence and the
first one gives the order.
-/

namespace CompilerIR

open AnnotationEvent (Opening value?_around followed)

/-! ### Two lists of parameters -/

namespace Parameters

/-- What is left when a value has been stored under a name: one entry changed, or one more at the
end. -/
inductive Stores (name : String) (value : ElementValue) : Parameters → Parameters → Prop
  | replaced (before : Parameters) (old : ElementValue) (after : Parameters) :
      name ∉ before.map Prod.fst →
        Stores name value (before ++ (name, old) :: after) (before ++ (name, value) :: after)
  | appended (params : Parameters) :
      name ∉ params.map Prod.fst → Stores name value params (params ++ [(name, value)])

theorem stores_insert (name : String) (value : ElementValue) (params : Parameters) :
    Stores name value params (params.insert name value) := by
  cases found : params.lookup name with
  | none =>
      have fresh := lookup_eq_none_iff.mp found
      rw [insert_of_not_mem fresh]
      exact .appended params fresh
  | some old =>
      obtain ⟨before, after, rfl, fresh⟩ := lookup_eq_some_iff.mp found
      rw [insert_of_split fresh]
      exact .replaced before old after fresh

/-- The names of `lower` in their order, with the values of `upper` where it has any, and then the
new names of `upper` in theirs. -/
def overlaid (lower upper : Parameters) : Parameters :=
  (lower.map fun (name, value) => (name, (get? name upper).getD value)) ++
    upper.filter fun (name, _) => name ∉ lower.map Prod.fst

theorem overlaid_nil (lower : Parameters) : lower.overlaid [] = lower := by
  rw [overlaid, List.filter_nil, List.append_nil]
  exact List.map_id lower

theorem nil_overlaid (upper : Parameters) : overlaid [] upper = upper :=
  List.filter_eq_self.mpr fun _entry _member => decide_eq_true List.not_mem_nil

theorem get?_eq_none {name : String} {params : Parameters} (fresh : name ∉ params.map Prod.fst) :
    get? name params = none := by
  rw [get?_eq_lookup, lookup_eq_none_iff]
  exact fresh

/-- Entries under other names are found as before. -/
theorem map_getD_cons {name : String} {params : Parameters} (fresh : name ∉ params.map Prod.fst)
    (value : ElementValue) (upper : Parameters) :
    (params.map fun (key, old) => (key, (get? key ((name, value) :: upper)).getD old)) =
      params.map fun (key, old) => (key, (get? key upper).getD old) := by
  refine List.map_congr_left ?_
  rintro ⟨key, old⟩ member
  have other : name ≠ key := by
    rintro rfl
    exact fresh (List.mem_map_of_mem member)
  simp only [get?, if_neg other]

/-- A value may as well be stored before the others are laid over it. -/
theorem insert_overlaid {lower upper : Parameters} {name : String}
    (distinct : (lower.map Prod.fst).Nodup) (fresh : name ∉ upper.map Prod.fst)
    (value : ElementValue) :
    (lower.insert name value).overlaid upper = lower.overlaid ((name, value) :: upper) := by
  have unseen := get?_eq_none fresh
  generalize held : lower.insert name value = stored
  cases held ▸ stores_insert name value lower with
  | replaced before old after absent =>
      rw [List.map_append, List.map_cons, List.nodup_middle, List.nodup_cons, List.mem_append,
        not_or] at distinct
      simp only [overlaid, List.map_append, List.map_cons, List.filter_cons]
      rw [map_getD_cons absent, map_getD_cons distinct.1.2]
      simp [get?, unseen]
  | appended _ absent =>
      have others : (upper.filter fun (key, _) => key ∉ (lower ++ [(name, value)]).map Prod.fst) =
          upper.filter fun (key, _) => key ∉ lower.map Prod.fst := by
        refine List.filter_congr ?_
        rintro ⟨key, last⟩ member
        have other : key ≠ name := by
          rintro rfl
          exact fresh (List.mem_map_of_mem member)
        simp [other]
      rw [overlaid, others, overlaid, map_getD_cons absent]
      simp [unseen, absent]

/-- To store values one after the other is to lay them over what is there. -/
theorem foldl_insert {lower upper : Parameters} (distinct : (lower.map Prod.fst).Nodup)
    (apart : (upper.map Prod.fst).Nodup) :
    upper.foldl (fun params (name, value) => params.insert name value) lower =
      lower.overlaid upper := by
  induction upper generalizing lower with
  | nil => exact lower.overlaid_nil.symm
  | cons first rest inductionHypothesis =>
      obtain ⟨name, value⟩ := first
      rw [List.map_cons, List.nodup_cons] at apart
      rw [List.foldl_cons, inductionHypothesis (nodup_names_insert distinct name value) apart.2,
        insert_overlaid distinct apart.1]

end Parameters

/-! ### One value -/

section Opened

variable {Place : Type} (opening : Opening) {name : Option String} {script : List AnnotationEvent}
  {value : ElementValue} (means : (opening.around name script).value? = some value)

include means

theorem EntryCollector.accept_opened (collector : EntryCollector Place) :
    collector.accept (opening.around name script) = collector.store name value := by
  rw [value?_around, Option.ite_none_right_eq_some] at means
  obtain ⟨ended, ⟨⟩⟩ := means
  rw [accept_around (fun event _member => event.followed), if_pos ended]

theorem ArrayCollector.accept_opened (collector : ArrayCollector Place) :
    collector.accept (opening.around name script) = collector.store value := by
  rw [value?_around, Option.ite_none_right_eq_some] at means
  obtain ⟨ended, ⟨⟩⟩ := means
  rw [accept_around (fun event _member => event.followed), if_pos ended]

end Opened

section Value

variable {Place : Type} {value : ElementValue} (distinct : value.NamesDistinct)
  (name : Option String)

include distinct

theorem EntryBuilder.feed_event (builder : EntryBuilder) :
    builder.feed (value.event name) = builder.store name value.normalize := by
  rw [(AnnotationEvent.understood _).byEntry, receive, if_neg (value.isFinish_event name),
    value.value?_event distinct, value.name_event]
  rfl

theorem ArrayBuilder.feed_event (builder : ArrayBuilder) :
    builder.feed (value.event name) = builder.store value.normalize := by
  rw [(AnnotationEvent.understood _).byArray, receive, if_neg (value.isFinish_event name),
    value.value?_event distinct]
  rfl

theorem EntryCollector.accept_event (collector : EntryCollector Place) :
    collector.accept (value.event name) = collector.store name value.normalize := by
  have means := value.value?_event distinct name
  cases value with
  | scalar _ | enum _ => rfl
  | nested entry => exact collector.accept_opened (.nested entry.desc) means
  | array items => exact collector.accept_opened .array means

theorem ArrayCollector.accept_event (collector : ArrayCollector Place) :
    collector.accept (value.event name) = collector.store value.normalize := by
  have means := value.value?_event distinct name
  cases value with
  | scalar _ | enum _ => rfl
  | nested entry => exact collector.accept_opened (.nested entry.desc) means
  | array items => exact collector.accept_opened .array means

end Value

/-! ### Builders and collectors that are under way -/

inductive EntryBuilder.Reached : EntryBuilder → Prop
  | keeping (desc : String) (visible : Bool) (script : List AnnotationEvent) :
      Reached ((EntryBuilder.keeping desc visible).feedAll script)
  | handingOver (desc : String) (visible : Bool) (script : List AnnotationEvent) :
      Reached ((EntryBuilder.handingOver desc visible).feedAll script)

/-- A collector, with or without a continuation, that has been told any events since it was
made. -/
inductive EntryCollector.Reached {Place : Type} : EntryCollector Place → Prop
  | new (desc : String) (visible : Bool) (borrowed : Place) (script : List AnnotationEvent) :
      Reached ((EntryCollector.new desc visible borrowed).acceptAll script)
  | withSink (desc : String) (visible : Bool) (sink : AnnotationEntry → Place → Place)
      (borrowed : Place) (script : List AnnotationEvent) :
      Reached ((EntryCollector.withSink desc visible sink borrowed).acceptAll script)

/-- An open builder has its annotation, and each name at most once in it. -/
theorem EntryBuilder.Reached.exists_building {builder : EntryBuilder} (reached : builder.Reached)
    (unfinished : builder.finished = false) :
    ∃ entry, builder.building = some entry ∧ (entry.params.map Prod.fst).Nodup := by
  have told (desc : String) (visible handsOver : Bool) (script : List AnnotationEvent)
      (goesOn : ((EntryBuilder.mk (some (.new desc visible)) handsOver false []).feedAll
        script).finished = false) :
      ((EntryBuilder.mk (some (.new desc visible)) handsOver false []).feedAll script).building =
        some ⟨desc, visible, Parameters.ofList (AnnotationEvent.given script)⟩ := by
    rw [AnnotationEntry.new, feedAll_eq fun event _member => event.understood] at goesOn ⊢
    dsimp only at goesOn ⊢
    split at goesOn
    · rw [finished_finish] at goesOn
      cases goesOn
    · rw [if_neg (by assumption)]
      rfl
  cases reached with
  | keeping desc visible script =>
      exact ⟨_, told desc visible false script unfinished, Parameters.nodup_names_ofList _⟩
  | handingOver desc visible script =>
      exact ⟨_, told desc visible true script unfinished, Parameters.nodup_names_ofList _⟩

/-- A collector is under way as a builder is. -/
theorem EntryCollector.Reached.exists_builder {Place : Type} {collector : EntryCollector Place}
    (reached : collector.Reached) :
    ∃ (builder : EntryBuilder) (sink : AnnotationEntry → Place → Place) (borrowed : Place),
      builder.Reached ∧ collector = builder.withSink sink borrowed := by
  have followed (script : List AnnotationEvent) : ∀ event ∈ script, event.Followed :=
    fun event _member => event.followed
  cases reached with
  | new desc visible borrowed script =>
      exact ⟨_, fun _entry place => place, borrowed, .keeping desc visible script,
        EntryBuilder.acceptAll_withSink (followed script) (.keeping desc visible) _ borrowed⟩
  | withSink desc visible sink borrowed script =>
      exact ⟨_, sink, borrowed, .handingOver desc visible script,
        acceptAll_sink (followed script) desc visible sink borrowed⟩

theorem EntryCollector.Reached.exists_collected {Place : Type} {collector : EntryCollector Place}
    (reached : collector.Reached) (unfinished : collector.finished = false) :
    ∃ entry, collector.collected = some entry ∧ (entry.params.map Prod.fst).Nodup := by
  obtain ⟨builder, sink, borrowed, built, rfl⟩ := reached.exists_builder
  exact built.exists_building unfinished

/-! ### One annotation after the other -/

/-- To tell the parameters to a visitor, without the end, is to call it with their events. -/
theorem ElementValue.walkParams_eq_driveAll_map {State Visitor : Type}
    (visitors : AnnotationVisitor State Visitor) (visitor : Visitor) (state : State)
    (params : List (String × ElementValue)) :
    ElementValue.walkParams visitors visitor state params =
      AnnotationEvent.driveAll visitors visitor state
        (params.map fun (name, value) => value.event (some name)) := by
  induction params generalizing state with
  | nil => rfl
  | cons first rest inductionHypothesis =>
      obtain ⟨name, value⟩ := first
      rw [walkParams, inductionHypothesis, value.walk_eq_drive]
      rfl

def AnnotationEntry.told (entry : AnnotationEntry) : List AnnotationEvent :=
  entry.params.map fun (name, value) => value.event (some name)

theorem AnnotationEntry.script_eq_told (entry : AnnotationEntry) :
    entry.script = entry.told ++ [.finish] := by
  obtain ⟨desc, visible, params⟩ := entry
  rw [script, told]
  induction params with
  | nil => rfl
  | cons first rest inductionHypothesis =>
      obtain ⟨name, value⟩ := first
      rw [ElementValue.paramEvents, inductionHypothesis]
      rfl

namespace EntryCollector

variable {Place : Type} (collector : EntryCollector Place)

theorem lend_lend (first second : Parameters → Parameters) :
    (collector.lend first).lend second = collector.lend fun params => second (first params) := by
  obtain ⟨collected, sink, finished, borrowed⟩ := collector
  cases finished with
  | true => rfl
  | false => cases collected <;> rfl

theorem collected_lend_new (desc : String) (visible : Bool) (borrowed : Place)
    (use : Parameters → Parameters) :
    ((new desc visible borrowed).lend use).collected = some ⟨desc, visible, use []⟩ := rfl

/-- How ended collectors would change does not matter, and nor do parameters with a name
repeated. -/
theorem Reached.lend_congr {collector : EntryCollector Place} (reached : collector.Reached)
    {first second : Parameters → Parameters}
    (alike : ∀ params : Parameters, (params.map Prod.fst).Nodup → first params = second params) :
    collector.lend first = collector.lend second := by
  cases unfinished : collector.finished with
  | true => rw [lend, lend, unfinished, if_pos rfl, if_pos rfl]
  | false =>
      obtain ⟨entry, held, names⟩ := reached.exists_collected unfinished
      simp only [lend, unfinished, held, Option.map_some, alike entry.params names]

theorem acceptAll_events {params : List (String × ElementValue)}
    (distinct : ElementValue.ParamsNamesDistinct params) :
    collector.acceptAll (params.map fun (name, value) => value.event (some name)) =
      collector.lend fun lower => (ElementValue.normalizeParams params).foldl
        (fun params (name, value) => Parameters.insert name value params) lower := by
  induction params generalizing collector with
  | nil => exact collector.lend_unchanged.symm
  | cons first rest inductionHypothesis =>
      obtain ⟨name, value⟩ := first
      obtain ⟨inner, others⟩ := distinct
      rw [List.map_cons, acceptAll, accept_event inner, inductionHypothesis _ others, store,
        lend_lend]
      rfl

/-- An annotation told to a collector is laid over what it holds. -/
theorem Reached.acceptAll_told {collector : EntryCollector Place} (reached : collector.Reached)
    {other : AnnotationEntry} (distinct : other.NamesDistinct) :
    collector.acceptAll other.told =
      collector.lend fun params => Parameters.overlaid params other.normalize.params := by
  obtain ⟨desc, visible, params⟩ := other
  obtain ⟨here, below⟩ := distinct
  have apart : ((ElementValue.normalizeParams params).map Prod.fst).Nodup :=
    (ElementValue.names_normalizeParams params).symm ▸ here
  rw [AnnotationEntry.told, acceptAll_events collector below]
  exact reached.lend_congr fun lower names => Parameters.foldl_insert names apart

/-- A collector to which the parameters are told call by call, whatever it has lent before. -/
theorem settle_walkParams {collector : EntryCollector Place}
    {nest : CollectorNest Place .outside} (settled : nest.settle = collector.nest)
    (entry : AnnotationEntry) :
    (ElementValue.walkParams collecting 0 nest entry.params).settle =
      (collector.acceptAll entry.told).nest := by
  have told := AnnotationEvent.driveAll_collecting 0 nest entry.told
  change _ = nest.settle.acceptAll entry.told at told
  rw [settled] at told
  rw [ElementValue.walkParams_eq_driveAll_map]
  exact told

end EntryCollector

theorem telling_merges_like_adding :
    (∀ (entry : AnnotationEntry) name value,
      Parameters.Stores name value entry.params (entry.add name value).2.params) ∧
    (∀ builder : EntryBuilder, builder.Reached → ∀ value : ElementValue, value.NamesDistinct →
      (builder.finished = false → builder.building.isSome) ∧
      ∀ name, builder.feed (value.event name) =
        if builder.finished then builder
        else { builder with
          building := builder.building.map fun entry =>
            (entry.add (name.getD "") value.normalize).2 }) ∧
    (∀ (Place : Type) (collector : EntryCollector Place), collector.Reached →
      ∀ value : ElementValue, value.NamesDistinct →
      (collector.finished = false → collector.collected.isSome) ∧
      ∀ name,
        collector.accept (value.event name) =
          (if collector.finished then collector
          else { collector with
            collected := collector.collected.map fun entry =>
              (entry.add (name.getD "") value.normalize).2 }) ∧
        (value.walk collecting 0 name collector.nest).settle =
          (collector.accept (value.event name)).nest) ∧
    (∀ (builder : ArrayBuilder) (value : ElementValue), value.NamesDistinct → ∀ name,
      builder.feed (value.event name) =
        if builder.finished then builder
        else { builder with items := builder.items ++ [value.normalize] }) ∧
    (∀ (Place : Type) (collector : ArrayCollector Place) (value : ElementValue),
      value.NamesDistinct → ∀ name,
        collector.accept (value.event name) =
          (if collector.sink.isNone then collector
          else { collector with values := collector.values ++ [value.normalize] }) ∧
        (value.walk collecting 0 name collector.nest).settle =
          (collector.accept (value.event name)).nest) ∧
    (∀ (Place : Type) (collector : EntryCollector Place), collector.Reached →
      ∀ other : AnnotationEntry, other.NamesDistinct →
        collector.acceptAll other.told =
          (if collector.finished then collector
          else { collector with
            collected := collector.collected.map fun entry =>
              { entry with params := Parameters.overlaid entry.params other.normalize.params } }) ∧
        (ElementValue.walkParams collecting 0 collector.nest other.params).settle =
          (collector.acceptAll other.told).nest) ∧
    ∀ (Place : Type) (borrowed : Place) (desc : String) (visible : Bool)
      (first second : AnnotationEntry), first.NamesDistinct → second.NamesDistinct →
        let twice := ((EntryCollector.new desc visible borrowed).acceptAll first.told).acceptAll
          second.told
        twice.collected = some ⟨desc, visible,
          Parameters.overlaid first.normalize.params second.normalize.params⟩ ∧
        (ElementValue.walkParams collecting 0
          (ElementValue.walkParams collecting 0 (EntryCollector.new desc visible borrowed).nest
            first.params) second.params).settle = twice.nest := by
  refine ⟨fun entry name value => Parameters.stores_insert name value entry.params,
    fun builder reached value distinct => ⟨fun unfinished => ?_, builder.feed_event distinct⟩,
    fun Place collector reached value distinct => ⟨fun unfinished => ?_, fun name =>
      ⟨collector.accept_event distinct name, collector.settle_walk_value value name⟩⟩,
    fun builder value distinct name => builder.feed_event distinct name,
    fun Place collector value distinct name =>
      ⟨collector.accept_event distinct name, collector.settle_walk_value value name⟩, ?_, ?_⟩
  · obtain ⟨entry, held, _names⟩ := reached.exists_building unfinished
    rw [held, Option.isSome_some]
  · obtain ⟨entry, held, _names⟩ := reached.exists_collected unfinished
    rw [held, Option.isSome_some]
  · intro Place collector reached other distinct
    exact ⟨reached.acceptAll_told distinct, EntryCollector.settle_walkParams rfl other⟩
  · intro Place borrowed desc visible first second firstDistinct secondDistinct
    have fresh : (EntryCollector.new desc visible borrowed).Reached :=
      .new desc visible borrowed []
    have told := EntryCollector.Reached.new desc visible borrowed first.told
    constructor
    · rw [told.acceptAll_told secondDistinct, fresh.acceptAll_told firstDistinct,
        EntryCollector.lend_lend, EntryCollector.collected_lend_new, Parameters.nil_overlaid]
    · exact EntryCollector.settle_walkParams (EntryCollector.settle_walkParams rfl first) second

def ElementValue.hidden : ElementValue :=
  .nested ⟨"B", false, [("x", .array [.nested ⟨"C", false, []⟩])]⟩

/-- The collector has been told one value with a name and one without. -/
theorem hidden_merges_visible :
    let collector := (EntryCollector.new "A" false ()).acceptAll
      [.visit (some "y") (.int 1), .visit none (.int 2)]
    let visible : ElementValue := .nested ⟨"B", true, [("x", .array [.nested ⟨"C", true, []⟩])]⟩
    let lower : AnnotationEntry := ⟨"D", false, [("y", .hidden), ("z", .array [])]⟩
    let upper : AnnotationEntry := ⟨"E", true, [("w", .array [.hidden]), ("z", .hidden)]⟩
    collector.Reached ∧ ElementValue.hidden.NamesDistinct ∧
      collector.accept (ElementValue.hidden.event (some "y")) =
        ⟨some ⟨"A", false, [("y", visible), ("", .scalar (.int 2))]⟩, none, false, ()⟩ ∧
      lower.NamesDistinct ∧ upper.NamesDistinct ∧
      (((EntryCollector.new "A" true ()).acceptAll lower.told).acceptAll upper.told).collected =
        some ⟨"A", true, [("y", visible), ("z", visible), ("w", .array [visible])]⟩ := by
  intro collector visible lower upper
  have distinct : ElementValue.hidden.NamesDistinct :=
    ⟨List.nodup_singleton "x", ⟨⟨List.nodup_nil, trivial⟩, trivial⟩, trivial⟩
  have lowerDistinct : lower.NamesDistinct := ⟨by decide, distinct, trivial, trivial⟩
  have upperDistinct : upper.NamesDistinct := ⟨by decide, ⟨distinct, trivial⟩, distinct, trivial⟩
  obtain ⟨_stores, _builders, collectors, _arrays, _arrayCollectors, _overlays, twice⟩ :=
    telling_merges_like_adding
  have reached := EntryCollector.Reached.new "A" false ()
    [.visit (some "y") (.int 1), .visit none (.int 2)]
  obtain ⟨stored, _walked⟩ := (collectors Unit _ reached .hidden distinct).2 (some "y")
  obtain ⟨overlaid, _walked⟩ := twice Unit () "A" true lower upper lowerDistinct upperDistinct
  exact ⟨reached, distinct, stored, lowerDistinct, upperDistinct, overlaid⟩

end CompilerIR
