import CompilerIR.Proofs.Annotation.Collection

/-!
Replay of annotations. Main statement: an annotation told to a builder or a collector comes
back as it was, up to the visibility of the annotations inside it, which is not told; and one
that has come out of a builder or a collector comes back exactly.
-/

namespace CompilerIR

open AnnotationEvent

mutual

/-- Every annotation inside is visible, and all else is the same. -/
def ElementValue.normalize : ElementValue → ElementValue
  | .scalar value => .scalar value
  | .enum member => .enum member
  | .nested entry => .nested { entry.normalize with visible := true }
  | .array items => .array (ElementValue.normalizeItems items)

def AnnotationEntry.normalize : AnnotationEntry → AnnotationEntry
  | ⟨desc, visible, params⟩ => ⟨desc, visible, ElementValue.normalizeParams params⟩

def ElementValue.normalizeItems : List ElementValue → List ElementValue
  | [] => []
  | item :: items => item.normalize :: ElementValue.normalizeItems items

def ElementValue.normalizeParams : List (String × ElementValue) → List (String × ElementValue)
  | [] => []
  | (name, value) :: rest => (name, value.normalize) :: ElementValue.normalizeParams rest

end

mutual

def ElementValue.NamesDistinct : ElementValue → Prop
  | .scalar _ | .enum _ => True
  | .nested entry => entry.NamesDistinct
  | .array items => ElementValue.ItemsNamesDistinct items

def AnnotationEntry.NamesDistinct : AnnotationEntry → Prop
  | ⟨_, _, params⟩ => (params.map Prod.fst).Nodup ∧ ElementValue.ParamsNamesDistinct params

def ElementValue.ItemsNamesDistinct : List ElementValue → Prop
  | [] => True
  | item :: items => item.NamesDistinct ∧ ElementValue.ItemsNamesDistinct items

def ElementValue.ParamsNamesDistinct : List (String × ElementValue) → Prop
  | [] => True
  | (_, value) :: rest => value.NamesDistinct ∧ ElementValue.ParamsNamesDistinct rest

end

namespace ElementValue

theorem normalizeItems_eq_map (items : List ElementValue) :
    normalizeItems items = items.map normalize := by
  induction items with
  | nil => rfl
  | cons item rest inductionHypothesis => rw [normalizeItems, inductionHypothesis, List.map_cons]

theorem normalizeParams_eq_map (params : List (String × ElementValue)) :
    normalizeParams params = params.map (Prod.map id normalize) := by
  induction params with
  | nil => rfl
  | cons first rest inductionHypothesis =>
      obtain ⟨name, value⟩ := first
      rw [normalizeParams, inductionHypothesis]
      rfl

theorem names_normalizeParams (params : List (String × ElementValue)) :
    (normalizeParams params).map Prod.fst = params.map Prod.fst := by
  rw [normalizeParams_eq_map, List.map_map]
  rfl

theorem itemsNamesDistinct_iff {items : List ElementValue} :
    ItemsNamesDistinct items ↔ ∀ item ∈ items, item.NamesDistinct := by
  induction items with
  | nil => simp [ItemsNamesDistinct]
  | cons item rest inductionHypothesis => simp [ItemsNamesDistinct, inductionHypothesis]

theorem paramsNamesDistinct_iff {params : List (String × ElementValue)} :
    ParamsNamesDistinct params ↔ ∀ param ∈ params, param.2.NamesDistinct := by
  induction params with
  | nil => simp [ParamsNamesDistinct]
  | cons first rest inductionHypothesis => simp [ParamsNamesDistinct, inductionHypothesis]

/-! ### Told events -/

theorem isFinish_event (value : ElementValue) (name : Option String) :
    ¬(value.event name).isFinish = true := by
  cases value <;> simp [event, isFinish]

theorem name_event (value : ElementValue) (name : Option String) :
    (value.event name).name = name.getD "" := by
  cases value <;> rfl

theorem ends_itemEvents (items : List ElementValue) : ends (itemEvents items) = true := by
  induction items with
  | nil => rfl
  | cons item rest inductionHypothesis =>
      rw [itemEvents, ends_of_not_isFinish (item.isFinish_event none), inductionHypothesis]

theorem ends_paramEvents (params : List (String × ElementValue)) :
    ends (paramEvents params) = true := by
  induction params with
  | nil => rfl
  | cons first rest inductionHypothesis =>
      obtain ⟨name, value⟩ := first
      rw [paramEvents, ends_of_not_isFinish (value.isFinish_event _), inductionHypothesis]

theorem given_event_cons {value told : ElementValue} {name : Option String}
    (means : (value.event name).value? = some told) (rest : List AnnotationEvent) :
    given (value.event name :: rest) = (name.getD "", told) :: given rest := by
  rw [given_of_not_isFinish (value.isFinish_event name), means, value.name_event name]
  rfl

mutual

/-- What is told of a value means the value with all inside it visible. -/
theorem value?_event : (value : ElementValue) → value.NamesDistinct → (name : Option String) →
    (value.event name).value? = some value.normalize
  | .scalar value, _distinct, name => rfl
  | .enum member, _distinct, name => rfl
  | .nested ⟨desc, visible, params⟩, ⟨distinct, below⟩, name => by
      have told := given_paramEvents params below
      have kept : ((normalizeParams params).map Prod.fst).Nodup :=
        (names_normalizeParams params).symm ▸ distinct
      rw [event, value?, AnnotationEntry.script, ends_paramEvents, if_pos rfl, told,
        Parameters.settled_of_nodup kept]
      rfl
  | .array items, distinct, name => by
      have told := given_itemEvents items distinct
      rw [event, value?, ends_itemEvents, if_pos rfl, told]
      rfl

theorem given_itemEvents : (items : List ElementValue) → ItemsNamesDistinct items →
    (given (itemEvents items)).map Prod.snd = normalizeItems items
  | [], _distinct => rfl
  | item :: rest, ⟨first, others⟩ => by
      rw [itemEvents, given_event_cons (value?_event item first none), List.map_cons,
        given_itemEvents rest others]
      rfl

theorem given_paramEvents : (params : List (String × ElementValue)) →
    ParamsNamesDistinct params → given (paramEvents params) = normalizeParams params
  | [], _distinct => rfl
  | (name, value) :: rest, ⟨first, others⟩ => by
      rw [paramEvents, given_event_cons (value?_event value first (some name)),
        given_paramEvents rest others]
      rfl

end

/-! ### Collected values -/

/-- A value as builders make it. -/
structure Normal (value : ElementValue) : Prop where
  unchanged : value.normalize = value
  namesDistinct : value.NamesDistinct

theorem normalizeItems_of_normal {items : List ElementValue}
    (normal : ∀ item ∈ items, item.Normal) : normalizeItems items = items := by
  rw [normalizeItems_eq_map]
  exact (List.map_congr_left fun item member => (normal item member).unchanged).trans
    (List.map_id items)

theorem normalizeParams_of_normal {params : List (String × ElementValue)}
    (normal : ∀ param ∈ params, param.2.Normal) : normalizeParams params = params := by
  rw [normalizeParams_eq_map]
  refine (List.map_congr_left ?_).trans (List.map_id params)
  intro param member
  exact Prod.ext rfl (normal param member).unchanged

end ElementValue

/-- What builders make of normal values. -/
theorem AnnotationEntry.normal_settled {values : List (String × ElementValue)}
    (normal : ∀ pair ∈ values, pair.2.Normal) (desc : String) (visible : Bool) :
    (AnnotationEntry.mk desc visible (Parameters.settled values)).normalize =
        ⟨desc, visible, Parameters.settled values⟩ ∧
      (AnnotationEntry.mk desc visible (Parameters.settled values)).NamesDistinct := by
  have kept (param : String × ElementValue) (member : param ∈ Parameters.settled values) :=
    normal param (Parameters.mem_of_mem_settled member)
  constructor
  · rw [normalize, ElementValue.normalizeParams_of_normal kept]
  · constructor
    · rw [← Parameters.ofList_eq_settled]
      exact Parameters.nodup_names_ofList values
    · exact ElementValue.paramsNamesDistinct_iff.mpr fun param member =>
        (kept param member).namesDistinct

namespace AnnotationEvent

theorem exists_of_mem_given {script : List AnnotationEvent} {pair : String × ElementValue}
    (member : pair ∈ given script) : ∃ event ∈ script, event.value? = some pair.2 := by
  induction script with
  | nil => cases member
  | cons event events inductionHypothesis =>
      rw [given] at member
      split at member
      · cases member
      · rcases List.mem_append.mp member with here | later
        · rw [Option.mem_toList, Option.map_eq_some_iff] at here
          obtain ⟨value, means, rfl⟩ := here
          exact ⟨event, List.mem_cons_self, means⟩
        · obtain ⟨other, present, means⟩ := inductionHypothesis later
          exact ⟨other, List.mem_cons_of_mem event present, means⟩

section Below

variable {script : List AnnotationEvent} {value : ElementValue}
  (below : ∀ child ∈ script, ∀ inner, child.value? = some inner → inner.Normal)

include below

theorem normal_of_mem_given {pair : String × ElementValue} (member : pair ∈ given script) :
    pair.2.Normal := by
  obtain ⟨child, inside, means⟩ := exists_of_mem_given member
  exact below child inside pair.2 means

theorem normal_of_openNested {name : Option String} {desc : String}
    (means : (AnnotationEvent.openNested name desc script).value? = some value) :
    value.Normal := by
  rw [value?, Option.ite_none_right_eq_some] at means
  obtain ⟨_finished, ⟨⟩⟩ := means
  obtain ⟨unchanged, distinct⟩ := AnnotationEntry.normal_settled
    (fun _pair member => normal_of_mem_given below member) desc true
  constructor
  · rw [ElementValue.normalize, unchanged]
  · exact distinct

theorem normal_of_openArray {name : Option String}
    (means : (AnnotationEvent.openArray name script).value? = some value) : value.Normal := by
  rw [value?, Option.ite_none_right_eq_some] at means
  obtain ⟨_finished, ⟨⟩⟩ := means
  have kept : ∀ item ∈ (given script).map Prod.snd, item.Normal := by
    intro item member
    obtain ⟨pair, present, rfl⟩ := List.mem_map.mp member
    exact normal_of_mem_given below present
  constructor
  · rw [ElementValue.normalize, ElementValue.normalizeItems_of_normal kept]
  · exact ElementValue.itemsNamesDistinct_iff.mpr fun item member =>
      (kept item member).namesDistinct

end Below

theorem normal_of_value? (event : AnnotationEvent) :
    ∀ value, event.value? = some value → value.Normal := by
  induction event using inductionOn with
  | visit name scalar =>
      rintro value ⟨⟩
      exact ⟨rfl, trivial⟩
  | visitEnum name member =>
      rintro value ⟨⟩
      exact ⟨rfl, trivial⟩
  | openNested name desc script below =>
      intro value means
      exact normal_of_openNested below means
  | openArray name script below =>
      intro value means
      exact normal_of_openArray below means
  | finish =>
      rintro value ⟨⟩

end AnnotationEvent

/-! ### Annotations -/

namespace AnnotationEntry

theorem namesDistinct_new (desc : String) (visible : Bool) : (new desc visible).NamesDistinct :=
  ⟨List.nodup_nil, trivial⟩

theorem namesDistinct_add {entry : AnnotationEntry} (distinct : entry.NamesDistinct)
    (name : String) {value : ElementValue} (inner : value.NamesDistinct) :
    (entry.add name value).2.NamesDistinct := by
  obtain ⟨desc, visible, params⟩ := entry
  obtain ⟨here, below⟩ := distinct
  constructor
  · exact Parameters.nodup_names_insert here name value
  · rw [ElementValue.paramsNamesDistinct_iff] at below ⊢
    intro param member
    rcases Parameters.mem_of_mem_insert member with rfl | held
    · exact inner
    · exact below param held

def replayed (entry : AnnotationEntry) : EntryBuilder :=
  (EntryBuilder.keeping entry.desc entry.visible).feedAll entry.script

theorem replayed_eq {entry : AnnotationEntry} (distinct : entry.NamesDistinct) :
    entry.replayed = ⟨some entry.normalize, false, true, []⟩ := by
  obtain ⟨desc, visible, params⟩ := entry
  obtain ⟨here, below⟩ := distinct
  have kept : ((ElementValue.normalizeParams params).map Prod.fst).Nodup :=
    (ElementValue.names_normalizeParams params).symm ▸ here
  rw [replayed, EntryBuilder.keeping_feedAll, script, ElementValue.ends_paramEvents,
    ElementValue.given_paramEvents params below, Parameters.settled_of_nodup kept]
  rfl

/-- The annotation that a builder, told `script`, keeps or hands over. -/
def Collected (desc : String) (visible : Bool) (script : List AnnotationEvent)
    (entry : AnnotationEntry) : Prop :=
  ((EntryBuilder.keeping desc visible).feedAll script).building = some entry ∨
    entry ∈ ((EntryBuilder.handingOver desc visible).feedAll script).delivered

theorem eq_of_collected {desc : String} {visible : Bool} {script : List AnnotationEvent}
    {entry : AnnotationEntry} (collected : Collected desc visible script entry) :
    entry = ⟨desc, visible, Parameters.settled (given script)⟩ := by
  rcases collected with kept | handedOver
  · rw [EntryBuilder.keeping_feedAll] at kept
    exact (Option.some.inj kept).symm
  · rw [EntryBuilder.delivered_feedAll fun event _member => event.understood] at handedOver
    split at handedOver
    · exact List.mem_singleton.mp handedOver
    · cases handedOver

theorem normal_of_collected {desc : String} {visible : Bool} {script : List AnnotationEvent}
    {entry : AnnotationEntry} (collected : Collected desc visible script entry) :
    entry.normalize = entry ∧ entry.NamesDistinct := by
  rw [eq_of_collected collected]
  refine normal_settled (fun pair member => ?_) desc visible
  obtain ⟨event, _inside, means⟩ := exists_of_mem_given member
  exact event.normal_of_value? pair.2 means

def retold (entry : AnnotationEntry) {Place : Type} (borrowed : Place) :
    CollectorNest Place .outside :=
  (entry.walk collecting 0 (EntryCollector.new entry.desc entry.visible borrowed).nest).settle

theorem retold_eq {entry : AnnotationEntry} (distinct : entry.NamesDistinct) {Place : Type}
    (borrowed : Place) :
    entry.retold borrowed = (EntryCollector.mk (some entry.normalize) none true borrowed).nest := by
  have replayed := replayed_eq distinct
  rw [AnnotationEntry.replayed, EntryBuilder.keeping_feedAll, EntryBuilder.mk.injEq] at replayed
  rw [retold, EntryCollector.settle_walk, EntryCollector.acceptAll_new, replayed.1, replayed.2.2.1]

theorem replay_restores_annotation :
    (∀ entry : AnnotationEntry, entry.NamesDistinct →
      entry.replayed.finished = true ∧ entry.replayed.building = some entry.normalize ∧
      (∀ (Place : Type) (borrowed : Place), entry.retold borrowed =
        (EntryCollector.mk (some entry.normalize) none true borrowed).nest) ∧
      entry.normalize.desc = entry.desc ∧ entry.normalize.visible = entry.visible ∧
      entry.normalize.params.map Prod.fst = entry.params.map Prod.fst) ∧
    (∀ desc visible script entry, Collected desc visible script entry →
      entry.normalize = entry ∧
      entry.replayed.finished = true ∧ entry.replayed.building = some entry) ∧
    ∀ (desc : String) (visible : Bool) (script : List AnnotationEvent), ∃ entry,
      entry.normalize = entry ∧
      ∀ (Place : Type) (borrowed : Place),
        (driveAll collecting 0 (EntryCollector.new desc visible borrowed).nest script).settle =
          (EntryCollector.mk (some entry) none (ends script) borrowed).nest ∧
        (∀ sink, ((EntryCollector.withSink desc visible sink borrowed).acceptAll script).borrowed =
          if ends script then sink entry borrowed else borrowed) ∧
        entry.retold borrowed = (EntryCollector.mk (some entry) none true borrowed).nest := by
  refine ⟨?_, ?_, ?_⟩
  · rintro ⟨desc, visible, params⟩ distinct
    rw [replayed_eq distinct]
    exact ⟨rfl, rfl, fun Place borrowed => retold_eq distinct borrowed, rfl, rfl,
      ElementValue.names_normalizeParams params⟩
  · intro desc visible script entry collected
    obtain ⟨unchanged, distinct⟩ := normal_of_collected collected
    rw [replayed_eq distinct, unchanged]
    exact ⟨rfl, rfl, rfl⟩
  · intro desc visible script
    have kept := congrArg EntryBuilder.building (EntryBuilder.keeping_feedAll desc visible script)
    obtain ⟨unchanged, distinct⟩ := normal_of_collected (.inl kept)
    refine ⟨_, unchanged, fun Place borrowed => ⟨?_, fun sink => ?_, ?_⟩⟩
    · rw [EntryCollector.settle_driveAll, EntryCollector.acceptAll_new]
    · exact EntryCollector.borrowed_acceptAll (fun event _member => event.followed) desc visible
        sink borrowed
    · rw [retold_eq distinct, unchanged]

def layered : AnnotationEntry :=
  ⟨"A", false,
    [("x", .nested ⟨"B", false, [("x", .scalar (.float 0x7fc00001))]⟩),
      ("", .array [.array [.nested ⟨"C", false, []⟩], .enum ⟨"E", "M"⟩])]⟩

theorem layered_replay_restores :
    let restored : AnnotationEntry :=
      ⟨"A", false,
        [("x", .nested ⟨"B", true, [("x", .scalar (.float 0x7fc00001))]⟩),
          ("", .array [.array [.nested ⟨"C", true, []⟩], .enum ⟨"E", "M"⟩])]⟩
    layered.NamesDistinct ∧ layered.replayed.building = some restored ∧
      layered.retold () = (EntryCollector.mk (some restored) none true ()).nest ∧
      Collected "A" false layered.script restored ∧
      restored.replayed.building = some restored := by
  have distinct : layered.NamesDistinct := by
    refine ⟨by decide, ⟨by decide, trivial, trivial⟩, ⟨⟨?_, trivial⟩, trivial, trivial⟩, trivial⟩
    exact ⟨List.nodup_nil, trivial⟩
  have collected : Collected "A" false layered.script layered.normalize := .inl rfl
  obtain ⟨told, replayed, _collectors⟩ := replay_restores_annotation
  obtain ⟨_finished, built, retold, _same⟩ := told layered distinct
  refine ⟨distinct, built, retold Unit (), collected, ?_⟩
  exact (replayed "A" false layered.script layered.normalize collected).2.2

end AnnotationEntry

end CompilerIR
