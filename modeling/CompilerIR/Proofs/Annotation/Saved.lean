import CompilerIR.Annotation.Saved
import CompilerIR.Proofs.Annotation.Replay
import CompilerIR.Proofs.Json.Field
import CompilerIR.Proofs.Json.Tree

/-!
Saved annotations. Main statement: an annotation without floating-point constants is loaded from
its saved form as it was, if that is not nested deeper than the reader goes, and refused
otherwise.
-/

namespace CompilerIR

/-! ### Nesting -/

namespace Json

mutual

def depth : Json → Nat
  | .null | .bool _ | .number _ | .string _ => 0
  | .array items => itemsDepth items + 1
  | .object entries => entriesDepth entries + 1

def itemsDepth : List Json → Nat
  | [] => 0
  | item :: items => max (depth item) (itemsDepth items)

def entriesDepth : List (Literal × Json) → Nat
  | [] => 0
  | (_, value) :: entries => max (depth value) (entriesDepth entries)

end

end Json

/-! ### Floating-point constants -/

def Scalar.IsFloat : Scalar → Prop
  | .float _ | .double _ => True
  | _ => False

mutual

def ElementValue.FloatFree : ElementValue → Prop
  | .scalar value => ¬value.IsFloat
  | .enum _ => True
  | .nested entry => entry.FloatFree
  | .array items => ElementValue.ItemsFloatFree items

def AnnotationEntry.FloatFree : AnnotationEntry → Prop
  | ⟨_, _, params⟩ => ElementValue.ParamsFloatFree params

def ElementValue.ItemsFloatFree : List ElementValue → Prop
  | [] => True
  | item :: items => item.FloatFree ∧ ElementValue.ItemsFloatFree items

def ElementValue.ParamsFloatFree : List (String × ElementValue) → Prop
  | [] => True
  | (_, value) :: rest => value.FloatFree ∧ ElementValue.ParamsFloatFree rest

end

/-! ### Values that stand by themselves -/

namespace Scalar

theorem ofJson?_toJson {value : Scalar} (notFloat : ¬value.IsFloat) :
    ofJson? value.toJson = some value := by
  cases value with
  | bool value => rfl
  | byte value => exact congrArg (Option.map Scalar.byte) (Json.int8?_ofInt value)
  | char unit => exact congrArg (Option.map Scalar.char) (Json.uint16?_ofNat unit)
  | short value => exact congrArg (Option.map Scalar.short) (Json.int16?_ofInt value)
  | int value => exact congrArg (Option.map Scalar.int) (Json.int32?_ofInt value)
  | long value => exact congrArg (Option.map Scalar.long) (Json.int64?_ofInt value)
  | float | double => exact absurd trivial notFloat
  | string value => rfl
  | classRef desc => rfl

theorem depth_toJson {value : Scalar} (notFloat : ¬value.IsFloat) : value.toJson.depth = 1 := by
  cases value with
  | float | double => exact absurd trivial notFloat
  | _ => rfl

theorem regular_toJson {value : Scalar} (notFloat : ¬value.IsFloat) : value.toJson.Regular := by
  cases value with
  | float | double => exact absurd trivial notFloat
  | byte | char | short | int | long => exact ⟨Numeral.regular_ofInt _, trivial⟩
  | bool | string | classRef => exact ⟨trivial, trivial⟩

end Scalar

theorem EnumMember.ofJson?_toJson (member : EnumMember) : ofJson? member.toJson = some member := by
  have distinct : ["desc", "name"].Nodup := by decide
  let values : List Json := [.ofString member.desc, .ofString member.name]
  have read : member.toJson.record? ["desc", "name"] = some (values.map some) :=
    Json.record?_written distinct values rfl
  rw [ofJson?, read]
  rfl

/-! ### Nested values -/

theorem withinNesting_succ {α : Type} (levels : Nat) (decoded : Option α) :
    withinNesting (levels + 1) decoded = decoded :=
  if_neg (Nat.succ_ne_zero levels)

def param? (value? : Json → Option ElementValue) (entry : Json.Literal × Json) :
    Option (String × ElementValue) :=
  match entry.1 with
  | .text name => (value? entry.2).bind fun value => some (name, value)
  | _ => none

namespace AnnotationEntry

theorem decode?_toJson (value? : Json → Option ElementValue) (desc : String) (visible : Bool)
    (params : List (String × ElementValue)) :
    decode? value? (AnnotationEntry.toJson ⟨desc, visible, params⟩) =
      ((ElementValue.paramsJson params).mapM (param? value?)).map fun pairs =>
        ⟨desc, visible, Parameters.ofList pairs⟩ := by
  have distinct : ["desc", "visible", "values"].Nodup := by decide
  let values : List Json :=
    [.ofString desc, .bool visible, .object (ElementValue.paramsJson params)]
  have read : (AnnotationEntry.toJson ⟨desc, visible, params⟩).record?
      ["desc", "visible", "values"] = some (values.map some) :=
    Json.record?_written distinct values rfl
  rw [decode?, read]
  simp only [values, List.map_cons, List.map_nil, Option.bind_eq_bind, Option.bind_some,
    Json.string?, Json.ofString, Json.bool?, Option.map_eq_bind]
  rfl

/-- The parameters are stored as they are, since their names are distinct. -/
theorem decode?_of_params {value? : Json → Option ElementValue} {desc : String} {visible : Bool}
    {params : List (String × ElementValue)} {inside : Prop} [Decidable inside]
    (distinct : (params.map Prod.fst).Nodup)
    (read : (ElementValue.paramsJson params).mapM (param? value?) =
      if inside then some params else none) :
    decode? value? (AnnotationEntry.toJson ⟨desc, visible, params⟩) =
      if inside then some ⟨desc, visible, params⟩ else none := by
  have kept : Parameters.ofList params = params :=
    (Parameters.ofList_eq_settled params).trans (Parameters.settled_of_nodup distinct)
  rw [decode?_toJson, read]
  split
  · rw [Option.map_some, kept]
  · rfl

end AnnotationEntry

/-- Values of which each is read if it is not nested too deep are read together if the deepest
is not. -/
theorem mapM_cons_if {α β : Type} {read : α → Option β} {first : α} {value : β} {rest : List α}
    {values : List β} {here there levels : Nat}
    (firstRead : read first = if here ≤ levels then some value else none)
    (restRead : rest.mapM read = if there ≤ levels then some values else none) :
    (first :: rest).mapM read =
      if max here there ≤ levels then some (value :: values) else none := by
  rw [List.mapM_cons, firstRead, restRead]
  simp only [Nat.max_le]
  by_cases first : here ≤ levels <;> by_cases others : there ≤ levels <;> simp [first, others]

theorem map_if_within {α β : Type} (wrap : α → β) (value : α) (inner levels outer : Nat) :
    (if inner ≤ levels then some value else none).map wrap =
      if inner + outer ≤ levels + outer then some (wrap value) else none := by
  simp only [Nat.add_le_add_iff_right]
  split <;> rfl

namespace ElementValue

mutual

theorem ofJson?_toJson : (value : ElementValue) → value.NamesDistinct → value.FloatFree →
    (levels : Nat) →
    ofJson? levels value.toJson = if value.toJson.depth ≤ levels then some value else none
  | .scalar value, _distinct, floatFree, levels => by
      have depth : (ElementValue.scalar value).toJson.depth = 2 := by
        simp [toJson, Json.depth, Json.entriesDepth, Scalar.depth_toJson floatFree]
      rw [depth]
      match levels with
      | 0 => rfl
      | 1 => rfl
      | levels + 2 =>
          rw [if_pos (by omega)]
          exact (withinNesting_succ levels _).trans
            (congrArg (Option.map ElementValue.scalar) (Scalar.ofJson?_toJson floatFree))
  | .enum member, _distinct, _floatFree, levels => by
      have depth : (ElementValue.enum member).toJson.depth = 2 := rfl
      rw [depth]
      match levels with
      | 0 => rfl
      | 1 => rfl
      | levels + 2 =>
          rw [if_pos (by omega)]
          exact (withinNesting_succ levels _).trans
            (congrArg (Option.map ElementValue.enum) member.ofJson?_toJson)
  | .nested ⟨desc, visible, params⟩, ⟨distinct, below⟩, floatFree, levels => by
      have depth : (ElementValue.nested ⟨desc, visible, params⟩).toJson.depth =
          Json.entriesDepth (paramsJson params) + 3 := by
        simp [toJson, AnnotationEntry.toJson, Json.ofString, Json.depth, Json.entriesDepth]
      rw [depth]
      match levels with
      | 0 => rfl
      | 1 => rfl
      | 2 => rfl
      | levels + 3 =>
          have read : AnnotationEntry.decode? (ofJson? levels)
              (AnnotationEntry.toJson ⟨desc, visible, params⟩) =
                if Json.entriesDepth (paramsJson params) ≤ levels then some ⟨desc, visible, params⟩
                else none :=
            AnnotationEntry.decode?_of_params distinct
              (mapM_paramsJson params below floatFree levels)
          exact (congrArg (Option.map ElementValue.nested) read).trans
            (map_if_within _ _ _ levels 3)
  | .array items, distinct, floatFree, levels => by
      have depth : (ElementValue.array items).toJson.depth =
          Json.itemsDepth (itemsJson items) + 2 := by
        simp [toJson, Json.depth, Json.entriesDepth]
      rw [depth]
      match levels with
      | 0 => rfl
      | 1 => rfl
      | levels + 2 =>
          have read := mapM_itemsJson items distinct floatFree levels
          exact (congrArg (Option.map ElementValue.array) read).trans
            (map_if_within _ _ _ levels 2)

theorem mapM_itemsJson : (items : List ElementValue) → ItemsNamesDistinct items →
    ItemsFloatFree items → (levels : Nat) →
    (itemsJson items).mapM (ofJson? levels) =
      if Json.itemsDepth (itemsJson items) ≤ levels then some items else none
  | [], _distinct, _floatFree, _levels => rfl
  | item :: items, ⟨distinct, others⟩, ⟨floatFree, othersFloatFree⟩, levels =>
      mapM_cons_if (ofJson?_toJson item distinct floatFree levels)
        (mapM_itemsJson items others othersFloatFree levels)

theorem mapM_paramsJson : (params : List (String × ElementValue)) →
    ParamsNamesDistinct params → ParamsFloatFree params → (levels : Nat) →
    (paramsJson params).mapM (param? (ofJson? levels)) =
      if Json.entriesDepth (paramsJson params) ≤ levels then some params else none
  | [], _distinct, _floatFree, _levels => rfl
  | (name, value) :: rest, ⟨distinct, others⟩, ⟨floatFree, othersFloatFree⟩, levels => by
      have first : param? (ofJson? levels) (.text name, value.toJson) =
          if value.toJson.depth ≤ levels then some (name, value) else none := by
        simp only [param?, ofJson?_toJson value distinct floatFree levels]
        split <;> rfl
      exact mapM_cons_if first (mapM_paramsJson rest others othersFloatFree levels)

end

mutual

theorem regular_toJson : (value : ElementValue) → value.FloatFree → value.toJson.Regular
  | .scalar _, floatFree => ⟨Scalar.regular_toJson floatFree, trivial⟩
  | .enum _, _floatFree => ⟨⟨trivial, trivial, trivial⟩, trivial⟩
  | .nested ⟨_, _, params⟩, floatFree =>
      ⟨⟨trivial, trivial, regular_paramsJson params floatFree, trivial⟩, trivial⟩
  | .array items, floatFree => ⟨regular_itemsJson items floatFree, trivial⟩

theorem regular_itemsJson : (items : List ElementValue) → ItemsFloatFree items →
    Json.ItemsRegular (itemsJson items)
  | [], _floatFree => trivial
  | item :: items, ⟨floatFree, others⟩ =>
      ⟨regular_toJson item floatFree, regular_itemsJson items others⟩

theorem regular_paramsJson : (params : List (String × ElementValue)) → ParamsFloatFree params →
    Json.EntriesRegular (paramsJson params)
  | [], _floatFree => trivial
  | (_, value) :: rest, ⟨floatFree, others⟩ =>
      ⟨regular_toJson value floatFree, regular_paramsJson rest others⟩

end

end ElementValue

/-! ### Annotations -/

namespace AnnotationEntry

theorem ofJson?_toJson {entry : AnnotationEntry} (distinct : entry.NamesDistinct)
    (floatFree : entry.FloatFree) :
    ofJson? entry.toJson = if entry.toJson.depth ≤ nestingLimit then some entry else none := by
  obtain ⟨desc, visible, params⟩ := entry
  have depth : (toJson ⟨desc, visible, params⟩).depth =
      Json.entriesDepth (ElementValue.paramsJson params) + 2 := by
    simp [toJson, Json.ofString, Json.depth, Json.entriesDepth]
  have read := ElementValue.mapM_paramsJson params distinct.2 floatFree (nestingLimit - 2)
  have limit : Json.entriesDepth (ElementValue.paramsJson params) + 2 ≤ nestingLimit ↔
      Json.entriesDepth (ElementValue.paramsJson params) ≤ nestingLimit - 2 :=
    (Nat.le_sub_iff_add_le (by decide)).symm
  simp only [depth, limit]
  exact decode?_of_params distinct.1 read

theorem regular_toJson {entry : AnnotationEntry} (floatFree : entry.FloatFree) :
    entry.toJson.Regular := by
  obtain ⟨desc, visible, params⟩ := entry
  exact ⟨trivial, trivial, ElementValue.regular_paramsJson params floatFree, trivial⟩

/-- Loaded from any spelling of its saved form. -/
theorem load?_of_spells {entry : AnnotationEntry} (distinct : entry.NamesDistinct)
    (floatFree : entry.FloatFree) {text : String} (spelled : entry.toJson.Spells text) :
    load? text = if entry.toJson.depth ≤ nestingLimit then some entry else none := by
  rw [load?, spelled.parse?]
  exact ofJson?_toJson distinct floatFree

theorem saved_annotations_load (entry : AnnotationEntry) (distinct : entry.NamesDistinct)
    (floatFree : entry.FloatFree) :
    load? entry.saved = if entry.toJson.depth ≤ nestingLimit then some entry else none :=
  load?_of_spells distinct floatFree (regular_toJson floatFree).spells_text

def veiled : AnnotationEntry :=
  ⟨"A\"\\\n\x01", false,
    [("z", .nested ⟨"B", false, [("", .scalar (.long (-0x8000000000000000)))]⟩),
      ("", .array [.array [], .nested ⟨"😀", false, []⟩, .enum ⟨"E", "\x7f"⟩]),
      ("a", .scalar (.string "null"))]⟩

theorem veiled_loads :
    veiled.NamesDistinct ∧ veiled.FloatFree ∧ veiled.toJson.depth ≤ nestingLimit ∧
      load? veiled.saved = some veiled := by
  have distinct : veiled.NamesDistinct := by
    refine ⟨by decide, ⟨by decide, trivial, trivial⟩, ⟨trivial, ?_, trivial, trivial⟩, trivial,
      trivial⟩
    exact ⟨List.nodup_nil, trivial⟩
  have floatFree : veiled.FloatFree := by
    simp [veiled, FloatFree, ElementValue.ParamsFloatFree, ElementValue.FloatFree,
      ElementValue.ItemsFloatFree, Scalar.IsFloat]
  have shallow : veiled.toJson.depth ≤ nestingLimit := by decide
  refine ⟨distinct, floatFree, shallow, ?_⟩
  rw [saved_annotations_load veiled distinct floatFree, if_pos shallow]

end AnnotationEntry

end CompilerIR
