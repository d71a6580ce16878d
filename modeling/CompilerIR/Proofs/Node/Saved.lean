import CompilerIR.Node.Saved
import CompilerIR.Proofs.Json.Field
import CompilerIR.Proofs.Json.Tree

/-!
Saved kinds. Main statement: a kind is loaded from its saved form, and just as well from every
text whose records hold the same fields in another order, with scalars under other names among
them, or without the lists that are absent.
-/

namespace CompilerIR

open Json (Holds present)

/-! ### Components -/

namespace ListRange

variable {α : Type}

def SavedAs (range : ListRange α) (json : Json) : Prop :=
  ∃ entries, json = .object entries ∧
    Holds ["start", "len"] [some (.ofNat range.start.toNat), some (.ofNat range.length)] entries

theorem savedAs_toJson (range : ListRange α) : range.SavedAs range.toJson :=
  ⟨_, rfl, Json.holds_present _ _⟩

theorem ofJson?_of_savedAs {range : ListRange α} {json : Json} (saved : range.SavedAs json) :
    ofJson? json = some range := by
  obtain ⟨entries, rfl, holds⟩ := saved
  have read : (Json.object entries).record? ["start", "len"] =
      some [some (.ofNat range.start.toNat), some (.ofNat range.length)] :=
    Json.fields?_of_holds (by decide) rfl holds
  rw [ofJson?, read]
  simp only [Option.bind_eq_bind, Option.bind_some, Json.uint32?_ofNat, length,
    Json.uint16?_ofNat]
  rfl

end ListRange

theorem Handle.ofJson?_toJson {table : Table} (handle : Handle table) :
    ofJson? handle.toJson = some handle := by
  rw [ofJson?, toJson, index, Json.uint32?_ofNat]
  rfl

theorem TypeId.ofJson?_toJson (type : TypeId) : ofJson? type.toJson = some type := by
  rw [ofJson?, toJson, index, Json.uint32?_ofNat]
  rfl

theorem ExprId.ofJson?_toJson (id : ExprId) : ofJson? id.toJson = some id := by
  rw [ofJson?, toJson, index, Json.uint32?_ofNat]
  rfl

theorem BinaryOp.ofName?_name (op : BinaryOp) : ofName? op.name = some op := by
  rcases op with (_ | _) | _ | _ | _ | _ | _ | _ | _ | _ | _ | (_ | _) <;> rfl

theorem PrefixOp.ofName?_name (op : PrefixOp) : ofName? op.name = some op := by
  cases op <;> rfl

theorem PostfixOp.ofName?_name (op : PostfixOp) : ofName? op.name = some op := by
  cases op <;> rfl

/-- The values under the name of a component. An absent list is null, or left out. -/
def Component.SavedAs : Component → Option Json → Prop
  | .exprs range, written => ∃ json, written = some json ∧ range.SavedAs json
  | .types range, written => ∃ json, written = some json ∧ range.SavedAs json
  | .exprsIfPresent (some range), written => ∃ json, written = some json ∧ range.SavedAs json
  | .exprsIfPresent none, written => written = none ∨ written = some .null
  | component, written => written = some component.toJson

theorem Component.savedAs_toJson (component : Component) :
    component.SavedAs (some component.toJson) := by
  cases component with
  | exprs range => exact ⟨_, rfl, range.savedAs_toJson⟩
  | types range => exact ⟨_, rfl, range.savedAs_toJson⟩
  | exprsIfPresent range =>
      cases range with
      | none => exact .inr rfl
      | some range => exact ⟨_, rfl, range.savedAs_toJson⟩
  | _ => rfl

def Component.ReadFrom (component : Component) (written : Option Json) : Prop :=
  match component with
  | .flag value => ∃ json, written = some json ∧ json.bool? = some value
  | .integer value => ∃ json, written = some json ∧ json.int? = some value
  | .operator name => ∃ json, written = some json ∧ json.name? = some name
  | .handle _ value => ∃ json, written = some json ∧ Handle.ofJson? json = some value
  | .type value => ∃ json, written = some json ∧ TypeId.ofJson? json = some value
  | .expr value => ∃ json, written = some json ∧ ExprId.ofJson? json = some value
  | .exprs value => ∃ json, written = some json ∧ ListRange.ofJson? json = some value
  | .exprsIfPresent value => NodeKind.listIfPresent? written = some value
  | .types value => ∃ json, written = some json ∧ ListRange.ofJson? json = some value

theorem Component.readFrom_of_savedAs {component : Component} {written : Option Json}
    (saved : component.SavedAs written) : component.ReadFrom written := by
  cases component with
  | flag value => exact ⟨_, saved, rfl⟩
  | integer value => exact ⟨_, saved, Numeral.int?_ofInt value⟩
  | operator name => exact ⟨_, saved, rfl⟩
  | handle table value => exact ⟨_, saved, value.ofJson?_toJson⟩
  | type value => exact ⟨_, saved, value.ofJson?_toJson⟩
  | expr value => exact ⟨_, saved, value.ofJson?_toJson⟩
  | exprs range | types range =>
      obtain ⟨json, written, rangeSaved⟩ := saved
      exact ⟨json, written, ListRange.ofJson?_of_savedAs rangeSaved⟩
  | exprsIfPresent range =>
      cases range with
      | none => rcases saved with rfl | rfl <;> rfl
      | some range =>
          obtain ⟨json, rfl, entries, rfl, holds⟩ := saved
          have read := ListRange.ofJson?_of_savedAs ⟨entries, rfl, holds⟩
          simp only [ReadFrom, NodeKind.listIfPresent?, Json.option?, read, Option.map_some]

namespace NodeKind

/-- The saved forms of a kind: its own, and those that are rearranged. -/
def SavedAs (kind : NodeKind) (json : Json) : Prop :=
  match kind.payload with
  | .empty => json = .ofString kind.name
  | .single component => json = .object [(.text kind.name, component.toJson)]
  | .record components =>
      ∃ written entries, List.Forall₂ (fun field => Component.SavedAs field.2) components written ∧
        Holds (components.map Prod.fst) written entries ∧
        json = .object [(.text kind.name, .object entries)]

theorem present_written (components : List (String × Component)) :
    present (components.map Prod.fst) (components.map fun field => some field.2.toJson) =
      components.map fun (field, component) => (.text field, component.toJson) := by
  induction components with
  | nil => rfl
  | cons first rest inductionHypothesis =>
      rw [List.map_cons, List.map_cons, Json.present_cons, inductionHypothesis]
      rfl

theorem savedAs_toJson (kind : NodeKind) : kind.SavedAs kind.toJson := by
  unfold SavedAs toJson
  cases kind.payload with
  | empty => rfl
  | single component => rfl
  | record components =>
      have written : List.Forall₂ (fun field => Component.SavedAs field.2) components
          (components.map fun field => some field.2.toJson) := by
        rw [List.forall₂_map_right_iff, List.forall₂_same]
        exact fun field _member => field.2.savedAs_toJson
      refine ⟨_, _, written, ?_, rfl⟩
      rw [← present_written]
      exact Json.holds_present _ _

section Source

variable (source : Json.Source)

theorem ofEntry?_of_empty {kind : NodeKind} (payload : kind.payload = .empty) :
    ofEntry? source kind.name .null = some kind := by
  cases kind with
  | null | absentArrayDimension => rfl
  | _ => cases payload

theorem ofEntry?_of_single {kind : NodeKind} {component : Component}
    (payload : kind.payload = .single component) :
    ofEntry? source kind.name component.toJson = some kind := by
  cases kind with
  | bool value =>
      cases payload
      rfl
  | char unit =>
      cases payload
      exact congrArg (Option.map NodeKind.char) (Json.uint16?_ofNat unit)
  | int value =>
      cases payload
      exact congrArg (Option.map NodeKind.int) (Json.int32?_ofInt value)
  | long value =>
      cases payload
      exact congrArg (Option.map NodeKind.long) (Json.int64?_ofInt value)
  | float bits =>
      cases payload
      exact congrArg (Option.map NodeKind.float) (Json.uint32?_ofNat bits)
  | double bits =>
      cases payload
      exact congrArg (Option.map NodeKind.double) (Json.uint64?_ofNat bits)
  | string name =>
      cases payload
      exact congrArg (Option.map NodeKind.string) name.ofJson?_toJson
  | localRef declaration =>
      cases payload
      exact congrArg (Option.map NodeKind.localRef) declaration.ofJson?_toJson
  | paramRef declaration =>
      cases payload
      exact congrArg (Option.map NodeKind.paramRef) declaration.ofJson?_toJson
  | _ => cases payload

theorem ofEntry?_of_record {kind : NodeKind} {components : List (String × Component)}
    {written : List (Option Json)} {body : Json} (payload : kind.payload = .record components)
    (found : source.variant? (components.map Prod.fst) body = some written)
    (read : List.Forall₂ (fun field => Component.ReadFrom field.2) components written) :
    ofEntry? source kind.name body = some kind := by
  cases kind with
  | classLiteral | nativeFieldRef | nativeMethodRef | thisRef | newInstance | multi | classSeed =>
      cases payload
      obtain _ | ⟨⟨_, rfl, only⟩, _ | _⟩ := read
      simp only [List.map_cons, List.map_nil] at found
      simp only [name, ofEntry?, found, only, Option.bind_eq_bind, Option.bind_some]
      rfl
  | arrayRef | cast | instanceOf =>
      cases payload
      obtain _ | ⟨⟨_, rfl, first⟩, _ | ⟨⟨_, rfl, second⟩, _ | _⟩⟩ := read
      simp only [List.map_cons, List.map_nil] at found
      simp only [name, ofEntry?, found, first, second, Option.bind_eq_bind, Option.bind_some]
      rfl
  | prefixed | postfixed =>
      cases payload
      obtain _ | ⟨⟨_, rfl, op⟩, _ | ⟨⟨_, rfl, arg⟩, _ | _⟩⟩ := read
      simp only [List.map_cons, List.map_nil] at found
      simp only [name, ofEntry?, found, op, arg, PrefixOp.ofName?_name, PostfixOp.ofName?_name,
        Option.bind_eq_bind, Option.bind_some]
      rfl
  | binary =>
      cases payload
      obtain _ | ⟨⟨_, rfl, op⟩, _ | ⟨⟨_, rfl, lhs⟩, _ | ⟨⟨_, rfl, rhs⟩, _ | _⟩⟩⟩ := read
      simp only [List.map_cons, List.map_nil] at found
      simp only [name, ofEntry?, found, op, lhs, rhs, BinaryOp.ofName?_name, Option.bind_eq_bind,
        Option.bind_some]
      rfl
  | conditional | fieldRef | deferredCreate =>
      cases payload
      obtain _ | ⟨⟨_, rfl, first⟩, _ | ⟨⟨_, rfl, second⟩, _ | ⟨⟨_, rfl, third⟩, _ | _⟩⟩⟩ := read
      simp only [List.map_cons, List.map_nil] at found
      simp only [name, ofEntry?, found, first, second, third, Option.bind_eq_bind,
        Option.bind_some]
      rfl
  | methodCall =>
      cases payload
      obtain _ | ⟨⟨_, rfl, receiver⟩, _ | ⟨⟨_, rfl, target⟩, _ | ⟨⟨_, rfl, args⟩,
        _ | ⟨⟨_, rfl, polymorphic⟩, _ | _⟩⟩⟩⟩ := read
      simp only [List.map_cons, List.map_nil] at found
      simp only [name, ofEntry?, found, receiver, target, args, polymorphic, Option.bind_eq_bind,
        Option.bind_some]
      rfl
  | newArray =>
      cases payload
      obtain _ | ⟨⟨_, rfl, arrayType⟩, _ | ⟨dims, _ | ⟨initializers,
        _ | ⟨⟨_, rfl, classLiterals⟩, _ | _⟩⟩⟩⟩ := read
      simp only [List.map_cons, List.map_nil] at found
      simp only [Component.ReadFrom] at dims initializers
      simp only [name, ofEntry?, found, arrayType, dims, initializers, classLiterals,
        Option.bind_eq_bind, Option.bind_some]
      rfl
  | _ => cases payload

theorem nodup_fields {kind : NodeKind} {components : List (String × Component)}
    (payload : kind.payload = .record components) : (components.map Prod.fst).Nodup := by
  cases kind <;> cases payload <;> simp only [List.map_cons, List.map_nil] <;> decide

theorem ofJson?_of_savedAs {kind : NodeKind} {json : Json} (saved : kind.SavedAs json) :
    ofJson? source json = some kind := by
  unfold SavedAs at saved
  cases payload : kind.payload with
  | empty =>
      simp only [payload] at saved
      rw [saved]
      exact ofEntry?_of_empty source payload
  | single component =>
      simp only [payload] at saved
      rw [saved]
      exact ofEntry?_of_single source payload
  | record components =>
      simp only [payload] at saved
      obtain ⟨written, entries, fieldsSaved, holds, rfl⟩ := saved
      have lengths : (components.map Prod.fst).length = written.length :=
        (List.length_map _).trans fieldsSaved.length_eq
      exact ofEntry?_of_record source payload
        (source.variant?_of_holds (nodup_fields payload) lengths holds)
        (fieldsSaved.imp fun _field _json => Component.readFrom_of_savedAs)

end Source

/-! ### Texts -/

theorem regular_component (component : Component) : component.toJson.Regular := by
  cases component with
  | flag | operator => trivial
  | integer | handle | type | expr => exact Numeral.regular_ofInt _
  | exprs range | types range =>
      exact ⟨Numeral.regular_ofInt _, Numeral.regular_ofInt _, trivial⟩
  | exprsIfPresent range =>
      cases range with
      | none => trivial
      | some range => exact ⟨Numeral.regular_ofInt _, Numeral.regular_ofInt _, trivial⟩

theorem regular_toJson (kind : NodeKind) : kind.toJson.Regular := by
  unfold toJson
  cases kind.payload with
  | empty => trivial
  | single component => exact ⟨regular_component component, trivial⟩
  | record components =>
      refine ⟨Json.entriesRegular_iff.mpr fun entry member => ?_, trivial⟩
      obtain ⟨field, _inside, rfl⟩ := List.mem_map.mp member
      exact regular_component field.2

theorem load?_of_spells {kind : NodeKind} {json : Json} {text : String}
    (saved : kind.SavedAs json) (spelled : json.Spells text) : load? text = some kind := by
  rw [load?, spelled.parse?]
  exact ofJson?_of_savedAs .text saved

theorem load?_saved (kind : NodeKind) : load? kind.saved = some kind :=
  load?_of_spells kind.savedAs_toJson kind.regular_toJson.spells_text

theorem saved_kinds_load :
    (∀ kind : NodeKind, load? kind.saved = some kind) ∧
    (∀ (kind : NodeKind) (json : Json) (text : String),
      kind.SavedAs json → json.Spells text → load? text = some kind) ∧
    (∀ (source : Json.Source) (kind : NodeKind) (json : Json),
      kind.SavedAs json → ofJson? source json = some kind) ∧
    ∀ kind other : NodeKind, kind ≠ other → kind.saved ≠ other.saved := by
  refine ⟨load?_saved, fun kind json text => load?_of_spells,
    fun source kind json => ofJson?_of_savedAs source, fun kind other differ same => ?_⟩
  have loaded := kind.load?_saved
  rw [same, other.load?_saved] at loaded
  exact differ (Option.some.inj loaded).symm

def initialized : NodeKind := .newArray ⟨11⟩ none (some ⟨3, 2⟩) ⟨4294967295, 0⟩

def annotated : Json :=
  .object [("NewArray", .object [("note", .number ⟨true, 1, ['5', '0'], some 400⟩),
    ("class_literals", .object [("", .string "a\"\n"), ("len", .ofNat 0),
      ("start", .ofNat 4294967295)]),
    ("initializers", .object [("len", .ofNat 2), ("start", .ofNat 3)]),
    ("array_type", .ofNat 11)])]

theorem initialized_loads :
    load? initialized.saved = some initialized ∧
      initialized.SavedAs annotated ∧ annotated.Spells annotated.text ∧
      load? annotated.text = some initialized ∧
      ofJson? .value initialized.toJson = some initialized ∧
      initialized ≠ .multi ⟨3, 2⟩ ∧ initialized.saved ≠ (NodeKind.multi ⟨3, 2⟩).saved := by
  have initializersSaved : ListRange.SavedAs (⟨3, 2⟩ : ExprRange)
      (.object [("len", .ofNat 2), ("start", .ofNat 3)]) :=
    ⟨_, rfl, [], List.reverse_perm [_, _], by rintro entry ⟨⟩⟩
  have classLiteralsSaved : ListRange.SavedAs (⟨4294967295, 0⟩ : ExprRange)
      (.object [("", .string "a\"\n"), ("len", .ofNat 0), ("start", .ofNat 4294967295)]) := by
    refine ⟨_, rfl, [("", .string "a\"\n")], List.reverse_perm [_, _, _], fun entry member => ?_⟩
    rw [List.mem_singleton.mp member]
    exact ⟨⟨"", rfl, by decide⟩, trivial⟩
  have saved : initialized.SavedAs annotated := by
    refine ⟨[some (.ofNat 11), none, some _, some _], _,
      .cons rfl (.cons (.inl rfl) (.cons ⟨_, rfl, initializersSaved⟩
        (.cons ⟨_, rfl, classLiteralsSaved⟩ .nil))),
      ⟨[("note", _)], List.reverse_perm [_, _, _, _], ?_⟩, rfl⟩
    intro entry member
    rw [List.mem_singleton.mp member]
    exact ⟨⟨"note", rfl, by decide⟩, trivial⟩
  have regular : annotated.Regular := by
    have own := Numeral.regular_ofInt
    have noted : (⟨true, 1, ['5', '0'], some 400⟩ : Numeral).Regular := by
      simp [Numeral.Regular]
    exact ⟨⟨noted, ⟨trivial, own _, own _, trivial⟩, ⟨own _, own _, trivial⟩, own _, trivial⟩,
      trivial⟩
  obtain ⟨loads, loadsRearranged, loadsKept, apart⟩ := saved_kinds_load
  have differ : initialized ≠ .multi ⟨3, 2⟩ := nofun
  exact ⟨loads initialized, saved, regular.spells_text,
    loadsRearranged initialized annotated _ saved regular.spells_text,
    loadsKept .value initialized _ initialized.savedAs_toJson, differ, apart _ _ differ⟩

end NodeKind

end CompilerIR
