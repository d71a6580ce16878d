import CompilerIR.Node.Slot
import Mathlib.Data.List.Forall2

/-!
Forms: kinds of expressions with values of any type in the place of the identities and
ranges through which they hold their children. Main statement: filling the slots of a kind
anew changes its form in these places only.
-/

namespace CompilerIR

inductive Form (α : Type)
  | bool (value : Bool)
  | char (unit : UInt16)
  | int (value : Int32)
  | long (value : Int64)
  | float (bits : UInt32)
  | double (bits : UInt64)
  | string (name : Name)
  | null
  | absentArrayDimension
  | classLiteral (refType : TypeId)
  | nativeFieldRef (field : FieldId)
  | nativeMethodRef (method : MethodId)
  | thisRef (classType : TypeId)
  | localRef (declaration : LocalId)
  | paramRef (declaration : ParamId)
  | arrayRef (receiver index : α)
  | binary (op : BinaryOp) (lhs rhs : α)
  | prefixed (op : PrefixOp) (arg : α)
  | postfixed (op : PostfixOp) (arg : α)
  | cast (castType : TypeId) (expr : α)
  | instanceOf (testType : TypeId) (expr : α)
  | conditional (test thenExpr elseExpr : α)
  | fieldRef (receiver : α) (field : FieldId) (enclosingType : TypeId)
  | methodCall (receiver : α) (target : MethodId) (args : List α) (polymorphic : Bool)
  | newInstance (classType : TypeId)
  | newArray (arrayType : TypeId) (dims initializers : Option (List α)) (classLiterals : ExprRange)
  | multi (exprs : List α)
  | classSeed (refType : TypeId)
  | deferredCreate (sourceType : TypeId) (resultTypes : TypeRange) (instantiations : List α)

def Form.map {α β : Type} (change : α → β) : Form α → Form β
  | .bool value => .bool value
  | .char unit => .char unit
  | .int value => .int value
  | .long value => .long value
  | .float bits => .float bits
  | .double bits => .double bits
  | .string name => .string name
  | .null => .null
  | .absentArrayDimension => .absentArrayDimension
  | .classLiteral refType => .classLiteral refType
  | .nativeFieldRef field => .nativeFieldRef field
  | .nativeMethodRef method => .nativeMethodRef method
  | .thisRef classType => .thisRef classType
  | .localRef declaration => .localRef declaration
  | .paramRef declaration => .paramRef declaration
  | .arrayRef receiver index => .arrayRef (change receiver) (change index)
  | .binary op lhs rhs => .binary op (change lhs) (change rhs)
  | .prefixed op arg => .prefixed op (change arg)
  | .postfixed op arg => .postfixed op (change arg)
  | .cast castType expr => .cast castType (change expr)
  | .instanceOf testType expr => .instanceOf testType (change expr)
  | .conditional test thenExpr elseExpr =>
      .conditional (change test) (change thenExpr) (change elseExpr)
  | .fieldRef receiver field enclosingType => .fieldRef (change receiver) field enclosingType
  | .methodCall receiver target args polymorphic =>
      .methodCall (change receiver) target (args.map change) polymorphic
  | .newInstance classType => .newInstance classType
  | .newArray arrayType dims initializers classLiterals =>
      .newArray arrayType (dims.map (List.map change)) (initializers.map (List.map change))
        classLiterals
  | .multi exprs => .multi (exprs.map change)
  | .classSeed refType => .classSeed refType
  | .deferredCreate sourceType resultTypes instantiations =>
      .deferredCreate sourceType resultTypes (instantiations.map change)

theorem Form.map_id' {α : Type} (form : Form α) : form.map (fun value => value) = form := by
  cases form <;> simp [Form.map]

structure SlotReader (α : Type) where
  child : ExprId → Option α
  list : ExprRange → Option (List α)

def SlotReader.listIfPresent {α : Type} (reader : SlotReader α) :
    Option ExprRange → Option (Option (List α))
  | none => some none
  | some range => (reader.list range).map some

def NodeKind.form? {α : Type} (reader : SlotReader α) : NodeKind → Option (Form α)
  | .bool value => some (.bool value)
  | .char unit => some (.char unit)
  | .int value => some (.int value)
  | .long value => some (.long value)
  | .float bits => some (.float bits)
  | .double bits => some (.double bits)
  | .string name => some (.string name)
  | .null => some .null
  | .absentArrayDimension => some .absentArrayDimension
  | .classLiteral refType => some (.classLiteral refType)
  | .nativeFieldRef field => some (.nativeFieldRef field)
  | .nativeMethodRef method => some (.nativeMethodRef method)
  | .thisRef classType => some (.thisRef classType)
  | .localRef declaration => some (.localRef declaration)
  | .paramRef declaration => some (.paramRef declaration)
  | .arrayRef receiver index =>
      return .arrayRef (← reader.child receiver) (← reader.child index)
  | .binary op lhs rhs => return .binary op (← reader.child lhs) (← reader.child rhs)
  | .prefixed op arg => return .prefixed op (← reader.child arg)
  | .postfixed op arg => return .postfixed op (← reader.child arg)
  | .cast castType expr => return .cast castType (← reader.child expr)
  | .instanceOf testType expr => return .instanceOf testType (← reader.child expr)
  | .conditional test thenExpr elseExpr =>
      return .conditional (← reader.child test) (← reader.child thenExpr) (← reader.child elseExpr)
  | .fieldRef receiver field enclosingType =>
      return .fieldRef (← reader.child receiver) field enclosingType
  | .methodCall receiver target args polymorphic =>
      return .methodCall (← reader.child receiver) target (← reader.list args) polymorphic
  | .newInstance classType => some (.newInstance classType)
  | .newArray arrayType dims initializers classLiterals =>
      return .newArray arrayType (← reader.listIfPresent dims) (← reader.listIfPresent initializers)
        classLiterals
  | .multi exprs => return .multi (← reader.list exprs)
  | .classSeed refType => some (.classSeed refType)
  | .deferredCreate sourceType resultTypes instantiations =>
      return .deferredCreate sourceType resultTypes (← reader.list instantiations)

def SlotReader.Reads {α : Type} (reader : SlotReader α) : Slot → Prop
  | .child id => ∃ value, reader.child id = some value
  | .list range => ∃ values, reader.list range = some values

/-- What `copy` holds to one reader is what `slot` holds to another, changed. -/
inductive SlotReader.Relates {α β : Type} (reader : SlotReader α) (copyReader : SlotReader β)
    (change : α → β) : Slot → Slot → Prop
  | child {id copy : ExprId} {value : α} (held : reader.child id = some value)
      (kept : copyReader.child copy = some (change value)) :
      Relates reader copyReader change (.child id) (.child copy)
  | list {range copy : ExprRange} {values : List α} (held : reader.list range = some values)
      (kept : copyReader.list copy = some (values.map change)) :
      Relates reader copyReader change (.list range) (.list copy)

inductive Slot.Alike : Slot → Slot → Prop
  | child (id copy : ExprId) : Alike (.child id) (.child copy)
  | list (range copy : ExprRange) : Alike (.list range) (.list copy)

namespace NodeKind

variable {α β : Type} {reader : SlotReader α} {copyReader : SlotReader β} {change : α → β}

/-- Filling the slots anew shows in them and in no other part of the form. -/
theorem form?_withSlots {kind : NodeKind} {filled : List Slot}
    (related : List.Forall₂ (reader.Relates copyReader change) kind.slots filled) :
    (kind.withSlots filled).slots = filled ∧
      ∃ form, kind.form? reader = some form ∧
        (kind.withSlots filled).form? copyReader = some (form.map change) := by
  -- The kinds go together by the number and sort of their slots.
  cases kind with
  | prefixed _ _ | postfixed _ _ | cast _ _ | instanceOf _ _ | fieldRef _ _ _ =>
      rcases related with _ | ⟨⟨held, kept⟩, ⟨⟩⟩
      simp [form?, withSlots, slots, Form.map, held, kept]
  | arrayRef _ _ | binary _ _ _ =>
      rcases related with _ | ⟨⟨held, kept⟩, _ | ⟨⟨lastHeld, lastKept⟩, ⟨⟩⟩⟩
      simp [form?, withSlots, slots, Form.map, held, kept, lastHeld, lastKept]
  | conditional _ _ _ =>
      rcases related with _ | ⟨⟨held, kept⟩, _ | ⟨⟨nextHeld, nextKept⟩,
        _ | ⟨⟨lastHeld, lastKept⟩, ⟨⟩⟩⟩⟩
      simp [form?, withSlots, slots, Form.map, held, kept, nextHeld, nextKept, lastHeld, lastKept]
  | methodCall _ _ _ _ =>
      rcases related with _ | ⟨⟨held, kept⟩, _ | ⟨_ | ⟨argsHeld, argsKept⟩, ⟨⟩⟩⟩
      simp [form?, withSlots, slots, Form.map, held, kept, argsHeld, argsKept]
  | multi _ | deferredCreate _ _ _ =>
      rcases related with _ | ⟨_ | ⟨held, kept⟩, ⟨⟩⟩
      simp [form?, withSlots, slots, Form.map, held, kept]
  | newArray _ dims initializers _ =>
      cases dims with
      | none =>
          cases initializers with
          | none =>
              rcases related with ⟨⟩
              exact ⟨rfl, _, rfl, rfl⟩
          | some initializers =>
              rcases related with _ | ⟨_ | ⟨held, kept⟩, ⟨⟩⟩
              simp [form?, SlotReader.listIfPresent, withSlots, slots, Form.map, held, kept]
      | some dims =>
          cases initializers with
          | none =>
              rcases related with _ | ⟨_ | ⟨held, kept⟩, ⟨⟩⟩
              simp [form?, SlotReader.listIfPresent, withSlots, slots, Form.map, held, kept]
          | some initializers =>
              rcases related with _ | ⟨_ | ⟨held, kept⟩, _ | ⟨_ | ⟨lastHeld, lastKept⟩, ⟨⟩⟩⟩
              simp [form?, SlotReader.listIfPresent, withSlots, slots, Form.map, held, kept,
                lastHeld, lastKept]
  | _ =>
      rcases related with ⟨⟩
      exact ⟨rfl, _, rfl, rfl⟩

/-- Slots can be filled anew with any of their own sorts. -/
theorem slots_withSlots {kind : NodeKind} {filled : List Slot}
    (alike : List.Forall₂ Slot.Alike kind.slots filled) :
    (kind.withSlots filled).slots = filled := by
  -- What stands in the slots does not matter, so everything is read as the same.
  let reader : SlotReader Unit := ⟨fun _ => some (), fun _ => some []⟩
  have related : List.Forall₂ (reader.Relates reader fun value => value) kind.slots filled := by
    apply alike.imp
    rintro slot other (_ | _)
    · exact .child rfl rfl
    · exact .list rfl rfl
  exact (form?_withSlots related).1

theorem form?_of_reads {kind : NodeKind} (reads : ∀ slot ∈ kind.slots, reader.Reads slot) :
    ∃ form, kind.form? reader = some form := by
  have related (slot : Slot) (member : slot ∈ kind.slots) :
      reader.Relates reader (fun value => value) slot slot := by
    cases slot with
    | child id =>
        obtain ⟨value, held⟩ := reads (.child id) member
        exact .child held held
    | list range =>
        obtain ⟨values, held⟩ := reads (.list range) member
        exact .list held (by rw [held, List.map_id'])
  obtain ⟨_, form, formed, _⟩ := form?_withSlots (List.forall₂_same.mpr related)
  exact ⟨form, formed⟩

private theorem listIfPresent_reads {range : Option ExprRange} {values : Option (List α)}
    (held : reader.listIfPresent range = some values) :
    ∀ present ∈ range, reader.Reads (.list present) := by
  intro present same
  cases same
  obtain ⟨entries, entriesHeld, _⟩ := Option.map_eq_some_iff.mp held
  exact ⟨entries, entriesHeld⟩

theorem reads_of_form? {kind : NodeKind} {form : Form α} (formed : kind.form? reader = some form) :
    ∀ slot ∈ kind.slots, reader.Reads slot := by
  intro slot member
  cases kind with
  | prefixed _ _ | postfixed _ _ | cast _ _ | instanceOf _ _ | fieldRef _ _ _ =>
      obtain ⟨value, held, _⟩ := Option.bind_eq_some_iff.mp formed
      rcases List.mem_singleton.mp member with rfl
      exact ⟨value, held⟩
  | multi _ | deferredCreate _ _ _ =>
      obtain ⟨values, held, _⟩ := Option.bind_eq_some_iff.mp formed
      rcases List.mem_singleton.mp member with rfl
      exact ⟨values, held⟩
  | arrayRef _ _ | binary _ _ _ =>
      obtain ⟨value, held, rest⟩ := Option.bind_eq_some_iff.mp formed
      obtain ⟨lastValue, lastHeld, _⟩ := Option.bind_eq_some_iff.mp rest
      rcases List.mem_pair.mp member with rfl | rfl
      · exact ⟨value, held⟩
      · exact ⟨lastValue, lastHeld⟩
  | conditional _ _ _ =>
      obtain ⟨value, held, rest⟩ := Option.bind_eq_some_iff.mp formed
      obtain ⟨nextValue, nextHeld, rest⟩ := Option.bind_eq_some_iff.mp rest
      obtain ⟨lastValue, lastHeld, _⟩ := Option.bind_eq_some_iff.mp rest
      simp only [slots, List.mem_cons, List.not_mem_nil, or_false] at member
      rcases member with rfl | rfl | rfl
      · exact ⟨value, held⟩
      · exact ⟨nextValue, nextHeld⟩
      · exact ⟨lastValue, lastHeld⟩
  | methodCall _ _ _ _ =>
      obtain ⟨value, held, rest⟩ := Option.bind_eq_some_iff.mp formed
      obtain ⟨args, argsHeld, _⟩ := Option.bind_eq_some_iff.mp rest
      rcases List.mem_pair.mp member with rfl | rfl
      · exact ⟨value, held⟩
      · exact ⟨args, argsHeld⟩
  | newArray _ dims initializers _ =>
      obtain ⟨values, held, rest⟩ := Option.bind_eq_some_iff.mp formed
      obtain ⟨lastValues, lastHeld, _⟩ := Option.bind_eq_some_iff.mp rest
      simp only [slots, List.mem_append, List.mem_map, Option.mem_toList] at member
      rcases member with ⟨present, same, rfl⟩ | ⟨present, same, rfl⟩
      · exact listIfPresent_reads held present same
      · exact listIfPresent_reads lastHeld present same
  | _ => cases member

theorem form?_of_some {laterReader : SlotReader α} {kind : NodeKind} {form : Form α}
    (child : ∀ id value, reader.child id = some value → laterReader.child id = some value)
    (list : ∀ range values,
      reader.list range = some values → laterReader.list range = some values)
    (formed : kind.form? reader = some form) : kind.form? laterReader = some form := by
  have related (slot : Slot) (member : slot ∈ kind.slots) :
      reader.Relates laterReader (fun value => value) slot slot := by
    have read := reads_of_form? formed slot member
    cases slot with
    | child id =>
        obtain ⟨value, held⟩ := read
        exact .child held (child id value held)
    | list range =>
        obtain ⟨values, held⟩ := read
        exact .list held (by rw [list range values held, List.map_id'])
  obtain ⟨_, same, formedToo, formedLater⟩ := form?_withSlots (List.forall₂_same.mpr related)
  rw [formed] at formedToo
  cases formedToo
  rwa [withSlots_slots, Form.map_id'] at formedLater

end NodeKind

end CompilerIR
