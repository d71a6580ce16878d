import CompilerIR.Node.Text
import CompilerIR.Proofs.Node.Saved
import CompilerIR.Proofs.Text.Identity

/-!
Texts of kinds and nodes. Main statement: equal texts are texts of equal nodes, whatever these
hold.

The name of a kind fixes which components follow and of what sort. So the components of two kinds
are compared only where their names agree, and a number never has to be told from a name.
-/

namespace CompilerIR

open Text (Breaks IsWord Unambiguous)

/-! ### Components -/

inductive ComponentSort
  | flag
  | integer
  | operator
  | handle (table : Table)
  | type
  | expr
  | exprs
  | exprsIfPresent
  | types
deriving DecidableEq

namespace Component

def sort : Component → ComponentSort
  | .flag _ => .flag
  | .integer _ => .integer
  | .operator _ => .operator
  | .handle table _ => .handle table
  | .type _ => .type
  | .expr _ => .expr
  | .exprs _ => .exprs
  | .exprsIfPresent _ => .exprsIfPresent
  | .types _ => .types

def IsPlain : Component → Prop
  | .operator name => IsWord name
  | _ => True

/-- Of one sort, and none of them an operator whose name would have to be quoted. -/
structure Alike (left right : Component) : Prop where
  sort : left.sort = right.sort
  leftPlain : left.IsPlain
  rightPlain : right.IsPlain

theorem unambiguous_exprsIfPresent :
    Unambiguous fun range : Option ExprRange => (exprsIfPresent range).text := by
  have present : Unambiguous fun range => (exprsIfPresent (some range)).text :=
    ((ListRange.unambiguous_text "ExprRange").labelled "Some(").closed ")" (by decide)
  intro left right rest others breaks othersBreak same
  cases left with
  | none =>
      cases right with
      | none => exact ⟨rfl, (String.append_right_inj "None").mp same⟩
      | some range =>
          simp only [text, String.append_assoc] at same
          exact absurd same (Text.append_ne_append (by decide) _ _)
  | some range =>
      cases right with
      | none =>
          simp only [text, String.append_assoc] at same
          exact absurd same (Text.append_ne_append (by decide) _ _)
      | some other => exact (present breaks othersBreak same).imp_left (congrArg some)

theorem eq_of_text {left right : Component} {rest others : String} (alike : Alike left right)
    (breaks : Breaks rest) (othersBreak : Breaks others)
    (same : left.text ++ rest = right.text ++ others) : left = right ∧ rest = others := by
  obtain ⟨sort, leftPlain, rightPlain⟩ := alike
  cases left with
  | flag value =>
      cases right with
      | flag other =>
          exact (Text.unambiguous_boolean breaks othersBreak same).imp_left (congrArg flag)
      | _ => cases sort
  | integer value =>
      cases right with
      | integer other =>
          exact (Text.unambiguous_signedDecimal breaks othersBreak same).imp_left (congrArg integer)
      | _ => cases sort
  | operator name =>
      cases right with
      | operator other =>
          exact (Text.eq_of_words leftPlain rightPlain breaks othersBreak same).imp_left
            (congrArg operator)
      | _ => cases sort
  | handle table value =>
      cases right with
      | handle table₂ other =>
          cases sort
          exact (Handle.unambiguous_text table breaks othersBreak same).imp_left
            (congrArg (handle table))
      | _ => cases sort
  | type value =>
      cases right with
      | type other => exact (TypeId.unambiguous_text breaks othersBreak same).imp_left (congrArg type)
      | _ => cases sort
  | expr value =>
      cases right with
      | expr other => exact (ExprId.unambiguous_text breaks othersBreak same).imp_left (congrArg expr)
      | _ => cases sort
  | exprs value =>
      cases right with
      | exprs other =>
          exact (ListRange.unambiguous_text "ExprRange" breaks othersBreak same).imp_left
            (congrArg exprs)
      | _ => cases sort
  | exprsIfPresent value =>
      cases right with
      | exprsIfPresent other =>
          exact (unambiguous_exprsIfPresent breaks othersBreak same).imp_left
            (congrArg exprsIfPresent)
      | _ => cases sort
  | types value =>
      cases right with
      | types other =>
          exact (ListRange.unambiguous_text "TypeRange" breaks othersBreak same).imp_left
            (congrArg types)
      | _ => cases sort

end Component

/-! ### Payloads -/

inductive PayloadShape
  | empty
  | single (sort : ComponentSort)
  | record (parts : List (String × ComponentSort))

namespace Payload

def shape : Payload → PayloadShape
  | .empty => .empty
  | .single component => .single component.sort
  | .record parts => .record (parts.map fun part => (part.1, part.2.sort))

def components : Payload → List Component
  | .empty => []
  | .single component => [component]
  | .record parts => parts.map Prod.snd

def partText (part : String × Component) : String := part.1 ++ (": " ++ part.2.text)

def text : Payload → String
  | .empty => ""
  | .single component => "(" ++ component.text ++ ")"
  | .record parts => " \x7b " ++ ", ".intercalate (parts.map partText) ++ " \x7d"

theorem breaks_text (payload : Payload) {rest : String} (breaks : Breaks rest) :
    Breaks (payload.text ++ rest) := by
  cases payload with
  | empty => rwa [text, String.empty_append]
  | single component =>
      simp only [text, String.append_assoc]
      exact Text.breaks_append (by decide) _
  | record parts =>
      simp only [text, String.append_assoc]
      exact Text.breaks_append (by decide) _

/-- Parts are alike as soon as their names and sorts are the same in the same order. -/
theorem alike_parts {left right : List (String × Component)}
    (shape : (left.map fun part => (part.1, part.2.sort)) =
      right.map fun part => (part.1, part.2.sort))
    (leftPlain : ∀ component ∈ left.map Prod.snd, component.IsPlain)
    (rightPlain : ∀ component ∈ right.map Prod.snd, component.IsPlain) :
    List.Forall₂ (fun left right => left.1 = right.1 ∧ Component.Alike left.2 right.2)
      left right := by
  rw [← List.forall₂_eq_eq_eq, List.forall₂_map_left_iff, List.forall₂_map_right_iff,
    List.forall₂_iff_zip] at shape
  obtain ⟨lengths, shapes⟩ := shape
  refine List.forall₂_iff_zip.mpr ⟨lengths, fun {part other} pair => ?_⟩
  obtain ⟨name, sort⟩ := Prod.mk.inj (shapes pair)
  obtain ⟨partInside, otherInside⟩ := List.of_mem_zip pair
  exact ⟨name, sort, leftPlain _ (List.mem_map_of_mem partInside),
    rightPlain _ (List.mem_map_of_mem otherInside)⟩

theorem eq_of_partText ⦃left right : String × Component⦄ ⦃rest others : String⦄
    (alike : left.1 = right.1 ∧ Component.Alike left.2 right.2) (breaks : Breaks rest)
    (othersBreak : Breaks others) (same : partText left ++ rest = partText right ++ others) :
    left = right ∧ rest = others := by
  obtain ⟨name, component⟩ := left
  obtain ⟨name₂, component₂⟩ := right
  obtain ⟨rfl, alike⟩ := alike
  simp only [partText, String.append_assoc, String.append_right_inj] at same
  exact (Component.eq_of_text alike breaks othersBreak same).imp_left (congrArg _)

theorem eq_of_text {left right : Payload} {rest others : String} (shape : left.shape = right.shape)
    (leftPlain : ∀ component ∈ left.components, component.IsPlain)
    (rightPlain : ∀ component ∈ right.components, component.IsPlain)
    (same : left.text ++ rest = right.text ++ others) : left = right ∧ rest = others := by
  cases left with
  | empty =>
      cases right with
      | empty => exact ⟨rfl, (String.append_right_inj "").mp same⟩
      | _ => cases shape
  | single component =>
      cases right with
      | single other =>
          have alike : Component.Alike component other :=
            ⟨PayloadShape.single.inj shape, leftPlain _ (List.mem_singleton_self _),
              rightPlain _ (List.mem_singleton_self _)⟩
          simp only [text, String.append_assoc, String.append_right_inj] at same
          obtain ⟨rfl, tail⟩ := Component.eq_of_text alike (Text.breaks_append (by decide) _)
            (Text.breaks_append (by decide) _) same
          exact ⟨rfl, (String.append_right_inj ")").mp tail⟩
      | _ => cases shape
  | record parts =>
      cases right with
      | record otherParts =>
          have alike := alike_parts (PayloadShape.record.inj shape) leftPlain rightPlain
          simp only [text, String.append_assoc, String.append_right_inj] at same
          obtain ⟨rfl, tail⟩ := Text.eq_of_intercalate (by decide) eq_of_partText alike
            (Text.breaks_append (by decide) _) (Text.breaks_append (by decide) _) same
          exact ⟨rfl, (String.append_right_inj " \x7d").mp tail⟩
      | _ => cases shape

end Payload

/-! ### Kinds -/

theorem BinaryOp.isWord_name (op : BinaryOp) : IsWord op.name := by
  rcases op with (_ | _) | _ | _ | _ | _ | _ | _ | _ | _ | _ | (_ | _) <;> decide

theorem PrefixOp.isWord_name (op : PrefixOp) : IsWord op.name := by
  cases op <;> decide

theorem PostfixOp.isWord_name (op : PostfixOp) : IsWord op.name := by
  cases op <;> decide

namespace NodeKind

theorem isWord_name (kind : NodeKind) : IsWord kind.name := by
  cases kind <;> dsimp only [name] <;> decide

theorem isPlain_components (kind : NodeKind) :
    ∀ component ∈ kind.payload.components, component.IsPlain := by
  rw [← List.forall_iff_forall_mem]
  cases kind with
  | binary op => exact ⟨op.isWord_name, trivial, trivial⟩
  | prefixed op => exact ⟨op.isWord_name, trivial⟩
  | postfixed op => exact ⟨op.isWord_name, trivial⟩
  | _ => simp [payload, Payload.components, Component.IsPlain]

def samples : List NodeKind :=
  [.bool false, .char 0, .int 0, .long 0, .float 0, .double 0, .string ⟨0⟩, .null,
    .absentArrayDimension, .classLiteral .void, .nativeFieldRef ⟨0⟩, .nativeMethodRef ⟨0⟩,
    .thisRef .void, .localRef ⟨0⟩, .paramRef ⟨0⟩, .arrayRef default default,
    .binary .lt default default, .prefixed .inc default, .postfixed .inc default,
    .cast .void default, .instanceOf .void default, .conditional default default default,
    .fieldRef default ⟨0⟩ .void, .methodCall default ⟨0⟩ .empty false, .newInstance .void,
    .newArray .void none none .empty, .multi .empty, .classSeed .void,
    .deferredCreate .void .empty .empty]

theorem shape_of_name (kind : NodeKind) :
    (samples.find? (·.name = kind.name)).map (·.payload.shape) = some kind.payload.shape := by
  cases kind <;> rfl

theorem shape_eq_of_name {left right : NodeKind} (name : left.name = right.name) :
    left.payload.shape = right.payload.shape := by
  rw [← Option.some.injEq, ← shape_of_name, ← shape_of_name, name]

theorem text_eq_name_append (kind : NodeKind) : kind.text = kind.name ++ kind.payload.text := by
  unfold text
  cases kind.payload with
  | empty => exact String.append_empty.symm
  | single component => simp only [Payload.text, String.append_assoc]
  | record parts =>
      simp only [Payload.text, Text.record, List.map_map, String.append_assoc]
      rfl

theorem eq_of_name_payload {left right : NodeKind} (name : left.name = right.name)
    (payload : left.payload = right.payload) : left = right := by
  have saved : left.toJson = right.toJson := by
    unfold toJson
    rw [name, payload]
  have loaded := ofJson?_of_savedAs .text left.savedAs_toJson
  rw [saved, ofJson?_of_savedAs .text right.savedAs_toJson] at loaded
  exact (Option.some.inj loaded).symm

theorem unambiguous_text : Unambiguous text := by
  intro left right rest others breaks othersBreak same
  simp only [text_eq_name_append, String.append_assoc] at same
  obtain ⟨name, payloads⟩ := Text.eq_of_words left.isWord_name right.isWord_name
    (left.payload.breaks_text breaks) (right.payload.breaks_text othersBreak) same
  obtain ⟨payload, tail⟩ := Payload.eq_of_text (shape_eq_of_name name) left.isPlain_components
    right.isPlain_components payloads
  exact ⟨eq_of_name_payload name payload, tail⟩

end NodeKind

/-! ### Nodes -/

namespace Node

theorem parts_injective :
    Function.Injective fun node : Node => ((node.kind, node.type), node.span) := by
  rintro ⟨kind, span, type⟩ ⟨kind₂, span₂, type₂⟩ same
  cases same
  rfl

theorem unambiguous_text : Unambiguous text := by
  have parts := (NodeKind.unambiguous_text.pair ": " (by decide) TypeId.unambiguous_text).pair " @ "
    (by decide) Span.unambiguous_text
  have read := parts.comp (fun node : Node => ((node.kind, node.type), node.span)) parts_injective
  exact read

theorem text_eq_iff (left right : Node) : left.text = right.text ↔ left = right :=
  unambiguous_text.injective.eq_iff

end Node

end CompilerIR
