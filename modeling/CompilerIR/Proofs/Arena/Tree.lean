import CompilerIR.Clone.Rule
import CompilerIR.Proofs.Arena.Reference
import CompilerIR.Proofs.Node.Form

/-!
Trees unfolded from an arena. A tree shows what an expression is and nothing of where its
nodes and lists are kept, so that it can be compared with its copy.
-/

namespace CompilerIR

inductive Tree
  /-- Nothing stands here, as in the receiver of a static call. -/
  | empty
  | node (form : Form Tree) (span : Span) (type : TypeId)

/-- The type that a copy of an expression is declared with: references to the current
object have that of their class, and seeds that of the root of the hierarchy. -/
def Form.typeOfCopy {α : Type} : Form α → TypeId → TypeId
  | .thisRef classType, _ => classType
  | .classSeed _, _ => .root
  | _, type => type

namespace Tree

mutual

def retyped : Tree → Tree
  | .empty => .empty
  | .node form span type => .node (retypedForm form) span (form.typeOfCopy type)
termination_by structural tree => tree

def retypedForm : Form Tree → Form Tree
  | .arrayRef receiver index => .arrayRef receiver.retyped index.retyped
  | .binary op lhs rhs => .binary op lhs.retyped rhs.retyped
  | .prefixed op arg => .prefixed op arg.retyped
  | .postfixed op arg => .postfixed op arg.retyped
  | .cast castType expr => .cast castType expr.retyped
  | .instanceOf testType expr => .instanceOf testType expr.retyped
  | .conditional test thenExpr elseExpr =>
      .conditional test.retyped thenExpr.retyped elseExpr.retyped
  | .fieldRef receiver field enclosingType => .fieldRef receiver.retyped field enclosingType
  | .methodCall receiver target args polymorphic =>
      .methodCall receiver.retyped target (retypedList args) polymorphic
  | .newArray arrayType dims initializers classLiterals =>
      .newArray arrayType (retypedIfPresent dims) (retypedIfPresent initializers) classLiterals
  | .multi exprs => .multi (retypedList exprs)
  | .deferredCreate sourceType resultTypes instantiations =>
      .deferredCreate sourceType resultTypes (retypedList instantiations)
  | form => form
termination_by structural form => form

def retypedIfPresent : Option (List Tree) → Option (List Tree)
  | none => none
  | some trees => some (retypedList trees)
termination_by structural trees => trees

def retypedList : List Tree → List Tree
  | [] => []
  | tree :: trees => tree.retyped :: retypedList trees
termination_by structural trees => trees

end

theorem retypedList_eq_map (trees : List Tree) : retypedList trees = trees.map retyped := by
  induction trees with
  | nil => rfl
  | cons tree rest inductionHypothesis =>
      rw [retypedList, inductionHypothesis]
      rfl

theorem retypedIfPresent_eq_map (trees : Option (List Tree)) :
    retypedIfPresent trees = trees.map (List.map retyped) := by
  cases trees with
  | none => rfl
  | some trees => simp only [retypedIfPresent, retypedList_eq_map, Option.map_some]

theorem retypedForm_eq_map (form : Form Tree) : retypedForm form = form.map retyped := by
  cases form <;> simp only [retypedForm, Form.map, retypedList_eq_map, retypedIfPresent_eq_map]

theorem retyped_node (form : Form Tree) (span : Span) (type : TypeId) :
    (Tree.node form span type).retyped =
      .node (form.map retyped) span (form.typeOfCopy type) := by
  rw [retyped, retypedForm_eq_map]

theorem typeOfCopy_retypedForm (form : Form Tree) (type : TypeId) :
    (retypedForm form).typeOfCopy (form.typeOfCopy type) = form.typeOfCopy type := by
  cases form <;> rfl

mutual

/-- A copy has the types of a copy. -/
theorem retyped_retyped : (tree : Tree) → tree.retyped.retyped = tree.retyped
  | .empty => rfl
  | .node form span type => by
      rw [retyped, retyped, retypedForm_retypedForm form, typeOfCopy_retypedForm]

theorem retypedForm_retypedForm : (form : Form Tree) →
    retypedForm (retypedForm form) = retypedForm form
  | .arrayRef receiver index => by
      rw [retypedForm, retypedForm, retyped_retyped receiver, retyped_retyped index]
  | .binary op lhs rhs => by
      rw [retypedForm, retypedForm, retyped_retyped lhs, retyped_retyped rhs]
  | .prefixed op arg => by rw [retypedForm, retypedForm, retyped_retyped arg]
  | .postfixed op arg => by rw [retypedForm, retypedForm, retyped_retyped arg]
  | .cast castType expr => by rw [retypedForm, retypedForm, retyped_retyped expr]
  | .instanceOf testType expr => by rw [retypedForm, retypedForm, retyped_retyped expr]
  | .conditional test thenExpr elseExpr => by
      rw [retypedForm, retypedForm, retyped_retyped test, retyped_retyped thenExpr,
        retyped_retyped elseExpr]
  | .fieldRef receiver field enclosingType => by
      rw [retypedForm, retypedForm, retyped_retyped receiver]
  | .methodCall receiver target args polymorphic => by
      rw [retypedForm, retypedForm, retyped_retyped receiver, retypedList_retypedList args]
  | .newArray arrayType dims initializers classLiterals => by
      rw [retypedForm, retypedForm, retypedIfPresent_retypedIfPresent dims,
        retypedIfPresent_retypedIfPresent initializers]
  | .multi exprs => by rw [retypedForm, retypedForm, retypedList_retypedList exprs]
  | .deferredCreate sourceType resultTypes instantiations => by
      rw [retypedForm, retypedForm, retypedList_retypedList instantiations]
  | .bool _ | .char _ | .int _ | .long _ | .float _ | .double _ | .string _ | .null
  | .absentArrayDimension | .classLiteral _ | .nativeFieldRef _ | .nativeMethodRef _
  | .thisRef _ | .localRef _ | .paramRef _ | .newInstance _ | .classSeed _ => rfl

theorem retypedIfPresent_retypedIfPresent : (trees : Option (List Tree)) →
    retypedIfPresent (retypedIfPresent trees) = retypedIfPresent trees
  | none => rfl
  | some trees => by
      rw [retypedIfPresent, retypedIfPresent, retypedList_retypedList trees]

theorem retypedList_retypedList : (trees : List Tree) →
    retypedList (retypedList trees) = retypedList trees
  | [] => rfl
  | tree :: trees => by
      rw [retypedList, retypedList, retyped_retyped tree, retypedList_retypedList trees]

end

end Tree

theorem NodeKind.typeOfCopy_of_form? {α : Type} {reader : SlotReader α} {node : Node}
    {form : Form α} (found : node.kind.form? reader = some form) :
    form.typeOfCopy node.type = node.copyType := by
  obtain ⟨kind, span, type⟩ := node
  cases kind <;>
    simp only [form?, Option.bind_eq_bind, Option.bind_eq_some_iff, Option.pure_def,
      Option.some.injEq] at found <;>
    grind [Form.typeOfCopy, Node.copyType]

namespace Arena

def slotTree (owner : ExprId)
    (visit : (child : ExprId) → child.index < owner.index → Option Tree) (child : ExprId) :
    Option Tree :=
  if precedes : child.index < owner.index then visit child precedes
  else if child.isValid then none else some .empty

def treeReader (arena : Arena) (child : ExprId → Option Tree) : SlotReader Tree where
  child := child
  list range := range.read? arena.exprLists >>= List.mapM child

/-- The tree at an identity, if everything that belongs to it lies in the arena and
precedes its owner. -/
def unfold (arena : Arena) (id : ExprId) : Option Tree :=
  match arena.node? id with
  | none => if id.isValid then none else some .empty
  | some node =>
      let reader := arena.treeReader (slotTree id fun child _precedes => arena.unfold child)
      (node.kind.form? reader).map fun form => .node form node.span node.type
termination_by id.index
decreasing_by exact _precedes

def reader (arena : Arena) (owner : ExprId) : SlotReader Tree :=
  arena.treeReader (slotTree owner fun child _precedes => arena.unfold child)

theorem unfold_invalid (arena : Arena) : arena.unfold .invalid = some .empty := by
  rw [unfold, node?_invalid]
  rfl

theorem unfold_of_node? {arena : Arena} {id : ExprId} {node : Node}
    (found : arena.node? id = some node) :
    arena.unfold id =
      (node.kind.form? (arena.reader id)).map fun form => .node form node.span node.type := by
  rw [unfold, found]
  rfl

theorem admits_of_unfold {arena : Arena} {id : ExprId} {tree : Tree}
    (unfolded : arena.unfold id = some tree) : arena.Admits id := by
  cases found : arena.node? id with
  | some node => exact Or.inr (exists_node?_iff.mp ⟨node, found⟩)
  | none =>
      rw [unfold, found] at unfolded
      by_cases valid : id.isValid = true
      · simp only [valid, if_true, reduceCtorEq] at unfolded
      · exact Or.inl (ExprId.eq_invalid_of_not_isValid valid)

theorem reader_child_eq_some_iff {arena : Arena} {owner child : ExprId} {tree : Tree} :
    (arena.reader owner).child child = some tree ↔
      (child = .invalid ∨ child.index < owner.index) ∧ arena.unfold child = some tree := by
  change slotTree owner (fun child _precedes => arena.unfold child) child = some tree ↔ _
  unfold slotTree
  by_cases precedes : child.index < owner.index
  · simp only [precedes, dif_pos, or_true, true_and]
  · by_cases empty : child = .invalid
    · subst empty
      simp [ExprId.isValid, unfold_invalid, precedes]
    · simp [ExprId.isValid, precedes, empty]

theorem mapM_eq_some_iff {α β : Type} {read : α → Option β} {entries : List α}
    {values : List β} :
    entries.mapM read = some values ↔
      List.Forall₂ (fun entry value => read entry = some value) entries values := by
  induction entries generalizing values with
  | nil => simp [eq_comm]
  | cons entry rest inductionHypothesis =>
      simp only [List.mapM_cons, Option.bind_eq_bind, Option.bind_eq_some_iff, Option.pure_def,
        Option.some.injEq, List.forall₂_cons_left_iff, inductionHypothesis]
      grind

theorem reader_list_eq_some_iff {arena : Arena} {owner : ExprId} {range : ExprRange}
    {trees : List Tree} :
    (arena.reader owner).list range = some trees ↔
      ∃ entries, range.read? arena.exprLists = some entries ∧
        List.Forall₂ (fun child tree => (arena.reader owner).child child = some tree)
          entries trees := by
  simp only [← mapM_eq_some_iff]
  exact Option.bind_eq_some_iff

/-- A tree that can be unfolded is the same in every extension of the arena. -/
theorem Extends.unfold {before after : Arena} (extended : before.Extends after) {id : ExprId}
    {tree : Tree} (unfolded : before.unfold id = some tree) : after.unfold id = some tree := by
  rcases (admits_of_unfold unfolded).cases with empty | ⟨node, found⟩
  · subst empty
    rw [unfold_invalid] at *
    exact unfolded
  · have child (held : ExprId) (below : Tree)
        (read : (before.reader id).child held = some below) :
        (after.reader id).child held = some below := by
      rw [reader_child_eq_some_iff] at *
      refine ⟨read.1, ?_⟩
      rcases read.1 with empty | precedes
      · subst empty
        rw [unfold_invalid] at *
        exact read.2
      · exact extended.unfold read.2
    have list (range : ExprRange) (below : List Tree)
        (read : (before.reader id).list range = some below) :
        (after.reader id).list range = some below := by
      rw [reader_list_eq_some_iff] at *
      obtain ⟨entries, held, trees⟩ := read
      exact ⟨entries, extended.read? held, trees.imp child⟩
    rw [unfold_of_node? found, Option.map_eq_some_iff] at unfolded
    obtain ⟨form, formed, same⟩ := unfolded
    rw [unfold_of_node? (extended.node? found), NodeKind.form?_of_some child list formed]
    exact congrArg some same
termination_by id.index

private theorem exists_forall₂ {α β : Type} {relation : α → β → Prop} {entries : List α}
    (related : ∀ entry ∈ entries, ∃ value, relation entry value) :
    ∃ values, List.Forall₂ relation entries values := by
  induction entries with
  | nil => exact ⟨[], .nil⟩
  | cons entry rest inductionHypothesis =>
      obtain ⟨value, first⟩ := related entry List.mem_cons_self
      obtain ⟨values, others⟩ := inductionHypothesis fun other member =>
        related other (List.mem_cons_of_mem entry member)
      exact ⟨value :: values, .cons first others⟩

theorem forall₂_exists_right {α β : Type} {relation : α → β → Prop} {entries : List α}
    {values : List β} (related : List.Forall₂ relation entries values) {entry : α}
    (member : entry ∈ entries) : ∃ value ∈ values, relation entry value := by
  induction related with
  | nil => cases member
  | cons first _others inductionHypothesis =>
      rcases List.mem_cons.mp member with rfl | later
      · exact ⟨_, List.mem_cons_self, first⟩
      · obtain ⟨value, present, same⟩ := inductionHypothesis later
        exact ⟨value, List.mem_cons_of_mem _ present, same⟩

theorem flatMap_eq_of_forall₂ {α β γ : Type} {relation : α → β → Prop} {entries : List α}
    {values : List β} {first second : β → List γ} (related : List.Forall₂ relation entries values)
    (same : ∀ entry value, relation entry value → first value = second value) :
    values.flatMap first = values.flatMap second := by
  apply List.flatMap_congr
  intro value member
  obtain ⟨entry, _present, relates⟩ := forall₂_exists_right related.flip member
  exact same entry value relates

theorem WellFormedAt.exists_unfold {arena : Arena} {id : ExprId}
    (wellFormed : arena.WellFormedAt id) (admitted : arena.Admits id) :
    ∃ tree, arena.unfold id = some tree := by
  refine wellFormed.induction ?empty ?node admitted
  case empty => exact ⟨_, unfold_invalid arena⟩
  case node =>
    intro id node found wellFormed below
    have child (held : ExprId) (refers : arena.Refers id held) :
        ∃ tree, (arena.reader id).child held = some tree := by
      obtain ⟨tree, unfolded⟩ := below held refers
      have precedes := wellFormed.childrenPrecede held refers
      exact ⟨tree, reader_child_eq_some_iff.mpr ⟨precedes, unfolded⟩⟩
    have reads (slot : Slot) (member : slot ∈ node.kind.slots) : (arena.reader id).Reads slot := by
      cases slot with
      | child held => exact child held (refers_of_mem found member List.mem_cons_self)
      | list range =>
          obtain ⟨entries, read⟩ := wellFormed.listsInside.read? found member
          have referred (entry : ExprId) (present : entry ∈ entries) : arena.Refers id entry := by
            apply refers_of_mem found member
            rw [Slot.entries, read]
            exact present
          obtain ⟨trees, unfolded⟩ := exists_forall₂ fun entry present =>
            child entry (referred entry present)
          exact ⟨trees, reader_list_eq_some_iff.mpr ⟨entries, read, unfolded⟩⟩
    obtain ⟨form, formed⟩ := NodeKind.form?_of_reads reads
    rw [unfold_of_node? found, formed]
    exact ⟨_, rfl⟩

private theorem sound_of_unfold {arena : Arena} {owner : ExprId} {tree : Tree}
    (unfolded : arena.unfold owner = some tree) :
    arena.ListsInside owner ∧ ∀ child, arena.Refers owner child →
      (child = .invalid ∨ child.index < owner.index) ∧
        ∃ below, arena.unfold child = some below := by
  cases found : arena.node? owner with
  | none =>
      refine ⟨?_, ?_⟩
      · intro node impossible
        rw [found] at impossible
        cases impossible
      · intro child refers
        rw [Refers, children, found] at refers
        cases refers
  | some node =>
      rw [unfold_of_node? found, Option.map_eq_some_iff] at unfolded
      obtain ⟨form, formed, _⟩ := unfolded
      have reads := NodeKind.reads_of_form? formed
      refine ⟨?_, ?_⟩
      · intro same foundSame slot member
        rw [found] at foundSame
        cases foundSame
        cases slot with
        | child id => trivial
        | list range =>
            obtain ⟨trees, read⟩ := reads _ member
            obtain ⟨entries, held, _⟩ := reader_list_eq_some_iff.mp read
            exact ListRange.inside_of_read? held
      · intro child refers
        rw [Refers, children_of_node? found, List.mem_flatMap] at refers
        obtain ⟨slot, member, held⟩ := refers
        cases slot with
        | child id =>
            obtain ⟨below, read⟩ := reads _ member
            cases List.mem_singleton.mp held
            rw [reader_child_eq_some_iff] at read
            exact ⟨read.1, below, read.2⟩
        | list range =>
            obtain ⟨trees, read⟩ := reads _ member
            obtain ⟨entries, listed, unfoldedAll⟩ := reader_list_eq_some_iff.mp read
            rw [Slot.entries, listed, Option.getD_some] at held
            obtain ⟨below, _, unfoldedBelow⟩ := forall₂_exists_right unfoldedAll held
            rw [reader_child_eq_some_iff] at unfoldedBelow
            exact ⟨unfoldedBelow.1, below, unfoldedBelow.2⟩

theorem wellFormedAt_of_unfold {arena : Arena} {id : ExprId} {tree : Tree}
    (unfolded : arena.unfold id = some tree) : arena.WellFormedAt id := by
  intro owner reached
  have unfoldedThere : ∃ below, arena.unfold owner = some below := by
    induction reached with
    | refl => exact ⟨tree, unfolded⟩
    | tail _path refers inductionHypothesis =>
        obtain ⟨below, unfoldedAbove⟩ := inductionHypothesis
        exact ((sound_of_unfold unfoldedAbove).2 _ refers).2
  obtain ⟨below, unfoldedBelow⟩ := unfoldedThere
  obtain ⟨inside, sound⟩ := sound_of_unfold unfoldedBelow
  exact ⟨fun child refers => (sound child refers).1, inside⟩

end Arena

end CompilerIR
