import CompilerIR.Proofs.Arena.Soundness
import CompilerIR.Proofs.Clone.DefectSite
import CompilerIR.Proofs.Clone.Isomorphism

/-!
Which of the two defects a bad child is. Main statement: it is judged by the arena as it stands when
the walk gets to the child. What the walk has copied by then counts as well, so that a child from
nowhere may pass for one that does not precede its owner.
-/

namespace CompilerIR

def CloneDefect.ofBadChild (size : Nat) (site : DefectSite) (child : ExprId) : CloneDefect :=
  if child.index < size then .cyclicChild site child else .danglingChild site child

/-! ### Walks that end early -/

section UpToFirst

variable {α β γ δ : Type} (bad : α → Option β) (walked : α → List γ)

def uptoFirst : List α → List γ
  | [] => []
  | piece :: rest => walked piece ++ if (bad piece).isSome then [] else uptoFirst rest

theorem uptoFirst_append (first second : List α) :
    uptoFirst bad walked (first ++ second) = uptoFirst bad walked first ++
      if (first.findSome? bad).isSome then [] else uptoFirst bad walked second := by
  induction first with
  | nil => rfl
  | cons piece rest inductionHypothesis =>
      rw [List.cons_append, uptoFirst, uptoFirst, List.findSome?_cons, inductionHypothesis]
      cases bad piece with
      | none => simp
      | some found => simp

theorem uptoFirst_flatMap (held : δ → List α) (pieces : List δ) :
    uptoFirst bad walked (pieces.flatMap held) =
      uptoFirst (fun piece => (held piece).findSome? bad)
        (fun piece => uptoFirst bad walked (held piece)) pieces := by
  induction pieces with
  | nil => rfl
  | cons piece rest inductionHypothesis =>
      rw [List.flatMap_cons, uptoFirst_append, inductionHypothesis, uptoFirst]

theorem uptoFirst_isPrefix {whole : α → List γ} {pieces : List α}
    (each : ∀ piece ∈ pieces, walked piece <+: whole piece)
    (complete : ∀ piece ∈ pieces, bad piece = none → walked piece = whole piece) :
    uptoFirst bad walked pieces <+: pieces.flatMap whole := by
  induction pieces with
  | nil => exact List.prefix_rfl
  | cons piece rest inductionHypothesis =>
      rw [uptoFirst, List.flatMap_cons]
      cases found : bad piece with
      | none =>
          rw [complete piece List.mem_cons_self found]
          exact (List.prefix_append_right_inj _).mpr (inductionHypothesis
            (fun other member => each other (List.mem_cons_of_mem piece member))
            (fun other member => complete other (List.mem_cons_of_mem piece member)))
      | some defect =>
          rw [Option.isSome_some, if_pos rfl, List.append_nil]
          exact (each piece List.mem_cons_self).trans (List.prefix_append _ _)

theorem uptoFirst_eq_flatMap {whole : α → List γ} {pieces : List α}
    (unspoiled : pieces.findSome? bad = none)
    (complete : ∀ piece ∈ pieces, bad piece = none → walked piece = whole piece) :
    uptoFirst bad walked pieces = pieces.flatMap whole := by
  induction pieces with
  | nil => rfl
  | cons piece rest inductionHypothesis =>
      rw [List.findSome?_cons] at unspoiled
      cases found : bad piece with
      | some defect =>
          rw [found] at unspoiled
          cases unspoiled
      | none =>
          rw [found] at unspoiled
          rw [uptoFirst, List.flatMap_cons, complete piece List.mem_cons_self found, found,
            inductionHypothesis unspoiled
              (fun other member => complete other (List.mem_cons_of_mem piece member))]
          rfl

end UpToFirst

namespace Arena

/-- The occurrences that a walk from `owner` has behind it when it ends, be it at the first bad
child or after the owner itself. -/
def walked (arena : Arena) (owner : ExprId) : List ExprId :=
  match arena.node? owner with
  | none => []
  | some _ =>
      uptoFirst (arena.badFrom owner)
          (fun child => if _precedes : child.index < owner.index then arena.walked child else [])
          (arena.children owner) ++
        if (arena.firstBadChild owner).isSome then [] else [owner]
termination_by owner.index
decreasing_by exact _precedes

def walkedFrom (arena : Arena) (owner child : ExprId) : List ExprId :=
  if child.index < owner.index then arena.walked child else []

theorem walked_of_node? {arena : Arena} {owner : ExprId} {node : Node}
    (found : arena.node? owner = some node) :
    arena.walked owner =
      uptoFirst (arena.badFrom owner) (arena.walkedFrom owner) (arena.children owner) ++
        if (arena.firstBadChild owner).isSome then [] else [owner] := by
  rw [walked, found]
  rfl

/-- A walk that meets no bad child goes through all occurrences, and any other one through the first
of them. -/
theorem walked_isPrefix (arena : Arena) (owner : ExprId) :
    arena.walked owner <+: arena.occurrences owner ∧
      (arena.firstBadChild owner = none → arena.walked owner = arena.occurrences owner) := by
  cases found : arena.node? owner with
  | none =>
      rw [walked, occurrences, found]
      exact ⟨List.prefix_rfl, fun _unspoiled => rfl⟩
  | some node =>
      have below (child : ExprId) (_refers : child ∈ arena.children owner) :
          arena.walkedFrom owner child <+:
              (if child.index < owner.index then arena.occurrences child else []) ∧
            (arena.badFrom owner child = none → arena.walkedFrom owner child =
              if child.index < owner.index then arena.occurrences child else []) := by
        unfold walkedFrom badFrom
        by_cases precedes : child.index < owner.index
        · rw [if_pos precedes, if_pos precedes, if_pos precedes]
          exact arena.walked_isPrefix child
        · rw [if_neg precedes, if_neg precedes]
          exact ⟨List.prefix_rfl, fun _unspoiled => rfl⟩
      have listed : arena.occurrences owner = (arena.children owner).flatMap (fun child =>
          if child.index < owner.index then arena.occurrences child else []) ++ [owner] := by
        rw [occurrences, found]
        rfl
      have complete (child : ExprId) (refers : child ∈ arena.children owner) :=
        (below child refers).2
      rw [walked_of_node? found, listed]
      refine ⟨?_, ?_⟩
      · have ahead := uptoFirst_isPrefix (arena.badFrom owner) (arena.walkedFrom owner)
          (fun child refers => (below child refers).1) complete
        cases bad : arena.firstBadChild owner with
        | some reference =>
            rw [Option.isSome_some, if_pos rfl, List.append_nil]
            exact ahead.trans (List.prefix_append _ _)
        | none =>
            rw [uptoFirst_eq_flatMap _ _ ((arena.firstBadChild_eq owner).symm.trans bad) complete]
            exact List.prefix_rfl
      · intro unspoiled
        rw [uptoFirst_eq_flatMap _ _ ((arena.firstBadChild_eq owner).symm.trans unspoiled) complete,
          unspoiled]
        rfl
termination_by owner.index

end Arena

/-! ### How far the arena has grown -/

namespace CloneResult

variable {α β : Type}

open Arena

def Walks (original before : Arena) (walked : List ExprId) (result : CloneResult α) : Prop :=
  result.2.size = before.size + (original.copied walked).length

theorem Walks.andThen_ok {original before : Arena} {walked : List ExprId} {result : CloneResult α}
    {next : α → Arena → CloneResult β} (walks : Walks original before walked result)
    (same : ∀ value (after : Arena), (next value after).2.size = after.size) :
    Walks original before walked (result.andThen next) := by
  obtain ⟨outcome, after⟩ := result
  cases outcome with
  | error defect => exact walks
  | ok value => exact (same value after).trans walks

theorem each_walks {original : Arena} {work : α → Arena → CloneResult β}
    {bad : α → Option (ExprId × ExprId)} {walked : α → List ExprId} {pieces : List α}
    (grows : ∀ piece (before : Arena), before.Extends (work piece before).2)
    (step : ∀ piece ∈ pieces, ∀ before : Arena, original.Extends before →
      Reports (bad piece) (work piece before).1 ∧
        Walks original before (walked piece) (work piece before))
    {before : Arena} (extended : original.Extends before) :
    Walks original before (uptoFirst bad walked pieces) (each work pieces before) := by
  induction pieces generalizing before with
  | nil => rfl
  | cons piece rest inductionHypothesis =>
      obtain ⟨reported, walks⟩ := step piece List.mem_cons_self before extended
      have toMiddle := extended.trans (grows piece before)
      rw [each, uptoFirst]
      generalize work piece before = result at reported walks toMiddle
      obtain ⟨outcome, middle⟩ := result
      cases outcome with
      | error defect =>
          obtain ⟨reference, found, _named⟩ := reported
          rw [found, Option.isSome_some, if_pos rfl, List.append_nil]
          exact walks
      | ok value =>
          have unspoiled : bad piece = none := reported
          have later := inductionHypothesis
            (fun other member => step other (List.mem_cons_of_mem piece member)) toMiddle
          have walksRest : Walks original middle (uptoFirst bad walked rest)
              ((each work rest middle).andThen fun values arena =>
                (.ok (value :: values), arena)) :=
            later.andThen_ok fun _values _after => rfl
          rw [unspoiled, Option.isSome_none, if_neg Bool.false_ne_true]
          unfold Walks at *
          rw [copied_append, List.length_append, ← Nat.add_assoc, ← walks]
          exact walksRest

end CloneResult

namespace Arena

open CloneResult (Reports Walks)

section Slots

variable {original : Arena} {owner : Owner} {visit : owner.Child → Arena → CloneResult ExprId}
  (found : original.node? owner.id = some owner.node)
  (reports : ∀ child : owner.Child, original.node? child.1.id = some child.1.node →
    original.Refers owner.id child.1.id → ∀ before : Arena, original.Extends before →
      Reports (original.firstBadChild child.1.id) (visit child before).1)
  (step : ∀ child : owner.Child, original.node? child.1.id = some child.1.node →
    original.Refers owner.id child.1.id → ∀ before : Arena, original.Extends before →
      Walks original before (original.walked child.1.id) (visit child before))

include found step

theorem copyChild_walks {id : ExprId} (refers : original.Refers owner.id id) {before : Arena}
    (extended : original.Extends before) :
    Walks original before (original.walkedFrom owner.id id) (copyChild owner visit id before) := by
  by_cases precedes : id.index < owner.id.index
  · obtain ⟨node, present⟩ := node?_of_index_lt found precedes
    rw [copyChild_of_precedes (extended.node? present) precedes, walkedFrom, if_pos precedes]
    exact step ⟨⟨id, node⟩, precedes⟩ present refers before extended
  · rw [walkedFrom, if_neg precedes]
    by_cases valid : id.isValid = true
    · obtain ⟨defect, failed, _named⟩ : ∃ defect,
          copyChild owner visit id before = (.error defect, before) ∧
            defect.badChild? = some (owner.id, id) :=
        copyChild_of_not_precedes valid precedes
      rw [failed]
      rfl
    · rw [ExprId.eq_invalid_of_not_isValid valid]
      rfl

include reports

theorem copySlot_walks
    (visitGrows : ∀ child (before : Arena), before.Extends (visit child before).2)
    (inside : original.ListsInside owner.id) {slot : Slot} (member : slot ∈ owner.node.kind.slots)
    {before : Arena} (extended : original.Extends before) :
    Walks original before (uptoFirst (original.badFrom owner.id) (original.walkedFrom owner.id)
      (slot.entries original.exprLists)) (copySlot owner visit slot before) := by
  cases slot with
  | child id =>
      have refers : original.Refers owner.id id := refers_of_mem found member List.mem_cons_self
      have alone : uptoFirst (original.badFrom owner.id) (original.walkedFrom owner.id) [id] =
          original.walkedFrom owner.id id := by
        rw [uptoFirst, uptoFirst, ite_self, List.append_nil]
      change Walks original before (uptoFirst _ _ [id]) _
      rw [alone, copySlot]
      exact (copyChild_walks found step refers extended).andThen_ok fun _clone _after => rfl
  | list range =>
      obtain ⟨entries, read⟩ := inside.read? found member
      have held := Slot.entries_of_read? read
      rw [held, copySlot_list (extended.read? read)]
      apply Walks.andThen_ok
      · apply CloneResult.each_walks (copyChild_extends visitGrows) _ extended
        intro id present before extended
        have refers := refers_of_mem found member (held ▸ present)
        exact ⟨copyChild_reports found reports refers extended,
          copyChild_walks found step refers extended⟩
      · exact fun _clones _after => rfl

end Slots

theorem copyTree_walks {original : Arena} (owner : Owner)
    (found : original.node? owner.id = some owner.node)
    (readable : original.ReadableBelow owner.id) (before : Arena)
    (extended : original.Extends before) :
    Walks original before (original.walked owner.id) (before.copyTree owner) := by
  have reports (child : owner.Child) (present : original.node? child.1.id = some child.1.node)
      (refers : original.Refers owner.id child.1.id) (before : Arena)
      (extended : original.Extends before) :
      Reports (original.firstBadChild child.1.id) (before.copyTree child.1).1 :=
    copyTree_reports child.1 present (readable.child ⟨refers, child.2⟩) before extended
  have below (child : owner.Child) (present : original.node? child.1.id = some child.1.node)
      (refers : original.Refers owner.id child.1.id) (before : Arena)
      (extended : original.Extends before) :
      Walks original before (original.walked child.1.id) (before.copyTree child.1) :=
    copyTree_walks child.1 present (readable.child ⟨refers, child.2⟩) before extended
  -- Whether the owner itself is copied depends on the outcome, and that on the first bad child.
  have reported := copyTree_reports owner found readable before extended
  rw [walked_of_node? found]
  rw [copyTree] at *
  by_cases shareable : owner.node.kind.isShareable = true
  · have alone : original.children owner.id = [] := by
      rw [children_of_node? found, NodeKind.slots_of_isShareable shareable]
      rfl
    have shared : original.shares owner.id = true := by rw [shares_of_node? found, shareable]
    rw [if_pos shareable, alone, firstBadChild_eq, alone]
    change before.size = before.size + (original.copied [owner.id]).length
    rw [copied_cons_of_shares shared]
    rfl
  · have owned : ¬original.shares owner.id = true := by rwa [shares_of_node? found]
    rw [if_neg shareable] at *
    have walks := CloneResult.each_walks (copySlot_extends fun child => copyTree_extends child.1)
      (fun slot member before extended =>
        ⟨copySlot_reports found reports (fun child => copyTree_extends child.1)
            (readable owner.id .refl) member extended,
          copySlot_walks found reports below (fun child => copyTree_extends child.1)
            (readable owner.id .refl) member extended⟩) extended
    rw [← uptoFirst_flatMap, ← children_of_node? found] at walks
    generalize CloneResult.each _ _ before = result at reported walks
    obtain ⟨outcome, middle⟩ := result
    cases outcome with
    | error defect =>
        obtain ⟨reference, first, _named⟩ := reported
        rw [first, Option.isSome_some, if_pos rfl, List.append_nil]
        exact walks
    | ok filled =>
        have unspoiled : original.firstBadChild owner.id = none := reported
        unfold Walks at *
        rw [unspoiled, Option.isSome_none, if_neg Bool.false_ne_true, copied_append,
          copied_cons_of_not_shares owned, List.length_append, ← Nat.add_assoc, ← walks]
        exact size_alloc middle _
termination_by owner.id.index
decreasing_by exact child.2

end Arena

/-! ### The verdict -/

theorem CloneDefect.Finding.eq_ofBadChild {defect : CloneDefect} {after : Arena}
    {owner child : ExprId} (finding : defect.Finding after)
    (named : defect.badChild? = some (owner, child)) :
    ∃ site, site.owner = owner ∧ defect = .ofBadChild after.size site child := by
  cases defect with
  | foreignRoot | danglingList => cases named
  | danglingChild site held =>
      cases named
      obtain ⟨valid, _refers, missing⟩ := finding
      refine ⟨site, rfl, ?_⟩
      rw [Arena.contains, valid, Bool.true_and, decide_eq_false_iff_not] at missing
      rw [ofBadChild, if_neg missing]
  | cyclicChild site held =>
      cases named
      obtain ⟨_valid, _refers, _notBefore, inside⟩ := finding
      exact ⟨site, rfl, by rw [ofBadChild, if_pos inside]⟩

namespace Arena

theorem ofBadChild_eq_iff {before after : Nat} (grown : before ≤ after) (site : DefectSite)
    (child : ExprId) :
    CloneDefect.ofBadChild after site child = .ofBadChild before site child ↔
      ¬(before ≤ child.index ∧ child.index < after) := by
  unfold CloneDefect.ofBadChild
  by_cases old : child.index < before
  · rw [if_pos old, if_pos (Nat.lt_of_lt_of_le old grown)]
    exact iff_of_true rfl (by omega)
  · rw [if_neg old]
    by_cases new : child.index < after
    · rw [if_pos new]
      exact iff_of_false (by simp) (by omega)
    · rw [if_neg new]
      exact iff_of_true rfl (by omega)

theorem bad_child_is_judged_by_grown_arena {arena after : Arena} {id : ExprId}
    {defect : CloneDefect} (contained : arena.contains id = true)
    (readable : arena.ReadableBelow id) (failed : arena.clone id = (.error defect, after)) :
    (arena.walked id <+: arena.occurrences id ∧
      after.size = arena.size + (arena.copied (arena.walked id)).length) ∧
    ∃ site child, arena.firstBadChild id = some (site.owner, child) ∧
      defect = .ofBadChild after.size site child ∧
      (defect = .ofBadChild arena.size site child ↔
        ¬(arena.size ≤ child.index ∧ child.index < after.size)) := by
  obtain ⟨node, found⟩ := exists_node?_iff.mpr contained
  have grown := (arena.clone_extends id).size_le
  have reported := clone_reports contained readable
  have walks := copyTree_walks ⟨id, node⟩ found readable arena (.refl arena)
  rw [← clone_of_node? found] at walks
  rw [failed] at grown reported walks
  obtain ⟨⟨owner, child⟩, first, named⟩ := reported
  obtain ⟨_site, _named, _reached, finding⟩ := located_of_node? found failed
  obtain ⟨site, rfl, judged⟩ := finding.eq_ofBadChild named
  refine ⟨⟨(arena.walked_isPrefix id).1, walks⟩, site, child, first, judged, ?_⟩
  rw [judged]
  exact ofBadChild_eq_iff grown site child

/-- The right operand is no node, but it has the number that the copy of the left one is given. -/
def overtaken : Arena where
  nodes := #[⟨.localRef ⟨0⟩, ⟨0, 1⟩, .int⟩, ⟨.binary (.compute .add) ⟨0⟩ ⟨2⟩, ⟨0, 5⟩, .int⟩]
  exprLists := #[]
  typeLists := #[]

theorem overtaken_clone : overtaken.clone ⟨1⟩ =
    (.error (.cyclicChild ⟨⟨1⟩, "Binary", ⟨0, 5⟩⟩ ⟨2⟩),
      ⟨overtaken.nodes.push ⟨.localRef ⟨0⟩, ⟨0, 1⟩, .int⟩, #[], #[]⟩) := by
  decide +kernel

theorem overtaken_readableBelow : overtaken.ReadableBelow ⟨1⟩ :=
  fun owner _reached => listsInside_of_forall (by decide) owner

theorem overtaken_operand_is_misjudged : overtaken.contains ⟨1⟩ = true ∧
    overtaken.ReadableBelow ⟨1⟩ ∧
    overtaken.clone ⟨1⟩ = (.error (.cyclicChild ⟨⟨1⟩, "Binary", ⟨0, 5⟩⟩ ⟨2⟩),
      (overtaken.clone ⟨1⟩).2) ∧
    (overtaken.clone ⟨1⟩).2.size =
      overtaken.size + (overtaken.copied (overtaken.walked ⟨1⟩)).length := by
  have failed : overtaken.clone ⟨1⟩ = (.error (.cyclicChild ⟨⟨1⟩, "Binary", ⟨0, 5⟩⟩ ⟨2⟩),
      (overtaken.clone ⟨1⟩).2) := by
    rw [overtaken_clone]
  exact ⟨by decide, overtaken_readableBelow, failed,
    (bad_child_is_judged_by_grown_arena (by decide) overtaken_readableBelow failed).1.2⟩

/-- So the defect does not tell whether the child was a node when the clone was asked for. -/
theorem foreign_children_pass_for_cyclic :
    ¬∀ (arena after : Arena) (id : ExprId) (defect : CloneDefect), arena.contains id = true →
      arena.ReadableBelow id → arena.clone id = (.error defect, after) →
      ∀ owner child, defect.badChild? = some (owner, child) →
        ∃ site, (arena.size ≤ child.index → defect = .danglingChild site child) ∧
          (child.index < arena.size → defect = .cyclicChild site child) := by
  intro judged
  obtain ⟨site, foreign, _known⟩ := judged overtaken _ ⟨1⟩ _ (by decide) overtaken_readableBelow
    overtaken_clone ⟨1⟩ ⟨2⟩ rfl
  cases foreign (by decide)

end Arena

end CompilerIR
