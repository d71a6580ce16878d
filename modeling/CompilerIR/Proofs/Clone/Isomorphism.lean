import CompilerIR.Proofs.Clone.Copy

/-!
Cloning a well-formed tree. Main statements: the clone is the same tree with the types of a
copy, and every occurrence of a node that is not shared has a new node of its own, numbered
in the order of the occurrences.
-/

namespace CompilerIR.Arena

theorem WellFormedAt.firstBadChild_eq_none {arena : Arena} {id : ExprId}
    (wellFormed : arena.WellFormedAt id) : arena.firstBadChild id = none := by
  rw [firstBadChild_eq, List.findSome?_eq_none_iff]
  intro child refers
  rw [badFrom_eq_none_iff]
  rcases wellFormed.childrenPrecede child refers with empty | precedes
  · exact Or.inl empty
  · exact Or.inr ⟨precedes, (wellFormed.child refers).firstBadChild_eq_none⟩
termination_by id.index

section WellFormed

variable {arena : Arena} {id : ExprId} (wellFormed : arena.WellFormedAt id)
  (admitted : arena.Admits id)

include wellFormed

theorem WellFormedAt.readableBelow : arena.ReadableBelow id := by
  intro owner path
  exact (wellFormed owner (Relation.ReflTransGen.mono (fun _ _ => And.left) _ _ path)).2

include admitted

theorem WellFormedAt.clone_ok : ∃ copy after, arena.clone id = (.ok copy, after) := by
  rcases admitted with empty | contained
  · subst empty
    exact ⟨.invalid, arena, clone_invalid arena⟩
  · have reported := clone_reports contained wellFormed.readableBelow
    rw [wellFormed.firstBadChild_eq_none] at reported
    generalize arena.clone id = result at reported
    obtain ⟨outcome, after⟩ := result
    cases outcome with
    | ok copy => exact ⟨copy, after, rfl⟩
    | error defect =>
        obtain ⟨reference, impossible, _⟩ := reported
        cases impossible

theorem WellFormedAt.clone_copies {copy : ExprId} {after : Arena}
    (done : arena.clone id = (.ok copy, after)) :
    arena.treeCopies.Copies arena arena after [id] [copy] :=
  arena.copyInvariant.clone wellFormed admitted (.refl arena) done

end WellFormed

theorem clone_unfolds_to_same_tree {arena : Arena} {id : ExprId} (admitted : arena.Admits id)
    (wellFormed : arena.WellFormedAt id) (fits : (arena.clone id).2.Fits) :
    ∃ copy tree, (arena.clone id).1 = .ok copy ∧ arena.unfold id = some tree ∧
      (arena.clone id).2.unfold copy = some tree.retyped := by
  obtain ⟨copy, after, done⟩ := wellFormed.clone_ok admitted
  have copies := wellFormed.clone_copies admitted done
  rw [done] at fits ⊢
  rcases copies.stand fits with _ | ⟨⟨tree, unfolded, copied⟩, _⟩
  exact ⟨copy, tree, rfl, unfolded, copied⟩

def nestedCall : Arena where
  nodes := #[⟨.int 7, ⟨8, 9⟩, .int⟩, ⟨.localRef ⟨0⟩, ⟨5, 6⟩, .int⟩,
    ⟨.binary (.compute .add) ⟨1⟩ ⟨1⟩, ⟨5, 10⟩, .int⟩, ⟨.thisRef ⟨20⟩, ⟨0, 4⟩, .root⟩,
    ⟨.methodCall ⟨3⟩ ⟨0⟩ ⟨0, 4⟩ true, ⟨0, 14⟩, .int⟩]
  exprLists := #[⟨2⟩, ⟨0⟩, ⟨1⟩, ⟨2⟩]
  typeLists := #[]

theorem nestedCall_clone_unfolds : nestedCall.Admits ⟨4⟩ ∧ nestedCall.WellFormedAt ⟨4⟩ ∧
    (nestedCall.clone ⟨4⟩).2.Fits ∧ ∃ copy tree, (nestedCall.clone ⟨4⟩).1 = .ok copy ∧
      nestedCall.unfold ⟨4⟩ = some tree ∧
      (nestedCall.clone ⟨4⟩).2.unfold copy = some tree.retyped := by
  have admitted : nestedCall.Admits ⟨4⟩ := Or.inr (by decide)
  have wellFormed : nestedCall.WellFormedAt ⟨4⟩ := wellFormedAt_of_forall (by decide) (by decide) _
  have fits : (nestedCall.clone ⟨4⟩).2.Fits := ⟨by decide +kernel, by decide +kernel⟩
  exact ⟨admitted, wellFormed, fits, clone_unfolds_to_same_tree admitted wellFormed fits⟩

theorem unfold_ne_of_type_ne {arena : Arena} {id : ExprId} {node : Node} {form : Form Tree}
    {span : Span} {type : TypeId} (found : arena.node? id = some node)
    (differs : node.type ≠ type) : arena.unfold id ≠ some (.node form span type) := by
  rw [unfold_of_node? found, ne_eq, Option.map_eq_some_iff]
  rintro ⟨_form, _formed, same⟩
  cases same
  exact differs rfl

def mistyped : Arena :=
  ⟨#[⟨.classSeed ⟨11⟩, ⟨2, 7⟩, ⟨12⟩⟩, ⟨.thisRef ⟨20⟩, ⟨8, 12⟩, .root⟩], #[], #[]⟩

/-- Such nodes do not keep their types. -/
theorem mistyped_clones_differ :
    (mistyped.Admits ⟨0⟩ ∧ mistyped.WellFormedAt ⟨0⟩ ∧ (mistyped.clone ⟨0⟩).2.Fits ∧
      ∃ copy tree, (mistyped.clone ⟨0⟩).1 = .ok copy ∧ mistyped.unfold ⟨0⟩ = some tree ∧
        (mistyped.clone ⟨0⟩).2.unfold copy ≠ some tree) ∧
    (mistyped.Admits ⟨1⟩ ∧ mistyped.WellFormedAt ⟨1⟩ ∧ (mistyped.clone ⟨1⟩).2.Fits ∧
      ∃ copy tree, (mistyped.clone ⟨1⟩).1 = .ok copy ∧ mistyped.unfold ⟨1⟩ = some tree ∧
        (mistyped.clone ⟨1⟩).2.unfold copy ≠ some tree) := by
  have wellFormed (id : ExprId) : mistyped.WellFormedAt id :=
    wellFormedAt_of_forall (by decide) (by decide) id
  have foundSeed : mistyped.node? ⟨0⟩ = some ⟨.classSeed ⟨11⟩, ⟨2, 7⟩, ⟨12⟩⟩ := rfl
  have foundThis : mistyped.node? ⟨1⟩ = some ⟨.thisRef ⟨20⟩, ⟨8, 12⟩, .root⟩ := rfl
  have clonedSeed : mistyped.clone ⟨0⟩ = (.ok ⟨2⟩,
      ⟨mistyped.nodes.push ⟨.classSeed ⟨11⟩, ⟨2, 7⟩, .root⟩, #[], #[]⟩) := by decide +kernel
  have clonedThis : mistyped.clone ⟨1⟩ = (.ok ⟨2⟩,
      ⟨mistyped.nodes.push ⟨.thisRef ⟨20⟩, ⟨8, 12⟩, ⟨20⟩⟩, #[], #[]⟩) := by decide +kernel
  rw [clonedSeed, clonedThis]
  constructor
  · refine ⟨Or.inr (by decide), wellFormed _, ⟨by decide, by decide⟩, ⟨2⟩,
      .node (.classSeed ⟨11⟩) ⟨2, 7⟩ ⟨12⟩, rfl, unfold_of_node? foundSeed, ?_⟩
    exact unfold_ne_of_type_ne rfl (by decide)
  · refine ⟨Or.inr (by decide), wellFormed _, ⟨by decide, by decide⟩, ⟨2⟩,
      .node (.thisRef ⟨20⟩) ⟨8, 12⟩ .root, rfl, unfold_of_node? foundThis, ?_⟩
    exact unfold_ne_of_type_ne rfl (by decide)

/-- Only a shared root stands for itself; any other is numbered last. -/
theorem eq_root_iff_of_standIns {arena after : Arena} {id copy : ExprId} {node : Node}
    (found : arena.node? id = some node)
    (nodesFit : arena.size + (arena.copied (arena.occurrences id)).length < UInt32.size - 1)
    (numbered : after.occurrences copy = arena.standIns arena.size (arena.occurrences id)) :
    (copy = id ↔ arena.shares id = true) ∧ (copy ≠ id →
      copy = .ofIndex (arena.size + (arena.copied (arena.occurrences id)).length - 1)) := by
  have root : _ = copy :=
    eq_of_getLast?_occurrences (numbered ▸ getLast?_standIns_occurrences found arena.size)
  by_cases shared : arena.shares id = true
  · rw [if_pos shared] at root
    exact ⟨iff_of_true root.symm shared, fun differs => absurd root.symm differs⟩
  · rw [if_neg shared] at root
    refine ⟨iff_of_false ?_ shared, fun _ => root.symm⟩
    intro same
    have own : id ∈ arena.copied (arena.occurrences id) := by
      obtain ⟨below, listed⟩ := exists_occurrences_eq found
      rw [listed, copied, List.mem_filter]
      simp [shared]
    have several := List.length_pos_of_mem own
    have old := index_lt_size found
    have number := congrArg ExprId.index (root.trans same)
    rw [ExprId.index_ofIndex (by omega)] at number
    omega

/-- The positions are those of the occurrences in the two trees, and a copied occurrence is
numbered by the copied ones before it. -/
theorem clone_numbers_copied_occurrences {arena : Arena} {id : ExprId}
    (admitted : arena.Admits id) (wellFormed : arena.WellFormedAt id)
    (nodesFit : arena.size + (arena.copied (arena.occurrences id)).length < UInt32.size - 1)
    (entriesFit : (arena.clone id).2.exprLists.size < UInt32.size) :
    ∃ copy after, arena.clone id = (.ok copy, after) ∧
      after.size = arena.size + (arena.copied (arena.occurrences id)).length ∧
      (∃ tree, arena.unfold id = some tree ∧ after.unfold copy = some tree.retyped) ∧
      (∀ position, (after.occurrences copy)[position]? =
        (arena.occurrences id)[position]?.map fun occurrence =>
          if arena.shares occurrence then occurrence
          else .ofIndex
            (arena.size + (arena.copied ((arena.occurrences id).take position)).length)) ∧
      (copy = id ↔ id = .invalid ∨ arena.shares id = true) ∧
      (copy ≠ id →
        copy = .ofIndex (arena.size + (arena.copied (arena.occurrences id)).length - 1)) := by
  obtain ⟨copy, after, done⟩ := wellFormed.clone_ok admitted
  have copies := wellFormed.clone_copies admitted done
  rw [done] at entriesFit
  have size : after.size = arena.size + (arena.copied (arena.occurrences id)).length := by
    simpa [treeCopies] using copies.size
  have fits : after.Fits := ⟨size ▸ nodesFit, entriesFit⟩
  have numbered : after.occurrences copy = arena.standIns arena.size (arena.occurrences id) := by
    simpa [treeCopies] using copies.numbered fits
  have stands : arena.TreeStands after id copy := by
    rcases copies.stand fits with _ | ⟨stands, _⟩
    exact stands
  refine ⟨copy, after, done, size, stands, ?_, ?_⟩
  · intro position
    rw [numbered, getElem?_standIns]
  · rcases admitted.cases with empty | ⟨node, found⟩
    · subst empty
      rw [clone_invalid] at done
      cases done
      exact ⟨iff_of_true rfl (Or.inl rfl), fun differs => absurd rfl differs⟩
    · have valid : id ≠ .invalid := by
        intro empty
        subst empty
        cases found
      rw [or_iff_right valid]
      exact eq_root_iff_of_standIns found nodesFit numbered

theorem nestedCall_clone_numbers : nestedCall.Admits ⟨4⟩ ∧ nestedCall.WellFormedAt ⟨4⟩ ∧
    nestedCall.size + (nestedCall.copied (nestedCall.occurrences ⟨4⟩)).length <
      UInt32.size - 1 ∧ (nestedCall.clone ⟨4⟩).2.exprLists.size < UInt32.size ∧
    ∃ copy after, nestedCall.clone ⟨4⟩ = (.ok copy, after) ∧ after.size = 14 ∧
      (after.occurrences copy)[1]? = some ⟨6⟩ ∧ copy = ⟨13⟩ := by
  have admitted : nestedCall.Admits ⟨4⟩ := Or.inr (by decide)
  have wellFormed : nestedCall.WellFormedAt ⟨4⟩ := wellFormedAt_of_forall (by decide) (by decide) _
  have nodesFit : nestedCall.size + (nestedCall.copied (nestedCall.occurrences ⟨4⟩)).length <
      UInt32.size - 1 := by decide +kernel
  have entriesFit : (nestedCall.clone ⟨4⟩).2.exprLists.size < UInt32.size := by decide +kernel
  have notShared : ¬((⟨4⟩ : ExprId) = .invalid ∨ nestedCall.shares ⟨4⟩ = true) := by decide
  obtain ⟨copy, after, done, size, _tree, numbered, same, last⟩ :=
    clone_numbers_copied_occurrences admitted wellFormed nodesFit entriesFit
  refine ⟨admitted, wellFormed, nodesFit, entriesFit, copy, after, done, ?_, ?_, ?_⟩
  · rw [size]
    decide +kernel
  · rw [numbered]
    decide +kernel
  · rw [last (notShared ∘ same.mp)]
    decide +kernel

end CompilerIR.Arena
