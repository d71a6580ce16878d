import CompilerIR.Proofs.Clone.Frame
import CompilerIR.Proofs.Clone.Step

/-!
A list within a tree beside a list of trees. Main statement: cloning a sequence is cloning its
entries one by one and storing their clones as its list, down to the defect that ends it.
-/

namespace CompilerIR.Arena

section Entries

variable {owner : Owner} {node : Node} {arena : Arena}

/-- An entry that comes before its owner is checked as part of the owner just as it is checked on
its own. -/
theorem copyChild_eq_clone {entry : ExprId} (found : arena.node? owner.id = some node)
    (precedes : entry = .invalid ∨ entry.index < owner.id.index) :
    copyChild owner (fun child => copyTree child.1) entry arena = arena.clone entry := by
  rcases precedes with rfl | precedes
  · rw [copyChild_invalid, clone_invalid]
  · obtain ⟨child, foundChild⟩ := node?_of_index_lt found precedes
    rw [copyChild_of_precedes foundChild precedes, clone_of_node? foundChild]

/-- The arena grows from one entry to the next, and the owner stays in it. -/
theorem each_copyChild_eq_each_clone {entries : List ExprId}
    (found : arena.node? owner.id = some node)
    (precede : ∀ entry ∈ entries, entry = .invalid ∨ entry.index < owner.id.index) :
    CloneResult.each (copyChild owner fun child => copyTree child.1) entries arena =
      CloneResult.each (fun id before => before.clone id) entries arena := by
  induction entries generalizing arena with
  | nil => rfl
  | cons entry rest inductionHypothesis =>
      have grown := arena.clone_extends entry
      rw [CloneResult.each, CloneResult.each,
        copyChild_eq_clone found (precede entry List.mem_cons_self)]
      generalize arena.clone entry = result at grown
      obtain ⟨outcome, after⟩ := result
      cases outcome with
      | error defect => rfl
      | ok clone =>
          rw [CloneResult.andThen_ok, CloneResult.andThen_ok, inductionHypothesis
            (grown.node? found) fun other member => precede other (List.mem_cons_of_mem _ member)]

end Entries

section Sequence

variable {arena : Arena} {id : ExprId} {range : ExprRange} {span : Span} {type : TypeId}
  {entries : List ExprId} (found : arena.node? id = some ⟨.multi range, span, type⟩)
  (read : range.read? arena.exprLists = some entries)
  (precede : ∀ entry ∈ entries, entry = .invalid ∨ entry.index < id.index)

include found read precede

theorem clone_multi :
    arena.clone id =
      (CloneResult.each (fun id before => before.clone id) entries arena).andThen
        fun clones before =>
          let (list, stored) := before.storeExprs clones
          let (copy, after) := stored.alloc ⟨.multi list, span, type⟩
          (.ok copy, after) := by
  have copied : ¬(NodeKind.multi range).isShareable = true := Bool.false_ne_true
  have slots : (NodeKind.multi range).slots = [.list range] := rfl
  rw [clone_of_node? found, copyTree, if_neg copied, slots, CloneResult.each, copySlot_list read,
    each_copyChild_eq_each_clone found precede]
  simp only [CloneResult.andThen_assoc, CloneResult.andThen_ok, CloneResult.each]
  rfl

/-- Either a defect ends both, or the clones of the entries are stored as one list and the sequence
of them is added last. -/
theorem clone_multi_outcomes :
    (∃ defect after, arena.cloneAll (some entries) = (.error defect, after) ∧
      arena.clone id = (.error defect, after)) ∨
    ∃ clones before list stored copy after,
      arena.cloneAll (some entries) = (.ok (some clones), before) ∧
      before.pushExprs clones = .ok (list, stored) ∧
      stored.alloc ⟨.multi list, span, type⟩ = (copy, after) ∧
      arena.clone id = (.ok copy, after) := by
  rw [clone_multi found read precede, cloneAll]
  generalize done : CloneResult.each (fun id before => before.clone id) entries arena = result
  obtain ⟨outcome, before⟩ := result
  cases outcome with
  | error defect => exact Or.inl ⟨defect, before, rfl, rfl⟩
  | ok clones =>
      have short : clones.length ≤ ListRange.maxLength :=
        each_length done ▸ ListRange.length_le_of_read? read
      exact Or.inr ⟨clones, before, _, _, _, _, rfl, if_pos short, rfl, rfl⟩

end Sequence

/-- A sequence that has been stored last finds its list. -/
theorem read?_of_stored {before stored after : Arena} {clones : List ExprId} {list : ExprRange}
    {node : Node} {copy : ExprId} (pushed : before.pushExprs clones = .ok (list, stored))
    (added : stored.alloc node = (copy, after)) (fits : after.Fits) :
    after.node? copy = some node ∧ list.read? after.exprLists = some clones := by
  unfold pushExprs at pushed
  split at pushed
  · rename_i short
    have same : before.storeExprs clones = (list, stored) := Except.ok.inj pushed
    have toStored := before.storeExprs_extends clones
    have toAfter := stored.alloc_extends node
    rw [same] at toStored
    rw [added] at toAfter
    have room := toAfter.fits fits
    have kept := read?_storeExprs short (toStored.fits room).entries
    have placed := node?_alloc room.nodes node
    rw [same] at kept
    rw [added] at placed
    exact ⟨placed, toAfter.read? kept⟩
  · cases pushed

theorem sequence_clones_as_its_entries {arena : Arena} {id : ExprId} {range : ExprRange}
    {span : Span} {type : TypeId} {entries : List ExprId}
    (found : arena.node? id = some ⟨.multi range, span, type⟩)
    (read : range.read? arena.exprLists = some entries)
    (precede : ∀ entry ∈ entries, entry = .invalid ∨ entry.index < id.index)
    (fits : (arena.clone id).2.Fits) :
    ((∃ copy, (arena.clone id).1 = .ok copy) ↔
      ∃ clones, (arena.cloneAll (some entries)).1 = .ok clones) ∧
    (∀ clones before, arena.cloneAll (some entries) = (.ok (some clones), before) →
      ∃ list stored copy after, before.pushExprs clones = .ok (list, stored) ∧
        stored.alloc ⟨.multi list, span, type⟩ = (copy, after) ∧
        arena.clone id = (.ok copy, after) ∧
        after.node? copy = some ⟨.multi list, span, type⟩ ∧
        list.read? after.exprLists = some clones) ∧
    ∀ defect after, arena.clone id = (.error defect, after) ↔
      arena.cloneAll (some entries) = (.error defect, after) := by
  rcases clone_multi_outcomes found read precede with
    ⟨defect, after, ended, endedToo⟩ |
    ⟨clones, before, list, stored, copy, after, done, pushed, added, cloned⟩
  · rw [ended, endedToo]
    refine ⟨?_, ?_, ?_⟩
    · simp only [reduceCtorEq, exists_false]
    · rintro _ _ ⟨⟩
    · simp only [Prod.mk.injEq, Except.error.injEq, implies_true]
  · rw [cloned] at fits
    rw [done, cloned]
    refine ⟨iff_of_true ⟨copy, rfl⟩ ⟨some clones, rfl⟩, ?_, ?_⟩
    · rintro _ _ ⟨⟩
      exact ⟨list, stored, copy, after, pushed, added, rfl, read?_of_stored pushed added fits⟩
    · simp only [Prod.mk.injEq, reduceCtorEq, false_and, implies_true]

def callsAndSum : Arena where
  nodes := #[⟨.localRef ⟨0⟩, ⟨0, 1⟩, .int⟩, ⟨.methodCall ⟨0⟩ ⟨0⟩ ⟨0, 2⟩ true, ⟨0, 4⟩, .int⟩,
    ⟨.int 7, ⟨5, 6⟩, .int⟩, ⟨.multi ⟨2, 4⟩, ⟨0, 9⟩, .int⟩,
    ⟨.binary (.compute .add) ⟨1⟩ ⟨4⟩, ⟨2, 8⟩, .int⟩, ⟨.multi ⟨6, 2⟩, ⟨0, 8⟩, .int⟩]
  exprLists := #[⟨0⟩, .invalid, ⟨1⟩, .invalid, ⟨2⟩, ⟨1⟩, ⟨0⟩, ⟨4⟩]
  typeLists := #[]

def twoCalls : List ExprId := [⟨1⟩, .invalid, ⟨2⟩, ⟨1⟩]

def clonesOfTwoCalls : List ExprId := [⟨8⟩, .invalid, ⟨2⟩, ⟨11⟩]

def referenceAndSum : List ExprId := [⟨0⟩, ⟨4⟩]

def sumIsCyclic : CloneDefect := .cyclicChild ⟨⟨4⟩, "Binary", ⟨2, 8⟩⟩ ⟨4⟩

theorem callsAndSum_clone_as_their_entries :
    (callsAndSum.node? ⟨3⟩ = some ⟨.multi ⟨2, 4⟩, ⟨0, 9⟩, .int⟩ ∧
      ListRange.read? ⟨2, 4⟩ callsAndSum.exprLists = some twoCalls ∧
      (∀ entry ∈ twoCalls, entry = .invalid ∨ entry.index < (⟨3⟩ : ExprId).index) ∧
      (callsAndSum.clone ⟨3⟩).2.Fits ∧ ∃ before list stored copy after,
        callsAndSum.cloneAll (some twoCalls) = (.ok (some clonesOfTwoCalls), before) ∧
        before.pushExprs clonesOfTwoCalls = .ok (list, stored) ∧
        stored.alloc ⟨.multi list, ⟨0, 9⟩, .int⟩ = (copy, after) ∧
        callsAndSum.clone ⟨3⟩ = (.ok copy, after) ∧
        list.read? after.exprLists = some clonesOfTwoCalls) ∧
    callsAndSum.node? ⟨5⟩ = some ⟨.multi ⟨6, 2⟩, ⟨0, 8⟩, .int⟩ ∧
      ListRange.read? ⟨6, 2⟩ callsAndSum.exprLists = some referenceAndSum ∧
      (∀ entry ∈ referenceAndSum, entry = .invalid ∨ entry.index < (⟨5⟩ : ExprId).index) ∧
      (callsAndSum.clone ⟨5⟩).2.Fits ∧ ∃ after,
        callsAndSum.clone ⟨5⟩ = (.error sumIsCyclic, after) ∧
        callsAndSum.cloneAll (some referenceAndSum) = (.error sumIsCyclic, after) := by
  constructor
  · have found : callsAndSum.node? ⟨3⟩ = some ⟨.multi ⟨2, 4⟩, ⟨0, 9⟩, .int⟩ := rfl
    have read : ListRange.read? ⟨2, 4⟩ callsAndSum.exprLists = some twoCalls := by decide
    have precede : ∀ entry ∈ twoCalls, entry = .invalid ∨ entry.index < (⟨3⟩ : ExprId).index := by
      decide
    have fits : (callsAndSum.clone ⟨3⟩).2.Fits := by decide +kernel
    have cloned : (callsAndSum.cloneAll (some twoCalls)).1 = .ok (some clonesOfTwoCalls) := by
      decide +kernel
    obtain ⟨list, stored, copy, after, pushed, added, copied, _placed, kept⟩ :=
      (sequence_clones_as_its_entries found read precede fits).2.1 _ _ (Prod.ext cloned rfl)
    exact ⟨found, read, precede, fits, _, list, stored, copy, after, Prod.ext cloned rfl, pushed,
      added, copied, kept⟩
  · have found : callsAndSum.node? ⟨5⟩ = some ⟨.multi ⟨6, 2⟩, ⟨0, 8⟩, .int⟩ := rfl
    have read : ListRange.read? ⟨6, 2⟩ callsAndSum.exprLists = some referenceAndSum := by decide
    have precede : ∀ entry ∈ referenceAndSum,
        entry = .invalid ∨ entry.index < (⟨5⟩ : ExprId).index := by decide
    have fits : (callsAndSum.clone ⟨5⟩).2.Fits := by decide +kernel
    have ended : (callsAndSum.clone ⟨5⟩).1 = .error sumIsCyclic := by decide +kernel
    have endedToo := ((sequence_clones_as_its_entries found read precede fits).2.2 _ _).mp
      (Prod.ext ended rfl)
    exact ⟨found, read, precede, fits, _, Prod.ext ended rfl, endedToo⟩

end CompilerIR.Arena
