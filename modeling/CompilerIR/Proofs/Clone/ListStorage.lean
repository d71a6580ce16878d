import CompilerIR.Proofs.Arena.Layout
import CompilerIR.Proofs.Arena.ListOccurrence
import CompilerIR.Proofs.Clone.Isomorphism

/-!
Where a clone keeps its lists. Main statement: the clone of a well-formed tree adds the clones of
the lists of the tree, in the order in which the tree has them, each in a segment of its own, and
nothing else.
-/

namespace CompilerIR

open Arena

structure StorageRelation (α : Type) where
  Stands : Arena → α → α → Prop
  ranges : Arena → α → List ExprRange
  later : ∀ {before after : Arena}, before.Extends after → ∀ {piece copy : α},
    Stands before piece copy → Stands after piece copy ∧ ranges after copy = ranges before copy

/-- The pieces have been cloned in their order, from `before` on up to `after`, and the ranges of
their clones are where the storage has grown. -/
structure StorageRelation.Stores {α : Type} (relation : StorageRelation α) (before after : Arena)
    (pieces copies : List α) : Prop where
  stand : List.Forall₂ (relation.Stands after) pieces copies
  tiles : ListRange.Tiles before.exprLists.size (copies.flatMap (relation.ranges after))
    after.exprLists.size

theorem StorageRelation.stores_single {α : Type} {relation : StorageRelation α}
    {before after : Arena} {piece copy : α} :
    relation.Stores before after [piece] [copy] ↔ relation.Stands after piece copy ∧
      ListRange.Tiles before.exprLists.size (relation.ranges after copy) after.exprLists.size := by
  rw [← List.flatMap_singleton (relation.ranges after) copy]
  exact ⟨fun ⟨stand, tiles⟩ => ⟨(List.forall₂_cons.mp stand).1, tiles⟩,
    fun ⟨stands, tiles⟩ => ⟨.cons stands .nil, tiles⟩⟩

theorem StorageRelation.Stores.append {α : Type} {relation : StorageRelation α}
    {before middle after : Arena} (extended : middle.Extends after)
    {pieces copies others otherCopies : List α}
    (first : relation.Stores before middle pieces copies)
    (second : relation.Stores middle after others otherCopies) :
    relation.Stores before after (pieces ++ others) (copies ++ otherCopies) := by
  have sameRanges : copies.flatMap (relation.ranges after) =
      copies.flatMap (relation.ranges middle) :=
    flatMap_eq_of_forall₂ first.stand fun _ _ stands => (relation.later extended stands).2
  refine ⟨?_, ?_⟩
  · have standLater := first.stand.imp fun _ _ stands => (relation.later extended stands).1
    exact List.rel_append standLater second.stand
  · rw [List.flatMap_append, sameRanges]
    exact first.tiles.append second.tiles

theorem StorageRelation.sequential {α : Type} (relation : StorageRelation α) :
    Sequential fun before after (pieces copies : List α) =>
      after.Fits → relation.Stores before after pieces copies where
  nil _arena := fun _fits => ⟨.nil, .nil _⟩
  cons first toAfter second := fun fits => (first (toAfter.fits fits)).append toAfter (second fits)

def Slot.ownRanges : Slot → List ExprRange
  | .child _ => []
  | .list range => [range]

namespace Arena

def ranges (arena : Arena) (id : ExprId) : List ExprRange :=
  (arena.listOccurrences id).map OwnedList.range

end Arena

def Slot.ranges (arena : Arena) (slot : Slot) : List ExprRange :=
  (slot.entries arena.exprLists).flatMap arena.ranges ++ slot.ownRanges

theorem Slot.ranges_of_read? {arena : Arena} {range : ExprRange} {entries : List ExprId}
    (read : range.read? arena.exprLists = some entries) :
    (Slot.list range).ranges arena = entries.flatMap arena.ranges ++ [range] := by
  rw [Slot.ranges, Slot.entries_of_read? read]
  rfl

theorem Slot.map_range_listOccurrences (arena : Arena) (owner : ExprId) (slot : Slot) :
    (slot.listOccurrences arena owner).map OwnedList.range = slot.ranges arena := by
  rw [Slot.listOccurrences, List.map_append, List.map_flatMap, Slot.ranges]
  congr 1
  cases slot <;> rfl

namespace Arena

theorem ranges_of_node? {arena : Arena} {id : ExprId} {node : Node}
    (found : arena.node? id = some node) (precede : arena.ChildrenPrecede id) :
    arena.ranges id = node.kind.slots.flatMap (Slot.ranges arena) := by
  rw [ranges, listOccurrences_of_node? found precede, List.map_flatMap]
  apply List.flatMap_congr
  exact fun slot _member => slot.map_range_listOccurrences arena id

/-- The clone is a copy of the tree at `id`. It is a new node, unless there is nothing to clone or
clones share the node. -/
structure CloneStands (original after : Arena) (id copy : ExprId) : Prop where
  tree : original.TreeStands after id copy
  place : copy = id ∧ (id = .invalid ∨ original.shares id = true) ∨ original.size ≤ copy.index

structure RangeCopied (original after : Arena) (range copy : ExprRange) : Prop where
  entries : ∃ entries clones, range.read? original.exprLists = some entries ∧
    copy.read? after.exprLists = some clones ∧
    List.Forall₂ (original.CloneStands after) entries clones
  empty : range.isEmpty = true → copy = .empty

structure ListCopied (original after : Arena) (list copy : OwnedList) : Prop where
  owner : original.TreeStands after list.owner copy.owner
  added : original.size ≤ copy.owner.index
  range : original.RangeCopied after list.range copy.range

section Extension

variable {original before after : Arena} (extended : before.Extends after)

include extended

theorem CloneStands.later {id copy : ExprId} (stands : original.CloneStands before id copy) :
    original.CloneStands after id copy :=
  ⟨(stands.tree.later extended).1, stands.place⟩

theorem RangeCopied.later {range copy : ExprRange}
    (copied : original.RangeCopied before range copy) : original.RangeCopied after range copy := by
  obtain ⟨⟨entries, clones, read, kept, stand⟩, empty⟩ := copied
  exact ⟨⟨entries, clones, read, extended.read? kept,
    stand.imp fun _ _ stands => stands.later extended⟩, empty⟩

theorem ListCopied.later {list copy : OwnedList} (copied : original.ListCopied before list copy) :
    original.ListCopied after list copy :=
  ⟨(copied.owner.later extended).1, copied.added, copied.range.later extended⟩

end Extension

def treeStorage (original : Arena) : StorageRelation ExprId where
  Stands arena id copy := original.CloneStands arena id copy ∧
    List.Forall₂ (original.ListCopied arena) (original.listOccurrences id)
      (arena.listOccurrences copy)
  ranges := Arena.ranges
  later := by
    intro before after extended id copy ⟨stands, copied⟩
    obtain ⟨_tree, _unfolded, unfoldedCopy⟩ := stands.tree
    have same := extended.listOccurrences unfoldedCopy
    refine ⟨⟨stands.later extended, ?_⟩, ?_⟩
    · rw [same]
      exact copied.imp fun _ _ copied => copied.later extended
    · rw [Arena.ranges, same, Arena.ranges]

inductive SlotStored (original after : Arena) : Slot → Slot → Prop
  | child {id copy : ExprId} (stands : original.treeStorage.Stands after id copy) :
      SlotStored original after (.child id) (.child copy)
  | list {range copy : ExprRange} {entries clones : List ExprId}
      (read : range.read? original.exprLists = some entries)
      (kept : copy.read? after.exprLists = some clones)
      (empty : range.isEmpty = true → copy = .empty)
      (stand : List.Forall₂ (original.treeStorage.Stands after) entries clones) :
      SlotStored original after (.list range) (.list copy)

def slotStorage (original : Arena) : StorageRelation Slot where
  Stands := original.SlotStored
  ranges := Slot.ranges
  later := by
    intro before after extended slot copy stored
    have laterEach (id copy : ExprId) (stands : original.treeStorage.Stands before id copy) :=
      original.treeStorage.later extended stands
    cases stored with
    | child stands =>
        refine ⟨.child (laterEach _ _ stands).1, ?_⟩
        simp only [Slot.ranges, Slot.entries, List.flatMap_singleton]
        exact congrArg (· ++ _) (laterEach _ _ stands).2
    | list read kept empty stand =>
        refine ⟨.list read (extended.read? kept) empty (stand.imp fun _ _ stands =>
          (laterEach _ _ stands).1), ?_⟩
        rw [Slot.ranges_of_read? kept, Slot.ranges_of_read? (extended.read? kept)]
        exact congrArg (· ++ _) (flatMap_eq_of_forall₂ stand fun id clone stands =>
          (laterEach id clone stands).2)

theorem SlotStored.stands {original after : Arena} {slot filled : Slot}
    (stored : original.SlotStored after slot filled) : original.SlotStands after slot filled := by
  cases stored with
  | child stands => exact .child stands.1.tree
  | list read kept _empty stand =>
      exact .list read kept (stand.imp fun _ _ stands => stands.1.tree)

theorem SlotStored.listOccurrences {original after : Arena} {slot filled : Slot} {id copy : ExprId}
    (owner : original.TreeStands after id copy) (added : original.size ≤ copy.index)
    (stored : original.SlotStored after slot filled) :
    List.Forall₂ (original.ListCopied after) (slot.listOccurrences original id)
      (filled.listOccurrences after copy) := by
  cases stored with
  | child stands =>
      simp only [Slot.listOccurrences, Slot.lists, Slot.entries, List.flatMap_singleton,
        List.append_nil]
      exact stands.2
  | list read kept empty stand =>
      rw [Slot.listOccurrences, Slot.listOccurrences, Slot.entries_of_read? read,
        Slot.entries_of_read? kept]
      apply List.rel_append
      · exact List.rel_flatMap stand fun _ _ stands => stands.2
      · have clones := stand.imp fun _ _ stands => stands.1
        exact .cons ⟨owner, added, ⟨_, _, read, kept, clones⟩, empty⟩ .nil

/-! ### The walk -/

theorem treeStorage_of_no_lists {original before : Arena} {id copy : ExprId}
    (stands : original.CloneStands before id copy) (noLists : original.listOccurrences id = [])
    (noCopies : before.listOccurrences copy = []) :
    original.treeStorage.Stores before before [id] [copy] := by
  have noRanges : original.treeStorage.ranges before copy = [] :=
    congrArg (List.map OwnedList.range) noCopies
  refine StorageRelation.stores_single.mpr ⟨⟨stands, ?_⟩, ?_⟩
  · rw [noLists, noCopies]
    exact .nil
  · rw [noRanges]
    exact .nil _

theorem treeStorage_invalid (original before : Arena) :
    original.treeStorage.Stores before before [.invalid] [.invalid] :=
  treeStorage_of_no_lists ⟨⟨.empty, unfold_invalid original, unfold_invalid before⟩,
    Or.inl ⟨rfl, Or.inl rfl⟩⟩ original.listOccurrences_invalid before.listOccurrences_invalid

theorem treeStorage_of_isShareable {original before : Arena} {id : ExprId} {node : Node}
    (found : original.node? id = some node) (shareable : node.kind.isShareable = true)
    (extended : original.Extends before) (stands : original.TreeStands before id id) :
    original.treeStorage.Stores before before [id] [id] := by
  have shared : original.shares id = true := by rw [shares_of_node? found, shareable]
  exact treeStorage_of_no_lists ⟨stands, Or.inl ⟨rfl, Or.inr shared⟩⟩
    (listOccurrences_of_isShareable found shareable)
    (listOccurrences_of_isShareable (extended.node? found) shareable)

theorem slotStorage_child {original before after : Arena} {id copy : ExprId}
    (stores : original.treeStorage.Stores before after [id] [copy]) :
    original.slotStorage.Stores before after [.child id] [.child copy] := by
  obtain ⟨stands, tiles⟩ := StorageRelation.stores_single.mp stores
  refine StorageRelation.stores_single.mpr ⟨.child stands, ?_⟩
  simpa [slotStorage, treeStorage, Slot.ranges, Slot.entries, Slot.ownRanges] using tiles

/-- The clones of the entries have stored their lists by the time that they are stored
themselves. -/
theorem slotStorage_list {original before middle : Arena} {range : ExprRange}
    {entries clones : List ExprId} (read : range.read? original.exprLists = some entries)
    (fits : (middle.storeExprs clones).2.Fits)
    (stores : original.treeStorage.Stores before middle entries clones) :
    original.slotStorage.Stores before (middle.storeExprs clones).2 [.list range]
      [.list (middle.storeExprs clones).1] := by
  have stored := middle.storeExprs_extends clones
  have sameLength := stores.stand.length_eq
  have short : clones.length ≤ ListRange.maxLength :=
    sameLength ▸ ListRange.length_le_of_read? read
  have room := (stored.fits fits).entries
  have kept := read?_storeExprs short room
  have empty (isEmpty : range.isEmpty = true) : (middle.storeExprs clones).1 = .empty := by
    have none : clones = [] := by
      apply List.eq_nil_of_length_eq_zero
      rw [← sameLength, ListRange.length_eq_of_read? read,
        ListRange.isEmpty_iff_length.mp isEmpty]
    rw [none]
    rfl
  have stand := stores.stand.imp fun _ _ stands => (original.treeStorage.later stored stands).1
  have sameRanges : clones.flatMap (middle.storeExprs clones).2.ranges =
      clones.flatMap middle.ranges :=
    flatMap_eq_of_forall₂ stores.stand fun _ _ stands =>
      (original.treeStorage.later stored stands).2
  have added : original.slotStorage.ranges (middle.storeExprs clones).2
      (.list (middle.storeExprs clones).1) =
        clones.flatMap middle.ranges ++ [(middle.storeExprs clones).1] := by
    rw [← sameRanges]
    exact Slot.ranges_of_read? kept
  refine StorageRelation.stores_single.mpr ⟨.list read kept empty stand, ?_⟩
  rw [added]
  exact stores.tiles.append (ListRange.tiles_append short room)

/-- A new node stores nothing further, its lists being those of its slots. -/
theorem treeStorage_alloc {original before middle : Arena} {id : ExprId} {node : Node}
    {filled : List Slot} (found : original.node? id = some node)
    (precede : original.ChildrenPrecede id) (grown : original.size ≤ middle.size)
    (fits : (middle.alloc (node.copyWith filled)).2.Fits)
    (stores : original.slotStorage.Stores before middle node.kind.slots filled) :
    original.treeStorage.Stores before (middle.alloc (node.copyWith filled)).2 [id]
      [(middle.alloc (node.copyWith filled)).1] := by
  have extended := middle.alloc_extends (node.copyWith filled)
  have room := (extended.fits fits).nodes
  have last : (middle.alloc (node.copyWith filled)).1.index = middle.size :=
    ExprId.index_ofIndex (by omega)
  have added : original.size ≤ (middle.alloc (node.copyWith filled)).1.index := last ▸ grown
  have foundCopy := node?_alloc room (node.copyWith filled)
  obtain ⟨sameSlots, stands⟩ := treeStands_alloc found precede room
    (stores.stand.imp fun _ _ stored => SlotStored.stands stored)
  have ⟨_tree, _unfolded, unfoldedCopy⟩ := stands
  have precedeCopy := (wellFormedAt_of_unfold unfoldedCopy).childrenPrecede
  have stand := stores.stand.imp fun _ _ stored => (original.slotStorage.later extended stored).1
  have sameRanges : filled.flatMap (Slot.ranges (middle.alloc (node.copyWith filled)).2) =
      filled.flatMap (Slot.ranges middle) :=
    flatMap_eq_of_forall₂ stores.stand fun _ _ stored =>
      (original.slotStorage.later extended stored).2
  have own : original.treeStorage.ranges (middle.alloc (node.copyWith filled)).2
      (middle.alloc (node.copyWith filled)).1 = filled.flatMap (Slot.ranges middle) := by
    rw [← sameRanges]
    exact (ranges_of_node? foundCopy precedeCopy).trans (by rw [sameSlots])
  refine StorageRelation.stores_single.mpr ⟨⟨⟨stands, Or.inr added⟩, ?_⟩, ?_⟩
  · rw [listOccurrences_of_node? found precede, listOccurrences_of_node? foundCopy precedeCopy,
      sameSlots]
    exact List.rel_flatMap stand fun _ _ stored => SlotStored.listOccurrences stands added stored
  · rw [own]
    exact stores.tiles

theorem storageInvariant (original : Arena) : original.WalkInvariant
    (fun before after ids copies =>
      after.Fits → original.treeStorage.Stores before after ids copies)
    (fun before after slots copies =>
      after.Fits → original.slotStorage.Stores before after slots copies) where
  trees := original.treeStorage.sequential
  slots := original.slotStorage.sequential
  empty arena := fun _fits => treeStorage_invalid original arena
  shared found shareable wellFormed extended := fun fits =>
    treeStorage_of_isShareable found shareable extended
      ((treeCopies_of_isShareable found shareable wellFormed extended).single fits)
  child stores := fun fits => slotStorage_child (stores fits)
  list read _counted stores := fun fits =>
    slotStorage_list read fits (stores ((storeExprs_extends _ _).fits fits))
  node found precede _owned extended stores := fun fits =>
    treeStorage_alloc found precede extended.size_le fits
      (stores ((alloc_extends _ _).fits fits))

/-! ### The lists of the new nodes -/

def addedLists (original after : Arena) : List OwnedList :=
  (List.range' original.size (after.size - original.size)).flatMap fun index =>
    after.ownLists (.ofIndex index)

theorem flatMap_ownLists_standIns {original after : Arena} (extended : original.Extends after)
    (next : Nat) (ids : List ExprId) :
    (original.standIns next ids).flatMap after.ownLists =
      (List.range' next (original.copied ids).length).flatMap fun index =>
        after.ownLists (.ofIndex index) := by
  induction ids generalizing next with
  | nil => rfl
  | cons id ids inductionHypothesis =>
      by_cases shared : original.shares id = true
      · rw [standIns, if_pos shared, copied_cons_of_shares shared, List.flatMap_cons,
          ownLists_of_shares (extended.shares shared), List.nil_append, inductionHypothesis]
      · rw [standIns, if_neg shared, copied_cons_of_not_shares shared, List.flatMap_cons,
          inductionHypothesis, List.length_cons, List.range'_succ, List.flatMap_cons]

/-- Where the clone of a tree keeps its lists: what has been appended are the clones of the lists of
the tree, one behind the other in the order of the tree, and no two lists of new nodes share an
entry, nor do they with what was there before. -/
structure StoresLists (original after : Arena) (id copy : ExprId) : Prop where
  copied : List.Forall₂ (original.ListCopied after) (original.listOccurrences id)
    (after.listOccurrences copy)
  appended : after.exprLists.toList = original.exprLists.toList ++
    (after.listOccurrences copy).flatMap fun list => (Slot.list list.range).entries after.exprLists
  tiles : ListRange.Tiles original.exprLists.size (after.ranges copy) after.exprLists.size
  added : (after.listOccurrences copy).Perm (original.addedLists after)
  disjoint : (original.addedLists after).Pairwise fun first second =>
    first.range.Disjoint second.range
  apart : ∀ list ∈ original.addedLists after, ∀ position, list.range.Covers position →
    original.exprLists.size ≤ position
  growth : after.exprLists.size = original.exprLists.size +
    ((original.listOccurrences id).map fun list => list.range.length).sum

theorem ListCopied.length_eq {original after : Arena} {list copy : OwnedList}
    (copied : original.ListCopied after list copy) : list.range.length = copy.range.length := by
  obtain ⟨entries, clones, read, kept, stand⟩ := copied.range.entries
  rw [← ListRange.length_eq_of_read? read, ← ListRange.length_eq_of_read? kept, stand.length_eq]

theorem storesLists_of_stores {original after : Arena} {id copy : ExprId}
    (extended : original.Extends after) (fits : after.Fits)
    (copies : original.treeCopies.Copies original original after [id] [copy])
    (stores : original.treeStorage.Stores original after [id] [copy]) :
    original.StoresLists after id copy := by
  obtain ⟨stands, copied⟩ := (StorageRelation.stores_single.mp stores).1
  have tiles : ListRange.Tiles original.exprLists.size (after.ranges copy) after.exprLists.size :=
    (StorageRelation.stores_single.mp stores).2
  have lengths : (original.listOccurrences id).map (fun list => list.range.length) =
      (after.ranges copy).map ListRange.length := by
    rw [ranges, List.map_map, ← List.forall₂_eq_eq_eq, List.forall₂_map_left_iff,
      List.forall₂_map_right_iff]
    exact copied.imp fun _ _ copied => copied.length_eq
  have added : (after.listOccurrences copy).Perm (original.addedLists after) := by
    obtain ⟨_tree, _unfolded, unfoldedCopy⟩ := stands.tree
    have size := copies.size
    have numbered := copies.numbered fits
    simp only [treeCopies, List.flatMap_singleton] at size numbered
    -- The nodes of the copy are the new ones and shared ones, and the latter have no lists.
    have count : after.size - original.size =
        (original.copied (original.occurrences id)).length := by omega
    rw [addedLists, count, ← flatMap_ownLists_standIns extended, ← numbered]
    exact (wellFormedAt_of_unfold unfoldedCopy).listOccurrences_perm (admits_of_unfold unfoldedCopy)
  refine ⟨copied, ?_, tiles, added, ?_, ?_, ?_⟩
  · obtain ⟨more, appended⟩ := extended.exprLists
    have rest := tiles.drop_eq_flatMap
    rw [← appended, ← Array.length_toList, List.drop_left] at rest
    rw [← appended, rest, ranges, List.flatMap_map]
    rfl
  · have apart := List.pairwise_map.mp tiles.pairwise_disjoint
    refine added.pairwise apart ?_
    exact fun separate position covered => separate position covered.symm
  · intro list member position covered
    have present : list.range ∈ after.ranges copy :=
      List.mem_map_of_mem (added.mem_iff.mpr member)
    exact (tiles.bounds_of_covers present covered).1
  · rw [lengths]
    exact tiles.stop_eq

theorem WellFormedAt.clone_stores {arena after : Arena} {id copy : ExprId}
    (wellFormed : arena.WellFormedAt id) (admitted : arena.Admits id) (fits : after.Fits)
    (done : arena.clone id = (.ok copy, after)) :
    arena.treeStorage.Stores arena after [id] [copy] :=
  arena.storageInvariant.clone wellFormed admitted (.refl arena) done fits

theorem clone_gives_lists_storage_of_their_own {arena : Arena} {id : ExprId}
    (admitted : arena.Admits id) (wellFormed : arena.WellFormedAt id)
    (fits : (arena.clone id).2.Fits) :
    ∃ copy after, arena.clone id = (.ok copy, after) ∧ arena.StoresLists after id copy := by
  obtain ⟨copy, after, cloned⟩ := wellFormed.clone_ok admitted
  have extended := arena.clone_extends id
  rw [cloned] at fits extended
  exact ⟨copy, after, cloned, storesLists_of_stores extended fits
    (wellFormed.clone_copies admitted cloned) (wellFormed.clone_stores admitted fits cloned)⟩

def listsWithin : Arena where
  nodes := #[⟨.int 7, ⟨0, 1⟩, .int⟩, ⟨.localRef ⟨0⟩, ⟨0, 1⟩, .int⟩, ⟨.multi ⟨9, 0⟩, ⟨0, 2⟩, .int⟩,
    ⟨.multi ⟨0, 2⟩, ⟨0, 3⟩, .int⟩,
    -- The first of its initializers is the receiver of the call as well.
    ⟨.newArray .root (some ⟨2, 1⟩) (some ⟨3, 2⟩) ⟨0, 0⟩, ⟨3, 9⟩, .root⟩,
    ⟨.methodCall ⟨3⟩ ⟨0⟩ ⟨5, 1⟩ true, ⟨0, 9⟩, .int⟩]
  exprLists := #[⟨2⟩, ⟨0⟩, ⟨1⟩, ⟨3⟩, .invalid, ⟨4⟩]
  typeLists := #[]

theorem listsWithin_clone_stores : listsWithin.Admits ⟨5⟩ ∧ listsWithin.WellFormedAt ⟨5⟩ ∧
    (listsWithin.clone ⟨5⟩).2.Fits ∧ (listsWithin.clone ⟨5⟩).1 = .ok ⟨12⟩ ∧
    listsWithin.StoresLists (listsWithin.clone ⟨5⟩).2 ⟨5⟩ ⟨12⟩ ∧
    (listsWithin.clone ⟨5⟩).2.exprLists = listsWithin.exprLists ++
      #[⟨6⟩, ⟨0⟩, ⟨8⟩, ⟨9⟩, ⟨0⟩, ⟨10⟩, .invalid, ⟨11⟩] := by
  have admitted : listsWithin.Admits ⟨5⟩ := by decide
  have wellFormed : listsWithin.WellFormedAt ⟨5⟩ :=
    wellFormedAt_of_forall (by decide) (by decide) ⟨5⟩
  have fits : (listsWithin.clone ⟨5⟩).2.Fits := by decide +kernel
  have copied : (listsWithin.clone ⟨5⟩).1 = .ok ⟨12⟩ := by decide +kernel
  have appended : (listsWithin.clone ⟨5⟩).2.exprLists = listsWithin.exprLists ++
      #[⟨6⟩, ⟨0⟩, ⟨8⟩, ⟨9⟩, ⟨0⟩, ⟨10⟩, .invalid, ⟨11⟩] := by
    decide +kernel
  obtain ⟨copy, after, cloned, stores⟩ :=
    clone_gives_lists_storage_of_their_own admitted wellFormed fits
  rw [cloned] at fits copied appended ⊢
  cases copied
  exact ⟨admitted, wellFormed, fits, rfl, stores, appended⟩

end Arena

end CompilerIR
