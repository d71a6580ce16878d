import CompilerIR.Proofs.Arena.Reference

/-!
Arenas in which every node and every list refers to earlier nodes only. Main statements:
whatever is added to such an arena, if it refers to what is there already, leaves it such an
arena.
-/

namespace CompilerIR

def Slot.Admitted (arena : Arena) : Slot → Prop
  | .child id => arena.Admits id
  | .list range => (Slot.list range).Inside arena.exprLists

theorem Slot.Admitted.inside {arena : Arena} {slot : Slot} (admitted : slot.Admitted arena) :
    slot.Inside arena.exprLists := by
  cases slot with
  | child id => trivial
  | list range => exact admitted

theorem ListRange.mem_of_read? {α : Type} {range : ListRange α} {storage : Array α}
    {entries : List α} (read : range.read? storage = some entries) {entry : α}
    (member : entry ∈ entries) : entry ∈ storage := by
  unfold ListRange.read? at read
  split at read
  · cases read
    cases member
  · split at read
    · cases read
      rw [Array.mem_toList_iff, Array.mem_extract_iff_getElem] at member
      obtain ⟨offset, _bound, rfl⟩ := member
      exact Array.getElem_mem _
    · cases read

theorem Slot.mem_storage_of_mem_entries {storage : Array ExprId} {range : ExprRange} {id : ExprId}
    (held : id ∈ (Slot.list range).entries storage) : id ∈ storage := by
  cases read : range.read? storage with
  | none =>
      rw [Slot.entries, read] at held
      cases held
  | some entries =>
      rw [Slot.entries_of_read? read] at held
      exact ListRange.mem_of_read? read held

namespace Arena

/-- The entries of lists that no node owns yet count as well: a later node may take such a
list over, and then they have to precede it. -/
structure Sound (arena : Arena) : Prop where
  childrenPrecede : ∀ owner, arena.ChildrenPrecede owner
  listsInside : ∀ node ∈ arena.nodes, ∀ slot ∈ node.kind.slots, slot.Inside arena.exprLists
  entriesAdmitted : ∀ id ∈ arena.exprLists, arena.Admits id

theorem sound_empty : empty.Sound where
  childrenPrecede := childrenPrecede_of_forall fun index => index.elim0
  listsInside := by
    intro node present
    cases present with
    | mk present => cases present
  entriesAdmitted := by
    intro id present
    cases present with
    | mk present => cases present

theorem mem_nodes_of_node? {arena : Arena} {id : ExprId} {node : Node}
    (found : arena.node? id = some node) : node ∈ arena.nodes :=
  Array.mem_of_getElem? (node?_eq_some_iff.mp found).2

theorem Admits.precedes {arena : Arena} {id : ExprId} (admitted : arena.Admits id) :
    id = .invalid ∨ id.index < arena.size := by
  rcases admitted.cases with empty | ⟨node, found⟩
  · exact Or.inl empty
  · exact Or.inr (index_lt_size found)

section Sound

variable {arena : Arena} (sound : arena.Sound)

include sound

theorem Sound.wellFormedAt (id : ExprId) : arena.WellFormedAt id := by
  intro owner _reached
  refine ⟨sound.childrenPrecede owner, ?_⟩
  intro node found
  exact sound.listsInside node (mem_nodes_of_node? found)

theorem Sound.admits_entry {slot : Slot} (admitted : slot.Admitted arena) {id : ExprId}
    (held : id ∈ slot.entries arena.exprLists) : arena.Admits id := by
  cases slot with
  | child child =>
      rcases List.mem_singleton.mp held with rfl
      exact admitted
  | list range => exact sound.entriesAdmitted id (Slot.mem_storage_of_mem_entries held)

end Sound

section Extension

variable {before after : Arena} (extended : before.Extends after)

include extended

theorem Extends.admits {id : ExprId} (admitted : before.Admits id) : after.Admits id := by
  rcases admitted.cases with empty | ⟨node, found⟩
  · exact Or.inl empty
  · exact Or.inr (exists_node?_iff.mp ⟨node, extended.node? found⟩)

theorem Extends.exprLists_size_le : before.exprLists.size ≤ after.exprLists.size := by
  have bound := extended.exprLists.length_le
  simpa only [Array.length_toList] using bound

theorem Extends.inside {slot : Slot} (inside : slot.Inside before.exprLists) :
    slot.Inside after.exprLists := by
  have bound := extended.exprLists_size_le
  cases slot with
  | child id => trivial
  | list range => exact inside.imp_right fun stops => Nat.le_trans stops bound

theorem Extends.admitted {slot : Slot} (admitted : slot.Admitted before) : slot.Admitted after := by
  cases slot with
  | child id => exact extended.admits admitted
  | list range => exact extended.inside admitted.inside

theorem Extends.childrenPrecede (sound : before.Sound) {owner : ExprId} {node : Node}
    (found : before.node? owner = some node) : after.ChildrenPrecede owner := by
  intro child refers
  rw [Refers, extended.children found (sound.wellFormedAt owner).listsInside] at refers
  exact sound.childrenPrecede owner child refers

end Extension

/-! ### Adding -/

theorem node?_alloc_eq_some {arena : Arena} {added held : Node} {id : ExprId}
    (found : (arena.alloc added).2.node? id = some held) :
    arena.node? id = some held ∨ id.index = arena.size ∧ held = added := by
  obtain ⟨valid, present⟩ := node?_eq_some_iff.mp found
  rw [get?, alloc, Array.getElem?_push] at present
  split at present
  · rename_i last
    cases present
    exact Or.inr ⟨last, rfl⟩
  · exact Or.inl (node?_eq_some_iff.mpr ⟨valid, present⟩)

/-- The number given out is at most the size, even where it no longer fits into an
identity. -/
theorem admits_alloc (arena : Arena) (node : Node) :
    (arena.alloc node).2.Admits (arena.alloc node).1 := by
  by_cases valid : (arena.alloc node).1.isValid = true
  · right
    have number : (arena.alloc node).1.index ≤ arena.size := by
      change (UInt32.ofNat arena.size).toNat ≤ arena.size
      rw [UInt32.toNat_ofNat']
      exact Nat.mod_le _ _
    simp only [contains, valid, size_alloc, Bool.true_and, decide_eq_true_eq]
    omega
  · left
    exact ExprId.eq_invalid_of_not_isValid valid

theorem Sound.alloc {arena : Arena} (sound : arena.Sound) {node : Node}
    (admitted : ∀ slot ∈ node.kind.slots, slot.Admitted arena) : (arena.alloc node).2.Sound := by
  have extended := arena.alloc_extends node
  constructor
  · intro owner child refers
    cases found : (arena.alloc node).2.node? owner with
    | none =>
        rw [Refers, children, found] at refers
        cases refers
    | some held =>
        rcases node?_alloc_eq_some found with old | ⟨last, rfl⟩
        · exact extended.childrenPrecede sound old child refers
        · rw [Refers, children_of_node? found, List.mem_flatMap] at refers
          obtain ⟨slot, member, present⟩ := refers
          rw [last]
          exact (sound.admits_entry (admitted slot member) present).precedes
  · intro held present
    rcases Array.mem_push.mp present with old | rfl
    · exact sound.listsInside held old
    · exact fun slot member => (admitted slot member).inside
  · exact fun id present => extended.admits (sound.entriesAdmitted id present)

theorem toList_storeExprs (arena : Arena) (ids : List ExprId) :
    (arena.storeExprs ids).2.exprLists.toList = arena.exprLists.toList ++ ids :=
  ListRange.toList_append arena.exprLists ids

/-- A start or a length that does not fit comes out smaller, so that even then the range
does not leave the storage. -/
theorem stop_storeExprs_le (arena : Arena) (ids : List ExprId) :
    (arena.storeExprs ids).1.stop ≤ (arena.storeExprs ids).2.exprLists.size := by
  have stored : (arena.storeExprs ids).2.exprLists.size = arena.exprLists.size + ids.length :=
    ListRange.size_append arena.exprLists ids
  cases ids with
  | nil => exact Nat.zero_le _
  | cons first rest =>
      have start := Nat.mod_le arena.exprLists.size (2 ^ 32)
      have count := Nat.mod_le (first :: rest).length (2 ^ 16)
      rw [stored]
      simp only [storeExprs, ListRange.append, ListRange.stop, ListRange.length,
        UInt32.toNat_ofNat', UInt16.toNat_ofNat']
      omega

theorem admitted_storeExprs (arena : Arena) (ids : List ExprId) :
    (Slot.list (arena.storeExprs ids).1).Admitted (arena.storeExprs ids).2 :=
  Or.inr (arena.stop_storeExprs_le ids)

theorem Sound.storeExprs {arena : Arena} (sound : arena.Sound) {ids : List ExprId}
    (admitted : ∀ id ∈ ids, arena.Admits id) : (arena.storeExprs ids).2.Sound := by
  have extended := arena.storeExprs_extends ids
  constructor
  · intro owner child refers
    cases found : arena.node? owner with
    | none =>
        have nothing : (arena.storeExprs ids).2.node? owner = none := found
        rw [Refers, children, nothing] at refers
        cases refers
    | some node => exact extended.childrenPrecede sound found child refers
  · intro node present slot member
    exact extended.inside (sound.listsInside node present slot member)
  · intro id present
    rw [← Array.mem_toList_iff, toList_storeExprs, List.mem_append] at present
    rcases present with old | new
    · exact extended.admits (sound.entriesAdmitted id (Array.mem_toList_iff.mp old))
    · exact extended.admits (admitted id new)

theorem Sound.pushTypes {arena : Arena} (sound : arena.Sound) (types : List TypeId) :
    (arena.pushTypes types).2.Sound :=
  ⟨sound.childrenPrecede, sound.listsInside, sound.entriesAdmitted⟩

end Arena

end CompilerIR
