import CompilerIR.Proofs.Arena.Store
import CompilerIR.Proofs.Clone.Growth

/-!
What cloning adds. Main statement: whatever is wrong with an arena and however a request ends, the
nodes that it has added hold nothing but shared nodes and nodes added before them, so that each of
them can be cloned ever after.
-/

namespace CompilerIR

open Arena

def Slot.Within (storage : Array ExprId) : Slot → Prop
  | .child _ => True
  | .list range => range.stop ≤ storage.size

theorem Slot.Within.inside {storage : Array ExprId} {slot : Slot} (within : slot.Within storage) :
    slot.Inside storage := by
  cases slot with
  | child id => trivial
  | list range => exact Or.inr within

namespace Arena

/-- What a node that has been added to `original` at `limit` may hold: nothing, a shared node that
comes before it, or a node that was added before it. -/
def Settled (original arena : Arena) (limit : Nat) (id : ExprId) : Prop :=
  id = .invalid ∨ id.index < limit ∧ (arena.shares id = true ∨ original.size ≤ id.index)

structure SettledSlot (original arena : Arena) (limit : Nat) (slot : Slot) : Prop where
  within : slot.Within arena.exprLists
  entries : ∀ id ∈ slot.entries arena.exprLists, original.Settled arena limit id

/-- `arena` is `original` with additions that refer to shared nodes and to each other only. The
list entries that no node owns yet count as well. -/
structure AddsSettled (original arena : Arena) : Prop where
  extended : original.Extends arena
  nodes : ∀ owner node, original.size ≤ owner.index → arena.node? owner = some node →
    ∀ slot ∈ node.kind.slots, original.SettledSlot arena owner.index slot
  entries : ∀ position id, original.exprLists.size ≤ position →
    arena.exprLists[position]? = some id → original.Settled arena arena.size id

theorem addsSettled_refl (original : Arena) : original.AddsSettled original where
  extended := .refl original
  nodes owner node added found := by
    have old := index_lt_size found
    omega
  entries position id added held := by
    have old := (Array.getElem?_eq_some_iff.mp held).1
    omega

section Extension

variable {original before after : Arena} (extended : before.Extends after)

include extended

theorem Settled.later {limit next : Nat} (grown : limit ≤ next) {id : ExprId}
    (settled : original.Settled before limit id) : original.Settled after next id :=
  settled.imp_right fun ⟨precedes, kept⟩ =>
    ⟨Nat.lt_of_lt_of_le precedes grown, kept.imp_left extended.shares⟩

theorem SettledSlot.later {limit next : Nat} (grown : limit ≤ next) {slot : Slot}
    (settled : original.SettledSlot before limit slot) :
    original.SettledSlot after next slot := by
  have sameEntries : slot.entries after.exprLists = slot.entries before.exprLists := by
    apply extended.entries
    rintro range rfl
    exact Slot.Inside.read? settled.within.inside
  constructor
  · cases slot with
    | child id => trivial
    | list range => exact Nat.le_trans settled.within extended.exprLists_size_le
  · rw [sameEntries]
    exact fun id held => (settled.entries id held).later extended grown

end Extension

/-! ### Adding -/

section Adding

variable {original arena : Arena} (settled : original.AddsSettled arena)

include settled

theorem AddsSettled.alloc {node : Node}
    (slots : ∀ slot ∈ node.kind.slots, original.SettledSlot arena arena.size slot) :
    original.AddsSettled (arena.alloc node).2 := by
  have extended := arena.alloc_extends node
  refine ⟨settled.extended.trans extended, ?_, ?_⟩
  · intro owner held added found slot member
    rcases node?_alloc_eq_some found with old | ⟨last, rfl⟩
    · exact (settled.nodes owner held added old slot member).later extended (Nat.le_refl _)
    · exact (slots slot member).later extended (Nat.le_of_eq last.symm)
  · intro position id added held
    exact (settled.entries position id added held).later extended extended.size_le

theorem AddsSettled.storeExprs {ids : List ExprId}
    (entries : ∀ id ∈ ids, original.Settled arena arena.size id) :
    original.AddsSettled (arena.storeExprs ids).2 := by
  have extended := arena.storeExprs_extends ids
  refine ⟨settled.extended.trans extended, ?_, ?_⟩
  · intro owner node added found slot member
    exact (settled.nodes owner node added found slot member).later extended (Nat.le_refl _)
  · intro position id added held
    rw [← Array.getElem?_toList, toList_storeExprs] at held
    by_cases old : position < arena.exprLists.toList.length
    · rw [List.getElem?_append_left old, Array.getElem?_toList] at held
      exact (settled.entries position id added held).later extended extended.size_le
    · rw [List.getElem?_append_right (Nat.le_of_not_lt old)] at held
      exact (entries id (List.mem_of_getElem? held)).later extended extended.size_le

/-- A clone is settled, be it new or shared. -/
theorem AddsSettled.settled_alloc {node : Node} (fits : (arena.alloc node).2.Fits) :
    original.Settled (arena.alloc node).2 (arena.alloc node).2.size (arena.alloc node).1 := by
  have room := ((arena.alloc_extends node).fits fits).nodes
  have last : (arena.alloc node).1.index = arena.size := ExprId.index_ofIndex (by omega)
  have grown := settled.extended.size_le
  refine Or.inr ⟨?_, Or.inr ?_⟩
  · rw [last, size_alloc]
    exact Nat.lt_succ_self _
  · rw [last]
    exact grown

omit settled in
theorem settledSlot_storeExprs {ids : List ExprId} (short : ids.length ≤ ListRange.maxLength)
    (entries : ∀ id ∈ ids, original.Settled arena arena.size id)
    (fits : (arena.storeExprs ids).2.Fits) :
    original.SettledSlot (arena.storeExprs ids).2 (arena.storeExprs ids).2.size
      (.list (arena.storeExprs ids).1) := by
  have extended := arena.storeExprs_extends ids
  have kept := read?_storeExprs short (extended.fits fits).entries
  refine ⟨arena.stop_storeExprs_le ids, ?_⟩
  rw [Slot.entries_of_read? kept]
  exact fun id held => (entries id held).later extended extended.size_le

end Adding

/-! ### The walk -/

def SettledClone (original arena : Arena) (id : ExprId) : Prop :=
  original.Settled arena arena.size id

def SettledFilling (original arena : Arena) (slot : Slot) : Prop :=
  original.SettledSlot arena arena.size slot

/-- Only as long as every number fits does a node or a list go under the number it is given. -/
theorem settledThroughout (original : Arena) :
    KeptThroughout (fun arena => arena.Fits → original.AddsSettled arena)
      (fun arena id => arena.Fits → original.SettledClone arena id)
      (fun arena slot => arena.Fits → original.SettledFilling arena slot) where
  madeLater extended _ made fits :=
    Settled.later extended extended.size_le (made (extended.fits fits))
  filledLater extended _ filled fits :=
    SettledSlot.later extended extended.size_le (filled (extended.fits fits))
  empty _settled _fits := Or.inl rfl
  shared found shareable _settled _fits :=
    Or.inr ⟨index_lt_size found, Or.inl (by rw [shares_of_node? found, shareable])⟩
  child {arena id} made fits := by
    refine ⟨trivial, ?_⟩
    intro held member
    rcases List.mem_singleton.mp member with rfl
    exact made fits
  list {arena ids} short settled made := by
    have extended := arena.storeExprs_extends ids
    refine ⟨?_, ?_⟩
    · intro fits
      have fitsBefore := extended.fits fits
      exact (settled fitsBefore).storeExprs fun id member => made id member fitsBefore
    · intro fits
      exact settledSlot_storeExprs short (fun id member => made id member (extended.fits fits)) fits
  node {arena node} settled filled := by
    have extended := arena.alloc_extends node
    refine ⟨?_, ?_⟩
    · intro fits
      have fitsBefore := extended.fits fits
      exact (settled fitsBefore).alloc fun slot member => filled slot member fitsBefore
    · intro fits
      exact (settled (extended.fits fits)).settled_alloc fits

theorem clone_addsSettled {arena : Arena} {id : ExprId} (fits : (arena.clone id).2.Fits) :
    arena.AddsSettled (arena.clone id).2 :=
  (arena.settledThroughout.clone (fun _fits => arena.addsSettled_refl) id).arena fits

theorem cloneAll_addsSettled {arena : Arena} {ids : Option (List ExprId)}
    (fits : (arena.cloneAll ids).2.Fits) : arena.AddsSettled (arena.cloneAll ids).2 :=
  (arena.settledThroughout.cloneAll (fun _fits => arena.addsSettled_refl) ids).arena fits

/-! ### What has been added can be cloned -/

section Added

variable {original arena : Arena} (settled : original.AddsSettled arena)

include settled

theorem AddsSettled.settled_of_refers {limit : Nat} {owner child : ExprId}
    (held : original.Settled arena limit owner) (refers : arena.Refers owner child) :
    original.Settled arena owner.index child := by
  cases found : arena.node? owner with
  | none =>
      rw [Refers, children, found] at refers
      cases refers
  | some node =>
      rw [Refers, children_of_node? found, List.mem_flatMap] at refers
      obtain ⟨slot, member, present⟩ := refers
      rcases held with rfl | ⟨_bound, shared | added⟩
      · cases found
      · rw [shares_of_node? found] at shared
        rw [NodeKind.slots_of_isShareable shared] at member
        cases member
      · exact (settled.nodes owner node added found slot member).entries child present

theorem AddsSettled.listsInside {limit : Nat} {owner : ExprId}
    (held : original.Settled arena limit owner) : arena.ListsInside owner := by
  intro node found slot member
  rcases held with rfl | ⟨_bound, shared | added⟩
  · cases found
  · rw [shares_of_node? found] at shared
    rw [NodeKind.slots_of_isShareable shared] at member
    cases member
  · exact (settled.nodes owner node added found slot member).within.inside

theorem AddsSettled.wellFormedAt {id : ExprId} (added : original.size ≤ id.index) :
    arena.WellFormedAt id := by
  intro owner reached
  have held : ∃ limit, original.Settled arena limit owner := by
    induction reached with
    | refl => exact ⟨id.index + 1, Or.inr ⟨Nat.lt_succ_self _, Or.inr added⟩⟩
    | tail _path refers inductionHypothesis =>
        obtain ⟨limit, above⟩ := inductionHypothesis
        exact ⟨_, settled.settled_of_refers above refers⟩
  obtain ⟨limit, held⟩ := held
  refine ⟨?_, settled.listsInside held⟩
  exact fun child refers => (settled.settled_of_refers held refers).imp_right And.left

end Added

/-- What can be cloned can be cloned later as well. -/
theorem WellFormedAt.clone_ok_later {arena later : Arena} {id : ExprId}
    (wellFormed : arena.WellFormedAt id) (admitted : arena.Admits id) (grown : arena.Grows later) :
    ∃ copy, (later.clone id).1 = .ok copy := by
  have untyped : { arena with typeLists := later.typeLists }.WellFormedAt id := wellFormed
  obtain ⟨copy, last, met, _adds⟩ := untyped.clone_adds admitted grown.extends_of_types
  exact ⟨copy, congrArg Prod.fst met⟩

/-- The nodes in `after` that were not in `original` hold settled slots only, and whatever is done
with the arena afterwards, they can be cloned. -/
structure AddsSound (original after : Arena) : Prop where
  slots : ∀ owner node, original.size ≤ owner.index → after.node? owner = some node →
    ∀ slot ∈ node.kind.slots, original.SettledSlot after owner.index slot
  clones : ∀ owner, original.size ≤ owner.index → after.contains owner = true →
    ∀ calls, ∃ copy, ((after.performEach calls).2.clone owner).1 = .ok copy

theorem AddsSettled.addsSound {original arena : Arena} (settled : original.AddsSettled arena) :
    original.AddsSound arena where
  slots := settled.nodes
  clones _owner added present calls :=
    (settled.wellFormedAt added).clone_ok_later (Or.inr present) (arena.performEach_grows calls)

theorem cloning_adds_sound_nodes (arena : Arena) :
    (∀ id, (arena.clone id).2.Fits → arena.AddsSound (arena.clone id).2) ∧
      ∀ ids, (arena.cloneAll ids).2.Fits → arena.AddsSound (arena.cloneAll ids).2 :=
  ⟨fun _id fits => (clone_addsSettled fits).addsSound,
    fun _ids fits => (cloneAll_addsSettled fits).addsSound⟩

def brokenOff : Arena where
  nodes := #[⟨.int 7, ⟨0, 1⟩, .int⟩, ⟨.multi ⟨0, 3⟩, ⟨0, 4⟩, .int⟩, ⟨.localRef ⟨0⟩, ⟨5, 6⟩, .int⟩,
    ⟨.conditional ⟨1⟩ ⟨2⟩ ⟨40⟩, ⟨0, 9⟩, .int⟩]
  exprLists := #[⟨0⟩, .invalid, ⟨0⟩]
  typeLists := #[]

/-- In the second request the first clone is itself cloned, and then a clone is broken off. -/
theorem brokenOff_leftovers_clone :
    (∃ defect, (brokenOff.clone ⟨3⟩).1 = .error defect) ∧ (brokenOff.clone ⟨3⟩).2.Fits ∧
    brokenOff.size ≤ (⟨4⟩ : ExprId).index ∧ (brokenOff.clone ⟨3⟩).2.contains ⟨4⟩ = true ∧
    (∃ copy, (((brokenOff.clone ⟨3⟩).2.performEach
      [.pushExprs [⟨4⟩, ⟨90⟩], .alloc ⟨.multi ⟨6, 9⟩, ⟨0, 1⟩, .int⟩, .clone ⟨3⟩]).2.clone ⟨4⟩).1 =
        .ok copy) ∧
    (brokenOff.cloneAll (some [⟨1⟩, ⟨4⟩, ⟨3⟩])).2.Fits ∧
    (brokenOff.cloneAll (some [⟨1⟩, ⟨4⟩, ⟨3⟩])).2.contains ⟨5⟩ = true ∧
    ∃ copy, (((brokenOff.cloneAll (some [⟨1⟩, ⟨4⟩, ⟨3⟩])).2.performEach []).2.clone ⟨5⟩).1 =
      .ok copy := by
  have failed : ∃ defect, (brokenOff.clone ⟨3⟩).1 = .error defect :=
    ⟨.danglingChild ⟨⟨3⟩, "Conditional", ⟨0, 9⟩⟩ ⟨40⟩, by decide +kernel⟩
  have fits : (brokenOff.clone ⟨3⟩).2.Fits := by decide +kernel
  have fitsAll : (brokenOff.cloneAll (some [⟨1⟩, ⟨4⟩, ⟨3⟩])).2.Fits := by decide +kernel
  have left : (brokenOff.clone ⟨3⟩).2.contains ⟨4⟩ = true := by decide +kernel
  have leftAll : (brokenOff.cloneAll (some [⟨1⟩, ⟨4⟩, ⟨3⟩])).2.contains ⟨5⟩ = true := by
    decide +kernel
  have sound := cloning_adds_sound_nodes brokenOff
  exact ⟨failed, fits, by decide, left, (sound.1 ⟨3⟩ fits).clones ⟨4⟩ (by decide) left _,
    fitsAll, leftAll, (sound.2 _ fitsAll).clones ⟨5⟩ (by decide) leftAll _⟩

end Arena

end CompilerIR
