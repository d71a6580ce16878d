import CompilerIR.Arena.Lists
import CompilerIR.Proofs.Arena.Soundness
import CompilerIR.Proofs.Clone.Frame

/-!
The arena as a store. Main statement: whatever is done with it afterwards, every identity and every
range that it hands out keeps naming what it was handed out for, and no two lists share an entry.
-/

namespace CompilerIR

/-! ### Calls -/

inductive StoreCall
  | alloc (node : Node)
  | allocThis (span : Span) (classType : TypeId)
  | pushExprs (ids : List ExprId)
  | tryPushExprs (ids : List ExprId)
  | pushTypes (types : List TypeId)
  | clone (id : ExprId)
  | cloneAll (ids : Option (List ExprId))

def StoreCall.types : StoreCall → List TypeId
  | .pushTypes types => types
  | .alloc _ | .allocThis _ _ | .pushExprs _ | .tryPushExprs _ | .clone _ | .cloneAll _ => []

def StoreCall.Answer : StoreCall → Type
  | .alloc _ | .allocThis _ _ => ExprId
  | .pushExprs _ => Except Fault ExprRange
  | .tryPushExprs _ => Except OverlongList ExprRange
  | .pushTypes _ => Except OverlongTypeList TypeRange
  | .clone _ => Except CloneDefect ExprId
  | .cloneAll _ => Except CloneDefect (Option (List ExprId))

structure Exchange where
  call : StoreCall
  answer : call.Answer

namespace Exchange

def exprRange? : Exchange → Option ExprRange
  | ⟨.pushExprs _, answer⟩ => answer.toOption
  | ⟨.tryPushExprs _, answer⟩ => answer.toOption
  | _ => none

def typeRange? : Exchange → Option TypeRange
  | ⟨.pushTypes _, answer⟩ => answer.toOption
  | _ => none

/-- What was handed out names what it was handed out for, and a list was refused for its length. -/
def Kept (arena : Arena) : Exchange → Prop
  | ⟨.alloc node, id⟩ => arena.get? id = some node
  | ⟨.allocThis span classType, id⟩ => arena.get? id = some ⟨.thisRef classType, span, classType⟩
  | ⟨.pushExprs ids, .ok range⟩ => arena.exprsOrFault range = .ok ids
  | ⟨.pushExprs ids, .error fault⟩ =>
      fault = .overlongList ⟨ids.length⟩ ∧ ListRange.maxLength < ids.length
  | ⟨.tryPushExprs ids, .ok range⟩ => arena.exprsOrFault range = .ok ids
  | ⟨.tryPushExprs ids, .error refusal⟩ =>
      refusal = ⟨ids.length⟩ ∧ ListRange.maxLength < ids.length
  | ⟨.pushTypes types, .ok range⟩ => arena.typesOrFault range = .ok types
  | ⟨.pushTypes types, .error refusal⟩ =>
      refusal = ⟨types.length⟩ ∧ ListRange.maxLength < types.length
  | ⟨.clone _, _⟩ | ⟨.cloneAll _, _⟩ => True

end Exchange

namespace Arena

/-- The answer to a call, and the arena it leaves behind, whether the call was met or not. -/
def perform (arena : Arena) : (call : StoreCall) → call.Answer × Arena
  | .alloc node => arena.alloc node
  | .allocThis span classType => arena.allocThis span classType
  | .pushExprs ids => arena.pushExprsOrFault ids
  | .tryPushExprs ids => arena.tryPushExprs ids
  | .pushTypes types => arena.pushTypes types
  | .clone id => arena.clone id
  | .cloneAll ids => arena.cloneAll ids

def performEach (arena : Arena) : List StoreCall → List Exchange × Arena
  | [] => ([], arena)
  | call :: calls =>
      let (answer, after) := arena.perform call
      let (exchanges, last) := after.performEach calls
      (⟨call, answer⟩ :: exchanges, last)

/-- Every node and every list entry has a number of its own, and no node has the one that stands
for no expression. -/
structure HasRoom (arena : Arena) : Prop extends arena.Fits where
  typeEntries : arena.typeLists.size < UInt32.size

end Arena

/-! ### Ranges -/

namespace ListRange

variable {α : Type}

def Covers (range : ListRange α) (position : Nat) : Prop :=
  range.start.toNat ≤ position ∧ position < range.stop

def Disjoint (first second : ListRange α) : Prop :=
  ∀ position, ¬(first.Covers position ∧ second.Covers position)

theorem readOrFault_eq_ok_iff {range : ListRange α} {storage : Array α} {entries : List α} :
    range.readOrFault storage = .ok entries ↔ range.read? storage = some entries := by
  have ordered : ¬range.stop < range.start.toNat := Nat.not_lt.mpr (Nat.le_add_right _ _)
  rw [readOrFault, slice, if_neg ordered, read?]
  by_cases isEmpty : range.isEmpty = true
  · rw [if_pos isEmpty, if_pos isEmpty, Except.ok.injEq, Option.some.injEq]
  · by_cases inside : range.stop ≤ storage.size
    · rw [if_neg isEmpty, if_neg isEmpty, if_neg (Nat.not_lt.mpr inside), if_pos inside,
        Except.ok.injEq, Option.some.injEq]
    · rw [if_neg isEmpty, if_neg isEmpty, if_pos (Nat.lt_of_not_le inside), if_neg inside]
      simp only [reduceCtorEq]

theorem exists_fault_iff {range : ListRange α} {storage : Array α} :
    (∃ fault, range.readOrFault storage = .error fault) ↔ range.read? storage = none := by
  cases outcome : range.readOrFault storage with
  | ok entries =>
      rw [readOrFault_eq_ok_iff] at outcome
      simp only [outcome, reduceCtorEq, exists_false]
  | error fault =>
      have missing : range.read? storage = none := by
        cases read : range.read? storage with
        | none => rfl
        | some entries =>
            rw [readOrFault_eq_ok_iff.mpr read] at outcome
            cases outcome
      simp only [missing, Except.error.injEq, exists_eq']

/-- A list takes up nothing but what it has added to the storage. -/
theorem covers_append {storage : Array α} {entries : List α} {position : Nat}
    (room : storage.size < UInt32.size) (covered : (append storage entries).1.Covers position) :
    storage.size ≤ position ∧ position < (append storage entries).2.size := by
  obtain ⟨starts, ends⟩ := covered
  cases entries with
  | nil => exact absurd ends (Nat.not_lt_zero position)
  | cons first rest =>
      have start : (UInt32.ofNat storage.size).toNat = storage.size :=
        UInt32.toNat_ofNat_of_lt' room
      have count := Nat.mod_le (first :: rest).length (2 ^ 16)
      simp only [append, stop, length, start, UInt16.toNat_ofNat'] at starts ends
      rw [size_append]
      omega

end ListRange

/-! ### Growth -/

namespace Arena

structure Grows (before after : Arena) : Prop where
  nodes : before.nodes.toList <+: after.nodes.toList
  exprLists : before.exprLists.toList <+: after.exprLists.toList
  typeLists : before.typeLists.toList <+: after.typeLists.toList

namespace Grows

theorem refl (arena : Arena) : arena.Grows arena :=
  ⟨List.prefix_rfl, List.prefix_rfl, List.prefix_rfl⟩

theorem trans {first middle last : Arena} (start : first.Grows middle) (rest : middle.Grows last) :
    first.Grows last :=
  ⟨start.nodes.trans rest.nodes, start.exprLists.trans rest.exprLists,
    start.typeLists.trans rest.typeLists⟩

variable {before after : Arena} (grown : before.Grows after)

include grown

/-- Nodes and expression lists do not depend on the type lists. -/
theorem extends_of_types : Extends { before with typeLists := after.typeLists } after :=
  ⟨grown.nodes, grown.exprLists, rfl⟩

theorem get? {id : ExprId} {node : Node} (present : before.get? id = some node) :
    after.get? id = some node :=
  grown.extends_of_types.get? present

theorem node? {id : ExprId} {node : Node} (found : before.node? id = some node) :
    after.node? id = some node :=
  grown.extends_of_types.node? found

theorem hasRoom (room : after.HasRoom) : before.HasRoom := by
  have fits := grown.extends_of_types.fits room.toFits
  have bound := grown.typeLists.length_le
  simp only [Array.length_toList] at bound
  exact ⟨⟨fits.nodes, fits.entries⟩, Nat.lt_of_le_of_lt bound room.typeEntries⟩

theorem kept {exchange : Exchange} (kept : exchange.Kept before) : exchange.Kept after := by
  obtain ⟨call, answer⟩ := exchange
  have exprs {range : ExprRange} {ids : List ExprId}
      (read : before.exprsOrFault range = .ok ids) : after.exprsOrFault range = .ok ids :=
    ListRange.readOrFault_eq_ok_iff.mpr
      (ListRange.read?_mono grown.exprLists (ListRange.readOrFault_eq_ok_iff.mp read))
  cases call with
  | alloc node => exact grown.get? kept
  | allocThis span classType => exact grown.get? kept
  | pushExprs ids =>
      cases answer with
      | error fault => exact kept
      | ok range => exact exprs kept
  | tryPushExprs ids =>
      cases answer with
      | error refusal => exact kept
      | ok range => exact exprs kept
  | pushTypes types =>
      cases answer with
      | error refusal => exact kept
      | ok range =>
          exact ListRange.readOrFault_eq_ok_iff.mpr
            (ListRange.read?_mono grown.typeLists (ListRange.readOrFault_eq_ok_iff.mp kept))
  | clone id => trivial
  | cloneAll ids => trivial

end Grows

theorem Extends.grows {before after : Arena} (extended : before.Extends after) :
    before.Grows after :=
  ⟨extended.nodes, extended.exprLists, extended.typeLists ▸ List.prefix_rfl⟩

/-! ### One call -/

variable {arena : Arena}

theorem tryPushExprs_of_short {ids : List ExprId} (short : ids.length ≤ ListRange.maxLength) :
    arena.tryPushExprs ids = (.ok (arena.storeExprs ids).1, (arena.storeExprs ids).2) := by
  rw [tryPushExprs, Arena.pushExprs, if_pos short]

theorem tryPushExprs_of_long {ids : List ExprId} (long : ListRange.maxLength < ids.length) :
    arena.tryPushExprs ids = (.error ⟨ids.length⟩, arena) := by
  rw [tryPushExprs, Arena.pushExprs, if_neg (Nat.not_le.mpr long)]

theorem typeLists_tryPushExprs (arena : Arena) (ids : List ExprId) :
    (arena.tryPushExprs ids).2.typeLists = arena.typeLists := by
  by_cases short : ids.length ≤ ListRange.maxLength
  · rw [tryPushExprs_of_short short]
    exact (arena.storeExprs_extends ids).typeLists
  · rw [tryPushExprs_of_long (Nat.lt_of_not_le short)]

theorem tryPushExprs_grows (arena : Arena) (ids : List ExprId) :
    arena.Grows (arena.tryPushExprs ids).2 := by
  by_cases short : ids.length ≤ ListRange.maxLength
  · rw [tryPushExprs_of_short short]
    exact (arena.storeExprs_extends ids).grows
  · rw [tryPushExprs_of_long (Nat.lt_of_not_le short)]
    exact .refl arena

theorem perform_grows (arena : Arena) (call : StoreCall) : arena.Grows (arena.perform call).2 := by
  cases call with
  | alloc node => exact (arena.alloc_extends node).grows
  | allocThis span classType => exact (arena.alloc_extends _).grows
  | pushExprs ids => exact arena.tryPushExprs_grows ids
  | tryPushExprs ids => exact arena.tryPushExprs_grows ids
  | pushTypes types =>
      have added : (arena.pushTypes types).2.typeLists.toList = arena.typeLists.toList ++ types :=
        ListRange.toList_append arena.typeLists types
      exact ⟨List.prefix_rfl, List.prefix_rfl, added ▸ List.prefix_append _ _⟩
  | clone id => exact (arena.clone_extends id).grows
  | cloneAll ids => exact (arena.cloneAll_extends ids).grows

/-- What a call has been answered holds of the arena that it leaves behind. -/
theorem perform_kept {call : StoreCall} (room : (arena.perform call).2.HasRoom) :
    Exchange.Kept (arena.perform call).2 ⟨call, (arena.perform call).1⟩ := by
  have before := (arena.perform_grows call).hasRoom room
  have nodeRoom : arena.size < UInt32.size := Nat.lt_of_lt_of_le before.nodes (Nat.sub_le _ 1)
  have stored {ids : List ExprId} (short : ids.length ≤ ListRange.maxLength) :
      (arena.storeExprs ids).2.exprsOrFault (arena.storeExprs ids).1 = .ok ids :=
    ListRange.readOrFault_eq_ok_iff.mpr (read?_storeExprs short before.entries)
  cases call with
  | alloc node => exact get?_alloc nodeRoom node
  | allocThis span classType => exact get?_alloc nodeRoom _
  | pushExprs ids =>
      by_cases short : ids.length ≤ ListRange.maxLength
      · simp only [perform, pushExprsOrFault, tryPushExprs_of_short short]
        exact stored short
      · simp only [perform, pushExprsOrFault, tryPushExprs_of_long (Nat.lt_of_not_le short)]
        exact ⟨rfl, Nat.lt_of_not_le short⟩
  | tryPushExprs ids =>
      by_cases short : ids.length ≤ ListRange.maxLength
      · simp only [perform, tryPushExprs_of_short short]
        exact stored short
      · simp only [perform, tryPushExprs_of_long (Nat.lt_of_not_le short)]
        exact ⟨rfl, Nat.lt_of_not_le short⟩
  | pushTypes types =>
      by_cases short : types.length ≤ ListRange.maxLength
      · simp only [perform, Arena.pushTypes, if_pos short]
        exact ListRange.readOrFault_eq_ok_iff.mpr (ListRange.read?_append short before.typeEntries)
      · simp only [perform, Arena.pushTypes, if_neg short]
        exact ⟨rfl, Nat.lt_of_not_le short⟩
  | clone id => trivial
  | cloneAll ids => trivial

/-! ### Ranges handed out -/

theorem covers_tryPushExprs {ids : List ExprId} {range : ExprRange} {position : Nat}
    (room : arena.exprLists.size < UInt32.size)
    (handedOut : (arena.tryPushExprs ids).1 = .ok range) (covered : range.Covers position) :
    arena.exprLists.size ≤ position ∧ position < (arena.tryPushExprs ids).2.exprLists.size := by
  by_cases short : ids.length ≤ ListRange.maxLength
  · rw [tryPushExprs_of_short short] at handedOut ⊢
    cases handedOut
    exact ListRange.covers_append room covered
  · rw [tryPushExprs_of_long (Nat.lt_of_not_le short)] at handedOut
    cases handedOut

theorem toOption_eq_some_iff {ε α : Type} {outcome : Except ε α} {value : α} :
    outcome.toOption = some value ↔ outcome = .ok value := by
  cases outcome <;> simp [Except.toOption]

/-- An expression range covers only what its own call has stored. -/
theorem covers_exprRange {call : StoreCall} {range : ExprRange} {position : Nat}
    (room : arena.HasRoom)
    (handedOut : Exchange.exprRange? ⟨call, (arena.perform call).1⟩ = some range)
    (covered : range.Covers position) :
    arena.exprLists.size ≤ position ∧ position < (arena.perform call).2.exprLists.size := by
  cases call with
  | pushExprs ids =>
      have outcome := toOption_eq_some_iff.mp handedOut
      simp only [perform, pushExprsOrFault] at outcome
      cases tried : (arena.tryPushExprs ids).1 with
      | error refusal =>
          rw [tried] at outcome
          cases outcome
      | ok pushed =>
          rw [tried] at outcome
          cases outcome
          exact covers_tryPushExprs room.entries tried covered
  | tryPushExprs ids =>
      exact covers_tryPushExprs room.entries (toOption_eq_some_iff.mp handedOut) covered
  | alloc _ | allocThis _ _ | pushTypes _ | clone _ | cloneAll _ => cases handedOut

theorem covers_typeRange {call : StoreCall} {range : TypeRange} {position : Nat}
    (room : arena.HasRoom)
    (handedOut : Exchange.typeRange? ⟨call, (arena.perform call).1⟩ = some range)
    (covered : range.Covers position) :
    arena.typeLists.size ≤ position ∧ position < (arena.perform call).2.typeLists.size := by
  cases call with
  | pushTypes types =>
      have outcome := toOption_eq_some_iff.mp handedOut
      simp only [perform, Arena.pushTypes] at outcome ⊢
      split at outcome
      · cases outcome
        exact ListRange.covers_append room.typeEntries covered
      · cases outcome
  | alloc _ | allocThis _ _ | pushExprs _ | tryPushExprs _ | clone _ | cloneAll _ =>
      cases handedOut

/-! ### Runs of calls -/

theorem performEach_cons (call : StoreCall) (calls : List StoreCall) :
    arena.performEach (call :: calls) =
      (⟨call, (arena.perform call).1⟩ :: ((arena.perform call).2.performEach calls).1,
        ((arena.perform call).2.performEach calls).2) := rfl

theorem performEach_grows (arena : Arena) (calls : List StoreCall) :
    arena.Grows (arena.performEach calls).2 := by
  induction calls generalizing arena with
  | nil => exact .refl arena
  | cons call rest inductionHypothesis =>
      exact (arena.perform_grows call).trans (inductionHypothesis _)

theorem performEach_kept {calls : List StoreCall} (room : (arena.performEach calls).2.HasRoom) :
    ∀ exchange ∈ (arena.performEach calls).1, exchange.Kept (arena.performEach calls).2 := by
  induction calls generalizing arena with
  | nil =>
      intro exchange member
      cases member
  | cons call rest inductionHypothesis =>
      intro exchange member
      have later := (arena.perform call).2.performEach_grows rest
      rw [performEach_cons] at member room ⊢
      rcases List.mem_cons.mp member with rfl | done
      · exact later.kept (perform_kept (later.hasRoom room))
      · exact inductionHypothesis room exchange done

/-- The ranges that a run hands out lie behind what was stored before it, and apart from each
other. `range?` picks the ranges of one storage, whose size is `size`. -/
theorem performEach_disjoint {α : Type} (range? : Exchange → Option (ListRange α))
    (size : Arena → Nat)
    (grows : ∀ {before after : Arena}, before.Grows after → size before ≤ size after)
    (covers : ∀ {before : Arena} {call : StoreCall} {range : ListRange α} {position : Nat},
      before.HasRoom → range? ⟨call, (before.perform call).1⟩ = some range →
        range.Covers position →
          size before ≤ position ∧ position < size (before.perform call).2)
    {calls : List StoreCall} (room : (arena.performEach calls).2.HasRoom) :
    (∀ range ∈ (arena.performEach calls).1.filterMap range?, ∀ position,
      range.Covers position → size arena ≤ position) ∧
    ((arena.performEach calls).1.filterMap range?).Pairwise ListRange.Disjoint := by
  induction calls generalizing arena with
  | nil => exact ⟨fun range member => absurd member List.not_mem_nil, List.Pairwise.nil⟩
  | cons call rest inductionHypothesis =>
      have grown := arena.perform_grows call
      have before := (arena.performEach_grows (call :: rest)).hasRoom room
      rw [performEach_cons] at room ⊢
      obtain ⟨behind, apart⟩ := inductionHypothesis room
      rw [List.filterMap_cons]
      split
      · refine ⟨fun range member position covered => ?_, apart⟩
        exact Nat.le_trans (grows grown) (behind range member position covered)
      · rename_i first handedOut
        refine ⟨fun range member position covered => ?_, List.pairwise_cons.mpr ⟨?_, apart⟩⟩
        · rcases List.mem_cons.mp member with rfl | later
          · exact (covers before handedOut covered).1
          · exact Nat.le_trans (grows grown) (behind range later position covered)
        · intro range later position ⟨here, there⟩
          have below := (covers before handedOut here).2
          have above := behind range later position there
          omega

theorem Grows.exprLists_size_le {before after : Arena} (grown : before.Grows after) :
    before.exprLists.size ≤ after.exprLists.size := by
  simpa only [Array.length_toList] using grown.exprLists.length_le

theorem Grows.typeLists_size_le {before after : Arena} (grown : before.Grows after) :
    before.typeLists.size ≤ after.typeLists.size := by
  simpa only [Array.length_toList] using grown.typeLists.length_le

theorem contains_iff_index_lt {id : ExprId} (room : arena.HasRoom) :
    arena.contains id = true ↔ id.index < arena.size := by
  rw [contains, Bool.and_eq_true, decide_eq_true_eq, and_iff_right_iff_imp]
  intro inside
  exact ExprId.isValid_of_lt (Nat.lt_trans inside room.nodes)

theorem store_keeps_what_it_hands_out {arena last : Arena} {calls : List StoreCall}
    {exchanges : List Exchange} (performed : arena.performEach calls = (exchanges, last))
    (room : last.HasRoom) :
    (∀ id, last.contains id = true ↔ id.index < last.size) ∧
    (∀ exchange ∈ exchanges, exchange.Kept last) ∧
    (exchanges.filterMap Exchange.exprRange?).Pairwise ListRange.Disjoint ∧
    (exchanges.filterMap Exchange.typeRange?).Pairwise ListRange.Disjoint ∧
    (∀ ids, (∃ refusal, (last.tryPushExprs ids).1 = .error refusal) ↔
      ListRange.maxLength < ids.length) ∧
    (∀ ids, ListRange.maxLength < ids.length → (last.tryPushExprs ids).2 = last) ∧
    (∀ range ids, last.exprsOrFault range = .ok ids ↔ last.exprs? range = some ids) ∧
    ∀ range, (∃ fault, last.exprsOrFault range = .error fault) ↔ last.exprs? range = none := by
  have same : (arena.performEach calls).2 = last := congrArg Prod.snd performed
  have answered : (arena.performEach calls).1 = exchanges := congrArg Prod.fst performed
  subst same answered
  have exprsApart := performEach_disjoint Exchange.exprRange? (·.exprLists.size)
    Grows.exprLists_size_le covers_exprRange room
  have typesApart := performEach_disjoint Exchange.typeRange? (·.typeLists.size)
    Grows.typeLists_size_le covers_typeRange room
  refine ⟨fun id => contains_iff_index_lt room, performEach_kept room, exprsApart.2,
    typesApart.2, fun ids => ?_, fun ids long => ?_,
    fun range ids => ListRange.readOrFault_eq_ok_iff, fun range => ListRange.exists_fault_iff⟩
  · by_cases short : ids.length ≤ ListRange.maxLength
    · rw [tryPushExprs_of_short short]
      simp only [reduceCtorEq, exists_false, Nat.not_lt.mpr short]
    · rw [tryPushExprs_of_long (Nat.lt_of_not_le short)]
      simp only [Except.error.injEq, exists_eq', Nat.lt_of_not_le short]
  · rw [tryPushExprs_of_long long]

/-- Types are stored in the order of the calls, those of lists that are too long among them. -/
theorem typeLists_performEach (arena : Arena) (calls : List StoreCall) :
    (arena.performEach calls).2.typeLists.toList =
      arena.typeLists.toList ++ calls.flatMap StoreCall.types := by
  induction calls generalizing arena with
  | nil => exact (List.append_nil _).symm
  | cons call rest inductionHypothesis =>
      have here : (arena.perform call).2.typeLists.toList =
          arena.typeLists.toList ++ call.types := by
        cases call with
        | pushTypes types => exact ListRange.toList_append arena.typeLists types
        | pushExprs ids | tryPushExprs ids =>
            rw [StoreCall.types, List.append_nil]
            exact congrArg Array.toList (arena.typeLists_tryPushExprs ids)
        | alloc node | allocThis span classType => exact (List.append_nil _).symm
        | clone id =>
            rw [StoreCall.types, List.append_nil]
            exact congrArg Array.toList (arena.clone_extends id).typeLists
        | cloneAll ids =>
            rw [StoreCall.types, List.append_nil]
            exact congrArg Array.toList (arena.cloneAll_extends ids).typeLists
      rw [performEach_cons, List.flatMap_cons, inductionHypothesis, here, List.append_assoc]

/-- A list that is refused leaves the run as if it had not been pushed. -/
theorem performEach_of_long {call : StoreCall} {ids : List ExprId}
    (pushes : call = .tryPushExprs ids ∨ call = .pushExprs ids)
    (long : ListRange.maxLength < ids.length) (rest : List StoreCall) :
    (arena.performEach (call :: rest)).2 = (arena.performEach rest).2 := by
  have unchanged : (arena.perform call).2 = arena := by
    rcases pushes with rfl | rfl
    · exact congrArg Prod.snd (tryPushExprs_of_long long)
    · exact congrArg Prod.snd (tryPushExprs_of_long long)
  rw [performEach_cons, unchanged]

def crowdedCalls : List StoreCall :=
  [.tryPushExprs (List.replicate 65536 .invalid), .pushExprs (List.replicate 65537 ⟨0⟩),
    .alloc ⟨.localRef ⟨0⟩, ⟨0, 1⟩, .int⟩, .pushExprs [⟨0⟩, .invalid, ⟨0⟩],
    .alloc ⟨.methodCall ⟨0⟩ ⟨0⟩ ⟨0, 3⟩ true, ⟨0, 5⟩, .int⟩,
    -- The clone fails at the node 9, and leaves behind the list that it has copied before.
    .alloc ⟨.binary .lt ⟨1⟩ ⟨9⟩, ⟨0, 9⟩, .boolean⟩, .clone ⟨2⟩,
    .pushTypes (List.replicate 65536 .int), .pushTypes [.root, .int],
    .tryPushExprs [⟨3⟩, ⟨4⟩], .allocThis ⟨4, 8⟩ .root]

theorem crowded_calls_are_kept : (empty.performEach crowdedCalls).2.HasRoom ∧
    (∀ exchange ∈ (empty.performEach crowdedCalls).1,
      exchange.Kept (empty.performEach crowdedCalls).2) ∧
    ((empty.performEach crowdedCalls).1.filterMap Exchange.exprRange?).Pairwise
      ListRange.Disjoint := by
  -- The lists that are too long are not run through: their length is all that counts.
  have refused : (empty.performEach crowdedCalls).2 =
      (empty.performEach (crowdedCalls.drop 2)).2 := by
    rw [crowdedCalls, performEach_of_long (.inl rfl) (by rw [List.length_replicate]; decide),
      performEach_of_long (.inr rfl) (by rw [List.length_replicate]; decide)]
    rfl
  have types := congrArg List.length (empty.typeLists_performEach crowdedCalls)
  rw [Array.length_toList] at types
  have room : (empty.performEach crowdedCalls).2.HasRoom := by
    refine ⟨⟨?_, ?_⟩, ?_⟩
    · rw [refused]
      decide +kernel
    · rw [refused]
      decide +kernel
    · rw [types]
      simp only [crowdedCalls, StoreCall.types, List.flatMap_cons, List.flatMap_nil,
        List.nil_append, List.append_nil, List.length_append, List.length_replicate]
      decide
  obtain ⟨_contained, kept, apart, _others⟩ := store_keeps_what_it_hands_out (Prod.eta _).symm room
  exact ⟨room, kept, apart⟩

end Arena

end CompilerIR
