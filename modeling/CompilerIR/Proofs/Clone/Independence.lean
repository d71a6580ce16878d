import CompilerIR.Proofs.Arena.Soundness
import CompilerIR.Proofs.Clone.Growth

/-!
Requests to clone, one after the other. Main statement: whatever they are for, no request gets in
the way of another, and their order does not matter.
-/

namespace CompilerIR.Arena

open Relation (ReflTransGen)

def WellFormed (arena : Arena) : Prop :=
  ∀ id, arena.contains id = true → arena.WellFormedAt id

/-- The two trees have no node in common that a copy would not share anyway. -/
def Apart (arena : Arena) (first second : ExprId) : Prop :=
  ∀ id, arena.contains id = true → ReflTransGen arena.Refers first id →
    ReflTransGen arena.Refers second id → arena.shares id = true

theorem Apart.symm {arena : Arena} {first second : ExprId} (apart : arena.Apart first second) :
    arena.Apart second first :=
  fun id contained fromSecond fromFirst => apart id contained fromFirst fromSecond

theorem wellFormedAt_of_none {arena : Arena} {id : ExprId} (missing : arena.node? id = none) :
    arena.WellFormedAt id := by
  intro owner path
  rcases path.cases_head with rfl | ⟨child, refers, _path⟩
  · refine ⟨fun child refers => ?_, fun node found => ?_⟩
    · rw [Refers, children, missing] at refers
      cases refers
    · rw [missing] at found
      cases found
  · rw [Refers, children, missing] at refers
    cases refers

theorem WellFormed.wellFormedAt {arena : Arena} (wellFormed : arena.WellFormed) (id : ExprId) :
    arena.WellFormedAt id := by
  cases found : arena.node? id with
  | none => exact wellFormedAt_of_none found
  | some node => exact wellFormed id (exists_node?_iff.mp ⟨node, found⟩)

theorem wellFormed_of_forall {arena : Arena}
    (precede : ∀ index : Fin arena.size, arena.ChildrenPrecede (.ofIndex index))
    (inside : ∀ index : Fin arena.size, arena.ListsInside (.ofIndex index)) : arena.WellFormed :=
  fun id _contained => wellFormedAt_of_forall precede inside id

/-! ### One request -/

/-- A request that has been met in `before`, seen from a later arena. -/
structure Met (before last : Arena) (id copy : ExprId) : Prop where
  wellFormed : before.WellFormed
  admitted : before.Admits id
  cloned : (before.clone id).1 = .ok copy
  later : (before.clone id).2.Extends last

section Met

variable {before last : Arena} {id copy : ExprId} (met : before.Met last id copy)

include met

theorem Met.copies : before.treeCopies.Copies before before (before.clone id).2 [id] [copy] :=
  (met.wellFormed.wellFormedAt id).clone_copies met.admitted (Prod.ext met.cloned rfl)

theorem Met.size :
    (before.clone id).2.size = before.size + (before.copied (before.occurrences id)).length := by
  simpa [treeCopies] using met.copies.size

variable (fits : last.Fits)

include fits

theorem Met.stands : before.TreeStands (before.clone id).2 id copy :=
  met.copies.single (met.later.fits fits)

theorem Met.admits : (before.clone id).2.Admits copy := by
  obtain ⟨tree, _unfolded, copied⟩ := met.stands fits
  exact admits_of_unfold copied

theorem Met.unfold : ∃ tree, before.unfold id = some tree ∧
    last.unfold copy = some tree.retyped :=
  ((met.stands fits).later met.later).1

/-- The clone of a clone is the same tree once more. -/
theorem Met.unfold_again {tree : Tree} (unfolded : last.unfold id = some tree.retyped) :
    last.unfold copy = last.unfold id := by
  obtain ⟨requested, held, copied⟩ := met.unfold fits
  have kept := ((before.clone_extends id).trans met.later).unfold held
  obtain rfl := Option.some.inj (kept.symm.trans unfolded)
  rw [copied, unfolded, Tree.retyped_retyped]

theorem Met.occurrences :
    last.occurrences copy = before.standIns before.size (before.occurrences id) := by
  have numbered := met.copies.numbered (met.later.fits fits)
  rw [((met.stands fits).later met.later).2]
  simpa [treeCopies] using numbered

theorem Met.wellFormed_after : (before.clone id).2.WellFormed := by
  intro other contained
  obtain ⟨node, present⟩ := exists_node?_iff.mpr contained
  -- A new node stands for an occurrence that was copied, so the root of the copy leads to it.
  by_cases old : other.index < before.size
  · have valid := (node?_eq_some_iff.mp present).1
    have admitted : before.Admits other := Or.inr (by simp [contains, valid, old])
    obtain ⟨tree, unfolded⟩ := (met.wellFormed.wellFormedAt other).exists_unfold admitted
    exact wellFormedAt_of_unfold ((before.clone_extends id).unfold unfolded)
  · obtain ⟨tree, _unfolded, copied⟩ := met.stands fits
    have wellFormed := wellFormedAt_of_unfold copied
    have inside := index_lt_size present
    rw [met.size] at inside
    have member : other ∈ (before.clone id).2.occurrences copy := by
      rw [Met.occurrences ⟨met.wellFormed, met.admitted, met.cloned, .refl _⟩ (met.later.fits fits)]
      have numbered : ExprId.ofIndex (before.size + (other.index - before.size)) ∈
          before.standIns before.size (before.occurrences id) := ofIndex_mem_standIns (by omega)
      rwa [Nat.add_sub_cancel' (Nat.le_of_not_lt old), ExprId.ofIndex_index] at numbered
    have path := (wellFormed.mem_occurrences_iff.mp member).1
    exact fun owner reached => wellFormed owner (path.trans reached)

/-- A copy consists of new nodes and of shared ones. -/
theorem Met.apart {other : ExprId} (admitted : before.Admits other) : last.Apart copy other := by
  intro shared contained fromCopy fromOther
  have present := exists_node?_iff.mpr contained
  obtain ⟨tree, _unfolded, copied⟩ := met.unfold fits
  have inCopy := (wellFormedAt_of_unfold copied).mem_occurrences_iff.mpr ⟨fromCopy, present⟩
  rw [met.occurrences fits] at inCopy
  have wellFormed := met.wellFormed.wellFormedAt other
  have extended := (before.clone_extends id).trans met.later
  obtain ⟨below, unfolded⟩ := wellFormed.exists_unfold admitted
  have inOther := (wellFormedAt_of_unfold (extended.unfold unfolded)).mem_occurrences_iff.mpr
    ⟨fromOther, present⟩
  rw [extended.occurrences unfolded] at inOther
  obtain ⟨node, found⟩ := (wellFormed.mem_occurrences_iff.mp inOther).2
  -- The other tree holds old nodes only, which the numbering of the copy never reaches.
  rcases mem_standIns inCopy with ⟨_member, shares⟩ | ⟨offset, inside, rfl⟩
  · rw [shares_of_node? found] at shares
    rw [shares_of_node? (extended.node? found), shares]
  · have old := index_lt_size found
    have nodesFit := (met.later.fits fits).nodes
    rw [met.size] at nodesFit
    rw [ExprId.index_ofIndex (by omega)] at old
    omega

end Met

/-! ### Requests in turn -/

/-- Clone what is asked for. A request that fails does not stop the later ones. -/
def cloneInTurn : Arena → List ExprId → List (Except CloneDefect ExprId) × Arena
  | arena, [] => ([], arena)
  | arena, id :: ids =>
      let (outcome, after) := arena.clone id
      let (outcomes, last) := after.cloneInTurn ids
      (outcome :: outcomes, last)

def AdmitsInTurn : Arena → List ExprId → Prop
  | _, [] => True
  | arena, id :: ids => arena.Admits id ∧ (arena.clone id).2.AdmitsInTurn ids

instance decidableAdmitsInTurn : (arena : Arena) → DecidablePred arena.AdmitsInTurn
  | _, [] => .isTrue trivial
  | arena, id :: ids =>
      have := decidableAdmitsInTurn (arena.clone id).2 ids
      inferInstanceAs (Decidable (arena.Admits id ∧ _))

theorem cloneInTurn_cons (arena : Arena) (id : ExprId) (ids : List ExprId) :
    arena.cloneInTurn (id :: ids) =
      ((arena.clone id).1 :: ((arena.clone id).2.cloneInTurn ids).1,
        ((arena.clone id).2.cloneInTurn ids).2) := rfl

theorem cloneInTurn_append (arena : Arena) (first second : List ExprId) :
    arena.cloneInTurn (first ++ second) =
      ((arena.cloneInTurn first).1 ++ ((arena.cloneInTurn first).2.cloneInTurn second).1,
        ((arena.cloneInTurn first).2.cloneInTurn second).2) := by
  induction first generalizing arena with
  | nil => rfl
  | cons id ids inductionHypothesis =>
      rw [List.cons_append, cloneInTurn_cons, cloneInTurn_cons, inductionHypothesis]
      rfl

theorem admitsInTurn_append_iff {arena : Arena} {first second : List ExprId} :
    arena.AdmitsInTurn (first ++ second) ↔
      arena.AdmitsInTurn first ∧ (arena.cloneInTurn first).2.AdmitsInTurn second := by
  induction first generalizing arena with
  | nil => exact (iff_of_eq (true_and _)).symm
  | cons id ids inductionHypothesis =>
      rw [List.cons_append, AdmitsInTurn, AdmitsInTurn, inductionHypothesis, and_assoc,
        cloneInTurn_cons]

theorem length_cloneInTurn (arena : Arena) (ids : List ExprId) :
    (arena.cloneInTurn ids).1.length = ids.length := by
  induction ids generalizing arena with
  | nil => rfl
  | cons id ids inductionHypothesis =>
      rw [cloneInTurn_cons, List.length_cons, List.length_cons, inductionHypothesis]

theorem cloneInTurn_extends (arena : Arena) (ids : List ExprId) :
    arena.Extends (arena.cloneInTurn ids).2 := by
  induction ids generalizing arena with
  | nil => exact .refl arena
  | cons id ids inductionHypothesis =>
      exact (arena.clone_extends id).trans (inductionHypothesis (arena.clone id).2)

private theorem take_append_cons {ids : List ExprId} {request : Nat} {id : ExprId}
    (asked : ids[request]? = some id) :
    ids.take request ++ id :: ids.drop (request + 1) = ids := by
  obtain ⟨inside, rfl⟩ := List.getElem?_eq_some_iff.mp asked
  rw [← List.drop_eq_getElem_cons inside, List.take_append_drop]

theorem cloneInTurn_take_succ {arena : Arena} {ids : List ExprId} {request : Nat} {id : ExprId}
    (asked : ids[request]? = some id) :
    (arena.cloneInTurn (ids.take (request + 1))).2 =
      ((arena.cloneInTurn (ids.take request)).2.clone id).2 := by
  rw [List.take_add_one, asked, cloneInTurn_append]
  rfl

section Run

variable {arena : Arena} {ids : List ExprId} (wellFormed : arena.WellFormed)
  (admitted : arena.AdmitsInTurn ids) (fits : (arena.cloneInTurn ids).2.Fits)

include wellFormed admitted fits

theorem WellFormed.cloneInTurn : (arena.cloneInTurn ids).2.WellFormed ∧
    ∃ copies : List ExprId, (arena.cloneInTurn ids).1 = copies.map .ok := by
  induction ids generalizing arena with
  | nil => exact ⟨wellFormed, [], rfl⟩
  | cons id ids inductionHypothesis =>
      obtain ⟨copy, after, done⟩ := (wellFormed.wellFormedAt id).clone_ok admitted.1
      have later := (arena.clone id).2.cloneInTurn_extends ids
      have met : arena.Met ((arena.clone id).2.cloneInTurn ids).2 id copy :=
        ⟨wellFormed, admitted.1, congrArg Prod.fst done, later⟩
      obtain ⟨wellFormedLast, copies, outcomes⟩ :=
        inductionHypothesis (met.wellFormed_after fits) admitted.2 fits
      refine ⟨wellFormedLast, copy :: copies, ?_⟩
      rw [cloneInTurn_cons, outcomes, met.cloned, List.map_cons]

/-- Each request is met in the arena that the earlier ones have left behind. -/
theorem WellFormed.met {request : Nat} {id copy : ExprId} (asked : ids[request]? = some id)
    (answered : (arena.cloneInTurn ids).1[request]? = some (.ok copy)) :
    (arena.cloneInTurn (ids.take request)).2.Met (arena.cloneInTurn ids).2 id copy := by
  have split := take_append_cons asked
  have extended := (arena.cloneInTurn (ids.take request)).2.cloneInTurn_extends
    (id :: ids.drop (request + 1))
  rw [← split, cloneInTurn_append] at answered fits
  rw [← split, admitsInTurn_append_iff] at admitted
  refine ⟨(wellFormed.cloneInTurn admitted.1 (extended.fits fits)).1, admitted.2.1, ?_, ?_⟩
  · have before := arena.length_cloneInTurn (ids.take request)
    rw [List.length_take_of_le (Nat.le_of_lt (List.getElem?_eq_some_iff.mp asked).1)] at before
    rw [List.getElem?_append_right (Nat.le_of_eq before), before, Nat.sub_self,
      cloneInTurn_cons] at answered
    exact Option.some.inj answered
  · have later := (((arena.cloneInTurn (ids.take request)).2.clone id).2).cloneInTurn_extends
      (ids.drop (request + 1))
    conv_rhs => rw [← split, cloneInTurn_append]
    exact later

end Run

/-! ### Requests for old nodes -/

/-- What requests for nodes of the original take does not depend on what has been added to it. -/
theorem WellFormed.cloneInTurn_adds {original before : Arena} {ids : List ExprId}
    (wellFormed : original.WellFormed) (admitted : ∀ id ∈ ids, original.Admits id)
    (extended : original.Extends before) :
    ∃ copies last, before.cloneInTurn ids = (copies.map .ok, last) ∧
      last.size = before.size +
        (ids.map fun id => (original.copied (original.occurrences id)).length).sum ∧
      last.exprLists.size = before.exprLists.size +
        (ids.map fun id => original.entryCount (original.occurrences id)).sum ∧
      (last.Fits → List.Forall₂ (original.TreeStands last) ids copies) := by
  induction ids generalizing before with
  | nil => exact ⟨[], before, rfl, rfl, rfl, fun _fits => .nil⟩
  | cons id ids inductionHypothesis =>
      obtain ⟨copy, middle, done, size, entries, stands⟩ :=
        (wellFormed.wellFormedAt id).clone_adds (admitted id List.mem_cons_self) extended
      have grown := before.clone_extends id
      rw [done] at grown
      obtain ⟨copies, last, others, sizeLast, entriesLast, stand⟩ := inductionHypothesis
        (fun other member => admitted other (List.mem_cons_of_mem id member))
        (extended.trans grown)
      have later := middle.cloneInTurn_extends ids
      rw [others] at later
      refine ⟨copy :: copies, last, ?_, ?_, ?_, ?_⟩
      · rw [cloneInTurn_cons, done, others]
        rfl
      · rw [sizeLast, size, List.map_cons, List.sum_cons, Nat.add_assoc]
      · rw [entriesLast, entries, List.map_cons, List.sum_cons, Nat.add_assoc]
      · exact fun fits => .cons ((stands (later.fits fits)).later later).1 (stand fits)

theorem bind_unfold_of_stand {original last : Arena} {ids copies : List ExprId}
    (stand : List.Forall₂ (original.TreeStands last) ids copies) (request : Nat) :
    copies[request]?.bind last.unfold =
      ids[request]?.bind fun id => (original.unfold id).map Tree.retyped := by
  induction stand generalizing request with
  | nil => rfl
  | cons stands _others inductionHypothesis =>
      cases request with
      | zero =>
          obtain ⟨tree, unfolded, copied⟩ := stands
          simp [unfolded, copied]
      | succ request =>
          rw [List.getElem?_cons_succ, List.getElem?_cons_succ]
          exact inductionHypothesis request

private theorem map_ok_inj {first second : List ExprId}
    (same : first.map (Except.ok (ε := CloneDefect)) = second.map .ok) : first = second :=
  List.map_injective_iff.mpr (fun _ _ equal => Except.ok.inj equal) same

/-- Only how often each node is asked for counts. -/
theorem WellFormed.cloneInTurn_perm {arena last : Arena} {ids reordered copies : List ExprId}
    (wellFormed : arena.WellFormed) (admitted : ∀ id ∈ ids, arena.Admits id)
    (done : arena.cloneInTurn ids = (copies.map .ok, last)) (fits : last.Fits)
    (perm : ids.Perm reordered) :
    ∃ (others : List ExprId) (after : Arena),
      arena.cloneInTurn reordered = (others.map .ok, after) ∧
      after.size = last.size ∧ after.exprLists.size = last.exprLists.size ∧
      ∀ first second : Nat, ids[first]? = reordered[second]? →
        copies[first]?.bind last.unfold = others[second]?.bind after.unfold := by
  obtain ⟨_copies, _last, doneFirst, size, entries, stand⟩ :=
    wellFormed.cloneInTurn_adds admitted (.refl arena)
  obtain ⟨outcomes, rfl⟩ := Prod.ext_iff.mp (done.symm.trans doneFirst)
  cases map_ok_inj outcomes
  obtain ⟨others, after, doneOther, sizeOther, entriesOther, standOther⟩ :=
    wellFormed.cloneInTurn_adds (fun id member => admitted id (perm.mem_iff.mpr member))
      (.refl arena)
  rw [← (perm.map _).sum_eq, ← size] at sizeOther
  rw [← (perm.map _).sum_eq, ← entries] at entriesOther
  have fitsOther : after.Fits := ⟨sizeOther ▸ fits.nodes, entriesOther ▸ fits.entries⟩
  refine ⟨others, after, doneOther, sizeOther, entriesOther, ?_⟩
  intro first second same
  rw [bind_unfold_of_stand (stand fits), bind_unfold_of_stand (standOther fitsOther), same]

theorem WellFormed.admits_answer {arena : Arena} {ids : List ExprId}
    (wellFormed : arena.WellFormed) (admitted : arena.AdmitsInTurn ids)
    (fits : (arena.cloneInTurn ids).2.Fits) {request later : Nat} {id copy : ExprId}
    (asked : ids[request]? = some id)
    (answered : (arena.cloneInTurn ids).1[request]? = some (.ok copy)) (before : request < later) :
    (arena.cloneInTurn (ids.take later)).2.Admits copy := by
  have met := wellFormed.met admitted fits asked answered
  have admits := met.admits fits
  rw [← cloneInTurn_take_succ asked] at admits
  have split : ids.take later = ids.take (request + 1) ++ (ids.take later).drop (request + 1) := by
    conv_lhs => rw [← List.take_append_drop (request + 1) (ids.take later), List.take_take,
      Nat.min_eq_left before]
  rw [split, cloneInTurn_append]
  exact (cloneInTurn_extends _ _).admits admits

theorem clone_requests_are_independent {arena : Arena} {ids : List ExprId}
    (wellFormed : arena.WellFormed) (admitted : arena.AdmitsInTurn ids)
    (fits : (arena.cloneInTurn ids).2.Fits) :
    ∃ (copies : List ExprId) (last : Arena), arena.cloneInTurn ids = (copies.map .ok, last) ∧
      copies.length = ids.length ∧
      (∀ (request : Nat) id copy, ids[request]? = some id → copies[request]? = some copy →
        (∃ tree, (arena.cloneInTurn (ids.take request)).2.unfold id = some tree ∧
          last.unfold copy = some tree.retyped) ∧
        (id ∈ copies.take request → last.unfold copy = last.unfold id) ∧
        (∀ other, (arena.cloneInTurn (ids.take request)).2.Admits other →
          last.Apart copy other) ∧
        ∀ (another : Nat) other, another ≠ request → copies[another]? = some other →
          last.Apart copy other) ∧
      ((∀ id ∈ ids, arena.Admits id) → ∀ reordered, ids.Perm reordered →
        ∃ (others : List ExprId) (after : Arena),
          arena.cloneInTurn reordered = (others.map .ok, after) ∧
          after.size = last.size ∧ after.exprLists.size = last.exprLists.size ∧
          ∀ first second : Nat, ids[first]? = reordered[second]? →
            copies[first]?.bind last.unfold = others[second]?.bind after.unfold) := by
  obtain ⟨_wellFormedLast, copies, outcomes⟩ := wellFormed.cloneInTurn admitted fits
  have counted : copies.length = ids.length := by
    rw [← arena.length_cloneInTurn ids, outcomes, List.length_map]
  have answered {request : Nat} {copy : ExprId} (there : copies[request]? = some copy) :
      (arena.cloneInTurn ids).1[request]? = some (.ok copy) := by
    rw [outcomes, List.getElem?_map, there]
    rfl
  have asked {request : Nat} {copy : ExprId} (there : copies[request]? = some copy) :
      ∃ id, ids[request]? = some id := by
    have inside := (List.getElem?_eq_some_iff.mp there).1
    exact ⟨_, List.getElem?_eq_getElem (counted ▸ inside)⟩
  have apart {earlier later : Nat} {first second : ExprId} (before : earlier < later)
      (there : copies[earlier]? = some first) (thereLater : copies[later]? = some second) :
      (arena.cloneInTurn ids).2.Apart second first := by
    obtain ⟨id, askedFirst⟩ := asked there
    obtain ⟨other, askedSecond⟩ := asked thereLater
    exact (wellFormed.met admitted fits askedSecond (answered thereLater)).apart fits
      (wellFormed.admits_answer admitted fits askedFirst (answered there) before)
  refine ⟨copies, (arena.cloneInTurn ids).2, Prod.ext outcomes rfl, counted, ?_,
    fun old reordered perm => wellFormed.cloneInTurn_perm old (Prod.ext outcomes rfl) fits perm⟩
  intro request id copy askedHere there
  have met := wellFormed.met admitted fits askedHere (answered there)
  refine ⟨met.unfold fits, ?_, fun other present => met.apart fits present, ?_⟩
  · intro named
    obtain ⟨earlier, thereAlready⟩ := List.mem_iff_getElem?.mp (List.mem_of_mem_take named)
    obtain ⟨first, askedFirst⟩ := asked thereAlready
    obtain ⟨tree, _held, copied⟩ :=
      (wellFormed.met admitted fits askedFirst (answered thereAlready)).unfold fits
    exact met.unfold_again fits copied
  · intro another other different thereOther
    rcases Nat.lt_or_gt_of_ne different with before | before
    · exact apart before thereOther there
    · exact (apart before there thereOther).symm

def nestedRequests : List ExprId := [⟨4⟩, ⟨13⟩, .invalid, ⟨7⟩]

theorem nestedRequests_are_independent : nestedCall.WellFormed ∧
    (nestedCall.AdmitsInTurn nestedRequests ∧
      (nestedCall.cloneInTurn nestedRequests).2.Fits ∧
      ∃ last, nestedCall.cloneInTurn nestedRequests =
          ([.ok ⟨13⟩, .ok ⟨22⟩, .ok .invalid, .ok ⟨23⟩], last) ∧
        last.unfold ⟨22⟩ = last.unfold ⟨13⟩ ∧ last.Apart ⟨22⟩ ⟨13⟩ ∧ last.Apart ⟨23⟩ ⟨13⟩) ∧
    (nestedCall.AdmitsInTurn [⟨4⟩, ⟨2⟩, ⟨0⟩] ∧
      (nestedCall.cloneInTurn [⟨4⟩, ⟨2⟩, ⟨0⟩]).2.Fits ∧
      ∃ last others after, nestedCall.cloneInTurn [⟨4⟩, ⟨2⟩, ⟨0⟩] =
          ([.ok ⟨13⟩, .ok ⟨16⟩, .ok ⟨0⟩], last) ∧
        nestedCall.cloneInTurn [⟨0⟩, ⟨4⟩, ⟨2⟩] = (others, after) ∧ after.size = last.size) := by
  have wellFormed : nestedCall.WellFormed := wellFormed_of_forall (by decide) (by decide)
  have admitted : nestedCall.AdmitsInTurn nestedRequests := by decide +kernel
  have fits : (nestedCall.cloneInTurn nestedRequests).2.Fits := by decide +kernel
  have admittedOld : nestedCall.AdmitsInTurn [⟨4⟩, ⟨2⟩, ⟨0⟩] := by decide +kernel
  have fitsOld : (nestedCall.cloneInTurn [⟨4⟩, ⟨2⟩, ⟨0⟩]).2.Fits := by decide +kernel
  have outcomes : (nestedCall.cloneInTurn nestedRequests).1 =
      [⟨13⟩, ⟨22⟩, .invalid, ⟨23⟩].map .ok := by decide +kernel
  have outcomesOld : (nestedCall.cloneInTurn [⟨4⟩, ⟨2⟩, ⟨0⟩]).1 = [⟨13⟩, ⟨16⟩, ⟨0⟩].map .ok := by
    decide +kernel
  obtain ⟨copies, last, done, _counted, independent, _reordering⟩ :=
    clone_requests_are_independent wellFormed admitted fits
  obtain ⟨copiesOld, lastOld, doneOld, _countedOld, _independent, reordering⟩ :=
    clone_requests_are_independent wellFormed admittedOld fitsOld
  rw [done] at outcomes
  rw [doneOld] at outcomesOld
  cases map_ok_inj outcomes
  cases map_ok_inj outcomesOld
  obtain ⟨_tree, again, _old, apart⟩ := independent 1 ⟨13⟩ ⟨22⟩ rfl rfl
  obtain ⟨_treeInside, _again, _oldInside, apartInside⟩ := independent 3 ⟨7⟩ ⟨23⟩ rfl rfl
  obtain ⟨others, after, doneOther, size, _entries, _same⟩ :=
    reordering (by decide) [⟨0⟩, ⟨4⟩, ⟨2⟩] (by decide)
  exact ⟨wellFormed,
    ⟨admitted, fits, last, done, again (by decide), apart 0 ⟨13⟩ (by decide) rfl,
      apartInside 0 ⟨13⟩ (by decide) rfl⟩,
    admittedOld, fitsOld, lastOld, others.map .ok, after, doneOld, doneOther, size⟩

end CompilerIR.Arena
