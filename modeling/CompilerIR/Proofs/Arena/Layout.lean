import CompilerIR.Proofs.Arena.Store
import Mathlib.Algebra.BigOperators.Group.List.Basic
import Mathlib.Algebra.GroupWithZero.Nat

/-!
Ranges that lie one behind the other. Main statements: if ranges tile a storage from a position on,
no two of them share an entry, and what the storage holds from there on is what they hold.
-/

namespace CompilerIR.ListRange

variable {α : Type}

/-- The ranges take up the positions from `start` up to `stop`, each beginning where the one before
it ends. Those without entries take up none and are all written the same. -/
inductive Tiles : Nat → List (ListRange α) → Nat → Prop
  | nil (start : Nat) : Tiles start [] start
  | empty {start stop : Nat} {rest : List (ListRange α)} (others : Tiles start rest stop) :
      Tiles start (empty :: rest) stop
  | segment {range : ListRange α} {stop : Nat} {rest : List (ListRange α)}
      (notEmpty : range.isEmpty = false) (others : Tiles range.stop rest stop) :
      Tiles range.start.toNat (range :: rest) stop

theorem not_covers_empty (position : Nat) : ¬(empty : ListRange α).Covers position := by
  rintro ⟨_started, stops⟩
  exact Nat.not_lt_zero position stops

theorem Tiles.append {start middle stop : Nat} {first second : List (ListRange α)}
    (tiles : Tiles start first middle) (later : Tiles middle second stop) :
    Tiles start (first ++ second) stop := by
  induction tiles with
  | nil => exact later
  | empty _others inductionHypothesis => exact .empty (inductionHypothesis later)
  | segment notEmpty _others inductionHypothesis =>
      exact .segment notEmpty (inductionHypothesis later)

/-- A list that has just been stored begins where the storage ended. -/
theorem tiles_append {storage : Array α} {entries : List α} (fits : entries.length ≤ maxLength)
    (room : storage.size < UInt32.size) :
    Tiles storage.size [(append storage entries).1] (append storage entries).2.size := by
  cases entries with
  | nil => exact .empty (.nil _)
  | cons first rest =>
      have counted := length_eq_of_read? (read?_append fits room)
      have started : (append storage (first :: rest)).1.start.toNat = storage.size :=
        UInt32.toNat_ofNat_of_lt' room
      have notEmpty : (append storage (first :: rest)).1.isEmpty = false := by
        rw [Bool.eq_false_iff, ne_eq, isEmpty_iff_length, ← counted]
        exact Nat.succ_ne_zero _
      have last : (append storage (first :: rest)).1.stop =
          (append storage (first :: rest)).2.size := by
        rw [stop, started, ← counted, size_append]
      have tiles := Tiles.segment notEmpty (.nil (append storage (first :: rest)).1.stop)
      rwa [started, last] at tiles

section Tiling

variable {start stop : Nat} {ranges : List (ListRange α)} (tiles : Tiles start ranges stop)

include tiles

theorem Tiles.stop_eq : stop = start + (ranges.map length).sum := by
  induction tiles with
  | nil => rfl
  | empty _others inductionHypothesis =>
      rw [inductionHypothesis, List.map_cons, List.sum_cons]
      exact congrArg _ (Nat.zero_add _).symm
  | segment _notEmpty _others inductionHypothesis =>
      rw [inductionHypothesis, List.map_cons, List.sum_cons, ListRange.stop, Nat.add_assoc]

theorem Tiles.bounds_of_covers {range : ListRange α} (member : range ∈ ranges) {position : Nat}
    (covered : range.Covers position) : start ≤ position ∧ position < stop := by
  induction tiles with
  | nil => cases member
  | empty _others inductionHypothesis =>
      rcases List.mem_cons.mp member with rfl | later
      · exact absurd covered (not_covers_empty position)
      · exact inductionHypothesis later
  | segment _notEmpty others inductionHypothesis =>
      rename_i first last rest
      have grown := others.stop_eq
      rcases List.mem_cons.mp member with rfl | later
      · exact ⟨covered.1, by have ends := covered.2; omega⟩
      · obtain ⟨started, ends⟩ := inductionHypothesis later
        exact ⟨Nat.le_trans (Nat.le_add_right _ _) started, ends⟩

theorem Tiles.pairwise_disjoint : ranges.Pairwise Disjoint := by
  induction tiles with
  | nil => exact .nil
  | empty _others inductionHypothesis =>
      refine .cons ?_ inductionHypothesis
      exact fun _range _member position ⟨covered, _⟩ => not_covers_empty position covered
  | segment _notEmpty others inductionHypothesis =>
      refine .cons ?_ inductionHypothesis
      rintro range member position ⟨⟨_started, ends⟩, covered⟩
      exact Nat.not_lt.mpr (others.bounds_of_covers member covered).1 ends

end Tiling

/-- What the ranges hold, one behind the other, is the storage from their start on. -/
theorem Tiles.drop_eq_flatMap {start : Nat} {ranges : List (ListRange α)} {storage : Array α}
    (tiles : Tiles start ranges storage.size) :
    storage.toList.drop start = ranges.flatMap fun range => (range.read? storage).getD [] := by
  generalize reached : storage.size = stop at tiles
  induction tiles with
  | nil =>
      rw [List.flatMap_nil, List.drop_eq_nil_iff, Array.length_toList]
      exact Nat.le_of_eq reached
  | empty _others inductionHypothesis =>
      rw [List.flatMap_cons, inductionHypothesis reached]
      rfl
  | segment notEmpty others inductionHypothesis =>
      rename_i range stop rest
      have inside : range.stop ≤ storage.size := by
        have grown := others.stop_eq
        omega
      have read : range.read? storage =
          some (storage.extract range.start.toNat range.stop).toList := by
        rw [read?, notEmpty, if_neg Bool.false_ne_true, if_pos inside]
      have split : storage.toList.drop range.stop =
          (storage.toList.drop range.start.toNat).drop range.length := by
        rw [List.drop_drop, ListRange.stop]
      rw [List.flatMap_cons, ← inductionHypothesis reached, read, Option.getD_some,
        Array.toList_extract, List.extract, split, ListRange.stop, Nat.add_sub_cancel_left,
        List.take_append_drop]

end CompilerIR.ListRange
