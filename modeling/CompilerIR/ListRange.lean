import CompilerIR.ExprId
import CompilerIR.TypeId

/-!
Ranges of a flat storage. Nodes with lists of any length keep a fixed size by holding the
range their list occupies.
-/

namespace CompilerIR

/-- A list of `len` entries in a storage of `α`, from `start` on. The width of `len` is a
hard limit on the lists of a node. -/
structure ListRange (α : Type) where
  start : UInt32
  len : UInt16
deriving DecidableEq

abbrev ExprRange := ListRange ExprId
abbrev TypeRange := ListRange TypeId

namespace ListRange

variable {α : Type}

/-- The one range of every list without entries. -/
def empty : ListRange α := ⟨0, 0⟩

def maxLength : Nat := 65535

def isEmpty (range : ListRange α) : Bool := range.len = 0

def length (range : ListRange α) : Nat := range.len.toNat

/-- One past the last position; it may lie beyond what `start` can hold. -/
def stop (range : ListRange α) : Nat := range.start.toNat + range.length

/-- The entries in the storage, if it holds all of them. A range without entries lies in
every storage, wherever it starts. -/
def read? (range : ListRange α) (storage : Array α) : Option (List α) :=
  if range.isEmpty then some []
  else if range.stop ≤ storage.size then
    some (storage.extract range.start.toNat range.stop).toList
  else none

theorem length_le (range : ListRange α) : range.length ≤ maxLength := by
  have bound := range.len.toNat_lt
  simp only [length, maxLength]
  omega

theorem isEmpty_iff_length {range : ListRange α} : range.isEmpty = true ↔ range.length = 0 := by
  rw [isEmpty, decide_eq_true_eq, length, ← UInt16.toNat_inj, UInt16.toNat_zero]

theorem length_eq_of_read? {range : ListRange α} {storage : Array α} {entries : List α}
    (read : range.read? storage = some entries) : entries.length = range.length := by
  unfold read? at read
  split at read
  · cases read
    simp_all [isEmpty, length]
  · split at read
    · cases read
      simp only [Array.length_toList, Array.size_extract]
      simp only [stop] at *
      omega
    · contradiction

theorem length_le_of_read? {range : ListRange α} {storage : Array α} {entries : List α}
    (read : range.read? storage = some entries) : entries.length ≤ maxLength :=
  length_eq_of_read? read ▸ range.length_le

def append (storage : Array α) : List α → ListRange α × Array α
  | [] => (empty, storage)
  | entries => (⟨.ofNat storage.size, .ofNat entries.length⟩, storage ++ entries)

/-- What has been added later does not show. -/
theorem read?_append_of_some {range : ListRange α} {storage : Array α} {entries : List α}
    (read : range.read? storage = some entries) (more : Array α) :
    range.read? (storage ++ more) = some entries := by
  unfold read? at *
  split at read
  · rename_i isEmpty
    rw [if_pos isEmpty]
    exact read
  · rename_i notEmpty
    rw [if_neg notEmpty]
    split at read
    · rename_i inside
      have insideMore : range.stop ≤ (storage ++ more).size := by
        rw [Array.size_append]
        omega
      have nothingMore : more.extract (range.start.toNat - storage.size)
          (range.stop - storage.size) = #[] :=
        Array.extract_empty_of_stop_le_start (by omega)
      rw [if_pos insideMore, Array.extract_append, nothingMore, Array.append_empty]
      exact read
    · contradiction

/-- What has been read can be read again once the storage has grown. -/
theorem read?_mono {range : ListRange α} {before after : Array α} {entries : List α}
    (grown : before.toList <+: after.toList) (read : range.read? before = some entries) :
    range.read? after = some entries := by
  obtain ⟨more, added⟩ := grown
  have split : after = before ++ more.toArray := by
    apply Array.toList_inj.mp
    rw [Array.toList_append, added]
  rw [split]
  exact read?_append_of_some read _

theorem toList_append (storage : Array α) (entries : List α) :
    (append storage entries).2.toList = storage.toList ++ entries := by
  cases entries with
  | nil => exact (List.append_nil _).symm
  | cons first rest => simp only [append, Array.toList_appendList]

theorem size_append (storage : Array α) (entries : List α) :
    (append storage entries).2.size = storage.size + entries.length := by
  rw [← Array.length_toList, toList_append, List.length_append, Array.length_toList]

/-- A list is read back from where it has been added. -/
theorem read?_append {storage : Array α} {entries : List α}
    (fits : entries.length ≤ maxLength) (room : storage.size < UInt32.size) :
    (append storage entries).1.read? (append storage entries).2 = some entries := by
  cases entries with
  | nil => rfl
  | cons first rest =>
      have lengthKept : (UInt16.ofNat (first :: rest).length).toNat = (first :: rest).length :=
        UInt16.toNat_ofNat_of_lt' (Nat.lt_succ_of_le fits)
      have startKept : (UInt32.ofNat storage.size).toNat = storage.size :=
        UInt32.toNat_ofNat_of_lt' room
      have notEmpty : UInt16.ofNat (first :: rest).length ≠ 0 := by
        intro impossible
        rw [impossible] at lengthKept
        contradiction
      have sizeAfter :
          (storage ++ (first :: rest)).size = storage.size + (first :: rest).length :=
        size_append storage (first :: rest)
      have entriesAfter : ((storage ++ (first :: rest)).extract storage.size
          (storage.size + (first :: rest).length)).toList = first :: rest := by
        rw [Array.toList_extract, Array.toList_appendList]
        simp [List.extract]
      simp only [append, read?, isEmpty, stop, length, lengthKept, startKept, notEmpty,
        decide_false, Bool.false_eq_true, if_false, sizeAfter, Nat.le_refl, if_true, entriesAfter]

def text (label : String) (range : ListRange α) : String :=
  label ++ "(" ++ Text.decimal range.start.toNat ++ ".." ++ Text.decimal range.stop ++ ")"

def toJson (range : ListRange α) : Json :=
  .object [("start", .ofNat range.start.toNat), ("len", .ofNat range.length)]

def ofJson? (json : Json) : Option (ListRange α) := do
  let [some start, some len] ← json.record? ["start", "len"] | none
  return ⟨← start.uint32?, ← len.uint16?⟩

end ListRange

def ExprRange.text (range : ExprRange) : String := ListRange.text "ExprRange" range

def TypeRange.text (range : TypeRange) : String := ListRange.text "TypeRange" range

end CompilerIR
