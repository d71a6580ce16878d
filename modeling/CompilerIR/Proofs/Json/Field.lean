import CompilerIR.Json.Basic
import CompilerIR.Proofs.Decimal.Numeral
import Mathlib.Data.List.Nodup
import Mathlib.Data.List.Perm.Basic

/-!
Numbers of a fixed width, and the fields of records. Main statement: a record is read alike
whatever order its fields stand in and whatever fields with other names stand among them.
-/

namespace CompilerIR.Json

/-! ### Numbers -/

theorem intBetween?_ofInt {least greatest value : Int} (low : least ≤ value)
    (high : value ≤ greatest) : (ofInt value).intBetween? least greatest = some value := by
  have read : (ofInt value).int? = some value := Numeral.int?_ofInt value
  rw [intBetween?, read, Option.filter_some, if_pos (decide_eq_true ⟨low, high⟩)]

theorem nat?_ofNat {bound value : Nat} (inside : value < bound) :
    (ofNat value).nat? bound = some value := by
  have read : (ofNat value).intBetween? 0 (bound - 1) = some (value : Int) :=
    intBetween?_ofInt (Int.natCast_nonneg value) (by omega)
  rw [nat?, read, Option.map_some, Int.toNat_natCast]

theorem uint16?_ofNat (value : UInt16) : (ofNat value.toNat).uint16? = some value := by
  rw [uint16?, nat?_ofNat value.toNat_lt, Option.map_some, UInt16.ofNat_toNat]

theorem uint32?_ofNat (value : UInt32) : (ofNat value.toNat).uint32? = some value := by
  rw [uint32?, nat?_ofNat value.toNat_lt, Option.map_some, UInt32.ofNat_toNat]

theorem uint64?_ofNat (value : UInt64) : (ofNat value.toNat).uint64? = some value := by
  rw [uint64?, nat?_ofNat value.toNat_lt, Option.map_some, UInt64.ofNat_toNat]

theorem int8?_ofInt (value : Int8) : (ofInt value.toInt).int8? = some value := by
  have low : -0x80 ≤ value.toInt := value.le_toInt
  have high : value.toInt ≤ 0x7f := Int.lt_add_one_iff.mp value.toInt_lt
  rw [int8?, intBetween?_ofInt low high, Option.map_some, Int8.ofInt_toInt]

theorem int16?_ofInt (value : Int16) : (ofInt value.toInt).int16? = some value := by
  have low : -0x8000 ≤ value.toInt := value.le_toInt
  have high : value.toInt ≤ 0x7fff := Int.lt_add_one_iff.mp value.toInt_lt
  rw [int16?, intBetween?_ofInt low high, Option.map_some, Int16.ofInt_toInt]

theorem int32?_ofInt (value : Int32) : (ofInt value.toInt).int32? = some value := by
  have low : -0x80000000 ≤ value.toInt := value.le_toInt
  have high : value.toInt ≤ 0x7fffffff := Int.lt_add_one_iff.mp value.toInt_lt
  rw [int32?, intBetween?_ofInt low high, Option.map_some, Int32.ofInt_toInt]

theorem int64?_ofInt (value : Int64) : (ofInt value.toInt).int64? = some value := by
  have low : -0x8000000000000000 ≤ value.toInt := value.le_toInt
  have high : value.toInt ≤ 0x7fffffffffffffff := Int.lt_add_one_iff.mp value.toInt_lt
  rw [int64?, intBetween?_ofInt low high, Option.map_some, Int64.ofInt_toInt]

/-! ### Fields -/

theorem unique?_of_perm {entries other : List (Literal × Json)} (perm : entries.Perm other)
    (key : String) : unique? key entries = unique? key other := by
  have alike := perm.filter (fun entry => decide (entry.1 = .text key))
  unfold unique?
  generalize entries.filter _ = first at alike
  generalize other.filter _ = second at alike
  cases first with
  | nil => rw [List.nil_perm.mp alike]
  | cons entry others =>
      cases others with
      | nil => rw [List.singleton_perm.mp alike]
      | cons next rest =>
          have length := alike.length_eq
          match second, length with
          | _ :: _ :: _, _ => rfl

/-- The entries before and after those of the key itself do not matter. -/
theorem unique?_between {key : String} {front back : List (Literal × Json)}
    (before : ∀ entry ∈ front, entry.1 ≠ .text key) (after : ∀ entry ∈ back, entry.1 ≠ .text key)
    (entries : List (Literal × Json)) :
    unique? key (front ++ (entries ++ back)) = unique? key entries := by
  have noneBefore : front.filter (fun entry => decide (entry.1 = .text key)) = [] :=
    List.filter_eq_nil_iff.mpr fun entry member => by simpa using before entry member
  have noneAfter : back.filter (fun entry => decide (entry.1 = .text key)) = [] :=
    List.filter_eq_nil_iff.mpr fun entry member => by simpa using after entry member
  rw [unique?, unique?, List.filter_append, List.filter_append, noneBefore, noneAfter,
    List.nil_append, List.append_nil]

def present (names : List String) (values : List (Option Json)) : List (Literal × Json) :=
  (names.zip values).filterMap fun (name, value) => value.map (.text name, ·)

theorem name_of_mem_present {names : List String} {values : List (Option Json)}
    {entry : Literal × Json} (member : entry ∈ present names values) :
    ∃ name ∈ names, entry.1 = .text name := by
  obtain ⟨⟨name, value⟩, inside, written⟩ := List.mem_filterMap.mp member
  obtain ⟨json, _value, rfl⟩ := Option.map_eq_some_iff.mp written
  exact ⟨name, (List.of_mem_zip inside).1, rfl⟩

theorem present_cons (name : String) (value : Option Json) (names : List String)
    (values : List (Option Json)) :
    present (name :: names) (value :: values) =
      (value.map (Literal.text name, ·)).toList ++ present names values := by
  cases value <;> rfl

theorem unique?_of_option (name : String) (value : Option Json) :
    unique? name (value.map (Literal.text name, ·)).toList = some value := by
  cases value <;> simp [unique?]

/-- All of them are found among entries with other names. -/
theorem mapM_unique?_present {names : List String} {values : List (Option Json)}
    (distinct : names.Nodup) (lengths : names.length = values.length)
    {front back : List (Literal × Json)}
    (before : ∀ entry ∈ front, ∀ name ∈ names, entry.1 ≠ .text name)
    (after : ∀ entry ∈ back, ∀ name ∈ names, entry.1 ≠ .text name) :
    names.mapM (unique? · (front ++ (present names values ++ back))) = some values := by
  induction names generalizing values front with
  | nil =>
      rw [List.length_eq_zero_iff.mp lengths.symm]
      rfl
  | cons name names inductionHypothesis =>
      obtain _ | ⟨value, values⟩ := values
      · contradiction
      obtain ⟨fresh, distinct⟩ := List.nodup_cons.mp distinct
      have afterHere : ∀ entry ∈ present names values ++ back, entry.1 ≠ .text name := by
        intro entry member same
        rcases List.mem_append.mp member with own | later
        · obtain ⟨other, inside, named⟩ := name_of_mem_present own
          rw [named, Literal.text.injEq] at same
          exact fresh (same ▸ inside)
        · exact after entry later name List.mem_cons_self same
      have beforeHere : ∀ entry ∈ front, entry.1 ≠ .text name :=
        fun entry member => before entry member name List.mem_cons_self
      have beforeOthers : ∀ entry ∈ front ++ (value.map (Literal.text name, ·)).toList,
          ∀ other ∈ names, entry.1 ≠ .text other := by
        intro entry member other inside
        rcases List.mem_append.mp member with early | here
        · exact before entry early other (List.mem_cons_of_mem name inside)
        · obtain ⟨json, _value, rfl⟩ := Option.map_eq_some_iff.mp (Option.mem_toList.mp here)
          rintro ⟨⟩
          exact fresh inside
      have afterOthers : ∀ entry ∈ back, ∀ other ∈ names, entry.1 ≠ .text other :=
        fun entry member other inside => after entry member other (List.mem_cons_of_mem name inside)
      have found : unique? name (front ++ (present (name :: names) (value :: values) ++ back)) =
          some value := by
        rw [present_cons, List.append_assoc, unique?_between beforeHere afterHere,
          unique?_of_option]
      have rest := inductionHypothesis distinct (Nat.succ.inj lengths) beforeOthers afterOthers
      rw [List.append_assoc, ← List.append_assoc _ (present names values), ← present_cons] at rest
      rw [List.mapM_cons, found, rest]
      rfl

def IsScalar : Json → Prop
  | .null | .bool _ | .number _ | .string (.text _) => True
  | .string .unpaired | .array _ | .object _ => False

/-- Entries that hold the values under these names in any order, and among them any number of
scalars under other names. -/
def Holds (names : List String) (values : List (Option Json)) (entries : List (Literal × Json)) :
    Prop :=
  ∃ added : List (Literal × Json), entries.Perm (present names values ++ added) ∧
    ∀ entry ∈ added, (∃ name, entry.1 = .text name ∧ name ∉ names) ∧ entry.2.IsScalar

theorem holds_present (names : List String) (values : List (Option Json)) :
    Holds names values (present names values) :=
  ⟨[], by rw [List.append_nil], by rintro entry ⟨⟩⟩

theorem fields?_of_holds {names : List String} {values : List (Option Json)}
    {entries : List (Literal × Json)} (distinct : names.Nodup)
    (lengths : names.length = values.length) (holds : Holds names values entries) :
    fields? names (.object entries) = some values := by
  obtain ⟨added, perm, others⟩ := holds
  have otherNames : ∀ entry ∈ added, ∀ name ∈ names, entry.1 ≠ .text name := by
    intro entry member name inside same
    obtain ⟨other, otherNamed, fresh⟩ := (others entry member).1
    rw [otherNamed, Literal.text.injEq] at same
    exact fresh (same ▸ inside)
  have named : ¬(entries.any fun entry => decide (entry.1 = .unpaired)) = true := by
    rw [List.any_eq_true]
    rintro ⟨entry, member, unpaired⟩
    have same := of_decide_eq_true unpaired
    rcases List.mem_append.mp (perm.mem_iff.mp member) with own | other
    · obtain ⟨name, _inside, named⟩ := name_of_mem_present own
      exact absurd (named.symm.trans same) nofun
    · obtain ⟨name, named, _fresh⟩ := (others entry other).1
      exact absurd (named.symm.trans same) nofun
  have nothingBefore : ∀ entry ∈ ([] : List (Literal × Json)), ∀ name ∈ names,
      entry.1 ≠ .text name := by
    rintro entry ⟨⟩
  have alike : (unique? · entries) = (unique? · ([] ++ (present names values ++ added))) :=
    funext fun key => unique?_of_perm perm key
  have opened : fields? names (.object entries) =
      if entries.any (·.1 = .unpaired) then none else names.mapM (unique? · entries) := rfl
  rw [opened, if_neg named, alike]
  exact mapM_unique?_present distinct lengths nothingBefore otherNames

theorem Source.variant?_of_holds (source : Source) {names : List String}
    {values : List (Option Json)} {entries : List (Literal × Json)} (distinct : names.Nodup)
    (lengths : names.length = values.length) (holds : Holds names values entries) :
    source.variant? names (.object entries) = some values := by
  cases source <;> exact fields?_of_holds distinct lengths holds

/-- The entries of a record as they are written, with a value under each name. -/
theorem record?_written {names : List String} (distinct : names.Nodup) (values : List Json)
    (lengths : names.length = values.length) :
    record? names (.object (present names (values.map some))) = some (values.map some) :=
  fields?_of_holds distinct (by rw [List.length_map, lengths]) (holds_present names _)

end CompilerIR.Json
