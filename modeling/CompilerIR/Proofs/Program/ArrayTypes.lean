import CompilerIR.Arena.Columns
import CompilerIR.Proofs.Program.Calls
import Mathlib.Data.Finset.Card

/-!
Array types and what remembers them. Main statement: the table has one array type for every
element that one was asked for, which every call for it is answered with, and a class for every
declaration.
-/

namespace CompilerIR

namespace TypeCall

def element? : TypeCall → Option TypeId
  | .declareClass _ _ => none
  | .arrayType element => some element

def elements (calls : List TypeCall) : List TypeId := calls.filterMap element?

def declarations (calls : List TypeCall) : Nat := calls.countP fun call => call.element? = none

def entryCount (calls : List TypeCall) : Nat :=
  13 + declarations calls + (elements calls).toFinset.card

theorem elements_concat (calls : List TypeCall) (call : TypeCall) :
    elements (calls ++ [call]) = elements calls ++ call.element?.toList := by
  rw [elements, List.filterMap_append, elements]
  cases call <;> rfl

theorem mem_elements_concat {calls : List TypeCall} {element other : TypeId} :
    other ∈ elements (calls ++ [.arrayType element]) ↔
      other ∈ elements calls ∨ other = element := by
  rw [elements_concat, element?, Option.toList_some, List.mem_append, List.mem_singleton]

theorem entryCount_concat_declareClass (calls : List TypeCall) (name : Name)
    (superclass : TypeId) :
    entryCount (calls ++ [.declareClass name superclass]) = entryCount calls + 1 := by
  have counted : declarations (calls ++ [.declareClass name superclass]) =
      declarations calls + 1 := List.countP_append
  have same : elements (calls ++ [.declareClass name superclass]) = elements calls := by
    rw [elements_concat]
    exact List.append_nil _
  rw [entryCount, entryCount, counted, same]
  omega

theorem entryCount_concat_arrayType (calls : List TypeCall) (element : TypeId) :
    entryCount (calls ++ [.arrayType element]) =
      if element ∈ elements calls then entryCount calls else entryCount calls + 1 := by
  have counted : declarations (calls ++ [.arrayType element]) = declarations calls :=
    List.countP_append
  have inserted : (elements (calls ++ [.arrayType element])).toFinset =
      insert element (elements calls).toFinset := by
    rw [elements_concat, element?, Option.toList_some, List.toFinset_append, Finset.union_comm]
    rfl
  rw [entryCount, entryCount, counted, inserted]
  split
  · rename_i known
    rw [Finset.card_insert_of_mem (List.mem_toFinset.mpr known)]
  · rename_i unknown
    rw [Finset.card_insert_of_notMem fun known => unknown (List.mem_toFinset.mp known)]
    omega

theorem entryCount_le_append (calls more : List TypeCall) :
    entryCount calls ≤ entryCount (calls ++ more) := by
  have declared : declarations calls ≤ declarations (calls ++ more) := by
    rw [declarations, declarations, List.countP_append]
    exact Nat.le_add_right _ _
  have included : (elements calls).toFinset ⊆ (elements (calls ++ more)).toFinset := by
    rw [elements, elements, List.filterMap_append, List.toFinset_append]
    exact Finset.subset_union_left
  have distinct := Finset.card_le_card included
  rw [entryCount, entryCount]
  omega

end TypeCall

namespace Program

open TypeCall

def performOrFault (program : Program) (call : TypeCall) : Except Fault (TypeId × Program) :=
  if program.made? call = none ∧ UInt32.size ≤ program.typeCount then
    .error (.tooMany "types" program.typeCount)
  else .ok (program.perform call)

def performEach (program : Program) : List TypeCall → Except Fault (List TypeId × Program)
  | [] => .ok ([], program)
  | call :: calls => do
      let (type, after) ← program.performOrFault call
      let (types, last) ← after.performEach calls
      return (type :: types, last)

theorem performOrFault_eq_ok {program after : Program} {call : TypeCall} {type : TypeId}
    (answered : program.performOrFault call = .ok (type, after)) :
    program.perform call = (type, after) ∧
      (program.made? call = none → program.typeCount < UInt32.size) := by
  unfold performOrFault at answered
  split at answered
  · cases answered
  · rename_i free
    exact ⟨Except.ok.inj answered, fun new => Nat.lt_of_not_le fun full => free ⟨new, full⟩⟩

/-- After these calls the table lists each array type asked for once, and what is remembered of an
element is where its array type stands. -/
structure Memoises (program : Program) (calls : List TypeCall) : Prop where
  room : program.typeCount ≤ UInt32.size
  count : program.typeCount = entryCount calls
  listed : ∀ element, program.types.toList.count (.arrayType element) =
    if element ∈ elements calls then 1 else 0
  inverse : ∀ element type, program.arrayTypes.lookup element = some type ↔
    program.type? type = some (.arrayType element)

theorem memoises_of_create {interner shared : Interner} {program : Program}
    (made : create interner = .ok (program, shared)) : program.Memoises [] := by
  obtain ⟨names, answered, rfl⟩ := create_eq_ok made
  have ten : names.length = 10 := length_internEach answered
  have count : (names.map TypeEntry.primitive ++ fixedClasses).length = 13 := by
    rw [List.length_append, List.length_map, ten]
    rfl
  have absent (element : TypeId) :
      TypeEntry.arrayType element ∉ names.map TypeEntry.primitive ++ fixedClasses := by
    simp [fixedClasses]
  refine ⟨Nat.le_trans (Nat.le_of_eq count) (by decide), count, ?_, ?_⟩
  · intro element
    exact List.count_eq_zero.mpr (absent element)
  · intro element type
    refine iff_of_false nofun ?_
    intro found
    exact absent element (mem_types_of_type? found)

section Step

variable {program : Program} {calls : List TypeCall} (memoises : program.Memoises calls)

include memoises

theorem Memoises.lookup_eq_none_iff (element : TypeId) :
    program.arrayTypes.lookup element = none ↔ element ∉ elements calls := by
  constructor
  · intro unknown asked
    have once := memoises.listed element
    rw [if_pos asked] at once
    have present : .arrayType element ∈ program.types.toList := List.count_pos_iff.mp (by omega)
    obtain ⟨index, inside, found⟩ := List.getElem_of_mem present
    have number : (TypeId.ofIndex index).index = index :=
      TypeId.index_ofIndex (Nat.lt_of_lt_of_le inside memoises.room)
    have known := (memoises.inverse element (.ofIndex index)).mpr (by
      rw [type?_eq_getElem?, number, List.getElem?_eq_getElem inside, found])
    rw [unknown] at known
    cases known
  · intro unasked
    cases known : program.arrayTypes.lookup element with
    | none => rfl
    | some type =>
        have never := memoises.listed element
        rw [if_neg unasked] at never
        have present := mem_types_of_type? ((memoises.inverse element type).mp known)
        exact absurd present (List.count_eq_zero.mp never)

/-- A class has no part in what is remembered of array types. -/
theorem Memoises.declareClass (name : Name) (superclass : TypeId)
    (free : program.typeCount < UInt32.size) :
    (program.declareClass name superclass).2.Memoises
      (calls ++ [.declareClass name superclass]) := by
  have pushed : (program.declareClass name superclass).2.types =
      program.types.push (.classType name (some superclass)) := rfl
  refine ⟨?_, ?_, ?_, ?_⟩
  · rw [typeCount_of_pushed pushed]
    exact free
  · rw [typeCount_of_pushed pushed, memoises.count, entryCount_concat_declareClass]
  · intro element
    rw [pushed, Array.toList_push, List.count_append, memoises.listed, elements_concat, element?,
      Option.toList_none, List.append_nil]
    rfl
  · intro element type
    rw [type?_of_pushed pushed]
    by_cases last : type.index = program.typeCount
    · rw [if_pos last]
      refine iff_of_false ?_ nofun
      intro known
      have inside := index_lt_typeCount ((memoises.inverse element type).mp known)
      omega
    · rw [if_neg last]
      exact memoises.inverse element type

theorem Memoises.arrayType_of_known {element type : TypeId}
    (known : program.arrayTypes.lookup element = some type) :
    program.Memoises (calls ++ [.arrayType element]) := by
  have asked : element ∈ elements calls := by
    by_contra unasked
    rw [(memoises.lookup_eq_none_iff element).mpr unasked] at known
    cases known
  refine ⟨memoises.room, ?_, ?_, memoises.inverse⟩
  · rw [memoises.count, entryCount_concat_arrayType, if_pos asked]
  · intro other
    have same : other ∈ elements (calls ++ [.arrayType element]) ↔ other ∈ elements calls := by
      rw [mem_elements_concat, or_iff_left_of_imp]
      rintro rfl
      exact asked
    rw [memoises.listed]
    simp only [same]

theorem Memoises.arrayType_of_unknown {element : TypeId}
    (unknown : program.arrayTypes.lookup element = none)
    (free : program.typeCount < UInt32.size) :
    (program.arrayType element).2.Memoises (calls ++ [.arrayType element]) := by
  have unasked := (memoises.lookup_eq_none_iff element).mp unknown
  have added : program.arrayType element = (.ofIndex program.typeCount,
      { program with
        types := program.types.push (.arrayType element)
        arrayTypes := (element, .ofIndex program.typeCount) :: program.arrayTypes }) := by
    rw [arrayType, unknown]
    rfl
  have pushed : (program.arrayType element).2.types = program.types.push (.arrayType element) := by
    rw [added]
  refine ⟨?_, ?_, ?_, ?_⟩
  · rw [typeCount_of_pushed pushed]
    exact free
  · rw [typeCount_of_pushed pushed, memoises.count, entryCount_concat_arrayType, if_neg unasked]
  · intro other
    rw [pushed, Array.toList_push, List.count_append, memoises.listed]
    simp only [mem_elements_concat]
    by_cases same : other = element
    · subst same
      simp [unasked]
    · simp [same, Ne.symm same]
  · rw [added]
    exact lookup_cons_eq_some_iff (fun _ _ => TypeEntry.arrayType.inj) TypeId.index_injective
      memoises.inverse unknown (TypeId.index_ofIndex free)

theorem Memoises.performOrFault {call : TypeCall} {type : TypeId} {after : Program}
    (answered : program.performOrFault call = .ok (type, after)) :
    after.Memoises (calls ++ [call]) ∧ after.type? type = some call.entry := by
  obtain ⟨performed, numbered⟩ := performOrFault_eq_ok answered
  -- Only a call that does not find its type made already needs a number for it.
  cases new : program.made? call with
  | none =>
      have free := numbered new
      have found := type?_perform_of_new new free
      rw [performed] at found
      refine ⟨?_, found⟩
      cases call with
      | declareClass name superclass =>
          have memoisesAfter := memoises.declareClass name superclass free
          rwa [← perform, performed] at memoisesAfter
      | arrayType element =>
          have memoisesAfter := memoises.arrayType_of_unknown new free
          rwa [← perform, performed] at memoisesAfter
  | some known =>
      rw [perform_of_made new] at performed
      cases performed
      cases call with
      | declareClass name superclass => cases new
      | arrayType element =>
          exact ⟨memoises.arrayType_of_known new, (memoises.inverse element _).mp new⟩

/-- A call is met unless all numbers have been given out. -/
theorem Memoises.exists_performOrFault {call : TypeCall}
    (room : entryCount (calls ++ [call]) ≤ UInt32.size) :
    ∃ type after, program.performOrFault call = .ok (type, after) := by
  refine ⟨_, _, if_neg ?_⟩
  rintro ⟨new, full⟩
  have counted : entryCount (calls ++ [call]) = program.typeCount + 1 := by
    rw [memoises.count]
    cases call with
    | declareClass name superclass => exact entryCount_concat_declareClass calls name superclass
    | arrayType element =>
        rw [entryCount_concat_arrayType,
          if_neg ((memoises.lookup_eq_none_iff element).mp new)]
  omega

end Step

/-! ### Calls one after the other -/

theorem performEach_cons_eq_ok {program last : Program} {call : TypeCall} {rest : List TypeCall}
    {types : List TypeId} (answered : program.performEach (call :: rest) = .ok (types, last)) :
    ∃ type after others, program.performOrFault call = .ok (type, after) ∧
      after.performEach rest = .ok (others, last) ∧ types = type :: others := by
  obtain ⟨⟨type, after⟩, first, answered⟩ := bind_eq_ok answered
  obtain ⟨⟨others, _last⟩, later, same⟩ := bind_eq_ok answered
  cases same
  exact ⟨type, after, others, first, later, rfl⟩

theorem performEach_grows {program after : Program} {calls : List TypeCall} {types : List TypeId}
    (answered : program.performEach calls = .ok (types, after)) :
    program.types.toList <+: after.types.toList := by
  induction calls generalizing program types with
  | nil =>
      cases answered
      exact List.prefix_rfl
  | cons call rest inductionHypothesis =>
      obtain ⟨type, middle, others, first, later, rfl⟩ := performEach_cons_eq_ok answered
      have grown := program.perform_grows call
      rw [(performOrFault_eq_ok first).1] at grown
      exact grown.trans (inductionHypothesis later)

theorem Memoises.performEach {program after : Program} {done calls : List TypeCall}
    {types : List TypeId} (memoises : program.Memoises done)
    (answered : program.performEach calls = .ok (types, after)) :
    after.Memoises (done ++ calls) ∧
      List.Forall₂ (fun call type => after.type? type = some call.entry) calls types := by
  induction calls generalizing program done types with
  | nil =>
      cases answered
      rw [List.append_nil]
      exact ⟨memoises, .nil⟩
  | cons call rest inductionHypothesis =>
      obtain ⟨type, middle, others, first, later, rfl⟩ := performEach_cons_eq_ok answered
      obtain ⟨memoisesMiddle, found⟩ := memoises.performOrFault first
      obtain ⟨memoisesAfter, foundOthers⟩ := inductionHypothesis memoisesMiddle later
      rw [List.append_cons]
      exact ⟨memoisesAfter, .cons (type?_of_grown (performEach_grows later) found) foundOthers⟩

theorem Memoises.exists_performEach {program : Program} {done calls : List TypeCall}
    (memoises : program.Memoises done) (room : entryCount (done ++ calls) ≤ UInt32.size) :
    ∃ types after, program.performEach calls = .ok (types, after) := by
  induction calls generalizing program done with
  | nil => exact ⟨[], program, rfl⟩
  | cons call rest inductionHypothesis =>
      rw [List.append_cons] at room
      obtain ⟨type, middle, first⟩ := memoises.exists_performOrFault
        (Nat.le_trans (entryCount_le_append (done ++ [call]) rest) room)
      obtain ⟨others, after, later⟩ :=
        inductionHypothesis (memoises.performOrFault first).1 room
      refine ⟨type :: others, after, ?_⟩
      rw [Program.performEach, first]
      change (middle.performEach rest >>= fun answer => pure (type :: answer.1, answer.2)) = _
      rw [later]
      rfl

section Answers

variable {program : Program} {calls : List TypeCall} (memoises : program.Memoises calls)

include memoises

theorem Memoises.performOrFault_arrayType {element type : TypeId}
    (found : program.type? type = some (.arrayType element)) :
    program.performOrFault (.arrayType element) = .ok (type, program) := by
  have known : program.made? (.arrayType element) = some type :=
    (memoises.inverse element type).mpr found
  have met : ¬(program.made? (.arrayType element) = none ∧ UInt32.size ≤ program.typeCount) := by
    rintro ⟨unknown, _full⟩
    rw [known] at unknown
    cases unknown
  rw [Program.performOrFault, if_neg met, perform_of_made known]

theorem Memoises.eq_iff_of_arrayTypes {first second firstType secondType : TypeId}
    (foundFirst : program.type? firstType = some (.arrayType first))
    (foundSecond : program.type? secondType = some (.arrayType second)) :
    firstType = secondType ↔ first = second := by
  constructor
  · rintro rfl
    rw [foundFirst] at foundSecond
    cases foundSecond
    rfl
  · rintro rfl
    rw [← memoises.inverse] at foundFirst foundSecond
    rw [foundFirst] at foundSecond
    exact Option.some.inj foundSecond

end Answers

/-- A class is added however many there are of its name. -/
theorem performOrFault_declareClass {program next : Program} {name : Name}
    {superclass type : TypeId}
    (answered : program.performOrFault (.declareClass name superclass) = .ok (type, next)) :
    program.type? type = none ∧
      next.types = program.types.push (.classType name (some superclass)) ∧
      next.type? type = some (.classType name (some superclass)) := by
  obtain ⟨performed, numbered⟩ := performOrFault_eq_ok answered
  have last : (TypeId.ofIndex program.types.size).index = program.types.size :=
    TypeId.index_ofIndex (numbered rfl)
  cases performed
  refine ⟨?_, rfl, ?_⟩
  · rw [type?, last]
    exact Array.getElem?_eq_none (Nat.le_refl _)
  · rw [type?_of_pushed rfl]
    exact if_pos last

theorem array_types_are_memoised {interner shared : Interner} {program : Program}
    (made : create interner = .ok (program, shared)) (calls : List TypeCall) :
    ((∃ types after, program.performEach calls = .ok (types, after)) ↔
      13 + declarations calls + (elements calls).toFinset.card ≤ UInt32.size) ∧
    ∀ types after, program.performEach calls = .ok (types, after) →
      types.length = calls.length ∧
      (∀ element type, (.arrayType element, type) ∈ calls.zip types →
        after.type? type = some (.arrayType element) ∧
        after.performOrFault (.arrayType element) = .ok (type, after)) ∧
      (∀ first second firstType secondType, (.arrayType first, firstType) ∈ calls.zip types →
        (.arrayType second, secondType) ∈ calls.zip types →
        (firstType = secondType ↔ first = second)) ∧
      (∀ element, after.types.toList.count (.arrayType element) =
        if element ∈ elements calls then 1 else 0) ∧
      (∀ name superclass type next,
        after.performOrFault (.declareClass name superclass) = .ok (type, next) →
        after.type? type = none ∧
        next.types = after.types.push (.classType name (some superclass)) ∧
        next.type? type = some (.classType name (some superclass))) ∧
      (∀ later others last, after.performEach later = .ok (others, last) →
        ∀ type definition, after.type? type = some definition →
          last.type? type = some definition) ∧
      after.typeCount = 13 + declarations calls + (elements calls).toFinset.card := by
  have fresh := memoises_of_create made
  refine ⟨⟨?_, fresh.exists_performEach⟩, ?_⟩
  · rintro ⟨types, after, answered⟩
    have memoises := (fresh.performEach answered).1
    exact Nat.le_trans (Nat.le_of_eq memoises.count.symm) memoises.room
  · intro types after answered
    obtain ⟨memoises, found⟩ := fresh.performEach answered
    have answer {call : TypeCall} {type : TypeId} (pair : (call, type) ∈ calls.zip types) :
        after.type? type = some call.entry := List.forall₂_zip found pair
    refine ⟨found.length_eq.symm, ?_, ?_, memoises.listed, ?_, ?_, memoises.count⟩
    · intro element type pair
      exact ⟨answer pair, memoises.performOrFault_arrayType (answer pair)⟩
    · intro first second firstType secondType pair other
      exact memoises.eq_iff_of_arrayTypes (answer pair) (answer other)
    · intro name superclass type next
      exact performOrFault_declareClass
    · intro later others last more type definition
      exact type?_of_grown (performEach_grows more)

def arraysAhead : List TypeCall :=
  [.arrayType ⟨14⟩, .declareClass ⟨9⟩ .root, .arrayType ⟨13⟩, .declareClass ⟨9⟩ ⟨14⟩,
    .arrayType ⟨14⟩, .arrayType .int, .arrayType ⟨15⟩]

theorem arraysAhead_are_memoised :
    ∃ shared, create .seeded = .ok (fixedOnly, shared) ∧
      ∃ types after, fixedOnly.performEach arraysAhead = .ok (types, after) ∧
        types = [⟨13⟩, ⟨14⟩, ⟨15⟩, ⟨16⟩, ⟨13⟩, ⟨17⟩, ⟨18⟩] ∧ after.typeCount = 19 ∧
        after.type? ⟨18⟩ = some (.arrayType ⟨15⟩) ∧
        after.performOrFault (.arrayType ⟨14⟩) = .ok (⟨13⟩, after) := by
  obtain ⟨shared, made⟩ := create_seeded
  obtain ⟨answers, run⟩ := array_types_are_memoised made arraysAhead
  obtain ⟨types, after, answered⟩ := answers.mpr (by decide)
  obtain ⟨_counted, again, _apart, _listed, _declared, _kept, count⟩ := run types after answered
  have issued : (fixedOnly.performEach arraysAhead).map Prod.fst =
      .ok [⟨13⟩, ⟨14⟩, ⟨15⟩, ⟨16⟩, ⟨13⟩, ⟨17⟩, ⟨18⟩] := by decide
  rw [answered] at issued
  cases issued
  refine ⟨shared, made, _, after, answered, rfl, count.trans (by decide), ?_, ?_⟩
  · exact (again ⟨15⟩ ⟨18⟩ (by decide)).1
  · exact (again ⟨14⟩ ⟨13⟩ (by decide)).2

end Program

end CompilerIR
