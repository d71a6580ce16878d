import CompilerIR.Proofs.Interner

/-!
Types asked for one after the other. Main statements: a call that does not find its type made
already adds one entry behind those that are there, and so the fixed types stay in front.
-/

namespace CompilerIR

inductive TypeCall
  | declareClass (name : Name) (superclass : TypeId)
  | arrayType (element : TypeId)
deriving DecidableEq

def TypeCall.entry : TypeCall → TypeEntry
  | .declareClass name superclass => .classType name (some superclass)
  | .arrayType element => .arrayType element

namespace TypeId

theorem isPrimitive_iff {type : TypeId} : type.isPrimitive = true ↔ type.index < 10 := by
  rw [isPrimitive, decide_eq_true_iff, UInt32.le_iff_toNat_le]
  exact Nat.lt_succ_iff.symm

end TypeId

namespace Program

def perform (program : Program) : TypeCall → TypeId × Program
  | .declareClass name superclass => program.declareClass name superclass
  | .arrayType element => program.arrayType element

def performAll (program : Program) (calls : List TypeCall) : Program :=
  calls.foldl (fun program call => (program.perform call).2) program

def made? (program : Program) : TypeCall → Option TypeId
  | .declareClass _ _ => none
  | .arrayType element => program.arrayTypes.lookup element

/-! ### One call -/

section Step

variable {program after : Program} {call : TypeCall} {type : TypeId}

theorem perform_of_made (made : program.made? call = some type) :
    program.perform call = (type, program) := by
  cases call with
  | declareClass name superclass => cases made
  | arrayType element =>
      rw [made?] at made
      rw [perform, arrayType, made]

theorem perform_of_new (new : program.made? call = none) :
    (program.perform call).1 = .ofIndex program.types.size ∧
      (program.perform call).2.types = program.types.push call.entry := by
  cases call with
  | declareClass name superclass => exact ⟨rfl, rfl⟩
  | arrayType element =>
      rw [made?] at new
      rw [perform, arrayType, new]
      exact ⟨rfl, rfl⟩

theorem perform_grows (program : Program) (call : TypeCall) :
    program.types.toList <+: (program.perform call).2.types.toList := by
  cases made : program.made? call with
  | some type => rw [perform_of_made made]
  | none =>
      rw [(perform_of_new made).2, Array.toList_push]
      exact List.prefix_append _ _

theorem type?_eq_getElem? : program.type? type = program.types.toList[type.index]? := by
  rw [type?, Array.getElem?_toList]

theorem mem_types_of_type? {definition : TypeEntry}
    (found : program.type? type = some definition) : definition ∈ program.types.toList := by
  rw [type?_eq_getElem?] at found
  exact List.mem_of_getElem? found

theorem index_lt_typeCount {definition : TypeEntry} (found : program.type? type = some definition) :
    type.index < program.typeCount :=
  (Array.getElem?_eq_some_iff.mp found).1

theorem type?_of_pushed {entry : TypeEntry} (pushed : after.types = program.types.push entry)
    (type : TypeId) : after.type? type =
      if type.index = program.typeCount then some entry else program.type? type := by
  rw [type?, pushed, Array.getElem?_push]
  rfl

theorem typeCount_of_pushed {entry : TypeEntry} (pushed : after.types = program.types.push entry) :
    after.typeCount = program.typeCount + 1 := by
  rw [typeCount, pushed, Array.size_push]
  rfl

/-- A new type is found under the number that is given out for it, if there is one. -/
theorem type?_perform_of_new (new : program.made? call = none)
    (free : program.typeCount < UInt32.size) :
    (program.perform call).2.type? (program.perform call).1 = some call.entry := by
  obtain ⟨answer, pushed⟩ := perform_of_new new
  rw [type?_of_pushed pushed, answer]
  exact if_pos (TypeId.index_ofIndex free)

/-- An entry keeps its number. -/
theorem type?_of_grown {definition : TypeEntry}
    (grown : program.types.toList <+: after.types.toList)
    (found : program.type? type = some definition) : after.type? type = some definition := by
  rw [type?_eq_getElem?] at *
  obtain ⟨more, grown⟩ := grown
  rw [← grown, List.getElem?_append_left (List.getElem?_eq_some_iff.mp found).1]
  exact found

end Step

/-! ### The fixed types -/

def fixedCalls : List TypeCall :=
  [.declareClass .stringClass .root, .declareClass .classClass .root]

/-- The fixed types stand in front, the primitive ones under `names`, and what was `added` is
behind them. -/
structure HasFixed (program : Program) (names : List Name) (added : List TypeCall) : Prop where
  count : names.length = 10
  types : program.types.toList = names.map TypeEntry.primitive ++
    .classType .rootClass none :: (fixedCalls ++ added).map TypeCall.entry

theorem length_internEach {interner after : Interner} {strings : List String} {names : List Name}
    (answered : internEach interner strings = .ok (names, after)) :
    names.length = strings.length := by
  induction strings generalizing interner names with
  | nil =>
      cases answered
      rfl
  | cons string rest inductionHypothesis =>
      obtain ⟨name, middle, others, _first, later, rfl⟩ :=
        Interner.internEach_cons_eq_ok answered
      rw [List.length_cons, List.length_cons, inductionHypothesis later]

theorem create_eq_ok {interner shared : Interner} {program : Program}
    (made : create interner = .ok (program, shared)) :
    ∃ names, internEach interner primitiveNames = .ok (names, shared) ∧
      program =
        ⟨(names.map TypeEntry.primitive ++ fixedClasses).toArray, [], #[], #[], #[], #[]⟩ := by
  obtain ⟨⟨names, _shared⟩, answered, same⟩ := bind_eq_ok made
  cases same
  exact ⟨names, answered, rfl⟩

def fixedOnly : Program where
  types := #[.primitive ⟨4⟩, .primitive ⟨5⟩, .primitive ⟨6⟩, .primitive ⟨7⟩, .primitive ⟨8⟩,
    .primitive ⟨9⟩, .primitive ⟨10⟩, .primitive ⟨11⟩, .primitive ⟨12⟩, .primitive ⟨13⟩,
    .classType .rootClass none, .classType .stringClass (some .root),
    .classType .classClass (some .root)]
  arrayTypes := []
  locals := #[]
  params := #[]
  fields := #[]
  methods := #[]

theorem create_seeded : ∃ shared, create .seeded = .ok (fixedOnly, shared) := ⟨_, rfl⟩

theorem hasFixed_of_create {interner shared : Interner} {program : Program}
    (made : create interner = .ok (program, shared)) :
    ∃ names, internEach interner primitiveNames = .ok (names, shared) ∧
      program.HasFixed names [] := by
  obtain ⟨names, answered, rfl⟩ := create_eq_ok made
  exact ⟨names, answered, length_internEach answered, rfl⟩

namespace HasFixed

variable {program : Program} {names : List Name} {added : List TypeCall}
  (fixed : program.HasFixed names added)

include fixed

theorem perform (call : TypeCall) :
    ∃ more, (program.perform call).2.HasFixed names (added ++ more) := by
  cases made : program.made? call with
  | some type =>
      refine ⟨[], ?_⟩
      rw [perform_of_made made, List.append_nil]
      exact fixed
  | none =>
      refine ⟨[call], fixed.count, ?_⟩
      rw [(perform_of_new made).2, Array.toList_push, fixed.types]
      simp

theorem performAll (calls : List TypeCall) :
    ∃ more, (program.performAll calls).HasFixed names (added ++ more) := by
  induction calls generalizing program added with
  | nil => exact ⟨[], (List.append_nil added).symm ▸ fixed⟩
  | cons call rest inductionHypothesis =>
      obtain ⟨first, fixedAfter⟩ := fixed.perform call
      obtain ⟨others, fixedLast⟩ := inductionHypothesis fixedAfter
      exact ⟨first ++ others, List.append_assoc added first others ▸ fixedLast⟩

theorem type?_of_isPrimitive {type : TypeId} (primitive : type.isPrimitive = true) :
    program.type? type = names[type.index]?.map .primitive := by
  rw [type?_eq_getElem?, fixed.types,
    List.getElem?_append_left, List.getElem?_map]
  rw [List.length_map, fixed.count]
  exact TypeId.isPrimitive_iff.mp primitive

theorem type?_of_not_isPrimitive {type : TypeId} (reference : ¬type.isPrimitive = true) :
    program.type? type = (.classType .rootClass none ::
      (fixedCalls ++ added).map TypeCall.entry)[type.index - 10]? := by
  have behind : (names.map TypeEntry.primitive).length ≤ type.index := by
    rw [List.length_map, fixed.count]
    exact Nat.le_of_not_lt fun below => reference (TypeId.isPrimitive_iff.mpr below)
  rw [type?_eq_getElem?, fixed.types,
    List.getElem?_append_right behind, List.length_map, fixed.count]

theorem type?_root : program.type? .root = some (.classType .rootClass none) :=
  fixed.type?_of_not_isPrimitive (by decide)

theorem type?_string : program.type? .string = some (.classType .stringClass (some .root)) :=
  fixed.type?_of_not_isPrimitive (by decide)

theorem type?_classClass : program.type? .classClass = some (.classType .classClass (some .root)) :=
  fixed.type?_of_not_isPrimitive (by decide)

/-- Behind the root there are only types that can be asked for. -/
theorem type?_eq_some {type : TypeId} {definition : TypeEntry}
    (found : program.type? type = some definition) :
    (type.isPrimitive = true ∧ ∃ name, definition = .primitive name) ∨
      (type = .root ∧ definition = .classType .rootClass none) ∨
      (TypeId.root.index < type.index ∧ ∃ call ∈ fixedCalls ++ added, definition = call.entry) := by
  by_cases primitive : type.isPrimitive = true
  · rw [fixed.type?_of_isPrimitive primitive, Option.map_eq_some_iff] at found
    obtain ⟨name, _named, rfl⟩ := found
    exact .inl ⟨primitive, name, rfl⟩
  · have behind : 10 ≤ type.index :=
      Nat.le_of_not_lt fun below => primitive (TypeId.isPrimitive_iff.mpr below)
    rw [fixed.type?_of_not_isPrimitive primitive] at found
    cases place : type.index - 10 with
    | zero =>
        rw [place] at found
        have first : type.index = TypeId.root.index :=
          Nat.le_antisymm (Nat.sub_eq_zero_iff_le.mp place) behind
        exact .inr (.inl ⟨TypeId.index_injective first, (Option.some.inj found).symm⟩)
    | succ later =>
        rw [place, List.getElem?_cons_succ, List.getElem?_map, Option.map_eq_some_iff] at found
        obtain ⟨call, asked, rfl⟩ := found
        have behindRoot : 10 < type.index := by omega
        exact .inr (.inr ⟨behindRoot, call, List.mem_of_getElem? asked, rfl⟩)

theorem isPrimitive_iff {type : TypeId} {definition : TypeEntry}
    (found : program.type? type = some definition) :
    type.isPrimitive = true ↔ ∃ name, definition = .primitive name := by
  obtain ⟨primitive, named⟩ | ⟨rfl, rfl⟩ | ⟨behind, call, _asked, rfl⟩ := fixed.type?_eq_some found
  · exact iff_of_true primitive named
  · exact iff_of_false (by decide) nofun
  · refine iff_of_false ?_ ?_
    · intro primitive
      exact absurd (TypeId.isPrimitive_iff.mp primitive) (Nat.lt_asymm behind)
    · cases call <;> nofun

theorem superclass_eq_none_iff {type : TypeId} :
    (∃ name, program.type? type = some (.classType name none)) ↔ type = .root := by
  constructor
  · rintro ⟨name, found⟩
    obtain ⟨_primitive, other, clash⟩ | ⟨root, _same⟩ | ⟨_behind, call, _asked, clash⟩ :=
      fixed.type?_eq_some found
    · cases clash
    · exact root
    · cases call <;> cases clash
  · rintro rfl
    exact ⟨.rootClass, fixed.type?_root⟩

end HasFixed

end Program

end CompilerIR
