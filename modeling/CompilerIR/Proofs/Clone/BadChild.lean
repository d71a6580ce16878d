import CompilerIR.Proofs.Clone.Frame
import CompilerIR.Proofs.Clone.Step

/-!
Children that do not precede their owner. Main statement: cloning fails exactly if a visit
from left to right meets such a child, and the defect names the first one.
-/

namespace CompilerIR

namespace Arena

/-- The first valid child that does not precede its owner, with the owner. The visit goes
depth first through the slots of each node and follows the children that precede theirs. -/
def firstBadChild (arena : Arena) (owner : ExprId) : Option (ExprId × ExprId) :=
  (arena.children owner).findSome? fun child =>
    if _precedes : child.index < owner.index then arena.firstBadChild child
    else if child.isValid then some (owner, child) else none
termination_by owner.index
decreasing_by exact _precedes

def badFrom (arena : Arena) (owner child : ExprId) : Option (ExprId × ExprId) :=
  if child.index < owner.index then arena.firstBadChild child
  else if child.isValid then some (owner, child) else none

def RefersBelow (arena : Arena) (owner child : ExprId) : Prop :=
  arena.Refers owner child ∧ child.index < owner.index

def ReadableBelow (arena : Arena) (id : ExprId) : Prop :=
  ∀ owner, Relation.ReflTransGen arena.RefersBelow id owner → arena.ListsInside owner

theorem firstBadChild_eq (arena : Arena) (owner : ExprId) :
    arena.firstBadChild owner = (arena.children owner).findSome? (arena.badFrom owner) := by
  rw [firstBadChild]
  rfl

theorem ReadableBelow.child {arena : Arena} {owner child : ExprId}
    (readable : arena.ReadableBelow owner) (refers : arena.RefersBelow owner child) :
    arena.ReadableBelow child :=
  fun reached path => readable reached (.head refers path)

end Arena

namespace CloneResult

variable {α β : Type}

/-- The outcome is a failure over `first`, or a success if there is no such child. -/
def Reports (first : Option (ExprId × ExprId)) (outcome : Except CloneDefect α) : Prop :=
  match outcome with
  | .ok _ => first = none
  | .error defect => ∃ reference, first = some reference ∧ defect.badChild? = some reference

theorem Reports.andThen {first rest : Option (ExprId × ExprId)} {result : CloneResult α}
    {next : α → Arena → CloneResult β} (reported : Reports first result.1)
    (later : ∀ value, Reports rest (next value result.2).1) :
    Reports (first.or rest) (result.andThen next).1 := by
  obtain ⟨outcome, after⟩ := result
  cases outcome with
  | error defect =>
      obtain ⟨reference, found, same⟩ := reported
      exact ⟨reference, by rw [found, Option.some_or], same⟩
  | ok value =>
      have nothing : first = none := reported
      rw [nothing, Option.none_or]
      exact later value

theorem Reports.andThen_ok {first : Option (ExprId × ExprId)} {result : CloneResult α}
    {next : α → Arena → CloneResult β} (reported : Reports first result.1)
    (succeeds : ∀ value, ∃ last, (next value result.2).1 = .ok last) :
    Reports first (result.andThen next).1 := by
  have later (value : α) : Reports none (next value result.2).1 := by
    obtain ⟨last, done⟩ := succeeds value
    rw [done]
    rfl
  have both := reported.andThen later
  rwa [Option.or_none] at both

theorem each_reports {original : Arena} {work : α → Arena → CloneResult β}
    {bad : α → Option (ExprId × ExprId)} {entries : List α}
    (grows : ∀ entry (before : Arena), before.Extends (work entry before).2)
    (step : ∀ entry ∈ entries, ∀ before : Arena, original.Extends before →
      Reports (bad entry) (work entry before).1)
    {before : Arena} (extended : original.Extends before) :
    Reports (entries.findSome? bad) (each work entries before).1 := by
  induction entries generalizing before with
  | nil => rfl
  | cons entry rest inductionHypothesis =>
      have split : (entry :: rest).findSome? bad = (bad entry).or (rest.findSome? bad) := by
        rw [List.findSome?_cons]
        cases bad entry <;> rfl
      rw [split, each]
      apply (step entry List.mem_cons_self before extended).andThen
      intro value
      apply Reports.andThen_ok
      · exact inductionHypothesis (fun other member => step other (List.mem_cons_of_mem _ member))
          (extended.trans (grows entry before))
      · exact fun values => ⟨_, rfl⟩

end CloneResult

namespace Arena

open CloneResult (Reports)

private theorem findSome?_flatMap {α β γ : Type} (held : α → List β) (bad : β → Option γ)
    (entries : List α) :
    (entries.flatMap held).findSome? bad =
      entries.findSome? fun entry => (held entry).findSome? bad := by
  induction entries with
  | nil => rfl
  | cons entry rest inductionHypothesis =>
      rw [List.flatMap_cons, List.findSome?_append, inductionHypothesis, List.findSome?_cons]
      cases (held entry).findSome? bad <;> rfl

section Slots

variable {original : Arena} {owner : Owner} {visit : owner.Child → Arena → CloneResult ExprId}
  (found : original.node? owner.id = some owner.node)
  (step : ∀ child : owner.Child, original.node? child.1.id = some child.1.node →
    original.Refers owner.id child.1.id → ∀ before : Arena, original.Extends before →
      Reports (original.firstBadChild child.1.id) (visit child before).1)

include found step

theorem copyChild_reports {id : ExprId} (refers : original.Refers owner.id id) {before : Arena}
    (extended : original.Extends before) :
    Reports (original.badFrom owner.id id) (copyChild owner visit id before).1 := by
  by_cases precedes : id.index < owner.id.index
  · obtain ⟨node, present⟩ := node?_of_index_lt found precedes
    rw [copyChild_of_precedes (extended.node? present) precedes, badFrom, if_pos precedes]
    exact step ⟨⟨id, node⟩, precedes⟩ present refers before extended
  · rw [badFrom, if_neg precedes]
    by_cases valid : id.isValid = true
    · obtain ⟨defect, failed, named⟩ : ∃ defect,
          copyChild owner visit id before = (.error defect, before) ∧
            defect.badChild? = some (owner.id, id) :=
        copyChild_of_not_precedes valid precedes
      rw [if_pos valid, failed]
      exact ⟨_, rfl, named⟩
    · rw [if_neg valid]
      rw [ExprId.eq_invalid_of_not_isValid valid]
      rfl

theorem copySlot_reports
    (visitGrows : ∀ child (before : Arena), before.Extends (visit child before).2)
    (inside : original.ListsInside owner.id) {slot : Slot} (member : slot ∈ owner.node.kind.slots)
    {before : Arena} (extended : original.Extends before) :
    Reports ((slot.entries original.exprLists).findSome? (original.badFrom owner.id))
      (copySlot owner visit slot before).1 := by
  cases slot with
  | child id =>
      have refers : original.Refers owner.id id := refers_of_mem found member List.mem_cons_self
      have reported := copyChild_reports found step refers extended
      have single : (Slot.child id).entries original.exprLists = [id] := rfl
      rw [single, List.findSome?_singleton, copySlot]
      exact reported.andThen_ok fun clone => ⟨_, rfl⟩
  | list range =>
      obtain ⟨entries, read⟩ := inside.read? found member
      have held := Slot.entries_of_read? read
      rw [held, copySlot_list (extended.read? read)]
      apply Reports.andThen_ok
      · apply CloneResult.each_reports (copyChild_extends visitGrows) _ extended
        intro id present before extended
        exact copyChild_reports found step (refers_of_mem found member (held ▸ present)) extended
      · exact fun clones => ⟨_, rfl⟩

end Slots

theorem copyTree_reports {original : Arena} (owner : Owner)
    (found : original.node? owner.id = some owner.node)
    (readable : original.ReadableBelow owner.id) (before : Arena)
    (extended : original.Extends before) :
    Reports (original.firstBadChild owner.id) (before.copyTree owner).1 := by
  have below (child : owner.Child) (present : original.node? child.1.id = some child.1.node)
      (refers : original.Refers owner.id child.1.id) (before : Arena)
      (extended : original.Extends before) :
      Reports (original.firstBadChild child.1.id) (before.copyTree child.1).1 :=
    copyTree_reports child.1 present (readable.child ⟨refers, child.2⟩) before extended
  rw [firstBadChild_eq, children_of_node? found, findSome?_flatMap, copyTree]
  by_cases shareable : owner.node.kind.isShareable = true
  · rw [if_pos shareable, NodeKind.slots_of_isShareable shareable]
    rfl
  · rw [if_neg shareable]
    apply Reports.andThen_ok
    · apply CloneResult.each_reports (copySlot_extends fun child => copyTree_extends child.1) _
        extended
      intro slot member before extended
      exact copySlot_reports found below (fun child => copyTree_extends child.1)
        (readable owner.id .refl) member extended
    · exact fun filled => ⟨_, rfl⟩
termination_by owner.id.index
decreasing_by exact child.2

/-! ### Trees without bad children -/

theorem badFrom_eq_none_iff {arena : Arena} {owner child : ExprId} :
    arena.badFrom owner child = none ↔
      child = .invalid ∨ child.index < owner.index ∧ arena.firstBadChild child = none := by
  unfold badFrom
  by_cases precedes : child.index < owner.index
  · have valid := ExprId.isValid_of_index_lt precedes
    simp only [ExprId.isValid, decide_eq_true_eq] at valid
    simp only [precedes, if_true, valid, true_and, false_or]
  · simp [precedes, ExprId.isValid]

theorem firstBadChild_invalid (arena : Arena) : arena.firstBadChild .invalid = none := by
  rw [firstBadChild_eq, children, node?_invalid]
  rfl

section Unspoiled

variable {arena : Arena} {id : ExprId} (unspoiled : arena.firstBadChild id = none)

include unspoiled

theorem childrenPrecede_of_firstBadChild {owner : ExprId}
    (reached : Relation.ReflTransGen arena.Refers id owner) :
    arena.firstBadChild owner = none ∧ arena.ChildrenPrecede owner := by
  have here (owner : ExprId) (none : arena.firstBadChild owner = none) (child : ExprId)
      (refers : arena.Refers owner child) :=
    badFrom_eq_none_iff.mp
      (List.findSome?_eq_none_iff.mp ((arena.firstBadChild_eq owner).symm.trans none) child refers)
  have unspoiledBelow : arena.firstBadChild owner = none := by
    induction reached with
    | refl => exact unspoiled
    | tail path refers inductionHypothesis =>
        rcases here _ inductionHypothesis _ refers with empty | ⟨_precedes, below⟩
        · subst empty
          exact arena.firstBadChild_invalid
        · exact below
  exact ⟨unspoiledBelow, fun child refers =>
    (here owner unspoiledBelow child refers).imp_right And.left⟩

/-- Along references that lead downwards no node comes back to itself. -/
theorem acyclic_of_firstBadChild {owner : ExprId}
    (reached : Relation.ReflTransGen arena.Refers id owner) :
    ¬Relation.TransGen arena.Refers owner owner := by
  have downwards (last : ExprId) (path : Relation.TransGen arena.Refers owner last) :
      last = .invalid ∨ last.index < owner.index := by
    induction path with
    | single refers => exact (childrenPrecede_of_firstBadChild unspoiled reached).2 _ refers
    | tail path refers inductionHypothesis =>
        have later := (childrenPrecede_of_firstBadChild unspoiled
          (reached.trans path.to_reflTransGen)).2 _ refers
        rcases later with empty | precedes
        · exact Or.inl empty
        · rcases inductionHypothesis with empty | before
          · subst empty
            rw [Refers, children, node?_invalid] at refers
            cases refers
          · exact Or.inr (Nat.lt_trans precedes before)
  intro cycle
  rcases downwards owner cycle with empty | impossible
  · subst empty
    obtain ⟨child, refers, _rest⟩ := Relation.TransGen.head'_iff.mp cycle
    rw [Refers, children, node?_invalid] at refers
    cases refers
  · exact Nat.lt_irrefl _ impossible

end Unspoiled

theorem clone_reports {arena : Arena} {id : ExprId} (contained : arena.contains id = true)
    (readable : arena.ReadableBelow id) :
    Reports (arena.firstBadChild id) (arena.clone id).1 := by
  obtain ⟨node, found⟩ := exists_node?_iff.mpr contained
  rw [clone_of_node? found]
  exact copyTree_reports ⟨id, node⟩ found readable arena (.refl arena)

/-- Of whatever length a cycle is and wherever it is entered, it has a bad child. -/
theorem clone_fails_at_first_bad_child {arena : Arena} {id : ExprId}
    (contained : arena.contains id = true) (readable : arena.ReadableBelow id) :
    ((∃ defect, (arena.clone id).1 = .error defect) ↔
      ∃ owner child, arena.firstBadChild id = some (owner, child)) ∧
    (∀ owner child, arena.firstBadChild id = some (owner, child) →
      ∃ site, site.owner = owner ∧
        ((arena.clone id).1 = .error (.danglingChild site child) ∨
          (arena.clone id).1 = .error (.cyclicChild site child))) ∧
    (∀ owner child, Relation.ReflTransGen arena.Refers id owner → arena.Refers owner child →
      child.isValid = true → owner.index ≤ child.index →
      ∃ defect, (arena.clone id).1 = .error defect) ∧
    (∀ owner, Relation.ReflTransGen arena.Refers id owner →
      Relation.TransGen arena.Refers owner owner →
      ∃ defect, (arena.clone id).1 = .error defect) := by
  have reported := clone_reports contained readable
  generalize (arena.clone id).1 = outcome at reported
  cases outcome with
  | error defect =>
      obtain ⟨⟨owner, child⟩, found, named⟩ := reported
      obtain ⟨site, same, cause⟩ := defect.eq_of_badChild? named
      refine ⟨⟨fun _ => ⟨owner, child, found⟩, fun _ => ⟨defect, rfl⟩⟩, ?_, ?_, ?_⟩
      · intro other otherChild foundToo
        rw [found] at foundToo
        cases foundToo
        exact ⟨site, same, cause.imp (congrArg Except.error) (congrArg Except.error)⟩
      · exact fun _ _ _ _ _ _ => ⟨defect, rfl⟩
      · exact fun _ _ _ => ⟨defect, rfl⟩
  | ok copy =>
      have unspoiled : arena.firstBadChild id = none := reported
      refine ⟨⟨?_, ?_⟩, ?_, ?_, ?_⟩
      · rintro ⟨defect, impossible⟩
        cases impossible
      · rintro ⟨owner, child, found⟩
        rw [unspoiled] at found
        cases found
      · intro owner child found
        rw [unspoiled] at found
        cases found
      · intro owner child reached refers valid notBefore
        rcases (childrenPrecede_of_firstBadChild unspoiled reached).2 child refers with
          empty | precedes
        · subst empty
          cases valid
        · exact absurd precedes (Nat.not_lt.mpr notBefore)
      · intro owner reached cycle
        exact absurd cycle (acyclic_of_firstBadChild unspoiled reached)

def entangled : Arena where
  nodes := #[⟨.int 7, ⟨0, 1⟩, .int⟩, ⟨.binary (.compute .add) ⟨0⟩ ⟨2⟩, ⟨0, 5⟩, .int⟩,
    ⟨.multi ⟨0, 2⟩, ⟨0, 9⟩, .int⟩, ⟨.prefixed .neg ⟨2⟩, ⟨0, 10⟩, .int⟩]
  exprLists := #[⟨0⟩, ⟨1⟩]
  typeLists := #[]

theorem entangled_clone_fails : entangled.contains ⟨3⟩ = true ∧ entangled.ReadableBelow ⟨3⟩ ∧
    ∃ site, site.owner = ⟨1⟩ ∧
      ((entangled.clone ⟨3⟩).1 = .error (.danglingChild site ⟨2⟩) ∨
        (entangled.clone ⟨3⟩).1 = .error (.cyclicChild site ⟨2⟩)) := by
  have contained : entangled.contains ⟨3⟩ = true := by decide
  have readable : entangled.ReadableBelow ⟨3⟩ :=
    fun owner _reached => listsInside_of_forall (by decide) owner
  have first : entangled.firstBadChild ⟨3⟩ = some (⟨1⟩, ⟨2⟩) := by decide +kernel
  obtain ⟨_fails, named, _rest⟩ := clone_fails_at_first_bad_child contained readable
  exact ⟨contained, readable, named ⟨1⟩ ⟨2⟩ first⟩

end Arena

end CompilerIR
