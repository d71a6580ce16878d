import CompilerIR.Diagnostic.Clone
import CompilerIR.Proofs.Clone.BadChild

/-!
What a defect says. Main statement: whatever is wrong with an arena, a request that fails
names a node that the arena had from the start and that the root leads to, and what is wrong
there can still be seen in the arena left behind.
-/

namespace CompilerIR

theorem ListRange.outside_of_read? {α : Type} {range : ListRange α} {storage : Array α}
    (unread : range.read? storage = none) :
    range.isEmpty = false ∧ storage.size < range.stop := by
  unfold ListRange.read? at unread
  split at unread
  · cases unread
  · rename_i notEmpty
    split at unread
    · cases unread
    · rename_i outside
      exact ⟨Bool.eq_false_iff.mpr notEmpty, Nat.lt_of_not_le outside⟩

/-- The site is a node of the original. From the root, children that precede their owners
lead to it, as the arena left behind holds them. -/
structure DefectSite.Reached (original after : Arena) (root : ExprId) (site : DefectSite) :
    Prop where
  path : Relation.ReflTransGen after.RefersBelow root site.owner
  node : ∃ node, original.node? site.owner = some node ∧ site.kind = node.kind.name ∧
    site.span = node.span

namespace CloneDefect

def site? : CloneDefect → Option DefectSite
  | .foreignRoot _ => none
  | .danglingChild site _ | .cyclicChild site _ | .danglingList site _ => some site

def Finding (after : Arena) : CloneDefect → Prop
  | .foreignRoot _ => False
  | .danglingChild site child =>
      child.isValid = true ∧ after.Refers site.owner child ∧ after.contains child = false
  | .cyclicChild site child =>
      child.isValid = true ∧ after.Refers site.owner child ∧ site.owner.index ≤ child.index ∧
        child.index < after.size
  | .danglingList site range =>
      (∃ node, after.node? site.owner = some node ∧ .list range ∈ node.kind.slots) ∧
        range.isEmpty = false ∧ after.exprLists.size < range.stop

def Located (original after : Arena) (root : ExprId) (defect : CloneDefect) : Prop :=
  ∃ site, defect.site? = some site ∧ site.Reached original after root ∧ defect.Finding after

theorem Located.above {original after : Arena} {owner child : ExprId} {defect : CloneDefect}
    (refers : after.RefersBelow owner child) (located : defect.Located original after child) :
    defect.Located original after owner := by
  obtain ⟨site, named, reached, finding⟩ := located
  exact ⟨site, named, ⟨.head refers reached.path, reached.node⟩, finding⟩

theorem diagnostic_of_site? {defect : CloneDefect} {site : DefectSite}
    (named : defect.site? = some site) :
    defect.offending = site.owner ∧ defect.diagnostic.code = .malformedTree ∧
      defect.diagnostic.span? = some site.span := by
  cases defect <;> cases named <;> exact ⟨rfl, rfl, rfl⟩

end CloneDefect

namespace CloneResult

variable {α β : Type} {Bad : Arena → CloneDefect → Prop}

def Fails (Bad : Arena → CloneDefect → Prop) (result : CloneResult α) : Prop :=
  ∀ defect, result.1 = .error defect → Bad result.2 defect

theorem fails_ok (value : α) (arena : Arena) : Fails Bad (.ok value, arena) := by
  intro defect impossible
  cases impossible

theorem fails_error {defect : CloneDefect} {arena : Arena} (bad : Bad arena defect) :
    Fails Bad ((.error defect, arena) : CloneResult α) := by
  intro same named
  cases named
  exact bad

theorem Fails.andThen {result : CloneResult α} {next : α → Arena → CloneResult β}
    (first : Fails Bad result) (rest : ∀ value, Fails Bad (next value result.2)) :
    Fails Bad (result.andThen next) := by
  obtain ⟨outcome, after⟩ := result
  cases outcome with
  | error defect => exact fails_error (first defect rfl)
  | ok value => exact rest value

theorem each_fails {work : α → Arena → CloneResult β}
    (grows : ∀ entry (before : Arena), before.Extends (work entry before).2)
    {start : Arena} {entries : List α}
    (step : ∀ entry ∈ entries, ∀ before : Arena, start.Extends before →
      Fails Bad (work entry before))
    {before : Arena} (extended : start.Extends before) : Fails Bad (each work entries before) := by
  induction entries generalizing before with
  | nil => exact fails_ok [] before
  | cons entry rest inductionHypothesis =>
      apply (step entry List.mem_cons_self before extended).andThen
      intro value
      apply (inductionHypothesis (fun other member => step other (List.mem_cons_of_mem _ member))
        (extended.trans (grows entry before))).andThen
      exact fun values => fails_ok _ _

end CloneResult

namespace Arena

open CloneResult (Fails fails_ok fails_error)

section Slots

variable {original : Arena} {owner : Owner} {visit : owner.Child → Arena → CloneResult ExprId}
  (found : original.node? owner.id = some owner.node)
  (grows : ∀ child (before : Arena), before.Extends (visit child before).2)
  (step : ∀ child : owner.Child, original.node? child.1.id = some child.1.node →
    ∀ before : Arena, original.Extends before →
      Fails (fun after => CloneDefect.Located original after child.1.id) (visit child before))

include found

theorem site_reached (after : Arena) : owner.site.Reached original after owner.id :=
  ⟨.refl, owner.node, found, rfl, rfl⟩

include grows step

theorem copyChild_fails {id : ExprId} {before : Arena} (extended : original.Extends before)
    (refers : before.Refers owner.id id) :
    Fails (fun after => CloneDefect.Located original after owner.id)
      (copyChild owner visit id before) := by
  have here := site_reached found before
  refine copyChild_cases id ?empty ?dangling ?cyclic ?child
  case empty => exact fun _nothing => fails_ok _ before
  case dangling =>
    intro valid missing
    exact fails_error ⟨_, rfl, here, valid, refers, missing⟩
  case cyclic =>
    intro node present notBefore
    have valid := (node?_eq_some_iff.mp present).1
    exact fails_error ⟨_, rfl, here, valid, refers, notBefore, index_lt_size present⟩
  case child =>
    intro node present precedes
    -- What precedes a node of the original is one itself, and has not changed since.
    obtain ⟨same, known⟩ := node?_of_index_lt found precedes
    have unchanged := extended.node? known
    rw [present] at unchanged
    cases unchanged
    intro defect failed
    have kept := (grows ⟨⟨id, node⟩, precedes⟩ before).refers refers
    exact (step ⟨⟨id, node⟩, precedes⟩ known before extended defect failed).above
      ⟨kept, precedes⟩

theorem copySlot_fails {slot : Slot} (member : slot ∈ owner.node.kind.slots) {before : Arena}
    (extended : original.Extends before) :
    Fails (fun after => CloneDefect.Located original after owner.id)
      (copySlot owner visit slot before) := by
  have foundLater := extended.node? found
  cases slot with
  | child id =>
      apply (copyChild_fails found grows step extended
        (refers_of_mem foundLater member List.mem_cons_self)).andThen
      exact fun clone => fails_ok _ _
  | list range =>
      cases read : range.read? before.exprLists with
      | none =>
          have outside := ListRange.outside_of_read? read
          rw [copySlot_list_of_none read]
          exact fails_error
            ⟨_, rfl, site_reached found before, ⟨owner.node, foundLater, member⟩, outside⟩
      | some entries =>
          rw [copySlot_list read]
          have refers (id : ExprId) (present : id ∈ entries) : before.Refers owner.id id :=
            refers_of_mem foundLater member (Slot.entries_of_read? read ▸ present)
          apply (CloneResult.each_fails (copyChild_extends grows)
            (fun id present later grown => copyChild_fails found grows step
              (extended.trans grown) (grown.refers (refers id present))) (.refl before)).andThen
          exact fun clones => fails_ok _ _

end Slots

theorem copyTree_fails {original : Arena} (owner : Owner)
    (found : original.node? owner.id = some owner.node) (before : Arena)
    (extended : original.Extends before) :
    Fails (fun after => CloneDefect.Located original after owner.id) (before.copyTree owner) := by
  have below (child : owner.Child) (present : original.node? child.1.id = some child.1.node)
      (before : Arena) (extended : original.Extends before) :
      Fails (fun after => CloneDefect.Located original after child.1.id)
        (before.copyTree child.1) :=
    copyTree_fails child.1 present before extended
  have grows (child : owner.Child) (before : Arena) := copyTree_extends child.1 before
  rw [copyTree]
  split
  · exact fails_ok _ before
  · apply (CloneResult.each_fails (copySlot_extends grows)
      (fun slot member later grown => copySlot_fails found grows below member grown)
      extended).andThen
    exact fun filled => fails_ok _ _
termination_by owner.id.index
decreasing_by exact child.2

theorem clone_of_get?_none {arena : Arena} {id : ExprId} (valid : id.isValid = true)
    (missing : arena.get? id = none) : arena.clone id = (.error (.foreignRoot id), arena) := by
  rw [clone_eq_copyTree, if_pos valid, missing]

theorem located_of_node? {arena after : Arena} {id : ExprId} {node : Node} {defect : CloneDefect}
    (found : arena.node? id = some node) (failed : arena.clone id = (.error defect, after)) :
    defect.Located arena after id := by
  rw [clone_of_node? found] at failed
  have fails := copyTree_fails ⟨id, node⟩ found arena (.refl arena) defect
  rw [failed] at fails
  exact fails rfl

theorem clone_defect_is_real {arena after : Arena} {id : ExprId} {defect : CloneDefect}
    (failed : arena.clone id = (.error defect, after)) :
    (defect = .foreignRoot id ∧ id.isValid = true ∧ arena.size ≤ id.index ∧ after = arena ∨
      defect.Located arena after id) ∧
    (defect.diagnostic.code.text = "E9002" ∧ defect.diagnostic.span? = none ↔
      arena.contains id = false) ∧
    (arena.contains id = true → defect.diagnostic.code.text = "E9001" ∧
      ∃ node, arena.node? defect.offending = some node ∧
        defect.diagnostic.span? = some node.span) := by
  by_cases valid : id.isValid = true
  · cases present : arena.get? id with
    | none =>
        have absent := contains_eq_false_of_get?_none present
        rw [clone_of_get?_none valid present] at failed
        cases failed
        refine ⟨Or.inl ⟨rfl, valid, Array.getElem?_eq_none_iff.mp present, rfl⟩,
          iff_of_true ⟨rfl, rfl⟩ absent, ?_⟩
        intro contained
        rw [absent] at contained
        cases contained
    | some node =>
        have found := node?_eq_some_iff.mpr ⟨valid, present⟩
        have contained := exists_node?_iff.mp ⟨node, found⟩
        have located := located_of_node? found failed
        have ⟨site, named, reached, _finding⟩ := located
        obtain ⟨owner, code, span⟩ := CloneDefect.diagnostic_of_site? named
        obtain ⟨held, foundThere, _kind, sameSpan⟩ := reached.node
        refine ⟨Or.inr located, iff_of_false ?_ (ne_false_of_eq_true contained), ?_⟩
        · rintro ⟨_code, nowhere⟩
          rw [span] at nowhere
          cases nowhere
        · intro _contained
          exact ⟨congrArg ErrorCode.text code, held, owner ▸ foundThere, by rw [span, sameSpan]⟩
  · rw [ExprId.eq_invalid_of_not_isValid valid, clone_invalid] at failed
    cases failed

def lateList : Arena where
  nodes := #[⟨.int 7, ⟨0, 1⟩, .int⟩, ⟨.prefixed .neg ⟨0⟩, ⟨0, 2⟩, .int⟩,
    -- The initializers lie outside the lists until the dimensions have been cloned: then they
    -- are the clone of a dimension.
    ⟨.newArray .root (some ⟨0, 1⟩) (some ⟨1, 1⟩) ⟨0, 0⟩, ⟨3, 9⟩, .root⟩]
  exprLists := #[⟨1⟩]
  typeLists := #[]

theorem lateList_clone_defect :
    lateList.clone ⟨2⟩ = (.error (.cyclicChild ⟨⟨2⟩, "NewArray", ⟨3, 9⟩⟩ ⟨3⟩),
      ⟨lateList.nodes.push ⟨.prefixed .neg ⟨0⟩, ⟨0, 2⟩, .int⟩, #[⟨1⟩, ⟨3⟩], #[]⟩) ∧
    ∃ node, lateList.node? ⟨2⟩ = some node ∧
      (CloneDefect.cyclicChild ⟨⟨2⟩, "NewArray", ⟨3, 9⟩⟩ ⟨3⟩).diagnostic.span? =
        some node.span := by
  have failed : lateList.clone ⟨2⟩ = (.error (.cyclicChild ⟨⟨2⟩, "NewArray", ⟨3, 9⟩⟩ ⟨3⟩),
      ⟨lateList.nodes.push ⟨.prefixed .neg ⟨0⟩, ⟨0, 2⟩, .int⟩, #[⟨1⟩, ⟨3⟩], #[]⟩) := by
    decide +kernel
  exact ⟨failed, ((clone_defect_is_real failed).2.2 (by decide)).2⟩

end Arena

end CompilerIR
