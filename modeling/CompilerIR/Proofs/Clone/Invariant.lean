import CompilerIR.Proofs.Clone.Frame

/-!
What holds of the arena at every point of a walk. Main statements: what each entry of a list keeps
is kept by the whole list, wherever a defect ends it, and a list that is worked off has every entry
worked off on the way.
-/

namespace CompilerIR.CloneResult

variable {α β : Type}

theorem andThen_eq_ok {result : CloneResult α} {next : α → Arena → CloneResult β} {last : β}
    {after : Arena} (done : result.andThen next = (.ok last, after)) :
    ∃ value middle, result = (.ok value, middle) ∧ next value middle = (.ok last, after) := by
  obtain ⟨outcome, middle⟩ := result
  cases outcome with
  | error defect => cases done
  | ok value => exact ⟨value, middle, rfl, done⟩

/-- What holds of no entries, and of an entry and those after it once it holds of these, holds of
every list that has been worked off. -/
@[elab_as_elim]
theorem each_induction {work : α → Arena → CloneResult β}
    {Holds : Arena → Arena → List α → List β → Prop} {entries : List α}
    (grows : ∀ entry (before : Arena), before.Extends (work entry before).2)
    (nil : ∀ arena, Holds arena arena [] [])
    (cons : ∀ entry ∈ entries, ∀ {value rest values} {before middle after : Arena},
      work entry before = (.ok value, middle) → before.Extends middle → middle.Extends after →
      Holds middle after rest values → Holds before after (entry :: rest) (value :: values))
    {before after : Arena} {values : List β}
    (done : each work entries before = (.ok values, after)) :
    Holds before after entries values := by
  induction entries generalizing before values with
  | nil =>
      cases done
      exact nil _
  | cons entry rest inductionHypothesis =>
      obtain ⟨value, middle, entryDone, restDone⟩ := andThen_eq_ok done
      obtain ⟨others, last, othersDone, same⟩ := andThen_eq_ok restDone
      cases same
      have toMiddle := grows entry before
      have toAfter := each_extends grows rest middle
      rw [entryDone] at toMiddle
      rw [othersDone] at toAfter
      apply cons entry List.mem_cons_self entryDone toMiddle toAfter
      exact inductionHypothesis (fun other member => cons other (List.mem_cons_of_mem entry member))
        othersDone

/-- Every entry of a list that has been worked off was worked off in an arena on the way. -/
theorem each_done {work : α → Arena → CloneResult β}
    (grows : ∀ entry (before : Arena), before.Extends (work entry before).2) {entries : List α}
    {before after : Arena} {values : List β}
    (done : each work entries before = (.ok values, after)) :
    List.Forall₂ (fun entry value => ∃ middle later : Arena, before.Extends middle ∧
      work entry middle = (.ok value, later) ∧ later.Extends after) entries values := by
  refine each_induction grows ?nil ?cons done
  case nil => exact fun _arena => .nil
  intro entry _member value rest values before middle after entryDone toMiddle toAfter others
  refine .cons ⟨before, middle, .refl before, entryDone, toAfter⟩ (others.imp ?_)
  rintro other made ⟨start, stop, toStart, otherDone, toLast⟩
  exact ⟨start, stop, toMiddle.trans toStart, otherDone, toLast⟩

/-! ### Invariants -/

variable {Kept : Arena → Prop} {Stands : Arena → α → Prop} {StandsNext : Arena → β → Prop}

/-- Whatever the outcome, `Kept` holds of the arena left behind; what has been made `Stands` in
it. -/
structure Keeps (Kept : Arena → Prop) (Stands : Arena → α → Prop) (result : CloneResult α) :
    Prop where
  arena : Kept result.2
  value : ∀ value, result.1 = .ok value → Stands result.2 value

theorem keeps_ok {value : α} {arena : Arena} (kept : Kept arena) (stands : Stands arena value) :
    Keeps Kept Stands (.ok value, arena) := by
  refine ⟨kept, ?_⟩
  intro made same
  cases same
  exact stands

theorem keeps_error {defect : CloneDefect} {arena : Arena} (kept : Kept arena) :
    Keeps Kept Stands (.error defect, arena) := by
  refine ⟨kept, ?_⟩
  intro made same
  cases same

theorem Keeps.andThen {result : CloneResult α} {next : α → Arena → CloneResult β}
    (first : Keeps Kept Stands result)
    (rest : ∀ value after, result = (.ok value, after) → Kept after → Stands after value →
      Keeps Kept StandsNext (next value after)) :
    Keeps Kept StandsNext (result.andThen next) := by
  obtain ⟨outcome, after⟩ := result
  cases outcome with
  | error defect => exact keeps_error first.arena
  | ok value => exact rest value after rfl first.arena (first.value value rfl)

theorem each_keeps {work : α → Arena → CloneResult β}
    (later : ∀ {before after : Arena}, before.Extends after → ∀ {value},
      StandsNext before value → StandsNext after value)
    (grows : ∀ entry (before : Arena), before.Extends (work entry before).2) {entries : List α}
    (step : ∀ entry ∈ entries, ∀ before : Arena, Kept before →
      Keeps Kept StandsNext (work entry before))
    {before : Arena} (kept : Kept before) :
    Keeps Kept (fun after values => ∀ value ∈ values, StandsNext after value)
      (each work entries before) := by
  induction entries generalizing before with
  | nil => exact keeps_ok kept (fun value impossible => by cases impossible)
  | cons entry rest inductionHypothesis =>
      apply (step entry List.mem_cons_self before kept).andThen
      intro value middle _done keptMiddle stands
      have toLast := each_extends grows rest middle
      apply (inductionHypothesis (fun other member => step other (List.mem_cons_of_mem _ member))
        keptMiddle).andThen
      intro values last restDone keptLast stand
      rw [restDone] at toLast
      apply keeps_ok keptLast
      intro made present
      rcases List.mem_cons.mp present with rfl | present
      · exact later toLast stands
      · exact stand made present

end CompilerIR.CloneResult
