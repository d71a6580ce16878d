import CompilerIR.Clone.Defect

/-!
Outcomes of work on an arena that a defect can end. What has been added to the arena by
then stays in it, so every outcome comes with the arena left behind.
-/

namespace CompilerIR

abbrev CloneResult (α : Type) := Except CloneDefect α × Arena

namespace CloneResult

variable {α β γ : Type}

/-- Go on in the arena left behind, unless a defect was found. -/
def andThen (result : CloneResult α) (next : α → Arena → CloneResult β) : CloneResult β :=
  match result with
  | (.error defect, arena) => (.error defect, arena)
  | (.ok value, arena) => next value arena

def each (work : α → Arena → CloneResult β) : List α → Arena → CloneResult (List β)
  | [], arena => (.ok [], arena)
  | entry :: entries, arena =>
      (work entry arena).andThen fun value arena =>
        (each work entries arena).andThen fun values arena => (.ok (value :: values), arena)

@[simp]
theorem andThen_ok (value : α) (arena : Arena) (next : α → Arena → CloneResult β) :
    andThen (.ok value, arena) next = next value arena := rfl

@[simp]
theorem andThen_error (defect : CloneDefect) (arena : Arena)
    (next : α → Arena → CloneResult β) :
    andThen (.error defect, arena) next = (.error defect, arena) := rfl

theorem andThen_assoc (result : CloneResult α) (next : α → Arena → CloneResult β)
    (last : β → Arena → CloneResult γ) :
    (result.andThen next).andThen last =
      result.andThen fun value arena => (next value arena).andThen last := by
  obtain ⟨outcome, arena⟩ := result
  cases outcome <;> rfl

end CloneResult

end CompilerIR
