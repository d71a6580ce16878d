import CompilerIR.Proofs.Clone.DefectSite
import CompilerIR.Proofs.Node.Text

/-!
Texts of reports. Main statement: the report of a defect tells everything about the defect, so two
defects are never reported alike.

The message at the place of a report and its notes repeat what has been said before. A defect is
read from the code, the message and the place alone, in this order.
-/

namespace CompilerIR

open Text (Breaks IsWord Unambiguous)

/-! ### The code of a report -/

theorem ErrorCode.text_injective : Function.Injective ErrorCode.text := by
  intro left right same
  cases left <;> cases right <;> first | rfl | exact absurd same (by decide)

theorem ErrorCode.isWord_text (code : ErrorCode) : IsWord code.text := by
  cases code <;> decide

theorem ErrorCode.unambiguous_text : Unambiguous ErrorCode.text :=
  .ofWords text_injective isWord_text

namespace Diagnostic

def placeText (diagnostic : Diagnostic) : String :=
  match diagnostic.label with
  | none => ""
  | some label => "\n  --> " ++ label.span.text ++ ": " ++ label.message

def notesText (diagnostic : Diagnostic) : String :=
  String.join (diagnostic.notes.map fun note => "\n  = note: " ++ note)

theorem text_eq (diagnostic : Diagnostic) :
    diagnostic.text = "internal error [" ++ diagnostic.code.text ++ "]: " ++ diagnostic.message ++
      diagnostic.placeText ++ diagnostic.notesText := rfl

theorem code_of_text {left right : Diagnostic} (same : left.text = right.text) :
    left.code = right.code ∧ left.message ++ (left.placeText ++ left.notesText) =
      right.message ++ (right.placeText ++ right.notesText) := by
  rw [text_eq, text_eq] at same
  simp only [String.append_assoc, String.append_right_inj] at same
  exact ErrorCode.unambiguous_text.before_mark "]: " (by decide) same

end Diagnostic

/-! ### Defects of children -/

inductive ChildDefect
  | dangling (child : ExprId)
  | cyclic (child : ExprId)
  | danglingList (range : ExprRange)

namespace ChildDefect

def text : ChildDefect → String
  | .dangling child => ": child " ++ child.text ++ " is not a node of this arena"
  | .cyclic child => ": child " ++ child.text ++ " does not precede it in the arena"
  | .danglingList range => ": child list " ++ ExprRange.text range ++ " is outside this arena"

theorem breaks_text (found : ChildDefect) (rest : String) : Breaks (found.text ++ rest) := by
  cases found <;> simp only [text, String.append_assoc] <;> exact Text.breaks_append (by decide) _

/-- What is said of a list is not said of a child, as no identity begins like "list". -/
theorem child_append_ne_list (child : ExprId) (rest others : String) :
    ": child " ++ (child.text ++ rest) ≠ ": child list " ++ others := by
  by_cases valid : child.isValid = true
  · rw [ExprId.text_of_isValid valid, String.append_assoc, String.append_assoc,
      ← String.append_assoc]
    exact Text.append_ne_append (by decide) _ _
  · rw [ExprId.text_of_not_isValid valid, ← String.append_assoc]
    exact Text.append_ne_append (by decide) _ _

theorem dangling_append_ne_cyclic (child other : ExprId) (rest others : String) :
    (dangling child).text ++ rest ≠ (cyclic other).text ++ others := by
  intro same
  simp only [text, String.append_assoc, String.append_right_inj] at same
  obtain ⟨_child, endings⟩ := ExprId.unambiguous_text (Text.breaks_append (by decide) _)
    (Text.breaks_append (by decide) _) same
  exact Text.append_ne_append (by decide) _ _ endings

theorem unambiguous_text : Unambiguous text := by
  have child := ExprId.unambiguous_text.labelled ": child "
  have list : Unambiguous fun range : ExprRange => ": child list " ++ ExprRange.text range :=
    (ListRange.unambiguous_text "ExprRange").labelled ": child list "
  intro left right rest others breaks othersBreak same
  cases left with
  | dangling id =>
      cases right with
      | dangling id₂ =>
          exact ((child.closed _ (by decide)) breaks othersBreak same).imp_left (congrArg dangling)
      | cyclic id₂ => exact absurd same (dangling_append_ne_cyclic id id₂ rest others)
      | danglingList range =>
          simp only [text, String.append_assoc] at same
          exact absurd same (child_append_ne_list id _ _)
  | cyclic id =>
      cases right with
      | dangling id₂ => exact absurd same.symm (dangling_append_ne_cyclic id₂ id others rest)
      | cyclic id₂ =>
          exact ((child.closed _ (by decide)) breaks othersBreak same).imp_left (congrArg cyclic)
      | danglingList range =>
          simp only [text, String.append_assoc] at same
          exact absurd same (child_append_ne_list id _ _)
  | danglingList range =>
      cases right with
      | dangling id | cyclic id =>
          simp only [text, String.append_assoc] at same
          exact absurd same.symm (child_append_ne_list id _ _)
      | danglingList range₂ =>
          exact ((list.closed _ (by decide)) breaks othersBreak same).imp_left
            (congrArg danglingList)

def atSite (site : DefectSite) : ChildDefect → CloneDefect
  | .dangling child => .danglingChild site child
  | .cyclic child => .cyclicChild site child
  | .danglingList range => .danglingList site range

theorem site?_atSite (found : ChildDefect) (site : DefectSite) :
    (found.atSite site).site? = some site := by
  cases found <;> rfl

theorem message_atSite (found : ChildDefect) (site : DefectSite) :
    (found.atSite site).diagnostic.message =
      "unable to clone " ++ site.kind ++ " " ++ site.owner.text ++ found.text := by
  cases found <;> simp only [text, ← String.append_assoc] <;> rfl

theorem placeText_atSite (found : ChildDefect) (site : DefectSite) :
    ∃ message, (found.atSite site).diagnostic.placeText =
      "\n  --> " ++ site.span.text ++ ": " ++ message := by
  cases found <;> exact ⟨_, rfl⟩

theorem code_atSite (found : ChildDefect) (site : DefectSite) :
    (found.atSite site).diagnostic.code = .malformedTree :=
  (CloneDefect.diagnostic_of_site? (found.site?_atSite site)).2.1

theorem eq_of_message_place {found found₂ : ChildDefect} {site site₂ : DefectSite}
    {notes notes₂ : String} (kind : IsWord site.kind) (kind₂ : IsWord site₂.kind)
    (same : (found.atSite site).diagnostic.message ++
        ((found.atSite site).diagnostic.placeText ++ notes) =
      (found₂.atSite site₂).diagnostic.message ++
        ((found₂.atSite site₂).diagnostic.placeText ++ notes₂)) :
    found = found₂ ∧ site = site₂ := by
  obtain ⟨message, place⟩ := found.placeText_atSite site
  obtain ⟨message₂, place₂⟩ := found₂.placeText_atSite site₂
  rw [message_atSite, message_atSite, place, place₂] at same
  simp only [String.append_assoc, String.append_right_inj] at same
  obtain ⟨kinds, afterKind⟩ := Text.eq_of_words kind kind₂ (Text.breaks_append (by decide) _)
    (Text.breaks_append (by decide) _) same
  obtain ⟨owners, afterOwner⟩ := ExprId.unambiguous_text (found.breaks_text _)
    (found₂.breaks_text _) ((String.append_right_inj " ").mp afterKind)
  obtain ⟨founds, afterMessage⟩ :=
    unambiguous_text.before_mark "\n  --> " (by decide) afterOwner
  obtain ⟨spans, _rest⟩ := Span.unambiguous_text.before_mark ": " (by decide) afterMessage
  cases site
  cases site₂
  cases owners
  cases kinds
  cases spans
  exact ⟨founds, rfl⟩

end ChildDefect

/-! ### All defects -/

namespace CloneDefect

theorem root_or_child (defect : CloneDefect) :
    (∃ id, defect = .foreignRoot id) ∨
      ∃ (found : ChildDefect) (site : DefectSite), defect = found.atSite site := by
  cases defect with
  | foreignRoot id => exact .inl ⟨id, rfl⟩
  | danglingChild site child => exact .inr ⟨.dangling child, site, rfl⟩
  | cyclicChild site child => exact .inr ⟨.cyclic child, site, rfl⟩
  | danglingList site range => exact .inr ⟨.danglingList range, site, rfl⟩

/-- The site is described by the name of some kind, if there is a site. -/
def NamesKind (defect : CloneDefect) : Prop :=
  ∀ site ∈ defect.site?, ∃ kind : NodeKind, site.kind = kind.name

theorem isWord_of_namesKind {found : ChildDefect} {site : DefectSite}
    (named : (found.atSite site).NamesKind) : IsWord site.kind := by
  obtain ⟨kind, name⟩ := named site (found.site?_atSite site)
  exact name ▸ kind.isWord_name

theorem eq_of_foreignRoot_message {id id₂ : ExprId} {rest rest₂ : String}
    (same : (foreignRoot id).diagnostic.message ++ rest =
      (foreignRoot id₂).diagnostic.message ++ rest₂) : id = id₂ := by
  have message (id : ExprId) : (foreignRoot id).diagnostic.message =
    "unable to clone expression " ++ id.text ++ ": not a node of this arena" := rfl
  rw [message, message] at same
  simp only [String.append_assoc, String.append_right_inj] at same
  exact (ExprId.unambiguous_text.before_mark _ (by decide) same).1

theorem diagnostic_text_eq_iff {left right : CloneDefect} (leftNamed : left.NamesKind)
    (rightNamed : right.NamesKind) : left.diagnostic.text = right.diagnostic.text ↔ left = right := by
  refine ⟨fun same => ?_, fun same => same ▸ rfl⟩
  obtain ⟨codes, messages⟩ := Diagnostic.code_of_text same
  rcases left.root_or_child with ⟨id, rfl⟩ | ⟨found, site, rfl⟩
  · rcases right.root_or_child with ⟨id₂, rfl⟩ | ⟨found₂, site₂, rfl⟩
    · exact congrArg foreignRoot (eq_of_foreignRoot_message messages)
    · rw [found₂.code_atSite site₂] at codes
      cases codes
  · rcases right.root_or_child with ⟨id₂, rfl⟩ | ⟨found₂, site₂, rfl⟩
    · rw [found.code_atSite site] at codes
      cases codes
    · obtain ⟨rfl, rfl⟩ := ChildDefect.eq_of_message_place (isWord_of_namesKind leftNamed)
        (isWord_of_namesKind rightNamed) messages
      rfl

/-- A child that is missing and one that comes too late, where nothing else differs. -/
theorem missing_and_late_child_reported_apart :
    (danglingChild ⟨⟨1⟩, "Multi", ⟨0, 4294967295⟩⟩ .invalid).diagnostic.text ≠
      (cyclicChild ⟨⟨1⟩, "Multi", ⟨0, 4294967295⟩⟩ .invalid).diagnostic.text := by
  intro same
  have missing : (danglingChild ⟨⟨1⟩, "Multi", ⟨0, 4294967295⟩⟩ .invalid).NamesKind := by
    rintro _ ⟨⟩
    exact ⟨.multi .empty, rfl⟩
  have late : (cyclicChild ⟨⟨1⟩, "Multi", ⟨0, 4294967295⟩⟩ .invalid).NamesKind := by
    rintro _ ⟨⟩
    exact ⟨.multi .empty, rfl⟩
  cases (diagnostic_text_eq_iff missing late).mp same

end CloneDefect

end CompilerIR
