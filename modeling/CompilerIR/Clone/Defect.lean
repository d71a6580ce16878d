import CompilerIR.Arena.Basic
import CompilerIR.Node.Text

/-!
Defects found while cloning.
-/

namespace CompilerIR

structure DefectSite where
  owner : ExprId
  /-- The name of its kind. -/
  kind : String
  span : Span
deriving DecidableEq

/-- A tree that is not a well-formed tree of its arena. The program being compiled can
never cause one. -/
inductive CloneDefect
  /-- The root of the request is no node of the arena. -/
  | foreignRoot (id : ExprId)
  /-- A child is no node of the arena. -/
  | danglingChild (site : DefectSite) (child : ExprId)
  /-- A child is the owner itself or a node after it. -/
  | cyclicChild (site : DefectSite) (child : ExprId)
  /-- A child list reaches past the lists of the arena. -/
  | danglingList (site : DefectSite) (range : ExprRange)
deriving DecidableEq

def DefectSite.subject (site : DefectSite) : String :=
  "unable to clone " ++ site.kind ++ " " ++ site.owner.text

namespace CloneDefect

def offending : CloneDefect → ExprId
  | .foreignRoot id => id
  | .danglingChild site _ | .cyclicChild site _ | .danglingList site _ => site.owner

def span? : CloneDefect → Option Span
  | .foreignRoot _ => none
  | .danglingChild site _ | .cyclicChild site _ | .danglingList site _ => some site.span

def message : CloneDefect → String
  | .foreignRoot id => "unable to clone expression " ++ id.text ++ ": not a node of this arena"
  | .danglingChild site child =>
      site.subject ++ ": child " ++ child.text ++ " is not a node of this arena"
  | .cyclicChild site child =>
      site.subject ++ ": child " ++ child.text ++ " does not precede it in the arena"
  | .danglingList site range =>
      site.subject ++ ": child list " ++ ExprRange.text range ++ " is outside this arena"

end CloneDefect

end CompilerIR
