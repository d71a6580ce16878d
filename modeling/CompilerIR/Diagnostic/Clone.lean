import CompilerIR.Clone.Defect
import CompilerIR.Diagnostic.Basic

/-!
Reports of defects found while cloning. A node that could be read is pointed at; otherwise
its identity goes into a note.
-/

namespace CompilerIR

def CloneDefect.bugNote : String := "this is a bug in the compiler"

def CloneDefect.diagnostic (defect : CloneDefect) : Diagnostic :=
  let located (site : DefectSite) (finding : String) : Diagnostic :=
    (Diagnostic.report .malformedTree defect.message).pointAt site.span
      ("this " ++ site.kind ++ " expression " ++ finding)
  let specific :=
    match defect with
    | .foreignRoot id =>
        (Diagnostic.report .foreignExpr defect.message).addNote
          ("requested root " ++ id.text ++ " does not belong to the arena")
    | .danglingChild site child => located site ("points at " ++ child.text)
    | .cyclicChild site child =>
        (located site ("points at " ++ child.text)).addNote
          ("children are allocated before their parent, so " ++ child.text ++
            " cannot be a child of " ++ site.owner.text)
    | .danglingList site range => located site ("lists " ++ ExprRange.text range)
  specific.addNote bugNote

end CompilerIR
