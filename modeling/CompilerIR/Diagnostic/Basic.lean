import CompilerIR.Span

/-!
Reports of defects in the compiler itself. There is no severity: a report always ends the
pass that raised it.
-/

namespace CompilerIR

inductive ErrorCode
  /-- A child or list that does not belong to the arena, or a child that does not precede
  its owner. -/
  | malformedTree
  /-- An expression requested from an arena that does not hold it. -/
  | foreignExpr
deriving DecidableEq

namespace ErrorCode

def text : ErrorCode → String
  | .malformedTree => "E9001"
  | .foreignExpr => "E9002"

def ofText? (text : String) : Option ErrorCode :=
  [malformedTree, foreignExpr].find? (·.text = text)

end ErrorCode

structure Label where
  span : Span
  message : String
deriving DecidableEq

structure Diagnostic where
  code : ErrorCode
  message : String
  /-- Absent if the offending node could not be read. -/
  label : Option Label
  notes : List String
deriving DecidableEq

namespace Diagnostic

def report (code : ErrorCode) (message : String) : Diagnostic := ⟨code, message, none, []⟩

/-- Point at `span`, and no longer at an earlier place. -/
def pointAt (diagnostic : Diagnostic) (span : Span) (message : String) : Diagnostic :=
  { diagnostic with label := some ⟨span, message⟩ }

def addNote (diagnostic : Diagnostic) (note : String) : Diagnostic :=
  { diagnostic with notes := diagnostic.notes ++ [note] }

def span? (diagnostic : Diagnostic) : Option Span := diagnostic.label.map (·.span)

/-- The message, the place, and the notes, each on a line of its own. -/
def text (diagnostic : Diagnostic) : String :=
  let headline := "internal error [" ++ diagnostic.code.text ++ "]: " ++ diagnostic.message
  let place :=
    match diagnostic.label with
    | none => ""
    | some label => "\n  --> " ++ label.span.text ++ ": " ++ label.message
  let notes := diagnostic.notes.map fun note => "\n  = note: " ++ note
  headline ++ place ++ String.join notes

end Diagnostic

end CompilerIR
