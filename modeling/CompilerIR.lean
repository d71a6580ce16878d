import CompilerIR.Annotation.Basic
import CompilerIR.Annotation.Builder
import CompilerIR.Annotation.Collector
import CompilerIR.Annotation.Equality
import CompilerIR.Annotation.Event
import CompilerIR.Annotation.Nest
import CompilerIR.Annotation.Saved
import CompilerIR.Annotation.Text
import CompilerIR.Annotation.Visitor
import CompilerIR.Arena.Basic
import CompilerIR.Arena.Columns
import CompilerIR.Arena.Lists
import CompilerIR.Arena.Text
import CompilerIR.Binary.Format
import CompilerIR.Clone.Agreement
import CompilerIR.Clone.Defect
import CompilerIR.Clone.Guarded
import CompilerIR.Clone.Recursion
import CompilerIR.Clone.Result
import CompilerIR.Clone.Rule
import CompilerIR.Clone.Task
import CompilerIR.Decimal.Layout
import CompilerIR.Decimal.Numeral
import CompilerIR.Decimal.Reader
import CompilerIR.Decimal.Shortest
import CompilerIR.Diagnostic.Basic
import CompilerIR.Diagnostic.Clone
import CompilerIR.ExprId
import CompilerIR.Handle
import CompilerIR.Interner
import CompilerIR.Json.Basic
import CompilerIR.Json.Parser
import CompilerIR.Json.Token
import CompilerIR.Json.Writer
import CompilerIR.ListRange
import CompilerIR.Node.Kind
import CompilerIR.Node.Operator
import CompilerIR.Node.Payload
import CompilerIR.Node.Saved
import CompilerIR.Node.Slot
import CompilerIR.Node.Text
import CompilerIR.Program
import CompilerIR.Span
import CompilerIR.Text.Integer
import CompilerIR.Text.Quoted
import CompilerIR.Text.Record
import CompilerIR.Text.Unprintable
import CompilerIR.TypeId
import CompilerIR.Proofs.Annotation.Addition
import CompilerIR.Proofs.Annotation.Collection
import CompilerIR.Proofs.Annotation.Delivery
import CompilerIR.Proofs.Annotation.Meaning
import CompilerIR.Proofs.Annotation.Merge
import CompilerIR.Proofs.Annotation.Nest
import CompilerIR.Proofs.Annotation.Parameters
import CompilerIR.Proofs.Annotation.Protocol
import CompilerIR.Proofs.Annotation.Replay
import CompilerIR.Proofs.Annotation.Saved
import CompilerIR.Proofs.Arena.Columns
import CompilerIR.Proofs.Arena.Extension
import CompilerIR.Proofs.Arena.Layout
import CompilerIR.Proofs.Arena.ListOccurrence
import CompilerIR.Proofs.Arena.Occurrence
import CompilerIR.Proofs.Arena.Reference
import CompilerIR.Proofs.Arena.Soundness
import CompilerIR.Proofs.Arena.Store
import CompilerIR.Proofs.Arena.Tree
import CompilerIR.Proofs.Clone.Addition
import CompilerIR.Proofs.Clone.BadChild
import CompilerIR.Proofs.Clone.BorrowedList
import CompilerIR.Proofs.Clone.ColumnFrame
import CompilerIR.Proofs.Clone.Copy
import CompilerIR.Proofs.Clone.DefectSite
import CompilerIR.Proofs.Clone.Frame
import CompilerIR.Proofs.Clone.Growth
import CompilerIR.Proofs.Clone.Guarded
import CompilerIR.Proofs.Clone.Independence
import CompilerIR.Proofs.Clone.Invariant
import CompilerIR.Proofs.Clone.Isomorphism
import CompilerIR.Proofs.Clone.LastIdentity
import CompilerIR.Proofs.Clone.ListStorage
import CompilerIR.Proofs.Clone.Sequence
import CompilerIR.Proofs.Clone.Session
import CompilerIR.Proofs.Clone.Soundness
import CompilerIR.Proofs.Clone.Step
import CompilerIR.Proofs.Clone.Verdict
import CompilerIR.Proofs.Clone.Walk
import CompilerIR.Proofs.Decimal.Numeral
import CompilerIR.Proofs.Diagnostic.Text
import CompilerIR.Proofs.Interner
import CompilerIR.Proofs.Json.Field
import CompilerIR.Proofs.Json.Token
import CompilerIR.Proofs.Json.Tree
import CompilerIR.Proofs.Node.Form
import CompilerIR.Proofs.Node.Saved
import CompilerIR.Proofs.Node.Text
import CompilerIR.Proofs.Program.ArrayTypes
import CompilerIR.Proofs.Program.Calls
import CompilerIR.Proofs.Program.FixedTypes
import CompilerIR.Proofs.Program.Hierarchy
import CompilerIR.Proofs.Text.Identity
import CompilerIR.Proofs.Text.Unambiguous
