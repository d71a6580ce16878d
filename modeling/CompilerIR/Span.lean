import CompilerIR.Json.Basic

/-!
Source positions.
-/

namespace CompilerIR

/-- Byte offsets in the source, from `start` up to `stop`. -/
structure Span where
  start : UInt32
  stop : UInt32
deriving DecidableEq

namespace Span

def text (span : Span) : String :=
  Text.decimal span.start.toNat ++ ".." ++ Text.decimal span.stop.toNat

def toJson (span : Span) : Json :=
  .array [.ofNat span.start.toNat, .ofNat span.stop.toNat]

def ofJson? : Json → Option Span
  | .array [start, stop] => do return ⟨← start.uint32?, ← stop.uint32?⟩
  | _ => none

end Span

end CompilerIR
