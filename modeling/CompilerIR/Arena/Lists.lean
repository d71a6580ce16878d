import CompilerIR.Arena.Columns

/-!
Lists for callers that rely on getting what they ask for. Where the plain operations refuse, these
end the whole compiler by a fault.
-/

namespace CompilerIR

def slice {α : Type} (storage : Array α) (start stop : Nat) : Except Fault (List α) :=
  if stop < start then .error (.outOfBounds stop start)
  else if storage.size < stop then .error (.outOfBounds storage.size stop)
  else .ok (storage.extract start stop).toList

/-- A range without entries is not looked up, so it may start anywhere. -/
def ListRange.readOrFault {α : Type} (range : ListRange α) (storage : Array α) :
    Except Fault (List α) :=
  if range.isEmpty then .ok [] else slice storage range.start.toNat range.stop

namespace Arena

def exprsOrFault (arena : Arena) (range : ExprRange) : Except Fault (List ExprId) :=
  range.readOrFault arena.exprLists

def typesOrFault (arena : Arena) (range : TypeRange) : Except Fault (List TypeId) :=
  range.readOrFault arena.typeLists

/-- Store a list of any length. Nothing of one that is too long is stored. -/
def tryPushExprs (arena : Arena) (ids : List ExprId) : Except OverlongList ExprRange × Arena :=
  match arena.pushExprs ids with
  | .error overlong => (.error overlong, arena)
  | .ok (range, after) => (.ok range, after)

def pushExprsOrFault (arena : Arena) (ids : List ExprId) : Except Fault ExprRange × Arena :=
  let (outcome, after) := arena.tryPushExprs ids
  (outcome.mapError .overlongList, after)

end Arena

end CompilerIR
